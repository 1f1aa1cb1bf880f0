import AgentlyStage.CloseOperation
import AgentlyStage.Lib.Counting

/-!
# The laws of closing

Every operation is at a place of its own, and what its place promises about the Stage (that it
is sealed, that it has not been closed yet, that the private executor is shut) is not taken back
by what the others do.  `_close_operation_lock` is held by the one operation that is between its
look at `_close_completed` and its end.
-/

namespace AgentlyStage

open Transition

namespace ClosingStage

variable {ε : Type} {s s' t : ClosingStage ε} {i : Nat} {op op' : Operation ε}
  {tail : List (Operation ε)}

/-! ## 1. What a step does -/

/-- The steps that go on to another phase, with the scope after them. -/
inductive Moves (s : ClosingStage ε) (op : Operation ε) : OperationPhase ε → EpochState → Prop
  | sealing (hphase : op.phase = .sealing) :
      Moves s op (if op.isAsync then .asking else .guarding) s.scope.sealScope
  | asking (hphase : op.phase = .asking) (hforeign : op.owned = false) : Moves s op .queued s.scope
  | queued (hphase : op.phase = .queued) :
      Moves s op (if op.kind = .waitSettled then .entering else .guarding) s.scope
  | guarding (hphase : op.phase = .guarding) (hok : s.guards op op.kind.barrier = .ok ()) :
      Moves s op (if op.kind = .cancelAndWaitSettled then .cancelling else .locking) s.scope
  | cancelling (hphase : op.phase = .cancelling) : Moves s op .entering s.scope.cancelScope
  | checking (hphase : op.phase = .checking) (hopen : s.closeCompleted = false) :
      Moves s op .closing s.scope
  | closing (hphase : op.phase = .closing) : Moves s op .entering s.scope.sealScope
  | entering (hphase : op.phase = .entering) (hok : s.guards op .waitSettled = .ok ()) :
      Moves s op .waiting s.scope
  | waiting (hphase : op.phase = .waiting) (hidle : s.scope.hasActiveWorkLocked = false) :
      Moves s op .reading s.scope
  | reading (hphase : op.phase = .reading) (hcloses : op.kind.closes = true) :
      Moves s op (.shutting s.raiseScopeErrors) s.scope
  | joining (terminal : Option (ScopeError ε)) (hphase : op.phase = .joining terminal)
      (hidle : s.executorBusy = false) : Moves s op (.completing terminal) s.scope

/-- How an operation ends before the Stage is closed, or after another one has closed it. -/
inductive Ends (s : ClosingStage ε) (op : Operation ε) : Option (ScopeError ε) → Prop
  | guarding (error : StageError) (hphase : op.phase = .guarding)
      (hguard : s.guards op op.kind.barrier = .error error) : Ends s op (some (.refused error))
  | cancelling (hphase : op.phase = .cancelling) : Ends s op none
  | checking (hphase : op.phase = .checking) (hcompleted : s.closeCompleted = true) :
      Ends s op s.raiseScopeErrors
  | entering (error : StageError) (hphase : op.phase = .entering)
      (hguard : s.guards op .waitSettled = .error error) : Ends s op (some (.refused error))
  | reading (hphase : op.phase = .reading) (hkind : op.kind.closes = false) :
      Ends s op s.raiseScopeErrors
  | expired (hphase : op.phase = .waiting) (htimeout : op.hasTimeout = true) :
      Ends s op (some (.timeout s.unsettled s.activeOriginsLocked))

/-- A step of the operation `i`: the operation after it, the Stage around it, and the second
    `close` that it leaves. -/
inductive Changes (s : ClosingStage ε) (i : Nat) (op : Operation ε) :
    Operation ε → ClosingStage ε → List (Operation ε) → Prop
  | move (phase : OperationPhase ε) (scope : EpochState) (hmove : s.Moves op phase scope) :
      Changes s i op { op with phase := phase } { s with scope := scope } []
  | asked (hphase : op.phase = .asking) (howned : op.owned = true) :
      Changes s i op
        { op with
          phase := .done (some (.refused ownedError))
          result := some (op.resultOf (some (.refused ownedError))) } s []
  | lock (hphase : op.phase = .locking) (hfree : s.closeOperationLock = none) :
      Changes s i op { op with phase := .checking } { s with closeOperationLock := some i } []
  | shut (terminal : Option (ScopeError ε)) (hphase : op.phase = .shutting terminal) :
      Changes s i op { op with phase := .joining terminal }
        { s with privateExecutor :=
            s.privateExecutor.map fun executor => { executor with isShut := true } } []
  | complete (terminal : Option (ScopeError ε)) (hphase : op.phase = .completing terminal) :
      Changes s i op (op.ended terminal) ({ s with closeCompleted := true }.unlock i)
        (op.deferredClose i terminal)
  | finish (error : Option (ScopeError ε)) (hends : s.Ends op error) :
      Changes s i op (op.ended error) (s.unlock i) (op.deferredClose i error)
  | deliver (error : Option (ScopeError ε)) (hphase : op.phase = .done error)
      (hnone : op.result = none) :
      Changes s i op { op with result := some (op.resultOf error) } s []
  | cancelled (hasync : op.isAsync = true) (hnone : op.result = none) :
      Changes s i op { op with result := some (op.resultOf (some .cancelled)) } s []
  | withdrawn (hasync : op.isAsync = true) (hnone : op.result = none)
      (hphase : op.phase = .queued) :
      Changes s i op
        { op with phase := .withdrawn, result := some (op.resultOf (some .cancelled)) } s []

/-- What the steps do. -/
inductive Stepped (s : ClosingStage ε) : CloseEvent ε → ClosingStage ε → Prop
  | scope (e : EpochEvent) (origin : String) (errors : List ε) (scope : EpochState)
      (hstep : s.scope.step e = some scope) :
      Stepped s (.scope e origin errors) (s.afterScope e origin errors scope)
  | executorCall (executor : PrivateExecutor) (hget : s.privateExecutor = some executor)
      (hopen : executor.isShut = false) :
      Stepped s .executorCall
        { s with privateExecutor := some { executor with calls := executor.calls + 1 } }
  | executorReturn (executor : PrivateExecutor) (hget : s.privateExecutor = some executor)
      (hpos : 0 < executor.calls) :
      Stepped s .executorReturn
        { s with privateExecutor := some { executor with calls := executor.calls - 1 } }
  | begin (kind : OperationKind) (isAsync owned : Bool) (runningLoop : Option Nat)
      (hasTimeout : Bool) (hmay : s.mayBegin kind isAsync = true) :
      Stepped s (.begin kind isAsync owned runningLoop hasTimeout)
        { s with
          exited := s.exited || kind.isExit
          operations := s.operations ++
            [Operation.called kind isAsync owned runningLoop hasTimeout] }
  | change (e : CloseEvent ε) (i : Nat) (op op' : Operation ε) (t : ClosingStage ε)
      (tail : List (Operation ε)) (hget : s.operations[i]? = some op)
      (hchange : s.Changes i op op' t tail) :
      Stepped s e { t with operations := s.operations.set i op' ++ tail }
  | observe (d i : Nat) (deferred exit : Operation ε) (value : Nat)
      (context : Option (ScopeError ε)) (error : ScopeError ε)
      (hget : s.operations[d]? = some deferred) (hkind : deferred.kind = .deferredClose i)
      (hphase : deferred.phase = .done (some error)) (hexit : s.operations[i]? = some exit)
      (hresult : exit.result = some (.bodyRaised value context)) :
      Stepped s (.observeDeferredClose d)
        (s.setOperation i { exit with result := some (.bodyRaised value (some error)) })

/-- The rule of the steps that leave no second `close`. -/
theorem Stepped.of_change {e : CloseEvent ε} (hget : s.operations[i]? = some op)
    (hchange : s.Changes i op op' t []) :
    s.Stepped e { t with operations := s.operations.set i op' } := by
  have h := Stepped.change e i op op' t [] hget hchange
  rwa [List.append_nil] at h

theorem stepped_advance (hget : s.operations[i]? = some op) (h : s.advance i op = some s') :
    s.Stepped (.advance i) s' := by
  unfold ClosingStage.advance at h
  split at h
  · rename_i hphase
    cases h
    exact .of_change hget (.move _ _ (.sealing hphase))
  · rename_i hphase
    split at h
    · rename_i howned
      cases h
      exact .of_change hget (.asked hphase howned)
    · rename_i hforeign
      cases h
      exact .of_change hget (.move _ _ (.asking hphase (by simpa using hforeign)))
  · rename_i hphase
    cases h
    exact .of_change hget (.move _ _ (.queued hphase))
  · rename_i hphase
    split at h
    · rename_i error hguard
      cases h
      exact .change _ i op _ _ _ hget (.finish _ (.guarding error hphase hguard))
    · rename_i hok
      cases h
      exact .of_change hget (.move _ _ (.guarding hphase hok))
  · rename_i hphase
    split at h
    · cases h
      exact .of_change hget (.move _ _ (.cancelling hphase))
    · cases h
      exact .change _ i op _ _ _ hget (.finish _ (.cancelling hphase))
  · rename_i hphase
    split at h
    · cases h
    · rename_i hfree
      cases h
      exact .of_change hget (.lock hphase (by simpa using hfree))
  · rename_i hphase
    split at h
    · rename_i hcompleted
      cases h
      exact .change _ i op _ _ _ hget (.finish _ (.checking hphase hcompleted))
    · rename_i hopen
      cases h
      exact .of_change hget (.move _ _ (.checking hphase (by simpa using hopen)))
  · rename_i hphase
    cases h
    exact .of_change hget (.move _ _ (.closing hphase))
  · rename_i hphase
    split at h
    · rename_i error hguard
      cases h
      exact .change _ i op _ _ _ hget (.finish _ (.entering error hphase hguard))
    · rename_i hok
      cases h
      exact .of_change hget (.move _ _ (.entering hphase hok))
  · rename_i hphase
    split at h
    · cases h
    · rename_i hidle
      cases h
      exact .of_change hget (.move _ _ (.waiting hphase (by simpa using hidle)))
  · rename_i hphase
    split at h
    · rename_i hcloses
      cases h
      exact .of_change hget (.move _ _ (.reading hphase hcloses))
    · rename_i hkind
      cases h
      exact .change _ i op _ _ _ hget (.finish _ (.reading hphase (by simpa using hkind)))
  · rename_i terminal hphase
    cases h
    exact .of_change hget (.shut terminal hphase)
  · rename_i terminal hphase
    split at h
    · cases h
    · rename_i hidle
      cases h
      exact .of_change hget (.move _ _ (.joining terminal hphase (by simpa using hidle)))
  · rename_i terminal hphase
    cases h
    exact .change _ i op _ _ _ hget (.complete terminal hphase)
  · cases h
  · cases h

theorem stepped {e : CloseEvent ε} (hstep : s.step e = some s') : s.Stepped e s' := by
  cases e with
  | scope e origin errors =>
    obtain ⟨scope, hscope, rfl⟩ := Option.map_eq_some_iff.mp hstep
    exact .scope e origin errors scope hscope
  | executorCall =>
    simp only [ClosingStage.step] at hstep
    split at hstep
    · rename_i executor hget
      split at hstep
      · cases hstep
      · rename_i hopen
        cases hstep
        exact .executorCall executor hget (by simpa using hopen)
    · cases hstep
  | executorReturn =>
    simp only [ClosingStage.step] at hstep
    split at hstep
    · rename_i executor hget
      split at hstep
      · rename_i hpos
        cases hstep
        exact .executorReturn executor hget hpos
      · cases hstep
    · cases hstep
  | begin kind isAsync owned runningLoop hasTimeout =>
    simp only [ClosingStage.step] at hstep
    split at hstep
    · rename_i hmay
      cases hstep
      exact .begin kind isAsync owned runningLoop hasTimeout hmay
    · cases hstep
  | advance i =>
    obtain ⟨op, hget, hadvance⟩ := Option.bind_eq_some_iff.mp hstep
    exact stepped_advance hget hadvance
  | expire i =>
    obtain ⟨op, hget, hexpire⟩ := Option.bind_eq_some_iff.mp hstep
    unfold ClosingStage.expire at hexpire
    split at hexpire
    · rename_i hphase
      split at hexpire
      · rename_i hboth
        cases hexpire
        exact .change _ i op _ _ _ hget (.finish _ (.expired hphase (Bool.and_eq_true_iff.mp hboth).1))
      · cases hexpire
    · cases hexpire
  | deliver i =>
    obtain ⟨op, hget, hdeliver⟩ := Option.bind_eq_some_iff.mp hstep
    unfold ClosingStage.deliver at hdeliver
    split at hdeliver
    · rename_i error hphase hnone
      cases hdeliver
      exact .of_change hget (.deliver error hphase hnone)
    · cases hdeliver
  | cancelAwait i =>
    obtain ⟨op, hget, hcancel⟩ := Option.bind_eq_some_iff.mp hstep
    unfold ClosingStage.cancelAwait at hcancel
    split at hcancel
    · rename_i hboth
      obtain ⟨hasync, hnone⟩ := Bool.and_eq_true_iff.mp hboth
      have hnone' : op.result = none := by simpa using hnone
      split at hcancel
      · cases hcancel
      · cases hcancel
      · rename_i hphase
        cases hcancel
        exact .of_change hget (.withdrawn hasync hnone' hphase)
      · cases hcancel
        exact .of_change hget (.cancelled hasync hnone')
    · cases hcancel
  | observeDeferredClose d =>
    obtain ⟨deferred, hget, hobserve⟩ := Option.bind_eq_some_iff.mp hstep
    unfold ClosingStage.observeDeferredClose at hobserve
    split at hobserve
    · rename_i i error hkind hphase
      split at hobserve
      · rename_i exit hexit
        split at hobserve
        · rename_i value context hresult
          cases hobserve
          exact .observe d i deferred exit value context error hget hkind hphase hexit hresult
        · cases hobserve
      · cases hobserve
    · cases hobserve

/-! ## 2. What is not taken back -/

def ExecutorShut (s : ClosingStage ε) : Prop :=
  ∀ executor, s.privateExecutor = some executor → executor.isShut = true

/-- A later state: sealing, the shutdown of the private executor and `_close_completed` are not
    taken back, and nothing is submitted to an executor that is shut. -/
structure Later (s s' : ClosingStage ε) : Prop where
  sealed : s.scope.isSealed = true → s'.scope.isSealed = true
  completed : s.closeCompleted = true → s'.closeCompleted = true
  shut : s.ExecutorShut → s'.ExecutorShut
  idle : s.ExecutorShut → s.executorBusy = false → s'.executorBusy = false

theorem Later.refl (s : ClosingStage ε) : s.Later s := ⟨id, id, id, fun _ => id⟩

theorem Later.trans {s'' : ClosingStage ε} (h : s.Later s') (h' : s'.Later s'') : s.Later s'' :=
  ⟨h'.sealed ∘ h.sealed, h'.completed ∘ h.completed, h'.shut ∘ h.shut,
    fun hshut hidle => h'.idle (h.shut hshut) (h.idle hshut hidle)⟩

/-- The rule of the steps that leave the executor and `_close_completed` alone. -/
theorem Later.of_eq (hsealed : s.scope.isSealed = true → s'.scope.isSealed = true)
    (hexecutor : s'.privateExecutor = s.privateExecutor)
    (hcompleted : s'.closeCompleted = s.closeCompleted) : s.Later s' where
  sealed := hsealed
  completed h := hcompleted.trans h
  shut h executor hget := h executor (hexecutor.symm.trans hget)
  idle _ h := by
    unfold executorBusy at h ⊢
    rwa [hexecutor]

theorem Moves.seals {phase : OperationPhase ε} {scope : EpochState} (h : s.Moves op phase scope) :
    s.scope.isSealed = true → scope.isSealed = true := by
  cases h with
  | sealing => exact fun _ => rfl
  | closing => exact fun _ => rfl
  | cancelling =>
    unfold EpochState.cancelScope
    split <;> exact id
  | _ => exact id

theorem Changes.later (h : s.Changes i op op' t tail) (operations : List (Operation ε)) :
    s.Later { t with operations := operations } := by
  cases h with
  | move phase scope hmove => exact .of_eq hmove.seals rfl rfl
  | shut terminal hphase =>
    refine ⟨id, id, fun _ executor hget => ?_, fun _ hidle => ?_⟩
    · obtain ⟨old, -, rfl⟩ := Option.map_eq_some_iff.mp hget
      rfl
    · unfold executorBusy at hidle ⊢
      change Option.any _ (s.privateExecutor.map _) = false
      rw [Option.any_map]
      exact hidle
  | complete terminal hphase => exact ⟨id, fun _ => rfl, id, fun _ => id⟩
  | asked | lock | finish | deliver | cancelled | withdrawn => exact .of_eq id rfl rfl

theorem Stepped.later {e : CloseEvent ε} (h : s.Stepped e s') : s.Later s' := by
  cases h with
  | scope e origin errors scope hstep =>
    exact .of_eq (EpochState.watchEffect_step hstep).keeps.1 rfl rfl
  | executorCall executor hget hopen =>
    refine ⟨id, id, fun hshut => ?_, fun hshut _ => ?_⟩
    · exact absurd ((hshut executor hget).symm.trans hopen) (by simp)
    · exact absurd ((hshut executor hget).symm.trans hopen) (by simp)
  | executorReturn executor hget hpos =>
    refine ⟨id, id, fun hshut other hother => ?_, fun _ hidle => ?_⟩
    · cases hother
      exact hshut executor hget
    · rw [executorBusy, hget] at hidle
      exact absurd hpos (of_decide_eq_false hidle)
  | begin => exact .of_eq id rfl rfl
  | change e i op op' t tail hget hchange => exact hchange.later _
  | observe => exact .of_eq id rfl rfl

/-! ## 3. The places of the operations -/

/-- What `_raise_scope_errors` can have found. -/
def IsReport : Option (ScopeError ε) → Prop
  | none | some (.idleTimeout _) | some (.settlement _) => True
  | _ => False

theorem isReport_raiseScopeErrors (s : ClosingStage ε) : IsReport s.raiseScopeErrors := by
  unfold raiseScopeErrors
  split
  · trivial
  · split <;> trivial

/-- `__exit__` has sealed the Stage. -/
def SealedByExit (s : ClosingStage ε) (op : Operation ε) : Prop :=
  op.kind.isExit = true → s.scope.isSealed = true

/-- What an operation that has ended with `error` has come to. -/
def EndedWith (s : ClosingStage ε) (op : Operation ε) : Option (ScopeError ε) → Prop
  | some (.refused error) =>
    (op.owned = true ∨ op.threadLoop.isSome = true) ∧ ∃ message, error = .stageLifecycle message
  | some (.timeout _ _) => op.hasTimeout = true
  | some .cancelled => False
  | _ => op.kind.closes = true → s.closeCompleted = true

/-- What its place promises about the Stage. -/
def Placed (s : ClosingStage ε) (op : Operation ε) : OperationPhase ε → Prop
  | .sealing => op.kind.isExit = true
  | .asking => op.isAsync = true ∧ s.SealedByExit op
  | .queued | .withdrawn => s.SealedByExit op
  | .guarding => op.kind ≠ .waitSettled ∧ s.SealedByExit op
  | .cancelling => op.kind = .cancelAndWaitSettled
  | .locking | .checking => op.kind.closes = true ∧ s.SealedByExit op
  | .closing => op.kind.closes = true ∧ s.SealedByExit op ∧ s.closeCompleted = false
  | .entering | .waiting | .reading =>
    op.kind.closes = true → s.scope.isSealed = true ∧ s.closeCompleted = false
  | .shutting terminal =>
    op.kind.closes = true ∧ IsReport terminal ∧ s.scope.isSealed = true ∧ s.closeCompleted = false
  | .joining terminal =>
    op.kind.closes = true ∧ IsReport terminal ∧ s.scope.isSealed = true ∧
      s.closeCompleted = false ∧ s.ExecutorShut
  | .completing terminal =>
    op.kind.closes = true ∧ IsReport terminal ∧ s.scope.isSealed = true ∧
      s.closeCompleted = false ∧ s.ExecutorShut ∧ s.executorBusy = false
  | .done error => s.SealedByExit op ∧ s.EndedWith op error

theorem guards_error {barrier : BarrierScope.Barrier} {error : StageError}
    (h : s.guards op barrier = .error error) :
    (op.owned = true ∨ op.threadLoop.isSome = true) ∧ ∃ message, error = .stageLifecycle message := by
  unfold guards EpochState.ensureNotSameCallerLoopSyncWait at h
  split at h
  · rename_i howned
    cases h
    exact ⟨Or.inl howned, _, rfl⟩
  · split at h
    · cases h
    · rename_i loop hloop
      split at h
      · cases h
        exact ⟨Or.inr (by rw [hloop]; rfl), _, rfl⟩
      · cases h

theorem endedWith_of_isReport {error : Option (ScopeError ε)} (hreport : IsReport error)
    (hcompleted : op.kind.closes = true → s.closeCompleted = true) : s.EndedWith op error := by
  cases error with
  | none => exact hcompleted
  | some error =>
    cases error with
    | idleTimeout | settlement => exact hcompleted
    | refused | timeout | cancelled => exact hreport.elim

theorem Later.endedWith (hl : s.Later s') {error : Option (ScopeError ε)}
    (h : s.EndedWith op error) : s'.EndedWith op error := by
  cases error with
  | none => exact fun hcloses => hl.completed (h hcloses)
  | some error =>
    cases error with
    | idleTimeout | settlement => exact fun hcloses => hl.completed (h hcloses)
    | refused | timeout | cancelled => exact h

/-- What the place of an operation promises is not taken back, as long as no other operation
    closes the Stage. -/
theorem Later.placed (hl : s.Later s') (h : s.Placed op op.phase)
    (hopen : op.holdsLock = true → s'.closeCompleted = s.closeCompleted) :
    s'.Placed op op.phase := by
  have hexit : s.SealedByExit op → s'.SealedByExit op := fun hs hkind => hl.sealed (hs hkind)
  unfold Operation.holdsLock at hopen
  cases hphase : op.phase with
  | sealing =>
    rw [hphase] at h
    exact h
  | queued | withdrawn =>
    rw [hphase] at h
    exact hexit h
  | asking | guarding =>
    rw [hphase] at h
    exact ⟨h.1, hexit h.2⟩
  | cancelling =>
    rw [hphase] at h
    exact h
  | locking | checking =>
    rw [hphase] at h
    exact ⟨h.1, hexit h.2⟩
  | closing =>
    rw [hphase] at h hopen
    exact ⟨h.1, hexit h.2.1, (hopen (by rw [h.1]; rfl)).trans h.2.2⟩
  | entering | waiting | reading =>
    rw [hphase] at h hopen
    intro hcloses
    exact ⟨hl.sealed (h hcloses).1, (hopen (by rw [hcloses]; rfl)).trans (h hcloses).2⟩
  | shutting terminal =>
    rw [hphase] at h hopen
    exact ⟨h.1, h.2.1, hl.sealed h.2.2.1, (hopen (by rw [h.1]; rfl)).trans h.2.2.2⟩
  | joining terminal =>
    rw [hphase] at h hopen
    obtain ⟨hcloses, hreport, hsealed, hcompleted, hshut⟩ := h
    exact ⟨hcloses, hreport, hl.sealed hsealed,
      (hopen (by rw [hcloses]; rfl)).trans hcompleted, hl.shut hshut⟩
  | completing terminal =>
    rw [hphase] at h hopen
    obtain ⟨hcloses, hreport, hsealed, hcompleted, hshut, hidle⟩ := h
    exact ⟨hcloses, hreport, hl.sealed hsealed,
      (hopen (by rw [hcloses]; rfl)).trans hcompleted, hl.shut hshut, hl.idle hshut hidle⟩
  | done error =>
    rw [hphase] at h
    exact ⟨hexit h.1, hl.endedWith h.2⟩

theorem sealedByExit_of_closes_eq_false (h : op.kind.closes = false) : s.SealedByExit op := by
  intro hexit
  cases hkind : op.kind with
  | exit value =>
    rw [hkind] at h
    cases h
  | waitSettled | cancelAndWaitSettled | close | deferredClose =>
    rw [hkind] at hexit
    cases hexit

theorem sealedByExit_of_waits (h : op.kind.closes = true → s.scope.isSealed = true) :
    s.SealedByExit op := by
  cases hcloses : op.kind.closes with
  | false => exact sealedByExit_of_closes_eq_false hcloses
  | true => exact fun _ => h hcloses

theorem Moves.placed {phase : OperationPhase ε} {scope : EpochState} (h : s.Moves op phase scope)
    (hp : s.Placed op op.phase) :
    Placed { s with scope := scope } { op with phase := phase } phase := by
  cases h with
  | sealing hphase =>
    rw [hphase] at hp
    split
    · rename_i hasync
      exact ⟨hasync, fun _ => rfl⟩
    · refine ⟨fun hkind => ?_, fun _ => rfl⟩
      rw [Placed, show op.kind = .waitSettled from hkind] at hp
      cases hp
  | asking hphase hforeign =>
    rw [hphase] at hp
    exact hp.2
  | queued hphase =>
    rw [hphase] at hp
    split
    · rename_i hkind
      intro hcloses
      rw [show op.kind = .waitSettled from hkind] at hcloses
      cases hcloses
    · rename_i hkind
      exact ⟨hkind, hp⟩
  | guarding hphase hok =>
    rw [hphase] at hp
    split
    · rename_i hkind
      exact hkind
    · rename_i hkind
      refine ⟨?_, hp.2⟩
      cases hop : op.kind with
      | waitSettled => exact absurd hop hp.1
      | cancelAndWaitSettled => exact absurd hop hkind
      | _ => rfl
  | cancelling hphase =>
    rw [hphase] at hp
    intro hcloses
    rw [show op.kind = .cancelAndWaitSettled from hp] at hcloses
    cases hcloses
  | checking hphase hopen =>
    rw [hphase] at hp
    exact ⟨hp.1, hp.2, hopen⟩
  | closing hphase =>
    rw [hphase] at hp
    exact fun _ => ⟨rfl, hp.2.2⟩
  | entering hphase hok =>
    rw [hphase] at hp
    exact hp
  | waiting hphase hidle =>
    rw [hphase] at hp
    exact hp
  | reading hphase hcloses =>
    rw [hphase] at hp
    obtain ⟨hsealed, hcompleted⟩ := hp hcloses
    exact ⟨hcloses, isReport_raiseScopeErrors s, hsealed, hcompleted⟩
  | joining terminal hphase hidle =>
    rw [hphase] at hp
    obtain ⟨hcloses, hreport, hsealed, hcompleted, hshut⟩ := hp
    exact ⟨hcloses, hreport, hsealed, hcompleted, hshut, hidle⟩

theorem Ends.placed {error : Option (ScopeError ε)} (h : s.Ends op error)
    (hp : s.Placed op op.phase) : s.SealedByExit op ∧ s.EndedWith op error := by
  cases h with
  | guarding error hphase hguard =>
    rw [hphase] at hp
    exact ⟨hp.2, guards_error hguard⟩
  | cancelling hphase =>
    rw [hphase] at hp
    have hkind : op.kind.closes = false := by rw [show op.kind = .cancelAndWaitSettled from hp]; rfl
    exact ⟨sealedByExit_of_closes_eq_false hkind,
      fun hcloses => absurd (hcloses.symm.trans hkind) (by simp)⟩
  | checking hphase hcompleted =>
    rw [hphase] at hp
    exact ⟨hp.2, endedWith_of_isReport (isReport_raiseScopeErrors s) fun _ => hcompleted⟩
  | entering error hphase hguard =>
    rw [hphase] at hp
    exact ⟨sealedByExit_of_waits fun hcloses => (hp hcloses).1, guards_error hguard⟩
  | reading hphase hkind =>
    exact ⟨sealedByExit_of_closes_eq_false hkind, endedWith_of_isReport
      (isReport_raiseScopeErrors s) fun hcloses => absurd (hcloses.symm.trans hkind) (by simp)⟩
  | expired hphase htimeout =>
    rw [hphase] at hp
    exact ⟨sealedByExit_of_waits fun hcloses => (hp hcloses).1, htimeout⟩

theorem Changes.placed (h : s.Changes i op op' t tail) (hp : s.Placed op op.phase) :
    t.Placed op' op'.phase := by
  cases h with
  | move phase scope hmove => exact hmove.placed hp
  | asked hphase howned =>
    rw [hphase] at hp
    exact ⟨hp.2, Or.inl howned, _, rfl⟩
  | lock hphase hfree =>
    rw [hphase] at hp
    exact hp
  | shut terminal hphase =>
    rw [hphase] at hp
    obtain ⟨hcloses, hreport, hsealed, hcompleted⟩ := hp
    refine ⟨hcloses, hreport, hsealed, hcompleted, fun executor hget => ?_⟩
    obtain ⟨old, -, rfl⟩ := Option.map_eq_some_iff.mp hget
    rfl
  | complete terminal hphase =>
    rw [hphase] at hp
    exact ⟨fun _ => hp.2.2.1, endedWith_of_isReport hp.2.1 fun _ => rfl⟩
  | finish error hends => exact hends.placed hp
  | deliver error hphase hnone => exact hp
  | cancelled hasync hnone => exact hp
  | withdrawn hasync hnone hphase =>
    rw [hphase] at hp
    exact hp

/-! ## 4. `_close_operation_lock` -/

theorem holdsLock_called (kind : OperationKind) (isAsync owned : Bool) (runningLoop : Option Nat)
    (hasTimeout : Bool) :
    (Operation.called (ε := ε) kind isAsync owned runningLoop hasTimeout).holdsLock = false := by
  cases kind <;> cases isAsync <;> rfl

theorem holdsLock_done {error : Option (ScopeError ε)} (hphase : op.phase = .done error) :
    op.holdsLock = false := by
  unfold Operation.holdsLock
  rw [hphase]
  exact Bool.and_false _

theorem Moves.holdsLock {phase : OperationPhase ε} {scope : EpochState}
    (h : s.Moves op phase scope) (hp : s.Placed op op.phase) :
    { op with phase := phase }.holdsLock = op.holdsLock := by
  unfold Operation.holdsLock
  cases h with
  | sealing hphase =>
    rw [hphase]
    split <;> rfl
  | queued hphase =>
    rw [hphase]
    split
    · rename_i hkind
      change (op.kind.closes && true) = (op.kind.closes && false)
      rw [hkind]
      rfl
    · rfl
  | guarding hphase hok =>
    rw [hphase]
    split <;> rfl
  | cancelling hphase =>
    rw [hphase] at hp
    rw [hphase, show op.kind = .cancelAndWaitSettled from hp]
    rfl
  | asking hphase | checking hphase | closing hphase | entering hphase | waiting hphase
    | reading hphase | joining terminal hphase =>
    rw [hphase]

/-- The lock after a step of the operation `i`. -/
theorem Changes.lock_iff (h : s.Changes i op op' t tail) (hp : s.Placed op op.phase)
    (hheld : s.closeOperationLock = some i ↔ op.holdsLock = true) (k : Nat) :
    t.closeOperationLock = some k ↔
      (k = i ∧ op'.holdsLock = true) ∨ (k ≠ i ∧ s.closeOperationLock = some k) := by
  have hsame : op'.holdsLock = op.holdsLock → (s.closeOperationLock = some k ↔
      (k = i ∧ op'.holdsLock = true) ∨ (k ≠ i ∧ s.closeOperationLock = some k)) := by
    intro hsame
    rw [hsame, ← hheld]
    by_cases hk : k = i
    · subst hk
      simp
    · simp [hk]
  have hends : op'.holdsLock = false →
      ((if s.closeOperationLock = some i then none else s.closeOperationLock) = some k ↔
        (k = i ∧ op'.holdsLock = true) ∨ (k ≠ i ∧ s.closeOperationLock = some k)) := by
    intro hfree
    rw [hfree]
    by_cases hk : k = i
    · subst hk
      split <;> simp_all
    · split
      · rename_i hlock
        simp [hlock, hk, Ne.symm hk]
      · simp [hk]
  cases h with
  | move phase scope hmove => exact hsame (hmove.holdsLock hp)
  | asked hphase howned =>
    refine hsame ?_
    unfold Operation.holdsLock
    rw [hphase]
  | lock hphase hfree =>
    rw [hphase] at hp
    have hheld' : { op with phase := OperationPhase.checking }.holdsLock = true := by
      unfold Operation.holdsLock
      rw [hp.1]
      rfl
    rw [hheld', hfree]
    simp [eq_comm]
  | shut terminal hphase =>
    refine hsame ?_
    unfold Operation.holdsLock
    rw [hphase]
  | complete terminal hphase => exact hends (holdsLock_done rfl)
  | finish error hend => exact hends (holdsLock_done rfl)
  | deliver error hphase hnone => exact hsame rfl
  | cancelled hasync hnone => exact hsame rfl
  | withdrawn hasync hnone hphase =>
    refine hsame ?_
    unfold Operation.holdsLock
    rw [hphase]

/-! ## 5. The invariant -/

/-- Every operation is at its place, and the lock is held by the one that needs it. -/
structure CloseInv (s : ClosingStage ε) : Prop where
  placed : ∀ (i : Nat) (op : Operation ε), s.operations[i]? = some op → s.Placed op op.phase
  lock : ∀ i, s.closeOperationLock = some i ↔
    ∃ op : Operation ε, s.operations[i]? = some op ∧ op.holdsLock = true
  closed : s.closeCompleted = true →
    s.scope.isSealed = true ∧ s.ExecutorShut ∧ s.executorBusy = false

theorem CloseInv.held (hi : s.CloseInv) (hget : s.operations[i]? = some op) :
    s.closeOperationLock = some i ↔ op.holdsLock = true := by
  rw [hi.lock i]
  constructor
  · rintro ⟨other, hother, hheld⟩
    rw [hget] at hother
    cases hother
    exact hheld
  · exact fun hheld => ⟨op, hget, hheld⟩

/-- One operation holds the lock. -/
theorem CloseInv.unique (hi : s.CloseInv) {j : Nat} (hget : s.operations[i]? = some op)
    (hheld : op.holdsLock = true) (hget' : s.operations[j]? = some op')
    (hheld' : op'.holdsLock = true) : i = j := by
  have h := (hi.held hget).mpr hheld
  rw [(hi.held hget').mpr hheld'] at h
  exact (Option.some.inj h).symm

theorem Changes.mem_tail (h : s.Changes i op op' t tail) {new : Operation ε} (hnew : new ∈ tail) :
    new = { kind := .deferredClose i, phase := .guarding } ∧
      ∃ message, op.defers (some (.refused (.stageLifecycle message))) = true ∧
        op' = op.ended (some (.refused (.stageLifecycle message))) := by
  have hdefers : ∀ error, new ∈ op.deferredClose i error →
      new = { kind := .deferredClose i, phase := .guarding } ∧
        ∃ message, op.defers (some (.refused (.stageLifecycle message))) = true ∧
          op.ended error = op.ended (some (.refused (.stageLifecycle message))) := by
    intro error hmem
    unfold Operation.deferredClose at hmem
    split at hmem
    · rename_i hdefers
      refine ⟨List.mem_singleton.mp hmem, ?_⟩
      have hcase := hdefers
      unfold Operation.defers at hcase
      split at hcase
      · rename_i message _
        exact ⟨message, hdefers, rfl⟩
      · cases hcase
    · cases hmem
  cases h with
  | complete terminal hphase => exact hdefers terminal hnew
  | finish error hends => exact hdefers error hnew
  | _ => cases hnew

/-- `_close_completed` is set by an operation that holds the lock, when the Stage is sealed and
    its executor has come to its end. -/
theorem Changes.completed (h : s.Changes i op op' t tail) (hp : s.Placed op op.phase) :
    t.closeCompleted = s.closeCompleted ∨ (op.holdsLock = true ∧
      s.scope.isSealed = true ∧ s.ExecutorShut ∧ s.executorBusy = false) := by
  cases h with
  | complete terminal hphase =>
    rw [hphase] at hp
    obtain ⟨hcloses, -, hsealed, -, hshut, hidle⟩ := hp
    refine Or.inr ⟨?_, hsealed, hshut, hidle⟩
    unfold Operation.holdsLock
    rw [hcloses, hphase]
    rfl
  | _ => exact Or.inl rfl

theorem getElem?_change_cases {α : Type} {l tail : List α} {j : Nat} {x y a : α}
    (hx : l[i]? = some x) (hget : (l.set i y ++ tail)[j]? = some a) :
    (j = i ∧ a = y) ∨ (j ≠ i ∧ l[j]? = some a) ∨ (l.length ≤ j ∧ a ∈ tail) := by
  by_cases hj : j < l.length
  · rw [List.getElem?_append_left (by rwa [List.length_set])] at hget
    rcases getElem?_set_cases hx hget with hnew | hold
    · exact Or.inl hnew
    · exact Or.inr (Or.inl hold)
  · have hle : l.length ≤ j := Nat.le_of_not_lt hj
    rw [List.getElem?_append_right (by rwa [List.length_set])] at hget
    exact Or.inr (Or.inr ⟨hle, List.mem_of_getElem? hget⟩)

theorem CloseInv.change (hi : s.CloseInv) (hget : s.operations[i]? = some op)
    (h : s.Changes i op op' t tail) :
    CloseInv { t with operations := s.operations.set i op' ++ tail } := by
  have hp := hi.placed i op hget
  have hlater := h.later (s.operations.set i op' ++ tail)
  refine ⟨fun j a ha => ?_, fun k => ?_, fun hcompleted => ?_⟩
  · rcases getElem?_change_cases hget ha with ⟨-, rfl⟩ | ⟨hj, hold⟩ | ⟨-, hnew⟩
    · exact h.placed hp
    · refine hlater.placed (hi.placed j a hold) fun hheld => ?_
      rcases h.completed hp with hsame | ⟨hheld', -⟩
      · exact hsame
      · exact absurd (hi.unique hold hheld hget hheld') hj
    · rw [(h.mem_tail hnew).1]
      exact ⟨nofun, nofun⟩
  · refine (h.lock_iff hp (hi.held hget) k).trans ⟨?_, ?_⟩
    · rintro (⟨rfl, hheld⟩ | ⟨hk, hlock⟩)
      · exact ⟨op', getElem?_append_of_some tail (getElem?_set_self' hget), hheld⟩
      · obtain ⟨a, ha, hheld⟩ := (hi.lock k).mp hlock
        refine ⟨a, getElem?_append_of_some tail ?_, hheld⟩
        rwa [List.getElem?_set_ne hk.symm]
    · rintro ⟨a, ha, hheld⟩
      rcases getElem?_change_cases hget ha with ⟨rfl, rfl⟩ | ⟨hk, hold⟩ | ⟨-, hnew⟩
      · exact Or.inl ⟨rfl, hheld⟩
      · exact Or.inr ⟨hk, (hi.held hold).mpr hheld⟩
      · rw [(h.mem_tail hnew).1] at hheld
        cases hheld
  · have hclosed : s.scope.isSealed = true ∧ s.ExecutorShut ∧ s.executorBusy = false := by
      rcases h.completed hp with hsame | ⟨-, hclosed⟩
      · exact hi.closed (hsame.symm.trans hcompleted)
      · exact hclosed
    exact ⟨hlater.sealed hclosed.1, hlater.shut hclosed.2.1, hlater.idle hclosed.2.1 hclosed.2.2⟩

/-- The rule of the steps that leave the operations and the lock alone. -/
theorem CloseInv.aside (hi : s.CloseInv) (hl : s.Later s')
    (hcompleted : s'.closeCompleted = s.closeCompleted)
    (hoperations : s'.operations = s.operations)
    (hlock : s'.closeOperationLock = s.closeOperationLock) : s'.CloseInv where
  placed i op hget := by
    rw [hoperations] at hget
    exact hl.placed (hi.placed i op hget) fun _ => hcompleted
  lock i := by
    rw [hlock, hoperations]
    exact hi.lock i
  closed h := by
    obtain ⟨hsealed, hshut, hidle⟩ := hi.closed (hcompleted.symm.trans h)
    exact ⟨hl.sealed hsealed, hl.shut hshut, hl.idle hshut hidle⟩

theorem CloseInv.begin (hi : s.CloseInv) {new : Operation ε} (exited : Bool)
    (hnew : s.Placed new new.phase) (hfree : new.holdsLock = false) :
    CloseInv { s with exited := exited, operations := s.operations ++ [new] } where
  placed i op hget := by
    rcases getElem?_append_cases hget with ⟨-, rfl⟩ | hold
    · exact hnew
    · exact hi.placed i op hold
  lock i := by
    refine (hi.lock i).trans ⟨fun ⟨op, hget, hheld⟩ => ?_, fun ⟨op, hget, hheld⟩ => ?_⟩
    · exact ⟨op, getElem?_append_of_some _ hget, hheld⟩
    · rcases getElem?_append_cases hget with ⟨-, rfl⟩ | hold
      · exact absurd (hheld.symm.trans hfree) (by simp)
      · exact ⟨op, hold, hheld⟩
  closed := hi.closed

theorem placed_called (s : ClosingStage ε) (kind : OperationKind) (isAsync owned : Bool)
    (runningLoop : Option Nat) (hasTimeout : Bool) :
    s.Placed (.called kind isAsync owned runningLoop hasTimeout)
      (Operation.called (ε := ε) kind isAsync owned runningLoop hasTimeout).phase := by
  cases kind <;> cases isAsync <;> simp [Placed, Operation.called, Operation.firstPhase,
    SealedByExit, OperationKind.isExit, OperationKind.closes]

theorem CloseInv.observe (hi : s.CloseInv) {exit : Operation ε}
    (hexit : s.operations[i]? = some exit) (result : OperationResult ε) :
    CloseInv (s.setOperation i { exit with result := some result }) where
  placed j a ha := by
    rcases getElem?_set_cases hexit ha with ⟨-, rfl⟩ | ⟨-, hold⟩
    · exact hi.placed i exit hexit
    · exact hi.placed j a hold
  lock k := by
    refine (hi.lock k).trans ⟨fun ⟨a, ha, hheld⟩ => ?_, fun ⟨a, ha, hheld⟩ => ?_⟩
    · by_cases hk : k = i
      · subst hk
        rw [hexit] at ha
        cases ha
        exact ⟨_, getElem?_set_self' hexit, hheld⟩
      · refine ⟨a, ?_, hheld⟩
        exact (List.getElem?_set_ne (Ne.symm hk)).trans ha
    · rcases getElem?_set_cases hexit ha with ⟨rfl, rfl⟩ | ⟨-, hold⟩
      · exact ⟨exit, hexit, hheld⟩
      · exact ⟨a, hold, hheld⟩
  closed := hi.closed

/-- **Step lemma.** -/
theorem CloseInv.step {e : CloseEvent ε} (hi : s.CloseInv) (hstep : s.step e = some s') :
    s'.CloseInv := by
  have hlater := (stepped hstep).later
  cases stepped hstep with
  | scope e origin errors scope hscope => exact hi.aside hlater rfl rfl rfl
  | executorCall executor hget hopen => exact hi.aside hlater rfl rfl rfl
  | executorReturn executor hget hpos => exact hi.aside hlater rfl rfl rfl
  | begin kind isAsync owned runningLoop hasTimeout hmay =>
    exact hi.begin _ (placed_called s kind isAsync owned runningLoop hasTimeout)
      (holdsLock_called kind isAsync owned runningLoop hasTimeout)
  | change e i op op' t tail hget hchange => exact hi.change hget hchange
  | observe d i deferred exit value context error hget hkind hphase hexit hresult =>
    exact hi.observe hexit _

theorem reachable_closeInv {configured : ConfiguredBackend} {idleTimeout : Option Nat}
    {privateExecutor : Bool}
    (h : (closeSystem ε configured idleTimeout privateExecutor).Reachable s) : s.CloseInv := by
  refine h.invariant (fun s hinit => ?_) fun s e s' hi _ hstep => hi.step hstep
  have hnone : s.operations = [] := by rw [hinit]
  have hlock : s.closeOperationLock = none := by rw [hinit]
  have hopen : s.closeCompleted = false := by rw [hinit]
  refine ⟨fun i op hget => ?_, fun i => ?_, fun hcompleted => ?_⟩
  · rw [hnone] at hget
    cases hget
  · rw [hlock, hnone]
    exact ⟨fun h => (nomatch h), fun ⟨_, hget, _⟩ => nomatch hget⟩
  · rw [hopen] at hcompleted
    cases hcompleted

/-! ## 6. The laws -/

/-- What the callers of `close` rely on. -/
structure CloseLaws (s : ClosingStage ε) : Prop where
  exclusive : ∀ (i j : Nat) (op op' : Operation ε), s.operations[i]? = some op →
    s.operations[j]? = some op' → op.holdsLock = true → op'.holdsLock = true → i = j
  /-- A Stage that is closed is sealed, its executor has come to its end, and nobody closes it
      again. -/
  completed : s.closeCompleted = true →
    s.scope.isSealed = true ∧ s.ExecutorShut ∧ s.executorBusy = false ∧
      ∀ op ∈ s.operations, op.holdsLock = true → op.phase = .checking
  /-- A `close` that has reported, without errors or with those of the scope, has closed it. -/
  closes : ∀ op ∈ s.operations, op.kind.closes = true →
    ∀ error, op.phase = .done error → IsReport error → s.closeCompleted = true
  /-- It ends in another way only when a guard refuses its caller or its timeout passes. -/
  stopped : ∀ op ∈ s.operations, ∀ error, op.phase = .done (some error) →
    ¬ IsReport (some error) →
      (∃ message, error = .refused (.stageLifecycle message) ∧
        (op.owned = true ∨ op.threadLoop.isSome = true)) ∨
      (∃ unsettled origins, error = .timeout unsettled origins ∧ op.hasTimeout = true)

theorem phase_of_completed (hp : s.Placed op op.phase) (hcompleted : s.closeCompleted = true)
    (hheld : op.holdsLock = true) : op.phase = .checking := by
  unfold Operation.holdsLock at hheld
  obtain ⟨hcloses, hphase⟩ := Bool.and_eq_true_iff.mp hheld
  have hopen : s.closeCompleted = false → op.phase = .checking :=
    fun h => absurd (h.symm.trans hcompleted) (by simp)
  cases h : op.phase with
  | checking => rfl
  | closing =>
    rw [h] at hp hopen
    exact hopen hp.2.2
  | entering | waiting | reading =>
    rw [h] at hp hopen
    exact hopen (hp hcloses).2
  | shutting terminal =>
    rw [h] at hp hopen
    exact hopen hp.2.2.2
  | joining terminal | completing terminal =>
    rw [h] at hp hopen
    exact hopen hp.2.2.2.1
  | sealing | asking | queued | guarding | cancelling | locking | done | withdrawn =>
    rw [h] at hphase
    cases hphase

theorem closes_of_report {error : Option (ScopeError ε)} (hp : s.Placed op (.done error))
    (hreport : IsReport error) (hcloses : op.kind.closes = true) : s.closeCompleted = true := by
  have hended := hp.2
  cases error with
  | none => exact hended hcloses
  | some error =>
    cases error with
    | idleTimeout | settlement => exact hended hcloses
    | refused | timeout | cancelled => exact hreport.elim

theorem CloseInv.laws (hi : s.CloseInv) : s.CloseLaws where
  exclusive i j op op' hget hget' hheld hheld' := hi.unique hget hheld hget' hheld'
  completed hcompleted := by
    obtain ⟨hsealed, hshut, hidle⟩ := hi.closed hcompleted
    refine ⟨hsealed, hshut, hidle, fun op hop hheld => ?_⟩
    obtain ⟨i, hget⟩ := List.mem_iff_getElem?.mp hop
    exact phase_of_completed (hi.placed i op hget) hcompleted hheld
  closes op hop hcloses error hphase hreport := by
    obtain ⟨i, hget⟩ := List.mem_iff_getElem?.mp hop
    have hp := hi.placed i op hget
    rw [hphase] at hp
    exact closes_of_report hp hreport hcloses
  stopped op hop error hphase hreport := by
    obtain ⟨i, hget⟩ := List.mem_iff_getElem?.mp hop
    have hended := hi.placed i op hget
    rw [hphase] at hended
    cases error with
    | refused error =>
      obtain ⟨hcause, message, rfl⟩ := hended.2
      exact Or.inl ⟨message, rfl, hcause⟩
    | timeout unsettled origins => exact Or.inr ⟨unsettled, origins, rfl, hended.2⟩
    | cancelled => exact hended.2.elim
    | idleTimeout | settlement => exact absurd trivial hreport

theorem run_later {configured : ConfiguredBackend} {idleTimeout : Option Nat}
    {privateExecutor : Bool} {es : List (CloseEvent ε)}
    (hrun : (closeSystem ε configured idleTimeout privateExecutor).run s es = some s') :
    s.Later s' :=
  System.run_invariant (I := fun u => s.Later u)
    (fun _ _ _ hlater hstep => hlater.trans (stepped hstep).later) (Later.refl s) hrun

/-- **The laws of closing**, in every interleaving: one `close` at a time, which completes only
    when the Stage is sealed and the executor has come to its end; the others wait or find it
    completed; and what has been sealed, shut or closed stays so. -/
theorem close_laws {configured : ConfiguredBackend} {idleTimeout : Option Nat}
    {privateExecutor : Bool}
    (h : (closeSystem ε configured idleTimeout privateExecutor).Reachable s) :
    s.CloseLaws ∧ ∀ es s', (closeSystem ε configured idleTimeout privateExecutor).run s es =
      some s' → s.Later s' :=
  ⟨(reachable_closeInv h).laws, fun _ _ hrun => run_later hrun⟩

/-- A thread outside of any loop. -/
def outsideSite : CallSite := ⟨false, none, none, true, none, []⟩

/-- Two callers close a Stage: the timeout of the first one passes, the second one waits for the
    call in the private executor, and closes the Stage with the error of the handle. -/
def closeRun : List (CloseEvent Nat) :=
  [.scope (.go outsideSite) "root" [], .executorCall,
    .begin .close false false none true, .begin .close false false none false,
    .advance 0, .advance 1, .advance 0, .advance 0, .advance 0, .advance 0, .expire 0,
    .advance 1, .advance 1, .advance 1, .advance 1,
    .scope (.handleQuiescent 0) "" [7], .advance 1, .advance 1, .advance 1, .executorReturn,
    .advance 1, .advance 1]

theorem close_laws_closeRun : ∃ s,
    (closeSystem Nat .auto none true).run
      { scope := { configured := .auto, idleTimeout := none }, privateExecutor := some {} }
      closeRun = some s ∧
    s.operations.map Operation.phase =
      [.done (some (.timeout "1 unsettled handle(s)" ["root"])),
        .done (some (.settlement [7]))] ∧ s.CloseLaws := by
  have hend : ((closeSystem Nat .auto none true).run
      { scope := { configured := .auto, idleTimeout := none }, privateExecutor := some {} }
      closeRun).any (fun s => decide (s.operations.map Operation.phase =
        [.done (some (.timeout "1 unsettled handle(s)" ["root"])),
          .done (some (.settlement [7]))])) = true := by decide
  obtain ⟨s, hrun, hs⟩ := (Option.any_eq_true _ _).mp hend
  exact ⟨s, hrun, of_decide_eq_true hs,
    (close_laws (System.reachable_of_run closeRun rfl hrun)).1⟩

end ClosingStage

end AgentlyStage
