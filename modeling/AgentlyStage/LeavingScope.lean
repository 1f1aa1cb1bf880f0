import AgentlyStage.CloseLaws

/-!
# Leaving a `with` statement

`__exit__` seals the Stage and closes it.  The exception of the body goes on whatever the close
comes to; its error becomes the context of that exception.  A guard that refuses the close on a
loop leaves the rest to a second `close` in a thread, which has no timeout and which no guard
refuses: the Stage is closed when it has come to its end.
-/

namespace AgentlyStage

open Transition

namespace ClosingStage

variable {ε : Type} {s s' t : ClosingStage ε} {i : Nat} {op op' : Operation ε}
  {tail : List (Operation ε)}

/-! ## 1. What an operation keeps -/

/-- The arguments of a call stay, and so does the error with which it has ended. -/
structure SameCall (op op' : Operation ε) : Prop where
  kind : op'.kind = op.kind
  isAsync : op'.isAsync = op.isAsync
  owned : op'.owned = op.owned
  runningLoop : op'.runningLoop = op.runningLoop
  hasTimeout : op'.hasTimeout = op.hasTimeout
  done : ∀ error, op.phase = .done error → op'.phase = .done error

theorem SameCall.refl (op : Operation ε) : SameCall op op := ⟨rfl, rfl, rfl, rfl, rfl, fun _ => id⟩

theorem Changes.sameCall (h : s.Changes i op op' t tail) : SameCall op op' := by
  cases h with
  | move phase scope hmove =>
    refine ⟨rfl, rfl, rfl, rfl, rfl, fun error hdone => ?_⟩
    cases hmove with
    | sealing h | asking h | queued h | guarding h | cancelling h | checking h | closing h
      | entering h | waiting h | reading h | joining _ h =>
      rw [hdone] at h
      cases h
  | finish error hends =>
    refine ⟨rfl, rfl, rfl, rfl, rfl, fun error hdone => ?_⟩
    cases hends with
    | guarding _ h | cancelling h | checking h | entering _ h | reading h | expired h =>
      rw [hdone] at h
      cases h
  | asked h | lock h | shut _ h | complete _ h | withdrawn _ _ h =>
    refine ⟨rfl, rfl, rfl, rfl, rfl, fun error hdone => ?_⟩
    rw [hdone] at h
    cases h
  | deliver | cancelled => exact ⟨rfl, rfl, rfl, rfl, rfl, fun _ => id⟩

/-- An operation stays in the table. -/
theorem Stepped.kept {e : CloseEvent ε} (h : s.Stepped e s') {j : Nat} {a : Operation ε}
    (ha : s.operations[j]? = some a) : ∃ a', s'.operations[j]? = some a' ∧ SameCall a a' := by
  cases h with
  | scope | executorCall | executorReturn => exact ⟨a, ha, .refl a⟩
  | begin => exact ⟨a, getElem?_append_of_some _ ha, .refl a⟩
  | change e i op op' t tail hget hchange =>
    by_cases hj : j = i
    · subst hj
      rw [hget] at ha
      cases ha
      exact ⟨op', getElem?_append_of_some tail (getElem?_set_self' hget), hchange.sameCall⟩
    · exact ⟨a, getElem?_append_of_some tail ((List.getElem?_set_ne (Ne.symm hj)).trans ha), .refl a⟩
  | observe d i deferred exit value context error hget hkind hphase hexit hresult =>
    by_cases hj : j = i
    · subst hj
      rw [hexit] at ha
      cases ha
      exact ⟨_, getElem?_set_self' hexit, rfl, rfl, rfl, rfl, rfl, fun _ => id⟩
    · exact ⟨a, (List.getElem?_set_ne (Ne.symm hj)).trans ha, .refl a⟩

/-! ## 2. The operations of a `with` statement -/

/-- Leaving a `with` statement passes no timeout; no guard refuses a second `close`. -/
structure WellCalled (op : Operation ε) : Prop where
  exit : op.kind.isExit = true → op.hasTimeout = false
  deferred : ∀ i, op.kind = .deferredClose i →
    op.owned = false ∧ op.isAsync = false ∧ op.runningLoop = none ∧ op.hasTimeout = false

theorem WellCalled.same (h : WellCalled op) (hs : SameCall op op') : WellCalled op' where
  exit hkind := by
    rw [hs.kind] at hkind
    exact hs.hasTimeout.trans (h.exit hkind)
  deferred i hkind := by
    rw [hs.kind] at hkind
    obtain ⟨howned, hasync, hloop, htimeout⟩ := h.deferred i hkind
    exact ⟨hs.owned.trans howned, hs.isAsync.trans hasync, hs.runningLoop.trans hloop,
      hs.hasTimeout.trans htimeout⟩

/-- A second `close` of the operation `i` has ended with this error. -/
def DeferredEnded (s : ClosingStage ε) (i : Nat) (context : Option (ScopeError ε)) : Prop :=
  ∃ (d : Nat) (new : Operation ε) (error : ScopeError ε), s.operations[d]? = some new ∧
    new.kind = .deferredClose i ∧ new.phase = .done (some error) ∧ context = some error

/-- The result of a sync operation is there when it has ended; that of a `with` statement is the
    exception of its body. -/
structure GivesBody (s : ClosingStage ε) (i : Nat) (op : Operation ε) : Prop where
  sync : op.isAsync = false → (op.result.isSome = true ↔ ∃ error, op.phase = .done error)
  withdrawn : op.phase = .withdrawn → op.isAsync = true ∧ op.result.isSome = true
  body : ∀ value, op.kind = .exit (some value) → ∀ result, op.result = some result →
    ∃ context, result = .bodyRaised value context ∧
      (op.isAsync = false → op.phase = .done context ∨ s.DeferredEnded i context)

/-- A guard has refused the close of a `with` statement on a loop: there is a second one. -/
def HasDeferred (s : ClosingStage ε) (i : Nat) (op : Operation ε) : Prop :=
  ∀ value message, op.kind = .exit (some value) → op.isAsync = false →
    op.runningLoop.isSome = true → op.phase = .done (some (.refused (.stageLifecycle message))) →
      ∃ (d : Nat) (new : Operation ε), s.operations[d]? = some new ∧ new.kind = .deferredClose i

/-- A second `close` is that of a sync `with` statement on a loop whose body has raised. -/
def DeferredBy (s : ClosingStage ε) (new : Operation ε) : Prop :=
  ∀ i, new.kind = .deferredClose i → ∃ (op : Operation ε) (value : Nat),
    s.operations[i]? = some op ∧ op.kind = .exit (some value) ∧ op.isAsync = false ∧
      op.runningLoop.isSome = true

structure ExitInv (s : ClosingStage ε) : Prop where
  once : s.operations.countP (fun op => op.kind.isExit) = s.exited.toNat
  called : ∀ (i : Nat) (op : Operation ε), s.operations[i]? = some op → WellCalled op
  body : ∀ (i : Nat) (op : Operation ε), s.operations[i]? = some op → s.GivesBody i op
  deferred : ∀ (i : Nat) (op : Operation ε), s.operations[i]? = some op → s.HasDeferred i op
  origin : ∀ (i : Nat) (op : Operation ε), s.operations[i]? = some op → s.DeferredBy op

theorem Stepped.deferredBy {e : CloseEvent ε} (h : s.Stepped e s') {new : Operation ε}
    (hd : s.DeferredBy new) : s'.DeferredBy new := by
  intro i hkind
  obtain ⟨op, value, hget, hexit, hasync, hloop⟩ := hd i hkind
  obtain ⟨op', hget', hsame⟩ := h.kept hget
  exact ⟨op', value, hget', hsame.kind.trans hexit, hsame.isAsync.trans hasync,
    by rw [hsame.runningLoop]; exact hloop⟩

theorem DeferredBy.same {new new' : Operation ε} (hd : s.DeferredBy new)
    (hs : SameCall new new') : s.DeferredBy new' :=
  fun i hkind => hd i (hs.kind.symm.trans hkind)

/-- What `defers` looks at. -/
theorem defers_cases {error : Option (ScopeError ε)} (h : op.defers error = true) :
    ∃ value, op.kind = .exit (some value) ∧ op.isAsync = false ∧
      op.runningLoop.isSome = true := by
  unfold Operation.defers at h
  split at h
  · rename_i value _ hkind
    obtain ⟨hasync, hloop⟩ := Bool.and_eq_true_iff.mp h
    exact ⟨value, hkind, by simpa using hasync, hloop⟩
  · cases h

theorem Stepped.deferredEnded {e : CloseEvent ε} (h : s.Stepped e s')
    {context : Option (ScopeError ε)} (hd : s.DeferredEnded i context) :
    s'.DeferredEnded i context := by
  obtain ⟨d, new, error, hnew, hkind, hphase, rfl⟩ := hd
  obtain ⟨new', hnew', hsame⟩ := h.kept hnew
  exact ⟨d, new', error, hnew', hsame.kind.trans hkind, hsame.done _ hphase, rfl⟩

theorem Stepped.hasDeferred {e : CloseEvent ε} (h : s.Stepped e s') (hd : s.HasDeferred i op) :
    s'.HasDeferred i op := by
  intro value message hkind hasync hloop hphase
  obtain ⟨d, new, hnew, hof⟩ := hd value message hkind hasync hloop hphase
  obtain ⟨new', hnew', hsame⟩ := h.kept hnew
  exact ⟨d, new', hnew', hsame.kind.trans hof⟩

theorem Stepped.givesBody {e : CloseEvent ε} (h : s.Stepped e s') (hb : s.GivesBody i op) :
    s'.GivesBody i op where
  sync := hb.sync
  withdrawn := hb.withdrawn
  body value hkind result hresult := by
    obtain ⟨context, heq, hcontext⟩ := hb.body value hkind result hresult
    refine ⟨context, heq, fun hasync => ?_⟩
    exact (hcontext hasync).imp_right h.deferredEnded

theorem resultOf_exit {value : Nat} (hkind : op.kind = .exit (some value))
    (error : Option (ScopeError ε)) : op.resultOf error = .bodyRaised value error := by
  unfold Operation.resultOf
  rw [hkind]

theorem givesBody_of_async (hasync : op.isAsync = true)
    (hwithdrawn : op.phase = .withdrawn → op.result.isSome = true)
    (hbody : ∀ value, op.kind = .exit (some value) → ∀ result, op.result = some result →
      ∃ context, result = .bodyRaised value context) : s.GivesBody i op where
  sync h := absurd (h.symm.trans hasync) (by simp)
  withdrawn h := ⟨hasync, hwithdrawn h⟩
  body value hkind result hresult := by
    obtain ⟨context, heq⟩ := hbody value hkind result hresult
    exact ⟨context, heq, fun h => absurd (h.symm.trans hasync) (by simp)⟩

/-- An async form is given a result. -/
theorem givesBody_of_resultOf (hasync : op.isAsync = true) {phase : OperationPhase ε}
    (error : Option (ScopeError ε)) :
    s.GivesBody i { op with phase := phase, result := some (op.resultOf error) } := by
  refine givesBody_of_async hasync (fun _ => rfl) fun value hkind result hresult => ?_
  obtain rfl : op.resultOf error = result := Option.some.inj hresult
  exact ⟨error, @resultOf_exit ε op value hkind error⟩

theorem GivesBody.ended (hb : s.GivesBody i op) (error : Option (ScopeError ε)) :
    s.GivesBody i (op.ended error) := by
  cases hasync : op.isAsync with
  | true =>
    refine givesBody_of_async hasync (fun h => by cases h) fun value hkind result hresult => ?_
    change (if op.isAsync = true then op.result else some (op.resultOf error)) = some result at hresult
    rw [if_pos hasync] at hresult
    obtain ⟨context, heq, -⟩ := hb.body value hkind result hresult
    exact ⟨context, heq⟩
  | false =>
    have hresult : (op.ended error).result = some (op.resultOf error) := by
      change (if op.isAsync = true then op.result else some (op.resultOf error)) = _
      rw [hasync]
      rfl
    refine ⟨fun _ => ?_, fun h => (by cases h), fun value hkind result hsome => ?_⟩
    · rw [hresult]
      exact ⟨fun _ => ⟨error, rfl⟩, fun _ => rfl⟩
    · obtain rfl : op.resultOf error = result := Option.some.inj (hresult.symm.trans hsome)
      exact ⟨error, @resultOf_exit ε op value hkind error, fun _ => Or.inl rfl⟩

/-- The rule of the steps that go on to a phase that is no end. -/
theorem GivesBody.move (hb : s.GivesBody i op) {phase : OperationPhase ε}
    (hbefore : ∀ error, op.phase ≠ .done error) (hafter : ∀ error, phase ≠ .done error)
    (hrun : phase ≠ .withdrawn) : s.GivesBody i { op with phase := phase } where
  sync hasync := by
    refine (hb.sync hasync).trans ⟨fun ⟨error, h⟩ => absurd h (hbefore error),
      fun ⟨error, h⟩ => absurd h (hafter error)⟩
  withdrawn h := absurd h hrun
  body value hkind result hresult := by
    obtain ⟨context, heq, hcontext⟩ := hb.body value hkind result hresult
    refine ⟨context, heq, fun hasync => ?_⟩
    exact (hcontext hasync).imp_left fun h => absurd h (hbefore context)

theorem Moves.not_done {phase : OperationPhase ε} {scope : EpochState}
    (h : s.Moves op phase scope) (error : Option (ScopeError ε)) :
    op.phase ≠ .done error ∧ phase ≠ .done error := by
  cases h with
  | sealing hphase | queued hphase | guarding hphase =>
    rw [hphase]
    exact ⟨nofun, by split <;> nofun⟩
  | asking hphase | cancelling hphase | checking hphase | closing hphase | entering hphase
    | waiting hphase | reading hphase | joining _ hphase =>
    rw [hphase]
    exact ⟨nofun, nofun⟩

theorem Moves.not_withdrawn {phase : OperationPhase ε} {scope : EpochState}
    (h : s.Moves op phase scope) : phase ≠ .withdrawn := by
  cases h with
  | sealing | queued | guarding => split <;> nofun
  | _ => nofun

theorem Changes.givesBody (h : s.Changes i op op' t tail) (hp : s.Placed op op.phase)
    (hb : s.GivesBody i op) : s.GivesBody i op' := by
  cases h with
  | move phase scope hmove =>
    exact hb.move (fun error => (hmove.not_done error).1) (fun error => (hmove.not_done error).2)
      hmove.not_withdrawn
  | asked hphase howned =>
    rw [hphase] at hp
    exact givesBody_of_resultOf hp.1 _
  | lock hphase hfree =>
    refine hb.move (fun error => ?_) nofun nofun
    rw [hphase]
    exact nofun
  | shut terminal hphase =>
    refine hb.move (fun error => ?_) nofun nofun
    rw [hphase]
    exact nofun
  | complete terminal hphase => exact hb.ended terminal
  | finish error hends => exact hb.ended error
  | deliver error hphase hnone =>
    have hasync : op.isAsync = true := by
      by_contra hsync
      have hsome := (hb.sync (by simpa using hsync)).mpr ⟨error, hphase⟩
      rw [hnone] at hsome
      cases hsome
    exact givesBody_of_resultOf hasync error
  | cancelled hasync hnone => exact givesBody_of_resultOf hasync _
  | withdrawn hasync hnone hphase => exact givesBody_of_resultOf hasync _

/-! ## 3. The invariant -/

theorem Changes.hasDeferred (h : s.Changes i op op' t tail) (hget : s.operations[i]? = some op)
    (hp : s.Placed op op.phase) (hd : s.HasDeferred i op) :
    HasDeferred { t with operations := s.operations.set i op' ++ tail } i op' := by
  intro value message hkind hasync hloop hphase
  have hsame := h.sameCall
  have hdefers : op.defers (some (.refused (.stageLifecycle message))) = true := by
    unfold Operation.defers
    rw [← hsame.kind, ← hsame.isAsync, ← hsame.runningLoop, hkind, hasync, hloop]
    rfl
  -- an operation that ends so leaves a second `close`
  have hends : ∀ error, (OperationPhase.done error : OperationPhase ε) =
      .done (some (.refused (.stageLifecycle message))) → tail = op.deferredClose i error →
      ∃ (d : Nat) (new : Operation ε), (s.operations.set i op' ++ tail)[d]? = some new ∧
        new.kind = .deferredClose i := by
    rintro error ⟨⟩ htail
    rw [Operation.deferredClose, if_pos hdefers] at htail
    refine ⟨s.operations.length, { kind := .deferredClose i, phase := .guarding }, ?_, rfl⟩
    rw [htail, List.getElem?_append_right (by rw [List.length_set]), List.length_set, Nat.sub_self]
    rfl
  -- one that had ended so has its second `close` already
  have hkept : op.phase = .done (some (.refused (.stageLifecycle message))) →
      ∃ (d : Nat) (new : Operation ε), (s.operations.set i op' ++ tail)[d]? = some new ∧
        new.kind = .deferredClose i := by
    intro hold
    have hexit : op.kind = .exit (some value) := hsame.kind.symm.trans hkind
    obtain ⟨d, new, hnew, hof⟩ := hd value message hexit (hsame.isAsync.symm.trans hasync)
      (by rw [← hsame.runningLoop]; exact hloop) hold
    refine ⟨d, new, getElem?_append_of_some tail ((List.getElem?_set_ne ?_).trans hnew), hof⟩
    rintro rfl
    rw [hget] at hnew
    cases hnew
    rw [hexit] at hof
    cases hof
  cases h with
  | move phase scope hmove => exact absurd hphase (hmove.not_done _).2
  | asked hasking howned =>
    rw [hasking] at hp
    exact absurd (hasync.symm.trans hp.1) (by simp)
  | lock hlocking hfree => cases hphase
  | shut terminal hshutting => cases hphase
  | complete terminal hcompleting => exact hends terminal hphase rfl
  | finish error hend => exact hends error hphase rfl
  | deliver error hdone hnone => exact hkept hphase
  | cancelled hasync' hnone => exact hkept hphase
  | withdrawn => cases hphase

theorem countP_tail (h : s.Changes i op op' t tail) :
    tail.countP (fun op => op.kind.isExit) = 0 := by
  rw [List.countP_eq_zero]
  intro new hnew
  rw [(h.mem_tail hnew).1]
  exact Bool.false_ne_true

theorem ExitInv.change (hi : s.ExitInv) (hc : s.CloseInv) (hget : s.operations[i]? = some op)
    (h : s.Changes i op op' t tail) :
    ExitInv { t with operations := s.operations.set i op' ++ tail } := by
  have hp := hc.placed i op hget
  have hstepped : s.Stepped (.advance i) { t with operations := s.operations.set i op' ++ tail } :=
    .change _ i op op' t tail hget h
  have hexited : t.exited = s.exited := by cases h <;> rfl
  refine ⟨?_, fun j a ha => ?_, fun j a ha => ?_, fun j a ha => ?_, fun j a ha => ?_⟩
  · rw [List.countP_append, countP_tail h, Nat.add_zero, hexited, ← hi.once]
    exact countP_set_same hget (congrArg _ h.sameCall.kind)
  · rcases getElem?_change_cases hget ha with ⟨-, rfl⟩ | ⟨-, hold⟩ | ⟨-, hnew⟩
    · exact (hi.called i op hget).same h.sameCall
    · exact hi.called j a hold
    · rw [(h.mem_tail hnew).1]
      exact ⟨fun _ => rfl, fun _ _ => ⟨rfl, rfl, rfl, rfl⟩⟩
  · rcases getElem?_change_cases hget ha with ⟨rfl, rfl⟩ | ⟨-, hold⟩ | ⟨-, hnew⟩
    · exact hstepped.givesBody (h.givesBody hp (hi.body j op hget))
    · exact hstepped.givesBody (hi.body j a hold)
    · rw [(h.mem_tail hnew).1]
      exact ⟨fun _ => ⟨fun hsome => (nomatch hsome), fun ⟨_, hphase⟩ => nomatch hphase⟩,
        fun hphase => (nomatch hphase), fun _ hkind => nomatch hkind⟩
  · rcases getElem?_change_cases hget ha with ⟨rfl, rfl⟩ | ⟨-, hold⟩ | ⟨-, hnew⟩
    · exact h.hasDeferred hget hp (hi.deferred j op hget)
    · exact hstepped.hasDeferred (hi.deferred j a hold)
    · rw [(h.mem_tail hnew).1]
      exact fun _ _ hkind => nomatch hkind
  · rcases getElem?_change_cases hget ha with ⟨rfl, rfl⟩ | ⟨-, hold⟩ | ⟨-, hnew⟩
    · exact (hstepped.deferredBy (hi.origin j op hget)).same h.sameCall
    · exact hstepped.deferredBy (hi.origin j a hold)
    · obtain ⟨rfl, message, hdefers, -⟩ := h.mem_tail hnew
      obtain ⟨value, hkind, hasync, hloop⟩ := defers_cases hdefers
      obtain ⟨op'', hget'', hsame⟩ := hstepped.kept hget
      intro k hk
      cases hk
      exact ⟨op'', value, hget'', hsame.kind.trans hkind, hsame.isAsync.trans hasync,
        by rw [hsame.runningLoop]; exact hloop⟩

/-- The rule of the steps that leave the operations alone. -/
theorem ExitInv.aside {e : CloseEvent ε} (hi : s.ExitInv) (h : s.Stepped e s')
    (hoperations : s'.operations = s.operations) (hexited : s'.exited = s.exited) :
    s'.ExitInv where
  once := by
    rw [hoperations, hexited]
    exact hi.once
  called j a ha := hi.called j a (hoperations ▸ ha)
  body j a ha := h.givesBody (hi.body j a (hoperations ▸ ha))
  deferred j a ha := h.hasDeferred (hi.deferred j a (hoperations ▸ ha))
  origin j a ha := h.deferredBy (hi.origin j a (hoperations ▸ ha))

theorem ExitInv.begin {e : CloseEvent ε} (hi : s.ExitInv) (h : s.Stepped e s')
    {kind : OperationKind} {isAsync owned hasTimeout : Bool} {runningLoop : Option Nat}
    (hmay : s.mayBegin kind isAsync = true) (hexited : s'.exited = (s.exited || kind.isExit))
    (hoperations : s'.operations =
      s.operations ++ [Operation.called kind isAsync owned runningLoop hasTimeout]) :
    s'.ExitInv := by
  refine ⟨?_, fun j a ha => ?_, fun j a ha => ?_, fun j a ha => ?_, fun j a ha => ?_⟩
  · rw [hoperations, hexited, countP_concat, hi.once]
    cases hkind : kind.isExit with
    | false =>
      rw [show (Operation.called (ε := ε) kind isAsync owned runningLoop hasTimeout).kind = kind
        from rfl, hkind, Bool.or_false]
      rfl
    | true =>
      have hfirst : s.exited = false := by
        cases kind with
        | exit value =>
          rw [mayBegin] at hmay
          simpa using (Bool.and_eq_true_iff.mp hmay).1
        | _ => cases hkind
      rw [show (Operation.called (ε := ε) kind isAsync owned runningLoop hasTimeout).kind = kind
        from rfl, hkind, hfirst]
      rfl
  · rw [hoperations] at ha
    rcases getElem?_append_cases ha with ⟨-, rfl⟩ | hold
    · refine ⟨fun hkind => ?_, fun i hkind => ?_⟩
      · change (hasTimeout && !kind.isExit) = false
        rw [show kind.isExit = true from hkind]
        exact Bool.and_false _
      · rw [show kind = .deferredClose i from hkind] at hmay
        cases hmay
    · exact hi.called j a hold
  · rw [hoperations] at ha
    rcases getElem?_append_cases ha with ⟨-, rfl⟩ | hold
    · refine ⟨fun _ => ⟨fun hsome => (nomatch hsome), fun ⟨error, hphase⟩ => ?_⟩, fun hphase => ?_,
        fun _ _ _ hresult => nomatch hresult⟩
      · cases kind <;> cases isAsync <;> cases hphase
      · cases kind <;> cases isAsync <;> cases hphase
    · exact h.givesBody (hi.body j a hold)
  · rw [hoperations] at ha
    rcases getElem?_append_cases ha with ⟨-, rfl⟩ | hold
    · intro value message hkind hasync hloop hphase
      cases kind <;> cases isAsync <;> cases hphase
    · exact h.hasDeferred (hi.deferred j a hold)
  · rw [hoperations] at ha
    rcases getElem?_append_cases ha with ⟨-, rfl⟩ | hold
    · intro i hkind
      rw [show kind = .deferredClose i from hkind] at hmay
      cases hmay
    · exact h.deferredBy (hi.origin j a hold)

theorem ExitInv.observe {e : CloseEvent ε} (hi : s.ExitInv) {d value : Nat}
    {deferred exit : Operation ε} {context : Option (ScopeError ε)} {error : ScopeError ε}
    (hget : s.operations[d]? = some deferred) (hkind : deferred.kind = .deferredClose i)
    (hphase : deferred.phase = .done (some error)) (hexit : s.operations[i]? = some exit)
    (hresult : exit.result = some (.bodyRaised value context))
    (h : s.Stepped e (s.setOperation i { exit with result := some (.bodyRaised value (some error)) })) :
    ExitInv (s.setOperation i { exit with result := some (.bodyRaised value (some error)) }) := by
  refine ⟨?_, fun j a ha => ?_, fun j a ha => ?_, fun j a ha => ?_, fun j a ha => ?_⟩
  · refine Eq.trans ?_ hi.once
    change (s.operations.set i _).countP _ = _
    exact countP_set_same hexit rfl
  · rcases getElem?_set_cases hexit ha with ⟨-, rfl⟩ | ⟨-, hold⟩
    · exact (hi.called i exit hexit).same ⟨rfl, rfl, rfl, rfl, rfl, fun _ => id⟩
    · exact hi.called j a hold
  · rcases getElem?_set_cases hexit ha with ⟨rfl, rfl⟩ | ⟨-, hold⟩
    · have hb := hi.body j exit hexit
      refine ⟨fun hasync => ?_, fun hwithdrawn => ⟨(hb.withdrawn hwithdrawn).1, rfl⟩,
        fun v hvalue result hsome => ?_⟩
      · rw [← hb.sync hasync, hresult]
        exact Iff.rfl
      · cases hsome
        obtain ⟨old, heq, -⟩ := hb.body v hvalue _ hresult
        cases heq
        exact ⟨some error, rfl, fun _ => Or.inr (h.deferredEnded
          ⟨d, deferred, error, hget, hkind, hphase, rfl⟩)⟩
    · exact h.givesBody (hi.body j a hold)
  · rcases getElem?_set_cases hexit ha with ⟨rfl, rfl⟩ | ⟨-, hold⟩
    · exact h.hasDeferred (hi.deferred j exit hexit)
    · exact h.hasDeferred (hi.deferred j a hold)
  · rcases getElem?_set_cases hexit ha with ⟨rfl, rfl⟩ | ⟨-, hold⟩
    · exact (h.deferredBy (hi.origin j exit hexit)).same ⟨rfl, rfl, rfl, rfl, rfl, fun _ => id⟩
    · exact h.deferredBy (hi.origin j a hold)

/-- **Step lemma.** -/
theorem ExitInv.step {e : CloseEvent ε} (hi : s.ExitInv) (hc : s.CloseInv)
    (hstep : s.step e = some s') : s'.ExitInv := by
  have h := stepped hstep
  cases stepped hstep with
  | scope e origin errors scope hscope => exact hi.aside h rfl rfl
  | executorCall executor hexecutor hopen => exact hi.aside h rfl rfl
  | executorReturn executor hexecutor hpos => exact hi.aside h rfl rfl
  | begin kind isAsync owned runningLoop hasTimeout hmay => exact hi.begin h hmay rfl rfl
  | change e i op op' t tail hget hchange => exact hi.change hc hget hchange
  | observe d i deferred exit value context error hget hkind hphase hexit hresult =>
    exact hi.observe hget hkind hphase hexit hresult h

theorem reachable_exitInv {configured : ConfiguredBackend} {idleTimeout : Option Nat}
    {privateExecutor : Bool}
    (h : (closeSystem ε configured idleTimeout privateExecutor).Reachable s) : s.ExitInv := by
  refine h.invariant_of (fun _ => reachable_closeInv) (fun s hinit => ?_)
    fun s e s' hc hi _ hstep => hi.step hc hstep
  have hnone : s.operations = [] := by rw [hinit]
  have hexited : s.exited = false := by rw [hinit]
  refine ⟨?_, fun i op hget => ?_, fun i op hget => ?_, fun i op hget => ?_, fun i op hget => ?_⟩
  · rw [hnone, hexited]
    rfl
  all_goals
    rw [hnone] at hget
    cases hget

/-! ## 4. The laws -/

/-- What holds of the operation that leaves the `with` statement. -/
structure ExitLaws (s : ClosingStage ε) (i : Nat) (op : Operation ε) : Prop where
  only : ∀ (j : Nat) (other : Operation ε), s.operations[j]? = some other →
    other.kind.isExit = true → j = i
  is_sealed : op.phase ≠ .sealing → s.scope.isSealed = true
  /-- The exception of the body goes on, with the error of the close, or with that of the second
      one, in its context. -/
  body : ∀ value, op.kind = .exit (some value) → ∀ result, op.result = some result →
    ∃ context, result = .bodyRaised value context ∧
      (op.isAsync = false → op.phase = .done context ∨ s.DeferredEnded i context)
  /-- The close completes, unless a guard refuses the caller. -/
  closed : ∀ error, op.phase = .done error → s.closeCompleted = true ∨
    ∃ message, error = some (.refused (.stageLifecycle message)) ∧
      (op.owned = true ∨ op.threadLoop.isSome = true)
  /-- An async statement that is cancelled before its thread starts makes no close. -/
  withdrawn : op.phase = .withdrawn → op.isAsync = true ∧ op.result.isSome = true
  /-- Only a sync statement on a loop whose body has raised leaves a second close. -/
  leaves : ∀ (d : Nat) (new : Operation ε), s.operations[d]? = some new →
    new.kind = .deferredClose i → op.isAsync = false ∧ op.runningLoop.isSome = true ∧
      ∃ value, op.kind = .exit (some value)
  /-- For such a one the close has completed all the same, or the second one is under way. -/
  deferred : ∀ value, op.kind = .exit (some value) → op.isAsync = false →
    op.runningLoop.isSome = true → op.result.isSome = true → s.closeCompleted = true ∨
      ∃ (d : Nat) (new : Operation ε), s.operations[d]? = some new ∧
        new.kind = .deferredClose i ∧ ∀ error, new.phase ≠ .done error

theorem index_unique_of_countP_le {α : Type} {l : List α} {p : α → Bool} {j : Nat} {x y z : α}
    (hle : l.countP p ≤ 1) (hx : l[i]? = some x) (hy : l[j]? = some y) (hpx : p x = true)
    (hpy : p y = true) (hz : p z = false) : j = i := by
  by_contra hne
  have hadd := countP_set_add (y := z) (p := p) hx
  rw [hpx, hz] at hadd
  have hzero : (l.set i z).countP p = 0 := by
    simp only [Bool.toNat_true, Bool.toNat_false] at hadd
    omega
  rw [List.countP_eq_zero] at hzero
  have hmem : y ∈ l.set i z :=
    List.mem_of_getElem? ((List.getElem?_set_ne (Ne.symm hne)).trans hy)
  exact hzero y hmem hpy

theorem sealed_of_exit (hp : s.Placed op op.phase) (hexit : op.kind.isExit = true)
    (hphase : op.phase ≠ .sealing) : s.scope.isSealed = true := by
  have hcloses : op.kind.closes = true := by
    cases hkind : op.kind with
    | exit value => rfl
    | _ =>
      rw [hkind] at hexit
      cases hexit
  cases h : op.phase with
  | sealing => exact absurd h hphase
  | queued | withdrawn =>
    rw [h] at hp
    exact hp hexit
  | asking | guarding | locking | checking =>
    rw [h] at hp
    exact hp.2 hexit
  | cancelling =>
    rw [h] at hp
    rw [show op.kind = .cancelAndWaitSettled from hp] at hexit
    cases hexit
  | closing =>
    rw [h] at hp
    exact hp.2.1 hexit
  | entering | waiting | reading =>
    rw [h] at hp
    exact (hp hcloses).1
  | shutting terminal | joining terminal | completing terminal =>
    rw [h] at hp
    exact hp.2.2.1
  | done error =>
    rw [h] at hp
    exact hp.1 hexit

/-- An operation that closes the Stage and has no timeout completes, unless it is refused. -/
theorem completed_or_refused {error : Option (ScopeError ε)} (hended : s.EndedWith op error)
    (hcloses : op.kind.closes = true) (htimeout : op.hasTimeout = false) :
    s.closeCompleted = true ∨ ∃ message, error = some (.refused (.stageLifecycle message)) ∧
      (op.owned = true ∨ op.threadLoop.isSome = true) := by
  cases error with
  | none => exact Or.inl (hended hcloses)
  | some error =>
    cases error with
    | refused error =>
      obtain ⟨hcause, message, rfl⟩ := hended
      exact Or.inr ⟨message, rfl, hcause⟩
    | timeout => exact absurd (htimeout.symm.trans hended) (by simp)
    | cancelled => exact hended.elim
    | idleTimeout | settlement => exact Or.inl (hended hcloses)

theorem ExitInv.completed_of_deferred (hi : s.ExitInv) (hc : s.CloseInv) {d : Nat}
    {new : Operation ε} (hget : s.operations[d]? = some new) (hkind : new.kind = .deferredClose i)
    {error : Option (ScopeError ε)} (hphase : new.phase = .done error) :
    s.closeCompleted = true := by
  obtain ⟨howned, hasync, hloop, htimeout⟩ := (hi.called d new hget).deferred i hkind
  have hp := hc.placed d new hget
  rw [hphase] at hp
  rcases completed_or_refused hp.2 (by rw [hkind]; rfl) htimeout with
    hcompleted | ⟨message, -, hcause | hcause⟩
  · exact hcompleted
  · rw [howned] at hcause
    cases hcause
  · rw [Operation.threadLoop, hasync, hloop] at hcause
    cases hcause

theorem ExitInv.laws (hi : s.ExitInv) (hc : s.CloseInv) (hget : s.operations[i]? = some op)
    (hexit : op.kind.isExit = true) : s.ExitLaws i op := by
  have hp := hc.placed i op hget
  have hcloses : op.kind.closes = true := by
    cases hkind : op.kind with
    | exit value => rfl
    | _ =>
      rw [hkind] at hexit
      cases hexit
  have hclosed : ∀ error, op.phase = .done error → s.closeCompleted = true ∨
      ∃ message, error = some (.refused (.stageLifecycle message)) ∧
        (op.owned = true ∨ op.threadLoop.isSome = true) := by
    intro error hphase
    rw [hphase] at hp
    exact completed_or_refused hp.2 hcloses ((hi.called i op hget).exit hexit)
  refine ⟨fun j other hother hexit' => ?_, sealed_of_exit hp hexit, (hi.body i op hget).body,
    hclosed, (hi.body i op hget).withdrawn, fun d new hnew hof => ?_,
    fun value hkind hasync hloop hresult => ?_⟩
  · have hle : s.operations.countP (fun op => op.kind.isExit) ≤ 1 := by
      rw [hi.once]
      exact Bool.toNat_le s.exited
    exact @index_unique_of_countP_le i _ _ (fun op => op.kind.isExit) j op other
      { kind := .close, phase := .guarding } hle hget hother hexit hexit' rfl
  · obtain ⟨exit, value, hget', hkind, hasync, hloop⟩ := hi.origin d new hnew i hof
    rw [hget] at hget'
    cases hget'
    exact ⟨hasync, hloop, value, hkind⟩
  · obtain ⟨error, hphase⟩ := ((hi.body i op hget).sync hasync).mp hresult
    rcases hclosed error hphase with hcompleted | ⟨message, rfl, -⟩
    · exact Or.inl hcompleted
    · obtain ⟨d, new, hnew, hof⟩ := hi.deferred i op hget value message hkind hasync hloop hphase
      by_cases hended : ∃ error, new.phase = .done error
      · obtain ⟨error, herror⟩ := hended
        exact Or.inl (hi.completed_of_deferred hc hnew hof herror)
      · exact Or.inr ⟨d, new, hnew, hof, not_exists.mp hended⟩

/-- **Leaving a `with` statement**, in every interleaving: it happens once and seals the Stage;
    the exception of the body goes on; the Stage is closed when the close of the statement ends,
    or a guard has refused the caller, and then a sync statement on a loop whose body has raised,
    and no other one, leaves a second close. -/
theorem exit_laws {configured : ConfiguredBackend} {idleTimeout : Option Nat}
    {privateExecutor : Bool}
    (h : (closeSystem ε configured idleTimeout privateExecutor).Reachable s)
    (hget : s.operations[i]? = some op) (hexit : op.kind.isExit = true) : s.ExitLaws i op :=
  (reachable_exitInv h).laws (reachable_closeInv h) hget hexit

/-- Work of the Stage leaves its `with` statement on a loop: its own close is refused, the second
    one closes the Stage. -/
def deferredRun : List (CloseEvent Nat) :=
  [.scope (.enter .sync) "" [], .scope (.go outsideSite) "root" [],
    .begin (.exit (some 3)) false true (some 1) false, .advance 0, .advance 0,
    .scope (.handleQuiescent 0) "" [7], .advance 1, .advance 1, .advance 1, .advance 1,
    .advance 1, .advance 1, .advance 1, .advance 1, .advance 1, .advance 1,
    .observeDeferredClose 1]

theorem exit_laws_deferredRun : ∃ s op,
    (closeSystem Nat .auto none false).run
      { scope := { configured := .auto, idleTimeout := none } } deferredRun = some s ∧
    s.operations[0]? = some op ∧ op.result = some (.bodyRaised 3 (some (.settlement [7]))) ∧
    s.closeCompleted = true ∧ s.ExitLaws 0 op := by
  have hend : ((closeSystem Nat .auto none false).run
      { scope := { configured := .auto, idleTimeout := none } } deferredRun).any
      (fun s => (s.operations[0]?).any (fun op => op.kind.isExit &&
        decide (op.result = some (.bodyRaised 3 (some (.settlement [7]))))) &&
        s.closeCompleted) = true := by decide
  obtain ⟨s, hrun, hs⟩ := (Option.any_eq_true _ _).mp hend
  obtain ⟨hop, hcompleted⟩ := Bool.and_eq_true_iff.mp hs
  obtain ⟨op, hget, hop⟩ := (Option.any_eq_true _ _).mp hop
  obtain ⟨hexit, hresult⟩ := Bool.and_eq_true_iff.mp hop
  exact ⟨s, op, hrun, hget, of_decide_eq_true hresult, hcompleted,
    exit_laws (System.reachable_of_run deferredRun rfl hrun) hget hexit⟩

end ClosingStage

end AgentlyStage
