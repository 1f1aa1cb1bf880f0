import AgentlyStage.LeavingScope
import AgentlyStage.Lib.Measure
import AgentlyStage.Lib.Simulation

/-!
# What the barriers of a Stage report, and that they end

Settlement errors are added at the end, and the idle timeout, which is set once, takes their
place for good: it is raised without them.  So a barrier reports the settlement errors that the
barriers before it have reported, or the idle timeout, and no `close` succeeds after one that
has raised.

Once the work of a Stage has come to an end nothing keeps the barriers: the one that holds
`_close_operation_lock` can go on, or waits for a call of the private executor.  A wait is
enabled here as soon as there is no work.  That it is woken then is `notify_all`, which every
release of the last work calls, unless the exception handler of a loop exits while it handles
the error of an observer: then `_adopted_task_done` does not come to it.
-/

namespace AgentlyStage

open Transition

namespace ClosingStage

variable {ε : Type} {s s' t u : ClosingStage ε} {i : Nat} {op op' : Operation ε}
  {tail : List (Operation ε)} {configured : ConfiguredBackend} {idleTimeout : Option Nat}
  {privateExecutor : Bool}

/-! ## 1. The errors of a Stage -/

/-- What a Stage can report after the first report: all of it, or the idle timeout in the place of
    settlement errors. -/
def Follows : Option (ScopeError ε) → Option (ScopeError ε) → Prop
  | none, _ => True
  | some (.settlement errors), some (.settlement errors') => errors <+: errors'
  | some (.settlement _), some (.idleTimeout _) => True
  | some (.idleTimeout origins), some (.idleTimeout origins') => origins = origins'
  | _, _ => False

theorem Follows.refl {report : Option (ScopeError ε)} (h : IsReport report) :
    Follows report report := by
  cases report with
  | none => trivial
  | some error =>
    cases error with
    | idleTimeout origins => exact rfl
    | settlement errors => exact List.prefix_rfl
    | refused | timeout | cancelled => exact h.elim

theorem Follows.trans {r r' r'' : Option (ScopeError ε)} (h : Follows r r')
    (h' : Follows r' r'') : Follows r r'' := by
  match r, r', r'' with
  | none, _, _ => trivial
  | some (.settlement _), some (.settlement _), some (.settlement _) =>
    exact List.IsPrefix.trans h h'
  | some (.settlement _), some (.settlement _), some (.idleTimeout _) => trivial
  | some (.settlement _), some (.idleTimeout _), some (.idleTimeout _) => trivial
  | some (.idleTimeout _), some (.idleTimeout _), some (.idleTimeout _) =>
    exact Eq.trans h h'

/-- The idle timeout is there when the epochs have set it. -/
def IdleSet (s : ClosingStage ε) : Prop :=
  s.idleTimeoutError.isSome = true ↔ s.scope.idleTimedOut = true

theorem idleSet_of_eq (hi : s.IdleSet) (herror : s'.idleTimeoutError = s.idleTimeoutError)
    (hset : s'.scope.idleTimedOut = s.scope.idleTimedOut) : s'.IdleSet := by
  unfold IdleSet
  rw [herror, hset]
  exact hi

theorem Moves.idleTimedOut {phase : OperationPhase ε} {scope : EpochState}
    (h : s.Moves op phase scope) : scope.idleTimedOut = s.scope.idleTimedOut := by
  cases h with
  | cancelling =>
    unfold EpochState.cancelScope
    split <;> rfl
  | _ => rfl

theorem Changes.errors (h : s.Changes i op op' t tail) :
    t.idleTimeoutError = s.idleTimeoutError ∧ t.settlementErrors = s.settlementErrors ∧
      t.scope.idleTimedOut = s.scope.idleTimedOut := by
  cases h with
  | move phase scope hmove => exact ⟨rfl, rfl, hmove.idleTimedOut⟩
  | _ => exact ⟨rfl, rfl, rfl⟩

theorem IdleSet.step {e : CloseEvent ε} (hi : s.IdleSet) (hstep : s.step e = some s') :
    s'.IdleSet := by
  cases stepped hstep with
  | scope e origin errors scope hscope =>
    unfold IdleSet afterScope
    have hkept := (EpochState.watchEffect_step hscope).keeps.2
    change s.scope.idleTimedOut = true → scope.idleTimedOut = true at hkept
    dsimp only
    split
    · rename_i hset
      exact ⟨fun _ => hset.2, fun _ => rfl⟩
    · rename_i hsame
      refine hi.trans ⟨hkept, fun hset => ?_⟩
      by_contra hunset
      exact hsame ⟨by simpa using hunset, hset⟩
  | executorCall | executorReturn | begin | observe => exact idleSet_of_eq hi rfl rfl
  | change e i op op' t tail hget hchange =>
    exact idleSet_of_eq hi hchange.errors.1 hchange.errors.2.2

theorem raiseScopeErrors_of_eq (herror : s'.idleTimeoutError = s.idleTimeoutError)
    (herrors : s'.settlementErrors = s.settlementErrors) :
    s'.raiseScopeErrors = s.raiseScopeErrors := by
  unfold raiseScopeErrors
  rw [herror, herrors]

theorem follows_of_eq (h : s'.raiseScopeErrors = s.raiseScopeErrors) :
    Follows s.raiseScopeErrors s'.raiseScopeErrors := by
  rw [h]
  exact Follows.refl (isReport_raiseScopeErrors s)

/-- Errors are added at the end, the idle timeout takes their place. -/
theorem Stepped.follows {e : CloseEvent ε} (h : s.Stepped e s') (hi : s.IdleSet) :
    Follows s.raiseScopeErrors s'.raiseScopeErrors := by
  cases h with
  | scope e origin errors scope hscope =>
    unfold raiseScopeErrors afterScope
    dsimp only
    cases hidle : s.idleTimeoutError with
    | some origins =>
      have hset : s.scope.idleTimedOut = true := hi.mp (by rw [hidle]; rfl)
      rw [if_neg fun hboth => absurd (hboth.1.symm.trans hset) (by simp)]
      exact rfl
    | none =>
      cases herrors : s.settlementErrors with
      | nil => exact trivial
      | cons error rest =>
        by_cases hset : s.scope.idleTimedOut = false ∧ scope.idleTimedOut = true
        · rw [if_pos hset]
          exact trivial
        · rw [if_neg hset]
          exact List.prefix_append (error :: rest) (ClosingStage.reported errors e)
  | executorCall | executorReturn | begin | observe => exact follows_of_eq rfl
  | change e i op op' t tail hget hchange =>
    exact follows_of_eq (raiseScopeErrors_of_eq hchange.errors.1 hchange.errors.2.1)

/-! ## 2. Reports -/

/-- The operation has read the errors of the scope, and reports them.  A cancellation that finds
    no work does not read them; one that reports nothing is not told from it. -/
def Reported (op : Operation ε) (report : Option (ScopeError ε)) : Prop :=
  op.phase = .shutting report ∨ op.phase = .joining report ∨ op.phase = .completing report ∨
    (op.phase = .done report ∧ IsReport report ∧
      ¬ (op.kind = .cancelAndWaitSettled ∧ report = none))

theorem not_reported_move {phase : OperationPhase ε} {report : Option (ScopeError ε)}
    (hshutting : ∀ e, phase ≠ .shutting e) (hjoining : ∀ e, phase ≠ .joining e)
    (hcompleting : ∀ e, phase ≠ .completing e) (hdone : ∀ e, phase ≠ .done e) :
    ¬ Reported { op with phase := phase } report := by
  rintro (h | h | h | ⟨h, -, -⟩)
  · exact hshutting report h
  · exact hjoining report h
  · exact hcompleting report h
  · exact hdone report h

theorem Moves.reported {phase : OperationPhase ε} {scope : EpochState}
    {report : Option (ScopeError ε)} (h : s.Moves op phase scope)
    (hr : Reported { op with phase := phase } report) :
    Reported op report ∨ report = s.raiseScopeErrors := by
  cases h with
  | sealing | queued | guarding =>
    refine absurd hr (not_reported_move ?_ ?_ ?_ ?_) <;> intro e <;> split <;> nofun
  | asking | cancelling | checking | closing | entering | waiting =>
    exact absurd hr (not_reported_move nofun nofun nofun nofun)
  | reading hphase hcloses =>
    rcases hr with h | h | h | ⟨h, -, -⟩
    · cases h
      exact Or.inr rfl
    all_goals cases h
  | joining terminal hphase hidle =>
    rcases hr with h | h | h | ⟨h, -, -⟩
    · cases h
    · cases h
    · cases h
      exact Or.inl (Or.inr (Or.inl hphase))
    · cases h

theorem Ends.reported {error report : Option (ScopeError ε)} (h : s.Ends op error)
    (hp : s.Placed op op.phase) (hr : Reported (op.ended error) report) :
    report = s.raiseScopeErrors := by
  obtain ⟨hphase, hreport, hread⟩ : (.done error : OperationPhase ε) = .done report ∧
      IsReport report ∧ ¬ (op.kind = .cancelAndWaitSettled ∧ report = none) := by
    rcases hr with h | h | h | h
    · cases h
    · cases h
    · cases h
    · exact h
  cases hphase
  cases h with
  | guarding | entering | expired => exact hreport.elim
  | checking | reading => rfl
  | cancelling hcancelling =>
    rw [hcancelling] at hp
    exact absurd ⟨hp, rfl⟩ hread

/-- A step reads the errors as they are. -/
theorem Changes.reported {report : Option (ScopeError ε)} (h : s.Changes i op op' t tail)
    (hp : s.Placed op op.phase) (hr : Reported op' report) :
    Reported op report ∨ report = s.raiseScopeErrors := by
  cases h with
  | move phase scope hmove => exact hmove.reported hr
  | asked hphase howned =>
    rcases hr with h | h | h | ⟨h, hreport, -⟩
    · cases h
    · cases h
    · cases h
    · cases h
      exact hreport.elim
  | lock => exact absurd hr (not_reported_move nofun nofun nofun nofun)
  | shut terminal hphase =>
    rcases hr with h | h | h | ⟨h, -, -⟩
    · cases h
    · cases h
      exact Or.inl (Or.inl hphase)
    · cases h
    · cases h
  | complete terminal hphase =>
    rcases hr with h | h | h | ⟨h, -, -⟩
    · cases h
    · cases h
    · cases h
    · cases h
      exact Or.inl (Or.inr (Or.inr (Or.inl hphase)))
  | finish error hends => exact Or.inr (hends.reported hp hr)
  | deliver error hphase hnone => exact Or.inl hr
  | cancelled hasync hnone => exact Or.inl hr
  | withdrawn hasync hnone hphase =>
    rcases hr with h | h | h | ⟨h, -, -⟩ <;> cases h

/-- What an operation reports after a step it has reported before, or reads in the step. -/
theorem Stepped.reported {e : CloseEvent ε} (h : s.Stepped e s') (hc : s.CloseInv) {j : Nat}
    {a : Operation ε} {report : Option (ScopeError ε)} (ha : s'.operations[j]? = some a)
    (hr : Reported a report) :
    (∃ old, s.operations[j]? = some old ∧ Reported old report) ∨ report = s.raiseScopeErrors := by
  cases h with
  | scope | executorCall | executorReturn => exact Or.inl ⟨a, ha, hr⟩
  | begin kind isAsync owned runningLoop hasTimeout hmay =>
    rcases getElem?_append_cases ha with ⟨-, rfl⟩ | hold
    · rcases hr with h | h | h | ⟨h, -, -⟩ <;> cases kind <;> cases isAsync <;> cases h
    · exact Or.inl ⟨a, hold, hr⟩
  | change e i op op' t tail hget hchange =>
    rcases getElem?_change_cases hget ha with ⟨rfl, rfl⟩ | ⟨-, hold⟩ | ⟨-, hnew⟩
    · exact (hchange.reported (hc.placed j op hget) hr).imp_left fun hold => ⟨op, hget, hold⟩
    · exact Or.inl ⟨a, hold, hr⟩
    · rw [(hchange.mem_tail hnew).1] at hr
      rcases hr with h | h | h | ⟨h, -, -⟩ <;> cases h
  | observe d i deferred exit value context error hget hkind hphase hexit hresult =>
    rcases getElem?_set_cases hexit ha with ⟨rfl, rfl⟩ | ⟨-, hold⟩
    · exact Or.inl ⟨exit, hexit, hr⟩
    · exact Or.inl ⟨a, hold, hr⟩

/-- What the operations from `first` on have reported follows `report`. -/
structure ReportsFrom (first : Nat) (report : Option (ScopeError ε)) (s : ClosingStage ε) :
    Prop where
  current : Follows report s.raiseScopeErrors
  reported : ∀ (j : Nat) (op : Operation ε) (found : Option (ScopeError ε)), first ≤ j →
    s.operations[j]? = some op → Reported op found → Follows report found

theorem ReportsFrom.step {e : CloseEvent ε} {first : Nat} {report : Option (ScopeError ε)}
    (hr : ReportsFrom first report s) (hc : s.CloseInv) (hi : s.IdleSet)
    (hstep : s.step e = some s') : ReportsFrom first report s' where
  current := hr.current.trans ((stepped hstep).follows hi)
  reported j op found hj hget hfound := by
    rcases (stepped hstep).reported hc hget hfound with ⟨old, hold, hfound'⟩ | rfl
    · exact hr.reported j old found hj hold hfound'
    · exact hr.current

/-- What has been reported is still there. -/
def Reportable (s : ClosingStage ε) : Prop :=
  ∀ (j : Nat) (op : Operation ε) (found : Option (ScopeError ε)), s.operations[j]? = some op →
    Reported op found → Follows found s.raiseScopeErrors

theorem Reportable.step {e : CloseEvent ε} (hr : s.Reportable) (hc : s.CloseInv)
    (hi : s.IdleSet) (hstep : s.step e = some s') : s'.Reportable := by
  intro j op found hget hfound
  have hfollows := (stepped hstep).follows hi
  rcases (stepped hstep).reported hc hget hfound with ⟨old, hold, hfound'⟩ | rfl
  · exact (hr j old found hold hfound').trans hfollows
  · exact hfollows

theorem reachable_idleSet (h : (closeSystem ε configured idleTimeout privateExecutor).Reachable s) :
    s.IdleSet := by
  refine h.invariant (fun s hinit => ?_) fun s e s' hi _ hstep => hi.step hstep
  rw [IdleSet, hinit]
  exact ⟨nofun, nofun⟩

theorem reachable_reportable
    (h : (closeSystem ε configured idleTimeout privateExecutor).Reachable s) : s.Reportable := by
  have hinv : ∀ s, (closeSystem ε configured idleTimeout privateExecutor).Reachable s →
      s.CloseInv ∧ s.IdleSet := fun s hs => ⟨reachable_closeInv hs, reachable_idleSet hs⟩
  refine h.invariant_of hinv (fun s hinit => ?_) fun s e s' hj hr _ hstep =>
    hr.step hj.1 hj.2 hstep
  intro j op found hget
  rw [hinit] at hget
  cases hget

/-- **Reports follow each other.**  What a barrier reports is followed by what the Stage has when
    another one is called later, and that by what the later one reports: settlement errors stay,
    with new ones at the end, until the idle timeout takes their place. -/
theorem reports_follow (h : (closeSystem ε configured idleTimeout privateExecutor).Reachable s)
    (es : List (CloseEvent ε))
    (hrun : (closeSystem ε configured idleTimeout privateExecutor).run s es = some s')
    (i j : Nat) (first later : Operation ε) (report report' : Option (ScopeError ε))
    (hfirst : s.operations[i]? = some first) (hreported : Reported first report)
    (hlater : s'.operations[j]? = some later) (hreported' : Reported later report')
    (hbegun : s.operations.length ≤ j) :
    Follows report s.raiseScopeErrors ∧ Follows s.raiseScopeErrors report' ∧
      Follows report report' := by
  have hbefore := reachable_reportable h i first report hfirst hreported
  -- the run starts where the later operation is not there yet
  have hstart : ReportsFrom s.operations.length s.raiseScopeErrors s := by
    refine ⟨Follows.refl (isReport_raiseScopeErrors s), fun k op found hk hget => ?_⟩
    rw [List.getElem?_eq_none hk] at hget
    cases hget
  have hend : (closeSystem ε configured idleTimeout privateExecutor).Reachable s' ∧
      ReportsFrom s.operations.length s.raiseScopeErrors s' :=
    System.run_invariant
      (I := fun u => (closeSystem ε configured idleTimeout privateExecutor).Reachable u ∧
        ReportsFrom s.operations.length s.raiseScopeErrors u)
      (fun u e u' hu hstep => ⟨.step hu.1 trivial hstep,
        hu.2.step (reachable_closeInv hu.1) (reachable_idleSet hu.1) hstep⟩) ⟨h, hstart⟩ hrun
  have hafter := hend.2.reported j later report' hbegun hlater hreported'
  exact ⟨hbefore, hafter, hbefore.trans hafter⟩

/-- `wait_settled` reports the error of the first handle. -/
def firstReport : List (CloseEvent Nat) :=
  [.scope (.go outsideSite) "first" [], .scope (.handleQuiescent 0) "" [7],
    .begin .waitSettled false false none false, .advance 0, .advance 0, .advance 0]

/-- `close` reports that of a second handle with it. -/
def laterReport : List (CloseEvent Nat) :=
  [.scope (.go outsideSite) "second" [], .scope (.handleQuiescent 1) "" [8],
    .begin .close false false none false, .advance 1, .advance 1, .advance 1, .advance 1,
    .advance 1, .advance 1, .advance 1, .advance 1, .advance 1, .advance 1]

theorem reports_follow_laterReport :
    Follows (some (.settlement [7] : ScopeError Nat)) (some (.settlement [7, 8])) := by
  have hend : ((closeSystem Nat .auto none false).run
      { scope := { configured := .auto, idleTimeout := none } } firstReport).any (fun s =>
        (s.operations[0]?).any (fun first => decide (first.kind = .waitSettled) &&
          decide (first.phase = .done (some (.settlement [7])))) &&
        decide (s.operations.length ≤ 1) &&
        ((closeSystem Nat .auto none false).run s laterReport).any (fun s' =>
          (s'.operations[1]?).any fun later => decide (later.kind = .close) &&
            decide (later.phase = .done (some (.settlement [7, 8]))))) = true := by decide
  obtain ⟨s, hrun, hs⟩ := (Option.any_eq_true _ _).mp hend
  obtain ⟨hs, hlater⟩ := Bool.and_eq_true_iff.mp hs
  obtain ⟨hfirst, hlength⟩ := Bool.and_eq_true_iff.mp hs
  obtain ⟨first, hgetFirst, hfirst⟩ := (Option.any_eq_true _ _).mp hfirst
  obtain ⟨hkind, hphase⟩ := Bool.and_eq_true_iff.mp hfirst
  obtain ⟨s', hrun', hs'⟩ := (Option.any_eq_true _ _).mp hlater
  obtain ⟨later, hgetLater, hlater⟩ := (Option.any_eq_true _ _).mp hs'
  obtain ⟨hkind', hphase'⟩ := Bool.and_eq_true_iff.mp hlater
  have hreported : Reported first (some (.settlement [7])) :=
    Or.inr (Or.inr (Or.inr ⟨of_decide_eq_true hphase, trivial, fun h => nomatch h.2⟩))
  have hreported' : Reported later (some (.settlement [7, 8])) :=
    Or.inr (Or.inr (Or.inr ⟨of_decide_eq_true hphase', trivial, fun h => nomatch h.2⟩))
  exact (reports_follow (System.reachable_of_run firstReport rfl hrun) laterReport hrun' 0 1 first
    later _ _ hgetFirst hreported hgetLater hreported' (of_decide_eq_true hlength)).2.2

end ClosingStage

/-! ## 3. What is left to do -/

def OperationPhase.remaining {ε : Type} : OperationPhase ε → Nat
  | .sealing => 13
  | .asking => 12
  | .queued => 11
  | .guarding => 10
  | .cancelling | .locking => 9
  | .checking => 8
  | .closing => 7
  | .entering => 6
  | .waiting => 5
  | .reading => 4
  | .shutting _ => 3
  | .joining _ => 2
  | .completing _ => 1
  | .done _ | .withdrawn => 0

/-- The steps that an operation has to take, the delivery of its result, and the steps of the
    second `close` that it may leave. -/
def Operation.remaining {ε : Type} (op : Operation ε) : Nat :=
  op.phase.remaining + (if op.result.isSome then 0 else 1) +
    if op.kind.isExit && decide (0 < op.phase.remaining) then 12 else 0

def ClosingStage.remaining {ε : Type} (s : ClosingStage ε) : Nat :=
  total Operation.remaining s.operations +
    match s.privateExecutor with
    | some executor => executor.calls
    | none => 0

/-- The steps of the operations and the returns of the private executor. -/
def CloseEvent.proceeds {ε : Type} : CloseEvent ε → Bool
  | .advance _ | .expire _ | .deliver _ | .cancelAwait _ | .executorReturn => true
  | .scope _ _ _ | .executorCall | .begin _ _ _ _ _ | .observeDeferredClose _ => false

namespace ClosingStage

variable {ε : Type} {s s' t u : ClosingStage ε} {i : Nat} {op op' : Operation ε}
  {tail : List (Operation ε)} {configured : ConfiguredBackend} {idleTimeout : Option Nat}
  {privateExecutor : Bool}

theorem remaining_of_pos (hpos : 0 < op.phase.remaining) :
    op.remaining = op.phase.remaining + (if op.result.isSome then 0 else 1) +
      if op.kind.isExit then 12 else 0 := by
  unfold Operation.remaining
  rw [decide_eq_true hpos, Bool.and_true]

theorem remaining_of_over (hover : op.phase.remaining = 0) :
    op.remaining = if op.result.isSome then 0 else 1 := by
  unfold Operation.remaining
  rw [hover, decide_eq_false (Nat.lt_irrefl 0), Bool.and_false, Nat.zero_add]
  rfl

theorem remaining_phase {phase : OperationPhase ε}
    (hless : phase.remaining < op.phase.remaining) :
    Operation.remaining { op with phase := phase } < op.remaining := by
  rw [remaining_of_pos (Nat.lt_of_le_of_lt (Nat.zero_le _) hless)]
  rcases Nat.eq_zero_or_pos phase.remaining with hover | hpos
  · rw [remaining_of_over hover]
    dsimp only
    omega
  · rw [remaining_of_pos hpos]
    dsimp only
    omega

theorem Moves.remaining {phase : OperationPhase ε} {scope : EpochState}
    (h : s.Moves op phase scope) :
    phase.remaining < op.phase.remaining := by
  cases h with
  | sealing hphase | queued hphase | guarding hphase =>
    rw [hphase]
    split <;> simp [OperationPhase.remaining]
  | asking hphase | cancelling hphase | checking hphase | closing hphase | entering hphase
    | waiting hphase | reading hphase | joining _ hphase =>
    rw [hphase]
    simp [OperationPhase.remaining]

theorem total_deferredClose (i : Nat) (error : Option (ScopeError ε)) :
    total Operation.remaining (op.deferredClose i error) ≤ if op.kind.isExit then 11 else 0 := by
  unfold Operation.deferredClose
  split
  · rename_i hdefers
    unfold Operation.defers at hdefers
    split at hdefers
    · rename_i hkind
      rw [hkind]
      exact Nat.le_refl 11
    · cases hdefers
  · exact Nat.zero_le _

/-- An operation that ends gives back what it needs for a second `close`. -/
theorem remaining_ended (hpos : 0 < op.phase.remaining)
    (error : Option (ScopeError ε)) :
    (op.ended error).remaining + total Operation.remaining (op.deferredClose i error) <
      op.remaining := by
  have hdeferred := @total_deferredClose ε op i error
  have hresult : (if (op.ended error).result.isSome then 0 else 1) ≤
      if op.result.isSome then 0 else 1 := by
    change (if (if op.isAsync = true then op.result else some (op.resultOf error)).isSome = true
      then 0 else 1) ≤ _
    by_cases hasync : op.isAsync = true
    · rw [if_pos hasync]
    · rw [if_neg hasync]
      exact Nat.zero_le _
  rw [remaining_of_pos hpos, remaining_of_over rfl]
  split at hdeferred
  · rename_i hexit
    rw [if_pos hexit]
    omega
  · omega

theorem Ends.pos {error : Option (ScopeError ε)} (h : s.Ends op error) :
    0 < op.phase.remaining := by
  cases h with
  | guarding _ hphase | cancelling hphase | checking hphase | entering _ hphase | reading hphase
    | expired hphase =>
    rw [hphase]
    simp [OperationPhase.remaining]

theorem remaining_result {result : OperationResult ε} (hnone : op.result = none) :
    Operation.remaining { op with result := some result } < op.remaining := by
  unfold Operation.remaining
  dsimp only
  rw [hnone]
  simp only [Option.isSome_some, Option.isSome_none, if_true, Bool.false_eq_true, if_false]
  omega

theorem remaining_both {phase : OperationPhase ε} {result : OperationResult ε}
    (hless : phase.remaining < op.phase.remaining) :
    Operation.remaining { op with phase := phase, result := some result } < op.remaining := by
  refine Nat.lt_of_le_of_lt ?_ (remaining_phase hless)
  unfold Operation.remaining
  dsimp only
  rw [Option.isSome_some, if_pos rfl]
  omega

theorem Changes.remaining (h : s.Changes i op op' t tail) :
    op'.remaining + total Operation.remaining tail < op.remaining := by
  cases h with
  | move phase scope hmove => exact remaining_phase hmove.remaining
  | asked hphase howned =>
    refine remaining_both ?_
    rw [hphase]
    simp [OperationPhase.remaining]
  | lock hphase hfree =>
    refine remaining_phase ?_
    rw [hphase]
    simp [OperationPhase.remaining]
  | shut terminal hphase =>
    refine remaining_phase ?_
    rw [hphase]
    simp [OperationPhase.remaining]
  | complete terminal hphase =>
    refine remaining_ended ?_ terminal
    rw [hphase]
    simp [OperationPhase.remaining]
  | finish error hends => exact remaining_ended hends.pos error
  | deliver error hphase hnone => exact remaining_result hnone
  | cancelled hasync hnone => exact remaining_result hnone
  | withdrawn hasync hnone hphase =>
    refine remaining_both ?_
    rw [hphase]
    simp [OperationPhase.remaining]

/-! ## 4. Every operation ends -/

/-- No work, and no observer of a completion, which holds the scope lock. -/
structure Quiet (s : ClosingStage ε) : Prop where
  idle : s.scope.hasActiveWorkLocked = false
  unobserved : s.scope.observing = 0

/-- A withdrawn operation has its result. -/
def Answered (s : ClosingStage ε) : Prop :=
  ∀ (i : Nat) (op : Operation ε), s.operations[i]? = some op → op.phase = .withdrawn →
    op.result.isSome = true

/-- Every operation has come to its end, and every caller has its result. -/
def Ended (s : ClosingStage ε) : Prop :=
  ∀ op ∈ s.operations, op.phase.remaining = 0 ∧ op.result.isSome = true

theorem ExitInv.answered (hi : s.ExitInv) : s.Answered :=
  fun i op hget hphase => ((hi.body i op hget).withdrawn hphase).2

theorem Quiet.step {e : CloseEvent ε} (hq : s.Quiet) (hproceeds : e.proceeds = true)
    (hstep : s.step e = some s') : s'.Quiet := by
  cases stepped hstep with
  | scope | executorCall | begin | observe => cases hproceeds
  | executorReturn => exact ⟨hq.idle, hq.unobserved⟩
  | change e i op op' t tail hget hchange =>
    cases hchange with
    | move phase scope hmove =>
      cases hmove with
      | cancelling =>
        have hscope : s.scope.cancelScope = s.scope := by
          rw [EpochState.cancelScope, hq.idle]
          rfl
        constructor
        · rw [hscope]
          exact hq.idle
        · rw [hscope]
          exact hq.unobserved
      | _ => exact ⟨hq.idle, hq.unobserved⟩
    | _ => exact ⟨hq.idle, hq.unobserved⟩

theorem remaining_step {e : CloseEvent ε} (hproceeds : e.proceeds = true)
    (hstep : s.step e = some s') : s'.remaining < s.remaining := by
  unfold ClosingStage.remaining
  cases stepped hstep with
  | scope | executorCall | begin | observe => cases hproceeds
  | executorReturn executor hget hpos =>
    rw [hget]
    dsimp only
    omega
  | change e i op op' t tail hget hchange =>
    have htotal := total_change_lt hget hchange.remaining
    have hexecutor : (match t.privateExecutor with
        | some executor => executor.calls
        | none => 0) = match s.privateExecutor with
        | some executor => executor.calls
        | none => 0 := by
      cases hchange with
      | shut terminal hphase =>
        cases s.privateExecutor <;> rfl
      | _ => rfl
    dsimp only
    rw [hexecutor]
    omega

/-- In a Stage without work an operation can take its next step, unless it waits for the lock. -/
theorem advance_isSome (hq : s.Quiet) (hpos : 0 < op.phase.remaining)
    (hlocking : op.phase ≠ .locking) (hexecutor : s.executorBusy = false) :
    (s.advance i op).isSome = true := by
  unfold ClosingStage.advance
  cases hphase : op.phase with
  | locking => exact absurd hphase hlocking
  | done error | withdrawn =>
    rw [hphase] at hpos
    cases hpos
  | waiting =>
    dsimp only
    rw [hq.idle]
    rfl
  | joining terminal =>
    dsimp only
    rw [hexecutor]
    rfl
  | sealing | queued | closing | shutting | completing => rfl
  | asking | guarding | cancelling | checking | entering | reading =>
    dsimp only
    split <;> rfl

theorem executorReturn_isSome (hbusy : s.executorBusy = true) :
    ∃ s', s.step .executorReturn = some s' := by
  unfold executorBusy at hbusy
  obtain ⟨executor, hget, hcalls⟩ := (Option.any_eq_true _ _).mp hbusy
  simp only [ClosingStage.step, hget]
  rw [if_pos (of_decide_eq_true hcalls)]
  exact ⟨_, rfl⟩

theorem exists_advance (hq : s.Quiet) (hget : s.operations[i]? = some op)
    (hpos : 0 < op.phase.remaining) (hlocking : op.phase ≠ .locking) :
    ∃ e s', e.proceeds = true ∧ s.step e = some s' := by
  cases hexecutor : s.executorBusy with
  | true =>
    obtain ⟨s', hs'⟩ := executorReturn_isSome hexecutor
    exact ⟨.executorReturn, s', rfl, hs'⟩
  | false =>
    obtain ⟨s', hs'⟩ := Option.isSome_iff_exists.mp
      (advance_isSome (i := i) hq hpos hlocking hexecutor)
    refine ⟨.advance i, s', rfl, ?_⟩
    change (s.operations[i]?).bind (s.advance i) = some s'
    rw [hget]
    exact hs'

/-- As long as an operation has not come to its end, some operation can take a step: the one that
    holds the lock does not wait for it. -/
theorem exists_proceeding (hc : s.CloseInv) (ha : s.Answered) (hq : s.Quiet)
    (hended : ¬ s.Ended) : ∃ e s', e.proceeds = true ∧ s.step e = some s' := by
  obtain ⟨op, hmem, hopen⟩ : ∃ op ∈ s.operations,
      ¬ (op.phase.remaining = 0 ∧ op.result.isSome = true) := by
    unfold Ended at hended
    push Not at hended
    obtain ⟨op, hmem, h⟩ := hended
    exact ⟨op, hmem, fun hboth => h hboth.1 hboth.2⟩
  obtain ⟨i, hget⟩ := List.mem_iff_getElem?.mp hmem
  rcases Nat.eq_zero_or_pos op.phase.remaining with hover | hpos
  · -- it has ended, and its result has not been delivered
    have hnone : op.result = none := by
      by_contra hsome
      exact hopen ⟨hover, Option.isSome_iff_ne_none.mpr hsome⟩
    cases hphase : op.phase with
    | done error =>
      refine ⟨.deliver i, s.setOperation i { op with result := some (op.resultOf error) }, rfl, ?_⟩
      change (s.operations[i]?).bind (s.deliver i) = _
      rw [hget, Option.bind_some, ClosingStage.deliver, hphase, hnone]
    | withdrawn =>
      have hsome := ha i op hget hphase
      rw [hnone] at hsome
      cases hsome
    | _ =>
      rw [hphase] at hover
      cases hover
  · by_cases hlocking : op.phase = .locking
    · cases hlock : s.closeOperationLock with
      | none =>
        refine ⟨.advance i, { s.setPhase i op .checking with closeOperationLock := some i }, rfl, ?_⟩
        change (s.operations[i]?).bind (s.advance i) = _
        rw [hget, Option.bind_some, ClosingStage.advance, hlocking]
        dsimp only
        rw [hlock]
        rfl
      | some k =>
        obtain ⟨holder, hholder, hheld⟩ := (hc.lock k).mp hlock
        refine exists_advance hq hholder ?_ ?_
        · unfold Operation.holdsLock at hheld
          cases hphase : holder.phase <;> rw [hphase] at hheld <;> first
            | exact Nat.succ_pos _
            | exact absurd (Bool.and_eq_true_iff.mp hheld).2 Bool.false_ne_true
        · intro hphase
          rw [Operation.holdsLock, hphase, Bool.and_false] at hheld
          cases hheld
    · exact exists_advance hq hget hpos hlocking

/-- **The barriers of a Stage without work end.**  From every reachable state without work, every
    choice of their steps and of the returns of the private executor comes to a state in which
    every caller has its result, and this within a bound that the state tells. -/
theorem operations_end (h : (closeSystem ε configured idleTimeout privateExecutor).Reachable s)
    (hquiet : s.Quiet) :
    (∃ es s', (∀ e ∈ es, e.proceeds = true) ∧
      (closeSystem ε configured idleTimeout privateExecutor).run s es = some s' ∧ s'.Ended) ∧
    ∀ es s', (∀ e ∈ es, e.proceeds = true) →
      (closeSystem ε configured idleTimeout privateExecutor).run s es = some s' →
      es.length ≤ s.remaining ∧
        (s'.Ended ∨ ∃ e, e.proceeds = true ∧ (s'.step e).isSome = true) := by
  have hstep : ∀ (u : ClosingStage ε) (e : CloseEvent ε) (u' : ClosingStage ε),
      (u.CloseInv ∧ u.ExitInv ∧ u.Quiet) → e.proceeds = true → u.step e = some u' →
        (u'.CloseInv ∧ u'.ExitInv ∧ u'.Quiet) ∧ u'.remaining < u.remaining :=
    fun u e u' hu hproceeds hstep => ⟨⟨hu.1.step hstep, hu.2.1.step hu.1 hstep,
      hu.2.2.step hproceeds hstep⟩, remaining_step hproceeds hstep⟩
  have hstart : s.CloseInv ∧ s.ExitInv ∧ s.Quiet :=
    ⟨reachable_closeInv h, reachable_exitInv h, hquiet⟩
  refine ⟨?_, fun es s' hes hrun => ?_⟩
  · obtain ⟨es, s', hes, hrun, -, hend⟩ := System.exists_run_to
      (S := closeSystem ε configured idleTimeout privateExecutor)
      (I := fun u => u.CloseInv ∧ u.ExitInv ∧ u.Quiet) ClosingStage.remaining
      (fun u hu hopen => exists_proceeding hu.1 hu.2.1.answered hu.2.2 hopen) hstep hstart
    exact ⟨es, s', hes, hrun, hend⟩
  · obtain ⟨hend, hlength⟩ := System.run_variant
      (S := closeSystem ε configured idleTimeout privateExecutor)
      (I := fun u => u.CloseInv ∧ u.ExitInv ∧ u.Quiet)
      ClosingStage.remaining hstep hstart hes hrun
    refine ⟨by omega, ?_⟩
    by_cases hended : s'.Ended
    · exact Or.inl hended
    · obtain ⟨e, u, hproceeds, hu⟩ := exists_proceeding hend.1 hend.2.1.answered hend.2.2 hended
      exact Or.inr ⟨e, hproceeds, by rw [hu]; rfl⟩

/-- The error of a handle is there; `close` and an `async_close` are called. -/
def quietRun : List (CloseEvent Nat) :=
  [.scope (.go outsideSite) "root" [], .executorCall, .scope (.handleQuiescent 0) "" [7],
    .begin .close false false none false, .begin .close true false (some 1) false,
    .advance 0, .advance 0, .advance 1, .advance 1, .advance 1]

theorem operations_end_quietRun : ∃ s, (closeSystem Nat .auto none true).run
      { scope := { configured := .auto, idleTimeout := none }, privateExecutor := some {} }
      quietRun = some s ∧ ¬ s.Ended ∧
    ∃ es s', (∀ e ∈ es, e.proceeds = true) ∧
      (closeSystem Nat .auto none true).run s es = some s' ∧ s'.Ended := by
  have hend : ((closeSystem Nat .auto none true).run
      { scope := { configured := .auto, idleTimeout := none }, privateExecutor := some {} }
      quietRun).any (fun s => !s.scope.hasActiveWorkLocked && decide (s.scope.observing = 0) &&
        s.operations.any fun op => op.result.isNone) = true := by decide
  obtain ⟨s, hrun, hs⟩ := (Option.any_eq_true _ _).mp hend
  obtain ⟨hquiet, hopen⟩ := Bool.and_eq_true_iff.mp hs
  obtain ⟨hidle, hobserving⟩ := Bool.and_eq_true_iff.mp hquiet
  obtain ⟨op, hmem, hnone⟩ := List.any_eq_true.mp hopen
  refine ⟨s, hrun, fun hended => ?_, (operations_end (System.reachable_of_run quietRun rfl hrun)
    ⟨by simpa using hidle, of_decide_eq_true hobserving⟩).1⟩
  have hsome := (hended op hmem).2
  rw [Option.isNone_iff_eq_none.mp hnone] at hsome
  cases hsome

end ClosingStage

end AgentlyStage
