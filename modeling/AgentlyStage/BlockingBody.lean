import AgentlyStage.CallerRunner
import AgentlyStage.Lib.Transition

/-!
# A blocking body

The owner task of a handle whose body is a blocking callable, from its creation to its
end: `body` of `Stage.go`, `_wait_for_admission`, `_execute_scalar` and the call in the
executor.

A cancellation is delivered when the task is resumed, and wins over the result of what
the task awaits; several that arrive before the task is resumed are one.  The executor
starts the call at any time and the callable takes any time.  A future of the loop is
done some time after the call (`delivered`).  An `asyncio.shield` that is cancelled leaves
the future behind it alone.
-/

namespace AgentlyStage

open Transition

/-! ## 1. State -/

inductive CallResult where
  | value
  | awaitable
  | raised
deriving DecidableEq, Repr

/-- The concurrent future behind `loop.run_in_executor`. -/
inductive ExecutorCall where
  | notSubmitted
  | queued
  | running
  | returned (result : CallResult)
  /-- The executor dropped the call before it started. -/
  | withdrawn
deriving DecidableEq, Repr

/-- The call has returned or raised, or was never started and never will be. -/
def ExecutorCall.over : ExecutorCall → Bool
  | .notSubmitted | .returned _ | .withdrawn => true
  | .queued | .running => false

/-- Where the coroutine of the owner task is suspended. -/
inductive BodyPlace where
  | unstarted
  /-- In `_wait_for_admission`. -/
  | gate
  /-- At `result = await asyncio.shield(blocking_future)`. -/
  | shielded
  /-- At the `await asyncio.shield(blocking_future)` of the `except` clause. -/
  | absorbing
  /-- Awaiting what the callable returned. -/
  | awaitable
  | ended
deriving DecidableEq, Repr

structure BlockingState where
  place : BodyPlace := .unstarted
  /-- The admission has a gate. -/
  queued : Bool := false
  gateOpen : Bool := false
  /-- A cancellation of the task that has not been thrown into the coroutine yet. -/
  taskCancelled : Bool := false
  call : ExecutorCall := .notSubmitted
  delivered : Bool := false
  outcome : Option BodyOutcome := none
  reservations : Nat := 1
deriving DecidableEq, Repr

inductive BlockingEvent where
  /-- `task.cancel()`, from `_cancel_tasks` or anything else. -/
  | cancelTask
  | gateOpens
  /-- The loop resumes the task; `accepted` says whether the executor takes the call when
      this step submits it. -/
  | resume (accepted : Bool)
  | startCall
  | returnCall (result : CallResult)
  | withdrawCall
  | deliverCall
  /-- What the callable returned has been awaited to its end. -/
  | awaitableEnds (outcome : BodyOutcome)
deriving DecidableEq, Repr

namespace BlockingState

variable {s s' : BlockingState}

/-! ## 2. The coroutine -/

/-- The outcome is set, and the `finally` clauses of `body` and of the runner around it
    run without another await. -/
def finish (s : BlockingState) (outcome : BodyOutcome) : BlockingState :=
  { s with place := .ended, outcome := some outcome, reservations := s.reservations - 1 }

/-- `_execute_scalar` up to its first await. -/
def executeScalar (s : BlockingState) (accepted : Bool) : BlockingState :=
  if accepted then { s with place := .shielded, call := .queued } else s.finish .exception

/-- The call is over inside the `except` clause: what it raised replaces the
    cancellation, which is raised again otherwise. -/
def absorbed (s : BlockingState) : BlockingState :=
  match s.call with
  | .returned .raised => s.finish .exception
  | _ => s.finish .cancelled

/-- The `except` clause of `_execute_scalar`; a shield of a future that is done does not
    suspend. -/
def absorb (s : BlockingState) : BlockingState :=
  if s.delivered then s.absorbed else { s with place := .absorbing }

/-- `result = await asyncio.shield(blocking_future)` is over. -/
def returned (s : BlockingState) : BlockingState :=
  match s.call with
  | .returned .value => s.finish .result
  | .returned .awaitable => { s with place := .awaitable }
  | .returned .raised => s.finish .exception
  | _ => s.absorb

/-- The loop resumes the task. -/
def resume (s : BlockingState) (accepted : Bool) : Option BlockingState :=
  match s.place with
  | .unstarted =>
    -- a task cancelled before its first step never runs its coroutine
    if s.taskCancelled then some { s with place := .ended }
    else if s.queued then some { s with place := .gate }
    else some (s.executeScalar accepted)
  | .gate =>
    if s.taskCancelled then some ({ s with taskCancelled := false }.finish .cancelled)
    else if s.gateOpen then some (s.executeScalar accepted)
    else none
  | .shielded =>
    if s.taskCancelled then some { s with taskCancelled := false }.absorb
    else if s.delivered then some s.returned
    else none
  | .absorbing =>
    -- the second cancellation leaves the `except` clause
    if s.taskCancelled then some ({ s with taskCancelled := false }.finish .cancelled)
    else if s.delivered then some s.absorbed
    else none
  | .awaitable | .ended => none

/-! ## 3. Events -/

def step (s : BlockingState) : BlockingEvent → Option BlockingState
  | .cancelTask => if s.place = .ended then some s else some { s with taskCancelled := true }
  | .gateOpens => some { s with gateOpen := true }
  | .resume accepted => s.resume accepted
  | .startCall => if s.call = .queued then some { s with call := .running } else none
  | .returnCall result =>
    if s.call = .running then some { s with call := .returned result } else none
  | .withdrawCall => if s.call = .queued then some { s with call := .withdrawn } else none
  | .deliverCall =>
    if s.call ≠ .notSubmitted ∧ s.call.over then some { s with delivered := true } else none
  | .awaitableEnds outcome =>
    if s.place = .awaitable then some (s.finish outcome) else none

end BlockingState

/-- All interleavings of one owner task, its cancellations and the executor. -/
def blockingSystem : System BlockingState BlockingEvent where
  Init s := ∃ queued, s = { queued := queued }
  step := BlockingState.step

namespace BlockingState

variable {s s' : BlockingState}

/-- The task is resumed by a cancellation out of the `except` clause, and the call is not
    over. -/
def escapes (s : BlockingState) : BlockingEvent → Bool
  | .resume _ => decide (s.place = .absorbing) && s.taskCancelled && !s.call.over
  | _ => false

/-! ## 4. The invariant -/

/-- What holds at each place of the coroutine. -/
def PlaceOk (s : BlockingState) : Prop :=
  match s.place with
  | .unstarted | .gate => s.call = .notSubmitted ∧ s.outcome = none ∧ s.reservations = 1
  | .shielded | .absorbing =>
    s.call ≠ .notSubmitted ∧ s.outcome = none ∧ s.reservations = 1
  | .awaitable =>
    s.call = .returned .awaitable ∧ s.outcome = none ∧ s.reservations = 1
  | .ended => (s.outcome = none ∧ s.reservations = 1 ∨ s.reservations = 0) ∧ s.call.over = true

structure BlockingInv (s : BlockingState) : Prop where
  place : s.PlaceOk
  delivered : s.delivered = true → s.call ≠ .notSubmitted ∧ s.call.over = true

/-- Finishing is right when the call is over. -/
theorem BlockingInv.finish (hdelivered : s.delivered = true →
      s.call ≠ .notSubmitted ∧ s.call.over = true)
    (hover : s.call.over = true) (hres : s.reservations = 1) (outcome : BodyOutcome) :
    BlockingInv (s.finish outcome) := by
  constructor
  · refine ⟨Or.inr ?_, hover⟩
    rw [BlockingState.finish, hres]
  · exact hdelivered

theorem BlockingInv.absorbed (hdelivered : s.call ≠ .notSubmitted ∧ s.call.over = true)
    (hres : s.reservations = 1) : BlockingInv s.absorbed := by
  unfold BlockingState.absorbed
  split
  · exact BlockingInv.finish (fun _ => hdelivered) hdelivered.2 hres _
  · exact BlockingInv.finish (fun _ => hdelivered) hdelivered.2 hres _

/-- The first cancellation is absorbed. -/
theorem BlockingInv.absorb (hsubmitted : s.call ≠ .notSubmitted) (hnone : s.outcome = none)
    (hres : s.reservations = 1)
    (hdelivered : s.delivered = true → s.call ≠ .notSubmitted ∧ s.call.over = true) :
    BlockingInv s.absorb := by
  unfold BlockingState.absorb
  split
  · rename_i hdone
    exact BlockingInv.absorbed (hdelivered hdone) hres
  · exact ⟨⟨hsubmitted, hnone, hres⟩, hdelivered⟩

theorem BlockingInv.returned (hdelivered : s.call ≠ .notSubmitted ∧ s.call.over = true)
    (hnone : s.outcome = none) (hres : s.reservations = 1) : BlockingInv s.returned := by
  unfold BlockingState.returned
  split
  · exact BlockingInv.finish (fun _ => hdelivered) hdelivered.2 hres _
  · rename_i hcall
    exact ⟨⟨hcall, hnone, hres⟩, fun _ => hdelivered⟩
  · exact BlockingInv.finish (fun _ => hdelivered) hdelivered.2 hres _
  · exact BlockingInv.absorb hdelivered.1 hnone hres fun _ => hdelivered

theorem BlockingInv.executeScalar
    (hdelivered : s.delivered = true → s.call ≠ .notSubmitted ∧ s.call.over = true)
    (hcall : s.call = .notSubmitted) (hnone : s.outcome = none) (hres : s.reservations = 1)
    (accepted : Bool) : BlockingInv (s.executeScalar accepted) := by
  unfold BlockingState.executeScalar
  split
  · refine ⟨⟨ExecutorCall.noConfusion, hnone, hres⟩, fun h => ?_⟩
    exact absurd hcall (hdelivered h).1
  · apply BlockingInv.finish hdelivered
    · rw [hcall]
      rfl
    · exact hres

/-- Resuming the task, except out of the `except` clause while the call runs. -/
theorem BlockingInv.resume (hs : BlockingInv s) {accepted : Bool}
    (hok : s.escapes (.resume accepted) = false) (hstep : s.resume accepted = some s') :
    BlockingInv s' := by
  have hplace := hs.place
  unfold PlaceOk at hplace
  unfold BlockingState.resume at hstep
  split at hstep
  · rename_i hat
    rw [hat] at hplace
    obtain ⟨hcall, hnone, hres⟩ := hplace
    split at hstep
    · cases hstep
      exact ⟨⟨Or.inl ⟨hnone, hres⟩, congrArg ExecutorCall.over hcall⟩, hs.delivered⟩
    · split at hstep
      · cases hstep
        exact ⟨⟨hcall, hnone, hres⟩, hs.delivered⟩
      · cases hstep
        exact BlockingInv.executeScalar hs.delivered hcall hnone hres accepted
  · rename_i hat
    rw [hat] at hplace
    obtain ⟨hcall, hnone, hres⟩ := hplace
    split at hstep
    · cases hstep
      apply BlockingInv.finish
      · exact hs.delivered
      · exact congrArg ExecutorCall.over hcall
      · exact hres
    · split at hstep
      · cases hstep
        exact BlockingInv.executeScalar hs.delivered hcall hnone hres accepted
      · cases hstep
  · rename_i hat
    rw [hat] at hplace
    obtain ⟨hsubmitted, hnone, hres⟩ := hplace
    split at hstep
    · cases hstep
      exact BlockingInv.absorb hsubmitted hnone hres hs.delivered
    · split at hstep
      · rename_i hdone
        cases hstep
        exact BlockingInv.returned (hs.delivered hdone) hnone hres
      · cases hstep
  · rename_i hat
    rw [hat] at hplace
    obtain ⟨hsubmitted, hnone, hres⟩ := hplace
    split at hstep
    · rename_i hcancelled
      cases hstep
      have hover : s.call.over = true := by
        by_contra hrunning
        simp [escapes, hat, hcancelled, hrunning] at hok
      apply BlockingInv.finish
      · exact hs.delivered
      · exact hover
      · exact hres
    · split at hstep
      · rename_i hdone
        cases hstep
        exact BlockingInv.absorbed (hs.delivered hdone) hres
      · cases hstep
  · cases hstep
  · cases hstep

/-- What the executor does to a call that was submitted. -/
theorem PlaceOk.setCall (hs : s.PlaceOk) {call : ExecutorCall} (hold : s.call.over = false)
    (hsubmitted : call ≠ .notSubmitted) : PlaceOk { s with call := call } := by
  unfold PlaceOk at hs ⊢
  dsimp only
  split at hs
  · rw [hs.1] at hold
    cases hold
  · rw [hs.1] at hold
    cases hold
  · exact ⟨hsubmitted, hs.2⟩
  · exact ⟨hsubmitted, hs.2⟩
  · rw [hs.1] at hold
    cases hold
  · rw [hs.2] at hold
    cases hold

theorem BlockingInv.setCall (hs : BlockingInv s) {call : ExecutorCall}
    (hold : s.call.over = false) (hsubmitted : call ≠ .notSubmitted) :
    BlockingInv { s with call := call } := by
  refine ⟨hs.place.setCall hold hsubmitted, fun hdone => ?_⟩
  rw [(hs.delivered hdone).2] at hold
  cases hold

/-- **Step lemma**, for every step but an escape. -/
theorem BlockingInv.step {e : BlockingEvent} (hs : BlockingInv s) (hok : s.escapes e = false)
    (hstep : s.step e = some s') : BlockingInv s' := by
  cases e with
  | cancelTask =>
    simp only [BlockingState.step] at hstep
    split at hstep
    · cases hstep
      exact hs
    · cases hstep
      exact ⟨hs.place, hs.delivered⟩
  | gateOpens =>
    cases hstep
    exact ⟨hs.place, hs.delivered⟩
  | resume accepted => exact hs.resume hok hstep
  | startCall =>
    simp only [BlockingState.step] at hstep
    split at hstep
    · rename_i hcall
      cases hstep
      exact hs.setCall (congrArg ExecutorCall.over hcall) ExecutorCall.noConfusion
    · cases hstep
  | returnCall result =>
    simp only [BlockingState.step] at hstep
    split at hstep
    · rename_i hcall
      cases hstep
      exact hs.setCall (congrArg ExecutorCall.over hcall) ExecutorCall.noConfusion
    · cases hstep
  | withdrawCall =>
    simp only [BlockingState.step] at hstep
    split at hstep
    · rename_i hcall
      cases hstep
      exact hs.setCall (congrArg ExecutorCall.over hcall) ExecutorCall.noConfusion
    · cases hstep
  | deliverCall =>
    simp only [BlockingState.step] at hstep
    split at hstep
    · rename_i hover
      cases hstep
      exact ⟨hs.place, fun _ => hover⟩
    · cases hstep
  | awaitableEnds outcome =>
    simp only [BlockingState.step] at hstep
    split at hstep
    · rename_i hat
      cases hstep
      have hplace := hs.place
      unfold PlaceOk at hplace
      rw [hat] at hplace
      exact BlockingInv.finish hs.delivered (congrArg ExecutorCall.over hplace.1) hplace.2.2 _
    · cases hstep

theorem reachUnder_blockingInv
    (hs : blockingSystem.ReachUnder (fun s e => s.escapes e = false) s) : BlockingInv s := by
  apply hs.invariant (I := BlockingInv)
  · rintro _ ⟨queued, rfl⟩
    exact ⟨⟨rfl, rfl, rfl⟩, fun h => by cases h⟩
  · intro t e t' ht hok hstep
    exact ht.step hok hstep

/-- Outside the end of the task nothing is set and nothing is released. -/
theorem BlockingInv.over_of_settled (hs : BlockingInv s)
    (hsettled : s.outcome.isSome = true ∨ s.reservations = 0) : s.call.over = true := by
  have hplace := hs.place
  have hpending : ¬ (s.outcome = none ∧ s.reservations = 1) := by
    rintro ⟨hnone, hres⟩
    rcases hsettled with hset | hzero
    · rw [hnone] at hset
      cases hset
    · rw [hres] at hzero
      cases hzero
  unfold PlaceOk at hplace
  split at hplace
  · exact absurd hplace.2 hpending
  · exact absurd hplace.2 hpending
  · exact absurd hplace.2 hpending
  · exact absurd hplace.2 hpending
  · exact absurd hplace.2 hpending
  · exact hplace.2

/-! ## 5. Escapes -/

/-- **An escape settles the handle while the call is queued or runs**, and a queued call
    can still start. -/
theorem settled_of_escapes {e : BlockingEvent} (hescapes : s.escapes e = true)
    (hstep : s.step e = some s') :
    s'.outcome = some .cancelled ∧ s'.reservations = s.reservations - 1 ∧
      (s'.call = .queued ∨ s'.call = .running) := by
  cases e with
  | resume accepted =>
    simp only [escapes, Bool.and_eq_true, decide_eq_true_eq, Bool.not_eq_true'] at hescapes
    obtain ⟨⟨hat, hcancelled⟩, hover⟩ := hescapes
    simp only [BlockingState.step, BlockingState.resume, hat, hcancelled, if_true] at hstep
    cases hstep
    refine ⟨rfl, rfl, ?_⟩
    change s.call = .queued ∨ s.call = .running
    cases hcall : s.call with
    | queued => exact Or.inl rfl
    | running => exact Or.inr rfl
    | notSubmitted | returned _ | withdrawn =>
      rw [hcall] at hover
      cases hover
  | _ => cases hescapes

end BlockingState

open BlockingState

/-- **A blocking body settles after its call.**  In every run in which no cancellation is
    thrown into the `except` clause of `_execute_scalar` while the call is not over, the
    outcome is set and the work released only once the call has returned or raised, or was
    never started.  A step outside that condition sets the outcome and releases the work
    of a call that is running, or that starts afterwards. -/
theorem blocking_body_settles_iff (s : BlockingState) :
    (blockingSystem.ReachUnder (fun s e => s.escapes e = false) s →
      s.outcome.isSome = true ∨ s.reservations = 0 → s.call.over = true) ∧
    ∀ (s' : BlockingState) (e : BlockingEvent),
      blockingSystem.ReachUnder (fun s e => s.escapes e = false) s → s.escapes e = true →
      blockingSystem.step s e = some s' →
      ∃ es u, blockingSystem.run s' es = some u ∧ u.call = .running ∧
        u.outcome = some .cancelled ∧ u.reservations = 0 := by
  constructor
  · intro hreach hsettled
    exact (reachUnder_blockingInv hreach).over_of_settled hsettled
  · intro s' e hreach hescapes hstep
    obtain ⟨houtcome, hres, hcall⟩ := settled_of_escapes hescapes hstep
    have hzero : s'.reservations = 0 := by
      have hplace := (reachUnder_blockingInv hreach).place
      cases e with
      | resume accepted =>
        simp only [escapes, Bool.and_eq_true, decide_eq_true_eq] at hescapes
        unfold PlaceOk at hplace
        rw [hescapes.1.1] at hplace
        rw [hres, hplace.2.2]
      | _ => cases hescapes
    rcases hcall with hqueued | hrunning
    · have hstart : blockingSystem.step s' .startCall = some { s' with call := .running } := by
        simp [blockingSystem, BlockingState.step, hqueued]
      refine ⟨[.startCall], { s' with call := .running }, ?_, rfl, houtcome, hzero⟩
      rw [System.run_cons_of_step hstart]
      rfl
    · exact ⟨[], s', rfl, hrunning, houtcome, hzero⟩

/-- Two cancellations while the callable runs. -/
def cancelledTwice : List BlockingEvent :=
  [.resume true, .startCall, .cancelTask, .resume true, .cancelTask, .resume true]

/-- At the end of `cancelledTwice` the handle has settled and its callable is running. -/
theorem blocking_body_settles_early :
    ∃ s, blockingSystem.run {} cancelledTwice = some s ∧ blockingSystem.Reachable s ∧
      s.call = .running ∧ s.outcome = some .cancelled ∧ s.reservations = 0 :=
  ⟨_, rfl, System.reachable_of_run cancelledTwice ⟨false, rfl⟩ rfl, rfl, rfl, rfl⟩

end AgentlyStage
