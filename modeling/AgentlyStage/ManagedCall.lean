import AgentlyStage.Lib.Transition

/-!
# A managed call of a blocking callable

The task of `StageCallBridge.as_async` with `managed=True`, for a callable that does not return an
awaitable.  The call is a future of the executor (`source`), of which the task awaits copies that
asyncio makes for its loop: first `blocking`; after a cancellation `settlement`, behind an
`asyncio.shield`, again and again until it is done.

`task.cancel()` cancels what the task awaits, or marks the task when that is done already.  The
callback of a cancelled copy cancels its source, which a call that has started refuses.  The
callbacks of the loop are run in any order here; asyncio runs them in the order of their posting.
-/

namespace AgentlyStage

open Transition

/-! ## 1. What a call raises -/

inductive CallErrorKind where
  /-- `asyncio.CancelledError`, or derived from it. -/
  | cancelledError
  /-- `concurrent.futures.CancelledError` itself. -/
  | futuresCancelledError
  /-- `concurrent.futures.InvalidStateError` itself. -/
  | invalidStateError
  /-- `TimeoutError` itself. -/
  | timeoutError
  | stopIteration
  | runtimeError
  | other (name : Nat)
deriving DecidableEq, Repr

/-- An exception object of the call. -/
structure CallError where
  object : Nat
  kind : CallErrorKind
deriving DecidableEq, Repr

/-- What leaves an `await`. -/
inductive Raised where
  | own (error : CallError)
  /-- A new exception object, made from one of the call. -/
  | remade (kind : CallErrorKind) (error : CallError)
  /-- The `CancelledError` of a cancelled task or future. -/
  | cancellation
deriving DecidableEq, Repr

/-- `except asyncio.CancelledError` catches it; a task that it leaves is cancelled. -/
def Raised.isCancelled : Raised → Bool
  | .own error => decide (error.kind = .cancelledError)
  | .remade kind _ => decide (kind = .cancelledError)
  | .cancellation => true

inductive CallOutcome (ρ : Type) where
  | value (value : ρ)
  | raised (error : CallError)
deriving DecidableEq, Repr

inductive TaskEnd (ρ : Type) where
  | value (value : ρ)
  | raised (error : Raised)
deriving DecidableEq, Repr

def TaskEnd.isCancelled {ρ : Type} : TaskEnd ρ → Bool
  | .value _ => false
  | .raised error => error.isCancelled

/-- What differs between the versions of asyncio. -/
structure Asyncio where
  /-- In some of them a `TimeoutError` is made anew. -/
  remakesTimeout : Bool
  /-- Older versions refuse to set a `StopIteration`; newer ones set a `RuntimeError`. -/
  refusesStopIteration : Bool
deriving DecidableEq, Repr

/-- `_convert_future_exc`, and the `StopIteration` of `Future.set_exception`. -/
def Asyncio.convertFutureExc (asyncio : Asyncio) (error : CallError) : Raised :=
  match error.kind with
  | .futuresCancelledError => .remade .cancelledError error
  | .invalidStateError => .remade .invalidStateError error
  | .timeoutError => if asyncio.remakesTimeout then .remade .timeoutError error else .own error
  | .stopIteration => .remade .runtimeError error
  | _ => .own error

/-! ## 2. Futures -/

/-- The future of the executor. -/
inductive SourceState (ρ : Type) where
  | notSubmitted
  | pending
  | running
  | done (outcome : CallOutcome ρ)
  /-- The executor drops the call. -/
  | cancelled
deriving DecidableEq, Repr

def SourceState.isPending {ρ : Type} : SourceState ρ → Bool
  | .pending => true
  | _ => false

/-- The call has returned, raised or been withdrawn. -/
def SourceState.settled {ρ : Type} : SourceState ρ → Bool
  | .done _ | .cancelled => true
  | _ => false

/-- A future of the loop. -/
inductive CopyState (ρ : Type) where
  | pending
  | done (outcome : TaskEnd ρ)
  | cancelled
deriving DecidableEq, Repr

def CopyState.isDone {ρ : Type} : CopyState ρ → Bool
  | .pending => false
  | _ => true

/-- What an `await` of the future gives. -/
def CopyState.outcome {ρ : Type} : CopyState ρ → Option (TaskEnd ρ)
  | .pending => none
  | .done outcome => some outcome
  | .cancelled => some (.raised .cancellation)

/-- `_copy_future_state`, when the copy is pending. -/
def Asyncio.copyFutureState {ρ : Type} (asyncio : Asyncio) : SourceState ρ → CopyState ρ
  | .done (.value value) => .done (.value value)
  | .done (.raised error) =>
    if asyncio.refusesStopIteration ∧ error.kind = .stopIteration then .pending
    else .done (.raised (asyncio.convertFutureExc error))
  | .cancelled => .cancelled
  | _ => .pending

/-! ## 3. The task -/

inductive AwaitPlace (ρ : Type) where
  /-- Before its first step. -/
  | unstarted
  /-- At `result = await blocking`. -/
  | blocking
  /-- At `await asyncio.shield(settlement)`, with the exception that has brought it there. -/
  | absorbing (first : Raised)
  | ended (outcome : TaskEnd ρ)
deriving DecidableEq, Repr

structure ManagedCall (ρ : Type) where
  place : AwaitPlace ρ := .unstarted
  source : SourceState ρ := .notSubmitted
  blocking : CopyState ρ := .pending
  settlement : CopyState ρ := .pending
  /-- The future that the current `asyncio.shield` has returned. -/
  outer : CopyState ρ := .pending
  /-- `_must_cancel`. -/
  mustCancel : Bool := false
  /-- Posted to the loop: the next step of the task, `_call_check_cancel` of `blocking`, the copies
      of the source, and the callback of the shield. -/
  wakeup : Bool := true
  checkCancel : Bool := false
  copyBlocking : Bool := false
  copySettlement : Bool := false
  innerDone : Bool := false
  /-- History: the task has been cancelled, at all and while it waited for the call. -/
  cancelRequested : Bool := false
  cancelledWaiting : Bool := false
deriving DecidableEq, Repr

inductive ManagedEvent (ρ : Type) where
  /-- `task.cancel()`. -/
  | cancelTask
  /-- The loop runs the next step of the task.  The first one submits the call, unless the bridge is
      closed or the executor refuses the call, which `refused` is then the error of. -/
  | resume (refused : Option CallError)
  | runCheckCancel
  | runCopyBlocking
  | runCopySettlement
  | runInnerDone
  | startCall
  | returnCall (outcome : CallOutcome ρ)
  /-- The executor drops a call that has not started. -/
  | withdrawCall

namespace ManagedCall

variable {ρ : Type} (asyncio : Asyncio) (s : ManagedCall ρ)

/-- The done callbacks of the source post the copies that there are. -/
def setSource (source : SourceState ρ) : ManagedCall ρ :=
  { s with
    source := source
    copyBlocking := true
    copySettlement := match s.place with
      | .absorbing _ => true
      | _ => s.copySettlement }

def finish (outcome : TaskEnd ρ) : ManagedCall ρ :=
  { s with place := .ended outcome, mustCancel := false, wakeup := false }

/-- `task.cancel()` of a task whose next step is posted. -/
def markCancelled : ManagedCall ρ := { s with mustCancel := true, cancelRequested := true }

def cancelTask : ManagedCall ρ :=
  match s.place with
  | .unstarted => s.markCancelled
  | .blocking =>
    if s.blocking.isDone then { s.markCancelled with cancelledWaiting := true }
    else
      { s with
        blocking := .cancelled
        checkCancel := true
        wakeup := true
        cancelRequested := true
        cancelledWaiting := true }
  | .absorbing _ =>
    if s.outer.isDone then { s.markCancelled with cancelledWaiting := true }
    else
      { s with
        outer := .cancelled
        wakeup := true
        cancelRequested := true
        cancelledWaiting := true }
  | .ended _ => s

/-- The coroutine awaits a new `asyncio.shield(settlement)`. -/
def shield (first : Raised) : ManagedCall ρ :=
  { s with place := .absorbing first, outer := .pending, mustCancel := false, wakeup := false }

/-- The `except` clause, up to its first `await`: the copy has just been made. -/
def absorb (first : Raised) : ManagedCall ρ :=
  { s with
    settlement := .pending
    copySettlement := s.source.settled
    innerDone := false }.shield first

/-- What the task gets from the future it awaits; a cancellation replaces it. -/
def received (awaited : CopyState ρ) : Option (TaskEnd ρ) :=
  awaited.outcome.map fun outcome =>
    if s.mustCancel ∧ outcome.isCancelled = false then .raised .cancellation else outcome

/-- The first step of the coroutine. -/
def start (refused : Option CallError) : ManagedCall ρ :=
  if s.mustCancel then s.finish (.raised .cancellation)
  else
    match refused with
    | some error => s.finish (.raised (.own error))
    | none => { s with place := .blocking, source := .pending, wakeup := false }

/-- `result = await blocking` is over. -/
def afterBlocking : TaskEnd ρ → ManagedCall ρ
  | .value value => s.finish (.value value)
  | .raised error => if error.isCancelled then s.absorb error else s.finish (.raised error)

/-- `while not settlement.done()`, and then `raise`. -/
def absorbAgain (first : Raised) : ManagedCall ρ :=
  if s.settlement.isDone then s.finish (.raised first) else s.shield first

/-- An exception other than a `CancelledError` breaks the loop. -/
def afterShield (first : Raised) : TaskEnd ρ → ManagedCall ρ
  | .value _ => s.absorbAgain first
  | .raised error =>
    if error.isCancelled then s.absorbAgain first else s.finish (.raised first)

def resume (refused : Option CallError) : Option (ManagedCall ρ) :=
  match s.place with
  | .unstarted => some (s.start refused)
  | .blocking => (s.received s.blocking).map s.afterBlocking
  | .absorbing first => (s.received s.outer).map (s.afterShield first)
  | .ended _ => none

/-- The callback of a cancelled copy cancels its source. -/
def runCheckCancel : ManagedCall ρ :=
  if s.source.isPending then { s.setSource .cancelled with checkCancel := false }
  else { s with checkCancel := false }

def runCopyBlocking : ManagedCall ρ :=
  if s.blocking.isDone then { s with copyBlocking := false }
  else
    { s with
      copyBlocking := false
      blocking := asyncio.copyFutureState s.source
      wakeup := s.wakeup || (asyncio.copyFutureState s.source).isDone }

def runCopySettlement : ManagedCall ρ :=
  if s.settlement.isDone then { s with copySettlement := false }
  else
    { s with
      copySettlement := false
      settlement := asyncio.copyFutureState s.source
      innerDone := (asyncio.copyFutureState s.source).isDone }

/-- `_inner_done_callback` of the shield. -/
def runInnerDone : ManagedCall ρ :=
  if s.outer.isDone then { s with innerDone := false }
  else { s with innerDone := false, outer := s.settlement, wakeup := true }

def step : ManagedEvent ρ → Option (ManagedCall ρ)
  | .cancelTask => some s.cancelTask
  | .resume refused => if s.wakeup then s.resume refused else none
  | .runCheckCancel => if s.checkCancel then some s.runCheckCancel else none
  | .runCopyBlocking => if s.copyBlocking then some (s.runCopyBlocking asyncio) else none
  | .runCopySettlement => if s.copySettlement then some (s.runCopySettlement asyncio) else none
  | .runInnerDone => if s.innerDone then some s.runInnerDone else none
  | .startCall => if s.source.isPending then some { s with source := .running } else none
  | .returnCall outcome =>
    match s.source with
    | .running => some (s.setSource (.done outcome))
    | _ => none
  | .withdrawCall => if s.source.isPending then some (s.setSource .cancelled) else none

end ManagedCall

/-- All interleavings of the task, its cancellations, the loop and the executor. -/
def managedSystem (ρ : Type) (asyncio : Asyncio) : System (ManagedCall ρ) (ManagedEvent ρ) where
  Init s := s = {}
  step s := s.step asyncio

/-- A step of the loop of the task. -/
def ManagedEvent.isLoop {ρ : Type} : ManagedEvent ρ → Bool
  | .resume _ | .runCheckCancel | .runCopyBlocking | .runCopySettlement | .runInnerDone => true
  | _ => false

namespace ManagedCall

variable {ρ : Type} (asyncio : Asyncio) (s : ManagedCall ρ)

/-! ## 4. What is claimed, and what holds -/

/-- The task ends after its call; as cancelled when it was cancelled while it waited; otherwise with
    the very result or error of the call. -/
structure Claimed : Prop where
  settled : ∀ outcome, s.place = .ended outcome → s.source.settled = true
  cancelled : ∀ outcome, s.place = .ended outcome → s.cancelledWaiting = true →
    outcome.isCancelled = true
  own : ∀ outcome call, s.place = .ended outcome → s.cancelRequested = false →
    s.source = .done call → outcome = match call with
      | .value value => .value value
      | .raised error => .raised (.own error)

/-- A task that has not submitted its call may end before it, and the error of a call is the one
    that asyncio hands to the loop. -/
structure Settles : Prop where
  settled : ∀ outcome, s.place = .ended outcome →
    s.source.settled = true ∨ s.source = .notSubmitted
  cancelled : ∀ outcome, s.place = .ended outcome → s.cancelledWaiting = true →
    outcome.isCancelled = true
  given : ∀ outcome, s.place = .ended outcome → s.cancelRequested = false →
    s.source.settled = true → (asyncio.copyFutureState s.source).outcome = some outcome

/-! ## 5. The invariant -/

/-- There is no second copy yet. -/
def Alone : Prop := s.copySettlement = false ∧ s.innerDone = false

structure BlockingOk : Prop where
  submitted : s.source ≠ .notSubmitted
  alone : s.Alone
  copied : s.blocking.isDone = true →
    s.source.settled = true ∧ s.blocking = asyncio.copyFutureState s.source ∨
      s.blocking = .cancelled ∧ s.cancelRequested = true
  awake : s.wakeup = s.blocking.isDone
  marked : s.mustCancel = true → s.blocking.isDone = true
  waiting : s.cancelledWaiting = true → s.mustCancel = true ∨ s.blocking = .cancelled
  posted : s.source.settled = true → s.blocking.isDone = false →
    s.copyBlocking = true ∨ (asyncio.copyFutureState s.source).isDone = false

structure AbsorbingOk (first : Raised) : Prop where
  submitted : s.source ≠ .notSubmitted
  resumed : s.blocking.isDone = true
  isCancelled : first.isCancelled = true
  given : s.cancelRequested = false →
    s.source.settled = true ∧ (asyncio.copyFutureState s.source).outcome = some (.raised first)
  copied : s.settlement.isDone = true →
    s.source.settled = true ∧ s.settlement = asyncio.copyFutureState s.source
  awake : s.wakeup = s.outer.isDone
  marked : s.mustCancel = true → s.outer.isDone = true
  shielded : s.outer.isDone = true → s.outer = .cancelled ∨ s.settlement.isDone = true
  posted : s.source.settled = true → s.settlement.isDone = false →
    s.copySettlement = true ∨ (asyncio.copyFutureState s.source).isDone = false
  inner : s.settlement.isDone = true → s.outer.isDone = false → s.innerDone = true
  behind : s.innerDone = true → s.settlement.isDone = true

structure EndedOk (outcome : TaskEnd ρ) : Prop where
  settled : s.source.settled = true ∨ s.source = .notSubmitted
  cancelled : s.cancelledWaiting = true → outcome.isCancelled = true
  given : s.cancelRequested = false → s.source.settled = true →
    (asyncio.copyFutureState s.source).outcome = some outcome

def PlaceOk : Prop :=
  match s.place with
  | .unstarted => s.source = .notSubmitted ∧ s.blocking = .pending ∧ s.wakeup = true ∧
      s.cancelledWaiting = false ∧ s.Alone
  | .blocking => s.BlockingOk asyncio
  | .absorbing first => s.AbsorbingOk asyncio first
  | .ended outcome => s.EndedOk asyncio outcome

structure ManagedInv : Prop where
  marked : s.mustCancel = true → s.cancelRequested = true
  place : s.PlaceOk asyncio

variable {asyncio s} {s' : ManagedCall ρ}

theorem isDone_of_outcome {copy : CopyState ρ} {outcome : TaskEnd ρ}
    (h : copy.outcome = some outcome) : copy.isDone = true := by
  cases copy with
  | pending => cases h
  | done _ | cancelled => rfl

/-- Only a settled source gives its copies anything. -/
theorem settled_of_copy {source : SourceState ρ}
    (h : (asyncio.copyFutureState source).isDone = true) : source.settled = true := by
  cases source with
  | done _ | cancelled => rfl
  | _ => cases h

/-- What the task receives: its own cancellation, or what the future gives. -/
theorem received_cases {awaited : CopyState ρ} {outcome : TaskEnd ρ}
    (h : s.received awaited = some outcome) :
    s.mustCancel = true ∧ outcome = .raised .cancellation ∨
      awaited.outcome = some outcome ∧ (s.mustCancel = true → outcome.isCancelled = true) := by
  obtain ⟨given, hgiven, rfl⟩ := Option.map_eq_some_iff.mp h
  split
  · rename_i hmarked
    exact Or.inl ⟨hmarked.1, rfl⟩
  · rename_i hmarked
    refine Or.inr ⟨hgiven, fun hmust => ?_⟩
    by_contra hnot
    exact hmarked ⟨hmust, by simpa using hnot⟩

theorem managedInv_init : ManagedInv asyncio ({} : ManagedCall ρ) :=
  ⟨fun h => h, rfl, rfl, rfl, rfl, rfl, rfl⟩

theorem ManagedInv.cancelTask (hs : ManagedInv asyncio s) : ManagedInv asyncio s.cancelTask := by
  have hplace := hs.place
  unfold ManagedCall.cancelTask
  split
  · rename_i hat
    rw [PlaceOk, hat] at hplace
    refine ⟨fun _ => rfl, ?_⟩
    rw [PlaceOk, show s.markCancelled.place = .unstarted from hat]
    exact hplace
  · rename_i hat
    rw [PlaceOk, hat] at hplace
    split
    · rename_i hdone
      refine ⟨fun _ => rfl, ?_⟩
      rw [PlaceOk, show ({ s.markCancelled with cancelledWaiting := true } : ManagedCall ρ).place =
        .blocking from hat]
      exact ⟨hplace.submitted, hplace.alone,
        fun h => (hplace.copied h).imp_right fun h => ⟨h.1, rfl⟩,
        hplace.awake, fun _ => hdone, fun _ => Or.inl rfl, hplace.posted⟩
    · refine ⟨fun _ => rfl, ?_⟩
      simp only [PlaceOk, hat]
      exact ⟨hplace.submitted, hplace.alone, fun _ => Or.inr ⟨rfl, rfl⟩, rfl, fun _ => rfl,
        fun _ => Or.inr rfl, fun _ h => by cases h⟩
  · rename_i first hat
    rw [PlaceOk, hat] at hplace
    split
    · rename_i hdone
      refine ⟨fun _ => rfl, ?_⟩
      rw [PlaceOk, show ({ s.markCancelled with cancelledWaiting := true } : ManagedCall ρ).place =
        .absorbing first from hat]
      exact ⟨hplace.submitted, hplace.resumed, hplace.isCancelled, (fun h => by cases h),
        hplace.copied, hplace.awake, fun _ => hdone, hplace.shielded, hplace.posted, hplace.inner,
        hplace.behind⟩
    · refine ⟨fun _ => rfl, ?_⟩
      simp only [PlaceOk, hat]
      exact ⟨hplace.submitted, hplace.resumed, hplace.isCancelled, (fun h => by cases h),
        hplace.copied, rfl, fun _ => rfl, fun _ => Or.inl rfl, hplace.posted,
        (fun _ h => by cases h), hplace.behind⟩
  · exact hs

/-- The coroutine ends. -/
theorem ManagedInv.finish {outcome : TaskEnd ρ} (h : s.EndedOk asyncio outcome) :
    ManagedInv asyncio (s.finish outcome) :=
  ⟨(fun h => by cases h), ⟨h.settled, h.cancelled, h.given⟩⟩

theorem ManagedInv.start (hs : ManagedInv asyncio s) (hat : s.place = .unstarted)
    (refused : Option CallError) : ManagedInv asyncio (s.start refused) := by
  have hplace := hs.place
  rw [PlaceOk, hat] at hplace
  obtain ⟨hsource, hblocking, -, hwaiting, halone⟩ := hplace
  have hended : ∀ outcome, s.EndedOk asyncio outcome := by
    refine fun outcome => ⟨Or.inr hsource, fun h => ?_, fun _ h => ?_⟩
    · rw [hwaiting] at h
      cases h
    · rw [hsource] at h
      cases h
  unfold ManagedCall.start
  split
  · exact .finish (hended _)
  · rename_i hmarked
    split
    · exact .finish (hended _)
    · refine ⟨hs.marked, (fun h => by cases h), halone, fun h => ?_, ?_, fun h => absurd h hmarked,
        fun h => ?_, fun h => by cases h⟩
      · rw [show s.blocking = .pending from hblocking] at h
        cases h
      · rw [show s.blocking = .pending from hblocking]
        rfl
      · rw [show s.cancelledWaiting = false from hwaiting] at h
        cases h

/-- The `except` clause is entered. -/
theorem ManagedInv.absorb {first : Raised} (hsubmitted : s.source ≠ .notSubmitted)
    (hover : s.blocking.isDone = true)
    (hfirst : first.isCancelled = true)
    (hgiven : s.cancelRequested = false →
      s.source.settled = true ∧ (asyncio.copyFutureState s.source).outcome = some (.raised first)) :
    ManagedInv asyncio (s.absorb first) :=
  ⟨(fun h => by cases h), hsubmitted, hover, hfirst, hgiven, (fun h => by cases h), rfl,
    (fun h => by cases h), (fun h => by cases h), fun h _ => Or.inl h, (fun h => by cases h),
    fun h => by cases h⟩

theorem BlockingOk.afterBlocking (hs : s.BlockingOk asyncio)
    (hmarked : s.mustCancel = true → s.cancelRequested = true) {outcome : TaskEnd ρ}
    (h : s.received s.blocking = some outcome) : ManagedInv asyncio (s.afterBlocking outcome) := by
  have hcases := received_cases h
  have hover : s.blocking.isDone = true := by
    rcases hcases with ⟨hmust, -⟩ | ⟨houtcome, -⟩
    · exact hs.marked hmust
    · exact isDone_of_outcome houtcome
  -- without a cancellation it is what the source has given
  have hgiven : s.cancelRequested = false →
      s.source.settled = true ∧ (asyncio.copyFutureState s.source).outcome = some outcome := by
    intro hnot
    rcases hcases with ⟨hmust, -⟩ | ⟨houtcome, -⟩
    · rw [hmarked hmust] at hnot
      cases hnot
    · rcases hs.copied hover with ⟨hsettled, hcopy⟩ | ⟨-, hrequested⟩
      · exact ⟨hsettled, hcopy ▸ houtcome⟩
      · rw [hrequested] at hnot
        cases hnot
  have hended : outcome.isCancelled = false → s.EndedOk asyncio outcome := by
    intro hnot
    refine ⟨?_, fun hwaiting => ?_, fun hrequested _ => (hgiven hrequested).2⟩
    · rcases hcases with ⟨-, rfl⟩ | ⟨houtcome, -⟩
      · cases hnot
      · rcases hs.copied hover with ⟨hsettled, -⟩ | ⟨hcancelled, -⟩
        · exact Or.inl hsettled
        · rw [hcancelled] at houtcome
          cases houtcome
          cases hnot
    · rcases hcases with ⟨-, rfl⟩ | ⟨houtcome, hmust⟩
      · rfl
      · rcases hs.waiting hwaiting with hmark | hcancelled
        · exact hmust hmark
        · rw [hcancelled] at houtcome
          cases houtcome
          rfl
  unfold ManagedCall.afterBlocking
  split
  · exact .finish (hended rfl)
  · rename_i error
    split
    · rename_i hcancelled
      exact .absorb hs.submitted hover hcancelled hgiven
    · rename_i hnot
      exact .finish (hended (Bool.not_eq_true _ ▸ hnot))

/-- The loop ends only when its copy has ended. -/
theorem AbsorbingOk.finish {first : Raised} (hs : s.AbsorbingOk asyncio first)
    (h : s.settlement.isDone = true) : ManagedInv asyncio (s.finish (.raised first)) :=
  .finish ⟨Or.inl (hs.copied h).1, fun _ => hs.isCancelled, fun hnot _ => (hs.given hnot).2⟩

theorem AbsorbingOk.absorbAgain {first : Raised} (hs : s.AbsorbingOk asyncio first) :
    ManagedInv asyncio (s.absorbAgain first) := by
  unfold ManagedCall.absorbAgain
  split
  · rename_i hdone
    exact hs.finish hdone
  · rename_i hnot
    exact ⟨(fun h => by cases h), hs.submitted, hs.resumed, hs.isCancelled, hs.given, hs.copied, rfl,
      (fun h => by cases h), (fun h => by cases h), hs.posted, (fun h => absurd h hnot), hs.behind⟩

theorem AbsorbingOk.afterShield {first : Raised} (hs : s.AbsorbingOk asyncio first)
    {outcome : TaskEnd ρ} (h : s.received s.outer = some outcome) :
    ManagedInv asyncio (s.afterShield first outcome) := by
  unfold ManagedCall.afterShield
  split
  · exact hs.absorbAgain
  · rename_i error
    split
    · exact hs.absorbAgain
    · rename_i hnot
      -- only the copy gives the shield another exception
      refine hs.finish ?_
      rcases received_cases h with ⟨-, herror⟩ | ⟨houtcome, -⟩
      · cases herror
        exact absurd rfl hnot
      · rcases hs.shielded (isDone_of_outcome houtcome) with hcancelled | hdone
        · rw [hcancelled] at houtcome
          cases houtcome
          exact absurd rfl hnot
        · exact hdone

theorem ManagedInv.resume (hs : ManagedInv asyncio s) {refused : Option CallError}
    (h : s.resume refused = some s') : ManagedInv asyncio s' := by
  have hplace := hs.place
  unfold ManagedCall.resume at h
  split at h
  · rename_i hat
    cases h
    exact hs.start hat refused
  · rename_i hat
    rw [PlaceOk, hat] at hplace
    obtain ⟨outcome, houtcome, rfl⟩ := Option.map_eq_some_iff.mp h
    exact hplace.afterBlocking hs.marked houtcome
  · rename_i first hat
    rw [PlaceOk, hat] at hplace
    obtain ⟨outcome, houtcome, rfl⟩ := Option.map_eq_some_iff.mp h
    exact hplace.afterShield houtcome
  · cases h

/-- The call starts, or ends: what the executor does to a call that is not over. -/
theorem ManagedInv.executor (hs : ManagedInv asyncio s) (hsubmitted : s.source ≠ .notSubmitted)
    (hbusy : s.source.settled = false) {source : SourceState ρ} (hsource : source ≠ .notSubmitted)
    {copyBlocking copySettlement : Bool}
    (hcopy : source.settled = true → s.place = .blocking → copyBlocking = true)
    (hsettle : source.settled = true → ∀ first, s.place = .absorbing first →
      copySettlement = true)
    (hkeep : s.place = .blocking → copySettlement = s.copySettlement) :
    ManagedInv asyncio
      { s with
        source := source
        copyBlocking := copyBlocking
        copySettlement := copySettlement } := by
  have hplace := hs.place
  have hnot : s.source.settled ≠ true := by simp [hbusy]
  refine ⟨hs.marked, ?_⟩
  unfold PlaceOk at hplace ⊢
  cases hat : s.place with
  | unstarted =>
    rw [hat] at hplace
    exact absurd hplace.1 hsubmitted
  | blocking =>
    rw [hat] at hplace
    exact ⟨hsource, ⟨(hkeep hat).trans hplace.alone.1, hplace.alone.2⟩,
      fun h => Or.inr ((hplace.copied h).resolve_left fun h => hnot h.1),
      hplace.awake, hplace.marked, hplace.waiting, fun h _ => Or.inl (hcopy h hat)⟩
  | absorbing first =>
    rw [hat] at hplace
    exact ⟨hsource, hplace.resumed, hplace.isCancelled, fun h => absurd (hplace.given h).1 hnot,
      fun h => absurd (hplace.copied h).1 hnot, hplace.awake, hplace.marked, hplace.shielded,
      fun h _ => Or.inl (hsettle h first hat), hplace.inner, hplace.behind⟩
  | ended outcome =>
    rw [hat] at hplace
    exact absurd hplace.settled (not_or.mpr ⟨hnot, hsubmitted⟩)

theorem ManagedInv.setSource (hs : ManagedInv asyncio s) (hsubmitted : s.source ≠ .notSubmitted)
    (hbusy : s.source.settled = false) {source : SourceState ρ}
    (hsource : source ≠ .notSubmitted) : ManagedInv asyncio (s.setSource source) := by
  refine hs.executor hsubmitted hbusy hsource (fun _ _ => rfl) (fun _ first hat => ?_) fun hat => ?_
  · rw [hat]
  · rw [hat]

theorem ManagedInv.checked (hs : ManagedInv asyncio s) :
    ManagedInv asyncio { s with checkCancel := false } := by
  have hplace := hs.place
  refine ⟨hs.marked, ?_⟩
  unfold PlaceOk at hplace ⊢
  cases hat : s.place with
  | unstarted =>
    rw [hat] at hplace
    exact hplace
  | blocking =>
    rw [hat] at hplace
    exact ⟨hplace.submitted, hplace.alone, hplace.copied, hplace.awake, hplace.marked,
      hplace.waiting, hplace.posted⟩
  | absorbing first =>
    rw [hat] at hplace
    exact ⟨hplace.submitted, hplace.resumed, hplace.isCancelled, hplace.given, hplace.copied,
      hplace.awake, hplace.marked, hplace.shielded, hplace.posted, hplace.inner, hplace.behind⟩
  | ended outcome =>
    rw [hat] at hplace
    exact ⟨hplace.settled, hplace.cancelled, hplace.given⟩

theorem busy_of_isPending {source : SourceState ρ} (h : source.isPending = true) :
    source ≠ .notSubmitted ∧ source.settled = false := by
  cases source with
  | pending => exact ⟨(fun h => by cases h), rfl⟩
  | _ => cases h

theorem ManagedInv.runCheckCancel (hs : ManagedInv asyncio s) :
    ManagedInv asyncio s.runCheckCancel := by
  unfold ManagedCall.runCheckCancel
  split
  · rename_i hpending
    have hbusy := busy_of_isPending hpending
    exact (hs.setSource hbusy.1 hbusy.2 fun h => by cases h).checked
  · exact hs.checked

/-- A copy of the source is done once the source is. -/
theorem copied_source {source : SourceState ρ} {copy : CopyState ρ}
    (h : copy = asyncio.copyFutureState source) (hdone : copy.isDone = true) :
    source.settled = true ∧ copy = asyncio.copyFutureState source :=
  ⟨settled_of_copy (h ▸ hdone), h⟩

theorem ManagedInv.runCopyBlocking (hs : ManagedInv asyncio s) :
    ManagedInv asyncio (s.runCopyBlocking asyncio) := by
  have hplace := hs.place
  unfold ManagedCall.runCopyBlocking
  unfold PlaceOk at hplace
  split
  all_goals
    rename_i hdone
    refine ⟨hs.marked, ?_⟩
    unfold PlaceOk
    cases hat : s.place
    all_goals rw [hat] at hplace
  case isTrue.unstarted => exact hplace
  case isTrue.blocking =>
    exact ⟨hplace.submitted, hplace.alone, hplace.copied, hplace.awake, hplace.marked,
      hplace.waiting, fun _ h => absurd hdone (by rw [h]; exact Bool.false_ne_true)⟩
  case isTrue.absorbing first =>
    exact ⟨hplace.submitted, hplace.resumed, hplace.isCancelled, hplace.given, hplace.copied,
      hplace.awake, hplace.marked, hplace.shielded, hplace.posted, hplace.inner, hplace.behind⟩
  case isTrue.ended outcome => exact ⟨hplace.settled, hplace.cancelled, hplace.given⟩
  case isFalse.unstarted =>
    obtain ⟨hsource, -, hwakeup, hwaiting, halone⟩ := hplace
    refine ⟨hsource, ?_, ?_, hwaiting, halone⟩
    · simp [hsource, Asyncio.copyFutureState]
    · simp [hwakeup]
  case isFalse.blocking =>
    have hasleep : s.wakeup = false := by simpa [hplace.awake] using hdone
    refine ⟨hplace.submitted, hplace.alone, fun h => Or.inl (copied_source rfl h), ?_,
      fun h => absurd (hplace.marked h) hdone, fun h => ?_, fun _ h => Or.inr h⟩
    · simp [hasleep]
    · rcases hplace.waiting h with hmust | hcancelled
      · exact absurd (hplace.marked hmust) hdone
      · rw [hcancelled] at hdone
        exact absurd rfl hdone
  case isFalse.absorbing first => exact absurd hplace.resumed hdone
  case isFalse.ended outcome => exact ⟨hplace.settled, hplace.cancelled, hplace.given⟩

theorem ManagedInv.runCopySettlement (hs : ManagedInv asyncio s) (h : s.copySettlement = true) :
    ManagedInv asyncio (s.runCopySettlement asyncio) := by
  have hplace := hs.place
  unfold ManagedCall.runCopySettlement
  unfold PlaceOk at hplace
  split
  all_goals
    rename_i hdone
    refine ⟨hs.marked, ?_⟩
    unfold PlaceOk
    cases hat : s.place
    all_goals rw [hat] at hplace
  case isTrue.unstarted => exact absurd h (by simp [hplace.2.2.2.2.1])
  case isTrue.blocking => exact absurd h (by simp [hplace.alone.1])
  case isTrue.absorbing first =>
    exact ⟨hplace.submitted, hplace.resumed, hplace.isCancelled, hplace.given, hplace.copied,
      hplace.awake, hplace.marked, hplace.shielded,
      (fun _ h => absurd hdone (by rw [h]; exact Bool.false_ne_true)), hplace.inner,
      hplace.behind⟩
  case isTrue.ended outcome => exact ⟨hplace.settled, hplace.cancelled, hplace.given⟩
  case isFalse.unstarted => exact absurd h (by simp [hplace.2.2.2.2.1])
  case isFalse.blocking => exact absurd h (by simp [hplace.alone.1])
  case isFalse.absorbing first =>
    exact ⟨hplace.submitted, hplace.resumed, hplace.isCancelled, hplace.given,
      fun h => copied_source rfl h, hplace.awake, hplace.marked,
      fun h => Or.inl ((hplace.shielded h).resolve_right hdone), fun _ h => Or.inr h,
      fun h _ => h, fun h => h⟩
  case isFalse.ended outcome => exact ⟨hplace.settled, hplace.cancelled, hplace.given⟩

theorem ManagedInv.runInnerDone (hs : ManagedInv asyncio s) (h : s.innerDone = true) :
    ManagedInv asyncio s.runInnerDone := by
  have hplace := hs.place
  unfold ManagedCall.runInnerDone
  unfold PlaceOk at hplace
  split
  all_goals
    rename_i hdone
    refine ⟨hs.marked, ?_⟩
    unfold PlaceOk
    cases hat : s.place
    all_goals rw [hat] at hplace
  case isTrue.unstarted => exact absurd h (by simp [hplace.2.2.2.2.2])
  case isTrue.blocking => exact absurd h (by simp [hplace.alone.2])
  case isTrue.absorbing first =>
    exact ⟨hplace.submitted, hplace.resumed, hplace.isCancelled, hplace.given, hplace.copied,
      hplace.awake, hplace.marked, hplace.shielded, hplace.posted,
      (fun _ h => absurd hdone (by rw [h]; exact Bool.false_ne_true)), fun h => by cases h⟩
  case isTrue.ended outcome => exact ⟨hplace.settled, hplace.cancelled, hplace.given⟩
  case isFalse.unstarted => exact absurd h (by simp [hplace.2.2.2.2.2])
  case isFalse.blocking => exact absurd h (by simp [hplace.alone.2])
  case isFalse.absorbing first =>
    have hsettlement := hplace.behind h
    exact ⟨hplace.submitted, hplace.resumed, hplace.isCancelled, hplace.given, hplace.copied,
      hsettlement.symm, fun _ => hsettlement, fun _ => Or.inr hsettlement, hplace.posted,
      (fun _ h => absurd hsettlement (by rw [h]; exact Bool.false_ne_true)), fun h => by cases h⟩
  case isFalse.ended outcome => exact ⟨hplace.settled, hplace.cancelled, hplace.given⟩

theorem ManagedInv.step (hs : ManagedInv asyncio s) {e : ManagedEvent ρ}
    (h : s.step asyncio e = some s') : ManagedInv asyncio s' := by
  cases e with
  | cancelTask =>
    cases h
    exact hs.cancelTask
  | resume refused =>
    obtain ⟨-, h⟩ := Option.ite_none_right_eq_some.mp h
    exact hs.resume h
  | runCheckCancel =>
    obtain ⟨-, h⟩ := Option.ite_none_right_eq_some.mp h
    cases h
    exact hs.runCheckCancel
  | runCopyBlocking =>
    obtain ⟨-, h⟩ := Option.ite_none_right_eq_some.mp h
    cases h
    exact hs.runCopyBlocking
  | runCopySettlement =>
    obtain ⟨hposted, h⟩ := Option.ite_none_right_eq_some.mp h
    cases h
    exact hs.runCopySettlement hposted
  | runInnerDone =>
    obtain ⟨hposted, h⟩ := Option.ite_none_right_eq_some.mp h
    cases h
    exact hs.runInnerDone hposted
  | startCall =>
    obtain ⟨hpending, h⟩ := Option.ite_none_right_eq_some.mp h
    cases h
    have hbusy := busy_of_isPending hpending
    exact hs.executor hbusy.1 hbusy.2 (fun h => by cases h) (fun h => by cases h)
      (fun h => by cases h) fun _ => rfl
  | returnCall outcome =>
    simp only [ManagedCall.step] at h
    split at h
    · rename_i hrunning
      cases h
      exact hs.setSource (by simp [hrunning]) (by rw [hrunning]; rfl) fun h => by cases h
    · cases h
  | withdrawCall =>
    obtain ⟨hpending, h⟩ := Option.ite_none_right_eq_some.mp h
    cases h
    have hbusy := busy_of_isPending hpending
    exact hs.setSource hbusy.1 hbusy.2 fun h => by cases h

theorem managedInv_of_reachable (hs : (managedSystem ρ asyncio).Reachable s) :
    ManagedInv asyncio s := by
  refine hs.invariant ?_ fun _ _ _ h _ hstep => h.step hstep
  rintro _ rfl
  exact managedInv_init

theorem ManagedInv.settles (hs : ManagedInv asyncio s) : s.Settles asyncio := by
  have hended : ∀ outcome, s.place = .ended outcome → s.EndedOk asyncio outcome := by
    intro outcome hat
    have hplace := hs.place
    rwa [PlaceOk, hat] at hplace
  exact ⟨fun outcome hat => (hended outcome hat).settled,
    fun outcome hat => (hended outcome hat).cancelled,
    fun outcome hat => (hended outcome hat).given⟩

/-! ## 6. The task ends -/

variable (s) in
/-- What is left to do when the call is over. -/
def remaining : Nat :=
  s.wakeup.toNat + s.checkCancel.toNat + 2 * s.copyBlocking.toNat + 2 * s.innerDone.toNat +
    4 * s.copySettlement.toNat + match s.place with
      | .blocking => 8
      | _ => 0

variable (asyncio s) in
/-- What the task waits for is over, and the loop of the task can learn of it. -/
def Over : Prop := ManagedInv asyncio s ∧ (asyncio.copyFutureState s.source).isDone = true

theorem remaining_afterBlocking (hs : s.BlockingOk asyncio) (hat : s.place = .blocking)
    (outcome : TaskEnd ρ) : (s.afterBlocking outcome).remaining < s.remaining := by
  obtain ⟨hcopy, hinner⟩ := hs.alone
  have hcount := Bool.toNat_le s.source.settled
  have hfinish : ∀ outcome, (s.finish outcome).remaining < s.remaining := by
    intro outcome
    simp [ManagedCall.finish, remaining, hat]
    omega
  cases outcome with
  | value value => exact hfinish _
  | raised error =>
    simp only [ManagedCall.afterBlocking]
    split
    · simp [ManagedCall.absorb, shield, remaining, hat, hcopy, hinner]
      omega
    · exact hfinish _

theorem remaining_afterShield {first : Raised} (hat : s.place = .absorbing first)
    (hwakeup : s.wakeup = true) (outcome : TaskEnd ρ) :
    (s.afterShield first outcome).remaining < s.remaining := by
  have hagain : (s.absorbAgain first).remaining < s.remaining := by
    unfold ManagedCall.absorbAgain
    split
    · simp [ManagedCall.finish, remaining, hat, hwakeup]
    · simp [shield, remaining, hat, hwakeup]
  cases outcome with
  | value value => exact hagain
  | raised error =>
    simp only [ManagedCall.afterShield]
    split
    · exact hagain
    · simp [ManagedCall.finish, remaining, hat, hwakeup]

theorem source_resume {refused : Option CallError} (hs : s.source ≠ .notSubmitted)
    (hinv : ManagedInv asyncio s) (h : s.resume refused = some s') : s'.source = s.source := by
  have hplace := hinv.place
  unfold ManagedCall.resume at h
  split at h
  · rename_i hat
    rw [PlaceOk, hat] at hplace
    exact absurd hplace.1 hs
  · obtain ⟨outcome, -, rfl⟩ := Option.map_eq_some_iff.mp h
    unfold ManagedCall.afterBlocking
    split
    · rfl
    · split <;> rfl
  · obtain ⟨outcome, -, rfl⟩ := Option.map_eq_some_iff.mp h
    unfold ManagedCall.afterShield ManagedCall.absorbAgain
    split
    · split <;> rfl
    · split
      · split <;> rfl
      · rfl
  · cases h

/-- A step of the loop brings the end nearer. -/
theorem Over.step (hs : s.Over asyncio) {e : ManagedEvent ρ} (hloop : e.isLoop = true)
    (h : s.step asyncio e = some s') : s'.Over asyncio ∧ s'.remaining < s.remaining := by
  obtain ⟨hinv, hover⟩ := hs
  have hsettled := settled_of_copy hover
  have hinv' := hinv.step h
  cases e with
  | cancelTask => cases hloop
  | startCall => cases hloop
  | returnCall => cases hloop
  | withdrawCall => cases hloop
  | resume refused =>
    obtain ⟨hwakeup, h⟩ := Option.ite_none_right_eq_some.mp h
    have hsubmitted : s.source ≠ .notSubmitted := by
      intro hsource
      rw [hsource] at hsettled
      cases hsettled
    refine ⟨⟨hinv', by rwa [source_resume hsubmitted hinv h]⟩, ?_⟩
    have hplace := hinv.place
    unfold ManagedCall.resume at h
    split at h
    · rename_i hat
      rw [PlaceOk, hat] at hplace
      exact absurd hplace.1 hsubmitted
    · rename_i hat
      rw [PlaceOk, hat] at hplace
      obtain ⟨outcome, -, rfl⟩ := Option.map_eq_some_iff.mp h
      exact remaining_afterBlocking hplace hat outcome
    · rename_i first hat
      obtain ⟨outcome, -, rfl⟩ := Option.map_eq_some_iff.mp h
      exact remaining_afterShield hat hwakeup outcome
    · cases h
  | runCheckCancel =>
    obtain ⟨hposted, h⟩ := Option.ite_none_right_eq_some.mp h
    cases h
    have hnot : s.source.isPending = false := by
      cases hsource : s.source with
      | pending =>
        rw [hsource] at hsettled
        cases hsettled
      | _ => rfl
    refine ⟨⟨hinv', ?_⟩, ?_⟩
    · simpa [ManagedCall.runCheckCancel, hnot] using hover
    · simp [ManagedCall.runCheckCancel, hnot, remaining, hposted]
  | runCopyBlocking =>
    obtain ⟨hposted, h⟩ := Option.ite_none_right_eq_some.mp h
    cases h
    refine ⟨⟨hinv', ?_⟩, ?_⟩
    · unfold ManagedCall.runCopyBlocking
      split <;> exact hover
    · unfold ManagedCall.runCopyBlocking
      split
      · simp [remaining, hposted]
      · simp [remaining, hposted, hover]
        omega
  | runCopySettlement =>
    obtain ⟨hposted, h⟩ := Option.ite_none_right_eq_some.mp h
    cases h
    refine ⟨⟨hinv', ?_⟩, ?_⟩
    · unfold ManagedCall.runCopySettlement
      split <;> exact hover
    · unfold ManagedCall.runCopySettlement
      split
      · simp [remaining, hposted]
      · simp [remaining, hposted, hover]
        omega
  | runInnerDone =>
    obtain ⟨hposted, h⟩ := Option.ite_none_right_eq_some.mp h
    cases h
    refine ⟨⟨hinv', ?_⟩, ?_⟩
    · unfold ManagedCall.runInnerDone
      split <;> exact hover
    · unfold ManagedCall.runInnerDone
      split
      · simp [remaining, hposted]
      · simp [remaining, hposted]
        omega

theorem outcome_of_isDone {copy : CopyState ρ} (h : copy.isDone = true) :
    ∃ outcome, copy.outcome = some outcome := by
  cases copy with
  | pending => cases h
  | done outcome => exact ⟨outcome, rfl⟩
  | cancelled => exact ⟨_, rfl⟩

theorem received_of_isDone {awaited : CopyState ρ} (h : awaited.isDone = true) :
    ∃ outcome, s.received awaited = some outcome := by
  obtain ⟨outcome, houtcome⟩ := outcome_of_isDone h
  exact ⟨_, Option.map_eq_some_iff.mpr ⟨outcome, houtcome, rfl⟩⟩

/-- Until then the loop has something to run. -/
theorem Over.enabled (hs : s.Over asyncio) :
    (∃ outcome, s.place = .ended outcome) ∨
      ∃ e : ManagedEvent ρ, e.isLoop = true ∧ (s.step asyncio e).isSome = true := by
  obtain ⟨hinv, hover⟩ := hs
  have hplace := hinv.place
  have hsettled := settled_of_copy hover
  unfold PlaceOk at hplace
  cases hat : s.place with
  | unstarted =>
    rw [hat] at hplace
    rw [hplace.1] at hsettled
    cases hsettled
  | ended outcome => exact Or.inl ⟨outcome, rfl⟩
  | blocking =>
    rw [hat] at hplace
    refine Or.inr ?_
    by_cases hdone : s.blocking.isDone = true
    · obtain ⟨outcome, houtcome⟩ := received_of_isDone (s := s) hdone
      refine ⟨.resume none, rfl, ?_⟩
      simp [ManagedCall.step, hplace.awake, hdone, ManagedCall.resume, hat, houtcome]
    · have hposted :=
        (hplace.posted hsettled (by simpa using hdone)).resolve_right (by simp [hover])
      exact ⟨.runCopyBlocking, rfl, by simp [ManagedCall.step, hposted]⟩
  | absorbing first =>
    rw [hat] at hplace
    refine Or.inr ?_
    by_cases houter : s.outer.isDone = true
    · obtain ⟨outcome, houtcome⟩ := received_of_isDone (s := s) houter
      refine ⟨.resume none, rfl, ?_⟩
      simp [ManagedCall.step, hplace.awake, houter, ManagedCall.resume, hat, houtcome]
    · by_cases hdone : s.settlement.isDone = true
      · have hposted := hplace.inner hdone (by simpa using houter)
        exact ⟨.runInnerDone, rfl, by simp [ManagedCall.step, hposted]⟩
      · have hposted :=
          (hplace.posted hsettled (by simpa using hdone)).resolve_right (by simp [hover])
        exact ⟨.runCopySettlement, rfl, by simp [ManagedCall.step, hposted]⟩

variable (asyncio s) in
/-- However the loop goes on by itself, it stops, and then the task has ended. -/
def Ends : Prop :=
  ∀ (es : List (ManagedEvent ρ)) (s' : ManagedCall ρ), (∀ e ∈ es, e.isLoop = true) →
    (managedSystem ρ asyncio).run s es = some s' →
      es.length ≤ s.remaining ∧
        ((∃ outcome, s'.place = .ended outcome) ∨
          ∃ e : ManagedEvent ρ, e.isLoop = true ∧ (s'.step asyncio e).isSome = true)

theorem Over.ends (hs : s.Over asyncio) : s.Ends asyncio := by
  intro es s' hloop hrun
  obtain ⟨hover, hlength⟩ := System.run_variant (I := fun s => s.Over asyncio) remaining
    (fun _ _ _ h (hloop : _ = true) hstep => h.step hloop hstep) hs hloop hrun
  exact ⟨by omega, hover.enabled⟩

/-- **The task of a managed call ends after its call.**  Cancelled while it waits, it ends as
    cancelled; not cancelled, it ends with what asyncio makes of the result of the call.  Once that
    is there, the loop alone brings the task to its end. -/
theorem managed_call_settles (asyncio : Asyncio) (s : ManagedCall ρ)
    (hs : (managedSystem ρ asyncio).Reachable s) :
    s.Settles asyncio ∧
      ((asyncio.copyFutureState s.source).isDone = true → s.Ends asyncio) := by
  have hinv := managedInv_of_reachable hs
  exact ⟨hinv.settles, fun hover => Over.ends ⟨hinv, hover⟩⟩

/-- Two cancellations while the call runs, which then returns; the task ends. -/
def cancelledTwice : List (ManagedEvent Nat) :=
  [.resume none, .startCall, .cancelTask, .runCheckCancel, .resume none, .cancelTask, .resume none,
    .returnCall (.value 7), .runCopySettlement, .runInnerDone, .resume none]

theorem cancelled_twice_settles :
    ∃ s : ManagedCall Nat, (managedSystem Nat ⟨false, false⟩).run {} cancelledTwice = some s ∧
      s.place = .ended (.raised .cancellation) ∧ s.Settles ⟨false, false⟩ ∧
      s.Ends ⟨false, false⟩ := by
  refine ⟨_, rfl, rfl, ?_⟩
  have hsettles := managed_call_settles ⟨false, false⟩ _
    (System.reachable_of_run (S := managedSystem Nat ⟨false, false⟩) cancelledTwice rfl rfl)
  exact ⟨hsettles.1, hsettles.2 rfl⟩

/-- A call that raises `concurrent.futures.CancelledError`: its task ends as cancelled. -/
def raisesFuturesCancelled : List (ManagedEvent Nat) :=
  [.resume none, .startCall, .returnCall (.raised ⟨0, .futuresCancelledError⟩), .runCopyBlocking,
    .resume none, .runCopySettlement, .runInnerDone, .resume none]

theorem uncancelled_task_ends_cancelled :
    ¬ ∀ s : ManagedCall Nat, (managedSystem Nat ⟨false, false⟩).Reachable s → s.Claimed := by
  intro hclaimed
  have hown := (hclaimed _ (System.reachable_of_run (S := managedSystem Nat ⟨false, false⟩)
    raisesFuturesCancelled rfl rfl)).own _ _ rfl rfl rfl
  cases hown

end ManagedCall

end AgentlyStage
