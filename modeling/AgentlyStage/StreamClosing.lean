import AgentlyStage.StreamStopping
import AgentlyStage.Lib.Measure

/-!
# Closing a stream

`StageStream.close` and `async_close`, called any number of times from any threads.  The first
call asks the source to stop.  Every call starts the stream when nobody has, the first one then
cancels its handle, and all wait until the handle has settled.

The root runs in a task of its owner loop.  On a caller loop a handle that has been cancelled
before the task is created has it cancelled before its first step; on the carrier the task
factory does so when the body that started the stream has been cancelled.  Nothing of the root
runs then.  A sync call on the thread of the owner loop keeps that loop from running.
Once that loop is closed nothing runs on it any more, the executor call of a sync consumer apart.
-/

namespace AgentlyStage

open Transition

/-! ## 1. State -/

/-- How a call ends. -/
inductive StreamCloseResult where
  /-- `wait_settled` returns, or raises what has failed in the settlement. -/
  | settled (failed : Bool)
  | timedOut
  /-- `_ensure_not_owner_loop_sync_wait` raises. -/
  | refused
  /-- `_start` raises. -/
  | startRaised
  /-- `cancel` finds the owner loop closed. -/
  | cancelRaised
  /-- The task that awaits `async_close` is cancelled. -/
  | abandoned
deriving DecidableEq, Repr

inductive StreamClosePhase where
  | starting
  | cancelling
  | waiting
  | over (result : StreamCloseResult)
deriving DecidableEq, Repr

/-- A call of `close` or `async_close` past its critical section. -/
structure StreamCloseCall where
  isAsync : Bool
  hasTimeout : Bool
  /-- The call is made on the thread of the loop that runs the root. -/
  onOwnerLoop : Bool
  firstRequest : Bool
  phase : StreamClosePhase := .starting
deriving DecidableEq, Repr

namespace StreamCloseCall

variable (call : StreamCloseCall)

def isOver : Bool :=
  match call.phase with
  | .over _ => true
  | _ => false

/-- A sync call keeps the owner loop busy. -/
def blocks : Bool := !call.isAsync && call.onOwnerLoop && !call.isOver

/-- The first call has called `cancel`. -/
def hasCancelled : Bool :=
  call.firstRequest &&
    match call.phase with
    | .starting | .cancelling | .over .startRaised => false
    | _ => true

end StreamCloseCall

structure ClosingStream (α : Type) where
  stream : StreamState α
  /-- `_handle is not None`. -/
  started : Bool := false
  closed : Bool := false
  /-- The task of the root has been created. -/
  created : Bool := false
  /-- It was cancelled before its first step. -/
  lost : Bool := false
  /-- `_cancel_requested` of the handle, and of the handle in whose body the stream started. -/
  cancelRequested : Bool := false
  submitterCancelled : Bool := false
  /-- The loop of the root has been closed, with what was pending on it. -/
  loopClosed : Bool := false
  settled : Bool := false
  calls : List StreamCloseCall := []
  /-- History: the calls of `source_stop` and of `cancel(timeout=0)`. -/
  sourceStops : Nat := 0
  cancels : Nat := 0
deriving DecidableEq, Repr

inductive ClosingStreamEvent (α : Type) where
  /-- A reader starts the stream. -/
  | ensureStarted (onOwnerLoop : Bool)
  /-- The critical section of `close`. -/
  | close (isAsync hasTimeout onOwnerLoop : Bool)
  | start (i : Nat)
  | startRaises (i : Nat)
  | cancel (i : Nat)
  | cancelRaises (i : Nat)
  | wait (i : Nat) (failed : Bool)
  | refuse (i : Nat)
  | timeout (i : Nat)
  | abandon (i : Nat)
  /-- Somebody else cancels the handle, or the one of the submitting body. -/
  | requestCancel
  | cancelSubmitter
  | createTask
  | stream (event : StreamEvent α)
  | closeLoop
  /-- What the handle retains has ended. -/
  | settle
deriving DecidableEq, Repr

namespace ClosingStream

variable {α : Type} (s : ClosingStream α)

/-! ## 2. Steps -/

/-- The root task is cancelled as soon as it is created. -/
def rootCancelled : Bool :=
  if s.stream.onCarrier then s.submitterCancelled else s.cancelRequested

/-- `_owner_loop is not None`. -/
def ownerKnown : Bool :=
  if s.stream.onCarrier then decide (s.stream.root ≠ .posted) else s.created

def blocked : Bool := s.calls.any StreamCloseCall.blocks

/-- `_start`: on the thread of a caller loop the task is created at once. -/
def begin (onOwnerLoop : Bool) : ClosingStream α :=
  { s with started := true, created := onOwnerLoop && !s.stream.onCarrier }

/-- `_ensure_started`. -/
def ensureStarted (onOwnerLoop : Bool) : ClosingStream α :=
  if s.started then s else s.begin onOwnerLoop

def setPhase (i : Nat) (call : StreamCloseCall) (phase : StreamClosePhase) : ClosingStream α :=
  { s with calls := s.calls.set i { call with phase := phase } }

/-- `StageHandle.cancel` past its early return. -/
def requestCancel : ClosingStream α :=
  if s.stream.root = .over then s else { s with cancelRequested := true }

/-- The `with` block of `close`. -/
def close (isAsync hasTimeout onOwnerLoop : Bool) : ClosingStream α :=
  { s with
    closed := true
    stream := if s.closed then s.stream else { s.stream with sourceStop := true }
    sourceStops := if s.closed then s.sourceStops else s.sourceStops + 1
    calls := s.calls ++ [{ isAsync, hasTimeout, onOwnerLoop, firstRequest := !s.closed }] }

/-- The steps of one call. -/
def callStep (i : Nat) (call : StreamCloseCall) :
    ClosingStreamEvent α → Option (ClosingStream α)
  | .start _ =>
    if call.phase = .starting then
      some ((s.ensureStarted call.onOwnerLoop).setPhase i call
        (if call.firstRequest then .cancelling else .waiting))
    else none
  | .startRaises _ =>
    if call.phase = .starting ∧ s.started = false then
      some (s.setPhase i call (.over .startRaised))
    else none
  | .cancel _ =>
    if call.phase = .cancelling ∧
        (s.loopClosed = false ∨ s.ownerKnown = false ∨ s.stream.root = .over) then
      some { s.requestCancel.setPhase i call .waiting with cancels := s.cancels + 1 }
    else none
  | .cancelRaises _ =>
    -- a body that is over may have tasks left to cancel
    if call.phase = .cancelling ∧ s.loopClosed = true ∧ s.ownerKnown = true then
      some { s.requestCancel.setPhase i call (.over .cancelRaised) with cancels := s.cancels + 1 }
    else none
  | .wait _ failed =>
    if call.phase = .waiting ∧ s.settled = true then
      some (s.setPhase i call (.over (.settled failed)))
    else none
  | .refuse _ =>
    if call.phase = .waiting ∧ s.settled = false ∧ call.isAsync = false ∧
        call.onOwnerLoop = true ∧ s.ownerKnown = true then
      some (s.setPhase i call (.over .refused))
    else none
  | .timeout _ =>
    if call.phase = .waiting ∧ call.hasTimeout = true then
      some (s.setPhase i call (.over .timedOut))
    else none
  | .abandon _ =>
    if call.phase = .waiting ∧ call.isAsync = true then
      some (s.setPhase i call (.over .abandoned))
    else none
  | _ => none

/-- A call on a loop that has been closed goes nowhere. -/
def callRuns (i : Nat) (call : StreamCloseCall) (e : ClosingStreamEvent α) :
    Option (ClosingStream α) :=
  if s.loopClosed && call.onOwnerLoop then none else s.callStep i call e

/-- A sync consumer runs in the executor, everything else on the owner loop. -/
def canRun (event : StreamEvent α) : Bool :=
  (!s.blocked && !s.loopClosed) || (decide (s.stream.kind = .sync) && event.consumes)

/-- The task of the root is there to begin, or to be created; `source_stop` is set by `close`
    alone. -/
def mayBegin : StreamEvent α → Bool
  | .stop => false
  | .start => s.created && !s.lost
  | .startFails _ => s.started && !s.created && !s.stream.onCarrier
  | _ => true

/-- The steps of the root and its consumer. -/
def streamStep (event : StreamEvent α) : Option (ClosingStream α) :=
  if s.mayBegin event && s.canRun event then
    (s.stream.step event).map fun stream => { s with stream := stream }
  else none

def step (e : ClosingStreamEvent α) : Option (ClosingStream α) :=
  match e with
  | .ensureStarted onOwnerLoop => some (s.ensureStarted onOwnerLoop)
  | .close isAsync hasTimeout onOwnerLoop =>
    if s.loopClosed && onOwnerLoop then none else some (s.close isAsync hasTimeout onOwnerLoop)
  | .start i | .startRaises i | .cancel i | .cancelRaises i | .wait i _ | .refuse i | .timeout i
  | .abandon i =>
    (s.calls[i]?).bind fun call => s.callRuns i call e
  | .requestCancel => if s.started then some s.requestCancel else none
  | .cancelSubmitter => some { s with submitterCancelled := true }
  | .createTask =>
    if s.started ∧ s.created = false ∧ s.stream.root = .posted ∧ s.blocked = false ∧
        s.loopClosed = false then
      some { s with created := true, lost := s.rootCancelled }
    else none
  | .stream event => s.streamStep event
  | .closeLoop =>
    -- not while it runs a call
    if s.started ∧ s.loopClosed = false ∧ s.blocked = false then some { s with loopClosed := true }
    else none
  | .settle =>
    if s.stream.root = .over ∧ s.settled = false ∧ s.loopClosed = false then
      some { s with settled := true }
    else none

end ClosingStream

/-- All interleavings of the closing of one stream. -/
def closingStreamSystem (α : Type) (kind : SourceKind) (onCarrier : Bool)
    (timeout : Option Int) : System (ClosingStream α) (ClosingStreamEvent α) where
  Init s := s = { stream := {
    kind := kind
    onCarrier := onCarrier
    tunnel := ⟨[], 0, 0, false, none, timeout, none⟩ } }
  step := ClosingStream.step

/-! ## 3. The root -/

/-- The steps of a root, its consumer apart. -/
def StreamRootPhase.stepsLeft : StreamRootPhase → Nat
  | .posted => 5
  | .admission => 4
  | .executing => 3
  | .awaiting => 2
  | .absorbing _ => 1
  | .over => 0

/-- The events of a root that has not begun, and of those who stop it. -/
def StreamEvent.beginsRoot {α : Type} : StreamEvent α → Bool
  | .start | .startFails _ | .stop => true
  | _ => false

namespace StreamState

variable {α : Type} {s s' : StreamState α}

/-- The root has come to its end with an outcome, and waits only for a consumer that has been
    called. -/
structure RootInv (s : StreamState α) : Prop where
  outcome : s.root = .over → s.outcome.isSome = true
  executing : s.root = .executing → s.kind = .async → s.consumer ≠ .pending
  awaiting : s.root = .awaiting → s.consumer ≠ .pending
  absorbing : ∀ error, s.root = .absorbing error → s.consumer ≠ .pending
  fetching : s.consumer = .fetching → s.kind = .sync

theorem RootInv.finish (hr : RootInv s) (outcome : StreamOutcome α) :
    RootInv (s.finish outcome) where
  outcome _ := rfl
  executing h := by cases h
  awaiting h := by cases h
  absorbing _ h := by cases h
  fetching := hr.fetching

/-- A step of the consumer, to a phase in which it fetches only if it is a sync one. -/
theorem RootInv.consume (hr : RootInv s) {tunnel : Tunnel α SourceError}
    {consumer : ConsumerPhase α} (hpending : consumer ≠ .pending)
    (hfetching : consumer = .fetching → s.kind = .sync) :
    RootInv { s with tunnel := tunnel, consumer := consumer } where
  outcome := hr.outcome
  executing _ _ := hpending
  awaiting _ := hpending
  absorbing _ _ := hpending
  fetching := hfetching

/-- What a step does to the root. -/
structure RootStep (s : StreamState α) (e : StreamEvent α) (s' : StreamState α) : Prop where
  inv : RootInv s'
  frame : s'.kind = s.kind ∧ s'.onCarrier = s.onCarrier ∧
    (e ≠ .stop → s'.sourceStop = s.sourceStop)
  kept : e.consumes = true → s'.root = s.root
  decreases : e.consumes = false → e ≠ .stop → s'.root.stepsLeft < s.root.stepsLeft

/-- A step of the consumer. -/
theorem RootInv.rootStep_consumer (hr : RootInv s) {e : StreamEvent α}
    {tunnel : Tunnel α SourceError} {consumer : ConsumerPhase α} (hpending : consumer ≠ .pending)
    (hfetching : consumer = .fetching → s.kind = .sync) (hconsumes : e.consumes = true) :
    RootStep s e { s with tunnel := tunnel, consumer := consumer } where
  inv := hr.consume hpending hfetching
  frame := ⟨rfl, rfl, fun _ => rfl⟩
  kept _ := rfl
  decreases h := absurd (h.symm.trans hconsumes) Bool.false_ne_true

theorem rootStep_of_root {e : StreamEvent α} (hinv : RootInv s')
    (hframe : s'.kind = s.kind ∧ s'.onCarrier = s.onCarrier ∧ s'.sourceStop = s.sourceStop)
    (hconsumes : e.consumes = false) (hless : s'.root.stepsLeft < s.root.stepsLeft) :
    RootStep s e s' :=
  ⟨hinv, ⟨hframe.1, hframe.2.1, fun _ => hframe.2.2⟩,
    fun h => absurd (hconsumes.symm.trans h) Bool.false_ne_true, fun _ _ => hless⟩

theorem rootStep_finish {e : StreamEvent α} (hr : RootInv s) (hroot : s.root ≠ .over)
    (hconsumes : e.consumes = false) (outcome : StreamOutcome α) :
    RootStep s e (s.finish outcome) := by
  refine rootStep_of_root (hr.finish outcome) ⟨rfl, rfl, rfl⟩ hconsumes ?_
  change 0 < s.root.stepsLeft
  cases h : s.root with
  | posted | admission | executing | awaiting | absorbing _ => exact Nat.le_of_ble_eq_true rfl
  | _ => exact absurd h hroot

theorem rootStep_put (hr : RootInv s) {e : StreamEvent α} {data : α} (hconsumes : e.consumes = true)
    (hput : s.put data = some s') : RootStep s e s' := by
  unfold StreamState.put at hput
  split at hput
  · cases hput
    exact hr.rootStep_consumer (by simp) (by simp) hconsumes
  · cases hput

/-- **What a step does to the root.** -/
theorem RootInv.step (hr : RootInv s) {e : StreamEvent α} (hstep : s.step e = some s') :
    RootStep s e s' := by
  cases e with
  | start =>
    simp only [StreamState.step] at hstep
    split at hstep
    · rename_i hroot
      cases hstep
      refine rootStep_of_root ⟨by simp, by simp, by simp, by simp, hr.fetching⟩ ⟨rfl, rfl, rfl⟩
        rfl ?_
      rw [hroot]
      exact Nat.le_of_ble_eq_true rfl
    · cases hstep
  | startFails error =>
    simp only [StreamState.step] at hstep
    split at hstep
    · rename_i hroot
      cases hstep
      exact rootStep_finish hr (by simp [hroot]) rfl _
    · cases hstep
  | grantPermit =>
    simp only [StreamState.step] at hstep
    split at hstep
    · rename_i hroot
      cases hstep
      refine rootStep_of_root ⟨by simp, fun _ hkind => ?_, by simp, by simp, fun h => ?_⟩
        ⟨rfl, rfl, rfl⟩ rfl ?_
      · rw [if_pos hkind]
        simp
      · dsimp only at h
        split at h
        · cases h
        · exact hr.fetching h
      · rw [hroot]
        exact Nat.le_of_ble_eq_true rfl
    · cases hstep
  | cancelAdmission error =>
    simp only [StreamState.step] at hstep
    split at hstep
    · rename_i hroot
      cases hstep
      exact rootStep_finish hr (by simp [hroot.1]) rfl _
    · cases hstep
  | accept =>
    simp only [StreamState.step] at hstep
    split at hstep
    · rename_i hroot
      cases hstep
      refine rootStep_of_root ⟨by simp, by simp, by simp, by simp, by simp⟩ ⟨rfl, rfl, rfl⟩
        rfl ?_
      rw [hroot.2]
      exact Nat.le_of_ble_eq_true rfl
    · cases hstep
  | refuse error =>
    simp only [StreamState.step] at hstep
    split at hstep
    · rename_i hroot
      cases hstep
      exact rootStep_finish hr (by simp [hroot.2]) rfl _
    · cases hstep
  | deliver =>
    simp only [StreamState.step, StreamState.deliver] at hstep
    split at hstep
    · rename_i hroot
      split at hstep <;>
      · cases hstep
        exact rootStep_finish hr (by simp [hroot]) rfl _
    · rename_i hroot
      split at hstep <;>
      · cases hstep
        exact rootStep_finish hr (by simp [hroot]) rfl _
    · rename_i hroot
      split at hstep <;>
      · cases hstep
        exact rootStep_finish hr (by simp [hroot]) rfl _
    · cases hstep
  | cancel error =>
    simp only [StreamState.step] at hstep
    split at hstep
    · split at hstep
      · rename_i hroot
        cases hstep
        refine rootStep_of_root
          ⟨by simp, by simp, by simp, fun _ _ => hr.awaiting hroot, hr.fetching⟩
          ⟨rfl, rfl, rfl⟩ rfl ?_
        rw [hroot]
        exact Nat.le_of_ble_eq_true rfl
      · rename_i hroot
        cases hstep
        exact rootStep_finish hr (by simp [hroot]) rfl _
      · cases hstep
    · cases hstep
  | stop =>
    cases hstep
    exact ⟨⟨hr.outcome, hr.executing, hr.awaiting, hr.absorbing, hr.fetching⟩,
      ⟨rfl, rfl, fun h => absurd rfl h⟩, by simp, fun _ h => absurd rfl h⟩
  | createSource | createSourceFails error =>
    simp only [StreamState.step] at hstep
    split at hstep
    · cases hstep
      exact hr.rootStep_consumer (by simp) (by simp) rfl
    · cases hstep
  | checkStop =>
    simp only [StreamState.step, StreamState.checkStop] at hstep
    split at hstep
    · split at hstep
      · cases hstep
        exact hr.rootStep_consumer (by simp) (by simp) rfl
      · cases hstep
        exact hr.rootStep_consumer (by simp) (by simp) rfl
    · cases hstep
  | nextItem =>
    simp only [StreamState.step, StreamState.nextItem] at hstep
    split at hstep
    · rename_i hkind hconsumer
      cases hstep
      refine hr.rootStep_consumer ?_ (fun _ => hkind) rfl
      split
      · simp
      · simp
    · cases hstep
  | checkItem data =>
    simp only [StreamState.step, StreamState.checkItem] at hstep
    split at hstep
    · cases hstep
      refine hr.rootStep_consumer ?_ (fun h => ?_) rfl
      · split
        · simp
        · simp
      · split at h <;> cases h
    · cases hstep
  | item data | publish =>
    simp only [StreamState.step, StreamState.item, StreamState.publish] at hstep
    split at hstep
    · exact rootStep_put hr rfl hstep
    · cases hstep
  | exhausted =>
    simp only [StreamState.step, StreamState.exhausted] at hstep
    split at hstep
    · cases hstep
      exact hr.rootStep_consumer (by simp) (by simp) rfl
    · cases hstep
      exact hr.rootStep_consumer (by simp) (by simp) rfl
    · cases hstep
  | sourceRaises error =>
    simp only [StreamState.step, StreamState.sourceRaises] at hstep
    split at hstep
    · cases hstep
      exact hr.rootStep_consumer (by simp) (by simp) rfl
    · cases hstep
      exact hr.rootStep_consumer (by simp) (by simp) rfl
    · cases hstep
      exact hr.rootStep_consumer (by simp) (by simp) rfl
    · cases hstep
  | closeSource =>
    simp only [StreamState.step, StreamState.closeSource] at hstep
    split at hstep
    · cases hstep
      exact hr.rootStep_consumer (by simp) (by simp) rfl
    · cases hstep
      exact hr.rootStep_consumer (by simp) (by simp) rfl
    · cases hstep
  | lookupFails error | closeFails error =>
    simp only [StreamState.step, StreamState.lookupFails, StreamState.closeFails] at hstep
    split at hstep
    · cases hstep
      exact hr.rootStep_consumer (by simp) (by simp) rfl
    · cases hstep

/-- A consumer that has been called goes on to its end. -/
theorem RootInv.consumer_goesOn (hr : RootInv s) (hi : StreamInv s)
    (hpending : s.consumer ≠ .pending) (hover : ∀ run, s.consumer ≠ .over run) :
    ∃ e : StreamEvent α, e.beginsRoot = false ∧ (s.step e).isSome = true := by
  cases hconsumer : s.consumer with
  | pending => exact absurd hconsumer hpending
  | queued => exact ⟨.createSource, rfl, by simp [StreamState.step, hconsumer]⟩
  | checking =>
    refine ⟨.checkStop, rfl, ?_⟩
    cases hstop : s.sourceStop <;> simp [StreamState.step, StreamState.checkStop, hconsumer, hstop]
  | iterating =>
    cases hkind : s.kind with
    | async =>
      exact ⟨.exhausted, rfl, by simp [StreamState.step, StreamState.exhausted, hkind, hconsumer]⟩
    | sync =>
      exact ⟨.nextItem, rfl, by simp [StreamState.step, StreamState.nextItem, hkind, hconsumer]⟩
  | fetching =>
    have hkind := hr.fetching hconsumer
    exact ⟨.exhausted, rfl, by simp [StreamState.step, StreamState.exhausted, hkind, hconsumer]⟩
  | publishing data =>
    -- nobody else ends the tunnel
    obtain ⟨hclosed, hfailure⟩ := hi.unset (by rw [hconsumer]; rfl)
    obtain ⟨tunnel, hput⟩ := Tunnel.put_of_open (t := s.tunnel)
      (by rw [Tunnel.terminal, hclosed, hfailure]; rfl) data
    exact ⟨.publish, rfl, by
      simp [StreamState.step, StreamState.publish, StreamState.put, hconsumer, hput]⟩
  | closing loopEnd =>
    refine ⟨.closeSource, rfl, ?_⟩
    cases loopEnd <;> simp [StreamState.step, StreamState.closeSource, hconsumer]
  | _ => exact absurd hconsumer (hover _)

/-- What the consumer has come to is delivered. -/
theorem deliver_isSome {run : ConsumerRun} (hconsumer : s.consumer = .over run)
    (hroot : s.root = .executing ∨ s.root = .awaiting ∨ ∃ error, s.root = .absorbing error) :
    (s.step .deliver).isSome = true := by
  rcases hroot with hroot | hroot | ⟨error, hroot⟩ <;>
    cases hraises : run.raises <;>
    simp [StreamState.step, StreamState.deliver, hconsumer, hroot, hraises]

/-- A root that has begun goes on to its end. -/
theorem RootInv.goesOn (hr : RootInv s) (hi : StreamInv s) (hposted : s.root ≠ .posted)
    (hover : s.root ≠ .over) :
    ∃ e : StreamEvent α, e.beginsRoot = false ∧ (s.step e).isSome = true := by
  have hwaits : s.consumer ≠ .pending →
      (s.root = .executing ∨ s.root = .awaiting ∨ ∃ error, s.root = .absorbing error) →
      ∃ e : StreamEvent α, e.beginsRoot = false ∧ (s.step e).isSome = true := by
    intro hpending hroot
    by_cases hended : ∃ run, s.consumer = .over run
    · obtain ⟨run, hconsumer⟩ := hended
      exact ⟨.deliver, rfl, deliver_isSome hconsumer hroot⟩
    · exact hr.consumer_goesOn hi hpending fun run h => hended ⟨run, h⟩
  cases hroot : s.root with
  | posted => exact absurd hroot hposted
  | admission => exact ⟨.grantPermit, rfl, by simp [StreamState.step, hroot]⟩
  | executing =>
    cases hkind : s.kind with
    | sync => exact ⟨.accept, rfl, by simp [StreamState.step, hroot, hkind]⟩
    | async => exact hwaits (hr.executing hroot hkind) (Or.inl hroot)
  | awaiting => exact hwaits (hr.awaiting hroot) (Or.inr (Or.inl hroot))
  | absorbing error =>
    exact hwaits (hr.absorbing error hroot) (Or.inr (Or.inr ⟨error, hroot⟩))
  | _ => exact absurd hroot hover

end StreamState

namespace ClosingStream

variable {α : Type} {s s' : ClosingStream α} {i : Nat} {call : StreamCloseCall}

/-! ## 4. The invariant -/

structure ClosingInv (s : ClosingStream α) : Prop where
  stream : StreamState.StreamInv s.stream
  root : StreamState.RootInv s.stream
  sourceStop : s.stream.sourceStop = s.closed
  sourceStops : s.sourceStops = s.closed.toNat
  first : s.calls.countP StreamCloseCall.firstRequest = s.closed.toNat
  cancels : s.cancels = s.calls.countP StreamCloseCall.hasCancelled
  cancelling : ∀ call ∈ s.calls, call.phase = .cancelling → call.firstRequest = true
  started : ∀ call ∈ s.calls, call.phase = .cancelling ∨ call.phase = .waiting →
    s.started = true
  created : s.created = true → s.started = true
  posted : s.created = false → s.stream.root = .posted ∨ s.stream.root = .over
  fresh : s.started = false → s.stream.root = .posted
  lost : s.lost = true → s.created = true ∧ s.stream.root = .posted
  settled : s.settled = true → s.stream.root = .over
  waited : ∀ call ∈ s.calls, ∀ failed, call.phase = .over (.settled failed) → s.settled = true

/-- A call goes on to another phase. -/
theorem ClosingInv.setPhase (hi : ClosingInv s) (hget : s.calls[i]? = some call)
    (phase : StreamClosePhase)
    (hcancels : s'.cancels + call.hasCancelled.toNat =
      s.cancels + ({ call with phase := phase } : StreamCloseCall).hasCancelled.toNat)
    (hcancelling : phase = .cancelling → call.firstRequest = true)
    (hstarted : phase = .cancelling ∨ phase = .waiting → s.started = true)
    (hwaited : ∀ failed, phase = .over (.settled failed) → s.settled = true)
    (hcalls : s'.calls = s.calls.set i { call with phase := phase })
    (hstream : s'.stream = s.stream ∧ s'.closed = s.closed ∧ s'.sourceStops = s.sourceStops)
    (hkept : s'.started = s.started ∧ s'.created = s.created ∧ s'.lost = s.lost ∧
      s'.settled = s.settled) : ClosingInv s' := by
  obtain ⟨hstream, hclosed, hstops⟩ := hstream
  obtain ⟨hstarted', hcreated, hlost, hsettled⟩ := hkept
  have hmem : ∀ {p : StreamCloseCall → Prop}, (∀ c ∈ s.calls, p c) →
      p { call with phase := phase } → ∀ c ∈ s'.calls, p c := by
    intro p hold hnew c hc
    rw [hcalls] at hc
    rcases List.mem_or_eq_of_mem_set hc with hc | rfl
    · exact hold c hc
    · exact hnew
  constructor
  · rw [hstream]
    exact hi.stream
  · rw [hstream]
    exact hi.root
  · rw [hstream, hclosed]
    exact hi.sourceStop
  · rw [hstops, hclosed]
    exact hi.sourceStops
  · have hsame := countP_set_same (y := { call with phase := phase })
      (p := StreamCloseCall.firstRequest) hget rfl
    rw [hcalls, hsame, hclosed]
    exact hi.first
  · have hadd := countP_set_add (y := { call with phase := phase })
      (p := StreamCloseCall.hasCancelled) hget
    have hold := hi.cancels
    rw [hcalls]
    omega
  · exact hmem hi.cancelling hcancelling
  · rw [hstarted']
    exact hmem hi.started hstarted
  · rw [hcreated, hstarted']
    exact hi.created
  · rw [hcreated, hstream]
    exact hi.posted
  · rw [hstarted', hstream]
    exact hi.fresh
  · rw [hlost, hcreated, hstream]
    exact hi.lost
  · rw [hsettled, hstream]
    exact hi.settled
  · rw [hsettled]
    exact hmem hi.waited hwaited

theorem ClosingInv.begin (hi : ClosingInv s) (hstopped : s.started = false) (onOwnerLoop : Bool) :
    ClosingInv (s.begin onOwnerLoop) := by
  have hposted := hi.fresh hstopped
  refine ⟨hi.stream, hi.root, hi.sourceStop, hi.sourceStops, hi.first, hi.cancels, hi.cancelling,
    fun _ _ _ => rfl, fun _ => rfl, fun _ => Or.inl hposted, by simp [ClosingStream.begin], ?_,
    hi.settled, hi.waited⟩
  intro hlost
  have hcreated := hi.created (hi.lost hlost).1
  rw [hstopped] at hcreated
  cases hcreated

theorem ClosingInv.ensureStarted (hi : ClosingInv s) (onOwnerLoop : Bool) :
    ClosingInv (s.ensureStarted onOwnerLoop) ∧
      (s.ensureStarted onOwnerLoop).started = true := by
  unfold ClosingStream.ensureStarted
  split
  · rename_i hstarted
    exact ⟨hi, hstarted⟩
  · rename_i hstopped
    exact ⟨hi.begin (by simpa using hstopped) onOwnerLoop, rfl⟩

/-- The requests and the loop do not matter to the calls and the root. -/
theorem ClosingInv.flags (hi : ClosingInv s)
    (cancelRequested submitterCancelled loopClosed : Bool) : ClosingInv { s with
      cancelRequested := cancelRequested
      submitterCancelled := submitterCancelled
      loopClosed := loopClosed } :=
  ⟨hi.stream, hi.root, hi.sourceStop, hi.sourceStops, hi.first, hi.cancels, hi.cancelling,
    hi.started, hi.created, hi.posted, hi.fresh, hi.lost, hi.settled, hi.waited⟩

theorem ClosingInv.requestCancel (hi : ClosingInv s) : ClosingInv s.requestCancel := by
  unfold ClosingStream.requestCancel
  split
  · exact hi
  · exact hi.flags true s.submitterCancelled s.loopClosed

theorem requestCancel_eq : s.requestCancel.calls = s.calls ∧ s.requestCancel.stream = s.stream ∧
    s.requestCancel.cancels = s.cancels ∧ s.requestCancel.started = s.started := by
  unfold ClosingStream.requestCancel
  split <;> exact ⟨rfl, rfl, rfl, rfl⟩

theorem ClosingInv.close (hi : ClosingInv s) (isAsync hasTimeout onOwnerLoop : Bool) :
    ClosingInv (s.close isAsync hasTimeout onOwnerLoop) := by
  have hstream : (s.close isAsync hasTimeout onOwnerLoop).stream = s.stream ∨
      (s.close isAsync hasTimeout onOwnerLoop).stream = { s.stream with sourceStop := true } := by
    unfold ClosingStream.close
    dsimp only
    split
    · exact Or.inl rfl
    · exact Or.inr rfl
  have hroot : (s.close isAsync hasTimeout onOwnerLoop).stream.root = s.stream.root := by
    rcases hstream with h | h <;> rw [h]
  have hmem : ∀ {p : StreamCloseCall → Prop}, (∀ c ∈ s.calls, p c) →
      p { isAsync, hasTimeout, onOwnerLoop, firstRequest := !s.closed } →
      ∀ c ∈ (s.close isAsync hasTimeout onOwnerLoop).calls, p c := by
    intro p hold hnew c hc
    rcases List.mem_append.mp hc with hc | hc
    · exact hold c hc
    · rw [List.mem_singleton.mp hc]
      exact hnew
  constructor
  · rcases hstream with h | h
    · rw [h]
      exact hi.stream
    · rw [h]
      exact ⟨hi.stream.signal, hi.stream.history, hi.stream.pending, hi.stream.sync,
        hi.stream.outcome⟩
  · rcases hstream with h | h
    · rw [h]
      exact hi.root
    · rw [h]
      exact ⟨hi.root.outcome, hi.root.executing, hi.root.awaiting, hi.root.absorbing,
        hi.root.fetching⟩
  · have hold := hi.sourceStop
    unfold ClosingStream.close
    dsimp only
    split
    · rename_i hclosed
      rw [hold, hclosed]
    · rfl
  · have hold := hi.sourceStops
    unfold ClosingStream.close
    dsimp only
    split
    · rename_i hclosed
      rw [hold, hclosed]
    · rename_i hopen
      rw [hold, Bool.eq_false_iff.mpr hopen]
      rfl
  · have hold := hi.first
    unfold ClosingStream.close
    rw [countP_concat, hold]
    cases s.closed <;> rfl
  · have hold := hi.cancels
    unfold ClosingStream.close
    rw [countP_concat, ← hold]
    cases s.closed <;> rfl
  · exact hmem hi.cancelling (by simp)
  · refine hmem hi.started ?_
    rintro (h | h)
    · cases h
    · cases h
  · exact hi.created
  · rw [hroot]
    exact hi.posted
  · rw [hroot]
    exact hi.fresh
  · rw [hroot]
    exact hi.lost
  · rw [hroot]
    exact hi.settled
  · exact hmem hi.waited (by simp)

theorem callStep_of_bind {e : ClosingStreamEvent α}
    (h : ((s.calls[i]?).bind fun call => s.callRuns i call e) = some s') :
    ∃ call, s.calls[i]? = some call ∧ s.callStep i call e = some s' := by
  obtain ⟨call, hget, hruns⟩ := Option.bind_eq_some_iff.mp h
  unfold callRuns at hruns
  split at hruns
  · cases hruns
  · exact ⟨call, hget, hruns⟩

theorem ClosingInv.callStep (hi : ClosingInv s) (hget : s.calls[i]? = some call)
    {e : ClosingStreamEvent α} (hstep : s.callStep i call e = some s') : ClosingInv s' := by
  have hmem := List.mem_of_getElem? hget
  -- a call that waits, and one that ends
  have hends : ∀ result, call.phase = .waiting →
      (∀ failed, result = .settled failed → s.settled = true) → result ≠ .startRaised →
      ClosingInv (s.setPhase i call (.over result)) := by
    intro result hphase hsettled hraised
    refine hi.setPhase hget (.over result) ?_ (by simp) ?_ ?_ rfl ⟨rfl, rfl, rfl⟩
      ⟨rfl, rfl, rfl, rfl⟩
    · change s.cancels + _ = s.cancels + _
      cases result <;> first
        | exact absurd rfl hraised
        | simp [StreamCloseCall.hasCancelled, hphase]
    · rintro (h | h)
      · cases h
      · cases h
    · intro failed h
      exact hsettled failed (StreamClosePhase.over.inj h)
  cases e with
  | start k =>
    simp only [ClosingStream.callStep] at hstep
    split at hstep
    · rename_i hphase
      cases hstep
      obtain ⟨hstarts, hstarted⟩ := hi.ensureStarted call.onOwnerLoop
      have hget' : (s.ensureStarted call.onOwnerLoop).calls[i]? = some call := by
        unfold ClosingStream.ensureStarted
        split <;> exact hget
      refine hstarts.setPhase hget' _ ?_ ?_ (fun _ => hstarted) ?_ rfl ⟨rfl, rfl, rfl⟩
        ⟨rfl, rfl, rfl, rfl⟩
      · cases hfirst : call.firstRequest <;>
          simp [ClosingStream.setPhase, StreamCloseCall.hasCancelled, hphase, hfirst]
      · intro h
        by_contra hfirst
        rw [if_neg hfirst] at h
        cases h
      · intro failed h
        split at h <;> cases h
    · cases hstep
  | startRaises k =>
    simp only [ClosingStream.callStep] at hstep
    split at hstep
    · rename_i hphase
      cases hstep
      refine hi.setPhase hget (.over .startRaised) ?_ (by simp) ?_ ?_ rfl ⟨rfl, rfl, rfl⟩
        ⟨rfl, rfl, rfl, rfl⟩
      · simp [ClosingStream.setPhase, StreamCloseCall.hasCancelled, hphase.1]
      · rintro (h | h)
        · cases h
        · cases h
      · intro failed h
        cases h
    · cases hstep
  | cancel k =>
    simp only [ClosingStream.callStep] at hstep
    split at hstep
    · rename_i hphase
      cases hstep
      have hfirst := hi.cancelling call hmem hphase.1
      have hstarted := hi.started call hmem (Or.inl hphase.1)
      obtain ⟨hcalls, -, hcancels, hkept⟩ := @requestCancel_eq _ s
      have hget' : s.requestCancel.calls[i]? = some call := hcalls ▸ hget
      refine hi.requestCancel.setPhase hget' .waiting ?_ (by simp)
        (fun _ => hkept.trans hstarted) ?_
        rfl ⟨rfl, rfl, rfl⟩ ⟨rfl, rfl, rfl, rfl⟩
      · simp [hcancels, StreamCloseCall.hasCancelled, hphase.1, hfirst]
      · intro failed h
        cases h
    · cases hstep
  | cancelRaises k =>
    simp only [ClosingStream.callStep] at hstep
    split at hstep
    · rename_i hphase
      cases hstep
      have hfirst := hi.cancelling call hmem hphase.1
      obtain ⟨hcalls, -, hcancels, -⟩ := @requestCancel_eq _ s
      have hget' : s.requestCancel.calls[i]? = some call := hcalls ▸ hget
      refine hi.requestCancel.setPhase hget' (.over .cancelRaised) ?_ (by simp) ?_ ?_ rfl
        ⟨rfl, rfl, rfl⟩ ⟨rfl, rfl, rfl, rfl⟩
      · simp [hcancels, StreamCloseCall.hasCancelled, hphase.1, hfirst]
      · rintro (h | h)
        · cases h
        · cases h
      · intro failed h
        cases h
    · cases hstep
  | wait k failed =>
    simp only [ClosingStream.callStep] at hstep
    split at hstep
    · rename_i hphase
      cases hstep
      exact hends _ hphase.1 (fun _ _ => hphase.2) (by simp)
    · cases hstep
  | refuse k =>
    simp only [ClosingStream.callStep] at hstep
    split at hstep
    · rename_i hphase
      cases hstep
      exact hends _ hphase.1 (by simp) (by simp)
    · cases hstep
  | timeout k | abandon k =>
    simp only [ClosingStream.callStep] at hstep
    split at hstep
    · rename_i hphase
      cases hstep
      exact hends _ hphase.1 (by simp) (by simp)
    · cases hstep
  | ensureStarted | close | requestCancel | cancelSubmitter | createTask | stream | closeLoop
  | settle => cases hstep

/-- A step of the root or its consumer. -/
theorem streamStep_eq {e : StreamEvent α} (hstep : s.streamStep e = some s') :
    ∃ stream, s.stream.step e = some stream ∧ s' = { s with stream := stream } ∧ e ≠ .stop ∧
      (e = .start → s.created = true ∧ s.lost = false) ∧
      (∀ error, e = .startFails error → s.started = true ∧ s.created = false) := by
  unfold ClosingStream.streamStep at hstep
  split at hstep
  · rename_i hready
    have hbegins := (Bool.and_eq_true_iff.mp hready).1
    obtain ⟨stream, hstream, rfl⟩ := Option.map_eq_some_iff.mp hstep
    refine ⟨stream, hstream, rfl, ?_, ?_, ?_⟩
    · rintro rfl
      cases hbegins
    · rintro rfl
      simpa [mayBegin] using hbegins
    · rintro error rfl
      simp only [mayBegin, Bool.and_eq_true, Bool.not_eq_true'] at hbegins
      exact hbegins.1
  · cases hstep

end ClosingStream

namespace StreamState

variable {α : Type} {s s' : StreamState α}

theorem RootInv.step_over (hr : RootInv s) {e : StreamEvent α} (hstep : s.step e = some s')
    (hne : e ≠ .stop) (hover : s.root = .over) : s'.root = .over := by
  have hroot := hr.step hstep
  cases hconsumes : e.consumes with
  | true => exact (hroot.kept hconsumes).trans hover
  | false =>
    have hless := hroot.decreases hconsumes hne
    rw [hover] at hless
    exact absurd hless (Nat.not_lt_zero _)

/-- A root that has not begun begins, fails to, or stays as it is. -/
theorem RootInv.step_posted (hr : RootInv s) {e : StreamEvent α} (hstep : s.step e = some s')
    (hposted : s.root = .posted) :
    e = .start ∨ (∃ error, e = .startFails error ∧ s'.root = .over) ∨ s'.root = .posted := by
  have hroot := hr.step hstep
  cases hconsumes : e.consumes with
  | true => exact Or.inr (Or.inr ((hroot.kept hconsumes).trans hposted))
  | false =>
    cases e with
    | start => exact Or.inl rfl
    | startFails error =>
      simp only [StreamState.step, hposted, if_true] at hstep
      cases hstep
      exact Or.inr (Or.inl ⟨error, rfl, rfl⟩)
    | stop =>
      cases hstep
      exact Or.inr (Or.inr hposted)
    | grantPermit | cancelAdmission | accept | refuse | deliver | cancel =>
      simp [StreamState.step, StreamState.deliver, hposted] at hstep
    | createSource | createSourceFails | checkStop | nextItem | item | checkItem | publish
    | exhausted | sourceRaises | closeSource | lookupFails | closeFails => cases hconsumes

end StreamState

namespace ClosingStream

variable {α : Type} {s s' : ClosingStream α} {i : Nat} {call : StreamCloseCall}

theorem ClosingInv.streamStep (hi : ClosingInv s) {e : StreamEvent α}
    (hstep : s.streamStep e = some s') : ClosingInv s' := by
  obtain ⟨stream, hstream, rfl, hne, hstart, hfails⟩ := streamStep_eq hstep
  have hroot := hi.root.step hstream
  -- a root that may not begin stays as it is
  have hposted : s.stream.root = .posted → (s.created = false ∨ s.lost = true) →
      stream.root = .posted ∨ (s.created = false ∧ s.started = true ∧ stream.root = .over) := by
    intro hp hcase
    rcases hi.root.step_posted hstream hp with rfl | ⟨error, rfl, hover⟩ | hsame
    · obtain ⟨hcreated, hkept⟩ := hstart rfl
      rcases hcase with h | h
      · rw [h] at hcreated
        cases hcreated
      · rw [h] at hkept
        cases hkept
    · obtain ⟨hstarted, hcreated⟩ := hfails error rfl
      exact Or.inr ⟨hcreated, hstarted, hover⟩
    · exact Or.inl hsame
  constructor
  · exact (hi.stream.step hstream).1
  · exact hroot.inv
  · exact (hroot.frame.2.2 hne).trans hi.sourceStop
  · exact hi.sourceStops
  · exact hi.first
  · exact hi.cancels
  · exact hi.cancelling
  · exact hi.started
  · exact hi.created
  · intro hcreated
    rcases hi.posted hcreated with hp | hover
    · rcases hposted hp (Or.inl hcreated) with hsame | ⟨-, -, hover⟩
      · exact Or.inl hsame
      · exact Or.inr hover
    · exact Or.inr (hi.root.step_over hstream hne hover)
  · intro hstopped
    have hcreated : s.created = false := by
      by_contra h
      have hstarted := hi.created (by simpa using h)
      exact absurd (hstopped.symm.trans hstarted) Bool.false_ne_true
    rcases hposted (hi.fresh hstopped) (Or.inl hcreated) with hsame | ⟨-, hstarted, -⟩
    · exact hsame
    · exact absurd (hstopped.symm.trans hstarted) Bool.false_ne_true
  · intro hlost
    obtain ⟨hcreated, hp⟩ := hi.lost hlost
    refine ⟨hcreated, ?_⟩
    rcases hposted hp (Or.inr hlost) with hsame | ⟨hnot, -, -⟩
    · exact hsame
    · exact absurd (hnot.symm.trans hcreated) Bool.false_ne_true
  · exact fun hsettled => hi.root.step_over hstream hne (hi.settled hsettled)
  · exact hi.waited

/-- **Step lemma of closing.** -/
theorem ClosingInv.step (hi : ClosingInv s) {e : ClosingStreamEvent α}
    (hstep : s.step e = some s') : ClosingInv s' := by
  cases e with
  | ensureStarted onOwnerLoop =>
    cases hstep
    exact (hi.ensureStarted onOwnerLoop).1
  | close isAsync hasTimeout onOwnerLoop =>
    simp only [ClosingStream.step] at hstep
    split at hstep
    · cases hstep
    · cases hstep
      exact hi.close isAsync hasTimeout onOwnerLoop
  | start i | startRaises i | cancel i | cancelRaises i | wait i _ | refuse i | timeout i
  | abandon i =>
    obtain ⟨call, hget, hcall⟩ := callStep_of_bind hstep
    exact hi.callStep hget hcall
  | requestCancel =>
    simp only [ClosingStream.step] at hstep
    split at hstep
    · cases hstep
      exact hi.requestCancel
    · cases hstep
  | cancelSubmitter =>
    cases hstep
    exact hi.flags s.cancelRequested true s.loopClosed
  | createTask =>
    simp only [ClosingStream.step] at hstep
    split at hstep
    · rename_i hguard
      cases hstep
      exact ⟨hi.stream, hi.root, hi.sourceStop, hi.sourceStops, hi.first, hi.cancels,
        hi.cancelling, hi.started, fun _ => hguard.1, by simp, hi.fresh,
        fun _ => ⟨rfl, hguard.2.2.1⟩, hi.settled, hi.waited⟩
    · cases hstep
  | stream event => exact hi.streamStep hstep
  | closeLoop =>
    simp only [ClosingStream.step] at hstep
    split at hstep
    · cases hstep
      exact hi.flags s.cancelRequested s.submitterCancelled true
    · cases hstep
  | settle =>
    simp only [ClosingStream.step] at hstep
    split at hstep
    · rename_i hguard
      cases hstep
      exact ⟨hi.stream, hi.root, hi.sourceStop, hi.sourceStops, hi.first, hi.cancels,
        hi.cancelling, hi.started, hi.created, hi.posted, hi.fresh, hi.lost, fun _ => hguard.1,
        fun _ _ _ _ => rfl⟩
    · cases hstep

theorem reachable_closingInv {kind : SourceKind} {onCarrier : Bool} {timeout : Option Int}
    (h : (closingStreamSystem α kind onCarrier timeout).Reachable s) : ClosingInv s := by
  refine h.invariant (fun u hinit => ?_) fun _ _ _ hi _ hstep => hi.step hstep
  rw [show u = _ from hinit]
  exact ⟨StreamState.streamInv_initial rfl,
    ⟨by simp, by simp, by simp, by simp, by simp⟩, rfl, rfl, rfl, rfl, by simp, by simp, by simp,
    fun _ => Or.inl rfl, fun _ => rfl, by simp, by simp, by simp⟩

/-! ## 5. The laws of closing -/

theorem ensureStarted_frame (onOwnerLoop : Bool) :
    (s.ensureStarted onOwnerLoop).stream = s.stream ∧
      (s.ensureStarted onOwnerLoop).closed = s.closed ∧
      (s.ensureStarted onOwnerLoop).lost = s.lost := by
  unfold ClosingStream.ensureStarted
  split <;> exact ⟨rfl, rfl, rfl⟩

theorem requestCancel_frame : s.requestCancel.stream = s.stream ∧
    s.requestCancel.closed = s.closed ∧ s.requestCancel.lost = s.lost := by
  unfold ClosingStream.requestCancel
  split <;> exact ⟨rfl, rfl, rfl⟩

/-- Past its critical section a call leaves the stream alone. -/
theorem callStep_frame {e : ClosingStreamEvent α} (hcall : s.callStep i call e = some s') :
    s'.stream = s.stream ∧ s'.closed = s.closed ∧ s'.lost = s.lost := by
  cases e <;> simp only [ClosingStream.callStep] at hcall <;> first
    | cases hcall
    | (split at hcall
       · cases hcall
         first | exact ⟨rfl, rfl, rfl⟩ | exact ensureStarted_frame _ | exact requestCancel_frame
       · cases hcall)

/-- A step leaves the stream as it is or is a step of it. -/
theorem stream_step {e : ClosingStreamEvent α} (hstep : s.step e = some s') :
    s'.stream = s.stream ∨ ∃ d, s.stream.step d = some s'.stream := by
  cases e with
  | ensureStarted onOwnerLoop =>
    cases hstep
    exact Or.inl (ensureStarted_frame onOwnerLoop).1
  | close isAsync hasTimeout onOwnerLoop =>
    simp only [ClosingStream.step] at hstep
    split at hstep
    · cases hstep
    · cases hstep
      unfold ClosingStream.close
      dsimp only
      split
      · exact Or.inl rfl
      · exact Or.inr ⟨.stop, rfl⟩
  | start i | startRaises i | cancel i | cancelRaises i | wait i _ | refuse i | timeout i
  | abandon i =>
    obtain ⟨call, -, hcall⟩ := callStep_of_bind hstep
    exact Or.inl (callStep_frame hcall).1
  | requestCancel =>
    simp only [ClosingStream.step] at hstep
    split at hstep
    · cases hstep
      exact Or.inl requestCancel_frame.1
    · cases hstep
  | cancelSubmitter =>
    cases hstep
    exact Or.inl rfl
  | createTask | closeLoop | settle =>
    simp only [ClosingStream.step] at hstep
    split at hstep
    · cases hstep
      exact Or.inl rfl
    · cases hstep
  | stream event =>
    obtain ⟨stream, hstream, rfl, -⟩ := streamStep_eq hstep
    exact Or.inr ⟨event, hstream⟩

/-- The closing of a stream runs the stream. -/
theorem simulates (kind : SourceKind) (onCarrier : Bool) (timeout : Option Int) :
    System.Simulation (closingStreamSystem α kind onCarrier timeout)
      (streamSystem α kind onCarrier timeout) ClosingStream.stream where
  init u hinit := by
    rw [show u = _ from hinit]
    rfl
  step u e u' _ hstep := by
    rcases stream_step hstep with hsame | ⟨d, hd⟩
    · exact ⟨[], congrArg some hsame.symm⟩
    · exact ⟨[d], System.run_cons_of_step hd []⟩

/-- A closed stream stays closed, and a root that is lost stays lost. -/
theorem ClosingInv.stays (hi : ClosingInv s) {e : ClosingStreamEvent α}
    (hstep : s.step e = some s') :
    (s.closed = true → s'.closed = true) ∧ (s.lost = true → s'.lost = true) := by
  have hsame : ∀ {u : ClosingStream α}, u.closed = s.closed ∧ u.lost = s.lost →
      (s.closed = true → u.closed = true) ∧ (s.lost = true → u.lost = true) := by
    rintro u ⟨hclosed, hlost⟩
    rw [hclosed, hlost]
    exact ⟨id, id⟩
  cases e with
  | ensureStarted onOwnerLoop =>
    cases hstep
    exact hsame (ensureStarted_frame onOwnerLoop).2
  | close isAsync hasTimeout onOwnerLoop =>
    simp only [ClosingStream.step] at hstep
    split at hstep
    · cases hstep
    · cases hstep
      exact ⟨fun _ => rfl, id⟩
  | start i | startRaises i | cancel i | cancelRaises i | wait i _ | refuse i | timeout i
  | abandon i =>
    obtain ⟨call, -, hcall⟩ := callStep_of_bind hstep
    exact hsame (callStep_frame hcall).2
  | requestCancel =>
    simp only [ClosingStream.step] at hstep
    split at hstep
    · cases hstep
      exact hsame requestCancel_frame.2
    · cases hstep
  | cancelSubmitter =>
    cases hstep
    exact ⟨id, id⟩
  | createTask =>
    simp only [ClosingStream.step] at hstep
    split at hstep
    · rename_i hguard
      cases hstep
      refine ⟨id, fun hlost => ?_⟩
      have hcreated := (hi.lost hlost).1
      rw [hguard.2.1] at hcreated
      cases hcreated
    · cases hstep
  | closeLoop | settle =>
    simp only [ClosingStream.step] at hstep
    split at hstep
    · cases hstep
      exact ⟨id, id⟩
    · cases hstep
  | stream event =>
    obtain ⟨stream, -, rfl, -⟩ := streamStep_eq hstep
    exact ⟨id, id⟩

/-- What holds of the calls at any time. -/
structure StreamCloseLaws (s : ClosingStream α) : Prop where
  /-- The source is asked to stop once, by the first call, and the handle cancelled at most once. -/
  stops : s.sourceStops = s.closed.toNat ∧ s.stream.sourceStop = s.closed
  first : s.calls.countP StreamCloseCall.firstRequest = s.closed.toNat
  cancels : s.cancels ≤ s.closed.toNat
  /-- A call that has waited finds the body completed. -/
  waited : ∀ call ∈ s.calls, ∀ failed, call.phase = .over (.settled failed) →
    s.stream.root = .over ∧ s.stream.outcome.isSome = true
  /-- A root that was cancelled before its first step runs nothing, and nobody waits to its end. -/
  lost : s.lost = true → s.stream.consumer = .pending ∧ s.stream.outcome = none ∧
    ∀ call ∈ s.calls, ∀ failed, call.phase ≠ .over (.settled failed)

theorem ClosingInv.laws (hi : ClosingInv s) : StreamCloseLaws s := by
  refine ⟨⟨hi.sourceStops, hi.sourceStop⟩, hi.first, ?_, ?_, ?_⟩
  · rw [hi.cancels, ← hi.first]
    apply List.countP_mono_left
    intro call _ hcancelled
    exact (Bool.and_eq_true_iff.mp hcancelled).1
  · intro call hmem failed hphase
    have hover := hi.settled (hi.waited call hmem failed hphase)
    exact ⟨hover, hi.root.outcome hover⟩
  · intro hlost
    have hposted := (hi.lost hlost).2
    refine ⟨hi.stream.pending (Or.inl hposted), ?_, ?_⟩
    · by_contra hsome
      have hover := hi.stream.outcome (Option.isSome_iff_ne_none.mpr hsome)
      rw [hposted] at hover
      cases hover
    · intro call hmem failed hphase
      have hover := hi.settled (hi.waited call hmem failed hphase)
      rw [hposted] at hover
      cases hover

/-- **Closing a stream**, in every interleaving: the laws of the calls; from the first call on
    at most the item of the consumer's last look at `source_stop` is published; and what is closed
    or lost stays so. -/
theorem stream_close_laws {kind : SourceKind} {onCarrier : Bool} {timeout : Option Int}
    (h : (closingStreamSystem α kind onCarrier timeout).Reachable s) :
    StreamCloseLaws s ∧ ∀ es s', (closingStreamSystem α kind onCarrier timeout).run s es =
      some s' → s.closed = true →
        (∃ more, s'.stream.tunnel.items = s.stream.tunnel.items ++ more ∧
          more.length ≤ s.stream.owed) ∧
        s'.closed = true ∧ (s.lost = true → s'.lost = true) := by
  have hi := reachable_closingInv h
  refine ⟨hi.laws, fun es s' hrun hclosed => ?_⟩
  obtain ⟨ds, hds⟩ := (simulates kind onCarrier timeout).run h hrun
  have hlaws := hi.stream.stopLaws hds
  refine ⟨hlaws.published (hi.sourceStop.trans hclosed), ?_⟩
  have hkept := System.run_invariant (I := fun u => ClosingInv u ∧ u.closed = true ∧
      (s.lost = true → u.lost = true))
    (fun u e u' hu hstep => ⟨hu.1.step hstep, (hu.1.stays hstep).1 hu.2.1,
      fun hlost => (hu.1.stays hstep).2 (hu.2.2 hlost)⟩) ⟨hi, hclosed, id⟩ hrun
  exact hkept.2

/-- A sync stream is closed twice while its source fetches the second item. -/
def closedTwiceRun : List (ClosingStreamEvent Nat) :=
  [.ensureStarted false, .createTask, .stream .start, .stream .grantPermit, .stream .accept,
    .stream .createSource, .stream .checkStop, .stream .nextItem, .stream (.item 1),
    .stream .nextItem, .close false false false, .close true true false, .start 0, .start 1]

/-- Both calls have begun, and the source is fetching. -/
def closedTwice : ClosingStream Nat where
  stream := {
    kind := .sync
    onCarrier := true
    tunnel := ⟨[1], 0, 1, false, none, none, none⟩
    sourceStop := true
    root := .awaiting
    consumer := .fetching }
  started := true
  closed := true
  created := true
  calls := [⟨false, false, false, true, .cancelling⟩, ⟨true, true, false, false, .waiting⟩]
  sourceStops := 1

/-- The handle is cancelled, the source publishes the item, and both calls end. -/
def closedTwiceRest : List (ClosingStreamEvent Nat) :=
  [.cancel 0, .stream (.cancel (.cancelled 7)), .stream (.item 2), .stream .nextItem,
    .stream .closeSource, .stream .deliver, .settle, .wait 1 false, .wait 0 false]

theorem stream_close_laws_closedTwiceRun :
    StreamCloseLaws closedTwice ∧ ∃ s',
      (closingStreamSystem Nat .sync true none).run closedTwice closedTwiceRest = some s' ∧
      ∃ more, s'.stream.tunnel.items = [1] ++ more ∧ more.length ≤ 1 := by
  have hrun : (closingStreamSystem Nat .sync true none).run
      { stream := {
          kind := .sync
          onCarrier := true
          tunnel := ⟨[], 0, 0, false, none, none, none⟩ } }
      closedTwiceRun = some closedTwice := by decide +kernel
  obtain ⟨hlaws, hruns⟩ := stream_close_laws (System.reachable_of_run closedTwiceRun rfl hrun)
  have hrest : ((closingStreamSystem Nat .sync true none).run closedTwice
      closedTwiceRest).isSome = true := by decide +kernel
  obtain ⟨s', hrest⟩ := Option.isSome_iff_exists.mp hrest
  exact ⟨hlaws, s', hrest, (hruns closedTwiceRest s' hrest rfl).1⟩

end ClosingStream

end AgentlyStage
