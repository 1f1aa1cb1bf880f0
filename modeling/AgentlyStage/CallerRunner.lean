import AgentlyStage.Admission
import AgentlyStage.Lib.Fifo
import Mathlib.Logic.Function.Basic

/-!
# Owner tasks on a caller loop

`Stage.go` for the caller backend, from the admission to the end of the owner task:
`_schedule_caller_runner`, its `start` callback, `StageHandle._set_owner_task` and
`cancel`, and the coroutine `retained_runner` around `body`.

The loop runs its ready queue in order.  `start` and `_cancel_tasks` come into the queue
by `call_soon_threadsafe`, the first step of a task by `create_task`.  Calls of other
threads can happen between any two steps, also between `create_task` and
`_set_owner_task` inside `start` (`starting`); callbacks of the loop cannot.

The later steps of an owner task are not queued here: when and how an awaited object
resumes the coroutine is left open, which allows more orders than the loop does.  Of
asyncio it is assumed that a task cancelled before its first step ends without running
any of its coroutine.  The drain of the callbacks is a runner and a reservation of its
own and is left out.
-/

namespace AgentlyStage

open Transition

/-! ## 1. State -/

inductive LoopCall where
  | start (h : Nat)
  | firstStep (h : Nat)
  | cancelTasks (h : Nat)
deriving DecidableEq, Repr

/-- The handle a queued call is about. -/
def LoopCall.handle : LoopCall → Nat
  | .start h | .firstStep h | .cancelTasks h => h

inductive RunnerPlace where
  | absent
  /-- Admitted by `go()`, not handed over yet. -/
  | admitted
  /-- `_schedule_caller_runner` raised. -/
  | refused
  | posted
  /-- `create_task` raised in `start`. -/
  | startFailed
  | created
  /-- In `_wait_for_admission`. -/
  | gate
  /-- In `_execute_scalar`. -/
  | scalar
  /-- The outcome is set; the `finally` clauses of `body` and of the runner are left. -/
  | unwinding
  | ended
deriving DecidableEq, Repr

inductive BodyOutcome where
  | result
  | exception
  | cancelled
deriving DecidableEq, Repr

/-- A handle and its owner task.  `taskCancelled` is a cancellation of the task that has
    not been thrown into the coroutine yet; `admissionsFinished` counts the calls of
    `_finish_admission` and `reservations` the work retained for the owner. -/
structure RunnerState where
  place : RunnerPlace := .absent
  admission : Option AdmissionRef := none
  ownerTaskSet : Bool := false
  cancelRequested : Bool := false
  taskCancelled : Bool := false
  outcome : Option BodyOutcome := none
  admissionsFinished : Nat := 0
  reservations : Nat := 0
deriving DecidableEq, Repr

structure CallerLoopState where
  permits : RootPermits
  runners : Nat → RunnerState := fun _ => {}
  handleCount : Nat := 0
  ready : List LoopCall := []
  /-- The handle whose `start` is between `create_task` and `_set_owner_task`. -/
  starting : Option Nat := none

inductive RunnerEvent where
  | go (ownedNested : Bool)
  /-- `_schedule_caller_runner`, from the caller loop itself or from elsewhere. -/
  | submit (h : Nat) (onOwnLoop : Bool)
  | refuse (h : Nat)
  /-- The loop takes the next call.  Of a `start` the flags say whether `create_task`
      raises and whether the loop's task factory cancels the new task. -/
  | loopStep (createFails factoryCancels : Bool)
  | setOwnerTask (h : Nat)
  /-- `StageHandle.cancel`; `ownedTasks` says that descendants of the body are alive. -/
  | cancel (h : Nat) (ownedTasks : Bool)
  | gateOpens (h : Nat)
  | gateCancelled (h : Nat)
  | bodyEnds (h : Nat) (outcome : BodyOutcome)
  | unwind (h : Nat)
deriving DecidableEq, Repr

namespace CallerLoopState

/-! ## 2. The functions -/

def setRunner (s : CallerLoopState) (h : Nat) (r : RunnerState) : CallerLoopState :=
  { s with runners := Function.update s.runners h r }

/-- `go()` up to the submission; a refused admission raises and leaves no handle. -/
def go (s : CallerLoopState) (ownedNested : Bool) : CallerLoopState :=
  match s.permits.admitRootLocked ownedNested with
  | .error _ => s
  | .ok (admission, permits) =>
    { s with
      permits := permits
      runners := Function.update s.runners s.handleCount { place := .admitted, admission }
      handleCount := s.handleCount + 1 }

/-- `_schedule_caller_runner`: on the caller loop itself `start` runs at once. -/
def scheduleCallerRunner (s : CallerLoopState) (h : Nat) (onOwnLoop : Bool) :
    CallerLoopState :=
  { s.setRunner h { s.runners h with
      place := .posted
      reservations := (s.runners h).reservations + 1 } with
    ready := if onOwnLoop then .start h :: s.ready else s.ready ++ [.start h] }

/-- `_finish_admission` of a handle. -/
def finishAdmission (s : CallerLoopState) (h : Nat) : CallerLoopState :=
  { s.setRunner h { s.runners h with
      admissionsFinished := (s.runners h).admissionsFinished + 1 } with
    permits := s.permits.finishAdmission (s.runners h).admission }

/-- `_schedule_caller_runner` finds the loop closed or stopped. -/
def refuse (s : CallerLoopState) (h : Nat) : CallerLoopState :=
  (s.setRunner h { s.runners h with place := .refused }).finishAdmission h

/-- `_set_body_result`, `_set_body_exception`, `_set_body_cancelled`: the first outcome
    stays. -/
def setOutcome (r : RunnerState) (outcome : BodyOutcome) : RunnerState :=
  { r with outcome := some (r.outcome.getD outcome) }

/-- `start`: the owner task is created, or the submission fails after all. -/
def start (s : CallerLoopState) (h : Nat) (createFails factoryCancels : Bool) :
    CallerLoopState :=
  if createFails then
    (s.setRunner h { setOutcome (s.runners h) .exception with
      place := .startFailed
      reservations := (s.runners h).reservations - 1 }).finishAdmission h
  else
    { s.setRunner h { s.runners h with
        place := .created
        taskCancelled := factoryCancels } with
      ready := s.ready ++ [.firstStep h]
      starting := some h }

/-- The first step of the owner task: a cancelled task ends before its coroutine runs. -/
def firstStep (s : CallerLoopState) (h : Nat) : CallerLoopState :=
  if (s.runners h).taskCancelled then s.setRunner h { s.runners h with place := .ended }
  else s.setRunner h { s.runners h with place := .gate }

/-- `StageHandle._cancel_tasks`. -/
def cancelTasks (s : CallerLoopState) (h : Nat) : CallerLoopState :=
  if (s.runners h).place = .ended then s
  else s.setRunner h { s.runners h with taskCancelled := true }

def loopStep (s : CallerLoopState) (createFails factoryCancels : Bool) :
    Option CallerLoopState :=
  match s.ready with
  | [] => none
  | .start h :: rest => some ({ s with ready := rest }.start h createFails factoryCancels)
  | .firstStep h :: rest => some ({ s with ready := rest }.firstStep h)
  | .cancelTasks h :: rest => some ({ s with ready := rest }.cancelTasks h)

/-- `StageHandle._set_owner_task`. -/
def setOwnerTask (s : CallerLoopState) (h : Nat) : CallerLoopState :=
  { s.setRunner h { s.runners h with
      ownerTaskSet := true
      taskCancelled := (s.runners h).taskCancelled || (s.runners h).cancelRequested } with
    starting := none }

/-- `StageHandle.cancel`. -/
def cancel (s : CallerLoopState) (h : Nat) (ownedTasks : Bool) : CallerLoopState :=
  if (s.runners h).outcome.isSome ∧ ¬ ownedTasks then s
  else
    { s.setRunner h { s.runners h with cancelRequested := true } with
      ready := if (s.runners h).ownerTaskSet then s.ready ++ [.cancelTasks h] else s.ready }

/-- The `except` and `else` clauses of `body`. -/
def endBody (s : CallerLoopState) (h : Nat) (outcome : BodyOutcome) : CallerLoopState :=
  s.setRunner h { setOutcome (s.runners h) outcome with
    place := .unwinding, taskCancelled := false }

/-- The `finally` clauses of `body` and of `retained_runner`. -/
def unwind (s : CallerLoopState) (h : Nat) : CallerLoopState :=
  (s.setRunner h { s.runners h with
    place := .ended
    reservations := (s.runners h).reservations - 1 }).finishAdmission h

def when (condition : Prop) [Decidable condition] (s : CallerLoopState) :
    Option CallerLoopState :=
  if condition then some s else none

/-- No callback of the loop is in progress. -/
def loopFree (s : CallerLoopState) : Bool := s.starting.isNone

def step (s : CallerLoopState) : RunnerEvent → Option CallerLoopState
  | .go ownedNested => some (s.go ownedNested)
  | .submit h onOwnLoop =>
    when ((s.runners h).place = .admitted ∧ (onOwnLoop → s.loopFree))
      (s.scheduleCallerRunner h onOwnLoop)
  | .refuse h => when ((s.runners h).place = .admitted) (s.refuse h)
  | .loopStep createFails factoryCancels =>
    if s.loopFree then s.loopStep createFails factoryCancels else none
  | .setOwnerTask h => when (s.starting = some h) (s.setOwnerTask h)
  | .cancel h ownedTasks => when (h < s.handleCount) (s.cancel h ownedTasks)
  | .gateOpens h =>
    when (s.loopFree ∧ (s.runners h).place = .gate ∧
      s.permits.gateOpen (s.runners h).admission)
      (s.setRunner h { s.runners h with place := .scalar })
  | .gateCancelled h =>
    when (s.loopFree ∧ (s.runners h).place = .gate ∧ (s.runners h).taskCancelled)
      (s.endBody h .cancelled)
  | .bodyEnds h outcome =>
    when (s.loopFree ∧ (s.runners h).place = .scalar) (s.endBody h outcome)
  | .unwind h => when (s.loopFree ∧ (s.runners h).place = .unwinding) (s.unwind h)

end CallerLoopState

/-- All interleavings of the handles of one Stage on one caller loop. -/
def callerSystem (maxConcurrency maxPending : Option Nat) :
    System CallerLoopState RunnerEvent where
  Init s := s = { permits := { maxConcurrency, maxPending } }
  step := CallerLoopState.step

end AgentlyStage
