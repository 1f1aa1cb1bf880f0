import AgentlyStage.Lib.Transition
import Mathlib.Data.Finset.Basic

/-!
# The inventory of a Stage scope

One `Stage` with its handles, at lock granularity.  Every event is one critical
section: of the scope lock (`_scope_lock`: admission, adoption, registration, the
quiescence notification, the steps of `close`) or of one handle's state lock
(`_state_lock`: `_retain_work`, `_release_work`, the body outcome, the drain).

Two operations are not one critical section and appear as several events.

* `_release_work` leaves the handle lock and then calls `_handle_quiescent`, which
  needs the scope lock: the handle waits in `notifications` in between.
* `_register_callback` keeps the scope lock while it takes the handle lock twice:
  `registering` says which registration holds the scope lock and how far it is.  Only
  events of handle locks can happen in between.

A call is made from an *owned* context when `_active_stage.get() is self` there.  Such
a context is copied into everything the Stage runs, and nothing ends it: the events
carry the flag, and `ownedContextExists` says from when on it is possible.
-/

namespace AgentlyStage

open Transition

/-! ## 1. State -/

/-- The fields of a `StageHandle` that decide its membership in the inventory.
    `runners` is the part of `pendingWork` held by coroutines of the Stage itself (the
    body and the drains), the only ones that call the executor; `callbacks` is the length
    of the deque; `submitted` says that `go()` has handed the work over. -/
structure HandleState where
  pendingWork : Nat := 0
  runners : Nat := 0
  bodyCompleted : Bool := false
  callbacks : Nat := 0
  callbackDrainActive : Bool := false
  submitted : Bool := false
deriving DecidableEq, Repr

/-- How far `_register_callback` is while it holds the scope lock to start a drain. -/
inductive RegistrationStage where
  /-- The callback is in the deque, the drain flag is set. -/
  | admitting
  /-- `_active_handles.add(handle)` has run. -/
  | submitting
  /-- The drain's work is retained; the scope lock is still held. -/
  | leaving
deriving DecidableEq, Repr

/-- The caller that holds `_close_operation_lock`. -/
inductive ClosePhase where
  | idle
  /-- Sealed, in `wait_settled`. -/
  | waiting
  /-- `wait_settled` has returned, `_close_completed` is not set yet. -/
  | settled
deriving DecidableEq, Repr

structure ScopeState where
  handles : List HandleState := []
  activeHandles : Finset Nat := ∅
  adoptedTasks : Finset Nat := ∅
  taskCount : Nat := 0
  isSealed : Bool := false
  closeCompleted : Bool := false
  closePhase : ClosePhase := .idle
  registering : Option (Nat × RegistrationStage) := none
  notifications : List Nat := []
  /-- History: calls accepted, and executor calls made, since `_close_completed`. -/
  lateAdmissions : Nat := 0
  lateExecutorCalls : Nat := 0
deriving DecidableEq

namespace ScopeState

/-- The entry of a handle; a number that is no handle reads as one that never worked. -/
def handle (s : ScopeState) (h : Nat) : HandleState := s.handles.getD h {}

def pendingWork (s : ScopeState) (h : Nat) : Nat := (s.handle h).pendingWork

def setHandle (s : ScopeState) (h : Nat) (entry : HandleState) : ScopeState :=
  { s with handles := s.handles.set h entry }

/-- No critical section of the scope lock is in progress. -/
def scopeLockFree (s : ScopeState) : Bool := s.registering.isNone

/-- `_has_active_work_locked`. -/
def hasActiveWorkLocked (s : ScopeState) : Bool :=
  decide (s.activeHandles ≠ ∅ ∨ s.adoptedTasks ≠ ∅)

/-- The test `not self._sealed or owned_nested` of `go`, `create_task` and `adopt`,
    which is also `_callback_registration_allowed`. -/
def callAllowed (s : ScopeState) (owned : Bool) : Bool := !s.isSealed || owned

/-- Some work of this Stage has run, so its context can have been copied. -/
def ownedContextExists (s : ScopeState) : Bool :=
  s.handles.any HandleState.submitted || decide (0 < s.taskCount)

/-- History of an accepted call. -/
def noteAccepted (s : ScopeState) : ScopeState :=
  { s with lateAdmissions := s.lateAdmissions + s.closeCompleted.toNat }

/-! ## 2. The critical sections -/

/-- `go()`: `_new_handle_locked` and the initial callbacks. -/
def go (s : ScopeState) (callbacks : Nat) : ScopeState :=
  { s.noteAccepted with
    handles := s.handles ++ [{ callbacks := callbacks }]
    activeHandles := insert s.handles.length s.activeHandles }

/-- `StageHandle._retain_work`, for a body or a drain or else for a descendant. -/
def retainWork (s : ScopeState) (h : Nat) (runner : Bool) : ScopeState :=
  s.setHandle h
    { s.handle h with
      pendingWork := s.pendingWork h + 1
      runners := (s.handle h).runners + runner.toNat
      submitted := true }

/-- `StageHandle._release_work` inside the handle lock; the transition to zero is
    published later. -/
def releaseWork (s : ScopeState) (h : Nat) (runner : Bool) : ScopeState :=
  let s' := s.setHandle h
    { s.handle h with
      pendingWork := s.pendingWork h - 1
      runners := (s.handle h).runners - runner.toNat }
  if s.pendingWork h = 1 then { s' with notifications := s.notifications ++ [h] } else s'

/-- `Stage._handle_quiescent`: the handle is discarded without another look at it. -/
def handleQuiescent (s : ScopeState) (h : Nat) : ScopeState :=
  { s with
    notifications := s.notifications.erase h
    activeHandles := s.activeHandles.erase h }

/-- `_set_body_result` and its siblings, with `_activate_callback_drain_locked`. -/
def completeBody (s : ScopeState) (h : Nat) : ScopeState :=
  s.setHandle h
    { s.handle h with
      bodyCompleted := true
      callbackDrainActive := decide (0 < (s.handle h).callbacks) }

/-- `_drain_callbacks` takes a callback, or finds the deque empty and stops. -/
def drainStep (s : ScopeState) (h : Nat) : ScopeState :=
  if (s.handle h).callbacks = 0 then
    s.setHandle h { s.handle h with callbackDrainActive := false }
  else s.setHandle h { s.handle h with callbacks := (s.handle h).callbacks - 1 }

/-- `_register_callback` up to `should_start`. -/
def registerCallback (s : ScopeState) (h : Nat) : ScopeState :=
  let entry := { s.handle h with callbacks := (s.handle h).callbacks + 1 }
  if entry.bodyCompleted ∧ ¬ entry.callbackDrainActive then
    { s.noteAccepted.setHandle h { entry with callbackDrainActive := true } with
      registering := some (h, .admitting) }
  else s.noteAccepted.setHandle h entry

/-- The roll-back of `_register_callback` after `_submit_callback_drain_locked` raised:
    the callback is popped and the drain flag cleared, nothing else. -/
def rollBackRegistration (s : ScopeState) (h : Nat) : ScopeState :=
  { s.setHandle h
      { s.handle h with
        callbacks := (s.handle h).callbacks - 1
        callbackDrainActive := false } with
    registering := none }

def adopt (s : ScopeState) : ScopeState :=
  { s.noteAccepted with
    adoptedTasks := insert s.taskCount s.adoptedTasks
    taskCount := s.taskCount + 1 }

end ScopeState

/-! ## 3. Events -/

inductive ScopeEvent where
  | go (owned : Bool) (callbacks : Nat)
  /-- The submission of a new handle retains its first unit of work. -/
  | submit (h : Nat)
  /-- The submission fails after its `_retain_work` and releases it again. -/
  | submitFails (h : Nat)
  /-- The task factory retains a descendant, or the body of the handle its drain. -/
  | retain (h : Nat) (runner : Bool)
  | release (h : Nat) (runner : Bool)
  | completeBody (h : Nat)
  | drainStep (h : Nat)
  | notify (h : Nat)
  | register (owned : Bool) (h : Nat)
  | admitDrain
  | submitDrain
  | leaveRegistration
  /-- `_submit_callback_drain_locked` raises; with `released` it had retained work and
      its `_release_work` runs `_handle_quiescent` inside the lock. -/
  | registrationFails (released : Bool)
  | createTask (owned : Bool)
  | adopt (owned : Bool)
  | adoptedTaskDone (t : Nat)
  | sealScope
  | closeStart
  | closeTimeout
  | closeSettled
  | closeDone
  /-- The body or a callback of a handle submits a call to the executor. -/
  | executorCall (h : Nat)
deriving DecidableEq, Repr

namespace ScopeState

/-- A call of the public interface: it needs the scope lock, and an owned context must
    have been handed out before it can be used. -/
def callEnabled (s : ScopeState) (owned : Bool) : Bool :=
  s.scopeLockFree && (!owned || s.ownedContextExists)

/-- A refused call raises `StageClosedError` and changes nothing. -/
def call (s : ScopeState) (owned : Bool) (accepted : ScopeState) : Option ScopeState :=
  if s.callEnabled owned then some (if s.callAllowed owned then accepted else s) else none

/-- A step that is possible under a condition. -/
def when (condition : Prop) [Decidable condition] (s : ScopeState) : Option ScopeState :=
  if condition then some s else none

def step (s : ScopeState) : ScopeEvent → Option ScopeState
  | .go owned callbacks => s.call owned (s.go callbacks)
  | .submit h =>
    when (h < s.handles.length ∧ ¬ (s.handle h).submitted) (s.retainWork h true)
  | .submitFails h =>
    when (h < s.handles.length ∧ ¬ (s.handle h).submitted)
      ((s.retainWork h true).releaseWork h true)
  | .retain h runner =>
    when (h < s.handles.length ∧ (s.handle h).submitted ∧
      (runner → 0 < (s.handle h).runners)) (s.retainWork h runner)
  | .release h runner =>
    when (0 < s.pendingWork h ∧ (runner → 0 < (s.handle h).runners) ∧
      (¬ runner → (s.handle h).runners < s.pendingWork h)) (s.releaseWork h runner)
  | .completeBody h =>
    when (0 < (s.handle h).runners ∧ ¬ (s.handle h).bodyCompleted) (s.completeBody h)
  | .drainStep h =>
    when (0 < (s.handle h).runners ∧ (s.handle h).callbackDrainActive) (s.drainStep h)
  | .notify h => when (s.scopeLockFree ∧ h ∈ s.notifications) (s.handleQuiescent h)
  | .register owned h =>
    if (s.handle h).submitted then s.call owned (s.registerCallback h) else none
  | .admitDrain =>
    match s.registering with
    | some (h, .admitting) =>
      some { s with
        activeHandles := insert h s.activeHandles
        registering := some (h, .submitting) }
    | _ => none
  | .submitDrain =>
    match s.registering with
    | some (h, .submitting) => some { s.retainWork h true with registering := some (h, .leaving) }
    | _ => none
  | .leaveRegistration =>
    match s.registering with
    | some (_, .leaving) => some { s with registering := none }
    | _ => none
  | .registrationFails released =>
    match s.registering with
    | some (h, .admitting) => when (¬ released) (s.rollBackRegistration h)
    | some (h, .submitting) =>
      -- a released unit that was the last one discards the handle at once
      if released ∧ s.pendingWork h = 0 then
        some ({ s with activeHandles := s.activeHandles.erase h }.rollBackRegistration h)
      else some (s.rollBackRegistration h)
    | _ => none
  | .createTask owned => s.call owned s.adopt
  | .adopt owned => s.call owned s.adopt
  | .adoptedTaskDone t =>
    when (s.scopeLockFree ∧ t ∈ s.adoptedTasks)
      { s with adoptedTasks := s.adoptedTasks.erase t }
  | .sealScope => when s.scopeLockFree { s with isSealed := true }
  | .closeStart =>
    -- a caller that finds `_close_completed` set returns without a change
    when (s.scopeLockFree ∧ s.closePhase = .idle)
      (if s.closeCompleted then s else { s with isSealed := true, closePhase := .waiting })
  | .closeTimeout => when (s.closePhase = .waiting) { s with closePhase := .idle }
  | .closeSettled =>
    when (s.scopeLockFree ∧ s.closePhase = .waiting ∧ ¬ s.hasActiveWorkLocked)
      { s with closePhase := .settled }
  | .closeDone =>
    when (s.scopeLockFree ∧ s.closePhase = .settled)
      { s with closePhase := .idle, closeCompleted := true }
  | .executorCall h =>
    when (0 < (s.handle h).runners)
      { s with lateExecutorCalls := s.lateExecutorCalls + s.closeCompleted.toNat }

end ScopeState

/-- All interleavings of one Stage and its handles. -/
def scopeSystem : System ScopeState ScopeEvent where
  Init s := s = {}
  step := ScopeState.step

end AgentlyStage
