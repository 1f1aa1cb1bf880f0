import AgentlyStage.Errors
import AgentlyStage.Lib.Transition
import Mathlib.Data.List.Basic

/-!
# One handle

The body outcome, the callbacks with their drains, and the settlement barrier of a
`StageHandle`.  Every event is one critical section of `_state_lock`.

`_register_callback` keeps the scope lock while it starts a drain (`registering`); a waiter
samples the barrier under both locks.  The owner is the coroutine that runs the body; a
drain is a task of its own, which the owner or a late registration starts.  `_release_work`
calls `_handle_quiescent` after its critical section, which does not change the handle.

A sync callback runs in an executor.  Before Python 3.12 the future that `run_in_executor`
returns refuses a `StopIteration`: it is never done, and the await of the drain ends only when
the task of the drain is cancelled.
-/

namespace AgentlyStage

open Transition

/-! ## 1. State -/

inductive CallbackKind where
  | success
  | error
  | finally
deriving DecidableEq, Repr

/-- A `_Callback`, numbered in the order in which callbacks enter the deque. -/
structure Callback where
  kind : CallbackKind
  number : Nat
deriving DecidableEq, Repr

/-- The arguments of a callback; `_body_result` is `None` until the body has one. -/
inductive CallbackArgs (ρ ε : Type) where
  | result (value : Option ρ)
  | error (error : ε)
  | empty
deriving DecidableEq, Repr

/-- What a drain has done with a callback that it has taken from the deque. -/
inductive Disposition (ρ ε : Type) where
  | skipped
  | executing (args : CallbackArgs ρ ε)
  | executed (args : CallbackArgs ρ ε)
  /-- The executor, or the loop, has not accepted it. -/
  | refused (args : CallbackArgs ρ ε)
deriving DecidableEq, Repr

/-- How `_execute_callback` ends. -/
inductive Execution (ε : Type) where
  | returned
  | raised (error : ε)
  | refused (error : ε)
deriving DecidableEq, Repr

def Execution.error {ε : Type} : Execution ε → Option ε
  | .returned => none
  | .raised error | .refused error => some error

def Disposition.finish {ρ ε : Type} : Disposition ρ ε → Execution ε → Disposition ρ ε
  | .executing args, .refused _ => .refused args
  | .executing args, _ => .executed args
  | disposition, _ => disposition

/-- How far the submission of the body is. -/
inductive OwnerPhase where
  | created
  /-- The work is retained for the submission. -/
  | submitting
  /-- The submission has raised. -/
  | refused
  /-- `start`, or `_start_submission`, is due. -/
  | posted
  /-- `start` has no owner task; it has to release the work. -/
  | failing
  | failed
  /-- The owner task exists; the body has no outcome. -/
  | body
  /-- `_start_callback_drain_from_owner` is next. -/
  | starting
  | ending
  | released
deriving DecidableEq, Repr

/-- `_set_owner_task` has run. -/
def OwnerPhase.hasTask : OwnerPhase → Bool
  | .body | .starting | .ending | .released => true
  | _ => false

inductive DrainPhase where
  /-- `start`, or `_start_submission`, is due. -/
  | posted
  | created
  /-- Between two callbacks. -/
  | looping
  | executing (entry : Nat)
  /-- It has found the deque empty and has to release its work. -/
  | finished
  | released
deriving DecidableEq, Repr

/-- How the body ends. -/
inductive BodyEnd (ρ ε : Type) where
  | result (value : ρ)
  | exception (error : ε)
  | cancelled (error : ε)
deriving DecidableEq, Repr

/-- How far `_register_callback` is while it starts a drain. -/
inductive RegistrationPhase where
  | admitting
  /-- The drain's work is retained. -/
  | retained
  /-- The submission has released it again and raises. -/
  | failing
deriving DecidableEq, Repr

inductive DescendantPhase where
  | running
  | ended
  | released
deriving DecidableEq, Repr

/-- A call of `wait_settled` or `async_wait_settled`. -/
structure Waiter (ε : Type) where
  /-- The settlement future that the call has sampled. -/
  barrier : Nat
  /-- History: the registrations that had returned, and the retained descendants. -/
  callbacks : Nat
  descendants : Nat
  /-- The errors of the `StageSettlementError`; none for a normal return. -/
  errors : Option (List ε) := none
deriving DecidableEq, Repr

structure StageHandle (ρ ε : Type) where
  owner : OwnerPhase := .created
  ownerLoop : Option Nat := none
  bodyCompleted : Bool := false
  bodyResult : Option ρ := none
  bodyError : Option ε := none
  callbacks : List Callback := []
  callbackDrainActive : Bool := false
  pendingWork : Nat := 0
  /-- The settlement futures so far, done or not; the last one is the current one. -/
  settlementFutures : List Bool := [true]
  settlementErrors : List ε := []
  descendants : List DescendantPhase := []
  drains : List DrainPhase := []
  /-- The drains whose callback has raised `StopIteration` in the executor. -/
  stuck : List Nat := []
  registering : Option (Callback × RegistrationPhase) := none
  waiters : List (Waiter ε) := []
  /-- History: the callbacks that have entered the deque, whose registration has returned, and
      that have been taken from it. -/
  appended : Nat := 0
  returned : List Callback := []
  handled : List (Callback × Disposition ρ ε) := []
deriving DecidableEq

namespace StageHandle

variable {ρ ε : Type} (s : StageHandle ρ ε)

/-! ## 2. The critical sections -/

/-- `_retain_work`. -/
def retainWork : StageHandle ρ ε :=
  { s with
    settlementFutures :=
      if s.pendingWork = 0 then s.settlementFutures ++ [false] else s.settlementFutures
    pendingWork := s.pendingWork + 1 }

/-- `_release_work`; without a reservation it raises. -/
def releaseWork : StageHandle ρ ε :=
  if s.pendingWork = 0 then s
  else
    { s with
      pendingWork := s.pendingWork - 1
      settlementFutures :=
        if s.pendingWork = 1 then s.settlementFutures.dropLast ++ [true]
        else s.settlementFutures }

/-- `_record_settlement_error`. -/
def recordSettlementError (error : ε) : StageHandle ρ ε :=
  { s with settlementErrors := s.settlementErrors ++ [error] }

/-- `_activate_callback_drain_locked`. -/
def activateCallbackDrainLocked : StageHandle ρ ε × Bool :=
  if s.callbacks ≠ [] ∧ s.callbackDrainActive = false then
    ({ s with callbackDrainActive := true }, true)
  else (s, false)

/-- The common part of the three setters of the body outcome. -/
def setBodyOutcome (result : Option ρ) (error : Option ε) : StageHandle ρ ε × Bool :=
  if s.bodyCompleted then (s, false)
  else
    activateCallbackDrainLocked
      { s with bodyCompleted := true, bodyResult := result, bodyError := error }

/-- `_set_body_result`. -/
def setBodyResult (result : ρ) : StageHandle ρ ε × Bool := s.setBodyOutcome (some result) none

/-- `_set_body_exception`, also when the exception is ignored. -/
def setBodyException (error : ε) : StageHandle ρ ε × Bool := s.setBodyOutcome none (some error)

/-- `_set_body_cancelled`. -/
def setBodyCancelled (error : ε) : StageHandle ρ ε × Bool := s.setBodyOutcome none (some error)

def appendCallback (kind : CallbackKind) : StageHandle ρ ε :=
  { s with
    callbacks := s.callbacks ++ [⟨kind, s.appended⟩]
    appended := s.appended + 1 }

/-- `_register_initial_callback`. -/
def registerInitialCallback (kind : CallbackKind) : StageHandle ρ ε :=
  { s.appendCallback kind with returned := s.returned ++ [⟨kind, s.appended⟩] }

/-- `_register_callback` up to the start of a drain. -/
def registerCallback (kind : CallbackKind) : StageHandle ρ ε :=
  let appended := s.appendCallback kind
  match if s.bodyCompleted then appended.activateCallbackDrainLocked else (appended, false) with
  | (s', true) => { s' with registering := some (⟨kind, s.appended⟩, .admitting) }
  | (s', false) => { s' with returned := s'.returned ++ [⟨kind, s.appended⟩] }

/-- The callback of a registration that raises leaves the deque at the right end. -/
def rollBack : StageHandle ρ ε :=
  { s with callbacks := s.callbacks.dropLast, callbackDrainActive := false, registering := none }

/-- The registration returns. -/
def finishRegistration (callback : Callback) : StageHandle ρ ε :=
  { s with registering := none, returned := s.returned ++ [callback] }

/-- The arguments for the kind of a callback, if the kind matches the outcome. -/
def callbackArgs : CallbackKind → Option (CallbackArgs ρ ε)
  | .success => if s.bodyError.isNone then some (.result s.bodyResult) else none
  | .error => s.bodyError.map .error
  | .finally => some .empty

/-- `_drain_callbacks` up to the execution of a callback. -/
def drainCallbacks (i : Nat) : StageHandle ρ ε :=
  match s.callbacks with
  | [] => { s with callbackDrainActive := false, drains := s.drains.set i .finished }
  | callback :: rest =>
    match s.callbackArgs callback.kind with
    | some args =>
      { s with
        callbacks := rest
        handled := s.handled ++ [(callback, .executing args)]
        drains := s.drains.set i (.executing s.handled.length) }
    | none =>
      { s with
        callbacks := rest
        handled := s.handled ++ [(callback, .skipped)]
        drains := s.drains.set i .looping }

/-- The rest of an iteration of `_drain_callbacks`. -/
def finishCallback (i entry : Nat) (execution : Execution ε) : StageHandle ρ ε :=
  { s with
    handled := s.handled.modify entry fun taken => (taken.1, taken.2.finish execution)
    settlementErrors := s.settlementErrors ++ execution.error.toList
    drains := s.drains.set i .looping }

/-- The errors that `wait_settled` raises after the barrier. -/
def unreportedErrors [DecidableEq ε] : List ε :=
  s.settlementErrors.filter fun error => decide (some error ≠ s.bodyError)

end StageHandle

/-! ## 3. Events -/

inductive HandleEvent (ρ ε : Type) where
  | retain
  /-- The submission posts `start`, or it releases the work and raises. -/
  | submit
  | refuse
  /-- `start`, or the first step of `_run_submission`. -/
  | setOwnerTask
  | startFails (error : ε)
  | completeBody (outcome : BodyEnd ρ ε)
  /-- `_start_callback_drain_from_owner`. -/
  | startDrain
  | startDrainFails (error : Option ε)
  | releaseOwner
  | register (kind : CallbackKind)
  /-- `_submit_callback_drain_locked`: the work of the drain is retained. -/
  | retainDrain
  /-- `start` is posted; on its own loop it has run. -/
  | submitDrain (onOwnLoop : Bool)
  | submitDrainFails (error : ε)
  | refuseDrain
  | rollBack
  | createDrain (i : Nat)
  | createDrainFails (i : Nat) (error : ε)
  | drain (i : Nat)
  | finishCallback (i : Nat) (execution : Execution ε)
  /-- A sync callback raises `StopIteration`, and its future is never done. -/
  | callbackHangs (i : Nat)
  /-- The task of a drain that waits for such a future is cancelled. -/
  | cancelDrain (i : Nat) (error : ε)
  | releaseDrain (i : Nat)
  /-- `_task_factory` retains a descendant. -/
  | retainDescendant
  | endDescendant (d : Nat)
  | descendantDone (d : Nat) (error : Option ε)
  | waitSettled
  | waiterReturns (w : Nat)

/-- A step of a drain, or of the one who starts it. -/
def HandleEvent.ofDrain {ρ ε : Type} : HandleEvent ρ ε → Bool
  | .startDrain | .submitDrain _ | .rollBack | .createDrain _ | .drain _ | .finishCallback _ _ =>
    true
  | _ => false

def HandleEvent.cancelsDrain {ρ ε : Type} : HandleEvent ρ ε → Bool
  | .cancelDrain _ _ => true
  | _ => false

namespace StageHandle

variable {ρ ε : Type} [DecidableEq ε]

/-- `go` can have returned the handle. -/
def visible (s : StageHandle ρ ε) : Bool :=
  match s.owner with
  | .created | .submitting | .refused => false
  | _ => true

def when (condition : Prop) [Decidable condition] (s : StageHandle ρ ε) :
    Option (StageHandle ρ ε) :=
  if condition then some s else none

/-- One step of a handle whose work is submitted to `loop`. -/
def step (loop : Nat) (s : StageHandle ρ ε) : HandleEvent ρ ε → Option (StageHandle ρ ε)
  | .retain => when (s.owner = .created) { s.retainWork with owner := .submitting }
  | .submit => when (s.owner = .submitting) { s with owner := .posted }
  | .refuse => when (s.owner = .submitting) { s.releaseWork with owner := .refused }
  | .setOwnerTask =>
    when (s.owner = .posted) { s with owner := .body, ownerLoop := some loop }
  | .startFails error =>
    -- the answer of `_set_body_exception` is not used
    when (s.owner = .posted) { (s.setBodyException error).1 with owner := .failing }
  | .completeBody outcome =>
    let (s', start) := match outcome with
      | .result value => s.setBodyResult value
      | .exception error => s.setBodyException error
      | .cancelled error => s.setBodyCancelled error
    when (s.owner = .body) { s' with owner := if start then .starting else .ending }
  | .startDrain =>
    when (s.owner = .starting)
      { s.retainWork with owner := .ending, drains := s.drains ++ [.created] }
  | .startDrainFails error =>
    when (s.owner = .starting)
      { s with owner := .ending, settlementErrors := s.settlementErrors ++ error.toList }
  | .releaseOwner =>
    match s.owner with
    | .ending => some { s.releaseWork with owner := .released }
    | .failing => some { s.releaseWork with owner := .failed }
    | _ => none
  | .register kind =>
    when (s.visible = true ∧ s.registering = none) (s.registerCallback kind)
  | .retainDrain =>
    match s.registering with
    | some (callback, .admitting) =>
      when (s.owner.hasTask = true)
        { s.retainWork with registering := some (callback, .retained) }
    | _ => none
  | .submitDrain onOwnLoop =>
    match s.registering with
    | some (callback, .retained) =>
      some { s.finishRegistration callback with
        drains := s.drains ++ [if onOwnLoop then .created else .posted] }
    | _ => none
  | .submitDrainFails error =>
    match s.registering with
    | some (callback, .retained) =>
      some ((s.recordSettlementError error).releaseWork.finishRegistration callback)
    | _ => none
  | .refuseDrain =>
    match s.registering with
    | some (callback, .retained) =>
      some { s.releaseWork with registering := some (callback, .failing) }
    | _ => none
  | .rollBack =>
    match s.registering with
    | some (_, .admitting) | some (_, .failing) => some s.rollBack
    | _ => none
  | .createDrain i =>
    when (s.drains[i]? = some .posted) { s with drains := s.drains.set i .created }
  | .createDrainFails i error =>
    when (s.drains[i]? = some .posted)
      { (s.recordSettlementError error).releaseWork with drains := s.drains.set i .released }
  | .drain i =>
    when (s.drains[i]? = some .created ∨ s.drains[i]? = some .looping) (s.drainCallbacks i)
  | .finishCallback i execution =>
    match s.drains[i]? with
    | some (.executing entry) => when (i ∉ s.stuck) (s.finishCallback i entry execution)
    | _ => none
  | .callbackHangs i =>
    match s.drains[i]? with
    | some (.executing _) => when (i ∉ s.stuck) { s with stuck := s.stuck ++ [i] }
    | _ => none
  | .cancelDrain i error =>
    match s.drains[i]? with
    | some (.executing entry) =>
      when (i ∈ s.stuck)
        { s.finishCallback i entry (.raised error) with stuck := s.stuck.erase i }
    | _ => none
  | .releaseDrain i =>
    when (s.drains[i]? = some .finished)
      { s.releaseWork with drains := s.drains.set i .released }
  | .retainDescendant =>
    when (s.owner.hasTask = true)
      { s.retainWork with descendants := s.descendants ++ [.running] }
  | .endDescendant d =>
    when (s.descendants[d]? = some .running)
      { s with descendants := s.descendants.set d .ended }
  | .descendantDone d error =>
    when (s.descendants[d]? = some .ended)
      { s.releaseWork with
        descendants := s.descendants.set d .released
        settlementErrors := s.settlementErrors ++ error.toList }
  | .waitSettled =>
    when (s.visible = true ∧ s.registering = none)
      { s with waiters := s.waiters ++ [{
          barrier := s.settlementFutures.length - 1
          callbacks := s.returned.length
          descendants := s.descendants.length }] }
  | .waiterReturns w =>
    match s.waiters[w]? with
    | some waiter =>
      when (waiter.errors = none ∧ s.settlementFutures[waiter.barrier]? = some true)
        { s with waiters := s.waiters.set w { waiter with errors := some s.unreportedErrors } }
    | none => none

end StageHandle

/-- All interleavings of one handle with its initial callbacks. -/
def handleSystem (ρ ε : Type) [DecidableEq ε] (loop : Nat) (initial : List CallbackKind) :
    System (StageHandle ρ ε) (HandleEvent ρ ε) where
  Init s := s = initial.foldl StageHandle.registerInitialCallback {}
  step := StageHandle.step loop

end AgentlyStage
