import AgentlyStage.IdleDeadline
import AgentlyStage.LoopBarriers
import Mathlib.Data.Finset.Card
import Mathlib.Data.List.Sort

/-!
# Closing a Stage

`wait_settled`, `cancel_and_wait_settled`, `close` and their async forms, and leaving a `with`
statement, called any number of times from any threads while the Stage goes through its epochs.

A `close` holds `_close_operation_lock` from its look at `_close_completed` to its end: it seals
the Stage, waits for the settlement, shuts the private executor down and only then sets
`_close_completed`.  A guard and a timeout stop it on the way; the errors of the scope do not,
they are raised in the end.

An async form runs in a thread of its own.  The task that awaits it can be cancelled: a thread
that has not started is withdrawn, another one goes on to its end.  `__exit__` leaves the errors
of its `close` in the context of the exception of the body, and when a guard has stopped it on
a loop it starts a second `close` in a thread (`run_in_executor`, in a new context).
-/

namespace AgentlyStage

open Transition

/-! ## 1. Errors and operations -/

/-- What a barrier raises. -/
inductive ScopeError (ε : Type) where
  /-- One of the guards. -/
  | refused (error : StageError)
  /-- `TimeoutError`: the text on the unsettled work, and its origins. -/
  | timeout (unsettled : String) (origins : List String)
  /-- `StageIdleTimeoutError`. -/
  | idleTimeout (origins : List String)
  /-- `StageSettlementError`. -/
  | settlement (errors : List ε)
  /-- The `CancelledError` of the task that awaits an async form. -/
  | cancelled
deriving DecidableEq, Repr

inductive OperationKind where
  | waitSettled
  | cancelAndWaitSettled
  | close
  /-- `__exit__` or `__aexit__`, with the exception of the body. -/
  | exit (value : Option Nat)
  /-- The second `close` of an `__exit__`. -/
  | deferredClose (exit : Nat)
deriving DecidableEq, Repr

/-- The operation is a `close`, or makes one. -/
def OperationKind.closes : OperationKind → Bool
  | .waitSettled | .cancelAndWaitSettled => false
  | .close | .exit _ | .deferredClose _ => true

def OperationKind.isExit : OperationKind → Bool
  | .exit _ => true
  | _ => false

def OperationKind.barrier : OperationKind → BarrierScope.Barrier
  | .waitSettled => .waitSettled
  | .cancelAndWaitSettled => .cancelAndWaitSettled
  | .close | .exit _ | .deferredClose _ => .close

/-- How far an operation is; `terminal` is the error that `close` raises in the end. -/
inductive OperationPhase (ε : Type) where
  /-- `__exit__` is about to seal the Stage. -/
  | sealing
  /-- An async form is about to look at its caller. -/
  | asking
  /-- Its thread has not started. -/
  | queued
  | guarding
  /-- The guards of `cancel_and_wait_settled` have passed. -/
  | cancelling
  /-- The guards of `close` have passed; `_close_operation_lock` is next. -/
  | locking
  | checking
  | closing
  /-- About to look at the guards of `wait_settled`. -/
  | entering
  | waiting
  /-- About to raise the errors of the scope. -/
  | reading
  | shutting (terminal : Option (ScopeError ε))
  /-- In `shutdown(wait=True)`. -/
  | joining (terminal : Option (ScopeError ε))
  | completing (terminal : Option (ScopeError ε))
  | done (error : Option (ScopeError ε))
  /-- Cancelled before its thread has started. -/
  | withdrawn
deriving DecidableEq, Repr

/-- What the caller is given. -/
inductive OperationResult (ε : Type) where
  | returned
  | raised (error : ScopeError ε)
  /-- The exception of the body goes on; `context` is what `__exit__` has put in its
      `__context__`. -/
  | bodyRaised (value : Nat) (context : Option (ScopeError ε))
deriving DecidableEq, Repr

structure Operation (ε : Type) where
  kind : OperationKind
  isAsync : Bool := false
  /-- `_ensure_not_owned_self_wait` finds the caller's context or task. -/
  owned : Bool := false
  /-- The loop that runs on the thread of the caller. -/
  runningLoop : Option Nat := none
  hasTimeout : Bool := false
  phase : OperationPhase ε
  result : Option (OperationResult ε) := none
deriving DecidableEq, Repr

namespace Operation

variable {ε : Type} (op : Operation ε)

/-- The loop on the thread in which the barrier is run. -/
def threadLoop : Option Nat := if op.isAsync then none else op.runningLoop

/-- What the caller is given when the barrier has ended. -/
def resultOf (error : Option (ScopeError ε)) : OperationResult ε :=
  match op.kind, error with
  | .exit (some value), error => .bodyRaised value error
  | _, some error => .raised error
  | _, none => .returned

/-- `__exit__` starts a second `close`: a guard has stopped the first one on a loop. -/
def defers (error : Option (ScopeError ε)) : Bool :=
  match op.kind, error with
  | .exit (some _), some (.refused (.stageLifecycle _)) => !op.isAsync && op.runningLoop.isSome
  | _, _ => false

/-- The end of an operation: a sync caller has its result. -/
def ended (error : Option (ScopeError ε)) : Operation ε :=
  { op with
    phase := .done error
    result := if op.isAsync then op.result else some (op.resultOf error) }

/-- The `close` that the operation `i` leaves to `run_in_executor`. -/
def deferredClose (i : Nat) (error : Option (ScopeError ε)) : List (Operation ε) :=
  if op.defers error then [{ kind := .deferredClose i, phase := .guarding }] else []

/-- Between the acquisition of `_close_operation_lock` and its release. -/
def holdsLock : Bool :=
  op.kind.closes &&
    match op.phase with
    | .checking | .closing | .entering | .waiting | .reading | .shutting _ | .joining _
      | .completing _ => true
    | _ => false

/-- The phase in which a call begins. -/
def firstPhase (kind : OperationKind) (isAsync : Bool) : OperationPhase ε :=
  match kind, isAsync with
  | .exit _, _ => .sealing
  | _, true => .asking
  | .waitSettled, false => .entering
  | _, false => .guarding

/-- An operation that is called.  Leaving the `with` statement passes no timeout. -/
def called (kind : OperationKind) (isAsync owned : Bool) (runningLoop : Option Nat)
    (hasTimeout : Bool) : Operation ε :=
  { kind, isAsync, owned, runningLoop
    hasTimeout := hasTimeout && !kind.isExit
    phase := firstPhase kind isAsync }

end Operation

/-! ## 2. State -/

/-- The `ThreadPoolExecutor` of `max_workers`. -/
structure PrivateExecutor where
  /-- The calls that run in it or wait for a worker. -/
  calls : Nat := 0
  isShut : Bool := false
deriving DecidableEq, Repr

structure ClosingStage (ε : Type) where
  scope : EpochState
  privateExecutor : Option PrivateExecutor := none
  handleOrigin : Nat → String := fun _ => ""
  taskOrigin : Nat → String := fun _ => ""
  settlementErrors : List ε := []
  /-- `_idle_timeout_error`, with its origins. -/
  idleTimeoutError : Option (List String) := none
  closeCompleted : Bool := false
  /-- The operation that holds `_close_operation_lock`. -/
  closeOperationLock : Option Nat := none
  /-- The `with` statement has been left. -/
  exited : Bool := false
  operations : List (Operation ε) := []

namespace ClosingStage

variable {ε : Type} (s : ClosingStage ε)

/-! ## 3. What the operations read -/

/-- `_active_origins_locked`. -/
def activeOriginsLocked : List String :=
  ((((List.range s.scope.handles.length).filter (· ∈ s.scope.activeHandles)).map s.handleOrigin) ++
    (((List.range s.scope.taskLoops.length).filter (· ∈ s.scope.adoptedTasks)).map
      s.taskOrigin)).insertionSort (· ≤ ·)

/-- The text on the unsettled work in the `TimeoutError` of `wait_settled`. -/
def unsettled : String :=
  let handleCount := s.scope.activeHandles.card
  let adoptedCount := s.scope.adoptedTasks.card
  if adoptedCount = 0 then toString handleCount ++ " unsettled handle(s)"
  else if handleCount = 0 then toString adoptedCount ++ " unsettled adopted task(s)"
  else
    toString (handleCount + adoptedCount) ++ " unsettled work item(s) (" ++
      toString handleCount ++ " handle(s), " ++ toString adoptedCount ++ " adopted task(s))"

def ownedError : StageError :=
  .stageLifecycle "Cannot wait for a Stage from work owned by the same scope"

/-- `_ensure_not_owned_self_wait` and `_ensure_not_same_caller_loop_sync_wait`. -/
def guards (op : Operation ε) (barrier : BarrierScope.Barrier) : Except StageError Unit :=
  if op.owned then .error ownedError
  else s.scope.ensureNotSameCallerLoopSyncWait op.threadLoop (asyncOperation barrier)

/-- `_raise_scope_errors`. -/
def raiseScopeErrors : Option (ScopeError ε) :=
  match s.idleTimeoutError with
  | some origins => some (.idleTimeout origins)
  | none =>
    match s.settlementErrors with
    | [] => none
    | error :: errors => some (.settlement (error :: errors))

def executorBusy : Bool := s.privateExecutor.any fun executor => decide (0 < executor.calls)

/-! ## 4. The operations -/

def setOperation (i : Nat) (op : Operation ε) : ClosingStage ε :=
  { s with operations := s.operations.set i op }

def setPhase (i : Nat) (op : Operation ε) (phase : OperationPhase ε) : ClosingStage ε :=
  s.setOperation i { op with phase := phase }

/-- `_close_operation_lock` is given back, if the operation holds it. -/
def unlock (i : Nat) : ClosingStage ε :=
  { s with
    closeOperationLock := if s.closeOperationLock = some i then none else s.closeOperationLock }

/-- An operation ends. -/
def finish (i : Nat) (op : Operation ε) (error : Option (ScopeError ε)) : ClosingStage ε :=
  { s.unlock i with operations := s.operations.set i (op.ended error) ++ op.deferredClose i error }

/-- The next step of an operation. -/
def advance (i : Nat) (op : Operation ε) : Option (ClosingStage ε) :=
  match op.phase with
  | .sealing =>
    some { s.setPhase i op (if op.isAsync then .asking else .guarding) with
      scope := s.scope.sealScope }
  | .asking =>
    if op.owned then
      -- raised in the task itself, before there is a thread
      some (s.setOperation i
        { op with
          phase := .done (some (.refused ownedError))
          result := some (op.resultOf (some (.refused ownedError))) })
    else some (s.setPhase i op .queued)
  | .queued =>
    some (s.setPhase i op (if op.kind = .waitSettled then .entering else .guarding))
  | .guarding =>
    match s.guards op op.kind.barrier with
    | .error error => some (s.finish i op (some (.refused error)))
    | .ok () =>
      some (s.setPhase i op (if op.kind = .cancelAndWaitSettled then .cancelling else .locking))
  | .cancelling =>
    if s.scope.hasActiveWorkLocked then
      some { s.setPhase i op .entering with scope := s.scope.cancelScope }
    else some (s.finish i op none)
  | .locking =>
    if s.closeOperationLock.isSome then none
    else some { s.setPhase i op .checking with closeOperationLock := some i }
  | .checking =>
    if s.closeCompleted then some (s.finish i op s.raiseScopeErrors)
    else some (s.setPhase i op .closing)
  | .closing => some { s.setPhase i op .entering with scope := s.scope.sealScope }
  | .entering =>
    match s.guards op .waitSettled with
    | .error error => some (s.finish i op (some (.refused error)))
    | .ok () => some (s.setPhase i op .waiting)
  | .waiting => if s.scope.hasActiveWorkLocked then none else some (s.setPhase i op .reading)
  | .reading =>
    if op.kind.closes then some (s.setPhase i op (.shutting s.raiseScopeErrors))
    else some (s.finish i op s.raiseScopeErrors)
  | .shutting terminal =>
    some { s.setPhase i op (.joining terminal) with
      privateExecutor := s.privateExecutor.map fun executor => { executor with isShut := true } }
  | .joining terminal =>
    if s.executorBusy then none else some (s.setPhase i op (.completing terminal))
  | .completing terminal => some ({ s with closeCompleted := true }.finish i op terminal)
  | .done _ | .withdrawn => none

/-- The deadline of `wait_settled` has passed, and there is still work. -/
def expire (i : Nat) (op : Operation ε) : Option (ClosingStage ε) :=
  match op.phase with
  | .waiting =>
    if op.hasTimeout && s.scope.hasActiveWorkLocked then
      some (s.finish i op (some (.timeout s.unsettled s.activeOriginsLocked)))
    else none
  | _ => none

/-- The task that awaits an async form gets what the thread has come to. -/
def deliver (i : Nat) (op : Operation ε) : Option (ClosingStage ε) :=
  match op.phase, op.result with
  | .done error, none => some (s.setOperation i { op with result := some (op.resultOf error) })
  | _, _ => none

/-- The task that awaits an async form is cancelled. -/
def cancelAwait (i : Nat) (op : Operation ε) : Option (ClosingStage ε) :=
  if op.isAsync && op.result.isNone then
    let cancelled := some (op.resultOf (some .cancelled))
    match op.phase with
    | .sealing | .asking => none
    | .queued => some (s.setOperation i { op with phase := .withdrawn, result := cancelled })
    | _ => some (s.setOperation i { op with result := cancelled })
  else none

/-- `observe_deferred_close`, when the second `close` has raised. -/
def observeDeferredClose (op : Operation ε) : Option (ClosingStage ε) :=
  match op.kind, op.phase with
  | .deferredClose i, .done (some error) =>
    match s.operations[i]? with
    | some exit =>
      match exit.result with
      | some (.bodyRaised value _) =>
        some (s.setOperation i { exit with result := some (.bodyRaised value (some error)) })
      | _ => none
    | none => none
  | _, _ => none

end ClosingStage

/-! ## 5. Events -/

inductive CloseEvent (ε : Type) where
  /-- An event of the epochs: `origin` is that of the work it admits, `errors` are those that
      the quiescence of a handle reports. -/
  | scope (e : EpochEvent) (origin : String) (errors : List ε)
  | executorCall
  | executorReturn
  | begin (kind : OperationKind) (isAsync owned : Bool) (runningLoop : Option Nat)
      (hasTimeout : Bool)
  | advance (i : Nat)
  | expire (i : Nat)
  | deliver (i : Nat)
  | cancelAwait (i : Nat)
  | observeDeferredClose (i : Nat)
deriving DecidableEq, Repr

namespace ClosingStage

variable {ε : Type} (s : ClosingStage ε)

/-- The errors that an event of the epochs adds to `_scope_settlement_errors`. -/
def reported (errors : List ε) : EpochEvent → List ε
  | .handleQuiescent _ => errors
  | _ => []

/-- The Stage after an event of its epochs. -/
def afterScope (e : EpochEvent) (origin : String) (errors : List ε) (scope : EpochState) :
    ClosingStage ε :=
  { s with
    scope := scope
    handleOrigin := fun h => if h < s.scope.handles.length then s.handleOrigin h else origin
    taskOrigin := fun t => if t ∈ s.scope.adoptedTasks then s.taskOrigin t else origin
    settlementErrors := s.settlementErrors ++ reported errors e
    idleTimeoutError :=
      if s.scope.idleTimedOut = false ∧ scope.idleTimedOut = true then
        some s.activeOriginsLocked
      else s.idleTimeoutError }

/-- The `with` statement is left in the way it has been entered, once. -/
def mayBegin (kind : OperationKind) (isAsync : Bool) : Bool :=
  match kind with
  | .exit _ =>
    !s.exited && decide (s.scope.contextMode = if isAsync then .async else .sync)
  | .deferredClose _ => false
  | _ => true

def step : CloseEvent ε → Option (ClosingStage ε)
  | .scope e origin errors => (s.scope.step e).map (s.afterScope e origin errors)
  | .executorCall =>
    match s.privateExecutor with
    | some executor =>
      if executor.isShut then none
      else some { s with privateExecutor := some { executor with calls := executor.calls + 1 } }
    | none => none
  | .executorReturn =>
    match s.privateExecutor with
    | some executor =>
      if 0 < executor.calls then
        some { s with privateExecutor := some { executor with calls := executor.calls - 1 } }
      else none
    | none => none
  | .begin kind isAsync owned runningLoop hasTimeout =>
    if s.mayBegin kind isAsync then
      some { s with
        exited := s.exited || kind.isExit
        operations := s.operations ++
          [Operation.called kind isAsync owned runningLoop hasTimeout] }
    else none
  | .advance i => (s.operations[i]?).bind (s.advance i)
  | .expire i => (s.operations[i]?).bind (s.expire i)
  | .deliver i => (s.operations[i]?).bind (s.deliver i)
  | .cancelAwait i => (s.operations[i]?).bind (s.cancelAwait i)
  | .observeDeferredClose i => (s.operations[i]?).bind s.observeDeferredClose

end ClosingStage

/-- All interleavings of a Stage and the operations that close it; `privateExecutor` tells
    whether `max_workers` has been given. -/
def closeSystem (ε : Type) (configured : ConfiguredBackend) (idleTimeout : Option Nat)
    (privateExecutor : Bool) : System (ClosingStage ε) (CloseEvent ε) where
  Init s := s = {
    scope := { configured := configured, idleTimeout := idleTimeout }
    privateExecutor := if privateExecutor then some {} else none }
  step := ClosingStage.step

end AgentlyStage
