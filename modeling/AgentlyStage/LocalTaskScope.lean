import Mathlib.Data.List.Sort
import AgentlyStage.AdoptedTasks
import AgentlyStage.Lib.Simulation

/-!
# The local task scope

`LocalTaskScope`, the facade over a Stage of its own whose observer is `_task_done`: `spawn`,
`adopt`, `wait_settled`, `cancel_and_wait` and `close`, and the completion callback.

A scope is bound to the loop of its first call, and what passes `_bind_running_loop` runs in the
thread of that loop.  `spawn` and `adopt` hold that thread to their end; of the barriers only
the part in `to_thread` is elsewhere.  The first call is not raced by one from another thread.
`spawn` is given a coroutine and `adopt` a task, and no timer or handle concerns a Stage that
only adopts: it has no scope errors to raise.
-/

namespace AgentlyStage

open Transition

/-! ## 1. State -/

/-- How a task ends. -/
inductive LocalTaskEnd where
  | returned
  | cancelled
  | raised (error : Nat)
deriving DecidableEq, Repr

structure LocalTaskOutcome where
  task : Nat
  origin : String
  cancelled : Bool
  error : Option Nat
deriving DecidableEq, Repr

/-- The outcome that `_task_done` makes of a task. -/
def LocalTaskOutcome.ofEnd (t : Nat) (origin : String) : LocalTaskEnd → LocalTaskOutcome
  | .returned => ⟨t, origin, false, none⟩
  | .cancelled => ⟨t, origin, true, none⟩
  | .raised error => ⟨t, origin, false, some error⟩

/-- What a call raises. -/
inductive LocalError where
  | stage (error : StageError)
  /-- `asyncio.get_running_loop` raises. -/
  | noRunningLoop
  /-- `loop.create_task` raises. -/
  | createTaskFailed
  /-- `task.add_done_callback` raises. -/
  | attachFailed
  /-- `TimeoutError`, with the count and the origins in its text. -/
  | timeout (adoptedCount : Nat) (origins : List String)
  | cancelled
deriving DecidableEq, Repr

inductive LocalRequest where
  | spawn (origin : String)
  | adopt (t : Nat) (origin : String)
deriving DecidableEq, Repr

def LocalRequest.origin : LocalRequest → String
  | .spawn origin => origin
  | .adopt _ origin => origin

/-- How far the thread of the loop is in a `spawn` or an `adopt`. -/
inductive SubmitCall where
  /-- `create_task` has selected the backend. -/
  | creating (site : CallSite) (origin : String)
  /-- About to enter the critical section of `Stage.adopt`. -/
  | adopting (site : CallSite) (t : Nat) (request : LocalRequest)
  /-- About to attach the callback. -/
  | attaching (t : Nat) (request : LocalRequest)
deriving DecidableEq, Repr

inductive LocalBarrierKind where
  | waitSettled
  | cancelAndWait
  | close (cancel : Bool)
deriving DecidableEq, Repr

/-- What a barrier runs in a thread: an operation of the Stage. -/
inductive BarrierBody where
  | waitSettled
  | cancelAndWaitSettled
  | close
deriving DecidableEq, Repr

/-- What the coroutine of a barrier awaits first. -/
def LocalBarrierKind.firstBody : LocalBarrierKind → BarrierBody
  | .waitSettled => .waitSettled
  | .cancelAndWait => .cancelAndWaitSettled
  | .close cancel => if cancel then .cancelAndWaitSettled else .close

def LocalBarrierKind.isClose : LocalBarrierKind → Bool
  | .close _ => true
  | .waitSettled | .cancelAndWait => false

/-- The value is that of `cancel_and_wait`. -/
inductive BarrierResult where
  | returned (value : Option Bool)
  | raised (error : LocalError)
deriving DecidableEq, Repr

inductive LocalPhase where
  /-- The thread has not started. -/
  | queued
  /-- About to look at the inventory in `wait_settled`. -/
  | entering
  /-- In the wait of that number. -/
  | blocked (w : Nat)
  /-- `wait_settled` has returned to `close`. -/
  | completing
  | finished (result : BarrierResult)
  /-- Cancelled before its thread has started. -/
  | withdrawn
deriving DecidableEq, Repr

structure LocalBarrier where
  kind : LocalBarrierKind
  body : BarrierBody
  /-- `_active_stage.get()` is the Stage. -/
  owned : Bool
  /-- `asyncio.current_task()`. -/
  task : Option Nat
  hasTimeout : Bool
  phase : LocalPhase := .queued
  /-- What the coroutine has returned or raised. -/
  result : Option BarrierResult := none
deriving DecidableEq, Repr

/-- How `_on_done` ends: the error of the callback goes to the exception handler of the loop.
    When that one exits, the error goes there once more, from the Stage. -/
inductive CallbackEnd where
  | returned
  | reported
  | handlerExits (again : Bool)
deriving DecidableEq, Repr

/-- What the Stage sees of it. -/
def CallbackEnd.observerEnd : CallbackEnd → ObserverEnd
  | .returned | .reported => .returned
  | .handlerExits again => if again then .handlerExits else .reported

structure LocalTaskScope where
  stage : InventoryState
  hasOnDone : Bool
  loop : Option Nat := none
  closed : Bool := false
  closeCompleted : Bool := false
  /-- `_close_completed` of the Stage. -/
  stageCompleted : Bool := false
  /-- The barrier that holds `_close_operation_lock`. -/
  closeOperationLock : Option Nat := none
  calling : Option SubmitCall := none
  barriers : List LocalBarrier := []
  /-- How the finished tasks have ended. -/
  taskEnds : Nat → Option LocalTaskEnd := fun _ => none
  /-- History: the calls of `_on_done`, the errors it has raised, the requests that have been
      refused, and the tasks that `create_task` has given up. -/
  outcomes : List LocalTaskOutcome := []
  callbackErrors : List (Nat × String) := []
  refusals : List (LocalRequest × LocalError) := []
  givenUp : List Nat := []

namespace LocalTaskScope

/-- `Stage(on_adopted_done=self._task_done)`. -/
def new (hasOnDone : Bool) : LocalTaskScope where
  stage := { epoch := { configured := .auto, idleTimeout := none }, hasObserver := true }
  hasOnDone := hasOnDone

variable (s : LocalTaskScope)

/-! ## 2. The readers -/

def pendingCount : Nat := s.stage.adoptedTasks.length

def pendingTasks : List Nat := s.stage.adoptedTasks.map Prod.fst

def originFor (t : Nat) : Option String := s.stage.adoptedTasks.lookup t

def pendingOrigins : List String :=
  (s.pendingTasks.filterMap s.originFor).insertionSort (· ≤ ·)

/-! ## 3. Submission -/

def refuse (request : LocalRequest) (error : LocalError) : LocalTaskScope :=
  { s with refusals := s.refusals ++ [(request, error)] }

/-- `_bind_running_loop`. -/
def bindRunningLoop : Option Nat → Except LocalError (Nat × LocalTaskScope)
  | none => .error .noRunningLoop
  | some running =>
    match s.loop with
    | none => .ok (running, { s with loop := some running })
    | some loop =>
      if loop = running then .ok (running, s)
      else .error (.stage (.stageLifecycle
        "A local Stage task scope cannot cross event loops"))

def withEpoch (epoch : EpochState) : LocalTaskScope :=
  { s with stage := { s.stage with epoch } }

/-- `spawn`, with the first critical section of `Stage.create_task`. -/
def spawn (site : CallSite) (origin : String) : LocalTaskScope :=
  if s.closed then
    s.refuse (.spawn origin) (.stage (.stageClosed
      "Cannot submit work to a closed local Stage task scope"))
  else
    match s.bindRunningLoop site.runningLoop with
    | .error error => s.refuse (.spawn origin) error
    | .ok (loop, s') =>
      match s'.stage.epoch.selectForTask site loop with
      | (epoch, some error) => (s'.withEpoch epoch).refuse (.spawn origin) (.stage error)
      | (epoch, none) => { s'.withEpoch epoch with calling := some (.creating site origin) }

/-- `adopt`, up to `Stage.adopt`. -/
def adopt (site : CallSite) (t : Nat) (origin : String) : LocalTaskScope :=
  if s.closed then
    s.refuse (.adopt t origin) (.stage (.stageClosed
      "Cannot adopt work into a closed local Stage task scope"))
  else
    match s.bindRunningLoop site.runningLoop with
    | .error error => s.refuse (.adopt t origin) error
    | .ok (_, s') =>
      if s'.stage.loopOf t = s'.loop then
        { s' with calling := some (.adopting site t (.adopt t origin)) }
      else
        s'.refuse (.adopt t origin) (.stage (.stageLifecycle
          "A local Stage task scope cannot adopt a task from another event loop"))

/-- An error of `Stage.adopt` reaches the caller; `create_task` cancels its task. -/
def adoptFails (t : Nat) (request : LocalRequest) (error : LocalError) : LocalTaskScope :=
  { s.refuse request error with
    calling := none
    givenUp :=
      match request with
      | .spawn _ => s.givenUp ++ [t]
      | .adopt _ _ => s.givenUp }

/-- Who enters the scope lock in the thread of the loop: the callback holds it. -/
def user : LockUser := if s.stage.observing.isSome then .observer else .other

/-- The next step of the `spawn` or `adopt` in which the thread of the loop is. -/
def callStep : Option LocalTaskScope :=
  match s.calling with
  | none => none
  | some (.creating site origin) =>
    (s.stage.makeTask 0).map fun stage =>
      { s with
        stage
        calling := some (.adopting site s.stage.epoch.taskLoops.length (.spawn origin)) }
  | some (.adopting site t request) =>
    (s.stage.loopOf t).map fun loop =>
      match s.stage.adopt site t loop request.origin with
      | (stage, some error) => { s with stage }.adoptFails t request (.stage error)
      | (stage, none) =>
        -- a task that is there already has its callback
        let isNew := (s.stage.adoptedTasks.lookup t).isNone
        { s with stage, calling := if isNew then some (.attaching t request) else none }
  | some (.attaching t request) =>
    (s.stage.attaching[0]?).bind fun call =>
      (s.stage.attach 0).map fun stage =>
        if s.stage.attachRaises call then { s with stage }.adoptFails t request .attachFailed
        else { s with stage, calling := none }

/-- `loop.create_task` raises. -/
def createTaskFails : Option LocalTaskScope :=
  match s.calling with
  | some (.creating _ origin) =>
    (s.stage.epoch.step (.createTaskFails 0)).map fun epoch =>
      { (s.withEpoch epoch).refuse (.spawn origin) .createTaskFailed with calling := none }
  | _ => none

/-! ## 4. Completion -/

/-- A task ends.  Its loop is not in a call, and not in the callback either. -/
def finish (t : Nat) (how : LocalTaskEnd) : Option LocalTaskScope :=
  if s.stage.loopOf t = s.loop → s.calling = none ∧ s.stage.observing = none then
    (s.stage.finish t).map fun stage =>
      { s with stage, taskEnds := Function.update s.taskEnds t (some how) }
  else none

/-- `_task_done`, up to the end of `_on_done`. -/
def taskDone (t : Nat) : Option LocalTaskScope :=
  if s.calling = none then
    (s.stage.adoptedTaskDone t).bind fun stage =>
      match stage.observing, s.taskEnds t with
      | some (_, origin), some how =>
        if s.hasOnDone then
          some { s with stage, outcomes := s.outcomes ++ [.ofEnd t origin how] }
        else (stage.observerEnds .returned).map fun stage => { s with stage }
      | _, _ => none
  else none

/-- `_on_done` ends, and `_adopted_task_done` with it. -/
def callbackEnds (how : CallbackEnd) : Option LocalTaskScope :=
  if s.calling = none then
    s.stage.observing.bind fun call =>
      (s.stage.observerEnds how.observerEnd).map fun stage =>
        { s with
          stage
          callbackErrors :=
            if how = .returned then s.callbackErrors else s.callbackErrors ++ [call] }
  else none

/-! ## 5. The barriers -/

/-- `_ensure_not_owned_self_wait`. -/
def ownedSelfWait (barrier : LocalBarrier) : Bool :=
  barrier.owned || barrier.task.any fun t => decide (t ∈ s.stage.keys)

def selfWaitError : LocalError :=
  .stage (.stageLifecycle "Cannot wait for a Stage from work owned by the same scope")

def setBarrier (i : Nat) (barrier : LocalBarrier) : LocalTaskScope :=
  { s with barriers := s.barriers.set i barrier }

/-- The coroutine is about to go to the thread that runs `body`. -/
def guarded (barrier : LocalBarrier) (body : BarrierBody) : LocalBarrier :=
  if s.ownedSelfWait barrier then
    { barrier with body, phase := .withdrawn, result := some (.raised selfWaitError) }
  else { barrier with body, phase := .queued }

/-- The call of a barrier, up to its thread. -/
def barrier (runningLoop : Option Nat) (kind : LocalBarrierKind) (owned : Bool)
    (task : Option Nat) (hasTimeout : Bool) : LocalTaskScope :=
  let called : LocalBarrier := { kind, body := kind.firstBody, owned, task, hasTimeout }
  let ended (s : LocalTaskScope) (result : BarrierResult) : LocalTaskScope :=
    { s with barriers := s.barriers ++ [{ called with phase := .withdrawn, result }] }
  match s.bindRunningLoop runningLoop with
  | .error error => ended s (.raised error)
  | .ok (_, s') =>
    match kind with
    | .close _ =>
      if s'.closeCompleted then ended s' (.returned none)
      else
        { s' with
          closed := true
          barriers := s'.barriers ++ [s'.guarded called kind.firstBody] }
    | .waitSettled | .cancelAndWait =>
      { s' with barriers := s'.barriers ++ [s'.guarded called kind.firstBody] }

/-- `wait_settled` has returned in the thread of the barrier. -/
def settled (i : Nat) (barrier : LocalBarrier) : LocalTaskScope :=
  s.setBarrier i { barrier with phase :=
    match barrier.body with
    | .waitSettled => .finished (.returned none)
    | .cancelAndWaitSettled => .finished (.returned (some true))
    | .close => .completing }

/-- `wait_settled` has raised a `TimeoutError`. -/
def timedOut (i : Nat) (barrier : LocalBarrier) : LocalTaskScope :=
  { s.setBarrier i { barrier with
      phase := .finished (.raised (.timeout s.pendingCount s.pendingOrigins)) } with
    closeOperationLock := if barrier.body = .close then none else s.closeOperationLock }

/-- The wait of the barrier has moved on. -/
def waited (i w : Nat) (barrier : LocalBarrier) (stage : InventoryState) : LocalTaskScope :=
  match stage.waits[w]? with
  | some .returned => { s with stage }.settled i barrier
  | some .timedOut => { s with stage }.timedOut i barrier
  | _ => { s with stage }.setBarrier i { barrier with phase := .blocked w }

/-- The next step of the thread of a barrier.  The look of `close` at `_close_completed` and
    its `seal` are one step: the answer only changes under `_close_operation_lock`. -/
def threadStep (i : Nat) (barrier : LocalBarrier) (timeLeft : Bool) : Option LocalTaskScope :=
  match barrier.phase, barrier.body with
  | .queued, .waitSettled => some (s.setBarrier i { barrier with phase := .entering })
  | .queued, .cancelAndWaitSettled =>
    if s.stage.lockFree .other then
      if s.stage.epoch.hasActiveWorkLocked then
        some ((s.withEpoch s.stage.epoch.cancelScope).setBarrier i
          { barrier with phase := .entering })
      else
        some (s.setBarrier i { barrier with phase := .finished (.returned (some false)) })
    else none
  | .queued, .close =>
    if s.stage.lockFree .other ∧ s.closeOperationLock = none then
      if s.stageCompleted then
        some (s.setBarrier i { barrier with phase := .finished (.returned none) })
      else
        some { (s.withEpoch s.stage.epoch.sealScope).setBarrier i
          { barrier with phase := .entering } with closeOperationLock := some i }
    else none
  | .entering, _ =>
    (s.stage.waitSettled .other).map fun stage => s.waited i s.stage.waits.length barrier stage
  | .blocked w, _ =>
    if timeLeft ∨ barrier.hasTimeout then
      (s.stage.wake w timeLeft).map fun stage => s.waited i w barrier stage
    else none
  | .completing, _ =>
    if s.stage.lockFree .other then
      some { s.setBarrier i { barrier with phase := .finished (.returned none) } with
        stageCompleted := true
        closeOperationLock := none }
    else none
  | .finished _, _ | .withdrawn, _ => none

/-- The coroutine goes on with what its thread has returned or raised. -/
def resume (i : Nat) (barrier : LocalBarrier) : Option LocalTaskScope :=
  match barrier.result, barrier.phase with
  | none, .finished (.raised error) =>
    some (s.setBarrier i { barrier with result := some (.raised error) })
  | none, .finished (.returned value) =>
    match barrier.kind, barrier.body with
    | .close _, .cancelAndWaitSettled => some (s.setBarrier i (s.guarded barrier .close))
    | .close _, _ =>
      some { s.setBarrier i { barrier with result := some (.returned none) } with
        closeCompleted := true }
    | _, _ => some (s.setBarrier i { barrier with result := some (.returned value) })
  | _, _ => none

/-- The task that awaits the barrier is cancelled; a thread that has started goes on. -/
def abandon (i : Nat) (barrier : LocalBarrier) : Option LocalTaskScope :=
  if barrier.result = none then
    some (s.setBarrier i { barrier with
      phase := if barrier.phase = .queued then .withdrawn else barrier.phase
      result := some (.raised .cancelled) })
  else none

end LocalTaskScope

/-! ## 6. Events -/

inductive LocalEvent where
  | newTask (loop : Nat)
  | loopChanges (loop : Nat) (status : TaskLoop)
  | spawn (site : CallSite) (origin : String)
  | adopt (site : CallSite) (t : Nat) (origin : String)
  | callStep
  | createTaskFails
  | finish (t : Nat) (how : LocalTaskEnd)
  | taskDone (t : Nat)
  | callbackEnds (how : CallbackEnd)
  | barrier (runningLoop : Option Nat) (kind : LocalBarrierKind) (owned : Bool)
      (task : Option Nat) (hasTimeout : Bool)
  | threadStep (i : Nat) (timeLeft : Bool)
  | resume (i : Nat)
  | abandon (i : Nat)

namespace LocalTaskScope

variable (s : LocalTaskScope)

/-- The loop of the caller runs, and its thread is not in another call. -/
def mayCall (runningLoop : Option Nat) : Bool :=
  runningLoop.all fun loop =>
    decide ((s.stage.loops loop).mode = .running) &&
      (decide (s.loop ≠ some loop) || s.calling.isNone)

/-- A coroutine on the loop can take a step: the thread is in no call and no callback. -/
def mayAwait (runningLoop : Option Nat) : Bool :=
  s.mayCall runningLoop && (decide (s.loop ≠ runningLoop) || s.stage.observing.isNone)

/-- The thread of the bound loop is in the middle of something. -/
def busy : Bool := s.calling.isSome || s.stage.observing.isSome

def step (s : LocalTaskScope) : LocalEvent → Option LocalTaskScope
  | .newTask loop =>
    some (s.withEpoch { s.stage.epoch with taskLoops := s.stage.epoch.taskLoops ++ [loop] })
  | .loopChanges loop status =>
    if s.busy ∧ s.loop = some loop ∧ status.mode ≠ .running then none
    else (s.stage.step (.loopChanges loop status)).map fun stage => { s with stage }
  | .spawn site origin => if s.mayCall site.runningLoop then some (s.spawn site origin) else none
  | .adopt site t origin =>
    if s.mayCall site.runningLoop ∧ (s.stage.loopOf t).isSome then some (s.adopt site t origin)
    else none
  | .callStep => s.callStep
  | .createTaskFails => s.createTaskFails
  | .finish t how => s.finish t how
  | .taskDone t => s.taskDone t
  | .callbackEnds how => s.callbackEnds how
  | .barrier runningLoop kind owned task hasTimeout =>
    if s.mayAwait runningLoop then some (s.barrier runningLoop kind owned task hasTimeout)
    else none
  | .threadStep i timeLeft => (s.barriers[i]?).bind fun barrier => s.threadStep i barrier timeLeft
  | .resume i =>
    if s.mayAwait s.loop then (s.barriers[i]?).bind fun barrier => s.resume i barrier else none
  | .abandon i =>
    if s.mayAwait s.loop then (s.barriers[i]?).bind fun barrier => s.abandon i barrier else none

end LocalTaskScope

/-- All interleavings of one local task scope. -/
def localSystem (hasOnDone : Bool) : System LocalTaskScope LocalEvent where
  Init s := s = .new hasOnDone
  step := LocalTaskScope.step

end AgentlyStage
