import AgentlyStage.Errors
import AgentlyStage.Lib.Transition
import Mathlib.Logic.Function.Basic

/-!
# One carrier slot

`_CarrierSlot`: the generations of one lane with their reservations, the submissions and
tasks on their loops, and the share of each handle's pending work that the slot holds.
Generations are numbered by the slot, submissions and tasks by their order.

Every event is one critical section of `_admission_lock`, one callback of a carrier loop
or one step of the control worker.  Two functions of the source act again after they
have left the lock and appear as two events: `_release_reservation` posts the seal of the
loop (`sealPosts`), and `_run_generation` queues the submissions that waited for the loop
(`taken`) and seals it at once when nothing is reserved (`sealsOnRun`).

The worker leaves a loop in two ways: the loop has drained (`close`), or one of its
`run_until_complete` raises (`exit`), because a task or a callback of the loop has ended
with `SystemExit` or `KeyboardInterrupt`, or the loop has been stopped.  The `finally` closes
the generation either way.  What a closed loop still has in `ready` is never run, and its
unfinished tasks take no further step; a collected task gives nothing back, since the
`finally` of `_run_submission` then raises at its `reset`.

A coroutine is not modelled inside: once its task has begun it can create tasks, submit
work and end, in any order.  What a piece of code may carry is an execution context of
some submission that has begun, its own or a copied one.  Of asyncio it is assumed that a
loop runs its ready queue in order, and that a task cancelled before its first step ends
without running its coroutine.
-/

namespace AgentlyStage

open Transition

/-! ## 1. Generations, submissions, tasks -/

/-- `_GenerationState`. -/
inductive GenerationState where
  | queued
  | starting
  | opened
  | sealing
  | draining
  | closed
deriving DecidableEq, Repr

/-- The states in which a pinned generation still takes reservations. -/
def GenerationState.admits : GenerationState → Bool
  | .queued | .starting | .opened => true
  | .sealing | .draining | .closed => false

/-- `_WorkPhase`. -/
inductive WorkPhase where
  | body
  | settlement
deriving DecidableEq, Repr

/-- `_ExecutionContext`; `submission` is the one whose `_run_submission` has set it. -/
structure ExecutionContext where
  submission : Nat
  generation : Nat
  handle : Nat
  phase : WorkPhase
deriving DecidableEq, Repr

/-- A callback on the ready queue of a carrier loop. -/
inductive CarrierCall where
  | startSubmission (n : Nat)
  | firstStep (t : Nat)
  | cancelTasks (tasks : List Nat)
  | descendantDone (t : Nat)
  | setSeal
deriving DecidableEq, Repr

/-- `_Generation` with the queue of its loop; `running` is `loop is not None`. -/
structure Generation where
  state : GenerationState := .queued
  reservations : Nat := 0
  running : Bool := false
  sealEvent : Bool := false
  pendingSubmissions : List Nat := []
  taken : List Nat := []
  sealsOnRun : Bool := false
  ready : List CarrierCall := []
deriving DecidableEq, Repr

/-- `_Submission`, its root task, and whether the `finally` of `_run_submission` ran. -/
structure Submission where
  handle : Nat
  generation : Nat
  phase : WorkPhase
  context : Option ExecutionContext
  rootTask : Option Nat := none
  begun : Bool := false
  released : Bool := false
deriving DecidableEq, Repr

/-- A task of a carrier loop.  `retained` is the execution the task factory retained it
    for, `root` the submission whose `_run_submission` it runs. -/
structure CarrierTask where
  generation : Nat
  retained : Option ExecutionContext
  root : Option Nat
  cancelled : Bool
  begun : Bool := false
  done : Bool := false
  released : Bool := false
deriving DecidableEq, Repr

/-- What the slot knows of a handle: its share of `_pending_work`, the cancel request and
    the owner task. -/
structure HandleWork where
  pendingWork : Nat := 0
  cancelRequested : Bool := false
  ownerLoop : Option Nat := none
  ownerTask : Option Nat := none
  /-- The submission of the body, once `go()` has made it. -/
  bodySubmission : Option Nat := none
deriving DecidableEq, Repr

structure SlotState where
  generations : Nat → Generation := fun _ => {}
  generationCount : Nat := 0
  current : Option Nat := none
  next : Option Nat := none
  controlOpen : Bool := true
  /-- Leases held, per generation. -/
  leases : Nat → Nat := fun _ => 0
  submissions : List Submission := []
  tasks : List CarrierTask := []
  handles : Nat → HandleWork := fun _ => {}
  /-- Calls of `_release_reservation` that have left the lock to seal a loop. -/
  sealPosts : List Nat := []

namespace SlotState

def setGeneration (s : SlotState) (g : Nat) (generation : Generation) : SlotState :=
  { s with generations := Function.update s.generations g generation }

def setHandle (s : SlotState) (h : Nat) (handle : HandleWork) : SlotState :=
  { s with handles := Function.update s.handles h handle }

/-- `loop.call_soon` and `loop.call_soon_threadsafe`. -/
def callSoon (s : SlotState) (g : Nat) (call : CarrierCall) : SlotState :=
  s.setGeneration g { s.generations g with ready := (s.generations g).ready ++ [call] }

/-! ## 2. Reservations -/

/-- `_create_generation_locked`. -/
def createGenerationLocked (s : SlotState) (asNext : Bool) : Except StageError (Nat × SlotState) :=
  if s.controlOpen then
    .ok (s.generationCount,
      { s.setGeneration s.generationCount {} with
        generationCount := s.generationCount + 1
        current := if asNext then s.current else some s.generationCount
        next := if asNext then some s.generationCount else s.next })
  else .error (.stageLifecycle "Stage control executor cannot accept a generation")

/-- The generation that `_reserve_locked` selects. -/
def selectGenerationLocked (s : SlotState) : Option Nat → Except StageError (Nat × SlotState)
  | some g =>
    if s.current ≠ some g ∧ s.next ≠ some g then
      .error (.stageLifecycle "Pinned Stage generation is no longer owned by the carrier")
    else if (s.generations g).state.admits then .ok (g, s)
    else .error (.stageLifecycle "Pinned Stage generation is already sealing")
  | none =>
    match s.current with
    | none => s.createGenerationLocked false
    | some c =>
      if (s.generations c).state.admits then .ok (c, s)
      else
        match s.next with
        | some n => .ok (n, s)
        | none => s.createGenerationLocked true

def addReservation (s : SlotState) (g : Nat) : SlotState :=
  s.setGeneration g
    { s.generations g with reservations := (s.generations g).reservations + 1 }

/-- `_reserve_locked`. -/
def reserveLocked (s : SlotState) (preferred : Option Nat) : Except StageError (Nat × SlotState) :=
  match s.selectGenerationLocked preferred with
  | .ok (g, s') => .ok (g, s'.addReservation g)
  | .error error => .error error

/-- `_retain_reservation`. -/
def retainReservation (s : SlotState) (g : Nat) : Except StageError SlotState :=
  if (s.generations g).state = .starting ∨ (s.generations g).state = .opened then
    .ok (s.addReservation g)
  else .error (.stageLifecycle "Cannot retain work after generation sealing")

/-- `_release_reservation` inside the lock; the last release goes on to seal the loop. -/
def releaseReservation (s : SlotState) (g : Nat) : SlotState :=
  let generation := s.generations g
  let last := generation.reservations = 1
  { s.setGeneration g { generation with
      reservations := generation.reservations - 1
      state := if last ∧ generation.state.admits then .sealing else generation.state } with
    sealPosts := if last ∧ generation.running then s.sealPosts ++ [g] else s.sealPosts }

/-! ## 3. Handles -/

/-- `StageHandle._retain_work`. -/
def retainWork (s : SlotState) (h : Nat) : SlotState :=
  s.setHandle h { s.handles h with pendingWork := (s.handles h).pendingWork + 1 }

/-- `StageHandle._release_work`. -/
def releaseWork (s : SlotState) (h : Nat) : SlotState :=
  s.setHandle h { s.handles h with pendingWork := (s.handles h).pendingWork - 1 }

/-- The tasks in `_owned_body_tasks`: registered in the body phase, not unregistered. -/
def ownsInBody (h : Nat) (task : CarrierTask) : Bool :=
  match task.retained with
  | some x => decide (x.handle = h ∧ x.phase = .body) && !task.released
  | none => false

def ownedBodyTasks (s : SlotState) (h : Nat) : List Nat :=
  (List.range s.tasks.length).filter fun t => s.tasks[t]?.any (ownsInBody h)

/-- `StageHandle.cancel` past its early returns: the request, and `_cancel_tasks` posted
    to the owner loop (a closed loop raises). -/
def cancel (s : SlotState) (h : Nat) : SlotState :=
  let s' := s.setHandle h { s.handles h with cancelRequested := true }
  match (s.handles h).ownerLoop with
  | some g =>
    if (s.generations g).running then
      s'.callSoon g (.cancelTasks ((s.handles h).ownerTask.toList ++ s.ownedBodyTasks h))
    else s'
  | none => s'

/-! ## 4. Submissions -/

/-- The execution context that `_run_submission` has set for a submission, or the one
    that `create_settlement_task` made of it. -/
def executionOf (s : SlotState) (m : Nat) (settlement : Bool) : Option ExecutionContext :=
  match s.submissions[m]? with
  | some submission =>
    if submission.begun then
      some ⟨m, submission.generation, submission.handle,
        if settlement then .settlement else submission.phase⟩
    else none
  | none => none

/-- The context that some code carries, by its submission. -/
def contextOf (s : SlotState) : Option (Nat × Bool) → Option ExecutionContext
  | none => none
  | some (m, settlement) => s.executionOf m settlement

def addSubmission (s : SlotState) (submission : Submission) : SlotState :=
  let handle := s.handles submission.handle
  { s.setHandle submission.handle { handle with
      bodySubmission :=
        if submission.phase = .body then some s.submissions.length
        else handle.bodySubmission } with
    submissions := s.submissions ++ [submission] }

/-- A submission is posted to the loop, or waits for it. -/
def deliver (s : SlotState) (g n : Nat) : SlotState :=
  if (s.generations g).running then s.callSoon g (.startSubmission n)
  else
    s.setGeneration g { s.generations g with
      pendingSubmissions := (s.generations g).pendingSubmissions ++ [n] }

/-- `_CarrierSlot.submit`; a refused reservation releases the work again. -/
def submit (s : SlotState) (preferred : Option Nat) (h : Nat) (phase : WorkPhase)
    (context : Option ExecutionContext) : SlotState :=
  match s.reserveLocked preferred with
  | .error _ => s
  | .ok (g, s') =>
    ((s'.retainWork h).addSubmission ⟨h, g, phase, context, none, false, false⟩).deliver g
      s.submissions.length

/-- `_task_factory`: a task created under an execution of this generation is retained for
    its handle, registered, and cancelled at once when the handle's body is cancelled. -/
def taskFactory (s : SlotState) (g : Nat) (context : Option ExecutionContext)
    (root : Option Nat) : Except StageError SlotState :=
  let t := s.tasks.length
  match context with
  | some x =>
    if x.generation = g then
      match s.retainReservation g with
      | .error error => .error error
      | .ok s' =>
        let cancelled := decide (x.phase = .body) && (s.handles x.handle).cancelRequested
        .ok { (s'.retainWork x.handle).callSoon g (.firstStep t) with
          tasks := s.tasks ++ [⟨g, some x, root, cancelled, false, false, false⟩] }
    else
      .ok { s.callSoon g (.firstStep t) with
        tasks := s.tasks ++ [⟨g, none, root, false, false, false, false⟩] }
  | none =>
    .ok { s.callSoon g (.firstStep t) with
      tasks := s.tasks ++ [⟨g, none, root, false, false, false, false⟩] }

/-- `_start_submission`: the root task is created in the context of the submission.  A
    factory that raises ends the callback. -/
def startSubmission (s : SlotState) (g n : Nat) : SlotState :=
  match s.submissions[n]? with
  | none => s
  | some submission =>
    match s.taskFactory g submission.context (some n) with
    | .error _ => s
    | .ok s' =>
      { s' with
        submissions := s.submissions.set n { submission with rootTask := some s.tasks.length } }

/-- `_run_submission` up to its `try`: the owner task is recorded from inside. -/
def beginSubmission (s : SlotState) (t n : Nat) : SlotState :=
  match s.submissions[n]? with
  | none => s
  | some submission =>
    let s' : SlotState :=
      { s with submissions := s.submissions.set n { submission with begun := true } }
    if submission.phase = .body then
      s'.setHandle submission.handle
        { s.handles submission.handle with
          ownerLoop := some submission.generation, ownerTask := some t }
    else s'

/-- The `finally` of `_run_submission`. -/
def finishSubmission (s : SlotState) (n : Nat) : SlotState :=
  match s.submissions[n]? with
  | none => s
  | some submission =>
    (releaseReservation
      { s with submissions := s.submissions.set n { submission with released := true } }
      submission.generation).releaseWork submission.handle

/-! ## 5. The loops -/

/-- A task is done: its done callback, if it has one, is queued. -/
def completeTask (s : SlotState) (t : Nat) (task : CarrierTask) : SlotState :=
  let s' : SlotState := { s with tasks := s.tasks.set t { task with done := true } }
  if task.retained.isSome then s'.callSoon task.generation (.descendantDone t) else s'

/-- The first step of a task; a cancelled one ends before its coroutine runs. -/
def firstStep (s : SlotState) (t : Nat) : SlotState :=
  match s.tasks[t]? with
  | none => s
  | some task =>
    if task.cancelled then s.completeTask t task
    else
      let s' : SlotState := { s with tasks := s.tasks.set t { task with begun := true } }
      match task.root with
      | some n => s'.beginSubmission t n
      | none => s'

/-- The last step of a task that has begun. -/
def endTask (s : SlotState) (t : Nat) (task : CarrierTask) : SlotState :=
  match task.root with
  | some n => (s.finishSubmission n).completeTask t task
  | none => s.completeTask t task

def cancelTask (s : SlotState) (t : Nat) : SlotState :=
  match s.tasks[t]? with
  | some task =>
    if task.done then s else { s with tasks := s.tasks.set t { task with cancelled := true } }
  | none => s

/-- `StageHandle._cancel_tasks`. -/
def cancelTasks (s : SlotState) (tasks : List Nat) : SlotState := tasks.foldl cancelTask s

/-- `_descendant_done`. -/
def descendantDone (s : SlotState) (t : Nat) : SlotState :=
  match s.tasks[t]? with
  | some task =>
    match task.retained with
    | some x =>
      (releaseReservation { s with tasks := s.tasks.set t { task with released := true } }
        task.generation).releaseWork x.handle
    | none => s
  | none => s

def runCall (s : SlotState) (g : Nat) : CarrierCall → SlotState
  | .startSubmission n => s.startSubmission g n
  | .firstStep t => s.firstStep t
  | .cancelTasks tasks => s.cancelTasks tasks
  | .descendantDone t => s.descendantDone t
  | .setSeal => s.setGeneration g { s.generations g with sealEvent := true }

/-- The loop takes the next call. -/
def loopStep (s : SlotState) (g : Nat) : Option SlotState :=
  match (s.generations g).ready with
  | [] => none
  | call :: rest =>
    some ((s.setGeneration g { s.generations g with ready := rest }).runCall g call)

/-! ## 6. The control worker -/

/-- `_run_generation` up to the end of its first critical section. -/
def runGeneration (s : SlotState) (g : Nat) : SlotState :=
  let generation := s.generations g
  s.setGeneration g { generation with
    running := true
    state := if generation.reservations = 0 then .sealing else .opened
    taken := generation.pendingSubmissions
    pendingSubmissions := []
    sealsOnRun := decide (generation.reservations = 0) }

/-- One `loop.call_soon` of `_run_generation`. -/
def queueTaken (s : SlotState) (g : Nat) : Option SlotState :=
  match (s.generations g).taken with
  | n :: rest =>
    some ((s.setGeneration g { s.generations g with taken := rest }).callSoon g
      (.startSubmission n))
  | [] =>
    if (s.generations g).sealsOnRun then
      some ((s.setGeneration g { s.generations g with sealsOnRun := false }).callSoon g .setSeal)
    else none

/-- The worker has queued everything and runs the loop. -/
def loopFree (s : SlotState) (g : Nat) : Bool :=
  (s.generations g).running && (s.generations g).taken.isEmpty && !(s.generations g).sealsOnRun

/-- The `finally` of `_run_generation`. -/
def closeGeneration (s : SlotState) (g : Nat) : SlotState :=
  { s.setGeneration g { s.generations g with running := false, state := .closed } with
    current := if s.current = some g then s.next else s.current
    next := if s.current = some g then none else s.next }

/-! ## 7. Events -/

def when (condition : Prop) [Decidable condition] (s : SlotState) : Option SlotState :=
  if condition then some s else none

end SlotState

inductive SlotEvent where
  /-- `submit` for a handle, from code with the execution context of a submission. -/
  | submit (preferred : Option Nat) (h : Nat) (phase : WorkPhase)
      (context : Option (Nat × Bool))
  | acquireLease (preferred : Option Nat)
  | releaseLease (g : Nat)
  | postSeal (g : Nat)
  | runGeneration (g : Nat)
  | queueTaken (g : Nat)
  | loopStep (g : Nat)
  /-- Code on a carrier loop creates a task, under a context it carries. -/
  | createTask (g : Nat) (context : Option (Nat × Bool))
  | endTask (t : Nat)
  | cancel (h : Nat)
  /-- The seal event is set and `run_until_complete` returns. -/
  | drain (g : Nat)
  | close (g : Nat)
  /-- `run_until_complete` raises; the `finally` closes the generation. -/
  | exit (g : Nat)
  | shutdown
deriving DecidableEq, Repr

namespace SlotState

/-- A context that is used belongs to a submission that has begun. -/
def contextExists (s : SlotState) (context : Option (Nat × Bool)) : Bool :=
  context.isNone || (s.contextOf context).isSome

def step (s : SlotState) : SlotEvent → Option SlotState
  | .submit preferred h phase context =>
    -- `go()` submits the body of a handle once; drains come later
    when (s.contextExists context ∧ (phase = .body → (s.handles h).bodySubmission = none))
      (s.submit preferred h phase (s.contextOf context))
  | .acquireLease preferred =>
    match s.reserveLocked preferred with
    | .ok (g, s') => some { s' with leases := Function.update s'.leases g (s'.leases g + 1) }
    | .error _ => some s
  | .releaseLease g =>
    when (0 < s.leases g)
      (releaseReservation { s with leases := Function.update s.leases g (s.leases g - 1) } g)
  | .postSeal g =>
    when (g ∈ s.sealPosts)
      (if (s.generations g).running then
        callSoon { s with sealPosts := s.sealPosts.erase g } g .setSeal
      else { s with sealPosts := s.sealPosts.erase g })
  | .runGeneration g =>
    -- the single control worker has finished the generations before
    when (s.current = some g ∧ (s.generations g).running = false ∧
      (s.generations g).state ≠ .closed) (s.runGeneration g)
  | .queueTaken g => if (s.generations g).running then s.queueTaken g else none
  | .loopStep g => if s.loopFree g then s.loopStep g else none
  | .createTask g context =>
    if s.loopFree g ∧ s.contextExists context then
      match s.taskFactory g (s.contextOf context) none with
      | .ok s' => some s'
      | .error _ => some s
    else none
  | .endTask t =>
    match s.tasks[t]? with
    | some task =>
      when (task.begun ∧ ¬ task.done ∧ s.loopFree task.generation) (s.endTask t task)
    | none => none
  | .cancel h => some (s.cancel h)
  | .drain g =>
    when (s.loopFree g ∧ (s.generations g).sealEvent)
      (s.setGeneration g { s.generations g with state := .draining })
  | .close g =>
    when (s.loopFree g ∧ (s.generations g).state = .draining) (s.closeGeneration g)
  | .exit g => when (s.loopFree g) (s.closeGeneration g)
  | .shutdown => some { s with controlOpen := false }

end SlotState

/-- All interleavings of one carrier slot. -/
def slotSystem : System SlotState SlotEvent where
  Init s := s = {}
  step := SlotState.step

end AgentlyStage
