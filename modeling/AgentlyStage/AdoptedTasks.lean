import Mathlib.Data.List.Perm.Basic
import Mathlib.Data.List.Nodup
import AgentlyStage.ScopeEpoch
import AgentlyStage.IdleWatch
import AgentlyStage.EpochCoherence
import AgentlyStage.Lib.Transition
import AgentlyStage.Lib.Counting

/-!
# The inventory of adopted tasks

`Stage.adopt`, `create_task`, `_adopted_task_done` and `wait_settled`, over the epochs of the
Stage.  `adopt` enters the task into the inventory under the scope lock and attaches
`_adopted_task_done` after it; a task that has finished by then has the callback queued on
its loop, and `call_soon` raises on a closed loop and, in debug mode, in a foreign thread.

The observer runs with the scope lock held, which its own thread may take again; like the
README it is assumed not to block.  A wait may wake at any time: it looks again.  Starting a
timer does not fail.  `loop.create_task` is its own step, after which `create_task` adopts
like everybody else.  The handling of errors by `wait_settled` after settlement is left out.
-/

namespace AgentlyStage

open Transition

/-! ## 1. Loops, calls and waits -/

inductive LoopMode where
  | stopped
  | running
  | closed
deriving DecidableEq, Repr

/-- An event loop as `call_soon` looks at it. -/
structure TaskLoop where
  mode : LoopMode := .running
  debug : Bool := false
deriving DecidableEq, Repr

/-- `call_soon` raises: the loop is closed, or it runs in another thread and is in debug
    mode. -/
def TaskLoop.callSoonRaises (loop : TaskLoop) (onLoop : Bool) : Bool :=
  decide (loop.mode = .closed) || (loop.debug && decide (loop.mode = .running) && !onLoop)

/-- A call of `adopt` that has left the lock; `runningLoop` is that of its thread. -/
structure AttachCall where
  task : Nat
  runningLoop : Option Nat
  shouldCancel : Bool
deriving DecidableEq, Repr

/-- A call of `wait_settled`. -/
inductive SettlementWait where
  | blocked
  | returned
  | timedOut
deriving DecidableEq, Repr

/-- Who takes the scope lock: the running observer again, or somebody else. -/
inductive LockUser where
  | observer
  | other
deriving DecidableEq, Repr

/-- How the call of the observer ends.  Its error goes to the exception handler of the loop,
    which lets only `SystemExit` and `KeyboardInterrupt` through. -/
inductive ObserverEnd where
  | returned
  | reported
  | handlerExits
deriving DecidableEq, Repr

/-- A Stage with its adopted tasks.  `adoptions`, `departed`, `observed` and `reported` are the
    history: what has entered and left the inventory, the calls of the observer and its
    errors; an orphan has been entered by an `adopt` that could not attach its callback. -/
structure InventoryState where
  epoch : EpochState
  /-- `_on_adopted_done is not None`. -/
  hasObserver : Bool
  adoptedTasks : List (Nat × String) := []
  loops : Nat → TaskLoop := fun _ => {}
  finished : List Nat := []
  cancelRequests : List Nat := []
  attaching : List AttachCall := []
  /-- The unfinished tasks with `_adopted_task_done` among their callbacks. -/
  attached : List Nat := []
  /-- The calls of `_adopted_task_done` that are queued on the loops. -/
  scheduled : List Nat := []
  observing : Option (Nat × String) := none
  waits : List SettlementWait := []
  adoptions : List (Nat × String) := []
  departed : List (Nat × String) := []
  observed : List (Nat × String) := []
  reported : List (Nat × String) := []
  orphans : List Nat := []

namespace InventoryState

variable (s : InventoryState)

/-- The scope lock can be taken. -/
def lockFree : LockUser → Bool
  | .observer => s.observing.isSome
  | .other => s.observing.isNone

def loopOf (t : Nat) : Option Nat := s.epoch.taskLoops[t]?

/-! ## 2. The operations -/

/-- The critical section of `adopt`.  A `repr` of an origin is written without escapes. -/
def adopt (site : CallSite) (t loop : Nat) (origin : String) :
    InventoryState × Option StageError :=
  if s.epoch.callAllowed site then
    match s.adoptedTasks.lookup t with
    | some existing =>
      if existing ≠ origin then
        (s, some (.stageLifecycle ("A Stage task cannot be adopted with two origins: '" ++
          existing ++ "' and '" ++ origin ++ "'")))
      else (s, none)
    | none =>
      match s.epoch.adopt site t loop with
      | (epoch, some error) => ({ s with epoch }, some error)
      | (epoch, none) =>
        ({ s with
            epoch
            adoptedTasks := s.adoptedTasks ++ [(t, origin)]
            adoptions := s.adoptions ++ [(t, origin)]
            attaching := s.attaching ++ [⟨t, site.runningLoop, epoch.cancelling⟩] }, none)
  else (s, some (.stageClosed "Cannot adopt work into a sealed Stage scope"))

/-- `task.cancel()` of an `adopt` in a Stage that is being cancelled. -/
def requestCancel (call : AttachCall) : List Nat :=
  if call.shouldCancel then s.cancelRequests ++ [call.task] else s.cancelRequests

/-- `task.add_done_callback(self._adopted_task_done)` raises. -/
def attachRaises (call : AttachCall) : Bool :=
  decide (call.task ∈ s.finished) && (s.loopOf call.task).any fun loop =>
    (s.loops loop).callSoonRaises (decide (call.runningLoop = some loop))

/-- The rest of `adopt`, outside the lock. -/
def attach (i : Nat) : Option InventoryState :=
  (s.attaching[i]?).map fun call =>
    let attaching := s.attaching.eraseIdx i
    if s.attachRaises call then
      -- the error leaves `adopt`, and the task stays in the inventory
      { s with attaching, orphans := s.orphans ++ [call.task] }
    else if call.task ∈ s.finished then
      { s with attaching, scheduled := s.scheduled ++ [call.task]
               cancelRequests := s.requestCancel call }
    else
      { s with attaching, attached := s.attached ++ [call.task]
               cancelRequests := s.requestCancel call }

/-- A task ends, in whatever way; its callbacks are queued. -/
def finish (t : Nat) : Option InventoryState :=
  if t < s.epoch.taskLoops.length ∧ t ∉ s.finished then
    some { s with
      finished := s.finished ++ [t]
      attached := s.attached.filter fun other => decide (other ≠ t)
      scheduled := s.scheduled ++ s.attached.filter fun other => decide (other = t) }
  else none

/-- The queue of a loop runs `_adopted_task_done`, up to the observer. -/
def adoptedTaskDone (t : Nat) : Option InventoryState :=
  if t ∈ s.scheduled ∧ s.lockFree .other ∧
      (s.loopOf t).any (fun loop => decide ((s.loops loop).mode = .running)) then
    let s' := { s with scheduled := s.scheduled.erase t }
    match s.adoptedTasks.lookup t with
    | none => some s'
    | some origin =>
      let left := { s' with
        adoptedTasks := s.adoptedTasks.filter fun entry => decide (entry.1 ≠ t)
        departed := s.departed ++ [(t, origin)] }
      if s.hasObserver then
        some { left with
          epoch := s.epoch.adoptedTaskDone t
          observing := some (t, origin)
          observed := s.observed ++ [(t, origin)] }
      else some { left with epoch := (s.epoch.adoptedTaskDone t).observed }
  else none

/-- `_adopted_task_done` after the observer. -/
def observerEnds (how : ObserverEnd) : Option InventoryState :=
  s.observing.map fun call =>
    match how with
    | .returned => { s with epoch := s.epoch.observed, observing := none }
    | .reported =>
      { s with epoch := s.epoch.observed, observing := none, reported := s.reported ++ [call] }
    | .handlerExits =>
      { s with
        epoch := { s.epoch with observing := s.epoch.observing - 1 }
        observing := none
        reported := s.reported ++ [call] }

/-- `wait_settled` past its guards, which refuse an observer whose Stage has work. -/
def waitSettled (user : LockUser) : Option InventoryState :=
  if s.lockFree user then
    if s.epoch.hasActiveWorkLocked then
      if user = .observer then none else some { s with waits := s.waits ++ [.blocked] }
    else some { s with waits := s.waits ++ [.returned] }
  else none

/-- A blocked wait wakes, with or without time left; at any time, whether or not it has been
    notified. -/
def wake (i : Nat) (timeLeft : Bool) : Option InventoryState :=
  if s.waits[i]? = some .blocked ∧ s.lockFree .other then
    if s.epoch.hasActiveWorkLocked then
      if timeLeft then some s else some { s with waits := s.waits.set i .timedOut }
    else some { s with waits := s.waits.set i .returned }
  else none

/-- `loop.create_task` of a `create_task` that has selected the backend. -/
def makeTask (i : Nat) : Option InventoryState :=
  (s.epoch.creating[i]?).map fun loop =>
    { s with epoch := { s.epoch with
        creating := s.epoch.creating.eraseIdx i
        taskLoops := s.epoch.taskLoops ++ [loop] } }

end InventoryState

/-- The events of an epoch that do not concern adopted tasks. -/
def EpochEvent.leavesInventory : EpochEvent → Bool
  | .adopt _ _ | .createTask _ _ | .adoptedTaskDone _ | .observed => false
  | _ => true

/-- The events of an epoch inside the scope lock. -/
def EpochEvent.takesLock : EpochEvent → Bool
  | .setOwnerTask _ | .createTaskFails _ | .newTask _ | .releaseLease _ | .advance _ => false
  | _ => true

inductive InventoryEvent where
  | epoch (user : LockUser) (e : EpochEvent)
  | makeTask (i : Nat)
  | finish (t : Nat)
  | loopChanges (loop : Nat) (status : TaskLoop)
  | adopt (user : LockUser) (site : CallSite) (t : Nat) (origin : String)
  | attach (i : Nat)
  | adoptedTaskDone (t : Nat)
  | observerEnds (how : ObserverEnd)
  | waitSettled (user : LockUser)
  | wake (i : Nat) (timeLeft : Bool)

namespace InventoryState

def step (s : InventoryState) : InventoryEvent → Option InventoryState
  | .epoch user e =>
    if e.leavesInventory ∧ (e.takesLock → s.lockFree user) then
      (s.epoch.step e).map fun epoch => { s with epoch }
    else none
  | .makeTask i => s.makeTask i
  | .finish t => s.finish t
  | .loopChanges loop status =>
    if (s.loops loop).mode = .closed ∧ status.mode ≠ .closed then none
    else some { s with loops := Function.update s.loops loop status }
  | .adopt user site t origin =>
    if s.lockFree user then (s.loopOf t).map fun loop => (s.adopt site t loop origin).1 else none
  | .attach i => s.attach i
  | .adoptedTaskDone t => s.adoptedTaskDone t
  | .observerEnds how => s.observerEnds how
  | .waitSettled user => s.waitSettled user
  | .wake i timeLeft => s.wake i timeLeft

end InventoryState

/-- All interleavings of one Stage with its adopted tasks. -/
def inventorySystem (configured : ConfiguredBackend) (idleTimeout : Option Nat)
    (hasObserver : Bool) : System InventoryState InventoryEvent where
  Init s := s =
    { epoch := { configured := configured, idleTimeout := idleTimeout }, hasObserver }
  step := InventoryState.step

/-! ## 3. What an epoch does to the inventory -/

namespace EpochState

variable {s s' s'' : EpochState} {site : CallSite}

/-- The active tasks stay, the known tasks keep their loops and the observer is where it
    was. -/
structure KeepsTasks (s s' : EpochState) : Prop where
  adoptedTasks : s'.adoptedTasks = s.adoptedTasks
  taskLoops : s.taskLoops <+: s'.taskLoops
  observing : s'.observing = s.observing

namespace KeepsTasks

theorem of_eq (htasks : s'.adoptedTasks = s.adoptedTasks) (hloops : s'.taskLoops = s.taskLoops)
    (hobserving : s'.observing = s.observing) : KeepsTasks s s' :=
  ⟨htasks, hloops ▸ List.prefix_refl _, hobserving⟩

theorem trans (h : KeepsTasks s s') (h' : KeepsTasks s' s'') : KeepsTasks s s'' :=
  ⟨h'.adoptedTasks.trans h.adoptedTasks, h.taskLoops.trans h'.taskLoops,
    h'.observing.trans h.observing⟩

theorem touch (s : EpochState) : KeepsTasks s s.touchLocked := by
  obtain ⟨activity, token, timer, timers, heq, -⟩ := touchLocked_frame s
  rw [heq]
  exact .of_eq rfl rfl rfl

theorem release (s : EpochState) : KeepsTasks s s.releaseBackendIfQuiescentLocked := by
  unfold releaseBackendIfQuiescentLocked
  split
  · exact .of_eq rfl rfl rfl
  · exact .of_eq rfl rfl rfl

theorem resolve {selected : BackendKind × Option Nat}
    (h : s.resolveBackendLocked site = .ok (selected, s')) : KeepsTasks s s' := by
  rcases resolveBackendLocked_spec h with ⟨-, -, rfl⟩ | ⟨-, -, -, rfl⟩ | ⟨-, -, -, rfl⟩
  · exact .of_eq rfl rfl rfl
  · exact .of_eq rfl rfl rfl
  · exact .of_eq rfl rfl rfl

theorem go (s : EpochState) (site : CallSite) : KeepsTasks s (s.go site).1 := by
  unfold EpochState.go
  split
  · split
    · exact .of_eq rfl rfl rfl
    · rename_i backend loop s' hresolve
      have hnew : KeepsTasks s' { s' with
          handles := s'.handles ++ [{ backendKind := backend, loop := loop }]
          activeHandles := insert s'.handles.length s'.activeHandles } := .of_eq rfl rfl rfl
      exact ((resolve hresolve).trans hnew).trans (touch _)
  · exact .of_eq rfl rfl rfl

theorem selectForTask (s : EpochState) (site : CallSite) (loop : Nat) :
    KeepsTasks s (s.selectForTask site loop).1 := by
  unfold EpochState.selectForTask
  split
  · split
    · exact .of_eq rfl rfl rfl
    · rename_i selected s' hresolve
      split
      · exact (resolve hresolve).trans (.of_eq rfl rfl rfl)
      · exact (resolve hresolve).trans (release s')
  · exact .of_eq rfl rfl rfl

theorem handleQuiescent (s : EpochState) (h : Nat) : KeepsTasks s (s.handleQuiescent h) := by
  have herase : KeepsTasks s { s with activeHandles := s.activeHandles.erase h } :=
    .of_eq rfl rfl rfl
  exact herase.trans (release _)

theorem lateCallback (s : EpochState) (site : CallSite) (h : Nat) (handle : EpochHandle)
    (loopRuns loopStillRuns : Bool) (start : DrainStart) :
    KeepsTasks s (s.lateCallback site h handle loopRuns loopStillRuns start).1 := by
  obtain ⟨backend, loop, lease, count, blocked, hepoch⟩ := lateEpoch_frame s site handle loopRuns
  have hlate : KeepsTasks s (s.lateEpoch site handle loopRuns).1 := by
    rw [hepoch]
    exact .of_eq rfl rfl rfl
  have hadmit : KeepsTasks s { (s.lateEpoch site handle loopRuns).1 with
      activeHandles := insert h (s.lateEpoch site handle loopRuns).1.activeHandles } :=
    hlate.trans (.of_eq rfl rfl rfl)
  rcases @lateCallback_cases s site h handle loopRuns loopStillRuns start with
    ⟨heq, -⟩ | ⟨heq, -, -⟩ | ⟨-, -, ⟨-, heq⟩ | ⟨-, heq⟩⟩
  · rw [heq]
    exact .of_eq rfl rfl rfl
  · rw [heq]
    exact hlate
  · rw [heq]
    exact hadmit
  · rw [heq]
    exact hadmit.trans (handleQuiescent _ h)

theorem fire {i : Nat} (h : s.fire i = some s') : KeepsTasks s s' := by
  obtain ⟨timer, -, -, -, -, ⟨rfl, -⟩ | ⟨timeout, -, -, -, -, ⟨-, rfl⟩ | ⟨-, rfl⟩⟩⟩ := fired_cases h
  · exact .of_eq rfl rfl rfl
  · exact .of_eq rfl rfl rfl
  · exact .of_eq rfl rfl rfl

/-- An event that does not concern adopted tasks leaves them. -/
theorem step {e : EpochEvent} (he : e.leavesInventory = true) (h : s.step e = some s') :
    KeepsTasks s s' := by
  cases EpochState.stepped h with
  | enter mode hopen => exact .of_eq rfl rfl rfl
  | go site => exact go s site
  | setOwnerTask h' => exact .of_eq rfl rfl rfl
  | handleQuiescent h' hlt => exact handleQuiescent s h'
  | lateCallback site h' handle loopRuns loopStillRuns start hget =>
    exact lateCallback s site h' handle loopRuns loopStillRuns start
  | selectForTask site loop hloop => exact selectForTask s site loop
  | createTaskFails i hlt => exact .of_eq rfl rfl rfl
  | createTask i loop site hget hloop => cases he
  | newTask loop => exact ⟨rfl, List.prefix_append _ _, rfl⟩
  | adopt site t loop hget => cases he
  | adoptedTaskDone t hmem => cases he
  | observed hobserving => cases he
  | ownedActivity => exact touch s
  | tick =>
    unfold EpochState.tick
    split
    · exact .of_eq rfl rfl rfl
    · exact touch s
  | cancelScope =>
    unfold EpochState.cancelScope
    split
    · exact .of_eq rfl rfl rfl
    · exact .of_eq rfl rfl rfl
  | sealScope => exact .of_eq rfl rfl rfl
  | fire i hfire => exact fire hfire
  | releaseLease lease hmem => exact .of_eq rfl rfl rfl
  | advance time => exact .of_eq rfl rfl rfl

theorem adoptedTaskDone (s : EpochState) (t : Nat) :
    KeepsTasks { s with
      adoptedTasks := s.adoptedTasks.erase t
      observing := s.observing + 1 } (s.adoptedTaskDone t) :=
  touch _

theorem observed (s : EpochState) :
    KeepsTasks { s with observing := s.observing - 1 } s.observed :=
  release _

/-- An adoption makes the task active when it succeeds. -/
theorem adopt (s : EpochState) (site : CallSite) (t loop : Nat) (ht : t ∉ s.adoptedTasks) :
    (s.adopt site t loop).2 = none ∧
        KeepsTasks { s with adoptedTasks := insert t s.adoptedTasks } (s.adopt site t loop).1 ∨
      (s.adopt site t loop).2 ≠ none ∧ KeepsTasks s (s.adopt site t loop).1 := by
  unfold EpochState.adopt
  split
  · split
    · exact Or.inr ⟨by simp, .of_eq rfl rfl rfl⟩
    · rename_i selected s' hresolve
      have hbound := resolve hresolve
      split
      · refine Or.inl ⟨rfl, ?_⟩
        have hnew : KeepsTasks { s with adoptedTasks := insert t s.adoptedTasks }
            { s' with adoptedTasks := insert t s'.adoptedTasks } :=
          ⟨congrArg (insert t) hbound.adoptedTasks, hbound.taskLoops, hbound.observing⟩
        exact hnew.trans (touch _)
      · exact Or.inr ⟨by simp, hbound.trans (release s')⟩
  · exact Or.inr ⟨by simp, .of_eq rfl rfl rfl⟩

end KeepsTasks

end EpochState

namespace InventoryState

variable {s s' : InventoryState} {t : Nat}

/-! ## 4. What the operations change -/

theorem attach_spec {i : Nat} (h : s.attach i = some s') :
    ∃ call, s.attaching[i]? = some call ∧
      ((s.attachRaises call = true ∧ s' = { s with
          attaching := s.attaching.eraseIdx i
          orphans := s.orphans ++ [call.task] }) ∨
        s.attachRaises call = false ∧ ∃ attached scheduled cancelRequests,
          s' = { s with
            attaching := s.attaching.eraseIdx i
            attached
            scheduled
            cancelRequests } ∧
          (call.task ∈ s.finished ∧ attached = s.attached ∧
              scheduled = s.scheduled ++ [call.task] ∨
            call.task ∉ s.finished ∧ attached = s.attached ++ [call.task] ∧
              scheduled = s.scheduled)) := by
  obtain ⟨call, hcall, rfl⟩ := Option.map_eq_some_iff.mp h
  refine ⟨call, hcall, ?_⟩
  split
  · rename_i hraises
    exact Or.inl ⟨hraises, rfl⟩
  · rename_i hattaches
    rw [Bool.not_eq_true] at hattaches
    refine Or.inr ⟨hattaches, ?_⟩
    split
    · rename_i hfinished
      exact ⟨_, _, _, rfl, Or.inl ⟨hfinished, rfl, rfl⟩⟩
    · rename_i hunfinished
      exact ⟨_, _, _, rfl, Or.inr ⟨hunfinished, rfl, rfl⟩⟩

/-- Only the waits change, and none returns while there is work or, if it was blocked, while
    the observer runs. -/
structure OnlyWaits (s s' : InventoryState) : Prop where
  frame : s' = { s with waits := s'.waits }
  returned : ∀ i : Nat, s.waits[i]? ≠ some SettlementWait.returned →
    s'.waits[i]? = some SettlementWait.returned →
    s.epoch.hasActiveWorkLocked = false ∧
      (s.waits[i]? = some SettlementWait.blocked → s.observing = none)

theorem waitSettled_spec {user : LockUser} (h : s.waitSettled user = some s') :
    s.OnlyWaits s' := by
  unfold waitSettled at h
  split at h
  · split at h
    · split at h
      · cases h
      · cases h
        refine ⟨rfl, fun i hnot hreturned => absurd hreturned ?_⟩
        rcases Nat.lt_or_ge i s.waits.length with hi | hi
        · rwa [List.getElem?_append_left hi]
        · rw [List.getElem?_append_right hi]
          intro heq
          cases List.mem_singleton.mp (List.mem_of_getElem? heq)
    · rename_i hidle
      rw [Bool.not_eq_true] at hidle
      cases h
      refine ⟨rfl, fun i hnot hreturned => ⟨hidle, fun hblocked => absurd hreturned ?_⟩⟩
      change (s.waits ++ [_])[i]? ≠ _
      rw [List.getElem?_append_left (List.getElem?_eq_some_iff.mp hblocked).1, hblocked]
      simp
  · cases h

theorem wake_spec {i : Nat} {timeLeft : Bool} (h : s.wake i timeLeft = some s') :
    s.OnlyWaits s' := by
  unfold wake at h
  split at h
  · rename_i hguard
    split at h
    · split at h
      · cases h
        exact ⟨rfl, fun j hnot hreturned => absurd hreturned hnot⟩
      · cases h
        refine ⟨rfl, fun j hnot hreturned => absurd hreturned ?_⟩
        rcases eq_or_ne j i with rfl | hne
        · have hi := (List.getElem?_eq_some_iff.mp hguard.1).1
          simp [List.getElem?_set_self hi]
        · rwa [List.getElem?_set_ne hne.symm]
    · rename_i hidle
      rw [Bool.not_eq_true] at hidle
      cases h
      exact ⟨rfl, fun j _ _ => ⟨hidle, fun _ => Option.isNone_iff_eq_none.mp hguard.2⟩⟩
  · cases h

/-! ## 5. The pairing of entries and callbacks -/

/-- The tasks in the inventory. -/
def keys (s : InventoryState) : List Nat := s.adoptedTasks.map Prod.fst

/-- The pending calls of `_adopted_task_done`: about to be attached, attached, queued. -/
def pending (s : InventoryState) : List Nat :=
  s.attaching.map AttachCall.task ++ (s.attached ++ s.scheduled)

theorem lookup_eq_none : s.adoptedTasks.lookup t = none ↔ t ∉ s.keys := by
  rw [List.lookup_eq_none_iff, keys, List.mem_map, not_exists]
  constructor
  · rintro h ⟨t', origin⟩ ⟨hmem, rfl⟩
    simpa using h _ hmem
  · intro h entry hmem
    have hne : t ≠ entry.1 := fun heq => h entry ⟨hmem, heq.symm⟩
    simpa using hne

theorem mem_of_lookup {origin : String} (h : s.adoptedTasks.lookup t = some origin) :
    (t, origin) ∈ s.adoptedTasks := by
  obtain ⟨before, after, heq, -⟩ := List.lookup_eq_some_iff.mp h
  rw [heq]
  exact List.mem_append_right _ List.mem_cons_self

/-- Popping a task takes its only entry. -/
theorem pop_perm {entries : List (Nat × String)} {origin : String}
    (hnodup : (entries.map Prod.fst).Nodup) (hmem : (t, origin) ∈ entries) :
    ((t, origin) :: entries.filter fun entry => decide (entry.1 ≠ t)).Perm entries := by
  induction entries with
  | nil => cases hmem
  | cons entry entries ih =>
    rw [List.map_cons, List.nodup_cons] at hnodup
    rcases List.mem_cons.mp hmem with rfl | hmem
    · have hrest : (entries.filter fun entry => decide (entry.1 ≠ t)) = entries := by
        refine List.filter_eq_self.mpr fun entry hentry => decide_eq_true fun heq => ?_
        exact hnodup.1 (List.mem_map.mpr ⟨entry, hentry, heq⟩)
      rw [List.filter_cons_of_neg (by simp), hrest]
    · have hne : entry.1 ≠ t := by
        rintro rfl
        exact hnodup.1 (List.mem_map.mpr ⟨_, hmem, rfl⟩)
      rw [List.filter_cons, if_pos (decide_eq_true hne)]
      exact (List.Perm.swap _ _ _).trans ((ih hnodup.2 hmem).cons entry)

/-- The inventory agrees with the epoch, each entry has one callback to come unless it is an
    orphan, and what has been adopted has left or is there. -/
structure InventoryInv (s : InventoryState) : Prop where
  active : ∀ t, t ∈ s.epoch.adoptedTasks ↔ t ∈ s.keys
  nodup : s.keys.Nodup
  known : ∀ t ∈ s.keys, t < s.epoch.taskLoops.length
  paired : (s.pending ++ s.orphans).Perm s.keys
  account : (s.departed ++ s.adoptedTasks).Perm s.adoptions
  observed : s.observed = if s.hasObserver then s.departed else []
  unfinished : ∀ t ∈ s.attached, t ∉ s.finished
  queued : ∀ t ∈ s.scheduled, t ∈ s.finished
  busy : s.epoch.observing = if s.observing.isSome then 1 else 0

namespace InventoryInv

theorem init (configured : ConfiguredBackend) (idleTimeout : Option Nat) (hasObserver : Bool) :
    InventoryInv { epoch := { configured := configured, idleTimeout := idleTimeout },
                   hasObserver } :=
  ⟨by simp [keys], List.nodup_nil, by simp [keys], List.Perm.refl _, List.Perm.refl _,
    by simp, by simp, by simp, by simp⟩

/-- Only the epoch changes, and it keeps its tasks. -/
theorem withEpoch (hs : s.InventoryInv) {epoch : EpochState}
    (h : EpochState.KeepsTasks s.epoch epoch) : InventoryInv { s with epoch } := by
  refine ⟨fun t => ?_, hs.nodup, fun t ht => ?_, hs.paired, hs.account, hs.observed,
    hs.unfinished, hs.queued, h.observing.trans hs.busy⟩
  · rw [h.adoptedTasks]
    exact hs.active t
  · exact (hs.known t ht).trans_le h.taskLoops.length_le

/-- The pending callbacks move on. -/
theorem withPending (hs : s.InventoryInv) {loops : Nat → TaskLoop}
    {finished cancelRequests attached scheduled orphans : List Nat} {attaching : List AttachCall}
    {waits : List SettlementWait}
    (hpending : ((attaching.map AttachCall.task ++ (attached ++ scheduled)) ++ orphans).Perm
      (s.pending ++ s.orphans))
    (hunfinished : ∀ t ∈ attached, t ∉ finished) (hqueued : ∀ t ∈ scheduled, t ∈ finished) :
    InventoryInv { s with
      loops
      finished
      cancelRequests
      attaching
      attached
      scheduled
      waits
      orphans } :=
  ⟨hs.active, hs.nodup, hs.known, hpending.trans hs.paired, hs.account, hs.observed, hunfinished,
    hqueued, hs.busy⟩

/-- What a call of `adopt` does: it refuses the task or finds it there, or enters it. -/
theorem adopt_spec (hs : s.InventoryInv) (site : CallSite) (t loop : Nat) (origin : String) :
    (∃ epoch, EpochState.KeepsTasks s.epoch epoch ∧
      (s.adopt site t loop origin).1 = { s with epoch } ∧
      ((s.adopt site t loop origin).2 = none → (t, origin) ∈ s.adoptedTasks)) ∨
    ∃ epoch call, t ∉ s.keys ∧ call.task = t ∧
      EpochState.KeepsTasks
        { s.epoch with adoptedTasks := insert t s.epoch.adoptedTasks } epoch ∧
      (s.adopt site t loop origin).1 = { s with
        epoch
        adoptedTasks := s.adoptedTasks ++ [(t, origin)]
        adoptions := s.adoptions ++ [(t, origin)]
        attaching := s.attaching ++ [call] } := by
  unfold InventoryState.adopt
  split
  · split
    · rename_i existing hlookup
      split
      · exact Or.inl ⟨s.epoch, .of_eq rfl rfl rfl, rfl, by simp⟩
      · rename_i hsame
        rw [ne_eq, Decidable.not_not] at hsame
        exact Or.inl ⟨s.epoch, .of_eq rfl rfl rfl, rfl, fun _ => hsame ▸ mem_of_lookup hlookup⟩
    · rename_i hlookup
      have hnew : t ∉ s.keys := lookup_eq_none.mp hlookup
      have hcases := EpochState.KeepsTasks.adopt s.epoch site t loop
        (fun h => hnew ((hs.active t).mp h))
      split
      · rename_i epoch error hadopt
        rw [hadopt] at hcases
        rcases hcases with ⟨hnone, -⟩ | ⟨-, hkeeps⟩
        · cases hnone
        · exact Or.inl ⟨epoch, hkeeps, rfl, by simp⟩
      · rename_i epoch hadopt
        rw [hadopt] at hcases
        rcases hcases with ⟨-, hkeeps⟩ | ⟨hsome, -⟩
        · exact Or.inr ⟨epoch, _, hnew, rfl, hkeeps, rfl⟩
        · exact absurd rfl hsome
  · exact Or.inl ⟨s.epoch, .of_eq rfl rfl rfl, rfl, by simp⟩

/-- The task enters the inventory together with the call that is to attach its callback. -/
theorem enters (hs : s.InventoryInv) {epoch : EpochState} {call : AttachCall} {loop : Nat}
    (origin : String) (hloop : s.loopOf t = some loop) (hnew : t ∉ s.keys) (hcall : call.task = t)
    (hepoch : EpochState.KeepsTasks
      { s.epoch with adoptedTasks := insert t s.epoch.adoptedTasks } epoch) :
    InventoryInv { s with
      epoch
      adoptedTasks := s.adoptedTasks ++ [(t, origin)]
      adoptions := s.adoptions ++ [(t, origin)]
      attaching := s.attaching ++ [call] } := by
  have hkeys : (s.adoptedTasks ++ [(t, origin)]).map Prod.fst = s.keys ++ [t] := List.map_append
  have hlength : s.epoch.taskLoops.length ≤ epoch.taskLoops.length := hepoch.taskLoops.length_le
  constructor
  · intro u
    change u ∈ epoch.adoptedTasks ↔ u ∈ (s.adoptedTasks ++ [(t, origin)]).map Prod.fst
    rw [hkeys, hepoch.adoptedTasks, Finset.mem_insert, hs.active, List.mem_append,
      List.mem_singleton, or_comm]
  · rw [keys, hkeys]
    refine List.nodup_append'.mpr ⟨hs.nodup, List.nodup_singleton t, fun u hu hut => ?_⟩
    exact hnew (List.mem_singleton.mp hut ▸ hu)
  · intro u hu
    rw [keys, hkeys] at hu
    rcases List.mem_append.mp hu with hu | hu
    · exact (hs.known u hu).trans_le hlength
    · rw [List.mem_singleton.mp hu]
      exact (List.getElem?_eq_some_iff.mp hloop).1.trans_le hlength
  · rw [keys, hkeys]
    refine List.Perm.trans (List.perm_iff_count.mpr fun u => ?_) (hs.paired.append_right [t])
    simp only [pending, List.map_append, List.map_cons, List.map_nil, hcall, List.count_append]
    omega
  · rw [← List.append_assoc]
    exact hs.account.append_right _
  · exact hs.observed
  · exact hs.unfinished
  · exact hs.queued
  · exact hepoch.observing.trans hs.busy

theorem adopt (hs : s.InventoryInv) (site : CallSite) {loop : Nat} (origin : String)
    (hloop : s.loopOf t = some loop) : (s.adopt site t loop origin).1.InventoryInv := by
  rcases hs.adopt_spec site t loop origin with
    ⟨epoch, hkeeps, heq, -⟩ | ⟨epoch, call, hnew, hcall, hkeeps, heq⟩
  · rw [heq]
    exact hs.withEpoch hkeeps
  · rw [heq]
    exact hs.enters origin hloop hnew hcall hkeeps

theorem attach (hs : s.InventoryInv) {i : Nat} (h : s.attach i = some s') :
    s'.InventoryInv := by
  obtain ⟨call, hcall, hattach⟩ := attach_spec h
  -- the call is taken out of those that are to attach, and its task goes elsewhere
  have htake : ([call.task] ++ (s.attaching.eraseIdx i).map AttachCall.task).Perm
      (s.attaching.map AttachCall.task) := by
    obtain ⟨hi, rfl⟩ := List.getElem?_eq_some_iff.mp hcall
    exact (List.getElem_cons_eraseIdx_perm hi).map AttachCall.task
  have hcount := fun u => htake.count_eq u
  simp only [List.count_append] at hcount
  rcases hattach with ⟨-, rfl⟩ |
    ⟨-, attached, scheduled, cancelRequests, rfl, ⟨hfinished, rfl, rfl⟩ | ⟨hunfinished, rfl, rfl⟩⟩
  · refine hs.withPending (List.perm_iff_count.mpr fun u => ?_)
      hs.unfinished hs.queued
    simp only [pending, List.count_append]
    have := hcount u
    omega
  · refine hs.withPending (List.perm_iff_count.mpr fun u => ?_)
      hs.unfinished fun t ht => ?_
    · simp only [pending, List.count_append]
      have := hcount u
      omega
    · rcases List.mem_append.mp ht with ht | ht
      · exact hs.queued t ht
      · rw [List.mem_singleton.mp ht]
        exact hfinished
  · refine hs.withPending (List.perm_iff_count.mpr fun u => ?_)
      (fun t ht => ?_) hs.queued
    · simp only [pending, List.count_append]
      have := hcount u
      omega
    · rcases List.mem_append.mp ht with ht | ht
      · exact hs.unfinished t ht
      · rw [List.mem_singleton.mp ht]
        exact hunfinished

theorem finish (hs : s.InventoryInv) (h : s.finish t = some s') : s'.InventoryInv := by
  unfold InventoryState.finish at h
  split at h
  · cases h
    refine hs.withPending (List.perm_iff_count.mpr fun u => ?_)
      (fun u hu => ?_) fun u hu => ?_
    · have hsplit := (List.filter_append_perm (fun other => decide (other = t))
        s.attached).count_eq u
      simp only [List.count_append, ← decide_not] at hsplit
      simp only [pending, List.count_append, ne_eq]
      omega
    · obtain ⟨hmem, hne⟩ := List.mem_filter.mp hu
      rw [decide_eq_true_eq] at hne
      intro hfinished
      rcases List.mem_append.mp hfinished with hfinished | hfinished
      · exact hs.unfinished u hmem hfinished
      · exact hne (List.mem_singleton.mp hfinished)
    · rcases List.mem_append.mp hu with hu | hu
      · exact List.mem_append_left _ (hs.queued u hu)
      · have heq := (List.mem_filter.mp hu).2
        rw [decide_eq_true_eq] at heq
        exact List.mem_append_right _ (List.mem_singleton.mpr heq)
  · cases h

/-- A queued call finds its task in the inventory. -/
theorem lookup_scheduled (hs : s.InventoryInv) (ht : t ∈ s.scheduled) :
    ∃ origin, s.adoptedTasks.lookup t = some origin := by
  have hpending : t ∈ s.pending ++ s.orphans :=
    List.mem_append_left _ (List.mem_append_right _ (List.mem_append_right _ ht))
  have hkey : t ∈ s.keys := hs.paired.subset hpending
  exact Option.ne_none_iff_exists'.mp fun hnone => lookup_eq_none.mp hnone hkey

/-- The task leaves the inventory together with its callback. -/
theorem leaves (hs : s.InventoryInv) {origin : String} (ht : t ∈ s.scheduled)
    (hlookup : s.adoptedTasks.lookup t = some origin) {epoch : EpochState}
    {observing : Option (Nat × String)} {observed : List (Nat × String)}
    (hepoch : EpochState.KeepsTasks
      { s.epoch with
        adoptedTasks := s.epoch.adoptedTasks.erase t
        observing := if observing.isSome then 1 else 0 } epoch)
    (hobserved : observed = if s.hasObserver then s.departed ++ [(t, origin)] else []) :
    InventoryInv { s with
      epoch
      observing
      observed
      scheduled := s.scheduled.erase t
      adoptedTasks := s.adoptedTasks.filter fun entry => decide (entry.1 ≠ t)
      departed := s.departed ++ [(t, origin)] } := by
  have hpop := pop_perm hs.nodup (mem_of_lookup hlookup)
  have hkeys : (t :: (s.adoptedTasks.filter fun entry => decide (entry.1 ≠ t)).map Prod.fst).Perm
      s.keys := hpop.map Prod.fst
  have hnodup := hkeys.nodup_iff.mpr hs.nodup
  constructor
  · intro u
    rw [hepoch.adoptedTasks, Finset.mem_erase, hs.active, ← hkeys.mem_iff, List.mem_cons]
    constructor
    · rintro ⟨hne, heq | hmem⟩
      · exact absurd heq hne
      · exact hmem
    · intro hmem
      exact ⟨fun heq => (List.nodup_cons.mp hnodup).1 (heq ▸ hmem), Or.inr hmem⟩
  · exact (List.nodup_cons.mp hnodup).2
  · intro u hu
    have hmem : u ∈ s.keys := hkeys.subset (List.mem_cons_of_mem _ hu)
    exact (hs.known u hmem).trans_le hepoch.taskLoops.length_le
  · refine (List.perm_cons t).mp (List.Perm.trans ?_ hkeys.symm)
    refine List.Perm.trans (List.perm_iff_count.mpr fun u => ?_) hs.paired
    have herase := (List.perm_cons_erase ht).count_eq u
    simp only [List.count_append, List.count_cons, pending] at herase ⊢
    omega
  · refine List.Perm.trans ?_ hs.account
    rw [List.append_assoc]
    exact hpop.append_left _
  · exact hobserved
  · exact hs.unfinished
  · exact fun u hu => hs.queued u (List.mem_of_mem_erase hu)
  · exact hepoch.observing

/-- What the callback does: the task leaves, and the observer is called with its origin. -/
theorem adoptedTaskDone_spec (hs : s.InventoryInv) (h : s.adoptedTaskDone t = some s') :
    ∃ origin epoch observing, t ∈ s.scheduled ∧ s.adoptedTasks.lookup t = some origin ∧
      EpochState.KeepsTasks
        { s.epoch with
          adoptedTasks := s.epoch.adoptedTasks.erase t
          observing := if observing.isSome then 1 else 0 } epoch ∧
      (s.hasObserver = true → observing = some (t, origin)) ∧
      s' = { s with
        epoch
        observing
        observed := if s.hasObserver then s.observed ++ [(t, origin)] else s.observed
        scheduled := s.scheduled.erase t
        adoptedTasks := s.adoptedTasks.filter fun entry => decide (entry.1 ≠ t)
        departed := s.departed ++ [(t, origin)] } := by
  unfold InventoryState.adoptedTaskDone at h
  split at h
  · rename_i hguard
    obtain ⟨hscheduled, hfree, -⟩ := hguard
    obtain ⟨origin, hlookup⟩ := hs.lookup_scheduled hscheduled
    simp only [hlookup] at h
    have hkeeps := EpochState.KeepsTasks.adoptedTaskDone s.epoch t
    have hbusy := hs.busy
    rw [Option.isNone_iff_eq_none.mp hfree] at hbusy
    rw [hbusy] at hkeeps
    split at h
    · rename_i hhas
      cases h
      refine ⟨origin, _, some (t, origin), hscheduled, hlookup, hkeeps, fun _ => rfl, ?_⟩
      rw [if_pos hhas]
    · rename_i hnone
      cases h
      have hobserved := EpochState.KeepsTasks.observed (s.epoch.adoptedTaskDone t)
      rw [hkeeps.observing] at hobserved
      refine ⟨origin, (s.epoch.adoptedTaskDone t).observed, s.observing, hscheduled, hlookup, ?_,
        fun hhas => absurd hhas hnone, ?_⟩
      · rw [Option.isNone_iff_eq_none.mp hfree]
        exact ⟨hobserved.adoptedTasks.trans hkeeps.adoptedTasks,
          hkeeps.taskLoops.trans hobserved.taskLoops, hobserved.observing⟩
      · rw [if_neg hnone]
  · cases h

theorem adoptedTaskDone (hs : s.InventoryInv) (h : s.adoptedTaskDone t = some s') :
    s'.InventoryInv := by
  obtain ⟨origin, epoch, observing, hscheduled, hlookup, hkeeps, -, rfl⟩ :=
    hs.adoptedTaskDone_spec h
  refine hs.leaves hscheduled hlookup hkeeps ?_
  rw [hs.observed]
  split
  · rfl
  · rfl

/-- The observer has ended, and its thread leaves the lock. -/
theorem observerDone (hs : s.InventoryInv) {epoch : EpochState} (reported : List (Nat × String))
    (h : EpochState.KeepsTasks { s.epoch with observing := 0 } epoch) :
    InventoryInv { s with epoch, observing := none, reported } :=
  ⟨fun t => h.adoptedTasks ▸ hs.active t, hs.nodup,
    fun t ht => (hs.known t ht).trans_le h.taskLoops.length_le, hs.paired, hs.account, hs.observed,
    hs.unfinished, hs.queued, h.observing⟩

theorem observerEnds (hs : s.InventoryInv) {how : ObserverEnd}
    (h : s.observerEnds how = some s') : s'.InventoryInv := by
  obtain ⟨call, hcall, rfl⟩ := Option.map_eq_some_iff.mp h
  have hbusy := hs.busy
  rw [hcall, Option.isSome_some, if_pos rfl] at hbusy
  have hkeeps := EpochState.KeepsTasks.observed s.epoch
  rw [hbusy] at hkeeps
  cases how with
  | returned => exact hs.observerDone _ hkeeps
  | reported => exact hs.observerDone _ hkeeps
  | handlerExits => exact hs.observerDone _ (.of_eq rfl rfl (by rw [hbusy]))

theorem onlyWaits (hs : s.InventoryInv) (h : s.OnlyWaits s') : s'.InventoryInv := by
  rw [h.frame]
  exact hs.withPending (List.Perm.refl _) hs.unfinished hs.queued

theorem step {e : InventoryEvent} (hs : s.InventoryInv) (h : s.step e = some s') :
    s'.InventoryInv := by
  cases e with
  | epoch user e =>
    simp only [InventoryState.step] at h
    split at h
    · rename_i hguard
      obtain ⟨epoch, hstep, rfl⟩ := Option.map_eq_some_iff.mp h
      exact hs.withEpoch (EpochState.KeepsTasks.step hguard.1 hstep)
    · cases h
  | makeTask i =>
    obtain ⟨loop, -, rfl⟩ := Option.map_eq_some_iff.mp h
    exact hs.withEpoch ⟨rfl, List.prefix_append _ _, rfl⟩
  | finish t => exact hs.finish h
  | loopChanges loop status =>
    simp only [InventoryState.step] at h
    split at h
    · cases h
    · cases h
      exact hs.withPending (List.Perm.refl _) hs.unfinished hs.queued
  | adopt user site t origin =>
    simp only [InventoryState.step] at h
    split at h
    · obtain ⟨loop, hloop, rfl⟩ := Option.map_eq_some_iff.mp h
      exact hs.adopt site origin hloop
    · cases h
  | attach i => exact hs.attach h
  | adoptedTaskDone t => exact hs.adoptedTaskDone h
  | observerEnds how => exact hs.observerEnds h
  | waitSettled user => exact hs.onlyWaits (waitSettled_spec h)
  | wake i timeLeft => exact hs.onlyWaits (wake_spec h)

/-- The pairing holds along every run. -/
theorem reachable {configured : ConfiguredBackend} {idleTimeout : Option Nat} {hasObserver : Bool}
    (hs : (inventorySystem configured idleTimeout hasObserver).Reachable s) : s.InventoryInv :=
  hs.invariant (I := InventoryInv)
    (fun s hinit => by rw [show s = _ from hinit]; exact init configured idleTimeout hasObserver)
    fun _ _ _ hs _ hstep => hs.step hstep

end InventoryInv

/-! ## 6. What a step does -/

/-- The step is the rest of an `adopt` of `t` that cannot attach the callback. -/
def LosesCallback (s : InventoryState) (e : InventoryEvent) (t : Nat) : Prop :=
  ∃ i call, e = .attach i ∧ s.attaching[i]? = some call ∧ call.task = t ∧
    s.attachRaises call = true

/-- What a step does to the inventory, the observer, the waits and the orphans. -/
inductive Move (s : InventoryState) : InventoryEvent → InventoryState → Prop
  | keeps {e : InventoryEvent} {s' : InventoryState}
      (tasks : s'.adoptedTasks = s.adoptedTasks) (observed : s'.observed = s.observed)
      (waits : s'.waits = s.waits) (orphans : s'.orphans = s.orphans)
      (notDone : ∀ t, e ≠ .adoptedTaskDone t) (notLost : ∀ t, ¬ s.LosesCallback e t) : Move s e s'
  | waits {e : InventoryEvent} {s' : InventoryState} (only : s.OnlyWaits s')
      (notDone : ∀ t, e ≠ .adoptedTaskDone t) (notLost : ∀ t, ¬ s.LosesCallback e t) : Move s e s'
  | enters {user : LockUser} {site : CallSite} {t : Nat} {origin : String} {epoch : EpochState}
      {call : AttachCall} (new : t ∉ s.keys) :
      Move s (.adopt user site t origin) { s with
        epoch
        adoptedTasks := s.adoptedTasks ++ [(t, origin)]
        adoptions := s.adoptions ++ [(t, origin)]
        attaching := s.attaching ++ [call] }
  | leaves {t : Nat} {origin : String} {epoch : EpochState} {observing : Option (Nat × String)}
      (scheduled : t ∈ s.scheduled) (lookup : s.adoptedTasks.lookup t = some origin) :
      Move s (.adoptedTaskDone t) { s with
        epoch
        observing
        observed := if s.hasObserver then s.observed ++ [(t, origin)] else s.observed
        scheduled := s.scheduled.erase t
        adoptedTasks := s.adoptedTasks.filter fun entry => decide (entry.1 ≠ t)
        departed := s.departed ++ [(t, origin)] }
  | loses {i : Nat} {call : AttachCall} (hcall : s.attaching[i]? = some call)
      (raises : s.attachRaises call = true) :
      Move s (.attach i) { s with
        attaching := s.attaching.eraseIdx i
        orphans := s.orphans ++ [call.task] }

/-- Only an attachment loses a callback. -/
theorem not_loses {e : InventoryEvent} (he : ∀ i, e ≠ .attach i) (t : Nat) :
    ¬ s.LosesCallback e t := by
  rintro ⟨i, call, rfl, -, -, -⟩
  exact he i rfl

theorem move {e : InventoryEvent} (hs : s.InventoryInv) (h : s.step e = some s') :
    s.Move e s' := by
  cases e with
  | epoch user e =>
    simp only [InventoryState.step] at h
    split at h
    · obtain ⟨epoch, -, rfl⟩ := Option.map_eq_some_iff.mp h
      exact .keeps rfl rfl rfl rfl (by simp) (not_loses (by simp))
    · cases h
  | makeTask i =>
    obtain ⟨loop, -, rfl⟩ := Option.map_eq_some_iff.mp h
    exact .keeps rfl rfl rfl rfl (by simp) (not_loses (by simp))
  | finish t =>
    simp only [InventoryState.step, InventoryState.finish] at h
    split at h
    · cases h
      exact .keeps rfl rfl rfl rfl (by simp) (not_loses (by simp))
    · cases h
  | loopChanges loop status =>
    simp only [InventoryState.step] at h
    split at h
    · cases h
    · cases h
      exact .keeps rfl rfl rfl rfl (by simp) (not_loses (by simp))
  | adopt user site t origin =>
    simp only [InventoryState.step] at h
    split at h
    · obtain ⟨loop, -, rfl⟩ := Option.map_eq_some_iff.mp h
      rcases hs.adopt_spec site t loop origin with
        ⟨epoch, -, heq, -⟩ | ⟨epoch, call, hnew, -, -, heq⟩
      · rw [heq]
        exact .keeps rfl rfl rfl rfl (by simp) (not_loses (by simp))
      · rw [heq]
        exact .enters hnew
    · cases h
  | attach i =>
    obtain ⟨call, hcall,
      ⟨hraises, rfl⟩ | ⟨hattaches, attached, scheduled, cancelRequests, rfl, -⟩⟩ := attach_spec h
    · exact .loses hcall hraises
    · refine .keeps rfl rfl rfl rfl (by simp) ?_
      rintro t ⟨j, call', heq, hcall', -, hraises⟩
      cases heq
      rw [hcall] at hcall'
      cases hcall'
      rw [hattaches] at hraises
      cases hraises
  | adoptedTaskDone t =>
    obtain ⟨origin, epoch, observing, hscheduled, hlookup, -, -, rfl⟩ :=
      hs.adoptedTaskDone_spec h
    exact .leaves hscheduled hlookup
  | observerEnds how =>
    obtain ⟨call, -, rfl⟩ := Option.map_eq_some_iff.mp h
    cases how with
    | returned => exact .keeps rfl rfl rfl rfl (by simp) (not_loses (by simp))
    | reported => exact .keeps rfl rfl rfl rfl (by simp) (not_loses (by simp))
    | handlerExits => exact .keeps rfl rfl rfl rfl (by simp) (not_loses (by simp))
  | waitSettled user => exact .waits (waitSettled_spec h) (by simp) (not_loses (by simp))
  | wake i timeLeft => exact .waits (wake_spec h) (by simp) (not_loses (by simp))

/-- There is work while a task is in the inventory. -/
theorem InventoryInv.adoptedTasks_of_idle (hs : s.InventoryInv)
    (hidle : s.epoch.hasActiveWorkLocked = false) : s.adoptedTasks = [] := by
  refine List.eq_nil_iff_forall_not_mem.mpr fun entry hmem => ?_
  have hactive : entry.1 ∈ s.epoch.adoptedTasks :=
    (hs.active _).mpr (List.mem_map.mpr ⟨entry, hmem, rfl⟩)
  rw [EpochState.hasActiveWorkLocked_of_task hactive] at hidle
  cases hidle

/-- A wait returns only when the inventory is empty. -/
theorem Move.returned {e : InventoryEvent} (hmove : s.Move e s') (hs : s.InventoryInv) {i : Nat}
    (hnot : s.waits[i]? ≠ some .returned) (hreturned : s'.waits[i]? = some .returned) :
    s.adoptedTasks = [] ∧ s' = { s with waits := s'.waits } ∧
      (s.waits[i]? = some .blocked → s.observing = none) := by
  cases hmove with
  | keeps tasks observed waits orphans notDone notLost => exact absurd (waits ▸ hreturned) hnot
  | waits only notDone notLost =>
    obtain ⟨hidle, hfree⟩ := only.returned i hnot hreturned
    exact ⟨hs.adoptedTasks_of_idle hidle, only.frame, hfree⟩
  | enters new => exact absurd hreturned hnot
  | leaves scheduled lookup => exact absurd hreturned hnot
  | loses hcall raises => exact absurd hreturned hnot

/-! ## 7. The contract of the inventory -/

/-- What a step may do. -/
structure TracksStep (s : InventoryState) (e : InventoryEvent) (s' : InventoryState) : Prop where
  /-- A task that is not there enters, by an `adopt` with its origin. -/
  enters : ∀ entry ∈ s'.adoptedTasks, entry ∉ s.adoptedTasks →
    entry.1 ∉ s.keys ∧ ∃ user site, e = .adopt user site entry.1 entry.2
  /-- An `adopt` that succeeds leaves its task there, with its origin. -/
  adopted : ∀ user site t origin loop, e = .adopt user site t origin → s.loopOf t = some loop →
    (s.adopt site t loop origin).2 = none → (t, origin) ∈ s'.adoptedTasks
  /-- A task leaves in its completion callback. -/
  leaves : ∀ entry ∈ s.adoptedTasks, entry ∉ s'.adoptedTasks → e = .adoptedTaskDone entry.1
  /-- The callback comes after the end of the task, and calls the observer with its origin
      when the task has left. -/
  completes : ∀ t, e = .adoptedTaskDone t → t ∈ s.finished ∧ t ∉ s'.keys ∧
    ∃ origin, (t, origin) ∈ s.adoptedTasks ∧ (s.hasObserver = true →
      s'.observed = s.observed ++ [(t, origin)] ∧ s'.observing = some (t, origin))
  /-- Nothing else calls the observer. -/
  observes : s'.observed ≠ s.observed → ∃ t, e = .adoptedTaskDone t
  /-- A wait returns when the inventory is empty, every adoption has been observed and the
      observer has ended. -/
  settles : ∀ i : Nat, s.waits[i]? = some SettlementWait.blocked →
    s'.waits[i]? = some SettlementWait.returned →
    s'.adoptedTasks = [] ∧ s'.observing = none ∧
      (s.hasObserver = true → s'.observed.Perm s'.adoptions)

theorem Move.entered {e : InventoryEvent} (hmove : s.Move e s') {entry : Nat × String}
    (hmem : entry ∈ s'.adoptedTasks) (hnot : entry ∉ s.adoptedTasks) :
    entry.1 ∉ s.keys ∧ ∃ user site, e = .adopt user site entry.1 entry.2 := by
  cases hmove with
  | keeps tasks observed waits orphans notDone notLost => exact absurd (tasks ▸ hmem) hnot
  | waits only notDone notLost =>
    rw [only.frame] at hmem
    exact absurd hmem hnot
  | @enters user site t origin epoch call new =>
    rcases List.mem_append.mp hmem with hmem | hmem
    · exact absurd hmem hnot
    · cases List.mem_singleton.mp hmem
      exact ⟨new, user, site, rfl⟩
  | leaves scheduled lookup => exact absurd (List.mem_of_mem_filter hmem) hnot
  | loses hcall raises => exact absurd hmem hnot

theorem Move.left {e : InventoryEvent} (hmove : s.Move e s') {entry : Nat × String}
    (hmem : entry ∈ s.adoptedTasks) (hnot : entry ∉ s'.adoptedTasks) :
    e = .adoptedTaskDone entry.1 := by
  cases hmove with
  | keeps tasks observed waits orphans notDone notLost => exact absurd (tasks ▸ hmem) hnot
  | waits only notDone notLost =>
    rw [only.frame] at hnot
    exact absurd hmem hnot
  | enters new => exact absurd (List.mem_append_left _ hmem) hnot
  | @leaves t origin epoch observing scheduled lookup =>
    by_contra hne
    refine hnot (List.mem_filter.mpr ⟨hmem, decide_eq_true fun heq => hne ?_⟩)
    rw [heq]
  | loses hcall raises => exact absurd hmem hnot

theorem Move.observes {e : InventoryEvent} (hmove : s.Move e s') (hne : s'.observed ≠ s.observed) :
    ∃ t, e = .adoptedTaskDone t := by
  cases hmove with
  | keeps tasks observed waits orphans notDone notLost => exact absurd observed hne
  | waits only notDone notLost => exact absurd (by rw [only.frame]) hne
  | enters new => exact absurd rfl hne
  | @leaves t origin epoch observing scheduled lookup => exact ⟨t, rfl⟩
  | loses hcall raises => exact absurd rfl hne

namespace InventoryInv

theorem adopted (hs : s.InventoryInv) {site : CallSite} {loop : Nat} {origin : String}
    (hnone : (s.adopt site t loop origin).2 = none) :
    (t, origin) ∈ (s.adopt site t loop origin).1.adoptedTasks := by
  rcases hs.adopt_spec site t loop origin with
    ⟨epoch, -, heq, hfound⟩ | ⟨epoch, call, -, -, -, heq⟩
  · rw [heq]
    exact hfound hnone
  · rw [heq]
    exact List.mem_append_right _ List.mem_cons_self

theorem completed (hs : s.InventoryInv) (h : s.adoptedTaskDone t = some s') :
    t ∈ s.finished ∧ t ∉ s'.keys ∧
      ∃ origin, (t, origin) ∈ s.adoptedTasks ∧ (s.hasObserver = true →
        s'.observed = s.observed ++ [(t, origin)] ∧ s'.observing = some (t, origin)) := by
  obtain ⟨origin, epoch, observing, hscheduled, hlookup, -, hobserving, rfl⟩ :=
    hs.adoptedTaskDone_spec h
  refine ⟨hs.queued t hscheduled, fun hmem => ?_, origin, mem_of_lookup hlookup, fun hhas => ?_⟩
  · obtain ⟨entry, hentry, heq⟩ := List.mem_map.mp hmem
    exact of_decide_eq_true (List.mem_filter.mp hentry).2 heq
  · exact ⟨if_pos hhas, hobserving hhas⟩

/-- The observer has been called for every adoption when the inventory is empty. -/
theorem observed_perm (hs : s.InventoryInv) (hempty : s.adoptedTasks = [])
    (hhas : s.hasObserver = true) : s.observed.Perm s.adoptions := by
  have haccount := hs.account
  rw [hempty, List.append_nil] at haccount
  rw [hs.observed, if_pos hhas]
  exact haccount

theorem tracksStep {e : InventoryEvent} (hs : s.InventoryInv) (h : s.step e = some s') :
    s.TracksStep e s' := by
  have hmove := move hs h
  refine ⟨fun _ => hmove.entered, ?_, fun _ => hmove.left, ?_, hmove.observes, ?_⟩
  · rintro user site t origin loop rfl hloop hnone
    simp only [InventoryState.step, hloop] at h
    split at h
    · cases h
      exact hs.adopted hnone
    · cases h
  · rintro t rfl
    exact hs.completed h
  · intro i hblocked hreturned
    have hnot : s.waits[i]? ≠ some .returned := by
      rw [hblocked]
      simp
    obtain ⟨hempty, hframe, hfree⟩ := hmove.returned hs hnot hreturned
    rw [hframe]
    exact ⟨hempty, hfree hblocked, hs.observed_perm hempty⟩

end InventoryInv

/-- Each entry of the inventory has one completion callback to come, and each adoption is
    there or has left and been observed. -/
structure Tracked (s : InventoryState) : Prop where
  /-- No task has two entries. -/
  nodup : s.keys.Nodup
  callbacks : s.pending.Perm s.keys
  account : (s.departed ++ s.adoptedTasks).Perm s.adoptions
  observed : s.observed = if s.hasObserver then s.departed else []
  /-- The callback of a task that has ended is queued when its `adopt` has returned. -/
  queued : ∀ t ∈ s.keys, t ∈ s.finished → t ∉ s.attaching.map AttachCall.task → t ∈ s.scheduled

/-- An orphan is in the inventory, without a callback to come. -/
def Orphaned (s : InventoryState) (t : Nat) : Prop := t ∈ s.keys ∧ t ∉ s.pending

namespace InventoryInv

theorem orphaned (hs : s.InventoryInv) (ht : t ∈ s.orphans) : s.Orphaned t := by
  have hnodup := hs.paired.nodup_iff.mpr hs.nodup
  refine ⟨hs.paired.subset (List.mem_append_right _ ht), fun hpending => ?_⟩
  exact (List.nodup_append'.mp hnodup).2.2 hpending ht

theorem tracked_iff (hs : s.InventoryInv) : s.Tracked ↔ s.orphans = [] := by
  constructor
  · intro htracked
    refine List.eq_nil_iff_forall_not_mem.mpr fun t ht => ?_
    obtain ⟨hkey, hpending⟩ := hs.orphaned ht
    exact hpending (htracked.callbacks.symm.subset hkey)
  · intro hnone
    have hpaired := hs.paired
    rw [hnone, List.append_nil] at hpaired
    refine ⟨hs.nodup, hpaired, hs.account, hs.observed, fun t hkey hfinished hattaching => ?_⟩
    rcases List.mem_append.mp (hpaired.symm.subset hkey) with hmem | hmem
    · exact absurd hmem hattaching
    · rcases List.mem_append.mp hmem with hmem | hmem
      · exact absurd hfinished (hs.unfinished t hmem)
      · exact hmem

end InventoryInv

theorem Move.orphans {e : InventoryEvent} (hmove : s.Move e s') :
    ((∀ t, ¬ s.LosesCallback e t) ∧ s'.orphans = s.orphans) ∨
      ∃ t, s.LosesCallback e t ∧ s'.orphans = s.orphans ++ [t] := by
  cases hmove with
  | keeps tasks observed waits orphans notDone notLost => exact Or.inl ⟨notLost, orphans⟩
  | waits only notDone notLost => exact Or.inl ⟨notLost, by rw [only.frame]⟩
  | enters new => exact Or.inl ⟨not_loses (by simp), rfl⟩
  | leaves scheduled lookup => exact Or.inl ⟨not_loses (by simp), rfl⟩
  | @loses i call hcall raises => exact Or.inr ⟨call.task, ⟨i, call, rfl, hcall, rfl, raises⟩, rfl⟩

theorem LosesCallback.orphan {e : InventoryEvent} (hlost : s.LosesCallback e t)
    (h : s.step e = some s') : t ∈ s'.orphans := by
  obtain ⟨i, call, rfl, hcall, rfl, hraises⟩ := hlost
  obtain ⟨call', hcall', ⟨-, rfl⟩ | ⟨hattaches, -⟩⟩ := attach_spec h
  · rw [hcall] at hcall'
    cases hcall'
    exact List.mem_append_right _ List.mem_cons_self
  · rw [hcall] at hcall'
    cases hcall'
    rw [hraises] at hattaches
    cases hattaches

/-- No callback of an orphan runs. -/
theorem Orphaned.not_done (h : s.Orphaned t) : s.step (.adoptedTaskDone t) = none := by
  have hscheduled : t ∉ s.scheduled := fun hmem =>
    h.2 (List.mem_append_right _ (List.mem_append_right _ hmem))
  exact if_neg fun hguard => hscheduled hguard.1

/-! ## 8. Runs -/

section Runs

variable {configured : ConfiguredBackend} {idleTimeout : Option Nat} {hasObserver : Bool}

/-- Orphans stay, and no wait returns any more. -/
theorem orphan_run (hs : s.InventoryInv) {es : List InventoryEvent} (ht : t ∈ s.orphans)
    (hrun : (inventorySystem configured idleTimeout hasObserver).run s es = some s') :
    s'.InventoryInv ∧ t ∈ s'.orphans ∧
      ∀ i : Nat, s'.waits[i]? = some SettlementWait.returned →
        s.waits[i]? = some SettlementWait.returned := by
  refine System.run_invariant (I := fun u => u.InventoryInv ∧ t ∈ u.orphans ∧
    ∀ i : Nat, u.waits[i]? = some SettlementWait.returned →
      s.waits[i]? = some SettlementWait.returned) ?_ ⟨hs, ht, fun _ h => h⟩ hrun
  rintro u e u' ⟨hu, hmem, hwaits⟩ hstep
  have hmove := move hu hstep
  refine ⟨hu.step hstep, ?_, fun i hreturned => hwaits i ?_⟩
  · rcases hmove.orphans with ⟨-, heq⟩ | ⟨other, -, heq⟩
    · exact heq ▸ hmem
    · exact heq ▸ List.mem_append_left _ hmem
  · by_contra hnot
    have hempty := (hmove.returned hu hnot hreturned).1
    have hkey := (hu.orphaned hmem).1
    simp [keys, hempty] at hkey

/-- A run makes no orphan exactly when no step loses a callback. -/
theorem stepsMeet_iff (hs : s.InventoryInv) (hnone : s.orphans = []) {es : List InventoryEvent}
    (hrun : (inventorySystem configured idleTimeout hasObserver).run s es = some s') :
    (inventorySystem configured idleTimeout hasObserver).StepsMeet
      (fun s e => ∀ t, ¬ s.LosesCallback e t) s es ↔ s'.orphans = [] := by
  induction es generalizing s with
  | nil =>
    cases hrun
    exact ⟨fun _ => hnone, fun _ => trivial⟩
  | cons e es ih =>
    rw [System.run_cons] at hrun
    obtain ⟨u, hstep, hrest⟩ := Option.bind_eq_some_iff.mp hrun
    have hu := hs.step hstep
    rcases (move hs hstep).orphans with ⟨hkeeps, heq⟩ | ⟨lost, hlost, heq⟩
    · rw [← ih hu (heq.trans hnone) hrest]
      constructor
      · exact fun hmeet => hmeet.2 u hstep
      · intro hmeet
        refine ⟨hkeeps, fun u' hstep' => ?_⟩
        cases hstep.symm.trans hstep'
        exact hmeet
    · have horphan : lost ∈ s'.orphans :=
        (orphan_run hu (heq ▸ List.mem_append_right _ List.mem_cons_self) hrest).2.1
      constructor
      · exact fun hmeet => absurd hlost (hmeet.1 lost)
      · intro hempty
        rw [hempty] at horphan
        cases horphan

/-- `adopt` is at most one `adopt` of the epoch. -/
theorem adopt_epoch (site : CallSite) (t loop : Nat) (origin : String) :
    (s.adopt site t loop origin).1.epoch = s.epoch ∨
      (s.adopt site t loop origin).1.epoch = (s.epoch.adopt site t loop).1 := by
  unfold InventoryState.adopt
  split
  · split
    · split
      · exact Or.inl rfl
      · exact Or.inl rfl
    · split
      · rename_i epoch error hadopt
        exact Or.inr (by rw [hadopt])
      · rename_i epoch hadopt
        exact Or.inr (by rw [hadopt])
  · exact Or.inl rfl

theorem InventoryInv.adoptedTaskDone_epoch (hs : s.InventoryInv)
    (h : s.adoptedTaskDone t = some s') :
    t ∈ s.epoch.adoptedTasks ∧
      (s'.epoch = s.epoch.adoptedTaskDone t ∨ s'.epoch = (s.epoch.adoptedTaskDone t).observed) := by
  unfold InventoryState.adoptedTaskDone at h
  split at h
  · rename_i hguard
    obtain ⟨origin, hlookup⟩ := hs.lookup_scheduled hguard.1
    refine ⟨(hs.active t).mpr (List.mem_map.mpr ⟨_, mem_of_lookup hlookup, rfl⟩), ?_⟩
    simp only [hlookup] at h
    split at h
    · cases h
      exact Or.inl rfl
    · cases h
      exact Or.inr rfl
  · cases h

/-- A step is a run of the epoch, unless the exception handler of the loop exits. -/
theorem epoch_run {e : InventoryEvent} (hs : s.InventoryInv) (h : s.step e = some s')
    (he : e ≠ .observerEnds .handlerExits) :
    ∃ es, (epochSystem configured idleTimeout).run s.epoch es = some s'.epoch := by
  cases e with
  | epoch user e =>
    simp only [InventoryState.step] at h
    split at h
    · obtain ⟨epoch, hstep, rfl⟩ := Option.map_eq_some_iff.mp h
      exact ⟨[e], System.run_cons_of_step hstep []⟩
    · cases h
  | makeTask i =>
    obtain ⟨loop, hloop, rfl⟩ := Option.map_eq_some_iff.mp h
    have hfails : (epochSystem configured idleTimeout).step s.epoch (.createTaskFails i) =
        some { s.epoch with creating := s.epoch.creating.eraseIdx i } :=
      if_pos (List.getElem?_eq_some_iff.mp hloop).1
    exact ⟨[.createTaskFails i, .newTask loop], (System.run_cons_of_step hfails _).trans rfl⟩
  | finish t =>
    simp only [InventoryState.step, InventoryState.finish] at h
    split at h
    · cases h
      exact ⟨[], rfl⟩
    · cases h
  | loopChanges loop status =>
    simp only [InventoryState.step] at h
    split at h
    · cases h
    · cases h
      exact ⟨[], rfl⟩
  | adopt user site t origin =>
    simp only [InventoryState.step] at h
    split at h
    · obtain ⟨loop, hloop, rfl⟩ := Option.map_eq_some_iff.mp h
      rcases adopt_epoch (s := s) site t loop origin with heq | heq
      · exact ⟨[], congrArg some heq.symm⟩
      · have hadopt : (epochSystem configured idleTimeout).step s.epoch (.adopt site t) =
            some (s.epoch.adopt site t loop).1 :=
          Option.map_eq_some_iff.mpr ⟨loop, hloop, rfl⟩
        exact ⟨[.adopt site t], (System.run_cons_of_step hadopt _).trans (congrArg some heq.symm)⟩
    · cases h
  | attach i =>
    obtain ⟨call, -, ⟨-, rfl⟩ | ⟨-, attached, scheduled, cancelRequests, rfl, -⟩⟩ := attach_spec h
    · exact ⟨[], rfl⟩
    · exact ⟨[], rfl⟩
  | adoptedTaskDone t =>
    obtain ⟨hactive, heq⟩ := hs.adoptedTaskDone_epoch h
    have hleaves : (epochSystem configured idleTimeout).step s.epoch (.adoptedTaskDone t) =
        some (s.epoch.adoptedTaskDone t) := if_pos hactive
    rcases heq with heq | heq
    · exact ⟨[.adoptedTaskDone t],
        (System.run_cons_of_step hleaves _).trans (congrArg some heq.symm)⟩
    · have hbusy : 0 < (s.epoch.adoptedTaskDone t).observing := by
        rw [(EpochState.KeepsTasks.adoptedTaskDone s.epoch t).observing]
        exact Nat.succ_pos _
      have hobserved : (epochSystem configured idleTimeout).step (s.epoch.adoptedTaskDone t)
          .observed = some (s.epoch.adoptedTaskDone t).observed := if_pos hbusy
      exact ⟨[.adoptedTaskDone t, .observed], (System.run_cons_of_step hleaves _).trans
        ((System.run_cons_of_step hobserved _).trans (congrArg some heq.symm))⟩
  | observerEnds how =>
    obtain ⟨call, hcall, rfl⟩ := Option.map_eq_some_iff.mp h
    have hbusy : 0 < s.epoch.observing := by
      rw [hs.busy, hcall, Option.isSome_some, if_pos rfl]
      exact Nat.one_pos
    have hobserved : (epochSystem configured idleTimeout).step s.epoch .observed =
        some s.epoch.observed := if_pos hbusy
    cases how with
    | returned => exact ⟨[.observed], System.run_cons_of_step hobserved _⟩
    | reported => exact ⟨[.observed], System.run_cons_of_step hobserved _⟩
    | handlerExits => exact absurd rfl he
  | waitSettled user =>
    rw [(waitSettled_spec h).frame]
    exact ⟨[], rfl⟩
  | wake i timeLeft =>
    rw [(wake_spec h).frame]
    exact ⟨[], rfl⟩

/-- The inventory runs over the epochs of the Stage: what holds of every epoch holds here. -/
theorem epoch_reachable (hs : (inventorySystem configured idleTimeout hasObserver).ReachUnder
      (fun _ e => e ≠ .observerEnds .handlerExits) s) :
    (epochSystem configured idleTimeout).Reachable s.epoch := by
  refine hs.invariant_of (J := InventoryInv)
    (I := fun s => (epochSystem configured idleTimeout).Reachable s.epoch)
    (fun s hs => InventoryInv.reachable hs.reachable) ?_ ?_
  · rintro s rfl
    exact .init rfl
  · intro s e s' hinv hreach he hstep
    obtain ⟨es, hrun⟩ := epoch_run hinv hstep he
    exact hreach.run hrun

end Runs

/-- **The inventory of adopted tasks.**  At the end of a run each entry has its completion
    callback to come, and each adoption has been observed or is still there, exactly when no
    `adopt` in it failed to attach the callback of a finished task.  Every step keeps to the
    contract; but a task that has lost its callback stays for ever, and no wait returns. -/
theorem adopted_inventory_iff (configured : ConfiguredBackend) (idleTimeout : Option Nat)
    (hasObserver : Bool) :
    (∀ s₀ es s, (inventorySystem configured idleTimeout hasObserver).Init s₀ →
      (inventorySystem configured idleTimeout hasObserver).run s₀ es = some s →
      ((inventorySystem configured idleTimeout hasObserver).StepsMeet
        (fun s e => ∀ t, ¬ s.LosesCallback e t) s₀ es ↔ s.Tracked)) ∧
    (∀ s e s', (inventorySystem configured idleTimeout hasObserver).Reachable s →
      s.step e = some s' → s.TracksStep e s') ∧
    ∀ s e s' t, (inventorySystem configured idleTimeout hasObserver).Reachable s →
      s.step e = some s' → s.LosesCallback e t →
      ∀ es s'', (inventorySystem configured idleTimeout hasObserver).run s' es = some s'' →
        s''.Orphaned t ∧ s''.step (.adoptedTaskDone t) = none ∧
          ∀ i : Nat, s''.waits[i]? = some SettlementWait.returned →
            s'.waits[i]? = some SettlementWait.returned := by
  refine ⟨fun s₀ es s hinit hrun => ?_, fun s e s' hs hstep => ?_, ?_⟩
  · have hstart : s₀.InventoryInv := InventoryInv.reachable (System.ReachUnder.init hinit)
    have hnone : s₀.orphans = [] := by
      rw [show s₀ = _ from hinit]
    rw [stepsMeet_iff hstart hnone hrun]
    exact (InventoryInv.reachable (System.reachable_of_run es hinit hrun)).tracked_iff.symm
  · exact (InventoryInv.reachable hs).tracksStep hstep
  · intro s e s' t hs hstep hlost es s'' hrun
    have hs' := (InventoryInv.reachable hs).step hstep
    obtain ⟨hend, horphan, hwaits⟩ := orphan_run hs' (hlost.orphan hstep) hrun
    have horphaned := hend.orphaned horphan
    exact ⟨horphaned, horphaned.not_done, hwaits⟩

/-! ### A finished task, adopted from a worker thread on a debug loop -/

/-- Task 0 keeps the epoch on loop 0 open, task 1 has ended, the loop is in debug mode and
    runs in the main thread, and a worker adopts task 1 while somebody waits. -/
def debugRun : List InventoryEvent :=
  let main : CallSite := ⟨false, some 0, none, true, none, []⟩
  let worker : CallSite := ⟨false, none, none, true, none, []⟩
  [.loopChanges 0 ⟨.running, true⟩, .epoch .other (.newTask 0), .epoch .other (.newTask 0),
    .adopt .other main 0 "a", .attach 0, .finish 1, .waitSettled .other,
    .adopt .other worker 1 "b", .attach 0]

/-- The `adopt` of the worker raises, the task has ended and stays, and the wait with it. -/
theorem finished_task_never_observed :
    ∃ s, (inventorySystem .auto none true).run
        { epoch := { configured := .auto, idleTimeout := none }, hasObserver := true } debugRun =
          some s ∧
      1 ∈ s.finished ∧ (1, "b") ∈ s.adoptedTasks ∧ ¬ s.Tracked ∧
      ∀ es s', (inventorySystem .auto none true).run s es = some s' →
        1 ∈ s'.keys ∧ s'.step (.adoptedTaskDone 1) = none ∧
          s'.waits[0]? ≠ some SettlementWait.returned := by
  obtain ⟨s, hrun⟩ : ∃ s, (inventorySystem .auto none true).run
      { epoch := { configured := .auto, idleTimeout := none }, hasObserver := true } debugRun =
        some s := ⟨_, rfl⟩
  have hinv : s.InventoryInv := InventoryInv.reachable (System.reachable_of_run debugRun rfl hrun)
  have hend : s.finished = [1] ∧ s.adoptedTasks = [(0, "a"), (1, "b")] ∧ s.orphans = [1] ∧
      s.waits = [.blocked] := by
    cases hrun
    decide
  obtain ⟨hfinished, htasks, horphans, hwaits⟩ := hend
  refine ⟨s, hrun, by simp [hfinished], by simp [htasks], ?_, fun es s' hrun' => ?_⟩
  · rw [hinv.tracked_iff, horphans]
    simp
  · obtain ⟨hinv', horphan, hreturned⟩ :=
      orphan_run hinv (horphans ▸ List.mem_cons_self : 1 ∈ s.orphans) hrun'
    have horphaned := hinv'.orphaned horphan
    refine ⟨horphaned.1, horphaned.not_done, fun hret => ?_⟩
    have hblocked := hreturned 0 hret
    simp [hwaits] at hblocked

end InventoryState

end AgentlyStage
