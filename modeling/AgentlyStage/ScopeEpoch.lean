import AgentlyStage.Errors
import AgentlyStage.Lib.Transition
import Mathlib.Data.Finset.Basic

/-!
# The epochs of a Stage

A Stage binds a backend with its first work and releases it when nothing is active.  In
between, its idle timer watches it.  Every event is one critical section of `_scope_lock`,
and takes no time; what a call finds outside the Stage (the loops, its context, a lease) is
an argument of its event.

Three operations leave the lock in between.  `create_task` selects the backend, makes the
task and adopts it (`creating`).  `_adopted_task_done` calls the observer, which may use the
Stage, before it looks for remaining work; it keeps the lock meanwhile (`observing`).  A lease
is given back after the lock (`releasing`).  Leases are numbered by their order.
-/

namespace AgentlyStage

open Transition

/-! ## 1. State -/

inductive BackendKind where
  | caller
  | stage
deriving DecidableEq, Repr

/-- `_backend_mode`, with the configured loop. -/
inductive ConfiguredBackend where
  | auto
  | caller (loop : Nat)
  | stage
deriving DecidableEq, Repr

/-- `_context_mode`. -/
inductive ScopeMode where
  | plain
  | sync
  | async
deriving DecidableEq, Repr

/-- The `threading.Timer` of `_idle_deadline_reached(token)`. -/
structure IdleTimer where
  token : Nat
  deadline : Nat
  cancelled : Bool := false
  fired : Bool := false
deriving DecidableEq, Repr

structure EpochHandle where
  backendKind : BackendKind
  /-- The caller loop that `go` has selected. -/
  loop : Option Nat
  /-- `_owner_loop` on a caller loop. -/
  ownerLoop : Option Nat := none
deriving DecidableEq, Repr

/-- What a call finds around it. -/
structure CallSite where
  /-- `_active_stage.get() is self`. -/
  owned : Bool
  runningLoop : Option Nat
  /-- `_inherited_caller_loop_for_sync()`. -/
  inheritedCallerLoop : Option Nat
  configuredLoopRuns : Bool
  /-- `acquire_lease` raises. -/
  leaseError : Option StageError
  /-- `blocked_generation_ids_for_submission` for the lease. -/
  blockedGenerationIds : List Nat
deriving DecidableEq, Repr

structure EpochState where
  configured : ConfiguredBackend
  idleTimeout : Option Nat
  contextMode : ScopeMode := .plain
  handles : List EpochHandle := []
  /-- The loops of the tasks. -/
  taskLoops : List Nat := []
  activeHandles : Finset Nat := ∅
  adoptedTasks : Finset Nat := ∅
  isSealed : Bool := false
  cancelling : Bool := false
  idleTimedOut : Bool := false
  activeBackend : Option BackendKind := none
  activeLoop : Option Nat := none
  generationLease : Option Nat := none
  blockedGenerationIds : List Nat := []
  now : Nat := 0
  lastActivity : Nat := 0
  idleTimer : Option Nat := none
  idleTimerToken : Nat := 0
  timers : List IdleTimer := []
  /-- The loops of `create_task` calls that have selected the backend. -/
  creating : List Nat := []
  observing : Nat := 0
  releasing : List Nat := []
  /-- History: the leases acquired, and those given back. -/
  leaseCount : Nat := 0
  released : List Nat := []
deriving DecidableEq

namespace EpochState

variable (s : EpochState)

/-- `_has_active_work_locked`. -/
def hasActiveWorkLocked : Bool := decide (s.activeHandles ≠ ∅ ∨ s.adoptedTasks ≠ ∅)

/-! ## 2. The idle timer -/

/-- `_schedule_idle_timer_locked`. -/
def scheduleIdleTimerLocked (delay token : Nat) : EpochState :=
  { s with
    idleTimer := some s.timers.length
    timers := s.timers ++ [{ token := token, deadline := s.now + delay }] }

/-- `_touch_locked`. -/
def touchLocked : EpochState :=
  let s' := { s with lastActivity := s.now }
  match s.idleTimeout with
  | none => s'
  | some timeout =>
    if !s.hasActiveWorkLocked || s.isSealed || s.idleTimer.isSome then s'
    else
      scheduleIdleTimerLocked { s' with idleTimerToken := s.idleTimerToken + 1 } timeout
        (s.idleTimerToken + 1)

/-- `timer.cancel()` for the timer that has been taken out. -/
def cancelTimer : List IdleTimer :=
  match s.idleTimer with
  | some i => s.timers.modify i fun timer => { timer with cancelled := true }
  | none => s.timers

/-- `_release_backend_if_quiescent_locked`; the lease is given back later. -/
def releaseBackendIfQuiescentLocked : EpochState :=
  if s.hasActiveWorkLocked then s
  else
    { s with
      idleTimer := none
      idleTimerToken := s.idleTimerToken + 1
      timers := s.cancelTimer
      releasing := s.releasing ++ s.generationLease.toList
      generationLease := none
      blockedGenerationIds := []
      activeBackend := none
      activeLoop := none
      cancelling := false }

/-! ## 3. The backend -/

/-- The backend that an unbound Stage selects. -/
def selectBackend (site : CallSite) : Except StageError (BackendKind × Option Nat) :=
  match s.configured with
  | .caller loop =>
    if site.configuredLoopRuns then .ok (.caller, some loop)
    else .error (.stageLifecycle "The configured Stage event loop must be running")
  | .stage => .ok (.stage, none)
  | .auto =>
    let inherited : BackendKind × Option Nat :=
      match site.inheritedCallerLoop with
      | none => (.stage, none)
      | some loop => (.caller, some loop)
    match s.contextMode, site.runningLoop with
    | .sync, _ => .ok inherited
    | _, some loop => .ok (.caller, some loop)
    | _, none => .ok inherited

def bindCaller (loop : Option Nat) : EpochState :=
  { s with activeBackend := some .caller, activeLoop := loop, blockedGenerationIds := [] }

/-- The lease of a new epoch. -/
def bindStage (blocked : List Nat) : EpochState :=
  { s with
    activeBackend := some .stage
    activeLoop := none
    generationLease := some s.leaseCount
    leaseCount := s.leaseCount + 1
    blockedGenerationIds := blocked }

/-- `_resolve_backend_locked`. -/
def resolveBackendLocked (site : CallSite) :
    Except StageError ((BackendKind × Option Nat) × EpochState) :=
  match s.activeBackend with
  | some backend => .ok ((backend, s.activeLoop), s)
  | none =>
    match s.selectBackend site with
    | .error error => .error error
    | .ok (.caller, loop) => .ok ((.caller, loop), s.bindCaller loop)
    | .ok (.stage, loop) =>
      match site.leaseError with
      | some error => .error error
      | none => .ok ((.stage, loop), s.bindStage site.blockedGenerationIds)

/-! ## 4. The operations -/

/-- `not self._sealed or owned_nested`. -/
def callAllowed (site : CallSite) : Bool := !s.isSealed || site.owned

/-- The critical section of `go`: `_new_handle_locked`. -/
def go (site : CallSite) : EpochState × Option StageError :=
  if s.callAllowed site then
    match s.resolveBackendLocked site with
    | .error error => (s, some error)
    | .ok ((backend, loop), s') =>
      (touchLocked
        { s' with
          handles := s'.handles ++ [{ backendKind := backend, loop := loop }]
          activeHandles := insert s'.handles.length s'.activeHandles }, none)
  else (s, some (.stageClosed "Cannot submit work to a sealed Stage scope"))

/-- `_set_owner_task` of a handle on a caller loop. -/
def setOwnerTask (h : Nat) : EpochState :=
  { s with handles := s.handles.modify h fun handle =>
      if handle.backendKind = .caller then { handle with ownerLoop := handle.loop } else handle }

/-- `_handle_quiescent` of a handle. -/
def handleQuiescent (h : Nat) : EpochState :=
  releaseBackendIfQuiescentLocked { s with activeHandles := s.activeHandles.erase h }

/-- The critical section of `adopt`. -/
def adopt (site : CallSite) (t loop : Nat) : EpochState × Option StageError :=
  if s.callAllowed site then
    if t ∈ s.adoptedTasks then (s, none)
    else
      match s.resolveBackendLocked site with
      | .error error => (s, some error)
      | .ok (selected, s') =>
        if selected = (.caller, some loop) then
          (touchLocked { s' with adoptedTasks := insert t s'.adoptedTasks }, none)
        else
          (s'.releaseBackendIfQuiescentLocked,
            some (.stageLifecycle
              "Stage cannot adopt a task from a different event loop backend"))
  else (s, some (.stageClosed "Cannot adopt work into a sealed Stage scope"))

/-- The first critical section of `create_task`, on a running loop. -/
def selectForTask (site : CallSite) (loop : Nat) : EpochState × Option StageError :=
  if s.callAllowed site then
    match s.resolveBackendLocked site with
    | .error error => (s, some error)
    | .ok (selected, s') =>
      if selected = (.caller, some loop) then
        ({ s' with creating := s'.creating ++ [loop] }, none)
      else
        (s'.releaseBackendIfQuiescentLocked,
          some (.stageLifecycle (match selected with
            | (.caller, some _) =>
              "Stage.create_task cannot move caller-loop-owned work to another event loop; " ++
                "use 'async with Stage()' and await the async operation on its owner loop"
            | _ =>
              "Stage.create_task requires the current running caller event loop backend")))
  else (s, some (.stageClosed "Cannot create a task in a sealed Stage scope"))

/-- `loop.create_task` has succeeded, and the task is adopted. -/
def createTask (i loop : Nat) (site : CallSite) : EpochState × Option StageError :=
  adopt
    { s with
      creating := s.creating.eraseIdx i
      taskLoops := s.taskLoops ++ [loop] } site s.taskLoops.length loop

/-- `_adopted_task_done` up to the observer. -/
def adoptedTaskDone (t : Nat) : EpochState :=
  touchLocked
    { s with
      adoptedTasks := s.adoptedTasks.erase t
      observing := s.observing + 1 }

/-- `_adopted_task_done` after the observer.  The exception handler of the loop, which is told the
    error of an observer, is taken to return: when it exits, nothing of this runs, a step that is
    left to the inventory of the adopted tasks. -/
def observed : EpochState :=
  releaseBackendIfQuiescentLocked { s with observing := s.observing - 1 }

/-! ## 5. Late callbacks -/

/-- How `_submit_callback_drain_locked` ends: the drain is submitted, or the submission raises
    and releases its work, which may settle the handle. -/
inductive DrainStart where
  | submitted
  | refused (error : StageError) (settled : Bool)
deriving DecidableEq, Repr

/-- The epoch of a late callback.  The stage backend is set before its lease is there. -/
def lateEpoch (site : CallSite) (handle : EpochHandle) (loopRuns : Bool) :
    EpochState × Option StageError :=
  match s.activeBackend, handle.backendKind with
  | none, .caller =>
    if handle.ownerLoop.isSome && loopRuns then (s.bindCaller handle.ownerLoop, none)
    else (s, some (.stageLifecycle "Stage callback owner loop is unavailable"))
  | none, .stage =>
    match site.leaseError with
    | some error => ({ s with activeBackend := some .stage, activeLoop := none }, some error)
    | none => (s.bindStage site.blockedGenerationIds, none)
  | some backend, kind =>
    if backend ≠ kind ∨ (backend = .caller ∧ s.activeLoop ≠ handle.ownerLoop) then
      (s, some (.stageLifecycle
        "A late callback cannot cross the active Stage backend epoch"))
    else (s, none)

/-- `_register_callback` on a handle whose drain has to be started:
    `_submit_callback_drain_locked`, which looks at the owner loop twice. -/
def lateCallback (site : CallSite) (h : Nat) (handle : EpochHandle)
    (loopRuns loopStillRuns : Bool) (start : DrainStart) : EpochState × Option StageError :=
  if s.callAllowed site then
    match s.lateEpoch site handle loopRuns with
    | (s', some error) => (s', some error)
    | (s', none) =>
      let admitted := { s' with activeHandles := insert h s'.activeHandles }
      if handle.backendKind = .caller ∧ ¬ (handle.ownerLoop.isSome ∧ loopStillRuns) then
        (admitted, some (.stageLifecycle "Stage callback owner loop is unavailable"))
      else
        match start with
        | .submitted => (admitted, none)
        | .refused error settled =>
          (if settled then admitted.handleQuiescent h else admitted, some error)
  else (s, some (.stageClosed "Cannot register a callback after Stage scope close"))

/-! ## 6. Sealing, cancellation and the deadline -/

/-- `seal`. -/
def sealScope : EpochState :=
  { s with
    isSealed := true
    idleTimer := none
    idleTimerToken := s.idleTimerToken + 1
    timers := s.cancelTimer }

/-- The critical section of `cancel_and_wait_settled`. -/
def cancelScope : EpochState :=
  if s.hasActiveWorkLocked then { s with cancelling := true } else s

/-- `tick`. -/
def tick : EpochState :=
  if s.isSealed || !s.hasActiveWorkLocked then s else s.touchLocked

/-- `_idle_deadline_reached`. -/
def idleDeadlineReached (token : Nat) : EpochState :=
  match s.idleTimeout with
  | none => s
  | some timeout =>
    if token ≠ s.idleTimerToken ∨ s.isSealed ∨ ¬ s.hasActiveWorkLocked then s
    else if s.now - s.lastActivity < timeout then
      scheduleIdleTimerLocked { s with idleTimer := none }
        (timeout - (s.now - s.lastActivity)) token
    else
      { s with idleTimer := none, idleTimedOut := true, isSealed := true, cancelling := true }

/-- A timer fires at its deadline or later; a cancellation can come too late to stop it. -/
def fire (i : Nat) : Option EpochState :=
  match s.timers[i]? with
  | some timer =>
    if !timer.fired && decide (timer.deadline ≤ s.now) && decide (s.observing = 0) then
      some (idleDeadlineReached
        { s with timers := s.timers.set i { timer with fired := true } } timer.token)
    else none
  | none => none

end EpochState

/-! ## 7. Events -/

inductive EpochEvent where
  | enter (mode : ScopeMode)
  | go (site : CallSite)
  | setOwnerTask (h : Nat)
  | handleQuiescent (h : Nat)
  | lateCallback (site : CallSite) (h : Nat) (loopRuns loopStillRuns : Bool)
      (start : EpochState.DrainStart)
  | selectForTask (site : CallSite)
  /-- `loop.create_task` raises. -/
  | createTaskFails (i : Nat)
  | createTask (i : Nat) (site : CallSite)
  /-- A task that may be adopted. -/
  | newTask (loop : Nat)
  | adopt (site : CallSite) (t : Nat)
  | adoptedTaskDone (t : Nat)
  | observed
  /-- `_owned_activity`. -/
  | ownedActivity
  | tick
  | cancelScope
  | sealScope
  | fire (i : Nat)
  | releaseLease (lease : Nat)
  | advance (time : Nat)
deriving DecidableEq, Repr

namespace EpochState

def step (s : EpochState) : EpochEvent → Option EpochState
  | .enter mode =>
    if s.contextMode = .plain ∧ s.isSealed = false then some { s with contextMode := mode }
    else none
  | .go site => some (s.go site).1
  | .setOwnerTask h => some (s.setOwnerTask h)
  | .handleQuiescent h => if h < s.handles.length then some (s.handleQuiescent h) else none
  | .lateCallback site h loopRuns loopStillRuns start =>
    (s.handles[h]?).map fun handle =>
      (s.lateCallback site h handle loopRuns loopStillRuns start).1
  | .selectForTask site => site.runningLoop.map fun loop => (s.selectForTask site loop).1
  | .createTaskFails i =>
    if i < s.creating.length then some { s with creating := s.creating.eraseIdx i } else none
  | .createTask i site =>
    match s.creating[i]? with
    | some loop =>
      if site.runningLoop = some loop then some (s.createTask i loop site).1 else none
    | none => none
  | .newTask loop => some { s with taskLoops := s.taskLoops ++ [loop] }
  | .adopt site t => (s.taskLoops[t]?).map fun loop => (s.adopt site t loop).1
  | .adoptedTaskDone t => if t ∈ s.adoptedTasks then some (s.adoptedTaskDone t) else none
  | .observed => if 0 < s.observing then some s.observed else none
  | .ownedActivity => some s.touchLocked
  | .tick => some s.tick
  | .cancelScope => some s.cancelScope
  | .sealScope => some s.sealScope
  | .fire i => s.fire i
  | .releaseLease lease =>
    if lease ∈ s.releasing then
      some { s with releasing := s.releasing.erase lease, released := s.released ++ [lease] }
    else none
  | .advance time => some { s with now := s.now + time }

end EpochState

/-- All interleavings of one Stage; `idle_timeout` is positive. -/
def epochSystem (configured : ConfiguredBackend) (idleTimeout : Option Nat) :
    System EpochState EpochEvent where
  Init s := s = { configured := configured, idleTimeout := idleTimeout }
  step := EpochState.step

namespace EpochState

variable {s s' : EpochState} {site : CallSite}

/-! ## 8. Reading the operations -/

theorem hasActiveWorkLocked_eq_true :
    s.hasActiveWorkLocked = true ↔ s.activeHandles ≠ ∅ ∨ s.adoptedTasks ≠ ∅ :=
  decide_eq_true_iff

theorem hasActiveWorkLocked_eq_false :
    s.hasActiveWorkLocked = false ↔ s.activeHandles = ∅ ∧ s.adoptedTasks = ∅ := by
  rw [hasActiveWorkLocked, decide_eq_false_iff_not, not_or, not_not, not_not]

theorem hasActiveWorkLocked_of_handle {h : Nat} (hmem : h ∈ s.activeHandles) :
    s.hasActiveWorkLocked = true :=
  hasActiveWorkLocked_eq_true.mpr (Or.inl (Finset.ne_empty_of_mem hmem))

theorem hasActiveWorkLocked_of_task {t : Nat} (hmem : t ∈ s.adoptedTasks) :
    s.hasActiveWorkLocked = true :=
  hasActiveWorkLocked_eq_true.mpr (Or.inr (Finset.ne_empty_of_mem hmem))

/-- A caller backend is selected with its loop, the stage backend without one. -/
theorem selectBackend_spec {selected : BackendKind × Option Nat}
    (h : s.selectBackend site = .ok selected) :
    (selected.1 = .caller ∧ selected.2.isSome = true) ∨ selected = (.stage, none) := by
  unfold selectBackend at h
  dsimp only at h
  split at h
  · split at h
    · cases h
      exact Or.inl ⟨rfl, Option.isSome_some⟩
    · cases h
  · cases h
    exact Or.inr rfl
  · -- a Stage without a configured loop runs on the inherited one or on its own
    have hinherited : ∀ {inherited : BackendKind × Option Nat},
        (Except.ok (match site.inheritedCallerLoop with
          | none => (BackendKind.stage, none)
          | some loop => (.caller, some loop)) : Except StageError _) = .ok inherited →
        (inherited.1 = .caller ∧ inherited.2.isSome = true) ∨ inherited = (.stage, none) := by
      intro inherited heq
      cases hloop : site.inheritedCallerLoop with
      | none =>
        rw [hloop] at heq
        cases heq
        exact Or.inr rfl
      | some loop =>
        rw [hloop] at heq
        cases heq
        exact Or.inl ⟨rfl, Option.isSome_some⟩
    split at h
    · exact hinherited h
    · cases h
      exact Or.inl ⟨rfl, Option.isSome_some⟩
    · exact hinherited h

/-- What `_resolve_backend_locked` selects, and what it binds. -/
theorem resolveBackendLocked_spec {selected : BackendKind × Option Nat}
    (h : s.resolveBackendLocked site = .ok (selected, s')) :
    (s.activeBackend = some selected.1 ∧ selected.2 = s.activeLoop ∧ s' = s) ∨
      (s.activeBackend = none ∧ selected.1 = .caller ∧ selected.2.isSome = true ∧
        s' = s.bindCaller selected.2) ∨
      (s.activeBackend = none ∧ selected = (.stage, none) ∧ site.leaseError = none ∧
        s' = s.bindStage site.blockedGenerationIds) := by
  unfold resolveBackendLocked at h
  cases hactive : s.activeBackend with
  | some backend =>
    simp only [hactive] at h
    cases h
    exact Or.inl ⟨rfl, rfl, rfl⟩
  | none =>
    simp only [hactive] at h
    cases hselect : s.selectBackend site with
    | error error => simp only [hselect, reduceCtorEq] at h
    | ok result =>
      have hspec := selectBackend_spec hselect
      obtain ⟨backend, loop⟩ := result
      cases backend with
      | caller =>
        simp only [hselect] at h
        cases h
        refine Or.inr (Or.inl ⟨rfl, rfl, ?_, rfl⟩)
        rcases hspec with ⟨-, hloop⟩ | hstage
        · exact hloop
        · cases hstage
      | stage =>
        simp only [hselect] at h
        cases hlease : site.leaseError with
        | some error => simp only [hlease, reduceCtorEq] at h
        | none =>
          simp only [hlease] at h
          cases h
          rcases hspec with ⟨hcaller, -⟩ | hstage
          · cases hcaller
          · exact Or.inr (Or.inr ⟨rfl, hstage, rfl, rfl⟩)

/-- A touch arms the idle timer, or there is a reason not to. -/
theorem touchLocked_cases (s : EpochState) :
    (s.touchLocked = { s with lastActivity := s.now } ∧
      (s.idleTimeout = none ∨ s.hasActiveWorkLocked = false ∨ s.isSealed = true ∨
        s.idleTimer.isSome = true)) ∨
    ∃ timeout, s.idleTimeout = some timeout ∧ s.hasActiveWorkLocked = true ∧
      s.isSealed = false ∧ s.touchLocked = { s with
        lastActivity := s.now
        idleTimerToken := s.idleTimerToken + 1
        idleTimer := some s.timers.length
        timers := s.timers ++ [{ token := s.idleTimerToken + 1, deadline := s.now + timeout }] } := by
  unfold touchLocked
  split
  · rename_i htimeout
    exact Or.inl ⟨rfl, Or.inl htimeout⟩
  · rename_i timeout htimeout
    split
    · rename_i hkeep
      rw [Bool.or_eq_true, Bool.or_eq_true, Bool.not_eq_true'] at hkeep
      refine Or.inl ⟨rfl, Or.inr ?_⟩
      rcases hkeep with (hidle | hsealed) | htimer
      · exact Or.inl hidle
      · exact Or.inr (Or.inl hsealed)
      · exact Or.inr (Or.inr htimer)
    · rename_i harm
      rw [Bool.or_eq_true, Bool.or_eq_true, not_or, not_or] at harm
      exact Or.inr ⟨timeout, htimeout, by simpa using harm.1.1, by simpa using harm.1.2, rfl⟩

/-- A Stage that refuses the adoption stays as it is. -/
theorem adopt_of_refused (hclosed : s.callAllowed site = false) (t loop : Nat) :
    (s.adopt site t loop).1 = s := by
  rw [adopt, if_neg (Bool.eq_false_iff.mp hclosed)]

/-! ## 9. Reading a late callback -/

/-- The handle of a late callback stays active: the submission does not settle it again. -/
def staysActive (handle : EpochHandle) (loopStillRuns : Bool) : DrainStart → Bool
  | .submitted => true
  | .refused _ settled =>
    !settled || decide (handle.backendKind = .caller) && !(handle.ownerLoop.isSome && loopStillRuns)

/-- The epoch of a late callback leaves the inventory and the watch as they are. -/
theorem lateEpoch_frame (s : EpochState) (site : CallSite) (handle : EpochHandle)
    (loopRuns : Bool) :
    ∃ backend loop lease count blocked, (s.lateEpoch site handle loopRuns).1 = { s with
      activeBackend := backend, activeLoop := loop, generationLease := lease
      leaseCount := count, blockedGenerationIds := blocked } := by
  unfold lateEpoch
  split
  · split
    · exact ⟨_, _, _, _, _, rfl⟩
    · exact ⟨_, _, _, _, _, rfl⟩
  · split
    · exact ⟨_, _, _, _, _, rfl⟩
    · exact ⟨_, _, _, _, _, rfl⟩
  · split
    · exact ⟨_, _, _, _, _, rfl⟩
    · exact ⟨_, _, _, _, _, rfl⟩

theorem lateCallback_cases {h : Nat} {handle : EpochHandle} {loopRuns loopStillRuns : Bool}
    {start : DrainStart} :
    ((s.lateCallback site h handle loopRuns loopStillRuns start).1 = s ∧
        s.callAllowed site = false) ∨
    ((s.lateCallback site h handle loopRuns loopStillRuns start).1 =
        (s.lateEpoch site handle loopRuns).1 ∧ s.callAllowed site = true ∧
      (s.lateEpoch site handle loopRuns).2.isNone = false) ∨
    ((s.lateEpoch site handle loopRuns).2.isNone = true ∧ s.callAllowed site = true ∧
      ((staysActive handle loopStillRuns start = true ∧
          (s.lateCallback site h handle loopRuns loopStillRuns start).1 =
            { (s.lateEpoch site handle loopRuns).1 with
              activeHandles := insert h (s.lateEpoch site handle loopRuns).1.activeHandles }) ∨
        (staysActive handle loopStillRuns start = false ∧
          (s.lateCallback site h handle loopRuns loopStillRuns start).1 =
            handleQuiescent { (s.lateEpoch site handle loopRuns).1 with
              activeHandles := insert h (s.lateEpoch site handle loopRuns).1.activeHandles } h))) := by
  unfold lateCallback
  cases hallowed : s.callAllowed site with
  | false => exact Or.inl ⟨rfl, rfl⟩
  | true =>
    refine Or.inr ?_
    rw [if_pos rfl]
    generalize s.lateEpoch site handle loopRuns = epoch
    obtain ⟨s', error⟩ := epoch
    cases error with
    | some error => exact Or.inl ⟨rfl, rfl, rfl⟩
    | none =>
      refine Or.inr ⟨rfl, rfl, ?_⟩
      dsimp only
      by_cases hlost : handle.backendKind = .caller ∧ ¬ (handle.ownerLoop.isSome ∧ loopStillRuns)
      · rw [if_pos hlost]
        refine Or.inl ⟨?_, rfl⟩
        cases start with
        | submitted => rfl
        | refused error settled =>
          rw [staysActive, decide_eq_true hlost.1, Bool.true_and, Bool.or_eq_true]
          refine Or.inr ?_
          rw [Bool.not_eq_true', ← Bool.not_eq_true, Bool.and_eq_true]
          exact hlost.2
      · rw [if_neg hlost]
        cases start with
        | submitted => exact Or.inl ⟨rfl, rfl⟩
        | refused error settled =>
          cases settled with
          | false => exact Or.inl ⟨rfl, rfl⟩
          | true =>
            refine Or.inr ⟨?_, rfl⟩
            rw [staysActive, Bool.not_true, Bool.false_or, ← Bool.not_eq_true, Bool.and_eq_true,
              Bool.not_eq_true', ← Bool.not_eq_true, Bool.and_eq_true, decide_eq_true_iff]
            exact hlost

/-! ## 10. Reading a deadline -/

/-- A deadline that is not current does nothing; the current one is moved, or it seals. -/
theorem idleDeadlineReached_cases (s : EpochState) (token : Nat) :
    (s.idleDeadlineReached token = s ∧ (s.idleTimeout = none ∨ token ≠ s.idleTimerToken ∨
      s.isSealed = true ∨ s.hasActiveWorkLocked = false)) ∨
    ∃ timeout, s.idleTimeout = some timeout ∧ token = s.idleTimerToken ∧ s.isSealed = false ∧
      s.hasActiveWorkLocked = true ∧
      ((s.now - s.lastActivity < timeout ∧ s.idleDeadlineReached token = { s with
          idleTimer := some s.timers.length
          timers := s.timers ++ [{ token := token, deadline :=
            s.now + (timeout - (s.now - s.lastActivity)) }] }) ∨
        (timeout ≤ s.now - s.lastActivity ∧ s.idleDeadlineReached token = { s with
          idleTimer := none, idleTimedOut := true, isSealed := true, cancelling := true })) := by
  unfold idleDeadlineReached
  split
  · rename_i htimeout
    exact Or.inl ⟨rfl, Or.inl htimeout⟩
  · rename_i timeout htimeout
    split
    · rename_i hstale
      refine Or.inl ⟨rfl, Or.inr ?_⟩
      rcases hstale with htoken | hsealed | hidle
      · exact Or.inl htoken
      · exact Or.inr (Or.inl hsealed)
      · exact Or.inr (Or.inr (by simpa using hidle))
    · rename_i hcurrent
      rw [not_or, not_or, not_not, not_not] at hcurrent
      refine Or.inr ⟨timeout, htimeout, hcurrent.1, by simpa using hcurrent.2.1,
        hcurrent.2.2, ?_⟩
      split
      · rename_i hlt
        exact Or.inl ⟨hlt, rfl⟩
      · rename_i hle
        exact Or.inr ⟨Nat.le_of_not_lt hle, rfl⟩

/-- What a firing timer does beyond that. -/
theorem fired_cases {i : Nat} (h : s.fire i = some s') :
    ∃ timer : IdleTimer, s.timers[i]? = some timer ∧ timer.fired = false ∧
      timer.deadline ≤ s.now ∧ s.observing = 0 ∧
      ((s' = { s with timers := s.timers.set i { timer with fired := true } } ∧
          (s.idleTimeout = none ∨ timer.token ≠ s.idleTimerToken ∨ s.isSealed = true ∨
            s.hasActiveWorkLocked = false)) ∨
        ∃ timeout, s.idleTimeout = some timeout ∧ timer.token = s.idleTimerToken ∧
          s.isSealed = false ∧ s.hasActiveWorkLocked = true ∧
          ((s.now - s.lastActivity < timeout ∧ s' = { s with
              idleTimer := some (s.timers.set i { timer with fired := true }).length
              timers := s.timers.set i { timer with fired := true } ++
                [{ token := timer.token, deadline :=
                  s.now + (timeout - (s.now - s.lastActivity)) }] }) ∨
            (timeout ≤ s.now - s.lastActivity ∧ s' = { s with
              timers := s.timers.set i { timer with fired := true }
              idleTimer := none, idleTimedOut := true, isSealed := true, cancelling := true }))) := by
  unfold EpochState.fire at h
  split at h
  · rename_i timer hget
    split at h
    · rename_i hfires
      cases h
      rw [Bool.and_eq_true, Bool.and_eq_true, Bool.not_eq_true', decide_eq_true_iff,
        decide_eq_true_iff] at hfires
      exact ⟨timer, hget, hfires.1.1, hfires.1.2, hfires.2, idleDeadlineReached_cases
        { s with timers := s.timers.set i { timer with fired := true } } timer.token⟩
    · cases h
  · cases h

/-! ## 11. Reading a step -/

/-- What the steps do: the guards of `step` as hypotheses. -/
inductive Stepped (s : EpochState) : EpochEvent → EpochState → Prop
  | enter (mode : ScopeMode) (hopen : s.contextMode = .plain ∧ s.isSealed = false) :
      Stepped s (.enter mode) { s with contextMode := mode }
  | go (site : CallSite) : Stepped s (.go site) (s.go site).1
  | setOwnerTask (h : Nat) : Stepped s (.setOwnerTask h) (s.setOwnerTask h)
  | handleQuiescent (h : Nat) (hlt : h < s.handles.length) :
      Stepped s (.handleQuiescent h) (s.handleQuiescent h)
  | lateCallback (site : CallSite) (h : Nat) (handle : EpochHandle)
      (loopRuns loopStillRuns : Bool) (start : DrainStart) (hget : s.handles[h]? = some handle) :
      Stepped s (.lateCallback site h loopRuns loopStillRuns start)
        (s.lateCallback site h handle loopRuns loopStillRuns start).1
  | selectForTask (site : CallSite) (loop : Nat) (hloop : site.runningLoop = some loop) :
      Stepped s (.selectForTask site) (s.selectForTask site loop).1
  | createTaskFails (i : Nat) (hlt : i < s.creating.length) :
      Stepped s (.createTaskFails i) { s with creating := s.creating.eraseIdx i }
  | createTask (i loop : Nat) (site : CallSite) (hget : s.creating[i]? = some loop)
      (hloop : site.runningLoop = some loop) :
      Stepped s (.createTask i site) (s.createTask i loop site).1
  | newTask (loop : Nat) :
      Stepped s (.newTask loop) { s with taskLoops := s.taskLoops ++ [loop] }
  | adopt (site : CallSite) (t loop : Nat) (hget : s.taskLoops[t]? = some loop) :
      Stepped s (.adopt site t) (s.adopt site t loop).1
  | adoptedTaskDone (t : Nat) (hmem : t ∈ s.adoptedTasks) :
      Stepped s (.adoptedTaskDone t) (s.adoptedTaskDone t)
  | observed (hobserving : 0 < s.observing) : Stepped s .observed s.observed
  | ownedActivity : Stepped s .ownedActivity s.touchLocked
  | tick : Stepped s .tick s.tick
  | cancelScope : Stepped s .cancelScope s.cancelScope
  | sealScope : Stepped s .sealScope s.sealScope
  | fire {s' : EpochState} (i : Nat) (hfire : s.fire i = some s') : Stepped s (.fire i) s'
  | releaseLease (lease : Nat) (hmem : lease ∈ s.releasing) :
      Stepped s (.releaseLease lease)
        { s with releasing := s.releasing.erase lease, released := s.released ++ [lease] }
  | advance (time : Nat) : Stepped s (.advance time) { s with now := s.now + time }

theorem stepped {e : EpochEvent} (hstep : s.step e = some s') : s.Stepped e s' := by
  cases e with
  | enter mode =>
    simp only [EpochState.step] at hstep
    split at hstep
    · rename_i hopen
      cases hstep
      exact .enter mode hopen
    · cases hstep
  | go site =>
    cases hstep
    exact .go site
  | setOwnerTask h =>
    cases hstep
    exact .setOwnerTask h
  | handleQuiescent h =>
    simp only [EpochState.step] at hstep
    split at hstep
    · rename_i hlt
      cases hstep
      exact .handleQuiescent h hlt
    · cases hstep
  | lateCallback site h loopRuns loopStillRuns start =>
    obtain ⟨handle, hget, rfl⟩ := Option.map_eq_some_iff.mp hstep
    exact .lateCallback site h handle loopRuns loopStillRuns start hget
  | selectForTask site =>
    obtain ⟨loop, hloop, rfl⟩ := Option.map_eq_some_iff.mp hstep
    exact .selectForTask site loop hloop
  | createTaskFails i =>
    simp only [EpochState.step] at hstep
    split at hstep
    · rename_i hlt
      cases hstep
      exact .createTaskFails i hlt
    · cases hstep
  | createTask i site =>
    simp only [EpochState.step] at hstep
    split at hstep
    · rename_i loop hget
      split at hstep
      · rename_i hloop
        cases hstep
        exact .createTask i loop site hget hloop
      · cases hstep
    · cases hstep
  | newTask loop =>
    cases hstep
    exact .newTask loop
  | adopt site t =>
    obtain ⟨loop, hget, rfl⟩ := Option.map_eq_some_iff.mp hstep
    exact .adopt site t loop hget
  | adoptedTaskDone t =>
    simp only [EpochState.step] at hstep
    split at hstep
    · rename_i hmem
      cases hstep
      exact .adoptedTaskDone t hmem
    · cases hstep
  | observed =>
    simp only [EpochState.step] at hstep
    split at hstep
    · rename_i hobserving
      cases hstep
      exact .observed hobserving
    · cases hstep
  | ownedActivity =>
    cases hstep
    exact .ownedActivity
  | tick =>
    cases hstep
    exact .tick
  | cancelScope =>
    cases hstep
    exact .cancelScope
  | sealScope =>
    cases hstep
    exact .sealScope
  | fire i => exact .fire i hstep
  | releaseLease lease =>
    simp only [EpochState.step] at hstep
    split at hstep
    · rename_i hmem
      cases hstep
      exact .releaseLease lease hmem
    · cases hstep
  | advance time =>
    cases hstep
    exact .advance time

end EpochState

end AgentlyStage
