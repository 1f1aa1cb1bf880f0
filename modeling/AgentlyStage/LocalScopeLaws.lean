import AgentlyStage.LocalTaskScope

/-!
# The laws of the local task scope

Every step of a local task scope is a run of the inventory of its Stage, so that what holds of
every inventory holds here.  The binding to one loop gives more: the epochs of the Stage are all
on that loop, so that the Stage refuses nothing but a second origin, and a callback is attached
in the thread of the loop that is to run it, where `call_soon` does not raise.  The facade does
not lose the callbacks that `Stage.adopt` can lose.
-/

namespace AgentlyStage

open Transition

namespace EpochState

variable {e e' : EpochState} {site : CallSite} {l : Nat} {loop : Option Nat}

/-! ## 1. The epochs of one loop -/

/-- A Stage that only adopts, and only on one loop. -/
structure OnLoop (e : EpochState) (loop : Option Nat) : Prop where
  configured : e.configured = .auto
  mode : e.contextMode = .plain
  handles : e.activeHandles = ∅
  backend : e.activeBackend = none ∨
    e.activeBackend = some .caller ∧ e.activeLoop = loop ∧ loop.isSome = true

namespace OnLoop

theorem of_eq (h : e.OnLoop loop) (hconfigured : e'.configured = e.configured)
    (hmode : e'.contextMode = e.contextMode) (hhandles : e'.activeHandles = e.activeHandles)
    (hbackend : e'.activeBackend = e.activeBackend) (hloop : e'.activeLoop = e.activeLoop) :
    e'.OnLoop loop :=
  ⟨hconfigured.trans h.configured, hmode.trans h.mode, hhandles.trans h.handles,
    by rw [hbackend, hloop]; exact h.backend⟩

/-- An epoch that no loop has been bound to may be on any loop. -/
theorem bind (h : e.OnLoop none) : e.OnLoop loop :=
  ⟨h.configured, h.mode, h.handles, h.backend.imp_right fun hbound => by cases hbound.2.2⟩

theorem touch (h : e.OnLoop loop) : e.touchLocked.OnLoop loop := by
  obtain ⟨activity, token, timer, timers, heq, -⟩ := touchLocked_frame e
  rw [heq]
  exact h.of_eq rfl rfl rfl rfl rfl

theorem release (h : e.OnLoop loop) : e.releaseBackendIfQuiescentLocked.OnLoop loop := by
  unfold releaseBackendIfQuiescentLocked
  split
  · exact h
  · exact ⟨h.configured, h.mode, h.handles, Or.inl rfl⟩

theorem cancelScope (h : e.OnLoop loop) : e.cancelScope.OnLoop loop := by
  unfold EpochState.cancelScope
  split
  · exact h.of_eq rfl rfl rfl rfl rfl
  · exact h

theorem sealScope (h : e.OnLoop loop) : e.sealScope.OnLoop loop := h.of_eq rfl rfl rfl rfl rfl

/-- The backend resolves to the loop. -/
theorem resolve (h : e.OnLoop (some l)) (hsite : site.runningLoop = some l) :
    ∃ e', e.resolveBackendLocked site = .ok ((.caller, some l), e') ∧ e'.OnLoop (some l) ∧
      (e' = e ∨ e' = e.bindCaller (some l)) := by
  rcases h.backend with hnone | ⟨hcaller, hloop, -⟩
  · have hselect : e.selectBackend site = .ok (.caller, some l) := by
      simp only [selectBackend, h.configured, h.mode, hsite]
    refine ⟨e.bindCaller (some l), ?_, ⟨h.configured, h.mode, h.handles, ?_⟩, Or.inr rfl⟩
    · simp only [resolveBackendLocked, hnone, hselect]
    · exact Or.inr ⟨rfl, rfl, rfl⟩
  · refine ⟨e, ?_, h, Or.inl rfl⟩
    simp only [resolveBackendLocked, hcaller, hloop]

/-- An open Stage creates a task on the loop. -/
theorem selectForTask (h : e.OnLoop (some l)) (hopen : e.isSealed = false)
    (hsite : site.runningLoop = some l) :
    ∃ e', e.selectForTask site l = (e', none) ∧ e'.OnLoop (some l) ∧
      e'.creating = e.creating ++ [l] ∧ e'.isSealed = false := by
  obtain ⟨e', hresolve, honloop, heq⟩ := h.resolve hsite
  have hallowed : e.callAllowed site = true := by simp [callAllowed, hopen]
  refine ⟨{ e' with creating := e'.creating ++ [l] }, ?_, honloop.of_eq rfl rfl rfl rfl rfl,
    ?_, ?_⟩
  · simp only [EpochState.selectForTask, hallowed, hresolve, if_true]
  · rcases heq with rfl | rfl
    · rfl
    · rfl
  · rcases heq with rfl | rfl
    · exact hopen
    · exact hopen

/-- An open Stage adopts a task of the loop. -/
theorem adopt {t : Nat} (h : e.OnLoop (some l)) (hopen : e.isSealed = false)
    (hsite : site.runningLoop = some l) (ht : t ∉ e.adoptedTasks) :
    ∃ e', e.adopt site t l = (e', none) ∧ e'.OnLoop (some l) ∧ e'.creating = e.creating ∧
      e'.isSealed = false := by
  obtain ⟨e', hresolve, honloop, heq⟩ := h.resolve hsite
  have hallowed : e.callAllowed site = true := by simp [callAllowed, hopen]
  have hnew : OnLoop { e' with adoptedTasks := insert t e'.adoptedTasks } (some l) :=
    honloop.of_eq rfl rfl rfl rfl rfl
  obtain ⟨activity, token, timer, timers, htouch, -⟩ :=
    touchLocked_frame { e' with adoptedTasks := insert t e'.adoptedTasks }
  refine ⟨touchLocked { e' with adoptedTasks := insert t e'.adoptedTasks }, ?_, hnew.touch, ?_, ?_⟩
  · simp only [EpochState.adopt, hallowed, hresolve, if_true, if_neg ht]
  · rw [htouch]
    rcases heq with rfl | rfl
    · rfl
    · rfl
  · rw [htouch]
    rcases heq with rfl | rfl
    · exact hopen
    · exact hopen

end OnLoop

/-- The loop, the calls of `create_task` and the seal stay. -/
structure KeepsScope (e e' : EpochState) : Prop where
  onLoop : ∀ loop, e.OnLoop loop → e'.OnLoop loop
  creating : e'.creating = e.creating
  isSealed : e'.isSealed = e.isSealed

namespace KeepsScope

theorem refl (e : EpochState) : KeepsScope e e := ⟨fun _ h => h, rfl, rfl⟩

theorem trans {e'' : EpochState} (h : KeepsScope e e') (h' : KeepsScope e' e'') :
    KeepsScope e e'' :=
  ⟨fun loop honloop => h'.onLoop loop (h.onLoop loop honloop), h'.creating.trans h.creating,
    h'.isSealed.trans h.isSealed⟩

theorem touch (e : EpochState) : KeepsScope e e.touchLocked := by
  refine ⟨fun _ h => h.touch, ?_, ?_⟩
  · obtain ⟨activity, token, timer, timers, heq, -⟩ := touchLocked_frame e
    rw [heq]
  · obtain ⟨activity, token, timer, timers, heq, -⟩ := touchLocked_frame e
    rw [heq]

theorem release (e : EpochState) : KeepsScope e e.releaseBackendIfQuiescentLocked := by
  refine ⟨fun _ h => h.release, ?_, ?_⟩
  · unfold releaseBackendIfQuiescentLocked
    split
    · rfl
    · rfl
  · unfold releaseBackendIfQuiescentLocked
    split
    · rfl
    · rfl

theorem adoptedTaskDone (e : EpochState) (t : Nat) : KeepsScope e (e.adoptedTaskDone t) := by
  have hleaves : KeepsScope e { e with
      adoptedTasks := e.adoptedTasks.erase t
      observing := e.observing + 1 } := ⟨fun _ h => h.of_eq rfl rfl rfl rfl rfl, rfl, rfl⟩
  exact hleaves.trans (touch _)

theorem observed (e : EpochState) : KeepsScope e e.observed := by
  have hends : KeepsScope e { e with observing := e.observing - 1 } :=
    ⟨fun _ h => h.of_eq rfl rfl rfl rfl rfl, rfl, rfl⟩
  exact hends.trans (release _)

theorem cancelScope (e : EpochState) : KeepsScope e e.cancelScope := by
  refine ⟨fun _ h => h.cancelScope, ?_, ?_⟩
  · unfold EpochState.cancelScope
    split
    · rfl
    · rfl
  · unfold EpochState.cancelScope
    split
    · rfl
    · rfl

end KeepsScope

end EpochState

/-- An event of the epoch that the scope lock allows. -/
theorem InventoryState.step_epoch {s : InventoryState} {e : EpochEvent} {epoch : EpochState}
    (user : LockUser) (he : e.leavesInventory = true)
    (hlock : e.takesLock = true → s.lockFree user = true) (h : s.epoch.step e = some epoch) :
    s.step (.epoch user e) = some { s with epoch } := by
  simp only [InventoryState.step, he, true_and, if_pos hlock, h, Option.map_some]

namespace InventoryState

variable {stage stage' : InventoryState} {site : CallSite} {t l : Nat}

/-- What a call of `adopt` does in an open Stage on the loop of the task. -/
theorem InventoryInv.adopt_onLoop (hs : stage.InventoryInv)
    (honloop : stage.epoch.OnLoop (some l)) (hopen : stage.epoch.isSealed = false)
    (hsite : site.runningLoop = some l) (origin : String) :
    (∃ existing, stage.adoptedTasks.lookup t = some existing ∧ existing ≠ origin ∧
      stage.adopt site t l origin = (stage, some (.stageLifecycle
        ("A Stage task cannot be adopted with two origins: '" ++ existing ++ "' and '" ++
          origin ++ "'")))) ∨
    (stage.adoptedTasks.lookup t = some origin ∧ stage.adopt site t l origin = (stage, none)) ∨
    stage.adoptedTasks.lookup t = none ∧ ∃ epoch,
      EpochState.KeepsTasks
        { stage.epoch with adoptedTasks := insert t stage.epoch.adoptedTasks } epoch ∧
      epoch.OnLoop (some l) ∧ epoch.creating = stage.epoch.creating ∧ epoch.isSealed = false ∧
      stage.adopt site t l origin = ({ stage with
        epoch
        adoptedTasks := stage.adoptedTasks ++ [(t, origin)]
        adoptions := stage.adoptions ++ [(t, origin)]
        attaching := stage.attaching ++ [⟨t, some l, epoch.cancelling⟩] }, none) := by
  have hallowed : stage.epoch.callAllowed site = true := by simp [EpochState.callAllowed, hopen]
  unfold InventoryState.adopt
  rw [if_pos hallowed]
  cases hlookup : stage.adoptedTasks.lookup t with
  | some existing =>
    dsimp only
    by_cases hsame : existing = origin
    · subst hsame
      exact Or.inr (Or.inl ⟨rfl, if_neg (not_not.mpr rfl)⟩)
    · exact Or.inl ⟨existing, rfl, hsame, if_pos hsame⟩
  | none =>
    have hnew : t ∉ stage.epoch.adoptedTasks := fun hmem =>
      lookup_eq_none.mp hlookup ((hs.active t).mp hmem)
    obtain ⟨epoch, hadopt, honloop', hcreating, hunsealed⟩ := honloop.adopt hopen hsite hnew
    refine Or.inr (Or.inr ⟨rfl, epoch, ?_, honloop', hcreating, hunsealed, ?_⟩)
    · rcases EpochState.KeepsTasks.adopt stage.epoch site t l hnew with ⟨-, hkeeps⟩ | ⟨hsome, -⟩
      · rw [hadopt] at hkeeps
        exact hkeeps
      · rw [hadopt] at hsome
        exact absurd rfl hsome
    · rw [hadopt, hsite]

/-- What no step outside `spawn` and `adopt` changes: tasks only leave the inventory. -/
structure Shrinks (stage stage' : InventoryState) : Prop where
  onLoop : ∀ loop, stage.epoch.OnLoop loop → stage'.epoch.OnLoop loop
  creating : stage'.epoch.creating = stage.epoch.creating
  taskLoops : stage.epoch.taskLoops <+: stage'.epoch.taskLoops
  keys : stage'.keys ⊆ stage.keys
  attaching : stage'.attaching = stage.attaching
  adoptions : stage'.adoptions = stage.adoptions
  loops : stage'.loops = stage.loops
  orphans : stage'.orphans = stage.orphans
  hasObserver : stage'.hasObserver = stage.hasObserver

namespace Shrinks

theorem refl (stage : InventoryState) : Shrinks stage stage :=
  ⟨fun _ h => h, rfl, List.prefix_refl _, fun _ h => h, rfl, rfl, rfl, rfl, rfl⟩

theorem trans {stage'' : InventoryState} (h : Shrinks stage stage') (h' : Shrinks stage' stage'') :
    Shrinks stage stage'' :=
  ⟨fun loop honloop => h'.onLoop loop (h.onLoop loop honloop), h'.creating.trans h.creating,
    h.taskLoops.trans h'.taskLoops, fun _ hmem => h.keys (h'.keys hmem),
    h'.attaching.trans h.attaching, h'.adoptions.trans h.adoptions, h'.loops.trans h.loops,
    h'.orphans.trans h.orphans, h'.hasObserver.trans h.hasObserver⟩

theorem onlyWaits (h : stage.OnlyWaits stage') : Shrinks stage stage' := by
  rw [h.frame]
  exact ⟨fun _ h => h, rfl, List.prefix_refl _, fun _ h => h, rfl, rfl, rfl, rfl, rfl⟩

theorem finish (h : stage.finish t = some stage') : Shrinks stage stage' := by
  unfold InventoryState.finish at h
  split at h
  · cases h
    exact ⟨fun _ h => h, rfl, List.prefix_refl _, fun _ h => h, rfl, rfl, rfl, rfl, rfl⟩
  · cases h

theorem adoptedTaskDone (hs : stage.InventoryInv) (h : stage.adoptedTaskDone t = some stage') :
    Shrinks stage stage' := by
  have hscope : EpochState.KeepsScope stage.epoch stage'.epoch := by
    obtain ⟨-, heq | heq⟩ := hs.adoptedTaskDone_epoch h
    · rw [heq]
      exact .adoptedTaskDone _ t
    · rw [heq]
      exact (EpochState.KeepsScope.adoptedTaskDone _ t).trans (.observed _)
  obtain ⟨origin, epoch, observing, -, -, hkeeps, -, rfl⟩ := hs.adoptedTaskDone_spec h
  refine ⟨hscope.onLoop, hscope.creating, hkeeps.taskLoops, fun u hu => ?_, rfl, rfl, rfl, rfl, rfl⟩
  obtain ⟨entry, hentry, rfl⟩ := List.mem_map.mp hu
  exact List.mem_map.mpr ⟨entry, List.mem_of_mem_filter hentry, rfl⟩

theorem observerEnds {how : ObserverEnd} (h : stage.observerEnds how = some stage') :
    Shrinks stage stage' := by
  obtain ⟨call, -, rfl⟩ := Option.map_eq_some_iff.mp h
  have hscope := EpochState.KeepsScope.observed stage.epoch
  have hkeeps := (EpochState.KeepsTasks.observed stage.epoch).taskLoops
  cases how with
  | returned =>
    exact ⟨hscope.onLoop, hscope.creating, hkeeps, fun _ h => h, rfl, rfl, rfl, rfl, rfl⟩
  | reported =>
    exact ⟨hscope.onLoop, hscope.creating, hkeeps, fun _ h => h, rfl, rfl, rfl, rfl, rfl⟩
  | handlerExits =>
    exact ⟨fun _ h => h.of_eq rfl rfl rfl rfl rfl, rfl, List.prefix_refl _, fun _ h => h, rfl, rfl,
      rfl, rfl, rfl⟩

end Shrinks

/-- The epoch stays open when a task leaves. -/
theorem adoptedTaskDone_isSealed (hs : stage.InventoryInv)
    (h : stage.adoptedTaskDone t = some stage') :
    stage'.epoch.isSealed = stage.epoch.isSealed := by
  obtain ⟨-, heq | heq⟩ := hs.adoptedTaskDone_epoch h
  · rw [heq]
    exact (EpochState.KeepsScope.adoptedTaskDone _ t).isSealed
  · rw [heq]
    exact ((EpochState.KeepsScope.adoptedTaskDone _ t).trans (.observed _)).isSealed

theorem observerEnds_isSealed {how : ObserverEnd} (h : stage.observerEnds how = some stage') :
    stage'.epoch.isSealed = stage.epoch.isSealed := by
  obtain ⟨call, -, rfl⟩ := Option.map_eq_some_iff.mp h
  cases how with
  | returned => exact (EpochState.KeepsScope.observed _).isSealed
  | reported => exact (EpochState.KeepsScope.observed _).isSealed
  | handlerExits => rfl

end InventoryState

namespace LocalTaskScope

variable {s s' : LocalTaskScope} {stage : InventoryState} {site : CallSite} {t l : Nat}

/-! ## 2. The inventory of a local task scope -/

theorem bindRunningLoop_spec {running : Option Nat} (h : s.bindRunningLoop running = .ok (l, s')) :
    running = some l ∧ s' = { s with loop := some l } ∧ (s.loop = none ∨ s.loop = some l) := by
  unfold bindRunningLoop at h
  split at h
  · cases h
  · split at h
    · rename_i hloop
      cases h
      exact ⟨rfl, rfl, Or.inl hloop⟩
    · rename_i loop hloop
      split at h
      · rename_i heq
        cases h
        refine ⟨rfl, ?_, Or.inr (hloop.trans (congrArg some heq))⟩
        rw [← heq, ← hloop]
      · cases h

/-- What runs in the thread of the loop can take the scope lock. -/
theorem lockFree_user (s : LocalTaskScope) : s.stage.lockFree s.user = true := by
  unfold user
  split
  · assumption
  · rename_i hnone
    simpa [InventoryState.lockFree] using hnone

theorem spawn_stage (s : LocalTaskScope) (site : CallSite) (origin : String) :
    (s.spawn site origin).stage = s.stage ∨ ∃ l, site.runningLoop = some l ∧
      (s.spawn site origin).stage =
        { s.stage with epoch := (s.stage.epoch.selectForTask site l).1 } := by
  unfold spawn
  split
  · exact Or.inl rfl
  · split
    · exact Or.inl rfl
    · rename_i l s' hbind
      obtain ⟨hsite, rfl, -⟩ := bindRunningLoop_spec hbind
      refine Or.inr ⟨l, hsite, ?_⟩
      split
      · rename_i epoch error hselect
        rw [hselect]
        rfl
      · rename_i epoch hselect
        rw [hselect]
        rfl

theorem adopt_stage (s : LocalTaskScope) (site : CallSite) (t : Nat) (origin : String) :
    (s.adopt site t origin).stage = s.stage := by
  unfold adopt
  split
  · rfl
  · split
    · rfl
    · rename_i l s' hbind
      obtain ⟨-, rfl, -⟩ := bindRunningLoop_spec hbind
      split
      · rfl
      · rfl

theorem barrier_stage (s : LocalTaskScope) (running : Option Nat) (kind : LocalBarrierKind)
    (owned : Bool) (task : Option Nat) (hasTimeout : Bool) :
    (s.barrier running kind owned task hasTimeout).stage = s.stage := by
  unfold barrier
  dsimp only
  split
  · rfl
  · rename_i l s' hbind
    obtain ⟨-, rfl, -⟩ := bindRunningLoop_spec hbind
    split
    · split
      · rfl
      · rfl
    · rfl
    · rfl

/-- How the wait of a barrier moves on. -/
inductive Waits (s : LocalTaskScope) (i w : Nat) (barrier : LocalBarrier) (stage : InventoryState) :
    LocalTaskScope → Prop
  | returned (h : stage.waits[w]? = some .returned) :
      Waits s i w barrier stage ({ s with stage }.settled i barrier)
  | timedOut (h : stage.waits[w]? = some .timedOut) :
      Waits s i w barrier stage ({ s with stage }.timedOut i barrier)
  | blocked (hreturned : stage.waits[w]? ≠ some .returned)
      (htimedOut : stage.waits[w]? ≠ some .timedOut) :
      Waits s i w barrier stage
        ({ s with stage }.setBarrier i { barrier with phase := .blocked w })

theorem waits (s : LocalTaskScope) (i w : Nat) (barrier : LocalBarrier) (stage : InventoryState) :
    Waits s i w barrier stage (s.waited i w barrier stage) := by
  unfold waited
  split
  · rename_i h
    exact .returned h
  · rename_i h
    exact .timedOut h
  · rename_i hreturned htimedOut
    exact .blocked hreturned htimedOut

theorem Waits.stage_eq {i w : Nat} {barrier : LocalBarrier} {stage : InventoryState}
    (h : Waits s i w barrier stage s') : s'.stage = stage := by
  cases h with
  | returned h => rfl
  | timedOut h => rfl
  | blocked hreturned htimedOut => rfl

/-- What a step of the thread of a barrier does. -/
inductive Threaded (s : LocalTaskScope) (i : Nat) (barrier : LocalBarrier) : LocalTaskScope → Prop
  | starts (hphase : barrier.phase = .queued) (hbody : barrier.body = .waitSettled) :
      Threaded s i barrier (s.setBarrier i { barrier with phase := .entering })
  | cancels (hphase : barrier.phase = .queued) (hbody : barrier.body = .cancelAndWaitSettled)
      (hfree : s.stage.lockFree .other = true)
      (hwork : s.stage.epoch.hasActiveWorkLocked = true) :
      Threaded s i barrier ((s.withEpoch s.stage.epoch.cancelScope).setBarrier i
        { barrier with phase := .entering })
  | idle (hphase : barrier.phase = .queued) (hbody : barrier.body = .cancelAndWaitSettled)
      (hidle : s.stage.epoch.hasActiveWorkLocked = false) :
      Threaded s i barrier
        (s.setBarrier i { barrier with phase := .finished (.returned (some false)) })
  | completed (hphase : barrier.phase = .queued) (hbody : barrier.body = .close)
      (hcompleted : s.stageCompleted = true) :
      Threaded s i barrier (s.setBarrier i { barrier with phase := .finished (.returned none) })
  | seals (hphase : barrier.phase = .queued) (hbody : barrier.body = .close)
      (hfree : s.stage.lockFree .other = true) (hlock : s.closeOperationLock = none)
      (hcompleted : s.stageCompleted = false) :
      Threaded s i barrier { (s.withEpoch s.stage.epoch.sealScope).setBarrier i
        { barrier with phase := .entering } with closeOperationLock := some i }
  | enters {stage : InventoryState} {s' : LocalTaskScope} (hphase : barrier.phase = .entering)
      (hwait : s.stage.waitSettled .other = some stage)
      (h : Waits s i s.stage.waits.length barrier stage s') : Threaded s i barrier s'
  | wakes {stage : InventoryState} {w : Nat} {timeLeft : Bool} {s' : LocalTaskScope}
      (hphase : barrier.phase = .blocked w) (hwake : s.stage.wake w timeLeft = some stage)
      (h : Waits s i w barrier stage s') : Threaded s i barrier s'
  | completes (hphase : barrier.phase = .completing) (hfree : s.stage.lockFree .other = true) :
      Threaded s i barrier { s.setBarrier i
        { barrier with phase := .finished (.returned none) } with
        stageCompleted := true
        closeOperationLock := none }

theorem threaded {i : Nat} {barrier : LocalBarrier} {timeLeft : Bool}
    (h : s.threadStep i barrier timeLeft = some s') : Threaded s i barrier s' := by
  unfold threadStep at h
  split at h
  · rename_i hphase hbody
    cases h
    exact .starts hphase hbody
  · rename_i hphase hbody
    split at h
    · rename_i hfree
      split at h
      · rename_i hwork
        cases h
        exact .cancels hphase hbody hfree hwork
      · rename_i hidle
        cases h
        exact .idle hphase hbody (Bool.eq_false_iff.mpr hidle)
    · cases h
  · rename_i hphase hbody
    split at h
    · rename_i hfree
      split at h
      · rename_i hcompleted
        cases h
        exact .completed hphase hbody hcompleted
      · rename_i hcompleted
        cases h
        exact .seals hphase hbody hfree.1 hfree.2 (Bool.eq_false_iff.mpr hcompleted)
    · cases h
  · rename_i hphase
    obtain ⟨stage, hstage, rfl⟩ := Option.map_eq_some_iff.mp h
    exact .enters hphase hstage (waits s i _ barrier stage)
  · rename_i w hphase
    split at h
    · obtain ⟨stage, hstage, rfl⟩ := Option.map_eq_some_iff.mp h
      exact .wakes hphase hstage (waits s i w barrier stage)
    · cases h
  · rename_i hphase
    split at h
    · rename_i hfree
      cases h
      exact .completes hphase hfree
    · cases h
  · cases h
  · cases h

theorem resume_stage {i : Nat} {barrier : LocalBarrier} (h : s.resume i barrier = some s') :
    s'.stage = s.stage := by
  unfold resume at h
  split at h
  · cases h
    rfl
  · split at h
    · cases h
      rfl
    · cases h
      rfl
    · cases h
      rfl
  · cases h

theorem abandon_stage {i : Nat} {barrier : LocalBarrier} (h : s.abandon i barrier = some s') :
    s'.stage = s.stage := by
  unfold abandon at h
  split at h
  · cases h
    rfl
  · cases h

/-- What the thread of the loop does to the inventory in a `spawn` or an `adopt`. -/
theorem callStep_stage (h : s.callStep = some s') :
    s.stage.makeTask 0 = some s'.stage ∨ s.stage.attach 0 = some s'.stage ∨
      ∃ site t l origin, s.stage.loopOf t = some l ∧ s'.stage = (s.stage.adopt site t l origin).1 := by
  unfold callStep at h
  split at h
  · cases h
  · obtain ⟨stage, hstage, rfl⟩ := Option.map_eq_some_iff.mp h
    exact Or.inl hstage
  · rename_i site t request hcalling
    obtain ⟨loop, hloop, rfl⟩ := Option.map_eq_some_iff.mp h
    refine Or.inr (Or.inr ⟨site, t, loop, request.origin, hloop, ?_⟩)
    split
    · rename_i stage error hadopt
      rw [hadopt]
      rfl
    · rename_i stage hadopt
      rw [hadopt]
  · obtain ⟨call, -, h⟩ := Option.bind_eq_some_iff.mp h
    obtain ⟨stage, hstage, rfl⟩ := Option.map_eq_some_iff.mp h
    refine Or.inr (Or.inl ?_)
    split
    · exact hstage
    · exact hstage

/-- The completion callback leaves the inventory, and the observer has ended with it when there
    is no `_on_done`. -/
theorem taskDone_spec (h : s.taskDone t = some s') :
    ∃ stage how origin, s.calling = none ∧ s.stage.adoptedTaskDone t = some stage ∧
      stage.observing.map Prod.snd = some origin ∧ s.taskEnds t = some how ∧
      ((s.hasOnDone = true ∧
          s' = { s with stage, outcomes := s.outcomes ++ [.ofEnd t origin how] }) ∨
        s.hasOnDone = false ∧ ∃ ended, stage.observerEnds .returned = some ended ∧
          s' = { s with stage := ended }) := by
  unfold taskDone at h
  split at h
  · rename_i hcalling
    obtain ⟨stage, hstage, h⟩ := Option.bind_eq_some_iff.mp h
    split at h
    · rename_i t' origin how hobserving hhow
      refine ⟨stage, how, origin, hcalling, hstage, by rw [hobserving]; rfl, hhow, ?_⟩
      split at h
      · rename_i hhas
        cases h
        exact Or.inl ⟨hhas, rfl⟩
      · rename_i hnone
        obtain ⟨ended, hended, rfl⟩ := Option.map_eq_some_iff.mp h
        exact Or.inr ⟨by simpa using hnone, ended, hended, rfl⟩
    · cases h
  · cases h

/-- **The facade runs its Stage**: every step of it is a run of the inventory. -/
theorem stage_run {e : LocalEvent} (h : s.step e = some s') :
    ∃ es, (inventorySystem .auto none true).run s.stage es = some s'.stage := by
  have hrun : ∀ {stage stage' : InventoryState} {e : InventoryEvent}, stage.step e = some stage' →
      ∃ es, (inventorySystem .auto none true).run stage es = some stage' :=
    fun hstep => ⟨_, System.run_cons_of_step hstep []⟩
  cases e with
  | newTask loop =>
    cases h
    exact hrun (InventoryState.step_epoch (e := .newTask loop) .other rfl
      (fun hlock => Bool.noConfusion hlock) rfl)
  | loopChanges loop status =>
    simp only [step] at h
    split at h
    · cases h
    · obtain ⟨stage, hstage, rfl⟩ := Option.map_eq_some_iff.mp h
      exact hrun hstage
  | spawn site origin =>
    simp only [step] at h
    split at h
    · cases h
      rcases spawn_stage s site origin with heq | ⟨l, hsite, heq⟩
      · exact ⟨[], congrArg some heq.symm⟩
      · rw [heq]
        refine hrun (InventoryState.step_epoch (e := .selectForTask site) s.user rfl
          (fun _ => s.lockFree_user) ?_)
        rw [EpochState.step, hsite, Option.map_some]
    · cases h
  | adopt site t origin =>
    simp only [step] at h
    split at h
    · cases h
      exact ⟨[], congrArg some (adopt_stage s site t origin).symm⟩
    · cases h
  | callStep =>
    rcases callStep_stage h with hstage | hstage | ⟨site, t, l, origin, hloop, heq⟩
    · exact hrun (e := .makeTask 0) hstage
    · exact hrun (e := .attach 0) hstage
    · refine hrun (e := .adopt s.user site t origin) ?_
      refine (if_pos s.lockFree_user).trans ?_
      rw [hloop, Option.map_some, heq]
  | createTaskFails =>
    simp only [step, createTaskFails] at h
    split at h
    · obtain ⟨epoch, hepoch, rfl⟩ := Option.map_eq_some_iff.mp h
      exact hrun (InventoryState.step_epoch (e := .createTaskFails 0) .other rfl
        (fun hlock => Bool.noConfusion hlock) hepoch)
    · cases h
  | finish t how =>
    simp only [step, finish] at h
    split at h
    · obtain ⟨stage, hstage, rfl⟩ := Option.map_eq_some_iff.mp h
      exact hrun (e := .finish t) hstage
    · cases h
  | taskDone t =>
    obtain ⟨stage, how, origin, -, hstage, -, -, ⟨-, rfl⟩ | ⟨-, ended, hended, rfl⟩⟩ :=
      taskDone_spec h
    · exact hrun (e := .adoptedTaskDone t) hstage
    · have hdone : (inventorySystem .auto none true).step s.stage (.adoptedTaskDone t) =
          some stage := hstage
      have hends : (inventorySystem .auto none true).step stage (.observerEnds .returned) =
          some ended := hended
      exact ⟨[.adoptedTaskDone t, .observerEnds .returned],
        (System.run_cons_of_step hdone _).trans (System.run_cons_of_step hends [])⟩
  | callbackEnds how =>
    simp only [step, callbackEnds] at h
    split at h
    · obtain ⟨call, -, h⟩ := Option.bind_eq_some_iff.mp h
      obtain ⟨stage, hstage, rfl⟩ := Option.map_eq_some_iff.mp h
      exact hrun (e := .observerEnds how.observerEnd) hstage
    · cases h
  | barrier running kind owned task hasTimeout =>
    simp only [step] at h
    split at h
    · cases h
      exact ⟨[], congrArg some (barrier_stage s running kind owned task hasTimeout).symm⟩
    · cases h
  | threadStep i timeLeft =>
    obtain ⟨barrier, -, hthread⟩ := Option.bind_eq_some_iff.mp h
    cases threaded hthread with
    | starts hphase hbody => exact ⟨[], rfl⟩
    | cancels hphase hbody hfree hwork =>
      exact hrun (InventoryState.step_epoch (e := .cancelScope) .other rfl (fun _ => hfree) rfl)
    | idle hphase hbody hidle => exact ⟨[], rfl⟩
    | completed hphase hbody hcompleted => exact ⟨[], rfl⟩
    | seals hphase hbody hfree hlock hcompleted =>
      exact hrun (InventoryState.step_epoch (e := .sealScope) .other rfl (fun _ => hfree) rfl)
    | enters hphase hwait h =>
      rw [h.stage_eq]
      exact hrun (e := .waitSettled .other) hwait
    | @wakes stage w timeLeft _ hphase hwake h =>
      rw [h.stage_eq]
      exact hrun (e := .wake w timeLeft) hwake
    | completes hphase hfree => exact ⟨[], rfl⟩
  | resume i =>
    simp only [step] at h
    split at h
    · obtain ⟨barrier, -, hresume⟩ := Option.bind_eq_some_iff.mp h
      exact ⟨[], congrArg some (resume_stage hresume).symm⟩
    · cases h
  | abandon i =>
    simp only [step] at h
    split at h
    · obtain ⟨barrier, -, habandon⟩ := Option.bind_eq_some_iff.mp h
      exact ⟨[], congrArg some (abandon_stage habandon).symm⟩
    · cases h

theorem simulates (hasOnDone : Bool) :
    System.Simulation (localSystem hasOnDone) (inventorySystem .auto none true)
      LocalTaskScope.stage where
  init s hs := by
    rw [show s = .new hasOnDone from hs]
    rfl
  step _ _ _ _ hstep := stage_run hstep

/-! ## 3. The barriers -/

/-- A step that does not concern the barriers leaves what they have done. -/
structure KeepsBarriers (s s' : LocalTaskScope) : Prop where
  closed : s'.closed = s.closed
  closeCompleted : s'.closeCompleted = s.closeCompleted
  stageCompleted : s'.stageCompleted = s.stageCompleted
  closeOperationLock : s'.closeOperationLock = s.closeOperationLock
  barriers : s'.barriers = s.barriers

/-- The event is the call of a barrier or one of its steps. -/
def ofBarrier : LocalEvent → Bool
  | .barrier _ _ _ _ _ | .threadStep _ _ | .resume _ | .abandon _ => true
  | _ => false

theorem keepsBarriers {e : LocalEvent} (he : ofBarrier e = false) (h : s.step e = some s') :
    KeepsBarriers s s' := by
  cases e with
  | newTask loop =>
    cases h
    exact ⟨rfl, rfl, rfl, rfl, rfl⟩
  | loopChanges loop status =>
    simp only [step] at h
    split at h
    · cases h
    · obtain ⟨stage, -, rfl⟩ := Option.map_eq_some_iff.mp h
      exact ⟨rfl, rfl, rfl, rfl, rfl⟩
  | spawn site origin =>
    simp only [step, spawn] at h
    split at h
    · cases h
      split
      · exact ⟨rfl, rfl, rfl, rfl, rfl⟩
      · split
        · exact ⟨rfl, rfl, rfl, rfl, rfl⟩
        · rename_i l s' hbind
          obtain ⟨-, rfl, -⟩ := bindRunningLoop_spec hbind
          split
          · exact ⟨rfl, rfl, rfl, rfl, rfl⟩
          · exact ⟨rfl, rfl, rfl, rfl, rfl⟩
    · cases h
  | adopt site t origin =>
    simp only [step, adopt] at h
    split at h
    · cases h
      split
      · exact ⟨rfl, rfl, rfl, rfl, rfl⟩
      · split
        · exact ⟨rfl, rfl, rfl, rfl, rfl⟩
        · rename_i l s' hbind
          obtain ⟨-, rfl, -⟩ := bindRunningLoop_spec hbind
          split
          · exact ⟨rfl, rfl, rfl, rfl, rfl⟩
          · exact ⟨rfl, rfl, rfl, rfl, rfl⟩
    · cases h
  | callStep =>
    simp only [step, callStep] at h
    split at h
    · cases h
    · obtain ⟨stage, -, rfl⟩ := Option.map_eq_some_iff.mp h
      exact ⟨rfl, rfl, rfl, rfl, rfl⟩
    · obtain ⟨loop, -, rfl⟩ := Option.map_eq_some_iff.mp h
      split
      · exact ⟨rfl, rfl, rfl, rfl, rfl⟩
      · exact ⟨rfl, rfl, rfl, rfl, rfl⟩
    · obtain ⟨call, -, h⟩ := Option.bind_eq_some_iff.mp h
      obtain ⟨stage, -, rfl⟩ := Option.map_eq_some_iff.mp h
      split
      · exact ⟨rfl, rfl, rfl, rfl, rfl⟩
      · exact ⟨rfl, rfl, rfl, rfl, rfl⟩
  | createTaskFails =>
    simp only [step, createTaskFails] at h
    split at h
    · obtain ⟨epoch, -, rfl⟩ := Option.map_eq_some_iff.mp h
      exact ⟨rfl, rfl, rfl, rfl, rfl⟩
    · cases h
  | finish t how =>
    simp only [step, finish] at h
    split at h
    · obtain ⟨stage, -, rfl⟩ := Option.map_eq_some_iff.mp h
      exact ⟨rfl, rfl, rfl, rfl, rfl⟩
    · cases h
  | taskDone t =>
    obtain ⟨stage, how, origin, -, -, -, -, ⟨-, rfl⟩ | ⟨-, ended, -, rfl⟩⟩ := taskDone_spec h
    · exact ⟨rfl, rfl, rfl, rfl, rfl⟩
    · exact ⟨rfl, rfl, rfl, rfl, rfl⟩
  | callbackEnds how =>
    simp only [step, callbackEnds] at h
    split at h
    · obtain ⟨call, -, h⟩ := Option.bind_eq_some_iff.mp h
      obtain ⟨stage, -, rfl⟩ := Option.map_eq_some_iff.mp h
      exact ⟨rfl, rfl, rfl, rfl, rfl⟩
    · cases h
  | barrier running kind owned task hasTimeout => cases he
  | threadStep i timeLeft => cases he
  | resume i => cases he
  | abandon i => cases he

/-- What the call of a barrier does: it is over at once, or it goes on to its thread. -/
inductive Called (s : LocalTaskScope) (running : Option Nat) (kind : LocalBarrierKind) :
    LocalTaskScope → Prop
  | refused (called : LocalBarrier) (hover : called.phase = .withdrawn) :
      Called s running kind { s with barriers := s.barriers ++ [called] }
  | ended {l : Nat} (called : LocalBarrier) (hover : called.phase = .withdrawn)
      (hloop : s.loop = none ∨ s.loop = some l) :
      Called s running kind { s with loop := some l, barriers := s.barriers ++ [called] }
  | goes {l : Nat} (called : LocalBarrier) (hkind : called.kind = kind)
      (hbody : called.body = kind.firstBody)
      (hphase : called.phase = .queued ∨ called.phase = .withdrawn)
      (hrunning : running = some l) (hloop : s.loop = none ∨ s.loop = some l) :
      Called s running kind { s with
        loop := some l
        closed := s.closed || kind.isClose
        barriers := s.barriers ++ [called] }

/-- The guard keeps the kind, and sends the barrier to its thread or ends it. -/
theorem guarded_spec (s : LocalTaskScope) (barrier : LocalBarrier) (body : BarrierBody) :
    (s.guarded barrier body).kind = barrier.kind ∧ (s.guarded barrier body).body = body ∧
      ((s.guarded barrier body).phase = .queued ∨ (s.guarded barrier body).phase = .withdrawn) := by
  unfold guarded
  split
  · exact ⟨rfl, rfl, Or.inr rfl⟩
  · exact ⟨rfl, rfl, Or.inl rfl⟩

theorem called (s : LocalTaskScope) (running : Option Nat) (kind : LocalBarrierKind)
    (owned : Bool) (task : Option Nat) (hasTimeout : Bool) :
    Called s running kind (s.barrier running kind owned task hasTimeout) := by
  unfold barrier
  dsimp only
  split
  · exact .refused _ rfl
  · rename_i l s' hbind
    obtain ⟨hrunning, rfl, hloop⟩ := bindRunningLoop_spec hbind
    obtain ⟨hkind, hbody, hphase⟩ := guarded_spec { s with loop := some l }
      { kind, body := kind.firstBody, owned, task, hasTimeout } kind.firstBody
    cases kind with
    | close cancel =>
      dsimp only
      split
      · exact .ended _ rfl hloop
      · have hgoes := Called.goes (s := s) _ hkind hbody hphase hrunning hloop
        rw [LocalBarrierKind.isClose, Bool.or_true] at hgoes
        exact hgoes
    | waitSettled =>
      have hgoes := Called.goes (s := s) _ hkind hbody hphase hrunning hloop
      rw [LocalBarrierKind.isClose, Bool.or_false] at hgoes
      exact hgoes
    | cancelAndWait =>
      have hgoes := Called.goes (s := s) _ hkind hbody hphase hrunning hloop
      rw [LocalBarrierKind.isClose, Bool.or_false] at hgoes
      exact hgoes

/-- What a coroutine does when its thread has ended, or when it is cancelled. -/
inductive Awaited (s : LocalTaskScope) (i : Nat) (barrier : LocalBarrier) : LocalTaskScope → Prop
  | ended {result : Option BarrierResult} :
      Awaited s i barrier (s.setBarrier i { barrier with result })
  | withdrawn {result : Option BarrierResult} (hqueued : barrier.phase = .queued) :
      Awaited s i barrier (s.setBarrier i { barrier with phase := .withdrawn, result })
  | closes {value : Option Bool} (called : LocalBarrier) (hclose : barrier.kind.isClose = true)
      (hfinished : barrier.phase = .finished (.returned value))
      (hkind : called.kind = barrier.kind) (hbody : called.body = .close)
      (hphase : called.phase = .queued ∨ called.phase = .withdrawn) :
      Awaited s i barrier (s.setBarrier i called)
  | completes {value : Option Bool} (hclose : barrier.kind.isClose = true)
      (hphase : barrier.phase = .finished (.returned value))
      (hbody : barrier.body ≠ .cancelAndWaitSettled) :
      Awaited s i barrier { s.setBarrier i { barrier with result := some (.returned none) } with
        closeCompleted := true }

theorem resumed {i : Nat} {barrier : LocalBarrier} (h : s.resume i barrier = some s') :
    Awaited s i barrier s' := by
  unfold resume at h
  split at h
  · cases h
    exact .ended
  · rename_i value hresult hphase
    split at h
    · rename_i cancel hkind hbody
      cases h
      obtain ⟨hsame, hclose, hnext⟩ := guarded_spec s barrier .close
      exact .closes _ (by rw [hkind]; rfl) hphase hsame hclose hnext
    · rename_i cancel body hkind hbody
      cases h
      exact .completes (by rw [hkind]; rfl) hphase hbody
    · cases h
      exact .ended
  · cases h

theorem abandoned {i : Nat} {barrier : LocalBarrier} (h : s.abandon i barrier = some s') :
    Awaited s i barrier s' := by
  unfold abandon at h
  split at h
  · cases h
    split
    · rename_i hqueued
      exact .withdrawn hqueued
    · exact .ended
  · cases h

/-- The threads that close the Stage are those of a closed scope. -/
def Closers (s : LocalTaskScope) : Prop :=
  ∀ barrier ∈ s.barriers, barrier.phase ≠ .withdrawn →
    barrier.body = .close ∨ barrier.kind.isClose = true → s.closed = true

namespace Closers

theorem set (hs : s.Closers) {i : Nat} {barrier : LocalBarrier}
    (hnew : barrier.phase ≠ .withdrawn →
      barrier.body = .close ∨ barrier.kind.isClose = true → s.closed = true) :
    ∀ other ∈ s.barriers.set i barrier, other.phase ≠ .withdrawn →
      other.body = .close ∨ other.kind.isClose = true → s.closed = true := by
  intro other hmem hphase hcloses
  rcases List.mem_or_eq_of_mem_set hmem with hmem | rfl
  · exact hs other hmem hphase hcloses
  · exact hnew hphase hcloses

theorem threaded (hs : s.Closers) {i : Nat} {barrier : LocalBarrier}
    (hmem : barrier ∈ s.barriers) (h : Threaded s i barrier s') : s'.Closers := by
  have hset : ∀ phase : LocalPhase, barrier.phase ≠ .withdrawn →
      ∀ other ∈ s.barriers.set i { barrier with phase }, other.phase ≠ .withdrawn →
        other.body = .close ∨ other.kind.isClose = true → s.closed = true :=
    fun phase hphase => hs.set fun _ hcloses => hs barrier hmem hphase hcloses
  have hwaits : ∀ {w stage s'}, barrier.phase ≠ .withdrawn → Waits s i w barrier stage s' →
      s'.Closers := by
    intro w stage s' hphase hwaits
    cases hwaits with
    | returned h => exact hset _ hphase
    | timedOut h => exact hset _ hphase
    | blocked hreturned htimedOut => exact hset _ hphase
  cases h with
  | starts hphase hbody => exact hset _ (by simp [hphase])
  | cancels hphase hbody hfree hwork => exact hset _ (by simp [hphase])
  | idle hphase hbody hidle => exact hset _ (by simp [hphase])
  | completed hphase hbody hcompleted => exact hset _ (by simp [hphase])
  | seals hphase hbody hfree hlock hcompleted => exact hset _ (by simp [hphase])
  | enters hphase hwait h => exact hwaits (by simp [hphase]) h
  | wakes hphase hwake h => exact hwaits (by simp [hphase]) h
  | completes hphase hfree => exact hset _ (by simp [hphase])

theorem awaited (hs : s.Closers) {i : Nat} {barrier : LocalBarrier}
    (hmem : barrier ∈ s.barriers) (h : Awaited s i barrier s') : s'.Closers := by
  cases h with
  | ended => exact hs.set fun hstarted hcloses => hs barrier hmem hstarted hcloses
  | withdrawn hqueued => exact hs.set fun hstarted _ => absurd rfl hstarted
  | closes called hclose hfinished hkind hbody hphase =>
    exact hs.set fun _ _ => hs barrier hmem (by simp [hfinished]) (Or.inr hclose)
  | completes hclose hphase hbody =>
    exact hs.set fun hstarted hcloses => hs barrier hmem hstarted hcloses

theorem called {running : Option Nat} {kind : LocalBarrierKind} (hs : s.Closers)
    (h : Called s running kind s') : s'.Closers := by
  cases h with
  | refused called hover =>
    intro other hmem hphase hcloses
    rcases List.mem_append.mp hmem with hmem | hmem
    · exact hs other hmem hphase hcloses
    · rw [List.mem_singleton.mp hmem] at hphase
      exact absurd hover hphase
  | ended called hover hloop =>
    intro other hmem hphase hcloses
    rcases List.mem_append.mp hmem with hmem | hmem
    · exact hs other hmem hphase hcloses
    · rw [List.mem_singleton.mp hmem] at hphase
      exact absurd hover hphase
  | goes called hkind hbody hphase hrunning hloop =>
    intro other hmem hstarted hcloses
    change (s.closed || kind.isClose) = true
    rcases List.mem_append.mp hmem with hmem | hmem
    · rw [hs other hmem hstarted hcloses, Bool.true_or]
    · rw [List.mem_singleton.mp hmem, hkind, hbody] at hcloses
      have hclose : kind.isClose = true := by
        cases kind with
        | close cancel => rfl
        | waitSettled => simpa [LocalBarrierKind.firstBody] using hcloses
        | cancelAndWait => simpa [LocalBarrierKind.firstBody] using hcloses
      rw [hclose, Bool.or_true]

theorem step {e : LocalEvent} (hs : s.Closers) (h : s.step e = some s') : s'.Closers := by
  rcases Bool.eq_false_or_eq_true (ofBarrier e) with he | he
  · cases e with
    | barrier running kind owned task hasTimeout =>
      simp only [LocalTaskScope.step] at h
      split at h
      · cases h
        exact hs.called (LocalTaskScope.called s running kind owned task hasTimeout)
      · cases h
    | threadStep i timeLeft =>
      obtain ⟨barrier, hget, hthread⟩ := Option.bind_eq_some_iff.mp h
      exact hs.threaded (List.mem_of_getElem? hget) (LocalTaskScope.threaded hthread)
    | resume i =>
      simp only [LocalTaskScope.step] at h
      split at h
      · obtain ⟨barrier, hget, hresume⟩ := Option.bind_eq_some_iff.mp h
        exact hs.awaited (List.mem_of_getElem? hget) (resumed hresume)
      · cases h
    | abandon i =>
      simp only [LocalTaskScope.step] at h
      split at h
      · obtain ⟨barrier, hget, habandon⟩ := Option.bind_eq_some_iff.mp h
        exact hs.awaited (List.mem_of_getElem? hget) (abandoned habandon)
      · cases h
    | newTask loop => cases he
    | loopChanges loop status => cases he
    | spawn site origin => cases he
    | adopt site t origin => cases he
    | callStep => cases he
    | createTaskFails => cases he
    | finish t how => cases he
    | taskDone t => cases he
    | callbackEnds how => cases he
  · have hkeeps := keepsBarriers he h
    intro barrier hmem
    rw [hkeeps.barriers] at hmem
    rw [hkeeps.closed]
    exact hs barrier hmem

end Closers

/-! ## 4. The binding to one loop -/

/-- What a scope may refuse, and how.  The Stage is only heard with a second origin. -/
def OwnRefusal : LocalRequest → LocalError → Prop
  | .spawn _, error =>
    error = .stage (.stageClosed "Cannot submit work to a closed local Stage task scope") ∨
      error = .noRunningLoop ∨
      error = .stage (.stageLifecycle "A local Stage task scope cannot cross event loops") ∨
      error = .createTaskFailed
  | .adopt _ origin, error =>
    error = .stage (.stageClosed "Cannot adopt work into a closed local Stage task scope") ∨
      error = .noRunningLoop ∨
      error = .stage (.stageLifecycle "A local Stage task scope cannot cross event loops") ∨
      error = .stage (.stageLifecycle
        "A local Stage task scope cannot adopt a task from another event loop") ∨
      ∃ existing, existing ≠ origin ∧ error = .stage (.stageLifecycle
        ("A Stage task cannot be adopted with two origins: '" ++ existing ++ "' and '" ++
          origin ++ "'"))

/-- What the call in which the thread of the loop is has left in the Stage. -/
def CallInv (s : LocalTaskScope) : Option SubmitCall → Prop
  | none => s.stage.epoch.creating = [] ∧ s.stage.attaching = []
  | some (.creating site _) =>
    site.runningLoop = s.loop ∧ s.stage.epoch.creating = s.loop.toList ∧ s.stage.attaching = []
  | some (.adopting site t request) =>
    site.runningLoop = s.loop ∧ s.stage.loopOf t = s.loop ∧ s.stage.epoch.creating = [] ∧
      s.stage.attaching = [] ∧ ((∃ origin, request = .spawn origin) → t ∉ s.stage.keys)
  | some (.attaching t _) =>
    s.stage.epoch.creating = [] ∧
      ∃ shouldCancel, s.stage.attaching = [⟨t, s.loop, shouldCancel⟩]

structure Bound (s : LocalTaskScope) : Prop where
  inv : s.stage.InventoryInv
  onLoop : s.stage.epoch.OnLoop s.loop
  hasObserver : s.stage.hasObserver = true
  isOpen : s.closed = false → s.stage.epoch.isSealed = false
  /-- A closed scope is in no call. -/
  idle : s.closed = true → s.calling = none
  /-- The tasks of the inventory are on the loop. -/
  tasks : ∀ t ∈ s.stage.keys, s.stage.loopOf t = s.loop
  calling : s.CallInv s.calling
  running : s.busy = true → ∃ l, s.loop = some l ∧ (s.stage.loops l).mode = .running
  orphans : s.stage.orphans = []
  givenUp : s.givenUp = []
  refusals : ∀ entry ∈ s.refusals, OwnRefusal entry.1 entry.2

theorem loopOf_mono {stage' : InventoryState}
    (h : stage.epoch.taskLoops <+: stage'.epoch.taskLoops) (ht : stage.loopOf t = some l) :
    stage'.loopOf t = some l := by
  obtain ⟨rest, heq⟩ := h
  have hlt := (List.getElem?_eq_some_iff.mp ht).1
  rw [InventoryState.loopOf, ← heq, List.getElem?_append_left hlt]
  exact ht

namespace Bound

theorem init (hasOnDone : Bool) : (LocalTaskScope.new hasOnDone).Bound where
  inv := .init _ _ _
  onLoop := ⟨rfl, rfl, rfl, Or.inl rfl⟩
  hasObserver := rfl
  isOpen _ := rfl
  idle _ := rfl
  tasks _ ht := absurd ht List.not_mem_nil
  calling := ⟨rfl, rfl⟩
  running hbusy := Bool.noConfusion hbusy
  orphans := rfl
  givenUp := rfl
  refusals _ hentry := absurd hentry List.not_mem_nil

/-- A task of the inventory is on a loop: the scope is bound. -/
theorem loop_of_key (hs : s.Bound) (ht : t ∈ s.stage.keys) : ∃ l, s.loop = some l := by
  have hget := List.getElem?_eq_getElem (hs.inv.known t ht)
  exact ⟨_, (hs.tasks t ht).symm.trans hget⟩

theorem loop_of_busy (hs : s.Bound) (hbusy : s.busy = true) : ∃ l, s.loop = some l := by
  obtain ⟨l, hloop, -⟩ := hs.running hbusy
  exact ⟨l, hloop⟩

/-- An unbound scope is in no call. -/
theorem calling_of_unbound (hs : s.Bound) (hloop : s.loop = none) : s.calling = none := by
  by_contra hcalling
  have hbusy : s.busy = true := by
    rw [busy, Option.isSome_iff_ne_none.mpr hcalling, Bool.true_or]
  obtain ⟨l, hsome⟩ := hs.loop_of_busy hbusy
  rw [hloop] at hsome
  cases hsome

theorem bind (hs : s.Bound) (hloop : s.loop = none ∨ s.loop = some l) :
    Bound { s with loop := some l } := by
  rcases hloop with hnone | hsome
  · have hcalling := hs.calling_of_unbound hnone
    have hinv := hs.calling
    rw [hcalling] at hinv
    have honloop := hs.onLoop
    rw [hnone] at honloop
    refine ⟨hs.inv, honloop.bind, hs.hasObserver, hs.isOpen, hs.idle, fun t ht => ?_, ?_,
      fun hbusy => ?_, hs.orphans, hs.givenUp, hs.refusals⟩
    · obtain ⟨l', hl'⟩ := hs.loop_of_key ht
      rw [hnone] at hl'
      cases hl'
    · change CallInv _ s.calling
      rw [hcalling]
      exact hinv
    · obtain ⟨l', hl'⟩ := hs.loop_of_busy hbusy
      rw [hnone] at hl'
      cases hl'
  · rw [← hsome]
    exact hs

theorem refuse (hs : s.Bound) {request : LocalRequest} {error : LocalError}
    (hown : OwnRefusal request error) : (s.refuse request error).Bound := by
  refine ⟨hs.inv, hs.onLoop, hs.hasObserver, hs.isOpen, hs.idle, hs.tasks, hs.calling, hs.running,
    hs.orphans, hs.givenUp, fun entry hentry => ?_⟩
  rcases List.mem_append.mp hentry with hentry | hentry
  · exact hs.refusals entry hentry
  · rw [List.mem_singleton.mp hentry]
    exact hown

/-- The tasks keep their loop when more tasks are known. -/
theorem tasks_mono (hs : s.Bound) {epoch : EpochState}
    (h : s.stage.epoch.taskLoops <+: epoch.taskLoops) (ht : t ∈ s.stage.keys) :
    { s.stage with epoch }.loopOf t = s.loop := by
  obtain ⟨l, hloop⟩ := hs.loop_of_key ht
  rw [hloop]
  exact loopOf_mono h ((hs.tasks t ht).trans hloop)

/-- Only the epoch changes, and no call notices. -/
theorem withEpoch (hs : s.Bound) {epoch : EpochState}
    (hkeeps : EpochState.KeepsTasks s.stage.epoch epoch) (honloop : epoch.OnLoop s.loop)
    (hcreating : epoch.creating = s.stage.epoch.creating)
    (hopen : s.closed = false → epoch.isSealed = false) : (s.withEpoch epoch).Bound := by
  refine ⟨hs.inv.withEpoch hkeeps, honloop, hs.hasObserver, hopen, hs.idle,
    fun t ht => hs.tasks_mono hkeeps.taskLoops ht, ?_, hs.running, hs.orphans, hs.givenUp,
    hs.refusals⟩
  have hinv := hs.calling
  change CallInv _ s.calling
  cases hcalling : s.calling with
  | none =>
    rw [hcalling] at hinv
    exact ⟨hcreating.trans hinv.1, hinv.2⟩
  | some call =>
    have hbusy : s.busy = true := by
      rw [busy, hcalling, Option.isSome_some, Bool.true_or]
    obtain ⟨l, hloop⟩ := hs.loop_of_busy hbusy
    rw [hcalling] at hinv
    cases call with
    | creating site origin => exact ⟨hinv.1, hcreating.trans hinv.2.1, hinv.2.2⟩
    | adopting site t request =>
      obtain ⟨hsite, ht, hnone, hattaching, hnew⟩ := hinv
      refine ⟨hsite, ?_, hcreating.trans hnone, hattaching, hnew⟩
      refine Eq.trans (loopOf_mono hkeeps.taskLoops (ht.trans hloop)) hloop.symm
    | attaching t request => exact ⟨hcreating.trans hinv.1, hinv.2⟩

/-- The thread of the loop is free for a call. -/
theorem free (hs : s.Bound) (hmay : s.mayCall (some l) = true)
    (hloop : s.loop = none ∨ s.loop = some l) :
    s.calling = none ∧ (s.stage.loops l).mode = .running := by
  rw [mayCall, Option.all_some, Bool.and_eq_true, decide_eq_true_eq, Bool.or_eq_true,
    decide_eq_true_eq] at hmay
  refine ⟨?_, hmay.1⟩
  rcases hloop with hnone | hsome
  · exact hs.calling_of_unbound hnone
  · rcases hmay.2 with hne | hfree
    · exact absurd hsome hne
    · exact Option.isNone_iff_eq_none.mp hfree

/-- The errors of the binding are those of the scope. -/
theorem bind_error {running : Option Nat} {error : LocalError}
    (h : s.bindRunningLoop running = .error error) :
    error = .noRunningLoop ∨
      error = .stage (.stageLifecycle "A local Stage task scope cannot cross event loops") := by
  unfold bindRunningLoop at h
  split at h
  · cases h
    exact Or.inl rfl
  · split at h
    · cases h
    · split at h
      · cases h
      · cases h
        exact Or.inr rfl

theorem spawn (hs : s.Bound) (origin : String) (hmay : s.mayCall site.runningLoop = true) :
    (s.spawn site origin).Bound := by
  unfold LocalTaskScope.spawn
  split
  · exact hs.refuse (Or.inl rfl)
  · rename_i hopen
    rw [Bool.not_eq_true] at hopen
    split
    · rename_i error hbind
      refine hs.refuse (Or.inr ?_)
      rcases bind_error hbind with heq | heq
      · exact Or.inl heq
      · exact Or.inr (Or.inl heq)
    · rename_i l s' hbind
      obtain ⟨hsite, rfl, hloop⟩ := bindRunningLoop_spec hbind
      rw [hsite] at hmay
      obtain ⟨hcalling, hrunning⟩ := hs.free hmay hloop
      have hbound := hs.bind hloop
      have hinv := hs.calling
      rw [hcalling] at hinv
      obtain ⟨epoch, hselect, honloop, hcreating, hunsealed⟩ :=
        hbound.onLoop.selectForTask (hs.isOpen hopen) hsite
      have hkeeps := EpochState.KeepsTasks.selectForTask s.stage.epoch site l
      simp only [hselect] at hkeeps ⊢
      refine ⟨hs.inv.withEpoch hkeeps, honloop, hs.hasObserver, fun _ => hunsealed,
        fun hclosed => ?_, fun t ht => hbound.tasks_mono hkeeps.taskLoops ht, ⟨hsite, ?_, hinv.2⟩,
        fun _ => ⟨l, rfl, hrunning⟩, hs.orphans, hs.givenUp, hs.refusals⟩
      · exact absurd (hopen.symm.trans hclosed) Bool.false_ne_true
      · refine hcreating.trans ?_
        rw [show s.stage.epoch.creating = [] from hinv.1]
        rfl

theorem adopt (hs : s.Bound) (t : Nat) (origin : String)
    (hmay : s.mayCall site.runningLoop = true) : (s.adopt site t origin).Bound := by
  unfold LocalTaskScope.adopt
  split
  · exact hs.refuse (Or.inl rfl)
  · rename_i hopen
    rw [Bool.not_eq_true] at hopen
    split
    · rename_i error hbind
      refine hs.refuse (Or.inr ?_)
      rcases bind_error hbind with heq | heq
      · exact Or.inl heq
      · exact Or.inr (Or.inl heq)
    · rename_i l s' hbind
      obtain ⟨hsite, rfl, hloop⟩ := bindRunningLoop_spec hbind
      rw [hsite] at hmay
      obtain ⟨hcalling, hrunning⟩ := hs.free hmay hloop
      have hbound := hs.bind hloop
      split
      · rename_i hlocal
        have hinv := hs.calling
        rw [hcalling] at hinv
        refine ⟨hs.inv, hbound.onLoop, hs.hasObserver, hs.isOpen, fun hclosed => ?_, hbound.tasks,
          ⟨hsite, hlocal, hinv.1, hinv.2, ?_⟩, fun _ => ⟨l, rfl, hrunning⟩, hs.orphans, hs.givenUp,
          hs.refusals⟩
        · exact absurd (hopen.symm.trans hclosed) Bool.false_ne_true
        · rintro ⟨origin', heq⟩
          cases heq
      · exact hbound.refuse (Or.inr (Or.inr (Or.inr (Or.inl rfl))))

/-- The tasks leave the inventory, and no call notices. -/
theorem shrinks (hs : s.Bound) (hinv : stage.InventoryInv) (h : s.stage.Shrinks stage)
    (hopen : s.closed = false → stage.epoch.isSealed = false)
    (hbusy : stage.observing.isSome = true → s.busy = false →
      ∃ l, s.loop = some l ∧ (s.stage.loops l).mode = .running)
    {closeCompleted stageCompleted : Bool} {closeOperationLock : Option Nat}
    {barriers : List LocalBarrier} {taskEnds : Nat → Option LocalTaskEnd}
    {outcomes : List LocalTaskOutcome} {callbackErrors : List (Nat × String)} :
    Bound { s with
      stage
      closeCompleted
      stageCompleted
      closeOperationLock
      barriers
      taskEnds
      outcomes
      callbackErrors } := by
  have hloop : ∀ {t}, t ∈ s.stage.keys ∨ (∃ l, s.loop = some l) ∧ s.stage.loopOf t = s.loop →
      stage.loopOf t = s.loop := by
    intro t ht
    have hbound : ∃ l, s.loop = some l := ht.elim hs.loop_of_key And.left
    have heq : s.stage.loopOf t = s.loop := ht.elim (hs.tasks t) And.right
    obtain ⟨l, hl⟩ := hbound
    rw [hl] at heq ⊢
    exact loopOf_mono h.taskLoops heq
  refine ⟨hinv, h.onLoop _ hs.onLoop, h.hasObserver.trans hs.hasObserver, hopen, hs.idle,
    fun t ht => hloop (Or.inl (h.keys ht)), ?_, fun hnow => ?_, h.orphans.trans hs.orphans,
    hs.givenUp, hs.refusals⟩
  · have hinv := hs.calling
    change CallInv _ s.calling
    cases hcalling : s.calling with
    | none =>
      rw [hcalling] at hinv
      exact ⟨h.creating.trans hinv.1, h.attaching.trans hinv.2⟩
    | some call =>
      have hbound := hs.loop_of_busy (show s.busy = true by
        rw [busy, hcalling, Option.isSome_some, Bool.true_or])
      rw [hcalling] at hinv
      cases call with
      | creating site origin =>
        exact ⟨hinv.1, h.creating.trans hinv.2.1, h.attaching.trans hinv.2.2⟩
      | adopting site t request =>
        obtain ⟨hsite, ht, hnone, hattaching, hnew⟩ := hinv
        exact ⟨hsite, hloop (Or.inr ⟨hbound, ht⟩), h.creating.trans hnone,
          h.attaching.trans hattaching, fun hspawn hkey => hnew hspawn (h.keys hkey)⟩
      | attaching t request =>
        obtain ⟨hnone, shouldCancel, hattaching⟩ := hinv
        exact ⟨h.creating.trans hnone, shouldCancel, h.attaching.trans hattaching⟩
  · rw [h.loops]
    rcases Bool.eq_false_or_eq_true s.busy with hwas | hwas
    · exact hs.running hwas
    · refine hbusy ?_ hwas
      have hcalling := (Bool.or_eq_false_iff.mp hwas).1
      rw [busy, hcalling, Bool.false_or] at hnow
      exact hnow

/-- Only what the barriers do changes. -/
theorem keepsStage (hs : s.Bound) {closeCompleted stageCompleted : Bool}
    {closeOperationLock : Option Nat} {barriers : List LocalBarrier} :
    Bound { s with closeCompleted, stageCompleted, closeOperationLock, barriers } :=
  ⟨hs.inv, hs.onLoop, hs.hasObserver, hs.isOpen, hs.idle, hs.tasks, hs.calling, hs.running,
    hs.orphans, hs.givenUp, hs.refusals⟩

theorem isOpen_of_eq (hs : s.Bound) (heq : stage.epoch.isSealed = s.stage.epoch.isSealed)
    (hopen : s.closed = false) : stage.epoch.isSealed = false :=
  heq.trans (hs.isOpen hopen)

theorem finish (hs : s.Bound) {how : LocalTaskEnd} (h : s.finish t how = some s') : s'.Bound := by
  unfold LocalTaskScope.finish at h
  split at h
  · obtain ⟨stage, hstage, rfl⟩ := Option.map_eq_some_iff.mp h
    have hobserving : stage.observing = s.stage.observing := by
      unfold InventoryState.finish at hstage
      split at hstage
      · cases hstage
        rfl
      · cases hstage
    have hsealed : stage.epoch.isSealed = s.stage.epoch.isSealed := by
      unfold InventoryState.finish at hstage
      split at hstage
      · cases hstage
        rfl
      · cases hstage
    refine hs.shrinks (hs.inv.finish hstage) (.finish hstage) (hs.isOpen_of_eq hsealed)
      fun hsome hidle => ?_
    rw [hobserving] at hsome
    rw [busy, hsome, Bool.or_true] at hidle
    cases hidle
  · cases h

/-- A task leaves in the thread of its loop, which runs. -/
theorem running_of_done (hs : s.Bound) (h : s.stage.adoptedTaskDone t = some stage) :
    ∃ l, s.loop = some l ∧ (s.stage.loops l).mode = .running := by
  have hkey : t ∈ s.stage.keys :=
    (hs.inv.active t).mp (hs.inv.adoptedTaskDone_epoch h).1
  unfold InventoryState.adoptedTaskDone at h
  split at h
  · rename_i hguard
    have hany := hguard.2.2
    cases hl : s.stage.loopOf t with
    | none =>
      rw [hl] at hany
      cases hany
    | some l =>
      rw [hl, Option.any_some, decide_eq_true_eq] at hany
      exact ⟨l, (hs.tasks t hkey).symm.trans hl, hany⟩
  · cases h

theorem taskDone (hs : s.Bound) (h : s.taskDone t = some s') : s'.Bound := by
  obtain ⟨stage, how, origin, hcalling, hstage, -, -, hend⟩ := taskDone_spec h
  have hshrinks : s.stage.Shrinks stage := .adoptedTaskDone hs.inv hstage
  have hsealed := InventoryState.adoptedTaskDone_isSealed hs.inv hstage
  have hinv := hs.inv.adoptedTaskDone hstage
  have hrunning := hs.running_of_done hstage
  rcases hend with ⟨-, rfl⟩ | ⟨-, ended, hended, rfl⟩
  · exact hs.shrinks hinv hshrinks (hs.isOpen_of_eq hsealed) fun _ _ => hrunning
  · refine hs.shrinks (hinv.observerEnds hended) (hshrinks.trans (.observerEnds hended)) ?_
      fun _ _ => hrunning
    exact hs.isOpen_of_eq ((InventoryState.observerEnds_isSealed hended).trans hsealed)

theorem callbackEnds (hs : s.Bound) {how : CallbackEnd} (h : s.callbackEnds how = some s') :
    s'.Bound := by
  unfold LocalTaskScope.callbackEnds at h
  split at h
  · obtain ⟨call, hcall, h⟩ := Option.bind_eq_some_iff.mp h
    obtain ⟨stage, hstage, rfl⟩ := Option.map_eq_some_iff.mp h
    have hbusy : s.busy = true := by
      rw [busy, hcall, Option.isSome_some, Bool.or_true]
    refine hs.shrinks (hs.inv.observerEnds hstage) (.observerEnds hstage)
      (hs.isOpen_of_eq (InventoryState.observerEnds_isSealed hstage)) fun _ hidle => ?_
    rw [hbusy] at hidle
    cases hidle
  · cases h

theorem busy_of_calling {call : SubmitCall} (hcalling : s.calling = some call) : s.busy = true := by
  rw [busy, hcalling, Option.isSome_some, Bool.true_or]

/-- A scope that is in a call is open. -/
theorem open_of_calling (hs : s.Bound) {call : SubmitCall} (hcalling : s.calling = some call) :
    s.closed = false := by
  by_contra hclosed
  have hidle := hs.idle (by simpa using hclosed)
  rw [hcalling] at hidle
  cases hidle

theorem creates (hs : s.Bound) {origin : String} (hcalling : s.calling = some (.creating site origin))
    (h : s.callStep = some s') : s'.Bound := by
  obtain ⟨l, hloop, hrunning⟩ := hs.running (busy_of_calling hcalling)
  have hinv := hs.calling
  rw [hcalling] at hinv
  obtain ⟨hsite, hcreating, hattaching⟩ := hinv
  rw [hloop, Option.toList_some] at hcreating
  simp only [LocalTaskScope.callStep, hcalling] at h
  obtain ⟨stage, hmake, rfl⟩ := Option.map_eq_some_iff.mp h
  rw [InventoryState.makeTask, hcreating] at hmake
  cases hmake
  have hkeeps : EpochState.KeepsTasks s.stage.epoch { s.stage.epoch with
      creating := []
      taskLoops := s.stage.epoch.taskLoops ++ [l] } := ⟨rfl, List.prefix_append _ _, rfl⟩
  refine ⟨hs.inv.withEpoch hkeeps, hs.onLoop.of_eq rfl rfl rfl rfl rfl, hs.hasObserver, hs.isOpen,
    fun hclosed => ?_, fun t ht => hs.tasks_mono hkeeps.taskLoops ht,
    ⟨hsite, ?_, rfl, hattaching, fun _ hkey => ?_⟩, fun _ => ⟨l, hloop, hrunning⟩, hs.orphans,
    hs.givenUp, hs.refusals⟩
  · exact absurd ((hs.open_of_calling hcalling).symm.trans hclosed) Bool.false_ne_true
  · change (s.stage.epoch.taskLoops ++ [l])[s.stage.epoch.taskLoops.length]? = s.loop
    rw [List.getElem?_concat_length, hloop]
  · exact absurd (hs.inv.known _ hkey) (Nat.lt_irrefl _)

/-- The scope leaves the call with an error of its own. -/
theorem gives (hs : s.Bound) {request : LocalRequest} {error : LocalError}
    (hown : OwnRefusal request error) (hcreating : s.stage.epoch.creating = [])
    (hattaching : s.stage.attaching = []) (hloop : ∃ l, s.loop = some l ∧
      (s.stage.loops l).mode = .running) :
    Bound { s.refuse request error with calling := none } :=
  ⟨hs.inv, hs.onLoop, hs.hasObserver, hs.isOpen, fun _ => rfl, hs.tasks, ⟨hcreating, hattaching⟩,
    fun _ => hloop, hs.orphans, hs.givenUp, (hs.refuse hown).refusals⟩

theorem adopts (hs : s.Bound) {request : LocalRequest}
    (hcalling : s.calling = some (.adopting site t request)) (h : s.callStep = some s') :
    s'.Bound := by
  obtain ⟨l, hloop, hrunning⟩ := hs.running (busy_of_calling hcalling)
  have hopen := hs.open_of_calling hcalling
  have hinv := hs.calling
  rw [hcalling] at hinv
  obtain ⟨hsite, ht, hcreating, hattaching, hnew⟩ := hinv
  rw [hloop] at ht hsite
  simp only [LocalTaskScope.callStep, hcalling, ht, Option.map_some] at h
  have honloop := hs.onLoop
  rw [hloop] at honloop
  rcases hs.inv.adopt_onLoop (t := t) honloop (hs.isOpen hopen) hsite request.origin with
    ⟨existing, hlookup, hne, heq⟩ | ⟨hlookup, heq⟩ |
      ⟨hlookup, epoch, hkeeps, honloop', hcreating', hunsealed, heq⟩
  · simp only [heq] at h
    cases h
    -- only an `adopt` finds its task there
    cases request with
    | spawn origin =>
      have hkey : t ∈ s.stage.keys :=
        List.mem_map.mpr ⟨(t, existing), InventoryState.mem_of_lookup hlookup, rfl⟩
      exact absurd hkey (hnew ⟨origin, rfl⟩)
    | adopt t' origin =>
      exact hs.gives (Or.inr (Or.inr (Or.inr (Or.inr ⟨existing, hne, rfl⟩)))) hcreating hattaching
        ⟨l, hloop, hrunning⟩
  · simp only [heq, hlookup, Option.isNone_some] at h
    cases h
    exact ⟨hs.inv, hs.onLoop, hs.hasObserver, hs.isOpen, fun _ => rfl, hs.tasks,
      ⟨hcreating, hattaching⟩, fun _ => ⟨l, hloop, hrunning⟩, hs.orphans, hs.givenUp, hs.refusals⟩
  · simp only [heq, hlookup, Option.isNone_none, if_true] at h
    cases h
    have hentered := hs.inv.enters request.origin ht (InventoryState.lookup_eq_none.mp hlookup)
      (show AttachCall.task ⟨t, some l, epoch.cancelling⟩ = t from rfl) hkeeps
    refine ⟨hentered, hloop ▸ honloop', hs.hasObserver, fun _ => hunsealed, fun hclosed => ?_,
      fun u hu => ?_, ⟨hcreating'.trans hcreating, epoch.cancelling, ?_⟩,
      fun _ => ⟨l, hloop, hrunning⟩, hs.orphans, hs.givenUp, hs.refusals⟩
    · exact absurd (hopen.symm.trans hclosed) Bool.false_ne_true
    · have hmem : u ∈ s.stage.keys ++ [t] := by
        rw [InventoryState.keys, List.map_append] at hu
        exact hu
      rw [hloop]
      rcases List.mem_append.mp hmem with hmem | hmem
      · exact loopOf_mono hkeeps.taskLoops ((hs.tasks u hmem).trans hloop)
      · rw [List.mem_singleton.mp hmem]
        exact loopOf_mono hkeeps.taskLoops ht
    · change s.stage.attaching ++ _ = _
      rw [hattaching, hloop]
      rfl

/-- The callback is attached in the thread of its loop, which runs: `call_soon` does not
    raise. -/
theorem attaches (hs : s.Bound) {request : LocalRequest} {shouldCancel : Bool}
    (hcalling : s.calling = some (.attaching t request))
    (hattaching : s.stage.attaching = [⟨t, s.loop, shouldCancel⟩]) :
    s.stage.attachRaises ⟨t, s.loop, shouldCancel⟩ = false := by
  obtain ⟨l, hloop, hrunning⟩ := hs.running (busy_of_calling hcalling)
  have hkey : t ∈ s.stage.keys := by
    refine hs.inv.paired.subset (List.mem_append_left _ (List.mem_append_left _ ?_))
    rw [hattaching]
    exact List.mem_cons_self
  have ht := (hs.tasks t hkey).trans hloop
  simp [InventoryState.attachRaises, ht, TaskLoop.callSoonRaises, hrunning, hloop]

theorem attached (hs : s.Bound) {request : LocalRequest}
    (hcalling : s.calling = some (.attaching t request)) (h : s.callStep = some s') :
    s'.Bound := by
  have hrunning := hs.running (busy_of_calling hcalling)
  have hinv := hs.calling
  rw [hcalling] at hinv
  obtain ⟨hcreating, shouldCancel, hattaching⟩ := hinv
  have hattaches := hs.attaches hcalling hattaching
  simp only [LocalTaskScope.callStep, hcalling] at h
  obtain ⟨call, hcall, h⟩ := Option.bind_eq_some_iff.mp h
  obtain ⟨stage, hattach, rfl⟩ := Option.map_eq_some_iff.mp h
  rw [hattaching] at hcall
  cases hcall
  rw [if_neg (Bool.eq_false_iff.mp hattaches)]
  have hinv' := hs.inv.attach hattach
  obtain ⟨call, hcall, hspec⟩ := InventoryState.attach_spec hattach
  rw [hattaching] at hcall
  cases hcall
  rcases hspec with ⟨hraises, -⟩ | ⟨-, attached, scheduled, cancelRequests, rfl, -⟩
  · rw [hattaches] at hraises
    cases hraises
  · refine ⟨hinv', hs.onLoop, hs.hasObserver, hs.isOpen, fun _ => rfl, hs.tasks, ⟨hcreating, ?_⟩,
      fun _ => hrunning, hs.orphans, hs.givenUp, hs.refusals⟩
    change s.stage.attaching.eraseIdx 0 = []
    rw [hattaching]
    rfl

theorem callStep (hs : s.Bound) (h : s.callStep = some s') : s'.Bound := by
  cases hcalling : s.calling with
  | none => simp [LocalTaskScope.callStep, hcalling] at h
  | some call =>
    cases call with
    | creating site origin => exact hs.creates hcalling h
    | adopting site t request => exact hs.adopts hcalling h
    | attaching t request => exact hs.attached hcalling h

theorem createTaskFails (hs : s.Bound) (h : s.createTaskFails = some s') : s'.Bound := by
  unfold LocalTaskScope.createTaskFails at h
  split at h
  · rename_i site origin hcalling
    have hrunning := hs.running (busy_of_calling hcalling)
    have hinv := hs.calling
    rw [hcalling] at hinv
    obtain ⟨-, hcreating, hattaching⟩ := hinv
    have ⟨l, hloop, _⟩ := hrunning
    rw [hloop, Option.toList_some] at hcreating
    obtain ⟨epoch, hepoch, rfl⟩ := Option.map_eq_some_iff.mp h
    simp only [EpochState.step, hcreating, List.length_singleton, Nat.one_pos, if_true] at hepoch
    cases hepoch
    have hown : OwnRefusal (.spawn origin) .createTaskFailed := Or.inr (Or.inr (Or.inr rfl))
    exact ⟨hs.inv.withEpoch (.of_eq rfl rfl rfl), hs.onLoop.of_eq rfl rfl rfl rfl rfl,
      hs.hasObserver, hs.isOpen, fun _ => rfl, hs.tasks, ⟨rfl, hattaching⟩, fun _ => hrunning,
      hs.orphans, hs.givenUp, (hs.refuse hown).refusals⟩
  · cases h

theorem loopChanges (hs : s.Bound) {loop : Nat} {status : TaskLoop}
    (h : s.step (.loopChanges loop status) = some s') : s'.Bound := by
  simp only [LocalTaskScope.step] at h
  split at h
  · cases h
  · rename_i hguard
    obtain ⟨stage, hstage, rfl⟩ := Option.map_eq_some_iff.mp h
    have hinv := hs.inv.step hstage
    simp only [InventoryState.step] at hstage
    split at hstage
    · cases hstage
    · cases hstage
      refine ⟨hinv, hs.onLoop, hs.hasObserver, hs.isOpen, hs.idle, hs.tasks, hs.calling,
        fun hbusy => ?_, hs.orphans, hs.givenUp, hs.refusals⟩
      obtain ⟨l, hloop, hrunning⟩ := hs.running hbusy
      refine ⟨l, hloop, ?_⟩
      change (Function.update s.stage.loops loop status l).mode = .running
      by_cases heq : l = loop
      · subst heq
        rw [Function.update_self]
        by_contra hmode
        exact hguard ⟨hbusy, hloop, hmode⟩
      · rw [Function.update_of_ne heq]
        exact hrunning

theorem threaded (hs : s.Bound) (hclosers : s.Closers) {i : Nat} {barrier : LocalBarrier}
    (hmem : barrier ∈ s.barriers) (h : Threaded s i barrier s') : s'.Bound := by
  have hmoves : ∀ {stage}, s.stage.OnlyWaits stage → stage.InventoryInv →
      ∀ {barriers : List LocalBarrier} {closeOperationLock : Option Nat},
        Bound { s with stage, barriers, closeOperationLock } := by
    intro stage honly hinv barriers closeOperationLock
    refine hs.shrinks hinv (.onlyWaits honly) (hs.isOpen_of_eq (by rw [honly.frame]))
      fun hsome hidle => ?_
    rw [honly.frame] at hsome
    rw [busy, hsome, Bool.or_true] at hidle
    cases hidle
  have hwaits : ∀ {w stage s'}, s.stage.OnlyWaits stage → stage.InventoryInv →
      Waits s i w barrier stage s' → s'.Bound := by
    intro w stage s' honly hinv hwaits
    cases hwaits with
    | returned h => exact hmoves honly hinv
    | timedOut h => exact hmoves honly hinv
    | blocked hreturned htimedOut => exact hmoves honly hinv
  cases h with
  | starts hphase hbody => exact hs.keepsStage
  | cancels hphase hbody hfree hwork =>
    have hscope := EpochState.KeepsScope.cancelScope s.stage.epoch
    have hkeeps : EpochState.KeepsTasks s.stage.epoch s.stage.epoch.cancelScope :=
      EpochState.KeepsTasks.step (e := .cancelScope) rfl rfl
    have hbound := hs.withEpoch hkeeps (hscope.onLoop _ hs.onLoop) hscope.creating
      fun hopen => hscope.isSealed.trans (hs.isOpen hopen)
    exact hbound.keepsStage
  | idle hphase hbody hidle => exact hs.keepsStage
  | completed hphase hbody hcompleted => exact hs.keepsStage
  | seals hphase hbody hfree hlock hcompleted =>
    have hclosed := hclosers barrier hmem (by simp [hphase]) (Or.inl hbody)
    have hkeeps : EpochState.KeepsTasks s.stage.epoch s.stage.epoch.sealScope := .of_eq rfl rfl rfl
    have hbound := hs.withEpoch hkeeps hs.onLoop.sealScope rfl
      fun hopen => absurd (hopen.symm.trans hclosed) Bool.false_ne_true
    exact hbound.keepsStage
  | enters hphase hwait h =>
    have honly := InventoryState.waitSettled_spec hwait
    exact hwaits honly (hs.inv.onlyWaits honly) h
  | wakes hphase hwake h =>
    have honly := InventoryState.wake_spec hwake
    exact hwaits honly (hs.inv.onlyWaits honly) h
  | completes hphase hfree => exact hs.keepsStage

theorem awaited (hs : s.Bound) {i : Nat} {barrier : LocalBarrier} (h : Awaited s i barrier s') :
    s'.Bound := by
  cases h with
  | ended => exact hs.keepsStage
  | withdrawn hqueued => exact hs.keepsStage
  | closes called hclose hfinished hkind hbody hphase => exact hs.keepsStage
  | completes hclose hphase hbody => exact hs.keepsStage

theorem called (hs : s.Bound) {running : Option Nat} {kind : LocalBarrierKind}
    (hmay : s.mayAwait running = true) (h : Called s running kind s') : s'.Bound := by
  cases h with
  | refused called hover => exact hs.keepsStage
  | ended called hover hloop => exact (hs.bind hloop).keepsStage
  | goes called hkind hbody hphase hrunning hloop =>
    subst hrunning
    have hfree := (hs.free (Bool.and_eq_true_iff.mp hmay).1 hloop).1
    have hbound := hs.bind hloop
    refine ⟨hs.inv, hbound.onLoop, hs.hasObserver, fun hopen => hs.isOpen ?_, fun _ => hfree,
      hbound.tasks, hbound.calling, hbound.running, hs.orphans, hs.givenUp, hs.refusals⟩
    exact (Bool.or_eq_false_iff.mp hopen).1

theorem step {e : LocalEvent} (hs : s.Bound) (hclosers : s.Closers) (h : s.step e = some s') :
    s'.Bound := by
  cases e with
  | newTask loop =>
    cases h
    exact hs.withEpoch ⟨rfl, List.prefix_append _ _, rfl⟩ (hs.onLoop.of_eq rfl rfl rfl rfl rfl) rfl
      hs.isOpen
  | loopChanges loop status => exact hs.loopChanges h
  | spawn site origin =>
    simp only [LocalTaskScope.step] at h
    split at h
    · rename_i hmay
      cases h
      exact hs.spawn origin hmay
    · cases h
  | adopt site t origin =>
    simp only [LocalTaskScope.step] at h
    split at h
    · rename_i hmay
      cases h
      exact hs.adopt t origin hmay.1
    · cases h
  | callStep => exact hs.callStep h
  | createTaskFails => exact hs.createTaskFails h
  | finish t how => exact hs.finish h
  | taskDone t => exact hs.taskDone h
  | callbackEnds how => exact hs.callbackEnds h
  | barrier running kind owned task hasTimeout =>
    simp only [LocalTaskScope.step] at h
    split at h
    · rename_i hmay
      cases h
      exact hs.called hmay (LocalTaskScope.called s running kind owned task hasTimeout)
    · cases h
  | threadStep i timeLeft =>
    obtain ⟨barrier, hget, hthread⟩ := Option.bind_eq_some_iff.mp h
    exact hs.threaded hclosers (List.mem_of_getElem? hget) (LocalTaskScope.threaded hthread)
  | resume i =>
    simp only [LocalTaskScope.step] at h
    split at h
    · obtain ⟨barrier, -, hresume⟩ := Option.bind_eq_some_iff.mp h
      exact hs.awaited (resumed hresume)
    · cases h
  | abandon i =>
    simp only [LocalTaskScope.step] at h
    split at h
    · obtain ⟨barrier, -, habandon⟩ := Option.bind_eq_some_iff.mp h
      exact hs.awaited (abandoned habandon)
    · cases h

end Bound

theorem closers_reachable {hasOnDone : Bool} (hs : (localSystem hasOnDone).Reachable s) :
    s.Closers := by
  refine hs.invariant (I := Closers) (fun s hinit => ?_) fun _ _ _ hs _ hstep => hs.step hstep
  rw [show s = .new hasOnDone from hinit]
  exact fun barrier hmem => absurd hmem List.not_mem_nil

theorem bound_reachable {hasOnDone : Bool} (hs : (localSystem hasOnDone).Reachable s) :
    s.Bound := by
  refine hs.invariant_of (J := Closers) (I := Bound) (fun _ => closers_reachable) (fun s hinit => ?_)
    fun _ _ _ hclosers hs _ hstep => hs.step hclosers hstep
  rw [show s = .new hasOnDone from hinit]
  exact .init hasOnDone

end LocalTaskScope

end AgentlyStage
