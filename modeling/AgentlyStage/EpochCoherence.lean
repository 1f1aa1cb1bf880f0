import AgentlyStage.ScopeEpoch
import AgentlyStage.Lib.Counting
import Mathlib.Data.List.Perm.Basic

/-!
# Coherent epochs

Everything that is active belongs to the backend that the Stage has bound, and every lease
is held, on its way back, or given back once.  When nothing is active the Stage is unbound
again; two steps do not roll back what they, or the selection before them, have bound.
-/

namespace AgentlyStage

open Transition

namespace EpochState

variable {s s' : EpochState} {site : CallSite}

/-! ## 1. The invariant of an epoch -/

/-- What holds of an epoch also inside a critical section. -/
structure EpochBound (s : EpochState) : Prop where
  handles : ∀ h ∈ s.activeHandles, ∃ handle : EpochHandle, s.handles[h]? = some handle ∧
    s.activeBackend = some handle.backendKind ∧ s.activeLoop = handle.loop
  tasks : ∀ t ∈ s.adoptedTasks, ∃ loop : Nat, s.taskLoops[t]? = some loop ∧
    s.activeBackend = some .caller ∧ s.activeLoop = some loop
  /-- An unbound Stage keeps nothing of its last epoch. -/
  unbound : s.activeBackend = none → s.activeLoop = none ∧ s.generationLease = none ∧
    s.blockedGenerationIds = []
  caller : s.activeBackend = some .caller → s.activeLoop.isSome = true
  stage : s.activeBackend = some .stage → s.activeLoop = none
  ownerLoops : ∀ h : Nat, ∀ handle : EpochHandle, s.handles[h]? = some handle →
    (handle.backendKind = .stage → handle.loop = none) ∧
      (handle.ownerLoop = none ∨ handle.ownerLoop = handle.loop)
  /-- Every lease is held, being given back, or given back. -/
  leases : (s.generationLease.toList ++ s.releasing ++ s.released).Perm (List.range s.leaseCount)

/-- Nothing of the watch and of a cancellation is left when nothing is active. -/
def Quiet (s : EpochState) : Prop :=
  s.hasActiveWorkLocked = false → s.observing = 0 → s.idleTimer = none ∧ s.cancelling = false

structure EpochInv (s : EpochState) : Prop where
  bound : EpochBound s
  quiet : Quiet s

theorem EpochBound.idle_of_unbound (hb : EpochBound s) (h : s.activeBackend = none) :
    s.activeHandles = ∅ ∧ s.adoptedTasks = ∅ := by
  constructor
  · refine Finset.eq_empty_of_forall_notMem fun i hmem => ?_
    obtain ⟨handle, -, hbackend, -⟩ := hb.handles i hmem
    rw [h] at hbackend
    cases hbackend
  · refine Finset.eq_empty_of_forall_notMem fun t hmem => ?_
    obtain ⟨loop, -, hbackend, -⟩ := hb.tasks t hmem
    rw [h] at hbackend
    cases hbackend

/-- Only an idle Stage changes its binding. -/
theorem EpochBound.rebind (hb : EpochBound s) (hhandles : s.activeHandles = ∅)
    (htasks : s.adoptedTasks = ∅) {backend : Option BackendKind} {loop lease : Option Nat}
    {count : Nat} {blocked releasing : List Nat}
    (hunbound : backend = none → loop = none ∧ lease = none ∧ blocked = [])
    (hcaller : backend = some .caller → loop.isSome = true)
    (hstage : backend = some .stage → loop = none)
    (hleases : (lease.toList ++ releasing ++ s.released).Perm (List.range count)) :
    EpochBound { s with
      activeBackend := backend, activeLoop := loop, generationLease := lease
      leaseCount := count, blockedGenerationIds := blocked, releasing := releasing } := by
  refine ⟨fun h hmem => ?_, fun t hmem => ?_, hunbound, hcaller, hstage, hb.ownerLoops, hleases⟩
  · rw [show s.activeHandles = ∅ from hhandles] at hmem
    cases hmem
  · rw [show s.adoptedTasks = ∅ from htasks] at hmem
    cases hmem

theorem EpochInv.bindCaller (hi : EpochInv s) (hnone : s.activeBackend = none)
    {loop : Option Nat} (hloop : loop.isSome = true) : EpochInv (s.bindCaller loop) := by
  obtain ⟨hhandles, htasks⟩ := hi.bound.idle_of_unbound hnone
  refine ⟨hi.bound.rebind hhandles htasks (fun h => ?_) (fun _ => hloop) (fun h => ?_)
    hi.bound.leases, hi.quiet⟩
  · cases h
  · cases h

theorem EpochInv.bindStage (hi : EpochInv s) (hnone : s.activeBackend = none)
    (blocked : List Nat) : EpochInv (s.bindStage blocked) := by
  obtain ⟨hhandles, htasks⟩ := hi.bound.idle_of_unbound hnone
  refine ⟨hi.bound.rebind hhandles htasks (fun h => ?_) (fun h => ?_) (fun _ => rfl) ?_, hi.quiet⟩
  · cases h
  · cases h
  · -- the new lease is the next number
    have hleases := hi.bound.leases
    rw [(hi.bound.unbound hnone).2.1] at hleases
    rw [List.range_succ]
    exact (hleases.cons s.leaseCount).trans (List.perm_append_singleton _ _).symm

/-- A stage backend without a lease. -/
theorem EpochInv.bindWithoutLease (hi : EpochInv s) (hnone : s.activeBackend = none) :
    EpochInv { s with activeBackend := some .stage, activeLoop := none } := by
  obtain ⟨hhandles, htasks⟩ := hi.bound.idle_of_unbound hnone
  refine ⟨hi.bound.rebind hhandles htasks (fun h => ?_) (fun h => ?_) (fun _ => rfl)
    hi.bound.leases, hi.quiet⟩
  · cases h
  · cases h

/-- A touch looks at the clock and the timer only. -/
theorem touchLocked_frame (s : EpochState) : ∃ activity token timer timers,
    s.touchLocked = { s with
      lastActivity := activity, idleTimerToken := token, idleTimer := timer, timers := timers } ∧
    (s.hasActiveWorkLocked = false → timer = s.idleTimer) := by
  rcases touchLocked_cases s with ⟨heq, -⟩ | ⟨timeout, -, hactive, -, heq⟩
  · exact ⟨_, _, _, _, heq, fun _ => rfl⟩
  · refine ⟨_, _, _, _, heq, fun hidle => ?_⟩
    rw [hactive] at hidle
    cases hidle

theorem EpochInv.touch (hi : EpochInv s) : EpochInv s.touchLocked := by
  obtain ⟨activity, token, timer, timers, heq, htimer⟩ := touchLocked_frame s
  rw [heq]
  obtain ⟨⟨hhandles, htasks, hunbound, hcaller, hstage, howner, hleases⟩, hquiet⟩ := hi
  refine ⟨⟨hhandles, htasks, hunbound, hcaller, hstage, howner, hleases⟩, fun hidle hfree => ?_⟩
  rw [show timer = s.idleTimer from htimer hidle]
  exact hquiet hidle hfree

/-- The release of the backend gives a lease back at most once. -/
theorem EpochBound.release (hb : EpochBound s) : EpochInv s.releaseBackendIfQuiescentLocked := by
  unfold releaseBackendIfQuiescentLocked
  split
  · rename_i hactive
    refine ⟨hb, fun hidle => ?_⟩
    rw [hactive] at hidle
    cases hidle
  · rename_i hidle
    obtain ⟨hhandles, htasks⟩ := hasActiveWorkLocked_eq_false.mp (Bool.eq_false_iff.mpr hidle)
    have hunbound : EpochBound { s with
        activeBackend := none, activeLoop := none, generationLease := none
        leaseCount := s.leaseCount, blockedGenerationIds := []
        releasing := s.releasing ++ s.generationLease.toList } := by
      refine hb.rebind hhandles htasks (fun _ => ⟨rfl, rfl, rfl⟩) (fun h => ?_) (fun h => ?_) ?_
      · cases h
      · cases h
      · have hreturned : (s.releasing ++ s.generationLease.toList ++ s.released).Perm
            (List.range s.leaseCount) :=
          (List.perm_append_comm.append_right s.released).trans hb.leases
        exact hreturned
    obtain ⟨hhandles, htasks, hunbound, hcaller, hstage, howner, hleases⟩ := hunbound
    exact ⟨⟨hhandles, htasks, hunbound, hcaller, hstage, howner, hleases⟩, fun _ _ => ⟨rfl, rfl⟩⟩

/-- The Stage is bound to what has been selected. -/
theorem EpochInv.resolve (hi : EpochInv s) {selected : BackendKind × Option Nat}
    (h : s.resolveBackendLocked site = .ok (selected, s')) :
    EpochInv s' ∧ s'.activeBackend = some selected.1 ∧ s'.activeLoop = selected.2 ∧
      (selected.1 = .stage → selected.2 = none) := by
  rcases resolveBackendLocked_spec h with
    ⟨hbound, hloop, rfl⟩ | ⟨hnone, hcaller, hloop, rfl⟩ | ⟨hnone, rfl, -, rfl⟩
  · refine ⟨hi, hbound, hloop.symm, fun hstage => ?_⟩
    rw [hloop]
    exact hi.bound.stage (hstage ▸ hbound)
  · refine ⟨hi.bindCaller hnone hloop, congrArg some hcaller.symm, rfl, fun hstage => ?_⟩
    rw [hcaller] at hstage
    cases hstage
  · exact ⟨hi.bindStage hnone _, rfl, rfl, fun _ => rfl⟩

theorem resolveBackendLocked_frame {selected : BackendKind × Option Nat}
    (h : s.resolveBackendLocked site = .ok (selected, s')) :
    s'.creating = s.creating ∧ s'.observing = s.observing ∧ s'.taskLoops = s.taskLoops := by
  rcases resolveBackendLocked_spec h with ⟨-, -, rfl⟩ | ⟨-, -, -, rfl⟩ | ⟨-, -, -, rfl⟩
  · exact ⟨rfl, rfl, rfl⟩
  · exact ⟨rfl, rfl, rfl⟩
  · exact ⟨rfl, rfl, rfl⟩

/-! ## 2. The operations -/

/-- A handle of the bound backend becomes active. -/
theorem EpochInv.enterHandle (hi : EpochInv s) {h : Nat} {handle : EpochHandle}
    (hget : s.handles[h]? = some handle) (hbackend : s.activeBackend = some handle.backendKind)
    (hloop : s.activeLoop = handle.loop) :
    EpochInv { s with activeHandles := insert h s.activeHandles } := by
  refine ⟨⟨fun i hmem => ?_, hi.bound.tasks, hi.bound.unbound, hi.bound.caller, hi.bound.stage,
    hi.bound.ownerLoops, hi.bound.leases⟩, fun hidle => ?_⟩
  · rcases Finset.mem_insert.mp hmem with rfl | hmem
    · exact ⟨handle, hget, hbackend, hloop⟩
    · exact hi.bound.handles i hmem
  · rw [hasActiveWorkLocked_of_handle (Finset.mem_insert_self _ _)] at hidle
    cases hidle

/-- A new handle that is not active yet. -/
theorem EpochInv.newHandle (hi : EpochInv s) {handle : EpochHandle}
    (hstage : handle.backendKind = .stage → handle.loop = none) (howner : handle.ownerLoop = none) :
    EpochInv { s with handles := s.handles ++ [handle] } := by
  refine ⟨⟨fun h hmem => ?_, hi.bound.tasks, hi.bound.unbound, hi.bound.caller, hi.bound.stage,
    fun h handle' hget => ?_, hi.bound.leases⟩, hi.quiet⟩
  · obtain ⟨handle', hget, hbound⟩ := hi.bound.handles h hmem
    have hlt : h < s.handles.length := (List.getElem?_eq_some_iff.mp hget).1
    exact ⟨handle', (List.getElem?_append_left hlt).trans hget, hbound⟩
  · rcases getElem?_append_cases hget with ⟨-, rfl⟩ | hget
    · exact ⟨hstage, Or.inl howner⟩
    · exact hi.bound.ownerLoops h handle' hget

theorem EpochInv.go (hi : EpochInv s) : EpochInv (s.go site).1 := by
  unfold EpochState.go
  split
  · split
    · exact hi
    · rename_i backend loop s' hresolve
      obtain ⟨hi', hbackend, hloop, hstage⟩ := hi.resolve hresolve
      have hnew : EpochInv { s' with
          handles := s'.handles ++ [{ backendKind := backend, loop := loop }] } :=
        hi'.newHandle hstage rfl
      exact (hnew.enterHandle List.getElem?_concat_length hbackend hloop).touch
  · exact hi

theorem EpochInv.adopt (hi : EpochInv s) {t loop : Nat} (hget : s.taskLoops[t]? = some loop) :
    EpochInv (s.adopt site t loop).1 := by
  unfold EpochState.adopt
  split
  · split
    · exact hi
    · split
      · exact hi
      · rename_i selected s' hresolve
        obtain ⟨hi', hbackend, hloop, -⟩ := hi.resolve hresolve
        split
        · rename_i hselected
          subst hselected
          refine EpochInv.touch ⟨⟨hi'.bound.handles, fun t' hmem => ?_, hi'.bound.unbound,
            hi'.bound.caller, hi'.bound.stage, hi'.bound.ownerLoops, hi'.bound.leases⟩,
            fun hidle => ?_⟩
          · rcases Finset.mem_insert.mp hmem with rfl | hmem
            · refine ⟨loop, ?_, hbackend, hloop⟩
              rw [show s'.taskLoops = s.taskLoops from (resolveBackendLocked_frame hresolve).2.2]
              exact hget
            · exact hi'.bound.tasks t' hmem
          · rw [hasActiveWorkLocked_of_task (Finset.mem_insert_self _ _)] at hidle
            cases hidle
        · exact hi'.bound.release
  · exact hi

theorem EpochInv.selectForTask (hi : EpochInv s) {loop : Nat} :
    EpochInv (s.selectForTask site loop).1 := by
  unfold EpochState.selectForTask
  split
  · split
    · exact hi
    · rename_i selected s' hresolve
      have hi' := (hi.resolve hresolve).1
      split
      · obtain ⟨⟨hhandles, htasks, hunbound, hcaller, hstage, howner, hleases⟩, hquiet⟩ := hi'
        exact ⟨⟨hhandles, htasks, hunbound, hcaller, hstage, howner, hleases⟩, hquiet⟩
      · exact hi'.bound.release
  · exact hi

/-- A new task is not adopted yet. -/
theorem EpochInv.newTask (hi : EpochInv s) {creating : List Nat} {loop : Nat} :
    EpochInv { s with creating := creating, taskLoops := s.taskLoops ++ [loop] } := by
  refine ⟨⟨hi.bound.handles, fun t hmem => ?_, hi.bound.unbound, hi.bound.caller, hi.bound.stage,
    hi.bound.ownerLoops, hi.bound.leases⟩, hi.quiet⟩
  obtain ⟨loop', hget, hbound⟩ := hi.bound.tasks t hmem
  have hlt : t < s.taskLoops.length := (List.getElem?_eq_some_iff.mp hget).1
  exact ⟨loop', (List.getElem?_append_left hlt).trans hget, hbound⟩

theorem EpochInv.createTask (hi : EpochInv s) {i loop : Nat} :
    EpochInv (s.createTask i loop site).1 := by
  have hmade : EpochInv { s with
      creating := s.creating.eraseIdx i, taskLoops := s.taskLoops ++ [loop] } := hi.newTask
  exact hmade.adopt List.getElem?_concat_length

/-- The owner task records the loop that `go` has selected. -/
theorem EpochInv.setOwnerTask (hi : EpochInv s) (h : Nat) : EpochInv (s.setOwnerTask h) := by
  -- the recorded loop is the only change of a handle
  have hmodify : ∀ i : Nat, ∀ handle : EpochHandle, s.handles[i]? = some handle →
      ∃ handle' : EpochHandle, (s.setOwnerTask h).handles[i]? = some handle' ∧
        handle'.backendKind = handle.backendKind ∧ handle'.loop = handle.loop ∧
        (handle'.ownerLoop = handle.ownerLoop ∨ handle'.ownerLoop = handle.loop) := by
    intro i handle hget
    refine ⟨_, by rw [EpochState.setOwnerTask, List.getElem?_modify, hget]; rfl, ?_⟩
    dsimp only
    by_cases hi : h = i
    · rw [if_pos hi]
      split
      · exact ⟨rfl, rfl, Or.inr rfl⟩
      · exact ⟨rfl, rfl, Or.inl rfl⟩
    · rw [if_neg hi]
      exact ⟨rfl, rfl, Or.inl rfl⟩
  refine ⟨⟨fun i hmem => ?_, hi.bound.tasks, hi.bound.unbound, hi.bound.caller, hi.bound.stage,
    fun i handle' hget' => ?_, hi.bound.leases⟩, hi.quiet⟩
  · obtain ⟨handle, hget, hbackend, hloop⟩ := hi.bound.handles i hmem
    obtain ⟨handle', hget', hkind, hloop', -⟩ := hmodify i handle hget
    exact ⟨handle', hget', hkind ▸ hbackend, hloop' ▸ hloop⟩
  · have hlt : i < s.handles.length := by
      have := (List.getElem?_eq_some_iff.mp hget').1
      rwa [EpochState.setOwnerTask, List.length_modify] at this
    obtain ⟨handle', hget'', hkind, hloop', howner'⟩ :=
      hmodify i s.handles[i] (List.getElem?_eq_getElem hlt)
    rw [hget'] at hget''
    cases hget''
    obtain ⟨hstage, howner⟩ := hi.bound.ownerLoops i _ (List.getElem?_eq_getElem hlt)
    rw [hkind, hloop']
    refine ⟨hstage, ?_⟩
    rcases howner' with heq | heq
    · rw [heq]
      exact howner
    · exact Or.inr heq

theorem EpochBound.erase (hb : EpochBound s) {activeHandles adoptedTasks : Finset Nat}
    {observing : Nat} (hhandles : activeHandles ⊆ s.activeHandles)
    (htasks : adoptedTasks ⊆ s.adoptedTasks) :
    EpochBound { s with
      activeHandles := activeHandles, adoptedTasks := adoptedTasks, observing := observing } :=
  ⟨fun h hmem => hb.handles h (hhandles hmem), fun t hmem => hb.tasks t (htasks hmem), hb.unbound,
    hb.caller, hb.stage, hb.ownerLoops, hb.leases⟩

theorem EpochInv.handleQuiescent (hi : EpochInv s) (h : Nat) : EpochInv (s.handleQuiescent h) :=
  (hi.bound.erase (Finset.erase_subset h _) (Finset.Subset.refl _)).release

theorem EpochInv.adoptedTaskDone (hi : EpochInv s) (t : Nat) : EpochInv (s.adoptedTaskDone t) :=
  EpochInv.touch ⟨hi.bound.erase (Finset.Subset.refl _) (Finset.erase_subset t _),
    fun _ hobserving => absurd hobserving (Nat.succ_ne_zero _)⟩

theorem EpochInv.observed (hi : EpochInv s) : EpochInv s.observed :=
  (hi.bound.erase (Finset.Subset.refl _) (Finset.Subset.refl _)).release

/-- Only the watch and the flags of the Stage change. -/
theorem EpochInv.setFlags (hi : EpochInv s) {isSealed cancelling idleTimedOut : Bool}
    {idleTimer : Option Nat} {token : Nat} {timers : List IdleTimer}
    (hquiet : s.hasActiveWorkLocked = false → s.observing = 0 →
      idleTimer = none ∧ cancelling = false) :
    EpochInv { s with
      isSealed := isSealed, cancelling := cancelling, idleTimedOut := idleTimedOut
      idleTimer := idleTimer, idleTimerToken := token, timers := timers } := by
  obtain ⟨⟨hhandles, htasks, hunbound, hcaller, hstage, howner, hleases⟩, -⟩ := hi
  exact ⟨⟨hhandles, htasks, hunbound, hcaller, hstage, howner, hleases⟩, hquiet⟩

theorem EpochInv.fire (hi : EpochInv s) {i : Nat} (h : s.fire i = some s') : EpochInv s' := by
  obtain ⟨timer, -, -, -, -, hcases⟩ := fired_cases h
  rcases hcases with ⟨rfl, -⟩ | ⟨timeout, -, -, -, hactive, ⟨-, rfl⟩ | ⟨-, rfl⟩⟩
  · exact hi.setFlags hi.quiet
  · exact hi.setFlags fun hidle => nomatch hactive.symm.trans hidle
  · exact hi.setFlags fun hidle => nomatch hactive.symm.trans hidle

/-! ## 3. Late callbacks -/

/-- The epoch of a late callback is the current one, a new one, or there is none. -/
theorem lateEpoch_cases (s : EpochState) (site : CallSite) (handle : EpochHandle)
    (loopRuns : Bool) :
    ((s.lateEpoch site handle loopRuns).2.isNone = true ∧
      ((s.activeBackend = none ∧ handle.backendKind = .caller ∧ handle.ownerLoop.isSome = true ∧
          (s.lateEpoch site handle loopRuns).1 = s.bindCaller handle.ownerLoop) ∨
        (s.activeBackend = none ∧ handle.backendKind = .stage ∧
          (s.lateEpoch site handle loopRuns).1 = s.bindStage site.blockedGenerationIds) ∨
        (s.activeBackend = some handle.backendKind ∧
          (handle.backendKind = .caller → s.activeLoop = handle.ownerLoop) ∧
          (s.lateEpoch site handle loopRuns).1 = s))) ∨
    ((s.lateEpoch site handle loopRuns).2.isNone = false ∧
      ((s.lateEpoch site handle loopRuns).1 = s ∨
        (s.activeBackend = none ∧ handle.backendKind = .stage ∧ site.leaseError.isSome = true ∧
          (s.lateEpoch site handle loopRuns).1 =
            { s with activeBackend := some .stage, activeLoop := none }))) := by
  unfold lateEpoch
  split
  · rename_i hnone hkind
    split
    · rename_i hloop
      rw [Bool.and_eq_true] at hloop
      exact Or.inl ⟨rfl, Or.inl ⟨hnone, hkind, hloop.1, rfl⟩⟩
    · exact Or.inr ⟨rfl, Or.inl rfl⟩
  · rename_i hnone hkind
    split
    · rename_i error hlease
      rw [hlease]
      exact Or.inr ⟨rfl, Or.inr ⟨hnone, hkind, rfl, rfl⟩⟩
    · exact Or.inl ⟨rfl, Or.inr (Or.inl ⟨hnone, hkind, rfl⟩)⟩
  · rename_i kind backend hbound
    split
    · exact Or.inr ⟨rfl, Or.inl rfl⟩
    · rename_i hsame
      rw [not_or, not_not, not_and, not_not] at hsame
      refine Or.inl ⟨rfl, Or.inr (Or.inr ⟨?_, fun hcaller => hsame.2 ?_, rfl⟩)⟩
      · rw [hbound, hsame.1]
      · rw [hsame.1]
        exact hcaller

/-- The handle of a late callback belongs to the epoch that it joins. -/
theorem EpochInv.lateEpoch (hi : EpochInv s) {h : Nat} {handle : EpochHandle} {loopRuns : Bool}
    (hget : s.handles[h]? = some handle)
    (haccepted : (s.lateEpoch site handle loopRuns).2.isNone = true) :
    EpochInv (s.lateEpoch site handle loopRuns).1 ∧
      (s.lateEpoch site handle loopRuns).1.handles[h]? = some handle ∧
      (s.lateEpoch site handle loopRuns).1.activeBackend = some handle.backendKind ∧
      (s.lateEpoch site handle loopRuns).1.activeLoop = handle.loop := by
  obtain ⟨hstage, howner⟩ := hi.bound.ownerLoops h handle hget
  -- a recorded owner loop is the loop of the handle
  have hrecorded : handle.ownerLoop.isSome = true → handle.ownerLoop = handle.loop := by
    intro hsome
    rcases howner with hnone | heq
    · rw [hnone] at hsome
      cases hsome
    · exact heq
  rcases lateEpoch_cases s site handle loopRuns with
    ⟨-, ⟨hnone, hkind, hsome, heq⟩ | ⟨hnone, hkind, heq⟩ | ⟨hbound, hsame, heq⟩⟩ | ⟨hrefused, -⟩
  · rw [heq]
    exact ⟨hi.bindCaller hnone hsome, hget, congrArg some hkind.symm, hrecorded hsome⟩
  · rw [heq]
    exact ⟨hi.bindStage hnone _, hget, congrArg some hkind.symm, (hstage hkind).symm⟩
  · rw [heq]
    refine ⟨hi, hget, hbound, ?_⟩
    cases hkind : handle.backendKind with
    | caller =>
      have hloop := hi.bound.caller (hkind ▸ hbound)
      rw [hsame hkind] at hloop ⊢
      exact hrecorded hloop
    | stage =>
      rw [hi.bound.stage (hkind ▸ hbound), hstage hkind]
  · rw [haccepted] at hrefused
    cases hrefused

theorem EpochInv.lateCallback (hi : EpochInv s) {h : Nat} {handle : EpochHandle}
    {loopRuns loopStillRuns : Bool} {start : DrainStart} (hget : s.handles[h]? = some handle) :
    EpochInv (s.lateCallback site h handle loopRuns loopStillRuns start).1 := by
  rcases @lateCallback_cases s site h handle loopRuns loopStillRuns start with
    ⟨heq, -⟩ | ⟨heq, -, hrefused⟩ | ⟨haccepted, -, ⟨-, heq⟩ | ⟨-, heq⟩⟩
  · rw [heq]
    exact hi
  · rw [heq]
    rcases lateEpoch_cases s site handle loopRuns with ⟨haccepted, -⟩ | ⟨-, hsame | hleft⟩
    · rw [haccepted] at hrefused
      cases hrefused
    · rw [hsame]
      exact hi
    · obtain ⟨hnone, -, -, hleft⟩ := hleft
      rw [hleft]
      exact hi.bindWithoutLease hnone
  · rw [heq]
    obtain ⟨hi', hget', hbackend, hloop⟩ := hi.lateEpoch hget haccepted
    exact hi'.enterHandle hget' hbackend hloop
  · rw [heq]
    obtain ⟨hi', hget', hbackend, hloop⟩ := hi.lateEpoch hget haccepted
    exact (hi'.enterHandle hget' hbackend hloop).handleQuiescent h

/-! ## 4. Runs -/

theorem EpochInv.step (hi : EpochInv s) {e : EpochEvent} (hstep : s.step e = some s') :
    EpochInv s' := by
  cases stepped hstep with
  | enter mode hopen =>
    obtain ⟨⟨hhandles, htasks, hunbound, hcaller, hstage, howner, hleases⟩, hquiet⟩ := hi
    exact ⟨⟨hhandles, htasks, hunbound, hcaller, hstage, howner, hleases⟩, hquiet⟩
  | go site =>
    exact hi.go
  | setOwnerTask h =>
    exact hi.setOwnerTask h
  | handleQuiescent h hlt =>
    exact hi.handleQuiescent h
  | lateCallback site h handle loopRuns loopStillRuns start hget =>
    exact hi.lateCallback hget
  | selectForTask site loop hloop =>
    exact hi.selectForTask
  | createTaskFails i hlt =>
    obtain ⟨⟨hhandles, htasks, hunbound, hcaller, hstage, howner, hleases⟩, hquiet⟩ := hi
    exact ⟨⟨hhandles, htasks, hunbound, hcaller, hstage, howner, hleases⟩, hquiet⟩
  | createTask i loop site hget hloop =>
    exact hi.createTask
  | newTask loop =>
    exact hi.newTask
  | adopt site t loop hget =>
    exact hi.adopt hget
  | adoptedTaskDone t hmem =>
    exact hi.adoptedTaskDone t
  | observed hobserving =>
    exact hi.observed
  | ownedActivity =>
    exact hi.touch
  | tick =>
    unfold EpochState.tick
    split
    · exact hi
    · exact hi.touch
  | cancelScope =>
    unfold EpochState.cancelScope
    split
    · rename_i hactive
      exact hi.setFlags fun hidle => nomatch hactive.symm.trans hidle
    · exact hi
  | sealScope =>
    exact hi.setFlags fun hidle hfree => ⟨rfl, (hi.quiet hidle hfree).2⟩
  | fire i hfire => exact hi.fire hfire
  | releaseLease lease hmem =>
    obtain ⟨⟨hhandles, htasks, hunbound, hcaller, hstage, howner, hleases⟩, hquiet⟩ := hi
    refine ⟨⟨hhandles, htasks, hunbound, hcaller, hstage, howner, ?_⟩, hquiet⟩
    refine List.Perm.trans ?_ hleases
    rw [List.append_assoc, List.append_assoc]
    refine List.Perm.append_left _ ?_
    -- the lease changes the list it is in
    have hmoved : (s.releasing.erase lease ++ s.released ++ [lease]).Perm
        (lease :: (s.releasing.erase lease ++ s.released)) := List.perm_append_singleton _ _
    rw [← List.append_assoc]
    exact hmoved.trans ((List.perm_cons_erase hmem).symm.append_right s.released)
  | advance time =>
    obtain ⟨⟨hhandles, htasks, hunbound, hcaller, hstage, howner, hleases⟩, hquiet⟩ := hi
    exact ⟨⟨hhandles, htasks, hunbound, hcaller, hstage, howner, hleases⟩, hquiet⟩

theorem reachable_epochInv {configured : ConfiguredBackend} {idleTimeout : Option Nat}
    (h : (epochSystem configured idleTimeout).Reachable s) : EpochInv s := by
  induction h with
  | init hinit =>
    cases hinit
    refine ⟨⟨fun h hmem => ?_, fun t hmem => ?_, fun _ => ⟨rfl, rfl, rfl⟩, fun h => ?_,
      fun _ => rfl, fun h handle hget => ?_, List.Perm.refl _⟩, fun _ _ => ⟨rfl, rfl⟩⟩
    · cases hmem
    · cases hmem
    · cases h
    · cases hget
  | step _ _ hstep ih => exact ih.step hstep

/-! ## 5. What is left bound -/

/-- Nothing is active, nobody observes, and no other `create_task` has selected a backend. -/
def idleBut (s : EpochState) (creating : Nat) : Bool :=
  decide (s.creating.length = creating) && decide (s.observing = 0) && !s.hasActiveWorkLocked

/-- A failing step that keeps a binding which nothing uses. -/
def leavesBound (s : EpochState) : EpochEvent → Bool
  | .createTaskFails _ => s.idleBut 1 && s.activeBackend.isSome
  | .createTask _ site => s.idleBut 1 && s.activeBackend.isSome && !s.callAllowed site
  | .lateCallback site h _ _ _ =>
    s.idleBut 0 && s.activeBackend.isNone && s.callAllowed site && site.leaseError.isSome &&
      s.handles[h]?.any fun handle => decide (handle.backendKind = .stage)
  | _ => false

/-- With no operation in progress, a Stage without active work is unbound. -/
def Vacated (s : EpochState) : Prop :=
  s.creating = [] → s.observing = 0 → s.hasActiveWorkLocked = false → s.activeBackend = none

theorem vacated_of_active (h : s.hasActiveWorkLocked = true) : Vacated s :=
  fun _ _ hidle => nomatch h.symm.trans hidle

theorem vacated_touch (h : Vacated s) : Vacated s.touchLocked := by
  obtain ⟨activity, token, timer, timers, heq, -⟩ := touchLocked_frame s
  rw [heq]
  exact h

theorem vacated_release (s : EpochState) : Vacated s.releaseBackendIfQuiescentLocked := by
  unfold releaseBackendIfQuiescentLocked
  split
  · rename_i hactive
    exact vacated_of_active hactive
  · exact fun _ _ _ => rfl

theorem vacated_go (h : Vacated s) : Vacated (s.go site).1 := by
  unfold EpochState.go
  split
  · split
    · exact h
    · exact vacated_touch (vacated_of_active
        (hasActiveWorkLocked_of_handle (Finset.mem_insert_self _ _)))
  · exact h

/-- An adoption that the Stage allows leaves no binding without work. -/
theorem vacated_adopt {t loop : Nat} (h : s.callAllowed site = true → t ∉ s.adoptedTasks)
    (hrefused : s.callAllowed site = false → Vacated s) : Vacated (s.adopt site t loop).1 := by
  unfold EpochState.adopt
  split
  · rename_i hallowed
    rw [if_neg (h hallowed)]
    split
    · rename_i error hresolve
      -- a backend that cannot be resolved is not bound
      intro _ _ _
      unfold resolveBackendLocked at hresolve
      split at hresolve
      · cases hresolve
      · assumption
    · split
      · exact vacated_touch (vacated_of_active
          (hasActiveWorkLocked_of_task (Finset.mem_insert_self _ _)))
      · exact vacated_release _
  · rename_i hclosed
    exact hrefused (Bool.eq_false_iff.mpr hclosed)

theorem vacated_selectForTask (h : Vacated s) {loop : Nat} :
    Vacated (s.selectForTask site loop).1 := by
  unfold EpochState.selectForTask
  split
  · split
    · exact h
    · split
      · exact fun hcreating => absurd hcreating (List.append_ne_nil_of_right_ne_nil _ (by simp))
      · exact vacated_release _
  · exact h

theorem idleBut_eq_true {n : Nat} :
    s.idleBut n = true ↔
      s.creating.length = n ∧ s.observing = 0 ∧ s.hasActiveWorkLocked = false := by
  rw [idleBut, Bool.and_eq_true, Bool.and_eq_true, decide_eq_true_iff, decide_eq_true_iff,
    Bool.not_eq_true', and_assoc]

/-- **Step lemma**: a step that keeps no unused binding. -/
theorem vacated_step (hi : EpochInv s) (hv : Vacated s) {e : EpochEvent}
    (hok : s.leavesBound e = false) (hstep : s.step e = some s') : Vacated s' := by
  cases stepped hstep with
  | enter mode hopen =>
    exact hv
  | go site =>
    exact vacated_go hv
  | setOwnerTask h =>
    exact hv
  | handleQuiescent h hlt =>
    exact vacated_release _
  | lateCallback site h handle loopRuns loopStillRuns start hget =>
    rcases @lateCallback_cases s site h handle loopRuns loopStillRuns start with
      ⟨heq, -⟩ | ⟨heq, hallowed, hrefused⟩ | ⟨-, -, ⟨-, heq⟩ | ⟨-, heq⟩⟩
    · rw [heq]
      exact hv
    · rw [heq]
      rcases lateEpoch_cases s site handle loopRuns with
        ⟨haccepted, -⟩ | ⟨-, hsame | ⟨hnone, hkind, hlease, hleft⟩⟩
      · rw [haccepted] at hrefused
        cases hrefused
      · rw [hsame]
        exact hv
      · rw [hleft]
        intro hcreating hfree hidle
        have hleaves : s.leavesBound (.lateCallback site h loopRuns loopStillRuns start) = true := by
          have hbut : s.idleBut 0 = true :=
            idleBut_eq_true.mpr ⟨List.length_eq_zero_iff.mpr hcreating, hfree, hidle⟩
          simp [leavesBound, hbut, hnone, hallowed, hlease, hget, hkind]
        rw [hok] at hleaves
        cases hleaves
    · rw [heq]
      exact vacated_of_active (hasActiveWorkLocked_of_handle (Finset.mem_insert_self _ _))
    · rw [heq]
      exact vacated_release _
  | selectForTask site loop hloop =>
    exact vacated_selectForTask hv
  | createTaskFails i hlt =>
    intro hcreating hfree hidle
    have hlength : s.creating.length = 1 := by
      have := List.length_eraseIdx_of_lt hlt
      rw [show s.creating.eraseIdx i = [] from hcreating, List.length_nil] at this
      omega
    have hbut : s.idleBut 1 = true := idleBut_eq_true.mpr ⟨hlength, hfree, hidle⟩
    rw [leavesBound, hbut, Bool.true_and] at hok
    exact Option.not_isSome_iff_eq_none.mp (Bool.eq_false_iff.mp hok)
  | createTask i loop site hget hloop =>
    refine vacated_adopt (fun _ hmem => ?_) fun hclosed hcreating hfree hidle => ?_
    · -- the task is new
      obtain ⟨loop', hget', -⟩ := hi.bound.tasks _ hmem
      rw [List.getElem?_eq_none (Nat.le_refl _)] at hget'
      cases hget'
    · have hlt : i < s.creating.length := (List.getElem?_eq_some_iff.mp hget).1
      have hlength : s.creating.length = 1 := by
        have := List.length_eraseIdx_of_lt hlt
        rw [show s.creating.eraseIdx i = [] from hcreating, List.length_nil] at this
        omega
      have hbut : s.idleBut 1 = true := idleBut_eq_true.mpr ⟨hlength, hfree, hidle⟩
      rw [leavesBound, hbut, Bool.true_and, show s.callAllowed site = false from hclosed,
        Bool.not_false, Bool.and_true] at hok
      exact Option.not_isSome_iff_eq_none.mp (Bool.eq_false_iff.mp hok)
  | newTask loop =>
    exact hv
  | adopt site t loop hget =>
    by_cases hmem : t ∈ s.adoptedTasks
    · have hsame : (s.adopt site t loop).1 = s := by
        unfold EpochState.adopt
        split
        · rfl
        · rfl
      rw [hsame]
      exact hv
    · exact vacated_adopt (fun _ => hmem) fun _ => hv
  | adoptedTaskDone t hmem =>
    exact vacated_touch fun _ hobserving => absurd hobserving (Nat.succ_ne_zero _)
  | observed hobserving =>
    exact vacated_release _
  | ownedActivity =>
    exact vacated_touch hv
  | tick =>
    unfold EpochState.tick
    split
    · exact hv
    · exact vacated_touch hv
  | cancelScope =>
    unfold EpochState.cancelScope
    split
    · exact hv
    · exact hv
  | sealScope =>
    exact hv
  | fire i hfire =>
    obtain ⟨timer, -, -, -, -, ⟨rfl, -⟩ | ⟨timeout, -, -, -, -, ⟨-, rfl⟩ | ⟨-, rfl⟩⟩⟩ :=
      fired_cases hfire
    · exact hv
    · exact hv
    · exact hv
  | releaseLease lease hmem =>
    exact hv
  | advance time =>
    exact hv

theorem reachUnder_vacated {configured : ConfiguredBackend} {idleTimeout : Option Nat}
    (h : (epochSystem configured idleTimeout).ReachUnder (fun s e => s.leavesBound e = false) s) :
    Vacated s := by
  induction h with
  | init hinit =>
    cases hinit
    exact fun _ _ _ => rfl
  | step hreach hok hstep ih =>
    exact vacated_step (reachable_epochInv hreach.reachable) ih hok hstep

/-! ## 6. Coherence -/

structure Coherent (s : EpochState) : Prop where
  cleared : s.creating = [] → s.observing = 0 → s.hasActiveWorkLocked = false →
    s.activeBackend = none ∧ s.activeLoop = none ∧ s.generationLease = none ∧
      s.blockedGenerationIds = [] ∧ s.idleTimer = none ∧ s.cancelling = false
  /-- What is active belongs to one backend, and on a caller backend to one loop. -/
  together : s.hasActiveWorkLocked = true → ∃ backend, s.activeBackend = some backend ∧
    (backend = .caller → s.activeLoop.isSome = true) ∧
    (∀ h ∈ s.activeHandles, ∃ handle : EpochHandle, s.handles[h]? = some handle ∧
      handle.backendKind = backend ∧ handle.loop = s.activeLoop) ∧
    ∀ t ∈ s.adoptedTasks, ∃ loop : Nat, s.taskLoops[t]? = some loop ∧
      backend = .caller ∧ s.activeLoop = some loop
  /-- Every lease is held, on its way back, or given back, and that once. -/
  leases : (s.generationLease.toList ++ s.releasing ++ s.released).Perm (List.range s.leaseCount)
  returned : s.creating = [] → s.observing = 0 → s.releasing = [] →
    s.hasActiveWorkLocked = false → s.released.Perm (List.range s.leaseCount)

theorem EpochInv.coherent (hi : EpochInv s) (hv : Vacated s) : Coherent s where
  cleared hcreating hfree hidle := by
    have hnone := hv hcreating hfree hidle
    obtain ⟨hloop, hlease, hblocked⟩ := hi.bound.unbound hnone
    exact ⟨hnone, hloop, hlease, hblocked, hi.quiet hidle hfree⟩
  together hactive := by
    cases hbackend : s.activeBackend with
    | none =>
      obtain ⟨hhandles, htasks⟩ := hi.bound.idle_of_unbound hbackend
      rw [hasActiveWorkLocked_eq_false.mpr ⟨hhandles, htasks⟩] at hactive
      cases hactive
    | some backend =>
      refine ⟨backend, rfl, fun hcaller => hi.bound.caller (hcaller ▸ hbackend),
        fun h hmem => ?_, fun t hmem => ?_⟩
      · obtain ⟨handle, hget, hbound, hloop⟩ := hi.bound.handles h hmem
        rw [hbackend] at hbound
        cases hbound
        exact ⟨handle, hget, rfl, hloop.symm⟩
      · obtain ⟨loop, hget, hbound, hloop⟩ := hi.bound.tasks t hmem
        rw [hbackend] at hbound
        cases hbound
        exact ⟨loop, hget, rfl, hloop⟩
  leases := hi.bound.leases
  returned hcreating hfree hreleasing hidle := by
    have hleases := hi.bound.leases
    rw [(hi.bound.unbound (hv hcreating hfree hidle)).2.1, hreleasing] at hleases
    exact hleases

/-- What a failing step leaves bound is incoherent. -/
theorem not_coherent_of_leavesBound {e : EpochEvent} (hleaves : s.leavesBound e = true)
    (hstep : s.step e = some s') : ¬ Coherent s' := by
  intro hcoherent
  cases stepped hstep with
  | createTaskFails i hlt =>
    rw [leavesBound, Bool.and_eq_true, idleBut_eq_true] at hleaves
    obtain ⟨⟨hlength, hfree, hidle⟩, hbound⟩ := hleaves
    have hempty : s.creating.eraseIdx i = [] := by
      rw [← List.length_eq_zero_iff, List.length_eraseIdx_of_lt hlt, hlength]
    rw [show s.activeBackend = none from (hcoherent.cleared hempty hfree hidle).1] at hbound
    cases hbound
  | createTask i loop site hget hloop =>
    rw [leavesBound, Bool.and_eq_true, Bool.and_eq_true, idleBut_eq_true, Bool.not_eq_true']
      at hleaves
    obtain ⟨⟨⟨hlength, hfree, hidle⟩, hbound⟩, hclosed⟩ := hleaves
    have hempty : s.creating.eraseIdx i = [] := by
      rw [← List.length_eq_zero_iff,
        List.length_eraseIdx_of_lt (List.getElem?_eq_some_iff.mp hget).1, hlength]
    -- a refused adoption changes nothing
    have hrefused : (s.createTask i loop site).1 = { s with
        creating := s.creating.eraseIdx i, taskLoops := s.taskLoops ++ [loop] } := by
      refine adopt_of_refused ?_ s.taskLoops.length loop
      exact hclosed
    rw [hrefused] at hcoherent
    rw [show s.activeBackend = none from (hcoherent.cleared hempty hfree hidle).1] at hbound
    cases hbound
  | lateCallback site h handle loopRuns loopStillRuns start hget =>
    simp only [leavesBound, hget, Option.any_some, Bool.and_eq_true, idleBut_eq_true,
      Option.isNone_iff_eq_none, decide_eq_true_iff] at hleaves
    obtain ⟨⟨⟨⟨⟨hlength, hfree, hidle⟩, hnone⟩, hallowed⟩, hlease⟩, hkind⟩ := hleaves
    obtain ⟨error, hlease⟩ := Option.isSome_iff_exists.mp hlease
    have hleft : (s.lateCallback site h handle loopRuns loopStillRuns start).1 =
        { s with activeBackend := some .stage, activeLoop := none } := by
      simp only [EpochState.lateCallback, hallowed, if_true, lateEpoch, hnone, hkind, hlease]
    rw [hleft] at hcoherent
    exact nomatch (hcoherent.cleared (List.length_eq_zero_iff.mp hlength) hfree hidle).1
  | _ => cases hleaves

/-- **Coherent epochs.**  Every run whose failing steps keep no unused binding stays coherent,
    and a step that keeps one does not. -/
theorem epoch_coherence_iff (s : EpochState) :
    (∀ configured idleTimeout, (epochSystem configured idleTimeout).ReachUnder
      (fun s e => s.leavesBound e = false) s → Coherent s) ∧
    ∀ (s' : EpochState) (e : EpochEvent), s.leavesBound e = true → s.step e = some s' →
      ¬ Coherent s' :=
  ⟨fun _ _ hreach =>
    (reachable_epochInv hreach.reachable).coherent (reachUnder_vacated hreach),
    fun _ _ hleaves hstep => not_coherent_of_leavesBound hleaves hstep⟩

/-- A call by a coroutine of loop 0. -/
def loopSite : CallSite := ⟨false, some 0, none, true, none, []⟩

/-- `loop.create_task` raises in the first `create_task`. -/
def failedTaskRun : List EpochEvent := [.selectForTask loopSite, .createTaskFails 0]

theorem failed_create_task_stays_bound :
    ∃ s, (epochSystem .auto none).run { configured := .auto, idleTimeout := none }
        failedTaskRun = some s ∧ (epochSystem .auto none).Reachable s ∧
      s.creating = [] ∧ s.observing = 0 ∧ s.releasing = [] ∧ s.hasActiveWorkLocked = false ∧
      s.activeBackend = some .caller ∧ s.activeLoop = some 0 ∧ ¬ Coherent s := by
  have hend : ((epochSystem .auto none).run { configured := .auto, idleTimeout := none }
      failedTaskRun).any (fun s => decide (s.creating = [] ∧ s.observing = 0 ∧ s.releasing = [] ∧
        s.hasActiveWorkLocked = false ∧ s.activeBackend = some .caller ∧
        s.activeLoop = some 0)) = true := by
    decide
  obtain ⟨s, hrun, hs⟩ := (Option.any_eq_true _ _).mp hend
  obtain ⟨hcreating, hfree, hreleasing, hidle, hbackend, hloop⟩ := of_decide_eq_true hs
  refine ⟨s, hrun, System.reachable_of_run failedTaskRun rfl hrun, hcreating, hfree, hreleasing,
    hidle, hbackend, hloop, fun hcoherent => ?_⟩
  have hcleared := (hcoherent.cleared hcreating hfree hidle).1
  rw [hbackend] at hcleared
  cases hcleared

end EpochState

end AgentlyStage
