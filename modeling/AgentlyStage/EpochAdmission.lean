import AgentlyStage.EpochCoherence

/-!
# Admissions of an epoch

Which backend and loop the work has that an event makes active, and that nothing else binds work:
an epoch is sticky from its first work to quiescence.
-/

namespace AgentlyStage

open Transition

/-! ## 1. Selections -/

namespace EpochState

variable (s : EpochState)

/-- What `go` selects for the new handle. -/
def goSelection (site : CallSite) : Option (BackendKind × Option Nat) :=
  if s.callAllowed site then
    match s.resolveBackendLocked site with
    | .ok (selected, _) => some selected
    | .error _ => none
  else none

/-- What `adopt` selects when it makes the task active. -/
def adoptSelection (site : CallSite) (t loop : Nat) : Option (BackendKind × Option Nat) :=
  if s.callAllowed site ∧ t ∉ s.adoptedTasks then
    match s.resolveBackendLocked site with
    | .ok (selected, _) => if selected = (.caller, some loop) then some selected else none
    | .error _ => none
  else none

/-- The backend of a late callback that makes its handle active. -/
def lateSelection (site : CallSite) (handle : EpochHandle) (loopRuns loopStillRuns : Bool)
    (start : DrainStart) : Option (BackendKind × Option Nat) :=
  if s.callAllowed site ∧ (s.lateEpoch site handle loopRuns).2.isNone ∧
      staysActive handle loopStillRuns start then
    some (handle.backendKind, handle.loop)
  else none

/-- The backend and the loop of the work that an event makes active. -/
def admits : EpochEvent → Option (BackendKind × Option Nat)
  | .go site => s.goSelection site
  | .lateCallback site h loopRuns loopStillRuns start =>
    (s.handles[h]?).bind fun handle =>
      s.lateSelection site handle loopRuns loopStillRuns start
  | .createTask i site =>
    (s.creating[i]?).bind fun loop => adoptSelection
      { s with creating := s.creating.eraseIdx i, taskLoops := s.taskLoops ++ [loop] } site
      s.taskLoops.length loop
  | .adopt site t => (s.taskLoops[t]?).bind fun loop => s.adoptSelection site t loop
  | _ => none

/-- The handle for which an event submits work to the carrier. -/
def submitsToCarrier (e : EpochEvent) : Option Nat :=
  match s.admits e, e with
  | some (.stage, _), .go _ => some s.handles.length
  | some (.stage, _), .lateCallback _ h _ _ .submitted => some h
  | _, _ => none

end EpochState

namespace EpochState

variable {s s' : EpochState} {site : CallSite}

/-! ## 2. Epochs are sticky -/

/-- Nothing becomes active, and what stays active keeps its backend. -/
def Fades (s s' : EpochState) : Prop :=
  s'.hasActiveWorkLocked = true →
    s.hasActiveWorkLocked = true ∧ s'.activeBackend = s.activeBackend ∧
      s'.activeLoop = s.activeLoop

/-- Work becomes active under the selection, which is the current one of a bound Stage. -/
structure Admitted (s s' : EpochState) (selected : BackendKind × Option Nat) : Prop where
  active : s'.hasActiveWorkLocked = true
  backend : s'.activeBackend = some selected.1
  loop : s'.activeLoop = selected.2
  sticky : s.activeBackend = none ∨ (s.activeBackend = some selected.1 ∧ s.activeLoop = selected.2)

theorem Fades.refl (s : EpochState) : Fades s s := fun hactive => ⟨hactive, rfl, rfl⟩

theorem Fades.trans {s'' : EpochState} (h : Fades s s') (h' : Fades s' s'') : Fades s s'' := by
  intro hactive
  obtain ⟨hactive', hbackend', hloop'⟩ := h' hactive
  obtain ⟨hactive, hbackend, hloop⟩ := h hactive'
  exact ⟨hactive, hbackend'.trans hbackend, hloop'.trans hloop⟩

theorem Fades.of_idle (h : s'.hasActiveWorkLocked = false) : Fades s s' := by
  intro hactive
  rw [h] at hactive
  cases hactive

/-- The inventory shrinks, and the binding stays. -/
theorem Fades.of_subset (hhandles : s'.activeHandles ⊆ s.activeHandles)
    (htasks : s'.adoptedTasks ⊆ s.adoptedTasks) (hbackend : s'.activeBackend = s.activeBackend)
    (hloop : s'.activeLoop = s.activeLoop) : Fades s s' := by
  refine fun hactive => ⟨?_, hbackend, hloop⟩
  rw [hasActiveWorkLocked_eq_true] at hactive ⊢
  rcases hactive with hactive | hactive
  · refine Or.inl fun hempty => hactive (Finset.subset_empty.mp ?_)
    rw [← hempty]
    exact hhandles
  · refine Or.inr fun hempty => hactive (Finset.subset_empty.mp ?_)
    rw [← hempty]
    exact htasks

theorem fades_touch (s : EpochState) : Fades s s.touchLocked := by
  obtain ⟨activity, token, timer, timers, heq, -⟩ := touchLocked_frame s
  rw [heq]
  exact Fades.refl s

theorem fades_release (s : EpochState) : Fades s s.releaseBackendIfQuiescentLocked := by
  unfold releaseBackendIfQuiescentLocked
  split
  · exact Fades.refl s
  · rename_i hidle
    exact Fades.of_idle (Bool.eq_false_iff.mpr hidle)

theorem fades_handleQuiescent (s : EpochState) (h : Nat) : Fades s (s.handleQuiescent h) := by
  have herase : Fades s { s with activeHandles := s.activeHandles.erase h } :=
    Fades.of_subset (Finset.erase_subset h _) (Finset.Subset.refl _) rfl rfl
  exact herase.trans (fades_release _)

/-- A selection without an admission. -/
theorem fades_resolve (hi : EpochInv s) {selected : BackendKind × Option Nat}
    (h : s.resolveBackendLocked site = .ok (selected, s')) : Fades s s' := by
  rcases resolveBackendLocked_spec h with ⟨-, -, rfl⟩ | ⟨hnone, -, -, rfl⟩ | ⟨hnone, -, -, rfl⟩
  · exact Fades.refl _
  · obtain ⟨hhandles, htasks⟩ := hi.bound.idle_of_unbound hnone
    exact Fades.of_idle (hasActiveWorkLocked_eq_false.mpr ⟨hhandles, htasks⟩)
  · obtain ⟨hhandles, htasks⟩ := hi.bound.idle_of_unbound hnone
    exact Fades.of_idle (hasActiveWorkLocked_eq_false.mpr ⟨hhandles, htasks⟩)

theorem sticky_of_resolve {selected : BackendKind × Option Nat}
    (h : s.resolveBackendLocked site = .ok (selected, s')) :
    s.activeBackend = none ∨ (s.activeBackend = some selected.1 ∧ s.activeLoop = selected.2) := by
  rcases resolveBackendLocked_spec h with ⟨hbound, hloop, -⟩ | ⟨hnone, -⟩ | ⟨hnone, -⟩
  · exact Or.inr ⟨hbound, hloop.symm⟩
  · exact Or.inl hnone
  · exact Or.inl hnone

/-- The idle timer is looked at when the work is there. -/
theorem Admitted.touch {selected : BackendKind × Option Nat} (h : Admitted s s' selected) :
    Admitted s s'.touchLocked selected := by
  obtain ⟨activity, token, timer, timers, heq, -⟩ := touchLocked_frame s'
  rw [heq]
  exact ⟨h.active, h.backend, h.loop, h.sticky⟩

/-- What an event does to the epoch, by what it admits. -/
def Admits (s s' : EpochState) : Option (BackendKind × Option Nat) → Prop
  | some selected => Admitted s s' selected
  | none => Fades s s'

/-- Only the inventory and the binding before the event matter. -/
theorem Admits.of_frame {t : EpochState} {admitted : Option (BackendKind × Option Nat)}
    (h : Admits t s' admitted) (hactive : t.hasActiveWorkLocked = s.hasActiveWorkLocked)
    (hbackend : t.activeBackend = s.activeBackend) (hloop : t.activeLoop = s.activeLoop) :
    Admits s s' admitted := by
  cases admitted with
  | none =>
    intro hactive'
    rw [← hactive, ← hbackend, ← hloop]
    exact h hactive'
  | some selected =>
    refine ⟨h.active, h.backend, h.loop, ?_⟩
    rw [← hbackend, ← hloop]
    exact h.sticky

theorem admits_go (hi : EpochInv s) : Admits s (s.go site).1 (s.goSelection site) := by
  unfold EpochState.go goSelection
  split
  · cases hresolve : s.resolveBackendLocked site with
    | error error => exact Fades.refl s
    | ok result =>
      obtain ⟨⟨backend, loop⟩, s'⟩ := result
      obtain ⟨-, hbackend, hloop, -⟩ := hi.resolve hresolve
      refine Admitted.touch ⟨?_, hbackend, hloop, sticky_of_resolve hresolve⟩
      exact hasActiveWorkLocked_of_handle (Finset.mem_insert_self s'.handles.length _)
  · exact Fades.refl s

theorem admits_adopt (hi : EpochInv s) {t loop : Nat} :
    Admits s (s.adopt site t loop).1 (s.adoptSelection site t loop) := by
  unfold EpochState.adopt adoptSelection
  by_cases hallowed : s.callAllowed site = true
  · rw [if_pos hallowed]
    by_cases hmem : t ∈ s.adoptedTasks
    · rw [if_pos hmem, if_neg fun h => h.2 hmem]
      exact Fades.refl s
    · rw [if_neg hmem, if_pos ⟨hallowed, hmem⟩]
      cases hresolve : s.resolveBackendLocked site with
      | error error => exact Fades.refl s
      | ok result =>
        obtain ⟨selected, s'⟩ := result
        obtain ⟨-, hbackend, hloop, -⟩ := hi.resolve hresolve
        dsimp only
        split
        · refine Admitted.touch ⟨?_, hbackend, hloop, sticky_of_resolve hresolve⟩
          exact hasActiveWorkLocked_of_task (Finset.mem_insert_self t _)
        · exact (fades_resolve hi hresolve).trans (fades_release s')
  · rw [if_neg hallowed, if_neg fun h => hallowed h.1]
    exact Fades.refl s

/-- The epoch of a late callback is the current one, or the Stage was idle. -/
theorem fades_lateEpoch (hi : EpochInv s) (handle : EpochHandle) (loopRuns : Bool) :
    Fades s (s.lateEpoch site handle loopRuns).1 := by
  obtain ⟨backend, loop, lease, count, blocked, heq⟩ := lateEpoch_frame s site handle loopRuns
  have hidle : s.activeBackend = none →
      (s.lateEpoch site handle loopRuns).1.hasActiveWorkLocked = false := by
    intro hnone
    rw [heq]
    exact hasActiveWorkLocked_eq_false.mpr (hi.bound.idle_of_unbound hnone)
  rcases lateEpoch_cases s site handle loopRuns with
    ⟨-, ⟨hnone, -⟩ | ⟨hnone, -⟩ | ⟨-, -, hsame⟩⟩ | ⟨-, hsame | ⟨hnone, -⟩⟩
  · exact Fades.of_idle (hidle hnone)
  · exact Fades.of_idle (hidle hnone)
  · rw [hsame]
    exact Fades.refl s
  · rw [hsame]
    exact Fades.refl s
  · exact Fades.of_idle (hidle hnone)

theorem admits_lateCallback (hi : EpochInv s) {h : Nat} {handle : EpochHandle}
    {loopRuns loopStillRuns : Bool} {start : DrainStart} (hget : s.handles[h]? = some handle) :
    Admits s (s.lateCallback site h handle loopRuns loopStillRuns start).1
      (s.lateSelection site handle loopRuns loopStillRuns start) := by
  unfold lateSelection
  rcases @lateCallback_cases s site h handle loopRuns loopStillRuns start with
    ⟨heq, hclosed⟩ | ⟨heq, -, hrefused⟩ | ⟨haccepted, hallowed, ⟨hstays, heq⟩ | ⟨hleaves, heq⟩⟩
  · rw [heq, if_neg fun h => Bool.false_ne_true (hclosed.symm.trans h.1)]
    exact Fades.refl s
  · rw [heq, if_neg fun h => Bool.false_ne_true (hrefused.symm.trans h.2.1)]
    exact fades_lateEpoch hi handle loopRuns
  · rw [heq, if_pos ⟨hallowed, haccepted, hstays⟩]
    obtain ⟨-, -, hbackend, hloop⟩ := hi.lateEpoch hget haccepted
    refine ⟨hasActiveWorkLocked_of_handle (Finset.mem_insert_self h _), hbackend, hloop, ?_⟩
    rcases lateEpoch_cases s site handle loopRuns with
      ⟨-, ⟨hnone, -⟩ | ⟨hnone, -⟩ | ⟨hbound, -, hsame⟩⟩ | ⟨hrefused, -⟩
    · exact Or.inl hnone
    · exact Or.inl hnone
    · rw [hsame] at hloop
      exact Or.inr ⟨hbound, hloop⟩
    · rw [haccepted] at hrefused
      cases hrefused
  · -- the submission has settled the handle again
    rw [heq, if_neg fun h => Bool.false_ne_true (hleaves.symm.trans h.2.2)]
    have herase : Fades (s.lateEpoch site handle loopRuns).1
        { (s.lateEpoch site handle loopRuns).1 with
          activeHandles := (insert h (s.lateEpoch site handle loopRuns).1.activeHandles).erase h } :=
      Fades.of_subset (Finset.erase_insert_subset h _) (Finset.Subset.refl _) rfl rfl
    exact ((fades_lateEpoch hi handle loopRuns).trans herase).trans (fades_release _)

theorem mem_activeHandles_go {selected : BackendKind × Option Nat}
    (hselects : s.goSelection site = some selected) :
    s.handles.length ∈ (s.go site).1.activeHandles := by
  unfold goSelection at hselects
  unfold EpochState.go
  split at hselects
  · rename_i hallowed
    rw [if_pos hallowed]
    cases hresolve : s.resolveBackendLocked site with
    | error error => simp [hresolve] at hselects
    | ok result =>
      obtain ⟨⟨backend, loop⟩, s'⟩ := result
      have hlength : s'.handles = s.handles := by
        rcases resolveBackendLocked_spec hresolve with
          ⟨-, -, rfl⟩ | ⟨-, -, -, rfl⟩ | ⟨-, -, -, rfl⟩
        · rfl
        · rfl
        · rfl
      obtain ⟨activity, token, timer, timers, heq, -⟩ := touchLocked_frame { s' with
        handles := s'.handles ++ [{ backendKind := backend, loop := loop }]
        activeHandles := insert s'.handles.length s'.activeHandles }
      dsimp only
      rw [heq, ← hlength]
      exact Finset.mem_insert_self _ _
  · cases hselects

theorem mem_activeHandles_lateCallback {h : Nat} {handle : EpochHandle}
    {loopRuns loopStillRuns : Bool} {start : DrainStart} {selected : BackendKind × Option Nat}
    (hselects : s.lateSelection site handle loopRuns loopStillRuns start = some selected) :
    h ∈ (s.lateCallback site h handle loopRuns loopStillRuns start).1.activeHandles := by
  unfold lateSelection at hselects
  split at hselects
  · rename_i hstays
    obtain ⟨hallowed, haccepted, hstays⟩ := hstays
    rcases @lateCallback_cases s site h handle loopRuns loopStillRuns start with
      ⟨-, hclosed⟩ | ⟨-, -, hrefused⟩ | ⟨-, -, ⟨-, heq⟩ | ⟨hleaves, -⟩⟩
    · exact (Bool.eq_false_iff.mp hclosed hallowed).elim
    · exact (Bool.eq_false_iff.mp hrefused haccepted).elim
    · rw [heq]
      exact Finset.mem_insert_self _ _
    · exact (Bool.eq_false_iff.mp hleaves hstays).elim
  · cases hselects

/-- A submission to the carrier is for an active handle of the stage backend. -/
theorem submitsToCarrier_spec {e : EpochEvent} {h : Nat}
    (hsubmits : s.submitsToCarrier e = some h) (hstep : s.step e = some s') :
    (∃ loop, s.admits e = some (.stage, loop)) ∧ h ∈ s'.activeHandles := by
  unfold submitsToCarrier at hsubmits
  split at hsubmits
  · rename_i loop site hadmits
    cases hsubmits
    cases hstep
    exact ⟨⟨loop, hadmits⟩, mem_activeHandles_go hadmits⟩
  · rename_i loop site h' loopRuns loopStillRuns hadmits
    cases hsubmits
    obtain ⟨handle, hget, rfl⟩ := Option.map_eq_some_iff.mp hstep
    refine ⟨⟨loop, hadmits⟩, ?_⟩
    rw [EpochState.admits, hget] at hadmits
    exact mem_activeHandles_lateCallback hadmits
  · cases hsubmits

/-- **Step lemma of an epoch.** -/
theorem step_admits (hi : EpochInv s) {e : EpochEvent} (hstep : s.step e = some s') :
    Admits s s' (s.admits e) := by
  have hkept : ∀ {t : EpochState}, t.activeHandles = s.activeHandles →
      t.adoptedTasks = s.adoptedTasks → t.activeBackend = s.activeBackend →
        t.activeLoop = s.activeLoop → Fades s t := fun hhandles htasks hbackend hloop =>
    Fades.of_subset (hhandles ▸ Finset.Subset.refl _) (htasks ▸ Finset.Subset.refl _) hbackend hloop
  cases stepped hstep with
  | go site => exact admits_go hi
  | lateCallback site h handle loopRuns loopStillRuns start hget =>
    rw [EpochState.admits, hget]
    exact admits_lateCallback hi hget
  | createTask i loop site hget hloop =>
    rw [EpochState.admits, hget]
    exact (admits_adopt hi.newTask).of_frame rfl rfl rfl
  | adopt site t loop hget =>
    rw [EpochState.admits, hget]
    exact admits_adopt hi
  | enter mode hopen => exact hkept rfl rfl rfl rfl
  | setOwnerTask h | sealScope | newTask loop | advance time => exact hkept rfl rfl rfl rfl
  | handleQuiescent h hlt => exact fades_handleQuiescent s h
  | selectForTask site loop hloop =>
    change Fades s _
    unfold EpochState.selectForTask
    split
    · cases hresolve : s.resolveBackendLocked site with
      | error error => exact Fades.refl s
      | ok result =>
        obtain ⟨selected, s'⟩ := result
        dsimp only
        have hselected : Fades s s' := fades_resolve hi hresolve
        split
        · exact fun hactive => hselected hactive
        · exact hselected.trans (fades_release s')
    · exact Fades.refl s
  | createTaskFails i hlt => exact hkept rfl rfl rfl rfl
  | releaseLease lease hmem => exact hkept rfl rfl rfl rfl
  | adoptedTaskDone t hmem =>
    have herase : Fades s { s with
        adoptedTasks := s.adoptedTasks.erase t, observing := s.observing + 1 } :=
      Fades.of_subset (Finset.Subset.refl _) (Finset.erase_subset t _) rfl rfl
    exact herase.trans (fades_touch _)
  | observed hobserving =>
    have hobserved : Fades s { s with observing := s.observing - 1 } := hkept rfl rfl rfl rfl
    exact hobserved.trans (fades_release _)
  | ownedActivity => exact fades_touch s
  | tick =>
    change Fades s s.tick
    unfold EpochState.tick
    split
    · exact Fades.refl s
    · exact fades_touch s
  | cancelScope =>
    change Fades s s.cancelScope
    unfold EpochState.cancelScope
    split
    · exact hkept rfl rfl rfl rfl
    · exact Fades.refl s
  | fire i hfire =>
    obtain ⟨timer, -, -, -, -, ⟨rfl, -⟩ | ⟨timeout, -, -, -, -, ⟨-, rfl⟩ | ⟨-, rfl⟩⟩⟩ :=
      fired_cases hfire
    · exact hkept rfl rfl rfl rfl
    · exact hkept rfl rfl rfl rfl
    · exact hkept rfl rfl rfl rfl

end EpochState

end AgentlyStage
