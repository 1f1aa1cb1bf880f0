import Mathlib.Data.List.Nodup
import Mathlib.Data.List.Perm.Basic
import AgentlyStage.CarrierRuntime
import AgentlyStage.CarrierLifecycle
import AgentlyStage.Lib.Simulation
import AgentlyStage.Lib.Counting

/-!
# The lanes of the runtime

Where the lanes of the runtime are: in the configured pool, among the escape lanes, or taken
out.  A lane that a call has been given is in the pool and can create a generation, and an
escape lane waits for the call that opened it or carries its one generation.

The invariant looks at a lane through its `view`, which only reservations and the end of a run
change; what holds inside the lanes is carried over from `slotSystem` by simulation.
-/

namespace AgentlyStage

open Transition

/-! ## 1. What the runtime sees of a lane -/

structure LaneView where
  generationCount : Nat
  current : Option Nat
  next : Option Nat
  controlOpen : Bool

namespace SlotState

variable {s s' u : SlotState} {g h n t : Nat}

def view (s : SlotState) : LaneView :=
  ⟨s.generationCount, s.current, s.next, s.controlOpen⟩

@[simp] theorem view_setGeneration (s : SlotState) (g : Nat) (generation : Generation) :
    (s.setGeneration g generation).view = s.view := rfl

@[simp] theorem view_setHandle (s : SlotState) (h : Nat) (handle : HandleWork) :
    (s.setHandle h handle).view = s.view := rfl

@[simp] theorem view_callSoon (s : SlotState) (g : Nat) (call : CarrierCall) :
    (s.callSoon g call).view = s.view := rfl

@[simp] theorem view_addReservation (s : SlotState) (g : Nat) :
    (s.addReservation g).view = s.view := rfl

@[simp] theorem view_releaseReservation (s : SlotState) (g : Nat) :
    (s.releaseReservation g).view = s.view := rfl

@[simp] theorem view_setTasks (s : SlotState) (tasks : List CarrierTask) :
    view { s with tasks } = s.view := rfl

@[simp] theorem view_setSubmissions (s : SlotState) (submissions : List Submission) :
    view { s with submissions } = s.view := rfl

theorem view_completeTask (s : SlotState) (t : Nat) (task : CarrierTask) :
    (s.completeTask t task).view = s.view := by
  unfold completeTask
  dsimp only
  split <;> rfl

theorem view_beginSubmission (s : SlotState) (t n : Nat) :
    (s.beginSubmission t n).view = s.view := by
  unfold beginSubmission
  split
  · rfl
  · dsimp only
    split <;> rfl

theorem view_finishSubmission (s : SlotState) (n : Nat) : (s.finishSubmission n).view = s.view := by
  unfold finishSubmission
  split <;> rfl

theorem view_firstStep (s : SlotState) (t : Nat) : (s.firstStep t).view = s.view := by
  unfold firstStep
  split
  · rfl
  · split
    · exact view_completeTask _ _ _
    · dsimp only
      split
      · exact view_beginSubmission _ _ _
      · rfl

theorem view_endTask (s : SlotState) (t : Nat) (task : CarrierTask) :
    (s.endTask t task).view = s.view := by
  unfold endTask
  split
  · rw [view_completeTask, view_finishSubmission]
  · exact view_completeTask _ _ _

theorem view_descendantDone (s : SlotState) (t : Nat) : (s.descendantDone t).view = s.view := by
  unfold descendantDone
  split
  · split <;> rfl
  · rfl

theorem view_cancelTasks (s : SlotState) (tasks : List Nat) :
    (s.cancelTasks tasks).view = s.view := by
  unfold cancelTasks
  induction tasks generalizing s with
  | nil => rfl
  | cons t tasks ih =>
    rw [List.foldl_cons, ih]
    unfold cancelTask
    split
    · split <;> rfl
    · rfl

theorem view_cancel (s : SlotState) (h : Nat) : (s.cancel h).view = s.view := by
  unfold cancel
  dsimp only
  split
  · split <;> rfl
  · rfl

theorem view_taskFactory {context : Option ExecutionContext} {root : Option Nat}
    (hfactory : s.taskFactory g context root = .ok u) : u.view = s.view := by
  unfold taskFactory at hfactory
  dsimp only at hfactory
  split at hfactory
  · split at hfactory
    · split at hfactory
      · cases hfactory
      · rename_i v hretain
        cases hfactory
        unfold retainReservation at hretain
        split at hretain
        · cases hretain
          rfl
        · cases hretain
    · cases hfactory
      rfl
  · cases hfactory
    rfl

theorem view_startSubmission (s : SlotState) (g n : Nat) :
    (s.startSubmission g n).view = s.view := by
  unfold startSubmission
  split
  · rfl
  · split
    · rfl
    · rename_i u hfactory
      exact (view_setSubmissions u _).trans (view_taskFactory hfactory)

theorem view_runCall (s : SlotState) (g : Nat) (call : CarrierCall) :
    (s.runCall g call).view = s.view := by
  cases call with
  | startSubmission n => exact view_startSubmission s g n
  | firstStep t => exact view_firstStep s t
  | cancelTasks tasks => exact view_cancelTasks s tasks
  | descendantDone t => exact view_descendantDone s t
  | setSeal => rfl

theorem view_queueTaken (h : s.queueTaken g = some s') : s'.view = s.view := by
  unfold queueTaken at h
  split at h
  · cases h
    rfl
  · split at h
    · cases h
      rfl
    · cases h

theorem view_loopStep (h : s.loopStep g = some s') : s'.view = s.view := by
  unfold loopStep at h
  split at h
  · cases h
  · cases h
    rw [view_runCall, view_setGeneration]

/-- A step inside the lane leaves the view as it is. -/
theorem view_inside {e : SlotEvent} (hinside : e.insideLane = true)
    (hstep : s.step e = some s') : s'.view = s.view := by
  cases stepped hstep with
  | submit | acquireLease | leaseRefused | releaseLease | close | exit | shutdown => cases hinside
  | postSeal g hposted =>
    split <;> rfl
  | runGeneration g hcurrent hstopped hopen => rfl
  | queueTaken g hrun htaken => exact view_queueTaken htaken
  | loopStep g hfree hloop => exact view_loopStep hloop
  | createTask g context hfree hfactory => exact view_taskFactory hfactory
  | taskRefused g context => rfl
  | endTask t task ht hbegun hdone hfree => exact view_endTask s t task
  | cancel h => exact view_cancel s h
  | drain g hfree hseal => rfl

/-- A request is granted, or the lane refuses it and stays as it is. -/
theorem view_request {request : LaneRequest} {preferred : Option Nat}
    (hstep : s.step (request.event preferred) = some s') :
    (∃ g u, s.reserveLocked preferred = .ok (g, u) ∧ s'.view = u.view) ∨
      ((∃ error, s.reserveLocked preferred = .error error) ∧ s'.view = s.view) := by
  cases request with
  | lease =>
    simp only [LaneRequest.event, SlotState.step] at hstep
    split at hstep
    · rename_i g u hreserve
      cases hstep
      exact Or.inl ⟨g, u, hreserve, rfl⟩
    · rename_i error hreserve
      cases hstep
      exact Or.inr ⟨⟨error, hreserve⟩, rfl⟩
  | submission h phase context =>
    obtain ⟨-, rfl⟩ := when_eq_some hstep
    unfold SlotState.submit
    split
    · rename_i error hreserve
      exact Or.inr ⟨⟨error, hreserve⟩, rfl⟩
    · rename_i g u hreserve
      refine Or.inl ⟨g, u, hreserve, ?_⟩
      unfold deliver
      split <;> rfl

theorem controlOpen_select {preferred : Option Nat}
    (h : s.selectGenerationLocked preferred = .ok (g, u)) : u.controlOpen = s.controlOpen := by
  have hcreate : ∀ asNext, s.createGenerationLocked asNext = .ok (g, u) →
      u.controlOpen = s.controlOpen := by
    intro asNext h
    unfold createGenerationLocked at h
    split at h
    · cases h
      rfl
    · cases h
  cases preferred with
  | some p =>
    simp only [selectGenerationLocked] at h
    split at h
    · cases h
    · split at h
      · cases h
        rfl
      · cases h
  | none =>
    simp only [selectGenerationLocked] at h
    split at h
    · exact hcreate _ h
    · split at h
      · cases h
        rfl
      · split at h
        · cases h
          rfl
        · exact hcreate _ h

/-- A pinned reservation creates nothing. -/
theorem view_pinned (h : s.reserveLocked (some n) = .ok (g, u)) : u.view = s.view := by
  unfold reserveLocked at h
  split at h
  · rename_i hselect
    cases h
    simp only [selectGenerationLocked] at hselect
    split at hselect
    · cases hselect
    · split at hselect
      · cases hselect
        rfl
      · cases hselect
  · cases h

/-- What a reservation without a preference does to the view. -/
theorem view_reserved (h : s.reserveLocked none = .ok (g, u)) :
    u.controlOpen = s.controlOpen ∧
      ((u.generationCount = s.generationCount ∧ u.current = s.current ∧ u.next = s.next ∧
          s.current.isSome) ∨
        (u.generationCount = s.generationCount + 1 ∧
          ((s.current = none ∧ u.current.isSome ∧ u.next = s.next) ∨
            (s.current.isSome ∧ u.current = s.current)))) := by
  unfold reserveLocked at h
  split at h
  · rename_i v hselect
    cases h
    refine ⟨controlOpen_select (u := v) hselect, ?_⟩
    simp only [selectGenerationLocked] at hselect
    rcases @selectGenerationLocked_placed _ _ _ none hselect with
      ⟨hcount, hcurrent, hnext, -⟩ | ⟨-, hcount, ⟨hnone, hcurrent, hnext⟩ | ⟨hsome, -, hcurrent, -⟩⟩
    · refine Or.inl ⟨hcount, hcurrent, hnext, ?_⟩
      split at hselect
      · rename_i hnone
        unfold createGenerationLocked at hselect
        split at hselect
        · cases hselect
          exact absurd hcount (Nat.succ_ne_self _)
        · cases hselect
      · rename_i c hc
        rw [hc]
        rfl
    · exact Or.inr ⟨hcount, Or.inl ⟨hnone, Option.isSome_iff_exists.mpr ⟨_, hcurrent⟩, hnext⟩⟩
    · exact Or.inr ⟨hcount, Or.inr ⟨Option.isSome_iff_ne_none.mpr hsome, hcurrent⟩⟩
  · cases h

/-- A lane whose control executor is open grants a reservation without a preference. -/
theorem reserveLocked_of_open (hopen : s.controlOpen = true) :
    ∃ g u, s.reserveLocked none = .ok (g, u) := by
  have hcreate : ∀ asNext, ∃ g u, s.createGenerationLocked asNext = .ok (g, u) := by
    intro asNext
    unfold createGenerationLocked
    rw [if_pos hopen]
    exact ⟨_, _, rfl⟩
  have hselect : ∃ g u, s.selectGenerationLocked none = .ok (g, u) := by
    simp only [selectGenerationLocked]
    split
    · exact hcreate _
    · split
      · exact ⟨_, _, rfl⟩
      · split
        · exact ⟨_, _, rfl⟩
        · exact hcreate _
  obtain ⟨g, u, hselect⟩ := hselect
  refine ⟨g, u.addReservation g, ?_⟩
  unfold reserveLocked
  rw [hselect]

end SlotState

namespace CarrierRuntime

variable {s s' : CarrierRuntime} {slot g i index count : Nat} {lane : SlotState}
  {call : LaneCall} {request : LaneRequest}

/-! ## 2. The invariant -/

/-- The lists of lanes. -/
structure PoolShape (s : CarrierRuntime) : Prop where
  positive : 0 < s.carrierLoopCount
  length : s.slots.length = s.carrierLoopCount
  cursor : s.selectionCursor < s.carrierLoopCount
  distinct : (s.slots ++ s.escapeSlots ++ s.retired).Nodup
  numbered : ∀ slot ∈ s.slots ++ s.escapeSlots ++ s.retired, slot ≤ s.slotCounter
  known : ∀ slot ∈ s.onIdle, slot ≤ s.slotCounter
  escape : ∀ slot ∈ s.escapeSlots, slot ∈ s.onIdle
  regular : ∀ slot ∈ s.slots, slot ∉ s.onIdle

/-- The lanes behind the lists. -/
structure PoolLanes (s : CarrierRuntime) : Prop where
  fresh : ∀ slot, s.slotCounter < slot → (s.lanes slot).view = SlotState.view {}
  opened : ∀ slot ∈ s.slots ++ s.escapeSlots, (s.lanes slot).controlOpen = true
  /-- A lane that has been taken out of the configured pool has never been used. -/
  unused : ∀ slot, slot ∉ s.slots → slot ∉ s.onIdle → (s.lanes slot).generationCount = 0
  single : ∀ slot ∈ s.onIdle, (s.lanes slot).next = none
  /-- An escape lane is reported idle when its generation has closed, and leaves after it. -/
  left : ∀ slot ∈ s.onIdle, (slot ∈ s.idling ∨ slot ∉ s.escapeSlots) ↔
    (s.lanes slot).generationCount = 1 ∧ (s.lanes slot).current = none
  idling : ∀ slot ∈ s.idling, slot ∈ s.escapeSlots
  idling_once : s.idling.Nodup
  identified : ∀ slot, (s.generationIds.filter fun id => decide (id.1 = slot)).map Prod.snd =
    List.range (s.lanes slot).generationCount

/-- The call has been given the lane. -/
def selects (slot : Nat) (call : LaneCall) : Bool := decide (call.phase = .selected slot)

/-- The calls in progress. -/
structure PoolCalls (s : CarrierRuntime) : Prop where
  unfrozen : s.settingsFrozen = false →
    s.calls = [] ∧ s.onIdle = [] ∧ ∀ slot, (s.lanes slot).generationCount = 0
  choosing : ∀ call ∈ s.calls, ∀ slots, call.phase = .choosing slots → slots = s.slots
  selected : ∀ call ∈ s.calls, ∀ slot, call.phase = .selected slot → slot ∈ s.slots ∨ slot ∈ s.onIdle
  /-- An escape lane waits for the call that opened it, or carries its one generation. -/
  once : ∀ slot ∈ s.onIdle, s.calls.countP (selects slot) + (s.lanes slot).generationCount = 1

structure RuntimeInv (s : CarrierRuntime) : Prop where
  shape : s.PoolShape
  lanes : s.PoolLanes
  calls : s.PoolCalls

theorem runtimeInv_initial : RuntimeInv {} := by
  refine ⟨⟨by decide, rfl, by decide, by decide, by decide, ?_, ?_, ?_⟩,
    ⟨fun _ _ => rfl, fun _ _ => rfl, fun _ _ _ => rfl, ?_, ?_, ?_, List.nodup_nil, fun _ => rfl⟩,
    ⟨fun _ => ⟨rfl, rfl, fun _ => rfl⟩, ?_, ?_, ?_⟩⟩
  all_goals first
    | exact fun _ h => absurd h List.not_mem_nil
    | exact fun _ _ => List.not_mem_nil

/-! ## 3. Lanes that move -/

theorem lanes_moveLane (s : CarrierRuntime) (slot k : Nat) (lane : SlotState) :
    (s.moveLane slot lane).lanes k = if k = slot then lane else s.lanes k :=
  Function.update_apply ..

/-- A lane whose view stays is as good as one that has not moved. -/
theorem RuntimeInv.same (hi : s.RuntimeInv) (hview : lane.view = (s.lanes slot).view) :
    (s.moveLane slot lane).RuntimeInv := by
  have hviews : ∀ k, ((s.moveLane slot lane).lanes k).view = (s.lanes k).view := by
    intro k
    rw [lanes_moveLane]
    split
    · rename_i hk
      rw [hk, hview]
    · rfl
  have hcount : ∀ k, ((s.moveLane slot lane).lanes k).generationCount =
      (s.lanes k).generationCount := fun k => congrArg LaneView.generationCount (hviews k)
  have hcurrent : ∀ k, ((s.moveLane slot lane).lanes k).current = (s.lanes k).current :=
    fun k => congrArg LaneView.current (hviews k)
  have hids : (s.moveLane slot lane).generationIds = s.generationIds := by
    refine if_neg ?_
    rw [show lane.generationCount = (s.lanes slot).generationCount from
      congrArg LaneView.generationCount hview]
    exact Nat.lt_irrefl _
  refine ⟨⟨hi.shape.positive, hi.shape.length, hi.shape.cursor, hi.shape.distinct,
    hi.shape.numbered, hi.shape.known, hi.shape.escape, hi.shape.regular⟩,
    ⟨fun k hk => (hviews k).trans (hi.lanes.fresh k hk), fun k hk => ?_, fun k hk hk' => ?_,
      fun k hk => ?_, fun k hk => ?_, hi.lanes.idling, hi.lanes.idling_once, fun k => ?_⟩,
    ⟨fun h => ?_, hi.calls.choosing, hi.calls.selected, fun k hk => ?_⟩⟩
  · exact (congrArg LaneView.controlOpen (hviews k)).trans (hi.lanes.opened k hk)
  · exact (hcount k).trans (hi.lanes.unused k hk hk')
  · exact (congrArg LaneView.next (hviews k)).trans (hi.lanes.single k hk)
  · rw [hcount, hcurrent]
    exact hi.lanes.left k hk
  · rw [hids, hcount]
    exact hi.lanes.identified k
  · obtain ⟨hcalls, honIdle, hzero⟩ := hi.calls.unfrozen h
    exact ⟨hcalls, honIdle, fun k => (hcount k).trans (hzero k)⟩
  · rw [hcount]
    exact hi.calls.once k hk

/-! ## 4. Calls that go on -/

theorem RuntimeInv.frozen_of_call (hi : s.RuntimeInv) (hcall : s.calls[i]? = some call) :
    s.settingsFrozen = true := by
  by_contra hfrozen
  have hnil := (hi.calls.unfrozen ((Bool.not_eq_true _).mp hfrozen)).1
  rw [hnil] at hcall
  cases hcall

theorem RuntimeInv.frozen_of_generation (hi : s.RuntimeInv)
    (hg : g < (s.lanes slot).generationCount) : s.settingsFrozen = true := by
  by_contra hfrozen
  have hzero := (hi.calls.unfrozen ((Bool.not_eq_true _).mp hfrozen)).2.2 slot
  omega

/-- Only the calls change, and none of them takes or loses an escape lane. -/
theorem RuntimeInv.ofCalls (hi : s.RuntimeInv) {calls : List LaneCall} {cursor : Nat}
    (hcursor : cursor < s.carrierLoopCount)
    (hchoosing : ∀ call ∈ calls, ∀ slots, call.phase = .choosing slots → slots = s.slots)
    (hselected : ∀ call ∈ calls, ∀ slot, call.phase = .selected slot →
      slot ∈ s.slots ∨ slot ∈ s.onIdle)
    (hcount : ∀ slot ∈ s.onIdle, calls.countP (selects slot) = s.calls.countP (selects slot)) :
    RuntimeInv { s with settingsFrozen := true, selectionCursor := cursor, calls } where
  shape := ⟨hi.shape.positive, hi.shape.length, hcursor, hi.shape.distinct, hi.shape.numbered,
    hi.shape.known, hi.shape.escape, hi.shape.regular⟩
  lanes := ⟨hi.lanes.fresh, hi.lanes.opened, hi.lanes.unused, hi.lanes.single, hi.lanes.left,
    hi.lanes.idling, hi.lanes.idling_once, hi.lanes.identified⟩
  calls := by
    refine ⟨fun h => Bool.noConfusion h, hchoosing, hselected, fun slot hslot => ?_⟩
    have honce := hi.calls.once slot hslot
    rwa [← hcount slot hslot] at honce

/-- A new call that has not been given a lane. -/
theorem RuntimeInv.begin (hi : s.RuntimeInv) (hnew : ∀ slots, call.phase ≠ .choosing slots)
    (hlane : ∀ slot, call.phase ≠ .selected slot) :
    RuntimeInv { s with settingsFrozen := true, calls := s.calls ++ [call] } := by
  refine @RuntimeInv.ofCalls s hi (s.calls ++ [call]) _ hi.shape.cursor ?_ ?_ ?_
  · intro other hother slots hslots
    rcases List.mem_append.mp hother with hmem | hmem
    · exact hi.calls.choosing other hmem slots hslots
    · rw [List.mem_singleton.mp hmem] at hslots
      exact absurd hslots (hnew slots)
  · intro other hother slot hslot
    rcases List.mem_append.mp hother with hmem | hmem
    · exact hi.calls.selected other hmem slot hslot
    · rw [List.mem_singleton.mp hmem] at hslot
      exact absurd hslot (hlane slot)
  · intro slot _
    rw [countP_concat, selects, decide_eq_false (hlane slot)]
    rfl

/-- A call enters its next phase, without an escape lane before or after. -/
theorem RuntimeInv.enter (hi : s.RuntimeInv) (hcall : s.calls[i]? = some call)
    {phase : LaneCallPhase} {cursor : Nat} (hcursor : cursor < s.carrierLoopCount)
    (hbefore : ∀ slot, call.phase ≠ .selected slot)
    (hchoosing : ∀ slots, phase = .choosing slots → slots = s.slots)
    (hselected : ∀ slot, phase = .selected slot → slot ∈ s.slots) :
    RuntimeInv { s.setPhase i call phase with selectionCursor := cursor } := by
  have hfrozen := hi.frozen_of_call hcall
  have hinv := @RuntimeInv.ofCalls s hi (s.calls.set i { call with phase }) _ hcursor ?_ ?_ ?_
  · rwa [← hfrozen] at hinv
  · intro other hother slots hslots
    rcases List.mem_or_eq_of_mem_set hother with hmem | rfl
    · exact hi.calls.choosing other hmem slots hslots
    · exact hchoosing slots hslots
  · intro other hother slot hslot
    rcases List.mem_or_eq_of_mem_set hother with hmem | rfl
    · exact hi.calls.selected other hmem slot hslot
    · exact Or.inl (hselected slot hslot)
  · intro slot hslot
    refine countP_set_same hcall ?_
    have hphase : phase ≠ .selected slot :=
      fun hphase => hi.shape.regular slot (hselected slot hphase) hslot
    rw [selects, selects, decide_eq_false (hbefore slot), decide_eq_false hphase]

theorem countP_eraseIdx_add {α : Type} {l : List α} {i : Nat} {x : α} {p : α → Bool}
    (hx : l[i]? = some x) : (l.eraseIdx i).countP p + (p x).toNat = l.countP p := by
  obtain ⟨hi, rfl⟩ := List.getElem?_eq_some_iff.mp hx
  rw [← (List.getElem_cons_eraseIdx_perm hi).countP_eq p, List.countP_cons]
  cases p l[i] <;> rfl

/-- A call ends that has no escape lane. -/
theorem RuntimeInv.finish (hi : s.RuntimeInv) (hcall : s.calls[i]? = some call)
    (hlane : ∀ slot ∈ s.onIdle, call.phase ≠ .selected slot) :
    RuntimeInv { s with calls := s.calls.eraseIdx i } := by
  have hfrozen := hi.frozen_of_call hcall
  have hinv := @RuntimeInv.ofCalls s hi (s.calls.eraseIdx i) _ hi.shape.cursor
    (fun other hother => hi.calls.choosing other (List.mem_of_mem_eraseIdx hother))
    (fun other hother => hi.calls.selected other (List.mem_of_mem_eraseIdx hother)) ?_
  · rwa [← hfrozen] at hinv
  · intro slot hslot
    have hadd := countP_eraseIdx_add (p := selects slot) hcall
    rwa [selects, decide_eq_false (hlane slot hslot)] at hadd

/-- The call takes a lane that it has read. -/
theorem RuntimeInv.takeLane (hi : s.RuntimeInv) (hstep : s.takeLane i index = some s') :
    s'.RuntimeInv := by
  unfold CarrierRuntime.takeLane at hstep
  split at hstep
  · rename_i request slots hcall
    obtain ⟨slot, hslot, rfl⟩ := Option.map_eq_some_iff.mp hstep
    have hslots : slots = s.slots :=
      hi.calls.choosing _ (List.mem_of_getElem? hcall) slots rfl
    split
    · refine hi.enter hcall ?_ nofun nofun ?_
      · rw [← hi.shape.length]
        exact Nat.mod_lt _ (hi.shape.length ▸ hi.shape.positive)
      · rintro other ⟨⟩
        rw [← hslots]
        exact List.mem_of_getElem? hslot
    · exact hi.finish hcall nofun
  · cases hstep

/-- A lane that is given to a new call has never been used. -/
theorem RuntimeInv.openEscape (hi : s.RuntimeInv) (hstep : s.openEscape i = some s') :
    s'.RuntimeInv := by
  unfold CarrierRuntime.openEscape at hstep
  split at hstep
  · rename_i request slots hcall
    cases hstep
    have hnew : s.slotCounter + 1 ∉ s.slots ++ s.escapeSlots ++ s.retired :=
      fun hmem => absurd (hi.shape.numbered _ hmem) (by omega)
    have hnewIdle : s.slotCounter + 1 ∉ s.onIdle :=
      fun hmem => absurd (hi.shape.known _ hmem) (by omega)
    have hfresh := hi.lanes.fresh (s.slotCounter + 1) (Nat.lt_succ_self _)
    have hzero : (s.lanes (s.slotCounter + 1)).generationCount = 0 :=
      congrArg LaneView.generationCount hfresh
    have hunselected : s.calls.countP (selects (s.slotCounter + 1)) = 0 := by
      rw [List.countP_eq_zero]
      intro other hother hselects
      rcases hi.calls.selected other hother _ (of_decide_eq_true hselects) with hmem | hmem
      · exact hnew (List.mem_append_left _ (List.mem_append_left _ hmem))
      · exact hnewIdle hmem
    -- the new lane stands at the end of the escape lanes
    have hperm : (s.slots ++ (s.escapeSlots ++ [s.slotCounter + 1]) ++ s.retired).Perm
        ((s.slotCounter + 1) :: (s.slots ++ s.escapeSlots ++ s.retired)) := by
      rw [← List.append_assoc, List.append_assoc (s.slots ++ s.escapeSlots)]
      exact List.perm_middle
    refine ⟨⟨hi.shape.positive, hi.shape.length, hi.shape.cursor, ?_, ?_, ?_, ?_, ?_⟩,
      ⟨?_, ?_, ?_, ?_, ?_, ?_, hi.lanes.idling_once, hi.lanes.identified⟩,
      ⟨fun h => ?_, ?_, ?_, ?_⟩⟩
    · exact hperm.nodup_iff.mpr (List.nodup_cons.mpr ⟨hnew, hi.shape.distinct⟩)
    · intro slot hslot
      rcases List.mem_cons.mp (hperm.mem_iff.mp hslot) with rfl | hmem
      · exact Nat.le_refl _
      · exact Nat.le_succ_of_le (hi.shape.numbered slot hmem)
    · intro slot hslot
      rcases List.mem_append.mp hslot with hmem | hmem
      · exact Nat.le_succ_of_le (hi.shape.known slot hmem)
      · exact Nat.le_of_eq (List.mem_singleton.mp hmem)
    · intro slot hslot
      rcases List.mem_append.mp hslot with hmem | hmem
      · exact List.mem_append_left _ (hi.shape.escape slot hmem)
      · exact List.mem_append_right _ hmem
    · intro slot hslot hidle
      rcases List.mem_append.mp hidle with hmem | hmem
      · exact hi.shape.regular slot hslot hmem
      · rw [List.mem_singleton.mp hmem] at hslot
        exact hnew (List.mem_append_left _ (List.mem_append_left _ hslot))
    · intro slot hslot
      exact hi.lanes.fresh slot (Nat.lt_of_succ_lt hslot)
    · intro slot hslot
      change slot ∈ s.slots ++ (s.escapeSlots ++ [s.slotCounter + 1]) at hslot
      rw [← List.append_assoc] at hslot
      rcases List.mem_append.mp hslot with hmem | hmem
      · exact hi.lanes.opened slot hmem
      · rw [List.mem_singleton.mp hmem]
        exact congrArg LaneView.controlOpen hfresh
    · intro slot hslot hidle
      exact hi.lanes.unused slot hslot fun hmem => hidle (List.mem_append_left _ hmem)
    · intro slot hslot
      rcases List.mem_append.mp hslot with hmem | hmem
      · exact hi.lanes.single slot hmem
      · rw [List.mem_singleton.mp hmem]
        exact congrArg LaneView.next hfresh
    · intro slot hslot
      rcases List.mem_append.mp hslot with hmem | hmem
      · have hne : slot ≠ s.slotCounter + 1 := fun heq => hnewIdle (heq ▸ hmem)
        have hescape : slot ∈ s.escapeSlots ++ [s.slotCounter + 1] ↔ slot ∈ s.escapeSlots := by
          rw [List.mem_append, List.mem_singleton, or_iff_left hne]
        exact (or_congr_right (not_congr hescape)).trans (hi.lanes.left slot hmem)
      · obtain rfl := List.mem_singleton.mp hmem
        constructor
        · rintro (hidling | hgone)
          · exact absurd (List.mem_append_left _ (List.mem_append_right _
              (hi.lanes.idling _ hidling))) hnew
          · exact absurd (List.mem_append_right _ List.mem_cons_self) hgone
        · rintro ⟨hone, -⟩
          exact absurd (hone.symm.trans hzero) Nat.one_ne_zero
    · intro slot hslot
      exact List.mem_append_left _ (hi.lanes.idling slot hslot)
    · exact absurd ((hi.frozen_of_call hcall).symm.trans h) (by decide)
    · intro other hother slots' hslots
      rcases List.mem_or_eq_of_mem_set hother with hmem | rfl
      · exact hi.calls.choosing other hmem slots' hslots
      · cases hslots
    · intro other hother slot hslot
      rcases List.mem_or_eq_of_mem_set hother with hmem | rfl
      · exact (hi.calls.selected other hmem slot hslot).imp_right (List.mem_append_left _)
      · cases hslot
        exact Or.inr (List.mem_append_right _ List.mem_cons_self)
    · intro slot hslot
      change (s.calls.set i ⟨request, .selected (s.slotCounter + 1)⟩).countP (selects slot) +
        (s.lanes slot).generationCount = 1
      rcases List.mem_append.mp hslot with hmem | hmem
      · have hne : slot ≠ s.slotCounter + 1 := fun heq => hnewIdle (heq ▸ hmem)
        rw [countP_set_same hcall (by simp [selects, Ne.symm hne])]
        exact hi.calls.once slot hmem
      · obtain rfl := List.mem_singleton.mp hmem
        have hadd := countP_set_add (y := ⟨request, .selected (s.slotCounter + 1)⟩)
          (p := selects (s.slotCounter + 1)) hcall
        simp only [selects, reduceCtorEq, decide_false, decide_true, Bool.toNat_false,
          Bool.toNat_true] at hadd hunselected ⊢
        omega
  · cases hstep

/-! ## 5. Reservations -/

theorem selects_self (request : LaneRequest) (slot : Nat) :
    selects slot ⟨request, .selected slot⟩ = true := decide_eq_true rfl

/-- An escape lane that a call has been given is still empty. -/
theorem RuntimeInv.unused_of_selected (hi : s.RuntimeInv)
    (hcall : s.calls[i]? = some ⟨request, .selected slot⟩) (hidle : slot ∈ s.onIdle) :
    (s.lanes slot).generationCount = 0 := by
  have honce := hi.calls.once slot hidle
  have hpos : 0 < s.calls.countP (selects slot) :=
    List.countP_pos_iff.mpr ⟨_, List.mem_of_getElem? hcall, selects_self request slot⟩
  omega

/-- The lane that a call has been given is in the pool. -/
theorem RuntimeInv.mem_of_selected (hi : s.RuntimeInv)
    (hcall : s.calls[i]? = some ⟨request, .selected slot⟩) :
    slot ∈ s.slots ++ s.escapeSlots := by
  rcases hi.calls.selected _ (List.mem_of_getElem? hcall) slot rfl with hslot | hidle
  · exact List.mem_append_left _ hslot
  · refine List.mem_append_right _ ?_
    by_contra hgone
    have hone := ((hi.lanes.left slot hidle).mp (Or.inr hgone)).1
    rw [hi.unused_of_selected hcall hidle] at hone
    cases hone

/-- The generation that the lane has created gets the next number. -/
theorem RuntimeInv.created (hi : s.RuntimeInv)
    (hcall : s.calls[i]? = some ⟨request, .selected slot⟩)
    (hcount : lane.generationCount = (s.lanes slot).generationCount + 1)
    (hopen : lane.controlOpen = (s.lanes slot).controlOpen)
    (hidle : slot ∈ s.onIdle → lane.current.isSome ∧ lane.next = none) :
    RuntimeInv { s.moveLane slot lane with calls := s.calls.eraseIdx i } := by
  have hmem := hi.mem_of_selected hcall
  have hids : (s.moveLane slot lane).generationIds =
      s.generationIds ++ [(slot, (s.lanes slot).generationCount)] := by
    refine if_pos ?_
    rw [hcount]
    exact Nat.lt_succ_self _
  have hfinished : ∀ k, (s.calls.eraseIdx i).countP (selects k) +
      (selects k ⟨request, .selected slot⟩).toNat = s.calls.countP (selects k) :=
    fun k => countP_eraseIdx_add hcall
  refine ⟨⟨hi.shape.positive, hi.shape.length, hi.shape.cursor, hi.shape.distinct,
    hi.shape.numbered, hi.shape.known, hi.shape.escape, hi.shape.regular⟩,
    ⟨fun k hk => ?_, fun k hk => ?_, fun k hk hk' => ?_, fun k hk => ?_, fun k hk => ?_,
      hi.lanes.idling, hi.lanes.idling_once, fun k => ?_⟩,
    ⟨fun h => ?_, fun other hother => ?_, fun other hother => ?_, fun k hk => ?_⟩⟩
  · have hne : k ≠ slot := by
      rintro rfl
      exact absurd (hi.shape.numbered k (List.mem_append_left _ hmem)) (Nat.not_le_of_lt hk)
    change ((s.moveLane slot lane).lanes k).view = _
    rw [lanes_moveLane, if_neg hne]
    exact hi.lanes.fresh k hk
  · change ((s.moveLane slot lane).lanes k).controlOpen = true
    rw [lanes_moveLane]
    split
    · rename_i heq
      rw [hopen, ← heq]
      exact hi.lanes.opened k hk
    · exact hi.lanes.opened k hk
  · change ((s.moveLane slot lane).lanes k).generationCount = 0
    have hne : k ≠ slot := by
      rintro rfl
      rcases List.mem_append.mp hmem with hslot | hescape
      · exact hk hslot
      · exact hk' (hi.shape.escape k hescape)
    rw [lanes_moveLane, if_neg hne]
    exact hi.lanes.unused k hk hk'
  · change ((s.moveLane slot lane).lanes k).next = none
    rw [lanes_moveLane]
    split
    · rename_i heq
      exact (hidle (heq ▸ hk)).2
    · exact hi.lanes.single k hk
  · change (k ∈ s.idling ∨ k ∉ s.escapeSlots) ↔
      ((s.moveLane slot lane).lanes k).generationCount = 1 ∧
        ((s.moveLane slot lane).lanes k).current = none
    have hleft := hi.lanes.left k hk
    rw [lanes_moveLane]
    split
    · rename_i heq
      subst heq
      rw [hi.unused_of_selected hcall hk] at hleft
      constructor
      · intro h
        exact absurd (hleft.mp h).1 Nat.zero_ne_one
      · rintro ⟨-, hnone⟩
        have hsome := (hidle hk).1
        rw [hnone] at hsome
        cases hsome
    · exact hleft
  · change ((s.moveLane slot lane).generationIds.filter fun id => decide (id.1 = k)).map Prod.snd =
      List.range ((s.moveLane slot lane).lanes k).generationCount
    rw [hids, lanes_moveLane, List.filter_append, List.map_append, hi.lanes.identified k]
    split
    · rename_i heq
      subst heq
      rw [hcount, List.range_succ]
      simp
    · rename_i hne
      simp [Ne.symm hne]
  · exact absurd ((hi.frozen_of_call hcall).symm.trans h) (by decide)
  · exact hi.calls.choosing other (List.mem_of_mem_eraseIdx hother)
  · exact hi.calls.selected other (List.mem_of_mem_eraseIdx hother)
  · change (s.calls.eraseIdx i).countP (selects k) +
      ((s.moveLane slot lane).lanes k).generationCount = 1
    have honce := hi.calls.once k hk
    have hrest := hfinished k
    rw [lanes_moveLane]
    split
    · rename_i heq
      subst heq
      rw [selects_self, Bool.toNat_true] at hrest
      omega
    · rename_i hne
      rw [selects, decide_eq_false (by simp [Ne.symm hne]), Bool.toNat_false] at hrest
      omega

/-- A request to the lane that a call has been given. -/
theorem RuntimeInv.reserveSelected (hi : s.RuntimeInv) (hslot : SlotState.SlotInv (s.lanes slot))
    (hcall : s.calls[i]? = some ⟨request, .selected slot⟩)
    (hstep : (s.lanes slot).step (request.event none) = some lane) :
    RuntimeInv { s.moveLane slot lane with calls := s.calls.eraseIdx i } := by
  have hopen := hi.lanes.opened slot (hi.mem_of_selected hcall)
  -- an escape lane that has been given out has no current generation
  have hempty : slot ∈ s.onIdle → (s.lanes slot).current = none := by
    intro hidle
    cases hcurrent : (s.lanes slot).current with
    | none => rfl
    | some c =>
      have hc := hslot.slots c (Or.inl hcurrent)
      rw [hi.unused_of_selected hcall hidle] at hc
      exact absurd hc (Nat.not_lt_zero c)
  rcases SlotState.view_request hstep with ⟨g, u, hreserve, hview⟩ | ⟨⟨error, hrefused⟩, -⟩
  · obtain ⟨hcontrol, ⟨hcount, hcurrent, hnext, hsome⟩ | ⟨hcount, hplace⟩⟩ :=
      SlotState.view_reserved hreserve
    · have hsame : lane.view = (s.lanes slot).view := by
        rw [hview, SlotState.view, hcount, hcurrent, hnext, hcontrol]
        rfl
      refine (hi.same hsame).finish hcall ?_
      rintro other hidle heq
      cases heq
      rw [hempty hidle] at hsome
      cases hsome
    · refine hi.created hcall ((congrArg LaneView.generationCount hview).trans hcount)
        ((congrArg LaneView.controlOpen hview).trans hcontrol) fun hidle => ?_
      rw [show lane.current = u.current from congrArg LaneView.current hview,
        show lane.next = u.next from congrArg LaneView.next hview]
      rcases hplace with ⟨-, hsome, hnext⟩ | ⟨hsome, -⟩
      · exact ⟨hsome, hnext.trans (hi.lanes.single slot hidle)⟩
      · rw [hempty hidle] at hsome
        cases hsome
  · obtain ⟨g, u, hreserve⟩ := SlotState.reserveLocked_of_open hopen
    rw [hrefused] at hreserve
    cases hreserve

/-- A request to a pinned generation. -/
theorem RuntimeInv.reservePinned (hi : s.RuntimeInv)
    (hcall : s.calls[i]? = some ⟨request, .pinned slot g⟩)
    (hstep : (s.lanes slot).step (request.event (some g)) = some lane) :
    RuntimeInv { s.moveLane slot lane with calls := s.calls.eraseIdx i } := by
  have hsame : lane.view = (s.lanes slot).view := by
    rcases SlotState.view_request hstep with ⟨g', u, hreserve, hview⟩ | ⟨-, hview⟩
    · exact hview.trans (SlotState.view_pinned hreserve)
    · exact hview
  exact (hi.same hsame).finish hcall nofun

/-! ## 6. The end of a generation, and of a lane -/

/-- An escape lane has had at most one generation. -/
theorem RuntimeInv.count_le (hi : s.RuntimeInv) (hidle : slot ∈ s.onIdle) :
    (s.lanes slot).generationCount ≤ 1 := by
  have honce := hi.calls.once slot hidle
  omega

/-- A lane closes a generation; an escape lane is reported idle. -/
theorem RuntimeInv.leave (hi : s.RuntimeInv) (hlife : SlotState.Lifecycle (s.lanes slot))
    (hslot : SlotState.SlotInv (s.lanes slot)) {e : SlotEvent} (he : e = .close g ∨ e = .exit g)
    (hstep : s.leave slot e = some s') : s'.RuntimeInv := by
  unfold CarrierRuntime.leave at hstep
  obtain ⟨lane, hlane, rfl⟩ := Option.map_eq_some_iff.mp hstep
  obtain ⟨hfree, rfl⟩ : (s.lanes slot).loopFree g = true ∧
      lane = (s.lanes slot).closeGeneration g := by
    rcases he with rfl | rfl
    · obtain ⟨⟨hfree, -⟩, hlane⟩ := SlotState.when_eq_some hlane
      exact ⟨hfree, hlane⟩
    · exact SlotState.when_eq_some hlane
  have hcurrent := (hlife.running g (SlotState.running_of_loopFree hfree)).1
  have hview : ((s.lanes slot).closeGeneration g).view =
      ⟨(s.lanes slot).generationCount, (s.lanes slot).next, none,
        (s.lanes slot).controlOpen⟩ := by
    unfold SlotState.closeGeneration SlotState.view
    dsimp only
    rw [if_pos hcurrent, if_pos hcurrent]
    rfl
  generalize (s.lanes slot).closeGeneration g = lane at hview
  have hcount : lane.generationCount = (s.lanes slot).generationCount :=
    congrArg LaneView.generationCount hview
  have hnewCurrent : lane.current = (s.lanes slot).next := congrArg LaneView.current hview
  have hnewNext : lane.next = none := congrArg LaneView.next hview
  have hids : (s.moveLane slot lane).generationIds = s.generationIds := by
    refine if_neg ?_
    rw [hcount]
    exact Nat.lt_irrefl _
  have hcounts : ∀ k, ((s.moveLane slot lane).lanes k).generationCount =
      (s.lanes k).generationCount := by
    intro k
    rw [lanes_moveLane]
    split
    · rename_i heq
      rw [hcount, heq]
    · rfl
  -- what an escape lane has been: running its one generation, and in the pool
  have hbusy : slot ∈ s.onIdle → (s.lanes slot).generationCount = 1 ∧ slot ∉ s.idling ∧
      slot ∈ s.escapeSlots ∧ (lane.current.isNone && lane.next.isNone) = true := by
    intro hidle
    have hpos := hslot.slots g (Or.inl hcurrent)
    have hle := hi.count_le hidle
    have hnot : ¬ (slot ∈ s.idling ∨ slot ∉ s.escapeSlots) := by
      rw [hi.lanes.left slot hidle, hcurrent]
      exact fun h => Option.some_ne_none g h.2
    rw [not_or, not_not] at hnot
    refine ⟨by omega, hnot.1, hnot.2, ?_⟩
    rw [hnewCurrent, hnewNext, hi.lanes.single slot hidle]
    rfl
  have hidling : ∀ k, k ∈ (if (lane.current.isNone && lane.next.isNone) = true ∧ slot ∈ s.onIdle
      then s.idling ++ [slot] else s.idling) ↔ k ∈ s.idling ∨ (k = slot ∧ slot ∈ s.onIdle) := by
    intro k
    by_cases hidle : slot ∈ s.onIdle
    · rw [if_pos ⟨(hbusy hidle).2.2.2, hidle⟩, List.mem_append, List.mem_singleton,
        and_iff_left hidle]
    · rw [if_neg fun h => hidle h.2, or_iff_left fun h => hidle h.2]
  refine ⟨⟨hi.shape.positive, hi.shape.length, hi.shape.cursor, hi.shape.distinct,
    hi.shape.numbered, hi.shape.known, hi.shape.escape, hi.shape.regular⟩,
    ⟨fun k hk => ?_, fun k hk => ?_, fun k hk hk' => ?_, fun k hk => ?_, fun k hk => ?_,
      fun k hk => ?_, ?_, fun k => ?_⟩,
    ⟨fun h => ?_, hi.calls.choosing, hi.calls.selected, fun k hk => ?_⟩⟩
  · have hpos := hslot.slots g (Or.inl hcurrent)
    have hne : k ≠ slot := by
      rintro rfl
      rw [show (s.lanes k).generationCount = 0 from
        congrArg LaneView.generationCount (hi.lanes.fresh k hk)] at hpos
      exact absurd hpos (Nat.not_lt_zero g)
    change ((s.moveLane slot lane).lanes k).view = _
    rw [lanes_moveLane, if_neg hne]
    exact hi.lanes.fresh k hk
  · change ((s.moveLane slot lane).lanes k).controlOpen = true
    rw [lanes_moveLane]
    split
    · rename_i heq
      rw [show lane.controlOpen = (s.lanes slot).controlOpen from
        congrArg LaneView.controlOpen hview, ← heq]
      exact hi.lanes.opened k hk
    · exact hi.lanes.opened k hk
  · exact (hcounts k).trans (hi.lanes.unused k hk hk')
  · change ((s.moveLane slot lane).lanes k).next = none
    rw [lanes_moveLane]
    split
    · exact hnewNext
    · exact hi.lanes.single k hk
  · change (k ∈ _ ∨ k ∉ s.escapeSlots) ↔ ((s.moveLane slot lane).lanes k).generationCount = 1 ∧
      ((s.moveLane slot lane).lanes k).current = none
    rw [hidling, hcounts]
    by_cases heq : k = slot
    · subst heq
      obtain ⟨hone, -, -, -⟩ := hbusy hk
      rw [lanes_moveLane, if_pos rfl, hnewCurrent, hi.lanes.single k hk]
      exact ⟨fun _ => ⟨hone, rfl⟩, fun _ => Or.inl (Or.inr ⟨rfl, hk⟩)⟩
    · rw [lanes_moveLane, if_neg heq, or_iff_left (a := k ∈ s.idling) fun h => heq h.1]
      exact hi.lanes.left k hk
  · rcases (hidling k).mp hk with hmem | ⟨rfl, hidle⟩
    · exact hi.lanes.idling k hmem
    · exact (hbusy hidle).2.2.1
  · change (if (lane.current.isNone && lane.next.isNone) = true ∧ slot ∈ s.onIdle
      then s.idling ++ [slot] else s.idling).Nodup
    split
    · rename_i hidle
      rw [List.nodup_append]
      refine ⟨hi.lanes.idling_once, List.nodup_singleton _, fun a ha b hb heq => ?_⟩
      rw [List.mem_singleton.mp hb] at heq
      exact (hbusy hidle.2).2.1 (heq ▸ ha)
    · exact hi.lanes.idling_once
  · change ((s.moveLane slot lane).generationIds.filter fun id => decide (id.1 = k)).map Prod.snd =
      List.range ((s.moveLane slot lane).lanes k).generationCount
    rw [hids, hcounts]
    exact hi.lanes.identified k
  · obtain ⟨hcalls, honIdle, hzero⟩ := hi.calls.unfrozen h
    exact ⟨hcalls, honIdle, fun k => (hcounts k).trans (hzero k)⟩
  · change s.calls.countP (selects k) + ((s.moveLane slot lane).lanes k).generationCount = 1
    rw [hcounts]
    exact hi.calls.once k hk

/-- The escape lane leaves the pool. -/
theorem RuntimeInv.escapeSlotIdle (hi : s.RuntimeInv) (hslot : slot ∈ s.idling) :
    (s.escapeSlotIdle slot).RuntimeInv := by
  have hescape := hi.lanes.idling slot hslot
  have hnodup : s.escapeSlots.Nodup :=
    (List.nodup_append.mp (List.nodup_append.mp hi.shape.distinct).1).2.1
  have hleft : (s.lanes slot).generationCount = 1 ∧ (s.lanes slot).current = none :=
    (hi.lanes.left slot (hi.shape.escape slot hescape)).mp (Or.inl hslot)
  have hretired : (s.escapeSlotIdle slot).retired = s.retired ++ [slot] := if_pos hescape
  -- the lane moves from one list to another
  have hperm : (s.slots ++ s.escapeSlots.erase slot ++ (s.retired ++ [slot])).Perm
      (s.slots ++ s.escapeSlots ++ s.retired) := by
    have hmove : (s.escapeSlots.erase slot ++ (s.retired ++ [slot])).Perm
        (s.escapeSlots ++ s.retired) := by
      rw [← List.append_assoc]
      refine (List.perm_append_singleton slot _).trans ?_
      rw [← List.cons_append]
      exact (List.perm_cons_erase hescape).symm.append_right _
    rw [List.append_assoc, List.append_assoc]
    exact hmove.append_left _
  have hsub : ∀ k ∈ s.slots ++ s.escapeSlots.erase slot, k ∈ s.slots ++ s.escapeSlots := by
    intro k hk
    rcases List.mem_append.mp hk with hmem | hmem
    · exact List.mem_append_left _ hmem
    · exact List.mem_append_right _ (List.mem_of_mem_erase hmem)
  refine ⟨⟨hi.shape.positive, hi.shape.length, hi.shape.cursor, ?_, fun k hk => ?_,
    hi.shape.known, fun k hk => hi.shape.escape k (List.mem_of_mem_erase hk), hi.shape.regular⟩,
    ⟨hi.lanes.fresh, fun k hk => hi.lanes.opened k (hsub k hk), hi.lanes.unused, hi.lanes.single,
      fun k hk => ?_, fun k hk => ?_, hi.lanes.idling_once.erase slot, hi.lanes.identified⟩,
    ⟨hi.calls.unfrozen, hi.calls.choosing, hi.calls.selected, hi.calls.once⟩⟩
  · rw [hretired]
    exact hperm.nodup_iff.mpr hi.shape.distinct
  · rw [hretired] at hk
    exact hi.shape.numbered k (hperm.mem_iff.mp hk)
  · change (k ∈ s.idling.erase slot ∨ k ∉ s.escapeSlots.erase slot) ↔ _
    by_cases heq : k = slot
    · subst heq
      exact ⟨fun _ => hleft, fun _ => Or.inr fun hmem =>
        (hnodup.mem_erase_iff.mp hmem).1 rfl⟩
    · rw [List.mem_erase_of_ne heq, List.mem_erase_of_ne heq]
      exact hi.lanes.left k hk
  · obtain ⟨hne, hmem⟩ := hi.lanes.idling_once.mem_erase_iff.mp hk
    exact hnodup.mem_erase_iff.mpr ⟨hne, hi.lanes.idling k hmem⟩

/-- A lane that has been taken out is shut down. -/
theorem RuntimeInv.shutdown (hi : s.RuntimeInv) (hslot : slot ∈ s.retired)
    (hstep : (s.lanes slot).step .shutdown = some lane) :
    RuntimeInv { s.moveLane slot lane with retired := s.retired.erase slot } := by
  cases hstep
  have hdistinct := List.nodup_append.mp hi.shape.distinct
  have hout : slot ∉ s.slots ++ s.escapeSlots :=
    fun hmem => hdistinct.2.2 slot hmem slot hslot rfl
  have hlanes : ∀ k, (s.moveLane slot { s.lanes slot with controlOpen := false }).lanes k =
      if k = slot then { s.lanes slot with controlOpen := false } else s.lanes k :=
    fun k => lanes_moveLane s slot k _
  have hids : (s.moveLane slot { s.lanes slot with controlOpen := false }).generationIds =
      s.generationIds := if_neg (Nat.lt_irrefl _)
  have hparts : ∀ k, ((s.moveLane slot { s.lanes slot with controlOpen := false }).lanes
      k).generationCount = (s.lanes k).generationCount ∧
      ((s.moveLane slot { s.lanes slot with controlOpen := false }).lanes k).current =
        (s.lanes k).current ∧
      ((s.moveLane slot { s.lanes slot with controlOpen := false }).lanes k).next =
        (s.lanes k).next := by
    intro k
    rw [hlanes]
    split
    · rename_i heq
      rw [heq]
      exact ⟨rfl, rfl, rfl⟩
    · exact ⟨rfl, rfl, rfl⟩
  refine ⟨⟨hi.shape.positive, hi.shape.length, hi.shape.cursor, ?_, fun k hk => ?_,
    hi.shape.known, hi.shape.escape, hi.shape.regular⟩,
    ⟨fun k hk => ?_, fun k hk => ?_, fun k hk hk' => ?_, fun k hk => ?_, fun k hk => ?_,
      hi.lanes.idling, hi.lanes.idling_once, fun k => ?_⟩,
    ⟨fun h => ?_, hi.calls.choosing, hi.calls.selected, fun k hk => ?_⟩⟩
  · exact hi.shape.distinct.sublist ((List.Sublist.refl _).append List.erase_sublist)
  · rcases List.mem_append.mp hk with hmem | hmem
    · exact hi.shape.numbered k (List.mem_append_left _ hmem)
    · exact hi.shape.numbered k (List.mem_append_right _ (List.mem_of_mem_erase hmem))
  · have hne : k ≠ slot := by
      rintro rfl
      exact absurd (hi.shape.numbered k (List.mem_append_right _ hslot)) (Nat.not_le_of_lt hk)
    refine (congrArg SlotState.view ((hlanes k).trans (if_neg hne))).trans ?_
    exact hi.lanes.fresh k hk
  · have hne : k ≠ slot := fun heq => hout (heq ▸ hk)
    refine (congrArg SlotState.controlOpen ((hlanes k).trans (if_neg hne))).trans ?_
    exact hi.lanes.opened k hk
  · exact (hparts k).1.trans (hi.lanes.unused k hk hk')
  · exact (hparts k).2.2.trans (hi.lanes.single k hk)
  · have hleft := hi.lanes.left k hk
    rwa [← (hparts k).1, ← (hparts k).2.1] at hleft
  · have hid := hi.lanes.identified k
    rwa [← (hparts k).1, ← hids] at hid
  · obtain ⟨hcalls, honIdle, hzero⟩ := hi.calls.unfrozen h
    exact ⟨hcalls, honIdle, fun k => (hparts k).1.trans (hzero k)⟩
  · have honce := hi.calls.once k hk
    rwa [← (hparts k).1] at honce

/-! ## 7. The configured pool -/

theorem growSlots_eq (s : CarrierRuntime) (missing : Nat) :
    s.growSlots missing = { s with
      slotCounter := s.slotCounter + missing
      slots := s.slots ++ List.range' (s.slotCounter + 1) missing } := by
  induction missing generalizing s with
  | zero => simp [growSlots]
  | succ missing ih =>
    rw [growSlots, ih]
    simp only [newSlotLocked, List.range'_succ, List.append_assoc, List.singleton_append]
    congr 1
    omega

/-- Before the first selection the number of lanes can be changed. -/
theorem RuntimeInv.setCarrierLoopCount (hi : s.RuntimeInv) (hcount : 0 < count)
    (hstep : s.setCarrierLoopCount count = .ok s') : s'.RuntimeInv := by
  unfold CarrierRuntime.setCarrierLoopCount at hstep
  split at hstep
  · split at hstep
    · cases hstep
      exact hi
    · cases hstep
  · rename_i hunfrozen
    obtain ⟨hcalls, honIdle, hzero⟩ := hi.calls.unfrozen ((Bool.not_eq_true _).mp hunfrozen)
    have hescape : s.escapeSlots = [] := by
      rw [List.eq_nil_iff_forall_not_mem]
      intro k hk
      have := hi.shape.escape k hk
      rw [honIdle] at this
      cases this
    rw [growSlots_eq] at hstep
    dsimp only at hstep
    generalize hm : count - s.slots.length = missing at hstep
    generalize hall : s.slots ++ List.range' (s.slotCounter + 1) missing = all at hstep
    cases hstep
    have hlength : count ≤ all.length := by
      rw [← hall, List.length_append, List.length_range']
      omega
    have hmem : ∀ k, k ∈ all ↔ k ∈ s.slots ∨ (s.slotCounter < k ∧ k ≤ s.slotCounter + missing) := by
      intro k
      rw [← hall, List.mem_append, List.mem_range'_1]
      have hiff : s.slotCounter + 1 ≤ k ∧ k < s.slotCounter + 1 + missing ↔
          s.slotCounter < k ∧ k ≤ s.slotCounter + missing := by omega
      rw [hiff]
    have hnodup : (all ++ s.retired).Nodup := by
      have hold := hi.shape.distinct
      rw [hescape, List.append_nil, List.nodup_append] at hold
      rw [← hall, List.nodup_append, List.nodup_append]
      refine ⟨⟨hold.1, List.nodup_range', fun a ha b hb heq => ?_⟩, hold.2.1,
        fun a ha b hb heq => ?_⟩
      · have hle := hi.shape.numbered a (List.mem_append_left _ (List.mem_append_left _ ha))
        rw [List.mem_range'_1] at hb
        omega
      · rcases List.mem_append.mp ha with hmem | hmem
        · exact hold.2.2 a hmem b hb heq
        · have hle := hi.shape.numbered b (List.mem_append_right _ hb)
          rw [List.mem_range'_1] at hmem
          omega
    -- the lanes that stay and those that are taken out are all the lanes
    have hperm : (all.take count ++ s.escapeSlots ++ (s.retired ++ (all.drop count).reverse)).Perm
        (all ++ s.retired) := by
      rw [hescape, List.append_nil]
      have hsplit : (s.retired ++ (all.drop count).reverse).Perm (all.drop count ++ s.retired) :=
        ((List.reverse_perm _).append_left _).trans List.perm_append_comm
      refine (hsplit.append_left _).trans ?_
      rw [← List.append_assoc, List.take_append_drop]
    refine ⟨⟨hcount, ?_, Nat.mod_lt _ hcount, ?_, fun k hk => ?_, fun k hk => ?_, fun k hk => ?_,
      fun k _ hk => ?_⟩,
      ⟨fun k hk => hi.lanes.fresh k (Nat.lt_of_le_of_lt (Nat.le_add_right _ _) hk),
        fun k hk => ?_, fun k _ _ => hzero k, hi.lanes.single, hi.lanes.left, hi.lanes.idling,
        hi.lanes.idling_once, hi.lanes.identified⟩,
      ⟨hi.calls.unfrozen, fun call hcall => ?_, fun call hcall => ?_, hi.calls.once⟩⟩
    · exact List.length_take_of_le hlength
    · exact hperm.nodup_iff.mpr hnodup
    · rcases List.mem_append.mp (hperm.mem_iff.mp hk) with hall' | hretired
      · rcases (hmem k).mp hall' with hold | hnew
        · exact Nat.le_trans (hi.shape.numbered k (List.mem_append_left _
            (List.mem_append_left _ hold))) (Nat.le_add_right _ _)
        · exact hnew.2
      · exact Nat.le_trans (hi.shape.numbered k (List.mem_append_right _ hretired))
          (Nat.le_add_right _ _)
    · rw [show k ∈ s.onIdle ↔ k ∈ ([] : List Nat) by rw [honIdle]] at hk
      cases hk
    · exact hi.shape.escape k hk
    · rw [show k ∈ s.onIdle ↔ k ∈ ([] : List Nat) by rw [honIdle]] at hk
      cases hk
    · change k ∈ all.take count ++ s.escapeSlots at hk
      rw [hescape, List.append_nil] at hk
      rcases (hmem k).mp (List.mem_of_mem_take hk) with hold | hnew
      · exact hi.lanes.opened k (List.mem_append_left _ hold)
      · exact congrArg LaneView.controlOpen (hi.lanes.fresh k hnew.1)
    · rw [show call ∈ s.calls ↔ call ∈ ([] : List LaneCall) by rw [hcalls]] at hcall
      cases hcall
    · rw [show call ∈ s.calls ↔ call ∈ ([] : List LaneCall) by rw [hcalls]] at hcall
      cases hcall

/-! ## 8. Every step -/

/-- What the steps do: the guards of `step` as hypotheses. -/
inductive Stepped (s : CarrierRuntime) : RuntimeEvent → CarrierRuntime → Prop
  | setCarrierLoopCount {u : CarrierRuntime} (count : Nat) (hcount : 0 < count)
      (hok : s.setCarrierLoopCount count = .ok u) : Stepped s (.setCarrierLoopCount count) u
  | countRefused (count : Nat) : Stepped s (.setCarrierLoopCount count) s
  | shutdownSlot {lane : SlotState} (slot : Nat) (hretired : slot ∈ s.retired)
      (hlane : (s.lanes slot).step .shutdown = some lane) :
      Stepped s (.shutdownSlot slot)
        { s.moveLane slot lane with retired := s.retired.erase slot }
  | select (request : LaneRequest) : Stepped s (.select request)
      { s with settingsFrozen := true, calls := s.calls ++ [⟨request, .selecting⟩] }
  | readSlots (i : Nat) (request : LaneRequest) (hcall : s.calls[i]? = some ⟨request, .selecting⟩) :
      Stepped s (.readSlots i) (s.setPhase i ⟨request, .selecting⟩ (.choosing s.slots))
  | takeLane {u : CarrierRuntime} (i index : Nat) (htake : s.takeLane i index = some u) :
      Stepped s (.takeLane i index) u
  | openEscape {u : CarrierRuntime} (i : Nat) (hopen : s.openEscape i = some u) :
      Stepped s (.openEscape i) u
  | pin (request : LaneRequest) (slot g found : Nat) (hg : g < (s.lanes slot).generationCount) :
      Stepped s (.pin request slot g)
        { s with calls := s.calls ++ [⟨request, .pinned found g⟩] }
  | pinRefused (request : LaneRequest) (slot g : Nat) : Stepped s (.pin request slot g) s
  | reserve {lane : SlotState} (i slot : Nat) (request : LaneRequest)
      (hcall : s.calls[i]? = some ⟨request, .selected slot⟩)
      (hlane : (s.lanes slot).step (request.event none) = some lane) :
      Stepped s (.reserve i) { s.moveLane slot lane with calls := s.calls.eraseIdx i }
  | reservePinned {lane : SlotState} (i slot g : Nat) (request : LaneRequest)
      (hcall : s.calls[i]? = some ⟨request, .pinned slot g⟩)
      (hlane : (s.lanes slot).step (request.event (some g)) = some lane) :
      Stepped s (.reserve i) { s.moveLane slot lane with calls := s.calls.eraseIdx i }
  | releaseLease {lane : SlotState} (slot g found : Nat)
      (hlane : (s.lanes found).step (.releaseLease g) = some lane) :
      Stepped s (.releaseLease slot g) (s.moveLane found lane)
  | releaseRefused (slot g : Nat) : Stepped s (.releaseLease slot g) s
  | lane {lane : SlotState} (slot : Nat) (d : SlotEvent) (hinside : d.insideLane = true)
      (hlane : (s.lanes slot).step d = some lane) : Stepped s (.lane slot d) (s.moveLane slot lane)
  | close {u : CarrierRuntime} (slot g : Nat) (hclose : s.leave slot (.close g) = some u) :
      Stepped s (.close slot g) u
  | exit {u : CarrierRuntime} (slot g : Nat) (hexit : s.leave slot (.exit g) = some u) :
      Stepped s (.exit slot g) u
  | escapeSlotIdle (slot : Nat) (hidling : slot ∈ s.idling) :
      Stepped s (.escapeSlotIdle slot) (s.escapeSlotIdle slot)

theorem stepped {e : RuntimeEvent} (hstep : s.step e = some s') : s.Stepped e s' := by
  cases e with
  | setCarrierLoopCount count =>
    simp only [CarrierRuntime.step] at hstep
    split at hstep
    · rename_i hcount
      split at hstep
      · rename_i u hok
        cases hstep
        exact .setCarrierLoopCount count hcount hok
      · cases hstep
        exact .countRefused count
    · cases hstep
  | shutdownSlot slot =>
    simp only [CarrierRuntime.step] at hstep
    split at hstep
    · rename_i hretired
      obtain ⟨lane, hlane, rfl⟩ := Option.map_eq_some_iff.mp hstep
      exact .shutdownSlot slot hretired hlane
    · cases hstep
  | select request =>
    cases hstep
    exact .select request
  | readSlots i =>
    simp only [CarrierRuntime.step] at hstep
    split at hstep
    · rename_i request hcall
      cases hstep
      exact .readSlots i request hcall
    · cases hstep
  | takeLane i index => exact .takeLane i index hstep
  | openEscape i => exact .openEscape i hstep
  | pin request slot g =>
    simp only [CarrierRuntime.step] at hstep
    split at hstep
    · rename_i hg
      split at hstep
      · rename_i found hfound
        cases hstep
        exact .pin request slot g found hg
      · cases hstep
        exact .pinRefused request slot g
    · cases hstep
  | reserve i =>
    simp only [CarrierRuntime.step, CarrierRuntime.reserve] at hstep
    split at hstep
    · rename_i request slot hcall
      obtain ⟨lane, hlane, rfl⟩ := Option.map_eq_some_iff.mp hstep
      exact .reserve i slot request hcall hlane
    · rename_i request slot g hcall
      obtain ⟨lane, hlane, rfl⟩ := Option.map_eq_some_iff.mp hstep
      exact .reservePinned i slot g request hcall hlane
    · cases hstep
  | releaseLease slot g =>
    simp only [CarrierRuntime.step] at hstep
    split at hstep
    · rename_i found hfound
      obtain ⟨lane, hlane, rfl⟩ := Option.map_eq_some_iff.mp hstep
      exact .releaseLease slot g found hlane
    · cases hstep
      exact .releaseRefused slot g
  | lane slot d =>
    simp only [CarrierRuntime.step] at hstep
    split at hstep
    · rename_i hinside
      obtain ⟨lane, hlane, rfl⟩ := Option.map_eq_some_iff.mp hstep
      exact .lane slot d hinside hlane
    · cases hstep
  | close slot g => exact .close slot g hstep
  | exit slot g => exact .exit slot g hstep
  | escapeSlotIdle slot =>
    simp only [CarrierRuntime.step] at hstep
    split at hstep
    · rename_i hidling
      cases hstep
      exact .escapeSlotIdle slot hidling
    · cases hstep

/-- A lane moves by a step of its own; only `exit` takes it out of a loop by an exception. -/
def LaneMoves (s : CarrierRuntime) (e : RuntimeEvent) (s' : CarrierRuntime) : Prop :=
  s'.lanes = s.lanes ∨ ∃ slot d lane, (s.lanes slot).step d = some lane ∧
    s'.lanes = Function.update s.lanes slot lane ∧ ∀ g, d = .exit g → e = .exit slot g

/-- A step moves one lane, or none. -/
theorem laneMoves {e : RuntimeEvent} (hstep : s.step e = some s') : s.LaneMoves e s' := by
  cases stepped hstep with
  | setCarrierLoopCount count hcount hok =>
    refine Or.inl ?_
    unfold CarrierRuntime.setCarrierLoopCount at hok
    split at hok
    · split at hok
      · cases hok
        rfl
      · cases hok
    · cases hok
      rw [growSlots_eq]
  | shutdownSlot slot hretired hlane =>
    exact Or.inr ⟨slot, _, _, hlane, rfl, fun g h => by cases h⟩
  | takeLane i index htake =>
    unfold CarrierRuntime.takeLane at htake
    split at htake
    · obtain ⟨slot, -, rfl⟩ := Option.map_eq_some_iff.mp htake
      refine Or.inl ?_
      split <;> rfl
    · cases htake
  | openEscape i hopen =>
    unfold CarrierRuntime.openEscape at hopen
    split at hopen
    · cases hopen
      exact Or.inl rfl
    · cases hopen
  | reserve i slot request hcall hlane =>
    exact Or.inr ⟨slot, _, _, hlane, rfl, fun g h => by cases request <;> cases h⟩
  | reservePinned i slot g request hcall hlane =>
    exact Or.inr ⟨slot, _, _, hlane, rfl, fun g h => by cases request <;> cases h⟩
  | releaseLease slot g found hlane =>
    exact Or.inr ⟨found, _, _, hlane, rfl, fun g h => by cases h⟩
  | lane slot d hinside hlane =>
    refine Or.inr ⟨slot, _, _, hlane, rfl, fun g h => ?_⟩
    rw [h] at hinside
    cases hinside
  | close slot g hclose =>
    unfold CarrierRuntime.leave at hclose
    obtain ⟨lane, hlane, rfl⟩ := Option.map_eq_some_iff.mp hclose
    exact Or.inr ⟨slot, _, _, hlane, rfl, fun g h => by cases h⟩
  | exit slot g hexit =>
    unfold CarrierRuntime.leave at hexit
    obtain ⟨lane, hlane, rfl⟩ := Option.map_eq_some_iff.mp hexit
    exact Or.inr ⟨slot, _, _, hlane, rfl, fun k h => by cases h; rfl⟩
  | countRefused | select | readSlots | pin | pinRefused | releaseRefused | escapeSlotIdle =>
    exact Or.inl rfl

/-- **The runtime simulates each of its lanes.** -/
theorem simulates_lane (slot : Nat) :
    System.Simulation runtimeSystem slotSystem fun s => s.lanes slot where
  init s hs := by
    rw [show s = {} from hs]
    rfl
  step s e s' _ hstep := by
    rcases laneMoves hstep with hsame | ⟨k, d, lane, hlane, hupdate, -⟩
    · exact ⟨[], by rw [hsame]; rfl⟩
    · rw [hupdate]
      by_cases heq : slot = k
      · subst heq
        rw [Function.update_self]
        exact ⟨[d], System.run_cons_of_step hlane []⟩
      · rw [Function.update_of_ne heq]
        exact ⟨[], rfl⟩

/-- **Step lemma of the runtime.** -/
theorem RuntimeInv.step {e : RuntimeEvent} (hi : s.RuntimeInv)
    (hlanes : ∀ slot, slotSystem.Reachable (s.lanes slot)) (hstep : s.step e = some s') :
    s'.RuntimeInv := by
  have hslots : ∀ slot, SlotState.SlotInv (s.lanes slot) :=
    fun slot => SlotState.reachable_slotInv (hlanes slot)
  cases stepped hstep with
  | setCarrierLoopCount count hcount hok => exact hi.setCarrierLoopCount hcount hok
  | countRefused count => exact hi
  | shutdownSlot slot hretired hlane => exact hi.shutdown hretired hlane
  | select request => exact hi.begin nofun nofun
  | readSlots i request hcall =>
    refine hi.enter hcall hi.shape.cursor nofun ?_ nofun
    rintro slots ⟨⟩
    rfl
  | takeLane i index htake => exact hi.takeLane htake
  | openEscape i hopen => exact hi.openEscape hopen
  | pin request slot g found hg =>
    have hinv := @RuntimeInv.begin s ⟨request, .pinned found g⟩ hi nofun nofun
    rwa [← hi.frozen_of_generation hg] at hinv
  | pinRefused request slot g => exact hi
  | reserve i slot request hcall hlane => exact hi.reserveSelected (hslots slot) hcall hlane
  | reservePinned i slot g request hcall hlane => exact hi.reservePinned hcall hlane
  | releaseLease slot g found hlane =>
    obtain ⟨-, rfl⟩ := SlotState.when_eq_some hlane
    exact hi.same rfl
  | releaseRefused slot g => exact hi
  | lane slot d hinside hlane => exact hi.same (SlotState.view_inside hinside hlane)
  | close slot g hclose =>
    exact hi.leave (SlotState.reachable_lifecycle (hlanes slot)).1 (hslots slot) (Or.inl rfl) hclose
  | exit slot g hexit =>
    exact hi.leave (SlotState.reachable_lifecycle (hlanes slot)).1 (hslots slot) (Or.inr rfl) hexit
  | escapeSlotIdle slot hidling => exact hi.escapeSlotIdle hidling

theorem reachable_lane (h : runtimeSystem.Reachable s) (slot : Nat) :
    slotSystem.Reachable (s.lanes slot) := (simulates_lane slot).reachable h

/-- The worker of a lane leaves a loop by an exception while something is reserved on it. -/
def leavesReserved (s : CarrierRuntime) : RuntimeEvent → Bool
  | .exit slot g => (s.lanes slot).leavesReserved (.exit g)
  | _ => false

theorem reachUnder_lane
    (h : runtimeSystem.ReachUnder (fun s e => s.leavesReserved e = false) s) (slot : Nat) :
    slotSystem.ReachUnder (fun s e => s.leavesReserved e = false) (s.lanes slot) := by
  induction h with
  | init hs =>
    cases hs
    exact .init rfl
  | @step s s' e _ hok hstep ih =>
    rcases laneMoves hstep with hsame | ⟨k, d, lane, hlane, hupdate, hexit⟩
    · rwa [hsame]
    · rw [hupdate]
      by_cases heq : slot = k
      · subst heq
        rw [Function.update_self]
        refine .step ih ?_ hlane
        cases d with
        | exit g =>
          rw [hexit g rfl] at hok
          exact hok
        | _ => rfl
      · rwa [Function.update_of_ne heq]

theorem reachable_runtimeInv (h : runtimeSystem.Reachable s) : s.RuntimeInv := by
  apply h.invariant_of (J := fun t => ∀ slot, slotSystem.Reachable (t.lanes slot))
    (I := RuntimeInv)
  · exact fun t ht => reachable_lane ht
  · rintro _ rfl
    exact runtimeInv_initial
  · exact fun t e t' hlanes hi _ hstep => hi.step hlanes hstep

end CarrierRuntime

end AgentlyStage
