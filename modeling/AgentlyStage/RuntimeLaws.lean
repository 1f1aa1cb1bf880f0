import AgentlyStage.LaneOwnership

/-!
# The laws of the carrier runtime

What the callers of the runtime rely on: the lane of a generation that is in use is found
again, a lane that has been selected grants its reservation, generations are numbered once and
in order, and the configured pool is fixed from the first selection on.  An escape lane carries
one generation and leaves the pool for good after it, so that the running loops are bounded by
the lanes a snapshot shows.
-/

namespace AgentlyStage

open Transition

namespace CarrierRuntime

variable {s s' : CarrierRuntime} {slot g : Nat}

/-! ## 1. The laws of the runtime -/

theorem slotForGeneration_of_mem (h : slot ∈ s.slots ++ s.escapeSlots) :
    s.slotForGeneration slot = .ok slot := by
  unfold slotForGeneration
  cases hfind : (s.slots ++ s.escapeSlots).find? fun other => decide (other = slot) with
  | none => exact absurd (decide_eq_true rfl) (List.find?_eq_none.mp hfind slot h)
  | some found =>
    have hfound := List.find?_some hfind
    rw [of_decide_eq_true hfound]

/-- The lane of a generation that has not closed is in the pool. -/
theorem RuntimeInv.mem_of_open (hi : s.RuntimeInv) (hlife : SlotState.Lifecycle (s.lanes slot))
    (hg : g < (s.lanes slot).generationCount)
    (hopen : ((s.lanes slot).generations g).state ≠ .closed) :
    slot ∈ s.slots ++ s.escapeSlots := by
  by_contra hout
  rw [List.mem_append, not_or] at hout
  by_cases hidle : slot ∈ s.onIdle
  · obtain ⟨-, hcurrent⟩ := (hi.lanes.left slot hidle).mp (Or.inr hout.2)
    rcases hlife.kept g hg with hsome | hsome | hclosed
    · rw [hcurrent] at hsome
      cases hsome
    · rw [hi.lanes.single slot hidle] at hsome
      cases hsome
    · exact hopen hclosed
  · rw [hi.lanes.unused slot hout.1 hidle] at hg
    exact absurd hg (Nat.not_lt_zero g)

/-- A list whose part for each key increases. -/
theorem pairwise_of_filter {ids : List (Nat × Nat)}
    (h : ∀ slot, ((ids.filter fun id => decide (id.1 = slot)).map Prod.snd).Pairwise (· < ·)) :
    ids.Pairwise fun a b => a.1 = b.1 → a.2 < b.2 := by
  induction ids with
  | nil => exact List.Pairwise.nil
  | cons a ids ih =>
    refine List.Pairwise.cons (fun b hb hab => ?_) (ih fun slot => ?_)
    · have ha := h a.1
      rw [List.filter_cons_of_pos (by simp), List.map_cons] at ha
      refine List.rel_of_pairwise_cons ha ?_
      exact List.mem_map.mpr ⟨b, List.mem_filter.mpr ⟨hb, decide_eq_true hab.symm⟩, rfl⟩
    · have hslot := h slot
      by_cases heq : a.1 = slot
      · rw [List.filter_cons_of_pos (by simpa using heq), List.map_cons] at hslot
        exact hslot.of_cons
      · rwa [List.filter_cons_of_neg (by simpa using heq)] at hslot

/-- What the callers of the runtime rely on. -/
structure RuntimeLaws (s : CarrierRuntime) : Prop where
  sized : s.slots.length = s.carrierLoopCount ∧ s.selectionCursor < s.slots.length
  frozen : ∀ slot g, g < (s.lanes slot).generationCount → s.settingsFrozen = true
  /-- A generation that has not closed is found by `_slot_for_generation`. -/
  found : ∀ slot g, g < (s.lanes slot).generationCount →
    ((s.lanes slot).generations g).state ≠ .closed → s.slotForGeneration slot = .ok slot
  /-- A lane that `_select_slot` has read or returned can still be used. -/
  indexed : ∀ call ∈ s.calls, ∀ slots, call.phase = .choosing slots →
    ∀ slot ∈ slots, slot ∈ s.slots
  accepts : ∀ call ∈ s.calls, ∀ slot, call.phase = .selected slot →
    ∃ g lane, (s.lanes slot).reserveLocked none = .ok (g, lane)
  /-- Every generation has one number, and the numbers of a lane increase. -/
  identified : ∀ slot g, (slot, g) ∈ s.generationIds ↔ g < (s.lanes slot).generationCount
  increasing : s.generationIds.Pairwise fun a b => a.1 = b.1 → a.2 < b.2

/-- What stays in the pool, and what has left it. -/
structure Settles (s s' : CarrierRuntime) : Prop where
  frozen : s.settingsFrozen = true → s'.settingsFrozen = true ∧ s'.slots = s.slots ∧
    s'.carrierLoopCount = s.carrierLoopCount
  onIdle : ∀ slot ∈ s.onIdle, slot ∈ s'.onIdle
  left : ∀ slot ∈ s.onIdle, slot ∉ s.escapeSlots → slot ∉ s'.escapeSlots

/-- A step that changes neither the configured pool nor the escape lanes. -/
theorem settles_of_eq (hfrozen : s.settingsFrozen = true → s'.settingsFrozen = true)
    (hslots : s'.slots = s.slots ∧ s'.carrierLoopCount = s.carrierLoopCount)
    (hescape : s'.onIdle = s.onIdle ∧ s'.escapeSlots = s.escapeSlots) : s.Settles s' where
  frozen h := ⟨hfrozen h, hslots⟩
  onIdle slot h := by rwa [hescape.1]
  left slot _ h := by rwa [hescape.2]

theorem RuntimeInv.settles {e : RuntimeEvent} (hi : s.RuntimeInv) (hstep : s.step e = some s') :
    s.Settles s' := by
  cases stepped hstep with
  | setCarrierLoopCount count hcount hok =>
    unfold CarrierRuntime.setCarrierLoopCount at hok
    split at hok
    · split at hok
      · cases hok
        exact settles_of_eq id ⟨rfl, rfl⟩ ⟨rfl, rfl⟩
      · cases hok
    · rename_i hunfrozen
      cases hok
      rw [growSlots_eq]
      exact ⟨fun h => absurd h hunfrozen, fun _ h => h, fun _ _ h => h⟩
  | takeLane i index htake =>
    unfold CarrierRuntime.takeLane at htake
    split at htake
    · obtain ⟨slot, -, rfl⟩ := Option.map_eq_some_iff.mp htake
      split <;> exact settles_of_eq id ⟨rfl, rfl⟩ ⟨rfl, rfl⟩
    · cases htake
  | openEscape i hopen =>
    unfold CarrierRuntime.openEscape at hopen
    split at hopen
    · cases hopen
      refine ⟨fun h => ⟨h, rfl, rfl⟩, fun k hk => List.mem_append_left _ hk, fun k hk hout => ?_⟩
      -- the new lane has a new number
      intro hmem
      rcases List.mem_append.mp hmem with hold | hnew
      · exact hout hold
      · have := hi.shape.known k hk
        rw [List.mem_singleton.mp hnew] at this
        omega
    · cases hopen
  | close slot g hleave | exit slot g hleave =>
    unfold CarrierRuntime.leave at hleave
    obtain ⟨lane, -, rfl⟩ := Option.map_eq_some_iff.mp hleave
    exact settles_of_eq id ⟨rfl, rfl⟩ ⟨rfl, rfl⟩
  | escapeSlotIdle slot hidling =>
    exact ⟨fun h => ⟨h, rfl, rfl⟩, fun _ h => h,
      fun k _ hout hmem => hout (List.mem_of_mem_erase hmem)⟩
  | select => exact settles_of_eq (fun _ => rfl) ⟨rfl, rfl⟩ ⟨rfl, rfl⟩
  | countRefused | shutdownSlot | readSlots | pin | pinRefused | reserve | reservePinned
    | releaseLease | releaseRefused | lane => exact settles_of_eq id ⟨rfl, rfl⟩ ⟨rfl, rfl⟩

theorem run_settles {es : List RuntimeEvent} (h : runtimeSystem.Reachable s)
    (hrun : runtimeSystem.run s es = some s') : s.Settles s' := by
  induction es generalizing s with
  | nil =>
    cases hrun
    exact settles_of_eq id ⟨rfl, rfl⟩ ⟨rfl, rfl⟩
  | cons e es ih =>
    rw [System.run_cons] at hrun
    obtain ⟨t, ht, hrest⟩ := Option.bind_eq_some_iff.mp hrun
    have hfirst := (reachable_runtimeInv h).settles ht
    have hlast := ih (.step h trivial ht) hrest
    refine ⟨fun hfrozen => ?_, fun k hk => hlast.onIdle k (hfirst.onIdle k hk),
      fun k hk hout => hlast.left k (hfirst.onIdle k hk) (hfirst.left k hk hout)⟩
    obtain ⟨hfrozen', hslots, hcount⟩ := hfirst.frozen hfrozen
    obtain ⟨hfrozen'', hslots', hcount'⟩ := hlast.frozen hfrozen'
    exact ⟨hfrozen'', hslots'.trans hslots, hcount'.trans hcount⟩

theorem RuntimeInv.mem_generationIds (hi : s.RuntimeInv) :
    (slot, g) ∈ s.generationIds ↔ g < (s.lanes slot).generationCount := by
  rw [← List.mem_range, ← hi.lanes.identified slot, List.mem_map]
  constructor
  · intro hmem
    exact ⟨(slot, g), List.mem_filter.mpr ⟨hmem, decide_eq_true rfl⟩, rfl⟩
  · rintro ⟨⟨slot', g'⟩, hmem, rfl⟩
    obtain ⟨hmem, heq⟩ := List.mem_filter.mp hmem
    rwa [← of_decide_eq_true heq]

theorem RuntimeInv.pairwise_generationIds (hi : s.RuntimeInv) :
    s.generationIds.Pairwise fun a b => a.1 = b.1 → a.2 < b.2 := by
  refine pairwise_of_filter fun slot => ?_
  rw [hi.lanes.identified slot]
  exact List.pairwise_lt_range

/-- **The laws of the carrier runtime**, in every state of every interleaving; from the first
    selection on the configured pool stays as it is; and as long as no worker leaves a loop by
    an exception with something reserved on it, every generation with a lease, a submission or a
    retained task is found by `_slot_for_generation`. -/
theorem runtime_laws (h : runtimeSystem.Reachable s) :
    s.RuntimeLaws ∧
    (∀ es s', runtimeSystem.run s es = some s' → s.settingsFrozen = true →
      s'.slots = s.slots ∧ s'.carrierLoopCount = s.carrierLoopCount) ∧
    (runtimeSystem.ReachUnder (fun s e => s.leavesReserved e = false) s →
      ∀ slot g, 0 < (s.lanes slot).reservations g → s.slotForGeneration slot = .ok slot) := by
  have hi := reachable_runtimeInv h
  have hfound : ∀ slot g, g < (s.lanes slot).generationCount →
      ((s.lanes slot).generations g).state ≠ .closed → s.slotForGeneration slot = .ok slot :=
    fun slot g hg hopen => slotForGeneration_of_mem
      (hi.mem_of_open (SlotState.reachable_lifecycle (reachable_lane h slot)).1 hg hopen)
  refine ⟨⟨?_, fun slot g hg => hi.frozen_of_generation hg, hfound,
    fun call hcall slots hslots slot hslot => ?_, fun call hcall slot hslot => ?_,
    fun slot g => hi.mem_generationIds, ?_⟩, fun es s' hrun hfrozen => ?_,
    fun hunder slot g hres => ?_⟩
  · rw [hi.shape.length]
    exact ⟨rfl, hi.shape.cursor⟩
  · rw [← hi.calls.choosing call hcall slots hslots]
    exact hslot
  · obtain ⟨i, hi'⟩ := List.mem_iff_getElem?.mp hcall
    obtain ⟨request, phase⟩ := call
    obtain rfl : phase = .selected slot := hslot
    exact SlotState.reserveLocked_of_open (hi.lanes.opened slot (hi.mem_of_selected hi'))
  · exact hi.pairwise_generationIds
  · exact ((run_settles h hrun).frozen hfrozen).2
  · have hslot := SlotState.reachable_slotInv (reachable_lane h slot)
    refine hfound slot g (hslot.lt_of_reservations hres) fun hclosed => ?_
    rw [SlotState.reachUnder_unreserved (reachUnder_lane hunder slot) g hclosed] at hres
    exact absurd hres (Nat.lt_irrefl 0)

/-- Two configured lanes, a lease on the second one, and an escape lane with its lease. -/
def escapeRun : List RuntimeEvent :=
  [.setCarrierLoopCount 2, .select .lease, .readSlots 0, .takeLane 0 1, .reserve 0,
    .select .lease, .readSlots 0, .openEscape 0, .reserve 0, .lane 3 (.runGeneration 0)]

theorem runtime_laws_escapeRun : ∃ s, runtimeSystem.run {} escapeRun = some s ∧
    s.generationIds = [(2, 0), (3, 0)] ∧ s.RuntimeLaws := by
  have hend : (runtimeSystem.run {} escapeRun).any
      (fun s => decide (s.generationIds = [(2, 0), (3, 0)])) = true := by decide
  obtain ⟨s, hrun, hs⟩ := (Option.any_eq_true _ _).mp hend
  exact ⟨s, hrun, of_decide_eq_true hs,
    (runtime_laws (System.reachable_of_run escapeRun rfl hrun)).1⟩

/-! ## 2. Escape lanes and snapshots -/

/-- The life of an escape lane. -/
structure EscapeLife (s : CarrierRuntime) (slot : Nat) : Prop where
  one_generation : (s.lanes slot).generationCount ≤ 1
  /-- Before its generation it is in the pool, and held by the one call that opened it. -/
  opened : (s.lanes slot).generationCount = 0 → slot ∈ s.escapeSlots ∧
    s.calls.countP (selects slot) = 1
  /-- It stays in the pool until the generation has closed, and is then reported, once. -/
  stays : ((s.lanes slot).generations 0).state ≠ .closed → slot ∈ s.escapeSlots ∧ slot ∉ s.idling
  reported : ((s.lanes slot).generations 0).state = .closed → slot ∈ s.escapeSlots →
    s.idling.count slot = 1

/-- **The life of the escape lanes**, in every interleaving: such a lane carries one
    generation, leaves the pool after it has closed, and never comes back or runs again. -/
theorem escape_life (h : runtimeSystem.Reachable s) :
    (∀ slot ∈ s.onIdle, s.EscapeLife slot) ∧
    ∀ es s' slot, runtimeSystem.run s es = some s' → slot ∈ s.onIdle → slot ∉ s.escapeSlots →
      slot ∉ s'.escapeSlots ∧ (s'.lanes slot).generationCount = 1 ∧
        ∀ g, ((s'.lanes slot).generations g).running = false := by
  have hi := reachable_runtimeInv h
  refine ⟨fun slot hidle => ?_, fun es s' slot hrun hidle hout => ?_⟩
  · obtain ⟨hlife, -, hslot, -⟩ := SlotState.reachable_lifecycle (reachable_lane h slot)
    have hle := hi.count_le hidle
    have hnext := hi.lanes.single slot hidle
    -- the generation has closed exactly when the lane is reported or has left
    have hclosed : ((s.lanes slot).generations 0).state = .closed ↔
        (slot ∈ s.idling ∨ slot ∉ s.escapeSlots) := by
      rw [hi.lanes.left slot hidle]
      constructor
      · intro hclosed
        have hpos : 0 < (s.lanes slot).generationCount := by
          by_contra hzero
          rw [hslot.fresh 0 (Nat.le_of_not_lt hzero)] at hclosed
          cases hclosed
        refine ⟨by omega, ?_⟩
        cases hcurrent : (s.lanes slot).current with
        | none => rfl
        | some c =>
          have hc := hslot.slots c (Or.inl hcurrent)
          obtain rfl : c = 0 := by omega
          exact absurd hcurrent (hlife.closed 0 hclosed).1
      · rintro ⟨hone, hcurrent⟩
        rcases hlife.kept 0 (by omega) with hsome | hsome | hclosed
        · rw [hcurrent] at hsome
          cases hsome
        · rw [hnext] at hsome
          cases hsome
        · exact hclosed
    refine ⟨hle, fun hzero => ?_, fun hopen => ?_, fun hdone hescape => ?_⟩
    · have honce := hi.calls.once slot hidle
      refine ⟨?_, by omega⟩
      by_contra hgone
      have hone := ((hi.lanes.left slot hidle).mp (Or.inr hgone)).1
      omega
    · rw [Ne, hclosed, not_or, not_not] at hopen
      exact ⟨hopen.2, hopen.1⟩
    · rcases hclosed.mp hdone with hmem | hgone
      · exact List.count_eq_one_of_mem hi.lanes.idling_once hmem
      · exact absurd hescape hgone
  · have hsettles := run_settles h hrun
    have hreach' := h.run hrun
    have hout' := hsettles.left slot hidle hout
    obtain ⟨hone, hcurrent⟩ := ((reachable_runtimeInv hreach').lanes.left slot
      (hsettles.onIdle slot hidle)).mp (Or.inr hout')
    refine ⟨hout', hone, fun g => ?_⟩
    obtain ⟨hlife, -⟩ := SlotState.reachable_lifecycle (reachable_lane hreach' slot)
    by_contra hrunning
    have hsome := (hlife.running g (by simpa using hrunning)).1
    rw [hcurrent] at hsome
    cases hsome

theorem escape_life_escapeRun : ∃ s, runtimeSystem.run {} escapeRun = some s ∧
    s.onIdle = [3] ∧ s.EscapeLife 3 := by
  have hend : (runtimeSystem.run {} escapeRun).any
      (fun s => decide (s.onIdle = [3])) = true := by decide
  obtain ⟨s, hrun, hs⟩ := (Option.any_eq_true _ _).mp hend
  have hidle := of_decide_eq_true hs
  exact ⟨s, hrun, hidle, (escape_life (System.reachable_of_run escapeRun rfl hrun)).1 3
    (by rw [hidle]; exact List.mem_cons_self)⟩

/-- What a snapshot shows. -/
structure SnapshotLaws (s : CarrierRuntime) : Prop where
  /-- One loop for each lane at most. -/
  bounded : s.snapshot.activeLoopCount ≤
    s.snapshot.carrierLoopCount + s.snapshot.escapeLoopCount
  /-- Every running loop is shown. -/
  shows : ∀ slot g, ((s.lanes slot).generations g).running = true →
    s.generationId slot g ∈ s.snapshot.activeGenerationIds
  distinct : s.snapshot.activeGenerationIds.Nodup
  queued_later : ∀ slot c n, (s.lanes slot).current = some c → (s.lanes slot).next = some n →
    s.generationId slot c < s.generationId slot n

theorem loopCount_le (hlife : SlotState.Lifecycle (s.lanes slot)) : s.loopCount slot ≤ 1 := by
  unfold loopCount
  rw [List.countP_append]
  have hcurrent : (s.lanes slot).current.toList.countP (fun g =>
      ((s.lanes slot).generations g).running) ≤ 1 := by
    refine Nat.le_trans List.countP_le_length ?_
    cases (s.lanes slot).current <;> simp
  have hnext : (s.lanes slot).next.toList.countP (fun g =>
      ((s.lanes slot).generations g).running) = 0 := by
    rw [List.countP_eq_zero]
    intro n hn hrunning
    have hsome := (hlife.running n hrunning).1
    have hlt := hlife.ordered n n hsome (Option.mem_toList.mp hn)
    exact absurd hlt (Nat.lt_irrefl n)
  omega

theorem foldl_add_le {α : Type} {f : α → Nat} (l : List α) (n : Nat) (hf : ∀ x ∈ l, f x ≤ 1) :
    l.foldl (fun count x => count + f x) n ≤ n + l.length := by
  induction l generalizing n with
  | nil => exact Nat.le_refl n
  | cons x l ih =>
    have hx := hf x List.mem_cons_self
    have htail := ih (n + f x) fun y hy => hf y (List.mem_cons_of_mem _ hy)
    rw [List.foldl_cons, List.length_cons]
    omega

/-- **The snapshots of the runtime**, in every reachable state. -/
theorem snapshot_laws (h : runtimeSystem.Reachable s) : s.SnapshotLaws := by
  have hi := reachable_runtimeInv h
  have hlife : ∀ slot, SlotState.Lifecycle (s.lanes slot) :=
    fun slot => (SlotState.reachable_lifecycle (reachable_lane h slot)).1
  have hlt : ∀ slot g, (s.lanes slot).current = some g ∨ (s.lanes slot).next = some g →
      (slot, g) ∈ s.generationIds := fun slot g hg =>
    hi.mem_generationIds.mpr ((SlotState.reachable_slotInv (reachable_lane h slot)).slots g hg)
  constructor
  · have hle := foldl_add_le (s.slots ++ s.escapeSlots) 0 fun slot _ => loopCount_le (hlife slot)
    rw [List.length_append, hi.shape.length, Nat.zero_add] at hle
    exact hle
  · intro slot g hrunning
    obtain ⟨hcurrent, hopen, -⟩ := (hlife slot).running g hrunning
    have hmem := hi.mem_of_open (hlife slot)
      ((SlotState.reachable_slotInv (reachable_lane h slot)).lt_of_running hrunning) hopen
    refine List.mem_filterMap.mpr ⟨slot, hmem, ?_⟩
    rw [shownId, hcurrent, Option.filter_some, if_pos (decide_eq_true hopen)]
    rfl
  · refine List.Nodup.filterMap ?_ (List.nodup_append.mp hi.shape.distinct).1
    intro slot slot' id hid hid'
    obtain ⟨g, hg, rfl⟩ := Option.map_eq_some_iff.mp hid
    obtain ⟨g', hg', heq⟩ := Option.map_eq_some_iff.mp hid'
    have hcurrent := (Option.filter_eq_some_iff.mp hg).1
    have hcurrent' := (Option.filter_eq_some_iff.mp hg').1
    have hpair := (List.idxOf_inj (hlt slot' g' (Or.inl hcurrent'))).mp (Nat.succ.inj heq)
    exact (congrArg Prod.fst hpair).symm
  · intro slot c n hc hn
    have hcmem := hlt slot c (Or.inl hc)
    have hnmem := hlt slot n (Or.inr hn)
    have hcn := (hlife slot).ordered c n hc hn
    by_contra hle
    have hidx : s.generationIds.idxOf (slot, n) ≤ s.generationIds.idxOf (slot, c) := by
      unfold generationId at hle
      omega
    rcases Nat.eq_or_lt_of_le hidx with heq | hless
    · have hpair := (List.idxOf_inj hnmem).mp heq
      have := congrArg Prod.snd hpair
      omega
    · have hpairs := List.pairwise_iff_getElem.mp hi.pairwise_generationIds _ _
        (List.idxOf_lt_length_of_mem hnmem) (List.idxOf_lt_length_of_mem hcmem) hless
      rw [List.getElem_idxOf, List.getElem_idxOf] at hpairs
      have := hpairs rfl
      omega

theorem snapshot_laws_escapeRun : ∃ s, runtimeSystem.run {} escapeRun = some s ∧
    s.snapshot = ⟨some 1, none, 1, 2, 1, [1, 2]⟩ ∧ s.SnapshotLaws := by
  have hend : (runtimeSystem.run {} escapeRun).any
      (fun s => decide (s.snapshot = ⟨some 1, none, 1, 2, 1, [1, 2]⟩)) = true := by decide
  obtain ⟨s, hrun, hs⟩ := (Option.any_eq_true _ _).mp hend
  exact ⟨s, hrun, of_decide_eq_true hs,
    snapshot_laws (System.reachable_of_run escapeRun rfl hrun)⟩

end CarrierRuntime

end AgentlyStage
