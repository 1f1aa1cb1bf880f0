import Mathlib.Data.List.MinMax
import Mathlib.Data.Prod.Lex
import AgentlyStage.CarrierSlot
import AgentlyStage.CarrierPool
import AgentlyStage.Lib.Cyclic

/-!
# The selection of a lane

`_RuntimeCarrier._select_slot`: the eligible lane of least pressure, ties broken from a
cursor that moves just past each selection.  `_CarrierSlot` is modelled by what a selection
reads of it.  A call is one step here: the claims are about sequential calls, between which
everything but the pool of lanes and the cursor may change.
-/

namespace AgentlyStage

open Cyclic

/-! ## 1. Lanes and their snapshots -/

/-- `_Generation` as a selection reads it; event loops are numbered. -/
structure LaneGeneration where
  generationId : Nat
  state : GenerationState := .queued
  reservations : Nat := 0
  loop : Option Nat := none
deriving DecidableEq, Repr

/-- `_CarrierSlot`. -/
structure LaneSlot where
  slotId : Nat
  current : Option LaneGeneration := none
  next : Option LaneGeneration := none
deriving DecidableEq, Repr

/-- What `_select_slot` is given, with the running loop of its caller. -/
structure SelectCall where
  avoidCurrentLoop : Bool := false
  blockedGenerationIds : List Nat := []
  runningLoop : Option Nat := none
deriving DecidableEq, Repr

/-- `generation.state is not CLOSED`. -/
def LaneGeneration.notClosed (generation : LaneGeneration) : Bool :=
  decide (generation.state ≠ .closed)

namespace LaneSlot

/-- `_CarrierSlot(slot_id)`. -/
def ofId (slotId : Nat) : LaneSlot := { slotId }

variable (slot : LaneSlot)

/-- The generations among `_current` and `_next`. -/
def generations : List LaneGeneration := slot.current.toList ++ slot.next.toList

/-- The identifier that a snapshot shows. -/
def shownId (generation : Option LaneGeneration) : Option Nat :=
  (generation.filter LaneGeneration.notClosed).map LaneGeneration.generationId

/-- `_CarrierSlot.snapshot`: current and queued generation, active loops, reservations. -/
def snapshot : Option Nat × Option Nat × Nat × Nat :=
  (shownId slot.current, shownId slot.next,
    slot.generations.countP fun generation => generation.loop.isSome,
    ((slot.generations.filter LaneGeneration.notClosed).map LaneGeneration.reservations).sum)

def pressure : Nat := slot.snapshot.2.2.2

/-- `owns_loop`. -/
def ownsLoop (loop : Nat) : Bool :=
  slot.generations.any fun generation => decide (generation.loop = some loop)

/-- `owns_any_generation_id`. -/
def ownsAnyGenerationId (generationIds : List Nat) : Bool :=
  if generationIds = [] then false
  else slot.generations.any fun generation =>
    generation.notClosed && decide (generation.generationId ∈ generationIds)

/-- The lane is not excluded. -/
def eligible (call : SelectCall) : Bool :=
  !slot.ownsAnyGenerationId call.blockedGenerationIds &&
    !(call.avoidCurrentLoop && call.runningLoop.any slot.ownsLoop)

end LaneSlot

/-! ## 2. The carrier -/

/-- `_RuntimeCarrier`: the lanes are objects of their own, numbered by the counter. -/
structure RuntimeCarrier where
  slots : List LaneSlot
  escapeSlots : List LaneSlot := []
  slotCounter : Nat
  selectionCursor : Nat := 0
  settingsFrozen : Bool := false
  distinct : ((slots ++ escapeSlots).map LaneSlot.slotId).Nodup
  numbered : ∀ slot ∈ slots ++ escapeSlots, slot.slotId ≤ slotCounter

namespace RuntimeCarrier

variable (carrier : RuntimeCarrier) (call : SelectCall)

/-- `_freeze_settings`. -/
def freezeSettings : RuntimeCarrier := { carrier with settingsFrozen := true }

theorem numbered_append_fresh {slots : List LaneSlot} {counter : Nat}
    (hdistinct : (slots.map LaneSlot.slotId).Nodup)
    (hnumbered : ∀ slot ∈ slots, slot.slotId ≤ counter) :
    ((slots ++ [LaneSlot.ofId (counter + 1)]).map LaneSlot.slotId).Nodup ∧
      ∀ slot ∈ slots ++ [LaneSlot.ofId (counter + 1)], slot.slotId ≤ counter + 1 := by
  constructor
  · rw [List.map_append, List.nodup_append]
    refine ⟨hdistinct, List.nodup_singleton _, fun i hi j hj => ?_⟩
    obtain ⟨slot, hslot, rfl⟩ := List.mem_map.mp hi
    have hle := hnumbered slot hslot
    simp only [LaneSlot.ofId, List.map_cons, List.map_nil, List.mem_singleton] at hj
    omega
  · intro slot hslot
    rcases List.mem_append.mp hslot with h | h
    · exact Nat.le_succ_of_le (hnumbered slot h)
    · rw [List.mem_singleton.mp h, LaneSlot.ofId]

/-- `_new_slot_locked(escape=True)`: the new lane and the carrier with it. -/
def newEscapeSlotLocked : LaneSlot × RuntimeCarrier :=
  (.ofId (carrier.slotCounter + 1),
    { carrier with
      slotCounter := carrier.slotCounter + 1
      escapeSlots := carrier.escapeSlots ++ [.ofId (carrier.slotCounter + 1)]
      distinct := by
        rw [← List.append_assoc]
        exact (numbered_append_fresh carrier.distinct carrier.numbered).1
      numbered := by
        rw [← List.append_assoc]
        exact (numbered_append_fresh carrier.distinct carrier.numbered).2 })

/-- `self._slots.index(slot)`; the lanes are compared as objects. -/
def indexOf (slot : LaneSlot) : Nat :=
  carrier.slots.findIdx fun other => decide (other.slotId = slot.slotId)

/-- The candidates of `_select_slot`: pressure, distance from the cursor, lane. -/
def candidates : List (Nat × Nat × LaneSlot) :=
  carrier.slots.zipIdx.filterMap fun (slot, index) =>
    if slot.ownsAnyGenerationId call.blockedGenerationIds then none
    else if call.avoidCurrentLoop && call.runningLoop.any slot.ownsLoop then none
    else some (slot.pressure, distance carrier.slots.length carrier.selectionCursor index, slot)

/-- `_select_slot`. -/
def selectSlot : LaneSlot × RuntimeCarrier :=
  let carrier := carrier.freezeSettings
  match (carrier.candidates call).argmin fun item => toLex (item.1, item.2.1) with
  | none => carrier.newEscapeSlotLocked
  | some (_, _, selected) =>
    (selected, { carrier with
      selectionCursor := (carrier.indexOf selected + 1) % carrier.slots.length })

/-! ## 3. One selection -/

/-- The lane at position `i` is eligible, and no eligible lane has less pressure. -/
def LeastPressure (i : Nat) : Prop :=
  ∃ slot, carrier.slots[i]? = some slot ∧ slot.eligible call = true ∧
    ∀ other ∈ carrier.slots, other.eligible call = true → slot.pressure ≤ other.pressure

/-- The carrier after the lane at position `i` has been selected. -/
def movePast (i : Nat) : RuntimeCarrier :=
  { carrier.freezeSettings with selectionCursor := (i + 1) % carrier.slots.length }

variable {carrier : RuntimeCarrier} {call : SelectCall} {slot : LaneSlot} {i : Nat}

theorem mem_candidates {item : Nat × Nat × LaneSlot} :
    item ∈ carrier.candidates call ↔ ∃ i, carrier.slots[i]? = some item.2.2 ∧
      item.2.2.eligible call = true ∧ item.1 = item.2.2.pressure ∧
      item.2.1 = distance carrier.slots.length carrier.selectionCursor i := by
  obtain ⟨pressure, away, slot⟩ := item
  unfold candidates
  rw [List.mem_filterMap]
  constructor
  · rintro ⟨⟨slot', i⟩, hmem, hsome⟩
    have hget := List.mk_mem_zipIdx_iff_getElem?.mp hmem
    dsimp only at hsome ⊢
    split at hsome
    · cases hsome
    · rename_i hblocked
      split at hsome
      · cases hsome
      · rename_i hrunning
        cases hsome
        exact ⟨i, hget, by simp [LaneSlot.eligible, hblocked, hrunning], rfl, rfl⟩
  · intro h
    dsimp only at h
    obtain ⟨i, hget, heligible, rfl, rfl⟩ := h
    refine ⟨(slot, i), List.mk_mem_zipIdx_iff_getElem?.mpr hget, ?_⟩
    simp only [LaneSlot.eligible, Bool.and_eq_true, Bool.not_eq_true'] at heligible
    simp [heligible.1, heligible.2]

/-- Every eligible lane is a candidate. -/
theorem candidate_of_eligible (hget : carrier.slots[i]? = some slot)
    (h : slot.eligible call = true) :
    (slot.pressure, distance carrier.slots.length carrier.selectionCursor i, slot) ∈
      carrier.candidates call :=
  mem_candidates.mpr ⟨i, hget, h, rfl, rfl⟩

theorem candidates_eq_nil :
    carrier.candidates call = [] ↔ ∀ slot ∈ carrier.slots, slot.eligible call = false := by
  constructor
  · intro h slot hslot
    obtain ⟨i, hget⟩ := List.mem_iff_getElem?.mp hslot
    by_contra heligible
    have hmem := candidate_of_eligible hget (Bool.eq_true_of_not_eq_false heligible)
    rw [h] at hmem
    cases hmem
  · intro h
    rw [List.eq_nil_iff_forall_not_mem]
    intro item hitem
    obtain ⟨i, hget, heligible, -, -⟩ := mem_candidates.mp hitem
    rw [h _ (List.mem_of_getElem? hget)] at heligible
    cases heligible

/-- A lane is found at its own position. -/
theorem indexOf_eq (hget : carrier.slots[i]? = some slot) : carrier.indexOf slot = i := by
  have hnodup : (carrier.slots.map LaneSlot.slotId).Nodup := by
    have h := carrier.distinct
    rw [List.map_append] at h
    exact h.of_append_left
  obtain ⟨hi, hslot⟩ := List.getElem?_eq_some_iff.mp hget
  unfold indexOf
  rw [List.findIdx_eq hi]
  refine ⟨by simp [hslot], fun j hj => ?_⟩
  have hne : carrier.slots[j].slotId ≠ carrier.slots[i].slotId := by
    intro h
    have hij : (carrier.slots.map LaneSlot.slotId)[j]? =
        (carrier.slots.map LaneSlot.slotId)[i]? := by
      rw [List.getElem?_map, List.getElem?_map, List.getElem?_eq_getElem hi,
        List.getElem?_eq_getElem (hj.trans hi)]
      exact congrArg some h
    have heq := (List.getElem?_inj (by rw [List.length_map]; omega) hnodup).mp hij
    omega
  rw [← hslot]
  simpa using hne

/-- A lane whose key is the least is the first one of least pressure from the cursor. -/
theorem isFirstFrom_of_least (hget : carrier.slots[i]? = some slot)
    (heligible : slot.eligible call = true)
    (hkey : ∀ j other, carrier.slots[j]? = some other → other.eligible call = true →
      slot.pressure < other.pressure ∨ slot.pressure = other.pressure ∧
        distance carrier.slots.length carrier.selectionCursor i ≤
          distance carrier.slots.length carrier.selectionCursor j) :
    IsFirstFrom carrier.slots.length carrier.selectionCursor (carrier.LeastPressure call) i := by
  have hmin : ∀ other ∈ carrier.slots, other.eligible call = true →
      slot.pressure ≤ other.pressure := by
    intro other hother hcall
    obtain ⟨j, hj⟩ := List.mem_iff_getElem?.mp hother
    rcases hkey j other hj hcall with h | ⟨h, -⟩
    · exact Nat.le_of_lt h
    · exact Nat.le_of_eq h
  refine isFirstFrom_of_nearest (List.getElem?_eq_some_iff.mp hget).1
    ⟨slot, hget, heligible, hmin⟩ ?_
  rintro j - ⟨other, hother, hcall, hleast⟩
  have hle := hleast slot (List.mem_of_getElem? hget) heligible
  rcases hkey j other hother hcall with h | ⟨-, h⟩
  · omega
  · exact h

/-- **One selection.**  The first lane of least pressure at or cyclically after the cursor;
    the cursor moves just past it. -/
theorem selectSlot_of_eligible (h : ∃ slot ∈ carrier.slots, slot.eligible call = true) :
    ∃ i slot, carrier.slots[i]? = some slot ∧
      IsFirstFrom carrier.slots.length carrier.selectionCursor (carrier.LeastPressure call) i ∧
      carrier.selectSlot call = (slot, carrier.movePast i) := by
  have hfrozen : carrier.freezeSettings.candidates call = carrier.candidates call := rfl
  unfold selectSlot
  cases hleast : (carrier.candidates call).argmin fun item => toLex (item.1, item.2.1) with
  | none =>
    obtain ⟨slot, hslot, heligible⟩ := h
    rw [List.argmin_eq_none, candidates_eq_nil] at hleast
    rw [hleast slot hslot] at heligible
    cases heligible
  | some item =>
    obtain ⟨pressure, away, slot⟩ := item
    obtain ⟨i, hget, heligible, hpressure, haway⟩ := mem_candidates.mp (List.argmin_mem hleast)
    dsimp only at hget heligible hpressure haway
    -- what the key of `min` says of every other eligible lane
    have hkey : ∀ j other, carrier.slots[j]? = some other → other.eligible call = true →
        slot.pressure < other.pressure ∨ slot.pressure = other.pressure ∧
          distance carrier.slots.length carrier.selectionCursor i ≤
            distance carrier.slots.length carrier.selectionCursor j := by
      intro j other hother hcall
      have hle := List.le_of_mem_argmin (candidate_of_eligible hother hcall) hleast
      rw [Prod.Lex.toLex_le_toLex, hpressure, haway] at hle
      exact hle
    refine ⟨i, slot, hget, isFirstFrom_of_least hget heligible hkey, ?_⟩
    have hindex : carrier.freezeSettings.indexOf slot = i := indexOf_eq hget
    simp only [hfrozen, hleast]
    rw [hindex]
    rfl

/-- Without an eligible lane an escape lane is made. -/
theorem selectSlot_of_none (h : ∀ slot ∈ carrier.slots, slot.eligible call = false) :
    carrier.selectSlot call = carrier.freezeSettings.newEscapeSlotLocked := by
  have hnil : carrier.freezeSettings.candidates call = [] := candidates_eq_nil.mpr h
  unfold selectSlot
  simp only [hnil, List.argmin_nil]

/-- The call makes an escape lane and returns it. -/
def CreatesEscape (carrier : RuntimeCarrier) (call : SelectCall) : Prop :=
  (carrier.selectSlot call).2.escapeSlots =
    carrier.escapeSlots ++ [(carrier.selectSlot call).1]

theorem createsEscape_iff :
    carrier.CreatesEscape call ↔ ∀ slot ∈ carrier.slots, slot.eligible call = false := by
  constructor
  · intro h slot hslot
    by_contra heligible
    obtain ⟨i, selected, -, -, hselect⟩ := selectSlot_of_eligible
      ⟨slot, hslot, Bool.eq_true_of_not_eq_false heligible⟩
    have hlength := congrArg List.length h
    rw [hselect, List.length_append] at hlength
    simp [movePast, freezeSettings] at hlength
  · intro h
    unfold CreatesEscape
    rw [selectSlot_of_none h]
    rfl

/-! ## 4. Consecutive selections -/

/-- From one selection to the next the lanes keep their places and the cursor stays; what
    the lanes hold and the escape lanes may change. -/
structure Undisturbed (carrier carrier' : RuntimeCarrier) : Prop where
  lanes : carrier'.slots.map LaneSlot.slotId = carrier.slots.map LaneSlot.slotId
  cursor : carrier'.selectionCursor = carrier.selectionCursor

/-- `y` is the next selection after `x`; each is a call with the carrier that it finds. -/
def Follows (x y : RuntimeCarrier × SelectCall) : Prop :=
  Undisturbed (x.1.selectSlot x.2).2 y.1

/-- The position of the lane that a call returns. -/
def selectedIndex (x : RuntimeCarrier × SelectCall) : Nat :=
  x.1.indexOf (x.1.selectSlot x.2).1

theorem selected_spec {x : RuntimeCarrier × SelectCall}
    (h : ∃ slot ∈ x.1.slots, slot.eligible x.2 = true) :
    IsFirstFrom x.1.slots.length x.1.selectionCursor (x.1.LeastPressure x.2) (selectedIndex x) ∧
      x.1.selectSlot x.2 = ((x.1.selectSlot x.2).1, x.1.movePast (selectedIndex x)) := by
  obtain ⟨i, slot, hget, hfirst, hselect⟩ := selectSlot_of_eligible h
  have hindex : selectedIndex x = i := by
    rw [selectedIndex, hselect]
    exact indexOf_eq hget
  rw [hindex]
  exact ⟨hfirst, by rw [hselect]⟩

/-- Consecutive selections with an eligible lane each serve the lanes from the cursor. -/
theorem serves_of_follows {x : RuntimeCarrier × SelectCall}
    {rest : List (RuntimeCarrier × SelectCall)} (hchain : (x :: rest).IsChain Follows)
    (heligible : ∀ y ∈ x :: rest, ∃ slot ∈ y.1.slots, slot.eligible y.2 = true) :
    Serves x.1.slots.length x.1.selectionCursor
      ((x :: rest).map fun y => (y.1.LeastPressure y.2, selectedIndex y)) := by
  induction rest generalizing x with
  | nil => exact ⟨(selected_spec (heligible x List.mem_cons_self)).1, trivial⟩
  | cons y rest ih =>
    obtain ⟨hfirst, hselect⟩ := selected_spec (heligible x List.mem_cons_self)
    obtain ⟨hfollows, hrest⟩ := List.isChain_cons_cons.mp hchain
    have hserves := ih hrest fun z hz => heligible z (List.mem_cons_of_mem _ hz)
    have hlength : y.1.slots.length = x.1.slots.length := by
      have h := congrArg List.length hfollows.lanes
      rw [hselect, List.length_map, List.length_map] at h
      exact h
    have hcursor : y.1.selectionCursor = (selectedIndex x + 1) % x.1.slots.length := by
      have h := hfollows.cursor
      rw [hselect] at h
      exact h
    rw [hlength, hcursor] at hserves
    exact ⟨hfirst, hserves⟩

theorem LeastPressure.lt (h : carrier.LeastPressure call i) : i < carrier.slots.length := by
  obtain ⟨slot, hget, -, -⟩ := h
  exact (List.getElem?_eq_some_iff.mp hget).1

theorem LeastPressure.eligible (h : carrier.LeastPressure call i) :
    ∃ slot ∈ carrier.slots, slot.eligible call = true := by
  obtain ⟨slot, hget, heligible, -⟩ := h
  exact ⟨slot, List.mem_of_getElem? hget, heligible⟩

/-- While the lanes of `S` stay eligible with the least pressure, any `|S|` consecutive
    selections return distinct lanes in cyclic order. -/
theorem selections_inCyclicOrder {x : RuntimeCarrier × SelectCall}
    {rest : List (RuntimeCarrier × SelectCall)} {S : Finset Nat}
    (hchain : (x :: rest).IsChain Follows) (hlength : (x :: rest).length = S.card)
    (hS : ∀ y ∈ x :: rest, ∀ i ∈ S, y.1.LeastPressure y.2 i) :
    InCyclicOrder x.1.slots.length x.1.selectionCursor ((x :: rest).map selectedIndex) := by
  obtain ⟨i, hi⟩ : S.Nonempty := by
    rw [← Finset.card_pos, ← hlength]
    exact Nat.succ_pos _
  have hserves := serves_of_follows hchain fun y hy => (hS y hy i hi).eligible
  have horder := hserves.inCyclicOrder (fun j hj => (hS x List.mem_cons_self j hj).lt)
    (fun choice hchoice j hj => by
      obtain ⟨y, hy, rfl⟩ := List.mem_map.mp hchoice
      exact hS y hy j hj)
    (by rw [List.length_map, hlength])
  rwa [List.map_map] at horder

/-- When these are all the lanes of least pressure, each of them is returned. -/
theorem selections_exhaust {selections : List (RuntimeCarrier × SelectCall)} {S : Finset Nat}
    (hnodup : (selections.map selectedIndex).Nodup) (hlength : selections.length = S.card)
    (hS : ∀ y ∈ selections, ∀ i, y.1.LeastPressure y.2 i ↔ i ∈ S) :
    (selections.map selectedIndex).toFinset = S := by
  refine Finset.eq_of_subset_of_card_le (fun i hi => ?_) ?_
  · obtain ⟨y, hy, rfl⟩ := List.mem_map.mp (List.mem_toFinset.mp hi)
    obtain ⟨j, hj⟩ : S.Nonempty := by
      rw [← Finset.card_pos, ← hlength]
      exact List.length_pos_of_mem hy
    obtain ⟨⟨hleast, -⟩, -⟩ := selected_spec ((hS y hy j).mpr hj).eligible
    exact (hS y hy _).mp hleast
  · rw [List.toFinset_card_of_nodup hnodup, List.length_map, hlength]

/-- **Lane selection.**  A call returns the first eligible lane of least pressure at or
    cyclically after the cursor and moves the cursor just past it; it makes an escape lane
    exactly when no lane is eligible.  `k` consecutive calls, while `k` lanes stay eligible
    with the least pressure, return `k` distinct lanes in cyclic order: these very lanes
    when there are no others of least pressure. -/
theorem selectSlot_round_robin :
    (∀ (carrier : RuntimeCarrier) (call : SelectCall),
      ((∃ slot ∈ carrier.slots, slot.eligible call = true) →
        ∃ i slot, carrier.slots[i]? = some slot ∧
          IsFirstFrom carrier.slots.length carrier.selectionCursor
            (carrier.LeastPressure call) i ∧
          carrier.selectSlot call = (slot, carrier.movePast i)) ∧
      (carrier.CreatesEscape call ↔ ∀ slot ∈ carrier.slots, slot.eligible call = false)) ∧
    ∀ (x : RuntimeCarrier × SelectCall) (rest : List (RuntimeCarrier × SelectCall))
      (S : Finset Nat), (x :: rest).IsChain Follows → (x :: rest).length = S.card →
      (∀ y ∈ x :: rest, ∀ i ∈ S, y.1.LeastPressure y.2 i) →
      ((x :: rest).map selectedIndex).Nodup ∧
        InCyclicOrder x.1.slots.length x.1.selectionCursor ((x :: rest).map selectedIndex) ∧
        ((∀ y ∈ x :: rest, ∀ i, y.1.LeastPressure y.2 i → i ∈ S) →
          ((x :: rest).map selectedIndex).toFinset = S) := by
  refine ⟨fun carrier call => ⟨selectSlot_of_eligible, createsEscape_iff⟩,
    fun x rest S hchain hlength hS => ?_⟩
  have horder := selections_inCyclicOrder hchain hlength hS
  refine ⟨horder.nodup, horder, fun honly => selections_exhaust horder.nodup hlength ?_⟩
  exact fun y hy i => ⟨honly y hy i, hS y hy i⟩

/-- Three lanes, the first of them with two reservations. -/
def threeLanes (cursor : Nat) : RuntimeCarrier where
  slots := [⟨1, some ⟨7, .opened, 2, some 0⟩, none⟩, .ofId 2, .ofId 3]
  slotCounter := 3
  selectionCursor := cursor
  distinct := by decide
  numbered := by decide

/-- Two selections from the last lane take the two idle lanes in turn. -/
theorem threeLanes_round_robin :
    [(threeLanes 2, ({} : SelectCall)), (threeLanes 0, {})].map selectedIndex = [2, 1] ∧
      InCyclicOrder 3 2 ([(threeLanes 2, ({} : SelectCall)), (threeLanes 0, {})].map
        selectedIndex) := by
  refine ⟨by decide, ?_⟩
  have hleast : ∀ cursor, ∀ i ∈ ({1, 2} : Finset Nat), (threeLanes cursor).LeastPressure {} i := by
    intro cursor i hi
    rcases Finset.mem_insert.mp hi with rfl | hi
    · exact ⟨.ofId 2, rfl, rfl, fun _ _ _ => Nat.zero_le _⟩
    · rw [Finset.mem_singleton.mp hi]
      exact ⟨.ofId 3, rfl, rfl, fun _ _ _ => Nat.zero_le _⟩
  refine (selectSlot_round_robin.2 (threeLanes 2, {}) [(threeLanes 0, {})] {1, 2} ?_ rfl ?_).2.1
  · exact List.isChain_cons_cons.mpr ⟨⟨by decide, by decide⟩, List.IsChain.singleton _⟩
  · intro y hy
    rcases List.mem_cons.mp hy with rfl | hy
    · exact hleast 2
    · rw [List.mem_singleton.mp hy]
      exact hleast 0

/-! ## 5. The pool of lanes

`CarrierPool` names a loop by its generation and keeps the reservations apart.  It makes the
same choice. -/

/-- The lane of the pool: its generations by their identifiers. -/
def laneOf (slot : LaneSlot) : CarrierLane where
  slotId := slot.slotId
  current := LaneSlot.shownId slot.current
  next := LaneSlot.shownId slot.next

/-- The pool has the lanes of the carrier, and the reservations and the running generation
    are those that the lanes show. -/
structure Shows (pool : CarrierPool) (reservations : Nat → Nat) (running : Option Nat)
    (carrier : RuntimeCarrier) (call : SelectCall) : Prop where
  slots : pool.slots = carrier.slots.map laneOf
  cursor : pool.selectionCursor = carrier.selectionCursor
  inRange : carrier.selectionCursor < carrier.slots.length
  pressure : ∀ slot ∈ carrier.slots, (laneOf slot).pressure reservations = slot.pressure
  running : ∀ slot ∈ carrier.slots,
    running.any (laneOf slot).owns = call.runningLoop.any slot.ownsLoop

variable {pool : CarrierPool} {reservations : Nat → Nat} {running : Option Nat}

theorem shownId_eq_some {generation : Option LaneGeneration} {g : Nat} :
    LaneSlot.shownId generation = some g ↔
      ∃ x ∈ generation, x.notClosed = true ∧ x.generationId = g := by
  unfold LaneSlot.shownId
  rw [Option.map_eq_some_iff]
  constructor
  · rintro ⟨x, hx, rfl⟩
    obtain ⟨hx, hopen⟩ := Option.filter_eq_some_iff.mp hx
    exact ⟨x, hx, hopen, rfl⟩
  · rintro ⟨x, hx, hopen, rfl⟩
    exact ⟨x, Option.filter_eq_some_iff.mpr ⟨hx, hopen⟩, rfl⟩

theorem owns_laneOf {slot : LaneSlot} {g : Nat} :
    (laneOf slot).owns g = true ↔
      ∃ x ∈ slot.generations, x.notClosed = true ∧ x.generationId = g := by
  unfold CarrierLane.owns LaneSlot.generations
  simp only [Bool.or_eq_true, decide_eq_true_eq, List.mem_append, Option.mem_toList]
  constructor
  · rintro (h | h)
    · obtain ⟨x, hx, h⟩ := shownId_eq_some.mp h
      exact ⟨x, Or.inl hx, h⟩
    · obtain ⟨x, hx, h⟩ := shownId_eq_some.mp h
      exact ⟨x, Or.inr hx, h⟩
  · rintro ⟨x, hx | hx, h⟩
    · exact Or.inl (shownId_eq_some.mpr ⟨x, hx, h⟩)
    · exact Or.inr (shownId_eq_some.mpr ⟨x, hx, h⟩)

theorem ownsAny_laneOf (slot : LaneSlot) (ids : List Nat) :
    (laneOf slot).ownsAny ids = slot.ownsAnyGenerationId ids := by
  rw [Bool.eq_iff_iff]
  unfold CarrierLane.ownsAny LaneSlot.ownsAnyGenerationId
  split
  · rename_i hnil
    simp [hnil]
  · rw [List.any_eq_true, List.any_eq_true]
    constructor
    · rintro ⟨g, hg, howns⟩
      obtain ⟨x, hx, hopen, rfl⟩ := owns_laneOf.mp howns
      exact ⟨x, hx, by simp [hopen, hg]⟩
    · rintro ⟨x, hx, h⟩
      rw [Bool.and_eq_true, decide_eq_true_eq] at h
      exact ⟨x.generationId, h.2, owns_laneOf.mpr ⟨x, hx, h.1, rfl⟩⟩

/-- The candidates of the pool are those of the carrier. -/
theorem Shows.mem_candidates (hshows : Shows pool reservations running carrier call)
    {c : CarrierPool.LaneCandidate} :
    c ∈ pool.candidates call.avoidCurrentLoop running call.blockedGenerationIds reservations ↔
      ∃ slot, carrier.slots[c.index]? = some slot ∧ slot.eligible call = true ∧
        c = ⟨slot.pressure, distance carrier.slots.length carrier.selectionCursor c.index,
          c.index, laneOf slot⟩ := by
  have hdistance : ∀ i, (i + carrier.slots.length - carrier.selectionCursor) %
      carrier.slots.length = distance carrier.slots.length carrier.selectionCursor i := by
    intro i
    have h := hshows.inRange
    have hcast : (((i + carrier.slots.length - carrier.selectionCursor : Nat)) : Int) =
        (i : Int) - carrier.selectionCursor + carrier.slots.length := by
      omega
    have h : ((((i + carrier.slots.length - carrier.selectionCursor) % carrier.slots.length :
        Nat)) : Int) = distance carrier.slots.length carrier.selectionCursor i := by
      rw [distance_cast (by omega), Int.natCast_mod, hcast, Int.add_emod_right]
    exact_mod_cast h
  unfold CarrierPool.candidates
  rw [List.mem_filterMap]
  constructor
  · rintro ⟨⟨lane, i⟩, hmem, hsome⟩
    have hget := List.mk_mem_zipIdx_iff_getElem?.mp hmem
    rw [hshows.slots, List.getElem?_map, Option.map_eq_some_iff] at hget
    obtain ⟨slot, hget, rfl⟩ := hget
    have hslot : slot ∈ carrier.slots := List.mem_of_getElem? hget
    dsimp only at hsome
    rw [ownsAny_laneOf, hshows.running slot hslot, hshows.pressure slot hslot, hshows.cursor,
      hshows.slots, List.length_map, hdistance] at hsome
    split at hsome
    · cases hsome
    · rename_i hblocked
      split at hsome
      · cases hsome
      · rename_i hrunning
        cases hsome
        exact ⟨slot, hget, by simp [LaneSlot.eligible, hblocked, hrunning], rfl⟩
  · rintro ⟨slot, hget, heligible, hc⟩
    have hslot : slot ∈ carrier.slots := List.mem_of_getElem? hget
    refine ⟨(laneOf slot, c.index), List.mk_mem_zipIdx_iff_getElem?.mpr ?_, ?_⟩
    · rw [hshows.slots, List.getElem?_map, hget]
      rfl
    · simp only [LaneSlot.eligible, Bool.and_eq_true, Bool.not_eq_true'] at heligible
      dsimp only
      rw [ownsAny_laneOf, hshows.running slot hslot, hshows.pressure slot hslot, hshows.cursor,
        hshows.slots, List.length_map, hdistance, heligible.1, heligible.2, hc]
      rfl

/-- **The pool makes the same choice.** -/
theorem Shows.selectSlot (hshows : Shows pool reservations running carrier call) :
    match CarrierPool.leastCandidate (pool.candidates call.avoidCurrentLoop running
      call.blockedGenerationIds reservations) with
    | some c => ∃ slot, carrier.slots[c.index]? = some slot ∧ c.lane = laneOf slot ∧
        carrier.selectSlot call = (slot, carrier.movePast c.index)
    | none => carrier.selectSlot call = carrier.freezeSettings.newEscapeSlotLocked := by
  split
  · rename_i c hleast
    obtain ⟨slot, hget, heligible, hc⟩ :=
      hshows.mem_candidates.mp (CarrierPool.leastCandidate_mem hleast)
    have hslot : slot ∈ carrier.slots := List.mem_of_getElem? hget
    have hkey : ∀ j other, carrier.slots[j]? = some other → other.eligible call = true →
        slot.pressure < other.pressure ∨ slot.pressure = other.pressure ∧
          distance carrier.slots.length carrier.selectionCursor c.index ≤
            distance carrier.slots.length carrier.selectionCursor j := by
      intro j other hother hcall
      have hmem := hshows.mem_candidates (c := ⟨other.pressure, distance carrier.slots.length
        carrier.selectionCursor j, j, laneOf other⟩).mpr ⟨other, hother, hcall, rfl⟩
      have h := CarrierPool.LaneCandidate.before_eq_false.mp
        (CarrierPool.leastCandidate_least hleast _ hmem)
      rw [hc] at h
      exact h
    obtain ⟨i, selected, hselected, hfirst, hselect⟩ :=
      selectSlot_of_eligible ⟨slot, hslot, heligible⟩
    have hindex : i = c.index := hfirst.unique (isFirstFrom_of_least hget heligible hkey)
    subst hindex
    rw [hget] at hselected
    cases hselected
    exact ⟨slot, hget, congrArg CarrierPool.LaneCandidate.lane hc, hselect⟩
  · rename_i hnone
    refine selectSlot_of_none fun slot hslot => ?_
    by_contra heligible
    obtain ⟨i, hget⟩ := List.mem_iff_getElem?.mp hslot
    have hmem := hshows.mem_candidates (c := ⟨slot.pressure, distance carrier.slots.length
      carrier.selectionCursor i, i, laneOf slot⟩).mpr
        ⟨slot, hget, Bool.eq_true_of_not_eq_false heligible, rfl⟩
    rw [CarrierPool.leastCandidate_eq_none hnone] at hmem
    cases hmem

end RuntimeCarrier

end AgentlyStage
