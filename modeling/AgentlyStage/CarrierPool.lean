import Mathlib.Data.List.Basic
import Mathlib.Logic.Function.Basic

/-!
# The carrier pool

`_RuntimeCarrier`: the lanes of the configured pool, the escape lanes, and how a lease is
acquired.  A loop of a carrier is named by its generation.  The reservations of the
generations, which a selection compares, are a parameter here.
-/

namespace AgentlyStage

/-! ## 1. Lanes -/

/-- `_CarrierSlot` as the pool sees it. -/
structure CarrierLane where
  slotId : Nat
  current : Option Nat := none
  next : Option Nat := none
deriving DecidableEq, Repr

/-- `_ExecutionContext`; `stage` is the scope of the handle. -/
structure CarrierExecution where
  generation : Nat
  blockedGenerationIds : List Nat
  stage : Nat
deriving DecidableEq, Repr

structure CarrierPool where
  slots : List CarrierLane
  escapeSlots : List CarrierLane := []
  selectionCursor : Nat := 0
  slotCounter : Nat
  generationCounter : Nat := 0
  /-- `_Generation.slot_id`. -/
  slotOf : Nat → Nat := fun _ => 0
  /-- The generation is queued, starting or open. -/
  admits : Nat → Bool := fun _ => false

namespace CarrierLane

def owns (lane : CarrierLane) (g : Nat) : Bool :=
  decide (lane.current = some g) || decide (lane.next = some g)

/-- `owns_any_generation_id`. -/
def ownsAny (lane : CarrierLane) (ids : List Nat) : Bool := ids.any lane.owns

/-- The reservations of `_CarrierSlot.snapshot`. -/
def pressure (lane : CarrierLane) (reservations : Nat → Nat) : Nat :=
  (lane.current.elim 0 reservations) + (lane.next.elim 0 reservations)

end CarrierLane

namespace CarrierPool

/-- The pool with `count` lanes, before the first lease. -/
def ofCount (count : Nat) : CarrierPool where
  slots := (List.range count).map fun i => { slotId := i + 1 }
  slotCounter := count

variable (pool : CarrierPool)

def lanes : List CarrierLane := pool.slots ++ pool.escapeSlots

/-! ## 2. Leases -/

/-- `_create_generation_locked`: the pool afterwards. -/
def createGeneration (slotId : Nat) : CarrierPool :=
  { pool with
    generationCounter := pool.generationCounter + 1
    slotOf := Function.update pool.slotOf (pool.generationCounter + 1) slotId
    admits := Function.update pool.admits (pool.generationCounter + 1) true }

/-- `_CarrierSlot.acquire_lease` without a preferred generation: the generation, the lane
    and the pool afterwards.  A waiting `_next` is taken whatever its state. -/
def reserveLane (lane : CarrierLane) : Nat × CarrierLane × CarrierPool :=
  match lane.current with
  | none =>
    (pool.generationCounter + 1, { lane with current := some (pool.generationCounter + 1) },
      pool.createGeneration lane.slotId)
  | some c =>
    if pool.admits c then (c, lane, pool)
    else
      match lane.next with
      | some n => (n, lane, pool)
      | none =>
        (pool.generationCounter + 1, { lane with next := some (pool.generationCounter + 1) },
          pool.createGeneration lane.slotId)

/-- The lease of a preferred generation is granted. -/
def acceptsPinned (g : Nat) : Bool :=
  pool.lanes.any fun lane => decide (lane.slotId = pool.slotOf g) && lane.owns g && pool.admits g

structure LaneCandidate where
  pressure : Nat
  distance : Nat
  index : Nat
  lane : CarrierLane
deriving DecidableEq, Repr

/-- The order of the key in `_select_slot`. -/
def LaneCandidate.before (c d : LaneCandidate) : Bool :=
  decide (c.pressure < d.pressure) ||
    (decide (c.pressure = d.pressure) && decide (c.distance < d.distance))

/-- `min` over the candidates: the first of the least. -/
def leastCandidate : List LaneCandidate → Option LaneCandidate
  | [] => none
  | c :: cs =>
    match leastCandidate cs with
    | none => some c
    | some d => if d.before c then some d else some c

/-- The candidates of `_select_slot`; `running` is the generation of the running loop. -/
def candidates (avoidCurrentLoop : Bool) (running : Option Nat) (blocked : List Nat)
    (reservations : Nat → Nat) : List LaneCandidate :=
  pool.slots.zipIdx.filterMap fun entry =>
    if entry.1.ownsAny blocked then none
    else if avoidCurrentLoop && running.any entry.1.owns then none
    else some ⟨entry.1.pressure reservations,
      (entry.2 + pool.slots.length - pool.selectionCursor) % pool.slots.length,
      entry.2, entry.1⟩

/-- `_select_slot` and the lease on the slot it returns. -/
def acquireSelected (avoidCurrentLoop : Bool) (running : Option Nat) (blocked : List Nat)
    (reservations : Nat → Nat) : Nat × CarrierPool :=
  match leastCandidate (pool.candidates avoidCurrentLoop running blocked reservations) with
  | some c =>
    match pool.reserveLane c.lane with
    | (g, lane, pool') =>
      (g, { pool' with
        slots := pool.slots.set c.index lane
        selectionCursor := (c.index + 1) % pool.slots.length })
  | none =>
    -- every lane is excluded: a new escape lane with its first generation
    (pool.generationCounter + 1,
      { pool.createGeneration (pool.slotCounter + 1) with
        slotCounter := pool.slotCounter + 1
        escapeSlots := pool.escapeSlots ++
          [{ slotId := pool.slotCounter + 1, current := some (pool.generationCounter + 1) }] })

/-- `_RuntimeCarrier.acquire_lease`. -/
def acquireLease (inherited : Option CarrierExecution) (running : Option Nat)
    (avoidCurrentLoop : Bool) (reservations : Nat → Nat) : Nat × CarrierPool :=
  match inherited with
  | none => pool.acquireSelected avoidCurrentLoop running [] reservations
  | some x =>
    if x.generation ∉ x.blockedGenerationIds ∧
        ¬ (avoidCurrentLoop ∧ running = some x.generation) ∧ pool.acceptsPinned x.generation then
      (x.generation, pool)
    else pool.acquireSelected avoidCurrentLoop running x.blockedGenerationIds reservations

/-- The last release of a generation seals it. -/
def sealUnused (reservations : Nat → Nat) : CarrierPool :=
  { pool with admits := fun g => pool.admits g && decide (0 < reservations g) }

/-- The end of `_run_generation` in the lane of the generation. -/
def closeLane (g : Nat) (lane : CarrierLane) : CarrierLane :=
  if lane.current = some g then { lane with current := lane.next, next := none } else lane

/-- A generation closes: the one behind it starts, open when it is reserved; an escape lane
    that is idle then goes. -/
def closeGeneration (g : Nat) (reservations : Nat → Nat) : CarrierPool :=
  { pool with
    slots := pool.slots.map (closeLane g)
    escapeSlots := (pool.escapeSlots.map (closeLane g)).filter fun lane =>
      lane.current.isSome || lane.next.isSome
    admits := fun n =>
      if pool.lanes.any fun lane => decide (lane.current = some g) && decide (lane.next = some n)
      then decide (0 < reservations n)
      else pool.admits n }

end CarrierPool

/-- `blocked_generation_ids_for_submission`. -/
def blockedGenerationIdsForSubmission (context : Option CarrierExecution) (generation : Nat)
    (synchronousScope : Bool) : List Nat :=
  match context with
  | none => []
  | some x =>
    if synchronousScope ∧ generation ≠ x.generation then x.generation :: x.blockedGenerationIds
    else x.blockedGenerationIds

/-! ## 3. The invariant of a pool -/

namespace CarrierPool

/-- A pool of `count` lanes. -/
structure PoolInv (count : Nat) (pool : CarrierPool) : Prop where
  length : pool.slots.length = count
  slotIds : ∀ lane ∈ pool.slots, lane.slotId ≤ count
  escapeIds : ∀ lane ∈ pool.escapeSlots, count < lane.slotId
  slotCounter : count ≤ pool.slotCounter
  bounded : ∀ lane ∈ pool.lanes, ∀ g, lane.owns g = true → g ≤ pool.generationCounter
  slotOf : ∀ lane ∈ pool.lanes, ∀ g, lane.owns g = true → pool.slotOf g = lane.slotId

/-- Some lane owns the generation. -/
def Owned (pool : CarrierPool) (g : Nat) : Prop := ∃ lane ∈ pool.lanes, lane.owns g = true

/-- What acquiring a lease on `h` does to a pool. -/
structure Acquired (pool : CarrierPool) (h : Nat) (pool' : CarrierPool) : Prop where
  counter : pool.generationCounter ≤ pool'.generationCounter
  fresh : h ≤ pool.generationCounter ∨ h = pool.generationCounter + 1
  bounded : h ≤ pool'.generationCounter
  owned : pool'.Owned h
  keeps : ∀ g, pool.Owned g → pool'.Owned g
  slotOf : ∀ g, g ≤ pool.generationCounter → pool'.slotOf g = pool.slotOf g
  admits : ∀ g, g ≤ pool.generationCounter → pool'.admits g = pool.admits g
  /-- A lane of the pool keeps what it owns. -/
  slots : ∀ lane' ∈ pool'.slots, ∃ lane ∈ pool.slots, ∀ g, lane.owns g = true →
    lane'.owns g = true

variable {count : Nat} {pool pool' : CarrierPool} {g h : Nat}

theorem mem_lanes {lane : CarrierLane} :
    lane ∈ pool.lanes ↔ lane ∈ pool.slots ∨ lane ∈ pool.escapeSlots := List.mem_append

/-- A pinned lease is granted on an owned generation that still admits. -/
theorem acceptsPinned_iff (hp : PoolInv count pool) :
    pool.acceptsPinned g = true ↔ pool.Owned g ∧ pool.admits g = true := by
  unfold acceptsPinned
  rw [List.any_eq_true]
  constructor
  · rintro ⟨lane, hlane, h⟩
    simp only [Bool.and_eq_true] at h
    exact ⟨⟨lane, hlane, h.1.2⟩, h.2⟩
  · rintro ⟨⟨lane, hlane, howns⟩, hadmits⟩
    refine ⟨lane, hlane, ?_⟩
    simp [hp.slotOf lane hlane g howns, howns, hadmits]

theorem Acquired.refl (hp : PoolInv count pool) (h : pool.Owned g) : Acquired pool g pool := by
  obtain ⟨lane, hlane, howns⟩ := h
  have hle := hp.bounded lane hlane g howns
  exact ⟨Nat.le_refl _, Or.inl hle, hle, ⟨lane, hlane, howns⟩, fun _ h => h, fun _ _ => rfl,
    fun _ _ => rfl, fun lane hlane => ⟨lane, hlane, fun _ h => h⟩⟩

theorem ofCount_inv (count : Nat) : PoolInv count (ofCount count) := by
  have hempty : ∀ lane ∈ (ofCount count).lanes, ∀ g, lane.owns g = false := by
    intro lane hlane g
    simp only [lanes, ofCount, List.append_nil, List.mem_map] at hlane
    obtain ⟨i, -, rfl⟩ := hlane
    simp [CarrierLane.owns]
  constructor
  · simp [ofCount]
  · intro lane hlane
    obtain ⟨i, hi, rfl⟩ := List.mem_map.mp hlane
    exact List.mem_range.mp hi
  · intro lane hlane
    cases hlane
  · exact Nat.le_refl _
  · intro lane hlane g hg
    rw [hempty lane hlane g] at hg
    cases hg
  · intro lane hlane g hg
    rw [hempty lane hlane g] at hg
    cases hg

theorem leastCandidate_mem {cs : List LaneCandidate} {c : LaneCandidate}
    (h : leastCandidate cs = some c) : c ∈ cs := by
  induction cs generalizing c with
  | nil => cases h
  | cons d cs ih =>
    unfold leastCandidate at h
    split at h
    · cases h
      exact List.mem_cons_self
    · rename_i e he
      split at h
      · cases h
        exact List.mem_cons_of_mem _ (ih he)
      · cases h
        exact List.mem_cons_self

theorem leastCandidate_eq_none {cs : List LaneCandidate} (h : leastCandidate cs = none) :
    cs = [] := by
  cases cs with
  | nil => rfl
  | cons d cs =>
    unfold leastCandidate at h
    split at h
    · cases h
    · split at h
      · cases h
      · cases h

theorem LaneCandidate.before_eq_false {c d : LaneCandidate} :
    c.before d = false ↔
      d.pressure < c.pressure ∨ (d.pressure = c.pressure ∧ d.distance ≤ c.distance) := by
  simp only [LaneCandidate.before, Bool.or_eq_false_iff, Bool.and_eq_false_iff,
    decide_eq_false_iff_not]
  omega

/-- No candidate comes before the least one. -/
theorem leastCandidate_least {cs : List LaneCandidate} {c : LaneCandidate}
    (h : leastCandidate cs = some c) : ∀ d ∈ cs, d.before c = false := by
  induction cs generalizing c with
  | nil => cases h
  | cons e cs ih =>
    have hself : ∀ x : LaneCandidate, x.before x = false :=
      fun x => LaneCandidate.before_eq_false.mpr (Or.inr ⟨rfl, Nat.le_refl _⟩)
    intro d hd
    unfold leastCandidate at h
    split at h
    · rename_i hnone
      rw [leastCandidate_eq_none hnone, List.mem_singleton] at hd
      cases h
      rw [hd]
      exact hself _
    · rename_i f hf
      have hleast := ih hf
      split at h
      · rename_i hbefore
        cases h
        rcases List.mem_cons.mp hd with rfl | hd
        · simp only [LaneCandidate.before, Bool.or_eq_true, Bool.and_eq_true,
            decide_eq_true_eq] at hbefore
          rw [LaneCandidate.before_eq_false]
          omega
        · exact hleast d hd
      · rename_i hbefore
        cases h
        rcases List.mem_cons.mp hd with rfl | hd
        · exact hself _
        · have h1 := LaneCandidate.before_eq_false.mp (hleast d hd)
          have h2 := LaneCandidate.before_eq_false.mp (Bool.eq_false_iff.mpr hbefore)
          rw [LaneCandidate.before_eq_false]
          omega

/-- A candidate is a lane of the pool that is not excluded. -/
theorem mem_candidates {avoidCurrentLoop : Bool} {running : Option Nat} {blocked : List Nat}
    {reservations : Nat → Nat} {c : LaneCandidate}
    (h : c ∈ pool.candidates avoidCurrentLoop running blocked reservations) :
    pool.slots[c.index]? = some c.lane ∧ c.lane.ownsAny blocked = false ∧
      (avoidCurrentLoop && running.any c.lane.owns) = false := by
  obtain ⟨⟨lane, i⟩, hmem, hsome⟩ := List.mem_filterMap.mp h
  have hget := List.mk_mem_zipIdx_iff_getElem?.mp hmem
  split at hsome
  · cases hsome
  · rename_i hblocked
    split at hsome
    · cases hsome
    · rename_i hrunning
      cases hsome
      exact ⟨hget, by simpa using hblocked, by simpa using hrunning⟩

/-- Without a candidate every lane of the pool is excluded. -/
theorem excluded_of_candidates_eq_nil {avoidCurrentLoop : Bool} {running : Option Nat}
    {blocked : List Nat} {reservations : Nat → Nat}
    (h : pool.candidates avoidCurrentLoop running blocked reservations = [])
    {lane : CarrierLane} (hlane : lane ∈ pool.slots) :
    lane.ownsAny blocked = true ∨ (avoidCurrentLoop && running.any lane.owns) = true := by
  obtain ⟨i, hi⟩ := List.mem_iff_getElem?.mp hlane
  have hnone := List.filterMap_eq_nil_iff.mp h (lane, i)
    (List.mk_mem_zipIdx_iff_getElem?.mpr hi)
  dsimp only at hnone
  split at hnone
  · exact Or.inl ‹_›
  · split at hnone
    · exact Or.inr ‹_›
    · cases hnone

/-! ## 4. Acquiring a lease -/

/-- What `reserveLane` may return: a generation of the lane, or a fresh one in a free place
    of it. -/
theorem reserveLane_cases (pool : CarrierPool) (lane : CarrierLane) :
    (∃ g, lane.owns g = true ∧ pool.reserveLane lane = (g, lane, pool)) ∨
      ∃ lane', lane'.slotId = lane.slotId ∧
        pool.reserveLane lane =
          (pool.generationCounter + 1, lane', pool.createGeneration lane.slotId) ∧
        ∀ g, lane'.owns g = true ↔ lane.owns g = true ∨ g = pool.generationCounter + 1 := by
  unfold reserveLane
  split
  · rename_i hcurrent
    refine Or.inr ⟨{ lane with current := some (pool.generationCounter + 1) }, rfl, rfl,
      fun g => ?_⟩
    simp only [CarrierLane.owns, hcurrent, Bool.or_eq_true, decide_eq_true_eq, Option.some.injEq]
    constructor
    · rintro (rfl | h)
      · exact Or.inr rfl
      · exact Or.inl (Or.inr h)
    · rintro ((h | h) | rfl)
      · cases h
      · exact Or.inr h
      · exact Or.inl rfl
  · rename_i c hcurrent
    split
    · exact Or.inl ⟨c, by simp [CarrierLane.owns, hcurrent], rfl⟩
    · split
      · rename_i n hnext
        exact Or.inl ⟨n, by simp [CarrierLane.owns, hnext], rfl⟩
      · rename_i hnext
        refine Or.inr ⟨{ lane with next := some (pool.generationCounter + 1) }, rfl, rfl,
          fun g => ?_⟩
        simp only [CarrierLane.owns, hnext, Bool.or_eq_true, decide_eq_true_eq,
          Option.some.injEq]
        constructor
        · rintro (h | rfl)
          · exact Or.inl (Or.inl h)
          · exact Or.inr rfl
        · rintro ((h | h) | rfl)
          · exact Or.inl h
          · cases h
          · exact Or.inr rfl

/-- The lanes that `_select_slot` passes over. -/
def excludes (avoidCurrentLoop : Bool) (running : Option Nat) (blocked : List Nat)
    (lane : CarrierLane) : Bool :=
  lane.ownsAny blocked || (avoidCurrentLoop && running.any lane.owns)

/-- The lease `h` is on a lane of the pool that is not excluded, or on a new escape lane
    when every lane of the pool is. -/
def Takes (pool : CarrierPool) (excluded : CarrierLane → Bool) (h : Nat)
    (pool' : CarrierPool) : Prop :=
  (∃ lane ∈ pool.slots, excluded lane = false ∧
      (lane.owns h = true ∨ h = pool.generationCounter + 1) ∧ pool'.slotOf h = lane.slotId) ∨
    ((∀ lane ∈ pool.slots, excluded lane = true) ∧ h = pool.generationCounter + 1 ∧
      pool'.slotOf h = pool.slotCounter + 1)

/-- Moving the cursor of the selection is all that a lease on an open lane does. -/
theorem moveCursor_inv (hp : PoolInv count pool) (cursor : Nat) :
    PoolInv count { pool with selectionCursor := cursor } :=
  ⟨hp.length, hp.slotIds, hp.escapeIds, hp.slotCounter, hp.bounded, hp.slotOf⟩

/-- A fresh generation in a free place of a lane of the pool. -/
theorem place_spec (hp : PoolInv count pool) {lane lane' : CarrierLane} {i cursor : Nat}
    (hlane : pool.slots[i]? = some lane) (hid : lane'.slotId = lane.slotId)
    (howns : ∀ g, lane'.owns g = true ↔ lane.owns g = true ∨ g = pool.generationCounter + 1)
    (hpool : pool' = { pool.createGeneration lane.slotId with
      slots := pool.slots.set i lane'
      selectionCursor := cursor }) :
    PoolInv count pool' ∧ Acquired pool (pool.generationCounter + 1) pool' ∧
      pool'.slotOf (pool.generationCounter + 1) = lane.slotId := by
  subst hpool
  have hmem : lane ∈ pool.slots := List.mem_of_getElem? hlane
  obtain ⟨hlt, -⟩ := List.getElem?_eq_some_iff.mp hlane
  have hnew : lane' ∈ pool.slots.set i lane' := List.mem_set hlt lane'
  -- what the lanes own, from the lanes before
  have hold : ∀ l, l ∈ pool.slots.set i lane' ∨ l ∈ pool.escapeSlots →
      l ∈ pool.lanes ∨ l = lane' := by
    rintro l (h | h)
    · exact (List.mem_or_eq_of_mem_set h).imp_left fun h => mem_lanes.mpr (Or.inl h)
    · exact Or.inl (mem_lanes.mpr (Or.inr h))
  have hfresh : ∀ g, g ≤ pool.generationCounter → g ≠ pool.generationCounter + 1 :=
    fun g hg => Nat.ne_of_lt (Nat.lt_succ_of_le hg)
  refine ⟨⟨List.length_set.trans hp.length, ?_, hp.escapeIds, hp.slotCounter, ?_, ?_⟩,
    ⟨Nat.le_succ _, Or.inr rfl, Nat.le_refl _, ?_, ?_, ?_, ?_, ?_⟩, ?_⟩
  · intro l hl
    rcases List.mem_or_eq_of_mem_set hl with h | rfl
    · exact hp.slotIds l h
    · rw [hid]
      exact hp.slotIds lane hmem
  · intro l hl g hg
    rcases hold l (mem_lanes.mp hl) with h | rfl
    · exact Nat.le_succ_of_le (hp.bounded l h g hg)
    · rcases (howns g).mp hg with h | rfl
      · exact Nat.le_succ_of_le (hp.bounded lane (mem_lanes.mpr (Or.inl hmem)) g h)
      · exact Nat.le_refl _
  · intro l hl g hg
    show Function.update pool.slotOf (pool.generationCounter + 1) lane.slotId g = l.slotId
    rcases hold l (mem_lanes.mp hl) with h | rfl
    · rw [Function.update_of_ne (hfresh g (hp.bounded l h g hg))]
      exact hp.slotOf l h g hg
    · rw [hid]
      rcases (howns g).mp hg with h | rfl
      · have hin := mem_lanes.mpr (Or.inl hmem)
        rw [Function.update_of_ne (hfresh g (hp.bounded lane hin g h))]
        exact hp.slotOf lane hin g h
      · exact Function.update_self _ _ _
  · exact ⟨lane', mem_lanes.mpr (Or.inl hnew), (howns _).mpr (Or.inr rfl)⟩
  · rintro g ⟨l, hl, hg⟩
    rcases mem_lanes.mp hl with h | h
    · obtain ⟨j, hj⟩ := List.mem_iff_getElem?.mp h
      by_cases hij : i = j
      · subst hij
        rw [hlane] at hj
        cases hj
        exact ⟨lane', mem_lanes.mpr (Or.inl hnew), (howns g).mpr (Or.inl hg)⟩
      · refine ⟨l, mem_lanes.mpr (Or.inl (List.mem_iff_getElem?.mpr ⟨j, ?_⟩)), hg⟩
        exact (List.getElem?_set_ne hij).trans hj
    · exact ⟨l, mem_lanes.mpr (Or.inr h), hg⟩
  · exact fun g hg => Function.update_of_ne (hfresh g hg) _ _
  · exact fun g hg => Function.update_of_ne (hfresh g hg) _ _
  · intro l hl
    rcases List.mem_or_eq_of_mem_set hl with h | rfl
    · exact ⟨l, h, fun _ h => h⟩
    · exact ⟨lane, hmem, fun g hg => (howns g).mpr (Or.inl hg)⟩
  · exact Function.update_self _ _ _

/-- A new escape lane with its first generation. -/
theorem escape_spec (hp : PoolInv count pool)
    (hpool : pool' = { pool.createGeneration (pool.slotCounter + 1) with
      slotCounter := pool.slotCounter + 1
      escapeSlots := pool.escapeSlots ++
        [{ slotId := pool.slotCounter + 1, current := some (pool.generationCounter + 1) }] }) :
    PoolInv count pool' ∧ Acquired pool (pool.generationCounter + 1) pool' ∧
      pool'.slotOf (pool.generationCounter + 1) = pool.slotCounter + 1 := by
  subst hpool
  have hlane : ∀ g, CarrierLane.owns
      { slotId := pool.slotCounter + 1, current := some (pool.generationCounter + 1) } g = true ↔
        g = pool.generationCounter + 1 := by
    intro g
    simp [CarrierLane.owns, eq_comm]
  have hold : ∀ l : CarrierLane, l ∈ pool.slots ∨ l ∈ pool.escapeSlots ++
      [{ slotId := pool.slotCounter + 1, current := some (pool.generationCounter + 1) }] →
        l ∈ pool.lanes ∨
          l = { slotId := pool.slotCounter + 1, current := some (pool.generationCounter + 1) } := by
    rintro l (h | h)
    · exact Or.inl (mem_lanes.mpr (Or.inl h))
    · rcases List.mem_append.mp h with h | h
      · exact Or.inl (mem_lanes.mpr (Or.inr h))
      · exact Or.inr (List.mem_singleton.mp h)
  have hfresh : ∀ g, g ≤ pool.generationCounter → g ≠ pool.generationCounter + 1 :=
    fun g hg => Nat.ne_of_lt (Nat.lt_succ_of_le hg)
  refine ⟨⟨hp.length, hp.slotIds, ?_, Nat.le_succ_of_le hp.slotCounter, ?_, ?_⟩,
    ⟨Nat.le_succ _, Or.inr rfl, Nat.le_refl _, ?_, ?_, ?_, ?_, ?_⟩, ?_⟩
  · intro l hl
    rcases List.mem_append.mp hl with h | h
    · exact hp.escapeIds l h
    · rw [List.mem_singleton.mp h]
      exact Nat.lt_succ_of_le hp.slotCounter
  · intro l hl g hg
    rcases hold l (mem_lanes.mp hl) with h | rfl
    · exact Nat.le_succ_of_le (hp.bounded l h g hg)
    · rw [(hlane g).mp hg]
      exact Nat.le_refl _
  · intro l hl g hg
    show Function.update pool.slotOf (pool.generationCounter + 1) (pool.slotCounter + 1) g =
      l.slotId
    rcases hold l (mem_lanes.mp hl) with h | rfl
    · rw [Function.update_of_ne (hfresh g (hp.bounded l h g hg))]
      exact hp.slotOf l h g hg
    · rw [(hlane g).mp hg]
      exact Function.update_self _ _ _
  · exact ⟨_, mem_lanes.mpr (Or.inr (List.mem_append_right _ (List.mem_singleton_self _))),
      (hlane _).mpr rfl⟩
  · rintro g ⟨l, hl, hg⟩
    refine ⟨l, mem_lanes.mpr ((mem_lanes.mp hl).imp_right ?_), hg⟩
    exact List.mem_append_left _
  · exact fun g hg => Function.update_of_ne (hfresh g hg) _ _
  · exact fun g hg => Function.update_of_ne (hfresh g hg) _ _
  · exact fun l hl => ⟨l, hl, fun _ h => h⟩
  · exact Function.update_self _ _ _

theorem acquireSelected_spec (hp : PoolInv count pool) {avoidCurrentLoop : Bool}
    {running : Option Nat} {blocked : List Nat} {reservations : Nat → Nat}
    (h' : pool.acquireSelected avoidCurrentLoop running blocked reservations = (h, pool')) :
    PoolInv count pool' ∧ Acquired pool h pool' ∧
      Takes pool (excludes avoidCurrentLoop running blocked) h pool' := by
  unfold acquireSelected at h'
  split at h'
  · rename_i c hleast
    obtain ⟨hget, hblocked, hrunning⟩ := mem_candidates (leastCandidate_mem hleast)
    have hmem : c.lane ∈ pool.slots := List.mem_of_getElem? hget
    have hexcludes : excludes avoidCurrentLoop running blocked c.lane = false := by
      unfold excludes
      rw [hblocked, hrunning]
      rfl
    rcases reserveLane_cases pool c.lane with ⟨g, howns, hreserve⟩ | ⟨lane', hid, hreserve, howns⟩
    · -- an open generation of the lane: only the cursor moves
      rw [hreserve] at h'
      have hset : pool.slots.set c.index c.lane = pool.slots := by
        obtain ⟨hlt, hget⟩ := List.getElem?_eq_some_iff.mp hget
        rw [← hget]
        exact List.set_getElem_self hlt
      rw [Prod.mk.injEq] at h'
      obtain ⟨rfl, rfl⟩ := h'
      rw [hset]
      have hslot := hp.slotOf c.lane (mem_lanes.mpr (Or.inl hmem)) g howns
      have hacquired := Acquired.refl hp ⟨c.lane, mem_lanes.mpr (Or.inl hmem), howns⟩
      exact ⟨moveCursor_inv hp _, ⟨hacquired.counter, hacquired.fresh, hacquired.bounded,
        hacquired.owned, hacquired.keeps, hacquired.slotOf, hacquired.admits, hacquired.slots⟩,
        Or.inl ⟨c.lane, hmem, hexcludes, Or.inl howns, hslot⟩⟩
    · rw [hreserve, Prod.mk.injEq] at h'
      obtain ⟨rfl, hpool⟩ := h'
      obtain ⟨hinv, hacquired, hslot⟩ := place_spec hp hget hid howns hpool.symm
      exact ⟨hinv, hacquired, Or.inl ⟨c.lane, hmem, hexcludes, Or.inr rfl, hslot⟩⟩
  · rename_i hleast
    rw [Prod.mk.injEq] at h'
    obtain ⟨rfl, hpool⟩ := h'
    obtain ⟨hinv, hacquired, hslot⟩ := escape_spec hp hpool.symm
    refine ⟨hinv, hacquired, Or.inr ⟨fun lane hlane => ?_, rfl, hslot⟩⟩
    have hexcluded := excluded_of_candidates_eq_nil (leastCandidate_eq_none hleast) hlane
    unfold excludes
    rw [Bool.or_eq_true]
    exact hexcluded

/-- The code that acquires the lease inherits the generation of its execution. -/
def Inherits (pool : CarrierPool) (running : Option Nat) (avoidCurrentLoop : Bool)
    (x : CarrierExecution) : Prop :=
  x.generation ∉ x.blockedGenerationIds ∧ ¬ (avoidCurrentLoop ∧ running = some x.generation) ∧
    pool.acceptsPinned x.generation = true

/-- **Acquiring a lease.**  Either the generation of the execution is inherited and the pool
    stays, or a lane is taken. -/
theorem acquireLease_spec (hp : PoolInv count pool) {inherited : Option CarrierExecution}
    {running : Option Nat} {avoidCurrentLoop : Bool} {reservations : Nat → Nat}
    (h' : pool.acquireLease inherited running avoidCurrentLoop reservations = (h, pool')) :
    PoolInv count pool' ∧ Acquired pool h pool' ∧
      ((∃ x, inherited = some x ∧ pool.Inherits running avoidCurrentLoop x ∧
          h = x.generation ∧ pool' = pool) ∨
        ((∀ x, inherited = some x → ¬ pool.Inherits running avoidCurrentLoop x) ∧
          Takes pool (excludes avoidCurrentLoop running
            (inherited.elim [] CarrierExecution.blockedGenerationIds)) h pool')) := by
  unfold acquireLease at h'
  split at h'
  · obtain ⟨hinv, hacquired, htakes⟩ := acquireSelected_spec hp h'
    exact ⟨hinv, hacquired, Or.inr ⟨fun x hx => (by cases hx), htakes⟩⟩
  · rename_i x
    split at h'
    · rename_i hinherits
      rw [Prod.mk.injEq] at h'
      obtain ⟨rfl, rfl⟩ := h'
      have howned := ((acceptsPinned_iff hp).mp hinherits.2.2).1
      exact ⟨hp, Acquired.refl hp howned, Or.inl ⟨x, rfl, hinherits, rfl, rfl⟩⟩
    · rename_i hinherits
      obtain ⟨hinv, hacquired, htakes⟩ := acquireSelected_spec hp h'
      refine ⟨hinv, hacquired, Or.inr ⟨?_, htakes⟩⟩
      intro y hy
      cases hy
      exact hinherits

/-- The generation leased is not blocked. -/
theorem acquireLease_not_blocked (hp : PoolInv count pool) {x : CarrierExecution}
    {running : Option Nat} {avoidCurrentLoop : Bool} {reservations : Nat → Nat}
    (hbounded : ∀ b ∈ x.blockedGenerationIds, b ≤ pool.generationCounter)
    (h' : pool.acquireLease (some x) running avoidCurrentLoop reservations = (h, pool')) :
    h ∉ x.blockedGenerationIds := by
  obtain ⟨-, -, ⟨y, hy, hinherits, rfl, -⟩ | ⟨-, htakes⟩⟩ := acquireLease_spec hp h'
  · cases hy
    exact hinherits.1
  · have hfresh : pool.generationCounter + 1 ∉ x.blockedGenerationIds := by
      intro hmem
      exact absurd (hbounded _ hmem) (Nat.not_succ_le_self _)
    rcases htakes with ⟨lane, -, hexcludes, howns | rfl, -⟩ | ⟨-, rfl, -⟩
    · intro hmem
      have hany : lane.ownsAny x.blockedGenerationIds = true :=
        List.any_eq_true.mpr ⟨h, hmem, howns⟩
      unfold excludes at hexcludes
      simp only [Option.elim_some, hany, Bool.true_or, Bool.true_eq_false] at hexcludes
    · exact hfresh
    · exact hfresh

/-- On the loop of its own generation, code that avoids the current loop does not get it. -/
theorem acquireLease_avoids (hp : PoolInv count pool) {inherited : Option CarrierExecution}
    {reservations : Nat → Nat} (hrunning : pool.Owned g)
    (h' : pool.acquireLease inherited (some g) true reservations = (h, pool'))
    (hinherited : ∀ x, inherited = some x → x.generation = g ∨ g ∈ x.blockedGenerationIds) :
    h ≠ g := by
  obtain ⟨lane₀, hlane₀, howns₀⟩ := hrunning
  have hle := hp.bounded lane₀ hlane₀ g howns₀
  obtain ⟨-, -, ⟨x, hx, hinherits, rfl, -⟩ | ⟨-, htakes⟩⟩ := acquireLease_spec hp h'
  · rcases hinherited x hx with rfl | hmem
    · exact fun _ => hinherits.2.1 ⟨rfl, rfl⟩
    · rintro rfl
      exact hinherits.1 hmem
  · rcases htakes with ⟨lane, hlane, hexcludes, howns | rfl, -⟩ | ⟨-, rfl, -⟩
    · rintro rfl
      unfold excludes at hexcludes
      simp only [Option.any_some, howns, Bool.and_true, Bool.or_true,
        Bool.true_eq_false] at hexcludes
    · exact Nat.ne_of_gt (Nat.lt_succ_of_le hle)
    · exact Nat.ne_of_gt (Nat.lt_succ_of_le hle)

/-! ## 5. Closing a generation -/

@[simp] theorem closeLane_slotId (g : Nat) (lane : CarrierLane) :
    (closeLane g lane).slotId = lane.slotId := by
  unfold closeLane
  split
  · rfl
  · rfl

/-- A lane loses the closed generation only. -/
theorem owns_closeLane {lane : CarrierLane} {k : Nat} (hk : k ≠ g) (h : lane.owns k = true) :
    (closeLane g lane).owns k = true := by
  unfold closeLane
  split
  · rename_i hcurrent
    simp only [CarrierLane.owns, hcurrent, Option.some.injEq, Bool.or_eq_true,
      decide_eq_true_eq] at h ⊢
    exact h.elim (fun h => absurd h.symm hk) Or.inl
  · exact h

theorem owns_of_closeLane {lane : CarrierLane} {k : Nat} (h : (closeLane g lane).owns k = true) :
    lane.owns k = true := by
  unfold closeLane at h
  split at h
  · simp only [CarrierLane.owns, Bool.or_eq_true, decide_eq_true_eq] at h ⊢
    exact h.elim Or.inr (fun h => by cases h)
  · exact h

/-- The lanes afterwards come from lanes before. -/
theorem mem_closeGeneration {reservations : Nat → Nat} {lane : CarrierLane}
    (h : lane ∈ (pool.closeGeneration g reservations).lanes) :
    ∃ lane₀ ∈ pool.lanes, lane = closeLane g lane₀ := by
  rcases List.mem_append.mp h with h | h
  · obtain ⟨lane₀, hlane₀, rfl⟩ := List.mem_map.mp h
    exact ⟨lane₀, mem_lanes.mpr (Or.inl hlane₀), rfl⟩
  · obtain ⟨lane₀, hlane₀, rfl⟩ := List.mem_map.mp (List.mem_filter.mp h).1
    exact ⟨lane₀, mem_lanes.mpr (Or.inr hlane₀), rfl⟩

theorem closeGeneration_inv (hp : PoolInv count pool) (g : Nat) (reservations : Nat → Nat) :
    PoolInv count (pool.closeGeneration g reservations) := by
  constructor
  · exact (List.length_map _).trans hp.length
  · intro lane hlane
    obtain ⟨lane₀, hlane₀, rfl⟩ := List.mem_map.mp hlane
    rw [closeLane_slotId]
    exact hp.slotIds lane₀ hlane₀
  · intro lane hlane
    obtain ⟨lane₀, hlane₀, rfl⟩ := List.mem_map.mp (List.mem_filter.mp hlane).1
    rw [closeLane_slotId]
    exact hp.escapeIds lane₀ hlane₀
  · exact hp.slotCounter
  · intro lane hlane k hk
    obtain ⟨lane₀, hlane₀, rfl⟩ := mem_closeGeneration hlane
    exact hp.bounded lane₀ hlane₀ k (owns_of_closeLane hk)
  · intro lane hlane k hk
    obtain ⟨lane₀, hlane₀, rfl⟩ := mem_closeGeneration hlane
    rw [closeLane_slotId]
    exact hp.slotOf lane₀ hlane₀ k (owns_of_closeLane hk)

theorem Owned.closeGeneration {k : Nat} (hk : k ≠ g) (h : pool.Owned k)
    (reservations : Nat → Nat) : (pool.closeGeneration g reservations).Owned k := by
  obtain ⟨lane, hlane, howns⟩ := h
  have howns' := owns_closeLane hk howns
  refine ⟨closeLane g lane, mem_lanes.mpr ?_, howns'⟩
  rcases mem_lanes.mp hlane with h | h
  · exact Or.inl (List.mem_map_of_mem h)
  · refine Or.inr (List.mem_filter.mpr ⟨List.mem_map_of_mem h, ?_⟩)
    simp only [CarrierLane.owns, Bool.or_eq_true, decide_eq_true_eq] at howns'
    rw [Bool.or_eq_true]
    exact howns'.imp Option.isSome_of_mem Option.isSome_of_mem

theorem admits_closeGeneration {reservations : Nat → Nat} {k : Nat}
    (hadmits : pool.admits k = true) (hreserved : 0 < reservations k) :
    (pool.closeGeneration g reservations).admits k = true := by
  show (if _ then decide (0 < reservations k) else pool.admits k) = true
  split
  · exact decide_eq_true hreserved
  · exact hadmits

end CarrierPool

end AgentlyStage
