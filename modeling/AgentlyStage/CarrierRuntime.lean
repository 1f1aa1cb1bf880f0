import AgentlyStage.CarrierSlot

/-!
# The carrier runtime

`_RuntimeCarrier` over its lanes.  Every lane is a whole `_CarrierSlot`; the runtime creates
the lanes, finds the lane of a generation, numbers the generations, and takes an escape lane
out again when its control worker reports it idle.

The pool lock and the admission lock of a lane are never held together but for the number of a
new generation, so one call consists of several steps: `_select_slot` freezes the settings,
reads the lanes, chooses one of them (the cursor is moved) or opens an escape lane, and only
then is the chosen lane asked for a reservation.  Which of the lanes is chosen is left open
here, and an escape lane may be opened at any time; a selection on its own is in
`LaneSelection`.

The end of `_run_generation` leaves the admission lock before it reports an idle lane
(`idling`), and a lane that has been taken out is shut down after the pool lock (`retired`).
The shut-down at the exit of the process is left out.
-/

namespace AgentlyStage

open Transition

/-! ## 1. The runtime -/

/-- What a lane is asked for: `acquire_lease`, or `submit` for a handle. -/
inductive LaneRequest where
  | lease
  | submission (h : Nat) (phase : WorkPhase) (context : Option (Nat × Bool))
deriving DecidableEq, Repr

def LaneRequest.event (preferred : Option Nat) : LaneRequest → SlotEvent
  | .lease => .acquireLease preferred
  | .submission h phase context => .submit preferred h phase context

/-- How far a call is. -/
inductive LaneCallPhase where
  /-- In `_select_slot`, after `_freeze_settings`. -/
  | selecting
  /-- In `_select_slot`, with the tuple of lanes it has read. -/
  | choosing (slots : List Nat)
  /-- `_select_slot` has returned the lane. -/
  | selected (slot : Nat)
  /-- `_slot_for_generation` has returned the lane of the pinned generation. -/
  | pinned (slot g : Nat)
deriving DecidableEq, Repr

structure LaneCall where
  request : LaneRequest
  phase : LaneCallPhase
deriving DecidableEq, Repr

/-- `_RuntimeCarrier`.  Lanes are named by `slot_id`; a generation is named by its lane and
    its number there, and `generationIds` lists the generations in the order of their
    `generation_id`. -/
structure CarrierRuntime where
  carrierLoopCount : Nat := 1
  settingsFrozen : Bool := false
  selectionCursor : Nat := 0
  slotCounter : Nat := 1
  slots : List Nat := [1]
  escapeSlots : List Nat := []
  lanes : Nat → SlotState := fun _ => {}
  /-- The lanes that were created with an `on_idle` callback. -/
  onIdle : List Nat := []
  generationIds : List (Nat × Nat) := []
  calls : List LaneCall := []
  idling : List Nat := []
  retired : List Nat := []

namespace CarrierRuntime

variable (s : CarrierRuntime)

def setLane (slot : Nat) (lane : SlotState) : CarrierRuntime :=
  { s with lanes := Function.update s.lanes slot lane }

/-! ## 2. The lanes -/

/-- `_new_slot_locked` for the configured pool. -/
def newSlotLocked : CarrierRuntime :=
  { s with
    slotCounter := s.slotCounter + 1
    slots := s.slots ++ [s.slotCounter + 1] }

/-- `_new_slot_locked(escape=True)`. -/
def newEscapeSlotLocked : CarrierRuntime :=
  { s with
    slotCounter := s.slotCounter + 1
    escapeSlots := s.escapeSlots ++ [s.slotCounter + 1]
    onIdle := s.onIdle ++ [s.slotCounter + 1] }

/-- `while len(self._slots) < count`, with the number of lanes that are missing. -/
def growSlots (s : CarrierRuntime) : Nat → CarrierRuntime
  | 0 => s
  | missing + 1 => s.newSlotLocked.growSlots missing

/-- `set_carrier_loop_count`, up to the shut-down of the lanes it has taken out. -/
def setCarrierLoopCount (count : Nat) : Except StageError CarrierRuntime :=
  if s.settingsFrozen then
    if count = s.carrierLoopCount then .ok s
    else .error (.stageLifecycle ("runtime.carrier_loop_count is frozen after the first carrier " ++
      "lease; restart the process to change it"))
  else
    let s' := s.growSlots (count - s.slots.length)
    .ok { s' with
      slots := s'.slots.take count
      retired := s'.retired ++ (s'.slots.drop count).reverse
      carrierLoopCount := count
      selectionCursor := s'.selectionCursor % count }

/-- `_slot_for_generation`: the lanes are searched for the `slot_id` of the generation. -/
def slotForGeneration (slot : Nat) : Except StageError Nat :=
  match (s.slots ++ s.escapeSlots).find? fun other => decide (other = slot) with
  | some found => .ok found
  | none => .error (.stageLifecycle "Stage generation is no longer owned by the carrier pool")

/-- `_escape_slot_idle`. -/
def escapeSlotIdle (slot : Nat) : CarrierRuntime :=
  { s with
    idling := s.idling.erase slot
    escapeSlots := s.escapeSlots.erase slot
    retired := if slot ∈ s.escapeSlots then s.retired ++ [slot] else s.retired }

/-! ## 3. Calls -/

def setPhase (i : Nat) (call : LaneCall) (phase : LaneCallPhase) : CarrierRuntime :=
  { s with calls := s.calls.set i { call with phase } }

/-- `_select_slot` has chosen a lane out of those it has read. -/
def takeLane (i index : Nat) : Option CarrierRuntime :=
  match s.calls[i]? with
  | some ⟨request, .choosing slots⟩ =>
    (slots[index]?).map fun slot =>
      match s.slots.findIdx? fun other => decide (other = slot) with
      | some selected =>
        { s.setPhase i ⟨request, .choosing slots⟩ (.selected slot) with
          selectionCursor := (selected + 1) % s.slots.length }
      -- `list.index` raises
      | none => { s with calls := s.calls.eraseIdx i }
  | _ => none

/-- `_select_slot` without a candidate. -/
def openEscape (i : Nat) : Option CarrierRuntime :=
  match s.calls[i]? with
  | some ⟨request, .choosing slots⟩ =>
    some (s.newEscapeSlotLocked.setPhase i ⟨request, .choosing slots⟩
      (.selected (s.slotCounter + 1)))
  | _ => none

/-- A lane has moved; a generation it has created gets the next number. -/
def moveLane (slot : Nat) (lane : SlotState) : CarrierRuntime :=
  { s.setLane slot lane with
    generationIds :=
      if (s.lanes slot).generationCount < lane.generationCount then
        s.generationIds ++ [(slot, (s.lanes slot).generationCount)]
      else s.generationIds }

/-- The call asks its lane.  A pinned generation may refuse, and a lane whose control
    executor is shut down: the call ends there. -/
def reserve (i : Nat) : Option CarrierRuntime :=
  match s.calls[i]? with
  | some ⟨request, .selected slot⟩ =>
    ((s.lanes slot).step (request.event none)).map fun lane =>
      { s.moveLane slot lane with calls := s.calls.eraseIdx i }
  | some ⟨request, .pinned slot g⟩ =>
    ((s.lanes slot).step (request.event (some g))).map fun lane =>
      { s.moveLane slot lane with calls := s.calls.eraseIdx i }
  | _ => none

/-- The `finally` of `_run_generation`, which the worker of the lane comes to by `close` or by
    `exit`. -/
def leave (slot : Nat) (e : SlotEvent) : Option CarrierRuntime :=
  ((s.lanes slot).step e).map fun lane =>
    let becameIdle := lane.current.isNone && lane.next.isNone
    { s.moveLane slot lane with
      idling := if becameIdle ∧ slot ∈ s.onIdle then s.idling ++ [slot] else s.idling }

/-! ## 4. Snapshots -/

/-- `generation.generation_id`. -/
def generationId (slot g : Nat) : Nat := s.generationIds.idxOf (slot, g) + 1

/-- What a snapshot of a lane shows of one of its generations. -/
def shownId (slot : Nat) (generation : Option Nat) : Option Nat :=
  (generation.filter fun g => decide (((s.lanes slot).generations g).state ≠ .closed)).map
    (s.generationId slot)

/-- The running loops in a snapshot of a lane. -/
def loopCount (slot : Nat) : Nat :=
  ((s.lanes slot).current.toList ++ (s.lanes slot).next.toList).countP fun g =>
    ((s.lanes slot).generations g).running

end CarrierRuntime

/-- `_RuntimeSnapshot`, without the threads of the process. -/
structure RuntimeSnapshot where
  activeGenerationId : Option Nat
  queuedGenerationId : Option Nat
  activeLoopCount : Nat
  carrierLoopCount : Nat
  escapeLoopCount : Nat
  activeGenerationIds : List Nat
deriving DecidableEq, Repr

/-- `_RuntimeCarrier.snapshot`, taken while no lane moves. -/
def CarrierRuntime.snapshot (s : CarrierRuntime) : RuntimeSnapshot :=
  let lanes := s.slots ++ s.escapeSlots
  let activeIds := lanes.filterMap fun slot => s.shownId slot (s.lanes slot).current
  let queuedIds := lanes.filterMap fun slot => s.shownId slot (s.lanes slot).next
  { activeGenerationId := activeIds.head?
    queuedGenerationId := queuedIds.head?
    activeLoopCount := lanes.foldl (fun count slot => count + s.loopCount slot) 0
    carrierLoopCount := s.carrierLoopCount
    escapeLoopCount := s.escapeSlots.length
    activeGenerationIds := activeIds }

/-! ## 5. Events -/

/-- The steps of a lane in which the runtime has no part. -/
def SlotEvent.insideLane : SlotEvent → Bool
  | .submit _ _ _ _ | .acquireLease _ | .releaseLease _ | .close _ | .exit _ | .shutdown => false
  | _ => true

inductive RuntimeEvent where
  /-- `Stage.set_settings` has checked that the count is positive. -/
  | setCarrierLoopCount (count : Nat)
  | shutdownSlot (slot : Nat)
  /-- `_freeze_settings`, on the way into `_select_slot`. -/
  | select (request : LaneRequest)
  | readSlots (i : Nat)
  | takeLane (i index : Nat)
  | openEscape (i : Nat)
  /-- `_slot_for_generation`, for a pinned generation that the caller has. -/
  | pin (request : LaneRequest) (slot g : Nat)
  | reserve (i : Nat)
  | releaseLease (slot g : Nat)
  | lane (slot : Nat) (e : SlotEvent)
  | close (slot g : Nat)
  | exit (slot g : Nat)
  | escapeSlotIdle (slot : Nat)
deriving DecidableEq, Repr

namespace CarrierRuntime

def step (s : CarrierRuntime) : RuntimeEvent → Option CarrierRuntime
  | .setCarrierLoopCount count =>
    if 0 < count then
      match s.setCarrierLoopCount count with
      | .ok s' => some s'
      | .error _ => some s
    else none
  | .shutdownSlot slot =>
    if slot ∈ s.retired then
      ((s.lanes slot).step .shutdown).map fun lane =>
        { s.moveLane slot lane with retired := s.retired.erase slot }
    else none
  | .select request =>
    some { s with settingsFrozen := true, calls := s.calls ++ [⟨request, .selecting⟩] }
  | .readSlots i =>
    match s.calls[i]? with
    | some ⟨request, .selecting⟩ => some (s.setPhase i ⟨request, .selecting⟩ (.choosing s.slots))
    | _ => none
  | .takeLane i index => s.takeLane i index
  | .openEscape i => s.openEscape i
  | .pin request slot g =>
    if g < (s.lanes slot).generationCount then
      match s.slotForGeneration slot with
      | .ok found => some { s with calls := s.calls ++ [⟨request, .pinned found g⟩] }
      | .error _ => some s
    else none
  | .reserve i => s.reserve i
  | .releaseLease slot g =>
    match s.slotForGeneration slot with
    | .ok found => ((s.lanes found).step (.releaseLease g)).map (s.moveLane found)
    -- the error leaves `release_lease`, the reservation stays
    | .error _ => some s
  | .lane slot e =>
    if e.insideLane then ((s.lanes slot).step e).map (s.moveLane slot) else none
  | .close slot g => s.leave slot (.close g)
  | .exit slot g => s.leave slot (.exit g)
  | .escapeSlotIdle slot => if slot ∈ s.idling then some (s.escapeSlotIdle slot) else none

end CarrierRuntime

/-- All interleavings of the calls of the runtime, its lanes and their control workers. -/
def runtimeSystem : System CarrierRuntime RuntimeEvent where
  Init s := s = {}
  step := CarrierRuntime.step

end AgentlyStage
