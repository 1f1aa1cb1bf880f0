import AgentlyStage.Admission
import AgentlyStage.EpochCoherence
import AgentlyStage.StageHandle

/-!
# Submissions of a Stage

`Stage.go` for a scalar task and `StageHandle._register_callback`, each as one call from its first
line to its return or its exception.  Both retain work for a coroutine and hand it to a caller
loop (`_schedule_caller_runner`) or to the carrier (`_CarrierSlot.submit`), and both have to take
back what they have done when that fails.

What a call finds outside the Stage is its argument: the loops, at every look at them, and the
answers of the carrier.  A lease that is held keeps its slot in the pool, so that
`_slot_for_generation` finds it.
-/

namespace AgentlyStage

/-! ## 1. State -/

/-- What a call finds outside the Stage, in the order in which it looks. -/
structure SubmissionSite (ε : Type) where
  call : CallSite
  /-- The generation of a lease that the call acquires. -/
  leaseGeneration : Nat := 0
  /-- The two looks of `_submit_callback_drain_locked` at the owner loop. -/
  loopRuns : Bool := true
  loopStillRuns : Bool := true
  /-- `_CarrierSlot.submit` raises. -/
  refusal : Option StageError := none
  /-- The generation it selects for a Stage without a lease. -/
  generation : Nat := 0
  /-- `call_soon_threadsafe` finds the loop closed. -/
  closedAtPost : Bool := false
  /-- `loop.is_closed() or not loop.is_running()` in the `except` clause. -/
  unavailable : Bool := false
  closedAtRetry : Bool := false
  /-- `loop.create_task` raises in a `start` that runs at once. -/
  createError : Option ε := none
  /-- The owner task is there and its loop is closed when `go` cancels its new handle. -/
  closedAtCancel : Bool := false

inductive SubmissionTarget where
  | loop (loop : Nat)
  | generation (generation : Nat)
deriving DecidableEq, Repr

/-- A Stage with its handles, and what it holds of the carrier. -/
structure SubmissionState (ρ ε : Type) where
  epoch : EpochState
  permits : RootPermits
  records : Nat → StageHandle ρ ε := fun _ => {}
  /-- The generation of each lease. -/
  leased : Nat → Nat := fun _ => 0
  /-- What the Stage has reserved of each generation. -/
  reservations : Nat → Nat := fun _ => 0
  /-- History: the handles whose work has been handed over. -/
  handed : List (Nat × SubmissionTarget) := []

/-- How `_schedule_caller_runner` hands `start` over. -/
inductive Posting where
  /-- On the loop itself it runs at once. -/
  | inline
  | posted
  | unavailable
  /-- The second `call_soon_threadsafe` raises as well. -/
  | closed
deriving DecidableEq, Repr

/-- `get_running_loop` raises where no loop runs, as `call_soon_threadsafe` does for a closed
    loop: both come into the same `except` clause. -/
def SubmissionSite.posting {ε : Type} (site : SubmissionSite ε) (loop : Nat) : Posting :=
  if site.call.runningLoop = some loop then .inline
  else if site.call.runningLoop.isSome && !site.closedAtPost then .posted
  else if site.unavailable then .unavailable
  else if site.closedAtRetry then .closed
  else .posted

namespace SubmissionState

variable {ρ ε : Type} (s : SubmissionState ρ ε)

/-! ## 2. Work -/

def setRecord (h : Nat) (record : StageHandle ρ ε) : SubmissionState ρ ε :=
  { s with records := Function.update s.records h record }

def retainWork (h : Nat) : SubmissionState ρ ε := s.setRecord h (s.records h).retainWork

def finishAdmission (admission : Option AdmissionRef) : SubmissionState ρ ε :=
  { s with permits := s.permits.finishAdmission admission }

/-- `_handle_quiescent`: the lease goes back when nothing is active any more. -/
def handleQuiescent (h : Nat) : SubmissionState ρ ε :=
  let epoch := s.epoch.handleQuiescent h
  match s.epoch.generationLease, epoch.generationLease with
  | some lease, none =>
    { s with
      epoch := { epoch with
        releasing := epoch.releasing.erase lease
        released := epoch.released ++ [lease] }
      reservations := Function.update s.reservations (s.leased lease)
        (s.reservations (s.leased lease) - 1) }
  | _, _ => { s with epoch := epoch }

/-- `_release_work` with the notification of the Stage. -/
def releaseWork (h : Nat) : SubmissionState ρ ε :=
  let s' := s.setRecord h (s.records h).releaseWork
  if (s.records h).pendingWork = 1 then s'.handleQuiescent h else s'

/-- The epoch that the call goes on with; a lease that it has acquired reserves a generation. -/
def enterEpoch (epoch : EpochState) (site : SubmissionSite ε) : SubmissionState ρ ε :=
  if epoch.leaseCount = s.epoch.leaseCount then { s with epoch := epoch }
  else
    { s with
      epoch := epoch
      leased := Function.update s.leased s.epoch.leaseCount site.leaseGeneration
      reservations := Function.update s.reservations site.leaseGeneration
        (s.reservations site.leaseGeneration + 1) }

/-! ## 3. Handing over -/

def hand (h : Nat) (target : SubmissionTarget) (record : StageHandle ρ ε) : SubmissionState ρ ε :=
  { s.setRecord h record with handed := s.handed ++ [(h, target)] }

/-- `_schedule_caller_runner`, with what `start` does at once and what it leaves when posted. -/
def scheduleCallerRunner (h loop : Nat) (site : SubmissionSite ε)
    (start : SubmissionState ρ ε → SubmissionState ρ ε)
    (post : StageHandle ρ ε → StageHandle ρ ε) : SubmissionState ρ ε × Option StageError :=
  let retained := s.retainWork h
  match site.posting loop with
  | .inline => (start (retained.hand h (.loop loop) (post (retained.records h))), none)
  | .posted => (retained.hand h (.loop loop) (post (retained.records h)), none)
  | .unavailable =>
    (retained.releaseWork h,
      some (.stageLifecycle "The selected caller event loop is unavailable"))
  | .closed => (retained, some (.runtimeError "Event loop is closed"))

/-- The generation that `_CarrierSlot.submit` reserves: the pinned one, if there is a lease. -/
def submitGeneration (site : SubmissionSite ε) : Nat :=
  match s.epoch.generationLease with
  | some lease => s.leased lease
  | none => site.generation

/-- `_CarrierSlot.submit`. -/
def submit (h : Nat) (site : SubmissionSite ε) (post : StageHandle ρ ε → StageHandle ρ ε) :
    SubmissionState ρ ε × Option StageError :=
  let retained := s.retainWork h
  match site.refusal with
  | some error => (retained.releaseWork h, some error)
  | none =>
    let g := s.submitGeneration site
    ({ retained.hand h (.generation g) (post (retained.records h)) with
      reservations := Function.update s.reservations g (s.reservations g + 1) }, none)

/-! ## 4. `go` -/

def postOwner (record : StageHandle ρ ε) : StageHandle ρ ε := { record with owner := .posted }

/-- `start` of an owner task, at once. -/
def startOwner (h loop : Nat) (admission : Option AdmissionRef) (site : SubmissionSite ε) :
    SubmissionState ρ ε :=
  match site.createError with
  | none =>
    { s.setRecord h { s.records h with owner := .body, ownerLoop := some loop } with
      epoch := s.epoch.setOwnerTask h }
  | some error =>
    ((s.setRecord h { ((s.records h).setBodyException error).1 with
      owner := .failed }).finishAdmission admission).releaseWork h

/-- `_new_handle_locked`, with the initial callbacks. -/
def newHandleLocked (site : SubmissionSite ε) (initial : List CallbackKind) :
    Except StageError ((BackendKind × Option Nat) × SubmissionState ρ ε) :=
  match s.epoch.resolveBackendLocked site.call with
  | .error error => .error error
  | .ok ((backend, loop), epoch) =>
    .ok ((backend, loop),
      { s.enterEpoch epoch site with
        epoch := EpochState.touchLocked
          { epoch with
            handles := epoch.handles ++ [{ backendKind := backend, loop := loop }]
            activeHandles := insert epoch.handles.length epoch.activeHandles }
        records := Function.update s.records epoch.handles.length
          (initial.foldl StageHandle.registerInitialCallback {}) })

/-- The submission of the body. -/
def submitBody (h : Nat) (selected : BackendKind × Option Nat) (admission : Option AdmissionRef)
    (site : SubmissionSite ε) : SubmissionState ρ ε × Option StageError :=
  match selected with
  | (.stage, _) => s.submit h site postOwner
  | (.caller, none) =>
    (s, some (.stageLifecycle "Caller-loop Stage has no selected event loop"))
  | (.caller, some loop) =>
    s.scheduleCallerRunner h loop site (fun s => s.startOwner h loop admission site) postOwner

/-- Scalar `go`. -/
def go (site : SubmissionSite ε) (initial : List CallbackKind) :
    SubmissionState ρ ε × Option StageError :=
  if s.epoch.callAllowed site.call then
    match s.permits.admitRootLocked site.call.owned with
    | .error error => (s, some error)
    | .ok (admission, permits) =>
      let admitted : SubmissionState ρ ε := { s with permits := permits }
      match admitted.newHandleLocked site initial with
      | .error error => (admitted.finishAdmission admission, some error)
      | .ok (selected, entered) =>
        match entered.submitBody s.epoch.handles.length selected admission site with
        | (s', some error) =>
          -- without a loop `go` raises outside of its `try`
          (if selected = (.caller, none) then s' else s'.finishAdmission admission, some error)
        | (s', none) =>
          -- `handle.cancel` of a Stage that is being cancelled
          if s.epoch.cancelling && site.closedAtCancel &&
              !(s'.records s.epoch.handles.length).bodyCompleted then
            (s', some (.runtimeError "Event loop is closed"))
          else (s', none)
  else (s, some (.stageClosed "Cannot submit work to a sealed Stage scope"))

/-! ## 5. Late callbacks -/

def postDrain (record : StageHandle ρ ε) : StageHandle ρ ε :=
  { record with drains := record.drains ++ [.posted] }

/-- `start` of a drain, at once. -/
def startDrain (h : Nat) (site : SubmissionSite ε) : SubmissionState ρ ε :=
  match site.createError with
  | none =>
    s.setRecord h { s.records h with drains := (s.records h).drains.dropLast ++ [.created] }
  | some error =>
    (s.setRecord h { (s.records h).recordSettlementError error with
      drains := (s.records h).drains.dropLast ++ [.released] }).releaseWork h

/-- `_submit_callback_drain_locked`, once the handle is active. -/
def submitActiveDrain (h : Nat) (handle : EpochHandle) (site : SubmissionSite ε) :
    SubmissionState ρ ε × Option StageError :=
  match handle.backendKind, handle.ownerLoop with
  | .stage, _ => s.submit h site postDrain
  | .caller, some loop =>
    if site.loopStillRuns then
      s.scheduleCallerRunner h loop site (fun s => s.startDrain h site) postDrain
    else (s, some (.stageLifecycle "Stage callback owner loop is unavailable"))
  | .caller, none => (s, some (.stageLifecycle "Stage callback owner loop is unavailable"))

/-- `_submit_callback_drain_locked`. -/
def submitCallbackDrainLocked (h : Nat) (handle : EpochHandle) (site : SubmissionSite ε) :
    SubmissionState ρ ε × Option StageError :=
  match s.epoch.lateEpoch site.call handle site.loopRuns with
  | (epoch, some error) => ({ s with epoch := epoch }, some error)
  | (epoch, none) =>
    submitActiveDrain
      { s.enterEpoch epoch site with
        epoch := { epoch with activeHandles := insert h epoch.activeHandles } } h handle site

/-- The callback has to start a drain. -/
def startsDrain (record : StageHandle ρ ε) : Bool :=
  record.bodyCompleted && !record.callbackDrainActive

/-- `_register_callback`. -/
def registerCallback (h : Nat) (handle : EpochHandle) (kind : CallbackKind)
    (site : SubmissionSite ε) : SubmissionState ρ ε × Option StageError :=
  if s.epoch.callAllowed site.call then
    let registered := s.setRecord h ((s.records h).registerCallback kind)
    if startsDrain (s.records h) then
      match registered.submitCallbackDrainLocked h handle site with
      | (s', none) =>
        (s'.setRecord h ((s'.records h).finishRegistration ⟨kind, (s.records h).appended⟩), none)
      | (s', some error) => (s'.setRecord h (s'.records h).rollBack, some error)
    else (registered, none)
  else (s, some (.stageClosed "Cannot register a callback after Stage scope close"))

end SubmissionState

namespace SubmissionState

variable {ρ ε : Type} {s s' : SubmissionState ρ ε} {h k : Nat}

/-! ## 6. Reading the operations -/

@[simp] theorem records_setRecord (s : SubmissionState ρ ε) (h k : Nat)
    (record : StageHandle ρ ε) :
    (s.setRecord h record).records k = if k = h then record else s.records k :=
  Function.update_apply s.records h record k

/-- What a late registration may not change of a handle. -/
structure SameRecord (record record' : StageHandle ρ ε) : Prop where
  callbacks : record'.callbacks = record.callbacks
  callbackDrainActive : record'.callbackDrainActive = record.callbackDrainActive
  pendingWork : record'.pendingWork = record.pendingWork

theorem SameRecord.refl (record : StageHandle ρ ε) : SameRecord record record :=
  ⟨rfl, rfl, rfl⟩

theorem SameRecord.trans {record record' record'' : StageHandle ρ ε}
    (h : SameRecord record record') (h' : SameRecord record' record'') :
    SameRecord record record'' :=
  ⟨h'.callbacks.trans h.callbacks, h'.callbackDrainActive.trans h.callbackDrainActive,
    h'.pendingWork.trans h.pendingWork⟩

theorem pendingWork_retainWork (record : StageHandle ρ ε) :
    record.retainWork.pendingWork = record.pendingWork + 1 := rfl

/-- Work that is retained and released again. -/
theorem sameRecord_retain_release (record : StageHandle ρ ε) :
    SameRecord record record.retainWork.releaseWork := by
  have hpos : record.retainWork.pendingWork ≠ 0 := by
    rw [pendingWork_retainWork]
    exact Nat.succ_ne_zero _
  unfold StageHandle.releaseWork
  rw [if_neg hpos]
  exact ⟨rfl, rfl, rfl⟩

/-- The epoch without the handle. -/
def withoutHandle (s : SubmissionState ρ ε) (h : Nat) : EpochState :=
  { s.epoch with activeHandles := s.epoch.activeHandles.erase h }

/-- Something else is active: only the handle goes. -/
theorem handleQuiescent_of_active
    (hactive : (s.withoutHandle h).hasActiveWorkLocked = true) :
    s.handleQuiescent h = { s with epoch := s.withoutHandle h } := by
  have hepoch : s.epoch.handleQuiescent h = s.withoutHandle h := by
    unfold EpochState.handleQuiescent EpochState.releaseBackendIfQuiescentLocked
    exact if_pos hactive
  unfold handleQuiescent
  rw [hepoch]
  cases hlease : s.epoch.generationLease with
  | none => rfl
  | some lease =>
    simp only [show (s.withoutHandle h).generationLease = some lease from hlease]

/-- The reservations without the one of the lease. -/
def otherReservations (s : SubmissionState ρ ε) : Nat → Nat :=
  match s.epoch.generationLease with
  | some lease =>
    Function.update s.reservations (s.leased lease) (s.reservations (s.leased lease) - 1)
  | none => s.reservations

/-- Nothing else is active: the Stage is unbound and its lease given back. -/
structure Unbound (s : SubmissionState ρ ε) (h : Nat) (s' : SubmissionState ρ ε) : Prop where
  activeHandles : s'.epoch.activeHandles = s.epoch.activeHandles.erase h
  adoptedTasks : s'.epoch.adoptedTasks = s.epoch.adoptedTasks
  activeBackend : s'.epoch.activeBackend = none
  activeLoop : s'.epoch.activeLoop = none
  generationLease : s'.epoch.generationLease = none
  blockedGenerationIds : s'.epoch.blockedGenerationIds = []
  reservations : s'.reservations = s.otherReservations
  records : s'.records = s.records
  permits : s'.permits = s.permits

theorem handleQuiescent_of_idle
    (hidle : (s.withoutHandle h).hasActiveWorkLocked = false) :
    Unbound s h (s.handleQuiescent h) := by
  have hepoch : s.epoch.handleQuiescent h = { s.withoutHandle h with
      idleTimer := none
      idleTimerToken := s.epoch.idleTimerToken + 1
      timers := s.epoch.cancelTimer
      releasing := s.epoch.releasing ++ s.epoch.generationLease.toList
      generationLease := none
      blockedGenerationIds := []
      activeBackend := none
      activeLoop := none
      cancelling := false } := by
    unfold EpochState.handleQuiescent EpochState.releaseBackendIfQuiescentLocked
    exact if_neg (Bool.eq_false_iff.mp hidle)
  unfold handleQuiescent
  rw [hepoch]
  cases hlease : s.epoch.generationLease with
  | none => exact ⟨rfl, rfl, rfl, rfl, rfl, rfl, by rw [otherReservations, hlease], rfl, rfl⟩
  | some lease => exact ⟨rfl, rfl, rfl, rfl, rfl, rfl, by rw [otherReservations, hlease], rfl, rfl⟩

theorem releaseWork_of_pending (hpending : (s.records h).pendingWork ≠ 1) :
    s.releaseWork h = s.setRecord h (s.records h).releaseWork := by
  unfold releaseWork
  exact if_neg hpending

theorem releaseWork_of_last (hlast : (s.records h).pendingWork = 1) :
    s.releaseWork h = (s.setRecord h (s.records h).releaseWork).handleQuiescent h := by
  unfold releaseWork
  exact if_pos hlast

/-- Other handles keep their work, and this one what it had. -/
theorem retained_released (s : SubmissionState ρ ε) (h k : Nat) :
    SameRecord (s.records k) (((s.retainWork h).releaseWork h).records k) := by
  have hset : SameRecord (s.records k)
      (((s.retainWork h).setRecord h ((s.retainWork h).records h).releaseWork).records k) := by
    rw [records_setRecord]
    split
    · rename_i hk
      rw [retainWork, records_setRecord, if_pos rfl, hk]
      exact sameRecord_retain_release _
    · rename_i hk
      rw [retainWork, records_setRecord, if_neg hk]
      exact .refl _
  unfold releaseWork
  dsimp only
  split
  · cases hactive : EpochState.hasActiveWorkLocked (withoutHandle
      ((s.retainWork h).setRecord h ((s.retainWork h).records h).releaseWork) h) with
    | true =>
      rw [handleQuiescent_of_active hactive]
      exact hset
    | false =>
      rw [(handleQuiescent_of_idle hactive).records]
      exact hset
  · exact hset

/-! ## 7. Entering an epoch -/

structure SameBinding (s s' : SubmissionState ρ ε) : Prop where
  activeBackend : s'.epoch.activeBackend = s.epoch.activeBackend
  activeLoop : s'.epoch.activeLoop = s.epoch.activeLoop
  generationLease : s'.epoch.generationLease = s.epoch.generationLease
  blockedGenerationIds : s'.epoch.blockedGenerationIds = s.epoch.blockedGenerationIds
  reservations : s'.reservations = s.reservations

theorem SameBinding.refl (s : SubmissionState ρ ε) : SameBinding s s := ⟨rfl, rfl, rfl, rfl, rfl⟩

theorem SameBinding.trans {s s' s'' : SubmissionState ρ ε} (h : SameBinding s s')
    (h' : SameBinding s' s'') : SameBinding s s'' :=
  ⟨h'.activeBackend.trans h.activeBackend, h'.activeLoop.trans h.activeLoop,
    h'.generationLease.trans h.generationLease,
    h'.blockedGenerationIds.trans h.blockedGenerationIds, h'.reservations.trans h.reservations⟩

/-- The handle has been added to the active ones, in the epoch of the Stage or in a new one. -/
structure Entered (s : SubmissionState ρ ε) (h : Nat) (s' : SubmissionState ρ ε) : Prop where
  activeHandles : s'.epoch.activeHandles = insert h s.epoch.activeHandles
  adoptedTasks : s'.epoch.adoptedTasks = s.epoch.adoptedTasks
  bound : s'.epoch.activeBackend ≠ none
  joins : s.epoch.activeBackend ≠ none → SameBinding s s'
  binds : s.epoch.activeBackend = none → s'.otherReservations = s.reservations

/-- The three epochs that a call can go on with. -/
def Enters (epoch epoch' : EpochState) (site : CallSite) : Prop :=
  (epoch.activeBackend ≠ none ∧ epoch' = epoch) ∨
    (epoch.activeBackend = none ∧ ∃ loop, epoch' = epoch.bindCaller loop) ∨
    (epoch.activeBackend = none ∧ epoch' = epoch.bindStage site.blockedGenerationIds)

/-- What is added to an epoch that a call has entered. -/
theorem Entered.of_enters {epoch epoch' : EpochState} {site : SubmissionSite ε}
    (henters : Enters s.epoch epoch site.call)
    (hunbound : s.epoch.activeBackend = none → s.epoch.generationLease = none)
    (hepoch : epoch'.activeHandles = insert h epoch.activeHandles ∧
      epoch'.adoptedTasks = epoch.adoptedTasks ∧ epoch'.activeBackend = epoch.activeBackend ∧
      epoch'.activeLoop = epoch.activeLoop ∧ epoch'.generationLease = epoch.generationLease ∧
      epoch'.blockedGenerationIds = epoch.blockedGenerationIds)
    (records : Nat → StageHandle ρ ε) :
    Entered s h { s.enterEpoch epoch site with epoch := epoch', records := records } := by
  obtain ⟨hactive, htasks, hbackend, hloop, hlease, hblocked⟩ := hepoch
  rcases henters with ⟨hbound, rfl⟩ | ⟨hnone, loop, rfl⟩ | ⟨hnone, rfl⟩
  · have hsame : s.enterEpoch s.epoch site = s := if_pos rfl
    rw [hsame]
    exact ⟨hactive, htasks, hbackend ▸ hbound,
      fun _ => ⟨hbackend, hloop, hlease, hblocked, rfl⟩, fun hnone => absurd hnone hbound⟩
  · have hsame : s.enterEpoch (s.epoch.bindCaller loop) site =
        { s with epoch := s.epoch.bindCaller loop } := if_pos rfl
    rw [hsame]
    refine ⟨hactive, htasks, ?_, fun hbound => absurd hnone hbound, fun _ => ?_⟩
    · rw [show epoch'.activeBackend = some .caller from hbackend]
      exact nofun
    · rw [otherReservations, show epoch'.generationLease = none from hlease.trans (hunbound hnone)]
  · have hgrown : (s.epoch.bindStage site.call.blockedGenerationIds).leaseCount ≠
        s.epoch.leaseCount := Nat.succ_ne_self _
    have hnew : s.enterEpoch (s.epoch.bindStage site.call.blockedGenerationIds) site =
        { s with
          epoch := s.epoch.bindStage site.call.blockedGenerationIds
          leased := Function.update s.leased s.epoch.leaseCount site.leaseGeneration
          reservations := Function.update s.reservations site.leaseGeneration
            (s.reservations site.leaseGeneration + 1) } := if_neg hgrown
    rw [hnew]
    refine ⟨hactive, htasks, ?_, fun hbound => absurd hnone hbound, fun _ => ?_⟩
    · rw [show epoch'.activeBackend = some .stage from hbackend]
      exact nofun
    · -- the lease that is given back is the one that has just been acquired
      rw [otherReservations, show epoch'.generationLease = some s.epoch.leaseCount from hlease]
      simp only [Function.update_self, Function.update_idem, Nat.add_sub_cancel,
        Function.update_eq_self]

theorem Entered.setRecord (he : Entered s h s') (k : Nat) (record : StageHandle ρ ε) :
    Entered s h (s'.setRecord k record) := by
  obtain ⟨hactive, htasks, hbound, hjoins, hbinds⟩ := he
  refine ⟨hactive, htasks, hbound, fun hne => ?_, hbinds⟩
  obtain ⟨hbackend, hloop, hlease, hblocked, hres⟩ := hjoins hne
  exact ⟨hbackend, hloop, hlease, hblocked, hres⟩

/-- What is active besides the handle. -/
theorem Entered.active_without (he : Entered s h s') (hmem : h ∉ s.epoch.activeHandles) :
    (s'.withoutHandle h).activeHandles = s.epoch.activeHandles ∧
      (s'.withoutHandle h).hasActiveWorkLocked = s.epoch.hasActiveWorkLocked := by
  have hhandles : (s'.withoutHandle h).activeHandles = s.epoch.activeHandles := by
    change s'.epoch.activeHandles.erase h = _
    rw [he.activeHandles, Finset.erase_insert hmem]
  refine ⟨hhandles, ?_⟩
  rw [EpochState.hasActiveWorkLocked, hhandles, EpochState.hasActiveWorkLocked,
    show (s'.withoutHandle h).adoptedTasks = s.epoch.adoptedTasks from he.adoptedTasks]

/-- The work of a new active handle is retained and released again: the handle goes, and an epoch
    that nothing else keeps ends. -/
structure Released (s : SubmissionState ρ ε) (s' : SubmissionState ρ ε) : Prop where
  activeHandles : s'.epoch.activeHandles = s.epoch.activeHandles
  adoptedTasks : s'.epoch.adoptedTasks = s.epoch.adoptedTasks
  kept : s.epoch.activeBackend ≠ none → s.epoch.hasActiveWorkLocked = true → SameBinding s s'
  ended : s.epoch.hasActiveWorkLocked = false → s'.epoch.activeBackend = none ∧
    s'.epoch.activeLoop = none ∧ s'.epoch.generationLease = none ∧
    s'.epoch.blockedGenerationIds = []
  reservations : s.epoch.generationLease = none → s.epoch.hasActiveWorkLocked = false →
    s'.reservations = s.reservations

theorem Entered.released (he : Entered s h s') (hmem : h ∉ s.epoch.activeHandles)
    (hzero : (s'.records h).pendingWork = 0) :
    Released s ((s'.retainWork h).releaseWork h) ∧
      ((s'.retainWork h).releaseWork h).permits = s'.permits := by
  have hlast : ((s'.retainWork h).records h).pendingWork = 1 := by
    rw [retainWork, records_setRecord, if_pos rfl, pendingWork_retainWork, hzero]
  rw [releaseWork_of_last hlast]
  have he' : Entered s h ((s'.retainWork h).setRecord h
      ((s'.retainWork h).records h).releaseWork) := (he.setRecord h _).setRecord h _
  obtain ⟨hhandles, hwork⟩ := he'.active_without hmem
  cases hactive : s.epoch.hasActiveWorkLocked with
  | true =>
    rw [handleQuiescent_of_active (hwork.trans hactive)]
    refine ⟨⟨hhandles, he'.adoptedTasks, fun hne _ => ?_, fun hidle => ?_, fun _ hidle => ?_⟩, rfl⟩
    · obtain ⟨hbackend, hloop, hlease, hblocked, hres⟩ := he'.joins hne
      exact ⟨hbackend, hloop, hlease, hblocked, hres⟩
    · exact nomatch hactive.symm.trans hidle
    · exact nomatch hactive.symm.trans hidle
  | false =>
    have hu := handleQuiescent_of_idle (hwork.trans hactive)
    refine ⟨⟨hu.activeHandles.trans hhandles, hu.adoptedTasks.trans he'.adoptedTasks,
      fun _ hbusy => ?_, fun _ => ⟨hu.activeBackend, hu.activeLoop, hu.generationLease,
        hu.blockedGenerationIds⟩, fun hlease _ => ?_⟩, hu.permits⟩
    · exact nomatch hactive.symm.trans hbusy
    · rw [hu.reservations]
      by_cases hnone : s.epoch.activeBackend = none
      · exact he'.binds hnone
      · -- an epoch without a lease has nothing to give back
        have hjoins := he'.joins hnone
        rw [otherReservations, hjoins.generationLease, hlease]
        exact hjoins.reservations

end SubmissionState

end AgentlyStage
