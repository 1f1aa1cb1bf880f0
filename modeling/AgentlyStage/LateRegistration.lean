import AgentlyStage.Submission

/-!
# Late registrations that fail

`_register_callback` on a handle whose body is over starts a drain, and takes its callback out of
the deque again when `_submit_callback_drain_locked` raises.  What that function has written to the
Stage by then stays, unless the release of the work that it had retained takes it back.
-/

namespace AgentlyStage

open Transition

/-- Where `_register_callback` raises. -/
inductive LateFailure where
  /-- Before anything is written. -/
  | refused
  /-- `acquire_lease`, after the backend of the new epoch has been set. -/
  | lease
  /-- The second look at the owner loop. -/
  | loopStopped
  /-- The submission, which has released its work. -/
  | released
  /-- The second `call_soon_threadsafe`, with the work retained. -/
  | leaked
deriving DecidableEq, Repr

namespace SubmissionSite

variable {ε : Type}

/-- The start of a drain for a handle that has been added to the active ones. -/
def drainFailure (site : SubmissionSite ε) (handle : EpochHandle) : Option LateFailure :=
  match handle.backendKind, handle.ownerLoop with
  | .stage, _ => if site.refusal.isSome then some .released else none
  | .caller, none => some .loopStopped
  | .caller, some loop =>
    if site.loopStillRuns then
      match site.posting loop with
      | .inline | .posted => none
      | .unavailable => some .released
      | .closed => some .leaked
    else some .loopStopped

end SubmissionSite

namespace SubmissionState

variable {ρ ε : Type} {s s' : SubmissionState ρ ε} {h : Nat} {handle : EpochHandle}
  {kind : CallbackKind} {site : SubmissionSite ε}

/-- Where the registration raises, if it does. -/
def lateFailure (s : SubmissionState ρ ε) (h : Nat) (handle : EpochHandle)
    (site : SubmissionSite ε) : Option LateFailure :=
  if !s.epoch.callAllowed site.call then some .refused
  else if !startsDrain (s.records h) then none
  else
    match s.epoch.activeBackend, handle.backendKind with
    | none, .caller =>
      if handle.ownerLoop.isSome && site.loopRuns then site.drainFailure handle
      else some .refused
    | none, .stage =>
      if site.call.leaseError.isSome then some .lease else site.drainFailure handle
    | some backend, kind =>
      if backend ≠ kind ∨ (backend = .caller ∧ s.epoch.activeLoop ≠ handle.ownerLoop) then
        some .refused
      else site.drainFailure handle

/-- The failures that leave everything as it was. -/
def failsClean (s : SubmissionState ρ ε) (h : Nat) : LateFailure → Bool
  | .refused => true
  | .lease | .leaked => false
  | .loopStopped => decide (h ∈ s.epoch.activeHandles)
  | .released =>
    if (s.records h).pendingWork = 0 then
      decide (h ∉ s.epoch.activeHandles) &&
        (s.epoch.activeBackend.isNone || s.epoch.hasActiveWorkLocked)
    else decide (h ∈ s.epoch.activeHandles)

/-- The handles and the Stage are as before the call. -/
structure Unchanged (s s' : SubmissionState ρ ε) : Prop where
  records : ∀ k, SameRecord (s.records k) (s'.records k)
  activeHandles : s'.epoch.activeHandles = s.epoch.activeHandles
  adoptedTasks : s'.epoch.adoptedTasks = s.epoch.adoptedTasks
  binding : SameBinding s s'

theorem Unchanged.refl (s : SubmissionState ρ ε) : Unchanged s s :=
  ⟨fun _ => .refl _, rfl, rfl, .refl s⟩

/-! ## 1. The record of the handle -/

theorem startsDrain_iff {record : StageHandle ρ ε} :
    startsDrain record = true ↔
      record.bodyCompleted = true ∧ record.callbackDrainActive = false := by
  rw [startsDrain, Bool.and_eq_true, Bool.not_eq_true']

/-- What a registration that starts a drain writes to the record. -/
theorem registerCallback_record {record : StageHandle ρ ε} (hstarts : startsDrain record = true)
    (kind : CallbackKind) :
    (record.registerCallback kind).callbacks = record.callbacks ++ [⟨kind, record.appended⟩] ∧
      (record.registerCallback kind).pendingWork = record.pendingWork := by
  obtain ⟨hcompleted, hidle⟩ := startsDrain_iff.mp hstarts
  unfold StageHandle.registerCallback
  simp [hcompleted, StageHandle.activateCallbackDrainLocked, StageHandle.appendCallback, hidle]

/-- The state in which the drain is submitted. -/
def registered (s : SubmissionState ρ ε) (h : Nat) (kind : CallbackKind) :
    SubmissionState ρ ε :=
  s.setRecord h ((s.records h).registerCallback kind)

/-- What the roll-back makes of the Stage's state after the failure. -/
theorem unchanged_rollBack_iff (hstarts : startsDrain (s.records h) = true) :
    Unchanged s (s'.setRecord h (s'.records h).rollBack) ↔
      (∀ k, k ≠ h → SameRecord (s.records k) (s'.records k)) ∧
        (s'.records h).pendingWork = (s.records h).pendingWork ∧
        (s'.records h).callbacks.dropLast = (s.records h).callbacks ∧
        s'.epoch.activeHandles = s.epoch.activeHandles ∧
        s'.epoch.adoptedTasks = s.epoch.adoptedTasks ∧ SameBinding s s' := by
  constructor
  · intro hu
    have hrecord := hu.records h
    rw [records_setRecord, if_pos rfl] at hrecord
    refine ⟨fun k hk => ?_, hrecord.pendingWork, hrecord.callbacks, hu.activeHandles,
      hu.adoptedTasks, ?_⟩
    · have hother := hu.records k
      rw [records_setRecord, if_neg hk] at hother
      exact hother
    · obtain ⟨hbackend, hloop, hlease, hblocked, hres⟩ := hu.binding
      exact ⟨hbackend, hloop, hlease, hblocked, hres⟩
  · rintro ⟨hother, hpending, hcallbacks, hactive, htasks, hbinding⟩
    refine ⟨fun k => ?_, hactive, htasks, ?_⟩
    · rw [records_setRecord]
      split
      · rename_i hk
        rw [hk]
        exact ⟨hcallbacks, (startsDrain_iff.mp hstarts).2.symm, hpending⟩
      · rename_i hk
        exact hother k hk
    · obtain ⟨hbackend, hloop, hlease, hblocked, hres⟩ := hbinding
      exact ⟨hbackend, hloop, hlease, hblocked, hres⟩

/-! ## 2. The submission of the drain -/

theorem submitActiveDrain_cases (s : SubmissionState ρ ε) (h : Nat) (handle : EpochHandle)
    (site : SubmissionSite ε) :
    (site.drainFailure handle = none ∧ (s.submitActiveDrain h handle site).2 = none) ∨
    ∃ error, (site.drainFailure handle = some .loopStopped ∧
        s.submitActiveDrain h handle site = (s, some error)) ∨
      (site.drainFailure handle = some .released ∧
        s.submitActiveDrain h handle site = ((s.retainWork h).releaseWork h, some error)) ∨
      (site.drainFailure handle = some .leaked ∧
        s.submitActiveDrain h handle site = (s.retainWork h, some error)) := by
  obtain ⟨backendKind, selected, ownerLoop⟩ := handle
  cases backendKind with
  | stage =>
    simp only [SubmissionSite.drainFailure, submitActiveDrain, submit]
    cases hrefusal : site.refusal with
    | none => exact Or.inl ⟨rfl, rfl⟩
    | some error => exact Or.inr ⟨error, Or.inr (Or.inl ⟨rfl, rfl⟩)⟩
  | caller =>
    cases ownerLoop with
    | none => exact Or.inr ⟨_, Or.inl ⟨rfl, rfl⟩⟩
    | some loop =>
      simp only [SubmissionSite.drainFailure, submitActiveDrain]
      split
      · unfold scheduleCallerRunner
        cases hposting : site.posting loop with
        | inline => exact Or.inl ⟨rfl, rfl⟩
        | posted => exact Or.inl ⟨rfl, rfl⟩
        | unavailable => exact Or.inr ⟨_, Or.inr (Or.inl ⟨rfl, rfl⟩)⟩
        | closed => exact Or.inr ⟨_, Or.inr (Or.inr ⟨rfl, rfl⟩)⟩
      · exact Or.inr ⟨_, Or.inl ⟨rfl, rfl⟩⟩

/-- A late callback is refused before anything is written, fails to bind the stage backend, or
    its drain is submitted for a handle that has entered an epoch. -/
theorem submitCallbackDrainLocked_cases (handle : EpochHandle)
    (hallowed : s.epoch.callAllowed site.call = true)
    (hstarts : startsDrain (s.records h) = true)
    (hunbound : s.epoch.activeBackend = none → s.epoch.generationLease = none)
    (reg : SubmissionState ρ ε) (hreg : reg.epoch = s.epoch) :
    (s.lateFailure h handle site = some .refused ∧ ∃ error,
      reg.submitCallbackDrainLocked h handle site = (reg, some error)) ∨
    (s.lateFailure h handle site = some .lease ∧ s.epoch.activeBackend = none ∧ ∃ error,
      reg.submitCallbackDrainLocked h handle site = ({ reg with epoch := { s.epoch with
        activeBackend := some .stage, activeLoop := none } }, some error)) ∨
    (s.lateFailure h handle site = site.drainFailure handle ∧ ∃ entered, Entered reg h entered ∧
      entered.records = reg.records ∧
      reg.submitCallbackDrainLocked h handle site =
        entered.submitActiveDrain h handle site) := by
  have hjoin : ∀ epoch, Enters s.epoch epoch site.call →
      s.epoch.lateEpoch site.call handle site.loopRuns = (epoch, none) →
      ∃ entered, Entered reg h entered ∧ entered.records = reg.records ∧
        reg.submitCallbackDrainLocked h handle site =
          entered.submitActiveDrain h handle site := by
    intro epoch henters hlate
    refine ⟨{ reg.enterEpoch epoch site with
      epoch := { epoch with activeHandles := insert h epoch.activeHandles }
      records := reg.records }, ?_, rfl, ?_⟩
    · refine Entered.of_enters (hreg ▸ henters) (hreg ▸ hunbound) ?_ reg.records
      exact ⟨rfl, rfl, rfl, rfl, rfl, rfl⟩
    · have hrecords : (reg.enterEpoch epoch site).records = reg.records := by
        unfold enterEpoch
        split
        · rfl
        · rfl
      unfold submitCallbackDrainLocked
      rw [hreg, hlate]
      dsimp only
      congr 1
      rw [← hrecords]
  have hfail : ∀ epoch error,
      s.epoch.lateEpoch site.call handle site.loopRuns = (epoch, some error) →
      reg.submitCallbackDrainLocked h handle site = ({ reg with epoch := epoch }, some error) := by
    intro epoch error hlate
    unfold submitCallbackDrainLocked
    rw [hreg, hlate]
  have hsame : { reg with epoch := s.epoch } = reg := by rw [← hreg]
  have hstart : s.lateFailure h handle site =
      match s.epoch.activeBackend, handle.backendKind with
      | none, .caller =>
        if handle.ownerLoop.isSome && site.loopRuns then site.drainFailure handle
        else some .refused
      | none, .stage =>
        if site.call.leaseError.isSome then some .lease else site.drainFailure handle
      | some backend, kind =>
        if backend ≠ kind ∨ (backend = .caller ∧ s.epoch.activeLoop ≠ handle.ownerLoop) then
          some .refused
        else site.drainFailure handle := by
    simp [lateFailure, hallowed, hstarts]
  rw [hstart]
  cases hbackend : s.epoch.activeBackend with
  | none =>
    cases hkind : handle.backendKind with
    | caller =>
      dsimp only
      by_cases hloop : (handle.ownerLoop.isSome && site.loopRuns) = true
      · rw [if_pos hloop]
        refine Or.inr (Or.inr ⟨rfl, hjoin (s.epoch.bindCaller handle.ownerLoop)
          (Or.inr (Or.inl ⟨hbackend, _, rfl⟩)) ?_⟩)
        simp [EpochState.lateEpoch, hbackend, hkind, hloop]
      · rw [if_neg hloop]
        refine Or.inl ⟨rfl, _, (hfail s.epoch (.stageLifecycle
          "Stage callback owner loop is unavailable") ?_).trans (by rw [hsame])⟩
        simp [EpochState.lateEpoch, hbackend, hkind, hloop]
    | stage =>
      dsimp only
      cases hlease : site.call.leaseError with
      | none =>
        refine Or.inr (Or.inr ⟨rfl, hjoin (s.epoch.bindStage site.call.blockedGenerationIds)
          (Or.inr (Or.inr ⟨hbackend, rfl⟩)) ?_⟩)
        simp [EpochState.lateEpoch, hbackend, hkind, hlease]
      | some error =>
        refine Or.inr (Or.inl ⟨rfl, rfl, error, hfail _ error ?_⟩)
        simp [EpochState.lateEpoch, hbackend, hkind, hlease]
  | some backend =>
    dsimp only
    by_cases hcross : backend ≠ handle.backendKind ∨
        (backend = .caller ∧ s.epoch.activeLoop ≠ handle.ownerLoop)
    · rw [if_pos hcross]
      refine Or.inl ⟨rfl, _, (hfail s.epoch (.stageLifecycle
        "A late callback cannot cross the active Stage backend epoch") ?_).trans (by rw [hsame])⟩
      simp only [EpochState.lateEpoch, hbackend, if_pos hcross]
    · rw [if_neg hcross]
      refine Or.inr (Or.inr ⟨rfl, hjoin s.epoch (Or.inl ⟨?_, rfl⟩) ?_⟩)
      · rw [hbackend]
        intro heq
        cases heq
      · simp only [EpochState.lateEpoch, hbackend, if_neg hcross]

/-! ## 3. What each failure leaves -/

/-- In an epoch that was there before, only the handle is new. -/
theorem Entered.same_iff (hi : EpochState.EpochInv s.epoch) {reg entered : SubmissionState ρ ε}
    (hreg : reg.epoch = s.epoch) (hres : reg.reservations = s.reservations)
    (he : Entered reg h entered) (hafter : s'.epoch = entered.epoch)
    (hafter' : s'.reservations = entered.reservations) :
    (s'.epoch.activeHandles = s.epoch.activeHandles ∧
      s'.epoch.adoptedTasks = s.epoch.adoptedTasks ∧ SameBinding s s') ↔
      h ∈ s.epoch.activeHandles := by
  constructor
  · rintro ⟨hactive, -⟩
    rw [hafter, he.activeHandles, hreg] at hactive
    rw [← hactive]
    exact Finset.mem_insert_self _ _
  · intro hmem
    have hbound : reg.epoch.activeBackend ≠ none := by
      rw [hreg]
      intro hnone
      rw [(hi.bound.idle_of_unbound hnone).1] at hmem
      exact absurd hmem (Finset.notMem_empty h)
    obtain ⟨hbackend, hloop, hlease, hblocked, hreserved⟩ := he.joins hbound
    rw [hafter, he.activeHandles, he.adoptedTasks, hreg, Finset.insert_eq_of_mem hmem]
    refine ⟨rfl, rfl, ?_, ?_, ?_, ?_, ?_⟩
    · rw [hafter, hbackend, hreg]
    · rw [hafter, hloop, hreg]
    · rw [hafter, hlease, hreg]
    · rw [hafter, hblocked, hreg]
    · rw [hafter', hreserved, hres]

/-- The release of the only work takes the handle out of the active ones. -/
theorem not_mem_released {entered : SubmissionState ρ ε}
    (hzero : (entered.records h).pendingWork = 0) :
    h ∉ ((entered.retainWork h).releaseWork h).epoch.activeHandles := by
  have hlast : ((entered.retainWork h).records h).pendingWork = 1 := by
    rw [retainWork, records_setRecord, if_pos rfl, pendingWork_retainWork, hzero]
  rw [releaseWork_of_last hlast]
  cases hactive : EpochState.hasActiveWorkLocked (withoutHandle ((entered.retainWork h).setRecord h
      ((entered.retainWork h).records h).releaseWork) h) with
  | true =>
    rw [handleQuiescent_of_active hactive]
    exact Finset.notMem_erase _ _
  | false =>
    rw [(handleQuiescent_of_idle hactive).activeHandles]
    exact Finset.notMem_erase _ _

/-- A refused submission of a handle without work restores an epoch that other work keeps, and
    the unbound Stage. -/
theorem Entered.released_iff (hi : EpochState.EpochInv s.epoch)
    {reg entered : SubmissionState ρ ε} (hreg : reg.epoch = s.epoch)
    (hres : reg.reservations = s.reservations) (he : Entered reg h entered)
    (hzero : (entered.records h).pendingWork = 0)
    (hafter : s' = (entered.retainWork h).releaseWork h) :
    (s'.epoch.activeHandles = s.epoch.activeHandles ∧
      s'.epoch.adoptedTasks = s.epoch.adoptedTasks ∧ SameBinding s s') ↔
      h ∉ s.epoch.activeHandles ∧
        (s.epoch.activeBackend = none ∨ s.epoch.hasActiveWorkLocked = true) := by
  constructor
  · rintro ⟨hactive, -, hbinding⟩
    have hmem : h ∉ s.epoch.activeHandles := by
      rw [← hactive, hafter]
      exact not_mem_released hzero
    refine ⟨hmem, ?_⟩
    obtain ⟨hreleased, -⟩ := he.released (hreg ▸ hmem) hzero
    rw [← hafter] at hreleased
    cases hwork : s.epoch.hasActiveWorkLocked with
    | true => exact Or.inr rfl
    | false =>
      left
      rw [← hbinding.activeBackend]
      exact (hreleased.ended (hreg ▸ hwork)).1
  · rintro ⟨hmem, hcase⟩
    obtain ⟨hreleased, -⟩ := he.released (hreg ▸ hmem) hzero
    rw [← hafter] at hreleased
    refine ⟨hreleased.activeHandles.trans (congrArg _ hreg),
      hreleased.adoptedTasks.trans (congrArg _ hreg), ?_⟩
    have hsame : SameBinding s reg :=
      ⟨congrArg _ hreg, congrArg _ hreg, congrArg _ hreg, congrArg _ hreg, hres⟩
    by_cases hnone : s.epoch.activeBackend = none
    · obtain ⟨hhandles, htasks⟩ := hi.bound.idle_of_unbound hnone
      obtain ⟨hloop, hlease, hblocked⟩ := hi.bound.unbound hnone
      have hidle : reg.epoch.hasActiveWorkLocked = false := by
        rw [hreg]
        exact EpochState.hasActiveWorkLocked_eq_false.mpr ⟨hhandles, htasks⟩
      obtain ⟨hbackend', hloop', hlease', hblocked'⟩ := hreleased.ended hidle
      exact ⟨hbackend'.trans hnone.symm, hloop'.trans hloop.symm, hlease'.trans hlease.symm,
        hblocked'.trans hblocked.symm, (hreleased.reservations (hreg ▸ hlease) hidle).trans hres⟩
    · exact hsame.trans (hreleased.kept (hreg ▸ hnone) (hreg ▸ hcase.resolve_left hnone))

/-- Work that is not the only one of its handle leaves the Stage alone. -/
theorem released_pending {entered : SubmissionState ρ ε}
    (hpos : (entered.records h).pendingWork ≠ 0) :
    ((entered.retainWork h).releaseWork h).epoch = entered.epoch ∧
      ((entered.retainWork h).releaseWork h).reservations = entered.reservations := by
  have hmore : ((entered.retainWork h).records h).pendingWork ≠ 1 := by
    rw [retainWork, records_setRecord, if_pos rfl, pendingWork_retainWork]
    omega
  rw [releaseWork_of_pending hmore]
  exact ⟨rfl, rfl⟩

/-! ## 4. The registration -/

/-- What a failed submission of the drain leaves, before the callback is taken back. -/
inductive DrainFailed (s : SubmissionState ρ ε) (h : Nat) (kind : CallbackKind) :
    LateFailure → SubmissionState ρ ε → Prop
  | refused : DrainFailed s h kind .refused (s.registered h kind)
  | lease (hnone : s.epoch.activeBackend = none) :
    DrainFailed s h kind .lease { s.registered h kind with epoch := { s.epoch with
      activeBackend := some .stage, activeLoop := none } }
  | loopStopped {entered : SubmissionState ρ ε} (he : Entered (s.registered h kind) h entered)
    (hrecords : entered.records = (s.registered h kind).records) :
    DrainFailed s h kind .loopStopped entered
  | released {entered : SubmissionState ρ ε} (he : Entered (s.registered h kind) h entered)
    (hrecords : entered.records = (s.registered h kind).records) :
    DrainFailed s h kind .released ((entered.retainWork h).releaseWork h)
  | leaked {entered : SubmissionState ρ ε} (he : Entered (s.registered h kind) h entered)
    (hrecords : entered.records = (s.registered h kind).records) :
    DrainFailed s h kind .leaked (entered.retainWork h)

theorem submitCallbackDrainLocked_fails (hi : EpochState.EpochInv s.epoch) (handle : EpochHandle)
    (kind : CallbackKind) (hallowed : s.epoch.callAllowed site.call = true)
    (hstarts : startsDrain (s.records h) = true) :
    (s.lateFailure h handle site = none ∧
      ((s.registered h kind).submitCallbackDrainLocked h handle site).2 = none) ∨
    ∃ failure s'' error, s.lateFailure h handle site = some failure ∧
      DrainFailed s h kind failure s'' ∧
      (s.registered h kind).submitCallbackDrainLocked h handle site = (s'', some error) := by
  rcases submitCallbackDrainLocked_cases handle hallowed hstarts
      (fun hnone => (hi.bound.unbound hnone).2.1) (s.registered h kind) rfl with
    ⟨hfailure, error, hsubmit⟩ | ⟨hfailure, hnone, error, hsubmit⟩ |
      ⟨hfailure, entered, he, hrecords, hsubmit⟩
  · exact Or.inr ⟨_, _, error, hfailure, .refused, hsubmit⟩
  · exact Or.inr ⟨_, _, error, hfailure, .lease hnone, hsubmit⟩
  · rw [hfailure, hsubmit]
    rcases submitActiveDrain_cases entered h handle site with
      hreturns | ⟨error, ⟨hdrain, hstop⟩ | ⟨hdrain, hrefuse⟩ | ⟨hdrain, hleak⟩⟩
    · exact Or.inl hreturns
    · exact Or.inr ⟨_, _, error, hdrain, .loopStopped he hrecords, hstop⟩
    · exact Or.inr ⟨_, _, error, hdrain, .released he hrecords, hrefuse⟩
    · exact Or.inr ⟨_, _, error, hdrain, .leaked he hrecords, hleak⟩

/-- A registration, by where it raises. -/
theorem registerCallback_cases (hi : EpochState.EpochInv s.epoch) (h : Nat)
    (handle : EpochHandle) (kind : CallbackKind) (site : SubmissionSite ε) :
    (s.lateFailure h handle site = none ∧ (s.registerCallback h handle kind site).2 = none) ∨
    ∃ failure error, s.lateFailure h handle site = some failure ∧
      ((failure = .refused ∧ s.registerCallback h handle kind site = (s, some error)) ∨
        startsDrain (s.records h) = true ∧ ∃ s'', DrainFailed s h kind failure s'' ∧
          s.registerCallback h handle kind site =
            (s''.setRecord h (s''.records h).rollBack, some error)) := by
  cases hallowed : s.epoch.callAllowed site.call with
  | false =>
    refine Or.inr ⟨.refused, .stageClosed "Cannot register a callback after Stage scope close", ?_,
      Or.inl ⟨rfl, ?_⟩⟩
    · simp [lateFailure, hallowed]
    · simp [registerCallback, hallowed]
  | true =>
    cases hstarts : startsDrain (s.records h) with
    | false =>
      refine Or.inl ⟨?_, ?_⟩
      · simp [lateFailure, hallowed, hstarts]
      · simp [registerCallback, hallowed, hstarts]
    | true =>
      rcases submitCallbackDrainLocked_fails hi handle kind hallowed hstarts with
        ⟨hfailure, hreturns⟩ | ⟨failure, s'', error, hfailure, hf, hsubmit⟩
      · refine Or.inl ⟨hfailure, ?_⟩
        cases hsubmit : (s.registered h kind).submitCallbackDrainLocked h handle site with
        | mk s'' outcome =>
          rw [hsubmit] at hreturns
          obtain rfl : outcome = none := hreturns
          rw [registered] at hsubmit
          simp only [registerCallback, hallowed, hstarts, if_true, hsubmit]
      · refine Or.inr ⟨failure, error, hfailure, Or.inr ⟨rfl, s'', hf, ?_⟩⟩
        rw [registered] at hsubmit
        simp only [registerCallback, hallowed, hstarts, if_true, hsubmit]

/-- The registration raises where `lateFailure` says. -/
theorem registerCallback_raises_iff (hi : EpochState.EpochInv s.epoch) (h : Nat)
    (handle : EpochHandle) (kind : CallbackKind) (site : SubmissionSite ε) :
    (s.registerCallback h handle kind site).2 = none ↔ s.lateFailure h handle site = none := by
  rcases registerCallback_cases hi h handle kind site with
    ⟨hfailure, hreturns⟩ | ⟨failure, error, hfailure, ⟨-, hresult⟩ | ⟨-, s'', -, hresult⟩⟩
  · simp [hfailure, hreturns]
  · simp [hfailure, hresult]
  · simp [hfailure, hresult]

/-- In the state in which the drain is submitted only the record of its handle is new. -/
theorem registered_others (s : SubmissionState ρ ε) (h : Nat) (kind : CallbackKind) {k : Nat}
    (hk : k ≠ h) : SameRecord (s.records k) ((s.registered h kind).records k) := by
  rw [registered, records_setRecord, if_neg hk]
  exact .refl _

/-- The roll-back takes the callback out of a deque that has not changed in between. -/
theorem rollBack_of_sameRecord (hstarts : startsDrain (s.records h) = true)
    (hsame : SameRecord ((s.registered h kind).records h) (s'.records h)) :
    (s'.records h).pendingWork = (s.records h).pendingWork ∧
      (s'.records h).callbacks.dropLast = (s.records h).callbacks := by
  obtain ⟨hcallbacks, hpending⟩ := registerCallback_record hstarts kind
  rw [registered, records_setRecord, if_pos rfl] at hsame
  refine ⟨hsame.pendingWork.trans hpending, ?_⟩
  rw [hsame.callbacks, hcallbacks, List.dropLast_concat]

/-- A failure without a change of the records, by what it leaves of the Stage. -/
theorem unchanged_iff_of_sameRecord (hstarts : startsDrain (s.records h) = true)
    (hsame : ∀ k, SameRecord ((s.registered h kind).records k) (s'.records k)) :
    Unchanged s (s'.setRecord h (s'.records h).rollBack) ↔
      s'.epoch.activeHandles = s.epoch.activeHandles ∧
        s'.epoch.adoptedTasks = s.epoch.adoptedTasks ∧ SameBinding s s' := by
  rw [unchanged_rollBack_iff hstarts]
  obtain ⟨hwork, hdeque⟩ := rollBack_of_sameRecord hstarts (hsame h)
  exact ⟨fun hunchanged => hunchanged.2.2.2, fun hstage =>
    ⟨fun k hk => (registered_others s h kind hk).trans (hsame k), hwork, hdeque, hstage⟩⟩

/-- Every failure of the submission, by what it leaves. -/
theorem DrainFailed.unchanged_iff (hi : EpochState.EpochInv s.epoch)
    (hstarts : startsDrain (s.records h) = true) {failure : LateFailure}
    (hf : DrainFailed s h kind failure s') :
    Unchanged s (s'.setRecord h (s'.records h).rollBack) ↔ s.failsClean h failure = true := by
  have hepoch : (s.registered h kind).epoch = s.epoch := rfl
  have hreserved : (s.registered h kind).reservations = s.reservations := rfl
  cases hf with
  | refused =>
    rw [unchanged_iff_of_sameRecord hstarts fun k => SameRecord.refl _]
    exact ⟨fun _ => rfl, fun _ => ⟨rfl, rfl, rfl, rfl, rfl, rfl, rfl⟩⟩
  | lease hnone =>
    refine ⟨fun hunchanged => ?_, fun hclean => by cases hclean⟩
    have hbackend : some BackendKind.stage = s.epoch.activeBackend :=
      hunchanged.binding.activeBackend
    rw [hnone] at hbackend
    cases hbackend
  | loopStopped he hrecords =>
    have hsame : ∀ k, SameRecord ((s.registered h kind).records k) (s'.records k) := by
      intro k
      rw [hrecords]
      exact .refl _
    rw [unchanged_iff_of_sameRecord hstarts hsame, failsClean, decide_eq_true_iff]
    exact he.same_iff hi hepoch hreserved rfl rfl
  | @released entered he hrecords =>
    have hkept := retained_released entered h
    rw [unchanged_iff_of_sameRecord hstarts fun k => hrecords ▸ hkept k]
    have hzero : (entered.records h).pendingWork = (s.records h).pendingWork := by
      rw [hrecords, registered, records_setRecord, if_pos rfl,
        (registerCallback_record hstarts kind).2]
    by_cases hidle : (s.records h).pendingWork = 0
    · rw [failsClean, if_pos hidle, Bool.and_eq_true, Bool.or_eq_true, decide_eq_true_iff,
        Option.isNone_iff_eq_none]
      exact he.released_iff hi hepoch hreserved (hzero.trans hidle) rfl
    · obtain ⟨hsame, hres⟩ : ((entered.retainWork h).releaseWork h).epoch = entered.epoch ∧
          ((entered.retainWork h).releaseWork h).reservations = entered.reservations :=
        released_pending (hzero ▸ hidle)
      rw [failsClean, if_neg hidle, decide_eq_true_iff]
      exact he.same_iff hi hepoch hreserved hsame hres
  | @leaked entered he hrecords =>
    refine ⟨fun hunchanged => ?_, fun hclean => by cases hclean⟩
    have hwork := ((unchanged_rollBack_iff hstarts).mp hunchanged).2.1
    rw [retainWork, records_setRecord, if_pos rfl, pendingWork_retainWork, hrecords, registered,
      records_setRecord, if_pos rfl, (registerCallback_record hstarts kind).2] at hwork
    omega

/-- **A failed late registration changes nothing, just when it fails in one of the clean ways.**
    For every Stage, every handle and whatever the call finds: it raises where `lateFailure` says,
    and when it raises, the callbacks, the drain flag and the pending work of the handles and the
    active handles, the binding, the lease and the reservations of the Stage are as before if and
    only if the failure is clean. -/
theorem late_registration_iff (configured : ConfiguredBackend) (idleTimeout : Option Nat)
    (s : SubmissionState ρ ε) (h : Nat) (handle : EpochHandle) (kind : CallbackKind)
    (site : SubmissionSite ε)
    (hreach : (epochSystem configured idleTimeout).Reachable s.epoch) :
    ((s.registerCallback h handle kind site).2 = none ↔ s.lateFailure h handle site = none) ∧
    (((s.registerCallback h handle kind site).2 ≠ none →
        Unchanged s (s.registerCallback h handle kind site).1) ↔
      ∀ failure, s.lateFailure h handle site = some failure → s.failsClean h failure = true) := by
  have hi := EpochState.reachable_epochInv hreach
  refine ⟨registerCallback_raises_iff hi h handle kind site, ?_⟩
  rcases registerCallback_cases hi h handle kind site with
    ⟨hfailure, hreturns⟩ | ⟨failure, error, hfailure, hraised⟩
  · rw [hfailure, hreturns]
    exact ⟨fun _ _ heq => absurd heq.symm (Option.some_ne_none _), fun _ hne => absurd rfl hne⟩
  · -- the one failure of the call, clean or not
    have hclean : (∀ failure', s.lateFailure h handle site = some failure' →
        s.failsClean h failure' = true) ↔ s.failsClean h failure = true := by
      rw [hfailure]
      refine ⟨fun hall => hall failure rfl, fun hclean failure' heq => ?_⟩
      rwa [← Option.some.inj heq]
    rw [hclean]
    rcases hraised with ⟨rfl, hresult⟩ | ⟨hstarts, s'', hf, hresult⟩
    · rw [hresult]
      exact ⟨fun _ => rfl, fun _ _ => .refl s⟩
    · rw [hresult, ← hf.unchanged_iff hi hstarts]
      exact ⟨fun hunchanged => hunchanged (Option.some_ne_none _), fun hunchanged _ => hunchanged⟩

/-- Two roots on loop 0, the first of which has settled. -/
def secondRoot : List EpochEvent :=
  [.go EpochState.loopSite, .setOwnerTask 0, .handleQuiescent 0, .go EpochState.loopSite,
    .setOwnerTask 1]

/-- Another thread, after loop 0 has been stopped. -/
def stoppedSite : SubmissionSite Nat where
  call := ⟨false, none, none, false, none, []⟩
  loopRuns := false
  loopStillRuns := false

/-- A callback for the settled root is refused, and the root is active again: nothing will ever
    take it out. -/
theorem refused_registration_stays_active :
    ∃ s : SubmissionState Nat Nat, (epochSystem .auto none).Reachable s.epoch ∧
      s.epoch.activeHandles = {1} ∧ (s.records 0).pendingWork = 0 ∧
      (s.registerCallback 0 ⟨.caller, some 0, some 0⟩ .finally stoppedSite).2 =
        some (.stageLifecycle "Stage callback owner loop is unavailable") ∧
      (s.registerCallback 0 ⟨.caller, some 0, some 0⟩ .finally stoppedSite).1.epoch.activeHandles =
        {0, 1} ∧
      ¬ Unchanged s (s.registerCallback 0 ⟨.caller, some 0, some 0⟩ .finally stoppedSite).1 := by
  refine ⟨{
      epoch := _
      permits := { maxConcurrency := none, maxPending := none }
      records := fun _ => { bodyCompleted := true } },
    System.reachable_of_run secondRoot rfl rfl, ?_, rfl, rfl, ?_, fun hunchanged => ?_⟩
  · decide
  · decide
  · exact absurd hunchanged.activeHandles (by decide)

/-- The same registration, which raises and fails unclean. -/
theorem late_registration_iff_secondRoot :
    ∃ s : SubmissionState Nat Nat, (epochSystem .auto none).Reachable s.epoch ∧
      (∃ failure, s.lateFailure 0 ⟨.caller, some 0, some 0⟩ stoppedSite = some failure ∧
        s.failsClean 0 failure = false) ∧
      ((s.registerCallback 0 ⟨.caller, some 0, some 0⟩ .finally stoppedSite).2 = none ↔
        s.lateFailure 0 ⟨.caller, some 0, some 0⟩ stoppedSite = none) ∧
      (((s.registerCallback 0 ⟨.caller, some 0, some 0⟩ .finally stoppedSite).2 ≠ none →
          Unchanged s (s.registerCallback 0 ⟨.caller, some 0, some 0⟩ .finally stoppedSite).1) ↔
        ∀ failure, s.lateFailure 0 ⟨.caller, some 0, some 0⟩ stoppedSite = some failure →
          s.failsClean 0 failure = true) := by
  refine ⟨{
      epoch := _
      permits := { maxConcurrency := none, maxPending := none }
      records := fun _ => { bodyCompleted := true } },
    System.reachable_of_run secondRoot rfl rfl, ⟨_, rfl, ?_⟩,
    late_registration_iff .auto none _ 0 _ .finally stoppedSite
      (System.reachable_of_run secondRoot rfl rfl)⟩
  decide

end SubmissionState

end AgentlyStage
