import AgentlyStage.AdmissionBound
import AgentlyStage.HandleSteps
import AgentlyStage.Submission

/-!
# Submission is all or nothing

`Stage.go` takes a permit, an epoch, a place among the active handles and a work reservation, and
each place where it can raise has a clean-up of its own.  What is undone there is compared here
with what was done.
-/

namespace AgentlyStage

open Transition

namespace EpochState

variable {s s' : EpochState} {site : CallSite}

/-! ## 1. The lease of an epoch -/

/-- A lease belongs to the stage backend. -/
def LeaseOnStage (s : EpochState) : Prop :=
  s.generationLease = none ∨ s.activeBackend = some .stage

/-- A lease is held for an active handle. -/
def LeaseInUse (s : EpochState) : Prop :=
  s.generationLease = none ∨ (s.activeBackend = some .stage ∧ s.activeHandles ≠ ∅)

theorem LeaseInUse.onStage (h : LeaseInUse s) : LeaseOnStage s :=
  h.imp_right And.left

end EpochState

namespace RootPermits

/-! ## 2. The permit of a refused root -/

end RootPermits

/-! ## 3. The failures of `go` -/

/-- Where `go` raises. -/
inductive GoFailure where
  /-- Before anything is written. -/
  | refused
  /-- `_new_handle_locked`, with the permit taken. -/
  | unresolved
  /-- The caller backend without a loop. -/
  | unselected
  /-- The submission, which has released its work. -/
  | released
  /-- The second `call_soon_threadsafe`, with the work retained. -/
  | leaked
  /-- `cancel` of the new handle. -/
  | uncancelled
deriving DecidableEq, Repr

namespace SubmissionSite

variable {ε : Type}

/-- The submission of the body to what has been selected. -/
def bodyFailure (site : SubmissionSite ε) : BackendKind × Option Nat → Option GoFailure
  | (.stage, _) => if site.refusal.isSome then some .released else none
  | (.caller, none) => some .unselected
  | (.caller, some loop) =>
    match site.posting loop with
    | .inline | .posted => none
    | .unavailable => some .released
    | .closed => some .leaked

/-- `start` runs at once, and `loop.create_task` raises. -/
def failsToStart (site : SubmissionSite ε) : BackendKind × Option Nat → Bool
  | (.caller, some loop) => decide (site.posting loop = .inline) && site.createError.isSome
  | _ => false

end SubmissionSite

namespace SubmissionState

variable {ρ ε : Type} {s s' : SubmissionState ρ ε} {h : Nat} {site : SubmissionSite ε}

/-- Where `go` raises, if it does. -/
def goFailure (s : SubmissionState ρ ε) (site : SubmissionSite ε) : Option GoFailure :=
  if !s.epoch.callAllowed site.call then some .refused
  else
    match s.permits.admitRootLocked site.call.owned with
    | .error _ => some .refused
    | .ok _ =>
      match s.epoch.resolveBackendLocked site.call with
      | .error _ => some .unresolved
      | .ok (selected, _) =>
        match site.bodyFailure selected with
        | some failure => some failure
        | none =>
          if s.epoch.cancelling && site.closedAtCancel && !site.failsToStart selected then
            some .uncancelled
          else none

/-- The target belongs to the selected backend; on the carrier it is the pinned generation. -/
def selects (s' : SubmissionState ρ ε) : BackendKind × Option Nat → SubmissionTarget → Prop
  | (.caller, selected), .loop loop => selected = some loop
  | (.stage, _), .generation g => ∀ lease, s'.epoch.generationLease = some lease →
      g = s'.leased lease
  | (.caller, _), .generation _ | (.stage, _), .loop _ => False

/-- `_handle_quiescent` is about the epoch. -/
theorem handleQuiescent_frame (s : SubmissionState ρ ε) (h : Nat) :
    (s.handleQuiescent h).epoch.activeHandles = s.epoch.activeHandles.erase h ∧
      (s.handleQuiescent h).epoch.adoptedTasks = s.epoch.adoptedTasks ∧
      (s.handleQuiescent h).epoch.handles = s.epoch.handles ∧
      (s.handleQuiescent h).records = s.records ∧ (s.handleQuiescent h).permits = s.permits ∧
      (s.handleQuiescent h).handed = s.handed := by
  have hepoch : (s.epoch.handleQuiescent h).activeHandles = s.epoch.activeHandles.erase h ∧
      (s.epoch.handleQuiescent h).adoptedTasks = s.epoch.adoptedTasks ∧
      (s.epoch.handleQuiescent h).handles = s.epoch.handles := by
    unfold EpochState.handleQuiescent EpochState.releaseBackendIfQuiescentLocked
    split
    · exact ⟨rfl, rfl, rfl⟩
    · exact ⟨rfl, rfl, rfl⟩
  obtain ⟨hactive, htasks, hhandles⟩ := hepoch
  unfold handleQuiescent
  dsimp only
  split
  · exact ⟨hactive, htasks, hhandles, rfl, rfl, rfl⟩
  · exact ⟨hactive, htasks, hhandles, rfl, rfl, rfl⟩

/-- The release of the only work of a handle. -/
theorem releaseWork_last_frame (hlast : (s.records h).pendingWork = 1) :
    (s.releaseWork h).epoch.activeHandles = s.epoch.activeHandles.erase h ∧
      (s.releaseWork h).epoch.adoptedTasks = s.epoch.adoptedTasks ∧
      (s.releaseWork h).epoch.handles = s.epoch.handles ∧
      (s.releaseWork h).records = Function.update s.records h (s.records h).releaseWork ∧
      (s.releaseWork h).permits = s.permits ∧ (s.releaseWork h).handed = s.handed := by
  rw [releaseWork_of_last hlast]
  exact handleQuiescent_frame (s.setRecord h (s.records h).releaseWork) h

theorem releaseWork_record {record : StageHandle ρ ε} (hlast : record.pendingWork = 1) :
    record.releaseWork.pendingWork = 0 ∧
      record.releaseWork.bodyCompleted = record.bodyCompleted := by
  unfold StageHandle.releaseWork
  rw [if_neg (by omega), hlast]
  exact ⟨rfl, rfl⟩

/-- Initial callbacks retain no work, and the body has not run. -/
theorem initial_record (initial : List CallbackKind) (record : StageHandle ρ ε) :
    (initial.foldl StageHandle.registerInitialCallback record).pendingWork =
        record.pendingWork ∧
      (initial.foldl StageHandle.registerInitialCallback record).bodyCompleted =
        record.bodyCompleted := by
  induction initial generalizing record with
  | nil => exact ⟨rfl, rfl⟩
  | cons kind initial ih => exact ih (record.registerInitialCallback kind)

theorem enterEpoch_frame (s : SubmissionState ρ ε) (epoch : EpochState)
    (site : SubmissionSite ε) :
    (s.enterEpoch epoch site).permits = s.permits ∧
      (s.enterEpoch epoch site).handed = s.handed := by
  unfold enterEpoch
  split
  · exact ⟨rfl, rfl⟩
  · exact ⟨rfl, rfl⟩

/-- A new handle, in the epoch that the Stage has resolved. -/
structure NewHandle (s : SubmissionState ρ ε) (site : SubmissionSite ε)
    (selected : BackendKind × Option Nat) (entered : SubmissionState ρ ε) : Prop where
  active : Entered s s.epoch.handles.length entered
  epoch : s.epoch.callAllowed site.call = true → entered.epoch = (s.epoch.go site.call).1
  handles : entered.epoch.handles.length = s.epoch.handles.length + 1
  records : ∀ k, k ≠ s.epoch.handles.length → entered.records k = s.records k
  pendingWork : (entered.records s.epoch.handles.length).pendingWork = 0
  bodyCompleted : (entered.records s.epoch.handles.length).bodyCompleted = false
  permits : entered.permits = s.permits
  handed : entered.handed = s.handed
  selected : selected ≠ (.caller, none)

theorem newHandleLocked_cases (hi : EpochState.EpochInv s.epoch) (site : SubmissionSite ε)
    (initial : List CallbackKind) :
    (∃ error, s.epoch.resolveBackendLocked site.call = .error error ∧
      s.epoch.activeBackend = none ∧ s.newHandleLocked site initial = .error error) ∨
    ∃ selected epoch entered, s.epoch.resolveBackendLocked site.call = .ok (selected, epoch) ∧
      s.newHandleLocked site initial = .ok (selected, entered) ∧
      NewHandle s site selected entered := by
  cases hresolve : s.epoch.resolveBackendLocked site.call with
  | error error =>
    refine Or.inl ⟨error, rfl, ?_, by rw [newHandleLocked, hresolve]⟩
    cases hbackend : s.epoch.activeBackend with
    | none => rfl
    | some backend => simp [EpochState.resolveBackendLocked, hbackend] at hresolve
  | ok result =>
    obtain ⟨⟨backend, loop⟩, epoch⟩ := result
    refine Or.inr ⟨(backend, loop), epoch, _, rfl, by rw [newHandleLocked, hresolve], ?_⟩
    obtain ⟨hi', hbackend, hloop, -⟩ := hi.resolve hresolve
    have hhandles : epoch.handles = s.epoch.handles := by
      rcases EpochState.resolveBackendLocked_spec hresolve with
        ⟨-, -, rfl⟩ | ⟨-, -, -, rfl⟩ | ⟨-, -, -, rfl⟩
      · rfl
      · rfl
      · rfl
    have henters : Enters s.epoch epoch site.call := by
      rcases EpochState.resolveBackendLocked_spec hresolve with
        ⟨hbound, -, rfl⟩ | ⟨hnone, -, -, rfl⟩ | ⟨hnone, -, -, rfl⟩
      · exact Or.inl ⟨by rw [hbound]; exact nofun, rfl⟩
      · exact Or.inr (Or.inl ⟨hnone, _, rfl⟩)
      · exact Or.inr (Or.inr ⟨hnone, rfl⟩)
    obtain ⟨hpermits, hhanded⟩ := enterEpoch_frame s epoch site
    obtain ⟨hpending, hcompleted⟩ := initial_record (ρ := ρ) (ε := ε) initial {}
    have hrecord := Function.update_self s.epoch.handles.length
      (initial.foldl StageHandle.registerInitialCallback {}) s.records
    have hgo : s.epoch.callAllowed site.call = true → EpochState.touchLocked { epoch with
        handles := epoch.handles ++ [{ backendKind := backend, loop := loop }]
        activeHandles := insert epoch.handles.length epoch.activeHandles } =
          (s.epoch.go site.call).1 := by
      intro hallowed
      rw [EpochState.go, if_pos hallowed, hresolve]
    obtain ⟨activity, token, timer, timers, htouch, -⟩ := EpochState.touchLocked_frame
      { epoch with
        handles := epoch.handles ++ [{ backendKind := backend, loop := loop }]
        activeHandles := insert epoch.handles.length epoch.activeHandles }
    rw [htouch] at hgo ⊢
    rw [hhandles] at hgo ⊢
    refine ⟨?_, hgo, ?_, fun k hk => ?_, ?_, ?_, hpermits, hhanded, ?_⟩
    · refine Entered.of_enters henters (fun hnone => (hi.bound.unbound hnone).2.1) ?_ _
      exact ⟨rfl, rfl, rfl, rfl, rfl, rfl⟩
    · exact List.length_append
    · exact Function.update_of_ne hk _ _
    · exact (congrArg StageHandle.pendingWork hrecord).trans hpending
    · exact (congrArg StageHandle.bodyCompleted hrecord).trans hcompleted
    · intro hselected
      cases hselected
      have hsome := hi'.bound.caller hbackend
      rw [hloop] at hsome
      cases hsome

/-! ## 5. The submission of the body -/

/-- The body has been handed over; its `start` may have run, and may have failed. -/
structure Submitted (e : SubmissionState ρ ε) (h : Nat) (selected : BackendKind × Option Nat)
    (fails : Bool) (s' : SubmissionState ρ ε) : Prop where
  /-- The owner task is recorded, or its work is released. -/
  epoch : s'.epoch = e.epoch ∨ s'.epoch = e.epoch.setOwnerTask h ∨
    ∃ t : SubmissionState ρ ε, t.epoch = e.epoch ∧ s' = t.releaseWork h
  handles : s'.epoch.handles.length = e.epoch.handles.length
  adoptedTasks : s'.epoch.adoptedTasks = e.epoch.adoptedTasks
  records : ∀ k, k ≠ h → s'.records k = e.records k
  handed : ∃ target, s'.selects selected target ∧ s'.handed = e.handed ++ [(h, target)]
  running : fails = false → s'.epoch.activeHandles = e.epoch.activeHandles ∧
    (s'.records h).pendingWork = 1 ∧ (s'.records h).bodyCompleted = false
  failed : fails = true → s'.epoch.activeHandles = e.epoch.activeHandles.erase h ∧
    (s'.records h).pendingWork = 0 ∧ (s'.records h).bodyCompleted = true

theorem submitted_carrier {e : SubmissionState ρ ε} (hzero : (e.records h).pendingWork = 0)
    (hopen : (e.records h).bodyCompleted = false) (loop : Option Nat) (site : SubmissionSite ε)
    (hrefusal : site.refusal = none) :
    ∃ s', e.submit h site postOwner = (s', none) ∧
      Submitted e h (.stage, loop) (site.failsToStart (.stage, loop)) s' := by
  unfold submit
  rw [hrefusal]
  have hrecord : (e.retainWork h).records h = (e.records h).retainWork := by
    rw [retainWork, records_setRecord, if_pos rfl]
  refine ⟨_, rfl, ⟨Or.inl rfl, rfl, rfl, fun k hk => ?_,
    ⟨.generation (e.submitGeneration site), fun lease hlease => ?_, rfl⟩, fun _ => ⟨rfl, ?_⟩,
    fun heq => by cases heq⟩⟩
  · exact (Function.update_of_ne hk _ _).trans (Function.update_of_ne hk _ _)
  · change e.submitGeneration site = e.leased lease
    rw [submitGeneration, show e.epoch.generationLease = some lease from hlease]
  · rw [hand]
    dsimp only
    rw [records_setRecord, if_pos rfl, hrecord]
    exact ⟨congrArg Nat.succ hzero, hopen⟩

/-- `start` on a loop, at once or later. -/
theorem submitted_loop {e : SubmissionState ρ ε} (hzero : (e.records h).pendingWork = 0)
    (hopen : (e.records h).bodyCompleted = false) (loop : Nat) (admission : Option AdmissionRef)
    (site : SubmissionSite ε)
    (hposting : site.posting loop = .inline ∨ site.posting loop = .posted) :
    ∃ s', e.submitBody h (.caller, some loop) admission site = (s', none) ∧
      Submitted e h (.caller, some loop) (site.failsToStart (.caller, some loop)) s' := by
  -- the handle once its work is retained and handed over
  have hrecord : ((e.retainWork h).hand h (.loop loop)
      (postOwner ((e.retainWork h).records h))).records h =
        postOwner (e.records h).retainWork := by
    rw [hand]
    dsimp only
    rw [records_setRecord, if_pos rfl, retainWork, records_setRecord, if_pos rfl]
  have hothers : ∀ k, k ≠ h → ((e.retainWork h).hand h (.loop loop)
      (postOwner ((e.retainWork h).records h))).records k = e.records k :=
    fun k hk => (Function.update_of_ne hk _ _).trans (Function.update_of_ne hk _ _)
  unfold submitBody scheduleCallerRunner
  rcases hposting with hinline | hposted
  · simp only [hinline, startOwner]
    cases hcreate : site.createError with
    | none =>
      refine ⟨_, rfl, ⟨Or.inr (Or.inl rfl), ?_, rfl, fun k hk => ?_, ⟨.loop loop, rfl, rfl⟩,
        fun _ => ⟨rfl, ?_⟩, fun hfails => ?_⟩⟩
      · exact List.length_modify _ _ _
      · exact (Function.update_of_ne hk _ _).trans (hothers k hk)
      · dsimp only
        rw [records_setRecord, if_pos rfl, hrecord]
        exact ⟨congrArg Nat.succ hzero, hopen⟩
      · simp [SubmissionSite.failsToStart, hcreate] at hfails
    | some error =>
      obtain ⟨completed, value, failure, active, hbody, hcompleted⟩ :=
        StageHandle.setBodyOutcome_frame (postOwner (e.records h).retainWork) none (some error)
      let started := finishAdmission (setRecord ((e.retainWork h).hand h (.loop loop)
          (postOwner ((e.retainWork h).records h))) h
        { ((postOwner (e.records h).retainWork).setBodyException error).1 with
          owner := .failed }) admission
      have hstarted : (started.records h).pendingWork = 1 ∧
          (started.records h).bodyCompleted = true := by
        have hself : started.records h =
            { ((postOwner (e.records h).retainWork).setBodyException error).1 with
              owner := .failed } := Function.update_self _ _ _
        rw [hself, StageHandle.setBodyException, hbody]
        exact ⟨congrArg Nat.succ hzero, hcompleted⟩
      rw [hrecord]
      obtain ⟨hactive, htasks, hhandles, hrecords, -, hhanded⟩ :=
        releaseWork_last_frame hstarted.1
      obtain ⟨hzero', hdone⟩ := releaseWork_record hstarted.1
      refine ⟨started.releaseWork h, rfl, ⟨Or.inr (Or.inr ⟨started, rfl, rfl⟩),
        congrArg _ hhandles, htasks, fun k hk => ?_, ⟨.loop loop, rfl, hhanded⟩,
        fun hfails => ?_, fun _ => ⟨hactive, ?_⟩⟩⟩
      · rw [hrecords, Function.update_of_ne hk]
        exact (Function.update_of_ne hk _ _).trans (hothers k hk)
      · simp [SubmissionSite.failsToStart, hinline, hcreate] at hfails
      · rw [hrecords, Function.update_self]
        exact ⟨hzero', hdone.trans hstarted.2⟩
  · simp only [hposted]
    refine ⟨_, rfl, ⟨Or.inl rfl, rfl, rfl, hothers, ⟨.loop loop, rfl, rfl⟩, fun _ => ⟨rfl, ?_⟩,
      fun hfails => ?_⟩⟩
    · rw [hrecord]
      exact ⟨congrArg Nat.succ hzero, hopen⟩
    · simp [SubmissionSite.failsToStart, hposted] at hfails

theorem submitBody_cases {e : SubmissionState ρ ε} (hzero : (e.records h).pendingWork = 0)
    (hopen : (e.records h).bodyCompleted = false) (selected : BackendKind × Option Nat)
    (hselected : selected ≠ (.caller, none)) (admission : Option AdmissionRef)
    (site : SubmissionSite ε) :
    (site.bodyFailure selected = none ∧ ∃ s',
      e.submitBody h selected admission site = (s', none) ∧
        Submitted e h selected (site.failsToStart selected) s') ∨
    ∃ error, (site.bodyFailure selected = some .released ∧
        e.submitBody h selected admission site = ((e.retainWork h).releaseWork h, some error)) ∨
      (site.bodyFailure selected = some .leaked ∧
        e.submitBody h selected admission site = (e.retainWork h, some error)) := by
  obtain ⟨backend, loop⟩ := selected
  cases backend with
  | stage =>
    simp only [SubmissionSite.bodyFailure, submitBody]
    cases hrefusal : site.refusal with
    | none => exact Or.inl ⟨rfl, submitted_carrier hzero hopen loop site hrefusal⟩
    | some error =>
      refine Or.inr ⟨error, Or.inl ⟨rfl, ?_⟩⟩
      rw [submit, hrefusal]
  | caller =>
    cases loop with
    | none => exact absurd rfl hselected
    | some loop =>
      simp only [SubmissionSite.bodyFailure]
      cases hposting : site.posting loop with
      | inline =>
        exact Or.inl ⟨rfl, submitted_loop hzero hopen loop admission site (Or.inl hposting)⟩
      | posted =>
        exact Or.inl ⟨rfl, submitted_loop hzero hopen loop admission site (Or.inr hposting)⟩
      | unavailable =>
        refine Or.inr ⟨.stageLifecycle "The selected caller event loop is unavailable",
          Or.inl ⟨rfl, ?_⟩⟩
        simp only [submitBody, scheduleCallerRunner, hposting]
      | closed =>
        refine Or.inr ⟨.runtimeError "Event loop is closed", Or.inr ⟨rfl, ?_⟩⟩
        simp only [submitBody, scheduleCallerRunner, hposting]

/-! ## 6. What each failure leaves -/

/-- **What `go` does**, from the scope check to the cancellation of the new handle. -/
theorem go_cases (hi : EpochState.EpochInv s.epoch) (site : SubmissionSite ε)
    (initial : List CallbackKind) :
    (s.goFailure site = some .refused ∧ ∃ error, s.go site initial = (s, some error)) ∨
    ∃ admission permits, s.permits.admitRootLocked site.call.owned = .ok (admission, permits) ∧
      s.epoch.callAllowed site.call = true ∧
      ((s.goFailure site = some .unresolved ∧ s.epoch.activeBackend = none ∧ ∃ error,
        s.go site initial =
          (finishAdmission { s with permits := permits } admission, some error)) ∨
      ∃ selected epoch e, s.epoch.resolveBackendLocked site.call = .ok (selected, epoch) ∧
        NewHandle { s with permits := permits } site selected e ∧
        ((s.goFailure site = some .released ∧ ∃ error, s.go site initial =
            (((e.retainWork s.epoch.handles.length).releaseWork
              s.epoch.handles.length).finishAdmission admission, some error)) ∨
          (s.goFailure site = some .leaked ∧ ∃ error, s.go site initial =
            ((e.retainWork s.epoch.handles.length).finishAdmission admission, some error)) ∨
          ∃ s', Submitted e s.epoch.handles.length selected (site.failsToStart selected) s' ∧
            ((s.goFailure site = none ∧ s.go site initial = (s', none)) ∨
              (s.goFailure site = some .uncancelled ∧ site.failsToStart selected = false ∧
                ∃ error, s.go site initial = (s', some error))))) := by
  cases hallowed : s.epoch.callAllowed site.call with
  | false =>
    refine Or.inl ⟨?_, .stageClosed "Cannot submit work to a sealed Stage scope", ?_⟩
    · simp [goFailure, hallowed]
    · rw [go, hallowed]
      rfl
  | true =>
    cases hpermit : s.permits.admitRootLocked site.call.owned with
    | error error =>
      refine Or.inl ⟨?_, error, ?_⟩
      · simp [goFailure, hallowed, hpermit]
      · rw [go, hallowed, hpermit]
        rfl
    | ok result =>
      obtain ⟨admission, permits⟩ := result
      refine Or.inr ⟨admission, permits, rfl, rfl, ?_⟩
      rcases newHandleLocked_cases (s := { s with permits := permits }) hi site initial with
        ⟨error, hresolve, hnone, hmade⟩ | ⟨selected, epoch, e, hresolve, hmade, hnew⟩
      · refine Or.inl ⟨?_, hnone, error, ?_⟩
        · simp only [goFailure, hallowed, hpermit]
          rw [show s.epoch.resolveBackendLocked site.call = .error error from hresolve]
          rfl
        · rw [go, hallowed, hpermit]
          simp only [hmade, if_true]
      · refine Or.inr ⟨selected, epoch, e, hresolve, hnew, ?_⟩
        have hraised : ∀ s' error,
            e.submitBody s.epoch.handles.length selected admission site = (s', some error) →
            s.go site initial = (s'.finishAdmission admission, some error) := by
          intro s' error hsubmit
          rw [go, hallowed, hpermit]
          simp only [hmade, if_true, if_neg hnew.selected, hsubmit]
        have hreturned : ∀ s',
            e.submitBody s.epoch.handles.length selected admission site = (s', none) →
            s.go site initial =
              if (s.epoch.cancelling && site.closedAtCancel &&
                  !(s'.records s.epoch.handles.length).bodyCompleted) = true then
                (s', some (.runtimeError "Event loop is closed"))
              else (s', none) := by
          intro s' hsubmit
          rw [go, hallowed, hpermit]
          simp only [hmade, if_true, hsubmit]
        have hfailure : s.goFailure site =
            match site.bodyFailure selected with
            | some failure => some failure
            | none =>
              if s.epoch.cancelling && site.closedAtCancel && !site.failsToStart selected then
                some .uncancelled
              else none := by
          simp only [goFailure, hallowed, hpermit]
          rw [show s.epoch.resolveBackendLocked site.call = .ok (selected, epoch) from hresolve]
          rfl
        rcases submitBody_cases hnew.pendingWork hnew.bodyCompleted selected hnew.selected
            admission site with
          ⟨hbody, s', hsubmit, hsubmitted⟩ | ⟨error, ⟨hbody, hsubmit⟩ | ⟨hbody, hsubmit⟩⟩
        · refine Or.inr (Or.inr ⟨s', hsubmitted, ?_⟩)
          have hdone : (s'.records s.epoch.handles.length).bodyCompleted =
              site.failsToStart selected := by
            cases hfails : site.failsToStart selected with
            | false => exact (hsubmitted.running hfails).2.2
            | true => exact (hsubmitted.failed hfails).2.2
          by_cases hcancel : (s.epoch.cancelling && site.closedAtCancel &&
              !site.failsToStart selected) = true
          · refine Or.inr ⟨?_, ?_, .runtimeError "Event loop is closed", ?_⟩
            · rw [hfailure, hbody]
              exact if_pos hcancel
            · rw [Bool.and_eq_true, Bool.not_eq_true'] at hcancel
              exact hcancel.2
            · rw [hreturned s' hsubmit, hdone]
              exact if_pos hcancel
          · refine Or.inl ⟨?_, ?_⟩
            · rw [hfailure, hbody]
              exact if_neg hcancel
            · rw [hreturned s' hsubmit, hdone]
              exact if_neg hcancel
        · refine Or.inl ⟨?_, error, ?_⟩
          · rw [hfailure, hbody]
          · exact hraised _ error hsubmit
        · refine Or.inr (Or.inl ⟨?_, error, ?_⟩)
          · rw [hfailure, hbody]
          · exact hraised _ error hsubmit

/-- Loop 0, from a thread of its own; and the same thread once the loop has been stopped. -/
def threadSite (unavailable : Bool) : SubmissionSite Nat where
  call := ⟨false, none, none, true, none, []⟩
  unavailable := unavailable

end SubmissionState

end AgentlyStage
