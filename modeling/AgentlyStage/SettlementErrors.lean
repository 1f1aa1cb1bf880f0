import AgentlyStage.SettlementBarrier
import Mathlib.Data.List.Nodup

/-!
# The settlement errors of a Stage

A handle records the errors of its callbacks and descendants in `_settlement_errors`.  The release
that leaves it without work calls `_handle_quiescent`: it takes the errors behind the cursor
(`_take_unreported_stage_errors`, in the handle lock) and then adds them to
`_scope_settlement_errors` (in the scope lock).  Several of these notifications can be under way
for one handle, when it is reopened before the first one has come to its end.

An error has the position at which its handle has recorded it; `_collect_handle_errors` is called
from nowhere.
-/

namespace AgentlyStage

open Transition

theorem OwnerPhase.Next.ne_created {phase next : OwnerPhase} (h : phase.Next next) :
    next ≠ .created := by
  cases h with
  | completeBody start => cases start <;> exact fun h => by cases h
  | _ => exact fun h => by cases h

namespace StageHandle

variable {ρ ε : Type} {s s' : StageHandle ρ ε}

/-! ## 1. What a handle records -/

/-- What a step does to the errors, the outcome and the work. -/
structure Reports (s s' : StageHandle ρ ε) : Prop where
  recorded : s.settlementErrors <+: s'.settlementErrors
  outcome : s'.bodyError = s.bodyError ∨ (s.bodyCompleted = false ∧ s.owner ≠ .refused)
  entered : s'.owner.hasOutcome = true → s.owner.hasOutcome = true ∨ s'.bodyCompleted = true
  retained : s'.pendingWork ≤ s.pendingWork ∨ s.owner.hasTask = true ∨ s'.owner = .submitting

theorem releaseWork_le (s : StageHandle ρ ε) : s.releaseWork.pendingWork ≤ s.pendingWork := by
  unfold releaseWork
  split
  · exact Nat.le_refl _
  · exact Nat.sub_le _ _

/-- The rule of the steps that neither set the outcome nor retain work. -/
theorem Reports.of_le (hrecorded : s.settlementErrors <+: s'.settlementErrors)
    (herror : s'.bodyError = s.bodyError)
    (howner : s'.owner.hasOutcome = true → s.owner.hasOutcome = true)
    (hpending : s'.pendingWork ≤ s.pendingWork) : Reports s s' :=
  ⟨hrecorded, Or.inl herror, fun h => Or.inl (howner h), Or.inl hpending⟩

theorem reports_setBodyOutcome (result : Option ρ) (error : Option ε) {owner : OwnerPhase}
    (hrefused : s.owner ≠ .refused) :
    Reports s { (s.setBodyOutcome result error).1 with owner := owner } := by
  by_cases hdone : s.bodyCompleted = true
  · rw [setBodyOutcome, if_pos hdone]
    exact ⟨List.prefix_rfl, Or.inl rfl, fun _ => Or.inr hdone, Or.inl (Nat.le_refl _)⟩
  · have hopen : s.bodyCompleted = false := by simpa using hdone
    obtain ⟨completed, value, failure, active, heq, hcompleted⟩ :=
      setBodyOutcome_frame s result error
    rw [heq]
    exact ⟨List.prefix_rfl, Or.inr ⟨hopen, hrefused⟩, fun _ => Or.inr hcompleted,
      Or.inl (Nat.le_refl _)⟩

variable [DecidableEq ε]

/-- **Step lemma of the errors.** -/
theorem step_reports {loop : Nat} {e : HandleEvent ρ ε} (hstep : s.step loop e = some s') :
    Reports s s' := by
  have hrelease := releaseWork_frame s
  have hle := releaseWork_le s
  cases e with
  | retain =>
    obtain ⟨howner, rfl⟩ := when_eq_some.mp hstep
    exact ⟨List.prefix_rfl, Or.inl rfl, fun h => (by cases h), Or.inr (Or.inr rfl)⟩
  | submit | setOwnerTask =>
    obtain ⟨howner, rfl⟩ := when_eq_some.mp hstep
    exact .of_le List.prefix_rfl rfl (fun h => by cases h) (Nat.le_refl _)
  | refuse =>
    obtain ⟨howner, rfl⟩ := when_eq_some.mp hstep
    rw [hrelease]
    exact .of_le List.prefix_rfl rfl (fun h => by cases h) hle
  | startFails error =>
    obtain ⟨howner, rfl⟩ := when_eq_some.mp hstep
    exact reports_setBodyOutcome none (some error) fun h => by rw [howner] at h; cases h
  | completeBody outcome =>
    have hrefused : s.owner = .body → s.owner ≠ .refused := fun hbody h => by
      rw [hbody] at h
      cases h
    cases outcome with
    | result value =>
      obtain ⟨howner, rfl⟩ := when_eq_some.mp hstep
      exact reports_setBodyOutcome (some value) none (hrefused howner)
    | exception error | cancelled error =>
      obtain ⟨howner, rfl⟩ := when_eq_some.mp hstep
      exact reports_setBodyOutcome none (some error) (hrefused howner)
  | startDrain =>
    obtain ⟨howner, rfl⟩ := when_eq_some.mp hstep
    exact ⟨List.prefix_rfl, Or.inl rfl, fun _ => Or.inl (by rw [howner]; rfl),
      Or.inr (Or.inl (by rw [howner]; rfl))⟩
  | startDrainFails error =>
    obtain ⟨howner, rfl⟩ := when_eq_some.mp hstep
    exact .of_le (List.prefix_append _ _) rfl (fun _ => by rw [howner]; rfl) (Nat.le_refl _)
  | releaseOwner =>
    simp only [StageHandle.step] at hstep
    split at hstep
    · rename_i howner
      cases hstep
      rw [hrelease]
      exact .of_le List.prefix_rfl rfl (fun _ => by rw [howner]; rfl) hle
    · rename_i howner
      cases hstep
      rw [hrelease]
      exact .of_le List.prefix_rfl rfl (fun _ => by rw [howner]; rfl) hle
    · cases hstep
  | register kind =>
    obtain ⟨-, rfl⟩ := when_eq_some.mp hstep
    rcases registerCallback_cases s kind with ⟨-, -, heq⟩ | ⟨-, heq⟩
    · rw [heq]
      exact .of_le List.prefix_rfl rfl id (Nat.le_refl _)
    · rw [heq]
      exact .of_le List.prefix_rfl rfl id (Nat.le_refl _)
  | retainDrain =>
    simp only [StageHandle.step] at hstep
    split at hstep
    · obtain ⟨htask, rfl⟩ := when_eq_some.mp hstep
      exact ⟨List.prefix_rfl, Or.inl rfl, Or.inl, Or.inr (Or.inl htask)⟩
    · cases hstep
  | submitDrain onOwnLoop =>
    simp only [StageHandle.step] at hstep
    split at hstep
    · cases hstep
      exact .of_le List.prefix_rfl rfl id (Nat.le_refl _)
    · cases hstep
  | submitDrainFails error =>
    simp only [StageHandle.step] at hstep
    split at hstep
    · cases hstep
      rw [releaseWork_recordSettlementError]
      exact .of_le (List.prefix_append _ _) rfl id hle
    · cases hstep
  | refuseDrain =>
    simp only [StageHandle.step] at hstep
    split at hstep
    · cases hstep
      rw [hrelease]
      exact .of_le List.prefix_rfl rfl id hle
    · cases hstep
  | rollBack =>
    simp only [StageHandle.step] at hstep
    split at hstep
    · cases hstep
      exact .of_le List.prefix_rfl rfl id (Nat.le_refl _)
    · cases hstep
      exact .of_le List.prefix_rfl rfl id (Nat.le_refl _)
    · cases hstep
  | createDrain i =>
    obtain ⟨-, rfl⟩ := when_eq_some.mp hstep
    exact .of_le List.prefix_rfl rfl id (Nat.le_refl _)
  | createDrainFails i error =>
    obtain ⟨-, rfl⟩ := when_eq_some.mp hstep
    rw [releaseWork_recordSettlementError]
    exact .of_le (List.prefix_append _ _) rfl id hle
  | drain i =>
    obtain ⟨-, rfl⟩ := when_eq_some.mp hstep
    unfold drainCallbacks
    split
    · exact .of_le List.prefix_rfl rfl id (Nat.le_refl _)
    · split
      · exact .of_le List.prefix_rfl rfl id (Nat.le_refl _)
      · exact .of_le List.prefix_rfl rfl id (Nat.le_refl _)
  | finishCallback i execution =>
    obtain ⟨entry, -, -, rfl⟩ := finishCallback_of_step hstep
    exact .of_le (List.prefix_append _ _) rfl id (Nat.le_refl _)
  | callbackHangs i =>
    obtain ⟨-, -, -, rfl⟩ := callbackHangs_of_step hstep
    exact .of_le List.prefix_rfl rfl id (Nat.le_refl _)
  | cancelDrain i error =>
    obtain ⟨entry, -, -, rfl⟩ := cancelDrain_of_step hstep
    exact .of_le (List.prefix_append _ _) rfl id (Nat.le_refl _)
  | releaseDrain i =>
    obtain ⟨-, rfl⟩ := when_eq_some.mp hstep
    rw [hrelease]
    exact .of_le List.prefix_rfl rfl id hle
  | retainDescendant =>
    obtain ⟨htask, rfl⟩ := when_eq_some.mp hstep
    exact ⟨List.prefix_rfl, Or.inl rfl, Or.inl, Or.inr (Or.inl htask)⟩
  | endDescendant d =>
    obtain ⟨-, rfl⟩ := when_eq_some.mp hstep
    exact .of_le List.prefix_rfl rfl id (Nat.le_refl _)
  | descendantDone d error =>
    obtain ⟨-, rfl⟩ := when_eq_some.mp hstep
    rw [hrelease]
    exact .of_le (List.prefix_append _ _) rfl id hle
  | waitSettled =>
    obtain ⟨-, rfl⟩ := when_eq_some.mp hstep
    exact .of_le List.prefix_rfl rfl id (Nat.le_refl _)
  | waiterReturns w =>
    simp only [StageHandle.step] at hstep
    split at hstep
    · obtain ⟨-, rfl⟩ := when_eq_some.mp hstep
      exact .of_le List.prefix_rfl rfl id (Nat.le_refl _)
    · cases hstep

/-- The body error does not change any more. -/
def Final (s : StageHandle ρ ε) : Prop := s.bodyCompleted = true ∨ s.owner = .refused

theorem Final.step (hf : Final s) {loop : Nat} {e : HandleEvent ρ ε}
    (hstep : s.step loop e = some s') : Final s' ∧ s'.bodyError = s.bodyError := by
  constructor
  · rcases hf with hdone | hrefused
    · exact Or.inl ((step_keeps hstep).completed hdone)
    · rcases step_owner hstep with ⟨howner, -⟩ | ⟨hnext, -⟩
      · exact Or.inr (howner.trans hrefused)
      · rw [hrefused] at hnext
        cases hnext
  · rcases (step_reports hstep).outcome with herror | ⟨hopen, hother⟩
    · exact herror
    · rcases hf with hdone | hrefused
      · rw [hopen] at hdone
        cases hdone
      · exact absurd hrefused hother

/-- What holds of the work and the outcome, failed starts and drains included. -/
structure OutcomeInv (s : StageHandle ρ ε) : Prop where
  pending : s.pendingWork = s.held
  futures : FuturesOk s
  completed : s.owner.hasOutcome = true → s.bodyCompleted = true
  created : s.owner = .created → s.pendingWork = 0

omit [DecidableEq ε] in
theorem outcomeInv_initial (initial : List CallbackKind) :
    OutcomeInv (initial.foldl registerInitialCallback ({} : StageHandle ρ ε)) := by
  obtain ⟨callbacks, appended, returned, heq⟩ := initial_eq initial ({} : StageHandle ρ ε)
  rw [heq]
  exact ⟨rfl, ⟨[], rfl, fun future h => by cases h⟩, (fun h => by cases h), fun _ => rfl⟩

theorem OutcomeInv.step (hi : OutcomeInv s) {loop : Nat} {e : HandleEvent ρ ε}
    (hstep : s.step loop e = some s') : OutcomeInv s' := by
  have hreports := step_reports hstep
  obtain ⟨hpending, hfutures, -⟩ := (step_work hstep).keeps hi.pending hi.futures
  refine ⟨hpending, hfutures, fun houtcome => ?_, fun hcreated => ?_⟩
  · rcases hreports.entered houtcome with hbefore | hdone
    · exact (step_keeps hstep).completed (hi.completed hbefore)
    · exact hdone
  · have howner : s.owner = .created := by
      rcases step_owner hstep with ⟨howner, -⟩ | ⟨hnext, -⟩
      · exact howner.symm.trans hcreated
      · exact absurd hcreated hnext.ne_created
    rcases hreports.retained with hle | htask | hsubmitting
    · have := hi.created howner
      omega
    · rw [howner] at htask
      cases htask
    · rw [hcreated] at hsubmitting
      cases hsubmitting

/-- When the last work is released the outcome is set, or the submission has been refused. -/
theorem OutcomeInv.final_of_quiescent (hi : OutcomeInv s) {loop : Nat} {e : HandleEvent ρ ε}
    (hstep : s.step loop e = some s') (hbusy : s.pendingWork ≠ 0) (hidle : s'.pendingWork = 0) :
    Final s' := by
  have hi' := hi.step hstep
  have hheld : s'.owner.holds = false := by
    have hzero := hi'.pending.symm.trans hidle
    unfold held at hzero
    cases hholds : s'.owner.holds with
    | false => rfl
    | true =>
      rw [hholds] at hzero
      simp at hzero
  cases howner : s'.owner with
  | refused => exact Or.inr howner
  | failed | released => exact Or.inl (hi'.completed (by rw [howner]; rfl))
  | created =>
    rcases step_owner hstep with ⟨hsame, -⟩ | ⟨hnext, -⟩
    · exact absurd (hi.created (hsame.symm.trans howner)) hbusy
    · exact absurd howner hnext.ne_created
  | _ =>
    rw [howner] at hheld
    cases hheld

end StageHandle

/-! ## 2. Notifications -/

/-- An error of a handle in `_scope_settlement_errors`, with its position in the handle. -/
structure Contribution (ε : Type) where
  handle : Nat
  index : Nat
  error : ε
deriving DecidableEq, Repr

inductive NotificationPhase (ε : Type) where
  /-- `_handle_quiescent` has been called. -/
  | due
  /-- It has taken the errors and does not have the scope lock yet. -/
  | holding (errors : List (Contribution ε))
  | done
deriving DecidableEq, Repr

/-- A call of `_handle_quiescent`. -/
structure Notification (ε : Type) where
  /-- History: the number of errors that had been recorded at the quiescence. -/
  recorded : Nat
  phase : NotificationPhase ε := .due
deriving DecidableEq, Repr

def Notification.held {ε : Type} (notification : Notification ε) : List (Contribution ε) :=
  match notification.phase with
  | .holding errors => errors
  | _ => []

/-- A handle that is submitted to `loop`, with what its Stage reads of it. -/
structure ReportedHandle (ρ ε : Type) where
  loop : Nat
  handle : StageHandle ρ ε
  stageErrorCursor : Nat := 0
  notifications : List (Notification ε) := []

structure ErrorScope (ρ ε : Type) where
  handles : List (ReportedHandle ρ ε) := []
  scopeSettlementErrors : List (Contribution ε) := []

inductive ErrorEvent (ρ ε : Type) where
  | newHandle (loop : Nat) (initial : List CallbackKind)
  | handle (h : Nat) (e : HandleEvent ρ ε)
  /-- `_take_unreported_stage_errors` of a notification. -/
  | take (h n : Nat)
  /-- The rest of `_handle_quiescent`, in the scope lock. -/
  | merge (h n : Nat)

namespace ReportedHandle

variable {ρ ε : Type} [DecidableEq ε] (r : ReportedHandle ρ ε)

/-- The error at a position, unless it is the body error. -/
def report (h index : Nat) : Option (Contribution ε) :=
  match r.handle.settlementErrors[index]? with
  | some error => if some error ≠ r.handle.bodyError then some ⟨h, index, error⟩ else none
  | none => none

/-- `_take_unreported_stage_errors`. -/
def unreported (h : Nat) : List (Contribution ε) :=
  (List.range' r.stageErrorCursor (r.handle.settlementErrors.length - r.stageErrorCursor)).filterMap
    (r.report h)

/-- The handle after a step; the release of its last work calls `_handle_quiescent`. -/
def after (handle : StageHandle ρ ε) : ReportedHandle ρ ε :=
  { r with
    handle := handle
    notifications :=
      if r.handle.pendingWork ≠ 0 ∧ handle.pendingWork = 0 then
        r.notifications ++ [{ recorded := handle.settlementErrors.length }]
      else r.notifications }

def setPhase (n : Nat) (notification : Notification ε) (phase : NotificationPhase ε) :
    ReportedHandle ρ ε :=
  { r with notifications := r.notifications.set n { notification with phase := phase } }

def take (h n : Nat) (notification : Notification ε) : ReportedHandle ρ ε :=
  { r.setPhase n notification (.holding (r.unreported h)) with
    stageErrorCursor := r.handle.settlementErrors.length }

end ReportedHandle

namespace ErrorScope

variable {ρ ε : Type} [DecidableEq ε] (s : ErrorScope ρ ε)

def setHandle (h : Nat) (r : ReportedHandle ρ ε) : ErrorScope ρ ε :=
  { s with handles := s.handles.set h r }

/-- A notification of a handle. -/
def notification (h n : Nat) : Option (ReportedHandle ρ ε × Notification ε) :=
  match s.handles[h]? with
  | some r => r.notifications[n]?.map fun notification => (r, notification)
  | none => none

def step : ErrorEvent ρ ε → Option (ErrorScope ρ ε)
  | .newHandle loop initial =>
    some { s with handles := s.handles ++ [{
        loop := loop
        handle := initial.foldl StageHandle.registerInitialCallback {} }] }
  | .handle h e =>
    match s.handles[h]? with
    | some r => (r.handle.step r.loop e).map fun handle => s.setHandle h (r.after handle)
    | none => none
  | .take h n =>
    match s.notification h n with
    | some (r, notification) =>
      if notification.phase = .due then some (s.setHandle h (r.take h n notification)) else none
    | none => none
  | .merge h n =>
    match s.notification h n with
    | some (r, notification) =>
      match notification.phase with
      | .holding errors =>
        some { s.setHandle h (r.setPhase n notification .done) with
          scopeSettlementErrors := s.scopeSettlementErrors ++ errors }
      | _ => none
    | none => none

/-! ## 3. Neither lost nor duplicated -/

/-- Each error is contributed at most once; what is contributed has been recorded and is not the
    body error; and when a notification is complete, so is what its handle had recorded. -/
structure Exact : Prop where
  once : s.scopeSettlementErrors.Nodup
  genuine : ∀ c ∈ s.scopeSettlementErrors, ∃ r, s.handles[c.handle]? = some r ∧
    r.handle.settlementErrors[c.index]? = some c.error ∧ some c.error ≠ r.handle.bodyError
  onTime : ∀ h n r notification, s.notification h n = some (r, notification) →
    notification.phase = .done → ∀ index error, index < notification.recorded →
      r.handle.settlementErrors[index]? = some error → some error ≠ r.handle.bodyError →
      ⟨h, index, error⟩ ∈ s.scopeSettlementErrors

/-- A notification completes while another one of its handle has taken, and not yet added, an
    error that had been recorded before the quiescence of the first. -/
def Overtakes : ErrorEvent ρ ε → Prop
  | .merge h n => ∃ r notification m other c, s.notification h n = some (r, notification) ∧
      m ≠ n ∧ r.notifications[m]? = some other ∧ c ∈ other.held ∧ c.index < notification.recorded
  | _ => False

end ErrorScope

/-- All interleavings of the handles of a Stage and of their notifications. -/
def errorSystem (ρ ε : Type) [DecidableEq ε] : System (ErrorScope ρ ε) (ErrorEvent ρ ε) where
  Init s := s = {}
  step := ErrorScope.step

namespace ReportedHandle

variable {ρ ε : Type} [DecidableEq ε] {r : ReportedHandle ρ ε} {h n : Nat}
  {notification : Notification ε}

/-! ## 4. The account of one handle -/

theorem report_eq_some {index : Nat} {c : Contribution ε} :
    r.report h index = some c ↔ r.handle.settlementErrors[index]? = some c.error ∧
      some c.error ≠ r.handle.bodyError ∧ c.handle = h ∧ c.index = index := by
  unfold report
  constructor
  · intro heq
    split at heq
    · rename_i error herror
      split at heq
      · rename_i hne
        cases heq
        exact ⟨herror, hne, rfl, rfl⟩
      · cases heq
    · cases heq
  · rintro ⟨herror, hne, rfl, rfl⟩
    rw [herror]
    simp [hne]

/-- What has been recorded before a position. -/
def reportsBelow (r : ReportedHandle ρ ε) (h k : Nat) : List (Contribution ε) :=
  (List.range k).filterMap (r.report h)

theorem mem_reportsBelow {k : Nat} {c : Contribution ε} :
    c ∈ r.reportsBelow h k ↔ c.index < k ∧ c.handle = h ∧
      r.handle.settlementErrors[c.index]? = some c.error ∧ some c.error ≠ r.handle.bodyError := by
  rw [reportsBelow, List.mem_filterMap]
  constructor
  · rintro ⟨index, hindex, heq⟩
    obtain ⟨herror, hne, rfl, rfl⟩ := report_eq_some.mp heq
    exact ⟨List.mem_range.mp hindex, rfl, herror, hne⟩
  · rintro ⟨hindex, rfl, herror, hne⟩
    exact ⟨c.index, List.mem_range.mpr hindex, report_eq_some.mpr ⟨herror, hne, rfl, rfl⟩⟩

theorem nodup_reportsBelow (r : ReportedHandle ρ ε) (h k : Nat) : (r.reportsBelow h k).Nodup := by
  refine List.Nodup.filterMap (fun i j c hi hj => ?_) List.nodup_range
  exact (report_eq_some.mp hi).2.2.2.symm.trans (report_eq_some.mp hj).2.2.2

theorem reportsBelow_unreported (hcursor : r.stageErrorCursor ≤ r.handle.settlementErrors.length) :
    r.reportsBelow h r.stageErrorCursor ++ r.unreported h =
      r.reportsBelow h r.handle.settlementErrors.length := by
  have hrange : List.range r.stageErrorCursor ++
      List.range' r.stageErrorCursor (r.handle.settlementErrors.length - r.stageErrorCursor) =
      List.range r.handle.settlementErrors.length := by
    have hsplit := List.range'_append_1 (s := 0) (m := r.stageErrorCursor)
      (n := r.handle.settlementErrors.length - r.stageErrorCursor)
    rw [Nat.zero_add, Nat.add_sub_cancel' hcursor] at hsplit
    rw [List.range_eq_range', List.range_eq_range', hsplit]
  rw [reportsBelow, unreported, ← List.filterMap_append, hrange, reportsBelow]

/-- What the Stage has of one handle: the errors below the cursor, each of them once, added
    already or in the hands of a notification. -/
structure Accounted (scope : List (Contribution ε)) (h : Nat) (r : ReportedHandle ρ ε) : Prop where
  outcome : r.handle.OutcomeInv
  cursor : r.stageErrorCursor ≤ r.handle.settlementErrors.length
  final : r.notifications ≠ [] → r.handle.Final
  started : r.notifications = [] → r.stageErrorCursor = 0
  seen : ∀ ν ∈ r.notifications, ν.recorded ≤ r.handle.settlementErrors.length ∧
    (ν.phase ≠ .due → ν.recorded ≤ r.stageErrorCursor)
  account : ((scope.filter fun c => decide (c.handle = h)) ++
    r.notifications.flatMap Notification.held).Perm (r.reportsBelow h r.stageErrorCursor)

variable {scope : List (Contribution ε)}

theorem accounted_initial (loop h : Nat) (initial : List CallbackKind)
    (hnone : ∀ c ∈ scope, c.handle ≠ h) :
    Accounted scope h (ρ := ρ)
      { loop := loop, handle := initial.foldl StageHandle.registerInitialCallback {} } where
  outcome := StageHandle.outcomeInv_initial initial
  cursor := Nat.zero_le _
  final hne := absurd rfl hne
  started _ := rfl
  seen ν hν := by cases hν
  account := by
    rw [List.filter_eq_nil_iff.mpr fun c hc => by simpa using hnone c hc]
    exact List.Perm.refl _

/-- What is added has been recorded below the cursor, and is not the body error. -/
theorem Accounted.mem (ha : r.Accounted scope h) {c : Contribution ε} :
    ((c ∈ scope ∧ c.handle = h) ∨ ∃ ν ∈ r.notifications, c ∈ ν.held) ↔
      c ∈ r.reportsBelow h r.stageErrorCursor := by
  rw [← ha.account.mem_iff, List.mem_append, List.mem_filter, List.mem_flatMap,
    decide_eq_true_eq]

/-- An error is not in two places. -/
theorem Accounted.apart (ha : r.Accounted scope h) {c : Contribution ε} {ν : Notification ε}
    (hν : ν ∈ r.notifications) (hheld : c ∈ ν.held) : c ∉ scope := by
  intro hscope
  have hreport := ha.mem.mp (Or.inr ⟨ν, hν, hheld⟩)
  have hnodup := ha.account.nodup_iff.mpr (nodup_reportsBelow r h r.stageErrorCursor)
  refine (List.nodup_append.mp hnodup).2.2 c ?_ c ?_ rfl
  · exact List.mem_filter.mpr ⟨hscope, by simpa using (mem_reportsBelow.mp hreport).2.1⟩
  · exact List.mem_flatMap.mpr ⟨ν, hν, hheld⟩

theorem reportsBelow_after {handle : StageHandle ρ ε} {k : Nat}
    (hrecorded : r.handle.settlementErrors <+: handle.settlementErrors)
    (hk : k ≤ r.handle.settlementErrors.length)
    (herror : k ≠ 0 → handle.bodyError = r.handle.bodyError) :
    (r.after handle).reportsBelow h k = r.reportsBelow h k := by
  rcases Nat.eq_zero_or_pos k with rfl | hpos
  · rfl
  · refine List.filterMap_congr fun index hindex => ?_
    have hlt : index < r.handle.settlementErrors.length :=
      Nat.lt_of_lt_of_le (List.mem_range.mp hindex) hk
    obtain ⟨more, hmore⟩ := hrecorded
    have hget : handle.settlementErrors[index]? = r.handle.settlementErrors[index]? := by
      rw [← hmore, List.getElem?_append_left hlt]
    simp only [report, after, hget, herror (Nat.ne_of_gt hpos)]

/-- A step of the handle. -/
theorem Accounted.after (ha : r.Accounted scope h) {e : HandleEvent ρ ε}
    {handle : StageHandle ρ ε} (hstep : r.handle.step r.loop e = some handle) :
    (r.after handle).Accounted scope h ∧ ∀ ν ∈ r.notifications, ν.phase ≠ .due →
      (r.after handle).reportsBelow h ν.recorded = r.reportsBelow h ν.recorded := by
  have hrecorded := (StageHandle.step_reports hstep).recorded
  have hlength := hrecorded.length_le
  have herror : r.notifications ≠ [] → handle.bodyError = r.handle.bodyError :=
    fun hne => ((ha.final hne).step hstep).2
  have hnotifications : (r.after handle).notifications = r.notifications ∨
      (handle.Final ∧ (r.after handle).notifications =
        r.notifications ++ [{ recorded := handle.settlementErrors.length }]) := by
    simp only [ReportedHandle.after]
    split
    · rename_i hquiescent
      exact Or.inr ⟨ha.outcome.final_of_quiescent hstep hquiescent.1 hquiescent.2, rfl⟩
    · exact Or.inl rfl
  have hbelow : (r.after handle).reportsBelow h r.stageErrorCursor =
      r.reportsBelow h r.stageErrorCursor := by
    refine reportsBelow_after hrecorded ha.cursor fun hne => herror fun hnone => ?_
    exact hne (ha.started hnone)
  refine ⟨⟨ha.outcome.step hstep, Nat.le_trans ha.cursor hlength, fun hne => ?_, fun hnone => ?_,
    fun ν hν => ?_, ?_⟩, fun ν hν hphase => ?_⟩
  · rcases hnotifications with hsame | ⟨hfinal, -⟩
    · rw [hsame] at hne
      exact ((ha.final hne).step hstep).1
    · exact hfinal
  · rcases hnotifications with hsame | ⟨-, hmore⟩
    · rw [hsame] at hnone
      exact ha.started hnone
    · rw [hmore] at hnone
      simp at hnone
  · have hold : ν ∈ r.notifications → ν.recorded ≤ handle.settlementErrors.length ∧
        (ν.phase ≠ .due → ν.recorded ≤ r.stageErrorCursor) :=
      fun hν => ⟨Nat.le_trans (ha.seen ν hν).1 hlength, (ha.seen ν hν).2⟩
    rcases hnotifications with hsame | ⟨-, hmore⟩
    · rw [hsame] at hν
      exact hold hν
    · rw [hmore] at hν
      rcases List.mem_append.mp hν with hν | hν
      · exact hold hν
      · rw [List.mem_singleton.mp hν]
        exact ⟨Nat.le_refl _, fun hdue => absurd rfl hdue⟩
  · have hheld : (r.after handle).notifications.flatMap Notification.held =
        r.notifications.flatMap Notification.held := by
      rcases hnotifications with hsame | ⟨-, hmore⟩
      · rw [hsame]
      · rw [hmore, List.flatMap_append]
        exact List.append_nil _
    rw [hheld]
    exact ha.account.trans (List.Perm.of_eq hbelow.symm)
  · exact reportsBelow_after hrecorded (ha.seen ν hν).1
      fun _ => herror (List.ne_nil_of_mem hν)

/-- A notification takes what is behind the cursor. -/
theorem Accounted.take (ha : r.Accounted scope h) (hget : r.notifications[n]? = some notification)
    (hdue : notification.phase = .due) : (r.take h n notification).Accounted scope h where
  outcome := ha.outcome
  cursor := Nat.le_refl _
  final _ := ha.final (List.ne_nil_of_mem (List.mem_of_getElem? hget))
  started hnone := by
    have hlength := congrArg List.length hnone
    have hlt := (List.getElem?_eq_some_iff.mp hget).1
    simp only [ReportedHandle.take, setPhase, List.length_set, List.length_nil] at hlength
    omega
  seen ν hν := by
    rcases List.mem_or_eq_of_mem_set hν with hν | rfl
    · exact ⟨(ha.seen ν hν).1, fun _ => (ha.seen ν hν).1⟩
    · have hseen := (ha.seen notification (List.mem_of_getElem? hget)).1
      exact ⟨hseen, fun _ => hseen⟩
  account := by
    have hset := flatMap_set_perm (f := Notification.held)
      (y := { notification with phase := .holding (r.unreported h) }) hget
    rw [show notification.held = [] by rw [Notification.held, hdue], List.append_nil] at hset
    refine (hset.append_left _).trans ?_
    rw [← List.append_assoc]
    exact (ha.account.append_right _).trans (List.Perm.of_eq (reportsBelow_unreported ha.cursor))

/-- The errors that a notification holds are errors of its handle. -/
theorem Accounted.handle_of_held (ha : r.Accounted scope h)
    (hget : r.notifications[n]? = some notification) {c : Contribution ε}
    (hc : c ∈ notification.held) : c.handle = h :=
  (mem_reportsBelow.mp (ha.mem.mp (Or.inr ⟨_, List.mem_of_getElem? hget, hc⟩))).2.1

/-- A notification adds what it holds. -/
theorem Accounted.merge (ha : r.Accounted scope h) (hget : r.notifications[n]? = some notification)
    {errors : List (Contribution ε)} (hholding : notification.phase = .holding errors) :
    (r.setPhase n notification .done).Accounted (scope ++ errors) h where
  outcome := ha.outcome
  cursor := ha.cursor
  final _ := ha.final (List.ne_nil_of_mem (List.mem_of_getElem? hget))
  started hnone := by
    have hlength := congrArg List.length hnone
    have hlt := (List.getElem?_eq_some_iff.mp hget).1
    simp only [setPhase, List.length_set, List.length_nil] at hlength
    omega
  seen ν hν := by
    rcases List.mem_or_eq_of_mem_set hν with hν | rfl
    · exact ha.seen ν hν
    · have hseen := ha.seen notification (List.mem_of_getElem? hget)
      exact ⟨hseen.1, fun _ => hseen.2 (by rw [hholding]; exact fun h => by cases h)⟩
  account := by
    have hheld : notification.held = errors := by rw [Notification.held, hholding]
    have hset := flatMap_set_perm (f := Notification.held)
      (y := { notification with phase := .done }) hget
    rw [hheld, show ({ notification with phase := .done } : Notification ε).held = [] from rfl,
      List.append_nil] at hset
    have hown : (errors.filter fun c => decide (c.handle = h)) = errors := by
      refine List.filter_eq_self.mpr fun c hc => decide_eq_true ?_
      exact ha.handle_of_held hget (hheld ▸ hc)
    rw [List.filter_append, hown, List.append_assoc]
    exact ((List.perm_append_comm.trans hset).append_left _).trans ha.account

/-- Another handle's notification adds what it holds. -/
theorem Accounted.extend (ha : r.Accounted scope h) {errors : List (Contribution ε)}
    (hother : ∀ c ∈ errors, c.handle ≠ h) : r.Accounted (scope ++ errors) h where
  outcome := ha.outcome
  cursor := ha.cursor
  final := ha.final
  started := ha.started
  seen := ha.seen
  account := by
    have hnone : (errors.filter fun c => decide (c.handle = h)) = [] :=
      List.filter_eq_nil_iff.mpr fun c hc => by simpa using hother c hc
    rw [List.filter_append, hnone, List.append_nil]
    exact ha.account

/-- What a complete notification has found recorded has been added. -/
def OnTime (scope : List (Contribution ε)) (h : Nat) (r : ReportedHandle ρ ε) : Prop :=
  ∀ ν ∈ r.notifications, ν.phase = .done → ∀ c ∈ r.reportsBelow h ν.recorded, c ∈ scope

theorem reportsBelow_mono {k k' : Nat} (hk : k ≤ k') {c : Contribution ε}
    (hc : c ∈ r.reportsBelow h k) : c ∈ r.reportsBelow h k' := by
  obtain ⟨hindex, hrest⟩ := mem_reportsBelow.mp hc
  exact mem_reportsBelow.mpr ⟨Nat.lt_of_lt_of_le hindex hk, hrest⟩

end ReportedHandle

namespace ErrorScope

open ReportedHandle

variable {ρ ε : Type} [DecidableEq ε] {s s' : ErrorScope ρ ε} {h n : Nat}
  {r : ReportedHandle ρ ε} {notification : Notification ε}

/-! ## 5. The Stage -/

structure ErrorInv (s : ErrorScope ρ ε) : Prop where
  accounted : ∀ h r, s.handles[h]? = some r → Accounted s.scopeSettlementErrors h r
  known : ∀ c ∈ s.scopeSettlementErrors, c.handle < s.handles.length
  onTime : ∀ h r, s.handles[h]? = some r → OnTime s.scopeSettlementErrors h r

omit [DecidableEq ε] in
theorem notification_eq_some :
    s.notification h n = some (r, notification) ↔
      s.handles[h]? = some r ∧ r.notifications[n]? = some notification := by
  unfold ErrorScope.notification
  cases hget : s.handles[h]? with
  | none => simp
  | some r' =>
    simp only [Option.map_eq_some_iff, Prod.mk.injEq, Option.some.injEq]
    constructor
    · rintro ⟨ν, hν, rfl, rfl⟩
      exact ⟨rfl, hν⟩
    · rintro ⟨rfl, hν⟩
      exact ⟨notification, hν, rfl, rfl⟩

/-- One handle changes, and nothing is added. -/
theorem ErrorInv.setHandle (hi : ErrorInv s) {r' : ReportedHandle ρ ε}
    (hget : s.handles[h]? = some r) (ha : r'.Accounted s.scopeSettlementErrors h)
    (htime : r'.OnTime s.scopeSettlementErrors h) : ErrorInv (s.setHandle h r') where
  accounted k q hk := by
    rcases getElem?_set_cases hget hk with ⟨rfl, rfl⟩ | ⟨-, hk⟩
    · exact ha
    · exact hi.accounted k q hk
  known c hc := by
    have := hi.known c hc
    simpa [ErrorScope.setHandle] using this
  onTime k q hk := by
    rcases getElem?_set_cases hget hk with ⟨rfl, rfl⟩ | ⟨-, hk⟩
    · exact htime
    · exact hi.onTime k q hk

/-- A notification that does not overtake another one has everything added when it completes. -/
theorem ErrorInv.onTime_merge (hi : ErrorInv s) (hget : s.handles[h]? = some r)
    (hν : r.notifications[n]? = some notification) {errors : List (Contribution ε)}
    (hholding : notification.phase = .holding errors) (hok : ¬ s.Overtakes (.merge h n)) :
    (r.setPhase n notification .done).OnTime (s.scopeSettlementErrors ++ errors) h := by
  have ha := hi.accounted h r hget
  intro ν hmem hdone c hc
  rcases List.mem_or_eq_of_mem_set hmem with hmem | rfl
  · exact List.mem_append_left _ (hi.onTime h r hget ν hmem hdone c hc)
  · have hseen := (ha.seen notification (List.mem_of_getElem? hν)).2
      (by rw [hholding]; exact fun h => by cases h)
    rcases ha.mem.mpr (reportsBelow_mono hseen hc) with ⟨hscope, -⟩ | ⟨other, hother, hheld⟩
    · exact List.mem_append_left _ hscope
    · obtain ⟨m, hm⟩ := List.mem_iff_getElem?.mp hother
      by_cases hsame : m = n
      · subst hsame
        rw [hν] at hm
        cases hm
        rw [Notification.held, hholding] at hheld
        exact List.mem_append_right _ hheld
      · refine absurd ?_ hok
        exact ⟨r, notification, m, other, c, notification_eq_some.mpr ⟨hget, hν⟩, hsame, hm, hheld,
          (mem_reportsBelow.mp hc).1⟩

theorem ErrorInv.merge (hi : ErrorInv s) (hget : s.handles[h]? = some r)
    (hν : r.notifications[n]? = some notification) {errors : List (Contribution ε)}
    (hholding : notification.phase = .holding errors) (hok : ¬ s.Overtakes (.merge h n)) :
    ErrorInv { s.setHandle h (r.setPhase n notification .done) with
      scopeSettlementErrors := s.scopeSettlementErrors ++ errors } := by
  have ha := hi.accounted h r hget
  have hown : ∀ c ∈ errors, c.handle = h := fun c hc =>
    ha.handle_of_held hν (by rw [Notification.held, hholding]; exact hc)
  constructor
  · intro k q hk
    rcases getElem?_set_cases hget hk with ⟨rfl, rfl⟩ | ⟨hne, hk⟩
    · exact ha.merge hν hholding
    · exact (hi.accounted k q hk).extend fun c hc heq => hne (heq.symm.trans (hown c hc))
  · intro c hc
    have hlt : c.handle < s.handles.length := by
      rcases List.mem_append.mp hc with hc | hc
      · exact hi.known c hc
      · rw [hown c hc]
        exact (List.getElem?_eq_some_iff.mp hget).1
    simpa [ErrorScope.setHandle] using hlt
  · intro k q hk
    rcases getElem?_set_cases hget hk with ⟨rfl, rfl⟩ | ⟨hne, hk⟩
    · exact hi.onTime_merge hget hν hholding hok
    · exact fun ν hmem hdone c hc =>
        List.mem_append_left _ (hi.onTime k q hk ν hmem hdone c hc)

theorem ErrorInv.step (hi : ErrorInv s) {e : ErrorEvent ρ ε} (hok : ¬ s.Overtakes e)
    (hstep : s.step e = some s') : ErrorInv s' := by
  cases e with
  | newHandle loop initial =>
    cases hstep
    constructor
    · intro k q hk
      rcases getElem?_append_cases hk with ⟨rfl, rfl⟩ | hk
      · exact accounted_initial loop _ initial fun c hc => Nat.ne_of_lt (hi.known c hc)
      · exact hi.accounted k q hk
    · intro c hc
      have := hi.known c hc
      simp only [List.length_append, List.length_singleton]
      omega
    · intro k q hk
      rcases getElem?_append_cases hk with ⟨rfl, rfl⟩ | hk
      · intro ν hmem
        cases hmem
      · exact hi.onTime k q hk
  | handle h e =>
    simp only [ErrorScope.step] at hstep
    split at hstep
    · rename_i r hget
      obtain ⟨handle, hhandle, rfl⟩ := Option.map_eq_some_iff.mp hstep
      obtain ⟨ha, hbelow⟩ := (hi.accounted h r hget).after hhandle
      refine hi.setHandle hget ha fun ν hmem hdone c hc => ?_
      have hold : ν ∈ r.notifications := by
        simp only [ReportedHandle.after] at hmem
        split at hmem
        · rcases List.mem_append.mp hmem with hmem | hmem
          · exact hmem
          · rw [List.mem_singleton.mp hmem] at hdone
            cases hdone
        · exact hmem
      rw [hbelow ν hold (by rw [hdone]; exact fun h => by cases h)] at hc
      exact hi.onTime h r hget ν hold hdone c hc
    · cases hstep
  | take h n =>
    simp only [ErrorScope.step] at hstep
    split at hstep
    · rename_i r notification hnotification
      obtain ⟨hget, hν⟩ := notification_eq_some.mp hnotification
      split at hstep
      · rename_i hdue
        cases hstep
        refine hi.setHandle hget ((hi.accounted h r hget).take hν hdue) fun ν hmem hdone c hc => ?_
        rcases List.mem_or_eq_of_mem_set hmem with hmem | rfl
        · exact hi.onTime h r hget ν hmem hdone c hc
        · cases hdone
      · cases hstep
    · cases hstep
  | merge h n =>
    simp only [ErrorScope.step] at hstep
    split at hstep
    · rename_i r notification hnotification
      obtain ⟨hget, hν⟩ := notification_eq_some.mp hnotification
      split at hstep
      · rename_i errors hholding
        cases hstep
        exact hi.merge hget hν hholding hok
      · cases hstep
    · cases hstep

theorem reachUnder_errorInv (hreach : (errorSystem ρ ε).ReachUnder (fun s e => ¬ s.Overtakes e) s) :
    ErrorInv s := by
  refine hreach.invariant (fun t ht => ?_) fun _ _ _ hi hok hstep => hi.step hok hstep
  rw [ht]
  exact ⟨fun _ _ hget => absurd hget (by simp), fun c hc => absurd hc (by simp),
    fun _ _ hget => absurd hget (by simp)⟩

theorem ErrorInv.exact (hi : ErrorInv s) : s.Exact where
  once := by
    refine List.nodup_iff_count_le_one.mpr fun c => ?_
    by_cases hmem : c ∈ s.scopeSettlementErrors
    · -- the errors of one handle are part of its account
      have ha := hi.accounted c.handle _ (List.getElem?_eq_getElem (hi.known c hmem))
      have hnodup := ha.account.nodup_iff.mpr (nodup_reportsBelow _ _ _)
      have hcount := List.nodup_iff_count_le_one.mp (List.nodup_append.mp hnodup).1 c
      rwa [List.count_filter (by simp)] at hcount
    · rw [List.count_eq_zero_of_not_mem hmem]
      exact Nat.zero_le _
  genuine c hc := by
    have hget := List.getElem?_eq_getElem (hi.known c hc)
    have hreport := (hi.accounted c.handle _ hget).mem.mp (Or.inl ⟨hc, rfl⟩)
    obtain ⟨-, -, herror, hne⟩ := mem_reportsBelow.mp hreport
    exact ⟨_, hget, herror, hne⟩
  onTime h n r notification hnotification hdone index error hindex herror hne := by
    obtain ⟨hget, hν⟩ := notification_eq_some.mp hnotification
    exact hi.onTime h r hget notification (List.mem_of_getElem? hν) hdone _
      (mem_reportsBelow.mpr ⟨hindex, rfl, herror, hne⟩)

/-- An error that another notification holds is missing when the first one completes. -/
theorem ErrorInv.not_exact_of_overtakes (hi : ErrorInv s) {e : ErrorEvent ρ ε}
    (hovertakes : s.Overtakes e) (hstep : s.step e = some s') : ¬ s'.Exact := by
  cases e with
  | merge h n =>
    obtain ⟨r, notification, m, other, c, hnotification, hne, hother, hheld, hindex⟩ := hovertakes
    obtain ⟨hget, hν⟩ := notification_eq_some.mp hnotification
    simp only [ErrorScope.step, hnotification] at hstep
    split at hstep
    · rename_i errors hholding
      cases hstep
      have ha := hi.accounted h r hget
      have hreport := ha.mem.mp (Or.inr ⟨other, List.mem_of_getElem? hother, hheld⟩)
      obtain ⟨-, hhandle, herror, hbody⟩ := mem_reportsBelow.mp hreport
      have hother' : (r.setPhase n notification .done).notifications[m]? = some other := by
        rw [setPhase, List.getElem?_set_ne hne.symm]
        exact hother
      have hapart := (ha.merge hν hholding).apart (List.mem_of_getElem? hother') hheld
      intro hexact
      have hmem := hexact.onTime h n (r.setPhase n notification .done)
        { notification with phase := .done }
        (notification_eq_some.mpr ⟨getElem?_set_self' hget, getElem?_set_self' hν⟩) rfl c.index
        c.error hindex herror hbody
      rw [← hhandle] at hmem
      exact hapart hmem
    · cases hstep
  | _ => cases hovertakes

/-- **Neither lost nor duplicated.**  As long as no notification completes while another one of
    its handle has taken, and not added, an error that had been recorded before the quiescence of
    the first, every error that is not the body error is added exactly once, and on time; and an
    error that is overtaken so is late. -/
theorem settlement_errors_exact_iff (s : ErrorScope ρ ε) :
    ((errorSystem ρ ε).ReachUnder (fun s e => ¬ s.Overtakes e) s → s.Exact) ∧
    ∀ e s', (errorSystem ρ ε).ReachUnder (fun s e => ¬ s.Overtakes e) s →
      (errorSystem ρ ε).step s e = some s' → s.Overtakes e → ¬ s'.Exact :=
  ⟨fun hreach => (reachUnder_errorInv hreach).exact,
    fun _ _ hreach hstep hovertakes =>
      (reachUnder_errorInv hreach).not_exact_of_overtakes hovertakes hstep⟩

/-- A handle has settled.  A task that its context outlives it in ends, and a late callback fails
    on another loop: the notification of the task takes the error, and that of the callback finds
    nothing and completes first. -/
def overtakenRun : List (ErrorEvent Nat Nat) :=
  [.newHandle 0 [], .handle 0 .retain, .handle 0 .submit, .handle 0 .setOwnerTask,
    .handle 0 (.completeBody (.result 0)), .handle 0 .releaseOwner, .take 0 0, .merge 0 0,
    .handle 0 .retainDescendant, .handle 0 (.endDescendant 0), .handle 0 (.descendantDone 0 none),
    .handle 0 (.register .finally), .handle 0 .retainDrain, .handle 0 (.submitDrain true),
    .handle 0 (.drain 0), .handle 0 (.finishCallback 0 (.raised 7)), .take 0 1,
    .handle 0 (.drain 0), .handle 0 (.releaseDrain 0), .take 0 2, .merge 0 2]

/-- The notification of the callback is complete and its error is missing. -/
theorem overtaken_error_is_late :
    ¬ ∀ s, (errorSystem Nat Nat).Reachable s → s.Exact := by
  intro hall
  have hend : ((errorSystem Nat Nat).run {} overtakenRun).any (fun s =>
      decide (s.scopeSettlementErrors = []) &&
        ((s.notification 0 2).any fun p => decide (p.2 = ⟨1, .done⟩ ∧
          p.1.handle.settlementErrors[0]? = some 7 ∧ p.1.handle.bodyError = none))) = true := by
    decide
  obtain ⟨s, hrun, hs⟩ := (Option.any_eq_true _ _).mp hend
  obtain ⟨hempty, hs⟩ := Bool.and_eq_true_iff.mp hs
  obtain ⟨⟨r, notification⟩, hnotification, hp⟩ := (Option.any_eq_true _ _).mp hs
  obtain ⟨rfl, herror, hbody⟩ := of_decide_eq_true hp
  have hmem := (hall s (System.reachable_of_run overtakenRun rfl hrun)).onTime 0 2 r _
    hnotification rfl 0 7 (by decide) herror (by rw [hbody]; exact fun h => by cases h)
  rw [of_decide_eq_true hempty] at hmem
  cases hmem

end ErrorScope

end AgentlyStage
