import AgentlyStage.EpochCoherence
import AgentlyStage.IdleWatch
import Mathlib.Data.Finset.Image

/-!
# The cancellation fence of a Stage

`cancel_and_wait_settled` and the idle deadline set `_cancelling` and copy the active set inside
the lock, and cancel the items of the copy after they have left it.  `go` and `adopt` read the
flag when they add their item, and cancel it themselves.  So what is active while the flag is set
is in a copy, or its admission has seen the flag, or it had finished before it became active (a
late callback).

The loops of unfinished work are open.  A `go` whose submission is refused raises.
-/

namespace AgentlyStage

open Transition

/-! ## 1. State -/

/-- What a Stage waits for: a root handle or an adopted task. -/
inductive WorkItem where
  | handle (h : Nat)
  | task (t : Nat)
deriving DecidableEq, Repr

/-- `_active_handles` and `_adopted_tasks`. -/
def EpochState.activeItems (s : EpochState) : Finset WorkItem :=
  s.activeHandles.image .handle ∪ s.adoptedTasks.image .task

structure FenceState where
  epoch : EpochState
  /-- The handles of `go` calls that have left the lock and not handed the body over. -/
  submitting : Finset Nat := ∅
  /-- The handles whose `go` has read `_cancelling` as true. -/
  shouldCancel : Finset Nat := ∅
  /-- The handles of `go` calls that have raised after the lock. -/
  refused : Finset Nat := ∅
  /-- The body outcome is set; the task is done. -/
  finished : Finset WorkItem := ∅
  /-- The calls of `cancel` that are still to be made, outside the lock. -/
  owed : Multiset WorkItem := 0
  requested : Finset WorkItem := ∅
  /-- History: what has been active while `_cancelling` was set. -/
  fenced : Finset WorkItem := ∅
deriving DecidableEq

inductive FenceEvent where
  /-- A critical section of the Stage. -/
  | scope (e : EpochEvent)
  /-- `go` has handed the body over. -/
  | submitted (h : Nat)
  /-- The submission raises; `settled` says that it has released the work of the handle. -/
  | refused (h : Nat) (settled : Bool)
  | finish (w : WorkItem)
  /-- `StageHandle.cancel` or `Task.cancel`; `ownedTasks` says that tasks of the body are alive. -/
  | cancel (w : WorkItem) (ownedTasks : Bool)
deriving DecidableEq

namespace FenceState

/-! ## 2. Steps -/

/-- The copy that a canceller takes. -/
def cancelItems (s : FenceState) (epoch : EpochState) : FenceState :=
  { s with epoch := epoch, owed := s.owed + epoch.activeItems.val }

/-- `go` has made a handle, unless it has raised. -/
def admitHandle (s : FenceState) (epoch : EpochState) : FenceState :=
  if s.epoch.handles.length < epoch.handles.length then
    { s with
      epoch := epoch
      submitting := insert s.epoch.handles.length s.submitting
      shouldCancel :=
        if epoch.cancelling then insert s.epoch.handles.length s.shouldCancel else s.shouldCancel }
  else { s with epoch := epoch }

/-- `adopt` has added the task, or it was there, or `adopt` has raised. -/
def admitTask (s : FenceState) (t : Nat) (epoch : EpochState) : FenceState :=
  if t ∈ epoch.adoptedTasks ∧ t ∉ s.epoch.adoptedTasks ∧ epoch.cancelling = true then
    { s with epoch := epoch, owed := .task t ::ₘ s.owed }
  else { s with epoch := epoch }

/-- What the caller of a critical section takes out of it. -/
def afterScope (s : FenceState) (epoch : EpochState) : EpochEvent → FenceState
  | .go _ => s.admitHandle epoch
  | .adopt _ t => s.admitTask t epoch
  | .createTask _ _ => s.admitTask s.epoch.taskLoops.length epoch
  | .cancelScope =>
    if s.epoch.hasActiveWorkLocked then s.cancelItems epoch else { s with epoch := epoch }
  | .fire _ =>
    -- the deadline seals the Stage when it cancels the scope
    if !s.epoch.isSealed && epoch.isSealed then s.cancelItems epoch else { s with epoch := epoch }
  | _ => { s with epoch := epoch }

/-- A handle settles after its body, and so do the callbacks of late registrations start. -/
def scopeEnabled (s : FenceState) : EpochEvent → Bool
  | .handleQuiescent h => decide (h ∉ s.submitting ∧ .handle h ∈ s.finished)
  | .lateCallback _ h _ _ _ => decide (.handle h ∈ s.finished)
  | .adoptedTaskDone t => decide (.task t ∈ s.finished)
  | _ => true

/-- The body runs once it is handed over; a refused body never does. -/
def canFinish (s : FenceState) : WorkItem → Bool
  | .handle h => decide (h < s.epoch.handles.length ∧ h ∉ s.submitting ∧ h ∉ s.refused)
  | .task t => decide (t < s.epoch.taskLoops.length)

/-- `cancel` of a finished body without tasks does nothing. -/
def deliver (s : FenceState) (w : WorkItem) (ownedTasks : Bool) : FenceState :=
  { s with
    owed := s.owed.erase w
    requested :=
      if w ∈ s.finished ∧ ownedTasks = false then s.requested else insert w s.requested }

def submit (s : FenceState) (h : Nat) : FenceState :=
  { s with
    submitting := s.submitting.erase h
    owed := if h ∈ s.shouldCancel then .handle h ::ₘ s.owed else s.owed }

def refuse (s : FenceState) (h : Nat) (settled : Bool) : FenceState :=
  { s with
    epoch := if settled then s.epoch.handleQuiescent h else s.epoch
    submitting := s.submitting.erase h
    refused := insert h s.refused }

/-- The history of what is active while the flag is set. -/
def observe (s : FenceState) : FenceState :=
  { s with fenced := if s.epoch.cancelling then s.fenced ∪ s.epoch.activeItems else s.fenced }

def rawStep (s : FenceState) : FenceEvent → Option FenceState
  | .scope e =>
    if s.scopeEnabled e then (s.epoch.step e).map fun epoch => s.afterScope epoch e else none
  | .submitted h => if h ∈ s.submitting then some (s.submit h) else none
  | .refused h settled => if h ∈ s.submitting then some (s.refuse h settled) else none
  | .finish w => if s.canFinish w then some { s with finished := insert w s.finished } else none
  | .cancel w ownedTasks => if w ∈ s.owed then some (s.deliver w ownedTasks) else none

def step (s : FenceState) (e : FenceEvent) : Option FenceState := (s.rawStep e).map observe

end FenceState

namespace EpochState

variable {s s' t : EpochState} {site : CallSite} {w : WorkItem}

/-! ## 3. The active set -/

@[simp] theorem handle_mem_activeItems {h : Nat} :
    .handle h ∈ s.activeItems ↔ h ∈ s.activeHandles := by
  simp [activeItems]

@[simp] theorem task_mem_activeItems {t : Nat} :
    .task t ∈ s.activeItems ↔ t ∈ s.adoptedTasks := by
  simp [activeItems]

/-- The step leaves the flag or clears it, and makes nothing active that is not in `new`. -/
structure Brings (s s' : EpochState) (new : WorkItem → Prop) : Prop where
  flag : s'.cancelling = true → s.cancelling = true
  items : ∀ w ∈ s'.activeItems, w ∈ s.activeItems ∨ new w

theorem Brings.of_eq {new : WorkItem → Prop} (hflag : s'.cancelling = s.cancelling)
    (hhandles : s'.activeHandles = s.activeHandles) (htasks : s'.adoptedTasks = s.adoptedTasks) :
    Brings s s' new :=
  ⟨fun h => hflag ▸ h, fun w hw => Or.inl (by rwa [activeItems, hhandles, htasks] at hw)⟩

theorem Brings.of_subset {new : WorkItem → Prop} (hflag : s'.cancelling = s.cancelling)
    (hhandles : s'.activeHandles ⊆ s.activeHandles) (htasks : s'.adoptedTasks ⊆ s.adoptedTasks) :
    Brings s s' new := by
  refine ⟨fun h => hflag ▸ h, fun w hw => Or.inl ?_⟩
  cases w with
  | handle h => exact handle_mem_activeItems.mpr (hhandles (handle_mem_activeItems.mp hw))
  | task t => exact task_mem_activeItems.mpr (htasks (task_mem_activeItems.mp hw))

theorem Brings.trans {new : WorkItem → Prop} (h₁ : Brings s t new) (h₂ : Brings t s' new) :
    Brings s s' new :=
  ⟨fun h => h₁.flag (h₂.flag h), fun w hw => (h₂.items w hw).elim (h₁.items w) Or.inr⟩

theorem brings_touch {new : WorkItem → Prop} (s : EpochState) : Brings s s.touchLocked new := by
  obtain ⟨activity, token, timer, timers, heq, -⟩ := touchLocked_frame s
  rw [heq]
  exact .of_eq rfl rfl rfl

theorem brings_release {new : WorkItem → Prop} (s : EpochState) :
    Brings s s.releaseBackendIfQuiescentLocked new := by
  unfold releaseBackendIfQuiescentLocked
  split
  · exact .of_eq rfl rfl rfl
  · exact ⟨fun h => (by cases h), fun w hw => Or.inl hw⟩

theorem brings_resolve {new : WorkItem → Prop} {selected : BackendKind × Option Nat}
    (h : s.resolveBackendLocked site = .ok (selected, s')) : Brings s s' new := by
  rcases resolveBackendLocked_spec h with ⟨-, -, rfl⟩ | ⟨-, -, -, rfl⟩ | ⟨-, -, -, rfl⟩
  · exact .of_eq rfl rfl rfl
  · exact .of_eq rfl rfl rfl
  · exact .of_eq rfl rfl rfl

theorem brings_insertHandle (s : EpochState) (h : Nat) (handles : List EpochHandle) :
    Brings s { s with handles := handles, activeHandles := insert h s.activeHandles }
      (· = .handle h) := by
  refine ⟨id, fun w hw => ?_⟩
  cases w with
  | handle k =>
    rcases Finset.mem_insert.mp (handle_mem_activeItems.mp hw) with rfl | hmem
    · exact Or.inr rfl
    · exact Or.inl (handle_mem_activeItems.mpr hmem)
  | task t =>
    rw [task_mem_activeItems] at hw
    exact Or.inl (task_mem_activeItems.mpr hw)

theorem brings_insertTask (s : EpochState) (t : Nat) :
    Brings s { s with adoptedTasks := insert t s.adoptedTasks } (· = .task t) := by
  refine ⟨id, fun w hw => ?_⟩
  cases w with
  | handle h =>
    rw [handle_mem_activeItems] at hw
    exact Or.inl (handle_mem_activeItems.mpr hw)
  | task k =>
    rcases Finset.mem_insert.mp (task_mem_activeItems.mp hw) with rfl | hmem
    · exact Or.inr rfl
    · exact Or.inl (task_mem_activeItems.mpr hmem)

/-- `go` makes one handle active, or it raises. -/
theorem brings_go (s : EpochState) (site : CallSite) :
    (Brings s (s.go site).1 (fun _ => False) ∧
        (s.go site).1.handles.length = s.handles.length) ∨
      (Brings s (s.go site).1 (· = .handle s.handles.length) ∧
        (s.go site).1.handles.length = s.handles.length + 1 ∧
        s.handles.length ∈ (s.go site).1.activeHandles) := by
  unfold EpochState.go
  split
  · split
    · exact Or.inl ⟨.of_eq rfl rfl rfl, rfl⟩
    · rename_i backend loop s' hresolve
      have hlength : s'.handles = s.handles := by
        rcases resolveBackendLocked_spec hresolve with ⟨-, -, rfl⟩ | ⟨-, -, -, rfl⟩ | ⟨-, -, -, rfl⟩
        · rfl
        · rfl
        · rfl
      right
      rw [← hlength]
      refine ⟨((brings_resolve hresolve).trans (brings_insertHandle s' _ _)).trans
        (brings_touch _), ?_⟩
      obtain ⟨activity, token, timer, timers, heq, -⟩ := touchLocked_frame { s' with
        handles := s'.handles ++ [{ backendKind := backend, loop := loop }]
        activeHandles := insert s'.handles.length s'.activeHandles }
      rw [heq]
      exact ⟨List.length_append, Finset.mem_insert_self _ _⟩
  · exact Or.inl ⟨.of_eq rfl rfl rfl, rfl⟩

theorem brings_adopt (s : EpochState) (site : CallSite) (t loop : Nat) :
    Brings s (s.adopt site t loop).1 (· = .task t) := by
  unfold EpochState.adopt
  split
  · split
    · exact .of_eq rfl rfl rfl
    · split
      · exact .of_eq rfl rfl rfl
      · rename_i selected s' hresolve
        have hbound : Brings s s' (· = .task t) := brings_resolve hresolve
        split
        · exact (hbound.trans (brings_insertTask s' t)).trans (brings_touch _)
        · exact hbound.trans (brings_release s')
  · exact .of_eq rfl rfl rfl

theorem brings_selectForTask {new : WorkItem → Prop} (s : EpochState) (site : CallSite)
    (loop : Nat) : Brings s (s.selectForTask site loop).1 new := by
  unfold EpochState.selectForTask
  split
  · split
    · exact .of_eq rfl rfl rfl
    · rename_i selected s' hresolve
      have hbound : Brings s s' new := brings_resolve hresolve
      split
      · exact hbound.trans (.of_eq rfl rfl rfl)
      · exact hbound.trans (brings_release s')
  · exact .of_eq rfl rfl rfl

theorem brings_handleQuiescent {new : WorkItem → Prop} (s : EpochState) (h : Nat) :
    Brings s (s.handleQuiescent h) new := by
  have herase : Brings s { s with activeHandles := s.activeHandles.erase h } new :=
    .of_subset rfl (Finset.erase_subset _ _) (Finset.Subset.refl _)
  exact herase.trans (brings_release _)

theorem brings_lateCallback (s : EpochState) (site : CallSite) (h : Nat) (handle : EpochHandle)
    (loopRuns loopStillRuns : Bool) (start : DrainStart) :
    Brings s (s.lateCallback site h handle loopRuns loopStillRuns start).1 (· = .handle h) := by
  obtain ⟨backend, loop, lease, count, blocked, hepoch⟩ := lateEpoch_frame s site handle loopRuns
  have hlate : Brings s (s.lateEpoch site handle loopRuns).1 (· = .handle h) := by
    rw [hepoch]
    exact .of_eq rfl rfl rfl
  have hadmit := hlate.trans (brings_insertHandle _ h (s.lateEpoch site handle loopRuns).1.handles)
  rcases @lateCallback_cases s site h handle loopRuns loopStillRuns start with
    ⟨heq, -⟩ | ⟨heq, -, -⟩ | ⟨-, -, ⟨-, heq⟩ | ⟨-, heq⟩⟩
  · rw [heq]
    exact .of_eq rfl rfl rfl
  · rw [heq]
    exact hlate
  · rw [heq]
    exact hadmit
  · rw [heq]
    exact hadmit.trans (brings_handleQuiescent _ h)

theorem brings_adoptedTaskDone {new : WorkItem → Prop} (s : EpochState) (t : Nat) :
    Brings s (s.adoptedTaskDone t) new := by
  have herase : Brings s { s with
      adoptedTasks := s.adoptedTasks.erase t, observing := s.observing + 1 } new :=
    .of_subset rfl (Finset.Subset.refl _) (Finset.erase_subset _ _)
  exact herase.trans (brings_touch _)

/-- A deadline leaves the active set; when it does not seal the Stage it leaves the flag. -/
theorem fire_activity {i : Nat} (h : s.fire i = some s') :
    s'.activeItems = s.activeItems ∧
      ((s'.cancelling = s.cancelling ∧ s'.isSealed = s.isSealed) ∨
        (s.isSealed = false ∧ s'.isSealed = true ∧ s'.cancelling = true)) := by
  obtain ⟨timer, -, -, -, -, ⟨rfl, -⟩ | ⟨timeout, -, -, hopen, -, ⟨-, rfl⟩ | ⟨-, rfl⟩⟩⟩ :=
    fired_cases h
  · exact ⟨rfl, Or.inl ⟨rfl, rfl⟩⟩
  · exact ⟨rfl, Or.inl ⟨rfl, rfl⟩⟩
  · exact ⟨rfl, Or.inr ⟨hopen, rfl, rfl⟩⟩

/-- What an admission or a late callback makes active. -/
def brought (s : EpochState) : EpochEvent → WorkItem → Prop
  | .go _, w => w = .handle s.handles.length
  | .lateCallback _ h _ _ _, w => w = .handle h
  | .adopt _ t, w => w = .task t
  | .createTask _ _, w => w = .task s.taskLoops.length
  | _, _ => False

/-- Cancellers set the flag and leave the active set; every other step leaves the flag or clears
    it. -/
theorem activity_step {e : EpochEvent} (hstep : s.step e = some s') :
    Brings s s' (s.brought e) ∨ (s'.activeItems = s.activeItems ∧
      ((e = .cancelScope ∧ s.hasActiveWorkLocked = true) ∨
        ∃ i, e = .fire i ∧ s.isSealed = false ∧ s'.isSealed = true)) := by
  cases stepped hstep with
  | enter mode hopen => exact Or.inl (.of_eq rfl rfl rfl)
  | go site =>
    left
    rcases brings_go s site with ⟨hb, -⟩ | ⟨hb, -, -⟩
    · exact ⟨hb.flag, fun w hw => (hb.items w hw).imp_right False.elim⟩
    · exact hb
  | setOwnerTask h => exact Or.inl (.of_eq rfl rfl rfl)
  | handleQuiescent h hlt => exact Or.inl (brings_handleQuiescent s h)
  | lateCallback site h handle loopRuns loopStillRuns start hget =>
    exact Or.inl (brings_lateCallback s site h handle loopRuns loopStillRuns start)
  | selectForTask site loop hloop => exact Or.inl (brings_selectForTask s site loop)
  | createTaskFails i hlt => exact Or.inl (.of_eq rfl rfl rfl)
  | createTask i loop site hget hloop =>
    have hmade : Brings s { s with
        creating := s.creating.eraseIdx i, taskLoops := s.taskLoops ++ [loop] }
        (· = .task s.taskLoops.length) := .of_eq rfl rfl rfl
    exact Or.inl (hmade.trans (brings_adopt _ site _ loop))
  | newTask loop => exact Or.inl (.of_eq rfl rfl rfl)
  | adopt site t loop hget => exact Or.inl (brings_adopt s site t loop)
  | adoptedTaskDone t hmem => exact Or.inl (brings_adoptedTaskDone s t)
  | observed hobserving =>
    have hleft : Brings s { s with observing := s.observing - 1 } (s.brought .observed) :=
      .of_eq rfl rfl rfl
    exact Or.inl (hleft.trans (brings_release _))
  | ownedActivity => exact Or.inl (brings_touch s)
  | tick =>
    left
    unfold EpochState.tick
    split
    · exact .of_eq rfl rfl rfl
    · exact brings_touch s
  | cancelScope =>
    unfold EpochState.cancelScope
    split
    · rename_i hactive
      exact Or.inr ⟨rfl, Or.inl ⟨rfl, hactive⟩⟩
    · exact Or.inl (.of_eq rfl rfl rfl)
  | sealScope => exact Or.inl (.of_eq rfl rfl rfl)
  | fire i hfire =>
    obtain ⟨hitems, ⟨hflag, -⟩ | ⟨hopen, hsealed, -⟩⟩ := fire_activity hfire
    · exact Or.inl ⟨fun h => hflag ▸ h, fun w hw => Or.inl (hitems ▸ hw)⟩
    · exact Or.inr ⟨hitems, Or.inr ⟨i, rfl, hopen, hsealed⟩⟩
  | releaseLease lease hmem => exact Or.inl (.of_eq rfl rfl rfl)
  | advance time => exact Or.inl (.of_eq rfl rfl rfl)

end EpochState

namespace FenceState

variable {s s' : FenceState} {w : WorkItem} {configured : ConfiguredBackend}
  {idleTimeout : Option Nat}

/-! ## 4. The invariant -/

/-- A cancel request has come, or it is owed, or the item had no need of it. -/
def Answered (s : FenceState) (w : WorkItem) : Prop :=
  w ∈ s.requested ∨ w ∈ s.finished ∨ w ∈ s.owed ∨
    ∃ h, w = .handle h ∧ ((h ∈ s.submitting ∧ h ∈ s.shouldCancel) ∨ h ∈ s.refused)

theorem Answered.of_requested (h : w ∈ s.requested) : s.Answered w := Or.inl h

theorem Answered.of_finished (h : w ∈ s.finished) : s.Answered w := Or.inr (Or.inl h)

theorem Answered.of_owed (h : w ∈ s.owed) : s.Answered w := Or.inr (Or.inr (Or.inl h))

theorem Answered.of_submitting {h : Nat} (hs : h ∈ s.submitting) (hc : h ∈ s.shouldCancel) :
    s.Answered (.handle h) :=
  Or.inr (Or.inr (Or.inr ⟨h, rfl, Or.inl ⟨hs, hc⟩⟩))

theorem Answered.of_refused {h : Nat} (hr : h ∈ s.refused) : s.Answered (.handle h) :=
  Or.inr (Or.inr (Or.inr ⟨h, rfl, Or.inr hr⟩))

/-- What answers an item is not taken back. -/
theorem Answered.mono (ha : s.Answered w) (hrequested : s.requested ⊆ s'.requested)
    (hfinished : s.finished ⊆ s'.finished) (howed : s.owed ≤ s'.owed)
    (hsubmitting : s.submitting ⊆ s'.submitting) (hcancel : s.shouldCancel ⊆ s'.shouldCancel)
    (hrefused : s.refused ⊆ s'.refused) : s'.Answered w := by
  rcases ha with hr | hf | ho | ⟨h, rfl, ⟨hs, hc⟩ | hr⟩
  · exact .of_requested (hrequested hr)
  · exact .of_finished (hfinished hf)
  · exact .of_owed (Multiset.mem_of_le howed ho)
  · exact .of_submitting (hsubmitting hs) (hcancel hc)
  · exact .of_refused (hrefused hr)

structure FenceInv (s : FenceState) : Prop where
  answered : ∀ w ∈ s.fenced, s.Answered w
  covered : s.epoch.cancelling = true → s.epoch.activeItems ⊆ s.fenced
  /-- Nothing but what the fence covers is cancelled. -/
  owed : ∀ w ∈ s.owed, w ∈ s.fenced
  requested : s.requested ⊆ s.fenced
  shouldCancel : ∀ h ∈ s.shouldCancel, .handle h ∈ s.fenced
  epoch : s.epoch.EpochInv

/-- The invariant after a step, before the history is written. -/
structure FenceReady (s : FenceState) : Prop where
  answered : ∀ w ∈ s.fenced, s.Answered w
  active : s.epoch.cancelling = true → ∀ w ∈ s.epoch.activeItems, s.Answered w
  owed : ∀ w ∈ s.owed, w ∈ s.observe.fenced
  requested : ∀ w ∈ s.requested, w ∈ s.observe.fenced
  shouldCancel : ∀ h ∈ s.shouldCancel, .handle h ∈ s.observe.fenced
  epoch : s.epoch.EpochInv

theorem fenced_subset_observe (s : FenceState) : s.fenced ⊆ s.observe.fenced := by
  change s.fenced ⊆ if s.epoch.cancelling then s.fenced ∪ s.epoch.activeItems else s.fenced
  split
  · exact Finset.subset_union_left
  · exact Finset.Subset.refl _

theorem active_subset_observe (h : s.epoch.cancelling = true) :
    s.epoch.activeItems ⊆ s.observe.fenced := by
  change s.epoch.activeItems ⊆
    if s.epoch.cancelling then s.fenced ∪ s.epoch.activeItems else s.fenced
  rw [if_pos h]
  exact Finset.subset_union_right

theorem FenceReady.observe (hr : s.FenceReady) : s.observe.FenceInv := by
  refine ⟨fun w hw => ?_, active_subset_observe (s := s), hr.owed, hr.requested,
    hr.shouldCancel, hr.epoch⟩
  have hanswered : s.Answered w := by
    change w ∈ if s.epoch.cancelling then s.fenced ∪ s.epoch.activeItems else s.fenced at hw
    split at hw
    · rename_i hflag
      rcases Finset.mem_union.mp hw with hmem | hmem
      · exact hr.answered w hmem
      · exact hr.active hflag w hmem
    · exact hr.answered w hw
  exact hanswered

/-! ## 5. Critical sections -/

/-- A step that brings only answered items, and cancels nobody by itself. -/
theorem FenceInv.quiet (hi : s.FenceInv) {epoch : EpochState} {new : WorkItem → Prop}
    (hepoch : epoch.EpochInv) (hb : s.epoch.Brings epoch new)
    (hnew : ∀ w, new w → s.Answered w) : FenceReady { s with epoch := epoch } := by
  refine ⟨hi.answered, fun hflag w hw => ?_, fun w hw => ?_, fun w hw => ?_, fun h hh => ?_,
    hepoch⟩
  · rcases hb.items w hw with hold | hbrought
    · exact hi.answered w (hi.covered (hb.flag hflag) hold)
    · exact hnew w hbrought
  · exact fenced_subset_observe _ (hi.owed w hw)
  · exact fenced_subset_observe _ (hi.requested hw)
  · exact fenced_subset_observe _ (hi.shouldCancel h hh)

/-- A canceller owes a call to everything that is active. -/
theorem FenceInv.cancelItems (hi : s.FenceInv) {epoch : EpochState} (hepoch : epoch.EpochInv)
    (hflag : epoch.cancelling = true) : (s.cancelItems epoch).FenceReady := by
  have hle : s.owed ≤ (s.cancelItems epoch).owed := Multiset.le_add_right _ _
  refine ⟨fun w hw => ?_, fun _ w hw => ?_, fun w hw => ?_, fun w hw => ?_, fun h hh => ?_,
    hepoch⟩
  · exact (hi.answered w hw).mono (Finset.Subset.refl _) (Finset.Subset.refl _) hle
      (Finset.Subset.refl _) (Finset.Subset.refl _) (Finset.Subset.refl _)
  · exact .of_owed (Multiset.mem_add.mpr (Or.inr hw))
  · rcases Multiset.mem_add.mp hw with hold | hactive
    · exact fenced_subset_observe _ (hi.owed w hold)
    · exact active_subset_observe hflag hactive
  · exact fenced_subset_observe _ (hi.requested hw)
  · exact fenced_subset_observe _ (hi.shouldCancel h hh)

theorem FenceInv.admitTask (hi : s.FenceInv) {t : Nat} {epoch : EpochState}
    (hepoch : epoch.EpochInv) (hb : s.epoch.Brings epoch (· = .task t)) :
    (s.admitTask t epoch).FenceReady := by
  unfold FenceState.admitTask
  split
  · rename_i hadopted
    obtain ⟨hin, -, hflag⟩ := hadopted
    have hle : s.owed ≤ .task t ::ₘ s.owed := Multiset.le_cons_self _ _
    have hanswered : ∀ w, s.Answered w →
        Answered { s with epoch := epoch, owed := .task t ::ₘ s.owed } w := fun w ha =>
      ha.mono (Finset.Subset.refl _) (Finset.Subset.refl _) hle
        (Finset.Subset.refl _) (Finset.Subset.refl _) (Finset.Subset.refl _)
    refine ⟨fun w hw => hanswered w (hi.answered w hw), fun _ w hw => ?_, fun w hw => ?_,
      fun w hw => ?_, fun h hh => ?_, hepoch⟩
    · rcases hb.items w hw with hold | rfl
      · exact hanswered w (hi.answered w (hi.covered (hb.flag hflag) hold))
      · exact .of_owed (Multiset.mem_cons_self _ _)
    · rcases Multiset.mem_cons.mp hw with rfl | hold
      · exact active_subset_observe hflag (EpochState.task_mem_activeItems.mpr hin)
      · exact fenced_subset_observe _ (hi.owed w hold)
    · exact fenced_subset_observe _ (hi.requested hw)
    · exact fenced_subset_observe _ (hi.shouldCancel h hh)
  · rename_i hkept
    refine ⟨hi.answered, fun hflag w hw => ?_, fun w hw => fenced_subset_observe _ (hi.owed w hw),
      fun w hw => fenced_subset_observe _ (hi.requested hw),
      fun h hh => fenced_subset_observe _ (hi.shouldCancel h hh), hepoch⟩
    have hold : w ∈ s.epoch.activeItems := by
      rcases hb.items w hw with hold | rfl
      · exact hold
      · -- the task was adopted before
        have hin := EpochState.task_mem_activeItems.mp hw
        by_contra hnew
        exact hkept ⟨hin, fun hmem => hnew (EpochState.task_mem_activeItems.mpr hmem), hflag⟩
    exact hi.answered w (hi.covered (hb.flag hflag) hold)

theorem FenceInv.go (hi : s.FenceInv) (site : CallSite) (hepoch : (s.epoch.go site).1.EpochInv) :
    (s.admitHandle (s.epoch.go site).1).FenceReady := by
  unfold FenceState.admitHandle
  rcases EpochState.brings_go s.epoch site with ⟨hb, hlength⟩ | ⟨hb, hlength, hactive⟩
  · rw [if_neg (by rw [hlength]; exact Nat.lt_irrefl _)]
    exact hi.quiet hepoch hb fun w hfalse => hfalse.elim
  · rw [if_pos (by rw [hlength]; exact Nat.lt_succ_self _)]
    generalize (s.epoch.go site).1 = epoch at hepoch hb hlength hactive ⊢
    have hanswered : ∀ w, s.Answered w → Answered { s with
        epoch := epoch
        submitting := insert s.epoch.handles.length s.submitting
        shouldCancel := if epoch.cancelling then insert s.epoch.handles.length s.shouldCancel
          else s.shouldCancel } w := by
      intro w ha
      refine ha.mono (Finset.Subset.refl _) (Finset.Subset.refl _) (le_refl _)
        (Finset.subset_insert _ _) ?_ (Finset.Subset.refl _)
      split
      · exact Finset.subset_insert _ _
      · exact Finset.Subset.refl _
    refine ⟨fun w hw => hanswered w (hi.answered w hw), fun hflag w hw => ?_,
      fun w hw => fenced_subset_observe _ (hi.owed w hw),
      fun w hw => fenced_subset_observe _ (hi.requested hw), fun h hh => ?_, hepoch⟩
    · rcases hb.items w hw with hold | rfl
      · exact hanswered w (hi.answered w (hi.covered (hb.flag hflag) hold))
      · refine .of_submitting (Finset.mem_insert_self _ _) ?_
        change _ ∈ if epoch.cancelling then _ else _
        rw [if_pos hflag]
        exact Finset.mem_insert_self _ _
    · change h ∈ if epoch.cancelling then _ else _ at hh
      split at hh
      · rename_i hflag
        rcases Finset.mem_insert.mp hh with rfl | hold
        · exact active_subset_observe hflag (EpochState.handle_mem_activeItems.mpr hactive)
        · exact fenced_subset_observe _ (hi.shouldCancel h hold)
      · exact fenced_subset_observe _ (hi.shouldCancel h hh)

theorem brings_of_other {s s' : EpochState} {e : EpochEvent} (hstep : s.step e = some s')
    (hcancel : e ≠ .cancelScope) (hfire : ∀ i, e ≠ .fire i) : s.Brings s' (s.brought e) := by
  rcases EpochState.activity_step hstep with hb | ⟨-, ⟨heq, -⟩ | ⟨i, heq, -⟩⟩
  · exact hb
  · exact absurd heq hcancel
  · exact absurd heq (hfire i)

theorem FenceInv.scope (hi : s.FenceInv) {e : EpochEvent} {epoch : EpochState}
    (henabled : s.scopeEnabled e = true) (hstep : s.epoch.step e = some epoch) :
    (s.afterScope epoch e).FenceReady := by
  have hepoch := hi.epoch.step hstep
  have hother := brings_of_other hstep
  cases e with
  | go site =>
    cases hstep
    exact hi.go site hepoch
  | adopt site t => exact hi.admitTask hepoch (hother nofun nofun)
  | createTask i site => exact hi.admitTask hepoch (hother nofun nofun)
  | cancelScope =>
    cases hstep
    simp only [FenceState.afterScope]
    split
    · rename_i hactive
      refine hi.cancelItems hepoch ?_
      rw [EpochState.cancelScope, if_pos hactive]
    · rename_i hidle
      refine hi.quiet hepoch (.of_eq ?_ ?_ ?_) (fun w hfalse => False.elim hfalse)
      · rw [EpochState.cancelScope, if_neg hidle]
      · rw [EpochState.cancelScope, if_neg hidle]
      · rw [EpochState.cancelScope, if_neg hidle]
  | fire i =>
    obtain ⟨hitems, hcases⟩ := EpochState.fire_activity hstep
    simp only [FenceState.afterScope]
    rcases hcases with ⟨hflag, hkept⟩ | ⟨hopen, hsealed, hflag⟩
    · rw [hkept, Bool.not_and_self, if_neg Bool.false_ne_true]
      exact hi.quiet hepoch ⟨fun h => hflag ▸ h, fun w hw => Or.inl (hitems ▸ hw)⟩
        (fun w hfalse => False.elim hfalse)
    · rw [if_pos (by rw [hopen, hsealed]; rfl)]
      exact hi.cancelItems hepoch hflag
  | lateCallback site h loopRuns loopStillRuns start =>
    refine hi.quiet hepoch (hother nofun nofun) fun w hw => ?_
    rw [show w = .handle h from hw]
    exact .of_finished (of_decide_eq_true henabled)
  | _ => exact hi.quiet hepoch (hother nofun nofun) fun w hfalse => hfalse.elim

/-! ## 6. Outside the lock -/

theorem FenceInv.outside (hi : s.FenceInv) (hfenced : s'.fenced = s.fenced)
    (hcancel : s'.shouldCancel = s.shouldCancel) (hepoch : s'.epoch.EpochInv)
    (hb : s.epoch.Brings s'.epoch fun _ => False) (hanswered : ∀ w, s.Answered w → s'.Answered w)
    (howed : ∀ w ∈ s'.owed, w ∈ s.fenced) (hrequested : s'.requested ⊆ s.fenced) :
    s'.FenceReady := by
  have hle : s.fenced ⊆ s'.observe.fenced := hfenced ▸ fenced_subset_observe s'
  refine ⟨fun w hw => hanswered w (hi.answered w (hfenced ▸ hw)), fun hflag w hw => ?_,
    fun w hw => hle (howed w hw), fun w hw => hle (hrequested hw),
    fun h hh => hle (hi.shouldCancel h (hcancel ▸ hh)), hepoch⟩
  rcases hb.items w hw with hold | hfalse
  · exact hanswered w (hi.answered w (hi.covered (hb.flag hflag) hold))
  · exact hfalse.elim

/-- The body has been handed over: `go` owes the call that it has read the flag for. -/
theorem FenceInv.submit (hi : s.FenceInv) (h : Nat) : (s.submit h).FenceReady := by
  refine hi.outside rfl rfl hi.epoch (.of_eq rfl rfl rfl) (fun w ha => ?_) (fun w hw => ?_)
    hi.requested
  · have hle : s.owed ≤ (s.submit h).owed := by
      change s.owed ≤ if h ∈ s.shouldCancel then _ else _
      split
      · exact Multiset.le_cons_self _ _
      · exact le_refl _
    rcases ha with hr | hf | ho | ⟨k, rfl, ⟨hs, hc⟩ | hr⟩
    · exact .of_requested hr
    · exact .of_finished hf
    · exact .of_owed (Multiset.mem_of_le hle ho)
    · by_cases hk : k = h
      · subst hk
        refine .of_owed ?_
        change _ ∈ if k ∈ s.shouldCancel then _ else _
        rw [if_pos hc]
        exact Multiset.mem_cons_self _ _
      · exact .of_submitting (Finset.mem_erase.mpr ⟨hk, hs⟩) hc
    · exact .of_refused hr
  · change w ∈ if h ∈ s.shouldCancel then _ else _ at hw
    split at hw
    · rename_i hc
      rcases Multiset.mem_cons.mp hw with rfl | hold
      · exact hi.shouldCancel h hc
      · exact hi.owed w hold
    · exact hi.owed w hw

theorem FenceInv.refuse (hi : s.FenceInv) (h : Nat) (settled : Bool) :
    (s.refuse h settled).FenceReady := by
  refine hi.outside rfl rfl ?_ ?_ (fun w ha => ?_) hi.owed hi.requested
  · change EpochState.EpochInv (if settled then s.epoch.handleQuiescent h else s.epoch)
    split
    · exact hi.epoch.handleQuiescent h
    · exact hi.epoch
  · change s.epoch.Brings (if settled then s.epoch.handleQuiescent h else s.epoch) _
    split
    · exact EpochState.brings_handleQuiescent s.epoch h
    · exact .of_eq rfl rfl rfl
  · rcases ha with hr | hf | ho | ⟨k, rfl, ⟨hs, hc⟩ | hr⟩
    · exact .of_requested hr
    · exact .of_finished hf
    · exact .of_owed ho
    · by_cases hk : k = h
      · subst hk
        exact .of_refused (Finset.mem_insert_self _ _)
      · exact .of_submitting (Finset.mem_erase.mpr ⟨hk, hs⟩) hc
    · exact .of_refused (Finset.mem_insert_of_mem hr)

/-- A call that is made answers its item: with a request, or because the item has finished. -/
theorem FenceInv.deliver (hi : s.FenceInv) (ownedTasks : Bool) (hw : w ∈ s.owed) :
    (s.deliver w ownedTasks).FenceReady := by
  have hle : s.requested ⊆ (s.deliver w ownedTasks).requested := by
    change s.requested ⊆ if w ∈ s.finished ∧ ownedTasks = false then _ else _
    split
    · exact Finset.Subset.refl _
    · exact Finset.subset_insert _ _
  refine hi.outside rfl rfl hi.epoch (.of_eq rfl rfl rfl) (fun v ha => ?_)
    (fun v hv => hi.owed v (Multiset.mem_of_mem_erase hv)) ?_
  · rcases ha with hr | hf | ho | ⟨k, rfl, ⟨hs, hc⟩ | hr⟩
    · exact .of_requested (hle hr)
    · exact .of_finished hf
    · by_cases hv : v = w
      · subst hv
        by_cases hfinished : v ∈ s.finished
        · exact .of_finished hfinished
        · refine .of_requested ?_
          change _ ∈ if v ∈ s.finished ∧ ownedTasks = false then _ else _
          rw [if_neg fun h => hfinished h.1]
          exact Finset.mem_insert_self _ _
      · exact .of_owed ((Multiset.mem_erase_of_ne hv).mpr ho)
    · exact .of_submitting hs hc
    · exact .of_refused hr
  · change (if w ∈ s.finished ∧ ownedTasks = false then _ else _) ⊆ s.fenced
    split
    · exact hi.requested
    · exact Finset.insert_subset (hi.owed w hw) hi.requested

theorem FenceInv.finish (hi : s.FenceInv) (w : WorkItem) :
    FenceReady { s with finished := insert w s.finished } :=
  hi.outside rfl rfl hi.epoch (.of_eq rfl rfl rfl)
    (fun _ ha => ha.mono (Finset.Subset.refl _) (Finset.subset_insert _ _) (le_refl _)
      (Finset.Subset.refl _) (Finset.Subset.refl _) (Finset.Subset.refl _))
    hi.owed hi.requested

/-! ## 7. Runs -/

/-- **Step lemma of the fence.** -/
theorem FenceInv.step (hi : s.FenceInv) {e : FenceEvent} (hstep : s.step e = some s') :
    s'.FenceInv := by
  obtain ⟨t, hraw, rfl⟩ := Option.map_eq_some_iff.mp hstep
  refine FenceReady.observe ?_
  cases e with
  | scope e =>
    simp only [rawStep] at hraw
    split at hraw
    · rename_i henabled
      obtain ⟨epoch, hepoch, rfl⟩ := Option.map_eq_some_iff.mp hraw
      exact hi.scope henabled hepoch
    · cases hraw
  | submitted h =>
    simp only [rawStep] at hraw
    split at hraw
    · cases hraw
      exact hi.submit h
    · cases hraw
  | refused h settled =>
    simp only [rawStep] at hraw
    split at hraw
    · cases hraw
      exact hi.refuse h settled
    · cases hraw
  | finish w =>
    simp only [rawStep] at hraw
    split at hraw
    · cases hraw
      exact hi.finish w
    · cases hraw
  | cancel w ownedTasks =>
    simp only [rawStep] at hraw
    split at hraw
    · rename_i hw
      cases hraw
      exact hi.deliver ownedTasks hw
    · cases hraw

end FenceState

end AgentlyStage
