import AgentlyStage.Scope

/-!
# Pending work and membership

`_pending_work` is guarded by the handle lock, membership in `_active_handles` by the
scope lock.  `Tracked` is what `wait_settled` and `close` rely on: work that is pending
belongs to a member.  Two kinds of steps do not preserve it (`losesTrack`):

* a quiescence notification that arrives after the handle was reopened, because
  `_handle_quiescent` discards the handle without looking at `_pending_work` again;
* the task factory retaining work for a handle that has already left the inventory, or
  that a failing registration will not bring back.
-/

namespace AgentlyStage

open Transition

namespace ScopeState

variable {s s' : ScopeState} {h k : Nat} {runner : Bool}

/-! ## 1. Reading a handle after an update -/

theorem handle_setHandle (s : ScopeState) (h k : Nat) (entry : HandleState) :
    (s.setHandle h entry).handle k =
      if k = h ∧ h < s.handles.length then entry else s.handle k := by
  unfold handle setHandle
  simp only [List.getD_eq_getElem?_getD, List.getElem?_set]
  by_cases hkh : h = k
  · subst hkh
    by_cases hlt : h < s.handles.length <;> simp [hlt]
  · simp [hkh, Ne.symm hkh]

theorem handle_go (s : ScopeState) (callbacks k : Nat) :
    (s.go callbacks).handle k =
      if k = s.handles.length then { callbacks := callbacks } else s.handle k := by
  simp only [ScopeState.go, handle, List.getD_eq_getElem?_getD]
  rcases Nat.lt_trichotomy k s.handles.length with hk | hk | hk
  · simp [List.getElem?_append_left hk, Nat.ne_of_lt hk]
  · simp [hk]
  · rw [List.getElem?_eq_none (by simp; omega), List.getElem?_eq_none (by omega)]
    simp [Nat.ne_of_gt hk]

theorem lt_of_submitted (hs : (s.handle h).submitted = true) : h < s.handles.length := by
  by_contra hge
  rw [handle, List.getD_eq_getElem?_getD, List.getElem?_eq_none (Nat.le_of_not_lt hge)] at hs
  cases hs

theorem lt_of_pendingWork (hp : 0 < s.pendingWork h) : h < s.handles.length := by
  by_contra hge
  rw [pendingWork, handle, List.getD_eq_getElem?_getD,
    List.getElem?_eq_none (Nat.le_of_not_lt hge)] at hp
  exact absurd hp (by simp)

theorem pendingWork_retainWork (s : ScopeState) (h k : Nat) (runner : Bool) :
    (s.retainWork h runner).pendingWork k =
      if k = h ∧ h < s.handles.length then s.pendingWork h + 1 else s.pendingWork k := by
  unfold pendingWork retainWork
  rw [handle_setHandle]
  split <;> rfl

theorem submitted_retainWork (s : ScopeState) (h k : Nat) (runner : Bool) :
    ((s.retainWork h runner).handle k).submitted =
      if k = h ∧ h < s.handles.length then true else (s.handle k).submitted := by
  unfold retainWork
  rw [handle_setHandle]
  split <;> rfl

theorem handle_releaseWork (s : ScopeState) (h k : Nat) (runner : Bool) :
    (s.releaseWork h runner).handle k =
      if k = h ∧ h < s.handles.length then
        { s.handle h with
          pendingWork := s.pendingWork h - 1
          runners := (s.handle h).runners - runner.toNat }
      else s.handle k := by
  rw [← handle_setHandle]
  unfold releaseWork
  dsimp only
  split <;> rfl

theorem releaseWork_frame (s : ScopeState) (h : Nat) (runner : Bool) :
    (s.releaseWork h runner).activeHandles = s.activeHandles ∧
    (s.releaseWork h runner).registering = s.registering := by
  unfold releaseWork
  dsimp only
  split <;> simp [setHandle]

theorem registering_eq_none (hlock : s.scopeLockFree = true) : s.registering = none := by
  simpa [scopeLockFree] using hlock

/-! ## 2. Reading a step -/

theorem when_eq_some {condition : Prop} [Decidable condition] {t : ScopeState}
    (hstep : when condition t = some s') : condition ∧ s' = t := by
  unfold when at hstep
  split at hstep
  · rename_i hc
    cases hstep
    exact ⟨hc, rfl⟩
  · cases hstep

theorem call_eq_some {owned : Bool} {t : ScopeState} (hstep : s.call owned t = some s') :
    s.callEnabled owned = true ∧
      ((s.callAllowed owned = true ∧ s' = t) ∨ (s.callAllowed owned = false ∧ s' = s)) := by
  unfold call at hstep
  split at hstep
  · rename_i henabled
    refine ⟨henabled, ?_⟩
    split at hstep
    · rename_i hallowed
      cases hstep
      exact Or.inl ⟨hallowed, rfl⟩
    · rename_i hallowed
      cases hstep
      exact Or.inr ⟨by simpa using hallowed, rfl⟩
  · cases hstep

theorem lock_of_callEnabled {owned : Bool} (hc : s.callEnabled owned = true) :
    s.scopeLockFree = true := by
  unfold callEnabled at hc
  exact (Bool.and_eq_true_iff.mp hc).1

theorem admitDrain_eq_some (hstep : s.step .admitDrain = some s') :
    ∃ h, s.registering = some (h, .admitting) ∧ s' = { s with
      activeHandles := insert h s.activeHandles, registering := some (h, .submitting) } := by
  simp only [ScopeState.step] at hstep
  split at hstep
  · rename_i h hr
    cases hstep
    exact ⟨h, hr, rfl⟩
  · cases hstep

theorem submitDrain_eq_some (hstep : s.step .submitDrain = some s') :
    ∃ h, s.registering = some (h, .submitting) ∧
      s' = { s.retainWork h true with registering := some (h, .leaving) } := by
  simp only [ScopeState.step] at hstep
  split at hstep
  · rename_i h hr
    cases hstep
    exact ⟨h, hr, rfl⟩
  · cases hstep

theorem leaveRegistration_eq_some (hstep : s.step .leaveRegistration = some s') :
    ∃ h, s.registering = some (h, .leaving) ∧ s' = { s with registering := none } := by
  simp only [ScopeState.step] at hstep
  split at hstep
  · rename_i h hr
    cases hstep
    exact ⟨h, hr, rfl⟩
  · cases hstep

theorem registrationFails_eq_some {released : Bool}
    (hstep : s.step (.registrationFails released) = some s') :
    ∃ h, (s.registering = some (h, .admitting) ∧ s' = s.rollBackRegistration h) ∨
      (s.registering = some (h, .submitting) ∧ s.pendingWork h = 0 ∧
        s' = { s with activeHandles := s.activeHandles.erase h }.rollBackRegistration h) ∨
      (s.registering = some (h, .submitting) ∧ s' = s.rollBackRegistration h) := by
  simp only [ScopeState.step] at hstep
  split at hstep
  · rename_i h hr
    obtain ⟨-, rfl⟩ := when_eq_some hstep
    exact ⟨h, Or.inl ⟨hr, rfl⟩⟩
  · rename_i h hr
    split at hstep
    · rename_i hcond
      cases hstep
      exact ⟨h, Or.inr (Or.inl ⟨hr, hcond.2, rfl⟩)⟩
    · cases hstep
      exact ⟨h, Or.inr (Or.inr ⟨hr, rfl⟩)⟩
  · cases hstep

/-! ## 3. Submissions

Whatever the order of the events, a handle is a member until its work has been handed
over, and notifications and registrations are about handles that were submitted. -/

structure Submissions (s : ScopeState) : Prop where
  fresh_member : ∀ h, h < s.handles.length → (s.handle h).submitted = false →
    h ∈ s.activeHandles
  fresh_idle : ∀ h, (s.handle h).submitted = false →
    s.pendingWork h = 0 ∧ (s.handle h).runners = 0
  notified : ∀ h ∈ s.notifications, (s.handle h).submitted = true
  registered : ∀ h stage, s.registering = some (h, stage) → (s.handle h).submitted = true

theorem Submissions.of_pending (hsub : Submissions s) (hp : 0 < s.pendingWork h) :
    (s.handle h).submitted = true := by
  by_contra hfresh
  have := (hsub.fresh_idle h (by simpa using hfresh)).1
  omega

theorem Submissions.of_runner (hsub : Submissions s) (hr : 0 < (s.handle h).runners) :
    (s.handle h).submitted = true := by
  by_contra hfresh
  have := (hsub.fresh_idle h (by simpa using hfresh)).2
  omega

/-- The rule of all steps but `go`: they write entries of submitted handles only. -/
theorem Submissions.mono (hsub : Submissions s)
    (hlength : s'.handles.length = s.handles.length)
    (hhandle : ∀ k, s'.handle k = s.handle k ∨ (s'.handle k).submitted = true)
    (hactive : ∀ k ∈ s.activeHandles,
      k ∈ s'.activeHandles ∨ (s'.handle k).submitted = true)
    (hnotif : ∀ k ∈ s'.notifications, k ∈ s.notifications ∨ (s'.handle k).submitted = true)
    (hreg : ∀ k stage, s'.registering = some (k, stage) →
      s.registering = some (k, stage) ∨ (s'.handle k).submitted = true) :
    Submissions s' := by
  have hkeep : ∀ k, (s.handle k).submitted = true → (s'.handle k).submitted = true := by
    intro k hk
    rcases hhandle k with heq | hs
    · rw [heq]
      exact hk
    · exact hs
  have hfresh : ∀ k, (s'.handle k).submitted = false →
      s'.handle k = s.handle k ∧ (s.handle k).submitted = false := by
    intro k hk
    rcases hhandle k with heq | hs
    · exact ⟨heq, heq ▸ hk⟩
    · rw [hk] at hs
      cases hs
  constructor
  · intro k hlt hk
    rcases hactive k (hsub.fresh_member k (by omega) (hfresh k hk).2) with hm | hs
    · exact hm
    · rw [hk] at hs
      cases hs
  · intro k hk
    obtain ⟨heq, hold⟩ := hfresh k hk
    unfold pendingWork
    rw [heq]
    exact hsub.fresh_idle k hold
  · intro k hk
    rcases hnotif k hk with hm | hs
    · exact hkeep k (hsub.notified k hm)
    · exact hs
  · intro k stage hk
    rcases hreg k stage hk with hr | hs
    · exact hkeep k (hsub.registered k stage hr)
    · exact hs

theorem handle_setHandle_or {entry : HandleState} (hs : entry.submitted = true) (k : Nat) :
    (s.setHandle h entry).handle k = s.handle k ∨
      ((s.setHandle h entry).handle k).submitted = true := by
  rw [handle_setHandle]
  split
  · exact Or.inr hs
  · exact Or.inl rfl

theorem Submissions.setHandle {entry : HandleState} (hsub : Submissions s)
    (hs : entry.submitted = true) : Submissions (s.setHandle h entry) := by
  apply hsub.mono
  · simp [ScopeState.setHandle]
  · exact handle_setHandle_or hs
  · exact fun k hk => Or.inl hk
  · exact fun k hk => Or.inl hk
  · exact fun k stage hk => Or.inl hk

/-- Fields outside the handles and the inventory do not matter here. -/
theorem Submissions.congr (hsub : Submissions s) (hhandles : s'.handles = s.handles)
    (hactive : s'.activeHandles = s.activeHandles)
    (hnotif : s'.notifications = s.notifications)
    (hreg : s'.registering = s.registering ∨ s'.registering = none) : Submissions s' := by
  apply hsub.mono
  · rw [hhandles]
  · intro k
    exact Or.inl (by rw [handle, handle, hhandles])
  · intro k hk
    rw [hactive]
    exact Or.inl hk
  · intro k hk
    rw [hnotif] at hk
    exact Or.inl hk
  · intro k stage hk
    rcases hreg with hr | hr
    · rw [hr] at hk
      exact Or.inl hk
    · rw [hr] at hk
      cases hk

theorem Submissions.go {callbacks : Nat} (hsub : Submissions s) :
    Submissions (s.go callbacks) := by
  have hold : ∀ k, (s.handle k).submitted = true →
      ((s.go callbacks).handle k).submitted = true := by
    intro k hk
    rw [handle_go, if_neg (Nat.ne_of_lt (lt_of_submitted hk))]
    exact hk
  constructor
  · intro k hlt hk
    have hlen : (s.go callbacks).handles.length = s.handles.length + 1 := by
      simp [ScopeState.go]
    rw [handle_go] at hk
    by_cases hnew : k = s.handles.length
    · rw [hnew]
      exact Finset.mem_insert_self _ _
    · rw [if_neg hnew] at hk
      exact Finset.mem_insert_of_mem (hsub.fresh_member k (by omega) hk)
  · intro k hk
    rw [pendingWork, handle_go]
    rw [handle_go] at hk
    split
    · exact ⟨rfl, rfl⟩
    · rename_i hnew
      rw [if_neg hnew] at hk
      exact hsub.fresh_idle k hk
  · intro k hmem
    exact hold k (hsub.notified k hmem)
  · intro k stage hr
    exact hold k (hsub.registered k stage hr)

theorem Submissions.releaseWork (hsub : Submissions s) (hs : (s.handle h).submitted = true) :
    Submissions (s.releaseWork h runner) := by
  have hsame : Submissions (s.setHandle h { s.handle h with
      pendingWork := s.pendingWork h - 1
      runners := (s.handle h).runners - runner.toNat }) := hsub.setHandle hs
  unfold ScopeState.releaseWork
  dsimp only
  split
  · apply hsame.mono
    · rfl
    · exact fun k => Or.inl rfl
    · exact fun k hk => Or.inl hk
    · intro k hk
      rcases List.mem_append.mp hk with hm | hm
      · exact Or.inl hm
      · rw [List.mem_singleton.mp hm]
        refine Or.inr ?_
        exact (congrArg HandleState.submitted (handle_setHandle s h h _)).trans
          (by rw [if_pos ⟨rfl, lt_of_submitted hs⟩]; exact hs)
    · exact fun k stage hk => Or.inl hk
  · exact hsame

/-- A submitted handle leaves the inventory. -/
theorem Submissions.discard (hsub : Submissions s) (hs : (s.handle h).submitted = true)
    (notifications : List Nat) (hnotif : ∀ k ∈ notifications, k ∈ s.notifications) :
    Submissions { s with
      notifications := notifications, activeHandles := s.activeHandles.erase h } := by
  apply hsub.mono
  · rfl
  · exact fun k => Or.inl rfl
  · intro k hk
    by_cases hkh : k = h
    · exact Or.inr (by rw [hkh]; exact hs)
    · exact Or.inl (Finset.mem_erase.mpr ⟨hkh, hk⟩)
  · exact fun k hk => Or.inl (hnotif k hk)
  · exact fun k stage hk => Or.inl hk

theorem Submissions.setRegistering {registering : Option (Nat × RegistrationStage)}
    (hsub : Submissions s)
    (hreg : ∀ k stage, registering = some (k, stage) → (s.handle k).submitted = true) :
    Submissions { s with registering := registering } := by
  apply hsub.mono
  · rfl
  · exact fun k => Or.inl rfl
  · exact fun k hk => Or.inl hk
  · exact fun k hk => Or.inl hk
  · exact fun k stage hk => Or.inr (hreg k stage hk)

theorem Submissions.noteAccepted (hsub : Submissions s) : Submissions s.noteAccepted :=
  hsub.congr rfl rfl rfl (Or.inl rfl)

theorem Submissions.registerCallback (hsub : Submissions s)
    (hs : (s.handle h).submitted = true) : Submissions (s.registerCallback h) := by
  unfold ScopeState.registerCallback
  dsimp only
  split
  · have hset : Submissions (s.noteAccepted.setHandle h { s.handle h with
        callbacks := (s.handle h).callbacks + 1, callbackDrainActive := true }) :=
      hsub.noteAccepted.setHandle hs
    apply hset.setRegistering
    intro k stage hk
    cases hk
    exact (congrArg HandleState.submitted (handle_setHandle s.noteAccepted h h _)).trans
      (by rw [if_pos ⟨rfl, lt_of_submitted hs⟩]; exact hs)
  · exact hsub.noteAccepted.setHandle hs

theorem Submissions.rollBack (hsub : Submissions s) (hs : (s.handle h).submitted = true) :
    Submissions (s.rollBackRegistration h) := by
  have hset : Submissions (s.setHandle h { s.handle h with
      callbacks := (s.handle h).callbacks - 1, callbackDrainActive := false }) :=
    hsub.setHandle hs
  apply hset.setRegistering
  intro k stage hk
  cases hk

/-- **Step lemma of submissions**, for every event in every state. -/
theorem Submissions.step {e : ScopeEvent} (hsub : Submissions s)
    (hstep : s.step e = some s') : Submissions s' := by
  cases e with
  | go owned callbacks =>
    obtain ⟨-, ⟨-, rfl⟩ | ⟨-, rfl⟩⟩ := call_eq_some hstep
    · exact hsub.go
    · exact hsub
  | submit h =>
    obtain ⟨-, rfl⟩ := when_eq_some hstep
    exact hsub.setHandle rfl
  | submitFails h =>
    obtain ⟨⟨hlt, -⟩, rfl⟩ := when_eq_some hstep
    have hretained : Submissions (s.retainWork h true) := hsub.setHandle rfl
    apply hretained.releaseWork
    rw [submitted_retainWork, if_pos ⟨rfl, hlt⟩]
  | retain h runner =>
    obtain ⟨-, rfl⟩ := when_eq_some hstep
    exact hsub.setHandle rfl
  | release h runner =>
    obtain ⟨⟨hp, -⟩, rfl⟩ := when_eq_some hstep
    exact hsub.releaseWork (hsub.of_pending hp)
  | completeBody h =>
    obtain ⟨⟨hr, -⟩, rfl⟩ := when_eq_some hstep
    exact hsub.setHandle (hsub.of_runner hr)
  | drainStep h =>
    obtain ⟨⟨hr, -⟩, rfl⟩ := when_eq_some hstep
    unfold ScopeState.drainStep
    split
    · exact hsub.setHandle (hsub.of_runner hr)
    · exact hsub.setHandle (hsub.of_runner hr)
  | notify h =>
    obtain ⟨⟨-, hmem⟩, rfl⟩ := when_eq_some hstep
    apply hsub.discard (hsub.notified h hmem)
    intro k hk
    exact List.mem_of_mem_erase hk
  | register owned h =>
    simp only [ScopeState.step] at hstep
    split at hstep
    · rename_i hs
      obtain ⟨-, ⟨-, rfl⟩ | ⟨-, rfl⟩⟩ := call_eq_some hstep
      · exact hsub.registerCallback hs
      · exact hsub
    · cases hstep
  | admitDrain =>
    obtain ⟨h, hr, rfl⟩ := admitDrain_eq_some hstep
    apply hsub.mono
    · rfl
    · exact fun k => Or.inl rfl
    · exact fun k hk => Or.inl (Finset.mem_insert_of_mem hk)
    · exact fun k hk => Or.inl hk
    · intro k stage hk
      cases hk
      exact Or.inr (hsub.registered h _ hr)
  | submitDrain =>
    obtain ⟨h, hr, rfl⟩ := submitDrain_eq_some hstep
    have hretained : Submissions (s.retainWork h true) := hsub.setHandle rfl
    apply hretained.setRegistering
    intro k stage hk
    cases hk
    exact hretained.registered h _ hr
  | leaveRegistration =>
    obtain ⟨h, -, rfl⟩ := leaveRegistration_eq_some hstep
    exact hsub.congr rfl rfl rfl (Or.inr rfl)
  | registrationFails released =>
    obtain ⟨h, ⟨hr, rfl⟩ | ⟨hr, -, rfl⟩ | ⟨hr, rfl⟩⟩ := registrationFails_eq_some hstep
    · exact hsub.rollBack (hsub.registered h _ hr)
    · exact (hsub.discard (hsub.registered h _ hr) s.notifications fun k hk => hk).rollBack
        (hsub.registered h _ hr)
    · exact hsub.rollBack (hsub.registered h _ hr)
  | createTask owned =>
    obtain ⟨-, ⟨-, rfl⟩ | ⟨-, rfl⟩⟩ := call_eq_some hstep
    · exact hsub.congr rfl rfl rfl (Or.inl rfl)
    · exact hsub
  | adopt owned =>
    obtain ⟨-, ⟨-, rfl⟩ | ⟨-, rfl⟩⟩ := call_eq_some hstep
    · exact hsub.congr rfl rfl rfl (Or.inl rfl)
    · exact hsub
  | closeStart =>
    obtain ⟨-, rfl⟩ := when_eq_some hstep
    split
    · exact hsub
    · exact hsub.congr rfl rfl rfl (Or.inl rfl)
  | adoptedTaskDone _ | sealScope | closeTimeout | closeSettled | closeDone | executorCall _ =>
    obtain ⟨-, rfl⟩ := when_eq_some hstep
    exact hsub.congr rfl rfl rfl (Or.inl rfl)

theorem submissions_initial : Submissions {} := by
  constructor
  · intro h hlt
    exact absurd hlt (by simp)
  · intro h _
    exact ⟨rfl, rfl⟩
  · intro h hmem
    cases hmem
  · intro h stage hr
    cases hr

theorem reachable_submissions {ok : ScopeState → ScopeEvent → Prop}
    (hs : scopeSystem.ReachUnder ok s) : Submissions s := by
  apply hs.invariant (I := Submissions)
  · rintro _ rfl
    exact submissions_initial
  · intro t e t' hsub _ hstep
    exact hsub.step hstep

/-! ## 4. Pending work

Membership itself is relative: a registration that holds the scope lock may be about to
add its handle. -/

structure Tracked (s : ScopeState) : Prop where
  pending_member : ∀ h, 0 < s.pendingWork h →
    h ∈ s.activeHandles ∨ s.registering = some (h, .admitting)
  submitting_member : ∀ h, s.registering = some (h, .submitting) → h ∈ s.activeHandles

/-- The steps after which pending work may belong to no member. -/
def losesTrack (s : ScopeState) : ScopeEvent → Bool
  | .notify h => decide (0 < s.pendingWork h)
  | .retain h _ => decide (h ∉ s.activeHandles ∧ s.registering ≠ some (h, .admitting))
  | .registrationFails _ =>
    match s.registering with
    | some (h, .admitting) => decide (0 < s.pendingWork h ∧ h ∉ s.activeHandles)
    | _ => false
  | _ => false

/-- The rule of the steps that add no pending work and discard no handle. -/
theorem Tracked.mono (ht : Tracked s)
    (hpending : ∀ k, 0 < s'.pendingWork k → 0 < s.pendingWork k)
    (hactive : s.activeHandles ⊆ s'.activeHandles)
    (hreg : s'.registering = s.registering) : Tracked s' := by
  constructor
  · intro k hp
    rw [hreg]
    rcases ht.pending_member k (hpending k hp) with hk | hk
    · exact Or.inl (hactive hk)
    · exact Or.inr hk
  · intro k hk
    rw [hreg] at hk
    exact hactive (ht.submitting_member k hk)

theorem pendingWork_setHandle (entry : HandleState)
    (hp : entry.pendingWork = s.pendingWork h) (k : Nat) :
    (s.setHandle h entry).pendingWork k = s.pendingWork k := by
  unfold pendingWork
  rw [handle_setHandle]
  split
  · rename_i hk
    rw [hk.1]
    exact hp
  · rfl

theorem Tracked.setHandle {entry : HandleState} (ht : Tracked s)
    (hp : entry.pendingWork = s.pendingWork h) : Tracked (s.setHandle h entry) := by
  apply ht.mono
  · intro k hk
    rwa [pendingWork_setHandle entry hp] at hk
  · exact fun k hk => hk
  · rfl

/-- Fields outside the handles and the inventory do not matter here either. -/
theorem Tracked.congr (ht : Tracked s) (hhandles : s'.handles = s.handles)
    (hactive : s'.activeHandles = s.activeHandles)
    (hreg : s'.registering = s.registering) : Tracked s' := by
  apply ht.mono
  · intro k hk
    rwa [pendingWork, handle, hhandles] at hk
  · rw [hactive]
  · exact hreg

theorem Tracked.go {callbacks : Nat} (ht : Tracked s) : Tracked (s.go callbacks) := by
  apply ht.mono
  · intro k hk
    rw [pendingWork, handle_go] at hk
    split at hk
    · exact absurd hk (by simp)
    · exact hk
  · exact Finset.subset_insert _ _
  · rfl

/-- Retaining keeps track when the handle is a member, or is about to become one. -/
theorem Tracked.retainWork (ht : Tracked s)
    (hm : h ∈ s.activeHandles ∨ s.registering = some (h, .admitting)) :
    Tracked (s.retainWork h runner) := by
  constructor
  · intro k hp
    rw [pendingWork_retainWork] at hp
    split at hp
    · rename_i hk
      rw [hk.1]
      exact hm
    · exact ht.pending_member k hp
  · exact ht.submitting_member

theorem Tracked.releaseWork (ht : Tracked s) : Tracked (s.releaseWork h runner) := by
  obtain ⟨hactive, hreg⟩ := releaseWork_frame s h runner
  apply ht.mono
  · intro k hp
    rw [pendingWork, handle_releaseWork] at hp
    split at hp
    · rename_i hk
      rw [hk.1]
      exact Nat.lt_of_lt_of_le hp (Nat.sub_le _ _)
    · exact hp
  · rw [hactive]
  · exact hreg

/-- Discarding a handle is harmless when nothing is pending for it. -/
theorem Tracked.discard (ht : Tracked s) (hzero : s.pendingWork h = 0)
    (hsubmit : s.registering ≠ some (h, .submitting)) (notifications : List Nat) :
    Tracked { s with
      notifications := notifications, activeHandles := s.activeHandles.erase h } := by
  constructor
  · intro k hp
    have hp' : 0 < s.pendingWork k := hp
    have hkh : k ≠ h := by
      rintro rfl
      omega
    rcases ht.pending_member k hp' with hk | hk
    · exact Or.inl (Finset.mem_erase.mpr ⟨hkh, hk⟩)
    · exact Or.inr hk
  · intro k hr
    have hkh : k ≠ h := by
      rintro rfl
      exact hsubmit hr
    exact Finset.mem_erase.mpr ⟨hkh, ht.submitting_member k hr⟩

/-- A registration moves to another stage; the handle it had announced is a member. -/
theorem Tracked.setRegistering {registering : Option (Nat × RegistrationStage)}
    (ht : Tracked s)
    (hmember : ∀ k, 0 < s.pendingWork k → s.registering = some (k, .admitting) →
      k ∈ s.activeHandles ∨ registering = some (k, .admitting))
    (hsubmitting : ∀ k, registering = some (k, .submitting) → k ∈ s.activeHandles) :
    Tracked { s with registering := registering } := by
  constructor
  · intro k hp
    rcases ht.pending_member k hp with hk | hk
    · exact Or.inl hk
    · exact hmember k hp hk
  · exact hsubmitting

theorem Tracked.registerCallback (ht : Tracked s) (hlock : s.scopeLockFree = true) :
    Tracked (s.registerCallback h) := by
  have hreg := registering_eq_none hlock
  have hnoted : Tracked s.noteAccepted := ht.congr rfl rfl rfl
  unfold ScopeState.registerCallback
  dsimp only
  split
  · have hset : Tracked (s.noteAccepted.setHandle h { s.handle h with
        callbacks := (s.handle h).callbacks + 1, callbackDrainActive := true }) :=
      hnoted.setHandle rfl
    apply hset.setRegistering
    · intro k _ hk
      have hk' : s.registering = some (k, .admitting) := hk
      rw [hreg] at hk'
      cases hk'
    · intro k hk
      cases hk
  · exact hnoted.setHandle rfl

theorem pendingWork_rollBack (s : ScopeState) (h k : Nat) :
    (s.rollBackRegistration h).pendingWork k = s.pendingWork k :=
  pendingWork_setHandle { s.handle h with
    callbacks := (s.handle h).callbacks - 1, callbackDrainActive := false } rfl k

theorem Tracked.rollBack (ht : Tracked s)
    (hmember : ∀ k, 0 < s.pendingWork k → s.registering = some (k, .admitting) →
      k ∈ s.activeHandles) :
    Tracked (s.rollBackRegistration h) := by
  have hset : Tracked (s.setHandle h { s.handle h with
      callbacks := (s.handle h).callbacks - 1, callbackDrainActive := false }) :=
    ht.setHandle rfl
  apply hset.setRegistering
  · intro k hp hk
    refine Or.inl (hmember k ?_ hk)
    rwa [← pendingWork_rollBack s h k]
  · intro k hk
    cases hk

/-- **Step lemma.**  Every step that is not one of `losesTrack` keeps track. -/
theorem Tracked.step {e : ScopeEvent} (ht : Tracked s) (hsub : Submissions s)
    (hok : s.losesTrack e = false) (hstep : s.step e = some s') : Tracked s' := by
  cases e with
  | go owned callbacks =>
    obtain ⟨-, ⟨-, rfl⟩ | ⟨-, rfl⟩⟩ := call_eq_some hstep
    · exact ht.go
    · exact ht
  | submit h =>
    obtain ⟨⟨hlt, hfresh⟩, rfl⟩ := when_eq_some hstep
    apply ht.retainWork
    exact Or.inl (hsub.fresh_member h hlt (by simpa using hfresh))
  | submitFails h =>
    obtain ⟨⟨hlt, hfresh⟩, rfl⟩ := when_eq_some hstep
    have hmember := hsub.fresh_member h hlt (by simpa using hfresh)
    exact (ht.retainWork (Or.inl hmember)).releaseWork
  | retain h runner =>
    obtain ⟨-, rfl⟩ := when_eq_some hstep
    apply ht.retainWork
    by_cases hm : h ∈ s.activeHandles
    · exact Or.inl hm
    · simp only [losesTrack, decide_eq_false_iff_not, not_and, not_not] at hok
      exact Or.inr (hok hm)
  | release h runner =>
    obtain ⟨-, rfl⟩ := when_eq_some hstep
    exact ht.releaseWork
  | completeBody h =>
    obtain ⟨-, rfl⟩ := when_eq_some hstep
    exact ht.setHandle rfl
  | drainStep h =>
    obtain ⟨-, rfl⟩ := when_eq_some hstep
    unfold ScopeState.drainStep
    split
    · exact ht.setHandle rfl
    · exact ht.setHandle rfl
  | notify h =>
    obtain ⟨⟨hlock, -⟩, rfl⟩ := when_eq_some hstep
    apply ht.discard
    · simpa [losesTrack] using hok
    · rw [registering_eq_none hlock]
      exact (Option.some_ne_none _).symm
  | register owned h =>
    simp only [ScopeState.step] at hstep
    split at hstep
    · obtain ⟨hc, ⟨-, rfl⟩ | ⟨-, rfl⟩⟩ := call_eq_some hstep
      · exact ht.registerCallback (lock_of_callEnabled hc)
      · exact ht
    · cases hstep
  | admitDrain =>
    obtain ⟨h, hr, rfl⟩ := admitDrain_eq_some hstep
    constructor
    · intro k hp
      rcases ht.pending_member k hp with hk | hk
      · exact Or.inl (Finset.mem_insert_of_mem hk)
      · rw [hr] at hk
        cases hk
        exact Or.inl (Finset.mem_insert_self _ _)
    · intro k hk
      cases hk
      exact Finset.mem_insert_self _ _
  | submitDrain =>
    obtain ⟨h, hr, rfl⟩ := submitDrain_eq_some hstep
    have hretained : Tracked (s.retainWork h true) :=
      ht.retainWork (Or.inl (ht.submitting_member h hr))
    apply hretained.setRegistering
    · intro k _ hk
      have hk' : s.registering = some (k, .admitting) := hk
      rw [hr] at hk'
      cases hk'
    · intro k hk
      cases hk
  | leaveRegistration =>
    obtain ⟨h, hr, rfl⟩ := leaveRegistration_eq_some hstep
    apply ht.setRegistering
    · intro k _ hk
      rw [hr] at hk
      cases hk
    · intro k hk
      cases hk
  | registrationFails released =>
    obtain ⟨h, ⟨hr, rfl⟩ | ⟨hr, hzero, rfl⟩ | ⟨hr, rfl⟩⟩ := registrationFails_eq_some hstep
    · apply ht.rollBack
      intro k hp hk
      rw [hr] at hk
      cases hk
      simp only [losesTrack, hr, decide_eq_false_iff_not, not_and, not_not] at hok
      exact hok hp
    · have hrolled : Tracked (s.rollBackRegistration h) := by
        apply ht.rollBack
        intro k _ hk
        rw [hr] at hk
        cases hk
      apply hrolled.discard ((pendingWork_rollBack s h h).trans hzero)
      simp [rollBackRegistration]
    · apply ht.rollBack
      intro k _ hk
      rw [hr] at hk
      cases hk
  | createTask owned =>
    obtain ⟨-, ⟨-, rfl⟩ | ⟨-, rfl⟩⟩ := call_eq_some hstep
    · exact ht.congr rfl rfl rfl
    · exact ht
  | adopt owned =>
    obtain ⟨-, ⟨-, rfl⟩ | ⟨-, rfl⟩⟩ := call_eq_some hstep
    · exact ht.congr rfl rfl rfl
    · exact ht
  | closeStart =>
    obtain ⟨-, rfl⟩ := when_eq_some hstep
    split
    · exact ht
    · exact ht.congr rfl rfl rfl
  | adoptedTaskDone _ | sealScope | closeTimeout | closeSettled | closeDone | executorCall _ =>
    obtain ⟨-, rfl⟩ := when_eq_some hstep
    exact ht.congr rfl rfl rfl

/-- **The steps excluded above do lose track.** -/
theorem exists_untracked {e : ScopeEvent} (hloses : s.losesTrack e = true)
    (hstep : s.step e = some s') :
    ∃ h, 0 < s'.pendingWork h ∧ h ∉ s'.activeHandles ∧
      s'.registering ≠ some (h, .admitting) := by
  cases e with
  | notify h =>
    obtain ⟨⟨hlock, -⟩, rfl⟩ := when_eq_some hstep
    have hp : 0 < s.pendingWork h := by simpa [losesTrack] using hloses
    refine ⟨h, hp, Finset.notMem_erase _ _, ?_⟩
    intro hr
    have hr' : s.registering = some (h, .admitting) := hr
    rw [registering_eq_none hlock] at hr'
    cases hr'
  | retain h runner =>
    obtain ⟨⟨hlt, -⟩, rfl⟩ := when_eq_some hstep
    simp only [losesTrack, decide_eq_true_eq] at hloses
    refine ⟨h, ?_, hloses.1, hloses.2⟩
    rw [pendingWork_retainWork, if_pos ⟨rfl, hlt⟩]
    omega
  | registrationFails released =>
    obtain ⟨h, ⟨hr, rfl⟩ | ⟨hr, -, rfl⟩ | ⟨hr, rfl⟩⟩ := registrationFails_eq_some hstep
    · simp only [losesTrack, hr, decide_eq_true_eq] at hloses
      refine ⟨h, ?_, hloses.2, by simp [rollBackRegistration]⟩
      rw [pendingWork_rollBack]
      exact hloses.1
    · simp [losesTrack, hr] at hloses
    · simp [losesTrack, hr] at hloses
  | _ => cases hloses

theorem reachUnder_tracked
    (hs : scopeSystem.ReachUnder (fun s e => s.losesTrack e = false) s) : Tracked s := by
  apply hs.invariant_of (I := Tracked) (J := Submissions)
  · exact fun t ht => reachable_submissions ht
  · rintro _ rfl
    constructor
    · intro h hp
      exact absurd (lt_of_pendingWork hp) (by simp)
    · intro h hr
      cases hr
  · intro t e t' hsub ht hok hstep
    exact ht.step hsub hok hstep

end ScopeState

/-! ## 5. Runs -/

/-- **Pending work is in the inventory, and exactly when.**  As long as no step loses
    track, a handle with pending work is a member whenever the scope lock is free, so
    `wait_settled` and `close`, which wait for an empty inventory, do not pass pending
    work; and a step that loses track leaves pending work outside the inventory. -/
theorem pendingWork_member_iff (s : ScopeState) :
    (scopeSystem.ReachUnder (fun s e => s.losesTrack e = false) s → s.scopeLockFree = true →
      (∀ h, 0 < s.pendingWork h → h ∈ s.activeHandles) ∧
        (s.hasActiveWorkLocked = false → ∀ h, s.pendingWork h = 0)) ∧
    ∀ e s', scopeSystem.ReachUnder (fun s e => s.losesTrack e = false) s →
      scopeSystem.step s e = some s' → s.losesTrack e = true →
      ∃ h, 0 < s'.pendingWork h ∧ h ∉ s'.activeHandles ∧
        s'.registering ≠ some (h, .admitting) := by
  constructor
  · intro hs hlock
    have ht := ScopeState.reachUnder_tracked hs
    have hmember : ∀ h, 0 < s.pendingWork h → h ∈ s.activeHandles := by
      intro h hp
      rcases ht.pending_member h hp with hm | hr
      · exact hm
      · rw [ScopeState.registering_eq_none hlock] at hr
        cases hr
    refine ⟨hmember, fun hidle h => ?_⟩
    by_contra hp
    have hm := hmember h (Nat.pos_of_ne_zero hp)
    simp only [ScopeState.hasActiveWorkLocked, decide_eq_false_iff_not, not_or, not_not] at hidle
    rw [hidle.1] at hm
    exact absurd hm (Finset.notMem_empty h)
  · intro e s' _ hstep hloses
    exact ScopeState.exists_untracked hloses hstep

/-- The handle settles, a late callback reopens it, and the notification of the first
    quiescence discards it: `close` completes with the drain pending. -/
theorem pendingWork_outside_inventory :
    ¬ ∀ s, scopeSystem.Reachable s → s.scopeLockFree = true →
      (∀ h, 0 < s.pendingWork h → h ∈ s.activeHandles) ∧
        (s.closeCompleted = true → ∀ h, s.pendingWork h = 0) := by
  intro hall
  have hreach := System.reachable_of_run (S := scopeSystem) (s := {})
    [.go false 0, .submit 0, .completeBody 0, .release 0 true, .register false 0,
      .admitDrain, .submitDrain, .leaveRegistration, .notify 0,
      .closeStart, .closeSettled, .closeDone] rfl rfl
  exact absurd ((hall _ hreach (by decide)).2 (by decide) 0) (by decide)

end AgentlyStage
