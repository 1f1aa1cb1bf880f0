import AgentlyStage.ScopeMembership

/-!
# Closing a Stage scope

`close` seals the scope, waits until the inventory is empty and then sets
`_close_completed`.  Sealing refuses every caller but the Stage's own work, and after
the wait there is no such work left.  What is left are its contexts: a copy of one, kept
by a timer, a raw task or a thread, still reads as owned, and `go`, `create_task`,
`adopt` and the registration of callbacks ask for nothing else.

`reopens` names the steps this leaves: such a call after the wait of `close`, and a wait
that returned with a body or a drain running outside the inventory.
-/

namespace AgentlyStage

open Transition

namespace ScopeState

variable {s s' : ScopeState} {h k : Nat}

/-! ## 1. A settled scope -/

/-- The wait of a `close` has returned. -/
def closed (s : ScopeState) : Bool := s.closeCompleted || decide (s.closePhase = .settled)

/-- A registration that starts a drain. -/
def startsDrain (s : ScopeState) (h : Nat) : Bool :=
  (s.handle h).bodyCompleted && !(s.handle h).callbackDrainActive

def reopens (s : ScopeState) : ScopeEvent → Bool
  | .closeSettled => s.handles.any fun entry => decide (0 < entry.runners)
  | .go owned _ | .createTask owned | .adopt owned => owned && s.closed
  | .register owned h => owned && s.closed && (s.closeCompleted || s.startsDrain h)
  | _ => false

structure Settled (s : ScopeState) : Prop where
  is_sealed : s.isSealed = true
  no_handle : s.activeHandles = ∅
  no_task : s.adoptedTasks = ∅
  unlocked : s.registering = none
  no_runner : ∀ h, (s.handle h).runners = 0

/-- What holds of the history: nothing was accepted, nothing was executed. -/
def Unused (s s' : ScopeState) : Prop :=
  s'.lateAdmissions = s.lateAdmissions ∧ s'.lateExecutorCalls = s.lateExecutorCalls

theorem Settled.refuses (hs : Settled s) : s.callAllowed false = false := by
  rw [callAllowed, hs.is_sealed]
  rfl

/-- A call from outside changes nothing. -/
theorem Settled.of_call {owned : Bool} {t : ScopeState} (hs : Settled s)
    (howned : owned = false) (hstep : s.call owned t = some s') : s' = s := by
  subst howned
  obtain ⟨-, ⟨hallowed, -⟩ | ⟨-, rfl⟩⟩ := call_eq_some hstep
  · rw [hs.refuses] at hallowed
    cases hallowed
  · rfl

theorem Settled.setHandle {entry : HandleState} (hs : Settled s)
    (hr : entry.runners = 0) : Settled (s.setHandle h entry) := by
  refine ⟨hs.is_sealed, hs.no_handle, hs.no_task, hs.unlocked, ?_⟩
  intro k
  rw [handle_setHandle]
  split
  · exact hr
  · exact hs.no_runner k

theorem Settled.not_fresh (hs : Settled s) (hsub : Submissions s)
    (hlt : h < s.handles.length) : (s.handle h).submitted = true := by
  by_contra hfresh
  have hmem := hsub.fresh_member h hlt (by simpa using hfresh)
  rw [hs.no_handle] at hmem
  exact absurd hmem (Finset.notMem_empty h)

/-! ## 2. Nothing reopens it -/

/-- A registration from an owned context between the wait and the end of `close`, for a
    handle that needs no drain: the callback is kept and never runs. -/
theorem Settled.registerCallback (hs : Settled s) (hcompleted : s.closeCompleted = false)
    (hdrain : s.startsDrain h = false) :
    Settled (s.registerCallback h) ∧ Unused s (s.registerCallback h) := by
  have hbranch : ¬ ((s.handle h).bodyCompleted = true ∧
      ¬ (s.handle h).callbackDrainActive = true) := by
    rintro ⟨hbody, hactive⟩
    simp [startsDrain, hbody, hactive] at hdrain
  have hnoted : Settled s.noteAccepted :=
    ⟨hs.is_sealed, hs.no_handle, hs.no_task, hs.unlocked, hs.no_runner⟩
  unfold ScopeState.registerCallback
  dsimp only
  rw [if_neg hbranch]
  constructor
  · exact hnoted.setHandle (hs.no_runner h)
  · constructor
    · simp [ScopeState.setHandle, ScopeState.noteAccepted, hcompleted]
    · rfl

/-- **Step lemma of a settled scope.** -/
theorem Settled.step {e : ScopeEvent} (hs : Settled s) (hsub : Submissions s)
    (hclosed : s.closed = true) (hok : s.reopens e = false) (hstep : s.step e = some s') :
    Settled s' ∧ Unused s s' := by
  have hsame : Settled s ∧ Unused s s := ⟨hs, rfl, rfl⟩
  have hidle : ∀ h, ¬ 0 < (s.handle h).runners := by
    intro h
    rw [hs.no_runner h]
    exact Nat.lt_irrefl 0
  cases e with
  | go owned callbacks | createTask owned | adopt owned =>
    rw [reopens, hclosed, Bool.and_true] at hok
    rw [hs.of_call hok hstep]
    exact hsame
  | submit h | submitFails h =>
    obtain ⟨⟨hlt, hfresh⟩, -⟩ := when_eq_some hstep
    exact absurd (hs.not_fresh hsub hlt) hfresh
  | retain h runner =>
    obtain ⟨⟨-, -, hrunner⟩, rfl⟩ := when_eq_some hstep
    have hdescendant : runner = false := by
      by_contra hr
      exact hidle h (hrunner (by simpa using hr))
    refine ⟨hs.setHandle ?_, rfl, rfl⟩
    rw [hdescendant]
    exact hs.no_runner h
  | release h runner =>
    obtain ⟨-, rfl⟩ := when_eq_some hstep
    have hset : Settled (s.setHandle h { s.handle h with
        pendingWork := s.pendingWork h - 1
        runners := (s.handle h).runners - runner.toNat }) := by
      apply hs.setHandle
      rw [hs.no_runner h]
      exact Nat.zero_sub _
    unfold ScopeState.releaseWork
    dsimp only
    split
    · exact ⟨⟨hset.is_sealed, hset.no_handle, hset.no_task, hset.unlocked, hset.no_runner⟩,
        rfl, rfl⟩
    · exact ⟨hset, rfl, rfl⟩
  | completeBody h | drainStep h =>
    obtain ⟨⟨hr, -⟩, -⟩ := when_eq_some hstep
    exact absurd hr (hidle h)
  | executorCall h =>
    obtain ⟨hr, -⟩ := when_eq_some hstep
    exact absurd hr (hidle h)
  | notify h =>
    obtain ⟨-, rfl⟩ := when_eq_some hstep
    refine ⟨⟨hs.is_sealed, ?_, hs.no_task, hs.unlocked, hs.no_runner⟩, rfl, rfl⟩
    simp [ScopeState.handleQuiescent, hs.no_handle]
  | register owned h =>
    simp only [ScopeState.step] at hstep
    split at hstep
    · cases owned with
      | false =>
        rw [hs.of_call rfl hstep]
        exact hsame
      | true =>
        simp only [reopens, hclosed, Bool.true_and, Bool.or_eq_false_iff] at hok
        obtain ⟨-, ⟨-, rfl⟩ | ⟨-, rfl⟩⟩ := call_eq_some hstep
        · exact hs.registerCallback hok.1 hok.2
        · exact hsame
    · cases hstep
  | admitDrain =>
    obtain ⟨h, hr, -⟩ := admitDrain_eq_some hstep
    rw [hs.unlocked] at hr
    cases hr
  | submitDrain =>
    obtain ⟨h, hr, -⟩ := submitDrain_eq_some hstep
    rw [hs.unlocked] at hr
    cases hr
  | leaveRegistration =>
    obtain ⟨h, hr, -⟩ := leaveRegistration_eq_some hstep
    rw [hs.unlocked] at hr
    cases hr
  | registrationFails released =>
    obtain ⟨h, ⟨hr, -⟩ | ⟨hr, -, -⟩ | ⟨hr, -⟩⟩ := registrationFails_eq_some hstep
    all_goals
      rw [hs.unlocked] at hr
      cases hr
  | adoptedTaskDone t =>
    obtain ⟨⟨-, hmem⟩, -⟩ := when_eq_some hstep
    rw [hs.no_task] at hmem
    exact absurd hmem (Finset.notMem_empty t)
  | sealScope =>
    obtain ⟨-, rfl⟩ := when_eq_some hstep
    exact ⟨⟨rfl, hs.no_handle, hs.no_task, hs.unlocked, hs.no_runner⟩, rfl, rfl⟩
  | closeStart =>
    obtain ⟨-, rfl⟩ := when_eq_some hstep
    split
    · exact hsame
    · exact ⟨⟨rfl, hs.no_handle, hs.no_task, hs.unlocked, hs.no_runner⟩, rfl, rfl⟩
  | closeTimeout | closeSettled | closeDone =>
    obtain ⟨-, rfl⟩ := when_eq_some hstep
    exact ⟨⟨hs.is_sealed, hs.no_handle, hs.no_task, hs.unlocked, hs.no_runner⟩, rfl, rfl⟩

/-! ## 3. Until a close -/

/-- The steps of `close` itself. -/
def closes : ScopeEvent → Bool
  | .closeStart | .closeTimeout | .closeSettled | .closeDone => true
  | _ => false

/-- What the other steps do to the fields of `close`: a call only ever counts as late
    once `_close_completed` is set. -/
structure KeepsClose (s s' : ScopeState) : Prop where
  phase : s'.closePhase = s.closePhase
  completed : s'.closeCompleted = s.closeCompleted
  is_sealed : s.isSealed = true → s'.isSealed = true
  unused : s.closeCompleted = false → Unused s s'

theorem KeepsClose.refl (s : ScopeState) : KeepsClose s s :=
  ⟨rfl, rfl, fun hs => hs, fun _ => ⟨rfl, rfl⟩⟩

/-- The rule of the steps that count nothing. -/
theorem KeepsClose.of_eq (hphase : s'.closePhase = s.closePhase)
    (hcompleted : s'.closeCompleted = s.closeCompleted) (hsealed : s'.isSealed = s.isSealed)
    (hunused : Unused s s') : KeepsClose s s' :=
  ⟨hphase, hcompleted, fun hs => hsealed.trans hs, fun _ => hunused⟩

theorem KeepsClose.noteAccepted (hphase : s'.closePhase = s.closePhase)
    (hcompleted : s'.closeCompleted = s.closeCompleted) (hsealed : s'.isSealed = s.isSealed)
    (hunused : Unused s.noteAccepted s') : KeepsClose s s' := by
  refine ⟨hphase, hcompleted, fun hs => hsealed.trans hs, fun hopen => ?_⟩
  refine ⟨hunused.1.trans ?_, hunused.2⟩
  simp [ScopeState.noteAccepted, hopen]

theorem KeepsClose.releaseWork (s : ScopeState) (h : Nat) (runner : Bool) :
    KeepsClose s (s.releaseWork h runner) := by
  unfold ScopeState.releaseWork
  dsimp only
  split
  all_goals exact .of_eq rfl rfl rfl ⟨rfl, rfl⟩

theorem KeepsClose.registerCallback (s : ScopeState) (h : Nat) :
    KeepsClose s (s.registerCallback h) := by
  unfold ScopeState.registerCallback
  dsimp only
  split
  all_goals exact .noteAccepted rfl rfl rfl ⟨rfl, rfl⟩

theorem keepsClose_of_step {e : ScopeEvent} (he : closes e = false)
    (hstep : s.step e = some s') : KeepsClose s s' := by
  cases e with
  | go owned callbacks | createTask owned | adopt owned =>
    obtain ⟨-, ⟨-, rfl⟩ | ⟨-, rfl⟩⟩ := call_eq_some hstep
    · exact .noteAccepted rfl rfl rfl ⟨rfl, rfl⟩
    · exact .refl _
  | submit _ | retain _ _ | completeBody _ | notify _ | adoptedTaskDone _ =>
    obtain ⟨-, rfl⟩ := when_eq_some hstep
    exact .of_eq rfl rfl rfl ⟨rfl, rfl⟩
  | submitFails h =>
    obtain ⟨-, rfl⟩ := when_eq_some hstep
    have hk := KeepsClose.releaseWork (s.retainWork h true) h true
    exact ⟨hk.phase, hk.completed, hk.is_sealed, hk.unused⟩
  | release h runner =>
    obtain ⟨-, rfl⟩ := when_eq_some hstep
    exact .releaseWork s h runner
  | drainStep h =>
    obtain ⟨-, rfl⟩ := when_eq_some hstep
    unfold ScopeState.drainStep
    split
    all_goals exact .of_eq rfl rfl rfl ⟨rfl, rfl⟩
  | register owned h =>
    simp only [ScopeState.step] at hstep
    split at hstep
    · obtain ⟨-, ⟨-, rfl⟩ | ⟨-, rfl⟩⟩ := call_eq_some hstep
      · exact .registerCallback s h
      · exact .refl _
    · cases hstep
  | admitDrain =>
    obtain ⟨h, -, rfl⟩ := admitDrain_eq_some hstep
    exact .of_eq rfl rfl rfl ⟨rfl, rfl⟩
  | submitDrain =>
    obtain ⟨h, -, rfl⟩ := submitDrain_eq_some hstep
    exact .of_eq rfl rfl rfl ⟨rfl, rfl⟩
  | leaveRegistration =>
    obtain ⟨h, -, rfl⟩ := leaveRegistration_eq_some hstep
    exact .of_eq rfl rfl rfl ⟨rfl, rfl⟩
  | registrationFails released =>
    obtain ⟨h, ⟨-, rfl⟩ | ⟨-, -, rfl⟩ | ⟨-, rfl⟩⟩ := registrationFails_eq_some hstep
    all_goals exact .of_eq rfl rfl rfl ⟨rfl, rfl⟩
  | sealScope =>
    obtain ⟨-, rfl⟩ := when_eq_some hstep
    exact ⟨rfl, rfl, fun _ => rfl, fun _ => ⟨rfl, rfl⟩⟩
  | executorCall h =>
    obtain ⟨-, rfl⟩ := when_eq_some hstep
    refine ⟨rfl, rfl, fun hs => hs, fun hopen => ⟨rfl, ?_⟩⟩
    simp [hopen]
  | closeStart | closeTimeout | closeSettled | closeDone => cases he

/-! ## 4. The invariant of close -/

structure Final (s : ScopeState) : Prop where
  waiting_sealed : s.closePhase ≠ .idle → s.isSealed = true
  closed_settled : s.closed = true → Settled s
  unused : s.lateAdmissions = 0 ∧ s.lateExecutorCalls = 0

theorem no_runner_of_any (hany : (s.handles.any fun entry => decide (0 < entry.runners)) = false)
    (h : Nat) : (s.handle h).runners = 0 := by
  rw [handle, List.getD_eq_getElem?_getD]
  rcases hget : s.handles[h]? with _ | entry
  · rfl
  · have hmem := List.mem_of_getElem? hget
    have := List.any_eq_false.mp hany entry hmem
    simpa using this

theorem Final.step {e : ScopeEvent} (hf : Final s) (hsub : Submissions s)
    (hok : s.reopens e = false) (hstep : s.step e = some s') : Final s' := by
  by_cases hclosed : s.closed = true
  · obtain ⟨hs', hunused⟩ := (hf.closed_settled hclosed).step hsub hclosed hok hstep
    refine ⟨fun _ => hs'.is_sealed, fun _ => hs', ?_, ?_⟩
    · exact hunused.1.trans hf.unused.1
    · exact hunused.2.trans hf.unused.2
  · have hopen : s.closeCompleted = false ∧ s.closePhase ≠ .settled := by
      simpa [closed] using hclosed
    by_cases he : closes e = true
    · cases e with
      | closeStart =>
        obtain ⟨-, rfl⟩ := when_eq_some hstep
        rw [if_neg (by simp [hopen.1])]
        refine ⟨fun _ => rfl, fun hc => ?_, hf.unused⟩
        simp [closed, hopen.1] at hc
      | closeTimeout =>
        obtain ⟨-, rfl⟩ := when_eq_some hstep
        refine ⟨fun hphase => absurd rfl hphase, fun hc => ?_, hf.unused⟩
        simp [closed, hopen.1] at hc
      | closeSettled =>
        obtain ⟨⟨hlock, hwaiting, hempty⟩, rfl⟩ := when_eq_some hstep
        have hsealed := hf.waiting_sealed (by simp [hwaiting])
        simp only [hasActiveWorkLocked, decide_eq_true_eq, not_or, not_not] at hempty
        exact ⟨fun _ => hsealed, fun _ => ⟨hsealed, hempty.1, hempty.2,
          registering_eq_none hlock, no_runner_of_any hok⟩, hf.unused⟩
      | closeDone =>
        obtain ⟨⟨-, hphase⟩, -⟩ := when_eq_some hstep
        exact absurd hphase hopen.2
      | _ => cases he
    · have hk := keepsClose_of_step (by simpa using he) hstep
      obtain ⟨hadm, hexec⟩ := hk.unused hopen.1
      refine ⟨fun hphase => ?_, fun hc => ?_, hadm.trans hf.unused.1, hexec.trans hf.unused.2⟩
      · rw [hk.phase] at hphase
        exact hk.is_sealed (hf.waiting_sealed hphase)
      · rw [closed, hk.phase, hk.completed] at hc
        exact absurd hc hclosed

theorem reachUnder_final
    (hs : scopeSystem.ReachUnder (fun s e => s.reopens e = false) s) : Final s := by
  apply hs.invariant_of (I := Final) (J := Submissions)
  · exact fun t ht => reachable_submissions ht
  · rintro _ rfl
    exact ⟨fun hphase => absurd rfl hphase, fun hc => absurd hc (by decide), rfl, rfl⟩
  · intro t e t' hsub hf hok hstep
    exact hf.step hsub hok hstep

/-! ## 5. The excluded steps -/

/-- What a finished close promises about the scope. -/
def Empty (s : ScopeState) : Prop :=
  s.activeHandles = ∅ ∧ s.adoptedTasks = ∅ ∧ s.lateAdmissions = 0 ∧ s.lateExecutorCalls = 0

theorem closeDone_eq_some (hfree : s.scopeLockFree = true) (hphase : s.closePhase = .settled) :
    scopeSystem.step s .closeDone =
      some { s with closePhase := .idle, closeCompleted := true } :=
  if_pos ⟨hfree, hphase⟩

/-- An accepted call counts as late, or leaves something that `close` does not wait for. -/
theorem not_empty_of_call {owned : Bool} {t : ScopeState}
    (hclosed : (owned && s.closed) = true) (hstep : s.call owned t = some s')
    (hlate : t.lateAdmissions = s.lateAdmissions + s.closeCompleted.toNat)
    (hclose : t.closePhase = s.closePhase ∧ t.closeCompleted = s.closeCompleted)
    (hlock : t.registering = s.registering)
    (hadds : t.activeHandles ≠ ∅ ∨ t.adoptedTasks ≠ ∅) :
    ∃ es s'', scopeSystem.run s' es = some s'' ∧ s''.closeCompleted = true ∧ ¬ s''.Empty := by
  obtain ⟨howned, hclosed⟩ := Bool.and_eq_true_iff.mp hclosed
  obtain ⟨hc, ⟨-, rfl⟩ | ⟨hrefused, -⟩⟩ := call_eq_some hstep
  · by_cases hcompleted : s.closeCompleted = true
    · refine ⟨[], s', rfl, hclose.2.trans hcompleted, ?_⟩
      rintro ⟨-, -, hnone, -⟩
      rw [hlate, hcompleted] at hnone
      cases hnone
    · have hphase : s.closePhase = .settled := by
        simpa [closed, hcompleted] using hclosed
      have hfree : s'.scopeLockFree = true := by
        rw [scopeLockFree, hlock]
        exact lock_of_callEnabled hc
      have hdone := closeDone_eq_some hfree (hclose.1.trans hphase)
      refine ⟨[.closeDone], _, System.run_cons_of_step hdone [], rfl, ?_⟩
      · rintro ⟨hactive, hadopted, -, -⟩
        rcases hadds with ha | ha
        · exact ha hactive
        · exact ha hadopted
  · simp [callAllowed, howned] at hrefused

/-- A drain that a registration starts becomes a member after the wait. -/
theorem not_empty_of_drain (hphase : s.closePhase = .settled)
    (hdrain : s.startsDrain h = true) :
    ∃ es s'', scopeSystem.run (s.registerCallback h) es = some s'' ∧
      s''.closeCompleted = true ∧ ¬ s''.Empty := by
  have hbranch : (s.handle h).bodyCompleted = true ∧
      ¬ (s.handle h).callbackDrainActive = true := by
    simpa [startsDrain] using hdrain
  let t : ScopeState := s.noteAccepted.setHandle h { s.handle h with
    callbacks := (s.handle h).callbacks + 1, callbackDrainActive := true }
  have hregistered : s.registerCallback h = { t with registering := some (h, .admitting) } := by
    unfold ScopeState.registerCallback
    dsimp only
    rw [if_pos hbranch]
  let u : ScopeState := { t with
    activeHandles := insert h t.activeHandles, registering := some (h, .submitting) }
  let v : ScopeState := { u.retainWork h true with registering := none }
  have hdone : scopeSystem.step v .closeDone = some _ := closeDone_eq_some rfl hphase
  refine ⟨[.admitDrain, .submitDrain, .leaveRegistration, .closeDone],
    { v with closePhase := .idle, closeCompleted := true }, ?_, rfl, ?_⟩
  · rw [hregistered]
    exact System.run_cons_of_step hdone []
  · rintro ⟨hactive, -⟩
    exact absurd hactive (Finset.insert_ne_empty h t.activeHandles)

/-- **Each excluded step leads to a close that is not final.** -/
theorem not_empty_of_reopens {e : ScopeEvent} (hre : s.reopens e = true)
    (hstep : s.step e = some s') :
    ∃ es s'', scopeSystem.run s' es = some s'' ∧ s''.closeCompleted = true ∧ ¬ s''.Empty := by
  cases e with
  | go owned callbacks =>
    apply not_empty_of_call hre hstep rfl ⟨rfl, rfl⟩ rfl
    exact Or.inl (Finset.insert_ne_empty _ _)
  | createTask owned | adopt owned =>
    apply not_empty_of_call hre hstep rfl ⟨rfl, rfl⟩ rfl
    exact Or.inr (Finset.insert_ne_empty _ _)
  | register owned h =>
    simp only [reopens, Bool.and_eq_true] at hre
    obtain ⟨⟨howned, hclosed⟩, hwhich⟩ := hre
    simp only [ScopeState.step] at hstep
    split at hstep
    · obtain ⟨-, ⟨-, rfl⟩ | ⟨hrefused, -⟩⟩ := call_eq_some hstep
      · by_cases hcompleted : s.closeCompleted = true
        · refine ⟨[], _, rfl, (KeepsClose.registerCallback s h).completed.trans hcompleted, ?_⟩
          rintro ⟨-, -, hnone, -⟩
          unfold ScopeState.registerCallback at hnone
          dsimp only at hnone
          split at hnone
          all_goals simp [ScopeState.setHandle, ScopeState.noteAccepted, hcompleted] at hnone
        · simp only [closed, hcompleted, Bool.false_or, decide_eq_true_eq] at hclosed hwhich
          exact not_empty_of_drain hclosed hwhich
      · simp [callAllowed, howned] at hrefused
    · cases hstep
  | closeSettled =>
    obtain ⟨⟨hlock, -⟩, rfl⟩ := when_eq_some hstep
    obtain ⟨entry, hmem, hrunner⟩ := List.any_eq_true.mp hre
    obtain ⟨h, hget⟩ := List.mem_iff_getElem?.mp hmem
    have hentry : (s.handle h).runners = entry.runners := by
      rw [handle, List.getD_eq_getElem?_getD, hget]
      rfl
    have hdone : scopeSystem.step { s with closePhase := .settled } .closeDone = some _ :=
      closeDone_eq_some hlock rfl
    have hcall : scopeSystem.step { s with closePhase := .idle, closeCompleted := true }
        (.executorCall h) = some _ := if_pos (by
      change 0 < (s.handle h).runners
      rw [hentry]
      exact of_decide_eq_true hrunner)
    refine ⟨[.closeDone, .executorCall h], { s with
      closePhase := .idle, closeCompleted := true
      lateExecutorCalls := s.lateExecutorCalls + 1 }, ?_, rfl, ?_⟩
    · rw [System.run_cons_of_step hdone]
      exact System.run_cons_of_step hcall []
    · rintro ⟨-, -, -, hnone⟩
      cases hnone
  | _ => cases hre

end ScopeState

/-! ## 6. Runs -/

/-- **Closing is final, and exactly when.**  As long as no step reopens the scope, a
    finished close leaves the inventory empty for ever, no call has been accepted since
    and the executor has received nothing; and after a step that reopens it, a close can
    finish (or has finished) with one of these broken. -/
theorem close_final_iff (s : ScopeState) :
    (scopeSystem.ReachUnder (fun s e => s.reopens e = false) s → s.closeCompleted = true →
      s.activeHandles = ∅ ∧ s.adoptedTasks = ∅ ∧
        s.lateAdmissions = 0 ∧ s.lateExecutorCalls = 0) ∧
    ∀ e s', scopeSystem.ReachUnder (fun s e => s.reopens e = false) s →
      scopeSystem.step s e = some s' → s.reopens e = true →
      ∃ es s'', scopeSystem.run s' es = some s'' ∧ s''.closeCompleted = true ∧
        ¬ (s''.activeHandles = ∅ ∧ s''.adoptedTasks = ∅ ∧
          s''.lateAdmissions = 0 ∧ s''.lateExecutorCalls = 0) := by
  constructor
  · intro hs hcompleted
    have hf := ScopeState.reachUnder_final hs
    have hsettled := hf.closed_settled (by simp [ScopeState.closed, hcompleted])
    exact ⟨hsettled.no_handle, hsettled.no_task, hf.unused⟩
  · intro e s' _ hstep hre
    exact ScopeState.not_empty_of_reopens hre hstep

/-- A context copied inside the Stage's work outlives the close and submits again. -/
theorem go_accepted_after_close :
    ¬ ∀ s, scopeSystem.Reachable s → s.closeCompleted = true →
      s.activeHandles = ∅ ∧ s.adoptedTasks = ∅ ∧
        s.lateAdmissions = 0 ∧ s.lateExecutorCalls = 0 := by
  intro hall
  have hreach := System.reachable_of_run (S := scopeSystem) (s := {})
    [.go false 0, .submit 0, .completeBody 0, .release 0 true, .notify 0,
      .closeStart, .closeSettled, .closeDone, .go true 0, .submit 1, .executorCall 1] rfl rfl
  exact absurd (hall _ hreach (by decide)).2.2.1 (by decide)

end AgentlyStage
