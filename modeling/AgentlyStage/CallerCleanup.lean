import AgentlyStage.CallerRunner

/-!
# The clean-up of owner tasks

All clean-up of a submission to a caller loop lives in the coroutine of its owner task:
the outcome of the body, `_finish_admission`, `_release_work`.  So it happens exactly
when the coroutine gets to its first step, and the loop runs that step before any
`_cancel_tasks` of the handle: those are posted only once the owner task is known, which
is after `create_task` has queued the step.

What overtakes the first step is a cancellation inside `start` itself
(`cancelsUnstarted`): `_set_owner_task` finds `_cancel_requested`, or the task factory of
the loop cancels the task at its creation.
-/

namespace AgentlyStage

open Transition Fifo

/-! ## 1. One runner and the queue -/

/-- An owner task exists, or has existed. -/
def RunnerPlace.hasTask : RunnerPlace → Bool
  | .created | .gate | .scalar | .unwinding | .ended => true
  | _ => false

namespace RunnerState

/-- The outcome, the admission and the reservation at every place. -/
def Books (r : RunnerState) : Prop :=
  match r.place with
  | .admitted => r.outcome = none ∧ r.admissionsFinished = 0 ∧ r.reservations = 0
  | .posted | .created | .gate | .scalar =>
    r.outcome = none ∧ r.admissionsFinished = 0 ∧ r.reservations = 1
  | .unwinding => r.outcome.isSome = true ∧ r.admissionsFinished = 0 ∧ r.reservations = 1
  | .ended => r.outcome.isSome = true ∧ r.admissionsFinished = 1 ∧ r.reservations = 0
  | .absent | .refused | .startFailed => True

end RunnerState

/-- What the queue holds about a runner. -/
structure RunnerOk (ready : List LoopCall) (k : Nat) (r : RunnerState) : Prop where
  starts : ready.count (.start k) = if r.place = .posted then 1 else 0
  firsts : ready.count (.firstStep k) = if r.place = .created then 1 else 0
  unowned : r.ownerTaskSet = false → LoopCall.cancelTasks k ∉ ready
  owned : r.ownerTaskSet = true → r.place.hasTask = true
  created : r.place = .created → r.taskCancelled = false ∧
    Ahead (.firstStep k) (· = .cancelTasks k) ready
  books : r.Books

variable {ready : List LoopCall} {c : LoopCall} {k : Nat} {r r' : RunnerState}

theorem RunnerOk.append_other (h : RunnerOk ready k r) (hc : c.handle ≠ k) :
    RunnerOk (ready ++ [c]) k r := by
  refine ⟨?_, ?_, fun hu hmem => ?_, h.owned, fun hp => ?_, h.books⟩
  · rw [List.count_append, h.starts, List.count_eq_zero.mpr, Nat.add_zero]
    rintro hmem
    exact hc (List.mem_singleton.mp hmem ▸ rfl)
  · rw [List.count_append, h.firsts, List.count_eq_zero.mpr, Nat.add_zero]
    rintro hmem
    exact hc (List.mem_singleton.mp hmem ▸ rfl)
  · rcases List.mem_append.mp hmem with hm | hm
    · exact h.unowned hu hm
    · exact hc (List.mem_singleton.mp hm ▸ rfl)
  · exact ⟨(h.created hp).1, (h.created hp).2.enqueue c⟩

theorem RunnerOk.push_other (h : RunnerOk ready k r) (hc : c.handle ≠ k) :
    RunnerOk (c :: ready) k r := by
  have hne : ∀ {d : LoopCall}, d.handle = k → c ≠ d := by
    rintro d hd rfl
    exact hc hd
  refine ⟨?_, ?_, fun hu hmem => ?_, h.owned, fun hp => ?_, h.books⟩
  · rw [List.count_cons_of_ne (hne rfl)]
    exact h.starts
  · rw [List.count_cons_of_ne (hne rfl)]
    exact h.firsts
  · rcases List.mem_cons.mp hmem with hm | hm
    · exact hne rfl hm.symm
    · exact h.unowned hu hm
  · exact ⟨(h.created hp).1, (h.created hp).2.push (hne rfl)⟩

theorem RunnerOk.pop_other (h : RunnerOk (c :: ready) k r) (hc : c.handle ≠ k) :
    RunnerOk ready k r := by
  have hne : ∀ {d : LoopCall}, d.handle = k → c ≠ d := by
    rintro d hd rfl
    exact hc hd
  refine ⟨?_, ?_, fun hu hmem => ?_, h.owned, fun hp => ?_, h.books⟩
  · rw [← h.starts, List.count_cons_of_ne (hne rfl)]
  · rw [← h.firsts, List.count_cons_of_ne (hne rfl)]
  · exact h.unowned hu (List.mem_cons_of_mem _ hmem)
  · rcases (h.created hp).2.dequeue with heq | ⟨-, hahead⟩
    · exact absurd heq (hne rfl)
    · exact ⟨(h.created hp).1, hahead⟩

/-- The rule of the steps between two places that have nothing in the queue. -/
theorem RunnerOk.move (h : RunnerOk ready k r)
    (hfrom : r.place ≠ .posted ∧ r.place ≠ .created)
    (hto : r'.place ≠ .posted ∧ r'.place ≠ .created)
    (howner : r'.ownerTaskSet = r.ownerTaskSet)
    (htask : r.place.hasTask = true → r'.place.hasTask = true) (hbooks : r'.Books) :
    RunnerOk ready k r' := by
  refine ⟨?_, ?_, fun hu => ?_, fun ho => ?_, fun hp => absurd hp hto.2, hbooks⟩
  · rw [h.starts, if_neg hfrom.1, if_neg hto.1]
  · rw [h.firsts, if_neg hfrom.2, if_neg hto.2]
  · exact h.unowned (howner ▸ hu)
  · exact htask (h.owned (howner ▸ ho))

/-! ## 2. The steps of one runner -/

theorem RunnerOk.post (h : RunnerOk ready k r) (hp : r.place = .admitted)
    (onOwnLoop : Bool) :
    RunnerOk (if onOwnLoop then .start k :: ready else ready ++ [.start k]) k
      { r with place := .posted, reservations := r.reservations + 1 } := by
  have hbooks := h.books
  rw [RunnerState.Books, hp] at hbooks
  have howner : r.ownerTaskSet = false := by
    by_contra ho
    have := h.owned (by simpa using ho)
    rw [hp] at this
    cases this
  have hstarts : ready.count (.start k) = 0 := by
    rw [h.starts, if_neg (by simp [hp])]
  have hfirsts : ready.count (.firstStep k) = 0 := by
    rw [h.firsts, if_neg (by simp [hp])]
  have hcancel := h.unowned howner
  refine ⟨?_, ?_, fun _ hmem => ?_, fun ho => ?_, fun hc => ?_, ?_⟩
  · cases onOwnLoop <;> simp [hstarts]
  · cases onOwnLoop <;> simp [hfirsts]
  · cases onOwnLoop <;> simp [hcancel] at hmem
  · exact absurd (howner.symm.trans ho) (by decide)
  · cases hc
  · exact ⟨hbooks.1, hbooks.2.1, congrArg Nat.succ hbooks.2.2⟩

/-- `start` takes its call and queues the first step. -/
theorem RunnerOk.create (h : RunnerOk (.start k :: ready) k r) (hp : r.place = .posted) :
    RunnerOk (ready ++ [.firstStep k]) k
      { r with place := .created, taskCancelled := false } := by
  have hbooks := h.books
  rw [RunnerState.Books, hp] at hbooks
  have howner : r.ownerTaskSet = false := by
    by_contra ho
    have := h.owned (by simpa using ho)
    rw [hp] at this
    cases this
  have hcancel : LoopCall.cancelTasks k ∉ ready := by
    intro hmem
    exact h.unowned howner (List.mem_cons_of_mem _ hmem)
  have hstarts : ready.count (.start k) = 0 := by
    have := h.starts
    rw [if_pos hp, List.count_cons_self] at this
    omega
  have hfirsts : ready.count (.firstStep k) = 0 := by
    have := h.firsts
    rw [if_neg (by simp [hp]), List.count_cons_of_ne (by simp)] at this
    exact this
  refine ⟨?_, ?_, fun _ hmem => ?_, fun _ => rfl, fun _ => ?_, hbooks⟩
  · simp [hstarts]
  · simp [hfirsts]
  · simp [hcancel] at hmem
  · refine ⟨rfl, Ahead.of_forall_not ?_ _⟩
    rintro b hb rfl
    exact hcancel hb

theorem RunnerOk.startFails (h : RunnerOk (.start k :: ready) k r) (hp : r.place = .posted)
    (hto : r'.place = .startFailed) (howner : r'.ownerTaskSet = r.ownerTaskSet) :
    RunnerOk ready k r' := by
  have hunowned : r.ownerTaskSet = false := by
    by_contra ho
    have := h.owned (by simpa using ho)
    rw [hp] at this
    cases this
  refine ⟨?_, ?_, fun _ hmem => ?_, fun ho => ?_, fun hc => ?_, ?_⟩
  · have := h.starts
    rw [if_pos hp, List.count_cons_self] at this
    rw [if_neg (by simp [hto])]
    omega
  · have := h.firsts
    rw [if_neg (by simp [hp]), List.count_cons_of_ne (by simp)] at this
    rw [this, if_neg (by simp [hto])]
  · exact h.unowned hunowned (List.mem_cons_of_mem _ hmem)
  · exact absurd (hunowned.symm.trans (howner.symm.trans ho)) (by decide)
  · rw [hto] at hc
    cases hc
  · rw [RunnerState.Books, hto]
    trivial

/-- The first step finds the task uncancelled. -/
theorem RunnerOk.firstStep (h : RunnerOk (.firstStep k :: ready) k r) :
    r.place = .created ∧ r.taskCancelled = false ∧
      RunnerOk ready k { r with place := .gate } := by
  have hp : r.place = .created := by
    by_contra hne
    have := h.firsts
    rw [if_neg hne, List.count_cons_self] at this
    omega
  have hbooks := h.books
  rw [RunnerState.Books, hp] at hbooks
  refine ⟨hp, (h.created hp).1, ?_, ?_, fun hu hmem => ?_, fun _ => rfl, fun hc => ?_, hbooks⟩
  · have := h.starts
    rw [if_neg (by simp [hp]), List.count_cons_of_ne (by simp)] at this
    exact this
  · have := h.firsts
    rw [if_pos hp, List.count_cons_self] at this
    simp only [reduceCtorEq, if_false]
    omega
  · exact h.unowned hu (List.mem_cons_of_mem _ hmem)
  · cases hc

/-- `_cancel_tasks` comes after the first step, so the task has begun or has ended. -/
theorem RunnerOk.cancelTasks (h : RunnerOk (.cancelTasks k :: ready) k r) :
    RunnerOk ready k { r with taskCancelled := true } ∧ RunnerOk ready k r := by
  have hp : r.place ≠ .created := by
    intro hp
    rcases (h.created hp).2.dequeue with heq | ⟨hne, -⟩
    · cases heq
    · exact hne rfl
  have hrest : RunnerOk ready k r := by
    refine ⟨?_, ?_, fun hu hmem => ?_, h.owned, fun hc => absurd hc hp, h.books⟩
    · rw [← h.starts, List.count_cons_of_ne (by simp)]
    · rw [← h.firsts, List.count_cons_of_ne (by simp)]
    · exact h.unowned hu (List.mem_cons_of_mem _ hmem)
  exact ⟨⟨hrest.starts, hrest.firsts, hrest.unowned, hrest.owned, fun hc => absurd hc hp,
    hrest.books⟩, hrest⟩

theorem RunnerOk.setOwnerTask (h : RunnerOk ready k r) (hp : r.place = .created)
    (hcancel : r.cancelRequested = false) :
    RunnerOk ready k { r with
      ownerTaskSet := true, taskCancelled := r.taskCancelled || r.cancelRequested } := by
  refine ⟨h.starts, h.firsts, fun hu => ?_, fun _ => ?_, fun hc => ?_, h.books⟩
  · cases hu
  · change r.place.hasTask = true
    rw [hp]
    rfl
  · obtain ⟨htask, hahead⟩ := h.created hc
    refine ⟨?_, hahead⟩
    change (r.taskCancelled || r.cancelRequested) = false
    rw [htask, hcancel]
    rfl

theorem RunnerOk.cancel (h : RunnerOk ready k r) :
    RunnerOk (if r.ownerTaskSet then ready ++ [.cancelTasks k] else ready) k
      { r with cancelRequested := true } := by
  by_cases ho : r.ownerTaskSet = true
  · rw [if_pos ho]
    refine ⟨?_, ?_, fun hu => ?_, h.owned, fun hc => ?_, h.books⟩
    · simp only [List.count_append, h.starts, List.count_singleton]
      simp
    · simp only [List.count_append, h.firsts, List.count_singleton]
      simp
    · exact absurd (ho.symm.trans hu) (by decide)
    · exact ⟨(h.created hc).1, (h.created hc).2.enqueue _⟩
  · rw [if_neg ho]
    exact ⟨h.starts, h.firsts, h.unowned, h.owned, h.created, h.books⟩

/-! ## 3. All runners -/

namespace CallerLoopState

variable {s s' : CallerLoopState} {h : Nat}

/-- The steps that cancel an owner task before its first step. -/
def cancelsUnstarted (s : CallerLoopState) : RunnerEvent → Bool
  | .setOwnerTask h => (s.runners h).cancelRequested
  | .loopStep createFails factoryCancels =>
    match s.ready with
    | .start _ :: _ => !createFails && factoryCancels
    | _ => false
  | _ => false

structure LoopInv (s : CallerLoopState) : Prop where
  runner : ∀ k, RunnerOk s.ready k (s.runners k)
  fresh : ∀ k, s.handleCount ≤ k → (s.runners k).place = .absent
  starting : ∀ k, s.starting = some k → (s.runners k).place = .created

theorem starting_eq_none (hfree : s.loopFree = true) : s.starting = none := by
  simpa [loopFree] using hfree

theorem when_eq_some {condition : Prop} [Decidable condition] {t : CallerLoopState}
    (hstep : when condition t = some s') : condition ∧ s' = t := by
  unfold when at hstep
  split at hstep
  · rename_i hc
    cases hstep
    exact ⟨hc, rfl⟩
  · cases hstep

@[simp] theorem runners_setRunner (s : CallerLoopState) (h k : Nat) (r : RunnerState) :
    (s.setRunner h r).runners k = if k = h then r else s.runners k :=
  Function.update_apply s.runners h r k

@[simp] theorem ready_setRunner (s : CallerLoopState) (h : Nat) (r : RunnerState) :
    (s.setRunner h r).ready = s.ready := rfl

@[simp] theorem runners_finishAdmission (s : CallerLoopState) (h k : Nat) :
    (s.finishAdmission h).runners k =
      if k = h then
        { s.runners h with admissionsFinished := (s.runners h).admissionsFinished + 1 }
      else s.runners k :=
  runners_setRunner s h k _

/-- The rule of a step about one handle. -/
theorem LoopInv.step_of (hs : LoopInv s) (hplace : (s.runners h).place ≠ .absent)
    (hother : ∀ k, k ≠ h → s'.runners k = s.runners k)
    (hqueue : ∀ k, k ≠ h → RunnerOk s'.ready k (s.runners k))
    (hown : RunnerOk s'.ready h (s'.runners h)) (hcount : s'.handleCount = s.handleCount)
    (hstarting : ∀ k, s'.starting = some k → (s'.runners k).place = .created) :
    LoopInv s' := by
  constructor
  · intro k
    by_cases hk : k = h
    · rw [hk]
      exact hown
    · rw [hother k hk]
      exact hqueue k hk
  · intro k hle
    rw [hcount] at hle
    have habsent := hs.fresh k hle
    rw [hother k ?_]
    · exact habsent
    · rintro rfl
      exact hplace habsent
  · exact hstarting

/-- A step of a coroutine that has begun touches nothing but its own runner. -/
theorem LoopInv.move (hs : LoopInv s) (hfree : s.loopFree = true)
    (hfrom : (s.runners h).place.hasTask = true ∧ (s.runners h).place ≠ .created)
    (hother : ∀ k, k ≠ h → s'.runners k = s.runners k) (hready : s'.ready = s.ready)
    (hcount : s'.handleCount = s.handleCount) (hstart : s'.starting = s.starting)
    (hto : (s'.runners h).place.hasTask = true ∧ (s'.runners h).place ≠ .created)
    (howner : (s'.runners h).ownerTaskSet = (s.runners h).ownerTaskSet)
    (hbooks : (s'.runners h).Books) : LoopInv s' := by
  have hposted : ∀ {p : RunnerPlace}, p.hasTask = true → p ≠ .posted := by
    rintro p hp rfl
    cases hp
  apply hs.step_of (h := h)
  · intro habsent
    rw [habsent] at hfrom
    cases hfrom.1
  · exact hother
  · intro k _
    rw [hready]
    exact hs.runner k
  · rw [hready]
    exact (hs.runner h).move ⟨hposted hfrom.1, hfrom.2⟩ ⟨hposted hto.1, hto.2⟩ howner
      (fun _ => hto.1) hbooks
  · exact hcount
  · intro k hk
    rw [hstart, starting_eq_none hfree] at hk
    cases hk

theorem LoopInv.go (hs : LoopInv s) (ownedNested : Bool) : LoopInv (s.go ownedNested) := by
  unfold CallerLoopState.go
  rcases s.permits.admitRootLocked ownedNested with _ | ⟨admission, permits⟩
  · exact hs
  · have habsent := hs.fresh s.handleCount (Nat.le_refl _)
    have hnew := hs.runner s.handleCount
    have howner : (s.runners s.handleCount).ownerTaskSet = false := by
      by_contra ho
      have := hnew.owned (by simpa using ho)
      rw [habsent] at this
      cases this
    constructor
    · intro k
      by_cases hk : k = s.handleCount
      · subst hk
        simp only [Function.update_self]
        refine ⟨?_, ?_, fun _ => hnew.unowned howner, fun ho => ?_, fun hc => ?_, rfl, rfl, rfl⟩
        · rw [hnew.starts, habsent]
          rfl
        · rw [hnew.firsts, habsent]
          rfl
        · cases ho
        · cases hc
      · simp only [Function.update_of_ne hk]
        exact hs.runner k
    · intro k hk
      have hk' : s.handleCount + 1 ≤ k := hk
      simp only [Function.update_of_ne (by omega : k ≠ s.handleCount)]
      exact hs.fresh k (by omega)
    · intro k hk
      have hcreated := hs.starting k hk
      have hne : k ≠ s.handleCount := by
        rintro rfl
        rw [habsent] at hcreated
        cases hcreated
      simp only [Function.update_of_ne hne]
      exact hcreated

theorem LoopInv.submit (hs : LoopInv s) (hp : (s.runners h).place = .admitted)
    (onOwnLoop : Bool) : LoopInv (s.scheduleCallerRunner h onOwnLoop) := by
  apply hs.step_of (h := h)
  · simp [hp]
  · intro k hk
    exact (runners_setRunner s h k _).trans (if_neg hk)
  · intro k hk
    unfold scheduleCallerRunner
    dsimp only
    split
    · exact (hs.runner k).push_other (Ne.symm hk)
    · exact (hs.runner k).append_other (Ne.symm hk)
  · rw [show (s.scheduleCallerRunner h onOwnLoop).runners h = _ from
      (runners_setRunner s h h _).trans (if_pos rfl)]
    exact (hs.runner h).post hp onOwnLoop
  · rfl
  · intro k hk
    have hcreated := hs.starting k hk
    have hne : k ≠ h := by
      rintro rfl
      rw [hp] at hcreated
      cases hcreated
    rw [show (s.scheduleCallerRunner h onOwnLoop).runners k = _ from
      (runners_setRunner s h k _).trans (if_neg hne)]
    exact hcreated

theorem LoopInv.refuse (hs : LoopInv s) (hp : (s.runners h).place = .admitted) :
    LoopInv (s.refuse h) := by
  apply hs.step_of (h := h)
  · simp [hp]
  · intro k hk
    simp [CallerLoopState.refuse, hk]
  · intro k _
    exact hs.runner k
  · simp only [CallerLoopState.refuse, runners_finishAdmission, if_true]
    apply (hs.runner h).move
    · simp [hp]
    · simp
    · simp
    · intro htask
      rw [hp] at htask
      cases htask
    · simp [RunnerState.Books]
  · rfl
  · intro k hk
    have hcreated := hs.starting k hk
    have hne : k ≠ h := by
      rintro rfl
      rw [hp] at hcreated
      cases hcreated
    simpa [CallerLoopState.refuse, hne] using hcreated

/-- Taking a call leaves the runners of other handles as they are. -/
theorem LoopInv.pop_other {c : LoopCall} {rest : List LoopCall} (hs : LoopInv s)
    (hready : s.ready = c :: rest) : ∀ k, k ≠ c.handle → RunnerOk rest k (s.runners k) := by
  intro k hk
  apply (hready ▸ hs.runner k).pop_other
  exact Ne.symm hk

/-- The `start` of a handle is run while the handle is posted. -/
theorem LoopInv.posted_of_start {rest : List LoopCall} (hs : LoopInv s)
    (hready : s.ready = .start h :: rest) :
    RunnerOk (.start h :: rest) h (s.runners h) ∧ (s.runners h).place = .posted := by
  have hok : RunnerOk (.start h :: rest) h (s.runners h) := hready ▸ hs.runner h
  refine ⟨hok, ?_⟩
  by_contra hne
  have := hok.starts
  rw [if_neg hne, List.count_cons_self] at this
  omega

theorem LoopInv.start {rest : List LoopCall} {createFails factoryCancels : Bool}
    (hs : LoopInv s) (hfree : s.loopFree = true) (hready : s.ready = .start h :: rest)
    (hok : (!createFails && factoryCancels) = false) :
    LoopInv ({ s with ready := rest }.start h createFails factoryCancels) := by
  obtain ⟨hrunner, hp⟩ := hs.posted_of_start hready
  unfold CallerLoopState.start
  cases createFails with
  | true =>
    rw [if_pos rfl]
    apply hs.step_of (h := h)
    · simp [hp]
    · intro k hk
      simp [hk]
    · exact hs.pop_other hready
    · apply hrunner.startFails hp
      · simp [setOutcome]
      · simp [setOutcome]
    · rfl
    · intro k hk
      have hk' : s.starting = some k := hk
      rw [starting_eq_none hfree] at hk'
      cases hk'
  | false =>
    have hfactory : factoryCancels = false := by simpa using hok
    rw [if_neg (by decide), hfactory]
    apply hs.step_of (h := h)
    · simp [hp]
    · intro k hk
      exact (runners_setRunner _ h k _).trans (if_neg hk)
    · intro k hk
      exact (hs.pop_other hready k hk).append_other (Ne.symm hk)
    · rw [show CallerLoopState.runners _ h = _ from
        (runners_setRunner { s with ready := rest } h h _).trans (if_pos rfl)]
      exact hrunner.create hp
    · rfl
    · intro k hk
      cases hk
      exact congrArg RunnerState.place
        ((runners_setRunner { s with ready := rest } h h _).trans (if_pos rfl))

theorem LoopInv.firstStep {rest : List LoopCall} (hs : LoopInv s)
    (hfree : s.loopFree = true) (hready : s.ready = .firstStep h :: rest) :
    LoopInv ({ s with ready := rest }.firstStep h) := by
  have hrunner : RunnerOk (.firstStep h :: rest) h (s.runners h) := hready ▸ hs.runner h
  obtain ⟨hp, htask, hgate⟩ := hrunner.firstStep
  unfold CallerLoopState.firstStep
  dsimp only
  rw [if_neg (by simp [htask])]
  apply hs.step_of (h := h)
  · simp [hp]
  · intro k hk
    simp [hk]
  · exact hs.pop_other hready
  · simpa using hgate
  · rfl
  · intro k hk
    have hk' : s.starting = some k := hk
    rw [starting_eq_none hfree] at hk'
    cases hk'

theorem LoopInv.cancelTasks {rest : List LoopCall} (hs : LoopInv s)
    (hfree : s.loopFree = true) (hready : s.ready = .cancelTasks h :: rest) :
    LoopInv ({ s with ready := rest }.cancelTasks h) := by
  have hrunner : RunnerOk (.cancelTasks h :: rest) h (s.runners h) := hready ▸ hs.runner h
  obtain ⟨hcancelled, hsame⟩ := hrunner.cancelTasks
  have hnone : ∀ k, s.starting ≠ some k := by
    intro k hk
    rw [starting_eq_none hfree] at hk
    cases hk
  unfold CallerLoopState.cancelTasks
  dsimp only
  split
  · constructor
    · intro k
      by_cases hk : k = h
      · rw [hk]
        exact hsame
      · exact hs.pop_other hready k hk
    · exact hs.fresh
    · exact fun k hk => absurd hk (hnone k)
  · constructor
    · intro k
      by_cases hk : k = h
      · simpa [hk] using hcancelled
      · simpa [hk] using hs.pop_other hready k hk
    · intro k hle
      have habsent := hs.fresh k hle
      by_cases hk : k = h
      · simpa [← hk] using habsent
      · simpa [hk] using habsent
    · exact fun k hk => absurd hk (hnone k)

theorem LoopInv.setOwnerTask (hs : LoopInv s) (hstart : s.starting = some h)
    (hcancel : (s.runners h).cancelRequested = false) : LoopInv (s.setOwnerTask h) := by
  have hp := hs.starting h hstart
  apply hs.step_of (h := h)
  · simp [hp]
  · intro k hk
    exact (runners_setRunner s h k _).trans (if_neg hk)
  · intro k _
    exact hs.runner k
  · rw [show (s.setOwnerTask h).runners h = _ from
      (runners_setRunner s h h _).trans (if_pos rfl)]
    exact (hs.runner h).setOwnerTask hp hcancel
  · rfl
  · intro k hk
    cases hk

theorem LoopInv.cancel (hs : LoopInv s) (ownedTasks : Bool) :
    LoopInv (s.cancel h ownedTasks) := by
  unfold CallerLoopState.cancel
  split
  · exact hs
  · have hplace : ∀ k, ((s.setRunner h { s.runners h with cancelRequested := true }).runners
        k).place = (s.runners k).place := by
      intro k
      by_cases hk : k = h <;> simp [hk]
    constructor
    · intro k
      dsimp only
      by_cases hk : k = h
      · subst hk
        rw [runners_setRunner, if_pos rfl]
        exact (hs.runner k).cancel
      · rw [runners_setRunner, if_neg hk]
        split
        · exact (hs.runner k).append_other (Ne.symm hk)
        · exact hs.runner k
    · intro k hle
      exact (hplace k).trans (hs.fresh k hle)
    · intro k hk
      exact (hplace k).trans (hs.starting k hk)

theorem LoopInv.endBody (hs : LoopInv s) (hfree : s.loopFree = true)
    (hp : (s.runners h).place = .gate ∨ (s.runners h).place = .scalar)
    (outcome : BodyOutcome) : LoopInv (s.endBody h outcome) := by
  have hbooks := (hs.runner h).books
  apply hs.move hfree (h := h)
  · rcases hp with hp | hp <;> simp [hp, RunnerPlace.hasTask]
  · intro k hk
    simp [CallerLoopState.endBody, hk]
  · rfl
  · rfl
  · rfl
  · simp [CallerLoopState.endBody, RunnerPlace.hasTask]
  · simp [CallerLoopState.endBody, setOutcome]
  · have hcounts : (s.runners h).admissionsFinished = 0 ∧ (s.runners h).reservations = 1 := by
      rcases hp with hp | hp
      all_goals
        rw [RunnerState.Books, hp] at hbooks
        exact hbooks.2
    simp only [CallerLoopState.endBody, runners_setRunner, if_true]
    exact ⟨rfl, hcounts.1, hcounts.2⟩

/-- **Step lemma.**  Every step but those of `cancelsUnstarted` keeps the invariant. -/
theorem LoopInv.step {e : RunnerEvent} (hs : LoopInv s) (hok : s.cancelsUnstarted e = false)
    (hstep : s.step e = some s') : LoopInv s' := by
  cases e with
  | go ownedNested =>
    cases hstep
    exact hs.go ownedNested
  | submit h onOwnLoop =>
    obtain ⟨⟨hp, -⟩, rfl⟩ := when_eq_some hstep
    exact hs.submit hp onOwnLoop
  | refuse h =>
    obtain ⟨hp, rfl⟩ := when_eq_some hstep
    exact hs.refuse hp
  | loopStep createFails factoryCancels =>
    simp only [CallerLoopState.step] at hstep
    split at hstep
    · rename_i hfree
      unfold loopStep at hstep
      split at hstep
      · cases hstep
      · rename_i h rest hready
        cases hstep
        simp only [cancelsUnstarted, hready] at hok
        exact hs.start hfree hready hok
      · rename_i h rest hready
        cases hstep
        exact hs.firstStep hfree hready
      · rename_i h rest hready
        cases hstep
        exact hs.cancelTasks hfree hready
    · cases hstep
  | setOwnerTask h =>
    obtain ⟨hstart, rfl⟩ := when_eq_some hstep
    exact hs.setOwnerTask hstart hok
  | cancel h ownedTasks =>
    obtain ⟨-, rfl⟩ := when_eq_some hstep
    exact hs.cancel ownedTasks
  | gateOpens h =>
    obtain ⟨⟨hfree, hp, -⟩, rfl⟩ := when_eq_some hstep
    have hbooks := (hs.runner h).books
    rw [RunnerState.Books, hp] at hbooks
    apply hs.move hfree (h := h)
    · simp [hp, RunnerPlace.hasTask]
    · intro k hk
      simp [hk]
    · rfl
    · rfl
    · rfl
    · simp [RunnerPlace.hasTask]
    · simp
    · simpa [RunnerState.Books] using hbooks
  | gateCancelled h =>
    obtain ⟨⟨hfree, hp, -⟩, rfl⟩ := when_eq_some hstep
    exact hs.endBody hfree (Or.inl hp) _
  | bodyEnds h outcome =>
    obtain ⟨⟨hfree, hp⟩, rfl⟩ := when_eq_some hstep
    exact hs.endBody hfree (Or.inr hp) _
  | unwind h =>
    obtain ⟨⟨hfree, hp⟩, rfl⟩ := when_eq_some hstep
    have hbooks := (hs.runner h).books
    rw [RunnerState.Books, hp] at hbooks
    apply hs.move hfree (h := h)
    · simp [hp, RunnerPlace.hasTask]
    · intro k hk
      simp [CallerLoopState.unwind, hk]
    · rfl
    · rfl
    · rfl
    · simp [CallerLoopState.unwind, RunnerPlace.hasTask]
    · simp [CallerLoopState.unwind]
    · simp only [CallerLoopState.unwind, runners_finishAdmission, if_true, runners_setRunner]
      refine ⟨hbooks.1, ?_, ?_⟩
      · exact congrArg Nat.succ hbooks.2.1
      · exact congrArg Nat.pred hbooks.2.2

theorem reachUnder_loopInv {maxConcurrency maxPending : Option Nat}
    (hs : (callerSystem maxConcurrency maxPending).ReachUnder
      (fun s e => s.cancelsUnstarted e = false) s) : LoopInv s := by
  apply hs.invariant (I := LoopInv)
  · rintro _ rfl
    constructor
    · intro k
      refine ⟨rfl, rfl, fun _ hmem => ?_, fun ho => ?_, fun hc => ?_, trivial⟩
      · cases hmem
      · cases ho
      · cases hc
    · intro k _
      rfl
    · intro k hk
      cases hk
  · intro t e t' ht hok hstep
    exact ht.step hok hstep

/-! ## 4. A task cancelled before its first step -/

/-- The owner task is cancelled, and its coroutine has not run and never will. -/
structure Unstarted (s : CallerLoopState) (h : Nat) : Prop where
  place : (s.runners h).place = .created ∨ (s.runners h).place = .ended
  cancelled : (s.runners h).taskCancelled = true
  no_start : LoopCall.start h ∉ s.ready
  uncleaned : (s.runners h).outcome = none ∧ (s.runners h).admissionsFinished = 0 ∧
    (s.runners h).reservations = 1
  known : h < s.handleCount

theorem Unstarted.place_ne (hu : Unstarted s h) {p : RunnerPlace} (hp : p ≠ .created)
    (hp' : p ≠ .ended) : (s.runners h).place ≠ p := by
  rintro heq
  rcases hu.place with hplace | hplace
  · exact hp (heq.symm.trans hplace)
  · exact hp' (heq.symm.trans hplace)

/-- Steps about other handles. -/
theorem Unstarted.frame (hu : Unstarted s h) (hrunner : s'.runners h = s.runners h)
    (hready : LoopCall.start h ∉ s'.ready) (hcount : s.handleCount ≤ s'.handleCount) :
    Unstarted s' h := by
  refine ⟨?_, ?_, hready, ?_, Nat.lt_of_lt_of_le hu.known hcount⟩
  · rw [hrunner]
    exact hu.place
  · rw [hrunner]
    exact hu.cancelled
  · rw [hrunner]
    exact hu.uncleaned

theorem Unstarted.loopStep {createFails factoryCancels : Bool} (hu : Unstarted s h)
    (hstep : s.loopStep createFails factoryCancels = some s') : Unstarted s' h := by
  unfold CallerLoopState.loopStep at hstep
  split at hstep
  · cases hstep
  · rename_i k rest hready
    cases hstep
    have hno := hu.no_start
    rw [hready, List.mem_cons, not_or] at hno
    have hk : h ≠ k := by
      rintro rfl
      exact hno.1 rfl
    unfold CallerLoopState.start
    split
    · exact hu.frame (by simp [hk]) hno.2 (Nat.le_refl _)
    · apply hu.frame
      · exact (runners_setRunner _ k h _).trans (if_neg hk)
      · simp [hno.2]
      · exact Nat.le_refl _
  · rename_i k rest hready
    cases hstep
    have hno := hu.no_start
    rw [hready, List.mem_cons, not_or] at hno
    by_cases hk : h = k
    · subst hk
      unfold CallerLoopState.firstStep
      dsimp only
      rw [if_pos hu.cancelled]
      refine ⟨?_, ?_, hno.2, ?_, hu.known⟩
      · simp
      · simpa using hu.cancelled
      · simpa using hu.uncleaned
    · unfold CallerLoopState.firstStep
      split
      all_goals exact hu.frame (by simp [hk]) hno.2 (Nat.le_refl _)
  · rename_i k rest hready
    cases hstep
    have hno := hu.no_start
    rw [hready, List.mem_cons, not_or] at hno
    unfold CallerLoopState.cancelTasks
    split
    · exact hu.frame rfl hno.2 (Nat.le_refl _)
    · by_cases hk : h = k
      · subst hk
        refine ⟨?_, ?_, hno.2, ?_, hu.known⟩
        · simpa using hu.place
        · simp
        · simpa using hu.uncleaned
      · exact hu.frame (by simp [hk]) hno.2 (Nat.le_refl _)

/-- **Nothing cleans up after such a task**, whatever happens next. -/
theorem Unstarted.step {e : RunnerEvent} (hu : Unstarted s h)
    (hstep : s.step e = some s') : Unstarted s' h := by
  have hother : ∀ {k : Nat}, (s.runners k).place ≠ (s.runners h).place → h ≠ k := by
    rintro k hk rfl
    exact hk rfl
  cases e with
  | go ownedNested =>
    cases hstep
    unfold CallerLoopState.go
    split
    · exact hu
    · have hk : h ≠ s.handleCount := Nat.ne_of_lt hu.known
      exact hu.frame (Function.update_of_ne hk _ _) hu.no_start (Nat.le_succ _)
  | submit k onOwnLoop =>
    obtain ⟨⟨hp, -⟩, rfl⟩ := when_eq_some hstep
    have hk : h ≠ k := by
      rintro rfl
      exact hu.place_ne (by simp) (by simp) hp
    apply hu.frame
    · exact (runners_setRunner s k h _).trans (if_neg hk)
    · unfold scheduleCallerRunner
      dsimp only
      have hno := hu.no_start
      split
      all_goals simp [hno, hk]
    · exact Nat.le_refl _
  | refuse k =>
    obtain ⟨hp, rfl⟩ := when_eq_some hstep
    have hk : h ≠ k := by
      rintro rfl
      exact hu.place_ne (by simp) (by simp) hp
    exact hu.frame (by simp [CallerLoopState.refuse, hk]) hu.no_start (Nat.le_refl _)
  | loopStep createFails factoryCancels =>
    simp only [CallerLoopState.step] at hstep
    split at hstep
    · exact hu.loopStep hstep
    · cases hstep
  | setOwnerTask k =>
    obtain ⟨-, rfl⟩ := when_eq_some hstep
    by_cases hk : h = k
    · subst hk
      have hown : (s.setOwnerTask h).runners h = _ :=
        (runners_setRunner s h h _).trans (if_pos rfl)
      refine ⟨?_, ?_, hu.no_start, ?_, hu.known⟩
      · rw [hown]
        exact hu.place
      · rw [hown]
        simp [hu.cancelled]
      · rw [hown]
        exact hu.uncleaned
    · exact hu.frame ((runners_setRunner s k h _).trans (if_neg hk)) hu.no_start (Nat.le_refl _)
  | cancel k ownedTasks =>
    obtain ⟨-, rfl⟩ := when_eq_some hstep
    unfold CallerLoopState.cancel
    split
    · exact hu
    · have hno : LoopCall.start h ∉
          (if (s.runners k).ownerTaskSet then s.ready ++ [.cancelTasks k] else s.ready) := by
        have := hu.no_start
        split
        · simpa using this
        · exact this
      by_cases hk : h = k
      · subst hk
        have hown : (s.setRunner h { s.runners h with cancelRequested := true }).runners h = _ :=
          (runners_setRunner s h h _).trans (if_pos rfl)
        refine ⟨?_, ?_, hno, ?_, hu.known⟩
        · dsimp only
          rw [hown]
          exact hu.place
        · dsimp only
          rw [hown]
          exact hu.cancelled
        · dsimp only
          rw [hown]
          exact hu.uncleaned
      · exact hu.frame ((runners_setRunner s k h _).trans (if_neg hk)) hno (Nat.le_refl _)
  | gateOpens k =>
    obtain ⟨⟨-, hp, -⟩, rfl⟩ := when_eq_some hstep
    have hk : h ≠ k := by
      rintro rfl
      exact hu.place_ne (by simp) (by simp) hp
    exact hu.frame (by simp [hk]) hu.no_start (Nat.le_refl _)
  | gateCancelled k =>
    obtain ⟨⟨-, hp, -⟩, rfl⟩ := when_eq_some hstep
    have hk : h ≠ k := by
      rintro rfl
      exact hu.place_ne (by simp) (by simp) hp
    exact hu.frame (by simp [endBody, hk]) hu.no_start (Nat.le_refl _)
  | bodyEnds k outcome =>
    obtain ⟨⟨-, hp⟩, rfl⟩ := when_eq_some hstep
    have hk : h ≠ k := by
      rintro rfl
      exact hu.place_ne (by simp) (by simp) hp
    exact hu.frame (by simp [endBody, hk]) hu.no_start (Nat.le_refl _)
  | unwind k =>
    obtain ⟨⟨-, hp⟩, rfl⟩ := when_eq_some hstep
    have hk : h ≠ k := by
      rintro rfl
      exact hu.place_ne (by simp) (by simp) hp
    exact hu.frame (by simp [CallerLoopState.unwind, hk]) hu.no_start (Nat.le_refl _)

/-- The excluded steps make such a task. -/
theorem LoopInv.unstarted {e : RunnerEvent} (hs : LoopInv s)
    (hcancels : s.cancelsUnstarted e = true) (hstep : s.step e = some s') :
    ∃ h, Unstarted s' h := by
  have hknown : ∀ {k : Nat}, (s.runners k).place ≠ .absent → k < s.handleCount := by
    intro k hk
    by_contra hge
    exact hk (hs.fresh k (by omega))
  cases e with
  | loopStep createFails factoryCancels =>
    simp only [CallerLoopState.step] at hstep
    split at hstep
    · simp only [cancelsUnstarted] at hcancels
      split at hcancels
      · rename_i h rest hready
        obtain ⟨hrunner, hp⟩ := hs.posted_of_start hready
        obtain ⟨hcreate, hfactory⟩ := Bool.and_eq_true_iff.mp hcancels
        simp only [CallerLoopState.loopStep, hready, Option.some.injEq] at hstep
        have hbooks := hrunner.books
        rw [RunnerState.Books, hp] at hbooks
        have hstarts := hrunner.starts
        rw [if_pos hp, List.count_cons_self] at hstarts
        have hno : LoopCall.start h ∉ rest := by
          intro hmem
          have := List.count_pos_iff.mpr hmem
          omega
        subst hstep
        unfold CallerLoopState.start
        rw [if_neg (by simpa using hcreate)]
        have hown : ∀ r, (CallerLoopState.setRunner { s with ready := rest } h r).runners h = r :=
          fun r => (runners_setRunner _ h h r).trans (if_pos rfl)
        refine ⟨h, Or.inl ?_, ?_, ?_, ?_, hknown (by simp [hp])⟩
        · exact congrArg RunnerState.place (hown _)
        · exact (congrArg RunnerState.taskCancelled (hown _)).trans hfactory
        · simp [hno]
        · dsimp only
          rw [hown]
          exact hbooks
      · cases hcancels
    · cases hstep
  | setOwnerTask h =>
    obtain ⟨hstart, rfl⟩ := when_eq_some hstep
    have hp := hs.starting h hstart
    have hbooks := (hs.runner h).books
    rw [RunnerState.Books, hp] at hbooks
    have hstarts := (hs.runner h).starts
    rw [if_neg (by simp [hp])] at hstarts
    have hown : (s.setOwnerTask h).runners h = _ :=
      (runners_setRunner s h h _).trans (if_pos rfl)
    have hrequest : (s.runners h).cancelRequested = true := hcancels
    refine ⟨h, Or.inl ?_, ?_, List.count_eq_zero.mp hstarts, ?_, hknown (by simp [hp])⟩
    · rw [hown]
      exact hp
    · rw [hown]
      simp [hrequest]
    · rw [hown]
      exact hbooks
  | _ => cases hcancels

end CallerLoopState

/-! ## 5. Runs -/

/-- **Owner tasks clean up, and exactly when.**  As long as no owner task is cancelled
    before its first step, an owner task that has ended has set the outcome of the body,
    has called `_finish_admission` once and holds no reservation; and a task that is
    cancelled before its first step ends without any of the three, in every run. -/
theorem ownerTask_cleanup_iff (maxConcurrency maxPending : Option Nat) :
    (∀ s, (callerSystem maxConcurrency maxPending).ReachUnder
        (fun s e => s.cancelsUnstarted e = false) s →
      ∀ h, (s.runners h).place = .ended →
        (s.runners h).outcome.isSome = true ∧ (s.runners h).admissionsFinished = 1 ∧
          (s.runners h).reservations = 0) ∧
    (∀ s e s', (callerSystem maxConcurrency maxPending).ReachUnder
        (fun s e => s.cancelsUnstarted e = false) s →
      (callerSystem maxConcurrency maxPending).step s e = some s' →
      s.cancelsUnstarted e = true →
      ∃ h, ∀ es s'', (callerSystem maxConcurrency maxPending).run s' es = some s'' →
        ((s''.runners h).place = .created ∨ (s''.runners h).place = .ended) ∧
          (s''.runners h).outcome = none ∧ (s''.runners h).admissionsFinished = 0 ∧
          (s''.runners h).reservations = 1) := by
  constructor
  · intro s hs h hp
    have hbooks := ((CallerLoopState.reachUnder_loopInv hs).runner h).books
    rwa [RunnerState.Books, hp] at hbooks
  · intro s e s' hs hstep hcancels
    obtain ⟨h, hu⟩ := (CallerLoopState.reachUnder_loopInv hs).unstarted hcancels hstep
    refine ⟨h, fun es s'' hrun => ?_⟩
    have hu'' : CallerLoopState.Unstarted s'' h :=
      System.run_invariant (I := fun t => CallerLoopState.Unstarted t h)
        (fun _ _ _ hi hst => hi.step hst) hu hrun
    exact ⟨hu''.place, hu''.uncleaned⟩

/-- A handle submitted from another thread and cancelled before the loop runs `start`:
    the owner task ends, the permit and the reservation are never given back. -/
theorem ownerTask_ends_uncleaned :
    ¬ ∀ (maxConcurrency maxPending : Option Nat) (s : CallerLoopState),
      (callerSystem maxConcurrency maxPending).Reachable s →
      ∀ h, (s.runners h).place = .ended →
        (s.runners h).outcome.isSome = true ∧ (s.runners h).admissionsFinished = 1 ∧
          (s.runners h).reservations = 0 := by
  intro hall
  have hreach := System.reachable_of_run (S := callerSystem (some 1) none)
    [.go false, .submit 0 false, .cancel 0 false, .loopStep false false, .setOwnerTask 0,
      .loopStep false false] rfl rfl
  exact absurd (hall _ _ _ hreach 0 rfl).1 (by decide)

end AgentlyStage
