import AgentlyStage.CarrierSealing

/-!
# The lifecycle of generations

A generation stays in its slot from its creation to the end of its run.  Only the current
one has a loop; it drains and closes without a reservation, and every submission it has
accepted is started on its loop, once.

The code that runs on a loop only turns generations (`Turns`): it queues calls, and it may
seal a generation that admits.  The slots themselves move at a reservation and at the end of
a run.
-/

namespace AgentlyStage

open Transition

/-! ## 1. What the code on a loop does to a generation -/

structure Generation.Turns (G G' : Generation) : Prop where
  running : G'.running = G.running
  pending : G'.pendingSubmissions = G.pendingSubmissions
  taken : G'.taken = G.taken
  ready : ∃ more, G'.ready = G.ready ++ more
  state : G'.state = G.state ∨ (G.state.admits = true ∧ G'.state = .sealing)
  reservations : G.state = .closed → G'.reservations ≤ G.reservations

theorem Generation.Turns.refl (G : Generation) : G.Turns G :=
  ⟨rfl, rfl, rfl, ⟨[], (List.append_nil _).symm⟩, Or.inl rfl, fun _ => Nat.le_refl _⟩

theorem Generation.Turns.trans {G G' G'' : Generation} (h : G.Turns G') (h' : G'.Turns G'') :
    G.Turns G'' := by
  obtain ⟨more, hmore⟩ := h.ready
  obtain ⟨more', hmore'⟩ := h'.ready
  constructor
  · exact h'.running.trans h.running
  · exact h'.pending.trans h.pending
  · exact h'.taken.trans h.taken
  · exact ⟨more ++ more', by rw [hmore', hmore, List.append_assoc]⟩
  · rcases h.state with hsame | ⟨hadmits, hsealing⟩
    · rw [← hsame]
      exact h'.state
    · rcases h'.state with hsame' | ⟨hadmits', -⟩
      · exact Or.inr ⟨hadmits, hsame'.trans hsealing⟩
      · rw [hsealing] at hadmits'
        cases hadmits'
  · intro hclosed
    rcases h.state with hsame | ⟨hadmits, -⟩
    · exact Nat.le_trans (h'.reservations (hsame.trans hclosed)) (h.reservations hclosed)
    · rw [hclosed] at hadmits
      cases hadmits

theorem Generation.Turns.closed_iff {G G' : Generation} (h : G.Turns G') :
    G'.state = .closed ↔ G.state = .closed := by
  rcases h.state with hsame | ⟨hadmits, hsealing⟩
  · rw [hsame]
  · rw [hsealing]
    constructor
    · intro hclosed
      cases hclosed
    · intro hclosed
      rw [hclosed] at hadmits
      cases hadmits

namespace SlotState

variable {s s' s'' : SlotState} {g h k n t : Nat}

/-- A submission keeps its generation, and its root task once it has one. -/
structure Turns (s s' : SlotState) : Prop where
  generations : ∀ k, (s.generations k).Turns (s'.generations k)
  slots : s'.generationCount = s.generationCount ∧ s'.current = s.current ∧ s'.next = s.next
  submissions : ∀ n : Nat, ∀ submission' : Submission, s'.submissions[n]? = some submission' →
    ∃ submission : Submission, s.submissions[n]? = some submission ∧
      submission'.generation = submission.generation ∧
      (submission'.rootTask = none → submission.rootTask = none)

theorem Turns.trans (h : Turns s s') (h' : Turns s' s'') : Turns s s'' where
  generations k := (h.generations k).trans (h'.generations k)
  slots := ⟨h'.slots.1.trans h.slots.1, h'.slots.2.1.trans h.slots.2.1,
    h'.slots.2.2.trans h.slots.2.2⟩
  submissions n submission'' hn := by
    obtain ⟨submission', hn', hgen', hroot'⟩ := h'.submissions n submission'' hn
    obtain ⟨submission, hn, hgen, hroot⟩ := h.submissions n submission' hn'
    exact ⟨submission, hn, hgen'.trans hgen, fun hnone => hroot (hroot' hnone)⟩

theorem turns_of_generations (hgens : ∀ k, (s.generations k).Turns (s'.generations k))
    (hslots : s'.generationCount = s.generationCount ∧ s'.current = s.current ∧
      s'.next = s.next) (hsubs : s'.submissions = s.submissions) : Turns s s' :=
  ⟨hgens, hslots, fun n submission hn => ⟨submission, by rw [← hsubs]; exact hn, rfl, id⟩⟩

/-- A step that touches neither the generations nor the submissions. -/
theorem turns_of_eq (hgens : s'.generations = s.generations)
    (hslots : s'.generationCount = s.generationCount ∧ s'.current = s.current ∧
      s'.next = s.next) (hsubs : s'.submissions = s.submissions) : Turns s s' :=
  turns_of_generations (fun k => by rw [hgens]; exact .refl _) hslots hsubs

theorem Turns.refl (s : SlotState) : Turns s s := turns_of_eq rfl ⟨rfl, rfl, rfl⟩ rfl

theorem turns_setGeneration {G : Generation} (hG : (s.generations g).Turns G) :
    Turns s (s.setGeneration g G) := by
  apply turns_of_generations
  · intro k
    rw [generations_setGeneration]
    split
    · rename_i hk
      rw [hk]
      exact hG
    · exact .refl _
  · exact ⟨rfl, rfl, rfl⟩
  · rfl

theorem turns_callSoon (s : SlotState) (g : Nat) (call : CarrierCall) :
    Turns s (s.callSoon g call) :=
  turns_setGeneration ⟨rfl, rfl, rfl, ⟨[call], rfl⟩, Or.inl rfl, fun _ => Nat.le_refl _⟩

theorem turns_releaseReservation (s : SlotState) (g : Nat) :
    Turns s (s.releaseReservation g) := by
  apply turns_of_generations
  · intro k
    rw [generations_releaseReservation]
    split
    · rename_i hk
      rw [hk]
      refine ⟨rfl, rfl, rfl, ⟨[], (List.append_nil _).symm⟩, ?_, fun _ => Nat.sub_le _ _⟩
      split
      · rename_i hlast
        exact Or.inr ⟨hlast.2, rfl⟩
      · exact Or.inl rfl
    · exact .refl _
  · exact ⟨rfl, rfl, rfl⟩
  · rfl

theorem turns_setSubmission {submission submission' : Submission}
    (hn : s.submissions[n]? = some submission)
    (hgen : submission'.generation = submission.generation)
    (hroot : submission'.rootTask = none → submission.rootTask = none) :
    Turns s { s with submissions := s.submissions.set n submission' } := by
  refine ⟨fun _ => .refl _, ⟨rfl, rfl, rfl⟩, fun m submission₁ hm => ?_⟩
  rcases getElem?_set_cases hn hm with ⟨rfl, rfl⟩ | ⟨-, hold⟩
  · exact ⟨submission, hn, hgen, hroot⟩
  · exact ⟨submission₁, hold, rfl, id⟩

theorem turns_completeTask (s : SlotState) (t : Nat) (task : CarrierTask) :
    Turns s (s.completeTask t task) := by
  have hset : Turns s { s with tasks := s.tasks.set t { task with done := true } } :=
    turns_of_eq rfl ⟨rfl, rfl, rfl⟩ rfl
  unfold SlotState.completeTask
  dsimp only
  split
  · exact hset.trans (turns_callSoon _ _ _)
  · exact hset

theorem turns_finishSubmission (s : SlotState) (n : Nat) : Turns s (s.finishSubmission n) := by
  unfold SlotState.finishSubmission
  split
  · exact .refl s
  · rename_i submission hn
    have hset : Turns s { s with
        submissions := s.submissions.set n { submission with released := true } } :=
      turns_setSubmission hn rfl id
    exact (hset.trans (turns_releaseReservation _ _)).trans
      (turns_of_eq rfl ⟨rfl, rfl, rfl⟩ rfl)

theorem turns_endTask (s : SlotState) (t : Nat) (task : CarrierTask) :
    Turns s (s.endTask t task) := by
  unfold SlotState.endTask
  split
  · exact (turns_finishSubmission s _).trans (turns_completeTask _ t task)
  · exact turns_completeTask s t task

theorem turns_beginSubmission (s : SlotState) (t n : Nat) :
    Turns s (s.beginSubmission t n) := by
  unfold SlotState.beginSubmission
  split
  · exact .refl s
  · rename_i submission hn
    have hset : Turns s { s with
        submissions := s.submissions.set n { submission with begun := true } } :=
      turns_setSubmission hn rfl id
    dsimp only
    split
    · exact hset.trans (turns_of_eq rfl ⟨rfl, rfl, rfl⟩ rfl)
    · exact hset

theorem turns_firstStep (s : SlotState) (t : Nat) : Turns s (s.firstStep t) := by
  unfold SlotState.firstStep
  split
  · exact .refl s
  · rename_i task ht
    split
    · exact turns_completeTask s t task
    · have hset : Turns s { s with tasks := s.tasks.set t { task with begun := true } } :=
        turns_of_eq rfl ⟨rfl, rfl, rfl⟩ rfl
      dsimp only
      split
      · exact hset.trans (turns_beginSubmission _ t _)
      · exact hset

theorem turns_cancelTasks (s : SlotState) (tasks : List Nat) : Turns s (s.cancelTasks tasks) := by
  unfold SlotState.cancelTasks
  induction tasks generalizing s with
  | nil => exact .refl s
  | cons t tasks ih =>
    rw [List.foldl_cons]
    refine Turns.trans ?_ (ih _)
    unfold SlotState.cancelTask
    split
    · split
      · exact .refl s
      · exact turns_of_eq rfl ⟨rfl, rfl, rfl⟩ rfl
    · exact .refl s

theorem turns_descendantDone (s : SlotState) (t : Nat) : Turns s (s.descendantDone t) := by
  unfold SlotState.descendantDone
  split
  · rename_i task ht
    split
    · have hset : Turns s { s with tasks := s.tasks.set t { task with released := true } } :=
        turns_of_eq rfl ⟨rfl, rfl, rfl⟩ rfl
      exact (hset.trans (turns_releaseReservation _ _)).trans
        (turns_of_eq rfl ⟨rfl, rfl, rfl⟩ rfl)
    · exact .refl s
  · exact .refl s

theorem turns_cancel (s : SlotState) (h : Nat) : Turns s (s.cancel h) := by
  have hset : Turns s (s.setHandle h { s.handles h with cancelRequested := true }) :=
    turns_of_eq rfl ⟨rfl, rfl, rfl⟩ rfl
  unfold SlotState.cancel
  dsimp only
  split
  · split
    · exact hset.trans (turns_callSoon _ _ _)
    · exact hset
  · exact hset

/-- The task factory reserves only what is not closed. -/
theorem turns_factory {context : Option ExecutionContext} {root : Option Nat}
    (hopen : (s.generations g).state ≠ .closed) (h : s.taskFactory g context root = .ok s') :
    Turns s s' := by
  have hu := taskFactory_effect h
  apply turns_of_generations
  · intro k
    rw [hu.generations]
    split
    · rename_i hk
      rw [hk]
      exact ⟨rfl, rfl, rfl, ⟨_, rfl⟩, Or.inl rfl, fun hclosed => absurd hclosed hopen⟩
    · exact .refl _
  · exact hu.slots
  · exact hu.submissions

theorem turns_startSubmission (hopen : (s.generations g).state ≠ .closed) (n : Nat) :
    Turns s (s.startSubmission g n) := by
  unfold SlotState.startSubmission
  split
  · exact .refl s
  · rename_i submission hn
    split
    · exact .refl s
    · rename_i u hfactory
      have hsubs := (taskFactory_effect hfactory).submissions
      rw [← hsubs] at hn ⊢
      exact (turns_factory hopen hfactory).trans (turns_setSubmission hn rfl nofun)

/-- A call that an open loop takes. -/
theorem turns_runCall (hopen : (s.generations g).state ≠ .closed) (call : CarrierCall) :
    Turns s (s.runCall g call) := by
  cases call with
  | startSubmission n => exact turns_startSubmission hopen n
  | firstStep t => exact turns_firstStep s t
  | cancelTasks tasks => exact turns_cancelTasks s tasks
  | descendantDone t => exact turns_descendantDone s t
  | setSeal =>
    apply turns_setGeneration
    exact ⟨rfl, rfl, rfl, ⟨[], (List.append_nil _).symm⟩, Or.inl rfl, fun _ => Nat.le_refl _⟩

/-! ## 2. Slots and states -/

structure Lifecycle (s : SlotState) : Prop where
  ordered : ∀ c n, s.current = some c → s.next = some n → c < n
  next_none : s.current = none → s.next = none
  kept : ∀ g, g < s.generationCount →
    s.current = some g ∨ s.next = some g ∨ (s.generations g).state = .closed
  running : ∀ g, (s.generations g).running = true →
    s.current = some g ∧ (s.generations g).state ≠ .closed ∧
      (s.generations g).pendingSubmissions = []
  closed : ∀ g, (s.generations g).state = .closed → s.current ≠ some g ∧ s.next ≠ some g
  draining : ∀ g, (s.generations g).state = .draining → (s.generations g).running = true
  taken : ∀ g, (s.generations g).running = false → (s.generations g).taken = []

/-- What has not been started waits for it. -/
def Waits (s : SlotState) : Prop :=
  ∀ g n, (s.due g (.startSubmission n)).toNat ≤ queued (s.generations g) (.startSubmission n)

theorem Lifecycle.turns (hl : Lifecycle s) (ht : Turns s s') : Lifecycle s' := by
  have hclosed : ∀ k, (s'.generations k).state = .closed ↔ (s.generations k).state = .closed :=
    fun k => (ht.generations k).closed_iff
  constructor
  · rw [ht.slots.2.1, ht.slots.2.2]
    exact hl.ordered
  · rw [ht.slots.2.1, ht.slots.2.2]
    exact hl.next_none
  · intro g hg
    rw [ht.slots.1] at hg
    rw [ht.slots.2.1, ht.slots.2.2, hclosed]
    exact hl.kept g hg
  · intro g hrun
    rw [(ht.generations g).running] at hrun
    rw [ht.slots.2.1, (ht.generations g).pending, Ne, hclosed]
    exact hl.running g hrun
  · intro g hg
    rw [hclosed] at hg
    rw [ht.slots.2.1, ht.slots.2.2]
    exact hl.closed g hg
  · intro g hg
    rw [(ht.generations g).running]
    rcases (ht.generations g).state with hsame | ⟨-, hsealing⟩
    · exact hl.draining g (hsame ▸ hg)
    · rw [hsealing] at hg
      cases hg
  · intro g hrun
    rw [(ht.generations g).running] at hrun
    rw [(ht.generations g).taken]
    exact hl.taken g hrun

theorem queued_le_of_turns {G G' : Generation} (h : G.Turns G') (n : Nat) :
    queued G (.startSubmission n) ≤ queued G' (.startSubmission n) := by
  obtain ⟨more, hmore⟩ := h.ready
  simp only [queued, h.pending, h.taken, hmore, List.count_append]
  omega

theorem due_of_turns (ht : Turns s s') (hdue : s'.due g (.startSubmission n) = true) :
    s.due g (.startSubmission n) = true := by
  obtain ⟨submission', hn', hopen⟩ := (Option.any_eq_true _ _).mp hdue
  obtain ⟨submission, hn, hgen, hroot⟩ := ht.submissions n submission' hn'
  rw [Bool.and_eq_true, decide_eq_true_eq, Option.isNone_iff_eq_none] at hopen
  refine (Option.any_eq_true _ _).mpr ⟨submission, hn, ?_⟩
  rw [Bool.and_eq_true, decide_eq_true_eq, Option.isNone_iff_eq_none]
  exact ⟨hgen.symm.trans hopen.1, hroot hopen.2⟩

theorem Waits.turns (hw : Waits s) (ht : Turns s s') : Waits s' := by
  intro g n
  cases hdue : s'.due g (.startSubmission n) with
  | false => exact Nat.zero_le _
  | true =>
    have hold := hw g n
    rw [due_of_turns ht hdue] at hold
    exact Nat.le_trans hold (queued_le_of_turns (ht.generations g) n)

/-! ## 3. Reservations -/

/-- Where a reserved generation stands: in a slot already, or it is created. -/
def Placed (s : SlotState) (g : Nat) (u : SlotState) : Prop :=
  (u.generationCount = s.generationCount ∧ u.current = s.current ∧ u.next = s.next ∧
      (s.current = some g ∨ s.next = some g)) ∨
    (g = s.generationCount ∧ u.generationCount = s.generationCount + 1 ∧
      ((s.current = none ∧ u.current = some g ∧ u.next = s.next) ∨
        (s.current ≠ none ∧ s.next = none ∧ u.current = s.current ∧ u.next = some g)))

theorem createGenerationLocked_placed {asNext : Bool}
    (h : s.createGenerationLocked asNext = .ok (g, s'))
    (hfree : (asNext = false ∧ s.current = none) ∨
      (asNext = true ∧ s.current ≠ none ∧ s.next = none)) : Placed s g s' := by
  unfold SlotState.createGenerationLocked at h
  split at h
  · cases h
    refine Or.inr ⟨rfl, rfl, ?_⟩
    rcases hfree with ⟨rfl, hcurrent⟩ | ⟨rfl, hcurrent, hnext⟩
    · exact Or.inl ⟨hcurrent, rfl, rfl⟩
    · exact Or.inr ⟨hcurrent, hnext, rfl, rfl⟩
  · cases h

theorem selectGenerationLocked_placed {preferred : Option Nat}
    (h : s.selectGenerationLocked preferred = .ok (g, s')) : Placed s g s' := by
  cases preferred with
  | some p =>
    simp only [SlotState.selectGenerationLocked] at h
    split at h
    · cases h
    · rename_i howned
      split at h
      · cases h
        refine Or.inl ⟨rfl, rfl, rfl, ?_⟩
        by_contra hne
        rw [not_or] at hne
        exact howned hne
      · cases h
  | none =>
    simp only [SlotState.selectGenerationLocked] at h
    split at h
    · rename_i hcurrent
      exact createGenerationLocked_placed h (Or.inl ⟨rfl, hcurrent⟩)
    · rename_i c hcurrent
      split at h
      · cases h
        exact Or.inl ⟨rfl, rfl, rfl, Or.inl hcurrent⟩
      · split at h
        · rename_i n hnext
          cases h
          exact Or.inl ⟨rfl, rfl, rfl, Or.inr hnext⟩
        · rename_i hnext
          refine createGenerationLocked_placed h (Or.inr ⟨rfl, ?_, hnext⟩)
          rw [hcurrent]
          intro heq
          cases heq

theorem reserveLocked_placed (hs : SlotInv s) {preferred : Option Nat}
    (h : s.reserveLocked preferred = .ok (g, s')) :
    ∃ u, Selected s g u ∧ Placed s g u ∧ s' = u.addReservation g := by
  unfold SlotState.reserveLocked at h
  split at h
  · rename_i g' u hselect
    cases h
    exact ⟨u, hs.selectGenerationLocked hselect, selectGenerationLocked_placed hselect, rfl⟩
  · cases h

/-- What is reserved is not closed. -/
theorem Lifecycle.open_of_placed (hl : Lifecycle s) (hs : SlotInv s) {u : SlotState}
    (hu : Placed s g u) : (s.generations g).state ≠ .closed := by
  intro hclosed
  rcases hu with ⟨-, -, -, hc | hn⟩ | ⟨hnew, -⟩
  · exact (hl.closed g hclosed).1 hc
  · exact (hl.closed g hclosed).2 hn
  · rw [hs.fresh g (Nat.le_of_eq hnew.symm)] at hclosed
    cases hclosed

/-- The rule of the steps that reserve. -/
theorem Lifecycle.of_reserve (hl : Lifecycle s) (hs : SlotInv s) {u : SlotState} {G : Generation}
    (hu : Placed s g u) (hgens : ∀ k, s'.generations k = if k = g then G else s.generations k)
    (hslots : s'.generationCount = u.generationCount ∧ s'.current = u.current ∧
      s'.next = u.next)
    (hrun : G.running = (s.generations g).running) (hstate : G.state = (s.generations g).state)
    (htaken : G.taken = (s.generations g).taken)
    (hpending : G.running = true → G.pendingSubmissions = []) : Lifecycle s' := by
  have hopen := hl.open_of_placed hs hu
  have hcurrent : ∀ k, s.current = some k → s'.current = some k := by
    intro k hk
    rw [hslots.2.1]
    rcases hu with ⟨-, hc, -⟩ | ⟨-, -, ⟨hnone, -⟩ | ⟨-, -, hc, -⟩⟩
    · rw [hc, hk]
    · rw [hnone] at hk
      cases hk
    · rw [hc, hk]
  have hnext : ∀ k, s.next = some k → s'.next = some k := by
    intro k hk
    rw [hslots.2.2]
    rcases hu with ⟨-, -, hn, -⟩ | ⟨-, -, ⟨-, -, hn⟩ | ⟨-, hnone, -⟩⟩
    · rw [hn, hk]
    · rw [hn, hk]
    · rw [hnone] at hk
      cases hk
  -- what is in a slot was there or is the reserved one
  have hold : ∀ k, k ≠ g → (s'.current = some k → s.current = some k) ∧
      (s'.next = some k → s.next = some k) := by
    intro k hk
    rw [hslots.2.1, hslots.2.2]
    rcases hu with ⟨-, hc, hn, -⟩ | ⟨-, -, ⟨-, hc, hn⟩ | ⟨-, -, hc, hn⟩⟩
    · rw [hc, hn]
      exact ⟨id, id⟩
    · rw [hc, hn]
      exact ⟨fun h => absurd (Option.some.inj h).symm hk, id⟩
    · rw [hc, hn]
      exact ⟨id, fun h => absurd (Option.some.inj h).symm hk⟩
  constructor
  · intro c n hc hn
    rw [hslots.2.1] at hc
    rw [hslots.2.2] at hn
    rcases hu with ⟨-, hc', hn', -⟩ | ⟨hnew, -, ⟨hnone, -, hn'⟩ | ⟨-, -, hc', hn'⟩⟩
    · rw [hc'] at hc
      rw [hn'] at hn
      exact hl.ordered c n hc hn
    · rw [hn', hl.next_none hnone] at hn
      cases hn
    · rw [hc'] at hc
      rw [hn'] at hn
      cases hn
      rw [hnew]
      exact hs.slots c (Or.inl hc)
  · intro hnone
    rw [hslots.2.1] at hnone
    rw [hslots.2.2]
    rcases hu with ⟨-, hc', hn', -⟩ | ⟨-, -, ⟨-, hc', -⟩ | ⟨hne, -, hc', -⟩⟩
    · rw [hn']
      exact hl.next_none (hc' ▸ hnone)
    · rw [hc'] at hnone
      cases hnone
    · exact absurd (hc' ▸ hnone) hne
  · intro k hk
    rw [hslots.1] at hk
    by_cases hkg : k = g
    · subst hkg
      rcases hu with ⟨-, -, -, hc | hn⟩ | ⟨-, -, ⟨-, hc, -⟩ | ⟨-, -, -, hn⟩⟩
      · exact Or.inl (hcurrent k hc)
      · exact Or.inr (Or.inl (hnext k hn))
      · exact Or.inl (hslots.2.1.trans hc)
      · exact Or.inr (Or.inl (hslots.2.2.trans hn))
    · have hlt : k < s.generationCount := by
        rcases hu with ⟨hcount, -⟩ | ⟨hnew, hcount, -⟩
        · omega
        · omega
      rw [hgens, if_neg hkg]
      rcases hl.kept k hlt with hc | hn | hclosed
      · exact Or.inl (hcurrent k hc)
      · exact Or.inr (Or.inl (hnext k hn))
      · exact Or.inr (Or.inr hclosed)
  · intro k hk
    rw [hgens] at hk ⊢
    by_cases hkg : k = g
    · subst hkg
      rw [if_pos rfl] at hk ⊢
      rw [hstate]
      exact ⟨hcurrent k (hl.running k (hrun ▸ hk)).1, hopen, hpending hk⟩
    · rw [if_neg hkg] at hk ⊢
      obtain ⟨hc, hrest⟩ := hl.running k hk
      exact ⟨hcurrent k hc, hrest⟩
  · intro k hk
    rw [hgens] at hk
    by_cases hkg : k = g
    · subst hkg
      rw [if_pos rfl, hstate] at hk
      exact absurd hk hopen
    · rw [if_neg hkg] at hk
      obtain ⟨hc, hn⟩ := hl.closed k hk
      exact ⟨fun h => hc ((hold k hkg).1 h), fun h => hn ((hold k hkg).2 h)⟩
  · intro k hk
    rw [hgens] at hk ⊢
    by_cases hkg : k = g
    · subst hkg
      rw [if_pos rfl] at hk ⊢
      rw [hrun]
      exact hl.draining k (hstate ▸ hk)
    · rw [if_neg hkg] at hk ⊢
      exact hl.draining k hk
  · intro k hk
    rw [hgens] at hk ⊢
    by_cases hkg : k = g
    · subst hkg
      rw [if_pos rfl] at hk ⊢
      rw [htaken]
      exact hl.taken k (hrun ▸ hk)
    · rw [if_neg hkg] at hk ⊢
      exact hl.taken k hk

theorem Lifecycle.acquireLease (hl : Lifecycle s) (hs : SlotInv s) {preferred : Option Nat}
    (h : s.reserveLocked preferred = .ok (g, s')) (leases : Nat → Nat) :
    Lifecycle { s' with leases := leases } := by
  obtain ⟨u, hu, hplaced, rfl⟩ := reserveLocked_placed hs h
  apply hl.of_reserve hs hplaced (G := { s.generations g with
    reservations := s.reservations g + 1 })
  · intro k
    refine (generations_setGeneration u g k _).trans ?_
    rw [hu.generations]
    rfl
  · exact ⟨rfl, rfl, rfl⟩
  · rfl
  · rfl
  · rfl
  · exact fun hrun => (hl.running g hrun).2.2

/-- A delivered submission is posted to the loop, or it waits for it. -/
theorem Lifecycle.submit (hl : Lifecycle s) (hs : SlotInv s) {preferred : Option Nat}
    {phase : WorkPhase} {context : Option ExecutionContext} :
    Lifecycle (s.submit preferred h phase context) := by
  unfold SlotState.submit
  split
  · exact hl
  · rename_i g v hreserve
    obtain ⟨u, hu, hplaced, rfl⟩ := reserveLocked_placed hs hreserve
    have hbase : ∀ k, (((u.addReservation g).retainWork h).addSubmission
        ⟨h, g, phase, context, none, false, false⟩).generations k =
        if k = g then { s.generations g with reservations := s.reservations g + 1 }
        else s.generations k := hu.generations_addReservation
    unfold deliver
    split
    · rename_i hrun
      rw [hbase, if_pos rfl] at hrun
      apply hl.of_reserve hs hplaced (G := { s.generations g with
        reservations := s.reservations g + 1
        ready := (s.generations g).ready ++ [.startSubmission s.submissions.length] })
      · intro k
        rw [SlotState.callSoon, generations_setGeneration, hbase, if_pos rfl, hbase]
        split <;> rfl
      · exact ⟨rfl, rfl, rfl⟩
      · rfl
      · rfl
      · rfl
      · exact fun _ => (hl.running g hrun).2.2
    · rename_i hrun
      rw [hbase, if_pos rfl] at hrun
      apply hl.of_reserve hs hplaced (G := { s.generations g with
        reservations := s.reservations g + 1
        pendingSubmissions := (s.generations g).pendingSubmissions ++ [s.submissions.length] })
      · intro k
        rw [generations_setGeneration, hbase, if_pos rfl, hbase]
        split <;> rfl
      · exact ⟨rfl, rfl, rfl⟩
      · rfl
      · rfl
      · rfl
      · exact fun hrun' => absurd hrun' hrun

/-- A reservation leaves every queue as it is. -/
theorem Waits.of_queued (hw : Waits s) (hsubs : s'.submissions = s.submissions)
    (hqueued : ∀ k n, queued (s.generations k) (.startSubmission n) ≤
      queued (s'.generations k) (.startSubmission n)) : Waits s' := by
  intro k n
  have hold := hw k n
  simp only [due, hsubs] at hold ⊢
  exact Nat.le_trans hold (hqueued k n)

theorem Waits.submit (hw : Waits s) (hs : SlotInv s) {preferred : Option Nat}
    {phase : WorkPhase} {context : Option ExecutionContext} :
    Waits (s.submit preferred h phase context) := by
  rcases hres : s.reserveLocked preferred with error | ⟨g, v⟩
  · rw [SlotState.submit, hres]
    exact hw
  · obtain ⟨u, hu, rfl⟩ := hs.reserveLocked hres
    obtain ⟨G, hgens, -, hqueued, -, -, hsubs, -⟩ :=
      @submit_effect s g h preferred phase context u hu hres
    intro k n
    have hold := hw k n
    rw [hgens]
    by_cases hn : n = s.submissions.length
    · -- the new submission is due on its own generation and queued there
      subst hn
      by_cases hkg : k = g
      · subst hkg
        rw [if_pos rfl, hqueued, if_pos rfl]
        exact Nat.le_trans (Bool.toNat_le _) (Nat.le_add_left _ _)
      · simp only [due, hsubs, List.getElem?_concat_length, Option.any_some, Ne.symm hkg,
          decide_false, Bool.false_and, Bool.toNat_false]
        exact Nat.zero_le _
    · simp only [due, hsubs, getElem?_append_ne _ hn] at hold ⊢
      split
      · rename_i hkg
        rw [hkg] at hold
        rw [hqueued, hkg]
        exact Nat.le_trans hold (Nat.le_add_right _ _)
      · exact hold

/-! ## 4. The control worker -/

/-- The rule of the steps that rewrite one generation and keep the slots. -/
theorem Lifecycle.rewrite (hl : Lifecycle s) {G : Generation}
    (hgens : s'.generations = (s.setGeneration g G).generations)
    (hslots : s'.generationCount = s.generationCount ∧ s'.current = s.current ∧
      s'.next = s.next)
    (hopen : (s.generations g).state ≠ .closed ∧ G.state ≠ .closed)
    (hrun : G.running = true → s.current = some g ∧ G.pendingSubmissions = [])
    (hdraining : G.state = .draining → G.running = true)
    (htaken : G.running = false → G.taken = []) : Lifecycle s' := by
  have hgen : ∀ k, s'.generations k = if k = g then G else s.generations k := by
    intro k
    rw [hgens]
    exact generations_setGeneration s g k G
  have hself : s'.generations g = G := by rw [hgen, if_pos rfl]
  have hother : ∀ k, k ≠ g → s'.generations k = s.generations k :=
    fun k hk => by rw [hgen, if_neg hk]
  constructor
  · rw [hslots.2.1, hslots.2.2]
    exact hl.ordered
  · rw [hslots.2.1, hslots.2.2]
    exact hl.next_none
  · intro k hk
    rw [hslots.1] at hk
    rw [hslots.2.1, hslots.2.2]
    rcases hl.kept k hk with hc | hn | hclosed
    · exact Or.inl hc
    · exact Or.inr (Or.inl hn)
    · have hkg : k ≠ g := fun h => hopen.1 (h ▸ hclosed)
      rw [hother k hkg]
      exact Or.inr (Or.inr hclosed)
  · intro k hk
    rw [hslots.2.1]
    by_cases hkg : k = g
    · subst hkg
      rw [hself] at hk ⊢
      exact ⟨(hrun hk).1, hopen.2, (hrun hk).2⟩
    · rw [hother k hkg] at hk ⊢
      exact hl.running k hk
  · intro k hk
    by_cases hkg : k = g
    · subst hkg
      rw [hself] at hk
      exact absurd hk hopen.2
    · rw [hother k hkg] at hk
      rw [hslots.2.1, hslots.2.2]
      exact hl.closed k hk
  · intro k hk
    by_cases hkg : k = g
    · subst hkg
      rw [hself] at hk ⊢
      exact hdraining hk
    · rw [hother k hkg] at hk ⊢
      exact hl.draining k hk
  · intro k hk
    by_cases hkg : k = g
    · subst hkg
      rw [hself] at hk ⊢
      exact htaken hk
    · rw [hother k hkg] at hk ⊢
      exact hl.taken k hk

theorem Lifecycle.runGeneration (hl : Lifecycle s) (hcurrent : s.current = some g)
    (hopen : (s.generations g).state ≠ .closed) : Lifecycle (s.runGeneration g) := by
  have hstate : (if (s.generations g).reservations = 0 then GenerationState.sealing else .opened) ≠
      .closed ∧ (if (s.generations g).reservations = 0 then GenerationState.sealing
        else .opened) ≠ .draining := by
    split
    · exact ⟨nofun, nofun⟩
    · exact ⟨nofun, nofun⟩
  apply hl.rewrite rfl ⟨rfl, rfl, rfl⟩ ⟨hopen, hstate.1⟩
  · exact fun _ => ⟨hcurrent, rfl⟩
  · exact fun h => absurd h hstate.2
  · exact nofun

/-- What has been pending is taken. -/
theorem Waits.runGeneration (hw : Waits s) (hl : Lifecycle s)
    (hrun : (s.generations g).running = false) : Waits (s.runGeneration g) := by
  refine hw.of_queued (by rfl) fun k n => ?_
  rw [SlotState.runGeneration, generations_setGeneration]
  split
  · rename_i hk
    rw [hk]
    simp only [queued, hl.taken g hrun, List.count_nil]
    omega
  · exact Nat.le_refl _

theorem Lifecycle.queueTaken (hl : Lifecycle s) (hrun : (s.generations g).running = true)
    (hstep : s.queueTaken g = some s') : Lifecycle s' := by
  obtain ⟨hcurrent, hopen, hpending⟩ := hl.running g hrun
  have hnot : ∀ {p : Prop}, (s.generations g).running = false → p := by
    intro p h
    rw [hrun] at h
    cases h
  unfold SlotState.queueTaken at hstep
  split at hstep
  · rename_i n rest _
    cases hstep
    have htaken : Lifecycle (s.setGeneration g { s.generations g with taken := rest }) :=
      hl.rewrite rfl ⟨rfl, rfl, rfl⟩ ⟨hopen, hopen⟩ (fun _ => ⟨hcurrent, hpending⟩)
        (fun _ => hrun) hnot
    exact htaken.turns (turns_callSoon _ _ _)
  · split at hstep
    · cases hstep
      have hseals : Lifecycle (s.setGeneration g { s.generations g with sealsOnRun := false }) :=
        hl.rewrite rfl ⟨rfl, rfl, rfl⟩ ⟨hopen, hopen⟩ (fun _ => ⟨hcurrent, hpending⟩)
          (fun _ => hrun) hnot
      exact hseals.turns (turns_callSoon _ _ _)
    · cases hstep

theorem Waits.queueTaken (hw : Waits s) (hstep : s.queueTaken g = some s') : Waits s' := by
  unfold SlotState.queueTaken at hstep
  split at hstep
  · rename_i m rest htaken
    cases hstep
    refine hw.of_queued (by rfl) fun k n => ?_
    rw [SlotState.callSoon, generations_setGeneration]
    split
    · rename_i hk
      rw [hk, generations_setGeneration, if_pos rfl, queued_append]
      simp only [queued, htaken, List.count_cons, beq_iff_eq, CarrierCall.startSubmission.injEq]
      by_cases hmn : m = n
      · rw [if_pos hmn, if_pos hmn.symm]
        omega
      · rw [if_neg hmn, if_neg (Ne.symm hmn)]
        omega
    · rename_i hk
      refine Nat.le_of_eq ?_
      rw [generations_setGeneration, if_neg hk]
  · split at hstep
    · cases hstep
      refine hw.of_queued (by rfl) fun k n => ?_
      rw [SlotState.callSoon, generations_setGeneration]
      split
      · rename_i hk
        rw [hk, generations_setGeneration, if_pos rfl, queued_append]
        exact Nat.le_add_right _ _
      · rename_i hk
        refine Nat.le_of_eq ?_
        rw [generations_setGeneration, if_neg hk]
    · cases hstep

theorem generations_closeGeneration (s : SlotState) (g k : Nat) :
    (s.closeGeneration g).generations k =
      if k = g then { s.generations g with running := false, state := .closed }
      else s.generations k :=
  generations_setGeneration s g k _

theorem reservations_closeGeneration (s : SlotState) (g k : Nat) :
    (s.closeGeneration g).reservations k = s.reservations k := by
  unfold SlotState.reservations
  rw [generations_closeGeneration]
  split
  · rename_i hk
    rw [hk]
  · rfl

/-- The worker has left a loop: the next generation becomes the current one. -/
theorem Lifecycle.close (hl : Lifecycle s) (hfree : s.loopFree g = true) :
    Lifecycle (s.closeGeneration g) := by
  have hrun := running_of_loopFree hfree
  obtain ⟨hcurrent, -, -⟩ := hl.running g hrun
  have hgen := generations_closeGeneration s g
  have hslots : (s.closeGeneration g).current = s.next ∧ (s.closeGeneration g).next = none := by
    unfold SlotState.closeGeneration
    rw [if_pos hcurrent, if_pos hcurrent]
    exact ⟨rfl, rfl⟩
  constructor
  · intro c n _ hn
    rw [hslots.2] at hn
    cases hn
  · exact fun _ => hslots.2
  · intro k hk
    rw [hgen, hslots.1]
    by_cases hkg : k = g
    · rw [if_pos hkg]
      exact Or.inr (Or.inr rfl)
    · rw [if_neg hkg]
      rcases hl.kept k hk with hc | hn | hclosed
      · rw [hcurrent] at hc
        exact absurd (Option.some.inj hc).symm hkg
      · exact Or.inl hn
      · exact Or.inr (Or.inr hclosed)
  · intro k hk
    rw [hgen] at hk
    by_cases hkg : k = g
    · rw [if_pos hkg] at hk
      cases hk
    · rw [if_neg hkg] at hk
      have hc := (hl.running k hk).1
      rw [hcurrent] at hc
      exact absurd (Option.some.inj hc).symm hkg
  · intro k hk
    rw [hgen] at hk
    rw [hslots.1, hslots.2]
    by_cases hkg : k = g
    · subst hkg
      refine ⟨fun hn => ?_, fun heq => by cases heq⟩
      exact Nat.lt_irrefl k (hl.ordered k k hcurrent hn)
    · rw [if_neg hkg] at hk
      exact ⟨(hl.closed k hk).2, fun heq => by cases heq⟩
  · intro k hk
    rw [hgen] at hk ⊢
    by_cases hkg : k = g
    · rw [if_pos hkg] at hk
      cases hk
    · rw [if_neg hkg] at hk ⊢
      exact hl.draining k hk
  · intro k hk
    rw [hgen] at hk ⊢
    by_cases hkg : k = g
    · rw [if_pos hkg]
      unfold loopFree at hfree
      rw [Bool.and_eq_true, Bool.and_eq_true, List.isEmpty_iff] at hfree
      exact hfree.1.2
    · rw [if_neg hkg] at hk ⊢
      exact hl.taken k hk

/-! ## 5. The loops -/

/-- A submission that is due is started: its reservation keeps the loop open. -/
theorem startSubmission_starts (hs : SlotInv s) (hseals : Sealing s)
    (hrun : (s.generations g).running = true) (hdue : s.due g (.startSubmission n) = true) :
    ∃ submission u t, s.submissions[n]? = some submission ∧
      s.taskFactory g submission.context (some n) = .ok u ∧
      s.startSubmission g n =
        { u with submissions := u.submissions.set n { submission with rootTask := some t } } := by
  obtain ⟨submission, hn, hopen⟩ := (Option.any_eq_true _ _).mp hdue
  rw [Bool.and_eq_true, decide_eq_true_eq, Option.isNone_iff_eq_none] at hopen
  -- it has not been released, so it is in the ledger
  have hreleased : submission.released = false := by
    by_contra hrel
    obtain ⟨t, task, hroot, -⟩ :=
      hs.roots.released_done n submission hn (by simpa using hrel)
    rw [hopen.2] at hroot
    cases hroot
  have hres : 0 < s.reservations g := by
    have hcount : 0 < s.submissions.countP (openOn g) := by
      apply List.countP_pos_iff.mpr
      refine ⟨submission, List.mem_of_getElem? hn, ?_⟩
      rw [openOn, hopen.1, hreleased]
      exact Bool.and_eq_true_iff.mpr ⟨decide_eq_true rfl, rfl⟩
    rw [hs.ledger.reservations]
    omega
  obtain ⟨u, hfactory⟩ := hseals.taskFactory_ok hrun hres submission.context (some n)
  refine ⟨submission, u, s.tasks.length, hn, hfactory, ?_⟩
  rw [SlotState.startSubmission, hn]
  simp only [hfactory, (taskFactory_effect hfactory).submissions]

theorem Waits.pop (hw : Waits s) {call : CarrierCall} {rest : List CarrierCall}
    (hready : (s.generations g).ready = call :: rest) (hcall : ∀ n, call ≠ .startSubmission n) :
    Waits (s.setGeneration g { s.generations g with ready := rest }) := by
  refine hw.of_queued (by rfl) fun k n => ?_
  rw [generations_setGeneration]
  split
  · rename_i hk
    rw [hk, queued_pop hready, if_neg (Ne.symm (hcall n))]
    exact Nat.le_refl _
  · exact Nat.le_refl _

/-- Taking a call from the queue moves no slot. -/
theorem Lifecycle.pop (hl : Lifecycle s) (hrun : (s.generations g).running = true)
    (rest : List CarrierCall) :
    Lifecycle (s.setGeneration g { s.generations g with ready := rest }) := by
  obtain ⟨hcurrent, hopen, hpending⟩ := hl.running g hrun
  refine hl.rewrite rfl ⟨rfl, rfl, rfl⟩ ⟨hopen, hopen⟩ (fun _ => ⟨hcurrent, hpending⟩)
    (fun _ => hrun) fun h => ?_
  rw [hrun] at h
  cases h

theorem loopStep_keeps (hl : Lifecycle s) (hw : Waits s) (hs : SlotInv s) (hseals : Sealing s)
    (hfree : s.loopFree g = true) (hstep : s.loopStep g = some s') :
    Lifecycle s' ∧ Waits s' := by
  have hrun := running_of_loopFree hfree
  have hopen := (hl.running g hrun).2.1
  unfold SlotState.loopStep at hstep
  split at hstep
  · cases hstep
  · rename_i call rest hready
    cases hstep
    have hself : (s.setGeneration g { s.generations g with ready := rest }).generations g =
        { s.generations g with ready := rest } := by
      rw [generations_setGeneration, if_pos rfl]
    have hturns : Turns (s.setGeneration g { s.generations g with ready := rest })
        ((s.setGeneration g { s.generations g with ready := rest }).runCall g call) :=
      turns_runCall (by rw [hself]; exact hopen) call
    refine ⟨(hl.pop hrun rest).turns hturns, ?_⟩
    cases call with
    | firstStep t | cancelTasks tasks | descendantDone t | setSeal =>
      exact (hw.pop hready fun n h => by cases h).turns hturns
    | startSubmission n =>
      obtain ⟨hdue, -⟩ := hs.once.due_of_ready rfl hready
      obtain ⟨submission, u, t, hn, hfactory, heq⟩ := startSubmission_starts
        (hs.pop hready (by simp)) (hseals.pop hready) (by rw [hself]; exact hrun) hdue
      have hnu : u.submissions[n]? = some submission := by
        rw [(taskFactory_effect hfactory).submissions]
        exact hn
      intro k m
      cases hduem : SlotState.due (SlotState.startSubmission
          (s.setGeneration g { s.generations g with ready := rest }) g n) k
          (.startSubmission m) with
      | false =>
        change (SlotState.due (SlotState.startSubmission _ g n) k _).toNat ≤ _
        rw [hduem]
        exact Nat.zero_le _
      | true =>
        -- what is due now is another submission
        have hmn : m ≠ n := by
          rintro rfl
          rw [heq, due, getElem?_set_self' hnu, Option.any_some, Option.isNone_some,
            Bool.and_false] at hduem
          cases hduem
        have hold := hw k m
        have hduem' := due_of_turns hturns hduem
        change s.due k (.startSubmission m) = true at hduem'
        rw [hduem'] at hold
        change (SlotState.due (SlotState.startSubmission _ g n) k _).toNat ≤ _
        rw [hduem]
        refine Nat.le_trans (Nat.le_trans hold ?_)
          (queued_le_of_turns (hturns.generations k) m)
        rw [generations_setGeneration]
        split
        · rename_i hk
          rw [hk, queued_pop hready, if_neg fun h => hmn (CarrierCall.startSubmission.inj h)]
          exact Nat.le_refl _
        · exact Nat.le_refl _

/-- **Step lemma of the lifecycle.** -/
theorem step_lifecycle {e : SlotEvent} (hl : Lifecycle s) (hw : Waits s) (hs : SlotInv s)
    (hseals : Sealing s) (hstep : s.step e = some s') : Lifecycle s' ∧ Waits s' := by
  cases stepped hstep with
  | submit preferred h phase context hexists hbody =>
    exact ⟨hl.submit hs, hw.submit hs⟩
  | @acquireLease v preferred g hreserve =>
    refine ⟨hl.acquireLease hs hreserve _, ?_⟩
    obtain ⟨u, hu, rfl⟩ := hs.reserveLocked hreserve
    refine hw.of_queued (by exact hu.submissions) fun k n => ?_
    change _ ≤ queued ((u.addReservation g).generations k) _
    rw [hu.generations_addReservation]
    split
    · rename_i hk
      rw [hk]
      exact Nat.le_refl _
    · exact Nat.le_refl _
  | leaseRefused preferred =>
    exact ⟨hl, hw⟩
  | releaseLease g hheld =>
    have hset : Turns s { s with leases := Function.update s.leases g (s.leases g - 1) } :=
      turns_of_eq rfl ⟨rfl, rfl, rfl⟩ rfl
    have ht := hset.trans (turns_releaseReservation _ g)
    exact ⟨hl.turns ht, hw.turns ht⟩
  | postSeal g hposted =>
    have hset : Turns s { s with sealPosts := s.sealPosts.erase g } :=
      turns_of_eq rfl ⟨rfl, rfl, rfl⟩ rfl
    split
    · have ht := hset.trans (turns_callSoon _ g .setSeal)
      exact ⟨hl.turns ht, hw.turns ht⟩
    · exact ⟨hl.turns hset, hw.turns hset⟩
  | runGeneration g hcurrent hrun hopen =>
    exact ⟨hl.runGeneration hcurrent hopen, hw.runGeneration hl hrun⟩
  | queueTaken g hrun htaken =>
    exact ⟨hl.queueTaken hrun htaken, hw.queueTaken htaken⟩
  | loopStep g hfree hloop =>
    exact loopStep_keeps hl hw hs hseals hfree hloop
  | createTask g context hfree hfactory =>
    have ht := turns_factory (hl.running g (running_of_loopFree hfree)).2.1 hfactory
    exact ⟨hl.turns ht, hw.turns ht⟩
  | taskRefused g context =>
    exact ⟨hl, hw⟩
  | endTask t task ht hbegun hdone hfree =>
    have ht := turns_endTask s t task
    exact ⟨hl.turns ht, hw.turns ht⟩
  | cancel h =>
    exact ⟨hl.turns (turns_cancel s h), hw.turns (turns_cancel s h)⟩
  | drain g hfree hseal =>
    have hrun := running_of_loopFree hfree
    obtain ⟨hcurrent, hopen, hpending⟩ := hl.running g hrun
    constructor
    · refine hl.rewrite rfl ⟨rfl, rfl, rfl⟩ ⟨hopen, fun heq => by cases heq⟩
        (fun _ => ⟨hcurrent, hpending⟩)
        (fun _ => hrun) fun h => ?_
      rw [show (s.generations g).running = false from h] at hrun
      cases hrun
    · refine hw.of_queued (by rfl) fun k n => ?_
      rw [generations_setGeneration]
      split
      · rename_i hk
        rw [hk]
        exact Nat.le_refl _
      · exact Nat.le_refl _
  | close g hfree _ | exit g hfree =>
    refine ⟨hl.close hfree, hw.of_queued (by rfl) fun k n => ?_⟩
    change _ ≤ queued ((s.setGeneration g { s.generations g with
      running := false, state := .closed }).generations k) _
    rw [generations_setGeneration]
    split
    · rename_i hk
      rw [hk]
      exact Nat.le_refl _
    · exact Nat.le_refl _
  | shutdown =>
    have ht : Turns s { s with controlOpen := false } := turns_of_eq rfl ⟨rfl, rfl, rfl⟩ rfl
    exact ⟨hl.turns ht, hw.turns ht⟩

theorem reachable_lifecycle (h : slotSystem.Reachable s) :
    Lifecycle s ∧ Waits s ∧ SlotInv s ∧ Sealing s := by
  have hs := reachable_slotInv h
  have hseals := reachable_sealing h
  have hlife : Lifecycle s ∧ Waits s := by
    apply h.invariant_of (I := fun t => Lifecycle t ∧ Waits t)
      (J := fun t => SlotInv t ∧ Sealing t)
    · exact fun _ ht => ⟨reachable_slotInv ht, reachable_sealing ht⟩
    · rintro _ rfl
      refine ⟨⟨?_, fun _ => rfl, ?_, ?_, ?_, ?_, fun _ _ => rfl⟩, fun g n => Nat.zero_le _⟩
      · intro c n hc
        cases hc
      · intro g hg
        exact absurd hg (Nat.not_lt_zero g)
      · intro g hrun
        cases hrun
      · intro g hclosed
        cases hclosed
      · intro g hdraining
        cases hdraining
    · intro t e t' hinv ht _ hstep
      exact step_lifecycle ht.1 ht.2 hinv.1 hinv.2 hstep
  exact ⟨hlife.1, hlife.2, hs, hseals⟩

/-! ## 6. Closed generations -/

/-- What runs goes on; what is closed stays so, takes no reservation and starts nothing, and
    nothing else is closed. -/
structure Lasts (s s' : SlotState) : Prop where
  running : ∀ g, (s.generations g).running = true → (s'.generations g).running = true
  closed : ∀ g, (s'.generations g).state = .closed ↔ (s.generations g).state = .closed
  reservations : ∀ g, (s.generations g).state = .closed → s'.reservations g ≤ s.reservations g
  queued : ∀ g n, (s.generations g).state = .closed →
    queued (s.generations g) (.startSubmission n) ≤ queued (s'.generations g) (.startSubmission n)

theorem Turns.lasts (ht : Turns s s') : Lasts s s' where
  running g hrun := (ht.generations g).running.trans hrun
  closed g := (ht.generations g).closed_iff
  reservations g := (ht.generations g).reservations
  queued g n _ := queued_le_of_turns (ht.generations g) n

theorem Lasts.trans (h : Lasts s s') (h' : Lasts s' s'') : Lasts s s'' where
  running g hrun := h'.running g (h.running g hrun)
  closed g := (h'.closed g).trans (h.closed g)
  reservations g hclosed :=
    Nat.le_trans (h'.reservations g ((h.closed g).mpr hclosed)) (h.reservations g hclosed)
  queued g n hclosed :=
    Nat.le_trans (h.queued g n hclosed) (h'.queued g n ((h.closed g).mpr hclosed))

/-- One generation is rewritten that is not closed, before or after. -/
theorem lasts_rewrite {G : Generation}
    (hgens : ∀ k, s'.generations k = if k = g then G else s.generations k)
    (hrun : (s.generations g).running = true → G.running = true)
    (hopen : (s.generations g).state ≠ .closed ∧ G.state ≠ .closed) : Lasts s s' := by
  have hother : ∀ k, (s.generations k).state = .closed → s'.generations k = s.generations k := by
    intro k hclosed
    have hk : k ≠ g := fun hk => hopen.1 (hk ▸ hclosed)
    rw [hgens, if_neg hk]
  constructor
  · intro k hk
    rw [hgens]
    split
    · rename_i hkg
      exact hrun (hkg ▸ hk)
    · exact hk
  · intro k
    rw [hgens]
    split
    · rename_i hk
      subst hk
      exact ⟨fun hclosed => absurd hclosed hopen.2, fun hclosed => absurd hclosed hopen.1⟩
    · exact Iff.rfl
  · exact fun k hclosed => Nat.le_of_eq (congrArg Generation.reservations (hother k hclosed))
  · exact fun k n hclosed => Nat.le_of_eq (by rw [hother k hclosed])

theorem lasts_of_eq (h : s'.generations = s.generations) : Lasts s s' := by
  constructor
  · intro g hrun
    rw [h]
    exact hrun
  · intro g
    rw [h]
  · exact fun g _ => Nat.le_of_eq (by rw [SlotState.reservations, SlotState.reservations, h])
  · exact fun g n _ => Nat.le_of_eq (by rw [h])

theorem lasts_setGeneration {G : Generation}
    (hrun : (s.generations g).running = true → G.running = true)
    (hopen : (s.generations g).state ≠ .closed ∧ G.state ≠ .closed) :
    Lasts s (s.setGeneration g G) :=
  lasts_rewrite (fun k => generations_setGeneration s g k G) hrun hopen

theorem lasts_deliver (hopen : (s.generations g).state ≠ .closed) (n : Nat) :
    Lasts s (s.deliver g n) := by
  unfold SlotState.deliver
  split
  · exact (turns_callSoon s g _).lasts
  · exact lasts_setGeneration id ⟨hopen, hopen⟩

theorem Lifecycle.lasts_reserve (hl : Lifecycle s) (hs : SlotInv s) {u : SlotState}
    (hu : Selected s g u) (hplaced : Placed s g u) : Lasts s (u.addReservation g) :=
  lasts_rewrite hu.generations_addReservation id
    ⟨hl.open_of_placed hs hplaced, hl.open_of_placed hs hplaced⟩

theorem Lifecycle.lasts_submit (hl : Lifecycle s) (hs : SlotInv s) {preferred : Option Nat}
    {phase : WorkPhase} {context : Option ExecutionContext} :
    Lasts s (s.submit preferred h phase context) := by
  unfold SlotState.submit
  split
  · exact (Turns.refl s).lasts
  · rename_i g v hreserve
    obtain ⟨u, hu, hplaced, rfl⟩ := reserveLocked_placed hs hreserve
    have hadded : Lasts s (((u.addReservation g).retainWork h).addSubmission
        ⟨h, g, phase, context, none, false, false⟩) :=
      (hl.lasts_reserve hs hu hplaced).trans (lasts_of_eq rfl)
    apply hadded.trans (lasts_deliver _ _)
    rw [Ne, hadded.closed]
    exact hl.open_of_placed hs hplaced

theorem lasts_queueTaken (hopen : (s.generations g).state ≠ .closed)
    (hstep : s.queueTaken g = some s') : Lasts s s' := by
  unfold SlotState.queueTaken at hstep
  split at hstep
  · rename_i n rest _
    cases hstep
    have htaken : Lasts s (s.setGeneration g { s.generations g with taken := rest }) :=
      lasts_setGeneration id ⟨hopen, hopen⟩
    exact htaken.trans (turns_callSoon _ _ _).lasts
  · split at hstep
    · cases hstep
      have hseals : Lasts s (s.setGeneration g { s.generations g with sealsOnRun := false }) :=
        lasts_setGeneration id ⟨hopen, hopen⟩
      exact hseals.trans (turns_callSoon _ _ _).lasts
    · cases hstep

theorem lasts_loopStep (hopen : (s.generations g).state ≠ .closed)
    (hstep : s.loopStep g = some s') : Lasts s s' := by
  unfold SlotState.loopStep at hstep
  split at hstep
  · cases hstep
  · rename_i call rest hready
    cases hstep
    have hpop : Lasts s (s.setGeneration g { s.generations g with ready := rest }) :=
      lasts_setGeneration id ⟨hopen, hopen⟩
    apply hpop.trans (turns_runCall _ call).lasts
    rw [generations_setGeneration, if_pos rfl]
    exact hopen

/-- **Only the worker closes a generation**, when its loop has drained or has raised. -/
theorem step_lasts {e : SlotEvent} (hl : Lifecycle s) (hs : SlotInv s)
    (hstep : s.step e = some s') :
    Lasts s s' ∨ ∃ g, s.loopFree g = true ∧ s' = s.closeGeneration g ∧
      (e = .close g ∧ (s.generations g).state = .draining ∨ e = .exit g) := by
  have hopen : ∀ {k}, s.loopFree k = true → (s.generations k).state ≠ .closed :=
    fun hfree => (hl.running _ (running_of_loopFree hfree)).2.1
  cases stepped hstep with
  | submit preferred h phase context hexists hbody => exact Or.inl (hl.lasts_submit hs)
  | @acquireLease v preferred g hreserve =>
    obtain ⟨u, hu, hplaced, rfl⟩ := reserveLocked_placed hs hreserve
    exact Or.inl ((hl.lasts_reserve hs hu hplaced).trans (lasts_of_eq rfl))
  | leaseRefused preferred => exact Or.inl (Turns.refl s).lasts
  | releaseLease g hheld =>
    have hset : Turns s { s with leases := Function.update s.leases g (s.leases g - 1) } :=
      turns_of_eq rfl ⟨rfl, rfl, rfl⟩ rfl
    exact Or.inl (hset.trans (turns_releaseReservation _ g)).lasts
  | postSeal g hposted =>
    have hset : Turns s { s with sealPosts := s.sealPosts.erase g } :=
      turns_of_eq rfl ⟨rfl, rfl, rfl⟩ rfl
    split
    · exact Or.inl (hset.trans (turns_callSoon _ g .setSeal)).lasts
    · exact Or.inl hset.lasts
  | runGeneration g hcurrent hrun hopen =>
    refine Or.inl (lasts_setGeneration (fun _ => rfl) ⟨hopen, ?_⟩)
    dsimp only
    split
    · exact fun heq => by cases heq
    · exact fun heq => by cases heq
  | queueTaken g hrun htaken => exact Or.inl (lasts_queueTaken (hl.running g hrun).2.1 htaken)
  | loopStep g hfree hloop => exact Or.inl (lasts_loopStep (hopen hfree) hloop)
  | createTask g context hfree hfactory =>
    exact Or.inl (turns_factory (hopen hfree) hfactory).lasts
  | taskRefused g context => exact Or.inl (Turns.refl s).lasts
  | endTask t task ht hbegun hdone hfree => exact Or.inl (turns_endTask s t task).lasts
  | cancel h => exact Or.inl (turns_cancel s h).lasts
  | drain g hfree hseal =>
    refine Or.inl (lasts_setGeneration id ⟨hopen hfree, ?_⟩)
    exact fun heq => by cases heq
  | close g hfree hdraining => exact Or.inr ⟨g, hfree, rfl, Or.inl ⟨rfl, hdraining⟩⟩
  | exit g hfree => exact Or.inr ⟨g, hfree, rfl, Or.inr rfl⟩
  | shutdown =>
    have ht : Turns s { s with controlOpen := false } := turns_of_eq rfl ⟨rfl, rfl, rfl⟩ rfl
    exact Or.inl ht.lasts

theorem closed_step {e : SlotEvent} (hl : Lifecycle s) (hs : SlotInv s)
    (hstep : s.step e = some s') (hclosed : (s.generations g).state = .closed) :
    (s'.generations g).state = .closed := by
  rcases step_lasts hl hs hstep with hlasts | ⟨k, -, rfl, -⟩
  · exact (hlasts.closed g).mpr hclosed
  · rw [generations_closeGeneration]
    split
    · rfl
    · exact hclosed

/-- The worker leaves a loop by an exception while something is reserved on it. -/
def leavesReserved (s : SlotState) : SlotEvent → Bool
  | .exit g => decide (0 < s.reservations g)
  | _ => false

/-- Nothing is reserved on a closed generation, as long as the worker leaves none so. -/
theorem reachUnder_unreserved
    (h : slotSystem.ReachUnder (fun s e => s.leavesReserved e = false) s) :
    ∀ g, (s.generations g).state = .closed → s.reservations g = 0 := by
  apply h.invariant_of (I := fun s => ∀ g, (s.generations g).state = .closed → s.reservations g = 0)
    (J := fun s => Lifecycle s ∧ Waits s ∧ SlotInv s ∧ Sealing s)
  · exact fun _ ht => reachable_lifecycle ht.reachable
  · rintro _ rfl g hclosed
    cases hclosed
  · intro s e s' hinv hi hok hstep g hclosed
    obtain ⟨hl, -, hs, hseals⟩ := hinv
    rcases step_lasts hl hs hstep with hlasts | ⟨k, hfree, rfl, he⟩
    · rw [hlasts.closed] at hclosed
      exact Nat.le_zero.mp (hi g hclosed ▸ hlasts.reservations g hclosed)
    · rw [reservations_closeGeneration]
      by_cases hk : g = k
      · subst hk
        rcases he with ⟨-, hdraining⟩ | rfl
        · exact (hseals.generation g).idle (running_of_loopFree hfree) (by rw [hdraining]; rfl)
        · simpa [leavesReserved] using hok
      · rw [generations_closeGeneration, if_neg hk] at hclosed
        exact hi g hclosed

/-! ## 7. The lifecycle of a generation -/

/-- How often a submission has been started. -/
def starts (s : SlotState) (n : Nat) : Nat :=
  s.tasks.countP fun task => decide (task.root = some n)

theorem Roots.starts_eq (hr : Roots s) {submission : Submission}
    (hn : s.submissions[n]? = some submission) :
    s.starts n = submission.rootTask.isSome.toNat := by
  -- a root task of the submission is the one it knows
  have hroot : ∀ (t : Nat) (task : CarrierTask), s.tasks[t]? = some task → task.root = some n →
      submission.rootTask = some t := by
    intro t task ht hroot
    obtain ⟨submission', hn', htask, -⟩ := hr.of_root t task n ht hroot
    rw [hn] at hn'
    cases hn'
    exact htask
  cases hsome : submission.rootTask with
  | none =>
    rw [starts, Option.isSome_none, Bool.toNat_false, List.countP_eq_zero]
    intro task hmem hdecide
    obtain ⟨t, ht⟩ := List.mem_iff_getElem?.mp hmem
    have := hroot t task ht (of_decide_eq_true hdecide)
    rw [hsome] at this
    cases this
  | some t =>
    obtain ⟨task, ht, htask⟩ := hr.of_submission n submission t hn hsome
    have hgain := countP_gain (p := fun _ => false) (q := fun task => decide (task.root = some n))
      ht rfl (decide_eq_true htask) fun u task' hu hne => by
        symm
        rw [decide_eq_false_iff_not]
        intro htask'
        have := hroot u task' hu htask'
        rw [hsome] at this
        exact hne (Option.some.inj this).symm
    rw [starts, hgain, Option.isSome_some, Bool.toNat_true, List.countP_eq_zero.mpr (by simp)]

/-- The life of the generations of a slot. -/
structure GenerationLifecycle (s : SlotState) : Prop where
  increasing : ∀ c n, s.current = some c → s.next = some n → c < n
  /-- A generation that is no longer in the slot has run and is closed. -/
  kept : ∀ g, g < s.generationCount →
    s.current = some g ∨ s.next = some g ∨ (s.generations g).state = .closed
  one_loop : ∀ g k, (s.generations g).running = true → (s.generations k).running = true → g = k
  unreserved : ∀ g, (s.generations g).state = .draining ∨ (s.generations g).state = .closed →
    s.reservations g = 0
  closes_empty : ∀ g s', s.step (.close g) = some s' ∨ s.step (.exit g) = some s' →
    (s.generations g).pendingSubmissions = []
  /-- A submission is started, or it waits to be, and never both or twice. -/
  starts : ∀ n : Nat, ∀ submission : Submission, s.submissions[n]? = some submission →
    s.starts n + queued (s.generations submission.generation) (.startSubmission n) = 1
  own_loop : ∀ t : Nat, ∀ task : CarrierTask, ∀ n, s.tasks[t]? = some task →
    task.root = some n → ∃ submission : Submission, s.submissions[n]? = some submission ∧
      task.generation = submission.generation
  /-- No submission is left over when the loop has drained. -/
  all_started : ∀ n : Nat, ∀ submission : Submission, s.submissions[n]? = some submission →
    (s.generations submission.generation).state = .draining ∨
      (s.generations submission.generation).state = .closed → s.starts n = 1
  seals : ∀ g, (s.generations g).running = true → s.reservations g = 0 → s.SealDue g

/-- A submission is started or waits to be, and what still waits has not been started. -/
theorem reachable_starts (h : slotSystem.Reachable s) :
    (∀ (n : Nat) (submission : Submission), s.submissions[n]? = some submission →
      s.starts n + queued (s.generations submission.generation) (.startSubmission n) = 1) ∧
    ∀ n g, 0 < queued (s.generations g) (.startSubmission n) → s.starts n = 0 := by
  obtain ⟨-, hw, hs, -⟩ := reachable_lifecycle h
  constructor
  · intro n submission hn
    rw [hs.roots.starts_eq hn]
    have hle := hs.once submission.generation (.startSubmission n) rfl
    have hge := hw submission.generation n
    have hdue : s.due submission.generation (.startSubmission n) =
        submission.rootTask.isNone := by
      rw [due, hn, Option.any_some, decide_eq_true rfl, Bool.true_and]
    rw [hdue] at hle hge
    cases hroot : submission.rootTask with
    | none =>
      rw [hroot, Option.isNone_none, Bool.toNat_true] at hle hge
      rw [Option.isSome_none, Bool.toNat_false]
      omega
    | some t =>
      rw [hroot, Option.isNone_some, Bool.toNat_false] at hle
      rw [Option.isSome_some, Bool.toNat_true]
      omega
  · intro n g hqueued
    have hdue : s.due g (.startSubmission n) = true := by
      by_contra hnot
      have hle := hs.once g (.startSubmission n) rfl
      rw [Bool.not_eq_true _ |>.mp hnot, Bool.toNat_false] at hle
      omega
    obtain ⟨submission, hn, hopen⟩ := (Option.any_eq_true _ _).mp hdue
    rw [Bool.and_eq_true, Option.isNone_iff_eq_none] at hopen
    rw [hs.roots.starts_eq hn, hopen.2, Option.isSome_none, Bool.toNat_false]

/-- What is closed stays so, and its queue keeps what it has. -/
theorem closed_run (h : slotSystem.Reachable s) (hclosed : (s.generations g).state = .closed)
    {es : List SlotEvent} (hrun : slotSystem.run s es = some s') :
    (s'.generations g).state = .closed ∧ ∀ n,
      queued (s.generations g) (.startSubmission n) ≤
        queued (s'.generations g) (.startSubmission n) := by
  have hstep : ∀ t e t', (slotSystem.Reachable t ∧ (t.generations g).state = .closed ∧ ∀ n,
      queued (s.generations g) (.startSubmission n) ≤
        queued (t.generations g) (.startSubmission n)) → slotSystem.step t e = some t' →
      slotSystem.Reachable t' ∧ (t'.generations g).state = .closed ∧ ∀ n,
        queued (s.generations g) (.startSubmission n) ≤
          queued (t'.generations g) (.startSubmission n) := by
    rintro t e t' ⟨ht, hgen, hqueued⟩ hstep
    obtain ⟨hl, -, hs, -⟩ := reachable_lifecycle ht
    refine ⟨.step ht trivial hstep, ?_⟩
    rcases step_lasts hl hs hstep with hlasts | ⟨k, hfree, rfl, -⟩
    · exact ⟨(hlasts.closed g).mpr hgen,
        fun n => Nat.le_trans (hqueued n) (hlasts.queued g n hgen)⟩
    · -- the generation that closes has been open
      have hk : g ≠ k := by
        rintro rfl
        exact (hl.running g (running_of_loopFree hfree)).2.1 hgen
      rw [generations_closeGeneration, if_neg hk]
      exact ⟨hgen, hqueued⟩
  exact (System.run_invariant hstep ⟨h, hclosed, fun _ => Nat.le_refl _⟩ hrun).2

/-- **The lifecycle of the generations of a carrier slot**, in every state reached without
    leaving a loop by an exception while something is reserved. -/
theorem reachUnder_generationLifecycle
    (h : slotSystem.ReachUnder (fun s e => s.leavesReserved e = false) s) :
    GenerationLifecycle s := by
  obtain ⟨hl, hw, hs, hseals⟩ := reachable_lifecycle h.reachable
  have hunreserved : ∀ g, (s.generations g).state = .draining ∨
      (s.generations g).state = .closed → s.reservations g = 0 := by
    rintro g (hdraining | hclosed)
    · exact (hseals.generation g).idle (hl.draining g hdraining) (by rw [hdraining]; rfl)
    · exact reachUnder_unreserved h g hclosed
  constructor
  · exact hl.ordered
  · exact hl.kept
  · intro g k hg hk
    have hcurrent := (hl.running g hg).1
    rw [(hl.running k hk).1] at hcurrent
    exact (Option.some.inj hcurrent).symm
  · exact hunreserved
  · rintro g s' (hstep | hstep)
    · obtain ⟨⟨hfree, -⟩, -⟩ := when_eq_some hstep
      exact (hl.running g (running_of_loopFree hfree)).2.2
    · obtain ⟨hfree, -⟩ := when_eq_some hstep
      exact (hl.running g (running_of_loopFree hfree)).2.2
  · exact (reachable_starts h.reachable).1
  · intro t task n ht hroot
    obtain ⟨submission, hn, -, hgen⟩ := hs.roots.of_root t task n ht hroot
    exact ⟨submission, hn, hgen.symm⟩
  · intro n submission hn hstate
    rw [hs.roots.starts_eq hn]
    -- nothing is reserved, so the submission has been released
    have hreleased : submission.released = true := by
      by_contra hrel
      have hopen : openOn submission.generation submission = true :=
        Bool.and_eq_true_iff.mpr ⟨decide_eq_true rfl, by simpa using hrel⟩
      have hcount : 0 < s.submissions.countP (openOn submission.generation) :=
        List.countP_pos_iff.mpr ⟨submission, List.mem_of_getElem? hn, hopen⟩
      have hledger := hs.ledger.reservations submission.generation
      rw [hunreserved _ hstate] at hledger
      omega
    obtain ⟨t, task, hroot, -⟩ := hs.roots.released_done n submission hn hreleased
    rw [hroot, Option.isSome_some, Bool.toNat_true]
  · exact hs.idle_seals

/-- **The lifecycle of the generations of a carrier slot** holds in every run in which the
    worker leaves no loop by an exception while something is reserved on it.  A step that
    does so closes the generation with its reservations, and what has not been started on
    that generation never is, whatever follows. -/
theorem generation_lifecycle_iff (s : SlotState) :
    (slotSystem.ReachUnder (fun s e => s.leavesReserved e = false) s → GenerationLifecycle s) ∧
    ∀ (e : SlotEvent) (s' : SlotState), slotSystem.Reachable s → s.leavesReserved e = true →
      slotSystem.step s e = some s' → ¬ GenerationLifecycle s' ∧
        ∃ g, e = .exit g ∧ (s'.generations g).state = .closed ∧ 0 < s'.reservations g ∧
          ∀ (es : List SlotEvent) (u : SlotState), slotSystem.run s' es = some u →
            (u.generations g).state = .closed ∧
            ∀ (n : Nat) (submission : Submission), s'.submissions[n]? = some submission →
              submission.generation = g → s'.starts n = 0 → u.starts n = 0 := by
  constructor
  · exact reachUnder_generationLifecycle
  · intro e s' hreach hleaves hstep
    obtain ⟨hl, -, hs, -⟩ := reachable_lifecycle hreach
    have hs' : slotSystem.Reachable s' := .step hreach trivial hstep
    have hstep' : s.step e = some s' := hstep
    cases stepped hstep' with
    | exit g hfree =>
      have hclosed : ((s.closeGeneration g).generations g).state = .closed := by
        rw [generations_closeGeneration, if_pos rfl]
      have hreserved : 0 < (s.closeGeneration g).reservations g := by
        rw [reservations_closeGeneration]
        exact of_decide_eq_true hleaves
      refine ⟨fun h => ?_, g, rfl, hclosed, hreserved, fun es u hrun => ?_⟩
      · have hzero := h.unreserved g (Or.inr hclosed)
        omega
      · have hu := reachable_starts (hs'.run hrun)
        refine ⟨(closed_run hs' hclosed hrun).1, fun n submission hn hgen hstarts => ?_⟩
        have hqueued := (reachable_starts hs').1 n submission hn
        rw [hstarts, hgen] at hqueued
        exact hu.2 n g (by have := (closed_run hs' hclosed hrun).2 n; omega)
    | _ => cases hleaves

/-- A submission that comes before the loop of its generation, and the end of that loop. -/
def submissionRun : List SlotEvent :=
  [.submit none 0 .body none, .runGeneration 0, .queueTaken 0, .loopStep 0, .loopStep 0,
    .endTask 0, .postSeal 0, .loopStep 0, .drain 0, .close 0]

theorem generation_lifecycle_submissionRun :
    ∃ s, slotSystem.run {} submissionRun = some s ∧ (s.generations 0).state = .closed ∧
      s.starts 0 = 1 ∧ GenerationLifecycle s := by
  have hend : (slotSystem.run {} submissionRun).any (fun s =>
      decide ((s.generations 0).state = .closed ∧ s.starts 0 = 1)) = true := by
    decide
  have hmeet : slotSystem.StepsMeet (fun s e => s.leavesReserved e = false) {} submissionRun :=
    System.stepsMeet_of_forall (by simp [submissionRun, leavesReserved])
  obtain ⟨s, hrun, hs⟩ := (Option.any_eq_true _ _).mp hend
  obtain ⟨hclosed, hstarts⟩ := of_decide_eq_true hs
  exact ⟨s, hrun, hclosed, hstarts,
    (generation_lifecycle_iff s).1 ((System.ReachUnder.init rfl).of_run hmeet hrun)⟩

/-- A child task of a body ends with `SystemExit` while a second submission waits for its
    start: the loop is left with both. -/
def childExits : List SlotEvent :=
  [.submit none 0 .body none, .runGeneration 0, .queueTaken 0, .loopStep 0, .loopStep 0,
    .createTask 0 (some (0, false)), .loopStep 0, .submit (some 0) 1 .body none, .endTask 1,
    .exit 0]

/-- At the end of `childExits` the generation is closed with three reservations, and the
    second submission has not been started. -/
theorem generation_closed_reserved :
    ∃ s, slotSystem.run {} childExits = some s ∧ slotSystem.Reachable s ∧
      (s.generations 0).state = .closed ∧ s.reservations 0 = 3 ∧ s.starts 1 = 0 ∧
      ¬ GenerationLifecycle s := by
  refine ⟨_, rfl, System.reachable_of_run childExits rfl rfl, rfl, rfl, ?_, fun h => ?_⟩
  · decide
  · exact absurd (h.unreserved 0 (Or.inr rfl)) (by decide)

end SlotState

end AgentlyStage
