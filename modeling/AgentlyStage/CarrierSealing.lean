import AgentlyStage.CarrierLedger

/-!
# Sealing a generation

A generation that seals while its loop runs holds no reservation and takes none, whatever
is still queued on the loop.  So while anything is reserved a running loop is open, and the
task factory does not refuse the root task of a submission.

Before its loop runs a generation may seal and be reserved again: `_reserve_locked` does
not look at the state of `_next`, and `_run_generation` opens whatever is reserved.
-/

namespace AgentlyStage

open Transition

namespace SlotState

variable {s s' : SlotState} {g k h n t : Nat}

/-! ## 1. One generation -/

/-- `posted`: a release has left the lock and is about to seal the loop. -/
structure GenerationSealed (G : Generation) (posted : Prop) : Prop where
  due : G.sealEvent = true ∨ G.sealsOnRun = true ∨ .setSeal ∈ G.ready ∨ posted →
    G.state.admits = false ∧ (G.running = true ∨ G.state = .closed)
  idle : G.running = true → G.state.admits = false → G.reservations = 0
  opened : G.running = true → G.state.admits = true → G.state = .opened

structure Sealing (s : SlotState) : Prop where
  generation : ∀ g, GenerationSealed (s.generations g) (g ∈ s.sealPosts)
  /-- The control worker has one generation after the other. -/
  next_waits : ∀ g, s.next = some g →
    (s.generations g).running = false ∧ s.current ≠ some g

/-- What is due, the posts apart. -/
theorem Sealing.due_of (hs : Sealing s) {posted : Prop} (hposted : posted → g ∈ s.sealPosts) :
    (s.generations g).sealEvent = true ∨ (s.generations g).sealsOnRun = true ∨
      .setSeal ∈ (s.generations g).ready ∨ posted →
    (s.generations g).state.admits = false ∧
      ((s.generations g).running = true ∨ (s.generations g).state = .closed) := by
  rintro (h | h | h | h)
  · exact (hs.generation g).due (Or.inl h)
  · exact (hs.generation g).due (Or.inr (Or.inl h))
  · exact (hs.generation g).due (Or.inr (Or.inr (Or.inl h)))
  · exact (hs.generation g).due (Or.inr (Or.inr (Or.inr (hposted h))))

/-- The rule of the steps: one generation is rewritten, and only it may be posted. -/
theorem Sealing.of (hs : Sealing s) {G : Generation}
    (hgens : ∀ k, s'.generations k = if k = g then G else s.generations k)
    (hposts : ∀ k, k ≠ g → k ∈ s'.sealPosts → k ∈ s.sealPosts)
    (hslots : s'.current = s.current ∧ s'.next = s.next)
    (hrun : s.next = some g → G.running = false)
    (hG : GenerationSealed G (g ∈ s'.sealPosts)) : Sealing s' := by
  constructor
  · intro k
    rw [hgens]
    by_cases hk : k = g
    · subst hk
      rw [if_pos rfl]
      exact hG
    · rw [if_neg hk]
      exact ⟨hs.due_of (hposts k hk), (hs.generation k).idle, (hs.generation k).opened⟩
  · intro k hk
    rw [hslots.1]
    rw [hslots.2] at hk
    rw [hgens]
    refine ⟨?_, (hs.next_waits k hk).2⟩
    split
    · rename_i hkg
      subst hkg
      exact hrun hk
    · exact (hs.next_waits k hk).1

theorem Sealing.congr (hs : Sealing s) (hgens : s'.generations = s.generations)
    (hposts : ∀ k, k ∈ s'.sealPosts → k ∈ s.sealPosts)
    (hslots : s'.current = s.current ∧ s'.next = s.next) : Sealing s' := by
  constructor
  · intro k
    rw [hgens]
    exact ⟨hs.due_of (hposts k), (hs.generation k).idle, (hs.generation k).opened⟩
  · rw [hgens, hslots.1, hslots.2]
    exact hs.next_waits

/-- Rewriting a generation in what is neither its state nor its counter. -/
theorem Sealing.rewrite (hs : Sealing s) {G : Generation}
    (hgens : s'.generations = (s.setGeneration g G).generations)
    (hposts : ∀ k, k ∈ s'.sealPosts → k ∈ s.sealPosts)
    (hslots : s'.current = s.current ∧ s'.next = s.next)
    (hstate : G.state = (s.generations g).state)
    (hres : G.reservations = (s.generations g).reservations)
    (hrun : G.running = (s.generations g).running)
    (hdue : G.sealEvent = true ∨ G.sealsOnRun = true ∨ .setSeal ∈ G.ready →
      (s.generations g).state.admits = false ∧
        ((s.generations g).running = true ∨ (s.generations g).state = .closed)) :
    Sealing s' := by
  apply hs.of (g := g) (G := G)
  · intro k
    rw [hgens]
    exact generations_setGeneration s g k G
  · exact fun k _ hk => hposts k hk
  · exact hslots
  · intro hnext
    rw [hrun]
    exact (hs.next_waits g hnext).1
  · constructor
    · rw [hstate, hrun]
      rintro (h | h | h | h)
      · exact hdue (Or.inl h)
      · exact hdue (Or.inr (Or.inl h))
      · exact hdue (Or.inr (Or.inr h))
      · exact (hs.generation g).due (Or.inr (Or.inr (Or.inr (hposts g h))))
    · rw [hstate, hrun, hres]
      exact (hs.generation g).idle
    · rw [hstate, hrun]
      exact (hs.generation g).opened

/-- The seal is queued only on a loop that seals already. -/
theorem Sealing.callSoon (hs : Sealing s) {call : CarrierCall}
    (hcall : call = .setSeal → (s.generations g).state.admits = false ∧
      ((s.generations g).running = true ∨ (s.generations g).state = .closed)) :
    Sealing (s.callSoon g call) := by
  apply hs.rewrite (g := g) (G := { s.generations g with
    ready := (s.generations g).ready ++ [call] })
  · rfl
  · exact fun _ hk => hk
  · exact ⟨rfl, rfl⟩
  · rfl
  · rfl
  · rfl
  · rintro (h | h | h)
    · exact (hs.generation g).due (Or.inl h)
    · exact (hs.generation g).due (Or.inr (Or.inl h))
    · rcases List.mem_append.mp h with h | h
      · exact (hs.generation g).due (Or.inr (Or.inr (Or.inl h)))
      · exact hcall (List.mem_singleton.mp h).symm

/-! ## 2. Reservations -/

theorem Sealing.addReservation (hs : Sealing s)
    (hadmits : (s.generations g).running = true → (s.generations g).state.admits = true) :
    Sealing (s.addReservation g) := by
  apply hs.of (generations_setGeneration s g · _)
  · exact fun _ _ hk => hk
  · exact ⟨rfl, rfl⟩
  · exact fun hnext => (hs.next_waits g hnext).1
  · constructor
    · exact (hs.generation g).due
    · intro hrun hsealed
      rw [hadmits hrun] at hsealed
      cases hsealed
    · exact (hs.generation g).opened

theorem mem_sealPosts_releaseReservation (hk : k ∈ (s.releaseReservation g).sealPosts) :
    k ∈ s.sealPosts ∨
      (k = g ∧ s.reservations g = 1 ∧ (s.generations g).running = true) := by
  unfold SlotState.releaseReservation at hk
  dsimp only at hk
  split at hk
  · rename_i hlast
    rcases List.mem_append.mp hk with hk | hk
    · exact Or.inl hk
    · exact Or.inr ⟨List.mem_singleton.mp hk, hlast⟩
  · exact Or.inl hk

/-- The last release seals, so what it posts is sealed. -/
theorem Sealing.releaseReservation (hs : Sealing s) (g : Nat) :
    Sealing (s.releaseReservation g) := by
  apply hs.of (generations_releaseReservation s g)
  · intro k hkg hk
    rcases mem_sealPosts_releaseReservation hk with hk | ⟨hk, -⟩
    · exact hk
    · exact absurd hk hkg
  · exact ⟨rfl, rfl⟩
  · exact fun hnext => (hs.next_waits g hnext).1
  · constructor
    · intro hdue
      dsimp only
      have hcases : ((s.generations g).state.admits = false ∧
            ((s.generations g).running = true ∨ (s.generations g).state = .closed)) ∨
          (s.reservations g = 1 ∧ (s.generations g).running = true) := by
        rcases hdue with h | h | h | h
        · exact Or.inl ((hs.generation g).due (Or.inl h))
        · exact Or.inl ((hs.generation g).due (Or.inr (Or.inl h)))
        · exact Or.inl ((hs.generation g).due (Or.inr (Or.inr (Or.inl h))))
        · rcases mem_sealPosts_releaseReservation h with h | ⟨-, h⟩
          · exact Or.inl ((hs.generation g).due (Or.inr (Or.inr (Or.inr h))))
          · exact Or.inr h
      rcases hcases with ⟨hsealed, hstarted⟩ | ⟨hlast, hrun⟩
      · rw [if_neg (by simp [hsealed])]
        exact ⟨hsealed, hstarted⟩
      · refine ⟨?_, Or.inl hrun⟩
        split
        · rfl
        · rename_i hopen
          by_contra hadmits
          exact hopen ⟨hlast, by simpa using hadmits⟩
    · intro hrun hsealed
      dsimp only at hsealed ⊢
      split at hsealed
      · rename_i hlast
        rw [hlast.1]
      · rw [show s.reservations g = 0 from (hs.generation g).idle hrun hsealed]
    · intro hrun hadmits
      dsimp only at hadmits ⊢
      split at hadmits
      · cases hadmits
      · rename_i hopen
        rw [if_neg hopen]
        exact (hs.generation g).opened hrun hadmits

/-- A running generation that `_reserve_locked` selects takes reservations. -/
theorem Sealing.reserveLocked (hs : Sealing s) (hslot : SlotInv s) {preferred : Option Nat}
    (h : s.reserveLocked preferred = .ok (g, s')) : Sealing s' := by
  have hcreate : ∀ (asNext : Bool) (u : SlotState), (asNext = false → s.current = none) →
      s.createGenerationLocked asNext = .ok (g, u) →
      Sealing u ∧ ((u.generations g).running = true → (u.generations g).state.admits = true) := by
    intro asNext u hcurrent hc
    have hu := hslot.createGenerationLocked hc
    unfold SlotState.createGenerationLocked at hc
    split at hc
    · cases hc
      have hstopped : (s.generations s.generationCount).running = false := by
        rw [hslot.fresh _ (Nat.le_refl _)]
      refine ⟨⟨fun k => ?_, fun k hk => ?_⟩, fun hrun => ?_⟩
      · rw [hu.generations]
        exact hs.generation k
      · rw [hu.generations]
        cases asNext with
        | true =>
          cases hk
          refine ⟨hstopped, fun hk => ?_⟩
          exact absurd (hslot.slots _ (Or.inl hk)) (Nat.lt_irrefl _)
        | false =>
          refine ⟨(hs.next_waits k hk).1, fun hkc => ?_⟩
          cases hkc
          exact absurd (hslot.slots _ (Or.inr hk)) (Nat.lt_irrefl _)
      · rw [hu.generations, hstopped] at hrun
        cases hrun
    · cases hc
  have hselect : ∀ u, s.selectGenerationLocked preferred = .ok (g, u) →
      Sealing u ∧ ((u.generations g).running = true → (u.generations g).state.admits = true) := by
    intro u hselect
    cases preferred with
    | some p =>
      simp only [SlotState.selectGenerationLocked] at hselect
      split at hselect
      · cases hselect
      · split at hselect
        · rename_i hadmits
          cases hselect
          exact ⟨hs, fun _ => hadmits⟩
        · cases hselect
    | none =>
      simp only [SlotState.selectGenerationLocked] at hselect
      split at hselect
      · rename_i hcurrent
        exact hcreate false u (fun _ => hcurrent) hselect
      · split at hselect
        · rename_i hadmits
          cases hselect
          exact ⟨hs, fun _ => hadmits⟩
        · split at hselect
          · rename_i m hm
            cases hselect
            refine ⟨hs, fun hrun => ?_⟩
            rw [(hs.next_waits _ hm).1] at hrun
            cases hrun
          · exact hcreate true u (fun h => by cases h) hselect
  unfold SlotState.reserveLocked at h
  split at h
  · rename_i u hchosen
    cases h
    obtain ⟨hu, hadmits⟩ := hselect _ hchosen
    exact hu.addReservation hadmits
  · cases h

/-! ## 3. Submissions and tasks -/

theorem Sealing.submit (hs : Sealing s) (hslot : SlotInv s) {preferred : Option Nat}
    {phase : WorkPhase} {context : Option ExecutionContext} :
    Sealing (s.submit preferred h phase context) := by
  unfold SlotState.submit
  split
  · exact hs
  · rename_i g u hreserve
    have hadded : Sealing ((u.retainWork h).addSubmission
        ⟨h, g, phase, context, none, false, false⟩) :=
      (hs.reserveLocked hslot hreserve).congr rfl (fun _ hk => hk) ⟨rfl, rfl⟩
    unfold deliver
    split
    · exact hadded.callSoon (by simp)
    · refine hadded.rewrite rfl (fun _ hk => hk) ⟨rfl, rfl⟩ rfl rfl rfl ?_
      exact fun hdue => (hadded.generation g).due (by tauto)

/-- The task factory retains only on an open loop. -/
theorem Sealing.taskFactory (hs : Sealing s) {context : Option ExecutionContext}
    {root : Option Nat} (hfactory : s.taskFactory g context root = .ok s') : Sealing s' := by
  have hplain : Sealing (s.callSoon g (.firstStep s.tasks.length)) := hs.callSoon (by simp)
  unfold SlotState.taskFactory at hfactory
  dsimp only at hfactory
  split at hfactory
  · rename_i x
    split at hfactory
    · split at hfactory
      · cases hfactory
      · rename_i u hretain
        cases hfactory
        unfold retainReservation at hretain
        split at hretain
        · rename_i hstate
          cases hretain
          have hreserved : Sealing (s.addReservation g) := by
            apply hs.addReservation
            intro _
            rcases hstate with hstate | hstate
            · rw [hstate]
              rfl
            · rw [hstate]
              rfl
          have hretained : Sealing ((s.addReservation g).retainWork x.handle) :=
            hreserved.congr rfl (fun _ hk => hk) ⟨rfl, rfl⟩
          have hqueued : Sealing (((s.addReservation g).retainWork x.handle).callSoon g
              (.firstStep s.tasks.length)) := hretained.callSoon (by simp)
          exact hqueued.congr rfl (fun _ hk => hk) ⟨rfl, rfl⟩
        · cases hretain
    · cases hfactory
      exact hplain.congr rfl (fun _ hk => hk) ⟨rfl, rfl⟩
  · cases hfactory
    exact hplain.congr rfl (fun _ hk => hk) ⟨rfl, rfl⟩

theorem Sealing.startSubmission (hs : Sealing s) : Sealing (s.startSubmission g n) := by
  unfold SlotState.startSubmission
  split
  · exact hs
  · split
    · exact hs
    · rename_i u hfactory
      exact (hs.taskFactory hfactory).congr rfl (fun _ hk => hk) ⟨rfl, rfl⟩

theorem Sealing.completeTask (hs : Sealing s) {task : CarrierTask} :
    Sealing (s.completeTask t task) := by
  have hset : Sealing { s with tasks := s.tasks.set t { task with done := true } } :=
    hs.congr rfl (fun _ hk => hk) ⟨rfl, rfl⟩
  unfold SlotState.completeTask
  dsimp only
  split
  · exact hset.callSoon (by simp)
  · exact hset

theorem Sealing.firstStep (hs : Sealing s) : Sealing (s.firstStep t) := by
  unfold SlotState.firstStep
  split
  · exact hs
  · split
    · exact hs.completeTask
    · dsimp only
      split
      · unfold SlotState.beginSubmission
        split
        · exact hs.congr rfl (fun _ hk => hk) ⟨rfl, rfl⟩
        · dsimp only
          split
          · exact hs.congr rfl (fun _ hk => hk) ⟨rfl, rfl⟩
          · exact hs.congr rfl (fun _ hk => hk) ⟨rfl, rfl⟩
      · exact hs.congr rfl (fun _ hk => hk) ⟨rfl, rfl⟩

theorem Sealing.finishSubmission (hs : Sealing s) : Sealing (s.finishSubmission n) := by
  unfold SlotState.finishSubmission
  split
  · exact hs
  · rename_i submission _
    have hreleased := hs.releaseReservation submission.generation
    exact hreleased.congr rfl (fun _ hk => hk) ⟨rfl, rfl⟩

theorem Sealing.descendantDone (hs : Sealing s) : Sealing (s.descendantDone t) := by
  unfold SlotState.descendantDone
  split
  · rename_i task _
    split
    · have hreleased := hs.releaseReservation task.generation
      exact hreleased.congr rfl (fun _ hk => hk) ⟨rfl, rfl⟩
    · exact hs
  · exact hs

theorem Sealing.cancelTasks (hs : Sealing s) (tasks : List Nat) :
    Sealing (s.cancelTasks tasks) := by
  unfold SlotState.cancelTasks
  induction tasks generalizing s with
  | nil => exact hs
  | cons t tasks ih =>
    apply ih
    unfold SlotState.cancelTask
    split
    · split
      · exact hs
      · exact hs.congr rfl (fun _ hk => hk) ⟨rfl, rfl⟩
    · exact hs

theorem Sealing.cancel (hs : Sealing s) (h : Nat) : Sealing (s.cancel h) := by
  have hrequested : Sealing (s.setHandle h { s.handles h with cancelRequested := true }) :=
    hs.congr rfl (fun _ hk => hk) ⟨rfl, rfl⟩
  unfold SlotState.cancel
  dsimp only
  split
  · split
    · exact hrequested.callSoon (by simp)
    · exact hrequested
  · exact hrequested

/-! ## 4. Every step -/

theorem Sealing.runGeneration (hs : Sealing s) (hcurrent : s.current = some g)
    (hstopped : (s.generations g).running = false)
    (hopen : (s.generations g).state ≠ .closed) : Sealing (s.runGeneration g) := by
  apply hs.of (generations_setGeneration s g · _)
  · exact fun _ _ hk => hk
  · exact ⟨rfl, rfl⟩
  · intro hnext
    exact absurd hcurrent (hs.next_waits g hnext).2
  · have hnone : ∀ {p : Prop}, (p → (s.generations g).sealEvent = true ∨
        (s.generations g).sealsOnRun = true ∨ .setSeal ∈ (s.generations g).ready ∨
        g ∈ s.sealPosts) → ¬ p := by
      intro p hp hholds
      rcases ((hs.generation g).due (hp hholds)).2 with h | h
      · rw [hstopped] at h
        cases h
      · exact hopen h
    constructor
    · rintro (h | h | h | h)
      · exact absurd h (hnone Or.inl)
      · dsimp only at h ⊢
        rw [if_pos (of_decide_eq_true h)]
        exact ⟨rfl, Or.inl rfl⟩
      · exact absurd h (hnone fun h => Or.inr (Or.inr (Or.inl h)))
      · exact absurd h (hnone fun h => Or.inr (Or.inr (Or.inr h)))
    · intro _ hsealed
      dsimp only at hsealed
      split at hsealed
      · assumption
      · cases hsealed
    · intro _ hadmits
      dsimp only at hadmits ⊢
      split at hadmits
      · cases hadmits
      · rename_i hne
        rw [if_neg hne]

theorem Sealing.queueTaken (hs : Sealing s) (hstep : s.queueTaken g = some s') :
    Sealing s' := by
  unfold SlotState.queueTaken at hstep
  split at hstep
  · cases hstep
    apply Sealing.callSoon ?_ (by simp)
    exact hs.rewrite rfl (fun _ hk => hk) ⟨rfl, rfl⟩ rfl rfl rfl
      fun hdue => (hs.generation g).due (by tauto)
  · split at hstep
    · rename_i hseals
      cases hstep
      have hdue := (hs.generation g).due (Or.inr (Or.inl hseals))
      apply Sealing.callSoon
      · exact hs.rewrite rfl (fun _ hk => hk) ⟨rfl, rfl⟩ rfl rfl rfl fun _ => hdue
      · intro _
        rw [generations_setGeneration, if_pos rfl]
        exact hdue
    · cases hstep

theorem Sealing.pop (hs : Sealing s) {call : CarrierCall} {rest : List CarrierCall}
    (hready : (s.generations g).ready = call :: rest) :
    Sealing (s.setGeneration g { s.generations g with ready := rest }) := by
  refine hs.rewrite rfl (fun _ hk => hk) ⟨rfl, rfl⟩ rfl rfl rfl fun hdue => ?_
  rcases hdue with h | h | h
  · exact (hs.generation g).due (Or.inl h)
  · exact (hs.generation g).due (Or.inr (Or.inl h))
  · apply (hs.generation g).due
    rw [hready]
    exact Or.inr (Or.inr (Or.inl (List.mem_cons_of_mem _ h)))

theorem Sealing.loopStep (hs : Sealing s) (hstep : s.loopStep g = some s') : Sealing s' := by
  unfold SlotState.loopStep at hstep
  split at hstep
  · cases hstep
  · rename_i call rest hready
    cases hstep
    have hpop := hs.pop hready
    cases call with
    | startSubmission n => exact hpop.startSubmission
    | firstStep t => exact hpop.firstStep
    | cancelTasks tasks => exact hpop.cancelTasks tasks
    | descendantDone t => exact hpop.descendantDone
    | setSeal =>
      refine hpop.rewrite rfl (fun _ hk => hk) ⟨rfl, rfl⟩ rfl rfl rfl fun _ => ?_
      rw [generations_setGeneration, if_pos rfl]
      apply (hs.generation g).due
      rw [hready]
      exact Or.inr (Or.inr (Or.inl List.mem_cons_self))

theorem Sealing.close (hs : Sealing s) : Sealing (s.closeGeneration g) := by
  have hgens : ∀ k, (s.closeGeneration g).generations k =
      if k = g then { s.generations g with running := false, state := .closed }
      else s.generations k := fun k => generations_setGeneration s g k _
  constructor
  · intro k
    rw [hgens]
    split
    · rename_i hk
      subst hk
      constructor
      · exact fun _ => ⟨rfl, Or.inr rfl⟩
      · intro hrun
        cases hrun
      · intro hrun
        cases hrun
    · exact hs.generation k
  · intro k hk
    rw [hgens]
    unfold closeGeneration at hk ⊢
    dsimp only at hk ⊢
    split at hk
    · cases hk
    · rename_i hcurrent
      rw [if_neg hcurrent]
      refine ⟨?_, (hs.next_waits k hk).2⟩
      split
      · rfl
      · exact (hs.next_waits k hk).1

/-- **Step lemma of sealing.** -/
theorem Sealing.step {e : SlotEvent} (hs : Sealing s) (hslot : SlotInv s)
    (hstep : s.step e = some s') : Sealing s' := by
  cases stepped hstep with
  | submit preferred h phase context hexists hbody =>
    exact hs.submit hslot
  | @acquireLease u preferred g hreserve =>
    exact (hs.reserveLocked hslot hreserve).congr rfl (fun _ hk => hk) ⟨rfl, rfl⟩
  | leaseRefused preferred =>
    exact hs
  | releaseLease g hheld =>
    exact (hs.releaseReservation g).congr rfl (fun _ hk => hk) ⟨rfl, rfl⟩
  | postSeal g hposted =>
    have herased : Sealing { s with sealPosts := s.sealPosts.erase g } :=
      hs.congr rfl (fun _ hk => List.mem_of_mem_erase hk) ⟨rfl, rfl⟩
    split
    · exact herased.callSoon fun _ => (hs.generation g).due (Or.inr (Or.inr (Or.inr hposted)))
    · exact herased
  | runGeneration g hcurrent hstopped hopen =>
    exact hs.runGeneration hcurrent hstopped hopen
  | queueTaken g hrun htaken =>
    exact hs.queueTaken htaken
  | loopStep g hfree hloop =>
    exact hs.loopStep hloop
  | createTask g context hfree hfactory =>
    exact hs.taskFactory hfactory
  | taskRefused g context =>
    exact hs
  | endTask t task ht hbegun hdone hfree =>
    unfold SlotState.endTask
    split
    · exact hs.finishSubmission.completeTask
    · exact hs.completeTask
  | cancel h =>
    exact hs.cancel h
  | drain g hfree hseal =>
    have hsealed := ((hs.generation g).due (Or.inl hseal)).1
    have hrun := running_of_loopFree hfree
    apply hs.of (generations_setGeneration s g · _)
    · exact fun _ _ hk => hk
    · exact ⟨rfl, rfl⟩
    · exact fun hnext => (hs.next_waits g hnext).1
    · constructor
      · exact fun _ => ⟨rfl, Or.inl hrun⟩
      · exact fun _ _ => (hs.generation g).idle hrun hsealed
      · intro _ hadmits
        cases hadmits
  | close g hfree _ | exit g hfree =>
    exact hs.close
  | shutdown =>
    exact hs.congr rfl (fun _ hk => hk) ⟨rfl, rfl⟩

theorem sealing_initial : Sealing {} := by
  refine ⟨fun g => ⟨?_, ?_, ?_⟩, fun g hg => ?_⟩
  · rintro (h | h | h | h)
    · cases h
    · cases h
    · cases h
    · cases h
  · intro hrun
    cases hrun
  · intro hrun
    cases hrun
  · cases hg

theorem reachable_sealing {ok : SlotState → SlotEvent → Prop}
    (hs : slotSystem.ReachUnder ok s) : Sealing s := by
  apply hs.invariant_of (I := Sealing) (J := SlotInv)
  · exact fun _ ht => reachable_slotInv ht
  · rintro _ rfl
    exact sealing_initial
  · intro t e t' hslot ht _ hstep
    exact ht.step hslot hstep

/-! ## 5. What is reserved is open -/

/-- **While anything is reserved a running loop is open.** -/
theorem Sealing.opened_of_reserved (hs : Sealing s) (hrun : (s.generations g).running = true)
    (hres : 0 < s.reservations g) : (s.generations g).state = .opened := by
  apply (hs.generation g).opened hrun
  by_contra hsealed
  rw [SlotState.reservations, (hs.generation g).idle hrun (by simpa using hsealed)] at hres
  exact Nat.lt_irrefl 0 hres

/-- **The factory does not refuse while anything is reserved.** -/
theorem Sealing.taskFactory_ok (hs : Sealing s) (hrun : (s.generations g).running = true)
    (hres : 0 < s.reservations g) (context : Option ExecutionContext) (root : Option Nat) :
    ∃ u, s.taskFactory g context root = .ok u := by
  have hretain : s.retainReservation g = .ok (s.addReservation g) := by
    unfold retainReservation
    rw [if_pos (Or.inr (hs.opened_of_reserved hrun hres))]
  unfold SlotState.taskFactory
  dsimp only
  split
  · split
    · rw [hretain]
      exact ⟨_, rfl⟩
    · exact ⟨_, rfl⟩
  · exact ⟨_, rfl⟩

end SlotState

end AgentlyStage
