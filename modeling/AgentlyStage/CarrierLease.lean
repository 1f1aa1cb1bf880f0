import AgentlyStage.CarrierLifecycle

/-!
# Leases of a carrier slot

`Stage._resolve_backend_locked` leases a generation and pins the submissions of the Stage to it.
A lease is usable as long as `_reserve_locked` takes its generation as the preferred one, which it
does in the states `QUEUED`, `STARTING` and `OPEN`.  A reserved generation is in one of these,
unless it has been sealed before the worker came to it and has been reserved again after that,
or the worker has left its loop by an exception.
-/

namespace AgentlyStage

open Transition

namespace SlotState

variable {s s' s'' : SlotState} {g h k n t : Nat}

/-! ## 1. What a step does to the states of the generations -/

structure SameAdmission (s s' : SlotState) : Prop where
  running : ∀ k, (s'.generations k).running = (s.generations k).running
  state : ∀ k, (s'.generations k).state = (s.generations k).state
  reservations : ∀ k, s'.reservations k = s.reservations k
  leases : s'.leases = s.leases

theorem SameAdmission.refl (s : SlotState) : SameAdmission s s :=
  ⟨fun _ => rfl, fun _ => rfl, fun _ => rfl, rfl⟩

theorem SameAdmission.trans (h : SameAdmission s s') (h' : SameAdmission s' s'') :
    SameAdmission s s'' where
  running k := (h'.running k).trans (h.running k)
  state k := (h'.state k).trans (h.state k)
  reservations k := (h'.reservations k).trans (h.reservations k)
  leases := h'.leases.trans h.leases

theorem sameAdmission_of_eq (hgens : s'.generations = s.generations)
    (hleases : s'.leases = s.leases) : SameAdmission s s' := by
  refine ⟨fun k => ?_, fun k => ?_, fun k => ?_, hleases⟩
  · rw [hgens]
  · rw [hgens]
  · rw [SlotState.reservations, hgens]
    rfl

theorem sameAdmission_setGeneration {G : Generation}
    (hrun : G.running = (s.generations g).running) (hstate : G.state = (s.generations g).state)
    (hres : G.reservations = s.reservations g) : SameAdmission s (s.setGeneration g G) := by
  refine ⟨fun k => ?_, fun k => ?_, fun k => ?_, rfl⟩
  · rw [generations_setGeneration]
    split
    · rename_i hk
      rw [hk, hrun]
    · rfl
  · rw [generations_setGeneration]
    split
    · rename_i hk
      rw [hk, hstate]
    · rfl
  · rw [SlotState.reservations, generations_setGeneration]
    split
    · rename_i hk
      rw [hk, hres]
    · rfl

theorem sameAdmission_callSoon (s : SlotState) (g : Nat) (call : CarrierCall) :
    SameAdmission s (s.callSoon g call) :=
  sameAdmission_setGeneration rfl rfl rfl

theorem sameAdmission_completeTask (s : SlotState) (t : Nat) (task : CarrierTask) :
    SameAdmission s (s.completeTask t task) := by
  have hset : SameAdmission s { s with tasks := s.tasks.set t { task with done := true } } :=
    sameAdmission_of_eq rfl rfl
  unfold SlotState.completeTask
  dsimp only
  split
  · exact hset.trans (sameAdmission_callSoon _ _ _)
  · exact hset

theorem sameAdmission_beginSubmission (s : SlotState) (t n : Nat) :
    SameAdmission s (s.beginSubmission t n) := by
  unfold SlotState.beginSubmission
  split
  · exact .refl s
  · dsimp only
    split
    · exact sameAdmission_of_eq rfl rfl
    · exact sameAdmission_of_eq rfl rfl

theorem sameAdmission_firstStep (s : SlotState) (t : Nat) : SameAdmission s (s.firstStep t) := by
  unfold SlotState.firstStep
  split
  · exact .refl s
  · rename_i task _
    split
    · exact sameAdmission_completeTask s t task
    · have hset : SameAdmission s { s with
          tasks := s.tasks.set t { task with begun := true } } := sameAdmission_of_eq rfl rfl
      dsimp only
      split
      · exact hset.trans (sameAdmission_beginSubmission _ t _)
      · exact hset

theorem sameAdmission_cancelTasks (s : SlotState) (tasks : List Nat) :
    SameAdmission s (s.cancelTasks tasks) := by
  unfold SlotState.cancelTasks
  induction tasks generalizing s with
  | nil => exact .refl s
  | cons t tasks ih =>
    rw [List.foldl_cons]
    refine SameAdmission.trans ?_ (ih _)
    unfold SlotState.cancelTask
    split
    · split
      · exact .refl s
      · exact sameAdmission_of_eq rfl rfl
    · exact .refl s

theorem sameAdmission_cancel (s : SlotState) (h : Nat) : SameAdmission s (s.cancel h) := by
  have hset : SameAdmission s (s.setHandle h { s.handles h with cancelRequested := true }) :=
    sameAdmission_of_eq rfl rfl
  unfold SlotState.cancel
  dsimp only
  split
  · split
    · exact hset.trans (sameAdmission_callSoon _ _ _)
    · exact hset
  · exact hset

/-- What the step seals is not reserved. -/
structure SealsEmpty (s s' : SlotState) : Prop where
  running : ∀ k, (s'.generations k).running = (s.generations k).running
  state : ∀ k, (s'.generations k).state = (s.generations k).state ∨ s'.reservations k = 0
  leases : ∀ k, s'.leases k ≤ s.leases k

theorem SameAdmission.sealsEmpty (hs : SameAdmission s s') : SealsEmpty s s' :=
  ⟨hs.running, fun k => Or.inl (hs.state k), fun k => Nat.le_of_eq (congrFun hs.leases k)⟩

theorem SealsEmpty.after (hs : SameAdmission s s') (he : SealsEmpty s' s'') : SealsEmpty s s'' where
  running k := (he.running k).trans (hs.running k)
  state k := (he.state k).imp_left fun heq => heq.trans (hs.state k)
  leases k := hs.leases ▸ he.leases k

theorem SealsEmpty.before (he : SealsEmpty s s') (hs : SameAdmission s' s'') :
    SealsEmpty s s'' where
  running k := (hs.running k).trans (he.running k)
  state k := (he.state k).imp (hs.state k).trans (hs.reservations k).trans
  leases k := hs.leases ▸ he.leases k

theorem sealsEmpty_releaseReservation (s : SlotState) (g : Nat) :
    SealsEmpty s (s.releaseReservation g) := by
  refine ⟨fun k => ?_, fun k => ?_, fun k => Nat.le_refl _⟩
  · rw [generations_releaseReservation]
    split
    · rename_i hk
      rw [hk]
    · rfl
  · rw [SlotState.reservations, generations_releaseReservation]
    split
    · rename_i hk
      rw [hk]
      by_cases hlast : s.reservations g = 1
      · exact Or.inr (by rw [hlast])
      · exact Or.inl (if_neg fun h => hlast h.1)
    · exact Or.inl rfl

theorem sealsEmpty_addReservation (s : SlotState) (g : Nat) :
    SealsEmpty s (s.addReservation g) := by
  refine ⟨fun k => ?_, fun k => Or.inl ?_, fun k => Nat.le_refl _⟩
  · rw [addReservation, generations_setGeneration]
    split
    · rename_i hk
      rw [hk]
    · rfl
  · rw [addReservation, generations_setGeneration]
    split
    · rename_i hk
      rw [hk]
    · rfl

theorem sealsEmpty_endTask (s : SlotState) (t : Nat) (task : CarrierTask) :
    SealsEmpty s (s.endTask t task) := by
  unfold SlotState.endTask
  split
  · rename_i n _
    refine SealsEmpty.before ?_ (sameAdmission_completeTask _ t task)
    unfold SlotState.finishSubmission
    split
    · exact (SameAdmission.refl s).sealsEmpty
    · rename_i submission _
      have hset : SameAdmission s { s with
          submissions := s.submissions.set n { submission with released := true } } :=
        sameAdmission_of_eq rfl rfl
      exact (SealsEmpty.after hset (sealsEmpty_releaseReservation _ _)).before
        (sameAdmission_of_eq rfl rfl)
  · exact (sameAdmission_completeTask s t task).sealsEmpty

theorem sealsEmpty_descendantDone (s : SlotState) (t : Nat) :
    SealsEmpty s (s.descendantDone t) := by
  unfold SlotState.descendantDone
  split
  · rename_i task _
    split
    · have hset : SameAdmission s { s with
          tasks := s.tasks.set t { task with released := true } } := sameAdmission_of_eq rfl rfl
      exact (SealsEmpty.after hset (sealsEmpty_releaseReservation _ _)).before
        (sameAdmission_of_eq rfl rfl)
    · exact (SameAdmission.refl s).sealsEmpty
  · exact (SameAdmission.refl s).sealsEmpty

theorem sealsEmpty_factory {context : Option ExecutionContext} {root : Option Nat}
    (h : s.taskFactory g context root = .ok s') : SealsEmpty s s' := by
  have hu := taskFactory_effect h
  refine ⟨fun k => ?_, fun k => Or.inl ?_, fun k => Nat.le_of_eq (congrFun hu.leases k)⟩
  · rw [hu.generations]
    split
    · rename_i hk
      rw [hk]
    · rfl
  · rw [hu.generations]
    split
    · rename_i hk
      rw [hk]
    · rfl

theorem sealsEmpty_startSubmission (s : SlotState) (g n : Nat) :
    SealsEmpty s (s.startSubmission g n) := by
  unfold SlotState.startSubmission
  split
  · exact (SameAdmission.refl s).sealsEmpty
  · split
    · exact (SameAdmission.refl s).sealsEmpty
    · rename_i hfactory
      exact (sealsEmpty_factory hfactory).before (sameAdmission_of_eq rfl rfl)

theorem sealsEmpty_loopStep (hstep : s.loopStep g = some s') : SealsEmpty s s' := by
  unfold SlotState.loopStep at hstep
  split at hstep
  · cases hstep
  · rename_i call rest hready
    cases hstep
    have hpop : SameAdmission s (s.setGeneration g { s.generations g with ready := rest }) :=
      sameAdmission_setGeneration rfl rfl rfl
    cases call with
    | startSubmission n => exact .after hpop (sealsEmpty_startSubmission _ g n)
    | firstStep t => exact (hpop.trans (sameAdmission_firstStep _ t)).sealsEmpty
    | cancelTasks tasks => exact (hpop.trans (sameAdmission_cancelTasks _ tasks)).sealsEmpty
    | descendantDone t => exact .after hpop (sealsEmpty_descendantDone _ t)
    | setSeal =>
      have hseal : SameAdmission (s.setGeneration g { s.generations g with ready := rest })
          (SlotState.runCall _ g .setSeal) := sameAdmission_setGeneration rfl rfl rfl
      exact (hpop.trans hseal).sealsEmpty

theorem sealsEmpty_submit (hs : SlotInv s) {preferred : Option Nat} {phase : WorkPhase}
    {context : Option ExecutionContext} :
    SealsEmpty s (s.submit preferred h phase context) := by
  unfold SlotState.submit
  split
  · exact (SameAdmission.refl s).sealsEmpty
  · rename_i g v hreserve
    obtain ⟨u, hu, rfl⟩ := hs.reserveLocked hreserve
    have hselect : SameAdmission s u := sameAdmission_of_eq hu.generations hu.leases
    refine SealsEmpty.before (.after hselect (sealsEmpty_addReservation u g)) ?_
    have hadd : SameAdmission (u.addReservation g) (((u.addReservation g).retainWork h).addSubmission
        ⟨h, g, phase, context, none, false, false⟩) := sameAdmission_of_eq rfl rfl
    refine hadd.trans ?_
    unfold SlotState.deliver
    split
    · exact sameAdmission_callSoon _ _ _
    · exact sameAdmission_setGeneration rfl rfl rfl

theorem sameAdmission_queueTaken (hstep : s.queueTaken g = some s') : SameAdmission s s' := by
  unfold SlotState.queueTaken at hstep
  split at hstep
  · rename_i n rest _
    cases hstep
    have htaken : SameAdmission s (s.setGeneration g { s.generations g with taken := rest }) :=
      sameAdmission_setGeneration rfl rfl rfl
    exact htaken.trans (sameAdmission_callSoon _ _ _)
  · split at hstep
    · cases hstep
      have hseals : SameAdmission s (s.setGeneration g { s.generations g with
          sealsOnRun := false }) := sameAdmission_setGeneration rfl rfl rfl
      exact hseals.trans (sameAdmission_callSoon _ _ _)
    · cases hstep

/-! ## 2. Generations that are sealed before they run -/

/-- `_release_reservation` has sealed the generation and its loop does not exist yet. -/
def SealedEarly (s : SlotState) (g : Nat) : Prop :=
  (s.generations g).running = false ∧ (s.generations g).state = .sealing

theorem SealedEarly.before (he : SealsEmpty s s') (hearly : s'.SealedEarly g)
    (hres : 0 < s'.reservations g) : s.SealedEarly g := by
  obtain ⟨hrun, hstate⟩ := hearly
  refine ⟨(he.running g).symm.trans hrun, ?_⟩
  rcases he.state g with heq | hzero
  · exact heq.symm.trans hstate
  · rw [hzero] at hres
    exact absurd hres (Nat.lt_irrefl 0)

/-- A leased generation is reserved. -/
theorem Ledger.reserved_of_leased (hl : Ledger s) (hlease : 0 < s.leases g) :
    0 < s.reservations g := by
  rw [hl.reservations]
  omega

/-- The generation of a lease that the event acquires. -/
def Leases (s : SlotState) (e : SlotEvent) (g : Nat) : Prop :=
  ∃ preferred u, e = .acquireLease preferred ∧ s.reserveLocked preferred = .ok (g, u)

/-- **Step lemma**: a lease has been held before, unless the step acquires one, and a reserved
    generation that is sealed early has been so before. -/
theorem sealedEarly_of_step {e : SlotEvent} (hs : SlotInv s) (hstep : s.step e = some s') :
    (s'.leases g ≤ s.leases g ∨ s.Leases e g) ∧
      (s'.SealedEarly g → 0 < s'.reservations g → s.SealedEarly g) := by
  have hkeeps : SealsEmpty s s' → (s'.leases g ≤ s.leases g ∨ s.Leases e g) ∧
      (s'.SealedEarly g → 0 < s'.reservations g → s.SealedEarly g) :=
    fun he => ⟨Or.inl (he.leases g), fun hearly hres => hearly.before he hres⟩
  -- the worker rewrites a generation, and no other
  have hworker : ∀ (k : Nat) (G : Generation), (G.running = true ∨ G.state ≠ .sealing) →
      s'.generations = (s.setGeneration k G).generations → s'.leases = s.leases →
      (s'.leases g ≤ s.leases g ∨ s.Leases e g) ∧
        (s'.SealedEarly g → 0 < s'.reservations g → s.SealedEarly g) := by
    intro k G hG hgens hleases
    refine ⟨Or.inl (Nat.le_of_eq (congrFun hleases g)), ?_⟩
    rintro ⟨hrun, hstate⟩ -
    rw [hgens, generations_setGeneration] at hrun hstate
    split at hrun
    · rename_i hk
      rw [if_pos hk] at hstate
      rcases hG with hG | hG
      · cases (hG.symm.trans hrun)
      · exact absurd hstate hG
    · rename_i hk
      rw [if_neg hk] at hstate
      exact ⟨hrun, hstate⟩
  cases stepped hstep with
  | submit preferred h phase context hexists hbody =>
    exact hkeeps (sealsEmpty_submit hs)
  | @acquireLease v preferred k hreserve =>
    obtain ⟨u, hu, rfl⟩ := hs.reserveLocked hreserve
    have hselect : SameAdmission s u := sameAdmission_of_eq hu.generations hu.leases
    have hadd : SealsEmpty s (u.addReservation k) :=
      .after hselect (sealsEmpty_addReservation u k)
    refine ⟨?_, fun hearly hres => SealedEarly.before hadd hearly hres⟩
    by_cases hg : g = k
    · subst hg
      exact Or.inr ⟨preferred, _, rfl, hreserve⟩
    · left
      change Function.update (u.addReservation k).leases k _ g ≤ _
      rw [Function.update_of_ne hg]
      exact hadd.leases g
  | leaseRefused preferred =>
    exact hkeeps (SameAdmission.refl _).sealsEmpty
  | releaseLease k hheld =>
    refine hkeeps ⟨(sealsEmpty_releaseReservation _ k).running,
      (sealsEmpty_releaseReservation _ k).state, fun m => ?_⟩
    change Function.update s.leases k _ m ≤ _
    rw [Function.update_apply]
    split
    · rename_i hm
      rw [hm]
      exact Nat.sub_le _ _
    · exact Nat.le_refl _
  | postSeal k hposted =>
    have hset : SameAdmission s { s with sealPosts := s.sealPosts.erase k } :=
      sameAdmission_of_eq rfl rfl
    apply hkeeps
    split
    · exact (hset.trans (sameAdmission_callSoon _ _ _)).sealsEmpty
    · exact hset.sealsEmpty
  | runGeneration k hcurrent hstopped hopen =>
    exact hworker k _ (Or.inl rfl) rfl rfl
  | queueTaken k hrun htaken =>
    exact hkeeps (sameAdmission_queueTaken htaken).sealsEmpty
  | loopStep k hfree hloop =>
    exact hkeeps (sealsEmpty_loopStep hloop)
  | createTask k context hfree hfactory =>
    exact hkeeps (sealsEmpty_factory hfactory)
  | taskRefused k context =>
    exact hkeeps (SameAdmission.refl _).sealsEmpty
  | endTask t task ht hbegun hdone hfree =>
    exact hkeeps (sealsEmpty_endTask s t task)
  | cancel h =>
    exact hkeeps (sameAdmission_cancel s h).sealsEmpty
  | drain k hfree hseal =>
    exact hworker k { s.generations k with state := .draining } (Or.inr fun heq => by cases heq)
      rfl rfl
  | close k hfree _ | exit k hfree =>
    exact hworker k { s.generations k with running := false, state := .closed }
      (Or.inr fun heq => by cases heq) rfl rfl
  | shutdown =>
    have hset : SameAdmission s { s with controlOpen := false } := sameAdmission_of_eq rfl rfl
    exact hkeeps hset.sealsEmpty

/-! ## 3. Usable leases -/

/-- A reservation that prefers the generation gets it. -/
def LeaseUsable (s : SlotState) (g : Nat) : Prop := ∃ u, s.reserveLocked (some g) = .ok (g, u)

/-- The selection without a preference takes a queued generation that does not admit any more. -/
def leasesSealed (s : SlotState) : SlotEvent → Bool
  | .acquireLease none =>
    s.current.any (fun c => !(s.generations c).state.admits) &&
      s.next.any fun n => !(s.generations n).state.admits
  | _ => false

/-- The worker leaves the loop of a leased generation by an exception. -/
def leavesLeased (s : SlotState) : SlotEvent → Bool
  | .exit g => decide (0 < s.leases g)
  | _ => false

theorem admits_of_not_sealedEarly (hl : Lifecycle s) (hse : Sealing s)
    (hres : 0 < s.reservations g) (hopen : (s.generations g).state ≠ .closed)
    (hearly : ¬ s.SealedEarly g) : (s.generations g).state.admits = true := by
  cases hrun : (s.generations g).running with
  | true =>
    rw [hse.opened_of_reserved hrun hres]
    rfl
  | false =>
    cases hstate : (s.generations g).state with
    | queued => rfl
    | starting => rfl
    | opened => rfl
    | sealing => exact absurd ⟨hrun, hstate⟩ hearly
    | draining => exact nomatch hrun.symm.trans (hl.draining g hstate)
    | closed => exact absurd hstate hopen

/-- A reserved generation is in one of the two places of the slot until it closes. -/
theorem Lifecycle.owned_of_reserved (hl : Lifecycle s) (hs : SlotInv s)
    (hres : 0 < s.reservations g) (hopen : (s.generations g).state ≠ .closed) :
    s.current = some g ∨ s.next = some g := by
  rcases hl.kept g (hs.lt_of_reservations hres) with hcurrent | hnext | hclosed
  · exact Or.inl hcurrent
  · exact Or.inr hnext
  · exact absurd hclosed hopen

/-- A closed generation is refused. -/
theorem Lifecycle.reserveLocked_closed (hl : Lifecycle s)
    (hclosed : (s.generations g).state = .closed) : s.reserveLocked (some g) =
      .error (.stageLifecycle "Pinned Stage generation is no longer owned by the carrier") := by
  simp only [SlotState.reserveLocked, SlotState.selectGenerationLocked,
    if_pos (hl.closed g hclosed)]

/-- What a reservation answers that prefers a reserved generation. -/
theorem reserveLocked_some (hl : Lifecycle s) (hs : SlotInv s) (hres : 0 < s.reservations g)
    (hopen : (s.generations g).state ≠ .closed) :
    s.reserveLocked (some g) =
      if (s.generations g).state.admits then .ok (g, s.addReservation g)
      else .error (.stageLifecycle "Pinned Stage generation is already sealing") := by
  have howned : ¬ (s.current ≠ some g ∧ s.next ≠ some g) := by
    rcases hl.owned_of_reserved hs hres hopen with h | h
    · exact fun hne => hne.1 h
    · exact fun hne => hne.2 h
  by_cases hadmits : (s.generations g).state.admits = true
  · simp only [SlotState.reserveLocked, SlotState.selectGenerationLocked, if_neg howned,
      if_pos hadmits]
  · simp only [SlotState.reserveLocked, SlotState.selectGenerationLocked, if_neg howned,
      if_neg hadmits]

/-- **When a held lease is usable.** -/
theorem leaseUsable_iff (hl : Lifecycle s) (hse : Sealing s) (hs : SlotInv s)
    (hlease : 0 < s.leases g) :
    s.LeaseUsable g ↔ ¬ s.SealedEarly g ∧ (s.generations g).state ≠ .closed := by
  have hres := hs.ledger.reserved_of_leased hlease
  by_cases hclosed : (s.generations g).state = .closed
  · rw [LeaseUsable, hl.reserveLocked_closed hclosed]
    constructor
    · rintro ⟨u, hu⟩
      cases hu
    · exact fun hopen => absurd hclosed hopen.2
  · rw [LeaseUsable, reserveLocked_some hl hs hres hclosed]
    constructor
    · rintro ⟨u, hu⟩
      refine ⟨?_, hclosed⟩
      rintro ⟨-, hstate⟩
      rw [hstate] at hu
      cases hu
    · rintro ⟨hearly, hopen⟩
      rw [if_pos (admits_of_not_sealedEarly hl hse hres hopen hearly)]
      exact ⟨_, rfl⟩

theorem submit_of_refused {error : StageError} (hrefused : s.reserveLocked (some g) = .error error)
    (h : Nat) (phase : WorkPhase) (context : Option ExecutionContext) :
    s.submit (some g) h phase context = s := by
  unfold SlotState.submit
  rw [hrefused]

/-- A usable lease takes the submission of a root. -/
theorem LeaseUsable.submit (hu : s.LeaseUsable g) (h : Nat) (phase : WorkPhase)
    (context : Option ExecutionContext) (hs : SlotInv s) :
    (s.submit (some g) h phase context).submissions =
      s.submissions ++ [⟨h, g, phase, context, none, false, false⟩] := by
  obtain ⟨v, hv⟩ := hu
  obtain ⟨u, hsel, rfl⟩ := hs.reserveLocked hv
  have hdeliver : ∀ (w : SlotState) (n : Nat), (w.deliver g n).submissions = w.submissions := by
    intro w n
    unfold SlotState.deliver
    split
    · rfl
    · rfl
  simp only [SlotState.submit, hv, hdeliver]
  exact congrArg (· ++ _) hsel.submissions

/-- An early sealed generation is leased only by the excluded step. -/
theorem Leases.not_sealedEarly {e : SlotEvent} (hlease : s.Leases e g) (hs : SlotInv s)
    (hok : s.leasesSealed e = false) : ¬ s.SealedEarly g := by
  rintro ⟨-, hstate⟩
  have hadmits : (s.generations g).state.admits = false := by
    rw [hstate]
    rfl
  have hfresh : ∀ asNext u, s.createGenerationLocked asNext = .ok (g, u) → False := by
    intro asNext u hu
    unfold SlotState.createGenerationLocked at hu
    split at hu
    · cases hu
      rw [hs.fresh _ (Nat.le_refl _)] at hstate
      cases hstate
    · cases hu
  obtain ⟨preferred, u, rfl, hreserve⟩ := hlease
  unfold SlotState.reserveLocked at hreserve
  split at hreserve
  · rename_i g' v hselect
    cases hreserve
    cases preferred with
    | some p =>
      simp only [SlotState.selectGenerationLocked] at hselect
      split at hselect
      · cases hselect
      · split at hselect
        · rename_i hopen
          cases hselect
          cases (hadmits.symm.trans hopen)
        · cases hselect
    | none =>
      simp only [SlotState.selectGenerationLocked] at hselect
      split at hselect
      · exact hfresh _ _ hselect
      · rename_i c hcurrent
        split at hselect
        · rename_i hopen
          cases hselect
          cases (hadmits.symm.trans hopen)
        · rename_i hclosing
          split at hselect
          · rename_i n hnext
            cases hselect
            simp [leasesSealed, hcurrent, hnext, hadmits, hclosing] at hok
          · exact hfresh _ _ hselect
  · cases hreserve

/-- **The excluded step** leaves a lease that cannot be used. -/
theorem unusable_of_leasesSealed {e : SlotEvent} (hl : Lifecycle s) (hse : Sealing s)
    (hsealed : s.leasesSealed e = true) (hstep : s.step e = some s') :
    ∃ g, s.Leases e g ∧ s'.SealedEarly g ∧ 0 < s'.leases g := by
  unfold leasesSealed at hsealed
  split at hsealed
  · rw [Bool.and_eq_true] at hsealed
    obtain ⟨c, hcurrent, hclosing⟩ := (Option.any_eq_true _ _).mp hsealed.1
    obtain ⟨n, hnext, hadmits⟩ := (Option.any_eq_true _ _).mp hsealed.2
    rw [Bool.not_eq_true'] at hclosing hadmits
    have hreserve : s.reserveLocked none = .ok (n, s.addReservation n) := by
      simp [SlotState.reserveLocked, SlotState.selectGenerationLocked, hcurrent, hclosing, hnext]
    simp only [SlotState.step, hreserve, Option.some.injEq] at hstep
    subst hstep
    have hrun := (hse.next_waits n hnext).1
    have hstate : (s.generations n).state = .sealing := by
      cases hcase : (s.generations n).state with
      | sealing => rfl
      | draining => cases (hrun.symm.trans (hl.draining n hcase))
      | closed => exact absurd hnext (hl.closed n hcase).2
      | _ =>
        rw [hcase] at hadmits
        cases hadmits
    refine ⟨n, ⟨none, _, rfl, hreserve⟩, ?_, ?_⟩
    · have hadd := sealsEmpty_addReservation s n
      constructor
      · exact (hadd.running n).trans hrun
      · change ((s.addReservation n).generations n).state = _
        rw [addReservation, generations_setGeneration, if_pos rfl]
        exact hstate
    · change 0 < Function.update s.leases n _ n
      rw [Function.update_self]
      exact Nat.succ_pos _
  · cases hsealed

theorem reachUnder_leased
    (h : slotSystem.ReachUnder
      (fun s e => s.leasesSealed e = false ∧ s.leavesLeased e = false) s) :
    ∀ g, 0 < s.leases g → ¬ s.SealedEarly g ∧ (s.generations g).state ≠ .closed := by
  apply h.invariant_of
    (I := fun t => ∀ g, 0 < t.leases g → ¬ t.SealedEarly g ∧ (t.generations g).state ≠ .closed)
    (J := fun t => Lifecycle t ∧ Waits t ∧ SlotInv t ∧ Sealing t)
  · exact fun _ ht => reachable_lifecycle ht.reachable
  · rintro _ rfl g hlease
    cases hlease
  · rintro t e t' ⟨hl, -, hs, hse⟩ hi ⟨hok, hstays⟩ hstep g hlease
    have hres := (hs.step hstep).ledger.reserved_of_leased hlease
    obtain ⟨hheld, hearly⟩ := sealedEarly_of_step (g := g) hs hstep
    -- the generation has been open, and no step closes it
    have hopen : (t.generations g).state ≠ .closed := by
      rcases hheld with hle | ⟨preferred, u, -, hreserve⟩
      · exact (hi g (Nat.lt_of_lt_of_le hlease hle)).2
      · obtain ⟨v, -, hplaced, -⟩ := reserveLocked_placed hs hreserve
        exact hl.open_of_placed hs hplaced
    constructor
    · intro hsealed
      have hbefore := hearly hsealed hres
      rcases hheld with hle | hleases
      · exact (hi g (Nat.lt_of_lt_of_le hlease hle)).1 hbefore
      · exact hleases.not_sealedEarly hs hok hbefore
    · rcases step_lasts hl hs hstep with hlasts | ⟨k, hfree, rfl, he⟩
      · rwa [Ne, hlasts.closed]
      · rw [generations_closeGeneration]
        split
        · rename_i hk
          subst hk
          rw [reservations_closeGeneration] at hres
          rcases he with ⟨-, hdraining⟩ | rfl
          · have hzero : t.reservations g = 0 :=
              (hse.generation g).idle (running_of_loopFree hfree) (by rw [hdraining]; rfl)
            omega
          · exact absurd hlease (of_decide_eq_false hstays)
        · exact hopen

/-- **A held lease is usable**, in every run in which no selection without a preference takes a
    queued generation that is sealed already and the worker leaves no leased loop by an
    exception: the generation of a lease that is not released is given to a reservation that
    prefers it, and to the submission of a root.  The first excluded step leases a generation
    that refuses both; after the second one the lease is refused as long as it is held.  In any
    reachable state a held lease is usable just when its generation is not closed and has not been
    sealed before its loop was made. -/
theorem held_lease_usable_iff (s : SlotState) :
    (slotSystem.ReachUnder (fun s e => s.leasesSealed e = false ∧ s.leavesLeased e = false) s →
      ∀ g, 0 < s.leases g → s.LeaseUsable g ∧ ∀ h phase context,
        (s.submit (some g) h phase context).submissions =
          s.submissions ++ [⟨h, g, phase, context, none, false, false⟩]) ∧
    (∀ s' e, slotSystem.Reachable s → s.leasesSealed e = true →
      slotSystem.step s e = some s' →
      ∃ g, s.Leases e g ∧ 0 < s'.leases g ∧ s'.reserveLocked (some g) =
        .error (.stageLifecycle "Pinned Stage generation is already sealing") ∧
        ∀ h phase context, s'.submit (some g) h phase context = s') ∧
    (∀ s' e, slotSystem.Reachable s → s.leavesLeased e = true → slotSystem.step s e = some s' →
      ∃ g, e = .exit g ∧ 0 < s'.leases g ∧ ∀ (es : List SlotEvent) (u : SlotState),
        slotSystem.run s' es = some u → u.reserveLocked (some g) =
          .error (.stageLifecycle "Pinned Stage generation is no longer owned by the carrier") ∧
          ∀ h phase context, u.submit (some g) h phase context = u) ∧
    (slotSystem.Reachable s → ∀ g, 0 < s.leases g →
      (s.LeaseUsable g ↔ ¬ s.SealedEarly g ∧ (s.generations g).state ≠ .closed)) := by
  refine ⟨fun hreach g hlease => ?_, fun s' e hreach hsealed hstep => ?_,
    fun s' e hreach hleaves hstep => ?_, fun hreach g hlease => ?_⟩
  · obtain ⟨hl, -, hs, hse⟩ := reachable_lifecycle hreach.reachable
    have husable := (leaseUsable_iff hl hse hs hlease).mpr (reachUnder_leased hreach g hlease)
    exact ⟨husable, fun h phase context => husable.submit h phase context hs⟩
  · obtain ⟨hl, -, hs, hse⟩ := reachable_lifecycle hreach
    obtain ⟨hl', -, hs', -⟩ := reachable_lifecycle (.step hreach trivial hstep)
    obtain ⟨g, hleases, ⟨-, hstate⟩, hlease⟩ := unusable_of_leasesSealed hl hse hsealed hstep
    have hrefused := reserveLocked_some hl' hs' (hs'.ledger.reserved_of_leased hlease)
      (by rw [hstate]; exact fun heq => by cases heq)
    rw [hstate] at hrefused
    exact ⟨g, hleases, hlease, hrefused, submit_of_refused hrefused⟩
  · have hstep' : s.step e = some s' := hstep
    have hs' : slotSystem.Reachable s' := .step hreach trivial hstep
    cases stepped hstep' with
    | exit g hfree =>
      have hclosed : ((s.closeGeneration g).generations g).state = .closed := by
        rw [generations_closeGeneration, if_pos rfl]
      refine ⟨g, rfl, of_decide_eq_true hleaves, fun es u hrun => ?_⟩
      obtain ⟨hl, -⟩ := reachable_lifecycle (hs'.run hrun)
      have hrefused := hl.reserveLocked_closed (closed_run hs' hclosed hrun).1
      exact ⟨hrefused, submit_of_refused hrefused⟩
    | _ => cases hleaves
  · obtain ⟨hl, -, hs, hse⟩ := reachable_lifecycle hreach
    exact leaseUsable_iff hl hse hs hlease

/-- While generation 0 has been sealed and not yet closed, a lease of the next one is acquired and
    released without a submission, and then a second one is acquired. -/
def leaseAfterLease : List SlotEvent :=
  [.acquireLease none, .runGeneration 0, .releaseLease 0, .acquireLease none, .releaseLease 1,
    .acquireLease none]

/-- At the end of `leaseAfterLease` a lease is held that `acquire_lease` has just returned, and
    the submission of a root is refused. -/
theorem held_lease_unusable :
    ∃ s g, slotSystem.Reachable s ∧ 0 < s.leases g ∧ s.reserveLocked (some g) =
      .error (.stageLifecycle "Pinned Stage generation is already sealing") := by
  refine ⟨_, 1, System.reachable_of_run leaseAfterLease rfl rfl, ?_, ?_⟩
  · decide
  · rfl

end SlotState

end AgentlyStage
