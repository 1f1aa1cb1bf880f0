import AgentlyStage.AdmissionBound

/-!
# The order of permits

Admissions are granted in the order in which they were queued: the deque is sorted by
submission, and every granted admission is older than every queued one.  With the invariant of
the counter this gives the accounting of the permits.  The runs are the sequences of
`_admit_root_locked` and `_finish_admission` in which a root finishes its admission once; they
include the withdrawals that let the counter exceed `max_concurrency`.
-/

namespace AgentlyStage

open Transition

namespace RootsState

variable {m : Nat} {maxPending : Option Nat} {s s' : RootsState} {r : Nat} {root : Root}

/-! ## 1. The invariant -/

structure OrderInv (maxPending : Option Nat) (s : RootsState) : Prop where
  setting : s.permits.maxPending = maxPending
  bounded : ∀ bound, maxPending = some bound → s.permits.pendingAdmissions.length ≤ bound
  sorted : s.permits.pendingAdmissions.Pairwise (· < ·)
  /-- The granted admissions are older than the queued ones. -/
  granted : ∀ i j, s.permits.isGranted (.queued i) = true → j ∈ s.permits.pendingAdmissions → i < j
  ordered : ∀ r r' i i' phase phase', s.QueuedRoot r i phase → s.QueuedRoot r' i' phase' →
    r < r' → i < i'

/-- The deque loses entries, and the permit goes to one that is older than the rest. -/
theorem OrderInv.mono (h : s.OrderInv maxPending)
    (hsetting : s'.permits.maxPending = s.permits.maxPending)
    (hqueue : s'.permits.pendingAdmissions.Sublist s.permits.pendingAdmissions)
    (hgranted : ∀ i, s'.permits.isGranted (.queued i) = true →
      s.permits.isGranted (.queued i) = true ∨ ∀ j ∈ s'.permits.pendingAdmissions, i < j)
    (hroots : ∀ r i phase, s'.QueuedRoot r i phase → ∃ old, s.QueuedRoot r i old) :
    s'.OrderInv maxPending where
  setting := hsetting.trans h.setting
  bounded bound hbound := Nat.le_trans hqueue.length_le (h.bounded bound hbound)
  sorted := h.sorted.sublist hqueue
  granted i j hi hj := by
    rcases hgranted i hi with hold | hnew
    · exact h.granted i j hold (hqueue.subset hj)
    · exact hnew j hj
  ordered r r' i i' phase phase' hr hr' hlt := by
    obtain ⟨old, hold⟩ := hroots r i phase hr
    obtain ⟨old', hold'⟩ := hroots r' i' phase' hr'
    exact h.ordered r r' i i' old old' hold hold' hlt

theorem queuedRoot_of_set {p : RootPermits} {newPhase : RootPhase} (hr : s.roots[r]? = some root)
    (r' i : Nat) (phase : RootPhase)
    (h : QueuedRoot ⟨p, s.roots.set r { root with phase := newPhase }⟩ r' i phase) :
    ∃ old, s.QueuedRoot r' i old := by
  obtain ⟨old, hold, -⟩ := h.of_set hr
  exact ⟨old, hold⟩

/-! ## 2. A root ends -/

theorem giveBack_frame (p : RootPermits) (a : AdmissionRef) :
    (p.giveBack a).maxPending = p.maxPending ∧ (p.giveBack a).admissions = p.admissions ∧
      (p.giveBack a).pendingAdmissions.Sublist p.pendingAdmissions := by
  unfold RootPermits.giveBack
  split
  · exact ⟨rfl, rfl, List.Sublist.refl _⟩
  · cases a with
    | immediate => exact ⟨rfl, rfl, List.Sublist.refl _⟩
    | queued i => exact ⟨rfl, rfl, List.erase_sublist⟩

theorem isGranted_congr {p p' : RootPermits} (h : p'.admissions = p.admissions)
    (a : AdmissionRef) : p'.isGranted a = p.isGranted a := by
  unfold RootPermits.isGranted RootPermits.deref
  rw [h]

/-- A grant changes the flag of one admission. -/
theorem isGranted_grant {p : RootPermits} {i j : Nat} {rest : List Nat}
    (h : (p.grant i rest).isGranted (.queued j) = true) :
    p.isGranted (.queued j) = true ∨ j = i := by
  by_cases hji : j = i
  · exact Or.inr hji
  · simp only [RootPermits.isGranted, RootPermits.deref, RootPermits.grant,
      List.getElem?_set_ne (Ne.symm hji)] at h
    exact Or.inl h

theorem isGranted_grant_of {p : RootPermits} {i j : Nat} {rest : List Nat}
    (h : p.isGranted (.queued j) = true) : (p.grant i rest).isGranted (.queued j) = true := by
  by_cases hji : j = i
  · subst hji
    by_cases hlt : j < p.admissions.length
    · simp [RootPermits.isGranted, RootPermits.deref, RootPermits.grant,
        RootPermits.permittedAdmission, hlt]
    · rw [RootPermits.isGranted, RootPermits.deref, List.getElem?_eq_none (by omega)] at h
      cases h
  · simpa [RootPermits.isGranted, RootPermits.deref, RootPermits.grant,
      List.getElem?_set_ne (Ne.symm hji)] using h

/-- What the end of a root does to the deque and to the flags: entries leave the deque, and the
    first of the others may get a permit. -/
theorem finishRoot_grants (h : QueueInv m s) (hr : s.roots[r]? = some root)
    (hphase : root.phase ≠ .finished) :
    (s.finishRoot r root).permits.maxPending = s.permits.maxPending ∧
    (s.finishRoot r root).permits.pendingAdmissions.Sublist s.permits.pendingAdmissions ∧
    ((∀ j, (s.finishRoot r root).permits.isGranted (.queued j) = true →
        s.permits.isGranted (.queued j) = true) ∨
      ∃ i rest, (i :: rest).Sublist s.permits.pendingAdmissions ∧
        (s.finishRoot r root).permits.pendingAdmissions = rest ∧
        ∀ j, (s.finishRoot r root).permits.isGranted (.queued j) = true →
          s.permits.isGranted (.queued j) = true ∨ j = i) := by
  cases ha : root.admission with
  | none =>
    have hsame : s.finishRoot r root =
        ⟨s.permits, s.roots.set r { root with phase := .finished }⟩ := by
      simp [finishRoot, ha, RootPermits.finishAdmission]
    rw [hsame]
    exact ⟨rfl, List.Sublist.refl _, Or.inl fun j hj => hj⟩
  | some a =>
    obtain ⟨hsetting, hadmissions, hqueue⟩ := giveBack_frame s.permits a
    have hsame := isGranted_congr hadmissions
    rcases finishRoot_cases (r := r) ha (h.leave hr ha hphase).queue_waits with
      ⟨-, heq⟩ | ⟨i, rest, hcons, heq⟩
    · rw [heq]
      exact ⟨hsetting, hqueue, Or.inl fun j hj => (hsame _).symm.trans hj⟩
    · rw [heq]
      rw [hcons] at hqueue
      refine ⟨hsetting, (List.sublist_cons_self i rest).trans hqueue,
        Or.inr ⟨i, rest, hqueue, rfl, fun j hj => ?_⟩⟩
      rw [← hsame]
      exact isGranted_grant hj

theorem OrderInv.finishRoot (ho : s.OrderInv maxPending) (h : QueueInv m s)
    (hr : s.roots[r]? = some root) (hphase : root.phase ≠ .finished) :
    (s.finishRoot r root).OrderInv maxPending := by
  obtain ⟨hsetting, hqueue, hflags⟩ := finishRoot_grants h hr hphase
  refine ho.mono hsetting hqueue (fun i hi => ?_) (queuedRoot_of_set hr)
  rcases hflags with hflags | ⟨head, rest, hrest, heq, hflags⟩
  · exact Or.inl (hflags i hi)
  · rcases hflags i hi with hold | rfl
    · exact Or.inl hold
    · -- the head of a sorted deque is older than the rest
      rw [heq]
      exact Or.inr (List.pairwise_cons.mp (ho.sorted.sublist hrest)).1

theorem finishRoot_keeps (h : QueueInv m s) (hr : s.roots[r]? = some root)
    (hphase : root.phase ≠ .finished) {i : Nat} (hi : s.permits.isGranted (.queued i) = true) :
    (s.finishRoot r root).permits.isGranted (.queued i) = true := by
  cases ha : root.admission with
  | none => simpa [RootsState.finishRoot, ha, RootPermits.finishAdmission] using hi
  | some a =>
    have hsame := isGranted_congr (giveBack_frame s.permits a).2.1 (.queued i)
    rcases finishRoot_cases (r := r) ha (h.leave hr ha hphase).queue_waits with
      ⟨-, heq⟩ | ⟨head, rest, -, heq⟩
    · rw [heq]
      exact hsame.trans hi
    · rw [heq]
      exact isGranted_grant_of (hsame.trans hi)

/-! ## 3. A root is admitted -/

/-- A new admission is not granted in the queue. -/
theorem isGranted_admitted {p p' : RootPermits} {nested : Bool} {a : Option AdmissionRef}
    (ha : p.admitRootLocked nested = .ok (a, p')) (i : Nat) :
    p'.isGranted (.queued i) = p.isGranted (.queued i) := by
  rcases RootPermits.admitRootLocked_cases ha with
    ⟨-, -, rfl⟩ | ⟨-, -, -, rfl⟩ | ⟨-, -, -, -, rfl⟩
  · rfl
  · rfl
  · rcases Nat.lt_trichotomy i p.admissions.length with hlt | heq | hgt
    · simp [RootPermits.isGranted, RootPermits.deref, List.getElem?_append_left hlt]
    · simp [RootPermits.isGranted, RootPermits.deref, heq]
    · simp only [RootPermits.isGranted, RootPermits.deref]
      rw [List.getElem?_eq_none (by simp; omega), List.getElem?_eq_none (by omega)]

theorem lt_of_isGranted {p : RootPermits} {i : Nat} (h : p.isGranted (.queued i) = true) :
    i < p.admissions.length := by
  by_contra hge
  rw [RootPermits.isGranted, RootPermits.deref, List.getElem?_eq_none (by omega)] at h
  cases h

theorem OrderInv.admit (ho : s.OrderInv maxPending) (h : QueueInv m s) {nested : Bool}
    {a : Option AdmissionRef} {p : RootPermits}
    (ha : s.permits.admitRootLocked nested = .ok (a, p)) :
    OrderInv maxPending ⟨p, s.roots ++ [⟨a, .admitted⟩]⟩ := by
  rcases RootPermits.admitRootLocked_cases ha with
    ⟨-, rfl, rfl⟩ | ⟨-, -, rfl, rfl⟩ | ⟨-, -, hroom, rfl, rfl⟩
  · refine ho.mono rfl (List.Sublist.refl _) (fun _ hi => Or.inl hi) fun r i phase hr => ?_
    rcases hr.of_append with hr | ⟨-, hr⟩
    · exact ⟨phase, hr⟩
    · cases hr
  · refine ho.mono rfl (List.Sublist.refl _) (fun _ hi => Or.inl hi) fun r i phase hr => ?_
    rcases hr.of_append with hr | ⟨-, hr⟩
    · exact ⟨phase, hr⟩
    · cases hr
  · have hold : ∀ i ∈ s.permits.pendingAdmissions, i < s.permits.admissions.length :=
      fun i hi => (List.getElem?_eq_some_iff.mp (h.queue_waits i hi)).1
    refine ⟨ho.setting, fun bound hbound => ?_, ?_, fun i j hi hj => ?_, ?_⟩
    · rw [RootPermits.pendingBoundReached, ho.setting, hbound] at hroom
      have hlt := of_decide_eq_false hroom
      rw [List.length_append, List.length_singleton]
      omega
    · refine List.pairwise_append.mpr ⟨ho.sorted, List.pairwise_singleton _ _, fun i hi j hj => ?_⟩
      rw [List.mem_singleton.mp hj]
      exact hold i hi
    · have hgranted := (isGranted_admitted ha i).symm.trans hi
      rcases List.mem_append.mp hj with hj | hj
      · exact ho.granted i j hgranted hj
      · rw [List.mem_singleton.mp hj]
        exact lt_of_isGranted hgranted
    · intro r r' i i' phase phase' hr hr' hlt
      rcases hr.of_append with hr | ⟨rfl, -⟩
      · rcases hr'.of_append with hr' | ⟨-, hr'⟩
        · exact ho.ordered r r' i i' phase phase' hr hr' hlt
        · cases hr'
          exact h.known r i phase hr
      · -- no root is behind the new one
        have hbound := (List.getElem?_eq_some_iff.mp hr').1
        rw [List.length_append, List.length_singleton] at hbound
        omega

/-! ## 4. Runs -/

theorem OrderInv.endRoot (ho : s.OrderInv maxPending) (h : QueueInv m s) {phases : List RootPhase}
    (hlive : .finished ∉ phases) (hstep : s.endRoot r phases = some s') :
    s'.OrderInv maxPending := by
  unfold RootsState.endRoot at hstep
  split at hstep
  · rename_i root hr
    split at hstep
    · rename_i hmem
      cases hstep
      exact ho.finishRoot h hr fun heq => hlive (heq ▸ hmem)
    · cases hstep
  · cases hstep

theorem OrderInv.step (ho : s.OrderInv maxPending) (h : QueueInv m s) (hb : Busy m 0 s)
    {e : RootEvent} (hstep : s.step e = some s') : s'.OrderInv maxPending := by
  cases e with
  | go nested resolves =>
    simp only [RootsState.step] at hstep
    split at hstep
    · cases hstep
      exact ho
    · rename_i a p ha
      have hadmitted := ho.admit h ha
      split at hstep
      · cases hstep
        exact hadmitted
      · cases hstep
        have hinv := h.admit hb ha
        exact hadmitted.finishRoot hinv.1 List.getElem?_concat_length (fun heq => by cases heq)
  | execute r =>
    simp only [RootsState.step] at hstep
    split at hstep
    · rename_i root hr
      split at hstep
      · cases hstep
        exact ho.mono rfl (List.Sublist.refl _) (fun _ hi => Or.inl hi) (queuedRoot_of_set hr)
      · cases hstep
    · cases hstep
  | complete r => exact ho.endRoot h (by simp) hstep
  | fail r => exact ho.endRoot h (by simp) hstep
  | cancel r => exact ho.endRoot h (by simp) hstep
  | refuse r => exact ho.endRoot h (by simp) hstep

theorem reachable_orderInv (h : (rootSystem m maxPending).Reachable s) :
    s.OrderInv maxPending := by
  refine h.invariant_of (fun s hr => reachable_inv hr) (fun s hinit => ?_)
    fun s e s' hi ho _ hstep => ho.step hi.1 hi.2 hstep
  rw [show s = _ from hinit]
  refine ⟨rfl, fun _ _ => Nat.zero_le _, List.Pairwise.nil, fun _ _ _ hj => (nomatch hj), ?_⟩
  intro r r' i i' phase phase' hr
  cases hr

/-! ## 5. The accounting of the permits -/

/-- What holds of the permits in a state. -/
structure PermitLaws (m : Nat) (maxPending : Option Nat) (s : RootsState) : Prop where
  /-- The counter is the number of granted and unfinished admissions. -/
  count : s.permits.activeRootCount = s.roots.countP s.holdsPermit
  nonneg : 0 ≤ s.permits.activeRootCount
  /-- An admission is in the deque exactly when it is neither granted nor finished. -/
  queued : ∀ r i phase, s.QueuedRoot r i phase →
    (i ∈ s.permits.pendingAdmissions ↔
      s.permits.isGranted (.queued i) = false ∧ phase ≠ .finished)
  owned : s.permits.pendingAdmissions.Nodup ∧
    ∀ i ∈ s.permits.pendingAdmissions, ∃ r phase, s.QueuedRoot r i phase
  bounded : ∀ bound, maxPending = some bound → s.permits.pendingAdmissions.length ≤ bound
  /-- No admission is granted while an older one is queued. -/
  inOrder : ∀ r r' i i' phase phase', s.QueuedRoot r i phase → s.QueuedRoot r' i' phase' →
    r < r' → s.permits.isGranted (.queued i') = true → i ∉ s.permits.pendingAdmissions
  /-- No permit is idle while an admission is queued, and none goes to a newcomer. -/
  busy : s.permits.pendingAdmissions ≠ [] → (m : Int) ≤ s.permits.activeRootCount ∧
    ∀ p, s.permits.admitRootLocked false ≠ .ok (some .immediate, p)
  drained : (∀ root ∈ s.roots, root.phase = .finished) →
    s.permits.activeRootCount = 0 ∧ s.permits.pendingAdmissions = []

/-- A step grants at most one queued admission, and takes no permit away. -/
def GrantsOne (s s' : RootsState) : Prop :=
  (∀ i, s.permits.isGranted (.queued i) = true → s'.permits.isGranted (.queued i) = true) ∧
    ∃ i, ∀ j, s'.permits.isGranted (.queued j) = true →
      s.permits.isGranted (.queued j) = true ∨ j = i

theorem QueueInv.laws (h : QueueInv m s) (hb : Busy m 0 s) (ho : s.OrderInv maxPending) :
    s.PermitLaws m maxPending := by
  have hqueued : ∀ r i phase, s.QueuedRoot r i phase →
      (i ∈ s.permits.pendingAdmissions ↔
        s.permits.isGranted (.queued i) = false ∧ phase ≠ .finished) := by
    intro r i phase hr
    constructor
    · intro hi
      obtain ⟨r', hr'⟩ := h.queue_root i hi
      cases h.unique r r' i phase .admitted hr hr'
      rw [QueuedRoot, show s.roots[r]? = _ from hr'] at hr
      cases hr
      exact ⟨RootPermits.isGranted_of_waiting (h.queue_waits i hi), fun heq => by cases heq⟩
    · rintro ⟨hung, hphase⟩
      exact (h.waits r i phase hr hphase hung).2
  refine {
    count := h.count
    nonneg := by rw [h.count]; exact Int.natCast_nonneg _
    queued := hqueued
    owned := ⟨h.queue_nodup, fun i hi => ?_⟩
    bounded := ho.bounded
    inOrder := ?_
    busy := fun hne => ?_
    drained := fun hall => ?_ }
  · obtain ⟨r, hr⟩ := h.queue_root i hi
    exact ⟨r, _, hr⟩
  · intro r r' i i' phase phase' hr hr' hlt hgranted hi
    have holder := ho.ordered r r' i i' phase phase' hr hr' hlt
    have hyounger := ho.granted i' i hgranted hi
    omega
  · have hfull := hb hne
    rw [Int.add_zero] at hfull
    refine ⟨hfull, fun p hp => ?_⟩
    rcases RootPermits.admitRootLocked_cases hp with ⟨hnested, -⟩ | ⟨-, hfree, -⟩ | ⟨-, -, -, ha, -⟩
    · cases hnested
    · rw [RootPermits.permitFree, h.limit] at hfree
      have hlt := of_decide_eq_true hfree
      omega
    · cases ha
  · constructor
    · rw [h.count, List.countP_eq_zero.mpr]
      · rfl
      · intro root hroot
        simp [holdsPermit, hall root hroot]
    · rw [List.eq_nil_iff_forall_not_mem]
      intro i hi
      obtain ⟨r, hr⟩ := h.queue_root i hi
      have hphase := hall _ (List.mem_of_getElem? hr)
      cases hphase

theorem finishRoot_grantsOne (h : QueueInv m s) (hr : s.roots[r]? = some root)
    (hphase : root.phase ≠ .finished) : s.GrantsOne (s.finishRoot r root) := by
  refine ⟨fun i hi => finishRoot_keeps h hr hphase hi, ?_⟩
  rcases (finishRoot_grants h hr hphase).2.2 with hflags | ⟨head, rest, -, -, hflags⟩
  · exact ⟨0, fun j hj => Or.inl (hflags j hj)⟩
  · exact ⟨head, hflags⟩

theorem grantsOne_of_eq (h : ∀ i, s'.permits.isGranted (.queued i) = s.permits.isGranted (.queued i)) :
    s.GrantsOne s' :=
  ⟨fun i hi => (h i).trans hi, 0, fun j hj => Or.inl ((h j).symm.trans hj)⟩

theorem grantsOne_of_endRoot (h : QueueInv m s) {phases : List RootPhase}
    (hlive : .finished ∉ phases) (hstep : s.endRoot r phases = some s') : s.GrantsOne s' := by
  unfold RootsState.endRoot at hstep
  split at hstep
  · rename_i root hr
    split at hstep
    · rename_i hmem
      cases hstep
      exact finishRoot_grantsOne h hr fun heq => hlive (heq ▸ hmem)
    · cases hstep
  · cases hstep

theorem QueueInv.grantsOne (h : QueueInv m s) (hb : Busy m 0 s) {e : RootEvent}
    (hstep : s.step e = some s') : s.GrantsOne s' := by
  cases e with
  | go nested resolves =>
    simp only [RootsState.step] at hstep
    split at hstep
    · cases hstep
      exact grantsOne_of_eq fun _ => rfl
    · rename_i a p ha
      split at hstep
      · cases hstep
        exact grantsOne_of_eq (isGranted_admitted ha)
      · cases hstep
        have hinv := h.admit hb ha
        obtain ⟨hkeeps, i, hone⟩ := finishRoot_grantsOne hinv.1 List.getElem?_concat_length
          (fun heq => by cases heq)
        refine ⟨fun j hj => hkeeps j ((isGranted_admitted ha j).trans hj), i, fun j hj => ?_⟩
        rw [← isGranted_admitted ha j]
        exact hone j hj
  | execute r =>
    simp only [RootsState.step] at hstep
    split at hstep
    · split at hstep
      · cases hstep
        exact grantsOne_of_eq fun _ => rfl
      · cases hstep
    · cases hstep
  | complete r => exact grantsOne_of_endRoot h (by simp) hstep
  | fail r => exact grantsOne_of_endRoot h (by simp) hstep
  | cancel r => exact grantsOne_of_endRoot h (by simp) hstep
  | refuse r => exact grantsOne_of_endRoot h (by simp) hstep

/-- **The accounting of the permits.**  The laws hold in every state that is reached, and every
    step grants at most one queued admission. -/
theorem permit_laws (m : Nat) (maxPending : Option Nat) :
    (∀ s, (rootSystem m maxPending).Reachable s → s.PermitLaws m maxPending) ∧
    ∀ s e s', (rootSystem m maxPending).Reachable s → s.step e = some s' → s.GrantsOne s' := by
  constructor
  · intro s hreach
    obtain ⟨h, hb⟩ := reachable_inv hreach
    exact h.laws hb (reachable_orderInv hreach)
  · intro s e s' hreach hstep
    obtain ⟨h, hb⟩ := reachable_inv hreach
    exact h.grantsOne hb hstep

end RootsState

end AgentlyStage
