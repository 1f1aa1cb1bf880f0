import AgentlyStage.Admission

/-!
# The bound on active roots

`_active_root_count` counts the roots that hold a permit and have not ended.  The
invariant `QueueInv` ties the counter, the deque, the granted flags and the gates
together; it holds in every run.  The bound `_active_root_count ≤ m` does not: an
admission that leaves the queue without a permit still hands one on when another root
waits behind it (`withdrawsAhead`).  The results say that this is the only way: the
bound holds as long as no such step is taken, and such a step always breaks it.
-/

namespace AgentlyStage

open Transition

namespace RootPermits

/-! ## 1. The two functions, case by case -/

theorem admitRootLocked_cases {p p' : RootPermits} {nested : Bool} {a : Option AdmissionRef}
    (h : p.admitRootLocked nested = .ok (a, p')) :
    (nested = true ∧ a = none ∧ p' = p) ∨
    (nested = false ∧ p.permitFree = true ∧ a = some .immediate ∧
      p' = { p with activeRootCount := p.activeRootCount + 1 }) ∨
    (nested = false ∧ p.permitFree = false ∧ p.pendingBoundReached = false ∧
      a = some (.queued p.admissions.length) ∧
      p' = { p with
        pendingAdmissions := p.pendingAdmissions ++ [p.admissions.length]
        admissions := p.admissions ++ [⟨some .pending, false⟩] }) := by
  unfold admitRootLocked at h
  split at h
  · rename_i hnested
    cases h
    exact Or.inl ⟨hnested, rfl, rfl⟩
  · rename_i hnested
    have hext : nested = false := by simpa using hnested
    split at h
    · rename_i hfree
      cases h
      exact Or.inr (Or.inl ⟨hext, hfree, rfl, rfl⟩)
    · rename_i hfree
      split at h
      · cases h
      · rename_i hbound
        cases h
        exact Or.inr (Or.inr ⟨hext, by simpa using hfree, by simpa using hbound, rfl, rfl⟩)

/-- A queued admission before and after its gate is resolved. -/
def waitingAdmission : RootAdmission := ⟨some .pending, false⟩
def permittedAdmission : RootAdmission := ⟨some .resolved, true⟩

/-- Every entry of the deque is an ungranted admission whose gate is pending. -/
def QueueWaits (p : RootPermits) : Prop :=
  ∀ i ∈ p.pendingAdmissions, p.admissions[i]? = some waitingAdmission

/-- Every queued admission either waits or has its permit. -/
def WellShaped (p : RootPermits) : Prop :=
  ∀ (i : Nat) (a : RootAdmission), p.admissions[i]? = some a →
    a = waitingAdmission ∨ a = permittedAdmission

/-- The admission `i` at the head of the deque receives the permit. -/
def grant (p : RootPermits) (i : Nat) (rest : List Nat) : RootPermits :=
  { p with
    pendingAdmissions := rest
    admissions := p.admissions.set i permittedAdmission
    activeRootCount := p.activeRootCount + 1 }

/-- With a deque of waiting entries the loop looks at its head only. -/
theorem grantNext_cases {p : RootPermits} (hw : p.QueueWaits) :
    (p.pendingAdmissions = [] ∧ p.grantNext p.pendingAdmissions = p) ∨
    ∃ i rest, p.pendingAdmissions = i :: rest ∧
      p.grantNext p.pendingAdmissions = p.grant i rest := by
  cases hq : p.pendingAdmissions with
  | nil =>
    refine Or.inl ⟨rfl, ?_⟩
    obtain ⟨m, mp, c, q, as⟩ := p
    cases hq
    rfl
  | cons i rest =>
    refine Or.inr ⟨i, rest, rfl, ?_⟩
    have hi : p.admissions[i]? = some waitingAdmission := hw i (by simp [hq])
    simp only [grantNext, hi, Option.bind_some]
    rfl

theorem isGranted_queued_iff {p : RootPermits} {i : Nat} (hshape : p.WellShaped) :
    p.isGranted (.queued i) = true ↔ p.admissions[i]? = some permittedAdmission := by
  cases hi : p.admissions[i]? with
  | none => simp [isGranted, deref, hi]
  | some a =>
    rcases hshape i a hi with rfl | rfl <;>
      simp [isGranted, deref, hi, waitingAdmission, permittedAdmission]

theorem isGranted_of_waiting {p : RootPermits} {i : Nat}
    (h : p.admissions[i]? = some waitingAdmission) : p.isGranted (.queued i) = false := by
  simp [isGranted, deref, h, waitingAdmission]

end RootPermits

namespace RootsState

/-! ## 2. The invariant -/

/-- Root `r` was sent to the queue with admission `i`. -/
def QueuedRoot (s : RootsState) (r i : Nat) (phase : RootPhase) : Prop :=
  s.roots[r]? = some ⟨some (.queued i), phase⟩

/-- The counter, the deque, the granted flags and the gates fit together. -/
structure QueueInv (m : Nat) (s : RootsState) : Prop where
  limit : s.permits.maxConcurrency = some m
  queue_nodup : s.permits.pendingAdmissions.Nodup
  queue_waits : s.permits.QueueWaits
  queue_root : ∀ i ∈ s.permits.pendingAdmissions, ∃ r, s.QueuedRoot r i .admitted
  shape : s.permits.WellShaped
  known : ∀ r i phase, s.QueuedRoot r i phase → i < s.permits.admissions.length
  unique : ∀ r r' i phase phase',
    s.QueuedRoot r i phase → s.QueuedRoot r' i phase' → r = r'
  waits : ∀ r i phase, s.QueuedRoot r i phase → phase ≠ .finished →
    s.permits.isGranted (.queued i) = false →
    phase = .admitted ∧ i ∈ s.permits.pendingAdmissions
  count : s.permits.activeRootCount = s.roots.countP s.holdsPermit

/-- No permit stays idle while a root is queued, up to `slack` permits. -/
def Busy (m : Nat) (slack : Int) (s : RootsState) : Prop :=
  s.permits.pendingAdmissions ≠ [] → m ≤ s.permits.activeRootCount + slack

/-! ## 3. What one table update does -/

theorem QueuedRoot.of_set {s : RootsState} {p : RootPermits} {r r' i : Nat} {root : Root}
    {newPhase phase : RootPhase} (hr : s.roots[r]? = some root)
    (h : QueuedRoot ⟨p, s.roots.set r { root with phase := newPhase }⟩ r' i phase) :
    ∃ old, s.QueuedRoot r' i old ∧ (r' = r → phase = newPhase) ∧ (r' ≠ r → old = phase) := by
  unfold QueuedRoot at h ⊢
  by_cases hrr : r' = r
  · subst hrr
    have hlt : r' < s.roots.length := (List.getElem?_eq_some_iff.mp hr).1
    simp only [List.getElem?_set_self hlt, Option.some.injEq] at h
    obtain ⟨hadm, hphase⟩ := Root.mk.inj h
    refine ⟨root.phase, ?_, fun _ => hphase.symm, fun hne => absurd rfl hne⟩
    rw [hr, ← hadm]
  · rw [List.getElem?_set_ne (Ne.symm hrr)] at h
    exact ⟨phase, h, fun he => absurd he hrr, fun _ => rfl⟩

/-- The permit a root holds depends on the admission table only. -/
theorem holdsPermit_congr {s s' : RootsState} (h : s'.permits.admissions = s.permits.admissions) :
    s'.holdsPermit = s.holdsPermit := by
  funext root
  unfold holdsPermit
  cases root.admission with
  | none => rfl
  | some a => cases a <;> simp [RootPermits.isGranted, RootPermits.deref, h]

theorem holdsPermit_finished (s : RootsState) (root : Root) :
    s.holdsPermit { root with phase := .finished } = false := by
  simp [holdsPermit]

theorem holdsPermit_of_unfinished {s : RootsState} {root : Root} {a : AdmissionRef}
    (ha : root.admission = some a) (hphase : root.phase ≠ .finished) :
    s.holdsPermit root = s.permits.isGranted a := by
  simp [holdsPermit, ha, hphase]

/-! ## 4. A root ends

The end of a root is two updates: the root leaves (`giveBack`), then at most one
queued root receives a permit (`grant`). -/

theorem QueueInv.leave {m : Nat} {s : RootsState} {r : Nat} {root : Root} {a : AdmissionRef}
    (h : QueueInv m s) (hr : s.roots[r]? = some root) (ha : root.admission = some a)
    (hphase : root.phase ≠ .finished) :
    QueueInv m ⟨s.permits.giveBack a, s.roots.set r { root with phase := .finished }⟩ := by
  have hadm : (s.permits.giveBack a).admissions = s.permits.admissions := by
    unfold RootPermits.giveBack
    split
    · rfl
    · cases a <;> rfl
  have hlimit : (s.permits.giveBack a).maxConcurrency = s.permits.maxConcurrency := by
    unfold RootPermits.giveBack
    split
    · rfl
    · cases a <;> rfl
  have hsub : (s.permits.giveBack a).pendingAdmissions.Sublist s.permits.pendingAdmissions := by
    unfold RootPermits.giveBack
    split
    · exact List.Sublist.refl _
    · cases a
      · exact List.Sublist.refl _
      · exact List.erase_sublist
  -- entries that stay in the deque belong to another root
  have hstay : ∀ i ∈ (s.permits.giveBack a).pendingAdmissions, a ≠ .queued i := by
    rintro i hi rfl
    have hmem := hsub.subset hi
    have hung : s.permits.isGranted (.queued i) = false :=
      RootPermits.isGranted_of_waiting (h.queue_waits i hmem)
    simp only [RootPermits.giveBack, hung, Bool.false_eq_true, if_false] at hi
    exact absurd hi (List.Nodup.not_mem_erase h.queue_nodup)
  have hgr : ∀ b, (s.permits.giveBack a).isGranted b = s.permits.isGranted b := by
    intro b
    cases b <;> simp [RootPermits.isGranted, RootPermits.deref, hadm]
  refine ⟨hlimit.trans h.limit, hsub.nodup h.queue_nodup, ?_, ?_, ?_, ?_, ?_, ?_, ?_⟩
  · intro i hi
    simpa [hadm] using h.queue_waits i (hsub.subset hi)
  · intro i hi
    obtain ⟨r', hr'⟩ := h.queue_root i (hsub.subset hi)
    refine ⟨r', ?_⟩
    have hne : r ≠ r' := by
      rintro rfl
      rw [QueuedRoot, hr] at hr'
      cases hr'
      exact hstay i hi (by simpa using ha.symm)
    simpa [QueuedRoot, List.getElem?_set_ne hne] using hr'
  · intro i b hb
    exact h.shape i b (by simpa [hadm] using hb)
  · intro r' i phase hq
    obtain ⟨old, hold, -, -⟩ := hq.of_set hr
    simpa [hadm] using h.known r' i old hold
  · intro r1 r2 i p1 p2 h1 h2
    obtain ⟨o1, ho1, -, -⟩ := h1.of_set hr
    obtain ⟨o2, ho2, -, -⟩ := h2.of_set hr
    exact h.unique r1 r2 i o1 o2 ho1 ho2
  · intro r' i phase hq hne hung
    obtain ⟨old, hold, hself, hother⟩ := hq.of_set hr
    have hrr : r' ≠ r := fun he => hne (hself he)
    obtain rfl := hother hrr
    have hung' : s.permits.isGranted (.queued i) = false := by rw [← hgr]; exact hung
    obtain ⟨hadmitted, hmem⟩ := h.waits r' i old hold hne hung'
    refine ⟨hadmitted, ?_⟩
    have hai : a ≠ .queued i := by
      rintro rfl
      obtain ⟨adm, ph⟩ := root
      cases ha
      exact hrr (h.unique r' r i _ _ hold hr)
    show i ∈ (s.permits.giveBack a).pendingAdmissions
    unfold RootPermits.giveBack
    split
    · exact hmem
    · cases a with
      | immediate => exact hmem
      | queued j =>
        have hij : i ≠ j := fun he => hai (by rw [he])
        exact (List.mem_erase_of_ne hij).mpr hmem
  · have hcount := countP_set_add (y := { root with phase := .finished })
      (p := s.holdsPermit) hr
    rw [holdsPermit_finished, holdsPermit_of_unfinished ha hphase] at hcount
    have hfun : (RootsState.mk (s.permits.giveBack a)
        (s.roots.set r { root with phase := .finished })).holdsPermit = s.holdsPermit :=
      holdsPermit_congr hadm
    have hold := h.count
    simp only [hfun]
    unfold RootPermits.giveBack
    cases hg : s.permits.isGranted a with
    | true =>
      simp only [hg, Bool.toNat_true, Bool.toNat_false, Nat.add_zero] at hcount
      simp only [if_true]
      omega
    | false =>
      simp only [hg, Bool.toNat_false, Nat.add_zero] at hcount
      simp only [Bool.false_eq_true, if_false]
      cases a <;> simpa [hcount] using hold

theorem QueueInv.grant {m : Nat} {s : RootsState} {i : Nat} {rest : List Nat}
    (h : QueueInv m s) (hq : s.permits.pendingAdmissions = i :: rest) :
    QueueInv m ⟨s.permits.grant i rest, s.roots⟩ := by
  have hi : s.permits.admissions[i]? = some RootPermits.waitingAdmission :=
    h.queue_waits i (by simp [hq])
  have hlt : i < s.permits.admissions.length := (List.getElem?_eq_some_iff.mp hi).1
  have hnodup := h.queue_nodup
  rw [hq, List.nodup_cons] at hnodup
  have hne : ∀ j ∈ rest, i ≠ j := by
    rintro j hj rfl
    exact hnodup.1 hj
  have hmem : ∀ j ∈ rest, j ∈ s.permits.pendingAdmissions := fun j hj => by simp [hq, hj]
  have hgr : ∀ j, j ≠ i →
      (s.permits.grant i rest).isGranted (.queued j) = s.permits.isGranted (.queued j) := by
    intro j hj
    simp [RootPermits.isGranted, RootPermits.deref, RootPermits.grant,
      List.getElem?_set_ne (Ne.symm hj)]
  have hgi : (s.permits.grant i rest).isGranted (.queued i) = true := by
    simp [RootPermits.isGranted, RootPermits.deref, RootPermits.grant,
      RootPermits.permittedAdmission, hlt]
  refine ⟨h.limit, hnodup.2, ?_, ?_, ?_, ?_, h.unique, ?_, ?_⟩
  · intro j hj
    simpa [RootPermits.grant, List.getElem?_set_ne (hne j hj)] using
      h.queue_waits j (hmem j hj)
  · intro j hj
    exact h.queue_root j (hmem j hj)
  · intro j b hb
    by_cases hij : i = j
    · subst hij
      simp only [RootPermits.grant, List.getElem?_set_self hlt, Option.some.injEq] at hb
      exact Or.inr hb.symm
    · exact h.shape j b (by simpa [RootPermits.grant, List.getElem?_set_ne hij] using hb)
  · intro r j phase hr
    simpa [RootPermits.grant] using h.known r j phase hr
  · intro r j phase hr hphase hung
    by_cases hij : j = i
    · subst hij
      simp [hgi] at hung
    · obtain ⟨hadmitted, hj⟩ := h.waits r j phase hr hphase (by rw [← hgr j hij]; exact hung)
      refine ⟨hadmitted, ?_⟩
      rw [hq, List.mem_cons] at hj
      exact hj.resolve_left hij
  · -- exactly the root that waits with admission `i` gains a permit
    obtain ⟨r, hr⟩ := h.queue_root i (by simp [hq])
    have hgain : s.roots.countP (RootsState.mk (s.permits.grant i rest) s.roots).holdsPermit =
        s.roots.countP s.holdsPermit + 1 := by
      refine countP_gain hr ?_ ?_ ?_
      · rw [holdsPermit_of_unfinished rfl (by simp)]
        exact RootPermits.isGranted_of_waiting hi
      · rw [holdsPermit_of_unfinished rfl (by simp)]
        exact hgi
      · intro r' root hr' hrr
        obtain ⟨adm, phase⟩ := root
        cases adm with
        | none => rfl
        | some a =>
          cases a with
          | immediate => rfl
          | queued j =>
            have hji : j ≠ i := by
              rintro rfl
              exact hrr (h.unique r' r j _ _ hr' hr)
            simp only [holdsPermit, hgr j hji]
    have hold := h.count
    simp only [RootPermits.grant] at hgain ⊢
    rw [hgain]
    omega

/-- `finishRoot` is the two updates of this section. -/
theorem finishRoot_cases {s : RootsState} {r : Nat} {root : Root} {a : AdmissionRef}
    (ha : root.admission = some a) (hw : (s.permits.giveBack a).QueueWaits) :
    ((s.permits.giveBack a).pendingAdmissions = [] ∧
      s.finishRoot r root =
        ⟨s.permits.giveBack a, s.roots.set r { root with phase := .finished }⟩) ∨
    ∃ i rest, (s.permits.giveBack a).pendingAdmissions = i :: rest ∧
      s.finishRoot r root =
        ⟨(s.permits.giveBack a).grant i rest, s.roots.set r { root with phase := .finished }⟩ := by
  simp only [finishRoot, ha, RootPermits.finishAdmission]
  rcases RootPermits.grantNext_cases hw with ⟨hnil, heq⟩ | ⟨i, rest, hcons, heq⟩
  · exact Or.inl ⟨hnil, by rw [heq]⟩
  · exact Or.inr ⟨i, rest, hcons, by rw [heq]⟩

/-- A root without an admission only changes its own phase. -/
theorem QueueInv.setPhase {m : Nat} {s : RootsState} {r : Nat} {root : Root}
    {newPhase : RootPhase} (h : QueueInv m s) (hr : s.roots[r]? = some root)
    (hkeep : ∀ i, root.admission = some (.queued i) →
      root.phase ≠ .finished ∧ s.permits.isGranted (.queued i) = true)
    (hhold : s.holdsPermit { root with phase := newPhase } = s.holdsPermit root) :
    QueueInv m { s with roots := s.roots.set r { root with phase := newPhase } } := by
  have hown : ∀ i phase, s.QueuedRoot r i phase → root.admission = some (.queued i) := by
    intro i phase hq
    rw [QueuedRoot, hr] at hq
    cases hq
    rfl
  refine ⟨h.limit, h.queue_nodup, h.queue_waits, ?_, h.shape, ?_, ?_, ?_, ?_⟩
  · intro i hi
    obtain ⟨r', hr'⟩ := h.queue_root i hi
    refine ⟨r', ?_⟩
    have hne : r ≠ r' := by
      rintro rfl
      have hgr := (hkeep i (hown i _ hr')).2
      rw [RootPermits.isGranted_of_waiting (h.queue_waits i hi)] at hgr
      exact absurd hgr (by decide)
    simpa [QueuedRoot, List.getElem?_set_ne hne] using hr'
  · intro r' i phase hq
    obtain ⟨old, hold, -, -⟩ := hq.of_set hr
    exact h.known r' i old hold
  · intro r1 r2 i p1 p2 h1 h2
    obtain ⟨o1, ho1, -, -⟩ := h1.of_set hr
    obtain ⟨o2, ho2, -, -⟩ := h2.of_set hr
    exact h.unique r1 r2 i o1 o2 ho1 ho2
  · intro r' i phase hq hne hung
    obtain ⟨old, hold, hself, hother⟩ := hq.of_set hr
    have hrr : r' ≠ r := by
      rintro rfl
      have hgr := (hkeep i (hown i _ hold)).2
      rw [show s.permits.isGranted (.queued i) = false from hung] at hgr
      exact absurd hgr (by decide)
    obtain rfl := hother hrr
    exact h.waits r' i old hold hne hung
  · have hcount := countP_set_add (y := { root with phase := newPhase })
      (p := s.holdsPermit) hr
    rw [hhold] at hcount
    have hfun : RootsState.holdsPermit
        { s with roots := s.roots.set r { root with phase := newPhase } } = s.holdsPermit :=
      holdsPermit_congr rfl
    have hold := h.count
    simp only [hfun]
    omega

/-! ## 5. A root is admitted -/

theorem QueuedRoot.of_append {s : RootsState} {p : RootPermits} {r i : Nat} {root : Root}
    {phase : RootPhase} (h : QueuedRoot ⟨p, s.roots ++ [root]⟩ r i phase) :
    s.QueuedRoot r i phase ∨
      (r = s.roots.length ∧ root = ⟨some (.queued i), phase⟩) := by
  unfold QueuedRoot at h ⊢
  rw [List.getElem?_append] at h
  split at h
  · exact Or.inl h
  · rename_i hge
    have hr : r - s.roots.length = 0 := by
      by_contra hpos
      rw [List.getElem?_eq_none (by simp; omega)] at h
      cases h
    rw [hr] at h
    exact Or.inr ⟨by omega, by simpa using h⟩

theorem QueuedRoot.append {s : RootsState} {p : RootPermits} {r i : Nat} {root : Root}
    {phase : RootPhase} (h : s.QueuedRoot r i phase) :
    QueuedRoot ⟨p, s.roots ++ [root]⟩ r i phase := by
  unfold QueuedRoot at h ⊢
  have hlt : r < s.roots.length := (List.getElem?_eq_some_iff.mp h).1
  rw [List.getElem?_append_left hlt]
  exact h

/-- A root that does not go to the queue. -/
theorem QueueInv.admitNow {m : Nat} {s : RootsState} {a : Option AdmissionRef} {d : Int}
    (h : QueueInv m s) (ha : ∀ i, a ≠ some (.queued i))
    (hd : d = (s.holdsPermit ⟨a, .admitted⟩).toNat) :
    QueueInv m ⟨{ s.permits with activeRootCount := s.permits.activeRootCount + d },
      s.roots ++ [⟨a, .admitted⟩]⟩ := by
  have hold : ∀ r i phase, QueuedRoot ⟨{ s.permits with
      activeRootCount := s.permits.activeRootCount + d }, s.roots ++ [⟨a, .admitted⟩]⟩ r i phase →
      s.QueuedRoot r i phase := by
    intro r i phase hq
    rcases hq.of_append with hq | ⟨-, hq⟩
    · exact hq
    · exact absurd (congrArg Root.admission hq) (ha i)
  refine ⟨h.limit, h.queue_nodup, h.queue_waits, ?_, h.shape, ?_, ?_, ?_, ?_⟩
  · intro i hi
    obtain ⟨r, hr⟩ := h.queue_root i hi
    exact ⟨r, hr.append⟩
  · intro r i phase hq
    exact h.known r i phase (hold r i phase hq)
  · intro r1 r2 i p1 p2 h1 h2
    exact h.unique r1 r2 i p1 p2 (hold r1 i p1 h1) (hold r2 i p2 h2)
  · intro r i phase hq
    exact h.waits r i phase (hold r i phase hq)
  · have hfun : RootsState.holdsPermit ⟨{ s.permits with
        activeRootCount := s.permits.activeRootCount + d }, s.roots ++ [⟨a, .admitted⟩]⟩ =
        s.holdsPermit := holdsPermit_congr rfl
    have hcount := h.count
    simp only [hfun, List.countP_append, List.countP_singleton]
    cases hh : s.holdsPermit ⟨a, .admitted⟩ <;> simp [hh] at hd ⊢ <;> omega

/-- A root that goes to the end of the queue. -/
theorem QueueInv.enqueue {m : Nat} {s : RootsState} (h : QueueInv m s) :
    QueueInv m ⟨{ s.permits with
        pendingAdmissions := s.permits.pendingAdmissions ++ [s.permits.admissions.length]
        admissions := s.permits.admissions ++ [RootPermits.waitingAdmission] },
      s.roots ++ [⟨some (.queued s.permits.admissions.length), .admitted⟩]⟩ := by
  have hold : ∀ i, i < s.permits.admissions.length →
      (s.permits.admissions ++ [RootPermits.waitingAdmission])[i]? =
        s.permits.admissions[i]? := fun i hi => List.getElem?_append_left hi
  have hqlt : ∀ i ∈ s.permits.pendingAdmissions, i < s.permits.admissions.length :=
    fun i hi => (List.getElem?_eq_some_iff.mp (h.queue_waits i hi)).1
  refine ⟨h.limit, ?_, ?_, ?_, ?_, ?_, ?_, ?_, ?_⟩
  · refine List.nodup_append.mpr ⟨h.queue_nodup, by simp, ?_⟩
    intro i hi j hj
    have := hqlt i hi
    rw [List.mem_singleton] at hj
    omega
  · intro i hi
    rcases List.mem_append.mp hi with hi | hi
    · exact (hold i (hqlt i hi)).trans (h.queue_waits i hi)
    · rw [List.mem_singleton] at hi
      simp [hi]
  · intro i hi
    rcases List.mem_append.mp hi with hi | hi
    · obtain ⟨r, hr⟩ := h.queue_root i hi
      exact ⟨r, hr.append⟩
    · rw [List.mem_singleton] at hi
      exact ⟨s.roots.length, by simp [QueuedRoot, hi]⟩
  · intro i b hb
    by_cases hi : i < s.permits.admissions.length
    · exact h.shape i b (by rw [← hold i hi]; exact hb)
    · simp only [List.getElem?_append_right (Nat.le_of_not_lt hi),
        List.getElem?_singleton] at hb
      split at hb <;> simp_all
  · intro r i phase hq
    simp only [List.length_append, List.length_singleton]
    rcases hq.of_append with hq | ⟨-, hq⟩
    · have := h.known r i phase hq
      omega
    · cases hq
      omega
  · intro r1 r2 i p1 p2 h1 h2
    rcases h1.of_append with h1 | ⟨e1, h1⟩ <;> rcases h2.of_append with h2 | ⟨e2, h2⟩
    · exact h.unique r1 r2 i p1 p2 h1 h2
    · cases h2
      exact absurd (h.known _ _ _ h1) (Nat.lt_irrefl _)
    · cases h1
      exact absurd (h.known _ _ _ h2) (Nat.lt_irrefl _)
    · omega
  · intro r i phase hq hne hung
    rcases hq.of_append with hq | ⟨-, hq⟩
    · have hlt := h.known r i phase hq
      have hung' : s.permits.isGranted (.queued i) = false := by
        simpa [RootPermits.isGranted, RootPermits.deref, hold i hlt] using hung
      obtain ⟨hadmitted, hmem⟩ := h.waits r i phase hq hne hung'
      exact ⟨hadmitted, List.mem_append_left _ hmem⟩
    · cases hq
      exact ⟨rfl, by simp⟩
  · have hcount := h.count
    have hnew : RootsState.holdsPermit ⟨{ s.permits with
          pendingAdmissions := s.permits.pendingAdmissions ++ [s.permits.admissions.length]
          admissions := s.permits.admissions ++ [RootPermits.waitingAdmission] },
        s.roots ++ [⟨some (.queued s.permits.admissions.length), .admitted⟩]⟩
          ⟨some (.queued s.permits.admissions.length), .admitted⟩ = false := by
      rw [holdsPermit_of_unfinished rfl (by simp)]
      exact RootPermits.isGranted_of_waiting (by simp)
    have hsame : s.roots.countP (RootsState.holdsPermit ⟨{ s.permits with
          pendingAdmissions := s.permits.pendingAdmissions ++ [s.permits.admissions.length]
          admissions := s.permits.admissions ++ [RootPermits.waitingAdmission] },
        s.roots ++ [⟨some (.queued s.permits.admissions.length), .admitted⟩]⟩) =
        s.roots.countP s.holdsPermit := by
      refine List.countP_congr fun root hroot => ?_
      obtain ⟨r, hr⟩ := List.mem_iff_getElem?.mp hroot
      obtain ⟨adm, phase⟩ := root
      cases adm with
      | none => simp [holdsPermit]
      | some a =>
        cases a with
        | immediate => simp [holdsPermit, RootPermits.isGranted, RootPermits.deref]
        | queued i =>
          have hlt := h.known r i phase hr
          simp [holdsPermit, RootPermits.isGranted, RootPermits.deref, hold i hlt]
    simp only [List.countP_append, List.countP_singleton, hnew, hsame]
    simpa using hcount

/-! ## 6. The step that breaks the bound -/

/-- The root leaves the queue without a permit while another root waits in it. -/
def leavesAhead (s : RootsState) (root : Root) : Bool :=
  match root.admission with
  | some (.queued i) =>
    !s.permits.isGranted (.queued i) && !(s.permits.pendingAdmissions.erase i).isEmpty
  | _ => false

/-- The event withdraws a queued root while another root is queued. -/
def withdrawsAhead (s : RootsState) : RootEvent → Bool
  | .cancel r | .refuse r =>
    match s.roots[r]? with
    | some root => decide (root.phase ≠ .finished) && s.leavesAhead root
    | none => false
  | .go false false =>
    !s.permits.permitFree && !s.permits.pendingBoundReached &&
      !s.permits.pendingAdmissions.isEmpty
  | _ => false

/-- **The end of a root.**  It keeps the invariant, and it raises the counter exactly
    when the root leaves the queue ahead of another one. -/
theorem QueueInv.finishRoot {m : Nat} {s : RootsState} {r : Nat} {root : Root}
    (h : QueueInv m s) (hb : Busy m 0 s) (hr : s.roots[r]? = some root)
    (hphase : root.phase ≠ .finished) :
    QueueInv m (s.finishRoot r root) ∧ Busy m 0 (s.finishRoot r root) ∧
    (s.leavesAhead root = true →
      (s.finishRoot r root).permits.activeRootCount = s.permits.activeRootCount + 1 ∧
        (m : Int) ≤ s.permits.activeRootCount) ∧
    (s.leavesAhead root = false →
      (s.finishRoot r root).permits.activeRootCount ≤ s.permits.activeRootCount) := by
  cases ha : root.admission with
  | none =>
    have heq : s.finishRoot r root =
        { s with roots := s.roots.set r { root with phase := .finished } } := by
      simp [RootsState.finishRoot, ha, RootPermits.finishAdmission]
    have hinv : QueueInv m { s with roots := s.roots.set r { root with phase := .finished } } := by
      refine h.setPhase hr (by simp [ha]) ?_
      simp [holdsPermit, ha]
    rw [heq]
    exact ⟨hinv, hb, by simp [leavesAhead, ha], fun _ => Int.le_refl _⟩
  | some a =>
    have hleft := h.leave hr ha hphase
    -- the counter and the deque after the root has left, before a permit is handed on
    have hgranted : s.permits.isGranted a = true →
        (s.permits.giveBack a).activeRootCount = s.permits.activeRootCount - 1 ∧
        (s.permits.giveBack a).pendingAdmissions = s.permits.pendingAdmissions := by
      intro hg
      simp [RootPermits.giveBack, hg]
    have hqueued : ∀ i, a = .queued i → s.permits.isGranted a = false →
        (s.permits.giveBack a).activeRootCount = s.permits.activeRootCount ∧
        (s.permits.giveBack a).pendingAdmissions = s.permits.pendingAdmissions.erase i := by
      rintro i rfl hg
      simp [RootPermits.giveBack, hg]
    have hkind : s.permits.isGranted a = true ∨
        ∃ i, a = .queued i ∧ s.permits.isGranted a = false := by
      cases a with
      | immediate => exact Or.inl rfl
      | queued i =>
        cases hg : s.permits.isGranted (.queued i) with
        | true => exact Or.inl rfl
        | false => exact Or.inr ⟨i, rfl, rfl⟩
    rcases finishRoot_cases (r := r) ha hleft.queue_waits with
      ⟨hnil, heq⟩ | ⟨j, rest, hcons, heq⟩
    · rw [heq]
      refine ⟨hleft, fun hne => absurd hnil hne, ?_, ?_⟩
      · intro hlv
        rcases hkind with hg | ⟨i, rfl, hg⟩
        · cases a <;> simp [leavesAhead, ha, hg] at hlv
        · rw [(hqueued i rfl hg).2] at hnil
          simp [leavesAhead, ha, hg, hnil] at hlv
      · intro _
        rcases hkind with hg | ⟨i, rfl, hg⟩
        · have := (hgranted hg).1
          simp only
          omega
        · exact Int.le_of_eq (hqueued i rfl hg).1
    · rw [heq]
      have hgrant := hleft.grant (i := j) hcons
      have hcount : ((s.permits.giveBack a).grant j rest).activeRootCount =
          (s.permits.giveBack a).activeRootCount + 1 := rfl
      have hfull : s.permits.pendingAdmissions ≠ [] →
          (m : Int) ≤ s.permits.activeRootCount := by
        intro hne
        simpa using hb hne
      rcases hkind with hg | ⟨i, rfl, hg⟩
      · obtain ⟨hc, hp⟩ := hgranted hg
        have hne : s.permits.pendingAdmissions ≠ [] := by
          rw [← hp, hcons]
          exact List.cons_ne_nil _ _
        refine ⟨hgrant, ?_, ?_, ?_⟩
        · intro _
          have := hfull hne
          simp only [hcount, hc]
          omega
        · intro hlv
          cases a <;> simp [leavesAhead, ha, hg] at hlv
        · intro _
          simp only [hcount, hc]
          omega
      · obtain ⟨hc, hp⟩ := hqueued i rfl hg
        have hne : s.permits.pendingAdmissions ≠ [] := by
          intro hnil
          rw [hnil] at hp
          rw [hp] at hcons
          exact List.cons_ne_nil _ _ hcons.symm
        have hfullm := hfull hne
        refine ⟨hgrant, ?_, ?_, ?_⟩
        · intro _
          simp only [hcount, hc]
          omega
        · intro _
          exact ⟨by simp only [hcount, hc], hfullm⟩
        · intro hlv
          rw [hp] at hcons
          simp [leavesAhead, ha, hg, hcons] at hlv

/-! ## 7. One step -/

/-- What a step does to the counter, next to keeping the invariant. -/
structure StepSpec (m : Nat) (s : RootsState) (e : RootEvent) (s' : RootsState) : Prop where
  inv : QueueInv m s'
  busy : Busy m 0 s'
  breaks : s.withdrawsAhead e = true → (m : Int) < s'.permits.activeRootCount
  bounded : s.withdrawsAhead e = false → s.permits.activeRootCount ≤ m →
    s'.permits.activeRootCount ≤ m

theorem endRoot_spec {m : Nat} {s s' : RootsState} {r : Nat} {phases : List RootPhase}
    {e : RootEvent} (h : QueueInv m s) (hb : Busy m 0 s) (hlive : .finished ∉ phases)
    (hstep : s.endRoot r phases = some s')
    (hahead : ∀ root, s.roots[r]? = some root → root.phase ∈ phases →
      s.withdrawsAhead e = s.leavesAhead root) : StepSpec m s e s' := by
  unfold endRoot at hstep
  split at hstep
  · rename_i root hr
    split at hstep
    · rename_i hmem
      cases hstep
      have hphase : root.phase ≠ .finished := fun he => hlive (he ▸ hmem)
      obtain ⟨hinv, hbusy, hup, hdown⟩ := h.finishRoot hb hr hphase
      rw [← hahead root hr hmem] at hup hdown
      refine ⟨hinv, hbusy, ?_, ?_⟩
      · intro hw
        obtain ⟨hc, hm⟩ := hup hw
        omega
      · intro hw hle
        have := hdown hw
        omega
    · cases hstep
  · cases hstep

/-- A root that executes has its permit, so it does not leave the queue. -/
theorem QueueInv.leavesAhead_executing {m : Nat} {s : RootsState} {r : Nat} {root : Root}
    (h : QueueInv m s) (hr : s.roots[r]? = some root) (hphase : root.phase = .executing) :
    s.leavesAhead root = false := by
  obtain ⟨adm, phase⟩ := root
  cases hphase
  cases adm with
  | none => rfl
  | some a =>
    cases a with
    | immediate => rfl
    | queued i =>
      cases hg : s.permits.isGranted (.queued i) with
      | true => simp [leavesAhead, hg]
      | false =>
        have := (h.waits r i .executing hr (by decide) hg).1
        cases this

theorem QueueInv.admit {m : Nat} {s : RootsState} {nested : Bool} {a : Option AdmissionRef}
    {p : RootPermits} (h : QueueInv m s) (hb : Busy m 0 s)
    (ha : s.permits.admitRootLocked nested = .ok (a, p)) :
    QueueInv m ⟨p, s.roots ++ [⟨a, .admitted⟩]⟩ ∧ Busy m 0 ⟨p, s.roots ++ [⟨a, .admitted⟩]⟩ ∧
      (s.permits.activeRootCount ≤ m → p.activeRootCount ≤ m) := by
  have hfree : s.permits.permitFree = decide (s.permits.activeRootCount < m) := by
    simp [RootPermits.permitFree, h.limit]
  rcases RootPermits.admitRootLocked_cases ha with
    ⟨-, rfl, rfl⟩ | ⟨-, hp, rfl, rfl⟩ | ⟨-, hp, -, rfl, rfl⟩
  · have hnow := h.admitNow (a := none) (d := 0) (by simp) (by simp [holdsPermit])
    refine ⟨by simpa using hnow, fun hne => ?_, fun hle => hle⟩
    exact hb hne
  · have hone : (1 : Int) = (s.holdsPermit ⟨some .immediate, .admitted⟩).toNat := by
      rw [holdsPermit_of_unfinished rfl (by simp)]
      rfl
    refine ⟨h.admitNow (by simp) hone, fun hne => ?_, fun _ => ?_⟩
    · have := hb hne
      simp only
      omega
    · simp only [hfree, decide_eq_true_eq] at hp
      simp only
      omega
  · refine ⟨h.enqueue, fun _ => ?_, fun hle => hle⟩
    simp only [hfree, decide_eq_false_iff_not] at hp
    simp only
    omega

/-- A root admitted by `go()` would leave ahead of others exactly when it was queued
    behind them. -/
theorem QueueInv.leavesAhead_admitted {m : Nat} {s : RootsState} {nested : Bool}
    {a : Option AdmissionRef} {p : RootPermits} (h : QueueInv m s)
    (ha : s.permits.admitRootLocked nested = .ok (a, p)) :
    leavesAhead ⟨p, s.roots ++ [⟨a, .admitted⟩]⟩ ⟨a, .admitted⟩ =
      s.withdrawsAhead (.go nested false) := by
  rcases RootPermits.admitRootLocked_cases ha with
    ⟨rfl, rfl, -⟩ | ⟨rfl, hfree, rfl, -⟩ | ⟨rfl, hfree, hbound, rfl, rfl⟩
  · rfl
  · simp [leavesAhead, withdrawsAhead, hfree]
  · have hfresh : s.permits.admissions.length ∉ s.permits.pendingAdmissions := by
      intro hmem
      have := (List.getElem?_eq_some_iff.mp (h.queue_waits _ hmem)).1
      omega
    have herase : (s.permits.pendingAdmissions ++ [s.permits.admissions.length]).erase
        s.permits.admissions.length = s.permits.pendingAdmissions := by
      rw [List.erase_append_right _ hfresh]
      simp
    simp [leavesAhead, withdrawsAhead, hfree, hbound, herase, RootPermits.isGranted,
      RootPermits.deref]

/-- A root that passes its gate was granted its permit. -/
theorem QueueInv.execute {m : Nat} {s : RootsState} {r : Nat} {root : Root}
    (h : QueueInv m s) (hr : s.roots[r]? = some root) (hphase : root.phase = .admitted)
    (hgate : s.permits.gateOpen root.admission = true) :
    QueueInv m { s with roots := s.roots.set r { root with phase := .executing } } := by
  refine h.setPhase hr ?_ ?_
  · intro i hi
    refine ⟨by simp [hphase], ?_⟩
    rw [RootPermits.isGranted_queued_iff h.shape]
    have hlt : i < s.permits.admissions.length :=
      h.known r i root.phase (by rw [QueuedRoot, hr, ← hi])
    have hget := List.getElem?_eq_getElem hlt
    rcases h.shape i _ hget with hw | hp
    · rw [hw] at hget
      simp [hi, RootPermits.gateOpen, RootPermits.deref, hget,
        RootPermits.waitingAdmission] at hgate
    · rw [hget, hp]
  · simp [holdsPermit, hphase]

theorem step_spec {m : Nat} {s s' : RootsState} {e : RootEvent} (h : QueueInv m s)
    (hb : Busy m 0 s) (hstep : s.step e = some s') : StepSpec m s e s' := by
  cases e with
  | go nested resolves =>
    unfold step at hstep
    cases ha : s.permits.admitRootLocked nested with
    | error err =>
      simp only [ha, Option.some.injEq] at hstep
      subst hstep
      refine ⟨h, hb, ?_, fun _ hle => hle⟩
      -- a refused `go` leaves the state alone and withdraws nobody
      intro hw
      cases nested <;> cases resolves <;> simp [withdrawsAhead] at hw
      obtain ⟨⟨hfree, hbound⟩, -⟩ := hw
      simp [RootPermits.admitRootLocked, hfree, hbound] at ha
    | ok res =>
      obtain ⟨a, p⟩ := res
      simp only [ha] at hstep
      obtain ⟨hinv, hbusy, hle⟩ := h.admit hb ha
      cases resolves with
      | true =>
        simp only [if_true, Option.some.injEq] at hstep
        subst hstep
        refine ⟨hinv, hbusy, ?_, fun _ => hle⟩
        intro hw
        cases nested <;> simp [withdrawsAhead] at hw
      | false =>
        simp only [Bool.false_eq_true, if_false, Option.some.injEq] at hstep
        subst hstep
        have hroot : (s.roots ++ [(⟨a, .admitted⟩ : Root)])[s.roots.length]? =
            some ⟨a, .admitted⟩ := by simp
        obtain ⟨hinv', hbusy', hup, hdown⟩ := hinv.finishRoot hbusy hroot (by simp)
        -- the new root leaves ahead exactly when it was sent behind another one
        have hsame : RootsState.leavesAhead ⟨p, s.roots ++ [⟨a, .admitted⟩]⟩ ⟨a, .admitted⟩ =
            s.withdrawsAhead (.go nested false) := h.leavesAhead_admitted ha
        rw [hsame] at hup hdown
        refine ⟨hinv', hbusy', ?_, ?_⟩
        · intro hw
          obtain ⟨hc, hm⟩ := hup hw
          omega
        · intro hw hcount
          have h1 := hdown hw
          have h2 := hle hcount
          simp only at h1
          omega
  | execute r =>
    simp only [step] at hstep
    split at hstep
    · rename_i root hr
      split at hstep
      · rename_i hcond
        cases hstep
        exact ⟨h.execute hr hcond.1 hcond.2, hb, by simp [withdrawsAhead], fun _ hle => hle⟩
      · cases hstep
    · cases hstep
  | complete r =>
    refine endRoot_spec h hb (by simp) hstep fun root hr hmem => ?_
    rw [h.leavesAhead_executing hr (by simpa using hmem)]
    rfl
  | fail r =>
    refine endRoot_spec h hb (by simp) hstep fun root hr hmem => ?_
    rw [h.leavesAhead_executing hr (by simpa using hmem)]
    rfl
  | cancel r =>
    refine endRoot_spec h hb (by simp) hstep fun root hr hmem => ?_
    have hphase : root.phase ≠ .finished := by
      rintro he
      simp [he] at hmem
    simp [withdrawsAhead, hr, hphase]
  | refuse r =>
    refine endRoot_spec h hb (by simp) hstep fun root hr hmem => ?_
    have hphase : root.phase ≠ .finished := by
      rintro he
      simp [he] at hmem
    simp [withdrawsAhead, hr, hphase]

/-! ## 8. Runs -/

theorem initial_inv {m : Nat} {maxPending : Option Nat} {s : RootsState}
    (h : (rootSystem m maxPending).Init s) : QueueInv m s ∧ Busy m 0 s := by
  obtain rfl : s = _ := h
  refine ⟨⟨rfl, List.nodup_nil, ?_, ?_, ?_, ?_, ?_, ?_, rfl⟩, fun hne => absurd rfl hne⟩
  all_goals intros
  all_goals simp_all [QueuedRoot, RootPermits.QueueWaits, RootPermits.WellShaped]

/-- The invariant holds in every run, also in those that break the bound. -/
theorem reachable_inv {m : Nat} {maxPending : Option Nat} {s : RootsState}
    (h : (rootSystem m maxPending).Reachable s) : QueueInv m s ∧ Busy m 0 s := by
  refine h.invariant (I := fun s => QueueInv m s ∧ Busy m 0 s) (fun _ => initial_inv) ?_
  intro t e t' hi _ hstep
  have spec := step_spec hi.1 hi.2 hstep
  exact ⟨spec.inv, spec.busy⟩

/-- An external root that runs its task holds a permit. -/
theorem QueueInv.runsTask_le {m : Nat} {s : RootsState} (h : QueueInv m s) :
    s.roots.countP runsTask ≤ s.roots.countP s.holdsPermit := by
  refine List.countP_mono_left fun root hroot hruns => ?_
  obtain ⟨r, hr⟩ := List.mem_iff_getElem?.mp hroot
  obtain ⟨adm, phase⟩ := root
  simp only [runsTask, Bool.and_eq_true, decide_eq_true_eq] at hruns
  obtain ⟨rfl, hsome⟩ := hruns
  obtain ⟨a, rfl⟩ := Option.isSome_iff_exists.mp hsome
  rw [holdsPermit_of_unfinished rfl (by simp)]
  cases a with
  | immediate => rfl
  | queued i =>
    by_contra hg
    cases (h.waits r i .executing hr (by decide) (by simpa using hg)).1

end RootsState

/-- **The bound on active roots, and exactly when it holds.**  As long as no queued
    root is withdrawn while another one is queued, at most `m` roots hold a permit or
    run their task; and a step that does withdraw one lets `m + 1` roots hold a permit. -/
theorem activeRootCount_bounded_iff (m : Nat) (maxPending : Option Nat) :
    (∀ s, (rootSystem m maxPending).ReachUnder (fun s e => s.withdrawsAhead e = false) s →
      s.permits.activeRootCount ≤ m ∧ s.roots.countP s.holdsPermit ≤ m ∧
        s.roots.countP RootsState.runsTask ≤ m) ∧
    (∀ s e s', (rootSystem m maxPending).ReachUnder (fun s e => s.withdrawsAhead e = false) s →
      (rootSystem m maxPending).step s e = some s' → s.withdrawsAhead e = true →
      (m : Int) < s'.permits.activeRootCount ∧ m < s'.roots.countP s'.holdsPermit) := by
  constructor
  · intro s hs
    have hinv := (RootsState.reachable_inv hs.reachable).1
    have hbound : s.permits.activeRootCount ≤ m := by
      refine hs.invariant_of (I := fun s => s.permits.activeRootCount ≤ (m : Int))
        (J := fun s => s.QueueInv m ∧ s.Busy m 0)
        (fun t ht => RootsState.reachable_inv ht.reachable) ?_ ?_
      · intro t ht
        obtain rfl : t = _ := ht
        simp
      · intro t e t' hJ hle hok hstep
        exact (RootsState.step_spec hJ.1 hJ.2 hstep).bounded hok hle
    have hholds : s.roots.countP s.holdsPermit ≤ m := by
      have := hinv.count
      omega
    exact ⟨hbound, hholds, Nat.le_trans hinv.runsTask_le hholds⟩
  · intro s e s' hs hstep hw
    obtain ⟨hinv, hbusy⟩ := RootsState.reachable_inv hs.reachable
    have spec := RootsState.step_spec hinv hbusy hstep
    have hlt := spec.breaks hw
    have hcount := spec.inv.count
    exact ⟨hlt, by omega⟩

/-- One permit, three roots: cancelling the second, which is queued, starts the third
    next to the first. -/
theorem activeRootCount_exceeds_limit :
    ¬ ∀ (m : Nat) (maxPending : Option Nat) (s : RootsState),
      (rootSystem m maxPending).Reachable s →
        s.permits.activeRootCount ≤ m ∧ s.roots.countP RootsState.runsTask ≤ m := by
  intro h
  have hreach := System.reachable_of_run (S := rootSystem 1 none)
    (s := { permits := { maxConcurrency := some 1, maxPending := none } })
    [.go false true, .go false true, .go false true, .execute 0, .cancel 1, .execute 2]
    rfl rfl
  exact absurd (h 1 none _ hreach).1 (by decide)

end AgentlyStage
