import Mathlib.Logic.Relation
import Mathlib.Logic.Function.Iterate
import Mathlib.Tactic.Choose

/-!
# Following a chain to its end

A recursion without branching: the body answers, or hands over to one further call.  With a
bound on the calls it is a function; it answers for some bound exactly when the chain of calls
is not endless.
-/

namespace Chase

universe u v
variable {α : Type u} {β : Type v}

/-! ## 1. Runs with a bound on the calls -/

/-- At most so many calls of the body. -/
def chase (body : α → β ⊕ α) : Nat → α → Option β
  | 0, _ => none
  | calls + 1, a =>
    match body a with
    | .inl b => some b
    | .inr a' => chase body calls a'

/-- The call for `a` hands over to the call for `a'`. -/
def HandsOver (body : α → β ⊕ α) (a a' : α) : Prop := body a = .inr a'

/-- The calls that follow from the one for `a`. -/
def Leads (body : α → β ⊕ α) : α → α → Prop := Relation.ReflTransGen (HandsOver body)

/-- Every call hands over. -/
def Endless (body : α → β ⊕ α) (a : α) : Prop :=
  ∃ f : Nat → α, f 0 = a ∧ ∀ i, HandsOver body (f i) (f (i + 1))

variable {body : α → β ⊕ α} {a a' : α} {b : β} {m n : Nat}

theorem chase_answer (h : body a = .inl b) (n : Nat) : chase body (n + 1) a = some b := by
  rw [chase, h]

theorem chase_handsOver (h : HandsOver body a a') (n : Nat) :
    chase body (n + 1) a = chase body n a' := by
  rw [chase, h]

/-- An answer comes from a body that the chain leads to. -/
theorem leads_of_chase (h : chase body n a = some b) : ∃ c, Leads body a c ∧ body c = .inl b := by
  induction n generalizing a with
  | zero => cases h
  | succ n ih =>
    cases hbody : body a with
    | inl b' =>
      rw [chase_answer hbody] at h
      cases h
      exact ⟨a, .refl, hbody⟩
    | inr a' =>
      rw [chase_handsOver hbody] at h
      obtain ⟨c, hleads, hc⟩ := ih h
      exact ⟨c, hleads.head hbody, hc⟩

/-- The chain leads to an answer, and enough calls give it. -/
theorem chase_of_leads {c : α} (hleads : Leads body a c) (hc : body c = .inl b) :
    ∃ n, chase body n a = some b := by
  induction hleads using Relation.ReflTransGen.head_induction_on with
  | refl => exact ⟨1, chase_answer hc 0⟩
  | head hover _ ih =>
    obtain ⟨n, hn⟩ := ih
    exact ⟨n + 1, (chase_handsOver hover n).trans hn⟩

/-! ## 2. One end or none -/

/-- The calls of a chain are a line. -/
theorem leads_or_leads {c d : α} (hc : Leads body a c) (hd : Leads body a d) :
    Leads body c d ∨ Leads body d c := by
  induction hc using Relation.ReflTransGen.head_induction_on with
  | refl => exact Or.inl hd
  | head hover hrest ih =>
    rcases hd.cases_head with rfl | ⟨e, hover', hd⟩
    · exact Or.inr (hrest.head hover)
    · have hsame := hover.symm.trans hover'
      cases hsame
      exact ih hd

theorem leads_of_answer {c d : α} (hb : body c = .inl b) (h : Leads body c d) : d = c := by
  rcases h.cases_head with rfl | ⟨e, hover, -⟩
  · rfl
  · rw [HandsOver, hb] at hover
    cases hover

/-- A chain has one end. -/
theorem end_unique {b' : β} {c d : α} (hc : Leads body a c) (hb : body c = .inl b)
    (hd : Leads body a d) (hb' : body d = .inl b') : c = d := by
  rcases leads_or_leads hc hd with h | h
  · exact (leads_of_answer hb h).symm
  · exact leads_of_answer hb' h

/-! ## 3. Endless chains -/

theorem Endless.leads {f : Nat → α} (h : ∀ i, HandsOver body (f i) (f (i + 1))) (i : Nat) :
    Leads body (f 0) (f i) := by
  induction i with
  | zero => exact .refl
  | succ i ih => exact ih.tail (h i)

/-- What every call passes on to the next one makes the chain endless. -/
theorem endless_of_invariant {p : α → Prop} (hp : ∀ x, p x → ∃ y, HandsOver body x y ∧ p y)
    (ha : p a) : Endless body a := by
  choose g hg using hp
  let next : { x // p x } → { x // p x } := fun x => ⟨g x.1 x.2, (hg x.1 x.2).2⟩
  refine ⟨fun i => (next^[i] ⟨a, ha⟩).1, rfl, fun i => ?_⟩
  have h := (hg _ (next^[i] ⟨a, ha⟩).2).1
  change HandsOver body (next^[i] ⟨a, ha⟩).1 (next^[i + 1] ⟨a, ha⟩).1
  rw [Function.iterate_succ_apply']
  exact h

/-- **A chain answers or is endless.** -/
theorem answers_or_endless (body : α → β ⊕ α) (a : α) :
    (∃ n b, chase body n a = some b) ∨ Endless body a := by
  by_cases h : ∃ c b, Leads body a c ∧ body c = .inl b
  · obtain ⟨c, b, hleads, hc⟩ := h
    obtain ⟨n, hn⟩ := chase_of_leads hleads hc
    exact Or.inl ⟨n, b, hn⟩
  · refine Or.inr (endless_of_invariant (p := Leads body a) (fun x hx => ?_) .refl)
    cases hbody : body x with
    | inl b => exact absurd ⟨x, b, hx, hbody⟩ h
    | inr y => exact ⟨y, hbody, hx.tail hbody⟩

/-- An endless chain has no end. -/
theorem Endless.not_answer (h : Endless body a) : chase body n a ≠ some b := by
  obtain ⟨f, rfl, hover⟩ := h
  intro hn
  induction n generalizing f with
  | zero => cases hn
  | succ n ih =>
    rw [chase_handsOver (hover 0)] at hn
    exact ih (fun i => f (i + 1)) (fun i => hover (i + 1)) hn

/-- A chain that leads to an endless one is endless. -/
theorem Leads.endless (h : Leads body a a') (h' : Endless body a') : Endless body a := by
  rcases answers_or_endless body a with ⟨n, b, hn⟩ | hendless
  · obtain ⟨c, hc, hb⟩ := leads_of_chase hn
    obtain ⟨f, rfl, hover⟩ := h'
    rcases leads_or_leads hc h with hca | hac
    · -- the chain has ended before
      have hsame := leads_of_answer hb hca
      have hover := hover 0
      rw [hsame, HandsOver, hb] at hover
      cases hover
    · obtain ⟨n, hn⟩ := chase_of_leads hac hb
      exact absurd hn (Endless.not_answer ⟨f, rfl, hover⟩)
  · exact hendless

end Chase
