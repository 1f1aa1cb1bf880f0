import Mathlib.Logic.Relation
import Mathlib.Order.Basic

/-!
# Relations without a circle

A relation that grows by one pair at a time stays without a circle exactly as long as no new
pair closes one: the second element must not lead back to the first.
-/

namespace Circles

open Relation

universe u
variable {α : Type u} {r r' : α → α → Prop} {a b x y : α}

/-- No element leads back to itself. -/
def NoCircle (r : α → α → Prop) : Prop := ∀ x, ¬ TransGen r x x

theorem NoCircle.mono (h : NoCircle r) (hle : ∀ x y, r' x y → r x y) : NoCircle r' :=
  fun x hx => h x (TransGen.mono hle x x hx)

/-- Pairs that go upwards close no circle. -/
theorem NoCircle.of_lt [Preorder α] (h : ∀ x y, r x y → x < y) : NoCircle r := by
  have hlt : ∀ x y, TransGen r x y → x < y := by
    intro x y hxy
    induction hxy with
    | single hedge => exact h _ _ hedge
    | tail _ hedge ih => exact lt_trans ih (h _ _ hedge)
  exact fun x hx => lt_irrefl x (hlt x x hx)

/-- Pairs that go upwards lead upwards. -/
theorem le_of_leads [Preorder α] (h : ∀ x y, r x y → x < y) (hxy : ReflTransGen r x y) :
    x ≤ y := by
  induction hxy with
  | refl => exact le_refl x
  | tail _ hedge ih => exact le_trans ih (le_of_lt (h _ _ hedge))

/-- A way in the greater relation stays in the smaller one, or goes over the new pair once. -/
theorem transGen_insert (hnew : ∀ x y, r' x y → r x y ∨ x = a ∧ y = b)
    (hback : ¬ ReflTransGen r b a) (h : TransGen r' x y) :
    TransGen r x y ∨ ReflTransGen r x a ∧ ReflTransGen r b y := by
  induction h with
  | single hedge =>
    rcases hnew _ _ hedge with hold | ⟨rfl, rfl⟩
    · exact Or.inl (.single hold)
    · exact Or.inr ⟨.refl, .refl⟩
  | tail _ hedge ih =>
    rcases hnew _ _ hedge with hold | ⟨rfl, rfl⟩
    · rcases ih with hpath | ⟨hleft, hright⟩
      · exact Or.inl (hpath.tail hold)
      · exact Or.inr ⟨hleft, hright.tail hold⟩
    · rcases ih with hpath | ⟨-, hright⟩
      · exact Or.inr ⟨hpath.to_reflTransGen, .refl⟩
      · exact absurd hright hback

/-- **A new pair closes no circle if its second element does not lead back to its first.** -/
theorem NoCircle.insert (h : NoCircle r) (hnew : ∀ x y, r' x y → r x y ∨ x = a ∧ y = b)
    (hback : ¬ ReflTransGen r b a) : NoCircle r' := by
  intro x hx
  rcases transGen_insert hnew hback hx with hold | ⟨hleft, hright⟩
  · exact h x hold
  · exact hback (hright.trans hleft)

/-- A new pair whose second element leads back closes a circle. -/
theorem not_noCircle (hold : ∀ x y, r x y → r' x y) (hnew : r' a b)
    (hback : ReflTransGen r b a) : ¬ NoCircle r' :=
  fun h => h a (TransGen.trans_left (.single hnew) (ReflTransGen.mono hold b a hback))

end Circles
