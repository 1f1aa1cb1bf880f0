import Mathlib.Data.List.Basic

/-!
# Counting in tables

The models keep their objects in lists that only grow, so an object is named by its
index.  A state change rewrites one entry, or changes the value of a predicate at one
entry; the lemmas below turn such a change into one unit of `countP`.
-/

namespace Transition

variable {α : Type*}

/-- Rewriting one entry changes `countP` by the difference at that entry. -/
theorem countP_set_add {l : List α} {i : Nat} {x y : α} {p : α → Bool}
    (hx : l[i]? = some x) :
    (l.set i y).countP p + (p x).toNat = l.countP p + (p y).toNat := by
  induction l generalizing i with
  | nil => simp at hx
  | cons z zs ih =>
    cases i with
    | zero =>
      obtain rfl : z = x := by simpa using hx
      simp only [List.set_cons_zero, List.countP_cons]
      cases p z <;> cases p y <;> simp
    | succ i =>
      have hrest := ih (i := i) (by simpa using hx)
      simp only [List.set_cons_succ, List.countP_cons]
      omega

/-- Two predicates that agree except at entry `i`, where the second one is gained. -/
theorem countP_gain {l : List α} {i : Nat} {x : α} {p q : α → Bool}
    (hx : l[i]? = some x) (hp : p x = false) (hq : q x = true)
    (hother : ∀ j y, l[j]? = some y → j ≠ i → p y = q y) :
    l.countP q = l.countP p + 1 := by
  induction l generalizing i with
  | nil => simp at hx
  | cons z zs ih =>
    cases i with
    | zero =>
      obtain rfl : z = x := by simpa using hx
      have hzs : zs.countP q = zs.countP p := by
        refine List.countP_congr fun y hy => ?_
        obtain ⟨j, hj⟩ := List.mem_iff_getElem?.mp hy
        rw [hother (j + 1) y (by simpa using hj) (by omega)]
      simp [hp, hq, hzs]
    | succ i =>
      have hz : p z = q z := hother 0 z (by simp) (by omega)
      have hrest := ih (i := i) (by simpa using hx) fun j y hj hne =>
        hother (j + 1) y (by simpa using hj) (by omega)
      simp only [List.countP_cons, hz, hrest]
      omega

theorem countP_set_same {l : List α} {i : Nat} {x y : α} {p : α → Bool}
    (hx : l[i]? = some x) (hp : p y = p x) : (l.set i y).countP p = l.countP p := by
  have hadd := countP_set_add (y := y) (p := p) hx
  rw [hp] at hadd
  exact Nat.add_right_cancel hadd

theorem countP_set_drop {l : List α} {i : Nat} {x y : α} {p : α → Bool}
    (hx : l[i]? = some x) (hpx : p x = true) (hpy : p y = false) :
    (l.set i y).countP p + 1 = l.countP p := by
  have hadd := countP_set_add (y := y) (p := p) hx
  rwa [hpx, hpy] at hadd

theorem countP_concat (l : List α) (x : α) (p : α → Bool) :
    (l ++ [x]).countP p = l.countP p + (p x).toNat := by
  rw [List.countP_append, List.countP_singleton]
  cases p x <;> rfl

/-- An entry of a rewritten table is the new one or an old one. -/
theorem getElem?_set_cases {l : List α} {i j : Nat} {x y a : α}
    (hx : l[i]? = some x) (hget : (l.set i y)[j]? = some a) :
    (j = i ∧ a = y) ∨ (j ≠ i ∧ l[j]? = some a) := by
  have hlt : i < l.length := (List.getElem?_eq_some_iff.mp hx).1
  rw [List.getElem?_set] at hget
  by_cases hij : i = j
  · subst hij
    rw [if_pos rfl, if_pos hlt] at hget
    exact Or.inl ⟨rfl, (Option.some.inj hget).symm⟩
  · rw [if_neg hij] at hget
    exact Or.inr ⟨fun h => hij h.symm, hget⟩

theorem getElem?_set_self' {l : List α} {i : Nat} {x y : α}
    (hx : l[i]? = some x) : (l.set i y)[i]? = some y := by
  have hlt : i < l.length := (List.getElem?_eq_some_iff.mp hx).1
  simp [hlt]

/-- Rewriting one entry exchanges its share of what the entries hold. -/
theorem flatMap_set_perm {β : Type*} {l : List α} {i : Nat} {x y : α} {f : α → List β}
    (hx : l[i]? = some x) : ((l.set i y).flatMap f ++ f x).Perm (l.flatMap f ++ f y) := by
  induction l generalizing i with
  | nil => simp at hx
  | cons z zs ih =>
    cases i with
    | zero =>
      obtain rfl : z = x := by simpa using hx
      rw [List.set_cons_zero, List.flatMap_cons, List.flatMap_cons, List.append_assoc,
        List.append_assoc]
      -- the share of the new entry goes to the end, that of the old one to the front
      refine List.perm_append_comm.trans ?_
      rw [← List.append_assoc]
      exact List.perm_append_comm.append_right _
    | succ i =>
      rw [List.set_cons_succ, List.flatMap_cons, List.flatMap_cons, List.append_assoc,
        List.append_assoc]
      exact (ih (by simpa using hx)).append_left _

/-- An entry of an extended table is the new one or an old one. -/
theorem getElem?_append_cases {l : List α} {j : Nat} {x a : α}
    (hget : (l ++ [x])[j]? = some a) : (j = l.length ∧ a = x) ∨ l[j]? = some a := by
  rcases Nat.lt_trichotomy j l.length with hj | hj | hj
  · rw [List.getElem?_append_left hj] at hget
    exact Or.inr hget
  · subst hj
    simp only [List.getElem?_concat_length, Option.some.injEq] at hget
    exact Or.inl ⟨rfl, hget.symm⟩
  · rw [List.getElem?_eq_none (by simp; omega)] at hget
    cases hget

/-- An entry of a table that grows at its end. -/
theorem getElem?_append_of_some {l : List α} {k : Nat} {a : α} (l' : List α)
    (hget : l[k]? = some a) : (l ++ l')[k]? = some a :=
  (List.getElem?_append_left (List.getElem?_eq_some_iff.mp hget).1).trans hget

theorem getElem?_append_ne {l : List α} {j : Nat} (x : α) (hj : j ≠ l.length) :
    (l ++ [x])[j]? = l[j]? := by
  rcases Nat.lt_or_gt_of_ne hj with hlt | hgt
  · exact List.getElem?_append_left hlt
  · rw [List.getElem?_eq_none (by simp; omega), List.getElem?_eq_none (by omega)]

end Transition
