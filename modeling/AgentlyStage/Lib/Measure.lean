import AgentlyStage.Lib.Counting

/-!
# Measures of tables

The weight of a table is the sum of the weights of its entries.  A step that rewrites one entry
and adds others at the end changes it by what these weigh, and so does a step that changes the
weight of one entry; together with the variant rule this bounds the runs of a system whose
objects all go on to their end.
-/

namespace Transition

variable {α : Type*}

/-- The sum of the weights of the entries. -/
def total (weight : α → Nat) : List α → Nat
  | [] => 0
  | x :: xs => weight x + total weight xs

variable {weight : α → Nat} {l l' : List α} {i : Nat} {x y : α}

theorem total_append : total weight (l ++ l') = total weight l + total weight l' := by
  induction l with
  | nil => exact (Nat.zero_add _).symm
  | cons z zs ih =>
    rw [List.cons_append, total, total, ih]
    omega

/-- Rewriting one entry exchanges its weight. -/
theorem total_set (hx : l[i]? = some x) :
    total weight (l.set i y) + weight x = total weight l + weight y := by
  induction l generalizing i with
  | nil => cases hx
  | cons z zs ih =>
    cases i with
    | zero =>
      cases hx
      rw [List.set_cons_zero, total, total]
      omega
    | succ i =>
      have hrest := ih (i := i) hx
      rw [List.set_cons_succ, total, total]
      omega

/-- A step that rewrites one entry, and adds others that weigh less than it loses. -/
theorem total_change_lt (hx : l[i]? = some x) (hless : weight y + total weight l' < weight x) :
    total weight (l.set i y ++ l') < total weight l := by
  have hset := @total_set _ weight _ _ _ y hx
  rw [total_append]
  omega

/-- The weights agree on the entries. -/
theorem total_congr {weight' : α → Nat} (h : ∀ x ∈ l, weight' x = weight x) :
    total weight' l = total weight l := by
  induction l with
  | nil => rfl
  | cons z zs ih =>
    have hrest : ∀ x ∈ zs, weight' x = weight x := fun x hx => h x (List.mem_cons_of_mem _ hx)
    rw [total, total, h z List.mem_cons_self, ih hrest]

/-- Two weights that differ at one entry exchange what it weighs. -/
theorem total_change (weight weight' : α → Nat) (hnodup : l.Nodup) (hx : x ∈ l)
    (h : ∀ y ∈ l, y ≠ x → weight' y = weight y) :
    total weight' l + weight x = total weight l + weight' x := by
  induction l with
  | nil => exact absurd hx List.not_mem_nil
  | cons z zs ih =>
    obtain ⟨hnotin, hzs⟩ := List.nodup_cons.mp hnodup
    rw [total, total]
    rcases List.mem_cons.mp hx with rfl | hx
    · have hrest : total weight' zs = total weight zs := by
        apply total_congr
        intro y hy
        apply h y (List.mem_cons_of_mem _ hy)
        rintro rfl
        exact hnotin hy
      omega
    · have hz : weight' z = weight z := by
        apply h z List.mem_cons_self
        rintro rfl
        exact hnotin hx
      have hadd := ih hzs hx fun y hy => h y (List.mem_cons_of_mem _ hy)
      omega

end Transition
