import Mathlib.Data.List.Basic

/-!
# Grouping by a key

The groups of a list under a key, in the order in which the keys appear first, each with its
members in the order of the list: what a loop that adds every element to an insertion-ordered
dictionary of lists builds.
-/

namespace Grouping

universe u v

variable {κ : Type u} {α : Type v} [DecidableEq κ]

/-- Add `a` to the group of `k`, which is opened when there is none. -/
def add (k : κ) (a : α) : List (κ × List α) → List (κ × List α)
  | [] => [(k, [a])]
  | (k', members) :: groups =>
    if k' = k then (k', members ++ [a]) :: groups else (k', members) :: add k a groups

def groupBy (key : α → κ) (l : List α) : List (κ × List α) :=
  l.foldl (fun groups a => add (key a) a groups) []

/-- The members of the groups of `k`. -/
def members (k : κ) (groups : List (κ × List α)) : List α :=
  (groups.filter fun group => decide (group.1 = k)).flatMap Prod.snd

@[simp] theorem members_nil (k : κ) : members k ([] : List (κ × List α)) = [] := rfl

theorem members_cons (k k' : κ) (l : List α) (groups : List (κ × List α)) :
    members k ((k', l) :: groups) = if k' = k then l ++ members k groups else members k groups := by
  unfold members
  rw [List.filter_cons]
  by_cases h : k' = k
  · simp [h]
  · simp [h]

theorem members_append (k : κ) (groups later : List (κ × List α)) :
    members k (groups ++ later) = members k groups ++ members k later := by
  rw [members, List.filter_append, List.flatMap_append]
  rfl

theorem members_of_not_mem {k : κ} {groups : List (κ × List α)}
    (h : k ∉ groups.map Prod.fst) : members k groups = [] := by
  induction groups with
  | nil => rfl
  | cons group groups ih =>
    obtain ⟨k', l⟩ := group
    rw [List.map_cons, List.mem_cons, not_or] at h
    rw [members_cons, if_neg (Ne.symm h.1), ih h.2]

theorem mem_keys_add {k k' : κ} {a : α} {groups : List (κ × List α)}
    (h : k' ∈ (add k a groups).map Prod.fst) : k' = k ∨ k' ∈ groups.map Prod.fst := by
  induction groups with
  | nil => exact Or.inl (List.mem_singleton.mp h)
  | cons group groups ih =>
    obtain ⟨k'', l⟩ := group
    rw [add] at h
    split at h
    · exact Or.inr h
    · rcases List.mem_cons.mp h with rfl | h
      · exact Or.inr List.mem_cons_self
      · exact (ih h).imp_right (List.mem_cons_of_mem _)

theorem nodup_keys_add {groups : List (κ × List α)} (h : (groups.map Prod.fst).Nodup) (k : κ)
    (a : α) : ((add k a groups).map Prod.fst).Nodup := by
  induction groups with
  | nil => simp [add]
  | cons group groups ih =>
    obtain ⟨k', l⟩ := group
    obtain ⟨hnot, hrest⟩ := List.nodup_cons.mp h
    rw [add]
    split
    · exact List.nodup_cons.mpr ⟨hnot, hrest⟩
    · rename_i hne
      refine List.nodup_cons.mpr ⟨fun hmem => ?_, ih hrest⟩
      rcases mem_keys_add hmem with heq | hmem
      · exact hne heq
      · exact hnot hmem

/-- Only the group of the key changes. -/
theorem members_add {groups : List (κ × List α)} (h : (groups.map Prod.fst).Nodup) (k k' : κ)
    (a : α) :
    members k' (add k a groups) = members k' groups ++ (if k = k' then [a] else []) := by
  induction groups with
  | nil => rw [add, members_cons, members_nil, List.append_nil, List.nil_append]
  | cons group groups ih =>
    obtain ⟨k'', l⟩ := group
    obtain ⟨hnot, hrest⟩ := List.nodup_cons.mp h
    rw [add]
    by_cases hk : k'' = k
    · subst hk
      rw [if_pos rfl, members_cons, members_cons]
      split
      · rename_i heq
        subst heq
        rw [members_of_not_mem hnot, List.append_nil, List.append_nil]
      · rw [List.append_nil]
    · rw [if_neg hk, members_cons, members_cons, ih hrest]
      split
      · rw [List.append_assoc]
      · rfl

/-- Every element in a group of its own. -/
theorem members_singletons (key : α → κ) (l : List α) (k : κ) :
    members k (l.map fun a => (key a, [a])) = l.filter fun a => decide (key a = k) := by
  induction l with
  | nil => rfl
  | cons a l ih =>
    rw [List.map_cons, members_cons, ih, List.filter_cons]
    by_cases h : key a = k
    · simp [h]
    · simp [h]

theorem members_groupBy (key : α → κ) (l : List α) (k : κ) :
    members k (groupBy key l) = l.filter fun a => decide (key a = k) := by
  have hgeneral : ∀ groups : List (κ × List α), (groups.map Prod.fst).Nodup →
      members k (l.foldl (fun groups a => add (key a) a groups) groups) =
        members k groups ++ l.filter fun a => decide (key a = k) := by
    induction l with
    | nil => simp
    | cons a l ih =>
      intro groups hgroups
      rw [List.foldl_cons, ih _ (nodup_keys_add hgroups _ _), members_add hgroups,
        List.filter_cons, List.append_assoc]
      by_cases h : key a = k
      · simp [h]
      · simp [h]
  exact hgeneral [] List.nodup_nil

end Grouping
