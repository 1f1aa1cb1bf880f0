import Mathlib.Data.Finset.Card
import Mathlib.Data.Int.ModEq

/-!
# Positions on a ring and round-robin service

The positions `0 … n - 1` in cyclic order from a cursor, the first position at or after the
cursor that has a property, and what a cursor that moves just past each chosen position
guarantees: members that stay eligible are served one after the other.
-/

namespace Cyclic

/-! ## 1. Distances -/

/-- How far position `i` is from the cursor `c` on a ring of `n` positions. -/
def distance (n c i : Nat) : Nat := (((i : Int) - (c : Int)) % (n : Int)).toNat

variable {n c i d e : Nat}

theorem distance_cast (hn : 0 < n) : ((distance n c i : Nat) : Int) = ((i : Int) - c) % n :=
  Int.toNat_of_nonneg (Int.emod_nonneg _ (by omega))

theorem distance_lt (hn : 0 < n) : distance n c i < n := by
  have hlt : ((distance n c i : Nat) : Int) < n := by
    rw [distance_cast hn]
    exact Int.emod_lt_of_pos _ (by omega)
  exact_mod_cast hlt

/-- Walking the distance from the cursor leads to the position. -/
theorem add_distance (hi : i < n) : (c + distance n c i) % n = i := by
  have h : ((c : Int) + ((i : Int) - c) % n) % n = i := by
    rw [Int.add_emod_emod, add_sub_cancel]
    exact Int.emod_eq_of_lt (by omega) (by omega)
  rw [← distance_cast (by omega)] at h
  exact_mod_cast h

/-- The position `d` steps from the cursor is at distance `d`. -/
theorem distance_add (hd : d < n) : distance n c ((c + d) % n) = d := by
  have h : ((((c + d) % n : Nat) : Int) - c) % n = d := by
    rw [Int.natCast_mod, Int.emod_sub_emod, Nat.cast_add, add_sub_cancel_left]
    exact Int.emod_eq_of_lt (by omega) (by omega)
  rw [← distance_cast (by omega)] at h
  exact_mod_cast h

theorem add_mod_inj (hd : d < n) (he : e < n) (h : (c + d) % n = (c + e) % n) : d = e := by
  rw [← distance_add (c := c) hd, h, distance_add he]

/-! ## 2. The first position from a cursor -/

/-- `i` is the first position with `p` at or cyclically after the cursor `c`. -/
def IsFirstFrom (n c : Nat) (p : Nat → Prop) (i : Nat) : Prop :=
  p i ∧ ∃ d < n, i = (c + d) % n ∧ ∀ e < d, ¬ p ((c + e) % n)

/-- The position with `p` that is nearest to the cursor is the first one from it. -/
theorem isFirstFrom_of_nearest {p : Nat → Prop} (hi : i < n) (hp : p i)
    (h : ∀ j < n, p j → distance n c i ≤ distance n c j) : IsFirstFrom n c p i := by
  have hn : 0 < n := by omega
  refine ⟨hp, distance n c i, distance_lt hn, (add_distance hi).symm, fun e he hpe => ?_⟩
  have hle := h _ (Nat.mod_lt _ hn) hpe
  rw [distance_add (he.trans (distance_lt hn))] at hle
  omega

theorem IsFirstFrom.unique {p : Nat → Prop} {j : Nat} (hi : IsFirstFrom n c p i)
    (hj : IsFirstFrom n c p j) : i = j := by
  obtain ⟨hpi, d, -, rfl, hd⟩ := hi
  obtain ⟨hpj, e, -, rfl, he⟩ := hj
  rcases Nat.lt_trichotomy d e with h | rfl | h
  · exact absurd hpi (he d h)
  · rfl
  · exact absurd hpj (hd e h)

/-! ## 3. Round robin -/

/-- Positions chosen one after the other: each is the first one from the cursor with its
    property, and the cursor moves just past it. -/
def Serves (n : Nat) : Nat → List ((Nat → Prop) × Nat) → Prop
  | _, [] => True
  | c, (p, i) :: rest => IsFirstFrom n c p i ∧ Serves n ((i + 1) % n) rest

/-- The positions are visited in cyclic order from `c`, each at most once. -/
def InCyclicOrder (n c : Nat) (is : List Nat) : Prop :=
  ∃ ds : List Nat, ds.Pairwise (· < ·) ∧ (∀ d ∈ ds, d < n) ∧ is = ds.map fun d => (c + d) % n

theorem InCyclicOrder.nodup {is : List Nat} (h : InCyclicOrder n c is) : is.Nodup := by
  obtain ⟨ds, hsorted, hlt, rfl⟩ := h
  refine List.Nodup.map_on (fun d hd e he hde => add_mod_inj (hlt d hd) (hlt e he) hde) ?_
  exact hsorted.imp Nat.ne_of_lt

/-- While the members `(c + d) % n` for `d` in `D` stay eligible, no choice goes past the
    next of them: as many choices as there are members pass the positions from `b` to the
    last member, each once. -/
theorem Serves.from_offset {m b : Nat} {choices : List ((Nat → Prop) × Nat)}
    {D : Finset Nat} (hD : ∀ d ∈ D, b ≤ d ∧ d < m)
    (heligible : ∀ choice ∈ choices, ∀ d ∈ D, choice.1 ((c + d) % n))
    (hlength : choices.length ≤ D.card) (h : Serves n ((c + b) % n) choices) :
    ∃ ds : List Nat, ds.Pairwise (· < ·) ∧ (∀ d ∈ ds, b ≤ d ∧ d < m) ∧
      choices.map Prod.snd = ds.map fun d => (c + d) % n := by
  induction choices generalizing b D with
  | nil => exact ⟨[], List.Pairwise.nil, by simp, rfl⟩
  | cons choice rest ih =>
    obtain ⟨p, i⟩ := choice
    obtain ⟨⟨hp, d, hd, rfl, hfirst⟩, hrest⟩ := h
    -- the choice is not past any member
    have hle : ∀ e ∈ D, b + d ≤ e := by
      intro e he
      obtain ⟨hbe, -⟩ := hD e he
      by_contra hlt
      have hpe := heligible _ List.mem_cons_self e he
      refine hfirst (e - b) (by omega) ?_
      rw [Nat.mod_add_mod, show c + b + (e - b) = c + e by omega]
      exact hpe
    obtain ⟨e, he⟩ : D.Nonempty := by
      rw [← Finset.card_pos]
      simp only [List.length_cons] at hlength
      omega
    have hnext : (((c + b) % n + d) % n + 1) % n = (c + (b + d + 1)) % n := by
      rw [Nat.mod_add_mod, Nat.add_assoc, Nat.mod_add_mod, Nat.add_assoc, Nat.add_assoc]
    rw [hnext] at hrest
    obtain ⟨ds, hsorted, hbounds, hmap⟩ := ih (D := D.erase (b + d))
      (fun x hx => by
        obtain ⟨hne, hx⟩ := Finset.mem_erase.mp hx
        have h1 := hle x hx
        have h2 := hD x hx
        omega)
      (fun choice hchoice x hx => heligible choice (List.mem_cons_of_mem _ hchoice) x
        (Finset.mem_of_mem_erase hx))
      (by
        have hcard := Finset.pred_card_le_card_erase (s := D) (a := b + d)
        simp only [List.length_cons] at hlength
        omega)
      hrest
    refine ⟨(b + d) :: ds, List.pairwise_cons.mpr ⟨fun x hx => ?_, hsorted⟩, ?_, ?_⟩
    · have := hbounds x hx
      omega
    · intro x hx
      rcases List.mem_cons.mp hx with rfl | hx
      · have h1 := hle e he
        have h2 := hD e he
        omega
      · have := hbounds x hx
        omega
    · rw [List.map_cons, List.map_cons, hmap]
      congr 1
      change ((c + b) % n + d) % n = _
      rw [Nat.mod_add_mod, Nat.add_assoc]

/-- **Round robin.**  While the members of `S` stay eligible, any `|S|` consecutive choices
    are distinct and in cyclic order. -/
theorem Serves.inCyclicOrder {choices : List ((Nat → Prop) × Nat)} {S : Finset Nat}
    (hS : ∀ i ∈ S, i < n) (heligible : ∀ choice ∈ choices, ∀ i ∈ S, choice.1 i)
    (hlength : choices.length ≤ S.card) (h : Serves n c choices) :
    InCyclicOrder n c (choices.map Prod.snd) := by
  cases choices with
  | nil => exact ⟨[], List.Pairwise.nil, by simp, rfl⟩
  | cons choice rest =>
    -- the cursor itself may lie beyond the ring
    have hserves : Serves n ((c % n + 0) % n) (choice :: rest) := by
      obtain ⟨⟨hp, d, hd, hi, hfirst⟩, hrest⟩ := h
      refine ⟨⟨hp, d, hd, ?_, fun e he => ?_⟩, hrest⟩
      · rw [hi, Nat.add_zero, Nat.mod_mod, Nat.mod_add_mod]
      · rw [Nat.add_zero, Nat.mod_mod, Nat.mod_add_mod]
        exact hfirst e he
    have hinj : Set.InjOn (distance n c) S := by
      intro i hi j hj hij
      rw [← add_distance (c := c) (hS i hi), hij, add_distance (hS j hj)]
    obtain ⟨ds, hsorted, hbounds, hmap⟩ := Serves.from_offset (m := n)
      (D := S.image (distance n c)) (b := 0) (c := c % n)
      (fun d hd => by
        obtain ⟨i, hi, rfl⟩ := Finset.mem_image.mp hd
        have hlt := hS i hi
        exact ⟨Nat.zero_le _, distance_lt (by omega)⟩)
      (fun choice hchoice d hd => by
        obtain ⟨i, hi, rfl⟩ := Finset.mem_image.mp hd
        rw [Nat.mod_add_mod, add_distance (hS i hi)]
        exact heligible choice hchoice i hi)
      (by rwa [Finset.card_image_of_injOn hinj])
      hserves
    refine ⟨ds, hsorted, fun d hd => (hbounds d hd).2, hmap.trans ?_⟩
    exact List.map_congr_left fun d _ => Nat.mod_add_mod c n d

end Cyclic
