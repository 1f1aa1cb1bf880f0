import Mathlib.Data.List.Basic

/-!
# Order in a FIFO queue

`Ahead a p q`: the queue `q` holds an `a` with nothing that satisfies `p` in front of it.
A queue that only grows at its end and shrinks at its front keeps this until `a` itself
is taken, so what was enqueued first is handled first.
-/

namespace Fifo

universe u

variable {α : Type u} {a c : α} {p : α → Prop} {q : List α}

def Ahead (a : α) (p : α → Prop) (q : List α) : Prop :=
  ∃ pre post, q = pre ++ a :: post ∧ ∀ b ∈ pre, ¬ p b

theorem Ahead.enqueue (h : Ahead a p q) (c : α) : Ahead a p (q ++ [c]) := by
  obtain ⟨pre, post, rfl, hb⟩ := h
  exact ⟨pre, post ++ [c], by simp, hb⟩

theorem Ahead.append (h : Ahead a p q) (more : List α) : Ahead a p (q ++ more) := by
  obtain ⟨pre, post, rfl, hb⟩ := h
  exact ⟨pre, post ++ more, by simp, hb⟩

/-- Enqueueing `a` while nothing with `p` waits. -/
theorem Ahead.of_forall_not (hb : ∀ b ∈ q, ¬ p b) (a : α) : Ahead a p (q ++ [a]) :=
  ⟨q, [], rfl, hb⟩

/-- A call that jumps the queue does no harm unless it satisfies `p`. -/
theorem Ahead.push (h : Ahead a p q) (hc : ¬ p c) : Ahead a p (c :: q) := by
  obtain ⟨pre, post, rfl, hb⟩ := h
  refine ⟨c :: pre, post, rfl, ?_⟩
  intro b hmem
  rcases List.mem_cons.mp hmem with rfl | hmem
  · exact hc
  · exact hb b hmem

/-- The front of the queue is `a`, or it does not satisfy `p` and `a` stays ahead. -/
theorem Ahead.dequeue (h : Ahead a p (c :: q)) : c = a ∨ (¬ p c ∧ Ahead a p q) := by
  obtain ⟨pre, post, heq, hb⟩ := h
  cases pre with
  | nil =>
    exact Or.inl (List.cons.inj heq).1
  | cons d pre =>
    obtain ⟨rfl, rfl⟩ := List.cons.inj heq
    refine Or.inr ⟨hb _ List.mem_cons_self, pre, post, rfl, ?_⟩
    intro b hmem
    exact hb b (List.mem_cons_of_mem _ hmem)

end Fifo
