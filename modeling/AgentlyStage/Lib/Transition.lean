import Mathlib.Data.List.Basic
import Mathlib.Logic.Relation

/-!
# Labelled transition systems with guarded runs

A system is a set of initial states and a partial step function: `step s e` is
`none` exactly when the event `e` is not enabled in `s`.  Being a function it can
be executed, so a concrete run is evaluated by `decide`, while every statement
about all interleavings quantifies over event lists or over `ReachUnder`.

The guard `ok : σ → ε → Prop` of `ReachUnder` restricts the events a run may take.
`Reachable` is the unrestricted case; a guard is used for "in every run whose
steps all meet a condition".  The rest of the development makes its inductions over
runs by four rules: `run_invariant` and `run_variant` for a list of events, and at the
bottom `ReachUnder.invariant` and its relative form, which may use an invariant that has
been proved before.
-/

namespace Transition

universe u v

/-- A labelled transition system with a partial step function. -/
structure System (σ : Type u) (ε : Type v) where
  /-- The states a run may start in. -/
  Init : σ → Prop
  /-- One step, `none` when the event is not enabled. -/
  step : σ → ε → Option σ

variable {σ : Type u} {ε : Type v}

namespace System

/-! ## 1. Executing a run -/

/-- Execute a list of events; `none` as soon as one of them is not enabled. -/
def run (S : System σ ε) : σ → List ε → Option σ
  | s, [] => some s
  | s, e :: es => (S.step s e).bind fun s' => S.run s' es

/-- Every step of the run meets `ok` (the run ends at the first event that is
    not enabled). -/
def StepsMeet (S : System σ ε) (ok : σ → ε → Prop) : σ → List ε → Prop
  | _, [] => True
  | s, e :: es => ok s e ∧ ∀ s', S.step s e = some s' → S.StepsMeet ok s' es

/-- Whether the steps of a run meet a decidable guard can be computed. -/
instance StepsMeet.decidable (S : System σ ε) (ok : σ → ε → Prop) [∀ s e, Decidable (ok s e)] :
    ∀ s es, Decidable (S.StepsMeet ok s es)
  | _, [] => .isTrue trivial
  | s, e :: es =>
    have : Decidable (∀ s', S.step s e = some s' → S.StepsMeet ok s' es) :=
      match S.step s e with
      | none => .isTrue fun _ h => by cases h
      | some t =>
        have := StepsMeet.decidable S ok t es
        decidable_of_iff (S.StepsMeet ok t es)
          ⟨fun hmeet _ h => Option.some.inj h ▸ hmeet, fun hall => hall t rfl⟩
    inferInstanceAs (Decidable (_ ∧ _))

@[simp] theorem run_nil (S : System σ ε) (s : σ) : S.run s [] = some s := rfl

theorem run_cons (S : System σ ε) (s : σ) (e : ε) (es : List ε) :
    S.run s (e :: es) = (S.step s e).bind fun s' => S.run s' es := rfl

theorem run_cons_of_step {S : System σ ε} {s s' : σ} {e : ε} (h : S.step s e = some s')
    (es : List ε) : S.run s (e :: es) = S.run s' es := by
  rw [run_cons, h]
  rfl

theorem run_append (S : System σ ε) (s : σ) (es fs : List ε) :
    S.run s (es ++ fs) = (S.run s es).bind fun s' => S.run s' fs := by
  induction es generalizing s with
  | nil => rfl
  | cons e es ih =>
    simp only [List.cons_append, run_cons]
    cases S.step s e with
    | none => rfl
    | some s' => simpa using ih s'

/-- A predicate that the steps of a run preserve holds along it. -/
theorem run_invariant_under {S : System σ ε} {I : σ → Prop} {ok : ε → Prop} {s s' : σ}
    {es : List ε} (hstep : ∀ s e s', I s → ok e → S.step s e = some s' → I s') (hs : I s)
    (hok : ∀ e ∈ es, ok e) (hrun : S.run s es = some s') : I s' := by
  induction es generalizing s with
  | nil =>
    cases hrun
    exact hs
  | cons e es ih =>
    rw [run_cons] at hrun
    obtain ⟨t, ht, hrest⟩ := Option.bind_eq_some_iff.mp hrun
    exact ih (hstep s e t hs (hok e List.mem_cons_self) ht)
      (fun e he => hok e (List.mem_cons_of_mem _ he)) hrest

/-- A predicate that every step preserves holds along every run from where it holds. -/
theorem run_invariant {S : System σ ε} {I : σ → Prop} {s s' : σ} {es : List ε}
    (hstep : ∀ s e s', I s → S.step s e = some s' → I s') (hs : I s)
    (hrun : S.run s es = some s') : I s' :=
  run_invariant_under (fun s e s' hi _ => hstep s e s' hi) hs (fun _ _ => trivial) hrun

/-- **Variant rule.**  A measure that the steps of a run decrease bounds its length. -/
theorem run_variant {S : System σ ε} {I : σ → Prop} {ok : ε → Prop} (variant : σ → Nat)
    {s s' : σ} {es : List ε}
    (hstep : ∀ s e s', I s → ok e → S.step s e = some s' → I s' ∧ variant s' < variant s)
    (hs : I s) (hok : ∀ e ∈ es, ok e) (hrun : S.run s es = some s') :
    I s' ∧ es.length + variant s' ≤ variant s := by
  induction es generalizing s with
  | nil =>
    cases hrun
    exact ⟨hs, by simp⟩
  | cons e es ih =>
    rw [run_cons] at hrun
    obtain ⟨t, ht, hrest⟩ := Option.bind_eq_some_iff.mp hrun
    obtain ⟨hinv, hless⟩ := hstep s e t hs (hok e List.mem_cons_self) ht
    obtain ⟨hend, hlength⟩ := ih hinv (fun e he => hok e (List.mem_cons_of_mem _ he)) hrest
    refine ⟨hend, ?_⟩
    rw [List.length_cons]
    omega

/-- Events that meet a guard in every state. -/
theorem stepsMeet_of_forall {S : System σ ε} {ok : σ → ε → Prop} {s : σ} {es : List ε}
    (h : ∀ e ∈ es, ∀ t, ok t e) : S.StepsMeet ok s es := by
  induction es generalizing s with
  | nil => trivial
  | cons e es ih =>
    exact ⟨h e List.mem_cons_self s, fun _ _ => ih fun e' he => h e' (List.mem_cons_of_mem e he)⟩

/-! ## 2. Reachability under a guard -/

/-- The states reached by runs all of whose steps meet `ok`. -/
inductive ReachUnder (S : System σ ε) (ok : σ → ε → Prop) : σ → Prop
  | init {s : σ} (h : S.Init s) : ReachUnder S ok s
  | step {s s' : σ} {e : ε} (hs : ReachUnder S ok s) (hok : ok s e)
      (h : S.step s e = some s') : ReachUnder S ok s'

/-- The states reached by arbitrary runs. -/
abbrev Reachable (S : System σ ε) : σ → Prop := S.ReachUnder fun _ _ => True

namespace ReachUnder

variable {S : System σ ε} {ok ok' : σ → ε → Prop} {s s' : σ}

theorem mono (h : S.ReachUnder ok s) (hle : ∀ s e, ok s e → ok' s e) :
    S.ReachUnder ok' s := by
  induction h with
  | init hs => exact .init hs
  | step _ hok hstep ih => exact .step ih (hle _ _ hok) hstep

theorem reachable (h : S.ReachUnder ok s) : S.Reachable s :=
  h.mono fun _ _ _ => trivial

/-- A run whose steps meet the guard stays inside `ReachUnder`. -/
theorem of_run {es : List ε} (h : S.ReachUnder ok s) (hmeet : S.StepsMeet ok s es)
    (hrun : S.run s es = some s') : S.ReachUnder ok s' := by
  induction es generalizing s with
  | nil =>
    cases hrun
    exact h
  | cons e es ih =>
    rw [run_cons] at hrun
    obtain ⟨t, ht, hrest⟩ := Option.bind_eq_some_iff.mp hrun
    exact ih (.step h hmeet.1 ht) (hmeet.2 t ht) hrest

/-- **Invariant rule.**  A predicate that holds initially and is preserved by
    every guarded step holds in every state reached. -/
theorem invariant {I : σ → Prop} (hinit : ∀ s, S.Init s → I s)
    (hstep : ∀ s e s', I s → ok s e → S.step s e = some s' → I s')
    (h : S.ReachUnder ok s) : I s := by
  induction h with
  | init hs => exact hinit _ hs
  | step _ hok hs ih => exact hstep _ _ _ ih hok hs

/-- **Relative invariant rule.**  The step of `I` may use an invariant `J` that
    already holds in every state reached. -/
theorem invariant_of {I J : σ → Prop} (hJ : ∀ s, S.ReachUnder ok s → J s)
    (hinit : ∀ s, S.Init s → I s)
    (hstep : ∀ s e s', J s → I s → ok s e → S.step s e = some s' → I s')
    (h : S.ReachUnder ok s) : I s := by
  induction h with
  | init hs => exact hinit _ hs
  | step hr hok hs ih => exact hstep _ _ _ (hJ _ hr) ih hok hs

/-- An unrestricted run goes on from a reachable state. -/
theorem run {es : List ε} (h : S.Reachable s) (hrun : S.run s es = some s') : S.Reachable s' := by
  refine h.of_run ?_ hrun
  clear hrun h
  induction es generalizing s with
  | nil => trivial
  | cons e es ih => exact ⟨trivial, fun t _ => ih⟩

end ReachUnder

/-- Executing an enabled list of events from an initial state reaches its end. -/
theorem reachable_of_run {S : System σ ε} {s s' : σ} (es : List ε) (hinit : S.Init s)
    (hrun : S.run s es = some s') : S.Reachable s' :=
  (ReachUnder.init hinit).run hrun

end System

end Transition
