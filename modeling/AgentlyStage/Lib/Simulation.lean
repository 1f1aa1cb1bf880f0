import AgentlyStage.Lib.Transition

/-!
# Simulation and progress

A map of states simulates one system by another when every step of the first is a run of the
second: a step that does not concern the second one is the empty run.  What holds in every
reachable state of the second system then holds of the image of every reachable state of the
first, and runs are carried over.

The progress rules are the counterpart of the variant rule: where some event brings down a
measure as long as the goal is not reached, the goal is reached.
-/

namespace Transition

universe u v u' v' u'' v''

variable {σ : Type u} {ε : Type v} {τ : Type u'} {φ : Type v'} {ρ : Type u''} {ψ : Type v''}

namespace System

/-! ## 1. Simulation -/

/-- `f` carries the reachable states of `S` to those of `T`, a step to a run. -/
structure Simulation (S : System σ ε) (T : System τ φ) (f : σ → τ) : Prop where
  init : ∀ s, S.Init s → T.Init (f s)
  step : ∀ s e s', S.Reachable s → S.step s e = some s' →
    ∃ es, T.run (f s) es = some (f s')

namespace Simulation

variable {S : System σ ε} {T : System τ φ} {U : System ρ ψ} {f : σ → τ} {g : τ → ρ} {s s' : σ}

/-- A run of `S` is carried to a run of `T`. -/
theorem run (h : Simulation S T f) {es : List ε} (hs : S.Reachable s)
    (hrun : S.run s es = some s') : ∃ fs, T.run (f s) fs = some (f s') := by
  induction es generalizing s with
  | nil =>
    cases hrun
    exact ⟨[], rfl⟩
  | cons e es ih =>
    rw [run_cons] at hrun
    obtain ⟨t, ht, hrest⟩ := Option.bind_eq_some_iff.mp hrun
    obtain ⟨fs, hfs⟩ := h.step s e t hs ht
    obtain ⟨gs, hgs⟩ := ih (.step hs trivial ht) hrest
    refine ⟨fs ++ gs, ?_⟩
    rw [run_append, hfs]
    exact hgs

/-- What is reached is carried to what is reached. -/
theorem reachable (h : Simulation S T f) (hs : S.Reachable s) : T.Reachable (f s) := by
  induction hs with
  | init hinit => exact .init (h.init _ hinit)
  | step hs _ hstep ih =>
    obtain ⟨es, hes⟩ := h.step _ _ _ hs hstep
    exact ih.run hes

theorem trans (h : Simulation S T f) (h' : Simulation T U g) : Simulation S U (g ∘ f) where
  init s hs := h'.init _ (h.init s hs)
  step s e s' hs hstep := by
    obtain ⟨es, hes⟩ := h.step s e s' hs hstep
    exact h'.run (h.reachable hs) hes

end Simulation

/-! ## 2. Progress -/

/-- **Progress rule.**  As long as the goal is not reached some event of kind `ok` brings the
    measure down: then the goal is reached. -/
theorem exists_run_by {S : System σ ε} {I goal : σ → Prop} {ok : ε → Prop} (variant : σ → Nat)
    {s : σ}
    (hprogress : ∀ s, I s → ¬ goal s →
      ∃ e s', ok e ∧ S.step s e = some s' ∧ I s' ∧ variant s' < variant s)
    (hs : I s) : ∃ es s', (∀ e ∈ es, ok e) ∧ S.run s es = some s' ∧ I s' ∧ goal s' := by
  induction hn : variant s using Nat.strongRecOn generalizing s with
  | _ n ih =>
    by_cases hgoal : goal s
    · exact ⟨[], s, fun e he => absurd he List.not_mem_nil, rfl, hs, hgoal⟩
    · obtain ⟨e, t, hok, ht, hinv, hless⟩ := hprogress s hs hgoal
      obtain ⟨es, s', hes, hrun, hend⟩ := ih (variant t) (hn ▸ hless) hinv rfl
      refine ⟨e :: es, s', ?_, (run_cons_of_step ht es).trans hrun, hend⟩
      intro d hd
      rcases List.mem_cons.mp hd with rfl | hd
      · exact hok
      · exact hes d hd

/-- Where some event of kind `ok` can happen until the goal is reached, and every one that
    happens brings the measure down, the goal is reached by whatever choice of them. -/
theorem exists_run_to {S : System σ ε} {I goal : σ → Prop} {ok : ε → Prop} (variant : σ → Nat)
    {s : σ}
    (henabled : ∀ s, I s → ¬ goal s → ∃ e s', ok e ∧ S.step s e = some s')
    (hstep : ∀ s e s', I s → ok e → S.step s e = some s' → I s' ∧ variant s' < variant s)
    (hs : I s) : ∃ es s', (∀ e ∈ es, ok e) ∧ S.run s es = some s' ∧ I s' ∧ goal s' := by
  refine exists_run_by variant (fun s hs hgoal => ?_) hs
  obtain ⟨e, s', hok, h⟩ := henabled s hs hgoal
  exact ⟨e, s', hok, h, hstep s e s' hs hok h⟩

end System

end Transition
