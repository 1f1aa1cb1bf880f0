import AgentlyStage.AllOrNothing
import AgentlyStage.LateRegistration

/-!
# Submissions as runs of the epochs

`go` and `_register_callback`, with all that they hand over and take back, are runs of the epoch
system: what holds in every state of a Stage's epochs holds after them.
-/

namespace AgentlyStage

open Transition

namespace SubmissionState

variable {ρ ε : Type} {configured : ConfiguredBackend} {idleTimeout : Option Nat}
  {s s' : SubmissionState ρ ε} {h : Nat} {handle : EpochHandle}

/-! ## 1. Work -/

/-- The lease of an epoch that ends is on its way back. -/
theorem mem_releasing {epoch : EpochState} {lease : Nat}
    (hlease : epoch.generationLease = some lease)
    (hgone : (epoch.handleQuiescent h).generationLease = none) :
    lease ∈ (epoch.handleQuiescent h).releasing := by
  unfold EpochState.handleQuiescent EpochState.releaseBackendIfQuiescentLocked at hgone ⊢
  split at hgone
  · exact nomatch hlease.symm.trans hgone
  · rename_i hidle
    rw [if_neg hidle]
    simp [hlease]

theorem reachable_handleQuiescent
    (hreach : (epochSystem configured idleTimeout).Reachable s.epoch)
    (hmem : h < s.epoch.handles.length) :
    (epochSystem configured idleTimeout).Reachable (s.handleQuiescent h).epoch := by
  have hquiescent : (epochSystem configured idleTimeout).Reachable (s.epoch.handleQuiescent h) :=
    .step (e := .handleQuiescent h) hreach trivial (if_pos hmem)
  unfold handleQuiescent
  dsimp only
  split
  · rename_i lease hlease hgone
    have hback : (s.epoch.handleQuiescent h).step (.releaseLease lease) = some
        { s.epoch.handleQuiescent h with
          releasing := (s.epoch.handleQuiescent h).releasing.erase lease
          released := (s.epoch.handleQuiescent h).released ++ [lease] } :=
      if_pos (mem_releasing hlease hgone)
    exact .step (e := .releaseLease lease) hquiescent trivial hback
  · exact hquiescent

theorem reachable_releaseWork
    (hreach : (epochSystem configured idleTimeout).Reachable s.epoch)
    (hmem : h < s.epoch.handles.length) :
    (epochSystem configured idleTimeout).Reachable (s.releaseWork h).epoch := by
  unfold releaseWork
  dsimp only
  split
  · exact reachable_handleQuiescent hreach hmem
  · exact hreach

/-! ## 2. The two calls -/

theorem reachable_go (hreach : (epochSystem configured idleTimeout).Reachable s.epoch)
    (site : SubmissionSite ε) (initial : List CallbackKind) :
    (epochSystem configured idleTimeout).Reachable (s.go site initial).1.epoch := by
  rcases go_cases (EpochState.reachable_epochInv hreach) site initial with
    ⟨-, error, hresult⟩ | ⟨admission, permits, -, hallowed, hcases⟩
  · rw [hresult]
    exact hreach
  · rcases hcases with ⟨-, -, error, hresult⟩ | ⟨selected, epoch, e, -, hnew, hcases⟩
    · rw [hresult]
      exact hreach
    · have hentered : (epochSystem configured idleTimeout).Reachable e.epoch := by
        rw [hnew.epoch hallowed]
        exact .step (e := .go site.call) hreach trivial rfl
      have hmem : s.epoch.handles.length < e.epoch.handles.length := by
        rw [hnew.handles]
        exact Nat.lt_succ_self _
      have hsubmitted : ∀ {fails : Bool} {s' : SubmissionState ρ ε},
          Submitted e s.epoch.handles.length selected fails s' →
          (epochSystem configured idleTimeout).Reachable s'.epoch := by
        intro fails s' hsub
        rcases hsub.epoch with heq | heq | ⟨t, ht, rfl⟩
        · rw [heq]
          exact hentered
        · rw [heq]
          exact .step (e := .setOwnerTask s.epoch.handles.length) hentered trivial rfl
        · exact reachable_releaseWork (ht ▸ hentered) (ht ▸ hmem)
      rcases hcases with ⟨-, error, hresult⟩ | ⟨-, error, hresult⟩ |
        ⟨s', hsub, ⟨-, hresult⟩ | ⟨-, -, error, hresult⟩⟩
      · rw [hresult]
        exact reachable_releaseWork (s := e.retainWork s.epoch.handles.length) hentered hmem
      · rw [hresult]
        exact hentered
      · rw [hresult]
        exact hsubmitted hsub
      · rw [hresult]
        exact hsubmitted hsub

/-- The work of a drain is retained, and handed over or released again. -/
theorem reachable_scheduleCallerRunner
    (hreach : (epochSystem configured idleTimeout).Reachable s.epoch)
    (hmem : h < s.epoch.handles.length) (loop : Nat) (site : SubmissionSite ε) :
    (epochSystem configured idleTimeout).Reachable
      (s.scheduleCallerRunner h loop site (fun s => s.startDrain h site) postDrain).1.epoch := by
  unfold scheduleCallerRunner
  dsimp only
  split
  · unfold startDrain
    split
    · exact hreach
    · exact reachable_releaseWork hreach hmem
  · exact hreach
  · exact reachable_releaseWork (s := s.retainWork h) hreach hmem
  · exact hreach

theorem reachable_submitActiveDrain
    (hreach : (epochSystem configured idleTimeout).Reachable s.epoch)
    (hmem : h < s.epoch.handles.length) (handle : EpochHandle) (site : SubmissionSite ε) :
    (epochSystem configured idleTimeout).Reachable
      (s.submitActiveDrain h handle site).1.epoch := by
  obtain ⟨backendKind, selected, ownerLoop⟩ := handle
  cases backendKind with
  | stage =>
    simp only [submitActiveDrain, submit]
    split
    · exact reachable_releaseWork (s := s.retainWork h) hreach hmem
    · exact hreach
  | caller =>
    cases ownerLoop with
    | none => exact hreach
    | some loop =>
      simp only [submitActiveDrain]
      split
      · exact reachable_scheduleCallerRunner hreach hmem loop site
      · exact hreach

theorem reachable_registerCallback
    (hreach : (epochSystem configured idleTimeout).Reachable s.epoch)
    (hget : s.epoch.handles[h]? = some handle) (kind : CallbackKind)
    (site : SubmissionSite ε) :
    (epochSystem configured idleTimeout).Reachable
      (s.registerCallback h handle kind site).1.epoch := by
  unfold registerCallback
  split
  · rename_i hallowed
    dsimp only
    split
    · -- the epoch of the call, with the handle among the active ones
      have hjoined : ∀ epoch error, s.epoch.lateEpoch site.call handle site.loopRuns =
          (epoch, error) → (epochSystem configured idleTimeout).Reachable
            (if error.isNone then { epoch with activeHandles := insert h epoch.activeHandles }
              else epoch) := by
        intro epoch error hlate
        have hstep : s.epoch.step (.lateCallback site.call h site.loopRuns true .submitted) =
            some (if error.isNone then
              { epoch with activeHandles := insert h epoch.activeHandles } else epoch) := by
          simp only [EpochState.step, hget, Option.map_some, EpochState.lateCallback, hallowed,
            if_true, hlate]
          cases error with
          | some error => rfl
          | none =>
            dsimp only
            split
            · rfl
            · rfl
        exact .step (e := .lateCallback site.call h site.loopRuns true .submitted) hreach trivial
          hstep
      have hsubmitted : (epochSystem configured idleTimeout).Reachable
          (submitCallbackDrainLocked (s.setRecord h ((s.records h).registerCallback kind)) h
            handle site).1.epoch := by
        unfold submitCallbackDrainLocked
        cases hlate : s.epoch.lateEpoch site.call handle site.loopRuns with
        | mk epoch error =>
          have hepoch := hjoined epoch error hlate
          rw [show (s.setRecord h ((s.records h).registerCallback kind)).epoch = s.epoch from rfl,
            hlate]
          cases error with
          | some error => exact hepoch
          | none =>
            refine reachable_submitActiveDrain hepoch ?_ handle site
            have hkept : epoch.handles = s.epoch.handles := by
              obtain ⟨_, _, _, _, _, heq⟩ :=
                EpochState.lateEpoch_frame s.epoch site.call handle site.loopRuns
              rw [hlate] at heq
              rw [show epoch = _ from heq]
            have hlt : h < s.epoch.handles.length := (List.getElem?_eq_some_iff.mp hget).1
            rw [← hkept] at hlt
            exact hlt
      split
      · rename_i s' heq
        rw [heq] at hsubmitted
        exact hsubmitted
      · rename_i s' error heq
        rw [heq] at hsubmitted
        exact hsubmitted
    · exact hreach
  · exact hreach

end SubmissionState

end AgentlyStage
