import AgentlyStage.StageHandle
import AgentlyStage.Lib.Counting

/-!
# What a step of a handle does

The frames of the critical sections, and what no step undoes: an outcome, a registration, a
callback that is over, the end of a descendant, and what a waiter has sampled.
-/

namespace AgentlyStage

open Transition

variable {ρ ε : Type}

theorem Disposition.finish_ne_executing (disposition : Disposition ρ ε) (execution : Execution ε)
    (args : CallbackArgs ρ ε) : disposition.finish execution ≠ .executing args := by
  cases disposition with
  | executing args' =>
    cases execution with
    | refused error => exact fun h => nomatch h
    | _ => exact fun h => nomatch h
  | _ => exact fun h => nomatch h

/-- A callback that has been taken keeps its arguments. -/
theorem Disposition.finish_cases (disposition : Disposition ρ ε) (execution : Execution ε) :
    disposition.finish execution = disposition ∨
      ∃ args, disposition = .executing args ∧
        (disposition.finish execution = .executed args ∨
          disposition.finish execution = .refused args) := by
  cases disposition with
  | executing args =>
    refine Or.inr ⟨args, rfl, ?_⟩
    cases execution with
    | refused error => exact Or.inr rfl
    | _ => exact Or.inl rfl
  | _ => exact Or.inl rfl

/-- The phases of the owner in their order. -/
inductive OwnerPhase.Next : OwnerPhase → OwnerPhase → Prop
  | retain : Next .created .submitting
  | submit : Next .submitting .posted
  | refuse : Next .submitting .refused
  | setOwnerTask : Next .posted .body
  | startFails : Next .posted .failing
  | completeBody (start : Bool) : Next .body (if start then .starting else .ending)
  | startDrain : Next .starting .ending
  | release : Next .ending .released
  | releaseFailed : Next .failing .failed

namespace StageHandle

variable {s s' : StageHandle ρ ε}

/-! ## 1. Frames -/

theorem when_eq_some {condition : Prop} [Decidable condition] {t : StageHandle ρ ε} :
    when condition t = some s' ↔ condition ∧ t = s' := by
  rw [when]
  split
  · rename_i h
    rw [Option.some.injEq]
    exact ⟨fun heq => ⟨h, heq⟩, fun h => h.2⟩
  · rename_i h
    exact ⟨fun heq => (nomatch heq), fun heq => absurd heq.1 h⟩

theorem releaseWork_eq (s : StageHandle ρ ε) : ∃ pending futures,
    s.releaseWork = { s with pendingWork := pending, settlementFutures := futures } := by
  unfold releaseWork
  split
  · exact ⟨_, _, rfl⟩
  · exact ⟨_, _, rfl⟩

theorem releaseWork_frame (s : StageHandle ρ ε) :
    s.releaseWork = { s with
      pendingWork := s.releaseWork.pendingWork
      settlementFutures := s.releaseWork.settlementFutures } := by
  unfold releaseWork
  split
  · rfl
  · rfl

theorem releaseWork_recordSettlementError (s : StageHandle ρ ε) (error : ε) :
    (s.recordSettlementError error).releaseWork = { s with
      settlementErrors := s.settlementErrors ++ [error]
      pendingWork := s.releaseWork.pendingWork
      settlementFutures := s.releaseWork.settlementFutures } := by
  by_cases hzero : s.pendingWork = 0
  · simp [releaseWork, recordSettlementError, hzero]
  · simp [releaseWork, recordSettlementError, hzero]
    rfl

theorem setBodyOutcome_frame (s : StageHandle ρ ε) (result : Option ρ) (error : Option ε) :
    ∃ completed value failure active, (s.setBodyOutcome result error).1 = { s with
      bodyCompleted := completed, bodyResult := value, bodyError := failure
      callbackDrainActive := active } ∧ completed = true := by
  unfold setBodyOutcome
  split
  · rename_i hdone
    exact ⟨_, _, _, _, rfl, hdone⟩
  · unfold activateCallbackDrainLocked
    split
    · exact ⟨_, _, _, _, rfl, rfl⟩
    · exact ⟨_, _, _, _, rfl, rfl⟩

/-- Only a late registration without a drain starts one. -/
theorem registerCallback_cases (s : StageHandle ρ ε) (kind : CallbackKind) :
    (s.bodyCompleted = true ∧ s.callbackDrainActive = false ∧
      s.registerCallback kind = { s.appendCallback kind with
        callbackDrainActive := true
        registering := some (⟨kind, s.appended⟩, .admitting) }) ∨
    ((s.bodyCompleted = true → s.callbackDrainActive = true) ∧
      s.registerCallback kind = { s.appendCallback kind with
        returned := s.returned ++ [⟨kind, s.appended⟩] }) := by
  unfold StageHandle.registerCallback
  cases hdone : s.bodyCompleted with
  | false => exact Or.inr ⟨fun h => (nomatch h), rfl⟩
  | true =>
    cases hactive : s.callbackDrainActive with
    | true =>
      have hkeeps : (s.appendCallback kind).activateCallbackDrainLocked =
          (s.appendCallback kind, false) := by
        rw [activateCallbackDrainLocked, if_neg]
        exact fun h => nomatch hactive.symm.trans h.2
      refine Or.inr ⟨fun _ => rfl, ?_⟩
      simp only [if_true, hkeeps]
      rfl
    | false =>
      have hstarts : (s.appendCallback kind).activateCallbackDrainLocked =
          ({ s.appendCallback kind with callbackDrainActive := true }, true) := by
        rw [activateCallbackDrainLocked, if_pos]
        exact ⟨List.append_ne_nil_of_right_ne_nil _ (List.cons_ne_nil _ _), hactive⟩
      refine Or.inl ⟨rfl, rfl, ?_⟩
      simp only [if_true, hstarts]

/-- The initial callbacks enter the deque and nothing else happens. -/
theorem initial_eq (initial : List CallbackKind) (s : StageHandle ρ ε) :
    ∃ callbacks appended returned, initial.foldl registerInitialCallback s =
      { s with callbacks := callbacks, appended := appended, returned := returned } := by
  induction initial generalizing s with
  | nil => exact ⟨_, _, _, rfl⟩
  | cons kind initial ih =>
    obtain ⟨callbacks, appended, returned, heq⟩ := ih (s.registerInitialCallback kind)
    exact ⟨callbacks, appended, returned, heq⟩

/-! ## 2. What every step keeps -/

/-- The histories grow, and what has come to an end stays so. -/
structure Keeps (s s' : StageHandle ρ ε) : Prop where
  completed : s.bodyCompleted = true → s'.bodyCompleted = true
  returned : s.returned <+: s'.returned
  handled : ∀ k : Nat, ∀ callback : Callback, ∀ disposition : Disposition ρ ε,
    s.handled[k]? = some (callback, disposition) → (∀ args, disposition ≠ .executing args) →
      s'.handled[k]? = some (callback, disposition)
  descendants : ∀ d : Nat, ∀ phase : DescendantPhase, s.descendants[d]? = some phase →
    ∃ phase', s'.descendants[d]? = some phase' ∧ (phase' = .running → phase = .running)
  waiters : ∀ w : Nat, ∀ waiter : Waiter ε, s.waiters[w]? = some waiter →
    ∃ waiter', s'.waiters[w]? = some waiter' ∧ waiter'.barrier = waiter.barrier ∧
      waiter'.callbacks = waiter.callbacks ∧ waiter'.descendants = waiter.descendants

theorem Keeps.of_eq (hcompleted : s.bodyCompleted = true → s'.bodyCompleted = true)
    (hreturned : s'.returned = s.returned) (hhandled : s'.handled = s.handled)
    (hdescendants : s'.descendants = s.descendants) (hwaiters : s'.waiters = s.waiters) :
    Keeps s s' := by
  refine ⟨hcompleted, hreturned ▸ List.prefix_rfl, fun k callback disposition hget _ => ?_,
    fun d phase hget => ⟨phase, ?_, id⟩, fun w waiter hget => ⟨waiter, ?_, rfl, rfl, rfl⟩⟩
  · rw [hhandled]
    exact hget
  · rw [hdescendants]
    exact hget
  · rw [hwaiters]
    exact hget

theorem Keeps.refl (s : StageHandle ρ ε) : Keeps s s :=
  Keeps.of_eq id rfl rfl rfl rfl

theorem Keeps.trans {s'' : StageHandle ρ ε} (h : Keeps s s') (h' : Keeps s' s'') :
    Keeps s s'' := by
  refine ⟨fun hdone => h'.completed (h.completed hdone), h.returned.trans h'.returned,
    fun k callback disposition hget hended =>
      h'.handled k callback disposition (h.handled k callback disposition hget hended) hended,
    fun d phase hget => ?_, fun w waiter hget => ?_⟩
  · obtain ⟨phase₁, hget₁, hrunning₁⟩ := h.descendants d phase hget
    obtain ⟨phase₂, hget₂, hrunning₂⟩ := h'.descendants d phase₁ hget₁
    exact ⟨phase₂, hget₂, fun hrunning => hrunning₁ (hrunning₂ hrunning)⟩
  · obtain ⟨waiter₁, hget₁, hbarrier₁, hcallbacks₁, hdescendants₁⟩ := h.waiters w waiter hget
    obtain ⟨waiter₂, hget₂, hbarrier₂, hcallbacks₂, hdescendants₂⟩ := h'.waiters w waiter₁ hget₁
    exact ⟨waiter₂, hget₂, hbarrier₂.trans hbarrier₁, hcallbacks₂.trans hcallbacks₁,
      hdescendants₂.trans hdescendants₁⟩

theorem keeps_register (s : StageHandle ρ ε) (kind : CallbackKind) :
    Keeps s (s.registerCallback kind) := by
  rcases registerCallback_cases s kind with ⟨-, -, heq⟩ | ⟨-, heq⟩
  · rw [heq]
    exact Keeps.of_eq id rfl rfl rfl rfl
  · rw [heq]
    exact ⟨id, List.prefix_append _ _, fun _ _ _ hget _ => hget, fun d phase hget =>
      ⟨phase, hget, id⟩, fun w waiter hget => ⟨waiter, hget, rfl, rfl, rfl⟩⟩

theorem keeps_drain (s : StageHandle ρ ε) (i : Nat) : Keeps s (s.drainCallbacks i) := by
  unfold drainCallbacks
  split
  · exact Keeps.of_eq id rfl rfl rfl rfl
  · split
    · exact ⟨id, List.prefix_rfl, fun k callback disposition hget _ =>
        getElem?_append_of_some _ hget, fun d phase hget => ⟨phase, hget, id⟩,
        fun w waiter hget => ⟨waiter, hget, rfl, rfl, rfl⟩⟩
    · exact ⟨id, List.prefix_rfl, fun k callback disposition hget _ =>
        getElem?_append_of_some _ hget, fun d phase hget => ⟨phase, hget, id⟩,
        fun w waiter hget => ⟨waiter, hget, rfl, rfl, rfl⟩⟩

theorem keeps_finishCallback (s : StageHandle ρ ε) (i entry : Nat) (execution : Execution ε) :
    Keeps s (s.finishCallback i entry execution) := by
  refine ⟨id, List.prefix_rfl, fun k callback disposition hget hended => ?_,
    fun d phase hget => ⟨phase, hget, id⟩, fun w waiter hget => ⟨waiter, hget, rfl, rfl, rfl⟩⟩
  change (s.handled.modify entry _)[k]? = _
  rw [List.getElem?_modify, hget]
  change some (if entry = k then _ else _) = _
  split
  · rcases Disposition.finish_cases disposition execution with hsame | ⟨args, hexecuting, -⟩
    · rw [hsame]
    · exact absurd hexecuting (hended args)
  · rfl

theorem keeps_setDescendant (s : StageHandle ρ ε) {d : Nat} {old phase : DescendantPhase}
    (hget : s.descendants[d]? = some old) (hended : phase ≠ .running)
    {pending : Nat} {futures : List Bool} {errors : List ε} :
    Keeps s { s with
      descendants := s.descendants.set d phase, pendingWork := pending
      settlementFutures := futures, settlementErrors := errors } := by
  refine ⟨id, List.prefix_rfl, fun _ _ _ hget _ => hget, fun j phase' hj => ?_,
    fun w waiter hget => ⟨waiter, hget, rfl, rfl, rfl⟩⟩
  by_cases hne : d = j
  · subst hne
    rw [hget] at hj
    cases hj
    exact ⟨phase, getElem?_set_self' hget, fun h => absurd h hended⟩
  · refine ⟨phase', ?_, id⟩
    change (s.descendants.set d phase)[j]? = some phase'
    rw [List.getElem?_set_ne hne]
    exact hj

variable [DecidableEq ε]

theorem finishCallback_of_step {loop i : Nat} {execution : Execution ε}
    (hstep : s.step loop (.finishCallback i execution) = some s') :
    ∃ entry, s.drains[i]? = some (.executing entry) ∧ i ∉ s.stuck ∧
      s' = s.finishCallback i entry execution := by
  simp only [StageHandle.step] at hstep
  split at hstep
  · rename_i entry hget
    obtain ⟨hfree, rfl⟩ := when_eq_some.mp hstep
    exact ⟨entry, hget, hfree, rfl⟩
  · cases hstep

theorem callbackHangs_of_step {loop i : Nat}
    (hstep : s.step loop (.callbackHangs i) = some s') :
    ∃ entry, s.drains[i]? = some (.executing entry) ∧ i ∉ s.stuck ∧
      s' = { s with stuck := s.stuck ++ [i] } := by
  simp only [StageHandle.step] at hstep
  split at hstep
  · rename_i entry hget
    obtain ⟨hfree, rfl⟩ := when_eq_some.mp hstep
    exact ⟨entry, hget, hfree, rfl⟩
  · cases hstep

theorem cancelDrain_of_step {loop i : Nat} {error : ε}
    (hstep : s.step loop (.cancelDrain i error) = some s') :
    ∃ entry, s.drains[i]? = some (.executing entry) ∧ i ∈ s.stuck ∧
      s' = { s.finishCallback i entry (.raised error) with stuck := s.stuck.erase i } := by
  simp only [StageHandle.step] at hstep
  split at hstep
  · rename_i entry hget
    obtain ⟨hstuck, rfl⟩ := when_eq_some.mp hstep
    exact ⟨entry, hget, hstuck, rfl⟩
  · cases hstep

theorem step_keeps {loop : Nat} {e : HandleEvent ρ ε} (hstep : s.step loop e = some s') :
    Keeps s s' := by
  cases e with
  | retain | submit | setOwnerTask =>
    obtain ⟨-, rfl⟩ := when_eq_some.mp hstep
    exact Keeps.of_eq id rfl rfl rfl rfl
  | refuse =>
    obtain ⟨-, rfl⟩ := when_eq_some.mp hstep
    obtain ⟨pending, futures, heq⟩ := releaseWork_eq s
    rw [heq]
    exact Keeps.of_eq id rfl rfl rfl rfl
  | startFails error =>
    obtain ⟨-, rfl⟩ := when_eq_some.mp hstep
    obtain ⟨completed, value, failure, active, heq, hdone⟩ :=
      setBodyOutcome_frame s none (some error)
    rw [setBodyException, heq]
    exact Keeps.of_eq (fun _ => hdone) rfl rfl rfl rfl
  | completeBody outcome =>
    -- the three ends differ in the outcome only
    have hends : ∀ (result : Option ρ) (error : Option ε) (owner : OwnerPhase),
        Keeps s { (s.setBodyOutcome result error).1 with owner := owner } := by
      intro result error owner
      obtain ⟨completed, value, failure, active, heq, hdone⟩ := setBodyOutcome_frame s result error
      rw [heq]
      exact Keeps.of_eq (fun _ => hdone) rfl rfl rfl rfl
    cases outcome with
    | result value =>
      obtain ⟨-, rfl⟩ := when_eq_some.mp hstep
      exact hends _ _ _
    | exception error =>
      obtain ⟨-, rfl⟩ := when_eq_some.mp hstep
      exact hends _ _ _
    | cancelled error =>
      obtain ⟨-, rfl⟩ := when_eq_some.mp hstep
      exact hends _ _ _
  | startDrain | startDrainFails error =>
    obtain ⟨-, rfl⟩ := when_eq_some.mp hstep
    exact Keeps.of_eq id rfl rfl rfl rfl
  | releaseOwner =>
    simp only [StageHandle.step] at hstep
    obtain ⟨pending, futures, heq⟩ := releaseWork_eq s
    split at hstep
    · cases hstep
      rw [heq]
      exact Keeps.of_eq id rfl rfl rfl rfl
    · cases hstep
      rw [heq]
      exact Keeps.of_eq id rfl rfl rfl rfl
    · cases hstep
  | register kind =>
    obtain ⟨-, rfl⟩ := when_eq_some.mp hstep
    exact keeps_register s kind
  | retainDrain =>
    simp only [StageHandle.step] at hstep
    split at hstep
    · obtain ⟨-, rfl⟩ := when_eq_some.mp hstep
      exact Keeps.of_eq id rfl rfl rfl rfl
    · cases hstep
  | submitDrain onOwnLoop =>
    simp only [StageHandle.step] at hstep
    split at hstep
    · cases hstep
      exact ⟨id, List.prefix_append _ _, fun _ _ _ hget _ => hget, fun d phase hget =>
        ⟨phase, hget, id⟩, fun w waiter hget => ⟨waiter, hget, rfl, rfl, rfl⟩⟩
    · cases hstep
  | submitDrainFails error =>
    simp only [StageHandle.step] at hstep
    split at hstep
    · cases hstep
      obtain ⟨pending, futures, heq⟩ := releaseWork_eq (s.recordSettlementError error)
      rw [heq]
      exact ⟨id, List.prefix_append _ _, fun _ _ _ hget _ => hget, fun d phase hget =>
        ⟨phase, hget, id⟩, fun w waiter hget => ⟨waiter, hget, rfl, rfl, rfl⟩⟩
    · cases hstep
  | refuseDrain =>
    simp only [StageHandle.step] at hstep
    split at hstep
    · cases hstep
      obtain ⟨pending, futures, heq⟩ := releaseWork_eq s
      rw [heq]
      exact Keeps.of_eq id rfl rfl rfl rfl
    · cases hstep
  | rollBack =>
    simp only [StageHandle.step] at hstep
    split at hstep
    · cases hstep
      exact Keeps.of_eq id rfl rfl rfl rfl
    · cases hstep
      exact Keeps.of_eq id rfl rfl rfl rfl
    · cases hstep
  | createDrain i =>
    obtain ⟨-, rfl⟩ := when_eq_some.mp hstep
    exact Keeps.of_eq id rfl rfl rfl rfl
  | createDrainFails i error =>
    obtain ⟨-, rfl⟩ := when_eq_some.mp hstep
    obtain ⟨pending, futures, heq⟩ := releaseWork_eq (s.recordSettlementError error)
    rw [heq]
    exact Keeps.of_eq id rfl rfl rfl rfl
  | drain i =>
    obtain ⟨-, rfl⟩ := when_eq_some.mp hstep
    exact keeps_drain s i
  | finishCallback i execution =>
    obtain ⟨entry, -, -, rfl⟩ := finishCallback_of_step hstep
    exact keeps_finishCallback s i entry execution
  | callbackHangs i =>
    obtain ⟨-, -, -, rfl⟩ := callbackHangs_of_step hstep
    exact Keeps.of_eq id rfl rfl rfl rfl
  | cancelDrain i error =>
    obtain ⟨entry, -, -, rfl⟩ := cancelDrain_of_step hstep
    have hkeeps := keeps_finishCallback s i entry (.raised error)
    exact ⟨hkeeps.completed, hkeeps.returned, hkeeps.handled, hkeeps.descendants, hkeeps.waiters⟩
  | releaseDrain i =>
    obtain ⟨-, rfl⟩ := when_eq_some.mp hstep
    obtain ⟨pending, futures, heq⟩ := releaseWork_eq s
    rw [heq]
    exact Keeps.of_eq id rfl rfl rfl rfl
  | retainDescendant =>
    obtain ⟨-, rfl⟩ := when_eq_some.mp hstep
    exact ⟨id, List.prefix_rfl, fun _ _ _ hget _ => hget, fun d phase hget =>
      ⟨phase, getElem?_append_of_some _ hget, id⟩,
      fun w waiter hget => ⟨waiter, hget, rfl, rfl, rfl⟩⟩
  | endDescendant d =>
    obtain ⟨hget, rfl⟩ := when_eq_some.mp hstep
    exact keeps_setDescendant s hget (show DescendantPhase.ended ≠ .running from
      fun h => nomatch h)
  | descendantDone d error =>
    obtain ⟨hget, rfl⟩ := when_eq_some.mp hstep
    obtain ⟨pending, futures, heq⟩ := releaseWork_eq s
    rw [heq]
    exact keeps_setDescendant s hget (show DescendantPhase.released ≠ .running from
      fun h => nomatch h)
  | waitSettled =>
    obtain ⟨-, rfl⟩ := when_eq_some.mp hstep
    exact ⟨id, List.prefix_rfl, fun _ _ _ hget _ => hget, fun d phase hget => ⟨phase, hget, id⟩,
      fun w waiter hget => ⟨waiter, getElem?_append_of_some _ hget, rfl, rfl, rfl⟩⟩
  | waiterReturns w =>
    simp only [StageHandle.step] at hstep
    split at hstep
    · rename_i waiter hget
      obtain ⟨-, rfl⟩ := when_eq_some.mp hstep
      refine ⟨id, List.prefix_rfl, fun _ _ _ hget _ => hget, fun d phase hget => ⟨phase, hget, id⟩,
        fun j waiter' hj => ?_⟩
      by_cases hne : w = j
      · subst hne
        rw [hget] at hj
        cases hj
        exact ⟨_, getElem?_set_self' hget, rfl, rfl, rfl⟩
      · refine ⟨waiter', ?_, rfl, rfl, rfl⟩
        change (s.waiters.set w _)[j]? = some waiter'
        rw [List.getElem?_set_ne hne]
        exact hj
    · cases hstep

/-- The owner task is recorded with its loop, and that once. -/
def OwnerMoves (loop : Nat) (s s' : StageHandle ρ ε) : Prop :=
  (s'.owner = s.owner ∧ s'.ownerLoop = s.ownerLoop) ∨
    (s.owner.Next s'.owner ∧
      ((s'.owner ≠ .body ∧ s'.ownerLoop = s.ownerLoop) ∨
        (s'.owner = .body ∧ s'.ownerLoop = some loop)))

omit [DecidableEq ε] in
theorem OwnerMoves.next {loop : Nat} (phase : OwnerPhase) (hnext : s.owner.Next phase)
    (hne : phase ≠ .body) (howner : s'.owner = phase) (hloop : s'.ownerLoop = s.ownerLoop) :
    OwnerMoves loop s s' :=
  Or.inr ⟨howner ▸ hnext, Or.inl ⟨howner ▸ hne, hloop⟩⟩

/-- **Step lemma of the owner.** -/
theorem step_owner {loop : Nat} {e : HandleEvent ρ ε} (hstep : s.step loop e = some s') :
    OwnerMoves loop s s' := by
  cases e with
  | retain =>
    obtain ⟨howner, rfl⟩ := when_eq_some.mp hstep
    exact OwnerMoves.next .submitting (howner ▸ .retain) (fun h => nomatch h) rfl rfl
  | submit =>
    obtain ⟨howner, rfl⟩ := when_eq_some.mp hstep
    exact OwnerMoves.next .posted (howner ▸ .submit) (fun h => nomatch h) rfl rfl
  | refuse =>
    obtain ⟨howner, rfl⟩ := when_eq_some.mp hstep
    rw [releaseWork_frame]
    exact OwnerMoves.next .refused (howner ▸ .refuse) (fun h => nomatch h) rfl rfl
  | setOwnerTask =>
    obtain ⟨howner, rfl⟩ := when_eq_some.mp hstep
    exact Or.inr ⟨howner ▸ .setOwnerTask, Or.inr ⟨rfl, rfl⟩⟩
  | startFails error =>
    obtain ⟨howner, rfl⟩ := when_eq_some.mp hstep
    obtain ⟨_, _, _, _, heq, -⟩ := setBodyOutcome_frame s none (some error)
    rw [setBodyException, heq]
    exact OwnerMoves.next .failing (howner ▸ .startFails) (fun h => nomatch h) rfl rfl
  | completeBody outcome =>
    have hends : ∀ (result : Option ρ) (error : Option ε) (start : Bool), s.owner = .body →
        s' = { (s.setBodyOutcome result error).1 with
          owner := if start then .starting else .ending } → OwnerMoves loop s s' := by
      rintro result error start howner rfl
      obtain ⟨_, _, _, _, heq, -⟩ := setBodyOutcome_frame s result error
      rw [heq]
      refine OwnerMoves.next _ (howner ▸ .completeBody start) ?_ rfl rfl
      cases start with
      | true => exact fun h => nomatch h
      | false => exact fun h => nomatch h
    cases outcome with
    | result value =>
      obtain ⟨howner, heq⟩ := when_eq_some.mp hstep
      exact hends _ _ _ howner heq.symm
    | exception error =>
      obtain ⟨howner, heq⟩ := when_eq_some.mp hstep
      exact hends _ _ _ howner heq.symm
    | cancelled error =>
      obtain ⟨howner, heq⟩ := when_eq_some.mp hstep
      exact hends _ _ _ howner heq.symm
  | startDrain | startDrainFails error =>
    obtain ⟨howner, rfl⟩ := when_eq_some.mp hstep
    exact OwnerMoves.next .ending (howner ▸ .startDrain) (fun h => nomatch h) rfl rfl
  | releaseOwner =>
    simp only [StageHandle.step] at hstep
    split at hstep
    · rename_i howner
      cases hstep
      rw [releaseWork_frame]
      exact OwnerMoves.next .released (howner ▸ .release) (fun h => nomatch h) rfl rfl
    · rename_i howner
      cases hstep
      rw [releaseWork_frame]
      exact OwnerMoves.next .failed (howner ▸ .releaseFailed) (fun h => nomatch h) rfl rfl
    · cases hstep
  | register kind =>
    obtain ⟨-, rfl⟩ := when_eq_some.mp hstep
    rcases registerCallback_cases s kind with ⟨-, -, heq⟩ | ⟨-, heq⟩
    · rw [heq]
      exact Or.inl ⟨rfl, rfl⟩
    · rw [heq]
      exact Or.inl ⟨rfl, rfl⟩
  | retainDrain =>
    simp only [StageHandle.step] at hstep
    split at hstep
    · obtain ⟨-, rfl⟩ := when_eq_some.mp hstep
      exact Or.inl ⟨rfl, rfl⟩
    · cases hstep
  | submitDrain onOwnLoop =>
    simp only [StageHandle.step] at hstep
    split at hstep
    · cases hstep
      exact Or.inl ⟨rfl, rfl⟩
    · cases hstep
  | submitDrainFails error =>
    simp only [StageHandle.step] at hstep
    split at hstep
    · cases hstep
      rw [releaseWork_recordSettlementError]
      exact Or.inl ⟨rfl, rfl⟩
    · cases hstep
  | refuseDrain =>
    simp only [StageHandle.step] at hstep
    split at hstep
    · cases hstep
      rw [releaseWork_frame]
      exact Or.inl ⟨rfl, rfl⟩
    · cases hstep
  | rollBack =>
    simp only [StageHandle.step] at hstep
    split at hstep
    · cases hstep
      exact Or.inl ⟨rfl, rfl⟩
    · cases hstep
      exact Or.inl ⟨rfl, rfl⟩
    · cases hstep
  | createDrainFails i error =>
    obtain ⟨-, rfl⟩ := when_eq_some.mp hstep
    rw [releaseWork_recordSettlementError]
    exact Or.inl ⟨rfl, rfl⟩
  | drain i =>
    obtain ⟨-, rfl⟩ := when_eq_some.mp hstep
    unfold drainCallbacks
    split
    · exact Or.inl ⟨rfl, rfl⟩
    · split
      · exact Or.inl ⟨rfl, rfl⟩
      · exact Or.inl ⟨rfl, rfl⟩
  | finishCallback i execution =>
    obtain ⟨entry, -, -, rfl⟩ := finishCallback_of_step hstep
    exact Or.inl ⟨rfl, rfl⟩
  | callbackHangs i =>
    obtain ⟨-, -, -, rfl⟩ := callbackHangs_of_step hstep
    exact Or.inl ⟨rfl, rfl⟩
  | cancelDrain i error =>
    obtain ⟨entry, -, -, rfl⟩ := cancelDrain_of_step hstep
    exact Or.inl ⟨rfl, rfl⟩
  | releaseDrain i | descendantDone d error =>
    obtain ⟨-, rfl⟩ := when_eq_some.mp hstep
    rw [releaseWork_frame]
    exact Or.inl ⟨rfl, rfl⟩
  | createDrain i | retainDescendant | endDescendant d | waitSettled =>
    obtain ⟨-, rfl⟩ := when_eq_some.mp hstep
    exact Or.inl ⟨rfl, rfl⟩
  | waiterReturns w =>
    simp only [StageHandle.step] at hstep
    split at hstep
    · obtain ⟨-, rfl⟩ := when_eq_some.mp hstep
      exact Or.inl ⟨rfl, rfl⟩
    · cases hstep

theorem step_visible {loop : Nat} {e : HandleEvent ρ ε} (hstep : s.step loop e = some s')
    (hvisible : s.visible = true) : s'.visible = true := by
  rw [visible] at hvisible ⊢
  rcases step_owner hstep with ⟨howner, -⟩ | ⟨hnext, -⟩
  · rw [howner]
    exact hvisible
  · generalize s.owner = old at hvisible hnext
    generalize s'.owner = new at hnext
    cases hnext with
    | retain | refuse => cases hvisible
    | completeBody start =>
      cases start with
      | true => rfl
      | false => rfl
    | _ => rfl

/-- Only the calls of `wait_settled` and their returns change the waiters. -/
theorem step_waiters {loop : Nat} {e : HandleEvent ρ ε} (hstep : s.step loop e = some s') :
    s'.waiters = s.waiters ∨
    (s.visible = true ∧ s.registering = none ∧ s' = { s with
      waiters := s.waiters ++ [{
        barrier := s.settlementFutures.length - 1, callbacks := s.returned.length
        descendants := s.descendants.length }] }) ∨
    ∃ w waiter errors, s.waiters[w]? = some waiter ∧
      s.settlementFutures[waiter.barrier]? = some true ∧
      s' = { s with waiters := s.waiters.set w { waiter with errors := some errors } } := by
  cases e with
  | waitSettled =>
    obtain ⟨⟨hvisible, hfree⟩, rfl⟩ := when_eq_some.mp hstep
    exact Or.inr (Or.inl ⟨hvisible, hfree, rfl⟩)
  | waiterReturns w =>
    simp only [StageHandle.step] at hstep
    split at hstep
    · rename_i waiter hget
      obtain ⟨⟨-, hdone⟩, rfl⟩ := when_eq_some.mp hstep
      exact Or.inr (Or.inr ⟨w, waiter, _, hget, hdone, rfl⟩)
    · cases hstep
  | retain | submit | setOwnerTask | startDrain | startDrainFails error =>
    obtain ⟨-, rfl⟩ := when_eq_some.mp hstep
    exact Or.inl rfl
  | createDrain i | retainDescendant | endDescendant d =>
    obtain ⟨-, rfl⟩ := when_eq_some.mp hstep
    exact Or.inl rfl
  | refuse | releaseDrain i | descendantDone d error =>
    obtain ⟨-, rfl⟩ := when_eq_some.mp hstep
    rw [releaseWork_frame]
    exact Or.inl rfl
  | startFails error =>
    obtain ⟨-, rfl⟩ := when_eq_some.mp hstep
    obtain ⟨_, _, _, _, heq, -⟩ := setBodyOutcome_frame s none (some error)
    rw [setBodyException, heq]
    exact Or.inl rfl
  | completeBody outcome =>
    have hends : ∀ (result : Option ρ) (error : Option ε) (owner : OwnerPhase),
        { (s.setBodyOutcome result error).1 with owner := owner }.waiters = s.waiters := by
      intro result error owner
      obtain ⟨_, _, _, _, heq, -⟩ := setBodyOutcome_frame s result error
      rw [heq]
    cases outcome with
    | result value =>
      obtain ⟨-, rfl⟩ := when_eq_some.mp hstep
      exact Or.inl (hends _ _ _)
    | exception error =>
      obtain ⟨-, rfl⟩ := when_eq_some.mp hstep
      exact Or.inl (hends _ _ _)
    | cancelled error =>
      obtain ⟨-, rfl⟩ := when_eq_some.mp hstep
      exact Or.inl (hends _ _ _)
  | releaseOwner =>
    simp only [StageHandle.step] at hstep
    split at hstep
    · cases hstep
      rw [releaseWork_frame]
      exact Or.inl rfl
    · cases hstep
      rw [releaseWork_frame]
      exact Or.inl rfl
    · cases hstep
  | register kind =>
    obtain ⟨-, rfl⟩ := when_eq_some.mp hstep
    rcases registerCallback_cases s kind with ⟨-, -, heq⟩ | ⟨-, heq⟩
    · rw [heq]
      exact Or.inl rfl
    · rw [heq]
      exact Or.inl rfl
  | retainDrain =>
    simp only [StageHandle.step] at hstep
    split at hstep
    · obtain ⟨-, rfl⟩ := when_eq_some.mp hstep
      exact Or.inl rfl
    · cases hstep
  | submitDrain onOwnLoop =>
    simp only [StageHandle.step] at hstep
    split at hstep
    · cases hstep
      exact Or.inl rfl
    · cases hstep
  | submitDrainFails error =>
    simp only [StageHandle.step] at hstep
    split at hstep
    · cases hstep
      rw [releaseWork_recordSettlementError]
      exact Or.inl rfl
    · cases hstep
  | refuseDrain =>
    simp only [StageHandle.step] at hstep
    split at hstep
    · cases hstep
      rw [releaseWork_frame]
      exact Or.inl rfl
    · cases hstep
  | rollBack =>
    simp only [StageHandle.step] at hstep
    split at hstep
    · cases hstep
      exact Or.inl rfl
    · cases hstep
      exact Or.inl rfl
    · cases hstep
  | createDrainFails i error =>
    obtain ⟨-, rfl⟩ := when_eq_some.mp hstep
    rw [releaseWork_recordSettlementError]
    exact Or.inl rfl
  | drain i =>
    obtain ⟨-, rfl⟩ := when_eq_some.mp hstep
    unfold drainCallbacks
    split
    · exact Or.inl rfl
    · split
      · exact Or.inl rfl
      · exact Or.inl rfl
  | finishCallback i execution =>
    obtain ⟨entry, -, -, rfl⟩ := finishCallback_of_step hstep
    exact Or.inl rfl
  | callbackHangs i =>
    obtain ⟨-, -, -, rfl⟩ := callbackHangs_of_step hstep
    exact Or.inl rfl
  | cancelDrain i error =>
    obtain ⟨entry, -, -, rfl⟩ := cancelDrain_of_step hstep
    exact Or.inl rfl

/-! ## 4. Stuck drains -/

end StageHandle

end AgentlyStage
