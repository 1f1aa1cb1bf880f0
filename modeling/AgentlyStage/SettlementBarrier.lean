import AgentlyStage.CallbackDrains

/-!
# The settlement barrier

The pending work of a handle counts the owner, the drains, the registration that starts one,
and the retained descendants.  A waiter samples the settlement future while no registration is
in progress; when that future is done, everything that the waiter can have seen has ended.
-/

namespace AgentlyStage

open Transition

def OwnerPhase.holds : OwnerPhase → Bool
  | .created | .refused | .failed | .released => false
  | _ => true

def DrainPhase.holds : DrainPhase → Bool
  | .released => false
  | _ => true

def DescendantPhase.holds : DescendantPhase → Bool
  | .released => false
  | _ => true

namespace StageHandle

variable {ρ ε : Type} {s s' : StageHandle ρ ε}

/-! ## 1. Who holds the work -/

def registrationHolds (s : StageHandle ρ ε) : Bool :=
  match s.registering with
  | some (_, .retained) => true
  | _ => false

def held (s : StageHandle ρ ε) : Nat :=
  s.owner.holds.toNat + s.registrationHolds.toNat + s.drains.countP DrainPhase.holds +
    s.descendants.countP DescendantPhase.holds

/-- What a step does to the pending work, the futures and those who hold the work. -/
def WorkMoves (s s' : StageHandle ρ ε) : Prop :=
  (s'.pendingWork = s.pendingWork ∧ s'.settlementFutures = s.settlementFutures ∧
      s'.held = s.held) ∨
    (s'.pendingWork = s.retainWork.pendingWork ∧
      s'.settlementFutures = s.retainWork.settlementFutures ∧ s'.held = s.held + 1) ∨
    (s'.pendingWork = s.releaseWork.pendingWork ∧
      s'.settlementFutures = s.releaseWork.settlementFutures ∧ s'.held + 1 = s.held)

theorem setBodyOutcome_work (s : StageHandle ρ ε) (result : Option ρ) (error : Option ε)
    {owner : OwnerPhase} (howner : owner.holds = s.owner.holds) :
    WorkMoves s { (s.setBodyOutcome result error).1 with owner := owner } := by
  obtain ⟨completed, value, failure, active, heq, -⟩ := setBodyOutcome_frame s result error
  rw [heq]
  refine Or.inl ⟨rfl, rfl, ?_⟩
  simp only [held, howner, registrationHolds]

theorem register_work (hfree : s.registering = none) (kind : CallbackKind) :
    WorkMoves s (s.registerCallback kind) := by
  rcases registerCallback_cases s kind with ⟨-, -, heq⟩ | ⟨-, heq⟩
  · rw [heq]
    refine Or.inl ⟨rfl, rfl, ?_⟩
    simp only [held, registrationHolds, hfree, appendCallback]
  · rw [heq]
    exact Or.inl ⟨rfl, rfl, rfl⟩

/-- The phase of a drain changes, and it keeps its work. -/
theorem held_setDrain {i : Nat} {old d : DrainPhase} (hget : s.drains[i]? = some old)
    (hholds : d.holds = old.holds) :
    (s.drains.set i d).countP DrainPhase.holds = s.drains.countP DrainPhase.holds :=
  countP_set_same hget hholds

theorem drain_work {i : Nat}
    (hget : s.drains[i]? = some .created ∨ s.drains[i]? = some .looping) :
    WorkMoves s (s.drainCallbacks i) := by
  have hset : ∀ drain : DrainPhase, drain.holds = true →
      (s.drains.set i drain).countP DrainPhase.holds = s.drains.countP DrainPhase.holds := by
    intro drain hholds
    rcases hget with hget | hget
    · exact held_setDrain hget hholds
    · exact held_setDrain hget hholds
  unfold drainCallbacks
  split
  · refine Or.inl ⟨rfl, rfl, ?_⟩
    simp only [held, registrationHolds, hset .finished rfl]
  · split
    · refine Or.inl ⟨rfl, rfl, ?_⟩
      simp only [held, registrationHolds, hset (.executing _) rfl]
    · refine Or.inl ⟨rfl, rfl, ?_⟩
      simp only [held, registrationHolds, hset .looping rfl]

variable [DecidableEq ε]

/-- **Work lemma of a step**: who holds the work changes exactly as the pending work does. -/
theorem step_work {loop : Nat} {e : HandleEvent ρ ε} (hstep : s.step loop e = some s') :
    WorkMoves s s' := by
  have hrelease := releaseWork_frame s
  cases e with
  | retain =>
    obtain ⟨howner, rfl⟩ := when_eq_some.mp hstep
    refine Or.inr (Or.inl ⟨rfl, rfl, ?_⟩)
    simp [held, registrationHolds, howner, OwnerPhase.holds, retainWork]
    omega
  | submit =>
    obtain ⟨howner, rfl⟩ := when_eq_some.mp hstep
    refine Or.inl ⟨rfl, rfl, ?_⟩
    simp [held, registrationHolds, howner, OwnerPhase.holds]
  | refuse =>
    obtain ⟨howner, rfl⟩ := when_eq_some.mp hstep
    rw [hrelease]
    refine Or.inr (Or.inr ⟨rfl, rfl, ?_⟩)
    simp [held, registrationHolds, howner, OwnerPhase.holds]
    omega
  | setOwnerTask =>
    obtain ⟨howner, rfl⟩ := when_eq_some.mp hstep
    refine Or.inl ⟨rfl, rfl, ?_⟩
    simp [held, registrationHolds, howner, OwnerPhase.holds]
  | startFails error =>
    obtain ⟨howner, rfl⟩ := when_eq_some.mp hstep
    exact setBodyOutcome_work s none (some error) (by rw [howner]; rfl)
  | completeBody outcome =>
    have hends : ∀ (result : Option ρ) (error : Option ε), s.owner = .body →
        WorkMoves s { (s.setBodyOutcome result error).1 with
          owner := if (s.setBodyOutcome result error).2 then .starting else .ending } := by
      intro result error howner
      refine setBodyOutcome_work s result error ?_
      rw [howner]
      split
      · rfl
      · rfl
    cases outcome with
    | result value =>
      obtain ⟨howner, rfl⟩ := when_eq_some.mp hstep
      exact hends _ _ howner
    | exception error =>
      obtain ⟨howner, rfl⟩ := when_eq_some.mp hstep
      exact hends _ _ howner
    | cancelled error =>
      obtain ⟨howner, rfl⟩ := when_eq_some.mp hstep
      exact hends _ _ howner
  | startDrain =>
    obtain ⟨howner, rfl⟩ := when_eq_some.mp hstep
    refine Or.inr (Or.inl ⟨rfl, rfl, ?_⟩)
    simp [held, registrationHolds, howner, OwnerPhase.holds, retainWork, DrainPhase.holds]
    omega
  | startDrainFails error =>
    obtain ⟨howner, rfl⟩ := when_eq_some.mp hstep
    refine Or.inl ⟨rfl, rfl, ?_⟩
    simp [held, registrationHolds, howner, OwnerPhase.holds]
  | releaseOwner =>
    simp only [StageHandle.step] at hstep
    split at hstep
    · rename_i howner
      cases hstep
      rw [hrelease]
      refine Or.inr (Or.inr ⟨rfl, rfl, ?_⟩)
      simp [held, registrationHolds, howner, OwnerPhase.holds]
      omega
    · rename_i howner
      cases hstep
      rw [hrelease]
      refine Or.inr (Or.inr ⟨rfl, rfl, ?_⟩)
      simp [held, registrationHolds, howner, OwnerPhase.holds]
      omega
    · cases hstep
  | register kind =>
    obtain ⟨⟨-, hfree⟩, rfl⟩ := when_eq_some.mp hstep
    exact register_work hfree kind
  | retainDrain =>
    simp only [StageHandle.step] at hstep
    split at hstep
    · rename_i callback hregistering
      obtain ⟨-, rfl⟩ := when_eq_some.mp hstep
      refine Or.inr (Or.inl ⟨rfl, rfl, ?_⟩)
      simp [held, registrationHolds, hregistering, retainWork]
      omega
    · cases hstep
  | submitDrain onOwnLoop =>
    simp only [StageHandle.step] at hstep
    split at hstep
    · rename_i callback hregistering
      cases hstep
      refine Or.inl ⟨rfl, rfl, ?_⟩
      have hholds : (if onOwnLoop then DrainPhase.created else .posted).holds = true := by
        split
        · rfl
        · rfl
      simp [held, registrationHolds, hregistering, finishRegistration, hholds]
      omega
    · cases hstep
  | submitDrainFails error =>
    simp only [StageHandle.step] at hstep
    split at hstep
    · rename_i callback hregistering
      cases hstep
      rw [releaseWork_recordSettlementError]
      refine Or.inr (Or.inr ⟨rfl, rfl, ?_⟩)
      simp [held, registrationHolds, hregistering, finishRegistration]
      omega
    · cases hstep
  | refuseDrain =>
    simp only [StageHandle.step] at hstep
    split at hstep
    · rename_i callback hregistering
      cases hstep
      rw [hrelease]
      refine Or.inr (Or.inr ⟨rfl, rfl, ?_⟩)
      simp [held, registrationHolds, hregistering]
      omega
    · cases hstep
  | rollBack =>
    simp only [StageHandle.step] at hstep
    split at hstep
    · rename_i hregistering
      cases hstep
      refine Or.inl ⟨rfl, rfl, ?_⟩
      simp [held, registrationHolds, hregistering, rollBack]
    · rename_i hregistering
      cases hstep
      refine Or.inl ⟨rfl, rfl, ?_⟩
      simp [held, registrationHolds, hregistering, rollBack]
    · cases hstep
  | createDrain i =>
    obtain ⟨hget, rfl⟩ := when_eq_some.mp hstep
    refine Or.inl ⟨rfl, rfl, ?_⟩
    simp only [held, registrationHolds, held_setDrain (d := .created) hget rfl]
  | createDrainFails i error =>
    obtain ⟨hget, rfl⟩ := when_eq_some.mp hstep
    rw [releaseWork_recordSettlementError]
    refine Or.inr (Or.inr ⟨rfl, rfl, ?_⟩)
    have hdrop := countP_set_drop (y := DrainPhase.released) (p := DrainPhase.holds) hget rfl rfl
    simp only [held, registrationHolds]
    omega
  | drain i =>
    obtain ⟨hget, rfl⟩ := when_eq_some.mp hstep
    exact drain_work hget
  | finishCallback i execution =>
    obtain ⟨entry, hget, -, rfl⟩ := finishCallback_of_step hstep
    refine Or.inl ⟨rfl, rfl, ?_⟩
    simp only [held, registrationHolds, finishCallback,
      held_setDrain (d := .looping) hget rfl]
  | callbackHangs i =>
    obtain ⟨-, -, -, rfl⟩ := callbackHangs_of_step hstep
    exact Or.inl ⟨rfl, rfl, rfl⟩
  | cancelDrain i error =>
    obtain ⟨entry, hget, -, rfl⟩ := cancelDrain_of_step hstep
    refine Or.inl ⟨rfl, rfl, ?_⟩
    simp only [held, registrationHolds, finishCallback,
      held_setDrain (d := .looping) hget rfl]
  | releaseDrain i =>
    obtain ⟨hget, rfl⟩ := when_eq_some.mp hstep
    rw [hrelease]
    refine Or.inr (Or.inr ⟨rfl, rfl, ?_⟩)
    have hdrop := countP_set_drop (y := DrainPhase.released) (p := DrainPhase.holds) hget rfl rfl
    simp only [held, registrationHolds]
    omega
  | retainDescendant =>
    obtain ⟨-, rfl⟩ := when_eq_some.mp hstep
    refine Or.inr (Or.inl ⟨rfl, rfl, ?_⟩)
    simp [held, registrationHolds, retainWork, DescendantPhase.holds]
    omega
  | endDescendant d =>
    obtain ⟨hget, rfl⟩ := when_eq_some.mp hstep
    refine Or.inl ⟨rfl, rfl, ?_⟩
    have hsame := countP_set_same (y := DescendantPhase.ended) (p := DescendantPhase.holds) hget rfl
    simp only [held, registrationHolds, hsame]
  | descendantDone d error =>
    obtain ⟨hget, rfl⟩ := when_eq_some.mp hstep
    rw [hrelease]
    refine Or.inr (Or.inr ⟨rfl, rfl, ?_⟩)
    have hdrop :=
      countP_set_drop (y := DescendantPhase.released) (p := DescendantPhase.holds) hget rfl rfl
    simp only [held, registrationHolds]
    omega
  | waitSettled =>
    obtain ⟨-, rfl⟩ := when_eq_some.mp hstep
    exact Or.inl ⟨rfl, rfl, rfl⟩
  | waiterReturns w =>
    simp only [StageHandle.step] at hstep
    split at hstep
    · obtain ⟨-, rfl⟩ := when_eq_some.mp hstep
      exact Or.inl ⟨rfl, rfl, rfl⟩
    · cases hstep

/-! ## 2. The futures -/

omit [DecidableEq ε] in
/-- The current future is done exactly when there is no pending work; the earlier ones are. -/
def FuturesOk (s : StageHandle ρ ε) : Prop :=
  ∃ earlier, s.settlementFutures = earlier ++ [decide (s.pendingWork = 0)] ∧
    ∀ future ∈ earlier, future = true

omit [DecidableEq ε] in
theorem FuturesOk.retain (hf : FuturesOk s) : FuturesOk s.retainWork := by
  obtain ⟨earlier, hfutures, hdone⟩ := hf
  by_cases hzero : s.pendingWork = 0
  · refine ⟨s.settlementFutures, ?_, fun future hmem => ?_⟩
    · simp [retainWork, hzero]
    · rw [hfutures, List.mem_append, List.mem_singleton] at hmem
      rcases hmem with hmem | rfl
      · exact hdone future hmem
      · exact decide_eq_true hzero
  · refine ⟨earlier, ?_, hdone⟩
    simp [retainWork, hzero, hfutures]

omit [DecidableEq ε] in
theorem FuturesOk.release (hf : FuturesOk s) (hpos : 0 < s.pendingWork) :
    FuturesOk s.releaseWork := by
  obtain ⟨earlier, hfutures, hdone⟩ := hf
  have hzero : s.pendingWork ≠ 0 := Nat.ne_of_gt hpos
  refine ⟨earlier, ?_, hdone⟩
  by_cases hone : s.pendingWork = 1
  · simp [releaseWork, hone, hfutures]
  · have hrest : s.pendingWork - 1 ≠ 0 := by omega
    simp [releaseWork, hzero, hone, hrest, hfutures]

/-- A future that is done was done before, or there is no pending work now. -/
structure FuturesMove (s s' : StageHandle ρ ε) : Prop where
  length : s.settlementFutures.length ≤ s'.settlementFutures.length
  done : ∀ b : Nat, s.settlementFutures[b]? = some true → s'.settlementFutures[b]? = some true
  becomes : ∀ b < s.settlementFutures.length, s'.settlementFutures[b]? = some true →
    s.settlementFutures[b]? = some true ∨ s'.pendingWork = 0

omit [DecidableEq ε] in
theorem FuturesMove.of_eq (hfutures : s'.settlementFutures = s.settlementFutures) :
    FuturesMove s s' := by
  refine ⟨Nat.le_of_eq (congrArg List.length hfutures.symm), fun b hget => ?_,
    fun b _ hget => Or.inl ?_⟩
  · rw [hfutures]
    exact hget
  · rw [hfutures] at hget
    exact hget

omit [DecidableEq ε] in
theorem futuresMove_retain (s : StageHandle ρ ε) : FuturesMove s s.retainWork := by
  by_cases hzero : s.pendingWork = 0
  · have hfutures : s.retainWork.settlementFutures = s.settlementFutures ++ [false] := by
      simp [retainWork, hzero]
    constructor
    · rw [hfutures, List.length_append]
      exact Nat.le_add_right _ _
    · intro b hget
      rw [hfutures]
      exact getElem?_append_of_some _ hget
    · intro b hlt hget
      rw [hfutures, List.getElem?_append_left hlt] at hget
      exact Or.inl hget
  · exact FuturesMove.of_eq (by simp [retainWork, hzero])

omit [DecidableEq ε] in
theorem futuresMove_release (hf : FuturesOk s) (hpos : 0 < s.pendingWork) :
    FuturesMove s s.releaseWork := by
  obtain ⟨earlier, hfutures, -⟩ := hf
  have hzero : s.pendingWork ≠ 0 := Nat.ne_of_gt hpos
  by_cases hone : s.pendingWork = 1
  · have hreleased : s.releaseWork.settlementFutures = earlier ++ [true] := by
      simp [releaseWork, hone, hfutures]
    constructor
    · rw [hreleased, hfutures, List.length_append, List.length_append]
      exact Nat.le_refl _
    · intro b hget
      rw [hreleased]
      rw [hfutures] at hget
      rcases getElem?_append_cases hget with ⟨rfl, -⟩ | hget
      · exact List.getElem?_concat_length
      · exact getElem?_append_of_some _ hget
    · intro b _ _
      refine Or.inr ?_
      simp [releaseWork, hone]
  · exact FuturesMove.of_eq (by simp [releaseWork, hzero, hone])

omit [DecidableEq ε] in
/-- The pending work is what is held, and the futures follow it. -/
theorem WorkMoves.keeps (hm : WorkMoves s s') (hpending : s.pendingWork = s.held)
    (hf : FuturesOk s) : s'.pendingWork = s'.held ∧ FuturesOk s' ∧ FuturesMove s s' := by
  rcases hm with ⟨hp, hfutures, hheld⟩ | ⟨hp, hfutures, hheld⟩ | ⟨hp, hfutures, hheld⟩
  · refine ⟨by rw [hp, hheld, hpending], ?_, ?_⟩
    · rw [FuturesOk, hfutures, hp]
      exact hf
    · exact FuturesMove.of_eq hfutures
  · refine ⟨?_, ?_, ?_⟩
    · rw [hp, hheld, ← hpending]
      rfl
    · rw [FuturesOk, hfutures, hp]
      exact hf.retain
    · have hmove := futuresMove_retain s
      constructor
      · rw [hfutures]
        exact hmove.length
      · rw [hfutures]
        exact hmove.done
      · rw [hfutures, hp]
        exact hmove.becomes
  · have hpos : 0 < s.pendingWork := by omega
    refine ⟨?_, ?_, ?_⟩
    · rw [hp, releaseWork, if_neg (Nat.ne_of_gt hpos)]
      change s.pendingWork - 1 = _
      omega
    · rw [FuturesOk, hfutures, hp]
      exact hf.release hpos
    · have hmove := futuresMove_release hf hpos
      constructor
      · rw [hfutures]
        exact hmove.length
      · rw [hfutures]
        exact hmove.done
      · rw [hfutures, hp]
        exact hmove.becomes

/-! ## 3. The waiters -/

/-- The callback has been executed or skipped. -/
def Disposition.over : Disposition ρ ε → Bool
  | .skipped | .executed _ => true
  | _ => false

/-- What a waiter may rely on when its barrier is done. -/
structure Passed (s : StageHandle ρ ε) (waiter : Waiter ε) : Prop where
  body : s.bodyCompleted = true
  descendants : ∀ d < waiter.descendants, ∃ phase, s.descendants[d]? = some phase ∧
    phase ≠ .running
  callbacks : ∀ k < waiter.callbacks, ∃ callback : Callback, ∃ disposition : Disposition ρ ε,
    s.returned[k]? = some callback ∧ s.handled[k]? = some (callback, disposition) ∧
      Disposition.over disposition = true

omit [DecidableEq ε] in
theorem Passed.keeps {waiter waiter' : Waiter ε} (hp : Passed s waiter) (hk : Keeps s s')
    (hcallbacks : waiter'.callbacks = waiter.callbacks)
    (hdescendants : waiter'.descendants = waiter.descendants) : Passed s' waiter' := by
  refine ⟨hk.completed hp.body, fun d hlt => ?_, fun k hlt => ?_⟩
  · rw [hdescendants] at hlt
    obtain ⟨phase, hget, hended⟩ := hp.descendants d hlt
    obtain ⟨phase', hget', hrunning⟩ := hk.descendants d phase hget
    exact ⟨phase', hget', fun h => hended (hrunning h)⟩
  · rw [hcallbacks] at hlt
    obtain ⟨callback, disposition, hreturned, hhandled, hover⟩ := hp.callbacks k hlt
    refine ⟨callback, disposition, ?_, hk.handled k callback disposition hhandled ?_, hover⟩
    · obtain ⟨more, hmore⟩ := hk.returned
      rw [← hmore]
      exact getElem?_append_of_some more hreturned
    · rintro args rfl
      cases hover

omit [DecidableEq ε] in
/-- Without pending work, everything that a waiter can have seen is over. -/
theorem passed_of_settled (hd : DrainInv s) (hpending : s.pendingWork = s.held)
    (hzero : s.pendingWork = 0) (hvisible : s.visible = true) {waiter : Waiter ε}
    (hcallbacks : waiter.callbacks ≤ s.returned.length)
    (hdescendants : waiter.descendants ≤ s.descendants.length) : Passed s waiter := by
  rw [hzero, held] at hpending
  have howner : s.owner.holds = false := by
    cases hholds : s.owner.holds with
    | false => rfl
    | true =>
      rw [hholds, Bool.toNat_true] at hpending
      omega
  have hlive : s.drains.countP DrainPhase.live = 0 := by
    have hle : s.drains.countP DrainPhase.live ≤ s.drains.countP DrainPhase.holds :=
      List.countP_mono_left fun drain _ hlive => by
        cases drain with
        | released => cases hlive
        | _ => rfl
    omega
  refine ⟨?_, fun d hlt => ?_, fun k hlt => ?_⟩
  · rw [hd.completed]
    rw [visible] at hvisible
    cases hphase : s.owner with
    | created | submitting | refused =>
      rw [hphase] at hvisible
      cases hvisible
    | posted | failing | body | starting | ending =>
      rw [hphase] at howner
      cases howner
    | failed | released => rfl
  · have hlt' := Nat.lt_of_lt_of_le hlt hdescendants
    refine ⟨_, List.getElem?_eq_getElem hlt', fun hrunning => ?_⟩
    have hheld : 0 < s.descendants.countP DescendantPhase.holds :=
      List.countP_pos_iff.mpr ⟨_, List.getElem_mem hlt', by rw [hrunning]; rfl⟩
    omega
  · -- only the callback of a registration in progress is left in the deque
    have htaken : s.handled.map Prod.fst = s.returned := by
      have horder := hd.order
      cases hadmitted : s.halfAdmitted with
      | some callback =>
        rw [hadmitted, hd.registered callback hadmitted] at horder
        exact List.append_cancel_right horder
      | none =>
        have hnil : s.callbacks = [] := by
          by_contra hne
          have hdone : s.bodyCompleted = true := by
            rw [hd.completed]
            cases hphase : s.owner with
            | failed | released => rfl
            | created | submitting | refused =>
              rw [visible, hphase] at hvisible
              cases hvisible
            | posted | failing | body | starting | ending =>
              rw [hphase] at howner
              cases howner
          have hflag := hd.flag
          rw [hd.waiting hdone hne, starters, hadmitted, hlive] at hflag
          by_cases hstarting : s.owner = .starting
          · rw [hstarting] at howner
            cases howner
          · rw [decide_eq_false hstarting] at hflag
            cases hflag
        rw [hadmitted, hnil, Option.toList_none, List.append_nil, List.append_nil] at horder
        exact horder
    have hlt' : k < s.handled.length := by
      rw [← List.length_map (f := Prod.fst), htaken]
      exact Nat.lt_of_lt_of_le hlt hcallbacks
    have hget : s.handled[k]? = some s.handled[k] := List.getElem?_eq_getElem hlt'
    refine ⟨s.handled[k].1, s.handled[k].2, ?_, hget, ?_⟩
    · rw [← htaken, List.getElem?_map, hget]
      rfl
    · cases hdisposition : s.handled[k].2 with
      | skipped => rfl
      | executed args => rfl
      | executing args =>
        have hexecuting := hd.executing k s.handled[k].1 args (by rw [hget, ← hdisposition])
        cases (live_eq_false_of_countP hlive _ hexecuting)
      | refused args =>
        refine absurd (List.mem_of_getElem? (i := k) ?_) (hd.accepted s.handled[k].1 args)
        rw [hget, ← hdisposition]

/-! ## 4. Runs -/

/-- A waiter, and what its barrier stands for. -/
structure WaiterOk (s : StageHandle ρ ε) (waiter : Waiter ε) : Prop where
  visible : s.visible = true
  barrier : waiter.barrier < s.settlementFutures.length
  callbacks : waiter.callbacks ≤ s.returned.length
  descendants : waiter.descendants ≤ s.descendants.length
  errors : waiter.errors.isSome = true → s.settlementFutures[waiter.barrier]? = some true
  passed : s.settlementFutures[waiter.barrier]? = some true → Passed s waiter

structure BarrierInv (s : StageHandle ρ ε) : Prop where
  pending : s.pendingWork = s.held
  futures : FuturesOk s
  waiters : ∀ waiter ∈ s.waiters, WaiterOk s waiter

omit [DecidableEq ε] in
/-- A waiter that has sampled its barrier before the step. -/
theorem WaiterOk.step {waiter waiter' : Waiter ε} (hw : WaiterOk s waiter) (hd' : DrainInv s')
    (hk : Keeps s s') (hvisible : s.visible = true → s'.visible = true)
    (hmove : FuturesMove s s') (hpending : s'.pendingWork = s'.held)
    (hbarrier : waiter'.barrier = waiter.barrier) (hcallbacks : waiter'.callbacks = waiter.callbacks)
    (hdescendants : waiter'.descendants = waiter.descendants)
    (herrors : waiter'.errors.isSome = true → waiter.errors.isSome = true ∨
      s.settlementFutures[waiter.barrier]? = some true) : WaiterOk s' waiter' := by
  have hreturned : s.returned.length ≤ s'.returned.length := hk.returned.length_le
  have hlength : s.descendants.length ≤ s'.descendants.length := by
    by_contra hlt
    obtain ⟨phase, hget, -⟩ := hk.descendants s'.descendants.length _
      (List.getElem?_eq_getElem (Nat.lt_of_not_le hlt))
    rw [List.getElem?_eq_none (Nat.le_refl _)] at hget
    cases hget
  have hcallbacks' : waiter'.callbacks ≤ s'.returned.length := by
    rw [hcallbacks]
    exact Nat.le_trans hw.callbacks hreturned
  have hdescendants' : waiter'.descendants ≤ s'.descendants.length := by
    rw [hdescendants]
    exact Nat.le_trans hw.descendants hlength
  refine ⟨hvisible hw.visible, ?_, hcallbacks', hdescendants', fun h => ?_, fun hdone => ?_⟩
  · rw [hbarrier]
    exact Nat.lt_of_lt_of_le hw.barrier hmove.length
  · rw [hbarrier]
    rcases herrors h with hold | hdone
    · exact hmove.done _ (hw.errors hold)
    · exact hmove.done _ hdone
  · rw [hbarrier] at hdone
    rcases hmove.becomes _ hw.barrier hdone with hold | hzero
    · exact (hw.passed hold).keeps hk hcallbacks hdescendants
    · exact passed_of_settled hd' hpending hzero (hvisible hw.visible) hcallbacks' hdescendants'

/-- **Step lemma of the barrier.** -/
theorem BarrierInv.step (hb : BarrierInv s) (hd : DrainInv s) {loop : Nat} {e : HandleEvent ρ ε}
    (hok : s.losesCallback e = false) (hstep : s.step loop e = some s') : BarrierInv s' := by
  have hd' := hd.step hok hstep
  have hk := step_keeps hstep
  obtain ⟨hpending, hfutures, hmove⟩ := (step_work hstep).keeps hb.pending hb.futures
  have hvisible := step_visible hstep
  refine ⟨hpending, hfutures, fun waiter' hmem => ?_⟩
  have hold : ∀ waiter ∈ s.waiters, WaiterOk s' waiter := fun waiter hmem =>
    (hb.waiters waiter hmem).step hd' hk hvisible hmove hpending rfl rfl rfl Or.inl
  rcases step_waiters hstep with heq | ⟨hseen, -, rfl⟩ | ⟨w, waiter, errors, hget, hdone, rfl⟩
  · rw [heq] at hmem
    exact hold waiter' hmem
  · rcases List.mem_append.mp hmem with hmem | hmem
    · exact hold waiter' hmem
    · -- a new waiter samples the current future
      rw [List.mem_singleton] at hmem
      subst hmem
      obtain ⟨earlier, hcurrent, -⟩ := hb.futures
      have hlength : s.settlementFutures.length = earlier.length + 1 := by
        rw [hcurrent, List.length_append, List.length_singleton]
      refine ⟨hseen, ?_, Nat.le_refl _, Nat.le_refl _, fun h => (nomatch h), fun hdone => ?_⟩
      · change s.settlementFutures.length - 1 < s.settlementFutures.length
        omega
      · change s.settlementFutures[s.settlementFutures.length - 1]? = some true at hdone
        rw [hlength, Nat.add_sub_cancel, hcurrent, List.getElem?_concat_length, Option.some.injEq,
          decide_eq_true_iff] at hdone
        exact passed_of_settled hd' hpending hdone hseen (Nat.le_refl _) (Nat.le_refl _)
  · rcases List.mem_or_eq_of_mem_set hmem with hmem | rfl
    · exact hold waiter' hmem
    · exact (hb.waiters waiter (List.mem_of_getElem? hget)).step hd' hk hvisible hmove hpending rfl
        rfl rfl fun _ => Or.inr hdone

theorem reachUnder_barrierInv {loop : Nat} {initial : List CallbackKind}
    (h : (handleSystem ρ ε loop initial).ReachUnder (fun s e => s.losesCallback e = false) s) :
    BarrierInv s := by
  induction h with
  | init hinit =>
    cases hinit
    obtain ⟨callbacks, appended, returned, heq⟩ :=
      initial_eq initial ({} : StageHandle ρ ε)
    rw [heq]
    refine ⟨rfl, ⟨[], rfl, fun _ hmem => (nomatch hmem)⟩, fun _ hmem => (nomatch hmem)⟩
  | step hreach hok hstep ih => exact ih.step (reachUnder_drainInv hreach) hok hstep

/-! ## 5. The barrier -/

/-- A barrier is done only when it may be, and the current one is done without pending work. -/
def BarrierHolds (s : StageHandle ρ ε) : Prop :=
  (∀ waiter ∈ s.waiters,
    waiter.errors.isSome = true ∨ s.settlementFutures[waiter.barrier]? = some true →
      Passed s waiter) ∧
  s.settlementFutures.getLast? = some (decide (s.pendingWork = 0))

omit [DecidableEq ε] in
theorem BarrierInv.holds (hb : BarrierInv s) : BarrierHolds s := by
  refine ⟨fun waiter hmem hdone => ?_, ?_⟩
  · have hw := hb.waiters waiter hmem
    rcases hdone with herrors | hdone
    · exact hw.passed (hw.errors herrors)
    · exact hw.passed hdone
  · obtain ⟨earlier, hfutures, -⟩ := hb.futures
    rw [hfutures, List.getLast?_concat]

/-- The waiters that sample the barrier from the `first` one on see `n` registrations at least. -/
def SeesAtLeast (first n : Nat) (s : StageHandle ρ ε) : Prop :=
  first ≤ s.waiters.length ∧ n ≤ s.returned.length ∧
    ∀ w : Nat, ∀ waiter : Waiter ε, first ≤ w → s.waiters[w]? = some waiter → n ≤ waiter.callbacks

theorem SeesAtLeast.step {first n loop : Nat} {e : HandleEvent ρ ε} (hs : SeesAtLeast first n s)
    (hstep : s.step loop e = some s') : SeesAtLeast first n s' := by
  obtain ⟨hfirst, hreturned, hsees⟩ := hs
  have hgrows := Nat.le_trans hreturned (step_keeps hstep).returned.length_le
  rcases step_waiters hstep with heq | ⟨-, -, rfl⟩ | ⟨w, waiter, errors, hget, -, rfl⟩
  · rw [SeesAtLeast, heq]
    exact ⟨hfirst, hgrows, hsees⟩
  · refine ⟨?_, hgrows, fun w waiter hle hget => ?_⟩
    · rw [List.length_append]
      exact Nat.le_add_right_of_le hfirst
    · rcases getElem?_append_cases hget with ⟨-, rfl⟩ | hget
      · exact hreturned
      · exact hsees w waiter hle hget
  · refine ⟨?_, hgrows, fun j waiter' hle hj => ?_⟩
    · rw [List.length_set]
      exact hfirst
    · rcases getElem?_set_cases hget hj with ⟨rfl, rfl⟩ | ⟨-, hj⟩
      · exact hsees j waiter hle hget
      · exact hsees j waiter' hle hj

end StageHandle

end AgentlyStage
