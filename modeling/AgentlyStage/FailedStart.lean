import AgentlyStage.Admission
import AgentlyStage.SettlementBarrier

/-!
# Owner tasks that cannot be created

When `loop.create_task` raises, `start` takes over the duties of the body: it sets the outcome,
gives the admission back and releases the work, in this order, while other roots and the
registration of callbacks go on.
-/

namespace AgentlyStage

open Transition

/-! ## 1. A handle and its root -/

/-- The root that an event ends or runs. -/
def RootEvent.root? : RootEvent → Option Nat
  | .go _ _ => none
  | .execute r | .complete r | .fail r | .cancel r | .refuse r => some r

/-- A handle that is being started, among the roots of its Stage. -/
structure StartState (ρ ε : Type) where
  handle : StageHandle ρ ε
  roots : RootsState
  /-- The root of the handle. -/
  root : Nat

inductive StartEvent (ρ ε : Type) where
  | handle (event : HandleEvent ρ ε)
  | roots (event : RootEvent)
  /-- `on_start_error`. -/
  | finishAdmission

/-- `_release_work` of a start or of a body. -/
def HandleEvent.releasesOwner {ρ ε : Type} : HandleEvent ρ ε → Bool
  | .releaseOwner => true
  | _ => false

namespace StartState

variable {ρ ε : Type}

/-- The root has given its admission back. -/
def rootFinished (s : StartState ρ ε) : Bool :=
  s.roots.roots[s.root]?.any fun root => decide (root.phase = .finished)

/-- The body runs in the owner task; the root is refused when the submission is. -/
def ownRootMoves (s : StartState ρ ε) : RootEvent → Bool
  | .refuse _ => decide (s.handle.owner = .refused)
  | _ => s.handle.owner.hasTask

variable [DecidableEq ε]

def step (loop : Nat) (s : StartState ρ ε) : StartEvent ρ ε → Option (StartState ρ ε)
  | .handle event =>
    -- `on_start_error` comes before `_release_work`
    if event.releasesOwner && decide (s.handle.owner = .failing) && !s.rootFinished then none
    else (s.handle.step loop event).map fun handle => { s with handle := handle }
  | .roots event =>
    if event.root? = some s.root ∧ s.ownRootMoves event = false then none
    else (s.roots.step event).map fun roots => { s with roots := roots }
  | .finishAdmission =>
    if s.handle.owner = .failing then
      (s.roots.endRoot s.root [.admitted]).map fun roots => { s with roots := roots }
    else none

end StartState

/-- All interleavings of one handle with its initial callbacks and of the other roots. -/
def startSystem (ρ ε : Type) [DecidableEq ε] (loop : Nat) (initial : List CallbackKind) :
    System (StartState ρ ε) (StartEvent ρ ε) where
  Init s := s.handle = initial.foldl StageHandle.registerInitialCallback {} ∧
    ∃ root, s.roots.roots[s.root]? = some root ∧ root.phase = .admitted
  step := StartState.step loop

/-! ## 2. The other roots -/

namespace RootsState

theorem getElem?_finishRoot (s : RootsState) {r k : Nat} (root : Root) (hne : k ≠ r) :
    (s.finishRoot r root).roots[k]? = s.roots[k]? :=
  List.getElem?_set_ne (Ne.symm hne)

/-- A step of another root leaves a root as it is. -/
theorem step_other {s s' : RootsState} {e : RootEvent} {k : Nat} {root : Root}
    (hget : s.roots[k]? = some root) (hother : e.root? ≠ some k) (hstep : s.step e = some s') :
    s'.roots[k]? = some root := by
  have hends : ∀ r phases, some r ≠ some k → s.endRoot r phases = some s' →
      s'.roots[k]? = some root := by
    intro r phases hne hend
    unfold endRoot at hend
    split at hend
    · rename_i root' hroot
      split at hend
      · cases hend
        rw [getElem?_finishRoot s root' fun heq => hne (congrArg some heq.symm)]
        exact hget
      · cases hend
    · cases hend
  cases e with
  | go ownedNested resolves =>
    have hlt : k < s.roots.length := (List.getElem?_eq_some_iff.mp hget).1
    simp only [step] at hstep
    split at hstep
    · cases hstep
      exact hget
    · rename_i admission permits _
      split at hstep
      · cases hstep
        exact (List.getElem?_append_left hlt).trans hget
      · cases hstep
        rw [getElem?_finishRoot _ _ (Nat.ne_of_lt hlt)]
        exact (List.getElem?_append_left hlt).trans hget
  | execute r =>
    simp only [step] at hstep
    split at hstep
    · split at hstep
      · cases hstep
        rw [List.getElem?_set_ne fun heq => hother (congrArg some heq)]
        exact hget
      · cases hstep
    · cases hstep
  | complete r => exact hends r [.executing] hother hstep
  | fail r => exact hends r [.executing] hother hstep
  | cancel r => exact hends r [.admitted, .executing] hother hstep
  | refuse r => exact hends r [.admitted] hother hstep

end RootsState

namespace StageHandle

variable {ρ ε : Type} {s s' : StageHandle ρ ε}

/-! ## 3. Before the start -/

def unstarted (s : StageHandle ρ ε) : Bool :=
  match s.owner with
  | .created | .submitting | .posted => true
  | _ => false

/-- Nothing has happened to the callbacks but their registration. -/
structure Unstarted (s : StageHandle ρ ε) : Prop where
  completed : s.bodyCompleted = false
  callbacks : s.callbacks = s.returned
  active : s.callbackDrainActive = false
  registering : s.registering = none
  handled : s.handled = []
  drains : s.drains = []
  descendants : s.descendants = []

theorem unstarted_initial (initial : List CallbackKind) :
    Unstarted (initial.foldl registerInitialCallback ({} : StageHandle ρ ε)) := by
  have happend : ∀ s : StageHandle ρ ε, Unstarted s →
      Unstarted (initial.foldl registerInitialCallback s) := by
    induction initial with
    | nil => exact fun s hs => hs
    | cons kind initial ih =>
      intro s hs
      refine ih _ ⟨hs.completed, ?_, hs.active, hs.registering, hs.handled, hs.drains,
        hs.descendants⟩
      exact congrArg (· ++ _) hs.callbacks
  exact happend {} ⟨rfl, rfl, rfl, rfl, rfl, rfl, rfl⟩

/-- The fields that the submission of the body changes. -/
theorem Unstarted.congr (hu : Unstarted s) (hcompleted : s'.bodyCompleted = s.bodyCompleted)
    (hdeque : s'.callbacks = s.callbacks ∧ s'.returned = s.returned ∧
      s'.callbackDrainActive = s.callbackDrainActive ∧ s'.registering = s.registering)
    (hdrains : s'.handled = s.handled ∧ s'.drains = s.drains ∧ s'.descendants = s.descendants) :
    Unstarted s' := by
  obtain ⟨hcallbacks, hreturned, hactive, hregistering⟩ := hdeque
  obtain ⟨hhandled, hdrains, hdescendants⟩ := hdrains
  exact ⟨hcompleted.trans hu.completed, by rw [hcallbacks, hreturned]; exact hu.callbacks,
    hactive.trans hu.active, hregistering.trans hu.registering, hhandled.trans hu.handled,
    hdrains.trans hu.drains, hdescendants.trans hu.descendants⟩

theorem unstarted_of_owner {phase : OwnerPhase} (howner : s.owner = phase)
    (hs : s.unstarted = true) : phase = .created ∨ phase = .submitting ∨ phase = .posted := by
  rw [unstarted, howner] at hs
  cases phase with
  | created => exact Or.inl rfl
  | submitting => exact Or.inr (Or.inl rfl)
  | posted => exact Or.inr (Or.inr rfl)
  | _ => cases hs

theorem not_hasTask_of_unstarted (hs : s.unstarted = true) : s.owner.hasTask = false := by
  rcases unstarted_of_owner rfl hs with howner | howner | howner
  · rw [howner]
    rfl
  · rw [howner]
    rfl
  · rw [howner]
    rfl

variable [DecidableEq ε]

/-- **Step lemma of a handle without a start.** -/
theorem Unstarted.step (hu : Unstarted s) (hs : s.unstarted = true) {loop : Nat}
    {e : HandleEvent ρ ε} (hstep : s.step loop e = some s') (hs' : s'.unstarted = true) :
    Unstarted s' := by
  cases e with
  | retain | submit | waitSettled =>
    obtain ⟨-, rfl⟩ := when_eq_some.mp hstep
    exact hu.congr rfl ⟨rfl, rfl, rfl, rfl⟩ ⟨rfl, rfl, rfl⟩
  | waiterReturns w =>
    simp only [StageHandle.step] at hstep
    split at hstep
    · obtain ⟨-, rfl⟩ := when_eq_some.mp hstep
      exact hu.congr rfl ⟨rfl, rfl, rfl, rfl⟩ ⟨rfl, rfl, rfl⟩
    · cases hstep
  | refuse | setOwnerTask | startFails error =>
    obtain ⟨-, rfl⟩ := when_eq_some.mp hstep
    cases hs'
  | completeBody outcome =>
    have howner : s.owner = .body := by
      cases outcome with
      | result value => exact (when_eq_some.mp hstep).1
      | exception error => exact (when_eq_some.mp hstep).1
      | cancelled error => exact (when_eq_some.mp hstep).1
    rcases unstarted_of_owner howner hs with h | h | h <;> cases h
  | startDrain | startDrainFails error =>
    obtain ⟨howner, -⟩ := when_eq_some.mp hstep
    rcases unstarted_of_owner howner hs with h | h | h <;> cases h
  | releaseOwner =>
    simp only [StageHandle.step] at hstep
    split at hstep
    · cases hstep
      cases hs'
    · cases hstep
      cases hs'
    · cases hstep
  | register kind =>
    obtain ⟨-, rfl⟩ := when_eq_some.mp hstep
    rcases registerCallback_cases s kind with ⟨hdone, -⟩ | ⟨-, heq⟩
    · cases (hu.completed.symm.trans hdone)
    · rw [heq]
      exact ⟨hu.completed, congrArg (· ++ _) hu.callbacks, hu.active, hu.registering, hu.handled,
        hu.drains, hu.descendants⟩
  | retainDrain | submitDrain onOwnLoop | submitDrainFails error | refuseDrain | rollBack =>
    simp only [StageHandle.step, hu.registering, reduceCtorEq] at hstep
  | createDrain i | createDrainFails i error | releaseDrain i =>
    obtain ⟨hget, -⟩ := when_eq_some.mp hstep
    simp [hu.drains] at hget
  | drain i =>
    obtain ⟨hget, -⟩ := when_eq_some.mp hstep
    simp [hu.drains] at hget
  | finishCallback i execution | callbackHangs i | cancelDrain i error =>
    simp [StageHandle.step, hu.drains] at hstep
  | retainDescendant =>
    obtain ⟨htask, -⟩ := when_eq_some.mp hstep
    rw [not_hasTask_of_unstarted hs] at htask
    cases htask
  | endDescendant d | descendantDone d error =>
    obtain ⟨hget, -⟩ := when_eq_some.mp hstep
    simp [hu.descendants] at hget

/-! ## 4. After the failure -/

/-- The start has failed. -/
structure StartFailed (error : ε) (s : StageHandle ρ ε) : Prop where
  owner : s.owner = .failing ∨ s.owner = .failed
  completed : s.bodyCompleted = true
  result : s.bodyResult = none
  error : s.bodyError = some error
  handled : s.handled = []
  drains : s.drains = []
  descendants : s.descendants = []
  admitting : ∀ callback phase, s.registering = some (callback, phase) → phase = .admitting

omit [DecidableEq ε] in
theorem StartFailed.not_hasTask {error : ε} (hf : StartFailed error s) :
    s.owner.hasTask = false := by
  rcases hf.owner with howner | howner
  · rw [howner]
    rfl
  · rw [howner]
    rfl

omit [DecidableEq ε] in
theorem StartFailed.not_owner {error : ε} (hf : StartFailed error s) {phase : OwnerPhase}
    (howner : s.owner = phase) : phase = .failing ∨ phase = .failed :=
  howner ▸ hf.owner

/-- **What can still happen to the handle.**  A late registration is admitted and raises, for the
    owner loop has never been recorded. -/
theorem StartFailed.step_cases {error : ε} (hf : StartFailed error s) {loop : Nat}
    {e : HandleEvent ρ ε} (hstep : s.step loop e = some s') :
    (e.releasesOwner = true ∧ s' = { s.releaseWork with owner := .failed }) ∨
      (∃ kind, s.registering = none ∧ s' = s.registerCallback kind) ∨
      (∃ callback, s.registering = some (callback, .admitting) ∧ s' = s.rollBack) ∨
      ∃ waiters, s' = { s with waiters := waiters } := by
  have hnoOwner : ∀ {phase : OwnerPhase}, s.owner = phase → phase ≠ .failing → phase ≠ .failed →
      False := by
    intro phase howner hfailing hfailed
    rcases hf.not_owner howner with heq | heq
    · exact hfailing heq
    · exact hfailed heq
  cases e with
  | retain | submit | refuse | setOwnerTask | startFails error' | startDrain
  | startDrainFails error' =>
    obtain ⟨howner, -⟩ := when_eq_some.mp hstep
    exact (hnoOwner howner (fun heq => by cases heq) (fun heq => by cases heq)).elim
  | completeBody outcome =>
    have howner : s.owner = .body := by
      cases outcome with
      | result value => exact (when_eq_some.mp hstep).1
      | exception error => exact (when_eq_some.mp hstep).1
      | cancelled error => exact (when_eq_some.mp hstep).1
    exact (hnoOwner howner (fun heq => by cases heq) (fun heq => by cases heq)).elim
  | releaseOwner =>
    simp only [StageHandle.step] at hstep
    split at hstep
    · rename_i howner
      exact (hnoOwner howner (fun heq => by cases heq) (fun heq => by cases heq)).elim
    · cases hstep
      exact Or.inl ⟨rfl, rfl⟩
    · cases hstep
  | register kind =>
    obtain ⟨⟨-, hfree⟩, rfl⟩ := when_eq_some.mp hstep
    exact Or.inr (Or.inl ⟨kind, hfree, rfl⟩)
  | retainDrain =>
    simp only [StageHandle.step] at hstep
    split at hstep
    · obtain ⟨htask, -⟩ := when_eq_some.mp hstep
      rw [hf.not_hasTask] at htask
      cases htask
    · cases hstep
  | submitDrain onOwnLoop | submitDrainFails error' | refuseDrain =>
    simp only [StageHandle.step] at hstep
    split at hstep
    · rename_i callback hregistering
      cases (hf.admitting callback .retained hregistering)
    · cases hstep
  | rollBack =>
    simp only [StageHandle.step] at hstep
    split at hstep
    · rename_i callback hregistering
      cases hstep
      exact Or.inr (Or.inr (Or.inl ⟨callback, hregistering, rfl⟩))
    · rename_i callback hregistering
      cases (hf.admitting callback .failing hregistering)
    · cases hstep
  | createDrain i | createDrainFails i error' | releaseDrain i =>
    obtain ⟨hget, -⟩ := when_eq_some.mp hstep
    simp [hf.drains] at hget
  | drain i =>
    obtain ⟨hget, -⟩ := when_eq_some.mp hstep
    simp [hf.drains] at hget
  | finishCallback i execution | callbackHangs i | cancelDrain i error' =>
    simp [StageHandle.step, hf.drains] at hstep
  | retainDescendant =>
    obtain ⟨htask, -⟩ := when_eq_some.mp hstep
    rw [hf.not_hasTask] at htask
    cases htask
  | endDescendant d | descendantDone d error' =>
    obtain ⟨hget, -⟩ := when_eq_some.mp hstep
    simp [hf.descendants] at hget
  | waitSettled =>
    obtain ⟨-, rfl⟩ := when_eq_some.mp hstep
    exact Or.inr (Or.inr (Or.inr ⟨_, rfl⟩))
  | waiterReturns w =>
    simp only [StageHandle.step] at hstep
    split at hstep
    · obtain ⟨-, rfl⟩ := when_eq_some.mp hstep
      exact Or.inr (Or.inr (Or.inr ⟨_, rfl⟩))
    · cases hstep

theorem StartFailed.step {error : ε} (hf : StartFailed error s) {loop : Nat}
    {e : HandleEvent ρ ε} (hstep : s.step loop e = some s') : StartFailed error s' := by
  have hcases := hf.step_cases hstep
  obtain ⟨howner, hcompleted, hresult, herror, hhandled, hdrains, hdescendants, hadmitting⟩ := hf
  rcases hcases with
    ⟨-, rfl⟩ | ⟨kind, -, rfl⟩ | ⟨callback, -, rfl⟩ | ⟨waiters, rfl⟩
  · rw [releaseWork_frame]
    exact ⟨Or.inr rfl, hcompleted, hresult, herror, hhandled, hdrains, hdescendants, hadmitting⟩
  · rcases registerCallback_cases s kind with ⟨-, -, heq⟩ | ⟨-, heq⟩
    · rw [heq]
      refine ⟨howner, hcompleted, hresult, herror, hhandled, hdrains, hdescendants,
        fun callback phase hregistering => ?_⟩
      cases hregistering
      rfl
    · rw [heq]
      exact ⟨howner, hcompleted, hresult, herror, hhandled, hdrains, hdescendants, hadmitting⟩
  · exact ⟨howner, hcompleted, hresult, herror, hhandled, hdrains, hdescendants, nofun⟩
  · exact ⟨howner, hcompleted, hresult, herror, hhandled, hdrains, hdescendants, hadmitting⟩

/-- No registration has returned: at most one is under way. -/
structure NoneReturned (s : StageHandle ρ ε) : Prop where
  returned : s.returned = []
  waiting : (s.registering = none ∧ s.callbacks = [] ∧ s.callbackDrainActive = false) ∨
    ∃ callback, s.registering = some (callback, .admitting) ∧ s.callbacks = [callback]

theorem NoneReturned.step {error : ε} (hn : NoneReturned s) (hf : StartFailed error s)
    {loop : Nat} {e : HandleEvent ρ ε} (hstep : s.step loop e = some s') : NoneReturned s' := by
  obtain ⟨hreturned, hwaiting⟩ := hn
  rcases hf.step_cases hstep with
    ⟨-, rfl⟩ | ⟨kind, hfree, rfl⟩ | ⟨callback, hregistering, rfl⟩ | ⟨waiters, rfl⟩
  · rw [releaseWork_frame]
    exact ⟨hreturned, hwaiting⟩
  · -- the registration has to start a drain
    rcases hwaiting with ⟨-, hcallbacks, hactive⟩ | ⟨callback, hbusy, -⟩
    · rcases registerCallback_cases s kind with ⟨-, -, heq⟩ | ⟨hkept, -⟩
      · rw [heq]
        refine ⟨hreturned, Or.inr ⟨_, rfl, ?_⟩⟩
        exact congrArg (· ++ [_]) hcallbacks
      · exact nomatch hactive.symm.trans (hkept hf.completed)
    · exact nomatch hfree.symm.trans hbusy
  · refine ⟨hreturned, Or.inl ⟨rfl, ?_, rfl⟩⟩
    rcases hwaiting with ⟨hfree, -⟩ | ⟨callback', -, hcallbacks⟩
    · exact nomatch hfree.symm.trans hregistering
    · exact congrArg List.dropLast hcallbacks
  · exact ⟨hreturned, hwaiting⟩

/-- The failure itself. -/
theorem Unstarted.startFails (hu : Unstarted s) {loop : Nat} {error : ε}
    (hstep : s.step loop (.startFails error) = some s') :
    StartFailed error s' ∧ (s.callbacks = [] → NoneReturned s') ∧
      (s.callbacks ≠ [] → Stranded 0 s') := by
  obtain ⟨-, rfl⟩ := when_eq_some.mp hstep
  have houtcome : s.setBodyException error = activateCallbackDrainLocked
      { s with bodyCompleted := true, bodyResult := none, bodyError := some error } := by
    rw [setBodyException, setBodyOutcome, if_neg (by rw [hu.completed]; exact Bool.false_ne_true)]
  by_cases hcallbacks : s.callbacks = []
  · have hplain : (s.setBodyException error).1 =
        { s with bodyCompleted := true, bodyResult := none, bodyError := some error } := by
      rw [houtcome, activateCallbackDrainLocked, if_neg fun h => h.1 hcallbacks]
    rw [hplain]
    refine ⟨⟨Or.inl rfl, rfl, rfl, rfl, hu.handled, hu.drains, hu.descendants, ?_⟩, fun _ => ?_,
      fun hne => absurd hcallbacks hne⟩
    · intro callback phase hregistering
      cases (hu.registering.symm.trans hregistering)
    · exact ⟨hu.callbacks ▸ hcallbacks, Or.inl ⟨hu.registering, hcallbacks, hu.active⟩⟩
  · -- the flag is set for a drain that nobody starts
    have hset : (s.setBodyException error).1 =
        { s with
          bodyCompleted := true
          bodyResult := none
          bodyError := some error
          callbackDrainActive := true } := by
      rw [houtcome, activateCallbackDrainLocked, if_pos ⟨hcallbacks, hu.active⟩]
    rw [hset]
    refine ⟨⟨Or.inl rfl, rfl, rfl, rfl, hu.handled, hu.drains, hu.descendants, ?_⟩,
      fun hempty => absurd hempty hcallbacks, fun _ => ?_⟩
    · intro callback phase hregistering
      cases (hu.registering.symm.trans hregistering)
    · refine ⟨rfl, hcallbacks, rfl, (fun heq => by cases heq), hu.registering, ?_,
        congrArg List.length hu.handled, ?_⟩
      · rw [hu.drains]
        intro drain hmem
        cases hmem
      · rw [← hu.callbacks]
        exact List.length_pos_iff.mpr hcallbacks

omit [DecidableEq ε] in
/-- Nobody else has retained work. -/
theorem StartFailed.held_eq {error : ε} (hf : StartFailed error s) :
    s.held = s.owner.holds.toNat := by
  have hregistration : s.registrationHolds = false := by
    unfold registrationHolds
    split
    · rename_i callback hregistering
      exact nomatch hf.admitting callback .retained hregistering
    · rfl
  rw [held, hregistration, hf.drains, hf.descendants]
  rfl

theorem unstarted_of_step {loop : Nat} {e : HandleEvent ρ ε} (hstep : s.step loop e = some s')
    (hs' : s'.unstarted = true) : s.unstarted = true := by
  rw [unstarted] at hs' ⊢
  rcases step_owner hstep with ⟨howner, -⟩ | ⟨hnext, -⟩
  · rw [← howner]
    exact hs'
  · generalize s.owner = old at hnext ⊢
    generalize s'.owner = new at hs' hnext
    cases hnext with
    | retain | submit => rfl
    | completeBody start =>
      cases start with
      | true => cases hs'
      | false => cases hs'
    | _ => cases hs'

end StageHandle

namespace StartState

variable {ρ ε : Type} [DecidableEq ε] {s s' t : StartState ρ ε} {error : ε}

/-! ## 5. The handle and its root -/

omit [DecidableEq ε] in
theorem rootFinished_eq {root : Root} (hget : s.roots.roots[s.root]? = some root) :
    s.rootFinished = decide (root.phase = .finished) := by
  rw [rootFinished, hget]
  rfl

structure StartInv (s : StartState ρ ε) : Prop where
  unstarted : s.handle.unstarted = true → s.handle.Unstarted ∧
    ∃ root, s.roots.roots[s.root]? = some root ∧ root.phase = .admitted
  work : s.handle.pendingWork = s.handle.held ∧ s.handle.FuturesOk

omit [DecidableEq ε] in
/-- Without an owner task the root is not run. -/
theorem ownRootMoves_eq_false (htask : s.handle.owner.hasTask = false)
    (hrefused : s.handle.owner ≠ .refused) (e : RootEvent) : s.ownRootMoves e = false := by
  cases e with
  | refuse r => exact decide_eq_false hrefused
  | _ => exact htask

theorem StartInv.step (hi : StartInv s) {loop : Nat} {e : StartEvent ρ ε}
    (hstep : s.step loop e = some s') : StartInv s' := by
  cases e with
  | handle event =>
    simp only [StartState.step] at hstep
    split at hstep
    · cases hstep
    · obtain ⟨handle, hhandle, rfl⟩ := Option.map_eq_some_iff.mp hstep
      obtain ⟨hpending, hfutures, -⟩ :=
        (StageHandle.step_work hhandle).keeps hi.work.1 hi.work.2
      refine ⟨fun hs' => ?_, hpending, hfutures⟩
      have hs := StageHandle.unstarted_of_step hhandle hs'
      obtain ⟨hu, hroot⟩ := hi.unstarted hs
      exact ⟨hu.step hs hhandle hs', hroot⟩
  | roots event =>
    simp only [StartState.step] at hstep
    split at hstep
    · cases hstep
    · rename_i hmay
      obtain ⟨roots, hroots, rfl⟩ := Option.map_eq_some_iff.mp hstep
      refine ⟨fun hs => ?_, hi.work⟩
      obtain ⟨hu, root, hget, hphase⟩ := hi.unstarted hs
      refine ⟨hu, root, RootsState.step_other hget (fun hown => hmay ⟨hown, ?_⟩) hroots, hphase⟩
      refine ownRootMoves_eq_false (StageHandle.not_hasTask_of_unstarted hs) (fun hrefused => ?_) _
      rcases StageHandle.unstarted_of_owner hrefused hs with h | h | h <;> cases h
  | finishAdmission =>
    simp only [StartState.step] at hstep
    split at hstep
    · rename_i howner
      obtain ⟨roots, -, rfl⟩ := Option.map_eq_some_iff.mp hstep
      refine ⟨fun hs => ?_, hi.work⟩
      rcases StageHandle.unstarted_of_owner howner hs with h | h | h <;> cases h
    · cases hstep

theorem reachable_startInv {loop : Nat} {initial : List CallbackKind}
    (h : (startSystem ρ ε loop initial).Reachable s) : StartInv s := by
  refine System.ReachUnder.invariant ?_ (fun _ _ _ hi _ hstep => hi.step hstep) h
  rintro s ⟨hhandle, hroot⟩
  refine ⟨fun _ => ⟨?_, hroot⟩, ?_⟩
  · rw [hhandle]
    exact StageHandle.unstarted_initial initial
  · obtain ⟨callbacks, appended, returned, heq⟩ :=
      StageHandle.initial_eq initial ({} : StageHandle ρ ε)
    rw [hhandle, heq]
    exact ⟨rfl, [], rfl, nofun⟩

/-- From the failure on: the root waits for `on_start_error`, or has given its admission back. -/
structure Failed (error : ε) (s : StartState ρ ε) : Prop where
  handle : s.handle.StartFailed error
  root : ∃ root, s.roots.roots[s.root]? = some root ∧
    (s.handle.owner = .failing ∧ root.phase = .admitted ∨ root.phase = .finished)
  work : s.handle.pendingWork = s.handle.held ∧ s.handle.FuturesOk

theorem Failed.step (hf : Failed error s) {loop : Nat} {e : StartEvent ρ ε}
    (hstep : s.step loop e = some s') : Failed error s' := by
  obtain ⟨root, hget, hphase⟩ := hf.root
  cases e with
  | handle event =>
    simp only [StartState.step] at hstep
    split at hstep
    · cases hstep
    · rename_i hmay
      obtain ⟨handle, hhandle, rfl⟩ := Option.map_eq_some_iff.mp hstep
      obtain ⟨hpending, hfutures, -⟩ :=
        (StageHandle.step_work hhandle).keeps hf.work.1 hf.work.2
      refine ⟨hf.handle.step hhandle, ⟨root, hget, ?_⟩, hpending, hfutures⟩
      rcases hphase with ⟨howner, hadmitted⟩ | hfinished
      · rcases hf.handle.step_cases hhandle with
          ⟨hreleases, -⟩ | ⟨kind, -, rfl⟩ | ⟨callback, -, rfl⟩ | ⟨waiters, rfl⟩
        · -- the work is not released before the admission is back
          rw [rootFinished_eq hget, hreleases, howner, hadmitted] at hmay
          exact absurd rfl hmay
        · rcases StageHandle.registerCallback_cases s.handle kind with
            ⟨-, -, heq⟩ | ⟨-, heq⟩
          · exact Or.inl ⟨by rw [heq]; exact howner, hadmitted⟩
          · exact Or.inl ⟨by rw [heq]; exact howner, hadmitted⟩
        · exact Or.inl ⟨howner, hadmitted⟩
        · exact Or.inl ⟨howner, hadmitted⟩
      · exact Or.inr hfinished
  | roots event =>
    simp only [StartState.step] at hstep
    split at hstep
    · cases hstep
    · rename_i hmay
      obtain ⟨roots, hroots, rfl⟩ := Option.map_eq_some_iff.mp hstep
      refine ⟨hf.handle, ⟨root, ?_, hphase⟩, hf.work⟩
      refine RootsState.step_other hget (fun hown => hmay ⟨hown, ?_⟩) hroots
      refine ownRootMoves_eq_false hf.handle.not_hasTask (fun hrefused => ?_) _
      rcases hf.handle.not_owner hrefused with h | h <;> cases h
  | finishAdmission =>
    simp only [StartState.step] at hstep
    split at hstep
    · obtain ⟨roots, hroots, rfl⟩ := Option.map_eq_some_iff.mp hstep
      have hlt : s.root < s.roots.roots.length := (List.getElem?_eq_some_iff.mp hget).1
      simp only [RootsState.endRoot, hget] at hroots
      split at hroots
      · cases hroots
        exact ⟨hf.handle, ⟨_, List.getElem?_set_self hlt, Or.inr rfl⟩, hf.work⟩
      · cases hroots
    · cases hstep

/-- The duties of the body, and how far `start` is with them. -/
structure StartEnds (error : ε) (t : StartState ρ ε) : Prop where
  completed : t.handle.bodyCompleted = true
  result : t.handle.bodyResult = none
  error : t.handle.bodyError = some error
  ends : t.handle.owner = .failing ∨ (t.handle.owner = .failed ∧ t.rootFinished = true ∧
    t.handle.pendingWork = 0 ∧ t.handle.settlementFutures.getLast? = some true)

omit [DecidableEq ε] in
theorem Failed.startEnds (hf : Failed error t) : StartEnds error t := by
  refine ⟨hf.handle.completed, hf.handle.result, hf.handle.error, ?_⟩
  obtain ⟨root, hget, hphase⟩ := hf.root
  refine hf.handle.owner.imp_right fun howner => ?_
  have hpending : t.handle.pendingWork = 0 := by
    rw [hf.work.1, hf.handle.held_eq, howner]
    rfl
  obtain ⟨earlier, hfutures, -⟩ := hf.work.2
  refine ⟨howner, ?_, hpending, ?_⟩
  · rw [rootFinished_eq hget]
    refine decide_eq_true (hphase.resolve_left fun h => ?_)
    exact nomatch howner.symm.trans h.1
  · rw [hfutures, List.getLast?_concat, decide_eq_true hpending]

/-- The remaining steps of `start`. -/
def startSteps : List (StartEvent ρ ε) := [.finishAdmission, .handle .releaseOwner]

/-- Nothing keeps `start` from its end. -/
theorem Failed.canEnd (hf : Failed error t) (loop : Nat) (initial : List CallbackKind) :
    ∃ es u, es.IsSuffix (startSteps (ρ := ρ) (ε := ε)) ∧
      (startSystem ρ ε loop initial).run t es = some u ∧ u.handle.owner = .failed := by
  have hrelease : ∀ t : StartState ρ ε, t.handle.owner = .failing → t.rootFinished = true →
      ∃ u, t.step loop (.handle .releaseOwner) = some u ∧ u.handle.owner = .failed := by
    intro t howner hfinished
    refine ⟨_, by simp [StartState.step, StageHandle.step, howner, hfinished]; rfl, rfl⟩
  obtain ⟨root, hget, hphase⟩ := hf.root
  rcases hf.handle.owner with howner | howner
  · rcases hphase with ⟨-, hadmitted⟩ | hfinished
    · have hlt : t.root < t.roots.roots.length := (List.getElem?_eq_some_iff.mp hget).1
      have hfinish : t.step loop .finishAdmission =
          some { t with roots := t.roots.finishRoot t.root root } := by
        simp [StartState.step, howner, RootsState.endRoot, hget, hadmitted]
      have hback : rootFinished { t with roots := t.roots.finishRoot t.root root } = true := by
        have hset : (t.roots.finishRoot t.root root).roots[t.root]? =
            some { root with phase := .finished } := List.getElem?_set_self hlt
        rw [rootFinished_eq (s := { t with roots := t.roots.finishRoot t.root root }) hset]
        rfl
      obtain ⟨u, hstep, hend⟩ :=
        hrelease { t with roots := t.roots.finishRoot t.root root } howner hback
      refine ⟨startSteps, u, List.suffix_rfl, ?_, hend⟩
      rw [startSteps, System.run_cons_of_step hfinish, System.run_cons_of_step hstep]
      rfl
    · obtain ⟨u, hstep, hend⟩ := hrelease t howner
        ((rootFinished_eq hget).trans (decide_eq_true hfinished))
      refine ⟨[.handle .releaseOwner], u, List.suffix_cons _ _, ?_, hend⟩
      rw [System.run_cons_of_step hstep]
      rfl
  · exact ⟨[], t, List.nil_suffix, rfl, howner⟩

/-! ## 6. The callbacks -/

/-- What has to become of a callback. -/
def failureDisposition (error : ε) : CallbackKind → Disposition ρ ε
  | .success => .skipped
  | .error => .executed (.error error)
  | .finally => .executed .empty

/-- The callbacks whose registration has returned can still be handled in their order. -/
def CallbacksServed (loop : Nat) (initial : List CallbackKind) (error : ε)
    (t : StartState ρ ε) : Prop :=
  ∃ es u, (startSystem ρ ε loop initial).run t es = some u ∧
    t.handle.returned <+: u.handle.handled.map Prod.fst ∧
    ∀ callback disposition, (callback, disposition) ∈ u.handle.handled →
      disposition = failureDisposition error callback.kind

/-- A step of the handle, or none. -/
theorem step_handle {loop : Nat} {e : StartEvent ρ ε} (hstep : s.step loop e = some s') :
    s'.handle = s.handle ∨ ∃ event, s.handle.step loop event = some s'.handle := by
  cases e with
  | handle event =>
    simp only [StartState.step] at hstep
    split at hstep
    · cases hstep
    · obtain ⟨handle, hhandle, rfl⟩ := Option.map_eq_some_iff.mp hstep
      exact Or.inr ⟨event, hhandle⟩
  | roots event =>
    simp only [StartState.step] at hstep
    split at hstep
    · cases hstep
    · obtain ⟨roots, -, rfl⟩ := Option.map_eq_some_iff.mp hstep
      exact Or.inl rfl
  | finishAdmission =>
    simp only [StartState.step] at hstep
    split at hstep
    · obtain ⟨roots, -, rfl⟩ := Option.map_eq_some_iff.mp hstep
      exact Or.inl rfl
    · cases hstep

theorem stranded_run {loop : Nat} {initial : List CallbackKind} {es : List (StartEvent ρ ε)}
    (hs : s.handle.Stranded 0) (hrun : (startSystem ρ ε loop initial).run s es = some t) :
    t.handle.Stranded 0 := by
  refine System.run_invariant (I := fun s => s.handle.Stranded 0) (fun s e s' hs hstep => ?_) hs
    hrun
  rcases step_handle hstep with heq | ⟨event, hhandle⟩
  · rw [heq]
    exact hs
  · exact hs.step hhandle

/-- The failure, of a start that has found the deque empty or not. -/
structure AfterFailure (empty : Prop) (error : ε) (s : StartState ρ ε) : Prop where
  failed : Failed error s
  none : empty → s.handle.NoneReturned

theorem AfterFailure.run {empty : Prop} {loop : Nat} {initial : List CallbackKind}
    {es : List (StartEvent ρ ε)} (hd : AfterFailure empty error s)
    (hrun : (startSystem ρ ε loop initial).run s es = some t) : AfterFailure empty error t := by
  refine System.run_invariant (I := AfterFailure empty error) (fun s e s' hd hstep => ?_) hd hrun
  refine ⟨hd.failed.step hstep, fun hn => ?_⟩
  rcases step_handle hstep with heq | ⟨event, hhandle⟩
  · rw [heq]
    exact hd.none hn
  · exact (hd.none hn).step hd.failed.handle hhandle

/-- The state that the failure leads to. -/
theorem StartInv.startFails (hi : StartInv s) {loop : Nat}
    (hstep : s.step loop (.handle (.startFails error)) = some s') :
    AfterFailure (s.handle.callbacks = []) error s' ∧
      (s.handle.callbacks ≠ [] → s'.handle.Stranded 0) := by
  simp only [StartState.step, HandleEvent.releasesOwner, Bool.false_and, Bool.false_eq_true,
    if_false] at hstep
  obtain ⟨handle, hhandle, rfl⟩ := Option.map_eq_some_iff.mp hstep
  have hposted : s.handle.owner = .posted := (StageHandle.when_eq_some.mp hhandle).1
  obtain ⟨hu, root, hget, hphase⟩ := hi.unstarted (by rw [StageHandle.unstarted, hposted])
  obtain ⟨hfailed, hempty, hfull⟩ := hu.startFails hhandle
  obtain ⟨hpending, hfutures, -⟩ := (StageHandle.step_work hhandle).keeps hi.work.1 hi.work.2
  have howner : handle.owner = .failing := by
    obtain ⟨-, rfl⟩ := StageHandle.when_eq_some.mp hhandle
    rfl
  exact ⟨⟨⟨hfailed, ⟨root, hget, Or.inl ⟨howner, hphase⟩⟩, hpending, hfutures⟩, hempty⟩, hfull⟩

/-- **A failed start does every duty of the body but one.**  In every continuation the error is the
    body outcome, and `start` gives the admission back and releases the work; the callbacks are
    served just when there was none, and none that is registered later is accepted then. -/
theorem failed_start_iff :
    (∀ loop initial (s s' t : StartState ρ ε) error es,
      (startSystem ρ ε loop initial).Reachable s →
      s.step loop (.handle (.startFails error)) = some s' →
      (startSystem ρ ε loop initial).run s' es = some t →
        StartEnds error t ∧ ∃ es u, es.IsSuffix (startSteps (ρ := ρ) (ε := ε)) ∧
          (startSystem ρ ε loop initial).run t es = some u ∧ u.handle.owner = .failed) ∧
    (∀ loop initial (s s' t : StartState ρ ε) error es,
      (startSystem ρ ε loop initial).Reachable s →
      s.step loop (.handle (.startFails error)) = some s' →
      (startSystem ρ ε loop initial).run s' es = some t →
        (CallbacksServed loop initial error t ↔ s.handle.callbacks = [])) ∧
    ∀ loop initial (s s' t : StartState ρ ε) error es,
      (startSystem ρ ε loop initial).Reachable s →
      s.step loop (.handle (.startFails error)) = some s' →
      (startSystem ρ ε loop initial).run s' es = some t →
        t.handle.handled = [] ∧ (s.handle.callbacks = [] → t.handle.returned = []) := by
  refine ⟨?_, ?_, ?_⟩
  · intro loop initial s s' t error es hreach hstep hrun
    have hd := ((reachable_startInv hreach).startFails hstep).1.run hrun
    exact ⟨hd.failed.startEnds, hd.failed.canEnd loop initial⟩
  · intro loop initial s s' t error es hreach hstep hrun
    obtain ⟨hd, hfull⟩ := (reachable_startInv hreach).startFails hstep
    constructor
    · rintro ⟨fs, u, hrun', hprefix, -⟩
      by_contra hne
      -- no drain will ever take the callback
      have hlost := (stranded_run (hfull hne) hrun).returned
      have hnone := List.length_eq_zero_iff.mp
        (stranded_run (stranded_run (hfull hne) hrun) hrun').handled
      rw [hnone] at hprefix
      have hempty : t.handle.returned = [] := List.prefix_nil.mp hprefix
      rw [hempty] at hlost
      exact Nat.lt_irrefl _ hlost
    · intro hempty
      have hd' := hd.run hrun
      refine ⟨[], t, rfl, ?_, fun callback disposition hmem => ?_⟩
      · rw [(hd'.none hempty).returned]
        exact List.nil_prefix
      · rw [hd'.failed.handle.handled] at hmem
        cases hmem
  · intro loop initial s s' t error es hreach hstep hrun
    have hd := ((reachable_startInv hreach).startFails hstep).1.run hrun
    exact ⟨hd.failed.handle.handled, fun hempty => (hd.none hempty).returned⟩

/-- The start of a root with an `on_error` callback fails; `on_finally` comes too late. -/
def failedRun : List (StartEvent Nat Nat) :=
  [.handle .retain, .handle .submit, .handle (.startFails 7), .finishAdmission,
    .handle .releaseOwner, .handle (.register .finally)]

def failedInit : StartState Nat Nat where
  handle := [CallbackKind.error].foldl StageHandle.registerInitialCallback {}
  roots := ⟨{ maxConcurrency := some 1, maxPending := none, activeRootCount := 1 },
    [⟨some .immediate, .admitted⟩]⟩
  root := 0

/-- The outcome, the permit and the work are settled; both callbacks wait for a drain. -/
theorem failed_start_keeps_callbacks :
    ∃ t, (startSystem Nat Nat 0 [.error]).run failedInit failedRun = some t ∧
      (startSystem Nat Nat 0 [.error]).Reachable t ∧ t.handle.bodyError = some 7 ∧
      t.handle.owner = .failed ∧ t.roots.permits.activeRootCount = 0 ∧
      t.handle.pendingWork = 0 ∧ t.handle.callbacks = [⟨.error, 0⟩, ⟨.finally, 1⟩] ∧
      t.handle.returned = t.handle.callbacks ∧ t.handle.handled = [] ∧ t.handle.drains = [] ∧
      ¬ CallbacksServed 0 [.error] 7 t := by
  have hend : ((startSystem Nat Nat 0 [.error]).run failedInit failedRun).any (fun t =>
      decide (t.handle.bodyError = some 7 ∧ t.handle.owner = .failed ∧
        t.roots.permits.activeRootCount = 0 ∧ t.handle.pendingWork = 0 ∧
        t.handle.callbacks = [⟨.error, 0⟩, ⟨.finally, 1⟩] ∧
        t.handle.returned = t.handle.callbacks ∧ t.handle.handled = [] ∧ t.handle.drains = [] ∧
        t.handle.bodyCompleted = true ∧ t.handle.callbackDrainActive = true ∧
        t.handle.registering = none)) = true := by
    decide
  obtain ⟨t, hrun, ht⟩ := (Option.any_eq_true _ _).mp hend
  obtain ⟨herror, howner, hcount, hpending, hcallbacks, hreturned, hhandled, hdrains, hcompleted,
    hactive, hfree⟩ := of_decide_eq_true ht
  refine ⟨t, hrun, System.reachable_of_run failedRun ⟨rfl, _, rfl, rfl⟩ hrun, herror, howner,
    hcount, hpending, hcallbacks, hreturned, hhandled, hdrains, ?_⟩
  rintro ⟨es, u, hrun', hprefix, -⟩
  have hstranded : t.handle.Stranded 0 := by
    refine ⟨hcompleted, ?_, hactive, ?_, hfree, ?_, congrArg List.length hhandled, ?_⟩
    · rw [hcallbacks]
      exact nofun
    · rw [howner]
      exact nofun
    · rw [hdrains]
      exact nofun
    · rw [hreturned, hcallbacks]
      exact Nat.zero_lt_succ _
  rw [List.length_eq_zero_iff.mp (stranded_run hstranded hrun').handled, hreturned,
    hcallbacks] at hprefix
  exact nomatch List.prefix_nil.mp hprefix

end StartState

end AgentlyStage
