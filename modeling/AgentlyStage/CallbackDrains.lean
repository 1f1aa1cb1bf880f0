import AgentlyStage.HandleSteps
import AgentlyStage.Lib.Counting

/-!
# Callbacks and their drains

At most one drain of a handle is active.  It takes the callbacks from the deque in the order
of their registration, after the body outcome, and there is a drain, or somebody who starts
one, as long as there is a callback; unless starting a drain has failed, or a drain waits for a
future that is never done.
-/

namespace AgentlyStage

open Transition

/-- The drain has not found the deque empty yet. -/
def DrainPhase.live : DrainPhase → Bool
  | .finished | .released => false
  | _ => true

/-- The drain has not made its first step. -/
def DrainPhase.fresh : DrainPhase → Bool
  | .posted | .created => true
  | _ => false

theorem DrainPhase.live_of_fresh {drain : DrainPhase} (h : drain.fresh = true) :
    drain.live = true := by
  cases drain with
  | posted => rfl
  | created => rfl
  | _ => cases h

def OwnerPhase.hasOutcome : OwnerPhase → Bool
  | .failing | .failed | .starting | .ending | .released => true
  | _ => false

namespace StageHandle

variable {ρ ε : Type} {s s' : StageHandle ρ ε}

/-! ## 1. The invariant -/

/-- The callback whose registration starts a drain. -/
def halfAdmitted (s : StageHandle ρ ε) : Option Callback := s.registering.map Prod.fst

/-- The drains, and those who are about to start one. -/
def starters (s : StageHandle ρ ε) : Nat :=
  (decide (s.owner = .starting)).toNat + s.halfAdmitted.isSome.toNat +
    s.drains.countP DrainPhase.live

structure DrainInv (s : StageHandle ρ ε) : Prop where
  completed : s.bodyCompleted = s.owner.hasOutcome
  outcome : s.bodyCompleted = true → (s.bodyResult.isSome = true ∧ s.bodyError = none) ∨
    (s.bodyResult = none ∧ s.bodyError.isSome = true)
  /-- `_callback_drain_active` says that there is exactly one. -/
  flag : s.starters = s.callbackDrainActive.toNat
  early : s.bodyCompleted = false → s.callbackDrainActive = false ∧ s.handled = []
  waiting : s.bodyCompleted = true → s.callbacks ≠ [] → s.callbackDrainActive = true
  /-- A drain that has not started finds a callback. -/
  full : s.callbacks = [] → s.owner ≠ .starting ∧ s.drains.countP DrainPhase.fresh = 0
  registered : ∀ callback, s.halfAdmitted = some callback → s.callbacks = [callback]
  order : s.handled.map Prod.fst ++ s.callbacks = s.returned ++ s.halfAdmitted.toList
  numbers : (s.handled.map Prod.fst ++ s.callbacks).Pairwise (fun c d => c.number < d.number) ∧
    ∀ callback ∈ s.handled.map Prod.fst ++ s.callbacks, callback.number < s.appended
  /-- What is done with a callback depends on its kind and the outcome. -/
  skipped : ∀ callback : Callback, (callback, .skipped) ∈ s.handled →
    s.callbackArgs callback.kind = none
  taken : ∀ callback : Callback, ∀ args : CallbackArgs ρ ε,
    (callback, .executing args) ∈ s.handled ∨ (callback, .executed args) ∈ s.handled ∨
      (callback, .refused args) ∈ s.handled → s.callbackArgs callback.kind = some args
  accepted : ∀ callback : Callback, ∀ args : CallbackArgs ρ ε,
    (callback, .refused args) ∉ s.handled
  executing : ∀ k : Nat, ∀ callback : Callback, ∀ args : CallbackArgs ρ ε,
    s.handled[k]? = some (callback, .executing args) → DrainPhase.executing k ∈ s.drains
  current : ∀ k : Nat, DrainPhase.executing k ∈ s.drains → ∃ callback : Callback,
    ∃ args : CallbackArgs ρ ε, s.handled[k]? = some (callback, .executing args)

/-- What the drains do not look at. -/
theorem DrainInv.congr (hd : DrainInv s)
    (howner : s'.owner.hasOutcome = s.owner.hasOutcome ∧
      (s'.owner = .starting ↔ s.owner = .starting))
    (hbody : s'.bodyCompleted = s.bodyCompleted ∧ s'.bodyResult = s.bodyResult ∧
      s'.bodyError = s.bodyError)
    (hdeque : s'.callbacks = s.callbacks ∧ s'.callbackDrainActive = s.callbackDrainActive)
    (hdrains : s'.drains = s.drains) (hadmitted : s'.halfAdmitted = s.halfAdmitted)
    (hhistory : s'.appended = s.appended ∧ s'.returned = s.returned ∧ s'.handled = s.handled) :
    DrainInv s' := by
  obtain ⟨howner, hstarting⟩ := howner
  obtain ⟨hcompleted, hresult, herror⟩ := hbody
  obtain ⟨hcallbacks, hactive⟩ := hdeque
  obtain ⟨happended, hreturned, hhandled⟩ := hhistory
  have hargs : s'.callbackArgs = s.callbackArgs := by
    funext kind
    simp only [callbackArgs, herror, hresult]
  constructor
  · rw [hcompleted, howner]
    exact hd.completed
  · rw [hcompleted, hresult, herror]
    exact hd.outcome
  · rw [starters, hadmitted, hdrains, hactive, decide_eq_decide.mpr hstarting]
    exact hd.flag
  · rw [hcompleted, hactive, hhandled]
    exact hd.early
  · rw [hcompleted, hcallbacks, hactive]
    exact hd.waiting
  · rw [hcallbacks, hdrains, Ne, hstarting]
    exact hd.full
  · rw [hadmitted, hcallbacks]
    exact hd.registered
  · rw [hhandled, hcallbacks, hreturned, hadmitted]
    exact hd.order
  · rw [hhandled, hcallbacks, happended]
    exact hd.numbers
  · rw [hhandled, hargs]
    exact hd.skipped
  · rw [hhandled, hargs]
    exact hd.taken
  · rw [hhandled]
    exact hd.accepted
  · rw [hhandled, hdrains]
    exact hd.executing
  · rw [hhandled, hdrains]
    exact hd.current

theorem activateCallbackDrainLocked_eq (s : StageHandle ρ ε)
    (hactive : s.callbackDrainActive = false) :
    s.activateCallbackDrainLocked =
      ({ s with callbackDrainActive := !s.callbacks.isEmpty }, !s.callbacks.isEmpty) := by
  unfold activateCallbackDrainLocked
  by_cases hempty : s.callbacks = []
  · have hnone : (!s.callbacks.isEmpty) = false := by
      rw [hempty]
      rfl
    rw [if_neg fun h => h.1 hempty, hnone, ← hactive]
  · rw [if_pos ⟨hempty, hactive⟩, List.isEmpty_eq_false_iff.mpr hempty, Bool.not_false]

/-- The first outcome activates a drain if there is a callback. -/
theorem setBodyOutcome_eq (hd : DrainInv s) (hopen : s.bodyCompleted = false) (result : Option ρ)
    (error : Option ε) :
    s.setBodyOutcome result error =
      ({ s with
          bodyCompleted := true, bodyResult := result, bodyError := error
          callbackDrainActive := !s.callbacks.isEmpty }, !s.callbacks.isEmpty) := by
  rw [setBodyOutcome, if_neg (by rw [hopen]; exact Bool.false_ne_true)]
  exact activateCallbackDrainLocked_eq
    { s with bodyCompleted := true, bodyResult := result, bodyError := error } (hd.early hopen).1

/-! ## 2. The body outcome -/

theorem DrainInv.quiet (hd : DrainInv s) (hactive : s.callbackDrainActive = false) :
    s.owner ≠ .starting ∧ s.halfAdmitted = none ∧ s.drains.countP DrainPhase.live = 0 := by
  have hflag := hd.flag
  rw [hactive, starters, Bool.toNat_false, Nat.add_eq_zero_iff, Nat.add_eq_zero_iff] at hflag
  refine ⟨fun hstarting => ?_, ?_, hflag.2⟩
  · rw [decide_eq_true hstarting] at hflag
    exact nomatch hflag.1.1
  · cases hadmitted : s.halfAdmitted with
    | none => rfl
    | some callback =>
      rw [hadmitted] at hflag
      exact nomatch hflag.1.2

/-- The body outcome, and what becomes of the owner with it. -/
theorem DrainInv.setOutcome (hd : DrainInv s) (hopen : s.bodyCompleted = false)
    {result : Option ρ} {error : Option ε} {owner : OwnerPhase}
    (houtcome : (result.isSome = true ∧ error = none) ∨ (result = none ∧ error.isSome = true))
    (howner : owner.hasOutcome = true) (hstarting : owner = .starting ↔ s.callbacks ≠ []) :
    DrainInv { (s.setBodyOutcome result error).1 with owner := owner } := by
  rw [setBodyOutcome_eq hd hopen]
  obtain ⟨-, hadmitted, hlive⟩ := hd.quiet (hd.early hopen).1
  have hempty := (hd.early hopen).2
  refine ⟨howner.symm, fun _ => houtcome, ?_, fun hfalse => ?_, fun _ hne => ?_, fun hnil => ?_,
    hd.registered, hd.order, hd.numbers, fun callback hmem => ?_, fun callback args hmem => ?_,
    hd.accepted, hd.executing, hd.current⟩
  · change (decide (owner = .starting)).toNat + s.halfAdmitted.isSome.toNat +
      s.drains.countP DrainPhase.live = (!s.callbacks.isEmpty).toNat
    have hstart : decide (owner = .starting) = !s.callbacks.isEmpty := by
      rw [Bool.eq_iff_iff, decide_eq_true_iff, hstarting, Bool.not_eq_true',
        List.isEmpty_eq_false_iff]
    rw [hadmitted, hlive, hstart]
    rfl
  · cases hfalse
  · change (!s.callbacks.isEmpty) = true
    rw [Bool.not_eq_true', List.isEmpty_eq_false_iff]
    exact hne
  · exact ⟨fun h => hstarting.mp h hnil, (hd.full hnil).2⟩
  · rw [show s.handled = [] from hempty] at hmem
    cases hmem
  · rw [show s.handled = [] from hempty] at hmem
    simp at hmem

theorem DrainInv.completeBody (hd : DrainInv s) (howner : s.owner = .body) {result : Option ρ}
    {error : Option ε}
    (houtcome : (result.isSome = true ∧ error = none) ∨ (result = none ∧ error.isSome = true)) :
    DrainInv { (s.setBodyOutcome result error).1 with
      owner := if (s.setBodyOutcome result error).2 then .starting else .ending } := by
  have hopen : s.bodyCompleted = false := by
    rw [hd.completed, howner]
    rfl
  refine hd.setOutcome hopen houtcome ?_ ?_
  · split
    · rfl
    · rfl
  · rw [setBodyOutcome_eq hd hopen]
    by_cases hnil : s.callbacks = []
    · simp [hnil]
    · simp [hnil]

/-! ## 3. Starting drains -/

/-- The owner's drain takes the place of the owner that starts it. -/
theorem DrainInv.startDrain (hd : DrainInv s) (howner : s.owner = .starting) :
    DrainInv { s with owner := .ending, drains := s.drains ++ [.created] } := by
  have hne : s.callbacks ≠ [] := fun hnil => (hd.full hnil).1 howner
  refine ⟨?_, hd.outcome, ?_, hd.early, hd.waiting, fun hnil => absurd hnil hne, hd.registered,
    hd.order, hd.numbers, hd.skipped, hd.taken, hd.accepted, fun k callback args hget =>
    List.mem_append_left _ (hd.executing k callback args hget), fun k hmem => hd.current k ?_⟩
  · have hcompleted := hd.completed
    rw [howner] at hcompleted
    exact hcompleted
  · have hflag := hd.flag
    rw [starters, howner, decide_eq_true rfl] at hflag
    change (decide (OwnerPhase.ending = .starting)).toNat + s.halfAdmitted.isSome.toNat +
      (s.drains ++ [DrainPhase.created]).countP DrainPhase.live = s.callbackDrainActive.toNat
    rw [countP_concat, ← hflag]
    change 0 + s.halfAdmitted.isSome.toNat + (s.drains.countP DrainPhase.live + 1) =
      1 + s.halfAdmitted.isSome.toNat + s.drains.countP DrainPhase.live
    omega
  · simpa using hmem

theorem halfAdmitted_of_free (hfree : s.registering = none) : s.halfAdmitted = none := by
  rw [halfAdmitted, hfree]
  rfl

/-- A callback at the end of the deque. -/
theorem DrainInv.numbers_append (hd : DrainInv s) (kind : CallbackKind) :
    (s.handled.map Prod.fst ++ (s.callbacks ++ [⟨kind, s.appended⟩]) : List Callback).Pairwise
        (fun c d => c.number < d.number) ∧
      ∀ callback ∈ (s.handled.map Prod.fst ++ (s.callbacks ++ [⟨kind, s.appended⟩]) :
        List Callback), callback.number < s.appended + 1 := by
  rw [← List.append_assoc]
  refine ⟨List.pairwise_append.mpr ⟨hd.numbers.1, List.pairwise_singleton _ _, ?_⟩, ?_⟩
  · intro c hc d hd'
    rw [List.mem_singleton] at hd'
    subst hd'
    exact hd.numbers.2 c hc
  · intro c hc
    rcases List.mem_append.mp hc with hc | hc
    · exact Nat.lt_succ_of_lt (hd.numbers.2 c hc)
    · rw [List.mem_singleton] at hc
      subst hc
      exact Nat.lt_succ_self _

/-- A registration that leaves the drain to others. -/
theorem DrainInv.append (hd : DrainInv s) (hfree : s.registering = none) (kind : CallbackKind)
    (hactive : s.bodyCompleted = true → s.callbackDrainActive = true) :
    DrainInv { s.appendCallback kind with
      returned := s.returned ++ [⟨kind, s.appended⟩] } := by
  have hnone := halfAdmitted_of_free hfree
  refine ⟨hd.completed, hd.outcome, hd.flag, hd.early, fun hdone _ => hactive hdone,
    fun hnil => ?_, fun callback hadmitted => ?_, ?_, hd.numbers_append kind, hd.skipped, hd.taken,
    hd.accepted, hd.executing, hd.current⟩
  · exact absurd hnil (List.append_ne_nil_of_right_ne_nil _ (List.cons_ne_nil _ _))
  · rw [show s.halfAdmitted = some callback from hadmitted] at hnone
    cases hnone
  · have horder := hd.order
    rw [hnone, Option.toList_none, List.append_nil] at horder
    change s.handled.map Prod.fst ++ (s.callbacks ++ [⟨kind, s.appended⟩]) =
      s.returned ++ [⟨kind, s.appended⟩] ++ s.halfAdmitted.toList
    rw [hnone, Option.toList_none, List.append_nil, ← List.append_assoc, horder]

/-- A late registration that starts a drain finds the deque empty. -/
theorem DrainInv.admit (hd : DrainInv s) (hfree : s.registering = none) (kind : CallbackKind)
    (hdone : s.bodyCompleted = true) (hactive : s.callbackDrainActive = false) :
    DrainInv { s.appendCallback kind with
      callbackDrainActive := true
      registering := some (⟨kind, s.appended⟩, .admitting) } := by
  have hnone := halfAdmitted_of_free hfree
  obtain ⟨hstarting, -, hlive⟩ := hd.quiet hactive
  have hempty : s.callbacks = [] := by
    by_contra hne
    rw [hd.waiting hdone hne] at hactive
    cases hactive
  refine ⟨hd.completed, hd.outcome, ?_, fun hfalse => ?_, fun _ _ => rfl, fun hnil => ?_,
    fun callback hadmitted => ?_, ?_, hd.numbers_append kind, hd.skipped, hd.taken, hd.accepted,
    hd.executing, hd.current⟩
  · change (decide (s.owner = .starting)).toNat + 1 + s.drains.countP DrainPhase.live = 1
    rw [hlive, decide_eq_false hstarting]
    rfl
  · rw [show s.bodyCompleted = false from hfalse] at hdone
    cases hdone
  · exact absurd hnil (List.append_ne_nil_of_right_ne_nil _ (List.cons_ne_nil _ _))
  · cases hadmitted
    change s.callbacks ++ [⟨kind, s.appended⟩] = [⟨kind, s.appended⟩]
    rw [hempty, List.nil_append]
  · have horder := hd.order
    rw [hnone, Option.toList_none, List.append_nil] at horder
    change s.handled.map Prod.fst ++ (s.callbacks ++ [⟨kind, s.appended⟩]) =
      s.returned ++ [⟨kind, s.appended⟩]
    rw [← List.append_assoc, horder]

theorem DrainInv.registerCallback (hd : DrainInv s) (hfree : s.registering = none)
    (kind : CallbackKind) : DrainInv (s.registerCallback kind) := by
  rcases registerCallback_cases s kind with ⟨hdone, hactive, heq⟩ | ⟨hactive, heq⟩
  · rw [heq]
    exact hd.admit hfree kind hdone hactive
  · rw [heq]
    exact hd.append hfree kind hactive

theorem halfAdmitted_of_registering {callback : Callback} {phase : RegistrationPhase}
    (hregistering : s.registering = some (callback, phase)) : s.halfAdmitted = some callback := by
  rw [halfAdmitted, hregistering]
  rfl

/-- The drain of a late registration takes the place of the registration. -/
theorem DrainInv.submitDrain (hd : DrainInv s) {callback : Callback} {phase : RegistrationPhase}
    (hregistering : s.registering = some (callback, phase)) {drain : DrainPhase}
    (hfresh : drain.fresh = true) :
    DrainInv { s.finishRegistration callback with drains := s.drains ++ [drain] } := by
  have hlive := DrainPhase.live_of_fresh hfresh
  have hadmitted := halfAdmitted_of_registering hregistering
  have hone := hd.registered callback hadmitted
  refine ⟨hd.completed, hd.outcome, ?_, hd.early, hd.waiting, fun hnil => ?_,
    fun callback' h => (nomatch h), ?_, hd.numbers, hd.skipped, hd.taken, hd.accepted,
    fun k callback args hget => List.mem_append_left _ (hd.executing k callback args hget),
    fun k hmem => hd.current k ?_⟩
  · have hflag := hd.flag
    rw [starters, hadmitted] at hflag
    change (decide (s.owner = .starting)).toNat + 0 +
      (s.drains ++ [drain]).countP DrainPhase.live = s.callbackDrainActive.toNat
    rw [countP_concat, hlive, ← hflag]
    change (decide (s.owner = .starting)).toNat + 0 + (s.drains.countP DrainPhase.live + 1) =
      (decide (s.owner = .starting)).toNat + 1 + s.drains.countP DrainPhase.live
    omega
  · rw [show s.callbacks = [] from hnil] at hone
    cases hone
  · have horder := hd.order
    rw [hadmitted] at horder
    change _ = (s.returned ++ [callback]) ++ []
    rw [List.append_nil]
    exact horder
  · rcases List.mem_append.mp hmem with hmem | hmem
    · exact hmem
    · rw [List.mem_singleton] at hmem
      rw [← hmem] at hfresh
      cases hfresh

/-- A registration that raises takes its callback back. -/
theorem DrainInv.rollBack (hd : DrainInv s) {callback : Callback} {phase : RegistrationPhase}
    (hregistering : s.registering = some (callback, phase)) : DrainInv s.rollBack := by
  have hadmitted := halfAdmitted_of_registering hregistering
  have hone := hd.registered callback hadmitted
  have hflag := hd.flag
  rw [starters, hadmitted] at hflag
  change (decide (s.owner = .starting)).toNat + 1 + s.drains.countP DrainPhase.live = _ at hflag
  have hle := Bool.toNat_le s.callbackDrainActive
  have hdropped : s.callbacks.dropLast = [] := by
    rw [hone]
    rfl
  have hreturned : s.handled.map Prod.fst ++ s.callbacks.dropLast = s.returned := by
    have horder := hd.order
    rw [hadmitted, hone] at horder
    rw [hdropped, List.append_nil]
    exact List.append_cancel_right horder
  have hsub : (s.handled.map Prod.fst ++ s.callbacks.dropLast).Sublist
      (s.handled.map Prod.fst ++ s.callbacks) :=
    (List.Sublist.refl _).append (List.dropLast_sublist _)
  refine ⟨hd.completed, hd.outcome, ?_, fun hopen => ⟨rfl, (hd.early hopen).2⟩, fun _ hne => ?_,
    fun _ => ⟨fun hstarting => ?_, ?_⟩, fun callback' h => (nomatch h), ?_, ?_, hd.skipped, hd.taken,
    hd.accepted, hd.executing, hd.current⟩
  · change (decide (s.owner = .starting)).toNat + 0 + s.drains.countP DrainPhase.live = 0
    omega
  · exact absurd hdropped hne
  · rw [show s.owner = .starting from hstarting, decide_eq_true rfl, Bool.toNat_true] at hflag
    omega
  · have hfresh : s.drains.countP DrainPhase.fresh ≤ s.drains.countP DrainPhase.live :=
      List.countP_mono_left fun _ _ => DrainPhase.live_of_fresh
    change s.drains.countP DrainPhase.fresh = 0
    omega
  · change s.handled.map Prod.fst ++ s.callbacks.dropLast = s.returned ++ []
    rw [hreturned, List.append_nil]
  · exact ⟨hd.numbers.1.sublist hsub, fun c hc => hd.numbers.2 c (hsub.subset hc)⟩

/-! ## 4. The steps of a drain -/

/-- While a drain is active nobody else is, and nobody starts another one. -/
theorem DrainInv.alone (hd : DrainInv s) {i : Nat} {drain : DrainPhase}
    (hget : s.drains[i]? = some drain) (hlive : drain.live = true) :
    s.callbackDrainActive = true ∧ s.owner ≠ .starting ∧ s.halfAdmitted = none ∧
      s.drains.countP DrainPhase.live = 1 ∧
      ∀ j : Nat, ∀ other : DrainPhase, s.drains[j]? = some other → other.live = true → j = i := by
  have hflag := hd.flag
  have hpos : 0 < s.drains.countP DrainPhase.live :=
    List.countP_pos_iff.mpr ⟨drain, List.mem_of_getElem? hget, hlive⟩
  have hle := Bool.toNat_le s.callbackDrainActive
  have hactive : s.callbackDrainActive = true := by
    cases hfalse : s.callbackDrainActive with
    | true => rfl
    | false =>
      rw [(hd.quiet hfalse).2.2] at hpos
      cases hpos
  rw [starters, hactive, Bool.toNat_true] at hflag
  refine ⟨hactive, fun hstarting => ?_, ?_, by omega, fun j other hj hother => ?_⟩
  · rw [decide_eq_true hstarting, Bool.toNat_true] at hflag
    omega
  · cases hadmitted : s.halfAdmitted with
    | none => rfl
    | some callback =>
      rw [hadmitted, Option.isSome_some, Bool.toNat_true] at hflag
      omega
  · by_contra hne
    -- a second one would be left without this one
    have hdrop := countP_set_drop (y := DrainPhase.released) (p := DrainPhase.live) hget hlive rfl
    have hleft : 0 < (s.drains.set i DrainPhase.released).countP DrainPhase.live := by
      refine List.countP_pos_iff.mpr ⟨other, List.mem_of_getElem? (i := j) ?_, hother⟩
      rw [List.getElem?_set_ne (Ne.symm hne)]
      exact hj
    omega

/-- No callback is being executed while the drain is between two callbacks. -/
theorem DrainInv.not_executing (hd : DrainInv s) {i : Nat} {drain : DrainPhase}
    (hget : s.drains[i]? = some drain) (hlive : drain.live = true)
    (hbetween : ∀ k, drain ≠ .executing k) (k : Nat) (callback : Callback)
    (args : CallbackArgs ρ ε) : s.handled[k]? ≠ some (callback, .executing args) := by
  intro hexecuting
  obtain ⟨j, hj⟩ := List.getElem?_of_mem (hd.executing k callback args hexecuting)
  obtain rfl := (hd.alone hget hlive).2.2.2.2 j _ hj rfl
  rw [hget, Option.some.injEq] at hj
  exact hbetween k hj

/-- A drain changes its phase while the deque and the history stay. -/
theorem DrainInv.setDrain (hd : DrainInv s) {i : Nat} {old d : DrainPhase}
    (hget : s.drains[i]? = some old) (hlive : d.live = old.live)
    (hfresh : d.fresh = true → old.fresh = true)
    (hexecuting : ∀ k, old ≠ .executing k ∧ d ≠ .executing k) :
    DrainInv { s with drains := s.drains.set i d } := by
  refine ⟨hd.completed, hd.outcome, ?_, hd.early, hd.waiting, fun hnil => ?_, hd.registered,
    hd.order, hd.numbers, hd.skipped, hd.taken, hd.accepted, fun k callback args hhandled => ?_,
    fun k hmem => hd.current k ?_⟩
  · have hflag := hd.flag
    rw [starters, ← countP_set_same (y := d) hget hlive] at hflag
    exact hflag
  · refine ⟨(hd.full hnil).1, Nat.le_zero.mp ?_⟩
    have hadd := countP_set_add (y := d) (p := DrainPhase.fresh) hget
    have hzero := (hd.full hnil).2
    have hle : (d.fresh).toNat ≤ (old.fresh).toNat := by
      cases hd' : d.fresh with
      | false => exact Nat.zero_le _
      | true =>
        refine Nat.le_of_eq ?_
        rw [hfresh hd']
    change (s.drains.set i d).countP DrainPhase.fresh ≤ 0
    omega
  · obtain ⟨j, hj⟩ := List.getElem?_of_mem (hd.executing k callback args hhandled)
    have hne : i ≠ j := by
      rintro rfl
      rw [hget, Option.some.injEq] at hj
      exact (hexecuting k).1 hj
    refine List.mem_of_getElem? (i := j) ?_
    rw [List.getElem?_set_ne hne]
    exact hj
  · rcases List.mem_or_eq_of_mem_set hmem with hmem | heq
    · exact hmem
    · exact absurd heq.symm (hexecuting k).2

/-- A drain that finds the deque empty. -/
theorem DrainInv.drain_nil (hd : DrainInv s) {i : Nat} {old : DrainPhase}
    (hget : s.drains[i]? = some old) (hlive : old.live = true)
    (hbetween : ∀ k, old ≠ .executing k) (hnil : s.callbacks = []) :
    DrainInv { s with
      callbackDrainActive := false, drains := s.drains.set i .finished } := by
  obtain ⟨-, hstarting, hadmitted, hone, -⟩ := hd.alone hget hlive
  have hdrop := countP_set_drop (y := DrainPhase.finished) (p := DrainPhase.live) hget hlive rfl
  have hnone : (s.drains.set i DrainPhase.finished).countP DrainPhase.live = 0 := by omega
  refine ⟨hd.completed, hd.outcome, ?_, fun hopen => ⟨rfl, (hd.early hopen).2⟩,
    fun _ hne => absurd hnil hne, fun _ => ⟨hstarting, ?_⟩, hd.registered, hd.order, hd.numbers,
    hd.skipped, hd.taken, hd.accepted, fun k callback args hhandled =>
      absurd hhandled (hd.not_executing hget hlive hbetween k callback args),
    fun k hmem => hd.current k ?_⟩
  · change (decide (s.owner = .starting)).toNat + s.halfAdmitted.isSome.toNat +
      (s.drains.set i DrainPhase.finished).countP DrainPhase.live = 0
    rw [hnone, hadmitted, decide_eq_false hstarting]
    rfl
  · have hadd := countP_set_add (y := DrainPhase.finished) (p := DrainPhase.fresh) hget
    have hzero := (hd.full hnil).2
    change (s.drains.set i DrainPhase.finished).countP DrainPhase.fresh = 0
    rw [show DrainPhase.finished.fresh = false from rfl, Bool.toNat_false] at hadd
    omega
  · rcases List.mem_or_eq_of_mem_set hmem with hmem | heq
    · exact hmem
    · cases heq

/-- A drain that takes a callback. -/
theorem DrainInv.drain_cons (hd : DrainInv s) {i : Nat} {old drain : DrainPhase}
    (hget : s.drains[i]? = some old) (hlive : old.live = true)
    (hbetween : ∀ k, old ≠ .executing k) {callback : Callback} {rest : List Callback}
    (hcons : s.callbacks = callback :: rest) (hdrain : drain.live = true)
    (hfresh : drain.fresh = false) {disposition : Disposition ρ ε}
    (hskipped : disposition = .skipped → s.callbackArgs callback.kind = none)
    (htaken : ∀ args, disposition = .executing args ∨ disposition = .executed args ∨
      disposition = .refused args → s.callbackArgs callback.kind = some args)
    (hrefused : ∀ args, disposition ≠ .refused args)
    (hexecuting : ∀ args, disposition = .executing args → drain = .executing s.handled.length)
    (hcurrent : ∀ k, drain = .executing k →
      k = s.handled.length ∧ ∃ args, disposition = .executing args) :
    DrainInv { s with
      callbacks := rest, handled := s.handled ++ [(callback, disposition)]
      drains := s.drains.set i drain } := by
  obtain ⟨hactive, hstarting, hadmitted, hone, halone⟩ := hd.alone hget hlive
  have hmoved : (s.handled ++ [(callback, disposition)]).map Prod.fst ++ rest =
      s.handled.map Prod.fst ++ s.callbacks := by
    rw [hcons, List.map_append, List.append_assoc]
    rfl
  have hdone : s.bodyCompleted = true := by
    by_contra hopen
    rw [(hd.early (Bool.eq_false_iff.mpr hopen)).1] at hactive
    cases hactive
  refine ⟨hd.completed, hd.outcome, ?_, fun hopen => ?_, fun _ _ => hactive,
    fun _ => ⟨hstarting, ?_⟩, fun callback' h => ?_, ?_, ?_, fun callback' hmem => ?_,
    fun callback' args hmem => ?_, fun callback' args hmem => ?_,
    fun k callback' args hhandled => ?_, fun k hmem => ?_⟩
  · have hflag := hd.flag
    rw [starters, ← countP_set_same (y := drain) hget (hdrain.trans hlive.symm)] at hflag
    exact hflag
  · rw [show s.bodyCompleted = false from hopen] at hdone
    cases hdone
  · -- the only active drain is under way
    refine List.countP_eq_zero.mpr fun other hmem hother => ?_
    obtain ⟨j, hj⟩ := List.getElem?_of_mem hmem
    rcases getElem?_set_cases hget hj with ⟨-, rfl⟩ | ⟨hne, hj⟩
    · rw [hfresh] at hother
      cases hother
    · exact hne (halone j other hj (DrainPhase.live_of_fresh hother))
  · rw [show s.halfAdmitted = some callback' from h] at hadmitted
    cases hadmitted
  · change (s.handled ++ [(callback, disposition)]).map Prod.fst ++ rest = _
    rw [hmoved]
    exact hd.order
  · change ((s.handled ++ [(callback, disposition)]).map Prod.fst ++ rest).Pairwise _ ∧
      ∀ c ∈ (s.handled ++ [(callback, disposition)]).map Prod.fst ++ rest, c.number < s.appended
    rw [hmoved]
    exact hd.numbers
  · rcases List.mem_append.mp hmem with hmem | hmem
    · exact hd.skipped callback' hmem
    · rw [List.mem_singleton, Prod.mk.injEq] at hmem
      rw [hmem.1]
      exact hskipped hmem.2.symm
  · have hcases : ((callback', Disposition.executing args) ∈ s.handled ∨
        (callback', Disposition.executed args) ∈ s.handled ∨
        (callback', Disposition.refused args) ∈ s.handled) ∨
        (callback' = callback ∧ (disposition = .executing args ∨ disposition = .executed args ∨
          disposition = .refused args)) := by
      simp only [List.mem_append, List.mem_singleton, Prod.mk.injEq] at hmem
      rcases hmem with (h | ⟨h, hd⟩) | (h | ⟨h, hd⟩) | (h | ⟨h, hd⟩)
      · exact Or.inl (Or.inl h)
      · exact Or.inr ⟨h, Or.inl hd.symm⟩
      · exact Or.inl (Or.inr (Or.inl h))
      · exact Or.inr ⟨h, Or.inr (Or.inl hd.symm)⟩
      · exact Or.inl (Or.inr (Or.inr h))
      · exact Or.inr ⟨h, Or.inr (Or.inr hd.symm)⟩
    rcases hcases with hold | ⟨rfl, hnew⟩
    · exact hd.taken callback' args hold
    · exact htaken args hnew
  · rcases List.mem_append.mp hmem with hmem | hmem
    · exact hd.accepted callback' args hmem
    · rw [List.mem_singleton, Prod.mk.injEq] at hmem
      exact hrefused args hmem.2.symm
  · rcases getElem?_append_cases hhandled with ⟨rfl, hnew⟩ | hhandled
    · rw [Prod.mk.injEq] at hnew
      rw [← hexecuting args hnew.2.symm]
      exact List.mem_of_getElem? (getElem?_set_self' hget)
    · exact absurd hhandled (hd.not_executing hget hlive hbetween k callback' args)
  · rcases List.mem_or_eq_of_mem_set hmem with hmem | heq
    · -- no other drain executes a callback
      obtain ⟨callback', args, hhandled⟩ := hd.current k hmem
      exact absurd hhandled (hd.not_executing hget hlive hbetween k callback' args)
    · obtain ⟨rfl, args, rfl⟩ := hcurrent k heq.symm
      exact ⟨callback, args, List.getElem?_concat_length⟩

theorem DrainInv.drain (hd : DrainInv s) {i : Nat}
    (hget : s.drains[i]? = some .created ∨ s.drains[i]? = some .looping) :
    DrainInv (s.drainCallbacks i) := by
  obtain ⟨old, hget, hlive, hbetween⟩ : ∃ old, s.drains[i]? = some old ∧ old.live = true ∧
      ∀ k, old ≠ DrainPhase.executing k := by
    rcases hget with hget | hget
    · exact ⟨_, hget, rfl, fun k h => nomatch h⟩
    · exact ⟨_, hget, rfl, fun k h => nomatch h⟩
  unfold drainCallbacks
  split
  · rename_i hnil
    exact hd.drain_nil hget hlive hbetween hnil
  · rename_i callback rest hcons
    split
    · rename_i args hargs
      refine hd.drain_cons hget hlive hbetween hcons rfl rfl (fun h => (nomatch h))
        (fun args' h => ?_) (fun args' h => (nomatch h)) (fun args' _ => rfl) fun k h => ?_
      · rcases h with h | h | h
        · cases h
          exact hargs
        · cases h
        · cases h
      · rw [DrainPhase.executing.injEq] at h
        exact ⟨h.symm, args, rfl⟩
    · rename_i hargs
      refine hd.drain_cons hget hlive hbetween hcons rfl rfl (fun _ => hargs)
        (fun args' h => ?_) (fun args' h => (nomatch h)) (fun args' h => (nomatch h))
        fun k h => nomatch h
      rcases h with h | h | h
      · cases h
      · cases h
      · cases h

/-- The entries of the history after a callback has ended. -/
theorem mem_modify_finish {handled : List (Callback × Disposition ρ ε)} {entry : Nat}
    {execution : Execution ε} {callback : Callback} {disposition : Disposition ρ ε}
    (hmem : (callback, disposition) ∈
      handled.modify entry fun taken => (taken.1, taken.2.finish execution)) :
    (callback, disposition) ∈ handled ∨
      ∃ old, (callback, old) ∈ handled ∧ disposition = old.finish execution := by
  obtain ⟨k, hk⟩ := List.getElem?_of_mem hmem
  rw [List.getElem?_modify] at hk
  obtain ⟨⟨callback', old⟩, hold, heq⟩ := Option.map_eq_some_iff.mp hk
  dsimp only at heq
  split at heq
  · cases heq
    exact Or.inr ⟨old, List.mem_of_getElem? hold, rfl⟩
  · cases heq
    exact Or.inl (List.mem_of_getElem? hold)

theorem map_fst_modify_finish (handled : List (Callback × Disposition ρ ε)) (entry : Nat)
    (execution : Execution ε) :
    (handled.modify entry fun taken => (taken.1, taken.2.finish execution)).map Prod.fst =
      handled.map Prod.fst := by
  refine List.ext_getElem? fun k => ?_
  rw [List.getElem?_map, List.getElem?_modify, List.getElem?_map]
  cases handled[k]? with
  | none => rfl
  | some taken =>
    simp only [Option.map_some]
    split
    · rfl
    · rfl

theorem DrainInv.finishCallback (hd : DrainInv s) {i entry : Nat}
    (hget : s.drains[i]? = some (.executing entry)) {execution : Execution ε}
    (haccepted : ∀ error, execution ≠ .refused error) :
    DrainInv (s.finishCallback i entry execution) := by
  obtain ⟨hactive, hstarting, hadmitted, hone, halone⟩ := hd.alone hget rfl
  have hmap := map_fst_modify_finish s.handled entry execution
  refine ⟨hd.completed, hd.outcome, ?_, fun hopen => ?_, hd.waiting, fun hnil => ?_,
    hd.registered, ?_, ?_, fun callback hmem => ?_, fun callback args hmem => ?_,
    fun callback args hmem => ?_, fun k callback args hhandled => ?_, fun k hmem => ?_⟩
  · have hflag := hd.flag
    rw [starters, ← countP_set_same (y := DrainPhase.looping) hget rfl] at hflag
    exact hflag
  · rw [(hd.early hopen).1] at hactive
    cases hactive
  · refine ⟨hstarting, ?_⟩
    have hsame := countP_set_same (y := DrainPhase.looping) (p := DrainPhase.fresh) hget rfl
    exact hsame.trans (hd.full hnil).2
  · change (s.handled.modify entry _).map Prod.fst ++ s.callbacks = _
    rw [hmap]
    exact hd.order
  · change ((s.handled.modify entry _).map Prod.fst ++ s.callbacks).Pairwise _ ∧
      ∀ c ∈ (s.handled.modify entry _).map Prod.fst ++ s.callbacks, c.number < s.appended
    rw [hmap]
    exact hd.numbers
  · rcases mem_modify_finish hmem with hold | ⟨old, hold, heq⟩
    · exact hd.skipped callback hold
    · rcases Disposition.finish_cases old execution with hsame | ⟨args, -, hnew | hnew⟩
      · rw [← hsame, ← heq] at hold
        exact hd.skipped callback hold
      · rw [hnew] at heq
        cases heq
      · rw [hnew] at heq
        cases heq
  · have hfinished : ∀ disposition, (callback, disposition) ∈
        s.handled.modify entry (fun taken => (taken.1, taken.2.finish execution)) →
        disposition = .executing args ∨ disposition = .executed args ∨
          disposition = .refused args → s.callbackArgs callback.kind = some args := by
      intro disposition hmem hcases
      rcases mem_modify_finish hmem with hold | ⟨old, hold, rfl⟩
      · rcases hcases with rfl | rfl | rfl
        · exact hd.taken callback args (Or.inl hold)
        · exact hd.taken callback args (Or.inr (Or.inl hold))
        · exact hd.taken callback args (Or.inr (Or.inr hold))
      · rcases Disposition.finish_cases old execution with hsame | ⟨args', rfl, hnew | hnew⟩
        · rw [hsame] at hcases
          rcases hcases with rfl | rfl | rfl
          · exact hd.taken callback args (Or.inl hold)
          · exact hd.taken callback args (Or.inr (Or.inl hold))
          · exact hd.taken callback args (Or.inr (Or.inr hold))
        · rw [hnew] at hcases
          rcases hcases with h | h | h
          · cases h
          · cases h
            exact hd.taken callback args (Or.inl hold)
          · cases h
        · rw [hnew] at hcases
          rcases hcases with h | h | h
          · cases h
          · cases h
          · cases h
            exact hd.taken callback args (Or.inl hold)
    rcases hmem with hmem | hmem | hmem
    · exact hfinished _ hmem (Or.inl rfl)
    · exact hfinished _ hmem (Or.inr (Or.inl rfl))
    · exact hfinished _ hmem (Or.inr (Or.inr rfl))
  · rcases mem_modify_finish hmem with hold | ⟨old, hold, heq⟩
    · exact hd.accepted callback args hold
    · cases old with
      | executing args' =>
        cases execution with
        | refused error => exact haccepted error rfl
        | _ => cases heq
      | refused args' => exact hd.accepted callback args' hold
      | _ => cases heq
  · -- the callback that has ended was the only one
    change (s.handled.modify entry _)[k]? = _ at hhandled
    rw [List.getElem?_modify] at hhandled
    obtain ⟨⟨callback', old⟩, hold, heq⟩ := Option.map_eq_some_iff.mp hhandled
    dsimp only at heq
    split at heq
    · rw [Prod.mk.injEq] at heq
      exact absurd heq.2 (Disposition.finish_ne_executing old execution args)
    · rename_i hne
      cases heq
      obtain ⟨j, hj⟩ := List.getElem?_of_mem (hd.executing k callback args hold)
      obtain rfl := halone j _ hj rfl
      rw [hget, Option.some.injEq, DrainPhase.executing.injEq] at hj
      exact absurd hj hne
  · obtain ⟨j, hj⟩ := List.getElem?_of_mem hmem
    rcases getElem?_set_cases hget hj with ⟨-, heq⟩ | ⟨hne, hj⟩
    · cases heq
    · exact absurd (halone j _ hj rfl) hne

theorem DrainInv.initial (hd : DrainInv s) (hfree : s.registering = none)
    (hopen : s.bodyCompleted = false) (initial : List CallbackKind) :
    DrainInv (initial.foldl registerInitialCallback s) := by
  induction initial generalizing s with
  | nil => exact hd
  | cons kind initial ih =>
    exact ih (hd.append hfree kind fun h => nomatch hopen.symm.trans h) hfree hopen

theorem drainInv_empty : DrainInv ({} : StageHandle ρ ε) := by
  refine ⟨rfl, fun h => (nomatch h), rfl, fun _ => ⟨rfl, rfl⟩, fun h => (nomatch h),
    fun _ => ⟨fun h => (nomatch h), rfl⟩, fun _ h => (nomatch h), rfl, ⟨List.Pairwise.nil, ?_⟩,
    ?_, ?_, ?_, fun _ _ _ h => (nomatch h), fun _ h => (nomatch h)⟩
  · simp
  · simp
  · simp
  · simp

/-! ## 5. Runs -/

/-- A step after which a callback is never invoked: the start of its drain fails and leaves the
    flag set, or the executor refuses it. -/
def losesCallback (s : StageHandle ρ ε) : HandleEvent ρ ε → Bool
  | .startFails _ => !s.callbacks.isEmpty
  | .startDrainFails _ | .submitDrainFails _ | .createDrainFails _ _ => true
  | .finishCallback _ (.refused _) => true
  | _ => false

variable [DecidableEq ε]

/-- **Step lemma of the drains**, for every step that loses no drain. -/
theorem DrainInv.step (hd : DrainInv s) {loop : Nat} {e : HandleEvent ρ ε}
    (hok : s.losesCallback e = false) (hstep : s.step loop e = some s') : DrainInv s' := by
  cases e with
  | retain =>
    obtain ⟨howner, rfl⟩ := when_eq_some.mp hstep
    exact hd.congr ⟨by rw [howner]; rfl, by rw [howner]; simp⟩ ⟨rfl, rfl, rfl⟩ ⟨rfl, rfl⟩ rfl rfl
      ⟨rfl, rfl, rfl⟩
  | submit =>
    obtain ⟨howner, rfl⟩ := when_eq_some.mp hstep
    exact hd.congr ⟨by rw [howner]; rfl, by rw [howner]; simp⟩ ⟨rfl, rfl, rfl⟩ ⟨rfl, rfl⟩ rfl rfl
      ⟨rfl, rfl, rfl⟩
  | refuse =>
    obtain ⟨howner, rfl⟩ := when_eq_some.mp hstep
    obtain ⟨pending, futures, heq⟩ := releaseWork_eq s
    rw [heq]
    exact hd.congr ⟨by rw [howner]; rfl, by rw [howner]; simp⟩ ⟨rfl, rfl, rfl⟩ ⟨rfl, rfl⟩ rfl rfl
      ⟨rfl, rfl, rfl⟩
  | setOwnerTask =>
    obtain ⟨howner, rfl⟩ := when_eq_some.mp hstep
    exact hd.congr ⟨by rw [howner]; rfl, by rw [howner]; simp⟩ ⟨rfl, rfl, rfl⟩ ⟨rfl, rfl⟩ rfl rfl
      ⟨rfl, rfl, rfl⟩
  | startFails error =>
    obtain ⟨howner, rfl⟩ := when_eq_some.mp hstep
    have hopen : s.bodyCompleted = false := by
      rw [hd.completed, howner]
      rfl
    have hnil : s.callbacks = [] := by
      rw [losesCallback, Bool.not_eq_false', List.isEmpty_iff] at hok
      exact hok
    exact hd.setOutcome hopen (Or.inr ⟨rfl, rfl⟩) rfl
      ⟨(fun h => by cases h), fun hne => absurd hnil hne⟩
  | completeBody outcome =>
    cases outcome with
    | result value =>
      obtain ⟨howner, rfl⟩ := when_eq_some.mp hstep
      exact hd.completeBody howner (Or.inl ⟨rfl, rfl⟩)
    | exception error =>
      obtain ⟨howner, rfl⟩ := when_eq_some.mp hstep
      exact hd.completeBody howner (Or.inr ⟨rfl, rfl⟩)
    | cancelled error =>
      obtain ⟨howner, rfl⟩ := when_eq_some.mp hstep
      exact hd.completeBody howner (Or.inr ⟨rfl, rfl⟩)
  | startDrain =>
    obtain ⟨howner, rfl⟩ := when_eq_some.mp hstep
    exact (hd.startDrain howner).congr ⟨rfl, Iff.rfl⟩ ⟨rfl, rfl, rfl⟩ ⟨rfl, rfl⟩ rfl rfl
      ⟨rfl, rfl, rfl⟩
  | startDrainFails error => cases hok
  | releaseOwner =>
    simp only [StageHandle.step] at hstep
    obtain ⟨pending, futures, heq⟩ := releaseWork_eq s
    split at hstep
    · rename_i howner
      cases hstep
      rw [heq]
      exact hd.congr ⟨by rw [howner]; rfl, by rw [howner]; simp⟩ ⟨rfl, rfl, rfl⟩ ⟨rfl, rfl⟩ rfl
        rfl ⟨rfl, rfl, rfl⟩
    · rename_i howner
      cases hstep
      rw [heq]
      exact hd.congr ⟨by rw [howner]; rfl, by rw [howner]; simp⟩ ⟨rfl, rfl, rfl⟩ ⟨rfl, rfl⟩ rfl
        rfl ⟨rfl, rfl, rfl⟩
    · cases hstep
  | register kind =>
    obtain ⟨⟨-, hfree⟩, rfl⟩ := when_eq_some.mp hstep
    exact hd.registerCallback hfree kind
  | retainDrain =>
    simp only [StageHandle.step] at hstep
    split at hstep
    · rename_i callback hregistering
      obtain ⟨-, rfl⟩ := when_eq_some.mp hstep
      exact hd.congr ⟨rfl, Iff.rfl⟩ ⟨rfl, rfl, rfl⟩ ⟨rfl, rfl⟩ rfl
        (halfAdmitted_of_registering hregistering).symm ⟨rfl, rfl, rfl⟩
    · cases hstep
  | submitDrain onOwnLoop =>
    simp only [StageHandle.step] at hstep
    split at hstep
    · rename_i callback hregistering
      cases hstep
      refine hd.submitDrain hregistering ?_
      cases onOwnLoop with
      | true => rfl
      | false => rfl
    · cases hstep
  | submitDrainFails error => cases hok
  | refuseDrain =>
    simp only [StageHandle.step] at hstep
    split at hstep
    · rename_i callback hregistering
      cases hstep
      obtain ⟨pending, futures, heq⟩ := releaseWork_eq s
      rw [heq]
      exact hd.congr ⟨rfl, Iff.rfl⟩ ⟨rfl, rfl, rfl⟩ ⟨rfl, rfl⟩ rfl
        (halfAdmitted_of_registering hregistering).symm ⟨rfl, rfl, rfl⟩
    · cases hstep
  | rollBack =>
    simp only [StageHandle.step] at hstep
    split at hstep
    · rename_i hregistering
      cases hstep
      exact hd.rollBack hregistering
    · rename_i hregistering
      cases hstep
      exact hd.rollBack hregistering
    · cases hstep
  | createDrain i =>
    obtain ⟨hget, rfl⟩ := when_eq_some.mp hstep
    exact hd.setDrain hget rfl (fun _ => rfl)
      fun k => ⟨(fun h => by cases h), fun h => by cases h⟩
  | createDrainFails i error => cases hok
  | drain i =>
    obtain ⟨hget, rfl⟩ := when_eq_some.mp hstep
    exact hd.drain hget
  | finishCallback i execution =>
    obtain ⟨entry, hget, -, rfl⟩ := finishCallback_of_step hstep
    refine hd.finishCallback hget fun error heq => ?_
    rw [heq] at hok
    cases hok
  | callbackHangs i =>
    obtain ⟨-, -, -, rfl⟩ := callbackHangs_of_step hstep
    exact hd.congr ⟨rfl, Iff.rfl⟩ ⟨rfl, rfl, rfl⟩ ⟨rfl, rfl⟩ rfl rfl ⟨rfl, rfl, rfl⟩
  | cancelDrain i error =>
    obtain ⟨entry, hget, -, rfl⟩ := cancelDrain_of_step hstep
    have hraised : ∀ error', Execution.raised error ≠ .refused error' := fun _ h => by cases h
    exact (hd.finishCallback hget hraised).congr ⟨rfl, Iff.rfl⟩ ⟨rfl, rfl, rfl⟩ ⟨rfl, rfl⟩ rfl rfl
      ⟨rfl, rfl, rfl⟩
  | releaseDrain i =>
    obtain ⟨hget, rfl⟩ := when_eq_some.mp hstep
    obtain ⟨pending, futures, heq⟩ := releaseWork_eq s
    rw [heq]
    exact (hd.setDrain (d := .released) hget rfl (fun h => by cases h)
      fun k => ⟨(fun h => by cases h), fun h => by cases h⟩).congr
      ⟨rfl, Iff.rfl⟩ ⟨rfl, rfl, rfl⟩ ⟨rfl, rfl⟩ rfl rfl ⟨rfl, rfl, rfl⟩
  | retainDescendant =>
    obtain ⟨-, rfl⟩ := when_eq_some.mp hstep
    exact hd.congr ⟨rfl, Iff.rfl⟩ ⟨rfl, rfl, rfl⟩ ⟨rfl, rfl⟩ rfl rfl ⟨rfl, rfl, rfl⟩
  | endDescendant d =>
    obtain ⟨-, rfl⟩ := when_eq_some.mp hstep
    exact hd.congr ⟨rfl, Iff.rfl⟩ ⟨rfl, rfl, rfl⟩ ⟨rfl, rfl⟩ rfl rfl ⟨rfl, rfl, rfl⟩
  | descendantDone d error =>
    obtain ⟨-, rfl⟩ := when_eq_some.mp hstep
    obtain ⟨pending, futures, heq⟩ := releaseWork_eq s
    rw [heq]
    exact hd.congr ⟨rfl, Iff.rfl⟩ ⟨rfl, rfl, rfl⟩ ⟨rfl, rfl⟩ rfl rfl ⟨rfl, rfl, rfl⟩
  | waitSettled =>
    obtain ⟨-, rfl⟩ := when_eq_some.mp hstep
    exact hd.congr ⟨rfl, Iff.rfl⟩ ⟨rfl, rfl, rfl⟩ ⟨rfl, rfl⟩ rfl rfl ⟨rfl, rfl, rfl⟩
  | waiterReturns w =>
    simp only [StageHandle.step] at hstep
    split at hstep
    · obtain ⟨-, rfl⟩ := when_eq_some.mp hstep
      exact hd.congr ⟨rfl, Iff.rfl⟩ ⟨rfl, rfl, rfl⟩ ⟨rfl, rfl⟩ rfl rfl ⟨rfl, rfl, rfl⟩
    · cases hstep

theorem reachUnder_drainInv {loop : Nat} {initial : List CallbackKind}
    (h : (handleSystem ρ ε loop initial).ReachUnder (fun s e => s.losesCallback e = false) s) :
    DrainInv s := by
  induction h with
  | init hinit =>
    cases hinit
    exact drainInv_empty.initial rfl rfl initial
  | step _ hok hstep ih => exact ih.step hok hstep

/-! ## 6. The drains of a run -/

/-- What the callbacks of a handle are promised. -/
structure CallbacksDrained (s : StageHandle ρ ε) : Prop where
  oneDrain : s.drains.countP DrainPhase.live ≤ 1
  /-- The callbacks leave the deque in the order of their registration, each of them once. -/
  order : s.handled.map Prod.fst ++ s.callbacks = s.returned ++ s.halfAdmitted.toList
  once : s.returned.Pairwise fun c d => c.number < d.number
  afterOutcome : s.handled ≠ [] → s.bodyCompleted = true ∧
    ((s.bodyResult.isSome = true ∧ s.bodyError = none) ∨
      (s.bodyResult = none ∧ s.bodyError.isSome = true))
  /-- A callback is invoked if its kind matches the outcome, and skipped otherwise. -/
  disposed : ∀ k : Nat, ∀ callback : Callback, ∀ disposition : Disposition ρ ε,
    s.handled[k]? = some (callback, disposition) →
      (disposition = .skipped ∧ s.callbackArgs callback.kind = none) ∨
      ∃ args, s.callbackArgs callback.kind = some args ∧ (disposition = .executed args ∨
        (disposition = .executing args ∧ DrainPhase.executing k ∈ s.drains))
  /-- No callback waits for a drain that nobody starts. -/
  attended : s.bodyCompleted = true → s.callbacks ≠ [] → s.owner = .starting ∨
    s.halfAdmitted.isSome = true ∨ ∃ drain ∈ s.drains, drain.live = true

omit [DecidableEq ε] in
theorem DrainInv.drained (hd : DrainInv s) : CallbacksDrained s := by
  have hflag := hd.flag
  have hle := Bool.toNat_le s.callbackDrainActive
  rw [starters] at hflag
  refine ⟨by omega, hd.order, ?_, fun hne => ?_, fun k callback disposition hget => ?_,
    fun hdone hne => ?_⟩
  · have hnumbers := hd.numbers.1
    rw [hd.order] at hnumbers
    exact (List.pairwise_append.mp hnumbers).1
  · have hdone : s.bodyCompleted = true := by
      by_contra hopen
      exact hne (hd.early (Bool.eq_false_iff.mpr hopen)).2
    exact ⟨hdone, hd.outcome hdone⟩
  · have hmem := List.mem_of_getElem? hget
    cases disposition with
    | skipped => exact Or.inl ⟨rfl, hd.skipped callback hmem⟩
    | executing args =>
      exact Or.inr ⟨args, hd.taken callback args (Or.inl hmem),
        Or.inr ⟨rfl, hd.executing k callback args hget⟩⟩
    | executed args =>
      exact Or.inr ⟨args, hd.taken callback args (Or.inr (Or.inl hmem)), Or.inl rfl⟩
    | refused args => exact absurd hmem (hd.accepted callback args)
  · have hactive := hd.waiting hdone hne
    by_cases hstarting : s.owner = .starting
    · exact Or.inl hstarting
    · refine Or.inr ?_
      cases hadmitted : s.halfAdmitted with
      | some callback => exact Or.inl rfl
      | none =>
        refine Or.inr (List.countP_pos_iff.mp ?_)
        rw [hactive, hadmitted, decide_eq_false hstarting] at hflag
        change 0 + 0 + s.drains.countP DrainPhase.live = 1 at hflag
        omega

/-! ## 7. Lost callbacks -/

/-- Nobody starts a drain, and no drain can go on: each of them is over or, with `hung`, is
    stuck. -/
structure Halted (hung : Prop) (s : StageHandle ρ ε) : Prop where
  completed : s.bodyCompleted = true
  active : s.callbackDrainActive = true
  owner : s.owner ≠ .starting
  registering : s.registering = none
  drains : ∀ i : Nat, ∀ drain, s.drains[i]? = some drain → drain.live = true →
    hung ∧ i ∈ s.stuck ∧ ∃ entry, drain = .executing entry
  stuck : hung → ∃ i entry, s.drains[i]? = some (.executing entry) ∧ i ∈ s.stuck

variable {hung : Prop}

omit [DecidableEq ε] in
theorem Halted.congr (hs : Halted hung s) (hcompleted : s'.bodyCompleted = s.bodyCompleted)
    (hactive : s'.callbackDrainActive = s.callbackDrainActive) (howner : s'.owner ≠ .starting)
    (hregistering : s'.registering = s.registering)
    (hdrains : s'.drains = s.drains ∧ s'.stuck = s.stuck) : Halted hung s' := by
  refine ⟨?_, ?_, howner, ?_, ?_, ?_⟩
  · rw [hcompleted]
    exact hs.completed
  · rw [hactive]
    exact hs.active
  · rw [hregistering]
    exact hs.registering
  · rw [hdrains.1, hdrains.2]
    exact hs.drains
  · rw [hdrains.1, hdrains.2]
    exact hs.stuck

omit [DecidableEq ε] in
theorem Halted.setBodyOutcome_eq (hs : Halted hung s) (result : Option ρ) (error : Option ε) :
    s.setBodyOutcome result error = (s, false) := by
  rw [setBodyOutcome, if_pos hs.completed]

omit [DecidableEq ε] in
theorem Halted.completeBody (hs : Halted hung s) (result : Option ρ) (error : Option ε) :
    Halted hung { (s.setBodyOutcome result error).1 with
      owner := if (s.setBodyOutcome result error).2 then .starting else .ending } ∧
    s.callbacks <+: (s.setBodyOutcome result error).1.callbacks ∧
    (s.setBodyOutcome result error).1.handled = s.handled := by
  rw [hs.setBodyOutcome_eq]
  exact ⟨hs.congr rfl rfl (fun h => by cases h) rfl ⟨rfl, rfl⟩, List.prefix_rfl, rfl⟩

/-- **Step lemma of a drain that does not go on**: the callbacks stay in the deque. -/
theorem Halted.step (hs : Halted hung s) {loop : Nat} {e : HandleEvent ρ ε}
    (hne : hung → e.cancelsDrain = false) (hstep : s.step loop e = some s') :
    Halted hung s' ∧ s.callbacks <+: s'.callbacks ∧ s'.handled = s.handled := by
  obtain ⟨pending, futures, hrelease⟩ := releaseWork_eq s
  cases e with
  | retain | submit | setOwnerTask =>
    obtain ⟨-, rfl⟩ := when_eq_some.mp hstep
    exact ⟨hs.congr rfl rfl (fun h => by cases h) rfl ⟨rfl, rfl⟩, List.prefix_rfl, rfl⟩
  | retainDescendant | endDescendant d | waitSettled =>
    obtain ⟨-, rfl⟩ := when_eq_some.mp hstep
    exact ⟨hs.congr rfl rfl hs.owner rfl ⟨rfl, rfl⟩, List.prefix_rfl, rfl⟩
  | refuse =>
    obtain ⟨-, rfl⟩ := when_eq_some.mp hstep
    rw [hrelease]
    exact ⟨hs.congr rfl rfl (fun h => by cases h) rfl ⟨rfl, rfl⟩, List.prefix_rfl, rfl⟩
  | startFails error =>
    obtain ⟨-, rfl⟩ := when_eq_some.mp hstep
    rw [setBodyException, hs.setBodyOutcome_eq]
    exact ⟨hs.congr rfl rfl (fun h => by cases h) rfl ⟨rfl, rfl⟩, List.prefix_rfl, rfl⟩
  | completeBody outcome =>
    cases outcome with
    | result value =>
      obtain ⟨-, rfl⟩ := when_eq_some.mp hstep
      exact hs.completeBody _ _
    | exception error =>
      obtain ⟨-, rfl⟩ := when_eq_some.mp hstep
      exact hs.completeBody _ _
    | cancelled error =>
      obtain ⟨-, rfl⟩ := when_eq_some.mp hstep
      exact hs.completeBody _ _
  | startDrain | startDrainFails error =>
    obtain ⟨howner, -⟩ := when_eq_some.mp hstep
    exact absurd howner hs.owner
  | releaseOwner =>
    simp only [StageHandle.step] at hstep
    split at hstep
    · cases hstep
      rw [hrelease]
      exact ⟨hs.congr rfl rfl (fun h => by cases h) rfl ⟨rfl, rfl⟩, List.prefix_rfl, rfl⟩
    · cases hstep
      rw [hrelease]
      exact ⟨hs.congr rfl rfl (fun h => by cases h) rfl ⟨rfl, rfl⟩, List.prefix_rfl, rfl⟩
    · cases hstep
  | register kind =>
    obtain ⟨-, rfl⟩ := when_eq_some.mp hstep
    rcases registerCallback_cases s kind with ⟨-, hactive, -⟩ | ⟨-, heq⟩
    · rw [hs.active] at hactive
      cases hactive
    · rw [heq]
      exact ⟨hs.congr rfl rfl hs.owner rfl ⟨rfl, rfl⟩, List.prefix_append _ _, rfl⟩
  | retainDrain | submitDrain onOwnLoop | submitDrainFails error | refuseDrain | rollBack =>
    simp only [StageHandle.step, hs.registering, reduceCtorEq] at hstep
  | createDrain i =>
    obtain ⟨hget, -⟩ := when_eq_some.mp hstep
    obtain ⟨-, -, entry, h⟩ := hs.drains i _ hget rfl
    cases h
  | createDrainFails i error =>
    obtain ⟨hget, -⟩ := when_eq_some.mp hstep
    obtain ⟨-, -, entry, h⟩ := hs.drains i _ hget rfl
    cases h
  | drain i =>
    obtain ⟨hget | hget, -⟩ := when_eq_some.mp hstep
    · obtain ⟨-, -, entry, h⟩ := hs.drains i _ hget rfl
      cases h
    · obtain ⟨-, -, entry, h⟩ := hs.drains i _ hget rfl
      cases h
  | finishCallback i execution =>
    obtain ⟨entry, hget, hfree, -⟩ := finishCallback_of_step hstep
    exact absurd (hs.drains i _ hget rfl).2.1 hfree
  | callbackHangs i =>
    obtain ⟨entry, hget, hfree, -⟩ := callbackHangs_of_step hstep
    exact absurd (hs.drains i _ hget rfl).2.1 hfree
  | cancelDrain i error =>
    obtain ⟨entry, hget, -, -⟩ := cancelDrain_of_step hstep
    cases hne (hs.drains i _ hget rfl).1
  | releaseDrain i =>
    obtain ⟨hget, rfl⟩ := when_eq_some.mp hstep
    rw [hrelease]
    refine ⟨⟨hs.completed, hs.active, hs.owner, hs.registering, fun j drain hj hlive => ?_,
      fun hhung => ?_⟩, List.prefix_rfl, rfl⟩
    · rcases getElem?_set_cases hget hj with ⟨-, rfl⟩ | ⟨-, hj⟩
      · cases hlive
      · exact hs.drains j drain hj hlive
    · obtain ⟨j, entry, hj, hmem⟩ := hs.stuck hhung
      refine ⟨j, entry, ?_, hmem⟩
      have hne' : i ≠ j := fun heq => by rw [heq, hj] at hget; cases hget
      change (s.drains.set i .released)[j]? = _
      rw [List.getElem?_set_ne hne', hj]
  | descendantDone d error =>
    obtain ⟨-, rfl⟩ := when_eq_some.mp hstep
    rw [hrelease]
    exact ⟨hs.congr rfl rfl hs.owner rfl ⟨rfl, rfl⟩, List.prefix_rfl, rfl⟩
  | waiterReturns w =>
    simp only [StageHandle.step] at hstep
    split at hstep
    · obtain ⟨-, rfl⟩ := when_eq_some.mp hstep
      exact ⟨hs.congr rfl rfl hs.owner rfl ⟨rfl, rfl⟩, List.prefix_rfl, rfl⟩
    · cases hstep

/-- The callback of the `n`-th registration waits for a drain that nobody will start. -/
structure Stranded (n : Nat) (s : StageHandle ρ ε) : Prop where
  completed : s.bodyCompleted = true
  callbacks : s.callbacks ≠ []
  active : s.callbackDrainActive = true
  owner : s.owner ≠ .starting
  registering : s.registering = none
  drains : ∀ drain ∈ s.drains, drain.live = false
  handled : s.handled.length = n
  returned : n < s.returned.length

variable {n : Nat}

omit [DecidableEq ε] in
theorem Stranded.halted (hs : Stranded n s) : Halted False s := by
  refine ⟨hs.completed, hs.active, hs.owner, hs.registering, fun i drain hget hlive => ?_,
    fun h => h.elim⟩
  rw [hs.drains drain (List.mem_of_getElem? hget)] at hlive
  cases hlive

/-- **Step lemma of a lost drain.** -/
theorem Stranded.step (hs : Stranded n s) {loop : Nat} {e : HandleEvent ρ ε}
    (hstep : s.step loop e = some s') : Stranded n s' := by
  obtain ⟨hhalted, hcallbacks, hhandled⟩ := hs.halted.step (fun h => h.elim) hstep
  refine ⟨hhalted.completed, ?_, hhalted.active, hhalted.owner, hhalted.registering,
    fun drain hmem => ?_, ?_, ?_⟩
  · exact fun hnil => hs.callbacks (List.prefix_nil.mp (hnil ▸ hcallbacks))
  · obtain ⟨i, hget⟩ := List.getElem?_of_mem hmem
    exact Bool.eq_false_iff.mpr fun hlive => (hhalted.drains i drain hget hlive).1
  · rw [hhandled, hs.handled]
  · exact Nat.lt_of_lt_of_le hs.returned (step_keeps hstep).returned.length_le

omit [DecidableEq ε] in
/-- The one who starts a drain is the only one. -/
theorem DrainInv.completed_of_active (hd : DrainInv s) (hactive : s.callbackDrainActive = true) :
    s.bodyCompleted = true := by
  by_contra hopen
  rw [(hd.early (Bool.eq_false_iff.mpr hopen)).1] at hactive
  cases hactive

omit [DecidableEq ε] in
theorem registering_of_halfAdmitted (h : s.halfAdmitted = none) : s.registering = none := by
  rw [halfAdmitted, Option.map_eq_none_iff] at h
  exact h

omit [DecidableEq ε] in
theorem live_eq_false_of_countP {drains : List DrainPhase}
    (h : drains.countP DrainPhase.live = 0) : ∀ drain ∈ drains, drain.live = false :=
  fun drain hmem => Bool.eq_false_iff.mpr (List.countP_eq_zero.mp h drain hmem)

/-- The drains have taken every callback whose registration has returned. -/
def Exhausted (s : StageHandle ρ ε) : Prop :=
  s.callbacks = [] ∧ s.handled.map Prod.fst = s.returned ∧ ∀ drain ∈ s.drains, drain.live = false

omit [DecidableEq ε] in
theorem DrainInv.exhausted (hd : DrainInv s) (hdone : s.bodyCompleted = true)
    (hactive : s.callbackDrainActive = false) : Exhausted s := by
  obtain ⟨-, hadmitted, hlive⟩ := hd.quiet hactive
  have hnil : s.callbacks = [] := by
    by_contra hne
    rw [hd.waiting hdone hne] at hactive
    cases hactive
  have horder := hd.order
  rw [hnil, hadmitted, Option.toList_none, List.append_nil, List.append_nil] at horder
  exact ⟨hnil, horder, live_eq_false_of_countP hlive⟩

/-- From here the steps of the drains, and no others, lead to the end of the deque. -/
def CanExhaust (loop : Nat) (initial : List CallbackKind) (s : StageHandle ρ ε) : Prop :=
  ∃ es s', (∀ e ∈ es, e.ofDrain = true) ∧ (handleSystem ρ ε loop initial).run s es = some s' ∧
    Exhausted s'

variable {loop : Nat} {initial : List CallbackKind}

theorem CanExhaust.cons {e : HandleEvent ρ ε} (hdrain : e.ofDrain = true)
    (hstep : s.step loop e = some s') (h : CanExhaust loop initial s') :
    CanExhaust loop initial s := by
  obtain ⟨es, s'', hdrains, hrun, hexhausted⟩ := h
  exact ⟨e :: es, s'', List.forall_mem_cons.mpr ⟨hdrain, hdrains⟩,
    (System.run_cons_of_step hstep es).trans hrun, hexhausted⟩

omit [DecidableEq ε] in
/-- A drain that hangs is the only one. -/
theorem DrainInv.halted (hd : DrainInv s) {i entry : Nat}
    (hget : s.drains[i]? = some (.executing entry)) :
    Halted True { s with stuck := s.stuck ++ [i] } := by
  obtain ⟨hactive, hstarting, hadmitted, -, halone⟩ := hd.alone hget rfl
  have hmem : i ∈ s.stuck ++ [i] := List.mem_append_right _ (List.mem_singleton.mpr rfl)
  refine ⟨hd.completed_of_active hactive, hactive, hstarting,
    registering_of_halfAdmitted hadmitted, fun j drain hj hlive => ?_,
    fun _ => ⟨i, entry, hget, hmem⟩⟩
  obtain rfl := halone j drain hj hlive
  refine ⟨trivial, hmem, entry, ?_⟩
  rw [show s.drains[j]? = some drain from hj, Option.some.injEq] at hget
  exact hget

/-- As long as the task of a stuck drain is not cancelled, nothing is taken from the deque. -/
theorem Halted.run (hs : Halted True s) {es : List (HandleEvent ρ ε)}
    (hes : ∀ e ∈ es, e.cancelsDrain = false)
    (hrun : (handleSystem ρ ε loop initial).run s es = some s') :
    Halted True s' ∧ s'.handled = s.handled := by
  refine System.run_invariant_under (I := fun t => Halted True t ∧ t.handled = s.handled)
    (fun t e t' ht hne hstep => ?_) ⟨hs, rfl⟩ hes hrun
  obtain ⟨hhalted, -, hhandled⟩ := ht.1.step (fun _ => hne) hstep
  exact ⟨hhalted, hhandled.trans ht.2⟩

end StageHandle

end AgentlyStage
