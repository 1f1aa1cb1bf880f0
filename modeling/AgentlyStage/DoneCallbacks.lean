import Mathlib.Data.List.Perm.Basic
import Mathlib.Data.List.Nodup
import AgentlyStage.Lib.Transition
import AgentlyStage.Lib.Counting

/-!
# Done callbacks

`StageHandle.add_done_callback`, `remove_done_callback` and the completion of the body, each
one critical section of the state lock, and the calls of `_run_done_callbacks` outside it,
which go on callback by callback while other threads act.  Registrations are numbered in the
order in which they are made.

`remove_done_callback` compares functions as objects; `equal` is their Python equality, which
the code does not ask for.  A context can be entered once at a time: one that the caller has
supplied may be entered elsewhere, a copied one is known to its registration alone.  A
callback returns or raises, which is logged: its end is one event.
-/

namespace AgentlyStage

open Transition

/-! ## 1. Registrations and the calls that run them -/

/-- The context of a registration: its own copy, or the one passed to `add_done_callback`. -/
inductive DoneContext where
  | copied (registration : Nat)
  | supplied (name : Nat)
deriving DecidableEq, Repr

/-- `_DoneCallback`. -/
structure DoneCallback (Fn : Type) where
  function : Fn
  context : DoneContext
  active : Bool := true
deriving DecidableEq, Repr

/-- A call of `_run_done_callbacks`: what is left of its tuple, and the registration whose
    function it is in. -/
structure CallbackRunner where
  waiting : List Nat
  running : Option Nat := none
deriving DecidableEq, Repr

/-- A handle with its done callbacks.  `ran`, `counted` and `refused` are the history: whose
    function has been called, whom a `remove_done_callback` has counted, and whose context
    could not be entered. -/
structure DoneState (Fn Out : Type) where
  /-- `_body_completed` and the outcome in `_body_future`. -/
  outcome : Option Out := none
  registrations : List (DoneCallback Fn) := []
  doneCallbacks : List Nat := []
  runners : List CallbackRunner := []
  enteredElsewhere : List Nat := []
  ran : List Nat := []
  counted : List Nat := []
  refused : List Nat := []

namespace DoneState

variable {Fn Out : Type}

section
variable (s : DoneState Fn Out)

def isActive (i : Nat) : Bool := s.registrations[i]?.any DoneCallback.active

/-- A function is running in the context. -/
def runsIn (context : DoneContext) : Bool :=
  s.runners.any fun runner =>
    runner.running.any fun i =>
      s.registrations[i]?.any fun registration => decide (registration.context = context)

/-- The context is entered, so that `Context.run` raises. -/
def isEntered : DoneContext → Bool
  | .copied i => s.runsIn (.copied i)
  | .supplied c => s.runsIn (.supplied c) || decide (c ∈ s.enteredElsewhere)

/-! ## 2. The operations -/

/-- `add_done_callback`: before completion the registration is kept, afterwards it is run. -/
def addDoneCallback (function : Fn) (context : Option Nat) : DoneState Fn Out :=
  let number := s.registrations.length
  let registrations := s.registrations ++
    [⟨function, context.elim (.copied number) .supplied, true⟩]
  match s.outcome with
  | none => { s with registrations, doneCallbacks := s.doneCallbacks ++ [number] }
  | some _ => { s with registrations, runners := s.runners ++ [⟨[number], none⟩] }

/-- The registrations that `remove_done_callback` finds. -/
def matching [DecidableEq Fn] (callback : Fn) : List Nat :=
  s.doneCallbacks.filter fun i => s.registrations[i]?.any fun registration =>
    registration.active && decide (registration.function = callback)

/-- `remove_done_callback`: how many it has removed, and the state afterwards. -/
def removeDoneCallback [DecidableEq Fn] (callback : Fn) : Nat × DoneState Fn Out :=
  let removed := s.matching callback
  (removed.length,
    { s with
      registrations := s.registrations.mapIdx fun i registration =>
        if i ∈ removed then { registration with active := false } else registration
      counted := s.counted ++ removed })

/-- `_set_body_result`, `_set_body_exception`, `_set_body_cancelled` up to the call of
    `_run_done_callbacks`. -/
def setBody (outcome : Out) : DoneState Fn Out :=
  match s.outcome with
  | some _ => s
  | none =>
    { s with
      outcome := some outcome
      doneCallbacks := []
      runners := s.runners ++ [⟨s.doneCallbacks, none⟩] }

/-- The next turn of the loop in `_run_done_callbacks`. -/
def runNext (k : Nat) : Option (DoneState Fn Out) :=
  match s.runners[k]? with
  | some ⟨i :: rest, none⟩ =>
    match s.registrations[i]? with
    | some registration =>
      if ¬ registration.active then some { s with runners := s.runners.set k { waiting := rest } }
      else if s.isEntered registration.context then
        -- the RuntimeError of the context is logged
        some { s with
          runners := s.runners.set k { waiting := rest }
          refused := s.refused ++ [i] }
      else
        some { s with
          runners := s.runners.set k { waiting := rest, running := some i }
          ran := s.ran ++ [i] }
    | none => none
  | _ => none

/-- The callback that the runner is in returns, or raises and is logged. -/
def callbackEnds (k : Nat) : Option (DoneState Fn Out) :=
  match s.runners[k]? with
  | some ⟨waiting, some _⟩ => some { s with runners := s.runners.set k { waiting } }
  | _ => none

/-- Other code enters one of its contexts. -/
def enterContext (c : Nat) : Option (DoneState Fn Out) :=
  if s.isEntered (.supplied c) then none
  else some { s with enteredElsewhere := c :: s.enteredElsewhere }

def leaveContext (c : Nat) : Option (DoneState Fn Out) :=
  if c ∈ s.enteredElsewhere then some { s with enteredElsewhere := s.enteredElsewhere.erase c }
  else none

end

/-! ## 3. Where a registration is -/

variable {s s' : DoneState Fn Out} {i k : Nat}

/-- What the calls of `_run_done_callbacks` still have before them. -/
def waiting (s : DoneState Fn Out) : List Nat := s.runners.flatMap CallbackRunner.waiting

/-- The registrations that have been run, have been refused by their context, are kept until
    completion, or wait for their turn. -/
def ledger (s : DoneState Fn Out) : List Nat :=
  s.ran ++ (s.refused ++ (s.doneCallbacks ++ s.waiting))

theorem mem_ledger : i ∈ s.ledger ↔
    i ∈ s.ran ∨ i ∈ s.refused ∨ i ∈ s.doneCallbacks ∨ i ∈ s.waiting := by
  simp only [ledger, List.mem_append]

/-- Taking the head of a runner's tuple takes it from what waits. -/
theorem waiting_set {rest : List Nat} {running : Option Nat} (running' : Option Nat)
    (h : s.runners[k]? = some ⟨i :: rest, running⟩) :
    (i :: (s.runners.set k ⟨rest, running'⟩).flatMap CallbackRunner.waiting).Perm s.waiting := by
  have hset := flatMap_set_perm (y := ⟨rest, running'⟩) (f := CallbackRunner.waiting) h
  refine (List.perm_append_right_iff rest).mp (List.Perm.trans ?_ hset)
  exact List.perm_middle.symm

theorem runsIn_iff {context : DoneContext} : s.runsIn context = true ↔
    ∃ runner ∈ s.runners, ∃ i registration, runner.running = some i ∧
      s.registrations[i]? = some registration ∧ registration.context = context := by
  simp only [runsIn, List.any_eq_true, Option.any_eq_true, decide_eq_true_eq]
  constructor
  · rintro ⟨runner, hrunner, i, hrunning, registration, hget, hcontext⟩
    exact ⟨runner, hrunner, i, registration, hrunning, hget, hcontext⟩
  · rintro ⟨runner, hrunner, i, registration, hrunning, hget, hcontext⟩
    exact ⟨runner, hrunner, i, hrunning, registration, hget, hcontext⟩

theorem runNext_cases (h : s.runNext k = some s') :
    ∃ i rest registration, s.runners[k]? = some ⟨i :: rest, none⟩ ∧
      s.registrations[i]? = some registration ∧
      (registration.active = false ∧ s' = { s with runners := s.runners.set k ⟨rest, none⟩ } ∨
        registration.active = true ∧ s.isEntered registration.context = true ∧
          s' = { s with
            runners := s.runners.set k ⟨rest, none⟩
            refused := s.refused ++ [i] } ∨
        registration.active = true ∧ s.isEntered registration.context = false ∧
          s' = { s with
            runners := s.runners.set k ⟨rest, some i⟩
            ran := s.ran ++ [i] }) := by
  unfold runNext at h
  split at h
  · rename_i i rest hrunner
    split at h
    · rename_i registration hget
      refine ⟨i, rest, registration, hrunner, hget, ?_⟩
      split at h
      · rename_i hactive
        cases h
        exact Or.inl ⟨Bool.eq_false_iff.mpr hactive, rfl⟩
      · rename_i hactive
        rw [not_not] at hactive
        split at h
        · rename_i hentered
          cases h
          exact Or.inr (Or.inl ⟨hactive, hentered, rfl⟩)
        · rename_i hentered
          cases h
          exact Or.inr (Or.inr ⟨hactive, Bool.eq_false_iff.mpr hentered, rfl⟩)
    · cases h
  · cases h

theorem callbackEnds_cases (h : s.callbackEnds k = some s') :
    ∃ waiting i, s.runners[k]? = some ⟨waiting, some i⟩ ∧
      s' = { s with runners := s.runners.set k ⟨waiting, none⟩ } := by
  unfold callbackEnds at h
  split at h
  · rename_i waiting i hrunner
    cases h
    exact ⟨waiting, i, hrunner, rfl⟩
  · cases h

/-! ## 4. The invariant -/

/-- Every registration is in one place, and out of all of them only when it is counted. -/
structure DoneInv (s : DoneState Fn Out) : Prop where
  nodup : s.ledger.Nodup
  bounded : ∀ i ∈ s.ledger, i < s.registrations.length
  active : ∀ i, s.isActive i = true → i ∈ s.ledger
  counted : ∀ i, i ∈ s.counted ↔ i < s.registrations.length ∧ s.isActive i = false
  countedOnce : s.counted.Nodup
  settled : ∀ i, i ∈ s.ran ∨ i ∈ s.refused → s.isActive i = true
  running : ∀ runner ∈ s.runners, ∀ i, runner.running = some i → i ∈ s.ran
  incomplete : s.outcome = none → s.runners = [] ∧ s.ran = [] ∧ s.refused = []
  completed : s.outcome ≠ none → s.doneCallbacks = []
  copied : ∀ i (registration : DoneCallback Fn), s.registrations[i]? = some registration →
    ∀ j, registration.context = .copied j → j = i

namespace DoneInv

theorem init : DoneInv ({} : DoneState Fn Out) :=
  ⟨List.nodup_nil, by simp [ledger, waiting], by simp [isActive], by simp, List.nodup_nil,
    by simp, by simp, fun _ => ⟨rfl, rfl, rfl⟩, by simp, by simp⟩

theorem isActive_of_not_counted (hs : s.DoneInv) (hlt : i < s.registrations.length)
    (h : i ∉ s.counted) : s.isActive i = true := by
  by_contra hactive
  exact h ((hs.counted i).mpr ⟨hlt, Bool.eq_false_iff.mpr hactive⟩)

/-- Nothing changes but the ledger's order, what is running and what other code has
    entered. -/
theorem of_perm (hs : s.DoneInv) (hregistrations : s'.registrations = s.registrations)
    (hcounted : s'.counted = s.counted) (hledger : s'.ledger.Perm s.ledger)
    (hsettled : ∀ i, i ∈ s'.ran ∨ i ∈ s'.refused → s.isActive i = true)
    (hrunning : ∀ runner ∈ s'.runners, ∀ i, runner.running = some i → i ∈ s'.ran)
    (hincomplete : s'.outcome = none → s'.runners = [] ∧ s'.ran = [] ∧ s'.refused = [])
    (hcompleted : s'.outcome ≠ none → s'.doneCallbacks = []) : s'.DoneInv := by
  have hactive : ∀ i, s'.isActive i = s.isActive i := by
    intro i
    rw [isActive, hregistrations]
    rfl
  refine ⟨hledger.nodup_iff.mpr hs.nodup, ?_, ?_, ?_, ?_, ?_, hrunning, hincomplete, hcompleted, ?_⟩
  · intro i hi
    rw [hregistrations]
    exact hs.bounded i (hledger.mem_iff.mp hi)
  · intro i hi
    rw [hactive] at hi
    exact hledger.mem_iff.mpr (hs.active i hi)
  · intro i
    rw [hcounted, hregistrations, hactive]
    exact hs.counted i
  · rw [hcounted]
    exact hs.countedOnce
  · intro i hi
    rw [hactive]
    exact hsettled i hi
  · rw [hregistrations]
    exact hs.copied

theorem isActive_append {registration : DoneCallback Fn} (hi : i < s.registrations.length) :
    (s.registrations ++ [registration])[i]?.any DoneCallback.active = s.isActive i := by
  rw [List.getElem?_append_left hi]
  rfl

theorem lt_of_isActive (h : s.isActive i = true) : i < s.registrations.length := by
  by_contra hge
  rw [isActive, List.getElem?_eq_none (by omega)] at h
  cases h

/-- A new registration, wherever it goes. -/
theorem register (hs : s.DoneInv) {function : Fn} {context : Option Nat}
    (hregistrations : s'.registrations = s.registrations ++
      [⟨function, context.elim (.copied s.registrations.length) .supplied, true⟩])
    (hcounted : s'.counted = s.counted)
    (hledger : s'.ledger.Perm (s.registrations.length :: s.ledger))
    (hran : s'.ran = s.ran) (hrefused : s'.refused = s.refused)
    (hrunning : ∀ runner ∈ s'.runners, ∀ i, runner.running = some i → i ∈ s'.ran)
    (hincomplete : s'.outcome = none → s'.runners = [] ∧ s'.ran = [] ∧ s'.refused = [])
    (hcompleted : s'.outcome ≠ none → s'.doneCallbacks = []) : s'.DoneInv := by
  have hlength : s'.registrations.length = s.registrations.length + 1 := by
    rw [hregistrations, List.length_append]
    rfl
  have hactive : ∀ i < s.registrations.length, s'.isActive i = s.isActive i := by
    intro i hi
    rw [isActive, hregistrations]
    exact isActive_append hi
  have hnew : s'.isActive s.registrations.length = true := by
    rw [isActive, hregistrations, List.getElem?_concat_length]
    rfl
  refine ⟨hledger.nodup_iff.mpr (List.nodup_cons.mpr ⟨fun h => ?_, hs.nodup⟩), ?_, ?_, ?_, ?_, ?_,
    hrunning, hincomplete, hcompleted, ?_⟩
  · exact Nat.lt_irrefl _ (hs.bounded _ h)
  · intro i hi
    rw [hlength]
    rcases List.mem_cons.mp (hledger.mem_iff.mp hi) with rfl | hi
    · exact Nat.lt_succ_self _
    · exact Nat.lt_succ_of_lt (hs.bounded i hi)
  · intro i hi
    refine hledger.mem_iff.mpr (List.mem_cons.mpr ?_)
    have hlt := lt_of_isActive hi
    rw [hlength] at hlt
    rcases Nat.lt_succ_iff_lt_or_eq.mp hlt with hlt | rfl
    · rw [hactive i hlt] at hi
      exact Or.inr (hs.active i hi)
    · exact Or.inl rfl
  · intro i
    rw [hcounted, hs.counted, hlength]
    constructor
    · rintro ⟨hlt, hi⟩
      exact ⟨Nat.lt_succ_of_lt hlt, (hactive i hlt).trans hi⟩
    · rintro ⟨hlt, hi⟩
      rcases Nat.lt_succ_iff_lt_or_eq.mp hlt with hlt | rfl
      · exact ⟨hlt, (hactive i hlt).symm.trans hi⟩
      · rw [hnew] at hi
        cases hi
  · rw [hcounted]
    exact hs.countedOnce
  · intro i hi
    rw [hran, hrefused] at hi
    have h := hs.settled i hi
    rw [hactive i (lt_of_isActive h)]
    exact h
  · intro i registration hget j hj
    rw [hregistrations] at hget
    rcases getElem?_append_cases hget with ⟨rfl, rfl⟩ | hget
    · cases context with
      | none => exact (DoneContext.copied.inj hj).symm
      | some c => cases hj
    · exact hs.copied i registration hget j hj

theorem addDoneCallback (hs : s.DoneInv) (function : Fn) (context : Option Nat) :
    (s.addDoneCallback function context).DoneInv := by
  unfold DoneState.addDoneCallback
  split
  · rename_i hnone
    obtain ⟨hrunners, hran, hrefused⟩ := hs.incomplete hnone
    refine hs.register rfl rfl ?_ rfl rfl hs.running (fun _ => ⟨hrunners, hran, hrefused⟩)
      fun h => absurd hnone h
    simp only [ledger, waiting, hran, hrefused, hrunners, List.nil_append, List.flatMap_nil,
      List.append_nil]
    exact List.perm_append_singleton _ _
  · rename_i out hsome
    refine hs.register rfl rfl ?_ rfl rfl ?_ (fun h => ?_) hs.completed
    · simp only [ledger, waiting, List.flatMap_append, List.flatMap_singleton, ← List.append_assoc]
      exact List.perm_append_singleton _ _
    · intro runner hrunner i hi
      rcases List.mem_append.mp hrunner with h | h
      · exact hs.running runner h i hi
      · rw [List.mem_singleton.mp h] at hi
        cases hi
    · rw [hsome] at h
      cases h

theorem setBody (hs : s.DoneInv) (outcome : Out) : (s.setBody outcome).DoneInv := by
  unfold DoneState.setBody
  split
  · exact hs
  · rename_i hnone
    obtain ⟨hrunners, hran, hrefused⟩ := hs.incomplete hnone
    refine hs.of_perm rfl rfl ?_ hs.settled ?_ (fun h => by cases h) fun _ => rfl
    · simp only [ledger, waiting, hrunners, List.nil_append, List.flatMap_nil, List.append_nil,
        List.flatMap_singleton]
      rfl
    · intro runner hrunner i hi
      rw [hrunners, List.nil_append, List.mem_singleton] at hrunner
      rw [hrunner] at hi
      cases hi

theorem isActive_of_getElem? {registration : DoneCallback Fn}
    (h : s.registrations[i]? = some registration) : s.isActive i = registration.active := by
  rw [isActive, h]
  rfl

/-- The ledger when runner `k` takes `i`. -/
theorem ledger_take {rest : List Nat} {running : Option Nat} (running' : Option Nat)
    (h : s.runners[k]? = some ⟨i :: rest, running⟩) :
    (s.ran ++ (s.refused ++ (s.doneCallbacks ++
      (i :: (s.runners.set k ⟨rest, running'⟩).flatMap CallbackRunner.waiting)))).Perm s.ledger :=
  (((waiting_set running' h).append_left _).append_left _).append_left _

/-- The runners after runner `k` has gone on. -/
theorem running_set (hs : s.DoneInv) {runner' : CallbackRunner} {ran : List Nat}
    (hran : ∀ i ∈ s.ran, i ∈ ran)
    (hnew : ∀ i, runner'.running = some i → i ∈ ran) :
    ∀ r ∈ s.runners.set k runner', ∀ i, r.running = some i → i ∈ ran := by
  intro r hr i hi
  rcases List.mem_or_eq_of_mem_set hr with h | rfl
  · exact hran i (hs.running r h i hi)
  · exact hnew i hi

theorem outcome_ne_none (hs : s.DoneInv) {runner : CallbackRunner}
    (hrunner : s.runners[k]? = some runner) : s.outcome ≠ none := by
  intro h
  rw [(hs.incomplete h).1] at hrunner
  cases hrunner

theorem runNext (hs : s.DoneInv) (h : s.runNext k = some s') : s'.DoneInv := by
  obtain ⟨i, rest, registration, hrunner, hget, hcases⟩ := runNext_cases h
  have houtcome := hs.outcome_ne_none hrunner
  have hactive := isActive_of_getElem? hget
  rcases hcases with ⟨hinactive, rfl⟩ | ⟨htrue, -, rfl⟩ | ⟨htrue, -, rfl⟩
  · -- an inactive registration leaves the ledger
    have hledger : (i :: ledger { s with runners := s.runners.set k ⟨rest, none⟩ }).Perm
        s.ledger := by
      refine List.Perm.trans ?_ (ledger_take none hrunner)
      simp only [ledger, waiting]
      exact List.perm_middle.symm.trans ((List.perm_middle.symm.trans
        (List.perm_middle.symm.append_left _)).append_left _)
    have hnodup := List.nodup_cons.mp (hledger.nodup_iff.mpr hs.nodup)
    refine ⟨hnodup.2, fun j hj => hs.bounded j (hledger.mem_iff.mp (List.mem_cons_of_mem _ hj)),
      fun j hj => ?_, hs.counted, hs.countedOnce, hs.settled,
      hs.running_set (fun _ h => h) (fun j hj => by cases hj),
      fun h => absurd h houtcome, hs.completed, hs.copied⟩
    rcases List.mem_cons.mp (hledger.mem_iff.mpr (hs.active j hj)) with rfl | hj'
    · have hsame : s.isActive j = false := hactive.trans hinactive
      exact absurd (hsame.symm.trans hj) Bool.false_ne_true
    · exact hj'
  · refine hs.of_perm rfl rfl ?_ ?_
      (hs.running_set (fun _ h => h) (fun j hj => by cases hj))
      (fun h => absurd h houtcome) hs.completed
    · refine List.Perm.trans ?_ (ledger_take none hrunner)
      simp only [ledger, waiting, List.append_assoc, List.singleton_append]
      exact (List.perm_middle.symm.append_left _).append_left _
    · rintro j (hj | hj)
      · exact hs.settled j (Or.inl hj)
      · rcases List.mem_append.mp hj with hj | hj
        · exact hs.settled j (Or.inr hj)
        · rw [List.mem_singleton.mp hj]
          exact hactive.trans htrue
  · refine hs.of_perm rfl rfl ?_ ?_
      (hs.running_set (fun _ h => List.mem_append_left _ h) (fun j hj => ?_))
      (fun h => absurd h houtcome) hs.completed
    · refine List.Perm.trans ?_ (ledger_take (some i) hrunner)
      simp only [ledger, waiting, List.append_assoc, List.singleton_append]
      exact (List.perm_middle.symm.trans (List.perm_middle.symm.append_left _)).append_left _
    · rintro j (hj | hj)
      · rcases List.mem_append.mp hj with hj | hj
        · exact hs.settled j (Or.inl hj)
        · rw [List.mem_singleton.mp hj]
          exact hactive.trans htrue
      · exact hs.settled j (Or.inr hj)
    · cases hj
      exact List.mem_append_right _ (List.mem_singleton_self _)

theorem callbackEnds (hs : s.DoneInv) (h : s.callbackEnds k = some s') : s'.DoneInv := by
  obtain ⟨waiting, i, hrunner, rfl⟩ := callbackEnds_cases h
  refine hs.of_perm rfl rfl ?_ hs.settled
    (hs.running_set (fun _ h => h) (fun j hj => by cases hj))
    (fun h => absurd h (hs.outcome_ne_none hrunner)) hs.completed
  have hset := flatMap_set_perm (y := ⟨waiting, none⟩) (f := CallbackRunner.waiting) hrunner
  exact ((((List.perm_append_right_iff waiting).mp hset).append_left _).append_left _).append_left _

theorem withEntered (hs : s.DoneInv) (entered : List Nat) :
    DoneInv { s with enteredElsewhere := entered } :=
  hs.of_perm rfl rfl (List.Perm.refl _) hs.settled hs.running hs.incomplete hs.completed

theorem isActive_removeDoneCallback [DecidableEq Fn] (callback : Fn) (i : Nat) :
    (s.removeDoneCallback callback).2.isActive i =
      (s.isActive i && decide (i ∉ s.matching callback)) := by
  simp only [isActive, DoneState.removeDoneCallback, List.getElem?_mapIdx]
  cases s.registrations[i]? with
  | none => rfl
  | some registration => by_cases h : i ∈ s.matching callback <;> simp [h]

theorem matching_active [DecidableEq Fn] {callback : Fn} (h : i ∈ s.matching callback) :
    i ∈ s.doneCallbacks ∧ s.isActive i = true := by
  obtain ⟨hmem, h⟩ := List.mem_filter.mp h
  refine ⟨hmem, ?_⟩
  rw [isActive]
  cases hget : s.registrations[i]? with
  | none =>
    rw [hget] at h
    cases h
  | some registration =>
    rw [hget] at h
    simp only [Option.any_some, Bool.and_eq_true] at h
    exact h.1

theorem removeDoneCallback [DecidableEq Fn] (hs : s.DoneInv) (callback : Fn) :
    (s.removeDoneCallback callback).2.DoneInv := by
  have hlength : (s.removeDoneCallback callback).2.registrations.length =
      s.registrations.length := List.length_mapIdx
  -- what is kept until completion has not been run
  have hdisjoint : ∀ i ∈ s.doneCallbacks, i ∉ s.ran ∧ i ∉ s.refused := by
    intro i hi
    obtain ⟨-, hrest, hran⟩ := List.nodup_append'.mp hs.nodup
    obtain ⟨-, -, hrefused⟩ := List.nodup_append'.mp hrest
    refine ⟨fun h => hran h ?_, fun h => hrefused h (List.mem_append_left _ hi)⟩
    exact List.mem_append_right _ (List.mem_append_left _ hi)
  have hnodup : s.doneCallbacks.Nodup := by
    obtain ⟨-, hrest, -⟩ := List.nodup_append'.mp hs.nodup
    obtain ⟨-, hrest, -⟩ := List.nodup_append'.mp hrest
    exact (List.nodup_append'.mp hrest).1
  refine ⟨hs.nodup, fun i hi => hlength.symm ▸ hs.bounded i hi, fun i hi => ?_, fun i => ?_, ?_,
    fun i hi => ?_, hs.running, hs.incomplete, hs.completed, ?_⟩
  · rw [isActive_removeDoneCallback, Bool.and_eq_true] at hi
    exact hs.active i hi.1
  · rw [isActive_removeDoneCallback, hlength]
    change i ∈ s.counted ++ s.matching callback ↔ _
    rw [List.mem_append, hs.counted]
    constructor
    · rintro (⟨hlt, hi⟩ | hi)
      · exact ⟨hlt, by rw [hi]; rfl⟩
      · exact ⟨lt_of_isActive (matching_active hi).2, by simp [hi]⟩
    · rintro ⟨hlt, hi⟩
      rw [Bool.and_eq_false_iff] at hi
      rcases hi with hi | hi
      · exact Or.inl ⟨hlt, hi⟩
      · exact Or.inr (by simpa using hi)
  · change (s.counted ++ s.matching callback).Nodup
    refine List.nodup_append'.mpr ⟨hs.countedOnce, hnodup.filter _, fun i hi hi' => ?_⟩
    have hfalse := ((hs.counted i).mp hi).2
    rw [(matching_active hi').2] at hfalse
    cases hfalse
  · rw [isActive_removeDoneCallback, hs.settled i hi]
    have hnot : i ∉ s.matching callback := by
      intro h
      obtain ⟨hran, hrefused⟩ := hdisjoint i (matching_active h).1
      exact hi.elim hran hrefused
    simp [hnot]
  · intro i registration hget j hj
    simp only [DoneState.removeDoneCallback, List.getElem?_mapIdx, Option.map_eq_some_iff] at hget
    obtain ⟨old, hold, rfl⟩ := hget
    refine hs.copied i old hold j ?_
    split at hj
    · exact hj
    · exact hj

end DoneInv

end DoneState

/-! ## 5. Runs -/

inductive DoneEvent (Fn Out : Type) where
  | addDoneCallback (function : Fn) (context : Option Nat)
  | removeDoneCallback (callback : Fn)
  | setBody (outcome : Out)
  | runNext (k : Nat)
  | callbackEnds (k : Nat)
  | enterContext (c : Nat)
  | leaveContext (c : Nat)

namespace DoneState

variable {Fn Out : Type} [DecidableEq Fn] {s s' : DoneState Fn Out} {i k : Nat}

def step (s : DoneState Fn Out) : DoneEvent Fn Out → Option (DoneState Fn Out)
  | .addDoneCallback function context => some (s.addDoneCallback function context)
  | .removeDoneCallback callback => some (s.removeDoneCallback callback).2
  | .setBody outcome => some (s.setBody outcome)
  | .runNext k => s.runNext k
  | .callbackEnds k => s.callbackEnds k
  | .enterContext c => s.enterContext c
  | .leaveContext c => s.leaveContext c

/-- The steps of all threads on one handle. -/
def system (Fn Out : Type) [DecidableEq Fn] : System (DoneState Fn Out) (DoneEvent Fn Out) where
  Init s := s = {}
  step := step

theorem DoneInv.step {e : DoneEvent Fn Out} (hs : s.DoneInv)
    (h : s.step e = some s') : s'.DoneInv := by
  cases e with
  | addDoneCallback function context =>
    cases h
    exact hs.addDoneCallback function context
  | removeDoneCallback callback =>
    cases h
    exact hs.removeDoneCallback callback
  | setBody outcome =>
    cases h
    exact hs.setBody outcome
  | runNext k => exact hs.runNext h
  | callbackEnds k => exact hs.callbackEnds h
  | enterContext c =>
    simp only [DoneState.step, enterContext] at h
    split at h
    · cases h
    · cases h
      exact hs.withEntered _
  | leaveContext c =>
    simp only [DoneState.step, leaveContext] at h
    split at h
    · cases h
      exact hs.withEntered _
    · cases h

theorem reachable_inv (hs : (system Fn Out).Reachable s) : s.DoneInv := by
  refine hs.invariant (I := fun s => s.DoneInv) ?_ fun _ _ _ hi _ h => hi.step h
  rintro _ rfl
  exact DoneInv.init

/-! ## 6. The contract -/

section
variable (equal : Fn → Fn → Bool)

/-- The registrations of a handle whose function equals the callback. -/
def equalTo (s : DoneState Fn Out) (callback : Fn) : List Nat :=
  s.doneCallbacks.filter fun i => s.registrations[i]?.any fun registration =>
    registration.active && equal registration.function callback

/-- `remove_done_callback` counts and removes them. -/
def Removes (s : DoneState Fn Out) (callback : Fn) : Prop :=
  (s.removeDoneCallback callback).1 = (s.equalTo equal callback).length ∧
    (s.removeDoneCallback callback).2.counted = s.counted ++ s.equalTo equal callback

/-- The turn of registration `i` in runner `k` finds its context entered. -/
def Refuses (s : DoneState Fn Out) (k i : Nat) : Prop :=
  ∃ rest registration, s.runners[k]? = some ⟨i :: rest, none⟩ ∧
    s.registrations[i]? = some registration ∧ registration.active = true ∧
    s.isEntered registration.context = true

/-- The steps that break the contract: a removal that finds a function which is equal but
    not the same object (or the same and not equal to itself), and the turn of a registration
    whose context is entered. -/
def Mistakes (s : DoneState Fn Out) : DoneEvent Fn Out → Prop
  | .removeDoneCallback callback => ∃ i registration, i ∈ s.doneCallbacks ∧
      s.registrations[i]? = some registration ∧ registration.active = true ∧
      ¬ (registration.function = callback ↔ equal registration.function callback = true)
  | .runNext k => ∃ i, s.Refuses k i
  | _ => False

end

/-- A step of a call of `_run_done_callbacks`, or of the callback it is in. -/
def IsTurn : DoneEvent Fn Out → Prop
  | .runNext _ | .callbackEnds _ => True
  | _ => False

/-- What holds of every registration at any time. -/
structure DoneContract (s : DoneState Fn Out) : Prop where
  once : s.ran.Nodup
  afterOutcome : s.ran ≠ [] → s.outcome ≠ none
  removed : ∀ i ∈ s.counted, i ∉ s.ran
  /-- It has been counted or run, is kept until completion, or waits for its turn. -/
  served : ∀ i < s.registrations.length, i ∈ s.counted ∨ i ∈ s.ran ∨
    (s.outcome = none ∧ i ∈ s.doneCallbacks) ∨ i ∈ s.waiting
  /-- What waits can go on. -/
  goesOn : s.waiting ≠ [] → ∃ e s', IsTurn e ∧ s.step e = some s'
  /-- When the callbacks end, the calls that run them do. -/
  ends : ∃ bound, ∀ es s', (∀ e ∈ es, IsTurn e) → (system Fn Out).run s es = some s' →
    es.length ≤ bound

/-- A runner that has not ended can go on. -/
theorem runner_goesOn (hs : s.DoneInv) {runner : CallbackRunner}
    (hrunner : s.runners[k]? = some runner) (h : runner.waiting ≠ []) :
    ∃ e s', IsTurn e ∧ s.step e = some s' := by
  obtain ⟨waiting, running⟩ := runner
  cases running with
  | some i =>
    refine ⟨.callbackEnds k, { s with runners := s.runners.set k ⟨waiting, none⟩ }, trivial, ?_⟩
    simp only [step, callbackEnds, hrunner]
  | none =>
    cases waiting with
    | nil => exact absurd rfl h
    | cons i rest =>
      have hmem : i ∈ s.waiting :=
        List.mem_flatMap.mpr ⟨_, List.mem_of_getElem? hrunner, List.mem_cons_self⟩
      have hlt := hs.bounded i (mem_ledger.mpr (Or.inr (Or.inr (Or.inr hmem))))
      have hget : s.registrations[i]? = some s.registrations[i] := List.getElem?_eq_getElem hlt
      have hnext : ∃ s', s.runNext k = some s' := by
        unfold runNext
        rw [hrunner]
        dsimp only
        rw [hget]
        dsimp only
        split
        · exact ⟨_, rfl⟩
        · split
          · exact ⟨_, rfl⟩
          · exact ⟨_, rfl⟩
      obtain ⟨s', hnext⟩ := hnext
      exact ⟨.runNext k, s', trivial, hnext⟩

/-- The turns that are left. -/
def workLeft (s : DoneState Fn Out) : Nat :=
  2 * s.waiting.length + s.runners.countP fun runner => runner.running.isSome

theorem workLeft_turn {e : DoneEvent Fn Out} (he : IsTurn e) (h : s.step e = some s') :
    s'.workLeft < s.workLeft := by
  cases e with
  | runNext k =>
    obtain ⟨i, rest, registration, hrunner, -, hcases⟩ := runNext_cases h
    have hlength : ∀ running, ((s.runners.set k ⟨rest, running⟩).flatMap
        CallbackRunner.waiting).length + 1 = s.waiting.length :=
      fun running => (waiting_set running hrunner).length_eq
    have hcount := fun running => countP_set_add (y := (⟨rest, running⟩ : CallbackRunner))
      (p := fun runner => runner.running.isSome) hrunner
    rcases hcases with ⟨-, rfl⟩ | ⟨-, -, rfl⟩ | ⟨-, -, rfl⟩
    · have h1 := hlength none
      have h2 := hcount none
      simp only [workLeft, waiting, Option.isSome_none, Bool.toNat_false] at h1 h2 ⊢
      omega
    · have h1 := hlength none
      have h2 := hcount none
      simp only [workLeft, waiting, Option.isSome_none, Bool.toNat_false] at h1 h2 ⊢
      omega
    · have h1 := hlength (some i)
      have h2 := hcount (some i)
      simp only [workLeft, waiting, Option.isSome_none, Option.isSome_some, Bool.toNat_false,
        Bool.toNat_true] at h1 h2 ⊢
      omega
  | callbackEnds k =>
    obtain ⟨waiting, i, hrunner, rfl⟩ := callbackEnds_cases h
    have hset := flatMap_set_perm (y := ⟨waiting, none⟩) (f := CallbackRunner.waiting) hrunner
    have h1 := ((List.perm_append_right_iff waiting).mp hset).length_eq
    have h2 := countP_set_add (y := (⟨waiting, none⟩ : CallbackRunner))
      (p := fun runner => runner.running.isSome) hrunner
    simp only [workLeft, DoneState.waiting, Option.isSome_none, Option.isSome_some,
      Bool.toNat_false, Bool.toNat_true] at h1 h2 ⊢
    omega
  | addDoneCallback function context => cases he
  | removeDoneCallback callback => cases he
  | setBody outcome => cases he
  | enterContext c => cases he
  | leaveContext c => cases he

/-! ## 7. When the contract holds -/

variable {equal : Fn → Fn → Bool} {callback : Fn}

/-- A removal is right exactly when it is no mistake. -/
theorem removes_iff :
    s.Removes equal callback ↔ ¬ s.Mistakes equal (.removeDoneCallback callback) := by
  constructor
  · rintro ⟨-, hcounted⟩ ⟨i, registration, hmem, hget, hactive, hne⟩
    have hsame : s.matching callback = s.equalTo equal callback :=
      List.append_cancel_left hcounted
    refine hne ?_
    have hmatch : i ∈ s.matching callback ↔ registration.function = callback := by
      simp [matching, hmem, hget, hactive]
    have hequal : i ∈ s.equalTo equal callback ↔ equal registration.function callback = true := by
      simp [equalTo, hmem, hget, hactive]
    rw [← hmatch, ← hequal, hsame]
  · intro h
    have hsame : s.matching callback = s.equalTo equal callback := by
      refine List.filter_congr fun i hi => ?_
      cases hget : s.registrations[i]? with
      | none => rfl
      | some registration =>
        simp only [Option.any_some]
        cases hactive : registration.active with
        | false => rfl
        | true =>
          by_contra hne
          refine h ⟨i, registration, hi, hget, hactive, fun hiff => hne ?_⟩
          rw [Bool.eq_iff_iff]
          simpa using hiff
    exact ⟨congrArg List.length hsame, congrArg (s.counted ++ ·) hsame⟩

omit [DecidableEq Fn] in
/-- Only a context that the caller has supplied can be entered when its turn comes. -/
theorem Refuses.supplied (h : s.Refuses k i) (hs : s.DoneInv) :
    ∃ registration c, s.registrations[i]? = some registration ∧
      registration.context = .supplied c := by
  obtain ⟨rest, registration, hrunner, hget, -, hentered⟩ := h
  cases hcontext : registration.context with
  | supplied c => exact ⟨registration, c, hget, hcontext⟩
  | copied j =>
    obtain rfl := hs.copied i registration hget j hcontext
    rw [hcontext, isEntered, runsIn_iff] at hentered
    obtain ⟨runner, hmem, m, other, hrunning, hother, hcopied⟩ := hentered
    obtain rfl := hs.copied m other hother j hcopied
    -- it would have been run already
    have hran := hs.running runner hmem j hrunning
    obtain ⟨-, -, hdisjoint⟩ := List.nodup_append'.mp hs.nodup
    have hwaiting : j ∈ s.waiting :=
      List.mem_flatMap.mpr ⟨_, List.mem_of_getElem? hrunner, List.mem_cons_self⟩
    exact absurd (List.mem_append_right _ (List.mem_append_right _ hwaiting)) (hdisjoint hran)

/-- A registration is refused only at its turn. -/
theorem step_refused {e : DoneEvent Fn Out} (h : s.step e = some s') :
    s'.refused = s.refused ∨
      ∃ k i, e = .runNext k ∧ s.Refuses k i ∧ s'.refused = s.refused ++ [i] := by
  cases e with
  | addDoneCallback function context =>
    cases h
    unfold addDoneCallback
    split
    · exact Or.inl rfl
    · exact Or.inl rfl
  | removeDoneCallback callback =>
    cases h
    exact Or.inl rfl
  | setBody outcome =>
    cases h
    unfold setBody
    split
    · exact Or.inl rfl
    · exact Or.inl rfl
  | runNext k =>
    obtain ⟨i, rest, registration, hrunner, hget, hcases⟩ := runNext_cases h
    rcases hcases with ⟨-, rfl⟩ | ⟨hactive, hentered, rfl⟩ | ⟨-, -, rfl⟩
    · exact Or.inl rfl
    · exact Or.inr ⟨k, i, rfl, ⟨rest, registration, hrunner, hget, hactive, hentered⟩, rfl⟩
    · exact Or.inl rfl
  | callbackEnds k =>
    obtain ⟨waiting, i, -, rfl⟩ := callbackEnds_cases h
    exact Or.inl rfl
  | enterContext c =>
    simp only [step, enterContext] at h
    split at h
    · cases h
    · cases h
      exact Or.inl rfl
  | leaveContext c =>
    simp only [step, leaveContext] at h
    split at h
    · cases h
      exact Or.inl rfl
    · cases h

theorem Refuses.refused (h : s.Refuses k i) (hstep : s.step (.runNext k) = some s') :
    i ∈ s'.refused := by
  obtain ⟨rest, registration, hrunner, hget, hactive, hentered⟩ := h
  simp only [step, runNext, hrunner, hget, hactive, hentered, not_true_eq_false, if_false,
    if_true, Option.some.injEq] at hstep
  rw [← hstep]
  exact List.mem_append_right _ (List.mem_singleton_self _)

/-- What has been refused is never run, nor counted. -/
theorem refused_run {es : List (DoneEvent Fn Out)} (hs : s.DoneInv) (hi : i ∈ s.refused)
    (hrun : (system Fn Out).run s es = some s') : i ∉ s'.ran ∧ i ∉ s'.counted := by
  obtain ⟨hinv, hrefused⟩ := System.run_invariant
    (I := fun s : DoneState Fn Out => s.DoneInv ∧ i ∈ s.refused)
    (fun s e s' hs h => ⟨hs.1.step h, by
      rcases step_refused h with hsame | ⟨k, j, -, -, hnew⟩
      · exact hsame ▸ hs.2
      · exact hnew ▸ List.mem_append_left _ hs.2⟩)
    ⟨hs, hi⟩ hrun
  constructor
  · intro hran
    obtain ⟨-, -, hdisjoint⟩ := List.nodup_append'.mp hinv.nodup
    exact hdisjoint hran (List.mem_append_left _ hrefused)
  · intro hcounted
    have hactive := hinv.settled i (Or.inr hrefused)
    rw [((hinv.counted i).mp hcounted).2] at hactive
    cases hactive

/-- The contract holds where no context has refused. -/
theorem DoneInv.contract (hs : s.DoneInv) (hrefused : s.refused = []) : s.DoneContract where
  once := (List.nodup_append'.mp hs.nodup).1
  afterOutcome := fun hran hnone => hran (hs.incomplete hnone).2.1
  removed := by
    intro i hi hran
    have hactive := hs.settled i (Or.inl hran)
    rw [((hs.counted i).mp hi).2] at hactive
    cases hactive
  served := by
    intro i hlt
    by_cases hcounted : i ∈ s.counted
    · exact Or.inl hcounted
    · have hactive := hs.isActive_of_not_counted hlt hcounted
      rcases mem_ledger.mp (hs.active i hactive) with h | h | h | h
      · exact Or.inr (Or.inl h)
      · rw [hrefused] at h
        cases h
      · refine Or.inr (Or.inr (Or.inl ⟨?_, h⟩))
        by_contra hne
        rw [hs.completed hne] at h
        cases h
      · exact Or.inr (Or.inr (Or.inr h))
  goesOn := by
    intro hwaiting
    obtain ⟨i, hi⟩ := List.exists_mem_of_ne_nil _ hwaiting
    obtain ⟨runner, hmem, hi⟩ := List.mem_flatMap.mp hi
    obtain ⟨k, hrunner⟩ := List.mem_iff_getElem?.mp hmem
    exact runner_goesOn hs hrunner (List.ne_nil_of_mem hi)
  ends := by
    refine ⟨s.workLeft, fun es s' hes hrun => ?_⟩
    have h := System.run_variant (I := fun _ => True) workLeft
      (fun s e s' _ (he : IsTurn e) h => ⟨trivial, workLeft_turn he h⟩) trivial hes hrun
    omega

/-- **Done callbacks.**  In every run without a mistake each registration is run exactly once,
    after the outcome is set, unless it has been counted: then never.  A removal counts the
    registrations whose function equals the callback exactly when it is no mistake; a
    registration that is refused by its context is never run and never counted. -/
theorem done_callbacks_iff (equal : Fn → Fn → Bool) :
    (∀ s : DoneState Fn Out,
      (system Fn Out).ReachUnder (fun s e => ¬ s.Mistakes equal e) s → s.DoneContract) ∧
    (∀ (s : DoneState Fn Out) (callback : Fn),
      s.Removes equal callback ↔ ¬ s.Mistakes equal (.removeDoneCallback callback)) ∧
    ∀ (s s' : DoneState Fn Out) (k i : Nat), (system Fn Out).Reachable s → s.Refuses k i →
      s.step (.runNext k) = some s' → ∀ es s'', (system Fn Out).run s' es = some s'' →
        i ∉ s''.ran ∧ i ∉ s''.counted := by
  refine ⟨fun s hs => ?_, fun s callback => removes_iff, ?_⟩
  · refine (reachable_inv hs.reachable).contract ?_
    refine hs.invariant (I := fun s => s.refused = []) (fun _ h => h ▸ rfl) ?_
    intro s e s' hrefused hok h
    rcases step_refused h with hsame | ⟨k, i, rfl, hrefuses, -⟩
    · exact hsame.trans hrefused
    · exact absurd ⟨i, hrefuses⟩ hok
  · intro s s' k i hs hrefuses h es s'' hrun
    exact refused_run ((reachable_inv hs).step h) (hrefuses.refused h) hrun

end DoneState

/-- A bound method: the object that an attribute access makes, and what it is bound to. -/
structure BoundMethod where
  serial : Nat
  receiver : Nat
deriving DecidableEq, Repr

/-- Bound methods of the same object are equal. -/
def BoundMethod.equal (f g : BoundMethod) : Bool := decide (f.receiver = g.receiver)

/-- `handle.add_done_callback(obj.m); handle.remove_done_callback(obj.m)`: the second method
    object equals the first one, but nothing is counted and the callback runs. -/
theorem fresh_method_not_removed :
    BoundMethod.equal ⟨0, 7⟩ ⟨1, 7⟩ = true ∧
      ∃ kept : DoneState BoundMethod Unit,
        (DoneState.system BoundMethod Unit).run {} [.addDoneCallback ⟨0, 7⟩ none] = some kept ∧
        (kept.removeDoneCallback ⟨1, 7⟩).1 = 0 ∧ ¬ kept.Removes BoundMethod.equal ⟨1, 7⟩ ∧
        ((DoneState.system BoundMethod Unit).run kept
          [.removeDoneCallback ⟨1, 7⟩, .setBody (), .runNext 0, .callbackEnds 0]).map
            DoneState.ran = some [0] := by
  refine ⟨rfl, _, rfl, by decide, ?_, by decide⟩
  rw [DoneState.removes_iff, not_not]
  exact ⟨0, ⟨⟨0, 7⟩, .copied 0, true⟩, by decide, by decide, rfl, by decide⟩

end AgentlyStage
