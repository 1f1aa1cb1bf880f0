import AgentlyStage.Errors
import AgentlyStage.Lib.Transition
import AgentlyStage.Lib.Counting

/-!
# Root permits

`Stage._admit_root_locked` and `Stage._finish_admission` with the fields they touch:
`_max_concurrency`, `_max_pending`, `_active_root_count` and the deque
`_pending_admissions`.  Both functions run under the scope lock, so each is one step.

A `_RootAdmission` is compared by identity (`eq=False`) and its `granted` flag is
written by another root's `_finish_admission`, so the queued admissions live in a
table and a root keeps an index into it.  All roots admitted at once share the one
object `_IMMEDIATE_ROOT_ADMISSION`.

The counter is an `Int`: the source subtracts without a test, and that it never goes
below zero is a theorem here, not a convention.
-/

namespace AgentlyStage

open Transition

/-! ## 1. The fields and the two functions -/

/-- The gate future of a queued admission: `resolved` once `set_result` ran. -/
inductive Gate where
  | pending
  | resolved
deriving DecidableEq, Repr

/-- `_RootAdmission`. -/
structure RootAdmission where
  gate : Option Gate
  granted : Bool
deriving DecidableEq, Repr

/-- `_IMMEDIATE_ROOT_ADMISSION`. -/
def immediateRootAdmission : RootAdmission := ⟨none, true⟩

/-- A reference to an admission object: the shared immediate one, or the `index`-th
    that was created for the queue. -/
inductive AdmissionRef where
  | immediate
  | queued (index : Nat)
deriving DecidableEq, Repr

/-- The admission fields of a `Stage`, with the heap of queued admissions. -/
structure RootPermits where
  maxConcurrency : Option Nat
  maxPending : Option Nat
  activeRootCount : Int := 0
  pendingAdmissions : List Nat := []
  admissions : List RootAdmission := []
deriving DecidableEq, Repr

namespace RootPermits

def deref (p : RootPermits) : AdmissionRef → Option RootAdmission
  | .immediate => some immediateRootAdmission
  | .queued i => p.admissions[i]?

/-- `admission.granted`. -/
def isGranted (p : RootPermits) (a : AdmissionRef) : Bool :=
  match p.deref a with
  | some admission => admission.granted
  | none => false

/-- What `_wait_for_admission` waits for: nothing without a gate, else the gate. -/
def gateOpen (p : RootPermits) : Option AdmissionRef → Bool
  | none => true
  | some a =>
    match p.deref a with
    | some admission => decide (admission.gate ≠ some .pending)
    | none => false

def permitFree (p : RootPermits) : Bool :=
  match p.maxConcurrency with
  | none => true
  | some m => decide (p.activeRootCount < m)

def pendingBoundReached (p : RootPermits) : Bool :=
  match p.maxPending with
  | none => false
  | some bound => decide (bound ≤ p.pendingAdmissions.length)

/-- `Stage._admit_root_locked`; `ownedNested` is `_active_stage.get() is self`. -/
def admitRootLocked (p : RootPermits) (ownedNested : Bool) :
    Except StageError (Option AdmissionRef × RootPermits) :=
  if ownedNested then .ok (none, p)
  else if p.permitFree then
    .ok (some .immediate, { p with activeRootCount := p.activeRootCount + 1 })
  else if p.pendingBoundReached then
    .error (.stageBackpressure
      ("Stage pending root bound reached: max_pending=" ++ toString (p.maxPending.getD 0)))
  else
    .ok (some (.queued p.admissions.length),
      { p with
        pendingAdmissions := p.pendingAdmissions ++ [p.admissions.length]
        admissions := p.admissions ++ [⟨some .pending, false⟩] })

/-- The `while self._pending_admissions` loop: skip entries without a gate or with a
    gate that is done, grant the first other one. -/
def grantNext (p : RootPermits) : List Nat → RootPermits
  | [] => { p with pendingAdmissions := [] }
  | i :: rest =>
    match p.admissions[i]?.bind RootAdmission.gate with
    | some .pending =>
      { p with
        pendingAdmissions := rest
        admissions := p.admissions.set i ⟨some .resolved, true⟩
        activeRootCount := p.activeRootCount + 1 }
    | _ => p.grantNext rest

/-- The first half of `_finish_admission`: give the permit back, or leave the queue. -/
def giveBack (p : RootPermits) (a : AdmissionRef) : RootPermits :=
  if p.isGranted a then { p with activeRootCount := p.activeRootCount - 1 }
  else
    match a with
    | .immediate => p
    | .queued i => { p with pendingAdmissions := p.pendingAdmissions.erase i }

/-- `Stage._finish_admission`. -/
def finishAdmission (p : RootPermits) : Option AdmissionRef → RootPermits
  | none => p
  | some a => (p.giveBack a).grantNext (p.giveBack a).pendingAdmissions

end RootPermits

/-! ## 2. The roots of one Stage

A root is in `go()` or queued for its permit (`admitted`), runs its task
(`executing`), or has ended.  Every way a root ends goes through
`_finish_admission`: the `finally` of `Stage.go.body` after a result, an exception or
a cancellation, and the `except` clauses of `go()` when the submission is refused. -/

inductive RootPhase where
  | admitted
  | executing
  | finished
deriving DecidableEq, Repr

structure Root where
  admission : Option AdmissionRef
  phase : RootPhase
deriving DecidableEq, Repr

structure RootsState where
  permits : RootPermits
  roots : List Root := []
deriving DecidableEq, Repr

inductive RootEvent where
  /-- `go()` up to the submission; `resolves` is false when `_new_handle_locked` raises. -/
  | go (ownedNested resolves : Bool)
  /-- The body passes `_wait_for_admission`. -/
  | execute (r : Nat)
  | complete (r : Nat)
  | fail (r : Nat)
  | cancel (r : Nat)
  /-- The submission of the root is refused and `go()` raises. -/
  | refuse (r : Nat)
deriving DecidableEq, Repr

namespace RootsState

/-- The root gives its admission back and ends. -/
def finishRoot (s : RootsState) (r : Nat) (root : Root) : RootsState :=
  { permits := s.permits.finishAdmission root.admission
    roots := s.roots.set r { root with phase := .finished } }

/-- End root `r` if it is in one of the given phases. -/
def endRoot (s : RootsState) (r : Nat) (phases : List RootPhase) : Option RootsState :=
  match s.roots[r]? with
  | some root => if root.phase ∈ phases then some (s.finishRoot r root) else none
  | none => none

def step (s : RootsState) : RootEvent → Option RootsState
  | .go ownedNested resolves =>
    match s.permits.admitRootLocked ownedNested with
    | .error _ => some s
    | .ok (admission, permits) =>
      let admitted : RootsState := ⟨permits, s.roots ++ [⟨admission, .admitted⟩]⟩
      -- when `_new_handle_locked` raises, the admission is given back at once
      if resolves then some admitted
      else some (admitted.finishRoot s.roots.length ⟨admission, .admitted⟩)
  | .execute r =>
    match s.roots[r]? with
    | some root =>
      if root.phase = .admitted ∧ s.permits.gateOpen root.admission then
        some { s with roots := s.roots.set r { root with phase := .executing } }
      else none
    | none => none
  | .complete r => s.endRoot r [.executing]
  | .fail r => s.endRoot r [.executing]
  | .cancel r => s.endRoot r [.admitted, .executing]
  | .refuse r => s.endRoot r [.admitted]

/-- The root was granted a permit and has not ended. -/
def holdsPermit (s : RootsState) (root : Root) : Bool :=
  decide (root.phase ≠ .finished) &&
    match root.admission with
    | some a => s.permits.isGranted a
    | none => false

/-- The root is an external one and runs its task. -/
def runsTask (root : Root) : Bool :=
  decide (root.phase = .executing) && root.admission.isSome

end RootsState

/-- All interleavings of one Stage with `max_concurrency = m`. -/
def rootSystem (m : Nat) (maxPending : Option Nat) : System RootsState RootEvent where
  Init s := s = { permits := { maxConcurrency := some m, maxPending := maxPending } }
  step := RootsState.step

end AgentlyStage
