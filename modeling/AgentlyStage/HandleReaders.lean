import AgentlyStage.Errors
import AgentlyStage.Lib.Transition
import Mathlib.Data.List.Basic

/-!
# The readers of a handle

`get`, `result`, `async_get`, `await`, `exception` and `cancel` read the body outcome from one
`concurrent.futures.Future`.  A synchronous reader looks at the future, waits and looks once more.
An asynchronous one awaits a shielded asyncio copy of it; the loop of its task copies the state
some time after the outcome has been set.

The outcome of the body and a timeout of the wait reach a synchronous reader through the same
`except concurrent.futures.TimeoutError`, which is the built-in `TimeoutError`.
-/

namespace AgentlyStage

open Transition

/-! ## 1. Exceptions -/

/-- The exception classes that a reader or the copy of a future treats in a way of its own, and
    those that are derived from others.  (A `StopIteration` does not leave a coroutine.) -/
inductive ErrorClass where
  | timeoutError
  /-- `concurrent.futures.CancelledError`. -/
  | cancelledError
  /-- `concurrent.futures.InvalidStateError`. -/
  | invalidStateError
  | other (name : Nat)
  | derived (name : Nat) (bases : List ErrorClass)

mutual

/-- `issubclass(c, TimeoutError)`. -/
def ErrorClass.isTimeout : ErrorClass → Bool
  | .timeoutError => true
  | .derived _ bases => anyTimeout bases
  | _ => false

def anyTimeout : List ErrorClass → Bool
  | [] => false
  | base :: bases => base.isTimeout || anyTimeout bases

end

/-- An exception object: its identity and its class. -/
structure ErrorObject where
  object : Nat
  errorClass : ErrorClass

/-- The library of a cancellation error. -/
inductive Library where
  | futures
  | asyncio
deriving DecidableEq, Repr

inductive FutureOutcome (ρ : Type) where
  | result (value : ρ)
  /-- `_set_body_exception` with `ignored`: the result of the future is `None`. -/
  | ignored (error : ErrorObject)
  | exception (error : ErrorObject)
  | cancelled

/-- What a reader gives to its caller. -/
inductive ReadResult (ρ : Type) where
  /-- A value; none for `None`. -/
  | value (value : Option ρ)
  /-- `exception()` returns. -/
  | error (error : Option ErrorObject)
  /-- The very exception object is raised. -/
  | raised (error : ErrorObject)
  /-- A new exception object of the given class is raised, made from the arguments of another. -/
  | remade (errorClass : ErrorClass) (error : ErrorObject)
  | cancellation (library : Library)
  /-- A new `TimeoutError`. -/
  | timedOut
  | failed (error : StageError)
  /-- `cancel()` returns. -/
  | answer (acknowledged : Bool)
  /-- The task of the reader has been cancelled. -/
  | abandoned

/-! ## 2. One look at the future -/

/-- What `Future.result(timeout)` does after its last look. -/
inductive FutureResult (ρ : Type) where
  | returns (value : Option ρ)
  | raises (error : ErrorObject)
  | raisesCancelled
  | raisesTimeout

/-- `Future.result`, for a state of the future. -/
def bodyFutureResult {ρ : Type} : Option (FutureOutcome ρ) → FutureResult ρ
  | some (.result value) => .returns (some value)
  | some (.ignored _) => .returns none
  | some (.exception error) => .raises error
  | some .cancelled => .raisesCancelled
  | none => .raisesTimeout

/-- `StageHandle.get` around `Future.result`. -/
def getResult {ρ : Type} : FutureResult ρ → ReadResult ρ
  | .returns value => .value value
  | .raises error => if error.errorClass.isTimeout then .timedOut else .raised error
  | .raisesCancelled => .cancellation .futures
  | .raisesTimeout => .timedOut

/-- `StageHandle.exception` around `Future.exception`. -/
def exceptionResult {ρ : Type} : Option (FutureOutcome ρ) → ReadResult ρ
  | some (.result _) | some (.ignored _) => .error none
  | some (.exception error) => .error (some error)
  | some .cancelled => .cancellation .futures
  | none => .timedOut

/-- The end of `StageHandle.cancel` around `Future.result`. -/
def cancelResult {ρ : Type} : FutureResult ρ → ReadResult ρ
  | .returns _ => .answer true
  | .raises error => .answer (!error.errorClass.isTimeout)
  | .raisesCancelled => .answer true
  | .raisesTimeout => .answer false

/-- `_convert_future_exc` of asyncio, which in some versions also makes a new `TimeoutError`. -/
def convertFutureExc {ρ : Type} (convertsTimeout : Bool) (error : ErrorObject) : ReadResult ρ :=
  match error.errorClass with
  | .cancelledError => .cancellation .asyncio
  | .invalidStateError => .remade .invalidStateError error
  | .timeoutError => if convertsTimeout then .remade .timeoutError error else .raised error
  | _ => .raised error

/-- What arrives at the future that `async_get` awaits. -/
def copyFutureState {ρ : Type} (convertsTimeout : Bool) : FutureOutcome ρ → ReadResult ρ
  | .result value => .value (some value)
  | .ignored _ => .value none
  | .exception error => convertFutureExc convertsTimeout error
  | .cancelled => .cancellation .asyncio

/-! ## 3. Readers -/

inductive ReaderKind where
  | get
  | result
  | exception
  | cancel
  | asyncGet
  /-- `async_get` without a timeout. -/
  | await
deriving DecidableEq, Repr

def ReaderKind.isAsync : ReaderKind → Bool
  | .asyncGet | .await => true
  | _ => false

/-- What a synchronous reader makes of its last look. -/
def ReaderKind.read {ρ : Type} (kind : ReaderKind) (outcome : Option (FutureOutcome ρ)) :
    ReadResult ρ :=
  match kind with
  | .exception => exceptionResult outcome
  | .cancel => cancelResult (bodyFutureResult outcome)
  | _ => getResult (bodyFutureResult outcome)

inductive ReaderPhase (ρ : Type) where
  | called
  /-- `cancel` between its two looks at the outcome. -/
  | requesting
  | waiting
  /-- The awaited future has its result. -/
  | arrived (result : ReadResult ρ)
  /-- History: `available` says whether the outcome was set. -/
  | finished (result : ReadResult ρ) (available : Bool)

structure Reader (ρ : Type) where
  kind : ReaderKind
  timeout : Option Int := none
  /-- It is called on the loop of the owner task. -/
  onOwnerLoop : Bool := false
  phase : ReaderPhase ρ := .called
  /-- `cancel` has found something to cancel: no outcome yet, or live descendants. -/
  requested : Bool := false

/-- The readers of one handle. -/
structure HandleReads (ρ : Type) where
  outcome : Option (FutureOutcome ρ) := none
  /-- The tasks in `_owned_body_tasks`; each keeps the loop of its generation open. -/
  descendants : Nat := 0
  loopClosed : Bool := false
  readers : List (Reader ρ) := []

inductive ReaderEvent where
  /-- The first look of a reader; an asynchronous one wraps the future. -/
  | look
  /-- `cancel` looks again, requests the cancellation and posts it. -/
  | request
  /-- The wait of a synchronous reader ends with the outcome. -/
  | wake
  /-- The time of a wait is up. -/
  | expire
  /-- The loop has copied the state of the future. -/
  | deliver
  | resume
  /-- The task of an asynchronous reader is cancelled. -/
  | abandon
deriving DecidableEq, Repr

inductive ReadEvent (ρ : Type) where
  | complete (outcome : FutureOutcome ρ)
  | retainDescendant
  | descendantDone
  | closeLoop
  | call (kind : ReaderKind) (timeout : Option Int) (onOwnerLoop : Bool)
  | reader (i : Nat) (e : ReaderEvent)

/-- `_ensure_not_owner_loop_sync_wait`. -/
def ownerLoopError (operation asyncOperation : String) : StageError :=
  .stageLifecycle ("Cannot call " ++ operation ++
    "() while running on this StageHandle's caller-owned event loop; " ++
    "use " ++ asyncOperation ++ "()")

def ReaderKind.ownerLoopError : ReaderKind → StageError
  | .exception => AgentlyStage.ownerLoopError "exception" "await the StageHandle"
  | .cancel => AgentlyStage.ownerLoopError "cancel" "Stage.async_cancel_and_wait_settled"
  | _ => AgentlyStage.ownerLoopError "get" "async_get"

/-- `timeout is not None and timeout <= 0`. -/
def expiresAtOnce (timeout : Option Int) : Bool := timeout.any fun seconds => decide (seconds ≤ 0)

namespace HandleReads

variable {ρ : Type} (s : HandleReads ρ)

def setReader (i : Nat) (r : Reader ρ) : HandleReads ρ := { s with readers := s.readers.set i r }

/-- The reader ends. -/
def finish (i : Nat) (r : Reader ρ) (result : ReadResult ρ) : HandleReads ρ :=
  s.setReader i { r with phase := .finished result s.outcome.isSome }

/-- Nothing is left to cancel. -/
def settledBefore : Bool := s.outcome.isSome && decide (s.descendants = 0)

/-- The first look. -/
def look (i : Nat) (r : Reader ρ) : HandleReads ρ :=
  match r.kind with
  | .cancel =>
    if s.settledBefore then s.finish i r (.answer false)
    else if !expiresAtOnce r.timeout && r.onOwnerLoop && s.outcome.isNone then
      s.finish i r (.failed r.kind.ownerLoopError)
    else s.setReader i { r with phase := .requesting }
  | .asyncGet =>
    -- `wait_for` does not wait for the copy
    if expiresAtOnce r.timeout then s.finish i r .timedOut
    else s.setReader i { r with phase := .waiting }
  | .await => s.setReader i { r with phase := .waiting }
  | kind =>
    match s.outcome with
    | some outcome => s.finish i r (kind.read (some outcome))
    | none =>
      if r.onOwnerLoop then s.finish i r (.failed kind.ownerLoopError)
      else s.setReader i { r with phase := .waiting }

/-- The second look of `cancel`, and `call_soon_threadsafe`. -/
def request (i : Nat) (r : Reader ρ) : HandleReads ρ :=
  if s.settledBefore then s.finish i r (.answer false)
  else
    let r' := { r with requested := true }
    if s.loopClosed then s.finish i r' (.failed (.runtimeError "Event loop is closed"))
    else s.setReader i { r' with phase := .waiting }

/-- A reader goes on. -/
def readerStep (convertsTimeout : Bool) (i : Nat) (r : Reader ρ) :
    ReaderEvent → ReaderPhase ρ → Option (HandleReads ρ)
  | .look, .called => some (s.look i r)
  | .request, .requesting => some (s.request i r)
  | .wake, .waiting =>
    if r.kind.isAsync = false ∧ s.outcome.isSome then
      some (s.finish i r (r.kind.read s.outcome))
    else none
  | .expire, .waiting =>
    if r.timeout.isNone then none
    else if r.kind.isAsync then some (s.finish i r .timedOut)
    else some (s.finish i r (r.kind.read s.outcome))
  | .deliver, .waiting =>
    match s.outcome with
    | some outcome =>
      if r.kind.isAsync then
        some (s.setReader i { r with phase := .arrived (copyFutureState convertsTimeout outcome) })
      else none
    | none => none
  | .resume, .arrived result => some (s.finish i r result)
  | .abandon, .waiting | .abandon, .arrived _ =>
    if r.kind.isAsync then some (s.finish i r .abandoned) else none
  | _, _ => none

def step (convertsTimeout : Bool) : ReadEvent ρ → Option (HandleReads ρ)
  | .complete outcome => if s.outcome.isNone then some { s with outcome := some outcome } else none
  | .retainDescendant =>
    if s.loopClosed then none else some { s with descendants := s.descendants + 1 }
  | .descendantDone =>
    if 0 < s.descendants then some { s with descendants := s.descendants - 1 } else none
  | .closeLoop => if s.descendants = 0 then some { s with loopClosed := true } else none
  | .call kind timeout onOwnerLoop =>
    some { s with readers := s.readers ++ [{
        kind := kind
        timeout := if kind = .await then none else timeout
        onOwnerLoop := onOwnerLoop }] }
  | .reader i e =>
    match s.readers[i]? with
    | some r => s.readerStep convertsTimeout i r e r.phase
    | none => none

end HandleReads

/-- Any number of readers of one handle. -/
def readSystem (ρ : Type) (convertsTimeout : Bool) : System (HandleReads ρ) (ReadEvent ρ) where
  Init s := s = {}
  step s := s.step convertsTimeout

/-! ## 4. Agreement -/

/-- What a reader is to give for an outcome. -/
def expected {ρ : Type} : FutureOutcome ρ → ReaderKind → ReadResult ρ
  | _, .cancel => .answer true
  | .cancelled, kind => .cancellation (if kind.isAsync then .asyncio else .futures)
  | .exception error, .exception => .error (some error)
  | .result _, .exception | .ignored _, .exception => .error none
  | .result value, _ => .value (some value)
  | .ignored _, _ => .value none
  | .exception error, _ => .raised error

/-- The copy of the future does not hold the object itself. -/
def ErrorObject.converted (convertsTimeout : Bool) (error : ErrorObject) : Bool :=
  match error.errorClass with
  | .cancelledError | .invalidStateError => true
  | .timeoutError => convertsTimeout
  | _ => false

/-- The outcome is an error that the reader mistakes: a `TimeoutError` for the timeout of its wait,
    or, for an asynchronous reader, one that the copy of the future converts. -/
def FutureOutcome.misread {ρ : Type} (convertsTimeout : Bool) (kind : ReaderKind) :
    FutureOutcome ρ → Bool
  | .exception error =>
    match kind with
    | .get | .result | .cancel => error.errorClass.isTimeout
    | .exception => false
    | .asyncGet | .await => error.converted convertsTimeout
  | _ => false

/-- The reader ends wrongly with this event, when the outcome is set: it mistakes the outcome, or
    an asynchronous one gives up before the outcome has come to its loop. -/
def Reader.misreports {ρ : Type} (convertsTimeout : Bool) (r : Reader ρ)
    (outcome : FutureOutcome ρ) : ReaderEvent → Bool
  | .look => r.kind != .cancel && !r.kind.isAsync && outcome.misread convertsTimeout r.kind ||
      r.kind == .asyncGet && expiresAtOnce r.timeout
  | .expire => r.kind.isAsync || outcome.misread convertsTimeout r.kind
  | .wake | .resume => outcome.misread convertsTimeout r.kind
  | _ => false

namespace HandleReads

variable {ρ : Type} {s s' : HandleReads ρ} {convertsTimeout : Bool} {i : Nat} {r : Reader ρ}

def misreports (s : HandleReads ρ) (convertsTimeout : Bool) : ReadEvent ρ → Bool
  | .reader i e =>
    match s.readers[i]?, s.outcome with
    | some r, some outcome => r.misreports convertsTimeout outcome e
    | _, _ => false
  | _ => false

/-- A reader that has ended after the outcome was set has given it to its caller, unless its task
    was cancelled; a `cancel` had to find live descendants, or no outcome yet. -/
def AgreesWith (outcome : Option (FutureOutcome ρ)) (r : Reader ρ) : Prop :=
  ∀ result, r.phase = .finished result true → (r.kind = .cancel → r.requested = true) →
    result = .abandoned ∨ ∃ o, outcome = some o ∧ result = expected o r.kind

/-- All readers agree. -/
def Agree (s : HandleReads ρ) : Prop := ∀ r ∈ s.readers, AgreesWith s.outcome r

theorem read_eq_expected (convertsTimeout : Bool) {kind : ReaderKind}
    (hkind : kind.isAsync = false) (o : FutureOutcome ρ) :
    kind.read (some o) = expected o kind ↔ o.misread convertsTimeout kind = false := by
  cases o with
  | result value | ignored error | cancelled =>
    refine ⟨fun _ => rfl, fun _ => ?_⟩
    cases kind <;> first | rfl | cases hkind
  | exception error =>
    cases kind with
    | get | result | cancel =>
      simp [ReaderKind.read, getResult, cancelResult, bodyFutureResult, expected, FutureOutcome.misread]
    | exception => simp [ReaderKind.read, exceptionResult, expected, FutureOutcome.misread]
    | asyncGet | await => cases hkind

theorem copy_eq_expected (convertsTimeout : Bool) {kind : ReaderKind}
    (hkind : kind.isAsync = true) (o : FutureOutcome ρ) :
    copyFutureState convertsTimeout o = expected o kind ↔
      o.misread convertsTimeout kind = false := by
  cases o with
  | result value | ignored error | cancelled =>
    refine ⟨fun _ => rfl, fun _ => ?_⟩
    cases kind <;> first | rfl | cases hkind
  | exception error =>
    cases kind with
    | asyncGet | await =>
      rw [FutureOutcome.misread, copyFutureState, convertFutureExc, ErrorObject.converted, expected]
      · cases error.errorClass with
        | timeoutError => cases convertsTimeout <;> simp
        | cancelledError | invalidStateError | other name | derived name bases => simp
      all_goals simp
    | _ => cases hkind

theorem read_ne_abandoned (kind : ReaderKind) (outcome : Option (FutureOutcome ρ)) :
    kind.read outcome ≠ .abandoned := by
  cases kind with
  | exception => cases outcome with
    | none => exact fun h => by cases h
    | some o => cases o <;> exact fun h => by cases h
  | cancel => cases hread : bodyFutureResult outcome <;> simp [ReaderKind.read, cancelResult, hread]
  | _ =>
    cases hread : bodyFutureResult outcome with
    | raises error =>
      simp only [ReaderKind.read, getResult, hread]
      split <;> exact fun h => by cases h
    | _ => simp [ReaderKind.read, getResult, hread]

theorem copy_ne_abandoned (o : FutureOutcome ρ) : copyFutureState convertsTimeout o ≠ .abandoned := by
  cases o with
  | exception error =>
    simp only [copyFutureState, convertFutureExc]
    split
    · exact fun h => by cases h
    · exact fun h => by cases h
    · split <;> exact fun h => by cases h
    · exact fun h => by cases h
  | _ => exact fun h => by cases h

/-! ## 5. The invariant -/

/-- What holds of one reader. -/
structure ReaderInv (convertsTimeout : Bool) (outcome : Option (FutureOutcome ρ)) (r : Reader ρ) :
    Prop where
  agrees : AgreesWith outcome r
  arrived : ∀ result, r.phase = .arrived result → r.kind.isAsync = true ∧
    ∃ o, outcome = some o ∧ result = copyFutureState convertsTimeout o
  waiting : r.phase = .waiting → r.kind = .cancel → r.requested = true
  called : r.phase = .called ∨ r.phase = .requesting → r.requested = false
  requesting : r.phase = .requesting → r.kind = .cancel

structure ReadInv (convertsTimeout : Bool) (s : HandleReads ρ) : Prop where
  /-- A live descendant keeps the loop open. -/
  closed : s.loopClosed = true → s.descendants = 0
  readers : ∀ r ∈ s.readers, ReaderInv convertsTimeout s.outcome r

theorem ReaderInv.complete (hr : ReaderInv convertsTimeout none r) (o : FutureOutcome ρ) :
    ReaderInv convertsTimeout (some o) r where
  agrees result hphase hcancel := by
    rcases hr.agrees result hphase hcancel with habandoned | ⟨_, hnone, -⟩
    · exact Or.inl habandoned
    · cases hnone
  arrived result hphase := by
    obtain ⟨-, _, hnone, -⟩ := hr.arrived result hphase
    cases hnone
  waiting := hr.waiting
  called := hr.called
  requesting := hr.requesting

/-- A reader that ends. -/
theorem readerInv_finished {outcome : Option (FutureOutcome ρ)} {result : ReadResult ρ}
    (h : ∀ o, outcome = some o → (r.kind = .cancel → r.requested = true) →
      result = .abandoned ∨ result = expected o r.kind) :
    ReaderInv convertsTimeout outcome { r with phase := .finished result outcome.isSome } where
  agrees result' hphase hcancel := by
    cases houtcome : outcome with
    | none =>
      rw [houtcome] at hphase
      cases hphase
    | some o =>
      rw [houtcome] at hphase
      cases hphase
      exact (h o houtcome hcancel).imp_right fun heq => ⟨o, rfl, heq⟩
  arrived _ hphase := by cases hphase
  waiting hphase := by cases hphase
  called hphase := by rcases hphase with hphase | hphase <;> cases hphase
  requesting hphase := by cases hphase

theorem readerInv_waiting {outcome : Option (FutureOutcome ρ)}
    (h : r.kind = .cancel → r.requested = true) :
    ReaderInv convertsTimeout outcome { r with phase := .waiting } where
  agrees _ hphase := by cases hphase
  arrived _ hphase := by cases hphase
  waiting _ := h
  called hphase := by rcases hphase with hphase | hphase <;> cases hphase
  requesting hphase := by cases hphase

/-- A synchronous reader that ends with what it reads. -/
theorem readerInv_read (hkind : r.kind.isAsync = false)
    (hmisread : ∀ o, s.outcome = some o → o.misread convertsTimeout r.kind = false) :
    ReaderInv convertsTimeout s.outcome
      { r with phase := .finished (r.kind.read s.outcome) s.outcome.isSome } := by
  refine readerInv_finished fun o ho _ => Or.inr ?_
  rw [ho]
  exact (read_eq_expected convertsTimeout hkind o).mpr (hmisread o ho)

theorem settledBefore_of_loopClosed (hi : ReadInv convertsTimeout s) {o : FutureOutcome ρ}
    (ho : s.outcome = some o) (hclosed : s.loopClosed = true) : s.settledBefore = true := by
  simp [settledBefore, ho, hi.closed hclosed]

/-- A `cancel` that has requested nothing, or is not the outcome's business. -/
theorem readerInv_unrequested {outcome : Option (FutureOutcome ρ)} {result : ReadResult ρ}
    (hkind : r.kind = .cancel) (hrequested : r.requested = false) :
    ReaderInv convertsTimeout outcome { r with phase := .finished result outcome.isSome } := by
  refine readerInv_finished fun o _ hcancel => ?_
  rw [hcancel hkind] at hrequested
  cases hrequested

theorem ReaderInv.look (hr : ReaderInv convertsTimeout s.outcome r) (hphase : r.phase = .called)
    (hok : ∀ o, s.outcome = some o → r.misreports convertsTimeout o .look = false) :
    ∃ r', s.look i r = s.setReader i r' ∧ ReaderInv convertsTimeout s.outcome r' := by
  have hrequested := hr.called (Or.inl hphase)
  unfold HandleReads.look
  split
  · rename_i hkind
    split
    · exact ⟨_, rfl, readerInv_unrequested hkind hrequested⟩
    · split
      · exact ⟨_, rfl, readerInv_unrequested hkind hrequested⟩
      · exact ⟨_, rfl, fun _ h => (by cases h), fun _ h => (by cases h), fun h => (by cases h),
          fun _ => hrequested, fun _ => hkind⟩
  · rename_i hkind
    split
    · rename_i hexpires
      refine ⟨_, rfl, readerInv_finished fun o ho _ => ?_⟩
      have hmisreports := hok o ho
      simp [Reader.misreports, hkind, hexpires] at hmisreports
    · exact ⟨_, rfl, readerInv_waiting fun h => by rw [hkind] at h; cases h⟩
  · rename_i hkind
    exact ⟨_, rfl, readerInv_waiting fun h => by rw [hkind] at h; cases h⟩
  · rename_i hcancel hget hawait
    have hsync : r.kind.isAsync = false := by cases hkind : r.kind <;> simp_all [ReaderKind.isAsync]
    split
    · rename_i o ho
      refine ⟨_, rfl, readerInv_finished fun o' ho' _ => Or.inr ?_⟩
      rw [ho] at ho'
      cases ho'
      refine (read_eq_expected convertsTimeout hsync o).mpr ?_
      have hmisreports := hok o ho
      simp only [Reader.misreports, hsync, Bool.or_eq_false_iff] at hmisreports
      simpa [bne_iff_ne.mpr hcancel] using hmisreports.1
    · rename_i hnone
      split
      · refine ⟨_, rfl, readerInv_finished fun o ho _ => ?_⟩
        rw [hnone] at ho
        cases ho
      · exact ⟨_, rfl, readerInv_waiting fun h => absurd h hcancel⟩

theorem ReaderInv.request (hr : ReaderInv convertsTimeout s.outcome r)
    (hi : ReadInv convertsTimeout s) (hphase : r.phase = .requesting) :
    ∃ r', s.request i r = s.setReader i r' ∧ ReaderInv convertsTimeout s.outcome r' := by
  have hrequested := hr.called (Or.inr hphase)
  unfold HandleReads.request
  split
  · exact ⟨_, rfl, readerInv_unrequested (hr.requesting hphase) hrequested⟩
  · rename_i hsettled
    dsimp only
    split
    · rename_i hclosed
      refine ⟨_, rfl, readerInv_finished (r := { r with requested := true }) fun o ho _ => ?_⟩
      exact absurd (settledBefore_of_loopClosed hi ho hclosed) hsettled
    · exact ⟨_, rfl, readerInv_waiting (r := { r with requested := true }) fun _ => rfl⟩

/-- A reader goes on and does not end wrongly. -/
theorem ReaderInv.step (hr : ReaderInv convertsTimeout s.outcome r)
    (hi : ReadInv convertsTimeout s) {e : ReaderEvent}
    (hok : ∀ o, s.outcome = some o → r.misreports convertsTimeout o e = false)
    (h : s.readerStep convertsTimeout i r e r.phase = some s') :
    ∃ r', s' = s.setReader i r' ∧ ReaderInv convertsTimeout s.outcome r' := by
  cases e with
  | look =>
    cases hphase : r.phase with
    | called =>
      rw [hphase] at h
      cases h
      exact hr.look hphase hok
    | _ =>
      rw [hphase] at h
      cases h
  | request =>
    cases hphase : r.phase with
    | requesting =>
      rw [hphase] at h
      cases h
      exact hr.request hi hphase
    | _ =>
      rw [hphase] at h
      cases h
  | wake =>
    cases hphase : r.phase with
    | waiting =>
      rw [hphase] at h
      simp only [HandleReads.readerStep] at h
      split at h
      · rename_i hset
        cases h
        exact ⟨_, rfl, readerInv_read hset.1 hok⟩
      · cases h
    | _ =>
      rw [hphase] at h
      cases h
  | expire =>
    cases hphase : r.phase with
    | waiting =>
      rw [hphase] at h
      simp only [HandleReads.readerStep] at h
      split at h
      · cases h
      · split at h
        · rename_i hasync
          cases h
          refine ⟨_, rfl, readerInv_finished fun o ho _ => ?_⟩
          have hmisreports := hok o ho
          simp [Reader.misreports, hasync] at hmisreports
        · rename_i hsync
          cases h
          refine ⟨_, rfl, readerInv_read (by simpa using hsync) fun o ho => ?_⟩
          have hmisreports := hok o ho
          simp only [Reader.misreports, Bool.or_eq_false_iff] at hmisreports
          exact hmisreports.2
    | _ =>
      rw [hphase] at h
      cases h
  | deliver =>
    cases hphase : r.phase with
    | waiting =>
      rw [hphase] at h
      simp only [HandleReads.readerStep] at h
      split at h
      · rename_i o ho
        split at h
        · rename_i hasync
          cases h
          refine ⟨_, rfl, fun _ h => (by cases h), fun result h => ?_, fun h => (by cases h),
            fun h => (by rcases h with h | h <;> cases h), fun h => (by cases h)⟩
          cases h
          exact ⟨hasync, o, ho, rfl⟩
        · cases h
      · cases h
    | _ =>
      rw [hphase] at h
      cases h
  | resume =>
    cases hphase : r.phase with
    | arrived result =>
      rw [hphase] at h
      cases h
      obtain ⟨hasync, o, ho, rfl⟩ := hr.arrived result hphase
      refine ⟨_, rfl, readerInv_finished fun o' ho' _ => Or.inr ?_⟩
      rw [ho] at ho'
      cases ho'
      exact (copy_eq_expected convertsTimeout hasync o).mpr (hok o ho)
    | _ =>
      rw [hphase] at h
      cases h
  | abandon =>
    cases hphase : r.phase with
    | waiting | arrived result =>
      rw [hphase] at h
      simp only [HandleReads.readerStep] at h
      split at h
      · cases h
        exact ⟨_, rfl, readerInv_finished fun _ _ _ => Or.inl rfl⟩
      · cases h
    | _ =>
      rw [hphase] at h
      cases h

theorem ReadInv.setReader (hi : ReadInv convertsTimeout s)
    (hr : ReaderInv convertsTimeout s.outcome r) : ReadInv convertsTimeout (s.setReader i r) := by
  refine ⟨hi.closed, fun d hd => ?_⟩
  rcases List.mem_or_eq_of_mem_set hd with hd | rfl
  · exact hi.readers d hd
  · exact hr

theorem ReadInv.step (hi : ReadInv convertsTimeout s) {e : ReadEvent ρ}
    (hok : s.misreports convertsTimeout e = false) (h : s.step convertsTimeout e = some s') :
    ReadInv convertsTimeout s' := by
  cases e with
  | complete outcome =>
    simp only [HandleReads.step] at h
    split at h
    · rename_i hnone
      cases h
      refine ⟨hi.closed, fun r hr => ?_⟩
      have hr' := hi.readers r hr
      rw [Option.isNone_iff_eq_none.mp hnone] at hr'
      exact hr'.complete outcome
    · cases h
  | retainDescendant =>
    simp only [HandleReads.step] at h
    split at h
    · cases h
    · rename_i hopen
      cases h
      exact ⟨fun hclosed => absurd hclosed hopen, hi.readers⟩
  | descendantDone =>
    simp only [HandleReads.step] at h
    split at h
    · cases h
      refine ⟨fun hclosed => ?_, hi.readers⟩
      rw [hi.closed hclosed]
    · cases h
  | closeLoop =>
    simp only [HandleReads.step] at h
    split at h
    · rename_i hnone
      cases h
      exact ⟨fun _ => hnone, hi.readers⟩
    · cases h
  | call kind timeout onOwnerLoop =>
    cases h
    refine ⟨hi.closed, fun r hr => ?_⟩
    rcases List.mem_append.mp hr with hr | hr
    · exact hi.readers r hr
    · rw [List.mem_singleton.mp hr]
      exact ⟨fun _ h => (by cases h), fun _ h => (by cases h), fun h => (by cases h),
        fun _ => rfl, fun h => (by cases h)⟩
  | reader i e =>
    simp only [HandleReads.step] at h
    split at h
    · rename_i r hget
      obtain ⟨r', rfl, hr'⟩ := (hi.readers r (List.mem_of_getElem? hget)).step hi (fun o ho => by
        simpa [misreports, hget, ho] using hok) h
      exact hi.setReader hr'
    · cases h

theorem reachUnder_readInv
    (h : (readSystem ρ convertsTimeout).ReachUnder
      (fun s e => s.misreports convertsTimeout e = false) s) : ReadInv convertsTimeout s := by
  refine h.invariant (fun t ht => ?_) fun _ _ _ hi hok hstep => hi.step hok hstep
  cases ht
  exact ⟨(fun h => by cases h), fun r hr => by cases hr⟩

/-! ## 6. The excluded steps -/

/-- The reader has given something else to its caller. -/
theorem not_agree_of_finish (hget : s.readers[i]? = some r) {o : FutureOutcome ρ}
    (ho : s.outcome = some o) {result : ReadResult ρ}
    (hcancel : r.kind = .cancel → r.requested = true) (hne : result ≠ .abandoned)
    (hwrong : result ≠ expected o r.kind) : ¬ (s.finish i r result).Agree := by
  intro hagree
  have hmem : { r with phase := .finished result s.outcome.isSome } ∈
      (s.finish i r result).readers :=
    List.mem_set (List.getElem?_eq_some_iff.mp hget).1 _
  rcases hagree _ hmem result (by rw [ho]; rfl) hcancel with habandoned | ⟨o', ho', heq⟩
  · exact hne habandoned
  · rw [show s.outcome = some o' from ho'] at ho
    cases ho
    exact hwrong heq

theorem not_agree_of_read (hget : s.readers[i]? = some r) {o : FutureOutcome ρ}
    (ho : s.outcome = some o) (hcancel : r.kind = .cancel → r.requested = true)
    (hsync : r.kind.isAsync = false) (hmisread : o.misread convertsTimeout r.kind = true) :
    ¬ (s.finish i r (r.kind.read (some o))).Agree := by
  refine not_agree_of_finish hget ho hcancel (read_ne_abandoned _ _) fun heq => ?_
  rw [(read_eq_expected convertsTimeout hsync o).mp heq] at hmisread
  cases hmisread

theorem expected_ne_timedOut (o : FutureOutcome ρ) (kind : ReaderKind) :
    expected o kind ≠ .timedOut := by
  cases o <;> cases kind <;> exact fun h => by cases h

theorem ReaderInv.misreports (hr : ReaderInv convertsTimeout s.outcome r)
    (hget : s.readers[i]? = some r) {o : FutureOutcome ρ} (ho : s.outcome = some o) {e : ReaderEvent}
    (hmisreports : r.misreports convertsTimeout o e = true)
    (h : s.readerStep convertsTimeout i r e r.phase = some s') : ¬ s'.Agree := by
  cases e with
  | look =>
    cases hphase : r.phase with
    | called =>
      rw [hphase] at h
      cases h
      unfold HandleReads.look
      rw [Reader.misreports, Bool.or_eq_true] at hmisreports
      split
      · rename_i hkind
        simp [hkind] at hmisreports
      · rename_i hkind
        have hexpires : expiresAtOnce r.timeout = true := by
          simpa [hkind, ReaderKind.isAsync] using hmisreports
        rw [if_pos hexpires]
        exact not_agree_of_finish hget ho (fun h => by rw [hkind] at h; cases h)
          (fun h => by cases h) fun h => expected_ne_timedOut o _ h.symm
      · rename_i hkind
        simp [hkind, ReaderKind.isAsync] at hmisreports
      · rename_i hcancel hasyncGet hawait
        rw [ho]
        have hkind : r.kind.isAsync = false ∧ o.misread convertsTimeout r.kind = true := by
          rcases hmisreports with hmisreports | hmisreports
          · rw [Bool.and_eq_true, Bool.and_eq_true] at hmisreports
            exact ⟨by simpa using hmisreports.1.2, hmisreports.2⟩
          · rw [Bool.and_eq_true, beq_iff_eq] at hmisreports
            exact absurd hmisreports.1 hasyncGet
        exact not_agree_of_read hget ho (fun h => absurd h hcancel) hkind.1 hkind.2
    | _ =>
      rw [hphase] at h
      cases h
  | wake =>
    cases hphase : r.phase with
    | waiting =>
      rw [hphase] at h
      simp only [HandleReads.readerStep] at h
      split at h
      · rename_i hset
        cases h
        rw [ho]
        exact not_agree_of_read hget ho (hr.waiting hphase) hset.1 hmisreports
      · cases h
    | _ =>
      rw [hphase] at h
      cases h
  | expire =>
    cases hphase : r.phase with
    | waiting =>
      rw [hphase] at h
      simp only [HandleReads.readerStep] at h
      split at h
      · cases h
      · split at h
        · cases h
          exact not_agree_of_finish hget ho (hr.waiting hphase) (fun h => by cases h)
            fun h => expected_ne_timedOut o _ h.symm
        · rename_i hsync
          cases h
          rw [Reader.misreports, Bool.or_eq_true] at hmisreports
          rw [ho]
          exact not_agree_of_read hget ho (hr.waiting hphase) (by simpa using hsync)
            (hmisreports.resolve_left hsync)
    | _ =>
      rw [hphase] at h
      cases h
  | resume =>
    cases hphase : r.phase with
    | arrived result =>
      rw [hphase] at h
      cases h
      obtain ⟨hasync, o', ho', rfl⟩ := hr.arrived result hphase
      rw [ho] at ho'
      cases ho'
      refine not_agree_of_finish hget ho (fun h => ?_) (copy_ne_abandoned o) fun heq => ?_
      · rw [h] at hasync
        cases hasync
      · rw [Reader.misreports, (copy_eq_expected convertsTimeout hasync o).mp heq] at hmisreports
        cases hmisreports
    | _ =>
      rw [hphase] at h
      cases h
  | request | deliver | abandon => cases hmisreports

/-- **The readers agree.**  As long as no reader meets a `TimeoutError` as the body error in `get`,
    `result` or `cancel`, or in an asynchronous read an error that its copy converts, and no
    `async_get` gives up on an outcome that is set, every reader that ends after the outcome is set
    gives it to its caller, and a waiting timeout is reported only when there is none; and every
    reader that does otherwise does not agree with the outcome. -/
theorem readers_agree_iff (ρ : Type) (convertsTimeout : Bool) (s : HandleReads ρ) :
    ((readSystem ρ convertsTimeout).ReachUnder
      (fun s e => s.misreports convertsTimeout e = false) s → s.Agree) ∧
    ∀ e s', (readSystem ρ convertsTimeout).ReachUnder
        (fun s e => s.misreports convertsTimeout e = false) s →
      (readSystem ρ convertsTimeout).step s e = some s' →
      s.misreports convertsTimeout e = true → ¬ s'.Agree := by
  refine ⟨fun h r hr => ((reachUnder_readInv h).readers r hr).agrees,
    fun e s' hreach hstep hmisreports => ?_⟩
  have hi := reachUnder_readInv hreach
  cases e with
  | reader i e =>
    obtain ⟨r, hget⟩ : ∃ r, s.readers[i]? = some r := by
      cases hget : s.readers[i]? with
      | none => simp [misreports, hget] at hmisreports
      | some r => exact ⟨r, rfl⟩
    obtain ⟨o, ho⟩ : ∃ o, s.outcome = some o := by
      cases ho : s.outcome with
      | none => simp [misreports, hget, ho] at hmisreports
      | some o => exact ⟨o, rfl⟩
    have hstep' : s.readerStep convertsTimeout i r e r.phase = some s' := by
      simpa [readSystem, HandleReads.step, hget] using hstep
    refine (hi.readers r (List.mem_of_getElem? hget)).misreports hget ho ?_ hstep'
    simpa [misreports, hget, ho] using hmisreports
  | _ => cases hmisreports

/-- A body raises `TimeoutError`; `get` and `await` read the outcome afterwards. -/
def timeoutBody : List (ReadEvent Nat) :=
  [.complete (.exception ⟨0, .timeoutError⟩), .call .get none false, .reader 0 .look,
    .call .await none false, .reader 1 .look, .reader 1 .deliver, .reader 1 .resume]

/-- `get` reports the error of the body as a timeout of its wait. -/
theorem timeout_body_read_as_timeout :
    ¬ ∀ s, (readSystem Nat false).Reachable s → s.Agree := by
  intro hall
  obtain ⟨s, hrun⟩ : ∃ s, (readSystem Nat false).run {} timeoutBody = some s := ⟨_, rfl⟩
  have hagree := hall s (System.reachable_of_run timeoutBody rfl hrun)
  cases hrun
  rcases hagree _ (List.mem_cons_self) .timedOut rfl (fun h => by cases h) with h | ⟨o, ho, heq⟩
  · cases h
  · cases ho
    cases heq

end HandleReads

end AgentlyStage
