import AgentlyStage.Tunnel

/-!
# The root of a stream

A `StageStream` is a root whose body consumes the source into a tunnel.  The consumer ends the
tunnel from inside (`close` or `fail`, the first one wins), and the root sets the body outcome
from what the consumer returns or raises, or without one.

An async consumer runs in the owner task, where a cancellation is an error of the await that it
is thrown into.  A sync one runs in the executor; the root waits for it, and once more after a
first cancellation.
-/

namespace AgentlyStage

open Transition

/-! ## 1. The consumer -/

inductive SourceKind where
  | async
  | sync
deriving DecidableEq, Repr

/-- Exceptions by what the code looks at; the number tells instances apart.  None of them is a
    `StopIteration` or `StopAsyncIteration`, which a loop or a coroutine takes for an end. -/
inductive SourceError where
  | cancelled (number : Nat)
  /-- A `RuntimeError` about an object that is bound to another loop. -/
  | loopAffinity (number : Nat)
  | other (number : Nat)
deriving DecidableEq, Repr

/-- What the body raises. -/
inductive BodyException where
  | raised (error : SourceError)
  /-- The `StageLifecycleError` raised from a `loopAffinity` error. -/
  | guidance (number : Nat)
deriving DecidableEq, Repr

def SourceError.isCancelled : SourceError → Bool
  | .cancelled _ => true
  | _ => false

/-- What `_await_with_loop_affinity_guidance` raises. -/
def awaitWithLoopAffinityGuidance (onCarrier : Bool) : SourceError → BodyException
  | .loopAffinity number => if onCarrier then .guidance number else .raised (.loopAffinity number)
  | error => .raised error

/-- How the `try` block of the consumer ends. -/
inductive LoopEnd where
  /-- `source_stop` was set before the first item. -/
  | stoppedBefore
  /-- The source is exhausted, or it has been stopped. -/
  | ended
  | raised (error : SourceError)
deriving DecidableEq, Repr

/-- How its `finally` block ends. -/
inductive SourceClosing where
  /-- `aclose` or `close` has returned, or the source has none. -/
  | closed
  /-- Looking the method up raises. -/
  | lookupFailed (error : SourceError)
  | closeFailed (error : SourceError)
deriving DecidableEq, Repr

/-- A run of `consume_async_source` or `consume_sync_source`. -/
inductive ConsumerRun where
  /-- Calling the generator function raises. -/
  | notCreated (error : SourceError)
  | run (loopEnd : LoopEnd) (closing : SourceClosing)
deriving DecidableEq, Repr

inductive ConsumerPhase (α : Type) where
  | pending
  /-- It begins next: in the owner task, or in the executor. -/
  | queued
  | checking
  | iterating
  /-- In `next(iterator)` of a sync source. -/
  | fetching
  /-- Between the look at `source_stop` and `tunnel.put`, with an item of an async source. -/
  | publishing (data : α)
  | closing (loopEnd : LoopEnd)
  | over (run : ConsumerRun)
deriving DecidableEq, Repr

/-- What the consumer raises; none if it returns the items. -/
def ConsumerRun.raises : ConsumerRun → Option SourceError
  | .notCreated error => some error
  | .run _ (.lookupFailed error) | .run _ (.closeFailed error) => some error
  | .run (.raised error) .closed => some error
  | .run _ .closed => none

/-! ## 2. The root -/

inductive StreamRootPhase where
  /-- `start` is due. -/
  | posted
  /-- In `_wait_for_admission`. -/
  | admission
  | executing
  /-- It waits for the executor call. -/
  | awaiting
  /-- It waits for the call after a cancellation. -/
  | absorbing (error : SourceError)
  | over
deriving DecidableEq, Repr

inductive StreamOutcome (α : Type) where
  | result (values : List α)
  | exception (error : BodyException)
  | cancelled
deriving DecidableEq, Repr

/-- The `except` clauses of `body`. -/
def StreamOutcome.ofException {α : Type} : BodyException → StreamOutcome α
  | .raised (.cancelled _) => .cancelled
  | error => .exception error

structure StreamState (α : Type) where
  kind : SourceKind
  /-- The backend of the epoch is the carrier. -/
  onCarrier : Bool
  tunnel : Tunnel α SourceError
  sourceStop : Bool := false
  root : StreamRootPhase := .posted
  consumer : ConsumerPhase α := .pending
  outcome : Option (StreamOutcome α) := none
deriving DecidableEq, Repr

inductive StreamEvent (α : Type) where
  | start
  | startFails (error : SourceError)
  | grantPermit
  | cancelAdmission (error : SourceError)
  /-- `run_in_executor` of a sync consumer. -/
  | accept
  | refuse (error : SourceError)
  | createSource
  | createSourceFails (error : SourceError)
  | checkStop
  | nextItem
  /-- A sync source gives an item, which is put at once. -/
  | item (data : α)
  /-- An async source gives an item, and the loop looks at `source_stop`. -/
  | checkItem (data : α)
  | publish
  | exhausted
  | sourceRaises (error : SourceError)
  | closeSource
  | lookupFails (error : SourceError)
  | closeFails (error : SourceError)
  /-- The root learns how the consumer has ended. -/
  | deliver
  /-- A cancellation of the root while it waits for the executor. -/
  | cancel (error : SourceError)
  /-- `source_stop.set`. -/
  | stop
deriving DecidableEq, Repr

namespace StreamState

variable {α : Type} (s : StreamState α)

def finish (outcome : StreamOutcome α) : StreamState α :=
  { s with root := .over, outcome := some outcome }

/-- The tunnel is ended by the consumer alone, so a put is never refused. -/
def put (data : α) : Option (StreamState α) :=
  match s.tunnel.put data with
  | .ok tunnel => some { s with tunnel := tunnel, consumer := .iterating }
  | .error _ => none

/-- The look at `source_stop` before the loop. -/
def checkStop : Option (StreamState α) :=
  match s.consumer with
  | .checking =>
    if s.sourceStop then
      some { s with tunnel := s.tunnel.close, consumer := .closing .stoppedBefore }
    else some { s with consumer := .iterating }
  | _ => none

/-- The loop condition of a sync consumer. -/
def nextItem : Option (StreamState α) :=
  match s.kind, s.consumer with
  | .sync, .iterating =>
    some { s with consumer := if s.sourceStop then .closing .ended else .fetching }
  | _, _ => none

def item (data : α) : Option (StreamState α) :=
  match s.kind, s.consumer with
  | .sync, .fetching => s.put data
  | _, _ => none

/-- Another thread may set `source_stop` between this look and the put. -/
def checkItem (data : α) : Option (StreamState α) :=
  match s.kind, s.consumer with
  | .async, .iterating =>
    some { s with consumer := if s.sourceStop then .closing .ended else .publishing data }
  | _, _ => none

def publish : Option (StreamState α) :=
  match s.consumer with
  | .publishing data => s.put data
  | _ => none

def exhausted : Option (StreamState α) :=
  match s.kind, s.consumer with
  | .async, .iterating | .sync, .fetching => some { s with consumer := .closing .ended }
  | _, _ => none

/-- An exception in the `try` block. -/
def sourceRaises (error : SourceError) : Option (StreamState α) :=
  match s.kind, s.consumer with
  | .async, .iterating =>
    some { s with
      tunnel := if error.isCancelled then s.tunnel.close else s.tunnel.fail error
      consumer := .closing (.raised error) }
  | .sync, .iterating | .sync, .fetching =>
    some { s with tunnel := s.tunnel.fail error, consumer := .closing (.raised error) }
  | _, _ => none

/-- The end of the `finally` block, and `tunnel.close()` after a loop that has ended. -/
def closeSource : Option (StreamState α) :=
  match s.consumer with
  | .closing .ended =>
    some { s with tunnel := s.tunnel.close, consumer := .over (.run .ended .closed) }
  | .closing loopEnd => some { s with consumer := .over (.run loopEnd .closed) }
  | _ => none

def lookupFails (error : SourceError) : Option (StreamState α) :=
  match s.consumer with
  | .closing loopEnd => some { s with consumer := .over (.run loopEnd (.lookupFailed error)) }
  | _ => none

def closeFails (error : SourceError) : Option (StreamState α) :=
  match s.consumer with
  | .closing loopEnd =>
    some { s with
      tunnel := s.tunnel.fail error
      consumer := .over (.run loopEnd (.closeFailed error)) }
  | _ => none

/-- `_execute_scalar` returns or raises in `body`. -/
def deliver : Option (StreamState α) :=
  match s.consumer, s.root with
  | .over run, .executing =>
    match run.raises with
    | none => some (s.finish (.result s.tunnel.items))
    | some error => some (s.finish (.ofException (awaitWithLoopAffinityGuidance s.onCarrier error)))
  | .over run, .awaiting =>
    match run.raises with
    | none => some (s.finish (.result s.tunnel.items))
    | some error => some (s.finish (.ofException (.raised error)))
  | .over run, .absorbing _ =>
    match run.raises with
    | none => some (s.finish .cancelled)
    | some error => some (s.finish (.ofException (.raised error)))
  | _, _ => none

def step : StreamEvent α → Option (StreamState α)
  | .start => if s.root = .posted then some { s with root := .admission } else none
  | .startFails error =>
    if s.root = .posted then some (s.finish (.exception (.raised error))) else none
  | .grantPermit =>
    if s.root = .admission then
      some { s with
        root := .executing
        consumer := if s.kind = .async then .queued else s.consumer }
    else none
  | .cancelAdmission error =>
    if s.root = .admission ∧ error.isCancelled then some (s.finish .cancelled) else none
  | .accept =>
    if s.kind = .sync ∧ s.root = .executing then
      some { s with root := .awaiting, consumer := .queued }
    else none
  | .refuse error =>
    if s.kind = .sync ∧ s.root = .executing then some (s.finish (.ofException (.raised error))) else none
  | .createSource =>
    match s.consumer with
    | .queued => some { s with consumer := .checking }
    | _ => none
  | .createSourceFails error =>
    match s.consumer with
    | .queued => some { s with consumer := .over (.notCreated error) }
    | _ => none
  | .checkStop => s.checkStop
  | .nextItem => s.nextItem
  | .item data => s.item data
  | .checkItem data => s.checkItem data
  | .publish => s.publish
  | .exhausted => s.exhausted
  | .sourceRaises error => s.sourceRaises error
  | .closeSource => s.closeSource
  | .lookupFails error => s.lookupFails error
  | .closeFails error => s.closeFails error
  | .deliver => s.deliver
  | .cancel error =>
    if error.isCancelled then
      match s.root with
      | .awaiting => some { s with root := .absorbing error }
      | .absorbing _ => some (s.finish .cancelled)
      | _ => none
    else none
  | .stop => some { s with sourceStop := true }

end StreamState

/-- The runs of a stream; its tunnel retains everything. -/
def streamSystem (α : Type) (kind : SourceKind) (onCarrier : Bool) (timeout : Option Int) :
    System (StreamState α) (StreamEvent α) where
  Init s := s = {
    kind := kind
    onCarrier := onCarrier
    tunnel := ⟨[], 0, 0, false, none, timeout, none⟩ }
  step := StreamState.step

/-! ## 3. The two views -/

/-- How the tunnel has been ended. -/
structure TunnelSignal where
  closed : Bool
  failure : Option SourceError
deriving DecidableEq, Repr

def LoopEnd.signal (kind : SourceKind) : LoopEnd → TunnelSignal
  | .stoppedBefore => ⟨true, none⟩
  | .ended => ⟨false, none⟩
  | .raised error =>
    if kind = .async ∧ error.isCancelled then ⟨true, none⟩ else ⟨false, some error⟩

def ConsumerRun.signal (kind : SourceKind) : ConsumerRun → TunnelSignal
  | .notCreated _ => ⟨false, none⟩
  | .run .ended .closed => ⟨true, none⟩
  | .run .ended (.closeFailed error) => ⟨false, some error⟩
  | .run loopEnd _ => loopEnd.signal kind

def ConsumerPhase.signal {α : Type} (kind : SourceKind) : ConsumerPhase α → TunnelSignal
  | .closing loopEnd => loopEnd.signal kind
  | .over run => run.signal kind
  | _ => ⟨false, none⟩

/-- The exception is translated on its way to the body. -/
def SourceError.isTranslated (kind : SourceKind) (onCarrier : Bool) : SourceError → Bool
  | .loopAffinity _ => decide (kind = .async) && onCarrier
  | _ => false

/-- The body gets the exception with which the tunnel has failed. -/
def SourceError.isReported (kind : SourceKind) (onCarrier : Bool) (error : SourceError) : Bool :=
  !error.isCancelled && !error.isTranslated kind onCarrier

/-- What the consumer raises last is what its readers see: nothing; a cancellation after the
    tunnel has been closed; or the error with which the tunnel has failed, untranslated. -/
def ConsumerRun.raisesAsSignalled (kind : SourceKind) (onCarrier : Bool) : ConsumerRun → Bool
  | .notCreated _ => false
  | .run .stoppedBefore .closed | .run .ended .closed => true
  | .run (.raised error) .closed =>
    (decide (kind = .async) && error.isCancelled) || error.isReported kind onCarrier
  | .run .stoppedBefore (.lookupFailed error) | .run .stoppedBefore (.closeFailed error) =>
    error.isCancelled
  | .run .ended (.lookupFailed _) => false
  | .run .ended (.closeFailed error) => error.isReported kind onCarrier
  | .run (.raised first) (.lookupFailed error) | .run (.raised first) (.closeFailed error) =>
    if kind = .async ∧ first.isCancelled then error.isCancelled
    else decide (error = first) && error.isReported kind onCarrier

namespace StreamState

variable {α : Type} (s : StreamState α)

/-- The tunnel agrees with the body outcome, if there is one. -/
def Agrees : Prop :=
  match s.outcome with
  | none => True
  | some (.result values) =>
    s.tunnel.closed = true ∧ s.tunnel.failure = none ∧ s.tunnel.items = values
  | some (.exception exception) =>
    ∃ error, exception = .raised error ∧ s.tunnel.closed = false ∧ s.tunnel.failure = some error
  | some .cancelled => s.tunnel.closed = true ∧ s.tunnel.failure = none

/-- The steps that set an outcome which the tunnel does not show. -/
def disagrees : StreamEvent α → Bool
  | .startFails _ | .cancelAdmission _ | .refuse _ => true
  | .deliver =>
    match s.consumer with
    | .over run => !run.raisesAsSignalled s.kind s.onCarrier
    | _ => false
  | .cancel _ =>
    match s.root with
    | .absorbing _ => !s.tunnel.closed
    | _ => false
  | _ => false

end StreamState

end AgentlyStage
