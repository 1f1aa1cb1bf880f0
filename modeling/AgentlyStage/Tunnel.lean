import AgentlyStage.Lib.Transition

/-!
# The tunnel

A channel with retained history: producers append, and every subscription reads with a
cursor of its own.  A sequence number names an item for good; `baseSequence` is the first
one retained.

Every operation is one critical section of `_condition`.  A read is a loop of such sections
with a wait in between, so several consumers of one subscription interleave between the
sections.  `start`, `outcomes` and `closed` of a subscriber and `accepted` of the state
record what has happened; no step looks at them.
-/

namespace AgentlyStage

open Transition

/-! ## 1. The tunnel and its subscriptions -/

/-- `TunnelLagError`. -/
structure TunnelLagError where
  expectedSequence : Nat
  availableFrom : Nat
deriving DecidableEq, Repr

def TunnelLagError.missedCount (error : TunnelLagError) : Nat :=
  error.availableFrom - error.expectedSequence

inductive TunnelError where
  | tunnelClosed (message : String)
  | valueError (message : String)
deriving DecidableEq, Repr

/-- Times are in one unit of the monotonic clock. -/
structure Tunnel (α ε : Type) where
  items : List α
  baseSequence : Nat
  nextSequence : Nat
  closed : Bool
  failure : Option ε
  timeout : Option Int
  maxHistory : Option Nat
deriving DecidableEq, Repr

structure TunnelSubscription where
  timeout : Option Int
  cursor : Nat
  terminated : Bool
deriving DecidableEq, Repr

/-- `TunnelStart`. -/
inductive TunnelStart where
  | earliest
  | latest
  | sequence (start : Int)
deriving DecidableEq, Repr

/-- What a read returns or raises; the last three raise `StopIteration`, which the error of a
    failure is not. -/
inductive ReadOutcome (α ε : Type) where
  | item (data : α)
  | lag (error : TunnelLagError)
  | failed (error : ε)
  | eof
  | timedOut
  /-- The subscription has been terminated before. -/
  | stopped
deriving DecidableEq, Repr

def ReadOutcome.item? {α ε : Type} : ReadOutcome α ε → Option α
  | .item data => some data
  | _ => none

namespace Tunnel

variable {α ε : Type}

/-- `Tunnel.__init__`. -/
def new (timeout : Option Int) (maxHistory : Option Nat) : Except TunnelError (Tunnel α ε) :=
  if maxHistory.any fun n => decide (n ≤ 0) then
    .error (.valueError "Tunnel max_history must be positive")
  else
    .ok ⟨[], 0, 0, false, none, timeout, maxHistory⟩

variable (t : Tunnel α ε)

def terminal : Bool := t.closed || t.failure.isSome

def put (data : α) : Except TunnelError (Tunnel α ε) :=
  if t.terminal then
    .error (.tunnelClosed "Cannot put data after Tunnel terminal state")
  else if t.maxHistory.any fun n => decide (n < (t.items ++ [data]).length) then
    .ok { t with
      items := (t.items ++ [data]).tail
      nextSequence := t.nextSequence + 1
      baseSequence := t.baseSequence + 1 }
  else
    .ok { t with items := t.items ++ [data], nextSequence := t.nextSequence + 1 }

def close : Tunnel α ε :=
  if t.terminal then t else { t with closed := true }

def fail (error : ε) : Tunnel α ε :=
  if t.terminal then t else { t with failure := some error }

/-- `subscribe`; a timeout of none is the default one. -/
def subscribe (start : TunnelStart) (timeout : Option (Option Int)) :
    Except TunnelError TunnelSubscription :=
  match start with
  | .earliest => .ok ⟨timeout.getD t.timeout, t.baseSequence, false⟩
  | .latest => .ok ⟨timeout.getD t.timeout, t.nextSequence, false⟩
  | .sequence start =>
    if start < 0 then
      .error (.valueError "Tunnel subscription start sequence must be non-negative")
    else if (t.nextSequence : Int) < start then
      .error (.valueError ("Tunnel subscription start sequence " ++ toString start ++
        " is after the next Tunnel sequence " ++ toString t.nextSequence))
    else .ok ⟨timeout.getD t.timeout, start.toNat, false⟩

/-- The critical section of `__next__` and `__anext__`: the outcome of the read, none when it
    has to wait. -/
def look (sub : TunnelSubscription) : Option (ReadOutcome α ε × TunnelSubscription) :=
  if sub.terminated then
    some (.stopped, sub)
  else if sub.cursor < t.baseSequence then
    some (.lag ⟨sub.cursor, t.baseSequence⟩, { sub with terminated := true })
  else
    match t.items[sub.cursor - t.baseSequence]? with
    | some item => some (.item item, { sub with cursor := sub.cursor + 1 })
    | none =>
      match t.failure with
      | some error => some (.failed error, { sub with terminated := true })
      | none => if t.closed then some (.eof, { sub with terminated := true }) else none

end Tunnel

/-! ## 2. Readers -/

inductive ReadMode where
  | sync
  | async
deriving DecidableEq, Repr

inductive ReadPhase where
  | looking
  | waiting
  | done
deriving DecidableEq, Repr

/-- A call of `__next__` or `__anext__`. -/
structure TunnelRead where
  subscription : Nat
  mode : ReadMode
  deadline : Option Int
  phase : ReadPhase
deriving DecidableEq, Repr

def TunnelRead.expired (read : TunnelRead) (now : Int) : Bool :=
  read.deadline.any fun deadline => decide (deadline - now ≤ 0)

/-- A subscription with its start, the outcomes of its reads, and whether `close` has ended
    it. -/
structure Subscriber (α ε : Type) where
  subscription : TunnelSubscription
  start : Nat
  outcomes : List (ReadOutcome α ε) := []
  closed : Bool := false
deriving DecidableEq, Repr

def Subscriber.delivered {α ε : Type} (u : Subscriber α ε) : List α :=
  u.outcomes.filterMap ReadOutcome.item?

structure TunnelState (α ε : Type) where
  tunnel : Tunnel α ε
  subscribers : List (Subscriber α ε) := []
  reads : List TunnelRead := []
  now : Int := 0
  /-- The items of the puts that have returned. -/
  accepted : List α := []
deriving DecidableEq, Repr

namespace TunnelState

variable {α ε : Type} (s : TunnelState α ε)

def setRead (r : Nat) (read : TunnelRead) : TunnelState α ε :=
  { s with reads := s.reads.set r read }

def setSubscriber (i : Nat) (u : Subscriber α ε) : TunnelState α ε :=
  { s with subscribers := s.subscribers.set i u }

/-- The read ends, and leaves the subscription as `sub`. -/
def answer (r : Nat) (read : TunnelRead) (u : Subscriber α ε) (outcome : ReadOutcome α ε)
    (sub : TunnelSubscription) : TunnelState α ε :=
  (s.setSubscriber read.subscription
    { u with subscription := sub, outcomes := u.outcomes ++ [outcome] }).setRead r
      { read with phase := .done }

/-- A put that raises leaves the tunnel as it is. -/
def put (data : α) : TunnelState α ε :=
  match s.tunnel.put data with
  | .ok tunnel => { s with tunnel := tunnel, accepted := s.accepted ++ [data] }
  | .error _ => s

def subscribe (start : TunnelStart) (timeout : Option (Option Int)) : TunnelState α ε :=
  match s.tunnel.subscribe start timeout with
  | .ok sub =>
    { s with subscribers := s.subscribers ++ [{ subscription := sub, start := sub.cursor }] }
  | .error _ => s

/-- The deadline of a sync read counts from its call. -/
def beginRead (i : Nat) (mode : ReadMode) : Option (TunnelState α ε) :=
  (s.subscribers[i]?).map fun u =>
    { s with reads := s.reads ++ [⟨i, mode, u.subscription.timeout.map (s.now + ·), .looking⟩] }

/-- One look of a read.  A sync read with nothing to deliver ends at its deadline; an async
    one waits with a deadline that counts from here. -/
def look (r : Nat) : Option (TunnelState α ε) :=
  match s.reads[r]? with
  | some read =>
    match s.subscribers[read.subscription]? with
    | some u =>
      if read.phase = .looking then
        match s.tunnel.look u.subscription with
        | some (outcome, sub) => some (s.answer r read u outcome sub)
        | none =>
          match read.mode with
          | .sync =>
            if read.expired s.now then
              some (s.answer r read u .timedOut { u.subscription with terminated := true })
            else some (s.setRead r { read with phase := .waiting })
          | .async =>
            some (s.setRead r
              { read with
                phase := .waiting
                deadline := u.subscription.timeout.map (s.now + ·) })
      else none
    | none => none
  | none => none

/-- The wait of a read ends: a notification, or the deadline of a sync read. -/
def wake (r : Nat) : Option (TunnelState α ε) :=
  match s.reads[r]? with
  | some read =>
    if read.phase = .waiting then some (s.setRead r { read with phase := .looking }) else none
  | none => none

/-- `asyncio.TimeoutError` in `__anext__`, which does not look again. -/
def expire (r : Nat) : Option (TunnelState α ε) :=
  match s.reads[r]? with
  | some read =>
    match s.subscribers[read.subscription]? with
    | some u =>
      if decide (read.phase = .waiting) && decide (read.mode = .async) && read.expired s.now then
        some (s.answer r read u .timedOut { u.subscription with terminated := true })
      else none
    | none => none
  | none => none

/-- The task of a waiting async read is cancelled. -/
def cancelRead (r : Nat) : Option (TunnelState α ε) :=
  match s.reads[r]? with
  | some read =>
    if decide (read.phase = .waiting) && decide (read.mode = .async) then
      some (s.setRead r { read with phase := .done })
    else none
  | none => none

/-- `TunnelSubscription.close`. -/
def closeSubscription (i : Nat) : Option (TunnelState α ε) :=
  (s.subscribers[i]?).map fun u =>
    if u.subscription.terminated then s
    else s.setSubscriber i
      { u with subscription := { u.subscription with terminated := true }, closed := true }

end TunnelState

/-! ## 3. The system of a tunnel -/

inductive TunnelEvent (α ε : Type) where
  | put (data : α)
  | close
  | fail (error : ε)
  | subscribe (start : TunnelStart) (timeout : Option (Option Int))
  | beginRead (i : Nat) (mode : ReadMode)
  | look (r : Nat)
  | wake (r : Nat)
  | expire (r : Nat)
  | cancelRead (r : Nat)
  | closeSubscription (i : Nat)
  | advance (time : Nat)
deriving DecidableEq, Repr

variable {α ε : Type}

namespace TunnelState

def step (s : TunnelState α ε) : TunnelEvent α ε → Option (TunnelState α ε)
  | .put data => some (s.put data)
  | .close => some { s with tunnel := s.tunnel.close }
  | .fail error => some { s with tunnel := s.tunnel.fail error }
  | .subscribe start timeout => some (s.subscribe start timeout)
  | .beginRead i mode => s.beginRead i mode
  | .look r => s.look r
  | .wake r => s.wake r
  | .expire r => s.expire r
  | .cancelRead r => s.cancelRead r
  | .closeSubscription i => s.closeSubscription i
  | .advance time => some { s with now := s.now + time }

end TunnelState

/-- The runs of a new tunnel. -/
def tunnelSystem (α ε : Type) (timeout : Option Int) (maxHistory : Option Nat) :
    System (TunnelState α ε) (TunnelEvent α ε) where
  Init s := ∃ tunnel, Tunnel.new timeout maxHistory = .ok tunnel ∧ s = { tunnel := tunnel }
  step := TunnelState.step

end AgentlyStage
