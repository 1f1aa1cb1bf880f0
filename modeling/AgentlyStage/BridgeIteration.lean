import AgentlyStage.StreamViews

/-!
# Iterating a source through the bridge

`iter_sync` reads an async source with sync reads, `iter_async` reads a sync source with async
ones.  The source feeds the tunnel of a stream in a Stage of its own, and the generator reads
one subscription of it with the default timeout of the tunnel.  A read that times out ends the
subscription in the same way as the end of the source, so what the consumer gets is the source
up to its first item that comes too late.
-/

namespace AgentlyStage

open Transition

/-! ## 1. The source and the iteration -/

/-- A finite source: its items, what it raises after them, and how closing it ends. -/
structure SourceScript (α : Type) where
  items : List α
  failure : Option SourceError
  closing : SourceClosing
deriving DecidableEq, Repr

/-- How an iteration ends for the consumer. -/
inductive IterationEnd where
  | exhausted
  | raised (error : SourceError)
  | lagged (error : TunnelLagError)
deriving DecidableEq, Repr

/-- The own end of a source: its exception, or else the one of closing it. -/
def SourceScript.ownEnd {α : Type} (source : SourceScript α) : IterationEnd :=
  match source.failure, source.closing with
  | some error, _ => .raised error
  | none, .closed => .exhausted
  | none, .lookupFailed error | none, .closeFailed error => .raised error

/-- The reads of the generator: `iter_sync` for an async source, `iter_async` for a sync one. -/
def SourceKind.readMode : SourceKind → ReadMode
  | .async => .sync
  | .sync => .async

/-- How an item of the source comes to its consumer. -/
def SourceKind.gives {α : Type} (kind : SourceKind) (item : α) : StreamEvent α :=
  match kind with
  | .async => .checkItem item
  | .sync => .item item

/-- The steps of the root and of its consumer in which the source has no part. -/
def StreamEvent.isInternal {α : Type} : StreamEvent α → Bool
  | .start | .startFails _ | .grantPermit | .accept | .refuse _ | .createSource | .checkStop
  | .nextItem | .deliver => true
  | _ => false

/-- What the cancellation of a root can cause. -/
def StreamEvent.isCancellation {α : Type} (kind : SourceKind) : StreamEvent α → Bool
  | .cancelAdmission error | .cancel error => error.isCancelled
  | .sourceRaises error | .closeFails error => decide (kind = .async) && error.isCancelled
  | _ => false

inductive IterationPhase where
  | reading
  /-- In the `finally` block. -/
  | closing (ending : IterationEnd)
  | ended (ending : IterationEnd)
deriving DecidableEq, Repr

def IterationPhase.end? : IterationPhase → Option IterationEnd
  | .reading => none
  | .closing ending | .ended ending => some ending

/-- A generator of the bridge with its source, of which `remaining` is to come, and its stream. -/
structure BridgeIteration (α : Type) where
  source : SourceScript α
  remaining : List α
  stream : StreamState α
  subscription : TunnelSubscription
  read : Option TunnelRead := none
  received : List α := []
  phase : IterationPhase := .reading
  now : Int := 0
deriving DecidableEq, Repr

inductive IterationEvent (α : Type) where
  /-- A step of the stream. -/
  | stream (event : StreamEvent α)
  /-- The source answers: its next item, or its end. -/
  | sourceAnswers
  /-- `tunnel.put` of the item that an async source has given. -/
  | publish
  /-- `aclose` or `close` of the source. -/
  | sourceCloses
  /-- The consumer asks for an item. -/
  | next
  | look
  | wake
  | expire
  /-- The `finally` block has waited for the stream. -/
  | settle
  | advance (time : Nat)
deriving DecidableEq, Repr

namespace BridgeIteration

variable {α : Type} (s : BridgeIteration α)

def withStream (stream : Option (StreamState α)) : Option (BridgeIteration α) :=
  stream.map fun stream => { s with stream := stream }

/-- Nothing is cancelled before the consumer is done. -/
def streamStep (event : StreamEvent α) : Option (BridgeIteration α) :=
  if event.isInternal || (decide (s.phase ≠ .reading) && event.isCancellation s.stream.kind) then
    s.withStream (s.stream.step event)
  else none

def sourceAnswers : Option (BridgeIteration α) :=
  match s.remaining with
  | item :: rest =>
    { s with remaining := rest }.withStream (s.stream.step (s.stream.kind.gives item))
  | [] =>
    match s.source.failure with
    | none => s.withStream (s.stream.step .exhausted)
    | some error => s.withStream (s.stream.step (.sourceRaises error))

def sourceCloses : Option (BridgeIteration α) :=
  match s.source.closing with
  | .closed => s.withStream (s.stream.step .closeSource)
  | .lookupFailed error => s.withStream (s.stream.step (.lookupFails error))
  | .closeFailed error => s.withStream (s.stream.step (.closeFails error))

/-- The iteration of the stream is over; `stream.close` sets `source_stop`. -/
def leave (ending : IterationEnd) : BridgeIteration α :=
  { s with stream := { s.stream with sourceStop := true }, phase := .closing ending }

/-- The read ends, and leaves the subscription as `sub`. -/
def answer (outcome : ReadOutcome α SourceError) (sub : TunnelSubscription) : BridgeIteration α :=
  let s := { s with subscription := sub, read := none }
  match outcome with
  | .item data => { s with received := s.received ++ [data] }
  | .lag error => s.leave (.lagged error)
  | .failed error => s.leave (.raised error)
  | .eof | .timedOut | .stopped => s.leave .exhausted

def timeOut : BridgeIteration α :=
  s.answer .timedOut { s.subscription with terminated := true }

def deadline : Option Int := s.subscription.timeout.map (s.now + ·)

/-- A call of `__next__` or `__anext__`. -/
def next : Option (BridgeIteration α) :=
  if s.phase = .reading ∧ s.read = none then
    some { s with read := some ⟨0, s.stream.kind.readMode, s.deadline, .looking⟩ }
  else none

def look : Option (BridgeIteration α) :=
  match s.read with
  | some read =>
    if read.phase = .looking then
      match s.stream.tunnel.look s.subscription with
      | some (outcome, sub) => some (s.answer outcome sub)
      | none =>
        match read.mode with
        | .sync =>
          if read.expired s.now then some s.timeOut
          else some { s with read := some { read with phase := .waiting } }
        | .async =>
          some { s with read := some { read with phase := .waiting, deadline := s.deadline } }
    else none
  | none => none

def wake : Option (BridgeIteration α) :=
  match s.read with
  | some read =>
    if read.phase = .waiting then some { s with read := some { read with phase := .looking } }
    else none
  | none => none

/-- `asyncio.TimeoutError` in `__anext__`, which does not look again. -/
def expire : Option (BridgeIteration α) :=
  match s.read with
  | some read =>
    if decide (read.phase = .waiting) && decide (read.mode = .async) && read.expired s.now then
      some s.timeOut
    else none
  | none => none

/-- `stream.close` returns when its root is settled. -/
def settle : Option (BridgeIteration α) :=
  match s.phase with
  | .closing ending => if s.stream.root = .over then some { s with phase := .ended ending } else none
  | _ => none

def step : IterationEvent α → Option (BridgeIteration α)
  | .stream event => s.streamStep event
  | .sourceAnswers => s.sourceAnswers
  | .publish => s.withStream (s.stream.step .publish)
  | .sourceCloses => s.sourceCloses
  | .next => s.next
  | .look => s.look
  | .wake => s.wake
  | .expire => s.expire
  | .settle => s.settle
  | .advance time => some { s with now := s.now + time }

end BridgeIteration

/-- The runs of `iter_sync` (an async source) or `iter_async` (a sync one); the tunnel of the
    stream has its default timeout. -/
def iterationSystem {α : Type} (kind : SourceKind) (onCarrier : Bool) (timeout : Option Int)
    (source : SourceScript α) : System (BridgeIteration α) (IterationEvent α) where
  Init s := s = {
    source := source
    remaining := source.items
    stream := {
      kind := kind
      onCarrier := onCarrier
      tunnel := ⟨[], 0, 0, false, none, timeout, none⟩ }
    subscription := ⟨timeout, 0, false⟩ }
  step := BridgeIteration.step

/-! ## 2. The law -/

namespace BridgeIteration

variable {α : Type} (s : BridgeIteration α)

/-- What the consumer has got is the source: a part of its items, and at the end all of them and
    the end of the source. -/
def Agrees : Prop :=
  s.received <+: s.source.items ∧ ∀ ending, s.phase.end? = some ending →
    s.received = s.source.items ∧ ending = s.source.ownEnd

/-- An item or an exception of the source has not reached the consumer. -/
def outstanding : Bool :=
  decide (s.received.length < s.source.items.length) || decide (s.source.ownEnd ≠ .exhausted)

/-- The steps that lose a part of the source: a read times out with something outstanding, or an
    async source ends with a cancellation, which closes the tunnel. -/
def loses : IterationEvent α → Bool
  | .look =>
    match s.read with
    | some read =>
      decide (read.phase = .looking) && (s.stream.tunnel.look s.subscription).isNone &&
        decide (read.mode = .sync) && read.expired s.now && s.outstanding
    | none => false
  | .expire => s.outstanding
  | .sourceAnswers =>
    decide (s.phase = .reading) && s.remaining.isEmpty && decide (s.stream.kind = .async) &&
      s.source.failure.any SourceError.isCancelled
  | _ => false

end BridgeIteration

/-! ## 3. The stream behind the iteration -/

/-- How the consumer leaves its loop when it is not stopped. -/
def SourceScript.loopEnd {α : Type} (source : SourceScript α) : LoopEnd :=
  source.failure.elim .ended .raised

/-- The consumer has left its loop at the end of the source only. -/
def ConsumerPhase.StandsAt {α : Type} (source : SourceScript α) (remaining : List α) :
    ConsumerPhase α → Prop
  | .closing loopEnd => remaining = [] ∧ loopEnd = source.loopEnd
  | .over run => remaining = [] ∧ run = .run source.loopEnd source.closing
  | _ => True

/-- A consumer in its loop, or before it. -/
def ConsumerPhase.Unfinished {α : Type} : ConsumerPhase α → Prop
  | .closing _ | .over _ => False
  | _ => True

/-- The item that the source has given and the consumer has not put yet. -/
def ConsumerPhase.held {α : Type} : ConsumerPhase α → List α
  | .publishing data => [data]
  | _ => []

theorem ConsumerPhase.Unfinished.standsAt {α : Type} {source : SourceScript α}
    {remaining : List α} {consumer : ConsumerPhase α} (h : consumer.Unfinished) :
    consumer.StandsAt source remaining := by
  cases consumer with
  | closing loopEnd => exact h.elim
  | «over» run => exact h.elim
  | pending | queued | checking | iterating | fetching | publishing data => trivial

/-- The own end of a source whose consumer has left the loop without an exception. -/
theorem SourceScript.ownEnd_of_ended {α : Type} {source : SourceScript α}
    (h : LoopEnd.ended = source.loopEnd) :
    source.ownEnd = match source.closing with
      | .closed => .exhausted
      | .lookupFailed error | .closeFailed error => .raised error := by
  unfold loopEnd at h
  unfold ownEnd
  cases hfailure : source.failure with
  | none =>
    cases source.closing with
    | closed | lookupFailed error | closeFailed error => rfl
  | some error =>
    rw [hfailure] at h
    cases h

theorem SourceScript.ownEnd_of_failure {α : Type} {source : SourceScript α} {error : SourceError}
    (h : source.failure = some error) : source.ownEnd = .raised error := by
  unfold ownEnd
  rw [h]

namespace StreamState

variable {α : Type} {s s' : StreamState α}

/-- An internal step leaves the tunnel and the place of the consumer in the source. -/
theorem StreamInv.internal_frame (hi : StreamInv s) {e : StreamEvent α} (he : e.isInternal = true)
    (hrunning : s.sourceStop = false) (h : s.step e = some s') :
    s'.tunnel = s.tunnel ∧ s'.sourceStop = false ∧ s'.consumer.held = s.consumer.held ∧
      (s'.consumer = s.consumer ∨ s'.consumer.Unfinished) := by
  cases e with
  | start | startFails error | refuse error =>
    simp only [StreamState.step] at h
    split at h
    · cases h
      exact ⟨rfl, hrunning, rfl, Or.inl rfl⟩
    · cases h
  | accept =>
    simp only [StreamState.step] at h
    split at h
    · rename_i hroot
      cases h
      have hpending := hi.pending (Or.inr (Or.inr ⟨hroot.2, hroot.1⟩))
      exact ⟨rfl, hrunning, by rw [hpending]; rfl, Or.inr trivial⟩
    · cases h
  | grantPermit =>
    simp only [StreamState.step] at h
    split at h
    · rename_i hroot
      cases h
      have hpending := hi.pending (Or.inr (Or.inl hroot))
      dsimp only
      split
      · exact ⟨rfl, hrunning, by rw [hpending]; rfl, Or.inr trivial⟩
      · exact ⟨rfl, hrunning, rfl, Or.inl rfl⟩
    · cases h
  | createSource =>
    simp only [StreamState.step] at h
    split at h
    · rename_i hconsumer
      cases h
      exact ⟨rfl, hrunning, by rw [hconsumer]; rfl, Or.inr trivial⟩
    · cases h
  | checkStop =>
    simp only [StreamState.step, StreamState.checkStop] at h
    split at h
    · rename_i hconsumer
      rw [if_neg (by rw [hrunning]; exact Bool.false_ne_true)] at h
      cases h
      exact ⟨rfl, hrunning, by rw [hconsumer]; rfl, Or.inr trivial⟩
    · cases h
  | nextItem =>
    simp only [StreamState.step, StreamState.nextItem] at h
    split at h
    · rename_i hkind hconsumer
      rw [if_neg (by rw [hrunning]; exact Bool.false_ne_true)] at h
      cases h
      exact ⟨rfl, hrunning, by rw [hconsumer]; rfl, Or.inr trivial⟩
    · cases h
  | deliver =>
    obtain ⟨run, -, rfl, -⟩ := hi.deliver h
    exact ⟨rfl, hrunning, rfl, Or.inl rfl⟩
  | cancelAdmission error | createSourceFails error | item data | checkItem data | publish
  | exhausted | sourceRaises error | closeSource | lookupFails error | closeFails error
  | cancel error | stop => cases he

theorem put_spec {data : α} (h : s.put data = some s') :
    ∃ tunnel, s.tunnel.put data = .ok tunnel ∧
      s' = { s with tunnel := tunnel, consumer := .iterating } := by
  unfold StreamState.put at h
  split at h
  · rename_i tunnel hput
    exact ⟨tunnel, hput, (Option.some.inj h).symm⟩
  · cases h

theorem item_spec {data : α} (h : s.step (.item data) = some s') :
    s.consumer.held = [] ∧ s.put data = some s' := by
  simp only [StreamState.step, StreamState.item] at h
  split at h
  · rename_i hkind hconsumer
    exact ⟨by rw [hconsumer]; rfl, h⟩
  · cases h

theorem publish_spec (h : s.step .publish = some s') :
    ∃ data, s.consumer.held = [data] ∧ s.put data = some s' := by
  simp only [StreamState.step, StreamState.publish] at h
  split at h
  · rename_i data hconsumer
    exact ⟨data, by rw [hconsumer]; rfl, h⟩
  · cases h

theorem checkItem_spec {data : α} (hrunning : s.sourceStop = false)
    (h : s.step (.checkItem data) = some s') :
    s.consumer.held = [] ∧ s' = { s with consumer := .publishing data } := by
  simp only [StreamState.step, StreamState.checkItem] at h
  split at h
  · rename_i hkind hconsumer
    rw [if_neg (by rw [hrunning]; exact Bool.false_ne_true)] at h
    exact ⟨by rw [hconsumer]; rfl, (Option.some.inj h).symm⟩
  · cases h

theorem exhausted_spec (h : s.step .exhausted = some s') :
    s.consumer.held = [] ∧ s' = { s with consumer := .closing .ended } := by
  simp only [StreamState.step, StreamState.exhausted] at h
  split at h
  · rename_i hkind hconsumer
    exact ⟨by rw [hconsumer]; rfl, (Option.some.inj h).symm⟩
  · rename_i hkind hconsumer
    exact ⟨by rw [hconsumer]; rfl, (Option.some.inj h).symm⟩
  · cases h

theorem sourceRaises_spec {error : SourceError} (h : s.step (.sourceRaises error) = some s') :
    s.consumer.held = [] ∧ s.consumer.signal s.kind = ⟨false, none⟩ ∧
      s' = { s with
        tunnel := if s.kind = .async ∧ error.isCancelled then s.tunnel.close
          else s.tunnel.fail error
        consumer := .closing (.raised error) } := by
  simp only [StreamState.step, StreamState.sourceRaises] at h
  split at h
  · rename_i hkind hconsumer
    cases h
    exact ⟨by rw [hconsumer]; rfl, by rw [hconsumer]; rfl, by simp [hkind]⟩
  · rename_i hkind hconsumer
    cases h
    exact ⟨by rw [hconsumer]; rfl, by rw [hconsumer]; rfl, by simp [hkind]⟩
  · rename_i hkind hconsumer
    cases h
    exact ⟨by rw [hconsumer]; rfl, by rw [hconsumer]; rfl, by simp [hkind]⟩
  · cases h

theorem closeSource_spec (h : s.step .closeSource = some s') :
    ∃ loopEnd, s.consumer = .closing loopEnd ∧ s' = { s with
      tunnel := if loopEnd = .ended then s.tunnel.close else s.tunnel
      consumer := .over (.run loopEnd .closed) } := by
  simp only [StreamState.step, StreamState.closeSource] at h
  split at h
  · rename_i hconsumer
    cases h
    exact ⟨.ended, hconsumer, by simp⟩
  · rename_i loopEnd hne hconsumer
    cases h
    exact ⟨loopEnd, hconsumer, by rw [if_neg hne]⟩
  · cases h

theorem lookupFails_spec {error : SourceError} (h : s.step (.lookupFails error) = some s') :
    ∃ loopEnd, s.consumer = .closing loopEnd ∧
      s' = { s with consumer := .over (.run loopEnd (.lookupFailed error)) } := by
  simp only [StreamState.step, StreamState.lookupFails] at h
  split at h
  · rename_i loopEnd hconsumer
    exact ⟨loopEnd, hconsumer, (Option.some.inj h).symm⟩
  · cases h

theorem closeFails_spec {error : SourceError} (h : s.step (.closeFails error) = some s') :
    ∃ loopEnd, s.consumer = .closing loopEnd ∧ s' = { s with
      tunnel := s.tunnel.fail error
      consumer := .over (.run loopEnd (.closeFailed error)) } := by
  simp only [StreamState.step, StreamState.closeFails] at h
  split at h
  · rename_i loopEnd hconsumer
    exact ⟨loopEnd, hconsumer, (Option.some.inj h).symm⟩
  · cases h

/-- The consumer that has ended the tunnel holds no item. -/
theorem StreamInv.held_of_terminal (hi : StreamInv s) (hterminal : s.tunnel.terminal = true) :
    s.consumer.held = [] := by
  cases hconsumer : s.consumer with
  | publishing data =>
    obtain ⟨hclosed, hfailure⟩ := hi.unset (by rw [hconsumer]; rfl)
    rw [Tunnel.terminal, hclosed, hfailure] at hterminal
    cases hterminal
  | _ => rfl

/-- No step of a stream touches a terminal tunnel. -/
theorem StreamInv.tunnel_of_terminal (hi : StreamInv s) {e : StreamEvent α}
    (hterminal : s.tunnel.terminal = true) (h : s.step e = some s') : s'.tunnel = s.tunnel := by
  rcases (hi.step h).2 with ⟨-, -, hkept⟩ | ⟨-, outcome, rfl, -⟩
  · exact hkept hterminal
  · rfl

end StreamState

namespace BridgeIteration

variable {α : Type} {s s' : BridgeIteration α}

/-! ## 4. The invariant of an iteration -/

/-- The tunnel, the item on its way to it and the rest of the source are the source, and the
    consumer has got the part of the tunnel before its cursor. -/
structure Reads (s : BridgeIteration α) : Prop where
  stream : s.stream.StreamInv
  running : s.stream.sourceStop = false
  items : s.source.items = s.stream.tunnel.items ++ (s.stream.consumer.held ++ s.remaining)
  stands : s.stream.consumer.StandsAt s.source s.remaining
  /-- The tunnel fails at the end of the source, with its exception. -/
  failed : ∀ error, s.stream.tunnel.failure = some error →
    s.remaining = [] ∧ s.source.ownEnd = .raised error
  live : s.subscription.terminated = false
  received : s.received = s.stream.tunnel.items.take s.subscription.cursor
  cursor : s.subscription.cursor ≤ s.stream.tunnel.items.length

structure IterationInv (s : BridgeIteration α) : Prop where
  reading : s.phase = .reading → s.Reads
  done : s.phase ≠ .reading → s.read = none ∧ s.received <+: s.source.items

/-- An open tunnel has not been closed too early. -/
def ClosedAtEnd (s : BridgeIteration α) : Prop :=
  s.stream.tunnel.closed = true → s.remaining = [] ∧ s.source.ownEnd = .exhausted

/-- A step of the stream, the source and the consumer being where they are. -/
structure StreamStep (s s' : BridgeIteration α) : Prop where
  frame : s' = { s with stream := s'.stream, remaining := s'.remaining }
  reads : s'.Reads
  /-- A terminal tunnel stays. -/
  terminal : s.stream.tunnel.terminal = true → s'.stream.tunnel = s.stream.tunnel

theorem Reads.prefix_items (hr : s.Reads) : s.received <+: s.source.items := by
  rw [hr.received, hr.items]
  exact (List.take_prefix _ _).trans (List.prefix_append _ _)

/-- The stream takes a step that leaves the tunnel's items. -/
theorem Reads.streamStep (hr : s.Reads) {e : StreamEvent α} {stream : StreamState α}
    {remaining : List α} (hstep : s.stream.step e = some stream)
    (hrunning : stream.sourceStop = false)
    (hitems : stream.tunnel.items = s.stream.tunnel.items)
    (hheld : stream.consumer.held ++ remaining = s.stream.consumer.held ++ s.remaining)
    (hstands : stream.consumer.StandsAt s.source remaining)
    (hfailed : ∀ error, stream.tunnel.failure = some error →
      remaining = [] ∧ s.source.ownEnd = .raised error) :
    s.StreamStep { s with stream := stream, remaining := remaining } where
  frame := rfl
  reads := {
    stream := (hr.stream.step hstep).1
    running := hrunning
    items := by rw [hitems, hheld]; exact hr.items
    stands := hstands
    failed := hfailed
    live := hr.live
    received := by rw [hitems]; exact hr.received
    cursor := by rw [hitems]; exact hr.cursor }
  terminal hterminal := hr.stream.tunnel_of_terminal hterminal hstep

theorem Reads.internal (hr : s.Reads) {e : StreamEvent α} (he : e.isInternal = true)
    {stream : StreamState α} (hstep : s.stream.step e = some stream) :
    s.StreamStep { s with stream := stream } ∧ stream.tunnel = s.stream.tunnel := by
  obtain ⟨htunnel, hrunning, hheld, hconsumer⟩ :=
    hr.stream.internal_frame he hr.running hstep
  refine ⟨hr.streamStep hstep hrunning (by rw [htunnel]) (by rw [hheld]) ?_
    (by rw [htunnel]; exact hr.failed), htunnel⟩
  rcases hconsumer with hconsumer | hunfinished
  · rw [hconsumer]
    exact hr.stands
  · exact hunfinished.standsAt

/-- The loop of an async source goes on with the item that has come. -/
theorem Reads.checkItem (hr : s.Reads) {item : α} {rest : List α}
    (hremaining : s.remaining = item :: rest) {stream : StreamState α}
    (hstep : s.stream.step (.checkItem item) = some stream) :
    s.StreamStep { s with remaining := rest, stream := stream } ∧
      stream.tunnel = s.stream.tunnel := by
  obtain ⟨hheld, rfl⟩ := StreamState.checkItem_spec hr.running hstep
  have hfailed : ∀ error, s.stream.tunnel.failure = some error →
      rest = [] ∧ s.source.ownEnd = .raised error := by
    intro error herror
    have hnone := (hr.failed error herror).1
    rw [hremaining] at hnone
    cases hnone
  exact ⟨hr.streamStep hstep hr.running rfl (by rw [hheld, hremaining]; rfl) trivial hfailed, rfl⟩

/-- An item goes to the end of an open tunnel. -/
theorem Reads.put (hr : s.Reads) {e : StreamEvent α} {item : α} {rest : List α}
    (hnext : s.stream.consumer.held ++ s.remaining = item :: rest) {stream : StreamState α}
    (hput : s.stream.put item = some stream) (hstep : s.stream.step e = some stream) :
    s.StreamStep { s with remaining := rest, stream := stream } ∧
      stream.tunnel.closed = false := by
  obtain ⟨tunnel, haccepted, rfl⟩ := StreamState.put_spec hput
  obtain ⟨hopen, hclosed, hfailure, -, -, hcases⟩ := Tunnel.put_ok haccepted
  rw [Tunnel.terminal, Bool.or_eq_false_iff] at hopen
  have hnone : s.stream.tunnel.failure = none :=
    Option.not_isSome_iff_eq_none.mp (by simp [hopen.2])
  have hitems : tunnel.items = s.stream.tunnel.items ++ [item] := by
    rcases hcases with ⟨hfull, -⟩ | ⟨-, hitems, -⟩
    · rw [hr.stream.history.1] at hfull
      cases hfull
    · exact hitems
  have hcursor := hr.cursor
  refine ⟨⟨rfl, ?_, fun h => hr.stream.tunnel_of_terminal h hstep⟩, hclosed.trans hopen.1⟩
  exact {
    stream := (hr.stream.step hstep).1
    running := hr.running
    items := by
      have hold := hr.items
      rw [hnext] at hold
      change s.source.items = tunnel.items ++ ([] ++ rest)
      rw [hitems, List.append_assoc]
      exact hold
    stands := trivial
    failed := by
      intro error herror
      rw [show tunnel.failure = none from hfailure.trans hnone] at herror
      cases herror
    live := hr.live
    received := by
      dsimp only
      rw [hitems, List.take_append_of_le_length hcursor]
      exact hr.received
    cursor := by
      dsimp only
      rw [hitems, List.length_append]
      exact Nat.le_add_right_of_le hcursor }

/-- The end of the source. -/
theorem Reads.finished (hr : s.Reads) (hremaining : s.remaining = []) {stream : StreamState α}
    (hstep : s.stream.step (match s.source.failure with
      | none => .exhausted
      | some error => .sourceRaises error) = some stream) :
    s.StreamStep { s with stream := stream } ∧
      ((s.stream.kind = .async ∧ s.source.failure.any SourceError.isCancelled = true ∧
          stream.tunnel.closed = true ∧ stream.tunnel.failure = none) ∨
        (¬ (s.stream.kind = .async ∧ s.source.failure.any SourceError.isCancelled = true) ∧
          stream.tunnel.closed = s.stream.tunnel.closed)) := by
  cases hfailure : s.source.failure with
  | none =>
    rw [hfailure] at hstep
    obtain ⟨hheld, rfl⟩ := StreamState.exhausted_spec hstep
    exact ⟨hr.streamStep hstep hr.running rfl (by rw [hheld]; rfl)
        ⟨hremaining, by rw [SourceScript.loopEnd, hfailure]; rfl⟩
      hr.failed, Or.inr ⟨by simp, rfl⟩⟩
  | some error =>
    rw [hfailure] at hstep
    obtain ⟨hnone', hunset, hstream⟩ := StreamState.sourceRaises_spec hstep
    have hheld : [] ++ s.remaining = s.stream.consumer.held ++ s.remaining := by rw [hnone']
    obtain ⟨hclosed, hnone⟩ := hr.stream.unset hunset
    have hstands : ConsumerPhase.StandsAt s.source s.remaining (.closing (.raised error)) :=
      ⟨hremaining, by rw [SourceScript.loopEnd, hfailure]; rfl⟩
    by_cases hcancelled : s.stream.kind = .async ∧ error.isCancelled = true
    · rw [if_pos hcancelled, StreamState.tunnel_close hclosed hnone] at hstream
      subst hstream
      exact ⟨hr.streamStep hstep hr.running rfl hheld hstands hr.failed,
        Or.inl ⟨hcancelled.1, hcancelled.2, rfl, hnone⟩⟩
    · rw [if_neg hcancelled, StreamState.tunnel_fail hclosed hnone] at hstream
      subst hstream
      refine ⟨hr.streamStep hstep hr.running rfl hheld hstands ?_, Or.inr ⟨hcancelled, rfl⟩⟩
      rintro failure ⟨⟩
      exact ⟨hremaining, SourceScript.ownEnd_of_failure hfailure⟩

/-- A consumer in its `finally` block stands at the end of the source and holds no item. -/
theorem Reads.at_closing (hr : s.Reads) {loopEnd : LoopEnd}
    (hconsumer : s.stream.consumer = .closing loopEnd) :
    s.remaining = [] ∧ loopEnd = s.source.loopEnd ∧
      [] ++ s.remaining = s.stream.consumer.held ++ s.remaining := by
  have hstands := hr.stands
  rw [hconsumer] at hstands ⊢
  exact ⟨hstands.1, hstands.2, rfl⟩

/-- The source is closed. -/
theorem Reads.closed (hr : s.Reads) {stream : StreamState α}
    (hstep : s.stream.step (match s.source.closing with
      | .closed => .closeSource
      | .lookupFailed error => .lookupFails error
      | .closeFailed error => .closeFails error) = some stream) :
    s.StreamStep { s with stream := stream } ∧
      (stream.tunnel.closed = true → s.stream.tunnel.closed = true ∨
        (s.remaining = [] ∧ s.source.ownEnd = .exhausted)) := by
  cases hclosing : s.source.closing with
  | closed =>
    rw [hclosing] at hstep
    obtain ⟨loopEnd, hconsumer, rfl⟩ := StreamState.closeSource_spec hstep
    obtain ⟨hremaining, rfl, hheld⟩ := hr.at_closing hconsumer
    have hover : ConsumerPhase.StandsAt s.source s.remaining
        (.over (.run s.source.loopEnd .closed)) := ⟨hremaining, by rw [hclosing]⟩
    by_cases hended : s.source.loopEnd = .ended
    · have hown : s.source.ownEnd = .exhausted := by
        rw [SourceScript.ownEnd_of_ended hended.symm, hclosing]
      rcases Tunnel.close_eq_or (t := s.stream.tunnel) with hclose | ⟨-, hclose⟩
      · rw [if_pos hended, hclose] at hstep ⊢
        exact ⟨hr.streamStep hstep hr.running rfl hheld hover hr.failed, Or.inl⟩
      · rw [if_pos hended, hclose] at hstep ⊢
        exact ⟨hr.streamStep hstep hr.running rfl hheld hover hr.failed,
          fun _ => Or.inr ⟨hremaining, hown⟩⟩
    · rw [if_neg hended] at hstep ⊢
      exact ⟨hr.streamStep hstep hr.running rfl hheld hover hr.failed, Or.inl⟩
  | lookupFailed error =>
    rw [hclosing] at hstep
    obtain ⟨loopEnd, hconsumer, rfl⟩ := StreamState.lookupFails_spec hstep
    obtain ⟨hremaining, rfl, hheld⟩ := hr.at_closing hconsumer
    have hover : ConsumerPhase.StandsAt s.source s.remaining
        (.over (.run s.source.loopEnd (.lookupFailed error))) := ⟨hremaining, by rw [hclosing]⟩
    exact ⟨hr.streamStep hstep hr.running rfl hheld hover hr.failed, Or.inl⟩
  | closeFailed error =>
    rw [hclosing] at hstep
    obtain ⟨loopEnd, hconsumer, rfl⟩ := StreamState.closeFails_spec hstep
    have hsignal := hr.stream.closing_signal hconsumer
    obtain ⟨hremaining, rfl, hheld⟩ := hr.at_closing hconsumer
    have hover : ConsumerPhase.StandsAt s.source s.remaining
        (.over (.run s.source.loopEnd (.closeFailed error))) := ⟨hremaining, by rw [hclosing]⟩
    rcases Tunnel.fail_eq_or (t := s.stream.tunnel) error with hfail | ⟨hopen, hfail⟩
    · rw [hfail] at hstep ⊢
      exact ⟨hr.streamStep hstep hr.running rfl hheld hover hr.failed, Or.inl⟩
    · -- an open tunnel: the loop has left without an exception
      have hended : s.source.loopEnd = .ended := by
        by_contra hne
        rw [StreamState.terminal_of_signal hne hsignal] at hopen
        cases hopen
      rw [hfail] at hstep ⊢
      refine ⟨hr.streamStep hstep hr.running rfl hheld hover ?_, Or.inl⟩
      rintro failure ⟨⟩
      exact ⟨hremaining, by rw [SourceScript.ownEnd_of_ended hended.symm, hclosing]⟩

/-! ## 5. The reads -/

/-- A look while reading delivers the next item of the tunnel, or its end behind the last one. -/
theorem Reads.look_cases (hr : s.Reads) {outcome : ReadOutcome α SourceError}
    {sub : TunnelSubscription} (hlook : s.stream.tunnel.look s.subscription = some (outcome, sub)) :
    (∃ item, outcome = .item item ∧ s.stream.tunnel.items[s.subscription.cursor]? = some item ∧
        sub = { s.subscription with cursor := s.subscription.cursor + 1 }) ∨
      (s.received = s.stream.tunnel.items ∧
        ((∃ error, outcome = .failed error ∧ s.stream.tunnel.failure = some error) ∨
          (outcome = .eof ∧ s.stream.tunnel.closed = true))) := by
  unfold Tunnel.look at hlook
  rw [if_neg (by rw [hr.live]; exact Bool.false_ne_true), hr.stream.history.2,
    if_neg (Nat.not_lt_zero _), Nat.sub_zero] at hlook
  cases hitem : s.stream.tunnel.items[s.subscription.cursor]? with
  | some item =>
    rw [hitem] at hlook
    cases hlook
    exact Or.inl ⟨item, rfl, rfl, rfl⟩
  | none =>
    rw [hitem] at hlook
    refine Or.inr ⟨?_, ?_⟩
    · rw [hr.received]
      exact List.take_of_length_le (List.getElem?_eq_none_iff.mp hitem)
    · cases hfailure : s.stream.tunnel.failure with
      | some error =>
        rw [hfailure] at hlook
        cases hlook
        exact Or.inl ⟨error, rfl, rfl⟩
      | none =>
        rw [hfailure] at hlook
        dsimp only at hlook
        split at hlook
        · rename_i hclosed
          cases hlook
          exact Or.inr ⟨rfl, hclosed⟩
        · cases hlook

/-- A look at a terminal tunnel does not wait. -/
theorem Reads.look_of_terminal (hr : s.Reads) (hterminal : s.stream.tunnel.terminal = true) :
    (s.stream.tunnel.look s.subscription).isSome = true := by
  unfold Tunnel.look
  rw [if_neg (by rw [hr.live]; exact Bool.false_ne_true), hr.stream.history.2,
    if_neg (Nat.not_lt_zero _)]
  cases s.stream.tunnel.items[s.subscription.cursor - 0]? with
  | some item => rfl
  | none =>
    cases hfailure : s.stream.tunnel.failure with
    | some error => rfl
    | none =>
      rw [Tunnel.terminal, hfailure, Option.isSome_none, Bool.or_false] at hterminal
      dsimp only
      rw [if_pos hterminal]
      rfl

/-- The consumer gets the item at its cursor. -/
theorem Reads.deliver (hr : s.Reads) {item : α}
    (hitem : s.stream.tunnel.items[s.subscription.cursor]? = some item) :
    Reads { s with
      subscription := { s.subscription with cursor := s.subscription.cursor + 1 }
      read := none
      received := s.received ++ [item] } where
  stream := hr.stream
  running := hr.running
  items := hr.items
  stands := hr.stands
  failed := hr.failed
  live := hr.live
  received := by
    dsimp only
    rw [List.take_add_one, hitem, hr.received]
    rfl
  cursor := (List.getElem?_eq_some_iff.mp hitem).1

/-- The steps of an iteration. -/
inductive Step (s : BridgeIteration α) : IterationEvent α → BridgeIteration α → Prop
  /-- The stream moves, or the source. -/
  | stream {e : IterationEvent α} (event : StreamEvent α) (stream : StreamState α)
      (remaining : List α) (hstep : s.stream.step event = some stream)
      (hreads : s.phase = .reading → s.Reads →
        s.StreamStep { s with stream := stream, remaining := remaining })
      (hclosed : s.phase = .reading → s.Reads → s.loses e = false → stream.tunnel.closed = true →
        s.stream.tunnel.closed = true ∨ (remaining = [] ∧ s.source.ownEnd = .exhausted))
      (hloses : s.phase = .reading → s.Reads → s.loses e = true →
        s.source.ownEnd ≠ .exhausted ∧ stream.tunnel.closed = true ∧ stream.tunnel.failure = none) :
      Step s e { s with stream := stream, remaining := remaining }
  /-- A read goes on, or the clock. -/
  | quiet {e : IterationEvent α} (read : Option TunnelRead) (now : Int)
      (hloses : s.loses e = false) (hread : s.phase ≠ .reading → s.read = none → read = none)
      (hwaits : read = s.read ∨ ∃ read', read = some read' ∧ read'.phase ≠ .done) :
      Step s e { s with read := read, now := now }
  | answer {e : IterationEvent α} (outcome : ReadOutcome α SourceError) (sub : TunnelSubscription)
      (hread : s.read.isSome = true)
      (hlook : s.stream.tunnel.look s.subscription = some (outcome, sub))
      (hloses : s.loses e = false) : Step s e (s.answer outcome sub)
  | timeOut {e : IterationEvent α} (hread : s.read.isSome = true)
      (hloses : s.loses e = s.outstanding) : Step s e s.timeOut
  | settle {e : IterationEvent α} (ending : IterationEnd) (hphase : s.phase = .closing ending) :
      Step s e { s with phase := .ended ending }

theorem withStream_eq_some {stream : Option (StreamState α)} (h : s.withStream stream = some s') :
    ∃ stream', stream = some stream' ∧ s' = { s with stream := stream' } := by
  obtain ⟨stream', hstream, rfl⟩ := Option.map_eq_some_iff.mp h
  exact ⟨stream', hstream, rfl⟩

theorem streamStep_spec {event : StreamEvent α} (h : s.streamStep event = some s') :
    s.Step (.stream event) s' := by
  unfold streamStep at h
  split at h
  · rename_i hoffered
    obtain ⟨stream, hstep, rfl⟩ := withStream_eq_some h
    have hinternal : s.phase = .reading → event.isInternal = true := by
      intro hphase
      simpa [hphase] using hoffered
    refine .stream event stream s.remaining hstep
      (fun hphase hr => (hr.internal (hinternal hphase) hstep).1) ?_ fun _ _ hloses => ?_
    · intro hphase hr _ hclosed
      rw [(hr.internal (hinternal hphase) hstep).2] at hclosed
      exact Or.inl hclosed
    · cases hloses
  · cases h

/-- An item is put. -/
theorem step_of_put {e : IterationEvent α} {event : StreamEvent α} {item : α} {rest : List α}
    {stream : StreamState α} (hnext : s.stream.consumer.held ++ s.remaining = item :: rest)
    (hput : s.stream.put item = some stream) (hstep : s.stream.step event = some stream)
    (hloses : s.loses e = false) : s.Step e { s with stream := stream, remaining := rest } := by
  refine .stream event stream rest hstep (fun _ hr => (hr.put hnext hput hstep).1) ?_
    fun _ _ hlost => ?_
  · intro _ hr _ hclosed
    rw [(hr.put hnext hput hstep).2] at hclosed
    cases hclosed
  · rw [hloses] at hlost
    cases hlost

theorem publish_spec (h : s.withStream (s.stream.step .publish) = some s') :
    s.Step .publish s' := by
  obtain ⟨stream, hstep, rfl⟩ := withStream_eq_some h
  obtain ⟨data, hheld, hput⟩ := StreamState.publish_spec hstep
  exact step_of_put (by rw [hheld]; rfl) hput hstep rfl

theorem sourceAnswers_spec (h : s.sourceAnswers = some s') : s.Step .sourceAnswers s' := by
  unfold sourceAnswers at h
  cases hremaining : s.remaining with
  | cons item rest =>
    have hloses : s.loses .sourceAnswers = false := by simp [loses, hremaining]
    rw [hremaining] at h
    obtain ⟨stream, hstep, rfl⟩ := withStream_eq_some h
    cases hkind : s.stream.kind with
    | async =>
      rw [hkind] at hstep
      refine .stream (.checkItem item) stream rest hstep
        (fun _ hr => (hr.checkItem hremaining hstep).1) ?_ fun _ _ hlost => ?_
      · intro _ hr _ hclosed
        rw [(hr.checkItem hremaining hstep).2] at hclosed
        exact Or.inl hclosed
      · rw [hloses] at hlost
        cases hlost
    | sync =>
      rw [hkind] at hstep
      obtain ⟨hheld, hput⟩ := StreamState.item_spec hstep
      exact step_of_put (by rw [hheld]; exact hremaining) hput hstep hloses
  | nil =>
    rw [hremaining] at h
    have hend : ∃ stream, s.stream.step (match s.source.failure with
        | none => .exhausted
        | some error => .sourceRaises error) = some stream ∧ s' = { s with stream := stream } := by
      cases hfailure : s.source.failure with
      | none =>
        rw [hfailure] at h
        exact withStream_eq_some h
      | some error =>
        rw [hfailure] at h
        exact withStream_eq_some h
    obtain ⟨stream, hstep, rfl⟩ := hend
    have hloses : s.phase = .reading → (s.loses .sourceAnswers = true ↔
        s.stream.kind = .async ∧ s.source.failure.any SourceError.isCancelled = true) := by
      intro hphase
      simp [loses, hphase, hremaining]
    refine .stream _ stream s.remaining hstep (fun _ hr => (hr.finished hremaining hstep).1) ?_ ?_
    · intro hphase hr hkept hclosed
      rcases (hr.finished hremaining hstep).2 with ⟨hkind, hcancelled, -⟩ | ⟨-, hsame⟩
      · rw [(hloses hphase).mpr ⟨hkind, hcancelled⟩] at hkept
        cases hkept
      · exact Or.inl (hsame ▸ hclosed)
    · intro hphase hr hlost
      rcases (hr.finished hremaining hstep).2 with ⟨-, hcancelled, hends⟩ | ⟨hnot, -⟩
      · refine ⟨?_, hends⟩
        obtain ⟨error, hfailure, -⟩ := (Option.any_eq_true _ _).mp hcancelled
        rw [SourceScript.ownEnd_of_failure hfailure]
        exact fun heq => nomatch heq
      · exact absurd ((hloses hphase).mp hlost) hnot

theorem sourceCloses_spec (h : s.sourceCloses = some s') : s.Step .sourceCloses s' := by
  have hend : ∃ stream, s.stream.step (match s.source.closing with
      | .closed => .closeSource
      | .lookupFailed error => .lookupFails error
      | .closeFailed error => .closeFails error) = some stream ∧
        s' = { s with stream := stream } := by
    unfold sourceCloses at h
    cases hclosing : s.source.closing with
    | closed | lookupFailed error | closeFailed error =>
      rw [hclosing] at h
      exact withStream_eq_some h
  obtain ⟨stream, hstep, rfl⟩ := hend
  refine .stream _ stream s.remaining hstep (fun _ hr => (hr.closed hstep).1) ?_ fun _ _ hloses => ?_
  · exact fun _ hr _ => (hr.closed hstep).2
  · cases hloses

theorem look_spec (h : s.look = some s') : s.Step .look s' := by
  unfold look at h
  split at h
  · rename_i read hread
    have hsome : s.read.isSome = true := by
      rw [hread]
      rfl
    have hkeeps : ∀ read' : TunnelRead, s.phase ≠ .reading → s.read = none →
        some read' = none := by
      intro _ _ hnone
      rw [hread] at hnone
      cases hnone
    split at h
    · rename_i hphase
      split at h
      · rename_i outcome sub hlook
        cases h
        exact .answer outcome sub hsome hlook (by simp [loses, hread, hlook])
      · rename_i hlook
        split at h
        · rename_i hmode
          split at h
          · rename_i hexpired
            cases h
            exact .timeOut hsome (by simp [loses, hread, hphase, hlook, hmode, hexpired])
          · rename_i hexpired
            cases h
            exact .quiet _ s.now (by simp [loses, hread, hexpired]) (hkeeps _)
              (Or.inr ⟨_, rfl, fun h => nomatch h⟩)
        · rename_i hmode
          cases h
          exact .quiet _ s.now (by simp [loses, hread, hmode]) (hkeeps _)
            (Or.inr ⟨_, rfl, fun h => nomatch h⟩)
    · cases h
  · cases h

/-- **Steps of an iteration.** -/
theorem step_spec {e : IterationEvent α} (h : s.step e = some s') : s.Step e s' := by
  cases e with
  | stream event => exact streamStep_spec h
  | sourceAnswers => exact sourceAnswers_spec h
  | publish => exact publish_spec h
  | sourceCloses => exact sourceCloses_spec h
  | look => exact look_spec h
  | next =>
    simp only [step, next] at h
    split at h
    · rename_i hphase
      cases h
      exact .quiet _ s.now rfl (fun hdone => absurd hphase.1 hdone)
        (Or.inr ⟨_, rfl, fun h => nomatch h⟩)
    · cases h
  | wake =>
    simp only [step, wake] at h
    split at h
    · rename_i read hread
      split at h
      · cases h
        refine .quiet _ s.now rfl (fun _ hnone => ?_) (Or.inr ⟨_, rfl, fun h => nomatch h⟩)
        rw [hread] at hnone
        cases hnone
      · cases h
    · cases h
  | expire =>
    simp only [step, expire] at h
    split at h
    · rename_i read hread
      split at h
      · cases h
        exact .timeOut (by rw [hread]; rfl) rfl
      · cases h
    · cases h
  | settle =>
    simp only [step, settle] at h
    split at h
    · rename_i ending hphase
      split at h
      · cases h
        exact .settle ending hphase
      · cases h
    · cases h
  | advance time =>
    cases h
    exact .quiet s.read _ rfl (fun _ hnone => hnone) (Or.inl rfl)

/-! ## 6. Runs -/

theorem Reads.iterationInv (hr : s.Reads) (hphase : s.phase = .reading) : s.IterationInv :=
  ⟨fun _ => hr, fun h => absurd hphase h⟩

/-- The end of a read that is not an item. -/
theorem Reads.leave (hr : s.Reads) (sub : TunnelSubscription) (ending : IterationEnd) :
    IterationInv ({ s with subscription := sub, read := none }.leave ending) :=
  ⟨fun h => (nomatch h), fun _ => ⟨rfl, hr.prefix_items⟩⟩

/-- A read is under way while the consumer reads only. -/
theorem IterationInv.reading_of_read (hi : s.IterationInv) (hread : s.read.isSome = true) :
    s.phase = .reading := by
  by_contra hdone
  rw [(hi.done hdone).1] at hread
  cases hread

theorem IterationInv.step (hi : s.IterationInv) {e : IterationEvent α} (h : s.step e = some s') :
    s'.IterationInv := by
  cases step_spec h with
  | stream event stream remaining hstep hreads hclosed hloses =>
    by_cases hphase : s.phase = .reading
    · exact (hreads hphase (hi.reading hphase)).reads.iterationInv hphase
    · exact ⟨fun h => absurd h hphase, fun _ => hi.done hphase⟩
  | quiet read now hloses hread hwaits =>
    refine ⟨fun hphase => ?_, fun hphase => ?_⟩
    · have hr := hi.reading hphase
      exact ⟨hr.stream, hr.running, hr.items, hr.stands, hr.failed, hr.live, hr.received, hr.cursor⟩
    · exact ⟨hread hphase (hi.done hphase).1, (hi.done hphase).2⟩
  | answer outcome sub hread hlook hloses =>
    have hphase := hi.reading_of_read hread
    have hr := hi.reading hphase
    rcases hr.look_cases hlook with ⟨item, rfl, hitem, rfl⟩ | ⟨-, ⟨error, rfl, -⟩ | ⟨rfl, -⟩⟩
    · exact (hr.deliver hitem).iterationInv hphase
    · exact hr.leave sub (.raised error)
    · exact hr.leave sub .exhausted
  | timeOut hread hloses => exact (hi.reading (hi.reading_of_read hread)).leave _ .exhausted
  | settle ending hphase =>
    exact ⟨fun h => (nomatch h), fun _ => hi.done (by rw [hphase]; exact fun h => nomatch h)⟩

variable {kind : SourceKind} {onCarrier : Bool} {timeout : Option Int} {source : SourceScript α}

theorem iterationInv_initial (hinit : (iterationSystem kind onCarrier timeout source).Init s) :
    s.IterationInv ∧ s.phase = .reading ∧ s.stream.tunnel.closed = false := by
  have hstream : (streamSystem α kind onCarrier timeout).Init s.stream := by
    rw [show s = _ from hinit]
    rfl
  rw [show s = _ from hinit] at hstream ⊢
  refine ⟨Reads.iterationInv ?_ rfl, rfl, rfl⟩
  exact ⟨StreamState.streamInv_initial hstream, rfl, rfl, trivial,
    fun _ h => (nomatch h), rfl, rfl, Nat.zero_le _⟩

/-- The tunnel is closed at the end of the source only, and the consumer leaves with it. -/
structure Faithful (s : BridgeIteration α) : Prop where
  closed : s.phase = .reading → s.ClosedAtEnd
  done : ∀ ending, s.phase.end? = some ending →
    s.received = s.source.items ∧ ending = s.source.ownEnd

/-- The consumer cannot get the source any more. -/
structure Lost (s : BridgeIteration α) : Prop where
  closed : s.phase = .reading → s.source.ownEnd ≠ .exhausted ∧ s.stream.tunnel.closed = true ∧
    s.stream.tunnel.failure = none
  done : ∀ ending, s.phase.end? = some ending →
    ¬ (s.received = s.source.items ∧ ending = s.source.ownEnd)

theorem end?_of_reading (h : s.phase = .reading) : s.phase.end? = none := by
  rw [h]
  rfl

/-- Nothing is outstanding for a consumer that has got a part of the items exactly when it has
    got the source. -/
theorem outstanding_eq_false_iff (h : s.received <+: s.source.items) :
    s.outstanding = false ↔ s.received = s.source.items ∧ .exhausted = s.source.ownEnd := by
  rw [outstanding, Bool.or_eq_false_iff, decide_eq_false_iff_not, decide_eq_false_iff_not,
    not_not, Nat.not_lt]
  constructor
  · rintro ⟨hlength, hend⟩
    exact ⟨h.eq_of_length_le hlength, hend.symm⟩
  · rintro ⟨hitems, hend⟩
    exact ⟨Nat.le_of_eq (congrArg List.length hitems.symm), hend.symm⟩

theorem Reads.timeOut_done (hr : s.Reads) {ending : IterationEnd}
    (hend : s.timeOut.phase.end? = some ending) :
    (s.timeOut.received = s.timeOut.source.items ∧ ending = s.timeOut.source.ownEnd) ↔
      s.outstanding = false := by
  cases hend
  exact (outstanding_eq_false_iff hr.prefix_items).symm

/-- The consumer leaves at the end of the tunnel. -/
theorem Faithful.leave (hr : s.Reads) (hterminal : s.stream.tunnel.terminal = true)
    (hremaining : s.remaining = [])
    (hreceived : s.received = s.stream.tunnel.items) {ending : IterationEnd}
    (hend : s.source.ownEnd = ending) (sub : TunnelSubscription) :
    Faithful ({ s with subscription := sub, read := none }.leave ending) := by
  refine ⟨fun h => (nomatch h), ?_⟩
  rintro _ ⟨⟩
  refine ⟨?_, hend.symm⟩
  change s.received = s.source.items
  rw [hreceived, hr.items, hr.stream.held_of_terminal hterminal, hremaining, List.append_nil,
    List.append_nil]

theorem Faithful.step (hf : s.Faithful) (hi : s.IterationInv) {e : IterationEvent α}
    (hkept : s.loses e = false) (h : s.step e = some s') : s'.Faithful := by
  cases step_spec h with
  | stream event stream remaining hstep hreads hclosed hloses =>
    refine ⟨fun hphase hterminal => ?_, hf.done⟩
    have hr := hi.reading hphase
    rcases hclosed hphase hr hkept hterminal with hold | hends
    · obtain ⟨hremaining, hend⟩ := hf.closed hphase hold
      -- nothing follows the end of the source
      have hended : s.stream.tunnel.terminal = true := by simp [Tunnel.terminal, hold]
      have hitems := (hreads hphase hr).reads.items
      have hsame := (hreads hphase hr).terminal hended
      dsimp only at hitems hsame
      rw [hsame, hr.items, hr.stream.held_of_terminal hended, hremaining] at hitems
      exact ⟨(List.append_eq_nil_iff.mp (List.append_cancel_left hitems).symm).2, hend⟩
    · exact hends
  | quiet read now hloses hread hwaits => exact ⟨hf.closed, hf.done⟩
  | answer outcome sub hread hlook hloses =>
    have hphase := hi.reading_of_read hread
    have hr := hi.reading hphase
    rcases hr.look_cases hlook with ⟨item, rfl, hitem, rfl⟩ |
      ⟨hreceived, ⟨error, rfl, hfailure⟩ | ⟨rfl, hclosed⟩⟩
    · refine ⟨fun _ => hf.closed hphase, fun ending hend => ?_⟩
      rw [show (s.answer _ _).phase = s.phase from rfl, end?_of_reading hphase] at hend
      cases hend
    · obtain ⟨hremaining, hend⟩ := hr.failed error hfailure
      exact Faithful.leave hr (by simp [Tunnel.terminal, hfailure]) hremaining hreceived hend sub
    · obtain ⟨hremaining, hend⟩ := hf.closed hphase hclosed
      exact Faithful.leave hr (by simp [Tunnel.terminal, hclosed]) hremaining hreceived hend sub
  | timeOut hread hloses =>
    have hr := hi.reading (hi.reading_of_read hread)
    exact ⟨(fun h => by cases h), fun ending hend =>
      (hr.timeOut_done hend).mpr (hloses.symm.trans hkept)⟩
  | settle ending hphase =>
    refine ⟨(fun h => by cases h), ?_⟩
    rintro _ ⟨⟩
    exact hf.done ending (by rw [hphase]; rfl)

/-- A losing step loses the source. -/
theorem IterationInv.lost (hi : s.IterationInv) {e : IterationEvent α} (hloses : s.loses e = true)
    (h : s.step e = some s') : s'.Lost := by
  cases step_spec h with
  | stream event stream remaining hstep hreads hclosed hlost =>
    have hphase : s.phase = .reading := by
      cases e with
      | sourceAnswers =>
        simp only [loses, Bool.and_eq_true, decide_eq_true_eq] at hloses
        exact hloses.1.1.1
      | look =>
        simp only [loses] at hloses
        split at hloses
        · rename_i read hread
          exact hi.reading_of_read (by rw [hread]; rfl)
        · cases hloses
      | expire =>
        simp only [BridgeIteration.step, expire] at h
        split at h
        · rename_i read hread
          exact hi.reading_of_read (by rw [hread]; rfl)
        · cases h
      | stream event | publish | sourceCloses | next | wake | settle | advance time => cases hloses
    refine ⟨fun _ => hlost hphase (hi.reading hphase) hloses, fun ending hend => ?_⟩
    rw [end?_of_reading hphase] at hend
    cases hend
  | quiet read now hkept hread hwaits =>
    rw [hkept] at hloses
    cases hloses
  | answer outcome sub hread hlook hkept =>
    rw [hkept] at hloses
    cases hloses
  | timeOut hread houtstanding =>
    have hr := hi.reading (hi.reading_of_read hread)
    refine ⟨fun h => (nomatch h), fun ending hend hgot => ?_⟩
    rw [houtstanding, (hr.timeOut_done hend).mp hgot] at hloses
    cases hloses
  | settle ending hphase =>
    have hread : s.read = none := (hi.done (by rw [hphase]; exact fun h => nomatch h)).1
    cases e with
    | sourceAnswers => simp [loses, hphase] at hloses
    | look => simp [loses, hread] at hloses
    | expire => simp [BridgeIteration.step, expire, hread] at h
    | stream event | publish | sourceCloses | next | wake | settle | advance time => cases hloses

theorem Lost.step (hl : s.Lost) (hi : s.IterationInv) {e : IterationEvent α}
    (h : s.step e = some s') : s'.Lost := by
  cases step_spec h with
  | stream event stream remaining hstep hreads hclosed hloses =>
    refine ⟨fun hphase => ?_, hl.done⟩
    obtain ⟨hend, hold, hnone⟩ := hl.closed hphase
    have hsame := (hreads hphase (hi.reading hphase)).terminal (by simp [Tunnel.terminal, hold])
    dsimp only at hsame ⊢
    rw [hsame]
    exact ⟨hend, hold, hnone⟩
  | quiet read now hloses hread hwaits => exact ⟨hl.closed, hl.done⟩
  | answer outcome sub hread hlook hloses =>
    have hphase := hi.reading_of_read hread
    obtain ⟨hend, hold, hnone⟩ := hl.closed hphase
    rcases (hi.reading hphase).look_cases hlook with ⟨item, rfl, hitem, rfl⟩ |
      ⟨hreceived, ⟨error, rfl, hfailure⟩ | ⟨rfl, hclosed⟩⟩
    · refine ⟨fun _ => ⟨hend, hold, hnone⟩, fun ending hdone => ?_⟩
      rw [show (s.answer _ _).phase = s.phase from rfl, end?_of_reading hphase] at hdone
      cases hdone
    · rw [hnone] at hfailure
      cases hfailure
    · refine ⟨(fun h => by cases h), ?_⟩
      rintro _ ⟨⟩ ⟨-, hgot⟩
      exact hend hgot.symm
  | timeOut hread hloses =>
    obtain ⟨hend, -, -⟩ := hl.closed (hi.reading_of_read hread)
    refine ⟨(fun h => by cases h), ?_⟩
    rintro _ ⟨⟩ ⟨-, hgot⟩
    exact hend hgot.symm
  | settle ending hphase =>
    refine ⟨(fun h => by cases h), ?_⟩
    rintro _ ⟨⟩
    exact hl.done ending (by rw [hphase]; rfl)

theorem step_source {e : IterationEvent α} (h : s.step e = some s') : s'.source = s.source := by
  cases step_spec h with
  | stream event stream remaining hstep hreads hclosed hloses => rfl
  | quiet read now hloses hread hwaits => rfl
  | answer outcome sub hread hlook hloses =>
    cases outcome with
    | item data | lag error | failed error | eof | timedOut | stopped => rfl
  | timeOut hread hloses => rfl
  | settle ending hphase => rfl

theorem reachUnder_iterationInv {ok : BridgeIteration α → IterationEvent α → Prop}
    (h : (iterationSystem kind onCarrier timeout source).ReachUnder ok s) :
    s.IterationInv ∧ s.source = source := by
  refine h.invariant (I := fun s => s.IterationInv ∧ s.source = source)
    (fun s hinit => ⟨(iterationInv_initial hinit).1, ?_⟩) ?_
  · rw [show s = _ from hinit]
  · rintro s e s' ⟨hi, hsource⟩ - hstep
    exact ⟨hi.step hstep, (step_source hstep).trans hsource⟩

/-- A read of an iteration is not kept after its end. -/
theorem reachUnder_read {ok : BridgeIteration α → IterationEvent α → Prop}
    (h : (iterationSystem kind onCarrier timeout source).ReachUnder ok s) :
    ∀ read, s.read = some read → read.phase ≠ .done := by
  refine h.invariant (I := fun s => ∀ read, s.read = some read → read.phase ≠ .done)
    (fun s hinit => ?_) fun s e s' hi _ hstep => ?_
  · rw [show s = _ from hinit]
    exact fun _ h => nomatch h
  · cases step_spec hstep with
    | stream event stream remaining hstep hreads hclosed hloses => exact hi
    | quiet read now hloses hread hwaits =>
      rcases hwaits with rfl | ⟨read', rfl, hne⟩
      · exact hi
      · rintro _ ⟨⟩
        exact hne
    | answer outcome sub hread hlook hloses =>
      cases outcome with
      | item data | lag error | failed error | eof | timedOut | stopped =>
        exact fun _ h => nomatch h
    | timeOut hread hloses => exact fun _ h => nomatch h
    | settle ending hphase => exact hi

theorem reachUnder_faithful
    (h : (iterationSystem kind onCarrier timeout source).ReachUnder
      (fun s e => s.loses e = false) s) : s.Faithful := by
  refine h.invariant_of (fun s hr => (reachUnder_iterationInv hr).1) (fun s hinit => ?_)
    fun s e s' hi hf hkept hstep => hf.step hi hkept hstep
  obtain ⟨-, hphase, hopen⟩ := iterationInv_initial hinit
  refine ⟨fun _ hclosed => ?_, fun ending hend => ?_⟩
  · rw [hopen] at hclosed
    cases hclosed
  · rw [end?_of_reading hphase] at hend
    cases hend

/-! ## 7. The law of an iteration -/

/-- From an ended tunnel the consumer reads on to its end, and no read of it waits. -/
theorem reads_to_end (h : (iterationSystem kind onCarrier timeout source).ReachUnder
      (fun s e => s.loses e = false) s) (hphase : s.phase = .reading)
    (hterminal : s.stream.tunnel.terminal = true) :
    ∃ es s' ending, (iterationSystem kind onCarrier timeout source).run s es = some s' ∧
      (iterationSystem kind onCarrier timeout source).ReachUnder
        (fun s e => s.loses e = false) s' ∧ s'.phase.end? = some ending := by
  induction hleft : s.stream.tunnel.items.length - s.subscription.cursor using Nat.strongRecOn
    generalizing s with
  | ind left ih =>
    -- a read that looks, whatever the read under way is
    have hlooking : ∃ es t, (iterationSystem kind onCarrier timeout source).run s es = some t ∧
        (iterationSystem kind onCarrier timeout source).ReachUnder (fun s e => s.loses e = false) t ∧
        ∃ read : TunnelRead, read.phase = .looking ∧ t = { s with read := some read } := by
      cases hread : s.read with
      | none =>
        have hstep : (iterationSystem kind onCarrier timeout source).step s .next =
            some { s with read := some ⟨0, s.stream.kind.readMode, s.deadline, .looking⟩ } := by
          simp [iterationSystem, step, next, hphase, hread]
        exact ⟨[.next], _, System.run_cons_of_step hstep [], .step h rfl hstep, _, rfl, rfl⟩
      | some read =>
        cases hread' : read.phase with
        | looking =>
          refine ⟨[], s, rfl, h, read, hread', ?_⟩
          rw [← hread]
        | waiting =>
          have hstep : (iterationSystem kind onCarrier timeout source).step s .wake =
              some { s with read := some { read with phase := .looking } } := by
            simp [iterationSystem, step, wake, hread, hread']
          exact ⟨[.wake], _, System.run_cons_of_step hstep [], .step h rfl hstep, _, rfl, rfl⟩
        | done =>
          exact absurd hread' (reachUnder_read h read hread)
    obtain ⟨es, t, hrun, ht, read, hread, rfl⟩ := hlooking
    have hr := (reachUnder_iterationInv h).1.reading hphase
    obtain ⟨⟨outcome, sub⟩, hlook⟩ := Option.isSome_iff_exists.mp (hr.look_of_terminal hterminal)
    have hstep : (iterationSystem kind onCarrier timeout source).step
        { s with read := some read } .look =
        some (BridgeIteration.answer { s with read := some read } outcome sub) := by
      simp [iterationSystem, step, look, hread, hlook]
    have hreach := ht.step (by simp [loses, hlook]) hstep
    have hrun' : (iterationSystem kind onCarrier timeout source).run s (es ++ [.look]) =
        some (BridgeIteration.answer { s with read := some read } outcome sub) := by
      rw [System.run_append, hrun]
      exact System.run_cons_of_step hstep []
    rcases hr.look_cases hlook with ⟨item, rfl, hitem, rfl⟩ | ⟨-, ⟨error, rfl, -⟩ | ⟨rfl, -⟩⟩
    · -- one item less to read
      have hlt := (List.getElem?_eq_some_iff.mp hitem).1
      obtain ⟨es', s', ending, hrest, hdone⟩ := ih _ (by dsimp only [answer]; omega) hreach hphase
        hterminal rfl
      refine ⟨(es ++ [.look]) ++ es', s', ending, ?_, hdone⟩
      rw [System.run_append, hrun']
      exact hrest
    · exact ⟨_, _, _, hrun', hreach, rfl⟩
    · exact ⟨_, _, _, hrun', hreach, rfl⟩

/-- **What the consumer of a bridged source gets.**  In every run without a losing step it is a
    part of the items, and when it leaves all of them and the end of the source; it leaves once
    the tunnel has ended.  After a losing step it never is. -/
theorem bridge_iteration_iff {α : Type} (kind : SourceKind) (onCarrier : Bool)
    (timeout : Option Int) (source : SourceScript α) :
    (∀ s, (iterationSystem kind onCarrier timeout source).ReachUnder
      (fun s e => s.loses e = false) s → s.source = source ∧ s.Agrees ∧
        (s.phase = .reading → s.stream.tunnel.terminal = true →
          ∃ es s', (iterationSystem kind onCarrier timeout source).run s es = some s' ∧
            s'.phase.end? = some source.ownEnd ∧ s'.received = source.items)) ∧
    ∀ s e s' es s'' ending, (iterationSystem kind onCarrier timeout source).Reachable s →
      s.loses e = true → s.step e = some s' →
      (iterationSystem kind onCarrier timeout source).run s' es = some s'' →
      s''.phase.end? = some ending → ¬ (s''.received = source.items ∧ ending = source.ownEnd) := by
  constructor
  · intro s hreach
    obtain ⟨hi, hsource⟩ := reachUnder_iterationInv hreach
    have hagrees : s.Agrees := by
      refine ⟨?_, (reachUnder_faithful hreach).done⟩
      by_cases hphase : s.phase = .reading
      · exact (hi.reading hphase).prefix_items
      · exact (hi.done hphase).2
    refine ⟨hsource, hagrees, fun hphase hterminal => ?_⟩
    obtain ⟨es, s', ending, hrun, hreach', hend⟩ := reads_to_end hreach hphase hterminal
    obtain ⟨hitems, hown⟩ := (reachUnder_faithful hreach').done ending hend
    rw [(reachUnder_iterationInv hreach').2] at hitems hown
    exact ⟨es, s', hrun, hown ▸ hend, hitems⟩
  · intro s e s' es s'' ending hreach hloses hstep hrun hend
    obtain ⟨hi, hsource⟩ := reachUnder_iterationInv hreach
    have hreach' := hreach.step trivial hstep
    have hlost : s''.Lost ∧ s''.IterationInv ∧ s''.source = source := by
      refine System.run_invariant
        (I := fun s => s.Lost ∧ s.IterationInv ∧ s.source = source) ?_
        ⟨hi.lost hloses hstep, reachUnder_iterationInv hreach'⟩ hrun
      rintro t e' t' ⟨hl, hi', hsource'⟩ hstep'
      exact ⟨hl.step hi' hstep', hi'.step hstep', (step_source hstep').trans hsource'⟩
    rw [← hlost.2.2]
    exact hlost.1.done ending hend

/-- An async source of one item, and a consumer that reads it with `iter_sync`. -/
def slowSource : SourceScript Nat := ⟨[5], none, .closed⟩

/-- The item takes as long as the default timeout of a tunnel. -/
def slowSourceRun : List (IterationEvent Nat) :=
  [.stream .start, .stream .grantPermit, .stream .createSource, .stream .checkStop, .next, .look,
    .advance 10, .wake, .look, .sourceAnswers, .sourceCloses, .stream .deliver, .settle]

theorem slow_item_is_lost :
    ∃ s, (iterationSystem .async true (some 10) slowSource).Reachable s ∧
      s.phase = .ended .exhausted ∧ s.received = [] ∧ ¬ s.Agrees := by
  have hend : ((iterationSystem .async true (some 10) slowSource).run {
      source := slowSource
      remaining := [5]
      stream := {
        kind := .async
        onCarrier := true
        tunnel := ⟨[], 0, 0, false, none, some 10, none⟩ }
      subscription := ⟨some 10, 0, false⟩ } slowSourceRun).any (fun s =>
        decide (s.phase = .ended .exhausted ∧ s.received = [] ∧ s.source.items = [5])) = true := by
    decide
  obtain ⟨s, hrun, hs⟩ := (Option.any_eq_true _ _).mp hend
  obtain ⟨hphase, hreceived, hitems⟩ := of_decide_eq_true hs
  refine ⟨s, System.reachable_of_run slowSourceRun rfl hrun, hphase, hreceived, fun h => ?_⟩
  have hgot := (h.2 .exhausted (by rw [hphase]; rfl)).1
  rw [hreceived, hitems] at hgot
  cases hgot

end BridgeIteration

end AgentlyStage
