import AgentlyStage.TunnelDelivery

/-!
# A sync and an async read side by side

A call of `__next__` and one of `__anext__`, started at the same moment from equal cursors, and
what happens to the tunnel while they wait.  A notified sync reader looks before anything else
happens.  An async reader looks when its loop has run the callback that resolves its future.  The
timers run at their time, after an event of that very moment; the unit of time is as fine as the
schedule needs.
-/

namespace AgentlyStage

/-! ## 1. Schedules -/

inductive WaitEvent (α ε : Type) where
  | put (data : α)
  | close
  | fail (error : ε)
  /-- `close` of another subscription that is open. -/
  | closeOther
  /-- The loop of the async reader runs the callbacks queued on it. -/
  | hear
deriving DecidableEq, Repr

structure TimedEvent (α ε : Type) where
  time : Int
  event : WaitEvent α ε
deriving DecidableEq, Repr

/-- How a read ends, when, and the tunnel at that moment. -/
structure TimedOutcome (α ε : Type) where
  outcome : ReadOutcome α ε
  time : Int
  tunnel : Tunnel α ε
deriving DecidableEq, Repr

variable {α ε : Type}

/-- It ends the wait of every reader. -/
def WaitEvent.isNews : WaitEvent α ε → Bool
  | .put _ | .close | .fail _ => true
  | .closeOther | .hear => false

def WaitEvent.isHear : WaitEvent α ε → Bool
  | .hear => true
  | _ => false

theorem WaitEvent.isHear_iff {event : WaitEvent α ε} : event.isHear = true ↔ event = .hear := by
  cases event <;> simp [isHear]

/-- What the caller sees: `StopIteration` says nothing about its reason. -/
def ReadOutcome.observed : ReadOutcome α ε → ReadOutcome α ε
  | .eof | .timedOut => .stopped
  | outcome => outcome

namespace Tunnel

variable (t : Tunnel α ε)

/-- The tunnel after the event; a put that raises leaves it as it is. -/
def after : WaitEvent α ε → Tunnel α ε
  | .put data =>
    match t.put data with
    | .ok t' => t'
    | .error _ => t
  | .close => t.close
  | .fail error => t.fail error
  | .closeOther | .hear => t

/-- Whether the event runs `_wake_waiters_locked`. -/
def wakes : WaitEvent α ε → Bool
  | .put _ | .close | .fail _ => !t.terminal
  | .closeOther => true
  | .hear => false

/-- The tunnel after a list of events. -/
def afterAll (events : List (TimedEvent α ε)) : Tunnel α ε :=
  events.foldl (fun t e => t.after e.event) t

/-- An accepted item at the cursor is available. -/
def available (sub : TunnelSubscription) : Prop :=
  t.baseSequence ≤ sub.cursor ∧ (t.items[sub.cursor - t.baseSequence]?).isSome = true

instance (sub : TunnelSubscription) : Decidable (t.available sub) := instDecidableAnd

/-! ## 2. The two reads -/

/-- One pass of the loop of `__next__`, up to its wait. -/
def syncLook (sub : TunnelSubscription) (deadline now : Int) (wait : TimedOutcome α ε) :
    TimedOutcome α ε :=
  match t.look sub with
  | some (outcome, _) => ⟨outcome, now, t⟩
  | none => if deadline - now ≤ 0 then ⟨.timedOut, now, t⟩ else wait

/-- `_condition.wait` of `__next__`, until it returns a result. -/
def syncWait (sub : TunnelSubscription) (deadline : Int) (t : Tunnel α ε) :
    List (TimedEvent α ε) → TimedOutcome α ε
  | [] => t.syncLook sub deadline deadline ⟨.timedOut, deadline, t⟩
  | e :: events =>
    if deadline < e.time then t.syncLook sub deadline deadline ⟨.timedOut, deadline, t⟩
    else if t.wakes e.event then
      (t.after e.event).syncLook sub deadline e.time
        (syncWait sub deadline (t.after e.event) events)
    else syncWait sub deadline (t.after e.event) events

/-- `__next__`. -/
def next (sub : TunnelSubscription) (timeout start : Int) (events : List (TimedEvent α ε)) :
    TimedOutcome α ε :=
  t.syncLook sub (start + timeout) start (t.syncWait sub (start + timeout) events)

/-- When `asyncio.wait_for` gives up. -/
def waitEnd (timeout now : Int) : Int := now + max timeout 0

/-- `asyncio.wait_for` of `__anext__`: `queued` when the waiter has been removed and its future
    will be resolved.  A `TimeoutError` ends the read without another look. -/
def asyncWait (sub : TunnelSubscription) (timeout giveUp : Int) (queued : Bool) (t : Tunnel α ε) :
    List (TimedEvent α ε) → TimedOutcome α ε
  | [] => ⟨.timedOut, giveUp, t⟩
  | e :: events =>
    if giveUp < e.time then ⟨.timedOut, giveUp, t⟩
    else
      match e.event with
      | .hear =>
        if queued then
          match t.look sub with
          | some (outcome, _) => ⟨outcome, e.time, t⟩
          | none => asyncWait sub timeout (waitEnd timeout e.time) false t events
        else asyncWait sub timeout giveUp false t events
      | event => asyncWait sub timeout giveUp (queued || t.wakes event) (t.after event) events

/-- `__anext__`. -/
def anext (sub : TunnelSubscription) (timeout start : Int) (events : List (TimedEvent α ε)) :
    TimedOutcome α ε :=
  match t.look sub with
  | some (outcome, _) => ⟨outcome, start, t⟩
  | none => t.asyncWait sub timeout (waitEnd timeout start) false events

end Tunnel

/-- Two readers with equal cursors, and what happens after they have started. -/
structure ReadPair (α ε : Type) where
  tunnel : Tunnel α ε
  accepted : List α
  retains : tunnel.Retains accepted
  maxHistory_pos : ∀ n, tunnel.maxHistory = some n → 0 < n
  sub : TunnelSubscription
  cursor_le : sub.cursor ≤ accepted.length
  timeout : Int
  timeout_eq : sub.timeout = some timeout
  start : Int
  events : List (TimedEvent α ε)
  started : ∀ e ∈ events, start < e.time
  ordered : events.Pairwise fun e e' => e.time < e'.time

namespace ReadPair

variable (p : ReadPair α ε)

def next : TimedOutcome α ε := p.tunnel.next p.sub p.timeout p.start p.events

def anext : TimedOutcome α ε := p.tunnel.anext p.sub p.timeout p.start p.events

/-- The timeout counted from the start of the calls. -/
def deadline : Int := Tunnel.waitEnd p.timeout p.start

/-! ## 3. What is claimed, and when it holds -/

structure Agree : Prop where
  same : p.anext.outcome.observed = p.next.outcome.observed
  next_time : p.next.time ≤ p.deadline
  anext_time : p.anext.time ≤ p.deadline
  next_missed : p.next.outcome = .timedOut → ¬ p.next.tunnel.available p.sub
  anext_missed : p.anext.outcome = .timedOut → ¬ p.anext.tunnel.available p.sub

/-- Something is there for the readers when they start. -/
def Ready : Prop :=
  p.sub.terminated = true ∨ p.sub.cursor < p.accepted.length ∨ p.tunnel.terminal = true

/-- The first put, close or fail, and the next time the loop of the async reader runs its
    callbacks, are before the deadline; what has been put is not evicted in between. -/
def HeardInTime : Prop :=
  ∃ before news between hear later,
    p.events = before ++ news :: (between ++ hear :: later) ∧
    (∀ e ∈ before, e.event.isNews = false) ∧ news.event.isNews = true ∧
    (∀ e ∈ between, e.event ≠ .hear) ∧ hear.event = .hear ∧ hear.time ≤ p.deadline ∧
    (p.tunnel.afterAll (before ++ news :: between)).baseSequence ≤ p.sub.cursor

/-- Until the deadline nothing comes first but the end of the tunnel, and the loop of the async
    reader hears of no other subscription. -/
structure Undisturbed : Prop where
  news : ∀ news ∈ p.events, news.event.isNews = true → news.time ≤ p.deadline →
    (∀ e ∈ p.events, e.event.isNews = true → news.time ≤ e.time) → news.event = .close
  others : ∀ other ∈ p.events, ∀ hear ∈ p.events, other.event = .closeOther →
    hear.event = .hear → other.time < hear.time → p.deadline < hear.time

end ReadPair

/-! ## 4. What there is to read -/

/-- Nothing is there for the reader, and the tunnel is open. -/
structure Tunnel.Idle (t : Tunnel α ε) (sub : TunnelSubscription) (accepted : List α) : Prop where
  retains : t.Retains accepted
  maxHistory_pos : ∀ n, t.maxHistory = some n → 0 < n
  running : sub.terminated = false
  cursor : sub.cursor = accepted.length
  notTerminal : t.terminal = false

/-- What a waiting reader is given. -/
def WaitEvent.brings : WaitEvent α ε → ReadOutcome α ε
  | .put data => .item data
  | .close => .eof
  | .fail error => .failed error
  | .closeOther | .hear => .timedOut

namespace Tunnel

variable {t : Tunnel α ε} {sub : TunnelSubscription} {accepted : List α}

theorem afterAll_cons (t : Tunnel α ε) (e : TimedEvent α ε) (events : List (TimedEvent α ε)) :
    t.afterAll (e :: events) = (t.after e.event).afterAll events := rfl

theorem afterAll_append (t : Tunnel α ε) (events later : List (TimedEvent α ε)) :
    t.afterAll (events ++ later) = (t.afterAll events).afterAll later :=
  List.foldl_append

theorem after_of_quiet {event : WaitEvent α ε} (h : event.isNews = false) : t.after event = t := by
  cases event with
  | put _ => cases h
  | close => cases h
  | fail _ => cases h
  | closeOther => rfl
  | hear => rfl

theorem afterAll_of_quiet {events : List (TimedEvent α ε)}
    (h : ∀ e ∈ events, e.event.isNews = false) : t.afterAll events = t := by
  induction events with
  | nil => rfl
  | cons e events ih =>
    rw [afterAll_cons, after_of_quiet (h e List.mem_cons_self)]
    exact ih fun e he => h e (List.mem_cons_of_mem _ he)

theorem after_of_terminal (h : t.terminal = true) (event : WaitEvent α ε) :
    t.after event = t := by
  obtain ⟨hput, hclose, hfail⟩ := of_terminal h
  cases event with
  | put data => simp [after, hput]
  | close => exact hclose
  | fail error => exact hfail error
  | closeOther => rfl
  | hear => rfl

theorem afterAll_of_terminal (h : t.terminal = true) (events : List (TimedEvent α ε)) :
    t.afterAll events = t := by
  induction events with
  | nil => rfl
  | cons e events ih => rw [afterAll_cons, after_of_terminal h, ih]

theorem Retains.after (hr : t.Retains accepted) (event : WaitEvent α ε) :
    ∃ more, (t.after event).Retains (accepted ++ more) := by
  have hsame : t.Retains (accepted ++ []) := by rwa [List.append_nil]
  cases event with
  | put data =>
    simp only [Tunnel.after]
    cases hput : t.put data with
    | ok t' => exact ⟨_, hr.put hput⟩
    | error error => exact ⟨[], hsame⟩
  | close =>
    refine ⟨[], ?_⟩
    rcases close_eq_or (t := t) with h | ⟨-, h⟩
    · rwa [Tunnel.after, h]
    · rw [Tunnel.after, h]
      exact ⟨hsame.items, hsame.base, hsame.next, hsame.length⟩
  | fail error =>
    refine ⟨[], ?_⟩
    rcases fail_eq_or (t := t) error with h | ⟨-, h⟩
    · rwa [Tunnel.after, h]
    · rw [Tunnel.after, h]
      exact ⟨hsame.items, hsame.base, hsame.next, hsame.length⟩
  | closeOther => exact ⟨[], hsame⟩
  | hear => exact ⟨[], hsame⟩

theorem Retains.afterAll (hr : t.Retains accepted) (events : List (TimedEvent α ε)) :
    ∃ more, (t.afterAll events).Retains (accepted ++ more) := by
  induction events generalizing t accepted with
  | nil => exact ⟨[], by rwa [List.append_nil]⟩
  | cons e events ih =>
    obtain ⟨more, hmore⟩ := hr.after e.event
    obtain ⟨rest, hrest⟩ := ih hmore
    exact ⟨more ++ rest, by rwa [← List.append_assoc]⟩

/-- A reader whose item has been accepted. -/
theorem Retains.look_item (hr : t.Retains accepted) (hrunning : sub.terminated = false) {data : α}
    (hdata : accepted[sub.cursor]? = some data) :
    (t.baseSequence ≤ sub.cursor ∧ ∃ sub', t.look sub = some (.item data, sub')) ∨
      (sub.cursor < t.baseSequence ∧
        ∃ sub', t.look sub = some (.lag ⟨sub.cursor, t.baseSequence⟩, sub')) := by
  unfold look
  rw [if_neg (by simp [hrunning])]
  by_cases hlag : sub.cursor < t.baseSequence
  · rw [if_pos hlag]
    exact Or.inr ⟨hlag, _, rfl⟩
  · rw [if_neg hlag, hr.getElem? (Nat.le_of_not_lt hlag), hdata]
    exact Or.inl ⟨Nat.le_of_not_lt hlag, _, rfl⟩

/-- A reader at the live edge. -/
theorem Retains.look_edge (hr : t.Retains accepted) (hrunning : sub.terminated = false)
    (hcursor : sub.cursor = accepted.length) :
    t.look sub = match t.failure with
      | some error => some (.failed error, { sub with terminated := true })
      | none => if t.closed then some (.eof, { sub with terminated := true }) else none := by
  have hbase := hr.base
  unfold look
  have hpast : accepted[sub.cursor]? = none := List.getElem?_eq_none (by omega)
  rw [if_neg (by simp [hrunning]), if_neg (by omega), hr.getElem? (by omega)]
  cases t.failure with
  | none => simp only [hpast]
  | some error => simp only [hpast]

theorem Idle.look (hi : t.Idle sub accepted) : t.look sub = none := by
  have hnot := hi.notTerminal
  unfold terminal at hnot
  obtain ⟨hclosed, hfailure⟩ := Bool.or_eq_false_iff.mp hnot
  rw [hi.retains.look_edge hi.running hi.cursor, Option.isSome_eq_false_iff.mp hfailure |>
    Option.isNone_iff_eq_none.mp]
  simp [hclosed]

theorem Idle.not_available (hi : t.Idle sub accepted) : ¬ t.available sub := by
  rintro ⟨hbase, hitem⟩
  rw [hi.retains.getElem? hbase, List.getElem?_eq_none (Nat.le_of_eq hi.cursor.symm)] at hitem
  cases hitem

theorem Idle.failure (hi : t.Idle sub accepted) : t.failure = none := by
  have hnot := hi.notTerminal
  rw [terminal, Bool.or_eq_false_iff] at hnot
  simpa using hnot.2

theorem Idle.after_close (hi : t.Idle sub accepted) :
    t.after .close = { t with closed := true } := by
  simp [after, close, hi.notTerminal]

theorem Idle.after_fail (hi : t.Idle sub accepted) (error : ε) :
    t.after (.fail error) = { t with failure := some error } := by
  simp [after, fail, hi.notTerminal]

/-- What comes first is not evicted by itself. -/
theorem Idle.base_le (hi : t.Idle sub accepted) {news : WaitEvent α ε}
    (hnews : news.isNews = true) : (t.after news).baseSequence ≤ sub.cursor := by
  have hbase := hi.retains.base
  have hcursor := hi.cursor
  cases news with
  | put data =>
    obtain ⟨t', ht'⟩ := put_of_open hi.notTerminal data
    rw [show t.after (.put data) = t' by simp [after, ht']]
    obtain ⟨-, -, -, -, -, ⟨hfull, -, hbase'⟩ | ⟨-, -, hbase'⟩⟩ := put_ok ht'
    · have hlength : t.items.length = accepted.length - t.baseSequence := by
        rw [hi.retains.items, List.length_drop]
      cases hmax : t.maxHistory with
      | none =>
        rw [hmax] at hfull
        cases hfull
      | some n =>
        have hpos := hi.maxHistory_pos n hmax
        rw [hmax] at hfull
        have hfull : n < t.items.length + 1 := of_decide_eq_true hfull
        omega
    · omega
  | close =>
    rw [hi.after_close, hcursor]
    exact hbase
  | fail error =>
    rw [hi.after_fail, hcursor]
    exact hbase
  | closeOther => cases hnews
  | hear => cases hnews

/-- What comes first is what the reader finds from then on, unless it has been evicted. -/
theorem Idle.look_later (hi : t.Idle sub accepted) {news : WaitEvent α ε}
    (hnews : news.isNews = true) (events : List (TimedEvent α ε)) :
    (((t.after news).afterAll events).baseSequence ≤ sub.cursor ∧
        ∃ sub', ((t.after news).afterAll events).look sub = some (news.brings, sub')) ∨
      (sub.cursor < ((t.after news).afterAll events).baseSequence ∧
        ∃ error sub', ((t.after news).afterAll events).look sub = some (.lag error, sub')) := by
  have hbase := hi.base_le hnews
  have hcursor := hi.cursor
  cases news with
  | put data =>
    obtain ⟨t', ht'⟩ := put_of_open hi.notTerminal data
    obtain ⟨more, hmore⟩ := (hi.retains.put ht').afterAll events
    have hdata : (accepted ++ [data] ++ more)[sub.cursor]? = some data := by
      rw [hcursor, List.append_assoc, List.getElem?_append_right (Nat.le_refl _), Nat.sub_self]
      rfl
    rw [show t.after (.put data) = t' by simp [after, ht']]
    rcases hmore.look_item hi.running hdata with h | ⟨hlag, sub', hlook⟩
    · exact Or.inl h
    · exact Or.inr ⟨hlag, _, sub', hlook⟩
  | close =>
    rw [hi.after_close] at hbase ⊢
    have hretains : ({ t with closed := true } : Tunnel α ε).Retains accepted :=
      ⟨hi.retains.items, hi.retains.base, hi.retains.next, hi.retains.length⟩
    rw [afterAll_of_terminal rfl, hretains.look_edge hi.running hcursor]
    exact Or.inl ⟨hbase, _, by simp only [hi.failure]; rfl⟩
  | fail error =>
    rw [hi.after_fail] at hbase ⊢
    have hretains : ({ t with failure := some error } : Tunnel α ε).Retains accepted :=
      ⟨hi.retains.items, hi.retains.base, hi.retains.next, hi.retains.length⟩
    rw [afterAll_of_terminal (by simp [terminal]), hretains.look_edge hi.running hcursor]
    exact Or.inl ⟨hbase, _, rfl⟩
  | closeOther => cases hnews
  | hear => cases hnews

theorem Idle.look_news (hi : t.Idle sub accepted) {news : WaitEvent α ε}
    (hnews : news.isNews = true) :
    ∃ sub', (t.after news).look sub = some (news.brings, sub') := by
  rcases hi.look_later hnews [] with ⟨-, h⟩ | ⟨hlag, -⟩
  · exact h
  · exact absurd (hi.base_le hnews) (Nat.not_le_of_lt hlag)

theorem Idle.wakes_news (hi : t.Idle sub accepted) {news : WaitEvent α ε}
    (hnews : news.isNews = true) : t.wakes news = true := by
  have hnot := hi.notTerminal
  cases news with
  | put data => simp [wakes, hnot]
  | close => simp [wakes, hnot]
  | fail error => simp [wakes, hnot]
  | closeOther => rfl
  | hear => cases hnews

end Tunnel

/-! ## 5. The sync read -/

namespace Tunnel

variable {t : Tunnel α ε} {sub : TunnelSubscription} {accepted : List α} {deadline timeout : Int}
  {before events : List (TimedEvent α ε)}

theorem syncLook_none (h : t.look sub = none) (deadline now : Int) (wait : TimedOutcome α ε) :
    t.syncLook sub deadline now wait =
      if deadline - now ≤ 0 then ⟨.timedOut, now, t⟩ else wait := by
  rw [syncLook, h]

theorem syncLook_deadline (h : t.look sub = none) (wait : TimedOutcome α ε) :
    t.syncLook sub deadline deadline wait = ⟨.timedOut, deadline, t⟩ := by
  rw [syncLook_none h, if_pos (by omega)]

/-- Nothing comes until the deadline. -/
theorem syncWait_late (h : t.look sub = none) (hlate : ∀ e ∈ events, deadline < e.time) :
    t.syncWait sub deadline events = ⟨.timedOut, deadline, t⟩ := by
  cases events with
  | nil => rw [syncWait, syncLook_deadline h]
  | cons e events => rw [syncWait, if_pos (hlate e List.mem_cons_self), syncLook_deadline h]

/-- A wake-up that brings nothing leaves the deadline as it is. -/
theorem syncWait_append (h : t.look sub = none) (hquiet : ∀ e ∈ before, e.event.isNews = false)
    (hordered : (before ++ events).Pairwise fun e e' => e.time < e'.time) :
    t.syncWait sub deadline (before ++ events) = t.syncWait sub deadline events := by
  induction before with
  | nil => rfl
  | cons e before ih =>
    obtain ⟨hfirst, hrest⟩ := List.pairwise_cons.mp hordered
    have hih := ih (fun e he => hquiet e (List.mem_cons_of_mem _ he)) hrest
    have hafter : t.after e.event = t := after_of_quiet (hquiet e List.mem_cons_self)
    have hlater : deadline ≤ e.time → t.syncWait sub deadline events = ⟨.timedOut, deadline, t⟩ :=
      fun hle => syncWait_late h fun e' he' =>
        Int.lt_of_le_of_lt hle (hfirst e' (List.mem_append_right _ he'))
    rw [List.cons_append, syncWait, hafter, hih]
    split
    · rename_i hlate
      rw [syncLook_deadline h, hlater (by omega)]
    · split
      · rw [syncLook_none h]
        split
        · rename_i hnow _ hover
          have htime : e.time = deadline := by omega
          rw [hlater (by omega), htime]
        · rfl
      · rfl

theorem Idle.syncWait_news (hi : t.Idle sub accepted) {news : TimedEvent α ε}
    (hnews : news.event.isNews = true) (hlate : news.time ≤ deadline) :
    t.syncWait sub deadline (news :: events) =
      ⟨news.event.brings, news.time, t.after news.event⟩ := by
  obtain ⟨sub', hlook⟩ := hi.look_news hnews
  rw [syncWait, if_neg (by omega), if_pos (hi.wakes_news hnews), syncLook, hlook]

/-- Nothing is there when the read starts: it waits until its deadline. -/
theorem next_of_look (h : t.look sub = none) {start : Int}
    (hstarted : ∀ e ∈ events, start < e.time) :
    t.next sub timeout start events = t.syncWait sub (waitEnd timeout start) events := by
  rw [next, syncLook_none h, waitEnd]
  split
  · rename_i hover
    have hmax : start + max timeout 0 = start := by omega
    rw [hmax, syncWait_late h hstarted]
  · rename_i hwait
    rw [show start + max timeout 0 = start + timeout by omega]

/-! ## 6. The async read -/

variable {giveUp now : Int} {queued : Bool}

/-- Whether the loop hears of another subscription. -/
def hearsOthers : Bool → List (TimedEvent α ε) → Bool
  | _, [] => false
  | queued, e :: events =>
    match e.event with
    | .closeOther => hearsOthers true events
    | .hear => queued || hearsOthers queued events
    | _ => hearsOthers queued events

/-- The wait is not over before the deadline; it goes on past it once the loop has heard of another
    subscription. -/
theorem asyncWait_append (queued : Bool) (events : List (TimedEvent α ε))
    (h : t.look sub = none) (hquiet : ∀ e ∈ before, e.event.isNews = false)
    (htime : ∀ e ∈ before, now < e.time ∧ e.time ≤ waitEnd timeout now)
    (hgiveUp : waitEnd timeout now ≤ giveUp) :
    ∃ giveUp' queued',
      t.asyncWait sub timeout giveUp queued (before ++ events) =
        t.asyncWait sub timeout giveUp' queued' events ∧
      waitEnd timeout now ≤ giveUp' ∧ (hearsOthers queued before = false → giveUp' = giveUp) ∧
      (hearsOthers queued before = true ∨ waitEnd timeout now < giveUp →
        waitEnd timeout now < giveUp') := by
  induction before generalizing giveUp queued with
  | nil =>
    refine ⟨giveUp, queued, rfl, hgiveUp, fun _ => rfl, ?_⟩
    rintro (hhears | hlonger)
    · cases hhears
    · exact hlonger
  | cons e before ih =>
    obtain ⟨hafterNow, hbefore⟩ := htime e List.mem_cons_self
    have hquiet' : ∀ e ∈ before, e.event.isNews = false :=
      fun e he => hquiet e (List.mem_cons_of_mem _ he)
    have htime' : ∀ e ∈ before, now < e.time ∧ e.time ≤ waitEnd timeout now :=
      fun e he => htime e (List.mem_cons_of_mem _ he)
    have hnot : ¬ giveUp < e.time := by omega
    have hnews := hquiet e List.mem_cons_self
    cases hevent : e.event with
    | closeOther =>
      simp only [List.cons_append, asyncWait, if_neg hnot, hevent, hearsOthers, wakes, after,
        Bool.or_true]
      exact ih true hquiet' htime' hgiveUp
    | hear =>
      simp only [List.cons_append, asyncWait, if_neg hnot, hevent, hearsOthers]
      cases queued with
      | false =>
        simp only [Bool.false_eq_true, if_false, Bool.false_or]
        exact ih false hquiet' htime' hgiveUp
      | true =>
        -- the wait begins anew, later than the call
        simp only [if_true, h, Bool.true_or]
        have hlonger : waitEnd timeout now < waitEnd timeout e.time := by
          unfold waitEnd
          omega
        obtain ⟨giveUp', queued', heq, hle, -, hlate⟩ :=
          ih false hquiet' htime' (Int.le_of_lt hlonger)
        exact ⟨giveUp', queued', heq, hle, (fun h => by cases h),
          fun _ => hlate (Or.inr hlonger)⟩
    | put data =>
      rw [hevent] at hnews
      cases hnews
    | close =>
      rw [hevent] at hnews
      cases hnews
    | fail error =>
      rw [hevent] at hnews
      cases hnews

/-- A wait that goes on past the deadline, and does not hear of anything before it. -/
theorem asyncWait_longer (hlonger : deadline < giveUp)
    (hlate : ∀ e ∈ events, e.event = .hear → deadline < e.time) :
    deadline < (t.asyncWait sub timeout giveUp queued events).time := by
  induction events generalizing t giveUp queued with
  | nil => exact hlonger
  | cons e events ih =>
    have hlate' : ∀ e ∈ events, e.event = .hear → deadline < e.time :=
      fun e he => hlate e (List.mem_cons_of_mem _ he)
    rw [asyncWait]
    split
    · exact hlonger
    · split
      · rename_i hevent
        have htime := hlate e List.mem_cons_self hevent
        split
        · split
          · exact htime
          · refine ih ?_ hlate'
            unfold waitEnd
            omega
        · exact ih hlonger hlate'
      · exact ih hlonger hlate'

/-- Once something has come, and nothing is heard of it in time. -/
theorem asyncWait_unheard (hlate : ∀ e ∈ events, e.event = .hear → giveUp < e.time) :
    ∃ later, t.asyncWait sub timeout giveUp queued events =
      ⟨.timedOut, giveUp, t.afterAll later⟩ := by
  induction events generalizing t queued with
  | nil => exact ⟨[], rfl⟩
  | cons e events ih =>
    have hlate' : ∀ e ∈ events, e.event = .hear → giveUp < e.time :=
      fun e he => hlate e (List.mem_cons_of_mem _ he)
    rw [asyncWait]
    split
    · exact ⟨[], rfl⟩
    · rename_i hnot
      split
      · rename_i hevent
        exact absurd (hlate e List.mem_cons_self hevent) hnot
      · obtain ⟨later, hlater⟩ := ih hlate'
        exact ⟨e :: later, hlater⟩

/-- It is heard in time: the read looks. -/
theorem asyncWait_heard {between : List (TimedEvent α ε)} {hear : TimedEvent α ε}
    (hbetween : ∀ e ∈ between, e.event ≠ .hear ∧ e.time ≤ giveUp) (hevent : hear.event = .hear)
    (htime : hear.time ≤ giveUp) {outcome : ReadOutcome α ε} {sub' : TunnelSubscription}
    (hlook : (t.afterAll between).look sub = some (outcome, sub')) :
    t.asyncWait sub timeout giveUp true (between ++ hear :: events) =
      ⟨outcome, hear.time, t.afterAll between⟩ := by
  induction between generalizing t with
  | nil =>
    have hlook : t.look sub = some (outcome, sub') := hlook
    rw [List.nil_append, asyncWait, if_neg (by omega), hevent]
    simp only [if_true, hlook]
    rfl
  | cons e between ih =>
    obtain ⟨hnot, hle⟩ := hbetween e List.mem_cons_self
    have hbetween' : ∀ e ∈ between, e.event ≠ .hear ∧ e.time ≤ giveUp :=
      fun e he => hbetween e (List.mem_cons_of_mem _ he)
    rw [List.cons_append, asyncWait, if_neg (by omega)]
    split
    · rename_i hear'
      exact absurd hear' hnot
    · exact ih hbetween' hlook

/-- What comes while the reader waits removes its waiter. -/
theorem Idle.asyncWait_news (hi : t.Idle sub accepted) {news : TimedEvent α ε}
    (hnews : news.event.isNews = true) (hlate : news.time ≤ giveUp) :
    t.asyncWait sub timeout giveUp queued (news :: events) =
      (t.after news.event).asyncWait sub timeout giveUp true events := by
  rw [asyncWait, if_neg (by omega)]
  split
  · rename_i hevent
    rw [hevent] at hnews
    cases hnews
  · rw [hi.wakes_news hnews, Bool.or_true]

theorem hearsOthers_of_queued {hear : TimedEvent α ε} (hmem : hear ∈ events)
    (hhear : hear.event = .hear) : hearsOthers true events = true := by
  induction events with
  | nil => cases hmem
  | cons e events ih =>
    rcases List.mem_cons.mp hmem with rfl | hmem
    · rw [hearsOthers, hhear]
      rfl
    · rw [hearsOthers]
      split
      · exact ih hmem
      · rfl
      · exact ih hmem

theorem hearsOthers_of_other (hordered : events.Pairwise fun e e' => e.time < e'.time)
    {other hear : TimedEvent α ε} (hmem : other ∈ events) (hmem' : hear ∈ events)
    (hother : other.event = .closeOther) (hhear : hear.event = .hear)
    (htime : other.time < hear.time) : hearsOthers queued events = true := by
  induction events generalizing queued with
  | nil => cases hmem
  | cons e events ih =>
    obtain ⟨hfirst, hrest⟩ := List.pairwise_cons.mp hordered
    have htail : hear ∈ events := by
      rcases List.mem_cons.mp hmem' with rfl | h
      · rcases List.mem_cons.mp hmem with rfl | h
        · omega
        · have := hfirst other h
          omega
      · exact h
    rw [hearsOthers]
    rcases List.mem_cons.mp hmem with rfl | hmem
    · rw [hother]
      exact hearsOthers_of_queued htail hhear
    · split
      · exact ih hrest hmem htail
      · rw [ih hrest hmem htail, Bool.or_true]
      · exact ih hrest hmem htail

theorem of_hearsOthers (hordered : events.Pairwise fun e e' => e.time < e'.time)
    (h : hearsOthers queued events = true) :
    ∃ hear ∈ events, hear.event = .hear ∧ (queued = true ∨
      ∃ other ∈ events, other.event = .closeOther ∧ other.time < hear.time) := by
  induction events generalizing queued with
  | nil => cases h
  | cons e events ih =>
    obtain ⟨hfirst, hrest⟩ := List.pairwise_cons.mp hordered
    have hkeep : hearsOthers queued events = true → ∃ hear ∈ e :: events, hear.event = .hear ∧
        (queued = true ∨
          ∃ other ∈ e :: events, other.event = .closeOther ∧ other.time < hear.time) := by
      intro h
      obtain ⟨hear, hmem, hhear, hcases⟩ := ih hrest h
      refine ⟨hear, List.mem_cons_of_mem _ hmem, hhear, hcases.imp_right ?_⟩
      rintro ⟨other, hother, hrest⟩
      exact ⟨other, List.mem_cons_of_mem _ hother, hrest⟩
    rw [hearsOthers] at h
    split at h
    · rename_i hevent
      obtain ⟨hear, hmem, hhear, -⟩ := ih hrest h
      exact ⟨hear, List.mem_cons_of_mem _ hmem, hhear,
        Or.inr ⟨e, List.mem_cons_self, hevent, hfirst hear hmem⟩⟩
    · rename_i hevent
      rcases Bool.or_eq_true_iff.mp h with hqueued | h
      · exact ⟨e, List.mem_cons_self, hevent, Or.inl hqueued⟩
      · exact hkeep h
    · exact hkeep h

end Tunnel

/-! ## 7. When the reads agree -/

/-- The events until a moment and those after it. -/
theorem split_at_time {events : List (TimedEvent α ε)}
    (hordered : events.Pairwise fun e e' => e.time < e'.time) (time : Int) :
    ∃ before later, events = before ++ later ∧ (∀ e ∈ before, e.time ≤ time) ∧
      ∀ e ∈ later, time < e.time := by
  induction events with
  | nil => exact ⟨[], [], rfl, (fun _ h => by cases h), fun _ h => by cases h⟩
  | cons e events ih =>
    obtain ⟨hfirst, hrest⟩ := List.pairwise_cons.mp hordered
    by_cases he : e.time ≤ time
    · obtain ⟨before, later, rfl, hbefore, hlater⟩ := ih hrest
      refine ⟨e :: before, later, rfl, ?_, hlater⟩
      simpa [he] using hbefore
    · refine ⟨[], e :: events, rfl, (fun _ h => by cases h), fun e' he' => ?_⟩
      rcases List.mem_cons.mp he' with rfl | he'
      · omega
      · have := hfirst e' he'
        omega

theorem split_at_first {events : List (TimedEvent α ε)} (p : TimedEvent α ε → Bool)
    (h : ∃ e ∈ events, p e = true) :
    ∃ before e later, events = before ++ e :: later ∧ (∀ e ∈ before, p e = false) ∧
      p e = true := by
  cases hfind : events.find? p with
  | none =>
    obtain ⟨e, he, hp⟩ := h
    exact absurd hp (List.find?_eq_none.mp hfind e he)
  | some e =>
    obtain ⟨hp, before, later, rfl, hbefore⟩ := List.find?_eq_some_iff_append.mp hfind
    exact ⟨before, e, later, rfl, fun e he => by simpa using hbefore e he, hp⟩

namespace ReadPair

variable {p : ReadPair α ε}

/-- The readers wait. -/
def Waits (p : ReadPair α ε) : Prop := p.tunnel.Idle p.sub p.accepted

theorem waits_of_not_ready (h : ¬ p.Ready) : p.Waits := by
  obtain ⟨hrunning, hrest⟩ := not_or.mp h
  obtain ⟨hcursor, hterminal⟩ := not_or.mp hrest
  have hle := p.cursor_le
  exact ⟨p.retains, p.maxHistory_pos, by simpa using hrunning, by omega, by simpa using hterminal⟩

theorem ready_look (h : p.Ready) : ∃ outcome sub', p.tunnel.look p.sub = some (outcome, sub') := by
  by_cases hrunning : p.sub.terminated = true
  · exact ⟨_, _, by rw [Tunnel.look, if_pos hrunning]⟩
  · have hrunning : p.sub.terminated = false := by simpa using hrunning
    by_cases hcursor : p.sub.cursor < p.accepted.length
    · rcases p.retains.look_item hrunning (List.getElem?_eq_getElem hcursor) with
        ⟨-, sub', hlook⟩ | ⟨-, sub', hlook⟩
      · exact ⟨_, sub', hlook⟩
      · exact ⟨_, sub', hlook⟩
    · have hle := p.cursor_le
      have hterminal : p.tunnel.terminal = true := by
        rcases h with h | h | h
        · rw [hrunning] at h
          cases h
        · exact absurd h hcursor
        · exact h
      rw [p.retains.look_edge hrunning (by omega)]
      cases hfailure : p.tunnel.failure with
      | some error => exact ⟨_, _, rfl⟩
      | none =>
        have hclosed : p.tunnel.closed = true := by
          simpa [Tunnel.terminal, hfailure] using hterminal
        exact ⟨_, _, by rw [if_pos hclosed]⟩

/-- They look at the same tunnel at the same moment. -/
theorem agree_of_ready (h : p.Ready) : p.Agree := by
  obtain ⟨outcome, sub', hlook⟩ := ready_look h
  have hnext : p.next = ⟨outcome, p.start, p.tunnel⟩ := by
    rw [next, Tunnel.next, Tunnel.syncLook, hlook]
  have hanext : p.anext = ⟨outcome, p.start, p.tunnel⟩ := by
    rw [anext, Tunnel.anext, hlook]
  have htime : p.start ≤ p.deadline := by
    unfold deadline Tunnel.waitEnd
    omega
  have hmissed : outcome = .timedOut → ¬ p.tunnel.available p.sub := by
    rintro rfl
    rcases Tunnel.look_cases p.retains hlook with ⟨h, -⟩ | ⟨-, ⟨h, -⟩ | ⟨-, h⟩⟩
    · cases h
    · cases h
    · rcases h with ⟨item, h, -⟩ | ⟨-, -, ⟨error, h, -⟩ | ⟨h, -⟩⟩
      · cases h
      · cases h
      · cases h
  exact ⟨by rw [hnext, hanext], by rwa [hnext], by rwa [hanext], by rwa [hnext], by rwa [hanext]⟩

namespace Waits

variable {before later between : List (TimedEvent α ε)} {news hear : TimedEvent α ε}

theorem next (hp : p.Waits) (hevents : p.events = before ++ later)
    (hquiet : ∀ e ∈ before, e.event.isNews = false) :
    p.next = p.tunnel.syncWait p.sub p.deadline later := by
  have hordered := p.ordered
  rw [hevents] at hordered
  rw [ReadPair.next, Tunnel.next_of_look hp.look p.started, hevents,
    Tunnel.syncWait_append hp.look hquiet hordered]
  rfl

theorem anext (hp : p.Waits) (hevents : p.events = before ++ later)
    (hquiet : ∀ e ∈ before, e.event.isNews = false) (htime : ∀ e ∈ before, e.time ≤ p.deadline) :
    ∃ giveUp queued, p.anext = p.tunnel.asyncWait p.sub p.timeout giveUp queued later ∧
      (Tunnel.hearsOthers false before = false ∧ giveUp = p.deadline ∨
        Tunnel.hearsOthers false before = true ∧ p.deadline < giveUp) := by
  have hstarted : ∀ e ∈ before, p.start < e.time ∧ e.time ≤ p.deadline := fun e he =>
    ⟨p.started e (by rw [hevents]; exact List.mem_append_left _ he), htime e he⟩
  obtain ⟨giveUp, queued, heq, -, hsame, hlonger⟩ :=
    Tunnel.asyncWait_append false later hp.look hquiet hstarted (Int.le_refl _)
  refine ⟨giveUp, queued, ?_, ?_⟩
  · rw [ReadPair.anext, Tunnel.anext, hp.look, hevents, ← heq]
  · cases hhears : Tunnel.hearsOthers false before with
    | false => exact Or.inl ⟨rfl, hsame hhears⟩
    | true => exact Or.inr ⟨rfl, hlonger (Or.inl hhears)⟩

/-- Nothing comes until the deadline. -/
theorem agree_of_nothing (hp : p.Waits) (hevents : p.events = before ++ later)
    (hquiet : ∀ e ∈ before, e.event.isNews = false) (htime : ∀ e ∈ before, e.time ≤ p.deadline)
    (hlater : ∀ e ∈ later, p.deadline < e.time) :
    p.Agree ↔ Tunnel.hearsOthers false before = false := by
  have hnext := hp.next hevents hquiet
  rw [Tunnel.syncWait_late hp.look hlater] at hnext
  obtain ⟨giveUp, queued, hanext, ⟨hhears, rfl⟩ | ⟨hhears, hlonger⟩⟩ :=
    hp.anext hevents hquiet htime
  · refine iff_of_true ?_ hhears
    have hover : p.anext = ⟨.timedOut, p.deadline, p.tunnel⟩ := by
      rw [hanext]
      cases later with
      | nil => rfl
      | cons e later => rw [Tunnel.asyncWait, if_pos (hlater e List.mem_cons_self)]
    refine ⟨by rw [hnext, hover], ?_, ?_, ?_, ?_⟩
    · exact Int.le_of_eq (by rw [hnext])
    · exact Int.le_of_eq (by rw [hover])
    · rw [hnext]
      exact fun _ => hp.not_available
    · rw [hover]
      exact fun _ => hp.not_available
  · refine iff_of_false (fun hagree => ?_) (by simp [hhears])
    have htime := hagree.anext_time
    rw [hanext] at htime
    exact absurd (Tunnel.asyncWait_longer hlonger fun e he _ => hlater e he)
      (Int.not_lt_of_ge htime)

theorem later_ordered (p : ReadPair α ε) (hevents : p.events = before ++ news :: later) :
    (∀ e ∈ before, e.time < news.time) ∧ (∀ e ∈ later, news.time < e.time) ∧
      later.Pairwise fun e e' => e.time < e'.time := by
  have hordered := p.ordered
  rw [hevents] at hordered
  obtain ⟨-, htail, hcross⟩ := List.pairwise_append.mp hordered
  obtain ⟨hfirst, hrest⟩ := List.pairwise_cons.mp htail
  exact ⟨fun e he => hcross e he news List.mem_cons_self, hfirst, hrest⟩

/-- Something comes in time: what the sync read gives, and how the async one goes on. -/
theorem told (hp : p.Waits) (hevents : p.events = before ++ news :: later)
    (hquiet : ∀ e ∈ before, e.event.isNews = false) (hnews : news.event.isNews = true)
    (htime : news.time ≤ p.deadline) :
    p.next = ⟨news.event.brings, news.time, p.tunnel.after news.event⟩ ∧
      ∃ giveUp, p.anext =
          (p.tunnel.after news.event).asyncWait p.sub p.timeout giveUp true later ∧
        (Tunnel.hearsOthers false before = false ∧ giveUp = p.deadline ∨
          Tunnel.hearsOthers false before = true ∧ p.deadline < giveUp) := by
  obtain ⟨hearlier, -, -⟩ := later_ordered p hevents
  refine ⟨?_, ?_⟩
  · rw [hp.next hevents hquiet, hp.syncWait_news hnews htime]
  · obtain ⟨giveUp, queued, hanext, hgiveUp⟩ := hp.anext hevents hquiet fun e he => by
      have := hearlier e he
      omega
    refine ⟨giveUp, ?_, hgiveUp⟩
    rw [hanext, hp.asyncWait_news hnews (by omega)]

theorem brings_observed {event : WaitEvent α ε} (hnews : event.isNews = true) :
    event.brings ≠ .timedOut ∧ (∀ error, event.brings.observed ≠ .lag error) ∧
      (event.brings.observed = .stopped ↔ event = .close) := by
  cases event with
  | put data => simp [WaitEvent.brings, ReadOutcome.observed]
  | close => simp [WaitEvent.brings, ReadOutcome.observed]
  | fail error => simp [WaitEvent.brings, ReadOutcome.observed]
  | closeOther => cases hnews
  | hear => cases hnews

/-- It is heard in time. -/
theorem agree_of_heard (hp : p.Waits)
    (hevents : p.events = before ++ news :: (between ++ hear :: later))
    (hquiet : ∀ e ∈ before, e.event.isNews = false) (hnews : news.event.isNews = true)
    (hbetween : ∀ e ∈ between, e.event ≠ .hear) (hhear : hear.event = .hear)
    (htime : hear.time ≤ p.deadline) :
    p.Agree ↔ (p.tunnel.afterAll (before ++ news :: between)).baseSequence ≤ p.sub.cursor := by
  obtain ⟨-, hlater, hordered⟩ := later_ordered p hevents
  have hbetweenTime : ∀ e ∈ between, e.time < hear.time := by
    obtain ⟨-, -, hcross⟩ := List.pairwise_append.mp hordered
    exact fun e he => hcross e he hear List.mem_cons_self
  have hnewsTime := hlater hear (List.mem_append_right _ List.mem_cons_self)
  obtain ⟨hnext, giveUp, hanext, hgiveUp⟩ := hp.told hevents hquiet hnews (by omega)
  obtain ⟨htimedOut, hlag, -⟩ := brings_observed hnews
  have hafter : p.tunnel.afterAll (before ++ news :: between) =
      (p.tunnel.after news.event).afterAll between := by
    rw [Tunnel.afterAll_append, Tunnel.afterAll_of_quiet hquiet, Tunnel.afterAll_cons]
  have hheard : ∀ {outcome sub'},
      ((p.tunnel.after news.event).afterAll between).look p.sub = some (outcome, sub') →
      p.anext = ⟨outcome, hear.time, (p.tunnel.after news.event).afterAll between⟩ := by
    intro outcome sub' hlook
    rw [hanext]
    refine Tunnel.asyncWait_heard (fun e he => ⟨hbetween e he, ?_⟩) hhear (by omega) hlook
    have := hbetweenTime e he
    omega
  rw [hafter]
  rcases hp.look_later hnews between with ⟨hbase, sub', hlook⟩ | ⟨hbase, error, sub', hlook⟩
  · have hover := hheard hlook
    refine iff_of_true ⟨by rw [hnext, hover], ?_, ?_, ?_, ?_⟩ hbase
    · rw [hnext]
      simp only
      omega
    · rwa [hover]
    · rw [hnext]
      exact fun h => absurd h htimedOut
    · rw [hover]
      exact fun h => absurd h htimedOut
  · refine iff_of_false (fun hagree => ?_) (Nat.not_le_of_lt hbase)
    have hsame := hagree.same
    rw [hnext, hheard hlook] at hsame
    exact hlag error hsame.symm

/-- It is not. -/
theorem agree_of_unheard (hp : p.Waits) (hevents : p.events = before ++ news :: later)
    (hquiet : ∀ e ∈ before, e.event.isNews = false) (hnews : news.event.isNews = true)
    (htime : news.time ≤ p.deadline)
    (hlater : ∀ e ∈ later, e.event = .hear → p.deadline < e.time) :
    p.Agree ↔ news.event = .close ∧ Tunnel.hearsOthers false before = false := by
  obtain ⟨hnext, giveUp, hanext, ⟨hhears, rfl⟩ | ⟨hhears, hlonger⟩⟩ :=
    hp.told hevents hquiet hnews htime
  · obtain ⟨more, hanext⟩ : ∃ more, p.anext =
        ⟨.timedOut, p.deadline, (p.tunnel.after news.event).afterAll more⟩ := by
      rw [hanext]
      exact Tunnel.asyncWait_unheard hlater
    obtain ⟨htimedOut, -, hclose⟩ := brings_observed hnews
    constructor
    · intro hagree
      have hsame := hagree.same
      rw [hnext, hanext] at hsame
      exact ⟨hclose.mp hsame.symm, hhears⟩
    · rintro ⟨hevent, -⟩
      refine ⟨?_, ?_, ?_, ?_, ?_⟩
      · rw [hnext, hanext]
        exact (hclose.mpr hevent).symm
      · rw [hnext]
        exact htime
      · exact Int.le_of_eq (by rw [hanext])
      · rw [hnext]
        exact fun h => absurd h htimedOut
      · rw [hanext, hevent, hp.after_close, Tunnel.afterAll_of_terminal rfl]
        exact fun _ => hp.not_available
  · refine iff_of_false (fun hagree => ?_) fun h => by simp [hhears] at h
    have htime := hagree.anext_time
    rw [hanext] at htime
    exact absurd (Tunnel.asyncWait_longer hlonger hlater) (Int.not_lt_of_ge htime)

end Waits

/-- What the loop hears of other subscriptions until the deadline. -/
theorem others_iff {before later : List (TimedEvent α ε)} (hevents : p.events = before ++ later)
    (htime : ∀ e ∈ before, e.time ≤ p.deadline)
    (hlater : ∀ e ∈ later, e.event = .hear → p.deadline < e.time) :
    Tunnel.hearsOthers false before = false ↔
      ∀ other ∈ p.events, ∀ hear ∈ p.events, other.event = .closeOther → hear.event = .hear →
        other.time < hear.time → p.deadline < hear.time := by
  have hordered := p.ordered
  rw [hevents] at hordered ⊢
  obtain ⟨hbefore, -, hcross⟩ := List.pairwise_append.mp hordered
  constructor
  · intro hnot other hother hear hhear hevent hevent' hlt
    rcases List.mem_append.mp hhear with hhear | hhear
    · exfalso
      rcases List.mem_append.mp hother with hother | hother
      · rw [Tunnel.hearsOthers_of_other hbefore hother hhear hevent hevent' hlt] at hnot
        cases hnot
      · have := hcross hear hhear other hother
        omega
    · exact hlater hear hhear hevent'
  · intro hall
    by_contra hnot
    obtain ⟨hear, hhear, hevent', hqueued | ⟨other, hother, hevent, hlt⟩⟩ :=
      Tunnel.of_hearsOthers hbefore (by simpa using hnot)
    · cases hqueued
    · have := hall other (List.mem_append_left _ hother) hear (List.mem_append_left _ hhear)
        hevent hevent' hlt
      have := htime hear hhear
      omega

theorem first_news {before later : List (TimedEvent α ε)} {news news' : TimedEvent α ε}
    (hevents : p.events = before ++ news :: later)
    (hquiet : ∀ e ∈ before, e.event.isNews = false) (hmem : news' ∈ p.events)
    (hnews' : news'.event.isNews = true) : news' = news ∨ news.time < news'.time := by
  obtain ⟨-, hlater, -⟩ := Waits.later_ordered p hevents
  rw [hevents] at hmem
  rcases List.mem_append.mp hmem with hmem | hmem
  · rw [hquiet news' hmem] at hnews'
    cases hnews'
  · exact (List.mem_cons.mp hmem).imp_right fun hmem => hlater news' hmem

/-- The same when something has come, and is not heard of. -/
theorem others_iff_of_unheard {before later : List (TimedEvent α ε)} {news : TimedEvent α ε}
    (hevents : p.events = before ++ news :: later) (hnews : news.event.isNews = true)
    (htime : news.time ≤ p.deadline)
    (hlater : ∀ e ∈ later, e.event = .hear → p.deadline < e.time) :
    Tunnel.hearsOthers false before = false ↔
      ∀ other ∈ p.events, ∀ hear ∈ p.events, other.event = .closeOther → hear.event = .hear →
        other.time < hear.time → p.deadline < hear.time := by
  obtain ⟨hearlier, -, -⟩ := Waits.later_ordered p hevents
  refine others_iff hevents (fun e he => ?_) fun e he hhear => ?_
  · have := hearlier e he
    omega
  · rcases List.mem_cons.mp he with rfl | he
    · rw [hhear] at hnews
      cases hnews
    · exact hlater e he hhear

/-- The schedule up to the deadline: nothing comes; or something comes, and is heard of or not. -/
theorem schedule_cases (p : ReadPair α ε) :
    (∃ before later, p.events = before ++ later ∧ (∀ e ∈ before, e.event.isNews = false) ∧
        (∀ e ∈ before, e.time ≤ p.deadline) ∧ ∀ e ∈ later, p.deadline < e.time) ∨
      ∃ before news later, p.events = before ++ news :: later ∧
        (∀ e ∈ before, e.event.isNews = false) ∧ news.event.isNews = true ∧
        news.time ≤ p.deadline ∧
        ((∀ e ∈ later, e.event = .hear → p.deadline < e.time) ∨
          ∃ between hear later', later = between ++ hear :: later' ∧
            (∀ e ∈ between, e.event ≠ .hear) ∧ hear.event = .hear ∧ hear.time ≤ p.deadline) := by
  by_cases hcomes : ∃ e ∈ p.events, (e.event.isNews && decide (e.time ≤ p.deadline)) = true
  · obtain ⟨before, news, later, hevents, hfirst, hnews⟩ := split_at_first _ hcomes
    obtain ⟨hnews, htime⟩ := Bool.and_eq_true_iff.mp hnews
    have htime : news.time ≤ p.deadline := of_decide_eq_true htime
    obtain ⟨hearlier, hlater, hordered⟩ := Waits.later_ordered p hevents
    refine Or.inr ⟨before, news, later, hevents, fun e he => ?_, hnews, htime, ?_⟩
    · have := hearlier e he
      simpa [show e.time ≤ p.deadline by omega] using hfirst e he
    · by_cases hheard : ∃ e ∈ later, e.event.isHear = true
      · obtain ⟨between, hear, later', rfl, hbetween, hhear⟩ := split_at_first _ hheard
        have hhear := WaitEvent.isHear_iff.mp hhear
        by_cases hle : hear.time ≤ p.deadline
        · refine Or.inr ⟨between, hear, later', rfl, fun e he h => ?_, hhear, hle⟩
          have hnot := hbetween e he
          rw [h] at hnot
          cases hnot
        · refine Or.inl fun e he h => ?_
          rcases List.mem_append.mp he with he | he
          · have hnot := hbetween e he
            rw [h] at hnot
            cases hnot
          · rcases List.mem_cons.mp he with rfl | he
            · omega
            · obtain ⟨-, htail, -⟩ := List.pairwise_append.mp hordered
              have := (List.pairwise_cons.mp htail).1 e he
              omega
      · exact Or.inl fun e he h => absurd ⟨e, he, WaitEvent.isHear_iff.mpr h⟩ hheard
  · obtain ⟨before, later, hevents, htime, hlater⟩ := split_at_time p.ordered p.deadline
    refine Or.inl ⟨before, later, hevents, fun e he => ?_, htime, hlater⟩
    by_contra hnews
    refine hcomes ⟨e, by rw [hevents]; exact List.mem_append_left _ he, ?_⟩
    simpa [htime e he] using hnews

/-- **When a sync and an async read agree.**  They do when something is there from the start, when
    the loop of the async reader hears in time of the first thing that comes, and when nothing but
    the end of the tunnel comes and no other subscription is heard of; and only then. -/
theorem agree_iff (p : ReadPair α ε) :
    p.Agree ↔ p.Ready ∨ p.HeardInTime ∨ p.Undisturbed := by
  by_cases hready : p.Ready
  · exact iff_of_true (agree_of_ready hready) (Or.inl hready)
  have hp := waits_of_not_ready hready
  rw [or_iff_right hready]
  constructor
  · intro hagree
    obtain ⟨before, later, hevents, hquiet, htime, hlater⟩ |
      ⟨before, news, later, hevents, hquiet, hnews, htime, hheard⟩ := schedule_cases p
    · refine Or.inr ⟨fun news hmem hnews hle _ => ?_, ?_⟩
      · exfalso
        rw [hevents] at hmem
        rcases List.mem_append.mp hmem with hmem | hmem
        · rw [hquiet news hmem] at hnews
          cases hnews
        · have := hlater news hmem
          omega
      · exact (others_iff hevents htime fun e he _ => hlater e he).mp
          ((hp.agree_of_nothing hevents hquiet htime hlater).mp hagree)
    · rcases hheard with hunheard | ⟨between, hear, later', rfl, hbetween, hhear, hle⟩
      · obtain ⟨hclose, hothers⟩ :=
          (hp.agree_of_unheard hevents hquiet hnews htime hunheard).mp hagree
        refine Or.inr ⟨fun news' hmem hnews' _ hleast => ?_,
          (others_iff_of_unheard hevents hnews htime hunheard).mp hothers⟩
        rcases first_news hevents hquiet hmem hnews' with rfl | hlt
        · exact hclose
        · have := hleast news (by rw [hevents]; simp) hnews
          omega
      · exact Or.inl ⟨before, news, between, hear, later', hevents, hquiet, hnews, hbetween, hhear,
          hle, (hp.agree_of_heard hevents hquiet hnews hbetween hhear hle).mp hagree⟩
  · rintro (⟨before, news, between, hear, later, hevents, hquiet, hnews, hbetween, hhear, hle,
      hbase⟩ | hquietly)
    · exact (hp.agree_of_heard hevents hquiet hnews hbetween hhear hle).mpr hbase
    · obtain ⟨before, later, hevents, hquiet, htime, hlater⟩ |
        ⟨before, news, later, hevents, hquiet, hnews, htime, hheard⟩ := schedule_cases p
      · exact (hp.agree_of_nothing hevents hquiet htime hlater).mpr
          ((others_iff hevents htime fun e he _ => hlater e he).mpr hquietly.others)
      · have hclose : news.event = .close := by
          refine hquietly.news news (by rw [hevents]; simp) hnews htime fun e he hnews' => ?_
          rcases first_news hevents hquiet he hnews' with rfl | hlt
          · exact Int.le_refl _
          · omega
        rcases hheard with hunheard | ⟨between, hear, later', rfl, hbetween, hhear, hle⟩
        · exact (hp.agree_of_unheard hevents hquiet hnews htime hunheard).mpr
            ⟨hclose, (others_iff_of_unheard hevents hnews htime hunheard).mpr hquietly.others⟩
        · refine (hp.agree_of_heard hevents hquiet hnews hbetween hhear hle).mpr ?_
          have hbase := hp.base_le hnews
          rw [Tunnel.afterAll_append, Tunnel.afterAll_of_quiet hquiet, Tunnel.afterAll_cons]
          rw [hclose, hp.after_close] at hbase ⊢
          rwa [Tunnel.afterAll_of_terminal rfl]

/-- Another subscription is closed after 5 of the 10 units of the timeout, and an item is put
    after 12. -/
def lateItem : ReadPair Nat Nat where
  tunnel := ⟨[], 0, 0, false, none, some 10, none⟩
  accepted := []
  retains := ⟨rfl, Nat.le_refl 0, rfl, rfl⟩
  maxHistory_pos := fun _ h => by cases h
  sub := ⟨some 10, 0, false⟩
  cursor_le := Nat.le_refl 0
  timeout := 10
  timeout_eq := rfl
  start := 0
  events := [⟨5, .closeOther⟩, ⟨6, .hear⟩, ⟨12, .put 7⟩, ⟨13, .hear⟩]
  started := by decide
  ordered := by decide

example : lateItem.next.outcome = .timedOut ∧ lateItem.next.time = 10 ∧
    lateItem.anext.outcome = .item 7 ∧ lateItem.anext.time = 13 := by decide

theorem late_item_for_one_reader : ¬ ∀ p : ReadPair Nat Nat, p.Agree := by
  intro hall
  have hsame := (hall lateItem).same
  revert hsame
  decide

end ReadPair

end AgentlyStage
