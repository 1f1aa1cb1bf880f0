import AgentlyStage.Tunnel
import AgentlyStage.Lib.Counting

/-!
# What the subscriptions of a tunnel deliver

The accepted items are one list, and every subscription delivers a segment of it from its
start.  A subscription that ends without a timeout or a close has delivered everything that
was accepted, or everything up to the items it has missed.
-/

namespace AgentlyStage

open Transition

variable {α ε : Type}

/-! ## 1. The retained range -/

/-- The retained items are the last accepted ones. -/
structure Tunnel.Retains (t : Tunnel α ε) (accepted : List α) : Prop where
  items : t.items = accepted.drop t.baseSequence
  base : t.baseSequence ≤ accepted.length
  next : t.nextSequence = accepted.length
  length : t.items.length = t.maxHistory.elim accepted.length (min · accepted.length)

/-- The items of `accepted` that the tunnel has dropped. -/
def Tunnel.evicted (t : Tunnel α ε) (accepted : List α) : List α :=
  accepted.take (accepted.length - t.items.length)

/-- What a reader gets that has come to item `n` of the accepted ones, none as long as there is
    nothing for it. -/
def Tunnel.brings (t : Tunnel α ε) (accepted : List α) (n : Nat) : Option (ReadOutcome α ε) :=
  if n < (t.evicted accepted).length then some (.lag ⟨n, (t.evicted accepted).length⟩)
  else
    match accepted[n]? with
    | some item => some (.item item)
    | none =>
      match t.failure with
      | some error => some (.failed error)
      | none => if t.closed then some .eof else none

namespace Tunnel

variable {t t' : Tunnel α ε} {accepted : List α}

theorem new_retains {timeout : Option Int} {maxHistory : Option Nat}
    (h : new timeout maxHistory = .ok t) : t.Retains [] := by
  unfold new at h
  split at h
  · cases h
  · cases h
    refine ⟨rfl, Nat.le_refl 0, rfl, ?_⟩
    cases maxHistory with
    | none => rfl
    | some n => exact (Nat.min_zero n).symm

theorem put_ok {data : α} (h : t.put data = .ok t') :
    t.terminal = false ∧ t'.closed = t.closed ∧ t'.failure = t.failure ∧
      t'.nextSequence = t.nextSequence + 1 ∧ t'.maxHistory = t.maxHistory ∧
      ((t.maxHistory.any (fun n => decide (n < t.items.length + 1)) = true ∧
          t'.items = (t.items ++ [data]).tail ∧ t'.baseSequence = t.baseSequence + 1) ∨
        (t.maxHistory.any (fun n => decide (n < t.items.length + 1)) = false ∧
          t'.items = t.items ++ [data] ∧ t'.baseSequence = t.baseSequence)) := by
  unfold put at h
  rw [List.length_append, List.length_singleton] at h
  by_cases hterminal : t.terminal = true
  · rw [if_pos hterminal] at h
    cases h
  · rw [if_neg hterminal] at h
    refine ⟨Bool.eq_false_iff.mpr hterminal, ?_⟩
    by_cases hfull : t.maxHistory.any (fun n => decide (n < t.items.length + 1)) = true
    · rw [if_pos hfull] at h
      cases h
      exact ⟨rfl, rfl, rfl, rfl, Or.inl ⟨hfull, rfl, rfl⟩⟩
    · rw [if_neg hfull] at h
      cases h
      exact ⟨rfl, rfl, rfl, rfl, Or.inr ⟨Bool.eq_false_iff.mpr hfull, rfl, rfl⟩⟩

theorem Retains.put (hr : t.Retains accepted) {data : α} (h : t.put data = .ok t') :
    t'.Retains (accepted ++ [data]) := by
  obtain ⟨-, -, -, hnext, hmax, hcases⟩ := put_ok h
  have hlength : t.items.length = accepted.length - t.baseSequence := by
    rw [hr.items, List.length_drop]
  have hbound := hr.length
  have hbase := hr.base
  have happend : t.items ++ [data] = (accepted ++ [data]).drop t.baseSequence := by
    rw [List.drop_append_of_le_length hbase, hr.items]
  rcases hcases with ⟨hfull, hitems, hbase'⟩ | ⟨hroom, hitems, hbase'⟩
  · have htail : (t.items ++ [data]).tail = (accepted ++ [data]).drop (t.baseSequence + 1) := by
      rw [happend, List.tail_drop]
    refine ⟨by rw [hitems, hbase', htail], by rw [hbase']; simpa using hbase,
      by simp [hnext, hr.next], ?_⟩
    rw [hmax, hitems]
    cases hmaxHistory : t.maxHistory with
    | none => rw [hmaxHistory] at hfull; cases hfull
    | some n =>
      rw [hmaxHistory] at hfull hbound
      have hlt : n < t.items.length + 1 := of_decide_eq_true hfull
      simp only [Option.elim_some, List.length_tail, List.length_append, List.length_singleton]
        at hbound ⊢
      omega
  · refine ⟨by rw [hitems, hbase', happend], by rw [hbase']; simp; omega,
      by simp [hnext, hr.next], ?_⟩
    rw [hmax, hitems]
    cases hmaxHistory : t.maxHistory with
    | none =>
      rw [hmaxHistory] at hbound
      simp only [Option.elim_none, List.length_append, List.length_singleton] at hbound ⊢
      omega
    | some n =>
      rw [hmaxHistory] at hroom hbound
      have hle : ¬ n < t.items.length + 1 := of_decide_eq_false hroom
      simp only [Option.elim_some, List.length_append, List.length_singleton] at hbound ⊢
      omega

theorem Retains.evicted_length (hr : t.Retains accepted) :
    (t.evicted accepted).length = t.baseSequence := by
  have hbase := hr.base
  rw [evicted, List.length_take, hr.items, List.length_drop]
  omega

/-- The item at a retained sequence number. -/
theorem Retains.getElem? (hr : t.Retains accepted) {cursor : Nat}
    (hcursor : t.baseSequence ≤ cursor) :
    t.items[cursor - t.baseSequence]? = accepted[cursor]? := by
  rw [hr.items, List.getElem?_drop, Nat.add_sub_cancel' hcursor]

/-- A terminal tunnel refuses every item, and neither `close` nor `fail` changes it. -/
theorem of_terminal (h : t.terminal = true) :
    (∀ data, t.put data = .error (.tunnelClosed "Cannot put data after Tunnel terminal state")) ∧
      t.close = t ∧ ∀ error, t.fail error = t := by
  refine ⟨fun data => ?_, ?_, fun error => ?_⟩
  · rw [put, if_pos h]
  · rw [close, if_pos h]
  · rw [fail, if_pos h]

theorem put_of_open (h : t.terminal = false) (data : α) : ∃ t', t.put data = .ok t' := by
  rw [put, if_neg (by rw [h]; exact Bool.false_ne_true)]
  split
  · exact ⟨_, rfl⟩
  · exact ⟨_, rfl⟩

theorem close_eq_or : t.close = t ∨
    (t.terminal = false ∧ t.close = { t with closed := true }) := by
  unfold close
  cases h : t.terminal
  · exact Or.inr ⟨rfl, rfl⟩
  · exact Or.inl rfl

theorem fail_eq_or (error : ε) : t.fail error = t ∨
    (t.terminal = false ∧ t.fail error = { t with failure := some error }) := by
  unfold fail
  cases h : t.terminal
  · exact Or.inr ⟨rfl, rfl⟩
  · exact Or.inl rfl

/-- A look at a live subscription answers with what its cursor brings. -/
theorem Retains.look_eq (hr : t.Retains accepted) {sub : TunnelSubscription}
    (hlive : sub.terminated = false) :
    (t.look sub).map Prod.fst = t.brings accepted sub.cursor := by
  unfold look brings
  rw [if_neg (by rw [hlive]; exact Bool.false_ne_true), hr.evicted_length]
  by_cases hlag : sub.cursor < t.baseSequence
  · rw [if_pos hlag, if_pos hlag]
    rfl
  · rw [if_neg hlag, if_neg hlag, hr.getElem? (Nat.le_of_not_lt hlag)]
    cases accepted[sub.cursor]? with
    | some item => rfl
    | none =>
      cases t.failure with
      | some error => rfl
      | none =>
        by_cases hclosed : t.closed = true
        · simp only [hclosed, if_true, Option.map_some]
        · simp only [hclosed, Bool.false_eq_true, if_false, Option.map_none]

/-- The outcomes of a look. -/
theorem look_cases {sub sub' : TunnelSubscription} {outcome : ReadOutcome α ε}
    (hr : t.Retains accepted) (h : t.look sub = some (outcome, sub')) :
    (outcome = .stopped ∧ sub.terminated = true ∧ sub' = sub) ∨
    (sub.terminated = false ∧
      ((outcome = .lag ⟨sub.cursor, t.baseSequence⟩ ∧ sub.cursor < t.baseSequence ∧
          sub' = { sub with terminated := true }) ∨
        (t.baseSequence ≤ sub.cursor ∧
          ((∃ item, outcome = .item item ∧ accepted[sub.cursor]? = some item ∧
              sub' = { sub with cursor := sub.cursor + 1 }) ∨
            (accepted.length ≤ sub.cursor ∧ sub' = { sub with terminated := true } ∧
              ((∃ error, outcome = .failed error ∧ t.failure = some error) ∨
                (outcome = .eof ∧ t.closed = true))))))) := by
  unfold look at h
  by_cases hterminated : sub.terminated = true
  · rw [if_pos hterminated] at h
    cases h
    exact Or.inl ⟨rfl, hterminated, rfl⟩
  · rw [if_neg hterminated] at h
    refine Or.inr ⟨Bool.eq_false_iff.mpr hterminated, ?_⟩
    by_cases hlag : sub.cursor < t.baseSequence
    · rw [if_pos hlag] at h
      cases h
      exact Or.inl ⟨rfl, hlag, rfl⟩
    · rw [if_neg hlag, hr.getElem? (Nat.le_of_not_lt hlag)] at h
      refine Or.inr ⟨Nat.le_of_not_lt hlag, ?_⟩
      cases hitem : accepted[sub.cursor]? with
      | some item =>
        rw [hitem] at h
        cases h
        exact Or.inl ⟨item, rfl, rfl, rfl⟩
      | none =>
        have hend : accepted.length ≤ sub.cursor := List.getElem?_eq_none_iff.mp hitem
        rw [hitem] at h
        cases hfailure : t.failure with
        | some error =>
          simp only [hfailure] at h
          cases h
          exact Or.inr ⟨hend, rfl, Or.inl ⟨error, rfl, rfl⟩⟩
        | none =>
          simp only [hfailure] at h
          by_cases hclosed : t.closed = true
          · rw [if_pos hclosed] at h
            cases h
            exact Or.inr ⟨hend, rfl, Or.inr ⟨rfl, hclosed⟩⟩
          · rw [if_neg hclosed] at h
            cases h

end Tunnel

/-! ## 2. What a step changes -/

/-- The effect of a step on the tunnel, the accepted items and the subscribers. -/
inductive TunnelState.Effect (s s' : TunnelState α ε) : Prop where
  | idle (ht : s'.tunnel = s.tunnel) (ha : s'.accepted = s.accepted)
      (hs : s'.subscribers = s.subscribers)
  | put (data : α) (ht : s.tunnel.put data = .ok s'.tunnel)
      (ha : s'.accepted = s.accepted ++ [data]) (hs : s'.subscribers = s.subscribers)
  | terminal (hopen : s.tunnel.terminal = false)
      (ht : s'.tunnel = { s.tunnel with closed := true } ∨
        ∃ error, s'.tunnel = { s.tunnel with failure := some error })
      (ha : s'.accepted = s.accepted) (hs : s'.subscribers = s.subscribers)
  | subscribe (start : TunnelStart) (timeout : Option (Option Int)) (sub : TunnelSubscription)
      (hsub : s.tunnel.subscribe start timeout = .ok sub) (ht : s'.tunnel = s.tunnel)
      (ha : s'.accepted = s.accepted)
      (hs : s'.subscribers = s.subscribers ++ [{ subscription := sub, start := sub.cursor }])
  | read (i : Nat) (u : Subscriber α ε) (outcome : ReadOutcome α ε) (sub : TunnelSubscription)
      (hu : s.subscribers[i]? = some u)
      (hlook : s.tunnel.look u.subscription = some (outcome, sub) ∨
        (outcome = .timedOut ∧ sub = { u.subscription with terminated := true }))
      (ht : s'.tunnel = s.tunnel) (ha : s'.accepted = s.accepted)
      (hs : s'.subscribers =
        s.subscribers.set i { u with subscription := sub, outcomes := u.outcomes ++ [outcome] })
  | closed (i : Nat) (u : Subscriber α ε) (hu : s.subscribers[i]? = some u)
      (hopen : u.subscription.terminated = false) (ht : s'.tunnel = s.tunnel)
      (ha : s'.accepted = s.accepted)
      (hs : s'.subscribers = s.subscribers.set i
        { u with subscription := { u.subscription with terminated := true }, closed := true })

namespace TunnelState

variable {s s' : TunnelState α ε} {r : Nat}

theorem put_effect (s : TunnelState α ε) (data : α) : s.Effect (s.put data) := by
  unfold put
  cases h : s.tunnel.put data with
  | ok tunnel => exact .put data h rfl rfl
  | error error => exact .idle rfl rfl rfl

theorem subscribe_effect (s : TunnelState α ε) (start : TunnelStart)
    (timeout : Option (Option Int)) : s.Effect (s.subscribe start timeout) := by
  unfold subscribe
  cases h : s.tunnel.subscribe start timeout with
  | ok sub => exact .subscribe start timeout sub h rfl rfl rfl
  | error error => exact .idle rfl rfl rfl

/-- A look that succeeds, and the subscriber it is for. -/
theorem look_spec (h : s.look r = some s') :
    ∃ read u, s.reads[r]? = some read ∧ read.phase = .looking ∧
      s.subscribers[read.subscription]? = some u ∧
      ((∃ outcome sub, s.tunnel.look u.subscription = some (outcome, sub) ∧
          s' = s.answer r read u outcome sub) ∨
        (s.tunnel.look u.subscription = none ∧
          (s' = s.answer r read u .timedOut { u.subscription with terminated := true } ∨
            ∃ read', s' = s.setRead r read'))) := by
  unfold look at h
  cases hread : s.reads[r]? with
  | none => simp only [hread, reduceCtorEq] at h
  | some read =>
    cases hu : s.subscribers[read.subscription]? with
    | none => simp only [hread, hu, reduceCtorEq] at h
    | some u =>
      simp only [hread, hu] at h
      by_cases hphase : read.phase = .looking
      · rw [if_pos hphase] at h
        refine ⟨read, u, rfl, hphase, hu, ?_⟩
        cases hlook : s.tunnel.look u.subscription with
        | some result =>
          simp only [hlook] at h
          exact Or.inl ⟨result.1, result.2, rfl, (Option.some.inj h).symm⟩
        | none =>
          refine Or.inr ⟨rfl, ?_⟩
          cases hmode : read.mode with
          | sync =>
            simp only [hlook, hmode] at h
            split at h
            · exact Or.inl (Option.some.inj h).symm
            · exact Or.inr ⟨_, (Option.some.inj h).symm⟩
          | async =>
            simp only [hlook, hmode] at h
            exact Or.inr ⟨_, (Option.some.inj h).symm⟩
      · rw [if_neg hphase] at h
        cases h

theorem look_effect (h : s.look r = some s') : s.Effect s' := by
  obtain ⟨read, u, -, -, hu, ⟨outcome, sub, hlook, rfl⟩ | ⟨-, rfl | ⟨read', rfl⟩⟩⟩ := look_spec h
  · exact .read read.subscription u outcome sub hu (Or.inl hlook) rfl rfl rfl
  · exact .read read.subscription u .timedOut _ hu (Or.inr ⟨rfl, rfl⟩) rfl rfl rfl
  · exact .idle rfl rfl rfl

theorem expire_effect (h : s.expire r = some s') : s.Effect s' := by
  unfold expire at h
  cases hread : s.reads[r]? with
  | none => simp only [hread, reduceCtorEq] at h
  | some read =>
    cases hu : s.subscribers[read.subscription]? with
    | none => simp only [hread, hu, reduceCtorEq] at h
    | some u =>
      simp only [hread, hu] at h
      split at h
      · cases h
        exact .read read.subscription u .timedOut _ hu (Or.inr ⟨rfl, rfl⟩) rfl rfl rfl
      · cases h

theorem closeSubscription_effect {i : Nat} (h : s.closeSubscription i = some s') :
    s.Effect s' := by
  obtain ⟨u, hu, rfl⟩ := Option.map_eq_some_iff.mp h
  by_cases hterminated : u.subscription.terminated = true
  · rw [if_pos hterminated]
    exact .idle rfl rfl rfl
  · rw [if_neg hterminated]
    exact .closed i u hu (Bool.eq_false_iff.mpr hterminated) rfl rfl rfl

theorem step_effect {e : TunnelEvent α ε} (h : s.step e = some s') : s.Effect s' := by
  cases e with
  | put data => cases h; exact s.put_effect data
  | close =>
    cases h
    rcases Tunnel.close_eq_or (t := s.tunnel) with hsame | ⟨hopen, hclose⟩
    · exact .idle hsame rfl rfl
    · exact .terminal hopen (Or.inl hclose) rfl rfl
  | fail error =>
    cases h
    rcases Tunnel.fail_eq_or (t := s.tunnel) error with hsame | ⟨hopen, hfail⟩
    · exact .idle hsame rfl rfl
    · exact .terminal hopen (Or.inr ⟨error, hfail⟩) rfl rfl
  | subscribe start timeout => cases h; exact s.subscribe_effect start timeout
  | beginRead i mode =>
    obtain ⟨u, -, rfl⟩ := Option.map_eq_some_iff.mp h
    exact .idle rfl rfl rfl
  | look r => exact look_effect h
  | wake r =>
    simp only [step, wake] at h
    split at h
    · split at h
      · cases h; exact .idle rfl rfl rfl
      · cases h
    · cases h
  | expire r => exact expire_effect h
  | cancelRead r =>
    simp only [step, cancelRead] at h
    split at h
    · split at h
      · cases h; exact .idle rfl rfl rfl
      · cases h
    · cases h
  | closeSubscription i => exact closeSubscription_effect h
  | advance time => cases h; exact .idle rfl rfl rfl

end TunnelState

/-! ## 3. Subscribers -/

/-- What a subscriber has read, in terms of the accepted items. -/
structure Subscriber.Delivers (u : Subscriber α ε) (t : Tunnel α ε) (accepted : List α) :
    Prop where
  start : u.start ≤ accepted.length
  cursor : u.subscription.cursor = u.start + u.delivered.length
  /-- The items are a segment that begins at the start. -/
  segment : u.delivered <+: accepted.drop u.start
  lag : ∀ error, .lag error ∈ u.outcomes →
    error.expectedSequence = u.start + u.delivered.length ∧
      error.expectedSequence < error.availableFrom ∧ error.availableFrom ≤ t.baseSequence
  failed : ∀ error, .failed error ∈ u.outcomes →
    u.delivered = accepted.drop u.start ∧ t.failure = some error
  eof : .eof ∈ u.outcomes → u.delivered = accepted.drop u.start ∧ t.closed = true
  /-- Only a timeout or a close ends the segment before its end or a lag. -/
  ended : u.subscription.terminated = true → .timedOut ∈ u.outcomes ∨ u.closed = true ∨
    .eof ∈ u.outcomes ∨ (∃ error, .failed error ∈ u.outcomes) ∨ ∃ error, .lag error ∈ u.outcomes
  live : u.subscription.terminated = false → ∀ outcome ∈ u.outcomes, outcome.item?.isSome = true

namespace Subscriber

variable {u : Subscriber α ε} {t t' : Tunnel α ε} {accepted : List α}

/-- The subscriber after a read. -/
def record (u : Subscriber α ε) (outcome : ReadOutcome α ε) (sub : TunnelSubscription) :
    Subscriber α ε :=
  { u with subscription := sub, outcomes := u.outcomes ++ [outcome] }

theorem delivered_record (outcome : ReadOutcome α ε) (sub : TunnelSubscription) :
    (u.record outcome sub).delivered = u.delivered ++ outcome.item?.toList := by
  rw [record, delivered, delivered, List.filterMap_append]
  cases h : outcome.item? with
  | none => rw [List.filterMap_cons_none h, List.filterMap_nil, Option.toList_none]
  | some data => rw [List.filterMap_cons_some h, List.filterMap_nil, Option.toList_some]

/-- All that follows an end leaves the items as they are. -/
theorem delivered_record_of_none {outcome : ReadOutcome α ε} (h : outcome.item? = none)
    (sub : TunnelSubscription) : (u.record outcome sub).delivered = u.delivered := by
  rw [delivered_record, h, Option.toList_none, List.append_nil]

theorem Delivers.new {sub : TunnelSubscription} (hlive : sub.terminated = false)
    (hcursor : sub.cursor ≤ accepted.length) :
    ({ subscription := sub, start := sub.cursor } : Subscriber α ε).Delivers t accepted where
  start := hcursor
  cursor := rfl
  segment := List.nil_prefix
  lag := fun error h => by cases h
  failed := fun error h => by cases h
  eof := fun h => by cases h
  ended := fun h => by rw [hlive] at h; cases h
  live := fun _ outcome h => by cases h

/-- A read that ends the subscription, or finds it ended, with the reason it gives. -/
theorem Delivers.terminate (hd : u.Delivers t accepted) {outcome : ReadOutcome α ε}
    (hitem : outcome.item? = none)
    (hlag : ∀ error, outcome = .lag error → error.expectedSequence = u.subscription.cursor ∧
      error.expectedSequence < error.availableFrom ∧ error.availableFrom ≤ t.baseSequence)
    (hfailed : ∀ error, outcome = .failed error →
      u.delivered = accepted.drop u.start ∧ t.failure = some error)
    (heof : outcome = .eof → u.delivered = accepted.drop u.start ∧ t.closed = true)
    (hstopped : outcome = .stopped → u.subscription.terminated = true) :
    (u.record outcome { u.subscription with terminated := true }).Delivers t accepted := by
  have hdelivered :
      (u.record outcome { u.subscription with terminated := true }).delivered = u.delivered :=
    delivered_record_of_none hitem _
  have hmem : ∀ other, other ∈ u.outcomes ++ [outcome] → other ∈ u.outcomes ∨ outcome = other :=
    fun other h => (List.mem_append.mp h).imp_right fun h => (List.mem_singleton.mp h).symm
  have hold : ∀ other, other ∈ u.outcomes → other ∈ u.outcomes ++ [outcome] :=
    fun other h => List.mem_append_left _ h
  have hnew : outcome ∈ u.outcomes ++ [outcome] := List.mem_append_right _ List.mem_cons_self
  constructor
  · exact hd.start
  · rw [hdelivered]
    exact hd.cursor
  · rw [hdelivered]
    exact hd.segment
  · intro error h
    rw [hdelivered]
    rcases hmem _ h with h | h
    · exact hd.lag error h
    · obtain ⟨hexpected, hmissed⟩ := hlag error h
      exact ⟨hexpected.trans hd.cursor, hmissed⟩
  · intro error h
    rw [hdelivered]
    rcases hmem _ h with h | h
    · exact hd.failed error h
    · exact hfailed error h
  · intro h
    rw [hdelivered]
    rcases hmem _ h with h | h
    · exact hd.eof h
    · exact heof h
  · intro _
    -- a subscription that has ended before keeps its first reason
    have hbefore : u.subscription.terminated = true → .timedOut ∈ u.outcomes ++ [outcome] ∨
        u.closed = true ∨ .eof ∈ u.outcomes ++ [outcome] ∨
        (∃ error, .failed error ∈ u.outcomes ++ [outcome]) ∨
        ∃ error, .lag error ∈ u.outcomes ++ [outcome] := by
      intro h
      rcases hd.ended h with h | h | h | ⟨error, h⟩ | ⟨error, h⟩
      · exact Or.inl (hold _ h)
      · exact Or.inr (Or.inl h)
      · exact Or.inr (Or.inr (Or.inl (hold _ h)))
      · exact Or.inr (Or.inr (Or.inr (Or.inl ⟨error, hold _ h⟩)))
      · exact Or.inr (Or.inr (Or.inr (Or.inr ⟨error, hold _ h⟩)))
    cases outcome with
    | item data => cases hitem
    | lag error => exact Or.inr (Or.inr (Or.inr (Or.inr ⟨error, hnew⟩)))
    | failed error => exact Or.inr (Or.inr (Or.inr (Or.inl ⟨error, hnew⟩)))
    | eof => exact Or.inr (Or.inr (Or.inl hnew))
    | timedOut => exact Or.inl hnew
    | stopped => exact hbefore (hstopped rfl)
  · intro h
    cases h

theorem Delivers.item (hd : u.Delivers t accepted) {data : α}
    (hlive : u.subscription.terminated = false)
    (hitem : accepted[u.subscription.cursor]? = some data) :
    (u.record (.item data) { u.subscription with cursor := u.subscription.cursor + 1 }).Delivers
      t accepted := by
  have hdelivered := delivered_record (u := u) (.item data)
    { u.subscription with cursor := u.subscription.cursor + 1 }
  have hlast : ∀ other, other ∈ u.outcomes ++ [.item data] → other.item? = none → False := by
    intro other h hnone
    rcases List.mem_append.mp h with h | h
    · have := hd.live hlive other h
      rw [hnone] at this
      cases this
    · rw [List.mem_singleton.mp h] at hnone
      cases hnone
  constructor
  · exact hd.start
  · rw [hdelivered, List.length_append]
    exact congrArg (· + 1) hd.cursor
  · rw [hdelivered]
    obtain ⟨rest, hrest⟩ := hd.segment
    have hnext : (accepted.drop u.start)[u.delivered.length]? = some data := by
      rw [List.getElem?_drop, ← hd.cursor]
      exact hitem
    rw [← hrest, List.getElem?_append_right (Nat.le_refl _), Nat.sub_self] at hnext
    cases rest with
    | nil => cases hnext
    | cons head rest =>
      cases hnext
      exact ⟨rest, by rw [List.append_assoc]; exact hrest⟩
  · exact fun error h => (hlast _ h rfl).elim
  · exact fun error h => (hlast _ h rfl).elim
  · exact fun h => (hlast _ h rfl).elim
  · intro h
    rw [record, hlive] at h
    cases h
  · intro _ outcome h
    rcases List.mem_append.mp h with h | h
    · exact hd.live hlive outcome h
    · rw [List.mem_singleton.mp h]
      exact Option.isSome_some

/-- At the end of the accepted items everything has been delivered. -/
theorem Delivers.complete (hd : u.Delivers t accepted)
    (hend : accepted.length ≤ u.subscription.cursor) : u.delivered = accepted.drop u.start := by
  apply hd.segment.eq_of_length_le
  have hstart := hd.start
  have hcursor := hd.cursor
  rw [List.length_drop]
  omega

theorem Delivers.read (hd : u.Delivers t accepted) (hr : t.Retains accepted)
    {outcome : ReadOutcome α ε} {sub : TunnelSubscription}
    (hlook : t.look u.subscription = some (outcome, sub) ∨
      (outcome = .timedOut ∧ sub = { u.subscription with terminated := true })) :
    (u.record outcome sub).Delivers t accepted := by
  rcases hlook with hlook | ⟨rfl, rfl⟩
  · rcases Tunnel.look_cases hr hlook with ⟨rfl, hterminated, hsub⟩ | ⟨hlive,
      ⟨rfl, hlt, rfl⟩ | ⟨-, ⟨data, rfl, hitem, rfl⟩ | ⟨hend, rfl,
        ⟨error, rfl, hfailure⟩ | ⟨rfl, hclosed⟩⟩⟩⟩
    · have hsame : sub = { u.subscription with terminated := true } := by
        rw [hsub, ← hterminated]
      rw [hsame]
      exact hd.terminate rfl nofun nofun nofun fun _ => hterminated
    · refine hd.terminate rfl (fun error h => ?_) nofun nofun nofun
      cases h
      exact ⟨rfl, hlt, Nat.le_refl _⟩
    · exact hd.item hlive hitem
    · refine hd.terminate rfl nofun (fun error' h => ?_) nofun nofun
      cases h
      exact ⟨hd.complete hend, hfailure⟩
    · exact hd.terminate rfl nofun nofun (fun _ => ⟨hd.complete hend, hclosed⟩) nofun
  · exact hd.terminate rfl nofun nofun nofun nofun

theorem Delivers.close (hd : u.Delivers t accepted) :
    ({ u with subscription := { u.subscription with terminated := true }, closed := true } :
      Subscriber α ε).Delivers t accepted where
  start := hd.start
  cursor := hd.cursor
  segment := hd.segment
  lag := hd.lag
  failed := hd.failed
  eof := hd.eof
  ended := fun _ => Or.inr (Or.inl rfl)
  live := fun h => by cases h

theorem Delivers.put (hd : u.Delivers t accepted) {data : α} (h : t.put data = .ok t') :
    u.Delivers t' (accepted ++ [data]) := by
  obtain ⟨hopen, -, -, -, -, hcases⟩ := Tunnel.put_ok h
  have hbase : t.baseSequence ≤ t'.baseSequence := by
    rcases hcases with ⟨-, -, hbase⟩ | ⟨-, -, hbase⟩
    · rw [hbase]
      exact Nat.le_succ _
    · exact Nat.le_of_eq hbase.symm
  rw [Tunnel.terminal, Bool.or_eq_false_iff] at hopen
  have hdrop : (accepted ++ [data]).drop u.start = accepted.drop u.start ++ [data] :=
    List.drop_append_of_le_length hd.start
  constructor
  · rw [List.length_append]
    exact Nat.le_add_right_of_le hd.start
  · exact hd.cursor
  · rw [hdrop]
    exact hd.segment.trans (List.prefix_append _ _)
  · intro error hmem
    obtain ⟨hexpected, hlt, hle⟩ := hd.lag error hmem
    exact ⟨hexpected, hlt, Nat.le_trans hle hbase⟩
  · intro error hmem
    rw [(hd.failed error hmem).2] at hopen
    cases hopen.2
  · intro hmem
    rw [(hd.eof hmem).2] at hopen
    cases hopen.1
  · exact hd.ended
  · exact hd.live

/-- The tunnel ends. -/
theorem Delivers.terminal (hd : u.Delivers t accepted) (hopen : t.terminal = false)
    (ht : t' = { t with closed := true } ∨ ∃ error, t' = { t with failure := some error }) :
    u.Delivers t' accepted := by
  rw [Tunnel.terminal, Bool.or_eq_false_iff] at hopen
  have hbase : t'.baseSequence = t.baseSequence := by
    rcases ht with rfl | ⟨error, rfl⟩ <;> rfl
  constructor
  · exact hd.start
  · exact hd.cursor
  · exact hd.segment
  · rw [hbase]
    exact hd.lag
  · intro error hmem
    rw [(hd.failed error hmem).2] at hopen
    cases hopen.2
  · intro hmem
    rw [(hd.eof hmem).2] at hopen
    cases hopen.1
  · exact hd.ended
  · exact hd.live

end Subscriber

/-! ## 4. Runs -/

namespace TunnelState

variable {s s' : TunnelState α ε} {i : Nat} {u : Subscriber α ε}

structure Serves (s : TunnelState α ε) : Prop where
  retains : s.tunnel.Retains s.accepted
  delivers : ∀ i : Nat, ∀ u : Subscriber α ε, s.subscribers[i]? = some u →
    u.Delivers s.tunnel s.accepted

theorem Serves.cursor_le (hs : s.Serves) (hu : s.subscribers[i]? = some u) :
    u.subscription.cursor ≤ s.accepted.length := by
  have hd := hs.delivers i u hu
  have hlength := hd.segment.length_le
  have hstart := hd.start
  rw [List.length_drop] at hlength
  rw [hd.cursor]
  omega

theorem subscribe_ok {t : Tunnel α ε} {accepted : List α} (hr : t.Retains accepted)
    {start : TunnelStart} {timeout : Option (Option Int)} {sub : TunnelSubscription}
    (h : t.subscribe start timeout = .ok sub) :
    sub.terminated = false ∧ sub.cursor ≤ accepted.length := by
  cases start with
  | earliest =>
    cases h
    exact ⟨rfl, hr.base⟩
  | latest =>
    cases h
    exact ⟨rfl, Nat.le_of_eq hr.next⟩
  | sequence start =>
    simp only [Tunnel.subscribe] at h
    split at h
    · cases h
    · split at h
      · cases h
      · rename_i hnonneg hnext
        cases h
        rw [hr.next] at hnext
        exact ⟨rfl, by simp only; omega⟩

theorem Serves.effect (hs : s.Serves) (h : s.Effect s') : s'.Serves := by
  cases h with
  | idle ht ha hsubs =>
    exact ⟨by rw [ht, ha]; exact hs.retains, by rw [ht, ha, hsubs]; exact hs.delivers⟩
  | put data ht ha hsubs =>
    refine ⟨by rw [ha]; exact hs.retains.put ht, fun i u hu => ?_⟩
    rw [hsubs] at hu
    rw [ha]
    exact (hs.delivers i u hu).put ht
  | terminal hopen ht ha hsubs =>
    constructor
    · rw [ha]
      rcases ht with ht | ⟨error, ht⟩
      · rw [ht]
        exact ⟨hs.retains.items, hs.retains.base, hs.retains.next, hs.retains.length⟩
      · rw [ht]
        exact ⟨hs.retains.items, hs.retains.base, hs.retains.next, hs.retains.length⟩
    · intro i u hu
      rw [hsubs] at hu
      rw [ha]
      exact (hs.delivers i u hu).terminal hopen ht
  | subscribe start timeout sub hsub ht ha hsubs =>
    refine ⟨by rw [ht, ha]; exact hs.retains, fun i u hu => ?_⟩
    rw [hsubs] at hu
    rw [ht, ha]
    rcases getElem?_append_cases hu with ⟨-, rfl⟩ | hold
    · obtain ⟨hlive, hcursor⟩ := subscribe_ok hs.retains hsub
      exact .new hlive hcursor
    · exact hs.delivers i u hold
  | read j v outcome sub hv hlook ht ha hsubs =>
    refine ⟨by rw [ht, ha]; exact hs.retains, fun i u hu => ?_⟩
    rw [hsubs] at hu
    rw [ht, ha]
    rcases getElem?_set_cases hv hu with ⟨-, rfl⟩ | ⟨-, hold⟩
    · exact (hs.delivers j v hv).read hs.retains hlook
    · exact hs.delivers i u hold
  | closed j v hv hopen ht ha hsubs =>
    refine ⟨by rw [ht, ha]; exact hs.retains, fun i u hu => ?_⟩
    rw [hsubs] at hu
    rw [ht, ha]
    rcases getElem?_set_cases hv hu with ⟨-, rfl⟩ | ⟨-, hold⟩
    · exact (hs.delivers j v hv).close
    · exact hs.delivers i u hold

theorem reachable_serves {timeout : Option Int} {maxHistory : Option Nat}
    (h : (tunnelSystem α ε timeout maxHistory).Reachable s) : s.Serves := by
  induction h with
  | init hinit =>
    obtain ⟨tunnel, hnew, rfl⟩ := hinit
    exact ⟨Tunnel.new_retains hnew, fun i u hu => by cases hu⟩
  | step _ _ hstep ih => exact ih.effect (step_effect hstep)

/-- What later states keep: the accepted items stay in place, a terminal tunnel stays as it is,
    and so does the start of a subscriber. -/
structure Continues (s s' : TunnelState α ε) : Prop where
  accepted : s.accepted <+: s'.accepted
  terminal : s.tunnel.terminal = true → s'.tunnel = s.tunnel ∧ s'.accepted = s.accepted
  start : ∀ i : Nat, ∀ u : Subscriber α ε, s.subscribers[i]? = some u →
    ∃ u', s'.subscribers[i]? = some u' ∧ u'.start = u.start

theorem Continues.refl (s : TunnelState α ε) : s.Continues s :=
  ⟨List.prefix_refl _, fun _ => ⟨rfl, rfl⟩, fun _ u hu => ⟨u, hu, rfl⟩⟩

theorem Continues.trans {s'' : TunnelState α ε} (h : s.Continues s') (h' : s'.Continues s'') :
    s.Continues s'' where
  accepted := h.accepted.trans h'.accepted
  terminal hterminal := by
    obtain ⟨htunnel, haccepted⟩ := h.terminal hterminal
    obtain ⟨htunnel', haccepted'⟩ := h'.terminal (by rw [htunnel]; exact hterminal)
    exact ⟨htunnel'.trans htunnel, haccepted'.trans haccepted⟩
  start i u hu := by
    obtain ⟨u', hu', hstart⟩ := h.start i u hu
    obtain ⟨u'', hu'', hstart'⟩ := h'.start i u' hu'
    exact ⟨u'', hu'', hstart'.trans hstart⟩

/-- A read that looks at a live subscription gets what the accepted items and the end of the
    tunnel bring it, or it waits or has reached its deadline. -/
theorem Serves.look (hs : s.Serves) {r : Nat} {read : TunnelRead} (hread : s.reads[r]? = some read)
    (hphase : read.phase = .looking) (hu : s.subscribers[read.subscription]? = some u)
    (hlive : u.subscription.terminated = false) :
    ∃ s' u', s.look r = some s' ∧ s'.subscribers[read.subscription]? = some u' ∧
      (∀ outcome, s.tunnel.brings s.accepted (u.start + u.delivered.length) = some outcome →
        u'.outcomes = u.outcomes ++ [outcome]) ∧
      (s.tunnel.brings s.accepted (u.start + u.delivered.length) = none →
        u'.outcomes = u.outcomes ∨ read.mode = .sync ∧ read.expired s.now = true ∧
          u'.outcomes = u.outcomes ++ [.timedOut]) := by
  have hbrings := hs.retains.look_eq hlive
  rw [(hs.delivers _ u hu).cursor] at hbrings
  rw [← hbrings]
  simp only [TunnelState.look, hread, hu, hphase, if_true]
  cases hlook : s.tunnel.look u.subscription with
  | some result =>
    obtain ⟨outcome, sub⟩ := result
    refine ⟨_, _, rfl, getElem?_set_self' hu, fun outcome' heq => ?_, fun hnone => ?_⟩
    · obtain rfl : outcome = outcome' := Option.some.inj heq
      rfl
    · cases hnone
  | none =>
    have hnot : ∀ outcome : ReadOutcome α ε, ∀ p : Prop, (none : Option (ReadOutcome α ε ×
        TunnelSubscription)).map Prod.fst = some outcome → p := fun _ _ h => by cases h
    cases hmode : read.mode with
    | sync =>
      by_cases hexpired : read.expired s.now = true
      · simp only [hexpired, if_true]
        exact ⟨_, _, rfl, getElem?_set_self' hu, fun outcome => hnot outcome _,
          fun _ => Or.inr ⟨trivial, trivial, rfl⟩⟩
      · simp only [hexpired, Bool.false_eq_true, if_false]
        exact ⟨_, u, rfl, hu, fun outcome => hnot outcome _, fun _ => Or.inl rfl⟩
    | async => exact ⟨_, u, rfl, hu, fun outcome => hnot outcome _, fun _ => Or.inl rfl⟩

/-- A subscription at the next sequence of another one goes on where that one stands. -/
theorem Serves.resume (hs : s.Serves) {system : System (TunnelState α ε) (TunnelEvent α ε)}
    (hcontinues : ∀ s es s', system.run s es = some s' → s.Continues s')
    (hserves : ∀ s es s', s.Serves → system.run s es = some s' → s'.Serves)
    (hu : s.subscribers[i]? = some u) (timeout : Option (Option Int)) :
    s.tunnel.subscribe (.sequence u.subscription.cursor) timeout =
        .ok ⟨timeout.getD s.tunnel.timeout, u.subscription.cursor, false⟩ ∧
      ∀ es s', system.run (s.subscribe (.sequence u.subscription.cursor) timeout) es = some s' →
        ∃ v, s'.subscribers[s.subscribers.length]? = some v ∧
          u.delivered ++ v.delivered <+: s'.accepted.drop u.start := by
  have hcursor := hs.cursor_le hu
  have hd := hs.delivers i u hu
  have hsub : s.tunnel.subscribe (.sequence u.subscription.cursor) timeout =
      .ok ⟨timeout.getD s.tunnel.timeout, u.subscription.cursor, false⟩ := by
    rw [Tunnel.subscribe, if_neg (by omega), if_neg (by rw [hs.retains.next]; omega),
      Int.toNat_natCast]
  refine ⟨hsub, fun es s' hrun => ?_⟩
  have hfrom : s.subscribe (.sequence u.subscription.cursor) timeout =
      { s with subscribers := s.subscribers ++
        [{ subscription := ⟨timeout.getD s.tunnel.timeout, u.subscription.cursor, false⟩
           start := u.subscription.cursor }] } := by
    rw [TunnelState.subscribe, hsub]
  have hs' := hserves _ es s' (hs.effect (s.subscribe_effect _ _)) hrun
  have hc := hcontinues _ es s' hrun
  rw [hfrom] at hc
  obtain ⟨v, hv, hstart⟩ := hc.start s.subscribers.length _ List.getElem?_concat_length
  refine ⟨v, hv, ?_⟩
  -- what `u` has read is the segment in front of the start of `v`
  obtain ⟨rest, hrest⟩ := hd.segment
  obtain ⟨more, hmore⟩ := hc.accepted
  have hsplit : s'.accepted.drop u.start = u.delivered ++ (rest ++ more) := by
    rw [← hmore, List.drop_append_of_le_length hd.start, ← hrest, List.append_assoc]
  have hsuffix : s'.accepted.drop v.start = rest ++ more := by
    have hdrop : s'.accepted.drop v.start = (s'.accepted.drop u.start).drop u.delivered.length := by
      rw [List.drop_drop, hstart, hd.cursor]
    rw [hdrop, hsplit, List.drop_left]
  rw [hsplit]
  apply (List.prefix_append_right_inj _).mpr
  rw [← hsuffix]
  exact (hs'.delivers _ v hv).segment

/-- What holds in a state of a tunnel. -/
structure Laws (timeout : Option Int) (maxHistory : Option Nat) (s : TunnelState α ε) : Prop where
  retains : s.tunnel.Retains s.accepted
  delivers : ∀ i : Nat, ∀ u : Subscriber α ε, s.subscribers[i]? = some u →
    u.Delivers s.tunnel s.accepted
  /-- A live subscription lags exactly when unread items have been evicted. -/
  lag : ∀ r : Nat, ∀ read u s', s.reads[r]? = some read →
    s.subscribers[read.subscription]? = some u → u.subscription.terminated = false →
    s.step (.look r) = some s' → ∃ u', s'.subscribers[read.subscription]? = some u' ∧
      ((∃ error, u'.outcomes = u.outcomes ++ [.lag error]) ↔
        u.start + u.delivered.length < (s.tunnel.evicted s.accepted).length) ∧
      ∀ error, u'.outcomes = u.outcomes ++ [.lag error] → error.missedCount =
        ((s.tunnel.evicted s.accepted).drop (u.start + u.delivered.length)).length
  /-- A look at a live subscription delivers the item at its cursor, raises the lag, or reports
      the failure or the end of the tunnel, whichever there is. -/
  look : ∀ r : Nat, ∀ read u, s.reads[r]? = some read → read.phase = .looking →
    s.subscribers[read.subscription]? = some u → u.subscription.terminated = false →
    ∃ s' u', s.step (.look r) = some s' ∧ s'.subscribers[read.subscription]? = some u' ∧
      (∀ outcome, s.tunnel.brings s.accepted (u.start + u.delivered.length) = some outcome →
        u'.outcomes = u.outcomes ++ [outcome]) ∧
      (s.tunnel.brings s.accepted (u.start + u.delivered.length) = none →
        u'.outcomes = u.outcomes ∨ read.mode = .sync ∧ read.expired s.now = true ∧
          u'.outcomes = u.outcomes ++ [.timedOut])
  /-- A subscription at the next sequence of `u` goes on where `u` stands. -/
  resume : ∀ i : Nat, ∀ u : Subscriber α ε, ∀ readTimeout, s.subscribers[i]? = some u →
    s.tunnel.baseSequence ≤ u.subscription.cursor →
    ∃ s', s.step (.subscribe (.sequence u.subscription.cursor) readTimeout) = some s' ∧
      ∀ es s'', (tunnelSystem α ε timeout maxHistory).run s' es = some s'' →
        ∃ v, s''.subscribers[s.subscribers.length]? = some v ∧
          u.delivered ++ v.delivered <+: s''.accepted.drop u.start

end TunnelState

end AgentlyStage
