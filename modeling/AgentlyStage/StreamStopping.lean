import AgentlyStage.StreamViews
import AgentlyStage.Lib.Simulation

/-!
# Stopping a stream

`source_stop` asks the consumer of a stream to stop.  A consumer looks at it once for every item,
before a sync source is asked for the item and after an async one has given it, so the item of
its last look may still be published; after that it goes straight to the end, where it closes the
source, once and last.
-/

namespace AgentlyStage

open Transition

/-! ## 1. The steps of the consumer -/

/-- The steps of `consume_async_source` and `consume_sync_source`. -/
def StreamEvent.consumes {α : Type} : StreamEvent α → Bool
  | .createSource | .createSourceFails _ | .checkStop | .nextItem | .item _ | .checkItem _
  | .publish | .exhausted | .sourceRaises _ | .closeSource | .lookupFails _ | .closeFails _ => true
  | .start | .startFails _ | .grantPermit | .cancelAdmission _ | .accept | .refuse _ | .deliver
  | .cancel _ | .stop => false

/-- The end of the `finally` block of the consumer. -/
def StreamEvent.closesSource {α : Type} : StreamEvent α → Bool
  | .closeSource | .lookupFails _ | .closeFails _ => true
  | _ => false

/-- The steps of a consumer that has been asked to stop. -/
def ConsumerPhase.stepsLeft {α : Type} : ConsumerPhase α → Nat
  | .pending | .queued | .fetching | .publishing _ => 3
  | .checking | .iterating => 2
  | .closing _ => 1
  | .over _ => 0

/-- The items that it may still publish: it has looked at `source_stop` for one. -/
def ConsumerPhase.owed {α : Type} : ConsumerPhase α → Nat
  | .fetching | .publishing _ => 1
  | _ => 0

/-- The consumer has gone through its `finally` block. -/
def ConsumerPhase.sourceClosed {α : Type} : ConsumerPhase α → Bool
  | .over (.run _ _) => true
  | _ => false

namespace StreamState

variable {α : Type} {s s' : StreamState α}

/-- The items that a stopped stream may still publish. -/
def owed (s : StreamState α) : Nat := s.consumer.owed

/-- What a step does to the items, the consumer and `source_stop`. -/
structure Consumed (s : StreamState α) (e : StreamEvent α) (s' : StreamState α) : Prop where
  kind : s'.kind = s.kind
  stays : s.sourceStop = true → s'.sourceStop = true
  items : ∃ more, s'.tunnel.items = s.tunnel.items ++ more ∧
    (s.sourceStop = true → more.length + s'.owed ≤ s.owed) ∧
    (s.consumer.sourceClosed = true → more = [])
  stepsLeft : s.sourceStop = true →
    s'.consumer.stepsLeft + e.consumes.toNat ≤ s.consumer.stepsLeft
  sourceClosed : s'.consumer.sourceClosed.toNat =
    s.consumer.sourceClosed.toNat + e.closesSource.toNat

/-- The steps that publish nothing. -/
theorem consumed_of_kept {e : StreamEvent α} (hkind : s'.kind = s.kind)
    (hstop : s.sourceStop = true → s'.sourceStop = true)
    (hitems : s'.tunnel.items = s.tunnel.items) (howed : s.sourceStop = true → s'.owed ≤ s.owed)
    (hleft : s.sourceStop = true →
      s'.consumer.stepsLeft + e.consumes.toNat ≤ s.consumer.stepsLeft)
    (hclosed : s'.consumer.sourceClosed.toNat =
      s.consumer.sourceClosed.toNat + e.closesSource.toNat) : Consumed s e s' where
  kind := hkind
  stays := hstop
  items := by
    refine ⟨[], hitems.trans (List.append_nil _).symm, fun h => ?_, fun _ => rfl⟩
    rw [List.length_nil, Nat.zero_add]
    exact howed h
  stepsLeft := hleft
  sourceClosed := hclosed

/-- The root moves on. -/
theorem consumed_of_root {e : StreamEvent α} (hkind : s'.kind = s.kind)
    (hstop : s.sourceStop = true → s'.sourceStop = true) (htunnel : s'.tunnel = s.tunnel)
    (hconsumer : s'.consumer = s.consumer ∨
      s.consumer = .pending ∧ s'.consumer = .queued)
    (hconsumes : e.consumes = false) (hcloses : e.closesSource = false) : Consumed s e s' := by
  apply consumed_of_kept hkind hstop (congrArg Tunnel.items htunnel)
  · intro _
    rcases hconsumer with hsame | ⟨-, hqueued⟩
    · have howed : s'.owed = s.owed := congrArg ConsumerPhase.owed hsame
      exact Nat.le_of_eq howed
    · rw [owed, hqueued]
      exact Nat.zero_le _
  · intro _
    rw [hconsumes]
    rcases hconsumer with hsame | ⟨hpending, hqueued⟩
    · rw [hsame]
      exact Nat.le_refl _
    · rw [hpending, hqueued]
      exact Nat.le_refl _
  · rw [hcloses]
    rcases hconsumer with hsame | ⟨hpending, hqueued⟩
    · rw [hsame]
      rfl
    · rw [hpending, hqueued]
      rfl

/-- The consumer goes on to a phase in which it has nothing to publish. -/
theorem consumed_of_consumer {e : StreamEvent α} {old : ConsumerPhase α} (hkind : s'.kind = s.kind)
    (hstop : s'.sourceStop = s.sourceStop) (hitems : s'.tunnel.items = s.tunnel.items)
    (hold : s.consumer = old) (hnone : s'.consumer.owed = 0)
    (hleft : s'.consumer.stepsLeft + e.consumes.toNat ≤ old.stepsLeft)
    (hclosed : s'.consumer.sourceClosed.toNat =
      old.sourceClosed.toNat + e.closesSource.toNat) : Consumed s e s' := by
  apply consumed_of_kept hkind (fun h => hstop.trans h) hitems
  · intro _
    rw [owed, hnone]
    exact Nat.zero_le _
  · intro _
    rw [hold]
    exact hleft
  · rw [hold]
    exact hclosed

theorem consumed_put {e : StreamEvent α} {data : α} {old : ConsumerPhase α}
    (hold : s.consumer = old) (hcase : old = .fetching ∨ old = .publishing data)
    (hconsumes : e.consumes = true) (hcloses : e.closesSource = false) (hi : StreamInv s)
    (hput : s.put data = some s') : Consumed s e s' := by
  unfold StreamState.put at hput
  split at hput
  · rename_i tunnel htunnel
    cases hput
    obtain ⟨-, -, -, -, -, hcases⟩ := Tunnel.put_ok htunnel
    have hitems : tunnel.items = s.tunnel.items ++ [data] := by
      rcases hcases with ⟨hfull, -⟩ | ⟨-, hitems, -⟩
      · rw [hi.history.1] at hfull
        cases hfull
      · exact hitems
    refine ⟨rfl, id, ⟨[data], hitems, fun _ => ?_, fun hclosed => ?_⟩, fun _ => ?_, ?_⟩
    · rw [owed, owed, hold]
      rcases hcase with rfl | rfl <;> exact Nat.le_refl _
    · rw [hold] at hclosed
      rcases hcase with rfl | rfl <;> cases hclosed
    · rw [hold, hconsumes]
      rcases hcase with rfl | rfl <;> exact Nat.le_refl _
    · rw [hold, hcloses]
      rcases hcase with rfl | rfl <;> rfl
  · cases hput

theorem items_close (t : Tunnel α SourceError) : t.close.items = t.items := by
  unfold Tunnel.close
  split <;> rfl

theorem items_fail (t : Tunnel α SourceError) (error : SourceError) :
    (t.fail error).items = t.items := by
  unfold Tunnel.fail
  split <;> rfl

/-- **What a step does to the consumer.** -/
theorem StreamInv.consumed (hi : StreamInv s) {e : StreamEvent α} (hstep : s.step e = some s') :
    Consumed s e s' := by
  cases e with
  | start | startFails error | cancelAdmission error | refuse error =>
    simp only [StreamState.step] at hstep
    split at hstep
    · cases hstep
      exact consumed_of_root rfl id rfl (Or.inl rfl) rfl rfl
    · cases hstep
  | stop =>
    cases hstep
    exact consumed_of_root rfl (fun _ => rfl) rfl (Or.inl rfl) rfl rfl
  | grantPermit =>
    simp only [StreamState.step] at hstep
    split at hstep
    · rename_i hroot
      cases hstep
      have hpending := hi.pending (Or.inr (Or.inl hroot))
      refine consumed_of_root rfl id rfl ?_ rfl rfl
      dsimp only
      split
      · exact Or.inr ⟨hpending, rfl⟩
      · exact Or.inl rfl
    · cases hstep
  | accept =>
    simp only [StreamState.step] at hstep
    split at hstep
    · rename_i hroot
      cases hstep
      have hpending := hi.pending (Or.inr (Or.inr ⟨hroot.2, hroot.1⟩))
      exact consumed_of_root rfl id rfl (Or.inr ⟨hpending, rfl⟩) rfl rfl
    · cases hstep
  | cancel error =>
    simp only [StreamState.step] at hstep
    split at hstep
    · split at hstep
      · cases hstep
        exact consumed_of_root rfl id rfl (Or.inl rfl) rfl rfl
      · cases hstep
        exact consumed_of_root rfl id rfl (Or.inl rfl) rfl rfl
      · cases hstep
    · cases hstep
  | deliver =>
    simp only [StreamState.step, StreamState.deliver] at hstep
    split at hstep
    · split at hstep <;>
      · cases hstep
        exact consumed_of_root rfl id rfl (Or.inl rfl) rfl rfl
    · split at hstep <;>
      · cases hstep
        exact consumed_of_root rfl id rfl (Or.inl rfl) rfl rfl
    · split at hstep <;>
      · cases hstep
        exact consumed_of_root rfl id rfl (Or.inl rfl) rfl rfl
    · cases hstep
  | createSource | createSourceFails error =>
    simp only [StreamState.step] at hstep
    split at hstep
    · rename_i hold
      cases hstep
      exact consumed_of_consumer rfl rfl rfl hold rfl (Nat.le_of_ble_eq_true rfl) rfl
    · cases hstep
  | checkStop =>
    simp only [StreamState.step, StreamState.checkStop] at hstep
    split at hstep
    · rename_i hold
      split at hstep
      · cases hstep
        exact consumed_of_consumer rfl rfl (items_close _) hold rfl (Nat.le_of_ble_eq_true rfl) rfl
      · rename_i hfree
        cases hstep
        refine consumed_of_kept rfl id rfl ?_ ?_ ?_
        · exact fun hstop => absurd hstop hfree
        · exact fun hstop => absurd hstop hfree
        · rw [hold]
          rfl
    · cases hstep
  | nextItem | checkItem data =>
    simp only [StreamState.step, StreamState.nextItem, StreamState.checkItem] at hstep
    split at hstep
    · rename_i hkind hold
      cases hstep
      by_cases hstop : s.sourceStop = true
      · rw [if_pos hstop]
        exact consumed_of_consumer rfl rfl rfl hold rfl (Nat.le_of_ble_eq_true rfl) rfl
      · rw [if_neg hstop]
        refine consumed_of_kept rfl id rfl ?_ ?_ ?_
        · exact fun h => absurd h hstop
        · exact fun h => absurd h hstop
        · rw [hold]
          rfl
    · cases hstep
  | item data =>
    simp only [StreamState.step, StreamState.item] at hstep
    split at hstep
    · rename_i hkind hold
      exact consumed_put hold (Or.inl rfl) rfl rfl hi hstep
    · cases hstep
  | publish =>
    simp only [StreamState.step, StreamState.publish] at hstep
    split at hstep
    · rename_i data hold
      exact consumed_put hold (Or.inr rfl) rfl rfl hi hstep
    · cases hstep
  | exhausted =>
    simp only [StreamState.step, StreamState.exhausted] at hstep
    split at hstep
    · rename_i hkind hold
      cases hstep
      exact consumed_of_consumer rfl rfl rfl hold rfl (Nat.le_of_ble_eq_true rfl) rfl
    · rename_i hkind hold
      cases hstep
      exact consumed_of_consumer rfl rfl rfl hold rfl (Nat.le_of_ble_eq_true rfl) rfl
    · cases hstep
  | sourceRaises error =>
    simp only [StreamState.step, StreamState.sourceRaises] at hstep
    split at hstep
    · rename_i hkind hold
      cases hstep
      refine consumed_of_consumer rfl rfl ?_ hold rfl (Nat.le_of_ble_eq_true rfl) rfl
      dsimp only
      split
      · exact items_close _
      · exact items_fail _ _
    · rename_i hkind hold
      cases hstep
      exact consumed_of_consumer rfl rfl (items_fail _ _) hold rfl (Nat.le_of_ble_eq_true rfl) rfl
    · rename_i hkind hold
      cases hstep
      exact consumed_of_consumer rfl rfl (items_fail _ _) hold rfl (Nat.le_of_ble_eq_true rfl) rfl
    · cases hstep
  | closeSource =>
    simp only [StreamState.step, StreamState.closeSource] at hstep
    split at hstep
    · rename_i hold
      cases hstep
      exact consumed_of_consumer rfl rfl (items_close _) hold rfl (Nat.le_of_ble_eq_true rfl) rfl
    · rename_i loopEnd hold
      cases hstep
      exact consumed_of_consumer rfl rfl rfl hold rfl (Nat.le_refl _) rfl
    · cases hstep
  | lookupFails error =>
    simp only [StreamState.step, StreamState.lookupFails] at hstep
    split at hstep
    · rename_i loopEnd hold
      cases hstep
      exact consumed_of_consumer rfl rfl rfl hold rfl (Nat.le_refl _) rfl
    · cases hstep
  | closeFails error =>
    simp only [StreamState.step, StreamState.closeFails] at hstep
    split at hstep
    · rename_i loopEnd hold
      cases hstep
      exact consumed_of_consumer rfl rfl (items_fail _ _) hold rfl
        (Nat.le_refl _) rfl
    · cases hstep

/-! ## 2. Runs -/

theorem countP_cons_toNat {β : Type} (p : β → Bool) (x : β) (xs : List β) :
    (x :: xs).countP p = xs.countP p + (p x).toNat := by
  rw [List.countP_cons]
  cases p x <;> rfl

/-- What a run does to the items and the consumer. -/
structure StopLaws (s : StreamState α) (es : List (StreamEvent α)) (s' : StreamState α) :
    Prop where
  /-- A stopped stream publishes the item of the last look at `source_stop`, and no more. -/
  published : s.sourceStop = true →
    ∃ more, s'.tunnel.items = s.tunnel.items ++ more ∧ more.length ≤ s.owed
  /-- Its consumer is near its end. -/
  ends : s.sourceStop = true → es.countP StreamEvent.consumes ≤ s.consumer.stepsLeft
  /-- A source that has been created is closed once. -/
  closes : s'.consumer.sourceClosed.toNat =
    s.consumer.sourceClosed.toNat + es.countP StreamEvent.closesSource
  /-- Nothing is published after that. -/
  last : s.consumer.sourceClosed = true → s'.tunnel.items = s.tunnel.items

theorem StreamInv.stopLaws (hi : StreamInv s) {es : List (StreamEvent α)} {kind : SourceKind}
    {onCarrier : Bool} {timeout : Option Int}
    (hrun : (streamSystem α kind onCarrier timeout).run s es = some s') : StopLaws s es s' := by
  induction es generalizing s with
  | nil =>
    cases hrun
    refine ⟨fun _ => ⟨[], (List.append_nil _).symm, Nat.zero_le _⟩, fun _ => Nat.zero_le _, rfl,
      fun _ => rfl⟩
  | cons e es ih =>
    rw [System.run_cons] at hrun
    obtain ⟨t, hstep, hrest⟩ := Option.bind_eq_some_iff.mp hrun
    have hfirst := hi.consumed hstep
    have hlaws := ih (hi.step hstep).1 hrest
    obtain ⟨more, hmore, howed, hnone⟩ := hfirst.items
    constructor
    · intro hstop
      obtain ⟨more', hmore', hlength⟩ := hlaws.published (hfirst.stays hstop)
      refine ⟨more ++ more', ?_, ?_⟩
      · rw [hmore', hmore, List.append_assoc]
      · have hle := howed hstop
        rw [List.length_append]
        omega
    · intro hstop
      have hle := hfirst.stepsLeft hstop
      have hends := hlaws.ends (hfirst.stays hstop)
      rw [countP_cons_toNat]
      omega
    · have hclosed := hfirst.sourceClosed
      have hcloses := hlaws.closes
      rw [countP_cons_toNat]
      omega
    · intro hclosed
      have hstill : t.consumer.sourceClosed = true := by
        have hsum := hfirst.sourceClosed
        rw [hclosed] at hsum
        cases h : t.consumer.sourceClosed with
        | true => rfl
        | false =>
          rw [h, Bool.toNat_true, Bool.toNat_false] at hsum
          omega
      rw [hlaws.last hstill, hmore, hnone hclosed, List.append_nil]

/-- **Stopping a stream**, from every reachable state: the items, the end of the consumer and
    the one closing of the source. -/
theorem stop_laws {kind : SourceKind} {onCarrier : Bool} {timeout : Option Int}
    (hreach : (streamSystem α kind onCarrier timeout).Reachable s) (es : List (StreamEvent α))
    (hrun : (streamSystem α kind onCarrier timeout).run s es = some s') : StopLaws s es s' :=
  (reachable_streamInv hreach).stopLaws hrun

/-- Another thread stops a stream whose loop has looked at `source_stop` for its second item. -/
def stoppedRun : List (StreamEvent Nat) :=
  [.start, .grantPermit, .createSource, .checkStop, .checkItem 1, .publish, .checkItem 2, .stop]

theorem stop_laws_stoppedRun :
    ∃ s s', (streamSystem Nat .async true none).run {
        kind := .async
        onCarrier := true
        tunnel := ⟨[], 0, 0, false, none, none, none⟩ } stoppedRun = some s ∧
      (streamSystem Nat .async true none).run s [.publish, .checkItem 3, .closeSource] = some s' ∧
      s'.tunnel.items = [1, 2] ∧ StopLaws s [.publish, .checkItem 3, .closeSource] s' := by
  refine ⟨_, _, rfl, rfl, rfl, ?_⟩
  exact stop_laws (System.reachable_of_run (S := streamSystem Nat .async true none) stoppedRun
    rfl rfl) [.publish, .checkItem 3, .closeSource] rfl

end StreamState

end AgentlyStage
