import AgentlyStage.StreamRoot
import AgentlyStage.TunnelDelivery

/-!
# The two views of a stream

`get` reads the body outcome, iteration reads the tunnel.  They agree when the outcome is what
the consumer has signalled: a consumer that runs to its end signals what it returns or raises,
up to errors of closing its source and translated or cancelled ones; a root that ends without
the consumer signals nothing.
-/

namespace AgentlyStage

open Transition

/-! ## 1. The signal of a consumer -/

/-- The body outcome of a run of the consumer. -/
def ConsumerRun.outcome {α : Type} (kind : SourceKind) (onCarrier : Bool) (values : List α)
    (run : ConsumerRun) : StreamOutcome α :=
  match run.raises with
  | none => .result values
  | some error =>
    .ofException (if kind = .async then awaitWithLoopAffinityGuidance onCarrier error
      else .raised error)

/-- The signal fits the outcome. -/
def TunnelSignal.fits {α : Type} (signal : TunnelSignal) : StreamOutcome α → Prop
  | .result _ | .cancelled => signal = ⟨true, none⟩
  | .exception exception => ∃ error, exception = .raised error ∧ signal = ⟨false, some error⟩

theorem fits_ofException {α : Type} (kind : SourceKind) (onCarrier : Bool) (signal : TunnelSignal)
    (error : SourceError) :
    signal.fits (α := α) (.ofException (if kind = .async then
      awaitWithLoopAffinityGuidance onCarrier error else .raised error)) ↔
    (error.isCancelled = true ∧ signal = ⟨true, none⟩) ∨
      (error.isReported kind onCarrier = true ∧ signal = ⟨false, some error⟩) := by
  cases error with
  | cancelled number =>
    cases kind <;> simp [awaitWithLoopAffinityGuidance, StreamOutcome.ofException,
      TunnelSignal.fits, SourceError.isCancelled, SourceError.isReported]
  | other number =>
    cases kind <;> simp [awaitWithLoopAffinityGuidance, StreamOutcome.ofException,
      TunnelSignal.fits, SourceError.isCancelled, SourceError.isReported,
      SourceError.isTranslated]
  | loopAffinity number =>
    cases kind <;> cases onCarrier <;> simp [awaitWithLoopAffinityGuidance,
      StreamOutcome.ofException, TunnelSignal.fits, SourceError.isCancelled,
      SourceError.isReported, SourceError.isTranslated]

/-- The consumer raises as it has signalled exactly when its signal fits the outcome. -/
theorem ConsumerRun.fits_iff {α : Type} (kind : SourceKind) (onCarrier : Bool) (values : List α)
    (run : ConsumerRun) :
    (run.signal kind).fits (run.outcome kind onCarrier values) ↔
      run.raisesAsSignalled kind onCarrier = true := by
  have hopen : ∀ error : SourceError,
      (TunnelSignal.mk false none).fits (α := α) (.ofException (if kind = .async then
        awaitWithLoopAffinityGuidance onCarrier error else .raised error)) ↔ False := by
    intro error
    rw [fits_ofException]
    simp
  have hclosed : ∀ error : SourceError,
      (TunnelSignal.mk true none).fits (α := α) (.ofException (if kind = .async then
        awaitWithLoopAffinityGuidance onCarrier error else .raised error)) ↔
      error.isCancelled = true := by
    intro error
    rw [fits_ofException]
    simp
  have hfailed : ∀ first error : SourceError,
      (TunnelSignal.mk false (some first)).fits (α := α) (.ofException (if kind = .async then
        awaitWithLoopAffinityGuidance onCarrier error else .raised error)) ↔
      error = first ∧ error.isReported kind onCarrier = true := by
    intro first error
    rw [fits_ofException]
    constructor
    · rintro (⟨-, hsignal⟩ | ⟨hreported, hsignal⟩)
      · cases hsignal
      · cases hsignal
        exact ⟨rfl, hreported⟩
    · rintro ⟨rfl, hreported⟩
      exact Or.inr ⟨hreported, rfl⟩
  have hagain : ∀ first error : SourceError,
      ((LoopEnd.raised first).signal kind).fits (α := α) (.ofException (if kind = .async then
        awaitWithLoopAffinityGuidance onCarrier error else .raised error)) ↔
      (if kind = .async ∧ first.isCancelled then error.isCancelled
        else decide (error = first) && error.isReported kind onCarrier) = true := by
    intro first error
    rw [LoopEnd.signal]
    split
    · exact hclosed error
    · rw [hfailed, Bool.and_eq_true, decide_eq_true_iff]
  cases run with
  | notCreated error => exact (hopen error).trans (by simp [raisesAsSignalled])
  | run loopEnd closing =>
    cases loopEnd with
    | stoppedBefore =>
      cases closing with
      | closed => simp [raisesAsSignalled, outcome, raises, signal, LoopEnd.signal, TunnelSignal.fits]
      | lookupFailed error => exact hclosed error
      | closeFailed error => exact hclosed error
    | ended =>
      cases closing with
      | closed => simp [raisesAsSignalled, outcome, raises, signal, TunnelSignal.fits]
      | lookupFailed error => exact (hopen error).trans (by simp [raisesAsSignalled])
      | closeFailed error => exact (hfailed error error).trans (by simp [raisesAsSignalled])
    | raised first =>
      cases closing with
      | closed =>
        refine (hagain first first).trans ?_
        by_cases hcancelled : kind = .async ∧ first.isCancelled
        · simp [raisesAsSignalled, hcancelled]
        · rw [if_neg hcancelled]
          simp [raisesAsSignalled]
          intro hkind hc
          exact absurd ⟨hkind, hc⟩ hcancelled
      | lookupFailed error => exact hagain first error
      | closeFailed error => exact hagain first error

/-- The `finally` block of a loop that has sent a signal keeps it. -/
theorem ConsumerRun.signal_of_ne {kind : SourceKind} {loopEnd : LoopEnd} (hne : loopEnd ≠ .ended)
    (closing : SourceClosing) :
    (ConsumerRun.run loopEnd closing).signal kind = loopEnd.signal kind := by
  cases loopEnd with
  | ended => exact absurd rfl hne
  | stoppedBefore => rfl
  | raised error => rfl

namespace StreamState

variable {α : Type} {s s' : StreamState α}

/-! ## 2. The invariant of a stream -/

def tunnelSignal (s : StreamState α) : TunnelSignal := ⟨s.tunnel.closed, s.tunnel.failure⟩

/-- The consumer has not been called. -/
def beforeConsumer (s : StreamState α) : Prop :=
  s.root = .posted ∨ s.root = .admission ∨ (s.root = .executing ∧ s.kind = .sync)

/-- The tunnel shows what the consumer has signalled, and keeps every item. -/
structure StreamInv (s : StreamState α) : Prop where
  signal : s.tunnelSignal = s.consumer.signal s.kind
  history : s.tunnel.maxHistory = none ∧ s.tunnel.baseSequence = 0
  pending : s.beforeConsumer → s.consumer = .pending
  /-- The root waits for a sync consumer only. -/
  sync : s.root = .awaiting ∨ (∃ error, s.root = .absorbing error) → s.kind = .sync
  outcome : s.outcome.isSome = true → s.root = .over

theorem streamInv_initial {kind : SourceKind} {onCarrier : Bool} {timeout : Option Int}
    (hinit : (streamSystem α kind onCarrier timeout).Init s) : StreamInv s := by
  rw [show s = _ from hinit]
  refine ⟨rfl, ⟨rfl, rfl⟩, fun _ => rfl, ?_, fun h => (nomatch h)⟩
  rintro (h | ⟨error, h⟩)
  · cases h
  · cases h

/-- The root has no outcome yet, or it is over. -/
theorem StreamInv.finish (hi : StreamInv s) (outcome : StreamOutcome α) :
    StreamInv (s.finish outcome) := by
  refine ⟨hi.signal, hi.history, ?_, ?_, fun _ => rfl⟩
  · rintro (h | h | ⟨h, -⟩)
    · cases h
    · cases h
    · cases h
  · rintro (h | ⟨error, h⟩)
    · cases h
    · cases h

/-- A step of the consumer. -/
theorem StreamInv.consume (hi : StreamInv s) {tunnel : Tunnel α SourceError}
    {consumer : ConsumerPhase α} (hstarted : s.consumer ≠ .pending)
    (hsignal : TunnelSignal.mk tunnel.closed tunnel.failure = consumer.signal s.kind)
    (hhistory : tunnel.maxHistory = s.tunnel.maxHistory ∧
      tunnel.baseSequence = s.tunnel.baseSequence) :
    StreamInv { s with tunnel := tunnel, consumer := consumer } :=
  ⟨hsignal, ⟨hhistory.1.trans hi.history.1, hhistory.2.trans hi.history.2⟩,
    fun hbefore => absurd (hi.pending hbefore) hstarted, hi.sync, hi.outcome⟩

/-- A root that has no outcome moves on. -/
theorem StreamInv.move (hi : StreamInv s) {root : StreamRootPhase} {consumer : ConsumerPhase α}
    (hroot : s.root ≠ .over) (hsignal : consumer.signal s.kind = s.consumer.signal s.kind)
    (hpending : beforeConsumer { s with root := root, consumer := consumer } →
      consumer = .pending)
    (hsync : root = .awaiting ∨ (∃ error, root = .absorbing error) → s.kind = .sync) :
    StreamInv { s with root := root, consumer := consumer } :=
  ⟨hi.signal.trans hsignal.symm, hi.history, hpending, hsync, fun h => absurd (hi.outcome h) hroot⟩

theorem tunnel_close (hclosed : s.tunnel.closed = false) (hfailure : s.tunnel.failure = none) :
    s.tunnel.close = { s.tunnel with closed := true } := by
  simp [Tunnel.close, Tunnel.terminal, hclosed, hfailure]

theorem tunnel_fail (hclosed : s.tunnel.closed = false) (hfailure : s.tunnel.failure = none)
    (error : SourceError) : s.tunnel.fail error = { s.tunnel with failure := some error } := by
  simp [Tunnel.fail, Tunnel.terminal, hclosed, hfailure]

theorem StreamInv.unset (hi : StreamInv s) (h : s.consumer.signal s.kind = ⟨false, none⟩) :
    s.tunnel.closed = false ∧ s.tunnel.failure = none := by
  have hsignal := hi.signal.trans h
  rw [tunnelSignal, TunnelSignal.mk.injEq] at hsignal
  exact hsignal

/-- The signal of the `try` block is the one of the tunnel. -/
theorem StreamInv.closing_signal (hi : StreamInv s) {loopEnd : LoopEnd}
    (hconsumer : s.consumer = .closing loopEnd) :
    TunnelSignal.mk s.tunnel.closed s.tunnel.failure = loopEnd.signal s.kind := by
  have hsignal := hi.signal
  rw [hconsumer] at hsignal
  exact hsignal

theorem terminal_of_signal {loopEnd : LoopEnd} (hne : loopEnd ≠ .ended)
    (hsignal : TunnelSignal.mk s.tunnel.closed s.tunnel.failure = loopEnd.signal s.kind) :
    s.tunnel.terminal = true := by
  cases loopEnd with
  | stoppedBefore =>
    rw [LoopEnd.signal, TunnelSignal.mk.injEq] at hsignal
    simp [Tunnel.terminal, hsignal.1]
  | ended => exact absurd rfl hne
  | raised error =>
    rw [LoopEnd.signal] at hsignal
    split at hsignal
    · rw [TunnelSignal.mk.injEq] at hsignal
      simp [Tunnel.terminal, hsignal.1]
    · rw [TunnelSignal.mk.injEq] at hsignal
      simp [Tunnel.terminal, hsignal.2]

theorem StreamInv.put (hi : StreamInv s) {data : α} (hstarted : s.consumer ≠ .pending)
    (h : s.consumer.signal s.kind = ⟨false, none⟩) (hstep : s.put data = some s') :
    StreamInv s' := by
  obtain ⟨hclosed, hfailure⟩ := hi.unset h
  unfold StreamState.put at hstep
  split at hstep
  · rename_i tunnel hput
    cases hstep
    obtain ⟨-, hclosed', hfailure', -, hmax, hcases⟩ := Tunnel.put_ok hput
    refine hi.consume hstarted ?_ ⟨hmax, ?_⟩
    · rw [hclosed', hfailure', hclosed, hfailure]
      rfl
    · -- nothing is evicted
      rcases hcases with ⟨hfull, -⟩ | ⟨-, -, hbase⟩
      · rw [hi.history.1] at hfull
        cases hfull
      · exact hbase
  · cases hstep

theorem StreamInv.closeSource (hi : StreamInv s) (hstep : s.closeSource = some s') :
    StreamInv s' := by
  unfold StreamState.closeSource at hstep
  split at hstep
  · rename_i hconsumer
    cases hstep
    obtain ⟨hclosed, hfailure⟩ := hi.unset (by rw [hconsumer]; rfl)
    have hclose := tunnel_close hclosed hfailure
    refine hi.consume (by rw [hconsumer]; exact fun h => nomatch h) ?_ ?_
    · rw [hclose]
      exact congrArg (TunnelSignal.mk true) hfailure
    · rw [hclose]
      exact ⟨rfl, rfl⟩
  · rename_i loopEnd hne hconsumer
    cases hstep
    refine hi.consume (by rw [hconsumer]; exact fun h => nomatch h) ?_ ⟨rfl, rfl⟩
    rw [hi.closing_signal hconsumer]
    exact (ConsumerRun.signal_of_ne (fun h => hne (h ▸ rfl)) .closed).symm
  · cases hstep

theorem StreamInv.lookupFails (hi : StreamInv s) {error : SourceError}
    (hstep : s.lookupFails error = some s') : StreamInv s' := by
  unfold StreamState.lookupFails at hstep
  split at hstep
  · rename_i loopEnd hconsumer
    cases hstep
    refine hi.consume (by rw [hconsumer]; exact fun h => nomatch h) ?_ ⟨rfl, rfl⟩
    rw [hi.closing_signal hconsumer]
    cases loopEnd with
    | stoppedBefore | ended | raised first => rfl
  · cases hstep

theorem StreamInv.closeFails (hi : StreamInv s) {error : SourceError}
    (hstep : s.closeFails error = some s') : StreamInv s' := by
  unfold StreamState.closeFails at hstep
  split at hstep
  · rename_i loopEnd hconsumer
    cases hstep
    have hstarted : s.consumer ≠ .pending := by
      rw [hconsumer]
      exact fun h => nomatch h
    have hsignal := hi.closing_signal hconsumer
    by_cases hended : loopEnd = .ended
    · subst hended
      obtain ⟨hclosed, hfailure⟩ := hi.unset (by rw [hconsumer]; rfl)
      have hfail := tunnel_fail hclosed hfailure error
      refine hi.consume hstarted ?_ ?_
      · rw [hfail, hclosed]
        rfl
      · rw [hfail]
        exact ⟨rfl, rfl⟩
    · -- the first signal wins
      have hfail := (Tunnel.of_terminal (terminal_of_signal hended hsignal)).2.2 error
      refine hi.consume hstarted ?_ ?_
      · rw [hfail, hsignal]
        exact (ConsumerRun.signal_of_ne hended _).symm
      · rw [hfail]
        exact ⟨rfl, rfl⟩
  · cases hstep

theorem StreamInv.sourceRaises (hi : StreamInv s) {error : SourceError}
    (hstep : s.sourceRaises error = some s') : StreamInv s' := by
  have hraises : ∀ consumer : ConsumerPhase α, s.consumer = consumer → consumer ≠ .pending →
      consumer.signal s.kind = ⟨false, none⟩ →
      StreamInv { s with
        tunnel := if s.kind = .async ∧ error.isCancelled then s.tunnel.close
          else s.tunnel.fail error
        consumer := .closing (.raised error) } := by
    rintro consumer rfl hstarted hunset
    obtain ⟨hclosed, hfailure⟩ := hi.unset hunset
    refine hi.consume hstarted ?_ ?_
    · change _ = LoopEnd.signal s.kind (.raised error)
      rw [LoopEnd.signal]
      split
      · rw [tunnel_close hclosed hfailure, hfailure]
      · rw [tunnel_fail hclosed hfailure, hclosed]
    · split
      · rw [tunnel_close hclosed hfailure]
        exact ⟨rfl, rfl⟩
      · rw [tunnel_fail hclosed hfailure]
        exact ⟨rfl, rfl⟩
  unfold StreamState.sourceRaises at hstep
  split at hstep
  · rename_i hkind hconsumer
    cases hstep
    have hi' := hraises .iterating hconsumer (fun h => nomatch h) rfl
    simpa [hkind] using hi'
  · rename_i hkind hconsumer
    cases hstep
    have hi' := hraises .iterating hconsumer (fun h => nomatch h) rfl
    simpa [hkind] using hi'
  · rename_i hkind hconsumer
    cases hstep
    have hi' := hraises .fetching hconsumer (fun h => nomatch h) rfl
    simpa [hkind] using hi'
  · cases hstep

theorem StreamInv.deliver (hi : StreamInv s) (hstep : s.deliver = some s') :
    ∃ run, s.consumer = .over run ∧
      s' = s.finish (match s.root, run.raises with
        | .absorbing _, none => .cancelled
        | _, _ => run.outcome s.kind s.onCarrier s.tunnel.items) ∧ s.root ≠ .over := by
  unfold StreamState.deliver at hstep
  split at hstep
  · rename_i run hconsumer hroot
    have hkind : s.kind = .async := by
      cases hkind : s.kind with
      | async => rfl
      | sync =>
        have hpending := hi.pending (Or.inr (Or.inr ⟨hroot, hkind⟩))
        rw [hconsumer] at hpending
        cases hpending
    refine ⟨run, hconsumer, ?_, by rw [hroot]; exact fun h => nomatch h⟩
    cases hraises : run.raises with
    | none =>
      rw [hraises] at hstep
      cases hstep
      simp [hroot, ConsumerRun.outcome, hraises]
    | some error =>
      rw [hraises] at hstep
      cases hstep
      simp [hroot, ConsumerRun.outcome, hraises, hkind]
  · rename_i run hconsumer hroot
    have hkind := hi.sync (Or.inl hroot)
    refine ⟨run, hconsumer, ?_, by rw [hroot]; exact fun h => nomatch h⟩
    cases hraises : run.raises with
    | none =>
      rw [hraises] at hstep
      cases hstep
      simp [hroot, ConsumerRun.outcome, hraises]
    | some error =>
      rw [hraises] at hstep
      cases hstep
      simp [hroot, ConsumerRun.outcome, hraises, hkind]
  · rename_i run cancellation hconsumer hroot
    have hkind := hi.sync (Or.inr ⟨cancellation, hroot⟩)
    refine ⟨run, hconsumer, ?_, by rw [hroot]; exact fun h => nomatch h⟩
    cases hraises : run.raises with
    | none =>
      rw [hraises] at hstep
      cases hstep
      simp [hroot]
    | some error =>
      rw [hraises] at hstep
      cases hstep
      simp [hroot, ConsumerRun.outcome, hraises, hkind]
  · cases hstep

/-! ## 3. Steps -/

/-- A step leaves the outcome and a terminal tunnel, or it sets the outcome. -/
def Effect (s : StreamState α) (e : StreamEvent α) (s' : StreamState α) : Prop :=
  (s'.outcome = s.outcome ∧ s.disagrees e = false ∧
    (s.tunnel.terminal = true → s'.tunnel = s.tunnel)) ∨
  (s.outcome = none ∧ ∃ outcome, s' = s.finish outcome ∧
    (s.tunnelSignal.fits outcome ↔ s.disagrees e = false) ∧
    ∀ values, outcome = .result values → s.tunnel.items = values)

theorem StreamInv.outcome_eq_none (hi : StreamInv s) (hroot : s.root ≠ .over) :
    s.outcome = none := by
  cases houtcome : s.outcome with
  | none => rfl
  | some outcome => exact absurd (hi.outcome (by rw [houtcome]; rfl)) hroot

theorem fits_of_unset (exception : BodyException) :
    ¬ (TunnelSignal.mk false none).fits (α := α) (.ofException exception) := by
  cases exception with
  | guidance number => rintro ⟨error, heq, -⟩; cases heq
  | raised error =>
    cases error with
    | cancelled number => exact fun h => nomatch h
    | loopAffinity number | other number =>
      rintro ⟨error, -, hsignal⟩
      cases hsignal

/-- A root that ends before the consumer has been called disagrees. -/
theorem StreamInv.effect_before (hi : StreamInv s) {e : StreamEvent α} (hbefore : s.beforeConsumer)
    {outcome : StreamOutcome α} (hdisagrees : s.disagrees e = true)
    (hfits : ¬ (TunnelSignal.mk false none).fits outcome)
    (hresult : ∀ values, outcome ≠ .result values) : Effect s e (s.finish outcome) := by
  have hsignal : s.tunnelSignal = ⟨false, none⟩ := by
    rw [hi.signal, hi.pending hbefore]
    rfl
  refine Or.inr ⟨hi.outcome_eq_none ?_, outcome, rfl, ?_, ?_⟩
  · rcases hbefore with h | h | ⟨h, -⟩
    · rw [h]
      exact fun h => nomatch h
    · rw [h]
      exact fun h => nomatch h
    · rw [h]
      exact fun h => nomatch h
  · rw [hsignal, hdisagrees]
    exact ⟨fun h => absurd h hfits, fun h => (nomatch h)⟩
  · exact fun values heq => absurd heq (hresult values)

theorem ofException_ne_result (exception : BodyException) (values : List α) :
    StreamOutcome.ofException exception ≠ .result values := by
  cases exception with
  | guidance number => exact fun h => nomatch h
  | raised error =>
    cases error with
    | cancelled number | loopAffinity number | other number => exact fun h => nomatch h

theorem effect_of_kept {e : StreamEvent α} (houtcome : s'.outcome = s.outcome)
    (hdisagrees : s.disagrees e = false) (htunnel : s'.tunnel = s.tunnel) : Effect s e s' :=
  Or.inl ⟨houtcome, hdisagrees, fun _ => htunnel⟩

/-- A closed tunnel has no failure. -/
theorem StreamInv.failure_of_closed (hi : StreamInv s) (hclosed : s.tunnel.closed = true) :
    s.tunnel.failure = none := by
  have hloop : ∀ loopEnd : LoopEnd, (loopEnd.signal s.kind).closed = true →
      (loopEnd.signal s.kind).failure = none := by
    intro loopEnd hclosed
    cases loopEnd with
    | stoppedBefore | ended => rfl
    | raised error =>
      rw [LoopEnd.signal] at hclosed ⊢
      split at hclosed
      · rename_i hcancelled
        rw [if_pos hcancelled]
      · cases hclosed
  have hsignal := hi.signal
  change s.tunnelSignal.closed = true at hclosed
  change s.tunnelSignal.failure = none
  rw [hsignal] at hclosed ⊢
  cases hconsumer : s.consumer with
  | pending | queued | checking | iterating | fetching | publishing data => rfl
  | closing loopEnd =>
    rw [hconsumer] at hclosed
    exact hloop loopEnd hclosed
  | «over» run =>
    rw [hconsumer] at hclosed
    cases run with
    | notCreated error => rfl
    | run loopEnd closing =>
      by_cases hended : loopEnd = .ended
      · subst hended
        cases closing with
        | closed | lookupFailed error => rfl
        | closeFailed error => cases hclosed
      · rw [ConsumerPhase.signal, ConsumerRun.signal_of_ne hended] at hclosed ⊢
        exact hloop loopEnd hclosed

theorem StreamInv.effect_deliver (hi : StreamInv s) (hstep : s.deliver = some s') :
    StreamInv s' ∧ Effect s .deliver s' := by
  obtain ⟨run, hconsumer, rfl, hroot⟩ := hi.deliver hstep
  have hsignal : s.tunnelSignal = run.signal s.kind := by
    rw [hi.signal, hconsumer]
    rfl
  have hfits := run.fits_iff s.kind s.onCarrier s.tunnel.items
  have hdisagrees : s.disagrees .deliver = !run.raisesAsSignalled s.kind s.onCarrier := by
    simp [disagrees, hconsumer]
  refine ⟨hi.finish _, Or.inr ⟨hi.outcome_eq_none hroot, _, rfl, ?_, ?_⟩⟩
  · rw [hsignal, hdisagrees, Bool.not_eq_false', ← hfits]
    split
    · -- the items of a consumer that has returned are not delivered
      rename_i hraises
      rw [ConsumerRun.outcome, hraises]
      rfl
    · rfl
  · intro values heq
    split at heq
    · cases heq
    · rw [ConsumerRun.outcome] at heq
      split at heq
      · cases heq
        rfl
      · exact absurd heq (ofException_ne_result _ values)

/-- A put is refused by a terminal tunnel. -/
theorem StreamInv.effect_put (hi : StreamInv s) {e : StreamEvent α} {data : α}
    (hok : s.disagrees e = false) (hstarted : s.consumer ≠ .pending)
    (hunset : s.consumer.signal s.kind = ⟨false, none⟩) (hstep : s.put data = some s') :
    StreamInv s' ∧ Effect s e s' := by
  refine ⟨hi.put hstarted hunset hstep, ?_⟩
  unfold StreamState.put at hstep
  split at hstep
  · rename_i tunnel hput
    cases hstep
    refine Or.inl ⟨rfl, hok, fun hterminal => ?_⟩
    rw [(Tunnel.of_terminal hterminal).1 data] at hput
    cases hput
  · cases hstep

theorem StreamInv.publish (hi : StreamInv s) (hstep : s.publish = some s') :
    StreamInv s' ∧ Effect s .publish s' := by
  unfold StreamState.publish at hstep
  split at hstep
  · rename_i data hconsumer
    exact hi.effect_put rfl (by rw [hconsumer]; exact fun h => nomatch h)
      (by rw [hconsumer]; rfl) hstep
  · cases hstep

theorem StreamInv.item (hi : StreamInv s) {data : α} (hstep : s.item data = some s') :
    StreamInv s' ∧ Effect s (.item data) s' := by
  unfold StreamState.item at hstep
  split at hstep
  · rename_i hkind hconsumer
    exact hi.effect_put rfl (by rw [hconsumer]; exact fun h => nomatch h)
      (by rw [hconsumer]; rfl) hstep
  · cases hstep

/-- A step of the consumer before it signals anything. -/
theorem StreamInv.advance (hi : StreamInv s) {e : StreamEvent α} {old consumer : ConsumerPhase α}
    (hconsumer : s.consumer = old) (hstarted : old ≠ .pending)
    (hsignal : consumer.signal s.kind = old.signal s.kind) (hdisagrees : s.disagrees e = false) :
    StreamInv { s with consumer := consumer } ∧ Effect s e { s with consumer := consumer } := by
  refine ⟨hi.consume (hconsumer ▸ hstarted) ?_ ⟨rfl, rfl⟩, effect_of_kept rfl hdisagrees rfl⟩
  rw [hsignal, ← hconsumer]
  exact hi.signal

/-- **Step lemma of a stream.** -/
theorem StreamInv.step (hi : StreamInv s) {e : StreamEvent α} (hstep : s.step e = some s') :
    StreamInv s' ∧ Effect s e s' := by
  cases e with
  | start =>
    simp only [StreamState.step] at hstep
    split at hstep
    · rename_i hroot
      cases hstep
      refine ⟨hi.move (by rw [hroot]; exact fun h => nomatch h) rfl
        (fun _ => hi.pending (Or.inl hroot)) ?_, effect_of_kept rfl rfl rfl⟩
      rintro (h | ⟨error, h⟩)
      · cases h
      · cases h
    · cases hstep
  | startFails error =>
    simp only [StreamState.step] at hstep
    split at hstep
    · rename_i hroot
      cases hstep
      refine ⟨hi.finish _, hi.effect_before (Or.inl hroot) rfl ?_ fun _ h => nomatch h⟩
      rintro ⟨error, -, hsignal⟩
      cases hsignal
    · cases hstep
  | grantPermit =>
    simp only [StreamState.step] at hstep
    split at hstep
    · rename_i hroot
      cases hstep
      have hpending := hi.pending (Or.inr (Or.inl hroot))
      refine ⟨hi.move (by rw [hroot]; exact fun h => nomatch h) ?_ ?_ ?_,
        effect_of_kept rfl rfl rfl⟩
      · rw [hpending]
        split
        · rfl
        · rfl
      · rintro (h | h | ⟨-, hkind⟩)
        · cases h
        · cases h
        · rw [if_neg (by rw [show s.kind = .sync from hkind]; exact fun h => nomatch h)]
          exact hpending
      · rintro (h | ⟨error, h⟩)
        · cases h
        · cases h
    · cases hstep
  | cancelAdmission error =>
    simp only [StreamState.step] at hstep
    split at hstep
    · rename_i hroot
      cases hstep
      exact ⟨hi.finish _, hi.effect_before (Or.inr (Or.inl hroot.1)) rfl (fun h => nomatch h)
        fun _ h => nomatch h⟩
    · cases hstep
  | accept =>
    simp only [StreamState.step] at hstep
    split at hstep
    · rename_i hroot
      cases hstep
      have hpending := hi.pending (Or.inr (Or.inr ⟨hroot.2, hroot.1⟩))
      refine ⟨hi.move (by rw [hroot.2]; exact fun h => nomatch h) ?_ ?_ fun _ => hroot.1,
        effect_of_kept rfl rfl rfl⟩
      · rw [hpending]
        rfl
      · rintro (h | h | ⟨h, -⟩)
        · cases h
        · cases h
        · cases h
    · cases hstep
  | refuse error =>
    simp only [StreamState.step] at hstep
    split at hstep
    · rename_i hroot
      cases hstep
      exact ⟨hi.finish _, hi.effect_before (Or.inr (Or.inr ⟨hroot.2, hroot.1⟩)) rfl
        (fits_of_unset _) (ofException_ne_result _)⟩
    · cases hstep
  | deliver => exact hi.effect_deliver hstep
  | createSource =>
    simp only [StreamState.step] at hstep
    split at hstep
    · rename_i hconsumer
      cases hstep
      exact hi.advance hconsumer (fun h => nomatch h) rfl rfl
    · cases hstep
  | createSourceFails error =>
    simp only [StreamState.step] at hstep
    split at hstep
    · rename_i hconsumer
      cases hstep
      exact hi.advance hconsumer (fun h => nomatch h) rfl rfl
    · cases hstep
  | checkStop =>
    simp only [StreamState.step, StreamState.checkStop] at hstep
    split at hstep
    · rename_i hconsumer
      split at hstep
      · cases hstep
        obtain ⟨hclosed, hfailure⟩ := hi.unset (by rw [hconsumer]; rfl)
        have hclose := tunnel_close hclosed hfailure
        refine ⟨hi.consume (by rw [hconsumer]; exact fun h => nomatch h) ?_ ?_,
          Or.inl ⟨rfl, rfl, fun hterminal => (Tunnel.of_terminal hterminal).2.1⟩⟩
        · rw [hclose]
          exact congrArg (TunnelSignal.mk true) hfailure
        · rw [hclose]
          exact ⟨rfl, rfl⟩
      · cases hstep
        exact hi.advance hconsumer (fun h => nomatch h) rfl rfl
    · cases hstep
  | nextItem | checkItem data =>
    simp only [StreamState.step, StreamState.nextItem, StreamState.checkItem] at hstep
    split at hstep
    · rename_i hkind hconsumer
      cases hstep
      refine hi.advance hconsumer (fun h => nomatch h) ?_ rfl
      split
      · rfl
      · rfl
    · cases hstep
  | publish => exact hi.publish hstep
  | item data => exact hi.item hstep
  | exhausted =>
    simp only [StreamState.step, StreamState.exhausted] at hstep
    split at hstep
    · rename_i hkind hconsumer
      cases hstep
      exact hi.advance hconsumer (fun h => nomatch h) rfl rfl
    · rename_i hkind hconsumer
      cases hstep
      exact hi.advance hconsumer (fun h => nomatch h) rfl rfl
    · cases hstep
  | sourceRaises error =>
    refine ⟨hi.sourceRaises hstep, ?_⟩
    simp only [StreamState.step, StreamState.sourceRaises] at hstep
    split at hstep
    · cases hstep
      refine Or.inl ⟨rfl, rfl, fun hterminal => ?_⟩
      dsimp only
      split
      · exact (Tunnel.of_terminal hterminal).2.1
      · exact (Tunnel.of_terminal hterminal).2.2 error
    · cases hstep
      exact Or.inl ⟨rfl, rfl, fun hterminal => (Tunnel.of_terminal hterminal).2.2 error⟩
    · cases hstep
      exact Or.inl ⟨rfl, rfl, fun hterminal => (Tunnel.of_terminal hterminal).2.2 error⟩
    · cases hstep
  | closeSource =>
    refine ⟨hi.closeSource hstep, ?_⟩
    simp only [StreamState.step, StreamState.closeSource] at hstep
    split at hstep
    · cases hstep
      exact Or.inl ⟨rfl, rfl, fun hterminal => (Tunnel.of_terminal hterminal).2.1⟩
    · cases hstep
      exact effect_of_kept rfl rfl rfl
    · cases hstep
  | lookupFails error =>
    refine ⟨hi.lookupFails hstep, ?_⟩
    simp only [StreamState.step, StreamState.lookupFails] at hstep
    split at hstep
    · cases hstep
      exact effect_of_kept rfl rfl rfl
    · cases hstep
  | closeFails error =>
    refine ⟨hi.closeFails hstep, ?_⟩
    simp only [StreamState.step, StreamState.closeFails] at hstep
    split at hstep
    · cases hstep
      exact Or.inl ⟨rfl, rfl, fun hterminal => (Tunnel.of_terminal hterminal).2.2 error⟩
    · cases hstep
  | cancel error =>
    simp only [StreamState.step] at hstep
    split at hstep
    · split at hstep
      · rename_i hroot
        cases hstep
        refine ⟨hi.move (by rw [hroot]; exact fun h => nomatch h) rfl ?_
          (fun _ => hi.sync (Or.inl hroot)), effect_of_kept rfl ?_ rfl⟩
        · rintro (h | h | ⟨h, -⟩)
          · cases h
          · cases h
          · cases h
        · simp [disagrees, hroot]
      · rename_i cancellation hroot
        cases hstep
        refine ⟨hi.finish _, Or.inr ⟨hi.outcome_eq_none ?_, _, rfl, ?_, fun _ h => nomatch h⟩⟩
        · rw [hroot]
          exact fun h => nomatch h
        · change s.tunnelSignal = ⟨true, none⟩ ↔ _
          simp only [disagrees, hroot, Bool.not_eq_false', tunnelSignal, TunnelSignal.mk.injEq]
          exact ⟨fun h => h.1, fun hclosed => ⟨hclosed, hi.failure_of_closed hclosed⟩⟩
      · cases hstep
    · cases hstep
  | stop =>
    cases hstep
    exact ⟨⟨hi.signal, hi.history, hi.pending, hi.sync, hi.outcome⟩, effect_of_kept rfl rfl rfl⟩

/-! ## 4. The two views -/

theorem agrees_iff {outcome : StreamOutcome α} (houtcome : s.outcome = some outcome) :
    s.Agrees ↔ s.tunnelSignal.fits outcome ∧
      ∀ values, outcome = .result values → s.tunnel.items = values := by
  unfold Agrees
  rw [houtcome]
  cases outcome with
  | result values => simp [TunnelSignal.fits, tunnelSignal, and_assoc]
  | exception exception => simp [TunnelSignal.fits, tunnelSignal]
  | cancelled => simp [TunnelSignal.fits, tunnelSignal]

theorem terminal_of_agrees {outcome : StreamOutcome α} (houtcome : s.outcome = some outcome)
    (h : s.Agrees) : s.tunnel.terminal = true := by
  unfold Agrees at h
  rw [houtcome] at h
  cases outcome with
  | result values => simp [Tunnel.terminal, h.1]
  | exception exception =>
    obtain ⟨error, -, -, hfailure⟩ := h
    simp [Tunnel.terminal, hfailure]
  | cancelled => simp [Tunnel.terminal, h.1]

/-- An outcome that agrees stays so, and a new one agrees unless its step disagrees. -/
theorem Effect.agrees {e : StreamEvent α} (he : Effect s e s') (h : s.Agrees)
    (hok : s.disagrees e = false) : s'.Agrees := by
  rcases he with ⟨houtcome, -, htunnel⟩ | ⟨-, outcome, rfl, hfits, hitems⟩
  · cases hsome : s.outcome with
    | none =>
      rw [hsome] at houtcome
      unfold Agrees
      rw [houtcome]
      trivial
    | some outcome =>
      have hkept := htunnel (terminal_of_agrees hsome h)
      unfold Agrees at h ⊢
      rw [houtcome, hkept]
      exact h
  · exact (agrees_iff rfl).mpr ⟨hfits.mpr hok, hitems⟩

theorem Effect.not_agrees {e : StreamEvent α} (he : Effect s e s')
    (hdisagrees : s.disagrees e = true) : ¬ s'.Agrees := by
  rcases he with ⟨-, hok, -⟩ | ⟨-, outcome, rfl, hfits, -⟩
  · rw [hok] at hdisagrees
    cases hdisagrees
  · intro h
    have hok := hfits.mp ((agrees_iff rfl).mp h).1
    rw [hok] at hdisagrees
    cases hdisagrees

/-- The end of the stream for a reader. -/
def readEnd : StreamOutcome α → ReadOutcome α SourceError
  | .exception (.raised error) => .failed error
  | _ => .eof

/-- A reader of a finished stream does not wait: it gets the published items, and then the end
    of the body. -/
def ReadersSee (s : StreamState α) : Prop :=
  ∀ outcome, s.outcome = some outcome → ∀ sub : TunnelSubscription, sub.terminated = false →
    ∃ sub', s.tunnel.look sub = some (match s.tunnel.items[sub.cursor]? with
      | some item => .item item
      | none => readEnd outcome, sub')

theorem StreamInv.readersSee (hi : StreamInv s) (h : s.Agrees) : s.ReadersSee := by
  intro outcome houtcome sub hlive
  unfold Tunnel.look
  rw [if_neg (Bool.eq_false_iff.mp hlive), hi.history.2, if_neg (Nat.not_lt_zero _), Nat.sub_zero]
  unfold Agrees at h
  rw [houtcome] at h
  cases s.tunnel.items[sub.cursor]? with
  | some item => exact ⟨_, rfl⟩
  | none =>
    cases outcome with
    | result values =>
      rw [h.1, h.2.1]
      exact ⟨_, rfl⟩
    | exception exception =>
      obtain ⟨error, rfl, -, hfailure⟩ := h
      rw [hfailure]
      exact ⟨_, rfl⟩
    | cancelled =>
      rw [h.1, h.2]
      exact ⟨_, rfl⟩

theorem reachable_streamInv {kind : SourceKind} {onCarrier : Bool} {timeout : Option Int}
    (hreach : (streamSystem α kind onCarrier timeout).Reachable s) : StreamInv s :=
  hreach.invariant (fun _ hinit => streamInv_initial hinit)
    fun _ _ _ hi _ hstep => (hi.step hstep).1

theorem reachUnder_agrees {kind : SourceKind} {onCarrier : Bool} {timeout : Option Int}
    (hreach : (streamSystem α kind onCarrier timeout).ReachUnder
      (fun s e => s.disagrees e = false) s) : s.Agrees := by
  refine hreach.invariant_of (fun s hreach => reachable_streamInv hreach.reachable)
    (fun s hinit => ?_) fun s e s' hi h hok hstep => (hi.step hstep).2.agrees h hok
  rw [show s = _ from hinit]
  trivial

/-- **The two views of a stream.**  In every run without a disagreeing step the tunnel agrees
    with the body outcome, and so do its readers; after a disagreeing step it does not. -/
theorem stream_views_agree_iff :
    (∀ kind onCarrier timeout (s : StreamState α),
      (streamSystem α kind onCarrier timeout).ReachUnder (fun s e => s.disagrees e = false) s →
        s.Agrees ∧ s.ReadersSee) ∧
    ∀ kind onCarrier timeout (s s' : StreamState α) e,
      (streamSystem α kind onCarrier timeout).Reachable s → s.disagrees e = true →
        s.step e = some s' → ¬ s'.Agrees := by
  constructor
  · intro kind onCarrier timeout s hreach
    have hagrees := reachUnder_agrees hreach
    exact ⟨hagrees, (reachable_streamInv hreach.reachable).readersSee hagrees⟩
  · intro kind onCarrier timeout s s' e hreach hdisagrees hstep
    exact ((reachable_streamInv hreach).step hstep).2.not_agrees hdisagrees

/-- The stream is cancelled while its root waits for a permit. -/
def cancelledAdmissionRun : List (StreamEvent Nat) := [.start, .cancelAdmission (.cancelled 0)]

theorem cancelled_admission_leaves_tunnel_open :
    ∃ s, (streamSystem Nat .async false (some 10)).run {
        kind := .async
        onCarrier := false
        tunnel := ⟨[], 0, 0, false, none, some 10, none⟩ } cancelledAdmissionRun = some s ∧
      (streamSystem Nat .async false (some 10)).Reachable s ∧ s.outcome = some .cancelled ∧
      s.tunnel.terminal = false ∧ s.tunnel.look ⟨some 10, 0, false⟩ = none ∧ ¬ s.Agrees := by
  have hend : ((streamSystem Nat .async false (some 10)).run {
      kind := .async
      onCarrier := false
      tunnel := ⟨[], 0, 0, false, none, some 10, none⟩ } cancelledAdmissionRun).any (fun s =>
        decide (s.outcome = some .cancelled ∧ s.tunnel.terminal = false ∧
          s.tunnel.look ⟨some 10, 0, false⟩ = none)) = true := by
    decide
  obtain ⟨s, hrun, hs⟩ := (Option.any_eq_true _ _).mp hend
  obtain ⟨houtcome, hopen, hlook⟩ := of_decide_eq_true hs
  refine ⟨s, hrun, System.reachable_of_run cancelledAdmissionRun rfl hrun, houtcome, hopen, hlook,
    fun h => ?_⟩
  rw [terminal_of_agrees houtcome h] at hopen
  cases hopen

end StreamState

end AgentlyStage
