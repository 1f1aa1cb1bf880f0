import AgentlyStage.StreamClosing

/-!
# A stream that is closed comes to its end

After the first call of `close` the root, its consumer and the calls have only so many steps
left, and no run of theirs stops before every call has its result, with three exceptions.  A root
whose task was cancelled before its first step leaves its handle unsettled.  A sync call on the
thread of the owner loop is refused only when the handle knows that loop; before that it waits
for a task that the loop cannot run.  And a loop that is closed before the handle has settled
leaves the calls that wait without a timeout, and those made on it, where they are.
-/

namespace AgentlyStage

open Transition

/-! ## 1. The steps left -/

def StreamClosePhase.stepsLeft : StreamClosePhase → Nat
  | .starting => 3
  | .cancelling => 2
  | .waiting => 1
  | .over _ => 0

def StreamCloseCall.stepsLeft (call : StreamCloseCall) : Nat := call.phase.stepsLeft

/-- The calls, the root and its consumer go on; nobody else calls, cancels or closes anything. -/
def ClosingStreamEvent.goesOn {α : Type} : ClosingStreamEvent α → Bool
  | .start _ | .startRaises _ | .cancel _ | .cancelRaises _ | .wait _ _ | .refuse _ | .timeout _
  | .abandon _ | .createTask | .stream _ | .settle => true
  | .ensureStarted _ | .close _ _ _ | .requestCancel | .cancelSubmitter | .closeLoop => false

namespace ClosingStream

variable {α : Type} {s s' : ClosingStream α} {i : Nat} {call : StreamCloseCall}

/-- A bound on the steps of a closed stream. -/
def remaining (s : ClosingStream α) : Nat :=
  total StreamCloseCall.stepsLeft s.calls + (!s.created).toNat + (!s.settled).toNat +
    s.stream.root.stepsLeft + s.stream.consumer.stepsLeft

theorem remaining_setPhase (hget : s.calls[i]? = some call) {phase : StreamClosePhase}
    (hless : phase.stepsLeft < call.phase.stepsLeft) :
    (s.setPhase i call phase).remaining < s.remaining := by
  have hset := @total_set _ StreamCloseCall.stepsLeft _ _ _ { call with phase := phase } hget
  change _ + call.phase.stepsLeft = _ + phase.stepsLeft at hset
  simp only [remaining, ClosingStream.setPhase]
  omega

theorem ClosingInv.remaining_ensureStarted (hi : ClosingInv s) (onOwnerLoop : Bool) :
    (s.ensureStarted onOwnerLoop).remaining ≤ s.remaining ∧
      (s.ensureStarted onOwnerLoop).calls = s.calls := by
  unfold ClosingStream.ensureStarted
  split
  · exact ⟨Nat.le_refl _, rfl⟩
  · rename_i hstopped
    have hcreated : s.created = false := by
      by_contra h
      exact hstopped (hi.created (by simpa using h))
    have hle := Bool.toNat_le (!(onOwnerLoop && !s.stream.onCarrier))
    refine ⟨?_, rfl⟩
    simp only [remaining, ClosingStream.begin, hcreated, Bool.not_false, Bool.toNat_true]
    omega

theorem remaining_requestCancel :
    s.requestCancel.remaining = s.remaining ∧ s.requestCancel.calls = s.calls := by
  unfold ClosingStream.requestCancel
  split <;> exact ⟨rfl, rfl⟩

/-- Every step of a call brings it nearer to its end. -/
theorem ClosingInv.remaining_callStep (hi : ClosingInv s) (hget : s.calls[i]? = some call)
    {e : ClosingStreamEvent α} (hstep : s.callStep i call e = some s') :
    s'.remaining < s.remaining := by
  cases e with
  | start k =>
    simp only [ClosingStream.callStep] at hstep
    split at hstep
    · rename_i hphase
      cases hstep
      obtain ⟨hle, hcalls⟩ := hi.remaining_ensureStarted call.onOwnerLoop
      refine Nat.lt_of_lt_of_le (remaining_setPhase (hcalls ▸ hget) ?_) hle
      rw [hphase]
      split <;> simp [StreamClosePhase.stepsLeft]
    · cases hstep
  | cancel k =>
    simp only [ClosingStream.callStep] at hstep
    split at hstep
    · rename_i hphase
      cases hstep
      obtain ⟨heq, hcalls⟩ := @remaining_requestCancel _ s
      rw [← heq]
      have hless : StreamClosePhase.waiting.stepsLeft < call.phase.stepsLeft := by
        simp [hphase.1, StreamClosePhase.stepsLeft]
      exact remaining_setPhase (s := s.requestCancel) (hcalls ▸ hget) hless
    · cases hstep
  | cancelRaises k =>
    simp only [ClosingStream.callStep] at hstep
    split at hstep
    · rename_i hphase
      cases hstep
      obtain ⟨heq, hcalls⟩ := @remaining_requestCancel _ s
      rw [← heq]
      apply remaining_setPhase (s := s.requestCancel) (hcalls ▸ hget)
      rw [hphase.1]
      simp [StreamClosePhase.stepsLeft]
    · cases hstep
  | startRaises k | wait k failed | refuse k | timeout k | abandon k =>
    simp only [ClosingStream.callStep] at hstep
    split at hstep
    · rename_i hphase
      cases hstep
      apply remaining_setPhase hget
      rw [hphase.1]
      simp [StreamClosePhase.stepsLeft]
    · cases hstep
  | ensureStarted | close | requestCancel | cancelSubmitter | createTask | stream | closeLoop
  | settle => cases hstep

/-- And so does every step of the root and its consumer once the source has been stopped. -/
theorem ClosingInv.remaining_streamStep (hi : ClosingInv s) (hclosed : s.closed = true)
    {e : StreamEvent α} (hstep : s.streamStep e = some s') : s'.remaining < s.remaining := by
  obtain ⟨stream, hstream, rfl, hne, -⟩ := streamStep_eq hstep
  have hroot := hi.root.step hstream
  have hconsumer := (hi.stream.consumed hstream).stepsLeft (hi.sourceStop.trans hclosed)
  simp only [remaining]
  cases hconsumes : e.consumes with
  | true =>
    rw [hconsumes, Bool.toNat_true] at hconsumer
    rw [hroot.kept hconsumes]
    omega
  | false =>
    have hless := hroot.decreases hconsumes hne
    omega

/-- **What goes on comes nearer to its end.** -/
theorem ClosingInv.remaining_step (hi : ClosingInv s) (hclosed : s.closed = true)
    {e : ClosingStreamEvent α} (hgoes : e.goesOn = true) (hstep : s.step e = some s') :
    s'.remaining < s.remaining := by
  cases e with
  | start i | startRaises i | cancel i | cancelRaises i | wait i _ | refuse i | timeout i
  | abandon i =>
    obtain ⟨call, hget, hcall⟩ := callStep_of_bind hstep
    exact hi.remaining_callStep hget hcall
  | createTask =>
    simp only [ClosingStream.step] at hstep
    split at hstep
    · rename_i hguard
      cases hstep
      simp [remaining, hguard.2.1]
    · cases hstep
  | stream event => exact hi.remaining_streamStep hclosed hstep
  | settle =>
    simp only [ClosingStream.step] at hstep
    split at hstep
    · rename_i hguard
      cases hstep
      simp [remaining, hguard.2.1]
    · cases hstep
  | ensureStarted | close | requestCancel | cancelSubmitter | closeLoop => cases hgoes

/-! ## 2. Where nothing goes on -/

/-- No step of the calls, the root and its consumer is left. -/
def Idle (s : ClosingStream α) : Prop :=
  ∀ e : ClosingStreamEvent α, e.goesOn = true → s.step e = none

/-- The call waits, without a timeout, on the thread of an owner loop that the handle does not
    know yet, and nobody else runs the root. -/
structure DeadlockedAt (s : ClosingStream α) (i : Nat) : Prop where
  waits : ∃ call, s.calls[i]? = some call ∧ call.phase = .waiting ∧ call.isAsync = false ∧
    call.onOwnerLoop = true ∧ call.hasTimeout = false
  posted : s.stream.root = .posted
  unknown : s.ownerKnown = false

/-- The loop has been closed under the call, which was made on it, or waits for a handle that has
    not settled. -/
structure StrandedAt (s : ClosingStream α) (i : Nat) : Prop where
  closed : s.loopClosed = true
  waits : ∃ call, s.calls[i]? = some call ∧ call.isOver = false ∧ (call.onOwnerLoop = true ∨
    call.phase = .waiting ∧ call.isAsync = false ∧ call.hasTimeout = false ∧ s.settled = false)

theorem Idle.not_isSome (hidle : s.Idle) {e : ClosingStreamEvent α} (hgoes : e.goesOn = true) :
    (s.step e).isSome = false := by
  rw [hidle e hgoes]
  rfl

theorem Idle.callStep (hidle : s.Idle) {e : ClosingStreamEvent α} (hgoes : e.goesOn = true)
    (hget : s.calls[i]? = some call) (hruns : (s.loopClosed && call.onOwnerLoop) = false)
    (hstep : s.step e = (s.calls[i]?).bind fun call => s.callRuns i call e) :
    s.callStep i call e = none := by
  have hnone := hidle e hgoes
  rw [hstep, hget, Option.bind_some, callRuns, if_neg (Bool.eq_false_iff.mp hruns)] at hnone
  exact hnone

/-- A call that is not over, and whose loop runs, waits for the handle. -/
theorem Idle.waiting (hidle : s.Idle) (hmem : call ∈ s.calls) (hover : call.isOver = false)
    (hruns : (s.loopClosed && call.onOwnerLoop) = false) :
    call.phase = .waiting ∧ call.isAsync = false ∧ call.hasTimeout = false ∧ s.settled = false ∧
      (call.onOwnerLoop = true → s.ownerKnown = false) := by
  obtain ⟨i, hget⟩ := List.mem_iff_getElem?.mp hmem
  have hstart := hidle.callStep (e := .start i) rfl hget hruns rfl
  have hcancel := hidle.callStep (e := .cancel i) rfl hget hruns rfl
  have hraises := hidle.callStep (e := .cancelRaises i) rfl hget hruns rfl
  have hwait := hidle.callStep (e := .wait i false) rfl hget hruns rfl
  have htimeout := hidle.callStep (e := .timeout i) rfl hget hruns rfl
  have habandon := hidle.callStep (e := .abandon i) rfl hget hruns rfl
  have hrefuse := hidle.callStep (e := .refuse i) rfl hget hruns rfl
  simp only [ClosingStream.callStep, ite_eq_right_iff, reduceCtorEq, imp_false, not_and, not_or,
    Bool.not_eq_true, Bool.not_eq_false] at hstart hcancel hraises hwait htimeout habandon hrefuse
  have hphase : call.phase = .waiting := by
    cases h : call.phase with
    | starting => exact absurd h hstart
    | cancelling =>
      -- `cancel` returns or raises
      obtain ⟨hclosed, hknown, -⟩ := hcancel h
      exact absurd hknown (by rw [hraises h hclosed]; exact Bool.false_ne_true)
    | waiting => rfl
    | _ => simp [StreamCloseCall.isOver, h] at hover
  exact ⟨hphase, habandon hphase, htimeout hphase, hwait hphase,
    hrefuse hphase (hwait hphase) (habandon hphase)⟩

theorem ClosingInv.deadlocked (hi : ClosingInv s) (hidle : s.Idle) (hopen : s.loopClosed = false)
    (hblocked : s.blocked = true) : ∃ i, s.DeadlockedAt i := by
  obtain ⟨call, hmem, hblocks⟩ := List.any_eq_true.mp hblocked
  simp only [StreamCloseCall.blocks, Bool.and_eq_true, Bool.not_eq_true'] at hblocks
  obtain ⟨⟨-, howner⟩, hover⟩ := hblocks
  obtain ⟨hphase, hasync, htimeout, hsettled, hknown⟩ :=
    hidle.waiting hmem hover (by rw [hopen]; rfl)
  obtain ⟨i, hget⟩ := List.mem_iff_getElem?.mp hmem
  have hunknown := hknown howner
  refine ⟨i, ⟨call, hget, hphase, hasync, howner, htimeout⟩, ?_, hunknown⟩
  -- a start that has failed is settled
  have hnone := hidle.not_isSome (e := .settle) rfl
  have hover : s.stream.root ≠ .over := by
    intro h
    simp [ClosingStream.step, h, hsettled, hopen] at hnone
  by_contra hposted
  cases hcarrier : s.stream.onCarrier with
  | true => simp [ownerKnown, hcarrier, hposted] at hunknown
  | false =>
    have hcreated : s.created = false := by simpa [ownerKnown, hcarrier] using hunknown
    exact (hi.posted hcreated).elim hposted hover

theorem mayBegin_of_goesOn {e : StreamEvent α} (hbegins : e.beginsRoot = false) :
    s.mayBegin e = true := by
  cases e <;> first
    | rfl
    | cases hbegins

/-- A root that nothing keeps from running is over. -/
theorem ClosingInv.root_over (hi : ClosingInv s) (hidle : s.Idle) (hstarted : s.started = true)
    (hlost : s.lost = false) (hfree : s.blocked = false) (hopen : s.loopClosed = false) :
    s.stream.root = .over := by
  have hcanRun : ∀ e, s.canRun e = true := fun e => by simp [canRun, hfree, hopen]
  by_contra hover
  by_cases hposted : s.stream.root = .posted
  · cases hcreated : s.created with
    | false =>
      have hnone := hidle.not_isSome (e := .createTask) rfl
      simp [ClosingStream.step, hstarted, hcreated, hposted, hfree, hopen] at hnone
    | true =>
      have hnone := hidle.not_isSome (e := .stream .start) rfl
      simp [ClosingStream.step, ClosingStream.streamStep, mayBegin, hcanRun, hcreated, hlost,
        StreamState.step, hposted] at hnone
  · obtain ⟨e, hbegins, hsome⟩ := hi.root.goesOn hi.stream hposted hover
    have hnone := hidle.not_isSome (e := .stream e) rfl
    simp [ClosingStream.step, ClosingStream.streamStep, mayBegin_of_goesOn hbegins, hcanRun,
      hsome] at hnone

/-- On a closed loop a call that is not over is stranded. -/
theorem Idle.stranded (hidle : s.Idle) (hclosed : s.loopClosed = true) (hmem : call ∈ s.calls)
    (hover : call.isOver = false) : ∃ i, s.StrandedAt i := by
  obtain ⟨i, hget⟩ := List.mem_iff_getElem?.mp hmem
  refine ⟨i, hclosed, call, hget, hover, ?_⟩
  by_cases howner : call.onOwnerLoop = true
  · exact Or.inl howner
  · obtain ⟨hphase, hasync, htimeout, hsettled, -⟩ :=
      hidle.waiting hmem hover (by rw [Bool.eq_false_iff.mpr howner, Bool.and_false])
    exact Or.inr ⟨hphase, hasync, htimeout, hsettled⟩

/-- **Where nothing goes on** every call has its result, unless the root was lost, a call keeps
    its own loop from running it, or the loop has been closed. -/
theorem ClosingInv.ended (hi : ClosingInv s) (hidle : s.Idle) :
    (∀ call ∈ s.calls, call.isOver = true) ∨ s.lost = true ∨ (∃ i, s.DeadlockedAt i) ∨
      ∃ i, s.StrandedAt i := by
  by_cases hcalls : ∀ call ∈ s.calls, call.isOver = true
  · exact Or.inl hcalls
  · push Not at hcalls
    obtain ⟨call, hmem, hover⟩ := hcalls
    have hover : call.isOver = false := by simpa using hover
    by_cases hopen : s.loopClosed = false
    · by_cases hblocked : s.blocked = true
      · exact Or.inr (Or.inr (Or.inl (hi.deadlocked hidle hopen hblocked)))
      · by_contra hnot
        have hlost : s.lost = false := by
          rw [Bool.eq_false_iff]
          exact fun h => hnot (Or.inr (Or.inl h))
        obtain ⟨hphase, -, -, hsettled, -⟩ := hidle.waiting hmem hover (by rw [hopen]; rfl)
        have hroot := hi.root_over hidle (hi.started call hmem (Or.inr hphase)) hlost
          (by simpa using hblocked) hopen
        have hnone := hidle.not_isSome (e := .settle) rfl
        simp [ClosingStream.step, hroot, hsettled, hopen] at hnone
    · exact Or.inr (Or.inr (Or.inr (hidle.stranded (by simpa using hopen) hmem hover)))

/-! ## 3. Neither ends -/

/-- Past its start a call changes its own phase and no more. -/
theorem callStep_calls {e : ClosingStreamEvent α} (hcall : s.callStep i call e = some s') :
    (∃ phase, s'.calls = s.calls.set i { call with phase := phase }) ∧
      (s.started = true → s'.created = s.created) ∧ s'.loopClosed = s.loopClosed ∧
        s'.settled = s.settled := by
  have hensured : (s.ensureStarted call.onOwnerLoop).calls = s.calls ∧
      (s.started = true → (s.ensureStarted call.onOwnerLoop).created = s.created) ∧
      (s.ensureStarted call.onOwnerLoop).loopClosed = s.loopClosed ∧
      (s.ensureStarted call.onOwnerLoop).settled = s.settled := by
    unfold ClosingStream.ensureStarted
    split
    · exact ⟨rfl, fun _ => rfl, rfl, rfl⟩
    · rename_i hstopped
      exact ⟨rfl, fun hstarted => absurd hstarted hstopped, rfl, rfl⟩
  have hrequested : s.requestCancel.calls = s.calls ∧ s.requestCancel.created = s.created ∧
      s.requestCancel.loopClosed = s.loopClosed ∧ s.requestCancel.settled = s.settled := by
    unfold ClosingStream.requestCancel
    split <;> exact ⟨rfl, rfl, rfl, rfl⟩
  cases e with
  | start k =>
    simp only [ClosingStream.callStep] at hcall
    split at hcall
    · cases hcall
      refine ⟨⟨if call.firstRequest then .cancelling else .waiting, ?_⟩, hensured.2⟩
      simp only [ClosingStream.setPhase, hensured.1]
    · cases hcall
  | cancel k =>
    simp only [ClosingStream.callStep] at hcall
    split at hcall
    · cases hcall
      refine ⟨⟨.waiting, ?_⟩, fun _ => hrequested.2.1, hrequested.2.2⟩
      simp only [ClosingStream.setPhase, hrequested.1]
    · cases hcall
  | cancelRaises k =>
    simp only [ClosingStream.callStep] at hcall
    split at hcall
    · cases hcall
      refine ⟨⟨.over .cancelRaised, ?_⟩, fun _ => hrequested.2.1, hrequested.2.2⟩
      simp only [ClosingStream.setPhase, hrequested.1]
    · cases hcall
  | startRaises k | wait k failed | refuse k | timeout k | abandon k =>
    simp only [ClosingStream.callStep] at hcall
    split at hcall
    · cases hcall
      exact ⟨⟨_, rfl⟩, fun _ => rfl, rfl, rfl⟩
    · cases hcall
  | ensureStarted | close | requestCancel | cancelSubmitter | createTask | stream | closeLoop
  | settle => cases hcall

namespace DeadlockedAt

theorem blocked (hd : s.DeadlockedAt i) : s.blocked = true := by
  obtain ⟨call, hget, hphase, hasync, howner, -⟩ := hd.waits
  refine List.any_eq_true.mpr ⟨call, List.mem_of_getElem? hget, ?_⟩
  simp [StreamCloseCall.blocks, StreamCloseCall.isOver, hphase, hasync, howner]

/-- What leaves the calls, the root and the creation of its task alone keeps a deadlock. -/
theorem of_kept (hd : s.DeadlockedAt i) (hcalls : s'.calls[i]? = s.calls[i]?)
    (hroot : s'.stream.root = s.stream.root) (hcarrier : s'.stream.onCarrier = s.stream.onCarrier)
    (hcreated : s'.created = s.created) : s'.DeadlockedAt i where
  waits := hcalls ▸ hd.waits
  posted := hroot.trans hd.posted
  unknown := by
    rw [ownerKnown, hroot, hcarrier, hcreated]
    exact hd.unknown

/-- No step of the call that waits is enabled. -/
theorem callStep (hd : s.DeadlockedAt i) (hi : ClosingInv s) (hget : s.calls[i]? = some call)
    (e : ClosingStreamEvent α) : s.callStep i call e = none := by
  obtain ⟨call', hget', hphase, hasync, -, htimeout⟩ := hd.waits
  obtain rfl : call = call' := Option.some.inj (hget.symm.trans hget')
  have hsettled : s.settled = false := by
    by_contra h
    have hover := hi.settled (by simpa using h)
    rw [hd.posted] at hover
    cases hover
  cases e <;>
    simp [ClosingStream.callStep, hphase, hasync, htimeout, hsettled, hd.unknown]

/-- **Step lemma of a deadlock.** -/
theorem step (hd : s.DeadlockedAt i) (hi : ClosingInv s) {e : ClosingStreamEvent α}
    (hstep : s.step e = some s') : s'.DeadlockedAt i := by
  obtain ⟨call, hget, hphase, -⟩ := hd.waits
  have hstarted := hi.started call (List.mem_of_getElem? hget) (Or.inr hphase)
  cases e with
  | ensureStarted onOwnerLoop =>
    cases hstep
    rw [show s.ensureStarted onOwnerLoop = s from if_pos hstarted]
    exact hd
  | close isAsync hasTimeout onOwnerLoop =>
    have hlt : i < s.calls.length := (List.getElem?_eq_some_iff.mp hget).1
    have hstream : (s.close isAsync hasTimeout onOwnerLoop).stream.root = s.stream.root ∧
        (s.close isAsync hasTimeout onOwnerLoop).stream.onCarrier = s.stream.onCarrier := by
      unfold ClosingStream.close
      dsimp only
      split <;> exact ⟨rfl, rfl⟩
    simp only [ClosingStream.step] at hstep
    split at hstep
    · cases hstep
    · cases hstep
      exact hd.of_kept (List.getElem?_append_left hlt) hstream.1 hstream.2 rfl
  | start k | startRaises k | cancel k | cancelRaises k | wait k _ | refuse k | timeout k
  | abandon k =>
    obtain ⟨other, hother, hcall⟩ := callStep_of_bind hstep
    by_cases hki : k = i
    · subst hki
      rw [hd.callStep hi hother] at hcall
      cases hcall
    · obtain ⟨⟨phase, hcalls⟩, hcreated, -⟩ := callStep_calls hcall
      have hstream := (callStep_frame hcall).1
      refine hd.of_kept ?_ (by rw [hstream]) (by rw [hstream]) (hcreated hstarted)
      rw [hcalls]
      exact List.getElem?_set_ne hki
  | requestCancel =>
    simp only [ClosingStream.step, hstarted, if_true] at hstep
    cases hstep
    unfold ClosingStream.requestCancel
    split <;> exact hd.of_kept rfl rfl rfl rfl
  | cancelSubmitter =>
    cases hstep
    exact hd.of_kept rfl rfl rfl rfl
  | createTask => simp [ClosingStream.step, hd.blocked] at hstep
  | stream event =>
    -- only a sync consumer runs, and the root stays as it is
    have hconsumes : event.consumes = true := by
      simp only [ClosingStream.step, ClosingStream.streamStep] at hstep
      split at hstep
      · rename_i hready
        have hrun := (Bool.and_eq_true_iff.mp hready).2
        simp only [canRun, hd.blocked, Bool.not_true, Bool.false_and, Bool.false_or,
          Bool.and_eq_true] at hrun
        exact hrun.2
      · cases hstep
    obtain ⟨stream, hstream, rfl, -⟩ := streamStep_eq hstep
    have hroot := hi.root.step hstream
    exact hd.of_kept rfl (hroot.kept hconsumes) hroot.frame.2.1 rfl
  | closeLoop => simp [ClosingStream.step, hd.blocked] at hstep
  | settle => simp [ClosingStream.step, hd.posted] at hstep

end DeadlockedAt

namespace StrandedAt

/-- What leaves the call, the closed loop and the settlement alone keeps it stranded. -/
theorem of_kept (hs : s.StrandedAt i) (hcalls : s'.calls[i]? = s.calls[i]?)
    (hclosed : s'.loopClosed = s.loopClosed) (hsettled : s'.settled = s.settled) :
    s'.StrandedAt i where
  closed := hclosed.trans hs.closed
  waits := by
    rw [hcalls, hsettled]
    exact hs.waits

/-- No step of a stranded call is enabled. -/
theorem callRuns (hs : s.StrandedAt i) (hget : s.calls[i]? = some call)
    (e : ClosingStreamEvent α) : s.callRuns i call e = none := by
  obtain ⟨call', hget', -, hwaits⟩ := hs.waits
  obtain rfl : call = call' := Option.some.inj (hget.symm.trans hget')
  unfold ClosingStream.callRuns
  cases howner : call.onOwnerLoop with
  | true => rw [hs.closed, Bool.and_self, if_pos rfl]
  | false =>
    obtain ⟨hphase, hasync, htimeout, hsettled⟩ :=
      hwaits.resolve_left (by rw [howner]; exact Bool.false_ne_true)
    rw [Bool.and_false, if_neg Bool.false_ne_true]
    cases e <;> simp [ClosingStream.callStep, hphase, hasync, htimeout, hsettled, howner]

/-- **Step lemma of a stranded call.** -/
theorem step (hs : s.StrandedAt i) {e : ClosingStreamEvent α} (hstep : s.step e = some s') :
    s'.StrandedAt i := by
  obtain ⟨call, hget, -⟩ := hs.waits
  cases e with
  | ensureStarted onOwnerLoop =>
    cases hstep
    unfold ClosingStream.ensureStarted
    split <;> exact hs.of_kept rfl rfl rfl
  | close isAsync hasTimeout onOwnerLoop =>
    have hlt : i < s.calls.length := (List.getElem?_eq_some_iff.mp hget).1
    simp only [ClosingStream.step] at hstep
    split at hstep
    · cases hstep
    · cases hstep
      exact hs.of_kept (List.getElem?_append_left hlt) rfl rfl
  | start k | startRaises k | cancel k | cancelRaises k | wait k _ | refuse k | timeout k
  | abandon k =>
    by_cases hki : k = i
    · subst hki
      simp [ClosingStream.step, hget, hs.callRuns hget] at hstep
    · obtain ⟨other, hother, hcall⟩ := callStep_of_bind hstep
      obtain ⟨⟨phase, hcalls⟩, -, hclosed, hsettled⟩ := callStep_calls hcall
      refine hs.of_kept ?_ hclosed hsettled
      rw [hcalls]
      exact List.getElem?_set_ne hki
  | requestCancel =>
    simp only [ClosingStream.step] at hstep
    split at hstep
    · cases hstep
      unfold ClosingStream.requestCancel
      split <;> exact hs.of_kept rfl rfl rfl
    · cases hstep
  | cancelSubmitter =>
    cases hstep
    exact hs.of_kept rfl rfl rfl
  | stream event =>
    obtain ⟨stream, -, rfl, -⟩ := streamStep_eq hstep
    exact hs.of_kept rfl rfl rfl
  | createTask | closeLoop | settle => simp [ClosingStream.step, hs.closed] at hstep

end StrandedAt

/-! ## 4. The end -/

/-- A stream that another thread has started is closed on the thread of its owner loop before the
    loop has made the task. -/
example : ((closingStreamSystem Nat .async false none).run
      { stream := {
          kind := .async
          onCarrier := false
          tunnel := ⟨[], 0, 0, false, none, none, none⟩ } }
      [.ensureStarted false, .close false false true, .start 0, .cancel 0]).map
        (fun s => (s.blocked, s.ownerKnown, s.stream.root)) = some (true, false, .posted) := by
  decide

/-- The loop of a stream is closed while its source runs: the first close raises, and a second one
    waits. -/
example : ((closingStreamSystem Nat .async false none).run
      { stream := {
          kind := .async
          onCarrier := false
          tunnel := ⟨[], 0, 0, false, none, none, none⟩ } }
      [.ensureStarted true, .stream .start, .stream .grantPermit, .stream .createSource,
        .stream .checkStop, .closeLoop, .close false false false, .start 0, .cancelRaises 0,
        .close false false false, .start 1]).map
        (fun s => (s.loopClosed, s.settled, s.calls.map StreamCloseCall.phase)) =
      some (true, false, [.over .cancelRaised, .waiting]) := by
  decide

end ClosingStream

end AgentlyStage
