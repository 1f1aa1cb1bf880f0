import AgentlyStage.SettlementBarrier

/-!
# Synchronous waits on the loop of a handle

`get` (and `result`), `exception`, `wait_settled` and `cancel` look at `_owner_loop` before they
block.  It is written with the owner task: by `start` on a caller loop, by the first step of
`_run_submission` on a carrier.  A call is one step: it runs on the thread of the loop, on which
the owner, `start` and the drains run too.
-/

namespace AgentlyStage

open Transition

/-! ## 1. The calls -/

/-- How a synchronous wait goes on. -/
inductive WaitResult where
  | raises (error : StageError)
  /-- It blocks its thread. -/
  | waits
  /-- The timeout is over at once. -/
  | timesOut
  /-- What the done future holds. -/
  | outcome
  | answers (cancelled : Bool)
deriving DecidableEq, Repr

/-- The four calls; a `timeout` that is not positive counts as zero. -/
inductive SyncWait where
  | get (timeout : Option Nat)
  | exception (timeout : Option Nat)
  | waitSettled (timeout : Option Nat)
  /-- `ownedBodyTasks`: a task that the body has created is still registered. -/
  | cancel (timeout : Option Nat) (ownedBodyTasks : Bool)
deriving DecidableEq, Repr

def SyncWait.timeout : SyncWait → Option Nat
  | .get timeout | .exception timeout | .waitSettled timeout | .cancel timeout _ => timeout

/-- All but a `cancel` that does not wait. -/
def SyncWait.Covered : SyncWait → Prop
  | .cancel timeout _ => timeout ≠ some 0
  | _ => True

/-- `Future.result` of a future that is done or not. -/
def futureResult (done : Bool) (timeout : Option Nat) : WaitResult :=
  if done then .outcome else if timeout = some 0 then .timesOut else .waits

/-- The steps of `start` and of the owner task, on the thread of the loop. -/
def HandleEvent.ofOwner {ρ ε : Type} : HandleEvent ρ ε → Bool
  | .setOwnerTask | .startFails _ | .completeBody _ | .startDrain | .startDrainFails _
  | .releaseOwner => true
  | _ => false

namespace StageHandle

variable {ρ ε : Type} (s : StageHandle ρ ε)

/-- `_ensure_not_owner_loop_sync_wait`, called on the thread of the loop `running`. -/
def ensureNotOwnerLoopSyncWait (running : Option Nat) (operation asyncOperation : String)
    (alreadyDone : Bool) : Except StageError Unit :=
  if alreadyDone then .ok ()
  else
    match running with
    | none => .ok ()
    | some loop =>
      if s.ownerLoop = some loop then
        .error (.stageLifecycle s!"Cannot call {operation}() while running on this StageHandle's caller-owned event loop; use {asyncOperation}()")
      else .ok ()

/-- `get`; `result` is the same call. -/
def get (running timeout : Option Nat) : WaitResult :=
  match s.ensureNotOwnerLoopSyncWait running "get" "async_get" s.bodyCompleted with
  | .error error => .raises error
  | .ok () => futureResult s.bodyCompleted timeout

/-- `exception`. -/
def exception (running timeout : Option Nat) : WaitResult :=
  match s.ensureNotOwnerLoopSyncWait running "exception" "await the StageHandle"
    s.bodyCompleted with
  | .error error => .raises error
  | .ok () => futureResult s.bodyCompleted timeout

/-- The number of the current settlement future, and whether a future is done. -/
def barrier : Nat := s.settlementFutures.length - 1

def futureDone (barrier : Nat) : Bool := s.settlementFutures[barrier]? == some true

/-- `wait_settled`. -/
def waitSettled (running timeout : Option Nat) : WaitResult :=
  match s.ensureNotOwnerLoopSyncWait running "wait_settled" "async_wait_settled"
    (s.futureDone s.barrier) with
  | .error error => .raises error
  | .ok () => futureResult (s.futureDone s.barrier) timeout

/-- `cancel`; the request itself is posted to the loop of the owner, if there is one. -/
def cancel (running timeout : Option Nat) (ownedBodyTasks : Bool) : WaitResult :=
  if s.bodyCompleted && !ownedBodyTasks then .answers false
  else
    let guard :=
      if timeout = some 0 then .ok ()
      else s.ensureNotOwnerLoopSyncWait running "cancel" "Stage.async_cancel_and_wait_settled"
        s.bodyCompleted
    match guard with
    | .error error => .raises error
    | .ok () =>
      match futureResult s.bodyCompleted timeout with
      | .waits => .waits
      | .timesOut => .answers false
      | _ => .answers true

/-- A call made on the thread of `running`. -/
def syncWait (running : Option Nat) : SyncWait → WaitResult
  | .get timeout => s.get running timeout
  | .exception timeout => s.exception running timeout
  | .waitSettled timeout => s.waitSettled running timeout
  | .cancel timeout ownedBodyTasks => s.cancel running timeout ownedBodyTasks

/-- What a call waits for is done: the barrier that it has sampled, or the body outcome. -/
def answered (barrier : Nat) : SyncWait → Bool
  | .waitSettled _ => s.futureDone barrier
  | _ => s.bodyCompleted

def RaisesLifecycle (result : WaitResult) : Prop :=
  ∃ message, result = .raises (.stageLifecycle message)

/-! ## 2. The guard -/

variable {s} {loop : Nat} {call : SyncWait}

theorem ensureNotOwnerLoopSyncWait_owner (howner : s.ownerLoop = some loop)
    (operation asyncOperation : String) : ∃ message,
      s.ensureNotOwnerLoopSyncWait (some loop) operation asyncOperation false =
        .error (.stageLifecycle message) :=
  ⟨_, if_pos howner⟩

theorem ensureNotOwnerLoopSyncWait_other (howner : s.ownerLoop = none)
    (operation asyncOperation : String) (alreadyDone : Bool) :
    s.ensureNotOwnerLoopSyncWait (some loop) operation asyncOperation alreadyDone = .ok () := by
  have hne : s.ownerLoop ≠ some loop := by simp [howner]
  cases alreadyDone with
  | true => rfl
  | false => exact if_neg hne

/-- Once the loop of the owner is recorded, the calls raise on it. -/
theorem syncWait_raises (howner : s.ownerLoop = some loop) (hopen : s.answered s.barrier call = false)
    (hcovered : call.Covered) : RaisesLifecycle (s.syncWait (some loop) call) := by
  cases call with
  | get timeout =>
    obtain ⟨message, hguard⟩ := ensureNotOwnerLoopSyncWait_owner howner "get" "async_get"
    refine ⟨message, ?_⟩
    change s.get _ _ = _
    rw [get, show s.bodyCompleted = false from hopen, hguard]
  | exception timeout =>
    obtain ⟨message, hguard⟩ :=
      ensureNotOwnerLoopSyncWait_owner howner "exception" "await the StageHandle"
    refine ⟨message, ?_⟩
    change s.exception _ _ = _
    rw [exception, show s.bodyCompleted = false from hopen, hguard]
  | waitSettled timeout =>
    obtain ⟨message, hguard⟩ :=
      ensureNotOwnerLoopSyncWait_owner howner "wait_settled" "async_wait_settled"
    refine ⟨message, ?_⟩
    change s.waitSettled _ _ = _
    rw [waitSettled, show s.futureDone s.barrier = false from hopen, hguard]
  | cancel timeout ownedBodyTasks =>
    obtain ⟨message, hguard⟩ :=
      ensureNotOwnerLoopSyncWait_owner howner "cancel" "Stage.async_cancel_and_wait_settled"
    refine ⟨message, ?_⟩
    change s.cancel _ _ _ = _
    rw [cancel, show s.bodyCompleted = false from hopen, hguard]
    simp only [Bool.false_and, Bool.false_eq_true, if_false]
    rw [if_neg hcovered]

/-- Until then they block, unless the timeout is zero. -/
theorem syncWait_waits (howner : s.ownerLoop = none) (hopen : s.answered s.barrier call = false) :
    ¬ RaisesLifecycle (s.syncWait (some loop) call) ∧
      (call.timeout ≠ some 0 → s.syncWait (some loop) call = .waits) := by
  have hother := @ensureNotOwnerLoopSyncWait_other ρ ε s loop howner
  have hresult : ∀ timeout : Option Nat,
      ¬ RaisesLifecycle (futureResult false timeout) ∧
        (timeout ≠ some 0 → futureResult false timeout = .waits) := by
    intro timeout
    by_cases hzero : timeout = some 0
    · subst hzero
      exact ⟨fun ⟨_, h⟩ => (nomatch h), fun h => absurd rfl h⟩
    · simp [futureResult, hzero, RaisesLifecycle]
  cases call with
  | get timeout =>
    change ¬ RaisesLifecycle (s.get _ _) ∧ (_ → s.get _ _ = _)
    rw [get, hother, show s.bodyCompleted = false from hopen]
    exact hresult timeout
  | exception timeout =>
    change ¬ RaisesLifecycle (s.exception _ _) ∧ (_ → s.exception _ _ = _)
    rw [exception, hother, show s.bodyCompleted = false from hopen]
    exact hresult timeout
  | waitSettled timeout =>
    change ¬ RaisesLifecycle (s.waitSettled _ _) ∧ (_ → s.waitSettled _ _ = _)
    rw [waitSettled, hother, show s.futureDone s.barrier = false from hopen]
    exact hresult timeout
  | cancel timeout ownedBodyTasks =>
    change ¬ RaisesLifecycle (s.cancel _ _ _) ∧ (timeout ≠ some 0 → s.cancel _ _ _ = _)
    rw [cancel, hother, show s.bodyCompleted = false from hopen]
    by_cases hzero : timeout = some 0
    · subst hzero
      exact ⟨fun ⟨_, h⟩ => (nomatch h), fun h => absurd rfl h⟩
    · simp [futureResult, hzero, RaisesLifecycle]

/-! ## 3. Before the owner task exists -/

/-- A handle without an owner task has nothing but its reservation. -/
structure Quiet (s : StageHandle ρ ε) : Prop where
  registration : s.registrationHolds = false
  drains : s.drains = []
  descendants : s.descendants = []

theorem Quiet.no_drain (hq : Quiet s) {i : Nat} {drain : DrainPhase} :
    s.drains[i]? ≠ some drain := by
  simp [hq.drains]

theorem Quiet.no_descendant (hq : Quiet s) {d : Nat} {phase : DescendantPhase} :
    s.descendants[d]? ≠ some phase := by
  simp [hq.descendants]

theorem Quiet.not_retained (hq : Quiet s) {callback : Callback}
    (hget : s.registering = some (callback, .retained)) : False := by
  have hholds := hq.registration
  rw [registrationHolds, hget] at hholds
  cases hholds

theorem Quiet.congr {s' : StageHandle ρ ε} (hq : Quiet s)
    (hregistering : s'.registering = s.registering) (hdrains : s'.drains = s.drains)
    (hdescendants : s'.descendants = s.descendants) : Quiet s' := by
  refine ⟨?_, hdrains.trans hq.drains, hdescendants.trans hq.descendants⟩
  rw [registrationHolds, hregistering]
  exact hq.registration

variable [DecidableEq ε] {s' : StageHandle ρ ε}

/-- **Step lemma before the owner task.**  Only `start` and the owner complete the body or move
    the owner of a visible handle. -/
theorem Quiet.step (hq : Quiet s) (htask : s.owner.hasTask = false) {e : HandleEvent ρ ε}
    (hstep : s.step loop e = some s') :
    Quiet s' ∧ (e.ofOwner = true ∨
      (s'.bodyCompleted = s.bodyCompleted ∧ (s'.owner = s.owner ∨ s.visible = false))) := by
  have hnot : ∀ phase : OwnerPhase, s.owner = phase → phase.hasTask = true → False := by
    rintro phase rfl h
    exact Bool.false_ne_true (htask.symm.trans h)
  cases e with
  | retain | submit =>
    obtain ⟨howner, rfl⟩ := when_eq_some.mp hstep
    exact ⟨hq.congr rfl rfl rfl, Or.inr ⟨rfl, Or.inr (by rw [visible, howner])⟩⟩
  | refuse =>
    obtain ⟨howner, rfl⟩ := when_eq_some.mp hstep
    rw [releaseWork_frame]
    exact ⟨hq.congr rfl rfl rfl, Or.inr ⟨rfl, Or.inr (by rw [visible, howner])⟩⟩
  | setOwnerTask =>
    obtain ⟨-, rfl⟩ := when_eq_some.mp hstep
    exact ⟨hq.congr rfl rfl rfl, Or.inl rfl⟩
  | startFails error =>
    obtain ⟨-, rfl⟩ := when_eq_some.mp hstep
    obtain ⟨_, _, _, _, heq, -⟩ := setBodyOutcome_frame s none (some error)
    rw [setBodyException, heq]
    exact ⟨hq.congr rfl rfl rfl, Or.inl rfl⟩
  | completeBody outcome =>
    cases outcome with
    | result value | exception error | cancelled error =>
      obtain ⟨howner, -⟩ := when_eq_some.mp hstep
      exact (hnot _ howner rfl).elim
  | startDrain | startDrainFails error =>
    obtain ⟨howner, -⟩ := when_eq_some.mp hstep
    exact (hnot _ howner rfl).elim
  | releaseOwner =>
    simp only [StageHandle.step] at hstep
    split at hstep
    · rename_i howner
      exact (hnot _ howner rfl).elim
    · cases hstep
      rw [releaseWork_frame]
      exact ⟨hq.congr rfl rfl rfl, Or.inl rfl⟩
    · cases hstep
  | register kind =>
    obtain ⟨⟨-, hfree⟩, rfl⟩ := when_eq_some.mp hstep
    rcases registerCallback_cases s kind with ⟨-, -, heq⟩ | ⟨-, heq⟩
    · rw [heq]
      exact ⟨⟨rfl, hq.drains, hq.descendants⟩, Or.inr ⟨rfl, Or.inl rfl⟩⟩
    · rw [heq]
      exact ⟨hq.congr rfl rfl rfl, Or.inr ⟨rfl, Or.inl rfl⟩⟩
  | retainDrain =>
    simp only [StageHandle.step] at hstep
    split at hstep
    · obtain ⟨howner, -⟩ := when_eq_some.mp hstep
      exact (hnot _ rfl howner).elim
    · cases hstep
  | submitDrain _ | submitDrainFails _ | refuseDrain =>
    simp only [StageHandle.step] at hstep
    split at hstep
    · rename_i hget
      exact (hq.not_retained hget).elim
    · cases hstep
  | rollBack =>
    simp only [StageHandle.step] at hstep
    split at hstep
    · cases hstep
      exact ⟨⟨rfl, hq.drains, hq.descendants⟩, Or.inr ⟨rfl, Or.inl rfl⟩⟩
    · cases hstep
      exact ⟨⟨rfl, hq.drains, hq.descendants⟩, Or.inr ⟨rfl, Or.inl rfl⟩⟩
    · cases hstep
  | createDrain i | createDrainFails i error | releaseDrain i =>
    obtain ⟨hget, -⟩ := when_eq_some.mp hstep
    exact (hq.no_drain hget).elim
  | drain i =>
    obtain ⟨hget, -⟩ := when_eq_some.mp hstep
    rcases hget with hget | hget
    · exact (hq.no_drain hget).elim
    · exact (hq.no_drain hget).elim
  | finishCallback i execution =>
    obtain ⟨entry, hget, -, -⟩ := finishCallback_of_step hstep
    exact (hq.no_drain hget).elim
  | callbackHangs i =>
    obtain ⟨entry, hget, -, -⟩ := callbackHangs_of_step hstep
    exact (hq.no_drain hget).elim
  | cancelDrain i error =>
    obtain ⟨entry, hget, -, -⟩ := cancelDrain_of_step hstep
    exact (hq.no_drain hget).elim
  | retainDescendant =>
    obtain ⟨howner, -⟩ := when_eq_some.mp hstep
    exact (hnot _ rfl howner).elim
  | endDescendant d | descendantDone d error =>
    obtain ⟨hget, -⟩ := when_eq_some.mp hstep
    exact (hq.no_descendant hget).elim
  | waitSettled =>
    obtain ⟨-, rfl⟩ := when_eq_some.mp hstep
    exact ⟨hq.congr rfl rfl rfl, Or.inr ⟨rfl, Or.inl rfl⟩⟩
  | waiterReturns w =>
    simp only [StageHandle.step] at hstep
    split at hstep
    · obtain ⟨-, rfl⟩ := when_eq_some.mp hstep
      exact ⟨hq.congr rfl rfl rfl, Or.inr ⟨rfl, Or.inl rfl⟩⟩
    · cases hstep

/-- What holds of a handle that is submitted to `loop`. -/
structure SubmissionInv (loop : Nat) (s : StageHandle ρ ε) : Prop where
  ownerLoop : s.ownerLoop = if s.owner.hasTask then some loop else none
  quiet : s.owner.hasTask = false → Quiet s
  pending : s.pendingWork = s.held
  futures : FuturesOk s

/-- The owner task is there to stay. -/
theorem hasTask_of_next {phase phase' : OwnerPhase} (hnext : phase.Next phase')
    (hne : phase' ≠ .body) : phase'.hasTask = phase.hasTask := by
  cases hnext with
  | setOwnerTask => exact absurd rfl hne
  | completeBody start =>
    cases start with
    | true => rfl
    | false => rfl
  | _ => rfl

theorem SubmissionInv.step (hi : SubmissionInv loop s) {e : HandleEvent ρ ε}
    (hstep : s.step loop e = some s') : SubmissionInv loop s' := by
  obtain ⟨hpending, hfutures, -⟩ := (step_work hstep).keeps hi.pending hi.futures
  rcases step_owner hstep with ⟨howner, hloop⟩ | ⟨hnext, ⟨hne, hloop⟩ | ⟨howner, hloop⟩⟩
  · refine ⟨by rw [howner, hloop, hi.ownerLoop], fun htask => ?_, hpending, hfutures⟩
    rw [howner] at htask
    exact ((hi.quiet htask).step htask hstep).1
  · have hsame := hasTask_of_next hnext hne
    refine ⟨by rw [hsame, hloop, hi.ownerLoop], fun htask => ?_, hpending, hfutures⟩
    rw [hsame] at htask
    exact ((hi.quiet htask).step htask hstep).1
  · refine ⟨by rw [howner, hloop]; rfl, fun htask => ?_, hpending, hfutures⟩
    rw [howner] at htask
    cases htask

theorem reachable_submissionInv {initial : List CallbackKind}
    (hreach : (handleSystem ρ ε loop initial).Reachable s) : SubmissionInv loop s := by
  refine hreach.invariant (fun s hinit => ?_) fun s e s' hi _ hstep => hi.step hstep
  obtain ⟨callbacks, appended, returned, heq⟩ := initial_eq initial ({} : StageHandle ρ ε)
  rw [show s = _ from hinit, heq]
  exact ⟨rfl, fun _ => ⟨rfl, rfl, rfl⟩, rfl, [], rfl, fun _ hmem => by cases hmem⟩

/-! ## 4. A loop that blocks before the owner task exists -/

/-- A call that waits for a handle which nobody but the blocked loop can move. -/
structure Blocked (loop barrier : Nat) (call : SyncWait) (s : StageHandle ρ ε) : Prop where
  inv : SubmissionInv loop s
  visible : s.visible = true
  noTask : s.owner.hasTask = false
  unanswered : s.answered barrier call = false
  holds : (∃ timeout, call = .waitSettled timeout) →
    s.owner.holds = true ∧ barrier < s.settlementFutures.length

omit [DecidableEq ε] in
theorem FuturesOk.barrier_lt (hf : FuturesOk s) : s.barrier < s.settlementFutures.length := by
  obtain ⟨earlier, heq, -⟩ := hf
  simp [barrier, heq]

omit [DecidableEq ε] in
theorem FuturesOk.futureDone_barrier (hf : FuturesOk s) :
    s.futureDone s.barrier = decide (s.pendingWork = 0) := by
  obtain ⟨earlier, heq, -⟩ := hf
  simp [futureDone, barrier, heq]

omit [DecidableEq ε] in
/-- Before the owner task only the submission can hold the work. -/
theorem Quiet.held_eq (hq : Quiet s) : s.held = s.owner.holds.toNat := by
  simp [held, hq.registration, hq.drains, hq.descendants]

omit [DecidableEq ε] in
theorem blocked_of_waits (hi : SubmissionInv loop s) (hvisible : s.visible = true)
    (htask : s.owner.hasTask = false) (hopen : s.answered s.barrier call = false) :
    Blocked loop s.barrier call s := by
  refine ⟨hi, hvisible, htask, hopen, ?_⟩
  rintro ⟨timeout, rfl⟩
  refine ⟨?_, hi.futures.barrier_lt⟩
  have hpending : s.pendingWork ≠ 0 := by
    have hdone := hi.futures.futureDone_barrier
    rw [show s.futureDone s.barrier = false from hopen] at hdone
    exact of_decide_eq_false hdone.symm
  rw [hi.pending, (hi.quiet htask).held_eq] at hpending
  cases hholds : s.owner.holds with
  | true => rfl
  | false => exact absurd (by rw [hholds]; rfl) hpending

theorem Blocked.step {barrier : Nat} (hb : Blocked loop barrier call s) {e : HandleEvent ρ ε}
    (hother : e.ofOwner = false) (hstep : s.step loop e = some s') :
    Blocked loop barrier call s' := by
  have hi' := hb.inv.step hstep
  obtain ⟨-, hmoves⟩ := (hb.inv.quiet hb.noTask).step hb.noTask hstep
  obtain ⟨hcompleted, howner⟩ := hmoves.resolve_left (by simp [hother])
  replace howner := howner.resolve_right (by simp [hb.visible])
  obtain ⟨-, -, hfutures⟩ := (step_work hstep).keeps hb.inv.pending hb.inv.futures
  have htask' : s'.owner.hasTask = false := howner ▸ hb.noTask
  refine ⟨hi', step_visible hstep hb.visible, htask', ?_, ?_⟩
  · cases call with
    | waitSettled timeout =>
      obtain ⟨hholds, hlt⟩ := hb.holds ⟨timeout, rfl⟩
      have hpending : s'.pendingWork ≠ 0 := by
        rw [hi'.pending, (hi'.quiet htask').held_eq, howner, hholds]
        exact Nat.one_ne_zero
      have hopen : ¬ s.settlementFutures[barrier]? = some true := by
        have hunanswered := hb.unanswered
        simpa [answered, futureDone] using hunanswered
      have hopen' : ¬ s'.settlementFutures[barrier]? = some true := fun hdone =>
        (hfutures.becomes barrier hlt hdone).elim hopen hpending
      simpa [answered, futureDone] using hopen'
    | get _ | exception _ | cancel _ _ => exact hcompleted.trans hb.unanswered
  · intro hsettled
    obtain ⟨hholds, hlt⟩ := hb.holds hsettled
    exact ⟨howner ▸ hholds, Nat.lt_of_lt_of_le hlt hfutures.length⟩

theorem Blocked.run {barrier : Nat} {initial : List CallbackKind} {es : List (HandleEvent ρ ε)}
    (hb : Blocked loop barrier call s) (hothers : ∀ e ∈ es, e.ofOwner = false)
    (hrun : (handleSystem ρ ε loop initial).run s es = some s') :
    Blocked loop barrier call s' := by
  induction es generalizing s with
  | nil =>
    cases hrun
    exact hb
  | cons e es ih =>
    rw [System.run_cons] at hrun
    obtain ⟨t, ht, hrest⟩ := Option.bind_eq_some_iff.mp hrun
    exact ih (hb.step (hothers e List.mem_cons_self) ht)
      (fun e he => hothers e (List.mem_cons_of_mem _ he)) hrest

/-! ## 5. The guard and the wait -/

/-- **Synchronous waits on the loop.**  On the loop of a handle a call that has to wait raises
    exactly when the owner task exists.  Before that it blocks the loop, and as long as the loop
    runs neither `start` nor the owner, what it waits for is not done. -/
theorem owner_loop_wait_iff :
    (∀ loop initial (s : StageHandle ρ ε) (call : SyncWait),
      (handleSystem ρ ε loop initial).Reachable s → s.visible = true → call.Covered →
        s.answered s.barrier call = false →
          (RaisesLifecycle (s.syncWait (some loop) call) ↔ s.owner.hasTask = true)) ∧
    ∀ loop initial (s : StageHandle ρ ε) (call : SyncWait),
      (handleSystem ρ ε loop initial).Reachable s → s.visible = true →
        s.answered s.barrier call = false → s.owner.hasTask = false →
          (call.timeout ≠ some 0 → s.syncWait (some loop) call = .waits) ∧
          ∀ es s', (∀ e ∈ es, e.ofOwner = false) →
            (handleSystem ρ ε loop initial).run s es = some s' →
              s'.answered s.barrier call = false := by
  constructor
  · intro loop initial s call hreach hvisible hcovered hopen
    have hi := reachable_submissionInv hreach
    cases htask : s.owner.hasTask with
    | true =>
      have howner : s.ownerLoop = some loop := by rw [hi.ownerLoop, htask]; rfl
      exact ⟨fun _ => rfl, fun _ => syncWait_raises howner hopen hcovered⟩
    | false =>
      have howner : s.ownerLoop = none := by rw [hi.ownerLoop, htask]; rfl
      exact ⟨fun hraises => absurd hraises (syncWait_waits howner hopen).1, fun h => nomatch h⟩
  · intro loop initial s call hreach hvisible hopen htask
    have hi := reachable_submissionInv hreach
    have howner : s.ownerLoop = none := by rw [hi.ownerLoop, htask]; rfl
    exact ⟨(syncWait_waits howner hopen).2, fun es s' hothers hrun =>
      ((blocked_of_waits hi hvisible htask hopen).run hothers hrun).unanswered⟩

/-- `go` has returned the handle to the loop before `_run_submission` has made its first step. -/
def postedRun : List (HandleEvent Nat Nat) := [.retain, .submit]

theorem get_blocks_before_owner_task :
    ∃ s, (handleSystem Nat Nat 0 []).run {} postedRun = some s ∧
      (handleSystem Nat Nat 0 []).Reachable s ∧ s.visible = true ∧ s.bodyCompleted = false ∧
      s.syncWait (some 0) (.get none) = .waits ∧
      s.syncWait (some 0) (.waitSettled none) = .waits ∧
      s.syncWait (some 0) (.cancel none false) = .waits := by
  have hend : ((handleSystem Nat Nat 0 []).run {} postedRun).any (fun s =>
      decide (s.visible = true ∧ s.bodyCompleted = false ∧
        s.syncWait (some 0) (.get none) = .waits ∧
        s.syncWait (some 0) (.waitSettled none) = .waits ∧
        s.syncWait (some 0) (.cancel none false) = .waits)) = true := by
    decide
  obtain ⟨s, hrun, hs⟩ := (Option.any_eq_true _ _).mp hend
  exact ⟨s, hrun, System.reachable_of_run postedRun rfl hrun, of_decide_eq_true hs⟩

end StageHandle

end AgentlyStage
