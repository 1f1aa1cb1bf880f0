import AgentlyStage.Errors
import Mathlib.Data.List.Basic

/-!
# Waiting for oneself

The barriers of a Stage (`wait_settled`, `cancel_and_wait_settled`, `close` and their
async forms) called by code that the Stage is waiting for.  A barrier recognises such
code by the context variables `_active_stage` and `_active_execution` and by the current
task; what these are follows from the way the code was started, which the second section
writes down for every kind of work.

A Stage is seen in an epoch, between the first work and quiescence: its backend is bound
and it has active work.  Waiting is waiting for that work without a timeout.
-/

namespace AgentlyStage

/-! ## 1. Code and its context -/

/-- The context variables; of `_active_execution` a barrier reads the Stage of the
    handle. -/
structure CodeContext where
  activeStage : Option Nat := none
  activeExecution : Option Nat := none
deriving DecidableEq, Repr

/-- `asyncio.current_task()` and the running loop are unset in a worker thread. -/
structure Code where
  context : CodeContext
  currentTask : Option Nat
  runningLoop : Option Nat
deriving DecidableEq, Repr

inductive EpochBackend where
  | stage
  | caller (loop : Nat)
deriving DecidableEq, Repr

/-- What a barrier reads of its Stage under `_scope_lock`. -/
structure BarrierScope where
  stage : Nat
  activeBackend : EpochBackend
  activeHandles : Nat
  adoptedTasks : List Nat
  closeCompleted : Bool
  active : 0 < activeHandles ∨ adoptedTasks ≠ []

namespace BarrierScope

variable (v : BarrierScope)

/-! ## 2. How code is started -/

/-- The loop of the epoch; a carrier loop is the one of the handle's generation. -/
def loopOf (carrierLoop : Nat) : Nat :=
  match v.activeBackend with
  | .stage => carrierLoop
  | .caller loop => loop

/-- The context of an owner task: `_run_submission` sets the execution, the runner of a
    caller loop sets nothing. -/
def runSubmission (submitted : CodeContext) : CodeContext :=
  match v.activeBackend with
  | .stage => { submitted with activeExecution := some v.stage }
  | .caller _ => submitted

/-- The context inside `body` of `go`. -/
def bodyContext (submitted : CodeContext) : CodeContext :=
  { v.runSubmission submitted with activeStage := some v.stage }

/-- The context of `_drain_callbacks`, started by the owner task of the handle (in the
    context of its body) or by a late registration. -/
def drainContext (late : Bool) (submitted : CodeContext) : CodeContext :=
  let context := if late then submitted else v.bodyContext submitted
  match v.activeBackend with
  | .stage => { context with activeExecution := some v.stage }
  | .caller _ => { context with activeStage := some v.stage }

/-- `_RuntimeCarrier.bind_current_execution`. -/
def bindCurrentExecution (current registered : CodeContext) : CodeContext :=
  match current.activeExecution with
  | some execution => { registered with activeExecution := some execution }
  | none => registered

/-- Code that runs as work the Stage is waiting for, with what its start depends on.  A
    submission or a registration may come from any context, nested or not. -/
inductive Work where
  /-- The coroutine of a root or nested `go`. -/
  | body (submitted : CodeContext) (task carrierLoop : Nat)
  /-- A blocking callable in the executor, by `_execute_scalar`. -/
  | blockingBody (submitted : CodeContext)
  /-- A task of `Stage.create_task`, in a copy of the context of the call. -/
  | createdTask (context : CodeContext) (task loop : Nat) (owned : task ∈ v.adoptedTasks)
  | adoptedTask (context : CodeContext) (task loop : Nat) (owned : task ∈ v.adoptedTasks)
  /-- A task retained by the task factory under an execution of the Stage, in the context
      of its creator or in one given to `create_task`. -/
  | descendant (creator : CodeContext) (given : Option CodeContext) (task carrierLoop : Nat)
      (retained : creator.activeExecution = some v.stage)
  /-- An async success, error or finally callback, or what a sync one returned. -/
  | asyncCallback (late : Bool) (submitted registered : CodeContext) (task carrierLoop : Nat)
  /-- A sync callback in the executor. -/
  | syncCallback (late : Bool) (submitted registered : CodeContext)
  /-- A function given to `add_done_callback`, run where the outcome is set. -/
  | doneCallback (registered : CodeContext) (task : Option Nat) (carrierLoop : Nat)

variable {v}

/-- What the code of some work sees when it runs. -/
def Work.code : Work v → Code
  | .body submitted task carrierLoop =>
    ⟨v.bodyContext submitted, some task, some (v.loopOf carrierLoop)⟩
  | .blockingBody submitted => ⟨v.bodyContext submitted, none, none⟩
  | .createdTask context task loop _ =>
    ⟨{ context with activeStage := some v.stage }, some task, some loop⟩
  | .adoptedTask context task loop _ => ⟨context, some task, some loop⟩
  | .descendant creator given task carrierLoop _ =>
    ⟨given.getD creator, some task, some (v.loopOf carrierLoop)⟩
  | .asyncCallback late submitted registered task carrierLoop =>
    ⟨bindCurrentExecution (v.drainContext late submitted) registered, some task,
      some (v.loopOf carrierLoop)⟩
  | .syncCallback late submitted registered =>
    ⟨bindCurrentExecution (v.drainContext late submitted) registered, none, none⟩
  | .doneCallback registered task carrierLoop =>
    ⟨registered, task, some (v.loopOf carrierLoop)⟩

variable (v)

/-! ## 3. The barriers -/

/-- `_ensure_not_owned_self_wait`. -/
def ensureNotOwnedSelfWait (code : Code) : Except StageError Unit :=
  if code.context.activeStage = some v.stage ∨ code.context.activeExecution = some v.stage then
    .error (.stageLifecycle "Cannot wait for a Stage from work owned by the same scope")
  else
    match code.currentTask with
    | some task =>
      if task ∈ v.adoptedTasks then
        .error (.stageLifecycle "Cannot wait for a Stage from work owned by the same scope")
      else .ok ()
    | none => .ok ()

/-- `_has_active_work_locked`. -/
def hasActiveWork : Bool := decide (0 < v.activeHandles) || !v.adoptedTasks.isEmpty

/-- `_ensure_not_same_caller_loop_sync_wait`. -/
def ensureNotSameCallerLoopSyncWait (code : Code) (asyncOperation : String) :
    Except StageError Unit :=
  match code.runningLoop with
  | none => .ok ()
  | some loop =>
    if v.activeBackend = .caller loop ∧ v.hasActiveWork then
      .error (.stageLifecycle
        ("Cannot synchronously wait for a Stage while running on its active caller-owned " ++
          "event loop; use " ++ asyncOperation ++ "()"))
    else .ok ()

/-- What a barrier comes to; `waits` is waiting until there is no active work. -/
inductive BarrierResult where
  | raises (error : StageError)
  | waits
  | returns
deriving DecidableEq, Repr

/-- `Stage.wait_settled`. -/
def waitSettled (code : Code) : BarrierResult :=
  match v.ensureNotOwnedSelfWait code with
  | .error error => .raises error
  | .ok _ =>
    match v.ensureNotSameCallerLoopSyncWait code "async_wait_settled" with
    | .error error => .raises error
    | .ok _ => if v.hasActiveWork then .waits else .returns

/-- `Stage.cancel_and_wait_settled`; its cancel requests leave the work active. -/
def cancelAndWaitSettled (code : Code) : BarrierResult :=
  match v.ensureNotOwnedSelfWait code with
  | .error error => .raises error
  | .ok _ =>
    match v.ensureNotSameCallerLoopSyncWait code "async_cancel_and_wait_settled" with
    | .error error => .raises error
    | .ok _ => if v.hasActiveWork then v.waitSettled code else .returns

/-- `Stage.close`. -/
def close (code : Code) : BarrierResult :=
  match v.ensureNotOwnedSelfWait code with
  | .error error => .raises error
  | .ok _ =>
    match v.ensureNotSameCallerLoopSyncWait code "async_close" with
    | .error error => .raises error
    | .ok _ => if v.closeCompleted then .returns else v.waitSettled code

inductive Barrier where
  | waitSettled
  | cancelAndWaitSettled
  | close
deriving DecidableEq, Repr

def syncBarrier (code : Code) : Barrier → BarrierResult
  | .waitSettled => v.waitSettled code
  | .cancelAndWaitSettled => v.cancelAndWaitSettled code
  | .close => v.close code

/-- The async forms: the sync one by `asyncio.to_thread`, which copies the context.  The work itself
    drives the coroutine: a task of `gather` or of an older `wait_for`, or a thread of
    `run_in_executor`, that does it for the work is other code. -/
def asyncBarrier (code : Code) (barrier : Barrier) : BarrierResult :=
  match v.ensureNotOwnedSelfWait code with
  | .error error => .raises error
  | .ok _ => v.syncBarrier { code with currentTask := none, runningLoop := none } barrier

def callBarrier (code : Code) (isAsync : Bool) (barrier : Barrier) : BarrierResult :=
  if isAsync then v.asyncBarrier code barrier else v.syncBarrier code barrier

/-! ## 4. What is recognised -/

/-- Code that `_ensure_not_owned_self_wait` recognises. -/
def Recognised (code : Code) : Prop :=
  code.context.activeStage = some v.stage ∨ code.context.activeExecution = some v.stage ∨
    ∃ task, code.currentTask = some task ∧ task ∈ v.adoptedTasks

/-- Code on the caller loop of the epoch. -/
def OnCallerLoop (code : Code) : Prop :=
  ∃ loop, code.runningLoop = some loop ∧ v.activeBackend = .caller loop

def IsLifecycleError (result : BarrierResult) : Prop :=
  ∃ message, result = .raises (.stageLifecycle message)

variable {v} {code : Code}

theorem hasActiveWork_eq_true (v : BarrierScope) : v.hasActiveWork = true := by
  unfold hasActiveWork
  rcases v.active with h | h
  · simp [h]
  · simp [h]

theorem ensureNotOwnedSelfWait_of_recognised (h : v.Recognised code) :
    ∃ message, v.ensureNotOwnedSelfWait code = .error (.stageLifecycle message) := by
  unfold ensureNotOwnedSelfWait
  split
  · exact ⟨_, rfl⟩
  · rename_i hcontext
    rw [not_or] at hcontext
    rcases h with h | h | ⟨task, htask, hmem⟩
    · exact absurd h hcontext.1
    · exact absurd h hcontext.2
    · rw [htask]
      exact ⟨_, if_pos hmem⟩

theorem ensureNotOwnedSelfWait_of_not (h : ¬ v.Recognised code) :
    v.ensureNotOwnedSelfWait code = .ok () := by
  unfold Recognised at h
  rw [not_or, not_or] at h
  obtain ⟨hstage, hexecution, htask⟩ := h
  unfold ensureNotOwnedSelfWait
  rw [if_neg (by rw [not_or]; exact ⟨hstage, hexecution⟩)]
  split
  · rename_i task hcurrent
    exact if_neg fun hmem => htask ⟨task, hcurrent, hmem⟩
  · rfl

theorem ensureNotSameCallerLoopSyncWait_of_on (h : v.OnCallerLoop code)
    (asyncOperation : String) : ∃ message,
      v.ensureNotSameCallerLoopSyncWait code asyncOperation =
        .error (.stageLifecycle message) := by
  obtain ⟨loop, hloop, hbackend⟩ := h
  unfold ensureNotSameCallerLoopSyncWait
  rw [hloop]
  exact ⟨_, if_pos ⟨hbackend, v.hasActiveWork_eq_true⟩⟩

theorem ensureNotSameCallerLoopSyncWait_of_not (h : ¬ v.OnCallerLoop code)
    (asyncOperation : String) :
    v.ensureNotSameCallerLoopSyncWait code asyncOperation = .ok () := by
  unfold ensureNotSameCallerLoopSyncWait
  split
  · rfl
  · rename_i loop hloop
    exact if_neg fun hbackend => h ⟨loop, hloop, hbackend.1⟩

/-- A sync barrier raises for recognised code and on the caller loop. -/
theorem syncBarrier_raises (h : v.Recognised code ∨ v.OnCallerLoop code) (barrier : Barrier) :
    IsLifecycleError (v.syncBarrier code barrier) := by
  by_cases hrecognised : v.Recognised code
  · obtain ⟨message, hguard⟩ := ensureNotOwnedSelfWait_of_recognised hrecognised
    refine ⟨message, ?_⟩
    cases barrier with
    | waitSettled =>
      unfold syncBarrier waitSettled
      rw [hguard]
    | cancelAndWaitSettled =>
      unfold syncBarrier cancelAndWaitSettled
      rw [hguard]
    | close =>
      unfold syncBarrier close
      rw [hguard]
  · have hon : v.OnCallerLoop code := h.resolve_left hrecognised
    have hguard := ensureNotOwnedSelfWait_of_not hrecognised
    cases barrier with
    | waitSettled =>
      obtain ⟨message, hloop⟩ := ensureNotSameCallerLoopSyncWait_of_on hon "async_wait_settled"
      refine ⟨message, ?_⟩
      unfold syncBarrier waitSettled
      rw [hguard, hloop]
    | cancelAndWaitSettled =>
      obtain ⟨message, hloop⟩ :=
        ensureNotSameCallerLoopSyncWait_of_on hon "async_cancel_and_wait_settled"
      refine ⟨message, ?_⟩
      unfold syncBarrier cancelAndWaitSettled
      rw [hguard, hloop]
    | close =>
      obtain ⟨message, hloop⟩ := ensureNotSameCallerLoopSyncWait_of_on hon "async_close"
      refine ⟨message, ?_⟩
      unfold syncBarrier close
      rw [hguard, hloop]

/-- Any other code waits, unless `close` finds the Stage closed. -/
theorem syncBarrier_waits (hrecognised : ¬ v.Recognised code) (hon : ¬ v.OnCallerLoop code)
    (barrier : Barrier) :
    v.syncBarrier code barrier =
      if barrier = .close ∧ v.closeCompleted then .returns else .waits := by
  have hguard := ensureNotOwnedSelfWait_of_not hrecognised
  have hloop := ensureNotSameCallerLoopSyncWait_of_not hon
  have hwait : v.waitSettled code = .waits := by
    unfold waitSettled
    rw [hguard, hloop]
    exact if_pos v.hasActiveWork_eq_true
  cases barrier with
  | waitSettled => exact hwait
  | cancelAndWaitSettled =>
    unfold syncBarrier cancelAndWaitSettled
    rw [hguard, hloop]
    exact (if_pos v.hasActiveWork_eq_true).trans hwait
  | close =>
    unfold syncBarrier close
    rw [hguard, hloop]
    by_cases hclosed : v.closeCompleted = true
    · simp [hclosed]
    · simp [hclosed, hwait]

/-- A barrier raises exactly for recognised code and, in its sync form, on the caller
    loop; otherwise it waits or the Stage is closed. -/
theorem callBarrier_cases (code : Code) (isAsync : Bool) (barrier : Barrier) :
    ((v.Recognised code ∨ (isAsync = false ∧ v.OnCallerLoop code)) ∧
      IsLifecycleError (v.callBarrier code isAsync barrier)) ∨
    (¬ v.Recognised code ∧ ¬ (isAsync = false ∧ v.OnCallerLoop code) ∧
      v.callBarrier code isAsync barrier =
        if barrier = .close ∧ v.closeCompleted then .returns else .waits) := by
  by_cases hrecognised : v.Recognised code
  · refine Or.inl ⟨Or.inl hrecognised, ?_⟩
    cases isAsync with
    | true =>
      obtain ⟨message, hguard⟩ := ensureNotOwnedSelfWait_of_recognised hrecognised
      refine ⟨message, ?_⟩
      change v.asyncBarrier code barrier = _
      unfold asyncBarrier
      rw [hguard]
    | false => exact syncBarrier_raises (Or.inl hrecognised) barrier
  · cases isAsync with
    | true =>
      refine Or.inr ⟨hrecognised, (fun h => absurd h.1 Bool.noConfusion), ?_⟩
      change v.asyncBarrier code barrier = _
      unfold asyncBarrier
      rw [ensureNotOwnedSelfWait_of_not hrecognised]
      apply syncBarrier_waits
      · rintro (h | h | ⟨task, htask, -⟩)
        · exact hrecognised (Or.inl h)
        · exact hrecognised (Or.inr (Or.inl h))
        · cases htask
      · rintro ⟨loop, hloop, -⟩
        cases hloop
    | false =>
      by_cases hon : v.OnCallerLoop code
      · exact Or.inl ⟨Or.inr ⟨rfl, hon⟩, syncBarrier_raises (Or.inr hon) barrier⟩
      · exact Or.inr ⟨hrecognised, fun h => hon h.2, syncBarrier_waits hrecognised hon barrier⟩

/-! ## 5. Work that is not recognised -/

/-- A context without a trace of the Stage. -/
def Foreign (v : BarrierScope) (context : CodeContext) : Prop :=
  context.activeStage ≠ some v.stage ∧ context.activeExecution ≠ some v.stage

/-- Where the registration or the given context decides: on a caller loop the callbacks
    run without a trace of the Stage unless they were registered with one, or the drain
    carries an execution of it. -/
def Work.Unrecognised : Work v → Prop
  | .body _ _ _ | .blockingBody _ | .createdTask _ _ _ _ | .adoptedTask _ _ _ _ => False
  | .descendant _ given task _ _ =>
    (∃ context, given = some context ∧ v.Foreign context) ∧ task ∉ v.adoptedTasks
  | .asyncCallback _ submitted registered task _ =>
    v.activeBackend ≠ .stage ∧ v.Foreign (bindCurrentExecution submitted registered) ∧
      task ∉ v.adoptedTasks
  | .syncCallback _ submitted registered =>
    v.activeBackend ≠ .stage ∧ v.Foreign (bindCurrentExecution submitted registered)
  | .doneCallback registered task _ =>
    v.Foreign registered ∧ ∀ t, task = some t → t ∉ v.adoptedTasks

/-- Code of the Stage that runs on the caller loop of its epoch. -/
def Work.OnLoop : Work v → Prop
  | .blockingBody _ | .syncCallback _ _ _ => False
  | .createdTask _ _ loop _ | .adoptedTask _ _ loop _ => v.activeBackend = .caller loop
  | .body _ _ _ | .descendant _ _ _ _ _ | .asyncCallback _ _ _ _ _ | .doneCallback _ _ _ =>
    v.activeBackend ≠ .stage

/-- Work whose barrier raises nothing: it is not recognised, and the call is async or
    not made on the caller loop. -/
def Work.Escapes (w : Work v) (isAsync : Bool) : Prop :=
  w.Unrecognised ∧ ¬ (isAsync = false ∧ w.OnLoop)

theorem recognised_iff {context : CodeContext} {task loop : Option Nat} :
    ¬ v.Recognised ⟨context, task, loop⟩ ↔
      v.Foreign context ∧ ∀ t, task = some t → t ∉ v.adoptedTasks := by
  unfold Recognised Foreign
  constructor
  · intro h
    rw [not_or, not_or] at h
    exact ⟨⟨h.1, h.2.1⟩, fun t ht hmem => h.2.2 ⟨t, ht, hmem⟩⟩
  · rintro ⟨⟨hstage, hexecution⟩, htask⟩ (h | h | ⟨t, ht, hmem⟩)
    · exact hstage h
    · exact hexecution h
    · exact htask t ht hmem

/-- The overlay of a drain: on a carrier its execution is one of the Stage, on a caller
    loop it is the one of the submission. -/
theorem foreign_bind (late : Bool) (submitted registered : CodeContext) :
    v.Foreign (bindCurrentExecution (v.drainContext late submitted) registered) ↔
      v.activeBackend ≠ .stage ∧ v.Foreign (bindCurrentExecution submitted registered) := by
  cases hbackend : v.activeBackend with
  | stage =>
    constructor
    · intro h
      refine absurd ?_ h.2
      simp [bindCurrentExecution, drainContext, hbackend]
    · intro h
      exact absurd rfl h.1
  | caller loop =>
    have hsame : (v.drainContext late submitted).activeExecution = submitted.activeExecution := by
      cases late with
      | true => simp [drainContext, hbackend]
      | false => simp [drainContext, bodyContext, runSubmission, hbackend]
    have hbind : bindCurrentExecution (v.drainContext late submitted) registered =
        bindCurrentExecution submitted registered := by
      unfold bindCurrentExecution
      rw [hsame]
    rw [hbind]
    constructor
    · exact fun h => ⟨EpochBackend.noConfusion, h⟩
    · exact fun h => h.2

/-- **What is recognised, by kind of work.** -/
theorem Work.recognised_iff (w : Work v) : ¬ v.Recognised w.code ↔ w.Unrecognised := by
  cases w with
  | body submitted task carrierLoop =>
    exact ⟨fun h => h (Or.inl rfl), fun h => h.elim⟩
  | blockingBody submitted =>
    exact ⟨fun h => h (Or.inl rfl), fun h => h.elim⟩
  | createdTask context task loop owned =>
    exact ⟨fun h => h (Or.inl rfl), fun h => h.elim⟩
  | adoptedTask context task loop owned =>
    exact ⟨fun h => h (Or.inr (Or.inr ⟨task, rfl, owned⟩)), fun h => h.elim⟩
  | descendant creator given task carrierLoop retained =>
    refine BarrierScope.recognised_iff.trans ?_
    cases given with
    | none =>
      constructor
      · exact fun h => absurd retained h.1.2
      · rintro ⟨⟨context, hgiven, -⟩, -⟩
        cases hgiven
    | some context =>
      constructor
      · exact fun h => ⟨⟨context, rfl, h.1⟩, h.2 task rfl⟩
      · rintro ⟨⟨_, hgiven, hforeign⟩, htask⟩
        cases hgiven
        exact ⟨hforeign, fun t ht => Option.some.inj ht ▸ htask⟩
  | asyncCallback late submitted registered task carrierLoop =>
    refine BarrierScope.recognised_iff.trans ?_
    rw [foreign_bind late submitted registered]
    constructor
    · exact fun h => ⟨h.1.1, h.1.2, h.2 task rfl⟩
    · exact fun h => ⟨⟨h.1, h.2.1⟩, fun t ht => Option.some.inj ht ▸ h.2.2⟩
  | syncCallback late submitted registered =>
    refine BarrierScope.recognised_iff.trans ?_
    rw [foreign_bind late submitted registered]
    constructor
    · exact fun h => h.1
    · exact fun h => ⟨h, fun t ht => by cases ht⟩
  | doneCallback registered task carrierLoop =>
    exact BarrierScope.recognised_iff

theorem onCallerLoop_loopOf {context : CodeContext} {task : Option Nat} {carrierLoop : Nat} :
    v.OnCallerLoop ⟨context, task, some (v.loopOf carrierLoop)⟩ ↔ v.activeBackend ≠ .stage := by
  unfold OnCallerLoop loopOf
  cases hbackend : v.activeBackend with
  | stage =>
    constructor
    · rintro ⟨loop, -, h⟩
      cases h
    · exact fun h => absurd rfl h
  | caller loop =>
    constructor
    · exact fun _ => EpochBackend.noConfusion
    · exact fun _ => ⟨loop, rfl, rfl⟩

theorem Work.onCallerLoop_iff (w : Work v) : v.OnCallerLoop w.code ↔ w.OnLoop := by
  cases w with
  | body submitted task carrierLoop => exact onCallerLoop_loopOf
  | descendant creator given task carrierLoop retained => exact onCallerLoop_loopOf
  | asyncCallback late submitted registered task carrierLoop => exact onCallerLoop_loopOf
  | doneCallback registered task carrierLoop => exact onCallerLoop_loopOf
  | blockingBody submitted =>
    constructor
    · rintro ⟨loop, h, -⟩
      cases h
    · exact fun h => h.elim
  | syncCallback late submitted registered =>
    constructor
    · rintro ⟨loop, h, -⟩
      cases h
    · exact fun h => h.elim
  | createdTask context task loop owned =>
    constructor
    · rintro ⟨_, h, hbackend⟩
      cases h
      exact hbackend
    · exact fun h => ⟨loop, rfl, h⟩
  | adoptedTask context task loop owned =>
    constructor
    · rintro ⟨_, h, hbackend⟩
      cases h
      exact hbackend
    · exact fun h => ⟨loop, rfl, h⟩

end BarrierScope

open BarrierScope

/-- **Waiting for oneself.**  A barrier that work of the Stage calls raises
    `StageLifecycleError` exactly when the work does not escape; when it does, the barrier
    waits for the Stage's active work, the caller with it (or returns, when it is the
    `close` of a Stage that is closed already). -/
theorem self_wait_raises_iff (v : BarrierScope) (w : Work v) (isAsync : Bool)
    (barrier : Barrier) :
    (IsLifecycleError (v.callBarrier w.code isAsync barrier) ↔ ¬ w.Escapes isAsync) ∧
      (w.Escapes isAsync → v.callBarrier w.code isAsync barrier =
        if barrier = .close ∧ v.closeCompleted then .returns else .waits) := by
  have hescapes : w.Escapes isAsync ↔
      ¬ v.Recognised w.code ∧ ¬ (isAsync = false ∧ v.OnCallerLoop w.code) := by
    unfold Work.Escapes
    rw [w.recognised_iff, w.onCallerLoop_iff]
  rw [hescapes]
  rcases callBarrier_cases w.code isAsync barrier with
    ⟨hguarded, hraises⟩ | ⟨hrecognised, hon, hresult⟩
  · constructor
    · constructor
      · rintro - ⟨hrecognised, hon⟩
        rcases hguarded with h | h
        · exact hrecognised h
        · exact hon h
      · exact fun _ => hraises
    · rintro ⟨hrecognised, hon⟩
      rcases hguarded with h | h
      · exact absurd h hrecognised
      · exact absurd h hon
  · constructor
    · constructor
      · rintro ⟨message, hmessage⟩
        rw [hresult] at hmessage
        split at hmessage
        · cases hmessage
        · cases hmessage
      · exact fun h => absurd ⟨hrecognised, hon⟩ h
    · exact fun _ => hresult

/-- A Stage on a caller loop with one handle. -/
def callerScope : BarrierScope :=
  ⟨0, .caller 0, 1, [], false, Or.inl Nat.zero_lt_one⟩

/-- A sync callback given to a `go` outside of the Stage. -/
def foreignCallback : Work callerScope := .syncCallback false {} {}

/-- Its `wait_settled` waits for the callback itself. -/
theorem foreignCallback_waits :
    callerScope.callBarrier foreignCallback.code false .waitSettled = .waits := by
  decide

end AgentlyStage
