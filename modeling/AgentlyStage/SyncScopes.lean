import AgentlyStage.CarrierPool
import AgentlyStage.Lib.Transition

/-!
# Nested scopes and their waits

Work in Stage scopes over the carrier pool: who runs where, in which execution context, and
which loops wait synchronously for what.  Scopes and pieces of work are numbered by their
order; what a piece of work is never changes once it has started, so only its end, its wait
and the epochs of the scopes move.

A piece of work is a coroutine on a loop or a call in a worker thread.  Every scope is used
only by the work that entered it.  A coroutine awaits the workers it starts, and a task
outlives the one that created it only when the carrier has retained it.  A step of a
coroutine needs its loop: the loop must be running, and no other coroutine of that loop may
be in a synchronous wait.

`acquire_lease` is one step here.  That the selection and the reservation are two critical
sections of the source makes no difference to what is proved below: the generation is not
one that the selection passed over, nor one older than it.
-/

namespace AgentlyStage

open Transition

/-! ## 1. Scopes and work -/

/-- An event loop: one of a carrier, named by its generation, or a foreign one. -/
inductive EventLoop where
  | carrier (generation : Nat)
  | caller (loop : Nat)
deriving DecidableEq, Repr

/-- `_backend_mode`; a configured caller loop does not occur here. -/
inductive BackendMode where
  | auto
  | stage
deriving DecidableEq, Repr

/-- `_context_mode`; `plain` before or without `__enter__`. -/
inductive ContextMode where
  | plain
  | sync
  | async
deriving DecidableEq, Repr

/-- A Stage; `opener` is the work that entered it. -/
structure StageScope where
  opener : Option Nat
  backendMode : BackendMode
  contextMode : ContextMode
deriving DecidableEq, Repr

/-- The bound backend: the lease with `_blocked_generation_ids`, or the caller loop. -/
inductive Epoch where
  | stage (lease : Nat) (blocked : List Nat)
  | caller (loop : EventLoop)
deriving DecidableEq, Repr

inductive ScopedKind where
  /-- A coroutine of a foreign loop or a thread, in no scope. -/
  | outside
  /-- The body of `go`. -/
  | root
  /-- A task that a coroutine created. -/
  | task
  /-- A callable in the executor. -/
  | worker
  | callback
  /-- The awaitable of a `StageCallBridge.as_sync` call. -/
  | call
deriving DecidableEq, Repr

/-- A piece of work; `scope` is the Stage whose settlement waits for it. -/
structure ScopedWork where
  kind : ScopedKind
  parent : Option Nat
  scope : Option Nat
  /-- The running loop, none in a worker thread. -/
  loop : Option EventLoop
  /-- `_active_execution`. -/
  execution : Option CarrierExecution
  /-- `_active_stage`. -/
  activeStage : Option Nat
deriving DecidableEq, Repr

/-- What a synchronous wait is for. -/
inductive WaitFor where
  | scope (σ : Nat)
  | call (i : Nat)
deriving DecidableEq, Repr

namespace ScopedWork

variable (x : ScopedWork)

/-- The generation whose loop runs the code. -/
def runningGeneration : Option Nat :=
  match x.loop with
  | some (.carrier g) => some g
  | _ => none

/-- The scope is the one of the execution: a body of the stage backend, or a retained
    task. -/
def stageBacked : Bool :=
  x.execution.any fun e => decide (x.scope = some e.stage)

/-- The task factory retains a task that is created here. -/
def retainsTasks : Bool :=
  x.execution.any fun e => decide (x.loop = some (.carrier e.generation))

end ScopedWork

structure World where
  pool : CarrierPool
  scopes : List StageScope := []
  works : List ScopedWork := []
  epoch : Nat → Option Epoch := fun _ => none
  waiting : Nat → Option WaitFor := fun _ => none
  finished : Nat → Bool := fun _ => false

namespace World

/-! ## 2. What the code looks at -/

variable (s : World)

/-- The loop runs: the generation is the current one of its lane. -/
def isRunning : EventLoop → Bool
  | .carrier g => s.pool.lanes.any fun lane => decide (lane.current = some g)
  | .caller _ => true

/-- A coroutine of the loop is in a synchronous wait. -/
def isBlocked (l : EventLoop) : Bool :=
  s.works.zipIdx.any fun entry =>
    decide (entry.1.loop = some l) && (s.waiting entry.2).isSome && !s.finished entry.2

/-- The code of the work can take a step. -/
def runs (i : Nat) (x : ScopedWork) : Bool :=
  !s.finished i && (s.waiting i).isNone &&
    x.loop.all fun l => s.isRunning l && !s.isBlocked l

/-- The reservations of a generation: leases of scopes, and work on its loop. -/
def reservations (g : Nat) : Nat :=
  ((List.range s.scopes.length).countP fun σ =>
      (s.epoch σ).any fun epoch =>
        match epoch with
        | .stage lease _ => decide (lease = g)
        | .caller _ => false) +
    s.works.zipIdx.countP fun entry =>
      !s.finished entry.2 && decide (entry.1.loop = some (.carrier g)) &&
        entry.1.execution.any fun e => decide (e.generation = g)

/-- `_has_active_work_locked`. -/
def hasActiveWork (σ : Nat) : Bool :=
  s.works.zipIdx.any fun entry => !s.finished entry.2 && decide (entry.1.scope = some σ)

/-! ## 3. Backends -/

/-- `_inherited_caller_loop_for_sync`. -/
def inheritedCallerLoopForSync (x : ScopedWork) : Option EventLoop :=
  match x.activeStage, x.loop with
  | some outer, none =>
    match s.epoch outer with
    | some (.caller l) => if s.isRunning l then some l else none
    | _ => none
  | _, _ => none

/-- The caller loop that `_resolve_backend_locked` selects, none for the stage backend. -/
def selectCallerLoop (x : ScopedWork) (scope : StageScope) : Option EventLoop :=
  match scope.backendMode with
  | .stage => none
  | .auto =>
    match scope.contextMode with
    | .sync => s.inheritedCallerLoopForSync x
    | _ => x.loop.or (s.inheritedCallerLoopForSync x)

/-- A lease and `_blocked_generation_ids` for it, acquired by the code of `x`. -/
def leaseEpoch (x : ScopedWork) (sync : Bool) : Epoch × CarrierPool :=
  match s.pool.acquireLease x.execution x.runningGeneration sync s.reservations with
  | (lease, pool) =>
    (.stage lease (blockedGenerationIdsForSubmission x.execution lease sync), pool)

/-- `_resolve_backend_locked`, called by the code of `x`. -/
def resolveBackend (x : ScopedWork) (σ : Nat) (scope : StageScope) : Epoch × CarrierPool :=
  match s.epoch σ with
  | some epoch => (epoch, s.pool)
  | none =>
    match s.selectCallerLoop x scope with
    | some l => (.caller l, s.pool)
    | none => s.leaseEpoch x (decide (scope.contextMode = .sync))

/-- The work with the epoch that it is submitted under. -/
def addWork (σ : Nat) (epoch : Epoch) (pool : CarrierPool) (x : ScopedWork) : World :=
  { s with
    pool := pool
    works := s.works ++ [x]
    epoch := Function.update s.epoch σ (some epoch) }

/-- The submission of a body in scope `σ` by work `i`.  A lease that is sealed already makes
    the submission fail, and the scope gives it back. -/
def submit (i : Nat) (x : ScopedWork) (σ : Nat) (scope : StageScope) (kind : ScopedKind) : World :=
  match s.resolveBackend x σ scope with
  | (.stage lease blocked, pool) =>
    if pool.acceptsPinned lease then
      s.addWork σ (.stage lease blocked) pool
        { kind, parent := some i, scope := some σ, loop := some (.carrier lease)
          execution := some ⟨lease, blocked, σ⟩, activeStage := some σ }
    else { s with pool := pool }
  | (.caller l, pool) =>
    s.addWork σ (.caller l) pool
      { kind, parent := some i, scope := some σ, loop := some l
        execution := x.execution, activeStage := some σ }

/-! ## 4. Steps -/

/-- `Stage.go` by the work that entered the scope. -/
def go (i σ : Nat) : Option World :=
  match s.works[i]?, s.scopes[σ]? with
  | some x, some scope =>
    if s.runs i x && decide (scope.opener = some i) then some (s.submit i x σ scope .root)
    else none
  | _, _ => none

/-- A new Stage. -/
def enter (scope : StageScope) : World := { s with scopes := s.scopes ++ [scope] }

/-- `Stage(...)`, with `__enter__` or `__aenter__`. -/
def openScope (i : Nat) (backendMode : BackendMode) (contextMode : ContextMode) : Option World :=
  match s.works[i]? with
  | some x =>
    if s.runs i x then some (s.enter ⟨some i, backendMode, contextMode⟩) else none
  | none => none

/-- Work that is not submitted to a scope. -/
def start (x : ScopedWork) : World := { s with works := s.works ++ [x] }

/-- `asyncio.create_task`. -/
def spawn (i : Nat) : Option World :=
  match s.works[i]? with
  | some x =>
    if s.runs i x && x.loop.isSome then
      some (s.start { x with
        kind := .task, parent := some i
        scope := if x.retainsTasks then x.execution.map CarrierExecution.stage else none })
    else none
  | none => none

/-- A callable in the executor, in a copy of the context. -/
def worker (i : Nat) : Option World :=
  match s.works[i]? with
  | some x =>
    if s.runs i x then
      some (s.start { x with kind := .worker, parent := some i, scope := none, loop := none })
    else none
  | none => none

/-- A callback that the opener has registered on the handle of body `r`, run by the drain
    that the body starts: `_execute_callback`. -/
def callback (r : Nat) (sync : Bool) : Option World :=
  match s.works[r]? with
  | some x =>
    match x.kind, x.parent.bind fun i => s.works[i]? with
    | .root, some registrant =>
      if s.runs r x then
        some (s.start
          { kind := .callback, parent := some r, scope := x.scope
            loop := if sync then none else x.loop
            execution := x.execution.or registrant.execution
            activeStage := registrant.activeStage })
      else none
    | _, _ => none
  | none => none

/-- The epoch of a late callback: `_submit_callback_drain_locked`. -/
def lateEpoch (registrant x : ScopedWork) (σ : Nat) : Option (Epoch × CarrierPool) :=
  if x.stageBacked then
    match s.epoch σ with
    | none => some (s.leaseEpoch registrant false)
    | some (.stage lease blocked) => some (.stage lease blocked, s.pool)
    | some (.caller _) => none
  else
    match x.loop, s.epoch σ with
    | some l, none => if s.isRunning l then some (.caller l, s.pool) else none
    | some l, some (.caller l') => if l = l' then some (.caller l', s.pool) else none
    | _, _ => none

/-- A callback that the opener registers on the handle of body `r` after the body has
    ended. -/
def lateCallback (r : Nat) (sync : Bool) : Option World :=
  match s.works[r]? with
  | some x =>
    match x.kind, x.scope, x.parent with
    | .root, some σ, some i =>
      match s.works[i]? with
      | some registrant =>
        if s.runs i registrant && s.finished r then
          match s.lateEpoch registrant x σ with
          | some (.stage lease blocked, pool) =>
            if pool.acceptsPinned lease then
              some (s.addWork σ (.stage lease blocked) pool
                { kind := .callback, parent := some i, scope := some σ
                  loop := if sync then none else some (.carrier lease)
                  execution := some ⟨lease, blocked, σ⟩
                  activeStage := registrant.activeStage })
            else some { s with pool := pool }
          | some (.caller l, pool) =>
            some (s.addWork σ (.caller l) pool
              { kind := .callback, parent := some i, scope := some σ
                loop := if sync then none else some l
                execution := registrant.execution
                activeStage := registrant.activeStage })
          | none => none
        else none
      | none => none
    | _, _, _ => none
  | none => none

/-- A synchronous wait of the opener for the work of its scope: a barrier, the exit of the
    scope, or the result of a handle.  In a coroutine it is a `with` scope that waits, and
    `_ensure_not_same_caller_loop_sync_wait` raises. -/
def wait (i σ : Nat) : Option World :=
  match s.works[i]?, s.scopes[σ]? with
  | some x, some scope =>
    if s.runs i x && decide (scope.opener = some i) &&
        (x.loop.isNone || decide (scope.contextMode = .sync)) &&
        x.loop.all fun l => decide (s.epoch σ ≠ some (.caller l)) then
      some { s with waiting := Function.update s.waiting i (some (.scope σ)) }
    else none
  | _, _ => none

/-- A wait ends: the scope has settled, the handle it was for has, or a timeout. -/
def resume (i : Nat) : Option World :=
  if (s.waiting i).isSome then some { s with waiting := Function.update s.waiting i none }
  else none

/-- Generations without a reservation are sealed. -/
def sealUnused : World := { s with pool := s.pool.sealUnused s.reservations }

/-- The work ends.  Its scopes have settled; of what it has started only retained tasks go
    on. -/
def finish (i : Nat) : Option World :=
  match s.works[i]? with
  | some x =>
    if s.runs i x &&
        (s.scopes.zipIdx.all fun entry =>
          decide (entry.1.opener ≠ some i) || (s.epoch entry.2).isNone) &&
        (s.works.zipIdx.all fun entry =>
          decide (entry.1.parent ≠ some i) || s.finished entry.2 ||
            (decide (entry.1.kind = .task) && entry.1.stageBacked)) then
      some { s with finished := Function.update s.finished i true }.sealUnused
    else none
  | none => none

/-- `_release_backend_if_quiescent_locked`. -/
def settle (σ : Nat) : Option World :=
  if (s.epoch σ).isSome && !s.hasActiveWork σ then
    some { s with epoch := Function.update s.epoch σ none }.sealUnused
  else none

/-- The end of `_run_generation`: the loop was sealed and has drained. -/
def close (g : Nat) : Option World :=
  if s.isRunning (.carrier g) && !s.pool.admits g &&
      s.works.zipIdx.all fun entry =>
        s.finished entry.2 || decide (entry.1.loop ≠ some (.carrier g)) then
    some { s with pool := s.pool.closeGeneration g s.reservations }
  else none

end World

/-! ## 5. The system of scopes -/

inductive WorldEvent where
  /-- A coroutine of a foreign loop, or a thread. -/
  | outside (loop : Option Nat)
  | openScope (i : Nat) (backendMode : BackendMode) (contextMode : ContextMode)
  | go (i σ : Nat)
  | spawn (i : Nat)
  | worker (i : Nat)
  | callback (r : Nat) (sync : Bool)
  | lateCallback (r : Nat) (sync : Bool)
  | wait (i σ : Nat)
  | resume (i : Nat)
  | finish (i : Nat)
  | settle (σ : Nat)
  | close (g : Nat)
deriving DecidableEq, Repr

namespace World

def step (s : World) : WorldEvent → Option World
  | .outside loop =>
    some (s.start ⟨.outside, none, none, loop.map EventLoop.caller, none, none⟩)
  | .openScope i backendMode contextMode => s.openScope i backendMode contextMode
  | .go i σ => s.go i σ
  | .spawn i => s.spawn i
  | .worker i => s.worker i
  | .callback r sync => s.callback r sync
  | .lateCallback r sync => s.lateCallback r sync
  | .wait i σ => s.wait i σ
  | .resume i => s.resume i
  | .finish i => s.finish i
  | .settle σ => s.settle σ
  | .close g => s.close g

end World

/-- Scopes over a carrier pool of `carrierLoopCount` lanes. -/
def nestingSystem (carrierLoopCount : Nat) : System World WorldEvent where
  Init s := s = { pool := .ofCount carrierLoopCount }
  step := World.step

end AgentlyStage
