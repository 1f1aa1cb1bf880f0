import AgentlyStage.Errors
import AgentlyStage.Lib.Transition
import Mathlib.Logic.Function.Basic

/-!
# The event emitter

`EventEmitter` keeps two registries under one lock, a flag, and a Stage of its own.  Every
operation is a call that enters the registry lock; an `emit` stays inside while it submits the
listeners one by one, and a `close` seals the Stage after it has left the lock.  `go` posts a
listener and does not run it, so no call is made inside another one.

A registration has a number that tells it from a later one of the same listener.
-/

namespace AgentlyStage

open Transition

/-! ## 1. The registries -/

structure Registration (β : Type) where
  listener : β
  number : Nat
deriving DecidableEq, Repr

/-- `_listeners` and `_once`; an event that is no key has no listeners. -/
structure EmitterRegistry (α β : Type) where
  listeners : α → List (Registration β) := fun _ => []
  once : α → List (Registration β) := fun _ => []
  /-- History: the number of registrations so far. -/
  registrations : Nat := 0

/-- `listener in entries`. -/
def lists {β : Type} [DecidableEq β] (entries : List (Registration β)) (listener : β) : Bool :=
  entries.any fun entry => decide (entry.listener = listener)

/-- `entries.remove(listener)`, if it is there. -/
def unlist {β : Type} [DecidableEq β] (entries : List (Registration β)) (listener : β) :
    List (Registration β) :=
  entries.eraseP fun entry => decide (entry.listener = listener)

/-- The operations with the arguments that the registries depend on. -/
inductive EmitterOp (α β : Type) where
  | on (event : α) (listener : β)
  | once (event : α) (listener : β)
  | off (event : α) (listener : β)
  | removeAllListeners (events : List α)
  /-- With `nested` it is made from work of the emitter's own Stage. -/
  | emit (event : α) (nested : Bool)
  | close
deriving DecidableEq, Repr

namespace EmitterRegistry

variable {α β : Type} [DecidableEq α] [DecidableEq β] (g : EmitterRegistry α β)

def addListener (event : α) (listener : β) : EmitterRegistry α β :=
  if lists (g.listeners event) listener then g
  else { g with
    listeners := Function.update g.listeners event
      (g.listeners event ++ [⟨listener, g.registrations⟩])
    registrations := g.registrations + 1 }

def addOnceListener (event : α) (listener : β) : EmitterRegistry α β :=
  if lists (g.listeners event) listener || lists (g.once event) listener then g
  else { g with
    once := Function.update g.once event (g.once event ++ [⟨listener, g.registrations⟩])
    registrations := g.registrations + 1 }

def removeListener (event : α) (listener : β) : EmitterRegistry α β :=
  { g with
    listeners := Function.update g.listeners event (unlist (g.listeners event) listener)
    once := Function.update g.once event (unlist (g.once event) listener) }

def clear (event : α) : EmitterRegistry α β :=
  { g with
    listeners := Function.update g.listeners event []
    once := Function.update g.once event [] }

def removeAllListeners (events : List α) : EmitterRegistry α β := events.foldl clear g

/-- `self._once.pop(event, ())`. -/
def popOnce (event : α) : EmitterRegistry α β :=
  { g with once := Function.update g.once event [] }

/-- The listeners of an event: the persistent ones, and then the once ones. -/
def registered (event : α) : List (Registration β) := g.listeners event ++ g.once event

/-- What an operation does to the registries while the emitter is open. -/
def apply : EmitterOp α β → EmitterRegistry α β
  | .on event listener => g.addListener event listener
  | .once event listener => g.addOnceListener event listener
  | .off event listener => g.removeListener event listener
  | .removeAllListeners events => g.removeAllListeners events
  | .emit event _ => g.popOnce event
  | .close => g

/-- The registries after a sequence of operations, one after the other. -/
def after (ops : List (EmitterOp α β)) : EmitterRegistry α β :=
  ops.foldl apply {}

end EmitterRegistry

/-! ## 2. Calls -/

inductive EmitterCallPhase (β : Type) where
  /-- It waits for the registry lock. -/
  | called
  /-- An `emit` inside the lock, with the listeners that it has not submitted yet. -/
  | submitting (remaining : List (Registration β))
  /-- A `close` that has left the lock. -/
  | sealing
  /-- It waits for the Stage to settle. -/
  | settling
  | returned
  | raised (error : StageError)
deriving DecidableEq, Repr

structure EmitterCall (α β : Type) where
  op : EmitterOp α β
  phase : EmitterCallPhase β := .called
  /-- History: the listeners that `go` has accepted. -/
  submitted : List (Registration β) := []
deriving DecidableEq, Repr

structure EmitterState (α β : Type) where
  registry : EmitterRegistry α β := {}
  closed : Bool := false
  /-- The Stage of the emitter is sealed. -/
  stageSealed : Bool := false
  /-- The call that holds the registry lock between two steps. -/
  holder : Option Nat := none
  calls : List (EmitterCall α β) := []
  /-- History: the calls that have taken effect, in this order. -/
  order : List (Nat × EmitterOp α β) := []

inductive EmitterEvent (α β : Type) where
  /-- A thread makes a call. -/
  | call (op : EmitterOp α β)
  /-- The call enters the registry lock. -/
  | enter (i : Nat)
  /-- `self._stage.go(listener)` for the next listener. -/
  | submit (i : Nat)
  /-- An `emit` leaves the lock. -/
  | leave (i : Nat)
  /-- `seal` in `self._stage.close`. -/
  | sealStage (i : Nat)
  /-- `self._stage.close` returns. -/
  | settled (i : Nat)
  | closeFails (i : Nat) (error : StageError)
deriving DecidableEq, Repr

/-- `_ensure_open_locked`. -/
def closedEmitterError : StageError := .stageClosed "Cannot use a closed EventEmitter"

/-- The error of `go` in a sealed scope. -/
def sealedScopeError : StageError := .stageClosed "Cannot submit work to a sealed Stage scope"

namespace EmitterState

variable {α β : Type} [DecidableEq α] [DecidableEq β] (s : EmitterState α β)

def setCall (i : Nat) (call : EmitterCall α β) : EmitterState α β :=
  { s with calls := s.calls.set i call }

/-- The call takes effect on the registries. -/
def effect (i : Nat) (call : EmitterCall α β) (phase : EmitterCallPhase β) : EmitterState α β :=
  { s.setCall i { call with phase := phase } with
    registry := s.registry.apply call.op
    order := s.order ++ [(i, call.op)] }

/-- The section of a call under the registry lock; an `emit` stays in it. -/
def enter (i : Nat) (call : EmitterCall α β) : EmitterState α β :=
  match call.op with
  | .on _ _ | .once _ _ =>
    if s.closed then s.setCall i { call with phase := .raised closedEmitterError }
    else s.effect i call .returned
  | .off _ _ | .removeAllListeners _ => s.effect i call .returned
  | .emit event _ =>
    if s.closed then s.setCall i { call with phase := .raised closedEmitterError }
    else { s.effect i call (.submitting (s.registry.registered event)) with holder := some i }
  | .close =>
    if s.closed then s.effect i call .returned
    else { s.effect i call .sealing with closed := true }

/-- `go` accepts the listener unless the scope is sealed and the call is not its own work. -/
def submit (i : Nat) (call : EmitterCall α β) (nested : Bool) (entry : Registration β)
    (rest : List (Registration β)) : EmitterState α β :=
  if s.stageSealed && !nested then
    { s.setCall i { call with phase := .raised sealedScopeError } with holder := none }
  else
    s.setCall i
      { call with phase := .submitting rest, submitted := call.submitted ++ [entry] }

def step : EmitterEvent α β → Option (EmitterState α β)
  | .call op => some { s with calls := s.calls ++ [{ op := op }] }
  | .enter i =>
    match s.calls[i]? with
    | some call => if s.holder = none ∧ call.phase = .called then some (s.enter i call) else none
    | none => none
  | .submit i =>
    match s.calls[i]? with
    | some call =>
      match call.op, call.phase with
      | .emit _ nested, .submitting (entry :: rest) => some (s.submit i call nested entry rest)
      | _, _ => none
    | none => none
  | .leave i =>
    match s.calls[i]? with
    | some call =>
      if call.phase = .submitting [] then
        some { s.setCall i { call with phase := .returned } with holder := none }
      else none
    | none => none
  | .sealStage i =>
    match s.calls[i]? with
    | some call =>
      if call.phase = .sealing then
        some { s.setCall i { call with phase := .settling } with stageSealed := true }
      else none
    | none => none
  | .settled i =>
    match s.calls[i]? with
    | some call =>
      if call.phase = .settling then some (s.setCall i { call with phase := .returned }) else none
    | none => none
  | .closeFails i error =>
    match s.calls[i]? with
    | some call =>
      if call.phase = .sealing ∨ call.phase = .settling then
        some (s.setCall i { call with phase := .raised error })
      else none
    | none => none

end EmitterState

/-- The calls of any number of threads on one emitter. -/
def emitterSystem (α β : Type) [DecidableEq α] [DecidableEq β] :
    System (EmitterState α β) (EmitterEvent α β) where
  Init s := s = {}
  step := EmitterState.step

end AgentlyStage
