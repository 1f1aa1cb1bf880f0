import AgentlyStage.EmitterClosing
import Mathlib.Data.List.Perm.Basic

/-!
# Closing a bridge

The Stages of a `StageCallBridge`: its submit Stage (which it owns unless it was given one), its
carrier Stage, and a routed Stage for every call of an `as_sync` adapter that cannot go to the
carrier.  `close` sets `_closing`, takes the routed Stages that are there, and closes these, the
carrier Stage and the owned submit Stage one after another; after the last one it sets `_closed`.

`Stage.close` raises what the Stage has recorded, and does so again whenever it is called.  The
calls of the adapters go on meanwhile.  `async_close` is `close` on another thread.
-/

namespace AgentlyStage

open Transition

/-! ## 1. The Stages -/

/-- One Stage of the bridge; these have no idle timeout. -/
structure OwnedStage (ε : Type) where
  scope : ScopeState := {}
  scopeSettlementErrors : List ε := []
  /-- What `_raise_scope_errors` has read for the `close` that is under way. -/
  read : Option (List ε) := none

namespace OwnedStage

variable {ε : Type} (stage : OwnedStage ε)

/-- A step of the scope. -/
def scopeStep (e : ScopeEvent) : Option (OwnedStage ε) :=
  (stage.scope.step e).map fun scope => { stage with scope := scope }

/-- A notification adds the errors of its handle. -/
def work (e : ScopeEvent) (errors : List ε) : Option (OwnedStage ε) :=
  { stage with scopeSettlementErrors := stage.scopeSettlementErrors ++ errors }.scopeStep e

/-- The `wait_settled` of a `close` reads the errors after its wait. -/
def readErrors : Option (OwnedStage ε) :=
  if stage.scope.closePhase = .settled ∧ stage.read.isNone then
    some { stage with read := some stage.scopeSettlementErrors }
  else none

/-- `Stage.close` goes to its wait. -/
def startClose : Option (OwnedStage ε) := { stage with read := none }.scopeStep .closeStart

end OwnedStage

/-! ## 2. Callers -/

inductive AwaitableState where
  /-- The function has not returned an awaitable. -/
  | none
  | pending
  /-- A Stage has accepted it under a handle. -/
  | admitted (σ h : Nat)
  /-- Its `close` has been called, if it has one. -/
  | closed
  /-- Nobody will run it or close it. -/
  | dropped
deriving DecidableEq, Repr

inductive CallPhase where
  /-- Before `_ensure_open`. -/
  | called
  /-- Before or in the user function. -/
  | function
  /-- It has the awaitable and has not chosen a Stage. -/
  | resolving
  /-- Before `stage.__enter__()` of its routed Stage. -/
  | entering (σ : Nat)
  /-- Before `go`. -/
  | going (σ : Nat)
  /-- The handle is a member and its work is not submitted. -/
  | posting (σ h : Nat)
  /-- The submission has failed and released its work. -/
  | unposted (σ h : Nat)
  /-- It waits for the result. -/
  | running (σ h : Nat)
  /-- A managed call waits for its handle on the carrier Stage. -/
  | settling (h : Nat)
  /-- The result is there; before `stage.seal()`. -/
  | sealing (σ : Nat)
  /-- Before and in its own `stage.close()`. -/
  | closingOwn (σ : Nat)
  | inOwnClose (σ : Nat)
  /-- Before the `finally` clause gives up the routed Stage. -/
  | leaving (σ : Nat)
  | returned
  | raised
deriving DecidableEq, Repr

/-- The routed or carrier Stage a call is at work with. -/
def CallPhase.uses : CallPhase → Option Nat
  | .entering σ | .going σ | .posting σ _ | .unposted σ _ | .running σ _ | .sealing σ |
    .closingOwn σ | .inOwnClose σ | .leaving σ => some σ
  | _ => none

/-- A call of an `as_sync` adapter. -/
structure BridgeCall where
  managed : Bool
  phase : CallPhase := .called
  awaitable : AwaitableState := .none
  /-- An exception is under way. -/
  raising : Bool := false
deriving DecidableEq, Repr

def BridgeCall.finish (call : BridgeCall) (raising : Bool) : BridgeCall :=
  { call with phase := if raising then .raised else .returned, raising := raising }

inductive BridgeClosePhase where
  /-- Before `_close_operation_lock`. -/
  | called
  /-- It closes these Stages, one after another. -/
  | closing (todo : List Nat)
  /-- In the `Stage.close` of the first one. -/
  | inStage (σ : Nat) (todo : List Nat)
  | returned
  /-- A Stage has raised its settlement errors. -/
  | raised
  | timedOut
  /-- A guard of `Stage.close` has raised: the caller is work of the Stage, or on its loop. -/
  | refused
deriving DecidableEq, Repr

/-- The Stages that are still to close. -/
def BridgeClosePhase.todo : BridgeClosePhase → Option (List Nat)
  | .closing todo => some todo
  | .inStage σ todo => some (σ :: todo)
  | _ => none

/-- An exception other than a timeout has ended it. -/
def BridgeClosePhase.isStopped : BridgeClosePhase → Bool
  | .raised | .refused => true
  | _ => false

/-- A call of `close`. -/
structure BridgeClose where
  phase : BridgeClosePhase := .called
  /-- History: the Stages it is to close. -/
  stages : List Nat := []
deriving DecidableEq, Repr

/-! ## 3. The bridge -/

structure ClosingBridge (ε : Type) where
  ownsSubmitStage : Bool
  /-- `_submit_stage`, `_carrier_stage` and all routed Stages. -/
  stages : List (OwnedStage ε) := [{}, {}]
  routedStages : List Nat := []
  isClosing : Bool := false
  isClosed : Bool := false
  closes : List BridgeClose := []
  /-- The caller that holds `_close_operation_lock`. -/
  closeHolder : Option Nat := none
  calls : List BridgeCall := []

def submitStage : Nat := 0

def carrierStage : Nat := 1

inductive AdapterEvent (ε : Type) where
  /-- A step of the work of a Stage; a quiescence notification adds errors. -/
  | work (σ : Nat) (e : ScopeEvent) (errors : List ε)
  | callClose
  /-- The close takes the Stages in the order of the `WeakSet`. -/
  | enterClose (i : Nat) (order : List Nat)
  | guardRefuses (i : Nat)
  | startStage (i : Nat)
  /-- The wait of the `Stage.close` that is under way. -/
  | stageSettled (σ : Nat)
  | readErrors (σ : Nat)
  | stageTimesOut (i : Nat)
  | stageDone (i : Nat)
  | finishClose (i : Nat)
  | callAsSync (managed : Bool)
  | ensureOpen (c : Nat)
  /-- The user function returns, or raises. -/
  | callFunction (c : Nat) (awaitable raises : Bool)
  | resolve (c : Nat) (routed : Bool)
  | enterScope (c : Nat)
  /-- `go`, from a context of the Stage's own work if it is `owned`. -/
  | go (c : Nat) (owned : Bool)
  /-- `go` raises for another reason, or because its submission has failed. -/
  | goRaises (c : Nat)
  | submitted (c : Nat)
  | submissionFails (c : Nat)
  /-- The task cannot be created, or is cancelled before its first step. -/
  | startFails (c : Nat)
  | result (c : Nat) (raises : Bool)
  | handleSettled (c : Nat) (raises : Bool)
  | sealOwn (c : Nat)
  | startOwnClose (c : Nat)
  | ownCloseDone (c : Nat)
  | leave (c : Nat)
  /-- A routed Stage that nothing refers to any more leaves the `WeakSet`. -/
  | collect (σ : Nat)

/-- The work that goes on in the carrier Stage and in the routed ones. -/
def AdapterEvent.isBodyWork : ScopeEvent → Bool
  | .retain _ _ | .release _ _ | .completeBody _ | .drainStep _ | .notify _ | .executorCall _ => true
  | _ => false

def AdapterEvent.notifies : ScopeEvent → Bool
  | .notify _ | .registrationFails _ => true
  | _ => false

namespace ClosingBridge

variable {ε : Type} (s : ClosingBridge ε)

def when (condition : Prop) [Decidable condition] (t : ClosingBridge ε) :
    Option (ClosingBridge ε) :=
  if condition then some t else none

def setCall (c : Nat) (call : BridgeCall) : ClosingBridge ε :=
  { s with calls := s.calls.set c call }

def setClose (i : Nat) (close : BridgeClose) : ClosingBridge ε :=
  { s with closes := s.closes.set i close }

def setStage (σ : Nat) (stage : OwnedStage ε) : ClosingBridge ε :=
  { s with stages := s.stages.set σ stage }

/-- A step of one Stage. -/
def onStage (σ : Nat) (f : OwnedStage ε → Option (OwnedStage ε)) : Option (ClosingBridge ε) :=
  match s.stages[σ]? with
  | some stage => (f stage).map (s.setStage σ)
  | none => none

/-- The close `i` goes on at another phase. -/
def closeAt (i : Nat) (phase : BridgeClosePhase) : ClosingBridge ε :=
  { s with closes := s.closes.modify i fun close => { close with phase := phase } }

/-- It gives up the operation lock. -/
def endClose (i : Nat) (phase : BridgeClosePhase) : ClosingBridge ε :=
  { s.closeAt i phase with closeHolder := none }

/-- After the `Stage.close` of a Stage with these errors. -/
def afterStage (i : Nat) (todo : List Nat) (errors : List ε) : ClosingBridge ε :=
  if errors.isEmpty then s.closeAt i (.closing todo) else s.endClose i .raised

def closePhase (i : Nat) : Option BridgeClosePhase := (s.closes[i]?).map BridgeClose.phase

/-- The carrier Stage, and the submit Stage if it is the bridge's own. -/
def fixedStages : List Nat :=
  if s.ownsSubmitStage then [carrierStage, submitStage] else [carrierStage]

/-- `close` in the two locks. -/
def enterClose (i : Nat) (order : List Nat) : ClosingBridge ε :=
  let stages := order ++ s.fixedStages
  if s.isClosed then s.setClose i { phase := .returned, stages := stages }
  else
    { s.setClose i { phase := .closing stages, stages := stages } with
      isClosing := true
      closeHolder := some i }

/-- An exception of `go`: the routed path closes the awaitable. -/
def raiseFromGo (c σ : Nat) (call : BridgeCall) : ClosingBridge ε :=
  if σ = carrierStage then
    s.setCall c { call with phase := .raised, awaitable := .dropped, raising := true }
  else s.setCall c { call with phase := .leaving σ, awaitable := .closed, raising := true }

/-- `_resolve_awaitable_in_routed_scope` in the lock. -/
def route (c : Nat) (call : BridgeCall) : ClosingBridge ε :=
  if s.isClosing then
    s.setCall c { call with phase := .raised, awaitable := .closed, raising := true }
  else
    { s.setCall c { call with phase := .entering s.stages.length } with
      stages := s.stages ++ [{}]
      routedStages := s.routedStages ++ [s.stages.length] }

/-- The result of a call is there. -/
def afterResult (c σ h : Nat) (call : BridgeCall) (raises : Bool) : ClosingBridge ε :=
  if σ = carrierStage then
    if call.managed then s.setCall c { call with phase := .settling h, raising := raises }
    else s.setCall c (call.finish raises)
  else s.setCall c { call with phase := .sealing σ, raising := raises }

/-- The `finally` clause of a routed call. -/
def leave (c σ : Nat) (call : BridgeCall) (stage : OwnedStage ε) : ClosingBridge ε :=
  if call.managed ∨ stage.scope.hasActiveWorkLocked = false then
    { s.setCall c (call.finish call.raising) with routedStages := s.routedStages.erase σ }
  else s.setCall c (call.finish call.raising)

/-- Nothing refers to the Stage. -/
def isUnused (σ : Nat) (stage : OwnedStage ε) : Bool :=
  !stage.scope.hasActiveWorkLocked && stage.scope.handles.all (fun h => decide (h.pendingWork = 0)) &&
    s.calls.all fun call => decide (call.phase.uses ≠ some σ)

/-- The steps of the callers of `close`. -/
def closeStep : AdapterEvent ε → Option (ClosingBridge ε)
  | .callClose => some { s with closes := s.closes ++ [{}] }
  | .enterClose i order =>
    when (s.closePhase i = some .called ∧ s.closeHolder = none ∧ order.Perm s.routedStages)
      (s.enterClose i order)
  | .guardRefuses i =>
    match s.closePhase i with
    | some (.closing (_ :: _)) => some (s.endClose i .refused)
    | _ => none
  | .startStage i =>
    match s.closePhase i with
    | some (.closing (σ :: todo)) =>
      match s.stages[σ]? with
      | some stage =>
        if stage.scope.closeCompleted then
          when (stage.scope.closePhase = .idle) (s.afterStage i todo stage.scopeSettlementErrors)
        else (stage.startClose).map ((s.closeAt i (.inStage σ todo)).setStage σ)
      | none => none
    | _ => none
  | .stageSettled σ => s.onStage σ (OwnedStage.scopeStep · .closeSettled)
  | .readErrors σ => s.onStage σ OwnedStage.readErrors
  | .stageTimesOut i =>
    match s.closePhase i with
    | some (.inStage σ _) => (s.endClose i .timedOut).onStage σ (OwnedStage.scopeStep · .closeTimeout)
    | _ => none
  | .stageDone i =>
    match s.closePhase i with
    | some (.inStage σ todo) =>
      match s.stages[σ]? with
      | some stage =>
        match stage.read with
        | some errors => (s.afterStage i todo errors).onStage σ (OwnedStage.scopeStep · .closeDone)
        | none => none
      | none => none
    | _ => none
  | .finishClose i =>
    when (s.closePhase i = some (.closing []))
      { s.endClose i .returned with isClosed := true, routedStages := [] }
  | _ => none

/-- The steps of a call of an adapter. -/
def callStep (c : Nat) (call : BridgeCall) : AdapterEvent ε → Option (ClosingBridge ε)
  | .ensureOpen _ =>
    when (call.phase = .called)
      (s.setCall c (if s.isClosing then call.finish true else { call with phase := .function }))
  | .callFunction _ awaitable raises =>
    when (call.phase = .function)
      (s.setCall c (if awaitable ∧ ¬ raises then
          { call with phase := .resolving, awaitable := .pending }
        else call.finish raises))
  | .resolve _ routed =>
    when (call.phase = .resolving)
      (if routed then s.route c call else s.setCall c { call with phase := .going carrierStage })
  | .enterScope _ =>
    match call.phase with
    | .entering σ =>
      (s.stages[σ]?).map fun stage =>
        if stage.scope.isSealed then
          s.setCall c { call with phase := .closingOwn σ, awaitable := .dropped, raising := true }
        else s.setCall c { call with phase := .going σ }
    | _ => none
  | .go _ owned =>
    match call.phase with
    | .going σ =>
      match s.stages[σ]? with
      | some stage =>
        if stage.scope.callAllowed owned then
          (stage.scopeStep (.go owned 0)).map ((s.setCall c { call with
            phase := .posting σ stage.scope.handles.length
            awaitable := .admitted σ stage.scope.handles.length }).setStage σ)
        else when (stage.scope.callEnabled owned = true) (s.raiseFromGo c σ call)
      | none => none
    | _ => none
  | .goRaises _ =>
    match call.phase with
    | .going σ => some (s.raiseFromGo c σ call)
    | .unposted σ h =>
      match s.stages[σ]? with
      | some stage => when (h ∉ stage.scope.notifications) (s.raiseFromGo c σ call)
      | none => none
    | _ => none
  | .submitted _ =>
    match call.phase with
    | .posting σ h =>
      (s.setCall c { call with phase := .running σ h }).onStage σ
        (OwnedStage.scopeStep · (.submit h))
    | _ => none
  | .submissionFails _ =>
    match call.phase with
    | .posting σ h =>
      (s.setCall c { call with phase := .unposted σ h, awaitable := .pending }).onStage σ
        (OwnedStage.scopeStep · (.submitFails h))
    | _ => none
  | .startFails _ =>
    match call.phase with
    | .running σ h =>
      (s.setCall c { call with awaitable := .dropped }).onStage σ
        (OwnedStage.scopeStep · (.completeBody h))
    | _ => none
  | .result _ raises =>
    match call.phase with
    | .running σ h =>
      match s.stages[σ]? with
      | some stage =>
        -- the guard of a wait may raise before the body has ended
        when (raises = true ∨ (stage.scope.handle h).bodyCompleted = true)
          (s.afterResult c σ h call raises)
      | none => none
    | _ => none
  | .handleSettled _ raises =>
    match call.phase with
    | .settling h =>
      match s.stages[carrierStage]? with
      | some stage =>
        when (raises = true ∨ stage.scope.pendingWork h = 0)
          (s.setCall c (call.finish (call.raising || raises)))
      | none => none
    | _ => none
  | .sealOwn _ =>
    match call.phase with
    | .sealing σ =>
      (s.setCall c { call with phase := if call.managed then .closingOwn σ else .leaving σ }).onStage
        σ (OwnedStage.scopeStep · .sealScope)
    | _ => none
  | .startOwnClose _ =>
    match call.phase with
    | .closingOwn σ =>
      match s.stages[σ]? with
      | some stage =>
        if stage.scope.closeCompleted then
          when (stage.scope.closePhase = .idle) (s.setCall c { call with
            phase := .leaving σ
            raising := call.raising || !stage.scopeSettlementErrors.isEmpty })
        else (stage.startClose).map
          ((s.setCall c { call with phase := .inOwnClose σ }).setStage σ)
      | none => none
    | _ => none
  | .ownCloseDone _ =>
    match call.phase with
    | .inOwnClose σ =>
      match s.stages[σ]? with
      | some stage =>
        match stage.read with
        | some errors =>
          (s.setCall c { call with
            phase := .leaving σ
            raising := call.raising || !errors.isEmpty }).onStage σ
              (OwnedStage.scopeStep · .closeDone)
        | none => none
      | none => none
    | _ => none
  | .leave _ =>
    match call.phase with
    | .leaving σ => (s.stages[σ]?).map (s.leave c σ call)
    | _ => none
  | _ => none

/-- A submit Stage that is not the bridge's own may also be closed. -/
def allowsWork (σ : Nat) (event : ScopeEvent) : Bool :=
  if σ = submitStage then !s.ownsSubmitStage || !ScopeState.closes event
  else AdapterEvent.isBodyWork event

/-- The call that makes the step. -/
def caller : AdapterEvent ε → Option Nat
  | .ensureOpen c | .callFunction c _ _ | .resolve c _ | .enterScope c | .go c _ | .goRaises c |
    .submitted c | .submissionFails c | .startFails c | .result c _ | .handleSettled c _ |
    .sealOwn c | .startOwnClose c | .ownCloseDone c | .leave c => some c
  | _ => none

def step (e : AdapterEvent ε) : Option (ClosingBridge ε) :=
  match e with
  | .work σ event errors =>
    if s.allowsWork σ event && (errors.isEmpty || AdapterEvent.notifies event) then
      s.onStage σ (OwnedStage.work · event errors)
    else none
  | .callAsSync managed => some { s with calls := s.calls ++ [{ managed := managed }] }
  | .collect σ =>
    match s.stages[σ]? with
    | some stage =>
      when (s.isUnused σ stage) { s with routedStages := s.routedStages.erase σ }
    | none => none
  | e =>
    match caller e with
    | some c =>
      match s.calls[c]? with
      | some call => s.callStep c call e
      | none => none
    | none => s.closeStep e

end ClosingBridge

/-- All interleavings of the calls of a bridge, of the work of its Stages and of `close`. -/
def bridgeStages (ε : Type) (ownsSubmitStage : Bool) :
    System (ClosingBridge ε) (AdapterEvent ε) where
  Init s := s = { ownsSubmitStage := ownsSubmitStage }
  step := ClosingBridge.step

namespace ScopeState

variable {s s' : ScopeState} {e : ScopeEvent}

/-! ## 4. What a close leaves in a scope -/

/-- A close has sealed the scope. -/
def SealedByClose (s : ScopeState) : Prop :=
  s.closePhase ≠ .idle ∨ s.closeCompleted = true → s.isSealed = true

/-- Nothing reopens a scope or takes `_close_completed` back. -/
structure ClosedFurther (s s' : ScopeState) : Prop where
  completed : s.closeCompleted = true → s'.closeCompleted = true
  is_sealed : s.isSealed = true → s'.isSealed = true
  sealedByClose : s.SealedByClose → s'.SealedByClose

theorem ClosedFurther.refl (s : ScopeState) : ClosedFurther s s := ⟨id, id, id⟩

theorem closedFurther_of_step (hstep : s.step e = some s') : ClosedFurther s s' := by
  by_cases he : closes e = true
  · cases e with
    | closeStart =>
      obtain ⟨-, rfl⟩ := when_eq_some hstep
      split
      · exact .refl s
      · exact ⟨id, fun _ => rfl, fun _ _ => rfl⟩
    | closeTimeout =>
      obtain ⟨-, rfl⟩ := when_eq_some hstep
      refine ⟨id, id, fun hs hclose => hs ?_⟩
      exact hclose.imp_left fun h => absurd rfl h
    | closeSettled =>
      obtain ⟨⟨-, hwaiting, -⟩, rfl⟩ := when_eq_some hstep
      refine ⟨id, id, fun hs _ => hs (Or.inl ?_)⟩
      rw [hwaiting]
      exact fun h => by cases h
    | closeDone =>
      obtain ⟨⟨-, hsettled⟩, rfl⟩ := when_eq_some hstep
      refine ⟨fun _ => rfl, id, fun hs _ => hs (Or.inl ?_)⟩
      rw [hsettled]
      exact fun h => by cases h
    | _ => cases he
  · have hk := keepsClose_of_step (by simpa using he) hstep
    refine ⟨fun h => hk.completed.trans h, hk.is_sealed, fun hs hclose => hk.is_sealed (hs ?_)⟩
    rwa [hk.phase, hk.completed] at hclose

end ScopeState

namespace OwnedStage

variable {ε : Type} {stage stage' : OwnedStage ε} {e : ScopeEvent}

theorem scopeStep_eq_some (h : stage.scopeStep e = some stage') :
    ∃ scope, stage.scope.step e = some scope ∧ stage' = { stage with scope := scope } := by
  obtain ⟨scope, hscope, rfl⟩ := Option.map_eq_some_iff.mp h
  exact ⟨scope, hscope, rfl⟩

/-- What a step does to a Stage. -/
structure Next (stage stage' : OwnedStage ε) : Prop where
  scope : stage.scope.ClosedFurther stage'.scope
  errors : stage.scopeSettlementErrors <+: stage'.scopeSettlementErrors

theorem Next.refl (stage : OwnedStage ε) : Next stage stage := ⟨.refl _, List.prefix_rfl⟩

theorem Next.of_scopeStep (h : stage.scopeStep e = some stage') : Next stage stage' := by
  obtain ⟨scope, hscope, rfl⟩ := scopeStep_eq_some h
  exact ⟨ScopeState.closedFurther_of_step hscope, List.prefix_rfl⟩

theorem Next.of_work {errors : List ε} (h : stage.work e errors = some stage') :
    Next stage stage' := by
  obtain ⟨scope, hscope, rfl⟩ := scopeStep_eq_some h
  exact ⟨ScopeState.closedFurther_of_step hscope, List.prefix_append _ _⟩

theorem Next.of_startClose (h : stage.startClose = some stage') : Next stage stage' := by
  obtain ⟨scope, hscope, rfl⟩ := scopeStep_eq_some h
  exact ⟨ScopeState.closedFurther_of_step hscope, List.prefix_rfl⟩

theorem readErrors_eq_some (h : stage.readErrors = some stage') :
    stage.scope.closePhase = .settled ∧
      stage' = { stage with read := some stage.scopeSettlementErrors } := by
  unfold readErrors at h
  split at h
  · rename_i hphase
    cases h
    exact ⟨hphase.1, rfl⟩
  · cases h

end OwnedStage

namespace ClosingBridge

variable {ε : Type} {s s' t : ClosingBridge ε} {i c σ : Nat} {call : BridgeCall}
  {stage stage' : OwnedStage ε}

/-! ## 5. Steps that are not those of a close -/

theorem when_eq_some {condition : Prop} [Decidable condition]
    (h : when condition t = some s') : condition ∧ s' = t := by
  unfold when at h
  split at h
  · rename_i hcondition
    cases h
    exact ⟨hcondition, rfl⟩
  · cases h

theorem onStage_eq_some {f : OwnedStage ε → Option (OwnedStage ε)}
    (h : s.onStage σ f = some s') :
    ∃ stage stage', s.stages[σ]? = some stage ∧ f stage = some stage' ∧
      s' = s.setStage σ stage' := by
  unfold onStage at h
  split at h
  · rename_i stage hget
    obtain ⟨stage', hstage', rfl⟩ := Option.map_eq_some_iff.mp h
    exact ⟨stage, stage', hget, hstage', rfl⟩
  · cases h

/-- The Stages stay, and make steps. -/
def Evolves (s s' : ClosingBridge ε) : Prop :=
  ∀ (σ : Nat) (stage : OwnedStage ε), s.stages[σ]? = some stage →
    ∃ stage', s'.stages[σ]? = some stage' ∧ stage.Next stage'

theorem Evolves.of_eq (h : s'.stages = s.stages) : Evolves s s' :=
  fun _ stage hget => ⟨stage, by rw [h]; exact hget, .refl stage⟩

theorem Evolves.setStage (hget : s.stages[σ]? = some stage) (hnext : stage.Next stage')
    (ht : t.stages = s.stages) : Evolves s (t.setStage σ stage') := by
  intro τ other hother
  by_cases hτ : τ = σ
  · subst hτ
    rw [hget] at hother
    cases hother
    refine ⟨stage', ?_, hnext⟩
    rw [ClosingBridge.setStage, ht, List.getElem?_set_self (List.getElem?_eq_some_iff.mp hget).1]
  · refine ⟨other, ?_, .refl other⟩
    rw [ClosingBridge.setStage, ht, List.getElem?_set_ne (Ne.symm hτ)]
    exact hother

theorem Evolves.length_le (h : Evolves s s') : s.stages.length ≤ s'.stages.length := by
  by_contra hlt
  have hpos : s'.stages.length < s.stages.length := by omega
  obtain ⟨stage', hget, -⟩ := h _ _ (List.getElem?_eq_getElem hpos)
  exact absurd (List.getElem?_eq_some_iff.mp hget).1 (Nat.lt_irrefl _)

/-- What the steps of calls and of work leave as it is. -/
structure Aside (s s' : ClosingBridge ε) : Prop where
  owns : s'.ownsSubmitStage = s.ownsSubmitStage
  closes : s'.closes = s.closes
  closeHolder : s'.closeHolder = s.closeHolder
  isClosing : s'.isClosing = s.isClosing
  isClosed : s'.isClosed = s.isClosed
  evolves : Evolves s s'
  routed : ∀ σ ∈ s'.routedStages, σ ∈ s.routedStages ∨
    s.isClosing = false ∧ σ = s.stages.length ∧ σ < s'.stages.length
  fresh : ∀ σ stage', s'.stages[σ]? = some stage' → σ < s.stages.length ∨ stage' = {}

theorem Aside.of_eq (howns : s'.ownsSubmitStage = s.ownsSubmitStage)
    (hcloses : s'.closes = s.closes) (hholder : s'.closeHolder = s.closeHolder)
    (hclosing : s'.isClosing = s.isClosing) (hclosed : s'.isClosed = s.isClosed)
    (hstages : s'.stages = s.stages) (hrouted : ∀ σ ∈ s'.routedStages, σ ∈ s.routedStages) :
    Aside s s' where
  owns := howns
  closes := hcloses
  closeHolder := hholder
  isClosing := hclosing
  isClosed := hclosed
  evolves := .of_eq hstages
  routed σ hσ := Or.inl (hrouted σ hσ)
  fresh σ stage' hget := by
    rw [hstages] at hget
    exact Or.inl (List.getElem?_eq_some_iff.mp hget).1

theorem Aside.setCall (s : ClosingBridge ε) (c : Nat) (call : BridgeCall) :
    Aside s (s.setCall c call) :=
  .of_eq rfl rfl rfl rfl rfl rfl fun _ h => h

theorem Aside.setStage (hget : s.stages[σ]? = some stage) (hnext : stage.Next stage')
    (ht : Aside s t) (hstages : t.stages = s.stages) : Aside s (t.setStage σ stage') where
  owns := ht.owns
  closes := ht.closes
  closeHolder := ht.closeHolder
  isClosing := ht.isClosing
  isClosed := ht.isClosed
  evolves := .setStage hget hnext hstages
  routed τ hτ := by
    refine (ht.routed τ hτ).imp_right fun ⟨hclosing, hlength, hlt⟩ => ?_
    rw [hstages] at hlt
    exact absurd hlt (by omega)
  fresh τ other hother := by
    refine Or.inl ?_
    have hlt := (List.getElem?_eq_some_iff.mp hother).1
    rwa [ClosingBridge.setStage, List.length_set, hstages] at hlt

theorem Aside.onStage {f : OwnedStage ε → Option (OwnedStage ε)} (ht : Aside s t)
    (hstages : t.stages = s.stages)
    (hnext : ∀ stage stage', f stage = some stage' → stage.Next stage')
    (h : t.onStage σ f = some s') : Aside s s' := by
  obtain ⟨stage, stage', hget, hf, rfl⟩ := onStage_eq_some h
  exact .setStage (by rw [← hstages]; exact hget) (hnext stage stage' hf) ht hstages

theorem aside_raiseFromGo (s : ClosingBridge ε) (c σ : Nat) (call : BridgeCall) :
    Aside s (s.raiseFromGo c σ call) := by
  unfold raiseFromGo
  split
  · exact .setCall s c _
  · exact .setCall s c _

theorem aside_route (s : ClosingBridge ε) (c : Nat) (call : BridgeCall) :
    Aside s (s.route c call) := by
  unfold route
  split
  · exact .setCall s c _
  · rename_i hclosing
    rw [Bool.not_eq_true] at hclosing
    refine ⟨rfl, rfl, rfl, rfl, rfl, fun σ stage hget => ?_, fun σ hσ => ?_,
      fun σ stage' hget => ?_⟩
    · refine ⟨stage, ?_, .refl stage⟩
      exact (List.getElem?_append_left (List.getElem?_eq_some_iff.mp hget).1).trans hget
    · refine (List.mem_append.mp hσ).imp_right fun hσ => ⟨hclosing, List.mem_singleton.mp hσ, ?_⟩
      rw [List.mem_singleton.mp hσ]
      simp
    · by_cases hlt : σ < s.stages.length
      · exact Or.inl hlt
      · rw [show s.stages ++ [{}] = (s.stages ++ [{}] : List (OwnedStage ε)) from rfl,
          List.getElem?_append_right (Nat.le_of_not_lt hlt)] at hget
        exact Or.inr (List.mem_singleton.mp (List.mem_of_getElem? hget))

theorem aside_callStep {e : AdapterEvent ε} (h : s.callStep c call e = some s') : Aside s s' := by
  have hscope : ∀ {event : ScopeEvent} (stage stage' : OwnedStage ε),
      stage.scopeStep event = some stage' → stage.Next stage' :=
    fun _ _ hstage => .of_scopeStep hstage
  cases e with
  | ensureOpen _ | callFunction _ _ _ =>
    obtain ⟨-, rfl⟩ := when_eq_some h
    exact .setCall s c _
  | resolve _ routed =>
    obtain ⟨-, rfl⟩ := when_eq_some h
    split
    · exact aside_route s c call
    · exact .setCall s c _
  | enterScope _ =>
    simp only [callStep] at h
    split at h
    · obtain ⟨stage, -, rfl⟩ := Option.map_eq_some_iff.mp h
      split
      · exact .setCall s c _
      · exact .setCall s c _
    · cases h
  | go _ owned =>
    simp only [callStep] at h
    split at h
    · split at h
      · rename_i stage hget
        split at h
        · obtain ⟨stage', hstage', rfl⟩ := Option.map_eq_some_iff.mp h
          exact .setStage hget (.of_scopeStep hstage') (.setCall s c _) rfl
        · obtain ⟨-, rfl⟩ := when_eq_some h
          exact aside_raiseFromGo s c _ call
      · cases h
    · cases h
  | goRaises _ =>
    simp only [callStep] at h
    split at h
    · cases h
      exact aside_raiseFromGo s c _ call
    · split at h
      · obtain ⟨-, rfl⟩ := when_eq_some h
        exact aside_raiseFromGo s c _ call
      · cases h
    · cases h
  | submitted _ | submissionFails _ | startFails _ | sealOwn _ =>
    simp only [callStep] at h
    split at h
    · exact .onStage (.setCall s c _) rfl hscope h
    · cases h
  | result _ raises =>
    simp only [callStep] at h
    split at h
    · split at h
      · obtain ⟨-, rfl⟩ := when_eq_some h
        unfold afterResult
        split
        · split
          · exact .setCall s c _
          · exact .setCall s c _
        · exact .setCall s c _
      · cases h
    · cases h
  | handleSettled _ raises =>
    simp only [callStep] at h
    split at h
    · split at h
      · obtain ⟨-, rfl⟩ := when_eq_some h
        exact .setCall s c _
      · cases h
    · cases h
  | startOwnClose _ =>
    simp only [callStep] at h
    split at h
    · split at h
      · rename_i stage hget
        split at h
        · obtain ⟨-, rfl⟩ := when_eq_some h
          exact .setCall s c _
        · obtain ⟨stage', hstage', rfl⟩ := Option.map_eq_some_iff.mp h
          exact .setStage hget (.of_startClose hstage') (.setCall s c _) rfl
      · cases h
    · cases h
  | ownCloseDone _ =>
    simp only [callStep] at h
    split at h
    · split at h
      · split at h
        · exact .onStage (.setCall s c _) rfl hscope h
        · cases h
      · cases h
    · cases h
  | leave _ =>
    simp only [callStep] at h
    split at h
    · obtain ⟨stage, -, rfl⟩ := Option.map_eq_some_iff.mp h
      unfold ClosingBridge.leave
      split
      · exact .of_eq rfl rfl rfl rfl rfl rfl fun τ hτ => List.mem_of_mem_erase hτ
      · exact .setCall s c _
    · cases h
  | _ => cases h

/-- The steps are those of calls and of work, or those of a close. -/
theorem step_cases {e : AdapterEvent ε} (h : s.step e = some s') :
    Aside s s' ∨ s.closeStep e = some s' := by
  cases e with
  | work σ event errors =>
    simp only [ClosingBridge.step] at h
    split at h
    · exact Or.inl (.onStage (.of_eq rfl rfl rfl rfl rfl rfl fun _ h => h) rfl
        (fun _ _ hstage => .of_work hstage) h)
    · cases h
  | callAsSync managed =>
    cases h
    exact Or.inl (.of_eq rfl rfl rfl rfl rfl rfl fun _ h => h)
  | collect σ =>
    simp only [ClosingBridge.step] at h
    split at h
    · obtain ⟨-, rfl⟩ := when_eq_some h
      exact Or.inl (.of_eq rfl rfl rfl rfl rfl rfl fun τ hτ => List.mem_of_mem_erase hτ)
    · cases h
  | callClose | enterClose _ _ | guardRefuses _ | startStage _ | stageSettled _ => exact Or.inr h
  | readErrors _ | stageTimesOut _ | stageDone _ | finishClose _ => exact Or.inr h
  | _ =>
    simp only [ClosingBridge.step, caller] at h
    split at h
    · exact Or.inl (aside_callStep h)
    · cases h

/-! ## 6. The walk of a close -/

/-- The Stage is sealed and closed. -/
def Completed (s : ClosingBridge ε) (σ : Nat) : Prop :=
  ∃ stage, s.stages[σ]? = some stage ∧ stage.scope.isSealed = true ∧
    stage.scope.closeCompleted = true

/-- The close has come to the Stages of `todo`. -/
def Walked (s : ClosingBridge ε) (close : BridgeClose) (todo : List Nat) : Prop :=
  ∃ finished, close.stages = finished ++ todo ∧ ∀ σ ∈ finished, s.Completed σ

structure WalkInv (s : ClosingBridge ε) : Prop where
  sealedByClose : ∀ (σ : Nat) (stage : OwnedStage ε), s.stages[σ]? = some stage →
    stage.scope.SealedByClose
  length : 2 ≤ s.stages.length
  routed : ∀ σ ∈ s.routedStages, 2 ≤ σ ∧ σ < s.stages.length
  walk : ∀ (i : Nat) (close : BridgeClose) todo, s.closes[i]? = some close →
    close.phase.todo = some todo →
    s.closeHolder = some i ∧ s.isClosed = false ∧ s.isClosing = true ∧ s.Walked close todo
  stages : ∀ close ∈ s.closes, close.phase = .called ∧ close.stages = [] ∨
    ∃ order, close.stages = order ++ s.fixedStages ∧ ∀ σ ∈ order, 2 ≤ σ
  returned : ∀ close ∈ s.closes, close.phase = .returned →
    s.isClosed = true ∧ ∀ σ ∈ close.stages, s.Completed σ
  closed : s.isClosed = true → s.isClosing = true ∧ s.routedStages = [] ∧
    ∀ σ ∈ s.fixedStages, s.Completed σ

theorem Completed.evolves (h : s.Completed σ) (he : Evolves s s') : s'.Completed σ := by
  obtain ⟨stage, hget, hsealed, hcompleted⟩ := h
  obtain ⟨stage', hget', hnext⟩ := he σ stage hget
  exact ⟨stage', hget', hnext.scope.is_sealed hsealed, hnext.scope.completed hcompleted⟩

theorem WalkInv.completed (hi : WalkInv s) (hget : s.stages[σ]? = some stage)
    (hcompleted : stage.scope.closeCompleted = true) : s.Completed σ :=
  ⟨stage, hget, hi.sealedByClose σ stage hget (Or.inr hcompleted), hcompleted⟩

theorem walkInv_init (owns : Bool) : WalkInv ({ ownsSubmitStage := owns } : ClosingBridge ε) where
  sealedByClose σ stage hget := by
    have hmem := List.mem_of_getElem? hget
    simp only [List.mem_cons, List.not_mem_nil, or_false, or_self] at hmem
    rw [hmem]
    rintro (h | h)
    · exact absurd rfl h
    · cases h
  length := Nat.le_refl _
  routed σ hσ := by cases hσ
  walk i close todo hget := by simp at hget
  stages close hclose := by cases hclose
  returned close hclose := by cases hclose
  closed h := by cases h

/-- **Step lemma of the calls and of the work.** -/
theorem WalkInv.aside (hi : WalkInv s) (ha : Aside s s') : WalkInv s' := by
  have hfixed : s'.fixedStages = s.fixedStages := by
    rw [fixedStages, fixedStages, ha.owns]
  have hlength := ha.evolves.length_le
  constructor
  · intro σ stage' hget'
    rcases ha.fresh σ stage' hget' with hlt | rfl
    · obtain ⟨other, hother, hnext⟩ := ha.evolves σ _ (List.getElem?_eq_getElem hlt)
      rw [hget'] at hother
      cases hother
      exact hnext.scope.sealedByClose (hi.sealedByClose σ _ (List.getElem?_eq_getElem hlt))
    · rintro (h | h)
      · exact absurd rfl h
      · cases h
  · exact Nat.le_trans hi.length hlength
  · intro σ hσ
    rcases ha.routed σ hσ with hold | ⟨-, rfl, hlt⟩
    · exact ⟨(hi.routed σ hold).1, Nat.lt_of_lt_of_le (hi.routed σ hold).2 hlength⟩
    · exact ⟨hi.length, hlt⟩
  · intro i close todo hget htodo
    rw [ha.closes] at hget
    obtain ⟨hholder, hopen, hclosing, finished, hstages, hdone⟩ := hi.walk i close todo hget htodo
    exact ⟨ha.closeHolder.trans hholder, ha.isClosed.trans hopen, ha.isClosing.trans hclosing,
      finished, hstages, fun σ hσ => (hdone σ hσ).evolves ha.evolves⟩
  · intro close hclose
    rw [ha.closes] at hclose
    rw [hfixed]
    exact hi.stages close hclose
  · intro close hclose hphase
    rw [ha.closes] at hclose
    obtain ⟨hclosed, hdone⟩ := hi.returned close hclose hphase
    exact ⟨ha.isClosed.trans hclosed, fun σ hσ => (hdone σ hσ).evolves ha.evolves⟩
  · intro hclosed
    obtain ⟨hclosing, hrouted, hdone⟩ := hi.closed (ha.isClosed.symm.trans hclosed)
    refine ⟨ha.isClosing.trans hclosing, ?_, ?_⟩
    · refine List.eq_nil_iff_forall_not_mem.mpr fun σ hσ => ?_
      rcases ha.routed σ hσ with hold | ⟨hopen, -⟩
      · rw [hrouted] at hold
        cases hold
      · rw [hclosing] at hopen
        cases hopen
    · rw [hfixed]
      exact fun σ hσ => (hdone σ hσ).evolves ha.evolves

theorem closes_closeAt (s : ClosingBridge ε) (i k : Nat) (phase : BridgeClosePhase) :
    (s.closeAt i phase).closes[k]? =
      if i = k then (s.closes[k]?).map fun close => { close with phase := phase }
      else s.closes[k]? := by
  rw [closeAt, List.getElem?_modify]
  split
  · rfl
  · exact Option.map_id'

/-- A close at another phase, among the others. -/
theorem closeAt_cases {close other : BridgeClose} {k : Nat} {phase : BridgeClosePhase}
    (hget : s.closes[i]? = some close) (h : (s.closeAt i phase).closes[k]? = some other) :
    k = i ∧ other = { close with phase := phase } ∨ k ≠ i ∧ s.closes[k]? = some other := by
  rw [closes_closeAt] at h
  split at h
  · rename_i hik
    subst hik
    rw [hget] at h
    exact Or.inl ⟨rfl, (Option.some.inj h).symm⟩
  · rename_i hik
    exact Or.inr ⟨Ne.symm hik, h⟩

/-- Who closes has the operation lock; so nobody else is at it. -/
theorem WalkInv.alone (hi : WalkInv s) (hholder : s.closeHolder = some i) {k : Nat}
    {close : BridgeClose} {todo : List Nat} (hget : s.closes[k]? = some close)
    (htodo : close.phase.todo = some todo) : k = i := by
  have hk := (hi.walk k close todo hget htodo).1
  rw [hholder] at hk
  exact (Option.some.inj hk).symm

/-- A close goes on to another phase, with or without the lock. -/
theorem WalkInv.closeAt (hi : WalkInv s) {close : BridgeClose} {todo : List Nat}
    {phase : BridgeClosePhase} (holder : Option Nat) (hget : s.closes[i]? = some close)
    (htodo : close.phase.todo = some todo)
    (hreturned : phase ≠ .returned)
    (hwalked : ∀ rest, phase.todo = some rest → holder = some i ∧ s.Walked close rest) :
    WalkInv { s.closeAt i phase with closeHolder := holder } := by
  obtain ⟨hholder, hopen, hclosing, -⟩ := hi.walk i close todo hget htodo
  have hnot : close.phase ≠ .called := by
    intro h
    rw [h] at htodo
    cases htodo
  refine ⟨hi.sealedByClose, hi.length, hi.routed, fun k other rest hother hrest => ?_,
    fun other hmem => ?_, fun other hmem hphase => ?_, hi.closed⟩
  · rcases closeAt_cases hget hother with ⟨rfl, rfl⟩ | ⟨hne, hother⟩
    · obtain ⟨hsome, hwalk⟩ := hwalked rest hrest
      exact ⟨hsome, hopen, hclosing, hwalk⟩
    · exact absurd (hi.alone hholder hother hrest) hne
  · obtain ⟨k, hother⟩ := List.mem_iff_getElem?.mp hmem
    rcases closeAt_cases hget hother with ⟨-, rfl⟩ | ⟨-, hother⟩
    · rcases hi.stages close (List.mem_of_getElem? hget) with ⟨hcalled, -⟩ | horder
      · exact absurd hcalled hnot
      · exact Or.inr horder
    · exact hi.stages other (List.mem_of_getElem? hother)
  · obtain ⟨k, hother⟩ := List.mem_iff_getElem?.mp hmem
    rcases closeAt_cases hget hother with ⟨-, rfl⟩ | ⟨-, hother⟩
    · exact absurd hphase hreturned
    · exact hi.returned other (List.mem_of_getElem? hother) hphase

theorem mem_setClose {close other : BridgeClose} (h : other ∈ (s.setClose i close).closes) :
    other ∈ s.closes ∨ other = close :=
  List.mem_or_eq_of_mem_set h

theorem getElem?_setClose {close other : BridgeClose} {k : Nat}
    (h : (s.setClose i close).closes[k]? = some other) :
    k = i ∧ other = close ∨ s.closes[k]? = some other := by
  rw [setClose, List.getElem?_set] at h
  split at h
  · rename_i hik
    split at h
    · exact Or.inl ⟨hik.symm, (Option.some.inj h).symm⟩
    · cases h
  · exact Or.inr h

theorem WalkInv.enterClose (hi : WalkInv s) {order : List Nat} (hfree : s.closeHolder = none)
    (horder : order.Perm s.routedStages) : WalkInv (s.enterClose i order) := by
  have hroutes : ∀ σ ∈ order, 2 ≤ σ := fun σ hσ => (hi.routed σ (horder.mem_iff.mp hσ)).1
  have hidle : ∀ (k : Nat) (close : BridgeClose) todo, s.closes[k]? = some close →
      close.phase.todo ≠ some todo := by
    intro k close todo hget htodo
    have hholder := (hi.walk k close todo hget htodo).1
    rw [hfree] at hholder
    cases hholder
  unfold ClosingBridge.enterClose
  split
  · rename_i hclosed
    obtain ⟨-, hrouted, hdone⟩ := hi.closed hclosed
    have hempty : order = [] := by
      rw [hrouted] at horder
      exact List.perm_nil.mp horder
    refine ⟨hi.sealedByClose, hi.length, hi.routed, fun k close todo hget htodo => ?_,
      fun close hmem => ?_, fun close hmem hphase => ?_, hi.closed⟩
    · rcases getElem?_setClose hget with ⟨-, rfl⟩ | hget
      · cases htodo
      · exact absurd htodo (hidle k close todo hget)
    · rcases mem_setClose hmem with hmem | rfl
      · exact hi.stages close hmem
      · exact Or.inr ⟨order, rfl, hroutes⟩
    · rcases mem_setClose hmem with hmem | rfl
      · exact hi.returned close hmem hphase
      · refine ⟨hclosed, fun σ hσ => hdone σ ?_⟩
        rwa [hempty, List.nil_append] at hσ
  · rename_i hclosed
    rw [Bool.not_eq_true] at hclosed
    refine ⟨hi.sealedByClose, hi.length, hi.routed, fun k close todo hget htodo => ?_,
      fun close hmem => ?_, fun close hmem hphase => ?_, fun h => ?_⟩
    · rcases getElem?_setClose hget with ⟨rfl, rfl⟩ | hget
      · cases htodo
        exact ⟨rfl, hclosed, rfl, [], rfl, fun σ hσ => by cases hσ⟩
      · exact absurd htodo (hidle k close todo hget)
    · rcases mem_setClose hmem with hmem | rfl
      · exact hi.stages close hmem
      · exact Or.inr ⟨order, rfl, hroutes⟩
    · rcases mem_setClose hmem with hmem | rfl
      · exact hi.returned close hmem hphase
      · cases hphase
    · exact absurd (show s.isClosed = true from h) (by rw [hclosed]; exact Bool.false_ne_true)

theorem closePhase_eq_some {phase : BridgeClosePhase} (h : s.closePhase i = some phase) :
    ∃ close, s.closes[i]? = some close ∧ close.phase = phase :=
  Option.map_eq_some_iff.mp h

/-- After the last Stage. -/
theorem WalkInv.finishClose (hi : WalkInv s) (hphase : s.closePhase i = some (.closing [])) :
    WalkInv { s.endClose i .returned with isClosed := true, routedStages := [] } := by
  obtain ⟨close, hget, hclosing⟩ := closePhase_eq_some hphase
  obtain ⟨hholder, hopen, hset, finished, hstages, hdone⟩ :=
    hi.walk i close [] hget (by rw [hclosing]; rfl)
  rw [List.append_nil] at hstages
  rw [← hstages] at hdone
  obtain ⟨order, horder, hroutes⟩ : ∃ order, close.stages = order ++ s.fixedStages ∧
      ∀ σ ∈ order, 2 ≤ σ := by
    rcases hi.stages close (List.mem_of_getElem? hget) with ⟨hcalled, -⟩ | horder
    · rw [hclosing] at hcalled
      cases hcalled
    · exact horder
  refine ⟨hi.sealedByClose, hi.length, (fun σ hσ => by cases hσ),
    fun k other todo hother htodo => ?_, fun other hmem => ?_,
    fun other hmem hother => ⟨rfl, ?_⟩, fun _ => ⟨hset, rfl, fun σ hσ => hdone σ ?_⟩⟩
  · rcases closeAt_cases hget hother with ⟨-, rfl⟩ | ⟨hne, hother⟩
    · cases htodo
    · exact absurd (hi.alone hholder hother htodo) hne
  · obtain ⟨k, hk⟩ := List.mem_iff_getElem?.mp hmem
    rcases closeAt_cases hget hk with ⟨-, rfl⟩ | ⟨-, hk⟩
    · exact Or.inr ⟨order, horder, hroutes⟩
    · exact hi.stages other (List.mem_of_getElem? hk)
  · obtain ⟨k, hk⟩ := List.mem_iff_getElem?.mp hmem
    rcases closeAt_cases hget hk with ⟨-, rfl⟩ | ⟨-, hk⟩
    · exact hdone
    · exact (hi.returned other (List.mem_of_getElem? hk) hother).2
  · rw [horder]
    exact List.mem_append_right _ hσ

/-- The first Stage has been closed, and has raised or not. -/
theorem WalkInv.afterStage (hi : WalkInv s) {close : BridgeClose} {todo : List Nat}
    {errors : List ε} (hget : s.closes[i]? = some close)
    (htodo : close.phase.todo = some (σ :: todo)) (hcompleted : s.Completed σ) :
    WalkInv (s.afterStage i todo errors) := by
  obtain ⟨hholder, -, -, finished, hstages, hdone⟩ := hi.walk i close (σ :: todo) hget htodo
  unfold ClosingBridge.afterStage
  split
  · have hwalked : s.Walked close todo := by
      refine ⟨finished ++ [σ], by rw [hstages, List.append_assoc]; rfl, fun τ hτ => ?_⟩
      rcases List.mem_append.mp hτ with hτ | hτ
      · exact hdone τ hτ
      · rw [List.mem_singleton.mp hτ]
        exact hcompleted
    refine hi.closeAt s.closeHolder hget htodo (fun h => by cases h) fun rest hrest => ?_
    cases hrest
    exact ⟨hholder, hwalked⟩
  · exact hi.closeAt none hget htodo (fun h => by cases h) fun rest hrest => by cases hrest

theorem stages_afterStage (s : ClosingBridge ε) (i : Nat) (todo : List Nat) (errors : List ε) :
    (s.afterStage i todo errors).stages = s.stages := by
  unfold ClosingBridge.afterStage
  split
  · rfl
  · rfl

theorem afterStage_setStage (s : ClosingBridge ε) (i σ : Nat) (todo : List Nat) (errors : List ε)
    (stage : OwnedStage ε) : (s.afterStage i todo errors).setStage σ stage =
      (s.setStage σ stage).afterStage i todo errors := by
  unfold ClosingBridge.afterStage
  split
  · rfl
  · rfl

theorem aside_setStage (hget : s.stages[σ]? = some stage) (hnext : stage.Next stage') :
    Aside s (s.setStage σ stage') :=
  .setStage hget hnext (.of_eq rfl rfl rfl rfl rfl rfl fun _ h => h) rfl

theorem scopeStep_closeDone (h : stage.scopeStep .closeDone = some stage') :
    stage'.scope.closeCompleted = true := by
  obtain ⟨scope, hscope, rfl⟩ := OwnedStage.scopeStep_eq_some h
  obtain ⟨-, rfl⟩ := ScopeState.when_eq_some hscope
  rfl

/-- What `stageDone` is. -/
theorem stageDone_spec (h : s.closeStep (.stageDone i) = some s') :
    ∃ σ todo stage errors stage', s.closePhase i = some (.inStage σ todo) ∧
      s.stages[σ]? = some stage ∧ stage.read = some errors ∧
      stage.scopeStep .closeDone = some stage' ∧
      s' = (s.setStage σ stage').afterStage i todo errors := by
  simp only [closeStep] at h
  split at h
  · rename_i σ todo hphase
    split at h
    · rename_i stage hget
      split at h
      · rename_i errors hread
        obtain ⟨other, stage', hother, hstage', rfl⟩ := onStage_eq_some h
        rw [stages_afterStage, hget] at hother
        cases hother
        exact ⟨σ, todo, stage, errors, stage', hphase, hget, hread, hstage',
          afterStage_setStage s i σ todo errors stage'⟩
      · cases h
    · cases h
  · cases h

/-- What `startStage` is: a Stage that is closed already raises again. -/
theorem startStage_spec (h : s.closeStep (.startStage i) = some s') :
    ∃ σ todo stage, s.closePhase i = some (.closing (σ :: todo)) ∧ s.stages[σ]? = some stage ∧
      (stage.scope.closeCompleted = true ∧ s' = s.afterStage i todo stage.scopeSettlementErrors ∨
        stage.scope.closeCompleted = false ∧ ∃ stage', stage.startClose = some stage' ∧
          s' = (s.setStage σ stage').closeAt i (.inStage σ todo)) := by
  simp only [closeStep] at h
  split at h
  · rename_i σ todo hphase
    split at h
    · rename_i stage hget
      refine ⟨σ, todo, stage, hphase, hget, ?_⟩
      split at h
      · rename_i hcompleted
        obtain ⟨-, rfl⟩ := when_eq_some h
        exact Or.inl ⟨hcompleted, rfl⟩
      · rename_i hcompleted
        obtain ⟨stage', hstage', rfl⟩ := Option.map_eq_some_iff.mp h
        exact Or.inr ⟨by simpa using hcompleted, stage', hstage', rfl⟩
    · cases h
  · cases h

theorem todo_of_closePhase {phase : BridgeClosePhase} (h : s.closePhase i = some phase)
    {todo : List Nat} (htodo : phase.todo = some todo) :
    ∃ close, s.closes[i]? = some close ∧ close.phase.todo = some todo := by
  obtain ⟨close, hget, rfl⟩ := closePhase_eq_some h
  exact ⟨close, hget, htodo⟩

theorem WalkInv.closeStep (hi : WalkInv s) {e : AdapterEvent ε} (h : s.closeStep e = some s') :
    WalkInv s' := by
  cases e with
  | callClose =>
    cases h
    refine ⟨hi.sealedByClose, hi.length, hi.routed, fun k close todo hget htodo => ?_,
      fun close hmem => ?_, fun close hmem hphase => ?_, hi.closed⟩
    · rw [List.getElem?_append] at hget
      split at hget
      · exact hi.walk k close todo hget htodo
      · rw [List.mem_singleton.mp (List.mem_of_getElem? hget)] at htodo
        cases htodo
    · rcases List.mem_append.mp hmem with hmem | hmem
      · exact hi.stages close hmem
      · rw [List.mem_singleton.mp hmem]
        exact Or.inl ⟨rfl, rfl⟩
    · rcases List.mem_append.mp hmem with hmem | hmem
      · exact hi.returned close hmem hphase
      · rw [List.mem_singleton.mp hmem] at hphase
        cases hphase
  | enterClose i order =>
    obtain ⟨⟨-, hfree, horder⟩, rfl⟩ := when_eq_some h
    exact hi.enterClose hfree horder
  | guardRefuses i =>
    simp only [ClosingBridge.closeStep] at h
    split at h
    · rename_i σ todo hphase
      cases h
      obtain ⟨close, hget, htodo⟩ := todo_of_closePhase hphase rfl
      exact hi.closeAt none hget htodo (fun h => by cases h) fun rest hrest => by cases hrest
    · cases h
  | startStage i =>
    obtain ⟨σ, todo, stage, hphase, hget, hcase⟩ := startStage_spec h
    obtain ⟨close, hclose, htodo⟩ := todo_of_closePhase hphase rfl
    rcases hcase with ⟨hcompleted, rfl⟩ | ⟨-, stage', hstage', rfl⟩
    · exact hi.afterStage hclose htodo (hi.completed hget hcompleted)
    · have hi' := hi.aside (aside_setStage hget (.of_startClose hstage'))
      obtain ⟨hholder, -, -, hwalked⟩ := hi'.walk i close _ hclose htodo
      refine hi'.closeAt s.closeHolder hclose htodo (fun h => by cases h)
        fun rest hrest => ?_
      cases hrest
      exact ⟨hholder, hwalked⟩
  | stageSettled σ =>
    obtain ⟨stage, stage', hget, hstage', rfl⟩ := onStage_eq_some h
    exact hi.aside (aside_setStage hget (.of_scopeStep hstage'))
  | readErrors σ =>
    obtain ⟨stage, stage', hget, hstage', rfl⟩ := onStage_eq_some h
    obtain ⟨-, rfl⟩ := OwnedStage.readErrors_eq_some hstage'
    exact hi.aside (aside_setStage hget ⟨.refl _, List.prefix_rfl⟩)
  | stageTimesOut i =>
    simp only [ClosingBridge.closeStep] at h
    split at h
    · rename_i σ todo hphase
      obtain ⟨stage, stage', hget, hstage', rfl⟩ := onStage_eq_some h
      obtain ⟨close, hclose, htodo⟩ := todo_of_closePhase hphase rfl
      have hi' := hi.aside (aside_setStage hget (.of_scopeStep hstage'))
      exact hi'.closeAt none hclose htodo (fun h => by cases h)
        fun rest hrest => by cases hrest
    · cases h
  | stageDone i =>
    obtain ⟨σ, todo, stage, errors, stage', hphase, hget, -, hstage', rfl⟩ := stageDone_spec h
    obtain ⟨close, hclose, htodo⟩ := todo_of_closePhase hphase rfl
    have hi' := hi.aside (aside_setStage hget (.of_scopeStep hstage'))
    refine hi'.afterStage hclose htodo (hi'.completed ?_ (scopeStep_closeDone hstage'))
    exact List.getElem?_set_self (List.getElem?_eq_some_iff.mp hget).1
  | finishClose i =>
    obtain ⟨hphase, rfl⟩ := when_eq_some h
    exact hi.finishClose hphase
  | _ => cases h

theorem WalkInv.step (hi : WalkInv s) {e : AdapterEvent ε} (h : s.step e = some s') :
    WalkInv s' := by
  rcases step_cases h with ha | hclose
  · exact hi.aside ha
  · exact hi.closeStep hclose

theorem reachUnder_walkInv {owns : Bool} {ok : ClosingBridge ε → AdapterEvent ε → Prop}
    (h : (bridgeStages ε owns).ReachUnder ok s) : WalkInv s := by
  refine h.invariant (fun t ht => ?_) fun _ _ _ hi _ hstep => hi.step hstep
  cases ht
  exact walkInv_init owns

/-! ## 7. Every close closes all -/

/-- Every close that has come to an end, except by a settlement timeout, has sealed and closed all
    the Stages that it is to close, and a further one finds the bridge closed; a submit Stage that
    is not the bridge's own is not among them. -/
structure ClosesAll (s : ClosingBridge ε) : Prop where
  all : ∀ close ∈ s.closes,
    close.phase = .returned ∨ close.phase = .raised ∨ close.phase = .refused →
    s.isClosed = true ∧ ∀ σ ∈ close.stages, s.Completed σ
  borrowed : s.ownsSubmitStage = false → ∀ close ∈ s.closes,
    submitStage ∉ close.stages ∧ ∀ todo, close.phase ≠ .inStage submitStage todo

/-- A Stage of the close has a settlement error, or a guard of its `Stage.close` raises. -/
def StopsAt (s : ClosingBridge ε) : AdapterEvent ε → Prop
  | .guardRefuses _ => True
  | .startStage i => ∃ σ todo stage, s.closePhase i = some (.closing (σ :: todo)) ∧
      s.stages[σ]? = some stage ∧ stage.scope.closeCompleted = true ∧
      stage.scopeSettlementErrors ≠ []
  | .stageDone i => ∃ σ todo stage errors, s.closePhase i = some (.inStage σ todo) ∧
      s.stages[σ]? = some stage ∧ stage.read = some errors ∧ errors ≠ []
  | _ => False

/-- No close has been stopped but by a timeout. -/
def Unstopped (s : ClosingBridge ε) : Prop :=
  ∀ close ∈ s.closes, close.phase.isStopped = false

theorem Unstopped.closeAt (hu : Unstopped s) {phase : BridgeClosePhase}
    (hphase : phase.isStopped = false) : Unstopped (s.closeAt i phase) := by
  intro close hmem
  obtain ⟨k, hk⟩ := List.mem_iff_getElem?.mp hmem
  rw [closes_closeAt] at hk
  split at hk
  · obtain ⟨other, -, rfl⟩ := Option.map_eq_some_iff.mp hk
    exact hphase
  · exact hu close (List.mem_of_getElem? hk)

theorem Unstopped.afterStage (hu : Unstopped s) {todo : List Nat} {errors : List ε}
    (hnone : errors = []) : Unstopped (s.afterStage i todo errors) := by
  subst hnone
  exact hu.closeAt rfl

theorem Unstopped.step (hu : Unstopped s) {e : AdapterEvent ε} (hok : ¬ s.StopsAt e)
    (h : s.step e = some s') : Unstopped s' := by
  rcases step_cases h with ha | hclose
  · intro close hmem
    rw [ha.closes] at hmem
    exact hu close hmem
  · cases e with
    | callClose =>
      cases hclose
      intro close hmem
      rcases List.mem_append.mp hmem with hmem | hmem
      · exact hu close hmem
      · rw [List.mem_singleton.mp hmem]
        exact rfl
    | enterClose i order =>
      obtain ⟨-, rfl⟩ := when_eq_some hclose
      unfold ClosingBridge.enterClose
      intro close hmem
      split at hmem
      · rcases mem_setClose hmem with hmem | rfl
        · exact hu close hmem
        · exact rfl
      · rcases mem_setClose hmem with hmem | rfl
        · exact hu close hmem
        · exact rfl
    | guardRefuses i => exact absurd trivial hok
    | startStage i =>
      obtain ⟨σ, todo, stage, hphase, hget, hcase⟩ := startStage_spec hclose
      rcases hcase with ⟨hcompleted, rfl⟩ | ⟨-, stage', -, rfl⟩
      · refine hu.afterStage ?_
        by_contra herrors
        exact hok ⟨σ, todo, stage, hphase, hget, hcompleted, herrors⟩
      · exact Unstopped.closeAt (s := s.setStage σ stage') hu
          rfl
    | stageSettled σ | readErrors σ =>
      obtain ⟨-, -, -, -, rfl⟩ := onStage_eq_some hclose
      exact hu
    | stageTimesOut i =>
      simp only [ClosingBridge.closeStep] at hclose
      split at hclose
      · obtain ⟨-, -, -, -, rfl⟩ := onStage_eq_some hclose
        exact hu.closeAt rfl
      · cases hclose
    | stageDone i =>
      obtain ⟨σ, todo, stage, errors, stage', hphase, hget, hread, -, rfl⟩ := stageDone_spec hclose
      refine Unstopped.afterStage (s := s.setStage σ stage') hu ?_
      by_contra herrors
      exact hok ⟨σ, todo, stage, errors, hphase, hget, hread, herrors⟩
    | finishClose i =>
      obtain ⟨-, rfl⟩ := when_eq_some hclose
      exact hu.closeAt rfl
    | _ => cases hclose

theorem reachUnder_unstopped {owns : Bool}
    (h : (bridgeStages ε owns).ReachUnder (fun s e => ¬ s.StopsAt e) s) : Unstopped s := by
  refine h.invariant (fun t ht => ?_) fun _ _ _ hu hok hstep => hu.step hok hstep
  cases ht
  exact fun close hmem => by cases hmem

theorem closesAll_of_unstopped (hi : WalkInv s) (hu : Unstopped s) : ClosesAll s where
  all close hmem hended := by
    have hnot := hu close hmem
    rcases hended with h | h | h
    · exact hi.returned close hmem h
    · rw [h] at hnot
      cases hnot
    · rw [h] at hnot
      cases hnot
  borrowed howns close hmem := by
    have habsent : submitStage ∉ close.stages := by
      intro hsubmit
      rcases hi.stages close hmem with ⟨-, hnone⟩ | ⟨order, hstages, hroutes⟩
      · rw [hnone] at hsubmit
        cases hsubmit
      · rw [hstages, fixedStages, howns] at hsubmit
        rcases List.mem_append.mp hsubmit with hsubmit | hsubmit
        · exact absurd (hroutes _ hsubmit) (by decide)
        · exact absurd (List.mem_singleton.mp hsubmit) (by decide)
    refine ⟨habsent, fun todo hphase => habsent ?_⟩
    obtain ⟨i, hget⟩ := List.mem_iff_getElem?.mp hmem
    obtain ⟨-, -, -, finished, hstages, -⟩ := hi.walk i close _ hget (by rw [hphase]; rfl)
    rw [hstages]
    exact List.mem_append_right _ List.mem_cons_self

/-- A close that is stopped leaves the bridge open. -/
theorem not_closesAll_of_stopped {close : BridgeClose} {phase : BridgeClosePhase}
    (hget : s.closes[i]? = some close) (hopen : s.isClosed = false)
    (hphase : phase = .raised ∨ phase = .refused) : ¬ ClosesAll (s.endClose i phase) := by
  intro hall
  have hmem : { close with phase := phase } ∈ (s.endClose i phase).closes := by
    refine List.mem_iff_getElem?.mpr ⟨i, ?_⟩
    rw [endClose, closes_closeAt, if_pos rfl, hget]
    rfl
  have hclosed := (hall.all _ hmem (Or.inr hphase)).1
  rw [show (s.endClose i phase).isClosed = s.isClosed from rfl, hopen] at hclosed
  cases hclosed

theorem not_closesAll_of_stopsAt (hi : WalkInv s) {e : AdapterEvent ε} (he : s.StopsAt e)
    (h : s.step e = some s') : ¬ s'.ClosesAll := by
  cases e with
  | guardRefuses i =>
    replace h : s.closeStep (.guardRefuses i) = some s' := h
    simp only [ClosingBridge.closeStep] at h
    split at h
    · rename_i σ todo hphase
      cases h
      obtain ⟨close, hget, htodo⟩ := todo_of_closePhase hphase rfl
      exact not_closesAll_of_stopped hget (hi.walk i close _ hget htodo).2.1 (Or.inr rfl)
    · cases h
  | startStage i =>
    obtain ⟨σ, todo, stage, hphase, hget, hcompleted, herrors⟩ := he
    obtain ⟨τ, rest, other, hphase', hget', hcase⟩ := startStage_spec h
    rw [hphase] at hphase'
    cases hphase'
    rw [hget] at hget'
    cases hget'
    obtain ⟨close, hclose, htodo⟩ := todo_of_closePhase hphase rfl
    rcases hcase with ⟨-, rfl⟩ | ⟨hnot, -⟩
    · rw [ClosingBridge.afterStage, if_neg (by simpa using herrors)]
      exact not_closesAll_of_stopped hclose (hi.walk i close _ hclose htodo).2.1 (Or.inl rfl)
    · rw [hcompleted] at hnot
      cases hnot
  | stageDone i =>
    obtain ⟨σ, todo, stage, errors, hphase, hget, hread, herrors⟩ := he
    obtain ⟨τ, rest, other, found, stage', hphase', hget', hread', -, rfl⟩ := stageDone_spec h
    rw [hphase] at hphase'
    cases hphase'
    rw [hget] at hget'
    cases hget'
    rw [hread] at hread'
    cases hread'
    obtain ⟨close, hclose, htodo⟩ := todo_of_closePhase hphase rfl
    rw [ClosingBridge.afterStage, if_neg (by simpa using herrors)]
    exact not_closesAll_of_stopped (s := s.setStage σ stage') hclose
      (hi.walk i close _ hclose htodo).2.1 (Or.inl rfl)
  | _ => cases he

/-- **Closing all Stages, and exactly when.**  As long as no Stage that a close comes to raises
    settlement errors or refuses the caller, every close that is not stopped by a timeout seals and
    closes all Stages of the bridge, and leaves it closed; and after a step at which one does, a
    close has come to an end and the bridge is open. -/
theorem bridge_closes_all_iff (ownsSubmitStage : Bool) (s : ClosingBridge ε) :
    ((bridgeStages ε ownsSubmitStage).ReachUnder (fun s e => ¬ s.StopsAt e) s → s.ClosesAll) ∧
    ∀ e s', (bridgeStages ε ownsSubmitStage).ReachUnder (fun s e => ¬ s.StopsAt e) s →
      (bridgeStages ε ownsSubmitStage).step s e = some s' → s.StopsAt e → ¬ s'.ClosesAll :=
  ⟨fun h => closesAll_of_unstopped (reachUnder_walkInv h) (reachUnder_unstopped h),
    fun _ _ h hstep he => not_closesAll_of_stopsAt (reachUnder_walkInv h) he hstep⟩

/-- A descendant of a call on the carrier Stage fails after the call has returned; two calls of
    `close`. -/
def failedCarrier : List (AdapterEvent Nat) :=
  [.callAsSync false, .ensureOpen 0, .callFunction 0 true false, .resolve 0 false, .go 0 false,
    .submitted 0, .work carrierStage (.retain 0 false) [], .work carrierStage (.completeBody 0) [],
    .work carrierStage (.release 0 true) [], .result 0 false,
    .work carrierStage (.release 0 false) [], .work carrierStage (.notify 0) [7],
    .callClose, .enterClose 0 [], .startStage 0, .stageSettled carrierStage,
    .readErrors carrierStage, .stageDone 0, .callClose, .enterClose 1 [], .startStage 1]

/-- Both have raised, and the submit Stage is not even sealed. -/
theorem failed_carrier_stops_close :
    ¬ ∀ s, (bridgeStages Nat true).Reachable s → s.ClosesAll := by
  intro hall
  have hend : ((bridgeStages Nat true).run { ownsSubmitStage := true } failedCarrier).any (fun s =>
      decide (s.closes[1]? = some ⟨.raised, [carrierStage, submitStage]⟩) &&
        (s.stages[submitStage]?).any fun stage => !stage.scope.isSealed) = true := by
    decide
  obtain ⟨s, hrun, hs⟩ := (Option.any_eq_true _ _).mp hend
  obtain ⟨hclose, hsubmit⟩ := Bool.and_eq_true_iff.mp hs
  obtain ⟨stage, hstage, hunsealed⟩ := (Option.any_eq_true _ _).mp hsubmit
  have hcloses := hall s (System.reachable_of_run failedCarrier rfl hrun)
  have hmem := List.mem_of_getElem? (of_decide_eq_true hclose)
  obtain ⟨other, hother, hsealed, -⟩ := (hcloses.all _ hmem (Or.inr (Or.inl rfl))).2 submitStage
    (by decide)
  rw [hstage] at hother
  cases hother
  rw [hsealed] at hunsealed
  cases hunsealed

/-! ## 8. A failed carrier Stage -/

/-- The close has not come past the carrier Stage. -/
def BeforeCarrier (s : ClosingBridge ε) (phase : BridgeClosePhase) : Prop :=
  phase ≠ .returned ∧
  (∀ todo, phase = .closing todo → ∃ order, todo = order ++ s.fixedStages ∧ ∀ σ ∈ order, 2 ≤ σ) ∧
  ∀ τ todo, phase = .inStage τ todo →
    2 ≤ τ ∧ ∃ order, todo = order ++ s.fixedStages ∧ ∀ σ ∈ order, 2 ≤ σ

structure Blocked (s : ClosingBridge ε) : Prop where
  isOpen : s.isClosed = false
  failed : ∃ stage, s.stages[carrierStage]? = some stage ∧ stage.scope.closeCompleted = true ∧
    stage.scopeSettlementErrors ≠ []
  before : ∀ close ∈ s.closes, s.BeforeCarrier close.phase

theorem Blocked.aside (hb : Blocked s) (ha : Aside s s') : Blocked s' where
  isOpen := ha.isClosed.trans hb.isOpen
  failed := by
    obtain ⟨stage, hget, hcompleted, herrors⟩ := hb.failed
    obtain ⟨stage', hget', hnext⟩ := ha.evolves _ stage hget
    refine ⟨stage', hget', hnext.scope.completed hcompleted, fun h => herrors ?_⟩
    exact List.prefix_nil.mp (h ▸ hnext.errors)
  before close hmem := by
    have hfixed : s'.fixedStages = s.fixedStages := by rw [fixedStages, fixedStages, ha.owns]
    rw [ha.closes] at hmem
    rw [BeforeCarrier, hfixed]
    exact hb.before close hmem

theorem beforeCarrier_of_ended (s : ClosingBridge ε) {phase : BridgeClosePhase}
    (htodo : phase.todo = none) (hreturned : phase ≠ .returned) : s.BeforeCarrier phase := by
  refine ⟨hreturned, fun todo h => ?_, fun τ todo h => ?_⟩
  · rw [h] at htodo
    cases htodo
  · rw [h] at htodo
    cases htodo

theorem Blocked.closeAt (hb : Blocked s) {phase : BridgeClosePhase} (holder : Option Nat)
    (hphase : s.BeforeCarrier phase) :
    Blocked { s.closeAt i phase with closeHolder := holder } where
  isOpen := hb.isOpen
  failed := hb.failed
  before close hmem := by
    obtain ⟨k, hk⟩ := List.mem_iff_getElem?.mp hmem
    rw [show ({ s.closeAt i phase with closeHolder := holder } : ClosingBridge ε).closes[k]? =
      (s.closeAt i phase).closes[k]? from rfl, closes_closeAt] at hk
    split at hk
    · obtain ⟨other, -, rfl⟩ := Option.map_eq_some_iff.mp hk
      exact hphase
    · exact hb.before close (List.mem_of_getElem? hk)

theorem Blocked.before_of_closePhase (hb : Blocked s) {phase : BridgeClosePhase}
    (h : s.closePhase i = some phase) : s.BeforeCarrier phase := by
  obtain ⟨close, hget, rfl⟩ := closePhase_eq_some h
  exact hb.before close (List.mem_of_getElem? hget)

theorem Blocked.afterStage (hb : Blocked s) {todo : List Nat} {errors : List ε}
    (hrest : ∃ order, todo = order ++ s.fixedStages ∧ ∀ σ ∈ order, 2 ≤ σ) :
    Blocked (s.afterStage i todo errors) := by
  unfold ClosingBridge.afterStage
  split
  · refine hb.closeAt s.closeHolder ⟨(fun h => by cases h), fun rest h => ?_,
      fun τ rest h => by cases h⟩
    cases h
    exact hrest
  · exact hb.closeAt none (beforeCarrier_of_ended s rfl fun h => by cases h)

/-- What is left begins with the carrier Stage, or with a routed one. -/
theorem fixed_cons {order todo : List Nat} (h : σ :: todo = order ++ s.fixedStages)
    (hroutes : ∀ τ ∈ order, 2 ≤ τ) :
    σ = carrierStage ∨ 2 ≤ σ ∧ ∃ rest, todo = rest ++ s.fixedStages ∧ ∀ τ ∈ rest, 2 ≤ τ := by
  cases order with
  | nil =>
    refine Or.inl ?_
    rw [List.nil_append, fixedStages] at h
    split at h
    · exact (List.cons.inj h).1
    · exact (List.cons.inj h).1
  | cons τ rest =>
    obtain ⟨rfl, rfl⟩ := List.cons.inj h
    exact Or.inr ⟨hroutes _ List.mem_cons_self, rest, rfl,
      fun τ hτ => hroutes τ (List.mem_cons_of_mem _ hτ)⟩

theorem Blocked.closeStep (hb : Blocked s) (hi : WalkInv s) {e : AdapterEvent ε}
    (h : s.closeStep e = some s') : Blocked s' := by
  cases e with
  | callClose =>
    cases h
    refine ⟨hb.isOpen, hb.failed, fun close hmem => ?_⟩
    rcases List.mem_append.mp hmem with hmem | hmem
    · exact hb.before close hmem
    · rw [List.mem_singleton.mp hmem]
      exact beforeCarrier_of_ended _ rfl fun h => by cases h
  | enterClose i order =>
    obtain ⟨⟨-, -, horder⟩, rfl⟩ := when_eq_some h
    rw [ClosingBridge.enterClose, if_neg (by rw [hb.isOpen]; exact Bool.false_ne_true)]
    refine ⟨hb.isOpen, hb.failed, fun close hmem => ?_⟩
    rcases mem_setClose hmem with hmem | rfl
    · exact hb.before close hmem
    · refine ⟨(fun h => by cases h), fun todo htodo => ?_,
        fun τ todo htodo => by cases htodo⟩
      cases htodo
      exact ⟨order, rfl, fun σ hσ => (hi.routed σ (horder.mem_iff.mp hσ)).1⟩
  | guardRefuses i =>
    simp only [ClosingBridge.closeStep] at h
    split at h
    · cases h
      exact hb.closeAt none (beforeCarrier_of_ended s rfl fun h => by cases h)
    · cases h
  | startStage i =>
    obtain ⟨σ, todo, stage, hphase, hget, hcase⟩ := startStage_spec h
    obtain ⟨order, hstages, hroutes⟩ := (hb.before_of_closePhase hphase).2.1 _ rfl
    obtain ⟨failed, hfailed, hcompleted, herrors⟩ := hb.failed
    rcases fixed_cons hstages hroutes with rfl | ⟨htwo, hrest⟩
    · -- the carrier Stage raises again
      rw [hfailed] at hget
      cases hget
      rcases hcase with ⟨-, rfl⟩ | ⟨hnot, -⟩
      · rw [ClosingBridge.afterStage, if_neg (by simpa using herrors)]
        exact hb.closeAt none (beforeCarrier_of_ended s rfl fun h => by cases h)
      · rw [hcompleted] at hnot
        cases hnot
    · rcases hcase with ⟨-, rfl⟩ | ⟨-, stage', hstage', rfl⟩
      · exact hb.afterStage hrest
      · have hb' := hb.aside (aside_setStage hget (.of_startClose hstage'))
        refine hb'.closeAt s.closeHolder ⟨(fun h => by cases h),
          (fun todo h => by cases h), fun τ rest h => ?_⟩
        cases h
        exact ⟨htwo, hrest⟩
  | stageSettled σ =>
    obtain ⟨stage, stage', hget, hstage', rfl⟩ := onStage_eq_some h
    exact hb.aside (aside_setStage hget (.of_scopeStep hstage'))
  | readErrors σ =>
    obtain ⟨stage, stage', hget, hstage', rfl⟩ := onStage_eq_some h
    obtain ⟨-, rfl⟩ := OwnedStage.readErrors_eq_some hstage'
    exact hb.aside (aside_setStage hget ⟨.refl _, List.prefix_rfl⟩)
  | stageTimesOut i =>
    simp only [ClosingBridge.closeStep] at h
    split at h
    · obtain ⟨stage, stage', hget, hstage', rfl⟩ := onStage_eq_some h
      exact (hb.aside (aside_setStage hget (.of_scopeStep hstage'))).closeAt none
        (beforeCarrier_of_ended _ rfl fun h => by cases h)
    · cases h
  | stageDone i =>
    obtain ⟨σ, todo, stage, errors, stage', hphase, hget, -, hstage', rfl⟩ := stageDone_spec h
    have hrest := ((hb.before_of_closePhase hphase).2.2 _ _ rfl).2
    exact (hb.aside (aside_setStage hget (.of_scopeStep hstage'))).afterStage hrest
  | finishClose i =>
    obtain ⟨hphase, -⟩ := when_eq_some h
    obtain ⟨order, hstages, -⟩ := (hb.before_of_closePhase hphase).2.1 _ rfl
    exfalso
    rw [fixedStages] at hstages
    split at hstages
    all_goals exact absurd hstages.symm (by simp)
  | _ => cases h

/-- **However often it is retried.**  Once the carrier Stage has been closed with a settlement
    error, no `close` ever returns, and none comes to the submit Stage. -/
theorem failed_carrier_blocks_close {owns : Bool} (hreach : (bridgeStages ε owns).Reachable s)
    (hfree : s.closeHolder = none) (hopen : s.isClosed = false)
    (hget : s.stages[carrierStage]? = some stage) (hcompleted : stage.scope.closeCompleted = true)
    (herrors : stage.scopeSettlementErrors ≠ []) {es : List (AdapterEvent ε)}
    (hrun : (bridgeStages ε owns).run s es = some s') :
    s'.isClosed = false ∧ ∀ close ∈ s'.closes,
      close.phase ≠ .returned ∧ ∀ todo, close.phase ≠ .inStage submitStage todo := by
  have hi := reachUnder_walkInv hreach
  have hb : Blocked s := by
    refine ⟨hopen, ⟨stage, hget, hcompleted, herrors⟩, fun close hmem => ?_⟩
    obtain ⟨i, hclose⟩ := List.mem_iff_getElem?.mp hmem
    refine beforeCarrier_of_ended s ?_ fun hphase => ?_
    · by_contra hsome
      obtain ⟨todo, htodo⟩ := Option.ne_none_iff_exists'.mp hsome
      have hholder := (hi.walk i close todo hclose htodo).1
      rw [hfree] at hholder
      cases hholder
    · rw [(hi.returned close hmem hphase).1] at hopen
      cases hopen
  have hend : WalkInv s' ∧ Blocked s' := by
    refine System.run_invariant (I := fun t => WalkInv t ∧ Blocked t) ?_ ⟨hi, hb⟩ hrun
    rintro t e t' ⟨hti, htb⟩ hstep
    refine ⟨hti.step hstep, ?_⟩
    rcases step_cases hstep with ha | hclose
    · exact htb.aside ha
    · exact htb.closeStep hti hclose
  refine ⟨hend.2.isOpen, fun close hmem => ⟨(hend.2.before close hmem).1, fun todo hphase => ?_⟩⟩
  exact absurd ((hend.2.before close hmem).2.2 _ _ hphase).1 (by decide)

end ClosingBridge

end AgentlyStage
