import AgentlyStage.BlockedLineage

/-!
# Calls through a bridge

`StageCallBridge.as_sync` over the carrier pool.  The carrier Stage of the bridge is scope 0:
nobody enters it, every caller submits to it, and whoever comes first binds its epoch.  A call
goes there directly unless the routing test sends it to a scope of its own; either way the caller
waits for the awaitable, and a coroutine blocks its loop meanwhile.

Scopes, tasks, workers and callbacks take their steps as before: a nesting of calls goes through
all of them.
-/

namespace AgentlyStage

open Transition

namespace World

/-! ## 1. A call -/

variable (s : World)

/-- `would_sync_wait_block_current_carrier` for the Stage `σ`, by the code of `x`. -/
def wouldSyncWaitBlockCurrentCarrier (x : ScopedWork) (σ : Nat) : Bool :=
  match s.epoch σ with
  | some (.stage g _) =>
    (x.execution.any fun e => decide (g ∈ e.blockedGenerationIds)) ||
      decide (x.loop = some (.carrier g))
  | some (.caller _) => false
  | none => x.execution.any fun e => decide (x.loop = some (.carrier e.generation))

/-- `_carrier_stage` of the bridge. -/
def carrierStage : StageScope := ⟨none, .stage, .plain⟩

/-- `_requires_routed_sync_scope`. -/
def requiresRoutedSyncScope (x : ScopedWork) : Bool :=
  (s.inheritedCallerLoopForSync x).isSome || s.wouldSyncWaitBlockCurrentCarrier x 0

/-- The awaitable is submitted to scope `σ`, and its handle is waited for; a submission that
    fails raises. -/
def submitCall (i : Nat) (x : ScopedWork) (σ : Nat) (scope : StageScope) : World :=
  if (s.submit i x σ scope .call).works.length = s.works.length then s.submit i x σ scope .call
  else
    { s.submit i x σ scope .call with
      waiting := Function.update s.waiting i (some (.call s.works.length)) }

/-- The Stage of `_resolve_awaitable_in_routed_scope`, entered by the caller. -/
def routedScope (i : Nat) : StageScope := ⟨some i, .auto, .sync⟩

/-- `_resolve_awaitable_sync`, called by the code of `i`. -/
def asSync (i : Nat) : Option World :=
  match s.works[i]? with
  | some x =>
    if s.runs i x then
      if s.requiresRoutedSyncScope x then
        some ((s.enter (routedScope i)).submitCall i x s.scopes.length (routedScope i))
      else some (s.submitCall i x 0 carrierStage)
    else none
  | none => none

/-- The result of the call; a managed call stays until its work has settled. -/
def callReturns (i : Nat) : Option World :=
  match s.waiting i with
  | some (.call n) =>
    if s.finished n then some { s with waiting := Function.update s.waiting i none } else none
  | _ => none

/-- The scope is a routed one: an awaitable was submitted to it. -/
def isRouted (σ : Nat) : Bool :=
  s.works.any fun y => decide (y.kind = .call) && decide (y.scope = some σ)

/-- The work ends.  The routed scopes of its calls are sealed only, and may go on. -/
def finishCaller (i : Nat) : Option World :=
  match s.works[i]? with
  | some x =>
    if s.runs i x &&
        (s.scopes.zipIdx.all fun entry => decide (entry.1.opener ≠ some i) ||
          (s.epoch entry.2).isNone || s.isRouted entry.2) &&
        (s.works.zipIdx.all fun entry =>
          decide (entry.1.parent ≠ some i) || s.finished entry.2 ||
            (decide (entry.1.kind = .task) && entry.1.stageBacked)) then
      some { s with finished := Function.update s.finished i true }.sealUnused
    else none
  | none => none

end World

/-! ## 2. The system of calls -/

inductive BridgeEvent where
  /-- A step of a scope or a piece of work, except that only its result ends a call. -/
  | work (e : WorldEvent)
  | asSync (i : Nat)
  | callReturns (i : Nat)
  | finishCaller (i : Nat)
deriving DecidableEq, Repr

namespace World

def bridgeStep (s : World) : BridgeEvent → Option World
  | .work (.resume i) =>
    match s.waiting i with
    | some (.call _) => none
    | _ => s.resume i
  | .work e => s.step e
  | .asSync i => s.asSync i
  | .callReturns i => s.callReturns i
  | .finishCaller i => s.finishCaller i

end World

/-- One bridge over a carrier pool of `carrierLoopCount` lanes. -/
def bridgeSystem (carrierLoopCount : Nat) : System World BridgeEvent where
  Init s := s = { pool := .ofCount carrierLoopCount, scopes := [World.carrierStage] }
  step := World.bridgeStep

namespace World

variable {s s' : World} {count g : Nat}

/-! ## 3. Nestings -/

/-- `n` is the call `c`, or below it. -/
inductive Below (s : World) (c : Nat) : Nat → Prop
  | refl : Below s c c
  | parent {n p : Nat} {x : ScopedWork} (hx : s.works[n]? = some x) (hparent : x.parent = some p)
      (h : Below s c p) : Below s c n

/-- The call `c` blocks the loop of `g`: its caller runs there and waits for it. -/
def BlocksLoop (s : World) (g c : Nat) : Prop :=
  ∃ p x y, s.works[c]? = some x ∧ x.kind = .call ∧ x.parent = some p ∧ s.works[p]? = some y ∧
    y.loop = some (.carrier g) ∧ s.waiting p = some (.call c)

/-- A call of the nesting of `n` blocks the loop of `g`. -/
def BlockedInNesting (s : World) (g n : Nat) : Prop := ∃ c, s.BlocksLoop g c ∧ s.Below c n

/-- A call that goes to the bound carrier Stage directly, whose lease was made without a loop that
    this call or an outer one blocks. -/
def LosesLineage (s : World) : BridgeEvent → Prop
  | .asSync i => ∃ x lease blocked g, s.works[i]? = some x ∧ s.requiresRoutedSyncScope x = false ∧
      s.epoch 0 = some (.stage lease blocked) ∧
      (x.loop = some (.carrier g) ∨ s.BlockedInNesting g i) ∧ g ∉ blocked
  | _ => False

/-! ## 4. The operations -/

theorem submit_waiting (s : World) (i : Nat) (x : ScopedWork) (σ : Nat) (scope : StageScope)
    (kind : ScopedKind) : (s.submit i x σ scope kind).waiting = s.waiting := by
  unfold World.submit
  split
  · split
    · rfl
    · rfl
  · rfl

/-- A call is its submission, with or without a wait for it. -/
theorem submitCall_cases (s : World) (i : Nat) (x : ScopedWork) (σ : Nat) (scope : StageScope) :
    ∃ waiting, s.submitCall i x σ scope =
        { s.submit i x σ scope .call with waiting := waiting } ∧
      ∀ w, waiting w = s.waiting w ∨ w = i ∧ waiting w = some (.call s.works.length) := by
  unfold submitCall
  split
  · refine ⟨s.waiting, ?_, fun w => Or.inl rfl⟩
    rw [← submit_waiting s i x σ scope .call]
  · refine ⟨_, rfl, fun w => ?_⟩
    by_cases hw : w = i
    · rw [hw, Function.update_self]
      exact Or.inr ⟨rfl, rfl⟩
    · rw [Function.update_of_ne hw]
      exact Or.inl rfl

theorem asSync_spec {i : Nat} (h : s.asSync i = some s') :
    ∃ x, s.works[i]? = some x ∧ s.runs i x = true ∧
      ((s.requiresRoutedSyncScope x = true ∧ s' =
          (s.enter (routedScope i)).submitCall i x s.scopes.length (routedScope i)) ∨
        s.requiresRoutedSyncScope x = false ∧ s' = s.submitCall i x 0 carrierStage) := by
  unfold asSync at h
  split at h
  · rename_i x hx
    split at h
    · rename_i hruns
      split at h
      · rename_i hrouted
        cases h
        exact ⟨x, hx, hruns, Or.inl ⟨hrouted, rfl⟩⟩
      · rename_i hdirect
        rw [Bool.not_eq_true] at hdirect
        cases h
        exact ⟨x, hx, hruns, Or.inr ⟨hdirect, rfl⟩⟩
    · cases h
  · cases h

theorem callReturns_spec {i : Nat} (h : s.callReturns i = some s') :
    s' = { s with waiting := Function.update s.waiting i none } := by
  unfold callReturns at h
  split at h
  · split at h
    · cases h
      rfl
    · cases h
  · cases h

theorem finishCaller_spec {i : Nat} (h : s.finishCaller i = some s') :
    (∀ j y, s.works[j]? = some y → y.parent = some i → s.finished j = false →
      y.stageBacked = true) ∧
      s' = { s with finished := Function.update s.finished i true }.sealUnused := by
  unfold finishCaller at h
  split at h
  · split at h
    · rename_i hif
      rw [Bool.and_eq_true, Bool.and_eq_true] at hif
      cases h
      exact ⟨stageBacked_of_all hif.2, rfl⟩
    · cases h
  · cases h

/-- A step of the scopes and their work. -/
theorem bridgeStep_work {e : WorldEvent} (h : s.bridgeStep (.work e) = some s') :
    s.step e = some s' := by
  cases e with
  | resume i =>
    simp only [bridgeStep] at h
    split at h
    · cases h
    · exact h
  | _ => exact h

end World

end AgentlyStage
