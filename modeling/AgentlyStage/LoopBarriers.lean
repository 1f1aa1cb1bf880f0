import AgentlyStage.EpochAdmission
import AgentlyStage.SelfWait

/-!
# Sync barriers on a loop

`wait_settled`, `cancel_and_wait_settled` and `close` called on the thread of a loop, with the
epochs of the Stage and submissions from other threads in between.  A guard looks at the Stage
once; then the call blocks its thread in `_scope_condition.wait`, on `_close_operation_lock` or
in the shutdown of the private executor.

The work of an epoch is bound to the caller loop or to the loop of a carrier generation.  Which
loop a new lease has, and on which one a submission without a lease runs, is an argument of its
event (`carrierLoop`).
-/

namespace AgentlyStage

open Transition BarrierScope

/-! ## 1. State -/

/-- How far a sync barrier is. -/
inductive BarrierPlace where
  /-- The guards of `cancel_and_wait_settled` have passed. -/
  | cancelling
  /-- The guards of `close` have passed; `_close_operation_lock` is next. -/
  | locking
  /-- The other two are about to call `wait_settled`. -/
  | calling
  /-- The guards of `wait_settled` have passed. -/
  | guarded
  /-- In `_scope_condition.wait`. -/
  | waiting
  /-- `close` shuts the private executor down. -/
  | shuttingDown
  | raised (error : StageError)
  /-- It has returned, or raised a timeout or the errors of the scope. -/
  | over
deriving DecidableEq, Repr

/-- A sync barrier called on the thread of `loop`, or on one without a running loop. -/
structure BarrierCall where
  barrier : Barrier
  loop : Option Nat
  place : BarrierPlace
deriving DecidableEq, Repr

structure BarrierState where
  epoch : EpochState
  privateExecutor : Bool
  /-- The loops of the leased generations, by the number of the lease. -/
  leaseLoops : List Nat := []
  /-- The handles with work on a carrier loop. -/
  carrierWork : List (Nat × Nat) := []
  calls : List BarrierCall := []
  /-- The call that holds `_close_operation_lock`. -/
  closing : Option Nat := none
  closeCompleted : Bool := false
deriving DecidableEq

def asyncOperation : Barrier → String
  | .waitSettled => "async_wait_settled"
  | .cancelAndWaitSettled => "async_cancel_and_wait_settled"
  | .close => "async_close"

/-- The place behind the guards of a barrier. -/
def BarrierPlace.entered : Barrier → BarrierPlace
  | .waitSettled => .guarded
  | .cancelAndWaitSettled => .cancelling
  | .close => .locking

namespace EpochState

/-- `_ensure_not_same_caller_loop_sync_wait`. -/
def ensureNotSameCallerLoopSyncWait (s : EpochState) (running : Option Nat)
    (asyncOperation : String) : Except StageError Unit :=
  match running with
  | none => .ok ()
  | some loop =>
    if s.activeBackend = some .caller ∧ s.activeLoop = some loop ∧ s.hasActiveWorkLocked then
      .error (.stageLifecycle
        ("Cannot synchronously wait for a Stage while running on its active caller-owned " ++
          "event loop; use " ++ asyncOperation ++ "()"))
    else .ok ()

end EpochState

namespace BarrierState

variable (s : BarrierState)

/-- The loop on which a submission to the carrier runs. -/
def workLoop (carrierLoop : Nat) : Nat :=
  match s.epoch.generationLease with
  | some lease => (s.leaseLoops[lease]?).getD carrierLoop
  | none => carrierLoop

/-- The loop to which an event binds new work. -/
def bindsTo (e : EpochEvent) (carrierLoop : Nat) : Option Nat :=
  match s.epoch.admits e with
  | some (.caller, loop) => loop
  | some (.stage, _) => (s.epoch.submitsToCarrier e).map fun _ => s.workLoop carrierLoop
  | none => none

/-! ## 2. The barriers -/

/-- `_ensure_not_owned_self_wait` and `_ensure_not_same_caller_loop_sync_wait`. -/
def guards (running : Option Nat) (recognised : Bool) (asyncOperation : String) :
    Except StageError Unit :=
  if recognised then
    .error (.stageLifecycle "Cannot wait for a Stage from work owned by the same scope")
  else s.epoch.ensureNotSameCallerLoopSyncWait running asyncOperation

def callBarrier (barrier : Barrier) (running : Option Nat) (recognised : Bool) : BarrierState :=
  { s with calls := s.calls ++ [{
      barrier := barrier
      loop := running
      place := match s.guards running recognised (asyncOperation barrier) with
        | .error error => .raised error
        | .ok () => .entered barrier }] }

def setPlace (i : Nat) (call : BarrierCall) (place : BarrierPlace) : BarrierState :=
  { s with calls := s.calls.set i { call with place := place } }

/-- A call ends; `close` gives its lock back. -/
def leave (i : Nat) (call : BarrierCall) (place : BarrierPlace) : BarrierState :=
  { s.setPlace i call place with
    closing := if call.barrier = .close then none else s.closing }

/-- The next step of a call. -/
def proceed (i : Nat) (call : BarrierCall) (recognised : Bool) : Option BarrierState :=
  match call.place with
  | .cancelling =>
    if s.epoch.hasActiveWorkLocked then
      some { s.setPlace i call .calling with epoch := s.epoch.cancelScope }
    else some (s.setPlace i call .over)
  | .locking =>
    if s.closing.isSome then none
    else if s.closeCompleted then some (s.setPlace i call .over)
    else some { s.setPlace i call .calling with closing := some i, epoch := s.epoch.sealScope }
  | .calling =>
    match s.guards call.loop recognised (asyncOperation .waitSettled) with
    | .error error => some (s.leave i call (.raised error))
    | .ok () => some (s.setPlace i call .guarded)
  | .guarded | .waiting =>
    if s.epoch.hasActiveWorkLocked then some (s.setPlace i call .waiting)
    else if call.barrier = .close then some (s.setPlace i call .shuttingDown)
    else some (s.setPlace i call .over)
  | .shuttingDown => some { s.leave i call .over with closeCompleted := true }
  | .raised _ | .over => none

end BarrierState

inductive BarrierEvent where
  | epoch (e : EpochEvent) (carrierLoop : Nat)
  /-- `recognised`: `_ensure_not_owned_self_wait` finds the caller's context or task. -/
  | call (barrier : Barrier) (running : Option Nat) (recognised : Bool)
  | proceed (i : Nat) (recognised : Bool)
  | timeOut (i : Nat)
deriving DecidableEq

namespace BarrierState

def step (s : BarrierState) : BarrierEvent → Option BarrierState
  | .epoch e carrierLoop =>
    (s.epoch.step e).map fun epoch =>
      { s with
        epoch := epoch
        leaseLoops :=
          if s.epoch.leaseCount < epoch.leaseCount then s.leaseLoops ++ [carrierLoop]
          else s.leaseLoops
        carrierWork :=
          (s.carrierWork.filter fun work => decide (work.1 ∈ epoch.activeHandles)) ++
            (s.epoch.submitsToCarrier e).toList.map fun h => (h, s.workLoop carrierLoop) }
  | .call barrier running recognised => some (s.callBarrier barrier running recognised)
  | .proceed i recognised =>
    match s.calls[i]? with
    | some call => s.proceed i call recognised
    | none => none
  | .timeOut i =>
    match s.calls[i]? with
    | some call => if call.place = .waiting then some (s.leave i call .over) else none
    | none => none

variable (s : BarrierState)

/-! ## 3. Blocked loops -/

/-- Unfinished work of the Stage is bound to the loop. -/
def BoundTo (loop : Nat) : Prop :=
  (∃ h ∈ s.epoch.activeHandles, (s.epoch.handles[h]?).bind EpochHandle.loop = some loop) ∨
    (∃ t ∈ s.epoch.adoptedTasks, s.epoch.taskLoops[t]? = some loop) ∨
    ∃ work ∈ s.carrierWork, work.2 = loop

instance (loop : Nat) : Decidable (s.BoundTo loop) :=
  inferInstanceAs (Decidable (_ ∨ _ ∨ _))

/-- Some of it runs on a carrier. -/
def carriesOn (loop : Nat) : Bool := s.carrierWork.any fun work => work.2 == loop

/-- The thread of the call is blocked. -/
def blocks (call : BarrierCall) : Bool :=
  match call.place with
  | .waiting => true
  | .locking => s.closing.isSome
  | .shuttingDown => s.privateExecutor
  | _ => false

/-- A sync barrier blocks a loop to which unfinished work is bound. -/
def Stuck : Prop :=
  ∃ call ∈ s.calls, ∃ loop, call.loop = some loop ∧ s.blocks call = true ∧ s.BoundTo loop

/-- The thread is blocked, or no guard is left before it is. -/
def exposed (call : BarrierCall) : Bool := s.blocks call || decide (call.place = .guarded)

/-- The steps after which a barrier blocks the loop of unfinished work: a guard that looks at
    the caller backend only, work that comes after the guard, and the lock of another `close`. -/
def blocksOwnLoop : BarrierEvent → Bool
  | .epoch e carrierLoop =>
    (s.bindsTo e carrierLoop).any fun loop =>
      s.calls.any fun call => decide (call.loop = some loop) && s.exposed call
  | .call barrier running recognised =>
    !recognised && running.any s.carriesOn &&
      (decide (barrier = .waitSettled) || decide (barrier = .close) && s.closing.isSome)
  | .proceed i recognised =>
    match s.calls[i]? with
    | some call =>
      match call.place with
      | .calling => !recognised && call.loop.any s.carriesOn
      | .locking =>
        !s.closing.isSome && !s.closeCompleted &&
          (s.calls.eraseIdx i).any fun other =>
            decide (other.place = .locking) && other.loop.any fun loop => decide (s.BoundTo loop)
      | _ => false
    | none => false
  | .timeOut _ => false

end BarrierState

/-- All interleavings of a Stage with the sync barriers called on it. -/
def barrierSystem (configured : ConfiguredBackend) (idleTimeout : Option Nat)
    (privateExecutor : Bool) : System BarrierState BarrierEvent where
  Init s := s = {
    epoch := { configured := configured, idleTimeout := idleTimeout }
    privateExecutor := privateExecutor }
  step := BarrierState.step

namespace BarrierState

open EpochState

variable {s s' : BarrierState} {loop : Nat}

/-! ## 4. Unfinished work -/

/-- The caller backend is bound to the loop, with active work. -/
def OnCallerLoop (s : EpochState) (loop : Nat) : Prop :=
  s.hasActiveWorkLocked = true ∧ s.activeBackend = some .caller ∧ s.activeLoop = some loop

structure WorkInv (s : BarrierState) : Prop where
  epoch : EpochInv s.epoch
  carriers : ∀ work ∈ s.carrierWork, work.1 ∈ s.epoch.activeHandles ∧
    s.epoch.activeBackend = some .stage

theorem carriesOn_eq_true : s.carriesOn loop = true ↔ ∃ work ∈ s.carrierWork, work.2 = loop := by
  simp [carriesOn]

/-- Work is bound to the caller loop of the epoch, or it is on the carrier. -/
theorem WorkInv.boundTo_iff (hw : WorkInv s) :
    s.BoundTo loop ↔ OnCallerLoop s.epoch loop ∨ s.carriesOn loop = true := by
  rw [carriesOn_eq_true, BoundTo, ← or_assoc]
  refine or_congr_left ⟨?_, ?_⟩
  · rintro (⟨h, hmem, hloop⟩ | ⟨t, hmem, hloop⟩)
    · obtain ⟨handle, hget, hbackend, hbound⟩ := hw.epoch.bound.handles h hmem
      rw [hget] at hloop
      have hkind : handle.backendKind = .caller := by
        cases hkind : handle.backendKind with
        | caller => rfl
        | stage =>
          have hnone := (hw.epoch.bound.ownerLoops h handle hget).1 hkind
          exact absurd (hnone.symm.trans hloop) (Option.some_ne_none loop).symm
      exact ⟨EpochState.hasActiveWorkLocked_of_handle hmem, hkind ▸ hbackend, hbound.trans hloop⟩
    · obtain ⟨loop', hget, hbackend, hbound⟩ := hw.epoch.bound.tasks t hmem
      rw [hget] at hloop
      exact ⟨EpochState.hasActiveWorkLocked_of_task hmem, hbackend, hbound.trans hloop⟩
  · rintro ⟨hactive, hbackend, hloop⟩
    rcases EpochState.hasActiveWorkLocked_eq_true.mp hactive with hactive | hactive
    · obtain ⟨h, hmem⟩ := Finset.nonempty_iff_ne_empty.mpr hactive
      obtain ⟨handle, hget, -, hbound⟩ := hw.epoch.bound.handles h hmem
      refine Or.inl ⟨h, hmem, ?_⟩
      rw [hget]
      exact hbound.symm.trans hloop
    · obtain ⟨t, hmem⟩ := Finset.nonempty_iff_ne_empty.mpr hactive
      obtain ⟨loop', hget, -, hbound⟩ := hw.epoch.bound.tasks t hmem
      exact Or.inr ⟨t, hmem, hget.trans (hbound.symm.trans hloop)⟩

theorem WorkInv.active_of_boundTo (hw : WorkInv s) (hbound : s.BoundTo loop) :
    s.epoch.hasActiveWorkLocked = true := by
  rcases hw.boundTo_iff.mp hbound with hcaller | hcarries
  · exact hcaller.1
  · obtain ⟨work, hmem, -⟩ := carriesOn_eq_true.mp hcarries
    exact EpochState.hasActiveWorkLocked_of_handle (hw.carriers work hmem).1

/-- The carrier work after an event of the epoch. -/
theorem mem_carrierWork {e : EpochEvent} {carrierLoop : Nat} {epoch : EpochState}
    {work : Nat × Nat}
    (hmem : work ∈ (s.carrierWork.filter fun work => decide (work.1 ∈ epoch.activeHandles)) ++
      (s.epoch.submitsToCarrier e).toList.map fun h => (h, s.workLoop carrierLoop)) :
    (work ∈ s.carrierWork ∧ work.1 ∈ epoch.activeHandles) ∨
      (s.epoch.submitsToCarrier e = some work.1 ∧ s.workLoop carrierLoop = work.2) := by
  rw [List.mem_append, List.mem_filter, List.mem_map] at hmem
  rcases hmem with ⟨hmem, hactive⟩ | ⟨h, hmem, rfl⟩
  · exact Or.inl ⟨hmem, of_decide_eq_true hactive⟩
  · exact Or.inr ⟨Option.mem_toList.mp hmem, rfl⟩

theorem WorkInv.epochStep (hw : WorkInv s) {e : EpochEvent} {carrierLoop : Nat}
    (hstep : s.step (.epoch e carrierLoop) = some s') : WorkInv s' := by
  obtain ⟨epoch, hepoch, rfl⟩ := Option.map_eq_some_iff.mp hstep
  refine ⟨hw.epoch.step hepoch, fun work hmem => ?_⟩
  have hadmits := step_admits hw.epoch hepoch
  rcases mem_carrierWork hmem with ⟨hmem, hactive⟩ | ⟨hsubmits, -⟩
  · refine ⟨hactive, ?_⟩
    obtain ⟨-, hstage⟩ := hw.carriers work hmem
    cases hselected : s.epoch.admits e with
    | none =>
      rw [hselected] at hadmits
      exact (hadmits (hasActiveWorkLocked_of_handle hactive)).2.1.trans hstage
    | some selected =>
      rw [hselected] at hadmits
      rcases hadmits.sticky with hnone | ⟨hsame, -⟩
      · rw [hstage] at hnone
        cases hnone
      · exact hadmits.backend.trans (hsame.symm.trans hstage)
  · obtain ⟨⟨loop, hselected⟩, hactive⟩ := submitsToCarrier_spec hsubmits hepoch
    rw [hselected] at hadmits
    exact ⟨hactive, hadmits.backend⟩

/-- **Step lemma of the work.**  Only an admission binds work to a loop. -/
theorem WorkInv.boundTo_step (hw : WorkInv s) {e : EpochEvent} {carrierLoop : Nat}
    (hstep : s.step (.epoch e carrierLoop) = some s') (hbound : s'.BoundTo loop) :
    s.BoundTo loop ∨ s.bindsTo e carrierLoop = some loop := by
  have hw' := hw.epochStep hstep
  obtain ⟨epoch, hepoch, rfl⟩ := Option.map_eq_some_iff.mp hstep
  have hadmits := step_admits hw.epoch hepoch
  rcases hw'.boundTo_iff.mp hbound with ⟨hactive, hbackend, hloop⟩ | hcarries
  · cases hselected : s.epoch.admits e with
    | none =>
      rw [hselected] at hadmits
      obtain ⟨hactive', hbackend', hloop'⟩ := hadmits hactive
      exact Or.inl (hw.boundTo_iff.mpr
        (Or.inl ⟨hactive', hbackend'.symm.trans hbackend, hloop'.symm.trans hloop⟩))
    | some selected =>
      rw [hselected] at hadmits
      obtain ⟨backend, loop'⟩ := selected
      obtain rfl : BackendKind.caller = backend :=
        Option.some.inj (hbackend.symm.trans hadmits.backend)
      refine Or.inr ?_
      rw [bindsTo, hselected]
      exact hadmits.loop.symm.trans hloop
  · obtain ⟨work, hmem, rfl⟩ := carriesOn_eq_true.mp hcarries
    rcases mem_carrierWork hmem with ⟨hmem, -⟩ | ⟨hsubmits, hloop⟩
    · exact Or.inl (Or.inr (Or.inr ⟨work, hmem, rfl⟩))
    · obtain ⟨⟨loop, hselected⟩, -⟩ := submitsToCarrier_spec hsubmits hepoch
      refine Or.inr ?_
      rw [bindsTo, hselected, hsubmits, ← hloop]
      rfl

theorem WorkInv.boundTo_of_bindsTo (hw : WorkInv s) {e : EpochEvent} {carrierLoop : Nat}
    (hstep : s.step (.epoch e carrierLoop) = some s')
    (hbinds : s.bindsTo e carrierLoop = some loop) : s'.BoundTo loop := by
  have hw' := hw.epochStep hstep
  obtain ⟨epoch, hepoch, rfl⟩ := Option.map_eq_some_iff.mp hstep
  have hadmits := step_admits hw.epoch hepoch
  refine hw'.boundTo_iff.mpr ?_
  unfold bindsTo at hbinds
  split at hbinds
  · rename_i loop' hselected
    rw [hselected] at hadmits
    exact Or.inl ⟨hadmits.active, hadmits.backend, hadmits.loop.trans hbinds⟩
  · obtain ⟨h, hsubmits, rfl⟩ := Option.map_eq_some_iff.mp hbinds
    refine Or.inr (carriesOn_eq_true.mpr ⟨(h, s.workLoop carrierLoop), ?_, rfl⟩)
    refine List.mem_append_right _ (List.mem_map.mpr ⟨h, ?_, rfl⟩)
    exact Option.mem_toList.mpr hsubmits
  · cases hbinds

/-! ## 5. The guards -/

/-- A guard passes on no loop on which the Stage has work of the caller backend. -/
theorem guards_of_onCallerLoop (hon : OnCallerLoop s.epoch loop) (recognised : Bool)
    (asyncOperation : String) : ∃ message,
      s.guards (some loop) recognised asyncOperation = .error (.stageLifecycle message) := by
  cases recognised with
  | true => exact ⟨_, rfl⟩
  | false => exact ⟨_, if_pos (show _ ∧ _ ∧ _ from ⟨hon.2.1, hon.2.2, hon.1⟩)⟩

theorem guards_of_stage (hstage : s.epoch.activeBackend = some .stage) (running : Option Nat)
    (asyncOperation : String) : s.guards running false asyncOperation = .ok () := by
  cases running with
  | none => rfl
  | some loop =>
    change s.epoch.ensureNotSameCallerLoopSyncWait (some loop) asyncOperation = _
    refine if_neg fun h => ?_
    rw [hstage] at h
    cases h.1

/-- On a loop whose guard has passed there is at most work of a carrier. -/
theorem WorkInv.carriesOn_of_guards (hw : WorkInv s) {recognised : Bool} {asyncOperation : String}
    (hpasses : s.guards (some loop) recognised asyncOperation = .ok ()) (hbound : s.BoundTo loop) :
    recognised = false ∧ s.carriesOn loop = true := by
  rcases hw.boundTo_iff.mp hbound with hon | hcarries
  · obtain ⟨message, herror⟩ := guards_of_onCallerLoop hon recognised asyncOperation
    rw [herror] at hpasses
    cases hpasses
  · refine ⟨?_, hcarries⟩
    cases recognised with
    | true => cases hpasses
    | false => rfl

/-! ## 6. The calls -/

/-- What the barriers rely on: no work is bound to the loop of an exposed call. -/
structure BarrierInv (s : BarrierState) : Prop where
  work : WorkInv s
  exposed : ∀ call ∈ s.calls, ∀ loop : Nat, call.loop = some loop → s.exposed call = true →
    ¬ s.BoundTo loop

/-- Only a call that waits for the lock looks at it. -/
theorem exposed_of_ne {call : BarrierCall} (hne : call.place ≠ .locking)
    (hexecutor : s'.privateExecutor = s.privateExecutor) : s'.exposed call = s.exposed call := by
  unfold exposed blocks
  split
  · rfl
  · rename_i hlocking
    exact absurd hlocking hne
  · rw [hexecutor]
  · rfl

/-- A lock that is given back exposes nobody. -/
theorem exposed_of_release {call : BarrierCall} (h : s'.exposed call = true)
    (hclosing : s'.closing = s.closing ∨ s'.closing = none)
    (hexecutor : s'.privateExecutor = s.privateExecutor) : s.exposed call = true := by
  by_cases hlocking : call.place = .locking
  · rcases hclosing with hclosing | hclosing
    · simpa [exposed, blocks, hlocking, hclosing] using h
    · simp [exposed, blocks, hlocking, hclosing] at h
  · rw [← exposed_of_ne hlocking hexecutor]
    exact h

/-- A call moves on; nobody else becomes exposed, and it only if no work is on its loop. -/
theorem BarrierInv.move (hb : BarrierInv s) {i : Nat} {call call' : BarrierCall}
    (hloop : call'.loop = call.loop)
    (hcalls : s'.calls = s.calls.set i call') (hwork : WorkInv s')
    (hbound : ∀ loop, s'.BoundTo loop → s.BoundTo loop)
    (hothers : ∀ other, s'.exposed other = true → s.exposed other = true)
    (hself : s'.exposed call' = true → ∀ loop, call.loop = some loop → ¬ s.BoundTo loop) :
    BarrierInv s' := by
  refine ⟨hwork, fun other hmem loop hother hexposed => ?_⟩
  rw [hcalls] at hmem
  rcases List.mem_or_eq_of_mem_set hmem with hmem | rfl
  · exact fun hb' => hb.exposed other hmem loop hother (hothers other hexposed) (hbound loop hb')
  · exact fun hb' => hself hexposed loop (hloop ▸ hother) (hbound loop hb')

theorem BarrierInv.push (hb : BarrierInv s) {call : BarrierCall}
    (hself : s.exposed call = true → ∀ loop, call.loop = some loop → ¬ s.BoundTo loop) :
    BarrierInv { s with calls := s.calls ++ [call] } := by
  refine ⟨⟨hb.work.epoch, hb.work.carriers⟩, fun other hmem loop hloop hexposed hbound => ?_⟩
  rcases List.mem_append.mp hmem with hmem | hmem
  · exact hb.exposed other hmem loop hloop hexposed hbound
  · obtain rfl := List.mem_singleton.mp hmem
    exact hself hexposed loop hloop hbound

theorem BarrierInv.epochStep (hb : BarrierInv s) {e : EpochEvent} {carrierLoop : Nat}
    (hsafe : s.blocksOwnLoop (.epoch e carrierLoop) = false)
    (hstep : s.step (.epoch e carrierLoop) = some s') : BarrierInv s' := by
  refine ⟨hb.work.epochStep hstep, fun call hmem loop hloop hexposed hbound => ?_⟩
  have hbound' := hb.work.boundTo_step hstep hbound
  obtain ⟨epoch, -, rfl⟩ := Option.map_eq_some_iff.mp hstep
  rcases hbound' with hbound' | hbinds
  · exact hb.exposed call hmem loop hloop hexposed hbound'
  · -- a call that is exposed on the loop to which the work is bound
    refine Bool.eq_false_iff.mp hsafe ?_
    rw [blocksOwnLoop, hbinds, Option.any_some, List.any_eq_true]
    refine ⟨call, hmem, ?_⟩
    rw [Bool.and_eq_true]
    exact ⟨decide_eq_true hloop, hexposed⟩

theorem BarrierInv.callBarrier (hb : BarrierInv s) {barrier : Barrier} {running : Option Nat}
    {recognised : Bool} (hsafe : s.blocksOwnLoop (.call barrier running recognised) = false) :
    BarrierInv (s.callBarrier barrier running recognised) := by
  refine hb.push fun hexposed loop hloop hbound => ?_
  obtain rfl : running = some loop := hloop
  cases hguards : s.guards (some loop) recognised (asyncOperation barrier) with
  | error error => simp [hguards, BarrierState.exposed, blocks] at hexposed
  | ok =>
    obtain ⟨rfl, hcarries⟩ := hb.work.carriesOn_of_guards hguards hbound
    rw [hguards] at hexposed
    cases barrier with
    | waitSettled => simp [blocksOwnLoop, hcarries] at hsafe
    | cancelAndWaitSettled => cases hexposed
    | close =>
      -- the lock is held by another call
      have hheld : s.closing.isSome = true := by
        simpa [BarrierState.exposed, blocks, BarrierPlace.entered] using hexposed
      simp [blocksOwnLoop, hcarries, hheld] at hsafe

/-- An event of the epoch that is part of a barrier. -/
theorem WorkInv.setEpoch (hw : WorkInv s) {e : EpochEvent} {epoch : EpochState}
    (hstep : s.epoch.step e = some epoch) (hquiet : s.epoch.admits e = none)
    (hhandles : epoch.activeHandles = s.epoch.activeHandles) {calls : List BarrierCall}
    {closing : Option Nat} :
    WorkInv { s with epoch := epoch, calls := calls, closing := closing } ∧
      ∀ loop, BoundTo { s with epoch := epoch, calls := calls, closing := closing } loop →
        s.BoundTo loop := by
  have hadmits := step_admits hw.epoch hstep
  rw [hquiet] at hadmits
  have hw' : WorkInv { s with epoch := epoch, calls := calls, closing := closing } := by
    refine ⟨hw.epoch.step hstep, fun work hmem => ?_⟩
    obtain ⟨hactive, hstage⟩ := hw.carriers work hmem
    rw [← hhandles] at hactive
    exact ⟨hactive, (hadmits (hasActiveWorkLocked_of_handle hactive)).2.1.trans hstage⟩
  refine ⟨hw', fun loop hbound => hw.boundTo_iff.mpr ?_⟩
  rcases hw'.boundTo_iff.mp hbound with ⟨hactive, hbackend, hloop⟩ | hcarries
  · obtain ⟨hactive', hbackend', hloop'⟩ := hadmits hactive
    exact Or.inl ⟨hactive', hbackend'.symm.trans hbackend, hloop'.symm.trans hloop⟩
  · exact Or.inr hcarries

theorem activeHandles_cancelScope (epoch : EpochState) :
    epoch.cancelScope.activeHandles = epoch.activeHandles := by
  unfold cancelScope
  split
  · rfl
  · rfl

theorem WorkInv.not_boundTo_of_idle (hw : WorkInv s)
    (hidle : ¬ s.epoch.hasActiveWorkLocked = true) (loop : Nat) : ¬ s.BoundTo loop :=
  fun hbound => hidle (hw.active_of_boundTo hbound)

theorem BarrierInv.setPlace (hb : BarrierInv s) {i : Nat} {call : BarrierCall}
    {place : BarrierPlace}
    (hself : s.exposed { call with place := place } = true → ∀ loop, call.loop = some loop →
      ¬ s.BoundTo loop) : BarrierInv (s.setPlace i call place) :=
  hb.move rfl rfl ⟨hb.work.epoch, hb.work.carriers⟩ (fun _ h => h) (fun _ h => h) hself

theorem BarrierInv.leave (hb : BarrierInv s) {i : Nat} {call : BarrierCall} {place : BarrierPlace}
    (hplace : place = .over ∨ ∃ error, place = .raised error) {completed : Bool} :
    BarrierInv { s.leave i call place with closeCompleted := completed } := by
  refine hb.move rfl rfl ⟨hb.work.epoch, hb.work.carriers⟩ (fun _ h => h)
    (fun other h => exposed_of_release h ?_ rfl) fun hexposed => ?_
  · by_cases hclose : call.barrier = .close
    · exact Or.inr (if_pos hclose)
    · exact Or.inl (if_neg hclose)
  · rcases hplace with rfl | ⟨error, rfl⟩
    · cases hexposed
    · simp [BarrierState.exposed, blocks] at hexposed

/-- The lock of `close` is taken. -/
theorem BarrierInv.lock (hb : BarrierInv s) {i : Nat} {call : BarrierCall} {recognised : Bool}
    (hget : s.calls[i]? = some call) (hplace : call.place = .locking)
    (hfree : s.closing.isSome = false) (hopen : s.closeCompleted = false)
    (hsafe : s.blocksOwnLoop (.proceed i recognised) = false) :
    BarrierInv { s.setPlace i call .calling with
      closing := some i, epoch := s.epoch.sealScope } := by
  have hseal : s.epoch.step .sealScope = some s.epoch.sealScope := rfl
  obtain ⟨hwork, hbound⟩ := hb.work.setEpoch hseal rfl rfl
  refine ⟨hwork, fun other hmem loop hother hexposed hbound' => ?_⟩
  obtain ⟨j, hj⟩ := List.getElem?_of_mem hmem
  rcases getElem?_set_cases hget hj with ⟨rfl, rfl⟩ | ⟨hne, hj⟩
  · cases hexposed
  · by_cases hlocking : other.place = .locking
    · -- another `close` on the loop waits for the lock
      have hothers : other ∈ s.calls.eraseIdx i :=
        List.mem_eraseIdx_iff_getElem?.mpr ⟨j, hne, hj⟩
      have hany : ((s.calls.eraseIdx i).any fun other => decide (other.place = .locking) &&
          other.loop.any fun loop => decide (s.BoundTo loop)) = true := by
        refine List.any_eq_true.mpr ⟨other, hothers, ?_⟩
        simp [hlocking, hother, hbound loop hbound']
      simp [blocksOwnLoop, hget, hplace, hfree, hopen, hany] at hsafe
    · refine hb.exposed other (List.mem_of_getElem? hj) loop hother ?_ (hbound loop hbound')
      have hsame : BarrierState.exposed { s.setPlace i call .calling with
          closing := some i, epoch := s.epoch.sealScope } other = s.exposed other :=
        exposed_of_ne hlocking rfl
      exact hsame.symm.trans hexposed

theorem BarrierInv.proceed (hb : BarrierInv s) {i : Nat} {call : BarrierCall} {recognised : Bool}
    (hget : s.calls[i]? = some call)
    (hsafe : s.blocksOwnLoop (.proceed i recognised) = false)
    (hstep : s.proceed i call recognised = some s') : BarrierInv s' := by
  unfold BarrierState.proceed at hstep
  cases hplace : call.place with
  | cancelling =>
    rw [hplace] at hstep
    dsimp only at hstep
    split at hstep
    · cases hstep
      have hcancel : s.epoch.step .cancelScope = some s.epoch.cancelScope := rfl
      obtain ⟨hwork, hbound⟩ :=
        hb.work.setEpoch hcancel rfl (activeHandles_cancelScope s.epoch)
      exact hb.move rfl rfl hwork hbound (fun _ h => h) fun hexposed => by cases hexposed
    · cases hstep
      exact hb.setPlace fun hexposed => by cases hexposed
  | locking =>
    rw [hplace] at hstep
    dsimp only at hstep
    split at hstep
    · cases hstep
    · rename_i hfree
      split at hstep
      · cases hstep
        exact hb.setPlace fun hexposed => by cases hexposed
      · rename_i hopen
        cases hstep
        exact hb.lock hget hplace (Bool.eq_false_iff.mpr hfree) (Bool.eq_false_iff.mpr hopen) hsafe
  | calling =>
    rw [hplace] at hstep
    dsimp only at hstep
    split at hstep
    · cases hstep
      exact hb.leave (Or.inr ⟨_, rfl⟩)
    · rename_i hguards
      cases hstep
      refine hb.setPlace fun _ loop hloop hbound => ?_
      rw [hloop] at hguards
      obtain ⟨rfl, hcarries⟩ := hb.work.carriesOn_of_guards hguards hbound
      simp [blocksOwnLoop, hget, hplace, hloop, hcarries] at hsafe
  | guarded | waiting =>
    rw [hplace] at hstep
    dsimp only at hstep
    split at hstep
    · -- it was exposed before
      cases hstep
      refine hb.setPlace fun _ loop hloop => hb.exposed call (List.mem_of_getElem? hget) loop hloop ?_
      simp [BarrierState.exposed, blocks, hplace]
    · rename_i hidle
      split at hstep
      · cases hstep
        exact hb.setPlace fun _ loop _ => hb.work.not_boundTo_of_idle hidle loop
      · cases hstep
        exact hb.setPlace fun hexposed => by cases hexposed
  | shuttingDown =>
    rw [hplace] at hstep
    cases hstep
    exact hb.leave (Or.inl rfl)
  | raised error | «over» =>
    rw [hplace] at hstep
    cases hstep

/-- **Step lemma of the barriers.** -/
theorem BarrierInv.step (hb : BarrierInv s) {e : BarrierEvent} (hsafe : s.blocksOwnLoop e = false)
    (hstep : s.step e = some s') : BarrierInv s' := by
  cases e with
  | epoch e carrierLoop => exact hb.epochStep hsafe hstep
  | call barrier running recognised =>
    cases hstep
    exact hb.callBarrier hsafe
  | proceed i recognised =>
    simp only [BarrierState.step] at hstep
    split at hstep
    · rename_i call hget
      exact hb.proceed hget hsafe hstep
    · cases hstep
  | timeOut i =>
    simp only [BarrierState.step] at hstep
    split at hstep
    · split at hstep
      · cases hstep
        exact hb.leave (Or.inl rfl)
      · cases hstep
    · cases hstep

/-- What every step keeps of the work. -/
theorem WorkInv.step (hw : WorkInv s) {e : BarrierEvent} (hstep : s.step e = some s') :
    WorkInv s' := by
  cases e with
  | epoch e carrierLoop => exact hw.epochStep hstep
  | call barrier running recognised =>
    cases hstep
    exact ⟨hw.epoch, hw.carriers⟩
  | proceed i recognised =>
    simp only [BarrierState.step] at hstep
    split at hstep
    · rename_i call hget
      unfold BarrierState.proceed at hstep
      split at hstep
      · split at hstep
        · cases hstep
          have hcancel : s.epoch.step .cancelScope = some s.epoch.cancelScope := rfl
          exact (hw.setEpoch hcancel rfl (activeHandles_cancelScope s.epoch)).1
        · cases hstep
          exact ⟨hw.epoch, hw.carriers⟩
      · split at hstep
        · cases hstep
        · split at hstep
          · cases hstep
            exact ⟨hw.epoch, hw.carriers⟩
          · cases hstep
            have hseal : s.epoch.step .sealScope = some s.epoch.sealScope := rfl
            exact (hw.setEpoch hseal rfl rfl).1
      · split at hstep
        · cases hstep
          exact ⟨hw.epoch, hw.carriers⟩
        · cases hstep
          exact ⟨hw.epoch, hw.carriers⟩
      · split at hstep
        · cases hstep
          exact ⟨hw.epoch, hw.carriers⟩
        · split at hstep
          · cases hstep
            exact ⟨hw.epoch, hw.carriers⟩
          · cases hstep
            exact ⟨hw.epoch, hw.carriers⟩
      · split at hstep
        · cases hstep
          exact ⟨hw.epoch, hw.carriers⟩
        · split at hstep
          · cases hstep
            exact ⟨hw.epoch, hw.carriers⟩
          · cases hstep
            exact ⟨hw.epoch, hw.carriers⟩
      · cases hstep
        exact ⟨hw.epoch, hw.carriers⟩
      · cases hstep
      · cases hstep
    · cases hstep
  | timeOut i =>
    simp only [BarrierState.step] at hstep
    split at hstep
    · split at hstep
      · cases hstep
        exact ⟨hw.epoch, hw.carriers⟩
      · cases hstep
    · cases hstep

theorem workInv_initial {configured : ConfiguredBackend} {idleTimeout : Option Nat}
    {privateExecutor : Bool} (hinit : (barrierSystem configured idleTimeout privateExecutor).Init s) :
    WorkInv s := by
  rw [show s = _ from hinit]
  have hepoch : (epochSystem configured idleTimeout).Init
      { configured := configured, idleTimeout := idleTimeout } := rfl
  exact ⟨reachable_epochInv (.init hepoch), fun _ hmem => by cases hmem⟩

/-- The invariant of every run without a step that blocks the loop of its own work. -/
theorem reachUnder_barrierInv {configured : ConfiguredBackend} {idleTimeout : Option Nat}
    {privateExecutor : Bool}
    (hreach : (barrierSystem configured idleTimeout privateExecutor).ReachUnder
      (fun s e => s.blocksOwnLoop e = false) s) : BarrierInv s := by
  refine hreach.invariant (fun s hinit => ⟨workInv_initial hinit, fun call hmem => ?_⟩)
    fun s e s' hb hsafe hstep => hb.step hsafe hstep
  rw [show s = _ from hinit] at hmem
  cases hmem

theorem BarrierInv.not_stuck (hb : BarrierInv s) : ¬ s.Stuck := by
  rintro ⟨call, hmem, loop, hloop, hblocks, hbound⟩
  refine hb.exposed call hmem loop hloop ?_ hbound
  rw [BarrierState.exposed, hblocks]
  rfl

/-! ## 7. A loop that is blocked -/

/-- An exposed call blocks its loop at once, or with its next step. -/
theorem stuck_of_exposed (hw : WorkInv s) {i : Nat} {call : BarrierCall}
    (hget : s.calls[i]? = some call) (hloop : call.loop = some loop)
    (hexposed : s.exposed call = true) (hbound : s.BoundTo loop)
    (S : System BarrierState BarrierEvent) (hS : S.step = BarrierState.step) :
    ∃ es s'', es.length ≤ 1 ∧ S.run s es = some s'' ∧ s''.Stuck := by
  cases hblocks : s.blocks call with
  | true =>
    exact ⟨[], s, Nat.zero_le 1, rfl, call, List.mem_of_getElem? hget, loop, hloop, hblocks, hbound⟩
  | false =>
    have hguarded : call.place = .guarded := by
      simpa [BarrierState.exposed, hblocks] using hexposed
    have hnext : S.step s (.proceed i false) = some (s.setPlace i call .waiting) := by
      rw [hS]
      simp [BarrierState.step, hget, BarrierState.proceed, hguarded, hw.active_of_boundTo hbound]
    refine ⟨[.proceed i false], s.setPlace i call .waiting, Nat.le_refl 1, ?_, { call with
      place := .waiting }, ?_, loop, hloop, rfl, hbound⟩
    · rw [System.run_cons_of_step hnext]
      rfl
    · exact List.mem_of_getElem? (getElem?_set_self' hget)

theorem WorkInv.stage_of_carriesOn (hw : WorkInv s) (hcarries : s.carriesOn loop = true) :
    s.epoch.activeBackend = some .stage := by
  obtain ⟨work, hmem, -⟩ := carriesOn_eq_true.mp hcarries
  exact (hw.carriers work hmem).2

/-- After a step that blocks the loop of its own work, a barrier is stuck. -/
theorem stuck_of_blocksOwnLoop (hb : BarrierInv s) {e : BarrierEvent}
    (hblocks : s.blocksOwnLoop e = true) (hstep : s.step e = some s')
    (S : System BarrierState BarrierEvent) (hS : S.step = BarrierState.step) :
    ∃ es s'', es.length ≤ 1 ∧ S.run s' es = some s'' ∧ s''.Stuck := by
  cases e with
  | epoch e carrierLoop =>
    obtain ⟨loop, hbinds, hany⟩ := (Option.any_eq_true _ _).mp hblocks
    obtain ⟨call, hmem, hcall⟩ := List.any_eq_true.mp hany
    rw [Bool.and_eq_true] at hcall
    have hw' := hb.work.epochStep hstep
    have hbound := hb.work.boundTo_of_bindsTo hstep hbinds
    obtain ⟨epoch, -, rfl⟩ := Option.map_eq_some_iff.mp hstep
    obtain ⟨i, hget⟩ := List.getElem?_of_mem hmem
    exact stuck_of_exposed hw' hget (of_decide_eq_true hcall.1) hcall.2 hbound S hS
  | call barrier running recognised =>
    cases hstep
    simp only [blocksOwnLoop, Bool.and_eq_true, Bool.not_eq_true'] at hblocks
    obtain ⟨⟨rfl, hany⟩, hbarrier⟩ := hblocks
    obtain ⟨loop, rfl, hcarries⟩ := (Option.any_eq_true _ _).mp hany
    have hguards := guards_of_stage (hb.work.stage_of_carriesOn hcarries) (some loop)
      (asyncOperation barrier)
    have hbound : s.BoundTo loop := hb.work.boundTo_iff.mpr (Or.inr hcarries)
    have hlast : (s.callBarrier barrier (some loop) false).calls[s.calls.length]? =
        some ⟨barrier, some loop, .entered barrier⟩ := by
      simp [callBarrier, hguards]
    have hexposed : (s.callBarrier barrier (some loop) false).exposed
        ⟨barrier, some loop, .entered barrier⟩ = true := by
      cases barrier with
      | waitSettled => rfl
      | cancelAndWaitSettled => simp at hbarrier
      | close =>
        have hheld : s.closing.isSome = true := by simpa using hbarrier
        simp [BarrierState.exposed, blocks, BarrierPlace.entered, callBarrier, hheld]
    have hw' : WorkInv (s.callBarrier barrier (some loop) false) :=
      ⟨hb.work.epoch, hb.work.carriers⟩
    exact stuck_of_exposed hw' hlast rfl hexposed hbound S hS
  | proceed i recognised =>
    simp only [BarrierState.step] at hstep
    split at hstep
    · rename_i call hget
      simp only [blocksOwnLoop, hget] at hblocks
      cases hplace : call.place with
      | calling =>
        simp only [hplace, Bool.and_eq_true, Bool.not_eq_true'] at hblocks
        obtain ⟨rfl, hany⟩ := hblocks
        obtain ⟨loop, hloop, hcarries⟩ := (Option.any_eq_true _ _).mp hany
        have hguards := guards_of_stage (hb.work.stage_of_carriesOn hcarries) call.loop
          (asyncOperation .waitSettled)
        simp only [BarrierState.proceed, hplace, hguards] at hstep
        cases hstep
        have hset : (s.setPlace i call .guarded).calls[i]? =
            some { call with place := .guarded } := getElem?_set_self' hget
        have hw' : WorkInv (s.setPlace i call .guarded) := ⟨hb.work.epoch, hb.work.carriers⟩
        exact stuck_of_exposed hw' hset hloop rfl (hb.work.boundTo_iff.mpr (Or.inr hcarries)) S hS
      | locking =>
        simp only [hplace, Bool.and_eq_true, Bool.not_eq_true'] at hblocks
        obtain ⟨⟨hfree, hopen⟩, hany⟩ := hblocks
        simp only [BarrierState.proceed, hplace, hfree, hopen, Bool.false_eq_true, if_false]
          at hstep
        cases hstep
        obtain ⟨other, hmem, hother⟩ := List.any_eq_true.mp hany
        rw [Bool.and_eq_true, decide_eq_true_iff] at hother
        obtain ⟨loop, hloop, hbound⟩ := (Option.any_eq_true _ _).mp hother.2
        obtain ⟨j, hne, hj⟩ := List.mem_eraseIdx_iff_getElem?.mp hmem
        refine ⟨[], _, Nat.zero_le 1, rfl, other, ?_, loop, hloop, ?_, of_decide_eq_true hbound⟩
        · refine List.mem_of_getElem? (i := j) ?_
          change (s.calls.set i _)[j]? = some other
          rw [List.getElem?_set_ne (Ne.symm hne)]
          exact hj
        · simp [blocks, hother.1]
      | _ => simp [hplace] at hblocks
    · cases hstep
  | timeOut i => cases hblocks

/-! ## 8. Sync barriers -/

/-- **Sync barriers on a loop.**  In every run without a step that blocks the loop of its own
    work, no barrier blocks a loop to which unfinished work of the Stage is bound.  After such a
    step one does, at once or with its next step.  In every run a guard on a loop raises when
    the unfinished work on it is the caller backend's. -/
theorem sync_barrier_iff (configured : ConfiguredBackend) (idleTimeout : Option Nat)
    (privateExecutor : Bool) (s : BarrierState) :
    ((barrierSystem configured idleTimeout privateExecutor).ReachUnder
      (fun s e => s.blocksOwnLoop e = false) s → ¬ s.Stuck) ∧
    (∀ s' e,
      (barrierSystem configured idleTimeout privateExecutor).ReachUnder
        (fun s e => s.blocksOwnLoop e = false) s →
        s.blocksOwnLoop e = true → s.step e = some s' →
          ∃ es s'', es.length ≤ 1 ∧
            (barrierSystem configured idleTimeout privateExecutor).run s' es = some s'' ∧
            s''.Stuck) ∧
    ∀ loop,
      (barrierSystem configured idleTimeout privateExecutor).Reachable s → s.BoundTo loop →
        s.carriesOn loop = false → ∀ recognised asyncOperation, ∃ message,
          s.guards (some loop) recognised asyncOperation = .error (.stageLifecycle message) := by
  refine ⟨fun hreach => (reachUnder_barrierInv hreach).not_stuck,
    fun s' e hreach hblocks hstep =>
      stuck_of_blocksOwnLoop (reachUnder_barrierInv hreach) hblocks hstep _ rfl, ?_⟩
  intro loop hreach hbound hcarries recognised operation
  have hw : WorkInv s := hreach.invariant (fun s hinit => workInv_initial hinit)
    fun s e s' hw _ hstep => hw.step hstep
  rcases hw.boundTo_iff.mp hbound with hon | hcarries'
  · exact guards_of_onCallerLoop hon recognised operation
  · rw [hcarries] at hcarries'
    cases hcarries'

/-- A call from a thread. -/
def threadSite : CallSite := ⟨false, none, none, true, none, []⟩

/-- A coroutine on the carrier loop 7 waits for another Stage that leases the same generation. -/
def carrierWaitRun : List BarrierEvent :=
  [.epoch (.go threadSite) 7, .call .waitSettled (some 7) false, .proceed 0 false]

theorem carrier_loop_waits_for_itself :
    ∃ s, (barrierSystem .stage none false).run
        { epoch := { configured := .stage, idleTimeout := none }, privateExecutor := false }
        carrierWaitRun = some s ∧
      (barrierSystem .stage none false).Reachable s ∧ s.Stuck := by
  have hend : ((barrierSystem .stage none false).run
      { epoch := { configured := .stage, idleTimeout := none }, privateExecutor := false }
      carrierWaitRun).any (fun s => decide (s.BoundTo 7 ∧
        s.calls = [⟨.waitSettled, some 7, .waiting⟩])) = true := by
    decide
  obtain ⟨s, hrun, hs⟩ := (Option.any_eq_true _ _).mp hend
  obtain ⟨hbound, hcalls⟩ := of_decide_eq_true hs
  refine ⟨s, hrun, System.reachable_of_run carrierWaitRun rfl hrun,
    ⟨.waitSettled, some 7, .waiting⟩, ?_, 7, rfl, rfl, hbound⟩
  rw [hcalls]
  exact List.mem_singleton.mpr rfl

end BarrierState

end AgentlyStage
