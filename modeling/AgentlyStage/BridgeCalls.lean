import AgentlyStage.BridgeClosing
import AgentlyStage.Lib.Counting

/-!
# Calls of the adapters and `close`

A call of an `as_sync` adapter passes `_ensure_open`, runs the user function, chooses its path and
submits the awaitable; a close can come in between anywhere.  The direct path submits to the
carrier Stage, which the close may have sealed.  The routed path makes a Stage of its own under the
lock of the bridge, so that either the call finds `_closing` set or the close finds the Stage.

`Kept` is what a caller relies on: the awaitable is in the hands of a Stage, for which every normal
close has waited, or the call raises and has closed it.
-/

namespace AgentlyStage

open Transition

namespace ScopeState

variable {s s' : ScopeState} {h : Nat} {e : ScopeEvent}

/-! ## 1. The scope of a call -/

/-- Nothing has been submitted. -/
def Fresh (s : ScopeState) : Prop := s.handles.length = 0 ∧ s.taskCount = 0

/-- The only submission has failed; its notification is due, or has come. -/
def FailedSubmission (s : ScopeState) (h : Nat) : Prop :=
  h = 0 ∧ s.handles.length = 1 ∧ s.pendingWork 0 = 0 ∧
    (0 ∈ s.notifications ∨ 0 ∉ s.activeHandles)

/-- The steps of a Stage of the bridge, apart from `go`. -/
def keepsScope (s : ScopeState) (e : ScopeEvent) : Bool :=
  s.listenerWork e || closes e || decide (e = .sealScope)

/-- What these steps keep. -/
structure KeepsScope (s s' : ScopeState) : Prop where
  listening : Listening s'
  length : s'.handles.length = s.handles.length
  taskCount : s'.taskCount = s.taskCount
  idle : Idle s → Idle s'
  failed : ∀ h, FailedSubmission s h → FailedSubmission s' h
  quiet : (s.closed = true → Quiet s) → s'.closed = true → Quiet s'
  is_sealed : s.isSealed = true → s'.isSealed = true

theorem Fresh.idle (hf : Fresh s) : Idle s := fun h hlt => by
  rw [hf.1] at hlt
  cases hlt

theorem FailedSubmission.idle (hf : FailedSubmission s h) (hnotified : h ∉ s.notifications) :
    Idle s := by
  obtain ⟨rfl, hlength, hpending, hmember⟩ := hf
  intro k hk
  obtain rfl : k = 0 := by omega
  exact ⟨hpending, hmember.resolve_left hnotified⟩

/-- A fresh scope has no context of its own work. -/
theorem Fresh.not_owned (hf : Fresh s) {owned : Bool} (hc : s.callEnabled owned = true) :
    owned = false := by
  cases owned with
  | false => rfl
  | true =>
    have hnone : s.handles = [] := List.length_eq_zero_iff.mp hf.1
    simp [callEnabled, ownedContextExists, hnone, hf.2] at hc

theorem length_setHandle (s : ScopeState) (h : Nat) (entry : HandleState) :
    (s.setHandle h entry).handles.length = s.handles.length :=
  List.length_set

theorem releaseWork_fields (s : ScopeState) (h : Nat) (runner : Bool) :
    (s.releaseWork h runner).handles.length = s.handles.length ∧
      (s.releaseWork h runner).taskCount = s.taskCount := by
  unfold releaseWork
  dsimp only
  split
  · exact ⟨length_setHandle s h _, rfl⟩
  · exact ⟨length_setHandle s h _, rfl⟩

/-- Work that goes on neither adds handles nor adopts tasks. -/
theorem fields_of_work (hw : s.listenerWork e = true) (hstep : s.step e = some s') :
    s'.handles.length = s.handles.length ∧ s'.taskCount = s.taskCount := by
  cases e with
  | submit h | retain h runner | completeBody h =>
    obtain ⟨-, rfl⟩ := when_eq_some hstep
    exact ⟨length_setHandle s h _, rfl⟩
  | submitFails h =>
    obtain ⟨-, rfl⟩ := when_eq_some hstep
    obtain ⟨hlength, hcount⟩ := releaseWork_fields (s.retainWork h true) h true
    exact ⟨hlength.trans (length_setHandle s h _), hcount⟩
  | release h runner =>
    obtain ⟨-, rfl⟩ := when_eq_some hstep
    exact releaseWork_fields s h runner
  | drainStep h =>
    obtain ⟨-, rfl⟩ := when_eq_some hstep
    unfold ScopeState.drainStep
    split
    · exact ⟨length_setHandle s h _, rfl⟩
    · exact ⟨length_setHandle s h _, rfl⟩
  | notify h | executorCall h =>
    obtain ⟨-, rfl⟩ := when_eq_some hstep
    exact ⟨rfl, rfl⟩
  | _ => cases hw

theorem FailedSubmission.setHandle {entry : HandleState} {k : Nat} (hf : FailedSubmission s h)
    (heq : entry.pendingWork = s.pendingWork k) : FailedSubmission (s.setHandle k entry) h := by
  obtain ⟨rfl, hlength, hpending, hmember⟩ := hf
  exact ⟨rfl, (length_setHandle s k entry).trans hlength,
    (pendingWork_setHandle entry heq 0).trans hpending, hmember⟩

theorem FailedSubmission.work (hf : FailedSubmission s h) (hl : Listening s)
    (hw : s.listenerWork e = true) (hstep : s.step e = some s') : FailedSubmission s' h := by
  obtain ⟨rfl, hlength, hpending, hmember⟩ := hf
  have hidle : ∀ {k}, 0 < s.pendingWork k → False := fun {k} hp => by
    have hk := lt_of_pendingWork hp
    obtain rfl : k = 0 := by omega
    omega
  have hposted : ∀ {k}, k < s.handles.length → ¬ (s.handle k).submitted = true → False := by
    intro k hk hfresh
    obtain rfl : k = 0 := by omega
    have hactive := hl.submissions.fresh_member 0 hk (by simpa using hfresh)
    rcases hmember with hnotified | hnot
    · exact hfresh (hl.submissions.notified 0 hnotified)
    · exact hnot hactive
  have hset : ∀ k entry, entry.pendingWork = s.pendingWork k →
      FailedSubmission (s.setHandle k entry) 0 :=
    fun k entry heq => .setHandle ⟨rfl, hlength, hpending, hmember⟩ heq
  cases e with
  | submit k | submitFails k =>
    obtain ⟨⟨hlt, hfresh⟩, -⟩ := when_eq_some hstep
    exact (hposted hlt hfresh).elim
  | retain k runner => exact (hidle (of_decide_eq_true hw)).elim
  | release k runner =>
    obtain ⟨⟨hp, -⟩, -⟩ := when_eq_some hstep
    exact (hidle hp).elim
  | completeBody k =>
    obtain ⟨-, rfl⟩ := when_eq_some hstep
    exact hset k _ rfl
  | drainStep k =>
    obtain ⟨-, rfl⟩ := when_eq_some hstep
    unfold ScopeState.drainStep
    split
    · exact hset k _ rfl
    · exact hset k _ rfl
  | notify k =>
    obtain ⟨-, rfl⟩ := when_eq_some hstep
    refine ⟨rfl, hlength, hpending, ?_⟩
    by_cases hk : k = 0
    · subst hk
      exact Or.inr (Finset.notMem_erase 0 s.activeHandles)
    · refine hmember.imp (fun hnotified => ?_) fun hnot hactive => ?_
      · exact (List.mem_erase_of_ne (Ne.symm hk)).mpr hnotified
      · exact hnot (Finset.mem_of_mem_erase hactive)
  | executorCall k =>
    obtain ⟨-, rfl⟩ := when_eq_some hstep
    exact ⟨rfl, hlength, hpending, hmember⟩
  | _ => cases hw

theorem closed_congr (hphase : s'.closePhase = s.closePhase)
    (hcompleted : s'.closeCompleted = s.closeCompleted) : s'.closed = s.closed := by
  rw [closed, closed, hphase, hcompleted]

theorem KeepsScope.work (hl : Listening s) (hw : s.listenerWork e = true)
    (hstep : s.step e = some s') : KeepsScope s s' := by
  have hk := keepsClose_of_step (not_closes_of_work hw) hstep
  obtain ⟨hlength, hcount⟩ := fields_of_work hw hstep
  refine ⟨hl.work hw hstep, hlength, hcount, fun hi => hi.work hl hw hstep,
    fun h hf => hf.work hl hw hstep, fun hq hclosed => ?_, hk.is_sealed⟩
  rw [closed_congr hk.phase hk.completed] at hclosed
  exact (hq hclosed).work hl hw hstep

/-- The steps of `close` and `seal` leave the handles alone. -/
theorem KeepsScope.of_eq (hl : Listening s') (hhandles : s'.handles = s.handles)
    (hactive : s'.activeHandles = s.activeHandles)
    (hnotifications : s'.notifications = s.notifications)
    (hcount : s'.taskCount = s.taskCount) (hsealed : s.isSealed = true → s'.isSealed = true)
    (hquiet : (s.closed = true → Quiet s) → s'.closed = true → Quiet s') : KeepsScope s s' := by
  have hpending : ∀ k, s'.pendingWork k = s.pendingWork k := fun k => by
    rw [pendingWork, pendingWork, handle, handle, hhandles]
  refine ⟨hl, by rw [hhandles], hcount, fun hi k hk => ?_, fun h hf => ?_, hquiet, hsealed⟩
  · rw [hpending, hactive]
    exact hi k (by rwa [← hhandles])
  · rw [FailedSubmission, hhandles, hpending, hnotifications, hactive]
    exact hf

theorem Listening.sealScope (hl : Listening s) (hstep : s.step .sealScope = some s') :
    Listening s' := by
  have hreached := hl.reaches rfl hstep
  obtain ⟨-, rfl⟩ := when_eq_some hstep
  exact ⟨hreached, hl.notified, hl.unregistered⟩

theorem KeepsScope.step (hl : Listening s) (hs : SealedByClose s) (hk : s.keepsScope e = true)
    (hstep : s.step e = some s') : KeepsScope s s' := by
  simp only [keepsScope, Bool.or_eq_true, decide_eq_true_eq] at hk
  rcases hk with (hw | hc) | rfl
  · exact .work hl hw hstep
  · have hl' := hl.close hc hstep
    cases e with
    | closeStart =>
      obtain ⟨-, rfl⟩ := when_eq_some hstep
      split at hl'
      · rw [if_pos (by assumption)]
        exact .of_eq hl rfl rfl rfl rfl id id
      · rename_i hcompleted
        rw [if_neg hcompleted]
        refine .of_eq hl' rfl rfl rfl rfl (fun _ => rfl) fun _ h => ?_
        simp [closed, hcompleted] at h
    | closeTimeout =>
      obtain ⟨-, rfl⟩ := when_eq_some hstep
      refine .of_eq hl' rfl rfl rfl rfl id fun hq h => ?_
      have hquiet := hq (by simpa [closed] using Or.inl h)
      exact ⟨hquiet.is_sealed, hquiet.settled⟩
    | closeSettled =>
      obtain ⟨⟨-, hwaiting, hidle⟩, rfl⟩ := when_eq_some hstep
      refine .of_eq hl' rfl rfl rfl rfl id fun _ _ => ?_
      have hquiet := quiet_of_idle hl (hs (Or.inl (by rw [hwaiting]; exact fun h => by cases h))) hidle
      exact ⟨hquiet.is_sealed, hquiet.settled⟩
    | closeDone =>
      obtain ⟨⟨-, hsettled⟩, rfl⟩ := when_eq_some hstep
      refine .of_eq hl' rfl rfl rfl rfl id fun hq _ => ?_
      have hquiet := hq (by simp [closed, hsettled])
      exact ⟨hquiet.is_sealed, hquiet.settled⟩
    | _ => cases hc
  · have hl' := hl.sealScope hstep
    obtain ⟨-, rfl⟩ := when_eq_some hstep
    refine .of_eq hl' rfl rfl rfl rfl (fun _ => rfl) fun hq h => ?_
    exact ⟨rfl, (hq h).settled⟩

end ScopeState

/-! ## 2. What a caller relies on -/

/-- The Stage of a phase that is still to submit to it. -/
def CallPhase.enters : CallPhase → Option Nat
  | .entering σ | .going σ => some σ
  | _ => none

def AwaitableState.IsAdmitted (awaitable : AwaitableState) : Prop :=
  ∃ σ h, awaitable = .admitted σ h

namespace ClosingBridge

variable {ε : Type}

/-- An awaitable is in the hands of a Stage of the bridge, for which every close that has returned
    normally has waited, or the call raises and has closed it. -/
structure Kept (s : ClosingBridge ε) : Prop where
  not_dropped : ∀ call ∈ s.calls, call.awaitable ≠ .dropped
  ended : ∀ call ∈ s.calls, call.phase = .returned ∨ call.phase = .raised →
    call.awaitable ≠ .pending ∧ (call.awaitable = .closed → call.phase = .raised)
  admitted : ∀ call ∈ s.calls, ∀ σ h, call.awaitable = .admitted σ h → σ ≠ submitStage ∧
    ∃ stage, s.stages[σ]? = some stage ∧ h < stage.scope.handles.length ∧
      ∀ close ∈ s.closes, close.phase = .returned →
        stage.scope.pendingWork h = 0 ∧ h ∉ stage.scope.activeHandles

/-- The direct path raises from `go`, the routed Stage is sealed before it is entered, or the task
    of the submission does not start: nobody closes the awaitable. -/
def Drops (s : ClosingBridge ε) : AdapterEvent ε → Prop
  | .enterScope c => ∃ call σ stage, s.calls[c]? = some call ∧ call.phase = .entering σ ∧
      s.stages[σ]? = some stage ∧ stage.scope.isSealed = true
  | .go c owned => ∃ call stage, s.calls[c]? = some call ∧ call.phase = .going carrierStage ∧
      s.stages[carrierStage]? = some stage ∧ stage.scope.callAllowed owned = false
  | .goRaises c => ∃ call, s.calls[c]? = some call ∧
      (call.phase = .going carrierStage ∨ ∃ h, call.phase = .unposted carrierStage h)
  | .startFails _ => True
  | _ => False

/-- A context that has outlived the work it was copied from submits to a Stage that has been waited
    for, or makes a task for a handle that has settled. -/
def Reopens (s : ClosingBridge ε) : AdapterEvent ε → Prop
  | .go c owned => ∃ call σ stage, s.calls[c]? = some call ∧ call.phase = .going σ ∧
      s.stages[σ]? = some stage ∧ stage.scope.callAllowed owned = true ∧
      stage.scope.closed = true
  | .work σ (.retain h _) _ => σ ≠ submitStage ∧ ∃ stage, s.stages[σ]? = some stage ∧
      stage.scope.pendingWork h = 0
  | _ => False

end ClosingBridge

/-! ## 3. The invariant -/

/-- The awaitable of a call at a phase. -/
def CallPhase.Allows (awaitable : AwaitableState) (raising : Bool) : CallPhase → Prop
  | .called | .function => awaitable = .none
  | .resolving | .entering _ | .going _ | .unposted _ _ => awaitable = .pending
  | .posting σ h | .running σ h => awaitable = .admitted σ h
  | .settling _ | .sealing _ => awaitable.IsAdmitted
  | .closingOwn _ | .inOwnClose _ | .leaving _ =>
    awaitable.IsAdmitted ∨ awaitable = .closed ∧ raising = true
  | .returned => awaitable = .none ∨ awaitable.IsAdmitted
  | .raised => awaitable = .none ∨ awaitable = .closed ∨ awaitable.IsAdmitted

/-- The scope of the routed Stage of a call. -/
def BridgeCall.ScopeOk (call : BridgeCall) (scope : ScopeState) : Prop :=
  match call.phase with
  | .entering _ | .going _ => scope.Fresh
  | .posting _ h => h = 0 ∧ scope.handles.length = 1
  | .unposted _ h => scope.FailedSubmission h
  | .leaving _ => call.managed = true → scope.Idle
  | _ => True

namespace ClosingBridge

variable {ε : Type} {s s' t : ClosingBridge ε} {c σ : Nat} {call call' : BridgeCall}
  {stage stage' : OwnedStage ε} {e : AdapterEvent ε}

structure CallOk (s : ClosingBridge ε) (call : BridgeCall) : Prop where
  allows : call.phase.Allows call.awaitable call.raising
  uses : ∀ σ, call.phase.uses = some σ → σ ≠ submitStage ∧ σ < s.stages.length
  admitted : ∀ σ h, call.awaitable = .admitted σ h → σ ≠ submitStage ∧
    ∃ stage, s.stages[σ]? = some stage ∧ h < stage.scope.handles.length
  scope : ∀ (σ : Nat) (stage : OwnedStage ε), call.phase.uses = some σ → σ ≠ carrierStage →
    s.stages[σ]? = some stage → call.ScopeOk stage.scope

/-- Nothing goes on in the Stage, and nobody is about to submit to it. -/
def Done (s : ClosingBridge ε) (σ : Nat) : Prop :=
  ∀ stage, s.stages[σ]? = some stage → stage.scope.Idle ∧
    (stage.scope.isSealed = true ∨ ∀ call ∈ s.calls, call.phase.enters ≠ some σ)

structure CallsInv (s : ClosingBridge ε) : Prop where
  walk : WalkInv s
  listening : ∀ (σ : Nat) (stage : OwnedStage ε), σ ≠ submitStage → s.stages[σ]? = some stage →
    stage.scope.Listening
  quiet : ∀ (σ : Nat) (stage : OwnedStage ε), σ ≠ submitStage → s.stages[σ]? = some stage →
    stage.scope.closed = true → stage.scope.Quiet
  calls : ∀ call ∈ s.calls, CallOk s call
  alone : ∀ (c k : Nat) (call other : BridgeCall) (σ : Nat), s.calls[c]? = some call →
    s.calls[k]? = some other → σ ≠ carrierStage → call.phase.uses = some σ →
    other.phase.uses = some σ → c = k
  released : ∀ σ, 2 ≤ σ → σ ∉ s.routedStages → s.Done σ
  snapshot : ∀ close ∈ s.closes, ∀ todo, close.phase.todo = some todo →
    ∀ σ ∈ s.routedStages, σ ∈ close.stages

theorem uses_of_enters {phase : CallPhase} (h : phase.enters = some σ) : phase.uses = some σ := by
  cases phase with
  | entering τ | going τ => exact h
  | _ => cases h

theorem getElem?_setStage (hget : s.stages[σ]? = some stage) {τ : Nat} {other : OwnedStage ε}
    (h : (s.setStage σ stage').stages[τ]? = some other) :
    τ = σ ∧ other = stage' ∨ τ ≠ σ ∧ s.stages[τ]? = some other := by
  rw [ClosingBridge.setStage, List.getElem?_set] at h
  split at h
  · rename_i hσ
    rw [if_pos (List.getElem?_eq_some_iff.mp hget).1] at h
    exact Or.inl ⟨hσ.symm, (Option.some.inj h).symm⟩
  · rename_i hσ
    exact Or.inr ⟨Ne.symm hσ, h⟩

/-- A Stage makes a step. -/
theorem CallsInv.setStage (hi : CallsInv s) (hget : s.stages[σ]? = some stage)
    (hnext : stage.Next stage')
    (hl : σ ≠ submitStage → stage'.scope.Listening)
    (hquiet : σ ≠ submitStage → stage'.scope.closed = true → stage'.scope.Quiet)
    (hlength : σ ≠ submitStage → stage.scope.handles.length ≤ stage'.scope.handles.length)
    (hscope : σ ≠ submitStage → σ ≠ carrierStage → ∀ call ∈ s.calls, call.phase.uses = some σ →
      call.ScopeOk stage.scope → call.ScopeOk stage'.scope)
    (hidle : 2 ≤ σ → σ ∉ s.routedStages → stage'.scope.Idle) :
    CallsInv (s.setStage σ stage') where
  walk := hi.walk.aside (aside_setStage hget hnext)
  listening τ other hτ hother := by
    rcases getElem?_setStage hget hother with ⟨rfl, rfl⟩ | ⟨-, hother⟩
    · exact hl hτ
    · exact hi.listening τ other hτ hother
  quiet τ other hτ hother hclosed := by
    rcases getElem?_setStage hget hother with ⟨rfl, rfl⟩ | ⟨-, hother⟩
    · exact hquiet hτ hclosed
    · exact hi.quiet τ other hτ hother hclosed
  calls call hcall := by
    have hok := hi.calls call hcall
    refine ⟨hok.allows, fun τ hτ => ?_, fun τ h hadmitted => ?_, fun τ other huses hτ hother => ?_⟩
    · rw [ClosingBridge.setStage, List.length_set]
      exact hok.uses τ hτ
    · obtain ⟨hτ, other, hother, hlt⟩ := hok.admitted τ h hadmitted
      refine ⟨hτ, ?_⟩
      by_cases hsame : τ = σ
      · subst hsame
        rw [hget] at hother
        cases hother
        refine ⟨stage', ?_, Nat.lt_of_lt_of_le hlt (hlength hτ)⟩
        exact List.getElem?_set_self (List.getElem?_eq_some_iff.mp hget).1
      · exact ⟨other, by rwa [ClosingBridge.setStage, List.getElem?_set_ne (Ne.symm hsame)], hlt⟩
    · rcases getElem?_setStage hget hother with ⟨rfl, rfl⟩ | ⟨-, hother⟩
      · exact hscope (hok.uses τ huses).1 hτ call hcall huses (hok.scope τ stage huses hτ hget)
      · exact hok.scope τ other huses hτ hother
  alone := hi.alone
  released τ hτ hrouted other hother := by
    have hdone := hi.released τ hτ hrouted
    rcases getElem?_setStage hget hother with ⟨rfl, rfl⟩ | ⟨-, hother⟩
    · refine ⟨hidle hτ hrouted, (hdone stage hget).2.imp_left fun hsealed => ?_⟩
      exact hnext.scope.is_sealed hsealed
    · exact hdone other hother
  snapshot := hi.snapshot

/-- A step apart from `go`. -/
theorem CallsInv.keepsScope (hi : CallsInv s) (hget : s.stages[σ]? = some stage)
    (hnext : stage.Next stage')
    (hk : σ ≠ submitStage → stage.scope.KeepsScope stage'.scope) :
    CallsInv (s.setStage σ stage') := by
  refine hi.setStage hget hnext (fun hσ => (hk hσ).listening) (fun hσ => ?_) (fun hσ => ?_)
    (fun hσ hcarrier call hcall huses hok => ?_) fun htwo hrouted => ?_
  · exact (hk hσ).quiet (hi.quiet σ stage hσ hget)
  · exact Nat.le_of_eq (hk hσ).length.symm
  · have hkeeps := hk hσ
    unfold BridgeCall.ScopeOk at hok ⊢
    split at hok
    · exact ⟨hkeeps.length.trans hok.1, hkeeps.taskCount.trans hok.2⟩
    · exact ⟨hkeeps.length.trans hok.1, hkeeps.taskCount.trans hok.2⟩
    · exact ⟨hok.1, hkeeps.length.trans hok.2⟩
    · exact hkeeps.failed _ hok
    · exact fun hmanaged => hkeeps.idle (hok hmanaged)
    · trivial
  · have hσ : σ ≠ submitStage := fun h => by
      rw [h] at htwo
      exact absurd htwo (by decide)
    exact (hk hσ).idle (hi.released σ htwo hrouted stage hget).1

/-- A call goes on. -/
theorem CallsInv.setCall (hi : CallsInv s) (hok : CallOk s call')
    (halone : ∀ σ, call'.phase.uses = some σ → σ ≠ carrierStage →
      ∀ (k : Nat) (other : BridgeCall), s.calls[k]? = some other → other.phase.uses = some σ → k = c)
    (henters : ∀ σ, call'.phase.enters = some σ → σ = carrierStage ∨ σ ∈ s.routedStages ∨
      ∃ call ∈ s.calls, call.phase.enters = some σ) : CallsInv (s.setCall c call') := by
  have hcases : ∀ {k : Nat} {other : BridgeCall}, (s.setCall c call').calls[k]? = some other →
      k = c ∧ other = call' ∨ s.calls[k]? = some other := by
    intro k other hother
    rw [ClosingBridge.setCall, List.getElem?_set] at hother
    split at hother
    · rename_i hk
      split at hother
      · exact Or.inl ⟨hk.symm, (Option.some.inj hother).symm⟩
      · cases hother
    · exact Or.inr hother
  refine ⟨hi.walk.aside (.setCall s c call'), hi.listening, hi.quiet, fun call hcall => ?_,
    fun k l call other σ hk hl hσ hcall hother => ?_, fun σ hσ hrouted stage hget => ?_,
    hi.snapshot⟩
  · have hok' : CallOk s call := by
      rcases List.mem_or_eq_of_mem_set hcall with hcall | rfl
      · exact hi.calls call hcall
      · exact hok
    exact ⟨hok'.allows, hok'.uses, hok'.admitted, hok'.scope⟩
  · rcases hcases hk with ⟨rfl, rfl⟩ | hk'
    · rcases hcases hl with ⟨rfl, -⟩ | hl'
      · rfl
      · exact (halone σ hcall hσ l other hl' hother).symm
    · rcases hcases hl with ⟨rfl, rfl⟩ | hl'
      · exact halone σ hother hσ k call hk' hcall
      · exact hi.alone k l call other σ hk' hl' hσ hcall hother
  · obtain ⟨hidle, hsealed⟩ := hi.released σ hσ hrouted stage hget
    refine ⟨hidle, hsealed.imp_right fun hnobody call hcall hentering => ?_⟩
    rcases List.mem_or_eq_of_mem_set hcall with hcall | rfl
    · exact hnobody call hcall hentering
    · rcases henters σ hentering with rfl | hmem | ⟨other, hother, hsame⟩
      · exact absurd hσ (by decide)
      · exact hrouted hmem
      · exact hnobody other hother hsame

/-- A call goes on with the same Stage, or the carrier Stage, or without one. -/
theorem CallsInv.setCall_same (hi : CallsInv s) (hget : s.calls[c]? = some call)
    (hok : CallOk s call')
    (huses : ∀ σ, call'.phase.uses = some σ → σ = carrierStage ∨ call.phase.uses = some σ)
    (henters : ∀ σ, call'.phase.enters = some σ → σ = carrierStage ∨ call.phase.enters = some σ) :
    CallsInv (s.setCall c call') := by
  refine hi.setCall hok (fun σ hσ hcarrier k other hother hk => ?_) fun σ hσ => ?_
  · exact hi.alone k c other call σ hother hget hcarrier hk ((huses σ hσ).resolve_left hcarrier)
  · refine (henters σ hσ).imp_right fun h => Or.inr ⟨call, List.mem_of_getElem? hget, h⟩

/-- The closes go on, or routed Stages are given up. -/
theorem CallsInv.congr (hi : CallsInv s) (hw : WalkInv t) (hstages : t.stages = s.stages)
    (hcalls : t.calls = s.calls)
    (hdone : ∀ σ ∈ s.routedStages, σ ∉ t.routedStages → s.Done σ)
    (hsnapshot : ∀ close ∈ t.closes, ∀ todo, close.phase.todo = some todo →
      ∀ σ ∈ t.routedStages, σ ∈ close.stages) : CallsInv t where
  walk := hw
  listening σ stage hσ hget := hi.listening σ stage hσ (by rwa [← hstages])
  quiet σ stage hσ hget := hi.quiet σ stage hσ (by rwa [← hstages])
  calls call hcall := by
    rw [hcalls] at hcall
    have hok := hi.calls call hcall
    refine ⟨hok.allows, fun σ hσ => ?_, fun σ h hadmitted => ?_, fun σ stage hσ hcarrier hget => ?_⟩
    · rw [hstages]
      exact hok.uses σ hσ
    · rw [hstages]
      exact hok.admitted σ h hadmitted
    · exact hok.scope σ stage hσ hcarrier (by rwa [← hstages])
  alone := by
    rw [hcalls]
    exact hi.alone
  released σ hσ hnot stage hget := by
    rw [hstages] at hget
    rw [hcalls]
    by_cases hmem : σ ∈ s.routedStages
    · exact hdone σ hmem hnot stage hget
    · exact hi.released σ hσ hmem stage hget
  snapshot := hsnapshot

/-! ## 4. Steps of the work and of the closes -/

theorem callsInv_init (owns : Bool) :
    CallsInv ({ ownsSubmitStage := owns } : ClosingBridge ε) := by
  have hfresh : ∀ (σ : Nat) (stage : OwnedStage ε),
      ([{}, {}] : List (OwnedStage ε))[σ]? = some stage →
      stage = {} := by
    intro σ stage hget
    simpa using List.mem_of_getElem? hget
  refine ⟨walkInv_init owns, fun σ stage _ hget => ?_, fun σ stage _ hget hclosed => ?_,
    (fun call hcall => by cases hcall), (fun c k call other σ hget => by simp at hget),
    fun σ _ _ stage hget => ?_, fun close hclose => by cases hclose⟩
  · rw [hfresh σ stage hget]
    exact ⟨.init rfl, (fun h hmem => by cases hmem), rfl⟩
  · rw [hfresh σ stage hget] at hclosed
    cases hclosed
  · rw [hfresh σ stage hget]
    exact ⟨(fun h hlt => by cases hlt), Or.inr fun call hcall => by cases hcall⟩

theorem CallsInv.keepsScope_of_step (hi : CallsInv s) (hget : s.stages[σ]? = some stage)
    {event : ScopeEvent} {scope : ScopeState} (hk : stage.scope.keepsScope event = true)
    (hstep : stage.scope.step event = some scope) (hσ : σ ≠ submitStage) :
    stage.scope.KeepsScope scope :=
  .step (hi.listening σ stage hσ hget) (hi.walk.sealedByClose σ stage hget) hk hstep

/-- A step of the scope of a Stage, apart from `go`. -/
theorem CallsInv.scopeStep (hi : CallsInv s) (hget : s.stages[σ]? = some stage) {event : ScopeEvent}
    (hk : σ ≠ submitStage → stage.scope.keepsScope event = true)
    (hstep : stage.scopeStep event = some stage') : CallsInv (s.setStage σ stage') := by
  refine hi.keepsScope hget (.of_scopeStep hstep) fun hσ => ?_
  obtain ⟨scope, hscope, rfl⟩ := OwnedStage.scopeStep_eq_some hstep
  exact hi.keepsScope_of_step hget (hk hσ) hscope hσ

theorem CallsInv.startClose (hi : CallsInv s) (hget : s.stages[σ]? = some stage)
    (hstep : stage.startClose = some stage') : CallsInv (s.setStage σ stage') := by
  refine hi.keepsScope hget (.of_startClose hstep) fun hσ => ?_
  obtain ⟨scope, hscope, rfl⟩ := OwnedStage.scopeStep_eq_some hstep
  exact hi.keepsScope_of_step hget rfl hscope hσ

theorem CallsInv.work (hi : CallsInv s) {event : ScopeEvent} {errors : List ε}
    (hok : ¬ s.Reopens (.work σ event errors)) (h : s.step (.work σ event errors) = some s') :
    CallsInv s' := by
  simp only [ClosingBridge.step] at h
  split at h
  · rename_i hallowed
    obtain ⟨stage, stage', hget, hstage', rfl⟩ := onStage_eq_some h
    refine hi.keepsScope hget (.of_work hstage') fun hσ => ?_
    obtain ⟨scope, hscope, rfl⟩ := OwnedStage.scopeStep_eq_some hstage'
    refine hi.keepsScope_of_step hget ?_ hscope hσ
    have hbody : AdapterEvent.isBodyWork event = true := by
      have := (Bool.and_eq_true_iff.mp hallowed).1
      rwa [allowsWork, if_neg hσ] at this
    cases event with
    | retain k runner =>
      have hpending : 0 < stage.scope.pendingWork k := by
        by_contra hzero
        exact hok ⟨hσ, stage, hget, by omega⟩
      simp [ScopeState.keepsScope, ScopeState.listenerWork, hpending]
    | release _ _ | completeBody _ | drainStep _ | notify _ | executorCall _ => rfl
    | _ => cases hbody
  · cases h

theorem snapshot_closeAt (hi : CallsInv s) {i : Nat} {phase phase' : BridgeClosePhase}
    (hphase : s.closePhase i = some phase) {todo : List Nat} (htodo : phase.todo = some todo) :
    ∀ close ∈ (s.closeAt i phase').closes, ∀ rest, close.phase.todo = some rest →
      ∀ σ ∈ s.routedStages, σ ∈ close.stages := by
  intro close hmem rest hrest σ hσ
  obtain ⟨before, hbefore, hbtodo⟩ := todo_of_closePhase hphase htodo
  obtain ⟨k, hk⟩ := List.mem_iff_getElem?.mp hmem
  rcases closeAt_cases hbefore hk with ⟨-, rfl⟩ | ⟨-, hk⟩
  · exact hi.snapshot before (List.mem_of_getElem? hbefore) todo hbtodo σ hσ
  · exact hi.snapshot close (List.mem_of_getElem? hk) rest hrest σ hσ

/-- A close goes on after its Stage. -/
theorem CallsInv.closeAt (hi : CallsInv s) {i : Nat} {phase phase' : BridgeClosePhase}
    (holder : Option Nat) (hw : WalkInv { s.closeAt i phase' with closeHolder := holder })
    (hphase : s.closePhase i = some phase) {todo : List Nat} (htodo : phase.todo = some todo) :
    CallsInv { s.closeAt i phase' with closeHolder := holder } :=
  hi.congr hw rfl rfl (fun _ hσ hnot => absurd hσ hnot) (snapshot_closeAt hi hphase htodo)

theorem CallsInv.afterStage (hi : CallsInv s) {i : Nat} {phase : BridgeClosePhase}
    {rest : List Nat} {errors : List ε} (hw : WalkInv (s.afterStage i rest errors))
    (hphase : s.closePhase i = some phase) {todo : List Nat} (htodo : phase.todo = some todo) :
    CallsInv (s.afterStage i rest errors) := by
  unfold ClosingBridge.afterStage at hw ⊢
  split
  · rename_i hnone
    rw [if_pos hnone] at hw
    exact hi.closeAt s.closeHolder hw hphase htodo
  · rename_i herrors
    rw [if_neg herrors] at hw
    exact hi.closeAt none hw hphase htodo

/-- The scope of a Stage that is closed is quiet. -/
theorem CallsInv.quiet_of_completed (hi : CallsInv s) (h : s.Completed σ) (hσ : σ ≠ submitStage)
    (hget : s.stages[σ]? = some stage) : stage.scope.Quiet := by
  obtain ⟨other, hother, -, hcompleted⟩ := h
  rw [hget] at hother
  cases hother
  exact hi.quiet σ stage hσ hget (by rw [ScopeState.closed, hcompleted, Bool.true_or])

theorem CallsInv.closeStep (hi : CallsInv s) (h : s.closeStep e = some s') : CallsInv s' := by
  have hw := hi.walk.closeStep h
  have hsame : ∀ {σ : Nat}, σ ∈ s.routedStages → σ ∉ s.routedStages → s.Done σ :=
    fun hσ hnot => absurd hσ hnot
  cases e with
  | callClose =>
    cases h
    refine hi.congr hw rfl rfl (fun _ => hsame) fun close hmem todo htodo => ?_
    rcases List.mem_append.mp hmem with hmem | hmem
    · exact hi.snapshot close hmem todo htodo
    · rw [List.mem_singleton.mp hmem] at htodo
      cases htodo
  | enterClose i order =>
    obtain ⟨⟨-, -, horder⟩, rfl⟩ := when_eq_some h
    unfold ClosingBridge.enterClose at hw ⊢
    split at hw
    · rename_i hclosed
      rw [if_pos hclosed]
      refine hi.congr hw rfl rfl (fun _ => hsame) fun close hmem todo htodo => ?_
      rcases mem_setClose hmem with hmem | rfl
      · exact hi.snapshot close hmem todo htodo
      · cases htodo
    · rename_i hclosed
      rw [if_neg hclosed]
      refine hi.congr hw rfl rfl (fun _ => hsame) fun close hmem todo htodo => ?_
      rcases mem_setClose hmem with hmem | rfl
      · exact hi.snapshot close hmem todo htodo
      · exact fun σ hσ => List.mem_append_left _ (horder.mem_iff.mpr hσ)
  | guardRefuses i =>
    simp only [ClosingBridge.closeStep] at h
    split at h
    · rename_i hphase
      cases h
      exact hi.closeAt none hw hphase rfl
    · cases h
  | startStage i =>
    obtain ⟨σ, todo, stage, hphase, hget, hcase⟩ := startStage_spec h
    rcases hcase with ⟨-, rfl⟩ | ⟨-, stage', hstage', rfl⟩
    · exact hi.afterStage hw hphase rfl
    · exact (hi.startClose hget hstage').closeAt s.closeHolder hw hphase rfl
  | stageSettled σ =>
    obtain ⟨stage, stage', hget, hstage', rfl⟩ := onStage_eq_some h
    exact hi.scopeStep hget (fun _ => rfl) hstage'
  | readErrors σ =>
    obtain ⟨stage, stage', hget, hstage', rfl⟩ := onStage_eq_some h
    obtain ⟨-, rfl⟩ := OwnedStage.readErrors_eq_some hstage'
    refine hi.keepsScope hget ⟨.refl _, List.prefix_rfl⟩ fun hσ => ?_
    exact .of_eq (hi.listening σ stage hσ hget) rfl rfl rfl rfl id id
  | stageTimesOut i =>
    simp only [ClosingBridge.closeStep] at h
    split at h
    · rename_i hphase
      obtain ⟨stage, stage', hget, hstage', rfl⟩ := onStage_eq_some h
      exact (hi.scopeStep hget (fun _ => rfl) hstage').closeAt none hw hphase rfl
    · cases h
  | stageDone i =>
    obtain ⟨σ, todo, stage, errors, stage', hphase, hget, -, hstage', rfl⟩ := stageDone_spec h
    exact (hi.scopeStep hget (fun _ => rfl) hstage').afterStage hw hphase rfl
  | finishClose i =>
    obtain ⟨hphase, rfl⟩ := when_eq_some h
    obtain ⟨close, hget, htodo⟩ := todo_of_closePhase hphase rfl
    obtain ⟨-, -, -, finished, hstages, hdone⟩ := hi.walk.walk i close [] hget htodo
    refine hi.congr hw rfl rfl (fun σ hσ _ stage hstage => ?_) fun _ _ _ _ σ hσ => by cases hσ
    -- the Stages that are left have all been closed
    have hmem := hi.snapshot close (List.mem_of_getElem? hget) [] htodo σ hσ
    rw [hstages, List.append_nil] at hmem
    have hne : σ ≠ submitStage := fun h => by
      have := (hi.walk.routed σ hσ).1
      rw [h] at this
      exact absurd this (by decide)
    have hquiet := hi.quiet_of_completed (hdone σ hmem) hne hstage
    exact ⟨hquiet.settled, Or.inl hquiet.is_sealed⟩
  | _ => cases h

/-! ## 5. Steps of the calls -/

theorem uses_finish (call : BridgeCall) (raising : Bool) :
    (call.finish raising).phase.uses = none := by
  cases raising with
  | false => rfl
  | true => rfl

/-- A call goes on, and keeps at most the Stage it has. -/
theorem CallsInv.advance (hi : CallsInv s) (call' : BridgeCall) (hget : s.calls[c]? = some call)
    (hallows : call'.phase.Allows call'.awaitable call'.raising)
    (hadmitted : ∀ σ h, call'.awaitable = .admitted σ h → call.awaitable = .admitted σ h)
    (huses : ∀ σ, call'.phase.uses = some σ → call.phase.uses = some σ)
    (henters : ∀ σ, call'.phase.enters = some σ → call.phase.enters = some σ)
    (hscope : ∀ (σ : Nat) (stage : OwnedStage ε), call'.phase.uses = some σ → σ ≠ carrierStage →
      s.stages[σ]? = some stage → call.ScopeOk stage.scope → call'.ScopeOk stage.scope) :
    CallsInv (s.setCall c call') := by
  have hok := hi.calls call (List.mem_of_getElem? hget)
  refine hi.setCall_same hget ⟨hallows, fun σ hσ => hok.uses σ (huses σ hσ),
    fun σ h hadm => hok.admitted σ h (hadmitted σ h hadm), fun σ stage hσ hcarrier hstage => ?_⟩
    (fun σ hσ => Or.inr (huses σ hσ)) fun σ hσ => Or.inr (henters σ hσ)
  exact hscope σ stage hσ hcarrier hstage (hok.scope σ stage (huses σ hσ) hcarrier hstage)

/-- A call goes on without a Stage. -/
theorem CallsInv.detach (hi : CallsInv s) (hget : s.calls[c]? = some call)
    (hallows : call'.phase.Allows call'.awaitable call'.raising)
    (hadmitted : ∀ σ h, call'.awaitable = .admitted σ h → call.awaitable = .admitted σ h)
    (huses : call'.phase.uses = none) : CallsInv (s.setCall c call') := by
  have hnone : ∀ {σ : Nat}, call'.phase.uses ≠ some σ := by
    intro σ h
    rw [huses] at h
    cases h
  exact hi.advance _ hget hallows hadmitted (fun σ hσ => absurd hσ hnone)
    (fun σ hσ => absurd (uses_of_enters hσ) hnone) fun σ _ hσ => absurd hσ hnone

theorem CallsInv.finish (hi : CallsInv s) (hget : s.calls[c]? = some call) {raising : Bool}
    (h : call.awaitable = .none ∨ call.awaitable.IsAdmitted ∨
      call.awaitable = .closed ∧ raising = true) :
    CallsInv (s.setCall c (call.finish raising)) := by
  refine hi.detach hget ?_ (fun _ _ h => h) (uses_finish call raising)
  cases raising with
  | false =>
    rcases h with h | h | ⟨-, h⟩
    · exact Or.inl h
    · exact Or.inr h
    · cases h
  | true =>
    rcases h with h | h | ⟨h, -⟩
    · exact Or.inl h
    · exact Or.inr (Or.inr h)
    · exact Or.inr (Or.inl h)

/-- The exception branch of a routed call. -/
theorem CallsInv.raiseFromGo (hi : CallsInv s) (hget : s.calls[c]? = some call)
    (huses : call.phase.uses = some σ) (hcarrier : σ ≠ carrierStage)
    (hidle : ∀ stage, s.stages[σ]? = some stage → stage.scope.Idle) :
    CallsInv (s.raiseFromGo c σ call) := by
  rw [ClosingBridge.raiseFromGo, if_neg hcarrier]
  refine hi.advance _ hget (Or.inr ⟨rfl, rfl⟩) (fun _ _ h => by cases h) (fun τ hτ => ?_)
    (fun _ h => by cases h) fun τ stage hτ _ hstage _ _ => ?_
  · cases hτ
    exact huses
  · cases hτ
    exact hidle stage hstage

theorem CallsInv.addCall (hi : CallsInv s) (managed : Bool) :
    CallsInv { s with calls := s.calls ++ [{ managed := managed }] } := by
  refine ⟨hi.walk.aside (.of_eq rfl rfl rfl rfl rfl rfl fun _ h => h), hi.listening, hi.quiet,
    fun call hcall => ?_, fun k l call other σ hk hl hσ hcall hother => ?_,
    fun σ hσ hrouted stage hget => ?_, hi.snapshot⟩
  · rcases List.mem_append.mp hcall with hcall | hcall
    · have hok := hi.calls call hcall
      exact ⟨hok.allows, hok.uses, hok.admitted, hok.scope⟩
    · rw [List.mem_singleton.mp hcall]
      exact ⟨rfl, (fun σ h => by cases h), (fun σ h hadmitted => by cases hadmitted),
        fun σ stage h => by cases h⟩
  · rcases getElem?_append_cases hk with ⟨-, rfl⟩ | hk
    · cases hcall
    · rcases getElem?_append_cases hl with ⟨-, rfl⟩ | hl
      · cases hother
      · exact hi.alone k l call other σ hk hl hσ hcall hother
  · refine (hi.released σ hσ hrouted stage hget).imp_right fun h => h.imp_right ?_
    intro hnobody call hcall
    rcases List.mem_append.mp hcall with hcall | hcall
    · exact hnobody call hcall
    · rw [List.mem_singleton.mp hcall]
      exact fun h => by cases h

/-- A new routed Stage, while the bridge is open. -/
theorem CallsInv.addStage (hi : CallsInv s) (hopen : s.isClosing = false) :
    CallsInv { s with
      stages := s.stages ++ [{}]
      routedStages := s.routedStages ++ [s.stages.length] } := by
  have hold : ∀ {τ : Nat} {other fresh : OwnedStage ε}, s.stages[τ]? = some other →
      (s.stages ++ [fresh])[τ]? = some other := fun hother =>
    (List.getElem?_append_left (List.getElem?_eq_some_iff.mp hother).1).trans hother
  have hw : WalkInv { s with
      stages := s.stages ++ [{}]
      routedStages := s.routedStages ++ [s.stages.length] } := by
    have ha := aside_route s s.calls.length { managed := false }
    rw [route, if_neg (by rw [hopen]; exact Bool.false_ne_true)] at ha
    have hi' := hi.walk.aside ha
    exact ⟨hi'.sealedByClose, hi'.length, hi'.routed, hi'.walk, hi'.stages, hi'.returned, hi'.closed⟩
  refine ⟨hw, fun τ other hτ hother => ?_, fun τ other hτ hother hclosed => ?_,
    fun call hcall => ?_, hi.alone, fun τ hτ hrouted other hother => ?_,
    fun close hmem todo htodo => ?_⟩
  · rcases getElem?_append_cases hother with ⟨-, rfl⟩ | hother
    · exact ⟨.init rfl, (fun h hmem => by cases hmem), rfl⟩
    · exact hi.listening τ other hτ hother
  · rcases getElem?_append_cases hother with ⟨-, rfl⟩ | hother
    · cases hclosed
    · exact hi.quiet τ other hτ hother hclosed
  · have hok := hi.calls call hcall
    refine ⟨hok.allows, fun τ hτ => ?_, fun τ h hadmitted => ?_,
      fun τ other hτ hcarrier hother => ?_⟩
    · refine ⟨(hok.uses τ hτ).1, ?_⟩
      rw [List.length_append]
      exact Nat.lt_add_right 1 (hok.uses τ hτ).2
    · obtain ⟨hne, other, hother, hlt⟩ := hok.admitted τ h hadmitted
      exact ⟨hne, other, hold hother, hlt⟩
    · obtain ⟨before, hbefore⟩ : ∃ before, s.stages[τ]? = some before :=
        ⟨_, List.getElem?_eq_getElem (hok.uses τ hτ).2⟩
      rw [hold hbefore] at hother
      cases hother
      exact hok.scope τ _ hτ hcarrier hbefore
  · rcases getElem?_append_cases hother with ⟨rfl, -⟩ | hother
    · exact absurd (List.mem_append_right _ (List.mem_singleton_self _)) hrouted
    · exact hi.released τ hτ (fun h => hrouted (List.mem_append_left _ h)) other hother
  · obtain ⟨i, hget⟩ := List.mem_iff_getElem?.mp hmem
    have hclosing := (hi.walk.walk i close todo hget htodo).2.2.1
    rw [hopen] at hclosing
    cases hclosing

theorem CallsInv.route (hi : CallsInv s) (hget : s.calls[c]? = some call)
    (hphase : call.phase = .resolving) : CallsInv (s.route c call) := by
  have hok := hi.calls call (List.mem_of_getElem? hget)
  have hpending : call.awaitable = .pending := by
    have := hok.allows
    rwa [hphase] at this
  unfold ClosingBridge.route
  split
  · refine hi.detach hget (Or.inr (Or.inl rfl)) (fun _ _ h => by cases h) rfl
  · rename_i hclosing
    have hopen : s.isClosing = false := by simpa using hclosing
    refine (hi.addStage hopen).setCall ⟨hpending, fun σ hσ => ?_, fun σ h hadmitted => ?_,
      fun σ stage hσ _ hstage => ?_⟩ (fun σ hσ _ k other hother huses => ?_) fun σ hσ => ?_
    · cases hσ
      refine ⟨fun h => ?_, ?_⟩
      · have := hi.walk.length
        rw [h] at this
        exact absurd this (by decide)
      · rw [List.length_append]
        exact Nat.lt_succ_self _
    · rw [show call.awaitable = .admitted σ h from hadmitted] at hpending
      cases hpending
    · cases hσ
      rw [List.getElem?_concat_length] at hstage
      cases hstage
      exact ⟨rfl, rfl⟩
    · -- the Stage is new: no call can be at work with it
      cases hσ
      have hlt := ((hi.calls other (List.mem_of_getElem? hother)).uses _ huses).2
      exact absurd hlt (Nat.lt_irrefl _)
    · cases hσ
      exact Or.inr (Or.inl (List.mem_append_right _ (List.mem_singleton_self _)))

/-- `go` is accepted by a Stage that has not been waited for. -/
theorem CallsInv.go (hi : CallsInv s) (hget : s.calls[c]? = some call)
    (hphase : call.phase = .going σ) (hstage : s.stages[σ]? = some stage) {owned : Bool}
    (hallowed : stage.scope.callAllowed owned = true) (hwaited : stage.scope.closed = false)
    (hstep : stage.scopeStep (.go owned 0) = some stage') :
    CallsInv ((s.setCall c { call with
      phase := .posting σ stage.scope.handles.length
      awaitable := .admitted σ stage.scope.handles.length }).setStage σ stage') := by
  have hok := hi.calls call (List.mem_of_getElem? hget)
  have huses : call.phase.uses = some σ := by rw [hphase]; rfl
  have hpending : call.awaitable = .pending := by
    have := hok.allows
    rwa [hphase] at this
  obtain ⟨hne, hlt⟩ := hok.uses σ huses
  have hfresh : σ ≠ carrierStage → stage.scope.Fresh := fun hcarrier => by
    have := hok.scope σ stage huses hcarrier hstage
    rwa [BridgeCall.ScopeOk, hphase] at this
  obtain ⟨scope, hscope, rfl⟩ := OwnedStage.scopeStep_eq_some hstep
  have hl := (hi.listening σ stage hne hstage).go hscope
  have hk := ScopeState.keepsClose_of_step rfl hscope
  obtain ⟨hc, ⟨-, rfl⟩ | ⟨hrefused, -⟩⟩ := ScopeState.call_eq_some hscope
  · have hlength : (stage.scope.go 0).handles.length = stage.scope.handles.length + 1 :=
      List.length_append
    -- the call lets go of its Stage, the Stage accepts, the call takes it again
    have hi₁ : CallsInv (s.setCall c { call with phase := .resolving }) :=
      hi.detach hget hpending (fun _ _ h => h) rfl
    have hothers : ∀ (k : Nat) (other : BridgeCall), σ ≠ carrierStage →
        (s.setCall c { call with phase := .resolving }).calls[k]? = some other →
        other.phase.uses ≠ some σ := by
      intro k other hcarrier hother hsame
      rcases getElem?_set_cases hget hother with ⟨-, rfl⟩ | ⟨hkc, hother⟩
      · cases hsame
      · exact hkc (hi.alone k c other call σ hother hget hcarrier hsame huses)
    have hi₂ : CallsInv ((s.setCall c { call with phase := .resolving }).setStage σ
        { stage with scope := stage.scope.go 0 }) := by
      refine hi₁.setStage hstage (.of_scopeStep hstep) (fun _ => hl) (fun _ hclosed => ?_)
        (fun _ => ?_) (fun _ hcarrier other hother hsame => ?_) fun htwo hrouted => ?_
      · rw [ScopeState.closed_congr hk.phase hk.completed, hwaited] at hclosed
        cases hclosed
      · rw [hlength]
        exact Nat.le_succ _
      · obtain ⟨k, hk⟩ := List.mem_iff_getElem?.mp hother
        exact absurd hsame (hothers k other hcarrier hk)
      · -- a Stage that has been given up is sealed, and has no work to submit from
        exfalso
        have hcarrier : σ ≠ carrierStage := fun h => by
          rw [h] at htwo
          exact absurd htwo (by decide)
        rcases (hi.released σ htwo hrouted stage hstage).2 with hsealed | hnobody
        · rw [ScopeState.callAllowed, hsealed, (hfresh hcarrier).not_owned hc] at hallowed
          cases hallowed
        · exact hnobody call (List.mem_of_getElem? hget) (by rw [hphase]; rfl)
    have hset : (((s.setCall c { call with phase := .resolving }).setStage σ
        { stage with scope := stage.scope.go 0 }).setCall c { call with
          phase := .posting σ stage.scope.handles.length
          awaitable := .admitted σ stage.scope.handles.length }) =
        (s.setCall c { call with
          phase := .posting σ stage.scope.handles.length
          awaitable := .admitted σ stage.scope.handles.length }).setStage σ
            { stage with scope := stage.scope.go 0 } := by
      simp only [ClosingBridge.setCall, ClosingBridge.setStage, List.set_set]
    rw [← hset]
    refine hi₂.setCall ⟨rfl, fun τ hτ => ?_, fun τ h hadmitted => ?_,
      fun τ other hτ hcarrier hother => ?_⟩ (fun τ hτ hcarrier k other hother hsame => ?_)
      fun τ hτ => by cases hτ
    · cases hτ
      refine ⟨hne, ?_⟩
      simpa only [ClosingBridge.setStage, ClosingBridge.setCall, List.length_set] using hlt
    · cases hadmitted
      refine ⟨hne, _, getElem?_set_self' hstage, ?_⟩
      rw [hlength]
      exact Nat.lt_succ_self _
    · cases hτ
      have hsame : some { stage with scope := stage.scope.go 0 } = some other :=
        (getElem?_set_self' hstage).symm.trans hother
      cases hsame
      have hzero := (hfresh hcarrier).1
      exact ⟨hzero, by rw [hlength, hzero]⟩
    · cases hτ
      exact absurd hsame (hothers k other hcarrier hother)
  · rw [hallowed] at hrefused
    cases hrefused

theorem failedSubmission_of_submitFails {scope scope' : ScopeState}
    (hsub : ScopeState.Submissions scope) (hlength : scope.handles.length = 1)
    (hstep : scope.step (.submitFails 0) = some scope') : scope'.FailedSubmission 0 := by
  obtain ⟨⟨hlt, hfresh⟩, rfl⟩ := ScopeState.when_eq_some hstep
  have hzero := (hsub.fresh_idle 0 (by simpa using hfresh)).1
  have hone : (scope.retainWork 0 true).pendingWork 0 = 1 := by
    rw [ScopeState.pendingWork_retainWork, if_pos ⟨rfl, hlt⟩, hzero]
  have hkept : (scope.retainWork 0 true).handles.length = 1 :=
    (ScopeState.length_setHandle scope 0 _).trans hlength
  refine ⟨rfl, ((scope.retainWork 0 true).releaseWork_fields 0 true).1.trans hkept, ?_, Or.inl ?_⟩
  · rw [ScopeState.pendingWork_releaseWork, if_pos ⟨rfl, by omega⟩, hone]
  · unfold ScopeState.releaseWork
    dsimp only
    rw [if_pos hone]
    exact List.mem_append_right _ (List.mem_singleton_self 0)

/-- The result of a call. -/
theorem CallsInv.afterResult (hi : CallsInv s) (hget : s.calls[c]? = some call) {h : Nat}
    (hphase : call.phase = .running σ h) (raises : Bool) :
    CallsInv (s.afterResult c σ h call raises) := by
  have hok := hi.calls call (List.mem_of_getElem? hget)
  have hadmitted : call.awaitable.IsAdmitted := by
    have := hok.allows
    rw [hphase] at this
    exact ⟨σ, h, this⟩
  unfold ClosingBridge.afterResult
  split
  · split
    · exact hi.detach hget hadmitted (fun _ _ h => h) rfl
    · exact hi.finish hget (Or.inr (Or.inl hadmitted))
  · refine hi.advance _ hget hadmitted (fun _ _ h => h) (fun τ hτ => ?_) (fun _ h => by cases h)
      fun _ _ _ _ _ _ => trivial
    rw [hphase]
    exact hτ

/-- The `finally` clause. -/
theorem CallsInv.leave (hi : CallsInv s) (hget : s.calls[c]? = some call)
    (hphase : call.phase = .leaving σ) (hstage : s.stages[σ]? = some stage) :
    CallsInv (s.leave c σ call stage) := by
  have hok := hi.calls call (List.mem_of_getElem? hget)
  have huses : call.phase.uses = some σ := by rw [hphase]; rfl
  have hfinish : CallsInv (s.setCall c (call.finish call.raising)) := by
    have := hok.allows
    rw [hphase] at this
    exact hi.finish hget (Or.inr this)
  unfold ClosingBridge.leave
  split
  · rename_i hgiven
    have hw : WalkInv { s.setCall c (call.finish call.raising) with
        routedStages := s.routedStages.erase σ } :=
      hfinish.walk.aside (.of_eq rfl rfl rfl rfl rfl rfl fun _ h => List.mem_of_mem_erase h)
    refine hfinish.congr hw rfl rfl (fun τ hτ hnot => ?_) fun close hmem todo htodo τ hτ => ?_
    · obtain rfl : τ = σ := by
        by_contra hne
        exact hnot ((List.mem_erase_of_ne hne).mpr hτ)
      have htwo := (hi.walk.routed τ hτ).1
      have hcarrier : τ ≠ carrierStage := fun h => by
        rw [h] at htwo
        exact absurd htwo (by decide)
      intro other hother
      rw [show (s.setCall c (call.finish call.raising)).stages = s.stages from rfl, hstage] at hother
      cases hother
      refine ⟨?_, Or.inr fun other hother hentering => ?_⟩
      · rcases hgiven with hmanaged | hinactive
        · have := hok.scope τ stage huses hcarrier hstage
          rw [BridgeCall.ScopeOk, hphase] at this
          exact this hmanaged
        · refine ScopeState.idle_of_inactive (hi.listening τ stage (hok.uses τ huses).1 hstage) ?_
          rw [hinactive]
          exact Bool.false_ne_true
      · -- only this call was at work with the Stage
        obtain ⟨k, hk⟩ := List.mem_iff_getElem?.mp hother
        rcases getElem?_set_cases hget hk with ⟨-, rfl⟩ | ⟨hne, hk⟩
        · have := uses_of_enters hentering
          rw [uses_finish] at this
          cases this
        · exact hne (hi.alone k c other call τ hk hget hcarrier (uses_of_enters hentering) huses)
    · exact hi.snapshot close hmem todo htodo τ (List.mem_of_mem_erase hτ)
  · exact hfinish

/-- **Step lemma of a call.** -/
theorem CallsInv.callStep (hi : CallsInv s) (hget : s.calls[c]? = some call)
    (hcaller : caller e = some c) (hdrops : ¬ s.Drops e) (hreopens : ¬ s.Reopens e)
    (h : s.callStep c call e = some s') : CallsInv s' := by
  have hok := hi.calls call (List.mem_of_getElem? hget)
  have hallows := hok.allows
  cases e with
  | ensureOpen _ =>
    obtain ⟨hphase, rfl⟩ := when_eq_some h
    rw [hphase] at hallows
    split
    · exact hi.finish hget (Or.inl hallows)
    · exact hi.detach hget hallows (fun _ _ h => h) rfl
  | callFunction _ awaitable raises =>
    obtain ⟨hphase, rfl⟩ := when_eq_some h
    rw [hphase] at hallows
    split
    · exact hi.detach hget rfl (fun _ _ h => by cases h) rfl
    · exact hi.finish hget (Or.inl hallows)
  | resolve _ routed =>
    obtain ⟨hphase, rfl⟩ := when_eq_some h
    rw [hphase] at hallows
    split
    · exact hi.route hget hphase
    · refine hi.setCall_same hget ⟨hallows, fun σ hσ => ?_, hok.admitted, fun σ _ hσ hcarrier => ?_⟩
        (fun σ hσ => Or.inl (by cases hσ; rfl)) fun σ hσ => Or.inl (by cases hσ; rfl)
      · cases hσ
        exact ⟨by decide, hi.walk.length⟩
      · cases hσ
        exact absurd rfl hcarrier
  | enterScope k =>
    cases hcaller
    simp only [ClosingBridge.callStep] at h
    split at h
    · rename_i σ hphase
      obtain ⟨stage, hstage, rfl⟩ := Option.map_eq_some_iff.mp h
      rw [hphase] at hallows
      split
      · rename_i hsealed
        exact absurd ⟨call, σ, stage, hget, hphase, hstage, hsealed⟩ hdrops
      · refine hi.advance _ hget hallows (fun _ _ h => h) (fun τ hτ => ?_) (fun τ hτ => ?_)
          fun τ other _ _ _ hscope => ?_
        · rw [hphase]
          exact hτ
        · rw [hphase]
          exact hτ
        · rwa [BridgeCall.ScopeOk, hphase] at hscope
    · cases h
  | go k owned =>
    cases hcaller
    simp only [ClosingBridge.callStep] at h
    split at h
    · rename_i σ hphase
      split at h
      · rename_i stage hstage
        split at h
        · rename_i hallowed
          obtain ⟨stage', hstage', rfl⟩ := Option.map_eq_some_iff.mp h
          refine hi.go hget hphase hstage hallowed ?_ hstage'
          by_contra hclosed
          exact hreopens ⟨call, σ, stage, hget, hphase, hstage, hallowed, by simpa using hclosed⟩
        · rename_i hrefused
          obtain ⟨-, rfl⟩ := when_eq_some h
          have huses : call.phase.uses = some σ := by rw [hphase]; rfl
          have hcarrier : σ ≠ carrierStage := by
            rintro rfl
            exact hdrops ⟨call, stage, hget, hphase, hstage, by simpa using hrefused⟩
          refine hi.raiseFromGo hget huses hcarrier fun other hother => ?_
          have hfresh := hok.scope σ other huses hcarrier hother
          rw [BridgeCall.ScopeOk, hphase] at hfresh
          exact hfresh.idle
      · cases h
    · cases h
  | goRaises k =>
    cases hcaller
    simp only [ClosingBridge.callStep] at h
    split at h
    · rename_i σ hphase
      cases h
      have huses : call.phase.uses = some σ := by rw [hphase]; rfl
      have hcarrier : σ ≠ carrierStage := by
        rintro rfl
        exact hdrops ⟨call, hget, Or.inl hphase⟩
      refine hi.raiseFromGo hget huses hcarrier fun other hother => ?_
      have hfresh := hok.scope σ other huses hcarrier hother
      rw [BridgeCall.ScopeOk, hphase] at hfresh
      exact hfresh.idle
    · rename_i σ h' hphase
      split at h
      · rename_i stage hstage
        obtain ⟨hnotified, rfl⟩ := when_eq_some h
        have huses : call.phase.uses = some σ := by rw [hphase]; rfl
        have hcarrier : σ ≠ carrierStage := by
          rintro rfl
          exact hdrops ⟨call, hget, Or.inr ⟨h', hphase⟩⟩
        refine hi.raiseFromGo hget huses hcarrier fun other hother => ?_
        have hfailed := hok.scope σ other huses hcarrier hother
        rw [BridgeCall.ScopeOk, hphase] at hfailed
        rw [hstage] at hother
        cases hother
        exact hfailed.idle hnotified
      · cases h
    · cases h
  | submitted _ =>
    simp only [ClosingBridge.callStep] at h
    split at h
    · rename_i σ h' hphase
      obtain ⟨stage, stage', hstage, hstage', rfl⟩ := onStage_eq_some h
      rw [hphase] at hallows
      have hi' := hi.scopeStep hstage (fun _ => rfl) hstage'
      refine hi'.advance { call with phase := .running σ h' } hget hallows
        (fun _ _ h => h) (fun τ hτ => ?_) (fun _ h => by cases h) fun _ _ _ _ _ _ => trivial
      rw [hphase]
      exact hτ
    · cases h
  | submissionFails _ =>
    simp only [ClosingBridge.callStep] at h
    split at h
    · rename_i σ h' hphase
      obtain ⟨stage, stage', hstage, hstage', rfl⟩ := onStage_eq_some h
      have huses : call.phase.uses = some σ := by rw [hphase]; rfl
      have hi' := hi.scopeStep hstage (fun _ => rfl) hstage'
      refine hi'.advance { call with phase := .unposted σ h', awaitable := .pending } hget rfl
        (fun _ _ h => by cases h) (fun τ hτ => ?_) (fun _ h => by cases h)
        fun τ other hτ hcarrier hother _ => ?_
      · rw [hphase]
        exact hτ
      · cases hτ
        have hposting := hok.scope σ stage huses hcarrier hstage
        rw [BridgeCall.ScopeOk, hphase] at hposting
        obtain ⟨rfl, hlength⟩ := hposting
        have hsame := (getElem?_set_self' hstage).symm.trans hother
        cases hsame
        obtain ⟨scope, hscope, rfl⟩ := OwnedStage.scopeStep_eq_some hstage'
        exact failedSubmission_of_submitFails
          (hi.listening σ stage (hok.uses σ huses).1 hstage).submissions hlength hscope
    · cases h
  | startFails _ => exact absurd trivial hdrops
  | result _ raises =>
    simp only [ClosingBridge.callStep] at h
    split at h
    · rename_i hphase
      split at h
      · obtain ⟨-, rfl⟩ := when_eq_some h
        exact hi.afterResult hget hphase raises
      · cases h
    · cases h
  | handleSettled _ raises =>
    simp only [ClosingBridge.callStep] at h
    split at h
    · rename_i hphase
      rw [hphase] at hallows
      split at h
      · obtain ⟨-, rfl⟩ := when_eq_some h
        exact hi.finish hget (Or.inr (Or.inl hallows))
      · cases h
    · cases h
  | sealOwn _ =>
    simp only [ClosingBridge.callStep] at h
    split at h
    · rename_i σ hphase
      obtain ⟨stage, stage', hstage, hstage', rfl⟩ := onStage_eq_some h
      rw [hphase] at hallows
      have hi' := hi.scopeStep hstage (fun _ => by simp [ScopeState.keepsScope]) hstage'
      refine hi'.advance
        { call with phase := if call.managed then .closingOwn σ else .leaving σ } hget ?_
        (fun _ _ h => h) (fun τ hτ => ?_) (fun τ hτ => ?_) fun τ other _ _ _ _ => ?_
      · dsimp only
        split
        · exact Or.inl hallows
        · exact Or.inl hallows
      · rw [hphase]
        dsimp only at hτ
        split at hτ
        · exact hτ
        · exact hτ
      · dsimp only at hτ
        split at hτ
        · cases hτ
        · cases hτ
      · cases call.managed with
        | true => trivial
        | false => exact fun h => absurd h Bool.false_ne_true
    · cases h
  | startOwnClose _ =>
    simp only [ClosingBridge.callStep] at h
    split at h
    · rename_i σ hphase
      rw [hphase] at hallows
      have huses : call.phase.uses = some σ := by rw [hphase]; rfl
      split at h
      · rename_i stage hstage
        split at h
        · rename_i hcompleted
          obtain ⟨-, rfl⟩ := when_eq_some h
          refine hi.advance _ hget (hallows.imp_right fun h => ⟨h.1, by rw [h.2]; rfl⟩)
            (fun _ _ h => h) (fun τ hτ => ?_) (fun _ h => by cases h)
            fun τ other hτ _ hother _ _ => ?_
          · rw [hphase]
            exact hτ
          · cases hτ
            rw [hstage] at hother
            cases hother
            exact (hi.quiet σ stage (hok.uses σ huses).1 hstage
              (by rw [ScopeState.closed, hcompleted, Bool.true_or])).settled
        · obtain ⟨stage', hstage', rfl⟩ := Option.map_eq_some_iff.mp h
          have hi' := hi.startClose hstage hstage'
          refine hi'.advance { call with phase := .inOwnClose σ } hget hallows
            (fun _ _ h => h) (fun τ hτ => ?_) (fun _ h => by cases h) fun _ _ _ _ _ _ => trivial
          rw [hphase]
          exact hτ
      · cases h
    · cases h
  | ownCloseDone _ =>
    simp only [ClosingBridge.callStep] at h
    split at h
    · rename_i σ hphase
      rw [hphase] at hallows
      have huses : call.phase.uses = some σ := by rw [hphase]; rfl
      split at h
      · rename_i stage hstage
        split at h
        · rename_i errors hread
          obtain ⟨before, stage', hbefore, hstage', rfl⟩ := onStage_eq_some h
          have hi' := hi.scopeStep hbefore (fun _ => rfl) hstage'
          refine hi'.advance { call with
            phase := .leaving σ, raising := call.raising || !errors.isEmpty } hget
            (hallows.imp_right fun h => ⟨h.1, by rw [h.2]; rfl⟩) (fun _ _ h => h)
            (fun τ hτ => ?_) (fun _ h => by cases h) fun τ other hτ _ hother _ _ => ?_
          · rw [hphase]
            exact hτ
          · cases hτ
            have hcompleted : (s.setStage σ stage').Completed σ :=
              hi'.walk.completed (getElem?_set_self' hbefore) (scopeStep_closeDone hstage')
            exact (hi'.quiet_of_completed hcompleted (hok.uses σ huses).1 hother).settled
        · cases h
      · cases h
    · cases h
  | leave _ =>
    simp only [ClosingBridge.callStep] at h
    split at h
    · rename_i hphase
      obtain ⟨stage, hstage, rfl⟩ := Option.map_eq_some_iff.mp h
      exact hi.leave hget hphase hstage
    · cases h
  | _ => cases h

theorem CallsInv.collect (hi : CallsInv s) (hstage : s.stages[σ]? = some stage)
    (hunused : s.isUnused σ stage = true) :
    CallsInv { s with routedStages := s.routedStages.erase σ } := by
  simp only [isUnused, Bool.and_eq_true, Bool.not_eq_true', List.all_eq_true,
    decide_eq_true_eq] at hunused
  obtain ⟨⟨hinactive, -⟩, hnobody⟩ := hunused
  refine hi.congr (hi.walk.aside (.of_eq rfl rfl rfl rfl rfl rfl fun _ h =>
    List.mem_of_mem_erase h)) rfl rfl (fun τ hτ hnot => ?_) fun close hmem todo htodo τ hτ => ?_
  · obtain rfl : τ = σ := by
      by_contra hne
      exact hnot ((List.mem_erase_of_ne hne).mpr hτ)
    have htwo := (hi.walk.routed τ hτ).1
    have hsubmit : τ ≠ submitStage := fun h => by
      rw [h] at htwo
      exact absurd htwo (by decide)
    intro other hother
    rw [hstage] at hother
    cases hother
    refine ⟨ScopeState.idle_of_inactive (hi.listening τ stage hsubmit hstage) ?_, Or.inr ?_⟩
    · rw [hinactive]
      exact Bool.false_ne_true
    · exact fun call hcall hentering => hnobody call hcall (uses_of_enters hentering)
  · exact hi.snapshot close hmem todo htodo τ (List.mem_of_mem_erase hτ)

theorem step_of_caller (hcaller : caller e = some c) (h : s.step e = some s') :
    ∃ call, s.calls[c]? = some call ∧ s.callStep c call e = some s' := by
  cases e with
  | work _ _ _ | callAsSync _ | collect _ => cases hcaller
  | callClose | enterClose _ _ | guardRefuses _ | startStage _ | stageSettled _ => cases hcaller
  | readErrors _ | stageTimesOut _ | stageDone _ | finishClose _ => cases hcaller
  | _ =>
    cases hcaller
    simp only [ClosingBridge.step, caller] at h
    split at h
    · rename_i call hget
      exact ⟨call, hget, h⟩
    · cases h

/-- **Step lemma.** -/
theorem CallsInv.step (hi : CallsInv s) (hdrops : ¬ s.Drops e) (hreopens : ¬ s.Reopens e)
    (h : s.step e = some s') : CallsInv s' := by
  cases hcaller : caller e with
  | some c =>
    obtain ⟨call, hget, hstep⟩ := step_of_caller hcaller h
    exact hi.callStep hget hcaller hdrops hreopens hstep
  | none =>
    cases e with
    | work σ event errors => exact hi.work hreopens h
    | callAsSync managed =>
      cases h
      exact hi.addCall managed
    | collect σ =>
      simp only [ClosingBridge.step] at h
      split at h
      · rename_i stage hstage
        obtain ⟨hunused, rfl⟩ := when_eq_some h
        exact hi.collect hstage hunused
      · cases h
    | callClose => exact hi.closeStep (e := .callClose) h
    | enterClose i order => exact hi.closeStep (e := .enterClose i order) h
    | guardRefuses i => exact hi.closeStep (e := .guardRefuses i) h
    | startStage i => exact hi.closeStep (e := .startStage i) h
    | stageSettled σ => exact hi.closeStep (e := .stageSettled σ) h
    | readErrors σ => exact hi.closeStep (e := .readErrors σ) h
    | stageTimesOut i => exact hi.closeStep (e := .stageTimesOut i) h
    | stageDone i => exact hi.closeStep (e := .stageDone i) h
    | finishClose i => exact hi.closeStep (e := .finishClose i) h
    | _ => cases hcaller

theorem reachUnder_callsInv {owns : Bool}
    (h : (bridgeStages ε owns).ReachUnder (fun s e => ¬ s.Drops e ∧ ¬ s.Reopens e) s) :
    CallsInv s := by
  refine h.invariant (fun t ht => ?_) fun _ _ _ hi hok hstep => hi.step hok.1 hok.2 hstep
  cases ht
  exact callsInv_init owns

/-! ## 6. Neither dropped nor running on -/

theorem CallsInv.kept (hi : CallsInv s) : Kept s where
  not_dropped call hcall hdropped := by
    have hallows := (hi.calls call hcall).allows
    rw [hdropped] at hallows
    cases hphase : call.phase with
    | settling _ | sealing _ =>
      rw [hphase] at hallows
      obtain ⟨_, _, h⟩ := hallows
      cases h
    | closingOwn _ | inOwnClose _ | leaving _ =>
      rw [hphase] at hallows
      rcases hallows with ⟨_, _, h⟩ | ⟨h, -⟩
      · cases h
      · cases h
    | returned =>
      rw [hphase] at hallows
      rcases hallows with h | ⟨_, _, h⟩
      · cases h
      · cases h
    | raised =>
      rw [hphase] at hallows
      rcases hallows with h | h | ⟨_, _, h⟩
      · cases h
      · cases h
      · cases h
    | _ =>
      rw [hphase] at hallows
      cases hallows
  ended call hcall hended := by
    have hallows := (hi.calls call hcall).allows
    rcases hended with hphase | hphase
    · rw [hphase] at hallows
      rcases hallows with h | ⟨_, _, h⟩
      · rw [h]
        exact ⟨(fun h => by cases h), fun h => by cases h⟩
      · rw [h]
        exact ⟨(fun h => by cases h), fun h => by cases h⟩
    · refine ⟨fun hpending => ?_, fun _ => hphase⟩
      rw [hphase, hpending] at hallows
      rcases hallows with h | h | ⟨_, _, h⟩
      · cases h
      · cases h
      · cases h
  admitted call hcall σ h hadmitted := by
    obtain ⟨hσ, stage, hget, hlt⟩ := (hi.calls call hcall).admitted σ h hadmitted
    refine ⟨hσ, stage, hget, hlt, fun close hmem hreturned => ?_⟩
    have hclosed := (hi.walk.returned close hmem hreturned).1
    obtain ⟨-, hrouted, hfixed⟩ := hi.walk.closed hclosed
    by_cases hcarrier : σ = carrierStage
    · have hcompleted := hfixed σ (by
        rw [hcarrier, fixedStages]
        split
        · exact List.mem_cons_self
        · exact List.mem_cons_self)
      exact (hi.quiet_of_completed hcompleted hσ hget).settled h hlt
    · have htwo : 2 ≤ σ := by
        have h₀ : σ ≠ 0 := hσ
        have h₁ : σ ≠ 1 := hcarrier
        omega
      exact (hi.released σ htwo (by rw [hrouted]; exact List.not_mem_nil) stage hget).1 h hlt

/-- A call whose awaitable nobody has. -/
theorem not_kept_of_dropped (hget : s.calls[c]? = some call)
    (hdropped : call'.awaitable = .dropped) {u : ClosingBridge ε}
    (hcalls : u.calls = s.calls.set c call') : ¬ Kept u := by
  intro hkept
  refine hkept.not_dropped call' ?_ hdropped
  rw [hcalls]
  exact List.mem_of_getElem? (getElem?_set_self' hget)

theorem not_kept_of_drops (he : s.Drops e) (h : s.step e = some s') : ¬ s'.Kept := by
  cases e with
  | enterScope c =>
    obtain ⟨call, σ, stage, hget, hphase, hstage, hsealed⟩ := he
    obtain ⟨other, hother, hstep⟩ := step_of_caller rfl h
    rw [hget] at hother
    cases hother
    simp only [ClosingBridge.callStep, hphase, hstage, Option.map_some, hsealed, if_true] at hstep
    cases hstep
    exact not_kept_of_dropped hget rfl rfl
  | go c owned =>
    obtain ⟨call, stage, hget, hphase, hstage, hrefused⟩ := he
    obtain ⟨other, hother, hstep⟩ := step_of_caller rfl h
    rw [hget] at hother
    cases hother
    simp only [ClosingBridge.callStep, hphase, hstage, hrefused] at hstep
    obtain ⟨-, rfl⟩ := when_eq_some hstep
    exact not_kept_of_dropped hget rfl rfl
  | goRaises c =>
    obtain ⟨call, hget, hgoing⟩ := he
    obtain ⟨other, hother, hstep⟩ := step_of_caller rfl h
    rw [hget] at hother
    cases hother
    rcases hgoing with hphase | ⟨h', hphase⟩
    · simp only [ClosingBridge.callStep, hphase] at hstep
      cases hstep
      exact not_kept_of_dropped hget rfl rfl
    · simp only [ClosingBridge.callStep, hphase] at hstep
      split at hstep
      · obtain ⟨-, rfl⟩ := when_eq_some hstep
        exact not_kept_of_dropped hget rfl rfl
      · cases hstep
  | startFails c =>
    obtain ⟨call, hget, hstep⟩ := step_of_caller rfl h
    simp only [ClosingBridge.callStep] at hstep
    split at hstep
    · obtain ⟨-, stage', -, -, rfl⟩ := onStage_eq_some hstep
      exact not_kept_of_dropped hget rfl rfl
    · cases hstep
  | _ => cases he

/-- **Neither dropped nor running on.**  As long as no step drops an awaitable and no context that
    has outlived its work submits again, every awaitable is in the hands of a Stage, for which every
    normal close has waited, or its call raises and has closed it; and every step that drops an
    awaitable breaks this. -/
theorem awaitables_kept_iff (ownsSubmitStage : Bool) (s : ClosingBridge ε) :
    ((bridgeStages ε ownsSubmitStage).ReachUnder (fun s e => ¬ s.Drops e ∧ ¬ s.Reopens e) s →
      s.Kept) ∧
    ∀ e s', (bridgeStages ε ownsSubmitStage).step s e = some s' → s.Drops e → ¬ s'.Kept :=
  ⟨fun h => (reachUnder_callsInv h).kept, fun _ _ hstep he => not_kept_of_drops he hstep⟩

/-- A call has passed `_ensure_open` and is in its function when a close closes the bridge. -/
def closedUnderCall : List (AdapterEvent Nat) :=
  [.callAsSync false, .ensureOpen 0, .callClose, .enterClose 0 [], .startStage 0,
    .stageSettled carrierStage, .readErrors carrierStage, .stageDone 0, .startStage 0,
    .stageSettled submitStage, .readErrors submitStage, .stageDone 0, .finishClose 0,
    .callFunction 0 true false, .resolve 0 false, .go 0 false]

/-- The call has raised, and its awaitable is neither run nor closed. -/
theorem closed_carrier_drops_awaitable :
    ¬ ∀ s, (bridgeStages Nat true).Reachable s → s.Kept := by
  intro hall
  have hend : ((bridgeStages Nat true).run { ownsSubmitStage := true } closedUnderCall).any
      (fun s => decide (s.calls[0]? = some ⟨false, .raised, .dropped, true⟩)) = true := by
    decide
  obtain ⟨s, hrun, hs⟩ := (Option.any_eq_true _ _).mp hend
  have hkept := hall s (System.reachable_of_run closedUnderCall rfl hrun)
  exact hkept.not_dropped _ (List.mem_of_getElem? (of_decide_eq_true hs)) rfl

end ClosingBridge

end AgentlyStage
