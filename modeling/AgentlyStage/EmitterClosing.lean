import AgentlyStage.ScopeClosing

/-!
# Closing an event emitter

`EventEmitter.close` sets `_closed` under the registry lock, leaves the lock and then closes the
Stage of the emitter, on its own thread or (`async_close`) on another one.  A caller that finds
the flag set returns at once.

The Stage is a scope.  An `emit` keeps the registry lock while it submits its listeners with `go`;
apart from that the scope makes the steps of the listeners' work and of one `Stage.close` after
another.
-/

namespace AgentlyStage

open Transition

/-! ## 1. The scope of the listeners -/

namespace ScopeState

variable {s s' : ScopeState} {h k : Nat} {e : ScopeEvent}

/-- The steps of work that is going on: the submission of a listener, its body, its callbacks and
    its descendants, to the end of the quiescence notification. -/
def listenerWork (s : ScopeState) : ScopeEvent → Bool
  | .submit _ | .submitFails _ | .release _ _ | .completeBody _ | .drainStep _ | .notify _ |
    .executorCall _ => true
  | .retain h _ => decide (0 < s.pendingWork h)
  | _ => false

/-- The scope is sealed and everything that it has admitted has settled. -/
structure Quiet (s : ScopeState) : Prop where
  is_sealed : s.isSealed = true
  settled : ∀ h, h < s.handles.length → s.pendingWork h = 0 ∧ h ∉ s.activeHandles

/-- What holds of a scope whose settled handles are not reopened. -/
structure Listening (s : ScopeState) : Prop where
  reached : scopeSystem.ReachUnder (fun s e => s.losesTrack e = false) s
  notified : ∀ h ∈ s.notifications, s.pendingWork h = 0
  unregistered : s.registering = none

theorem Listening.member (hl : Listening s) (hp : 0 < s.pendingWork h) : h ∈ s.activeHandles := by
  rcases (reachUnder_tracked hl.reached).pending_member h hp with hmem | hreg
  · exact hmem
  · rw [hl.unregistered] at hreg
    cases hreg

theorem Listening.reaches (hl : Listening s) (hloses : s.losesTrack e = false)
    (hstep : s.step e = some s') : scopeSystem.ReachUnder (fun s e => s.losesTrack e = false) s' :=
  .step hl.reached hloses hstep

theorem Listening.submissions (hl : Listening s) : Submissions s := reachable_submissions hl.reached

theorem pendingWork_releaseWork (s : ScopeState) (h k : Nat) (runner : Bool) :
    (s.releaseWork h runner).pendingWork k =
      if k = h ∧ h < s.handles.length then s.pendingWork h - 1 else s.pendingWork k := by
  unfold pendingWork
  rw [handle_releaseWork]
  split <;> rfl

theorem mem_notifications_releaseWork {runner : Bool}
    (hk : k ∈ (s.releaseWork h runner).notifications) :
    k ∈ s.notifications ∨ k = h ∧ s.pendingWork h = 1 := by
  unfold releaseWork at hk
  dsimp only at hk
  split at hk
  · rename_i hone
    exact (List.mem_append.mp hk).imp_right fun hmem => ⟨List.mem_singleton.mp hmem, hone⟩
  · exact Or.inl hk

/-- A released unit of a handle that has one: the handle is notified when it has no more. -/
theorem notified_releaseWork {runner : Bool} (hn : ∀ k ∈ s.notifications, s.pendingWork k = 0)
    (hp : 0 < s.pendingWork h) :
    ∀ k ∈ (s.releaseWork h runner).notifications, (s.releaseWork h runner).pendingWork k = 0 := by
  intro k hk
  rw [pendingWork_releaseWork, if_congr (and_iff_left (lt_of_pendingWork hp)) rfl rfl]
  rcases mem_notifications_releaseWork hk with hk | ⟨rfl, hone⟩
  · have hzero := hn k hk
    rw [if_neg]
    · exact hzero
    · rintro rfl
      omega
  · rw [if_pos rfl, hone]

/-- A unit is retained for a handle that is not in a notification. -/
theorem notified_retainWork {runner : Bool} (hn : ∀ k ∈ s.notifications, s.pendingWork k = 0)
    (hh : h ∉ s.notifications) :
    ∀ k ∈ (s.retainWork h runner).notifications, (s.retainWork h runner).pendingWork k = 0 := by
  intro k hk
  rw [pendingWork_retainWork, if_neg]
  · exact hn k hk
  · rintro ⟨rfl, -⟩
    exact hh hk

theorem Listening.fresh (hl : Listening s) (hfresh : ¬ (s.handle h).submitted = true) :
    h ∉ s.notifications :=
  fun hmem => hfresh (hl.submissions.notified h hmem)

theorem Listening.notified_setHandle {entry : HandleState} (hl : Listening s)
    (heq : entry.pendingWork = s.pendingWork h) :
    ∀ k ∈ (s.setHandle h entry).notifications, (s.setHandle h entry).pendingWork k = 0 :=
  fun k hk => (pendingWork_setHandle entry heq k).trans (hl.notified k hk)

/-- The work of unsettled handles does not lose track. -/
theorem Listening.keepsTrack (hl : Listening s) (hw : s.listenerWork e = true)
    (hstep : s.step e = some s') : s.losesTrack e = false := by
  cases e with
  | retain h runner => simp [losesTrack, hl.member (of_decide_eq_true hw)]
  | notify h =>
    obtain ⟨⟨-, hmem⟩, -⟩ := when_eq_some hstep
    simp [losesTrack, hl.notified h hmem]
  | submit _ | submitFails _ | release _ _ | completeBody _ | drainStep _ => rfl
  | executorCall _ => rfl
  | _ => cases hw

theorem Listening.work (hl : Listening s) (hw : s.listenerWork e = true)
    (hstep : s.step e = some s') : Listening s' := by
  suffices hrest : (∀ k ∈ s'.notifications, s'.pendingWork k = 0) ∧ s'.registering = none from
    ⟨hl.reaches (hl.keepsTrack hw hstep) hstep, hrest.1, hrest.2⟩
  cases e with
  | submit h =>
    obtain ⟨⟨-, hfresh⟩, rfl⟩ := when_eq_some hstep
    exact ⟨notified_retainWork hl.notified (hl.fresh hfresh), hl.unregistered⟩
  | submitFails h =>
    obtain ⟨⟨hlt, hfresh⟩, rfl⟩ := when_eq_some hstep
    refine ⟨notified_releaseWork (notified_retainWork hl.notified (hl.fresh hfresh)) ?_,
      ((s.retainWork h true).releaseWork_frame h true).2.trans hl.unregistered⟩
    rw [pendingWork_retainWork, if_pos ⟨rfl, hlt⟩]
    exact Nat.succ_pos _
  | retain h runner =>
    have hp : 0 < s.pendingWork h := of_decide_eq_true hw
    obtain ⟨-, rfl⟩ := when_eq_some hstep
    refine ⟨notified_retainWork hl.notified fun hmem => ?_, hl.unregistered⟩
    exact absurd (hl.notified h hmem) (by omega)
  | release h runner =>
    obtain ⟨⟨hp, -⟩, rfl⟩ := when_eq_some hstep
    exact ⟨notified_releaseWork hl.notified hp,
      (s.releaseWork_frame h runner).2.trans hl.unregistered⟩
  | completeBody h =>
    obtain ⟨-, rfl⟩ := when_eq_some hstep
    exact ⟨hl.notified_setHandle rfl, hl.unregistered⟩
  | drainStep h =>
    obtain ⟨-, rfl⟩ := when_eq_some hstep
    unfold ScopeState.drainStep
    split
    · exact ⟨hl.notified_setHandle rfl, hl.unregistered⟩
    · exact ⟨hl.notified_setHandle rfl, hl.unregistered⟩
  | notify h =>
    obtain ⟨-, rfl⟩ := when_eq_some hstep
    exact ⟨fun k hk => hl.notified k (List.mem_of_mem_erase hk), hl.unregistered⟩
  | executorCall h =>
    obtain ⟨-, rfl⟩ := when_eq_some hstep
    exact ⟨hl.notified, hl.unregistered⟩
  | _ => cases hw

theorem Listening.go {owned : Bool} {callbacks : Nat} (hl : Listening s)
    (hstep : s.step (.go owned callbacks) = some s') : Listening s' := by
  have hreached := hl.reaches rfl hstep
  obtain ⟨-, ⟨-, rfl⟩ | ⟨-, rfl⟩⟩ := call_eq_some hstep
  · refine ⟨hreached, fun k hk => ?_, hl.unregistered⟩
    have hlt := lt_of_submitted (hl.submissions.notified k hk)
    rw [pendingWork, handle_go, if_neg (Nat.ne_of_lt hlt)]
    exact hl.notified k hk
  · exact hl

theorem Listening.close (hl : Listening s) (he : closes e = true) (hstep : s.step e = some s') :
    Listening s' := by
  cases e with
  | closeStart =>
    have hreached := hl.reaches rfl hstep
    obtain ⟨-, rfl⟩ := when_eq_some hstep
    refine ⟨hreached, ?_, ?_⟩
    · split
      · exact hl.notified
      · exact hl.notified
    · split
      · exact hl.unregistered
      · exact hl.unregistered
  | closeTimeout | closeSettled | closeDone =>
    have hreached := hl.reaches rfl hstep
    obtain ⟨-, rfl⟩ := when_eq_some hstep
    exact ⟨hreached, hl.notified, hl.unregistered⟩
  | _ => cases he

theorem not_closes_of_work (hw : s.listenerWork e = true) : closes e = false := by
  cases e with
  | closeStart | closeTimeout | closeSettled | closeDone => cases hw
  | _ => rfl

/-- Every handle has settled. -/
def Idle (s : ScopeState) : Prop :=
  ∀ h, h < s.handles.length → s.pendingWork h = 0 ∧ h ∉ s.activeHandles

/-- Nothing goes on in a settled scope. -/
theorem Idle.work (hq : Idle s) (hl : Listening s) (hw : s.listenerWork e = true)
    (hstep : s.step e = some s') : Idle s' := by
  have hidle : ∀ {h}, 0 < s.pendingWork h → False := fun {h} hp => by
    have := (hq h (lt_of_pendingWork hp)).1
    omega
  have hset : ∀ h entry, entry.pendingWork = s.pendingWork h → Idle (s.setHandle h entry) := by
    intro h entry heq k hk
    rw [pendingWork_setHandle entry heq]
    exact hq k (by simpa [setHandle] using hk)
  cases e with
  | submit h | submitFails h =>
    obtain ⟨⟨hlt, hfresh⟩, -⟩ := when_eq_some hstep
    exact absurd (hl.submissions.fresh_member h hlt (by simpa using hfresh)) (hq h hlt).2
  | retain h runner => exact (hidle (of_decide_eq_true hw)).elim
  | release h runner =>
    obtain ⟨⟨hp, -⟩, -⟩ := when_eq_some hstep
    exact (hidle hp).elim
  | completeBody h =>
    obtain ⟨-, rfl⟩ := when_eq_some hstep
    exact hset h _ rfl
  | drainStep h =>
    obtain ⟨-, rfl⟩ := when_eq_some hstep
    unfold ScopeState.drainStep
    split
    · exact hset h _ rfl
    · exact hset h _ rfl
  | notify h =>
    obtain ⟨-, rfl⟩ := when_eq_some hstep
    intro k hk
    exact ⟨(hq k hk).1, fun hmem => (hq k hk).2 (Finset.mem_of_mem_erase hmem)⟩
  | executorCall h =>
    obtain ⟨-, rfl⟩ := when_eq_some hstep
    exact hq
  | _ => cases hw

theorem Quiet.work (hq : Quiet s) (hl : Listening s) (hw : s.listenerWork e = true)
    (hstep : s.step e = some s') : Quiet s' where
  is_sealed := (keepsClose_of_step (not_closes_of_work hw) hstep).is_sealed hq.is_sealed
  settled := Idle.work hq.settled hl hw hstep

/-- `wait_settled` finds no member, so no work is pending. -/
theorem idle_of_inactive (hl : Listening s) (hidle : ¬ s.hasActiveWorkLocked = true) : Idle s := by
  have hempty : s.activeHandles = ∅ := by
    by_contra hactive
    exact hidle (by simp [hasActiveWorkLocked, hactive])
  have hnone : ∀ h, h ∉ s.activeHandles := fun h => by simp [hempty]
  refine fun h _ => ⟨?_, hnone h⟩
  by_contra hp
  exact hnone h (hl.member (Nat.pos_of_ne_zero hp))

theorem quiet_of_idle (hl : Listening s) (his_sealed : s.isSealed = true)
    (hidle : ¬ s.hasActiveWorkLocked = true) : Quiet s :=
  ⟨his_sealed, idle_of_inactive hl hidle⟩

end ScopeState

/-! ## 2. The callers of close -/

inductive CloserPhase where
  /-- It waits for the registry lock. -/
  | called
  /-- It has set the flag; `Stage.close` has not passed its guards, or has no thread yet. -/
  | closing
  /-- In `Stage.close`, before or inside `_close_operation_lock`. -/
  | working
  | returned
  | raised
  /-- The task of an `async_close` was cancelled before the thread began. -/
  | withdrawn
deriving DecidableEq, Repr

/-- A call of `close` or, on a thread, of `async_close`. -/
structure Closer where
  onThread : Bool
  phase : CloserPhase := .called
  /-- The awaiting task has been cancelled; the thread goes on. -/
  cancelled : Bool := false
deriving DecidableEq, Repr

structure ClosingEmitter where
  scope : ScopeState := {}
  closed : Bool := false
  /-- An `emit` holds the registry lock. -/
  emitting : Bool := false
  closers : List Closer := []
  /-- The closer that holds `_close_operation_lock`. -/
  closeHolder : Option Nat := none

inductive ClosingEvent where
  | enterEmit
  | submitListener (owned : Bool) (callbacks : Nat)
  /-- The `emit` returns or raises. -/
  | leaveEmit
  | work (e : ScopeEvent)
  | call (onThread : Bool)
  | enterClose (i : Nat)
  | beginClose (i : Nat)
  /-- A guard of `Stage.close` raises: the caller is work of the Stage, or on its loop. -/
  | refuseClose (i : Nat)
  | cancelClose (i : Nat)
  | startClose (i : Nat) (raises : Bool)
  | closeSettled (i : Nat)
  /-- `Stage.close` returns, or raises the recorded settlement errors. -/
  | closeDone (i : Nat) (raises : Bool)

namespace ClosingEmitter

variable (s : ClosingEmitter)

def setCloser (i : Nat) (c : Closer) : ClosingEmitter := { s with closers := s.closers.set i c }

/-- A step of the Stage. -/
def scopeStep (e : ScopeEvent) : Option ClosingEmitter :=
  (s.scope.step e).map fun scope => { s with scope := scope }

/-- The part of `close` under the registry lock. -/
def enterClose (i : Nat) (c : Closer) : ClosingEmitter :=
  if s.closed then s.setCloser i { c with phase := .returned }
  else { s.setCloser i { c with phase := .closing } with closed := true }

def finished (raises : Bool) : CloserPhase := if raises then .raised else .returned

def when (condition : Prop) [Decidable condition] (s : ClosingEmitter) : Option ClosingEmitter :=
  if condition then some s else none

def step : ClosingEvent → Option ClosingEmitter
  | .enterEmit =>
    when (s.emitting = false) (if s.closed then s else { s with emitting := true })
  | .submitListener owned callbacks =>
    if s.emitting then s.scopeStep (.go owned callbacks) else none
  | .leaveEmit => when (s.emitting = true) { s with emitting := false }
  | .work e => if s.scope.listenerWork e then s.scopeStep e else none
  | .call onThread => some { s with closers := s.closers ++ [{ onThread := onThread }] }
  | .enterClose i =>
    match s.closers[i]? with
    | some c => when (c.phase = .called ∧ s.emitting = false) (s.enterClose i c)
    | none => none
  | .beginClose i =>
    match s.closers[i]? with
    | some c => when (c.phase = .closing) (s.setCloser i { c with phase := .working })
    | none => none
  | .refuseClose i =>
    match s.closers[i]? with
    | some c => when (c.phase = .closing) (s.setCloser i { c with phase := .raised })
    | none => none
  | .cancelClose i =>
    match s.closers[i]? with
    | some c =>
      if c.onThread ∧ c.phase = .closing then
        some (s.setCloser i { c with phase := .withdrawn, cancelled := true })
      else when (c.onThread = true ∧ c.phase = .working) (s.setCloser i { c with cancelled := true })
    | none => none
  | .startClose i raises =>
    match s.closers[i]? with
    | some c =>
      if c.phase = .working ∧ s.closeHolder = none then
        if s.scope.closeCompleted then some (s.setCloser i { c with phase := finished raises })
        else { s with closeHolder := some i }.scopeStep .closeStart
      else none
    | none => none
  | .closeSettled i => if s.closeHolder = some i then s.scopeStep .closeSettled else none
  | .closeDone i raises =>
    match s.closers[i]? with
    | some c =>
      if s.closeHolder = some i then
        { s.setCloser i { c with phase := finished raises } with closeHolder := none }.scopeStep
          .closeDone
      else none
    | none => none

/-! ## 3. The barrier -/

/-- Every `close` that has returned normally has returned to a sealed and settled Stage. -/
def Barrier : Prop :=
  ∀ c ∈ s.closers, c.phase = .returned → c.cancelled = false → s.scope.Quiet

/-- A caller finds the flag set before the Stage is sealed and settled. -/
def ReturnsEarly : ClosingEvent → Prop
  | .enterClose _ => s.closed = true ∧ ¬ s.scope.Quiet
  | _ => False

end ClosingEmitter

/-- All interleavings of emits, of the work of the listeners and of the callers of `close`. -/
def closingSystem : System ClosingEmitter ClosingEvent where
  Init s := s = {}
  step := ClosingEmitter.step

namespace ClosingEmitter

open ScopeState

variable {s s' : ClosingEmitter} {i : Nat} {c : Closer}

theorem when_eq_some {condition : Prop} [Decidable condition] {t : ClosingEmitter}
    (h : when condition t = some s') : condition ∧ s' = t := by
  unfold when at h
  split at h
  · rename_i hcondition
    cases h
    exact ⟨hcondition, rfl⟩
  · cases h

theorem scopeStep_eq_some {e : ScopeEvent} (h : s.scopeStep e = some s') :
    ∃ scope, s.scope.step e = some scope ∧ s' = { s with scope := scope } := by
  obtain ⟨scope, hscope, rfl⟩ := Option.map_eq_some_iff.mp h
  exact ⟨scope, hscope, rfl⟩

structure ClosingInv (s : ClosingEmitter) : Prop where
  listening : s.scope.Listening
  emitting : s.emitting = true → s.closed = false
  called : ∀ c ∈ s.closers, c.phase = .called → c.cancelled = false
  entered : ∀ c ∈ s.closers, c.phase ≠ .called → s.closed = true
  idle : s.closeHolder = none → s.scope.closePhase = .idle
  held : s.closeHolder ≠ none → s.closed = true ∧ s.scope.isSealed = true
  settled : s.scope.closePhase = .settled ∨ s.scope.closeCompleted = true →
    s.closed = true ∧ s.scope.Quiet
  barrier : s.Barrier

theorem closingInv_init : ClosingInv {} where
  listening := ⟨.init rfl, fun h hmem => by simp at hmem, rfl⟩
  emitting h := by cases h
  called c hc := by simp at hc
  entered c hc := by simp at hc
  idle _ := rfl
  held h := absurd rfl h
  settled h := by simp at h
  barrier c hc := by simp at hc

theorem mem_setCloser {d : Closer} (h : d ∈ (s.setCloser i c).closers) : d ∈ s.closers ∨ d = c :=
  List.mem_or_eq_of_mem_set h

/-- A caller goes on, and the Stage stays as it is. -/
theorem ClosingInv.setCloser (hi : ClosingInv s) (hclosed : s.closed = true)
    (hcalled : c.phase ≠ .called)
    (hreturned : c.phase = .returned → c.cancelled = false → s.scope.Quiet) :
    ClosingInv (s.setCloser i c) where
  listening := hi.listening
  emitting := hi.emitting
  called d hd hphase := by
    rcases mem_setCloser hd with hd | rfl
    · exact hi.called d hd hphase
    · exact absurd hphase hcalled
  entered _ _ _ := hclosed
  idle := hi.idle
  held := hi.held
  settled := hi.settled
  barrier d hd hphase hcancelled := by
    rcases mem_setCloser hd with hd | rfl
    · exact hi.barrier d hd hphase hcancelled
    · exact hreturned hphase hcancelled

/-- The Stage makes a step that is not one of `close`; once the flag is set it stays quiet. -/
theorem ClosingInv.scope (hi : ClosingInv s) {scope : ScopeState} (hl : scope.Listening)
    (hk : KeepsClose s.scope scope) (hquiet : s.closed = true → s.scope.Quiet → scope.Quiet) :
    ClosingInv { s with scope := scope } where
  listening := hl
  emitting := hi.emitting
  called := hi.called
  entered := hi.entered
  idle hnone := hk.phase.trans (hi.idle hnone)
  held hsome := ⟨(hi.held hsome).1, hk.is_sealed (hi.held hsome).2⟩
  settled hdone := by
    rw [hk.phase, hk.completed] at hdone
    obtain ⟨hclosed, hq⟩ := hi.settled hdone
    exact ⟨hclosed, hquiet hclosed hq⟩
  barrier c hc hphase hcancelled :=
    hquiet (hi.entered c hc fun h => by rw [hphase] at h; cases h)
      (hi.barrier c hc hphase hcancelled)

theorem closers_of_get (hget : s.closers[i]? = some c) : c ∈ s.closers :=
  List.mem_of_getElem? hget

/-- A caller enters the registry lock and does not return too early. -/
theorem ClosingInv.enterClose (hi : ClosingInv s) (hget : s.closers[i]? = some c)
    (hphase : c.phase = .called) (hemitting : s.emitting = false)
    (hok : ¬ s.ReturnsEarly (.enterClose i)) : ClosingInv (s.enterClose i c) := by
  unfold ClosingEmitter.enterClose
  split
  · rename_i hclosed
    refine hi.setCloser hclosed (fun h => by cases h) fun _ _ => ?_
    by_contra hquiet
    exact hok ⟨hclosed, hquiet⟩
  · have hcancelled := hi.called c (closers_of_get hget) hphase
    -- until the flag is set there is no caller but those that wait for the lock
    have hopen : ∀ d ∈ s.closers, d.phase = .called := fun d hd => by
      by_contra hother
      exact absurd (hi.entered d hd hother) (by assumption)
    constructor
    · exact hi.listening
    · intro h
      rw [show s.emitting = true from h] at hemitting
      cases hemitting
    · intro d hd hcalled
      rcases mem_setCloser hd with hd | rfl
      · exact hi.called d hd hcalled
      · cases hcalled
    · exact fun _ _ _ => rfl
    · exact hi.idle
    · exact fun hheld => ⟨rfl, (hi.held hheld).2⟩
    · exact fun hdone => ⟨rfl, (hi.settled hdone).2⟩
    · intro d hd hreturned
      rcases mem_setCloser hd with hd | rfl
      · rw [hopen d hd] at hreturned
        cases hreturned
      · cases hreturned

/-- `Stage.close` begins under its operation lock: the scope is sealed. -/
theorem ClosingInv.startClose (hi : ClosingInv s) (hclosed : s.closed = true)
    (hcompleted : s.scope.closeCompleted ≠ true) {scope : ScopeState}
    (hstep : s.scope.step .closeStart = some scope) :
    ClosingInv { s with closeHolder := some i, scope := scope } := by
  have hl := hi.listening.close rfl hstep
  obtain ⟨⟨-, hidle⟩, rfl⟩ := ScopeState.when_eq_some hstep
  rw [if_neg hcompleted] at hl ⊢
  refine ⟨hl, hi.emitting, hi.called, hi.entered, (fun h => by cases h), fun _ => ⟨hclosed, rfl⟩,
    fun h => ?_, fun c hc hphase hcancelled => ?_⟩
  · rcases h with h | h
    · cases h
    · exact absurd h hcompleted
  · have hq := hi.barrier c hc hphase hcancelled
    exact ⟨rfl, hq.settled⟩

/-- `wait_settled` returns. -/
theorem ClosingInv.closeSettled (hi : ClosingInv s) (hheld : s.closeHolder = some i)
    {scope : ScopeState} (hstep : s.scope.step .closeSettled = some scope) :
    ClosingInv { s with scope := scope } := by
  have hl := hi.listening.close rfl hstep
  obtain ⟨hclosed, hsealed⟩ := hi.held (by rw [hheld]; exact Option.some_ne_none i)
  obtain ⟨⟨-, -, hidle⟩, rfl⟩ := ScopeState.when_eq_some hstep
  have hquiet : s.scope.Quiet := quiet_of_idle hi.listening hsealed hidle
  refine ⟨hl, hi.emitting, hi.called, hi.entered, fun h => ?_, fun _ => ⟨hclosed, hsealed⟩,
    fun _ => ⟨hclosed, hquiet.is_sealed, hquiet.settled⟩,
    fun _ _ _ _ => ⟨hquiet.is_sealed, hquiet.settled⟩⟩
  rw [hheld] at h
  cases h

/-- `Stage.close` returns or raises, and the caller with it. -/
theorem ClosingInv.closeDone (hi : ClosingInv s) {raises : Bool} {scope : ScopeState}
    (hstep : s.scope.step .closeDone = some scope) :
    ClosingInv { s.setCloser i { c with phase := finished raises } with
      closeHolder := none, scope := scope } := by
  have hl := hi.listening.close rfl hstep
  obtain ⟨⟨-, hsettled⟩, rfl⟩ := ScopeState.when_eq_some hstep
  obtain ⟨hclosed, hquiet⟩ := hi.settled (Or.inl hsettled)
  refine ⟨hl, hi.emitting, fun d hd hphase => ?_, fun _ _ _ => hclosed, fun _ => rfl,
    fun h => absurd rfl h, fun _ => ⟨hclosed, hquiet.is_sealed, hquiet.settled⟩,
    fun _ _ _ _ => ⟨hquiet.is_sealed, hquiet.settled⟩⟩
  rcases mem_setCloser hd with hd | rfl
  · exact hi.called d hd hphase
  · cases raises with
    | false => cases hphase
    | true => cases hphase

theorem ClosingInv.step (hi : ClosingInv s) {e : ClosingEvent} (hok : ¬ s.ReturnsEarly e)
    (h : s.step e = some s') : ClosingInv s' := by
  cases e with
  | enterEmit =>
    obtain ⟨hemitting, rfl⟩ := when_eq_some h
    split
    · exact hi
    · rename_i hclosed
      exact ⟨hi.listening, fun _ => by simpa using hclosed, hi.called, hi.entered, hi.idle, hi.held,
        hi.settled, hi.barrier⟩
  | submitListener owned callbacks =>
    simp only [ClosingEmitter.step] at h
    split at h
    · rename_i hemitting
      obtain ⟨scope, hscope, rfl⟩ := scopeStep_eq_some h
      refine hi.scope (hi.listening.go hscope) (keepsClose_of_step rfl hscope) fun hclosed => ?_
      rw [hi.emitting hemitting] at hclosed
      cases hclosed
    · cases h
  | leaveEmit =>
    obtain ⟨-, rfl⟩ := when_eq_some h
    exact ⟨hi.listening, (fun h => by cases h), hi.called, hi.entered, hi.idle, hi.held, hi.settled,
      hi.barrier⟩
  | work e =>
    simp only [ClosingEmitter.step] at h
    split at h
    · rename_i hwork
      obtain ⟨scope, hscope, rfl⟩ := scopeStep_eq_some h
      exact hi.scope (hi.listening.work hwork hscope)
        (keepsClose_of_step (not_closes_of_work hwork) hscope)
        fun _ hquiet => hquiet.work hi.listening hwork hscope
    · cases h
  | call onThread =>
    cases h
    refine ⟨hi.listening, hi.emitting, fun d hd hphase => ?_, fun d hd hphase => ?_, hi.idle,
      hi.held, hi.settled, fun d hd hphase => ?_⟩
    · rcases List.mem_append.mp hd with hd | hd
      · exact hi.called d hd hphase
      · rw [List.mem_singleton.mp hd]
    · rcases List.mem_append.mp hd with hd | hd
      · exact hi.entered d hd hphase
      · exact absurd (by rw [List.mem_singleton.mp hd]) hphase
    · rcases List.mem_append.mp hd with hd | hd
      · exact hi.barrier d hd hphase
      · rw [List.mem_singleton.mp hd] at hphase
        cases hphase
  | enterClose i =>
    simp only [ClosingEmitter.step] at h
    split at h
    · rename_i c hget
      obtain ⟨⟨hphase, hemitting⟩, rfl⟩ := when_eq_some h
      exact hi.enterClose hget hphase hemitting hok
    · cases h
  | beginClose i | refuseClose i =>
    simp only [ClosingEmitter.step] at h
    split at h
    · rename_i c hget
      obtain ⟨hphase, rfl⟩ := when_eq_some h
      have hclosed := hi.entered c (closers_of_get hget) fun h => by rw [hphase] at h; cases h
      exact hi.setCloser hclosed (fun h => by cases h) fun h => by cases h
    · cases h
  | cancelClose i =>
    simp only [ClosingEmitter.step] at h
    split at h
    · rename_i c hget
      split at h
      · rename_i hwithdrawn
        cases h
        have hclosed := hi.entered c (closers_of_get hget) fun h => by
          rw [hwithdrawn.2] at h
          cases h
        exact hi.setCloser hclosed (fun h => by cases h) fun h => by cases h
      · obtain ⟨⟨-, hphase⟩, rfl⟩ := when_eq_some h
        have hclosed := hi.entered c (closers_of_get hget) fun h => by rw [hphase] at h; cases h
        exact hi.setCloser hclosed (fun h => by rw [hphase] at h; cases h) fun _ h => by cases h
    · cases h
  | startClose i raises =>
    simp only [ClosingEmitter.step] at h
    split at h
    · rename_i c hget
      split at h
      · rename_i hfree
        have hclosed := hi.entered c (closers_of_get hget) fun h => by
          rw [hfree.1] at h
          cases h
        split at h
        · rename_i hcompleted
          cases h
          refine hi.setCloser hclosed ?_ fun _ _ => (hi.settled (Or.inr hcompleted)).2
          cases raises with
          | false => exact fun h => by cases h
          | true => exact fun h => by cases h
        · rename_i hcompleted
          obtain ⟨scope, hscope, rfl⟩ := scopeStep_eq_some h
          exact hi.startClose hclosed hcompleted hscope
      · cases h
    · cases h
  | closeSettled i =>
    simp only [ClosingEmitter.step] at h
    split at h
    · rename_i hheld
      obtain ⟨scope, hscope, rfl⟩ := scopeStep_eq_some h
      exact hi.closeSettled hheld hscope
    · cases h
  | closeDone i raises =>
    simp only [ClosingEmitter.step] at h
    split at h
    · rename_i c hget
      split at h
      · obtain ⟨scope, hscope, rfl⟩ := scopeStep_eq_some h
        exact hi.closeDone hscope
      · cases h
    · cases h

theorem reachUnder_closingInv (h : closingSystem.ReachUnder (fun s e => ¬ s.ReturnsEarly e) s) :
    ClosingInv s := by
  refine h.invariant (fun t ht => ?_) fun _ _ _ hi hok hstep => hi.step hok hstep
  cases ht
  exact closingInv_init

/-- The caller that finds the flag set returns. -/
theorem not_barrier_of_returnsEarly (hi : ClosingInv s) {e : ClosingEvent} (he : s.ReturnsEarly e)
    (h : s.step e = some s') : ¬ s'.Barrier := by
  cases e with
  | enterClose i =>
    obtain ⟨hclosed, hquiet⟩ := he
    simp only [ClosingEmitter.step] at h
    split at h
    · rename_i c hget
      obtain ⟨⟨hphase, -⟩, rfl⟩ := when_eq_some h
      rw [ClosingEmitter.enterClose, if_pos hclosed]
      intro hbarrier
      have hmem : { c with phase := .returned } ∈
          (s.setCloser i { c with phase := .returned }).closers :=
        List.mem_set (List.getElem?_eq_some_iff.mp hget).1 _
      exact hquiet (hbarrier _ hmem rfl (hi.called c (closers_of_get hget) hphase))
    · cases h
  | _ => cases he

/-- **The barrier of `close`.**  As long as no caller finds the flag set before the Stage is sealed
    and settled, every `close` and `async_close` that returns normally returns to a Stage that is
    sealed and whose listeners have all settled; and every caller that does finds it unsettled
    returns normally. -/
theorem close_barrier_iff (s : ClosingEmitter) :
    (closingSystem.ReachUnder (fun s e => ¬ s.ReturnsEarly e) s → s.Barrier) ∧
    ∀ e s', closingSystem.ReachUnder (fun s e => ¬ s.ReturnsEarly e) s →
      closingSystem.step s e = some s' → s.ReturnsEarly e → ¬ s'.Barrier :=
  ⟨fun h => (reachUnder_closingInv h).barrier,
    fun _ _ h hstep he => not_barrier_of_returnsEarly (reachUnder_closingInv h) he hstep⟩

/-- A listener runs; one caller waits in `close`, and another one calls it. -/
def secondClose : List ClosingEvent :=
  [.enterEmit, .submitListener false 0, .work (.submit 0), .leaveEmit, .call false,
    .enterClose 0, .beginClose 0, .startClose 0 false, .call false, .enterClose 1]

/-- The second `close` has returned while the listener runs. -/
theorem second_close_returns_early :
    ¬ ∀ s, closingSystem.Reachable s → s.Barrier := by
  intro hall
  have hend : (closingSystem.run {} secondClose).any (fun s =>
      decide (s.closers[1]? = some ⟨false, .returned, false⟩ ∧ s.scope.handles.length = 1 ∧
        s.scope.pendingWork 0 = 1)) = true := by
    decide
  obtain ⟨s, hrun, hs⟩ := (Option.any_eq_true _ _).mp hend
  obtain ⟨hget, hlength, hpending⟩ := of_decide_eq_true hs
  have hbarrier := hall s (System.reachable_of_run secondClose rfl hrun)
  have hquiet := hbarrier _ (closers_of_get hget) rfl rfl
  have := (hquiet.settled 0 (by omega)).1
  omega

end ClosingEmitter

end AgentlyStage
