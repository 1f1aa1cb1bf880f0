import AgentlyStage.ScopeEpoch
import AgentlyStage.Lib.Counting

/-!
# The idle watch

While a Stage with an idle timeout has active work and is not sealed, a timer is pending
whose deadline is not later than the last activity plus the timeout.  Work that becomes
active touches the Stage, with one exception: a late callback adds its handle without a
touch, so a Stage that it reopens is not watched.
-/

namespace AgentlyStage

open Transition

namespace EpochState

variable {s s' : EpochState} {site : CallSite}

/-! ## 1. The invariant of the timer -/

/-- The timer that the Stage holds is going to fire in time. -/
structure TimerInv (s : EpochState) : Prop where
  live : ∀ i, s.idleTimer = some i → ∃ timer : IdleTimer, s.timers[i]? = some timer ∧
    timer.fired = false ∧ timer.cancelled = false ∧ timer.token = s.idleTimerToken ∧
    ∀ timeout, s.idleTimeout = some timeout → timer.deadline ≤ s.lastActivity + timeout
  unarmed : s.isSealed = true ∨ s.idleTimeout = none → s.idleTimer = none
  clock : s.lastActivity ≤ s.now

structure WatchInv (s : EpochState) : Prop where
  timer : TimerInv s
  watched : ∀ timeout, s.idleTimeout = some timeout → s.hasActiveWorkLocked = true →
    s.isSealed = false → s.idleTimer.isSome = true
  /-- Nothing is watched when nothing is active and no observer runs. -/
  quiet : s.hasActiveWorkLocked = false → s.observing = 0 → s.idleTimer = none

/-- A touch arms the watch. -/
theorem TimerInv.touch (ht : TimerInv s)
    (hquiet : s.hasActiveWorkLocked = false → s.observing = 0 → s.idleTimer = none) :
    WatchInv s.touchLocked := by
  rcases touchLocked_cases s with ⟨heq, hreason⟩ | ⟨timeout, htimeout, hactive, hopen, heq⟩
  · rw [heq]
    refine ⟨⟨fun i hi => ?_, ht.unarmed, Nat.le_refl _⟩, fun timeout htimeout hactive hopen => ?_,
      hquiet⟩
    · obtain ⟨timer, hget, hfired, hcancelled, htoken, hdeadline⟩ := ht.live i hi
      exact ⟨timer, hget, hfired, hcancelled, htoken, fun timeout htimeout =>
        Nat.le_trans (hdeadline timeout htimeout) (Nat.add_le_add_right ht.clock timeout)⟩
    · rcases hreason with hnone | hidle | hsealed | htimer
      · rw [show s.idleTimeout = some timeout from htimeout] at hnone
        cases hnone
      · rw [show s.hasActiveWorkLocked = true from hactive] at hidle
        cases hidle
      · rw [show s.isSealed = false from hopen] at hsealed
        cases hsealed
      · exact htimer
  · rw [heq]
    refine ⟨⟨fun i hi => ?_, fun hunarmed => ?_, Nat.le_refl _⟩, fun _ _ _ _ => rfl,
      fun hidle => ?_⟩
    · cases hi
      refine ⟨_, List.getElem?_concat_length, rfl, rfl, rfl, fun timeout' h => ?_⟩
      rw [show s.idleTimeout = some timeout' from h] at htimeout
      cases htimeout
      exact Nat.le_refl _
    · rcases hunarmed with hsealed | hnone
      · rw [show s.isSealed = true from hsealed] at hopen
        cases hopen
      · rw [show s.idleTimeout = none from hnone] at htimeout
        cases htimeout
    · rw [show s.hasActiveWorkLocked = false from hidle] at hactive
      cases hactive

/-- A Stage that gives its timer away. -/
theorem TimerInv.drop (ht : TimerInv s) (hs' : s'.idleTimer = none)
    (hclock : s'.lastActivity = s.lastActivity ∧ s'.now = s.now) : TimerInv s' where
  live i hi := by
    rw [hs'] at hi
    cases hi
  unarmed _ := hs'
  clock := by
    rw [hclock.1, hclock.2]
    exact ht.clock

theorem TimerInv.release (ht : TimerInv s)
    (hwatched : ∀ timeout, s.idleTimeout = some timeout → s.hasActiveWorkLocked = true →
      s.isSealed = false → s.idleTimer.isSome = true) :
    WatchInv s.releaseBackendIfQuiescentLocked := by
  unfold releaseBackendIfQuiescentLocked
  split
  · rename_i hactive
    refine ⟨ht, hwatched, fun hidle => ?_⟩
    rw [hactive] at hidle
    cases hidle
  · rename_i hidle
    exact ⟨ht.drop rfl ⟨rfl, rfl⟩, fun _ _ hactive => absurd hactive hidle, fun _ _ => rfl⟩

/-- A step that changes nothing the watch looks at. -/
theorem TimerInv.congr (ht : TimerInv s) (htimer : s'.idleTimer = s.idleTimer)
    (htimers : s'.timers = s.timers) (htoken : s'.idleTimerToken = s.idleTimerToken)
    (htimeout : s'.idleTimeout = s.idleTimeout) (hsealed : s'.isSealed = s.isSealed)
    (hclock : s'.lastActivity = s.lastActivity ∧ s'.now = s.now) : TimerInv s' := by
  constructor
  · rw [htimer, htimers, htoken, htimeout, hclock.1]
    exact ht.live
  · rw [htimer, hsealed, htimeout]
    exact ht.unarmed
  · rw [hclock.1, hclock.2]
    exact ht.clock

/-- Binding a backend has nothing to do with the watch. -/
theorem WatchInv.bindCaller (hw : WatchInv s) (loop : Option Nat) : WatchInv (s.bindCaller loop) :=
  ⟨hw.timer.congr rfl rfl rfl rfl rfl ⟨rfl, rfl⟩, hw.watched, hw.quiet⟩

theorem WatchInv.bindStage (hw : WatchInv s) (blocked : List Nat) :
    WatchInv (s.bindStage blocked) :=
  ⟨hw.timer.congr rfl rfl rfl rfl rfl ⟨rfl, rfl⟩, hw.watched, hw.quiet⟩

theorem WatchInv.resolve (hw : WatchInv s) {selected : BackendKind × Option Nat}
    (h : s.resolveBackendLocked site = .ok (selected, s')) : WatchInv s' := by
  rcases resolveBackendLocked_spec h with ⟨-, -, rfl⟩ | ⟨-, -, -, rfl⟩ | ⟨-, -, -, rfl⟩
  · exact hw
  · exact hw.bindCaller _
  · exact hw.bindStage _

/-! ## 2. The operations -/

/-- Work that becomes active and touches the Stage. -/
theorem WatchInv.enters (hw : WatchInv s) {handles : List EpochHandle}
    {activeHandles adoptedTasks : Finset Nat} (hactive : activeHandles ≠ ∅ ∨ adoptedTasks ≠ ∅) :
    WatchInv (touchLocked { s with
      handles := handles, activeHandles := activeHandles, adoptedTasks := adoptedTasks }) := by
  have ht : TimerInv { s with
      handles := handles, activeHandles := activeHandles, adoptedTasks := adoptedTasks } :=
    hw.timer.congr rfl rfl rfl rfl rfl ⟨rfl, rfl⟩
  refine ht.touch fun hidle => ?_
  rw [hasActiveWorkLocked_eq_true.mpr hactive] at hidle
  cases hidle

theorem WatchInv.release (hw : WatchInv s) : WatchInv s.releaseBackendIfQuiescentLocked :=
  hw.timer.release hw.watched

theorem WatchInv.go (hw : WatchInv s) : WatchInv (s.go site).1 := by
  unfold EpochState.go
  split
  · split
    · exact hw
    · rename_i backend loop s' hresolve
      exact (hw.resolve hresolve).enters
        (Or.inl (Finset.ne_empty_of_mem (Finset.mem_insert_self _ _)))
  · exact hw

theorem WatchInv.adopt (hw : WatchInv s) {t loop : Nat} : WatchInv (s.adopt site t loop).1 := by
  unfold EpochState.adopt
  split
  · split
    · exact hw
    · split
      · exact hw
      · rename_i selected s' hresolve
        split
        · exact (hw.resolve hresolve).enters
            (Or.inr (Finset.ne_empty_of_mem (Finset.mem_insert_self _ _)))
        · exact (hw.resolve hresolve).release
  · exact hw

theorem WatchInv.selectForTask (hw : WatchInv s) {loop : Nat} :
    WatchInv (s.selectForTask site loop).1 := by
  unfold EpochState.selectForTask
  split
  · split
    · exact hw
    · rename_i selected s' hresolve
      have hbound := hw.resolve hresolve
      split
      · exact ⟨hbound.timer.congr rfl rfl rfl rfl rfl ⟨rfl, rfl⟩, hbound.watched, hbound.quiet⟩
      · exact hbound.release
  · exact hw

theorem WatchInv.createTask (hw : WatchInv s) {i loop : Nat} :
    WatchInv (s.createTask i loop site).1 := by
  have hmade : WatchInv { s with
      creating := s.creating.eraseIdx i, taskLoops := s.taskLoops ++ [loop] } :=
    ⟨hw.timer.congr rfl rfl rfl rfl rfl ⟨rfl, rfl⟩, hw.watched, hw.quiet⟩
  exact hmade.adopt

theorem WatchInv.handleQuiescent (hw : WatchInv s) (h : Nat) : WatchInv (s.handleQuiescent h) := by
  have ht : TimerInv { s with activeHandles := s.activeHandles.erase h } :=
    hw.timer.congr rfl rfl rfl rfl rfl ⟨rfl, rfl⟩
  refine ht.release fun timeout htimeout hactive hopen => hw.watched timeout htimeout ?_ hopen
  rw [hasActiveWorkLocked_eq_true] at hactive ⊢
  refine hactive.imp_left fun hne hempty => hne ?_
  rw [show s.activeHandles = ∅ from hempty, Finset.erase_empty]

theorem WatchInv.adoptedTaskDone (hw : WatchInv s) (t : Nat) :
    WatchInv (s.adoptedTaskDone t) := by
  have ht : TimerInv { s with
      adoptedTasks := s.adoptedTasks.erase t, observing := s.observing + 1 } :=
    hw.timer.congr rfl rfl rfl rfl rfl ⟨rfl, rfl⟩
  exact ht.touch fun _ hobserving => absurd hobserving (Nat.succ_ne_zero _)

theorem WatchInv.observed (hw : WatchInv s) : WatchInv s.observed := by
  have ht : TimerInv { s with observing := s.observing - 1 } :=
    hw.timer.congr rfl rfl rfl rfl rfl ⟨rfl, rfl⟩
  exact ht.release hw.watched

theorem WatchInv.tick (hw : WatchInv s) : WatchInv s.tick := by
  unfold EpochState.tick
  split
  · exact hw
  · exact hw.timer.touch hw.quiet

theorem WatchInv.sealScope (hw : WatchInv s) : WatchInv s.sealScope :=
  ⟨hw.timer.drop rfl ⟨rfl, rfl⟩, fun _ _ _ hopen => (by cases hopen), fun _ _ => rfl⟩

theorem WatchInv.cancelScope (hw : WatchInv s) : WatchInv s.cancelScope := by
  unfold EpochState.cancelScope
  split
  · exact ⟨hw.timer.congr rfl rfl rfl rfl rfl ⟨rfl, rfl⟩, hw.watched, hw.quiet⟩
  · exact hw

/-- A timer fires: it is stale, it is armed again for what remains, or the Stage is sealed. -/
theorem WatchInv.fire (hw : WatchInv s) {i : Nat} (h : s.fire i = some s') : WatchInv s' := by
  obtain ⟨timer, hget, -, -, hfree, hcases⟩ := fired_cases h
  rcases hcases with
    ⟨rfl, hreason⟩ | ⟨timeout, htimeout, htoken, hopen, hactive, ⟨hlt, rfl⟩ | ⟨-, rfl⟩⟩
  · -- the timer that the Stage holds is another one
    have hheld : ∀ j, s.idleTimer = some j → i ≠ j := by
      rintro j hj rfl
      have hnone : s.idleTimer = none := by
        rcases hreason with hnone | htoken | hsealed | hidle
        · exact hw.timer.unarmed (Or.inr hnone)
        · obtain ⟨timer', hget', -, -, htoken', -⟩ := hw.timer.live i hj
          rw [hget] at hget'
          cases hget'
          exact absurd htoken' htoken
        · exact hw.timer.unarmed (Or.inl hsealed)
        · exact hw.quiet hidle hfree
      rw [hnone] at hj
      cases hj
    refine ⟨⟨fun j hj => ?_, hw.timer.unarmed, hw.timer.clock⟩, hw.watched, hw.quiet⟩
    obtain ⟨timer', hget', hlive⟩ := hw.timer.live j hj
    exact ⟨timer', by rw [List.getElem?_set_ne (hheld j hj)]; exact hget', hlive⟩
  · refine ⟨⟨fun j hj => ?_, fun hunarmed => ?_, hw.timer.clock⟩, fun _ _ _ _ => rfl,
      fun hidle => ?_⟩
    · cases hj
      refine ⟨_, List.getElem?_concat_length, rfl, rfl, htoken, fun timeout' h => ?_⟩
      rw [show s.idleTimeout = some timeout' from h] at htimeout
      cases htimeout
      have hclock := hw.timer.clock
      change s.now + (timeout - (s.now - s.lastActivity)) ≤ s.lastActivity + timeout
      omega
    · rcases hunarmed with hsealed | hnone
      · rw [show s.isSealed = true from hsealed] at hopen
        cases hopen
      · rw [show s.idleTimeout = none from hnone] at htimeout
        cases htimeout
    · exact nomatch hactive.symm.trans hidle
  · exact ⟨hw.timer.drop rfl ⟨rfl, rfl⟩, fun _ _ _ hopen' => (by cases hopen'), fun _ _ => rfl⟩

/-! ## 3. Late callbacks -/

/-- A late callback makes its handle active while no timer watches the unsealed Stage. -/
def reopensUnwatched (s : EpochState) : EpochEvent → Bool
  | .lateCallback site h loopRuns loopStillRuns start =>
    s.idleTimeout.isSome && !s.isSealed && s.idleTimer.isNone &&
      s.handles[h]?.any fun handle =>
        (s.lateEpoch site handle loopRuns).2.isNone && staysActive handle loopStillRuns start
  | _ => false

theorem WatchInv.lateCallback (hw : WatchInv s) {h : Nat} {handle : EpochHandle}
    {loopRuns loopStillRuns : Bool} {start : DrainStart} (hget : s.handles[h]? = some handle)
    (hok : s.reopensUnwatched (.lateCallback site h loopRuns loopStillRuns start) = false) :
    WatchInv (s.lateCallback site h handle loopRuns loopStillRuns start).1 := by
  obtain ⟨backend, loop, lease, count, blocked, hepoch⟩ :=
    lateEpoch_frame s site handle loopRuns
  rcases @lateCallback_cases s site h handle loopRuns loopStillRuns start with
    ⟨heq, -⟩ | ⟨heq, -, -⟩ | ⟨haccepted, -, ⟨hstays, heq⟩ | ⟨-, heq⟩⟩
  · rw [heq]
    exact hw
  · rw [heq, hepoch]
    exact ⟨hw.timer.congr rfl rfl rfl rfl rfl ⟨rfl, rfl⟩, hw.watched, hw.quiet⟩
  · rw [heq, hepoch]
    refine ⟨hw.timer.congr rfl rfl rfl rfl rfl ⟨rfl, rfl⟩, fun timeout htimeout _ hopen => ?_,
      fun hidle => ?_⟩
    · -- an unsealed Stage without a timer is not reopened
      simp only [reopensUnwatched, hget, Option.any_some, haccepted, hstays,
        show s.idleTimeout = some timeout from htimeout, show s.isSealed = false from hopen,
        Option.isSome_some, Bool.not_false, Bool.true_and, Bool.and_true] at hok
      exact Option.isSome_iff_ne_none.mpr fun hnone => by
        rw [show s.idleTimer = none from hnone] at hok
        cases hok
    · rw [hasActiveWorkLocked_of_handle (h := h) (Finset.mem_insert_self _ _)] at hidle
      cases hidle
  · rw [heq, hepoch]
    have ht : TimerInv { s with
        activeBackend := backend, activeLoop := loop, generationLease := lease
        leaseCount := count, blockedGenerationIds := blocked
        activeHandles := (insert h s.activeHandles).erase h } :=
      hw.timer.congr rfl rfl rfl rfl rfl ⟨rfl, rfl⟩
    refine ht.release fun timeout htimeout hactive hopen => hw.watched timeout htimeout ?_ hopen
    rw [hasActiveWorkLocked_eq_true] at hactive ⊢
    refine hactive.imp_left fun hne hempty => hne ?_
    change (insert h s.activeHandles).erase h = ∅
    rw [hempty, Finset.erase_insert (Finset.notMem_empty h)]

/-! ## 4. Runs -/

/-- **Step lemma of the watch**, for every event that reopens no Stage without a timer. -/
theorem WatchInv.step (hw : WatchInv s) {e : EpochEvent} (hok : s.reopensUnwatched e = false)
    (hstep : s.step e = some s') : WatchInv s' := by
  cases stepped hstep with
  | enter mode hopen => exact ⟨hw.timer.congr rfl rfl rfl rfl rfl ⟨rfl, rfl⟩, hw.watched, hw.quiet⟩
  | go site => exact hw.go
  | setOwnerTask h => exact ⟨hw.timer.congr rfl rfl rfl rfl rfl ⟨rfl, rfl⟩, hw.watched, hw.quiet⟩
  | handleQuiescent h hlt => exact hw.handleQuiescent h
  | lateCallback site h handle loopRuns loopStillRuns start hget => exact hw.lateCallback hget hok
  | selectForTask site loop hloop => exact hw.selectForTask
  | createTaskFails i hlt =>
    exact ⟨hw.timer.congr rfl rfl rfl rfl rfl ⟨rfl, rfl⟩, hw.watched, hw.quiet⟩
  | createTask i loop site hget hloop => exact hw.createTask
  | newTask loop => exact ⟨hw.timer.congr rfl rfl rfl rfl rfl ⟨rfl, rfl⟩, hw.watched, hw.quiet⟩
  | adopt site t loop hget => exact hw.adopt
  | adoptedTaskDone t hmem => exact hw.adoptedTaskDone t
  | observed hobserving => exact hw.observed
  | ownedActivity => exact hw.timer.touch hw.quiet
  | tick => exact hw.tick
  | cancelScope => exact hw.cancelScope
  | sealScope => exact hw.sealScope
  | fire i hfire => exact hw.fire hfire
  | releaseLease lease hmem =>
    exact ⟨hw.timer.congr rfl rfl rfl rfl rfl ⟨rfl, rfl⟩, hw.watched, hw.quiet⟩
  | advance time =>
    exact ⟨⟨hw.timer.live, hw.timer.unarmed, Nat.le_add_right_of_le hw.timer.clock⟩, hw.watched,
      hw.quiet⟩

theorem reachUnder_watchInv {configured : ConfiguredBackend} {idleTimeout : Option Nat}
    (h : (epochSystem configured idleTimeout).ReachUnder
      (fun s e => s.reopensUnwatched e = false) s) : WatchInv s := by
  induction h with
  | init hinit =>
    cases hinit
    exact ⟨⟨fun i hi => (by cases hi), fun _ => rfl, Nat.le_refl 0⟩,
      fun _ _ hactive => (by cases hactive), fun _ _ => rfl⟩
  | step _ hok hstep ih => exact ih.step hok hstep

/-- While the Stage has active work and is not sealed, a timer with the current token is pending
    whose deadline is not later than the last activity plus the timeout. -/
def Watched (s : EpochState) : Prop :=
  ∀ timeout, s.idleTimeout = some timeout → s.hasActiveWorkLocked = true → s.isSealed = false →
    ∃ i timer, s.idleTimer = some i ∧ s.timers[i]? = some timer ∧ timer.fired = false ∧
      timer.cancelled = false ∧ timer.token = s.idleTimerToken ∧
      timer.deadline ≤ s.lastActivity + timeout

theorem WatchInv.holds (hw : WatchInv s) : s.Watched := by
  intro timeout htimeout hactive hopen
  obtain ⟨i, hi⟩ := Option.isSome_iff_exists.mp (hw.watched timeout htimeout hactive hopen)
  obtain ⟨timer, hget, hfired, hcancelled, htoken, hdeadline⟩ := hw.timer.live i hi
  exact ⟨i, timer, hi, hget, hfired, hcancelled, htoken, hdeadline timeout htimeout⟩

/-- Nobody watches a Stage that a late callback has reopened. -/
theorem not_watched_of_reopens {e : EpochEvent} (hreopens : s.reopensUnwatched e = true)
    (hstep : s.step e = some s') : ¬ s'.Watched := by
  cases e with
  | lateCallback site h loopRuns loopStillRuns start =>
    obtain ⟨handle, hget, rfl⟩ := Option.map_eq_some_iff.mp hstep
    simp only [reopensUnwatched, hget, Option.any_some, Bool.and_eq_true, Bool.not_eq_true',
      Option.isNone_iff_eq_none] at hreopens
    obtain ⟨⟨⟨htimeout, hopen⟩, htimer⟩, haccepted, hstays⟩ := hreopens
    obtain ⟨timeout, htimeout⟩ := Option.isSome_iff_exists.mp htimeout
    obtain ⟨backend, loop, lease, count, blocked, hepoch⟩ :=
      lateEpoch_frame s site handle loopRuns
    rcases @lateCallback_cases s site h handle loopRuns loopStillRuns start with
      ⟨-, hrefused⟩ | ⟨-, -, herror⟩ | ⟨-, -, ⟨-, heq⟩ | ⟨hsettles, -⟩⟩
    · rw [callAllowed, hopen] at hrefused
      cases hrefused
    · rw [haccepted] at herror
      cases herror
    · rw [heq, hepoch]
      intro hwatched
      obtain ⟨i, -, hi, -⟩ := hwatched timeout htimeout
        (hasActiveWorkLocked_of_handle (h := h) (Finset.mem_insert_self _ _)) hopen
      rw [show s.idleTimer = some i from hi] at htimer
      cases htimer
    · rw [hstays] at hsettles
      cases hsettles
  | _ => cases hreopens

/-- **The idle watch.**  It covers the Stage in every run in which no late callback makes its
    handle active while no timer is pending; after such a callback nothing does. -/
theorem idle_watch_iff (s : EpochState) :
    (∀ configured idleTimeout, (epochSystem configured idleTimeout).ReachUnder
      (fun s e => s.reopensUnwatched e = false) s → s.Watched) ∧
    ∀ (s' : EpochState) (e : EpochEvent), s.reopensUnwatched e = true →
      s.step e = some s' → ¬ s'.Watched :=
  ⟨fun _ _ hreach => (reachUnder_watchInv hreach).holds,
    fun _ _ hreopens hstep => not_watched_of_reopens hreopens hstep⟩

/-- A call from a thread outside every scope. -/
def threadSite : CallSite := ⟨false, none, none, true, none, []⟩

/-- A handle settles, and a callback is registered on it. -/
def reopenedRun : List EpochEvent :=
  [.go threadSite, .handleQuiescent 0, .releaseLease 0,
    .lateCallback threadSite 0 true true .submitted]

theorem reopened_stage_is_not_watched :
    ∃ s, (epochSystem .stage (some 5)).run { configured := .stage, idleTimeout := some 5 }
        reopenedRun = some s ∧ (epochSystem .stage (some 5)).Reachable s ∧
      s.hasActiveWorkLocked = true ∧ s.isSealed = false ∧ s.idleTimer = none ∧ ¬ s.Watched := by
  have hend : ((epochSystem .stage (some 5)).run
      { configured := .stage, idleTimeout := some 5 } reopenedRun).any (fun s =>
        decide (s.idleTimeout = some 5 ∧ s.hasActiveWorkLocked = true ∧ s.isSealed = false ∧
          s.idleTimer = none)) = true := by
    decide
  obtain ⟨s, hrun, hs⟩ := (Option.any_eq_true _ _).mp hend
  obtain ⟨htimeout, hactive, hopen, htimer⟩ := of_decide_eq_true hs
  refine ⟨s, hrun, System.reachable_of_run reopenedRun rfl hrun, hactive, hopen, htimer,
    fun hwatched => ?_⟩
  obtain ⟨i, -, hi, -⟩ := hwatched 5 htimeout hactive hopen
  rw [htimer] at hi
  cases hi

end EpochState

end AgentlyStage
