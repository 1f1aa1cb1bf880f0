import Mathlib.Data.List.Forall2
import AgentlyStage.LocalScopeLaws

/-!
# Outcomes and closing of the local task scope

Each adoption ends in one call of `_on_done`, which is told how the task has ended.  `close`
refuses further work before it looks at anything else, so that a scope whose `close` has
returned is empty and stays so; a `close` that a guard or a timeout has stopped can be repeated.
-/

namespace AgentlyStage

open Transition

namespace LocalTaskScope

variable {s s' : LocalTaskScope} {stage : InventoryState} {t l : Nat}

/-! ## 1. Outcomes -/

/-- The outcome says how the task has ended, and with which origin it has been adopted. -/
def Reports (ends : Nat → Option LocalTaskEnd) (entry : Nat × String)
    (outcome : LocalTaskOutcome) : Prop :=
  ∃ how, ends entry.1 = some how ∧ outcome = .ofEnd entry.1 entry.2 how

/-- What has been observed has been reported to `_on_done`. -/
structure Accounts (s : LocalTaskScope) : Prop where
  ends : ∀ t, (s.taskEnds t).isSome = true ↔ t ∈ s.stage.finished
  outcomes : if s.hasOnDone then List.Forall₂ (Reports s.taskEnds) s.stage.observed s.outcomes
    else s.outcomes = []

/-- A step that ends no task and completes none leaves the accounts. -/
structure KeepsAccounts (s s' : LocalTaskScope) : Prop where
  finished : s'.stage.finished = s.stage.finished
  observed : s'.stage.observed = s.stage.observed
  taskEnds : s'.taskEnds = s.taskEnds
  outcomes : s'.outcomes = s.outcomes
  hasOnDone : s'.hasOnDone = s.hasOnDone

namespace KeepsAccounts

theorem spawn (s : LocalTaskScope) (site : CallSite) (origin : String) :
    KeepsAccounts s (s.spawn site origin) := by
  unfold LocalTaskScope.spawn
  split
  · exact ⟨rfl, rfl, rfl, rfl, rfl⟩
  · split
    · exact ⟨rfl, rfl, rfl, rfl, rfl⟩
    · rename_i l s' hbind
      obtain ⟨-, rfl, -⟩ := bindRunningLoop_spec hbind
      split
      · exact ⟨rfl, rfl, rfl, rfl, rfl⟩
      · exact ⟨rfl, rfl, rfl, rfl, rfl⟩

theorem adopt (s : LocalTaskScope) (site : CallSite) (t : Nat) (origin : String) :
    KeepsAccounts s (s.adopt site t origin) := by
  unfold LocalTaskScope.adopt
  split
  · exact ⟨rfl, rfl, rfl, rfl, rfl⟩
  · split
    · exact ⟨rfl, rfl, rfl, rfl, rfl⟩
    · rename_i l s' hbind
      obtain ⟨-, rfl, -⟩ := bindRunningLoop_spec hbind
      split
      · exact ⟨rfl, rfl, rfl, rfl, rfl⟩
      · exact ⟨rfl, rfl, rfl, rfl, rfl⟩

theorem callStep (hs : s.Bound) (h : s.callStep = some s') : KeepsAccounts s s' := by
  unfold LocalTaskScope.callStep at h
  split at h
  · cases h
  · obtain ⟨stage, hmake, rfl⟩ := Option.map_eq_some_iff.mp h
    obtain ⟨loop, -, rfl⟩ := Option.map_eq_some_iff.mp hmake
    exact ⟨rfl, rfl, rfl, rfl, rfl⟩
  · rename_i site t request hcalling
    obtain ⟨loop, -, rfl⟩ := Option.map_eq_some_iff.mp h
    have hadopt : ∃ epoch adoptedTasks adoptions attaching,
        (s.stage.adopt site t loop request.origin).1 =
          { s.stage with epoch, adoptedTasks, adoptions, attaching } := by
      rcases hs.inv.adopt_spec site t loop request.origin with
        ⟨epoch, -, heq, -⟩ | ⟨epoch, call, -, -, -, heq⟩
      · exact ⟨epoch, _, _, _, heq⟩
      · exact ⟨epoch, _, _, _, heq⟩
    obtain ⟨epoch, adoptedTasks, adoptions, attaching, heq⟩ := hadopt
    split
    · rename_i stage error hstage
      rw [hstage] at heq
      subst heq
      exact ⟨rfl, rfl, rfl, rfl, rfl⟩
    · rename_i stage hstage
      rw [hstage] at heq
      subst heq
      exact ⟨rfl, rfl, rfl, rfl, rfl⟩
  · obtain ⟨call, -, h⟩ := Option.bind_eq_some_iff.mp h
    obtain ⟨stage, hattach, rfl⟩ := Option.map_eq_some_iff.mp h
    have hspec : stage.finished = s.stage.finished ∧ stage.observed = s.stage.observed := by
      obtain ⟨call, -, ⟨-, rfl⟩ | ⟨-, attached, scheduled, cancelRequests, rfl, -⟩⟩ :=
        InventoryState.attach_spec hattach
      · exact ⟨rfl, rfl⟩
      · exact ⟨rfl, rfl⟩
    split
    · exact ⟨hspec.1, hspec.2, rfl, rfl, rfl⟩
    · exact ⟨hspec.1, hspec.2, rfl, rfl, rfl⟩

theorem callbackEnds {how : CallbackEnd} (h : s.callbackEnds how = some s') :
    KeepsAccounts s s' := by
  unfold LocalTaskScope.callbackEnds at h
  split at h
  · obtain ⟨call, -, h⟩ := Option.bind_eq_some_iff.mp h
    obtain ⟨stage, hstage, rfl⟩ := Option.map_eq_some_iff.mp h
    obtain ⟨call, -, rfl⟩ := Option.map_eq_some_iff.mp hstage
    generalize how.observerEnd = ends
    cases ends with
    | returned => exact ⟨rfl, rfl, rfl, rfl, rfl⟩
    | reported => exact ⟨rfl, rfl, rfl, rfl, rfl⟩
    | handlerExits => exact ⟨rfl, rfl, rfl, rfl, rfl⟩
  · cases h

theorem threaded {i : Nat} {barrier : LocalBarrier} (h : Threaded s i barrier s') :
    KeepsAccounts s s' := by
  have hwaits : ∀ {w stage s'}, s.stage.OnlyWaits stage → Waits s i w barrier stage s' →
      KeepsAccounts s s' := by
    intro w stage s' honly hwaits
    have hfinished : stage.finished = s.stage.finished := by rw [honly.frame]
    have hobserved : stage.observed = s.stage.observed := by rw [honly.frame]
    cases hwaits with
    | returned h => exact ⟨hfinished, hobserved, rfl, rfl, rfl⟩
    | timedOut h => exact ⟨hfinished, hobserved, rfl, rfl, rfl⟩
    | blocked hreturned htimedOut => exact ⟨hfinished, hobserved, rfl, rfl, rfl⟩
  cases h with
  | starts hphase hbody => exact ⟨rfl, rfl, rfl, rfl, rfl⟩
  | cancels hphase hbody hfree hwork => exact ⟨rfl, rfl, rfl, rfl, rfl⟩
  | idle hphase hbody hidle => exact ⟨rfl, rfl, rfl, rfl, rfl⟩
  | completed hphase hbody hcompleted => exact ⟨rfl, rfl, rfl, rfl, rfl⟩
  | seals hphase hbody hfree hlock hcompleted => exact ⟨rfl, rfl, rfl, rfl, rfl⟩
  | enters hphase hwait h => exact hwaits (InventoryState.waitSettled_spec hwait) h
  | wakes hphase hwake h => exact hwaits (InventoryState.wake_spec hwake) h
  | completes hphase hfree => exact ⟨rfl, rfl, rfl, rfl, rfl⟩

theorem awaited {i : Nat} {barrier : LocalBarrier} (h : Awaited s i barrier s') :
    KeepsAccounts s s' := by
  cases h with
  | ended => exact ⟨rfl, rfl, rfl, rfl, rfl⟩
  | withdrawn hqueued => exact ⟨rfl, rfl, rfl, rfl, rfl⟩
  | closes called hclose hfinished hkind hbody hphase => exact ⟨rfl, rfl, rfl, rfl, rfl⟩
  | completes hclose hphase hbody => exact ⟨rfl, rfl, rfl, rfl, rfl⟩

theorem called {running : Option Nat} {kind : LocalBarrierKind} (h : Called s running kind s') :
    KeepsAccounts s s' := by
  cases h with
  | refused called hover => exact ⟨rfl, rfl, rfl, rfl, rfl⟩
  | ended called hover hloop => exact ⟨rfl, rfl, rfl, rfl, rfl⟩
  | goes called hkind hbody hphase hrunning hloop => exact ⟨rfl, rfl, rfl, rfl, rfl⟩

theorem accounts (h : KeepsAccounts s s') (hs : s.Accounts) : s'.Accounts := by
  refine ⟨fun t => ?_, ?_⟩
  · rw [h.taskEnds, h.finished]
    exact hs.ends t
  · rw [h.hasOnDone, h.taskEnds, h.observed, h.outcomes]
    exact hs.outcomes

end KeepsAccounts

namespace Accounts

/-- A task that ends has not been observed. -/
theorem finish (hs : s.Accounts) {how : LocalTaskEnd} (h : s.finish t how = some s') :
    s'.Accounts := by
  unfold LocalTaskScope.finish at h
  split at h
  · obtain ⟨stage, hstage, rfl⟩ := Option.map_eq_some_iff.mp h
    unfold InventoryState.finish at hstage
    split at hstage
    · rename_i hguard
      cases hstage
      refine ⟨fun u => ?_, ?_⟩
      · change (Function.update s.taskEnds t (some how) u).isSome = true ↔
          u ∈ s.stage.finished ++ [t]
        rw [List.mem_append, List.mem_singleton]
        by_cases heq : u = t
        · subst heq
          rw [Function.update_self]
          exact ⟨fun _ => Or.inr rfl, fun _ => rfl⟩
        · rw [Function.update_of_ne heq, hs.ends u]
          exact ⟨Or.inl, fun hor => hor.resolve_right heq⟩
      · have houtcomes := hs.outcomes
        change if s.hasOnDone then List.Forall₂
          (Reports (Function.update s.taskEnds t (some how))) s.stage.observed s.outcomes
          else s.outcomes = []
        split
        · rename_i hhas
          rw [if_pos hhas] at houtcomes
          refine houtcomes.imp fun entry outcome => ?_
          rintro ⟨ended, hended, rfl⟩
          have hne : entry.1 ≠ t := by
            rintro rfl
            exact hguard.2 ((hs.ends _).mp (by rw [hended]; rfl))
          exact ⟨ended, (Function.update_of_ne hne _ _).trans hended, rfl⟩
        · rename_i hnone
          rw [if_neg hnone] at houtcomes
          exact houtcomes
    · cases hstage
  · cases h

theorem taskDone (hbound : s.Bound) (hs : s.Accounts) (h : s.taskDone t = some s') :
    s'.Accounts := by
  obtain ⟨stage, how, origin, -, hstage, horigin, hhow, hend⟩ := taskDone_spec h
  obtain ⟨origin', epoch, observing, -, -, -, hobserving, rfl⟩ :=
    hbound.inv.adoptedTaskDone_spec hstage
  have hobserved := hobserving hbound.hasObserver
  subst hobserved
  have heq : origin' = origin := Option.some.inj horigin
  subst heq
  have houtcomes := hs.outcomes
  rcases hend with ⟨hhas, rfl⟩ | ⟨hnone, ended, hended, rfl⟩
  · refine ⟨hs.ends, ?_⟩
    rw [if_pos hhas] at houtcomes
    rw [if_pos (show _ = true from hhas)]
    change List.Forall₂ (Reports s.taskEnds)
      (if s.stage.hasObserver then s.stage.observed ++ [(t, origin')] else s.stage.observed)
      (s.outcomes ++ [.ofEnd t origin' how])
    rw [if_pos hbound.hasObserver]
    exact List.rel_append houtcomes (.cons ⟨how, hhow, rfl⟩ .nil)
  · obtain ⟨call, -, rfl⟩ := Option.map_eq_some_iff.mp hended
    refine ⟨hs.ends, ?_⟩
    rw [if_neg (by simp [hnone])] at houtcomes
    rw [if_neg (by simp [hnone])]
    exact houtcomes

theorem step {e : LocalEvent} (hbound : s.Bound) (hs : s.Accounts) (h : s.step e = some s') :
    s'.Accounts := by
  cases e with
  | newTask loop =>
    cases h
    exact ⟨hs.ends, hs.outcomes⟩
  | loopChanges loop status =>
    simp only [LocalTaskScope.step, InventoryState.step] at h
    split at h
    · cases h
    · obtain ⟨stage, hstage, rfl⟩ := Option.map_eq_some_iff.mp h
      split at hstage
      · cases hstage
      · cases hstage
        exact ⟨hs.ends, hs.outcomes⟩
  | spawn site origin =>
    simp only [LocalTaskScope.step] at h
    split at h
    · cases h
      exact (KeepsAccounts.spawn s site origin).accounts hs
    · cases h
  | adopt site t origin =>
    simp only [LocalTaskScope.step] at h
    split at h
    · cases h
      exact (KeepsAccounts.adopt s site t origin).accounts hs
    · cases h
  | callStep => exact (KeepsAccounts.callStep hbound h).accounts hs
  | createTaskFails =>
    simp only [LocalTaskScope.step, LocalTaskScope.createTaskFails] at h
    split at h
    · obtain ⟨epoch, -, rfl⟩ := Option.map_eq_some_iff.mp h
      exact ⟨hs.ends, hs.outcomes⟩
    · cases h
  | finish t how => exact hs.finish h
  | taskDone t => exact hs.taskDone hbound h
  | callbackEnds how => exact (KeepsAccounts.callbackEnds h).accounts hs
  | barrier running kind owned task hasTimeout =>
    simp only [LocalTaskScope.step] at h
    split at h
    · cases h
      exact (KeepsAccounts.called
        (LocalTaskScope.called s running kind owned task hasTimeout)).accounts hs
    · cases h
  | threadStep i timeLeft =>
    obtain ⟨barrier, -, hthread⟩ := Option.bind_eq_some_iff.mp h
    exact (KeepsAccounts.threaded (LocalTaskScope.threaded hthread)).accounts hs
  | resume i =>
    simp only [LocalTaskScope.step] at h
    split at h
    · obtain ⟨barrier, -, hresume⟩ := Option.bind_eq_some_iff.mp h
      exact (KeepsAccounts.awaited (resumed hresume)).accounts hs
    · cases h
  | abandon i =>
    simp only [LocalTaskScope.step] at h
    split at h
    · obtain ⟨barrier, -, habandon⟩ := Option.bind_eq_some_iff.mp h
      exact (KeepsAccounts.awaited (abandoned habandon)).accounts hs
    · cases h

end Accounts

theorem accounts_reachable {hasOnDone : Bool} (hs : (localSystem hasOnDone).Reachable s) :
    s.Accounts := by
  refine hs.invariant_of (J := Bound) (I := Accounts) (fun _ => bound_reachable) (fun s hinit => ?_)
    fun _ _ _ hbound hs _ hstep => hs.step hbound hstep
  rw [show s = .new hasOnDone from hinit]
  refine ⟨fun t => ⟨fun h => Bool.noConfusion h, fun h => absurd h List.not_mem_nil⟩, ?_⟩
  split
  · exact .nil
  · rfl

/-! ## 2. A closed scope -/

/-- What a step does to a closed scope: nothing enters, and an empty inventory stays as it
    is. -/
structure Settles (s s' : LocalTaskScope) : Prop where
  closed : s'.closed = true
  adoptions : s'.stage.adoptions = s.stage.adoptions
  tasks : s'.stage.adoptedTasks ⊆ s.stage.adoptedTasks
  isSealed : s.stage.epoch.isSealed = true → s'.stage.epoch.isSealed = true
  drained : s.stage.adoptedTasks = [] → s.stage.observing = none →
    s'.stage.observing = none ∧ s'.outcomes = s.outcomes
  stageCompleted : s.stageCompleted = true → s'.stageCompleted = true
  closeCompleted : s.closeCompleted = true → s'.closeCompleted = true

namespace Settles

/-- Nothing of it changes. -/
theorem of_eq (hclosed : s'.closed = true) (hstage : s'.stage = s.stage)
    (houtcomes : s'.outcomes = s.outcomes)
    (hstageCompleted : s.stageCompleted = true → s'.stageCompleted = true)
    (hcompleted : s.closeCompleted = true → s'.closeCompleted = true) : Settles s s' := by
  refine ⟨hclosed, by rw [hstage], by rw [hstage]; exact fun _ h => h, by rw [hstage]; exact id,
    fun _ hobserving => ⟨?_, houtcomes⟩, hstageCompleted, hcompleted⟩
  rw [hstage]
  exact hobserving

theorem spawn (hclosed : s.closed = true) (site : CallSite) (origin : String) :
    Settles s (s.spawn site origin) := by
  unfold LocalTaskScope.spawn
  rw [if_pos hclosed]
  exact .of_eq hclosed rfl rfl id id

theorem adopt (hclosed : s.closed = true) (site : CallSite) (t : Nat) (origin : String) :
    Settles s (s.adopt site t origin) := by
  unfold LocalTaskScope.adopt
  rw [if_pos hclosed]
  exact .of_eq hclosed rfl rfl id id

theorem finish (hclosed : s.closed = true) {how : LocalTaskEnd} (h : s.finish t how = some s') :
    Settles s s' := by
  unfold LocalTaskScope.finish InventoryState.finish at h
  split at h
  · split at h
    · cases h
      exact ⟨hclosed, rfl, fun _ h => h, id, fun _ hobserving => ⟨hobserving, rfl⟩, id, id⟩
    · cases h
  · cases h

/-- A callback needs an entry of the inventory. -/
theorem taskDone (hbound : s.Bound) (hclosed : s.closed = true) (h : s.taskDone t = some s') :
    Settles s s' := by
  obtain ⟨stage, how, origin, -, hstage, -, -, hend⟩ := taskDone_spec h
  have hsealed := InventoryState.adoptedTaskDone_isSealed hbound.inv hstage
  obtain ⟨origin', epoch, observing, -, hlookup, -, -, rfl⟩ :=
    hbound.inv.adoptedTaskDone_spec hstage
  have hnonempty : s.stage.adoptedTasks ≠ [] := by
    intro hempty
    rw [hempty] at hlookup
    cases hlookup
  rcases hend with ⟨-, rfl⟩ | ⟨-, ended, hended, rfl⟩
  · exact ⟨hclosed, rfl, fun _ hmem => List.mem_of_mem_filter hmem, hsealed.trans,
      fun hempty => absurd hempty hnonempty, id, id⟩
  · have hsealed' := (InventoryState.observerEnds_isSealed hended).trans hsealed
    obtain ⟨call, -, rfl⟩ := Option.map_eq_some_iff.mp hended
    exact ⟨hclosed, rfl, fun _ hmem => List.mem_of_mem_filter hmem, hsealed'.trans,
      fun hempty => absurd hempty hnonempty, id, id⟩

theorem callbackEnds (hclosed : s.closed = true) {how : CallbackEnd}
    (h : s.callbackEnds how = some s') : Settles s s' := by
  unfold LocalTaskScope.callbackEnds at h
  split at h
  · obtain ⟨call, hcall, h⟩ := Option.bind_eq_some_iff.mp h
    obtain ⟨stage, hstage, rfl⟩ := Option.map_eq_some_iff.mp h
    have hshrinks := InventoryState.Shrinks.observerEnds hstage
    have hsealed := InventoryState.observerEnds_isSealed hstage
    have htasks : stage.adoptedTasks = s.stage.adoptedTasks := by
      obtain ⟨call, -, rfl⟩ := Option.map_eq_some_iff.mp hstage
      cases how.observerEnd with
      | returned => rfl
      | reported => rfl
      | handlerExits => rfl
    refine ⟨hclosed, hshrinks.adoptions, fun _ hmem => htasks ▸ hmem, hsealed.trans,
      fun _ hobserving => ?_, id, id⟩
    rw [hcall] at hobserving
    cases hobserving
  · cases h

theorem threaded (hclosed : s.closed = true) {i : Nat} {barrier : LocalBarrier}
    (h : Threaded s i barrier s') : Settles s s' := by
  have hwaits : ∀ {w stage s'}, s.stage.OnlyWaits stage → Waits s i w barrier stage s' →
      Settles s s' := by
    intro w stage s' honly hwaits
    have hshrinks := InventoryState.Shrinks.onlyWaits honly
    have htasks : stage.adoptedTasks = s.stage.adoptedTasks := by rw [honly.frame]
    have hsealed : stage.epoch.isSealed = s.stage.epoch.isSealed := by rw [honly.frame]
    have hobserving : stage.observing = s.stage.observing := by rw [honly.frame]
    cases hwaits with
    | returned h =>
      exact ⟨hclosed, hshrinks.adoptions, fun _ hmem => htasks ▸ hmem, hsealed.trans,
        fun _ hnone => ⟨hobserving.trans hnone, rfl⟩, id, id⟩
    | timedOut h =>
      exact ⟨hclosed, hshrinks.adoptions, fun _ hmem => htasks ▸ hmem, hsealed.trans,
        fun _ hnone => ⟨hobserving.trans hnone, rfl⟩, id, id⟩
    | blocked hreturned htimedOut =>
      exact ⟨hclosed, hshrinks.adoptions, fun _ hmem => htasks ▸ hmem, hsealed.trans,
        fun _ hnone => ⟨hobserving.trans hnone, rfl⟩, id, id⟩
  cases h with
  | starts hphase hbody => exact .of_eq hclosed rfl rfl id id
  | cancels hphase hbody hfree hwork =>
    have hscope := EpochState.KeepsScope.cancelScope s.stage.epoch
    exact ⟨hclosed, rfl, fun _ h => h, hscope.isSealed.trans,
      fun _ hobserving => ⟨hobserving, rfl⟩, id, id⟩
  | idle hphase hbody hidle => exact .of_eq hclosed rfl rfl id id
  | completed hphase hbody hcompleted => exact .of_eq hclosed rfl rfl id id
  | seals hphase hbody hfree hlock hcompleted =>
    exact ⟨hclosed, rfl, fun _ h => h, fun _ => rfl, fun _ hobserving => ⟨hobserving, rfl⟩, id, id⟩
  | enters hphase hwait h => exact hwaits (InventoryState.waitSettled_spec hwait) h
  | wakes hphase hwake h => exact hwaits (InventoryState.wake_spec hwake) h
  | completes hphase hfree => exact .of_eq hclosed rfl rfl (fun _ => rfl) id

theorem awaited (hclosed : s.closed = true) {i : Nat} {barrier : LocalBarrier}
    (h : Awaited s i barrier s') : Settles s s' := by
  cases h with
  | ended => exact .of_eq hclosed rfl rfl id id
  | withdrawn hqueued => exact .of_eq hclosed rfl rfl id id
  | closes called hclose hfinished hkind hbody hphase => exact .of_eq hclosed rfl rfl id id
  | completes hclose hphase hbody => exact .of_eq hclosed rfl rfl id fun _ => rfl

theorem called (hclosed : s.closed = true) {running : Option Nat} {kind : LocalBarrierKind}
    (h : Called s running kind s') : Settles s s' := by
  cases h with
  | refused called hover => exact .of_eq hclosed rfl rfl id id
  | ended called hover hloop => exact .of_eq hclosed rfl rfl id id
  | goes called hkind hbody hphase hrunning hloop =>
    refine .of_eq ?_ rfl rfl id id
    change (s.closed || kind.isClose) = true
    rw [hclosed, Bool.true_or]

theorem of_step {e : LocalEvent} (hbound : s.Bound) (hclosed : s.closed = true)
    (h : s.step e = some s') : Settles s s' := by
  have hcalling := hbound.idle hclosed
  cases e with
  | newTask loop =>
    cases h
    exact ⟨hclosed, rfl, fun _ h => h, id, fun _ hobserving => ⟨hobserving, rfl⟩, id, id⟩
  | loopChanges loop status =>
    simp only [step, InventoryState.step] at h
    split at h
    · cases h
    · split at h
      · cases h
      · cases h
        exact ⟨hclosed, rfl, fun _ h => h, id, fun _ hobserving => ⟨hobserving, rfl⟩, id, id⟩
  | spawn site origin =>
    simp only [step] at h
    split at h
    · cases h
      exact spawn hclosed site origin
    · cases h
  | adopt site t origin =>
    simp only [step] at h
    split at h
    · cases h
      exact adopt hclosed site t origin
    · cases h
  | callStep => simp [step, callStep, hcalling] at h
  | createTaskFails => simp [step, createTaskFails, hcalling] at h
  | finish t how => exact finish hclosed h
  | taskDone t => exact taskDone hbound hclosed h
  | callbackEnds how => exact callbackEnds hclosed h
  | barrier running kind owned task hasTimeout =>
    simp only [step] at h
    split at h
    · cases h
      exact called hclosed (LocalTaskScope.called s running kind owned task hasTimeout)
    · cases h
  | threadStep i timeLeft =>
    obtain ⟨barrier, -, hthread⟩ := Option.bind_eq_some_iff.mp h
    exact threaded hclosed (LocalTaskScope.threaded hthread)
  | resume i =>
    simp only [step] at h
    split at h
    · obtain ⟨barrier, -, hresume⟩ := Option.bind_eq_some_iff.mp h
      exact awaited hclosed (resumed hresume)
    · cases h
  | abandon i =>
    simp only [step] at h
    split at h
    · obtain ⟨barrier, -, habandon⟩ := Option.bind_eq_some_iff.mp h
      exact awaited hclosed (abandoned habandon)
    · cases h

end Settles

/-! ## 3. Closing -/

/-- The scope is closed, and its Stage sealed and without work. -/
structure Drained (s : LocalTaskScope) : Prop where
  closed : s.closed = true
  isSealed : s.stage.epoch.isSealed = true
  adoptedTasks : s.stage.adoptedTasks = []
  observing : s.stage.observing = none

theorem Drained.step {e : LocalEvent} (hs : s.Drained) (hbound : s.Bound)
    (h : s.step e = some s') : s'.Drained := by
  have hsettles := Settles.of_step hbound hs.closed h
  refine ⟨hsettles.closed, hsettles.isSealed hs.isSealed, ?_,
    (hsettles.drained hs.adoptedTasks hs.observing).1⟩
  refine List.eq_nil_iff_forall_not_mem.mpr fun entry hmem => ?_
  have hempty := hsettles.tasks hmem
  rw [hs.adoptedTasks] at hempty
  cases hempty

/-- What a barrier knows of the Stage. -/
structure Knows (s : LocalTaskScope) (barrier : LocalBarrier) : Prop where
  closes : barrier.phase ≠ .withdrawn → barrier.kind.isClose = true → barrier.body ≠ .waitSettled
  waiting : barrier.body = .close →
    barrier.phase = .entering ∨ (∃ w, barrier.phase = .blocked w) → s.stage.epoch.isSealed = true
  completing : barrier.phase = .completing → barrier.body = .close ∧ s.Drained
  finished : barrier.body = .close → (∃ value, barrier.phase = .finished (.returned value)) →
    s.stageCompleted = true

/-- `_close_completed` is the end of the work, in the Stage and in the scope. -/
structure Closing (s : LocalTaskScope) : Prop where
  barriers : ∀ barrier ∈ s.barriers, s.Knows barrier
  stageCompleted : s.stageCompleted = true → s.Drained
  closeCompleted : s.closeCompleted = true → s.stageCompleted = true

/-- What has been known stays true. -/
structure Stays (s s' : LocalTaskScope) : Prop where
  isSealed : s.stage.epoch.isSealed = true → s'.stage.epoch.isSealed = true
  drained : s.Drained → s'.Drained
  stageCompleted : s.stageCompleted = true → s'.stageCompleted = true
  closeCompleted : s.closeCompleted = true → s'.closeCompleted = true

theorem Stays.knows (h : Stays s s') {barrier : LocalBarrier} (hknows : s.Knows barrier) :
    s'.Knows barrier :=
  ⟨hknows.closes, fun hbody hphase => h.isSealed (hknows.waiting hbody hphase),
    fun hphase => (hknows.completing hphase).imp_right h.drained,
    fun hbody hphase => h.stageCompleted (hknows.finished hbody hphase)⟩

/-- A barrier that is over before its thread has started knows nothing. -/
theorem Knows.of_withdrawn {barrier : LocalBarrier} (hphase : barrier.phase = .withdrawn) :
    s.Knows barrier := by
  refine ⟨fun hstarted => absurd hphase hstarted, fun _ hwaiting => ?_, fun hcompleting => ?_,
    fun _ hfinished => ?_⟩
  · rcases hwaiting with hentering | ⟨w, hblocked⟩
    · rw [hphase] at hentering
      cases hentering
    · rw [hphase] at hblocked
      cases hblocked
  · rw [hphase] at hcompleting
    cases hcompleting
  · obtain ⟨value, hvalue⟩ := hfinished
    rw [hphase] at hvalue
    cases hvalue

theorem Knows.of_queued {barrier : LocalBarrier} (hphase : barrier.phase = .queued)
    (hcloses : barrier.kind.isClose = true → barrier.body ≠ .waitSettled) : s.Knows barrier := by
  refine ⟨fun _ => hcloses, fun _ hwaiting => ?_, fun hcompleting => ?_, fun _ hfinished => ?_⟩
  · rcases hwaiting with hentering | ⟨w, hblocked⟩
    · rw [hphase] at hentering
      cases hentering
    · rw [hphase] at hblocked
      cases hblocked
  · rw [hphase] at hcompleting
    cases hcompleting
  · obtain ⟨value, hvalue⟩ := hfinished
    rw [hphase] at hvalue
    cases hvalue

/-- A wait that returns at once finds the Stage without work. -/
theorem idle_of_entered (hbound : s.Bound) (h : s.stage.waitSettled .other = some stage)
    (hreturned : stage.waits[s.stage.waits.length]? = some .returned) :
    s.stage.adoptedTasks = [] ∧ s.stage.observing = none := by
  have hnot : s.stage.waits[s.stage.waits.length]? ≠ some .returned := by simp
  have hidle := ((InventoryState.waitSettled_spec h).returned _ hnot hreturned).1
  refine ⟨hbound.inv.adoptedTasks_of_idle hidle, ?_⟩
  unfold InventoryState.waitSettled at h
  split at h
  · rename_i hfree
    simpa [InventoryState.lockFree] using hfree
  · cases h

/-- So does a wait that wakes to return. -/
theorem idle_of_woken (hbound : s.Bound) {w : Nat} {timeLeft : Bool}
    (h : s.stage.wake w timeLeft = some stage)
    (hreturned : stage.waits[w]? = some .returned) :
    s.stage.adoptedTasks = [] ∧ s.stage.observing = none := by
  have hblocked : s.stage.waits[w]? = some .blocked := by
    unfold InventoryState.wake at h
    split at h
    · rename_i hguard
      exact hguard.1
    · cases h
  have hnot : s.stage.waits[w]? ≠ some .returned := by simp [hblocked]
  obtain ⟨hidle, hfree⟩ := (InventoryState.wake_spec h).returned w hnot hreturned
  exact ⟨hbound.inv.adoptedTasks_of_idle hidle, hfree hblocked⟩

namespace Closing

theorem stays {e : LocalEvent} (hs : s.Closing) (hbound : s.Bound) (h : s.step e = some s') :
    Stays s s' := by
  have hsealed : s.stage.epoch.isSealed = true → s.closed = true := by
    intro hsealed
    by_contra hopen
    have hunsealed := hbound.isOpen (by simpa using hopen)
    rw [hsealed] at hunsealed
    cases hunsealed
  refine ⟨fun h' => (Settles.of_step hbound (hsealed h') h).isSealed h', fun h' => h'.step hbound h,
    fun h' => ?_, fun h' => ?_⟩
  · exact (Settles.of_step hbound (hs.stageCompleted h').closed h).stageCompleted h'
  · have hclosed := (hs.stageCompleted (hs.closeCompleted h')).closed
    exact (Settles.of_step hbound hclosed h).closeCompleted h'

/-- The barrier takes a step, and the others know what they have known. -/
theorem set (hs : s.Closing) (hstays : Stays s s') {i : Nat} {barrier : LocalBarrier}
    (hbarriers : s'.barriers = s.barriers.set i barrier) (hknows : s'.Knows barrier)
    (hstage : s'.stageCompleted = true → s.stageCompleted = true ∨ s'.Drained)
    (hclose : s'.closeCompleted = true → s.closeCompleted = true ∨ s'.stageCompleted = true) :
    s'.Closing := by
  refine ⟨fun other hmem => ?_, fun hcompleted => ?_, fun hcompleted => ?_⟩
  · rw [hbarriers] at hmem
    rcases List.mem_or_eq_of_mem_set hmem with hmem | rfl
    · exact hstays.knows (hs.barriers other hmem)
    · exact hknows
  · rcases hstage hcompleted with hwas | hnow
    · exact hstays.drained (hs.stageCompleted hwas)
    · exact hnow
  · rcases hclose hcompleted with hwas | hnow
    · exact hstays.stageCompleted (hs.closeCompleted hwas)
    · exact hnow

/-- The wait of a barrier moves on. -/
theorem waits (hs : s.Closing) (hstays : Stays s s') {i w : Nat} {barrier : LocalBarrier}
    (hmem : barrier ∈ s.barriers)
    (hphase : barrier.phase = .entering ∨ ∃ w, barrier.phase = .blocked w)
    (hclosers : s.Closers)
    (hidle : stage.waits[w]? = some .returned →
      s.stage.adoptedTasks = [] ∧ s.stage.observing = none)
    (h : Waits s i w barrier stage s') : s'.Closing := by
  have hknows := hs.barriers barrier hmem
  have hstarted : barrier.phase ≠ .withdrawn := by
    rcases hphase with hphase | ⟨w, hphase⟩
    · simp [hphase]
    · simp [hphase]
  have hcloses := hknows.closes hstarted
  cases h with
  | returned h =>
    refine hs.set hstays rfl ?_ Or.inl Or.inl
    refine ⟨fun _ => hcloses, fun hbody hwaiting => ?_, fun hcompleting => ?_,
      fun hbody hfinished => ?_⟩
    · exact hstays.isSealed (hknows.waiting hbody hphase)
    · have hbody : barrier.body = .close := by
        cases hb : barrier.body with
        | close => rfl
        | waitSettled => simp [hb] at hcompleting
        | cancelAndWaitSettled => simp [hb] at hcompleting
      obtain ⟨hempty, hobserving⟩ := hidle h
      exact ⟨hbody, hstays.drained ⟨hclosers barrier hmem hstarted (Or.inl hbody),
        hknows.waiting hbody hphase, hempty, hobserving⟩⟩
    · obtain ⟨value, hvalue⟩ := hfinished
      rw [show barrier.body = .close from hbody] at hvalue
      cases hvalue
  | timedOut h =>
    refine hs.set hstays rfl ?_ Or.inl Or.inl
    refine ⟨fun _ => hcloses, fun hbody hwaiting => ?_, fun hcompleting => ?_,
      fun hbody hfinished => ?_⟩
    · exact hstays.isSealed (hknows.waiting hbody hphase)
    · cases hcompleting
    · obtain ⟨value, hvalue⟩ := hfinished
      cases hvalue
  | blocked hreturned htimedOut =>
    refine hs.set hstays rfl ?_ Or.inl Or.inl
    refine ⟨fun _ => hcloses, fun hbody _ => ?_, fun hcompleting => ?_, fun hbody hfinished => ?_⟩
    · exact hstays.isSealed (hknows.waiting hbody hphase)
    · cases hcompleting
    · obtain ⟨value, hvalue⟩ := hfinished
      cases hvalue

theorem threaded (hs : s.Closing) (hbound : s.Bound) (hclosers : s.Closers) (hstays : Stays s s')
    {i : Nat} {barrier : LocalBarrier} (hmem : barrier ∈ s.barriers) (h : Threaded s i barrier s') :
    s'.Closing := by
  have hknows := hs.barriers barrier hmem
  cases h with
  | starts hphase hbody =>
    refine hs.set hstays rfl ⟨fun _ => hknows.closes (by simp [hphase]), fun hclose => ?_,
      fun hcompleting => ?_, fun hclose => ?_⟩ Or.inl Or.inl
    · cases hbody.symm.trans hclose
    · cases hcompleting
    · cases hbody.symm.trans hclose
  | cancels hphase hbody hfree hwork =>
    refine hs.set hstays rfl ⟨fun _ => hknows.closes (by simp [hphase]), fun hclose => ?_,
      fun hcompleting => ?_, fun hclose => ?_⟩ Or.inl Or.inl
    · cases hbody.symm.trans hclose
    · cases hcompleting
    · cases hbody.symm.trans hclose
  | idle hphase hbody hidle =>
    refine hs.set hstays rfl ⟨fun _ => hknows.closes (by simp [hphase]), fun hclose => ?_,
      fun hcompleting => ?_, fun hclose => ?_⟩ Or.inl Or.inl
    · cases hbody.symm.trans hclose
    · cases hcompleting
    · cases hbody.symm.trans hclose
  | completed hphase hbody hcompleted =>
    refine hs.set hstays rfl ⟨fun _ => hknows.closes (by simp [hphase]), fun _ hwaiting => ?_,
      fun hcompleting => ?_, fun _ _ => hcompleted⟩ Or.inl Or.inl
    · rcases hwaiting with hentering | ⟨w, hblocked⟩
      · cases hentering
      · cases hblocked
    · cases hcompleting
  | seals hphase hbody hfree hlock hcompleted =>
    refine hs.set hstays rfl ⟨fun _ => hknows.closes (by simp [hphase]), fun _ _ => rfl,
      fun hcompleting => ?_, fun _ hfinished => ?_⟩ Or.inl Or.inl
    · cases hcompleting
    · obtain ⟨value, hvalue⟩ := hfinished
      cases hvalue
  | enters hphase hwait h =>
    exact hs.waits hstays hmem (Or.inl hphase) hclosers (idle_of_entered hbound hwait) h
  | wakes hphase hwake h =>
    exact hs.waits hstays hmem (Or.inr ⟨_, hphase⟩) hclosers (idle_of_woken hbound hwake) h
  | completes hphase hfree =>
    have hdrained := hstays.drained (hknows.completing hphase).2
    refine hs.set hstays rfl ⟨fun _ => hknows.closes (by simp [hphase]), fun _ hwaiting => ?_,
      fun hcompleting => ?_, fun _ _ => rfl⟩ (fun _ => Or.inr hdrained) Or.inl
    · rcases hwaiting with hentering | ⟨w, hblocked⟩
      · cases hentering
      · cases hblocked
    · cases hcompleting

theorem awaited (hs : s.Closing) (hstays : Stays s s') {i : Nat} {barrier : LocalBarrier}
    (hmem : barrier ∈ s.barriers) (h : Awaited s i barrier s') : s'.Closing := by
  have hknows := hstays.knows (hs.barriers barrier hmem)
  cases h with
  | ended =>
    exact hs.set hstays rfl ⟨hknows.closes, hknows.waiting, hknows.completing, hknows.finished⟩
      Or.inl Or.inl
  | withdrawn hqueued => exact hs.set hstays rfl (.of_withdrawn rfl) Or.inl Or.inl
  | closes called hclose hfinished hkind hbody hphase =>
    refine hs.set hstays rfl ?_ Or.inl Or.inl
    rcases hphase with hphase | hphase
    · exact .of_queued hphase fun _ => by simp [hbody]
    · exact .of_withdrawn hphase
  | completes hclose hphase hbody =>
    have hnot := hknows.closes (by simp [hphase]) hclose
    have hcloses : barrier.body = .close := by
      cases hb : barrier.body with
      | close => rfl
      | waitSettled => exact absurd hb hnot
      | cancelAndWaitSettled => exact absurd hb hbody
    exact hs.set hstays rfl ⟨hknows.closes, hknows.waiting, hknows.completing, hknows.finished⟩
      Or.inl fun _ => Or.inr (hknows.finished hcloses ⟨_, hphase⟩)

/-- Another barrier is there. -/
theorem append (hs : s.Closing) (hstays : Stays s s') {called : LocalBarrier}
    (hbarriers : s'.barriers = s.barriers ++ [called]) (hknows : s'.Knows called)
    (hstage : s'.stageCompleted = s.stageCompleted)
    (hclose : s'.closeCompleted = s.closeCompleted) : s'.Closing := by
  refine ⟨fun other hmem => ?_, fun hcompleted => ?_, fun hcompleted => ?_⟩
  · rw [hbarriers] at hmem
    rcases List.mem_append.mp hmem with hmem | hmem
    · exact hstays.knows (hs.barriers other hmem)
    · rw [List.mem_singleton.mp hmem]
      exact hknows
  · exact hstays.drained (hs.stageCompleted (hstage.symm.trans hcompleted))
  · rw [hstage]
    exact hs.closeCompleted (hclose.symm.trans hcompleted)

theorem called (hs : s.Closing) (hstays : Stays s s') {running : Option Nat}
    {kind : LocalBarrierKind} (h : Called s running kind s') : s'.Closing := by
  cases h with
  | refused called hover => exact hs.append hstays rfl (.of_withdrawn hover) rfl rfl
  | ended called hover hloop => exact hs.append hstays rfl (.of_withdrawn hover) rfl rfl
  | goes called hkind hbody hphase hrunning hloop =>
    refine hs.append hstays rfl ?_ rfl rfl
    rcases hphase with hphase | hphase
    · refine .of_queued hphase fun hclose => ?_
      rw [hkind] at hclose
      rw [hbody]
      cases kind with
      | close cancel =>
        cases cancel with
        | false => exact fun heq => by cases heq
        | true => exact fun heq => by cases heq
      | waitSettled => cases hclose
      | cancelAndWait => cases hclose
    · exact .of_withdrawn hphase

theorem step {e : LocalEvent} (hs : s.Closing) (hbound : s.Bound) (hclosers : s.Closers)
    (h : s.step e = some s') : s'.Closing := by
  have hstays := hs.stays hbound h
  rcases Bool.eq_false_or_eq_true (ofBarrier e) with he | he
  · cases e with
    | barrier running kind owned task hasTimeout =>
      simp only [LocalTaskScope.step] at h
      split at h
      · cases h
        exact hs.called hstays (LocalTaskScope.called s running kind owned task hasTimeout)
      · cases h
    | threadStep i timeLeft =>
      obtain ⟨barrier, hget, hthread⟩ := Option.bind_eq_some_iff.mp h
      exact hs.threaded hbound hclosers hstays (List.mem_of_getElem? hget)
        (LocalTaskScope.threaded hthread)
    | resume i =>
      simp only [LocalTaskScope.step] at h
      split at h
      · obtain ⟨barrier, hget, hresume⟩ := Option.bind_eq_some_iff.mp h
        exact hs.awaited hstays (List.mem_of_getElem? hget) (resumed hresume)
      · cases h
    | abandon i =>
      simp only [LocalTaskScope.step] at h
      split at h
      · obtain ⟨barrier, hget, habandon⟩ := Option.bind_eq_some_iff.mp h
        exact hs.awaited hstays (List.mem_of_getElem? hget) (abandoned habandon)
      · cases h
    | newTask loop => cases he
    | loopChanges loop status => cases he
    | spawn site origin => cases he
    | adopt site t origin => cases he
    | callStep => cases he
    | createTaskFails => cases he
    | finish t how => cases he
    | taskDone t => cases he
    | callbackEnds how => cases he
  · have hkeeps := keepsBarriers he h
    refine ⟨fun barrier hmem => ?_, fun hcompleted => ?_, fun hcompleted => ?_⟩
    · rw [hkeeps.barriers] at hmem
      exact hstays.knows (hs.barriers barrier hmem)
    · rw [hkeeps.stageCompleted] at hcompleted
      exact hstays.drained (hs.stageCompleted hcompleted)
    · rw [hkeeps.closeCompleted] at hcompleted
      exact hstays.stageCompleted (hs.closeCompleted hcompleted)

end Closing

theorem closing_reachable {hasOnDone : Bool} (hs : (localSystem hasOnDone).Reachable s) :
    s.Closing := by
  refine hs.invariant_of (J := fun s => s.Bound ∧ s.Closers) (I := Closing)
    (fun _ hs => ⟨bound_reachable hs, closers_reachable hs⟩) (fun s hinit => ?_)
    fun _ _ _ hinv hs _ hstep => hs.step hinv.1 hinv.2 hstep
  rw [show s = .new hasOnDone from hinit]
  exact ⟨fun barrier hmem => absurd hmem List.not_mem_nil, fun h => Bool.noConfusion h,
    fun h => Bool.noConfusion h⟩

/-! ## 4. The contract of the scope -/

/-- What holds of a local task scope at any time. -/
structure LocalLaws (s : LocalTaskScope) : Prop where
  /-- The Stage of the scope is an inventory. -/
  stage : (inventorySystem .auto none true).Reachable s.stage
  /-- No callback is lost. -/
  tracked : s.stage.Tracked
  tasks : ∀ t ∈ s.pendingTasks, s.stage.loopOf t = s.loop
  /-- The Stage refuses nothing but a second origin, and no `spawn` has to give up its task. -/
  refusals : ∀ entry ∈ s.refusals, OwnRefusal entry.1 entry.2
  givenUp : s.givenUp = []
  /-- Each task that has left has been reported, with its origin and its end. -/
  outcomes : s.hasOnDone = true → List.Forall₂ (Reports s.taskEnds) s.stage.departed s.outcomes
  /-- What has been adopted has left when `close` has returned. -/
  completed : s.closeCompleted = true → s.closed = true ∧ s.pendingCount = 0 ∧
    s.stage.observing = none ∧ s.stage.departed.Perm s.stage.adoptions

/-- **The local task scope.**  The facade runs its Stage without losing a callback, reports
    each adoption once with the end of its task, lets the Stage refuse nothing but a second
    origin, and is empty when `close` has returned. -/
theorem local_scope_laws {hasOnDone : Bool} (hs : (localSystem hasOnDone).Reachable s) :
    s.LocalLaws := by
  have hbound := bound_reachable hs
  have htracked := hbound.inv.tracked_iff.mpr hbound.orphans
  have hobserved : s.stage.observed = s.stage.departed := by
    rw [htracked.observed, if_pos hbound.hasObserver]
  refine ⟨(simulates hasOnDone).reachable hs, htracked, hbound.tasks, hbound.refusals,
    hbound.givenUp, fun hhas => ?_, fun hcompleted => ?_⟩
  · have houtcomes := (accounts_reachable hs).outcomes
    rw [if_pos hhas, hobserved] at houtcomes
    exact houtcomes
  · have hclosing := closing_reachable hs
    have hdrained := hclosing.stageCompleted (hclosing.closeCompleted hcompleted)
    refine ⟨hdrained.closed, ?_, hdrained.observing, ?_⟩
    · rw [pendingCount, hdrained.adoptedTasks]
      rfl
    · rw [← hobserved]
      exact hbound.inv.observed_perm hdrained.adoptedTasks hbound.hasObserver

/-- What a run does to a closed scope. -/
structure ClosedRun (s s' : LocalTaskScope) : Prop where
  closed : s'.closed = true
  /-- Nothing is submitted any more. -/
  adoptions : s'.stage.adoptions = s.stage.adoptions
  pending : s'.pendingTasks ⊆ s.pendingTasks
  /-- A `close` that has returned has been the end. -/
  completed : s.closeCompleted = true → s'.closeCompleted = true ∧ s'.pendingCount = 0 ∧
    s'.outcomes = s.outcomes

/-- **A closed scope stays closed**, whatever is called on it: no work enters, and when its
    `close` has returned nothing happens to it any more. -/
theorem local_scope_final {hasOnDone : Bool} {es : List LocalEvent}
    (hs : (localSystem hasOnDone).Reachable s) (hclosed : s.closed = true)
    (hrun : (localSystem hasOnDone).run s es = some s') : s.ClosedRun s' := by
  have hstart : (localSystem hasOnDone).Reachable s ∧ s.ClosedRun s := by
    refine ⟨hs, hclosed, rfl, fun _ h => h, fun hcompleted => ⟨hcompleted, ?_, rfl⟩⟩
    have hclosing := closing_reachable hs
    rw [pendingCount, (hclosing.stageCompleted (hclosing.closeCompleted hcompleted)).adoptedTasks]
    rfl
  refine (System.run_invariant (I := fun u => (localSystem hasOnDone).Reachable u ∧ s.ClosedRun u)
    ?_ hstart hrun).2
  rintro u e u' ⟨hu, hrunning⟩ hstep
  have hsettles := Settles.of_step (bound_reachable hu) hrunning.closed hstep
  have hsubset : u'.pendingTasks ⊆ u.pendingTasks := List.map_subset _ hsettles.tasks
  refine ⟨.step hu trivial hstep, hsettles.closed, hsettles.adoptions.trans hrunning.adoptions,
    fun t ht => hrunning.pending (hsubset ht), fun hcompleted => ?_⟩
  obtain ⟨hdone, -, houtcomes⟩ := hrunning.completed hcompleted
  have hclosing := closing_reachable hu
  have hdrained := hclosing.stageCompleted (hclosing.closeCompleted hdone)
  have hnext := hdrained.step (bound_reachable hu) hstep
  refine ⟨hsettles.closeCompleted hdone, ?_, ?_⟩
  · rw [pendingCount, hnext.adoptedTasks]
    rfl
  · exact (hsettles.drained hdrained.adoptedTasks hdrained.observing).2.trans houtcomes

/-! ### A scope with two tasks -/

/-- One task is spawned and one adopted, on a debug loop; `close` times out once, and a second
    `close` returns when both have ended. -/
def twoTasksRun : List LocalEvent :=
  let main : CallSite := ⟨false, some 0, none, true, none, []⟩
  [.loopChanges 0 ⟨.running, true⟩, .newTask 0, .finish 0 (.raised 7),
    .spawn main "flow:root", .callStep, .callStep, .callStep,
    .adopt main 0 "event:late", .callStep, .callStep,
    .barrier (some 0) (.close false) false none true,
    .threadStep 0 true, .threadStep 0 true, .threadStep 0 false, .resume 0,
    .spawn main "flow:refused", .finish 1 .returned, .taskDone 0, .callbackEnds .reported,
    .taskDone 1, .callbackEnds .returned,
    .barrier (some 0) (.close false) false none false,
    .threadStep 1 true, .threadStep 1 true, .threadStep 1 true, .resume 1]

theorem local_scope_laws_twoTasksRun : ∃ s,
    (localSystem true).run (.new true) twoTasksRun = some s ∧ s.closeCompleted = true ∧
      s.outcomes = [⟨0, "event:late", false, some 7⟩, ⟨1, "flow:root", false, none⟩] ∧
      s.LocalLaws := by
  obtain ⟨s, hrun⟩ : ∃ s, (localSystem true).run (.new true) twoTasksRun = some s := ⟨_, rfl⟩
  have hend : s.closeCompleted = true ∧
      s.outcomes = [⟨0, "event:late", false, some 7⟩, ⟨1, "flow:root", false, none⟩] := by
    cases hrun
    decide
  exact ⟨s, hrun, hend.1, hend.2, local_scope_laws (System.reachable_of_run twoTasksRun rfl hrun)⟩

/-- The first `close` has closed the scope, and goes on to time out. -/
theorem local_scope_final_twoTasksRun : ∃ s s',
    (localSystem true).run (.new true) (twoTasksRun.take 11) = some s ∧
      s.pendingTasks = [1, 0] ∧ (localSystem true).run s (twoTasksRun.drop 11) = some s' ∧
      s'.closeCompleted = true ∧ s.ClosedRun s' := by
  obtain ⟨s, hrun⟩ : ∃ s, (localSystem true).run (.new true) (twoTasksRun.take 11) = some s :=
    ⟨_, rfl⟩
  obtain ⟨s', hrest⟩ : ∃ s', (localSystem true).run s (twoTasksRun.drop 11) = some s' := by
    cases hrun
    exact ⟨_, rfl⟩
  have hstart : s.closed = true ∧ s.pendingTasks = [1, 0] := by
    cases hrun
    decide
  have hend : s'.closeCompleted = true := by
    cases hrun
    cases hrest
    decide
  exact ⟨s, s', hrun, hstart.2, hrest, hend, local_scope_final
    (System.reachable_of_run (twoTasksRun.take 11) rfl hrun) hstart.1 hrest⟩

end LocalTaskScope

end AgentlyStage
