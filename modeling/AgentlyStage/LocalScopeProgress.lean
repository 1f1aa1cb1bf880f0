import AgentlyStage.LocalScopeClosing

/-!
# A local task scope can always be closed

Whatever has been called on a local task scope, as long as its loop runs it can be closed: the
call in which the thread of the loop is comes to its end, the tasks may end, the loop runs their
callbacks, the thread that holds `_close_operation_lock` leaves it, and a `close` returns.

A Stage that has lost a callback cannot be closed any more; no run of the facade leads there.
-/

namespace AgentlyStage

open Transition

/-- The thread of the barrier is between the lock of `close` and its release. -/
def LocalBarrier.closing (barrier : LocalBarrier) : Bool :=
  decide (barrier.body = .close) &&
    match barrier.phase with
    | .entering | .blocked _ | .completing => true
    | .queued | .finished _ | .withdrawn => false

namespace LocalTaskScope

variable {s s' : LocalTaskScope} {stage : InventoryState} {t l : Nat}

/-! ## 1. The lock and the waits -/

/-- Only the threads of the barriers wait. -/
theorem waits_of_step {e : LocalEvent} (hbound : s.Bound) (he : ofBarrier e = false)
    (h : s.step e = some s') : s'.stage.waits = s.stage.waits := by
  cases e with
  | newTask loop =>
    cases h
    rfl
  | loopChanges loop status =>
    simp only [step, InventoryState.step] at h
    split at h
    · cases h
    · split at h
      · cases h
      · cases h
        rfl
  | spawn site origin =>
    simp only [step] at h
    split at h
    · cases h
      rcases spawn_stage s site origin with heq | ⟨l, -, heq⟩
      · rw [heq]
      · rw [heq]
    · cases h
  | adopt site t origin =>
    simp only [step] at h
    split at h
    · cases h
      rw [adopt_stage]
    · cases h
  | callStep =>
    rcases callStep_stage h with hmake | hattach | ⟨site, t, l, origin, -, heq⟩
    · obtain ⟨loop, -, heq⟩ := Option.map_eq_some_iff.mp hmake
      rw [← heq]
    · obtain ⟨call, -, ⟨-, heq⟩ | ⟨-, attached, scheduled, cancelRequests, heq, -⟩⟩ :=
        InventoryState.attach_spec hattach
      · rw [heq]
      · rw [heq]
    · rw [heq]
      rcases hbound.inv.adopt_spec site t l origin with
        ⟨epoch, -, heq, -⟩ | ⟨epoch, call, -, -, -, heq⟩
      · rw [heq]
      · rw [heq]
  | createTaskFails =>
    simp only [step, createTaskFails] at h
    split at h
    · obtain ⟨epoch, -, rfl⟩ := Option.map_eq_some_iff.mp h
      rfl
    · cases h
  | finish t how =>
    simp only [step, finish, InventoryState.finish] at h
    split at h
    · split at h
      · cases h
        rfl
      · cases h
    · cases h
  | taskDone t =>
    obtain ⟨stage, how, origin, -, hstage, -, -, hend⟩ := taskDone_spec h
    obtain ⟨origin', epoch, observing, -, -, -, -, rfl⟩ := hbound.inv.adoptedTaskDone_spec hstage
    rcases hend with ⟨-, rfl⟩ | ⟨-, ended, hended, rfl⟩
    · rfl
    · obtain ⟨call, -, rfl⟩ := Option.map_eq_some_iff.mp hended
      rfl
  | callbackEnds how =>
    simp only [step, callbackEnds] at h
    split at h
    · obtain ⟨call, -, h⟩ := Option.bind_eq_some_iff.mp h
      obtain ⟨stage, hstage, rfl⟩ := Option.map_eq_some_iff.mp h
      obtain ⟨call, -, rfl⟩ := Option.map_eq_some_iff.mp hstage
      cases how.observerEnd with
      | returned => rfl
      | reported => rfl
      | handlerExits => rfl
    · cases h
  | barrier running kind owned task hasTimeout => cases he
  | threadStep i timeLeft => cases he
  | resume i => cases he
  | abandon i => cases he

/-- The lock of `close` and the waits of the Stage belong to the threads of the barriers. -/
structure Placed (s : LocalTaskScope) : Prop where
  holder : ∀ i, s.closeOperationLock = some i →
    ∃ barrier, s.barriers[i]? = some barrier ∧ barrier.closing = true
  held : ∀ (i : Nat) barrier, s.barriers[i]? = some barrier → barrier.closing = true →
    s.closeOperationLock = some i
  blocked : ∀ (i : Nat) barrier w, s.barriers[i]? = some barrier → barrier.phase = .blocked w →
    s.stage.waits[w]? = some .blocked
  distinct : ∀ (i j : Nat) barrier other w, s.barriers[i]? = some barrier →
    s.barriers[j]? = some other → barrier.phase = .blocked w → other.phase = .blocked w → i = j

namespace Placed

theorem init (hasOnDone : Bool) : (LocalTaskScope.new hasOnDone).Placed where
  holder _ h := by cases h
  held _ _ h := by cases h
  blocked _ _ _ h := by cases h
  distinct _ _ _ _ _ h := by cases h

/-- The barriers, the lock and the waits stay. -/
theorem of_eq (hs : s.Placed) (hbarriers : s'.barriers = s.barriers)
    (hlock : s'.closeOperationLock = s.closeOperationLock)
    (hwaits : s'.stage.waits = s.stage.waits) : s'.Placed := by
  refine ⟨?_, ?_, ?_, ?_⟩
  · rw [hbarriers, hlock]
    exact hs.holder
  · rw [hbarriers, hlock]
    exact hs.held
  · rw [hbarriers, hwaits]
    exact hs.blocked
  · rw [hbarriers]
    exact hs.distinct

/-- A barrier is called that does not hold the lock and does not wait. -/
theorem append (hs : s.Placed) {called : LocalBarrier}
    (hphase : called.phase = .queued ∨ called.phase = .withdrawn)
    (hbarriers : s'.barriers = s.barriers ++ [called])
    (hlock : s'.closeOperationLock = s.closeOperationLock)
    (hwaits : s'.stage.waits = s.stage.waits) : s'.Placed := by
  have hclosing : called.closing = false := by
    rcases hphase with hphase | hphase
    · simp [LocalBarrier.closing, hphase]
    · simp [LocalBarrier.closing, hphase]
  have hblocked : ∀ w, called.phase ≠ .blocked w := by
    intro w
    rcases hphase with hphase | hphase
    · simp [hphase]
    · simp [hphase]
  -- a barrier of the longer list is one of the old ones, or the one that is called
  have hold : ∀ {i : Nat} {barrier}, (s.barriers ++ [called])[i]? = some barrier →
      s.barriers[i]? = some barrier ∨ barrier = called := by
    intro i barrier hget
    rcases Nat.lt_or_ge i s.barriers.length with hi | hi
    · rw [List.getElem?_append_left hi] at hget
      exact Or.inl hget
    · rw [List.getElem?_append_right hi] at hget
      exact Or.inr (List.mem_singleton.mp (List.mem_of_getElem? hget))
  refine ⟨fun i hi => ?_, fun i barrier hget hheld => ?_, fun i barrier w hget hwait => ?_,
    fun i j barrier other w hget hget' hwait hwait' => ?_⟩
  · obtain ⟨barrier, hget, hheld⟩ := hs.holder i (hlock ▸ hi)
    refine ⟨barrier, ?_, hheld⟩
    rw [hbarriers, List.getElem?_append_left (List.getElem?_eq_some_iff.mp hget).1]
    exact hget
  · rw [hlock]
    rcases hold (hbarriers ▸ hget) with hget | rfl
    · exact hs.held i barrier hget hheld
    · rw [hclosing] at hheld
      cases hheld
  · rw [hwaits]
    rcases hold (hbarriers ▸ hget) with hget | rfl
    · exact hs.blocked i barrier w hget hwait
    · exact absurd hwait (hblocked w)
  · rcases hold (hbarriers ▸ hget) with hget | rfl
    · rcases hold (hbarriers ▸ hget') with hget' | rfl
      · exact hs.distinct i j barrier other w hget hget' hwait hwait'
      · exact absurd hwait' (hblocked w)
    · exact absurd hwait (hblocked w)

/-- A barrier takes a step; the wait in which it is afterwards is its own. -/
theorem set (hs : s.Placed) {i : Nat} {barrier next : LocalBarrier}
    (hget : s.barriers[i]? = some barrier) (hbarriers : s'.barriers = s.barriers.set i next)
    (hlock : s'.closeOperationLock =
      if next.closing then some i else if barrier.closing then none else s.closeOperationLock)
    (hfree : next.closing = true → barrier.closing = true ∨ s.closeOperationLock = none)
    (hwaits : ∀ w, s.stage.waits[w]? = some .blocked → barrier.phase ≠ .blocked w →
      s'.stage.waits[w]? = some .blocked)
    (hblocked : ∀ w, next.phase = .blocked w → s'.stage.waits[w]? = some .blocked ∧
      (barrier.phase = .blocked w ∨ s.stage.waits[w]? = none)) : s'.Placed := by
  have hi := (List.getElem?_eq_some_iff.mp hget).1
  have hself : s'.barriers[i]? = some next := by
    rw [hbarriers, List.getElem?_set_self hi]
  have hother : ∀ {j : Nat}, j ≠ i → s'.barriers[j]? = s.barriers[j]? := by
    intro j hne
    rw [hbarriers, List.getElem?_set_ne hne.symm]
  -- nobody else holds the lock when the barrier has held it, or takes it
  have hothers : ∀ {j : Nat} {other}, j ≠ i → s.barriers[j]? = some other →
      other.closing = true → next.closing = false ∧ barrier.closing = false := by
    intro j other hne hother hclosing
    have hheld := hs.held j other hother hclosing
    have hwas : barrier.closing = false := by
      by_contra hwas
      have hboth := (hs.held i barrier hget (by simpa using hwas)).symm.trans hheld
      exact hne (Option.some.inj hboth).symm
    refine ⟨?_, hwas⟩
    by_contra hnow
    rcases hfree (by simpa using hnow) with h | h
    · rw [hwas] at h
      cases h
    · rw [h] at hheld
      cases hheld
  refine ⟨fun j hj => ?_, fun j other hgetj hclosing => ?_, fun j other w hgetj hwait => ?_,
    fun j k other third w hgetj hgetk hwaitj hwaitk => ?_⟩
  · rw [hlock] at hj
    split at hj
    · rename_i hnow
      cases hj
      exact ⟨next, hself, hnow⟩
    · split at hj
      · cases hj
      · rename_i hwas
        obtain ⟨other, hgetj, hclosing⟩ := hs.holder j hj
        have hne : j ≠ i := by
          rintro rfl
          rw [hget] at hgetj
          cases hgetj
          exact hwas hclosing
        exact ⟨other, (hother hne).trans hgetj, hclosing⟩
  · rw [hlock]
    by_cases heq : j = i
    · subst heq
      rw [hself] at hgetj
      cases hgetj
      rw [if_pos hclosing]
    · rw [hother heq] at hgetj
      obtain ⟨hnow, hwas⟩ := hothers heq hgetj hclosing
      rw [if_neg (by simp [hnow]), if_neg (by simp [hwas])]
      exact hs.held j other hgetj hclosing
  · by_cases heq : j = i
    · subst heq
      rw [hself] at hgetj
      cases hgetj
      exact (hblocked w hwait).1
    · rw [hother heq] at hgetj
      refine hwaits w (hs.blocked j other w hgetj hwait) fun hsame => ?_
      exact heq (hs.distinct j i other barrier w hgetj hget hwait hsame)
  · -- a fresh wait is nobody else's
    have hfresh : ∀ {j : Nat} {other}, j ≠ i → s.barriers[j]? = some other →
        other.phase = .blocked w → next.phase ≠ .blocked w := by
      intro j other hne hgetj hwait hnext
      rcases (hblocked w hnext).2 with hsame | hnone
      · exact hne (hs.distinct j i other barrier w hgetj hget hwait hsame)
      · have hold := hs.blocked j other w hgetj hwait
        rw [hnone] at hold
        cases hold
    by_cases hj : j = i
    · by_cases hk : k = i
      · rw [hj, hk]
      · rw [hother hk] at hgetk
        rw [hj, hself] at hgetj
        cases hgetj
        exact absurd hwaitj (hfresh hk hgetk hwaitk)
    · rw [hother hj] at hgetj
      by_cases hk : k = i
      · rw [hk, hself] at hgetk
        cases hgetk
        exact absurd hwaitk (hfresh hj hgetj hwaitj)
      · rw [hother hk] at hgetk
        exact hs.distinct j k other third w hgetj hgetk hwaitj hwaitk

/-- The wait `w` of a barrier moves on: it is a new one, or the one in which the barrier was. -/
theorem waits (hs : s.Placed) {i w : Nat} {barrier : LocalBarrier}
    (hget : s.barriers[i]? = some barrier)
    (hphase : barrier.phase = .entering ∧ s.stage.waits[w]? = none ∨ barrier.phase = .blocked w)
    (hgot : ∃ v, stage.waits[w]? = some v)
    (hkeeps : ∀ v, s.stage.waits[v]? = some .blocked → barrier.phase ≠ .blocked v →
      stage.waits[v]? = some .blocked)
    (h : Waits s i w barrier stage s') : s'.Placed := by
  have hclosing : barrier.closing = decide (barrier.body = .close) := by
    rcases hphase with ⟨hphase, -⟩ | hphase
    · rw [LocalBarrier.closing, hphase, Bool.and_true]
    · rw [LocalBarrier.closing, hphase, Bool.and_true]
  have hheld : barrier.body = .close → s.closeOperationLock = some i := fun hbody =>
    hs.held i barrier hget (by rw [hclosing, decide_eq_true hbody])
  cases h with
  | returned h =>
    refine hs.set hget rfl ?_ (fun hnow => Or.inl ?_) hkeeps fun v hblocked => ?_
    · rw [hclosing]
      cases hbody : barrier.body with
      | close =>
        rw [if_pos (by rfl)]
        exact hheld hbody
      | waitSettled => rfl
      | cancelAndWaitSettled => rfl
    · rw [hclosing]
      exact (Bool.and_eq_true_iff.mp hnow).1
    · cases hbody : barrier.body with
      | close => simp [hbody] at hblocked
      | waitSettled => simp [hbody] at hblocked
      | cancelAndWaitSettled => simp [hbody] at hblocked
  | timedOut h =>
    refine hs.set hget rfl ?_ (fun hnow => ?_) hkeeps fun v hblocked => ?_
    · rw [hclosing, if_neg (by simp [LocalBarrier.closing])]
      by_cases hbody : barrier.body = .close
      · rw [if_pos (decide_eq_true hbody)]
        exact if_pos hbody
      · rw [if_neg (by simp [hbody])]
        exact if_neg hbody
    · simp [LocalBarrier.closing] at hnow
    · cases hblocked
  | blocked hreturned htimedOut =>
    refine hs.set hget rfl ?_ (fun hnow => Or.inl ?_) hkeeps fun v hblocked => ?_
    · rw [hclosing]
      by_cases hbody : barrier.body = .close
      · rw [if_pos (by simp [LocalBarrier.closing, hbody])]
        exact hheld hbody
      · rw [if_neg (by simp [LocalBarrier.closing, hbody]), if_neg (by simp [hbody])]
        rfl
    · rw [hclosing]
      exact (Bool.and_eq_true_iff.mp hnow).1
    · cases hblocked
      obtain ⟨v, hv⟩ := hgot
      refine ⟨?_, hphase.elim (fun h => Or.inr h.2) Or.inl⟩
      cases v with
      | blocked => exact hv
      | returned => exact absurd hv hreturned
      | timedOut => exact absurd hv htimedOut

theorem threaded (hs : s.Placed) (hclosing : s.Closing) {i : Nat} {barrier : LocalBarrier}
    (hget : s.barriers[i]? = some barrier) (h : Threaded s i barrier s') : s'.Placed := by
  -- a thread that does not close neither takes the lock nor gives it back
  have hquiet : ∀ {next : LocalBarrier} {s' : LocalTaskScope}, barrier.phase = .queued →
      s'.barriers = s.barriers.set i next → s'.closeOperationLock = s.closeOperationLock →
      s'.stage.waits = s.stage.waits → next.closing = false → (∀ w, next.phase ≠ .blocked w) →
      s'.Placed := by
    intro next s' hphase hbarriers hlock hwaits hclosing hblocked
    refine hs.set hget hbarriers ?_ (fun hnow => ?_) (fun w hw _ => hwaits ▸ hw)
      fun w hw => absurd hw (hblocked w)
    · rw [if_neg (by simp [hclosing]), if_neg (by simp [LocalBarrier.closing, hphase]), hlock]
    · rw [hclosing] at hnow
      cases hnow
  cases h with
  | starts hphase hbody =>
    exact hquiet hphase rfl rfl rfl (by simp [LocalBarrier.closing, hbody]) (by simp)
  | cancels hphase hbody hfree hwork =>
    exact hquiet hphase rfl rfl rfl (by simp [LocalBarrier.closing, hbody]) (by simp)
  | idle hphase hbody hidle =>
    exact hquiet hphase rfl rfl rfl (by simp [LocalBarrier.closing]) (by simp)
  | completed hphase hbody hcompleted =>
    exact hquiet hphase rfl rfl rfl (by simp [LocalBarrier.closing]) (by simp)
  | seals hphase hbody hfree hlock hcompleted =>
    refine hs.set hget rfl ?_ (fun _ => Or.inr hlock) (fun w hw _ => hw) fun w hw => ?_
    · rw [if_pos (by simp [LocalBarrier.closing, hbody])]
    · cases hw
  | @enters stage _ hphase hwait h =>
    have hwaits : ∃ v, stage.waits = s.stage.waits ++ [v] := by
      unfold InventoryState.waitSettled at hwait
      split at hwait
      · split at hwait
        · split at hwait
          · cases hwait
          · cases hwait
            exact ⟨_, rfl⟩
        · cases hwait
          exact ⟨_, rfl⟩
      · cases hwait
    obtain ⟨v, hv⟩ := hwaits
    refine hs.waits hget (Or.inl ⟨hphase, by simp⟩) ⟨v, ?_⟩ (fun u hu _ => ?_) h
    · rw [hv, List.getElem?_concat_length]
    · rw [hv, List.getElem?_append_left (List.getElem?_eq_some_iff.mp hu).1]
      exact hu
  | @wakes stage w timeLeft _ hphase hwake h =>
    have hwaits : ∃ v, stage.waits = s.stage.waits.set w v := by
      unfold InventoryState.wake at hwake
      split at hwake
      · rename_i hguard
        split at hwake
        · split at hwake
          · cases hwake
            refine ⟨.blocked, ?_⟩
            obtain ⟨hw, heq⟩ := List.getElem?_eq_some_iff.mp hguard.1
            rw [← heq, List.set_getElem_self]
          · cases hwake
            exact ⟨_, rfl⟩
        · cases hwake
          exact ⟨_, rfl⟩
      · cases hwake
    obtain ⟨v, hv⟩ := hwaits
    have hw := (List.getElem?_eq_some_iff.mp (hs.blocked i barrier w hget hphase)).1
    refine hs.waits hget (Or.inr hphase) ⟨v, ?_⟩ (fun u hu hne => ?_) h
    · rw [hv, List.getElem?_set_self hw]
    · have huw : w ≠ u := by
        rintro rfl
        exact hne hphase
      rw [hv, List.getElem?_set_ne huw]
      exact hu
  | completes hphase hfree =>
    have hbody := ((hclosing.barriers barrier (List.mem_of_getElem? hget)).completing hphase).1
    refine hs.set hget rfl ?_ (fun hnow => ?_) (fun w hw _ => hw) fun w hw => ?_
    · rw [if_neg (by simp [LocalBarrier.closing]),
        if_pos (by simp [LocalBarrier.closing, hbody, hphase])]
    · simp [LocalBarrier.closing] at hnow
    · cases hw

theorem awaited (hs : s.Placed) {i : Nat} {barrier : LocalBarrier}
    (hget : s.barriers[i]? = some barrier) (h : Awaited s i barrier s') : s'.Placed := by
  -- the coroutine leaves the lock and the wait to the thread
  have hsame : ∀ {next : LocalBarrier} {s' : LocalTaskScope},
      s'.barriers = s.barriers.set i next → next.closing = barrier.closing →
      (∀ w, next.phase = .blocked w → barrier.phase = .blocked w) →
      s'.closeOperationLock = s.closeOperationLock → s'.stage.waits = s.stage.waits →
      s'.Placed := by
    intro next s' hbarriers hclosing hblocked hlock hwaits
    refine hs.set hget hbarriers ?_ (fun hnow => Or.inl (hclosing ▸ hnow))
      (fun w hw _ => hwaits ▸ hw) fun w hw => ?_
    · rw [hclosing, hlock]
      split
      · rename_i hheld
        exact hs.held i barrier hget hheld
      · rfl
    · have hphase := hblocked w hw
      exact ⟨hwaits ▸ hs.blocked i barrier w hget hphase, Or.inl hphase⟩
  cases h with
  | ended => exact hsame rfl rfl (fun _ h => h) rfl rfl
  | withdrawn hqueued =>
    refine hsame rfl ?_ (fun w hw => by cases hw) rfl rfl
    simp [LocalBarrier.closing, hqueued]
  | closes called hclose hfinished hkind hbody hphase =>
    rcases hphase with hphase | hphase
    · exact hsame rfl (by simp [LocalBarrier.closing, hphase, hfinished]) (by simp [hphase]) rfl rfl
    · exact hsame rfl (by simp [LocalBarrier.closing, hphase, hfinished]) (by simp [hphase]) rfl rfl
  | completes hclose hphase hbody => exact hsame rfl rfl (fun _ h => h) rfl rfl

theorem called (hs : s.Placed) {running : Option Nat} {kind : LocalBarrierKind}
    (h : Called s running kind s') : s'.Placed := by
  cases h with
  | refused called hover => exact hs.append (Or.inr hover) rfl rfl rfl
  | ended called hover hloop => exact hs.append (Or.inr hover) rfl rfl rfl
  | goes called hkind hbody hphase hrunning hloop => exact hs.append hphase rfl rfl rfl

theorem step {e : LocalEvent} (hs : s.Placed) (hbound : s.Bound) (hclosing : s.Closing)
    (h : s.step e = some s') : s'.Placed := by
  rcases Bool.eq_false_or_eq_true (ofBarrier e) with he | he
  · cases e with
    | barrier running kind owned task hasTimeout =>
      simp only [LocalTaskScope.step] at h
      split at h
      · cases h
        exact hs.called (LocalTaskScope.called s running kind owned task hasTimeout)
      · cases h
    | threadStep i timeLeft =>
      obtain ⟨barrier, hget, hthread⟩ := Option.bind_eq_some_iff.mp h
      exact hs.threaded hclosing hget (LocalTaskScope.threaded hthread)
    | resume i =>
      simp only [LocalTaskScope.step] at h
      split at h
      · obtain ⟨barrier, hget, hresume⟩ := Option.bind_eq_some_iff.mp h
        exact hs.awaited hget (resumed hresume)
      · cases h
    | abandon i =>
      simp only [LocalTaskScope.step] at h
      split at h
      · obtain ⟨barrier, hget, habandon⟩ := Option.bind_eq_some_iff.mp h
        exact hs.awaited hget (abandoned habandon)
      · cases h
    | newTask loop => cases he
    | loopChanges loop status => cases he
    | spawn site origin => cases he
    | adopt site t origin => cases he
    | callStep => cases he
    | createTaskFails => cases he
    | finish t how => cases he
    | taskDone t => cases he
    | callbackEnds how => cases he
  · have hkeeps := keepsBarriers he h
    exact hs.of_eq hkeeps.barriers hkeeps.closeOperationLock (waits_of_step hbound he h)

end Placed

theorem placed_reachable {hasOnDone : Bool} (hs : (localSystem hasOnDone).Reachable s) :
    s.Placed := by
  refine hs.invariant_of (J := fun s => s.Bound ∧ s.Closing) (I := Placed)
    (fun _ hs => ⟨bound_reachable hs, closing_reachable hs⟩) (fun s hinit => ?_)
    fun _ _ _ hinv hs _ hstep => hs.step hinv.1 hinv.2 hstep
  rw [show s = .new hasOnDone from hinit]
  exact .init hasOnDone

/-! ## 2. What is left to do -/

/-- The steps that a call has left, and what it may bring into the inventory. -/
def callLeft : Option SubmitCall → Nat
  | none => 0
  | some (.creating _ _) => 7
  | some (.adopting _ _ _) => 6
  | some (.attaching _ _) => 1

/-- The steps that the thread in the lock of `close` has left when there is no work. -/
def lockLeft (s : LocalTaskScope) : Nat :=
  match s.closeOperationLock.bind fun i => s.barriers[i]? with
  | none => 0
  | some barrier =>
    match barrier.phase with
    | .entering => 3
    | .blocked _ => 2
    | _ => 1

/-- The tasks of the inventory that have not ended. -/
def unfinished (stage : InventoryState) : List Nat :=
  stage.keys.filter fun t => decide (t ∉ stage.finished)

/-- What the loop has to do until the inventory is empty. -/
def loopLeft (s : LocalTaskScope) : Nat :=
  callLeft s.calling + 3 * s.stage.adoptedTasks.length + (unfinished s.stage).length +
    if s.stage.observing.isSome then 1 else 0

/-- What there is to do until the scope is free. -/
def workLeft (s : LocalTaskScope) : Nat := s.loopLeft + s.lockLeft

/-- Nothing goes on in the scope. -/
structure Free (s : LocalTaskScope) : Prop where
  calling : s.calling = none
  observing : s.stage.observing = none
  adoptedTasks : s.stage.adoptedTasks = []
  closeOperationLock : s.closeOperationLock = none

/-- What goes on by itself: the tasks end, the loop takes its steps and the threads theirs. -/
def goesOn : LocalEvent → Bool
  | .callStep | .finish _ _ | .taskDone _ | .callbackEnds .returned | .threadStep _ true
  | .resume _ => true
  | _ => false

theorem unfinished_of_finish (ht : t ∈ stage.keys) (hnot : t ∉ stage.finished) :
    (stage.keys.filter fun u => decide (u ∉ stage.finished ++ [t])).length <
      (unfinished stage).length := by
  have hfilter : (stage.keys.filter fun u => decide (u ∉ stage.finished ++ [t])) =
      (unfinished stage).filter fun u => decide (u ≠ t) := by
    rw [unfinished, List.filter_filter]
    refine List.filter_congr fun u _ => ?_
    simp only [List.mem_append, List.mem_singleton, not_or, Bool.decide_and, ne_eq]
    rw [Bool.and_comm]
  rw [hfilter, List.length_filter_lt_length_iff_exists]
  exact ⟨t, List.mem_filter.mpr ⟨ht, decide_eq_true hnot⟩, by simp⟩

/-! ## 3. The scope goes on -/

/-- A step that brings the scope nearer to its end, with its loop as it is. -/
def Advances (s : LocalTaskScope) : Prop :=
  ∃ e s', goesOn e = true ∧ s.step e = some s' ∧ s'.loop = s.loop ∧
    s'.stage.loops = s.stage.loops ∧ s'.workLeft < s.workLeft

theorem advances {e : LocalEvent} (hgoes : goesOn e = true) (he : ofBarrier e = false)
    (h : s.step e = some s') (hloop : s'.loop = s.loop) (hloops : s'.stage.loops = s.stage.loops)
    (hless : s'.loopLeft < s.loopLeft) : s.Advances := by
  have hkeeps := keepsBarriers he h
  have hlock : s'.lockLeft = s.lockLeft := by
    rw [lockLeft, lockLeft, hkeeps.barriers, hkeeps.closeOperationLock]
  refine ⟨e, s', hgoes, h, hloop, hloops, ?_⟩
  rw [workLeft, workLeft, hlock]
  exact Nat.add_lt_add_right hless _

theorem creates_advances (hs : s.Bound) {site : CallSite} {origin : String}
    (hcalling : s.calling = some (.creating site origin)) : s.Advances := by
  obtain ⟨l, hloop, -⟩ := hs.running (Bound.busy_of_calling hcalling)
  have hinv := hs.calling
  rw [hcalling] at hinv
  have hcreating := hinv.2.1
  rw [hloop, Option.toList_some] at hcreating
  have hstep : s.step .callStep = some { s with
      stage := { s.stage with epoch := { s.stage.epoch with
        creating := []
        taskLoops := s.stage.epoch.taskLoops ++ [l] } }
      calling := some (.adopting site s.stage.epoch.taskLoops.length (.spawn origin)) } := by
    simp only [step, callStep, hcalling, InventoryState.makeTask, hcreating]
    rfl
  refine advances rfl rfl hstep rfl rfl ?_
  simp only [loopLeft, hcalling, callLeft, unfinished, InventoryState.keys]
  omega

theorem adopts_advances (hs : s.Bound) {site : CallSite} {request : LocalRequest}
    (hcalling : s.calling = some (.adopting site t request)) : s.Advances := by
  obtain ⟨l, hloop, -⟩ := hs.running (Bound.busy_of_calling hcalling)
  have hopen := hs.open_of_calling hcalling
  have hinv := hs.calling
  rw [hcalling] at hinv
  obtain ⟨hsite, ht, -, -, -⟩ := hinv
  rw [hloop] at ht hsite
  have honloop := hs.onLoop
  rw [hloop] at honloop
  rcases hs.inv.adopt_onLoop (t := t) honloop (hs.isOpen hopen) hsite request.origin with
    ⟨existing, hlookup, hne, heq⟩ | ⟨hlookup, heq⟩ |
      ⟨hlookup, epoch, hkeeps, honloop', hcreating', hunsealed, heq⟩
  · have hstep : s.step .callStep = some (s.adoptFails t request (.stage (.stageLifecycle
        ("A Stage task cannot be adopted with two origins: '" ++ existing ++ "' and '" ++
          request.origin ++ "'")))) := by
      simp only [step, callStep, hcalling, ht, Option.map_some, heq]
      rfl
    refine advances rfl rfl hstep rfl rfl ?_
    simp only [loopLeft, hcalling, callLeft, adoptFails, refuse]
    omega
  · have hstep : s.step .callStep = some { s with calling := none } := by
      simp only [step, callStep, hcalling, ht, Option.map_some, heq, hlookup, Option.isNone_some,
        Bool.false_eq_true, if_false]
    refine advances rfl rfl hstep rfl rfl ?_
    simp only [loopLeft, hcalling, callLeft]
    omega
  · have hstep : s.step .callStep = some { s with
        stage := { s.stage with
          epoch
          adoptedTasks := s.stage.adoptedTasks ++ [(t, request.origin)]
          adoptions := s.stage.adoptions ++ [(t, request.origin)]
          attaching := s.stage.attaching ++ [⟨t, some l, epoch.cancelling⟩] }
        calling := some (.attaching t request) } := by
      simp only [step, callStep, hcalling, ht, Option.map_some, heq, hlookup, Option.isNone_none,
        if_true]
    refine advances rfl rfl hstep rfl rfl ?_
    have hfilter := List.length_filter_le (fun u => decide (u ∉ s.stage.finished)) [t]
    simp only [loopLeft, hcalling, callLeft, unfinished, InventoryState.keys, List.map_append,
      List.map_cons, List.map_nil, List.filter_append, List.length_append, List.length_singleton]
      at hfilter ⊢
    omega

theorem attaches_advances (hs : s.Bound) {request : LocalRequest}
    (hcalling : s.calling = some (.attaching t request)) : s.Advances := by
  have hinv := hs.calling
  rw [hcalling] at hinv
  obtain ⟨-, shouldCancel, hattaching⟩ := hinv
  have hattaches := hs.attaches hcalling hattaching
  obtain ⟨stage, hattach⟩ : ∃ stage, s.stage.attach 0 = some stage := by
    rw [InventoryState.attach, hattaching]
    exact ⟨_, rfl⟩
  have hstep : s.step .callStep = some { s with stage, calling := none } := by
    simp only [step, callStep, hcalling, hattach, hattaching, List.getElem?_cons_zero,
      Option.bind_some, Option.map_some, hattaches, Bool.false_eq_true, if_false]
  obtain ⟨call, -, ⟨-, rfl⟩ | ⟨-, attached, scheduled, cancelRequests, rfl, -⟩⟩ :=
    InventoryState.attach_spec hattach
  · refine advances rfl rfl hstep rfl rfl ?_
    simp only [loopLeft, hcalling, callLeft, unfinished, InventoryState.keys]
    omega
  · refine advances rfl rfl hstep rfl rfl ?_
    simp only [loopLeft, hcalling, callLeft, unfinished, InventoryState.keys]
    omega

/-- The callback that is running may return. -/
theorem callback_advances (hcalling : s.calling = none) {call : Nat × String}
    (hobserving : s.stage.observing = some call) : s.Advances := by
  have hstep : s.step (.callbackEnds .returned) = some { s with
      stage := { s.stage with epoch := s.stage.epoch.observed, observing := none } } := by
    simp only [step, callbackEnds, hcalling, if_true, hobserving, Option.bind_some,
      InventoryState.observerEnds, Option.map_some, CallbackEnd.observerEnd]
  refine advances rfl rfl hstep rfl rfl ?_
  simp only [loopLeft, unfinished, InventoryState.keys, hobserving, Option.isSome_some,
    Option.isSome_none, if_true, Bool.false_eq_true, if_false]
  omega

/-- A task with its callback attached may end. -/
theorem finish_advances (hs : s.Bound) (hcalling : s.calling = none)
    (hobserving : s.stage.observing = none) (hkey : t ∈ s.stage.keys)
    (hattached : t ∈ s.stage.attached) : s.Advances := by
  have hnot := hs.inv.unfinished t hattached
  have hguard : t < s.stage.epoch.taskLoops.length ∧ t ∉ s.stage.finished :=
    ⟨hs.inv.known t hkey, hnot⟩
  have hstep : s.step (.finish t .returned) = some { s with
      stage := { s.stage with
        finished := s.stage.finished ++ [t]
        attached := s.stage.attached.filter fun other => decide (other ≠ t)
        scheduled := s.stage.scheduled ++ s.stage.attached.filter fun other =>
          decide (other = t) }
      taskEnds := Function.update s.taskEnds t (some .returned) } := by
    simp only [step, finish, InventoryState.finish, if_pos hguard, Option.map_some]
    exact if_pos fun _ => ⟨hcalling, hobserving⟩
  refine advances rfl rfl hstep rfl rfl ?_
  have hless := unfinished_of_finish hkey hnot
  simp only [loopLeft, hcalling, callLeft, unfinished, InventoryState.keys] at hless ⊢
  omega

/-- The callback of a task that has ended may run. -/
theorem done_advances (hs : s.Bound) (haccounts : s.Accounts) (hcalling : s.calling = none)
    (hobserving : s.stage.observing = none) (hkey : t ∈ s.stage.keys)
    (hscheduled : t ∈ s.stage.scheduled)
    (hrunning : ∀ l, s.loop = some l → (s.stage.loops l).mode = .running) : s.Advances := by
  obtain ⟨l, hloop⟩ := hs.loop_of_key hkey
  have ht := (hs.tasks t hkey).trans hloop
  obtain ⟨origin, hlookup⟩ := hs.inv.lookup_scheduled hscheduled
  have hguard : t ∈ s.stage.scheduled ∧ s.stage.lockFree .other = true ∧
      (s.stage.loopOf t).any (fun loop => decide ((s.stage.loops loop).mode = .running)) = true := by
    refine ⟨hscheduled, ?_, ?_⟩
    · rw [InventoryState.lockFree, hobserving]
      rfl
    · rw [ht, Option.any_some, decide_eq_true_eq]
      exact hrunning l hloop
  obtain ⟨how, hhow⟩ : ∃ how, s.taskEnds t = some how :=
    Option.isSome_iff_exists.mp ((haccounts.ends t).mpr (hs.inv.queued t hscheduled))
  have hdone : s.stage.adoptedTaskDone t = some { s.stage with
      scheduled := s.stage.scheduled.erase t
      adoptedTasks := s.stage.adoptedTasks.filter fun entry => decide (entry.1 ≠ t)
      departed := s.stage.departed ++ [(t, origin)]
      epoch := s.stage.epoch.adoptedTaskDone t
      observing := some (t, origin)
      observed := s.stage.observed ++ [(t, origin)] } := by
    simp only [InventoryState.adoptedTaskDone, if_pos hguard, hlookup, hs.hasObserver, if_true]
  -- the task has left, whether there is a callback to wait for or not
  have hless : ∀ s' : LocalTaskScope, s'.calling = none →
      s'.stage.adoptedTasks = s.stage.adoptedTasks.filter (fun entry => decide (entry.1 ≠ t)) →
      s'.stage.finished = s.stage.finished → s'.loopLeft < s.loopLeft := by
    intro s' hcalling' htasks hfinished
    have hpop := (InventoryState.pop_perm hs.inv.nodup
      (InventoryState.mem_of_lookup hlookup)).length_eq
    have hfewer : (unfinished s'.stage).length ≤ (unfinished s.stage).length := by
      rw [unfinished, unfinished, InventoryState.keys, InventoryState.keys, htasks, hfinished]
      exact ((List.filter_sublist.map Prod.fst).filter _).length_le
    rw [List.length_cons] at hpop
    simp only [loopLeft, hcalling, hcalling', callLeft, htasks, hobserving, Option.isSome_none,
      Bool.false_eq_true, if_false]
    split
    · omega
    · omega
  by_cases hhas : s.hasOnDone = true
  · have hstep : ∃ s', s.step (.taskDone t) = some s' ∧ s'.loop = s.loop ∧
        s'.stage.loops = s.stage.loops ∧ s'.loopLeft < s.loopLeft := by
      simp only [step, taskDone, hcalling, if_true, hdone, Option.bind_some, hhow, hhas]
      exact ⟨_, rfl, rfl, rfl, hless _ rfl rfl rfl⟩
    obtain ⟨s', hstep, hloop', hloops, hless'⟩ := hstep
    exact advances rfl rfl hstep hloop' hloops hless'
  · have hstep : ∃ s', s.step (.taskDone t) = some s' ∧ s'.loop = s.loop ∧
        s'.stage.loops = s.stage.loops ∧ s'.loopLeft < s.loopLeft := by
      simp only [step, taskDone, hcalling, if_true, hdone, Option.bind_some, hhow, hhas,
        Bool.false_eq_true, if_false, InventoryState.observerEnds, Option.map_some]
      exact ⟨_, rfl, rfl, rfl, hless _ rfl rfl rfl⟩
    obtain ⟨s', hstep, hloop', hloops, hless'⟩ := hstep
    exact advances rfl rfl hstep hloop' hloops hless'

/-- There is no work when the inventory is empty: the Stage has no handles. -/
theorem idle_of_empty (hs : s.Bound) (hempty : s.stage.adoptedTasks = []) :
    s.stage.epoch.hasActiveWorkLocked = false := by
  refine EpochState.hasActiveWorkLocked_eq_false.mpr ⟨hs.onLoop.handles, ?_⟩
  refine Finset.eq_empty_iff_forall_notMem.mpr fun t ht => ?_
  have hkey := (hs.inv.active t).mp ht
  rw [InventoryState.keys, hempty] at hkey
  cases hkey

/-- The waits of a Stage without work return. -/
theorem waitSettled_of_idle (hobserving : s.stage.observing = none)
    (hidle : s.stage.epoch.hasActiveWorkLocked = false) :
    s.stage.waitSettled .other =
      some { s.stage with waits := s.stage.waits ++ [.returned] } := by
  simp [InventoryState.waitSettled, InventoryState.lockFree, hobserving, hidle]

theorem wake_of_idle {w : Nat} {timeLeft : Bool} (hobserving : s.stage.observing = none)
    (hidle : s.stage.epoch.hasActiveWorkLocked = false)
    (hblocked : s.stage.waits[w]? = some .blocked) :
    s.stage.wake w timeLeft = some { s.stage with waits := s.stage.waits.set w .returned } := by
  simp [InventoryState.wake, InventoryState.lockFree, hobserving, hidle, hblocked]

/-- A thread that closes comes to its next step when there is no work. -/
theorem closing_step (hs : s.Bound) (hplaced : s.Placed) (hobserving : s.stage.observing = none)
    (hempty : s.stage.adoptedTasks = []) {i : Nat} {barrier : LocalBarrier}
    (hget : s.barriers[i]? = some barrier) (hbody : barrier.body = .close) :
    ((barrier.phase = .entering ∨ ∃ w, barrier.phase = .blocked w) →
      ∃ waits, s.step (.threadStep i true) = some { s with
        stage := { s.stage with waits }
        barriers := s.barriers.set i { barrier with phase := .completing } }) ∧
    (barrier.phase = .completing →
      s.step (.threadStep i true) = some { s with
        barriers := s.barriers.set i { barrier with phase := .finished (.returned none) }
        stageCompleted := true
        closeOperationLock := none }) := by
  have hidle := idle_of_empty hs hempty
  refine ⟨?_, fun hphase => ?_⟩
  · rintro (hphase | ⟨w, hphase⟩)
    · refine ⟨s.stage.waits ++ [.returned], ?_⟩
      simp only [step, hget, Option.bind_some, threadStep, hphase,
        waitSettled_of_idle hobserving hidle, Option.map_some, waited,
        List.getElem?_concat_length, settled, setBarrier, hbody]
    · refine ⟨s.stage.waits.set w .returned, ?_⟩
      have hblocked := hplaced.blocked i barrier w hget hphase
      have hw := (List.getElem?_eq_some_iff.mp hblocked).1
      simp only [step, hget, Option.bind_some, threadStep, hphase,
        wake_of_idle hobserving hidle hblocked, Option.map_some, waited,
        List.getElem?_set_self hw, settled, setBarrier, hbody, true_or, if_true]
  · have hfree : s.stage.lockFree .other = true := by simp [InventoryState.lockFree, hobserving]
    simp only [step, hget, Option.bind_some, threadStep, hphase, hfree, if_true, setBarrier]

/-- The thread in the lock of `close` comes out of it when there is no work. -/
theorem holder_advances (hs : s.Bound) (hplaced : s.Placed) (hobserving : s.stage.observing = none)
    (hempty : s.stage.adoptedTasks = []) {i : Nat} (hlock : s.closeOperationLock = some i) :
    s.Advances := by
  obtain ⟨barrier, hget, hclosing⟩ := hplaced.holder i hlock
  obtain ⟨hbody, hphase⟩ := Bool.and_eq_true_iff.mp hclosing
  obtain ⟨hwaits, hcompletes⟩ :=
    closing_step hs hplaced hobserving hempty hget (of_decide_eq_true hbody)
  have hi := (List.getElem?_eq_some_iff.mp hget).1
  have hleft : s.lockLeft = match barrier.phase with
      | .entering => 3
      | .blocked _ => 2
      | _ => 1 := by
    simp only [lockLeft, hlock, Option.bind_some, hget]
  have hnext : ∀ waits, lockLeft { s with
      stage := { s.stage with waits }
      barriers := s.barriers.set i { barrier with phase := .completing } } = 1 := by
    intro waits
    simp only [lockLeft, hlock, Option.bind_some, List.getElem?_set_self hi]
  cases hcase : barrier.phase with
  | entering =>
    obtain ⟨waits, hstep⟩ := hwaits (Or.inl hcase)
    refine ⟨_, _, rfl, hstep, rfl, rfl, ?_⟩
    rw [workLeft, workLeft, hnext, hleft, hcase]
    exact Nat.add_lt_add_left (by decide) s.loopLeft
  | blocked w =>
    obtain ⟨waits, hstep⟩ := hwaits (Or.inr ⟨w, hcase⟩)
    refine ⟨_, _, rfl, hstep, rfl, rfl, ?_⟩
    rw [workLeft, workLeft, hnext, hleft, hcase]
    exact Nat.add_lt_add_left (show 1 < 2 by decide) s.loopLeft
  | completing =>
    refine ⟨_, _, rfl, hcompletes hcase, rfl, rfl, ?_⟩
    rw [workLeft, workLeft, hleft, hcase]
    exact Nat.add_lt_add_left (show 0 < 1 by decide) s.loopLeft
  | queued => simp [hcase] at hphase
  | finished result => simp [hcase] at hphase
  | withdrawn => simp [hcase] at hphase

/-- A scope that is not free goes on. -/
theorem advances_of_busy {hasOnDone : Bool} (hs : (localSystem hasOnDone).Reachable s)
    (hrunning : ∀ l, s.loop = some l → (s.stage.loops l).mode = .running) (hbusy : ¬ s.Free) :
    s.Advances := by
  have hbound := bound_reachable hs
  have htracked := hbound.inv.tracked_iff.mpr hbound.orphans
  cases hcalling : s.calling with
  | some call =>
    cases call with
    | creating site origin => exact creates_advances hbound hcalling
    | adopting site t request => exact adopts_advances hbound hcalling
    | attaching t request => exact attaches_advances hbound hcalling
  | none =>
    cases hobserving : s.stage.observing with
    | some call => exact callback_advances hcalling hobserving
    | none =>
      cases htasks : s.stage.adoptedTasks with
      | cons entry rest =>
        have hkey : entry.1 ∈ s.stage.keys := by
          rw [InventoryState.keys, htasks]
          exact List.mem_cons_self
        have hattaching : s.stage.attaching = [] := by
          have hinv := hbound.calling
          rw [hcalling] at hinv
          exact hinv.2
        have hpending := htracked.callbacks.symm.subset hkey
        rw [InventoryState.pending, hattaching, List.map_nil, List.nil_append] at hpending
        rcases List.mem_append.mp hpending with hattached | hscheduled
        · exact finish_advances hbound hcalling hobserving hkey hattached
        · exact done_advances hbound (accounts_reachable hs) hcalling hobserving hkey hscheduled
            hrunning
      | nil =>
        cases hlock : s.closeOperationLock with
        | some i => exact holder_advances hbound (placed_reachable hs) hobserving htasks hlock
        | none => exact absurd ⟨hcalling, hobserving, htasks, hlock⟩ hbusy

/-- The scope comes to be free. -/
theorem exists_run_free {hasOnDone : Bool} (hs : (localSystem hasOnDone).Reachable s)
    (hrunning : ∀ l, s.loop = some l → (s.stage.loops l).mode = .running) :
    ∃ es s', (∀ e ∈ es, goesOn e = true) ∧ (localSystem hasOnDone).run s es = some s' ∧
      ((localSystem hasOnDone).Reachable s' ∧ s'.loop = s.loop ∧
        s'.stage.loops = s.stage.loops) ∧ s'.Free := by
  refine System.exists_run_by (I := fun u => (localSystem hasOnDone).Reachable u ∧
    u.loop = s.loop ∧ u.stage.loops = s.stage.loops) workLeft ?_ ⟨hs, rfl, rfl⟩
  rintro u ⟨hu, hloop, hloops⟩ hbusy
  have hrun : ∀ l, u.loop = some l → (u.stage.loops l).mode = .running := by
    rw [hloop, hloops]
    exact hrunning
  obtain ⟨e, u', hgoes, hstep, hloop', hloops', hless⟩ := advances_of_busy hu hrun hbusy
  exact ⟨e, u', hgoes, hstep, ⟨.step hu trivial hstep, hloop'.trans hloop, hloops'.trans hloops⟩,
    hless⟩

/-! ## 4. A close that returns -/

/-- A `close` of that number runs in a scope where nothing else goes on. -/
structure Alone (s : LocalTaskScope) (i : Nat) (phase : LocalPhase) : Prop where
  calling : s.calling = none
  observing : s.stage.observing = none
  adoptedTasks : s.stage.adoptedTasks = []
  running : ∃ l, s.loop = some l ∧ (s.stage.loops l).mode = .running
  barrier : ∃ barrier, s.barriers[i]? = some barrier ∧ barrier.kind.isClose = true ∧
    barrier.body = .close ∧ barrier.phase = phase ∧ barrier.result = none

namespace Alone

variable {i : Nat}

/-- The thread finds the Stage completed, or it seals it. -/
theorem starts (h : s.Alone i .queued) (hlock : s.closeOperationLock = none) :
    ∃ s', s.step (.threadStep i true) = some s' ∧
      (s'.Alone i (.finished (.returned none)) ∨ s'.Alone i .entering) := by
  obtain ⟨barrier, hget, hkind, hbody, hphase, hresult⟩ := h.barrier
  have hi := (List.getElem?_eq_some_iff.mp hget).1
  have hguard : s.stage.lockFree .other = true ∧ s.closeOperationLock = none :=
    ⟨by rw [InventoryState.lockFree, h.observing]; rfl, hlock⟩
  by_cases hcompleted : s.stageCompleted = true
  · refine ⟨s.setBarrier i { barrier with phase := .finished (.returned none) }, ?_, Or.inl ?_⟩
    · simp only [step, hget, Option.bind_some, threadStep, hphase, hbody, if_pos hguard, hcompleted,
        if_true]
    · exact ⟨h.calling, h.observing, h.adoptedTasks, h.running, _, List.getElem?_set_self hi, hkind,
        hbody, rfl, hresult⟩
  · refine ⟨{ (s.withEpoch s.stage.epoch.sealScope).setBarrier i
        { barrier with phase := .entering } with closeOperationLock := some i }, ?_, Or.inr ?_⟩
    · simp only [step, hget, Option.bind_some, threadStep, hphase, hbody, if_pos hguard, hcompleted,
        Bool.false_eq_true, if_false]
    · exact ⟨h.calling, h.observing, h.adoptedTasks, h.running, _, List.getElem?_set_self hi, hkind,
        hbody, rfl, hresult⟩

theorem waits (h : s.Alone i .entering) (hs : s.Bound) (hplaced : s.Placed) :
    ∃ s', s.step (.threadStep i true) = some s' ∧ s'.Alone i .completing := by
  obtain ⟨barrier, hget, hkind, hbody, hphase, hresult⟩ := h.barrier
  have hi := (List.getElem?_eq_some_iff.mp hget).1
  obtain ⟨waits, hstep⟩ :=
    (closing_step hs hplaced h.observing h.adoptedTasks hget hbody).1 (Or.inl hphase)
  exact ⟨_, hstep, h.calling, h.observing, h.adoptedTasks, h.running, _, List.getElem?_set_self hi,
    hkind, hbody, rfl, hresult⟩

theorem completes (h : s.Alone i .completing) (hs : s.Bound) (hplaced : s.Placed) :
    ∃ s', s.step (.threadStep i true) = some s' ∧ s'.Alone i (.finished (.returned none)) := by
  obtain ⟨barrier, hget, hkind, hbody, hphase, hresult⟩ := h.barrier
  have hi := (List.getElem?_eq_some_iff.mp hget).1
  have hstep := (closing_step hs hplaced h.observing h.adoptedTasks hget hbody).2 hphase
  exact ⟨_, hstep, h.calling, h.observing, h.adoptedTasks, h.running, _, List.getElem?_set_self hi,
    hkind, hbody, rfl, hresult⟩

/-- The coroutine returns. -/
theorem returns (h : s.Alone i (.finished (.returned none))) :
    ∃ s', s.step (.resume i) = some s' ∧ s'.closeCompleted = true := by
  obtain ⟨barrier, hget, hkind, hbody, hphase, hresult⟩ := h.barrier
  obtain ⟨l, hloop, hrunning⟩ := h.running
  have hmay : s.mayAwait s.loop = true := by
    simp [mayAwait, mayCall, hloop, hrunning, h.calling, h.observing]
  obtain ⟨cancel, hclose⟩ : ∃ cancel, barrier.kind = .close cancel := by
    cases hk : barrier.kind with
    | close cancel => exact ⟨cancel, rfl⟩
    | waitSettled => simp [hk, LocalBarrierKind.isClose] at hkind
    | cancelAndWait => simp [hk, LocalBarrierKind.isClose] at hkind
  refine ⟨{ s.setBarrier i { barrier with result := some (.returned none) } with
    closeCompleted := true }, ?_, rfl⟩
  simp only [step, hmay, if_true, hget, Option.bind_some, resume, hresult, hphase, hclose, hbody]

end Alone

/-- The call of a `close` from outside the scope, without a timeout. -/
def closeCall (l : Nat) : LocalEvent := .barrier (some l) (.close false) false none false

/-- The scope is bound to the loop, closed and goes to a thread, unless it has been closed. -/
theorem closeCall_step (hfree : s.Free) (hloop : s.loop = none ∨ s.loop = some l)
    (hrunning : (s.stage.loops l).mode = .running) :
    ∃ s', s.step (closeCall l) = some s' ∧ (s'.closeCompleted = true ∨
      s'.closeOperationLock = none ∧ s'.Alone s.barriers.length .queued) := by
  have hmay : s.mayAwait (some l) = true := by
    simp [mayAwait, mayCall, hrunning, hfree.calling, hfree.observing]
  have hbind : s.bindRunningLoop (some l) = .ok (l, { s with loop := some l }) := by
    rcases hloop with hnone | hsome
    · simp only [bindRunningLoop, hnone]
    · simp only [bindRunningLoop, hsome, if_true]
      rw [← hsome]
  by_cases hcompleted : s.closeCompleted = true
  · have hstep : s.step (closeCall l) = some { s with
        loop := some l
        barriers := s.barriers ++ [{
          kind := .close false, body := .close, owned := false, task := none, hasTimeout := false
          phase := .withdrawn, result := some (.returned none) }] } := by
      simp only [step, closeCall, hmay, if_true, barrier, hbind, hcompleted]
      rfl
    exact ⟨_, hstep, Or.inl hcompleted⟩
  · have hstep : s.step (closeCall l) = some { s with
        loop := some l
        closed := true
        barriers := s.barriers ++ [{
          kind := .close false, body := .close, owned := false, task := none
          hasTimeout := false }] } := by
      simp only [step, closeCall, hmay, if_true, barrier, hbind, hcompleted, guarded,
        ownedSelfWait, Bool.false_or, Option.any_none, Bool.false_eq_true, if_false]
      rfl
    exact ⟨_, hstep, Or.inr ⟨hfree.closeOperationLock, hfree.calling, hfree.observing,
      hfree.adoptedTasks, ⟨l, rfl, hrunning⟩, _, List.getElem?_concat_length, rfl, rfl, rfl, rfl⟩⟩

theorem reachable_step {hasOnDone : Bool} {e : LocalEvent}
    (hs : (localSystem hasOnDone).Reachable s) (h : s.step e = some s') :
    (localSystem hasOnDone).Reachable s' :=
  .step hs trivial h

/-- In a free scope a `close` returns. -/
theorem exists_run_close {hasOnDone : Bool} (hs : (localSystem hasOnDone).Reachable s)
    (hfree : s.Free) (hloop : s.loop = none ∨ s.loop = some l)
    (hrunning : (s.stage.loops l).mode = .running) :
    ∃ es s', (∀ e ∈ es, goesOn e = true) ∧
      (localSystem hasOnDone).run s (closeCall l :: es) = some s' ∧ s'.closeCompleted = true := by
  -- the steps of the thread, and the coroutine at the end
  have hend : ∀ {u i}, u.Alone i (.finished (.returned none)) → ∃ u',
      (localSystem hasOnDone).run u [.resume i] = some u' ∧ u'.closeCompleted = true := by
    intro u i halone
    obtain ⟨u', hstep, hclosed⟩ := halone.returns
    exact ⟨u', System.run_cons_of_step hstep [], hclosed⟩
  obtain ⟨u, hcall, hclosed | ⟨hlock, halone⟩⟩ := closeCall_step hfree hloop hrunning
  · exact ⟨[], u, fun e he => absurd he List.not_mem_nil, System.run_cons_of_step hcall [], hclosed⟩
  · have hu := reachable_step hs hcall
    obtain ⟨v, hstart, hfound | hsealed⟩ := halone.starts hlock
    · obtain ⟨s', hreturn, hclosed⟩ := hend hfound
      refine ⟨[.threadStep s.barriers.length true, .resume s.barriers.length], s', ?_, ?_, hclosed⟩
      · simp [goesOn]
      · exact (System.run_cons_of_step hcall _).trans
          ((System.run_cons_of_step hstart _).trans hreturn)
    · have hv := reachable_step hu hstart
      obtain ⟨w, hwait, hwaited⟩ := hsealed.waits (bound_reachable hv) (placed_reachable hv)
      have hw := reachable_step hv hwait
      obtain ⟨x, hcomplete, hcompleted⟩ :=
        hwaited.completes (bound_reachable hw) (placed_reachable hw)
      obtain ⟨s', hreturn, hclosed⟩ := hend hcompleted
      refine ⟨[.threadStep s.barriers.length true, .threadStep s.barriers.length true,
        .threadStep s.barriers.length true, .resume s.barriers.length], s', ?_, ?_, hclosed⟩
      · simp [goesOn]
      · exact (System.run_cons_of_step hcall _).trans ((System.run_cons_of_step hstart _).trans
          ((System.run_cons_of_step hwait _).trans
            ((System.run_cons_of_step hcomplete _).trans hreturn)))

/-- The end of `_adopted_task_done` is reached, with its `notify_all`: the exception handler of the
    loop has not exited from the observer. -/
def notifies : LocalEvent → Bool
  | .callbackEnds how => decide (how.observerEnd ≠ .handlerExits)
  | _ => true

/-- **A local task scope can always be closed** while its loop runs, whatever has been called on
    it, as long as every departure of a task has woken the waits: it goes on by itself until it is
    free, and a `close` returns. -/
theorem local_scope_closable {hasOnDone : Bool}
    (hs : (localSystem hasOnDone).ReachUnder (fun _ e => notifies e = true) s)
    (hloop : s.loop = none ∨ s.loop = some l) (hrunning : (s.stage.loops l).mode = .running) :
    ∃ es fs s', (∀ e ∈ es ++ fs, goesOn e = true) ∧
      (localSystem hasOnDone).run s (es ++ closeCall l :: fs) = some s' ∧
      s'.closeCompleted = true ∧ s'.pendingCount = 0 := by
  have hrun : ∀ l', s.loop = some l' → (s.stage.loops l').mode = .running := by
    intro l' hl'
    rcases hloop with hnone | hsome
    · rw [hnone] at hl'
      cases hl'
    · rw [hsome] at hl'
      cases hl'
      exact hrunning
  obtain ⟨es, u, hes, hfirst, ⟨hu, hloop', hloops⟩, hfree⟩ := exists_run_free hs.reachable hrun
  obtain ⟨fs, s', hfs, hlast, hclosed⟩ :=
    exists_run_close hu hfree (hloop' ▸ hloop) (hloops ▸ hrunning)
  have hs' := hu.run hlast
  have hclosing := closing_reachable hs'
  refine ⟨es, fs, s', fun e he => ?_, ?_, hclosed, ?_⟩
  · exact (List.mem_append.mp he).elim (hes e) (hfs e)
  · rw [System.run_append, hfirst, Option.bind_some]
    exact hlast
  · rw [pendingCount, (hclosing.stageCompleted (hclosing.closeCompleted hclosed)).adoptedTasks]
    rfl

/-- The first `close` of the two tasks has timed out, and its caller has been told. -/
theorem local_scope_closable_twoTasksRun : ∃ s,
    (localSystem true).run (.new true) (twoTasksRun.take 15) = some s ∧ s.pendingTasks = [1, 0] ∧
      ∃ es fs s', (∀ e ∈ es ++ fs, goesOn e = true) ∧
        (localSystem true).run s (es ++ closeCall 0 :: fs) = some s' ∧
        s'.closeCompleted = true ∧ s'.pendingCount = 0 := by
  obtain ⟨s, hrun⟩ : ∃ s, (localSystem true).run (.new true) (twoTasksRun.take 15) = some s :=
    ⟨_, rfl⟩
  have hend : s.pendingTasks = [1, 0] ∧ s.loop = some 0 ∧ (s.stage.loops 0).mode = .running := by
    cases hrun
    decide
  have hmeet : (localSystem true).StepsMeet (fun _ e => notifies e = true) (.new true)
      (twoTasksRun.take 15) :=
    System.stepsMeet_of_forall fun e he _ => (by decide : ∀ e ∈ twoTasksRun.take 15,
      notifies e = true) e he
  exact ⟨s, hrun, hend.1, local_scope_closable ((System.ReachUnder.init rfl).of_run hmeet hrun)
    (Or.inr hend.2.1) hend.2.2⟩

end LocalTaskScope

end AgentlyStage
