import AgentlyStage.IdleWatch

/-!
# Idle deadlines

Timers fire when they like: late, after a cancellation, in a later epoch.  A firing counts only
if its token is the current one, and only the timer that the Stage holds has a current token and
has not fired; a quiescence and a seal make the tokens of all timers old.  What the deadline sets
it sets in an unsealed Stage, which it seals.
-/

namespace AgentlyStage

open Transition

/-- The fields of a Stage that its timers are about. -/
structure EpochWatch where
  timer : Option Nat
  token : Nat
  timers : List IdleTimer
  isSealed : Bool
  timedOut : Bool

namespace EpochState

variable {s s' : EpochState} {site : CallSite} {configured : ConfiguredBackend}
  {idleTimeout : Option Nat}

def watch (s : EpochState) : EpochWatch :=
  ⟨s.idleTimer, s.idleTimerToken, s.timers, s.isSealed, s.idleTimedOut⟩

/-- The moment at which the error may be set: the Stage is open, it has work, and the timeout
    (which is positive) has passed since the last activity. -/
def IdleTooLong (s : EpochState) : Prop :=
  s.isSealed = false ∧ s.hasActiveWorkLocked = true ∧
    ∃ timeout, s.idleTimeout = some timeout ∧ timeout ≤ s.now - s.lastActivity

/-! ## 1. What a step does to the watch -/

/-- The timers of a step; `fires` is the event of a firing. -/
inductive WatchEffect (s : EpochState) (fires : Option Nat) : EpochWatch → Prop
  | kept (h : fires = none) : WatchEffect s fires s.watch
  /-- A touch arms a timer with a new token. -/
  | armed (deadline : Nat) (h : fires = none) :
      WatchEffect s fires ⟨some s.timers.length, s.idleTimerToken + 1,
        s.timers ++ [{ token := s.idleTimerToken + 1, deadline := deadline }], s.isSealed,
        s.idleTimedOut⟩
  /-- A quiescence or a seal gives the timer away, and its token with it. -/
  | dropped (sealed : Bool) (h : fires = none) (hsealed : s.isSealed = true → sealed = true) :
      WatchEffect s fires ⟨none, s.idleTimerToken + 1, s.cancelTimer, sealed, s.idleTimedOut⟩
  | stale (i : Nat) (timer : IdleTimer) (h : fires = some i) (hget : s.timers[i]? = some timer) :
      WatchEffect s fires ⟨s.idleTimer, s.idleTimerToken,
        s.timers.set i { timer with fired := true }, s.isSealed, s.idleTimedOut⟩
  /-- A timer with the current token is armed again. -/
  | again (i : Nat) (timer : IdleTimer) (deadline : Nat) (h : fires = some i)
      (hget : s.timers[i]? = some timer) (htoken : timer.token = s.idleTimerToken)
      (hlive : timer.fired = false) :
      WatchEffect s fires ⟨some s.timers.length, s.idleTimerToken,
        s.timers.set i { timer with fired := true } ++
          [{ token := s.idleTimerToken, deadline := deadline }], s.isSealed, s.idleTimedOut⟩
  | timedOut (i : Nat) (timer : IdleTimer) (h : fires = some i) (hget : s.timers[i]? = some timer)
      (htoken : timer.token = s.idleTimerToken) (hlive : timer.fired = false)
      (hidle : s.IdleTooLong) :
      WatchEffect s fires ⟨none, s.idleTimerToken, s.timers.set i { timer with fired := true },
        true, true⟩

/-- The same fields, the same effect. -/
theorem WatchEffect.congr {t : EpochState} {fires : Option Nat} {w : EpochWatch}
    (hw : t.watch = s.watch) (h : t.WatchEffect none w) (hf : fires = none) :
    s.WatchEffect fires w := by
  subst hf
  obtain ⟨htimer, htoken, htimers, hsealed, htimedOut⟩ := EpochWatch.mk.inj hw
  cases h with
  | kept => exact hw ▸ .kept rfl
  | armed deadline =>
    rw [htoken, htimers, hsealed, htimedOut]
    exact .armed deadline rfl
  | dropped sealed hf hs =>
    rw [cancelTimer, htimer, htoken, htimers, htimedOut]
    exact .dropped sealed rfl fun h => hs (hsealed.trans h)
  | stale i timer hf => cases hf
  | again i timer deadline hf => cases hf
  | timedOut i timer hf => cases hf

theorem watchEffect_touch (s : EpochState) : s.WatchEffect none s.touchLocked.watch := by
  rcases touchLocked_cases s with ⟨heq, -⟩ | ⟨timeout, -, -, -, heq⟩
  · rw [heq]
    exact .kept rfl
  · rw [heq]
    exact .armed _ rfl

theorem watchEffect_release (s : EpochState) :
    s.WatchEffect none s.releaseBackendIfQuiescentLocked.watch := by
  unfold releaseBackendIfQuiescentLocked
  split
  · exact .kept rfl
  · exact .dropped s.isSealed rfl id

/-- The effect depends on the fields of the watch only. -/
theorem touch_of_eq {t : EpochState} (hw : t.watch = s.watch) :
    s.WatchEffect none t.touchLocked.watch :=
  (watchEffect_touch t).congr hw rfl

theorem release_of_eq {t : EpochState} (hw : t.watch = s.watch) :
    s.WatchEffect none t.releaseBackendIfQuiescentLocked.watch :=
  (watchEffect_release t).congr hw rfl

theorem kept_of_eq {t : EpochState} (hw : t.watch = s.watch) : s.WatchEffect none t.watch :=
  hw ▸ .kept rfl

theorem watch_resolve {selected : BackendKind × Option Nat}
    (h : s.resolveBackendLocked site = .ok (selected, s')) : s'.watch = s.watch := by
  rcases resolveBackendLocked_spec h with ⟨-, -, rfl⟩ | ⟨-, -, -, rfl⟩ | ⟨-, -, -, rfl⟩
  · rfl
  · rfl
  · rfl

theorem watchEffect_go (s : EpochState) (site : CallSite) :
    s.WatchEffect none (s.go site).1.watch := by
  unfold EpochState.go
  split
  · split
    · exact .kept rfl
    · rename_i backend loop s' hresolve
      have hbound := watch_resolve hresolve
      exact touch_of_eq hbound
  · exact .kept rfl

theorem watchEffect_adopt (s : EpochState) (site : CallSite) (t loop : Nat) :
    s.WatchEffect none (s.adopt site t loop).1.watch := by
  unfold EpochState.adopt
  split
  · split
    · exact .kept rfl
    · split
      · exact .kept rfl
      · rename_i selected s' hresolve
        have hbound := watch_resolve hresolve
        split
        · exact touch_of_eq hbound
        · exact release_of_eq hbound
  · exact .kept rfl

theorem adopt_of_eq {t : EpochState} {task loop : Nat} (hw : t.watch = s.watch) :
    s.WatchEffect none (t.adopt site task loop).1.watch :=
  (watchEffect_adopt t site task loop).congr hw rfl

theorem watchEffect_selectForTask (s : EpochState) (site : CallSite) (loop : Nat) :
    s.WatchEffect none (s.selectForTask site loop).1.watch := by
  unfold EpochState.selectForTask
  split
  · split
    · exact .kept rfl
    · rename_i selected s' hresolve
      have hbound := watch_resolve hresolve
      split
      · exact kept_of_eq hbound
      · exact release_of_eq hbound
  · exact .kept rfl

theorem watchEffect_lateCallback (s : EpochState) (site : CallSite) (h : Nat)
    (handle : EpochHandle) (loopRuns loopStillRuns : Bool) (start : DrainStart) :
    s.WatchEffect none (s.lateCallback site h handle loopRuns loopStillRuns start).1.watch := by
  obtain ⟨backend, loop, lease, count, blocked, hepoch⟩ := lateEpoch_frame s site handle loopRuns
  rcases @lateCallback_cases s site h handle loopRuns loopStillRuns start with
    ⟨heq, -⟩ | ⟨heq, -, -⟩ | ⟨-, -, ⟨-, heq⟩ | ⟨-, heq⟩⟩
  · rw [heq]
    exact .kept rfl
  · rw [heq, hepoch]
    exact .kept rfl
  · rw [heq, hepoch]
    exact .kept rfl
  · rw [heq, hepoch]
    exact release_of_eq rfl

theorem watchEffect_fire {i : Nat} (h : s.fire i = some s') : s.WatchEffect (some i) s'.watch := by
  obtain ⟨timer, hget, hunfired, -, -, hcases⟩ := fired_cases h
  rcases hcases with
    ⟨rfl, -⟩ | ⟨timeout, htimeout, htoken, hopen, hactive, ⟨-, rfl⟩ | ⟨hle, rfl⟩⟩
  · exact .stale i timer rfl hget
  · have hagain := WatchEffect.again (s := s) i timer
      (s.now + (timeout - (s.now - s.lastActivity))) rfl hget htoken hunfired
    simpa [watch, htoken] using hagain
  · exact .timedOut i timer rfl hget htoken hunfired ⟨hopen, hactive, timeout, htimeout, hle⟩

end EpochState

/-- The timer that fires in a step. -/
def EpochEvent.fires : EpochEvent → Option Nat
  | .fire i => some i
  | _ => none

namespace EpochState

variable {s s' : EpochState} {configured : ConfiguredBackend} {idleTimeout : Option Nat}

/-- **Step lemma of the watch.** -/
theorem watchEffect_step {e : EpochEvent} (hstep : s.step e = some s') :
    s.WatchEffect e.fires s'.watch := by
  cases stepped hstep with
  | enter mode hopen => exact .kept rfl
  | go site => exact watchEffect_go s site
  | setOwnerTask h => exact .kept rfl
  | handleQuiescent h hlt => exact release_of_eq rfl
  | lateCallback site h handle loopRuns loopStillRuns start hget =>
    exact watchEffect_lateCallback s site h handle loopRuns loopStillRuns start
  | selectForTask site loop hloop => exact watchEffect_selectForTask s site loop
  | createTaskFails i hlt => exact .kept rfl
  | createTask i loop site hget hloop => exact adopt_of_eq rfl
  | newTask loop => exact .kept rfl
  | adopt site t loop hget => exact watchEffect_adopt s site t loop
  | adoptedTaskDone t hmem => exact touch_of_eq rfl
  | observed hobserving => exact release_of_eq rfl
  | ownedActivity => exact watchEffect_touch s
  | tick =>
    change s.WatchEffect none s.tick.watch
    unfold EpochState.tick
    split
    · exact .kept rfl
    · exact watchEffect_touch s
  | cancelScope =>
    change s.WatchEffect none s.cancelScope.watch
    unfold EpochState.cancelScope
    split
    · exact .kept rfl
    · exact .kept rfl
  | sealScope => exact .dropped true rfl fun _ => rfl
  | fire i hfire => exact watchEffect_fire hfire
  | releaseLease lease hmem => exact .kept rfl
  | advance time => exact .kept rfl

/-! ## 2. Tokens -/

/-- The tokens of the timers are old, except for that of the timer that the Stage holds. -/
structure TokenInv (s : EpochState) : Prop where
  token : ∀ (i : Nat) (timer : IdleTimer), s.timers[i]? = some timer →
    timer.token ≤ s.idleTimerToken
  held : ∀ (i : Nat) (timer : IdleTimer), s.timers[i]? = some timer → timer.fired = false →
    timer.token = s.idleTimerToken → s.idleTimer = some i
  /-- The error is set together with the seal. -/
  isSealed : s.idleTimedOut = true → s.isSealed = true

/-- A cancellation changes no token. -/
theorem cancelTimer_token {i : Nat} {timer : IdleTimer} (h : s.cancelTimer[i]? = some timer) :
    ∃ old : IdleTimer, s.timers[i]? = some old ∧ timer.token = old.token ∧
      timer.fired = old.fired := by
  unfold cancelTimer at h
  split at h
  · rename_i k hk
    rw [List.getElem?_modify] at h
    obtain ⟨old, hold, rfl⟩ := Option.map_eq_some_iff.mp h
    refine ⟨old, hold, ?_⟩
    split
    · exact ⟨rfl, rfl⟩
    · exact ⟨rfl, rfl⟩
  · exact ⟨timer, h, rfl, rfl⟩

/-- A firing marks its timer. -/
theorem setFired_token {i k : Nat} {timer fired : IdleTimer} (hget : s.timers[i]? = some timer)
    (h : (s.timers.set i { timer with fired := true })[k]? = some fired) :
    (k = i ∧ fired = { timer with fired := true }) ∨ (k ≠ i ∧ s.timers[k]? = some fired) := by
  by_cases hk : k = i
  · subst hk
    rw [List.getElem?_set_self (List.getElem?_eq_some_iff.mp hget).1] at h
    exact Or.inl ⟨rfl, (Option.some.inj h).symm⟩
  · rw [List.getElem?_set_ne (Ne.symm hk)] at h
    exact Or.inr ⟨hk, h⟩

theorem getElem?_concat_cases {timers : List IdleTimer} {new timer : IdleTimer} {k : Nat}
    (h : (timers ++ [new])[k]? = some timer) :
    timers[k]? = some timer ∨ (k = timers.length ∧ timer = new) := by
  by_cases hk : k < timers.length
  · rw [List.getElem?_append_left hk] at h
    exact Or.inl h
  · have hlt := (List.getElem?_eq_some_iff.mp h).1
    rw [List.length_append, List.length_singleton] at hlt
    obtain rfl : k = timers.length := by omega
    rw [List.getElem?_concat_length] at h
    exact Or.inr ⟨rfl, (Option.some.inj h).symm⟩

/-- The invariant speaks about the fields of the watch only. -/
theorem TokenInv.of_watch {w : EpochWatch} (hw : s'.watch = w)
    (htoken : ∀ (i : Nat) (timer : IdleTimer), w.timers[i]? = some timer → timer.token ≤ w.token)
    (hheld : ∀ (i : Nat) (timer : IdleTimer), w.timers[i]? = some timer → timer.fired = false →
      timer.token = w.token → w.timer = some i)
    (hsealed : w.timedOut = true → w.isSealed = true) : s'.TokenInv := by
  subst hw
  exact ⟨htoken, hheld, hsealed⟩

theorem TokenInv.effect (hi : s.TokenInv) {fires : Option Nat} {w : EpochWatch}
    (hw : s'.watch = w) (he : s.WatchEffect fires w) : s'.TokenInv := by
  cases he with
  | kept => exact .of_watch hw hi.token hi.held hi.isSealed
  | armed deadline =>
    refine .of_watch hw (fun k timer h => ?_) (fun k timer h hlive htoken => ?_) hi.isSealed
    · rcases getElem?_concat_cases h with hold | ⟨-, rfl⟩
      · exact Nat.le_succ_of_le (hi.token k timer hold)
      · exact Nat.le_refl _
    · rcases getElem?_concat_cases h with hold | ⟨rfl, -⟩
      · have hle := hi.token k timer hold
        dsimp only at htoken
        omega
      · rfl
  | dropped sealed hf hsealed =>
    refine .of_watch hw (fun k timer h => ?_) (fun k timer h hlive htoken => ?_)
      fun hout => hsealed (hi.isSealed hout)
    · obtain ⟨old, hold, heq, -⟩ := cancelTimer_token h
      rw [heq]
      exact Nat.le_succ_of_le (hi.token k old hold)
    · obtain ⟨old, hold, heq, -⟩ := cancelTimer_token h
      have hle := hi.token k old hold
      dsimp only at htoken
      omega
  | stale i timer hf hget =>
    refine .of_watch hw (fun k fired h => ?_) (fun k fired h hlive htoken => ?_) hi.isSealed
    · rcases setFired_token hget h with ⟨rfl, rfl⟩ | ⟨-, hold⟩
      · exact hi.token k timer hget
      · exact hi.token k fired hold
    · rcases setFired_token hget h with ⟨-, rfl⟩ | ⟨-, hold⟩
      · cases hlive
      · exact hi.held k fired hold hlive htoken
  | again i timer deadline hf hget htoken' hunfired =>
    refine .of_watch hw (fun k fired h => ?_) (fun k fired h hlive htoken => ?_) hi.isSealed
    · rcases getElem?_concat_cases h with hold | ⟨-, rfl⟩
      · rcases setFired_token hget hold with ⟨rfl, rfl⟩ | ⟨-, hold⟩
        · exact hi.token k timer hget
        · exact hi.token k fired hold
      · exact Nat.le_refl _
    · rcases getElem?_concat_cases h with hold | ⟨rfl, -⟩
      · rcases setFired_token hget hold with ⟨-, rfl⟩ | ⟨hne, hold⟩
        · cases hlive
        · -- the timer that fires is the one that the Stage holds
          have hheld := hi.held i timer hget hunfired htoken'
          rw [hi.held k fired hold hlive htoken] at hheld
          exact absurd (Option.some.inj hheld) hne
      · rw [List.length_set]
  | timedOut i timer hf hget htoken' hunfired hidle =>
    refine .of_watch hw (fun k fired h => ?_) (fun k fired h hlive htoken => ?_) fun _ => rfl
    · rcases setFired_token hget h with ⟨rfl, rfl⟩ | ⟨-, hold⟩
      · exact hi.token k timer hget
      · exact hi.token k fired hold
    · rcases setFired_token hget h with ⟨-, rfl⟩ | ⟨hne, hold⟩
      · cases hlive
      · have hheld := hi.held i timer hget hunfired htoken'
        rw [hi.held k fired hold hlive htoken] at hheld
        exact absurd (Option.some.inj hheld) hne

theorem TokenInv.step (hi : s.TokenInv) {e : EpochEvent} (hstep : s.step e = some s') :
    s'.TokenInv :=
  hi.effect rfl (watchEffect_step hstep)

theorem reachable_tokenInv (h : (epochSystem configured idleTimeout).Reachable s) :
    s.TokenInv := by
  induction h with
  | init hinit =>
    cases hinit
    exact ⟨fun _ _ h => (by cases h), fun _ _ h => (by cases h), fun h => (by cases h)⟩
  | step _ _ hstep ih => exact ih.step hstep

/-! ## 3. Firings that do nothing -/

/-- The firing is noted, and nothing else. -/
def markFired (s : EpochState) (i : Nat) : EpochState :=
  { s with timers := s.timers.modify i fun timer => { timer with fired := true } }

theorem fire_cases {i : Nat} (h : s.fire i = some s') :
    ∃ timer : IdleTimer, s.timers[i]? = some timer ∧
      s' = (s.markFired i).idleDeadlineReached timer.token := by
  unfold EpochState.fire at h
  split at h
  · rename_i timer hget
    split at h
    · cases h
      refine ⟨timer, hget, ?_⟩
      rw [markFired, List.modify_eq_set_getElem?, hget]
      rfl
    · cases h
  · cases h

theorem fire_of_stale {i : Nat} {timer : IdleTimer} (hget : s.timers[i]? = some timer)
    (hstale : timer.token ≠ s.idleTimerToken ∨ s.isSealed = true ∨ s.hasActiveWorkLocked = false)
    (h : s.fire i = some s') : s' = s.markFired i := by
  obtain ⟨timer', hget', rfl⟩ := fire_cases h
  rw [hget] at hget'
  cases hget'
  rcases idleDeadlineReached_cases (s.markFired i) timer.token with
    ⟨heq, -⟩ | ⟨-, -, htoken, hopen, hactive, -⟩
  · exact heq
  · rcases hstale with hne | hsealed | hidle
    · exact absurd htoken hne
    · exact nomatch hsealed.symm.trans hopen
    · exact nomatch hidle.symm.trans hactive

/-- The first `n` timers have old tokens. -/
structure Retired (n : Nat) (s : EpochState) : Prop where
  length : n ≤ s.timers.length
  old : ∀ i < n, ∀ timer : IdleTimer, s.timers[i]? = some timer → timer.token < s.idleTimerToken

theorem length_cancelTimer (s : EpochState) : s.cancelTimer.length = s.timers.length := by
  unfold cancelTimer
  split
  · exact List.length_modify ..
  · rfl

theorem Retired.of_watch {n : Nat} {w : EpochWatch} (hw : s'.watch = w)
    (hlength : n ≤ w.timers.length)
    (hold : ∀ i < n, ∀ timer : IdleTimer, w.timers[i]? = some timer → timer.token < w.token) :
    Retired n s' := by
  subst hw
  exact ⟨hlength, hold⟩

theorem Retired.effect {n : Nat} (hr : Retired n s) {fires : Option Nat} {w : EpochWatch}
    (hw : s'.watch = w) (he : s.WatchEffect fires w) : Retired n s' := by
  -- a firing keeps the tokens
  have hset : ∀ (i : Nat) (timer : IdleTimer), s.timers[i]? = some timer → ∀ k < n,
      ∀ fired : IdleTimer, (s.timers.set i { timer with fired := true })[k]? = some fired →
        fired.token < s.idleTimerToken := by
    intro i timer hget k hk fired h
    rcases setFired_token hget h with ⟨rfl, rfl⟩ | ⟨-, hold⟩
    · exact hr.old k hk timer hget
    · exact hr.old k hk fired hold
  cases he with
  | kept => exact .of_watch hw hr.length hr.old
  | armed deadline =>
    refine .of_watch hw ?_ fun k hk timer h => ?_
    · rw [List.length_append]
      exact Nat.le_add_right_of_le hr.length
    · rw [List.getElem?_append_left (Nat.lt_of_lt_of_le hk hr.length)] at h
      exact Nat.lt_succ_of_lt (hr.old k hk timer h)
  | dropped sealed =>
    refine .of_watch hw ?_ fun k hk timer h => ?_
    · rw [length_cancelTimer]
      exact hr.length
    · obtain ⟨old, hold, heq, -⟩ := cancelTimer_token h
      rw [heq]
      exact Nat.lt_succ_of_lt (hr.old k hk old hold)
  | stale i timer hf hget =>
    refine .of_watch hw ?_ (hset i timer hget)
    rw [List.length_set]
    exact hr.length
  | again i timer deadline hf hget =>
    have hlength : n ≤ (s.timers.set i { timer with fired := true }).length := by
      rw [List.length_set]
      exact hr.length
    refine .of_watch hw ?_ fun k hk fired h => ?_
    · rw [List.length_append]
      exact Nat.le_add_right_of_le hlength
    · rw [List.getElem?_append_left (Nat.lt_of_lt_of_le hk hlength)] at h
      exact hset i timer hget k hk fired h
  | timedOut i timer hf hget =>
    refine .of_watch hw ?_ (hset i timer hget)
    rw [List.length_set]
    exact hr.length

theorem Retired.run {n : Nat} {es : List EpochEvent} (hr : Retired n s)
    (hrun : (epochSystem configured idleTimeout).run s es = some s') : Retired n s' :=
  System.run_invariant (I := Retired n) (fun _ _ _ hr hstep => hr.effect rfl (watchEffect_step hstep))
    hr hrun

/-- The steps that end the watch: a seal, and a quiescence. -/
def EndsWatch (s' : EpochState) : EpochEvent → Prop
  | .sealScope => True
  | .handleQuiescent _ | .observed => s'.hasActiveWorkLocked = false
  | _ => False

/-- What gives the timer away makes the tokens of all timers old. -/
theorem retired_of_dropped (hi : s.TokenInv) (htimers : s'.timers = s.cancelTimer)
    (htoken : s'.idleTimerToken = s.idleTimerToken + 1) : Retired s'.timers.length s' := by
  refine ⟨Nat.le_refl _, fun i _ timer h => ?_⟩
  rw [htimers] at h
  obtain ⟨old, hold, heq, -⟩ := cancelTimer_token h
  rw [htoken, heq]
  exact Nat.lt_succ_of_le (hi.token i old hold)

theorem retired_of_release {t : EpochState} (hi : s.TokenInv) (hw : t.watch = s.watch)
    (hidle : t.releaseBackendIfQuiescentLocked.hasActiveWorkLocked = false) :
    Retired t.releaseBackendIfQuiescentLocked.timers.length t.releaseBackendIfQuiescentLocked := by
  have hti : t.TokenInv := hi.effect hw (WatchEffect.kept rfl : s.WatchEffect none s.watch)
  unfold releaseBackendIfQuiescentLocked at hidle ⊢
  split
  · rename_i hactive
    rw [if_pos hactive] at hidle
    exact nomatch hactive.symm.trans hidle
  · exact retired_of_dropped hti rfl rfl

theorem retired_of_endsWatch (hi : s.TokenInv) {e : EpochEvent} (hstep : s.step e = some s')
    (hends : EndsWatch s' e) : Retired s'.timers.length s' := by
  cases stepped hstep with
  | sealScope => exact retired_of_dropped hi rfl rfl
  | handleQuiescent h hlt => exact retired_of_release hi rfl hends
  | observed hobserving => exact retired_of_release hi rfl hends
  | _ => exact hends.elim

/-! ## 4. The error -/

/-- The error and the seal are never taken back. -/
theorem WatchEffect.keeps {fires : Option Nat} {w : EpochWatch} (he : s.WatchEffect fires w) :
    (s.isSealed = true → w.isSealed = true) ∧ (s.idleTimedOut = true → w.timedOut = true) := by
  cases he with
  | kept => exact ⟨id, id⟩
  | armed deadline => exact ⟨id, id⟩
  | dropped sealed hf hsealed => exact ⟨hsealed, id⟩
  | stale i timer => exact ⟨id, id⟩
  | again i timer deadline => exact ⟨id, id⟩
  | timedOut i timer => exact ⟨fun _ => rfl, fun _ => rfl⟩

/-- The error is set by the timer that the Stage holds. -/
theorem WatchEffect.sets {e : EpochEvent} {w : EpochWatch} (he : s.WatchEffect e.fires w)
    (hunset : s.idleTimedOut = false) (hset : w.timedOut = true) :
    ∃ i timer, e = .fire i ∧ s.timers[i]? = some timer ∧ timer.token = s.idleTimerToken ∧
      timer.fired = false ∧ s.IdleTooLong := by
  have hfires : ∀ i, e.fires = some i → e = .fire i := by
    intro i hf
    cases e with
    | fire k => exact congrArg EpochEvent.fire (Option.some.inj hf)
    | _ => cases hf
  cases he with
  | timedOut i timer hf hget htoken hlive hidle =>
    exact ⟨i, timer, hfires i hf, hget, htoken, hlive, hidle⟩
  | _ => exact nomatch hunset.symm.trans hset

theorem run_timedOut {es : List EpochEvent} (hout : s.isSealed = true ∧ s.idleTimedOut = true)
    (hrun : (epochSystem configured idleTimeout).run s es = some s') :
    s'.isSealed = true ∧ s'.idleTimedOut = true :=
  System.run_invariant (I := fun s => s.isSealed = true ∧ s.idleTimedOut = true)
    (fun _ _ _ hout hstep =>
      have heff := (watchEffect_step hstep).keeps
      ⟨heff.1 hout.1, heff.2 hout.2⟩)
    hout hrun

/-- **Idle timeouts are neither false nor repeated.**  The error is set by the timer that the
    Stage holds, in an open Stage that has work and has been idle for the timeout; firings with an
    old token leave their mark only, and after a seal or a quiescence every timer that was there
    has an old token for ever; once the error is set no firing does anything. -/
theorem idle_timeout_laws :
    (∀ configured idleTimeout s s' e, (epochSystem configured idleTimeout).Reachable s →
      s.step e = some s' → s.idleTimedOut = false → s'.idleTimedOut = true →
        ∃ i, e = .fire i ∧ s.idleTimer = some i ∧ s.IdleTooLong ∧ s'.isSealed = true) ∧
    (∀ (s s' : EpochState) (i : Nat) (timer : IdleTimer), s.timers[i]? = some timer →
      timer.token ≠ s.idleTimerToken → s.step (.fire i) = some s' → s' = s.markFired i) ∧
    (∀ configured idleTimeout s s' e, (epochSystem configured idleTimeout).Reachable s →
      s.step e = some s' → EndsWatch s' e →
        ∀ es t, (epochSystem configured idleTimeout).run s' es = some t →
          ∀ i < s'.timers.length, ∀ t', t.step (.fire i) = some t' → t' = t.markFired i) ∧
    ∀ configured idleTimeout s, (epochSystem configured idleTimeout).Reachable s →
      s.idleTimedOut = true → ∀ es t, (epochSystem configured idleTimeout).run s es = some t →
        t.idleTimedOut = true ∧ ∀ i t', t.step (.fire i) = some t' → t' = t.markFired i := by
  refine ⟨?_, ?_, ?_, ?_⟩
  · intro configured idleTimeout s s' e hreach hstep hunset hset
    obtain ⟨i, timer, rfl, hget, htoken, hlive, hidle⟩ :=
      (watchEffect_step hstep).sets hunset hset
    have hi := reachable_tokenInv hreach
    exact ⟨i, rfl, hi.held i timer hget hlive htoken, hidle, (hi.step hstep).isSealed hset⟩
  · intro s s' i timer hget hne hstep
    exact fire_of_stale hget (Or.inl hne) hstep
  · intro configured idleTimeout s s' e hreach hstep hends es t hrun i hi t' hfire
    have hretired := (retired_of_endsWatch (reachable_tokenInv hreach) hstep hends).run hrun
    obtain ⟨timer, hget, -⟩ := fire_cases hfire
    exact fire_of_stale hget (Or.inl (Nat.ne_of_lt (hretired.old i hi timer hget))) hfire
  · intro configured idleTimeout s hreach hout es t hrun
    obtain ⟨hsealed, hout'⟩ := run_timedOut ⟨(reachable_tokenInv hreach).isSealed hout, hout⟩ hrun
    refine ⟨hout', fun i t' hfire => ?_⟩
    obtain ⟨timer, hget, -⟩ := fire_cases hfire
    exact fire_of_stale hget (Or.inr (Or.inl hsealed)) hfire

end EpochState

end AgentlyStage
