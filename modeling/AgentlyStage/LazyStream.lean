import AgentlyStage.SubmissionRuns

/-!
# The start of a lazy stream

A lazy `StageStream` submits its source when somebody first needs it, and hands the callbacks that
have been registered until then to the new handle.  `_start_lock` is held meanwhile; the other
threads can still seal the Stage, settle the source and end its epoch.

Readers, `get`, the waits, `cancel` and `close` all come in through `_ensure_started`; what they do
to the handle afterwards does not concern the start.
-/

namespace AgentlyStage

open Transition

/-! ## 1. State -/

structure LazyStream (ρ ε : Type) where
  stage : SubmissionState ρ ε
  /-- The callbacks that `_start` passes to `go`. -/
  initial : List CallbackKind := []
  handle : Option Nat := none
  closed : Bool := false
  /-- Numbered in the order of their registration on the stream. -/
  pendingCallbacks : List Callback := []
  /-- `_ensure_started` between its calls: the handle, and the callbacks still to be handed over. -/
  starting : Option (Nat × List Callback) := none
  /-- History: the registrations, the submissions of the source, and the callbacks handed to a
      handle. -/
  registrations : Nat := 0
  submissions : List Nat := []
  handed : List (Callback × Nat) := []

inductive LazyEvent (ρ ε : Type) where
  /-- `_ensure_started` up to the first callback. -/
  | ensureStarted (site : SubmissionSite ε)
  /-- `_register_on_handle` for the next pending callback. -/
  | handOver (site : SubmissionSite ε)
  | finishStart
  | register (kind : CallbackKind) (site : SubmissionSite ε)
  /-- The critical section of `close`. -/
  | close
  /-- Other threads use the Stage. -/
  | environment (event : EpochEvent) (permits : RootPermits → RootPermits)
      (records : (Nat → StageHandle ρ ε) → Nat → StageHandle ρ ε)

namespace LazyStream

variable {ρ ε : Type}

/-- `_ensure_started`, with `_start_lock` free. -/
def ensureStarted (s : LazyStream ρ ε) (site : SubmissionSite ε) : LazyStream ρ ε :=
  match s.handle with
  | some _ => s
  | none =>
    let started := s.stage.go site s.initial
    { s with
      stage := started.1
      submissions := s.submissions ++
        (started.1.handed.drop s.stage.handed.length).map Prod.fst
      starting :=
        if started.2.isNone then some (s.stage.epoch.handles.length, s.pendingCallbacks)
        else none }

/-- `_register_on_handle` in `_ensure_started`: when it raises, `_handle` has not been set and
    the pending callbacks are all still there. -/
def handOver (s : LazyStream ρ ε) (h : Nat) (handle : EpochHandle) (callback : Callback)
    (rest : List Callback) (site : SubmissionSite ε) : LazyStream ρ ε :=
  match s.stage.registerCallback h handle callback.kind site with
  | (stage, none) =>
    { s with stage := stage, starting := some (h, rest), handed := s.handed ++ [(callback, h)] }
  | (stage, some _) => { s with stage := stage, starting := none }

/-- `_register_callback`, with `_start_lock` free. -/
def register (s : LazyStream ρ ε) (kind : CallbackKind) (site : SubmissionSite ε) :
    Option (LazyStream ρ ε) :=
  match s.handle with
  | none =>
    some { s with
      pendingCallbacks := s.pendingCallbacks ++ [⟨kind, s.registrations⟩]
      registrations := s.registrations + 1 }
  | some h =>
    (s.stage.epoch.handles[h]?).map fun handle =>
      match s.stage.registerCallback h handle kind site with
      | (stage, none) =>
        { s with
          stage := stage
          registrations := s.registrations + 1
          handed := s.handed ++ [(⟨kind, s.registrations⟩, h)] }
      | (stage, some _) => { s with stage := stage, registrations := s.registrations + 1 }

def step (s : LazyStream ρ ε) : LazyEvent ρ ε → Option (LazyStream ρ ε)
  | .ensureStarted site => if s.starting.isSome then none else some (s.ensureStarted site)
  | .handOver site =>
    match s.starting with
    | some (h, callback :: rest) =>
      (s.stage.epoch.handles[h]?).map fun handle => s.handOver h handle callback rest site
    | _ => none
  | .finishStart =>
    match s.starting with
    | some (h, []) => some { s with pendingCallbacks := [], handle := some h, starting := none }
    | _ => none
  | .register kind site => if s.starting.isSome then none else s.register kind site
  | .close => if s.starting.isSome then none else some { s with closed := true }
  | .environment event permits records =>
    (s.stage.epoch.step event).map fun epoch =>
      { s with
        stage := { s.stage with
          epoch := epoch
          permits := permits s.stage.permits
          records := records s.stage.records } }

end LazyStream

/-- All interleavings of a new lazy stream of any Stage. -/
def lazySystem (ρ ε : Type) (configured : ConfiguredBackend) (idleTimeout : Option Nat) :
    System (LazyStream ρ ε) (LazyEvent ρ ε) where
  Init s := (epochSystem configured idleTimeout).Reachable s.stage.epoch ∧
    s = { stage := s.stage, initial := s.initial }
  step := LazyStream.step

namespace SubmissionState

variable {ρ ε : Type} {s : SubmissionState ρ ε}

/-! ## 2. The submission of the source -/

/-- A `go` hands over when it returns, and when only the cancellation of its handle fails. -/
theorem go_handed (hi : EpochState.EpochInv s.epoch) (site : SubmissionSite ε)
    (initial : List CallbackKind) :
    ((s.go site initial).1.handed = s.handed ∧ (s.go site initial).2.isNone = false ∧
      ∃ failure, s.goFailure site = some failure ∧ failure ≠ .uncancelled) ∨
    ∃ target, (s.go site initial).1.handed = s.handed ++ [(s.epoch.handles.length, target)] ∧
      (((s.go site initial).2.isNone = true ∧ s.goFailure site = none) ∨
        ((s.go site initial).2.isNone = false ∧ s.goFailure site = some .uncancelled)) := by
  rcases go_cases hi site initial with
    ⟨hfailure, error, hresult⟩ | ⟨admission, permits, -, -, hcases⟩
  · rw [hresult, hfailure]
    exact Or.inl ⟨rfl, rfl, _, rfl, fun heq => by cases heq⟩
  · rcases hcases with
      ⟨hfailure, -, error, hresult⟩ | ⟨selected, epoch, e, -, hnew, hcases⟩
    · rw [hresult, hfailure]
      exact Or.inl ⟨rfl, rfl, _, rfl, fun heq => by cases heq⟩
    · have hlast : ((e.retainWork s.epoch.handles.length).records
          s.epoch.handles.length).pendingWork = 1 := by
        rw [retainWork, records_setRecord, if_pos rfl, pendingWork_retainWork]
        exact congrArg Nat.succ hnew.pendingWork
      rcases hcases with ⟨hfailure, error, hresult⟩ | ⟨hfailure, error, hresult⟩ |
        ⟨s', hsubmitted, hends⟩
      · obtain ⟨-, -, -, -, -, hhanded⟩ := releaseWork_last_frame hlast
        rw [hresult, hfailure]
        exact Or.inl ⟨hhanded.trans hnew.handed, rfl, _, rfl, fun heq => by cases heq⟩
      · rw [hresult, hfailure]
        exact Or.inl ⟨hnew.handed, rfl, _, rfl, fun heq => by cases heq⟩
      · obtain ⟨target, -, hhanded⟩ := hsubmitted.handed
        have hnow : s'.handed = s.handed ++ [(s.epoch.handles.length, target)] := by
          rw [hhanded, hnew.handed]
        rcases hends with ⟨hfailure, hresult⟩ | ⟨hfailure, -, error, hresult⟩
        · rw [hresult, hfailure]
          exact Or.inr ⟨target, hnow, Or.inl ⟨rfl, rfl⟩⟩
        · rw [hresult, hfailure]
          exact Or.inr ⟨target, hnow, Or.inr ⟨rfl, rfl⟩⟩

/-- A nested call on a running loop, which everything lets pass. -/
def openSite : SubmissionSite ε where
  call := ⟨true, some 0, none, true, none, []⟩

/-- It is a call that no Stage refuses. -/
theorem goFailure_openSite (hi : EpochState.EpochInv s.epoch) : s.goFailure openSite = none := by
  have hresolve : ∃ selected epoch, s.epoch.resolveBackendLocked (openSite (ε := ε)).call =
      .ok (selected, epoch) := by
    unfold EpochState.resolveBackendLocked EpochState.selectBackend openSite
    cases s.epoch.activeBackend with
    | some backend => exact ⟨_, _, rfl⟩
    | none =>
      cases s.epoch.configured with
      | caller loop => exact ⟨_, _, rfl⟩
      | stage => exact ⟨_, _, rfl⟩
      | auto =>
        cases s.epoch.contextMode with
        | sync => exact ⟨_, _, rfl⟩
        | plain => exact ⟨_, _, rfl⟩
        | async => exact ⟨_, _, rfl⟩
  obtain ⟨⟨backend, loop⟩, epoch, hresolve⟩ := hresolve
  obtain ⟨hi', hbackend, hloop, -⟩ := hi.resolve hresolve
  have hbody : (openSite (ε := ε)).bodyFailure (backend, loop) = none := by
    cases backend with
    | stage => rfl
    | caller =>
      cases loop with
      | none =>
        have hsome := hi'.bound.caller hbackend
        rw [hloop] at hsome
        cases hsome
      | some loop =>
        have hposting : (openSite (ε := ε)).posting loop = .inline ∨
            (openSite (ε := ε)).posting loop = .posted := by
          unfold SubmissionSite.posting openSite
          dsimp only
          split
          · exact Or.inl rfl
          · exact Or.inr rfl
        rcases hposting with hposting | hposting
        · simp only [SubmissionSite.bodyFailure, hposting]
        · simp only [SubmissionSite.bodyFailure, hposting]
  have hallowed : s.epoch.callAllowed (openSite (ε := ε)).call = true := Bool.or_true _
  have hpermit : s.permits.admitRootLocked (openSite (ε := ε)).call.owned =
      .ok (none, s.permits) := rfl
  simp only [goFailure, hallowed, hpermit, hresolve, hbody]
  simp [openSite]

end SubmissionState

namespace LazyStream

variable {ρ ε : Type} {configured : ConfiguredBackend} {idleTimeout : Option Nat}
  {s s' : LazyStream ρ ε}

/-! ## 3. Starts that fail late -/

/-- The start raises after the source has been submitted: a pending callback is refused, or the
    loop of the new handle is closed when a Stage that is being cancelled cancels it. -/
def startFailsLate (s : LazyStream ρ ε) : LazyEvent ρ ε → Bool
  | .ensureStarted site =>
    s.handle.isNone && decide (s.stage.goFailure site = some .uncancelled)
  | .handOver site =>
    match s.starting with
    | some (h, _ :: _) =>
      s.stage.epoch.handles[h]?.any fun handle => (s.stage.lateFailure h handle site).isSome
    | _ => false
  | _ => false

/-- How far the start is, and what has been submitted and handed over by then. -/
inductive StartPhase (s : LazyStream ρ ε) : Prop where
  | idle (hhandle : s.handle = none) (hstarting : s.starting = none)
      (hsubmissions : s.submissions = []) (hhanded : s.handed = [])
  | starting (h : Nat) (done rest : List Callback) (hhandle : s.handle = none)
      (hstarting : s.starting = some (h, rest)) (hsubmissions : s.submissions = [h])
      (hpending : s.pendingCallbacks = done ++ rest)
      (hhanded : s.handed = done.map fun callback => (callback, h))
  | started (h : Nat) (hhandle : s.handle = some h) (hstarting : s.starting = none)
      (hsubmissions : s.submissions = [h]) (hpending : s.pendingCallbacks = [])

/-- Each registration has a number of its own. -/
structure Numbered (s : LazyStream ρ ε) : Prop where
  pending : (s.pendingCallbacks.map Callback.number).Nodup
  pendingBound : ∀ callback ∈ s.pendingCallbacks, callback.number < s.registrations
  handed : (s.handed.map fun entry => entry.1.number).Nodup
  handedBound : ∀ entry ∈ s.handed, entry.1.number < s.registrations

structure LazyInv (configured : ConfiguredBackend) (idleTimeout : Option Nat)
    (s : LazyStream ρ ε) : Prop where
  epoch : (epochSystem configured idleTimeout).Reachable s.stage.epoch
  phase : StartPhase s
  numbers : Numbered s

theorem LazyInv.epochInv (hi : LazyInv configured idleTimeout s) :
    EpochState.EpochInv s.stage.epoch :=
  EpochState.reachable_epochInv hi.epoch

/-- A number that is not in use is added. -/
theorem nodup_concat {numbers : List Nat} {n : Nat} (hnodup : numbers.Nodup)
    (hbound : ∀ k ∈ numbers, k < n) : (numbers ++ [n]).Nodup := by
  rw [List.nodup_append]
  refine ⟨hnodup, List.nodup_singleton n, fun k hk m hm => ?_⟩
  rw [List.mem_singleton.mp hm]
  exact Nat.ne_of_lt (hbound k hk)

/-- What has been handed over in a start is a part of the pending callbacks. -/
theorem Numbered.handOver (hn : Numbered s) {h : Nat} {callback : Callback}
    {done rest : List Callback} (hpending : s.pendingCallbacks = done ++ callback :: rest)
    (hhanded : s.handed = done.map fun callback => (callback, h)) {stage : SubmissionState ρ ε}
    {starting : Option (Nat × List Callback)} :
    Numbered { s with
      stage := stage
      starting := starting
      handed := s.handed ++ [(callback, h)] } := by
  have hsplit : s.handed ++ [(callback, h)] =
      (done ++ [callback]).map fun callback => (callback, h) := by
    rw [hhanded, List.map_append]
    rfl
  have hsub : (done ++ [callback]).Sublist s.pendingCallbacks := by
    rw [hpending, List.append_cons done callback rest]
    exact List.sublist_append_left _ _
  refine ⟨hn.pending, hn.pendingBound, ?_, fun entry hmem => ?_⟩
  · rw [hsplit, List.map_map]
    exact hn.pending.sublist (hsub.map _)
  · rw [hsplit] at hmem
    obtain ⟨callback', hmem', rfl⟩ := List.mem_map.mp hmem
    exact hn.pendingBound callback' (hsub.subset hmem')

/-- A registration on the stream that stays there. -/
theorem Numbered.append (hn : Numbered s) (kind : CallbackKind) :
    Numbered { s with
      pendingCallbacks := s.pendingCallbacks ++ [⟨kind, s.registrations⟩]
      registrations := s.registrations + 1 } := by
  refine ⟨?_, fun callback hmem => ?_, hn.handed,
    fun entry hmem => Nat.lt_succ_of_lt (hn.handedBound entry hmem)⟩
  · rw [List.map_append]
    refine nodup_concat hn.pending fun k hk => ?_
    obtain ⟨callback, hmem, rfl⟩ := List.mem_map.mp hk
    exact hn.pendingBound callback hmem
  · rcases List.mem_append.mp hmem with hmem | hmem
    · exact Nat.lt_succ_of_lt (hn.pendingBound callback hmem)
    · rw [List.mem_singleton.mp hmem]
      exact Nat.lt_succ_self _

/-- A registration that goes to the handle, or is refused there. -/
theorem Numbered.register (hn : Numbered s) (kind : CallbackKind) (h : Nat)
    (stage : SubmissionState ρ ε) (accepted : Bool) :
    Numbered { s with
      stage := stage
      registrations := s.registrations + 1
      handed := if accepted then s.handed ++ [(⟨kind, s.registrations⟩, h)] else s.handed } := by
  have hbound : ∀ entry ∈ s.handed, entry.1.number < s.registrations + 1 :=
    fun entry hmem => Nat.lt_succ_of_lt (hn.handedBound entry hmem)
  have hpending : ∀ callback ∈ s.pendingCallbacks, callback.number < s.registrations + 1 :=
    fun callback hmem => Nat.lt_succ_of_lt (hn.pendingBound callback hmem)
  cases accepted with
  | false => exact ⟨hn.pending, hpending, hn.handed, hbound⟩
  | true =>
    refine ⟨hn.pending, hpending, ?_, fun entry hmem => ?_⟩
    · simp only [if_true, List.map_append]
      refine nodup_concat hn.handed fun k hk => ?_
      obtain ⟨entry, hmem, rfl⟩ := List.mem_map.mp hk
      exact hn.handedBound entry hmem
    · rcases List.mem_append.mp hmem with hmem | hmem
      · exact hbound entry hmem
      · rw [List.mem_singleton.mp hmem]
        exact Nat.lt_succ_self _

/-- The handle, the lock and the histories of the start. -/
theorem StartPhase.congr (hp : StartPhase s) (hhandle : s'.handle = s.handle)
    (hstarting : s'.starting = s.starting) (hsubmissions : s'.submissions = s.submissions)
    (hpending : s.handle = none ∧ s.starting = none ∨ s'.pendingCallbacks = s.pendingCallbacks)
    (hhanded : s.handle ≠ none ∨ s'.handed = s.handed) : StartPhase s' := by
  cases hp with
  | idle hhandle' hstarting' hsubmissions' hhanded' =>
    refine .idle (hhandle.trans hhandle') (hstarting.trans hstarting')
      (hsubmissions.trans hsubmissions') ?_
    exact (hhanded.resolve_left fun hne => hne hhandle').trans hhanded'
  | starting h done rest hhandle' hstarting' hsubmissions' hpending' hhanded' =>
    refine .starting h done rest (hhandle.trans hhandle') (hstarting.trans hstarting')
      (hsubmissions.trans hsubmissions') ?_ ?_
    · refine (hpending.resolve_left fun hfree => ?_).trans hpending'
      exact nomatch hfree.2.symm.trans hstarting'
    · exact (hhanded.resolve_left fun hne => hne hhandle').trans hhanded'
  | started h hhandle' hstarting' hsubmissions' hpending' =>
    refine .started h (hhandle.trans hhandle') (hstarting.trans hstarting')
      (hsubmissions.trans hsubmissions') ?_
    refine (hpending.resolve_left fun hfree => ?_).trans hpending'
    exact nomatch hfree.1.symm.trans hhandle'

/-! ## 4. The steps -/

theorem epoch_ensureStarted
    (hreach : (epochSystem configured idleTimeout).Reachable s.stage.epoch)
    (site : SubmissionSite ε) :
    (epochSystem configured idleTimeout).Reachable (s.ensureStarted site).stage.epoch := by
  unfold LazyStream.ensureStarted
  split
  · exact hreach
  · exact SubmissionState.reachable_go hreach site s.initial

/-- A start that nobody has made before. -/
theorem ensureStarted_cases (hi : EpochState.EpochInv s.stage.epoch) (hhandle : s.handle = none)
    (site : SubmissionSite ε) :
    ∃ stage, (s.stage.goFailure site = none ∧ s.ensureStarted site = { s with
        stage := stage
        submissions := s.submissions ++ [s.stage.epoch.handles.length]
        starting := some (s.stage.epoch.handles.length, s.pendingCallbacks) }) ∨
      (s.stage.goFailure site = some .uncancelled ∧ s.ensureStarted site = { s with
        stage := stage
        submissions := s.submissions ++ [s.stage.epoch.handles.length]
        starting := none }) ∨
      ((∃ failure, s.stage.goFailure site = some failure ∧ failure ≠ .uncancelled) ∧
        s.ensureStarted site = { s with
          stage := stage
          starting := none }) := by
  refine ⟨(s.stage.go site s.initial).1, ?_⟩
  unfold LazyStream.ensureStarted
  rw [hhandle]
  dsimp only
  rcases SubmissionState.go_handed hi site s.initial with
    ⟨hhanded, hraises, hfailure⟩ | ⟨target, hhanded, ⟨hreturns, hfailure⟩ | ⟨hraises, hfailure⟩⟩
  · refine Or.inr (Or.inr ⟨hfailure, ?_⟩)
    rw [hhanded, List.drop_length, hraises]
    simp
  · refine Or.inl ⟨hfailure, ?_⟩
    rw [hhanded, List.drop_left, hreturns]
    rfl
  · refine Or.inr (Or.inl ⟨hfailure, ?_⟩)
    rw [hhanded, List.drop_left, hraises]
    rfl

/-- Nothing has been submitted while there is neither a handle nor a start. -/
theorem StartPhase.of_free (hp : StartPhase s) (hhandle : s.handle = none)
    (hstarting : s.starting = none) : s.submissions = [] ∧ s.handed = [] := by
  cases hp with
  | idle _ _ hsubmissions hhanded => exact ⟨hsubmissions, hhanded⟩
  | starting h done rest _ hstarting' => exact nomatch hstarting.symm.trans hstarting'
  | started h hhandle' => exact nomatch hhandle.symm.trans hhandle'

theorem StartPhase.of_starting (hp : StartPhase s) {h : Nat} {rest : List Callback}
    (hstarting : s.starting = some (h, rest)) : s.handle = none ∧ s.submissions = [h] ∧
      ∃ done, s.pendingCallbacks = done ++ rest ∧
        s.handed = done.map fun callback => (callback, h) := by
  cases hp with
  | idle _ hstarting' => exact nomatch hstarting.symm.trans hstarting'
  | starting h' done rest' hhandle hstarting' hsubmissions hpending hhanded =>
    have heq := hstarting.symm.trans hstarting'
    cases heq
    exact ⟨hhandle, hsubmissions, done, hpending, hhanded⟩
  | started h' _ hstarting' => exact nomatch hstarting.symm.trans hstarting'

theorem LazyInv.ensureStarted (hi : LazyInv configured idleTimeout s)
    (hstarting : s.starting = none) {site : SubmissionSite ε}
    (hlate : s.startFailsLate (.ensureStarted site) = false) :
    LazyInv configured idleTimeout (s.ensureStarted site) := by
  have hepoch := epoch_ensureStarted (s := s) hi.epoch site
  cases hhandle : s.handle with
  | some h =>
    have hsame : s.ensureStarted site = s := by
      unfold LazyStream.ensureStarted
      rw [hhandle]
    rw [hsame]
    exact hi
  | none =>
    obtain ⟨hsubmissions, hhanded⟩ := hi.phase.of_free hhandle hstarting
    obtain ⟨hpending, hpendingBound, hnodup, hbound⟩ := hi.numbers
    obtain ⟨stage, ⟨-, heq⟩ | ⟨hfailure, -⟩ | ⟨-, heq⟩⟩ :=
      ensureStarted_cases hi.epochInv hhandle site
    · rw [heq] at hepoch ⊢
      refine ⟨hepoch, .starting _ [] s.pendingCallbacks hhandle rfl ?_ rfl hhanded,
        hpending, hpendingBound, hnodup, hbound⟩
      exact congrArg (· ++ _) hsubmissions
    · simp [startFailsLate, hhandle, hfailure] at hlate
    · rw [heq] at hepoch ⊢
      exact ⟨hepoch, .idle hhandle rfl hsubmissions hhanded, hpending, hpendingBound, hnodup,
        hbound⟩

theorem LazyInv.handOver (hi : LazyInv configured idleTimeout s) {h : Nat} {handle : EpochHandle}
    {callback : Callback} {rest : List Callback}
    (hstarting : s.starting = some (h, callback :: rest))
    (hget : s.stage.epoch.handles[h]? = some handle) {site : SubmissionSite ε}
    (haccepted : s.stage.lateFailure h handle site = none) :
    LazyInv configured idleTimeout (s.handOver h handle callback rest site) := by
  have hreach := SubmissionState.reachable_registerCallback hi.epoch hget callback.kind site
  have hreturns := (SubmissionState.registerCallback_raises_iff hi.epochInv h handle
    callback.kind site).mpr haccepted
  obtain ⟨hhandle, hsubmissions, done, hpending, hhanded⟩ := hi.phase.of_starting hstarting
  unfold LazyStream.handOver
  cases hcall : s.stage.registerCallback h handle callback.kind site with
  | mk stage error =>
    rw [hcall] at hreach hreturns
    cases hreturns
    refine ⟨hreach, .starting h (done ++ [callback]) rest hhandle rfl hsubmissions ?_ ?_,
      hi.numbers.handOver hpending hhanded⟩
    · rw [List.append_assoc]
      exact hpending
    · dsimp only
      rw [hhanded, List.map_append]
      rfl

theorem LazyInv.register (hi : LazyInv configured idleTimeout s) (hstarting : s.starting = none)
    {kind : CallbackKind} {site : SubmissionSite ε} (hstep : s.register kind site = some s') :
    LazyInv configured idleTimeout s' := by
  unfold LazyStream.register at hstep
  split at hstep
  · rename_i hhandle
    cases hstep
    exact ⟨hi.epoch, hi.phase.congr rfl rfl rfl (Or.inl ⟨hhandle, hstarting⟩) (Or.inr rfl),
      hi.numbers.append kind⟩
  · rename_i h hhandle
    obtain ⟨handle, hget, rfl⟩ := Option.map_eq_some_iff.mp hstep
    have hreach := SubmissionState.reachable_registerCallback hi.epoch hget kind site
    cases hcall : s.stage.registerCallback h handle kind site with
    | mk stage error =>
      rw [hcall] at hreach
      have hhad : s.handle ≠ none := by
        rw [hhandle]
        exact nofun
      cases error with
      | none =>
        exact ⟨hreach, hi.phase.congr rfl rfl rfl (Or.inr rfl) (Or.inl hhad),
          hi.numbers.register kind h stage true⟩
      | some error =>
        exact ⟨hreach, hi.phase.congr rfl rfl rfl (Or.inr rfl) (Or.inl hhad),
          hi.numbers.register kind h stage false⟩

/-- **Step lemma of a lazy stream.** -/
theorem LazyInv.step (hi : LazyInv configured idleTimeout s) {e : LazyEvent ρ ε}
    (hlate : s.startFailsLate e = false) (hstep : s.step e = some s') :
    LazyInv configured idleTimeout s' := by
  cases e with
  | ensureStarted site =>
    simp only [LazyStream.step] at hstep
    split at hstep
    · cases hstep
    · rename_i hfree
      cases hstep
      exact hi.ensureStarted (by simpa using hfree) hlate
  | handOver site =>
    simp only [LazyStream.step] at hstep
    split at hstep
    · rename_i h callback rest hstarting
      obtain ⟨handle, hget, rfl⟩ := Option.map_eq_some_iff.mp hstep
      refine hi.handOver hstarting hget ?_
      simpa [startFailsLate, hstarting, hget] using hlate
    · cases hstep
  | finishStart =>
    simp only [LazyStream.step] at hstep
    split at hstep
    · rename_i h hstarting
      cases hstep
      obtain ⟨-, hsubmissions, -⟩ := hi.phase.of_starting hstarting
      exact ⟨hi.epoch, .started h rfl rfl hsubmissions rfl, List.nodup_nil, nofun,
        hi.numbers.handed, hi.numbers.handedBound⟩
    · cases hstep
  | register kind site =>
    simp only [LazyStream.step] at hstep
    split at hstep
    · cases hstep
    · rename_i hfree
      exact hi.register (by simpa using hfree) hstep
  | close =>
    simp only [LazyStream.step] at hstep
    split at hstep
    · cases hstep
    · cases hstep
      obtain ⟨hpending, hpendingBound, hnodup, hbound⟩ := hi.numbers
      exact ⟨hi.epoch, hi.phase.congr rfl rfl rfl (Or.inr rfl) (Or.inr rfl), hpending,
        hpendingBound, hnodup, hbound⟩
  | environment event permits records =>
    obtain ⟨epoch, hevent, rfl⟩ := Option.map_eq_some_iff.mp hstep
    obtain ⟨hpending, hpendingBound, hnodup, hbound⟩ := hi.numbers
    exact ⟨.step hi.epoch trivial hevent,
      hi.phase.congr rfl rfl rfl (Or.inr rfl) (Or.inr rfl), hpending, hpendingBound, hnodup,
      hbound⟩

theorem reachUnder_lazyInv
    (h : (lazySystem ρ ε configured idleTimeout).ReachUnder
      (fun s e => s.startFailsLate e = false) s) : LazyInv configured idleTimeout s := by
  refine System.ReachUnder.invariant ?_ (fun _ _ _ hi hok hstep => hi.step hok hstep) h
  rintro s ⟨hepoch, heq⟩
  rw [heq]
  exact ⟨hepoch, .idle rfl rfl rfl rfl, List.nodup_nil, nofun, List.nodup_nil, nofun⟩

/-! ## 5. The second start -/

/-- What a start that fails late leaves: no handle, one submission, and all the callbacks. -/
structure Restartable (configured : ConfiguredBackend) (idleTimeout : Option Nat)
    (s : LazyStream ρ ε) : Prop where
  epoch : (epochSystem configured idleTimeout).Reachable s.stage.epoch
  handle : s.handle = none
  starting : s.starting = none
  submissions : s.submissions.length = 1
  handed : ∀ entry ∈ s.handed, entry.1 ∈ s.pendingCallbacks

theorem LazyInv.restartable (hi : LazyInv configured idleTimeout s) {e : LazyEvent ρ ε}
    (hlate : s.startFailsLate e = true) (hstep : s.step e = some s') :
    Restartable configured idleTimeout s' := by
  cases e with
  | ensureStarted site =>
    rw [startFailsLate, Bool.and_eq_true, Option.isNone_iff_eq_none, decide_eq_true_iff] at hlate
    obtain ⟨hhandle, huncancelled⟩ := hlate
    simp only [LazyStream.step] at hstep
    split at hstep
    · cases hstep
    · rename_i hfree
      cases hstep
      have hstarting : s.starting = none := by simpa using hfree
      obtain ⟨hsubmissions, hhanded⟩ := hi.phase.of_free hhandle hstarting
      have hepoch := epoch_ensureStarted (s := s) hi.epoch site
      obtain ⟨stage, ⟨hnone, -⟩ | ⟨-, heq⟩ | ⟨hne, -⟩⟩ :=
        ensureStarted_cases hi.epochInv hhandle site
      · exact nomatch huncancelled.symm.trans hnone
      · rw [heq] at hepoch ⊢
        refine ⟨hepoch, hhandle, rfl, ?_, fun entry hmem => ?_⟩
        · dsimp only
          rw [hsubmissions]
          rfl
        · rw [hhanded] at hmem
          cases hmem
      · obtain ⟨failure, hfailure, hne⟩ := hne
        exact absurd (Option.some.inj (hfailure.symm.trans huncancelled)) hne
  | handOver site =>
    simp only [LazyStream.step] at hstep
    split at hstep
    · rename_i h callback rest hstarting
      obtain ⟨handle, hget, rfl⟩ := Option.map_eq_some_iff.mp hstep
      have hrefused : (s.stage.lateFailure h handle site).isSome = true := by
        simpa [startFailsLate, hstarting, hget] using hlate
      have hreach := SubmissionState.reachable_registerCallback hi.epoch hget callback.kind site
      have hiff := SubmissionState.registerCallback_raises_iff hi.epochInv h handle
        callback.kind site
      obtain ⟨hhandle, hsubmissions, done, hpending, hhanded⟩ := hi.phase.of_starting hstarting
      unfold LazyStream.handOver
      cases hcall : s.stage.registerCallback h handle callback.kind site with
      | mk stage error =>
        rw [hcall] at hreach hiff
        cases error with
        | none =>
          rw [hiff.mp rfl] at hrefused
          cases hrefused
        | some error =>
          refine ⟨hreach, hhandle, rfl, congrArg List.length hsubmissions, fun entry hmem => ?_⟩
          rw [hhanded] at hmem
          obtain ⟨callback', hmem', rfl⟩ := List.mem_map.mp hmem
          rw [hpending]
          exact List.mem_append_left _ hmem'
    · cases hstep
  | finishStart => cases hlate
  | register kind site => cases hlate
  | close => cases hlate
  | environment event permits records => cases hlate

/-- The next caller that needs the stream submits the source again, and has all the callbacks to
    hand over once more. -/
theorem Restartable.second_start (hr : Restartable configured idleTimeout s) :
    ∃ s' h, s.step (.ensureStarted SubmissionState.openSite) = some s' ∧
      s'.submissions.length = 2 ∧ s'.starting = some (h, s.pendingCallbacks) := by
  have hi := EpochState.reachable_epochInv hr.epoch
  have hstep : s.step (.ensureStarted SubmissionState.openSite) =
      some (s.ensureStarted SubmissionState.openSite) := by
    simp [LazyStream.step, hr.starting]
  refine ⟨_, s.stage.epoch.handles.length, hstep, ?_⟩
  obtain ⟨stage, ⟨-, heq⟩ | ⟨hfailure, -⟩ | ⟨hfailure, -⟩⟩ :=
    ensureStarted_cases hi hr.handle SubmissionState.openSite
  · rw [heq]
    refine ⟨?_, rfl⟩
    dsimp only
    rw [List.length_append, hr.submissions]
    rfl
  · exact nomatch (SubmissionState.goFailure_openSite hi).symm.trans hfailure
  · obtain ⟨failure, hfailure, -⟩ := hfailure
    exact nomatch (SubmissionState.goFailure_openSite hi).symm.trans hfailure

/-- **One start, unless it fails late.**  In every run in which no start fails after it has
    submitted the source, there is one submission at most and no callback is handed to a handle
    twice; after a start that fails so, the next one submits the source again. -/
theorem lazy_start_iff :
    (∀ configured idleTimeout (s : LazyStream ρ ε),
      (lazySystem ρ ε configured idleTimeout).ReachUnder (fun s e => s.startFailsLate e = false) s →
        s.submissions.length ≤ 1 ∧ (s.handed.map fun entry => entry.1.number).Nodup) ∧
    ∀ configured idleTimeout (s s' : LazyStream ρ ε) e,
      (lazySystem ρ ε configured idleTimeout).ReachUnder (fun s e => s.startFailsLate e = false) s →
      s.startFailsLate e = true → s.step e = some s' →
        (∀ entry ∈ s'.handed, entry.1 ∈ s'.pendingCallbacks) ∧ ∃ site s'' h,
          s'.step (.ensureStarted site) = some s'' ∧ s''.submissions.length = 2 ∧
            s''.starting = some (h, s'.pendingCallbacks) := by
  constructor
  · intro configured idleTimeout s hreach
    have hi := reachUnder_lazyInv hreach
    refine ⟨?_, hi.numbers.handed⟩
    cases hi.phase with
    | idle _ _ hsubmissions _ =>
      rw [hsubmissions]
      exact Nat.zero_le _
    | starting h _ _ _ _ hsubmissions _ _ =>
      rw [hsubmissions]
      exact Nat.le_refl _
    | started h _ _ hsubmissions _ =>
      rw [hsubmissions]
      exact Nat.le_refl _
  · intro configured idleTimeout s s' e hreach hlate hstep
    have hr := (reachUnder_lazyInv hreach).restartable hlate hstep
    obtain ⟨s'', h, hsecond, hlength, hstarting⟩ := hr.second_start
    exact ⟨hr.handed, SubmissionState.openSite, s'', h, hsecond, hlength, hstarting⟩

/-- A thread, and work of the Stage itself. -/
def readerSite (owned : Bool) : SubmissionSite Nat where
  call := ⟨owned, none, none, true, none, []⟩

/-- Two callbacks; the Stage is sealed when the first of them has been handed over, and work that
    still runs in the Stage reads the stream. -/
def sealedStart : List (LazyEvent Nat Nat) :=
  [.register .success (readerSite false), .register .finally (readerSite false),
    .ensureStarted (readerSite false), .handOver (readerSite false),
    .environment .sealScope id id, .handOver (readerSite false),
    .ensureStarted (readerSite true), .handOver (readerSite true)]

def lazyInit : LazyStream Nat Nat where
  stage := {
    epoch := { configured := .stage, idleTimeout := none }
    permits := { maxConcurrency := none, maxPending := none } }

/-- The source is submitted twice, and the first callback handed to both handles. -/
theorem sealed_start_submits_twice :
    ∃ s, (lazySystem Nat Nat .stage none).run lazyInit sealedStart = some s ∧
      (lazySystem Nat Nat .stage none).Reachable s ∧ s.submissions = [0, 1] ∧
      s.handed = [(⟨.success, 0⟩, 0), (⟨.success, 0⟩, 1)] ∧ ¬ s.submissions.length ≤ 1 ∧
      ¬ (s.handed.map fun entry => entry.1.number).Nodup := by
  have hend : ((lazySystem Nat Nat .stage none).run lazyInit sealedStart).any (fun s =>
      decide (s.submissions = [0, 1] ∧
        s.handed = [(⟨.success, 0⟩, 0), (⟨.success, 0⟩, 1)])) = true := by
    decide
  obtain ⟨s, hrun, hs⟩ := (Option.any_eq_true _ _).mp hend
  obtain ⟨hsubmissions, hhanded⟩ := of_decide_eq_true hs
  have hreach : (lazySystem Nat Nat .stage none).Reachable s :=
    System.reachable_of_run (s := lazyInit) sealedStart ⟨.init rfl, rfl⟩ hrun
  refine ⟨s, hrun, hreach, hsubmissions, hhanded, ?_, ?_⟩
  · rw [hsubmissions]
    decide
  · rw [hhanded]
    decide

end LazyStream

end AgentlyStage
