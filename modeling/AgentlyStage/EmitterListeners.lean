import AgentlyStage.EmitterLaws
import Mathlib.Data.Finset.Card
import Mathlib.Data.List.Infix

/-!
# The listeners of an event

What `listener_count` counts, what an `emit` submits, and what it leaves behind when `go` refuses
a listener in the middle of it.  `add_once_listener` looks into both registries and `add_listener`
into one: a once listener that is registered with `on` as well is listed, counted and submitted
twice.  An `emit` has taken the once listeners out of the registry before it submits the first one.
-/

namespace AgentlyStage

/-! ## 1. One emit -/

/-- What an `emit` raises. -/
inductive EmitError (ε : Type) where
  /-- `_ensure_open_locked`. -/
  | closed
  /-- `go` refuses a listener. -/
  | refused (error : ε)
deriving DecidableEq, Repr

/-- What an `emit` leaves behind, and the listeners that it has submitted. -/
structure Emission (α β σ ε : Type) where
  registry : EmitterRegistry α β
  stage : σ
  submitted : List (Registration β) := []
  error : Option (EmitError ε) := none

namespace EmitterRegistry

variable {α β σ ε : Type} [DecidableEq α] [DecidableEq β]

/-- The submissions of an `emit`, one by one; `go` changes the Stage, also when it raises. -/
def submitEach (go : σ → β → σ × Option ε) (stage : σ) (g : EmitterRegistry α β) :
    List (Registration β) → List (Registration β) → Emission α β σ ε
  | submitted, [] => { registry := g, stage := stage, submitted := submitted }
  | submitted, entry :: rest =>
    match go stage entry.listener with
    | (stage', none) => submitEach go stage' g (submitted ++ [entry]) rest
    | (stage', some error) =>
      { registry := g, stage := stage', submitted := submitted, error := some (.refused error) }

/-- `emit` inside the registry lock. -/
def emit (g : EmitterRegistry α β) (go : σ → β → σ × Option ε) (closed : Bool) (stage : σ)
    (event : α) : Emission α β σ ε :=
  if closed then { registry := g, stage := stage, error := some .closed }
  else submitEach go stage (g.popOnce event) [] (g.registered event)

/-- `listener_count`. -/
def listenerCount (g : EmitterRegistry α β) (event : α) : Nat :=
  (g.listeners event).length + (g.once event).length

/-- The position of the first listener that `go` refuses. -/
def refusedAt (go : σ → β → σ × Option ε) (stage : σ) : List (Registration β) → Option Nat
  | [] => none
  | entry :: rest =>
    match go stage entry.listener with
    | (stage', none) => (refusedAt go stage' rest).map (· + 1)
    | (_, some _) => some 0

omit [DecidableEq α] [DecidableEq β] in
theorem submitEach_registry (go : σ → β → σ × Option ε) (g : EmitterRegistry α β)
    (entries : List (Registration β)) :
    ∀ stage submitted, (submitEach go stage g submitted entries).registry = g := by
  induction entries with
  | nil => intro stage submitted; rfl
  | cons entry rest ih =>
    intro stage submitted
    rw [submitEach]
    split
    · exact ih _ _
    · rfl

omit [DecidableEq α] [DecidableEq β] in
/-- The listeners before the first refused one are submitted, and no others. -/
theorem submitEach_refusedAt (go : σ → β → σ × Option ε) (g : EmitterRegistry α β)
    (entries : List (Registration β)) :
    ∀ stage submitted,
      match refusedAt go stage entries with
      | none => (submitEach go stage g submitted entries).submitted = submitted ++ entries ∧
          (submitEach go stage g submitted entries).error = none
      | some k => (submitEach go stage g submitted entries).submitted =
            submitted ++ entries.take k ∧
          (submitEach go stage g submitted entries).error ≠ none := by
  induction entries with
  | nil => intro stage submitted; simp [refusedAt, submitEach]
  | cons entry rest ih =>
    intro stage submitted
    rw [refusedAt, submitEach]
    cases hgo : go stage entry.listener with
    | mk stage' error =>
      cases error with
      | some error => simp
      | none =>
        have hrest := ih stage' (submitted ++ [entry])
        cases hat : refusedAt go stage' rest with
        | none => simpa [hat] using hrest
        | some k => simpa [hat] using hrest

omit [DecidableEq β] in
/-- An `emit` takes the once listeners of its event, whether it raises or not. -/
theorem emit_registry (g : EmitterRegistry α β) (go : σ → β → σ × Option ε) (stage : σ)
    (event : α) : (g.emit go false stage event).registry = g.popOnce event :=
  submitEach_registry go _ _ _ _

omit [DecidableEq β] in
theorem emit_submits_registered (g : EmitterRegistry α β) (go : σ → β → σ × Option ε) (stage : σ)
    (event : α) : (g.emit go false stage event).submitted <+: g.registered event := by
  have h := submitEach_refusedAt go (g.popOnce event) (g.registered event) stage []
  have hemit : g.emit go false stage event =
      submitEach go stage (g.popOnce event) [] (g.registered event) := rfl
  rw [hemit]
  cases hat : refusedAt go stage (g.registered event) with
  | none =>
    rw [hat] at h
    rw [h.1, List.nil_append]
  | some k =>
    rw [hat] at h
    rw [h.1, List.nil_append]
    exact List.take_prefix _ _

/-! ## 2. What a failed emit consumes -/

/-- An `emit` that raises has submitted every once listener that it does not leave registered. -/
def KeepsOnce (g : EmitterRegistry α β) (event : α) (emission : Emission α β σ ε) : Prop :=
  emission.error ≠ none → ∀ entry ∈ g.once event,
    lists emission.submitted entry.listener = true ∨
      lists (emission.registry.registered event) entry.listener = true

/-- The once listeners that `go` has not come to are persistent listeners, or listed before. -/
def Covered (g : EmitterRegistry α β) (event : α) (k : Nat) : Prop :=
  ∀ entry ∈ g.once event, lists (g.listeners event) entry.listener = true ∨
    lists ((g.registered event).take k) entry.listener = true

omit [DecidableEq β] in
theorem registered_popOnce (g : EmitterRegistry α β) (event : α) :
    (g.popOnce event).registered event = g.listeners event := by
  simp [registered, popOnce]

/-- **A failed emit.**  An `emit` that raises keeps every once listener that it has not submitted
    if and only if it finds the emitter closed, no listener is refused, or each once listener is a
    persistent listener too or stands before the first listener that is refused. -/
theorem emit_keeps_once_iff (g : EmitterRegistry α β) (go : σ → β → σ × Option ε) (closed : Bool)
    (stage : σ) (event : α) :
    KeepsOnce g event (g.emit go closed stage event) ↔
      (closed = true ∨ ∀ k, refusedAt go stage (g.registered event) = some k →
        Covered g event k) := by
  cases closed with
  | true =>
    refine ⟨fun _ => Or.inl rfl, fun _ _ entry hentry => Or.inr ?_⟩
    simp only [emit, registered, lists, List.any_append, Bool.or_eq_true, List.any_eq_true]
    exact Or.inr ⟨entry, hentry, by simp⟩
  | false =>
    have hspec := submitEach_refusedAt go (g.popOnce event) (g.registered event) stage []
    have hemit : g.emit go false stage event =
        submitEach go stage (g.popOnce event) [] (g.registered event) := rfl
    rw [KeepsOnce, emit_registry, registered_popOnce, hemit]
    cases hat : refusedAt go stage (g.registered event) with
    | none =>
      rw [hat] at hspec
      simp [hspec.2]
    | some k =>
      rw [hat] at hspec
      rw [hspec.1, List.nil_append]
      constructor
      · intro hkeeps
        refine Or.inr fun k' hk' => ?_
        cases hk'
        exact fun entry hentry => (hkeeps hspec.2 entry hentry).symm
      · rintro (hclosed | hcovered) -
        · cases hclosed
        · exact fun entry hentry => (hcovered k rfl entry hentry).symm

/-- `go` refuses what is not callable. -/
def goCallable (count : Nat) (listener : Nat × Bool) : Nat × Option String :=
  if listener.2 then (count + 1, none) else (count, some "Unsupported Stage task")

/-- `on(event, 0)`, where 0 is not callable, and then `once(event, f)`. -/
def withUnsupported : EmitterRegistry Unit (Nat × Bool) :=
  after [.on () (0, false), .once () (1, true)]

/-- The once listener has been taken and is not submitted. -/
theorem failed_emit_loses_once :
    ¬ KeepsOnce withUnsupported () (withUnsupported.emit goCallable false 0 ()) := by
  intro hkeeps
  have hlost := hkeeps (by decide) ⟨(1, true), 1⟩ (by decide)
  revert hlost
  decide

/-! ## 3. One registration of a listener -/

/-- No listener is registered twice for an event; an `emit` submits each listener at most once,
    whatever `go` accepts, and `listener_count` is the number of distinct listeners. -/
structure OneEach (g : EmitterRegistry α β) : Prop where
  registered : ∀ event, ((g.registered event).map Registration.listener).Nodup
  emitted : ∀ (σ ε : Type) (go : σ → β → σ × Option ε) stage event listener,
    ((g.emit go false stage event).submitted.map Registration.listener).count listener ≤ 1
  counted : ∀ event,
    g.listenerCount event = ((g.registered event).map Registration.listener).toFinset.card

/-- `on` for a listener that is a once listener of the event and no persistent one. -/
def registersTwice (g : EmitterRegistry α β) : EmitterOp α β → Bool
  | .on event listener => lists (g.once event) listener && !lists (g.listeners event) listener
  | _ => false

/-- No persistent listener of an event is one of its once listeners. -/
def Apart (g : EmitterRegistry α β) : Prop :=
  ∀ event, ∀ r ∈ g.listeners event, ∀ r' ∈ g.once event, r.listener ≠ r'.listener

variable {g : EmitterRegistry α β} {op : EmitterOp α β}

theorem OneEach.of_nodup
    (h : ∀ event, ((g.registered event).map Registration.listener).Nodup) : g.OneEach where
  registered := h
  emitted σ ε go stage event listener :=
    List.nodup_iff_count_le_one.mp
      ((h event).sublist ((emit_submits_registered g go stage event).sublist.map _)) listener
  counted event := by
    rw [List.toFinset_card_of_nodup (h event)]
    simp [listenerCount, EmitterRegistry.registered]

omit [DecidableEq α] [DecidableEq β] in
theorem nodup_iff_apart (hlisted : g.AllListed) :
    (∀ event, ((g.registered event).map Registration.listener).Nodup) ↔ g.Apart := by
  refine forall_congr' fun event => ?_
  rw [List.Nodup, List.pairwise_map, registered, List.pairwise_append]
  exact ⟨fun h => h.2.2, fun h => ⟨(hlisted event).1.distinct, (hlisted event).2.distinct, h⟩⟩

/-- An `add_once_listener` that registers has looked into both lists. -/
theorem lists_of_once {event : α} {listener : β}
    (hcount : (g.apply (.once event listener)).registrations = g.registrations + 1) :
    lists (g.listeners event) listener = false := by
  cases hlists : lists (g.listeners event) listener with
  | false => rfl
  | true => simp [apply, addOnceListener, hlists] at hcount

theorem Apart.apply (h : g.Apart) (hop : g.registersTwice op = false) : (g.apply op).Apart := by
  have he := evolves_apply g op
  intro event r hr r' hr'
  rcases he.listeners event with hsub | ⟨listener, rfl, hnew, heq, -⟩
  · rcases he.once event with hsub' | ⟨listener, rfl, -, heq', hcount⟩
    · exact h event r (hsub.subset hr) r' (hsub'.subset hr')
    · rw [heq'] at hr'
      rcases List.mem_append.mp hr' with hr' | hr'
      · exact h event r (hsub.subset hr) r' hr'
      · rw [List.mem_singleton.mp hr']
        exact lists_eq_false_iff.mp (lists_of_once hcount) r (hsub.subset hr)
  · have honce : lists (g.once event) listener = false := by
      simpa [registersTwice, hnew] using hop
    rcases he.once event with hsub' | ⟨_, hother, -⟩
    · rw [heq] at hr
      rcases List.mem_append.mp hr with hr | hr
      · exact h event r hr r' (hsub'.subset hr')
      · rw [List.mem_singleton.mp hr]
        exact fun heq => lists_eq_false_iff.mp honce r' (hsub'.subset hr') heq.symm
    · cases hother

/-- The listener is in both lists afterwards. -/
theorem not_apart_of_registersTwice (hop : g.registersTwice op = true) :
    ¬ (g.apply op).Apart := by
  cases op with
  | on event listener =>
    obtain ⟨honce, hnew⟩ : lists (g.once event) listener = true ∧
        lists (g.listeners event) listener = false := by
      simpa [registersTwice] using hop
    obtain ⟨r', hr', heq⟩ : ∃ r' ∈ g.once event, r'.listener = listener := by
      simpa [lists] using honce
    intro h
    refine h event ⟨listener, g.registrations⟩ ?_ r' ?_ heq.symm
    · simp [apply, addListener, hnew]
    · simpa [apply, addListener, hnew] using hr'
  | once event listener => cases hop
  | off event listener => cases hop
  | removeAllListeners events => cases hop
  | emit event nested => cases hop
  | close => cases hop

theorem oneEach_iff_apart (ops : List (EmitterOp α β)) :
    (after ops).OneEach ↔ (after ops).Apart :=
  ⟨fun h => (nodup_iff_apart (allListed_after ops)).mp h.registered,
    fun h => .of_nodup ((nodup_iff_apart (allListed_after ops)).mpr h)⟩

/-- **One registration each.**  Along a sequence of operations no listener is ever registered
    twice for an event, and what an `emit` submits and `listener_count` counts are the distinct
    listeners, if and only if no operation is an `on` for a listener that is a once listener of
    the event at that moment and not a persistent one. -/
theorem one_each_iff (ops : List (EmitterOp α β)) :
    (∀ before, before <+: ops → (after before).OneEach) ↔
      ∀ before op, before ++ [op] <+: ops → (after before).registersTwice op = false := by
  constructor
  · intro h before op hprefix
    by_contra htwice
    have happly : after (before ++ [op]) = (after before).apply op := by
      rw [after_append]
      rfl
    refine not_apart_of_registersTwice (Bool.eq_true_of_not_eq_false htwice) ?_
    rw [← happly]
    exact (oneEach_iff_apart _).mp (h _ hprefix)
  · intro h before
    induction before using List.reverseRecOn with
    | nil =>
      intro _
      refine (oneEach_iff_apart []).mpr fun event r hr => ?_
      cases hr
    | append_singleton before op ih =>
      intro hprefix
      have hbefore := ih ((List.prefix_append before [op]).trans hprefix)
      rw [oneEach_iff_apart] at hbefore ⊢
      rw [after_append]
      exact hbefore.apply (h before op hprefix)

/-- `once(event, f)` and then `on(event, f)`. -/
theorem once_then_on_lists_twice :
    ¬ ∀ ops : List (EmitterOp Unit Nat), (after ops).OneEach := by
  intro h
  have hcounted := (h [.once () 0, .on () 0]).counted ()
  revert hcounted
  decide

end EmitterRegistry

end AgentlyStage
