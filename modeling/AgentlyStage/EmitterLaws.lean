import AgentlyStage.EventEmitter

/-!
# The laws of the event emitter

Every call takes effect at one moment inside the registry lock, and the registries are what the
calls leave behind when they are made one after the other in this order.  An `emit` submits what
is registered at its moment; it takes the once listeners with it.  The Stage is sealed by a
`close` that has set the flag, so an `emit` inside the lock finds it open to the end.
-/

namespace AgentlyStage

open Transition

/-! ## 1. One operation after the other -/

namespace EmitterRegistry

variable {α β : Type} [DecidableEq α] [DecidableEq β] {g g' : EmitterRegistry α β}
  {op : EmitterOp α β} {event : α} {listener : β}

omit [DecidableEq α] in
theorem lists_eq_false_iff {entries : List (Registration β)} :
    lists entries listener = false ↔ ∀ entry ∈ entries, entry.listener ≠ listener := by
  simp [lists]

omit [DecidableEq α] in
theorem unlist_sublist (entries : List (Registration β)) (listener : β) :
    (unlist entries listener).Sublist entries :=
  List.eraseP_sublist

omit [DecidableEq α] in
/-- Removing a listener from a list without duplicates removes it. -/
theorem ne_of_mem_unlist {entries : List (Registration β)}
    (hdistinct : entries.Pairwise fun r r' => r.listener ≠ r'.listener) {r : Registration β}
    (hr : r ∈ unlist entries listener) : r.listener ≠ listener := by
  induction entries with
  | nil => cases hr
  | cons entry entries ih =>
    obtain ⟨hhead, htail⟩ := List.pairwise_cons.mp hdistinct
    by_cases heq : entry.listener = listener
    · rw [unlist, List.eraseP_cons_of_pos (by simp [heq])] at hr
      exact fun h => hhead r hr (heq.trans h.symm)
    · rw [unlist, List.eraseP_cons_of_neg (by simp [heq])] at hr
      rcases List.mem_cons.mp hr with rfl | hr
      · exact heq
      · exact ih htail hr

/-- What an operation does to the lists: they lose entries, or one gets a new entry at its end. -/
structure Evolves (g : EmitterRegistry α β) (op : EmitterOp α β) (g' : EmitterRegistry α β) :
    Prop where
  count : g.registrations ≤ g'.registrations
  listeners : ∀ event, (g'.listeners event).Sublist (g.listeners event) ∨
    ∃ listener, op = .on event listener ∧ lists (g.listeners event) listener = false ∧
      g'.listeners event = g.listeners event ++ [⟨listener, g.registrations⟩] ∧
      g'.registrations = g.registrations + 1
  once : ∀ event, (g'.once event).Sublist (g.once event) ∨
    ∃ listener, op = .once event listener ∧ lists (g.once event) listener = false ∧
      g'.once event = g.once event ++ [⟨listener, g.registrations⟩] ∧
      g'.registrations = g.registrations + 1

omit [DecidableEq β] in
/-- An update of one list that makes it shorter. -/
theorem update_sublist {lists : α → List (Registration β)} {entries : List (Registration β)}
    (h : entries.Sublist (lists event)) (event' : α) :
    (Function.update lists event entries event').Sublist (lists event') := by
  by_cases heq : event' = event
  · subst heq
    rw [Function.update_self]
    exact h
  · rw [Function.update_of_ne heq]

omit [DecidableEq α] in
/-- Nothing is registered. -/
theorem evolves_of_sublist (hcount : g'.registrations = g.registrations)
    (hlisteners : ∀ event, (g'.listeners event).Sublist (g.listeners event))
    (honce : ∀ event, (g'.once event).Sublist (g.once event)) : g.Evolves op g' :=
  ⟨Nat.le_of_eq hcount.symm, fun event => Or.inl (hlisteners event),
    fun event => Or.inl (honce event)⟩

omit [DecidableEq β] in
theorem removeAllListeners_sublist (events : List α) (g : EmitterRegistry α β) :
    (g.removeAllListeners events).registrations = g.registrations ∧ ∀ event,
      ((g.removeAllListeners events).listeners event).Sublist (g.listeners event) ∧
        ((g.removeAllListeners events).once event).Sublist (g.once event) := by
  induction events generalizing g with
  | nil => exact ⟨rfl, fun _ => ⟨List.Sublist.refl _, List.Sublist.refl _⟩⟩
  | cons head events ih =>
    obtain ⟨hcount, hlists⟩ := ih (g.clear head)
    refine ⟨hcount, fun event => ⟨(hlists event).1.trans ?_, (hlists event).2.trans ?_⟩⟩
    · exact update_sublist (List.nil_sublist _) event
    · exact update_sublist (List.nil_sublist _) event

theorem evolves_apply (g : EmitterRegistry α β) (op : EmitterOp α β) : g.Evolves op (g.apply op) := by
  cases op with
  | on event listener =>
    simp only [apply, addListener]
    split
    · exact evolves_of_sublist rfl (fun _ => List.Sublist.refl _) fun _ => List.Sublist.refl _
    · rename_i hnew
      refine ⟨Nat.le_succ _, fun event' => ?_, fun _ => Or.inl (List.Sublist.refl _)⟩
      by_cases heq : event' = event
      · subst heq
        exact Or.inr ⟨listener, rfl, Bool.eq_false_iff.mpr hnew, Function.update_self .., rfl⟩
      · exact Or.inl (by dsimp only; rw [Function.update_of_ne heq])
  | once event listener =>
    simp only [apply, addOnceListener]
    split
    · exact evolves_of_sublist rfl (fun _ => List.Sublist.refl _) fun _ => List.Sublist.refl _
    · rename_i hnew
      rw [Bool.or_eq_true, not_or] at hnew
      refine ⟨Nat.le_succ _, fun _ => Or.inl (List.Sublist.refl _), fun event' => ?_⟩
      by_cases heq : event' = event
      · subst heq
        exact Or.inr ⟨listener, rfl, Bool.eq_false_iff.mpr hnew.2, Function.update_self .., rfl⟩
      · exact Or.inl (by dsimp only; rw [Function.update_of_ne heq])
  | off event listener =>
    exact evolves_of_sublist rfl (update_sublist (unlist_sublist _ _))
      (update_sublist (unlist_sublist _ _))
  | removeAllListeners events =>
    obtain ⟨hcount, hlists⟩ := removeAllListeners_sublist events g
    exact evolves_of_sublist hcount (fun event => (hlists event).1) fun event => (hlists event).2
  | emit event nested =>
    exact evolves_of_sublist rfl (fun _ => List.Sublist.refl _) (update_sublist (List.nil_sublist _))
  | close => exact evolves_of_sublist rfl (fun _ => List.Sublist.refl _) fun _ => List.Sublist.refl _

/-- A list of registrations: in the order of registration, and without duplicates. -/
structure Listed (entries : List (Registration β)) (bound : Nat) : Prop where
  sorted : entries.Pairwise fun r r' => r.number < r'.number
  distinct : entries.Pairwise fun r r' => r.listener ≠ r'.listener
  bounded : ∀ r ∈ entries, r.number < bound

omit [DecidableEq α] [DecidableEq β] in
theorem Listed.sublist {entries entries' : List (Registration β)} {bound bound' : Nat}
    (h : Listed entries bound) (hsub : entries'.Sublist entries) (hbound : bound ≤ bound') :
    Listed entries' bound' :=
  ⟨h.sorted.sublist hsub, h.distinct.sublist hsub,
    fun r hr => Nat.lt_of_lt_of_le (h.bounded r (hsub.subset hr)) hbound⟩

omit [DecidableEq α] in
theorem Listed.append {entries : List (Registration β)} {bound : Nat} (h : Listed entries bound)
    (hnew : lists entries listener = false) :
    Listed (entries ++ [⟨listener, bound⟩]) (bound + 1) := by
  rw [lists_eq_false_iff] at hnew
  refine ⟨List.pairwise_append.mpr ⟨h.sorted, List.pairwise_singleton _ _, fun r hr r' hr' => ?_⟩,
    List.pairwise_append.mpr ⟨h.distinct, List.pairwise_singleton _ _, fun r hr r' hr' => ?_⟩,
    fun r hr => ?_⟩
  · rw [List.mem_singleton.mp hr']
    exact h.bounded r hr
  · rw [List.mem_singleton.mp hr']
    exact hnew r hr
  · rcases List.mem_append.mp hr with hr | hr
    · exact Nat.lt_succ_of_lt (h.bounded r hr)
    · rw [List.mem_singleton.mp hr]
      exact Nat.lt_succ_self _

/-- Both lists of every event. -/
def AllListed (g : EmitterRegistry α β) : Prop :=
  ∀ event, Listed (g.listeners event) g.registrations ∧ Listed (g.once event) g.registrations

omit [DecidableEq α] in
theorem AllListed.evolves (h : g.AllListed) (he : g.Evolves op g') : g'.AllListed := by
  intro event
  constructor
  · rcases he.listeners event with hsub | ⟨listener, -, hnew, heq, hcount⟩
    · exact (h event).1.sublist hsub he.count
    · rw [heq, hcount]
      exact (h event).1.append hnew
  · rcases he.once event with hsub | ⟨listener, -, hnew, heq, hcount⟩
    · exact (h event).2.sublist hsub he.count
    · rw [heq, hcount]
      exact (h event).2.append hnew

/-- A property that every operation keeps holds on the way from one registry to a later one. -/
theorem foldl_invariant {I : EmitterRegistry α β → Prop} {ops : List (EmitterOp α β)}
    (hstep : ∀ g op, op ∈ ops → I g → I (g.apply op)) (h : I g) : I (ops.foldl apply g) := by
  induction ops generalizing g with
  | nil => exact h
  | cons op ops ih =>
    exact ih (fun g op' hop => hstep g op' (List.mem_cons_of_mem _ hop))
      (hstep g op List.mem_cons_self h)

theorem allListed_after (ops : List (EmitterOp α β)) : (after ops).AllListed := by
  refine foldl_invariant (fun g op _ h => h.evolves (evolves_apply g op)) fun event => ?_
  exact ⟨⟨List.Pairwise.nil, List.Pairwise.nil, fun _ hr => nomatch hr⟩,
    ⟨List.Pairwise.nil, List.Pairwise.nil, fun _ hr => nomatch hr⟩⟩

theorem after_append (ops ops' : List (EmitterOp α β)) :
    after (ops ++ ops') = ops'.foldl apply (after ops) :=
  List.foldl_append

/-! ## 2. What later operations find -/

/-- The registration `r` is in no list. -/
def Gone (r : Registration β) (g : EmitterRegistry α β) : Prop :=
  r.number < g.registrations ∧ ∀ event, r ∉ g.registered event

/-- The registration `r` is not a once registration. -/
def NotOnce (r : Registration β) (g : EmitterRegistry α β) : Prop :=
  r.number < g.registrations ∧ ∀ event, r ∉ g.once event

omit [DecidableEq β] in
/-- A list gets no registration with an old number. -/
theorem mem_of_evolves {entries entries' : List (Registration β)} {r : Registration β} {n : Nat}
    (hold : r.number < n)
    (h : entries'.Sublist entries ∨ ∃ listener, entries' = entries ++ [⟨listener, n⟩])
    (hr : r ∈ entries') : r ∈ entries := by
  rcases h with hsub | ⟨listener, rfl⟩
  · exact hsub.subset hr
  · rcases List.mem_append.mp hr with hr | hr
    · exact hr
    · rw [List.mem_singleton.mp hr] at hold
      exact absurd hold (Nat.lt_irrefl _)

omit [DecidableEq α] in
theorem Evolves.mem_once {r : Registration β} (he : g.Evolves op g')
    (hold : r.number < g.registrations) (hr : r ∈ g'.once event) : r ∈ g.once event :=
  mem_of_evolves hold ((he.once event).imp_right fun ⟨listener, _, _, heq, _⟩ => ⟨listener, heq⟩) hr

omit [DecidableEq α] in
theorem Evolves.mem_listeners {r : Registration β} (he : g.Evolves op g')
    (hold : r.number < g.registrations) (hr : r ∈ g'.listeners event) : r ∈ g.listeners event :=
  mem_of_evolves hold
    ((he.listeners event).imp_right fun ⟨listener, _, _, heq, _⟩ => ⟨listener, heq⟩) hr

omit [DecidableEq α] in
theorem NotOnce.evolves {r : Registration β} (h : NotOnce r g) (he : g.Evolves op g') :
    NotOnce r g' :=
  ⟨Nat.lt_of_lt_of_le h.1 he.count, fun event hr => h.2 event (he.mem_once h.1 hr)⟩

omit [DecidableEq α] in
theorem Gone.evolves {r : Registration β} (h : Gone r g) (he : g.Evolves op g') : Gone r g' := by
  refine ⟨Nat.lt_of_lt_of_le h.1 he.count, fun event hr => h.2 event ?_⟩
  exact List.mem_append.mpr ((List.mem_append.mp hr).imp (he.mem_listeners h.1) (he.mem_once h.1))

/-- A number belongs to one registration, in one list. -/
structure Separate (g : EmitterRegistry α β) : Prop where
  lists : ∀ event event' r, r ∈ g.listeners event → r ∉ g.once event'
  once : ∀ event event' r, r ∈ g.once event → r ∈ g.once event' → event = event'

omit [DecidableEq α] in
theorem Separate.evolves (h : g.Separate) (hl : g.AllListed) (he : g.Evolves op g') :
    g'.Separate := by
  -- a new registration has a number of its own
  have hnew : ∀ entries : List (Registration β), Listed entries g.registrations →
      ∀ listener, (⟨listener, g.registrations⟩ : Registration β) ∉ entries :=
    fun entries hentries listener hr => Nat.lt_irrefl _ (hentries.bounded _ hr)
  have hlisteners : ∀ event r, r ∈ g'.listeners event →
      r ∈ g.listeners event ∨ (r.number = g.registrations ∧ ∃ listener, op = .on event listener) := by
    intro event r hr
    rcases he.listeners event with hsub | ⟨listener, hop, -, heq, -⟩
    · exact Or.inl (hsub.subset hr)
    · rw [heq] at hr
      rcases List.mem_append.mp hr with hr | hr
      · exact Or.inl hr
      · exact Or.inr ⟨by rw [List.mem_singleton.mp hr], listener, hop⟩
  have honce : ∀ event r, r ∈ g'.once event →
      r ∈ g.once event ∨ (r.number = g.registrations ∧ ∃ listener, op = .once event listener) := by
    intro event r hr
    rcases he.once event with hsub | ⟨listener, hop, -, heq, -⟩
    · exact Or.inl (hsub.subset hr)
    · rw [heq] at hr
      rcases List.mem_append.mp hr with hr | hr
      · exact Or.inl hr
      · exact Or.inr ⟨by rw [List.mem_singleton.mp hr], listener, hop⟩
  constructor
  · intro event event' r hr hr'
    rcases hlisteners event r hr with hr | ⟨hnumber, listener, hop⟩
    · rcases honce event' r hr' with hr' | ⟨hnumber, -⟩
      · exact h.lists event event' r hr hr'
      · exact absurd ((hl event).1.bounded r hr) (by omega)
    · rcases honce event' r hr' with hr' | ⟨-, listener', hop'⟩
      · exact absurd ((hl event').2.bounded r hr') (by omega)
      · rw [hop] at hop'
        cases hop'
  · intro event event' r hr hr'
    rcases honce event r hr with hr | ⟨hnumber, listener, hop⟩
    · rcases honce event' r hr' with hr' | ⟨hnumber, -⟩
      · exact h.once event event' r hr hr'
      · exact absurd ((hl event).2.bounded r hr) (by omega)
    · rcases honce event' r hr' with hr' | ⟨-, listener', hop'⟩
      · exact absurd ((hl event').2.bounded r hr') (by omega)
      · rw [hop] at hop'
        cases hop'
        rfl

theorem separate_after (ops : List (EmitterOp α β)) : (after ops).Separate := by
  have h : (after ops).Separate ∧ (after ops).AllListed := by
    refine foldl_invariant (I := fun g => g.Separate ∧ g.AllListed) (fun g op _ h => ?_)
      ⟨⟨fun _ _ _ hr => (nomatch hr), fun _ _ _ hr => (nomatch hr)⟩, allListed_after []⟩
    have he := evolves_apply g op
    exact ⟨h.1.evolves h.2 he, h.2.evolves he⟩
  exact h.1

/-- An `emit` takes the once registrations of its event for good. -/
theorem gone_of_emit {ops later : List (EmitterOp α β)} {nested : Bool} {r : Registration β}
    (hr : r ∈ (after ops).once event) : Gone r (after (ops ++ .emit event nested :: later)) := by
  rw [after_append, List.foldl_cons]
  refine foldl_invariant (I := Gone r) (fun g op _ h => h.evolves (evolves_apply g op)) ?_
  have hseparate := separate_after ops
  refine ⟨((allListed_after ops) event).2.bounded r hr, fun event' hmem => ?_⟩
  rcases List.mem_append.mp hmem with hmem | hmem
  · exact hseparate.lists event' event r hmem hr
  · by_cases heq : event' = event
    · subst heq
      simp [apply, popOnce] at hmem
    · simp only [apply, popOnce, Function.update_of_ne heq] at hmem
      exact heq (hseparate.once event' event r hmem hr)

/-- A persistent registration does not become a once one. -/
theorem notOnce_of_listeners {ops later : List (EmitterOp α β)} {r : Registration β}
    (hr : r ∈ (after ops).listeners event) : NotOnce r (after (ops ++ later)) := by
  rw [after_append]
  refine foldl_invariant (I := NotOnce r) (fun g op _ h => h.evolves (evolves_apply g op)) ?_
  exact ⟨((allListed_after ops) event).1.bounded r hr,
    fun event' hmem => (separate_after ops).lists event event' r hr hmem⟩

/-- After an `off` the listener is registered again, or it is not registered. -/
theorem registers_of_mem {ops later : List (EmitterOp α β)} {r : Registration β}
    (hr : r ∈ (after (ops ++ .off event listener :: later)).registered event)
    (hlistener : r.listener = listener) :
    .on event listener ∈ later ∨ .once event listener ∈ later := by
  by_contra hnone
  rw [not_or] at hnone
  rw [after_append] at hr
  have hinv : ∀ r ∈ (later.foldl apply ((after ops).apply (.off event listener))).registered event,
      r.listener ≠ listener := by
    refine foldl_invariant
      (I := fun g => ∀ r ∈ g.registered event, r.listener ≠ listener)
      (fun g op hop h r hr => ?_) fun r hr => ?_
    · have he := evolves_apply g op
      rcases List.mem_append.mp hr with hr | hr
      · rcases he.listeners event with hsub | ⟨listener', rfl, -, heq, -⟩
        · exact h r (List.mem_append_left _ (hsub.subset hr))
        · rw [heq] at hr
          rcases List.mem_append.mp hr with hr | hr
          · exact h r (List.mem_append_left _ hr)
          · rw [List.mem_singleton.mp hr]
            rintro rfl
            exact hnone.1 hop
      · rcases he.once event with hsub | ⟨listener', rfl, -, heq, -⟩
        · exact h r (List.mem_append_right _ (hsub.subset hr))
        · rw [heq] at hr
          rcases List.mem_append.mp hr with hr | hr
          · exact h r (List.mem_append_right _ hr)
          · rw [List.mem_singleton.mp hr]
            rintro rfl
            exact hnone.2 hop
    · have hlisted := allListed_after ops event
      simp only [registered, apply, removeListener, Function.update_self] at hr
      rcases List.mem_append.mp hr with hr | hr
      · exact ne_of_mem_unlist hlisted.1.distinct hr
      · exact ne_of_mem_unlist hlisted.2.distinct hr
  exact hinv r hr hlistener

end EmitterRegistry

/-! ## 3. The invariant of the calls -/

namespace EmitterState

open EmitterRegistry

variable {α β : Type} [DecidableEq α] [DecidableEq β] {s s' : EmitterState α β} {i j : Nat}
  {call call' : EmitterCall α β}

/-- The registries after a part of the order. -/
def registryAfter (order : List (Nat × EmitterOp α β)) : EmitterRegistry α β :=
  after (order.map Prod.snd)

/-- The call has taken effect; for an `emit`, `entries` is what was registered then. -/
def TookEffect (s : EmitterState α β) (i : Nat) (op : EmitterOp α β)
    (entries : List (Registration β)) : Prop :=
  ∃ earlier later, s.order = earlier ++ (i, op) :: later ∧ ∀ event nested, op = .emit event nested →
    entries = (registryAfter earlier).registered event

/-- What a call has done in each of its phases. -/
def Progress (s : EmitterState α β) (i : Nat) (call : EmitterCall α β) : Prop :=
  match call.phase with
  | .called => call.submitted = []
  | .submitting remaining => s.holder = some i ∧
      s.TookEffect i call.op (call.submitted ++ remaining)
  | .sealing | .settling => call.op = .close ∧ s.closed = true ∧ s.TookEffect i call.op []
  | .returned => s.TookEffect i call.op call.submitted
  | .raised error => call.submitted = [] ∧
      (call.op = .close ∨ (error = closedEmitterError ∧ ∀ op, (i, op) ∉ s.order))

structure EmitterInv (s : EmitterState α β) : Prop where
  registry : s.registry = registryAfter s.order
  known : ∀ i op, (i, op) ∈ s.order → ∃ call, s.calls[i]? = some call ∧ call.op = op ∧
    call.phase ≠ .called
  nodup : (s.order.map Prod.fst).Nodup
  progress : ∀ (i : Nat) (call : EmitterCall α β), s.calls[i]? = some call → s.Progress i call
  /-- Only an `emit` submits. -/
  silent : ∀ (i : Nat) (call : EmitterCall α β), s.calls[i]? = some call → call.submitted ≠ [] →
    ∃ event nested, call.op = .emit event nested
  holder : ∀ i, s.holder = some i → s.closed = false
  sealed : s.stageSealed = true → s.closed = true

theorem TookEffect.mono {op : EmitterOp α β} {entries : List (Registration β)}
    (h : s.TookEffect i op entries) (horder : s.order <+: s'.order) : s'.TookEffect i op entries := by
  obtain ⟨earlier, later, heq, hentries⟩ := h
  obtain ⟨more, hmore⟩ := horder
  refine ⟨earlier, later ++ more, ?_, hentries⟩
  rw [← hmore, heq, List.append_assoc, List.cons_append]

/-- A call that takes no part in a step keeps what it has done. -/
theorem Progress.mono (h : s.Progress i call) (horder : s.order <+: s'.order)
    (hnew : ∀ op, (i, op) ∈ s'.order → (i, op) ∈ s.order)
    (hholder : s.holder = some i → s'.holder = some i)
    (hclosed : s.closed = true → s'.closed = true) : s'.Progress i call := by
  unfold Progress at h ⊢
  cases hphase : call.phase with
  | called =>
    rw [hphase] at h
    exact h
  | submitting remaining =>
    rw [hphase] at h
    exact ⟨hholder h.1, h.2.mono horder⟩
  | sealing =>
    rw [hphase] at h
    exact ⟨h.1, hclosed h.2.1, h.2.2.mono horder⟩
  | settling =>
    rw [hphase] at h
    exact ⟨h.1, hclosed h.2.1, h.2.2.mono horder⟩
  | returned =>
    rw [hphase] at h
    exact TookEffect.mono h horder
  | raised error =>
    rw [hphase] at h
    exact ⟨h.1, h.2.imp_right fun ⟨herror, hnot⟩ => ⟨herror, fun op hop => hnot op (hnew op hop)⟩⟩

/-- The order and the registries of a step in which call `i` may take effect. -/
def Extends (s : EmitterState α β) (i : Nat) (call : EmitterCall α β) (s' : EmitterState α β) :
    Prop :=
  (s'.order = s.order ∧ s'.registry = s.registry) ∨
    (call.phase = .called ∧ s'.order = s.order ++ [(i, call.op)] ∧
      s'.registry = s.registry.apply call.op)

/-- Call `i` takes a step. -/
theorem EmitterInv.update (hi : s.EmitterInv) (hget : s.calls[i]? = some call)
    (hcalls : s'.calls = s.calls.set i call') (hop : call'.op = call.op)
    (hphase : call'.phase ≠ .called) (hextends : s.Extends i call s')
    (hsilent : call'.submitted ≠ [] → ∃ event nested, call'.op = .emit event nested)
    (hholder : ∀ j, j ≠ i → s.holder = some j → s'.holder = some j)
    (hclosed : s.closed = true → s'.closed = true)
    (hlock : ∀ j, s'.holder = some j → s'.closed = false)
    (hsealed : s'.stageSealed = true → s'.closed = true) (hcall : s'.Progress i call') :
    s'.EmitterInv := by
  have hlt := (List.getElem?_eq_some_iff.mp hget).1
  have hself : s'.calls[i]? = some call' := by
    rw [hcalls, List.getElem?_set_self hlt]
  have hother : ∀ j, j ≠ i → s'.calls[j]? = s.calls[j]? := by
    intro j hj
    rw [hcalls, List.getElem?_set_ne (Ne.symm hj)]
  have hprefix : s.order <+: s'.order := by
    rcases hextends with ⟨heq, -⟩ | ⟨-, heq, -⟩
    · exact heq ▸ List.prefix_refl _
    · exact heq ▸ List.prefix_append _ _
  have hnew : ∀ j op, j ≠ i → (j, op) ∈ s'.order → (j, op) ∈ s.order := by
    intro j op hj hmem
    rcases hextends with ⟨heq, -⟩ | ⟨-, heq, -⟩
    · rwa [heq] at hmem
    · rw [heq] at hmem
      rcases List.mem_append.mp hmem with hmem | hmem
      · exact hmem
      · cases List.mem_singleton.mp hmem
        exact absurd rfl hj
  refine {
    registry := ?_
    known := fun j op hmem => ?_
    nodup := ?_
    progress := fun j c hj => ?_
    silent := fun j c hj hne => ?_
    holder := hlock
    sealed := hsealed }
  · rcases hextends with ⟨horder, hregistry⟩ | ⟨-, horder, hregistry⟩
    · rw [horder, hregistry]
      exact hi.registry
    · rw [horder, hregistry, registryAfter, List.map_append, after_append, hi.registry]
      rfl
  · by_cases hj : j = i
    · subst hj
      refine ⟨call', hself, ?_, hphase⟩
      have hsame : call.op = op := by
        rcases hextends with ⟨heq, -⟩ | ⟨-, heq, -⟩
        · rw [heq] at hmem
          obtain ⟨c, hc, hcop, -⟩ := hi.known j op hmem
          rw [hget] at hc
          cases hc
          exact hcop
        · rw [heq] at hmem
          rcases List.mem_append.mp hmem with hmem | hmem
          · obtain ⟨c, hc, hcop, -⟩ := hi.known j op hmem
            rw [hget] at hc
            cases hc
            exact hcop
          · cases List.mem_singleton.mp hmem
            rfl
      exact hop.trans hsame
    · rw [hother j hj]
      exact hi.known j op (hnew j op hj hmem)
  · rcases hextends with ⟨heq, -⟩ | ⟨hcalled, heq, -⟩
    · rw [heq]
      exact hi.nodup
    · rw [heq, List.map_append]
      refine List.nodup_append.mpr ⟨hi.nodup, by simp, fun j hj k hk => ?_⟩
      rw [List.mem_singleton.mp hk]
      rintro rfl
      -- a call in the order has been entered
      obtain ⟨⟨j', op⟩, hmem, rfl⟩ := List.mem_map.mp hj
      obtain ⟨c, hc, -, hentered⟩ := hi.known _ op hmem
      rw [hget] at hc
      cases hc
      exact hentered hcalled
  · by_cases hj' : j = i
    · subst hj'
      rw [hself] at hj
      cases hj
      exact hcall
    · rw [hother j hj'] at hj
      exact (hi.progress j c hj).mono hprefix (fun op => hnew j op hj') (hholder j hj') hclosed
  · by_cases hj' : j = i
    · subst hj'
      rw [hself] at hj
      cases hj
      exact hsilent hne
    · rw [hother j hj'] at hj
      exact hi.silent j c hj hne

theorem EmitterInv.progress_at (hi : s.EmitterInv) (hget : s.calls[i]? = some call)
    {phase : EmitterCallPhase β} (hphase : call.phase = phase) :
    s.Progress i { call with phase := phase } := by
  subst hphase
  exact hi.progress i call hget

/-- A call that has just been entered is the last one of the order. -/
theorem tookEffect_entered {op : EmitterOp α β} {entries : List (Registration β)}
    (hregistry : s.registry = registryAfter s.order) (horder : s'.order = s.order ++ [(i, op)])
    (hentries : ∀ event nested, op = .emit event nested → entries = s.registry.registered event) :
    s'.TookEffect i op entries :=
  ⟨s.order, [], horder, fun event nested hop => by
    rw [← hregistry]
    exact hentries event nested hop⟩

theorem EmitterInv.enter (hi : s.EmitterInv) (hget : s.calls[i]? = some call)
    (hfree : s.holder = none) (hphase : call.phase = .called) : (s.enter i call).EmitterInv := by
  obtain ⟨op, phase, submitted⟩ := call
  dsimp only at hphase
  subst hphase
  obtain rfl : submitted = [] := hi.progress i _ hget
  have hfree' : ∀ j, s.holder = some j → False := by
    intro j hj
    rw [hfree] at hj
    cases hj
  have hfresh : ∀ op, (i, op) ∉ s.order := by
    intro op' hmem
    obtain ⟨c, hc, -, hentered⟩ := hi.known i op' hmem
    rw [hget] at hc
    cases hc
    exact hentered rfl
  -- a call that is refused, and one that takes effect and returns
  have hrefused : (s.setCall i { op := op, phase := .raised closedEmitterError }).EmitterInv :=
    hi.update hget rfl rfl (fun h => nomatch h) (Or.inl ⟨rfl, rfl⟩) (fun hne => absurd rfl hne)
      (fun _ _ h => h) id hi.holder hi.sealed ⟨rfl, Or.inr ⟨rfl, hfresh⟩⟩
  have hreturned : (∀ event nested, op ≠ .emit event nested) →
      (s.effect i { op := op } .returned).EmitterInv := by
    intro hnot
    refine hi.update hget rfl rfl (fun h => nomatch h) (Or.inr ⟨rfl, rfl, rfl⟩)
      (fun hne => absurd rfl hne) (fun _ _ h => h) id hi.holder hi.sealed ?_
    exact tookEffect_entered hi.registry rfl fun event nested hop => absurd hop (hnot event nested)
  cases op with
  | on event listener =>
    simp only [EmitterState.enter]
    split
    · exact hrefused
    · exact hreturned fun _ _ h => nomatch h
  | once event listener =>
    simp only [EmitterState.enter]
    split
    · exact hrefused
    · exact hreturned fun _ _ h => nomatch h
  | off event listener => exact hreturned fun _ _ h => nomatch h
  | removeAllListeners events => exact hreturned fun _ _ h => nomatch h
  | emit event nested =>
    simp only [EmitterState.enter]
    split
    · exact hrefused
    · rename_i hopen
      refine hi.update hget rfl rfl (fun h => nomatch h) (Or.inr ⟨rfl, rfl, rfl⟩)
        (fun hne => absurd rfl hne) (fun j _ hj => (hfree' j hj).elim) id
        (fun _ _ => Bool.eq_false_iff.mpr hopen) hi.sealed ?_
      refine ⟨rfl, tookEffect_entered hi.registry rfl ?_⟩
      rintro _ _ ⟨⟩
      rfl
  | close =>
    simp only [EmitterState.enter]
    split
    · exact hreturned fun _ _ h => nomatch h
    · refine hi.update hget rfl rfl (fun h => nomatch h) (Or.inr ⟨rfl, rfl, rfl⟩)
        (fun hne => absurd rfl hne) (fun j _ hj => (hfree' j hj).elim) (fun _ => rfl)
        (fun j hj => (hfree' j hj).elim) (fun _ => rfl) ?_
      exact ⟨rfl, rfl, tookEffect_entered hi.registry rfl fun _ _ h => nomatch h⟩

/-- An `emit` inside the lock finds the Stage open. -/
theorem EmitterInv.open_of_submitting (hi : s.EmitterInv) (hget : s.calls[i]? = some call)
    {remaining : List (Registration β)} (hphase : call.phase = .submitting remaining) :
    s.holder = some i ∧ s.stageSealed = false := by
  have hholder := (hi.progress_at hget hphase).1
  refine ⟨hholder, Bool.eq_false_iff.mpr fun hsealed => ?_⟩
  have hopen := hi.holder i hholder
  rw [hi.sealed hsealed] at hopen
  cases hopen

theorem EmitterInv.submit (hi : s.EmitterInv) (hget : s.calls[i]? = some call) {event : α}
    {nested : Bool} {entry : Registration β} {rest : List (Registration β)}
    (hop : call.op = .emit event nested) (hphase : call.phase = .submitting (entry :: rest)) :
    (s.submit i call nested entry rest).EmitterInv := by
  obtain ⟨hholder, hopen⟩ := hi.open_of_submitting hget hphase
  obtain ⟨-, htook⟩ := hi.progress_at hget hphase
  unfold EmitterState.submit
  rw [if_neg (by simp [hopen])]
  refine hi.update hget rfl rfl (fun h => nomatch h) (Or.inl ⟨rfl, rfl⟩)
    (fun _ => ⟨event, nested, hop⟩) (fun _ _ h => h) id hi.holder hi.sealed ⟨hholder, ?_⟩
  dsimp only at htook ⊢
  rw [List.append_assoc, List.singleton_append]
  exact htook

/-- **Step lemma of the emitter.** -/
theorem EmitterInv.step (hi : s.EmitterInv) {e : EmitterEvent α β} (hstep : s.step e = some s') :
    s'.EmitterInv := by
  cases e with
  | call op =>
    cases hstep
    have hold : ∀ j, j < s.calls.length →
        (s.calls ++ [({ op := op } : EmitterCall α β)])[j]? = s.calls[j]? :=
      fun j hj => List.getElem?_append_left hj
    have hcases : ∀ (j : Nat) (c : EmitterCall α β),
        (s.calls ++ [({ op := op } : EmitterCall α β)])[j]? = some c →
        s.calls[j]? = some c ∨ c = { op := op } := by
      intro j c hc
      by_cases hj : j < s.calls.length
      · rw [hold j hj] at hc
        exact Or.inl hc
      · refine Or.inr (List.mem_singleton.mp ?_)
        rw [List.getElem?_append_right (Nat.le_of_not_lt hj)] at hc
        exact List.mem_of_getElem? hc
    refine {
      registry := hi.registry
      known := fun j op' hmem => ?_
      nodup := hi.nodup
      progress := fun j c hc => ?_
      silent := fun j c hc hne => ?_
      holder := hi.holder
      sealed := hi.sealed }
    · obtain ⟨c, hc, hknown⟩ := hi.known j op' hmem
      exact ⟨c, (hold j (List.getElem?_eq_some_iff.mp hc).1).trans hc, hknown⟩
    · rcases hcases j c hc with hc | rfl
      · exact (hi.progress j c hc).mono (List.prefix_refl _) (fun _ h => h) id id
      · exact rfl
    · rcases hcases j c hc with hc | rfl
      · exact hi.silent j c hc hne
      · exact absurd rfl hne
  | enter i =>
    simp only [EmitterState.step] at hstep
    split at hstep
    · rename_i call hget
      split at hstep
      · rename_i hcond
        cases hstep
        exact hi.enter hget hcond.1 hcond.2
      · cases hstep
    · cases hstep
  | submit i =>
    simp only [EmitterState.step] at hstep
    split at hstep
    · rename_i call hget
      split at hstep
      · rename_i event nested entry rest hop hphase
        cases hstep
        exact hi.submit hget hop hphase
      · cases hstep
    · cases hstep
  | leave i =>
    simp only [EmitterState.step] at hstep
    split at hstep
    · rename_i call hget
      split at hstep
      · rename_i hphase
        cases hstep
        obtain ⟨hholder, htook⟩ := hi.progress_at hget hphase
        dsimp only at htook
        rw [List.append_nil] at htook
        refine hi.update hget rfl rfl (fun h => nomatch h) (Or.inl ⟨rfl, rfl⟩)
          (hi.silent i call hget) (fun j hj h => ?_) id (fun _ h => nomatch h) hi.sealed htook
        rw [hholder] at h
        cases h
        exact absurd rfl hj
      · cases hstep
    · cases hstep
  | sealStage i =>
    simp only [EmitterState.step] at hstep
    split at hstep
    · rename_i call hget
      split at hstep
      · rename_i hphase
        cases hstep
        have hprogress := hi.progress_at hget hphase
        exact hi.update hget rfl rfl (fun h => nomatch h) (Or.inl ⟨rfl, rfl⟩)
          (hi.silent i call hget) (fun _ _ h => h) id hi.holder (fun _ => hprogress.2.1) hprogress
      · cases hstep
    · cases hstep
  | settled i =>
    simp only [EmitterState.step] at hstep
    split at hstep
    · rename_i call hget
      split at hstep
      · rename_i hphase
        cases hstep
        obtain ⟨hclose, -, earlier, later, horder, -⟩ := hi.progress_at hget hphase
        refine hi.update hget rfl rfl (fun h => nomatch h) (Or.inl ⟨rfl, rfl⟩)
          (hi.silent i call hget) (fun _ _ h => h) id hi.holder hi.sealed
          ⟨earlier, later, horder, fun event nested hop => ?_⟩
        dsimp only at hclose hop
        rw [hclose] at hop
        cases hop
      · cases hstep
    · cases hstep
  | closeFails i error =>
    simp only [EmitterState.step] at hstep
    split at hstep
    · rename_i call hget
      split at hstep
      · rename_i hphase
        cases hstep
        have hclose : call.op = .close := by
          rcases hphase with hphase | hphase
          · exact (hi.progress_at hget hphase).1
          · exact (hi.progress_at hget hphase).1
        have hempty : call.submitted = [] := by
          by_contra hne
          obtain ⟨event, nested, hop⟩ := hi.silent i call hget hne
          rw [hclose] at hop
          cases hop
        exact hi.update hget rfl rfl (fun h => nomatch h) (Or.inl ⟨rfl, rfl⟩)
          (hi.silent i call hget) (fun _ _ h => h) id hi.holder hi.sealed
          ⟨hempty, Or.inl hclose⟩
      · cases hstep
    · cases hstep

theorem reachable_emitterInv (h : (emitterSystem α β).Reachable s) : s.EmitterInv := by
  refine h.invariant (fun s hinit => ?_) fun s e s' hi _ hstep => hi.step hstep
  rw [show s = _ from hinit]
  exact ⟨rfl, fun _ _ h => (nomatch h), List.nodup_nil, fun _ _ h => (nomatch h),
    fun _ _ h => (nomatch h), fun _ h => (nomatch h), fun h => nomatch h⟩

/-! ## 4. The laws -/

structure Laws (s : EmitterState α β) : Prop where
  /-- The registries are those of the calls that have taken effect, one after the other. -/
  registry : s.registry = registryAfter s.order
  once : (s.order.map Prod.fst).Nodup
  /-- An `emit` that has returned has submitted what was registered at its place in the order:
      the persistent listeners, and then the once ones, both in the order of registration. -/
  emitted : ∀ (i : Nat) (call : EmitterCall α β) event nested, s.calls[i]? = some call →
    call.op = .emit event nested → call.phase = .returned →
    ∃ earlier later, s.order = earlier ++ (i, call.op) :: later ∧
      call.submitted =
        (registryAfter earlier).listeners event ++ (registryAfter earlier).once event ∧
      ((registryAfter earlier).listeners event).Pairwise (fun r r' => r.number < r'.number) ∧
      ((registryAfter earlier).once event).Pairwise fun r r' => r.number < r'.number
  /-- A once registration goes with the `emit` that finds it. -/
  taken : ∀ earlier i event nested later r,
    s.order = earlier ++ (i, .emit event nested) :: later → r ∈ (registryAfter earlier).once event →
    (∀ event', r ∉ s.registry.registered event') ∧
      ∀ (j : Nat) (call : EmitterCall α β), s.calls[j]? = some call → j ≠ i → r ∉ call.submitted
  /-- An `emit` that raises has submitted nothing. -/
  refused : ∀ (i : Nat) (call : EmitterCall α β) event nested error, s.calls[i]? = some call →
    call.op = .emit event nested → call.phase = .raised error →
    error = closedEmitterError ∧ call.submitted = [] ∧ ∀ op, (i, op) ∉ s.order
  /-- No `emit` is under way when the Stage is sealed, or later. -/
  sealed : s.stageSealed = true → ∀ (i : Nat) (call : EmitterCall α β) remaining,
    s.calls[i]? = some call → call.phase ≠ .submitting remaining

/-- What a call has submitted was registered at its place in the order. -/
theorem EmitterInv.registered_of_submitted (hi : s.EmitterInv) (hget : s.calls[i]? = some call)
    {r : Registration β} (hr : r ∈ call.submitted) :
    ∃ event nested earlier later, call.op = .emit event nested ∧
      s.order = earlier ++ (i, .emit event nested) :: later ∧
      r ∈ (registryAfter earlier).registered event := by
  obtain ⟨event, nested, hop⟩ := hi.silent i call hget (List.ne_nil_of_mem hr)
  have htook : ∀ entries, call.submitted <+: entries → s.TookEffect i call.op entries →
      ∃ event nested earlier later, call.op = .emit event nested ∧
        s.order = earlier ++ (i, .emit event nested) :: later ∧
        r ∈ (registryAfter earlier).registered event := by
    rintro entries hsub ⟨earlier, later, horder, hentries⟩
    refine ⟨event, nested, earlier, later, hop, hop ▸ horder, ?_⟩
    rw [← hentries event nested hop]
    exact hsub.subset hr
  have hprogress := hi.progress i call hget
  unfold Progress at hprogress
  cases hphase : call.phase with
  | called =>
    rw [hphase] at hprogress
    rw [show call.submitted = [] from hprogress] at hr
    cases hr
  | submitting remaining =>
    rw [hphase] at hprogress
    exact htook _ (List.prefix_append _ _) hprogress.2
  | sealing =>
    rw [hphase, hop] at hprogress
    cases hprogress.1
  | settling =>
    rw [hphase, hop] at hprogress
    cases hprogress.1
  | returned =>
    rw [hphase] at hprogress
    exact htook _ (List.prefix_refl _) hprogress
  | raised error =>
    rw [hphase] at hprogress
    rw [show call.submitted = [] from hprogress.1] at hr
    cases hr

omit [DecidableEq α] [DecidableEq β] in
/-- Two calls of the order: one of them is the earlier one. -/
theorem order_cases {order earlier later earlier' later' : List (Nat × EmitterOp α β)}
    {op op' : EmitterOp α β} (h : order = earlier ++ (i, op) :: later)
    (h' : order = earlier' ++ (j, op') :: later') (hne : j ≠ i) :
    (∃ mid, earlier' = earlier ++ (i, op) :: mid) ∨
      ∃ mid, earlier = earlier' ++ (j, op') :: mid := by
  rw [h] at h'
  rcases List.append_eq_append_iff.mp h' with ⟨mid, heq, hrest⟩ | ⟨mid, heq, hrest⟩
  · cases mid with
    | nil =>
      cases hrest
      exact absurd rfl hne
    | cons head mid =>
      cases hrest
      exact Or.inl ⟨mid, heq⟩
  · cases mid with
    | nil =>
      cases hrest
      exact absurd rfl hne
    | cons head mid =>
      cases hrest
      exact Or.inr ⟨mid, heq⟩

theorem registryAfter_cons {earlier later : List (Nat × EmitterOp α β)} {op : EmitterOp α β} :
    registryAfter (earlier ++ (i, op) :: later) =
      after (earlier.map Prod.snd ++ op :: later.map Prod.snd) := by
  rw [registryAfter, List.map_append, List.map_cons]

theorem EmitterInv.laws (hi : s.EmitterInv) : s.Laws where
  registry := hi.registry
  once := hi.nodup
  emitted i call event nested hget hop hphase := by
    obtain ⟨earlier, later, horder, hentries⟩ := hi.progress_at hget hphase
    have hlisted := allListed_after (earlier.map Prod.snd) event
    exact ⟨earlier, later, horder, hentries event nested hop, hlisted.1.sorted, hlisted.2.sorted⟩
  taken earlier i event nested later r horder hr := by
    constructor
    · rw [hi.registry, horder, registryAfter_cons]
      exact (gone_of_emit hr).2
    · intro j call hget hne hmem
      obtain ⟨event', nested', earlier', later', -, horder', hmem'⟩ :=
        hi.registered_of_submitted hget hmem
      rcases order_cases horder horder' hne with ⟨mid, rfl⟩ | ⟨mid, rfl⟩
      · -- the other `emit` comes later, and finds it gone
        rw [registryAfter_cons] at hmem'
        exact (gone_of_emit hr).2 event' hmem'
      · rw [registryAfter_cons] at hr
        rcases List.mem_append.mp hmem' with hmem' | hmem'
        · exact (notOnce_of_listeners hmem').2 event hr
        · exact (gone_of_emit hmem').2 event (List.mem_append_right _ hr)
  refused i call event nested error hget hop hphase := by
    obtain ⟨hsubmitted, hclose | ⟨herror, hfresh⟩⟩ := hi.progress_at hget hphase
    · rw [hop] at hclose
      cases hclose
    · exact ⟨herror, hsubmitted, hfresh⟩
  sealed hsealed i call remaining hget hphase := by
    rw [(hi.open_of_submitting hget hphase).2] at hsealed
    cases hsealed

/-! ## 5. Calls that do not overlap -/

theorem enter_order (s : EmitterState α β) (i : Nat) (call : EmitterCall α β) :
    s.order <+: (s.enter i call).order := by
  have heffect : s.order <+: s.order ++ [(i, call.op)] := List.prefix_append _ _
  unfold EmitterState.enter
  split
  · split
    · exact List.prefix_refl _
    · exact heffect
  · split
    · exact List.prefix_refl _
    · exact heffect
  · exact heffect
  · exact heffect
  · split
    · exact List.prefix_refl _
    · exact heffect
  · split
    · exact heffect
    · exact heffect

/-- The order grows at its end. -/
theorem step_order {e : EmitterEvent α β} (hstep : s.step e = some s') : s.order <+: s'.order := by
  cases e with
  | call op =>
    cases hstep
    exact List.prefix_refl _
  | enter i =>
    simp only [EmitterState.step] at hstep
    split at hstep
    · split at hstep
      · cases hstep
        exact enter_order s i _
      · cases hstep
    · cases hstep
  | submit i =>
    simp only [EmitterState.step] at hstep
    split at hstep
    · split at hstep
      · cases hstep
        unfold EmitterState.submit
        split
        · exact List.prefix_refl _
        · exact List.prefix_refl _
      · cases hstep
    · cases hstep
  | leave i | sealStage i | settled i | closeFails i error =>
    simp only [EmitterState.step] at hstep
    split at hstep
    · split at hstep
      · cases hstep
        exact List.prefix_refl _
      · cases hstep
    · cases hstep

theorem run_order {es : List (EmitterEvent α β)} (hrun : (emitterSystem α β).run s es = some s') :
    s.order <+: s'.order :=
  System.run_invariant (I := fun t => s.order <+: t.order)
    (fun _ _ _ h hstep => h.trans (step_order hstep)) (List.prefix_refl _) hrun

/-- A call that has returned precedes every call that is made later. -/
theorem EmitterInv.precedes (hi : s.EmitterInv) (hget : s.calls[i]? = some call)
    (hphase : call.phase = .returned) {es : List (EmitterEvent α β)}
    (hrun : (emitterSystem α β).run s es = some s') (hlater : s.calls.length ≤ j)
    {op : EmitterOp α β} {earlier later : List (Nat × EmitterOp α β)}
    (horder : s'.order = earlier ++ (j, op) :: later) :
    ∃ first mid, earlier = first ++ (i, call.op) :: mid := by
  obtain ⟨first, rest, hfirst, -⟩ := hi.progress_at hget hphase
  obtain ⟨more, hmore⟩ := run_order hrun
  have hfirst' : s'.order = first ++ (i, call.op) :: (rest ++ more) := by
    rw [← hmore, show s.order = first ++ (i, call.op) :: rest from hfirst, List.append_assoc,
      List.cons_append]
  have hlt := (List.getElem?_eq_some_iff.mp hget).1
  rcases order_cases hfirst' horder (by omega) with ⟨mid, heq⟩ | ⟨mid, heq⟩
  · exact ⟨first, mid, heq⟩
  · -- a call of the old order has been made before
    have hmem : (j, op) ∈ s.order := by
      rw [show s.order = first ++ (i, call.op) :: rest from hfirst, heq]
      simp
    obtain ⟨c, hc, -⟩ := hi.known j op hmem
    exact absurd (List.getElem?_eq_some_iff.mp hc).1 (by omega)

/-- **The event emitter.**  The laws hold in every state that is reached; the order of the calls
    agrees with real time; and what an `emit` submits after an `off` of a listener has returned
    includes the listener only if it has been registered in between. -/
theorem emitter_laws (α β : Type) [DecidableEq α] [DecidableEq β] :
    (∀ s : EmitterState α β, (emitterSystem α β).Reachable s → s.Laws) ∧
    (∀ (s s' : EmitterState α β) es (c i : Nat) call op earlier later,
      (emitterSystem α β).Reachable s → s.calls[c]? = some call → call.phase = .returned →
      (emitterSystem α β).run s es = some s' → s.calls.length ≤ i →
      s'.order = earlier ++ (i, op) :: later → ∃ first mid, earlier = first ++ (c, call.op) :: mid) ∧
    ∀ (s s' : EmitterState α β) es (c i : Nat) off call event listener r,
      (emitterSystem α β).Reachable s → s.calls[c]? = some off → off.phase = .returned →
      off.op = .off event listener → (emitterSystem α β).run s es = some s' → s.calls.length ≤ i →
      s'.calls[i]? = some call → r ∈ call.submitted → (∃ nested, call.op = .emit event nested) →
      r.listener = listener →
      ∃ first mid later d, s'.order = first ++ (c, off.op) :: (mid ++ (i, call.op) :: later) ∧
        ((d, .on event listener) ∈ mid ∨ (d, .once event listener) ∈ mid) := by
  refine ⟨fun s hreach => (reachable_emitterInv hreach).laws, ?_, ?_⟩
  · intro s s' es c i call op earlier later hreach hget hphase hrun hlater horder
    exact (reachable_emitterInv hreach).precedes hget hphase hrun hlater horder
  · intro s s' es c i off call event listener r hreach hget hphase hoff hrun hlater hget' hr hemit
      hlistener
    obtain ⟨nested, hop⟩ := hemit
    have hi := reachable_emitterInv hreach
    have hi' : s'.EmitterInv :=
      System.run_invariant (fun _ _ _ h hstep => h.step hstep) hi hrun
    obtain ⟨event', nested', earlier, later, hop', horder, hmem⟩ :=
      hi'.registered_of_submitted hget' hr
    rw [hop] at hop'
    cases hop'
    obtain ⟨first, mid, rfl⟩ := hi.precedes hget hphase hrun hlater horder
    rw [registryAfter_cons, hoff] at hmem
    have hregisters := registers_of_mem hmem hlistener
    have hfind : ∃ d, (d, EmitterOp.on event listener) ∈ mid ∨
        (d, EmitterOp.once event listener) ∈ mid := by
      rcases hregisters with hmid | hmid
      · obtain ⟨⟨d, op⟩, hd, rfl⟩ := List.mem_map.mp hmid
        exact ⟨d, Or.inl hd⟩
      · obtain ⟨⟨d, op⟩, hd, rfl⟩ := List.mem_map.mp hmid
        exact ⟨d, Or.inr hd⟩
    obtain ⟨d, hd⟩ := hfind
    refine ⟨first, mid, later, d, ?_, hd⟩
    rw [horder, List.append_assoc, List.cons_append, hop]

end EmitterState

end AgentlyStage
