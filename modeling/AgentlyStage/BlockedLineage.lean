import AgentlyStage.ScopeSteps

/-!
# What waits is blocked

The lineage of synchronous scopes: a generation whose loop waits synchronously for some work
is among the blocked generations of that work's execution, and the next scope gets neither a
blocked generation nor the running one.

The exception is a late callback, registered by a coroutine on the loop of its own
generation in a `with` scope that has settled: `_submit_callback_drain_locked` acquires the
new lease without avoiding the current loop, so the callback is leased on the very loop that
the scope goes on to block.
-/

namespace AgentlyStage

open Transition
open CarrierExecution (LeadsTo)

namespace World

variable {count : Nat} {s s' : World}

/-! ## 1. Waiting -/

/-- The scope is a `with` scope of a coroutine on the loop of `g`. -/
def OpensOn (s : World) (σ g : Nat) : Prop :=
  ∃ scope u y, s.scopes[σ]? = some scope ∧ scope.contextMode = .sync ∧ scope.opener = some u ∧
    s.works[u]? = some y ∧ y.loop = some (.carrier g)

/-- The loop of `g` waits synchronously for the work: for its scope, or for work that it
    descends from. -/
inductive SyncWaits (s : World) (g : Nat) : Nat → Prop
  | scope {i σ w : Nat} {x y : ScopedWork} (hx : s.works[i]? = some x)
      (hscope : x.scope = some σ) (hy : s.works[w]? = some y)
      (hloop : y.loop = some (.carrier g)) (hwaiting : s.waiting w = some (.scope σ)) :
      SyncWaits s g i
  | parent {i p : Nat} {x : ScopedWork} (hx : s.works[i]? = some x)
      (hparent : x.parent = some p) (h : SyncWaits s g p) : SyncWaits s g i

/-- The step reopens a settled `with` scope for a late callback, from the loop of the
    registrant's own generation. -/
def reopensOnLoop (s : World) : WorldEvent → Bool
  | .lateCallback r _ =>
    match s.works[r]? with
    | some x =>
      match x.scope, x.parent.bind fun i => s.works[i]? with
      | some σ, some registrant =>
        x.stageBacked && (s.epoch σ).isNone &&
          ((s.scopes[σ]?).any fun scope => decide (scope.contextMode = .sync)) &&
          registrant.execution.any fun e =>
            decide (registrant.loop = some (.carrier e.generation))
      | _, _ => false
    | none => false
  | _ => false

/-! ## 2. `with` scopes of coroutines -/

/-- A `with` scope opened on a carrier loop is leased on the carrier, never on a caller
    loop. -/
structure CarrierScopes (s : World) : Prop where
  works : ∀ i : Nat, ∀ x : ScopedWork, s.works[i]? = some x → ∀ σ g, x.scope = some σ →
    s.OpensOn σ g → ∃ e, x.execution = some e ∧ e.stage = σ
  epochs : ∀ σ l g, s.epoch σ = some (.caller l) → ¬ s.OpensOn σ g

/-- A scope that exists is opened on the same loop as before. -/
theorem OpensOn.of_grows (hl : Lineage count s) (hg : Grows s s') {σ g : Nat}
    (hσ : σ < s.scopes.length) (h : s'.OpensOn σ g) : s.OpensOn σ g := by
  obtain ⟨scope, u, y, hscope, hsync, hu, hy, hloop⟩ := h
  have hscope₀ := List.getElem?_eq_getElem hσ
  rw [hg.scopes σ _ hscope₀] at hscope
  cases hscope
  obtain ⟨y₀, hy₀⟩ := hl.opener σ _ hscope₀ u hu
  rw [hg.works u y₀ hy₀] at hy
  cases hy
  exact ⟨_, u, _, hscope₀, hsync, hu, hy₀, hloop⟩

/-- Who has opened the scope on the loop of `g` runs there. -/
theorem OpensOn.loop_eq {i σ g : Nat} {x : ScopedWork} {scope : StageScope}
    (h : s.OpensOn σ g) (hscope : s.scopes[σ]? = some scope) (hopener : scope.opener = some i)
    (hx : s.works[i]? = some x) : scope.contextMode = .sync ∧ x.loop = some (.carrier g) := by
  obtain ⟨scope', u, y, hscope', hsync, hu, hy, hloop⟩ := h
  rw [hscope] at hscope'
  cases hscope'
  rw [hopener] at hu
  cases hu
  rw [hx] at hy
  cases hy
  exact ⟨hsync, hloop⟩

theorem OpensOn.opener {i σ g : Nat} {scope : StageScope} (h : s.OpensOn σ g)
    (hscope : s.scopes[σ]? = some scope) (hmay : MaySubmit i scope) :
    scope.opener = some i := by
  rcases hmay with hopener | ⟨hnone, -⟩
  · exact hopener
  · obtain ⟨scope', u, -, hscope', -, hu, -⟩ := h
    rw [hscope] at hscope'
    cases hscope'
    rw [hnone] at hu
    cases hu

theorem CarrierScopes.of_grows (hc : CarrierScopes s) (hl : Lineage count s) (hg : Grows s s')
    (hworks : ∀ i : Nat, ∀ x : ScopedWork, s'.works[i]? = some x → s.works[i]? = some x ∨
      ∀ σ g, x.scope = some σ → s'.OpensOn σ g → ∃ e, x.execution = some e ∧ e.stage = σ)
    (hepochs : ∀ σ l, s'.epoch σ = some (.caller l) → s.epoch σ = some (.caller l) ∨
      ∀ g, ¬ s'.OpensOn σ g) : CarrierScopes s' where
  works i x hx σ g hσ hopens := by
    rcases hworks i x hx with hold | hnew
    · exact hc.works i x hold σ g hσ (hopens.of_grows hl hg ((hl.works i x hold).scope σ hσ))
    · exact hnew σ g hσ hopens
  epochs σ l g hepoch hopens := by
    rcases hepochs σ l hepoch with hold | hnew
    · exact hc.epochs σ l g hold (hopens.of_grows hl hg (hl.epochs σ _ hold).scope)
    · exact hnew g hopens

theorem CarrierScopes.of_same (hc : CarrierScopes s) (hworks : s'.works = s.works)
    (hscopes : s'.scopes = s.scopes)
    (hepochs : ∀ σ epoch, s'.epoch σ = some epoch → s.epoch σ = some epoch) :
    CarrierScopes s' := by
  have hopens : ∀ σ g, s'.OpensOn σ g → s.OpensOn σ g := by
    intro σ g h
    unfold OpensOn at h ⊢
    rwa [hworks, hscopes] at h
  exact ⟨fun i x hx σ g hσ h => hc.works i x (hworks ▸ hx) σ g hσ (hopens σ g h),
    fun σ l g he h => hc.epochs σ l g (hepochs σ _ he) (hopens σ g h)⟩

/-- Work held by the scope of a parent in the same execution, or by the scope of that. -/
theorem CarrierScopes.start (hc : CarrierScopes s) (hl : Lineage count s) {i : Nat}
    {x y : ScopedWork} (hx : s.works[i]? = some x) (hexec : y.execution = x.execution)
    (hscope : ∀ σ, y.scope = some σ → x.scope = some σ ∨
      ∃ e, x.execution = some e ∧ e.stage = σ) : CarrierScopes (s.start y) := by
  have hg := grows_start s y
  refine hc.of_grows hl hg (fun j z hz => ?_) fun σ l h => Or.inl h
  rcases getElem?_append_cases hz with ⟨-, rfl⟩ | hz
  · refine Or.inr fun σ g hσ hopens => ?_
    rw [hexec]
    rcases hscope σ hσ with h | h
    · exact hc.works i x hx σ g h (hopens.of_grows hl hg ((hl.works i x hx).scope σ h))
    · exact h
  · exact Or.inl hz

theorem CarrierScopes.addWork (hc : CarrierScopes s) (hl : Lineage count s) {σ : Nat}
    {epoch : Epoch} {pool : CarrierPool} {y : ScopedWork}
    (hcounter : s.pool.generationCounter ≤ pool.generationCounter)
    (hσ : σ < s.scopes.length) (hy : ∀ τ, y.scope = some τ → τ = σ)
    (hepoch : ∀ l g, epoch = .caller l → ¬ s.OpensOn σ g)
    (hexec : ∀ g, s.OpensOn σ g → ∃ e, y.execution = some e ∧ e.stage = σ) :
    CarrierScopes (s.addWork σ epoch pool y) := by
  have hg := grows_addWork hcounter σ epoch y
  refine hc.of_grows hl hg (fun j z hz => ?_) fun τ l hτ => ?_
  · rcases getElem?_append_cases hz with ⟨-, rfl⟩ | hz
    · refine Or.inr fun τ g hτ hopens => ?_
      cases hy τ hτ
      exact hexec g (hopens.of_grows hl hg hσ)
    · exact Or.inl hz
  · by_cases h : τ = σ
    · subst h
      rw [show (s.addWork τ epoch pool y).epoch τ = some epoch from
        Function.update_self _ _ _] at hτ
      cases hτ
      exact Or.inr fun g hopens => hepoch l g rfl (hopens.of_grows hl hg hσ)
    · rw [show (s.addWork σ epoch pool y).epoch τ = s.epoch τ from
        Function.update_of_ne h _ _] at hτ
      exact Or.inl hτ

/-- A `with` scope takes no caller loop for a coroutine. -/
theorem selectCallerLoop_sync {x : ScopedWork} {scope : StageScope} {l l' : EventLoop}
    (hsync : scope.contextMode = .sync) (hloop : x.loop = some l') :
    s.selectCallerLoop x scope ≠ some l := by
  unfold selectCallerLoop inheritedCallerLoopForSync
  rw [hsync, hloop]
  cases scope.backendMode with
  | auto =>
    cases x.activeStage with
    | none => exact fun h => (by cases h)
    | some τ => exact fun h => (by cases h)
  | stage => exact fun h => (by cases h)

theorem CarrierScopes.submit (hc : CarrierScopes s) (hi : NestInv count s) {i σ : Nat}
    {x : ScopedWork} {scope : StageScope} {kind : ScopedKind} (hx : s.works[i]? = some x)
    (hscope : s.scopes[σ]? = some scope) (hruns : s.runs i x = true)
    (hmay : MaySubmit i scope) : CarrierScopes (s.submit i x σ scope kind) := by
  have hlt : σ < s.scopes.length := (List.getElem?_eq_some_iff.mp hscope).1
  unfold World.submit
  generalize hresolve : s.resolveBackend x σ scope = resolved
  obtain ⟨epoch, pool⟩ := resolved
  have hresolved := resolveBackend_spec hi.lineage hi.alive hx hruns hresolve
  have hcounter := (hresolved.pool_inv hi.lineage).2
  cases epoch with
  | stage lease blocked =>
    dsimp only
    split
    · exact hc.addWork hi.lineage hcounter hlt (fun τ h => (Option.some.inj h).symm) nofun
        fun g _ => ⟨_, rfl, rfl⟩
    · exact hc.of_same rfl rfl fun _ _ h => h
  | caller l =>
    have hnot : ∀ g, ¬ s.OpensOn σ g := by
      intro g hopens
      cases hresolved with
      | bound hbound => exact hc.epochs σ l g hbound hopens
      | caller _ hselect =>
        obtain ⟨hsync, hloop⟩ := hopens.loop_eq hscope (hopens.opener hscope hmay) hx
        exact selectCallerLoop_sync hsync hloop hselect
    exact hc.addWork hi.lineage hcounter hlt (fun τ h => (Option.some.inj h).symm)
      (fun _ g _ => hnot g) fun g hopens => absurd hopens (hnot g)

/-- A late callback on a caller loop is not for a `with` scope of a coroutine. -/
theorem CarrierScopes.not_late (hc : CarrierScopes s) {r σ : Nat} {registrant x : ScopedWork}
    {l : EventLoop} {pool : CarrierPool} (hx : s.works[r]? = some x) (hσ : x.scope = some σ)
    (h : LateResolved count s registrant x σ (.caller l) pool) (g : Nat) : ¬ s.OpensOn σ g := by
  intro hopens
  obtain ⟨e, he, hstage⟩ := hc.works r x hx σ g hσ hopens
  cases h with
  | caller hcaller _ _ =>
    unfold ScopedWork.stageBacked at hcaller
    rw [he, Option.any_some, hσ, hstage, decide_eq_true rfl] at hcaller
    cases hcaller

theorem LateResolved.counter {registrant x : ScopedWork} {σ : Nat} {epoch : Epoch}
    {pool : CarrierPool} (h : LateResolved count s registrant x σ epoch pool) :
    s.pool.generationCounter ≤ pool.generationCounter := by
  cases h with
  | bound => exact Nat.le_refl _
  | reopened _ _ hleased => exact hleased.acquired.counter
  | caller => exact Nat.le_refl _

theorem CarrierScopes.lateCallback (hc : CarrierScopes s) (hi : NestInv count s) {r : Nat}
    {sync : Bool} (h : s.lateCallback r sync = some s') : CarrierScopes s' := by
  obtain ⟨x, σ, i, registrant, scope, hx, -, hσ, -, -, hscope, -, -, -, hcases⟩ :=
    lateCallback_spec hi.lineage hi.alive h
  have hlt : σ < s.scopes.length := (List.getElem?_eq_some_iff.mp hscope).1
  rcases hcases with ⟨lease, blocked, pool, hlate, ⟨-, rfl⟩ | ⟨-, rfl⟩⟩ | ⟨l, hlate, rfl⟩
  · exact hc.addWork hi.lineage hlate.counter hlt (fun τ h => (Option.some.inj h).symm) nofun
      fun g _ => ⟨_, rfl, rfl⟩
  · exact hc.of_same rfl rfl fun _ _ h => h
  · have hnot := hc.not_late hx hσ hlate
    exact hc.addWork hi.lineage (Nat.le_refl _) hlt (fun τ h => (Option.some.inj h).symm)
      (fun _ g _ => hnot g) fun g hopens => absurd hopens (hnot g)

theorem CarrierScopes.step (hc : CarrierScopes s) (hi : NestInv count s) {e : WorldEvent}
    (h : s.step e = some s') : CarrierScopes s' := by
  cases e with
  | outside loop =>
    cases h
    refine hc.of_grows hi.lineage (grows_start s _) (fun j z hz => ?_) fun σ l h => Or.inl h
    rcases getElem?_append_cases hz with ⟨-, rfl⟩ | hz
    · exact Or.inr nofun
    · exact Or.inl hz
  | openScope i backendMode contextMode =>
    obtain ⟨x, hx, -, rfl⟩ := openScope_spec h
    exact hc.of_grows hi.lineage (grows_enter s _) (fun _ _ hx => Or.inl hx)
      fun σ l h => Or.inl h
  | go i σ =>
    obtain ⟨x, scope, hx, hscope, hruns, hopener, rfl⟩ := go_spec h
    exact hc.submit hi hx hscope hruns (Or.inl hopener)
  | spawn i =>
    obtain ⟨x, hx, -, rfl⟩ := spawn_spec h
    refine hc.start hi.lineage hx rfl fun σ hσ => Or.inr ?_
    dsimp only at hσ
    split at hσ
    · exact Option.map_eq_some_iff.mp hσ
    · cases hσ
  | worker i =>
    obtain ⟨x, hx, -, rfl⟩ := worker_spec h
    exact hc.start hi.lineage hx rfl nofun
  | callback r sync =>
    obtain ⟨x, i, registrant, hx, -, -, -, -, rfl⟩ := callback_spec hi.lineage h
    exact hc.start hi.lineage hx rfl fun σ hσ => Or.inl hσ
  | lateCallback r sync => exact hc.lateCallback hi h
  | wait i σ =>
    obtain ⟨x, scope, -, -, -, -, -, rfl⟩ := wait_spec h
    exact hc.of_same rfl rfl fun _ _ h => h
  | resume i =>
    rw [resume_spec h]
    exact hc.of_same rfl rfl fun _ _ h => h
  | finish i =>
    obtain ⟨x, -, -, -, -, rfl⟩ := finish_spec h
    exact hc.of_same rfl rfl fun _ _ h => h
  | settle σ =>
    obtain ⟨-, rfl⟩ := settle_spec h
    exact hc.of_same rfl rfl fun _ _ => epoch_of_settled
  | close g =>
    obtain ⟨-, rfl⟩ := close_spec h
    exact hc.of_same rfl rfl fun _ _ h => h

/-! ## 3. What is blocked -/

/-- Below a `with` scope that was opened on a carrier loop, that generation is blocked. -/
structure Blocks (s : World) : Prop where
  works : ∀ i : Nat, ∀ x : ScopedWork, s.works[i]? = some x → ∀ e g, x.execution = some e →
    s.OpensOn e.stage g → g ∈ e.blockedGenerationIds
  epochs : ∀ σ h blocked g, s.epoch σ = some (.stage h blocked) → s.OpensOn σ g → g ∈ blocked

theorem Blocks.of_grows (hb : Blocks s) (hl : Lineage count s) (hg : Grows s s')
    (hworks : ∀ i : Nat, ∀ x : ScopedWork, s'.works[i]? = some x → s.works[i]? = some x ∨
      ∀ e g, x.execution = some e → s'.OpensOn e.stage g → g ∈ e.blockedGenerationIds)
    (hepochs : ∀ σ h blocked, s'.epoch σ = some (.stage h blocked) →
      s.epoch σ = some (.stage h blocked) ∨ ∀ g, s'.OpensOn σ g → g ∈ blocked) :
    Blocks s' where
  works i x hx e g he hopens := by
    rcases hworks i x hx with hold | hnew
    · exact hb.works i x hold e g he
        (hopens.of_grows hl hg ((hl.works i x hold).execution e he).2)
    · exact hnew e g he hopens
  epochs σ h blocked g hepoch hopens := by
    rcases hepochs σ h blocked hepoch with hold | hnew
    · exact hb.epochs σ h blocked g hold (hopens.of_grows hl hg (hl.epochs σ _ hold).scope)
    · exact hnew g hopens

theorem Blocks.of_same (hb : Blocks s) (hworks : s'.works = s.works)
    (hscopes : s'.scopes = s.scopes)
    (hepochs : ∀ σ epoch, s'.epoch σ = some epoch → s.epoch σ = some epoch) : Blocks s' := by
  have hopens : ∀ σ g, s'.OpensOn σ g → s.OpensOn σ g := by
    intro σ g h
    unfold OpensOn at h ⊢
    rwa [hworks, hscopes] at h
  exact ⟨fun i x hx e g he h => hb.works i x (hworks ▸ hx) e g he (hopens _ g h),
    fun σ h blocked g he h' => hb.epochs σ h blocked g (hepochs σ _ he) (hopens σ g h')⟩

/-- Work in the execution of another piece of work. -/
theorem Blocks.start (hb : Blocks s) (hl : Lineage count s) {i : Nat} {x y : ScopedWork}
    (hx : s.works[i]? = some x) (hexec : y.execution = x.execution) : Blocks (s.start y) := by
  have hg := grows_start s y
  refine hb.of_grows hl hg (fun j z hz => ?_) fun σ h blocked he => Or.inl he
  rcases getElem?_append_cases hz with ⟨-, rfl⟩ | hz
  · refine Or.inr fun e g he hopens => ?_
    rw [hexec] at he
    exact hb.works i x hx e g he (hopens.of_grows hl hg ((hl.works i x hx).execution e he).2)
  · exact Or.inl hz

/-- Work under a lease of its scope. -/
theorem Blocks.addLeased (hb : Blocks s) (hl : Lineage count s) {σ lease : Nat}
    {blocked : List Nat} {pool : CarrierPool} {y : ScopedWork}
    (hcounter : s.pool.generationCounter ≤ pool.generationCounter)
    (hσ : σ < s.scopes.length) (hy : y.execution = some ⟨lease, blocked, σ⟩)
    (hblocked : ∀ g, s.OpensOn σ g → g ∈ blocked) :
    Blocks (s.addWork σ (.stage lease blocked) pool y) := by
  have hg := grows_addWork hcounter σ (.stage lease blocked) y
  refine hb.of_grows hl hg (fun j z hz => ?_) fun τ h B hτ => ?_
  · rcases getElem?_append_cases hz with ⟨-, rfl⟩ | hz
    · refine Or.inr fun e g he hopens => ?_
      rw [hy] at he
      cases he
      exact hblocked g (hopens.of_grows hl hg hσ)
    · exact Or.inl hz
  · by_cases h : τ = σ
    · subst h
      rw [show (s.addWork τ (.stage lease blocked) pool y).epoch τ = some (.stage lease blocked)
        from Function.update_self _ _ _] at hτ
      cases hτ
      exact Or.inr fun g hopens => hblocked g (hopens.of_grows hl hg hσ)
    · rw [show (s.addWork σ (.stage lease blocked) pool y).epoch τ = s.epoch τ
        from Function.update_of_ne h _ _] at hτ
      exact Or.inl hτ

/-- Work in the execution of another piece of work, on a caller loop. -/
theorem Blocks.addCaller (hb : Blocks s) (hl : Lineage count s) {i σ : Nat} {x y : ScopedWork}
    {l : EventLoop} {pool : CarrierPool} (hx : s.works[i]? = some x)
    (hcounter : s.pool.generationCounter ≤ pool.generationCounter)
    (hexec : y.execution = x.execution) : Blocks (s.addWork σ (.caller l) pool y) := by
  have hg := grows_addWork hcounter σ (.caller l) y
  refine hb.of_grows hl hg (fun j z hz => ?_) fun τ h B hτ => ?_
  · rcases getElem?_append_cases hz with ⟨-, rfl⟩ | hz
    · refine Or.inr fun e g he hopens => ?_
      rw [hexec] at he
      exact hb.works i x hx e g he (hopens.of_grows hl hg ((hl.works i x hx).execution e he).2)
    · exact Or.inl hz
  · by_cases h : τ = σ
    · subst h
      rw [show (s.addWork τ (.caller l) pool y).epoch τ = some (.caller l)
        from Function.update_self _ _ _] at hτ
      cases hτ
    · rw [show (s.addWork σ (.caller l) pool y).epoch τ = s.epoch τ
        from Function.update_of_ne h _ _] at hτ
      exact Or.inl hτ

theorem Blocks.go (hb : Blocks s) (hi : NestInv count s) {i σ : Nat}
    (h : s.go i σ = some s') : Blocks s' := by
  obtain ⟨x, scope, hx, hscope, hruns, hopener, rfl⟩ := go_spec h
  have hlt : σ < s.scopes.length := (List.getElem?_eq_some_iff.mp hscope).1
  unfold World.submit
  generalize hresolve : s.resolveBackend x σ scope = resolved
  obtain ⟨epoch, pool⟩ := resolved
  have hresolved := resolveBackend_spec hi.lineage hi.alive hx hruns hresolve
  have hcounter := (hresolved.pool_inv hi.lineage).2
  cases epoch with
  | stage lease blocked =>
    dsimp only
    split
    · refine hb.addLeased hi.lineage hcounter hlt rfl fun g hopens => ?_
      cases hresolved with
      | bound hbound => exact hb.epochs σ lease blocked g hbound hopens
      | lease _ _ hleased =>
        obtain ⟨hsync, hloop⟩ := hopens.loop_eq hscope hopener hx
        exact (hleased.running (decide_eq_true hsync) g hloop).1
    · exact hb.of_same rfl rfl fun _ _ h => h
  | caller l => exact hb.addCaller hi.lineage hx hcounter rfl

theorem reopensOnLoop_eq {r i σ : Nat} {x registrant : ScopedWork} {scope : StageScope}
    {sync : Bool} (hx : s.works[r]? = some x) (hσ : x.scope = some σ) (hp : x.parent = some i)
    (hregistrant : s.works[i]? = some registrant) (hscope : s.scopes[σ]? = some scope) :
    s.reopensOnLoop (.lateCallback r sync) = true ↔
      x.stageBacked = true ∧ s.epoch σ = none ∧ scope.contextMode = .sync ∧
        ∃ e, registrant.execution = some e ∧ registrant.loop = some (.carrier e.generation) := by
  simp only [reopensOnLoop, hx, hσ, hp, Option.bind_some, hregistrant, hscope, Option.any_some,
    Bool.and_eq_true, Option.isNone_iff_eq_none, decide_eq_true_eq, Option.any_eq_true, and_assoc]

theorem Blocks.lateCallback (hb : Blocks s) (hi : NestInv count s) {r : Nat} {sync : Bool}
    (hok : s.reopensOnLoop (.lateCallback r sync) = false)
    (h : s.lateCallback r sync = some s') : Blocks s' := by
  obtain ⟨x, σ, i, registrant, scope, hx, hkind, hσ, hp, hregistrant, hscope, hopener, hruns,
    hexec, hcases⟩ := lateCallback_spec hi.lineage hi.alive h
  have hlt : σ < s.scopes.length := (List.getElem?_eq_some_iff.mp hscope).1
  rcases hcases with ⟨lease, blocked, pool, hlate, ⟨-, rfl⟩ | ⟨-, rfl⟩⟩ | ⟨l, hlate, rfl⟩
  · refine hb.addLeased hi.lineage hlate.counter hlt rfl fun g hopens => ?_
    cases hlate with
    | bound hbound => exact hb.epochs σ lease blocked g hbound hopens
    | reopened hnone hstage hleased =>
      obtain ⟨hsync, hloop⟩ := hopens.loop_eq hscope hopener hregistrant
      obtain ⟨e, he, hcovers⟩ := (hi.lineage.works i registrant hregistrant).loop g hloop
      rcases hcovers with rfl | hmem
      · -- the step that the guard excludes
        rw [(reopensOnLoop_eq hx hσ hp hregistrant hscope).mpr
          ⟨hstage, hnone, hsync, e, he, hloop⟩] at hok
        cases hok
      · obtain ⟨d, hd, hleads⟩ := hleased.descends σ e he
        cases hd
        exact hleads.blocked g hmem
  · exact hb.of_same rfl rfl fun _ _ h => h
  · exact hb.addCaller hi.lineage hregistrant (Nat.le_refl _) rfl

theorem Blocks.step (hb : Blocks s) (hi : NestInv count s) {e : WorldEvent}
    (hok : s.reopensOnLoop e = false) (h : s.step e = some s') : Blocks s' := by
  cases e with
  | outside loop =>
    cases h
    refine hb.of_grows hi.lineage (grows_start s _) (fun j z hz => ?_)
      fun σ h blocked he => Or.inl he
    rcases getElem?_append_cases hz with ⟨-, rfl⟩ | hz
    · exact Or.inr nofun
    · exact Or.inl hz
  | openScope i backendMode contextMode =>
    obtain ⟨x, hx, -, rfl⟩ := openScope_spec h
    exact hb.of_grows hi.lineage (grows_enter s _) (fun _ _ hx => Or.inl hx)
      fun σ h blocked he => Or.inl he
  | go i σ => exact hb.go hi h
  | spawn i =>
    obtain ⟨x, hx, -, rfl⟩ := spawn_spec h
    exact hb.start hi.lineage hx rfl
  | worker i =>
    obtain ⟨x, hx, -, rfl⟩ := worker_spec h
    exact hb.start hi.lineage hx rfl
  | callback r sync =>
    obtain ⟨x, i, registrant, hx, -, -, -, -, rfl⟩ := callback_spec hi.lineage h
    exact hb.start hi.lineage hx rfl
  | lateCallback r sync => exact hb.lateCallback hi hok h
  | wait i σ =>
    obtain ⟨x, scope, -, -, -, -, -, rfl⟩ := wait_spec h
    exact hb.of_same rfl rfl fun _ _ h => h
  | resume i =>
    rw [resume_spec h]
    exact hb.of_same rfl rfl fun _ _ h => h
  | finish i =>
    obtain ⟨x, -, -, -, -, rfl⟩ := finish_spec h
    exact hb.of_same rfl rfl fun _ _ h => h
  | settle σ =>
    obtain ⟨-, rfl⟩ := settle_spec h
    exact hb.of_same rfl rfl fun _ _ => epoch_of_settled
  | close g =>
    obtain ⟨-, rfl⟩ := close_spec h
    exact hb.of_same rfl rfl fun _ _ h => h

theorem carrierScopes_init (count : Nat) (scopes : List StageScope) :
    CarrierScopes { pool := .ofCount count, scopes := scopes } := ⟨nofun, nofun⟩

theorem blocks_init (count : Nat) : Blocks { pool := .ofCount count } where
  works i x hx := by cases hx
  epochs σ h blocked g he := by cases he

/-- The works of the scopes are not calls of a bridge. -/
def NoCalls (s : World) : Prop :=
  ∀ i : Nat, ∀ x : ScopedWork, s.works[i]? = some x → x.kind ≠ .call

theorem NoCalls.of_append (hn : NoCalls s) {x : ScopedWork} (hworks : s'.works = s.works ++ [x])
    (hkind : x.kind ≠ .call) : NoCalls s' := by
  intro i y hy
  rw [hworks] at hy
  rcases getElem?_append_cases hy with ⟨-, rfl⟩ | hy
  · exact hkind
  · exact hn i y hy

theorem NoCalls.of_same (hn : NoCalls s) (hworks : s'.works = s.works) : NoCalls s' := by
  intro i x hx
  exact hn i x (hworks ▸ hx)

theorem NoCalls.step (hn : NoCalls s) (hi : NestInv count s) {e : WorldEvent}
    (h : s.step e = some s') : NoCalls s' := by
  cases e with
  | outside loop =>
    cases h
    exact hn.of_append rfl fun hcall => by cases hcall
  | openScope i backendMode contextMode =>
    obtain ⟨x, hx, -, rfl⟩ := openScope_spec h
    exact hn.of_same rfl
  | go i σ =>
    obtain ⟨x, scope, -, -, -, -, rfl⟩ := go_spec h
    unfold World.submit
    split
    · split
      · exact hn.of_append rfl fun hcall => by cases hcall
      · exact hn.of_same rfl
    · exact hn.of_append rfl fun hcall => by cases hcall
  | spawn i =>
    obtain ⟨x, hx, -, rfl⟩ := spawn_spec h
    exact hn.of_append rfl fun hcall => by cases hcall
  | worker i =>
    obtain ⟨x, hx, -, rfl⟩ := worker_spec h
    exact hn.of_append rfl fun hcall => by cases hcall
  | callback r sync =>
    obtain ⟨x, i, registrant, -, -, -, -, -, rfl⟩ := callback_spec hi.lineage h
    exact hn.of_append rfl fun hcall => by cases hcall
  | lateCallback r sync =>
    obtain ⟨x, σ, i, registrant, scope, -, -, -, -, -, -, -, -, -, hcases⟩ :=
      lateCallback_spec hi.lineage hi.alive h
    rcases hcases with ⟨lease, blocked, pool, -, ⟨-, rfl⟩ | ⟨-, rfl⟩⟩ | ⟨l, -, rfl⟩
    · exact hn.of_append rfl fun hcall => by cases hcall
    · exact hn.of_same rfl
    · exact hn.of_append rfl fun hcall => by cases hcall
  | wait i σ =>
    obtain ⟨x, scope, -, -, -, -, -, rfl⟩ := wait_spec h
    exact hn.of_same rfl
  | resume i =>
    rw [resume_spec h]
    exact hn.of_same rfl
  | finish i =>
    obtain ⟨x, -, -, -, -, rfl⟩ := finish_spec h
    exact hn.of_same rfl
  | settle σ =>
    obtain ⟨-, rfl⟩ := settle_spec h
    exact hn.of_same rfl
  | close g =>
    obtain ⟨-, rfl⟩ := close_spec h
    exact hn.of_same rfl

theorem reachUnder_blocks
    (h : (nestingSystem count).ReachUnder (fun s e => s.reopensOnLoop e = false) s) :
    NestInv count s ∧ CarrierScopes s ∧ Blocks s ∧ NoCalls s := by
  induction h with
  | init hs =>
    cases hs
    exact ⟨nestInv_init count [] nofun, carrierScopes_init count [], blocks_init count,
      fun i x hx => by cases hx⟩
  | step _ hok hstep ih =>
    obtain ⟨hi, hc, hb, hn⟩ := ih
    exact ⟨hi.step hstep, hc.step hi hstep, hb.step hi hok hstep, hn.step hi hstep⟩

/-! ## 4. The lineage of synchronous scopes -/

/-- The generations that wait for work are blocked for it, and the lease of a `with` scope is
    neither blocked for its opener nor the generation that runs the opener. -/
structure KeepsLineage (s : World) : Prop where
  blocked : ∀ g i, s.SyncWaits g i →
    ∃ x e, s.works[i]? = some x ∧ x.execution = some e ∧ g ∈ e.blockedGenerationIds
  lease : ∀ σ u scope y h blocked, s.scopes[σ]? = some scope → scope.contextMode = .sync →
    scope.opener = some u → s.works[u]? = some y → s.epoch σ = some (.stage h blocked) →
      (∀ e, y.execution = some e → h ∉ e.blockedGenerationIds) ∧ y.loop ≠ some (.carrier h)

theorem SyncWaits.blocked (hl : Lineage count s) (hc : CarrierScopes s) (hb : Blocks s)
    (hn : NoCalls s) {g i : Nat} (h : s.SyncWaits g i) :
    ∃ x e, s.works[i]? = some x ∧ x.execution = some e ∧ g ∈ e.blockedGenerationIds := by
  induction h with
  | @scope i σ w x y hx hscope hy hloop hwaiting =>
    obtain ⟨scope, y', hscope', hopener, hy', hsync⟩ := hl.waits w σ hwaiting
    rw [hy] at hy'
    cases hy'
    have hopens : s.OpensOn σ g := by
      refine ⟨scope, w, y, hscope', hsync.resolve_left fun hnone => ?_, hopener, hy, hloop⟩
      rw [hloop] at hnone
      cases hnone
    obtain ⟨e, he, rfl⟩ := hc.works i x hx σ g hscope hopens
    exact ⟨x, e, hx, he, hb.works i x hx e g he hopens⟩
  | @parent i p x hx hparent _ ih =>
    obtain ⟨y, e, hy, he, hmem⟩ := ih
    obtain ⟨-, y', hy', hdescends⟩ := (hl.works i x hx).parent p hparent
    rw [hy] at hy'
    cases hy'
    obtain ⟨d, hd, hleads⟩ := hdescends (hn i x hx) e he
    exact ⟨x, d, hx, hd, hleads.blocked g hmem⟩

theorem Blocks.keepsLineage (hb : Blocks s) (hc : CarrierScopes s) (hl : Lineage count s)
    (hn : NoCalls s) : KeepsLineage s where
  blocked g i h := h.blocked hl hc hb hn
  lease σ u scope y h blocked hscope hsync hopener hy hepoch := by
    have hlease := (hl.epochs σ _ hepoch).lease h blocked rfl
    constructor
    · intro e he hmem
      obtain ⟨d, hd, hleads⟩ := (hl.suits hy hscope hopener).lease h blocked hepoch e he
      cases hd
      exact hlease.1.own (hleads.blocked h hmem)
    · intro hloop
      exact hlease.1.own (hb.epochs σ h blocked h hepoch
        ⟨scope, u, y, hscope, hsync, hopener, hy, hloop⟩)

/-- A late callback that reopens the scope on the running loop leases that loop. -/
theorem not_keepsLineage_of_reopens (hi : NestInv count s) {e : WorldEvent}
    (hreopens : s.reopensOnLoop e = true) (h : s.step e = some s') : ¬ KeepsLineage s' := by
  cases e with
  | lateCallback r sync =>
    obtain ⟨x, σ, i, registrant, scope, hx, -, hσ, hp, hregistrant, hscope, hopener, hruns, -,
      hcases⟩ := lateCallback_spec hi.lineage hi.alive h
    obtain ⟨hstage, hnone, hsync, e, he, hloop⟩ :=
      (reopensOnLoop_eq hx hσ hp hregistrant hscope).mp hreopens
    have hpinned := hi.alive.pinned i registrant e hregistrant (runs_eq_true hruns).1 he
    rcases hcases with ⟨lease, blocked, pool, hlate, hdone⟩ | ⟨l, hlate, -⟩
    · cases hlate with
      | bound hbound =>
        rw [hnone] at hbound
        cases hbound
      | reopened _ _ hleased =>
        obtain ⟨rfl, rfl⟩ := hleased.reopened rfl e he
        rcases hdone with ⟨-, rfl⟩ | ⟨hrefused, -⟩
        · intro hkeeps
          refine (hkeeps.lease σ i scope registrant e.generation blocked hscope hsync hopener
            ?_ (Function.update_self _ _ _)).2 hloop
          exact (grows_addWork (Nat.le_refl _) _ _ _).works i registrant hregistrant
        · rw [hpinned] at hrefused
          cases hrefused
    · cases hlate with
      | caller hcaller =>
        rw [hstage] at hcaller
        cases hcaller
  | _ => cases hreopens

/-- **Lineage of synchronous scopes.**  In every run in which no late callback reopens a
    settled `with` scope from the loop of the registrant's own generation, what waits
    synchronously for work is blocked in its execution, and no `with` scope leases a blocked
    generation or the running one.  A step outside that condition leases the running one. -/
theorem sync_lineage_iff (count : Nat) (s : World) :
    ((nestingSystem count).ReachUnder (fun s e => s.reopensOnLoop e = false) s →
      KeepsLineage s) ∧
    ∀ s' e, (nestingSystem count).ReachUnder (fun s e => s.reopensOnLoop e = false) s →
      s.reopensOnLoop e = true → (nestingSystem count).step s e = some s' →
        ¬ KeepsLineage s' := by
  constructor
  · intro hreach
    obtain ⟨hi, hc, hb, hn⟩ := reachUnder_blocks hreach
    exact hb.keepsLineage hc hi.lineage hn
  · intro s' e hreach hreopens hstep
    exact not_keepsLineage_of_reopens (reachUnder_blocks hreach).1 hreopens hstep

/-- A coroutine on generation 1 uses a `with` scope, waits until it has settled, registers a
    callback on the handle and leaves the scope. -/
def reopenedByCallback : List WorldEvent :=
  [.outside none, .openScope 0 .auto .plain, .go 0 0, .openScope 1 .auto .sync, .go 1 1,
    .finish 2, .settle 1, .lateCallback 2 false, .wait 1 1]

/-- At the end of `reopenedByCallback` the callback is leased on the loop that waits for it,
    and nothing is blocked for it. -/
theorem reopened_scope_waits_for_itself :
    ∃ s x, (nestingSystem 1).run { pool := .ofCount 1 } reopenedByCallback = some s ∧
      (nestingSystem 1).Reachable s ∧ s.SyncWaits 1 3 ∧ s.works[3]? = some x ∧
      x.loop = some (.carrier 1) ∧ x.execution = some ⟨1, [], 1⟩ ∧ ¬ KeepsLineage s := by
  have hend : ((nestingSystem 1).run { pool := .ofCount 1 } reopenedByCallback).any (fun s =>
      decide (s.works[1]? = some ⟨.root, some 0, some 0, some (.carrier 1), some ⟨1, [], 0⟩,
          some 0⟩ ∧
        s.works[3]? = some ⟨.callback, some 1, some 1, some (.carrier 1), some ⟨1, [], 1⟩,
          some 0⟩ ∧
        s.scopes[1]? = some ⟨some 1, .auto, .sync⟩ ∧ s.epoch 1 = some (.stage 1 []) ∧
        s.waiting 1 = some (.scope 1))) = true := by
    decide
  obtain ⟨s, hrun, hs⟩ := (Option.any_eq_true _ _).mp hend
  obtain ⟨hopener, hcallback, hscope, hepoch, hwaiting⟩ := of_decide_eq_true hs
  refine ⟨s, _, hrun, System.reachable_of_run reopenedByCallback rfl hrun, ?_, hcallback, rfl,
    rfl, ?_⟩
  · exact .scope hcallback rfl hopener rfl hwaiting
  · intro hkeeps
    exact (hkeeps.lease 1 1 _ _ 1 [] hscope rfl rfl hopener hepoch).2 rfl

end World

end AgentlyStage
