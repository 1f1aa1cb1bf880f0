import AgentlyStage.Lib.Counting
import AgentlyStage.SyncScopes

/-!
# The lineage of synchronous scopes

The execution context of a piece of work names the generation it runs for and the
generations that must not be leased below it.  Along every hop from parent to child the
generation of the parent stays or becomes blocked, and what was blocked stays so.  That a
generation is inherited whenever the loop need not be avoided rests on a second fact: the
execution of unfinished work is alive, its generation owned by a lane and not sealed.
-/

namespace AgentlyStage

open Transition

/-! ## 1. Descent of executions -/

namespace CarrierExecution

/-- Below `e` there is `d`: the generation of `e` is kept or blocked, and what `e` has
    blocked stays blocked. -/
structure LeadsTo (e d : CarrierExecution) : Prop where
  generation : e.generation = d.generation ∨ e.generation ∈ d.blockedGenerationIds
  blocked : ∀ b ∈ e.blockedGenerationIds, b ∈ d.blockedGenerationIds

theorem LeadsTo.refl (e : CarrierExecution) : LeadsTo e e := ⟨Or.inl rfl, fun _ h => h⟩

theorem LeadsTo.trans {e d c : CarrierExecution} (h : LeadsTo e d) (h' : LeadsTo d c) :
    LeadsTo e c := by
  refine ⟨?_, fun b hb => h'.blocked b (h.blocked b hb)⟩
  rcases h.generation with heq | hmem
  · rw [heq]
    exact h'.generation
  · exact Or.inr (h'.blocked _ hmem)

/-- The identifiers exist, and the generation is not blocked for itself. -/
structure Ok (counter : Nat) (e : CarrierExecution) : Prop where
  generation : e.generation ≤ counter
  blocked : ∀ b ∈ e.blockedGenerationIds, b ≤ counter
  own : e.generation ∉ e.blockedGenerationIds

theorem Ok.mono {counter counter' : Nat} {e : CarrierExecution} (h : Ok counter e)
    (hle : counter ≤ counter') : Ok counter' e :=
  ⟨Nat.le_trans h.generation hle, fun b hb => Nat.le_trans (h.blocked b hb) hle, h.own⟩

/-- The generation is in the execution: its own or a blocked one. -/
def Covers (e : CarrierExecution) (g : Nat) : Prop :=
  e.generation = g ∨ g ∈ e.blockedGenerationIds

theorem LeadsTo.covers {e d : CarrierExecution} {g : Nat} (h : LeadsTo e d) (hg : e.Covers g) :
    d.Covers g := by
  rcases hg with rfl | hmem
  · exact h.generation.imp_left Eq.symm
  · exact Or.inr (h.blocked g hmem)

end CarrierExecution

open CarrierExecution (LeadsTo)

/-- `LeadsTo` for the context variable, which outside code has not set. -/
def Descends (a b : Option CarrierExecution) : Prop :=
  ∀ e, a = some e → ∃ d, b = some d ∧ LeadsTo e d

namespace Descends

variable {a b c : Option CarrierExecution}

theorem refl (a : Option CarrierExecution) : Descends a a := fun e h => ⟨e, h, LeadsTo.refl e⟩

theorem trans (h : Descends a b) (h' : Descends b c) : Descends a c := by
  intro e he
  obtain ⟨d, hd, hed⟩ := h e he
  obtain ⟨d', hd', hdd'⟩ := h' d hd
  exact ⟨d', hd', hed.trans hdd'⟩

theorem none (b : Option CarrierExecution) : Descends .none b := by
  intro e h
  cases h

/-- What `bind_current_execution` overlays is the execution of the drain. -/
theorem or_eq (h : Descends a b) : b.or a = b := by
  cases b with
  | some d => rfl
  | none =>
    cases a with
    | none => rfl
    | some e =>
      obtain ⟨d, hd, -⟩ := h e rfl
      cases hd

end Descends

namespace World

variable {count : Nat} {s s' : World}

/-! ## 2. The invariant -/

/-- The scope exists, and `P` holds for the execution of its opener. -/
def OpenedBy (s : World) (σ : Nat) (P : Option CarrierExecution → Prop) : Prop :=
  ∃ scope, s.scopes[σ]? = some scope ∧
    ∀ u, scope.opener = some u → ∃ y, s.works[u]? = some y ∧ P y.execution

/-- A body was submitted by the opener of its scope; on a caller loop it has the execution
    of the opener. -/
def RootOk (s : World) (x : ScopedWork) : Prop :=
  ∃ σ p scope y, x.scope = some σ ∧ x.parent = some p ∧ s.scopes[σ]? = some scope ∧
    scope.opener = some p ∧ s.works[p]? = some y ∧
    (x.stageBacked = true ∨ x.execution = y.execution)

structure WorkOk (s : World) (i : Nat) (x : ScopedWork) : Prop where
  execution : ∀ e, x.execution = some e →
    e.Ok s.pool.generationCounter ∧ e.stage < s.scopes.length
  scope : ∀ σ, x.scope = some σ → σ < s.scopes.length
  loop : ∀ g, x.loop = some (.carrier g) → ∃ e, x.execution = some e ∧ e.Covers g
  /-- A call through a bridge may join an epoch that somebody else has bound. -/
  parent : ∀ p, x.parent = some p → p < i ∧
    ∃ y, s.works[p]? = some y ∧ (x.kind ≠ .call → Descends y.execution x.execution)
  activeStage : ∀ τ, x.activeStage = some τ → s.OpenedBy τ fun a => Descends a x.execution
  root : x.kind = .root → s.RootOk x

structure EpochOk (s : World) (σ : Nat) (epoch : Epoch) : Prop where
  lease : ∀ h blocked, epoch = .stage h blocked →
    CarrierExecution.Ok s.pool.generationCounter ⟨h, blocked, σ⟩ ∧
      s.OpenedBy σ fun a => Descends a (some ⟨h, blocked, σ⟩)
  caller : ∀ g, epoch = .caller (.carrier g) →
    ∃ scope u y e, s.scopes[σ]? = some scope ∧ scope.opener = some u ∧
      s.works[u]? = some y ∧ y.execution = some e ∧ e.Covers g
  scope : σ < s.scopes.length

/-- The lineage of work and epochs. -/
structure Lineage (count : Nat) (s : World) : Prop where
  pool : CarrierPool.PoolInv count s.pool
  works : ∀ i x, s.works[i]? = some x → s.WorkOk i x
  opener : ∀ σ : Nat, ∀ scope : StageScope, s.scopes[σ]? = some scope →
    ∀ u, scope.opener = some u → ∃ y : ScopedWork, s.works[u]? = some y
  epochs : ∀ σ epoch, s.epoch σ = some epoch → s.EpochOk σ epoch
  /-- Who waits for a scope has entered it, on a loop by `with`. -/
  waits : ∀ w σ, s.waiting w = some (.scope σ) →
    ∃ scope y, s.scopes[σ]? = some scope ∧ scope.opener = some w ∧ s.works[w]? = some y ∧
      (y.loop = none ∨ scope.contextMode = .sync)

/-- The executions of unfinished work are alive. -/
structure Alive (s : World) : Prop where
  /-- Work is waited for by the scope of its execution or by its parent. -/
  held : ∀ i x e, s.works[i]? = some x → s.finished i = false → x.execution = some e →
    x.scope = some e.stage ∨ ∃ p y, x.parent = some p ∧ s.works[p]? = some y ∧
      s.finished p = false ∧ y.execution = some e
  epoch : ∀ i x e, s.works[i]? = some x → s.finished i = false → x.execution = some e →
    s.epoch e.stage = some (.stage e.generation e.blockedGenerationIds)
  pinned : ∀ i x e, s.works[i]? = some x → s.finished i = false → x.execution = some e →
    s.pool.acceptsPinned e.generation = true

/-! ## 3. Growth -/

/-- What started stays as it was. -/
structure Grows (s s' : World) : Prop where
  works : ∀ i : Nat, ∀ x : ScopedWork, s.works[i]? = some x → s'.works[i]? = some x
  scopes : ∀ σ : Nat, ∀ scope : StageScope, s.scopes[σ]? = some scope →
    s'.scopes[σ]? = some scope
  counter : s.pool.generationCounter ≤ s'.pool.generationCounter

theorem Grows.length (h : Grows s s') {σ : Nat} (hσ : σ < s.scopes.length) :
    σ < s'.scopes.length := by
  have hget := h.scopes σ _ (List.getElem?_eq_getElem hσ)
  exact (List.getElem?_eq_some_iff.mp hget).1

theorem OpenedBy.grows {σ : Nat} {P : Option CarrierExecution → Prop} (ho : s.OpenedBy σ P)
    (h : Grows s s') : s'.OpenedBy σ P := by
  obtain ⟨scope, hscope, hopener⟩ := ho
  refine ⟨scope, h.scopes σ scope hscope, fun u hu => ?_⟩
  obtain ⟨y, hy, hP⟩ := hopener u hu
  exact ⟨y, h.works u y hy, hP⟩

theorem OpenedBy.imp {σ : Nat} {P Q : Option CarrierExecution → Prop} (ho : s.OpenedBy σ P)
    (h : ∀ a, P a → Q a) : s.OpenedBy σ Q := by
  obtain ⟨scope, hscope, hopener⟩ := ho
  refine ⟨scope, hscope, fun u hu => ?_⟩
  obtain ⟨y, hy, hP⟩ := hopener u hu
  exact ⟨y, hy, h _ hP⟩

theorem RootOk.grows {x : ScopedWork} (hx : s.RootOk x) (h : Grows s s') : s'.RootOk x := by
  obtain ⟨σ, p, scope, y, hσ, hp, hscope, hopener, hy, hexec⟩ := hx
  exact ⟨σ, p, scope, y, hσ, hp, h.scopes σ scope hscope, hopener, h.works p y hy, hexec⟩

theorem WorkOk.grows {i : Nat} {x : ScopedWork} (hx : s.WorkOk i x) (h : Grows s s') :
    s'.WorkOk i x where
  execution e he :=
    have hok := hx.execution e he
    ⟨hok.1.mono h.counter, h.length hok.2⟩
  scope σ hσ := h.length (hx.scope σ hσ)
  loop := hx.loop
  parent p hp := by
    obtain ⟨hlt, y, hy, hdescends⟩ := hx.parent p hp
    exact ⟨hlt, y, h.works p y hy, hdescends⟩
  activeStage τ hτ := (hx.activeStage τ hτ).grows h
  root hroot := (hx.root hroot).grows h

theorem EpochOk.grows {σ : Nat} {epoch : Epoch} (he : s.EpochOk σ epoch) (h : Grows s s') :
    s'.EpochOk σ epoch where
  lease k blocked hk :=
    have hok := he.lease k blocked hk
    ⟨hok.1.mono h.counter, hok.2.grows h⟩
  caller g hg := by
    obtain ⟨scope, u, y, e, hscope, hu, hy, hexec⟩ := he.caller g hg
    exact ⟨scope, u, y, e, h.scopes σ scope hscope, hu, h.works u y hy, hexec⟩
  scope := h.length he.scope

/-- The lineage after a step, from what the step adds. -/
theorem Lineage.of_grows (hl : Lineage count s) (hg : Grows s s')
    (hpool : CarrierPool.PoolInv count s'.pool)
    (hworks : ∀ i x, s'.works[i]? = some x → s.works[i]? = some x ∨ s'.WorkOk i x)
    (hopener : ∀ σ : Nat, ∀ scope : StageScope, s'.scopes[σ]? = some scope →
      s.scopes[σ]? = some scope ∨
        ∀ u, scope.opener = some u → ∃ y : ScopedWork, s'.works[u]? = some y)
    (hepochs : ∀ σ epoch, s'.epoch σ = some epoch →
      s.epoch σ = some epoch ∨ s'.EpochOk σ epoch)
    (hwaits : ∀ w σ, s'.waiting w = some (.scope σ) → s.waiting w = some (.scope σ) ∨
      ∃ scope y, s'.scopes[σ]? = some scope ∧ scope.opener = some w ∧ s'.works[w]? = some y ∧
        (y.loop = none ∨ scope.contextMode = .sync)) : Lineage count s' where
  pool := hpool
  works i x hx := (hworks i x hx).elim (fun h => (hl.works i x h).grows hg) id
  opener σ scope hscope u hu := by
    rcases hopener σ scope hscope with h | h
    · obtain ⟨y, hy⟩ := hl.opener σ scope h u hu
      exact ⟨y, hg.works u y hy⟩
    · exact h u hu
  epochs σ epoch he := (hepochs σ epoch he).elim (fun h => (hl.epochs σ epoch h).grows hg) id
  waits w σ hw := by
    rcases hwaits w σ hw with h | h
    · obtain ⟨scope, y, hscope, hopener, hy, hloop⟩ := hl.waits w σ h
      exact ⟨scope, y, hg.scopes σ scope hscope, hopener, hg.works w y hy, hloop⟩
    · exact h

/-! ## 4. What keeps the lineage -/

theorem Grows.of_append {works : List ScopedWork} {scopes : List StageScope}
    (hworks : s'.works = s.works ++ works) (hscopes : s'.scopes = s.scopes ++ scopes)
    (hcounter : s.pool.generationCounter ≤ s'.pool.generationCounter) : Grows s s' where
  works i x hx := by
    rw [hworks]
    exact (List.getElem?_append_left (List.getElem?_eq_some_iff.mp hx).1).trans hx
  scopes σ scope hscope := by
    rw [hscopes]
    exact (List.getElem?_append_left (List.getElem?_eq_some_iff.mp hscope).1).trans hscope
  counter := hcounter

/-- A piece of work starts, under an epoch that is bound already or from now on. -/
theorem Lineage.add_work (hl : Lineage count s) {x : ScopedWork}
    (hpool : CarrierPool.PoolInv count s'.pool)
    (hcounter : s.pool.generationCounter ≤ s'.pool.generationCounter)
    (hworks : s'.works = s.works ++ [x]) (hscopes : s'.scopes = s.scopes)
    (hwaiting : s'.waiting = s.waiting) (hx : s'.WorkOk s.works.length x)
    (hepochs : ∀ σ epoch, s'.epoch σ = some epoch →
      s.epoch σ = some epoch ∨ s'.EpochOk σ epoch) : Lineage count s' := by
  have hg : Grows s s' := Grows.of_append hworks (hscopes.trans (List.append_nil _).symm) hcounter
  apply hl.of_grows hg hpool
  · intro i y hy
    rw [hworks] at hy
    rcases getElem?_append_cases hy with ⟨rfl, rfl⟩ | hy
    · exact Or.inr hx
    · exact Or.inl hy
  · intro σ scope hscope
    rw [hscopes] at hscope
    exact Or.inl hscope
  · exact hepochs
  · intro w σ hw
    rw [hwaiting] at hw
    exact Or.inl hw

/-- Work, scopes and counter stay; epochs and waits may end. -/
theorem Lineage.of_same (hl : Lineage count s) (hpool : CarrierPool.PoolInv count s'.pool)
    (hcounter : s.pool.generationCounter ≤ s'.pool.generationCounter)
    (hworks : s'.works = s.works) (hscopes : s'.scopes = s.scopes)
    (hepochs : ∀ σ epoch, s'.epoch σ = some epoch → s.epoch σ = some epoch)
    (hwaits : ∀ w σ, s'.waiting w = some (.scope σ) → s.waiting w = some (.scope σ) ∨
      ∃ scope y, s.scopes[σ]? = some scope ∧ scope.opener = some w ∧ s.works[w]? = some y ∧
        (y.loop = none ∨ scope.contextMode = .sync)) : Lineage count s' := by
  apply hl.of_grows ⟨fun i x hx => hworks ▸ hx, fun σ scope h => hscopes ▸ h, hcounter⟩ hpool
  · intro i x hx
    exact Or.inl (hworks ▸ hx)
  · intro σ scope hscope
    exact Or.inl (hscopes ▸ hscope)
  · exact fun σ epoch he => Or.inl (hepochs σ epoch he)
  · rw [hworks, hscopes]
    exact hwaits

theorem Lineage.start (hl : Lineage count s) {x : ScopedWork}
    (hx : (s.start x).WorkOk s.works.length x) : Lineage count (s.start x) :=
  hl.add_work hl.pool (Nat.le_refl _) rfl rfl rfl hx fun _ _ h => Or.inl h

theorem grows_start (s : World) (x : ScopedWork) : Grows s (s.start x) :=
  Grows.of_append rfl (List.append_nil _).symm (Nat.le_refl _)

theorem Lineage.addWork (hl : Lineage count s) {x : ScopedWork} {σ : Nat} {epoch : Epoch}
    {pool : CarrierPool} (hpool : CarrierPool.PoolInv count pool)
    (hcounter : s.pool.generationCounter ≤ pool.generationCounter)
    (hepoch : (s.addWork σ epoch pool x).EpochOk σ epoch)
    (hx : (s.addWork σ epoch pool x).WorkOk s.works.length x) :
    Lineage count (s.addWork σ epoch pool x) := by
  refine hl.add_work hpool hcounter rfl rfl rfl hx fun τ epoch' hτ => ?_
  by_cases h : τ = σ
  · subst h
    rw [show (s.addWork τ epoch pool x).epoch τ = some epoch from Function.update_self _ _ _] at hτ
    cases hτ
    exact Or.inr hepoch
  · rw [show (s.addWork σ epoch pool x).epoch τ = s.epoch τ from Function.update_of_ne h _ _] at hτ
    exact Or.inl hτ

theorem grows_addWork {pool : CarrierPool}
    (hcounter : s.pool.generationCounter ≤ pool.generationCounter) (σ : Nat) (epoch : Epoch)
    (x : ScopedWork) : Grows s (s.addWork σ epoch pool x) :=
  Grows.of_append rfl (List.append_nil _).symm hcounter

/-! ## 5. Leases -/

/-- The blocked set below a lease. -/
theorem leadsTo_blocked {x : CarrierExecution} {counter h σ : Nat} {sync : Bool}
    (hx : x.Ok counter) (hh : h ≤ counter) (hblocked : h ∉ x.blockedGenerationIds)
    (hsync : sync = true ∨ h = x.generation) :
    CarrierExecution.Ok counter
        ⟨h, blockedGenerationIdsForSubmission (some x) h sync, σ⟩ ∧
      LeadsTo x ⟨h, blockedGenerationIdsForSubmission (some x) h sync, σ⟩ := by
  unfold blockedGenerationIdsForSubmission
  dsimp only
  split
  · rename_i hne
    refine ⟨⟨hh, ?_, ?_⟩, Or.inr List.mem_cons_self, fun b hb => List.mem_cons_of_mem _ hb⟩
    · intro b hb
      rcases List.mem_cons.mp hb with rfl | hb
      · exact hx.generation
      · exact hx.blocked b hb
    · intro hmem
      rcases List.mem_cons.mp hmem with heq | hmem
      · exact hne.2 heq
      · exact hblocked hmem
  · rename_i hne
    refine ⟨⟨hh, hx.blocked, hblocked⟩, Or.inl ?_, fun b hb => hb⟩
    rcases hsync with hsync | heq
    · by_contra hgen
      exact hne ⟨hsync, fun heq => hgen heq.symm⟩
    · exact heq.symm

/-- Where a lease comes from: the execution, when its loop need not be avoided or is not the
    running one; else the lanes that the execution has not blocked. -/
inductive LeaseSource (s : World) (x : ScopedWork) (sync : Bool) (lease : Nat) :
    List Nat → CarrierPool → Prop
  | inherited {e : CarrierExecution} (hexec : x.execution = some e)
      (hgeneration : lease = e.generation) :
      LeaseSource s x sync lease e.blockedGenerationIds s.pool
  | avoided {e : CarrierExecution} {pool : CarrierPool} (hsync : sync = true)
      (hexec : x.execution = some e) (hloop : x.loop = some (.carrier e.generation))
      (htakes : CarrierPool.Takes s.pool
        (CarrierPool.excludes true (some e.generation) e.blockedGenerationIds) lease pool) :
      LeaseSource s x sync lease (e.generation :: e.blockedGenerationIds) pool
  | outside {pool : CarrierPool} (hexec : x.execution = none)
      (htakes : CarrierPool.Takes s.pool (CarrierPool.excludes sync none []) lease pool) :
      LeaseSource s x sync lease [] pool

/-- What a lease acquired by the code of `x` is.  `sync` avoids the current loop. -/
structure Leased (count : Nat) (s : World) (x : ScopedWork) (sync : Bool) (h : Nat)
    (blocked : List Nat) (pool : CarrierPool) : Prop where
  inv : CarrierPool.PoolInv count pool
  acquired : CarrierPool.Acquired s.pool h pool
  ok : ∀ σ, CarrierExecution.Ok pool.generationCounter ⟨h, blocked, σ⟩
  descends : ∀ σ, Descends x.execution (some ⟨h, blocked, σ⟩)
  /-- The running loop is avoided, and blocked from here on. -/
  running : sync = true → ∀ g, x.loop = some (.carrier g) → g ∈ blocked ∧ h ≠ g
  source : LeaseSource s x sync h blocked pool
  reopened : sync = false → ∀ e, x.execution = some e → h = e.generation ∧ pool = s.pool

theorem runningGeneration_eq_some {x : ScopedWork} {g : Nat} :
    x.runningGeneration = some g ↔ x.loop = some (.carrier g) := by
  unfold ScopedWork.runningGeneration
  constructor
  · intro h
    split at h
    · rename_i k hk
      cases h
      exact hk
    · cases h
  · intro h
    rw [h]

theorem isRunning_carrier {g : Nat} (h : s.isRunning (.carrier g) = true) : s.pool.Owned g := by
  obtain ⟨lane, hlane, hcurrent⟩ := List.any_eq_true.mp h
  refine ⟨lane, hlane, ?_⟩
  unfold CarrierLane.owns
  rw [hcurrent, Bool.true_or]

theorem runs_eq_true {i : Nat} {x : ScopedWork} (h : s.runs i x = true) :
    s.finished i = false ∧ s.waiting i = none ∧
      ∀ l, x.loop = some l → s.isRunning l = true ∧ s.isBlocked l = false := by
  simp only [runs, Bool.and_eq_true, Bool.not_eq_true', Option.isNone_iff_eq_none,
    Option.all_eq_true] at h
  exact ⟨h.1.1, h.1.2, h.2⟩

/-- **A lease.**  `acquire_lease` and `blocked_generation_ids_for_submission` together. -/
theorem leaseEpoch_spec (hl : Lineage count s) (ha : Alive s) {i : Nat} {x : ScopedWork}
    (hx : s.works[i]? = some x) (hruns : s.runs i x = true) {sync : Bool} {epoch : Epoch}
    {pool : CarrierPool} (h : s.leaseEpoch x sync = (epoch, pool)) :
    ∃ lease blocked, epoch = .stage lease blocked ∧ Leased count s x sync lease blocked pool := by
  obtain ⟨hunfinished, -, hloop⟩ := runs_eq_true hruns
  have hok := hl.works i x hx
  unfold leaseEpoch at h
  generalize hacquire : s.pool.acquireLease x.execution x.runningGeneration sync s.reservations =
    acquired at h
  obtain ⟨lease, pool'⟩ := acquired
  rw [Prod.mk.injEq] at h
  obtain ⟨rfl, rfl⟩ := h
  obtain ⟨hinv, hacq, hcases⟩ := CarrierPool.acquireLease_spec hl.pool hacquire
  refine ⟨lease, _, rfl, ?_⟩
  cases hexec : x.execution with
  | none =>
    -- outside code runs on no carrier loop
    have hnone : ∀ g, x.loop ≠ some (.carrier g) := by
      intro g hg
      obtain ⟨e, he, -⟩ := hok.loop g hg
      rw [hexec] at he
      cases he
    refine ⟨hinv, hacq, fun σ => ⟨hacq.bounded, fun b hb => (by cases hb),
      fun hb => (by cases hb)⟩, fun σ => hexec ▸ Descends.none _,
      fun _ g hg => absurd hg (hnone g), .outside hexec ?_, fun _ e he => ?_⟩
    · have hrunning : x.runningGeneration = none := by
        cases hrunning : x.runningGeneration with
        | none => rfl
        | some g => exact absurd (runningGeneration_eq_some.mp hrunning) (hnone g)
      rcases hcases with ⟨y, hy, -⟩ | ⟨-, htakes⟩
      · rw [hexec] at hy
        cases hy
      · rw [hexec, hrunning] at htakes
        exact htakes
    · rw [hexec] at he
      cases he
  | some e =>
    obtain ⟨heok, -⟩ := hok.execution e hexec
    rw [hexec] at hacquire
    have hnot : lease ∉ e.blockedGenerationIds :=
      CarrierPool.acquireLease_not_blocked hl.pool heok.blocked hacquire
    have hpinned := ha.pinned i x e hx hunfinished hexec
    -- the generation is alive: it is inherited unless its loop has to be avoided
    have hsource : lease = e.generation ∧ pool' = s.pool ∨
        (sync = true ∧ x.loop = some (.carrier e.generation)) ∧
          CarrierPool.Takes s.pool
            (CarrierPool.excludes sync x.runningGeneration e.blockedGenerationIds) lease pool' := by
      rcases hcases with ⟨y, hy, -, heq, hpool⟩ | ⟨hnone, htakes⟩
      · rw [hexec] at hy
        cases hy
        exact Or.inl ⟨heq, hpool⟩
      · have havoid : sync = true ∧ x.runningGeneration = some e.generation := by
          by_contra hnot
          exact hnone e hexec ⟨heok.own, hnot, hpinned⟩
        rw [hexec] at htakes
        exact Or.inr ⟨⟨havoid.1, runningGeneration_eq_some.mp havoid.2⟩, htakes⟩
    have hsync : sync = true ∨ lease = e.generation :=
      hsource.elim (fun h => Or.inr h.1) fun h => Or.inl h.1.1
    have hspec := fun σ => leadsTo_blocked (σ := σ) (heok.mono hacq.counter) hacq.bounded hnot
      hsync
    -- a loop of the execution that runs the code is avoided by `sync`
    have hrunning : sync = true → ∀ g, x.loop = some (.carrier g) → lease ≠ g := by
      intro hs g hg
      obtain ⟨d, hd, hcovers⟩ := hok.loop g hg
      rw [hexec] at hd
      cases hd
      rw [hs, runningGeneration_eq_some.mpr hg] at hacquire
      refine CarrierPool.acquireLease_avoids hl.pool (isRunning_carrier (hloop _ hg).1) hacquire
        fun y hy => ?_
      cases hy
      exact hcovers
    refine ⟨hinv, hacq, fun σ => (hspec σ).1, ?_, ?_, ?_, ?_⟩
    · intro σ d hd
      rw [hexec] at hd
      cases hd
      exact ⟨_, rfl, (hspec σ).2⟩
    · intro hs g hg
      obtain ⟨d, hd, hcovers⟩ := hok.loop g hg
      rw [hexec] at hd
      cases hd
      have hne := hrunning hs g hg
      exact ⟨((hspec 0).2.covers hcovers).resolve_left hne, hne⟩
    · rcases hsource with ⟨rfl, rfl⟩ | ⟨⟨rfl, hon⟩, htakes⟩
      · have hblocked : blockedGenerationIdsForSubmission (some e) e.generation sync =
            e.blockedGenerationIds := if_neg fun h => h.2 rfl
        rw [hblocked]
        exact .inherited hexec rfl
      · have hblocked : blockedGenerationIdsForSubmission (some e) lease true =
            e.generation :: e.blockedGenerationIds :=
          if_pos ⟨rfl, hrunning rfl _ hon⟩
        rw [hblocked]
        rw [runningGeneration_eq_some.mpr hon] at htakes
        exact .avoided rfl hexec hon htakes
    · intro hs d hd
      rw [hexec] at hd
      cases hd
      rcases hsource with h | h
      · exact h
      · rw [h.1.1] at hs
        cases hs

end World

end AgentlyStage
