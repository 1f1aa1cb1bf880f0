import AgentlyStage.ScopeLineage

/-!
# Steps of nested scopes

One spec lemma for each operation of the model, and from it that the operation keeps the
lineage and the executions of unfinished work alive.  `NestInv.step` is the step lemma for
every run.
-/

namespace AgentlyStage

open Transition
open CarrierExecution (LeadsTo)

namespace World

variable {count : Nat} {s s' : World}

/-! ## 1. Submissions -/

/-- The submitting work may use the scope: it has entered it, or the scope is one of the
    carrier that nobody has entered. -/
def MaySubmit (i : Nat) (scope : StageScope) : Prop :=
  scope.opener = some i ∨ scope.opener = none ∧ scope.backendMode = .stage

/-- A caller loop that is a carrier loop is one of the execution. -/
theorem selectCallerLoop_covers (hl : Lineage count s) {i : Nat} {x : ScopedWork}
    (hx : s.works[i]? = some x) {scope : StageScope} {g : Nat}
    (h : s.selectCallerLoop x scope = some (.carrier g)) :
    ∃ e, x.execution = some e ∧ e.Covers g := by
  have hok := hl.works i x hx
  have hinherited : s.inheritedCallerLoopForSync x = some (.carrier g) →
      ∃ e, x.execution = some e ∧ e.Covers g := by
    intro h
    unfold inheritedCallerLoopForSync at h
    split at h
    · rename_i τ hτ hloop
      split at h
      · rename_i l hepoch
        split at h
        · cases h
          -- the outer scope has bound the loop for its opener, an ancestor
          obtain ⟨scope₀, u, y, e, hscope₀, hu, hy, hexec, hcovers⟩ :=
            (hl.epochs τ _ hepoch).caller g rfl
          obtain ⟨scope₁, hscope₁, hopener⟩ := hok.activeStage τ hτ
          rw [hscope₀] at hscope₁
          cases hscope₁
          obtain ⟨y', hy', hdescends⟩ := hopener u hu
          rw [hy] at hy'
          cases hy'
          obtain ⟨d, hd, hleads⟩ := hdescends e hexec
          exact ⟨d, hd, hleads.covers hcovers⟩
        · cases h
      · cases h
    · cases h
  unfold selectCallerLoop at h
  split at h
  · cases h
  · split at h
    · exact hinherited h
    · cases hloop : x.loop with
      | none =>
        rw [hloop, Option.none_or] at h
        exact hinherited h
      | some l =>
        rw [hloop, Option.some_or] at h
        cases h
        exact hok.loop g hloop

theorem selectCallerLoop_opener {i : Nat} {x : ScopedWork} {scope : StageScope} {l : EventLoop}
    (hmay : MaySubmit i scope) (h : s.selectCallerLoop x scope = some l) :
    scope.opener = some i := by
  rcases hmay with hopener | ⟨-, hmode⟩
  · exact hopener
  · unfold selectCallerLoop at h
    rw [hmode] at h
    cases h

/-- Granted leases stay granted. -/
theorem Leased.pinned {x : ScopedWork} {sync : Bool} {lease g : Nat} {blocked : List Nat}
    {pool : CarrierPool} (h : Leased count s x sync lease blocked pool) (hl : Lineage count s)
    (hg : s.pool.acceptsPinned g = true) : pool.acceptsPinned g = true := by
  obtain ⟨howned, hadmits⟩ := (CarrierPool.acceptsPinned_iff hl.pool).mp hg
  obtain ⟨lane, hlane, howns⟩ := howned
  have hle := hl.pool.bounded lane hlane g howns
  refine (CarrierPool.acceptsPinned_iff h.inv).mpr
    ⟨h.acquired.keeps g ⟨lane, hlane, howns⟩, ?_⟩
  rw [h.acquired.admits g hle]
  exact hadmits

/-- Binding a scope to the epoch it has already, if any, changes no bound epoch. -/
theorem update_epoch_of {σ τ : Nat} {epoch epoch' : Epoch}
    (h : ∀ bound, s.epoch σ = some bound → bound = epoch) (hτ : s.epoch τ = some epoch') :
    Function.update s.epoch σ (some epoch) τ = some epoch' := by
  by_cases heq : τ = σ
  · subst heq
    rw [Function.update_self, h epoch' hτ]
  · rw [Function.update_of_ne heq]
    exact hτ

/-- What `_resolve_backend_locked` returns. -/
inductive Resolved (count : Nat) (s : World) (x : ScopedWork) (σ : Nat) (scope : StageScope) :
    Epoch → CarrierPool → Prop
  | bound {epoch : Epoch} (h : s.epoch σ = some epoch) : Resolved count s x σ scope epoch s.pool
  | caller {l : EventLoop} (hnone : s.epoch σ = none)
      (h : s.selectCallerLoop x scope = some l) :
      Resolved count s x σ scope (.caller l) s.pool
  | lease {lease : Nat} {blocked : List Nat} {pool : CarrierPool} (hnone : s.epoch σ = none)
      (hselect : s.selectCallerLoop x scope = none)
      (h : Leased count s x (decide (scope.contextMode = .sync)) lease blocked pool) :
      Resolved count s x σ scope (.stage lease blocked) pool

theorem resolveBackend_spec (hl : Lineage count s) (ha : Alive s) {i : Nat} {x : ScopedWork}
    (hx : s.works[i]? = some x) (hruns : s.runs i x = true) {σ : Nat} {scope : StageScope}
    {epoch : Epoch} {pool : CarrierPool} (h : s.resolveBackend x σ scope = (epoch, pool)) :
    Resolved count s x σ scope epoch pool := by
  unfold resolveBackend at h
  split at h
  · rename_i epoch' hepoch
    cases h
    exact .bound hepoch
  · rename_i hnone
    split at h
    · rename_i l hselect
      cases h
      exact .caller hnone hselect
    · rename_i hselect
      obtain ⟨lease, blocked, rfl, hleased⟩ := leaseEpoch_spec hl ha hx hruns h
      exact .lease hnone hselect hleased

namespace Resolved

variable {x : ScopedWork} {σ i : Nat} {scope : StageScope} {epoch : Epoch} {pool : CarrierPool}

theorem pool_inv (h : Resolved count s x σ scope epoch pool) (hl : Lineage count s) :
    CarrierPool.PoolInv count pool ∧ s.pool.generationCounter ≤ pool.generationCounter := by
  cases h with
  | bound => exact ⟨hl.pool, Nat.le_refl _⟩
  | caller => exact ⟨hl.pool, Nat.le_refl _⟩
  | lease _ _ h => exact ⟨h.inv, h.acquired.counter⟩

theorem pinned (h : Resolved count s x σ scope epoch pool) (hl : Lineage count s) {g : Nat}
    (hg : s.pool.acceptsPinned g = true) : pool.acceptsPinned g = true := by
  cases h with
  | bound => exact hg
  | caller => exact hg
  | lease _ _ h => exact h.pinned hl hg

/-- The epochs that were bound are the same afterwards. -/
theorem update_epoch (h : Resolved count s x σ scope epoch pool) {τ : Nat} {epoch' : Epoch}
    (hτ : s.epoch τ = some epoch') :
    Function.update s.epoch σ (some epoch) τ = some epoch' := by
  refine update_epoch_of (fun bound hbound => ?_) hτ
  cases h with
  | bound h =>
    rw [h] at hbound
    exact (Option.some.inj hbound).symm
  | caller hnone =>
    rw [hnone] at hbound
    cases hbound
  | lease hnone =>
    rw [hnone] at hbound
    cases hbound

end Resolved

/-- A bound epoch suits the submitting work. -/
structure Suits (s : World) (x : ScopedWork) (σ : Nat) : Prop where
  lease : ∀ lease blocked, s.epoch σ = some (.stage lease blocked) →
    Descends x.execution (some ⟨lease, blocked, σ⟩)
  caller : ∀ g, s.epoch σ = some (.caller (.carrier g)) → ∃ e, x.execution = some e ∧ e.Covers g

/-- The epoch of a scope suits the work that has entered it. -/
theorem Lineage.suits (hl : Lineage count s) {i σ : Nat} {x : ScopedWork} {scope : StageScope}
    (hx : s.works[i]? = some x) (hscope : s.scopes[σ]? = some scope)
    (hopener : scope.opener = some i) : s.Suits x σ where
  lease lease blocked hepoch := by
    obtain ⟨-, scope', hscope', hdescends⟩ := (hl.epochs σ _ hepoch).lease lease blocked rfl
    rw [hscope] at hscope'
    cases hscope'
    obtain ⟨y, hy, hyx⟩ := hdescends i hopener
    rw [hx] at hy
    cases hy
    exact hyx
  caller g hepoch := by
    obtain ⟨scope', u, y, e, hscope', hu, hy, hexec, hcovers⟩ :=
      (hl.epochs σ _ hepoch).caller g rfl
    rw [hscope] at hscope'
    cases hscope'
    rw [hopener] at hu
    cases hu
    rw [hx] at hy
    cases hy
    exact ⟨e, hexec, hcovers⟩

/-- Work submitted under a lease of the carrier. -/
theorem workOk_stage (hg : Grows s s') {i σ : Nat} {x y : ScopedWork}
    (hx : s.works[i]? = some x) {lease : Nat} {blocked : List Nat}
    (hok : CarrierExecution.Ok s'.pool.generationCounter ⟨lease, blocked, σ⟩)
    (hdescends : y.kind ≠ .call → Descends x.execution (some ⟨lease, blocked, σ⟩))
    (hσ : σ < s'.scopes.length) (hparent : y.parent = some i) (hscope : y.scope = some σ)
    (hloop : y.loop = some (.carrier lease) ∨ y.loop = none)
    (hexec : y.execution = some ⟨lease, blocked, σ⟩)
    (hactive : ∀ τ, y.activeStage = some τ →
      s'.OpenedBy τ fun a => Descends a (some ⟨lease, blocked, σ⟩))
    (hroot : y.kind = .root → s'.RootOk y) : s'.WorkOk s.works.length y where
  execution e he := by
    rw [hexec] at he
    cases he
    exact ⟨hok, hσ⟩
  scope τ hτ := by
    rw [hscope] at hτ
    cases hτ
    exact hσ
  loop g hloop' := by
    rcases hloop with h | h
    · rw [h] at hloop'
      cases hloop'
      exact ⟨_, hexec, Or.inl rfl⟩
    · rw [h] at hloop'
      cases hloop'
  parent p hp := by
    rw [hparent] at hp
    cases hp
    exact ⟨(List.getElem?_eq_some_iff.mp hx).1, x, hg.works i x hx,
      fun hkind => hexec ▸ hdescends hkind⟩
  activeStage τ hτ := hexec ▸ hactive τ hτ
  root := hroot

/-- Work in the execution of its parent. -/
theorem workOk_same (hl : Lineage count s) (hg : Grows s s') {i : Nat} {x y : ScopedWork}
    (hx : s.works[i]? = some x) (hparent : y.parent = some i) (hexec : y.execution = x.execution)
    (hscope : ∀ σ, y.scope = some σ → σ < s'.scopes.length)
    (hloop : ∀ g, y.loop = some (.carrier g) → ∃ e, x.execution = some e ∧ e.Covers g)
    (hactive : ∀ τ, y.activeStage = some τ → s'.OpenedBy τ fun a => Descends a x.execution)
    (hroot : y.kind = .root → s'.RootOk y) : s'.WorkOk s.works.length y where
  execution e he := by
    have hok := (hl.works i x hx).execution e (hexec ▸ he)
    exact ⟨hok.1.mono hg.counter, hg.length hok.2⟩
  scope := hscope
  loop g h := by
    obtain ⟨e, he, hcovers⟩ := hloop g h
    exact ⟨e, hexec.trans he, hcovers⟩
  parent p hp := by
    rw [hparent] at hp
    cases hp
    exact ⟨(List.getElem?_eq_some_iff.mp hx).1, x, hg.works i x hx,
      fun _ => hexec ▸ Descends.refl _⟩
  activeStage τ hτ := hexec ▸ hactive τ hτ
  root := hroot

/-- The pool changes by a lease that is given back. -/
theorem Lineage.set_pool (hl : Lineage count s) {pool : CarrierPool}
    (hpool : CarrierPool.PoolInv count pool)
    (hcounter : s.pool.generationCounter ≤ pool.generationCounter) :
    Lineage count { s with pool := pool } :=
  hl.of_same hpool hcounter rfl rfl (fun _ _ h => h) fun _ _ h => Or.inl h

theorem Lineage.submit (hl : Lineage count s) (ha : Alive s) {i σ : Nat} {x : ScopedWork}
    {scope : StageScope} {kind : ScopedKind} (hx : s.works[i]? = some x)
    (hscope : s.scopes[σ]? = some scope) (hruns : s.runs i x = true)
    (hmay : MaySubmit i scope) (hkind : kind = .call ∨ scope.opener = some i) :
    Lineage count (s.submit i x σ scope kind) := by
  have hσ : σ < s.scopes.length := (List.getElem?_eq_some_iff.mp hscope).1
  -- the scope seen from its opener
  have hopened : ∀ {t : World} {P : Option CarrierExecution → Prop}, Grows s t →
      (scope.opener = some i → P x.execution) → t.OpenedBy σ P := by
    intro t P hg hP
    refine ⟨scope, hg.scopes σ scope hscope, fun u hu => ?_⟩
    rcases hmay with hopener | ⟨hnone, -⟩
    · rw [hopener] at hu
      cases hu
      exact ⟨x, hg.works i x hx, hP hopener⟩
    · rw [hnone] at hu
      cases hu
  unfold World.submit
  generalize hresolve : s.resolveBackend x σ scope = resolved
  obtain ⟨epoch, pool⟩ := resolved
  have hresolved := resolveBackend_spec hl ha hx hruns hresolve
  obtain ⟨hpool, hcounter⟩ := hresolved.pool_inv hl
  cases epoch with
  | stage lease blocked =>
    dsimp only
    split
    · have hg := grows_addWork hcounter σ (.stage lease blocked)
        { kind, parent := some i, scope := some σ, loop := some (.carrier lease)
          execution := some ⟨lease, blocked, σ⟩, activeStage := some σ }
      have hlease : CarrierExecution.Ok pool.generationCounter ⟨lease, blocked, σ⟩ ∧
          (scope.opener = some i → Descends x.execution (some ⟨lease, blocked, σ⟩)) := by
        cases hresolved with
        | bound hbound =>
          exact ⟨((hl.epochs σ _ hbound).lease lease blocked rfl).1,
            fun hopener => (hl.suits hx hscope hopener).lease lease blocked hbound⟩
        | lease _ _ h => exact ⟨h.ok σ, fun _ => h.descends σ⟩
      apply hl.addWork hpool hcounter
      · refine ⟨fun h B heq => ?_, fun g heq => (by cases heq), hg.length hσ⟩
        cases heq
        exact ⟨hlease.1, hopened hg hlease.2⟩
      · refine workOk_stage hg hx hlease.1 (fun hcall => hlease.2 (hkind.resolve_left hcall))
          (hg.length hσ) rfl rfl (Or.inl rfl) rfl ?_ ?_
        · intro τ hτ
          cases hτ
          exact hopened hg hlease.2
        · intro hroot
          have hopener := hkind.resolve_left fun hcall => by cases hcall.symm.trans hroot
          exact ⟨σ, i, scope, x, rfl, rfl, hg.scopes σ scope hscope, hopener,
            hg.works i x hx, Or.inl (decide_eq_true rfl)⟩
    · exact hl.set_pool hpool hcounter
  | caller l =>
    have hg := grows_addWork hcounter σ (.caller l)
      { kind, parent := some i, scope := some σ, loop := some l
        execution := x.execution, activeStage := some σ }
    have hcovers : ∀ g, l = .carrier g → ∃ e, x.execution = some e ∧ e.Covers g := by
      intro g hgl
      subst hgl
      cases hresolved with
      | bound hbound =>
        rcases hmay with hopener | ⟨hnone, -⟩
        · exact (hl.suits hx hscope hopener).caller g hbound
        · obtain ⟨scope', u, -, -, hscope', hu, -⟩ := (hl.epochs σ _ hbound).caller g rfl
          rw [hscope] at hscope'
          cases hscope'
          rw [hnone] at hu
          cases hu
      | caller _ hselect => exact selectCallerLoop_covers hl hx hselect
    apply hl.addWork hpool hcounter
    · refine ⟨fun h B heq => (by cases heq), ?_, hg.length hσ⟩
      intro g heq
      cases heq
      cases hresolved with
      | bound hbound =>
        obtain ⟨scope', u, y, e, hscope', hu, hy, hexec⟩ := (hl.epochs σ _ hbound).caller g rfl
        exact ⟨scope', u, y, e, hg.scopes σ scope' hscope', hu, hg.works u y hy, hexec⟩
      | caller _ hselect =>
        obtain ⟨e, hexec, hcov⟩ := hcovers g rfl
        exact ⟨scope, i, x, e, hg.scopes σ scope hscope, selectCallerLoop_opener hmay hselect,
          hg.works i x hx, hexec, hcov⟩
    · refine workOk_same hl hg hx rfl rfl ?_ ?_ ?_ ?_
      · intro τ hτ
        cases hτ
        exact hg.length hσ
      · intro g hgl
        exact hcovers g (Option.some.inj hgl)
      · intro τ hτ
        cases hτ
        exact hopened hg fun _ => Descends.refl _
      · intro hroot
        have hopener := hkind.resolve_left fun hcall => by cases hcall.symm.trans hroot
        exact ⟨σ, i, scope, x, rfl, rfl, hg.scopes σ scope hscope, hopener,
          hg.works i x hx, Or.inr rfl⟩

/-! ## 2. What keeps the executions alive -/

theorem Alive.add_work (ha : Alive s) {x : ScopedWork} (hworks : s'.works = s.works ++ [x])
    (hfinished : s'.finished = s.finished)
    (hepoch : ∀ τ epoch, s.epoch τ = some epoch → s'.epoch τ = some epoch)
    (hpinned : ∀ g, s.pool.acceptsPinned g = true → s'.pool.acceptsPinned g = true)
    (hx : ∀ e, x.execution = some e →
      (x.scope = some e.stage ∨ ∃ p y, x.parent = some p ∧ s.works[p]? = some y ∧
        s.finished p = false ∧ y.execution = some e) ∧
      s'.epoch e.stage = some (.stage e.generation e.blockedGenerationIds) ∧
      s'.pool.acceptsPinned e.generation = true) : Alive s' := by
  have hkeep : ∀ i : Nat, ∀ y : ScopedWork, s.works[i]? = some y → s'.works[i]? = some y := by
    intro i y hy
    rw [hworks]
    exact (List.getElem?_append_left (List.getElem?_eq_some_iff.mp hy).1).trans hy
  have hparent : ∀ {z : ScopedWork} {e : CarrierExecution},
      (z.scope = some e.stage ∨ ∃ p y, z.parent = some p ∧ s.works[p]? = some y ∧
        s.finished p = false ∧ y.execution = some e) →
      z.scope = some e.stage ∨ ∃ p y, z.parent = some p ∧ s'.works[p]? = some y ∧
        s'.finished p = false ∧ y.execution = some e := by
    rintro z e (h | ⟨p, y, hp, hy, hunfinished, hexec⟩)
    · exact Or.inl h
    · exact Or.inr ⟨p, y, hp, hkeep p y hy, hfinished ▸ hunfinished, hexec⟩
  constructor
  · intro i y e hy hunfinished hexec
    rw [hworks] at hy
    rcases getElem?_append_cases hy with ⟨rfl, rfl⟩ | hy
    · exact hparent (hx e hexec).1
    · exact hparent (ha.held i y e hy (hfinished ▸ hunfinished) hexec)
  · intro i y e hy hunfinished hexec
    rw [hworks] at hy
    rcases getElem?_append_cases hy with ⟨rfl, rfl⟩ | hy
    · exact (hx e hexec).2.1
    · exact hepoch _ _ (ha.epoch i y e hy (hfinished ▸ hunfinished) hexec)
  · intro i y e hy hunfinished hexec
    rw [hworks] at hy
    rcases getElem?_append_cases hy with ⟨rfl, rfl⟩ | hy
    · exact (hx e hexec).2.2
    · exact hpinned _ (ha.pinned i y e hy (hfinished ▸ hunfinished) hexec)

theorem Alive.of_same (ha : Alive s) (hworks : s'.works = s.works)
    (hfinished : s'.finished = s.finished) (hepoch : s'.epoch = s.epoch)
    (hpinned : ∀ g, s.pool.acceptsPinned g = true → s'.pool.acceptsPinned g = true) :
    Alive s' := by
  constructor
  · rw [hworks, hfinished]
    exact ha.held
  · rw [hworks, hfinished, hepoch]
    exact ha.epoch
  · rw [hworks, hfinished]
    exact fun i x e hx hunfinished hexec => hpinned _ (ha.pinned i x e hx hunfinished hexec)

/-- Work in the execution of a parent that goes on. -/
theorem Alive.start (ha : Alive s) {i : Nat} {x y : ScopedWork} (hx : s.works[i]? = some x)
    (hunfinished : s.finished i = false) (hparent : y.parent = some i)
    (hexec : y.execution = x.execution) : Alive (s.start y) := by
  refine ha.add_work rfl rfl (fun _ _ h => h) (fun _ h => h) fun e he => ?_
  rw [hexec] at he
  exact ⟨Or.inr ⟨i, x, hparent, hx, hunfinished, he⟩, ha.epoch i x e hx hunfinished he,
    ha.pinned i x e hx hunfinished he⟩

/-- Unfinished work keeps the scope of its execution active. -/
theorem Alive.active (ha : Alive s) (hl : Lineage count s) {i : Nat} {x : ScopedWork}
    {e : CarrierExecution} (hx : s.works[i]? = some x) (hunfinished : s.finished i = false)
    (hexec : x.execution = some e) : s.hasActiveWork e.stage = true := by
  induction i using Nat.strongRecOn generalizing x with
  | ind i ih =>
    rcases ha.held i x e hx hunfinished hexec with hscope | ⟨p, y, hp, hy, hfree, hy'⟩
    · refine List.any_eq_true.mpr ⟨(x, i), List.mk_mem_zipIdx_iff_getElem?.mpr hx, ?_⟩
      simp [hunfinished, hscope]
    · exact ih p ((hl.works i x hx).parent p hp).1 hy hfree hy'

/-- The lease of an active epoch is a reservation. -/
theorem reservations_pos {σ g : Nat} {blocked : List Nat} (hσ : σ < s.scopes.length)
    (h : s.epoch σ = some (.stage g blocked)) : 0 < s.reservations g := by
  refine Nat.add_pos_left (List.countP_pos_iff.mpr ⟨σ, List.mem_range.mpr hσ, ?_⟩) _
  simp [h]

theorem Alive.reserved (ha : Alive s) (hl : Lineage count s) {i : Nat} {x : ScopedWork}
    {e : CarrierExecution} (hx : s.works[i]? = some x) (hunfinished : s.finished i = false)
    (hexec : x.execution = some e) : 0 < s.reservations e.generation :=
  reservations_pos (hl.epochs _ _ (ha.epoch i x e hx hunfinished hexec)).scope
    (ha.epoch i x e hx hunfinished hexec)

theorem Alive.sealUnused (ha : Alive s) (hl : Lineage count s) : Alive s.sealUnused where
  held := ha.held
  epoch := ha.epoch
  pinned i x e hx hunfinished hexec := by
    obtain ⟨howned, hadmits⟩ :=
      (CarrierPool.acceptsPinned_iff hl.pool).mp (ha.pinned i x e hx hunfinished hexec)
    have hpool : CarrierPool.PoolInv count s.sealUnused.pool :=
      ⟨hl.pool.length, hl.pool.slotIds, hl.pool.escapeIds, hl.pool.slotCounter, hl.pool.bounded,
        hl.pool.slotOf⟩
    refine (CarrierPool.acceptsPinned_iff hpool).mpr ⟨howned, ?_⟩
    show (s.pool.admits e.generation && decide (0 < s.reservations e.generation)) = true
    rw [hadmits, decide_eq_true (ha.reserved hl hx hunfinished hexec)]
    rfl

theorem Lineage.sealUnused (hl : Lineage count s) : Lineage count s.sealUnused :=
  hl.set_pool ⟨hl.pool.length, hl.pool.slotIds, hl.pool.escapeIds, hl.pool.slotCounter,
    hl.pool.bounded, hl.pool.slotOf⟩ (Nat.le_refl _)

theorem Alive.submit (ha : Alive s) (hl : Lineage count s) {i σ : Nat} {x : ScopedWork}
    {scope : StageScope} {kind : ScopedKind} (hx : s.works[i]? = some x)
    (hruns : s.runs i x = true) : Alive (s.submit i x σ scope kind) := by
  unfold World.submit
  generalize hresolve : s.resolveBackend x σ scope = resolved
  obtain ⟨epoch, pool⟩ := resolved
  have hresolved := resolveBackend_spec hl ha hx hruns hresolve
  cases epoch with
  | stage lease blocked =>
    dsimp only
    split
    · rename_i hpinned
      refine ha.add_work rfl rfl (fun _ _ h => hresolved.update_epoch h)
        (fun _ h => hresolved.pinned hl h) fun e he => ?_
      cases he
      exact ⟨Or.inl rfl, Function.update_self _ _ _, hpinned⟩
    · exact ha.of_same rfl rfl rfl fun _ h => hresolved.pinned hl h
  | caller l =>
    have hunfinished := (runs_eq_true hruns).1
    refine ha.add_work rfl rfl (fun _ _ h => hresolved.update_epoch h)
      (fun _ h => hresolved.pinned hl h) fun e he => ?_
    refine ⟨Or.inr ⟨i, x, rfl, hx, hunfinished, he⟩, ?_, ?_⟩
    · exact hresolved.update_epoch (ha.epoch i x e hx hunfinished he)
    · exact hresolved.pinned hl (ha.pinned i x e hx hunfinished he)

/-! ## 3. Steps -/

/-- The lineage, and that the executions are alive. -/
structure NestInv (count : Nat) (s : World) : Prop where
  lineage : Lineage count s
  alive : Alive s

/-- Work below a running parent, in its execution and for its active Stage. -/
theorem NestInv.start (hi : NestInv count s) {i : Nat} {x y : ScopedWork}
    (hx : s.works[i]? = some x) (hunfinished : s.finished i = false)
    (hparent : y.parent = some i) (hexec : y.execution = x.execution)
    (hscope : ∀ σ, y.scope = some σ → σ < s.scopes.length)
    (hloop : y.loop = x.loop ∨ y.loop = none)
    (hactive : ∀ τ, y.activeStage = some τ → s.OpenedBy τ fun a => Descends a x.execution)
    (hkind : y.kind ≠ .root) : NestInv count (s.start y) := by
  have hg := grows_start s y
  refine ⟨hi.lineage.start ?_, hi.alive.start hx hunfinished hparent hexec⟩
  refine workOk_same hi.lineage hg hx hparent hexec hscope ?_ ?_ fun h => absurd h hkind
  · intro g hgl
    rcases hloop with h | h
    · exact (hi.lineage.works i x hx).loop g (h ▸ hgl)
    · rw [h] at hgl
      cases hgl
  · exact fun τ hτ => (hactive τ hτ).grows hg

theorem NestInv.outside (hi : NestInv count s) (loop : Option Nat) :
    NestInv count (s.start ⟨.outside, none, none, loop.map EventLoop.caller, none, none⟩) := by
  constructor
  · apply hi.lineage.start
    refine ⟨fun e he => (by cases he), fun σ hσ => (by cases hσ), ?_, fun p hp => (by cases hp),
      fun τ hτ => (by cases hτ), fun h => (by cases h)⟩
    intro g hg
    obtain ⟨l, -, hl⟩ := Option.map_eq_some_iff.mp hg
    cases hl
  · exact hi.alive.add_work rfl rfl (fun _ _ h => h) (fun _ h => h) fun e he => (by cases he)

theorem grows_enter (s : World) (scope : StageScope) : Grows s (s.enter scope) :=
  Grows.of_append (List.append_nil _).symm rfl (Nat.le_refl _)

theorem Lineage.enter (hl : Lineage count s) {scope : StageScope}
    (hopener : ∀ u, scope.opener = some u → ∃ y : ScopedWork, s.works[u]? = some y) :
    Lineage count (s.enter scope) := by
  apply hl.of_grows (grows_enter s scope) hl.pool
  · exact fun j y hy => Or.inl hy
  · intro σ scope' hscope'
    rcases getElem?_append_cases hscope' with ⟨-, rfl⟩ | hscope'
    · exact Or.inr hopener
    · exact Or.inl hscope'
  · exact fun σ epoch h => Or.inl h
  · exact fun w σ h => Or.inl h

theorem openScope_spec {i : Nat} {backendMode : BackendMode} {contextMode : ContextMode}
    (h : s.openScope i backendMode contextMode = some s') :
    ∃ x, s.works[i]? = some x ∧ s.runs i x = true ∧
      s' = s.enter ⟨some i, backendMode, contextMode⟩ := by
  unfold World.openScope at h
  split at h
  · rename_i x hx
    split at h
    · rename_i hruns
      cases h
      exact ⟨x, hx, hruns, rfl⟩
    · cases h
  · cases h

theorem NestInv.openScope (hi : NestInv count s) {i : Nat} {backendMode : BackendMode}
    {contextMode : ContextMode} (h : s.openScope i backendMode contextMode = some s') :
    NestInv count s' := by
  obtain ⟨x, hx, -, rfl⟩ := openScope_spec h
  refine ⟨hi.lineage.enter fun u hu => ?_, hi.alive.of_same rfl rfl rfl fun _ h => h⟩
  cases hu
  exact ⟨x, hx⟩

/-- What `go` needs and does. -/
theorem go_spec {i σ : Nat} (h : s.go i σ = some s') :
    ∃ x scope, s.works[i]? = some x ∧ s.scopes[σ]? = some scope ∧ s.runs i x = true ∧
      scope.opener = some i ∧ s' = s.submit i x σ scope .root := by
  unfold World.go at h
  split at h
  · rename_i x scope hx hscope
    split at h
    · rename_i hif
      simp only [Bool.and_eq_true, decide_eq_true_eq] at hif
      cases h
      exact ⟨x, scope, hx, hscope, hif.1, hif.2, rfl⟩
    · cases h
  · cases h

theorem NestInv.go (hi : NestInv count s) {i σ : Nat} (h : s.go i σ = some s') :
    NestInv count s' := by
  obtain ⟨x, scope, hx, hscope, hruns, hopener, rfl⟩ := go_spec h
  exact ⟨hi.lineage.submit hi.alive hx hscope hruns (Or.inl hopener) (Or.inr hopener),
    hi.alive.submit hi.lineage hx hruns⟩

theorem spawn_spec {i : Nat} (h : s.spawn i = some s') :
    ∃ x, s.works[i]? = some x ∧ s.runs i x = true ∧ s' = s.start { x with
      kind := .task, parent := some i
      scope := if x.retainsTasks then x.execution.map CarrierExecution.stage else none } := by
  unfold World.spawn at h
  split at h
  · rename_i x hx
    split at h
    · rename_i hif
      rw [Bool.and_eq_true] at hif
      cases h
      exact ⟨x, hx, hif.1, rfl⟩
    · cases h
  · cases h

theorem NestInv.spawn (hi : NestInv count s) {i : Nat} (h : s.spawn i = some s') :
    NestInv count s' := by
  obtain ⟨x, hx, hruns, rfl⟩ := spawn_spec h
  have hok := hi.lineage.works i x hx
  apply hi.start hx (runs_eq_true hruns).1
  · rfl
  · rfl
  · intro σ hσ
    dsimp only at hσ
    split at hσ
    · obtain ⟨e, he, rfl⟩ := Option.map_eq_some_iff.mp hσ
      exact (hok.execution e he).2
    · cases hσ
  · exact Or.inl rfl
  · exact hok.activeStage
  · exact fun h => (by cases h)

theorem worker_spec {i : Nat} (h : s.worker i = some s') :
    ∃ x, s.works[i]? = some x ∧ s.runs i x = true ∧ s' = s.start { x with
      kind := .worker, parent := some i, scope := none, loop := none } := by
  unfold World.worker at h
  split at h
  · rename_i x hx
    split at h
    · rename_i hruns
      cases h
      exact ⟨x, hx, hruns, rfl⟩
    · cases h
  · cases h

theorem NestInv.worker (hi : NestInv count s) {i : Nat} (h : s.worker i = some s') :
    NestInv count s' := by
  obtain ⟨x, hx, hruns, rfl⟩ := worker_spec h
  apply hi.start hx (runs_eq_true hruns).1
  · rfl
  · rfl
  · exact fun σ hσ => (by cases hσ)
  · exact Or.inr rfl
  · exact (hi.lineage.works i x hx).activeStage
  · exact fun h => (by cases h)

/-- A registered callback runs in the execution of the body it is registered on. -/
theorem callback_spec (hl : Lineage count s) {r : Nat} {sync : Bool}
    (h : s.callback r sync = some s') :
    ∃ x i registrant, s.works[r]? = some x ∧ x.kind = .root ∧ x.parent = some i ∧
      s.works[i]? = some registrant ∧ s.runs r x = true ∧
      s' = s.start
        { kind := .callback, parent := some r, scope := x.scope
          loop := if sync then none else x.loop
          execution := x.execution, activeStage := registrant.activeStage } := by
  unfold World.callback at h
  split at h
  · rename_i x hx
    split at h
    · rename_i registrant hkind hregistrant
      split at h
      · rename_i hruns
        cases h
        obtain ⟨i, hp, hi⟩ := Option.bind_eq_some_iff.mp hregistrant
        obtain ⟨-, y, hy, hdescends⟩ := (hl.works r x hx).parent i hp
        rw [hi] at hy
        cases hy
        rw [(hdescends fun hcall => by cases hcall.symm.trans hkind).or_eq]
        exact ⟨x, i, registrant, hx, hkind, hp, hi, hruns, rfl⟩
      · cases h
    · cases h
  · cases h

theorem NestInv.callback (hi : NestInv count s) {r : Nat} {sync : Bool}
    (h : s.callback r sync = some s') : NestInv count s' := by
  obtain ⟨x, i, registrant, hx, hkind, hp, hregistrant, hruns, rfl⟩ := callback_spec hi.lineage h
  have hok := hi.lineage.works r x hx
  apply hi.start hx (runs_eq_true hruns).1
  · rfl
  · rfl
  · exact hok.scope
  · cases sync with
    | true => exact Or.inr rfl
    | false => exact Or.inl rfl
  · intro τ hτ
    obtain ⟨-, y, hy, hdescends⟩ := hok.parent i hp
    rw [hregistrant] at hy
    cases hy
    exact ((hi.lineage.works i registrant hregistrant).activeStage τ hτ).imp
      fun _ h => h.trans (hdescends fun hcall => by cases hcall.symm.trans hkind)
  · exact fun h => (by cases h)

/-- The epoch that a late callback finds or makes. -/
inductive LateResolved (count : Nat) (s : World) (registrant x : ScopedWork) (σ : Nat) :
    Epoch → CarrierPool → Prop
  | bound {lease : Nat} {blocked : List Nat} (h : s.epoch σ = some (.stage lease blocked)) :
      LateResolved count s registrant x σ (.stage lease blocked) s.pool
  | reopened {lease : Nat} {blocked : List Nat} {pool : CarrierPool} (hnone : s.epoch σ = none)
      (hstage : x.stageBacked = true) (h : Leased count s registrant false lease blocked pool) :
      LateResolved count s registrant x σ (.stage lease blocked) pool
  | caller {l : EventLoop} (hstage : x.stageBacked = false) (hloop : x.loop = some l)
      (hepoch : s.epoch σ = none ∨ s.epoch σ = some (.caller l)) :
      LateResolved count s registrant x σ (.caller l) s.pool

theorem lateEpoch_spec (hl : Lineage count s) (ha : Alive s) {i : Nat}
    {registrant x : ScopedWork} (hregistrant : s.works[i]? = some registrant)
    (hruns : s.runs i registrant = true) {σ : Nat} {epoch : Epoch} {pool : CarrierPool}
    (h : s.lateEpoch registrant x σ = some (epoch, pool)) :
    LateResolved count s registrant x σ epoch pool := by
  unfold lateEpoch at h
  split at h
  · rename_i hstage
    split at h
    · rename_i hnone
      obtain ⟨lease, blocked, rfl, hleased⟩ :=
        leaseEpoch_spec hl ha hregistrant hruns (Option.some.inj h)
      exact .reopened hnone hstage hleased
    · rename_i hbound
      cases h
      exact .bound hbound
    · cases h
  · rename_i hstage
    rw [Bool.not_eq_true] at hstage
    split at h
    · rename_i l hloop hnone
      split at h
      · cases h
        exact .caller hstage hloop (Or.inl hnone)
      · cases h
    · rename_i l l' hloop hbound
      split at h
      · rename_i heq
        subst heq
        cases h
        exact .caller hstage hloop (Or.inr hbound)
      · cases h
    · cases h

/-- What a late callback needs and does: its drain is submitted under the epoch, unless the
    lease is sealed already. -/
theorem lateCallback_spec (hl : Lineage count s) (ha : Alive s) {r : Nat} {sync : Bool}
    (h : s.lateCallback r sync = some s') :
    ∃ x σ i registrant scope, s.works[r]? = some x ∧ x.kind = .root ∧ x.scope = some σ ∧
      x.parent = some i ∧ s.works[i]? = some registrant ∧ s.scopes[σ]? = some scope ∧
      scope.opener = some i ∧ s.runs i registrant = true ∧
      (x.stageBacked = true ∨ x.execution = registrant.execution) ∧
      ((∃ lease blocked pool,
          LateResolved count s registrant x σ (.stage lease blocked) pool ∧
          ((pool.acceptsPinned lease = true ∧
              s' = s.addWork σ (.stage lease blocked) pool
                { kind := .callback, parent := some i, scope := some σ
                  loop := if sync then none else some (.carrier lease)
                  execution := some ⟨lease, blocked, σ⟩
                  activeStage := registrant.activeStage }) ∨
            (pool.acceptsPinned lease = false ∧ s' = { s with pool := pool }))) ∨
        ∃ l, LateResolved count s registrant x σ (.caller l) s.pool ∧
          s' = s.addWork σ (.caller l) s.pool
            { kind := .callback, parent := some i, scope := some σ
              loop := if sync then none else some l
              execution := registrant.execution
              activeStage := registrant.activeStage }) := by
  unfold World.lateCallback at h
  split at h
  · rename_i x hx
    split at h
    · rename_i σ i hkind hσ hi
      split at h
      · rename_i registrant hregistrant
        split at h
        · rename_i hif
          rw [Bool.and_eq_true] at hif
          obtain ⟨σ', p, scope, y, hσ', hp, hscope, hopener, hy, hexec⟩ :=
            (hl.works r x hx).root hkind
          rw [hσ] at hσ'
          rw [hi] at hp
          cases hσ'
          cases hp
          rw [hregistrant] at hy
          cases hy
          refine ⟨x, σ, i, registrant, scope, hx, hkind, hσ, hi, hregistrant, hscope, hopener,
            hif.1, hexec, ?_⟩
          split at h
          · rename_i lease blocked pool hlate
            have hresolved := lateEpoch_spec hl ha hregistrant hif.1 hlate
            split at h
            · rename_i hpinned
              cases h
              exact Or.inl ⟨lease, blocked, pool, hresolved, Or.inl ⟨hpinned, rfl⟩⟩
            · rename_i hpinned
              rw [Bool.not_eq_true] at hpinned
              cases h
              exact Or.inl ⟨lease, blocked, pool, hresolved, Or.inr ⟨hpinned, rfl⟩⟩
          · rename_i l pool hlate
            have hresolved := lateEpoch_spec hl ha hregistrant hif.1 hlate
            have hpool : pool = s.pool := by
              cases hresolved
              rfl
            subst hpool
            cases h
            exact Or.inr ⟨l, hresolved, rfl⟩
          · cases h
        · cases h
      · cases h
    · cases h
  · cases h

theorem LateResolved.pinned (hl : Lineage count s) {registrant x : ScopedWork} {σ g : Nat}
    {epoch : Epoch} {pool : CarrierPool} (h : LateResolved count s registrant x σ epoch pool)
    (hg : s.pool.acceptsPinned g = true) : pool.acceptsPinned g = true := by
  cases h with
  | bound => exact hg
  | caller => exact hg
  | reopened _ _ h => exact h.pinned hl hg

theorem LateResolved.update_epoch {registrant x : ScopedWork} {σ τ : Nat}
    {epoch epoch' : Epoch} {pool : CarrierPool}
    (h : LateResolved count s registrant x σ epoch pool) (hτ : s.epoch τ = some epoch') :
    Function.update s.epoch σ (some epoch) τ = some epoch' := by
  refine update_epoch_of (fun bound hbound => ?_) hτ
  cases h with
  | bound h =>
    rw [h] at hbound
    exact (Option.some.inj hbound).symm
  | reopened hnone =>
    rw [hnone] at hbound
    cases hbound
  | caller _ _ hepoch =>
    rcases hepoch with hnone | hcaller
    · rw [hnone] at hbound
      cases hbound
    · rw [hcaller] at hbound
      exact (Option.some.inj hbound).symm

theorem NestInv.lateCallback (hi : NestInv count s) {r : Nat} {sync : Bool}
    (h : s.lateCallback r sync = some s') : NestInv count s' := by
  obtain ⟨x, σ, i, registrant, scope, hx, -, hσ, hp, hregistrant, hscope, hopener, hruns, hexec,
    hcases⟩ := lateCallback_spec hi.lineage hi.alive h
  have hlt : σ < s.scopes.length := (List.getElem?_eq_some_iff.mp hscope).1
  have hok := hi.lineage.works i registrant hregistrant
  have hunfinished := (runs_eq_true hruns).1
  have hopened : ∀ {t : World} {P : Option CarrierExecution → Prop}, Grows s t →
      P registrant.execution → t.OpenedBy σ P := by
    intro t P hg hP
    refine ⟨scope, hg.scopes σ scope hscope, fun u hu => ?_⟩
    rw [hopener] at hu
    cases hu
    exact ⟨registrant, hg.works i registrant hregistrant, hP⟩
  rcases hcases with ⟨lease, blocked, pool, hlate, ⟨hpinned, rfl⟩ | ⟨-, rfl⟩⟩ | ⟨l, hlate, rfl⟩
  · have hlease : CarrierPool.PoolInv count pool ∧
        s.pool.generationCounter ≤ pool.generationCounter ∧
        CarrierExecution.Ok pool.generationCounter ⟨lease, blocked, σ⟩ ∧
        Descends registrant.execution (some ⟨lease, blocked, σ⟩) := by
      cases hlate with
      | bound hbound =>
        exact ⟨hi.lineage.pool, Nat.le_refl _,
          ((hi.lineage.epochs σ _ hbound).lease lease blocked rfl).1,
          (hi.lineage.suits hregistrant hscope hopener).lease lease blocked hbound⟩
      | reopened _ _ h => exact ⟨h.inv, h.acquired.counter, h.ok σ, h.descends σ⟩
    obtain ⟨hpool, hcounter, heok, hdescends⟩ := hlease
    have hg := grows_addWork hcounter σ (.stage lease blocked)
      { kind := .callback, parent := some i, scope := some σ
        loop := if sync then none else some (.carrier lease)
        execution := some ⟨lease, blocked, σ⟩, activeStage := registrant.activeStage }
    constructor
    · apply hi.lineage.addWork hpool hcounter
      · refine ⟨fun h B heq => ?_, fun g heq => (by cases heq), hg.length hlt⟩
        cases heq
        exact ⟨heok, hopened hg hdescends⟩
      · refine workOk_stage hg hregistrant heok (fun _ => hdescends) (hg.length hlt) rfl rfl ?_
          rfl ?_ fun h => (by cases h)
        · cases sync with
          | true => exact Or.inr rfl
          | false => exact Or.inl rfl
        · intro τ hτ
          exact ((hok.activeStage τ hτ).imp fun _ h => h.trans hdescends).grows hg
    · refine hi.alive.add_work rfl rfl (fun _ _ h => hlate.update_epoch h)
        (fun _ h => hlate.pinned hi.lineage h) fun e he => ?_
      cases he
      exact ⟨Or.inl rfl, Function.update_self _ _ _, hpinned⟩
  · have hpool : CarrierPool.PoolInv count pool ∧
        s.pool.generationCounter ≤ pool.generationCounter := by
      cases hlate with
      | bound => exact ⟨hi.lineage.pool, Nat.le_refl _⟩
      | reopened _ _ h => exact ⟨h.inv, h.acquired.counter⟩
    exact ⟨hi.lineage.set_pool hpool.1 hpool.2,
      hi.alive.of_same rfl rfl rfl fun _ h => hlate.pinned hi.lineage h⟩
  · have hg := grows_addWork (s := s) (Nat.le_refl _) σ (.caller l)
      { kind := .callback, parent := some i, scope := some σ
        loop := if sync then none else some l
        execution := registrant.execution, activeStage := registrant.activeStage }
    -- the body ran on the loop in the execution of the opener
    have hcovers : ∀ g, l = .carrier g → ∃ e, registrant.execution = some e ∧ e.Covers g := by
      intro g hgl
      subst hgl
      cases hlate with
      | caller hstage hloop _ =>
        obtain ⟨e, he, hcov⟩ := (hi.lineage.works r x hx).loop g hloop
        rcases hexec with h | h
        · rw [hstage] at h
          cases h
        · exact ⟨e, h ▸ he, hcov⟩
    constructor
    · apply hi.lineage.addWork hi.lineage.pool (Nat.le_refl _)
      · refine ⟨fun h B heq => (by cases heq), fun g heq => ?_, hg.length hlt⟩
        cases heq
        obtain ⟨e, he, hcov⟩ := hcovers g rfl
        exact ⟨scope, i, registrant, e, hg.scopes σ scope hscope, hopener,
          hg.works i registrant hregistrant, he, hcov⟩
      · refine workOk_same hi.lineage hg hregistrant rfl rfl ?_ ?_ ?_ fun h => (by cases h)
        · intro τ hτ
          cases hτ
          exact hg.length hlt
        · intro g hgl
          cases sync with
          | true => cases hgl
          | false => exact hcovers g (Option.some.inj hgl)
        · exact fun τ hτ => (hok.activeStage τ hτ).grows hg
    · refine hi.alive.add_work rfl rfl (fun _ _ h => hlate.update_epoch h)
        (fun _ h => h) fun e he => ?_
      exact ⟨Or.inr ⟨i, registrant, rfl, hregistrant, hunfinished, he⟩,
        hlate.update_epoch (hi.alive.epoch i registrant e hregistrant hunfinished he),
        hi.alive.pinned i registrant e hregistrant hunfinished he⟩

theorem wait_spec {i σ : Nat} (h : s.wait i σ = some s') :
    ∃ x scope, s.works[i]? = some x ∧ s.scopes[σ]? = some scope ∧ s.runs i x = true ∧
      scope.opener = some i ∧ (x.loop = none ∨ scope.contextMode = .sync) ∧
      s' = { s with waiting := Function.update s.waiting i (some (.scope σ)) } := by
  unfold World.wait at h
  split at h
  · rename_i x scope hx hscope
    split at h
    · rename_i hif
      simp only [Bool.and_eq_true, Bool.or_eq_true, decide_eq_true_eq,
        Option.isNone_iff_eq_none] at hif
      cases h
      exact ⟨x, scope, hx, hscope, hif.1.1.1, hif.1.1.2, hif.1.2, rfl⟩
    · cases h
  · cases h

theorem NestInv.wait (hi : NestInv count s) {i σ : Nat} (h : s.wait i σ = some s') :
    NestInv count s' := by
  obtain ⟨x, scope, hx, hscope, -, hopener, hsync, rfl⟩ := wait_spec h
  refine ⟨hi.lineage.of_same hi.lineage.pool (Nat.le_refl _) rfl rfl (fun _ _ h => h) ?_,
    hi.alive.of_same rfl rfl rfl fun _ h => h⟩
  intro w τ hw
  by_cases hwi : w = i
  · subst hwi
    simp only [Function.update_self, Option.some.injEq, WaitFor.scope.injEq] at hw
    subst hw
    exact Or.inr ⟨scope, x, hscope, hopener, hx, hsync⟩
  · simp only [Function.update_of_ne hwi] at hw
    exact Or.inl hw

theorem NestInv.stopWaiting (hi : NestInv count s) (i : Nat) :
    NestInv count { s with waiting := Function.update s.waiting i none } := by
  refine ⟨hi.lineage.of_same hi.lineage.pool (Nat.le_refl _) rfl rfl (fun _ _ h => h) ?_,
    hi.alive.of_same rfl rfl rfl fun _ h => h⟩
  intro w τ hw
  by_cases hwi : w = i
  · subst hwi
    simp only [Function.update_self, reduceCtorEq] at hw
  · simp only [Function.update_of_ne hwi] at hw
    exact Or.inl hw

theorem resume_spec {i : Nat} (h : s.resume i = some s') :
    s' = { s with waiting := Function.update s.waiting i none } := by
  unfold World.resume at h
  split at h
  · cases h
    rfl
  · cases h

theorem NestInv.resume (hi : NestInv count s) {i : Nat} (h : s.resume i = some s') :
    NestInv count s' := by
  rw [resume_spec h]
  exact hi.stopWaiting i

/-- What work that ends leaves behind is held by a scope. -/
theorem stageBacked_of_all {i : Nat}
    (h : (s.works.zipIdx.all fun entry =>
      decide (entry.1.parent ≠ some i) || s.finished entry.2 ||
        (decide (entry.1.kind = .task) && entry.1.stageBacked)) = true) (j : Nat)
    (y : ScopedWork) (hy : s.works[j]? = some y) (hparent : y.parent = some i)
    (hunfinished : s.finished j = false) : y.stageBacked = true := by
  have hheld := List.all_eq_true.mp h (y, j) (List.mk_mem_zipIdx_iff_getElem?.mpr hy)
  simp only [hparent, hunfinished, ne_eq, not_true_eq_false, decide_false, Bool.or_false,
    Bool.false_or, Bool.and_eq_true, decide_eq_true_eq] at hheld
  exact hheld.2

/-- What `finish` needs and does. -/
theorem finish_spec {i : Nat} (h : s.finish i = some s') :
    ∃ x, s.works[i]? = some x ∧ s.runs i x = true ∧
      (∀ σ : Nat, ∀ scope : StageScope, s.scopes[σ]? = some scope → scope.opener = some i →
        s.epoch σ = none) ∧
      (∀ j y, s.works[j]? = some y → y.parent = some i → s.finished j = false →
        y.stageBacked = true) ∧
      s' = { s with finished := Function.update s.finished i true }.sealUnused := by
  unfold World.finish at h
  split at h
  · rename_i x hx
    split at h
    · rename_i hif
      rw [Bool.and_eq_true, Bool.and_eq_true, List.all_eq_true] at hif
      obtain ⟨⟨hruns, hscopes⟩, hworks⟩ := hif
      cases h
      refine ⟨x, hx, hruns, fun σ scope hscope hopener => ?_, stageBacked_of_all hworks, rfl⟩
      have hnone := hscopes (scope, σ) (List.mk_mem_zipIdx_iff_getElem?.mpr hscope)
      simpa [hopener] using hnone
    · cases h
  · cases h

/-- Work ends that has left nothing behind but what a scope holds. -/
theorem NestInv.finished (hi : NestInv count s) {i : Nat}
    (hheld : ∀ j y, s.works[j]? = some y → y.parent = some i → s.finished j = false →
      y.stageBacked = true) :
    NestInv count { s with finished := Function.update s.finished i true }.sealUnused := by
  have hfinished : ∀ j, Function.update s.finished i true j = false →
      s.finished j = false ∧ j ≠ i := by
    intro j hj
    by_cases hji : j = i
    · subst hji
      rw [Function.update_self] at hj
      cases hj
    · rw [Function.update_of_ne hji] at hj
      exact ⟨hj, hji⟩
  have hlineage : Lineage count { s with finished := Function.update s.finished i true } :=
    hi.lineage.of_same hi.lineage.pool (Nat.le_refl _) rfl rfl (fun _ _ h => h)
      fun _ _ h => Or.inl h
  refine ⟨hlineage.sealUnused, Alive.sealUnused ⟨?_, ?_, ?_⟩ hlineage⟩
  · intro j y e hy hunfinished he
    obtain ⟨hj, -⟩ := hfinished j hunfinished
    rcases hi.alive.held j y e hy hj he with hscope | ⟨p, z, hp, hz, hpfree, hze⟩
    · exact Or.inl hscope
    · by_cases hpi : p = i
      · -- only what its own scope holds goes on after the parent
        subst hpi
        have hstage := hheld j y hy hp hj
        unfold ScopedWork.stageBacked at hstage
        rw [he] at hstage
        exact Or.inl (by simpa using hstage)
      · exact Or.inr ⟨p, z, hp, hz, (Function.update_of_ne hpi _ _).trans hpfree, hze⟩
  · intro j y e hy hunfinished he
    exact hi.alive.epoch j y e hy (hfinished j hunfinished).1 he
  · intro j y e hy hunfinished he
    exact hi.alive.pinned j y e hy (hfinished j hunfinished).1 he

theorem NestInv.finish (hi : NestInv count s) {i : Nat} (h : s.finish i = some s') :
    NestInv count s' := by
  obtain ⟨x, -, -, -, hheld, rfl⟩ := finish_spec h
  exact hi.finished hheld

theorem settle_spec {σ : Nat} (h : s.settle σ = some s') :
    s.hasActiveWork σ = false ∧
      s' = { s with epoch := Function.update s.epoch σ none }.sealUnused := by
  unfold World.settle at h
  split at h
  · rename_i hif
    rw [Bool.and_eq_true, Bool.not_eq_true'] at hif
    cases h
    exact ⟨hif.2, rfl⟩
  · cases h

theorem epoch_of_settled {σ τ : Nat} {epoch : Epoch}
    (h : Function.update s.epoch σ none τ = some epoch) : s.epoch τ = some epoch := by
  by_cases hne : τ = σ
  · subst hne
    rw [Function.update_self] at h
    cases h
  · rwa [Function.update_of_ne hne] at h

theorem NestInv.settle (hi : NestInv count s) {σ : Nat} (h : s.settle σ = some s') :
    NestInv count s' := by
  obtain ⟨hquiet, rfl⟩ := settle_spec h
  have hlineage : Lineage count { s with epoch := Function.update s.epoch σ none } :=
    hi.lineage.of_same hi.lineage.pool (Nat.le_refl _) rfl rfl (fun _ _ => epoch_of_settled)
      fun _ _ h => Or.inl h
  refine ⟨hlineage.sealUnused, Alive.sealUnused ⟨hi.alive.held, ?_, hi.alive.pinned⟩ hlineage⟩
  intro j y e hy hunfinished he
  have hactive := hi.alive.active hi.lineage hy hunfinished he
  have hne : e.stage ≠ σ := by
    rintro rfl
    rw [hquiet] at hactive
    cases hactive
  exact (Function.update_of_ne hne _ _).trans (hi.alive.epoch j y e hy hunfinished he)

theorem close_spec {g : Nat} (h : s.close g = some s') :
    s.pool.admits g = false ∧ s' = { s with pool := s.pool.closeGeneration g s.reservations } := by
  unfold World.close at h
  split at h
  · rename_i hif
    rw [Bool.and_eq_true, Bool.and_eq_true, Bool.not_eq_true'] at hif
    cases h
    exact ⟨hif.1.2, rfl⟩
  · cases h

theorem NestInv.close (hi : NestInv count s) {g : Nat} (h : s.close g = some s') :
    NestInv count s' := by
  obtain ⟨hsealed, rfl⟩ := close_spec h
  have hpool := CarrierPool.closeGeneration_inv hi.lineage.pool g s.reservations
  refine ⟨hi.lineage.set_pool hpool (Nat.le_refl _), hi.alive.held, hi.alive.epoch, ?_⟩
  intro j y e hy hunfinished he
  obtain ⟨howned, hadmits⟩ := (CarrierPool.acceptsPinned_iff hi.lineage.pool).mp
    (hi.alive.pinned j y e hy hunfinished he)
  have hne : e.generation ≠ g := by
    rintro rfl
    exact nomatch hsealed.symm.trans hadmits
  exact (CarrierPool.acceptsPinned_iff hpool).mpr ⟨howned.closeGeneration hne _,
    CarrierPool.admits_closeGeneration hadmits
      (hi.alive.reserved hi.lineage hy hunfinished he)⟩

/-- **Every step keeps the lineage.** -/
theorem NestInv.step (hi : NestInv count s) {e : WorldEvent} (h : s.step e = some s') :
    NestInv count s' := by
  cases e with
  | outside loop =>
    cases h
    exact hi.outside loop
  | openScope i backendMode contextMode => exact hi.openScope h
  | go i σ => exact hi.go h
  | spawn i => exact hi.spawn h
  | worker i => exact hi.worker h
  | callback r sync => exact hi.callback h
  | lateCallback r sync => exact hi.lateCallback h
  | wait i σ => exact hi.wait h
  | resume i => exact hi.resume h
  | finish i => exact hi.finish h
  | settle σ => exact hi.settle h
  | close g => exact hi.close h

theorem nestInv_init (count : Nat) (scopes : List StageScope)
    (hopener : ∀ scope ∈ scopes, scope.opener = none) :
    NestInv count { pool := .ofCount count, scopes := scopes } where
  lineage :=
    { pool := CarrierPool.ofCount_inv count
      works := fun i x hx => (by cases hx)
      opener := fun σ scope hscope u hu => by
        rw [hopener scope (List.mem_of_getElem? hscope)] at hu
        cases hu
      epochs := fun σ epoch h => (by cases h)
      waits := fun w σ h => (by cases h) }
  alive :=
    { held := fun i x e hx => (by cases hx)
      epoch := fun i x e hx => (by cases hx)
      pinned := fun i x e hx => (by cases hx) }

end World

end AgentlyStage
