import AgentlyStage.CallBridge

/-!
# Nested calls

No work of a nesting of `as_sync` calls is on a loop that an outer call of it blocks, as long as
no call joins an epoch of the carrier Stage that was bound without that loop in its lineage.

Below a call that blocks a loop, the generation of the loop stays in the blocked set of every
execution.  That is inherited along tasks, workers, callbacks and the leases of scopes; a Stage
that the work has entered may bind a caller loop, but not the blocked one, because its opener is
below the call as well.
-/

namespace AgentlyStage

open Transition

/-- The work is not on the loop of `g`, and what it leases is not `g`. -/
structure ScopedWork.Apart (x : ScopedWork) (g : Nat) : Prop where
  blocked : ∃ e, x.execution = some e ∧ g ∈ e.blockedGenerationIds
  loop : x.loop ≠ some (.carrier g)

namespace World

variable {count : Nat} {s s' : World} {c g i n σ : Nat}

/-! ## 1. Below a call -/

theorem Below.le (hl : Lineage count s) (h : s.Below c n) : c ≤ n := by
  induction h with
  | refl => exact Nat.le_refl c
  | parent hx hparent _ ih =>
    exact Nat.le_trans ih (Nat.le_of_lt ((hl.works _ _ hx).parent _ hparent).1)

theorem Below.grows (hg : Grows s s') (h : s.Below c n) : s'.Below c n := by
  induction h with
  | refl => exact .refl
  | parent hx hparent _ ih => exact .parent (hg.works _ _ hx) hparent ih

/-- Nothing changes below a call among the works that were there. -/
theorem Below.of_grows (hl : Lineage count s) (hg : Grows s s') {x : ScopedWork}
    (hx : s.works[n]? = some x) (h : s'.Below c n) : s.Below c n := by
  induction h generalizing x with
  | refl => exact .refl
  | @parent n p y hy hparent _ ih =>
    rw [hg.works n x hx] at hy
    cases hy
    obtain ⟨-, z, hz, -⟩ := (hl.works n _ hx).parent p hparent
    exact .parent hx hparent (ih hz)

/-- Work below a call is the call, or its parent is below it. -/
theorem Below.up {x : ScopedWork} {p : Nat} (hx : s.works[n]? = some x)
    (hparent : x.parent = some p) (h : s.Below c n) : c = n ∨ s.Below c p := by
  cases h with
  | refl => exact Or.inl rfl
  | parent hy hp h =>
    rw [hx] at hy
    cases hy
    rw [hparent] at hp
    cases hp
    exact Or.inr h

theorem BlocksLoop.of_grows (hl : Lineage count s) (hg : Grows s s') {z : ScopedWork}
    (hz : s.works[c]? = some z)
    (hwaits : ∀ p, s'.waiting p = some (.call c) → s.waiting p = some (.call c))
    (h : s'.BlocksLoop g c) : s.BlocksLoop g c := by
  obtain ⟨p, x, y, hx, hkind, hparent, hy, hloop, hwaiting⟩ := h
  rw [hg.works c z hz] at hx
  cases hx
  obtain ⟨-, y₀, hy₀, -⟩ := (hl.works c z hz).parent p hparent
  rw [hg.works p y₀ hy₀] at hy
  cases hy
  exact ⟨p, _, _, hz, hkind, hparent, hy₀, hloop, hwaits p hwaiting⟩

/-! ## 2. The invariant of a nesting -/

/-- Nobody has entered the scope, or work below the call `z`, or its caller by `with`. -/
def OpenedInside (s : World) (c : Nat) (z : ScopedWork) (scope : StageScope) : Prop :=
  scope.opener = none ∨ ∃ u, scope.opener = some u ∧
    (s.Below c u ∨ z.parent = some u ∧ scope.contextMode = .sync)

/-- Work of a nesting. -/
structure WorkNested (s : World) (n : Nat) (x : ScopedWork) : Prop where
  activeStage : ∀ c z τ scope, s.works[c]? = some z → z.kind = .call → s.Below c n →
    x.activeStage = some τ → s.scopes[τ]? = some scope → s.OpenedInside c z scope
  apart : ∀ g c, s.BlocksLoop g c → s.Below c n → x.Apart g

structure Nesting (s : World) : Prop where
  works : ∀ n x, s.works[n]? = some x → s.WorkNested n x
  /-- A scope that work below a call has entered does not bind the loop that the call blocks. -/
  epochs : ∀ g c σ scope u, s.BlocksLoop g c → s.scopes[σ]? = some scope →
    scope.opener = some u → s.Below c u → s.epoch σ ≠ some (.caller (.carrier g))
  scope : s.scopes[0]? = some carrierStage
  epoch : ∀ l, s.epoch 0 ≠ some (.caller l)

/-- A new caller epoch: of a scope that somebody has entered, and not of a blocked loop. -/
def BindsCaller (s s' : World) (σ : Nat) (l : EventLoop) : Prop :=
  ∃ scope i x, s.scopes[σ]? = some scope ∧ scope.opener = some i ∧ s.works[i]? = some x ∧
    ∀ g c, l = .carrier g → s'.BlocksLoop g c → ¬ s.Below c i

/-- **The nesting after a step**, from what the step adds. -/
theorem Nesting.of_grows (hn : Nesting s) (hl : Lineage count s) (hg : Grows s s')
    (hwaits : ∀ (p c : Nat) (z : ScopedWork), s.works[c]? = some z →
      s'.waiting p = some (.call c) → s.waiting p = some (.call c))
    (hworks : ∀ n x, s'.works[n]? = some x → s.works[n]? = some x ∨ s'.WorkNested n x)
    (hepochs : ∀ σ l, s'.epoch σ = some (.caller l) →
      s.epoch σ = some (.caller l) ∨ BindsCaller s s' σ l) : Nesting s' := by
  -- a call above work that was there was there
  have hcall : ∀ {c n x}, s.works[n]? = some x → s'.Below c n → ∃ z, s.works[c]? = some z := by
    intro c n x hx hbelow
    have hle := (hbelow.of_grows hl hg hx).le hl
    exact ⟨_, List.getElem?_eq_getElem (Nat.lt_of_le_of_lt hle
      (List.getElem?_eq_some_iff.mp hx).1)⟩
  have hblocks : ∀ {c n x g}, s.works[n]? = some x → s'.Below c n → s'.BlocksLoop g c →
      s.BlocksLoop g c := by
    intro c n x g hx hbelow hb
    obtain ⟨z, hz⟩ := hcall hx hbelow
    exact hb.of_grows hl hg hz fun p => hwaits p c z hz
  refine ⟨fun n x hx => ?_, fun g c σ scope u hb hscope hu hbelow heq => ?_,
    hg.scopes 0 _ hn.scope, fun l heq => ?_⟩
  · rcases hworks n x hx with hold | hnew
    · refine ⟨fun c z τ scope hz hkind hbelow hτ hscope => ?_, fun g c hb hbelow => ?_⟩
      · obtain ⟨z₀, hz₀⟩ := hcall hold hbelow
        rw [hg.works c z₀ hz₀] at hz
        cases hz
        obtain ⟨scope₀, hscope₀, -⟩ := (hl.works n x hold).activeStage τ hτ
        rw [hg.scopes τ scope₀ hscope₀] at hscope
        cases hscope
        rcases (hn.works n x hold).activeStage c z τ scope hz₀ hkind
          (hbelow.of_grows hl hg hold) hτ hscope₀ with hnone | ⟨u, hu, hinside⟩
        · exact Or.inl hnone
        · exact Or.inr ⟨u, hu, hinside.imp_left (Below.grows hg)⟩
      · exact (hn.works n x hold).apart g c (hblocks hold hbelow hb)
          (hbelow.of_grows hl hg hold)
    · exact hnew
  · rcases hepochs σ _ heq with hold | ⟨scope₀, i, x, hscope₀, hi, hx, hnot⟩
    · obtain ⟨scope₀, u₀, y, e, hscope₀, hu₀, hy, -⟩ := (hl.epochs σ _ hold).caller g rfl
      rw [hg.scopes σ scope₀ hscope₀] at hscope
      cases hscope
      rw [hu] at hu₀
      cases hu₀
      exact hn.epochs g c σ scope u (hblocks hy hbelow hb) hscope₀ hu
        (hbelow.of_grows hl hg hy) hold
    · rw [hg.scopes σ scope₀ hscope₀] at hscope
      cases hscope
      rw [hu] at hi
      cases hi
      exact hnot g c rfl hb (hbelow.of_grows hl hg hx)
  · rcases hepochs 0 l heq with hold | ⟨scope, i, x, hscope, hi, -⟩
    · exact hn.epoch l hold
    · rw [hn.scope] at hscope
      cases hscope
      cases hi

theorem Nesting.of_same (hn : Nesting s) (hl : Lineage count s) (hg : Grows s s')
    (hworks : s'.works = s.works) (hwaits : ∀ p, s'.waiting p = s.waiting p ∨
      ∀ c, s'.waiting p ≠ some (.call c))
    (hepochs : ∀ σ epoch, s'.epoch σ = some epoch → s.epoch σ = some epoch) : Nesting s' := by
  refine hn.of_grows hl hg (fun p c z _ hw => ?_) (fun n x hx => Or.inl (hworks ▸ hx))
    fun σ l h => Or.inl (hepochs σ _ h)
  rcases hwaits p with heq | hne
  · rw [← heq]
    exact hw
  · exact absurd hw (hne c)

theorem Nesting.stopWaiting (hn : Nesting s) (hl : Lineage count s) (i : Nat) :
    Nesting { s with waiting := Function.update s.waiting i none } := by
  refine hn.of_same hl ⟨fun _ _ h => h, fun _ _ h => h, Nat.le_refl _⟩ rfl (fun p => ?_)
    fun _ _ h => h
  by_cases hp : p = i
  · subst hp
    right
    intro c heq
    simp only [Function.update_self, reduceCtorEq] at heq
  · exact Or.inl (Function.update_of_ne hp _ _)

/-- **New work in a nesting.**  A call is not below itself only: it blocks the loop of its
    caller `i`. -/
theorem Nesting.append (hn : Nesting s) (hl : Lineage count s) {x y : ScopedWork}
    (hx : s.works[i]? = some x) (hworks : s'.works = s.works ++ [y])
    (hscopes : s'.scopes = s.scopes)
    (hcounter : s.pool.generationCounter ≤ s'.pool.generationCounter)
    (hwaits : ∀ (p c : Nat) (z : ScopedWork), s.works[c]? = some z →
      s'.waiting p = some (.call c) → s.waiting p = some (.call c))
    (hparent : y.parent = some i)
    (hactive : ∀ τ scope, y.activeStage = some τ → s.scopes[τ]? = some scope →
      (∀ c z, s.works[c]? = some z → z.kind = .call → s.Below c i → s.OpenedInside c z scope) ∧
        (y.kind = .call → scope.opener = none ∨ scope.opener = some i ∧ scope.contextMode = .sync))
    (hapart : ∀ g, (∃ c, s.BlocksLoop g c ∧ s.Below c i) ∨
      (y.kind = .call ∧ x.loop = some (.carrier g)) → y.Apart g)
    (hepochs : ∀ τ l, s'.epoch τ = some (.caller l) → s.epoch τ = some (.caller l) ∨
      ∃ scope, s.scopes[τ]? = some scope ∧ scope.opener = some i ∧
        ∀ g c, l = .carrier g → s.BlocksLoop g c → ¬ s.Below c i) : Nesting s' := by
  have hg : Grows s s' := Grows.of_append hworks (hscopes.trans (List.append_nil _).symm) hcounter
  have hlt := (List.getElem?_eq_some_iff.mp hx).1
  have hnew : s'.works[s.works.length]? = some y := by
    rw [hworks]
    exact List.getElem?_concat_length
  -- what blocks a loop above the parent did so before
  have hblocks : ∀ {g c}, s.Below c i → s'.BlocksLoop g c → s.BlocksLoop g c := by
    intro g c hbelow hb
    have hle := Nat.lt_of_le_of_lt (hbelow.le hl) hlt
    exact hb.of_grows hl hg (List.getElem?_eq_getElem hle)
      (fun p => hwaits p c _ (List.getElem?_eq_getElem hle))
  refine hn.of_grows hl hg hwaits (fun n z hz => ?_) fun τ l hτ => ?_
  · rw [hworks] at hz
    rcases getElem?_append_cases hz with ⟨rfl, rfl⟩ | hz
    · refine Or.inr ⟨fun c w τ scope hw hcalled hbelow hτ hscope => ?_,
        fun g c hb hbelow => hapart g ?_⟩
      · rw [hscopes] at hscope
        obtain ⟨habove, hself⟩ := hactive τ scope hτ hscope
        rcases hbelow.up hnew hparent with rfl | hup
        · rw [hnew] at hw
          cases hw
          exact (hself hcalled).imp_right fun ⟨hopener, hsync⟩ =>
            ⟨i, hopener, Or.inr ⟨hparent, hsync⟩⟩
        · have hold := hup.of_grows hl hg hx
          have hle := Nat.lt_of_le_of_lt (hold.le hl) hlt
          rw [hg.works c _ (List.getElem?_eq_getElem hle)] at hw
          rcases habove c w ((List.getElem?_eq_getElem hle).trans hw) hcalled hold with
            hnone | ⟨u, hu, hinside⟩
          · exact Or.inl hnone
          · exact Or.inr ⟨u, hu, hinside.imp_left (Below.grows hg)⟩
      · rcases hbelow.up hnew hparent with rfl | hup
        · obtain ⟨p, w, v, hw, hcalled, hp, hv, hloop, -⟩ := hb
          rw [hnew] at hw
          cases hw
          rw [hparent] at hp
          cases hp
          rw [hg.works i x hx] at hv
          cases hv
          exact Or.inr ⟨hcalled, hloop⟩
        · have hold := hup.of_grows hl hg hx
          exact Or.inl ⟨c, hblocks hold hb, hold⟩
    · exact Or.inl hz
  · rcases hepochs τ l hτ with hold | ⟨scope, hscope, hopener, hnot⟩
    · exact Or.inl hold
    · exact Or.inr ⟨scope, i, x, hscope, hopener, hx, fun g c heq hb hbelow =>
        hnot g c heq (hblocks hbelow hb) hbelow⟩

/-- Work that keeps its parent's execution, on the same loop or on none. -/
theorem Nesting.start (hn : Nesting s) (hl : Lineage count s) {x y : ScopedWork}
    (hx : s.works[i]? = some x) (hkind : y.kind ≠ .call) (hparent : y.parent = some i)
    (hexec : y.execution = x.execution) (hloop : y.loop = x.loop ∨ y.loop = none)
    (hactive : ∀ c z τ scope, s.works[c]? = some z → z.kind = .call → s.Below c i →
      y.activeStage = some τ → s.scopes[τ]? = some scope → s.OpenedInside c z scope) :
    Nesting (s.start y) := by
  refine hn.append hl hx rfl rfl (Nat.le_refl _) (fun _ _ _ _ h => h) hparent
    (fun τ scope hτ hscope => ⟨fun c z hz hcall hbelow =>
      hactive c z τ scope hz hcall hbelow hτ hscope, fun hcall => absurd hcall hkind⟩)
    (fun g hg => ?_) fun τ l h => Or.inl h
  rcases hg with ⟨c, hb, hbelow⟩ | ⟨hcall, -⟩
  · obtain ⟨hblocked, hnot⟩ := (hn.works i x hx).apart g c hb hbelow
    refine ⟨hexec ▸ hblocked, ?_⟩
    rcases hloop with heq | hnone
    · rw [heq]
      exact hnot
    · rw [hnone]
      exact fun h => by cases h
  · exact absurd hcall hkind

/-! ## 3. Submissions -/

theorem inheritedCallerLoopForSync_spec {x : ScopedWork} {l : EventLoop}
    (h : s.inheritedCallerLoopForSync x = some l) :
    ∃ τ, x.activeStage = some τ ∧ s.epoch τ = some (.caller l) := by
  unfold inheritedCallerLoopForSync at h
  split at h
  · rename_i τ hτ hloop
    split at h
    · rename_i l' hepoch
      split at h
      · cases h
        exact ⟨τ, hτ, hepoch⟩
      · cases h
    · cases h
  · cases h

/-- A scope that nobody has entered binds no loop of a carrier. -/
theorem Lineage.not_caller_of_opener (hl : Lineage count s) {scope : StageScope}
    (hscope : s.scopes[σ]? = some scope) (hnone : scope.opener = none) :
    s.epoch σ ≠ some (.caller (.carrier g)) := by
  intro heq
  obtain ⟨scope', u, y, e, hscope', hu, -⟩ := (hl.epochs σ _ heq).caller g rfl
  rw [hscope] at hscope'
  cases hscope'
  rw [hnone] at hu
  cases hu

/-- **Below a call, no submission goes to the loop that the call blocks.** -/
theorem Nesting.not_caller (hn : Nesting s) (hc : CarrierScopes s) (hl : Lineage count s)
    {x : ScopedWork} {scope : StageScope} {l : EventLoop} {pool : CarrierPool}
    (hx : s.works[i]? = some x) (hscope : s.scopes[σ]? = some scope) (hmay : MaySubmit i scope)
    (hresolved : Resolved count s x σ scope (.caller l) pool) (hb : s.BlocksLoop g c)
    (hbelow : s.Below c i) : l ≠ .carrier g := by
  rintro rfl
  cases hresolved with
  | bound hbound =>
    rcases hmay with hopener | ⟨hnone, -⟩
    · exact hn.epochs g c σ scope i hb hscope hopener hbelow hbound
    · exact hl.not_caller_of_opener hscope hnone hbound
  | caller hnone hselect =>
    -- the loop of an outer scope, which a worker returns to
    have hinherited : s.inheritedCallerLoopForSync x ≠ some (.carrier g) := by
      intro heq
      obtain ⟨τ, hτ, hepoch⟩ := inheritedCallerLoopForSync_spec heq
      obtain ⟨scope', hscope', -⟩ := (hl.works i x hx).activeStage τ hτ
      obtain ⟨p, z, y, hz, hkind, hparent, hy, hloop, -⟩ := id hb
      rcases (hn.works i x hx).activeStage c z τ scope' hz hkind hbelow hτ hscope' with
        hnone | ⟨u, hu, hinside | ⟨hcaller, hsync⟩⟩
      · exact hl.not_caller_of_opener hscope' hnone hepoch
      · exact hn.epochs g c τ scope' u hb hscope' hu hinside hepoch
      · rw [hparent] at hcaller
        cases hcaller
        exact hc.epochs τ _ g hepoch ⟨scope', p, y, hscope', hsync, hu, hy, hloop⟩
    unfold selectCallerLoop at hselect
    split at hselect
    · cases hselect
    · split at hselect
      · exact hinherited hselect
      · cases hloop : x.loop with
        | none =>
          rw [hloop, Option.none_or] at hselect
          exact hinherited hselect
        | some l =>
          rw [hloop, Option.some_or] at hselect
          exact ((hn.works i x hx).apart g c hb hbelow).loop (hloop.trans hselect)

/-- A lease is blocked for what its submitter is blocked for. -/
theorem Resolved.mem_blocked {x : ScopedWork} {scope : StageScope} {lease : Nat}
    {blocked : List Nat} {pool : CarrierPool}
    (h : Resolved count s x σ scope (.stage lease blocked) pool)
    (hbound : s.epoch σ = some (.stage lease blocked) → g ∈ blocked)
    (hg : ∃ e, x.execution = some e ∧ g ∈ e.blockedGenerationIds) : g ∈ blocked := by
  cases h with
  | bound h => exact hbound h
  | lease _ _ h =>
    obtain ⟨e, he, hmem⟩ := hg
    obtain ⟨d, hd, hleads⟩ := h.descends σ e he
    cases hd
    exact hleads.blocked g hmem

theorem Resolved.own {x : ScopedWork} {scope : StageScope} {lease : Nat} {blocked : List Nat}
    {pool : CarrierPool} (h : Resolved count s x σ scope (.stage lease blocked) pool)
    (hl : Lineage count s) : lease ∉ blocked := by
  cases h with
  | bound hbound => exact ((hl.epochs σ _ hbound).lease lease blocked rfl).1.own
  | lease _ _ h => exact (h.ok σ).own

/-- Work on a lease that is blocked for `g` is apart from `g`. -/
theorem apart_of_lease {x : ScopedWork} {lease : Nat} {blocked : List Nat}
    (hexec : x.execution = some ⟨lease, blocked, σ⟩)
    (hloop : x.loop = some (.carrier lease) ∨ x.loop = none) (hown : lease ∉ blocked)
    (hmem : g ∈ blocked) : x.Apart g := by
  refine ⟨⟨_, hexec, hmem⟩, fun h => ?_⟩
  rcases hloop with hloop | hloop
  · rw [hloop] at h
    cases h
    exact hown hmem
  · rw [hloop] at h
    cases h

/-- **A submission keeps the nesting.**  `hjoins` is for a bound epoch, `hcall` for a call that
    blocks the loop of its caller. -/
theorem Nesting.submit (hn : Nesting s) (hc : CarrierScopes s) (hi : NestInv count s)
    {x : ScopedWork} {scope : StageScope} {kind : ScopedKind} (hx : s.works[i]? = some x)
    (hscope : s.scopes[σ]? = some scope) (hruns : s.runs i x = true) (hmay : MaySubmit i scope)
    {waiting : Nat → Option WaitFor}
    (hwaits : ∀ (p c : Nat) (z : ScopedWork), s.works[c]? = some z →
      waiting p = some (.call c) → s.waiting p = some (.call c))
    (hjoins : ∀ g c lease blocked, s.BlocksLoop g c → s.Below c i →
      s.epoch σ = some (.stage lease blocked) → g ∈ blocked)
    (hmode : kind = .call → scope.opener = some i → scope.contextMode = .sync)
    (hcall : kind = .call → ∀ g epoch pool, x.loop = some (.carrier g) →
      Resolved count s x σ scope epoch pool →
      ∃ lease blocked, epoch = .stage lease blocked ∧ g ∈ blocked) :
    Nesting { s.submit i x σ scope kind with waiting := waiting } := by
  unfold World.submit
  generalize hresolve : s.resolveBackend x σ scope = resolved
  obtain ⟨epoch, pool⟩ := resolved
  have hresolved := resolveBackend_spec hi.lineage hi.alive hx hruns hresolve
  have hcounter := (hresolved.pool_inv hi.lineage).2
  -- the Stage of the new work is the scope
  have hactive : ∀ τ scope', some σ = some τ → s.scopes[τ]? = some scope' →
      (∀ c z, s.works[c]? = some z → z.kind = .call → s.Below c i → s.OpenedInside c z scope') ∧
        (kind = .call → scope'.opener = none ∨
          scope'.opener = some i ∧ scope'.contextMode = .sync) := by
    intro τ scope' hτ hscope'
    cases hτ
    rw [hscope] at hscope'
    cases hscope'
    rcases hmay with hopener | ⟨hnone, -⟩
    · exact ⟨fun c z _ _ hbelow => Or.inr ⟨i, hopener, Or.inl hbelow⟩,
        fun hkind => Or.inr ⟨hopener, hmode hkind hopener⟩⟩
    · exact ⟨fun _ _ _ _ _ => Or.inl hnone, fun _ => Or.inl hnone⟩
  have hepochs : ∀ τ l, Function.update s.epoch σ (some epoch) τ = some (.caller l) →
      s.epoch τ = some (.caller l) ∨ ∃ scope', s.scopes[τ]? = some scope' ∧
        scope'.opener = some i ∧ ∀ g c, l = .carrier g → s.BlocksLoop g c → ¬ s.Below c i := by
    intro τ l hτ
    by_cases hne : τ = σ
    · subst hne
      rw [Function.update_self] at hτ
      cases hτ
      have hopener : s.epoch τ = some (.caller l) ∨ scope.opener = some i := by
        cases hresolved with
        | bound hbound => exact Or.inl hbound
        | caller _ hselect => exact Or.inr (selectCallerLoop_opener hmay hselect)
      exact hopener.imp_right fun hopener => ⟨scope, hscope, hopener, fun g c heq hb hbelow =>
        hn.not_caller hc hi.lineage hx hscope hmay hresolved hb hbelow heq⟩
    · rw [Function.update_of_ne hne] at hτ
      exact Or.inl hτ
  cases epoch with
  | stage lease blocked =>
    dsimp only
    split
    · refine hn.append hi.lineage hx rfl rfl hcounter hwaits rfl hactive (fun g hg => ?_) hepochs
      refine apart_of_lease rfl (Or.inl rfl) (hresolved.own hi.lineage) ?_
      rcases hg with ⟨c, hb, hbelow⟩ | ⟨hkind, hloop⟩
      · exact hresolved.mem_blocked (hjoins g c lease blocked hb hbelow)
          ((hn.works i x hx).apart g c hb hbelow).blocked
      · obtain ⟨lease', blocked', heq, hmem⟩ := hcall hkind g _ pool hloop hresolved
        cases heq
        exact hmem
    · exact hn.of_grows hi.lineage ⟨fun _ _ h => h, fun _ _ h => h, hcounter⟩ hwaits
        (fun n z hz => Or.inl hz) fun τ l h => Or.inl h
  | caller l =>
    refine hn.append hi.lineage hx rfl rfl hcounter hwaits rfl hactive (fun g hg => ?_) hepochs
    rcases hg with ⟨c, hb, hbelow⟩ | ⟨hkind, hloop⟩
    · exact ⟨((hn.works i x hx).apart g c hb hbelow).blocked, fun heq =>
        hn.not_caller hc hi.lineage hx hscope hmay hresolved hb hbelow (Option.some.inj heq)⟩
    · obtain ⟨lease', blocked', heq, -⟩ := hcall hkind g _ pool hloop hresolved
      cases heq

theorem Nesting.lateCallback (hn : Nesting s) (hi : NestInv count s) {r : Nat} {sync : Bool}
    (h : s.lateCallback r sync = some s') : Nesting s' := by
  obtain ⟨x, σ, i, registrant, scope, hx, hkind, hσ, hp, hregistrant, hscope, hopener, hruns, -,
    hcases⟩ := lateCallback_spec hi.lineage hi.alive h
  have hactive : ∀ τ scope, registrant.activeStage = some τ → s.scopes[τ]? = some scope →
      (∀ c z, s.works[c]? = some z → z.kind = .call → s.Below c i → s.OpenedInside c z scope) ∧
        (ScopedKind.callback = .call → scope.opener = none ∨
          scope.opener = some i ∧ scope.contextMode = .sync) :=
    fun τ scope hτ hscope => ⟨fun c z hz hcall hbelow =>
      (hn.works i registrant hregistrant).activeStage c z τ scope hz hcall hbelow hτ hscope,
      fun hcall => by cases hcall⟩
  rcases hcases with ⟨lease, blocked, pool, hlate, ⟨-, rfl⟩ | ⟨-, rfl⟩⟩ | ⟨l, hlate, rfl⟩
  · refine hn.append hi.lineage hregistrant rfl rfl hlate.counter (fun _ _ _ _ h => h) rfl hactive
      (fun g hg => ?_) fun τ l hτ => ?_
    · rcases hg with ⟨c, hb, hbelow⟩ | ⟨hcall, -⟩
      · have hfacts : lease ∉ blocked ∧
            Descends registrant.execution (some ⟨lease, blocked, σ⟩) := by
          cases hlate with
          | bound hbound =>
            exact ⟨((hi.lineage.epochs σ _ hbound).lease lease blocked rfl).1.own,
              (hi.lineage.suits hregistrant hscope hopener).lease lease blocked hbound⟩
          | reopened _ _ hleased => exact ⟨(hleased.ok σ).own, hleased.descends σ⟩
        obtain ⟨e, he, hmem⟩ := ((hn.works i registrant hregistrant).apart g c hb hbelow).blocked
        obtain ⟨d, hd, hleads⟩ := hfacts.2 e he
        cases hd
        refine apart_of_lease rfl ?_ hfacts.1 (hleads.blocked g hmem)
        cases sync with
        | true => exact Or.inr rfl
        | false => exact Or.inl rfl
      · cases hcall
    · left
      by_cases hne : τ = σ
      · subst hne
        rw [show (s.addWork τ (.stage lease blocked) pool _).epoch τ = some (.stage lease blocked)
          from Function.update_self _ _ _] at hτ
        cases hτ
      · rw [show (s.addWork σ (.stage lease blocked) pool _).epoch τ = s.epoch τ from
          Function.update_of_ne hne _ _] at hτ
        exact hτ
  · exact hn.of_same hi.lineage ⟨fun _ _ h => h, fun _ _ h => h, hlate.counter⟩ rfl
      (fun _ => Or.inl rfl) fun _ _ h => h
  · -- the callback runs on the loop of the body, which is below what its registrant is below
    have hnot : ∀ g c, l = .carrier g → s.BlocksLoop g c → ¬ s.Below c i := by
      intro g c heq hb hbelow
      cases hlate with
      | caller _ hloop _ =>
        exact ((hn.works r x hx).apart g c hb (.parent hx hp hbelow)).loop (heq ▸ hloop)
    refine hn.append hi.lineage hregistrant rfl rfl (Nat.le_refl _) (fun _ _ _ _ h => h) rfl
      hactive (fun g hg => ?_) fun τ l' hτ => ?_
    · rcases hg with ⟨c, hb, hbelow⟩ | ⟨hcall, -⟩
      · refine ⟨((hn.works i registrant hregistrant).apart g c hb hbelow).blocked, fun heq => ?_⟩
        cases sync with
        | true => cases heq
        | false => exact hnot g c (Option.some.inj heq) hb hbelow
      · cases hcall
    · by_cases hne : τ = σ
      · subst hne
        rw [show (s.addWork τ (.caller l) s.pool _).epoch τ = some (.caller l) from
          Function.update_self _ _ _] at hτ
        cases hτ
        exact Or.inr ⟨scope, hscope, hopener, hnot⟩
      · rw [show (s.addWork σ (.caller l) s.pool _).epoch τ = s.epoch τ from
          Function.update_of_ne hne _ _] at hτ
        exact Or.inl hτ

/-! ## 4. Steps -/

theorem Nesting.step (hn : Nesting s) (hc : CarrierScopes s) (hi : NestInv count s)
    {e : WorldEvent} (h : s.step e = some s') : Nesting s' := by
  have hl := hi.lineage
  cases e with
  | outside loop =>
    cases h
    refine hn.of_grows hl (grows_start s _) (fun _ _ _ _ h => h) (fun n z hz => ?_)
      fun σ l h => Or.inl h
    rcases getElem?_append_cases hz with ⟨rfl, rfl⟩ | hz
    · refine Or.inr ⟨fun c w τ scope _ _ _ hτ => (by cases hτ), fun g c hb hbelow => ?_⟩
      obtain ⟨p, w, v, hw, hcall, -⟩ := hb
      cases hbelow with
      | refl =>
        rw [show (s.start _).works[s.works.length]? = _ from List.getElem?_concat_length] at hw
        cases hw
        cases hcall
      | parent hx hparent _ =>
        rw [show (s.start _).works[s.works.length]? = _ from List.getElem?_concat_length] at hx
        cases hx
        cases hparent
    · exact Or.inl hz
  | openScope i backendMode contextMode =>
    obtain ⟨x, hx, -, rfl⟩ := openScope_spec h
    exact hn.of_same hl (grows_enter s _) rfl (fun _ => Or.inl rfl) fun _ _ h => h
  | go i σ =>
    obtain ⟨x, scope, hx, hscope, hruns, hopener, rfl⟩ := go_spec h
    rw [← show { s.submit i x σ scope .root with waiting := s.waiting } =
      s.submit i x σ scope .root by rw [← submit_waiting s i x σ scope .root]]
    refine hn.submit hc hi hx hscope hruns (Or.inl hopener) (fun _ _ _ _ h => h)
      (fun g c lease blocked hb hbelow hepoch => ?_) (fun hcall => by cases hcall)
      fun hcall => by cases hcall
    obtain ⟨e, he, hmem⟩ := ((hn.works i x hx).apart g c hb hbelow).blocked
    obtain ⟨d, hd, hleads⟩ := (hl.suits hx hscope hopener).lease lease blocked hepoch e he
    cases hd
    exact hleads.blocked g hmem
  | spawn i =>
    obtain ⟨x, hx, -, rfl⟩ := spawn_spec h
    exact hn.start hl hx (fun hcall => by cases hcall) rfl rfl (Or.inl rfl)
      fun c z τ scope hz hcall hbelow => (hn.works i x hx).activeStage c z τ scope hz hcall hbelow
  | worker i =>
    obtain ⟨x, hx, -, rfl⟩ := worker_spec h
    exact hn.start hl hx (fun hcall => by cases hcall) rfl rfl (Or.inr rfl)
      fun c z τ scope hz hcall hbelow => (hn.works i x hx).activeStage c z τ scope hz hcall hbelow
  | callback r sync =>
    obtain ⟨x, i, registrant, hx, hkind, hp, hregistrant, -, rfl⟩ := callback_spec hl h
    refine hn.start hl hx (fun hcall => by cases hcall) rfl rfl ?_
      fun c z τ scope hz hcall hbelow hτ hscope => ?_
    · cases sync with
      | true => exact Or.inr rfl
      | false => exact Or.inl rfl
    · -- the body is no call, so who has submitted it is below the call too
      refine (hn.works i registrant hregistrant).activeStage c z τ scope hz hcall ?_ hτ hscope
      rcases hbelow.up hx hp with rfl | hup
      · rw [hx] at hz
        cases hz
        cases hkind.symm.trans hcall
      · exact hup
  | lateCallback r sync => exact hn.lateCallback hi h
  | wait i σ =>
    obtain ⟨x, scope, -, -, -, -, -, rfl⟩ := wait_spec h
    refine hn.of_same hl ⟨fun _ _ h => h, fun _ _ h => h, Nat.le_refl _⟩ rfl (fun p => ?_)
      fun _ _ h => h
    by_cases hp : p = i
    · subst hp
      right
      intro c heq
      simp only [Function.update_self, Option.some.injEq, reduceCtorEq] at heq
    · exact Or.inl (Function.update_of_ne hp _ _)
  | resume i =>
    rw [resume_spec h]
    exact hn.stopWaiting hl i
  | finish i =>
    obtain ⟨x, -, -, -, -, rfl⟩ := finish_spec h
    exact hn.of_same hl ⟨fun _ _ h => h, fun _ _ h => h, Nat.le_refl _⟩ rfl (fun _ => Or.inl rfl)
      fun _ _ h => h
  | settle σ =>
    obtain ⟨-, rfl⟩ := settle_spec h
    exact hn.of_same hl ⟨fun _ _ h => h, fun _ _ h => h, Nat.le_refl _⟩ rfl (fun _ => Or.inl rfl)
      fun _ _ => epoch_of_settled
  | close g =>
    obtain ⟨-, rfl⟩ := close_spec h
    exact hn.of_same hl ⟨fun _ _ h => h, fun _ _ h => h, Nat.le_refl _⟩ rfl
      (fun _ => Or.inl rfl) fun _ _ h => h

/-- The invariant of a bridge. -/
structure BridgeInv (count : Nat) (s : World) : Prop where
  nest : NestInv count s
  carrierScopes : CarrierScopes s
  nesting : Nesting s

theorem NestInv.submitCall (hi : NestInv count s) {x : ScopedWork} {scope : StageScope}
    (hx : s.works[i]? = some x) (hscope : s.scopes[σ]? = some scope) (hruns : s.runs i x = true)
    (hmay : MaySubmit i scope) : NestInv count (s.submitCall i x σ scope) := by
  have hl : Lineage count (s.submit i x σ scope .call) :=
    hi.lineage.submit hi.alive hx hscope hruns hmay (Or.inl rfl)
  obtain ⟨waiting, heq, hwaits⟩ := submitCall_cases s i x σ scope
  rw [heq]
  refine ⟨hl.of_same hl.pool (Nat.le_refl _) rfl rfl (fun _ _ h => h) fun w τ hw => ?_,
    (hi.alive.submit hi.lineage hx hruns).of_same rfl rfl rfl fun _ h => h⟩
  rcases hwaits w with hold | ⟨-, hnew⟩
  · left
    rw [submit_waiting, ← hold]
    exact hw
  · cases hnew.symm.trans hw

/-- A call keeps the invariant, given what its epoch does for the loops that are blocked. -/
theorem BridgeInv.submitCall (hb : BridgeInv count s) {x : ScopedWork} {scope : StageScope}
    (hx : s.works[i]? = some x) (hscope : s.scopes[σ]? = some scope) (hruns : s.runs i x = true)
    (hmay : MaySubmit i scope)
    (hjoins : ∀ g c lease blocked, s.BlocksLoop g c → s.Below c i →
      s.epoch σ = some (.stage lease blocked) → g ∈ blocked)
    (hmode : scope.opener = some i → scope.contextMode = .sync)
    (hcall : ∀ g epoch pool, x.loop = some (.carrier g) →
      Resolved count s x σ scope epoch pool →
      ∃ lease blocked, epoch = .stage lease blocked ∧ g ∈ blocked) :
    BridgeInv count (s.submitCall i x σ scope) := by
  refine ⟨hb.nest.submitCall hx hscope hruns hmay, ?_, ?_⟩
  · obtain ⟨waiting, heq, -⟩ := submitCall_cases s i x σ scope
    rw [heq]
    exact (hb.carrierScopes.submit hb.nest hx hscope hruns hmay).of_same rfl rfl fun _ _ h => h
  · obtain ⟨waiting, heq, hwaits⟩ := submitCall_cases s i x σ scope
    rw [heq]
    refine hb.nesting.submit hb.carrierScopes hb.nest hx hscope hruns hmay
      (fun p c z hz hp => ?_) hjoins (fun _ => hmode) fun _ => hcall
    rcases hwaits p with hold | ⟨-, hnew⟩
    · exact hold.symm.trans hp
    · cases hnew.symm.trans hp
      exact absurd (List.getElem?_eq_some_iff.mp hz).1 (Nat.lt_irrefl _)

/-- A routed scope has no epoch before its call, and takes a lease away from the running loop. -/
theorem BridgeInv.routed (hb : BridgeInv count s) {x : ScopedWork} (hx : s.works[i]? = some x)
    (hruns : s.runs i x = true) : BridgeInv count
      ((s.enter (routedScope i)).submitCall i x s.scopes.length (routedScope i)) := by
  have hl := hb.nest.lineage
  have hnone : s.epoch s.scopes.length = none := by
    cases hepoch : s.epoch s.scopes.length with
    | none => rfl
    | some epoch => exact absurd (hl.epochs _ epoch hepoch).scope (Nat.lt_irrefl _)
  have hentered : BridgeInv count (s.enter (routedScope i)) := by
    refine ⟨⟨hl.enter fun u hu => ?_, hb.nest.alive.of_same rfl rfl rfl fun _ h => h⟩,
      hb.carrierScopes.of_grows hl (grows_enter s _) (fun _ _ hx => Or.inl hx)
        fun σ l h => Or.inl h,
      hb.nesting.of_same hl (grows_enter s _) rfl (fun _ => Or.inl rfl) fun _ _ h => h⟩
    cases hu
    exact ⟨x, hx⟩
  refine hentered.submitCall hx List.getElem?_concat_length hruns (Or.inl rfl)
    (fun g c lease blocked _ _ hepoch => ?_) (fun _ => rfl) fun g epoch pool hloop hresolved => ?_
  · cases hnone.symm.trans hepoch
  · cases hresolved with
    | bound hbound => cases hnone.symm.trans hbound
    | caller _ hselect => exact absurd hselect (selectCallerLoop_sync rfl hloop)
    | lease _ _ hleased => exact ⟨_, _, rfl, (hleased.running rfl g hloop).1⟩

/-- A direct call, to an epoch that is bound for its lineage or to a new one. -/
theorem BridgeInv.direct (hb : BridgeInv count s) {x : ScopedWork} (hx : s.works[i]? = some x)
    (hruns : s.runs i x = true) (hdirect : s.requiresRoutedSyncScope x = false)
    (hok : ¬ s.LosesLineage (.asSync i)) :
    BridgeInv count (s.submitCall i x 0 carrierStage) := by
  have hl := hb.nest.lineage
  have hjoined : ∀ g lease blocked, s.epoch 0 = some (.stage lease blocked) →
      (x.loop = some (.carrier g) ∨ s.BlockedInNesting g i) → g ∈ blocked := by
    intro g lease blocked hepoch hg
    by_contra hmem
    exact hok ⟨x, lease, blocked, g, hx, hdirect, hepoch, hg, hmem⟩
  refine hb.submitCall hx hb.nesting.scope hruns (Or.inr ⟨rfl, rfl⟩)
    (fun g c lease blocked hblocks hbelow hepoch =>
      hjoined g lease blocked hepoch (Or.inr ⟨c, hblocks, hbelow⟩))
    (fun hopener => by cases hopener) fun g epoch pool hloop hresolved => ?_
  cases hresolved with
  | bound hbound =>
    cases epoch with
    | stage lease blocked =>
      exact ⟨lease, blocked, rfl, hjoined g lease blocked hbound (Or.inl hloop)⟩
    | caller l => exact absurd hbound (hb.nesting.epoch l)
  | caller _ hselect => cases hselect
  | lease hnone _ hleased =>
    -- the running loop is not the one of the execution, so it is blocked there
    refine ⟨_, _, rfl, ?_⟩
    obtain ⟨e, he, hcovers⟩ := (hl.works i x hx).loop g hloop
    rcases hcovers with rfl | hmem
    · rw [requiresRoutedSyncScope, wouldSyncWaitBlockCurrentCarrier, hnone, he] at hdirect
      simp [hloop] at hdirect
    · obtain ⟨d, hd, hleads⟩ := hleased.descends 0 e he
      cases hd
      exact hleads.blocked g hmem

theorem BridgeInv.step (hb : BridgeInv count s) {e : BridgeEvent} (hok : ¬ s.LosesLineage e)
    (h : s.bridgeStep e = some s') : BridgeInv count s' := by
  have hl := hb.nest.lineage
  cases e with
  | work e =>
    have hstep := bridgeStep_work h
    exact ⟨hb.nest.step hstep, hb.carrierScopes.step hb.nest hstep,
      hb.nesting.step hb.carrierScopes hb.nest hstep⟩
  | asSync i =>
    obtain ⟨x, hx, hruns, ⟨-, rfl⟩ | ⟨hdirect, rfl⟩⟩ := asSync_spec h
    · exact hb.routed hx hruns
    · exact hb.direct hx hruns hdirect hok
  | callReturns i =>
    obtain rfl := callReturns_spec h
    exact ⟨hb.nest.stopWaiting i, hb.carrierScopes.of_same rfl rfl fun _ _ h => h,
      hb.nesting.stopWaiting hl i⟩
  | finishCaller i =>
    obtain ⟨hheld, rfl⟩ := finishCaller_spec h
    exact ⟨hb.nest.finished hheld, hb.carrierScopes.of_same rfl rfl fun _ _ h => h,
      hb.nesting.of_same hl ⟨fun _ _ h => h, fun _ _ h => h, Nat.le_refl _⟩ rfl
        (fun _ => Or.inl rfl) fun _ _ h => h⟩

theorem bridgeInv_init (count : Nat) :
    BridgeInv count { pool := .ofCount count, scopes := [carrierStage] } where
  nest := nestInv_init count [carrierStage] fun scope hmem => by
    rw [List.mem_singleton.mp hmem]
    rfl
  carrierScopes := carrierScopes_init count [carrierStage]
  nesting :=
    { works := fun n x hx => by cases hx
      epochs := fun g c σ scope u _ _ _ _ heq => by cases heq
      scope := rfl
      epoch := fun l heq => by cases heq }

theorem reachUnder_bridgeInv
    (h : (bridgeSystem count).ReachUnder (fun s e => ¬ s.LosesLineage e) s) :
    BridgeInv count s := by
  refine h.invariant (fun s hs => ?_) fun _ _ _ hb hok hstep => hb.step hok hstep
  cases hs
  exact bridgeInv_init count

/-- **Nested calls.**  In every run in which no call joins an epoch of the carrier Stage that was
    bound without a loop that the call or an outer one blocks, the awaitable of a call, and all
    work below it, is on no loop that a call of the nesting blocks. -/
theorem nested_calls_apart (count : Nat) (s : World)
    (hreach : (bridgeSystem count).ReachUnder (fun s e => ¬ s.LosesLineage e) s) :
    ∀ n x g, s.works[n]? = some x → s.BlockedInNesting g n → x.loop ≠ some (.carrier g) := by
  intro n x g hx hblocked
  obtain ⟨c, hblocks, hbelow⟩ := hblocked
  exact (((reachUnder_bridgeInv hreach).nesting.works n x hx).apart g c hblocks hbelow).loop

/-- A thread calls, and the awaitable calls again. -/
def reentrantCall : List BridgeEvent := [.work (.outside none), .asSync 0, .asSync 1]

/-- The inner awaitable is not on the loop of the outer one. -/
theorem nested_calls_apart_reentrant :
    ∃ s x, (bridgeSystem 1).run { pool := .ofCount 1, scopes := [carrierStage] } reentrantCall =
        some s ∧
      s.works[2]? = some x ∧ s.BlockedInNesting 1 2 ∧ x.loop ≠ some (.carrier 1) := by
  have hend : ((bridgeSystem 1).run { pool := .ofCount 1, scopes := [carrierStage] }
      reentrantCall).any (fun s =>
        decide (s.works[1]? = some ⟨.call, some 0, some 0, some (.carrier 1), some ⟨1, [], 0⟩,
            some 0⟩ ∧
          s.works[2]? = some ⟨.call, some 1, some 1, some (.carrier 2), some ⟨2, [1], 1⟩,
            some 1⟩ ∧
          s.waiting 1 = some (.call 2))) = true := by
    decide
  obtain ⟨s, hrun, hs⟩ := (Option.any_eq_true _ _).mp hend
  obtain ⟨houter, hinner, hwaiting⟩ := of_decide_eq_true hs
  have hblocked : s.BlockedInNesting 1 2 :=
    ⟨2, ⟨1, _, _, hinner, rfl, rfl, houter, rfl, hwaiting⟩, .refl⟩
  have hmeet : (bridgeSystem 1).StepsMeet (fun s e => ¬ s.LosesLineage e)
      { pool := .ofCount 1, scopes := [carrierStage] } reentrantCall := by
    refine ⟨fun hloses => hloses, ?_⟩
    rintro _ ⟨⟩
    refine ⟨?_, ?_⟩
    · rintro ⟨_, _, _, _, _, _, hepoch, _⟩
      cases hepoch
    · rintro _ ⟨⟩
      refine ⟨?_, fun _ _ => trivial⟩
      rintro ⟨x, _, _, _, hx, hdirect, _⟩
      cases hx
      exact absurd hdirect (by decide)
  exact ⟨s, _, hrun, hinner, hblocked,
    nested_calls_apart 1 s (.of_run (.init rfl) hmeet hrun) 2 _ 1 hinner hblocked⟩

/-- A thread has bound the carrier Stage on generation 1; a coroutine on generation 2 calls, and
    its awaitable calls again. -/
def crossedCalls : List BridgeEvent :=
  [.work (.outside none), .asSync 0, .work (.outside none), .work (.openScope 2 .auto .plain),
    .work (.go 2 1), .asSync 3, .asSync 4]

/-- The inner awaitable is queued on the loop that waits for the outer one. -/
theorem inner_call_on_blocked_loop :
    ∃ s x, (bridgeSystem 2).run { pool := .ofCount 2, scopes := [carrierStage] } crossedCalls =
        some s ∧ (bridgeSystem 2).Reachable s ∧
      s.works[5]? = some x ∧ x.kind = .call ∧ x.loop = some (.carrier 2) ∧
      s.BlockedInNesting 2 5 ∧
      ¬ ∀ n x g, s.works[n]? = some x → s.BlockedInNesting g n → x.loop ≠ some (.carrier g) := by
  have hend : ((bridgeSystem 2).run { pool := .ofCount 2, scopes := [carrierStage] }
      crossedCalls).any (fun s =>
        decide (s.works[3]? = some ⟨.root, some 2, some 1, some (.carrier 2), some ⟨2, [], 1⟩,
            some 1⟩ ∧
          s.works[4]? = some ⟨.call, some 3, some 0, some (.carrier 1), some ⟨1, [], 0⟩,
            some 0⟩ ∧
          s.works[5]? = some ⟨.call, some 4, some 2, some (.carrier 2), some ⟨2, [1], 2⟩,
            some 2⟩ ∧
          s.waiting 3 = some (.call 4))) = true := by
    decide
  obtain ⟨s, hrun, hs⟩ := (Option.any_eq_true _ _).mp hend
  obtain ⟨hcaller, houter, hinner, hwaiting⟩ := of_decide_eq_true hs
  have hblocked : s.BlockedInNesting 2 5 :=
    ⟨4, ⟨3, _, _, houter, rfl, rfl, hcaller, rfl, hwaiting⟩, .parent hinner rfl .refl⟩
  exact ⟨s, _, hrun, System.reachable_of_run crossedCalls rfl hrun, hinner, rfl, rfl, hblocked,
    fun hall => hall 5 _ 2 hinner hblocked rfl⟩

end World

end AgentlyStage
