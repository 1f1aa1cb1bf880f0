import AgentlyStage.BlockedLineage
import AgentlyStage.Lib.Circles
import Mathlib.Data.Nat.Basic

/-!
# Wait cycles

The wait-for graph over carrier generations: `g` waits for `h` when a coroutine on the loop
of `g` is blocked in a `with` scope that has unfinished work leased on `h`.

It is part of the graph of the `with` scopes that are bound, whether their openers wait yet or
not.  A step adds one edge to that graph at most, when it leases a generation for such a scope,
and closes a circle exactly if the generation leads back to the loop of the opener.  The
selection of a lane looks only at the lineage of the opener, so with more than one lane two
chains that know nothing of each other can lease each other's loops.  As long as no `with` scope
takes a free lane of the pool, every one either stays in an execution or gets a new escape
lane, and the graph grows upwards: an edge leads to a later generation.  With one lane no scope
can take another one.
-/

namespace AgentlyStage

open Transition
open CarrierExecution (LeadsTo)

namespace World

variable {count : Nat} {s s' : World}

/-! ## 1. The graph -/

/-- The loop of `g` is blocked in a scope whose unfinished work is leased on `h`. -/
def WaitEdge (s : World) (g h : Nat) : Prop :=
  ∃ i x σ scope blocked j y, s.works[i]? = some x ∧ s.finished i = false ∧
    x.loop = some (.carrier g) ∧ s.waiting i = some (.scope σ) ∧ s.scopes[σ]? = some scope ∧
    scope.contextMode = .sync ∧ s.epoch σ = some (.stage h blocked) ∧
    s.works[j]? = some y ∧ s.finished j = false ∧ y.scope = some σ

/-- No set of carrier loops is deadlocked by the selection of lanes. -/
def Acyclic (s : World) : Prop := ∀ g, ¬ Relation.TransGen s.WaitEdge g g

/-- A `with` scope of a coroutine on the loop of `g` is bound to a lease on `h`. -/
def BoundEdge (s : World) (g h : Nat) : Prop :=
  ∃ σ blocked, s.OpensOn σ g ∧ s.epoch σ = some (.stage h blocked)

/-- The lease that a scope without an epoch is bound to, unless it is sealed already. -/
def newLease (s : World) (σ : Nat) : Epoch × CarrierPool → Option (Nat × Nat)
  | (.stage lease _, pool) =>
    if (s.epoch σ).isNone && pool.acceptsPinned lease then some (σ, lease) else none
  | (.caller _, _) => none

/-- The scope that the step binds to a lease, and the generation that the selection takes. -/
def binds (s : World) : WorldEvent → Option (Nat × Nat)
  | .go i σ =>
    match s.works[i]?, s.scopes[σ]? with
    | some x, some scope => s.newLease σ (s.resolveBackend x σ scope)
    | _, _ => none
  | .lateCallback r _ =>
    match s.works[r]? with
    | some x =>
      match x.scope, x.parent.bind fun i => s.works[i]? with
      | some σ, some registrant => (s.lateEpoch registrant x σ).bind (s.newLease σ)
      | _, _ => none
    | none => none
  | _ => none

/-- The generation that the step leases for a `with` scope of a coroutine on a carrier loop
    leads back to that loop already, over the `with` scopes that are bound. -/
def ClosesCircle (s : World) (e : WorldEvent) : Prop :=
  ∃ σ g h, s.binds e = some (σ, h) ∧ s.OpensOn σ g ∧ Relation.ReflTransGen s.BoundEdge h g

/-- The step binds a `with` scope of a coroutine on the loop of its generation while some
    lane of the pool is neither that loop's nor owns a blocked generation. -/
def crossesLanes (s : World) : WorldEvent → Bool
  | .go i σ =>
    match s.works[i]?, s.scopes[σ]? with
    | some x, some scope =>
      (s.epoch σ).isNone && decide (scope.contextMode = .sync) &&
        x.execution.any fun e =>
          decide (x.loop = some (.carrier e.generation)) &&
            s.pool.slots.any fun lane =>
              !CarrierPool.excludes true (some e.generation) e.blockedGenerationIds lane
    | _, _ => false
  | _ => false

/-! ## 2. Bound scopes -/

theorem newLease_eq_some {σ τ h : Nat} {epoch : Epoch} {pool : CarrierPool} :
    s.newLease σ (epoch, pool) = some (τ, h) ↔ τ = σ ∧ s.epoch σ = none ∧
      pool.acceptsPinned h = true ∧ ∃ blocked, epoch = .stage h blocked := by
  cases epoch with
  | caller l => simp [newLease]
  | stage lease blocked =>
    simp only [newLease, Option.ite_none_right_eq_some, Bool.and_eq_true,
      Option.isNone_iff_eq_none, Option.some.injEq, Prod.mk.injEq, Epoch.stage.injEq]
    constructor
    · rintro ⟨⟨hnone, hpinned⟩, rfl, rfl⟩
      exact ⟨rfl, hnone, hpinned, blocked, rfl, rfl⟩
    · rintro ⟨rfl, hnone, hpinned, -, rfl, -⟩
      exact ⟨⟨hnone, hpinned⟩, rfl, rfl⟩

theorem OpensOn.grows {σ g : Nat} (h : s.OpensOn σ g) (hg : Grows s s') : s'.OpensOn σ g := by
  obtain ⟨scope, u, y, hscope, hsync, hu, hy, hloop⟩ := h
  exact ⟨scope, u, y, hg.scopes σ scope hscope, hsync, hu, hg.works u y hy, hloop⟩

theorem OpensOn.unique {σ g k : Nat} (h : s.OpensOn σ g) (h' : s.OpensOn σ k) : g = k := by
  obtain ⟨scope, u, y, hscope, -, hu, hy, hloop⟩ := h
  have hk := (h'.loop_eq hscope hu hy).2
  rw [hloop] at hk
  cases hk
  rfl

/-- What a step does to the epochs of the scopes: `bound` is the lease that is new. -/
structure Rebinds (s s' : World) (bound : Option (Nat × Nat)) : Prop where
  grows : Grows s s'
  epochs : ∀ σ h blocked, s'.epoch σ = some (.stage h blocked) →
    s.epoch σ = some (.stage h blocked) ∨ bound = some (σ, h)
  leased : ∀ σ h, bound = some (σ, h) → σ < s.scopes.length ∧
    (∃ blocked, s'.epoch σ = some (.stage h blocked)) ∧
    ∀ τ epoch, s.epoch τ = some epoch → s'.epoch τ = some epoch

theorem Rebinds.quiet (hg : Grows s s')
    (hepochs : ∀ σ epoch, s'.epoch σ = some epoch → s.epoch σ = some epoch) :
    Rebinds s s' none :=
  ⟨hg, fun σ h blocked he => Or.inl (hepochs σ _ he), fun σ h hb => by cases hb⟩

/-- The scope is bound to `epoch`, or the lease is sealed already and given back. -/
theorem Rebinds.of_resolved {σ : Nat} {epoch : Epoch} {pool : CarrierPool}
    (hσ : σ < s.scopes.length) (hcounter : s.pool.generationCounter ≤ pool.generationCounter)
    (hbound : ∀ epoch', s.epoch σ = some epoch' → epoch' = epoch)
    (h : (∃ y, s' = s.addWork σ epoch pool y ∧ ∀ lease blocked, epoch = .stage lease blocked →
        pool.acceptsPinned lease = true) ∨
      ∃ lease blocked, epoch = .stage lease blocked ∧ pool.acceptsPinned lease = false ∧
        s' = { s with pool := pool }) :
    Rebinds s s' (s.newLease σ (epoch, pool)) := by
  rcases h with ⟨y, rfl, hpinned⟩ | ⟨lease, blocked, rfl, hsealed, rfl⟩
  · have hself : (s.addWork σ epoch pool y).epoch σ = some epoch := Function.update_self _ _ _
    have hother : ∀ τ, τ ≠ σ → (s.addWork σ epoch pool y).epoch τ = s.epoch τ :=
      fun τ hne => Function.update_of_ne hne _ _
    refine ⟨grows_addWork hcounter σ epoch y, fun τ h blocked he => ?_, fun τ h hb => ?_⟩
    · by_cases hne : τ = σ
      · subst hne
        rw [hself] at he
        cases he
        cases hold : s.epoch τ with
        | some epoch' => exact Or.inl (by rw [hbound epoch' hold])
        | none =>
          exact Or.inr (newLease_eq_some.mpr ⟨rfl, hold, hpinned h blocked rfl, blocked, rfl⟩)
      · rw [hother τ hne] at he
        exact Or.inl he
    · obtain ⟨rfl, hnone, -, blocked, rfl⟩ := newLease_eq_some.mp hb
      refine ⟨hσ, ⟨blocked, hself⟩, fun τ' epoch' hτ' => ?_⟩
      have hne : τ' ≠ τ := by
        rintro rfl
        rw [hnone] at hτ'
        cases hτ'
      rw [hother τ' hne, hτ']
  · have hnone : s.newLease σ (.stage lease blocked, pool) = none := by
      rw [newLease, hsealed, Bool.and_false]
      rfl
    rw [hnone]
    exact Rebinds.quiet ⟨fun _ _ h => h, fun _ _ h => h, hcounter⟩ fun _ _ h => h

theorem rebinds_go (hi : NestInv count s) {i σ : Nat} (h : s.go i σ = some s') :
    Rebinds s s' (s.binds (.go i σ)) := by
  obtain ⟨x, scope, hx, hscope, hruns, -, rfl⟩ := go_spec h
  have hbinds : s.binds (.go i σ) = s.newLease σ (s.resolveBackend x σ scope) := by
    simp only [binds, hx, hscope]
  rw [hbinds]
  unfold World.submit
  generalize hresolve : s.resolveBackend x σ scope = resolved
  obtain ⟨epoch, pool⟩ := resolved
  have hresolved := resolveBackend_spec hi.lineage hi.alive hx hruns hresolve
  refine Rebinds.of_resolved (List.getElem?_eq_some_iff.mp hscope).1
    (hresolved.pool_inv hi.lineage).2 (fun epoch' he => ?_) ?_
  · cases hresolved with
    | bound hbound =>
      rw [hbound] at he
      exact (Option.some.inj he).symm
    | caller hnone =>
      rw [hnone] at he
      cases he
    | lease hnone =>
      rw [hnone] at he
      cases he
  · cases epoch with
    | caller l => exact Or.inl ⟨_, rfl, fun lease blocked h => by cases h⟩
    | stage lease blocked =>
      dsimp only
      split
      · rename_i hpinned
        refine Or.inl ⟨_, rfl, fun lease' blocked' heq => ?_⟩
        cases heq
        exact hpinned
      · rename_i hsealed
        exact Or.inr ⟨lease, blocked, rfl, Bool.eq_false_iff.mpr hsealed, rfl⟩

/-- The code of a late callback, up to the submission of the drain. -/
theorem lateCallback_cases {r : Nat} {sync : Bool} (h : s.lateCallback r sync = some s') :
    ∃ x σ i registrant epoch pool, s.works[r]? = some x ∧ x.scope = some σ ∧
      x.parent = some i ∧ s.works[i]? = some registrant ∧ s.runs i registrant = true ∧
      s.lateEpoch registrant x σ = some (epoch, pool) ∧
      ((∃ y, s' = s.addWork σ epoch pool y ∧ ∀ lease blocked, epoch = .stage lease blocked →
          pool.acceptsPinned lease = true) ∨
        ∃ lease blocked, epoch = .stage lease blocked ∧ pool.acceptsPinned lease = false ∧
          s' = { s with pool := pool }) := by
  unfold World.lateCallback at h
  split at h
  · rename_i x hx
    split at h
    · rename_i σ i hkind hσ hp
      split at h
      · rename_i registrant hregistrant
        split at h
        · rename_i hif
          have hruns := (Bool.and_eq_true_iff.mp hif).1
          split at h
          · rename_i lease blocked pool hlate
            refine ⟨x, σ, i, registrant, _, pool, hx, hσ, hp, hregistrant, hruns, hlate, ?_⟩
            split at h
            · rename_i hpinned
              cases h
              refine Or.inl ⟨_, rfl, fun lease' blocked' heq => ?_⟩
              cases heq
              exact hpinned
            · rename_i hsealed
              cases h
              exact Or.inr ⟨lease, blocked, rfl, Bool.eq_false_iff.mpr hsealed, rfl⟩
          · rename_i l pool hlate
            cases h
            exact ⟨x, σ, i, registrant, _, pool, hx, hσ, hp, hregistrant, hruns, hlate,
              Or.inl ⟨_, rfl, fun lease blocked heq => by cases heq⟩⟩
          · cases h
        · cases h
      · cases h
    · cases h
  · cases h

theorem rebinds_lateCallback (hi : NestInv count s) {r : Nat} {sync : Bool}
    (h : s.lateCallback r sync = some s') : Rebinds s s' (s.binds (.lateCallback r sync)) := by
  obtain ⟨x, σ, i, registrant, epoch, pool, hx, hσ, hp, hregistrant, hruns, hlate, hcases⟩ :=
    lateCallback_cases h
  have hbinds : s.binds (.lateCallback r sync) = s.newLease σ (epoch, pool) := by
    simp only [binds, hx, hσ, hp, Option.bind_some, hregistrant, hlate]
  have hresolved := lateEpoch_spec hi.lineage hi.alive hregistrant hruns hlate
  rw [hbinds]
  refine Rebinds.of_resolved ((hi.lineage.works r x hx).scope σ hσ) hresolved.counter
    (fun epoch' he => ?_) hcases
  cases hresolved with
  | bound hbound =>
    rw [hbound] at he
    exact (Option.some.inj he).symm
  | reopened hnone =>
    rw [hnone] at he
    cases he
  | caller _ _ hepoch =>
    rcases hepoch with hnone | hbound
    · rw [hnone] at he
      cases he
    · rw [hbound] at he
      exact (Option.some.inj he).symm

/-- **Step lemma of the bound scopes.** -/
theorem step_rebinds (hi : NestInv count s) {e : WorldEvent} (h : s.step e = some s') :
    Rebinds s s' (s.binds e) := by
  have hsame : Grows s s := ⟨fun _ _ h => h, fun _ _ h => h, Nat.le_refl _⟩
  cases e with
  | outside loop =>
    cases h
    exact Rebinds.quiet (grows_start s _) fun _ _ h => h
  | openScope i backendMode contextMode =>
    obtain ⟨x, -, -, rfl⟩ := openScope_spec h
    exact Rebinds.quiet (grows_enter s _) fun _ _ h => h
  | go i σ => exact rebinds_go hi h
  | spawn i =>
    obtain ⟨x, -, -, rfl⟩ := spawn_spec h
    exact Rebinds.quiet (grows_start s _) fun _ _ h => h
  | worker i =>
    obtain ⟨x, -, -, rfl⟩ := worker_spec h
    exact Rebinds.quiet (grows_start s _) fun _ _ h => h
  | callback r sync =>
    obtain ⟨x, i, registrant, -, -, -, -, -, rfl⟩ := callback_spec hi.lineage h
    exact Rebinds.quiet (grows_start s _) fun _ _ h => h
  | lateCallback r sync => exact rebinds_lateCallback hi h
  | wait i σ =>
    obtain ⟨x, scope, -, -, -, -, -, rfl⟩ := wait_spec h
    exact Rebinds.quiet ⟨hsame.works, hsame.scopes, hsame.counter⟩ fun _ _ h => h
  | resume i =>
    rw [resume_spec h]
    exact Rebinds.quiet ⟨hsame.works, hsame.scopes, hsame.counter⟩ fun _ _ h => h
  | finish i =>
    obtain ⟨x, -, -, -, -, rfl⟩ := finish_spec h
    exact Rebinds.quiet ⟨hsame.works, hsame.scopes, hsame.counter⟩ fun _ _ h => h
  | settle σ =>
    obtain ⟨-, rfl⟩ := settle_spec h
    exact Rebinds.quiet ⟨hsame.works, hsame.scopes, hsame.counter⟩ fun _ _ => epoch_of_settled
  | close g =>
    obtain ⟨-, rfl⟩ := close_spec h
    exact Rebinds.quiet ⟨hsame.works, hsame.scopes, hsame.counter⟩ fun _ _ h => h

/-- An edge is there before the step, or it is that of the new lease. -/
theorem Rebinds.boundEdge {bound : Option (Nat × Nat)} (hr : Rebinds s s' bound)
    (hl : Lineage count s) {g k : Nat} (h : s'.BoundEdge g k) :
    s.BoundEdge g k ∨ ∃ σ, bound = some (σ, k) ∧ s.OpensOn σ g := by
  obtain ⟨σ, blocked, hopens, hepoch⟩ := h
  rcases hr.epochs σ k blocked hepoch with hold | hnew
  · exact Or.inl ⟨σ, blocked, hopens.of_grows hl hr.grows (hl.epochs σ _ hold).scope, hold⟩
  · exact Or.inr ⟨σ, hnew, hopens.of_grows hl hr.grows (hr.leased σ k hnew).1⟩

/-- A new lease adds its edge to those that there are. -/
theorem Rebinds.adds {σ k g : Nat} (hr : Rebinds s s' (some (σ, k))) (hopens : s.OpensOn σ g) :
    s'.BoundEdge g k ∧ ∀ a b, s.BoundEdge a b → s'.BoundEdge a b := by
  obtain ⟨-, ⟨blocked, hnew⟩, hkept⟩ := hr.leased σ k rfl
  refine ⟨⟨σ, blocked, hopens.grows hr.grows, hnew⟩, fun a b hedge => ?_⟩
  obtain ⟨τ, blocked', hopens', hepoch⟩ := hedge
  exact ⟨τ, blocked', hopens'.grows hr.grows, hkept τ _ hepoch⟩

/-- Without a step that closes one there is no circle. -/
theorem noCircle_step (hi : NestInv count s) (hfree : Circles.NoCircle s.BoundEdge)
    {e : WorldEvent} (hok : ¬ s.ClosesCircle e) (h : s.step e = some s') :
    Circles.NoCircle s'.BoundEdge := by
  have hr := step_rebinds hi h
  by_cases hnew : ∃ σ k g, s.binds e = some (σ, k) ∧ s.OpensOn σ g
  · obtain ⟨σ, k, g, hbinds, hopens⟩ := hnew
    refine hfree.insert (fun a b hedge => ?_) fun hback => hok ⟨σ, g, k, hbinds, hopens, hback⟩
    rcases hr.boundEdge hi.lineage hedge with hold | ⟨τ, hbinds', hopens'⟩
    · exact Or.inl hold
    · rw [hbinds] at hbinds'
      cases hbinds'
      exact Or.inr ⟨hopens'.unique hopens, rfl⟩
  · refine hfree.mono fun a b hedge => ?_
    rcases hr.boundEdge hi.lineage hedge with hold | ⟨τ, hbinds', hopens'⟩
    · exact hold
    · exact absurd ⟨τ, b, a, hbinds', hopens'⟩ hnew

/-- A step that closes a circle does so. -/
theorem circle_of_closesCircle (hi : NestInv count s) {e : WorldEvent} (hc : s.ClosesCircle e)
    (h : s.step e = some s') : ¬ Circles.NoCircle s'.BoundEdge := by
  obtain ⟨σ, g, k, hbinds, hopens, hback⟩ := hc
  have hr := step_rebinds hi h
  rw [hbinds] at hr
  obtain ⟨hedge, hold⟩ := hr.adds hopens
  exact Circles.not_noCircle hold hedge hback

/-- Who waits is in a scope that is bound. -/
theorem WaitEdge.bound (hl : Lineage count s) {g h : Nat} (hedge : s.WaitEdge g h) :
    s.BoundEdge g h := by
  obtain ⟨i, x, σ, scope, blocked, j, y, hx, -, hloop, hwaiting, hscope, hsync, hepoch, -⟩ :=
    hedge
  obtain ⟨scope', x', hscope', hopener, -⟩ := hl.waits i σ hwaiting
  rw [hscope] at hscope'
  cases hscope'
  exact ⟨σ, blocked, ⟨scope, i, x, hscope, hsync, hopener, hx, hloop⟩, hepoch⟩

theorem reachUnder_noCircle
    (h : (nestingSystem count).ReachUnder (fun s e => ¬ s.ClosesCircle e) s) :
    NestInv count s ∧ Circles.NoCircle s.BoundEdge := by
  induction h with
  | init hs =>
    cases hs
    refine ⟨nestInv_init count [] (fun _ h => by cases h), Circles.NoCircle.of_lt ?_⟩
    rintro g k ⟨σ, blocked, -, hepoch⟩
    cases hepoch
  | step _ hok hstep ih =>
    obtain ⟨hi, hfree⟩ := ih
    exact ⟨hi.step hstep, noCircle_step hi hfree hok hstep⟩

/-! ## 3. The order of the leases -/

/-- Either nothing is blocked for a lease, or every lane of the pool owns something blocked
    for it and it is later than all of that. -/
def Upwards (s : World) (h : Nat) (blocked : List Nat) : Prop :=
  blocked = [] ∨ (∀ lane ∈ s.pool.slots, ∃ b ∈ blocked, lane.owns b = true) ∧
    ∀ b ∈ blocked, b < h

structure LaneInv (count : Nat) (s : World) : Prop where
  upwards : ∀ σ h blocked, s.epoch σ = some (.stage h blocked) → s.Upwards h blocked
  pinned : ∀ σ h blocked, s.epoch σ = some (.stage h blocked) → s.pool.acceptsPinned h = true
  /-- A lease for which nothing is blocked is on a lane of the pool. -/
  pool : ∀ σ h, s.epoch σ = some (.stage h []) → count = 0 ∨ s.pool.slotOf h ≤ count
  /-- The opener of an active scope goes on. -/
  opener : ∀ σ : Nat, ∀ scope : StageScope, ∀ u, s.scopes[σ]? = some scope →
    scope.opener = some u → s.epoch σ ≠ none → s.finished u = false
  /-- What is blocked for a lease is in the execution of the opener. -/
  blocked : ∀ σ h blocked b, s.epoch σ = some (.stage h blocked) → b ∈ blocked →
    ∃ scope u y e, s.scopes[σ]? = some scope ∧ scope.opener = some u ∧
      s.works[u]? = some y ∧ y.execution = some e ∧ e.Covers b
  /-- The execution of an opener is older than the scope. -/
  older : ∀ σ : Nat, ∀ scope : StageScope, ∀ u, ∀ y : ScopedWork, ∀ e,
    s.scopes[σ]? = some scope → scope.opener = some u → s.works[u]? = some y →
      y.execution = some e → e.stage < σ

/-- What is blocked for an active lease is the generation of unfinished work. -/
theorem LaneInv.alive (hn : LaneInv count s) (ha : Alive s) {σ h b : Nat} {blocked : List Nat}
    (hepoch : s.epoch σ = some (.stage h blocked)) (hb : b ∈ blocked) :
    ∃ i x e, s.works[i]? = some x ∧ s.finished i = false ∧ x.execution = some e ∧
      e.generation = b := by
  induction σ using Nat.strongRecOn generalizing h blocked with
  | ind σ ih =>
    obtain ⟨scope, u, y, e, hscope, hu, hy, hexec, hcovers⟩ := hn.blocked σ h blocked b hepoch hb
    have hunfinished := hn.opener σ scope u hscope hu (by rw [hepoch]; exact nofun)
    rcases hcovers with heq | hmem
    · exact ⟨u, y, e, hy, hunfinished, hexec, heq⟩
    · exact ih e.stage (hn.older σ scope u y e hscope hu hy hexec)
        (ha.epoch u y e hy hunfinished hexec) hmem

/-- Lanes that keep what is alive keep the order of the leases. -/
theorem Upwards.of_slots {h : Nat} {blocked : List Nat} (hup : s.Upwards h blocked)
    (hslots : ∀ lane' ∈ s'.pool.slots, ∃ lane ∈ s.pool.slots, ∀ b ∈ blocked,
      lane.owns b = true → lane'.owns b = true) : s'.Upwards h blocked := by
  rcases hup with hnil | ⟨hlanes, hlt⟩
  · exact Or.inl hnil
  · refine Or.inr ⟨fun lane' hlane' => ?_, hlt⟩
    obtain ⟨lane, hlane, hkeeps⟩ := hslots lane' hlane'
    obtain ⟨b, hb, howns⟩ := hlanes lane hlane
    exact ⟨b, hb, hkeeps b hb howns⟩

/-- A pool that has acquired a lease, seen from the leases before. -/
theorem LaneInv.of_acquired (hn : LaneInv count s) (hl : Lineage count s) {pool : CarrierPool}
    {lease σ h : Nat} {blocked : List Nat} (hacquired : CarrierPool.Acquired s.pool lease pool)
    (hpool : s'.pool = pool) (hepoch : s.epoch σ = some (.stage h blocked)) :
    s'.Upwards h blocked ∧ (blocked = [] → count = 0 ∨ s'.pool.slotOf h ≤ count) := by
  constructor
  · refine (hn.upwards σ h blocked hepoch).of_slots fun lane' hlane' => ?_
    rw [hpool] at hlane'
    obtain ⟨lane, hlane, hkeeps⟩ := hacquired.slots lane' hlane'
    exact ⟨lane, hlane, fun b _ => hkeeps b⟩
  · rintro rfl
    rw [hpool, hacquired.slotOf h ((hl.epochs σ _ hepoch).lease h [] rfl).1.generation]
    exact hn.pool σ h hepoch

/-- What a new epoch has to be. -/
structure NewEpoch (count : Nat) (s s' : World) (σ : Nat) (epoch : Epoch) : Prop where
  opener : ∀ scope : StageScope, ∀ u, s.scopes[σ]? = some scope → scope.opener = some u →
    s.finished u = false
  upwards : ∀ h blocked, epoch = .stage h blocked → s'.Upwards h blocked
  pinned : ∀ h blocked, epoch = .stage h blocked → s'.pool.acceptsPinned h = true
  pool : ∀ h, epoch = .stage h [] → count = 0 ∨ s'.pool.slotOf h ≤ count
  blocked : ∀ h blocked b, epoch = .stage h blocked → b ∈ blocked →
    ∃ scope u y e, s.scopes[σ]? = some scope ∧ scope.opener = some u ∧
      s.works[u]? = some y ∧ y.execution = some e ∧ e.Covers b

/-- The invariant after a step that opens no scope and finishes nothing. -/
theorem LaneInv.of_grows (hn : LaneInv count s) (hl : Lineage count s) (hg : Grows s s')
    (hscopes : s'.scopes = s.scopes) (hfinished : s'.finished = s.finished)
    (hpool : ∀ σ h blocked, s.epoch σ = some (.stage h blocked) →
      s'.Upwards h blocked ∧ s'.pool.acceptsPinned h = true ∧
        (blocked = [] → count = 0 ∨ s'.pool.slotOf h ≤ count))
    (hepochs : ∀ σ epoch, s'.epoch σ = some epoch →
      s.epoch σ = some epoch ∨ NewEpoch count s s' σ epoch) : LaneInv count s' where
  upwards σ h blocked he :=
    (hepochs σ _ he).elim (fun hold => (hpool σ h blocked hold).1) fun hnew =>
      hnew.upwards h blocked rfl
  pinned σ h blocked he :=
    (hepochs σ _ he).elim (fun hold => (hpool σ h blocked hold).2.1) fun hnew =>
      hnew.pinned h blocked rfl
  pool σ h he :=
    (hepochs σ _ he).elim (fun hold => (hpool σ h [] hold).2.2 rfl) fun hnew => hnew.pool h rfl
  opener σ scope u hscope hu he := by
    rw [hscopes] at hscope
    rw [hfinished]
    obtain ⟨epoch, hepoch⟩ := Option.ne_none_iff_exists'.mp he
    rcases hepochs σ epoch hepoch with hold | hnew
    · exact hn.opener σ scope u hscope hu (by rw [hold]; exact nofun)
    · exact hnew.opener scope u hscope hu
  blocked σ h blocked b he hb := by
    have hfound : ∃ scope u y e, s.scopes[σ]? = some scope ∧ scope.opener = some u ∧
        s.works[u]? = some y ∧ y.execution = some e ∧ e.Covers b := by
      rcases hepochs σ _ he with hold | hnew
      · exact hn.blocked σ h blocked b hold hb
      · exact hnew.blocked h blocked b rfl hb
    obtain ⟨scope, u, y, e, hscope, hu, hy, hexec⟩ := hfound
    exact ⟨scope, u, y, e, hg.scopes σ scope hscope, hu, hg.works u y hy, hexec⟩
  older σ scope u y e hscope hu hy hexec := by
    rw [hscopes] at hscope
    obtain ⟨y₀, hy₀⟩ := hl.opener σ scope hscope u hu
    rw [hg.works u y₀ hy₀] at hy
    cases hy
    exact hn.older σ scope u _ e hscope hu hy₀ hexec

/-- The pool stays as it is. -/
theorem LaneInv.same_pool (hn : LaneInv count s) (hpool : s'.pool = s.pool) {σ h : Nat}
    {blocked : List Nat} (hepoch : s.epoch σ = some (.stage h blocked)) :
    s'.Upwards h blocked ∧ s'.pool.acceptsPinned h = true ∧
      (blocked = [] → count = 0 ∨ s'.pool.slotOf h ≤ count) := by
  unfold Upwards
  rw [hpool]
  refine ⟨hn.upwards σ h blocked hepoch, hn.pinned σ h blocked hepoch, ?_⟩
  rintro rfl
  exact hn.pool σ h hepoch

/-- No lane of the pool is free for nothing blocked unless there is none. -/
theorem count_eq_zero (hl : Lineage count s) {sync : Bool}
    (h : ∀ lane ∈ s.pool.slots, CarrierPool.excludes sync none [] lane = true) : count = 0 := by
  cases hslots : s.pool.slots with
  | nil =>
    rw [← hl.pool.length, hslots]
    rfl
  | cons lane lanes =>
    have hlane := h lane (hslots ▸ List.mem_cons_self)
    simp [CarrierPool.excludes, CarrierLane.ownsAny] at hlane

/-- **A new lease goes upwards.** -/
theorem Leased.newEpoch (hn : LaneInv count s) (hi : NestInv count s) {i σ lease : Nat}
    {x : ScopedWork} {scope : StageScope} {sync : Bool} {blocked : List Nat} {pool : CarrierPool}
    (h : Leased count s x sync lease blocked pool) (hx : s.works[i]? = some x)
    (hunfinished : s.finished i = false) (hscope : s.scopes[σ]? = some scope)
    (hopener : scope.opener = some i) (hpool : s'.pool = pool)
    (hpinned : pool.acceptsPinned lease = true)
    (hcross : ∀ e, sync = true → x.execution = some e → x.loop = some (.carrier e.generation) →
      ∀ lane ∈ s.pool.slots,
        CarrierPool.excludes true (some e.generation) e.blockedGenerationIds lane = true) :
    NewEpoch count s s' σ (.stage lease blocked) := by
  have hop : ∀ scope' : StageScope, ∀ u, s.scopes[σ]? = some scope' → scope'.opener = some u →
      s.finished u = false := by
    intro scope' u hscope' hu
    rw [hscope] at hscope'
    cases hscope'
    rw [hopener] at hu
    cases hu
    exact hunfinished
  have hcovered : ∀ e b, x.execution = some e → e.Covers b →
      ∃ scope u y d, s.scopes[σ]? = some scope ∧ scope.opener = some u ∧
        s.works[u]? = some y ∧ y.execution = some d ∧ d.Covers b :=
    fun e b he hb => ⟨scope, i, x, e, hscope, hopener, hx, he, hb⟩
  rw [← hpool] at hpinned
  cases h.source with
  | @inherited e hexec hgeneration =>
    subst hgeneration
    have hepoch := hi.alive.epoch i x e hx hunfinished hexec
    obtain ⟨hup, hslot⟩ := hn.of_acquired hi.lineage h.acquired hpool hepoch
    refine ⟨hop, fun k B heq => ?_, fun k B heq => ?_, fun k heq => ?_, fun k B b heq hb => ?_⟩
    · cases heq
      exact hup
    · cases heq
      exact hpinned
    · injection heq with hk hB
      subst hk
      exact hslot hB
    · cases heq
      exact hcovered e b hexec (Or.inr hb)
  | @avoided e _ hsync hexec hloop htakes =>
    have hexcluded := hcross e hsync hexec hloop
    have hepoch := hi.alive.epoch i x e hx hunfinished hexec
    have hok := ((hi.lineage.works i x hx).execution e hexec).1
    refine ⟨hop, fun k B heq => ?_, fun k B heq => ?_, fun k heq => (by cases heq),
      fun k B b heq hb => ?_⟩
    · cases heq
      rcases htakes with ⟨lane, hlane, hfree, -⟩ | ⟨-, hfresh, -⟩
      · rw [hexcluded lane hlane] at hfree
        cases hfree
      · -- a new escape lane: later than everything, and every lane of the pool is excluded
        refine Or.inr ⟨fun lane' hlane' => ?_, fun b hb => ?_⟩
        · rw [hpool] at hlane'
          obtain ⟨lane, hlane, hkeeps⟩ := h.acquired.slots lane' hlane'
          have hlane := hexcluded lane hlane
          simp only [CarrierPool.excludes, Bool.true_and, Option.any_some, Bool.or_eq_true] at hlane
          rcases hlane with hblocked | howns
          · obtain ⟨b, hb, howns⟩ := List.any_eq_true.mp hblocked
            exact ⟨b, List.mem_cons_of_mem _ hb, hkeeps b howns⟩
          · exact ⟨e.generation, List.mem_cons_self, hkeeps _ howns⟩
        · rw [hfresh]
          rcases List.mem_cons.mp hb with rfl | hb
          · exact Nat.lt_succ_of_le hok.generation
          · exact Nat.lt_succ_of_le (hok.blocked b hb)
    · cases heq
      exact hpinned
    · cases heq
      rcases List.mem_cons.mp hb with rfl | hb
      · exact hcovered e _ hexec (Or.inl rfl)
      · exact hcovered e b hexec (Or.inr hb)
  | outside hexec htakes =>
    refine ⟨hop, fun k B heq => ?_, fun k B heq => ?_, fun k heq => ?_, fun k B b heq hb => ?_⟩
    · cases heq
      exact Or.inl rfl
    · cases heq
      exact hpinned
    · cases heq
      rcases htakes with ⟨lane, hlane, -, -, hslot⟩ | ⟨hexcluded, -⟩
      · rw [hpool, hslot]
        exact Or.inr (hi.lineage.pool.slotIds lane hlane)
      · exact Or.inl (count_eq_zero hi.lineage hexcluded)
    · cases heq
      cases hb

/-! ## 4. Steps -/

theorem LaneInv.start (hn : LaneInv count s) (hl : Lineage count s) (x : ScopedWork) :
    LaneInv count (s.start x) :=
  hn.of_grows hl (grows_start s x) rfl rfl (fun _ _ _ h => hn.same_pool rfl h)
    fun _ _ h => Or.inl h

theorem LaneInv.addWork (hn : LaneInv count s) (hl : Lineage count s) {σ : Nat} {epoch : Epoch}
    {pool : CarrierPool} {y : ScopedWork}
    (hcounter : s.pool.generationCounter ≤ pool.generationCounter)
    (hpool : ∀ τ h blocked, s.epoch τ = some (.stage h blocked) →
      (s.addWork σ epoch pool y).Upwards h blocked ∧ pool.acceptsPinned h = true ∧
        (blocked = [] → count = 0 ∨ pool.slotOf h ≤ count))
    (hepoch : s.epoch σ = some epoch ∨
      NewEpoch count s (s.addWork σ epoch pool y) σ epoch) :
    LaneInv count (s.addWork σ epoch pool y) := by
  refine hn.of_grows hl (grows_addWork hcounter σ epoch y) rfl rfl hpool fun τ epoch' hτ => ?_
  by_cases hne : τ = σ
  · subst hne
    rw [show (s.addWork τ epoch pool y).epoch τ = some epoch from Function.update_self _ _ _] at hτ
    cases hτ
    exact hepoch
  · rw [show (s.addWork σ epoch pool y).epoch τ = s.epoch τ from Function.update_of_ne hne _ _] at hτ
    exact Or.inl hτ

/-- The leases before, in a pool that is the same or has acquired one. -/
theorem LaneInv.keep (hn : LaneInv count s) (hl : Lineage count s) {pool : CarrierPool}
    (hpool : s'.pool = pool)
    (hcases : pool = s.pool ∨ ∃ x sync lease blocked, Leased count s x sync lease blocked pool)
    {τ h : Nat} {blocked : List Nat} (hτ : s.epoch τ = some (.stage h blocked)) :
    s'.Upwards h blocked ∧ s'.pool.acceptsPinned h = true ∧
      (blocked = [] → count = 0 ∨ s'.pool.slotOf h ≤ count) := by
  rcases hcases with rfl | ⟨x, sync, lease, B, hleased⟩
  · exact hn.same_pool hpool hτ
  · obtain ⟨hup, hslot⟩ := hn.of_acquired hl hleased.acquired hpool hτ
    refine ⟨hup, ?_, hslot⟩
    rw [hpool]
    exact hleased.pinned hl (hn.pinned τ h blocked hτ)

theorem crossesLanes_eq {i σ : Nat} {x : ScopedWork} {scope : StageScope}
    {e : CarrierExecution} (hx : s.works[i]? = some x) (hscope : s.scopes[σ]? = some scope)
    (hexec : x.execution = some e) :
    s.crossesLanes (.go i σ) = true ↔ s.epoch σ = none ∧ scope.contextMode = .sync ∧
      x.loop = some (.carrier e.generation) ∧ ∃ lane ∈ s.pool.slots,
        CarrierPool.excludes true (some e.generation) e.blockedGenerationIds lane = false := by
  simp only [crossesLanes, hx, hscope, hexec, Option.any_some, Bool.and_eq_true,
    Option.isNone_iff_eq_none, decide_eq_true_eq, List.any_eq_true, Bool.not_eq_true', and_assoc]

theorem LaneInv.go (hn : LaneInv count s) (hi : NestInv count s) {i σ : Nat}
    (hok : s.crossesLanes (.go i σ) = false) (h : s.go i σ = some s') : LaneInv count s' := by
  obtain ⟨x, scope, hx, hscope, hruns, hopener, rfl⟩ := go_spec h
  have hunfinished := (runs_eq_true hruns).1
  unfold World.submit
  generalize hresolve : s.resolveBackend x σ scope = resolved
  obtain ⟨epoch, pool⟩ := resolved
  have hresolved := resolveBackend_spec hi.lineage hi.alive hx hruns hresolve
  have hcounter := (hresolved.pool_inv hi.lineage).2
  have hcases : pool = s.pool ∨
      ∃ x sync lease blocked, Leased count s x sync lease blocked pool := by
    cases hresolved with
    | bound => exact Or.inl rfl
    | caller => exact Or.inl rfl
    | lease _ _ hleased => exact Or.inr ⟨_, _, _, _, hleased⟩
  cases epoch with
  | stage lease blocked =>
    dsimp only
    split
    · rename_i hpinned
      refine hn.addWork hi.lineage hcounter (fun _ _ _ hτ => hn.keep hi.lineage rfl hcases hτ) ?_
      cases hresolved with
      | bound hbound => exact Or.inl hbound
      | lease hnone _ hleased =>
        refine Or.inr (hleased.newEpoch hn hi hx hunfinished hscope hopener rfl hpinned ?_)
        intro e hsync hexec hloop lane hlane
        by_contra hfree
        rw [Bool.not_eq_true] at hfree
        rw [(crossesLanes_eq hx hscope hexec).mpr
          ⟨hnone, of_decide_eq_true hsync, hloop, lane, hlane, hfree⟩] at hok
        cases hok
    · exact hn.of_grows hi.lineage ⟨fun _ _ h => h, fun _ _ h => h, hcounter⟩ rfl rfl
        (fun _ _ _ hτ => hn.keep hi.lineage rfl hcases hτ) fun _ _ h => Or.inl h
  | caller l =>
    refine hn.addWork hi.lineage hcounter (fun _ _ _ hτ => hn.keep hi.lineage rfl hcases hτ)
      (Or.inr ⟨fun scope' u hscope' hu => ?_, nofun, nofun, nofun, nofun⟩)
    rw [hscope] at hscope'
    cases hscope'
    rw [hopener] at hu
    cases hu
    exact hunfinished

theorem LaneInv.lateCallback (hn : LaneInv count s) (hi : NestInv count s) {r : Nat}
    {sync : Bool} (h : s.lateCallback r sync = some s') : LaneInv count s' := by
  obtain ⟨x, σ, i, registrant, scope, hx, -, hσ, hp, hregistrant, hscope, hopener, hruns, -,
    hcases⟩ := lateCallback_spec hi.lineage hi.alive h
  have hunfinished := (runs_eq_true hruns).1
  have hnewOpener : ∀ scope' : StageScope, ∀ u, s.scopes[σ]? = some scope' →
      scope'.opener = some u → s.finished u = false := by
    intro scope' u hscope' hu
    rw [hscope] at hscope'
    cases hscope'
    rw [hopener] at hu
    cases hu
    exact hunfinished
  have hkept : ∀ {lease : Nat} {blocked : List Nat} {pool : CarrierPool},
      LateResolved count s registrant x σ (.stage lease blocked) pool →
      s.pool.generationCounter ≤ pool.generationCounter ∧ (pool = s.pool ∨
        ∃ x sync lease blocked, Leased count s x sync lease blocked pool) := by
    intro lease blocked pool hlate
    cases hlate with
    | bound => exact ⟨Nat.le_refl _, Or.inl rfl⟩
    | reopened _ _ hleased => exact ⟨hleased.acquired.counter, Or.inr ⟨_, _, _, _, hleased⟩⟩
  rcases hcases with ⟨lease, blocked, pool, hlate, ⟨hpinned, rfl⟩ | ⟨-, rfl⟩⟩ | ⟨l, hlate, rfl⟩
  · obtain ⟨hcounter, hpool⟩ := hkept hlate
    refine hn.addWork hi.lineage hcounter (fun _ _ _ hτ => hn.keep hi.lineage rfl hpool hτ) ?_
    cases hlate with
    | bound hbound => exact Or.inl hbound
    | reopened _ _ hleased =>
      exact Or.inr (hleased.newEpoch hn hi hregistrant hunfinished hscope hopener rfl hpinned
        fun e hsync => (by cases hsync))
  · obtain ⟨hcounter, hpool⟩ := hkept hlate
    exact hn.of_grows hi.lineage ⟨fun _ _ h => h, fun _ _ h => h, hcounter⟩ rfl rfl
      (fun _ _ _ hτ => hn.keep hi.lineage rfl hpool hτ) fun _ _ h => Or.inl h
  · exact hn.addWork hi.lineage (Nat.le_refl _) (fun _ _ _ hτ => hn.same_pool rfl hτ)
      (Or.inr ⟨hnewOpener, nofun, nofun, nofun, nofun⟩)

theorem LaneInv.enter (hn : LaneInv count s) (hl : Lineage count s) {i : Nat} {x : ScopedWork}
    (hx : s.works[i]? = some x) {backendMode : BackendMode} {contextMode : ContextMode} :
    LaneInv count (s.enter ⟨some i, backendMode, contextMode⟩) where
  upwards := hn.upwards
  pinned := hn.pinned
  pool := hn.pool
  opener σ scope u hscope hu he := by
    rcases getElem?_append_cases hscope with ⟨rfl, -⟩ | hscope
    · obtain ⟨epoch, hepoch⟩ := Option.ne_none_iff_exists'.mp he
      exact absurd (hl.epochs _ epoch hepoch).scope (Nat.lt_irrefl _)
    · exact hn.opener σ scope u hscope hu he
  blocked σ h blocked b he hb := by
    obtain ⟨scope, u, y, e, hscope, hrest⟩ := hn.blocked σ h blocked b he hb
    exact ⟨scope, u, y, e, (grows_enter s _).scopes σ scope hscope, hrest⟩
  older σ scope u y e hscope hu hy hexec := by
    rcases getElem?_append_cases hscope with ⟨rfl, rfl⟩ | hscope
    · cases hu
      rw [show (s.enter _).works[i]? = some x from hx] at hy
      cases hy
      exact ((hl.works i x hx).execution e hexec).2
    · exact hn.older σ scope u y e hscope hu hy hexec

/-- The pool seals what is not reserved. -/
theorem LaneInv.sealUnused (hn : LaneInv count s) (hl : Lineage count s) :
    LaneInv count s.sealUnused where
  upwards := hn.upwards
  pinned σ h blocked he := by
    have hpinned := (CarrierPool.acceptsPinned_iff hl.pool).mp (hn.pinned σ h blocked he)
    refine (CarrierPool.acceptsPinned_iff hl.sealUnused.pool).mpr ⟨hpinned.1, ?_⟩
    show (s.pool.admits h && decide (0 < s.reservations h)) = true
    rw [hpinned.2, decide_eq_true (reservations_pos (hl.epochs σ _ he).scope he)]
    rfl
  pool := hn.pool
  opener := hn.opener
  blocked := hn.blocked
  older := hn.older

theorem LaneInv.finish (hn : LaneInv count s) (hi : NestInv count s) {i : Nat}
    (h : s.finish i = some s') : LaneInv count s' := by
  obtain ⟨x, hx, -, hscopes, -, rfl⟩ := finish_spec h
  refine LaneInv.sealUnused (s := { s with finished := Function.update s.finished i true })
    ⟨hn.upwards, hn.pinned, hn.pool, fun σ scope u hscope hu he => ?_, hn.blocked, hn.older⟩
    (hi.lineage.of_same hi.lineage.pool (Nat.le_refl _) rfl rfl (fun _ _ h => h)
      fun _ _ h => Or.inl h)
  have hne : u ≠ i := by
    rintro rfl
    exact he (hscopes σ scope hscope hu)
  exact (Function.update_of_ne hne _ _).trans (hn.opener σ scope u hscope hu he)

theorem LaneInv.settle (hn : LaneInv count s) (hi : NestInv count s) {σ : Nat}
    (h : s.settle σ = some s') : LaneInv count s' := by
  obtain ⟨-, rfl⟩ := settle_spec h
  refine LaneInv.sealUnused (s := { s with epoch := Function.update s.epoch σ none }) ?_ ?_
  · exact hn.of_grows hi.lineage ⟨fun _ _ h => h, fun _ _ h => h, Nat.le_refl _⟩ rfl rfl
      (fun _ _ _ hτ => hn.same_pool rfl hτ) fun _ _ hτ => Or.inl (epoch_of_settled hτ)
  · exact hi.lineage.of_same hi.lineage.pool (Nat.le_refl _) rfl rfl
      (fun _ _ => epoch_of_settled) fun _ _ h => Or.inl h

theorem LaneInv.close (hn : LaneInv count s) (hi : NestInv count s) {g : Nat}
    (h : s.close g = some s') : LaneInv count s' := by
  obtain ⟨hsealed, rfl⟩ := close_spec h
  -- what is alive or leased still admits, so it is not the one that closes
  have hother : ∀ k, s.pool.acceptsPinned k = true → k ≠ g := by
    rintro k hk rfl
    exact nomatch hsealed.symm.trans ((CarrierPool.acceptsPinned_iff hi.lineage.pool).mp hk).2
  have hpool := CarrierPool.closeGeneration_inv hi.lineage.pool g s.reservations
  refine hn.of_grows hi.lineage ⟨fun _ _ h => h, fun _ _ h => h, Nat.le_refl _⟩ rfl rfl
    (fun σ h blocked hσ => ⟨?_, ?_, ?_⟩) fun _ _ h => Or.inl h
  · refine (hn.upwards σ h blocked hσ).of_slots fun lane' hlane' => ?_
    obtain ⟨lane, hlane, rfl⟩ := List.mem_map.mp hlane'
    refine ⟨lane, hlane, fun b hb howns => CarrierPool.owns_closeLane ?_ howns⟩
    obtain ⟨i, x, e, hx, hunfinished, hexec, rfl⟩ := hn.alive hi.alive hσ hb
    exact hother _ (hi.alive.pinned i x e hx hunfinished hexec)
  · have hpinned := hn.pinned σ h blocked hσ
    obtain ⟨howned, hadmits⟩ := (CarrierPool.acceptsPinned_iff hi.lineage.pool).mp hpinned
    exact (CarrierPool.acceptsPinned_iff hpool).mpr
      ⟨howned.closeGeneration (hother h hpinned) _, CarrierPool.admits_closeGeneration hadmits
        (reservations_pos (hi.lineage.epochs σ _ hσ).scope hσ)⟩
  · rintro rfl
    exact hn.pool σ h hσ

theorem LaneInv.step (hn : LaneInv count s) (hi : NestInv count s) {e : WorldEvent}
    (hok : s.crossesLanes e = false) (h : s.step e = some s') : LaneInv count s' := by
  cases e with
  | outside loop =>
    cases h
    exact hn.start hi.lineage _
  | openScope i backendMode contextMode =>
    obtain ⟨x, hx, -, rfl⟩ := openScope_spec h
    exact hn.enter hi.lineage hx
  | go i σ => exact hn.go hi hok h
  | spawn i =>
    obtain ⟨x, hx, -, rfl⟩ := spawn_spec h
    exact hn.start hi.lineage _
  | worker i =>
    obtain ⟨x, hx, -, rfl⟩ := worker_spec h
    exact hn.start hi.lineage _
  | callback r sync =>
    obtain ⟨x, i, registrant, -, -, -, -, -, rfl⟩ := callback_spec hi.lineage h
    exact hn.start hi.lineage _
  | lateCallback r sync => exact hn.lateCallback hi h
  | wait i σ =>
    obtain ⟨x, scope, -, -, -, -, -, rfl⟩ := wait_spec h
    exact ⟨hn.upwards, hn.pinned, hn.pool, hn.opener, hn.blocked, hn.older⟩
  | resume i =>
    rw [resume_spec h]
    exact ⟨hn.upwards, hn.pinned, hn.pool, hn.opener, hn.blocked, hn.older⟩
  | finish i => exact hn.finish hi h
  | settle σ => exact hn.settle hi h
  | close g => exact hn.close hi h

/-! ## 5. No wait cycle -/

theorem laneInv_init (count : Nat) : LaneInv count { pool := .ofCount count } where
  upwards σ h blocked he := by cases he
  pinned σ h blocked he := by cases he
  pool σ h he := by cases he
  opener σ scope u hscope := by cases hscope
  blocked σ h blocked b he := by cases he
  older σ scope u y e hscope := by cases hscope

theorem reachUnder_laneInv
    (h : (nestingSystem count).ReachUnder
      (fun s e => s.reopensOnLoop e = false ∧ s.crossesLanes e = false) s) :
    NestInv count s ∧ Blocks s ∧ LaneInv count s := by
  induction h with
  | init hs =>
    cases hs
    exact ⟨nestInv_init count [] nofun, blocks_init count, laneInv_init count⟩
  | step _ hok hstep ih =>
    obtain ⟨hi, hb, hn⟩ := ih
    exact ⟨hi.step hstep, hb.step hi hok.1 hstep, hn.step hi hok.2 hstep⟩

/-- An edge leads to a later generation. -/
theorem BoundEdge.lt (hb : Blocks s) (hn : LaneInv count s) {g h : Nat}
    (hedge : s.BoundEdge g h) : g < h := by
  obtain ⟨σ, blocked, hopens, hepoch⟩ := hedge
  have hmem := hb.epochs σ h blocked g hepoch hopens
  rcases hn.upwards σ h blocked hepoch with rfl | ⟨-, hlt⟩
  · cases hmem
  · exact hlt g hmem

/-- Where the graph grows upwards, no step closes a circle. -/
theorem not_closesCircle (hi : NestInv count s) (hb : Blocks s) (hn : LaneInv count s)
    {e : WorldEvent} (hreopens : s.reopensOnLoop e = false) (hcrosses : s.crossesLanes e = false)
    (h : s.step e = some s') : ¬ s.ClosesCircle e := by
  rintro ⟨σ, g, k, hbinds, hopens, hback⟩
  have hr := step_rebinds hi h
  rw [hbinds] at hr
  have hlt : g < k :=
    (hr.adds hopens).1.lt (hb.step hi hreopens h) (hn.step hi hcrosses h)
  have hle : k ≤ g := Circles.le_of_leads (fun _ _ hedge => hedge.lt hb hn) hback
  omega

theorem reachUnder_upwards
    (h : (nestingSystem count).ReachUnder
      (fun s e => s.reopensOnLoop e = false ∧ s.crossesLanes e = false) s) :
    (nestingSystem count).ReachUnder (fun s e => ¬ s.ClosesCircle e) s := by
  induction h with
  | init hs => exact .init hs
  | step hreach hok hstep ih =>
    obtain ⟨hi, hb, hn⟩ := reachUnder_laneInv hreach
    exact .step ih (not_closesCircle hi hb hn hok.1 hok.2 hstep) hstep

/-- The only lane of a pool of one is never free for a `with` scope on a carrier loop. -/
theorem not_crossesLanes_of_one {s : World} (hi : NestInv 1 s) (hn : LaneInv 1 s)
    {e : WorldEvent} {s' : World} (hstep : s.step e = some s') : s.crossesLanes e = false := by
  cases e with
  | go i σ =>
    obtain ⟨x, scope, hx, hscope, hruns, -, -⟩ := go_spec hstep
    cases hexec : x.execution with
    | none =>
      simp only [crossesLanes, hx, hscope, hexec, Option.any_none, Bool.and_false]
    | some e =>
      by_contra hcross
      rw [Bool.not_eq_false, crossesLanes_eq hx hscope hexec] at hcross
      obtain ⟨-, -, -, lane, hlane, hfree⟩ := hcross
      have hepoch := hi.alive.epoch i x e hx (runs_eq_true hruns).1 hexec
      simp only [CarrierPool.excludes, Bool.true_and, Option.any_some,
        Bool.or_eq_false_iff] at hfree
      rcases hn.upwards _ _ _ hepoch with hnil | ⟨hlanes, -⟩
      · -- nothing is blocked: the generation is on the only lane
        have hpinned := hn.pinned _ _ _ hepoch
        obtain ⟨⟨own, hown, howns⟩, -⟩ := (CarrierPool.acceptsPinned_iff hi.lineage.pool).mp hpinned
        rw [hnil] at hepoch
        have hslot := (hn.pool _ _ hepoch).resolve_left (by decide)
        rw [hi.lineage.pool.slotOf own hown _ howns] at hslot
        have hin : own ∈ s.pool.slots := by
          rcases CarrierPool.mem_lanes.mp hown with h | h
          · exact h
          · exact absurd (hi.lineage.pool.escapeIds own h) (Nat.not_lt.mpr hslot)
        obtain ⟨only, hslots⟩ := List.length_eq_one_iff.mp hi.lineage.pool.length
        rw [hslots, List.mem_singleton] at hin hlane
        rw [hlane, ← hin, howns] at hfree
        exact absurd hfree.2 (by decide)
      · obtain ⟨b, hb, howns⟩ := hlanes lane hlane
        rw [CarrierLane.ownsAny, List.any_eq_true.mpr ⟨b, hb, howns⟩] at hfree
        exact absurd hfree.1 (by decide)
  | _ => rfl

/-- **No wait cycle.**  In every run in which no lease for a `with` scope of a coroutine on a
    carrier loop leads back to that loop, the wait-for graph has no cycle, and a step that takes
    such a lease closes a circle of bound scopes.  No lease leads back as long as no `with`
    scope takes a free lane of the pool or is reopened on its own loop; with one lane the former
    always holds. -/
theorem wait_graph_acyclic (count : Nat) (s : World) :
    ((nestingSystem count).ReachUnder (fun s e => ¬ s.ClosesCircle e) s → s.Acyclic) ∧
    (∀ s' e, (nestingSystem count).ReachUnder (fun s e => ¬ s.ClosesCircle e) s →
      s.ClosesCircle e → s.step e = some s' → ∃ g, Relation.TransGen s'.BoundEdge g g) ∧
    ((nestingSystem count).ReachUnder
        (fun s e => s.reopensOnLoop e = false ∧ s.crossesLanes e = false) s →
      (nestingSystem count).ReachUnder (fun s e => ¬ s.ClosesCircle e) s) ∧
    (count = 1 → (nestingSystem count).ReachUnder (fun s e => s.reopensOnLoop e = false) s →
      (nestingSystem count).ReachUnder (fun s e => ¬ s.ClosesCircle e) s) := by
  refine ⟨fun hreach => ?_, fun s' e hreach hcloses hstep => ?_, reachUnder_upwards,
    fun hone hreach => reachUnder_upwards ?_⟩
  · obtain ⟨hi, hfree⟩ := reachUnder_noCircle hreach
    exact hfree.mono fun g k hedge => hedge.bound hi.lineage
  · by_contra hnone
    exact circle_of_closesCircle (reachUnder_noCircle hreach).1 hcloses hstep
      fun g hcircle => hnone ⟨g, hcircle⟩
  · subst hone
    induction hreach with
    | init hs => exact .init hs
    | step _ hok hstep ih =>
      obtain ⟨hi, -, hn⟩ := reachUnder_laneInv ih
      exact .step ih ⟨hok, not_crossesLanes_of_one hi hn hstep⟩ hstep

/-- A coroutine on the loop of `h` has opened a `with` scope. -/
def opensAny (s : World) (h : Nat) : Bool :=
  s.scopes.any fun scope =>
    decide (scope.contextMode = .sync) &&
      (scope.opener.bind fun u => s.works[u]?).any fun y => decide (y.loop = some (.carrier h))

theorem OpensOn.any {σ h : Nat} (hopens : s.OpensOn σ h) : s.opensAny h = true := by
  obtain ⟨scope, u, y, hscope, hsync, hu, hy, hloop⟩ := hopens
  refine List.any_eq_true.mpr ⟨scope, List.mem_of_getElem? hscope, ?_⟩
  rw [hsync, hu, Option.bind_some, hy, Option.any_some, hloop]
  simp

/-- A lease on a loop without `with` scopes closes no circle. -/
theorem not_closesCircle_of_unopened {e : WorldEvent}
    (h : (s.binds e).all (fun lease => !s.opensAny lease.2) = true) : ¬ s.ClosesCircle e := by
  rintro ⟨σ, g, k, hbinds, hopens, hback⟩
  rw [hbinds, Option.all_some, Bool.not_eq_true'] at h
  rcases hback.cases_head with rfl | ⟨m, ⟨τ, blocked, hopens', -⟩, -⟩
  · rw [hopens.any] at h
    cases h
  · rw [hopens'.any] at h
    cases h

/-- A coroutine in a `with` scope that takes the free lane of a pool of two; the work of that
    scope in a scope of its own, on an escape lane. -/
def chainedLanes : List WorldEvent :=
  [.outside none, .openScope 0 .auto .plain, .go 0 0, .openScope 1 .auto .sync, .go 1 1,
    .wait 1 1, .openScope 2 .auto .sync, .go 2 2, .wait 2 2]

theorem wait_graph_acyclic_chained :
    ∃ s, (nestingSystem 2).run { pool := .ofCount 2 } chainedLanes = some s ∧ s.WaitEdge 1 2 ∧
      s.WaitEdge 2 3 ∧ s.Acyclic := by
  have hend : ((nestingSystem 2).run { pool := .ofCount 2 } chainedLanes).any (fun s =>
      decide (s.works[1]? = some ⟨.root, some 0, some 0, some (.carrier 1), some ⟨1, [], 0⟩,
          some 0⟩ ∧
        s.works[2]? = some ⟨.root, some 1, some 1, some (.carrier 2), some ⟨2, [1], 1⟩, some 1⟩ ∧
        s.works[3]? = some ⟨.root, some 2, some 2, some (.carrier 3), some ⟨3, [2, 1], 2⟩,
          some 2⟩ ∧
        s.scopes[1]? = some ⟨some 1, .auto, .sync⟩ ∧ s.scopes[2]? = some ⟨some 2, .auto, .sync⟩ ∧
        s.epoch 1 = some (.stage 2 [1]) ∧ s.epoch 2 = some (.stage 3 [2, 1]) ∧
        s.waiting 1 = some (.scope 1) ∧ s.waiting 2 = some (.scope 2) ∧
        (∀ i < 4, s.finished i = false))) = true := by
    decide
  have hmeet : (nestingSystem 2).StepsMeet
      (fun s e => (s.binds e).all (fun lease => !s.opensAny lease.2) = true)
      { pool := .ofCount 2 } chainedLanes := by
    decide
  obtain ⟨s, hrun, hs⟩ := (Option.any_eq_true _ _).mp hend
  obtain ⟨h₁, h₂, h₃, hσ₁, hσ₂, he₁, he₂, hw₁, hw₂, hfree⟩ := of_decide_eq_true hs
  have hreach := (System.ReachUnder.init rfl).of_run hmeet hrun
  refine ⟨s, hrun, ?_, ?_, (wait_graph_acyclic 2 s).1
    (hreach.mono fun _ _ hok => not_closesCircle_of_unopened hok)⟩
  · exact ⟨1, _, 1, _, _, 2, _, h₁, hfree 1 (by decide), rfl, hw₁, hσ₁, rfl, he₁, h₂,
      hfree 2 (by decide), rfl⟩
  · exact ⟨2, _, 2, _, _, 3, _, h₂, hfree 2 (by decide), rfl, hw₂, hσ₂, rfl, he₂, h₃,
      hfree 3 (by decide), rfl⟩

/-- Two independent coroutines, one on each lane of a pool of two, each in a `with` scope. -/
def crossedLanes : List WorldEvent :=
  [.outside none, .openScope 0 .auto .plain, .go 0 0, .openScope 0 .auto .plain, .go 0 1,
    .openScope 1 .auto .sync, .openScope 2 .auto .sync, .go 1 2, .go 2 3, .wait 1 2, .wait 2 3]

/-- At the end of `crossedLanes` each loop is blocked in a scope leased on the other one. -/
theorem crossed_lanes_wait_for_each_other :
    ∃ s, (nestingSystem 2).run { pool := .ofCount 2 } crossedLanes = some s ∧
      (nestingSystem 2).Reachable s ∧ s.WaitEdge 1 2 ∧ s.WaitEdge 2 1 ∧ ¬ s.Acyclic := by
  have hend : ((nestingSystem 2).run { pool := .ofCount 2 } crossedLanes).any (fun s =>
      decide (s.works[1]? = some ⟨.root, some 0, some 0, some (.carrier 1), some ⟨1, [], 0⟩,
          some 0⟩ ∧
        s.works[2]? = some ⟨.root, some 0, some 1, some (.carrier 2), some ⟨2, [], 1⟩, some 1⟩ ∧
        s.works[3]? = some ⟨.root, some 1, some 2, some (.carrier 2), some ⟨2, [1], 2⟩, some 2⟩ ∧
        s.works[4]? = some ⟨.root, some 2, some 3, some (.carrier 1), some ⟨1, [2], 3⟩, some 3⟩ ∧
        s.scopes[2]? = some ⟨some 1, .auto, .sync⟩ ∧ s.scopes[3]? = some ⟨some 2, .auto, .sync⟩ ∧
        s.epoch 2 = some (.stage 2 [1]) ∧ s.epoch 3 = some (.stage 1 [2]) ∧
        s.waiting 1 = some (.scope 2) ∧ s.waiting 2 = some (.scope 3) ∧
        (∀ i < 5, s.finished i = false))) = true := by
    decide
  obtain ⟨s, hrun, hs⟩ := (Option.any_eq_true _ _).mp hend
  obtain ⟨h₁, h₂, h₃, h₄, hσ₂, hσ₃, he₂, he₃, hw₁, hw₂, hfree⟩ := of_decide_eq_true hs
  have hedge₁ : s.WaitEdge 1 2 :=
    ⟨1, _, 2, _, _, 3, _, h₁, hfree 1 (by decide), rfl, hw₁, hσ₂, rfl, he₂, h₃,
      hfree 3 (by decide), rfl⟩
  have hedge₂ : s.WaitEdge 2 1 :=
    ⟨2, _, 3, _, _, 4, _, h₂, hfree 2 (by decide), rfl, hw₂, hσ₃, rfl, he₃, h₄,
      hfree 4 (by decide), rfl⟩
  exact ⟨s, hrun, System.reachable_of_run crossedLanes rfl hrun, hedge₁, hedge₂,
    fun hacyclic => hacyclic 1 (.tail (.single hedge₁) hedge₂)⟩

end World

end AgentlyStage
