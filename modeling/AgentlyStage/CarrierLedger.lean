import AgentlyStage.CarrierSlot
import AgentlyStage.Lib.Counting

/-!
# The ledger of a carrier slot

Every reservation of a generation and every unit of pending work a slot holds has one
owner: a lease, a submission whose `_run_submission` has not run its `finally`, or a task
retained by the factory whose `_descendant_done` has not run.  This holds in every run.
It needs that nothing happens twice: a submission is started once, a task makes its first
step once, its done callback runs once (`Once`).
-/

namespace AgentlyStage

open Transition

namespace SlotState

variable {s s' : SlotState} {g k h n t : Nat}

/-! ## 1. What the queues hold -/

def reservations (s : SlotState) (g : Nat) : Nat := (s.generations g).reservations

def pendingWork (s : SlotState) (h : Nat) : Nat := (s.handles h).pendingWork

/-- How often a call waits on the way to a loop. -/
def queued (generation : Generation) : CarrierCall → Nat
  | .startSubmission n =>
    generation.pendingSubmissions.count n + generation.taken.count n +
      generation.ready.count (.startSubmission n)
  | call => generation.ready.count call

/-- The calls that are made once. -/
def madeOnce : CarrierCall → Bool
  | .startSubmission _ | .firstStep _ | .descendantDone _ => true
  | .cancelTasks _ | .setSeal => false

/-- A call that is still due on the loop of a generation. -/
def due (s : SlotState) (g : Nat) : CarrierCall → Bool
  | .startSubmission n =>
    s.submissions[n]?.any fun submission =>
      decide (submission.generation = g) && submission.rootTask.isNone
  | .firstStep t =>
    s.tasks[t]?.any fun task =>
      decide (task.generation = g) && !task.begun && !task.done
  | .descendantDone t =>
    s.tasks[t]?.any fun task =>
      decide (task.generation = g) && task.done && task.retained.isSome && !task.released
  | .cancelTasks _ | .setSeal => false

/-- Nothing is queued twice, or after it is done. -/
def Once (s : SlotState) : Prop :=
  ∀ g call, madeOnce call = true → queued (s.generations g) call ≤ (s.due g call).toNat

@[simp] theorem generations_setGeneration (s : SlotState) (g k : Nat) (G : Generation) :
    (s.setGeneration g G).generations k = if k = g then G else s.generations k :=
  Function.update_apply s.generations g G k

@[simp] theorem handles_setHandle (s : SlotState) (h k : Nat) (H : HandleWork) :
    (s.setHandle h H).handles k = if k = h then H else s.handles k :=
  Function.update_apply s.handles h H k

theorem queued_append (generation : Generation) (call d : CarrierCall) :
    queued { generation with ready := generation.ready ++ [call] } d =
      queued generation d + if d = call then 1 else 0 := by
  have hcount : ∀ e : CarrierCall, (generation.ready ++ [call]).count e =
      generation.ready.count e + if e = call then 1 else 0 := by
    intro e
    rw [List.count_append]
    by_cases he : e = call
    · simp [he]
    · simp [he, Ne.symm he]
  cases d with
  | startSubmission n =>
    simp only [queued, hcount]
    omega
  | firstStep _ | cancelTasks _ | descendantDone _ | setSeal => exact hcount _

theorem queued_pop {generation : Generation} {call : CarrierCall} {rest : List CarrierCall}
    (hready : generation.ready = call :: rest) (d : CarrierCall) :
    queued generation d =
      queued { generation with ready := rest } d + if d = call then 1 else 0 := by
  have hcount : ∀ e : CarrierCall, generation.ready.count e =
      rest.count e + if e = call then 1 else 0 := by
    intro e
    rw [hready, List.count_cons]
    by_cases he : e = call
    · simp [he]
    · simp [he, Ne.symm he]
  cases d with
  | startSubmission n =>
    simp only [queued, hcount]
    omega
  | firstStep _ | cancelTasks _ | descendantDone _ | setSeal => exact hcount _

/-! ## 2. Due calls -/

/-- A call depends on the entry it names. -/
theorem due_eq {call : CarrierCall}
    (hsub : ∀ m, call = .startSubmission m → s'.submissions[m]? = s.submissions[m]?)
    (htask : ∀ u, call = .firstStep u ∨ call = .descendantDone u → s'.tasks[u]? = s.tasks[u]?) :
    s'.due g call = s.due g call := by
  cases call with
  | startSubmission m => simp only [due, hsub m rfl]
  | firstStep u => simp only [due, htask u (Or.inl rfl)]
  | descendantDone u => simp only [due, htask u (Or.inr rfl)]
  | cancelTasks _ | setSeal => rfl

/-- The rule for `Once`: a call that is not settled by hand stays due and is not queued
    again. -/
theorem Once.of (ho : Once s)
    (hstep : ∀ k d, madeOnce d = true →
      queued (s'.generations k) d ≤ (s'.due k d).toNat ∨
        (queued (s'.generations k) d ≤ queued (s.generations k) d ∧
          s'.due k d = s.due k d)) : Once s' := by
  intro k d hd
  rcases hstep k d hd with hle | ⟨hle, hdue⟩
  · exact hle
  · rw [hdue]
    exact Nat.le_trans hle (ho k d hd)

theorem Once.congr (ho : Once s) (hsubs : s'.submissions = s.submissions)
    (htasks : s'.tasks = s.tasks)
    (hqueued : ∀ k d, madeOnce d = true →
      queued (s'.generations k) d ≤ queued (s.generations k) d) : Once s' := by
  apply ho.of
  intro k d hd
  exact Or.inr ⟨hqueued k d hd, due_eq (fun _ _ => by rw [hsubs]) (fun _ _ => by rw [htasks])⟩

/-- A queued call is due. -/
theorem Once.due_of_ready (ho : Once s) {call : CarrierCall} {rest : List CarrierCall}
    (hcall : madeOnce call = true) (hready : (s.generations g).ready = call :: rest) :
    s.due g call = true ∧ queued { s.generations g with ready := rest } call = 0 := by
  have hle := ho g call hcall
  rw [queued_pop hready, if_pos rfl] at hle
  cases hdue : s.due g call with
  | false =>
    rw [hdue] at hle
    exact absurd hle (by simp)
  | true =>
    rw [hdue] at hle
    exact ⟨rfl, by simpa using hle⟩

/-- A call that is due nowhere is queued nowhere. -/
theorem Once.queued_eq_zero (ho : Once s) {call : CarrierCall} (hcall : madeOnce call = true)
    (hdue : s.due g call = false) : queued (s.generations g) call = 0 := by
  have hle := ho g call hcall
  rw [hdue] at hle
  exact Nat.le_zero.mp hle

/-! ## 3. Roots -/

/-- A submission and its root task know each other, and its `finally` runs in the last
    step of that task. -/
structure Roots (s : SlotState) : Prop where
  of_root : ∀ (t : Nat) (task : CarrierTask) (n : Nat), s.tasks[t]? = some task →
    task.root = some n → ∃ submission, s.submissions[n]? = some submission ∧
      submission.rootTask = some t ∧ submission.generation = task.generation
  of_submission : ∀ (n : Nat) (submission : Submission) (t : Nat),
    s.submissions[n]? = some submission → submission.rootTask = some t →
    ∃ task, s.tasks[t]? = some task ∧ task.root = some n
  released_done : ∀ (n : Nat) (submission : Submission),
    s.submissions[n]? = some submission → submission.released = true →
    ∃ t task, submission.rootTask = some t ∧ s.tasks[t]? = some task ∧ task.done = true

theorem Roots.congr (hr : Roots s) (hsubs : s'.submissions = s.submissions)
    (htasks : s'.tasks = s.tasks) : Roots s' := by
  constructor
  · rw [hsubs, htasks]
    exact hr.of_root
  · rw [hsubs, htasks]
    exact hr.of_submission
  · rw [hsubs, htasks]
    exact hr.released_done

/-- Rewriting a task keeps the roots when the task stays what it is. -/
theorem Roots.set_task (hr : Roots s) {task task' : CarrierTask}
    (ht : s.tasks[t]? = some task) (htasks : s'.tasks = s.tasks.set t task')
    (hsubs : s'.submissions = s.submissions) (hroot : task'.root = task.root)
    (hgen : task'.generation = task.generation)
    (hdone : task.done = true → task'.done = true) : Roots s' := by
  have hget : ∀ (u : Nat) (task₁ : CarrierTask), s.tasks[u]? = some task₁ →
      ∃ task₂ : CarrierTask, s'.tasks[u]? = some task₂ ∧ task₂.root = task₁.root ∧
        (task₁.done = true → task₂.done = true) := by
    intro u task₁ hu
    rw [htasks]
    by_cases hut : u = t
    · subst hut
      obtain rfl : task = task₁ := Option.some.inj (ht.symm.trans hu)
      exact ⟨task', getElem?_set_self' ht, hroot, hdone⟩
    · exact ⟨task₁, by rw [List.getElem?_set_ne (Ne.symm hut), hu], rfl, fun hd => hd⟩
  constructor
  · intro u task₂ n hu hn
    rw [htasks] at hu
    rw [hsubs]
    rcases getElem?_set_cases ht hu with ⟨rfl, rfl⟩ | ⟨-, hu⟩
    · rw [hgen]
      exact hr.of_root u task n ht (hroot ▸ hn)
    · exact hr.of_root u task₂ n hu hn
  · intro n submission u hn hu
    rw [hsubs] at hn
    obtain ⟨task₁, h₁, hn₁⟩ := hr.of_submission n submission u hn hu
    obtain ⟨task₂, h₂, hroot₂, -⟩ := hget u task₁ h₁
    exact ⟨task₂, h₂, hroot₂.trans hn₁⟩
  · intro n submission hn hreleased
    rw [hsubs] at hn
    obtain ⟨u, task₁, hu, h₁, hd₁⟩ := hr.released_done n submission hn hreleased
    obtain ⟨task₂, h₂, -, hd₂⟩ := hget u task₁ h₁
    exact ⟨u, task₂, hu, h₂, hd₂ hd₁⟩

/-- Rewriting a submission keeps the roots when its root task stays and its `finally` has
    not run. -/
theorem Roots.set_submission (hr : Roots s) {submission submission' : Submission}
    (hn : s.submissions[n]? = some submission)
    (hsubs : s'.submissions = s.submissions.set n submission') (htasks : s'.tasks = s.tasks)
    (hroot : submission'.rootTask = submission.rootTask)
    (hgen : submission'.generation = submission.generation)
    (hreleased : submission'.released = submission.released) : Roots s' := by
  constructor
  · intro u task m hu hm
    rw [htasks] at hu
    obtain ⟨submission₁, h₁, hroot₁, hgen₁⟩ := hr.of_root u task m hu hm
    rw [hsubs]
    by_cases hmn : m = n
    · subst hmn
      obtain rfl : submission = submission₁ := Option.some.inj (hn.symm.trans h₁)
      exact ⟨submission', getElem?_set_self' hn, hroot.trans hroot₁, hgen.trans hgen₁⟩
    · exact ⟨submission₁, by rw [List.getElem?_set_ne (Ne.symm hmn), h₁], hroot₁, hgen₁⟩
  · intro m submission₂ u hm hu
    rw [hsubs] at hm
    rw [htasks]
    rcases getElem?_set_cases hn hm with ⟨rfl, rfl⟩ | ⟨-, hm⟩
    · exact hr.of_submission m submission u hn (hroot ▸ hu)
    · exact hr.of_submission m submission₂ u hm hu
  · intro m submission₂ hm hrel
    rw [hsubs] at hm
    rw [htasks]
    rcases getElem?_set_cases hn hm with ⟨rfl, rfl⟩ | ⟨-, hm⟩
    · rw [hroot]
      exact hr.released_done m submission hn (hreleased ▸ hrel)
    · exact hr.released_done m submission₂ hm hrel

/-- A new submission, without a root task yet. -/
theorem Roots.append_submission (hr : Roots s) {submission : Submission}
    (hroot : submission.rootTask = none) (hreleased : submission.released = false)
    (hsubs : s'.submissions = s.submissions ++ [submission]) (htasks : s'.tasks = s.tasks) :
    Roots s' := by
  constructor
  · intro u task m hu hm
    rw [htasks] at hu
    obtain ⟨submission₁, h₁, hrest⟩ := hr.of_root u task m hu hm
    have hlt := (List.getElem?_eq_some_iff.mp h₁).1
    exact ⟨submission₁, by rw [hsubs, List.getElem?_append_left hlt, h₁], hrest⟩
  · intro m submission₂ u hm hu
    rw [hsubs] at hm
    rw [htasks]
    rcases getElem?_append_cases hm with ⟨-, rfl⟩ | hm
    · rw [hroot] at hu
      cases hu
    · exact hr.of_submission m submission₂ u hm hu
  · intro m submission₂ hm hrel
    rw [hsubs] at hm
    rw [htasks]
    rcases getElem?_append_cases hm with ⟨-, rfl⟩ | hm
    · rw [hreleased] at hrel
      cases hrel
    · exact hr.released_done m submission₂ hm hrel

/-- A new task that is no root. -/
theorem Roots.append_task (hr : Roots s) {task : CarrierTask} (hroot : task.root = none)
    (htasks : s'.tasks = s.tasks ++ [task]) (hsubs : s'.submissions = s.submissions) :
    Roots s' := by
  have hget : ∀ (u : Nat) (task₁ : CarrierTask), s.tasks[u]? = some task₁ →
      s'.tasks[u]? = some task₁ := by
    intro u task₁ hu
    rw [htasks, List.getElem?_append_left (List.getElem?_eq_some_iff.mp hu).1, hu]
  constructor
  · intro u task₂ m hu hm
    rw [htasks] at hu
    rw [hsubs]
    rcases getElem?_append_cases hu with ⟨-, rfl⟩ | hu
    · rw [hroot] at hm
      cases hm
    · exact hr.of_root u task₂ m hu hm
  · intro m submission u hm hu
    rw [hsubs] at hm
    obtain ⟨task₁, h₁, hrest⟩ := hr.of_submission m submission u hm hu
    exact ⟨task₁, hget u task₁ h₁, hrest⟩
  · intro m submission hm hrel
    rw [hsubs] at hm
    obtain ⟨u, task₁, hu, h₁, hd⟩ := hr.released_done m submission hm hrel
    exact ⟨u, task₁, hu, hget u task₁ h₁, hd⟩

/-- `_start_submission`: the root task of a submission that had none. -/
theorem Roots.start (hr : Roots s) {submission submission' : Submission} {task : CarrierTask}
    (hn : s.submissions[n]? = some submission) (hnone : submission.rootTask = none)
    (htasks : s'.tasks = s.tasks ++ [task])
    (hsubs : s'.submissions = s.submissions.set n submission')
    (hroot : submission'.rootTask = some s.tasks.length)
    (hgen : submission'.generation = task.generation)
    (hreleased : submission'.released = submission.released) (htask : task.root = some n) :
    Roots s' := by
  have hget : ∀ (u : Nat) (task₁ : CarrierTask), s.tasks[u]? = some task₁ →
      s'.tasks[u]? = some task₁ := by
    intro u task₁ hu
    rw [htasks, List.getElem?_append_left (List.getElem?_eq_some_iff.mp hu).1, hu]
  have hself : s'.submissions[n]? = some submission' := by
    rw [hsubs]
    exact getElem?_set_self' hn
  constructor
  · intro u task₂ m hu hm
    rw [htasks] at hu
    rcases getElem?_append_cases hu with ⟨rfl, rfl⟩ | hu
    · obtain rfl : n = m := Option.some.inj (htask.symm.trans hm)
      exact ⟨submission', hself, hroot, hgen⟩
    · obtain ⟨submission₁, h₁, hroot₁, hgen₁⟩ := hr.of_root u task₂ m hu hm
      have hmn : m ≠ n := by
        rintro rfl
        obtain rfl : submission = submission₁ := Option.some.inj (hn.symm.trans h₁)
        rw [hnone] at hroot₁
        cases hroot₁
      exact ⟨submission₁, by rw [hsubs, List.getElem?_set_ne (Ne.symm hmn), h₁], hroot₁, hgen₁⟩
  · intro m submission₂ u hm hu
    rw [hsubs] at hm
    rcases getElem?_set_cases hn hm with ⟨rfl, rfl⟩ | ⟨-, hm⟩
    · obtain rfl : s.tasks.length = u := Option.some.inj (hroot.symm.trans hu)
      exact ⟨task, by rw [htasks]; exact List.getElem?_concat_length, htask⟩
    · obtain ⟨task₁, h₁, hrest⟩ := hr.of_submission m submission₂ u hm hu
      exact ⟨task₁, hget u task₁ h₁, hrest⟩
  · intro m submission₂ hm hrel
    rw [hsubs] at hm
    rcases getElem?_set_cases hn hm with ⟨rfl, rfl⟩ | ⟨-, hm⟩
    · obtain ⟨u, task₁, hu, -⟩ := hr.released_done m submission hn (hreleased ▸ hrel)
      rw [hnone] at hu
      cases hu
    · obtain ⟨u, task₁, hu, h₁, hd⟩ := hr.released_done m submission₂ hm hrel
      exact ⟨u, task₁, hu, hget u task₁ h₁, hd⟩

/-! ## 4. The ledger -/

/-- A submission whose `finally` has not run, by generation and by handle. -/
def openOn (g : Nat) (submission : Submission) : Bool :=
  decide (submission.generation = g) && !submission.released

def openFor (h : Nat) (submission : Submission) : Bool :=
  decide (submission.handle = h) && !submission.released

/-- A retained task whose `_descendant_done` has not run, by generation and by handle. -/
def heldOn (g : Nat) (task : CarrierTask) : Bool :=
  decide (task.generation = g) && task.retained.isSome && !task.released

def heldFor (h : Nat) (task : CarrierTask) : Bool :=
  task.retained.any (fun x => decide (x.handle = h)) && !task.released

structure Ledger (s : SlotState) : Prop where
  reservations : ∀ g, s.reservations g =
    s.leases g + s.submissions.countP (openOn g) + s.tasks.countP (heldOn g)
  pendingWork : ∀ h, s.pendingWork h =
    s.submissions.countP (openFor h) + s.tasks.countP (heldFor h)

theorem Ledger.congr (hl : Ledger s) (hsubs : s'.submissions = s.submissions)
    (htasks : s'.tasks = s.tasks) (hleases : s'.leases = s.leases)
    (hres : ∀ k, s'.reservations k = s.reservations k)
    (hpend : ∀ k, s'.pendingWork k = s.pendingWork k) : Ledger s' := by
  constructor
  · intro k
    rw [hres, hsubs, htasks, hleases]
    exact hl.reservations k
  · intro k
    rw [hpend, hsubs, htasks]
    exact hl.pendingWork k

/-! ## 5. The invariant -/

/-- The seal of a loop is set, scheduled or about to be. -/
def SealDue (s : SlotState) (g : Nat) : Prop :=
  (s.generations g).sealEvent = true ∨ (s.generations g).sealsOnRun = true ∨
    CarrierCall.setSeal ∈ (s.generations g).ready ∨ g ∈ s.sealPosts

structure SlotInv (s : SlotState) : Prop where
  fresh : ∀ g, s.generationCount ≤ g → s.generations g = {}
  slots : ∀ g, s.current = some g ∨ s.next = some g → g < s.generationCount
  once : Once s
  roots : Roots s
  ledger : Ledger s
  done_callback : ∀ (t : Nat) (task : CarrierTask), s.tasks[t]? = some task →
    task.released = true → task.done = true
  idle_sealed : ∀ g, g < s.generationCount → s.reservations g = 0 →
    (s.generations g).state.admits = false
  idle_seals : ∀ g, (s.generations g).running = true → s.reservations g = 0 → s.SealDue g

theorem SlotInv.lt_of_running (hs : SlotInv s) (hrun : (s.generations g).running = true) :
    g < s.generationCount := by
  by_contra hge
  rw [hs.fresh g (Nat.le_of_not_lt hge)] at hrun
  cases hrun

theorem SlotInv.lt_of_reservations (hs : SlotInv s) (hres : 0 < s.reservations g) :
    g < s.generationCount := by
  by_contra hge
  rw [SlotState.reservations, hs.fresh g (Nat.le_of_not_lt hge)] at hres
  exact absurd hres (by simp)

theorem SlotInv.lt_of_ready (hs : SlotInv s) {call : CarrierCall} {rest : List CarrierCall}
    (hready : (s.generations g).ready = call :: rest) : g < s.generationCount := by
  by_contra hge
  rw [hs.fresh g (Nat.le_of_not_lt hge)] at hready
  cases hready

theorem when_eq_some {condition : Prop} [Decidable condition] {u : SlotState}
    (hstep : when condition u = some s') : condition ∧ s' = u := by
  unfold when at hstep
  split at hstep
  · rename_i hc
    cases hstep
    exact ⟨hc, rfl⟩
  · cases hstep

/-- The rule of the steps that write no table and reserve nothing: one generation is
    rewritten, and what is queued for it does not grow. -/
theorem SlotInv.rewrite (hs : SlotInv s) {G : Generation} (hg : g < s.generationCount)
    (hgens : ∀ k, s'.generations k = if k = g then G else s.generations k)
    (hcount : s'.generationCount = s.generationCount)
    (hslots : ∀ k, s'.current = some k ∨ s'.next = some k →
      s.current = some k ∨ s.next = some k)
    (htables : s'.submissions = s.submissions ∧ s'.tasks = s.tasks ∧ s'.leases = s.leases)
    (hpend : ∀ k, s'.pendingWork k = s.pendingWork k)
    (hqueued : ∀ d, madeOnce d = true → queued G d ≤ queued (s.generations g) d)
    (hres : G.reservations = s.reservations g)
    (hstate : G.state.admits = true → (s.generations g).state.admits = true ∨
      s.reservations g ≠ 0)
    (hposts : ∀ k, k ∈ s.sealPosts → k ∈ s'.sealPosts ∨ k = g)
    (hseal : G.running = true → s.reservations g = 0 → s'.SealDue g) : SlotInv s' := by
  have hreservations : ∀ k, s'.reservations k = s.reservations k := by
    intro k
    rw [SlotState.reservations, hgens]
    split
    · rename_i hk
      rw [hk]
      exact hres
    · rfl
  constructor
  · intro k hk
    rw [hcount] at hk
    rw [hgens, if_neg (by omega)]
    exact hs.fresh k hk
  · intro k hk
    rw [hcount]
    exact hs.slots k (hslots k hk)
  · apply hs.once.congr htables.1 htables.2.1
    intro k d hd
    rw [hgens]
    split
    · rename_i hk
      rw [hk]
      exact hqueued d hd
    · exact Nat.le_refl _
  · exact hs.roots.congr htables.1 htables.2.1
  · exact hs.ledger.congr htables.1 htables.2.1 htables.2.2 hreservations hpend
  · rw [htables.2.1]
    exact hs.done_callback
  · intro k hk hzero
    rw [hcount] at hk
    rw [hreservations] at hzero
    rw [hgens]
    split
    · rename_i hkg
      subst hkg
      by_contra hadmits
      rcases hstate (by simpa using hadmits) with hold | hne
      · rw [hs.idle_sealed k hk hzero] at hold
        cases hold
      · exact hne hzero
    · exact hs.idle_sealed k hk hzero
  · intro k hrun hzero
    rw [hreservations] at hzero
    by_cases hkg : k = g
    · subst hkg
      rw [hgens, if_pos rfl] at hrun
      exact hseal hrun hzero
    · rw [hgens, if_neg hkg] at hrun
      unfold SealDue
      rw [hgens, if_neg hkg]
      rcases hs.idle_seals k hrun hzero with h | h | h | h
      · exact Or.inl h
      · exact Or.inr (Or.inl h)
      · exact Or.inr (Or.inr (Or.inl h))
      · rcases hposts k h with h | h
        · exact Or.inr (Or.inr (Or.inr h))
        · exact absurd h hkg

/-! ## 6. The control worker and the seals -/

theorem SlotInv.runGeneration (hs : SlotInv s) (hcurrent : s.current = some g) :
    SlotInv (s.runGeneration g) := by
  have hg := hs.slots g (Or.inl hcurrent)
  apply hs.rewrite hg (generations_setGeneration s g · _)
  · rfl
  · exact fun k hk => hk
  · exact ⟨rfl, rfl, rfl⟩
  · exact fun k => rfl
  · intro d _
    cases d with
    | startSubmission n =>
      simp only [queued, List.count_nil, Nat.zero_add]
      omega
    | firstStep _ | cancelTasks _ | descendantDone _ | setSeal => exact Nat.le_refl _
  · rfl
  · intro hadmits
    refine Or.inr fun hzero => ?_
    have hzero' : (s.generations g).reservations = 0 := hzero
    simp only [hzero', if_true] at hadmits
    cases hadmits
  · exact fun k hk => Or.inl hk
  · intro _ hzero
    refine Or.inr (Or.inl ?_)
    exact (congrArg Generation.sealsOnRun
      ((generations_setGeneration s g g _).trans (if_pos rfl))).trans (decide_eq_true hzero)

theorem SlotInv.queueTaken (hs : SlotInv s) (hrun : (s.generations g).running = true)
    (hstep : s.queueTaken g = some s') : SlotInv s' := by
  have hg := hs.lt_of_running hrun
  unfold SlotState.queueTaken at hstep
  split at hstep
  · rename_i n rest htaken
    cases hstep
    apply hs.rewrite (G := { s.generations g with
      taken := rest, ready := (s.generations g).ready ++ [.startSubmission n] }) hg
    · intro k
      simp only [callSoon, generations_setGeneration, if_true]
      split <;> rfl
    · rfl
    · exact fun k hk => hk
    · exact ⟨rfl, rfl, rfl⟩
    · exact fun k => rfl
    · intro d _
      have happend := queued_append { s.generations g with taken := rest } (.startSubmission n) d
      refine Nat.le_of_eq (happend.trans ?_)
      cases d with
      | startSubmission m =>
        simp only [queued, htaken, List.count_cons, CarrierCall.startSubmission.injEq, beq_iff_eq]
        by_cases hmn : m = n
        · simp [hmn]
          omega
        · simp [hmn, Ne.symm hmn]
      | firstStep _ | cancelTasks _ | descendantDone _ | setSeal => simp [queued]
    · rfl
    · exact fun hadmits => Or.inl hadmits
    · exact fun k hk => Or.inl hk
    · intro _ hzero
      unfold SealDue
      simp only [callSoon, generations_setGeneration, if_true]
      rcases hs.idle_seals g hrun hzero with h | h | h | h
      · exact Or.inl h
      · exact Or.inr (Or.inl h)
      · exact Or.inr (Or.inr (Or.inl (List.mem_append_left _ h)))
      · exact Or.inr (Or.inr (Or.inr h))
  · split at hstep
    · cases hstep
      apply hs.rewrite (G := { s.generations g with
        sealsOnRun := false, ready := (s.generations g).ready ++ [.setSeal] }) hg
      · intro k
        simp only [callSoon, generations_setGeneration, if_true]
        split <;> rfl
      · rfl
      · exact fun k hk => hk
      · exact ⟨rfl, rfl, rfl⟩
      · exact fun k => rfl
      · intro d hd
        have happend := queued_append { s.generations g with sealsOnRun := false } .setSeal d
        refine Nat.le_of_eq (happend.trans ?_)
        cases d with
        | setSeal => cases hd
        | _ => simp [queued]
      · rfl
      · exact fun hadmits => Or.inl hadmits
      · exact fun k hk => Or.inl hk
      · intro _ _
        unfold SealDue
        simp [callSoon]
    · cases hstep

theorem SlotInv.postSeal (hs : SlotInv s) :
    SlotInv (if (s.generations g).running then
        callSoon { s with sealPosts := s.sealPosts.erase g } g .setSeal
      else { s with sealPosts := s.sealPosts.erase g }) := by
  have hposts : ∀ k, k ∈ s.sealPosts → k ∈ s.sealPosts.erase g ∨ k = g := by
    intro k hk
    by_cases hkg : k = g
    · exact Or.inr hkg
    · exact Or.inl ((List.mem_erase_of_ne hkg).mpr hk)
  split
  · rename_i hrun
    have hg := hs.lt_of_running hrun
    apply hs.rewrite (G := { s.generations g with
      ready := (s.generations g).ready ++ [.setSeal] }) hg
    · exact fun k => generations_setGeneration _ g k _
    · rfl
    · exact fun k hk => hk
    · exact ⟨rfl, rfl, rfl⟩
    · exact fun k => rfl
    · intro d hd
      refine Nat.le_of_eq ((queued_append (s.generations g) .setSeal d).trans ?_)
      cases d with
      | setSeal => cases hd
      | _ => simp
    · rfl
    · exact fun hadmits => Or.inl hadmits
    · exact hposts
    · intro _ _
      unfold SealDue
      simp [callSoon]
  · rename_i hstopped
    refine ⟨hs.fresh, hs.slots, hs.once.congr rfl rfl fun _ _ _ => Nat.le_refl _,
      hs.roots.congr rfl rfl, hs.ledger.congr rfl rfl rfl (fun _ => rfl) fun _ => rfl,
      hs.done_callback, hs.idle_sealed, ?_⟩
    intro k hrun hzero
    rcases hs.idle_seals k hrun hzero with h | h | h | h
    · exact Or.inl h
    · exact Or.inr (Or.inl h)
    · exact Or.inr (Or.inr (Or.inl h))
    · rcases hposts k h with h | rfl
      · exact Or.inr (Or.inr (Or.inr h))
      · exact absurd hrun hstopped

theorem SlotInv.drain (hs : SlotInv s) (hrun : (s.generations g).running = true) :
    SlotInv (s.setGeneration g { s.generations g with state := .draining }) := by
  apply hs.rewrite (hs.lt_of_running hrun) (generations_setGeneration s g · _)
  · rfl
  · exact fun k hk => hk
  · exact ⟨rfl, rfl, rfl⟩
  · exact fun k => rfl
  · exact fun d _ => Nat.le_refl _
  · rfl
  · intro hadmits
    cases hadmits
  · exact fun k hk => Or.inl hk
  · intro _ hzero
    unfold SealDue
    simp only [generations_setGeneration, if_true]
    exact hs.idle_seals g hrun hzero

theorem SlotInv.close (hs : SlotInv s) (hrun : (s.generations g).running = true) :
    SlotInv (s.closeGeneration g) := by
  apply hs.rewrite (G := { s.generations g with running := false, state := .closed })
    (hs.lt_of_running hrun)
  · exact fun k => generations_setGeneration s g k _
  · rfl
  · intro k hk
    by_cases hcurrent : s.current = some g
    · simp only [closeGeneration, hcurrent, if_true] at hk
      rcases hk with hk | hk
      · exact Or.inr hk
      · cases hk
    · simpa only [closeGeneration, hcurrent, if_false] using hk
  · exact ⟨rfl, rfl, rfl⟩
  · exact fun k => rfl
  · exact fun d _ => Nat.le_refl _
  · rfl
  · intro hadmits
    cases hadmits
  · exact fun k hk => Or.inl hk
  · intro h
    cases h

/-! ## 7. Calls that write no counter -/

/-- Taking a call other than the seal. -/
theorem SlotInv.pop (hs : SlotInv s) {call : CarrierCall} {rest : List CarrierCall}
    (hready : (s.generations g).ready = call :: rest) (hcall : call ≠ .setSeal) :
    SlotInv (s.setGeneration g { s.generations g with ready := rest }) := by
  apply hs.rewrite (hs.lt_of_ready hready) (generations_setGeneration s g · _)
  · rfl
  · exact fun k hk => hk
  · exact ⟨rfl, rfl, rfl⟩
  · exact fun k => rfl
  · intro d _
    rw [queued_pop hready d]
    exact Nat.le_add_right _ _
  · rfl
  · exact fun hadmits => Or.inl hadmits
  · exact fun k hk => Or.inl hk
  · intro hrun hzero
    unfold SealDue
    simp only [generations_setGeneration, if_true]
    rcases hs.idle_seals g hrun hzero with h | h | h | h
    · exact Or.inl h
    · exact Or.inr (Or.inl h)
    · rw [hready, List.mem_cons] at h
      rcases h with h | h
      · exact absurd h.symm hcall
      · exact Or.inr (Or.inr (Or.inl h))
    · exact Or.inr (Or.inr (Or.inr h))

theorem SlotInv.setSeal (hs : SlotInv s) {rest : List CarrierCall}
    (hready : (s.generations g).ready = .setSeal :: rest) :
    SlotInv ((s.setGeneration g { s.generations g with ready := rest }).runCall g .setSeal) := by
  apply hs.rewrite (G := { s.generations g with ready := rest, sealEvent := true })
    (hs.lt_of_ready hready)
  · intro k
    simp only [runCall, generations_setGeneration, if_true]
    split <;> rfl
  · rfl
  · exact fun k hk => hk
  · exact ⟨rfl, rfl, rfl⟩
  · exact fun k => rfl
  · intro d _
    rw [queued_pop hready d]
    cases d <;> exact Nat.le_add_right _ _
  · rfl
  · exact fun hadmits => Or.inl hadmits
  · exact fun k hk => Or.inl hk
  · intro _ _
    refine Or.inl ?_
    simp [runCall]

/-- Handles may change in what is not their pending work. -/
theorem SlotInv.setHandles (hs : SlotInv s) (handles : Nat → HandleWork)
    (hpend : ∀ k, (handles k).pendingWork = s.pendingWork k) :
    SlotInv { s with handles := handles } :=
  ⟨hs.fresh, hs.slots, hs.once.congr rfl rfl fun _ _ _ => Nat.le_refl _,
    hs.roots.congr rfl rfl, hs.ledger.congr rfl rfl rfl (fun _ => rfl) hpend,
    hs.done_callback, hs.idle_sealed, hs.idle_seals⟩

/-- Queueing a call that may be queued at any time. -/
theorem SlotInv.callSoon (hs : SlotInv s) {call : CarrierCall} (hcall : madeOnce call = false)
    (hg : g < s.generationCount) : SlotInv (s.callSoon g call) := by
  apply hs.rewrite hg (generations_setGeneration s g · _)
  · rfl
  · exact fun k hk => hk
  · exact ⟨rfl, rfl, rfl⟩
  · exact fun k => rfl
  · intro d hd
    rw [queued_append, if_neg ?_]
    · exact Nat.le_refl _
    · rintro rfl
      rw [hcall] at hd
      cases hd
  · rfl
  · exact fun hadmits => Or.inl hadmits
  · exact fun k hk => Or.inl hk
  · intro hrun hzero
    unfold SealDue
    simp only [generations_setGeneration, if_true]
    rcases hs.idle_seals g hrun hzero with h | h | h | h
    · exact Or.inl h
    · exact Or.inr (Or.inl h)
    · exact Or.inr (Or.inr (Or.inl (List.mem_append_left _ h)))
    · exact Or.inr (Or.inr (Or.inr h))

theorem SlotInv.cancel (hs : SlotInv s) (h : Nat) : SlotInv (s.cancel h) := by
  have hrequested : SlotInv (s.setHandle h { s.handles h with cancelRequested := true }) := by
    apply hs.setHandles
    intro k
    by_cases hk : k = h
    · simp [hk, SlotState.pendingWork]
    · simp [hk, SlotState.pendingWork]
  unfold SlotState.cancel
  dsimp only
  split
  · rename_i g _
    split
    · rename_i hrun
      exact hrequested.callSoon rfl (hs.lt_of_running hrun)
    · exact hrequested
  · exact hrequested

/-- The rule of the steps that change a task without ending it. -/
theorem SlotInv.setTask (hs : SlotInv s) {task task' : CarrierTask}
    (ht : s.tasks[t]? = some task) (hgen : task'.generation = task.generation)
    (hretained : task'.retained = task.retained) (hroot : task'.root = task.root)
    (hdone : task'.done = task.done) (hreleased : task'.released = task.released)
    (hfirst : task'.begun = task.begun ∨ ∀ k, queued (s.generations k) (.firstStep t) = 0) :
    SlotInv { s with tasks := s.tasks.set t task' } := by
  refine ⟨hs.fresh, hs.slots, ?_, ?_, ⟨fun k => ?_, fun k => ?_⟩, ?_, hs.idle_sealed,
    hs.idle_seals⟩
  · apply hs.once.of
    intro k d _
    by_cases hd : d = .firstStep t
    · subst hd
      rcases hfirst with hbegun | hzero
      · refine Or.inr ⟨Nat.le_refl _, ?_⟩
        simp only [due, getElem?_set_self' ht, ht, Option.any_some, hgen, hbegun, hdone]
      · refine Or.inl ?_
        rw [show queued _ _ = 0 from hzero k]
        exact Nat.zero_le _
    · by_cases hd' : d = .descendantDone t
      · subst hd'
        refine Or.inr ⟨Nat.le_refl _, ?_⟩
        simp only [due, getElem?_set_self' ht, ht, Option.any_some, hgen, hdone, hretained,
          hreleased]
      · refine Or.inr ⟨Nat.le_refl _, due_eq (fun _ _ => rfl) ?_⟩
        rintro u (rfl | rfl)
        · refine List.getElem?_set_ne ?_
          rintro rfl
          exact hd rfl
        · refine List.getElem?_set_ne ?_
          rintro rfl
          exact hd' rfl
  · exact hs.roots.set_task ht rfl rfl hroot hgen (fun h => hdone.trans h)
  · have hcount : (s.tasks.set t task').countP (heldOn k) = s.tasks.countP (heldOn k) :=
      countP_set_same ht (by simp only [heldOn, hgen, hretained, hreleased])
    dsimp only
    rw [hcount]
    exact hs.ledger.reservations k
  · have hcount : (s.tasks.set t task').countP (heldFor k) = s.tasks.countP (heldFor k) :=
      countP_set_same ht (by simp only [heldFor, hretained, hreleased])
    dsimp only
    rw [hcount]
    exact hs.ledger.pendingWork k
  · intro u task₁ hu hrel
    rcases getElem?_set_cases ht hu with ⟨rfl, rfl⟩ | ⟨-, hu⟩
    · rw [hdone]
      exact hs.done_callback u task ht (hreleased ▸ hrel)
    · exact hs.done_callback u task₁ hu hrel

theorem SlotInv.cancelTask (hs : SlotInv s) (t : Nat) : SlotInv (s.cancelTask t) := by
  unfold SlotState.cancelTask
  split
  · rename_i task ht
    split
    · exact hs
    · exact hs.setTask ht rfl rfl rfl rfl rfl (Or.inl rfl)
  · exact hs

theorem SlotInv.cancelTasks (hs : SlotInv s) (tasks : List Nat) :
    SlotInv (s.cancelTasks tasks) := by
  unfold SlotState.cancelTasks
  induction tasks generalizing s with
  | nil => exact hs
  | cons t tasks ih => exact ih (hs.cancelTask t)

/-! ## 8. Reservations taken and given back -/

/-- What `_reserve_locked` has selected; a generation it creates is new. -/
structure Selected (s : SlotState) (g : Nat) (u : SlotState) : Prop where
  generations : u.generations = s.generations
  count_le : s.generationCount ≤ u.generationCount
  known : g < u.generationCount
  created : ∀ k, s.generationCount ≤ k → k < u.generationCount → k = g
  slots : ∀ k, u.current = some k ∨ u.next = some k → k < u.generationCount
  submissions : u.submissions = s.submissions
  tasks : u.tasks = s.tasks
  leases : u.leases = s.leases
  handles : u.handles = s.handles
  sealPosts : u.sealPosts = s.sealPosts

theorem SlotInv.selected_self (hs : SlotInv s) (hg : s.current = some g ∨ s.next = some g) :
    Selected s g s :=
  ⟨rfl, Nat.le_refl _, hs.slots g hg, fun k h h' => by omega, hs.slots, rfl, rfl, rfl, rfl, rfl⟩

theorem SlotInv.createGenerationLocked (hs : SlotInv s) {asNext : Bool}
    (h : s.createGenerationLocked asNext = .ok (g, s')) : Selected s g s' := by
  unfold SlotState.createGenerationLocked at h
  split at h
  · cases h
    refine ⟨?_, Nat.le_succ _, Nat.lt_succ_self _, ?_, ?_, rfl, rfl, rfl, rfl, rfl⟩
    · funext k
      refine (generations_setGeneration s s.generationCount k {}).trans ?_
      split
      · rename_i hk
        rw [hk]
        exact (hs.fresh _ (Nat.le_refl _)).symm
      · rfl
    · intro k hk hlt
      have hlt' : k < s.generationCount + 1 := hlt
      omega
    · intro k hk
      have hold : ∀ j, s.current = some j ∨ s.next = some j → j < s.generationCount + 1 :=
        fun j hj => Nat.lt_succ_of_lt (hs.slots j hj)
      cases asNext with
      | true =>
        rcases hk with hk | hk
        · exact hold k (Or.inl hk)
        · cases hk
          exact Nat.lt_succ_self _
      | false =>
        rcases hk with hk | hk
        · cases hk
          exact Nat.lt_succ_self _
        · exact hold k (Or.inr hk)
  · cases h

theorem SlotInv.selectGenerationLocked (hs : SlotInv s) {preferred : Option Nat}
    (h : s.selectGenerationLocked preferred = .ok (g, s')) : Selected s g s' := by
  cases preferred with
  | some p =>
    simp only [SlotState.selectGenerationLocked] at h
    split at h
    · cases h
    · rename_i howned
      split at h
      · cases h
        apply hs.selected_self
        by_contra hne
        rw [not_or] at hne
        exact howned hne
      · cases h
  | none =>
    simp only [SlotState.selectGenerationLocked] at h
    split at h
    · exact hs.createGenerationLocked h
    · rename_i c hcurrent
      split at h
      · cases h
        exact hs.selected_self (Or.inl hcurrent)
      · split at h
        · rename_i n hnext
          cases h
          exact hs.selected_self (Or.inr hnext)
        · exact hs.createGenerationLocked h

theorem SlotInv.reserveLocked (hs : SlotInv s) {preferred : Option Nat}
    (h : s.reserveLocked preferred = .ok (g, s')) :
    ∃ u, Selected s g u ∧ s' = u.addReservation g := by
  unfold SlotState.reserveLocked at h
  split at h
  · rename_i g' u hselect
    cases h
    exact ⟨u, hs.selectGenerationLocked hselect, rfl⟩
  · cases h

theorem Selected.generations_addReservation {u : SlotState} (hu : Selected s g u) (k : Nat) :
    (u.addReservation g).generations k =
      if k = g then { s.generations g with reservations := s.reservations g + 1 }
      else s.generations k := by
  rw [addReservation, generations_setGeneration, hu.generations]
  rfl

theorem Selected.ready_addReservation {u : SlotState} (hu : Selected s g u) (k : Nat) :
    ((u.addReservation g).generations k).ready = (s.generations k).ready := by
  rw [hu.generations_addReservation]
  split
  · rename_i hk
    rw [hk]
  · rfl

/-- The rule of the steps that reserve: the generation is not idle afterwards. -/
theorem SlotInv.of_reserve (hs : SlotInv s) {u : SlotState} {G : Generation}
    (hu : Selected s g u) (hgens : ∀ k, s'.generations k = if k = g then G else s.generations k)
    (hres : G.reservations = s.reservations g + 1)
    (hslots : s'.generationCount = u.generationCount ∧ s'.current = u.current ∧
      s'.next = u.next) (hposts : s'.sealPosts = s.sealPosts)
    (honce : Once s') (hroots : Roots s') (hledger : Ledger s')
    (hdone : ∀ (t : Nat) (task : CarrierTask), s'.tasks[t]? = some task →
      task.released = true → task.done = true) : SlotInv s' := by
  have hpositive : s'.reservations g ≠ 0 := by
    rw [SlotState.reservations, hgens, if_pos rfl, hres]
    exact Nat.succ_ne_zero _
  refine ⟨?_, ?_, honce, hroots, hledger, hdone, ?_, ?_⟩
  · intro k hk
    rw [hslots.1] at hk
    have hkg : k ≠ g := by
      rintro rfl
      exact absurd hu.known (Nat.not_lt.mpr hk)
    rw [hgens, if_neg hkg]
    exact hs.fresh k (Nat.le_trans hu.count_le hk)
  · intro k hk
    rw [hslots.1]
    rw [hslots.2.1, hslots.2.2] at hk
    exact hu.slots k hk
  · intro k hk hzero
    have hkg : k ≠ g := by
      rintro rfl
      exact hpositive hzero
    rw [SlotState.reservations, hgens, if_neg hkg] at hzero
    rw [hgens, if_neg hkg]
    by_cases hold : k < s.generationCount
    · exact hs.idle_sealed k hold hzero
    · rw [hslots.1] at hk
      exact absurd (hu.created k (Nat.le_of_not_lt hold) hk) hkg
  · intro k hrun hzero
    have hkg : k ≠ g := by
      rintro rfl
      exact hpositive hzero
    rw [SlotState.reservations, hgens, if_neg hkg] at hzero
    rw [hgens, if_neg hkg] at hrun
    unfold SealDue
    rw [hgens, if_neg hkg, hposts]
    exact hs.idle_seals k hrun hzero

theorem generations_releaseReservation (s : SlotState) (g k : Nat) :
    (s.releaseReservation g).generations k =
      if k = g then
        { s.generations g with
          reservations := s.reservations g - 1
          state := if s.reservations g = 1 ∧ (s.generations g).state.admits then .sealing
            else (s.generations g).state }
      else s.generations k :=
  generations_setGeneration s g k _

/-- The rule of the steps that give a reservation back: the last one seals. -/
theorem SlotInv.of_release (hs : SlotInv s) (hres : 0 < s.reservations g)
    (hgens : s'.generations = (s.releaseReservation g).generations)
    (hposts : s'.sealPosts = (s.releaseReservation g).sealPosts)
    (hslots : s'.generationCount = s.generationCount ∧ s'.current = s.current ∧
      s'.next = s.next)
    (honce : Once s') (hroots : Roots s') (hledger : Ledger s')
    (hdone : ∀ (t : Nat) (task : CarrierTask), s'.tasks[t]? = some task →
      task.released = true → task.done = true) : SlotInv s' := by
  have hg := hs.lt_of_reservations hres
  refine ⟨?_, ?_, honce, hroots, hledger, hdone, ?_, ?_⟩
  · intro k hk
    rw [hslots.1] at hk
    rw [hgens, generations_releaseReservation, if_neg (by omega)]
    exact hs.fresh k hk
  · intro k hk
    rw [hslots.1]
    rw [hslots.2.1, hslots.2.2] at hk
    exact hs.slots k hk
  · intro k hk hzero
    rw [hslots.1] at hk
    rw [SlotState.reservations, hgens, generations_releaseReservation] at hzero
    rw [hgens, generations_releaseReservation]
    split at hzero
    · rename_i hkg
      rw [if_pos hkg]
      have hlast : s.reservations g = 1 := by
        have hzero' : s.reservations g - 1 = 0 := hzero
        omega
      dsimp only
      by_cases hadmits : (s.generations g).state.admits = true
      · rw [if_pos ⟨hlast, hadmits⟩]
        rfl
      · rw [if_neg (fun h => hadmits h.2)]
        simpa using hadmits
    · rename_i hkg
      rw [if_neg hkg]
      exact hs.idle_sealed k hk hzero
  · intro k hrun hzero
    rw [hgens, generations_releaseReservation] at hrun
    rw [SlotState.reservations, hgens, generations_releaseReservation] at hzero
    unfold SealDue
    rw [hgens, generations_releaseReservation, hposts]
    split at hrun
    · rename_i hkg
      subst hkg
      rw [if_pos rfl] at hzero
      have hlast : (s.generations k).reservations = 1 := by
        have hzero' : s.reservations k - 1 = 0 := hzero
        have hres' : 0 < s.reservations k := hres
        unfold SlotState.reservations at hzero' hres'
        omega
      have hrun' : (s.generations k).running = true := hrun
      refine Or.inr (Or.inr (Or.inr ?_))
      simp [SlotState.releaseReservation, hlast, hrun']
    · rename_i hkg
      rw [if_neg hkg] at hzero ⊢
      rcases hs.idle_seals k hrun hzero with h | h | h | h
      · exact Or.inl h
      · exact Or.inr (Or.inl h)
      · exact Or.inr (Or.inr (Or.inl h))
      · refine Or.inr (Or.inr (Or.inr ?_))
        unfold SlotState.releaseReservation
        dsimp only
        split
        · exact List.mem_append_left _ h
        · exact h

/-- Giving back a reservation leaves the queues alone. -/
theorem queued_releaseReservation (s : SlotState) (g k : Nat) (d : CarrierCall) :
    queued ((s.releaseReservation g).generations k) d = queued (s.generations k) d := by
  rw [generations_releaseReservation]
  split
  · rename_i hk
    rw [hk]
    cases d <;> rfl
  · rfl

theorem SlotInv.acquireLease (hs : SlotInv s) {preferred : Option Nat} {u : SlotState}
    (h : s.reserveLocked preferred = .ok (g, u)) :
    SlotInv { u with leases := Function.update u.leases g (u.leases g + 1) } := by
  obtain ⟨v, hv, rfl⟩ := hs.reserveLocked h
  have hgens := hv.generations_addReservation
  apply hs.of_reserve hv
  · exact hgens
  · rfl
  · exact ⟨rfl, rfl, rfl⟩
  · exact hv.sealPosts
  · apply hs.once.congr
    · exact hv.submissions
    · exact hv.tasks
    · intro k d _
      rw [hgens]
      split
      · rename_i hk
        rw [hk]
        cases d <;> exact Nat.le_refl _
      · exact Nat.le_refl _
  · exact hs.roots.congr hv.submissions hv.tasks
  · constructor
    · intro k
      rw [SlotState.reservations, hgens]
      have hledger := hs.ledger.reservations k
      simp only [addReservation, setGeneration, hv.submissions, hv.tasks, hv.leases,
        Function.update_apply]
      split
      · rename_i hk
        subst hk
        dsimp only
        omega
      · exact hledger
    · intro k
      have hledger := hs.ledger.pendingWork k
      simp only [SlotState.pendingWork, addReservation, setGeneration, hv.submissions, hv.tasks,
        hv.handles]
      exact hledger
  · intro t task ht
    apply hs.done_callback t task
    rw [← hv.tasks]
    exact ht

theorem SlotInv.releaseLease (hs : SlotInv s) (hheld : 0 < s.leases g) :
    SlotInv (releaseReservation
      { s with leases := Function.update s.leases g (s.leases g - 1) } g) := by
  have hres : 0 < s.reservations g := by
    rw [hs.ledger.reservations g]
    omega
  apply hs.of_release hres
  · rfl
  · rfl
  · exact ⟨rfl, rfl, rfl⟩
  · apply hs.once.congr
    · rfl
    · rfl
    · exact fun k d _ => Nat.le_of_eq (queued_releaseReservation s g k d)
  · exact hs.roots.congr rfl rfl
  · constructor
    · intro k
      have hledger := hs.ledger.reservations k
      rw [SlotState.reservations, generations_releaseReservation]
      simp only [releaseReservation, setGeneration, Function.update_apply]
      split
      · rename_i hk
        subst hk
        have hres' : 0 < (s.generations k).reservations := hres
        unfold SlotState.reservations at hledger ⊢
        dsimp only
        omega
      · exact hledger
    · intro k
      exact hs.ledger.pendingWork k
  · exact hs.done_callback

/-! ## 9. Submissions -/

/-- The two ways a submission waits count the same. -/
theorem queued_pend (generation : Generation) (n : Nat) (d : CarrierCall) :
    queued { generation with pendingSubmissions := generation.pendingSubmissions ++ [n] } d =
      queued generation d + if d = .startSubmission n then 1 else 0 := by
  cases d with
  | startSubmission m =>
    simp only [queued, List.count_append, CarrierCall.startSubmission.injEq]
    by_cases hmn : m = n
    · subst hmn
      simp
      omega
    · simp [hmn, Ne.symm hmn]
  | firstStep _ | cancelTasks _ | descendantDone _ | setSeal => simp [queued]

/-- Delivering a submission queues it once. -/
theorem deliver_effect (s : SlotState) (g n : Nat) :
    ∃ G : Generation,
      (∀ k, (s.deliver g n).generations k = if k = g then G else s.generations k) ∧
      G.reservations = s.reservations g ∧
      (∀ d, queued G d = queued (s.generations g) d +
        if d = .startSubmission n then 1 else 0) ∧
      (s.deliver g n).submissions = s.submissions ∧ (s.deliver g n).tasks = s.tasks ∧
      (s.deliver g n).leases = s.leases ∧ (s.deliver g n).handles = s.handles ∧
      (s.deliver g n).sealPosts = s.sealPosts ∧
      (s.deliver g n).generationCount = s.generationCount ∧
      (s.deliver g n).current = s.current ∧ (s.deliver g n).next = s.next := by
  unfold deliver
  split
  · exact ⟨_, fun k => generations_setGeneration s g k _, rfl, queued_append _ _,
      rfl, rfl, rfl, rfl, rfl, rfl, rfl, rfl⟩
  · exact ⟨_, fun k => generations_setGeneration s g k _, rfl, queued_pend _ _,
      rfl, rfl, rfl, rfl, rfl, rfl, rfl, rfl⟩

/-- What an accepted submission does. -/
theorem submit_effect {preferred : Option Nat} {phase : WorkPhase}
    {context : Option ExecutionContext} {u : SlotState} (hu : Selected s g u)
    (h' : s.reserveLocked preferred = .ok (g, u.addReservation g)) :
    ∃ G : Generation,
      (∀ k, (s.submit preferred h phase context).generations k =
        if k = g then G else s.generations k) ∧
      G.reservations = s.reservations g + 1 ∧
      (∀ d, queued G d = queued (s.generations g) d +
        if d = .startSubmission s.submissions.length then 1 else 0) ∧
      ((s.submit preferred h phase context).generationCount = u.generationCount ∧
        (s.submit preferred h phase context).current = u.current ∧
        (s.submit preferred h phase context).next = u.next) ∧
      (s.submit preferred h phase context).sealPosts = s.sealPosts ∧
      (s.submit preferred h phase context).submissions =
        s.submissions ++ [⟨h, g, phase, context, none, false, false⟩] ∧
      (s.submit preferred h phase context).tasks = s.tasks ∧
      (s.submit preferred h phase context).leases = s.leases ∧
      (∀ k, (s.submit preferred h phase context).pendingWork k =
        s.pendingWork k + if k = h then 1 else 0) := by
  have hsubmit : s.submit preferred h phase context =
      (((u.addReservation g).retainWork h).addSubmission
        ⟨h, g, phase, context, none, false, false⟩).deliver g s.submissions.length := by
    unfold SlotState.submit
    rw [h']
  obtain ⟨G, hgens, hres, hqueued, hsubs, htasks, hleases, hhandles, hposts, hcount, hcur, hnext⟩ :=
    deliver_effect (((u.addReservation g).retainWork h).addSubmission
      ⟨h, g, phase, context, none, false, false⟩) g s.submissions.length
  have hbase : ∀ k, (((u.addReservation g).retainWork h).addSubmission
      ⟨h, g, phase, context, none, false, false⟩).generations k =
      if k = g then { s.generations g with reservations := s.reservations g + 1 }
      else s.generations k := hu.generations_addReservation
  rw [hsubmit]
  refine ⟨G, ?_, ?_, ?_, ⟨hcount, hcur, hnext⟩, hposts.trans hu.sealPosts, ?_,
    htasks.trans hu.tasks, hleases.trans hu.leases, ?_⟩
  · intro k
    rw [hgens, hbase]
    split <;> rfl
  · rw [hres, SlotState.reservations, hbase, if_pos rfl]
  · intro d
    rw [hqueued, hbase, if_pos rfl]
    cases d <;> rfl
  · rw [hsubs]
    exact congrArg (· ++ _) hu.submissions
  · intro k
    unfold SlotState.pendingWork
    rw [hhandles]
    by_cases hk : k = h
    · subst hk
      simp [addSubmission, retainWork, addReservation, setGeneration, setHandle, hu.handles]
    · simp [addSubmission, retainWork, addReservation, setGeneration, setHandle, hu.handles, hk]

theorem SlotInv.submit (hs : SlotInv s) {preferred : Option Nat} {phase : WorkPhase}
    {context : Option ExecutionContext} : SlotInv (s.submit preferred h phase context) := by
  rcases hres : s.reserveLocked preferred with error | ⟨g, v⟩
  · unfold SlotState.submit
    rw [hres]
    exact hs
  · obtain ⟨u, hu, rfl⟩ := hs.reserveLocked hres
    obtain ⟨G, hgens, hG, hqueued, hslots, hposts, hsubs, htasks, hleases, hpend⟩ :=
      submit_effect hu hres
    have hnew : ∀ k, s.due k (.startSubmission s.submissions.length) = false := by
      intro k
      simp [due]
    apply hs.of_reserve hu hgens hG hslots hposts
    · apply hs.once.of
      intro k d hd
      by_cases hdn : d = .startSubmission s.submissions.length
      · subst hdn
        refine Or.inl ?_
        have hzero := hs.once.queued_eq_zero hd (hnew k)
        rw [hgens]
        split
        · rename_i hk
          subst hk
          rw [hqueued, if_pos rfl, hzero]
          simp [due, hsubs]
        · rw [hzero]
          exact Nat.zero_le _
      · refine Or.inr ⟨?_, due_eq ?_ ?_⟩
        · rw [hgens]
          split
          · rename_i hk
            subst hk
            rw [hqueued, if_neg hdn]
            exact Nat.le_refl _
          · exact Nat.le_refl _
        · rintro m rfl
          rw [hsubs]
          apply getElem?_append_ne
          rintro rfl
          exact hdn rfl
        · intro m _
          rw [htasks]
    · exact hs.roots.append_submission rfl rfl hsubs htasks
    · constructor
      · intro k
        rw [SlotState.reservations, hgens, hsubs, htasks, hleases, countP_concat]
        have hledger := hs.ledger.reservations k
        by_cases hk : k = g
        · subst hk
          simp only [if_true, hG, openOn, decide_true, Bool.not_false, Bool.and_self,
            Bool.toNat_true]
          omega
        · simp only [if_neg hk, openOn, Ne.symm hk, decide_false, Bool.false_and,
            Bool.toNat_false]
          exact hledger
      · intro k
        rw [hpend, hsubs, htasks, countP_concat]
        have hledger := hs.ledger.pendingWork k
        by_cases hk : k = h
        · subst hk
          simp only [if_true, openFor, decide_true, Bool.not_false, Bool.and_self,
            Bool.toNat_true]
          omega
        · simp only [if_neg hk, openFor, Ne.symm hk, decide_false, Bool.false_and,
            Bool.toNat_false]
          exact hledger
    · rw [htasks]
      exact hs.done_callback

/-! ## 10. Tasks -/

/-- The execution a new task is retained for. -/
def retainedOn (g : Nat) (context : Option ExecutionContext) : Option ExecutionContext :=
  context.filter fun x => decide (x.generation = g)

/-- The task factory finds the body of that execution's handle cancelled. -/
def cancelsAtCreation (s : SlotState) (g : Nat) (context : Option ExecutionContext) : Bool :=
  (retainedOn g context).any fun x =>
    decide (x.phase = .body) && (s.handles x.handle).cancelRequested

structure FactoryEffect (s : SlotState) (g : Nat) (context : Option ExecutionContext)
    (root : Option Nat) (s' : SlotState) : Prop where
  tasks : s'.tasks = s.tasks ++ [⟨g, retainedOn g context, root, s.cancelsAtCreation g context,
    false, false, false⟩]
  generations : ∀ k, s'.generations k =
    if k = g then
      { s.generations g with
        reservations := s.reservations g + (retainedOn g context).isSome.toNat
        ready := (s.generations g).ready ++ [.firstStep s.tasks.length] }
    else s.generations k
  handles : ∀ k, s'.handles k = { s.handles k with
    pendingWork := s.pendingWork k +
      ((retainedOn g context).any fun x => decide (x.handle = k)).toNat }
  submissions : s'.submissions = s.submissions
  leases : s'.leases = s.leases
  sealPosts : s'.sealPosts = s.sealPosts
  slots : s'.generationCount = s.generationCount ∧ s'.current = s.current ∧ s'.next = s.next

/-- A task outside the executions of its loop. -/
theorem factoryEffect_plain {context : Option ExecutionContext} (root : Option Nat)
    (hnone : retainedOn g context = none) :
    FactoryEffect s g context root { s.callSoon g (.firstStep s.tasks.length) with
      tasks := s.tasks ++ [⟨g, none, root, false, false, false, false⟩] } := by
  refine ⟨?_, ?_, ?_, rfl, rfl, rfl, rfl, rfl, rfl⟩
  · rw [cancelsAtCreation, hnone]
    rfl
  · intro k
    rw [hnone]
    exact generations_setGeneration s g k _
  · intro k
    rw [hnone]
    rfl

theorem taskFactory_effect {context : Option ExecutionContext} {root : Option Nat}
    (h : s.taskFactory g context root = .ok s') : FactoryEffect s g context root s' := by
  unfold taskFactory at h
  dsimp only at h
  split at h
  · rename_i x
    split at h
    · rename_i hx
      have hretained : retainedOn g (some x) = some x := by
        simp [retainedOn, hx]
      split at h
      · cases h
      · rename_i u hretain
        cases h
        obtain rfl : s.addReservation g = u := by
          unfold retainReservation at hretain
          split at hretain
          · exact Except.ok.inj hretain
          · cases hretain
        refine ⟨?_, ?_, ?_, rfl, rfl, rfl, rfl, rfl, rfl⟩
        · rw [cancelsAtCreation, hretained]
          rfl
        · intro k
          rw [hretained]
          simp only [SlotState.callSoon, addReservation, retainWork, setHandle, setGeneration,
            Function.update_apply, if_true]
          split <;> rfl
        · intro k
          rw [hretained]
          by_cases hk : k = x.handle
          · subst hk
            simp [SlotState.callSoon, addReservation, retainWork, setHandle, setGeneration,
              SlotState.pendingWork]
          · simp [SlotState.callSoon, addReservation, retainWork, setHandle, setGeneration,
              SlotState.pendingWork, hk, Ne.symm hk]
    · rename_i hx
      cases h
      exact factoryEffect_plain root (by simp [retainedOn, hx])
  · cases h
    exact factoryEffect_plain root rfl

/-- The rule of the steps that queue calls and keep every counter of the generations. -/
theorem SlotInv.of_queue (hs : SlotInv s) {ready : List CarrierCall}
    (hg : g < s.generationCount)
    (hgens : ∀ k, s'.generations k =
      if k = g then { s.generations g with ready := ready } else s.generations k)
    (hready : ∀ call ∈ (s.generations g).ready, call ∈ ready)
    (hslots : s'.generationCount = s.generationCount ∧ s'.current = s.current ∧
      s'.next = s.next) (hposts : s'.sealPosts = s.sealPosts)
    (honce : Once s') (hroots : Roots s') (hledger : Ledger s')
    (hdone : ∀ (t : Nat) (task : CarrierTask), s'.tasks[t]? = some task →
      task.released = true → task.done = true) : SlotInv s' := by
  refine ⟨?_, ?_, honce, hroots, hledger, hdone, ?_, ?_⟩
  · intro k hk
    rw [hslots.1] at hk
    rw [hgens, if_neg (by omega)]
    exact hs.fresh k hk
  · intro k hk
    rw [hslots.1]
    rw [hslots.2.1, hslots.2.2] at hk
    exact hs.slots k hk
  · intro k hk hzero
    rw [hslots.1] at hk
    rw [SlotState.reservations, hgens] at hzero
    rw [hgens]
    split at hzero
    · rename_i hkg
      subst hkg
      rw [if_pos rfl]
      exact hs.idle_sealed k hk hzero
    · rename_i hkg
      rw [if_neg hkg]
      exact hs.idle_sealed k hk hzero
  · intro k hrun hzero
    rw [SlotState.reservations, hgens] at hzero
    rw [hgens] at hrun
    unfold SealDue
    rw [hgens, hposts]
    split at hzero
    · rename_i hkg
      subst hkg
      rw [if_pos rfl] at hrun ⊢
      rcases hs.idle_seals k hrun hzero with h | h | h | h
      · exact Or.inl h
      · exact Or.inr (Or.inl h)
      · exact Or.inr (Or.inr (Or.inl (hready _ h)))
      · exact Or.inr (Or.inr (Or.inr h))
    · rename_i hkg
      rw [if_neg hkg] at hrun ⊢
      exact hs.idle_seals k hrun hzero

/-- The rule of the task factory, with what its caller does to the submissions. -/
theorem SlotInv.of_factory (hs : SlotInv s) {context : Option ExecutionContext}
    {root : Option Nat} {u : SlotState} (hg : g < s.generationCount)
    (hu : FactoryEffect s g context root u)
    (hsame : s'.generations = u.generations ∧ s'.tasks = u.tasks ∧ s'.handles = u.handles ∧
      s'.leases = u.leases ∧ s'.sealPosts = u.sealPosts)
    (hslots : s'.generationCount = u.generationCount ∧ s'.current = u.current ∧
      s'.next = u.next)
    (hopen : ∀ k, s'.submissions.countP (openOn k) = s.submissions.countP (openOn k))
    (hopenFor : ∀ k, s'.submissions.countP (openFor k) = s.submissions.countP (openFor k))
    (hdue : ∀ k m, queued (s.generations k) (.startSubmission m) ≤
      (s'.due k (.startSubmission m)).toNat) (hroots : Roots s') : SlotInv s' := by
  obtain ⟨hgens', htasks', hhandles', hleases', hposts'⟩ := hsame
  have hgens : ∀ k, s'.generations k =
      if k = g then
        { s.generations g with
          reservations := s.reservations g + (retainedOn g context).isSome.toNat
          ready := (s.generations g).ready ++ [.firstStep s.tasks.length] }
      else s.generations k := by
    intro k
    rw [hgens']
    exact hu.generations k
  have htasks := htasks'.trans hu.tasks
  have hqueued : ∀ k d, queued (s'.generations k) d =
      queued (s.generations k) d +
        if k = g ∧ d = .firstStep s.tasks.length then 1 else 0 := by
    intro k d
    rw [hgens]
    by_cases hk : k = g
    · subst hk
      rw [if_pos rfl]
      have happend := queued_append (s.generations k) (.firstStep s.tasks.length) d
      simp only [true_and]
      rw [← happend]
      cases d <;> rfl
    · simp [hk]
  have hnew : ∀ k, s.due k (.firstStep s.tasks.length) = false ∧
      s.due k (.descendantDone s.tasks.length) = false := by
    intro k
    simp [due]
  have honce : Once s' := by
    apply hs.once.of
    intro k d hd
    rw [hqueued]
    by_cases hfirst : d = .firstStep s.tasks.length
    · subst hfirst
      refine Or.inl ?_
      rw [hs.once.queued_eq_zero hd (hnew k).1]
      by_cases hk : k = g
      · subst hk
        simp [due, htasks]
      · simp [hk]
    · rw [if_neg (fun h => hfirst h.2), Nat.add_zero]
      cases d with
      | startSubmission m => exact Or.inl (hdue k m)
      | firstStep m =>
        refine Or.inr ⟨Nat.le_refl _, due_eq (fun _ h => by cases h) ?_⟩
        rintro v (h | h)
        · cases h
          rw [htasks]
          apply getElem?_append_ne
          rintro rfl
          exact hfirst rfl
        · cases h
      | descendantDone m =>
        by_cases hm : m = s.tasks.length
        · subst hm
          refine Or.inl ?_
          rw [hs.once.queued_eq_zero hd (hnew k).2]
          exact Nat.zero_le _
        · refine Or.inr ⟨Nat.le_refl _, due_eq (fun _ h => by cases h) ?_⟩
          rintro v (h | h)
          · cases h
          · cases h
            rw [htasks]
            exact getElem?_append_ne _ hm
      | cancelTasks _ => cases hd
      | setSeal => cases hd
  have hledger : Ledger s' := by
    constructor
    · intro k
      rw [SlotState.reservations, hgens, hopen, htasks, hleases'.trans hu.leases, countP_concat]
      have hold := hs.ledger.reservations k
      by_cases hk : k = g
      · subst hk
        simp only [if_true, heldOn, decide_true, Bool.true_and, Bool.not_false, Bool.and_true]
        omega
      · simp only [if_neg hk, heldOn, Ne.symm hk, decide_false, Bool.false_and,
          Bool.toNat_false]
        exact hold
    · intro k
      rw [SlotState.pendingWork, hhandles', hu.handles, hopenFor, htasks, countP_concat]
      have hold := hs.ledger.pendingWork k
      simp only [heldFor, Bool.not_false, Bool.and_true]
      omega
  have hdone : ∀ (t : Nat) (task : CarrierTask), s'.tasks[t]? = some task →
      task.released = true → task.done = true := by
    intro t task ht hrel
    rw [htasks] at ht
    rcases getElem?_append_cases ht with ⟨-, rfl⟩ | ht
    · cases hrel
    · exact hs.done_callback t task ht hrel
  obtain ⟨hcount, hcurrent, hnext⟩ := hu.slots
  have hslots' : s'.generationCount = s.generationCount ∧ s'.current = s.current ∧
      s'.next = s.next :=
    ⟨hslots.1.trans hcount, hslots.2.1.trans hcurrent, hslots.2.2.trans hnext⟩
  cases hretained : retainedOn g context with
  | none =>
    rw [hretained] at hgens
    exact hs.of_queue hg hgens (fun call hcall => List.mem_append_left _ hcall) hslots'
      (hposts'.trans hu.sealPosts) honce hroots hledger hdone
  | some x =>
    rw [hretained] at hgens
    have hself : Selected s g s :=
      ⟨rfl, Nat.le_refl _, hg, fun k h h' => by omega, hs.slots, rfl, rfl, rfl, rfl, rfl⟩
    exact hs.of_reserve hself hgens rfl hslots' (hposts'.trans hu.sealPosts) honce hroots
      hledger hdone

theorem SlotInv.createTask (hs : SlotInv s) {context : Option ExecutionContext}
    (hg : g < s.generationCount) (h : s.taskFactory g context none = .ok s') : SlotInv s' := by
  have hu := taskFactory_effect h
  apply hs.of_factory hg hu ⟨rfl, rfl, rfl, rfl, rfl⟩ ⟨rfl, rfl, rfl⟩
  · intro k
    rw [hu.submissions]
  · intro k
    rw [hu.submissions]
  · intro k m
    rw [due_eq (s := s) (fun _ _ => by rw [hu.submissions])
      (fun _ h => by rcases h with h | h <;> cases h)]
    exact hs.once k _ rfl
  · exact hs.roots.append_task rfl hu.tasks hu.submissions

theorem SlotInv.startSubmission (hs : SlotInv s) (hg : g < s.generationCount)
    (hdue : s.due g (.startSubmission n) = true)
    (hqueued : queued (s.generations g) (.startSubmission n) = 0) :
    SlotInv (s.startSubmission g n) := by
  unfold SlotState.startSubmission
  split
  · exact hs
  · rename_i submission hn
    split
    · exact hs
    · rename_i u hfactory
      have hu := taskFactory_effect hfactory
      have hsub : submission.generation = g ∧ submission.rootTask = none := by
        simpa [due, hn] using hdue
      apply hs.of_factory hg hu
      · exact ⟨rfl, rfl, rfl, rfl, rfl⟩
      · exact ⟨rfl, rfl, rfl⟩
      · intro k
        exact countP_set_same hn rfl
      · intro k
        exact countP_set_same hn rfl
      · intro k m
        by_cases hm : m = n
        · subst hm
          have hzero : queued (s.generations k) (.startSubmission m) = 0 := by
            by_cases hk : k = g
            · rw [hk]
              exact hqueued
            · apply hs.once.queued_eq_zero rfl
              simp [due, hn, hsub.1, Ne.symm hk]
          rw [hzero]
          exact Nat.zero_le _
        · rw [due_eq (s := s) ?_ (fun _ h => by rcases h with h | h <;> cases h)]
          · exact hs.once k _ rfl
          · rintro v h
            cases h
            exact List.getElem?_set_ne (Ne.symm hm)
      · exact hs.roots.start hn hsub.2 hu.tasks rfl rfl hsub.1 rfl rfl

/-! ## 11. Steps of tasks -/

/-- `_run_submission` begins: the submission and the owner are recorded. -/
theorem SlotInv.beginSubmission (hs : SlotInv s) (t n : Nat) :
    SlotInv (s.beginSubmission t n) := by
  unfold SlotState.beginSubmission
  split
  · exact hs
  · rename_i submission hn
    have hbegun : SlotInv { s with
        submissions := s.submissions.set n { submission with begun := true } } := by
      refine ⟨hs.fresh, hs.slots, ?_, ?_, ⟨fun k => ?_, fun k => ?_⟩, hs.done_callback,
        hs.idle_sealed, hs.idle_seals⟩
      · apply hs.once.of
        intro k d _
        refine Or.inr ⟨Nat.le_refl _, ?_⟩
        by_cases hd : d = .startSubmission n
        · subst hd
          simp only [due, getElem?_set_self' hn, hn, Option.any_some]
        · refine due_eq ?_ (fun _ _ => rfl)
          rintro m rfl
          refine List.getElem?_set_ne ?_
          rintro rfl
          exact hd rfl
      · exact hs.roots.set_submission hn rfl rfl rfl rfl rfl
      · dsimp only
        rw [show (s.submissions.set n { submission with begun := true }).countP (openOn k) = _
          from countP_set_same hn rfl]
        exact hs.ledger.reservations k
      · dsimp only
        rw [show (s.submissions.set n { submission with begun := true }).countP (openFor k) = _
          from countP_set_same hn rfl]
        exact hs.ledger.pendingWork k
    dsimp only
    split
    · apply hbegun.setHandles
      intro k
      by_cases hk : k = submission.handle
      · subst hk
        simp [SlotState.pendingWork]
      · simp [SlotState.pendingWork, hk]
    · exact hbegun

/-- A task ends: its done callback is queued. -/
theorem SlotInv.completeTask (hs : SlotInv s) {task : CarrierTask} (ht : s.tasks[t]? = some task)
    (hdone : task.done = false) (hg : task.generation < s.generationCount)
    (hfirst : ∀ k, queued (s.generations k) (.firstStep t) = 0) :
    SlotInv (s.completeTask t task) := by
  have hreleased : task.released = false := by
    by_contra hrel
    rw [hs.done_callback t task ht (by simpa using hrel)] at hdone
    cases hdone
  have hnone : ∀ k, queued (s.generations k) (.descendantDone t) = 0 := by
    intro k
    apply hs.once.queued_eq_zero rfl
    simp [due, ht, hdone]
  have htasks : (s.completeTask t task).tasks = s.tasks.set t { task with done := true } := by
    unfold SlotState.completeTask
    dsimp only
    split <;> rfl
  have hframe : (s.completeTask t task).submissions = s.submissions ∧
      (s.completeTask t task).leases = s.leases ∧ (s.completeTask t task).handles = s.handles ∧
      (s.completeTask t task).sealPosts = s.sealPosts ∧
      (s.completeTask t task).generationCount = s.generationCount ∧
      (s.completeTask t task).current = s.current ∧ (s.completeTask t task).next = s.next := by
    unfold SlotState.completeTask
    dsimp only
    split <;> exact ⟨rfl, rfl, rfl, rfl, rfl, rfl, rfl⟩
  obtain ⟨hsubs, hleases, hhandles, hposts, hslots⟩ := hframe
  have hgens : ∃ ready, (∀ k, (s.completeTask t task).generations k =
        if k = task.generation then { s.generations task.generation with ready := ready }
        else s.generations k) ∧
      (∀ call ∈ (s.generations task.generation).ready, call ∈ ready) ∧
      ∀ d, queued { s.generations task.generation with ready := ready } d =
        queued (s.generations task.generation) d +
          if task.retained.isSome ∧ d = .descendantDone t then 1 else 0 := by
    unfold SlotState.completeTask
    dsimp only
    split
    · rename_i hsome
      refine ⟨_, fun k => generations_setGeneration _ _ k _,
        fun call hcall => List.mem_append_left _ hcall, fun d => ?_⟩
      simp only [hsome, true_and]
      exact queued_append _ _ d
    · rename_i hsome
      refine ⟨(s.generations task.generation).ready, fun k => ?_, fun call hcall => hcall,
        fun d => ?_⟩
      · split
        · rename_i hk
          rw [hk]
        · rfl
      · rw [if_neg (fun h => hsome h.1)]
        rfl
  obtain ⟨ready, hgens, hready, hqueued⟩ := hgens
  apply hs.of_queue hg hgens hready hslots hposts
  · apply hs.once.of
    intro k d hd
    have hk : queued ((s.completeTask t task).generations k) d = queued (s.generations k) d +
        if k = task.generation ∧ task.retained.isSome ∧ d = .descendantDone t then 1 else 0 := by
      rw [hgens]
      by_cases hkg : k = task.generation
      · rw [if_pos hkg, hqueued, hkg]
        simp only [true_and]
      · simp [hkg]
    rw [hk]
    by_cases hfirst' : d = .firstStep t
    · subst hfirst'
      refine Or.inl ?_
      rw [hfirst k, if_neg (fun h => by cases h.2.2)]
      exact Nat.zero_le _
    · by_cases hdone' : d = .descendantDone t
      · subst hdone'
        refine Or.inl ?_
        rw [hnone k]
        split
        · rename_i hcond
          simp [due, htasks, getElem?_set_self' ht, hcond.1, hcond.2.1, hreleased]
        · exact Nat.zero_le _
      · refine Or.inr ⟨?_, due_eq (fun _ _ => by rw [hsubs]) ?_⟩
        · rw [if_neg (fun h => hdone' h.2.2)]
          exact Nat.le_refl _
        · rintro m hm
          rw [htasks]
          refine List.getElem?_set_ne ?_
          rintro rfl
          rcases hm with hm | hm
          · exact hfirst' hm
          · exact hdone' hm
  · exact hs.roots.set_task ht htasks hsubs rfl rfl (fun _ => rfl)
  · constructor
    · intro k
      rw [hsubs, htasks, hleases, countP_set_same (y := { task with done := true }) ht rfl,
        SlotState.reservations, hgens]
      split
      · rename_i hk
        rw [hk]
        exact hs.ledger.reservations task.generation
      · exact hs.ledger.reservations k
    · intro k
      rw [hsubs, htasks, countP_set_same (y := { task with done := true }) ht rfl,
        SlotState.pendingWork, hhandles]
      exact hs.ledger.pendingWork k
  · intro u task₁ hu hrel
    rw [htasks] at hu
    rcases getElem?_set_cases ht hu with ⟨rfl, rfl⟩ | ⟨-, hu⟩
    · rfl
    · exact hs.done_callback u task₁ hu hrel

/-- The `finally` of `_run_submission`, once the root task is done. -/
theorem SlotInv.finishSubmission (hs : SlotInv s) {submission : Submission}
    (hn : s.submissions[n]? = some submission) (hopen : submission.released = false)
    {task : CarrierTask} (hroot : submission.rootTask = some t) (ht : s.tasks[t]? = some task)
    (hdone : task.done = true) : SlotInv (s.finishSubmission n) := by
  have hdropG : (s.submissions.set n { submission with released := true }).countP
      (openOn submission.generation) + 1 = s.submissions.countP (openOn submission.generation) :=
    countP_set_drop hn (by simp [openOn, hopen]) (by simp [openOn])
  have hdropH : (s.submissions.set n { submission with released := true }).countP
      (openFor submission.handle) + 1 = s.submissions.countP (openFor submission.handle) :=
    countP_set_drop hn (by simp [openFor, hopen]) (by simp [openFor])
  have hres : 0 < s.reservations submission.generation := by
    rw [hs.ledger.reservations]
    omega
  unfold SlotState.finishSubmission
  rw [hn]
  dsimp only
  apply hs.of_release hres
  · rfl
  · rfl
  · exact ⟨rfl, rfl, rfl⟩
  · apply hs.once.of
    intro k d _
    refine Or.inr ⟨Nat.le_of_eq (queued_releaseReservation s _ k d), ?_⟩
    by_cases hd : d = .startSubmission n
    · subst hd
      simp only [due, releaseWork, releaseReservation, setHandle, setGeneration,
        getElem?_set_self' hn, hn, Option.any_some]
    · refine due_eq ?_ (fun _ _ => rfl)
      rintro m rfl
      refine List.getElem?_set_ne ?_
      rintro rfl
      exact hd rfl
  · refine ⟨fun u task₁ m hu hm => ?_, fun m submission₁ u hm hu => ?_,
      fun m submission₁ hm hrel => ?_⟩
    · have hold := (hs.roots.of_root u task₁ m hu hm)
      obtain ⟨submission₁, h₁, hroot₁, hgen₁⟩ := hold
      by_cases hmn : m = n
      · subst hmn
        obtain rfl : submission = submission₁ := Option.some.inj (hn.symm.trans h₁)
        exact ⟨_, getElem?_set_self' hn, hroot₁, hgen₁⟩
      · exact ⟨submission₁, (List.getElem?_set_ne (Ne.symm hmn)).trans h₁, hroot₁, hgen₁⟩
    · rcases getElem?_set_cases hn hm with ⟨rfl, rfl⟩ | ⟨-, hm⟩
      · exact hs.roots.of_submission m submission u hn hu
      · exact hs.roots.of_submission m submission₁ u hm hu
    · rcases getElem?_set_cases hn hm with ⟨rfl, rfl⟩ | ⟨-, hm⟩
      · exact ⟨t, task, hroot, ht, hdone⟩
      · exact hs.roots.released_done m submission₁ hm hrel
  · constructor
    · intro k
      have hold := hs.ledger.reservations k
      have hgen := generations_releaseReservation s submission.generation k
      change ((s.releaseReservation submission.generation).generations k).reservations =
        s.leases k + (s.submissions.set n { submission with released := true }).countP (openOn k) +
          s.tasks.countP (heldOn k)
      rw [hgen]
      by_cases hk : k = submission.generation
      · subst hk
        rw [if_pos rfl]
        dsimp only
        omega
      · rw [if_neg hk, countP_set_same hn (by simp [openOn, Ne.symm hk])]
        exact hold
    · intro k
      have hold := hs.ledger.pendingWork k
      change (Function.update s.handles submission.handle { s.handles submission.handle with
          pendingWork := (s.handles submission.handle).pendingWork - 1 } k).pendingWork =
        (s.submissions.set n { submission with released := true }).countP (openFor k) +
          s.tasks.countP (heldFor k)
      rw [Function.update_apply]
      unfold SlotState.pendingWork at hold
      by_cases hk : k = submission.handle
      · subst hk
        rw [if_pos rfl]
        dsimp only
        omega
      · rw [if_neg hk, countP_set_same hn (by simp [openFor, Ne.symm hk])]
        exact hold
  · exact hs.done_callback

/-- The end of a root task and the `finally` of its coroutine do not interfere. -/
theorem finishSubmission_completeTask {submission : Submission} {task : CarrierTask}
    (hn : s.submissions[n]? = some submission)
    (hgen : submission.generation = task.generation) :
    (s.finishSubmission n).completeTask t task = (s.completeTask t task).finishSubmission n := by
  have hsubs : (s.completeTask t task).submissions = s.submissions := by
    unfold SlotState.completeTask
    dsimp only
    split <;> rfl
  unfold SlotState.finishSubmission
  rw [hsubs, hn]
  dsimp only
  unfold SlotState.completeTask
  dsimp only
  by_cases hsome : task.retained.isSome = true
  · rw [if_pos hsome, if_pos hsome]
    simp only [SlotState.callSoon, releaseWork, releaseReservation, setHandle, setGeneration, hgen,
      Function.update_idem, Function.update_self]
  · rw [if_neg hsome, if_neg hsome]
    rfl

theorem SlotInv.endTask (hs : SlotInv s) {task : CarrierTask} (ht : s.tasks[t]? = some task)
    (hbegun : task.begun = true) (hdone : task.done = false)
    (hg : task.generation < s.generationCount) : SlotInv (s.endTask t task) := by
  have hfirst : ∀ k, queued (s.generations k) (.firstStep t) = 0 := by
    intro k
    apply hs.once.queued_eq_zero rfl
    simp [due, ht, hbegun]
  have hcomplete := hs.completeTask ht hdone hg hfirst
  unfold SlotState.endTask
  split
  · rename_i n hroot
    obtain ⟨submission, hn, hsubroot, hgen⟩ := hs.roots.of_root t task n ht hroot
    have hopen : submission.released = false := by
      by_contra hrel
      obtain ⟨u, task₁, hu, hu₁, hdone₁⟩ :=
        hs.roots.released_done n submission hn (by simpa using hrel)
      obtain rfl : t = u := Option.some.inj (hsubroot.symm.trans hu)
      obtain rfl : task = task₁ := Option.some.inj (ht.symm.trans hu₁)
      rw [hdone] at hdone₁
      cases hdone₁
    have htables : (s.completeTask t task).submissions = s.submissions ∧
        (s.completeTask t task).tasks = s.tasks.set t { task with done := true } := by
      unfold SlotState.completeTask
      dsimp only
      split <;> exact ⟨rfl, rfl⟩
    rw [finishSubmission_completeTask hn hgen]
    apply hcomplete.finishSubmission
    · rw [htables.1]
      exact hn
    · exact hopen
    · exact hsubroot
    · rw [htables.2]
      exact getElem?_set_self' ht
    · rfl
  · exact hcomplete

theorem SlotInv.firstStep (hs : SlotInv s) (hdue : s.due g (.firstStep t) = true)
    (hqueued : queued (s.generations g) (.firstStep t) = 0) (hg : g < s.generationCount) :
    SlotInv (s.firstStep t) := by
  unfold SlotState.firstStep
  split
  · exact hs
  · rename_i task ht
    obtain ⟨⟨hgen, hbegun⟩, hdone⟩ : (task.generation = g ∧ task.begun = false) ∧
        task.done = false := by
      simpa [due, ht] using hdue
    have hfirst : ∀ k, queued (s.generations k) (.firstStep t) = 0 := by
      intro k
      by_cases hk : k = g
      · rw [hk]
        exact hqueued
      · apply hs.once.queued_eq_zero rfl
        simp [due, ht, hgen, Ne.symm hk]
    split
    · exact hs.completeTask ht hdone (hgen ▸ hg) hfirst
    · have hbegin : SlotInv { s with tasks := s.tasks.set t { task with begun := true } } :=
        hs.setTask ht rfl rfl rfl rfl rfl (Or.inr hfirst)
      dsimp only
      split
      · exact hbegin.beginSubmission t _
      · exact hbegin

theorem SlotInv.descendantDone (hs : SlotInv s) (hdue : s.due g (.descendantDone t) = true)
    (hqueued : queued (s.generations g) (.descendantDone t) = 0) :
    SlotInv (s.descendantDone t) := by
  unfold SlotState.descendantDone
  split
  · rename_i task ht
    split
    · rename_i x hx
      obtain ⟨⟨hgen, hdone⟩, hopen⟩ : (task.generation = g ∧ task.done = true) ∧
          task.released = false := by
        simpa [due, ht, hx] using hdue
      have hdropG : (s.tasks.set t { task with released := true }).countP
          (heldOn task.generation) + 1 = s.tasks.countP (heldOn task.generation) :=
        countP_set_drop ht (by simp [heldOn, hx, hopen]) (by simp [heldOn])
      have hdropH : (s.tasks.set t { task with released := true }).countP
          (heldFor x.handle) + 1 = s.tasks.countP (heldFor x.handle) :=
        countP_set_drop ht (by simp [heldFor, hx, hopen]) (by simp [heldFor])
      have hres : 0 < s.reservations task.generation := by
        rw [hs.ledger.reservations]
        omega
      have hnone : ∀ k, queued (s.generations k) (.descendantDone t) = 0 := by
        intro k
        by_cases hk : k = g
        · rw [hk]
          exact hqueued
        · apply hs.once.queued_eq_zero rfl
          simp [due, ht, hgen, Ne.symm hk]
      apply hs.of_release hres
      · rfl
      · rfl
      · exact ⟨rfl, rfl, rfl⟩
      · apply hs.once.of
        intro k d _
        by_cases hd : d = .descendantDone t
        · subst hd
          refine Or.inl ?_
          have hzero := (queued_releaseReservation s task.generation k _).trans (hnone k)
          exact Nat.le_trans (Nat.le_of_eq hzero) (Nat.zero_le _)
        · refine Or.inr ⟨Nat.le_of_eq (queued_releaseReservation s _ k d), ?_⟩
          by_cases hd' : d = .firstStep t
          · subst hd'
            simp only [due, releaseWork, releaseReservation, setHandle, setGeneration,
              getElem?_set_self' ht, ht, Option.any_some]
          · refine due_eq (fun _ _ => rfl) ?_
            rintro m hm
            refine List.getElem?_set_ne ?_
            rintro rfl
            rcases hm with hm | hm
            · exact hd' hm
            · exact hd hm
      · exact hs.roots.set_task ht rfl rfl rfl rfl (fun h => h)
      · constructor
        · intro k
          have hold := hs.ledger.reservations k
          change ((s.releaseReservation task.generation).generations k).reservations =
            s.leases k + s.submissions.countP (openOn k) +
              (s.tasks.set t { task with released := true }).countP (heldOn k)
          rw [generations_releaseReservation]
          by_cases hk : k = task.generation
          · subst hk
            rw [if_pos rfl]
            dsimp only
            omega
          · rw [if_neg hk, countP_set_same ht (by simp [heldOn, Ne.symm hk])]
            exact hold
        · intro k
          have hold := hs.ledger.pendingWork k
          change (Function.update s.handles x.handle { s.handles x.handle with
              pendingWork := (s.handles x.handle).pendingWork - 1 } k).pendingWork =
            s.submissions.countP (openFor k) +
              (s.tasks.set t { task with released := true }).countP (heldFor k)
          rw [Function.update_apply]
          unfold SlotState.pendingWork at hold
          by_cases hk : k = x.handle
          · subst hk
            rw [if_pos rfl]
            dsimp only
            omega
          · rw [if_neg hk, countP_set_same ht (by simp [heldFor, hx, Ne.symm hk])]
            exact hold
      · intro u task₁ hu hrel
        rcases getElem?_set_cases ht hu with ⟨rfl, rfl⟩ | ⟨-, hu⟩
        · exact hdone
        · exact hs.done_callback u task₁ hu hrel
    · exact hs
  · exact hs

/-! ## 12. Every step -/

theorem SlotInv.loopStep (hs : SlotInv s) (hstep : s.loopStep g = some s') : SlotInv s' := by
  unfold SlotState.loopStep at hstep
  split at hstep
  · cases hstep
  · rename_i call rest hready
    cases hstep
    have hg := hs.lt_of_ready hready
    have hqueue : ∀ d, queued ((s.setGeneration g { s.generations g with
        ready := rest }).generations g) d = queued { s.generations g with ready := rest } d := by
      intro d
      rw [generations_setGeneration, if_pos rfl]
    cases call with
    | startSubmission n =>
      obtain ⟨hdue, hzero⟩ := hs.once.due_of_ready rfl hready
      exact (hs.pop hready (by simp)).startSubmission hg hdue ((hqueue _).trans hzero)
    | firstStep t =>
      obtain ⟨hdue, hzero⟩ := hs.once.due_of_ready rfl hready
      exact (hs.pop hready (by simp)).firstStep hdue ((hqueue _).trans hzero) hg
    | cancelTasks tasks =>
      exact (hs.pop hready (by simp)).cancelTasks tasks
    | descendantDone t =>
      obtain ⟨hdue, hzero⟩ := hs.once.due_of_ready rfl hready
      exact (hs.pop hready (by simp)).descendantDone hdue ((hqueue _).trans hzero)
    | setSeal =>
      exact hs.setSeal hready

/-- What the steps do: the guards of `step` as hypotheses. -/
inductive Stepped (s : SlotState) : SlotEvent → SlotState → Prop
  | submit (preferred : Option Nat) (h : Nat) (phase : WorkPhase) (context : Option (Nat × Bool))
      (hexists : s.contextExists context)
      (hbody : phase = .body → (s.handles h).bodySubmission = none) :
      Stepped s (.submit preferred h phase context)
        (s.submit preferred h phase (s.contextOf context))
  | acquireLease {u : SlotState} (preferred : Option Nat) (g : Nat)
      (hreserve : s.reserveLocked preferred = .ok (g, u)) :
      Stepped s (.acquireLease preferred)
        { u with leases := Function.update u.leases g (u.leases g + 1) }
  | leaseRefused (preferred : Option Nat) : Stepped s (.acquireLease preferred) s
  | releaseLease (g : Nat) (hheld : 0 < s.leases g) :
      Stepped s (.releaseLease g)
        (releaseReservation { s with leases := Function.update s.leases g (s.leases g - 1) } g)
  | postSeal (g : Nat) (hposted : g ∈ s.sealPosts) :
      Stepped s (.postSeal g)
        (if (s.generations g).running then
          callSoon { s with sealPosts := s.sealPosts.erase g } g .setSeal
        else { s with sealPosts := s.sealPosts.erase g })
  | runGeneration (g : Nat) (hcurrent : s.current = some g)
      (hstopped : (s.generations g).running = false) (hopen : (s.generations g).state ≠ .closed) :
      Stepped s (.runGeneration g) (s.runGeneration g)
  | queueTaken {s' : SlotState} (g : Nat) (hrun : (s.generations g).running = true)
      (htaken : s.queueTaken g = some s') : Stepped s (.queueTaken g) s'
  | loopStep {s' : SlotState} (g : Nat) (hfree : s.loopFree g = true)
      (hloop : s.loopStep g = some s') : Stepped s (.loopStep g) s'
  | createTask {s' : SlotState} (g : Nat) (context : Option (Nat × Bool))
      (hfree : s.loopFree g = true)
      (hfactory : s.taskFactory g (s.contextOf context) none = .ok s') :
      Stepped s (.createTask g context) s'
  | taskRefused (g : Nat) (context : Option (Nat × Bool)) : Stepped s (.createTask g context) s
  | endTask (t : Nat) (task : CarrierTask) (ht : s.tasks[t]? = some task)
      (hbegun : task.begun = true) (hdone : ¬ task.done)
      (hfree : s.loopFree task.generation = true) : Stepped s (.endTask t) (s.endTask t task)
  | cancel (h : Nat) : Stepped s (.cancel h) (s.cancel h)
  | drain (g : Nat) (hfree : s.loopFree g = true) (hseal : (s.generations g).sealEvent = true) :
      Stepped s (.drain g) (s.setGeneration g { s.generations g with state := .draining })
  | close (g : Nat) (hfree : s.loopFree g = true) (hdraining : (s.generations g).state = .draining) :
      Stepped s (.close g) (s.closeGeneration g)
  | exit (g : Nat) (hfree : s.loopFree g = true) : Stepped s (.exit g) (s.closeGeneration g)
  | shutdown : Stepped s .shutdown { s with controlOpen := false }

theorem stepped {e : SlotEvent} (hstep : s.step e = some s') : s.Stepped e s' := by
  cases e with
  | submit preferred h phase context =>
    obtain ⟨⟨hexists, hbody⟩, rfl⟩ := when_eq_some hstep
    exact .submit preferred h phase context hexists hbody
  | acquireLease preferred =>
    simp only [SlotState.step] at hstep
    split at hstep
    · rename_i g u hreserve
      cases hstep
      exact .acquireLease preferred g hreserve
    · cases hstep
      exact .leaseRefused preferred
  | releaseLease g =>
    obtain ⟨hheld, rfl⟩ := when_eq_some hstep
    exact .releaseLease g hheld
  | postSeal g =>
    obtain ⟨hposted, rfl⟩ := when_eq_some hstep
    exact .postSeal g hposted
  | runGeneration g =>
    obtain ⟨⟨hcurrent, hstopped, hopen⟩, rfl⟩ := when_eq_some hstep
    exact .runGeneration g hcurrent hstopped hopen
  | queueTaken g =>
    simp only [SlotState.step] at hstep
    split at hstep
    · rename_i hrun
      exact .queueTaken g hrun hstep
    · cases hstep
  | loopStep g =>
    simp only [SlotState.step] at hstep
    split at hstep
    · rename_i hfree
      exact .loopStep g hfree hstep
    · cases hstep
  | createTask g context =>
    simp only [SlotState.step] at hstep
    split at hstep
    · rename_i hcond
      split at hstep
      · rename_i u hfactory
        cases hstep
        exact .createTask g context hcond.1 hfactory
      · cases hstep
        exact .taskRefused g context
    · cases hstep
  | endTask t =>
    simp only [SlotState.step] at hstep
    split at hstep
    · rename_i task ht
      obtain ⟨⟨hbegun, hdone, hfree⟩, rfl⟩ := when_eq_some hstep
      exact .endTask t task ht hbegun hdone hfree
    · cases hstep
  | cancel h =>
    cases hstep
    exact .cancel h
  | drain g =>
    obtain ⟨⟨hfree, hseal⟩, rfl⟩ := when_eq_some hstep
    exact .drain g hfree hseal
  | close g =>
    obtain ⟨⟨hfree, hdraining⟩, rfl⟩ := when_eq_some hstep
    exact .close g hfree hdraining
  | exit g =>
    obtain ⟨hfree, rfl⟩ := when_eq_some hstep
    exact .exit g hfree
  | shutdown =>
    cases hstep
    exact .shutdown

theorem running_of_loopFree (hfree : s.loopFree g = true) :
    (s.generations g).running = true := by
  unfold loopFree at hfree
  exact (Bool.and_eq_true_iff.mp (Bool.and_eq_true_iff.mp hfree).1).1

/-- **Step lemma of the slot**, for every event in every state. -/
theorem SlotInv.step {e : SlotEvent} (hs : SlotInv s) (hstep : s.step e = some s') :
    SlotInv s' := by
  cases stepped hstep with
  | submit preferred h phase context hexists hbody =>
    exact hs.submit
  | @acquireLease u preferred g hreserve =>
    exact hs.acquireLease hreserve
  | leaseRefused preferred =>
    exact hs
  | releaseLease g hheld =>
    exact hs.releaseLease hheld
  | postSeal g hposted =>
    exact hs.postSeal
  | runGeneration g hcurrent hstopped hopen =>
    exact hs.runGeneration hcurrent
  | queueTaken g hrun htaken =>
    exact hs.queueTaken hrun htaken
  | loopStep g hfree hloop =>
    exact hs.loopStep hloop
  | createTask g context hfree hfactory =>
    have hg := hs.lt_of_running (running_of_loopFree hfree)
    exact hs.createTask hg hfactory
  | taskRefused g context =>
    exact hs
  | endTask t task ht hbegun hdone hfree =>
    exact hs.endTask ht hbegun (by simpa using hdone)
      (hs.lt_of_running (running_of_loopFree hfree))
  | cancel h =>
    exact hs.cancel h
  | drain g hfree hseal =>
    exact hs.drain (running_of_loopFree hfree)
  | close g hfree _ | exit g hfree =>
    exact hs.close (running_of_loopFree hfree)
  | shutdown =>
    exact ⟨hs.fresh, hs.slots, hs.once.congr rfl rfl fun _ _ _ => Nat.le_refl _,
      hs.roots.congr rfl rfl, hs.ledger.congr rfl rfl rfl (fun _ => rfl) fun _ => rfl,
      hs.done_callback, hs.idle_sealed, hs.idle_seals⟩

theorem slotInv_initial : SlotInv {} := by
  refine ⟨fun _ _ => rfl, fun g hg => ?_, fun g d _ => ?_, ⟨fun t task n ht => ?_,
    fun n submission t hn => ?_, fun n submission hn => ?_⟩, ⟨fun _ => rfl, fun _ => rfl⟩,
    fun t task ht => ?_, fun g hg => ?_, fun g hrun => ?_⟩
  · rcases hg with hg | hg <;> cases hg
  · cases d <;> exact Nat.le_refl _
  · simp at ht
  · simp at hn
  · simp at hn
  · simp at ht
  · exact absurd hg (Nat.not_lt_zero g)
  · cases hrun

/-- **The ledger holds in every run.** -/
theorem reachable_slotInv {ok : SlotState → SlotEvent → Prop}
    (hs : slotSystem.ReachUnder ok s) : SlotInv s := by
  apply hs.invariant (I := SlotInv)
  · rintro _ rfl
    exact slotInv_initial
  · intro t e t' ht _ hstep
    exact ht.step hstep

end SlotState

end AgentlyStage
