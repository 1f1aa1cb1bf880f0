import AgentlyStage.CarrierLedger

/-!
# Contexts and owners of carrier work

An execution context belongs to a submission whose `_run_submission` has begun, the owner
of a body and everything its body creates run on one loop, and a cancellation posted to
that loop names only tasks that have begun or are queued there.  This holds in every run.
-/

namespace AgentlyStage

open Transition

namespace SlotState

variable {s s' : SlotState} {g k h n t : Nat}

/-! ## 1. Contexts and owners -/

/-- An execution context belongs to a submission that has begun. -/
def ContextOk (s : SlotState) (x : ExecutionContext) : Prop :=
  ∃ submission, s.submissions[x.submission]? = some submission ∧ submission.begun = true ∧
    submission.generation = x.generation ∧ submission.handle = x.handle ∧
    (x.phase = .body → submission.phase = .body)

structure Lineage (s : SlotState) : Prop where
  submission_context : ∀ (n : Nat) (submission : Submission) (x : ExecutionContext),
    s.submissions[n]? = some submission → submission.context = some x → s.ContextOk x
  task_context : ∀ (t : Nat) (task : CarrierTask) (x : ExecutionContext),
    s.tasks[t]? = some task → task.retained = some x →
    s.ContextOk x ∧ x.generation = task.generation
  body_submission : ∀ (n : Nat) (submission : Submission),
    s.submissions[n]? = some submission → submission.phase = .body →
    (s.handles submission.handle).bodySubmission = some n
  owner_loop : ∀ (n : Nat) (submission : Submission),
    s.submissions[n]? = some submission → submission.begun = true →
    submission.phase = .body →
    (s.handles submission.handle).ownerLoop = some submission.generation
  owner_task : ∀ (h t : Nat), (s.handles h).ownerTask = some t →
    ∃ task, s.tasks[t]? = some task ∧ task.begun = true
  /-- A queued `_cancel_tasks` names tasks that have begun or wait on the same loop. -/
  cancels : ∀ (g : Nat) (tasks : List Nat), .cancelTasks tasks ∈ (s.generations g).ready →
    ∀ t ∈ tasks, ∃ task, s.tasks[t]? = some task ∧
      (task.begun = true ∨ task.generation = g)

/-- The owner of a body and its descendants run on one loop. -/
theorem Lineage.ownerLoop_of_context (hl : Lineage s) {x : ExecutionContext}
    (hx : s.ContextOk x) (hbody : x.phase = .body) :
    (s.handles x.handle).ownerLoop = some x.generation := by
  obtain ⟨submission, hn, hbegun, hgen, hhandle, hphase⟩ := hx
  have := hl.owner_loop _ submission hn hbegun (hphase hbody)
  rwa [hhandle, hgen] at this

/-- What the steps of the tables keep of a task and of a submission. -/
structure Extends (s s' : SlotState) : Prop where
  tasks : ∀ (t : Nat) (task : CarrierTask), s.tasks[t]? = some task →
    ∃ task' : CarrierTask, s'.tasks[t]? = some task' ∧ task'.generation = task.generation ∧
      (task.begun = true → task'.begun = true)
  submissions : ∀ (n : Nat) (submission : Submission), s.submissions[n]? = some submission →
    ∃ submission' : Submission, s'.submissions[n]? = some submission' ∧
      submission'.generation = submission.generation ∧
      submission'.handle = submission.handle ∧ submission'.phase = submission.phase ∧
      (submission.begun = true → submission'.begun = true)

theorem ContextOk.extends {x : ExecutionContext} (hx : s.ContextOk x) (he : Extends s s') :
    s'.ContextOk x := by
  obtain ⟨submission, hn, hbegun, hgen, hhandle, hphase⟩ := hx
  obtain ⟨submission', hn', hgen', hhandle', hphase', hbegun'⟩ := he.submissions _ _ hn
  refine ⟨submission', hn', hbegun' hbegun, hgen'.trans hgen, hhandle'.trans hhandle, ?_⟩
  intro hb
  rw [hphase']
  exact hphase hb

theorem contextOk_of_executionOf {m : Nat} {settlement : Bool} {x : ExecutionContext}
    (h : s.executionOf m settlement = some x) : s.ContextOk x := by
  unfold executionOf at h
  split at h
  · rename_i submission hm
    split at h
    · rename_i hbegun
      cases h
      refine ⟨submission, hm, hbegun, rfl, rfl, fun hbody => ?_⟩
      cases settlement with
      | true => cases hbody
      | false => exact hbody
    · cases h
  · cases h

theorem contextOk_of_contextOf {context : Option (Nat × Bool)} {x : ExecutionContext}
    (h : s.contextOf context = some x) : s.ContextOk x := by
  cases context with
  | none => cases h
  | some p => exact contextOk_of_executionOf h

/-- The rule of the steps that leave the tables and the owners as they are and queue no
    cancellation. -/
theorem Lineage.of_tables (hl : Lineage s) (hsubs : s'.submissions = s.submissions)
    (htasks : s'.tasks = s.tasks)
    (howner : ∀ k, (s'.handles k).ownerLoop = (s.handles k).ownerLoop ∧
      (s'.handles k).ownerTask = (s.handles k).ownerTask ∧
      (s'.handles k).bodySubmission = (s.handles k).bodySubmission)
    (hready : ∀ k tasks, .cancelTasks tasks ∈ (s'.generations k).ready →
      .cancelTasks tasks ∈ (s.generations k).ready) : Lineage s' := by
  have hcontext : ∀ {x : ExecutionContext}, s.ContextOk x → s'.ContextOk x := by
    intro x hx
    unfold ContextOk
    rw [hsubs]
    exact hx
  constructor
  · intro n submission x hn hx
    rw [hsubs] at hn
    exact hcontext (hl.submission_context n submission x hn hx)
  · intro t task x ht hx
    rw [htasks] at ht
    obtain ⟨hok, hgen⟩ := hl.task_context t task x ht hx
    exact ⟨hcontext hok, hgen⟩
  · intro n submission hn hb
    rw [hsubs] at hn
    rw [(howner _).2.2]
    exact hl.body_submission n submission hn hb
  · intro n submission hn hbegun hb
    rw [hsubs] at hn
    rw [(howner _).1]
    exact hl.owner_loop n submission hn hbegun hb
  · intro k t ht
    rw [(howner k).2.1] at ht
    rw [htasks]
    exact hl.owner_task k t ht
  · intro k tasks hmem t ht
    rw [htasks]
    exact hl.cancels k tasks (hready k tasks hmem) t ht

/-- The rule of the other steps: new entries are described in the state before. -/
theorem Lineage.of_extends (hl : Lineage s) (he : Extends s s')
    (hsub : ∀ (n : Nat) (submission : Submission) (x : ExecutionContext),
      s'.submissions[n]? = some submission → submission.context = some x → s.ContextOk x)
    (htask : ∀ (t : Nat) (task : CarrierTask) (x : ExecutionContext),
      s'.tasks[t]? = some task → task.retained = some x →
      s.ContextOk x ∧ x.generation = task.generation)
    (hbody : ∀ (n : Nat) (submission : Submission), s'.submissions[n]? = some submission →
      submission.phase = .body → (s'.handles submission.handle).bodySubmission = some n)
    (hloop : ∀ (n : Nat) (submission : Submission), s'.submissions[n]? = some submission →
      submission.begun = true → submission.phase = .body →
      (s'.handles submission.handle).ownerLoop = some submission.generation)
    (howner : ∀ (k t : Nat), (s'.handles k).ownerTask = some t →
      (s.handles k).ownerTask = some t ∨
        ∃ task, s'.tasks[t]? = some task ∧ task.begun = true)
    (hready : ∀ (k : Nat) (tasks : List Nat), .cancelTasks tasks ∈ (s'.generations k).ready →
      ∀ t ∈ tasks, ∃ task, s.tasks[t]? = some task ∧
        (task.begun = true ∨ task.generation = k)) : Lineage s' := by
  constructor
  · intro n submission x hn hx
    exact (hsub n submission x hn hx).extends he
  · intro t task x ht hx
    exact ⟨(htask t task x ht hx).1.extends he, (htask t task x ht hx).2⟩
  · exact hbody
  · exact hloop
  · intro k t ht
    rcases howner k t ht with hold | hnew
    · obtain ⟨task, hget, hbegun⟩ := hl.owner_task k t hold
      obtain ⟨task', hget', -, hbegun'⟩ := he.tasks t task hget
      exact ⟨task', hget', hbegun' hbegun⟩
    · exact hnew
  · intro k tasks hmem t ht
    obtain ⟨task, hget, hcase⟩ := hready k tasks hmem t ht
    obtain ⟨task', hget', hgen', hbegun'⟩ := he.tasks t task hget
    refine ⟨task', hget', ?_⟩
    rcases hcase with hbegun | hgen
    · exact Or.inl (hbegun' hbegun)
    · exact Or.inr (hgen'.trans hgen)

theorem extends_set_task {task task' : CarrierTask} (ht : s.tasks[t]? = some task)
    (htasks : s'.tasks = s.tasks.set t task') (hsubs : s'.submissions = s.submissions)
    (hgen : task'.generation = task.generation)
    (hbegun : task.begun = true → task'.begun = true) : Extends s s' := by
  constructor
  · intro u task₁ hu
    rw [htasks]
    by_cases hut : u = t
    · subst hut
      obtain rfl : task = task₁ := Option.some.inj (ht.symm.trans hu)
      exact ⟨task', getElem?_set_self' ht, hgen, hbegun⟩
    · exact ⟨task₁, (List.getElem?_set_ne (Ne.symm hut)).trans hu, rfl, fun h => h⟩
  · intro n submission hn
    rw [hsubs]
    exact ⟨submission, hn, rfl, rfl, rfl, fun h => h⟩

theorem extends_set_submission {submission submission' : Submission}
    (hn : s.submissions[n]? = some submission)
    (hsubs : s'.submissions = s.submissions.set n submission') (htasks : s'.tasks = s.tasks)
    (hgen : submission'.generation = submission.generation)
    (hhandle : submission'.handle = submission.handle)
    (hphase : submission'.phase = submission.phase)
    (hbegun : submission.begun = true → submission'.begun = true) : Extends s s' := by
  constructor
  · intro u task hu
    rw [htasks]
    exact ⟨task, hu, rfl, fun h => h⟩
  · intro m submission₁ hm
    rw [hsubs]
    by_cases hmn : m = n
    · subst hmn
      obtain rfl : submission = submission₁ := Option.some.inj (hn.symm.trans hm)
      exact ⟨submission', getElem?_set_self' hn, hgen, hhandle, hphase, hbegun⟩
    · exact ⟨submission₁, (List.getElem?_set_ne (Ne.symm hmn)).trans hm, rfl, rfl, rfl,
        fun h => h⟩

/-- A task is rewritten and nothing else but the queues. -/
theorem Lineage.set_task (hl : Lineage s) {task task' : CarrierTask}
    (ht : s.tasks[t]? = some task) (htasks : s'.tasks = s.tasks.set t task')
    (hsubs : s'.submissions = s.submissions) (hgen : task'.generation = task.generation)
    (hretained : task'.retained = task.retained)
    (hbegun : task.begun = true → task'.begun = true)
    (howner : ∀ k, (s'.handles k).ownerLoop = (s.handles k).ownerLoop ∧
      (s'.handles k).ownerTask = (s.handles k).ownerTask ∧
      (s'.handles k).bodySubmission = (s.handles k).bodySubmission)
    (hready : ∀ k tasks, .cancelTasks tasks ∈ (s'.generations k).ready →
      .cancelTasks tasks ∈ (s.generations k).ready) : Lineage s' := by
  apply hl.of_extends (extends_set_task ht htasks hsubs hgen hbegun)
  · intro n submission x hn hx
    rw [hsubs] at hn
    exact hl.submission_context n submission x hn hx
  · intro u task₁ x hu hx
    rw [htasks] at hu
    rcases getElem?_set_cases ht hu with ⟨rfl, rfl⟩ | ⟨-, hu⟩
    · rw [hgen]
      exact hl.task_context u task x ht (hretained ▸ hx)
    · exact hl.task_context u task₁ x hu hx
  · intro n submission hn hb
    rw [hsubs] at hn
    rw [(howner _).2.2]
    exact hl.body_submission n submission hn hb
  · intro n submission hn hbegun' hb
    rw [hsubs] at hn
    rw [(howner _).1]
    exact hl.owner_loop n submission hn hbegun' hb
  · intro k u hu
    rw [(howner k).2.1] at hu
    exact Or.inl hu
  · intro k tasks hmem
    exact hl.cancels k tasks (hready k tasks hmem)

/-- The reference of a submission is rewritten, not what it is. -/
theorem Lineage.set_submission (hl : Lineage s) {submission submission' : Submission}
    (hn : s.submissions[n]? = some submission)
    (hsubs : s'.submissions = s.submissions.set n submission') (htasks : s'.tasks = s.tasks)
    (hgen : submission'.generation = submission.generation)
    (hhandle : submission'.handle = submission.handle)
    (hphase : submission'.phase = submission.phase)
    (hcontext : submission'.context = submission.context)
    (hbegun : submission'.begun = submission.begun)
    (howner : ∀ k, (s'.handles k).ownerLoop = (s.handles k).ownerLoop ∧
      (s'.handles k).ownerTask = (s.handles k).ownerTask ∧
      (s'.handles k).bodySubmission = (s.handles k).bodySubmission)
    (hready : ∀ k tasks, .cancelTasks tasks ∈ (s'.generations k).ready →
      .cancelTasks tasks ∈ (s.generations k).ready) : Lineage s' := by
  have hget : ∀ (m : Nat) (submission₂ : Submission), s'.submissions[m]? = some submission₂ →
      ∃ submission₁ : Submission, s.submissions[m]? = some submission₁ ∧
        submission₂.generation = submission₁.generation ∧
        submission₂.handle = submission₁.handle ∧ submission₂.phase = submission₁.phase ∧
        submission₂.context = submission₁.context ∧ submission₂.begun = submission₁.begun := by
    intro m submission₂ hm
    rw [hsubs] at hm
    rcases getElem?_set_cases hn hm with ⟨rfl, rfl⟩ | ⟨-, hm⟩
    · exact ⟨submission, hn, hgen, hhandle, hphase, hcontext, hbegun⟩
    · exact ⟨submission₂, hm, rfl, rfl, rfl, rfl, rfl⟩
  apply hl.of_extends
    (extends_set_submission hn hsubs htasks hgen hhandle hphase (fun h => hbegun.trans h))
  · intro m submission₂ x hm hx
    obtain ⟨submission₁, hm₁, -, -, -, hcontext₁, -⟩ := hget m submission₂ hm
    exact hl.submission_context m submission₁ x hm₁ (hcontext₁ ▸ hx)
  · intro u task x hu hx
    rw [htasks] at hu
    exact hl.task_context u task x hu hx
  · intro m submission₂ hm hb
    obtain ⟨submission₁, hm₁, -, hhandle₁, hphase₁, -, -⟩ := hget m submission₂ hm
    rw [(howner _).2.2, hhandle₁]
    exact hl.body_submission m submission₁ hm₁ (hphase₁ ▸ hb)
  · intro m submission₂ hm hbegun₂ hb
    obtain ⟨submission₁, hm₁, hgen₁, hhandle₁, hphase₁, -, hbegun₁⟩ := hget m submission₂ hm
    rw [(howner _).1, hhandle₁, hgen₁]
    exact hl.owner_loop m submission₁ hm₁ (hbegun₁ ▸ hbegun₂) (hphase₁ ▸ hb)
  · intro k u hu
    rw [(howner k).2.1] at hu
    exact Or.inl hu
  · intro k tasks hmem
    exact hl.cancels k tasks (hready k tasks hmem)

/-! ## 2. Lineage along the steps -/

theorem mem_ready_setGeneration {G : Generation} {call : CarrierCall}
    (hG : call ∈ G.ready → call ∈ (s.generations g).ready)
    (hmem : call ∈ ((s.setGeneration g G).generations k).ready) :
    call ∈ (s.generations k).ready := by
  rw [generations_setGeneration] at hmem
  split at hmem
  · rename_i hk
    rw [hk]
    exact hG hmem
  · exact hmem

theorem mem_ready_callSoon {call d : CarrierCall} (hne : d ≠ call)
    (hmem : d ∈ ((s.callSoon g call).generations k).ready) : d ∈ (s.generations k).ready := by
  apply mem_ready_setGeneration (G := { s.generations g with
    ready := (s.generations g).ready ++ [call] }) ?_ hmem
  intro h
  rcases List.mem_append.mp h with h | h
  · exact h
  · exact absurd (List.mem_singleton.mp h) hne

/-- The rule of the steps that only rewrite a generation. -/
theorem Lineage.rewrite (hl : Lineage s) {G : Generation}
    (hG : ∀ tasks, .cancelTasks tasks ∈ G.ready → .cancelTasks tasks ∈ (s.generations g).ready)
    (hgens : s'.generations = (s.setGeneration g G).generations)
    (hsubs : s'.submissions = s.submissions) (htasks : s'.tasks = s.tasks)
    (hhandles : s'.handles = s.handles) : Lineage s' := by
  apply hl.of_tables hsubs htasks
  · intro k
    rw [hhandles]
    exact ⟨rfl, rfl, rfl⟩
  · intro k tasks hmem
    rw [hgens] at hmem
    exact mem_ready_setGeneration (hG tasks) hmem

theorem Lineage.callSoon (hl : Lineage s) {call : CarrierCall}
    (hcall : ∀ tasks, CarrierCall.cancelTasks tasks ≠ call) : Lineage (s.callSoon g call) := by
  apply hl.of_tables
  · rfl
  · rfl
  · exact fun _ => ⟨rfl, rfl, rfl⟩
  · exact fun k tasks hmem => mem_ready_callSoon (hcall tasks) hmem

theorem Lineage.queueTaken (hl : Lineage s) (hstep : s.queueTaken g = some s') :
    Lineage s' := by
  unfold SlotState.queueTaken at hstep
  split at hstep
  · rename_i n rest _
    cases hstep
    apply Lineage.callSoon ?_ (by simp)
    apply hl.rewrite (g := g) (G := { s.generations g with taken := rest })
    · exact fun _ h => h
    · rfl
    · rfl
    · rfl
    · rfl
  · split at hstep
    · cases hstep
      apply Lineage.callSoon ?_ (by simp)
      apply hl.rewrite (g := g) (G := { s.generations g with sealsOnRun := false })
      · exact fun _ h => h
      · rfl
      · rfl
      · rfl
      · rfl
    · cases hstep

/-- Reserving concerns neither tables nor queues. -/
theorem Lineage.selected (hl : Lineage s) {u : SlotState} (hu : Selected s g u) :
    Lineage (u.addReservation g) := by
  apply hl.of_tables
  · exact hu.submissions
  · exact hu.tasks
  · intro k
    change (u.handles k).ownerLoop = _ ∧ (u.handles k).ownerTask = _ ∧
      (u.handles k).bodySubmission = _
    rw [hu.handles]
    exact ⟨rfl, rfl, rfl⟩
  · intro k tasks hmem
    rw [← hu.generations]
    apply mem_ready_setGeneration (s := u) (g := g) (G := { u.generations g with
      reservations := (u.generations g).reservations + 1 }) ?_ hmem
    exact fun h => h

/-- A submission is recorded; the body of a handle is submitted once. -/
theorem Lineage.addSubmission (hl : Lineage s) {submission : Submission}
    (hcontext : ∀ x, submission.context = some x → s.ContextOk x)
    (hbegun : submission.begun = false)
    (hbody : submission.phase = .body →
      (s.handles submission.handle).bodySubmission = none) :
    Lineage (s.addSubmission submission) := by
  have hhandles : ∀ k, (s.addSubmission submission).handles k =
      if k = submission.handle then { s.handles submission.handle with
        bodySubmission := if submission.phase = .body then some s.submissions.length
          else (s.handles submission.handle).bodySubmission }
      else s.handles k := fun k => handles_setHandle s submission.handle k _
  have hkeep : ∀ k, ((s.addSubmission submission).handles k).ownerLoop =
      (s.handles k).ownerLoop ∧
      ((s.addSubmission submission).handles k).ownerTask = (s.handles k).ownerTask := by
    intro k
    rw [hhandles]
    split
    · rename_i hk
      rw [hk]
      exact ⟨rfl, rfl⟩
    · exact ⟨rfl, rfl⟩
  have hextends : Extends s (s.addSubmission submission) := by
    constructor
    · intro u task hu
      exact ⟨task, hu, rfl, fun h => h⟩
    · intro m submission₁ hm
      refine ⟨submission₁, ?_, rfl, rfl, rfl, fun h => h⟩
      exact (List.getElem?_append_left (List.getElem?_eq_some_iff.mp hm).1).trans hm
  apply hl.of_extends hextends
  · intro m submission₁ x hm hx
    rcases getElem?_append_cases hm with ⟨-, rfl⟩ | hm
    · exact hcontext x hx
    · exact hl.submission_context m submission₁ x hm hx
  · exact hl.task_context
  · intro m submission₁ hm hb
    rw [hhandles]
    rcases getElem?_append_cases hm with ⟨rfl, rfl⟩ | hm
    · rw [if_pos rfl]
      dsimp only
      rw [if_pos hb]
    · have hold := hl.body_submission m submission₁ hm hb
      split
      · rename_i hk
        dsimp only
        split
        · rename_i hphase
          rw [hk, hbody hphase] at hold
          cases hold
        · rw [← hk]
          exact hold
      · exact hold
  · intro m submission₁ hm hbegun₁ hb
    rw [(hkeep _).1]
    rcases getElem?_append_cases hm with ⟨-, rfl⟩ | hm
    · rw [hbegun] at hbegun₁
      cases hbegun₁
    · exact hl.owner_loop m submission₁ hm hbegun₁ hb
  · intro k u hu
    rw [(hkeep k).2] at hu
    exact Or.inl hu
  · exact hl.cancels

theorem Lineage.retainWork (hl : Lineage s) (h : Nat) : Lineage (s.retainWork h) := by
  apply hl.of_tables
  · rfl
  · rfl
  · intro k
    rw [show (s.retainWork h).handles k = _ from handles_setHandle s h k _]
    split
    · rename_i hk
      rw [hk]
      exact ⟨rfl, rfl, rfl⟩
    · exact ⟨rfl, rfl, rfl⟩
  · exact fun k tasks hmem => hmem

theorem Lineage.submit (hl : Lineage s) (hs : SlotInv s) {preferred : Option Nat}
    {phase : WorkPhase} {context : Option (Nat × Bool)}
    (hbody : phase = .body → (s.handles h).bodySubmission = none) :
    Lineage (s.submit preferred h phase (s.contextOf context)) := by
  rcases hres : s.reserveLocked preferred with error | ⟨g, v⟩
  · unfold SlotState.submit
    rw [hres]
    exact hl
  · obtain ⟨u, hu, rfl⟩ := hs.reserveLocked hres
    have hretained := (hl.selected hu).retainWork h
    unfold SlotState.submit
    rw [hres]
    dsimp only
    have hadded : Lineage (((u.addReservation g).retainWork h).addSubmission
        ⟨h, g, phase, s.contextOf context, none, false, false⟩) := by
      apply hretained.addSubmission
      · intro x hx
        obtain ⟨submission, hn, hrest⟩ := contextOk_of_contextOf hx
        exact ⟨submission, (congrArg (·[x.submission]?) hu.submissions).trans hn, hrest⟩
      · rfl
      · intro hphase
        have := hbody hphase
        rw [show ((u.addReservation g).retainWork h).handles h = _ from
          (handles_setHandle _ h h _).trans (if_pos rfl)]
        change (u.handles h).bodySubmission = none
        rw [hu.handles]
        exact this
    unfold deliver
    split
    · exact hadded.callSoon (by simp)
    · refine hadded.rewrite ?_ rfl rfl rfl rfl
      exact fun _ h => h

/-- A new task, retained under a context that is there. -/
theorem Lineage.factory (hl : Lineage s) {context : Option ExecutionContext}
    {root : Option Nat} (hu : FactoryEffect s g context root s')
    (hcontext : ∀ x, context = some x → s.ContextOk x) : Lineage s' := by
  have hkeep : ∀ k, (s'.handles k).ownerLoop = (s.handles k).ownerLoop ∧
      (s'.handles k).ownerTask = (s.handles k).ownerTask ∧
      (s'.handles k).bodySubmission = (s.handles k).bodySubmission := by
    intro k
    rw [hu.handles]
    exact ⟨rfl, rfl, rfl⟩
  have hextends : Extends s s' := by
    constructor
    · intro u task hget
      refine ⟨task, ?_, rfl, fun h => h⟩
      rw [hu.tasks]
      exact (List.getElem?_append_left (List.getElem?_eq_some_iff.mp hget).1).trans hget
    · intro m submission hm
      rw [hu.submissions]
      exact ⟨submission, hm, rfl, rfl, rfl, fun h => h⟩
  apply hl.of_extends hextends
  · intro m submission x hm hx
    rw [hu.submissions] at hm
    exact hl.submission_context m submission x hm hx
  · intro u task x hget hx
    rw [hu.tasks] at hget
    rcases getElem?_append_cases hget with ⟨-, rfl⟩ | hget
    · obtain ⟨hmem, hgen⟩ := Option.filter_eq_some_iff.mp hx
      exact ⟨hcontext x hmem, of_decide_eq_true hgen⟩
    · exact hl.task_context u task x hget hx
  · intro m submission hm hb
    rw [hu.submissions] at hm
    rw [(hkeep _).2.2]
    exact hl.body_submission m submission hm hb
  · intro m submission hm hbegun hb
    rw [hu.submissions] at hm
    rw [(hkeep _).1]
    exact hl.owner_loop m submission hm hbegun hb
  · intro k u hk
    rw [(hkeep k).2.1] at hk
    exact Or.inl hk
  · intro k tasks hmem
    rw [hu.generations] at hmem
    apply hl.cancels k tasks
    split at hmem
    · rename_i hk
      rw [hk]
      rcases List.mem_append.mp hmem with h | h
      · exact h
      · simp at h
    · exact hmem

theorem Lineage.startSubmission (hl : Lineage s) : Lineage (s.startSubmission g n) := by
  unfold SlotState.startSubmission
  split
  · exact hl
  · rename_i submission hn
    split
    · exact hl
    · rename_i u hfactory
      have hu := taskFactory_effect hfactory
      have hcreated : Lineage u := hl.factory hu (hl.submission_context n submission · hn)
      have hn' : u.submissions[n]? = some submission := by
        rw [hu.submissions]
        exact hn
      apply hcreated.set_submission hn'
      · dsimp only
        rw [hu.submissions]
      · rfl
      · rfl
      · rfl
      · rfl
      · rfl
      · rfl
      · exact fun _ => ⟨rfl, rfl, rfl⟩
      · exact fun _ _ h => h

/-- `_run_submission` begins: the owner of the body is recorded, and no other submission
    of the handle is its body. -/
theorem Lineage.beginSubmission (hl : Lineage s) {task : CarrierTask}
    (ht : s.tasks[t]? = some task) (hbegun : task.begun = true) :
    Lineage (s.beginSubmission t n) := by
  unfold SlotState.beginSubmission
  split
  · exact hl
  · rename_i submission hn
    dsimp only
    split
    · rename_i hphase
      have hget : ∀ (m : Nat) (submission₁ : Submission),
          (s.submissions.set n { submission with begun := true })[m]? = some submission₁ →
          (m = n ∧ submission₁ = { submission with begun := true }) ∨
            (m ≠ n ∧ s.submissions[m]? = some submission₁) :=
        fun m submission₁ hm => getElem?_set_cases hn hm
      have hbodyOf := hl.body_submission n submission hn hphase
      have hother : ∀ (m : Nat) (submission₁ : Submission), m ≠ n →
          s.submissions[m]? = some submission₁ → submission₁.phase = .body →
          submission₁.handle ≠ submission.handle := by
        intro m submission₁ hmn hm hb heq
        have hbodyOf₁ := hl.body_submission m submission₁ hm hb
        rw [heq, hbodyOf] at hbodyOf₁
        exact hmn (Option.some.inj hbodyOf₁).symm
      apply hl.of_extends
      · exact extends_set_submission hn rfl rfl rfl rfl rfl (fun _ => rfl)
      · intro m submission₁ x hm hx
        rcases hget m submission₁ hm with ⟨rfl, rfl⟩ | ⟨-, hm⟩
        · exact hl.submission_context m submission x hn hx
        · exact hl.submission_context m submission₁ x hm hx
      · exact hl.task_context
      · intro m submission₁ hm hb
        rw [handles_setHandle]
        rcases hget m submission₁ hm with ⟨rfl, rfl⟩ | ⟨hmn, hm⟩
        · rw [if_pos rfl]
          exact hbodyOf
        · rw [if_neg (hother m submission₁ hmn hm hb)]
          exact hl.body_submission m submission₁ hm hb
      · intro m submission₁ hm hbegun₁ hb
        rw [handles_setHandle]
        rcases hget m submission₁ hm with ⟨rfl, rfl⟩ | ⟨hmn, hm⟩
        · rw [if_pos rfl]
        · rw [if_neg (hother m submission₁ hmn hm hb)]
          exact hl.owner_loop m submission₁ hm hbegun₁ hb
      · intro k u hu
        rw [handles_setHandle] at hu
        split at hu
        · cases hu
          exact Or.inr ⟨task, ht, hbegun⟩
        · exact Or.inl hu
      · exact hl.cancels
    · rename_i hphase
      apply hl.of_extends
      · exact extends_set_submission hn rfl rfl rfl rfl rfl (fun _ => rfl)
      · intro m submission₁ x hm hx
        rcases getElem?_set_cases hn hm with ⟨rfl, rfl⟩ | ⟨-, hm⟩
        · exact hl.submission_context m submission x hn hx
        · exact hl.submission_context m submission₁ x hm hx
      · exact hl.task_context
      · intro m submission₁ hm hb
        rcases getElem?_set_cases hn hm with ⟨rfl, rfl⟩ | ⟨-, hm⟩
        · exact absurd hb hphase
        · exact hl.body_submission m submission₁ hm hb
      · intro m submission₁ hm hbegun₁ hb
        rcases getElem?_set_cases hn hm with ⟨rfl, rfl⟩ | ⟨-, hm⟩
        · exact absurd hb hphase
        · exact hl.owner_loop m submission₁ hm hbegun₁ hb
      · exact fun k u hu => Or.inl hu
      · exact hl.cancels

theorem Lineage.completeTask (hl : Lineage s) {task : CarrierTask}
    (ht : s.tasks[t]? = some task) : Lineage (s.completeTask t task) := by
  have hset : Lineage { s with tasks := s.tasks.set t { task with done := true } } := by
    apply hl.set_task ht
    · rfl
    · rfl
    · rfl
    · rfl
    · exact fun h => h
    · exact fun _ => ⟨rfl, rfl, rfl⟩
    · exact fun _ _ h => h
  unfold SlotState.completeTask
  dsimp only
  split
  · exact hset.callSoon (by simp)
  · exact hset

theorem Lineage.firstStep (hl : Lineage s) : Lineage (s.firstStep t) := by
  unfold SlotState.firstStep
  split
  · exact hl
  · rename_i task ht
    split
    · exact hl.completeTask ht
    · have hset : Lineage { s with tasks := s.tasks.set t { task with begun := true } } := by
        apply hl.set_task ht
        · rfl
        · rfl
        · rfl
        · rfl
        · exact fun _ => rfl
        · exact fun _ => ⟨rfl, rfl, rfl⟩
        · exact fun _ _ h => h
      dsimp only
      split
      · exact hset.beginSubmission (getElem?_set_self' ht) rfl
      · exact hset

theorem mem_ready_releaseReservation {call : CarrierCall}
    (hmem : call ∈ ((s.releaseReservation g).generations k).ready) :
    call ∈ (s.generations k).ready := by
  rw [generations_releaseReservation] at hmem
  split at hmem
  · rename_i hk
    rw [hk]
    exact hmem
  · exact hmem

theorem owners_releaseWork (s : SlotState) (h k : Nat) :
    ((s.releaseWork h).handles k).ownerLoop = (s.handles k).ownerLoop ∧
      ((s.releaseWork h).handles k).ownerTask = (s.handles k).ownerTask ∧
      ((s.releaseWork h).handles k).bodySubmission = (s.handles k).bodySubmission := by
  rw [show (s.releaseWork h).handles k = _ from handles_setHandle s h k _]
  split
  · rename_i hk
    rw [hk]
    exact ⟨rfl, rfl, rfl⟩
  · exact ⟨rfl, rfl, rfl⟩

theorem Lineage.finishSubmission (hl : Lineage s) : Lineage (s.finishSubmission n) := by
  unfold SlotState.finishSubmission
  split
  · exact hl
  · rename_i submission hn
    apply hl.set_submission hn
    · rfl
    · rfl
    · rfl
    · rfl
    · rfl
    · rfl
    · rfl
    · exact fun k => owners_releaseWork _ _ k
    · exact fun k tasks hmem => mem_ready_releaseReservation hmem

theorem Lineage.descendantDone (hl : Lineage s) : Lineage (s.descendantDone t) := by
  unfold SlotState.descendantDone
  split
  · rename_i task ht
    split
    · apply hl.set_task ht
      · rfl
      · rfl
      · rfl
      · rfl
      · exact fun h => h
      · exact fun k => owners_releaseWork _ _ k
      · exact fun k tasks hmem => mem_ready_releaseReservation hmem
    · exact hl
  · exact hl

theorem Lineage.cancelTask (hl : Lineage s) (t : Nat) : Lineage (s.cancelTask t) := by
  unfold SlotState.cancelTask
  split
  · rename_i task ht
    split
    · exact hl
    · apply hl.set_task ht
      · rfl
      · rfl
      · rfl
      · rfl
      · exact fun h => h
      · exact fun _ => ⟨rfl, rfl, rfl⟩
      · exact fun _ _ h => h
  · exact hl

theorem Lineage.cancelTasks (hl : Lineage s) (tasks : List Nat) :
    Lineage (s.cancelTasks tasks) := by
  unfold SlotState.cancelTasks
  induction tasks generalizing s with
  | nil => exact hl
  | cons t tasks ih => exact ih (hl.cancelTask t)

/-- The tasks a cancellation names: the owner has begun, and a descendant registered in
    the body phase is on the owner loop. -/
theorem Lineage.cancelled_tasks (hl : Lineage s) (hloop : (s.handles h).ownerLoop = some g)
    (hmem : t ∈ (s.handles h).ownerTask.toList ++ s.ownedBodyTasks h) :
    ∃ task, s.tasks[t]? = some task ∧ (task.begun = true ∨ task.generation = g) := by
  rcases List.mem_append.mp hmem with howner | howned
  · obtain ⟨task, ht, hbegun⟩ := hl.owner_task h t (Option.mem_toList.mp howner)
    exact ⟨task, ht, Or.inl hbegun⟩
  · obtain ⟨-, hany⟩ := List.mem_filter.mp howned
    obtain ⟨task, ht, howns⟩ := (Option.any_eq_true _ _).mp hany
    refine ⟨task, ht, Or.inr ?_⟩
    unfold ownsInBody at howns
    split at howns
    · rename_i x hx
      obtain ⟨hhandle, hphase⟩ := of_decide_eq_true (Bool.and_eq_true_iff.mp howns).1
      obtain ⟨hcontext, hgen⟩ := hl.task_context t task x ht hx
      have howner := hl.ownerLoop_of_context hcontext hphase
      rw [hhandle, hloop] at howner
      exact hgen.symm.trans (Option.some.inj howner).symm
    · cases howns

theorem Lineage.cancel (hl : Lineage s) (h : Nat) : Lineage (s.cancel h) := by
  have hrequested : Lineage (s.setHandle h { s.handles h with cancelRequested := true }) := by
    apply hl.of_tables
    · rfl
    · rfl
    · intro k
      rw [handles_setHandle]
      split
      · rename_i hk
        rw [hk]
        exact ⟨rfl, rfl, rfl⟩
      · exact ⟨rfl, rfl, rfl⟩
    · exact fun _ _ hmem => hmem
  unfold SlotState.cancel
  dsimp only
  split
  · rename_i g hloop
    split
    · apply hrequested.of_extends
      · exact ⟨fun u task hu => ⟨task, hu, rfl, fun h => h⟩,
          fun m submission hm => ⟨submission, hm, rfl, rfl, rfl, fun h => h⟩⟩
      · exact hrequested.submission_context
      · exact hrequested.task_context
      · exact hrequested.body_submission
      · exact hrequested.owner_loop
      · exact fun k t ht => Or.inl ht
      · intro k tasks hmem t ht
        by_cases hcall : CarrierCall.cancelTasks tasks =
            .cancelTasks ((s.handles h).ownerTask.toList ++ s.ownedBodyTasks h)
        · by_cases hk : k = g
          · subst hk
            cases hcall
            exact hl.cancelled_tasks hloop ht
          · have hmem' := hmem
            rw [show ((SlotState.callSoon _ g _).generations k) = _ from
              generations_setGeneration _ g k _, if_neg hk] at hmem'
            exact hl.cancels k tasks hmem' t ht
        · exact hl.cancels k tasks (mem_ready_callSoon (s := s) hcall hmem) t ht
    · exact hrequested
  · exact hrequested

theorem Lineage.loopStep (hl : Lineage s) (hstep : s.loopStep g = some s') : Lineage s' := by
  unfold SlotState.loopStep at hstep
  split at hstep
  · cases hstep
  · rename_i call rest hready
    cases hstep
    have hpop : Lineage (s.setGeneration g { s.generations g with ready := rest }) := by
      apply hl.rewrite (g := g) (G := { s.generations g with ready := rest })
      · intro tasks hmem
        rw [hready]
        exact List.mem_cons_of_mem _ hmem
      · rfl
      · rfl
      · rfl
      · rfl
    cases call with
    | startSubmission n => exact hpop.startSubmission
    | firstStep t => exact hpop.firstStep
    | cancelTasks tasks => exact hpop.cancelTasks tasks
    | descendantDone t => exact hpop.descendantDone
    | setSeal =>
      apply hpop.rewrite (g := g) (G := { s.generations g with ready := rest, sealEvent := true })
      · intro tasks hmem
        rw [generations_setGeneration, if_pos rfl]
        exact hmem
      · simp only [runCall, generations_setGeneration, if_true]
      · rfl
      · rfl
      · rfl

/-- **Step lemma of the lineage.** -/
theorem Lineage.step {e : SlotEvent} (hl : Lineage s) (hs : SlotInv s)
    (hstep : s.step e = some s') : Lineage s' := by
  cases stepped hstep with
  | submit preferred h phase context hexists hbody =>
    exact hl.submit hs hbody
  | @acquireLease v preferred g hreserve =>
    obtain ⟨u, hu, rfl⟩ := hs.reserveLocked hreserve
    apply (hl.selected hu).of_tables
    · rfl
    · rfl
    · exact fun _ => ⟨rfl, rfl, rfl⟩
    · exact fun _ _ hmem => hmem
  | leaseRefused preferred =>
    exact hl
  | releaseLease g hheld =>
    apply hl.of_tables
    · rfl
    · rfl
    · exact fun _ => ⟨rfl, rfl, rfl⟩
    · exact fun k tasks hmem => mem_ready_releaseReservation (s := s) hmem
  | postSeal g hposted =>
    have hposted : Lineage { s with sealPosts := s.sealPosts.erase g } := by
      apply hl.of_tables
      · rfl
      · rfl
      · exact fun _ => ⟨rfl, rfl, rfl⟩
      · exact fun _ _ hmem => hmem
    split
    · exact hposted.callSoon (by simp)
    · exact hposted
  | runGeneration g hcurrent hstopped hopen =>
    refine hl.rewrite (g := g) ?_ rfl rfl rfl rfl
    exact fun _ hmem => hmem
  | queueTaken g hrun htaken =>
    exact hl.queueTaken htaken
  | loopStep g hfree hloop =>
    exact hl.loopStep hloop
  | createTask g context hfree hfactory =>
    exact hl.factory (taskFactory_effect hfactory) fun x hx => contextOk_of_contextOf hx
  | taskRefused g context =>
    exact hl
  | endTask t task ht hbegun hdone hfree =>
    unfold SlotState.endTask
    split
    · apply hl.finishSubmission.completeTask
      unfold SlotState.finishSubmission
      split <;> exact ht
    · exact hl.completeTask ht
  | cancel h =>
    exact hl.cancel h
  | drain g hfree hseal =>
    refine hl.rewrite (g := g) ?_ rfl rfl rfl rfl
    exact fun _ hmem => hmem
  | close g hfree _ | exit g hfree =>
    refine hl.rewrite (g := g) (G := { s.generations g with running := false, state := .closed })
      ?_ rfl rfl rfl rfl
    exact fun _ hmem => hmem
  | shutdown =>
    apply hl.of_tables
    · rfl
    · rfl
    · exact fun _ => ⟨rfl, rfl, rfl⟩
    · exact fun _ _ hmem => hmem

theorem lineage_initial : Lineage {} := by
  constructor
  · intro n submission x hn
    simp at hn
  · intro t task x ht
    simp at ht
  · intro n submission hn
    simp at hn
  · intro n submission hn
    simp at hn
  · intro k t ht
    cases ht
  · intro g tasks hmem
    cases hmem

end SlotState

end AgentlyStage
