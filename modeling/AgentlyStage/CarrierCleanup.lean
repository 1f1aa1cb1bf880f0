import AgentlyStage.CarrierLineage
import AgentlyStage.CarrierLifecycle
import AgentlyStage.Lib.Fifo

/-!
# The clean-up of carrier submissions

The reservation and the pending work of a submission are given back in the `finally` of
its `_run_submission`, so they are given back when its root task ends, unless that task
was cancelled before its first step.  A cancellation posted to the loop comes too late
for that: `_cancel_tasks` lists tasks that have begun or are queued for their first step
on the same loop.  Only the task factory is early enough, and it cancels a root task when
the submission was made in the body of a handle that is cancelled (`cancelsRoot`).

What a retained task holds is given back in its `_descendant_done`, a callback of the same
loop.  It is lost when the worker leaves the loop by an exception before it has run
(`abandons`), as it does when the task itself has ended with `SystemExit`.
-/

namespace AgentlyStage

open Transition Fifo

namespace SlotState

variable {s s' : SlotState} {g k h n t : Nat}

/-! ## 1. Root tasks begin -/

/-- `_start_submission` makes a root task that the factory cancels. -/
def cancelsRoot (s : SlotState) : SlotEvent → Bool
  | .loopStep g =>
    match (s.generations g).ready with
    | .startSubmission n :: _ =>
      s.submissions[n]?.any fun submission => s.cancelsAtCreation g submission.context
    | _ => false
  | _ => false

/-- A queued `_cancel_tasks` that names a task. -/
def Names (t : Nat) (call : CarrierCall) : Prop :=
  ∃ tasks, call = .cancelTasks tasks ∧ t ∈ tasks

structure BeginsAt (s : SlotState) (t : Nat) (task : CarrierTask) : Prop where
  /-- No cancellation overtakes the first step of a root task. -/
  first : ∀ n, task.root = some n → task.begun = false → task.done = false →
    task.cancelled = false ∧
      Ahead (.firstStep t) (Names t) (s.generations task.generation).ready
  last : ∀ n, task.root = some n → task.done = true →
    ∃ submission, s.submissions[n]? = some submission ∧ submission.released = true
  callback : task.done = true → task.retained.isSome = true → task.released = false →
    .descendantDone t ∈ (s.generations task.generation).ready

def Begins (s : SlotState) : Prop :=
  ∀ (t : Nat) (task : CarrierTask), s.tasks[t]? = some task → BeginsAt s t task

/-- Submissions stay released. -/
def KeepsReleased (s s' : SlotState) : Prop :=
  ∀ (n : Nat) (submission : Submission), s.submissions[n]? = some submission →
    submission.released = true →
    ∃ submission', s'.submissions[n]? = some submission' ∧ submission'.released = true

/-- What a loop has queued is followed by more. -/
def KeepsReady (s s' : SlotState) : Prop :=
  ∀ g, ∃ more, (s'.generations g).ready = (s.generations g).ready ++ more

theorem BeginsAt.mono {task : CarrierTask} (hb : BeginsAt s t task) (hsubs : KeepsReleased s s')
    (hready : KeepsReady s s') : BeginsAt s' t task := by
  obtain ⟨more, hmore⟩ := hready task.generation
  constructor
  · intro n hn hbegun hdone
    obtain ⟨hcancelled, hahead⟩ := hb.first n hn hbegun hdone
    rw [hmore]
    exact ⟨hcancelled, hahead.append more⟩
  · intro n hn hdone
    obtain ⟨submission, hsub, hrel⟩ := hb.last n hn hdone
    exact hsubs n submission hsub hrel
  · intro hdone hret hrel
    rw [hmore]
    exact List.mem_append_left _ (hb.callback hdone hret hrel)

theorem Begins.mono (hb : Begins s) (htasks : s'.tasks = s.tasks) (hsubs : KeepsReleased s s')
    (hready : KeepsReady s s') : Begins s' := by
  intro t task ht
  rw [htasks] at ht
  exact (hb t task ht).mono hsubs hready

theorem keepsReleased_of_eq (h : s'.submissions = s.submissions) : KeepsReleased s s' := by
  intro n submission hn hrel
  rw [h]
  exact ⟨submission, hn, hrel⟩

theorem keepsReleased_set {submission submission' : Submission}
    (hn : s.submissions[n]? = some submission)
    (h : s'.submissions = s.submissions.set n submission')
    (hrel : submission.released = true → submission'.released = true) : KeepsReleased s s' := by
  intro m submission₁ hm hrel₁
  rw [h]
  by_cases hmn : m = n
  · subst hmn
    obtain rfl : submission = submission₁ := Option.some.inj (hn.symm.trans hm)
    exact ⟨submission', getElem?_set_self' hn, hrel hrel₁⟩
  · exact ⟨submission₁, (List.getElem?_set_ne (Ne.symm hmn)).trans hm, hrel₁⟩

theorem keepsReady_of_eq (h : ∀ g, (s'.generations g).ready = (s.generations g).ready) :
    KeepsReady s s' :=
  fun g => ⟨[], (h g).trans (List.append_nil _).symm⟩

theorem keepsReady_setGeneration {G : Generation} {more : List CarrierCall}
    (hG : G.ready = (s.generations g).ready ++ more)
    (h : s'.generations = (s.setGeneration g G).generations) : KeepsReady s s' := by
  intro k
  rw [h, generations_setGeneration]
  split
  · rename_i hk
    rw [hk]
    exact ⟨more, hG⟩
  · exact ⟨[], (List.append_nil _).symm⟩

theorem keepsReady_rewrite {G : Generation}
    (h : s'.generations = (s.setGeneration g G).generations)
    (hG : G.ready = (s.generations g).ready) : KeepsReady s s' :=
  keepsReady_setGeneration (hG.trans (List.append_nil _).symm) h

theorem keepsReady_callSoon (s : SlotState) (g : Nat) (call : CarrierCall) :
    KeepsReady s (s.callSoon g call) :=
  keepsReady_setGeneration rfl rfl

theorem keepsReady_releaseReservation (s : SlotState) (g : Nat) :
    KeepsReady s (s.releaseReservation g) := by
  apply keepsReady_of_eq
  intro k
  rw [generations_releaseReservation]
  split
  · rename_i hk
    rw [hk]
  · rfl

/-- Taking a call leaves the tasks it does not step where they are. -/
theorem BeginsAt.pop {task : CarrierTask} {call : CarrierCall} {rest : List CarrierCall}
    (hb : BeginsAt s t task) (hready : (s.generations g).ready = call :: rest)
    (hfirst : task.generation = g → call ≠ .firstStep t)
    (hdone : task.generation = g → call ≠ .descendantDone t) :
    BeginsAt (s.setGeneration g { s.generations g with ready := rest }) t task := by
  constructor
  · intro n hn hbegun hunfinished
    obtain ⟨hcancelled, hahead⟩ := hb.first n hn hbegun hunfinished
    refine ⟨hcancelled, ?_⟩
    rw [generations_setGeneration]
    split
    · rename_i hg
      rw [hg, hready] at hahead
      rcases hahead.dequeue with heq | ⟨-, hrest⟩
      · exact absurd heq (hfirst hg)
      · exact hrest
    · exact hahead
  · exact hb.last
  · intro hd hret hrel
    have hmem := hb.callback hd hret hrel
    rw [generations_setGeneration]
    split
    · rename_i hg
      rw [hg, hready] at hmem
      rcases List.mem_cons.mp hmem with heq | hmem
      · exact absurd heq.symm (hdone hg)
      · exact hmem
    · exact hmem

/-- The rule of the steps that rewrite one task. -/
theorem Begins.set_task {task task' : CarrierTask} (ht : s.tasks[t]? = some task)
    (htasks : s'.tasks = s.tasks.set t task')
    (hother : ∀ (u : Nat) (task₁ : CarrierTask), u ≠ t → s.tasks[u]? = some task₁ →
      BeginsAt s' u task₁)
    (hself : BeginsAt s' t task') : Begins s' := by
  intro u task₁ hu
  rw [htasks] at hu
  rcases getElem?_set_cases ht hu with ⟨rfl, rfl⟩ | ⟨hne, hu⟩
  · exact hself
  · exact hother u task₁ hne hu

/-! ## 2. Steps that begin and end tasks -/

/-- A task is done and its callback queued; a root task has released its submission. -/
theorem Begins.completeTask {task : CarrierTask} (ht : s.tasks[t]? = some task)
    (hother : ∀ (u : Nat) (task₁ : CarrierTask), u ≠ t → s.tasks[u]? = some task₁ →
      BeginsAt s u task₁)
    (hlast : ∀ n, task.root = some n →
      ∃ submission, s.submissions[n]? = some submission ∧ submission.released = true) :
    Begins (s.completeTask t task) := by
  have hready : KeepsReady s (s.completeTask t task) := by
    unfold SlotState.completeTask
    dsimp only
    split
    · exact keepsReady_callSoon s task.generation _
    · exact keepsReady_of_eq fun _ => rfl
  have hframe : (s.completeTask t task).tasks = s.tasks.set t { task with done := true } ∧
      (s.completeTask t task).submissions = s.submissions := by
    unfold SlotState.completeTask
    dsimp only
    split
    · exact ⟨rfl, rfl⟩
    · exact ⟨rfl, rfl⟩
  apply Begins.set_task ht hframe.1
  · intro u task₁ hne hu
    exact (hother u task₁ hne hu).mono (keepsReleased_of_eq hframe.2) hready
  · constructor
    · intro n _ _ hdone
      cases hdone
    · intro n hn _
      rw [hframe.2]
      exact hlast n hn
    · intro _ hret _
      have hret' : task.retained.isSome = true := hret
      unfold SlotState.completeTask
      dsimp only
      rw [if_pos hret']
      change CarrierCall.descendantDone t ∈
        ((s.callSoon task.generation (.descendantDone t)).generations task.generation).ready
      rw [SlotState.callSoon, generations_setGeneration, if_pos rfl]
      exact List.mem_append_right _ List.mem_cons_self

/-- The rule of the task factory. -/
theorem Begins.factory (hb : Begins s) (hl : Lineage s) {context : Option ExecutionContext}
    {root : Option Nat} (hu : FactoryEffect s g context root s')
    (hcancels : ∀ n, root = some n → s.cancelsAtCreation g context = false) : Begins s' := by
  have hgens : ∀ k, (s'.generations k).ready =
      if k = g then (s.generations g).ready ++ [.firstStep s.tasks.length]
      else (s.generations k).ready := by
    intro k
    rw [hu.generations]
    split <;> rfl
  have hready : KeepsReady s s' := by
    intro k
    rw [hgens]
    split
    · rename_i hk
      rw [hk]
      exact ⟨_, rfl⟩
    · exact ⟨[], (List.append_nil _).symm⟩
  intro t task ht
  rw [hu.tasks] at ht
  rcases getElem?_append_cases ht with ⟨rfl, rfl⟩ | ht
  · constructor
    · intro n hn _ _
      refine ⟨hcancels n hn, ?_⟩
      rw [hgens, if_pos rfl]
      apply Ahead.of_forall_not
      -- a queued cancellation names tasks that exist
      rintro call hmem ⟨tasks, rfl, hnamed⟩
      obtain ⟨task₁, hget, -⟩ := hl.cancels g tasks hmem _ hnamed
      exact absurd (List.getElem?_eq_some_iff.mp hget).1 (Nat.lt_irrefl _)
    · intro n _ hdone
      cases hdone
    · intro hdone
      cases hdone
  · exact (hb t task ht).mono (keepsReleased_of_eq hu.submissions) hready

theorem Begins.startSubmission (hb : Begins s) (hl : Lineage s)
    (hcancels : ∀ submission, s.submissions[n]? = some submission →
      s.cancelsAtCreation g submission.context = false) : Begins (s.startSubmission g n) := by
  unfold SlotState.startSubmission
  split
  · exact hb
  · rename_i submission hn
    split
    · exact hb
    · rename_i u hfactory
      have hu := taskFactory_effect hfactory
      have hcreated : Begins u := hb.factory hl hu fun _ _ => hcancels submission hn
      apply hcreated.mono
      · rfl
      · exact keepsReleased_set ((congrArg (·[n]?) hu.submissions).trans hn)
          (congrArg (List.set · n _) hu.submissions.symm) (fun h => h)
      · exact keepsReady_of_eq fun _ => rfl

/-- The first step of a task whose queue entry has been taken. -/
theorem Begins.firstStep (hother : ∀ (u : Nat) (task₁ : CarrierTask), u ≠ t →
      s.tasks[u]? = some task₁ → BeginsAt s u task₁) {task : CarrierTask}
    (ht : s.tasks[t]? = some task) (hdone : task.done = false)
    (hroot : ∀ n, task.root = some n → task.cancelled = false) : Begins (s.firstStep t) := by
  unfold SlotState.firstStep
  rw [ht]
  dsimp only
  split
  · rename_i hcancelled
    apply Begins.completeTask ht hother
    intro n hn
    rw [hroot n hn] at hcancelled
    cases hcancelled
  · have hbegun : Begins { s with tasks := s.tasks.set t { task with begun := true } } := by
      apply Begins.set_task ht rfl
      · exact fun u task₁ hne hu => (hother u task₁ hne hu).mono
          (keepsReleased_of_eq rfl) (keepsReady_of_eq fun _ => rfl)
      · constructor
        · intro n _ hb _
          cases hb
        · intro n _ hd
          rw [show task.done = true from hd] at hdone
          cases hdone
        · intro hd
          rw [show task.done = true from hd] at hdone
          cases hdone
    split
    · unfold SlotState.beginSubmission
      split
      · exact hbegun
      · rename_i submission hn
        dsimp only
        split
        · exact hbegun.mono rfl (keepsReleased_set hn rfl (fun h => h))
            (keepsReady_of_eq fun _ => rfl)
        · exact hbegun.mono rfl (keepsReleased_set hn rfl (fun h => h))
            (keepsReady_of_eq fun _ => rfl)
    · exact hbegun

theorem KeepsReady.trans {s₁ s₂ s₃ : SlotState} (h : KeepsReady s₁ s₂) (h' : KeepsReady s₂ s₃) :
    KeepsReady s₁ s₃ := by
  intro g
  obtain ⟨more, hmore⟩ := h g
  obtain ⟨more', hmore'⟩ := h' g
  exact ⟨more ++ more', by rw [hmore', hmore, List.append_assoc]⟩

theorem finishSubmission_eq {submission : Submission} (hn : s.submissions[n]? = some submission) :
    (s.finishSubmission n).submissions =
        s.submissions.set n { submission with released := true } ∧
      (s.finishSubmission n).tasks = s.tasks ∧ KeepsReady s (s.finishSubmission n) := by
  unfold SlotState.finishSubmission
  rw [hn]
  exact ⟨rfl, rfl, keepsReady_releaseReservation s submission.generation⟩

/-- The last step of a task that has begun: a root task runs its `finally`. -/
theorem Begins.endTask (hb : Begins s) (hr : Roots s) {task : CarrierTask}
    (ht : s.tasks[t]? = some task) : Begins (s.endTask t task) := by
  unfold SlotState.endTask
  split
  · rename_i n hroot
    obtain ⟨submission, hn, -, -⟩ := hr.of_root t task n ht hroot
    obtain ⟨hsubs, htasks, hready⟩ := finishSubmission_eq hn
    have hfinished : Begins (s.finishSubmission n) :=
      hb.mono htasks (keepsReleased_set hn hsubs fun _ => rfl) hready
    apply Begins.completeTask
    · rw [htasks]
      exact ht
    · exact fun u task₁ _ hu => hfinished u task₁ hu
    · intro m hm
      obtain rfl : n = m := Option.some.inj (hroot.symm.trans hm)
      rw [hsubs]
      exact ⟨_, getElem?_set_self' hn, rfl⟩
  · rename_i hroot
    apply Begins.completeTask ht (fun u task₁ _ hu => hb u task₁ hu)
    intro n hn
    rw [hroot] at hn
    cases hn

/-- A cancellation that reaches only root tasks that have begun. -/
theorem Begins.cancelTasks (hb : Begins s) {tasks : List Nat}
    (hbegun : ∀ t ∈ tasks, ∀ (task : CarrierTask) (n : Nat), s.tasks[t]? = some task →
      task.root = some n → task.begun = false → task.done = true) :
    Begins (s.cancelTasks tasks) := by
  unfold SlotState.cancelTasks
  induction tasks generalizing s with
  | nil => exact hb
  | cons t tasks ih =>
    have hrest : ∀ u ∈ tasks, ∀ (task : CarrierTask) (n : Nat), s.tasks[u]? = some task →
        task.root = some n → task.begun = false → task.done = true :=
      fun u hu => hbegun u (List.mem_cons_of_mem _ hu)
    rw [List.foldl_cons]
    unfold SlotState.cancelTask
    split
    · rename_i task ht
      split
      · exact ih hb hrest
      · rename_i hdone
        apply ih
        · apply Begins.set_task ht rfl
          · exact fun u task₁ _ hu => (hb u task₁ hu).mono (keepsReleased_of_eq rfl)
              (keepsReady_of_eq fun _ => rfl)
          · refine ⟨?_, (hb t task ht).last, (hb t task ht).callback⟩
            intro n hn hunbegun _
            exact absurd (hbegun t List.mem_cons_self task n ht hn hunbegun) hdone
        · intro u hu task₁ n hget hn hunbegun
          rcases getElem?_set_cases ht hget with ⟨rfl, rfl⟩ | ⟨-, hget⟩
          · exact hrest u hu task n ht hn hunbegun
          · exact hrest u hu task₁ n hget hn hunbegun
    · exact ih hb hrest

theorem Begins.descendantDone (hother : ∀ (u : Nat) (task₁ : CarrierTask), u ≠ t →
      s.tasks[u]? = some task₁ → BeginsAt s u task₁) {task : CarrierTask}
    (ht : s.tasks[t]? = some task) (hdone : task.done = true) (hret : task.retained.isSome = true)
    (hlast : ∀ n, task.root = some n →
      ∃ submission, s.submissions[n]? = some submission ∧ submission.released = true) :
    Begins (s.descendantDone t) := by
  obtain ⟨x, hx⟩ := Option.isSome_iff_exists.mp hret
  unfold SlotState.descendantDone
  rw [ht]
  dsimp only
  rw [hx]
  apply Begins.set_task ht rfl
  · intro u task₁ hne hu
    exact (hother u task₁ hne hu).mono (keepsReleased_of_eq rfl)
      (keepsReady_releaseReservation s task.generation)
  · constructor
    · intro n _ _ hd
      rw [show task.done = false from hd] at hdone
      cases hdone
    · exact fun n hn _ => hlast n hn
    · intro _ _ hrel
      cases hrel

/-! ## 3. Every step -/

/-- **Step lemma of the loops**, for every callback whose root task is not cancelled at
    its creation. -/
theorem Begins.loopStep (hb : Begins s) (hs : SlotInv s) (hl : Lineage s)
    (hok : s.cancelsRoot (.loopStep g) = false) (hstep : s.loopStep g = some s') :
    Begins s' := by
  unfold SlotState.loopStep at hstep
  split at hstep
  · cases hstep
  · rename_i call rest hready
    cases hstep
    have hpopped : ∀ (t : Nat) (task : CarrierTask), s.tasks[t]? = some task →
        call ≠ .firstStep t → call ≠ .descendantDone t →
        BeginsAt (s.setGeneration g { s.generations g with ready := rest }) t task :=
      fun t task ht hfirst hdone =>
        (hb t task ht).pop hready (fun _ => hfirst) (fun _ => hdone)
    have hlineage : Lineage (s.setGeneration g { s.generations g with ready := rest }) := by
      apply hl.rewrite (g := g) (G := { s.generations g with ready := rest })
      · intro tasks hmem
        rw [hready]
        exact List.mem_cons_of_mem _ hmem
      · rfl
      · rfl
      · rfl
      · rfl
    cases call with
    | startSubmission n =>
      apply Begins.startSubmission
      · exact fun t task ht => hpopped t task ht (by simp) (by simp)
      · exact hlineage
      · intro submission hn
        have hn' : s.submissions[n]? = some submission := hn
        simp only [cancelsRoot, hready, hn', Option.any_some] at hok
        exact hok
    | firstStep t =>
      obtain ⟨hdue, -⟩ := hs.once.due_of_ready rfl hready
      obtain ⟨task, ht, hduetask⟩ := (Option.any_eq_true _ _).mp hdue
      obtain ⟨⟨hgen, hbegun⟩, hdone⟩ :
          (task.generation = g ∧ task.begun = false) ∧ task.done = false := by
        simpa using hduetask
      apply Begins.firstStep (t := t)
      · intro u task₁ hne hu
        exact hpopped u task₁ hu (by simp [Ne.symm hne]) (by simp)
      · exact ht
      · exact hdone
      · exact fun n hn => ((hb t task ht).first n hn hbegun hdone).1
    | cancelTasks tasks =>
      apply Begins.cancelTasks
      · exact fun t task ht => hpopped t task ht (by simp) (by simp)
      · intro t hmem task n ht hroot hbegun
        have ht' : s.tasks[t]? = some task := ht
        by_contra hdone
        obtain ⟨-, hahead⟩ := (hb t task ht').first n hroot hbegun (by simpa using hdone)
        obtain ⟨task₁, hget, hcase⟩ := hl.cancels g tasks (by
          rw [hready]
          exact List.mem_cons_self) t hmem
        obtain rfl : task = task₁ := Option.some.inj (ht'.symm.trans hget)
        rcases hcase with hb' | hgen
        · rw [hbegun] at hb'
          cases hb'
        · rw [hgen, hready] at hahead
          rcases hahead.dequeue with heq | ⟨hnot, -⟩
          · cases heq
          · exact hnot ⟨tasks, rfl, hmem⟩
    | descendantDone t =>
      obtain ⟨hdue, -⟩ := hs.once.due_of_ready rfl hready
      obtain ⟨task, ht, hduetask⟩ := (Option.any_eq_true _ _).mp hdue
      obtain ⟨⟨⟨-, hdone⟩, hret⟩, -⟩ : ((task.generation = g ∧ task.done = true) ∧
          task.retained.isSome = true) ∧ task.released = false := by
        simpa using hduetask
      apply Begins.descendantDone (t := t)
      · intro u task₁ hne hu
        exact hpopped u task₁ hu (by simp) (by simp [Ne.symm hne])
      · exact ht
      · exact hdone
      · exact hret
      · exact fun n hn => (hb t task ht).last n hn hdone
    | setSeal =>
      apply Begins.mono (s := s.setGeneration g { s.generations g with ready := rest })
      · exact fun t task ht => hpopped t task ht (by simp) (by simp)
      · rfl
      · exact keepsReleased_of_eq rfl
      · apply keepsReady_of_eq
        intro k
        simp only [runCall, generations_setGeneration, if_true]
        split <;> rfl

theorem keepsReady_deliver (s : SlotState) (g n : Nat) : KeepsReady s (s.deliver g n) := by
  unfold deliver
  split
  · exact keepsReady_callSoon s g _
  · exact keepsReady_rewrite rfl rfl

/-- The steps that neither create, run nor end a task. -/
structure Quiet (s s' : SlotState) : Prop where
  tasks : s'.tasks = s.tasks
  submissions : ∃ more, s'.submissions = s.submissions ++ more
  ready : KeepsReady s s'

theorem quiet_of_eq (htasks : s'.tasks = s.tasks) (hsubs : s'.submissions = s.submissions)
    (hready : KeepsReady s s') : Quiet s s' :=
  ⟨htasks, ⟨[], hsubs.trans (List.append_nil _).symm⟩, hready⟩

theorem quiet_submit (hs : SlotInv s) {preferred : Option Nat} {phase : WorkPhase}
    {context : Option ExecutionContext} : Quiet s (s.submit preferred h phase context) := by
  unfold SlotState.submit
  split
  · exact quiet_of_eq rfl rfl (keepsReady_of_eq fun _ => rfl)
  · rename_i g v hreserve
    obtain ⟨u, hu, rfl⟩ := hs.reserveLocked hreserve
    obtain ⟨G, -, -, -, hsubs, htasks, -⟩ := deliver_effect (((u.addReservation g).retainWork
      h).addSubmission ⟨h, g, phase, context, none, false, false⟩) g s.submissions.length
    have hadded : KeepsReady s (((u.addReservation g).retainWork h).addSubmission
        ⟨h, g, phase, context, none, false, false⟩) := keepsReady_of_eq hu.ready_addReservation
    constructor
    · exact htasks.trans hu.tasks
    · exact ⟨_, hsubs.trans (congrArg (· ++ _) hu.submissions)⟩
    · exact hadded.trans (keepsReady_deliver _ g _)

theorem quiet_queueTaken (hstep : s.queueTaken g = some s') : Quiet s s' := by
  unfold SlotState.queueTaken at hstep
  split at hstep
  · rename_i n rest _
    cases hstep
    have htaken : KeepsReady s (s.setGeneration g { s.generations g with taken := rest }) :=
      keepsReady_rewrite rfl rfl
    exact quiet_of_eq rfl rfl (htaken.trans (keepsReady_callSoon _ g _))
  · split at hstep
    · cases hstep
      have hseals : KeepsReady s (s.setGeneration g { s.generations g with
          sealsOnRun := false }) := keepsReady_rewrite rfl rfl
      exact quiet_of_eq rfl rfl (hseals.trans (keepsReady_callSoon _ g _))
    · cases hstep

theorem quiet_cancel (s : SlotState) (h : Nat) : Quiet s (s.cancel h) := by
  unfold SlotState.cancel
  dsimp only
  split
  · rename_i g _
    split
    · exact quiet_of_eq rfl rfl (keepsReady_callSoon s g _)
    · exact quiet_of_eq rfl rfl (keepsReady_of_eq fun _ => rfl)
  · exact quiet_of_eq rfl rfl (keepsReady_of_eq fun _ => rfl)

/-- Every step is a step of a loop, makes or ends a task, or is quiet. -/
theorem step_cases {e : SlotEvent} (hs : SlotInv s) (hstep : s.step e = some s') :
    (∃ g, e = .loopStep g ∧ s.loopFree g = true ∧ s.loopStep g = some s') ∨
    (∃ g context, s.taskFactory g (s.contextOf context) none = .ok s') ∨
    (∃ t task, s.tasks[t]? = some task ∧ task.begun = true ∧
      s.loopFree task.generation = true ∧ s' = s.endTask t task) ∨
    Quiet s s' := by
  cases stepped hstep with
  | loopStep g hfree hloop =>
    exact Or.inl ⟨g, rfl, hfree, hloop⟩
  | createTask g context hfree hfactory =>
    exact Or.inr (Or.inl ⟨g, context, hfactory⟩)
  | taskRefused g context =>
    exact Or.inr (Or.inr (Or.inr (quiet_of_eq rfl rfl (keepsReady_of_eq fun _ => rfl))))
  | endTask t task ht hbegun hdone hfree =>
    exact Or.inr (Or.inr (Or.inl ⟨t, task, ht, hbegun, hfree, rfl⟩))
  | submit preferred h phase context hexists hbody =>
    exact Or.inr (Or.inr (Or.inr (quiet_submit hs)))
  | @acquireLease v preferred g hreserve =>
    refine Or.inr (Or.inr (Or.inr ?_))
    obtain ⟨u, hu, rfl⟩ := hs.reserveLocked hreserve
    apply quiet_of_eq
    · exact hu.tasks
    · exact hu.submissions
    · exact keepsReady_of_eq hu.ready_addReservation
  | leaseRefused preferred =>
    refine Or.inr (Or.inr (Or.inr ?_))
    exact quiet_of_eq rfl rfl (keepsReady_of_eq fun _ => rfl)
  | releaseLease g hheld =>
    exact Or.inr (Or.inr (Or.inr (quiet_of_eq rfl rfl (keepsReady_releaseReservation s g))))
  | postSeal g hposted =>
    refine Or.inr (Or.inr (Or.inr ?_))
    split
    · exact quiet_of_eq rfl rfl (keepsReady_callSoon s g _)
    · exact quiet_of_eq rfl rfl (keepsReady_of_eq fun _ => rfl)
  | runGeneration g hcurrent hstopped hopen =>
    exact Or.inr (Or.inr (Or.inr (quiet_of_eq rfl rfl (keepsReady_rewrite rfl rfl))))
  | queueTaken g hrun htaken =>
    exact Or.inr (Or.inr (Or.inr (quiet_queueTaken htaken)))
  | cancel h =>
    exact Or.inr (Or.inr (Or.inr (quiet_cancel s h)))
  | drain g hfree hseal =>
    exact Or.inr (Or.inr (Or.inr (quiet_of_eq rfl rfl (keepsReady_rewrite rfl rfl))))
  | close g hfree _ | exit g hfree =>
    refine Or.inr (Or.inr (Or.inr (quiet_of_eq rfl rfl ?_)))
    exact keepsReady_rewrite (g := g) (G := { s.generations g with
      running := false, state := .closed }) rfl rfl
  | shutdown =>
    exact Or.inr (Or.inr (Or.inr (quiet_of_eq rfl rfl (keepsReady_of_eq fun _ => rfl))))

theorem Quiet.keepsReleased (hq : Quiet s s') : KeepsReleased s s' := by
  obtain ⟨more, hmore⟩ := hq.submissions
  intro n submission hn hrel
  rw [hmore]
  exact ⟨submission,
    (List.getElem?_append_left (List.getElem?_eq_some_iff.mp hn).1).trans hn, hrel⟩

theorem completeTask_eq (s : SlotState) (t : Nat) (task : CarrierTask) :
    (s.completeTask t task).tasks = s.tasks.set t { task with done := true } ∧
      (s.completeTask t task).submissions = s.submissions ∧
      KeepsReady s (s.completeTask t task) := by
  unfold SlotState.completeTask
  dsimp only
  split
  · exact ⟨rfl, rfl, keepsReady_callSoon s task.generation _⟩
  · exact ⟨rfl, rfl, keepsReady_of_eq fun _ => rfl⟩

/-- **Step lemma**, for the steps that cancel no root task at its creation. -/
theorem Begins.step {e : SlotEvent} (hb : Begins s) (hs : SlotInv s) (hl : Lineage s)
    (hok : s.cancelsRoot e = false) (hstep : s.step e = some s') : Begins s' := by
  rcases step_cases hs hstep with
    ⟨g, rfl, -, hloop⟩ | ⟨g, context, hfactory⟩ | ⟨t, task, ht, -, -, rfl⟩ | hquiet
  · exact hb.loopStep hs hl hok hloop
  · exact hb.factory hl (taskFactory_effect hfactory) fun n hn => by cases hn
  · exact hb.endTask hs.roots ht
  · exact hb.mono hquiet.tasks hquiet.keepsReleased hquiet.ready

/-- A retained task has ended and its `_descendant_done` has not run. -/
def Ended (s : SlotState) (t g : Nat) (x : ExecutionContext) : Prop :=
  ∃ task : CarrierTask, s.tasks[t]? = some task ∧ task.generation = g ∧
    task.retained = some x ∧ task.done = true ∧ task.released = false

/-- A submission keeps its root task and its account. -/
def KeepsSubmission (s s' : SlotState) (n : Nat) : Prop :=
  ∀ submission : Submission, s.submissions[n]? = some submission →
    ∃ submission' : Submission, s'.submissions[n]? = some submission' ∧
      submission'.rootTask = submission.rootTask ∧
      submission'.released = submission.released ∧
      submission'.generation = submission.generation ∧
      submission'.handle = submission.handle

/-- A task keeps what it runs; it does not begin. -/
def KeepsTask (s s' : SlotState) (t : Nat) : Prop :=
  ∀ task : CarrierTask, s.tasks[t]? = some task →
    ∃ task' : CarrierTask, s'.tasks[t]? = some task' ∧ task'.root = task.root ∧
      task'.generation = task.generation ∧ task'.begun = task.begun ∧
      (task.cancelled = true → task'.cancelled = true) ∧ (task.done = true → task'.done = true)

theorem keepsSubmission_of_eq (h : s'.submissions = s.submissions) (n : Nat) :
    KeepsSubmission s s' n := by
  intro submission hn
  rw [h]
  exact ⟨submission, hn, rfl, rfl, rfl, rfl⟩

theorem keepsSubmission_append {more : List Submission}
    (h : s'.submissions = s.submissions ++ more) (n : Nat) : KeepsSubmission s s' n := by
  intro submission hn
  rw [h]
  exact ⟨submission,
    (List.getElem?_append_left (List.getElem?_eq_some_iff.mp hn).1).trans hn, rfl, rfl, rfl, rfl⟩

theorem keepsSubmission_set_ne {m : Nat} {submission' : Submission}
    (h : s'.submissions = s.submissions.set m submission') (hne : m ≠ n) :
    KeepsSubmission s s' n := by
  intro submission hn
  rw [h]
  exact ⟨submission, (List.getElem?_set_ne hne).trans hn, rfl, rfl, rfl, rfl⟩

theorem keepsTask_of_eq (h : s'.tasks = s.tasks) (t : Nat) : KeepsTask s s' t := by
  intro task ht
  rw [h]
  exact ⟨task, ht, rfl, rfl, rfl, fun h => h, fun h => h⟩

theorem keepsTask_append {task₁ : CarrierTask} (h : s'.tasks = s.tasks ++ [task₁]) (t : Nat) :
    KeepsTask s s' t := by
  intro task ht
  rw [h]
  exact ⟨task, (List.getElem?_append_left (List.getElem?_eq_some_iff.mp ht).1).trans ht, rfl, rfl,
    rfl, fun h => h, fun h => h⟩

theorem keepsTask_set_ne {u : Nat} {task' : CarrierTask} (h : s'.tasks = s.tasks.set u task')
    (hne : u ≠ t) : KeepsTask s s' t := by
  intro task ht
  rw [h]
  exact ⟨task, (List.getElem?_set_ne hne).trans ht, rfl, rfl, rfl, fun h => h, fun h => h⟩

theorem keepsTask_set {u : Nat} {task task' : CarrierTask} (hu : s.tasks[u]? = some task)
    (h : s'.tasks = s.tasks.set u task') (hroot : task'.root = task.root)
    (hgen : task'.generation = task.generation) (hbegun : task'.begun = task.begun)
    (hcancelled : task.cancelled = true → task'.cancelled = true)
    (hdone : task.done = true → task'.done = true) (t : Nat) : KeepsTask s s' t := by
  by_cases hne : u = t
  · subst hne
    intro task₁ ht
    obtain rfl : task = task₁ := Option.some.inj (hu.symm.trans ht)
    rw [h]
    exact ⟨task', getElem?_set_self' hu, hroot, hgen, hbegun, hcancelled, hdone⟩
  · exact keepsTask_set_ne h hne

/-- The root task of a submission has been cancelled before its first step: it ends at
    that step, and the submission is never released. -/
structure Stillborn (s : SlotState) (n t g h : Nat) : Prop where
  submission : ∃ submission : Submission, s.submissions[n]? = some submission ∧
    submission.rootTask = some t ∧ submission.released = false ∧
    submission.generation = g ∧ submission.handle = h
  task : ∃ task : CarrierTask, s.tasks[t]? = some task ∧ task.root = some n ∧
    task.generation = g ∧ task.begun = false ∧ task.cancelled = true ∧
    (task.done = true ∨ .firstStep t ∈ (s.generations g).ready)

theorem Stillborn.mono (hst : Stillborn s n t g h) (hsub : KeepsSubmission s s' n)
    (htask : KeepsTask s s' t)
    (hready : .firstStep t ∈ (s.generations g).ready →
      .firstStep t ∈ (s'.generations g).ready) : Stillborn s' n t g h := by
  constructor
  · obtain ⟨submission, hn, hroot, hrel, hgen, hhandle⟩ := hst.submission
    obtain ⟨submission', hn', hroot', hrel', hgen', hhandle'⟩ := hsub submission hn
    exact ⟨submission', hn', hroot'.trans hroot, hrel'.trans hrel, hgen'.trans hgen,
      hhandle'.trans hhandle⟩
  · obtain ⟨task, ht, hroot, hgen, hbegun, hcancelled, hcase⟩ := hst.task
    obtain ⟨task', ht', hroot', hgen', hbegun', hcancelled', hdone'⟩ := htask task ht
    refine ⟨task', ht', hroot'.trans hroot, hgen'.trans hgen, hbegun'.trans hbegun,
      hcancelled' hcancelled, ?_⟩
    rcases hcase with hdone | hmem
    · exact Or.inl (hdone' hdone)
    · exact Or.inr (hready hmem)

theorem KeepsReady.mem (hready : KeepsReady s s') {call : CarrierCall}
    (hmem : call ∈ (s.generations g).ready) : call ∈ (s'.generations g).ready := by
  obtain ⟨more, hmore⟩ := hready g
  rw [hmore]
  exact List.mem_append_left _ hmem

theorem Stillborn.beginSubmission (hst : Stillborn s n t g h) (u m : Nat) :
    Stillborn (s.beginSubmission u m) n t g h := by
  unfold SlotState.beginSubmission
  split
  · exact hst
  · rename_i submission hm
    have hset : ∀ v : SlotState, v.submissions = s.submissions.set m
        { submission with begun := true } → KeepsSubmission s v n := by
      intro v hv submission₁ hn
      by_cases hmn : m = n
      · subst hmn
        obtain rfl : submission = submission₁ := Option.some.inj (hm.symm.trans hn)
        rw [hv]
        exact ⟨_, getElem?_set_self' hm, rfl, rfl, rfl, rfl⟩
      · exact keepsSubmission_set_ne hv hmn submission₁ hn
    dsimp only
    split
    · exact hst.mono (hset _ rfl) (keepsTask_of_eq rfl t) fun h => h
    · exact hst.mono (hset _ rfl) (keepsTask_of_eq rfl t) fun h => h

/-- The first step of another task. -/
theorem Stillborn.firstStep_ne (hst : Stillborn s n t g h) {u : Nat} (hne : u ≠ t) :
    Stillborn (s.firstStep u) n t g h := by
  unfold SlotState.firstStep
  split
  · exact hst
  · rename_i task hu
    split
    · obtain ⟨htasks, hsubs, hready⟩ := completeTask_eq s u task
      exact hst.mono (keepsSubmission_of_eq hsubs n) (keepsTask_set_ne htasks hne) hready.mem
    · have hbegun : Stillborn { s with tasks := s.tasks.set u { task with begun := true } }
          n t g h :=
        hst.mono (keepsSubmission_of_eq rfl n) (keepsTask_set_ne rfl hne) fun h => h
      split
      · exact hbegun.beginSubmission u _
      · exact hbegun

theorem Stillborn.cancelTasks (hst : Stillborn s n t g h) (tasks : List Nat) :
    Stillborn (s.cancelTasks tasks) n t g h := by
  unfold SlotState.cancelTasks
  induction tasks generalizing s with
  | nil => exact hst
  | cons u tasks ih =>
    apply ih
    unfold SlotState.cancelTask
    split
    · rename_i task hu
      split
      · exact hst
      · apply hst.mono
        · exact keepsSubmission_of_eq rfl n
        · apply keepsTask_set hu
          · rfl
          · rfl
          · rfl
          · rfl
          · exact fun _ => rfl
          · exact fun h => h
        · exact fun h => h
    · exact hst

theorem Stillborn.descendantDone (hst : Stillborn s n t g h) (u : Nat) :
    Stillborn (s.descendantDone u) n t g h := by
  unfold SlotState.descendantDone
  split
  · rename_i task hu
    split
    · apply hst.mono
      · exact keepsSubmission_of_eq rfl n
      · apply keepsTask_set hu
        · rfl
        · rfl
        · rfl
        · rfl
        · exact fun h => h
        · exact fun h => h
      · exact (keepsReady_releaseReservation s task.generation).mem
    · exact hst
  · exact hst

/-- A submission is started once, so not again. -/
theorem Stillborn.startSubmission (hst : Stillborn s n t g h) {m : Nat} (hne : m ≠ n) :
    Stillborn (s.startSubmission k m) n t g h := by
  unfold SlotState.startSubmission
  split
  · exact hst
  · split
    · exact hst
    · rename_i u hfactory
      have hu := taskFactory_effect hfactory
      apply hst.mono
      · exact keepsSubmission_set_ne rfl hne
      · exact keepsTask_append hu.tasks t
      · intro hmem
        change CarrierCall.firstStep t ∈ (u.generations g).ready
        rw [hu.generations]
        split
        · rename_i hk
          rw [← hk]
          exact List.mem_append_left _ hmem
        · exact hmem

/-- Taking a call other than the first step of the task. -/
theorem Stillborn.pop (hst : Stillborn s n t g h) {call : CarrierCall} {rest : List CarrierCall}
    (hready : (s.generations k).ready = call :: rest) (hcall : call ≠ .firstStep t) :
    Stillborn (s.setGeneration k { s.generations k with ready := rest }) n t g h := by
  apply hst.mono
  · exact keepsSubmission_of_eq rfl n
  · exact keepsTask_of_eq rfl t
  · intro hmem
    rw [generations_setGeneration]
    split
    · rename_i hk
      rw [hk, hready] at hmem
      rcases List.mem_cons.mp hmem with heq | hmem
      · exact absurd heq.symm hcall
      · exact hmem
    · exact hmem

/-- The first step of the task itself: it ends. -/
theorem Stillborn.firstStep_self (hst : Stillborn s n t g h) {rest : List CarrierCall} :
    Stillborn ((s.setGeneration k { s.generations k with ready := rest }).firstStep t)
      n t g h := by
  obtain ⟨task, ht, hroot, hgen, hbegun, hcancelled, -⟩ := hst.task
  have ht' : (s.setGeneration k { s.generations k with ready := rest }).tasks[t]? = some task := ht
  unfold SlotState.firstStep
  rw [ht']
  dsimp only
  rw [if_pos hcancelled]
  obtain ⟨htasks, hsubs, -⟩ := completeTask_eq
    (s.setGeneration k { s.generations k with ready := rest }) t task
  constructor
  · rw [hsubs]
    exact hst.submission
  · rw [htasks]
    exact ⟨_, getElem?_set_self' ht, hroot, hgen, hbegun, hcancelled, Or.inl rfl⟩

theorem Stillborn.loopStep (hst : Stillborn s n t g h) (hs : SlotInv s)
    (hstep : s.loopStep k = some s') : Stillborn s' n t g h := by
  unfold SlotState.loopStep at hstep
  split at hstep
  · cases hstep
  · rename_i call rest hready
    cases hstep
    cases call with
    | startSubmission m =>
      apply (hst.pop hready (by simp)).startSubmission
      rintro rfl
      obtain ⟨hdue, -⟩ := hs.once.due_of_ready rfl hready
      obtain ⟨submission, hn, hroot, -⟩ := hst.submission
      simp [due, hn, hroot] at hdue
    | firstStep u =>
      by_cases hu : u = t
      · subst hu
        exact hst.firstStep_self
      · exact (hst.pop hready (by simp [hu])).firstStep_ne hu
    | cancelTasks tasks => exact (hst.pop hready (by simp)).cancelTasks tasks
    | descendantDone u => exact (hst.pop hready (by simp)).descendantDone u
    | setSeal =>
      apply (hst.pop hready (by simp)).mono
      · exact keepsSubmission_of_eq rfl n
      · exact keepsTask_of_eq rfl t
      · intro hmem
        simp only [runCall, generations_setGeneration, if_true] at hmem ⊢
        split at hmem
        · rename_i hk
          rw [if_pos hk]
          exact hmem
        · rename_i hk
          rw [if_neg hk, if_neg hk]
          exact hmem

/-- Only the root task of a submission releases it. -/
theorem Stillborn.endTask (hst : Stillborn s n t g h) (hr : Roots s) {u : Nat}
    {task : CarrierTask} (hu : s.tasks[u]? = some task) (hbegun : task.begun = true) :
    Stillborn (s.endTask u task) n t g h := by
  have hne : u ≠ t := by
    rintro rfl
    obtain ⟨task₁, ht, -, -, hunbegun, -⟩ := hst.task
    obtain rfl : task = task₁ := Option.some.inj (hu.symm.trans ht)
    rw [hbegun] at hunbegun
    cases hunbegun
  unfold SlotState.endTask
  split
  · rename_i m hroot
    obtain ⟨submission, hm, hrootTask, -⟩ := hr.of_root u task m hu hroot
    have hmn : m ≠ n := by
      rintro rfl
      obtain ⟨submission₁, hn, hroot₁, -⟩ := hst.submission
      obtain rfl : submission = submission₁ := Option.some.inj (hm.symm.trans hn)
      exact hne (Option.some.inj (hrootTask.symm.trans hroot₁))
    obtain ⟨hsubs, htasks, hready⟩ := finishSubmission_eq hm
    obtain ⟨htasks', hsubs', hready'⟩ := completeTask_eq (s.finishSubmission m) u task
    have hfinished : Stillborn (s.finishSubmission m) n t g h :=
      hst.mono (keepsSubmission_set_ne hsubs hmn) (keepsTask_of_eq htasks t) hready.mem
    exact hfinished.mono (keepsSubmission_of_eq hsubs' n) (keepsTask_set_ne htasks' hne)
      hready'.mem
  · obtain ⟨htasks, hsubs, hready⟩ := completeTask_eq s u task
    exact hst.mono (keepsSubmission_of_eq hsubs n) (keepsTask_set_ne htasks hne) hready.mem

/-- **Step lemma of the other kind**: what is stillborn stays so, whatever happens. -/
theorem Stillborn.step {e : SlotEvent} (hst : Stillborn s n t g h) (hs : SlotInv s)
    (hstep : s.step e = some s') : Stillborn s' n t g h := by
  rcases step_cases hs hstep with
    ⟨k, rfl, -, hloop⟩ | ⟨k, context, hfactory⟩ | ⟨u, task, hu, hbegun, -, rfl⟩ | hquiet
  · exact hst.loopStep hs hloop
  · have hf := taskFactory_effect hfactory
    apply hst.mono (keepsSubmission_of_eq hf.submissions n) (keepsTask_append hf.tasks t)
    intro hmem
    rw [hf.generations]
    split
    · rename_i hk
      rw [← hk]
      exact List.mem_append_left _ hmem
    · exact hmem
  · exact hst.endTask hs.roots hu hbegun
  · obtain ⟨more, hmore⟩ := hquiet.submissions
    exact hst.mono (keepsSubmission_append hmore n) (keepsTask_of_eq hquiet.tasks t)
      hquiet.ready.mem

theorem startSubmission_eq {u : SlotState} {submission : Submission}
    (hn : s.submissions[n]? = some submission)
    (hfactory : s.taskFactory g submission.context (some n) = .ok u) :
    s.startSubmission g n = { u with
      submissions :=
        s.submissions.set n { submission with rootTask := some s.tasks.length } } := by
  unfold SlotState.startSubmission
  rw [hn]
  dsimp only
  rw [hfactory]

/-- **A queued submission is given its root task**: what it reserves keeps the loop open. -/
theorem SlotInv.startEffect (hs : SlotInv s) (hse : Sealing s) (hfree : s.loopFree g = true)
    {rest : List CarrierCall} (hready : (s.generations g).ready = .startSubmission n :: rest) :
    ∃ submission u, s.submissions[n]? = some submission ∧ submission.generation = g ∧
      submission.released = false ∧
      FactoryEffect (s.setGeneration g { s.generations g with ready := rest }) g
        submission.context (some n) u ∧
      s.step (.loopStep g) = some { u with
        submissions :=
          s.submissions.set n { submission with rootTask := some s.tasks.length } } := by
  obtain ⟨hdue, -⟩ := hs.once.due_of_ready rfl hready
  obtain ⟨submission, hn, hduesub⟩ := (Option.any_eq_true _ _).mp hdue
  obtain ⟨hgen, hroot⟩ : submission.generation = g ∧ submission.rootTask = none := by
    simpa using hduesub
  have hopen : submission.released = false := by
    by_contra hrel
    obtain ⟨u, -, hu, -⟩ := hs.roots.released_done n submission hn (by simpa using hrel)
    rw [hroot] at hu
    cases hu
  have hres : 0 < s.reservations g := by
    have hpos : 0 < s.submissions.countP (openOn g) :=
      List.countP_pos_iff.mpr ⟨submission, List.mem_of_getElem? hn, by simp [openOn, hgen, hopen]⟩
    rw [hs.ledger.reservations g]
    omega
  obtain ⟨u, hfactory⟩ := (hse.pop hready).taskFactory_ok (g := g)
    (by rw [generations_setGeneration, if_pos rfl]; exact running_of_loopFree hfree)
    (by rw [SlotState.reservations, generations_setGeneration, if_pos rfl]; exact hres)
    submission.context (some n)
  refine ⟨submission, u, hn, hgen, hopen, taskFactory_effect hfactory, ?_⟩
  simp only [SlotState.step, hfree, if_true]
  unfold SlotState.loopStep
  rw [hready]
  exact congrArg some (startSubmission_eq
    (s := s.setGeneration g { s.generations g with ready := rest }) hn hfactory)

theorem SlotInv.starts (hs : SlotInv s) (hse : Sealing s) (hfree : s.loopFree g = true)
    {rest : List CarrierCall} (hready : (s.generations g).ready = .startSubmission n :: rest) :
    ∃ (s' : SlotState) (submission : Submission), s.step (.loopStep g) = some s' ∧
      s'.submissions[n]? = some submission ∧ submission.rootTask = some s.tasks.length := by
  obtain ⟨submission, u, hn, -, -, -, hstep⟩ := hs.startEffect hse hfree hready
  exact ⟨_, _, hstep, getElem?_set_self' hn, rfl⟩

end SlotState

open SlotState

end AgentlyStage
