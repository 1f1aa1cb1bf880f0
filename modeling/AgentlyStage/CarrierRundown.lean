import AgentlyStage.CarrierCleanup
import AgentlyStage.CarrierLifecycle
import AgentlyStage.Lib.Measure

/-!
# The rundown of a carrier lane

What a lane does when nothing new comes: leases are given back, tasks end, loops run what is
queued on them, and the control worker runs its generations one after the other.  In whatever
order this happens it comes to an end, within a bound that the state tells.  At the end
everything has been given back and every generation is closed, unless a submission of the
generation that runs has lost its root task before the first step of it; then the loop stays
open for that submission.

The worker drains a loop once, and it closes a loop when the tasks on it have ended
(`asyncio.gather` over `all_tasks`).
-/

namespace AgentlyStage

open Transition

namespace SlotState

variable {s s' : SlotState} {g k h n t : Nat}

/-! ## 1. No task is forgotten -/

/-- What a task still has to do is queued, and a root task that has ended has released its
    submission unless it was cancelled before its first step. -/
structure AttendedAt (s : SlotState) (t : Nat) (task : CarrierTask) : Prop where
  first : task.begun = false → task.done = false →
    .firstStep t ∈ (s.generations task.generation).ready
  last : ∀ n, task.root = some n → task.done = true →
    (∃ submission, s.submissions[n]? = some submission ∧ submission.released = true) ∨
      (task.begun = false ∧ task.cancelled = true)
  callback : task.done = true → task.retained.isSome = true → task.released = false →
    .descendantDone t ∈ (s.generations task.generation).ready

def Attended (s : SlotState) : Prop :=
  ∀ (t : Nat) (task : CarrierTask), s.tasks[t]? = some task → AttendedAt s t task

theorem AttendedAt.mono {task : CarrierTask} (ha : AttendedAt s t task)
    (hsubs : KeepsReleased s s') (hready : KeepsReady s s') : AttendedAt s' t task := by
  constructor
  · intro hbegun hdone
    exact hready.mem (ha.first hbegun hdone)
  · intro n hn hdone
    rcases ha.last n hn hdone with ⟨submission, hsub, hrel⟩ | hlost
    · exact Or.inl (hsubs n submission hsub hrel)
    · exact Or.inr hlost
  · intro hdone hret hrel
    exact hready.mem (ha.callback hdone hret hrel)

theorem Attended.mono (ha : Attended s) (htasks : s'.tasks = s.tasks)
    (hsubs : KeepsReleased s s') (hready : KeepsReady s s') : Attended s' := by
  intro t task ht
  rw [htasks] at ht
  exact (ha t task ht).mono hsubs hready

/-- Taking a call leaves the tasks it does not step attended. -/
theorem AttendedAt.pop {task : CarrierTask} {call : CarrierCall} {rest : List CarrierCall}
    (ha : AttendedAt s t task) (hready : (s.generations g).ready = call :: rest)
    (hfirst : call ≠ .firstStep t) (hdone : call ≠ .descendantDone t) :
    AttendedAt (s.setGeneration g { s.generations g with ready := rest }) t task := by
  have hkept : ∀ d, call ≠ d → d ∈ (s.generations task.generation).ready →
      d ∈ ((s.setGeneration g { s.generations g with ready := rest }).generations
        task.generation).ready := by
    intro d hne hmem
    rw [generations_setGeneration]
    split
    · rename_i hg
      rw [hg, hready] at hmem
      rcases List.mem_cons.mp hmem with heq | hmem
      · exact absurd heq.symm hne
      · exact hmem
    · exact hmem
  constructor
  · intro hbegun hunfinished
    exact hkept _ hfirst (ha.first hbegun hunfinished)
  · exact ha.last
  · intro hd hret hrel
    exact hkept _ hdone (ha.callback hd hret hrel)

/-- The rule of the steps that rewrite one task. -/
theorem Attended.set_task {task task' : CarrierTask} (ht : s.tasks[t]? = some task)
    (htasks : s'.tasks = s.tasks.set t task')
    (hother : ∀ (u : Nat) (task₁ : CarrierTask), u ≠ t → s.tasks[u]? = some task₁ →
      AttendedAt s' u task₁)
    (hself : AttendedAt s' t task') : Attended s' := by
  intro u task₁ hu
  rw [htasks] at hu
  rcases getElem?_set_cases ht hu with ⟨rfl, rfl⟩ | ⟨hne, hu⟩
  · exact hself
  · exact hother u task₁ hne hu

/-- The callback of a task that ends is queued. -/
theorem mem_ready_completeTask {task : CarrierTask} (hret : task.retained.isSome = true) :
    .descendantDone t ∈ ((s.completeTask t task).generations task.generation).ready := by
  unfold SlotState.completeTask
  dsimp only
  rw [if_pos hret]
  change CarrierCall.descendantDone t ∈
    ((s.callSoon task.generation (.descendantDone t)).generations task.generation).ready
  rw [SlotState.callSoon, generations_setGeneration, if_pos rfl]
  exact List.mem_append_right _ List.mem_cons_self

theorem Attended.completeTask {task : CarrierTask} (ht : s.tasks[t]? = some task)
    (hother : ∀ (u : Nat) (task₁ : CarrierTask), u ≠ t → s.tasks[u]? = some task₁ →
      AttendedAt s u task₁)
    (hlast : ∀ n, task.root = some n →
      (∃ submission, s.submissions[n]? = some submission ∧ submission.released = true) ∨
        (task.begun = false ∧ task.cancelled = true)) :
    Attended (s.completeTask t task) := by
  obtain ⟨htasks, hsubs, hready⟩ := completeTask_eq s t task
  apply Attended.set_task ht htasks
  · intro u task₁ hne hu
    exact (hother u task₁ hne hu).mono (keepsReleased_of_eq hsubs) hready
  · constructor
    · intro _ hdone
      cases hdone
    · intro n hn _
      rw [hsubs]
      exact hlast n hn
    · intro _ hret _
      exact mem_ready_completeTask hret

/-- The rule of the task factory. -/
theorem Attended.factory (ha : Attended s) {context : Option ExecutionContext}
    {root : Option Nat} (hu : FactoryEffect s g context root s') : Attended s' := by
  have hready : KeepsReady s s' := by
    intro k
    rw [hu.generations]
    split
    · rename_i hk
      rw [hk]
      exact ⟨_, rfl⟩
    · exact ⟨[], (List.append_nil _).symm⟩
  intro t task ht
  rw [hu.tasks] at ht
  rcases getElem?_append_cases ht with ⟨rfl, rfl⟩ | ht
  · constructor
    · intro _ _
      rw [hu.generations, if_pos rfl]
      exact List.mem_append_right _ List.mem_cons_self
    · intro n _ hdone
      cases hdone
    · intro hdone
      cases hdone
  · exact (ha t task ht).mono (keepsReleased_of_eq hu.submissions) hready

theorem Attended.startSubmission (ha : Attended s) : Attended (s.startSubmission g n) := by
  unfold SlotState.startSubmission
  split
  · exact ha
  · rename_i submission hn
    split
    · exact ha
    · rename_i u hfactory
      have hu := taskFactory_effect hfactory
      apply (ha.factory hu).mono
      · rfl
      · exact keepsReleased_set ((congrArg (·[n]?) hu.submissions).trans hn)
          (congrArg (List.set · n _) hu.submissions.symm) (fun h => h)
      · exact keepsReady_of_eq fun _ => rfl

theorem Attended.beginSubmission (ha : Attended s) : Attended (s.beginSubmission t n) := by
  unfold SlotState.beginSubmission
  split
  · exact ha
  · rename_i submission hn
    dsimp only
    have hkeeps : KeepsReleased s { s with
        submissions := s.submissions.set n { submission with begun := true } } :=
      keepsReleased_set hn rfl (fun h => h)
    split
    · exact ha.mono rfl hkeeps (keepsReady_of_eq fun _ => rfl)
    · exact ha.mono rfl hkeeps (keepsReady_of_eq fun _ => rfl)

/-- The first step of a task whose queue entry has been taken. -/
theorem Attended.firstStep (hother : ∀ (u : Nat) (task₁ : CarrierTask), u ≠ t →
      s.tasks[u]? = some task₁ → AttendedAt s u task₁) {task : CarrierTask}
    (ht : s.tasks[t]? = some task) (hbegun : task.begun = false) (hdone : task.done = false) :
    Attended (s.firstStep t) := by
  unfold SlotState.firstStep
  rw [ht]
  dsimp only
  split
  · rename_i hcancelled
    exact Attended.completeTask ht hother fun _ _ => Or.inr ⟨hbegun, hcancelled⟩
  · have hrunning : Attended { s with tasks := s.tasks.set t { task with begun := true } } := by
      apply Attended.set_task ht rfl
      · intro u task₁ hne hu
        exact (hother u task₁ hne hu).mono (keepsReleased_of_eq rfl)
          (keepsReady_of_eq fun _ => rfl)
      · constructor
        · intro hb _
          cases hb
        · intro n _ hd
          exact absurd (hdone.symm.trans hd) Bool.false_ne_true
        · intro hd
          exact absurd (hdone.symm.trans hd) Bool.false_ne_true
    split
    · exact hrunning.beginSubmission
    · exact hrunning

/-- The last step of a task that has begun. -/
theorem Attended.endTask (ha : Attended s) (hr : Roots s) {task : CarrierTask}
    (ht : s.tasks[t]? = some task) : Attended (s.endTask t task) := by
  unfold SlotState.endTask
  split
  · rename_i n hroot
    obtain ⟨submission, hn, -, -⟩ := hr.of_root t task n ht hroot
    obtain ⟨hsubs, htasks, hready⟩ := finishSubmission_eq hn
    have hfinished : Attended (s.finishSubmission n) :=
      ha.mono htasks (keepsReleased_set hn hsubs fun _ => rfl) hready
    apply Attended.completeTask
    · rw [htasks]
      exact ht
    · exact fun u task₁ _ hu => hfinished u task₁ hu
    · intro m hm
      obtain rfl : n = m := Option.some.inj (hroot.symm.trans hm)
      rw [hsubs]
      exact Or.inl ⟨_, getElem?_set_self' hn, rfl⟩
  · rename_i hroot
    apply Attended.completeTask ht (fun u task₁ _ hu => ha u task₁ hu)
    intro n hn
    rw [hroot] at hn
    cases hn

theorem Attended.cancelTask (ha : Attended s) (t : Nat) : Attended (s.cancelTask t) := by
  unfold SlotState.cancelTask
  split
  · rename_i task ht
    split
    · exact ha
    · rename_i hdone
      apply Attended.set_task ht rfl
      · intro u task₁ _ hu
        exact (ha u task₁ hu).mono (keepsReleased_of_eq rfl) (keepsReady_of_eq fun _ => rfl)
      · refine ⟨(ha t task ht).first, ?_, (ha t task ht).callback⟩
        intro n _ hended
        exact absurd hended hdone
  · exact ha

theorem Attended.cancelTasks (ha : Attended s) (tasks : List Nat) :
    Attended (s.cancelTasks tasks) := by
  unfold SlotState.cancelTasks
  induction tasks generalizing s with
  | nil => exact ha
  | cons t tasks ih =>
    rw [List.foldl_cons]
    exact ih (ha.cancelTask t)

theorem Attended.descendantDone (hother : ∀ (u : Nat) (task₁ : CarrierTask), u ≠ t →
      s.tasks[u]? = some task₁ → AttendedAt s u task₁) {task : CarrierTask}
    (ht : s.tasks[t]? = some task) (hdone : task.done = true) (hret : task.retained.isSome = true)
    (hlast : ∀ n, task.root = some n →
      (∃ submission, s.submissions[n]? = some submission ∧ submission.released = true) ∨
        (task.begun = false ∧ task.cancelled = true)) :
    Attended (s.descendantDone t) := by
  obtain ⟨x, hx⟩ := Option.isSome_iff_exists.mp hret
  unfold SlotState.descendantDone
  rw [ht]
  dsimp only
  rw [hx]
  apply Attended.set_task ht rfl
  · intro u task₁ hne hu
    exact (hother u task₁ hne hu).mono (keepsReleased_of_eq rfl)
      (keepsReady_releaseReservation s task.generation)
  · constructor
    · intro _ hd
      exact absurd (hd.symm.trans hdone) Bool.false_ne_true
    · exact fun n hn _ => hlast n hn
    · intro _ _ hrel
      cases hrel

theorem Attended.loopStep (ha : Attended s) (hs : SlotInv s) (hstep : s.loopStep g = some s') :
    Attended s' := by
  unfold SlotState.loopStep at hstep
  split at hstep
  · cases hstep
  · rename_i call rest hready
    cases hstep
    have hpopped : ∀ (t : Nat) (task : CarrierTask), s.tasks[t]? = some task →
        call ≠ .firstStep t → call ≠ .descendantDone t →
        AttendedAt (s.setGeneration g { s.generations g with ready := rest }) t task :=
      fun t task ht hfirst hdone => (ha t task ht).pop hready hfirst hdone
    -- calls that step no task leave every task attended
    have hsteps : (∀ t, call ≠ .firstStep t ∧ call ≠ .descendantDone t) →
        Attended (s.setGeneration g { s.generations g with ready := rest }) :=
      fun h t task ht => hpopped t task ht (h t).1 (h t).2
    cases call with
    | startSubmission n =>
      exact (hsteps (by simp)).startSubmission
    | firstStep t =>
      obtain ⟨hdue, -⟩ := hs.once.due_of_ready rfl hready
      obtain ⟨task, ht, hduetask⟩ := (Option.any_eq_true _ _).mp hdue
      obtain ⟨⟨-, hbegun⟩, hdone⟩ :
          (task.generation = g ∧ task.begun = false) ∧ task.done = false := by
        simpa using hduetask
      apply Attended.firstStep (t := t)
      · intro u task₁ hne hu
        exact hpopped u task₁ hu (by simp [Ne.symm hne]) (by simp)
      · exact ht
      · exact hbegun
      · exact hdone
    | cancelTasks tasks =>
      exact (hsteps (by simp)).cancelTasks tasks
    | descendantDone t =>
      obtain ⟨hdue, -⟩ := hs.once.due_of_ready rfl hready
      obtain ⟨task, ht, hduetask⟩ := (Option.any_eq_true _ _).mp hdue
      obtain ⟨⟨⟨-, hdone⟩, hret⟩, -⟩ : ((task.generation = g ∧ task.done = true) ∧
          task.retained.isSome = true) ∧ task.released = false := by
        simpa using hduetask
      apply Attended.descendantDone (t := t)
      · intro u task₁ hne hu
        exact hpopped u task₁ hu (by simp) (by simp [Ne.symm hne])
      · exact ht
      · exact hdone
      · exact hret
      · exact fun n hn => (ha t task ht).last n hn hdone
    | setSeal =>
      apply Attended.mono (s := s.setGeneration g { s.generations g with ready := rest })
      · exact hsteps (by simp)
      · rfl
      · exact keepsReleased_of_eq rfl
      · apply keepsReady_of_eq
        intro k
        simp only [runCall, generations_setGeneration, if_true]
        split <;> rfl

theorem Attended.step {e : SlotEvent} (ha : Attended s) (hs : SlotInv s)
    (hstep : s.step e = some s') : Attended s' := by
  rcases step_cases hs hstep with
    ⟨g, rfl, -, hloop⟩ | ⟨g, context, hfactory⟩ | ⟨t, task, ht, -, -, rfl⟩ | hquiet
  · exact ha.loopStep hs hloop
  · exact ha.factory (taskFactory_effect hfactory)
  · exact ha.endTask hs.roots ht
  · exact ha.mono hquiet.tasks hquiet.keepsReleased hquiet.ready

/-- A call with the calls that running it queues. -/
def callWeight : CarrierCall → Nat
  | .startSubmission _ => 8
  | .descendantDone _ => 3
  | .firstStep _ | .cancelTasks _ | .setSeal => 1

/-- The steps of the control worker that a generation has before it. -/
def workerWeight (G : Generation) : Nat :=
  if G.running then if G.state = .draining then 1 else 2
  else if G.state = .closed then 0 else 5

def generationWeight (G : Generation) : Nat :=
  10 * G.pendingSubmissions.length + 9 * G.taken.length + total callWeight G.ready +
    (if G.sealsOnRun then 2 else 0) + workerWeight G

def taskWeight (task : CarrierTask) : Nat := if task.done then 0 else 6

/-- A bound of the steps that a lane takes by itself. -/
def remaining (s : SlotState) : Nat :=
  total (fun g => generationWeight (s.generations g)) (List.range s.generationCount) +
    total taskWeight s.tasks + 2 * s.sealPosts.length +
    3 * total s.leases (List.range s.generationCount)

theorem remaining_setGeneration (hg : g < s.generationCount) (G : Generation) :
    (s.setGeneration g G).remaining + generationWeight (s.generations g) =
      s.remaining + generationWeight G := by
  have hchange := total_change (fun k => generationWeight (s.generations k))
    (fun k => generationWeight ((s.setGeneration g G).generations k))
    (l := List.range s.generationCount) (x := g) List.nodup_range (List.mem_range.mpr hg)
    (fun k _ hk => by rw [generations_setGeneration, if_neg hk])
  simp only [generations_setGeneration, if_true] at hchange
  have hsame : (s.setGeneration g G).remaining =
      total (fun k => generationWeight (if k = g then G else s.generations k))
        (List.range s.generationCount) + total taskWeight s.tasks + 2 * s.sealPosts.length +
        3 * total s.leases (List.range s.generationCount) := by
    simp only [remaining, generations_setGeneration]
    rfl
  rw [hsame, remaining]
  omega

/-- The measure reads the generations, the tasks, the posts and the leases. -/
theorem remaining_congr (hgens : s'.generations = s.generations)
    (hcount : s'.generationCount = s.generationCount) (htasks : s'.tasks = s.tasks)
    (hposts : s'.sealPosts = s.sealPosts) (hleases : s'.leases = s.leases) :
    s'.remaining = s.remaining := by
  rw [remaining, remaining, hgens, hcount, htasks, hposts, hleases]

theorem generationWeight_append (G : Generation) (call : CarrierCall) :
    generationWeight { G with ready := G.ready ++ [call] } =
      generationWeight G + callWeight call := by
  have hready : total callWeight (G.ready ++ [call]) =
      total callWeight G.ready + callWeight call := total_append
  simp only [generationWeight, workerWeight, hready]
  omega

theorem remaining_callSoon (hg : g < s.generationCount) (call : CarrierCall) :
    (s.callSoon g call).remaining = s.remaining + callWeight call := by
  have hset := remaining_setGeneration hg
    { s.generations g with ready := (s.generations g).ready ++ [call] }
  rw [generationWeight_append] at hset
  exact Nat.add_right_cancel (hset.trans (by omega))

/-- Taking the next call of a loop. -/
theorem remaining_pop (hg : g < s.generationCount) {call : CarrierCall}
    {rest : List CarrierCall} (hready : (s.generations g).ready = call :: rest) :
    (s.setGeneration g { s.generations g with ready := rest }).remaining + callWeight call =
      s.remaining := by
  have hset := remaining_setGeneration hg { s.generations g with ready := rest }
  have hweight : generationWeight (s.generations g) =
      generationWeight { s.generations g with ready := rest } + callWeight call := by
    simp only [generationWeight, workerWeight, hready, total]
    omega
  omega

/-- Sealing an admitting generation is no step of the worker. -/
theorem workerWeight_sealing {G G' : Generation} (hrun : G'.running = G.running)
    (hstate : G'.state = if n = 1 ∧ G.state.admits then .sealing else G.state) :
    workerWeight G' = workerWeight G := by
  unfold workerWeight
  rw [hrun, hstate]
  by_cases hlast : n = 1 ∧ G.state.admits = true
  · obtain ⟨hone, hadmits⟩ := hlast
    have hdraining : G.state ≠ .draining := by
      intro h
      rw [h] at hadmits
      cases hadmits
    have hclosed : G.state ≠ .closed := by
      intro h
      rw [h] at hadmits
      cases hadmits
    simp [hone, hadmits, hdraining, hclosed]
  · rw [if_neg hlast]

/-- A release may go on to seal a loop. -/
theorem remaining_releaseReservation (hg : g < s.generationCount) :
    (s.releaseReservation g).remaining ≤ s.remaining + 2 := by
  obtain ⟨G, hG⟩ : ∃ G : Generation, G = { s.generations g with
      reservations := s.reservations g - 1
      state := if s.reservations g = 1 ∧ (s.generations g).state.admits then .sealing
        else (s.generations g).state } := ⟨_, rfl⟩
  have hweight : generationWeight G = generationWeight (s.generations g) := by
    have hworker : workerWeight G = workerWeight (s.generations g) :=
      workerWeight_sealing (n := s.reservations g) (by rw [hG]) (by rw [hG])
    simp only [generationWeight, hworker]
    rw [hG]
  have hset := remaining_setGeneration hg G
  have hposts : (s.releaseReservation g).sealPosts.length ≤ s.sealPosts.length + 1 := by
    simp only [SlotState.releaseReservation]
    split
    · exact Nat.le_of_eq List.length_append
    · exact Nat.le_succ _
  -- the release changes the generation and the posts
  have hrest : (s.releaseReservation g).remaining + 2 * s.sealPosts.length =
      (s.setGeneration g G).remaining + 2 * (s.releaseReservation g).sealPosts.length := by
    have hgens : (s.releaseReservation g).generations = (s.setGeneration g G).generations := by
      rw [hG]
      rfl
    simp only [remaining, hgens]
    simp only [SlotState.releaseReservation, setGeneration]
    omega
  omega

/-! ## 3. The steps of a lane by itself -/

/-- Leases are given back, tasks end, and the loops and the worker go on. -/
def goesOn (s : SlotState) : SlotEvent → Bool
  | .releaseLease _ | .postSeal _ | .runGeneration _ | .queueTaken _ | .loopStep _ |
      .endTask _ => true
  | .drain g => decide ((s.generations g).state ≠ .draining)
  | .close g => s.tasks.all fun task => decide (task.generation ≠ g) || task.done
  | .submit .. | .acquireLease _ | .createTask .. | .cancel _ | .exit _ | .shutdown => false

theorem remaining_startSubmission (hg : g < s.generationCount) :
    (s.startSubmission g n).remaining < s.remaining + 8 := by
  unfold SlotState.startSubmission
  split
  · omega
  · rename_i submission hn
    split
    · omega
    · rename_i u hfactory
      have hu := taskFactory_effect hfactory
      have hsame : ∀ submissions, ({ u with submissions := submissions } : SlotState).remaining =
          (s.callSoon g (.firstStep s.tasks.length)).remaining + 6 := by
        have hweights : ∀ k, generationWeight (u.generations k) =
            generationWeight ((s.callSoon g (.firstStep s.tasks.length)).generations k) := by
          intro k
          rw [hu.generations, SlotState.callSoon, generations_setGeneration]
          split <;> rfl
        intro submissions
        have htasks : total taskWeight u.tasks = total taskWeight s.tasks + 6 := by
          rw [hu.tasks, total_append]
          rfl
        simp only [remaining, hweights, htasks, hu.leases, hu.sealPosts, hu.slots.1]
        simp only [SlotState.callSoon, setGeneration]
        omega
      rw [hsame, remaining_callSoon hg]
      simp only [callWeight]
      omega

/-- A task ends: its callback is queued. -/
theorem remaining_completeTask {task : CarrierTask} (ht : s.tasks[t]? = some task)
    (hdone : task.done = false) (hg : task.generation < s.generationCount) :
    (s.completeTask t task).remaining + 3 ≤ s.remaining := by
  have hset := @total_set _ taskWeight s.tasks t task { task with done := true } ht
  have hold : taskWeight task = 6 := by simp [taskWeight, hdone]
  have hnew : taskWeight { task with done := true } = 0 := rfl
  have hrest : ({ s with tasks := s.tasks.set t { task with done := true } } :
      SlotState).remaining + 6 = s.remaining := by
    simp only [remaining]
    omega
  unfold SlotState.completeTask
  dsimp only
  split
  · have hcall := remaining_callSoon
      (s := { s with tasks := s.tasks.set t { task with done := true } }) hg (.descendantDone t)
    simp only [callWeight] at hcall
    omega
  · omega

theorem remaining_set_task {task : CarrierTask} (ht : s.tasks[t]? = some task)
    (task' : CarrierTask) (hdone : task'.done = task.done) :
    ({ s with tasks := s.tasks.set t task' } : SlotState).remaining = s.remaining := by
  have hset := @total_set _ taskWeight s.tasks t task task' ht
  have hsame : taskWeight task' = taskWeight task := by rw [taskWeight, taskWeight, hdone]
  simp only [remaining]
  omega

theorem remaining_beginSubmission : (s.beginSubmission t n).remaining = s.remaining := by
  unfold SlotState.beginSubmission
  split
  · rfl
  · dsimp only
    split <;> rfl

theorem remaining_firstStep {task : CarrierTask} (ht : s.tasks[t]? = some task)
    (hdone : task.done = false) (hg : task.generation < s.generationCount) :
    (s.firstStep t).remaining ≤ s.remaining := by
  unfold SlotState.firstStep
  rw [ht]
  dsimp only
  split
  · exact Nat.le_of_add_right_le (remaining_completeTask ht hdone hg)
  · have hbegun : ({ s with tasks := s.tasks.set t { task with begun := true } } :
        SlotState).remaining = s.remaining := remaining_set_task ht _ rfl
    split
    · rw [remaining_beginSubmission]
      exact Nat.le_of_eq hbegun
    · exact Nat.le_of_eq hbegun

theorem remaining_cancelTasks (tasks : List Nat) :
    (s.cancelTasks tasks).remaining = s.remaining := by
  unfold SlotState.cancelTasks
  induction tasks generalizing s with
  | nil => rfl
  | cons t tasks ih =>
    rw [List.foldl_cons, ih]
    unfold SlotState.cancelTask
    split
    · rename_i task ht
      split
      · rfl
      · exact remaining_set_task ht _ rfl
    · rfl

theorem remaining_releaseWork : (s.releaseWork h).remaining = s.remaining := rfl

theorem remaining_descendantDone {task : CarrierTask} (ht : s.tasks[t]? = some task)
    (hg : task.generation < s.generationCount) :
    (s.descendantDone t).remaining ≤ s.remaining + 2 := by
  unfold SlotState.descendantDone
  rw [ht]
  dsimp only
  split
  · rw [remaining_releaseWork]
    have hmarked := remaining_set_task ht { task with released := true } rfl
    have hrelease := remaining_releaseReservation
      (s := { s with tasks := s.tasks.set t { task with released := true } }) hg
    omega
  · omega

theorem remaining_finishSubmission {submission : Submission}
    (hn : s.submissions[n]? = some submission) (hg : submission.generation < s.generationCount) :
    (s.finishSubmission n).remaining ≤ s.remaining + 2 := by
  unfold SlotState.finishSubmission
  rw [hn]
  dsimp only
  rw [remaining_releaseWork]
  exact remaining_releaseReservation
    (s := { s with submissions := s.submissions.set n { submission with released := true } }) hg

theorem remaining_endTask (hs : SlotInv s) {task : CarrierTask} (ht : s.tasks[t]? = some task)
    (hdone : task.done = false) (hg : task.generation < s.generationCount) :
    (s.endTask t task).remaining < s.remaining := by
  unfold SlotState.endTask
  split
  · rename_i n hroot
    obtain ⟨submission, hn, -, hgen⟩ := hs.roots.of_root t task n ht hroot
    have hfinish := remaining_finishSubmission hn (hgen ▸ hg)
    obtain ⟨-, htasks, -⟩ := finishSubmission_eq hn
    have hcount : (s.finishSubmission n).generationCount = s.generationCount := by
      unfold SlotState.finishSubmission
      rw [hn]
      rfl
    have hend := remaining_completeTask (htasks ▸ ht) hdone (hcount ▸ hg)
    omega
  · have hend := remaining_completeTask ht hdone hg
    omega

/-- A call weighs more than what it queues. -/
theorem remaining_runCall {call : CarrierCall} (hg : g < s.generationCount)
    (hdue : madeOnce call = true → s.due g call = true) :
    (s.runCall g call).remaining < s.remaining + callWeight call := by
  cases call with
  | startSubmission n =>
    exact remaining_startSubmission hg
  | firstStep t =>
    obtain ⟨task, ht, hduetask⟩ := (Option.any_eq_true _ _).mp (hdue rfl)
    obtain ⟨⟨hgen, -⟩, hdone⟩ :
        (task.generation = g ∧ task.begun = false) ∧ task.done = false := by
      simpa using hduetask
    exact Nat.lt_succ_of_le (remaining_firstStep ht hdone (hgen ▸ hg))
  | cancelTasks tasks =>
    exact Nat.lt_succ_of_le (Nat.le_of_eq (remaining_cancelTasks tasks))
  | descendantDone t =>
    obtain ⟨task, ht, hduetask⟩ := (Option.any_eq_true _ _).mp (hdue rfl)
    obtain ⟨⟨⟨hgen, -⟩, -⟩, -⟩ : ((task.generation = g ∧ task.done = true) ∧
        task.retained.isSome = true) ∧ task.released = false := by
      simpa using hduetask
    exact Nat.lt_succ_of_le (remaining_descendantDone ht (hgen ▸ hg))
  | setSeal =>
    have hset := remaining_setGeneration hg { s.generations g with sealEvent := true }
    have hsame : generationWeight { s.generations g with sealEvent := true } =
        generationWeight (s.generations g) := rfl
    rw [hsame] at hset
    exact Nat.lt_succ_of_le (Nat.le_of_eq (Nat.add_right_cancel hset))

theorem remaining_loopStep (hs : SlotInv s) (hstep : s.loopStep g = some s') :
    s'.remaining < s.remaining := by
  unfold SlotState.loopStep at hstep
  split at hstep
  · cases hstep
  · rename_i call rest hready
    cases hstep
    have hg := hs.lt_of_ready hready
    refine Nat.lt_of_lt_of_eq (remaining_runCall ?_ ?_) (remaining_pop hg hready)
    · exact hg
    · intro hcall
      exact (hs.once.due_of_ready hcall hready).1

/-- A generation is rewritten and a call queued on its loop. -/
theorem remaining_replace (hg : g < s.generationCount) {G : Generation} {call : CarrierCall}
    (hweight : generationWeight G + callWeight call < generationWeight (s.generations g)) :
    ((s.setGeneration g G).callSoon g call).remaining < s.remaining := by
  have hset := remaining_setGeneration hg G
  have hcall := remaining_callSoon (s := s.setGeneration g G) hg call
  omega

theorem remaining_queueTaken (hg : g < s.generationCount) (hstep : s.queueTaken g = some s') :
    s'.remaining < s.remaining := by
  unfold SlotState.queueTaken at hstep
  split at hstep
  · rename_i n rest htaken
    cases hstep
    apply remaining_replace hg
    simp only [generationWeight, workerWeight, htaken, List.length_cons, callWeight]
    omega
  · split at hstep
    · rename_i hseals
      cases hstep
      apply remaining_replace hg
      simp only [generationWeight, workerWeight, hseals, callWeight, if_true]
      simp only [Bool.false_eq_true, if_false]
      omega
    · cases hstep

theorem remaining_runGeneration (hg : g < s.generationCount)
    (hstopped : (s.generations g).running = false) (hopen : (s.generations g).state ≠ .closed) :
    (s.runGeneration g).remaining < s.remaining := by
  have hset := remaining_setGeneration (s := s) (g := g) hg { s.generations g with
    running := true
    state := if (s.generations g).reservations = 0 then .sealing else .opened
    taken := (s.generations g).pendingSubmissions
    pendingSubmissions := []
    sealsOnRun := decide ((s.generations g).reservations = 0) }
  have hold : workerWeight (s.generations g) = 5 := by
    simp [workerWeight, hstopped, hopen]
  have hnew : workerWeight { s.generations g with
      running := true
      state := if (s.generations g).reservations = 0 then .sealing else .opened
      taken := (s.generations g).pendingSubmissions
      pendingSubmissions := []
      sealsOnRun := decide ((s.generations g).reservations = 0) } = 2 := by
    unfold workerWeight
    by_cases hzero : (s.generations g).reservations = 0 <;> simp [hzero]
  have hseals : (if decide ((s.generations g).reservations = 0) = true then 2 else 0) ≤ 2 := by
    split <;> omega
  simp only [generationWeight, hold, hnew, List.length_nil] at hset
  exact Nat.lt_of_add_lt_add_right (Nat.lt_of_le_of_lt (Nat.le_of_eq hset) (by omega))

/-- **What a lane does by itself brings down what is left.** -/
theorem remaining_step {e : SlotEvent} (hs : SlotInv s) (hgoes : s.goesOn e = true)
    (hstep : s.step e = some s') : s'.remaining < s.remaining := by
  cases stepped hstep with
  | releaseLease g hheld =>
    have hres : 0 < s.reservations g := by
      rw [hs.ledger.reservations g]
      omega
    have hg := hs.lt_of_reservations hres
    have hchange := total_change s.leases (Function.update s.leases g (s.leases g - 1))
      (l := List.range s.generationCount) (x := g) List.nodup_range (List.mem_range.mpr hg)
      fun k _ hk => Function.update_of_ne hk _ _
    rw [Function.update_self] at hchange
    have hrelease := remaining_releaseReservation (s := { s with
      leases := Function.update s.leases g (s.leases g - 1) }) hg
    have hleases : ({ s with leases := Function.update s.leases g (s.leases g - 1) } :
        SlotState).remaining + 3 = s.remaining := by
      simp only [remaining]
      omega
    omega
  | postSeal g hposted =>
    have hlength := List.length_erase_of_mem hposted
    have hpos := List.length_pos_of_mem hposted
    have herased : ({ s with sealPosts := s.sealPosts.erase g } : SlotState).remaining + 2 =
        s.remaining := by
      simp only [remaining]
      omega
    split
    · rename_i hrun
      have hcall := remaining_callSoon (s := { s with sealPosts := s.sealPosts.erase g })
        (hs.lt_of_running hrun) .setSeal
      simp only [callWeight] at hcall
      omega
    · omega
  | runGeneration g hcurrent hstopped hopen =>
    exact remaining_runGeneration (hs.slots g (Or.inl hcurrent)) hstopped hopen
  | queueTaken g hrun htaken =>
    exact remaining_queueTaken (hs.lt_of_running hrun) htaken
  | loopStep g hfree hloop =>
    exact remaining_loopStep hs hloop
  | endTask t task ht hbegun hdone hfree =>
    exact remaining_endTask hs ht (by simpa using hdone)
      (hs.lt_of_running (running_of_loopFree hfree))
  | drain g hfree hseal =>
    have hrun := running_of_loopFree hfree
    have hset := remaining_setGeneration (G := { s.generations g with state := .draining })
      (hs.lt_of_running hrun)
    have hfirst : (s.generations g).state ≠ .draining := of_decide_eq_true hgoes
    have hweight : generationWeight (s.generations g) =
        generationWeight { s.generations g with state := .draining } + 1 := by
      simp [generationWeight, workerWeight, hrun, hfirst]
    omega
  | close g hfree hdraining =>
    have hrun := running_of_loopFree hfree
    have hset := remaining_setGeneration (G := { s.generations g with
      running := false, state := .closed }) (hs.lt_of_running hrun)
    have hweight : generationWeight (s.generations g) =
        generationWeight { s.generations g with running := false, state := .closed } + 1 := by
      simp [generationWeight, workerWeight, hrun, hdraining]
    have hsame : (s.closeGeneration g).remaining =
        (s.setGeneration g { s.generations g with running := false, state := .closed }).remaining :=
      remaining_congr rfl rfl rfl rfl rfl
    omega
  | submit | acquireLease | leaseRefused | createTask | taskRefused | cancel | exit | shutdown =>
    cases hgoes

/-! ## 4. Where a lane ends -/

end SlotState

/-- A lane left to itself. -/
def rundownSystem : System SlotState SlotEvent where
  Init s := slotSystem.Reachable s
  step s e := if s.goesOn e then s.step e else none

namespace SlotState

variable {s s' : SlotState} {g k h n t : Nat}

/-- No step of the lane itself is left. -/
def Idle (s : SlotState) : Prop := ∀ e, rundownSystem.step s e = none

theorem Idle.step_eq (hidle : s.Idle) {e : SlotEvent} (hgoes : s.goesOn e = true) :
    s.step e = none := by
  have hnone := hidle e
  simp only [rundownSystem, hgoes, if_true] at hnone
  exact hnone

theorem when_ne_none {condition : Prop} [Decidable condition] {u : SlotState}
    (h : condition) : when condition u ≠ none := by
  rw [when, if_pos h]
  exact Option.some_ne_none u

/-- The current generation runs, and its loop has nothing to do. -/
theorem Idle.current (hidle : s.Idle) (hl : Lifecycle s) (hcurrent : s.current = some k) :
    s.loopFree k = true ∧ (s.generations k).ready = [] := by
  have hrun : (s.generations k).running = true := by
    by_contra hstopped
    have hopen : (s.generations k).state ≠ .closed :=
      fun hclosed => (hl.closed k hclosed).1 hcurrent
    exact when_ne_none ⟨hcurrent, by simpa using hstopped, hopen⟩
      (hidle.step_eq (e := .runGeneration k) rfl)
  have htaken : s.queueTaken k = none := by
    have hnone := hidle.step_eq (e := .queueTaken k) rfl
    simp only [SlotState.step, hrun, if_true] at hnone
    exact hnone
  have hfree : s.loopFree k = true := by
    unfold SlotState.queueTaken at htaken
    split at htaken
    · cases htaken
    · rename_i hnil
      split at htaken
      · cases htaken
      · rename_i hseals
        simp [loopFree, hrun, hnil, hseals]
  refine ⟨hfree, ?_⟩
  have hloop := hidle.step_eq (e := .loopStep k) rfl
  simp only [SlotState.step, hfree, if_true] at hloop
  unfold SlotState.loopStep at hloop
  split at hloop
  · assumption
  · cases hloop

theorem Idle.ended (hidle : s.Idle) (hl : Lifecycle s) (ha : Attended s)
    (hcurrent : s.current = some k) {task : CarrierTask} (ht : s.tasks[t]? = some task)
    (hgen : task.generation = k) : task.done = true ∧
      (task.retained.isSome = true → task.released = true) := by
  obtain ⟨hfree, hready⟩ := hidle.current hl hcurrent
  have hdone : task.done = true := by
    by_contra hunfinished
    cases hbegun : task.begun with
    | false =>
      have hmem := (ha t task ht).first hbegun (by simpa using hunfinished)
      rw [hgen, hready] at hmem
      exact absurd hmem List.not_mem_nil
    | true =>
      have hend := hidle.step_eq (e := .endTask t) rfl
      simp only [SlotState.step, ht] at hend
      exact when_ne_none ⟨hbegun, hunfinished, hgen ▸ hfree⟩ hend
  refine ⟨hdone, fun hret => ?_⟩
  by_contra hrel
  have hmem := (ha t task ht).callback hdone hret (by simpa using hrel)
  rw [hgen, hready] at hmem
  exact absurd hmem List.not_mem_nil

theorem Stillborn.reserved (hst : Stillborn s n t g h) (hs : SlotInv s) :
    0 < s.reservations g := by
  obtain ⟨submission, hn, -, hrel, hgen, -⟩ := hst.submission
  have hopen : 0 < s.submissions.countP (openOn g) :=
    List.countP_pos_iff.mpr ⟨submission, List.mem_of_getElem? hn, by simp [openOn, hgen, hrel]⟩
  rw [hs.ledger.reservations g]
  omega

end SlotState

end AgentlyStage
