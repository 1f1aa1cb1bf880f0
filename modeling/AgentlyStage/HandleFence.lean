import AgentlyStage.CarrierCleanup
import AgentlyStage.CarrierLifecycle
import AgentlyStage.CarrierLineage
import Mathlib.Data.Finset.Basic

/-!
# The cancellation fence of a handle

`StageHandle.cancel` sets `_cancel_requested` and copies the owned body tasks inside the lock of
the handle, and posts `_cancel_tasks` to the owner loop after it.  The carrier slot has this as
one event; here it is two, so that the loop can do anything in between.  `_set_owner_task`, which
cancels the running owner task when the request is there already, is recorded as well.
-/

namespace AgentlyStage

open Transition

/-! ## 1. State -/

/-- A `cancel` that has left the lock of its handle, with what it has copied. -/
structure CancelPost where
  handle : Nat
  loop : Nat
  tasks : List Nat
deriving DecidableEq, Repr

structure HandleFenceState where
  slot : SlotState := {}
  posting : List CancelPost := []
  /-- The tasks that `_set_owner_task` has cancelled. -/
  ownerCancelled : Finset Nat := ∅

inductive HandleFenceEvent where
  /-- Any event of the slot but a `cancel`. -/
  | slot (e : SlotEvent)
  /-- `StageHandle.cancel` inside the lock, past its early returns. -/
  | cancel (h : Nat)
  /-- Its `call_soon_threadsafe`; a closed loop raises. -/
  | post (i : Nat)
deriving DecidableEq

namespace SlotState

def requestCancel (s : SlotState) (h : Nat) : SlotState :=
  s.setHandle h { s.handles h with cancelRequested := true }

/-- What a `cancel` copies, if the owner task is known. -/
def cancelPost (s : SlotState) (h : Nat) : Option CancelPost :=
  (s.handles h).ownerLoop.map fun g =>
    ⟨h, g, (s.handles h).ownerTask.toList ++ s.ownedBodyTasks h⟩

/-- The handle whose owner task the first step of a task records. -/
def recordsOwner (s : SlotState) : CarrierCall → Option (Nat × Nat)
  | .firstStep t =>
    s.tasks[t]?.bind fun task =>
      if task.cancelled then none
      else task.root.bind fun n => s.submissions[n]?.bind fun submission =>
        if submission.phase = .body then some (submission.handle, t) else none
  | _ => none

/-- `_set_owner_task` in a step of a loop. -/
def setsOwner (s : SlotState) : SlotEvent → Option (Nat × Nat)
  | .loopStep g => (s.generations g).ready.head?.bind s.recordsOwner
  | _ => none

end SlotState

namespace HandleFenceState

def step (s : HandleFenceState) : HandleFenceEvent → Option HandleFenceState
  | .slot (.cancel _) => none
  | .slot e => (s.slot.step e).map fun slot =>
    { s with
      slot := slot
      ownerCancelled :=
        match s.slot.setsOwner e with
        | some (h, t) =>
          if (s.slot.handles h).cancelRequested then insert t s.ownerCancelled
          else s.ownerCancelled
        | none => s.ownerCancelled }
  | .cancel h =>
    some { s with
      slot := s.slot.requestCancel h
      posting := s.posting ++ (s.slot.cancelPost h).toList }
  | .post i => s.posting[i]?.map fun post =>
    { s with
      slot :=
        if (s.slot.generations post.loop).running then
          s.slot.callSoon post.loop (.cancelTasks post.tasks)
        else s.slot
      posting := s.posting.eraseIdx i }

end HandleFenceState

/-- All interleavings of one carrier slot with cancellations in two steps. -/
def handleFenceSystem : System HandleFenceState HandleFenceEvent where
  Init s := s = {}
  step := HandleFenceState.step

/-- What a change of a generation keeps: the cancellations that are queued, and that it has run. -/
structure Generation.KeepsCancels (G G' : Generation) : Prop where
  ready : ∀ tasks, CarrierCall.cancelTasks tasks ∈ G'.ready ↔ .cancelTasks tasks ∈ G.ready
  ran : G.running = true ∨ G.state = .closed → G'.running = true ∨ G'.state = .closed

theorem Generation.KeepsCancels.refl (G : Generation) : G.KeepsCancels G :=
  ⟨fun _ => Iff.rfl, id⟩

theorem Generation.KeepsCancels.append {G : Generation} {call : CarrierCall}
    (hcall : ∀ tasks, call ≠ .cancelTasks tasks) :
    G.KeepsCancels { G with ready := G.ready ++ [call] } := by
  refine ⟨fun tasks => ?_, id⟩
  rw [List.mem_append, List.mem_singleton]
  exact ⟨fun h => h.resolve_right (hcall tasks).symm, Or.inl⟩

/-- A task stays what it is, and neither its end nor its cancellation is taken back. -/
structure CarrierTask.Continues (task task' : CarrierTask) : Prop where
  retained : task'.retained = task.retained
  root : task'.root = task.root
  generation : task'.generation = task.generation
  begun : task.begun = true → task'.begun = true
  done : task.done = true → task'.done = true
  released : task.released = true → task'.released = true
  cancelled : task.cancelled = true → task'.cancelled = true

theorem CarrierTask.Continues.refl (task : CarrierTask) : task.Continues task :=
  ⟨rfl, rfl, rfl, id, id, id, id⟩

theorem CarrierTask.Continues.trans {task task' task'' : CarrierTask} (h : task.Continues task')
    (h' : task'.Continues task'') : task.Continues task'' :=
  ⟨h'.retained.trans h.retained, h'.root.trans h.root, h'.generation.trans h.generation,
    fun hb => h'.begun (h.begun hb), fun hd => h'.done (h.done hd),
    fun hr => h'.released (h.released hr), fun hc => h'.cancelled (h.cancelled hc)⟩

namespace SlotState

variable {s s' s'' : SlotState} {g h k n t : Nat}

/-! ## 2. What a step does to requests -/

/-- The loop of a generation has been started. -/
def Ran (s : SlotState) (g : Nat) : Prop :=
  (s.generations g).running = true ∨ (s.generations g).state = .closed

/-- A step other than `cancel`: requests stay, a queued cancellation stays queued or is carried
    out, and a new task is cancelled at its creation when its handle is.  `owner` is the handle
    whose owner task the step records, with the task. -/
structure Relays (s : SlotState) (owner : Option (Nat × Nat)) (s' : SlotState) : Prop where
  requests : ∀ h, (s'.handles h).cancelRequested = (s.handles h).cancelRequested
  owners : ∀ h, (∀ t, owner ≠ some (h, t)) →
    (s'.handles h).ownerTask = (s.handles h).ownerTask ∧
      (s'.handles h).ownerLoop = (s.handles h).ownerLoop
  tasks : ∀ (t : Nat) (task : CarrierTask), s.tasks[t]? = some task →
    ∃ task', s'.tasks[t]? = some task' ∧ task.Continues task'
  submissions : ∀ (n : Nat) (submission : Submission), s.submissions[n]? = some submission →
    ∃ submission' : Submission, s'.submissions[n]? = some submission' ∧
      submission'.handle = submission.handle ∧ submission'.phase = submission.phase
  created : ∀ (t : Nat) (task : CarrierTask), s'.tasks[t]? = some task → s.tasks[t]? = none →
    s'.Ran task.generation ∧ ∀ x, task.retained = some x → x.phase = .body →
      (s.handles x.handle).cancelRequested = true → task.cancelled = true
  cancelled : ∀ (t : Nat) (task' : CarrierTask), s'.tasks[t]? = some task' →
    task'.cancelled = true →
      (∃ task : CarrierTask, s.tasks[t]? = some task ∧ task.cancelled = true) ∨
      (∃ g tasks, .cancelTasks tasks ∈ (s.generations g).ready ∧ t ∈ tasks) ∨
      ∃ x, task'.retained = some x ∧ x.phase = .body ∧
        (s.handles x.handle).cancelRequested = true
  queue : ∀ (g : Nat) (tasks : List Nat), .cancelTasks tasks ∈ (s.generations g).ready →
    .cancelTasks tasks ∈ (s'.generations g).ready ∨
      ∀ t ∈ tasks, ∀ task, s.tasks[t]? = some task →
        ∃ task', s'.tasks[t]? = some task' ∧ (task'.done = true ∨ task'.cancelled = true)
  queued : ∀ (g : Nat) (tasks : List Nat), .cancelTasks tasks ∈ (s'.generations g).ready →
    .cancelTasks tasks ∈ (s.generations g).ready
  ran : ∀ g, s.Ran g → s'.Ran g

theorem Relays.trans {owner : Option (Nat × Nat)} (h₁ : Relays s none s')
    (h₂ : Relays s' owner s'') : Relays s owner s'' := by
  constructor
  · exact fun h => (h₂.requests h).trans (h₁.requests h)
  · intro h hne
    obtain ⟨htask₁, hloop₁⟩ := h₁.owners h nofun
    obtain ⟨htask₂, hloop₂⟩ := h₂.owners h hne
    exact ⟨htask₂.trans htask₁, hloop₂.trans hloop₁⟩
  · intro t task ht
    obtain ⟨task₁, ht₁, hc₁⟩ := h₁.tasks t task ht
    obtain ⟨task₂, ht₂, hc₂⟩ := h₂.tasks t task₁ ht₁
    exact ⟨task₂, ht₂, hc₁.trans hc₂⟩
  · intro n submission hn
    obtain ⟨submission₁, hn₁, hhandle₁, hphase₁⟩ := h₁.submissions n submission hn
    obtain ⟨submission₂, hn₂, hhandle₂, hphase₂⟩ := h₂.submissions n submission₁ hn₁
    exact ⟨submission₂, hn₂, hhandle₂.trans hhandle₁, hphase₂.trans hphase₁⟩
  · intro t task₂ ht₂ hnone
    cases ht₁ : s'.tasks[t]? with
    | none =>
      obtain ⟨hran, hcancel⟩ := h₂.created t task₂ ht₂ ht₁
      exact ⟨hran, fun x hx hbody hreq => hcancel x hx hbody ((h₁.requests _).trans hreq)⟩
    | some task₁ =>
      obtain ⟨hran, hcancel⟩ := h₁.created t task₁ ht₁ hnone
      obtain ⟨task, ht, hc⟩ := h₂.tasks t task₁ ht₁
      obtain rfl : task = task₂ := Option.some.inj (ht.symm.trans ht₂)
      refine ⟨?_, fun x hx hbody hreq => hc.cancelled (hcancel x ?_ hbody hreq)⟩
      · rw [hc.generation]
        exact h₂.ran _ hran
      · rw [← hc.retained]
        exact hx
  · intro t task₂ ht₂ hcancelled
    rcases h₂.cancelled t task₂ ht₂ hcancelled with
      ⟨task₁, ht₁, hc₁⟩ | ⟨g, tasks, hmem, ht⟩ | ⟨x, hx, hbody, hreq⟩
    · rcases h₁.cancelled t task₁ ht₁ hc₁ with hold | hqueued | ⟨x, hx, hbody, hreq⟩
      · exact Or.inl hold
      · exact Or.inr (Or.inl hqueued)
      · obtain ⟨task, ht, hc⟩ := h₂.tasks t task₁ ht₁
        obtain rfl : task = task₂ := Option.some.inj (ht.symm.trans ht₂)
        exact Or.inr (Or.inr ⟨x, hc.retained.trans hx, hbody, hreq⟩)
    · exact Or.inr (Or.inl ⟨g, tasks, h₁.queued g tasks hmem, ht⟩)
    · exact Or.inr (Or.inr ⟨x, hx, hbody, (h₁.requests _).symm.trans hreq⟩)
  · intro g tasks hmem
    rcases h₁.queue g tasks hmem with hmem₁ | hdone
    · rcases h₂.queue g tasks hmem₁ with hmem₂ | hdone
      · exact Or.inl hmem₂
      · refine Or.inr fun t ht task htask => ?_
        obtain ⟨task₁, ht₁, -⟩ := h₁.tasks t task htask
        exact hdone t ht task₁ ht₁
    · refine Or.inr fun t ht task htask => ?_
      obtain ⟨task₁, ht₁, hended⟩ := hdone t ht task htask
      obtain ⟨task₂, ht₂, hc⟩ := h₂.tasks t task₁ ht₁
      exact ⟨task₂, ht₂, hended.imp hc.done hc.cancelled⟩
  · exact fun g tasks hmem => h₁.queued g tasks (h₂.queued g tasks hmem)
  · exact fun g hran => h₂.ran g (h₁.ran g hran)

/-- The handles keep what the fence is about. -/
def SameRequests (s s' : SlotState) : Prop :=
  ∀ h, (s'.handles h).cancelRequested = (s.handles h).cancelRequested ∧
    (s'.handles h).ownerTask = (s.handles h).ownerTask ∧
    (s'.handles h).ownerLoop = (s.handles h).ownerLoop

theorem sameRequests_of_eq (h : s'.handles = s.handles) : SameRequests s s' :=
  fun k => by rw [h]; exact ⟨rfl, rfl, rfl⟩

/-- Steps that make, run and end no task. -/
theorem relays_of_tasks (htasks : s'.tasks = s.tasks)
    (hsubs : ∃ more, s'.submissions = s.submissions ++ more) (hhandles : SameRequests s s')
    (hgens : ∀ g, (s.generations g).KeepsCancels (s'.generations g)) : Relays s none s' := by
  constructor
  · exact fun h => (hhandles h).1
  · exact fun h _ => (hhandles h).2
  · intro t task ht
    exact ⟨task, htasks ▸ ht, .refl task⟩
  · intro n submission hn
    obtain ⟨more, hmore⟩ := hsubs
    rw [hmore]
    exact ⟨submission,
      (List.getElem?_append_left (List.getElem?_eq_some_iff.mp hn).1).trans hn, rfl, rfl⟩
  · intro t task ht hnone
    rw [htasks, hnone] at ht
    cases ht
  · intro t task ht hcancelled
    exact Or.inl ⟨task, htasks ▸ ht, hcancelled⟩
  · exact fun g tasks hmem => Or.inl (((hgens g).ready tasks).mpr hmem)
  · exact fun g tasks hmem => ((hgens g).ready tasks).mp hmem
  · exact fun g hran => (hgens g).ran hran

theorem relays_of_generations (htasks : s'.tasks = s.tasks) (hsubs : s'.submissions = s.submissions)
    (hhandles : s'.handles = s.handles)
    (hgens : ∀ g, (s.generations g).KeepsCancels (s'.generations g)) : Relays s none s' :=
  relays_of_tasks htasks ⟨[], hsubs.trans (List.append_nil _).symm⟩ (sameRequests_of_eq hhandles)
    hgens

theorem relays_of_eq (htasks : s'.tasks = s.tasks) (hsubs : s'.submissions = s.submissions)
    (hhandles : s'.handles = s.handles) (hgens : s'.generations = s.generations) :
    Relays s none s' :=
  relays_of_generations htasks hsubs hhandles fun g => by rw [hgens]; exact .refl _

theorem relays_setGeneration {G : Generation} (hG : (s.generations g).KeepsCancels G) :
    Relays s none (s.setGeneration g G) := by
  refine relays_of_generations rfl rfl rfl fun k => ?_
  rw [generations_setGeneration]
  split
  · rename_i hk
    rw [hk]
    exact hG
  · exact .refl _

theorem relays_callSoon {call : CarrierCall} (hcall : ∀ tasks, call ≠ .cancelTasks tasks) :
    Relays s none (s.callSoon g call) :=
  relays_setGeneration (.append hcall)

theorem relays_releaseReservation (s : SlotState) (g : Nat) :
    Relays s none (s.releaseReservation g) := by
  refine relays_of_generations rfl rfl rfl fun k => ?_
  rw [generations_releaseReservation]
  split
  · rename_i hk
    rw [hk]
    refine ⟨fun _ => Iff.rfl, fun hran => hran.imp_right fun hclosed => ?_⟩
    split
    · rename_i hlast
      rw [hclosed] at hlast
      cases hlast.2
    · exact hclosed
  · exact .refl _

theorem relays_setHandle {H : HandleWork}
    (hH : H.cancelRequested = (s.handles h).cancelRequested ∧
      H.ownerTask = (s.handles h).ownerTask ∧ H.ownerLoop = (s.handles h).ownerLoop) :
    Relays s none (s.setHandle h H) := by
  refine relays_of_tasks rfl ⟨[], (List.append_nil _).symm⟩ (fun k => ?_) fun g => .refl _
  rw [handles_setHandle]
  split
  · rename_i hk
    rw [hk]
    exact hH
  · exact ⟨rfl, rfl, rfl⟩

/-- A task goes on; only `_cancel_tasks` cancels one that exists. -/
theorem relays_setTask {task task' : CarrierTask} (ht : s.tasks[t]? = some task)
    (htasks : s'.tasks = s.tasks.set t task') (hsubs : s'.submissions = s.submissions)
    (hhandles : s'.handles = s.handles) (hgens : s'.generations = s.generations)
    (hc : task.Continues task') (hcancelled : task'.cancelled = task.cancelled) :
    Relays s none s' := by
  constructor
  · exact fun h => by rw [hhandles]
  · exact fun h _ => by rw [hhandles]; exact ⟨rfl, rfl⟩
  · intro u task₁ hu
    rw [htasks]
    by_cases hut : u = t
    · subst hut
      obtain rfl : task = task₁ := Option.some.inj (ht.symm.trans hu)
      exact ⟨task', getElem?_set_self' ht, hc⟩
    · exact ⟨task₁, (List.getElem?_set_ne (Ne.symm hut)).trans hu, .refl task₁⟩
  · exact fun n submission hn => ⟨submission, hsubs ▸ hn, rfl, rfl⟩
  · intro u task₁ hu hnone
    rw [htasks] at hu
    rcases getElem?_set_cases ht hu with ⟨rfl, -⟩ | ⟨-, hold⟩
    · exact nomatch ht.symm.trans hnone
    · exact nomatch hold.symm.trans hnone
  · intro u task₁ hu hcancelled₁
    rw [htasks] at hu
    rcases getElem?_set_cases ht hu with ⟨rfl, rfl⟩ | ⟨-, hold⟩
    · exact Or.inl ⟨task, ht, hcancelled ▸ hcancelled₁⟩
    · exact Or.inl ⟨task₁, hold, hcancelled₁⟩
  · exact fun g tasks hmem => Or.inl (hgens ▸ hmem)
  · exact fun g tasks hmem => hgens ▸ hmem
  · exact fun g hran => by rw [Ran, hgens]; exact hran

theorem relays_setSubmission {submission submission' : Submission}
    (hn : s.submissions[n]? = some submission)
    (hsubs : s'.submissions = s.submissions.set n submission') (htasks : s'.tasks = s.tasks)
    (hhandles : s'.handles = s.handles) (hgens : s'.generations = s.generations)
    (hhandle : submission'.handle = submission.handle)
    (hphase : submission'.phase = submission.phase) : Relays s none s' := by
  constructor
  · exact fun h => by rw [hhandles]
  · exact fun h _ => by rw [hhandles]; exact ⟨rfl, rfl⟩
  · exact fun t task ht => ⟨task, htasks ▸ ht, .refl task⟩
  · intro m submission₁ hm
    rw [hsubs]
    by_cases hmn : m = n
    · subst hmn
      obtain rfl : submission = submission₁ := Option.some.inj (hn.symm.trans hm)
      exact ⟨submission', getElem?_set_self' hn, hhandle, hphase⟩
    · exact ⟨submission₁, (List.getElem?_set_ne (Ne.symm hmn)).trans hm, rfl, rfl⟩
  · intro t task ht hnone
    rw [htasks, hnone] at ht
    cases ht
  · exact fun t task ht hcancelled => Or.inl ⟨task, htasks ▸ ht, hcancelled⟩
  · exact fun g tasks hmem => Or.inl (hgens ▸ hmem)
  · exact fun g tasks hmem => hgens ▸ hmem
  · exact fun g hran => by rw [Ran, hgens]; exact hran

/-- The task factory of a loop that has been started. -/
theorem relays_factory {context : Option ExecutionContext} {root : Option Nat} (hran : s.Ran g)
    (h : s.taskFactory g context root = .ok s') : Relays s none s' := by
  have hf := taskFactory_effect h
  have hnew : ∀ (t : Nat) (task : CarrierTask), s'.tasks[t]? = some task →
      s.tasks[t]? = some task ∨ task = ⟨g, retainedOn g context, root,
        s.cancelsAtCreation g context, false, false, false⟩ := by
    intro t task ht
    rw [hf.tasks] at ht
    rcases getElem?_append_cases ht with ⟨-, heq⟩ | hold
    · exact Or.inr heq
    · exact Or.inl hold
  have hkeeps : ∀ k, (s.generations k).KeepsCancels (s'.generations k) := by
    intro k
    rw [hf.generations]
    split
    · rename_i hk
      rw [hk]
      have happend : (s.generations g).KeepsCancels { s.generations g with
          ready := (s.generations g).ready ++ [.firstStep s.tasks.length] } := .append nofun
      exact ⟨happend.ready, id⟩
    · exact .refl _
  constructor
  · exact fun k => by rw [hf.handles]
  · exact fun k _ => by rw [hf.handles]; exact ⟨rfl, rfl⟩
  · intro t task ht
    rw [hf.tasks]
    exact ⟨task, (List.getElem?_append_left (List.getElem?_eq_some_iff.mp ht).1).trans ht,
      .refl task⟩
  · exact fun n submission hn => ⟨submission, hf.submissions ▸ hn, rfl, rfl⟩
  · intro t task ht hnone
    rcases hnew t task ht with hold | rfl
    · exact nomatch hold.symm.trans hnone
    · refine ⟨(hkeeps g).ran hran, fun x hx hbody hreq => ?_⟩
      change (retainedOn g context).any _ = true
      rw [show retainedOn g context = some x from hx, Option.any_some, hreq,
        decide_eq_true hbody]
      rfl
  · intro t task ht hcancelled
    rcases hnew t task ht with hold | rfl
    · exact Or.inl ⟨task, hold, hcancelled⟩
    · obtain ⟨x, hx, hcond⟩ := (Option.any_eq_true _ _).mp hcancelled
      rw [Bool.and_eq_true] at hcond
      exact Or.inr (Or.inr ⟨x, hx, of_decide_eq_true hcond.1, hcond.2⟩)
  · exact fun k tasks hmem => Or.inl (((hkeeps k).ready tasks).mpr hmem)
  · exact fun k tasks hmem => ((hkeeps k).ready tasks).mp hmem
  · exact fun k hk => (hkeeps k).ran hk

theorem relays_completeTask {task : CarrierTask} (ht : s.tasks[t]? = some task) :
    Relays s none (s.completeTask t task) := by
  have hset : Relays s none { s with tasks := s.tasks.set t { task with done := true } } :=
    relays_setTask ht rfl rfl rfl rfl ⟨rfl, rfl, rfl, id, fun _ => rfl, id, id⟩ rfl
  unfold SlotState.completeTask
  dsimp only
  split
  · exact hset.trans (relays_callSoon nofun)
  · exact hset

theorem relays_finishSubmission (s : SlotState) (n : Nat) :
    Relays s none (s.finishSubmission n) := by
  unfold SlotState.finishSubmission
  split
  · exact relays_of_eq rfl rfl rfl rfl
  · rename_i submission hn
    have hset : Relays s none { s with
        submissions := s.submissions.set n { submission with released := true } } :=
      relays_setSubmission hn rfl rfl rfl rfl rfl rfl
    exact (hset.trans (relays_releaseReservation _ _)).trans (relays_setHandle ⟨rfl, rfl, rfl⟩)

theorem relays_endTask {task : CarrierTask} (ht : s.tasks[t]? = some task) :
    Relays s none (s.endTask t task) := by
  unfold SlotState.endTask
  split
  · rename_i n _
    have htasks : (s.finishSubmission n).tasks = s.tasks := by
      unfold SlotState.finishSubmission
      split
      · rfl
      · rfl
    exact (relays_finishSubmission s n).trans (relays_completeTask (htasks ▸ ht))
  · exact relays_completeTask ht

theorem relays_descendantDone (s : SlotState) (t : Nat) : Relays s none (s.descendantDone t) := by
  unfold SlotState.descendantDone
  split
  · rename_i task ht
    split
    · have hset : Relays s none { s with
          tasks := s.tasks.set t { task with released := true } } :=
        relays_setTask ht rfl rfl rfl rfl ⟨rfl, rfl, rfl, id, id, fun _ => rfl, id⟩ rfl
      exact (hset.trans (relays_releaseReservation _ _)).trans (relays_setHandle ⟨rfl, rfl, rfl⟩)
    · exact relays_of_eq rfl rfl rfl rfl
  · exact relays_of_eq rfl rfl rfl rfl

theorem relays_startSubmission (hran : s.Ran g) (n : Nat) :
    Relays s none (s.startSubmission g n) := by
  unfold SlotState.startSubmission
  split
  · exact relays_of_eq rfl rfl rfl rfl
  · rename_i submission hn
    split
    · exact relays_of_eq rfl rfl rfl rfl
    · rename_i u hfactory
      have hsubs := (taskFactory_effect hfactory).submissions
      have hn' : u.submissions[n]? = some submission := by rw [hsubs]; exact hn
      have hset : Relays u none { u with
          submissions := s.submissions.set n { submission with rootTask := some s.tasks.length } } :=
        relays_setSubmission hn'
          (show _ = u.submissions.set n { submission with rootTask := some s.tasks.length } by
            rw [hsubs]) rfl rfl rfl rfl rfl
      exact (relays_factory hran hfactory).trans hset

/-- `_run_submission` begins: the owner of a body is recorded. -/
theorem relays_beginSubmission {owner : Option (Nat × Nat)} {submission : Submission}
    (hn : s.submissions[n]? = some submission)
    (howner : owner = if submission.phase = .body then some (submission.handle, t) else none) :
    Relays s owner (s.beginSubmission t n) := by
  have hset : Relays s none { s with
      submissions := s.submissions.set n { submission with begun := true } } :=
    relays_setSubmission hn rfl rfl rfl rfl rfl rfl
  have heq : s.beginSubmission t n = if submission.phase = .body then
      SlotState.setHandle { s with
        submissions := s.submissions.set n { submission with begun := true } } submission.handle
        { s.handles submission.handle with
          ownerLoop := some submission.generation, ownerTask := some t }
      else { s with submissions := s.submissions.set n { submission with begun := true } } := by
    unfold SlotState.beginSubmission
    rw [hn]
  rw [heq, howner]
  split
  · refine hset.trans ⟨fun k => ?_, fun k hne => ?_, fun u task hu => ⟨task, hu, .refl task⟩,
      fun m submission hm => ⟨submission, hm, rfl, rfl⟩, fun u task hu hnone => ?_,
      fun u task hu hc => Or.inl ⟨task, hu, hc⟩, fun k tasks hmem => Or.inl hmem,
      fun k tasks hmem => hmem, fun k hran => hran⟩
    · rw [handles_setHandle]
      split
      · rename_i hk
        rw [hk]
      · rfl
    · rw [handles_setHandle, if_neg fun hk => hne t (by rw [hk])]
      exact ⟨rfl, rfl⟩
    · exact nomatch (show s.tasks[u]? = some task from hu).symm.trans hnone
  · exact hset

theorem relays_firstStep (s : SlotState) (t : Nat) :
    Relays s (s.recordsOwner (.firstStep t)) (s.firstStep t) := by
  simp only [SlotState.firstStep, SlotState.recordsOwner]
  cases ht : s.tasks[t]? with
  | none => exact relays_of_eq rfl rfl rfl rfl
  | some task =>
    obtain ⟨generation, retained, root, cancelled, begun, done, released⟩ := task
    simp only [Option.bind_some]
    split
    · exact relays_completeTask ht
    · have hset : Relays s none { s with tasks := (s.tasks.set t
          ⟨generation, retained, root, cancelled, true, done, released⟩) } :=
        relays_setTask ht rfl rfl rfl rfl ⟨rfl, rfl, rfl, fun _ => rfl, id, id, id⟩ rfl
      cases root with
      | none => exact hset
      | some n =>
        simp only [Option.bind_some]
        cases hn : s.submissions[n]? with
        | none =>
          have heq : beginSubmission { s with tasks := (s.tasks.set t
              ⟨generation, retained, some n, cancelled, true, done, released⟩) } t n =
              { s with tasks := (s.tasks.set t
                ⟨generation, retained, some n, cancelled, true, done, released⟩) } := by
            simp only [SlotState.beginSubmission, hn]
          rw [heq]
          exact hset
        | some submission => exact hset.trans (relays_beginSubmission hn rfl)

theorem tasks_cancelTask {task : CarrierTask} (ht : s.tasks[t]? = some task) (u : Nat) :
    ∃ task' : CarrierTask, (s.cancelTask u).tasks[t]? = some task' ∧ task.Continues task' ∧
      task'.done = task.done ∧ (task'.cancelled = true → task.cancelled = true ∨ t = u) ∧
      (t = u → task'.done = true ∨ task'.cancelled = true) := by
  unfold SlotState.cancelTask
  split
  · rename_i task₁ hu
    split
    · rename_i hdone
      refine ⟨task, ht, .refl task, rfl, Or.inl, fun heq => Or.inl ?_⟩
      subst heq
      obtain rfl : task = task₁ := Option.some.inj (ht.symm.trans hu)
      exact hdone
    · by_cases htu : t = u
      · subst htu
        obtain rfl : task = task₁ := Option.some.inj (ht.symm.trans hu)
        exact ⟨_, getElem?_set_self' ht, ⟨rfl, rfl, rfl, id, id, id, fun _ => rfl⟩, rfl,
          fun _ => Or.inr rfl, fun _ => Or.inr rfl⟩
      · exact ⟨task, (List.getElem?_set_ne (Ne.symm htu)).trans ht, .refl task, rfl, Or.inl,
          fun heq => absurd heq htu⟩
  · rename_i hnone
    refine ⟨task, ht, .refl task, rfl, Or.inl, fun heq => ?_⟩
    subst heq
    exact nomatch ht.symm.trans hnone

/-- `_cancel_tasks` cancels the tasks it names that are not done, and no others. -/
theorem tasks_cancelTasks (tasks : List Nat) : ∀ {s : SlotState} {task : CarrierTask},
    s.tasks[t]? = some task →
    ∃ task' : CarrierTask, (s.cancelTasks tasks).tasks[t]? = some task' ∧ task.Continues task' ∧
      task'.done = task.done ∧ (task'.cancelled = true → task.cancelled = true ∨ t ∈ tasks) ∧
      (t ∈ tasks → task'.done = true ∨ task'.cancelled = true) := by
  induction tasks with
  | nil =>
    intro s task ht
    exact ⟨task, ht, .refl task, rfl, Or.inl, fun hmem => (by cases hmem)⟩
  | cons u tasks ih =>
    intro s task ht
    obtain ⟨task₁, ht₁, hc₁, hdone₁, hold₁, hnamed₁⟩ := tasks_cancelTask ht u
    obtain ⟨task₂, ht₂, hc₂, hdone₂, hold₂, hnamed₂⟩ := ih ht₁
    refine ⟨task₂, ht₂, hc₁.trans hc₂, hdone₂.trans hdone₁, fun hcancelled => ?_, fun hmem => ?_⟩
    · rcases hold₂ hcancelled with hcancelled₁ | hmem
      · rcases hold₁ hcancelled₁ with hcancelled | rfl
        · exact Or.inl hcancelled
        · exact Or.inr (List.mem_cons_self ..)
      · exact Or.inr (List.mem_cons_of_mem _ hmem)
    · rcases List.mem_cons.mp hmem with heq | hmem
      · exact (hnamed₁ heq).imp hc₂.done hc₂.cancelled
      · exact hnamed₂ hmem

theorem frame_cancelTasks (s : SlotState) (tasks : List Nat) :
    (s.cancelTasks tasks).handles = s.handles ∧ (s.cancelTasks tasks).generations = s.generations ∧
      (s.cancelTasks tasks).submissions = s.submissions ∧
      (s.cancelTasks tasks).tasks.length = s.tasks.length := by
  unfold SlotState.cancelTasks
  induction tasks generalizing s with
  | nil => exact ⟨rfl, rfl, rfl, rfl⟩
  | cons t tasks ih =>
    obtain ⟨hhandles, hgens, hsubs, hlength⟩ := ih (s.cancelTask t)
    rw [List.foldl_cons, hhandles, hgens, hsubs, hlength]
    unfold SlotState.cancelTask
    split
    · split
      · exact ⟨rfl, rfl, rfl, rfl⟩
      · exact ⟨rfl, rfl, rfl, List.length_set⟩
    · exact ⟨rfl, rfl, rfl, rfl⟩

/-- The loop carries out a `_cancel_tasks`. -/
theorem relays_cancelTasks {tasks : List Nat} {rest : List CarrierCall}
    (hready : (s.generations g).ready = .cancelTasks tasks :: rest) :
    Relays s none
      ((s.setGeneration g { s.generations g with ready := rest }).cancelTasks tasks) := by
  obtain ⟨hhandles, hgens, hsubs, hlength⟩ :=
    frame_cancelTasks (s.setGeneration g { s.generations g with ready := rest }) tasks
  have hready' : ∀ k d, d ∈ (((s.setGeneration g { s.generations g with
      ready := rest }).cancelTasks tasks).generations k).ready → d ∈ (s.generations k).ready := by
    intro k d hmem
    rw [hgens, generations_setGeneration] at hmem
    split at hmem
    · rename_i hk
      rw [hk, hready]
      exact List.mem_cons_of_mem _ hmem
    · exact hmem
  have hnamed : .cancelTasks tasks ∈ (s.generations g).ready := by
    rw [hready]
    exact List.mem_cons_self ..
  constructor
  · exact fun h => by rw [hhandles]; rfl
  · exact fun h _ => by rw [hhandles]; exact ⟨rfl, rfl⟩
  · intro t task ht
    obtain ⟨task', ht', hc, -⟩ := tasks_cancelTasks tasks
      (s := s.setGeneration g { s.generations g with ready := rest }) ht
    exact ⟨task', ht', hc⟩
  · exact fun n submission hn => ⟨submission, by rw [hsubs]; exact hn, rfl, rfl⟩
  · intro t task ht hnone
    have hlt := (List.getElem?_eq_some_iff.mp ht).1
    rw [hlength] at hlt
    exact absurd (List.getElem?_eq_none_iff.mp hnone) (Nat.not_le.mpr hlt)
  · intro t task' ht' hcancelled
    have hlt := (List.getElem?_eq_some_iff.mp ht').1
    rw [hlength] at hlt
    obtain ⟨task₁, ht₁, -, -, hold, -⟩ := tasks_cancelTasks tasks
      (s := s.setGeneration g { s.generations g with ready := rest })
      (List.getElem?_eq_getElem hlt)
    obtain rfl : task₁ = task' := Option.some.inj (ht₁.symm.trans ht')
    rcases hold hcancelled with hcancelled₀ | hmem
    · exact Or.inl ⟨_, List.getElem?_eq_getElem hlt, hcancelled₀⟩
    · exact Or.inr (Or.inl ⟨g, tasks, hnamed, hmem⟩)
  · intro k tasks' hmem
    by_cases hcall : CarrierCall.cancelTasks tasks' = .cancelTasks tasks
    · cases hcall
      refine Or.inr fun t ht task htask => ?_
      obtain ⟨task', ht', -, -, -, hended⟩ := tasks_cancelTasks tasks
        (s := s.setGeneration g { s.generations g with ready := rest }) htask
      exact ⟨task', ht', hended ht⟩
    · left
      rw [hgens, generations_setGeneration]
      split
      · rename_i hk
        rw [hk, hready] at hmem
        exact (List.mem_cons.mp hmem).resolve_left hcall
      · exact hmem
  · exact fun k tasks' hmem => hready' k _ hmem
  · intro k hran
    change _ ∨ _
    rw [hgens, generations_setGeneration]
    split
    · rename_i hk
      subst hk
      exact hran
    · exact hran

/-- The loop takes a call that is not a cancellation. -/
theorem relays_pop {call : CarrierCall} {rest : List CarrierCall}
    (hready : (s.generations g).ready = call :: rest)
    (hcall : ∀ tasks, call ≠ .cancelTasks tasks) :
    Relays s none (s.setGeneration g { s.generations g with ready := rest }) := by
  refine relays_setGeneration ⟨fun tasks => ?_, id⟩
  rw [hready, List.mem_cons]
  exact ⟨Or.inr, fun h => h.resolve_left (hcall tasks).symm⟩

theorem relays_loopStep (hran : s.Ran g) (hstep : s.loopStep g = some s') :
    Relays s ((s.generations g).ready.head?.bind s.recordsOwner) s' := by
  unfold SlotState.loopStep at hstep
  split at hstep
  · cases hstep
  · rename_i call rest hready
    cases hstep
    rw [hready, List.head?_cons, Option.bind_some]
    cases call with
    | startSubmission n =>
      have hpop := relays_pop hready nofun
      exact hpop.trans (relays_startSubmission (hpop.ran g hran) n)
    | firstStep t => exact (relays_pop hready nofun).trans (relays_firstStep _ t)
    | cancelTasks tasks => exact relays_cancelTasks hready
    | descendantDone t => exact (relays_pop hready nofun).trans (relays_descendantDone _ t)
    | setSeal =>
      exact (relays_pop hready nofun).trans (relays_setGeneration ⟨fun _ => Iff.rfl, id⟩)

theorem relays_addReservation (s : SlotState) (g : Nat) : Relays s none (s.addReservation g) :=
  relays_setGeneration ⟨fun _ => Iff.rfl, id⟩

theorem relays_submit (hs : SlotInv s) {preferred : Option Nat} {phase : WorkPhase}
    {context : Option ExecutionContext} : Relays s none (s.submit preferred h phase context) := by
  unfold SlotState.submit
  split
  · exact relays_of_eq rfl rfl rfl rfl
  · rename_i g v hreserve
    obtain ⟨u, hu, rfl⟩ := hs.reserveLocked hreserve
    have hselect : Relays s none u :=
      relays_of_eq hu.tasks hu.submissions hu.handles hu.generations
    have hretain : Relays s none ((u.addReservation g).retainWork h) :=
      (hselect.trans (relays_addReservation u g)).trans (relays_setHandle ⟨rfl, rfl, rfl⟩)
    have hadd : ∀ v : SlotState, Relays v none
        (v.addSubmission ⟨h, g, phase, context, none, false, false⟩) := by
      intro v
      refine relays_of_tasks rfl ⟨_, rfl⟩ (fun k => ?_) fun _ => .refl _
      change ((v.setHandle h _).handles k).cancelRequested = _ ∧ _
      by_cases hk : k = h
      · subst hk
        simp [addSubmission, setHandle]
      · simp [addSubmission, setHandle, hk]
    refine (hretain.trans (hadd _)).trans ?_
    unfold SlotState.deliver
    split
    · exact relays_callSoon (fun tasks heq => by cases heq)
    · exact relays_setGeneration ⟨fun _ => Iff.rfl, id⟩

theorem relays_queueTaken (hstep : s.queueTaken g = some s') : Relays s none s' := by
  unfold SlotState.queueTaken at hstep
  split at hstep
  · rename_i n rest _
    cases hstep
    have htaken : Relays s none (s.setGeneration g { s.generations g with taken := rest }) :=
      relays_setGeneration ⟨fun _ => Iff.rfl, id⟩
    exact htaken.trans (relays_callSoon nofun)
  · split at hstep
    · cases hstep
      have hseals : Relays s none (s.setGeneration g { s.generations g with
          sealsOnRun := false }) := relays_setGeneration ⟨fun _ => Iff.rfl, id⟩
      exact hseals.trans (relays_callSoon nofun)
    · cases hstep

/-- **Step lemma of the requests**, for every event of the slot but a `cancel`. -/
theorem relays_step {e : SlotEvent} (hs : SlotInv s) (hcancel : ∀ h, e ≠ .cancel h)
    (hstep : s.step e = some s') : Relays s (s.setsOwner e) s' := by
  cases stepped hstep with
  | submit preferred h phase context hexists hbody =>
    exact relays_submit hs
  | @acquireLease v preferred g hreserve =>
    obtain ⟨u, hu, rfl⟩ := hs.reserveLocked hreserve
    have hselect : Relays s none u :=
      relays_of_eq hu.tasks hu.submissions hu.handles hu.generations
    exact (hselect.trans (relays_addReservation u g)).trans (relays_of_eq rfl rfl rfl rfl)
  | leaseRefused preferred =>
    exact relays_of_eq rfl rfl rfl rfl
  | releaseLease g hheld =>
    have hset : Relays s none
        { s with leases := Function.update s.leases g (s.leases g - 1) } :=
      relays_of_eq rfl rfl rfl rfl
    exact hset.trans (relays_releaseReservation _ g)
  | postSeal g hposted =>
    have hset : Relays s none { s with sealPosts := s.sealPosts.erase g } :=
      relays_of_eq rfl rfl rfl rfl
    change Relays s none _
    split
    · exact hset.trans (relays_callSoon (fun tasks heq => by cases heq))
    · exact hset
  | runGeneration g hcurrent hstopped hopen =>
    exact relays_setGeneration ⟨fun _ => Iff.rfl, fun _ => Or.inl rfl⟩
  | queueTaken g hrun htaken =>
    exact relays_queueTaken htaken
  | loopStep g hfree hloop =>
    exact relays_loopStep (Or.inl (running_of_loopFree hfree)) hloop
  | createTask g context hfree hfactory =>
    exact relays_factory (Or.inl (running_of_loopFree hfree)) hfactory
  | taskRefused g context =>
    exact relays_of_eq rfl rfl rfl rfl
  | endTask t task ht hbegun hdone hfree =>
    exact relays_endTask ht
  | cancel h => exact absurd rfl (hcancel h)
  | drain g hfree hseal =>
    exact relays_setGeneration ⟨fun _ => Iff.rfl, fun _ => Or.inl (running_of_loopFree hfree)⟩
  | close g hfree _ | exit g hfree =>
    have hset : Relays s none (s.setGeneration g { s.generations g with
        running := false, state := .closed }) :=
      relays_setGeneration ⟨fun _ => Iff.rfl, fun _ => Or.inr rfl⟩
    exact hset.trans (relays_of_eq rfl rfl rfl rfl)
  | shutdown =>
    exact relays_of_eq rfl rfl rfl rfl

/-! ## 3. Owners -/

/-- The task is the root of the body of the handle. -/
def RootOf (s : SlotState) (h t : Nat) : Prop :=
  ∃ task n submission, s.tasks[t]? = some task ∧ task.root = some n ∧
    s.submissions[n]? = some submission ∧ submission.handle = h ∧ submission.phase = .body

/-- The tasks that a `cancel` of the handle is for: the root of its body, and those registered for
    it in the body phase. -/
def Named (s : SlotState) (h t : Nat) : Prop :=
  s.RootOf h t ∨ ∃ task x, s.tasks[t]? = some task ∧ task.retained = some x ∧ x.handle = h ∧
    x.phase = .body

theorem RootOf.relays {owner : Option (Nat × Nat)} (hr : s.RootOf h t) (hs : Relays s owner s') :
    s'.RootOf h t := by
  obtain ⟨task, n, submission, ht, hroot, hn, hhandle, hphase⟩ := hr
  obtain ⟨task', ht', hc⟩ := hs.tasks t task ht
  obtain ⟨submission', hn', hhandle', hphase'⟩ := hs.submissions n submission hn
  exact ⟨task', n, submission', ht', hc.root.trans hroot, hn', hhandle'.trans hhandle,
    hphase'.trans hphase⟩

theorem Named.relays {owner : Option (Nat × Nat)} (hd : s.Named h t) (hs : Relays s owner s') :
    s'.Named h t := by
  rcases hd with hroot | ⟨task, x, ht, hx, hhandle, hphase⟩
  · exact Or.inl (hroot.relays hs)
  · obtain ⟨task', ht', hc⟩ := hs.tasks t task ht
    exact Or.inr ⟨task', x, ht', hc.retained.trans hx, hhandle, hphase⟩

/-- The owner of a handle is the root of its body, which has begun on the owner loop. -/
def Owned (s : SlotState) (h : Nat) : Prop :=
  ∃ t task, (s.handles h).ownerTask = some t ∧ s.tasks[t]? = some task ∧ task.begun = true ∧
    (s.handles h).ownerLoop = some task.generation ∧ s.RootOf h t

/-- A handle has an owner task together with its loop. -/
def OwnersOk (s : SlotState) : Prop :=
  ∀ h, ((s.handles h).ownerTask = none ∧ (s.handles h).ownerLoop = none) ∨ s.Owned h

/-- The body of a handle has one root task. -/
theorem RootOf.unique {u : Nat} (ht : s.RootOf h t) (hu : s.RootOf h u) (hl : Lineage s)
    (hr : Roots s) : t = u := by
  obtain ⟨task, n, submission, ht, hroot, hn, hhandle, hphase⟩ := ht
  obtain ⟨task', m, submission', hu, hroot', hm, hhandle', hphase'⟩ := hu
  have hbody := hl.body_submission n submission hn hphase
  have hbody' := hl.body_submission m submission' hm hphase'
  rw [hhandle] at hbody
  rw [hhandle', hbody] at hbody'
  obtain rfl : n = m := Option.some.inj hbody'
  obtain ⟨submission₁, hn₁, htask₁, -⟩ := hr.of_root t task n ht hroot
  obtain ⟨submission₂, hn₂, htask₂, -⟩ := hr.of_root u task' n hu hroot'
  obtain rfl : submission₁ = submission₂ := Option.some.inj (hn₁.symm.trans hn₂)
  exact Option.some.inj (htask₁.symm.trans htask₂)

/-- What a `cancel` is for runs on the owner loop. -/
theorem OwnersOk.generation (ho : OwnersOk s) (hl : Lineage s) (hr : Roots s)
    (hloop : (s.handles h).ownerLoop = some g) (hd : s.Named h t) :
    ∃ task, s.tasks[t]? = some task ∧ task.generation = g := by
  rcases hd with hroot | ⟨task, x, ht, hx, hhandle, hphase⟩
  · rcases ho h with ⟨-, hnone⟩ | ⟨u, task, -, hu, -, hgen, hroot'⟩
    · exact nomatch hnone.symm.trans hloop
    · obtain rfl := hroot.unique hroot' hl hr
      exact ⟨task, hu, Option.some.inj (hgen.symm.trans hloop)⟩
  · obtain ⟨hcontext, hgen⟩ := hl.task_context t task x ht hx
    have howner := hl.ownerLoop_of_context hcontext hphase
    rw [hhandle, hloop] at howner
    exact ⟨task, ht, hgen.symm.trans (Option.some.inj howner).symm⟩

/-- What is not finished reserves its generation. -/
theorem SlotInv.reserved_of_unfinished (hs : SlotInv s) {task : CarrierTask}
    (ht : s.tasks[t]? = some task) (hlive : task.done = false)
    (hkind : task.retained.isSome = true ∨ task.root.isSome = true) :
    0 < s.reservations task.generation := by
  rw [hs.ledger.reservations]
  rcases hkind with hretained | hroot
  · have hunreleased : task.released = false := by
      by_contra hreleased
      exact nomatch hlive.symm.trans
        (hs.done_callback t task ht (Bool.not_eq_false _ ▸ hreleased))
    have hcount : 0 < s.tasks.countP (heldOn task.generation) :=
      List.countP_pos_iff.mpr ⟨task, List.mem_of_getElem? ht, by simp [heldOn, hretained,
        hunreleased]⟩
    omega
  · obtain ⟨n, hn⟩ := Option.isSome_iff_exists.mp hroot
    obtain ⟨submission, hsub, hrootTask, hgen⟩ := hs.roots.of_root t task n ht hn
    have hunreleased : submission.released = false := by
      by_contra hreleased
      obtain ⟨u, task', hu, htask', hdone⟩ :=
        hs.roots.released_done n submission hsub (Bool.not_eq_false _ ▸ hreleased)
      obtain rfl : t = u := Option.some.inj (hrootTask.symm.trans hu)
      obtain rfl : task = task' := Option.some.inj (ht.symm.trans htask')
      exact nomatch hlive.symm.trans hdone
    have hcount : 0 < s.submissions.countP (openOn task.generation) :=
      List.countP_pos_iff.mpr ⟨submission, List.mem_of_getElem? hsub, by simp [openOn, hgen,
        hunreleased]⟩
    omega

theorem recordsOwner_spec {call : CarrierCall} (hrec : s.recordsOwner call = some (h, t)) :
    call = .firstStep t ∧ ∃ task n submission, s.tasks[t]? = some task ∧
      task.cancelled = false ∧ task.root = some n ∧ s.submissions[n]? = some submission ∧
      submission.phase = .body ∧ submission.handle = h := by
  cases call with
  | firstStep u =>
    obtain ⟨task, ht, hrest⟩ := Option.bind_eq_some_iff.mp hrec
    split at hrest
    · cases hrest
    · rename_i hcancelled
      obtain ⟨n, hroot, hrest⟩ := Option.bind_eq_some_iff.mp hrest
      obtain ⟨submission, hn, hrest⟩ := Option.bind_eq_some_iff.mp hrest
      split at hrest
      · rename_i hphase
        cases hrest
        exact ⟨rfl, task, n, submission, ht, Bool.eq_false_iff.mpr hcancelled, hroot, hn, hphase,
          rfl⟩
      · cases hrest
  | _ => cases hrec

/-- The first step of the root of a body, which is uncancelled, records the owner. -/
theorem firstStep_recorded {task : CarrierTask} {submission : Submission}
    (ht : s.tasks[t]? = some task) (hcancelled : task.cancelled = false)
    (hroot : task.root = some n) (hn : s.submissions[n]? = some submission)
    (hphase : submission.phase = .body) :
    ((s.firstStep t).handles submission.handle).ownerTask = some t ∧
      ((s.firstStep t).handles submission.handle).ownerLoop = some submission.generation ∧
      ∃ task', (s.firstStep t).tasks[t]? = some task' ∧ task'.begun = true := by
  have heq : s.firstStep t = SlotState.setHandle { s with
      tasks := s.tasks.set t { task with begun := true }
      submissions := s.submissions.set n { submission with begun := true } } submission.handle
      { s.handles submission.handle with
        ownerLoop := some submission.generation, ownerTask := some t } := by
    simp only [SlotState.firstStep, ht, hcancelled, Bool.false_eq_true, if_false, hroot,
      SlotState.beginSubmission, hn, if_pos hphase]
  rw [heq, handles_setHandle, if_pos rfl]
  exact ⟨rfl, rfl, { task with begun := true }, getElem?_set_self' ht, rfl⟩

/-- `_set_owner_task` runs in the first step of a root task that has not been cancelled. -/
theorem setsOwner_spec {e : SlotEvent} (hset : s.setsOwner e = some (h, t)) :
    ∃ g rest task n submission, e = .loopStep g ∧
      (s.generations g).ready = .firstStep t :: rest ∧ s.tasks[t]? = some task ∧
      task.cancelled = false ∧ task.root = some n ∧ s.submissions[n]? = some submission ∧
      submission.phase = .body ∧ submission.handle = h := by
  cases e with
  | loopStep g =>
    obtain ⟨call, hhead, hrec⟩ := Option.bind_eq_some_iff.mp hset
    obtain ⟨rest, hready⟩ := List.head?_eq_some_iff.mp hhead
    obtain ⟨rfl, task, n, submission, hspec⟩ := recordsOwner_spec hrec
    exact ⟨g, rest, task, n, submission, rfl, hready, hspec⟩
  | _ => cases hset

theorem setsOwner_effect {e : SlotEvent} (hs : SlotInv s) (hcancel : ∀ h, e ≠ .cancel h)
    (hset : s.setsOwner e = some (h, t)) (hstep : s.step e = some s') :
    (s'.handles h).ownerTask = some t ∧ s.RootOf h t ∧ ∃ task, s'.tasks[t]? = some task ∧
      task.begun = true ∧ (s'.handles h).ownerLoop = some task.generation := by
  have hr := relays_step hs hcancel hstep
  obtain ⟨g, rest, task, n, submission, rfl, hready, ht, hcancelled, hroot, hn, hphase, rfl⟩ :=
    setsOwner_spec hset
  have heq : s' = (s.setGeneration g { s.generations g with ready := rest }).firstStep t := by
    simp only [SlotState.step, SlotState.loopStep, hready] at hstep
    split at hstep
    · exact (Option.some.inj hstep).symm
    · cases hstep
  obtain ⟨howner, hloop, task₁, ht₁, hbegun⟩ := firstStep_recorded (s := s.setGeneration g
    { s.generations g with ready := rest }) ht hcancelled hroot hn hphase
  rw [← heq] at howner hloop ht₁
  obtain ⟨task', ht', hc⟩ := hr.tasks t task ht
  obtain rfl : task₁ = task' := Option.some.inj (ht₁.symm.trans ht')
  obtain ⟨submission₁, hn₁, -, hgen⟩ := hs.roots.of_root t task n ht hroot
  obtain rfl : submission₁ = submission := Option.some.inj (hn₁.symm.trans hn)
  exact ⟨howner, ⟨task, n, submission₁, ht, hroot, hn, rfl, hphase⟩, task₁, ht', hbegun,
    by rw [hloop, hgen, hc.generation]⟩

theorem OwnersOk.step (ho : OwnersOk s) {e : SlotEvent} (hs : SlotInv s)
    (hcancel : ∀ h, e ≠ .cancel h) (hstep : s.step e = some s') : OwnersOk s' := by
  have hr := relays_step hs hcancel hstep
  intro h
  by_cases hset : ∃ t, s.setsOwner e = some (h, t)
  · obtain ⟨t, hset⟩ := hset
    obtain ⟨howner, hroot, task, ht, hbegun, hloop⟩ := setsOwner_effect hs hcancel hset hstep
    exact Or.inr ⟨t, task, howner, ht, hbegun, hloop, hroot.relays hr⟩
  · obtain ⟨htask, hloop⟩ := hr.owners h fun t heq => hset ⟨t, heq⟩
    rcases ho h with ⟨hnone, hnone'⟩ | ⟨t, task, howner, ht, hbegun, hgen, hroot⟩
    · exact Or.inl ⟨htask.trans hnone, hloop.trans hnone'⟩
    · obtain ⟨task', ht', hc⟩ := hr.tasks t task ht
      exact Or.inr ⟨t, task', htask.trans howner, ht', hc.begun hbegun,
        (hloop.trans hgen).trans (congrArg some hc.generation.symm), hroot.relays hr⟩

/-- Once it is known, the owner loop of a handle stays. -/
theorem OwnersOk.ownerLoop_stays (ho : OwnersOk s) {e : SlotEvent} (hs : SlotInv s)
    (hl : Lineage s) (hcancel : ∀ h, e ≠ .cancel h) (hstep : s.step e = some s')
    (hloop : (s.handles h).ownerLoop = some g) : (s'.handles h).ownerLoop = some g := by
  have hr := relays_step hs hcancel hstep
  by_cases hset : ∃ t, s.setsOwner e = some (h, t)
  · obtain ⟨t, hset⟩ := hset
    obtain ⟨k, rest, task, n, submission, rfl, hready, ht, -, hroot, hn, hphase, rfl⟩ :=
      setsOwner_spec hset
    -- the root of the body has begun already, so its first step is not queued
    exfalso
    rcases ho submission.handle with ⟨-, hnone⟩ | ⟨u, task', -, hu, hbegun, -, hroot'⟩
    · exact nomatch hnone.symm.trans hloop
    · have hbody : s.RootOf submission.handle t :=
        ⟨task, n, submission, ht, hroot, hn, rfl, hphase⟩
      obtain rfl := hbody.unique hroot' hl hs.roots
      have hdue := (hs.once.due_of_ready rfl hready).1
      simp [due, hu, hbegun] at hdue
  · exact (hr.owners h fun t heq => hset ⟨t, heq⟩).2.trans hloop

end SlotState

namespace HandleFenceState

open SlotState

variable {s s' : HandleFenceState} {g h k n t : Nat}

/-! ## 4. The invariant -/

/-- `Task.cancel` has been called for a `cancel` of a handle. -/
def Requested (s : HandleFenceState) (t : Nat) : Prop :=
  (∃ task : CarrierTask, s.slot.tasks[t]? = some task ∧ task.cancelled = true) ∨
    t ∈ s.ownerCancelled

/-- A queued `_cancel_tasks` of the owner loop names the task. -/
def Queued (s : HandleFenceState) (h t : Nat) : Prop :=
  ∃ g tasks, (s.slot.handles h).ownerLoop = some g ∧
    .cancelTasks tasks ∈ (s.slot.generations g).ready ∧ t ∈ tasks

/-- A `cancel` that has left the lock names it. -/
def Posting (s : HandleFenceState) (h t : Nat) : Prop :=
  ∃ post ∈ s.posting, post.handle = h ∧ t ∈ post.tasks

/-- An unfinished task that a `cancel` of the handle has to reach: the owner task, or one
    registered in the body phase. -/
def Unfinished (s : HandleFenceState) (h t : Nat) : Prop :=
  ∃ task : CarrierTask, s.slot.tasks[t]? = some task ∧ task.done = false ∧
    (ownsInBody h task = true ∨ (s.slot.handles h).ownerTask = some t)

/-- The owner loop of the handle has been closed. -/
def OwnerClosed (s : HandleFenceState) (h : Nat) : Prop :=
  ∃ g, (s.slot.handles h).ownerLoop = some g ∧ (s.slot.generations g).state = .closed

structure HandleFenceInv (s : HandleFenceState) : Prop where
  ledger : SlotInv s.slot
  lineage : Lineage s.slot
  sealing : Sealing s.slot
  lifecycle : Lifecycle s.slot
  waits : Waits s.slot
  owners : OwnersOk s.slot
  ran : ∀ (t : Nat) (task : CarrierTask), s.slot.tasks[t]? = some task → s.slot.Ran task.generation
  queued : ∀ (g : Nat) (tasks : List Nat), .cancelTasks tasks ∈ (s.slot.generations g).ready →
    ∃ h, (s.slot.handles h).cancelRequested = true ∧ ∀ t ∈ tasks, s.slot.Named h t
  posting : ∀ post ∈ s.posting, (s.slot.handles post.handle).cancelRequested = true ∧
    (s.slot.handles post.handle).ownerLoop = some post.loop ∧
    ∀ t ∈ post.tasks, s.slot.Named post.handle t
  requested : ∀ t, s.Requested t →
    ∃ h, (s.slot.handles h).cancelRequested = true ∧ s.slot.Named h t
  covered : ∀ h, (s.slot.handles h).cancelRequested = true → ∀ t, s.Unfinished h t →
    s.Requested t ∨ s.Queued h t ∨ s.Posting h t ∨ s.OwnerClosed h

theorem ownsInBody_spec {task : CarrierTask} (howns : ownsInBody h task = true) :
    (∃ x, task.retained = some x ∧ x.handle = h ∧ x.phase = .body) ∧ task.released = false := by
  unfold ownsInBody at howns
  split at howns
  · rename_i x hx
    rw [Bool.and_eq_true, Bool.not_eq_true'] at howns
    obtain ⟨hhandle, hphase⟩ := of_decide_eq_true howns.1
    exact ⟨⟨x, hx, hhandle, hphase⟩, howns.2⟩
  · cases howns

theorem ownsInBody_of_spec {task : CarrierTask} {x : ExecutionContext}
    (hx : task.retained = some x) (hhandle : x.handle = h) (hphase : x.phase = .body)
    (hreleased : task.released = false) : ownsInBody h task = true := by
  simp [ownsInBody, hx, hhandle, hphase, hreleased]

theorem HandleFenceInv.named (hi : s.HandleFenceInv) (hu : s.Unfinished h t) :
    s.slot.Named h t := by
  obtain ⟨task, ht, -, hown | hown⟩ := hu
  · obtain ⟨⟨x, hx, hhandle, hphase⟩, -⟩ := ownsInBody_spec hown
    exact Or.inr ⟨task, x, ht, hx, hhandle, hphase⟩
  · rcases hi.owners h with ⟨hnone, -⟩ | ⟨u, task', howner, -, -, -, hroot⟩
    · exact nomatch hnone.symm.trans hown
    · obtain rfl : u = t := Option.some.inj (howner.symm.trans hown)
      exact Or.inl hroot

/-- What a `cancel` has to reach has an owner loop, and is on it. -/
theorem HandleFenceInv.ownerLoop (hi : s.HandleFenceInv) (hu : s.Unfinished h t) :
    ∃ g, (s.slot.handles h).ownerLoop = some g := by
  rcases hi.owners h with ⟨hnone, -⟩ | ⟨_, task, -, -, -, hloop, -⟩
  · obtain ⟨task, ht, -, hown | hown⟩ := hu
    · obtain ⟨⟨x, hx, rfl, hphase⟩, -⟩ := ownsInBody_spec hown
      exact ⟨_, hi.lineage.ownerLoop_of_context (hi.lineage.task_context t task x ht hx).1 hphase⟩
    · exact nomatch hnone.symm.trans hown
  · exact ⟨_, hloop⟩

/-- Something is reserved on the owner loop while a task on it is unfinished. -/
theorem HandleFenceInv.reserved (hi : s.HandleFenceInv) (hu : s.Unfinished h t)
    (hloop : (s.slot.handles h).ownerLoop = some g) : 0 < s.slot.reservations g := by
  have hnamed := hi.named hu
  obtain ⟨task, ht, rfl⟩ := hi.owners.generation hi.lineage hi.ledger.roots hloop hnamed
  obtain ⟨task', ht', hlive, -⟩ := hu
  obtain rfl : task = task' := Option.some.inj (ht.symm.trans ht')
  have hkind : task.retained.isSome = true ∨ task.root.isSome = true := by
    rcases hnamed with ⟨task₁, n, -, ht₁, hroot, -⟩ | ⟨task₁, x, ht₁, hx, -⟩
    · obtain rfl : task = task₁ := Option.some.inj (ht.symm.trans ht₁)
      exact Or.inr (Option.isSome_of_eq_some hroot)
    · obtain rfl : task = task₁ := Option.some.inj (ht.symm.trans ht₁)
      exact Or.inl (Option.isSome_of_eq_some hx)
  exact hi.ledger.reserved_of_unfinished ht hlive hkind

/-- The owner loop of a named task runs or has been closed. -/
theorem HandleFenceInv.ownerRan (hi : s.HandleFenceInv) (hnamed : s.slot.Named h t)
    (hloop : (s.slot.handles h).ownerLoop = some g) : s.slot.Ran g := by
  obtain ⟨task, ht, rfl⟩ := hi.owners.generation hi.lineage hi.ledger.roots hloop hnamed
  exact hi.ran t task ht

/-! ## 5. Steps of the slot -/

theorem Requested.slot {owner : Option (Nat × Nat)} (hr : s.Requested t)
    (hs : Relays s.slot owner s'.slot) (howner : s.ownerCancelled ⊆ s'.ownerCancelled) :
    s'.Requested t := by
  rcases hr with ⟨task, ht, hcancelled⟩ | hmem
  · obtain ⟨task', ht', hc⟩ := hs.tasks t task ht
    exact Or.inl ⟨task', ht', hc.cancelled hcancelled⟩
  · exact Or.inr (howner hmem)

/-- What is unfinished after a step was so before it, or it is new, or its owner is recorded. -/
theorem Unfinished.slot {e : SlotEvent} (hi : s.HandleFenceInv) (hcancel : ∀ h, e ≠ .cancel h)
    (hstep : s.slot.step e = some s'.slot) (hu : s'.Unfinished h t) :
    s.Unfinished h t ∨ s.slot.setsOwner e = some (h, t) ∨
      (s.slot.tasks[t]? = none ∧ ∃ task x, s'.slot.tasks[t]? = some task ∧
        task.retained = some x ∧ x.handle = h ∧ x.phase = .body) := by
  have hr := relays_step hi.ledger hcancel hstep
  obtain ⟨task', ht', hlive', hown'⟩ := hu
  -- the owner task is an old one, or it has just been recorded
  have howner : (s'.slot.handles h).ownerTask = some t →
      s.slot.setsOwner e = some (h, t) ∨ (s.slot.handles h).ownerTask = some t := by
    intro htask
    by_cases hset : ∃ u, s.slot.setsOwner e = some (h, u)
    · obtain ⟨u, hset⟩ := hset
      have hrecorded := (setsOwner_effect hi.ledger hcancel hset hstep).1
      obtain rfl : u = t := Option.some.inj (hrecorded.symm.trans htask)
      exact Or.inl hset
    · exact Or.inr ((hr.owners h fun u heq => hset ⟨u, heq⟩).1.symm.trans htask)
  cases ht : s.slot.tasks[t]? with
  | none =>
    rcases hown' with hown' | hown'
    · obtain ⟨⟨x, hx, hhandle, hphase⟩, -⟩ := ownsInBody_spec hown'
      exact Or.inr (Or.inr ⟨rfl, task', x, ht', hx, hhandle, hphase⟩)
    · rcases howner hown' with hset | hold
      · exact Or.inr (Or.inl hset)
      · rcases hi.owners h with ⟨hnone, -⟩ | ⟨u, task, hu, htask, -⟩
        · exact nomatch hnone.symm.trans hold
        · obtain rfl : u = t := Option.some.inj (hu.symm.trans hold)
          exact nomatch htask.symm.trans ht
  | some task =>
    obtain ⟨task₁, ht₁, hc⟩ := hr.tasks t task ht
    obtain rfl : task₁ = task' := Option.some.inj (ht₁.symm.trans ht')
    have hlive : task.done = false := by
      by_contra hdone
      exact nomatch hlive'.symm.trans (hc.done (Bool.not_eq_false _ ▸ hdone))
    rcases hown' with hown' | hown'
    · obtain ⟨⟨x, hx, hhandle, hphase⟩, hreleased'⟩ := ownsInBody_spec hown'
      have hreleased : task.released = false := by
        by_contra hreleased
        exact nomatch hreleased'.symm.trans (hc.released (Bool.not_eq_false _ ▸ hreleased))
      exact Or.inl ⟨task, ht, hlive, Or.inl
        (ownsInBody_of_spec (hc.retained.symm.trans hx) hhandle hphase hreleased)⟩
    · rcases howner hown' with hset | hold
      · exact Or.inr (Or.inl hset)
      · exact Or.inl ⟨task, ht, hlive, Or.inr hold⟩

/-- **The step lemma for the events of the slot.** -/
theorem HandleFenceInv.slot {e : SlotEvent} (hi : s.HandleFenceInv)
    (hcancel : ∀ h, e ≠ .cancel h) (hstep : s.slot.step e = some s'.slot)
    (hposting : s'.posting = s.posting) (howner : s'.ownerCancelled =
      match s.slot.setsOwner e with
      | some (h, t) =>
        if (s.slot.handles h).cancelRequested then insert t s.ownerCancelled
        else s.ownerCancelled
      | none => s.ownerCancelled) : s'.HandleFenceInv := by
  have hr := relays_step hi.ledger hcancel hstep
  have hlife := step_lifecycle hi.lifecycle hi.waits hi.ledger hi.sealing hstep
  have hmono : s.ownerCancelled ⊆ s'.ownerCancelled := by
    rw [howner]
    split
    · split
      · exact Finset.subset_insert _ _
      · exact Finset.Subset.refl _
    · exact Finset.Subset.refl _
  have hnamed : ∀ tasks : List Nat,
      (∃ h, (s.slot.handles h).cancelRequested = true ∧ ∀ t ∈ tasks, s.slot.Named h t) →
        ∃ h, (s'.slot.handles h).cancelRequested = true ∧ ∀ t ∈ tasks, s'.slot.Named h t := by
    rintro tasks ⟨h, hreq, hall⟩
    exact ⟨h, (hr.requests h).trans hreq, fun t ht => (hall t ht).relays hr⟩
  refine ⟨hi.ledger.step hstep, hi.lineage.step hi.ledger hstep, hi.sealing.step hi.ledger hstep,
    hlife.1, hlife.2, hi.owners.step hi.ledger hcancel hstep, fun t task ht => ?_,
    fun g tasks hmem => hnamed tasks (hi.queued g tasks (hr.queued g tasks hmem)),
    fun post hpost => ?_, fun t ht => ?_, fun h hreq t hu => ?_⟩
  · cases hold : s.slot.tasks[t]? with
    | none => exact (hr.created t task ht hold).1
    | some task₀ =>
      obtain ⟨task₁, ht₁, hc⟩ := hr.tasks t task₀ hold
      obtain rfl : task₁ = task := Option.some.inj (ht₁.symm.trans ht)
      rw [hc.generation]
      exact hr.ran _ (hi.ran t task₀ hold)
  · obtain ⟨hreq, hloop, hall⟩ := hi.posting post (hposting ▸ hpost)
    exact ⟨(hr.requests _).trans hreq,
      hi.owners.ownerLoop_stays hi.ledger hi.lineage hcancel hstep hloop,
      fun t ht => (hall t ht).relays hr⟩
  · have hone : (∃ h, (s.slot.handles h).cancelRequested = true ∧ s.slot.Named h t) →
        ∃ h, (s'.slot.handles h).cancelRequested = true ∧ s'.slot.Named h t :=
      fun ⟨h, hreq, hn⟩ => ⟨h, (hr.requests h).trans hreq, hn.relays hr⟩
    rcases ht with ⟨task, ht, hcancelled⟩ | hmem
    · rcases hr.cancelled t task ht hcancelled with
        ⟨task₀, ht₀, hcancelled₀⟩ | ⟨g, tasks, hmem, hin⟩ | ⟨x, hx, hbody, hreq⟩
      · exact hone (hi.requested t (Or.inl ⟨task₀, ht₀, hcancelled₀⟩))
      · obtain ⟨h, hreq, hall⟩ := hi.queued g tasks hmem
        exact hone ⟨h, hreq, hall t hin⟩
      · exact ⟨x.handle, (hr.requests _).trans hreq, Or.inr ⟨task, x, ht, hx, rfl, hbody⟩⟩
    · rw [howner] at hmem
      split at hmem
      · rename_i h u hset
        split at hmem
        · rename_i hreq
          rcases Finset.mem_insert.mp hmem with rfl | hold
          · exact hone ⟨h, hreq, Or.inl
              (setsOwner_effect hi.ledger hcancel hset hstep).2.1⟩
          · exact hone (hi.requested t (Or.inr hold))
        · exact hone (hi.requested t (Or.inr hmem))
      · exact hone (hi.requested t (Or.inr hmem))
  · have hreq₀ := (hr.requests h).symm.trans hreq
    rcases hu.slot hi hcancel hstep with hold | hset | ⟨hnone, task, x, ht, hx, rfl, hbody⟩
    · rcases hi.covered h hreq₀ t hold with
        hrequested | ⟨g, tasks, hloop, hmem, hin⟩ | hpost | ⟨g, hloop, hclosed⟩
      · exact Or.inl (hrequested.slot hr hmono)
      · have hloop' := hi.owners.ownerLoop_stays hi.ledger hi.lineage hcancel hstep hloop
        rcases hr.queue g tasks hmem with hmem' | hended
        · exact Or.inr (Or.inl ⟨g, tasks, hloop', hmem', hin⟩)
        · obtain ⟨task, ht, -, -⟩ := hold
          obtain ⟨task', ht', hdone | hcancelled⟩ := hended t hin task ht
          · obtain ⟨task₁, ht₁, hlive, -⟩ := hu
            obtain rfl : task₁ = task' := Option.some.inj (ht₁.symm.trans ht')
            exact nomatch hlive.symm.trans hdone
          · exact Or.inl (Or.inl ⟨task', ht', hcancelled⟩)
      · obtain ⟨post, hpost, hhandle, hin⟩ := hpost
        exact Or.inr (Or.inr (Or.inl ⟨post, hposting ▸ hpost, hhandle, hin⟩))
      · exact Or.inr (Or.inr (Or.inr ⟨g,
          hi.owners.ownerLoop_stays hi.ledger hi.lineage hcancel hstep hloop,
          closed_step hi.lifecycle hi.ledger hstep hclosed⟩))
    · refine Or.inl (Or.inr ?_)
      rw [howner, hset]
      dsimp only
      rw [if_pos hreq₀]
      exact Finset.mem_insert_self _ _
    · exact Or.inl (Or.inl ⟨task, ht, (hr.created t task ht hnone).2 x hx hbody hreq₀⟩)

/-! ## 6. A cancellation -/

theorem handles_requestCancel (slot : SlotState) (h k : Nat) :
    ((slot.requestCancel h).handles k).ownerTask = (slot.handles k).ownerTask ∧
      ((slot.requestCancel h).handles k).ownerLoop = (slot.handles k).ownerLoop ∧
      ((slot.requestCancel h).handles k).bodySubmission = (slot.handles k).bodySubmission ∧
      ((slot.requestCancel h).handles k).pendingWork = (slot.handles k).pendingWork ∧
      ((slot.requestCancel h).handles k).cancelRequested =
        if k = h then true else (slot.handles k).cancelRequested := by
  rw [requestCancel, handles_setHandle]
  split
  · rename_i hk
    rw [hk]
    exact ⟨rfl, rfl, rfl, rfl, rfl⟩
  · exact ⟨rfl, rfl, rfl, rfl, rfl⟩

theorem requested_requestCancel {slot : SlotState} (k : Nat)
    (hreq : (slot.handles h).cancelRequested = true) :
    ((slot.requestCancel k).handles h).cancelRequested = true := by
  rw [(handles_requestCancel slot k h).2.2.2.2]
  split
  · rfl
  · exact hreq

/-- The copy of a `cancel` has everything that is unfinished. -/
theorem HandleFenceInv.copied (hi : s.HandleFenceInv) (hu : s.Unfinished h t) :
    ∃ post, s.slot.cancelPost h = some post ∧ post.handle = h ∧ t ∈ post.tasks := by
  obtain ⟨g, hloop⟩ := hi.ownerLoop hu
  refine ⟨_, by rw [cancelPost, hloop]; rfl, rfl, ?_⟩
  obtain ⟨task, ht, -, hown | hown⟩ := hu
  · refine List.mem_append_right _ (List.mem_filter.mpr ⟨?_, ?_⟩)
    · exact List.mem_range.mpr (List.getElem?_eq_some_iff.mp ht).1
    · rw [ht]
      exact hown
  · exact List.mem_append_left _ (Option.mem_toList.mpr hown)

/-- What is copied is meant by the `cancel`. -/
theorem HandleFenceInv.copied_named (hi : s.HandleFenceInv) {post : CancelPost}
    (hpost : s.slot.cancelPost h = some post) :
    post.handle = h ∧ (s.slot.handles h).ownerLoop = some post.loop ∧
      ∀ t ∈ post.tasks, s.slot.Named h t := by
  obtain ⟨g, hloop, rfl⟩ := Option.map_eq_some_iff.mp hpost
  refine ⟨rfl, hloop, fun t hmem => ?_⟩
  rcases List.mem_append.mp hmem with hown | hown
  · rcases hi.owners h with ⟨hnone, -⟩ | ⟨u, task, howner, -, -, -, hroot⟩
    · rw [hnone] at hown
      cases hown
    · rw [howner, Option.toList_some, List.mem_singleton] at hown
      rw [hown]
      exact Or.inl hroot
  · obtain ⟨-, hany⟩ := List.mem_filter.mp hown
    obtain ⟨task, ht, howns⟩ := (Option.any_eq_true _ _).mp hany
    obtain ⟨⟨x, hx, hhandle, hphase⟩, -⟩ := ownsInBody_spec howns
    exact Or.inr ⟨task, x, ht, hx, hhandle, hphase⟩

theorem HandleFenceInv.cancel (hi : s.HandleFenceInv) (h : Nat) : HandleFenceInv { s with
    slot := s.slot.requestCancel h
    posting := s.posting ++ (s.slot.cancelPost h).toList } := by
  have hturns : Turns s.slot (s.slot.requestCancel h) := turns_of_eq rfl ⟨rfl, rfl, rfl⟩ rfl
  refine ⟨hi.ledger.setHandles _ fun k => (handles_requestCancel s.slot h k).2.2.2.1,
    hi.lineage.of_tables rfl rfl (fun k => ?_) fun _ _ hmem => hmem,
    hi.sealing.congr rfl (fun _ hk => hk) ⟨rfl, rfl⟩, hi.lifecycle.turns hturns,
    hi.waits.turns hturns, fun k => ?_, hi.ran, fun g tasks hmem => ?_, fun post hpost => ?_,
    fun t ht => ?_, fun k hreq t hu => ?_⟩
  · obtain ⟨htask, hloop, hbody, -⟩ := handles_requestCancel s.slot h k
    exact ⟨hloop, htask, hbody⟩
  · obtain ⟨htask, hloop, -⟩ := handles_requestCancel s.slot h k
    rcases hi.owners k with ⟨hnone, hnone'⟩ | ⟨t, task, howner, hrest⟩
    · exact Or.inl ⟨htask.trans hnone, hloop.trans hnone'⟩
    · obtain ⟨ht, hbegun, hgen, hroot⟩ := hrest
      exact Or.inr ⟨t, task, htask.trans howner, ht, hbegun, hloop.trans hgen, hroot⟩
  · obtain ⟨k, hreq, hall⟩ := hi.queued g tasks hmem
    exact ⟨k, requested_requestCancel h hreq, hall⟩
  · rcases List.mem_append.mp hpost with hold | hnew
    · obtain ⟨hreq, hloop, hall⟩ := hi.posting post hold
      exact ⟨requested_requestCancel h hreq,
        (handles_requestCancel s.slot h _).2.1.trans hloop, hall⟩
    · obtain ⟨rfl, hloop, hall⟩ := hi.copied_named (Option.mem_toList.mp hnew)
      refine ⟨?_, (handles_requestCancel s.slot _ _).2.1.trans hloop, hall⟩
      rw [(handles_requestCancel s.slot _ _).2.2.2.2, if_pos rfl]
  · obtain ⟨k, hreq, hn⟩ := hi.requested t ht
    exact ⟨k, requested_requestCancel h hreq, hn⟩
  · have hold : s.Unfinished k t := by
      obtain ⟨task, ht, hlive, hown⟩ := hu
      exact ⟨task, ht, hlive, hown.imp_right
        ((handles_requestCancel s.slot h k).1.symm.trans ·)⟩
    by_cases hk : k = h
    · subst hk
      obtain ⟨post, hpost, hhandle, hin⟩ := hi.copied hold
      exact Or.inr (Or.inr (Or.inl ⟨post,
        List.mem_append_right _ (Option.mem_toList.mpr hpost), hhandle, hin⟩))
    · have hreq₀ : (s.slot.handles k).cancelRequested = true := by
        rw [(handles_requestCancel s.slot h k).2.2.2.2, if_neg hk] at hreq
        exact hreq
      rcases hi.covered k hreq₀ t hold with
        hrequested | ⟨g, tasks, hloop, hmem, hin⟩ | hpost | ⟨g, hloop, hclosed⟩
      · exact Or.inl hrequested
      · exact Or.inr (Or.inl ⟨g, tasks, (handles_requestCancel s.slot h k).2.1.trans hloop, hmem,
          hin⟩)
      · obtain ⟨post, hmem, hrest⟩ := hpost
        exact Or.inr (Or.inr (Or.inl ⟨post, List.mem_append_left _ hmem, hrest⟩))
      · exact Or.inr (Or.inr (Or.inr ⟨g, (handles_requestCancel s.slot h k).2.1.trans hloop,
          hclosed⟩))

/-! ## 7. The posted callback -/

theorem mem_eraseIdx_or_eq {α : Type} {l : List α} {i : Nat} {a b : α} (ha : l[i]? = some a)
    (hb : b ∈ l) : b ∈ l.eraseIdx i ∨ b = a := by
  obtain ⟨j, hj⟩ := List.mem_iff_getElem?.mp hb
  by_cases hji : j = i
  · subst hji
    exact Or.inr (Option.some.inj (hj.symm.trans ha))
  · exact Or.inl (List.mem_eraseIdx_iff_getElem?.mpr ⟨j, hji, hj⟩)

/-- The callback comes into the queue of the loop. -/
theorem HandleFenceInv.queue (hi : s.HandleFenceInv) {post : CancelPost}
    (hpost : post ∈ s.posting) (hrun : (s.slot.generations post.loop).running = true) :
    HandleFenceInv { s with slot := s.slot.callSoon post.loop (.cancelTasks post.tasks) } := by
  obtain ⟨hreq, hloop, hall⟩ := hi.posting post hpost
  have hturns := turns_callSoon s.slot post.loop (.cancelTasks post.tasks)
  have hkeeps : ∀ k (d : CarrierCall), d ∈ (s.slot.generations k).ready →
      d ∈ ((s.slot.callSoon post.loop (.cancelTasks post.tasks)).generations k).ready := by
    intro k d hmem
    rw [callSoon, generations_setGeneration]
    split
    · rename_i hk
      rw [hk] at hmem
      exact List.mem_append_left _ hmem
    · exact hmem
  have hnew : ∀ k (d : CarrierCall),
      d ∈ ((s.slot.callSoon post.loop (.cancelTasks post.tasks)).generations k).ready →
        d ∈ (s.slot.generations k).ready ∨ (k = post.loop ∧ d = .cancelTasks post.tasks) := by
    intro k d hmem
    rw [callSoon, generations_setGeneration] at hmem
    split at hmem
    · rename_i hk
      rw [hk]
      exact (List.mem_append.mp hmem).imp_right fun h => ⟨rfl, List.mem_singleton.mp h⟩
    · exact Or.inl hmem
  refine ⟨hi.ledger.callSoon rfl (hi.ledger.lt_of_running hrun), ?_,
    hi.sealing.callSoon (fun heq => by cases heq), hi.lifecycle.turns hturns,
    hi.waits.turns hturns, hi.owners, fun t task ht => ?_, fun g tasks hmem => ?_,
    hi.posting, hi.requested, fun h hreq t hu => ?_⟩
  · have hl := hi.lineage
    refine hl.of_extends ⟨fun u task hu => ⟨task, hu, rfl, id⟩, fun m submission hm =>
      ⟨submission, hm, rfl, rfl, rfl, id⟩⟩ hl.submission_context hl.task_context
      hl.body_submission hl.owner_loop (fun _ _ h => Or.inl h) fun k tasks hmem t ht => ?_
    rcases hnew k _ hmem with hold | ⟨rfl, heq⟩
    · exact hl.cancels k tasks hold t ht
    · cases heq
      obtain ⟨task, htask, hgen⟩ :=
        hi.owners.generation hl hi.ledger.roots hloop (hall t ht)
      exact ⟨task, htask, Or.inr hgen⟩
  · change _ ∨ _
    rw [(hturns.generations _).running]
    rcases (hturns.generations task.generation).state with hsame | ⟨-, hsealing⟩
    · rw [hsame]
      exact hi.ran t task ht
    · exact (hi.ran t task ht).imp_right fun hclosed => by
        rw [callSoon, generations_setGeneration] at hsealing ⊢
        split
        · rename_i hk
          rw [← hk]
          exact hclosed
        · exact hclosed
  · rcases hnew g _ hmem with hold | ⟨rfl, heq⟩
    · exact hi.queued g tasks hold
    · cases heq
      exact ⟨post.handle, hreq, hall⟩
  · rcases hi.covered h hreq t hu with
      hrequested | ⟨g, tasks, hloop, hmem, hin⟩ | hpost | ⟨g, hloop, hclosed⟩
    · exact Or.inl hrequested
    · exact Or.inr (Or.inl ⟨g, tasks, hloop, hkeeps g _ hmem, hin⟩)
    · exact Or.inr (Or.inr (Or.inl hpost))
    · exact Or.inr (Or.inr (Or.inr ⟨g, hloop, (hturns.generations g).closed_iff.mpr hclosed⟩))

/-- The `cancel` is over. -/
theorem HandleFenceInv.posted (hi : s.HandleFenceInv) {i : Nat} {post : CancelPost}
    (hget : s.posting[i]? = some post)
    (hdone : ∀ t, s.Unfinished post.handle t → t ∈ post.tasks →
      s.Queued post.handle t ∨ s.OwnerClosed post.handle) :
    HandleFenceInv { s with posting := s.posting.eraseIdx i } := by
  refine ⟨hi.ledger, hi.lineage, hi.sealing, hi.lifecycle, hi.waits, hi.owners, hi.ran, hi.queued,
    fun post' hpost' => hi.posting post' (List.mem_of_mem_eraseIdx hpost'), hi.requested,
    fun h hreq t hu => ?_⟩
  rcases hi.covered h hreq t hu with hrequested | hqueued | ⟨post', hpost', rfl, hin⟩ | hclosed
  · exact Or.inl hrequested
  · exact Or.inr (Or.inl hqueued)
  · rcases mem_eraseIdx_or_eq hget hpost' with hkept | rfl
    · exact Or.inr (Or.inr (Or.inl ⟨post', hkept, rfl, hin⟩))
    · exact Or.inr ((hdone t hu hin).imp_right Or.inr)
  · exact Or.inr (Or.inr (Or.inr hclosed))

theorem HandleFenceInv.post (hi : s.HandleFenceInv) {i : Nat} {post : CancelPost}
    (hget : s.posting[i]? = some post) : HandleFenceInv { s with
      slot := if (s.slot.generations post.loop).running then
        s.slot.callSoon post.loop (.cancelTasks post.tasks) else s.slot
      posting := s.posting.eraseIdx i } := by
  have hmem := List.mem_of_getElem? hget
  obtain ⟨-, hloop, -⟩ := hi.posting post hmem
  split
  · rename_i hrun
    refine (hi.queue hmem hrun).posted (s := { s with
      slot := s.slot.callSoon post.loop (.cancelTasks post.tasks) }) hget fun t _ hin => ?_
    refine Or.inl ⟨post.loop, post.tasks, hloop, ?_, hin⟩
    rw [callSoon, generations_setGeneration, if_pos rfl]
    exact List.mem_append_right _ (List.mem_singleton_self _)
  · rename_i hstopped
    -- the loop has run, so it has been closed
    refine hi.posted hget fun t hu _ => Or.inr ⟨post.loop, hloop, ?_⟩
    exact (hi.ownerRan (hi.named hu) hloop).resolve_left hstopped

/-! ## 8. Runs -/

/-- A step of the slot in this system is one of the carrier. -/
theorem step_slot {e : SlotEvent} (hstep : s.step (.slot e) = some s') :
    (∀ h, e ≠ .cancel h) ∧ s.slot.step e = some s'.slot ∧ s'.posting = s.posting ∧
      s'.ownerCancelled =
        match s.slot.setsOwner e with
        | some (h, t) =>
          if (s.slot.handles h).cancelRequested then insert t s.ownerCancelled
          else s.ownerCancelled
        | none => s.ownerCancelled := by
  cases e with
  | cancel h => cases hstep
  | _ =>
    simp only [HandleFenceState.step] at hstep
    obtain ⟨slot, hslot, rfl⟩ := Option.map_eq_some_iff.mp hstep
    exact ⟨nofun, hslot, rfl, rfl⟩

theorem HandleFenceInv.step (hi : s.HandleFenceInv) {e : HandleFenceEvent}
    (hstep : s.step e = some s') : s'.HandleFenceInv := by
  cases e with
  | slot e =>
    obtain ⟨hcancel, hslot, hposting, howner⟩ := step_slot hstep
    exact hi.slot hcancel hslot hposting howner
  | cancel h =>
    cases hstep
    exact hi.cancel h
  | post i =>
    obtain ⟨post, hget, rfl⟩ := Option.map_eq_some_iff.mp hstep
    exact hi.post hget

theorem reachable_handleFenceInv (h : handleFenceSystem.Reachable s) : s.HandleFenceInv := by
  induction h with
  | init hinit =>
    cases hinit
    obtain ⟨hlife, hwaits, hledger, hsealing⟩ :=
      reachable_lifecycle (s := {}) (.init rfl)
    refine ⟨hledger, lineage_initial, hsealing, hlife, hwaits, fun _ => Or.inl ⟨rfl, rfl⟩,
      fun t task ht => (by cases ht), fun g tasks hmem => (by cases hmem),
      fun post hpost => (by cases hpost), fun t ht => ?_, fun h hreq => (by cases hreq)⟩
    rcases ht with ⟨task, ht, -⟩ | hmem
    · cases ht
    · cases hmem
  | step _ _ hstep ih => exact ih.step hstep

end HandleFenceState

/-! ## 9. The settlement phase -/

namespace SlotState

variable {s s' : SlotState} {g h k n t : Nat}

/-- A task of the settlement phase: it runs a callback drain that was submitted late, or the
    factory registered it in that phase and it is not the root of a body. -/
def Settles (s : SlotState) (t : Nat) : Prop :=
  (∃ task n submission, s.tasks[t]? = some task ∧ task.root = some n ∧
    s.submissions[n]? = some submission ∧ submission.phase = .settlement) ∨
  ((∃ task x, s.tasks[t]? = some task ∧ task.retained = some x ∧ x.phase = .settlement) ∧
    ∀ h, ¬ s.RootOf h t)

/-- `_start_submission` runs a callback drain in a context of this generation that is still in
    the body phase. -/
def exposesDrain (s : SlotState) : SlotEvent → Bool
  | .loopStep g =>
    match (s.generations g).ready with
    | .startSubmission n :: _ =>
      s.submissions[n]?.any fun submission =>
        decide (submission.phase = .settlement) &&
          (retainedOn g submission.context).any fun x => decide (x.phase = .body)
    | _ => false
  | _ => false

/-- No root of a drain is registered in the body phase. -/
def DrainsApart (s : SlotState) : Prop :=
  ∀ (t : Nat) (task : CarrierTask) (n : Nat) (submission : Submission) (x : ExecutionContext),
    s.tasks[t]? = some task → task.root = some n → s.submissions[n]? = some submission →
    submission.phase = .settlement → task.retained = some x → x.phase = .settlement

theorem length_completeTask (s : SlotState) (t : Nat) (task : CarrierTask) :
    (s.completeTask t task).tasks.length = s.tasks.length := by
  unfold SlotState.completeTask
  split
  · simp [SlotState.callSoon, SlotState.setGeneration]
  · simp

theorem length_beginSubmission (s : SlotState) (t n : Nat) :
    (s.beginSubmission t n).tasks.length = s.tasks.length := by
  unfold SlotState.beginSubmission
  split
  · rfl
  · dsimp only
    split
    · rfl
    · rfl

theorem length_firstStep (s : SlotState) (t : Nat) :
    (s.firstStep t).tasks.length = s.tasks.length := by
  unfold SlotState.firstStep
  split
  · rfl
  · split
    · exact length_completeTask s t _
    · dsimp only
      split
      · rw [length_beginSubmission]
        exact List.length_set
      · exact List.length_set

theorem length_endTask (s : SlotState) (t : Nat) (task : CarrierTask) :
    (s.endTask t task).tasks.length = s.tasks.length := by
  unfold SlotState.endTask
  split
  · rename_i n _
    rw [length_completeTask]
    unfold SlotState.finishSubmission
    split
    · rfl
    · rfl
  · exact length_completeTask s t task

theorem length_descendantDone (s : SlotState) (t : Nat) :
    (s.descendantDone t).tasks.length = s.tasks.length := by
  unfold SlotState.descendantDone
  split
  · split
    · simp [SlotState.releaseWork, SlotState.releaseReservation, SlotState.setHandle,
        SlotState.setGeneration]
    · rfl
  · rfl

/-- `_start_submission` makes the root task of its submission, unless the factory raises. -/
theorem tasks_startSubmission (s : SlotState) (g n : Nat) :
    (s.startSubmission g n).tasks = s.tasks ∨ ∃ submission, s.submissions[n]? = some submission ∧
      (s.startSubmission g n).tasks = s.tasks ++ [⟨g, retainedOn g submission.context, some n,
        s.cancelsAtCreation g submission.context, false, false, false⟩] := by
  unfold SlotState.startSubmission
  split
  · exact Or.inl rfl
  · rename_i submission hn
    split
    · exact Or.inl rfl
    · rename_i u hfactory
      exact Or.inr ⟨submission, hn, (taskFactory_effect hfactory).tasks⟩

/-- Root tasks come from `_start_submission`. -/
theorem created_root {e : SlotEvent} (hs : SlotInv s) (hstep : s.step e = some s')
    {task : CarrierTask} (ht : s'.tasks[t]? = some task) (hnone : s.tasks[t]? = none)
    (hroot : task.root = some n) :
    ∃ g rest submission, e = .loopStep g ∧
      (s.generations g).ready = .startSubmission n :: rest ∧
      s.submissions[n]? = some submission ∧ task.retained = retainedOn g submission.context := by
  have hold : s'.tasks.length ≠ s.tasks.length := by
    intro heq
    have hlt := (List.getElem?_eq_some_iff.mp ht).1
    rw [heq] at hlt
    exact absurd (List.getElem?_eq_none_iff.mp hnone) (Nat.not_le.mpr hlt)
  rcases step_cases hs hstep with
    ⟨g, rfl, -, hloop⟩ | ⟨g, context, hfactory⟩ | ⟨u, task₁, -, -, -, rfl⟩ | hquiet
  · unfold SlotState.loopStep at hloop
    split at hloop
    · cases hloop
    · rename_i call rest hready
      cases hloop
      cases call with
      | startSubmission m =>
        rcases tasks_startSubmission (s.setGeneration g { s.generations g with ready := rest }) g m
          with hsame | ⟨submission, hm, htasks⟩
        · exact absurd (congrArg List.length hsame) hold
        · change (SlotState.startSubmission _ g m).tasks[t]? = _ at ht
          rw [htasks] at ht
          rcases getElem?_append_cases ht with ⟨-, rfl⟩ | hin
          · cases hroot
            exact ⟨g, rest, submission, rfl, hready, hm, rfl⟩
          · exact nomatch (show s.tasks[t]? = some task from hin).symm.trans hnone
      | firstStep u => exact absurd (length_firstStep _ u) hold
      | cancelTasks tasks => exact absurd (frame_cancelTasks _ tasks).2.2.2 hold
      | descendantDone u => exact absurd (length_descendantDone _ u) hold
      | setSeal => exact absurd rfl hold
  · rw [(taskFactory_effect hfactory).tasks] at ht
    rcases getElem?_append_cases ht with ⟨-, rfl⟩ | hin
    · cases hroot
    · exact nomatch hin.symm.trans hnone
  · exact absurd (length_endTask s u task₁) hold
  · exact absurd (congrArg List.length hquiet.tasks) hold

/-- **Step lemma**, for the steps that start no drain in the body phase. -/
theorem DrainsApart.step (hd : DrainsApart s) {e : SlotEvent} (hs : SlotInv s)
    (hcancel : ∀ h, e ≠ .cancel h) (hok : s.exposesDrain e = false)
    (hstep : s.step e = some s') : DrainsApart s' := by
  have hr := relays_step hs hcancel hstep
  intro t task' n submission' x ht' hroot hn' hphase hx
  cases ht : s.tasks[t]? with
  | none =>
    obtain ⟨g, rest, submission, rfl, hready, hn, hretained⟩ :=
      created_root hs hstep ht' ht hroot
    obtain ⟨submission₁, hn₁, -, hphase₁⟩ := hr.submissions n submission hn
    obtain rfl : submission₁ = submission' := Option.some.inj (hn₁.symm.trans hn')
    rw [hretained] at hx
    by_contra hbody
    have hbody' : x.phase = .body := by
      cases hcase : x.phase with
      | body => rfl
      | settlement => exact absurd hcase hbody
    have hexposes : s.exposesDrain (.loopStep g) = true := by
      simp [exposesDrain, hready, hn, hphase₁.symm.trans hphase, hx, hbody']
    exact nomatch hok.symm.trans hexposes
  | some task =>
    obtain ⟨task₁, ht₁, hc⟩ := hr.tasks t task ht
    obtain rfl : task₁ = task' := Option.some.inj (ht₁.symm.trans ht')
    have hroot₀ := hc.root.symm.trans hroot
    obtain ⟨submission, hn, -⟩ := hs.roots.of_root t task n ht hroot₀
    obtain ⟨submission₁, hn₁, -, hphase₁⟩ := hr.submissions n submission hn
    obtain rfl : submission₁ = submission' := Option.some.inj (hn₁.symm.trans hn')
    exact hd t task n submission x ht hroot₀ hn (hphase₁.symm.trans hphase)
      (hc.retained.symm.trans hx)

/-- What a `cancel` is for is apart from the settlement phase. -/
theorem DrainsApart.not_named (hd : DrainsApart s) (ht : s.Settles t) (h : Nat) :
    ¬ s.Named h t := by
  rcases ht with ⟨task, n, submission, ht, hroot, hn, hphase⟩ | ⟨⟨task, x, ht, hx, hphase⟩, hnot⟩
  · rintro (⟨task₁, m, submission₁, ht₁, hroot₁, hm, -, hbody⟩ | ⟨task₁, x, ht₁, hx, -, hbody⟩)
    · obtain rfl : task = task₁ := Option.some.inj (ht.symm.trans ht₁)
      obtain rfl : n = m := Option.some.inj (hroot.symm.trans hroot₁)
      obtain rfl : submission = submission₁ := Option.some.inj (hn.symm.trans hm)
      exact nomatch hphase.symm.trans hbody
    · obtain rfl : task = task₁ := Option.some.inj (ht.symm.trans ht₁)
      exact nomatch (hd t task n submission x ht hroot hn hphase hx).symm.trans hbody
  · rintro (hroot | ⟨task₁, y, ht₁, hy, -, hbody⟩)
    · exact hnot h hroot
    · obtain rfl : task = task₁ := Option.some.inj (ht.symm.trans ht₁)
      obtain rfl : x = y := Option.some.inj (hx.symm.trans hy)
      exact nomatch hphase.symm.trans hbody

/-- **The excluded step** registers the root of a drain among the body tasks of a handle. -/
theorem settles_of_exposesDrain {e : SlotEvent} (hs : SlotInv s) (hse : Sealing s)
    (hexposes : s.exposesDrain e = true) (hstep : s.step e = some s') :
    ∃ t h, s'.Settles t ∧ s.tasks[t]? = none ∧ ∃ task x, s'.tasks[t]? = some task ∧
      task.done = false ∧ task.released = false ∧ task.retained = some x ∧ x.handle = h ∧
      x.phase = .body := by
  unfold exposesDrain at hexposes
  split at hexposes
  · rename_i g
    split at hexposes
    · rename_i n rest hready
      obtain ⟨submission, hn, hcond⟩ := (Option.any_eq_true _ _).mp hexposes
      rw [Bool.and_eq_true, decide_eq_true_eq] at hcond
      obtain ⟨hphase, hbody⟩ := hcond
      obtain ⟨x, hx, hbody⟩ := (Option.any_eq_true _ _).mp hbody
      have hfree : s.loopFree g = true := by
        by_contra hnot
        simp only [SlotState.step, hnot] at hstep
        cases hstep
      obtain ⟨submission₁, u, hn₁, -, -, hu, hstart⟩ := hs.startEffect hse hfree hready
      obtain rfl : submission = submission₁ := Option.some.inj (hn.symm.trans hn₁)
      obtain rfl := Option.some.inj (hstart.symm.trans hstep)
      have ht := (congrArg (·[s.tasks.length]?) hu.tasks).trans List.getElem?_concat_length
      exact ⟨s.tasks.length, x.handle, Or.inl ⟨_, n, _, ht, rfl, getElem?_set_self' hn, hphase⟩,
        List.getElem?_eq_none (Nat.le_refl _), _, x, ht, rfl, rfl, hx, rfl,
        of_decide_eq_true hbody⟩
    · cases hexposes
  · cases hexposes

end SlotState

namespace HandleFenceState

open SlotState

variable {s s' : HandleFenceState}

/-- A late callback drain is started in a context of the body phase. -/
def exposesDrain (s : HandleFenceState) : HandleFenceEvent → Bool
  | .slot e => s.slot.exposesDrain e
  | _ => false

theorem reachUnder_drainsApart
    (h : handleFenceSystem.ReachUnder (fun s e => s.exposesDrain e = false) s) :
    DrainsApart s.slot := by
  induction h with
  | init hinit =>
    cases hinit
    intro t task n submission x ht
    cases ht
  | @step s s' e hs hok hstep ih =>
    have hi := reachable_handleFenceInv hs.reachable
    cases e with
    | slot e =>
      obtain ⟨hcancel, hslot, -⟩ := step_slot hstep
      exact ih.step hi.ledger hcancel hok hslot
    | cancel h =>
      cases hstep
      exact ih
    | post i =>
      obtain ⟨post, -, rfl⟩ := Option.map_eq_some_iff.mp hstep
      change DrainsApart (if _ then _ else _)
      split
      · exact ih
      · exact ih

/-! ## 10. Tasks that a closed loop keeps -/

/-- The handle is cancelled and the task unfinished, but nothing will cancel it: its loop has
    been closed. -/
def Escaped (s : HandleFenceState) (h t : Nat) : Prop :=
  (s.slot.handles h).cancelRequested = true ∧ s.Unfinished h t ∧ ¬ s.Requested t ∧ s.OwnerClosed h

/-- The worker leaves a loop by an exception while a task of a cancelled handle is unfinished and
    not cancelled on it, or a handle is cancelled that has such a task on a closed loop. -/
def letsEscape (s : HandleFenceState) : HandleFenceEvent → Prop
  | .slot (.exit g) => ∃ h t, (s.slot.handles h).cancelRequested = true ∧ s.Unfinished h t ∧
      ¬ s.Requested t ∧ (s.slot.handles h).ownerLoop = some g
  | .cancel h => ∃ t, s.Unfinished h t ∧ ¬ s.Requested t ∧ s.OwnerClosed h
  | _ => False

theorem subset_ownerCancelled {e : SlotEvent} (hstep : s.step (.slot e) = some s') :
    s.ownerCancelled ⊆ s'.ownerCancelled := by
  rw [(step_slot hstep).2.2.2]
  split
  · split
    · exact Finset.subset_insert _ _
    · exact Finset.Subset.refl _
  · exact Finset.Subset.refl _

/-- **Step lemma**: a task escapes only in the steps that let one. -/
theorem Escaped.before (hi : s.HandleFenceInv) {e : HandleFenceEvent}
    (hstep : s.step e = some s') (hescape : ¬ s.letsEscape e) (he : s'.Escaped h t) :
    s.Escaped h t := by
  obtain ⟨hreq, hu, hnot, g, hloop, hclosed⟩ := he
  cases e with
  | slot e =>
    obtain ⟨hcancel, hslot, -, howner⟩ := step_slot hstep
    have hr := relays_step hi.ledger hcancel hslot
    have hreq₀ := (hr.requests h).symm.trans hreq
    rcases hu.slot hi hcancel hslot with hold | hset | ⟨hnone, task, x, ht, hx, rfl, hbody⟩
    · have hnot₀ : ¬ s.Requested t :=
        fun h => hnot (h.slot hr (subset_ownerCancelled hstep))
      -- the owner loop is the old one, and it has been closed unless this step closes it
      obtain ⟨g₀, hloop₀⟩ := hi.ownerLoop hold
      have hstays := hi.owners.ownerLoop_stays hi.ledger hi.lineage hcancel hslot hloop₀
      obtain rfl : g₀ = g := Option.some.inj (hstays.symm.trans hloop)
      refine ⟨hreq₀, hold, hnot₀, g₀, hloop₀, ?_⟩
      rcases step_lasts hi.lifecycle hi.ledger hslot with hlasts | ⟨k, hfree, hclose, he⟩
      · exact (hlasts.closed g₀).mp hclosed
      · rw [hclose, generations_closeGeneration] at hclosed
        split at hclosed
        · rename_i hk
          subst hk
          rcases he with ⟨-, hdraining⟩ | rfl
          · have hzero := (hi.sealing.generation g₀).idle (running_of_loopFree hfree)
              (by rw [hdraining]; rfl)
            have hres := hi.reserved hold hloop₀
            rw [SlotState.reservations, hzero] at hres
            cases hres
          · exact absurd ⟨h, t, hreq₀, hold, hnot₀, hloop₀⟩ hescape
        · exact hclosed
    · refine absurd (Or.inr ?_) hnot
      rw [howner, hset]
      dsimp only
      rw [if_pos hreq₀]
      exact Finset.mem_insert_self _ _
    · exact absurd (Or.inl ⟨task, ht, (hr.created t task ht hnone).2 x hx hbody hreq₀⟩) hnot
  | cancel k =>
    cases hstep
    obtain ⟨task, ht, hlive, hown⟩ := hu
    have hold : s.Unfinished h t :=
      ⟨task, ht, hlive, hown.imp_right ((handles_requestCancel s.slot k h).1.symm.trans ·)⟩
    have hloop₀ : (s.slot.handles h).ownerLoop = some g :=
      (handles_requestCancel s.slot k h).2.1.symm.trans hloop
    by_cases hk : h = k
    · subst hk
      exact absurd ⟨t, hold, hnot, g, hloop₀, hclosed⟩ hescape
    · have hreq' : ((s.slot.requestCancel k).handles h).cancelRequested = true := hreq
      rw [(handles_requestCancel s.slot k h).2.2.2.2, if_neg hk] at hreq'
      exact ⟨hreq', hold, hnot, g, hloop₀, hclosed⟩
  | post i =>
    obtain ⟨post, -, rfl⟩ := Option.map_eq_some_iff.mp hstep
    by_cases hrun : (s.slot.generations post.loop).running = true
    · simp only [Unfinished, Requested, if_pos hrun] at hreq hu hnot hloop hclosed
      have hturns := turns_callSoon s.slot post.loop (.cancelTasks post.tasks)
      exact ⟨hreq, hu, hnot, g, hloop, (hturns.generations g).closed_iff.mp hclosed⟩
    · simp only [Unfinished, Requested, if_neg hrun] at hreq hu hnot hloop hclosed
      exact ⟨hreq, hu, hnot, g, hloop, hclosed⟩

theorem reachUnder_not_escaped
    (h : handleFenceSystem.ReachUnder (fun s e => ¬ s.letsEscape e) s) :
    ∀ k t, ¬ s.Escaped k t := by
  apply h.invariant_of (I := fun s => ∀ k t, ¬ s.Escaped k t) (J := HandleFenceInv)
  · exact fun _ ht => reachable_handleFenceInv ht.reachable
  · rintro _ rfl k t ⟨hreq, -⟩
    cases hreq
  · intro s e s' hi hnot hescape hstep k t he
    exact hnot k t (he.before hi hstep hescape)

/-- **The excluded step** lets a task escape. -/
theorem escaped_of_letsEscape {e : HandleFenceEvent} (hescape : s.letsEscape e)
    (hstep : s.step e = some s') : ∃ h t, s'.Escaped h t := by
  cases e with
  | slot e =>
    cases e with
    | exit g =>
      obtain ⟨h, t, hreq, hu, hnot, hloop⟩ := hescape
      obtain ⟨-, hslot, -, howner⟩ := step_slot hstep
      obtain ⟨-, hclose⟩ := when_eq_some hslot
      refine ⟨h, t, ?_⟩
      unfold Escaped Unfinished Requested OwnerClosed
      rw [howner, hclose]
      refine ⟨hreq, hu, hnot, g, hloop, ?_⟩
      rw [generations_closeGeneration, if_pos rfl]
    | _ => cases hescape
  | cancel h =>
    obtain ⟨t, ⟨task, ht, hlive, hown⟩, hnot, g, hloop, hclosed⟩ := hescape
    cases hstep
    obtain ⟨htask, hloop', -, -, hreq⟩ := handles_requestCancel s.slot h h
    refine ⟨h, t, ?_, ⟨task, ht, hlive, hown.imp_right (htask.trans ·)⟩, hnot, g,
      hloop'.trans hloop, hclosed⟩
    exact hreq.trans (if_pos rfl)
  | post i => cases hescape

/-! ## 11. The fence -/

/-- What a task is registered or recorded for when its handle is cancelled already. -/
theorem HandleFenceInv.created (hi : s.HandleFenceInv) {e : SlotEvent}
    (hstep : s.step (.slot e) = some s') {t : Nat} {task : CarrierTask} {x : ExecutionContext}
    (ht : s'.slot.tasks[t]? = some task) (hnone : s.slot.tasks[t]? = none)
    (hx : task.retained = some x) (hbody : x.phase = .body)
    (hreq : (s.slot.handles x.handle).cancelRequested = true) : task.cancelled = true := by
  obtain ⟨hcancel, hslot, -⟩ := step_slot hstep
  exact ((relays_step hi.ledger hcancel hslot).created t task ht hnone).2 x hx hbody hreq

theorem ownerCancelled_of_setsOwner {e : SlotEvent} (hstep : s.step (.slot e) = some s')
    {h t : Nat} (hset : s.slot.setsOwner e = some (h, t))
    (hreq : (s.slot.handles h).cancelRequested = true) : s'.Requested t := by
  obtain ⟨-, -, -, howner⟩ := step_slot hstep
  right
  rw [howner, hset]
  dsimp only
  rw [if_pos hreq]
  exact Finset.mem_insert_self _ _

end HandleFenceState

open SlotState HandleFenceState in
/-- **Cancellation fence of a handle.**  In every run in which no task escapes to a closed loop,
    once `cancel` has set the request, each unfinished body task of the handle has been cancelled,
    or is named by a `_cancel_tasks` that is queued on its owner loop or that the `cancel` is about
    to post there, and that loop is open.  In every run a body task registered or an owner
    recorded after the request is cancelled at once.  In every run in which no late callback drain
    is started in a context of the body phase, no task of the settlement phase is cancelled or
    named.  A step that does start one registers the root of the drain among the unfinished body
    tasks of a handle, so that the request of that handle reaches it, at once if it is there
    already; a step that lets a task escape leaves it unfinished, not cancelled, and on a closed
    loop. -/
theorem handle_cancellation_fence (s : HandleFenceState) :
    (handleFenceSystem.ReachUnder (fun s e => ¬ s.letsEscape e) s →
      ∀ h, (s.slot.handles h).cancelRequested = true → ∀ t, s.Unfinished h t →
        s.Requested t ∨ (s.Queued h t ∨ s.Posting h t) ∧
          ∃ g, (s.slot.handles h).ownerLoop = some g ∧ (s.slot.generations g).running = true) ∧
    (handleFenceSystem.Reachable s →
      ∀ e s', handleFenceSystem.step s (.slot e) = some s' →
        (∀ (t : Nat) (task : CarrierTask) (x : ExecutionContext),
          s'.slot.tasks[t]? = some task → s.slot.tasks[t]? = none → task.retained = some x →
          x.phase = .body → (s.slot.handles x.handle).cancelRequested = true →
          task.cancelled = true) ∧
        ∀ h t, s.slot.setsOwner e = some (h, t) →
          (s.slot.handles h).cancelRequested = true → s'.Requested t) ∧
    (handleFenceSystem.ReachUnder (fun s e => s.exposesDrain e = false) s →
      ∀ t, s.slot.Settles t → ¬ s.Requested t ∧ (∀ h, ¬ s.Posting h t) ∧
        ∀ g tasks, .cancelTasks tasks ∈ (s.slot.generations g).ready → t ∉ tasks) ∧
    (∀ s' e, handleFenceSystem.Reachable s → s.exposesDrain e = true →
      handleFenceSystem.step s e = some s' →
      ∃ h t, s'.slot.Settles t ∧ s'.Unfinished h t ∧
        ((s'.slot.handles h).cancelRequested = true → s'.Requested t)) ∧
    ∀ s' e, handleFenceSystem.Reachable s → s.letsEscape e →
      handleFenceSystem.step s e = some s' →
      ∃ h t, (s'.slot.handles h).cancelRequested = true ∧ s'.Unfinished h t ∧ ¬ s'.Requested t ∧
        ∀ g, (s'.slot.handles h).ownerLoop = some g → (s'.slot.generations g).running = false := by
  refine ⟨fun hreach h hreq t hu => ?_, fun hreach e s' hstep => ?_, fun hreach t hsettles => ?_,
    fun s' e hreach hexposes hstep => ?_, fun s' e hreach hescape hstep => ?_⟩
  · have hi := reachable_handleFenceInv hreach.reachable
    by_cases hrequested : s.Requested t
    · exact Or.inl hrequested
    · have hopen : ¬ s.OwnerClosed h :=
        fun hclosed => reachUnder_not_escaped hreach h t ⟨hreq, hu, hrequested, hclosed⟩
      obtain ⟨g, hloop⟩ := hi.ownerLoop hu
      have hrun : (s.slot.generations g).running = true :=
        (hi.ownerRan (hi.named hu) hloop).resolve_right fun hclosed => hopen ⟨g, hloop, hclosed⟩
      rcases hi.covered h hreq t hu with hr | hqueued | hposting | hclosed
      · exact absurd hr hrequested
      · exact Or.inr ⟨Or.inl hqueued, g, hloop, hrun⟩
      · exact Or.inr ⟨Or.inr hposting, g, hloop, hrun⟩
      · exact absurd hclosed hopen
  · have hi := reachable_handleFenceInv hreach
    exact ⟨fun t task x => hi.created hstep, fun h t => ownerCancelled_of_setsOwner hstep⟩
  · have hi := reachable_handleFenceInv hreach.reachable
    have hnot := (reachUnder_drainsApart hreach).not_named hsettles
    refine ⟨fun hreq => ?_, fun h hposting => ?_, fun g tasks hmem hin => ?_⟩
    · obtain ⟨h, -, hnamed⟩ := hi.requested t hreq
      exact hnot h hnamed
    · obtain ⟨post, hpost, -, hin⟩ := hposting
      exact hnot _ ((hi.posting post hpost).2.2 t hin)
    · obtain ⟨h, -, hall⟩ := hi.queued g tasks hmem
      exact hnot h (hall t hin)
  · have hi := reachable_handleFenceInv hreach
    cases e with
    | slot e =>
      obtain ⟨hcancel, hslot, -⟩ := step_slot hstep
      obtain ⟨t, h, hsettles, hnone, task, x, ht, hlive, hreleased, hx, rfl, hbody⟩ :=
        settles_of_exposesDrain hi.ledger hi.sealing hexposes hslot
      refine ⟨x.handle, t, hsettles, ⟨task, ht, hlive,
        Or.inl (ownsInBody_of_spec hx rfl hbody hreleased)⟩, fun hreq => ?_⟩
      rw [(relays_step hi.ledger hcancel hslot).requests] at hreq
      exact Or.inl ⟨task, ht, hi.created hstep ht hnone hx hbody hreq⟩
    | cancel h => cases hexposes
    | post i => cases hexposes
  · have hi' := reachable_handleFenceInv (.step hreach trivial hstep)
    obtain ⟨h, t, hreq, hu, hnot, g, hloop, hclosed⟩ :=
      escaped_of_letsEscape hescape hstep
    refine ⟨h, t, hreq, hu, hnot, fun k hk => ?_⟩
    obtain rfl : g = k := Option.some.inj (hloop.symm.trans hk)
    by_contra hrun
    exact (hi'.lifecycle.running g (by simpa using hrun)).2.1 hclosed

/-- A body starts a descendant and returns; the descendant registers a callback, whose drain is
    submitted late; then the handle is cancelled. -/
def lateDrainCancelled : List HandleFenceEvent :=
  [.slot (.submit none 0 .body none), .slot (.runGeneration 0), .slot (.queueTaken 0),
    .slot (.loopStep 0), .slot (.loopStep 0), .slot (.createTask 0 (some (0, false))),
    .slot (.loopStep 0), .slot (.endTask 0),
    .slot (.submit (some 0) 0 .settlement (some (0, false))), .slot (.loopStep 0),
    .slot (.loopStep 0), .cancel 0, .post 0, .slot (.loopStep 0)]

/-- At the end of `lateDrainCancelled` the task that runs the callback has been cancelled. -/
theorem late_drain_receives_request :
    ∃ s t, handleFenceSystem.Reachable s ∧ s.slot.Settles t ∧ s.Requested t := by
  refine ⟨_, 2, System.reachable_of_run lateDrainCancelled rfl rfl, Or.inl ?_, Or.inl ?_⟩
  · exact ⟨_, 1, _, rfl, rfl, rfl, rfl⟩
  · exact ⟨_, rfl, rfl⟩

end AgentlyStage
