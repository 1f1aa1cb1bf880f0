import AgentlyStage.TunnelDelivery
import AgentlyStage.Lib.Grouping

/-!
# The waiters of async readers

What `__anext__` adds to the tunnel: a waiter is a future of the loop of its reader, registered in
`_async_waiters` in the same critical section that finds nothing to deliver.  A put, a close, a
fail or the close of a subscription removes all waiters and posts their resolution to their loops,
one callback for each waiter or one for each loop.  The callbacks run later, after cancellations
and timeouts that may have come in between, and never on a loop that has been closed.

The order in which a notification meets the waiters is that of a set, hence any order.
-/

namespace AgentlyStage

open Transition

/-! ## 1. Owner loops -/

inductive WakeMode where
  | individual
  | grouped
deriving DecidableEq, Repr

inductive WaiterFuture where
  | pending
  | resolved
  | cancelled
deriving DecidableEq, Repr

/-- A callback that `call_soon_threadsafe` has queued. -/
inductive WakeCallback where
  | resolveWaiter (future : Nat)
  | resolveGroup (futures : List Nat)
deriving DecidableEq, Repr

def WakeCallback.futures : WakeCallback → List Nat
  | .resolveWaiter future => [future]
  | .resolveGroup futures => futures

/-- A loop that is closed drops its callbacks. -/
inductive OwnerLoop where
  | running (ready : List WakeCallback)
  | closed
deriving DecidableEq, Repr

/-- `call_soon_threadsafe`; its `RuntimeError` on a closed loop is passed over. -/
def OwnerLoop.callSoon (callback : WakeCallback) : OwnerLoop → OwnerLoop
  | .running ready => .running (ready ++ [callback])
  | .closed => .closed

def OwnerLoop.isRunning : OwnerLoop → Bool
  | .running _ => true
  | .closed => false

/-- The futures that the queued callbacks will resolve. -/
def OwnerLoop.queue : OwnerLoop → List Nat
  | .running ready => ready.flatMap WakeCallback.futures
  | .closed => []

/-- The loops and the futures made on them; `resolutions` logs the calls of `set_result`. -/
structure OwnerLoops where
  loops : List OwnerLoop := []
  futures : List WaiterFuture := []
  resolutions : List Nat := []
deriving DecidableEq, Repr

namespace OwnerLoops

variable (o : OwnerLoops)

def isRunning (l : Nat) : Bool := (o.loops[l]?).any OwnerLoop.isRunning

def queue (l : Nat) : List Nat := (o.loops[l]?).elim [] OwnerLoop.queue

def createFuture : OwnerLoops := { o with futures := o.futures ++ [.pending] }

/-- `future.cancel()`. -/
def cancel (f : Nat) : OwnerLoops :=
  if o.futures[f]? = some .pending then { o with futures := o.futures.set f .cancelled } else o

/-- `_resolve_waiter`. -/
def resolve (f : Nat) : OwnerLoops :=
  if o.futures[f]? = some .pending then
    { o with futures := o.futures.set f .resolved, resolutions := o.resolutions ++ [f] }
  else o

/-- `_resolve_group`. -/
def resolveGroup (fs : List Nat) : OwnerLoops := fs.foldl resolve o

def callSoon (call : Nat × WakeCallback) : OwnerLoops :=
  { o with loops := o.loops.modify call.1 (OwnerLoop.callSoon call.2) }

/-- The loop runs its first callback. -/
def runCallback (l : Nat) : Option OwnerLoops :=
  match o.loops[l]? with
  | some (.running (callback :: ready)) =>
    some ({ o with loops := o.loops.set l (.running ready) }.resolveGroup callback.futures)
  | _ => none

/-- It runs them all. -/
def drain (l : Nat) : OwnerLoops :=
  match o.loops[l]? with
  | some (.running ready) =>
    ready.foldl (fun o callback => o.resolveGroup callback.futures)
      { o with loops := o.loops.set l (.running []) }
  | _ => o

def newLoop : OwnerLoops := { o with loops := o.loops ++ [.running []] }

def closeLoop (l : Nat) : OwnerLoops := { o with loops := o.loops.set l .closed }

end OwnerLoops

/-! ## 2. Waiters -/

/-- `_AsyncWaiter`, with the read it belongs to; its future has its number. -/
structure AsyncWaiter where
  loop : Nat
  read : Nat
deriving DecidableEq, Repr

/-- The task of a read, and the last future it has awaited. -/
structure ReaderTask where
  loop : Nat
  future : Option Nat := none
deriving DecidableEq, Repr

structure WaiterState (α ε : Type) where
  /-- The tunnel with its subscriptions and their reads. -/
  state : TunnelState α ε
  wakeMode : WakeMode
  /-- The task of each read. -/
  tasks : List ReaderTask := []
  /-- All waiters that have been made. -/
  made : List AsyncWaiter := []
  asyncWaiters : List Nat := []
  owners : OwnerLoops := {}
  /-- The waiters that notifications have removed. -/
  notified : List Nat := []
deriving DecidableEq, Repr

/-- The events carry the order in which a notification meets the waiters. -/
inductive WaiterEvent (α ε : Type) where
  | put (data : α) (order : List Nat)
  | close (order : List Nat)
  | fail (error : ε) (order : List Nat)
  | closeSubscription (i : Nat) (order : List Nat)
  | subscribe (start : TunnelStart) (timeout : Option (Option Int))
  | beginRead (i : Nat) (mode : ReadMode) (l : Nat)
  | look (r : Nat)
  /-- The wait of a sync read ends. -/
  | wake (r : Nat)
  /-- The task of an async read goes on: its future is resolved. -/
  | resume (r : Nat)
  | expire (r : Nat)
  | cancelRead (r : Nat)
  /-- The `finally` clause of a read that has ended while it waited. -/
  | leave (r : Nat)
  | runCallback (l : Nat)
  | newLoop
  | closeLoop (l : Nat)
  | advance (time : Nat)

namespace WaiterState

variable {α ε : Type} (s : WaiterState α ε)

def loopOf (f : Nat) : Nat := (s.made[f]?).elim 0 AsyncWaiter.loop

/-- The calls of `call_soon_threadsafe`. -/
def wakeCalls (order : List Nat) : WakeMode → List (Nat × WakeCallback)
  | .individual => order.map fun f => (s.loopOf f, .resolveWaiter f)
  | .grouped =>
    (Grouping.groupBy s.loopOf order).map fun group => (group.1, .resolveGroup group.2)

/-- `_wake_waiters_locked`. -/
def wakeWaiters (order : List Nat) : WaiterState α ε :=
  { s with
    asyncWaiters := []
    owners := (s.wakeCalls order s.wakeMode).foldl OwnerLoops.callSoon s.owners
    notified := s.notified ++ order }

/-- A critical section that leaves the tunnel as `state`, and wakes the readers or not. -/
def notify (state : TunnelState α ε) (wakes : Bool) (order : List Nat) :
    Option (WaiterState α ε) :=
  if wakes then
    if order.Perm s.asyncWaiters then some ({ s with state := state }.wakeWaiters order) else none
  else some { s with state := state }

/-- `close` of a subscription that has ended wakes nobody. -/
def closeSubscription (i : Nat) (order : List Nat) : Option (WaiterState α ε) :=
  match s.state.subscribers[i]? with
  | some u =>
    (s.state.closeSubscription i).bind fun state =>
      s.notify state (!u.subscription.terminated) order
  | none => none

def beginRead (i : Nat) (mode : ReadMode) (l : Nat) : Option (WaiterState α ε) :=
  if mode = .sync ∨ s.owners.isRunning l = true then
    (s.state.beginRead i mode).map fun state =>
      { s with state := state, tasks := s.tasks ++ [{ loop := l }] }
  else none

/-- An async read that finds nothing registers a new waiter. -/
def register (r : Nat) (task : ReaderTask) : WaiterState α ε :=
  { s with
    tasks := s.tasks.set r { task with future := some s.made.length }
    made := s.made ++ [⟨task.loop, r⟩]
    asyncWaiters := s.asyncWaiters ++ [s.made.length]
    owners := s.owners.createFuture }

def look (r : Nat) : Option (WaiterState α ε) :=
  match s.state.reads[r]?, s.tasks[r]? with
  | some read, some task =>
    (s.state.look r).bind fun state =>
      if read.mode = .sync then some { s with state := state }
      else if s.owners.isRunning task.loop then
        if (state.reads[r]?).any fun read => decide (read.phase = .waiting) then
          some ({ s with state := state }.register r task)
        else some { s with state := state }
      else none
  | _, _ => none

def wake (r : Nat) : Option (WaiterState α ε) :=
  match s.state.reads[r]? with
  | some read =>
    if read.mode = .sync then (s.state.wake r).map fun state => { s with state := state } else none
  | none => none

/-- The `await` of `task` returns, and its `finally` clause is run. -/
def resume (r : Nat) : Option (WaiterState α ε) :=
  match s.tasks[r]? with
  | some ⟨l, some f⟩ =>
    if s.owners.isRunning l = true ∧ s.owners.futures[f]? = some .resolved then
      (s.state.wake r).map fun state =>
        { s with state := state, asyncWaiters := s.asyncWaiters.erase f }
    else none
  | _ => none

def expire (r : Nat) : Option (WaiterState α ε) :=
  match s.tasks[r]? with
  | some ⟨l, some f⟩ =>
    if s.owners.isRunning l then
      (s.state.expire r).map fun state => { s with state := state, owners := s.owners.cancel f }
    else none
  | _ => none

/-- Without a timeout the task awaits the future itself, which is cancelled with it. -/
def cancelRead (r : Nat) : Option (WaiterState α ε) :=
  match s.state.reads[r]?, s.tasks[r]? with
  | some read, some ⟨_, some f⟩ =>
    (s.state.cancelRead r).map fun state =>
      { s with
        state := state
        owners := if (s.state.subscribers[read.subscription]?).any
            fun u => u.subscription.timeout.isNone then s.owners.cancel f else s.owners }
  | _, _ => none

def leave (r : Nat) : Option (WaiterState α ε) :=
  match s.state.reads[r]?, s.tasks[r]? with
  | some read, some ⟨_, some f⟩ =>
    if read.phase = .done then some { s with asyncWaiters := s.asyncWaiters.erase f } else none
  | _, _ => none

def step : WaiterEvent α ε → Option (WaiterState α ε)
  | .put data order => s.notify (s.state.put data) (!s.state.tunnel.terminal) order
  | .close order =>
    s.notify { s.state with tunnel := s.state.tunnel.close } (!s.state.tunnel.terminal) order
  | .fail error order =>
    s.notify { s.state with tunnel := s.state.tunnel.fail error } (!s.state.tunnel.terminal) order
  | .closeSubscription i order => s.closeSubscription i order
  | .subscribe start timeout => some { s with state := s.state.subscribe start timeout }
  | .beginRead i mode l => s.beginRead i mode l
  | .look r => s.look r
  | .wake r => s.wake r
  | .resume r => s.resume r
  | .expire r => s.expire r
  | .cancelRead r => s.cancelRead r
  | .leave r => s.leave r
  | .runCallback l => (s.owners.runCallback l).map fun owners => { s with owners := owners }
  | .newLoop => some { s with owners := s.owners.newLoop }
  | .closeLoop l => some { s with owners := s.owners.closeLoop l }
  | .advance time => some { s with state := { s.state with now := s.state.now + time } }

end WaiterState

variable {α ε : Type}

/-- The runs of a new tunnel in a wake mode. -/
def waiterSystem (α ε : Type) (timeout : Option Int) (maxHistory : Option Nat)
    (wakeMode : WakeMode) : System (WaiterState α ε) (WaiterEvent α ε) where
  Init s := ∃ tunnel, Tunnel.new timeout maxHistory = .ok tunnel ∧
    s = { state := { tunnel := tunnel }, wakeMode := wakeMode }
  step s := s.step

/-! ## 3. What is claimed -/

/-- The read of a subscription that stands at the live edge of an open tunnel, and that no `close`
    has ended. -/
def TunnelState.AtEdge (s : TunnelState α ε) (r : Nat) : Prop :=
  ∃ read u, s.reads[r]? = some read ∧ s.subscribers[read.subscription]? = some u ∧
    u.subscription.cursor = s.tunnel.nextSequence ∧ s.tunnel.terminal = false ∧ u.closed = false

namespace WaiterState

variable (s : WaiterState α ε)

/-- Resolved, or its resolution is queued on its own loop, unless that loop is closed or the waiter
    was cancelled. -/
def Told (f : Nat) : Prop :=
  s.owners.futures[f]? = some .resolved ∨ f ∈ s.owners.queue (s.loopOf f) ∨
    s.owners.loops[s.loopOf f]? = some .closed ∨ s.owners.futures[f]? = some .cancelled

structure NoLostWakeup : Prop where
  registered : ∀ f ∈ s.asyncWaiters, ∃ waiter, s.made[f]? = some waiter ∧
    s.state.AtEdge waiter.read
  told : ∀ f ∈ s.notified, s.Told f
  once : s.owners.resolutions.Nodup
  /-- A reader that waits is registered, or has been notified and not been cancelled. -/
  waiting : ∀ (r : Nat) (read : TunnelRead), s.state.reads[r]? = some read → read.mode = .async →
    read.phase = .waiting → ∃ f waiter, s.made[f]? = some waiter ∧ waiter.read = r ∧
      s.owners.futures[f]? ≠ some .cancelled ∧ (f ∈ s.asyncWaiters ∨ f ∈ s.notified)

/-- The futures after a notification in a mode, when the loops of `ls` have run what is queued. -/
def resolvedIn (wakeMode : WakeMode) (order ls : List Nat) : List WaiterFuture :=
  (ls.foldl OwnerLoops.drain ({ s with wakeMode := wakeMode }.wakeWaiters order).owners).futures

end WaiterState

/-! ## 4. Reads of the tunnel -/

namespace Tunnel

variable {t : Tunnel α ε} {sub : TunnelSubscription} {accepted : List α}

theorem look_none (hr : t.Retains accepted) (h : t.look sub = none) :
    sub.terminated = false ∧ accepted.length ≤ sub.cursor ∧ t.terminal = false := by
  unfold look at h
  split at h
  · cases h
  · rename_i hrunning
    split at h
    · cases h
    · rename_i hlag
      split at h
      · cases h
      · rename_i hitem
        split at h
        · cases h
        · rename_i hfailure
          split at h
          · cases h
          · rename_i hclosed
            rw [hr.getElem? (Nat.le_of_not_lt hlag), List.getElem?_eq_none_iff] at hitem
            exact ⟨by simpa using hrunning, hitem, by simp [terminal, hfailure, hclosed]⟩

/-- At the live edge of an open tunnel a look finds nothing, or an ended subscription. -/
theorem look_at_edge (hr : t.Retains accepted) (hcursor : sub.cursor = t.nextSequence)
    (hopen : t.terminal = false) {outcome : ReadOutcome α ε} {sub' : TunnelSubscription}
    (h : t.look sub = some (outcome, sub')) : sub' = sub := by
  have hnext := hr.next
  have hbase := hr.base
  rw [terminal, Bool.or_eq_false_iff] at hopen
  rcases look_cases hr h with ⟨-, -, hsame⟩ | ⟨-, ⟨-, hlag, -⟩ | ⟨-, hrest⟩⟩
  · exact hsame
  · omega
  · rcases hrest with ⟨item, -, hitem, -⟩ | ⟨-, -, ⟨error, -, hfailure⟩ | ⟨-, hclosed⟩⟩
    · rw [List.getElem?_eq_none (by omega)] at hitem
      cases hitem
    · rw [hfailure] at hopen
      cases hopen.2
    · rw [hclosed] at hopen
      cases hopen.1

end Tunnel

namespace TunnelState

variable {s s' : TunnelState α ε} {i r : Nat}

/-- A step of the read `r`: it leaves the tunnel as it is, and a subscription at the live edge where
    it is. -/
structure ReadStep (s s' : TunnelState α ε) (r : Nat) (read read' : TunnelRead) : Prop where
  tunnel : s'.tunnel = s.tunnel
  at_read : s.reads[r]? = some read
  reads : s'.reads = s.reads.set r read'
  subscription : read'.subscription = read.subscription
  mode : read'.mode = read.mode
  subscribers : ∀ (i : Nat) (u : Subscriber α ε), s.subscribers[i]? = some u →
    u.subscription.cursor = s.tunnel.nextSequence → s.tunnel.terminal = false →
    ∃ u', s'.subscribers[i]? = some u' ∧ u'.subscription.cursor = u.subscription.cursor ∧
      u'.closed = u.closed

theorem ReadStep.setRead {read read' : TunnelRead} (h : s.reads[r]? = some read)
    (hsubscription : read'.subscription = read.subscription) (hmode : read'.mode = read.mode) :
    s.ReadStep (s.setRead r read') r read read' :=
  ⟨rfl, h, rfl, hsubscription, hmode, fun _ u hu _ _ => ⟨u, hu, rfl, rfl⟩⟩

theorem ReadStep.answer {read : TunnelRead} (h : s.reads[r]? = some read) {u : Subscriber α ε}
    (hu : s.subscribers[read.subscription]? = some u) {outcome : ReadOutcome α ε}
    {sub : TunnelSubscription}
    (hsub : u.subscription.cursor = s.tunnel.nextSequence → s.tunnel.terminal = false →
      sub.cursor = u.subscription.cursor) :
    s.ReadStep (s.answer r read u outcome sub) r read { read with phase := .done } := by
  refine ⟨rfl, h, rfl, rfl, rfl, fun i v hv hcursor hopen => ?_⟩
  by_cases hi : i = read.subscription
  · subst hi
    rw [hu] at hv
    cases hv
    exact ⟨_, getElem?_set_self' hu, hsub hcursor hopen, rfl⟩
  · refine ⟨v, ?_, rfl, rfl⟩
    rw [← hv]
    exact List.getElem?_set_ne (Ne.symm hi)

theorem ReadStep.atEdge {read read' : TunnelRead} (h : s.ReadStep s' r read read') {r' : Nat}
    (hedge : s.AtEdge r') : s'.AtEdge r' := by
  obtain ⟨other, u, hother, hu, hcursor, hopen, hclosed⟩ := hedge
  obtain ⟨u', hu', hcursor', hclosed'⟩ := h.subscribers _ u hu hcursor hopen
  have hrest : u'.subscription.cursor = s'.tunnel.nextSequence ∧ s'.tunnel.terminal = false ∧
      u'.closed = false := by
    rw [h.tunnel]
    exact ⟨hcursor'.trans hcursor, hopen, hclosed'.trans hclosed⟩
  by_cases hr : r' = r
  · subst hr
    have hsame : read = other := Option.some.inj (h.at_read.symm.trans hother)
    refine ⟨read', u', ?_, ?_, hrest⟩
    · rw [h.reads]
      exact getElem?_set_self' h.at_read
    · rwa [h.subscription, hsame]
  · refine ⟨other, u', ?_, hu', hrest⟩
    rw [h.reads, List.getElem?_set_ne (Ne.symm hr)]
    exact hother

theorem wake_step (h : s.wake r = some s') :
    ∃ read read', s.ReadStep s' r read read' ∧ read.phase = .waiting ∧ read'.phase = .looking := by
  unfold wake at h
  split at h
  · rename_i read hread
    split at h
    · rename_i hphase
      cases h
      exact ⟨read, _, .setRead hread rfl rfl, hphase, rfl⟩
    · cases h
  · cases h

theorem expire_step (h : s.expire r = some s') :
    ∃ read read', s.ReadStep s' r read read' ∧ read.phase = .waiting ∧ read'.phase = .done := by
  unfold expire at h
  split at h
  · rename_i read hread
    split at h
    · rename_i u hu
      split at h
      · rename_i hguard
        cases h
        rw [Bool.and_eq_true, Bool.and_eq_true] at hguard
        exact ⟨read, _, .answer hread hu fun _ _ => rfl, of_decide_eq_true hguard.1.1, rfl⟩
      · cases h
    · cases h
  · cases h

theorem cancelRead_step (h : s.cancelRead r = some s') :
    ∃ read read', s.ReadStep s' r read read' ∧ read.phase = .waiting ∧ read'.phase = .done := by
  unfold cancelRead at h
  split at h
  · rename_i read hread
    split at h
    · rename_i hguard
      cases h
      rw [Bool.and_eq_true] at hguard
      exact ⟨read, _, .setRead hread rfl rfl, of_decide_eq_true hguard.1, rfl⟩
    · cases h
  · cases h

/-- `close` has terminated the subscriptions it has ended. -/
def ClosedEnded (s : TunnelState α ε) : Prop :=
  ∀ (i : Nat) (u : Subscriber α ε), s.subscribers[i]? = some u → u.closed = true →
    u.subscription.terminated = true

/-- A look ends the read, or finds it at the live edge. -/
theorem look_step (hs : s.Serves) (hclosed : s.ClosedEnded) (h : s.look r = some s') :
    ∃ read read', s.ReadStep s' r read read' ∧ read.phase = .looking ∧
      (read'.phase = .done ∨ read'.phase = .waiting ∧ s'.AtEdge r) := by
  unfold look at h
  split at h
  · rename_i read hread
    split at h
    · rename_i u hu
      split at h
      · rename_i hphase
        split at h
        · rename_i outcome sub hlook
          cases h
          refine ⟨read, _, .answer hread hu fun hcursor hopen => ?_, hphase, Or.inl rfl⟩
          rw [Tunnel.look_at_edge hs.retains hcursor hopen hlook]
        · rename_i hlook
          obtain ⟨hrunning, hbehind, hopen⟩ := Tunnel.look_none hs.retains hlook
          have hcursor : u.subscription.cursor = s.tunnel.nextSequence := by
            have := hs.cursor_le hu
            rw [hs.retains.next]
            omega
          have hedge : s.AtEdge r := by
            refine ⟨read, u, hread, hu, hcursor, hopen, ?_⟩
            by_contra hnot
            rw [hclosed _ u hu (by simpa using hnot)] at hrunning
            cases hrunning
          split at h
          · split at h
            · cases h
              exact ⟨read, _, .answer hread hu fun _ _ => rfl, hphase, Or.inl rfl⟩
            · cases h
              have hstep : s.ReadStep (s.setRead r { read with phase := .waiting }) r read
                  { read with phase := .waiting } := .setRead hread rfl rfl
              exact ⟨read, _, hstep, hphase, Or.inr ⟨rfl, hstep.atEdge hedge⟩⟩
          · cases h
            have hstep : s.ReadStep (s.setRead r
                { read with
                  phase := .waiting
                  deadline := u.subscription.timeout.map (s.now + ·) }) r read
                { read with
                  phase := .waiting
                  deadline := u.subscription.timeout.map (s.now + ·) } := .setRead hread rfl rfl
            exact ⟨read, _, hstep, hphase, Or.inr ⟨rfl, hstep.atEdge hedge⟩⟩
      · cases h
    · cases h
  · cases h

theorem ClosedEnded.effect (hs : s.ClosedEnded) (h : s.Effect s') :
    s'.ClosedEnded := by
  intro i u hu hclosed
  cases h with
  | idle ht ha hsubs =>
    rw [hsubs] at hu
    exact hs i u hu hclosed
  | put data ht ha hsubs =>
    rw [hsubs] at hu
    exact hs i u hu hclosed
  | terminal hopen ht ha hsubs =>
    rw [hsubs] at hu
    exact hs i u hu hclosed
  | subscribe start timeout sub hsub ht ha hsubs =>
    rw [hsubs] at hu
    rcases getElem?_append_cases hu with ⟨-, rfl⟩ | hold
    · cases hclosed
    · exact hs i u hold hclosed
  | read j v outcome sub hv hlook ht ha hsubs =>
    rw [hsubs] at hu
    rcases getElem?_set_cases hv hu with ⟨-, rfl⟩ | ⟨-, hold⟩
    · have hended := hs j v hv hclosed
      rcases hlook with hlook | ⟨-, rfl⟩
      · rw [Tunnel.look, if_pos hended] at hlook
        cases hlook
        exact hended
      · rfl
    · exact hs i u hold hclosed
  | closed j v hv hopen ht ha hsubs =>
    rw [hsubs] at hu
    rcases getElem?_set_cases hv hu with ⟨-, rfl⟩ | ⟨-, hold⟩
    · rfl
    · exact hs i u hold hclosed

end TunnelState

/-! ## 5. What the loops do to the futures -/

namespace OwnerLoops

variable {o o' : OwnerLoops} {f l : Nat}

/-- A future that is done stays as it is. -/
def Advances (o o' : OwnerLoops) : Prop :=
  ∀ (f : Nat) (future : WaiterFuture), o.futures[f]? = some future → future ≠ .pending →
    o'.futures[f]? = some future

theorem Advances.refl (o : OwnerLoops) : o.Advances o := fun _ _ h _ => h

theorem Advances.trans {o'' : OwnerLoops} (h : o.Advances o') (h' : o'.Advances o'') :
    o.Advances o'' :=
  fun f future hf hdone => h' f future (h f future hf hdone) hdone

theorem Advances.resolved (h : o.Advances o') (hf : o.futures[f]? = some .resolved) :
    o'.futures[f]? = some .resolved :=
  h f _ hf fun h => by cases h

theorem Advances.cancelled (h : o.Advances o') (hf : o.futures[f]? = some .cancelled) :
    o'.futures[f]? = some .cancelled :=
  h f _ hf fun h => by cases h

/-- The log of `set_result` names resolved futures, each once. -/
def Logged (o : OwnerLoops) : Prop :=
  o.resolutions.Nodup ∧ ∀ f ∈ o.resolutions, o.futures[f]? = some .resolved

theorem Logged.advances (h : o.Logged) (ha : o.Advances o')
    (hlog : o'.resolutions = o.resolutions) : o'.Logged := by
  rw [Logged, hlog]
  exact ⟨h.1, fun f hf => ha.resolved (h.2 f hf)⟩

theorem getElem?_set_future (f g : Nat) (state : WaiterFuture)
    (hf : o.futures[f]? = some .pending) :
    (o.futures.set f state)[g]? = if g = f then some state else o.futures[g]? := by
  by_cases h : g = f
  · subst h
    rw [if_pos rfl]
    exact getElem?_set_self' hf
  · rw [if_neg h, List.getElem?_set_ne (Ne.symm h)]

@[simp] theorem cancel_loops (o : OwnerLoops) (f : Nat) : (o.cancel f).loops = o.loops := by
  unfold cancel
  split <;> rfl

@[simp] theorem cancel_queue (o : OwnerLoops) (f l : Nat) : (o.cancel f).queue l = o.queue l := by
  rw [queue, cancel_loops, queue]

@[simp] theorem cancel_resolutions (o : OwnerLoops) (f : Nat) :
    (o.cancel f).resolutions = o.resolutions := by
  unfold cancel
  split <;> rfl

theorem cancel_futures (o : OwnerLoops) (f g : Nat) :
    (o.cancel f).futures[g]? =
      if g = f ∧ o.futures[f]? = some .pending then some .cancelled else o.futures[g]? := by
  unfold cancel
  split
  · rename_i hf
    simp only [getElem?_set_future f g _ hf, hf, and_true]
  · rename_i hf
    rw [if_neg fun h => hf h.2]

theorem cancel_advances (o : OwnerLoops) (f : Nat) : o.Advances (o.cancel f) := by
  intro g future hg hdone
  rw [cancel_futures, if_neg, hg]
  rintro ⟨rfl, hf⟩
  rw [hg] at hf
  cases hf
  exact hdone rfl

@[simp] theorem cancel_length (o : OwnerLoops) (f : Nat) :
    (o.cancel f).futures.length = o.futures.length := by
  unfold cancel
  split
  · exact List.length_set
  · rfl

theorem resolve_futures (o : OwnerLoops) (f g : Nat) :
    (o.resolve f).futures[g]? =
      if g = f ∧ o.futures[f]? = some .pending then some .resolved else o.futures[g]? := by
  unfold resolve
  split
  · rename_i hf
    simp only [getElem?_set_future f g _ hf, hf, and_true]
  · rename_i hf
    rw [if_neg fun h => hf h.2]

theorem resolve_advances (o : OwnerLoops) (f : Nat) : o.Advances (o.resolve f) := by
  intro g future hg hdone
  rw [resolve_futures, if_neg, hg]
  rintro ⟨rfl, hf⟩
  rw [hg] at hf
  cases hf
  exact hdone rfl

@[simp] theorem resolve_length (o : OwnerLoops) (f : Nat) :
    (o.resolve f).futures.length = o.futures.length := by
  unfold resolve
  split
  · exact List.length_set
  · rfl

@[simp] theorem resolve_loops (o : OwnerLoops) (f : Nat) : (o.resolve f).loops = o.loops := by
  unfold resolve
  split <;> rfl

/-- A future is resolved once. -/
theorem Logged.resolve (h : o.Logged) (f : Nat) : (o.resolve f).Logged := by
  have hadvances := o.resolve_advances f
  unfold Logged
  have hnew := resolve_futures o f f
  unfold OwnerLoops.resolve at hnew hadvances ⊢
  split
  · rename_i hf
    rw [if_pos hf, if_pos ⟨rfl, hf⟩] at hnew
    rw [if_pos hf] at hadvances
    have hnot : f ∉ o.resolutions := by
      intro hmem
      rw [h.2 f hmem] at hf
      cases hf
    refine ⟨?_, fun g hg => ?_⟩
    · rw [List.nodup_append]
      refine ⟨h.1, by simp, fun g hg f' hf' => ?_⟩
      rw [List.mem_singleton.mp hf']
      rintro rfl
      exact hnot hg
    · rcases List.mem_append.mp hg with hg | hg
      · exact hadvances.resolved (h.2 g hg)
      · rw [List.mem_singleton.mp hg]
        exact hnew
  · exact h

@[simp] theorem resolveGroup_loops (o : OwnerLoops) (fs : List Nat) :
    (o.resolveGroup fs).loops = o.loops := by
  induction fs generalizing o with
  | nil => rfl
  | cons f fs ih => exact (ih _).trans (resolve_loops o f)

@[simp] theorem resolveGroup_length (o : OwnerLoops) (fs : List Nat) :
    (o.resolveGroup fs).futures.length = o.futures.length := by
  induction fs generalizing o with
  | nil => rfl
  | cons f fs ih => exact (ih _).trans (resolve_length o f)

theorem resolveGroup_cons (o : OwnerLoops) (f : Nat) (fs : List Nat) :
    o.resolveGroup (f :: fs) = (o.resolve f).resolveGroup fs := rfl

theorem resolveGroup_advances (o : OwnerLoops) (fs : List Nat) :
    o.Advances (o.resolveGroup fs) := by
  induction fs generalizing o with
  | nil => exact .refl o
  | cons f fs ih => exact (o.resolve_advances f).trans (ih _)

theorem Logged.resolveGroup (h : o.Logged) (fs : List Nat) : (o.resolveGroup fs).Logged := by
  induction fs generalizing o with
  | nil => exact h
  | cons f fs ih => exact ih (h.resolve f)

/-- A callback resolves exactly the futures of it that are pending. -/
theorem resolveGroup_futures (o : OwnerLoops) (fs : List Nat) (g : Nat) :
    (o.resolveGroup fs).futures[g]? =
      if g ∈ fs ∧ o.futures[g]? = some .pending then some .resolved else o.futures[g]? := by
  induction fs generalizing o with
  | nil => simp [resolveGroup]
  | cons f fs ih =>
    rw [resolveGroup_cons, ih, resolve_futures]
    by_cases hg : g = f
    · subst hg
      by_cases hp : o.futures[g]? = some .pending
      · simp [hp]
      · simp [hp]
    · simp [hg]

theorem resolveGroup_append (o : OwnerLoops) (fs gs : List Nat) :
    o.resolveGroup (fs ++ gs) = (o.resolveGroup fs).resolveGroup gs := List.foldl_append

theorem queue_of_loop {loop : OwnerLoop} (h : o.loops[l]? = some loop) :
    o.queue l = loop.queue := by
  rw [queue, h]
  rfl

/-- A running loop runs its first callback. -/
structure RunsFirst (o o' : OwnerLoops) (l : Nat) (callback : WakeCallback)
    (ready : List WakeCallback) : Prop where
  loop : o.loops[l]? = some (.running (callback :: ready))
  loops : o'.loops = o.loops.set l (.running ready)
  length : o'.futures.length = o.futures.length
  futures : ∀ f : Nat, o'.futures[f]? =
    if f ∈ callback.futures ∧ o.futures[f]? = some .pending then some .resolved
    else o.futures[f]?
  advances : o.Advances o'
  logged : o.Logged → o'.Logged

theorem runCallback_spec (h : o.runCallback l = some o') :
    ∃ callback ready, o.RunsFirst o' l callback ready := by
  unfold runCallback at h
  split at h
  · rename_i callback ready hloop
    cases h
    have hadvances : o.Advances { o with loops := o.loops.set l (.running ready) } :=
      fun _ _ h _ => h
    have hlogged : o.Logged → ({ o with loops := o.loops.set l (.running ready) } :
        OwnerLoops).Logged := id
    exact ⟨callback, ready, hloop, resolveGroup_loops _ _, resolveGroup_length _ _,
      resolveGroup_futures _ _, hadvances.trans (resolveGroup_advances _ _),
      fun h => (hlogged h).resolveGroup _⟩
  · cases h

theorem queue_set {ready : List WakeCallback} {loop : OwnerLoop} (h : o.loops[l]? = some loop)
    (hloops : o'.loops = o.loops.set l (.running ready)) (l' : Nat) :
    o'.queue l' = if l' = l then ready.flatMap WakeCallback.futures else o.queue l' := by
  unfold queue
  rw [hloops]
  by_cases hl : l' = l
  · subst hl
    rw [if_pos rfl, getElem?_set_self' h]
    rfl
  · rw [if_neg hl, List.getElem?_set_ne (Ne.symm hl)]

theorem callSoon_loops (o : OwnerLoops) (call : Nat × WakeCallback) (l : Nat) :
    (o.callSoon call).loops[l]? =
      (o.loops[l]?).map fun loop => if call.1 = l then loop.callSoon call.2 else loop := by
  unfold callSoon
  rw [List.getElem?_modify]
  rfl

theorem lt_of_isRunning (h : o.isRunning l = true) : l < o.loops.length := by
  by_contra hnot
  rw [isRunning, List.getElem?_eq_none (Nat.le_of_not_lt hnot)] at h
  cases h

theorem createFuture_advances (o : OwnerLoops) : o.Advances o.createFuture :=
  fun _ _ hf _ => getElem?_append_of_some _ hf

/-- The futures that some calls are about on a loop. -/
def calledOn (l : Nat) (calls : List (Nat × WakeCallback)) : List Nat :=
  Grouping.members l (calls.map fun call => (call.1, call.2.futures))

/-- A notification queues its callbacks on the loops that run, and does nothing else. -/
structure Queues (o o' : OwnerLoops) (calls : List (Nat × WakeCallback)) : Prop where
  futures : o'.futures = o.futures
  resolutions : o'.resolutions = o.resolutions
  length : o'.loops.length = o.loops.length
  closed : ∀ l : Nat, o'.loops[l]? = some .closed ↔ o.loops[l]? = some .closed
  isRunning : ∀ l, o'.isRunning l = o.isRunning l
  queue : ∀ l, o'.queue l = o.queue l ++ if o.isRunning l then calledOn l calls else []

theorem queues_callSoon (o : OwnerLoops) (call : Nat × WakeCallback) :
    o.Queues (o.callSoon call) [call] := by
  refine ⟨rfl, rfl, by simp [callSoon], fun l => ?_, fun l => ?_, fun l => ?_⟩
  · rw [callSoon_loops]
    cases hloop : o.loops[l]? with
    | none => simp
    | some loop =>
      cases loop with
      | running ready => by_cases h : call.1 = l <;> simp [h, OwnerLoop.callSoon]
      | closed => by_cases h : call.1 = l <;> simp [h, OwnerLoop.callSoon]
  · unfold OwnerLoops.isRunning
    rw [callSoon_loops]
    cases hloop : o.loops[l]? with
    | none => rfl
    | some loop =>
      cases loop with
      | running ready =>
        by_cases h : call.1 = l <;> simp [h, OwnerLoop.callSoon, OwnerLoop.isRunning]
      | closed => by_cases h : call.1 = l <;> simp [h, OwnerLoop.callSoon]
  · unfold OwnerLoops.queue OwnerLoops.isRunning calledOn
    rw [callSoon_loops, List.map_singleton, Grouping.members_cons, Grouping.members_nil]
    cases hloop : o.loops[l]? with
    | none => rfl
    | some loop =>
      cases loop with
      | running ready =>
        by_cases h : call.1 = l <;>
          simp [h, OwnerLoop.callSoon, OwnerLoop.isRunning, OwnerLoop.queue]
      | closed =>
        by_cases h : call.1 = l <;>
          simp [h, OwnerLoop.callSoon, OwnerLoop.isRunning, OwnerLoop.queue]

theorem queues_callAll (calls : List (Nat × WakeCallback)) (o : OwnerLoops) :
    o.Queues (calls.foldl callSoon o) calls := by
  induction calls generalizing o with
  | nil => exact ⟨rfl, rfl, rfl, fun _ => Iff.rfl, fun _ => rfl, fun l => by simp [calledOn]⟩
  | cons call calls ih =>
    have hfirst := o.queues_callSoon call
    have hrest := ih (o.callSoon call)
    refine ⟨hrest.futures.trans hfirst.futures, hrest.resolutions.trans hfirst.resolutions,
      hrest.length.trans hfirst.length, fun l => (hrest.closed l).trans (hfirst.closed l),
      fun l => (hrest.isRunning l).trans (hfirst.isRunning l), fun l => ?_⟩
    rw [List.foldl_cons, hrest.queue, hfirst.queue, hfirst.isRunning, List.append_assoc]
    congr 1
    split
    · rw [calledOn, calledOn, calledOn, ← Grouping.members_append]
      rfl
    · rfl

end OwnerLoops

namespace WaiterState

variable {s s' : WaiterState α ε}

/-- Both modes post the same futures to each loop, in the same order. -/
theorem calledOn_wakeCalls (s : WaiterState α ε) (order : List Nat) (wakeMode : WakeMode)
    (l : Nat) :
    OwnerLoops.calledOn l (s.wakeCalls order wakeMode) =
      order.filter fun f => decide (s.loopOf f = l) := by
  cases wakeMode with
  | individual =>
    rw [OwnerLoops.calledOn, wakeCalls, List.map_map]
    exact Grouping.members_singletons s.loopOf order l
  | grouped =>
    rw [OwnerLoops.calledOn, wakeCalls, List.map_map]
    exact (congrArg (Grouping.members l) (List.map_id _)).trans
      (Grouping.members_groupBy s.loopOf order l)

/-! ## 6. No wake-up is lost -/

structure WaitersInv (s : WaiterState α ε) : Prop where
  tasks : s.tasks.length = s.state.reads.length
  futures : s.owners.futures.length = s.made.length
  loops : ∀ waiter ∈ s.made, waiter.loop < s.owners.loops.length
  known : ∀ f, f ∈ s.asyncWaiters ∨ f ∈ s.notified → f < s.made.length
  own : ∀ r l f : Nat, s.tasks[r]? = some ⟨l, some f⟩ → s.made[f]? = some ⟨l, r⟩
  registered : ∀ f ∈ s.asyncWaiters, ∃ waiter, s.made[f]? = some waiter ∧
    s.state.AtEdge waiter.read
  told : ∀ f ∈ s.notified, s.Told f
  logged : s.owners.Logged
  waiting : ∀ (r : Nat) (read : TunnelRead), s.state.reads[r]? = some read → read.mode = .async →
    read.phase = .waiting → ∃ l f, s.tasks[r]? = some ⟨l, some f⟩ ∧
      s.owners.futures[f]? ≠ some .cancelled ∧ (f ∈ s.asyncWaiters ∨ f ∈ s.notified)

theorem loopOf_of_made {f : Nat} {waiter : AsyncWaiter} (h : s.made[f]? = some waiter) :
    s.loopOf f = waiter.loop := by
  rw [loopOf, h]
  rfl

/-- A waiter that has been notified stays so. -/
theorem Told.advances {f : Nat} (h : s.Told f) (ha : s.owners.Advances s'.owners)
    (hloop : s'.loopOf f = s.loopOf f)
    (hclosed : s.owners.loops[s.loopOf f]? = some .closed →
      s'.owners.loops[s.loopOf f]? = some .closed)
    (hqueue : f ∈ s.owners.queue (s.loopOf f) → s'.Told f) : s'.Told f := by
  rcases h with h | h | h | h
  · exact Or.inl (ha.resolved h)
  · exact hqueue h
  · exact Or.inr (Or.inr (Or.inl (by rw [hloop]; exact hclosed h)))
  · exact Or.inr (Or.inr (Or.inr (ha.cancelled h)))

namespace WaitersInv

/-- A step of the tunnel that leaves the reads as they are. -/
theorem onTunnel (hs : s.WaitersInv) {state : TunnelState α ε}
    (hreads : state.reads = s.state.reads)
    (hedge : ∀ r, s.state.AtEdge r → state.AtEdge r) :
    ({ s with state := state } : WaiterState α ε).WaitersInv where
  tasks := hs.tasks.trans (congrArg List.length hreads.symm)
  futures := hs.futures
  loops := hs.loops
  known := hs.known
  own := hs.own
  registered f hf := by
    obtain ⟨waiter, hwaiter, hat⟩ := hs.registered f hf
    exact ⟨waiter, hwaiter, hedge _ hat⟩
  told := hs.told
  logged := hs.logged
  waiting r read hread := hs.waiting r read (by rwa [← hreads])

/-- A notification. -/
theorem wakeWaiters (hs : s.WaitersInv) {state : TunnelState α ε}
    (hreads : state.reads = s.state.reads) {order : List Nat}
    (horder : order.Perm s.asyncWaiters) :
    (({ s with state := state } : WaiterState α ε).wakeWaiters order).WaitersInv := by
  have hqueues := OwnerLoops.queues_callAll
    (({ s with state := state } : WaiterState α ε).wakeCalls order s.wakeMode) s.owners
  have hadvances : s.owners.Advances
      (({ s with state := state } : WaiterState α ε).wakeWaiters order).owners := by
    intro f future hf _
    exact (congrArg (·[f]?) hqueues.futures).trans hf
  constructor
  · exact hs.tasks.trans (congrArg List.length hreads.symm)
  · exact (congrArg List.length hqueues.futures).trans hs.futures
  · intro waiter hwaiter
    exact Nat.lt_of_lt_of_eq (hs.loops waiter hwaiter) hqueues.length.symm
  · rintro f (hf | hf)
    · cases hf
    · rcases List.mem_append.mp hf with hf | hf
      · exact hs.known f (Or.inr hf)
      · exact hs.known f (Or.inl (horder.mem_iff.mp hf))
  · exact hs.own
  · intro f hf
    cases hf
  · intro f hf
    rcases List.mem_append.mp hf with hf | hf
    · refine (hs.told f hf).advances hadvances rfl (fun h => (hqueues.closed _).mpr h) fun h => ?_
      refine Or.inr (Or.inl ?_)
      exact (hqueues.queue (s.loopOf f)).symm ▸ List.mem_append_left _ h
    · obtain ⟨waiter, hwaiter⟩ : ∃ waiter, s.made[f]? = some waiter :=
        ⟨_, List.getElem?_eq_getElem (hs.known f (Or.inl (horder.mem_iff.mp hf)))⟩
      have hvalid : s.loopOf f < s.owners.loops.length := by
        rw [loopOf_of_made hwaiter]
        exact hs.loops waiter (List.mem_of_getElem? hwaiter)
      obtain ⟨loop, hloop⟩ : ∃ loop, s.owners.loops[s.loopOf f]? = some loop :=
        ⟨_, List.getElem?_eq_getElem hvalid⟩
      cases loop with
      | closed => exact Or.inr (Or.inr (Or.inl ((hqueues.closed _).mpr hloop)))
      | running ready =>
        have hrunning : s.owners.isRunning (s.loopOf f) = true := by
          rw [OwnerLoops.isRunning, hloop]
          rfl
        have hcalled : f ∈ OwnerLoops.calledOn (s.loopOf f)
            (({ s with state := state } : WaiterState α ε).wakeCalls order s.wakeMode) := by
          rw [calledOn_wakeCalls]
          exact List.mem_filter.mpr ⟨hf, decide_eq_true rfl⟩
        refine Or.inr (Or.inl ?_)
        refine (hqueues.queue (s.loopOf f)).symm ▸ List.mem_append_right _ ?_
        rw [if_pos hrunning]
        exact hcalled
  · exact hs.logged.advances hadvances hqueues.resolutions
  · intro r read hread hmode hphase
    obtain ⟨l, f, htask, hnot, hf⟩ := hs.waiting r read (by rwa [← hreads]) hmode hphase
    refine ⟨l, f, htask, ?_, Or.inr (List.mem_append.mpr ?_)⟩
    · exact fun h => hnot ((congrArg (·[f]?) hqueues.futures).symm.trans h)
    · rcases hf with hf | hf
      · exact Or.inr (horder.mem_iff.mpr hf)
      · exact Or.inl hf

/-- A step of one read, which does not leave it waiting. -/
theorem readStep (hs : s.WaitersInv) {state : TunnelState α ε} {r : Nat} {read read' : TunnelRead}
    (h : s.state.ReadStep state r read read')
    (hphase : read'.mode = .async → read'.phase ≠ .waiting) :
    ({ s with state := state } : WaiterState α ε).WaitersInv where
  tasks := by
    refine hs.tasks.trans ?_
    rw [h.reads, List.length_set]
  futures := hs.futures
  loops := hs.loops
  known := hs.known
  own := hs.own
  registered f hf := by
    obtain ⟨waiter, hwaiter, hat⟩ := hs.registered f hf
    exact ⟨waiter, hwaiter, h.atEdge hat⟩
  told := hs.told
  logged := hs.logged
  waiting r' other hother hmode hwaits := by
    rw [h.reads] at hother
    rcases getElem?_set_cases h.at_read hother with ⟨-, rfl⟩ | ⟨-, hold⟩
    · exact absurd hwaits (hphase hmode)
    · exact hs.waiting r' other hold hmode hwaits

/-- The loops go on: nothing is cancelled. -/
theorem onLoops (hs : s.WaitersInv) {owners : OwnerLoops}
    (hlength : owners.futures.length = s.owners.futures.length)
    (hloops : s.owners.loops.length ≤ owners.loops.length)
    (hcancelled : ∀ f : Nat, owners.futures[f]? = some .cancelled →
      s.owners.futures[f]? = some .cancelled)
    (htold : ∀ f ∈ s.notified, ({ s with owners := owners } : WaiterState α ε).Told f)
    (hlogged : owners.Logged) : ({ s with owners := owners } : WaiterState α ε).WaitersInv where
  tasks := hs.tasks
  futures := hlength.trans hs.futures
  loops waiter hwaiter := Nat.lt_of_lt_of_le (hs.loops waiter hwaiter) hloops
  known := hs.known
  own := hs.own
  registered := hs.registered
  told := htold
  logged := hlogged
  waiting r read hread hmode hphase := by
    obtain ⟨l, f, htask, hnot, hf⟩ := hs.waiting r read hread hmode hphase
    exact ⟨l, f, htask, fun h => hnot (hcancelled f h), hf⟩

theorem runCallback (hs : s.WaitersInv) {l : Nat} {owners : OwnerLoops}
    (h : s.owners.runCallback l = some owners) :
    ({ s with owners := owners } : WaiterState α ε).WaitersInv := by
  obtain ⟨callback, ready, hruns⟩ := OwnerLoops.runCallback_spec h
  refine hs.onLoops hruns.length (Nat.le_of_eq ?_) (fun f hf => ?_) (fun f hf => ?_)
    (hruns.logged hs.logged)
  · rw [hruns.loops, List.length_set]
  · rw [hruns.futures] at hf
    split at hf
    · cases hf
    · exact hf
  · refine (hs.told f hf).advances hruns.advances rfl (fun hclosed => ?_) fun hqueue => ?_
    · have hne : s.loopOf f ≠ l := by
        intro heq
        rw [heq, hruns.loop] at hclosed
        cases hclosed
      rw [hruns.loops, List.getElem?_set_ne (Ne.symm hne)]
      exact hclosed
    · have hqueue' := OwnerLoops.queue_set hruns.loop hruns.loops (s.loopOf f)
      by_cases hl : s.loopOf f = l
      · rw [hl, OwnerLoops.queue_of_loop hruns.loop] at hqueue
        rcases List.mem_append.mp hqueue with hmem | hmem
        · -- its callback has just run
          have hfuture := hruns.futures f
          have hknown : f < s.owners.futures.length := by
            rw [hs.futures]
            exact hs.known f (Or.inr hf)
          rw [List.getElem?_eq_getElem hknown] at hfuture
          cases hstate : s.owners.futures[f] with
          | pending => exact Or.inl (by rw [hfuture, if_pos ⟨hmem, by rw [hstate]⟩])
          | resolved => exact Or.inl (by rw [hfuture, hstate, if_neg (fun h => by cases h.2)])
          | cancelled =>
            refine Or.inr (Or.inr (Or.inr ?_))
            rw [hfuture, hstate, if_neg (fun h => by cases h.2)]
        · refine Or.inr (Or.inl ?_)
          rw [if_pos hl] at hqueue'
          exact hqueue'.symm ▸ hmem
      · rw [if_neg hl] at hqueue'
        exact Or.inr (Or.inl (hqueue'.symm ▸ hqueue))

theorem newLoop (hs : s.WaitersInv) :
    ({ s with owners := s.owners.newLoop } : WaiterState α ε).WaitersInv := by
  refine hs.onLoops rfl (by simp [OwnerLoops.newLoop]) (fun _ h => h) (fun f hf => ?_) hs.logged
  refine (hs.told f hf).advances (.refl _) rfl (fun h => ?_) fun h => Or.inr (Or.inl ?_)
  · exact getElem?_append_of_some _ h
  · unfold OwnerLoops.queue at h ⊢
    cases hloop : s.owners.loops[s.loopOf f]? with
    | none =>
      rw [hloop] at h
      cases h
    | some loop =>
      rw [hloop] at h
      exact (getElem?_append_of_some [OwnerLoop.running []] hloop).symm ▸ h

theorem closeLoop (hs : s.WaitersInv) (l : Nat) :
    ({ s with owners := s.owners.closeLoop l } : WaiterState α ε).WaitersInv := by
  refine hs.onLoops rfl (by simp [OwnerLoops.closeLoop]) (fun _ h => h) (fun f hf => ?_) hs.logged
  have hkeep : ∀ loop, s.owners.loops[s.loopOf f]? = some loop →
      (s.owners.closeLoop l).loops[s.loopOf f]? =
        some (if s.loopOf f = l then .closed else loop) := by
    intro loop hloop
    unfold OwnerLoops.closeLoop
    by_cases hl : s.loopOf f = l
    · rw [if_pos hl, ← hl]
      exact getElem?_set_self' hloop
    · rw [if_neg hl]
      exact (List.getElem?_set_ne (Ne.symm hl)).trans hloop
  refine (hs.told f hf).advances (.refl _) rfl (fun h => ?_) fun h => ?_
  · exact (hkeep _ h).trans (by rw [ite_self])
  · cases hloop : s.owners.loops[s.loopOf f]? with
    | none =>
      rw [OwnerLoops.queue, hloop] at h
      cases h
    | some loop =>
      have hnew := hkeep loop hloop
      by_cases hl : s.loopOf f = l
      · rw [if_pos hl] at hnew
        exact Or.inr (Or.inr (Or.inl hnew))
      · rw [if_neg hl] at hnew
        rw [OwnerLoops.queue_of_loop hloop] at h
        exact Or.inr (Or.inl ((OwnerLoops.queue_of_loop hnew).symm ▸ h))

/-- A read that no longer waits cancels its future. -/
theorem cancel (hs : s.WaitersInv) {f : Nat}
    (hover : ∀ (r l : Nat) (read : TunnelRead), s.tasks[r]? = some ⟨l, some f⟩ →
      s.state.reads[r]? = some read → read.phase ≠ .waiting) :
    ({ s with owners := s.owners.cancel f } : WaiterState α ε).WaitersInv where
  tasks := hs.tasks
  futures := (OwnerLoops.cancel_length _ _).trans hs.futures
  loops waiter hwaiter := by
    rw [OwnerLoops.cancel_loops]
    exact hs.loops waiter hwaiter
  known := hs.known
  own := hs.own
  registered := hs.registered
  told g hg := by
    refine (hs.told g hg).advances (OwnerLoops.cancel_advances _ _) rfl (fun h => ?_) fun h => ?_
    · exact (OwnerLoops.cancel_loops _ _).symm ▸ h
    · exact Or.inr (Or.inl ((OwnerLoops.cancel_queue _ _ _).symm ▸ h))
  logged := hs.logged.advances (OwnerLoops.cancel_advances _ _) (OwnerLoops.cancel_resolutions _ _)
  waiting r read hread hmode hphase := by
    obtain ⟨l, g, htask, hnot, hg⟩ := hs.waiting r read hread hmode hphase
    refine ⟨l, g, htask, fun hcancelled => ?_, hg⟩
    rw [OwnerLoops.cancel_futures] at hcancelled
    split at hcancelled
    · rename_i heq
      rw [heq.1] at htask
      exact hover r l read htask hread hphase
    · exact hnot hcancelled

/-- A read that no longer waits discards its waiter. -/
theorem discard (hs : s.WaitersInv) {f : Nat}
    (hover : ∀ (r l : Nat) (read : TunnelRead), s.tasks[r]? = some ⟨l, some f⟩ →
      s.state.reads[r]? = some read → read.phase ≠ .waiting) :
    ({ s with asyncWaiters := s.asyncWaiters.erase f } : WaiterState α ε).WaitersInv where
  tasks := hs.tasks
  futures := hs.futures
  loops := hs.loops
  known g hg := hs.known g (hg.imp_left List.mem_of_mem_erase)
  own := hs.own
  registered g hg := hs.registered g (List.mem_of_mem_erase hg)
  told := hs.told
  logged := hs.logged
  waiting r read hread hmode hphase := by
    obtain ⟨l, g, htask, hnot, hg⟩ := hs.waiting r read hread hmode hphase
    refine ⟨l, g, htask, hnot, hg.imp_left fun hmem => ?_⟩
    refine (List.mem_erase_of_ne ?_).mpr hmem
    rintro rfl
    exact hover r l read htask hread hphase

theorem beginRead (hs : s.WaitersInv) {i l : Nat} {mode : ReadMode} {state : TunnelState α ε}
    (h : s.state.beginRead i mode = some state) :
    ({ s with state := state, tasks := s.tasks ++ [{ loop := l }] } :
      WaiterState α ε).WaitersInv := by
  obtain ⟨u, -, rfl⟩ := Option.map_eq_some_iff.mp h
  refine ⟨?_, hs.futures, hs.loops, hs.known, fun r l' f htask => ?_, fun f hf => ?_, hs.told,
    hs.logged, fun r read hread hmode hphase => ?_⟩
  · simp [hs.tasks]
  · rcases getElem?_append_cases htask with ⟨-, heq⟩ | hold
    · cases heq
    · exact hs.own r l' f hold
  · obtain ⟨waiter, hwaiter, read, v, hread, hrest⟩ := hs.registered f hf
    exact ⟨waiter, hwaiter, read, v, getElem?_append_of_some _ hread, hrest⟩
  · rcases getElem?_append_cases hread with ⟨-, rfl⟩ | hold
    · cases hphase
    · obtain ⟨l', f, htask, hrest⟩ := hs.waiting r read hold hmode hphase
      exact ⟨l', f, getElem?_append_of_some _ htask, hrest⟩

/-- A read that waits is registered at the live edge. -/
theorem register (hs : s.WaitersInv) {state : TunnelState α ε} {r : Nat} {read read' : TunnelRead}
    (h : s.state.ReadStep state r read read') (hedge : state.AtEdge r) {task : ReaderTask}
    (htask : s.tasks[r]? = some task) (hloop : s.owners.isRunning task.loop = true) :
    (({ s with state := state } : WaiterState α ε).register r task).WaitersInv := by
  have hmade : ∀ {f : Nat} {waiter : AsyncWaiter}, s.made[f]? = some waiter →
      (s.made ++ [⟨task.loop, r⟩])[f]? = some waiter := getElem?_append_of_some _
  have hnew : (s.made ++ [(⟨task.loop, r⟩ : AsyncWaiter)])[s.made.length]? =
      some ⟨task.loop, r⟩ := by
    simp
  constructor
  · change (s.tasks.set r _).length = state.reads.length
    rw [List.length_set, h.reads, List.length_set]
    exact hs.tasks
  · simp [WaiterState.register, OwnerLoops.createFuture, hs.futures]
  · intro waiter hwaiter
    rcases List.mem_append.mp hwaiter with hwaiter | hwaiter
    · exact hs.loops waiter hwaiter
    · rw [List.mem_singleton.mp hwaiter]
      exact OwnerLoops.lt_of_isRunning hloop
  · intro f hf
    have hbound : f < s.made.length + 1 := by
      rcases hf with hf | hf
      · rcases List.mem_append.mp hf with hf | hf
        · exact Nat.lt_succ_of_lt (hs.known f (Or.inl hf))
        · rw [List.mem_singleton.mp hf]
          exact Nat.lt_succ_self _
      · exact Nat.lt_succ_of_lt (hs.known f (Or.inr hf))
    simpa [WaiterState.register] using hbound
  · intro r' l f htask'
    rcases getElem?_set_cases htask htask' with ⟨rfl, heq⟩ | ⟨-, hold⟩
    · cases heq
      exact hnew
    · exact hmade (hs.own r' l f hold)
  · intro f hf
    rcases List.mem_append.mp hf with hf | hf
    · obtain ⟨waiter, hwaiter, hat⟩ := hs.registered f hf
      exact ⟨waiter, hmade hwaiter, h.atEdge hat⟩
    · rw [List.mem_singleton.mp hf]
      exact ⟨_, hnew, hedge⟩
  · intro f hf
    obtain ⟨waiter, hwaiter⟩ : ∃ waiter, s.made[f]? = some waiter :=
      ⟨_, List.getElem?_eq_getElem (hs.known f (Or.inr hf))⟩
    have hloopOf : (({ s with state := state } : WaiterState α ε).register r task).loopOf f =
        s.loopOf f := by
      rw [loopOf_of_made hwaiter, loopOf_of_made (hmade hwaiter)]
    refine (hs.told f hf).advances (OwnerLoops.createFuture_advances _) hloopOf (fun h => h)
      fun h => Or.inr (Or.inl ?_)
    rw [hloopOf]
    exact h
  · exact hs.logged.advances (OwnerLoops.createFuture_advances _) rfl
  · intro r' other hother hmode hphase
    rw [show (({ s with state := state } : WaiterState α ε).register r task).state.reads =
      s.state.reads.set r read' from h.reads] at hother
    rcases getElem?_set_cases h.at_read hother with ⟨rfl, -⟩ | ⟨hne, hold⟩
    · refine ⟨task.loop, s.made.length, getElem?_set_self' htask, ?_,
        Or.inl (List.mem_append_right _ (List.mem_singleton_self _))⟩
      rw [← hs.futures]
      simp [WaiterState.register, OwnerLoops.createFuture]
    · obtain ⟨l, f, htask', hnot, hf⟩ := hs.waiting r' other hold hmode hphase
      refine ⟨l, f, ?_, fun hcancelled => ?_, hf.imp_left (List.mem_append_left _)⟩
      · exact (List.getElem?_set_ne (Ne.symm hne)).trans htask'
      · rcases getElem?_append_cases hcancelled with ⟨-, heq⟩ | hold
        · cases heq
        · exact hnot hold

end WaitersInv

/-! ### Steps -/

theorem notify_spec {state : TunnelState α ε} {wakes : Bool} {order : List Nat}
    (h : s.notify state wakes order = some s') :
    (wakes = false ∧ s' = { s with state := state }) ∨
      (wakes = true ∧ order.Perm s.asyncWaiters ∧
        s' = ({ s with state := state } : WaiterState α ε).wakeWaiters order) := by
  unfold notify at h
  split at h
  · rename_i hwakes
    split at h
    · rename_i horder
      cases h
      exact Or.inr ⟨hwakes, horder, rfl⟩
    · cases h
  · rename_i hwakes
    cases h
    exact Or.inl ⟨by simpa using hwakes, rfl⟩

theorem WaitersInv.notify (hs : s.WaitersInv) {state : TunnelState α ε} {wakes : Bool}
    {order : List Nat} (hreads : state.reads = s.state.reads)
    (hsame : wakes = false → state = s.state) (h : s.notify state wakes order = some s') :
    s'.WaitersInv := by
  rcases notify_spec h with ⟨hwakes, rfl⟩ | ⟨-, horder, rfl⟩
  · rw [hsame hwakes]
    exact hs
  · exact hs.wakeWaiters hreads horder

/-- The last future of a read is that of no other. -/
theorem WaitersInv.over (hs : s.WaitersInv) {r l f : Nat} (htask : s.tasks[r]? = some ⟨l, some f⟩)
    {read : TunnelRead} (hread : s.state.reads[r]? = some read) (hphase : read.phase ≠ .waiting) :
    ∀ (r' l' : Nat) (read' : TunnelRead), s.tasks[r']? = some ⟨l', some f⟩ →
      s.state.reads[r']? = some read' → read'.phase ≠ .waiting := by
  intro r' l' read' htask' hread'
  have hsame := (hs.own r l f htask).symm.trans (hs.own r' l' f htask')
  cases hsame
  rw [hread] at hread'
  cases hread'
  exact hphase

theorem WaitersInv.look (hs : s.WaitersInv) (hserves : s.state.Serves)
    (hclosed : s.state.ClosedEnded) {r : Nat} (h : s.look r = some s') : s'.WaitersInv := by
  unfold WaiterState.look at h
  split at h
  · rename_i read task hread htask
    obtain ⟨state, hlook, h⟩ := Option.bind_eq_some_iff.mp h
    obtain ⟨read₀, read', hstep, -, hcases⟩ := TunnelState.look_step hserves hclosed hlook
    obtain rfl : read₀ = read := Option.some.inj (hstep.at_read.symm.trans hread)
    have hread' : state.reads[r]? = some read' := by
      rw [hstep.reads]
      exact getElem?_set_self' hstep.at_read
    split at h
    · rename_i hsync
      cases h
      refine hs.readStep hstep fun hasync => ?_
      rw [hstep.mode, hsync] at hasync
      cases hasync
    · split at h
      · rename_i hloop
        rw [hread'] at h
        rcases hcases with hdone | ⟨hwaits, hedge⟩
        · rw [if_neg (by simp [hdone])] at h
          cases h
          refine hs.readStep hstep fun _ => ?_
          rw [hdone]
          exact fun h => by cases h
        · rw [if_pos (by simp [hwaits])] at h
          cases h
          exact hs.register hstep hedge htask hloop
      · cases h
  · cases h

theorem WaitersInv.resume (hs : s.WaitersInv) {r : Nat} (h : s.resume r = some s') :
    s'.WaitersInv := by
  unfold WaiterState.resume at h
  split at h
  · rename_i l f htask
    split at h
    · obtain ⟨state, hwake, rfl⟩ := Option.map_eq_some_iff.mp h
      obtain ⟨read, read', hstep, -, hlooking⟩ := TunnelState.wake_step hwake
      have hnot : read'.phase ≠ .waiting := by
        rw [hlooking]
        exact fun h => by cases h
      have hread' : state.reads[r]? = some read' := by
        rw [hstep.reads]
        exact getElem?_set_self' hstep.at_read
      have hnew := hs.readStep hstep fun _ => hnot
      exact hnew.discard (hnew.over htask hread' hnot)
    · cases h
  · cases h

theorem WaitersInv.expire (hs : s.WaitersInv) {r : Nat} (h : s.expire r = some s') :
    s'.WaitersInv := by
  unfold WaiterState.expire at h
  split at h
  · rename_i l f htask
    split at h
    · obtain ⟨state, hexpire, rfl⟩ := Option.map_eq_some_iff.mp h
      obtain ⟨read, read', hstep, -, hdone⟩ := TunnelState.expire_step hexpire
      have hnot : read'.phase ≠ .waiting := by
        rw [hdone]
        exact fun h => by cases h
      have hread' : state.reads[r]? = some read' := by
        rw [hstep.reads]
        exact getElem?_set_self' hstep.at_read
      have hnew := hs.readStep hstep fun _ => hnot
      exact hnew.cancel (hnew.over htask hread' hnot)
    · cases h
  · cases h

theorem WaitersInv.cancelRead (hs : s.WaitersInv) {r : Nat} (h : s.cancelRead r = some s') :
    s'.WaitersInv := by
  unfold WaiterState.cancelRead at h
  split at h
  · rename_i read l f hread htask
    obtain ⟨state, hcancel, rfl⟩ := Option.map_eq_some_iff.mp h
    obtain ⟨read₀, read', hstep, -, hdone⟩ := TunnelState.cancelRead_step hcancel
    have hnot : read'.phase ≠ .waiting := by
      rw [hdone]
      exact fun h => by cases h
    have hread' : state.reads[r]? = some read' := by
      rw [hstep.reads]
      exact getElem?_set_self' hstep.at_read
    have hnew := hs.readStep hstep fun _ => hnot
    split
    · exact hnew.cancel (hnew.over htask hread' hnot)
    · exact hnew
  · cases h

theorem WaitersInv.leave (hs : s.WaitersInv) {r : Nat} (h : s.leave r = some s') :
    s'.WaitersInv := by
  unfold WaiterState.leave at h
  split at h
  · rename_i read l f hread htask
    split at h
    · rename_i hdone
      cases h
      refine hs.discard (hs.over htask hread ?_)
      rw [hdone]
      exact fun h => by cases h
    · cases h
  · cases h

theorem WaitersInv.closeSubscription (hs : s.WaitersInv) {i : Nat} {order : List Nat}
    (h : s.closeSubscription i order = some s') : s'.WaitersInv := by
  unfold WaiterState.closeSubscription at h
  split at h
  · rename_i u hu
    obtain ⟨state, hclose, h⟩ := Option.bind_eq_some_iff.mp h
    rw [TunnelState.closeSubscription, hu, Option.map_some] at hclose
    cases hclose
    refine hs.notify ?_ (fun hwakes => ?_) h
    · split <;> rfl
    · rw [if_pos (by simpa using hwakes)]
  · cases h

theorem WaitersInv.step (hs : s.WaitersInv) (hserves : s.state.Serves)
    (hclosed : s.state.ClosedEnded) {e : WaiterEvent α ε} (h : s.step e = some s') :
    s'.WaitersInv := by
  have hterminal : (!s.state.tunnel.terminal) = false → s.state.tunnel.terminal = true := by
    intro h
    simpa using h
  cases e with
  | put data order =>
    refine hs.notify ?_ (fun hwakes => ?_) h
    · unfold TunnelState.put
      split <;> rfl
    · rw [TunnelState.put, (Tunnel.of_terminal (hterminal hwakes)).1]
  | close order =>
    refine hs.notify ?_ (fun hwakes => ?_) h
    · rfl
    · rw [(Tunnel.of_terminal (hterminal hwakes)).2.1]
  | fail error order =>
    refine hs.notify ?_ (fun hwakes => ?_) h
    · rfl
    · rw [(Tunnel.of_terminal (hterminal hwakes)).2.2]
  | closeSubscription i order => exact hs.closeSubscription h
  | subscribe start timeout =>
    cases h
    refine hs.onTunnel ?_ fun r hat => ?_
    · unfold TunnelState.subscribe
      split <;> rfl
    · unfold TunnelState.subscribe
      split
      · obtain ⟨read, u, hread, hu, hrest⟩ := hat
        exact ⟨read, u, hread, getElem?_append_of_some _ hu, hrest⟩
      · exact hat
  | beginRead i mode l =>
    simp only [WaiterState.step, WaiterState.beginRead] at h
    split at h
    · obtain ⟨state, hbegin, rfl⟩ := Option.map_eq_some_iff.mp h
      exact hs.beginRead hbegin
    · cases h
  | look r => exact hs.look hserves hclosed h
  | wake r =>
    simp only [WaiterState.step, WaiterState.wake] at h
    split at h
    · split at h
      · obtain ⟨state, hwake, rfl⟩ := Option.map_eq_some_iff.mp h
        obtain ⟨read, read', hstep, -, hlooking⟩ := TunnelState.wake_step hwake
        refine hs.readStep hstep fun _ => ?_
        rw [hlooking]
        exact fun h => by cases h
      · cases h
    · cases h
  | resume r => exact hs.resume h
  | expire r => exact hs.expire h
  | cancelRead r => exact hs.cancelRead h
  | leave r => exact hs.leave h
  | runCallback l =>
    obtain ⟨owners, howners, rfl⟩ := Option.map_eq_some_iff.mp h
    exact hs.runCallback howners
  | newLoop =>
    cases h
    exact hs.newLoop
  | closeLoop l =>
    cases h
    exact hs.closeLoop l
  | advance time =>
    cases h
    exact hs.onTunnel rfl fun _ hat => hat

/-- Every step is one of the tunnel, or leaves the tunnel as it is. -/
theorem step_refines {e : WaiterEvent α ε} (h : s.step e = some s') :
    s'.state = s.state ∨ ∃ e', s.state.step e' = some s'.state := by
  have hnotify : ∀ {state : TunnelState α ε} {wakes : Bool} {order : List Nat},
      s.notify state wakes order = some s' → s'.state = state := by
    intro state wakes order h
    rcases notify_spec h with ⟨-, rfl⟩ | ⟨-, -, rfl⟩
    · rfl
    · rfl
  cases e with
  | put data order => exact Or.inr ⟨.put data, congrArg some (hnotify h).symm⟩
  | close order => exact Or.inr ⟨.close, congrArg some (hnotify h).symm⟩
  | fail error order => exact Or.inr ⟨.fail error, congrArg some (hnotify h).symm⟩
  | closeSubscription i order =>
    simp only [WaiterState.step, WaiterState.closeSubscription] at h
    split at h
    · obtain ⟨state, hclose, h⟩ := Option.bind_eq_some_iff.mp h
      exact Or.inr ⟨.closeSubscription i, by rw [hnotify h]; exact hclose⟩
    · cases h
  | subscribe start timeout =>
    cases h
    exact Or.inr ⟨.subscribe start timeout, rfl⟩
  | beginRead i mode l =>
    simp only [WaiterState.step, WaiterState.beginRead] at h
    split at h
    · obtain ⟨state, hbegin, rfl⟩ := Option.map_eq_some_iff.mp h
      exact Or.inr ⟨.beginRead i mode, hbegin⟩
    · cases h
  | look r =>
    simp only [WaiterState.step, WaiterState.look] at h
    split at h
    · obtain ⟨state, hlook, h⟩ := Option.bind_eq_some_iff.mp h
      have hstate : s'.state = state := by
        split at h
        · cases h
          rfl
        · split at h
          · split at h
            · cases h
              rfl
            · cases h
              rfl
          · cases h
      exact Or.inr ⟨.look r, by rw [hstate]; exact hlook⟩
    · cases h
  | wake r =>
    simp only [WaiterState.step, WaiterState.wake] at h
    split at h
    · split at h
      · obtain ⟨state, hwake, rfl⟩ := Option.map_eq_some_iff.mp h
        exact Or.inr ⟨.wake r, hwake⟩
      · cases h
    · cases h
  | resume r =>
    simp only [WaiterState.step, WaiterState.resume] at h
    split at h
    · split at h
      · obtain ⟨state, hwake, rfl⟩ := Option.map_eq_some_iff.mp h
        exact Or.inr ⟨.wake r, hwake⟩
      · cases h
    · cases h
  | expire r =>
    simp only [WaiterState.step, WaiterState.expire] at h
    split at h
    · split at h
      · obtain ⟨state, hexpire, rfl⟩ := Option.map_eq_some_iff.mp h
        exact Or.inr ⟨.expire r, hexpire⟩
      · cases h
    · cases h
  | cancelRead r =>
    simp only [WaiterState.step, WaiterState.cancelRead] at h
    split at h
    · obtain ⟨state, hcancel, rfl⟩ := Option.map_eq_some_iff.mp h
      exact Or.inr ⟨.cancelRead r, hcancel⟩
    · cases h
  | leave r =>
    simp only [WaiterState.step, WaiterState.leave] at h
    split at h
    · split at h
      · cases h
        exact Or.inl rfl
      · cases h
    · cases h
  | runCallback l =>
    obtain ⟨owners, -, rfl⟩ := Option.map_eq_some_iff.mp h
    exact Or.inl rfl
  | newLoop =>
    cases h
    exact Or.inl rfl
  | closeLoop l =>
    cases h
    exact Or.inl rfl
  | advance time =>
    cases h
    exact Or.inr ⟨.advance time, rfl⟩

variable {timeout : Option Int} {maxHistory : Option Nat} {wakeMode : WakeMode}

/-- What holds of the tunnel alone holds under its waiters. -/
theorem tunnel_reachable (hs : (waiterSystem α ε timeout maxHistory wakeMode).Reachable s) :
    (tunnelSystem α ε timeout maxHistory).Reachable s.state := by
  refine hs.invariant (I := fun s => (tunnelSystem α ε timeout maxHistory).Reachable s.state) ?_
    fun s e s' ih _ hstep => ?_
  · rintro _ ⟨tunnel, hnew, rfl⟩
    exact .init ⟨tunnel, hnew, rfl⟩
  · rcases step_refines hstep with hsame | ⟨e', hstep'⟩
    · rwa [hsame]
    · exact .step ih trivial hstep'

theorem reachable_closedEnded {state : TunnelState α ε}
    (hs : (tunnelSystem α ε timeout maxHistory).Reachable state) : state.ClosedEnded := by
  refine hs.invariant ?_ fun _ _ _ ih _ hstep => ih.effect (TunnelState.step_effect hstep)
  rintro _ ⟨tunnel, -, rfl⟩ i u hu
  cases hu

theorem waitersInv_of_reachable
    (hs : (waiterSystem α ε timeout maxHistory wakeMode).Reachable s) : s.WaitersInv := by
  refine hs.invariant_of (fun _ h => tunnel_reachable h) ?_ fun s e s' htunnel ih _ hstep =>
    ih.step (TunnelState.reachable_serves htunnel) (reachable_closedEnded htunnel) hstep
  rintro _ ⟨tunnel, -, rfl⟩
  refine ⟨rfl, rfl, (fun _ h => by cases h), (fun _ h => ?_), (fun _ _ _ h => by cases h),
    (fun _ h => by cases h), (fun _ h => by cases h), ⟨List.nodup_nil, fun _ h => by cases h⟩,
    fun _ _ h => by cases h⟩
  rcases h with h | h
  · cases h
  · cases h

theorem WaitersInv.noLostWakeup (hs : s.WaitersInv) : s.NoLostWakeup where
  registered := hs.registered
  told := hs.told
  once := hs.logged.1
  waiting r read hread hmode hphase := by
    obtain ⟨l, f, htask, hnot, hf⟩ := hs.waiting r read hread hmode hphase
    exact ⟨f, ⟨l, r⟩, hs.own r l f htask, rfl, hnot, hf⟩

end WaiterState

/-! ## 7. The two modes -/

namespace OwnerLoops

variable {o o' p p' : OwnerLoops} {l : Nat}

theorem resolve_withLoops (o : OwnerLoops) (f : Nat) (loops : List OwnerLoop) :
    ({ o with loops := loops } : OwnerLoops).resolve f = { o.resolve f with loops := loops } := by
  unfold resolve
  split <;> rfl

theorem resolveGroup_withLoops (o : OwnerLoops) (fs : List Nat) (loops : List OwnerLoop) :
    ({ o with loops := loops } : OwnerLoops).resolveGroup fs =
      { o.resolveGroup fs with loops := loops } := by
  induction fs generalizing o with
  | nil => rfl
  | cons f fs ih => rw [resolveGroup_cons, resolve_withLoops, ih, resolveGroup_cons]

/-- A loop that has run everything has resolved what was queued on it. -/
theorem drain_of_running {ready : List WakeCallback} (h : o.loops[l]? = some (.running ready)) :
    o.drain l = ({ o with loops := o.loops.set l (.running []) } : OwnerLoops).resolveGroup
      (ready.flatMap WakeCallback.futures) := by
  have hall : ∀ (ready : List WakeCallback) (o : OwnerLoops),
      ready.foldl (fun o callback => o.resolveGroup callback.futures) o =
        o.resolveGroup (ready.flatMap WakeCallback.futures) := by
    intro ready
    induction ready with
    | nil => exact fun o => rfl
    | cons callback ready ih =>
      intro o
      rw [List.foldl_cons, ih, List.flatMap_cons, resolveGroup_append]
  simp only [drain, h]
  exact hall ready _

theorem drain_of_idle (h : o.loops[l]? = some (.running [])) : o.drain l = o := by
  have hset : o.loops.set l (.running []) = o.loops := by
    refine List.ext_getElem? fun l' => ?_
    by_cases hl : l' = l
    · subst hl
      rw [getElem?_set_self' h, h]
    · rw [List.getElem?_set_ne (Ne.symm hl)]
  rw [drain_of_running h, hset]
  rfl

/-- It runs them one after the other. -/
theorem drain_runCallback {callback : WakeCallback} {ready : List WakeCallback}
    (h : o.loops[l]? = some (.running (callback :: ready))) :
    ∃ p, o.runCallback l = some p ∧ p.loops[l]? = some (.running ready) ∧
      p.drain l = o.drain l := by
  have hrun : o.runCallback l = some (({ o with loops := o.loops.set l (.running ready) } :
      OwnerLoops).resolveGroup callback.futures) := by
    rw [runCallback, h]
  have hready : (({ o with loops := o.loops.set l (.running ready) } :
      OwnerLoops).resolveGroup callback.futures).loops[l]? = some (.running ready) := by
    rw [resolveGroup_loops]
    exact getElem?_set_self' h
  refine ⟨_, hrun, hready, ?_⟩
  rw [drain_of_running hready, drain_of_running h, List.flatMap_cons, resolveGroup_append,
    resolveGroup_loops, List.set_set, ← resolveGroup_withLoops]

theorem drain_of_not_running (h : ∀ ready, o.loops[l]? ≠ some (.running ready)) :
    o.drain l = o := by
  unfold drain
  split
  · rename_i ready hloop
    exact absurd hloop (h ready)
  · rfl

theorem queue_of_not_running (h : ∀ ready, o.loops[l]? ≠ some (.running ready)) :
    o.queue l = [] := by
  unfold queue
  cases hloop : o.loops[l]? with
  | none => rfl
  | some loop =>
    cases loop with
    | running ready => exact absurd hloop (h ready)
    | closed => rfl

theorem drain_loops {ready : List WakeCallback} (h : o.loops[l]? = some (.running ready)) :
    (o.drain l).loops = o.loops.set l (.running []) := by
  rw [drain_of_running h, resolveGroup_loops]

theorem drain_futures (o : OwnerLoops) (l f : Nat) :
    (o.drain l).futures[f]? =
      if f ∈ o.queue l ∧ o.futures[f]? = some .pending then some .resolved
      else o.futures[f]? := by
  by_cases h : ∃ ready, o.loops[l]? = some (.running ready)
  · obtain ⟨ready, hready⟩ := h
    rw [drain_of_running hready, resolveGroup_futures, queue_of_loop hready]
    rfl
  · have h := not_exists.mp h
    rw [drain_of_not_running h, queue_of_not_running h, if_neg fun h => by cases h.1]

theorem drain_queue (o : OwnerLoops) (l l' : Nat) :
    (o.drain l).queue l' = if l' = l then [] else o.queue l' := by
  by_cases h : ∃ ready, o.loops[l]? = some (.running ready)
  · obtain ⟨ready, hready⟩ := h
    exact queue_set hready (drain_loops hready) l'
  · have h := not_exists.mp h
    rw [drain_of_not_running h]
    split
    · rename_i heq
      rw [heq, queue_of_not_running h]
    · rfl

theorem drain_length (o : OwnerLoops) (l : Nat) :
    (o.drain l).futures.length = o.futures.length := by
  by_cases h : ∃ ready, o.loops[l]? = some (.running ready)
  · obtain ⟨ready, hready⟩ := h
    rw [drain_of_running hready, resolveGroup_length]
  · rw [drain_of_not_running (not_exists.mp h)]

theorem isRunning_set {loop : OwnerLoop} (h : o.loops[l]? = some loop)
    {ready : List WakeCallback} (hrunning : loop.isRunning = true)
    (hloops : o'.loops = o.loops.set l (.running ready)) (l' : Nat) :
    o'.isRunning l' = o.isRunning l' := by
  unfold isRunning
  rw [hloops]
  by_cases hl : l' = l
  · subst hl
    rw [getElem?_set_self' h, h]
    exact hrunning.symm
  · rw [List.getElem?_set_ne (Ne.symm hl)]

theorem drain_isRunning (o : OwnerLoops) (l l' : Nat) :
    (o.drain l).isRunning l' = o.isRunning l' := by
  by_cases h : ∃ ready, o.loops[l]? = some (.running ready)
  · obtain ⟨ready, hready⟩ := h
    exact isRunning_set hready rfl (drain_loops hready) l'
  · rw [drain_of_not_running (not_exists.mp h)]

theorem drain_loops_length (o : OwnerLoops) (l : Nat) :
    (o.drain l).loops.length = o.loops.length := by
  by_cases h : ∃ ready, o.loops[l]? = some (.running ready)
  · obtain ⟨ready, hready⟩ := h
    rw [drain_loops hready, List.length_set]
  · rw [drain_of_not_running (not_exists.mp h)]

theorem newLoop_queue (o : OwnerLoops) (l : Nat) : o.newLoop.queue l = o.queue l := by
  unfold queue newLoop
  rcases Nat.lt_trichotomy l o.loops.length with h | rfl | h
  · rw [List.getElem?_append_left h]
  · simp [OwnerLoop.queue]
  · rw [List.getElem?_eq_none (by simp; omega), List.getElem?_eq_none (by omega)]

theorem newLoop_isRunning (o : OwnerLoops) (l : Nat) :
    o.newLoop.isRunning l = (o.isRunning l || decide (l = o.loops.length)) := by
  unfold isRunning newLoop
  rcases Nat.lt_trichotomy l o.loops.length with h | rfl | h
  · rw [List.getElem?_append_left h, decide_eq_false (by omega), Bool.or_false]
  · simp [OwnerLoop.isRunning]
  · rw [List.getElem?_eq_none (by simp; omega), List.getElem?_eq_none (by omega),
      decide_eq_false (by omega)]
    rfl

theorem closeLoop_queue (o : OwnerLoops) (l l' : Nat) :
    (o.closeLoop l).queue l' = if l' = l then [] else o.queue l' := by
  unfold queue closeLoop
  by_cases h : l' = l
  · subst h
    rw [if_pos rfl]
    by_cases hvalid : l' < o.loops.length
    · simp [hvalid, OwnerLoop.queue]
    · simp [hvalid]
  · rw [if_neg h, List.getElem?_set_ne (Ne.symm h)]

theorem closeLoop_isRunning (o : OwnerLoops) (l l' : Nat) :
    (o.closeLoop l).isRunning l' = if l' = l then false else o.isRunning l' := by
  unfold isRunning closeLoop
  by_cases h : l' = l
  · subst h
    rw [if_pos rfl]
    by_cases hvalid : l' < o.loops.length
    · simp [hvalid, OwnerLoop.isRunning]
    · simp [hvalid]
  · rw [if_neg h, List.getElem?_set_ne (Ne.symm h)]

/-- The same futures, and the same ones queued on each loop. -/
def SameQueues (o o' : OwnerLoops) : Prop :=
  o.futures = o'.futures ∧ ∀ l, o.queue l = o'.queue l

theorem SameQueues.drain (h : o.SameQueues o') (l : Nat) : (o.drain l).SameQueues (o'.drain l) := by
  refine ⟨List.ext_getElem? fun f => ?_, fun l' => ?_⟩
  · rw [drain_futures, drain_futures, h.1, h.2]
  · rw [drain_queue, drain_queue, h.2]

theorem SameQueues.drainAll (h : o.SameQueues o') (ls : List Nat) :
    (ls.foldl OwnerLoops.drain o).SameQueues (ls.foldl OwnerLoops.drain o') := by
  induction ls generalizing o o' with
  | nil => exact h
  | cons l ls ih => exact ih (h.drain l)

/-- `o'` is as far as `o`, and may have resolved more of what is queued. -/
structure Leads (o o' : OwnerLoops) : Prop where
  length : o'.futures.length = o.futures.length
  isRunning : ∀ l, o'.isRunning l = o.isRunning l
  loops : o'.loops.length = o.loops.length
  future : ∀ f : Nat, o'.futures[f]? = o.futures[f]? ∨ o'.futures[f]? = some .resolved
  known : ∀ l f, f ∈ o.queue l → f < o.futures.length
  queue : ∀ l f, f ∈ o.queue l → f ∈ o'.queue l ∨ o'.futures[f]? ≠ some .pending

namespace Leads

theorem createFuture (h : o.Leads o') : o.createFuture.Leads o'.createFuture where
  length := by simp [OwnerLoops.createFuture, h.length]
  isRunning := h.isRunning
  loops := h.loops
  future f := by
    unfold OwnerLoops.createFuture
    rcases Nat.lt_or_ge f o.futures.length with hf | hf
    · rw [List.getElem?_append_left hf, List.getElem?_append_left (by rwa [h.length])]
      exact h.future f
    · rw [List.getElem?_append_right hf, List.getElem?_append_right (by rwa [h.length]), h.length]
      exact Or.inl rfl
  known l f hf := by
    have := h.known l f hf
    simp [OwnerLoops.createFuture]
    omega
  queue l f hf := by
    refine (h.queue l f hf).imp_right fun hdone hpending => ?_
    rcases getElem?_append_cases hpending with ⟨heq, -⟩ | hold
    · have := h.known l f hf
      have := h.length
      omega
    · exact hdone hold

theorem cancel (h : o.Leads o') (f : Nat) : (o.cancel f).Leads (o'.cancel f) where
  length := by rw [cancel_length, cancel_length, h.length]
  isRunning l := by
    rw [OwnerLoops.isRunning, cancel_loops, OwnerLoops.isRunning, cancel_loops]
    exact h.isRunning l
  loops := by rw [cancel_loops, cancel_loops, h.loops]
  future g := by
    rw [cancel_futures, cancel_futures]
    rcases h.future g with hsame | hresolved
    · by_cases hg : g = f
      · subst hg
        rw [hsame]
        exact Or.inl rfl
      · rw [if_neg fun h => hg h.1, if_neg fun h => hg h.1]
        exact Or.inl hsame
    · rw [if_neg]
      · exact Or.inr hresolved
      · rintro ⟨rfl, hpending⟩
        rw [hresolved] at hpending
        cases hpending
  known l g hg := by
    rw [cancel_queue] at hg
    rw [cancel_length]
    exact h.known l g hg
  queue l g hg := by
    rw [cancel_queue] at hg ⊢
    rw [cancel_futures]
    refine (h.queue l g hg).imp_right fun hdone => ?_
    split
    · exact fun h => by cases h
    · exact hdone

/-- A notification of both, in any two modes. -/
theorem queues (h : o.Leads o') {calls calls' : List (Nat × WakeCallback)}
    (hq : o.Queues p calls) (hq' : o'.Queues p' calls')
    (hcalls : ∀ l, calledOn l calls = calledOn l calls')
    (hknown : ∀ l, ∀ f ∈ calledOn l calls, f < o.futures.length) : p.Leads p' where
  length := by rw [hq.futures, hq'.futures, h.length]
  isRunning l := by rw [hq.isRunning, hq'.isRunning, h.isRunning]
  loops := by rw [hq.length, hq'.length, h.loops]
  future f := by
    rw [hq.futures, hq'.futures]
    exact h.future f
  known l f hf := by
    rw [hq.queue] at hf
    rw [hq.futures]
    rcases List.mem_append.mp hf with hf | hf
    · exact h.known l f hf
    · split at hf
      · exact hknown l f hf
      · cases hf
  queue l f hf := by
    rw [hq.queue] at hf
    rw [hq'.queue, hq'.futures, h.isRunning, ← hcalls]
    rcases List.mem_append.mp hf with hf | hf
    · exact (h.queue l f hf).imp_left (List.mem_append_left _)
    · exact Or.inl (List.mem_append_right _ hf)

/-- The first callback of a loop, and all of them. -/
theorem runsFirst (h : o.Leads o') {callback : WakeCallback} {ready : List WakeCallback}
    (hruns : o.RunsFirst p l callback ready) : p.Leads (o'.drain l) := by
  have hhead : ∀ f ∈ callback.futures, f ∈ o.queue l := by
    intro f hf
    rw [queue_of_loop hruns.loop]
    exact List.mem_append_left _ hf
  have hdone : ∀ f : Nat, o'.futures[f]? ≠ some .pending →
      (o'.drain l).futures[f]? ≠ some .pending := by
    intro f hf
    rw [drain_futures, if_neg fun h => hf h.2]
    exact hf
  -- whatever was queued on the loop is done in `o'` now
  have hover : ∀ f ∈ o.queue l, (o'.drain l).futures[f]? ≠ some .pending := by
    intro f hf
    by_cases hpending : o'.futures[f]? = some .pending
    · have hmem := (h.queue l f hf).resolve_right fun h => h hpending
      rw [drain_futures, if_pos ⟨hmem, hpending⟩]
      exact fun h => by cases h
    · exact hdone f hpending
  refine ⟨?_, fun l' => ?_, ?_, fun f => ?_, fun l' f hf => ?_, fun l' f hf => ?_⟩
  · rw [drain_length, hruns.length, h.length]
  · rw [drain_isRunning, h.isRunning, isRunning_set hruns.loop rfl hruns.loops]
  · rw [drain_loops_length, hruns.loops, List.length_set, h.loops]
  · rw [hruns.futures]
    split
    · rename_i hf
      have hnot := hover f (hhead f hf.1)
      refine Or.inr ?_
      rcases h.future f with hsame | hresolved
      · rw [drain_futures] at hnot ⊢
        split at hnot
        · rename_i hqueued
          rw [if_pos hqueued]
        · exact absurd (hsame.trans hf.2) hnot
      · rw [drain_futures, hresolved, if_neg (fun h => by cases h.2)]
    · rw [drain_futures]
      split
      · exact Or.inr rfl
      · exact h.future f
  · rw [queue_set hruns.loop hruns.loops] at hf
    rw [hruns.length]
    by_cases hl : l' = l
    · rw [if_pos hl] at hf
      refine h.known l f ?_
      rw [queue_of_loop hruns.loop]
      exact List.mem_append_right _ hf
    · rw [if_neg hl] at hf
      exact h.known l' f hf
  · rw [queue_set hruns.loop hruns.loops] at hf
    by_cases hl : l' = l
    · rw [if_pos hl] at hf
      refine Or.inr (hover f ?_)
      rw [queue_of_loop hruns.loop]
      exact List.mem_append_right _ hf
    · rw [if_neg hl] at hf
      rw [drain_queue, if_neg hl]
      exact (h.queue l' f hf).imp_right (hdone f)

theorem newLoop (h : o.Leads o') : o.newLoop.Leads o'.newLoop where
  length := h.length
  isRunning l := by rw [newLoop_isRunning, newLoop_isRunning, h.isRunning, h.loops]
  loops := by simp [OwnerLoops.newLoop, h.loops]
  future := h.future
  known l f hf := by
    rw [newLoop_queue] at hf
    exact h.known l f hf
  queue l f hf := by
    rw [newLoop_queue] at hf ⊢
    exact h.queue l f hf

theorem closeLoop (h : o.Leads o') (l : Nat) : (o.closeLoop l).Leads (o'.closeLoop l) where
  length := h.length
  isRunning l' := by rw [closeLoop_isRunning, closeLoop_isRunning, h.isRunning]
  loops := by simp [OwnerLoops.closeLoop, h.loops]
  future := h.future
  known l' f hf := by
    rw [closeLoop_queue] at hf
    split at hf
    · cases hf
    · exact h.known l' f hf
  queue l' f hf := by
    rw [closeLoop_queue] at hf ⊢
    split at hf
    · cases hf
    · rename_i hl
      rw [if_neg hl]
      exact h.queue l' f hf

end Leads

end OwnerLoops

namespace WaiterState

variable {s s' : WaiterState α ε} {m : WakeMode} {o : OwnerLoops}
  {timeout : Option Int} {maxHistory : Option Nat}

/-- The same tunnel and waiters in another mode, with other loops. -/
def withOwners (s : WaiterState α ε) (m : WakeMode) (o : OwnerLoops) : WaiterState α ε :=
  { s with wakeMode := m, owners := o }

/-- Everything that is queued on a loop can be run. -/
theorem run_drain (s : WaiterState α ε) (m : WakeMode) (o : OwnerLoops) (l : Nat) :
    ∃ es, (waiterSystem α ε timeout maxHistory m).run (s.withOwners m o) es =
      some (s.withOwners m (o.drain l)) := by
  by_cases h : ∃ ready, o.loops[l]? = some (.running ready)
  · obtain ⟨ready, hready⟩ := h
    induction ready generalizing o with
    | nil => exact ⟨[], by rw [OwnerLoops.drain_of_idle hready]; rfl⟩
    | cons callback ready ih =>
      obtain ⟨p, hrun, hrest, hdrain⟩ := OwnerLoops.drain_runCallback hready
      obtain ⟨es, hes⟩ := ih p hrest
      have hstep : (waiterSystem α ε timeout maxHistory m).step (s.withOwners m o)
          (.runCallback l) = some (s.withOwners m p) :=
        congrArg (Option.map fun owners =>
          ({ s.withOwners m o with owners := owners } : WaiterState α ε)) hrun
      refine ⟨.runCallback l :: es, ?_⟩
      rw [System.run_cons_of_step hstep, hes, hdrain]
  · exact ⟨[], by rw [OwnerLoops.drain_of_not_running (not_exists.mp h)]; rfl⟩

theorem notify_withOwners (hs : s.WaitersInv) (ho : s.owners.Leads o) {state : TunnelState α ε}
    {wakes : Bool} {order : List Nat} (h : s.notify state wakes order = some s') :
    ∃ o', (s.withOwners m o).notify state wakes order = some (s'.withOwners m o') ∧
      s'.owners.Leads o' := by
  rcases notify_spec h with ⟨hwakes, rfl⟩ | ⟨hwakes, horder, rfl⟩
  · refine ⟨o, ?_, ho⟩
    rw [notify, hwakes]
    rfl
  · refine ⟨_, ?_, ho.queues (OwnerLoops.queues_callAll _ _) (OwnerLoops.queues_callAll
      (({ s with state := state } : WaiterState α ε).wakeCalls order m) _) (fun l => ?_)
      fun l f hf => ?_⟩
    · rw [notify, hwakes, if_pos rfl, if_pos (show order.Perm (s.withOwners m o).asyncWaiters from
        horder)]
      rfl
    · rw [calledOn_wakeCalls, calledOn_wakeCalls]
    · rw [calledOn_wakeCalls] at hf
      rw [hs.futures]
      exact hs.known f (Or.inl (horder.mem_iff.mp (List.mem_filter.mp hf).1))

theorem look_withOwners (ho : s.owners.Leads o) {r : Nat} (h : s.look r = some s') :
    ∃ o', (s.withOwners m o).look r = some (s'.withOwners m o') ∧ s'.owners.Leads o' := by
  unfold look at h ⊢
  split at h
  · rename_i read task hread htask
    obtain ⟨state, hlook, h⟩ := Option.bind_eq_some_iff.mp h
    simp only [withOwners, hread, htask, hlook, Option.bind_some, ho.isRunning]
    split at h
    · rename_i hsync
      cases h
      exact ⟨o, by rw [if_pos hsync], ho⟩
    · rename_i hasync
      split at h
      · rename_i hloop
        split at h
        · rename_i hwaits
          cases h
          refine ⟨o.createFuture, ?_, ho.createFuture⟩
          rw [if_neg hasync, if_pos hloop, if_pos hwaits]
          rfl
        · rename_i hdone
          cases h
          exact ⟨o, by rw [if_neg hasync, if_pos hloop, if_neg hdone], ho⟩
      · cases h
  · cases h

theorem wake_withOwners (ho : s.owners.Leads o) {r : Nat} (h : s.wake r = some s') :
    ∃ o', (s.withOwners m o).wake r = some (s'.withOwners m o') ∧ s'.owners.Leads o' := by
  unfold wake at h ⊢
  split at h
  · rename_i read hread
    split at h
    · rename_i hsync
      obtain ⟨state, hwake, rfl⟩ := Option.map_eq_some_iff.mp h
      refine ⟨o, ?_, ho⟩
      simp only [withOwners, hread, if_pos hsync, hwake, Option.map_some]
    · cases h
  · cases h

/-- A future that is resolved in one mode is resolved in the other. -/
theorem resume_withOwners (ho : s.owners.Leads o) {r : Nat} (h : s.resume r = some s') :
    ∃ o', (s.withOwners m o).resume r = some (s'.withOwners m o') ∧ s'.owners.Leads o' := by
  unfold resume at h ⊢
  split at h
  · rename_i l f htask
    split at h
    · rename_i hguard
      obtain ⟨state, hwake, rfl⟩ := Option.map_eq_some_iff.mp h
      have hresolved : o.futures[f]? = some .resolved := by
        rcases ho.future f with hsame | hresolved
        · exact hsame.trans hguard.2
        · exact hresolved
      refine ⟨o, ?_, ho⟩
      simp only [withOwners, htask, ho.isRunning, hguard.1, hresolved, and_self, if_pos, hwake,
        Option.map_some]
    · cases h
  · cases h

theorem expire_withOwners (ho : s.owners.Leads o) {r : Nat} (h : s.expire r = some s') :
    ∃ o', (s.withOwners m o).expire r = some (s'.withOwners m o') ∧ s'.owners.Leads o' := by
  unfold expire at h ⊢
  split at h
  · rename_i l f htask
    split at h
    · rename_i hloop
      obtain ⟨state, hexpire, rfl⟩ := Option.map_eq_some_iff.mp h
      refine ⟨o.cancel f, ?_, ho.cancel f⟩
      simp only [withOwners, htask, ho.isRunning, if_pos hloop, hexpire, Option.map_some]
    · cases h
  · cases h

theorem cancelRead_withOwners (ho : s.owners.Leads o) {r : Nat} (h : s.cancelRead r = some s') :
    ∃ o', (s.withOwners m o).cancelRead r = some (s'.withOwners m o') ∧ s'.owners.Leads o' := by
  unfold cancelRead at h ⊢
  split at h
  · rename_i read l f hread htask
    obtain ⟨state, hcancel, rfl⟩ := Option.map_eq_some_iff.mp h
    refine ⟨if (s.state.subscribers[read.subscription]?).any
        fun u => u.subscription.timeout.isNone then o.cancel f else o, ?_, ?_⟩
    · rw [show (s.withOwners m o).state = s.state from rfl, hread,
        show (s.withOwners m o).tasks = s.tasks from rfl, htask]
      simp only [hcancel, Option.map_some]
      rfl
    · split
      · exact ho.cancel f
      · exact ho
  · cases h

theorem leave_withOwners (ho : s.owners.Leads o) {r : Nat} (h : s.leave r = some s') :
    ∃ o', (s.withOwners m o).leave r = some (s'.withOwners m o') ∧ s'.owners.Leads o' := by
  unfold leave at h ⊢
  split at h
  · rename_i read l f hread htask
    split at h
    · rename_i hdone
      cases h
      refine ⟨o, ?_, ho⟩
      simp only [withOwners, hread, htask, if_pos hdone]
    · cases h
  · cases h

/-- **Either mode follows the other.**  What a step does to the tunnel and the waiters in one mode
    can be done in the other. -/
theorem follows (hs : s.WaitersInv) (ho : s.owners.Leads o) {e : WaiterEvent α ε}
    (h : s.step e = some s') :
    ∃ es o', (waiterSystem α ε timeout maxHistory m).run (s.withOwners m o) es =
      some (s'.withOwners m o') ∧ s'.owners.Leads o' := by
  -- most steps are taken as they are
  have hone : (∃ o', (s.withOwners m o).step e = some (s'.withOwners m o') ∧ s'.owners.Leads o') →
      ∃ es o', (waiterSystem α ε timeout maxHistory m).run (s.withOwners m o) es =
        some (s'.withOwners m o') ∧ s'.owners.Leads o' := by
    rintro ⟨o', hstep, hleads⟩
    refine ⟨[e], o', ?_, hleads⟩
    rw [System.run_cons_of_step (show (waiterSystem α ε timeout maxHistory m).step _ e = _ from
      hstep), System.run_nil]
  cases e with
  | put data order => exact hone (notify_withOwners hs ho h)
  | close order => exact hone (notify_withOwners hs ho h)
  | fail error order => exact hone (notify_withOwners hs ho h)
  | closeSubscription i order =>
    refine hone ?_
    simp only [WaiterState.step, WaiterState.closeSubscription] at h ⊢
    split at h
    · rename_i u hu
      obtain ⟨state, hclose, h⟩ := Option.bind_eq_some_iff.mp h
      obtain ⟨o', hnotify, hleads⟩ := notify_withOwners (m := m) hs ho h
      refine ⟨o', ?_, hleads⟩
      rw [show (s.withOwners m o).state = s.state from rfl, hu]
      simp only [hclose, Option.bind_some]
      exact hnotify
    · cases h
  | subscribe start timeout' =>
    cases h
    exact hone ⟨o, rfl, ho⟩
  | beginRead i mode l =>
    refine hone ?_
    simp only [WaiterState.step, WaiterState.beginRead] at h ⊢
    split at h
    · rename_i hguard
      obtain ⟨state, hbegin, rfl⟩ := Option.map_eq_some_iff.mp h
      refine ⟨o, ?_, ho⟩
      rw [show (s.withOwners m o).owners = o from rfl, ho.isRunning, if_pos hguard,
        show (s.withOwners m o).state = s.state from rfl, hbegin]
      rfl
    · cases h
  | look r => exact hone (look_withOwners ho h)
  | wake r => exact hone (wake_withOwners ho h)
  | resume r => exact hone (resume_withOwners ho h)
  | expire r => exact hone (expire_withOwners ho h)
  | cancelRead r => exact hone (cancelRead_withOwners ho h)
  | leave r => exact hone (leave_withOwners ho h)
  | runCallback l =>
    obtain ⟨owners, howners, rfl⟩ := Option.map_eq_some_iff.mp h
    obtain ⟨callback, ready, hruns⟩ := OwnerLoops.runCallback_spec howners
    obtain ⟨es, hes⟩ : ∃ es, (waiterSystem α ε timeout maxHistory m).run (s.withOwners m o) es =
        some (s.withOwners m (o.drain l)) := run_drain s m o l
    exact ⟨es, o.drain l, hes, ho.runsFirst hruns⟩
  | newLoop =>
    cases h
    exact hone ⟨o.newLoop, rfl, ho.newLoop⟩
  | closeLoop l =>
    cases h
    exact hone ⟨o.closeLoop l, rfl, ho.closeLoop l⟩
  | advance time =>
    cases h
    exact hone ⟨o, rfl, ho⟩

/-- Every reachable state of the tunnel and its waiters is reachable in either mode. -/
theorem reachable_in_mode {wakeMode : WakeMode} (m : WakeMode)
    (hs : (waiterSystem α ε timeout maxHistory wakeMode).Reachable s) :
    ∃ o, (waiterSystem α ε timeout maxHistory m).Reachable (s.withOwners m o) ∧
      s.owners.Leads o := by
  refine hs.invariant_of (I := fun s => ∃ o,
      (waiterSystem α ε timeout maxHistory m).Reachable (s.withOwners m o) ∧ s.owners.Leads o)
    (fun _ h => waitersInv_of_reachable h) ?_ fun s e s' hinv ⟨o, hreach, hleads⟩ _ hstep => ?_
  · rintro _ ⟨tunnel, hnew, rfl⟩
    exact ⟨{}, .init ⟨tunnel, hnew, rfl⟩, rfl, fun _ => rfl, rfl, fun _ => Or.inl rfl,
      (fun l f hf => by cases hf), fun l f hf => by cases hf⟩
  · obtain ⟨es, o', hrun, hleads'⟩ := follows hinv hleads hstep
    exact ⟨o', hreach.run hrun, hleads'⟩

/-- For every set of waiters both modes resolve the same futures. -/
theorem same_futures (s : WaiterState α ε) (order ls : List Nat) :
    s.resolvedIn .grouped order ls = s.resolvedIn .individual order ls := by
  have hgrouped := OwnerLoops.queues_callAll (s.wakeCalls order .grouped) s.owners
  have hindividual := OwnerLoops.queues_callAll (s.wakeCalls order .individual) s.owners
  refine (OwnerLoops.SameQueues.drainAll ⟨?_, fun l => ?_⟩ ls).1
  · exact hgrouped.futures.trans hindividual.futures.symm
  · refine (hgrouped.queue l).trans (Eq.trans ?_ (hindividual.queue l).symm)
    rw [calledOn_wakeCalls, calledOn_wakeCalls]

/-- **No wake-up is lost, in either mode.**  And the mode changes nothing that a reader sees. -/
theorem no_lost_wakeup (wakeMode : WakeMode)
    (hs : (waiterSystem α ε timeout maxHistory wakeMode).Reachable s) :
    s.NoLostWakeup ∧
      (∀ order ls, s.resolvedIn .grouped order ls = s.resolvedIn .individual order ls) ∧
      ∀ m, ∃ s', (waiterSystem α ε timeout maxHistory m).Reachable s' ∧ s'.state = s.state ∧
        s'.asyncWaiters = s.asyncWaiters := by
  refine ⟨(waitersInv_of_reachable hs).noLostWakeup, s.same_futures, fun m => ?_⟩
  obtain ⟨o, hreach, -⟩ := reachable_in_mode m hs
  exact ⟨_, hreach, rfl, rfl⟩

/-- Two readers wait on two loops, of which one is closed when an item is put. -/
def closedOwner : List (WaiterEvent Nat Nat) :=
  [.newLoop, .newLoop, .subscribe .earliest none, .subscribe .earliest none,
    .beginRead 0 .async 0, .look 0, .beginRead 1 .async 1, .look 1, .closeLoop 0, .put 7 [1, 0],
    .runCallback 1]

theorem closed_owner_no_lost_wakeup :
    ∃ s, (waiterSystem Nat Nat none none .grouped).run
        { state := { tunnel := ⟨[], 0, 0, false, none, none, none⟩ }, wakeMode := .grouped }
        closedOwner = some s ∧ s.notified = [1, 0] ∧ s.owners.resolutions = [1] ∧
      s.NoLostWakeup := by
  refine ⟨_, rfl, rfl, rfl, ?_⟩
  exact (no_lost_wakeup .grouped (System.reachable_of_run
    (S := waiterSystem Nat Nat none none .grouped) closedOwner ⟨_, rfl, rfl⟩ rfl)).1

end WaiterState

end AgentlyStage
