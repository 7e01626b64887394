/-
Clustering.Handshake.World — the handshake between task actors and
virtual machines, as one system.

The state holds any number of `TaskActor`s, `VMProxyActor`s and
`TaskExecutorActor`s (numbered by ℕ), the futures not yet completed and
the messages on their way. The handlers are those of
`Worker.TaskActor` and `Vm.VMProxyActor`; this module interprets their
effects and adds what Akka does by itself: death watch, supervision of
an executor by its task actor, restart of a virtual machine's actor.

What the rest of the cluster does is left open. Any `GetTask` may reach
any task actor at any time, any task actor may receive
`PersistAndSuicide` or be stopped by its supervisor, any machine may
die, any ask may time out. Messages on their way are taken in any
order, so every delivery order of the real system is among the runs.

A handshake is named by the number of its `SendTask` ask; messages
carry that number so that statements can tell which accepted task a
message belongs to. No handler reads it.
-/
import Mathlib.Logic.Function.Basic
import Clustering.Actors.Runs
import Clustering.Worker.TaskActor
import Clustering.Vm.VMProxyActor

namespace Clustering.Handshake

open Actors Clustering.Worker Clustering.Vm

/-! ## State -/

/-- Where a task actor is in its life. -/
inductive TaskPhase where
  /-- Not created yet. -/
  | absent
  | running
  /-- Suspended with an exception its supervisor has not judged yet. -/
  | failed (t : Throwable)
  | stopped
  deriving DecidableEq, Repr

/-- A task actor: its fields, the actors it watches, the `Terminated`
messages in its mailbox, and (for statements only) those it handled. -/
structure TaskCell where
  actor : TaskActor
  phase : TaskPhase
  watching : List Ref
  notices : List Ref
  reported : List Ref

inductive ExecutorPhase where
  | absent
  | live
  /-- Suspended; its `Failed` has not reached the task actor. -/
  | threw (t : Throwable)
  /-- Suspended; the task actor has judged its exception. -/
  | suspended
  | dead
  deriving DecidableEq, Repr

/-- An executor: the task actor that created it, the handshake it
belongs to, the `targetVM` of the `ExecuteTask` it was sent, and whether
its task actor has stopped it. -/
structure ExecutorCell where
  task : ℕ
  handshake : ℕ
  target : Option ℕ
  phase : ExecutorPhase
  stopped : Bool

/-- The executor exists and has not terminated. -/
def ExecutorCell.Live (c : ExecutorCell) : Prop := c.phase ≠ .absent ∧ c.phase ≠ .dead

/-- Its task actor tells it to stop. -/
def ExecutorCell.stop (c : ExecutorCell) : ExecutorCell := { c with stopped := true }

def ExecutorCell.die (c : ExecutorCell) : ExecutorCell := { c with phase := .dead }

instance (c : ExecutorCell) : Decidable c.Live := inferInstanceAs (Decidable (_ ∧ _))

/-- A message on its way to a machine, with the handshake it is about. -/
structure Envelope where
  about : Option ℕ
  msg : VmMessage
  deriving DecidableEq, Repr

/-- A machine: its fields, its messages, the executors it watches, the
`GetTask` timers running for it, and whether `SetVagrantEnvironmentConfig`
(which its `VMActor` sends once, when it is provisioned) has come. -/
structure VmCell where
  actor : VMProxyActor
  alive : Bool
  mailbox : List Envelope
  watching : List ℕ
  timers : List ℕ
  configured : Bool

inductive AskKind where
  /-- `sender() ? SendTask(task)`. -/
  | sendTask (vm : ℕ)
  /-- `? GetExecutorAddress` in the callback whose target is `target`. -/
  | executorAddress (target : ℕ)
  deriving DecidableEq, Repr

/-- A future that has not completed. -/
structure Ask where
  handshake : ℕ
  task : ℕ
  kind : AskKind
  deriving DecidableEq, Repr

/-- A machine's answer to a `SendTask`, on its way. -/
structure Reply where
  handshake : ℕ
  vm : ℕ
  answer : Answer
  deriving DecidableEq, Repr

structure World where
  task : ℕ → TaskCell
  vm : ℕ → VmCell
  executor : ℕ → ExecutorCell
  asks : List Ask
  replies : List Reply
  /-- Numbers from here on are unused. -/
  next : ℕ
  /-- What the task actors sent to `/user/db`, with the sender. -/
  db : List (ℕ × DBMessage)
  /-- The handshakes a machine answered with `AcquireExecutor`. -/
  accepted : List (ℕ × ℕ)
  /-- The handshakes whose `CannotGetExecutor` a ready machine handled. -/
  declined : List ℕ

/-! ## Death watch -/

/-- A watched actor terminates: its `Terminated` joins the mailbox. -/
def TaskCell.notify (r : Ref) (c : TaskCell) : TaskCell :=
  if r ∈ c.watching then
    { c with watching := c.watching.filter (· ≠ r), notices := c.notices.insert r }
  else c

/-- `context.unwatch(r)`: also a `Terminated` already in the mailbox is
not delivered any more. -/
def TaskCell.unwatch (r : Ref) (c : TaskCell) : TaskCell :=
  { c with watching := c.watching.filter (· ≠ r), notices := c.notices.filter (· ≠ r) }

/-- The actor stops: nothing reaches it any more. -/
def TaskCell.halt (c : TaskCell) : TaskCell :=
  { c with phase := .stopped, watching := [], notices := [] }

/-- `context.watch(r)`: a dead actor is reported at once. -/
def TaskCell.watch (alive : Bool) (r : Ref) (c : TaskCell) : TaskCell :=
  if alive then { c with watching := c.watching.insert r }
  else { c with notices := c.notices.insert r }

namespace TaskCell

variable (b : Bool) (r r' : Ref) (c : TaskCell)

@[simp] theorem notify_actor : (c.notify r).actor = c.actor := by
  unfold notify
  split <;> rfl

@[simp] theorem notify_phase : (c.notify r).phase = c.phase := by
  unfold notify
  split <;> rfl

@[simp] theorem notify_reported : (c.notify r).reported = c.reported := by
  unfold notify
  split <;> rfl

@[simp] theorem mem_notify_watching :
    r' ∈ (c.notify r).watching ↔ r' ∈ c.watching ∧ r' ≠ r := by
  unfold notify
  split
  · simp
  · rename_i h
    constructor
    · intro hr
      exact ⟨hr, fun hrr => h (hrr ▸ hr)⟩
    · intro hr
      exact hr.1

@[simp] theorem mem_notify_notices :
    r' ∈ (c.notify r).notices ↔ r' ∈ c.notices ∨ r' = r ∧ r ∈ c.watching := by
  unfold notify
  split
  · rename_i h
    simp [h, or_comm]
  · rename_i h
    simp [h]

@[simp] theorem watch_actor : (c.watch b r).actor = c.actor := by
  unfold watch
  split <;> rfl

@[simp] theorem watch_phase : (c.watch b r).phase = c.phase := by
  unfold watch
  split <;> rfl

@[simp] theorem watch_reported : (c.watch b r).reported = c.reported := by
  unfold watch
  split <;> rfl

@[simp] theorem mem_watch_watching :
    r' ∈ (c.watch b r).watching ↔ r' ∈ c.watching ∨ b = true ∧ r' = r := by
  unfold watch
  split
  · rename_i h
    simp [h, or_comm]
  · rename_i h
    simp [h]

@[simp] theorem mem_watch_notices :
    r' ∈ (c.watch b r).notices ↔ r' ∈ c.notices ∨ b = false ∧ r' = r := by
  unfold watch
  split
  · rename_i h
    simp [h]
  · rename_i h
    simp [h, or_comm]

@[simp] theorem unwatch_actor : (c.unwatch r).actor = c.actor := rfl

@[simp] theorem unwatch_phase : (c.unwatch r).phase = c.phase := rfl

@[simp] theorem unwatch_reported : (c.unwatch r).reported = c.reported := rfl

@[simp] theorem mem_unwatch_watching :
    r' ∈ (c.unwatch r).watching ↔ r' ∈ c.watching ∧ r' ≠ r := by
  simp [unwatch]

@[simp] theorem mem_unwatch_notices :
    r' ∈ (c.unwatch r).notices ↔ r' ∈ c.notices ∧ r' ≠ r := by
  simp [unwatch]

end TaskCell

/-- A watched executor terminates. -/
def VmCell.notify (e h : ℕ) (c : VmCell) : VmCell :=
  if e ∈ c.watching then
    { c with watching := c.watching.filter (· ≠ e)
             mailbox := c.mailbox ++ [⟨some h, .terminated e⟩] }
  else c

namespace World

variable (w : World)

@[simps]
def updTask (t : ℕ) (f : TaskCell → TaskCell) : World :=
  { w with task := Function.update w.task t (f (w.task t)) }

@[simps]
def updVm (v : ℕ) (f : VmCell → VmCell) : World :=
  { w with vm := Function.update w.vm v (f (w.vm v)) }

@[simps]
def updExecutor (e : ℕ) (f : ExecutorCell → ExecutorCell) : World :=
  { w with executor := Function.update w.executor e (f (w.executor e)) }

/-- A message joins the mailbox of machine `v`. -/
def toVm (v : ℕ) (m : Envelope) : World :=
  w.updVm v fun c => { c with mailbox := c.mailbox ++ [m] }

def refAlive : Ref → Bool
  | .vm v => (w.vm v).alive
  | .executor e => (w.executor e).Live

/-- `context.watch(r)` by task actor `t`. -/
def watch (t : ℕ) (r : Ref) : World := w.updTask t (TaskCell.watch (w.refAlive r) r)

/-- The future `a` completes. -/
@[simps]
def dropAsk (a : Ask) : World := { w with asks := w.asks.filter (· ≠ a) }

/-- A future is created. -/
@[simps]
def addAsk (a : Ask) : World := { w with asks := w.asks ++ [a] }

/-- A number is used up. -/
@[simps]
def bump : World := { w with next := w.next + 1 }

/-- Assign the fields of task actor `t`. -/
def setActor (t : ℕ) (f : TaskActor → TaskActor) : World :=
  w.updTask t fun c => { c with actor := f c.actor }

/-- Executor `e` terminates; whoever watches it is told. -/
@[simps]
def killExecutor (e : ℕ) : World :=
  { w with
    executor := Function.update w.executor e (w.executor e).die
    task := fun t => (w.task t).notify (.executor e)
    vm := fun v => (w.vm v).notify e (w.executor e).handshake }

/-- Machine `v` terminates; the task actors that watch it are told. -/
@[simps]
def killVm (v : ℕ) : World :=
  { w with
    vm := Function.update w.vm v { w.vm v with alive := false }
    task := fun t => (w.task t).notify (.vm v) }

/-- Task actor `t` stops, and its executors are told to. -/
@[simps]
def stopTask (t : ℕ) : World :=
  { w with
    task := Function.update w.task t (w.task t).halt
    executor := fun e =>
      if (w.executor e).task = t then (w.executor e).stop else w.executor e }

/-- Task actor `t` fails with `x` and is suspended. -/
def failTask (t : ℕ) (x : Throwable) : World :=
  w.updTask t fun c => if c.phase = .running then { c with phase := .failed x } else c

/-! ## Effects -/

/-- One effect of task actor `t`, in code that belongs to handshake `h`. -/
def perform (t h : ℕ) (w : World) : TaskEffect → World
  | .askSendTask vm =>
      ((w.toVm vm ⟨some w.next, .sendTask⟩).addAsk ⟨w.next, t, .sendTask vm⟩).bump
  | .askExecutorAddress target => w.addAsk ⟨h, t, .executorAddress target⟩
  | .watch r => w.watch t r
  | .unwatch r => w.updTask t (TaskCell.unwatch r)
  | .stopExecutor e => w.updExecutor e ExecutorCell.stop
  | .stopSelf => w.stopTask t
  | .createExecutor e => (w.updExecutor e fun _ => ⟨t, h, none, .live, false⟩).bump
  | .tellVm vm (.executor e) => w.toVm vm ⟨some h, .executor e⟩
  | .tellVm vm .cannotGetExecutor => w.toVm vm ⟨some h, .cannotGetExecutor⟩
  | .tellVm vm .stillAlive => w.toVm vm ⟨none, .stillAlive⟩
  | .executeTask e target => w.updExecutor e fun c => { c with target := some target }
  | .tellDb m => { w with db := w.db ++ [(t, m)] }

/-- Task actor `t` is left with the fields `a` and the effects `es`. -/
def act (t h : ℕ) (a : TaskActor) (es : List TaskEffect) : World :=
  es.foldl (perform t h) (w.setActor t fun _ => a)

/-- The fields and effects task actor code leaves. -/
def applyTask {α : Type} (t h : ℕ) (o : Outcome TaskActor TaskEffect Throwable α) : World :=
  w.act t h o.fields o.effects

/-- Task actor `t` handles a message; an exception suspends it. -/
def handleTask (t : ℕ) (m : TaskMessage) : World :=
  let o := TaskActor.receive m (w.task t).actor
  match o.raised with
  | none => w.applyTask t w.next o
  | some x => (w.applyTask t w.next o).failTask t x

/-- What is left of the `context` of task actor `t`. -/
def contextState (t : ℕ) : ContextState :=
  if (w.task t).phase ≠ .stopped then .active
  else if (List.range w.next).any fun e => (w.executor e).task = t ∧ (w.executor e).Live then
    .terminating
  else .terminated

/-- A callback of task actor `t` runs. An exception in it goes to the
execution context and is only printed. -/
def callback (t h : ℕ) (code : ContextState → TaskActor.Code Unit) : World :=
  w.applyTask t h (code (w.contextState t) (w.task t).actor)

/-- One effect of machine `v` while it handles `m`. -/
def performVm (v : ℕ) (m : Envelope) (w : World) : VmEffect → World
  | .reply a =>
      match m with
      | ⟨some h, .sendTask⟩ =>
          { w with
            replies := w.replies ++ [⟨h, v, a⟩]
            accepted := if a = .acquireExecutor then (v, h) :: w.accepted else w.accepted }
      | _ => w
  | .watch e =>
      if (w.executor e).Live then w.updVm v fun c => { c with watching := c.watching.insert e }
      else w.toVm v ⟨some (w.executor e).handshake, .terminated e⟩
  | .stopSelf => w.killVm v
  | .schedule timer _ _ _ _ => (w.updVm v fun c => { c with timers := c.timers ++ [timer] }).bump
  | .cancel timer => w.updVm v fun c => { c with timers := c.timers.erase timer }
  | .askNode | .removeVmActor | .tellVmActor _ | .scheduleRetry => w

/-- Akka restarts the actor of machine `v`: a fresh instance whose
constructor sends `Init`; mailbox, watched actors and timers stay. -/
def restartVm (v : ℕ) : World :=
  w.updVm v fun c =>
    { c with actor := .new, mailbox := c.mailbox ++ [⟨none, .init⟩] }

/-- Machine `v` handles `m`; an exception restarts it. -/
def handleVm (v : ℕ) (o : VMProxyActor.Outside) (m : Envelope) : World :=
  let out := VMProxyActor.receive w.next o m.msg (w.vm v).actor
  let w' := out.effects.foldl (performVm v m) (w.updVm v fun c => { c with actor := out.fields })
  match out.raised with
  | none => w'
  | some _ => w'.restartVm v

/-- The history entry for a `CannotGetExecutor` that frees the slot. -/
def noteDeclined (v : ℕ) (m : Envelope) : World :=
  match m with
  | ⟨some h, .cannotGetExecutor⟩ =>
      if (w.vm v).actor.ready then { w with declined := h :: w.declined } else w
  | _ => w

/-- The supervision decision of task actor `t` about its executor `e`. -/
def decide (t e : ℕ) (x : Throwable) (answer : StillAliveAnswer) : World :=
  let o := TaskActor.supervisorStrategy x answer (w.task t).actor
  let w' := (w.applyTask t w.next o).updExecutor e fun c => { c with phase := .suspended }
  match o.result with
  | .ok .escalate => w'.failTask t x
  | .ok _ => w'.updExecutor e ExecutorCell.stop
  | .error x' => w'.failTask t x'

end World

/-! ## Events -/

/-- What a completed `SendTask` ask is to the callback. -/
def Reply.toResult (r : Reply) : SendTaskResult :=
  match r.answer with
  | .acquireExecutor => .acquireExecutor r.vm
  | .failure _ => .failure
  | _ => .otherSuccess

inductive Event where
  /-- A worker creates task actor `t`. -/
  | create (t : ℕ) (task : Task) (tablename : String)
  /-- A `GetTask` from machine `v` reaches task actor `t`. -/
  | getTask (t v : ℕ)
  | persistAndSuicide (t : ℕ) (reason : String)
  /-- Task actor `t` takes a `Terminated` from its mailbox. -/
  | terminated (t : ℕ) (r : Ref)
  /-- The supervisor of `t` stops it. -/
  | stop (t : ℕ)
  /-- An answer to a `SendTask` arrives; after a timeout it is dropped. -/
  | reply (r : Reply)
  /-- A `SendTask` ask times out. -/
  | sendTaskTimeout (a : Ask)
  /-- `ExecutorAddress` arrives. -/
  | address (a : Ask)
  /-- A `GetExecutorAddress` ask fails. -/
  | addressFails (a : Ask)
  /-- Machine `v` takes a message from its mailbox. -/
  | vmTakes (v : ℕ) (m : Envelope) (o : VMProxyActor.Outside)
  /-- Machine `v` handles a message from the rest of the cluster. -/
  | vmInput (v : ℕ) (m : VmMessage) (o : VMProxyActor.Outside)
  /-- The `SetVagrantEnvironmentConfig` of machine `v`. -/
  | configure (v : ℕ) (config : VagrantEnvironmentConfig) (o : VMProxyActor.Outside)
  | vmDies (v : ℕ)
  /-- Executor `e` throws while it handles `ExecuteTask`. -/
  | throws (e : ℕ) (x : Throwable)
  /-- The `Failed` of executor `e` reaches its task actor. -/
  | failed (e : ℕ) (answer : StillAliveAnswer)
  /-- Executor `e` terminates: stopped, or its node is lost. -/
  | executorDies (e : ℕ)

/-- The messages that reach a machine from outside the handshake. -/
def Outer : VmMessage → Prop
  | .setVmActor _ | .setInstanceActor _ | .notReadyJet | .noMoreTasks | .restApiRequest _
  | .stillAlive => True
  | _ => False

instance : DecidablePred Outer := fun m => by
  cases m <;> simp only [Outer] <;> infer_instance

namespace World

/-- The step function: `none` is "not enabled". -/
def step (w : World) : Event → Option World
  | .create t task tablename =>
      if (w.task t).phase = .absent then
        some (w.updTask t fun _ => ⟨.new task tablename, .running, [], [], []⟩)
      else none
  | .getTask t v =>
      if (w.task t).phase = .running then some (w.handleTask t (.getTask v)) else none
  | .persistAndSuicide t reason =>
      if (w.task t).phase = .running then some (w.handleTask t (.persistAndSuicide reason))
      else none
  | .terminated t r =>
      if (w.task t).phase = .running ∧ r ∈ (w.task t).notices then
        some ((w.updTask t fun c => { c with
          notices := c.notices.filter (· ≠ r), reported := r :: c.reported }).handleTask t
            (.terminated r))
      else none
  | .stop t =>
      if (w.task t).phase ≠ .absent ∧ (w.task t).phase ≠ .stopped then some (w.stopTask t)
      else none
  | .reply r =>
      if r ∈ w.replies then
        let w' := { w with replies := w.replies.erase r }
        match w.asks.find? fun a => a.handshake = r.handshake ∧ a.kind = .sendTask r.vm with
        | some a =>
            some ((w'.dropAsk a).callback a.task a.handshake
              fun c => TaskActor.onSendTask c w.next r.toResult)
        | none => some w'
      else none
  | .sendTaskTimeout a =>
      match a.kind with
      | .sendTask _ =>
          if a ∈ w.asks then
            some ((w.dropAsk a).callback a.task a.handshake
              fun c => TaskActor.onSendTask c w.next .failure)
          else none
      | .executorAddress _ => none
  | .address a =>
      match a.kind with
      | .executorAddress target =>
          if a ∈ w.asks then
            some ((w.dropAsk a).callback a.task a.handshake
              fun c => TaskActor.onExecutorAddress c w.next target true)
          else none
      | .sendTask _ => none
  | .addressFails a =>
      match a.kind with
      | .executorAddress target =>
          if a ∈ w.asks then
            some ((w.dropAsk a).callback a.task a.handshake
              fun c => TaskActor.onExecutorAddress c w.next target false)
          else none
      | .sendTask _ => none
  | .vmTakes v m o =>
      if (w.vm v).alive ∧ m ∈ (w.vm v).mailbox then
        some (((w.noteDeclined v m).updVm v fun c =>
          { c with mailbox := c.mailbox.erase m }).handleVm v o m)
      else none
  | .vmInput v m o =>
      if (w.vm v).alive ∧ Outer m then some (w.handleVm v o ⟨none, m⟩) else none
  | .configure v config o =>
      if (w.vm v).alive ∧ (w.vm v).configured = false ∧
          (⟨none, .init⟩ : Envelope) ∉ (w.vm v).mailbox then
        some ((w.updVm v fun c => { c with configured := true }).handleVm v o
          ⟨none, .setVagrantEnvironmentConfig config⟩)
      else none
  | .vmDies v => if (w.vm v).alive then some (w.killVm v) else none
  | .throws e x =>
      if (w.executor e).phase = .live ∧ (w.executor e).target.isSome then
        some (w.updExecutor e fun c => { c with phase := .threw x })
      else none
  | .failed e answer =>
      match (w.executor e).phase with
      | .threw x =>
          -- a suspended supervisor keeps the `Failed` for later, a stopped
          -- one never looks at it
          match (w.task (w.executor e).task).phase with
          | .running => some (w.decide (w.executor e).task e x answer)
          | .stopped => some (w.updExecutor e fun c => { c with phase := .suspended })
          | _ => none
      | _ => none
  | .executorDies e => if (w.executor e).Live then some (w.killExecutor e) else none

/-- Nothing has happened: there is no task actor yet, and every machine
has just sent itself `Init`. -/
def init : World where
  task _ := ⟨.new ⟨"", "", false, false⟩ "", .absent, [], [], []⟩
  vm _ := ⟨.new, true, [⟨none, .init⟩], [], [], false⟩
  executor _ := ⟨0, 0, none, .absent, false⟩
  asks := []
  replies := []
  next := 0
  db := []
  accepted := []
  declined := []

end World

/-- The handshake system. -/
def handshake : EventSystem World Event := ⟨World.init, World.step⟩

end Clustering.Handshake
