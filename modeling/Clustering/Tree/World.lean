/-
Clustering.Tree.World — the dependency trees of all runs, as one system.

`Workers` holds the `InstanceActor` (number 0), the `DistributorActor`s,
the nodes and, as leaves, the `TaskActor`s: for each its parent, its
children, its mailbox and where it is in its life. What a `TaskActor`
does with its messages is the handshake of `Handshake.World`. `System`
is the product of the two: a step of the workers may name one event of
the handshake, which then happens in the same step.

The workers live in one virtual machine, so a mailbox is a queue in the
order of sending. Supervision is Akka's: the failure of a child reaches
its parent at any time between two messages, a stopped actor handles
nothing more and stays a child until it has terminated, its children
are stopped one by one, and its `Terminated` joins the mailbox of the
parent that watches it. A restarted worker first stops its children.

Letters carry, for statements only, the number of the input they come
from and the workers that passed them on, with the time of each.
-/
import Clustering.Worker.DistributorActor
import Clustering.Worker.InstanceActor
import Clustering.Worker.TaskExecutorActor
import Clustering.Handshake.World

namespace Clustering.Tree

open Actors Clustering.Worker
open Clustering.Handshake (World)

/-! ## State -/

inductive Worker where
  | instanceActor (a : InstanceActor)
  | distributorActor (a : DistributorActor)
  /-- A `SingleInstanceActor` or a `GroupActor`. -/
  | subWorkerActor (single : Bool) (a : SubWorkerActor)
  | taskActor
  deriving DecidableEq, Repr

/-- The instance `actorOf` creates. -/
def Worker.new : Props → Worker
  | .distributorActor => .distributorActor .new
  | .groupActor group tablename => .subWorkerActor false (.new group tablename)
  | .singleInstanceActor group tablename => .subWorkerActor true (.new group tablename)
  | .taskActor _ _ => .taskActor

/-- The instance a restart creates, from the same `Props`. -/
def Worker.renew : Worker → Worker
  | .instanceActor _ => .instanceActor .new
  | .distributorActor _ => .distributorActor .new
  | .subWorkerActor single a => .subWorkerActor single (.new a.group a.tablename)
  | .taskActor => .taskActor

/-- Where a worker is in its life. Of a task actor the handshake says it. -/
inductive Phase where
  | absent
  | running
  /-- Suspended with an exception its supervisor has not judged yet. -/
  | failed (t : Throwable)
  /-- Being restarted: its children are stopped first. -/
  | restarting
  | stopped
  deriving DecidableEq, Repr

/-- A worker passed a letter on. -/
structure Hop where
  actor : ℕ
  time : ℕ
  deriving DecidableEq, Repr

/-- What a letter carries besides its message: the machine that asked,
if it is a `GetTask`, and the record of its way. -/
structure Stamp where
  sender : ℕ
  number : ℕ
  hops : List Hop
  deriving DecidableEq, Repr

structure Letter extends Stamp where
  msg : WorkerMessage
  deriving DecidableEq, Repr

/-- An actor of the tree. `origin` is the `AddTask` it was created for. -/
structure Cell where
  worker : Worker
  name : ActorName
  parent : ℕ
  origin : Option AddTask
  children : List Child
  watching : List ℕ
  mailbox : List Letter
  phase : Phase

structure Workers where
  cell : ℕ → Cell
  /-- Numbers from here on are unused. -/
  next : ℕ
  /-- The steps taken so far. -/
  clock : ℕ
  /-- The `AddTask`s the `InstanceActor` handled, numbered. -/
  added : List (ℕ × AddTask)
  /-- The `TaskActor`s created, with the number of the `AddTask`. -/
  placed : List (ℕ × ℕ)
  /-- What the deciders sent to `/user/db`, with the child it is about. -/
  db : List (ℕ × DBMessage)

/-! ## The code of one worker -/

/-- What the code of a worker leaves. -/
structure Turn where
  worker : Worker
  children : List Child
  effects : List WorkerEffect
  raised : Option Throwable
  deriving DecidableEq, Repr

def Turn.of {α β : Type} (f : α → Worker) (o : Outcome (Self α) WorkerEffect Throwable β) :
    Turn :=
  ⟨f o.fields.fields, o.fields.children, o.effects, o.raised⟩

@[simp] theorem Turn.of_ok {α β : Type} (f : α → Worker) (a : α) (cs : List Child)
    (es : List WorkerEffect) (b : β) : Turn.of f ⟨⟨a, cs⟩, es, .ok b⟩ = ⟨f a, cs, es, none⟩ := rfl

@[simp] theorem Turn.of_error {α β : Type} (f : α → Worker) (a : α) (cs : List Child)
    (es : List WorkerEffect) (x : Throwable) :
    Turn.of f (⟨⟨a, cs⟩, es, .error x⟩ : Outcome _ _ _ β) = ⟨f a, cs, es, some x⟩ := rfl

/-- The worker handles a message; `fresh` is the number of a new actor. -/
def Cell.receive (legal : String → Bool) (fresh : ℕ) (msg : WorkerMessage) (c : Cell) :
    Turn :=
  match c.worker with
  | .instanceActor a =>
      .of .instanceActor (InstanceActor.receive legal fresh msg ⟨a, c.children⟩)
  | .distributorActor a =>
      .of .distributorActor (DistributorActor.receive legal fresh c.name.text msg ⟨a, c.children⟩)
  | .subWorkerActor single a =>
      .of (.subWorkerActor single) (SubWorkerActor.receive legal fresh msg ⟨a, c.children⟩)
  | .taskActor => ⟨.taskActor, c.children, [], none⟩

/-- The actor a piece of code creates; none creates two. -/
def born : List WorkerEffect → Option (ℕ × ActorName × Props) :=
  List.findSome? fun
    | .actorOf ref name props => some (ref, name, props)
    | _ => none

/-- The letter an effect sends to `c`. -/
def letterTo (stamp : Stamp) (c : ℕ) : WorkerEffect → Option Letter
  | .tell d m | .forward d m => if d = c then some ⟨stamp, m⟩ else none
  | _ => none

def watched : WorkerEffect → Option ℕ
  | .watch c => some c
  | _ => none

def record (about : ℕ) : WorkerEffect → Option (ℕ × DBMessage)
  | .tellDb m => some (about, m)
  | _ => none

namespace Workers

variable (s : Workers)

@[simps]
def updCell (c : ℕ) (f : Cell → Cell) : Workers :=
  { s with cell := Function.update s.cell c (f (s.cell c)) }

/-- The actor `r` itself after its code ran. -/
def acted (r : ℕ) (t : Turn) : Cell :=
  { s.cell r with
    worker := t.worker
    children := t.children
    watching := t.effects.filterMap watched ∪ (s.cell r).watching
    phase := match t.raised with
      | some x => .failed x
      | none => if .stopSelf ∈ t.effects then .stopped else (s.cell r).phase }

/-- The cell of `c` after the code of `r` ran, before letters arrive. -/
def acting (r : ℕ) (origin : Option AddTask) (t : Turn) (c : ℕ) : Cell :=
  if c = r then s.acted r t
  else
    match born t.effects with
    | some (f, name, props) =>
        if c = f then ⟨.new props, name, r, origin, [], [], [], .running⟩ else s.cell c
    | none => s.cell c

/-- The code of `r` ran, on a letter with this stamp or about the child
`about`. -/
def perform (r about : ℕ) (stamp : Stamp) (origin : Option AddTask) (t : Turn) : Workers :=
  { s with
    cell := fun c => { s.acting r origin t c with
      mailbox := (s.acting r origin t c).mailbox ++
        t.effects.filterMap (letterTo { stamp with hops := ⟨r, s.clock⟩ :: stamp.hops } c) }
    next := if (born t.effects).isSome then s.next + 1 else s.next
    placed := match born t.effects with
      | some (f, _, .taskActor _ _) => s.placed ++ [(stamp.number, f)]
      | _ => s.placed
    db := s.db ++ t.effects.filterMap (record about) }

/-- The event of the handshake when a piece of code creates a task
actor. -/
def birth (t : Turn) : Option Handshake.Event :=
  match born t.effects with
  | some (f, _, .taskActor task tablename) => some (.create f task tablename)
  | _ => none

/-- Worker `r` handles a letter. -/
def handle (legal : String → Bool) (r : ℕ) (l : Letter) :
    Workers × Option Handshake.Event :=
  let t := (s.cell r).receive legal s.next l.msg
  (s.perform r r l.toStamp l.msg.toAddTask t, birth t)

/-- Time passes. -/
@[simps]
def tick : Workers := { s with clock := s.clock + 1 }

/-- The first letter leaves the mailbox of `r`. -/
def pop (r : ℕ) : Workers := s.updCell r fun c => { c with mailbox := c.mailbox.tail }

/-! ## Supervision -/

/-- The exception a child has failed with. -/
def failure (w : World) (c : ℕ) : Option Throwable :=
  match (s.cell c).worker with
  | .taskActor =>
      match (w.task c).phase with
      | .failed x => some x
      | _ => none
  | _ =>
      match (s.cell c).phase with
      | .failed x => some x
      | _ => none

/-- `c` is told to stop. -/
def stopChild (c : ℕ) : Workers × Option Handshake.Event :=
  match (s.cell c).worker with
  | .taskActor => (s, some (.stop c))
  | _ => (s.updCell c fun x => { x with phase := .stopped }, none)

/-- `c` is restarted: it stops watching its children and stops them. -/
def restart (c : ℕ) : Workers :=
  s.updCell c fun x => { x with phase := .restarting, watching := [] }

def fail (c : ℕ) (x : Throwable) : Workers :=
  s.updCell c fun y => { y with phase := .failed x }

/-- Akka's default decider: restart on an `Exception`, escalate any other
`Throwable`. -/
def defaultDecider (x : Throwable) : Directive := if x.IsResult then .escalate else .restart

/-- The parent of `c` judges its failure `x`. -/
def judge (c : ℕ) (x : Throwable) : Workers × Option Handshake.Event :=
  let p := (s.cell c).parent
  match (s.cell p).worker with
  | .subWorkerActor single a =>
      let o := SubWorkerActor.supervisorStrategy c x ⟨a, (s.cell p).children⟩
      let s' := s.perform p c ⟨0, s.clock, []⟩ none (.of (.subWorkerActor single) o)
      match o.result with
      | .ok .stop => s'.stopChild c
      | .ok .restart => (s'.restart c, none)
      | .ok .escalate => (s'.fail p x, none)
      | .error _ => (s', none)
  | _ =>
      match defaultDecider x with
      | .restart => (s.restart c, none)
      | _ => (s.fail p x, none)

/-- `c` has terminated: its parent has it no longer, and is told if it
watches it. -/
def bury (c : ℕ) : Workers :=
  s.updCell (s.cell c).parent fun p =>
    { p with
      children := p.children.filter (·.ref ≠ c)
      watching := p.watching.filter (· ≠ c)
      mailbox := if c ∈ p.watching then p.mailbox ++ [⟨⟨0, s.clock, []⟩, .terminated c⟩]
        else p.mailbox }

/-- `c` is stopped and has no children left. -/
def Dead (w : World) (c : ℕ) : Prop :=
  match (s.cell c).worker with
  | .taskActor => w.contextState c = .terminated
  | _ => (s.cell c).phase = .stopped ∧ (s.cell c).children = []

instance (w : World) (c : ℕ) : Decidable (s.Dead w c) := by
  unfold Dead
  split <;> infer_instance

/-- `c` is a child of its parent. -/
def IsChild (c : ℕ) : Prop := c ∈ (s.cell (s.cell c).parent).children.map (·.ref)

instance (c : ℕ) : Decidable (s.IsChild c) := inferInstanceAs (Decidable (_ ∈ _))

end Workers

/-! ## Events -/

inductive Event where
  /-- A message from outside reaches the `InstanceActor`. -/
  | input (sender : ℕ) (msg : WorkerMessage)
  /-- An actor takes the first letter from its mailbox. -/
  | takes (r : ℕ) (l : Letter)
  /-- The supervisor of `c` judges its failure. -/
  | judge (c : ℕ) (x : Throwable)
  /-- A parent that is stopped or restarted stops its child `c`. -/
  | stops (c : ℕ)
  /-- `c` terminates. -/
  | terminates (c : ℕ)
  /-- The children of `r` are gone and its new instance starts. -/
  | recreate (r : ℕ)
  /-- An executor executes its task. -/
  | execute (e : ℕ) (o : Execution)
  /-- Anything else that happens between task actors and machines. -/
  | handshake (e : Handshake.Event)

/-- The messages that reach the `InstanceActor` from outside the tree. -/
def External : WorkerMessage → Prop
  | .addTask _ | .getTask _ | .getDeployInfo | .getInstanceActor => True
  | _ => False

instance : DecidablePred External := fun m => by
  induction m using WorkerMessage.casesOn <;> delta External <;> dsimp only <;> infer_instance

/-- The events of the handshake the workers have no part in. -/
def Internal : Handshake.Event → Prop
  | .create .. | .getTask .. | .persistAndSuicide .. | .stop _ | .throws .. => False
  | _ => True

instance : DecidablePred Internal := fun e => by
  induction e using Handshake.Event.casesOn <;> delta Internal <;> dsimp only <;> infer_instance

/-- A task actor takes a letter; no case matches any other message. -/
def taskEvent (r : ℕ) (l : Letter) : Option Handshake.Event :=
  match l.msg with
  | .getTask _ => some (.getTask r l.sender)
  | .persistAndSuicide reason => some (.persistAndSuicide r reason)
  | _ => none

/-- An `AddTask` among the inputs is numbered by the time. -/
def Workers.note (s : Workers) (msg : WorkerMessage) : Workers :=
  match msg with
  | .addTask m => { s with added := s.added ++ [(s.clock, m)] }
  | _ => s

/-- What the workers do at an event, and the event of the handshake it
goes with. -/
def Workers.step (legal : String → Bool) (w : World) (s : Workers) :
    Event → Option (Workers × Option Handshake.Event)
  | .input sender msg =>
      if (s.cell 0).phase = .running ∧ External msg then
        some ((s.note msg).handle legal 0 ⟨⟨sender, s.clock, []⟩, msg⟩)
      else none
  | .takes r l =>
      if (s.cell r).mailbox.head? = some l then
        match (s.cell r).worker with
        | .taskActor =>
            if (w.task r).phase = .running then some (s.pop r, taskEvent r l) else none
        | _ => if (s.cell r).phase = .running then some ((s.pop r).handle legal r l) else none
      else none
  | .judge c x =>
      if s.failure w c = some x then
        -- the guardian restarts the `InstanceActor`
        if c = 0 then some (s.restart 0, none)
        else if (s.cell (s.cell c).parent).phase = .running ∧ s.IsChild c then some (s.judge c x)
        else none
      else none
  | .stops c =>
      if c ≠ 0 ∧ s.IsChild c ∧ ((s.cell (s.cell c).parent).phase = .restarting ∨
          (s.cell (s.cell c).parent).phase = .stopped) then
        some (s.stopChild c)
      else none
  | .terminates c => if c ≠ 0 ∧ s.IsChild c ∧ s.Dead w c then some (s.bury c, none) else none
  | .recreate r =>
      if (s.cell r).phase = .restarting ∧ (s.cell r).children = [] then
        some (s.updCell r fun c => { c with worker := c.worker.renew, phase := .running }, none)
      else none
  | .execute e o =>
      some (s, some (.throws e
        (TaskExecutorActor.run (w.task (w.executor e).task).actor.task o)))
  | .handshake e => if Internal e then some (s, some e) else none

/-- The workers with the task actors and machines they belong to. -/
structure System where
  workers : Workers
  world : World

namespace System

/-- The workers move, the handshake moves with them, and time passes. -/
def step (legal : String → Bool) (s : System) (e : Event) : Option System := do
  let (t, he) ← s.workers.step legal s.world e
  let w ← he.elim (some s.world) s.world.step
  some ⟨t.tick, w⟩

/-- Only the `InstanceActor` is there. -/
def init : System where
  workers :=
    { cell := fun c =>
        if c = 0 then ⟨.instanceActor .new, .named "InstanceActor", 0, none, [], [], [], .running⟩
        else ⟨.taskActor, .named "", 0, none, [], [], [], .absent⟩
      next := 1
      clock := 0
      added := []
      placed := []
      db := [] }
  world := World.init

end System

/-- The system of all runs. -/
def system (legal : String → Bool) : EventSystem System Event := ⟨System.init, System.step legal⟩

end Clustering.Tree
