/-
Clustering.Worker.WorkerContext — what the workers of the dependency
tree have in common: their messages, the `context` their handlers read
and write, and the effects they leave.

`InstanceActor`, `DistributorActor`, `SubWorkerActor` and `TaskActor`
are named by numbers (an `ActorRef`). `context.children` belongs to the state of
the handler code (`Self`), because a handler that creates a child sees
it there at once; `context.child` looks a child up by its name. A child
that was told to stop is a child until its termination is processed.

Whether a text is a legal actor name is decided by Akka: `legal` is a
parameter of everything that creates an actor.
-/
import Clustering.Worker.Messages

namespace Clustering.Worker

open Actors Actors.Handler

/-- `mkString(sep)` of a list of texts. -/
def mkString (sep : String) : List String → String
  | [] => ""
  | [a] => a
  | a :: b :: l => a ++ sep ++ mkString sep (b :: l)

/-- The last member can be read off the text. -/
theorem mkString_append_singleton (sep : String) {l : List String} (hl : l ≠ []) (x : String) :
    mkString sep (l ++ [x]) = mkString sep l ++ sep ++ x := by
  induction l with
  | nil => exact absurd rfl hl
  | cons a l ih =>
    cases l with
    | nil => rfl
    | cons b l =>
      have ih := ih (by simp)
      simp only [List.cons_append, mkString] at ih ⊢
      rw [ih]
      simp only [String.append_assoc]

/-- Extensions of one group are told apart by their names. -/
theorem mkString_append_inj {sep : String} {l : List String} {x y : String}
    (h : mkString sep (l ++ [x]) = mkString sep (l ++ [y])) : x = y := by
  cases l with
  | nil => exact h
  | cons a l =>
    rw [mkString_append_singleton _ (by simp), mkString_append_singleton _ (by simp)] at h
    exact (String.append_right_inj _).mp h

/-- The name of an actor. A `TaskActor` is called `TASK-<method>-<random>`;
the random number is taken to be one not in use. A method name has no
`.`, so no other actor is called so. -/
inductive ActorName where
  | named (name : String)
  | task (method : String) (random : ℕ)
  deriving DecidableEq, Repr

/-- The text of a name whose characters Akka checks; the digits of a
random number are legal ones. -/
def ActorName.text : ActorName → String
  | .named name => name
  | .task method _ => "TASK-" ++ method ++ "-"

structure Child where
  name : ActorName
  ref : ℕ
  deriving DecidableEq, Repr

/-! ## Messages -/

/-- `DeployInfoInterface`, as far as the workers read it. -/
structure DeployInfo where
  version : String
  deriving DecidableEq, Repr

/-- `case class AddTask`; `version` may be null. -/
structure AddTask where
  instanceId : String
  group : List String
  task : Task
  version : Option DeployInfo
  deriving DecidableEq, Repr

/-- `case class GetTask`. `singleInstance` is a primitive `Boolean`: its
default `null` is `false`. -/
structure GetTask where
  version : String
  singleInstance : Bool
  deriving DecidableEq, Repr

inductive WorkerMessage where
  | addTask (msg : AddTask)
  | getTask (msg : GetTask)
  | persistAndSuicide (reason : String)
  | terminated (actor : ℕ)
  | getDeployInfo
  | getInstanceActor
  deriving DecidableEq, Repr

/-- The `AddTask` a message is, if it is one. -/
def WorkerMessage.toAddTask : WorkerMessage → Option AddTask
  | .addTask m => some m
  | _ => none

/-- The actor whose end a message tells. -/
def WorkerMessage.toTerminated : WorkerMessage → Option ℕ
  | .terminated t => some t
  | _ => none

/-- What the `InstanceActor` answers to its sender. -/
inductive InstanceReply where
  | noMoreTasks
  | deployInfo (info : DeployInfo)
  | noDeployInfo
  | setInstanceActor
  deriving DecidableEq, Repr

/-! ## Handler code -/

/-- The class of a new actor with its constructor arguments. -/
inductive Props where
  | distributorActor
  | groupActor (group : List String) (tablename : String)
  | singleInstanceActor (group : List String) (tablename : String)
  | taskActor (task : Task) (tablename : String)
  deriving DecidableEq, Repr

/-- A line on the console. -/
inductive ConsoleLine where
  | runDone (instanceId version : String)
  | noMoreInstances
  deriving DecidableEq, Repr

def ConsoleLine.text : ConsoleLine → String
  | .runDone instanceId version =>
      "Run " ++ instanceId ++ " with version " ++ version ++ " done!"
  | .noMoreInstances =>
      "No more instances present - upload new tasks or shutdown the cluster!"

inductive WorkerEffect where
  | actorOf (ref : ℕ) (name : ActorName) (props : Props)
  | tell (ref : ℕ) (msg : WorkerMessage)
  /-- As `tell`, with the sender of the message being handled. -/
  | forward (ref : ℕ) (msg : WorkerMessage)
  | watch (ref : ℕ)
  /-- `context.stop(self)`. -/
  | stopSelf
  | tellDb (msg : DBMessage)
  | reply (msg : InstanceReply)
  | println (line : ConsoleLine)
  deriving DecidableEq, Repr

/-- The fields of an actor with its `context.children`, newest first. -/
structure Self (α : Type) where
  fields : α
  children : List Child
  deriving DecidableEq, Repr

/-- `context.child(name)`. -/
def childNamed (children : List Child) (name : ActorName) : Option ℕ :=
  (children.find? (·.name = name)).map (·.ref)

/-- Handler code of a worker with fields `α`. -/
abbrev WorkerCode (α : Type) := Handler (Self α) WorkerEffect Throwable

/-- `context.children.foreach(x => …)`. -/
def foreachChild {α : Type} (f : ℕ → WorkerEffect) : WorkerCode α Unit := do
  let self ← fields
  performAll (self.children.map fun x => f x.ref)

/-- Assign the fields, not the children. -/
def assignFields {α : Type} (f : α → α) : WorkerCode α Unit :=
  assign fun self => { self with fields := f self.fields }

/-- `context.actorOf(props, name)`; `fresh` is the reference it returns. -/
def actorOf {α : Type} (legal : String → Bool) (fresh : ℕ) (props : Props)
    (name : ActorName) : WorkerCode α ℕ := do
  let self ← fields
  if legal name.text && (childNamed self.children name).isNone then
    perform (.actorOf fresh name props)
    assign fun self => { self with children := ⟨name, fresh⟩ :: self.children }
    return fresh
  else
    raise (.invalidActorName name.text)

section

variable {α : Type} {legal : String → Bool} {fresh : ℕ} {props : Props}
  {n : ActorName} {a : α} {cs : List Child}

theorem actorOf_legal (hl : legal n.text = true) (hn : childNamed cs n = none) :
    actorOf legal fresh props n ⟨a, cs⟩ =
      ⟨⟨a, ⟨n, fresh⟩ :: cs⟩, [.actorOf fresh n props], .ok fresh⟩ := by
  simp [actorOf, hl, hn]

theorem actorOf_illegal (hl : legal n.text = false) :
    actorOf legal fresh props n ⟨a, cs⟩ =
      ⟨⟨a, cs⟩, [], .error (.invalidActorName n.text)⟩ := by
  simp [actorOf, hl]

theorem actorOf_used {c : ℕ} (hn : childNamed cs n = some c) :
    actorOf legal fresh props n ⟨a, cs⟩ =
      ⟨⟨a, cs⟩, [], .error (.invalidActorName n.text)⟩ := by
  simp [actorOf, hn]

theorem childNamed_some {c : ℕ} (h : childNamed cs n = some c) : ⟨n, c⟩ ∈ cs := by
  obtain ⟨x, hx, rfl⟩ := Option.map_eq_some_iff.mp h
  have hn : x.name = n := by simpa using List.find?_some hx
  have hm := List.mem_of_find?_eq_some hx
  rwa [← hn]

theorem childNamed_none (h : childNamed cs n = none) : ∀ x ∈ cs, x.name ≠ n := by
  simpa [childNamed] using h

end

end Clustering.Worker
