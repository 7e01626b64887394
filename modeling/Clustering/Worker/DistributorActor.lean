/-
Clustering.Worker.DistributorActor — the root of one run's dependency
tree: the handlers of `DistributorActor.scala`.

Its children are the nodes whose group has one member. It keeps them in
two lists by class, which only matter for where a `GetTask` goes first.
There is no supervision strategy of its own, so Akka's default one
restarts a node that fails.
-/
import Clustering.Worker.SubWorkerActor

namespace Clustering.Worker

open Actors Actors.Handler

/-- The fields of a `DistributorActor`. -/
structure DistributorActor where
  singleInstanceList : List ℕ
  groupInstanceList : List ℕ
  deriving DecidableEq, Repr

namespace DistributorActor

abbrev Code := WorkerCode DistributorActor

def new : DistributorActor := ⟨[], []⟩

/-- `ref :: singleInstanceList` or `ref :: groupInstanceList`. -/
def enlist (a : DistributorActor) (single : Bool) (ref : ℕ) : DistributorActor :=
  if single then { a with singleInstanceList := ref :: a.singleInstanceList }
  else { a with groupInstanceList := ref :: a.groupInstanceList }

/-- The list a `GetTask` looks at first. -/
def listFor (a : DistributorActor) (single : Bool) : List ℕ :=
  if single then a.singleInstanceList else a.groupInstanceList

/-- `pathName` is `self.path.name`. -/
def addTask (legal : String → Bool) (fresh : ℕ) (pathName : String) (msg : AddTask) :
    Code Unit := do
  -- `msg.group.head`
  let api ← deref .noSuchElement msg.group.head?
  match childNamed (← fields).children (.named api) with
  | some child => perform (.tell child (.addTask msg))
  | none =>
      let ref ← actorOf legal fresh
        (SubWorkerActor.subProps msg.task.singleInstance (msg.group.take 1) pathName) (.named api)
      assignFields fun a => a.enlist msg.task.singleInstance ref
      perform (.tell ref (.addTask msg))
  foreachChild fun x => .watch x

def handleTermianted (t : ℕ) : Code Unit := do
  if (← fields).children.isEmpty then
    perform .stopSelf
  else
    assignFields fun a =>
      { singleInstanceList := a.singleInstanceList.filter (· ≠ t)
        groupInstanceList := a.groupInstanceList.filter (· ≠ t) }

def getTask (msg : GetTask) : Code Unit := do
  let self ← fields
  if self.children.isEmpty then
    perform .stopSelf
  else
    let list := self.fields.listFor msg.singleInstance
    if !list.isEmpty then
      performAll (list.map fun u => .forward u (.getTask msg))
    else
      foreachChild fun u => .forward u (.getTask msg)

def receive (legal : String → Bool) (fresh : ℕ) (pathName : String) :
    WorkerMessage → Code Unit
  | .addTask p => addTask legal fresh pathName p
  | .getTask p => getTask p
  | .terminated t => handleTermianted t
  | _ => pure ()

/-! ## What each piece of code leaves -/

variable {legal : String → Bool} {fresh : ℕ} {pathName : String} {a : DistributorActor}
  {cs : List Child}

theorem receive_addTask_empty {msg : AddTask} (hg : msg.group = []) :
    receive legal fresh pathName (.addTask msg) ⟨a, cs⟩ =
      ⟨⟨a, cs⟩, [], .error .noSuchElement⟩ := by
  simp [receive, addTask, hg]

theorem receive_addTask_pass {msg : AddTask} {api : String} {gs : List String} {c : ℕ}
    (hg : msg.group = api :: gs) (hc : childNamed cs (.named api) = some c) :
    receive legal fresh pathName (.addTask msg) ⟨a, cs⟩ =
      ⟨⟨a, cs⟩, .tell c (.addTask msg) :: cs.map fun x => .watch x.ref, .ok ()⟩ := by
  simp [receive, addTask, hg, hc, foreachChild]

theorem receive_addTask_spawn {msg : AddTask} {api : String} {gs : List String}
    (hg : msg.group = api :: gs) (hc : childNamed cs (.named api) = none)
    (hl : legal api = true) :
    receive legal fresh pathName (.addTask msg) ⟨a, cs⟩ =
      ⟨⟨a.enlist msg.task.singleInstance fresh, ⟨.named api, fresh⟩ :: cs⟩,
       [.actorOf fresh (.named api)
          (SubWorkerActor.subProps msg.task.singleInstance [api] pathName),
        .tell fresh (.addTask msg), .watch fresh] ++ cs.map fun x => .watch x.ref, .ok ()⟩ := by
  simp [receive, addTask, hg, hc, actorOf_legal (n := .named api) hl hc, foreachChild,
    assignFields]

theorem receive_addTask_illegal {msg : AddTask} {api : String} {gs : List String}
    (hg : msg.group = api :: gs) (hc : childNamed cs (.named api) = none)
    (hl : legal api = false) :
    receive legal fresh pathName (.addTask msg) ⟨a, cs⟩ =
      ⟨⟨a, cs⟩, [], .error (.invalidActorName api)⟩ := by
  simp [receive, addTask, hg, hc, actorOf_illegal (n := .named api) hl]
  rfl

/-- The children a `GetTask` is forwarded to. -/
def targets (a : DistributorActor) (cs : List Child) (msg : GetTask) : List ℕ :=
  if a.listFor msg.singleInstance = [] then cs.map (·.ref) else a.listFor msg.singleInstance

theorem receive_getTask_empty (msg : GetTask) :
    receive legal fresh pathName (.getTask msg) ⟨a, []⟩ = ⟨⟨a, []⟩, [.stopSelf], .ok ()⟩ := by
  simp [receive, getTask]

theorem receive_getTask (msg : GetTask) (hc : cs ≠ []) :
    receive legal fresh pathName (.getTask msg) ⟨a, cs⟩ =
      ⟨⟨a, cs⟩, (targets a cs msg).map fun x => .forward x (.getTask msg), .ok ()⟩ := by
  obtain ⟨c, cs', rfl⟩ := List.exists_cons_of_ne_nil hc
  cases hlist : a.listFor msg.singleInstance with
  | nil => simp [receive, getTask, targets, hlist, foreachChild]
  | cons t ts => simp [receive, getTask, targets, hlist]

theorem receive_terminated_empty (t : ℕ) :
    receive legal fresh pathName (.terminated t) ⟨a, []⟩ = ⟨⟨a, []⟩, [.stopSelf], .ok ()⟩ := by
  simp [receive, handleTermianted]

theorem receive_terminated (t : ℕ) (hc : cs ≠ []) :
    receive legal fresh pathName (.terminated t) ⟨a, cs⟩ =
      ⟨⟨⟨a.singleInstanceList.filter (· ≠ t), a.groupInstanceList.filter (· ≠ t)⟩, cs⟩, [],
        .ok ()⟩ := by
  obtain ⟨c, cs', rfl⟩ := List.exists_cons_of_ne_nil hc
  simp [receive, handleTermianted, assignFields]

end DistributorActor

end Clustering.Worker
