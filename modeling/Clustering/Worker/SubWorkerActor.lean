/-
Clustering.Worker.SubWorkerActor — a node of the dependency tree: the
handlers and the decider of `SubWorkerActor.scala`, which `GroupActor`
and `SingleInstanceActor` inherit unchanged.

A node has the tasks of its own group (`taskActors`) and, as further
children, the nodes one member deeper. `AddTask` goes down to the node
of its group and is a new `TaskActor` there. `GetTask` goes to the
tasks as long as there are any and to every child after that. A task's
result arrives as its failure: the decider writes it to the database,
and a `TestFailException` also sends `PersistAndSuicide` to every
child.
-/
import Clustering.Worker.WorkerContext

namespace Clustering.Worker

open Actors Actors.Handler

/-- The fields of a `SubWorkerActor`. -/
structure SubWorkerActor where
  group : List String
  tablename : String
  taskActors : List ℕ
  deriving DecidableEq, Repr

namespace SubWorkerActor

abbrev Code := WorkerCode SubWorkerActor

/-- `new GroupActor(group, tablename)` or `new SingleInstanceActor(…)`. -/
def new (group : List String) (tablename : String) : SubWorkerActor := ⟨group, tablename, []⟩

/-- The group of the child that `AddTask` goes to, below a node whose
group has `n` members. -/
def nextGroup (n : ℕ) (msg : AddTask) : List String := msg.group.take (n + 1)

/-- The class of a new node: the task that creates it decides. -/
def subProps (single : Bool) (group : List String) (tablename : String) : Props :=
  if single then .singleInstanceActor group tablename else .groupActor group tablename

def addTask (legal : String → Bool) (fresh : ℕ) (msg : AddTask) : Code Unit := do
  let self ← fields
  let a := self.fields
  if msg.group.length > a.group.length then
    let name := nextGroup a.group.length msg
    match childNamed self.children (.named (mkString "." name)) with
    | some child => perform (.tell child (.addTask msg))
    | none =>
        let ref ← actorOf legal fresh (subProps msg.task.singleInstance name a.tablename)
          (.named (mkString "." name))
        perform (.tell ref (.addTask msg))
        perform (.watch ref)
  else
    let ref ← actorOf legal fresh (.taskActor msg.task a.tablename)
      (.task msg.task.method fresh)
    perform (.watch ref)
    assignFields fun a => { a with taskActors := ref :: a.taskActors }

/-- `check_suicide()`. -/
def checkSuicide : Code Unit := do
  if (← fields).children.isEmpty then
    perform .stopSelf

def getTask (msg : GetTask) : Code Unit := do
  let a := (← fields).fields
  if !a.taskActors.isEmpty then
    performAll (a.taskActors.map fun x => .forward x (.getTask msg))
  else
    foreachChild fun x => .forward x (.getTask msg)
  checkSuicide

def receive (legal : String → Bool) (fresh : ℕ) : WorkerMessage → Code Unit
  | .addTask p => addTask legal fresh p
  | .getTask p => getTask p
  | .terminated _ => checkSuicide
  | .persistAndSuicide reason => do
      assignFields fun a => { a with taskActors := [] }
      foreachChild fun x => .tell x (.persistAndSuicide reason)
  | _ => pure ()

def handleSuccess (task : Task) (result : Option String) (source : ℕ) : Code Unit := do
  let a := (← fields).fields
  perform (.tellDb (.updateTask task.fullName .done .success
    (some (if result = some "IGNORE" then "IGNORE" else "")) a.tablename))
  assignFields fun a => { a with taskActors := a.taskActors.filter (· ≠ source) }

def handleFailure (task : Task) (result : Option Cause) (source : ℕ) : Code Unit := do
  let a := (← fields).fields
  -- `res.getCause`, of a `result` that may be null
  let res ← deref .nullPointer result
  let toWrite := res.cause.getD res.text
  perform (.tellDb (.updateTask task.fullName .done .failure (some toWrite) a.tablename))
  assignFields fun a => { a with taskActors := a.taskActors.filter (· ≠ source) }
  -- advice all children to write their results to DB and commit suicide
  foreachChild fun x => .tell x (.persistAndSuicide task.fullName)

/-- The decider, about the failure `t` of the child `source`. An
exception without a case is escalated. -/
def supervisorStrategy (source : ℕ) : Throwable → Code Directive
  | .testFail task result => do
      handleFailure task result source
      return .stop
  | .testSuccess task result => do
      handleSuccess task result source
      return .stop
  | _ => return .escalate

/-! ## What each piece of code leaves -/

variable {legal : String → Bool} {fresh : ℕ} {a : SubWorkerActor} {cs : List Child}

/-- `AddTask` for a node below that is already there. -/
theorem receive_addTask_pass {msg : AddTask} {c : ℕ}
    (hg : a.group.length < msg.group.length)
    (hc : childNamed cs (.named (mkString "." (nextGroup a.group.length msg))) = some c) :
    receive legal fresh (.addTask msg) ⟨a, cs⟩ =
      ⟨⟨a, cs⟩, [.tell c (.addTask msg)], .ok ()⟩ := by
  simp [receive, addTask, hg, hc]

theorem receive_addTask_spawn {msg : AddTask} (hg : a.group.length < msg.group.length)
    (hc : childNamed cs (.named (mkString "." (nextGroup a.group.length msg))) = none)
    (hl : legal (mkString "." (nextGroup a.group.length msg)) = true) :
    receive legal fresh (.addTask msg) ⟨a, cs⟩ =
      ⟨⟨a, ⟨.named (mkString "." (nextGroup a.group.length msg)), fresh⟩ :: cs⟩,
       [.actorOf fresh (.named (mkString "." (nextGroup a.group.length msg)))
          (subProps msg.task.singleInstance (nextGroup a.group.length msg) a.tablename),
        .tell fresh (.addTask msg), .watch fresh], .ok ()⟩ := by
  simp [receive, addTask, hg, hc, actorOf_legal hl hc]

theorem receive_addTask_illegal {msg : AddTask} (hg : a.group.length < msg.group.length)
    (hc : childNamed cs (.named (mkString "." (nextGroup a.group.length msg))) = none)
    (hl : legal (mkString "." (nextGroup a.group.length msg)) = false) :
    receive legal fresh (.addTask msg) ⟨a, cs⟩ =
      ⟨⟨a, cs⟩, [], .error (.invalidActorName (mkString "." (nextGroup a.group.length msg)))⟩ := by
  simp [receive, addTask, hg, hc, actorOf_illegal (n := .named _) hl]
  rfl

/-- `AddTask` at the node of its group. -/
theorem receive_addTask_task {msg : AddTask} (hg : msg.group.length ≤ a.group.length)
    (hc : childNamed cs (.task msg.task.method fresh) = none)
    (hl : legal (ActorName.task msg.task.method fresh).text = true) :
    receive legal fresh (.addTask msg) ⟨a, cs⟩ =
      ⟨⟨{ a with taskActors := fresh :: a.taskActors },
        ⟨.task msg.task.method fresh, fresh⟩ :: cs⟩,
       [.actorOf fresh (.task msg.task.method fresh) (.taskActor msg.task a.tablename),
        .watch fresh], .ok ()⟩ := by
  simp [receive, addTask, Nat.not_lt.mpr hg, actorOf_legal hl hc, assignFields]

theorem receive_addTask_taskIllegal {msg : AddTask} (hg : msg.group.length ≤ a.group.length)
    (hl : legal (ActorName.task msg.task.method fresh).text = false) :
    receive legal fresh (.addTask msg) ⟨a, cs⟩ =
      ⟨⟨a, cs⟩, [], .error (.invalidActorName (ActorName.task msg.task.method fresh).text)⟩ := by
  simp [receive, addTask, Nat.not_lt.mpr hg, actorOf_illegal hl]

theorem receive_addTask_taskUsed {msg : AddTask} {c : ℕ}
    (hg : msg.group.length ≤ a.group.length)
    (hc : childNamed cs (.task msg.task.method fresh) = some c) :
    receive legal fresh (.addTask msg) ⟨a, cs⟩ =
      ⟨⟨a, cs⟩, [], .error (.invalidActorName (ActorName.task msg.task.method fresh).text)⟩ := by
  simp [receive, addTask, Nat.not_lt.mpr hg, actorOf_used hc]

/-- The children a `GetTask` is forwarded to. -/
def targets (a : SubWorkerActor) (cs : List Child) : List ℕ :=
  if a.taskActors = [] then cs.map (·.ref) else a.taskActors

/-- `context.stop(self)` where there are no children. -/
def suicide (cs : List Child) : List WorkerEffect :=
  if cs = [] then [.stopSelf] else []

theorem checkSuicide_apply : checkSuicide ⟨a, cs⟩ = ⟨⟨a, cs⟩, suicide cs, .ok ()⟩ := by
  cases cs <;> simp [checkSuicide, suicide]

theorem receive_getTask (msg : GetTask) :
    receive legal fresh (.getTask msg) ⟨a, cs⟩ =
      ⟨⟨a, cs⟩, (targets a cs).map (fun x => .forward x (.getTask msg)) ++ suicide cs,
        .ok ()⟩ := by
  cases ht : a.taskActors with
  | nil => simp [receive, getTask, targets, ht, foreachChild, checkSuicide_apply]
  | cons t ts => simp [receive, getTask, targets, ht, checkSuicide_apply]

theorem receive_terminated (c : ℕ) :
    receive legal fresh (.terminated c) ⟨a, cs⟩ = ⟨⟨a, cs⟩, suicide cs, .ok ()⟩ := by
  simp [receive, checkSuicide_apply]

theorem receive_persistAndSuicide (reason : String) :
    receive legal fresh (.persistAndSuicide reason) ⟨a, cs⟩ =
      ⟨⟨{ a with taskActors := [] }, cs⟩,
        cs.map fun x => .tell x.ref (.persistAndSuicide reason), .ok ()⟩ := by
  simp [receive, assignFields, foreachChild]

/-- The record of a success. -/
def successRecord (a : SubWorkerActor) (task : Task) (result : Option String) : DBMessage :=
  .updateTask task.fullName .done .success
    (some (if result = some "IGNORE" then "IGNORE" else "")) a.tablename

/-- The record of a failure. -/
def failureRecord (a : SubWorkerActor) (task : Task) (result : Cause) : DBMessage :=
  .updateTask task.fullName .done .failure (some (result.cause.getD result.text)) a.tablename

/-- The fields after the result of `source` was recorded. -/
def forget (a : SubWorkerActor) (source : ℕ) : SubWorkerActor :=
  { a with taskActors := a.taskActors.filter (· ≠ source) }

theorem supervisorStrategy_success {task : Task} {result : Option String} {source : ℕ} :
    supervisorStrategy source (.testSuccess task result) ⟨a, cs⟩ =
      ⟨⟨a.forget source, cs⟩, [.tellDb (a.successRecord task result)], .ok .stop⟩ := by
  simp [supervisorStrategy, handleSuccess, assignFields, forget, successRecord]

theorem supervisorStrategy_failure {task : Task} {result : Cause} {source : ℕ} :
    supervisorStrategy source (.testFail task (some result)) ⟨a, cs⟩ =
      ⟨⟨a.forget source, cs⟩,
        .tellDb (a.failureRecord task result) ::
          cs.map fun x => .tell x.ref (.persistAndSuicide task.fullName), .ok .stop⟩ := by
  simp [supervisorStrategy, handleFailure, assignFields, forget, failureRecord, foreachChild]

/-- A `TestFailException` without a result: the decider itself raises. -/
theorem supervisorStrategy_failure_null {task : Task} {source : ℕ} :
    supervisorStrategy source (.testFail task none) ⟨a, cs⟩ =
      ⟨⟨a, cs⟩, [], .error .nullPointer⟩ := by
  simp [supervisorStrategy, handleFailure]

theorem supervisorStrategy_unexpected {t : Throwable} {source : ℕ}
    (ht : ¬ t.IsResult) :
    supervisorStrategy source t ⟨a, cs⟩ = ⟨⟨a, cs⟩, [], .ok .escalate⟩ := by
  cases t <;> simp_all [supervisorStrategy, Throwable.IsResult]

end SubWorkerActor

end Clustering.Worker
