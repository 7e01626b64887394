/-
Clustering.Worker.TaskActor — the handlers, the supervision decision
and the two future callbacks of `TaskActor.scala`.

There is one actor of this kind for every task. Three pieces of code
write its fields: the message handlers, the decider that judges an
exception of its executor, and the `onComplete` callbacks of the two
asks. The callbacks run on another thread, whatever state the actor is
in by then; what is left of the actor's `context` is their argument
`ContextState`.

A virtual machine (its `VMProxyActor`) and an executor are named by
numbers, a null reference is `none`. Every dereference of a field the
Scala makes is a dereference here, with the exception it raises:
`unwatch(null)` is a `MatchError`, asking null an
`IllegalArgumentException`, telling null a `NullPointerException`.
-/
import Clustering.Worker.Messages

namespace Clustering.Worker

open Actors Actors.Handler

/-- The actors a `TaskActor` watches. -/
inductive Ref where
  | vm (id : ℕ)
  | executor (id : ℕ)
  deriving DecidableEq, Repr

/-- The messages a `TaskActor` sends to a virtual machine. -/
inductive ToVm where
  | executor (id : ℕ)
  | cannotGetExecutor
  | stillAlive
  deriving DecidableEq, Repr

/-- The effects of a `TaskActor`. -/
inductive TaskEffect where
  /-- `sender() ? SendTask(task)`. -/
  | askSendTask (vm : ℕ)
  /-- `actorSelection("/user/ExecutorDirectory") ? GetExecutorAddress`,
  in the callback whose `target.vmActorRef` is `target`. -/
  | askExecutorAddress (target : ℕ)
  | watch (r : Ref)
  | unwatch (r : Ref)
  /-- `context.stop(executorActor)`. -/
  | stopExecutor (id : ℕ)
  /-- `context.stop(self)`. -/
  | stopSelf
  /-- `context.actorOf(Props[TaskExecutorActor]…)`. -/
  | createExecutor (id : ℕ)
  | tellVm (vm : ℕ) (m : ToVm)
  /-- `executorActor ! ExecuteTask(task, target)`. -/
  | executeTask (id : ℕ) (target : ℕ)
  | tellDb (m : DBMessage)
  deriving DecidableEq, Repr

/-- The fields of a `TaskActor`. -/
structure TaskActor where
  task : Task
  tablename : String
  isTaken : Bool
  taskDone : Bool
  targetVm : Option ℕ
  executorActor : Option ℕ
  deriving DecidableEq, Repr

/-- The messages a `TaskActor` handles. -/
inductive TaskMessage where
  | getTask (sender : ℕ)
  | terminated (actor : Ref)
  | persistAndSuicide (reason : String)
  deriving DecidableEq, Repr

/-- What `context` is when a future callback runs: usable; usable but
closed to new children, the actor being about to stop; or null. -/
inductive ContextState where
  | active
  | terminating
  | terminated
  deriving DecidableEq, Repr

/-- What the ask for `SendTask` completes with. -/
inductive SendTaskResult where
  /-- `Success(AcquireExecutor(vm))`. -/
  | acquireExecutor (vm : ℕ)
  /-- `Success` of anything else, such as `NotReadyJet`. -/
  | otherSuccess
  /-- `Failure`: the offer was rejected or the ask timed out. -/
  | failure
  deriving DecidableEq, Repr

/-- What comes of asking a virtual machine `StillAlive`. -/
inductive StillAliveAnswer where
  | alive
  /-- Any other answer. -/
  | notAlive
  /-- No answer within ten seconds. -/
  | timeout
  deriving DecidableEq, Repr

namespace TaskActor

/-- Handler code of a `TaskActor`. -/
abbrev Code := Handler TaskActor TaskEffect Throwable

/-- `new TaskActor(task, tablename)`. -/
def new (task : Task) (tablename : String) : TaskActor :=
  ⟨task, tablename, false, false, none, none⟩

/-- `UpdateTaskStatus` for the actor's own task. -/
def updateTaskStatus (status : TaskStatus) : Code Unit := do
  let a ← fields
  perform (.tellDb (.updateTaskStatus a.task.fullName status a.tablename))

def handleGetTask (sender : ℕ) : Code Unit := do
  assign fun a => { a with isTaken := true }
  perform (.askSendTask sender)

def handleTermianted (t : Ref) : Code Unit := do
  if (← fields).taskDone then
    perform .stopSelf
  else
    assign fun a => { a with isTaken := false }
    -- check what crashed: the targetVm or the executor
    if (← fields).targetVm.map Ref.vm = some t then
      let e ← deref .matchError (← fields).executorActor
      perform (.unwatch (.executor e))
      perform (.stopExecutor e)
      assign fun a => { a with executorActor := none }
    let vm ← deref .matchError (← fields).targetVm
    perform (.unwatch (.vm vm))
    assign fun a => { a with targetVm := none }
    updateTaskStatus .notStarted

def receive : TaskMessage → Code Unit
  | .getTask sender => do
      -- `case p : GetTask if ! isTaken`; without the guard no case matches
      if !(← fields).isTaken then
        handleGetTask sender
  | .terminated t => handleTermianted t
  | .persistAndSuicide reason => do
      let a ← fields
      perform (.tellDb (.updateTask a.task.fullName .notStarted .abandoned
        (some ("DEPENDENCY FAILED: " ++ reason)) a.tablename))
      perform .stopSelf

/-- The decider of `supervisorStrategy`, for an exception of the
executor; `answer` is what comes of asking `targetVm`. -/
def supervisorStrategy (t : Throwable) (answer : StillAliveAnswer) : Code Directive := do
  if !(← fields).isTaken then
    return .stop
  match t with
  | .testSuccess .. =>
      assign fun a => { a with taskDone := true }
      return .escalate
  | .testFail .. =>
      let vm ← deref .illegalArgument (← fields).targetVm
      perform (.tellVm vm .stillAlive)
      match answer with
      | .alive =>
          assign fun a => { a with taskDone := true }
          return .escalate
      | .notAlive =>
          assign fun a => { a with taskDone := false }
          return .stop
      | .timeout => raise .timeout
  | _ =>
      assign fun a => { a with taskDone := false }
      return .stop

/-- `context.watch`, from a callback. -/
def watchFromCallback (c : ContextState) (r : Ref) : Code Unit :=
  match c with
  | .terminated => raise .nullPointer
  | _ => perform (.watch r)

/-- `executorActor = context.actorOf(…)`, from a callback. -/
def createExecutor (c : ContextState) (fresh : ℕ) : Code Unit :=
  match c with
  | .active => do
      perform (.createExecutor fresh)
      assign fun a => { a with executorActor := some fresh }
  | .terminating => raise .illegalState
  | .terminated => raise .nullPointer

/-- `monitor_send_and_execute()`: it reads the fields `executorActor` and
`targetVm` of the moment, and `target` of the attempt it belongs to. -/
def monitorSendAndExecute (c : ContextState) (target : ℕ) : Code Unit := do
  let e ← deref .nullPointer (← fields).executorActor
  watchFromCallback c (.executor e)
  let vm ← deref .nullPointer (← fields).targetVm
  perform (.tellVm vm (.executor e))
  perform (.executeTask e target)
  updateTaskStatus .running

/-- `executor.onComplete`, the callback of the `SendTask` ask. -/
def onSendTask (c : ContextState) (fresh : ℕ) : SendTaskResult → Code Unit
  | .acquireExecutor vm => do
      assign fun a => { a with targetVm := some vm }
      watchFromCallback c (.vm vm)
      if (← fields).task.runLocally then
        createExecutor c fresh
        monitorSendAndExecute c vm
      else
        perform (.askExecutorAddress vm)
  | .otherSuccess => raise .matchError
  | .failure => assign fun a => { a with isTaken := false }

/-- The inner `onComplete` of the `GetExecutorAddress` ask, in the
attempt with `target.vmActorRef = target`. -/
def onExecutorAddress (c : ContextState) (fresh : ℕ) (target : ℕ) : Bool → Code Unit
  | true => do
      createExecutor c fresh
      monitorSendAndExecute c target
  | false => do
      let vm ← deref .nullPointer (← fields).targetVm
      perform (.tellVm vm .cannotGetExecutor)
      assign fun a => { a with isTaken := false }

/-! ## What each piece of code leaves

One lemma for each path through the code: the fields afterwards, the
effects in order, the exception. Everything later is proved from
these; no proof outside this section unfolds a handler. -/

variable {a : TaskActor}

theorem receive_getTask_taken {v : ℕ} (h : a.isTaken = true) :
    receive (.getTask v) a = ⟨a, [], .ok ()⟩ := by
  simp [receive, h]

theorem receive_getTask_free {v : ℕ} (h : a.isTaken = false) :
    receive (.getTask v) a = ⟨{ a with isTaken := true }, [.askSendTask v], .ok ()⟩ := by
  simp [receive, handleGetTask, h]

theorem receive_persistAndSuicide (a : TaskActor) (reason : String) :
    receive (.persistAndSuicide reason) a =
      ⟨a, [.tellDb (.updateTask a.task.fullName .notStarted .abandoned
        (some ("DEPENDENCY FAILED: " ++ reason)) a.tablename), .stopSelf], .ok ()⟩ := by
  simp [receive]

theorem receive_terminated_done {r : Ref} (h : a.taskDone = true) :
    receive (.terminated r) a = ⟨a, [.stopSelf], .ok ()⟩ := by
  simp [receive, handleTermianted, h]

/-- The target machine is gone and there is an executor to stop. -/
theorem receive_terminated_target {v e : ℕ} (h : a.taskDone = false)
    (hv : a.targetVm = some v) (he : a.executorActor = some e) :
    receive (.terminated (.vm v)) a =
      ⟨{ a with isTaken := false, executorActor := none, targetVm := none },
       [.unwatch (.executor e), .stopExecutor e, .unwatch (.vm v),
        .tellDb (.updateTaskStatus a.task.fullName .notStarted a.tablename)], .ok ()⟩ := by
  simp [receive, handleTermianted, updateTaskStatus, h, hv, he]

/-- The target machine is gone before there is an executor:
`unwatch(null)` raises, with `isTaken` already reset. -/
theorem receive_terminated_target_null {v : ℕ} (h : a.taskDone = false)
    (hv : a.targetVm = some v) (he : a.executorActor = none) :
    receive (.terminated (.vm v)) a =
      ⟨{ a with isTaken := false }, [], .error .matchError⟩ := by
  simp [receive, handleTermianted, h, hv, he]

/-- Anything else that is gone counts as the executor. -/
theorem receive_terminated_other {r : Ref} {v : ℕ} (h : a.taskDone = false)
    (hv : a.targetVm = some v) (hr : r ≠ .vm v) :
    receive (.terminated r) a =
      ⟨{ a with isTaken := false, targetVm := none },
       [.unwatch (.vm v),
        .tellDb (.updateTaskStatus a.task.fullName .notStarted a.tablename)], .ok ()⟩ := by
  have hne : Ref.vm v ≠ r := fun he => hr he.symm
  simp [receive, handleTermianted, updateTaskStatus, h, hv, hne]

theorem receive_terminated_null {r : Ref} (h : a.taskDone = false) (hv : a.targetVm = none) :
    receive (.terminated r) a = ⟨{ a with isTaken := false }, [], .error .matchError⟩ := by
  simp [receive, handleTermianted, h, hv]

theorem supervisorStrategy_notTaken {t : Throwable} {answer : StillAliveAnswer}
    (h : a.isTaken = false) : supervisorStrategy t answer a = ⟨a, [], .ok .stop⟩ := by
  simp [supervisorStrategy, h]

theorem supervisorStrategy_success {task : Task} {res : Option String}
    {answer : StillAliveAnswer} (h : a.isTaken = true) :
    supervisorStrategy (.testSuccess task res) answer a =
      ⟨{ a with taskDone := true }, [], .ok .escalate⟩ := by
  simp [supervisorStrategy, h]

theorem supervisorStrategy_fail {task : Task} {res : Option Cause} {v : ℕ}
    (h : a.isTaken = true) (hv : a.targetVm = some v) :
    supervisorStrategy (.testFail task res) .alive a =
      ⟨{ a with taskDone := true }, [.tellVm v .stillAlive], .ok .escalate⟩ := by
  simp [supervisorStrategy, h, hv]

theorem supervisorStrategy_fail_notAlive {task : Task} {res : Option Cause} {v : ℕ}
    (h : a.isTaken = true) (hv : a.targetVm = some v) :
    supervisorStrategy (.testFail task res) .notAlive a =
      ⟨{ a with taskDone := false }, [.tellVm v .stillAlive], .ok .stop⟩ := by
  simp [supervisorStrategy, h, hv]

theorem supervisorStrategy_fail_timeout {task : Task} {res : Option Cause} {v : ℕ}
    (h : a.isTaken = true) (hv : a.targetVm = some v) :
    supervisorStrategy (.testFail task res) .timeout a =
      ⟨a, [.tellVm v .stillAlive], .error .timeout⟩ := by
  simp [supervisorStrategy, h, hv]

theorem supervisorStrategy_fail_null {task : Task} {res : Option Cause}
    {answer : StillAliveAnswer} (h : a.isTaken = true) (hv : a.targetVm = none) :
    supervisorStrategy (.testFail task res) answer a = ⟨a, [], .error .illegalArgument⟩ := by
  simp [supervisorStrategy, h, hv]

theorem supervisorStrategy_unexpected {t : Throwable} {answer : StillAliveAnswer}
    (h : a.isTaken = true) (ht : ¬ t.IsResult) :
    supervisorStrategy t answer a = ⟨{ a with taskDone := false }, [], .ok .stop⟩ := by
  cases t <;> simp_all [supervisorStrategy, Throwable.IsResult]

/-- The acquired machine is watched and an executor is asked for. -/
theorem onSendTask_remote {c : ContextState} {fresh v : ℕ} (hc : c ≠ .terminated)
    (h : a.task.runLocally = false) :
    onSendTask c fresh (.acquireExecutor v) a =
      ⟨{ a with targetVm := some v }, [.watch (.vm v), .askExecutorAddress v], .ok ()⟩ := by
  cases c <;> simp_all [onSendTask, watchFromCallback]

/-- The executor is created at once, on the machine's node. -/
theorem onSendTask_local {fresh v : ℕ} (h : a.task.runLocally = true) :
    onSendTask .active fresh (.acquireExecutor v) a =
      ⟨{ a with targetVm := some v, executorActor := some fresh },
       [.watch (.vm v), .createExecutor fresh, .watch (.executor fresh),
        .tellVm v (.executor fresh), .executeTask fresh v,
        .tellDb (.updateTaskStatus a.task.fullName .running a.tablename)], .ok ()⟩ := by
  simp [onSendTask, watchFromCallback, createExecutor, monitorSendAndExecute,
    updateTaskStatus, h]

theorem onSendTask_local_terminating {fresh v : ℕ} (h : a.task.runLocally = true) :
    onSendTask .terminating fresh (.acquireExecutor v) a =
      ⟨{ a with targetVm := some v }, [.watch (.vm v)], .error .illegalState⟩ := by
  simp [onSendTask, watchFromCallback, createExecutor, h]

theorem onSendTask_terminated {fresh v : ℕ} :
    onSendTask .terminated fresh (.acquireExecutor v) a =
      ⟨{ a with targetVm := some v }, [], .error .nullPointer⟩ := by
  simp [onSendTask, watchFromCallback]

theorem onSendTask_other {c : ContextState} {fresh : ℕ} :
    onSendTask c fresh .otherSuccess a = ⟨a, [], .error .matchError⟩ := by
  simp [onSendTask]

theorem onSendTask_failure {c : ContextState} {fresh : ℕ} :
    onSendTask c fresh .failure a = ⟨{ a with isTaken := false }, [], .ok ()⟩ := by
  simp [onSendTask]

theorem onExecutorAddress_success {fresh target v : ℕ} (hv : a.targetVm = some v) :
    onExecutorAddress .active fresh target true a =
      ⟨{ a with executorActor := some fresh },
       [.createExecutor fresh, .watch (.executor fresh), .tellVm v (.executor fresh),
        .executeTask fresh target,
        .tellDb (.updateTaskStatus a.task.fullName .running a.tablename)], .ok ()⟩ := by
  simp [onExecutorAddress, createExecutor, monitorSendAndExecute, watchFromCallback,
    updateTaskStatus, hv]

/-- `targetVm` was reset meanwhile: the executor is never sent its task. -/
theorem onExecutorAddress_success_null {fresh target : ℕ} (hv : a.targetVm = none) :
    onExecutorAddress .active fresh target true a =
      ⟨{ a with executorActor := some fresh },
       [.createExecutor fresh, .watch (.executor fresh)], .error .nullPointer⟩ := by
  simp [onExecutorAddress, createExecutor, monitorSendAndExecute, watchFromCallback, hv]

theorem onExecutorAddress_success_terminating {fresh target : ℕ} :
    onExecutorAddress .terminating fresh target true a = ⟨a, [], .error .illegalState⟩ := by
  simp [onExecutorAddress, createExecutor]

theorem onExecutorAddress_success_terminated {fresh target : ℕ} :
    onExecutorAddress .terminated fresh target true a = ⟨a, [], .error .nullPointer⟩ := by
  simp [onExecutorAddress, createExecutor]

theorem onExecutorAddress_failure {c : ContextState} {fresh target v : ℕ}
    (hv : a.targetVm = some v) :
    onExecutorAddress c fresh target false a =
      ⟨{ a with isTaken := false }, [.tellVm v .cannotGetExecutor], .ok ()⟩ := by
  simp [onExecutorAddress, hv]

theorem onExecutorAddress_failure_null {c : ContextState} {fresh target : ℕ}
    (hv : a.targetVm = none) :
    onExecutorAddress c fresh target false a = ⟨a, [], .error .nullPointer⟩ := by
  simp [onExecutorAddress, hv]

end TaskActor

end Clustering.Worker
