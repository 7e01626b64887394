/-
Clustering.Worker.Messages — tasks, the exceptions that report their
results, and what the workers write to the database.

Of a `Task` the class bytes are left out: no handler modelled here
reads them. A result object is kept as far as the workers read it: its
`toString`, and for a `Throwable` also its cause.
-/
import Clustering.Actors.Handler

namespace Clustering.Worker

/-- `case class Task`, without `raw_cls`. -/
structure Task where
  classname : String
  method : String
  singleInstance : Bool
  runLocally : Bool
  deriving DecidableEq, Repr

/-- `s"${task.classname}.${task.method}"`, the name of a task in the
database. -/
def Task.fullName (t : Task) : String := t.classname ++ "." ++ t.method

/-- A `java.lang.Throwable` as `handleFailure` reads it: its `toString`
and the one of its cause, if it has one. -/
structure Cause where
  text : String
  cause : Option String
  deriving DecidableEq, Repr

/-- The exceptions that travel up the supervision tree. -/
inductive Throwable where
  /-- `TestSuccessException(task, result)`; the result may be null. -/
  | testSuccess (task : Task) (result : Option String)
  /-- `TestFailException(task, result)`. -/
  | testFail (task : Task) (result : Option Cause)
  | matchError
  | nullPointer
  | illegalArgument
  | illegalState
  | timeout
  | noSuchElement
  | invalidActorName (name : String)
  /-- Anything else a task execution throws. -/
  | other (text : String)
  deriving DecidableEq, Repr

/-- The exceptions with which an executor reports a result. -/
def Throwable.IsResult : Throwable → Prop
  | .testSuccess .. => True
  | .testFail .. => True
  | _ => False

instance : DecidablePred Throwable.IsResult := fun t => by
  cases t <;> simp only [Throwable.IsResult] <;> infer_instance

/-- What a decider answers about a failed child. -/
inductive Directive where
  | stop
  | restart
  | escalate
  deriving DecidableEq, Repr

/-- `TaskStatus.java`. -/
inductive TaskStatus where
  | notStarted
  | running
  | done
  deriving DecidableEq, Repr

/-- `EndState.java`. -/
inductive EndState where
  | success
  | failure
  | abandoned
  deriving DecidableEq, Repr

/-- The messages the workers send to `/user/db`. -/
inductive DBMessage where
  | updateTask (method : String) (status : TaskStatus) (endState : EndState)
      (result : Option String) (tableName : String)
  | updateTaskStatus (method : String) (status : TaskStatus) (tableName : String)
  deriving DecidableEq, Repr

end Clustering.Worker
