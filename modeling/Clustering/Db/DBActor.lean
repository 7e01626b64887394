/-
Clustering.Db.DBActor — `performQuery` and `receive` of `DBActor.scala`.

A message is handled by one query on a connection of its own. `connect`
and `close` keep the list of open connections: an exception between the
two leaves the connection in it. The actor has no fields of its own, so
a restart changes nothing here.
-/
import Clustering.Db.Reports

namespace Clustering.Db

open Actors Actors.Handler
open Clustering.Worker (TaskStatus)
open Java

/-- The messages of `DBActor`, one constructor each. -/
inductive DBMessage where
  | connectionTest
  | getTables
  | generateTextReport (tableName : String)
  | generateJsonReport (tableName : String)
  | countTaskStatus (tableName : String)
  | countEndState (tableName : String)
  | createTask (method tableName : String)
  | createParametrizedTask (method : String) (params : StringMap String) (tableName : String)
  | createTasks (methods : List String) (tableName : String)
  | createParametrizedTasks (methods : StringMap (StringMap String)) (tableName : String)
  | getTask (method tableName : String)
  | getTasks (methods : List String) (tableName : String)
  | getTasksWithStatus (taskStatus : TaskStatus) (tableName : String)
  | updateTask (method : String) (taskStatus : TaskStatus) (endState : EndState)
      (taskResult : Option String) (tableName : String)
  | updateTasks (methods : List String) (taskStatus : TaskStatus) (endState : EndState)
      (taskResult : Option String) (tableName : String)
  | updateTaskStatus (method : String) (taskStatus : TaskStatus) (tableName : String)
  | updateTasksStatus (methods : List String) (taskStatus : TaskStatus) (tableName : String)
  | deleteTask (method tableName : String)
  | deleteTasks (methods : List String) (tableName : String)
  /-- Any other message. -/
  | unknown

/-- A `DBQuery`: its class as far as `performQuery` asks for it, its
`table` and its `perform`. -/
structure DBQuery where
  isGetTables : Bool
  table : String
  perform : Code Reply

/-- A query that answers nothing. -/
def DBQuery.ofUnit (table : String) (perform : Code Unit) : DBQuery :=
  ⟨false, table, do perform; pure .unit⟩

@[simp] theorem DBQuery.ofUnit_table (table : String) (perform : Code Unit) :
    (ofUnit table perform).table = table := rfl

namespace DBActor

/-- `connect`: the number of a new connection, or `None`. -/
def connect (o : Outside) : Code (Option ℕ) := do
  if o.connects then
    let b ← fields
    assign Backend.opened
    pure (some b.next)
  else pure none

/-- `connection.close()`. -/
def close (connection : ℕ) : Code Unit := assign fun b => b.closed connection

/-- The loop over `metadata.getTables`. -/
def checkTableExistence (tableName : String) : Code Bool := do
  pure (((← fields).database.tables).any fun e => e.1 = tableName)

def answer : Reply → Code Unit
  | .unit => pure ()
  | msg => perform (.reply msg)

def performQuery (o : Outside) (query : DBQuery) : Code Unit := do
  match ← connect o with
  | some connection =>
      if !(← checkTableExistence query.table) then
        if !query.isGetTables then
          DBCreateTasksTable.perform o.server query.table
      answer (← query.perform)
      close connection
  | none => pure ()

/-- The query `receive` performs for a message. -/
def query (o : Outside) : DBMessage → Option DBQuery
  | .connectionTest => none
  | .getTables => some ⟨true, "", DBGetTables.perform⟩
  | .generateTextReport tableName =>
      some ⟨false, tableName, DBGenerateTextReport.perform o tableName⟩
  | .generateJsonReport tableName =>
      some ⟨false, tableName, DBGenerateJsonReport.perform o tableName⟩
  | .countTaskStatus tableName => some ⟨false, tableName, do
      pure (.countedTaskStatus (← DBCountTaskStatus.perform o.server tableName))⟩
  | .countEndState tableName => some ⟨false, tableName, do
      pure (.countedEndState (← DBCountEndState.perform o.server tableName))⟩
  | .createTask method tableName =>
      some (.ofUnit tableName (DBCreateTask.perform o method none tableName))
  | .createParametrizedTask method params tableName =>
      some (.ofUnit tableName (DBCreateTask.perform o method (some params) tableName))
  | .createTasks methods tableName =>
      some (.ofUnit tableName (DBCreateTasks.perform o methods tableName))
  | .createParametrizedTasks methods tableName =>
      some (.ofUnit tableName (DBCreateTasks.performWithParams o methods tableName))
  | .getTask method tableName => some ⟨false, tableName, do
      pure (.task (← DBGetTask.perform o.server method tableName))⟩
  | .getTasks methods tableName => some ⟨false, tableName, do
      pure (.tasks (← DBGetTasks.perform o.server methods tableName))⟩
  | .getTasksWithStatus taskStatus tableName => some ⟨false, tableName, do
      pure (.tasks (← DBGetTasksWithStatus.perform o.server taskStatus tableName))⟩
  | .updateTask method taskStatus endState taskResult tableName => some (.ofUnit tableName
      (DBUpdateTask.perform o method taskStatus endState taskResult tableName))
  | .updateTasks methods taskStatus endState taskResult tableName => some (.ofUnit tableName
      (DBUpdateTasks.perform o methods taskStatus endState taskResult tableName))
  | .updateTaskStatus method taskStatus tableName => some (.ofUnit tableName
      (DBUpdateTaskStatus.perform o method taskStatus tableName))
  | .updateTasksStatus methods taskStatus tableName => some (.ofUnit tableName
      (DBUpdateTasksStatus.perform o methods taskStatus tableName))
  | .deleteTask method tableName =>
      some (.ofUnit tableName (DBDeleteTask.perform o method tableName))
  | .deleteTasks methods tableName =>
      some (.ofUnit tableName (DBDeleteTasks.perform o methods tableName))
  | .unknown => none

def receive (o : Outside) (m : DBMessage) : Code Unit := do
  match m with
  | .connectionTest =>
      match ← connect o with
      | some connection =>
          close connection
          perform (.connectionStatus true)
      | none => perform (.connectionStatus false)
  | m =>
      match query o m with
      | some q => performQuery o q
      | none => pure ()

end DBActor

end Clustering.Db
