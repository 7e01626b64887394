/-
Clustering.Db.DBQuery — the queries of `DBQuery.scala`.

A query is handler code over the backend: the database and the
connections that are open. The statements with a placeholder or a list
are built as text, as in the source, and read back by `Sql.parse`; the
DDL statements and the two counts, whose text has only the table's name
in it, are their meaning, guarded by `Server.IsName`.

The three readers decode a row by one piece of code, `readTask`: they
differ in where the method and the status come from.
-/
import Clustering.Java.Strings
import Clustering.Db.Database

namespace Clustering.Db

open Actors Actors.Handler
open Clustering.Worker (TaskStatus)
open Java Sql

/-! ## Replies and effects -/

/-- A `RequestedTask`. Null references are `none`. -/
structure RequestedTask where
  method : String
  params : StringMap String
  taskStatus : TaskStatus
  endState : EndState
  taskResult : Option String
  startedAt : Option Timestamp
  finishedAt : Option Timestamp
  timeSpent : ℤ

/-- What a query answers. -/
inductive Reply where
  | unit
  | tables (names : List String)
  | report (path : String)
  | countedTaskStatus (result : List (TaskStatus × ℕ))
  | countedEndState (result : List (EndState × ℕ))
  | task (result : Option RequestedTask)
  | tasks (result : Option (List RequestedTask))

inductive DbEffect where
  /-- `sender() ! msg`. -/
  | reply (msg : Reply)
  | connectionStatus (message : Bool)
  | writeFile (path text : String)

inductive DbThrowable where
  | sqlException (e : SqlError)
  | matchError
  | illegalArgument
  | ioException
  deriving DecidableEq, Repr

/-- The database and the connections to it. -/
structure Backend where
  database : Database
  /-- The number of the next connection. -/
  next : ℕ
  openConnections : List ℕ
  fresh : ∀ c ∈ openConnections, c < next

/-- The backend with one more open connection, the `next`. -/
def Backend.opened (b : Backend) : Backend where
  database := b.database
  next := b.next + 1
  openConnections := b.next :: b.openConnections
  fresh := by
    intro c hc
    rcases List.mem_cons.mp hc with rfl | hc
    · exact Nat.lt_succ_self _
    · exact Nat.lt_succ_of_lt (b.fresh c hc)

def Backend.closed (b : Backend) (connection : ℕ) : Backend where
  database := b.database
  next := b.next
  openConnections := b.openConnections.filter (· ≠ connection)
  fresh := fun c hc => b.fresh c (List.mem_of_mem_filter hc)

/-- What the outside does while one message is handled. -/
structure Outside where
  server : Server
  /-- Whether `DriverManager.getConnection` succeeds. -/
  connects : Bool
  /-- `CURRENT_TIMESTAMP`. -/
  now : ℕ
  /-- `File.createTempFile`: a path, or an `IOException`. -/
  tempFile : Option String

abbrev Code := Handler Backend DbEffect DbThrowable

/-! ## Statements -/

def sqlResult {α : Type} : Except SqlError α → Code α
  | .ok a => pure a
  | .error e => raise (.sqlException e)

def syntaxErrorUnless (p : Prop) [Decidable p] : Code Unit :=
  if p then pure () else raise (.sqlException .syntaxError)

/-- `connection.prepareStatement(sql)`. What the text has in the place of
the table's name must be a name. -/
def prepareStatement (server : Server) (tableName sql : String) :
    Code (Prepared (Option String)) := do
  syntaxErrorUnless (server.IsName tableName)
  let statement ← deref (.sqlException .syntaxError) (Sql.parse sql)
  pure ⟨statement, []⟩

/-- A sequence of `setString` and `setNull`. -/
def setStrings (p : Prepared (Option String)) (bindings : List (ℕ × Option String)) :
    Code (Prepared (Option String)) :=
  deref (.sqlException .parameterIndex) (p.setAll bindings)

def executeUpdate (now : ℕ) (p : Prepared (Option String)) : Code Unit := do
  let values ← deref (.sqlException .noValue) p.values
  let t ← deref (.sqlException .unknownTable) ((← fields).database.find? p.statement.table)
  let t' ← sqlResult (t.execute now values p.statement)
  assign fun b => { b with database := b.database.replace p.statement.table t' }

def executeQuery (p : Prepared (Option String)) : Code (List Row) := do
  let values ← deref (.sqlException .noValue) p.values
  let t ← deref (.sqlException .unknownTable) ((← fields).database.find? p.statement.table)
  sqlResult (t.query values p.statement)

/-- The table behind a `SELECT` without placeholders. -/
def tableOf (server : Server) (tableName : String) : Code Table := do
  syntaxErrorUnless (server.IsName tableName)
  deref (.sqlException .unknownTable) ((← fields).database.find? tableName)

/-! ## Tables -/

namespace DBGetTables

def perform : Code Reply := do
  -- the rows come in descending order and are put in front one by one
  pure (.tables (((← fields).database.names).foldl (fun tables n => n :: tables) []))

end DBGetTables

namespace DBCreateTasksTable

/-- The name of the trigger. -/
def triggerName (tableName : String) : String := tableName ++ "_update_timestamps"

def perform (server : Server) (tableName : String) : Code Unit := do
  -- `CREATE TABLE IF NOT EXISTS`
  syntaxErrorUnless (server.IsName tableName)
  assign fun b => { b with database := b.database.create server.collation tableName }
  -- `CREATE OR REPLACE TRIGGER`
  syntaxErrorUnless (server.IsName (triggerName tableName))
  let t ← deref (.sqlException .unknownTable) ((← fields).database.find? tableName)
  assign fun b => { b with database := b.database.replace tableName { t with trigger := true } }

end DBCreateTasksTable

/-! ## Writing rows -/

/-- `for ((name, value) <- params) paramsAsString += name + "=" + value + "; "`. -/
def paramsAsString (params : StringMap String) : String :=
  params.entries.foldl (fun s e => s ++ (e.1 ++ "=" ++ e.2 ++ "; ")) ""

namespace DBCreateTask

/-- `params` is null for a task without parameters. -/
def perform (o : Outside) (method : String) (params : Option (StringMap String))
    (tableName : String) : Code Unit := do
  match params with
  | none =>
      let p ← prepareStatement o.server tableName
        s!"INSERT INTO {tableName} (method) VALUES (?);"
      executeUpdate o.now (← setStrings p [(1, some method)])
  | some params =>
      let p ← prepareStatement o.server tableName
        s!"INSERT INTO {tableName} (method, params) VALUES (?, ?);"
      -- the result of `paramsAsString dropRight 1` is not used
      executeUpdate o.now (← setStrings p [(1, some method), (2, some (paramsAsString params))])

end DBCreateTask

namespace DBCreateTasks

/-- The statement for tasks without parameters. -/
def sql (tableName : String) (n : ℕ) : String :=
  dropRight (appended "?), (" n s!"INSERT INTO {tableName} (method) VALUES (") 3 ++ ";"

/-- The statement for tasks with parameters. -/
def sqlWithParams (tableName : String) (n : ℕ) : String :=
  dropRight (appended "?, ?), (" n s!"INSERT INTO {tableName} (method, params) VALUES (") 3 ++ ";"

def perform (o : Outside) (methods : List String) (tableName : String) : Code Unit := do
  let p ← prepareStatement o.server tableName (sql tableName methods.length)
  executeUpdate o.now (← setStrings p (methods.zipIdx.map fun x => (x.2 + 1, some x.1)))

/-- The indices `i` and `j` of the loop, at the `k`-th task from 0. -/
def bindings (tasks : List (String × StringMap String)) : List (ℕ × Option String) :=
  tasks.zipIdx.flatMap fun x =>
    [(1 + 2 * x.2, some x.1.1), (2 + 2 * x.2, some (paramsAsString x.1.2))]

def performWithParams (o : Outside) (methodsWithParams : StringMap (StringMap String))
    (tableName : String) : Code Unit := do
  let p ← prepareStatement o.server tableName (sqlWithParams tableName methodsWithParams.entries.length)
  executeUpdate o.now (← setStrings p (bindings methodsWithParams.entries))

end DBCreateTasks

/-! ## Reading rows -/

/-- The characters that match the regular expression `=| `. -/
def isSeparator (c : Char) : Bool := c == '=' || c == ' '

/-- The column `params` as a map. -/
def readParams : Option String → Code (StringMap String)
  | none => pure .empty
  | some column => do
      let ps ← deref .matchError (pairs (split isSeparator (delete ';' column)))
      pure (.ofPairs ps)

def readEndState : Option String → Code EndState
  | none => pure .none
  | some column => deref .illegalArgument (EndState.valueOf column)

def getTimestamp (server : Server) (t : ℕ) : Code (Option Timestamp) :=
  if t = 0 then
    if server.readsZeroDates then pure none else raise (.sqlException .zeroDate)
  else pure (some (server.calendar t))

/-- The body of the readers' loop. `getInt` of null is 0. -/
def readTask (server : Server) (method : String) (status : Code TaskStatus) (r : Row) :
    Code RequestedTask := do
  let params ← readParams r.params
  let taskStatus ← status
  let endState ← readEndState r.endState
  let startedAt ← getTimestamp server r.startedAt
  let finishedAt ← getTimestamp server r.finishedAt
  pure ⟨method, params, taskStatus, endState, r.taskResult, startedAt, finishedAt,
    r.timeSpent.getD 0⟩

/-- `TaskStatus.valueOf(resultSet.getString("task_status"))`. -/
def readStatus (r : Row) : Code TaskStatus := deref .illegalArgument (statusValueOf r.taskStatus)

/-- `while (resultSet.next()) taskList = … :: taskList`. -/
def readList (read : Row → Code RequestedTask) : List Row → List RequestedTask →
    Code (List RequestedTask)
  | [], taskList => pure taskList
  | r :: rest, taskList => do
      let task ← read r
      readList read rest (task :: taskList)

namespace DBGetTask

def sql (tableName : String) : String := s!"SELECT * FROM {tableName} WHERE method = ?;"

/-- `while (resultSet.next()) task = …`. -/
def readLast (server : Server) (method : String) : List Row → Option RequestedTask →
    Code (Option RequestedTask)
  | [], task => pure task
  | r :: rest, _ => do
      let task ← readTask server method (readStatus r) r
      readLast server method rest (some task)

def perform (server : Server) (method tableName : String) : Code (Option RequestedTask) := do
  let p ← prepareStatement server tableName (sql tableName)
  let rows ← executeQuery (← setStrings p [(1, some method)])
  readLast server method rows none

end DBGetTask

namespace DBGetTasks

def sql (tableName : String) (n : ℕ) : String :=
  dropRight (appended "?, " n s!"SELECT * FROM {tableName} WHERE method IN (") 2 ++ ");"

def perform (server : Server) (methods : List String) (tableName : String) :
    Code (Option (List RequestedTask)) := do
  let p ← prepareStatement server tableName (sql tableName methods.length)
  let rows ← executeQuery (← setStrings p (methods.zipIdx.map fun x => (x.2 + 1, some x.1)))
  if rows.isEmpty then pure none
  else
    let taskList ← readList (fun r => readTask server r.method (readStatus r) r) rows []
    pure (some taskList)

end DBGetTasks

namespace DBGetTasksWithStatus

def sql (tableName : String) : String := s!"SELECT * FROM {tableName} WHERE task_status = ?;"

def perform (server : Server) (taskStatus : TaskStatus) (tableName : String) :
    Code (Option (List RequestedTask)) := do
  let p ← prepareStatement server tableName (sql tableName)
  let rows ← executeQuery (← setStrings p [(1, some (statusName taskStatus))])
  if rows.isEmpty then pure none
  else
    let taskList ← readList (fun r => readTask server r.method (pure taskStatus) r) rows []
    pure (some taskList)

end DBGetTasksWithStatus

/-! ## Counting -/

/-- `result += (key -> amount)`. -/
def putCount {K : Type} [DecidableEq K] (result : List (K × ℕ)) (key : K) (amount : ℕ) :
    List (K × ℕ) :=
  if key ∈ result.map Prod.fst then result.map fun e => if e.1 = key then (key, amount) else e
  else result ++ [(key, amount)]

/-- `while (resultSet.next())`, with the column `amount`. -/
def readCounts {C K : Type} [DecidableEq K] (read : C → Code K) :
    List (C × ℕ) → List (K × ℕ) → Code (List (K × ℕ))
  | [], result => pure result
  | (column, amount) :: rest, result => do
      let key ← read column
      readCounts read rest (putCount result key amount)

/-- `COUNT(*) … WHERE task_status = '…'`. -/
def Table.countStatus (t : Table) (v : TaskStatus) : ℕ :=
  t.rows.countP fun r => t.collation.key r.taskStatus = t.collation.key (statusName v)

/-- `COUNT(*) … WHERE end_state = '…'`, or `IS NULL` for `NONE`. -/
def Table.countEndState (t : Table) (v : EndState) : ℕ :=
  t.rows.countP fun r => r.endState.map t.collation.key = v.toText.map t.collation.key

namespace DBCountTaskStatus

/-- One `SELECT` per constant, with the constant as a literal. -/
def resultSet (t : Table) : List (String × ℕ) :=
  [(statusName .notStarted, t.countStatus .notStarted),
    (statusName .running, t.countStatus .running), (statusName .done, t.countStatus .done)]

def perform (server : Server) (tableName : String) : Code (List (TaskStatus × ℕ)) := do
  let t ← tableOf server tableName
  readCounts (fun column => deref .illegalArgument (statusValueOf column)) (resultSet t) []

/-- Every constant is read back, under a key of its own. -/
theorem perform_eq (server : Server) (tableName : String) :
    perform server tableName = (do
      let t ← tableOf server tableName
      pure ([TaskStatus.notStarted, .running, .done].map fun v => (v, t.countStatus v))) := by
  funext b
  rw [perform, bind_apply, bind_apply]
  rcases tableOf server tableName b with ⟨b', es, e | t⟩
  · rfl
  · simp [resultSet, readCounts, statusValueOf_name, putCount]

end DBCountTaskStatus

namespace DBCountEndState

/-- The first `SELECT` shows the column itself, which is null in the rows
it counts. -/
def resultSet (t : Table) : List (Option String × ℕ) :=
  [(none, t.countEndState .none), (EndState.success.toText, t.countEndState .success),
    (EndState.failure.toText, t.countEndState .failure),
    (EndState.abandoned.toText, t.countEndState .abandoned),
    (EndState.error.toText, t.countEndState .error)]

def perform (server : Server) (tableName : String) : Code (List (EndState × ℕ)) := do
  let t ← tableOf server tableName
  readCounts readEndState (resultSet t) []

theorem perform_eq (server : Server) (tableName : String) :
    perform server tableName = (do
      let t ← tableOf server tableName
      pure ([EndState.none, .success, .failure, .abandoned, .error].map fun v =>
        (v, t.countEndState v))) := by
  funext b
  rw [perform, bind_apply, bind_apply]
  rcases tableOf server tableName b with ⟨b', es, e | t⟩
  · rfl
  · simp [resultSet, readCounts, readEndState, EndState.toText, EndState.valueOf_name, putCount]

end DBCountEndState

/-! ## Updating and deleting -/

/-- `statement.setNull` or `setString`, by the end state. -/
def endStateColumn (endState : EndState) : Option String := endState.toText

namespace DBUpdateTask

def sql (tableName : String) : String :=
  s!"UPDATE {tableName} SET task_status = ?, end_state = ?, task_result = ? WHERE method = ?;"

def perform (o : Outside) (method : String) (taskStatus : TaskStatus) (endState : EndState)
    (taskResult : Option String) (tableName : String) : Code Unit := do
  let p ← prepareStatement o.server tableName (sql tableName)
  executeUpdate o.now (← setStrings p [(1, some (statusName taskStatus)),
    (2, endStateColumn endState), (3, taskResult), (4, some method)])

end DBUpdateTask

namespace DBUpdateTasks

def sql (tableName : String) (n : ℕ) : String :=
  dropRight (appended "?, " n
    s!"UPDATE {tableName} SET task_status = ?, end_state = ?, task_result = ? WHERE method IN (") 2
    ++ ");"

def perform (o : Outside) (methods : List String) (taskStatus : TaskStatus) (endState : EndState)
    (taskResult : Option String) (tableName : String) : Code Unit := do
  let p ← prepareStatement o.server tableName (sql tableName methods.length)
  executeUpdate o.now (← setStrings p ([(1, some (statusName taskStatus)),
    (2, endStateColumn endState), (3, taskResult)]
    ++ methods.zipIdx.map fun x => (3 + (x.2 + 1), some x.1)))

end DBUpdateTasks

namespace DBUpdateTaskStatus

def sql (tableName : String) : String :=
  s!"UPDATE {tableName} SET task_status = ? WHERE method = ?;"

def perform (o : Outside) (method : String) (taskStatus : TaskStatus) (tableName : String) :
    Code Unit := do
  let p ← prepareStatement o.server tableName (sql tableName)
  executeUpdate o.now (← setStrings p [(1, some (statusName taskStatus)), (2, some method)])

end DBUpdateTaskStatus

namespace DBUpdateTasksStatus

def sql (tableName : String) (n : ℕ) : String :=
  dropRight (appended "?, " n
    s!"UPDATE {tableName} SET task_status = ? WHERE method IN (") 2 ++ ");"

def perform (o : Outside) (methods : List String) (taskStatus : TaskStatus) (tableName : String) :
    Code Unit := do
  let p ← prepareStatement o.server tableName (sql tableName methods.length)
  executeUpdate o.now (← setStrings p ([(1, some (statusName taskStatus))]
    ++ methods.zipIdx.map fun x => (1 + (x.2 + 1), some x.1)))

end DBUpdateTasksStatus

namespace DBDeleteTask

def sql (tableName : String) : String := s!"DELETE FROM {tableName} WHERE method = ?;"

def perform (o : Outside) (method tableName : String) : Code Unit := do
  let p ← prepareStatement o.server tableName (sql tableName)
  executeUpdate o.now (← setStrings p [(1, some method)])

end DBDeleteTask

namespace DBDeleteTasks

def sql (tableName : String) (n : ℕ) : String :=
  dropRight (appended "?, " n s!"DELETE FROM {tableName} WHERE method IN (") 2 ++ ");"

def perform (o : Outside) (methods : List String) (tableName : String) : Code Unit := do
  let p ← prepareStatement o.server tableName (sql tableName methods.length)
  executeUpdate o.now (← setStrings p (methods.zipIdx.map fun x => (x.2 + 1, some x.1)))

end DBDeleteTasks

end Clustering.Db
