/-
Clustering.Db.Reports — `DBGenerateTextReport` and
`DBGenerateJsonReport`.

Both run `DBGetTasksWithStatus` for `DONE` on the same connection and
write the result to a temporary file. The texts are put together by
concatenation; a null reference prints as `null`.
-/
import Clustering.Db.DBQuery

namespace Clustering.Db

open Actors Actors.Handler
open Java

/-! ## Texts of values -/

/-- What string concatenation makes of a reference that may be null. -/
def nullable : Option String → String
  | none => "null"
  | some s => s

/-- `%02d`. -/
def pad2 (n : ℤ) : String :=
  if 0 ≤ n ∧ n < 10 then "0" ++ toString n else toString n

/-- A year has four digits. -/
def pad4 (n : ℕ) : String := String.ofList (List.replicate (4 - (toString n).length) '0') ++ toString n

/-- `Timestamp.toString`. The columns have no fractions of a second. -/
def Timestamp.toText (t : Timestamp) : String :=
  pad4 t.year ++ "-" ++ pad2 t.month ++ "-" ++ pad2 t.day ++ " " ++ pad2 t.hour ++ ":" ++
    pad2 t.minute ++ ":" ++ pad2 t.second ++ ".0"

namespace DBGenerateTextReport

def rule : String :=
  "==================================================================================================="

/-- The lines of one task. The result of `paramsAsString dropRight 1` is
not used. -/
def taskText (task : RequestedTask) : String :=
  rule ++ "\n" ++ nullable task.endState.toText ++ "\n\n"
    ++ "METHOD     : " ++ task.method ++ "(" ++ paramsAsString task.params ++ ")\n"
    ++ "STARTED @  : " ++ nullable (task.startedAt.map Timestamp.toText) ++ "\n"
    ++ "FINISHED @ : " ++ nullable (task.finishedAt.map Timestamp.toText) ++ "\n"
    ++ "TIME SPENT : " ++ toString task.timeSpent ++ " SEC\n"
    ++ "RESULT :\n" ++ nullable task.taskResult ++ "\n"

def endStateLine (e : EndState × ℕ) : String :=
  nullable e.1.toText ++ (if e.1 = .abandoned then "\t" else "\t\t") ++ toString e.2 ++ "\n"

def text (tableName : String) (endStates : List (EndState × ℕ)) (tasks : List RequestedTask) :
    String :=
  let head := endStates.foldl (fun sb e => sb ++ endStateLine e) ("TASK SET : " ++ tableName ++ "\n\n")
  tasks.foldl (fun sb task => sb ++ taskText task) (head ++ "\n") ++ rule

def perform (o : Outside) (tableName : String) : Code Reply := do
  let doneTasks ← DBGetTasksWithStatus.perform o.server .done tableName
  let endStateOfTasks ← DBCountEndState.perform o.server tableName
  match doneTasks with
  | some tasks =>
      let path ← deref .ioException o.tempFile
      Handler.perform (.writeFile path (text tableName endStateOfTasks tasks))
      pure (.report path)
  | none => pure (.report "")

end DBGenerateTextReport

namespace DBGenerateJsonReport

/-- `"%02d:%02d:%02d".format(h, m, s)`, where `s` is the whole time. -/
def timeString (timeSpent : ℤ) : String :=
  let s := timeSpent
  let m := (s.tdiv 60).tmod 60
  let h := ((s.tdiv 60).tdiv 60).tmod 24
  pad2 h ++ ":" ++ pad2 m ++ ":" ++ pad2 s

/-- The object of one task, with the comma after it. -/
def objectText (task : RequestedTask) : String :=
  "\n    \x7b\n      \"end_state\": \"" ++ nullable task.endState.toText
    ++ "\",\n      \"method\": \"" ++ task.method ++ "("
      ++ dropRight (paramsAsString task.params) 1
    ++ ")\",\n      \"started_at\": \"" ++ nullable (task.startedAt.map Timestamp.toText)
    ++ "\",\n      \"finished_at\": \"" ++ nullable (task.finishedAt.map Timestamp.toText)
    ++ "\",\n      \"time_spent\": \"" ++ timeString task.timeSpent
    ++ "\",\n      \"result\": \"" ++ nullable task.taskResult
    ++ "\"\n    \x7d,"

def jsonString (tasks : List RequestedTask) : String :=
  dropRight (tasks.foldl (fun s task => s ++ objectText task) "\x7b\n  \"data\": [") 1 ++ "\n  ]\n\x7d"

def perform (o : Outside) (tableName : String) : Code Reply := do
  let doneTasks ← DBGetTasksWithStatus.perform o.server .done tableName
  match doneTasks with
  | some tasks =>
      let path ← deref .ioException o.tempFile
      Handler.perform (.writeFile path (jsonString tasks))
      pure (.report path)
  | none => pure (.report "")

end DBGenerateJsonReport

end Clustering.Db
