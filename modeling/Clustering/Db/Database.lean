/-
Clustering.Db.Database — the database server, as `DBActor` meets it.

A table is one that `DBCreateTasksTable` created. Its columns are the
fields of `Row`, but for the number `id`, which no query reads. The
`UNIQUE KEY` on the method is a field of `Table`, so no table without it
can be built. The trigger that writes the time stamps is part of the
table it belongs to. Texts in its columns are compared by the collation
the server had when the table was created.

`Table.execute` is the standard meaning of the statements of
`Sql.Statements` on one table. A value that is longer than its column is
refused, as the driver asks for strict mode. A statement that fails
changes nothing, and DDL statements are not rolled back.

What the server and the configuration of the connection decide, and the
repository does not say, is the argument `Server`.
-/
import Clustering.Sql.Statements
import Clustering.Worker.Messages
import Mathlib.Data.Int.Notation

namespace Clustering.Db

open Clustering.Worker (TaskStatus)
open Sql

/-! ## Enumerations -/

/-- `EndState.java`. -/
inductive EndState where
  | none
  | success
  | failure
  | abandoned
  | error
  deriving DecidableEq, Repr

/-- `TaskStatus.toString`, which is also the name of the constant. -/
def statusName : TaskStatus → String
  | .notStarted => "NOT_STARTED"
  | .running => "RUNNING"
  | .done => "DONE"

/-- `TaskStatus.valueOf`, an exception for any other text. -/
def statusValueOf (s : String) : Option TaskStatus :=
  [TaskStatus.notStarted, .running, .done].find? fun v => statusName v = s

/-- The name of the constant, by which `valueOf` finds it. -/
def EndState.name : EndState → String
  | .none => "NONE"
  | .success => "SUCCESS"
  | .failure => "FAILURE"
  | .abandoned => "ABANDONED"
  | .error => "ERROR"

/-- `EndState.toString`; of `NONE` it is null. -/
def EndState.toText : EndState → Option String
  | .none => Option.none
  | e => some e.name

/-- `EndState.valueOf`, an exception for any other text. -/
def EndState.valueOf (s : String) : Option EndState :=
  [EndState.none, .success, .failure, .abandoned, .error].find? fun v => v.name = s

theorem statusValueOf_name (v : TaskStatus) : statusValueOf (statusName v) = some v := by
  cases v <;> rfl

theorem EndState.valueOf_name (v : EndState) : EndState.valueOf v.name = some v := by
  cases v <;> rfl

theorem statusName_inj {v v' : TaskStatus} (h : statusName v = statusName v') : v = v' :=
  Option.some.inj (((statusValueOf_name v).symm.trans (h ▸ rfl)).trans (statusValueOf_name v'))

theorem EndState.name_inj {v v' : EndState} (h : v.name = v'.name) : v = v' :=
  Option.some.inj (((valueOf_name v).symm.trans (h ▸ rfl)).trans (valueOf_name v'))

/-! ## Rows and tables -/

/-- The fields of a `java.sql.Timestamp` in the local time zone. -/
structure Timestamp where
  year : ℕ
  month : ℕ
  day : ℕ
  hour : ℕ
  minute : ℕ
  second : ℕ
  deriving DecidableEq, Repr

/-- How texts are compared: those with one key are equal. It tells the
constants of an enumeration apart. -/
structure Collation where
  key : String → String
  taskStatus : ∀ {v v' : TaskStatus}, key (statusName v) = key (statusName v') → v = v'
  endState : ∀ {v v' : EndState}, key v.name = key v'.name → v = v'

@[simp] theorem Collation.key_statusName (κ : Collation) (v v' : TaskStatus) :
    κ.key (statusName v) = κ.key (statusName v') ↔ v = v' :=
  ⟨κ.taskStatus, fun h => h ▸ rfl⟩

/-- What the server and the connection's configuration decide. -/
structure Server where
  /-- The words that are identifiers without quotes: neither reserved, nor
  too long, nor a number. -/
  accepts : String → Bool
  /-- The collation of new tables. -/
  collation : Collation
  /-- Whether the date zero is read as null (`zeroDateTimeBehavior`)
  instead of raising. -/
  readsZeroDates : Bool
  /-- A time as a date of the local time zone. -/
  calendar : ℕ → Timestamp

/-- A row. Times are in seconds, and 0 is the date zero. -/
structure Row where
  method : String
  params : Option String
  taskStatus : String
  endState : Option String
  taskResult : Option String
  startedAt : ℕ
  finishedAt : ℕ
  timeSpent : Option ℤ
  deriving DecidableEq, Repr

structure Table where
  collation : Collation
  rows : List Row
  /-- `UNIQUE KEY method_UQ (method)`. -/
  unique : (rows.map fun r => collation.key r.method).Nodup
  /-- Whether the trigger `…_update_timestamps` is there. -/
  trigger : Bool

/-- The tables of the schema `clustering`, by name. -/
structure Database where
  tables : List (String × Table)
  nodup : (tables.map Prod.fst).Nodup

/-- Why the driver or the server refuses a statement. -/
inductive SqlError where
  | syntaxError
  | unknownTable
  | unknownColumn
  | duplicateEntry
  | dataTooLong
  | notNull
  | parameterIndex
  | noValue
  /-- The date zero has no `java.sql.Timestamp`. -/
  | zeroDate
  deriving DecidableEq, Repr

/-- A text the server takes for the name of a table or a trigger. -/
def Server.IsName (server : Server) (s : String) : Prop :=
  s ≠ "" ∧ (∀ c ∈ s.toList, isWordChar c = true) ∧ server.accepts s = true

instance (server : Server) : DecidablePred server.IsName :=
  fun s =>
    haveI := List.decidableBAll (fun c => isWordChar c = true) s.toList
    inferInstanceAs (Decidable (_ ∧ _))

namespace Row

/-- The row an `INSERT` starts from, with the defaults of the columns. -/
def default (method : String) : Row :=
  ⟨method, none, statusName .notStarted, none, none, 0, 0, none⟩

/-- The text in a column. -/
def get (column : String) (r : Row) : Option (Option String) :=
  match column with
  | "method" => some (some r.method)
  | "params" => some r.params
  | "task_status" => some (some r.taskStatus)
  | "end_state" => some r.endState
  | "task_result" => some r.taskResult
  | _ => none

/-- Whether a value may stand in a column. -/
def check (column : String) (v : Option String) : Except SqlError Unit :=
  let upTo (n : ℕ) : Except SqlError Unit :=
    if v.elim 0 String.length ≤ n then .ok () else .error .dataTooLong
  match column with
  | "method" => if v.isNone then .error .notNull else upTo 128
  | "params" => upTo 512
  | "task_status" => if v.isNone then .error .notNull else upTo 16
  | "end_state" => upTo 16
  | "task_result" => upTo 2048
  | _ => .error .unknownColumn

/-- The row with a value in a column. -/
def put (column : String) (v : Option String) (r : Row) : Row :=
  match column with
  | "method" => { r with method := v.getD r.method }
  | "params" => { r with params := v }
  | "task_status" => { r with taskStatus := v.getD r.taskStatus }
  | "end_state" => { r with endState := v }
  | "task_result" => { r with taskResult := v }
  | _ => r

end Row

/-- Whether each value may stand in its column. -/
def checkAll : List (String × Option String) → Except SqlError Unit
  | [] => .ok ()
  | (column, v) :: rest => (Row.check column v).bind fun _ => checkAll rest

def Row.putAll (values : List (String × Option String)) (r : Row) : Row :=
  values.foldl (fun r x => r.put x.1 x.2) r

/-! ## Statements on a table -/

/-- The rows a condition with these values selects. Null is equal to
nothing. -/
def selects (κ : Collation) (c : Condition) (values : List (Option String)) (r : Row) : Bool :=
  let column := match c with
    | .eq column => column
    | .isIn column _ => column
  match r.get column with
  | some (some x) => some (κ.key x) ∈ values.map (Option.map κ.key)
  | _ => false

/-- The body of the trigger, on the row after the assignments. -/
def stamp (κ : Collation) (now : ℕ) (r : Row) : Row :=
  if κ.key r.taskStatus = κ.key "RUNNING" then { r with startedAt := now }
  else if κ.key r.taskStatus = κ.key "DONE" then
    { r with
      finishedAt := now
      timeSpent := if r.startedAt = 0 then none else some ((now : ℤ) - r.startedAt) }
  else r

namespace Table

/-- A new table. -/
def empty (κ : Collation) (trigger : Bool) : Table := ⟨κ, [], List.nodup_nil, trigger⟩

/-- The table with these rows, if the key allows them. -/
def withRows (t : Table) (rows : List Row) : Except SqlError Table :=
  if h : (rows.map fun r => t.collation.key r.method).Nodup then
    .ok ⟨t.collation, rows, h, t.trigger⟩
  else .error .duplicateEntry

/-- A row after an `UPDATE`. -/
def updated (t : Table) (now : ℕ) (values : List (String × Option String)) (r : Row) : Row :=
  if t.trigger then stamp t.collation now (r.putAll values) else r.putAll values

/-- Values are checked when a row is written. -/
def update (t : Table) (now : ℕ) (values : List (String × Option String)) (p : Row → Bool) :
    Except SqlError Table :=
  if t.rows.any p then do
    checkAll values
    t.withRows (t.rows.map fun r => if p r then t.updated now values r else r)
  else .ok t

def delete (t : Table) (p : Row → Bool) : Table :=
  ⟨t.collation, t.rows.filter fun r => !p r,
    t.unique.sublist (List.filter_sublist.map _), t.trigger⟩

/-- The rows of an `INSERT`, cut from the values. -/
def newRows (columns : List String) : ℕ → List (Option String) → List (List (String × Option String))
  | 0, _ => []
  | n + 1, values =>
      columns.zip values :: newRows columns n (values.drop columns.length)

/-- One new row. The method has no default. -/
def newRow (values : List (String × Option String)) : Except SqlError Row := do
  checkAll values
  match values.lookup "method" with
  | some (some m) => .ok ((Row.default m).putAll values)
  | _ => .error .notNull

def insert (t : Table) (columns : List String) (n : ℕ) (values : List (Option String)) :
    Except SqlError Table := do
  let rows ← (newRows columns n values).mapM newRow
  t.withRows (t.rows ++ rows)

/-- `executeUpdate` with the values of the placeholders in order. -/
def execute (t : Table) (now : ℕ) (values : List (Option String)) :
    Statement → Except SqlError Table
  | .insertInto _ columns n => t.insert columns n values
  | .selectAll _ _ => .error .syntaxError
  | .update _ columns c =>
      t.update now (columns.zip values) (selects t.collation c (values.drop columns.length))
  | .deleteFrom _ c => .ok (t.delete (selects t.collation c values))

/-- `executeQuery`. -/
def query (t : Table) (values : List (Option String)) : Statement → Except SqlError (List Row)
  | .selectAll _ c => .ok (t.rows.filter (selects t.collation c values))
  | _ => .error .syntaxError

end Table

/-! ## The database -/

theorem Database.eq_of_tables {d d' : Database} (h : d.tables = d'.tables) : d = d' := by
  cases d
  cases d'
  cases h
  rfl

namespace Database

def find? (d : Database) (name : String) : Option Table := d.tables.lookup name

/-- Replace a table that is there. -/
def replace (d : Database) (name : String) (t : Table) : Database :=
  ⟨d.tables.map fun e => if e.1 = name then (e.1, t) else e, by
    have hmap : (d.tables.map fun e => if e.1 = name then (e.1, t) else e).map Prod.fst =
        d.tables.map Prod.fst := by
      rw [List.map_map]
      refine List.map_congr_left fun e _ => ?_
      by_cases he : e.1 = name <;> simp [he]
    rw [hmap]
    exact d.nodup⟩

/-- `CREATE TABLE IF NOT EXISTS`. -/
def create (d : Database) (κ : Collation) (name : String) : Database :=
  if h : name ∈ d.tables.map Prod.fst then d
  else ⟨d.tables ++ [(name, .empty κ false)], by
    rw [List.map_append, List.nodup_append]
    refine ⟨d.nodup, by simp, ?_⟩
    rintro x hx y hy rfl
    simp at hy
    exact h (hy ▸ hx)⟩

/-- The names of the tables, in descending order. -/
def names (d : Database) : List String := (d.tables.map Prod.fst).mergeSort fun a b => b ≤ a

theorem find?_eq_none {d : Database} {name : String} :
    d.find? name = none ↔ name ∉ d.tables.map Prod.fst := by
  rw [find?, List.lookup_eq_none_iff]
  simp only [List.mem_map, not_exists, not_and]
  refine ⟨fun h e he hn => ?_, fun h e he => ?_⟩
  · have := h e he
    simp [hn] at this
  · simpa using fun hn => h e he hn.symm

end Database

end Clustering.Db
