/-
Clustering.Db.Reading — what handling a message leaves unchanged.

Code that runs no `executeUpdate` leaves the whole backend unchanged:
`keeps_…` says so for any part `f` of it, in the order of the queries.
Queries that write leave the connections unchanged. What a reading
message can still do is what `performQuery` does before the query: create
the table the message names.

`receive_reading` is the exact effect on the database.
-/
import Clustering.Db.DBActor

namespace Clustering.Db

open Actors Actors.Handler
open Clustering.Worker (TaskStatus)
open Java Sql

/-! ## Queries that read -/

theorem inert_sqlResult {α : Type} : ∀ x : Except SqlError α, Inert (sqlResult x)
  | .ok a => .pure a
  | .error _ => .raise _

theorem inert_syntaxErrorUnless (p : Prop) [Decidable p] : Inert (syntaxErrorUnless p) :=
  .ite (.pure _) (.raise _)

theorem inert_prepareStatement (server : Server) (tableName sql : String) :
    Inert (prepareStatement server tableName sql) :=
  .bind (inert_syntaxErrorUnless _) fun _ => .bind (.deref _ _) fun _ => .pure _

theorem inert_setStrings (p : Prepared (Option String)) (bindings : List (ℕ × Option String)) :
    Inert (setStrings p bindings) := .deref _ _

theorem inert_executeQuery (p : Prepared (Option String)) : Inert (executeQuery p) :=
  .bind (.deref _ _) fun _ => .bind .fields fun _ => .bind (.deref _ _) fun _ => inert_sqlResult _

theorem inert_tableOf (server : Server) (tableName : String) : Inert (tableOf server tableName) :=
  .bind (inert_syntaxErrorUnless _) fun _ => .bind .fields fun _ => .deref _ _

theorem inert_readParams : ∀ column, Inert (readParams column)
  | none => .pure _
  | some _ => .bind (.deref _ _) fun _ => .pure _

theorem inert_readEndState : ∀ column, Inert (readEndState column)
  | none => .pure _
  | some _ => .deref _ _

theorem inert_getTimestamp (server : Server) (t : ℕ) : Inert (getTimestamp server t) :=
  .ite (.ite (.pure _) (.raise _)) (.pure _)

theorem inert_readTask (server : Server) (method : String) {status : Code TaskStatus}
    (hs : Inert status) (r : Row) : Inert (readTask server method status r) :=
  .bind (inert_readParams _) fun _ => .bind hs fun _ => .bind (inert_readEndState _) fun _ =>
    .bind (inert_getTimestamp _ _) fun _ => .bind (inert_getTimestamp _ _) fun _ => .pure _

theorem inert_readList {read : Row → Code RequestedTask} (h : ∀ r, Inert (read r)) :
    ∀ rows taskList, Inert (readList read rows taskList)
  | [], _ => .pure _
  | r :: rest, _ => .bind (h r) fun _ => inert_readList h rest _

theorem inert_readLast (server : Server) (method : String) :
    ∀ rows task, Inert (DBGetTask.readLast server method rows task)
  | [], _ => .pure _
  | r :: rest, _ => .bind (inert_readTask _ _ (.deref _ _) r) fun _ =>
      inert_readLast server method rest _

theorem inert_getTask (server : Server) (method tableName : String) :
    Inert (DBGetTask.perform server method tableName) :=
  .bind (inert_prepareStatement _ _ _) fun _ => .bind (inert_setStrings _ _) fun _ =>
    .bind (inert_executeQuery _) fun _ => inert_readLast _ _ _ _

theorem inert_getTasks (server : Server) (methods : List String) (tableName : String) :
    Inert (DBGetTasks.perform server methods tableName) :=
  .bind (inert_prepareStatement _ _ _) fun _ => .bind (inert_setStrings _ _) fun _ =>
    .bind (inert_executeQuery _) fun _ => .ite (.pure _) <|
      .bind (inert_readList (fun r => inert_readTask _ _ (.deref _ _) r) _ _) fun _ => .pure _

theorem inert_getTasksWithStatus (server : Server) (taskStatus : TaskStatus) (tableName : String) :
    Inert (DBGetTasksWithStatus.perform server taskStatus tableName) :=
  .bind (inert_prepareStatement _ _ _) fun _ => .bind (inert_setStrings _ _) fun _ =>
    .bind (inert_executeQuery _) fun _ => .ite (.pure _) <|
      .bind (inert_readList (fun r => inert_readTask _ _ (.pure _) r) _ _) fun _ => .pure _

theorem inert_readCounts {C K : Type} [DecidableEq K] {read : C → Code K}
    (h : ∀ column, Inert (read column)) : ∀ rows result, Inert (readCounts read rows result)
  | [], _ => .pure _
  | (column, _) :: rest, _ => .bind (h column) fun _ => inert_readCounts h rest _

theorem inert_countTaskStatus (server : Server) (tableName : String) :
    Inert (DBCountTaskStatus.perform server tableName) :=
  .bind (inert_tableOf _ _) fun _ => inert_readCounts (fun _ => .deref _ _) _ _

theorem inert_countEndState (server : Server) (tableName : String) :
    Inert (DBCountEndState.perform server tableName) :=
  .bind (inert_tableOf _ _) fun _ => inert_readCounts inert_readEndState _ _

section

variable {γ : Type} {f : Backend → γ}

theorem keeps_textReport (o : Outside) (tableName : String) :
    Keeps f (DBGenerateTextReport.perform o tableName) := by
  refine .bind (inert_getTasksWithStatus _ _ _).keeps fun doneTasks => ?_
  refine .bind (inert_countEndState _ _).keeps fun _ => ?_
  cases doneTasks with
  | none => exact .pure _
  | some tasks => exact .bind (.deref _ _) fun _ => .bind (.perform _) fun _ => .pure _

theorem keeps_jsonReport (o : Outside) (tableName : String) :
    Keeps f (DBGenerateJsonReport.perform o tableName) := by
  refine .bind (inert_getTasksWithStatus _ _ _).keeps fun doneTasks => ?_
  cases doneTasks with
  | none => exact .pure _
  | some tasks => exact .bind (.deref _ _) fun _ => .bind (.perform _) fun _ => .pure _

theorem keeps_answer (msg : Reply) : Keeps f (DBActor.answer msg) := by
  cases msg with
  | unit => exact .pure _
  | tables | report | countedTaskStatus | countedEndState | task | tasks => exact .perform _

end

/-! ## Reading messages -/

/-- The reading messages, with the table they name. -/
def DBMessage.reads : DBMessage → Option (Option String)
  | .getTables => some none
  | .generateTextReport t | .generateJsonReport t | .countTaskStatus t | .countEndState t
  | .getTask _ t | .getTasks _ t | .getTasksWithStatus _ t => some (some t)
  | _ => none

/-- The query of a reading message only reads, and its `table` is the one
the message names. -/
theorem query_reading {γ : Type} (f : Backend → γ) (o : Outside) {m : DBMessage}
    {target : Option String} (hm : m.reads = some target) :
    ∃ q, DBActor.query o m = some q ∧ Keeps f q.perform ∧
      q.isGetTables = target.isNone ∧ q.table = target.getD "" := by
  cases m with
  | getTables =>
    cases hm
    exact ⟨_, rfl, .bind .fields fun _ => .pure _, rfl, rfl⟩
  | generateTextReport t =>
    cases hm
    exact ⟨_, rfl, keeps_textReport _ _, rfl, rfl⟩
  | generateJsonReport t =>
    cases hm
    exact ⟨_, rfl, keeps_jsonReport _ _, rfl, rfl⟩
  | countTaskStatus t =>
    cases hm
    exact ⟨_, rfl, .bind (inert_countTaskStatus _ _).keeps fun _ => .pure _, rfl, rfl⟩
  | countEndState t =>
    cases hm
    exact ⟨_, rfl, .bind (inert_countEndState _ _).keeps fun _ => .pure _, rfl, rfl⟩
  | getTask method t =>
    cases hm
    exact ⟨_, rfl, .bind (inert_getTask _ _ _).keeps fun _ => .pure _, rfl, rfl⟩
  | getTasks methods t =>
    cases hm
    exact ⟨_, rfl, .bind (inert_getTasks _ _ _).keeps fun _ => .pure _, rfl, rfl⟩
  | getTasksWithStatus taskStatus t =>
    cases hm
    exact ⟨_, rfl, .bind (inert_getTasksWithStatus _ _ _).keeps fun _ => .pure _, rfl, rfl⟩
  | connectionTest | createTask | createParametrizedTask | createTasks
  | createParametrizedTasks | updateTask | updateTasks | updateTaskStatus | updateTasksStatus
  | deleteTask | deleteTasks | unknown => cases hm

theorem receive_of_query {o : Outside} {m : DBMessage} {q : DBQuery}
    (hq : DBActor.query o m = some q) (hm : m ≠ .connectionTest) :
    DBActor.receive o m = DBActor.performQuery o q := by
  unfold DBActor.receive
  split
  · exact absurd rfl hm
  · rw [hq]

/-! ## Creating a table -/

theorem Database.find?_create {d : Database} {κ : Collation} {name : String}
    (h : d.find? name = none) : (d.create κ name).find? name = some (.empty κ false) := by
  have hn := Database.find?_eq_none.mp h
  unfold Database.find? at h ⊢
  unfold Database.create
  rw [dif_neg hn]
  simp [List.lookup_append, h]

theorem Database.tables_create {d : Database} {κ : Collation} {name : String}
    (h : d.find? name = none) : (d.create κ name).tables = d.tables ++ [(name, .empty κ false)] := by
  unfold Database.create
  rw [dif_neg (Database.find?_eq_none.mp h)]

theorem Database.tables_replace_create {d : Database} {κ : Collation} {name : String} {t : Table}
    (h : d.find? name = none) :
    ((d.create κ name).replace name t).tables = d.tables ++ [(name, t)] := by
  show (d.create κ name).tables.map (fun e => if e.1 = name then (e.1, t) else e) = _
  rw [tables_create h, List.map_append]
  congr 1
  · refine (List.map_congr_left fun e he => ?_).trans (List.map_id _)
    have hne : e.1 ≠ name := by
      rintro rfl
      exact Database.find?_eq_none.mp h (List.mem_map_of_mem he)
    simp [hne]
  · simp

/-- The tables after the two DDL statements. The second fails alone if
the name is too long for the trigger's. -/
theorem createTasksTable_tables (server : Server) {name : String} {b : Backend}
    (h : b.database.find? name = none) :
    (DBCreateTasksTable.perform server name b).fields.database.tables =
      if server.IsName name then b.database.tables ++
        [(name, .empty server.collation (server.IsName (DBCreateTasksTable.triggerName name)))]
      else b.database.tables := by
  unfold DBCreateTasksTable.perform syntaxErrorUnless
  by_cases hn : server.IsName name
  · by_cases ht : server.IsName (DBCreateTasksTable.triggerName name)
    · simp [hn, ht, Database.find?_create h, Database.tables_replace_create h, Table.empty]
    · simp [hn, ht, Database.tables_create h]
  · simp [hn]

/-! ## `performQuery` -/

/-- The query itself, its answer, and the end of the connection. -/
def finish (q : DBQuery) (connection : ℕ) : Code Unit := do
  DBActor.answer (← q.perform)
  DBActor.close connection

theorem checkTableExistence_apply (name : String) (b : Backend) :
    DBActor.checkTableExistence name b = ⟨b, [], .ok (b.database.find? name).isSome⟩ := by
  have hany : (b.database.tables.any fun e => e.1 = name) = (b.database.find? name).isSome := by
    rw [Bool.eq_iff_iff, Option.isSome_iff_ne_none, Ne, Database.find?_eq_none]
    simp
  simp [DBActor.checkTableExistence, hany]

theorem performQuery_unconnected {o : Outside} (hc : o.connects = false) (q : DBQuery)
    (b : Backend) : DBActor.performQuery o q b = ⟨b, [], .ok ()⟩ := by
  simp [DBActor.performQuery, DBActor.connect, hc]

theorem performQuery_connected {o : Outside} (hc : o.connects = true) (q : DBQuery) (b : Backend) :
    DBActor.performQuery o q b =
      if b.database.find? q.table = none ∧ q.isGetTables = false then
        (DBCreateTasksTable.perform o.server q.table >>= fun _ => finish q b.next) b.opened
      else finish q b.next b.opened := by
  cases hf : b.database.find? q.table <;> cases hg : q.isGetTables <;>
    simp [DBActor.performQuery, DBActor.connect, hc, checkTableExistence_apply, hf, hg, finish,
      Backend.opened]

/-- The tables after a query that only reads. -/
theorem performQuery_reading (o : Outside) {q : DBQuery} (b : Backend)
    (hq : Keeps (fun b => b.database.tables) q.perform) :
    (DBActor.performQuery o q b).fields.database.tables =
      if o.connects = true ∧ b.database.find? q.table = none ∧ q.isGetTables = false ∧
          o.server.IsName q.table then
        b.database.tables ++ [(q.table,
          .empty o.server.collation (o.server.IsName (DBCreateTasksTable.triggerName q.table)))]
      else b.database.tables := by
  have hrest : Keeps (fun b => b.database.tables) (finish q b.next) :=
    .bind hq fun msg => .bind (keeps_answer msg) fun _ => .assign fun _ => rfl
  by_cases hc : o.connects = true
  · rw [performQuery_connected hc]
    by_cases hnew : b.database.find? q.table = none ∧ q.isGetTables = false
    · rw [if_pos hnew]
      have hcreate := createTasksTable_tables o.server (b := b.opened) hnew.1
      refine (Keeps.after (fun _ => hrest) b.opened).trans (hcreate.trans ?_)
      simp [hc, hnew, Backend.opened]
    · rw [if_neg hnew, if_neg fun h => hnew ⟨h.2.1, h.2.2.1⟩]
      exact hrest b.opened
  · rw [performQuery_unconnected (by simpa using hc), if_neg fun h => hc h.1]

/-- The table a reading message makes `performQuery` create: it is
missing, and the server takes its name. -/
def Creates (o : Outside) (d : Database) (target : Option String) (name : String) : Prop :=
  o.connects = true ∧ target = some name ∧ d.find? name = none ∧ o.server.IsName name

/-- Texts are equal if they are the same. -/
def binary : Collation := ⟨id, statusName_inj, EndState.name_inj⟩

/-- A server that takes every word for a name, at a fixed time. -/
def someOutside : Outside where
  server := ⟨fun _ => true, binary, true, fun _ => ⟨2018, 1, 1, 12, 0, 0⟩⟩
  connects := true
  now := 60
  tempFile := some "report.json"

/-- No tables, no connections. -/
def Backend.initial : Backend := ⟨⟨[], List.nodup_nil⟩, 0, [], by simp⟩

/-- A table with one task. -/
def Backend.oneTask : Backend :=
  ⟨⟨[("tasks", ⟨binary, [Row.default "Suite.test"], by simp, true⟩)], by simp⟩, 0, [], by simp⟩

end Clustering.Db
