/-
Clustering.Db.Connections — when the connection of a message is returned.

No query touches the connections; only `connect` opens one and only the
last line of `performQuery` closes it. So handling a message returns its
connection exactly if no exception leaves the query (`receive_returned`).
`Served` says, from the message and the database before it, when that is.
For each query the condition is a property of the rows of its table
(`Answers`); `performQuery` adds that the table's name is a name and that
a missing table can be created with its trigger.

A leaked connection is never closed later, so over a run the connections
are all returned exactly if every message is served
(`connections_returned_iff`).
-/
import Clustering.Db.Batches
import Clustering.Db.Params

namespace Clustering.Db

open Actors Actors.Handler
open Clustering.Worker (TaskStatus)
open Java Sql

/-! ## Queries leave the connections alone -/

/-- What says which connections are open. -/
def Backend.connections (b : Backend) : ℕ × List ℕ := (b.next, b.openConnections)

theorem keeps_executeUpdate (now : ℕ) (p : Prepared (Option String)) :
    Keeps Backend.connections (executeUpdate now p) :=
  .bind (.deref _ _) fun _ => .bind .fields fun _ => .bind (.deref _ _) fun _ =>
    .bind (inert_sqlResult _).keeps fun _ => .assign fun _ => rfl

theorem keeps_update (o : Outside) (t sql : String) (bindings : List (ℕ × Option String)) :
    Keeps Backend.connections (update o t sql bindings) :=
  .bind (inert_prepareStatement _ _ _).keeps fun _ => .bind (inert_setStrings _ _).keeps fun _ =>
    keeps_executeUpdate _ _

theorem keeps_createTask (o : Outside) (m : String) (t : String) :
    ∀ params, Keeps Backend.connections (DBCreateTask.perform o m params t)
  | none => keeps_update _ _ _ _
  | some _ => keeps_update _ _ _ _

theorem keeps_createTasksTable (server : Server) (t : String) :
    Keeps Backend.connections (DBCreateTasksTable.perform server t) :=
  .bind (inert_syntaxErrorUnless _).keeps fun _ => .bind (.assign fun _ => rfl) fun _ =>
    .bind (inert_syntaxErrorUnless _).keeps fun _ => .bind .fields fun _ => .bind (.deref _ _) fun _ =>
      .assign fun _ => rfl

/-- The query of any message leaves the connections alone. -/
theorem keeps_query {o : Outside} {m : DBMessage} {q : DBQuery} (hq : DBActor.query o m = some q) :
    Keeps Backend.connections q.perform := by
  have hunit : ∀ {t : String} {x : Code Unit}, Keeps Backend.connections x →
      Keeps Backend.connections (DBQuery.ofUnit t x).perform := fun hx => .bind hx fun _ => .pure _
  cases hm : m.reads with
  | some target =>
    obtain ⟨q', hq', hk, -⟩ := query_reading Backend.connections o hm
    rw [hq] at hq'
    exact (Option.some.inj hq').symm ▸ hk
  | none =>
    cases m with
    | createTask m t =>
      cases hq
      exact hunit (keeps_createTask o m t none)
    | createParametrizedTask m params t =>
      cases hq
      exact hunit (keeps_createTask o m t (some params))
    | createTasks | createParametrizedTasks | updateTask | updateTasks | updateTaskStatus
    | updateTasksStatus | deleteTask | deleteTasks =>
      cases hq
      exact hunit (keeps_update _ _ _ _)
    | connectionTest | unknown => cases hq
    | getTables | generateTextReport | generateJsonReport | countTaskStatus | countEndState
    | getTask | getTasks | getTasksWithStatus => cases hm

/-! ## A connection is closed on the normal path only -/

theorem closed_opened (b : Backend) : (b.opened.closed b.next).openConnections = b.openConnections := by
  have hne : ∀ c ∈ b.openConnections, c ≠ b.next := fun c hc => Nat.ne_of_lt (b.fresh c hc)
  show (b.next :: b.openConnections).filter (· ≠ b.next) = b.openConnections
  rw [List.filter_cons_of_neg (by simp)]
  exact List.filter_eq_self.mpr fun c hc => by simpa using hne c hc

/-- Code that leaves the connections alone and is then finished. -/
theorem finish_connections {b : Backend} {x : Code Unit} {connection : ℕ}
    (hx : Keeps Backend.connections x) :
    ((x >>= fun _ => DBActor.close connection) b).fields.openConnections =
      match (x b).result with
      | .ok _ => (b.closed connection).openConnections
      | .error _ => b.openConnections := by
  have hk : (x b).fields.openConnections = b.openConnections := congrArg Prod.snd (hx b)
  rw [bind_apply]
  rcases h : x b with ⟨b', es, r⟩
  rw [h] at hk
  cases r with
  | ok u => exact congrArg (List.filter (· ≠ connection)) hk
  | error e => exact hk

/-- What `performQuery` does between opening and closing. -/
def body (o : Outside) (q : DBQuery) (b : Backend) : Code Unit :=
  if b.database.find? q.table = none ∧ q.isGetTables = false then
    DBCreateTasksTable.perform o.server q.table >>= fun _ => q.perform >>= DBActor.answer
  else q.perform >>= DBActor.answer

theorem performQuery_body {o : Outside} (hc : o.connects = true) (q : DBQuery) (b : Backend) :
    DBActor.performQuery o q b = (body o q b >>= fun _ => DBActor.close b.next) b.opened := by
  rw [performQuery_connected hc]
  unfold body
  split <;> simp only [finish, Handler.bind_assoc]

theorem keeps_body (o : Outside) {q : DBQuery} (hq : Keeps Backend.connections q.perform)
    (b : Backend) : Keeps Backend.connections (body o q b) := by
  have hquery : Keeps Backend.connections (q.perform >>= DBActor.answer) :=
    .bind hq fun msg => keeps_answer msg
  unfold body
  split
  · exact .bind (keeps_createTasksTable _ _) fun _ => hquery
  · exact hquery

/-- **The connection is returned exactly if no exception leaves the
query.** -/
theorem performQuery_connections {o : Outside} (hc : o.connects = true) {q : DBQuery}
    (hq : Keeps Backend.connections q.perform) (b : Backend) :
    (DBActor.performQuery o q b).fields.openConnections =
      if (body o q b b.opened).raised = none then b.openConnections
      else b.next :: b.openConnections := by
  rw [performQuery_body hc, finish_connections (keeps_body o hq b)]
  unfold Outcome.raised
  cases (body o q b b.opened).result with
  | ok u => exact closed_opened b
  | error e => rfl

/-! ## Exceptions -/

section

variable {σ ω ε α β : Type}

theorem raised_eq_none {x : Outcome σ ω ε α} : x.raised = none ↔ ∃ a, x.result = .ok a := by
  unfold Outcome.raised
  cases x.result <;> simp

theorem raised_bind {x : Handler σ ω ε α} {f : α → Handler σ ω ε β} {s : σ} :
    ((x >>= f) s).raised = none ↔
      ∃ a, (x s).result = .ok a ∧ (f a (x s).fields).raised = none := by
  rw [bind_apply]
  rcases x s with ⟨s', es, a | a⟩
  · simp
  · simp [Outcome.raised]

theorem raised_eq_none_iff_not {x : Outcome σ ω ε α} :
    x.raised = none ↔ ¬ ∃ e, x.result = .error e := by
  unfold Outcome.raised
  cases x.result <;> simp

/-- What follows raises nothing. -/
theorem raised_bind_total {x : Handler σ ω ε α} {f : α → Handler σ ω ε β}
    (hf : ∀ a s, (f a s).raised = none) {s : σ} :
    ((x >>= f) s).raised = none ↔ (x s).raised = none := by
  rw [raised_bind, raised_eq_none]
  simp [hf]

end

/-- On a table, the query raises nothing exactly if the table's name is a
name and the table satisfies `cond`. -/
def Answers (o : Outside) (q : DBQuery) (cond : Table → Prop) : Prop :=
  ∀ b T, b.database.find? q.table = some T →
    ((q.perform b).raised = none ↔ o.server.IsName q.table ∧ cond T)

/-- The name is one, and the table is there or can be created. -/
def Usable (o : Outside) (d : Database) (t : String) : Prop :=
  o.server.IsName t ∧
    (d.find? t ≠ none ∨ o.server.IsName (DBCreateTasksTable.triggerName t))

/-- The table of this name, or the one the server would create. -/
def tableIn (o : Outside) (d : Database) (t : String) : Table :=
  (d.find? t).getD (.empty o.server.collation true)

theorem answer_total (msg : Reply) (b : Backend) : (DBActor.answer msg b).raised = none := by
  cases msg <;> rfl

/-- Creating a missing table. -/
theorem createTasksTable_run (server : Server) {t : String} {b : Backend}
    (h : b.database.find? t = none) :
    (server.IsName t ∧ server.IsName (DBCreateTasksTable.triggerName t) ∧
      ∃ b', DBCreateTasksTable.perform server t b = ⟨b', [], .ok ()⟩ ∧
        b'.database.find? t = some (.empty server.collation true)) ∨
    (¬ (server.IsName t ∧ server.IsName (DBCreateTasksTable.triggerName t)) ∧
      ∃ e, (DBCreateTasksTable.perform server t b).result = .error e) := by
  unfold DBCreateTasksTable.perform syntaxErrorUnless
  by_cases hn : server.IsName t
  · by_cases ht : server.IsName (DBCreateTasksTable.triggerName t)
    · have hfind := Database.find?_create (κ := server.collation) h
      refine .inl ⟨hn, ht, ⟨(b.database.create server.collation t).replace t
        (.empty server.collation true), b.next, b.openConnections, b.fresh⟩, ?_,
        Database.find?_replace hfind _⟩
      simp [hn, ht, hfind, Table.empty]
    · exact .inr ⟨fun hboth => ht hboth.2, by simp [hn, ht]⟩
  · exact .inr ⟨fun hboth => hn hboth.1, by simp [hn]⟩

/-- **When nothing is raised between opening and closing.** -/
theorem body_raised {o : Outside} {q : DBQuery} {cond : Table → Prop}
    (hq : Answers o q cond) (hg : q.isGetTables = false) (b : Backend) :
    (body o q b b.opened).raised = none ↔
      Usable o b.database q.table ∧ cond (tableIn o b.database q.table) := by
  unfold body Usable tableIn
  cases hf : b.database.find? q.table with
  | some T =>
    rw [if_neg (by simp), raised_bind_total fun msg b => answer_total msg b, hq b.opened T hf]
    simp
  | none =>
    rw [if_pos ⟨rfl, hg⟩]
    rcases createTasksTable_run o.server (b := b.opened) hf with
      ⟨hn, ht, b', hrun, hfind⟩ | ⟨hno, e, he⟩
    · rw [bind_apply, hrun, Outcome.andThen_ok]
      have hraised := hq b' _ hfind
      rw [← raised_bind_total fun msg b => answer_total msg b] at hraised
      simp only [Outcome.raised] at hraised ⊢
      rw [hraised]
      simp [hn, ht]
    · rw [raised_bind, he]
      simp only [reduceCtorEq, false_and, exists_false, Option.getD_none, ne_eq, not_true,
        false_or, false_iff]
      exact fun h => hno h.1

/-! ## The condition of each query -/

section

variable {o : Outside} {t : String}

/-- A query that is one update. -/
theorem answers_update {x : Code Unit} {cond : Table → Prop}
    {exec : Table → Except SqlError Table}
    (hno : ¬ o.server.IsName t → ∀ b, ∃ e, (x b).result = .error e)
    (hrun : o.server.IsName t → ∀ b, x b = b.after t ((b.database.find? t).map exec))
    (hexec : ∀ T, (∃ T', exec T = .ok T') ↔ cond T) : Answers o (.ofUnit t x) cond := by
  intro b T hT
  show ((x >>= fun _ => (pure Reply.unit : Code Reply)) b).raised = none ↔ _
  rw [raised_bind_total fun _ _ => rfl]
  by_cases hn : o.server.IsName t
  · rw [hrun hn b, show b.database.find? t = some T from hT, Option.map_some, ← hexec T]
    cases hx : exec T with
    | ok T' => simp [Backend.after, hn]
    | error e => simp [Backend.after, hn]
  · obtain ⟨e, he⟩ := hno hn b
    simp [Outcome.raised, he, hn]

/-- A query that can have no statement. -/
theorem answers_never {x : Code Unit} (h : ∀ b, ∃ e, (x b).result = .error e)
    (cond : Table → Prop) (hcond : ∀ T, ¬ cond T) : Answers o (.ofUnit t x) cond := by
  intro b T _
  obtain ⟨e, he⟩ := h b
  show ((x >>= fun _ => (pure Reply.unit : Code Reply)) b).raised = none ↔ _
  rw [raised_bind_total fun _ _ => rfl]
  simp [Outcome.raised, he, hcond]

theorem update_no_name {sql : String} {bindings : List (ℕ × Option String)}
    (hn : ¬ o.server.IsName t) (b : Backend) :
    ∃ e, (update o t sql bindings b).result = .error e := by
  rw [update_refused fun h => hn h.1]
  exact ⟨_, rfl⟩

theorem update_no_statement {sql : String} {bindings : List (ℕ × Option String)}
    (hp : o.server.IsName t → Sql.parse sql = none) (b : Backend) :
    ∃ e, (update o t sql bindings b).result = .error e := by
  rw [update_refused fun ⟨hn, st, hst⟩ => by rw [hp hn] at hst; cases hst]
  exact ⟨_, rfl⟩

/-- The rows can be inserted: they fit, and no two methods are equal to
the server. -/
def RoomFor (xs : List (String × Option String)) (T : Table) : Prop :=
  (∀ x ∈ xs, FitsColumns x) ∧
    ((T.rows.map fun r => T.collation.key r.method) ++ xs.map fun x => T.collation.key x.1).Nodup

theorem insertRows_ok (T : Table) (xs : List (String × Option String)) :
    (∃ T', T.insertRows xs = .ok T') ↔ RoomFor xs T := by
  unfold Table.insertRows Table.withRows RoomFor
  have hmethods : (T.rows ++ xs.map Row.written).map (fun r => T.collation.key r.method) =
      (T.rows.map fun r => T.collation.key r.method) ++ xs.map fun x => T.collation.key x.1 := by
    rw [List.map_append, written_method]
  by_cases hfit : ∀ x ∈ xs, FitsColumns x
  · rw [if_pos hfit, ← hmethods]
    by_cases hu : ((T.rows ++ xs.map Row.written).map fun r => T.collation.key r.method).Nodup
    · rw [dif_pos hu]
      exact ⟨fun _ => ⟨hfit, hu⟩, fun _ => ⟨_, rfl⟩⟩
    · rw [dif_neg hu]
      exact ⟨by rintro ⟨_, ⟨⟩⟩, fun h => absurd h.2 hu⟩
  · rw [if_neg hfit]
    exact ⟨by rintro ⟨_, ⟨⟩⟩, fun h => absurd h.1 hfit⟩

theorem answers_createTask (m : String) (params : Option (StringMap String)) :
    Answers o (.ofUnit t (DBCreateTask.perform o m params t))
      (RoomFor [(m, params.map paramsAsString)]) := by
  refine answers_update (fun hn b => ?_) (fun hn b => createTask_run hn m params)
    fun T => insertRows_ok T _
  cases params with
  | none => exact update_no_name hn b
  | some params => exact update_no_name hn b

theorem answers_createTasks (methods : List String) :
    Answers o (.ofUnit t (DBCreateTasks.perform o methods t))
      fun T => methods ≠ [] ∧ RoomFor (methods.map fun m => (m, none)) T := by
  by_cases hm : methods = []
  · subst hm
    exact answers_never (update_no_statement fun hn => (parse_nothing hn).2.2.2.2.1) _
      fun _ h => h.1 rfl
  · refine answers_update (fun hn b => update_no_name hn b) (fun hn b => createTasks_run hn hm)
      fun T => ?_
    simp [insertRows_ok, hm]

theorem answers_createTasks_params (tasks : StringMap (StringMap String)) :
    Answers o (.ofUnit t (DBCreateTasks.performWithParams o tasks t))
      fun T => tasks.entries ≠ [] ∧ RoomFor (tasks.entries.map newTask) T := by
  by_cases hm : tasks.entries = []
  · refine answers_never (fun b => ?_) _ fun _ h => h.1 hm
    unfold DBCreateTasks.performWithParams
    rw [hm]
    exact update_no_statement (fun hn => (parse_nothing hn).2.2.2.2.2) b
  · refine answers_update (fun hn b => update_no_name hn b)
      (fun hn b => createTasks_params_run hn hm) fun T => ?_
    refine (insertRows_ok T (tasks.entries.map newTask)).trans ?_
    simp [hm]

/-- The values fit their columns, or there is no row to write them to. -/
def WritesTo (q : BatchQuery) (methods : List String) (T : Table) : Prop :=
  q = .deleteTasks ∨ q.fitting = true ∨ ∀ r ∈ T.rows, ¬ T.collation.Has methods r

theorem execute_ok (q : BatchQuery) (T : Table) (now : ℕ) (methods : List String) (c : Condition)
    (vs : List (Option String))
    (hc : ∀ r, selects T.collation c vs r = decide (T.collation.Has methods r)) :
    (∃ T', T.execute now (q.values.map Prod.snd ++ vs) (q.statement t c) = .ok T') ↔
      WritesTo q methods T := by
  unfold WritesTo
  by_cases hq : q = .deleteTasks
  · subst hq
    exact ⟨fun _ => .inl rfl, fun _ => ⟨_, rfl⟩⟩
  rw [BatchQuery.execute_update hq, Table.update]
  by_cases hany : T.rows.any (selects T.collation c vs)
  · have hmatch : ¬ ∀ r ∈ T.rows, ¬ T.collation.Has methods r := by
      obtain ⟨r, hr, hs⟩ := List.any_eq_true.mp hany
      rw [hc] at hs
      exact fun hno => hno r hr (by simpa using hs)
    rw [if_pos hany]
    cases hcheck : checkAll q.values with
    | error e => simp [BatchQuery.fitting, hcheck, hq, hmatch, bind, Except.bind]
    | ok u =>
      obtain ⟨hu, hw⟩ := Table.withRows_map (T := T)
        (f := fun r => if selects T.collation c vs r then T.updated now q.values r else r) fun r => by
          split
          · exact (BatchQuery.assigns hq).updated_method T now r
          · rfl
      simp only [bind, Except.bind, hw]
      simp [BatchQuery.fitting, hcheck]
  · rw [if_neg hany]
    refine ⟨fun _ => .inr (.inr fun r hr hmem => hany ?_), fun _ => ⟨_, rfl⟩⟩
    exact List.any_eq_true.mpr ⟨r, hr, by rw [hc]; simpa using hmem⟩

theorem answers_one (q : BatchQuery) (m : String) :
    Answers o (.ofUnit t (q.one o m t)) (WritesTo q [m]) := by
  refine answers_update (fun hn b => ?_) (fun hn b => q.one_run hn m b) fun T =>
    execute_ok q T o.now [m] (.eq "method") [some m] (fun r => by simp)
  cases q <;> exact update_no_name hn b

theorem answers_all (q : BatchQuery) (methods : List String) :
    Answers o (.ofUnit t (q.all o methods t))
      fun T => methods ≠ [] ∧ WritesTo q methods T := by
  by_cases hm : methods = []
  · subst hm
    refine answers_never (fun b => ?_) _ fun _ h => h.1 rfl
    rw [q.all_eq]
    exact update_no_statement (fun hn => q.parse_sql_nil hn) b
  · refine answers_update (fun hn b => ?_) (fun hn b => q.all_run hn hm b) fun T => ?_
    · rw [q.all_eq]
      exact update_no_name hn b
    · rw [execute_ok q T o.now methods _ _ fun r => by simp]
      simp [hm]

/-! ## Reading queries -/

/-- All columns of the row but for its status can be read. -/
structure Legible (server : Server) (r : Row) : Prop where
  /-- The text of the parameters falls into pairs. -/
  params : ∀ s ∈ r.params, (split isSeparator (delete ';' s)).length % 2 = 0
  endState : ∀ s ∈ r.endState, ∃ v : EndState, s = v.name
  dates : server.readsZeroDates = true ∨ (r.startedAt ≠ 0 ∧ r.finishedAt ≠ 0)

/-- All columns can be read. -/
structure LegibleWithStatus (server : Server) (r : Row) : Prop extends Legible server r where
  taskStatus : ∃ v, r.taskStatus = statusName v

theorem pairs_ne_none {α : Type} : ∀ l : List α, pairs l ≠ none ↔ l.length % 2 = 0
  | [] => by simp [pairs]
  | [_] => by simp [pairs]
  | k :: v :: rest => by
      have ih := pairs_ne_none rest
      rw [pairs, Ne, Option.map_eq_none_iff]
      refine ih.trans ?_
      simp only [List.length_cons]
      omega

theorem statusValueOf_ne_none {s : String} : statusValueOf s ≠ none ↔ ∃ v, s = statusName v := by
  constructor
  · intro h
    obtain ⟨v, hv⟩ := Option.ne_none_iff_exists'.mp h
    have := List.find?_some hv
    exact ⟨v, by simpa using (of_decide_eq_true this).symm⟩
  · rintro ⟨v, rfl⟩
    simp [statusValueOf_name]

theorem endStateValueOf_ne_none {s : String} :
    EndState.valueOf s ≠ none ↔ ∃ v : EndState, s = v.name := by
  constructor
  · intro h
    obtain ⟨v, hv⟩ := Option.ne_none_iff_exists'.mp h
    have := List.find?_some hv
    exact ⟨v, by simpa using (of_decide_eq_true this).symm⟩
  · rintro ⟨v, rfl⟩
    simp [EndState.valueOf_name]

theorem taskWith?_ne_none {server : Server} {m : String} {v : Option TaskStatus} {r : Row} :
    r.taskWith? server m v ≠ none ↔ v ≠ none ∧ Legible server r := by
  have hparams : paramsOf r.params ≠ none ↔
      ∀ s ∈ r.params, (split isSeparator (delete ';' s)).length % 2 = 0 := by
    cases r.params with
    | none => simp [paramsOf]
    | some s => simp [paramsOf, ← pairs_ne_none]
  have hend : endStateOf r.endState ≠ none ↔ ∀ s ∈ r.endState, ∃ v : EndState, s = v.name := by
    cases r.endState with
    | none => simp [endStateOf]
    | some s => simpa [endStateOf] using endStateValueOf_ne_none
  have htime : ∀ t, timestampOf server t ≠ none ↔ server.readsZeroDates = true ∨ t ≠ 0 := by
    intro t
    unfold timestampOf
    by_cases ht : t = 0 <;> cases server.readsZeroDates <;> simp [ht]
  have hall : r.taskWith? server m v ≠ none ↔ paramsOf r.params ≠ none ∧
      v ≠ none ∧ endStateOf r.endState ≠ none ∧
      timestampOf server r.startedAt ≠ none ∧ timestampOf server r.finishedAt ≠ none := by
    simp only [Row.taskWith?, Option.ne_none_iff_exists', Option.bind_eq_some_iff]
    constructor
    · rintro ⟨_, p, hp, s, hs, e, he, x, hx, y, hy, -⟩
      exact ⟨⟨p, hp⟩, ⟨s, hs⟩, ⟨e, he⟩, ⟨x, hx⟩, ⟨y, hy⟩⟩
    · rintro ⟨⟨p, hp⟩, ⟨s, hs⟩, ⟨e, he⟩, ⟨x, hx⟩, ⟨y, hy⟩⟩
      exact ⟨_, p, hp, s, hs, e, he, x, hx, y, hy, rfl⟩
  rw [hall, hparams, hend, htime, htime]
  constructor
  · rintro ⟨h1, h2, h3, h4, h5⟩
    exact ⟨h2, h1, h3, by tauto⟩
  · rintro ⟨h2, h1, h3, h4⟩
    exact ⟨h1, h2, h3, by tauto, by tauto⟩

theorem task?_ne_none {server : Server} {m : String} {r : Row} :
    r.task? server m ≠ none ↔ LegibleWithStatus server r := by
  rw [Row.task?, taskWith?_ne_none, statusValueOf_ne_none]
  constructor
  · rintro ⟨hstatus, h⟩
    exact ⟨h, hstatus⟩
  · intro h
    exact ⟨h.taskStatus, h.toLegible⟩

theorem Computes.raised {α : Type} {x : Code α} {v : Option α} (h : Computes x v) (b : Backend) :
    (x b).raised = none ↔ v ≠ none := by
  rw [raised_eq_none]
  simp only [h.result_ok]
  exact Option.ne_none_iff_exists'.symm

/-- A query that answers what it reads. -/
theorem answers_select {α : Type} {y : Code α} {f : α → Reply} {cond : Table → Prop}
    (hno : ¬ o.server.IsName t → ∀ b, ∃ e, (y b).result = .error e)
    (hrun : o.server.IsName t → ∀ b T, b.database.find? t = some T →
      ((y b).raised = none ↔ cond T)) :
    Answers o ⟨false, t, do pure (f (← y))⟩ cond := by
  intro b T hT
  show ((y >>= fun a => (pure (f a) : Code Reply)) b).raised = none ↔ _
  rw [raised_bind_total fun _ _ => rfl]
  by_cases hn : o.server.IsName t
  · rw [hrun hn b T hT]
    simp [hn]
  · obtain ⟨e, he⟩ := hno hn b
    simp [Outcome.raised, he, hn]

theorem select_no_name {α : Type} {server : Server} {sql : String}
    {bindings : List (ℕ × Option String)} (hn : ¬ server.IsName t) (f : List Row → Code α)
    (b : Backend) : ∃ e, ((select server t sql bindings >>= f) b).result = .error e := by
  rw [bind_apply, select_refused fun h => hn h.1]
  exact ⟨_, rfl⟩

theorem answers_getTask (m : String) :
    Answers o ⟨false, t, do pure (.task (← DBGetTask.perform o.server m t))⟩
      fun T => ∀ r ∈ T.rows, T.collation.Has [m] r → LegibleWithStatus o.server r := by
  refine answers_select (fun hn b => ?_) fun hn b T hT => ?_
  · rw [DBGetTask.perform, select_bind]
    exact select_no_name hn _ b
  · rw [raised_eq_none_iff_not, (getTask_result hn hT m).1]
    simp only [Collation.has_singleton]
    constructor
    · intro hno r hr hrm
      exact task?_ne_none.mp fun hbad => hno ⟨r, hr, hrm, hbad⟩
    · rintro hall ⟨r, hr, hrm, hbad⟩
      exact task?_ne_none.mpr (hall r hr hrm) hbad

/-- Selected rows that can all be read. -/
theorem tasksOf_ne_none {read : Row → Option RequestedTask} {rows : List Row} {p : Row → Prop}
    [DecidablePred p] :
    tasksOf read (rows.filter fun r => p r) ≠ none ↔ ∀ r ∈ rows, p r → read r ≠ none := by
  rw [Ne, tasksOf_eq_none]
  constructor
  · intro hno r hr hp hbad
    exact hno ⟨r, List.mem_filter.mpr ⟨hr, decide_eq_true hp⟩, hbad⟩
  · rintro hall ⟨r, hr, hbad⟩
    obtain ⟨hr, hp⟩ := List.mem_filter.mp hr
    exact hall r hr (of_decide_eq_true hp) hbad

theorem tasksOf_status_ne_none {server : Server} {T : Table} {status : TaskStatus} :
    tasksOf (fun r => r.taskWith? server r.method (some status))
        (T.rows.filter fun r => T.HasStatus status r) ≠ none ↔
      ∀ r ∈ T.rows, T.HasStatus status r → Legible server r := by
  rw [tasksOf_ne_none]
  simp only [taskWith?_ne_none, ne_eq, reduceCtorEq, not_false_eq_true, true_and]

theorem answers_getTasks (methods : List String) :
    Answers o ⟨false, t, do pure (.tasks (← DBGetTasks.perform o.server methods t))⟩
      fun T => methods ≠ [] ∧
        ∀ r ∈ T.rows, T.collation.Has methods r → LegibleWithStatus o.server r := by
  refine answers_select (fun hn b => ?_) fun hn b T hT => ?_
  · rw [DBGetTasks.perform, select_bind]
    exact select_no_name hn _ b
  · by_cases hm : methods = []
    · subst hm
      have herror : ∃ e, (DBGetTasks.perform o.server [] t b).result = .error e := by
        rw [DBGetTasks.perform, select_bind, bind_apply, select_refused]
        · exact ⟨_, rfl⟩
        · rintro ⟨-, st, hst⟩
          have hno : Sql.parse (DBGetTasks.sql t ([] : List String).length) = none :=
            (parse_nothing hn).1
          rw [hno] at hst
          cases hst
      rw [raised_eq_none_iff_not]
      simp [herror]
    · obtain ⟨x, hx, hc⟩ := getTasks_run hn hT hm
      rw [hx, hc.raised, tasksOf_ne_none]
      simp only [task?_ne_none, hm, ne_eq, not_false_eq_true, true_and]

theorem answers_getTasksWithStatus (status : TaskStatus) :
    Answers o ⟨false, t, do pure (.tasks (← DBGetTasksWithStatus.perform o.server status t))⟩
      fun T => ∀ r ∈ T.rows, T.HasStatus status r → Legible o.server r := by
  refine answers_select (fun hn b => ?_) fun hn b T hT => ?_
  · rw [DBGetTasksWithStatus.perform, select_bind]
    exact select_no_name hn _ b
  · obtain ⟨x, hx, hc⟩ := getTasksWithStatus_run hn hT status
    rw [hx, hc.raised, tasksOf_status_ne_none]

theorem tableOf_run {server : Server} {b : Backend} {T : Table} (hT : b.database.find? t = some T) :
    tableOf server t b = if server.IsName t then ⟨b, [], .ok T⟩
      else ⟨b, [], .error (.sqlException .syntaxError)⟩ := by
  by_cases hn : server.IsName t <;> simp [tableOf, syntaxErrorUnless, hn, hT]

/-- A query that counts. -/
theorem answers_count {α : Type} {y : Code α} {g : Table → α} (f : α → Reply)
    (hy : y = do pure (g (← tableOf o.server t))) :
    Answers o ⟨false, t, do pure (f (← y))⟩ fun _ => True := by
  subst hy
  refine answers_select (fun hn b => ?_) fun hn b T hT => ?_
  · rw [bind_apply]
    simp [tableOf, syntaxErrorUnless, hn]
  · rw [raised_bind_total fun _ _ => rfl, tableOf_run hT, if_pos hn]
    simp

/-- What a report needs: legible rows, and a file if there are any. -/
def Reportable (o : Outside) (T : Table) : Prop :=
  (∀ r ∈ T.rows, T.HasStatus .done r → Legible o.server r) ∧
    (o.tempFile = none → ∀ r ∈ T.rows, ¬ T.HasStatus .done r)

theorem tasksOf_eq_some_none {read : Row → Option RequestedTask} {rows : List Row}
    (h : tasksOf read rows = some none) : rows = [] := by
  unfold tasksOf at h
  split at h
  · rename_i hrows
    simpa using hrows
  · obtain ⟨_, -, hl⟩ := Option.map_eq_some_iff.mp h
    cases hl

/-- A report that goes on from the tasks that are done. -/
theorem answers_report {f : Option (List RequestedTask) → Code Reply}
    (hf : ∀ tasks b T, b.database.find? t = some T → o.server.IsName t →
      ((f tasks b).raised = none ↔ (o.tempFile = none → tasks = none))) :
    Answers o ⟨false, t, DBGetTasksWithStatus.perform o.server .done t >>= f⟩ (Reportable o) := by
  intro b T hT
  by_cases hn : o.server.IsName t
  · obtain ⟨x, hx, hc⟩ := getTasksWithStatus_run hn hT .done
    show ((DBGetTasksWithStatus.perform o.server .done t >>= f) b).raised = none ↔ _
    rw [bind_apply, hx]
    unfold Reportable
    rw [← tasksOf_status_ne_none]
    cases hv : tasksOf (fun r => r.taskWith? o.server r.method (some .done))
      (T.rows.filter fun r => T.HasStatus .done r) with
    | none =>
      obtain ⟨e, he⟩ := hc.error hv b
      rw [he]
      simp [Outcome.raised, Outcome.andThen]
    | some tasks =>
      rw [hc.ok _ hv b, Outcome.andThen_ok]
      have htasks := hf tasks b T hT hn
      have hnone : tasks = none ↔ ∀ r ∈ T.rows, ¬ T.HasStatus .done r := by
        constructor
        · rintro rfl r hr hstatus
          have hnil := tasksOf_eq_some_none hv
          exact absurd (decide_eq_true hstatus) (by simpa using List.filter_eq_nil_iff.mp hnil r hr)
        · intro hno
          have hnil : (T.rows.filter fun r => T.HasStatus .done r) = [] := by
            simpa using hno
          rw [hnil] at hv
          exact (Option.some.inj hv).symm
      rw [← hnone]
      simp only [Outcome.raised] at htasks ⊢
      rw [htasks]
      simp [hn]
  · obtain ⟨e, he⟩ : ∃ e, (DBGetTasksWithStatus.perform o.server .done t b).result = .error e := by
      rw [DBGetTasksWithStatus.perform, select_bind]
      exact select_no_name hn _ b
    show ((DBGetTasksWithStatus.perform o.server .done t >>= f) b).raised = none ↔ _
    rw [raised_bind, he]
    simp [hn]

theorem answers_jsonReport :
    Answers o ⟨false, t, DBGenerateJsonReport.perform o t⟩ (Reportable o) := by
  refine answers_report fun tasks b T hT hn => ?_
  cases tasks with
  | none => simp [Outcome.raised]
  | some tasks => cases o.tempFile <;> simp [Outcome.raised]

theorem answers_textReport :
    Answers o ⟨false, t, DBGenerateTextReport.perform o t⟩ (Reportable o) := by
  refine answers_report fun tasks b T hT hn => ?_
  obtain ⟨l, hcount⟩ : ∃ l, DBCountEndState.perform o.server t b = ⟨b, [], .ok l⟩ := by
    rw [DBCountEndState.perform_eq, bind_apply, tableOf_run hT, if_pos hn]
    exact ⟨_, rfl⟩
  rw [bind_apply, hcount, Outcome.andThen_ok]
  cases tasks with
  | none => simp [Outcome.raised]
  | some tasks => cases o.tempFile <;> simp [Outcome.raised]

end

/-! ## One message -/

/-- What the query of a message asks of its table, if no exception is to
leave it. -/
def DBMessage.Asks (o : Outside) (T : Table) : DBMessage → Prop
  | .generateTextReport _ | .generateJsonReport _ => Reportable o T
  | .createTask m _ => RoomFor [(m, none)] T
  | .createParametrizedTask m params _ => RoomFor [(m, some (paramsAsString params))] T
  | .createTasks methods _ => methods ≠ [] ∧ RoomFor (methods.map fun m => (m, none)) T
  | .createParametrizedTasks tasks _ =>
      tasks.entries ≠ [] ∧ RoomFor (tasks.entries.map newTask) T
  | .getTask m _ => ∀ r ∈ T.rows, T.collation.Has [m] r → LegibleWithStatus o.server r
  | .getTasks methods _ =>
      methods ≠ [] ∧ ∀ r ∈ T.rows, T.collation.Has methods r → LegibleWithStatus o.server r
  | .getTasksWithStatus status _ => ∀ r ∈ T.rows, T.HasStatus status r → Legible o.server r
  | .updateTask m s e x _ => WritesTo (.updateTasks s e x) [m] T
  | .updateTasks methods s e x _ => methods ≠ [] ∧ WritesTo (.updateTasks s e x) methods T
  | .updateTaskStatus m s _ => WritesTo (.updateTasksStatus s) [m] T
  | .updateTasksStatus methods s _ => methods ≠ [] ∧ WritesTo (.updateTasksStatus s) methods T
  | .deleteTasks methods _ => methods ≠ []
  | .deleteTask .. | .countTaskStatus _ | .countEndState _ => True
  | .connectionTest | .getTables | .unknown => True

/-- The table a message names. -/
def DBMessage.tableName? : DBMessage → Option String
  | .generateTextReport t | .generateJsonReport t | .countTaskStatus t | .countEndState t
  | .createTask _ t | .createParametrizedTask _ _ t | .createTasks _ t
  | .createParametrizedTasks _ t | .getTask _ t | .getTasks _ t | .getTasksWithStatus _ t
  | .updateTask _ _ _ _ t | .updateTasks _ _ _ _ t | .updateTaskStatus _ _ t
  | .updateTasksStatus _ _ t | .deleteTask _ t | .deleteTasks _ t => some t
  | .connectionTest | .getTables | .unknown => none

/-- The message can be handled on this database without an exception. -/
def Served (o : Outside) (d : Database) (m : DBMessage) : Prop :=
  ∀ t, m.tableName? = some t → Usable o d t ∧ m.Asks o (tableIn o d t)

theorem writesTo_deleteTasks (methods : List String) (T : Table) :
    WritesTo .deleteTasks methods T := .inl rfl

/-- The query of every message that names a table, and its condition. -/
theorem query_answers {o : Outside} {m : DBMessage} {t : String} (h : m.tableName? = some t) :
    ∃ q, DBActor.query o m = some q ∧ q.table = t ∧ q.isGetTables = false ∧
      Answers o q fun T => m.Asks o T := by
  cases m with
  | connectionTest | getTables | unknown => cases h
  | generateTextReport => cases h; exact ⟨_, rfl, rfl, rfl, answers_textReport⟩
  | generateJsonReport => cases h; exact ⟨_, rfl, rfl, rfl, answers_jsonReport⟩
  | countTaskStatus =>
    cases h
    exact ⟨_, rfl, rfl, rfl, answers_count _ (DBCountTaskStatus.perform_eq _ _)⟩
  | countEndState =>
    cases h
    exact ⟨_, rfl, rfl, rfl, answers_count _ (DBCountEndState.perform_eq _ _)⟩
  | createTask m => cases h; exact ⟨_, rfl, rfl, rfl, answers_createTask m none⟩
  | createParametrizedTask m params =>
    cases h
    exact ⟨_, rfl, rfl, rfl, answers_createTask m (some params)⟩
  | createTasks methods => cases h; exact ⟨_, rfl, rfl, rfl, answers_createTasks methods⟩
  | createParametrizedTasks tasks =>
    cases h
    exact ⟨_, rfl, rfl, rfl, answers_createTasks_params tasks⟩
  | getTask m => cases h; exact ⟨_, rfl, rfl, rfl, answers_getTask m⟩
  | getTasks methods => cases h; exact ⟨_, rfl, rfl, rfl, answers_getTasks methods⟩
  | getTasksWithStatus status =>
    cases h
    exact ⟨_, rfl, rfl, rfl, answers_getTasksWithStatus status⟩
  | updateTask m s e x =>
    cases h
    exact ⟨_, rfl, rfl, rfl, answers_one (.updateTasks s e x) m⟩
  | updateTasks methods s e x =>
    cases h
    exact ⟨_, rfl, rfl, rfl, answers_all (.updateTasks s e x) methods⟩
  | updateTaskStatus m s =>
    cases h
    exact ⟨_, rfl, rfl, rfl, answers_one (.updateTasksStatus s) m⟩
  | updateTasksStatus methods s =>
    cases h
    exact ⟨_, rfl, rfl, rfl, answers_all (.updateTasksStatus s) methods⟩
  | deleteTask m =>
    cases h
    refine ⟨_, rfl, rfl, rfl, fun b T hT => ?_⟩
    refine (answers_one .deleteTasks m b T hT).trans (and_congr_right fun _ => ?_)
    exact ⟨fun _ => trivial, fun _ => writesTo_deleteTasks _ _⟩
  | deleteTasks methods =>
    cases h
    refine ⟨_, rfl, rfl, rfl, fun b T hT => ?_⟩
    refine (answers_all .deleteTasks methods b T hT).trans (and_congr_right fun _ => ?_)
    exact ⟨And.left, fun hm => ⟨hm, writesTo_deleteTasks _ _⟩⟩

/-- The messages without a query close what they open, and `DBGetTables`
raises nothing. -/
theorem receive_without_table {o : Outside} {m : DBMessage} (h : m.tableName? = none)
    (b : Backend) : (DBActor.receive o m b).fields.openConnections = b.openConnections := by
  cases m with
  | connectionTest =>
    by_cases hc : o.connects = true
    · have hrun : (DBActor.receive o .connectionTest b).fields = b.opened.closed b.next := by
        simp [DBActor.receive, DBActor.connect, hc, DBActor.close, Backend.opened]
      rw [hrun, closed_opened]
    · simp [DBActor.receive, DBActor.connect, hc]
  | unknown => rfl
  | getTables =>
    rw [receive_of_query (q := ⟨true, "", DBGetTables.perform⟩) rfl (by simp)]
    by_cases hc : o.connects = true
    · rw [performQuery_connections hc (keeps_query (o := o) (m := .getTables) rfl), if_pos]
      unfold body
      rw [if_neg (by simp), raised_bind_total fun msg b => answer_total msg b]
      rfl
    · rw [performQuery_unconnected (by simpa using hc)]
  | generateTextReport | generateJsonReport | countTaskStatus | countEndState | createTask
  | createParametrizedTask | createTasks | createParametrizedTasks | getTask | getTasks
  | getTasksWithStatus | updateTask | updateTasks | updateTaskStatus | updateTasksStatus
  | deleteTask | deleteTasks => cases h

open Classical in
/-- **The connections after one message.** A message that is not served
leaves its connection open. -/
theorem receive_connections (o : Outside) (m : DBMessage) (b : Backend) :
    (DBActor.receive o m b).fields.openConnections =
      if o.connects = true → Served o b.database m then b.openConnections
      else b.next :: b.openConnections := by
  cases ht : m.tableName? with
  | none =>
    rw [receive_without_table ht, if_pos]
    intro _ t h
    rw [ht] at h
    cases h
  | some t =>
    obtain ⟨q, hq, rfl, hg, hanswers⟩ := query_answers (o := o) ht
    have hne : m ≠ .connectionTest := by
      rintro rfl
      cases ht
    have hserved : Served o b.database m ↔
        Usable o b.database q.table ∧ m.Asks o (tableIn o b.database q.table) :=
      ⟨fun h => h _ ht, fun h t' ht' => (Option.some.inj (ht.symm.trans ht')) ▸ h⟩
    rw [receive_of_query hq hne]
    by_cases hc : o.connects = true
    · rw [performQuery_connections hc (keeps_query hq)]
      simp only [body_raised hanswers hg, ← hserved, hc, forall_const]
    · rw [performQuery_unconnected (by simpa using hc), if_pos fun h => absurd h hc]

/-- All that a message opens is closed afterwards. -/
def Returned (b b' : Backend) : Prop := ∀ c ∈ b'.openConnections, c ∈ b.openConnections

/-- **A message returns its connection exactly if it is served.** -/
theorem receive_returned {o : Outside} {m : DBMessage} {b : Backend} :
    Returned b (DBActor.receive o m b).fields ↔ (o.connects = true → Served o b.database m) := by
  classical
  unfold Returned
  rw [receive_connections]
  split
  · rename_i h
    exact ⟨fun _ => h, fun _ c hc => hc⟩
  · rename_i h
    have hnew : b.next ∉ b.openConnections := fun hmem => Nat.lt_irrefl _ (b.fresh _ hmem)
    exact ⟨fun hall => absurd (hall _ List.mem_cons_self) hnew, fun hs => absurd hs h⟩

/-! ## Runs -/

/-- The backend after some messages, each with what the outside does while
it is handled. An exception restarts the actor, which has no fields. -/
def handled : List (Outside × DBMessage) → Backend → Backend
  | [], b => b
  | (o, m) :: rest, b => handled rest (DBActor.receive o m b).fields

theorem handled_append (steps rest : List (Outside × DBMessage)) (b : Backend) :
    handled (steps ++ rest) b = handled rest (handled steps b) := by
  induction steps generalizing b with
  | nil => rfl
  | cons step steps ih => exact ih _

/-- **What was open stays open.** A leaked connection is never returned by
a later message. -/
theorem handled_suffix (steps : List (Outside × DBMessage)) (b : Backend) :
    b.openConnections <:+ (handled steps b).openConnections := by
  induction steps generalizing b with
  | nil => exact List.suffix_rfl
  | cons step steps ih =>
    refine List.IsSuffix.trans ?_ (ih _)
    classical
    rw [receive_connections]
    split
    · exact List.suffix_rfl
    · exact List.suffix_cons _ _

end Clustering.Db
