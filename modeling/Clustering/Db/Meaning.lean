/-
Clustering.Db.Meaning — what each query does to its table.

Every query prepares one statement, binds its placeholders and executes
it. `Code.update` and `Code.select` are these three steps; the queries are
instances of them by `rfl`. Bound in order, the values reach the
statement as one list (`Prepared.setAll_inOrder`), and what is left is the
meaning of the statement on the table: `update_run`, `select_run`.
-/
import Clustering.Db.Texts

namespace Clustering.Db

open Actors Actors.Handler
open Clustering.Worker (TaskStatus)
open Java Sql

/-! ## Three steps -/

/-- Prepare, bind, `executeUpdate`. -/
def update (o : Outside) (tableName sql : String) (bindings : List (ℕ × Option String)) :
    Code Unit := do
  let p ← prepareStatement o.server tableName sql
  executeUpdate o.now (← setStrings p bindings)

/-- Prepare, bind, `executeQuery`. -/
def select (server : Server) (tableName sql : String) (bindings : List (ℕ × Option String)) :
    Code (List Row) := do
  let p ← prepareStatement server tableName sql
  executeQuery (← setStrings p bindings)

/-- What an update leaves, from what the statement makes of the table. -/
def Backend.after (b : Backend) (tableName : String) :
    Option (Except SqlError Table) → Outcome Backend DbEffect DbThrowable Unit
  | none => ⟨b, [], .error (.sqlException .unknownTable)⟩
  | some (.error e) => ⟨b, [], .error (.sqlException e)⟩
  | some (.ok t) => ⟨{ b with database := b.database.replace tableName t }, [], .ok ()⟩

section

variable {o : Outside} {server : Server} {t sql : String} {st : Statement}
  {vs : List (Option String)} {bindings : List (ℕ × Option String)} {b : Backend}

theorem prepareStatement_apply (h : server.IsName t) (hp : Sql.parse sql = some st) :
    prepareStatement server t sql b = ⟨b, [], .ok ⟨st, []⟩⟩ := by
  simp [prepareStatement, syntaxErrorUnless, h, hp]

theorem prepareStatement_refused (h : ¬ (server.IsName t ∧ ∃ st, Sql.parse sql = some st)) :
    prepareStatement server t sql b = ⟨b, [], .error (.sqlException .syntaxError)⟩ := by
  by_cases hn : server.IsName t
  · cases hp : Sql.parse sql with
    | none => simp [prepareStatement, syntaxErrorUnless, hn, hp]
    | some st => exact absurd ⟨hn, st, hp⟩ h
  · simp [prepareStatement, syntaxErrorUnless, hn]

theorem update_refused (h : ¬ (o.server.IsName t ∧ ∃ st, Sql.parse sql = some st)) :
    update o t sql bindings b = ⟨b, [], .error (.sqlException .syntaxError)⟩ := by
  rw [update, bind_apply, prepareStatement_refused h]
  rfl

theorem select_refused (h : ¬ (server.IsName t ∧ ∃ st, Sql.parse sql = some st)) :
    select server t sql bindings b = ⟨b, [], .error (.sqlException .syntaxError)⟩ := by
  rw [select, bind_apply, prepareStatement_refused h]
  rfl

/-- **An update does to the table what its statement means.** -/
theorem update_run (vs : List (Option String)) (h : o.server.IsName t) (hp : Sql.parse sql = some st) (ht : st.table = t)
    (hv : vs.length = st.placeholders) (hb : bindings = Prepared.inOrder vs) :
    update o t sql bindings b =
      b.after t ((b.database.find? t).map fun T => T.execute o.now vs st) := by
  obtain ⟨p, hset, hpst, hvals⟩ := Prepared.setAll_inOrder st vs hv
  rw [update, bind_apply, prepareStatement_apply h hp, Outcome.andThen_ok, bind_apply, setStrings,
    hb, hset, deref_some, Outcome.andThen_ok, executeUpdate, bind_apply, hvals, deref_some,
    Outcome.andThen_ok, bind_apply, fields_apply, Outcome.andThen_ok, hpst, ht]
  cases hfind : b.database.find? t with
  | none => rfl
  | some T =>
    cases hx : T.execute o.now vs st with
    | error e => simp [hx, sqlResult, Backend.after]
    | ok T' => simp [hx, sqlResult, Backend.after]

/-- A query finds the rows its condition selects. -/
theorem select_run {c : Condition} (vs : List (Option String)) (h : server.IsName t)
    (hp : Sql.parse sql = some (.selectAll t c)) (hv : vs.length = c.placeholders)
    (hb : bindings = Prepared.inOrder vs) :
    select server t sql bindings b = ⟨b, [],
      match b.database.find? t with
      | none => .error (.sqlException .unknownTable)
      | some T => .ok (T.rows.filter (selects T.collation c vs))⟩ := by
  obtain ⟨p, hset, hpst, hvals⟩ := Prepared.setAll_inOrder (.selectAll t c) vs hv
  rw [select, bind_apply, prepareStatement_apply h hp, Outcome.andThen_ok, bind_apply, setStrings,
    hb, hset, deref_some, Outcome.andThen_ok, executeQuery, bind_apply, hvals, deref_some,
    Outcome.andThen_ok, bind_apply, fields_apply, Outcome.andThen_ok, hpst]
  cases hfind : b.database.find? t with
  | none => simp [Statement.table, hfind]
  | some T => simp [Statement.table, hfind, sqlResult, Table.query]

end

/-! ## Bindings -/

theorem zipIdx_map_swap {α β : Type} (f : α → β) (xs : List α) (k : ℕ) :
    (xs.zipIdx.map fun x => (k + (x.2 + 1), f x.1)) =
      ((xs.map f).zipIdx (k + 1)).map Prod.swap := by
  rw [List.zipIdx_map, List.map_map, List.zipIdx_eq_map_add (i := k + 1), List.map_map]
  refine List.map_congr_left fun x _ => ?_
  simp [Nat.add_comm, Nat.add_left_comm]

theorem bindings_methods (methods : List String) :
    (methods.zipIdx.map fun x => (x.2 + 1, some x.1)) = Prepared.inOrder (methods.map some) := by
  have h := zipIdx_map_swap some methods 0
  simpa [Prepared.inOrder] using h

/-- The methods come after the values to assign. -/
theorem bindings_after (vs : List (Option String)) (methods : List String) :
    (Prepared.inOrder vs ++ methods.zipIdx.map fun x => (vs.length + (x.2 + 1), some x.1)) =
      Prepared.inOrder (vs ++ methods.map some) := by
  rw [Prepared.inOrder_append, zipIdx_map_swap]

/-- The loop with two indices binds in order. -/
theorem bindings_tasks (tasks : List (String × StringMap String)) :
    DBCreateTasks.bindings tasks =
      Prepared.inOrder (tasks.flatMap fun x => [some x.1, some (paramsAsString x.2)]) := by
  have hgen : ∀ (tasks : List (String × StringMap String)) (k : ℕ),
      ((tasks.zipIdx k).flatMap fun x =>
        [(1 + 2 * x.2, some x.1.1), (2 + 2 * x.2, some (paramsAsString x.1.2))]) =
      ((tasks.flatMap fun x => [some x.1, some (paramsAsString x.2)]).zipIdx (1 + 2 * k)).map
        Prod.swap := by
    intro tasks
    induction tasks with
    | nil => simp
    | cons x tasks ih =>
      intro k
      have h2 : 1 + 2 * (k + 1) = 1 + 2 * k + 1 + 1 := by omega
      have h3 : 2 + 2 * k = 1 + 2 * k + 1 := by omega
      simp [List.zipIdx_cons, ih, h2, h3]
  exact hgen tasks 0

/-! ## Conditions -/

/-- The row has one of these methods, for the server. -/
def Collation.Has (κ : Collation) (methods : List String) (r : Row) : Prop :=
  κ.key r.method ∈ methods.map κ.key

instance (κ : Collation) (methods : List String) : DecidablePred (κ.Has methods) :=
  fun _ => inferInstanceAs (Decidable (_ ∈ _))

@[simp] theorem Collation.has_singleton (κ : Collation) (m : String) (r : Row) :
    κ.Has [m] r ↔ κ.key r.method = κ.key m := by
  simp [Collation.Has]

theorem Collation.has_cons (κ : Collation) (m : String) (methods : List String) (r : Row) :
    κ.Has (m :: methods) r ↔ κ.key r.method = κ.key m ∨ κ.Has methods r := by
  simp [Collation.Has]

theorem Collation.has_iff (κ : Collation) (methods : List String) (r : Row) :
    κ.Has methods r ↔ ∃ m ∈ methods, κ.key r.method = κ.key m := by
  simp [Collation.Has, eq_comm]

@[simp] theorem selects_method (κ : Collation) (m : String) :
    selects κ (.eq "method") [some m] = fun r => decide (κ.Has [m] r) := by
  funext r
  simp [selects, Row.get]

@[simp] theorem selects_methods (κ : Collation) (n : ℕ) (methods : List String) :
    selects κ (.isIn "method" n) (methods.map some) = fun r => decide (κ.Has methods r) := by
  funext r
  simp [selects, Row.get, Collation.Has]

@[simp] theorem selects_status (κ : Collation) (s : String) :
    selects κ (.eq "task_status") [some s] =
      fun r => decide (κ.key r.taskStatus = κ.key s) := by
  funext r
  simp [selects, Row.get]

/-! ## Assignments -/

/-- The columns an `UPDATE` of this program assigns. -/
inductive Assigns : List (String × Option String) → Prop where
  | status (s : TaskStatus) : Assigns [("task_status", some (statusName s))]
  | result (s : TaskStatus) (e : EndState) (r : Option String) :
      Assigns [("task_status", some (statusName s)), ("end_state", e.toText), ("task_result", r)]

theorem Assigns.method {values : List (String × Option String)} (h : Assigns values) (r : Row) :
    (r.putAll values).method = r.method := by
  cases h <;> rfl

theorem stamp_method (κ : Collation) (now : ℕ) (r : Row) :
    (stamp κ now r).method = r.method := by
  unfold stamp
  split
  · rfl
  · split <;> rfl

theorem Assigns.updated_method {values : List (String × Option String)} (h : Assigns values)
    (T : Table) (now : ℕ) (r : Row) : (T.updated now values r).method = r.method := by
  unfold Table.updated
  split
  · rw [stamp_method, h.method]
  · exact h.method r

/-- Rows with the same methods satisfy the key as well. -/
theorem Table.withRows_map {T : Table} {f : Row → Row} (h : ∀ r, (f r).method = r.method) :
    ∃ hu, T.withRows (T.rows.map f) = .ok ⟨T.collation, T.rows.map f, hu, T.trigger⟩ := by
  have hu : ((T.rows.map f).map fun r => T.collation.key r.method).Nodup := by
    rw [List.map_map]
    simpa only [Function.comp_def, h] using T.unique
  exact ⟨hu, dif_pos hu⟩

/-! ## The writers -/

/-- A new row, with its method and its parameters. -/
def Row.written (x : String × Option String) : Row := { Row.default x.1 with params := x.2 }

/-- The method and the parameters fit their columns. -/
def FitsColumns (x : String × Option String) : Prop :=
  x.1.length ≤ 128 ∧ x.2.elim 0 String.length ≤ 512

instance : DecidablePred FitsColumns := fun _ => inferInstanceAs (Decidable (_ ∧ _))

/-- What an `INSERT` of these rows makes of the table. -/
def Table.insertRows (T : Table) (xs : List (String × Option String)) : Except SqlError Table :=
  if ∀ x ∈ xs, FitsColumns x then T.withRows (T.rows ++ xs.map Row.written)
  else .error .dataTooLong

theorem newRow_method (m : String) : Table.newRow [("method", some m)] =
    if FitsColumns (m, none) then .ok (Row.written (m, none)) else .error .dataTooLong := by
  by_cases h : m.length ≤ 128
  · simp [Table.newRow, checkAll, Row.check, FitsColumns, h, Except.bind, bind]
    rfl
  · simp [Table.newRow, checkAll, Row.check, FitsColumns, h, Except.bind, bind]

theorem newRow_params (m p : String) : Table.newRow [("method", some m), ("params", some p)] =
    if FitsColumns (m, some p) then .ok (Row.written (m, some p)) else .error .dataTooLong := by
  by_cases h : m.length ≤ 128
  · by_cases hp : p.length ≤ 512
    · simp [Table.newRow, checkAll, Row.check, FitsColumns, h, hp, Except.bind, bind]
      rfl
    · simp [Table.newRow, checkAll, Row.check, FitsColumns, h, hp, Except.bind, bind]
  · simp [Table.newRow, checkAll, Row.check, FitsColumns, h, Except.bind, bind]

theorem newRows_flatMap {α : Type} {columns : List String} {f : α → List (Option String)}
    (hf : ∀ x, (f x).length = columns.length) : ∀ xs : List α,
    Table.newRows columns xs.length (xs.flatMap f) = xs.map fun x => columns.zip (f x)
  | [] => rfl
  | x :: xs => by
      have hzip : (columns ++ []).zip (f x ++ xs.flatMap f) =
          columns.zip (f x) ++ [].zip (xs.flatMap f) := List.zip_append (hf x).symm
      rw [List.append_nil, List.zip_nil_left, List.append_nil] at hzip
      rw [List.length_cons, Table.newRows, List.flatMap_cons, List.map_cons,
        List.drop_left' (hf x), newRows_flatMap hf xs, hzip]

theorem mapM_newRow {α : Type} {g : α → List (String × Option String)}
    {x : α → String × Option String}
    (h : ∀ a, Table.newRow (g a) =
      if FitsColumns (x a) then .ok (Row.written (x a)) else .error .dataTooLong) :
    ∀ as : List α, (as.map g).mapM Table.newRow =
      if ∀ y ∈ as.map x, FitsColumns y then .ok ((as.map x).map Row.written)
      else .error .dataTooLong
  | [] => by simp [pure, Except.pure]
  | a :: as => by
      rw [List.map_cons, List.mapM_cons, h a, mapM_newRow h as]
      by_cases ha : FitsColumns (x a)
      · by_cases has : ∀ y ∈ as.map x, FitsColumns y
        · have hall : ∀ y ∈ (a :: as).map x, FitsColumns y := by simpa [ha] using has
          rw [if_pos ha, if_pos has, if_pos hall]
          rfl
        · have hall : ¬ ∀ y ∈ (a :: as).map x, FitsColumns y := by simpa [ha] using has
          rw [if_pos ha, if_neg has, if_neg hall]
          rfl
      · have hall : ¬ ∀ y ∈ (a :: as).map x, FitsColumns y := fun hy => ha (hy _ (by simp))
        rw [if_neg ha, if_neg hall]
        rfl

/-- The statement inserts these rows. -/
theorem insert_eq {α : Type} (T : Table) (columns : List String) (f : α → List (Option String))
    (x : α → String × Option String) (hf : ∀ a, (f a).length = columns.length)
    (h : ∀ a, Table.newRow (columns.zip (f a)) =
      if FitsColumns (x a) then .ok (Row.written (x a)) else .error .dataTooLong) (as : List α) :
    T.insert columns as.length (as.flatMap f) = T.insertRows (as.map x) := by
  unfold Table.insert Table.insertRows
  rw [newRows_flatMap hf, mapM_newRow h]
  split <;> rfl

theorem insert_methods (T : Table) (methods : List String) :
    T.insert ["method"] methods.length (methods.map some) =
      T.insertRows (methods.map fun m => (m, none)) := by
  rw [List.map_eq_flatMap]
  exact insert_eq T ["method"] (fun m => [some m]) (fun m => (m, none)) (fun _ => rfl)
    newRow_method methods

theorem insert_tasks (T : Table) (tasks : List (String × StringMap String)) :
    T.insert ["method", "params"] tasks.length
        (tasks.flatMap fun x => [some x.1, some (paramsAsString x.2)]) =
      T.insertRows (tasks.map fun x => (x.1, some (paramsAsString x.2))) := by
  refine insert_eq T ["method", "params"] (fun x => [some x.1, some (paramsAsString x.2)])
    (fun x => (x.1, some (paramsAsString x.2))) (fun x => ?_) (fun x => ?_) tasks
  · simp
  · generalize paramsAsString x.2 = p
    exact newRow_params x.1 p

section

variable {o : Outside} {t : String} {b : Backend}

theorem createTask_run (h : o.server.IsName t) (m : String) (params : Option (StringMap String)) :
    DBCreateTask.perform o m params t b = b.after t ((b.database.find? t).map fun T =>
      T.insertRows [(m, params.map paramsAsString)]) := by
  cases params with
  | none =>
    have hrun : DBCreateTask.perform o m none t b = _ :=
      update_run [some m] h (parse_createTask h) rfl rfl rfl
    rw [hrun]
    exact congrArg _ (Option.map_congr fun T _ => insert_methods T [m])
  | some params =>
    have hrun : DBCreateTask.perform o m (some params) t b = _ :=
      update_run [some m, some (paramsAsString params)] h (parse_createTask_params h) rfl rfl rfl
    rw [hrun]
    exact congrArg _ (Option.map_congr fun T _ => insert_tasks T [(m, params)])

theorem createTasks_run (h : o.server.IsName t) {methods : List String} (hm : methods ≠ []) :
    DBCreateTasks.perform o methods t b = b.after t ((b.database.find? t).map fun T =>
      T.insertRows (methods.map fun m => (m, none))) := by
  obtain ⟨n, hn⟩ : ∃ n, methods.length = n + 1 :=
    Nat.exists_eq_succ_of_ne_zero (by simpa using hm)
  have hrun : DBCreateTasks.perform o methods t b = _ :=
    update_run (methods.map some) h (hn ▸ parse_createTasks h n) rfl
      (by simp [Statement.placeholders, hn]) (bindings_methods methods)
  rw [hrun]
  exact congrArg _ (Option.map_congr fun T _ => insert_methods T methods)

theorem createTasks_params_run (h : o.server.IsName t) {tasks : StringMap (StringMap String)}
    (hm : tasks.entries ≠ []) :
    DBCreateTasks.performWithParams o tasks t b = b.after t ((b.database.find? t).map fun T =>
      T.insertRows (tasks.entries.map fun x => (x.1, some (paramsAsString x.2)))) := by
  obtain ⟨n, hn⟩ : ∃ n, tasks.entries.length = n + 1 :=
    Nat.exists_eq_succ_of_ne_zero (by simpa using hm)
  have hrun : DBCreateTasks.performWithParams o tasks t b = _ :=
    update_run (tasks.entries.flatMap fun x => [some x.1, some (paramsAsString x.2)]) h
      (hn ▸ parse_createTasks_params h n) rfl
      (by simp [Statement.placeholders, hn]) (bindings_tasks tasks.entries)
  rw [hrun]
  exact congrArg _ (Option.map_congr fun T _ => insert_tasks T tasks.entries)

end

/-! ## The database after an update -/

namespace Database

theorem find?_mem {d : Database} {name : String} {T : Table} (h : d.find? name = some T) :
    (name, T) ∈ d.tables :=
  StringMap.mem_of_get? (m := ⟨d.tables, d.nodup⟩) h

theorem replace_self {d : Database} {name : String} {T : Table} (h : d.find? name = some T) :
    d.replace name T = d := by
  refine Database.eq_of_tables ?_
  refine (List.map_congr_left fun e he => ?_).trans (List.map_id _)
  by_cases hn : e.1 = name
  · have heq : d.find? e.1 = some e.2 := StringMap.lookup_of_mem d.nodup he
    rw [hn, h] at heq
    rw [if_pos hn, Option.some.inj heq]
    rfl
  · rw [if_neg hn]
    rfl

theorem replace_replace (d : Database) (name : String) (T T' : Table) :
    (d.replace name T).replace name T' = d.replace name T' := by
  refine Database.eq_of_tables ?_
  show (d.tables.map _).map _ = d.tables.map _
  rw [List.map_map]
  refine List.map_congr_left fun e _ => ?_
  by_cases hn : e.1 = name <;> simp [hn]

theorem find?_replace {d : Database} {name : String} {T : Table} (h : d.find? name = some T)
    (T' : Table) : (d.replace name T').find? name = some T' := by
  have hmem := find?_mem h
  refine StringMap.lookup_of_mem (d.replace name T').nodup ?_
  exact List.mem_map.mpr ⟨_, hmem, if_pos rfl⟩

end Database

/-- The table after `executeUpdate`: a statement that fails changes
nothing. -/
def Table.next (T : Table) (now : ℕ) (vs : List (Option String)) (st : Statement) : Table :=
  match T.execute now vs st with
  | .ok T' => T'
  | .error _ => T

/-- The database after an update of a table that is there. -/
theorem after_database {b : Backend} {t : String} {T : Table} (h : b.database.find? t = some T)
    (now : ℕ) (vs : List (Option String)) (st : Statement) :
    (b.after t ((b.database.find? t).map fun T => T.execute now vs st)).fields.database =
      b.database.replace t (T.next now vs st) := by
  rw [h, Option.map_some]
  unfold Table.next
  cases hx : T.execute now vs st with
  | ok T' => rfl
  | error e => exact (Database.replace_self h).symm

end Clustering.Db
