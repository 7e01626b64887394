/-
Clustering.Db.Batches — the queries on several tasks against the queries
on one.

A `BatchQuery` stands for `DBUpdateTasks`, `DBUpdateTasksStatus` or
`DBDeleteTasks`, and for its sibling on one method. On the rows of the
table both are `touch`: what happens to a row whose method is among those
named. Touching a row again changes at most its time stamps
(`BatchQuery.Alike`), so one statement with `IN` and one statement after
another leave the same rows. `DBGetTasks` is compared with `DBGetTask` by the
tasks found.

For no method at all the batch queries have no statement.
-/
import Clustering.Db.Readers
import Clustering.Db.Reading

namespace Clustering.Db

open Actors Actors.Handler
open Clustering.Worker (TaskStatus)
open Java Sql

/-! ## The queries -/

inductive BatchQuery where
  | updateTasks (taskStatus : TaskStatus) (endState : EndState) (taskResult : Option String)
  | updateTasksStatus (taskStatus : TaskStatus)
  | deleteTasks
  deriving DecidableEq, Repr

namespace BatchQuery

/-- The query on a list of methods. -/
def all (q : BatchQuery) (o : Outside) (methods : List String) (tableName : String) : Code Unit :=
  match q with
  | updateTasks s e r => DBUpdateTasks.perform o methods s e r tableName
  | updateTasksStatus s => DBUpdateTasksStatus.perform o methods s tableName
  | deleteTasks => DBDeleteTasks.perform o methods tableName

/-- The query on one method. -/
def one (q : BatchQuery) (o : Outside) (method tableName : String) : Code Unit :=
  match q with
  | updateTasks s e r => DBUpdateTask.perform o method s e r tableName
  | updateTasksStatus s => DBUpdateTaskStatus.perform o method s tableName
  | deleteTasks => DBDeleteTask.perform o method tableName

/-- The text for `n` methods. -/
def sql (q : BatchQuery) (tableName : String) (n : ℕ) : String :=
  match q with
  | updateTasks .. => DBUpdateTasks.sql tableName n
  | updateTasksStatus _ => DBUpdateTasksStatus.sql tableName n
  | deleteTasks => DBDeleteTasks.sql tableName n

/-- The values to assign, by column. -/
def values (q : BatchQuery) : List (String × Option String) :=
  match q with
  | updateTasks s e r =>
      [("task_status", some (statusName s)), ("end_state", e.toText), ("task_result", r)]
  | updateTasksStatus s => [("task_status", some (statusName s))]
  | deleteTasks => []

/-- The bindings of the batch query, in the order of the source. -/
def bindings (q : BatchQuery) (methods : List String) : List (ℕ × Option String) :=
  match q with
  | updateTasks s e r => [(1, some (statusName s)), (2, endStateColumn e), (3, r)]
      ++ methods.zipIdx.map fun x => (3 + (x.2 + 1), some x.1)
  | updateTasksStatus s => [(1, some (statusName s))]
      ++ methods.zipIdx.map fun x => (1 + (x.2 + 1), some x.1)
  | deleteTasks => methods.zipIdx.map fun x => (x.2 + 1, some x.1)

/-- The meaning of the text, with the condition left open. -/
def statement (q : BatchQuery) (tableName : String) (c : Condition) : Statement :=
  match q with
  | deleteTasks => .deleteFrom tableName c
  | q => .update tableName (q.values.map Prod.fst) c

theorem bindings_eq (q : BatchQuery) (methods : List String) :
    q.bindings methods = Prepared.inOrder (q.values.map Prod.snd ++ methods.map some) := by
  cases q with
  | updateTasks s e r => exact bindings_after [some (statusName s), e.toText, r] methods
  | updateTasksStatus s => exact bindings_after [some (statusName s)] methods
  | deleteTasks => exact bindings_methods methods

theorem all_eq (q : BatchQuery) (o : Outside) (methods : List String) (t : String) :
    q.all o methods t = update o t (q.sql t methods.length) (q.bindings methods) := by
  cases q <;> rfl

theorem parse_sql {server : Server} {t : String} (h : server.IsName t) (q : BatchQuery) (n : ℕ) :
    Sql.parse (q.sql t (n + 1)) = some (q.statement t (.isIn "method" (n + 1))) := by
  cases q with
  | updateTasks s e r => exact parse_updateTasks h n
  | updateTasksStatus s => exact parse_updateTasksStatus h n
  | deleteTasks => exact parse_deleteTasks h n

theorem parse_sql_nil {server : Server} {t : String} (h : server.IsName t) (q : BatchQuery) :
    Sql.parse (q.sql t 0) = none := by
  cases q with
  | updateTasks s e r => exact (parse_nothing h).2.1
  | updateTasksStatus s => exact (parse_nothing h).2.2.1
  | deleteTasks => exact (parse_nothing h).2.2.2.1

theorem statement_table (q : BatchQuery) (t : String) (c : Condition) :
    (q.statement t c).table = t := by
  cases q <;> rfl

theorem statement_placeholders (q : BatchQuery) (t : String) (c : Condition) :
    (q.statement t c).placeholders = q.values.length + c.placeholders := by
  cases q <;> simp [statement, values, Statement.placeholders]

/-- What the batch query leaves, for some methods. -/
theorem all_run {o : Outside} {t : String} (h : o.server.IsName t) (q : BatchQuery)
    {methods : List String} (hm : methods ≠ []) (b : Backend) :
    q.all o methods t b = b.after t ((b.database.find? t).map fun T =>
      T.execute o.now (q.values.map Prod.snd ++ methods.map some)
        (q.statement t (.isIn "method" methods.length))) := by
  obtain ⟨n, hn⟩ : ∃ n, methods.length = n + 1 :=
    Nat.exists_eq_succ_of_ne_zero (by simpa using hm)
  rw [all_eq, hn]
  refine update_run _ h (parse_sql h q n) (q.statement_table _ _) ?_ (q.bindings_eq methods)
  simp [statement_placeholders, Condition.placeholders, hn]

/-- What the query on one method leaves. -/
theorem one_run {o : Outside} {t : String} (h : o.server.IsName t) (q : BatchQuery)
    (m : String) (b : Backend) :
    q.one o m t b = b.after t ((b.database.find? t).map fun T =>
      T.execute o.now (q.values.map Prod.snd ++ [some m]) (q.statement t (.eq "method"))) := by
  cases q with
  | updateTasks s e r => exact update_run _ h (parse_updateTask h) rfl rfl rfl
  | updateTasksStatus s => exact update_run _ h (parse_updateTaskStatus h) rfl rfl rfl
  | deleteTasks => exact update_run _ h (parse_deleteTask h) rfl rfl rfl

/-! ## Rows -/

/-- Whether the values to assign fit their columns. -/
def fitting (q : BatchQuery) : Bool :=
  match checkAll q.values with
  | .ok _ => true
  | .error _ => false

/-- What becomes of a row that is touched. Values that do not fit leave
every row as it is. -/
def act (q : BatchQuery) (κ : Collation) (trigger : Bool) (now : ℕ) (r : Row) : Option Row :=
  if q = deleteTasks then none
  else if q.fitting then
    some (if trigger then stamp κ now (r.putAll q.values) else r.putAll q.values)
  else some r

/-- The row after a query on these methods. -/
def touch (q : BatchQuery) (κ : Collation) (trigger : Bool) (now : ℕ) (methods : List String)
    (r : Row) : Option Row :=
  if κ.Has methods r then q.act κ trigger now r else some r

theorem assigns {q : BatchQuery} (hq : q ≠ deleteTasks) : Assigns q.values := by
  cases q with
  | updateTasks s e r => exact .result s e r
  | updateTasksStatus s => exact .status s
  | deleteTasks => exact absurd rfl hq

end BatchQuery

theorem Table.ext {T T' : Table} (hκ : T.collation = T'.collation) (hr : T.rows = T'.rows)
    (ht : T.trigger = T'.trigger) : T = T' := by
  cases T
  cases T'
  cases hκ
  cases hr
  cases ht
  rfl

namespace BatchQuery

theorem filterMap_touch_absent {q : BatchQuery} {κ : Collation} {trigger : Bool} {now : ℕ}
    {methods : List String} {rows : List Row} (h : ∀ r ∈ rows, ¬ κ.Has methods r) :
    rows.filterMap (q.touch κ trigger now methods) = rows := by
  have hsome : ∀ r ∈ rows, q.touch κ trigger now methods r = some r := fun r hr => if_neg (h r hr)
  rw [List.filterMap_congr hsome, List.filterMap_some]

theorem execute_update {q : BatchQuery} (hq : q ≠ deleteTasks) (T : Table) (now : ℕ)
    (vs : List (Option String)) (c : Condition) (t : String) :
    T.execute now (q.values.map Prod.snd ++ vs) (q.statement t c) =
      T.update now q.values (selects T.collation c vs) := by
  cases q with
  | updateTasks s e r => rfl
  | updateTasksStatus s => rfl
  | deleteTasks => exact absurd rfl hq

/-- **On the rows, a query is `touch`,** whether it names its methods by
`=` or by `IN`. -/
theorem rows_next (q : BatchQuery) (T : Table) (now : ℕ) (methods : List String) (c : Condition)
    (vs : List (Option String))
    (hc : ∀ r, selects T.collation c vs r = decide (T.collation.Has methods r)) (t : String) :
    (T.next now (q.values.map Prod.snd ++ vs) (q.statement t c)).rows =
        T.rows.filterMap (q.touch T.collation T.trigger now methods) ∧
      (T.next now (q.values.map Prod.snd ++ vs) (q.statement t c)).collation = T.collation ∧
      (T.next now (q.values.map Prod.snd ++ vs) (q.statement t c)).trigger = T.trigger := by
  by_cases hq : q = deleteTasks
  · subst hq
    refine ⟨?_, rfl, rfl⟩
    show T.rows.filter (fun r => !selects T.collation c vs r) = _
    rw [← List.filterMap_eq_filter]
    refine List.filterMap_congr fun r _ => ?_
    by_cases hr : T.collation.Has methods r <;> simp [touch, act, hc, hr, Option.guard]
  · unfold Table.next
    rw [execute_update hq, Table.update]
    by_cases hany : T.rows.any (selects T.collation c vs)
    · rw [if_pos hany]
      cases hcheck : checkAll q.values with
      | error e =>
        have hfit : q.fitting = false := by simp [fitting, hcheck]
        refine ⟨?_, rfl, rfl⟩
        refine (List.filterMap_some.symm.trans (List.filterMap_congr fun r _ => ?_))
        simp [touch, act, hq, hfit]
      | ok u =>
        have hfit : q.fitting = true := by simp [fitting, hcheck]
        obtain ⟨hu, hw⟩ := Table.withRows_map (T := T)
          (f := fun r => if selects T.collation c vs r then T.updated now q.values r else r) fun r => by
            split
            · exact (assigns hq).updated_method T now r
            · rfl
        simp only [bind, Except.bind, hw]
        refine ⟨?_, trivial, trivial⟩
        rw [← List.filterMap_eq_map]
        refine List.filterMap_congr fun r _ => ?_
        by_cases hr : T.collation.Has methods r <;>
          simp [touch, act, hq, hfit, hc, hr, Table.updated]
    · rw [if_neg hany]
      have hno : ∀ r ∈ T.rows, ¬ T.collation.Has methods r := by
        intro r hr hmem
        exact hany (List.any_eq_true.mpr ⟨r, hr, by rw [hc]; simpa using hmem⟩)
      exact ⟨(filterMap_touch_absent hno).symm, rfl, rfl⟩

/-! ## One row, touched again -/

end BatchQuery

/-- The row without what the trigger writes. -/
def Row.untimed (r : Row) : Row := { r with startedAt := 0, finishedAt := 0, timeSpent := none }

theorem stamp_untimed (κ : Collation) (now : ℕ) (r : Row) :
    (stamp κ now r).untimed = r.untimed := by
  unfold stamp
  split
  · rfl
  · split <;> rfl

theorem Assigns.putAll_untimed {values : List (String × Option String)} (h : Assigns values)
    (r : Row) : (r.putAll values).untimed = r.untimed.putAll values := by
  cases h <;> rfl

theorem Assigns.putAll_putAll {values : List (String × Option String)} (h : Assigns values)
    (r : Row) : (r.putAll values).putAll values = r.putAll values := by
  cases h <;> rfl

theorem stamp_stamp (κ : Collation) (now : ℕ) (r : Row) :
    stamp κ now (stamp κ now r) = stamp κ now r := by
  unfold stamp
  by_cases hrunning : κ.key r.taskStatus = κ.key "RUNNING"
  · simp [hrunning]
  · by_cases hdone : κ.key r.taskStatus = κ.key "DONE"
    · rw [if_neg hrunning, if_pos hdone]
      exact (if_neg hrunning).trans (if_pos hdone)
    · simp [hrunning, hdone]

/-- The trigger writes no column that is assigned. -/
theorem Assigns.putAll_stamp {values : List (String × Option String)} (h : Assigns values)
    (κ : Collation) (now : ℕ) (r : Row) :
    (stamp κ now (r.putAll values)).putAll values = stamp κ now (r.putAll values) := by
  unfold stamp
  split
  · cases h <;> rfl
  · split
    · cases h <;> rfl
    · exact h.putAll_putAll r

/-- A row that was assigned and stamped is not changed by doing it again
at the same time. -/
theorem Assigns.stamp_again {values : List (String × Option String)} (h : Assigns values)
    (κ : Collation) (now : ℕ) (r : Row) :
    stamp κ now ((stamp κ now (r.putAll values)).putAll values) = stamp κ now (r.putAll values) := by
  rw [h.putAll_stamp, stamp_stamp]

namespace BatchQuery

/-- Seen through `f`, touching a row at `time` and then at `now` is
touching it at `now`. -/
structure Alike (q : BatchQuery) (κ : Collation) (trigger : Bool) (f : Row → Row)
    (now time : ℕ) : Prop where
  once : ∀ r, (q.act κ trigger time r).map f = (q.act κ trigger now r).map f
  again : ∀ r r', q.act κ trigger time r = some r' →
    (q.act κ trigger now r').map f = (q.act κ trigger now r).map f

/-- Up to what the trigger writes, at any two times. -/
theorem alike_untimed (q : BatchQuery) (κ : Collation) (trigger : Bool) (now time : ℕ) :
    q.Alike κ trigger Row.untimed now time := by
  by_cases hq : q = deleteTasks
  · subst hq
    exact ⟨fun _ => rfl, fun _ _ _ => rfl⟩
  have ha := assigns hq
  by_cases hfit : q.fitting = true
  · cases trigger with
    | false =>
      refine ⟨fun r => ?_, fun r r' h => ?_⟩
      · simp [act, hq, hfit]
      · simp [act, hq, hfit] at h
        simp [act, hq, hfit, ← h, ha.putAll_putAll]
    | true =>
      refine ⟨fun r => ?_, fun r r' h => ?_⟩
      · simp [act, hq, hfit, stamp_untimed]
      · simp [act, hq, hfit] at h
        simp [act, hq, hfit, ← h, stamp_untimed, ha.putAll_untimed]
        rw [← ha.putAll_untimed, ← ha.putAll_untimed, ha.putAll_putAll, ha.putAll_untimed]
  · refine ⟨fun r => ?_, fun r r' h => ?_⟩
    · simp [act, hq, hfit]
    · simp [act, hq, hfit] at h
      simp [act, hq, hfit, h]

/-- At one time, altogether. -/
theorem alike_same (q : BatchQuery) (κ : Collation) (trigger : Bool) (now : ℕ) :
    q.Alike κ trigger id now now := by
  refine ⟨fun _ => rfl, ?_⟩
  by_cases hq : q = deleteTasks
  · subst hq
    exact fun _ _ _ => rfl
  have ha := assigns hq
  intro r r' h
  by_cases hfit : q.fitting = true
  · cases trigger with
    | false =>
      simp [act, hq, hfit] at h
      simp [act, hq, hfit, ← h, ha.putAll_putAll]
    | true =>
      simp [act, hq, hfit] at h
      simp [act, hq, hfit, ← h, ha.stamp_again]
  · simp [act, hq, hfit] at h
    simp [act, hq, hfit, h]

/-- What becomes of a row under one query after another, each at its own
time. -/
def touchEach (q : BatchQuery) (κ : Collation) (trigger : Bool) :
    List (String × ℕ) → Row → Option Row
  | [], r => some r
  | (m, time) :: rest, r => (q.touch κ trigger time [m] r).bind (touchEach q κ trigger rest)

theorem touchEach_map {q : BatchQuery} {κ : Collation} {trigger : Bool} {f : Row → Row} {now : ℕ} :
    ∀ {timed : List (String × ℕ)}, (∀ x ∈ timed, q.Alike κ trigger f now x.2) → ∀ r,
      (q.touchEach κ trigger timed r).map f = (q.touch κ trigger now (timed.map Prod.fst) r).map f
  | [], _, r => rfl
  | (m, time) :: rest, h, r => by
      have hx := h _ List.mem_cons_self
      have ih := touchEach_map fun x hx => h x (List.mem_cons_of_mem _ hx)
      by_cases hr : κ.key r.method = κ.key m
      · have hfirst : q.touch κ trigger time [m] r = q.act κ trigger time r := by simp [touch, hr]
        have hgoal : q.touch κ trigger now (((m, time) :: rest).map Prod.fst) r =
            q.act κ trigger now r := by simp [touch, κ.has_cons, hr]
        rw [touchEach, hfirst, hgoal]
        cases hact : q.act κ trigger time r with
        | none =>
          have := hx.once r
          rw [hact] at this
          exact this
        | some r' =>
          rw [Option.bind_some, ih r']
          unfold touch
          split
          · exact hx.again r r' hact
          · rw [← hact]
            exact hx.once r
      · have hfirst : q.touch κ trigger time [m] r = some r := by simp [touch, hr]
        rw [touchEach, hfirst, Option.bind_some, ih r]
        unfold touch
        simp only [List.map_cons, κ.has_cons, hr, false_or]

end BatchQuery

/-! ## The database -/

namespace Database

/-- The database without what the triggers write. -/
def untimed (d : Database) : List (String × List Row × Bool) :=
  d.tables.map fun e => (e.1, e.2.rows.map Row.untimed, e.2.trigger)

theorem untimed_replace (d : Database) (name : String) {T T' : Table}
    (hr : T.rows.map Row.untimed = T'.rows.map Row.untimed) (ht : T.trigger = T'.trigger) :
    (d.replace name T).untimed = (d.replace name T').untimed := by
  show (d.tables.map _).map _ = (d.tables.map _).map _
  rw [List.map_map, List.map_map]
  refine List.map_congr_left fun e _ => ?_
  by_cases hn : e.1 = name <;> simp [hn, hr, ht]

end Database

namespace BatchQuery

/-- The single queries one after another, each message at its own time. -/
def oneByOne (q : BatchQuery) (o : Outside) (t : String) : List (String × ℕ) → Backend → Backend
  | [], b => b
  | (m, time) :: rest, b => oneByOne q o t rest (q.one { o with now := time } m t b).fields

theorem oneByOne_database {q : BatchQuery} {o : Outside} {t : String} (h : o.server.IsName t) :
    ∀ (timed : List (String × ℕ)) {b : Backend} {T : Table}, b.database.find? t = some T →
      ∃ T', (q.oneByOne o t timed b).database = b.database.replace t T' ∧
        T'.rows = T.rows.filterMap (q.touchEach T.collation T.trigger timed) ∧
          T'.collation = T.collation ∧ T'.trigger = T.trigger
  | [], b, T, hT => ⟨T, (Database.replace_self hT).symm, by
      rw [show q.touchEach T.collation T.trigger [] = some from rfl, List.filterMap_some],
      rfl, rfl⟩
  | (m, time) :: rest, b, T, hT => by
      have hone := q.one_run (o := { o with now := time }) h m b
      have hdb := after_database hT time (q.values.map Prod.snd ++ [some m])
        (q.statement t (.eq "method"))
      obtain ⟨hrows, hκ, htrigger⟩ := q.rows_next T time [m] (.eq "method") [some m]
        (fun r => by simp) t
      rw [← hone] at hdb
      obtain ⟨T', hT', hrows', hκ', htrigger'⟩ := oneByOne_database h rest
        (hdb ▸ Database.find?_replace hT _)
      refine ⟨T', ?_, ?_, hκ'.trans hκ, htrigger'.trans htrigger⟩
      · rw [oneByOne, hT', hdb, Database.replace_replace]
      · rw [hrows', hrows, hκ, htrigger, List.filterMap_filterMap]
        rfl

end BatchQuery

/-! ## Statements and bindings -/

/-- A text and its bindings are a statement with each placeholder bound
once, in order, to its own value. -/
def WellBound (sql : String) (bindings : List (ℕ × Option String))
    (values : List (Option String)) : Prop :=
  ∃ st, Sql.parse sql = some st ∧
    bindings.map Prod.fst = List.range' 1 st.placeholders ∧ bindings.map Prod.snd = values

theorem inOrder_fst {V : Type} (vs : List V) :
    (Prepared.inOrder vs).map Prod.fst = List.range' 1 vs.length := by
  rw [Prepared.inOrder, List.map_map]
  exact List.zipIdx_map_snd 1 vs

theorem inOrder_snd {V : Type} (vs : List V) : (Prepared.inOrder vs).map Prod.snd = vs := by
  rw [Prepared.inOrder, List.map_map]
  exact List.zipIdx_map_fst 1 vs

theorem wellBound_inOrder {sql : String} {st : Statement} {vs : List (Option String)}
    (hp : Sql.parse sql = some st) (hv : vs.length = st.placeholders) :
    WellBound sql (Prepared.inOrder vs) vs :=
  ⟨st, hp, by rw [inOrder_fst, hv], inOrder_snd vs⟩

theorem not_wellBound {sql : String} {bindings : List (ℕ × Option String)}
    {vs : List (Option String)} (hp : Sql.parse sql = none) : ¬ WellBound sql bindings vs := by
  rintro ⟨st, hst, -⟩
  rw [hp] at hst
  cases hst

/-! ## Batch and single -/

/-- The batch query on these methods is the single queries in a row: its
statement is well formed, and it leaves the same tables, up to the time
stamps in general, and altogether if the clock stands still. -/
structure BatchQuery.Agrees (q : BatchQuery) (o : Outside) (t : String) (methods : List String)
    (b : Backend) : Prop where
  wellBound : WellBound (q.sql t methods.length) (q.bindings methods)
    (q.values.map Prod.snd ++ methods.map some)
  untimed : ∀ timed : List (String × ℕ), timed.map Prod.fst = methods →
    (q.all o methods t b).fields.database.untimed = (q.oneByOne o t timed b).database.untimed
  same : ∀ timed : List (String × ℕ), timed.map Prod.fst = methods → (∀ x ∈ timed, x.2 = o.now) →
    (q.all o methods t b).fields.database = (q.oneByOne o t timed b).database

/-- `DBGetTasks` finds the rows `DBGetTask` finds for the methods: it
raises if one of them does, and else answers the same set of tasks. Where
the server takes two spellings of a method for one, `DBGetTasks` answers
with that of the row, `DBGetTask` with that of the message. -/
structure GetAgrees (κ : Collation) (server : Server) (t : String) (methods : List String)
    (b : Backend) : Prop where
  wellBound : WellBound (DBGetTasks.sql t methods.length)
    (methods.zipIdx.map fun x => (x.2 + 1, some x.1)) (methods.map some)
  raises : (∃ e, (DBGetTasks.perform server methods t b).result = .error e) ↔
    ∃ m ∈ methods, ∃ e, (DBGetTask.perform server m t b).result = .error e
  found : ∀ tasks, (DBGetTasks.perform server methods t b).result = .ok tasks →
    ∀ task ∈ tasks.getD [], ∃ m ∈ methods, κ.key task.method = κ.key m ∧
      (DBGetTask.perform server m t b).result = .ok (some { task with method := m })
  all : ∀ tasks, (DBGetTasks.perform server methods t b).result = .ok tasks →
    ∀ m ∈ methods, ∀ task', (DBGetTask.perform server m t b).result = .ok (some task') →
      ∃ task ∈ tasks.getD [], κ.key task.method = κ.key m ∧ task' = { task with method := m }

theorem BatchQuery.agrees (q : BatchQuery) {o : Outside} {t : String} {methods : List String}
    {b : Backend} {T : Table} (h : o.server.IsName t) (hT : b.database.find? t = some T)
    (hm : methods ≠ []) : q.Agrees o t methods b := by
  obtain ⟨n, hn⟩ : ∃ n, methods.length = n + 1 :=
    Nat.exists_eq_succ_of_ne_zero (by simpa using hm)
  have hall : (q.all o methods t b).fields.database = b.database.replace t
      (T.next o.now (q.values.map Prod.snd ++ methods.map some)
        (q.statement t (.isIn "method" methods.length))) := by
    rw [q.all_run h hm]
    exact after_database hT _ _ _
  obtain ⟨hrows, hκ, htrigger⟩ := q.rows_next T o.now methods (.isIn "method" methods.length)
    (methods.map some) (fun r => by simp) t
  refine ⟨?_, ?_, ?_⟩
  · rw [q.bindings_eq, hn]
    refine wellBound_inOrder (q.parse_sql h n) ?_
    simp [q.statement_placeholders, Condition.placeholders, hn]
  · intro timed htimed
    obtain ⟨T', hdb, hrows', -, htrigger'⟩ := q.oneByOne_database h timed hT
    rw [hall, hdb]
    refine Database.untimed_replace _ _ ?_ (htrigger.trans htrigger'.symm)
    rw [hrows, hrows', List.map_filterMap, List.map_filterMap]
    refine List.filterMap_congr fun r _ => ?_
    rw [touchEach_map fun x _ => q.alike_untimed T.collation T.trigger o.now x.2, htimed]
  · intro timed htimed htime
    obtain ⟨T', hdb, hrows', hκ', htrigger'⟩ := q.oneByOne_database h timed hT
    rw [hall, hdb]
    congr 1
    refine Table.ext (hκ.trans hκ'.symm) ?_ (htrigger.trans htrigger'.symm)
    rw [hrows, hrows']
    refine List.filterMap_congr fun r _ => ?_
    have htouch : (q.touchEach T.collation T.trigger timed r).map id =
        (q.touch T.collation T.trigger o.now (timed.map Prod.fst) r).map id :=
      touchEach_map (fun x hx => htime x hx ▸ q.alike_same _ _ _) r
    rw [Option.map_id_apply, Option.map_id_apply, htimed] at htouch
    exact htouch.symm

/-- What a reader makes of a row, but for the method it is asked for. -/
theorem Row.task?_respelled (server : Server) (m m' : String) (r : Row) :
    r.task? server m' = (r.task? server m).map fun task => { task with method := m' } := by
  simp only [Row.task?, Row.taskWith?, Option.map_bind, Function.comp_def, Option.map_some]

theorem getAgrees {server : Server} {t : String} {methods : List String} {b : Backend} {T : Table}
    (h : server.IsName t) (hT : b.database.find? t = some T) (hm : methods ≠ []) :
    GetAgrees T.collation server t methods b := by
  obtain ⟨n, hn⟩ : ∃ n, methods.length = n + 1 :=
    Nat.exists_eq_succ_of_ne_zero (by simpa using hm)
  obtain ⟨x, hx, hc⟩ := getTasks_run h hT hm
  have hone := fun m => getTask_result h hT m
  refine ⟨?_, ?_, ?_, ?_⟩
  · rw [bindings_methods, hn]
    exact wellBound_inOrder (parse_getTasks h n) (by simp [Condition.placeholders,
      Statement.placeholders, hn])
  · rw [hx, hc.result_error, tasksOf_eq_none]
    simp only [(hone _).1, List.mem_filter, decide_eq_true_eq, Collation.has_iff]
    constructor
    · rintro ⟨r, ⟨hr, m, hmem, hkey⟩, hnone⟩
      exact ⟨m, hmem, r, hr, hkey, by rw [r.task?_respelled server r.method m, hnone]; rfl⟩
    · rintro ⟨m, hmem, r, hr, hkey, hnone⟩
      exact ⟨r, ⟨hr, m, hmem, hkey⟩, by rw [r.task?_respelled server m r.method, hnone]; rfl⟩
  · intro tasks htasks task htask
    rw [hx, hc.result_ok] at htasks
    obtain ⟨r, hr, hread⟩ := (mem_tasksOf htasks).mp htask
    obtain ⟨hr, hmem⟩ := List.mem_filter.mp hr
    obtain ⟨m, hmem, hkey⟩ := (Collation.has_iff _ _ _).mp (of_decide_eq_true hmem)
    refine ⟨m, hmem, Row.taskWith?_method hread ▸ hkey, ((hone m).2 _).mpr ⟨r, hr, hkey, ?_⟩⟩
    rw [r.task?_respelled server r.method m, hread]
    rfl
  · intro tasks htasks m hmem task' htask'
    rw [hx, hc.result_ok] at htasks
    obtain ⟨r, hr, hkey, hread⟩ := ((hone m).2 task').mp htask'
    have hrow : r.task? server r.method = some { task' with method := r.method } := by
      rw [r.task?_respelled server m r.method, hread]
      rfl
    have hin : r ∈ T.rows.filter fun r => T.collation.Has methods r :=
      List.mem_filter.mpr ⟨hr, decide_eq_true ((Collation.has_iff _ _ _).mpr ⟨m, hmem, hkey⟩)⟩
    refine ⟨_, (mem_tasksOf htasks).mpr ⟨r, hin, hrow⟩, hkey, ?_⟩
    obtain rfl := Row.taskWith?_method hread
    rfl

/-- **A batch query is the single queries in a row, except for no
method.** -/
theorem batch_agrees_iff {o : Outside} {t : String} {b : Backend} {T : Table}
    (h : o.server.IsName t) (hT : b.database.find? t = some T) (methods : List String) :
    (∀ q : BatchQuery, q.Agrees o t methods b ↔ methods ≠ []) ∧
      (GetAgrees T.collation o.server t methods b ↔ methods ≠ []) := by
  refine ⟨fun q => ⟨?_, q.agrees h hT⟩, ⟨?_, getAgrees h hT⟩⟩
  · rintro hagrees rfl
    exact not_wellBound (q.parse_sql_nil h) hagrees.wellBound
  · rintro hagrees rfl
    exact not_wellBound (parse_nothing h).1 hagrees.wellBound

theorem batch_agrees_iff_oneTask :
    (∀ q : BatchQuery, q.Agrees someOutside "tasks" ["Suite.test", "Suite.test"] .oneTask ↔
      ["Suite.test", "Suite.test"] ≠ []) ∧
    (GetAgrees binary someOutside.server "tasks" ["Suite.test", "Suite.test"] .oneTask ↔
      ["Suite.test", "Suite.test"] ≠ []) :=
  batch_agrees_iff (o := someOutside) (t := "tasks") (b := .oneTask) (by decide) rfl _

/-- With no method the statements are malformed, where the single queries
do nothing: `DBGetTasks` raises. -/
theorem empty_batch_malformed :
    (∀ q : BatchQuery, ¬ q.Agrees someOutside "tasks" [] .oneTask) ∧
      (DBGetTasks.perform someOutside.server [] "tasks" .oneTask).result =
        .error (.sqlException .syntaxError) := by
  have hname : someOutside.server.IsName "tasks" := by decide
  refine ⟨fun q hagrees => not_wellBound (q.parse_sql_nil hname) hagrees.wellBound, ?_⟩
  have hno : ¬ (someOutside.server.IsName "tasks" ∧
      ∃ st, Sql.parse (DBGetTasks.sql "tasks" 0) = some st) := by
    simp [(parse_nothing hname).1]
  rw [DBGetTasks.perform, select_bind, bind_apply]
  exact congrArg (fun x : Outcome _ _ _ _ => (x.andThen _).result) (select_refused hno)

end Clustering.Db
