/-
Clustering.Db.Counts — the two counting queries.

Each is a `UNION ALL` of one `SELECT` per constant of the enumeration, so
a row whose column holds no constant would be counted under no key.
`Row.Typed` says that there is none, and is an invariant of all runs:
every query that writes takes what it writes into these columns from an
enumeration. The end state `NONE` is null in the table, and null is read
as `NONE`.
-/
import Mathlib.Algebra.BigOperators.Group.List.Basic
import Mathlib.Algebra.Ring.Nat
import Clustering.Db.Connections

namespace Clustering.Db

open Actors Actors.Handler
open Clustering.Worker (TaskStatus)
open Java Sql

/-! ## Keys -/

/-- The entries count every row once. -/
structure Partitions {K : Type} [DecidableEq K] (key : Row → Option K) (rows : List Row)
    (l : List (K × ℕ)) : Prop where
  once : (l.map Prod.fst).Nodup
  counts : ∀ k, (k, rows.countP fun r => key r = some k) ∈ l
  total : (l.map Prod.snd).sum = rows.length

theorem sum_map_eq_count {K : Type} [DecidableEq K] (k : K) (keys : List K) :
    (keys.map fun k' => if k = k' then 1 else 0).sum = keys.count k := by
  induction keys with
  | nil => rfl
  | cons k' keys ih =>
    rw [List.map_cons, List.sum_cons, ih, List.count_cons, Nat.add_comm]
    by_cases hk : k = k'
    · simp [hk]
    · simp [hk, Ne.symm hk]

/-- Every row has one of the keys. -/
theorem sum_countP {K : Type} [DecidableEq K] {key : Row → Option K} {keys : List K}
    (hn : keys.Nodup) {rows : List Row} (h : ∀ r ∈ rows, ∃ k ∈ keys, key r = some k) :
    (keys.map fun k => rows.countP fun r => key r = some k).sum = rows.length := by
  induction rows with
  | nil => simp
  | cons r rows ih =>
    obtain ⟨k, hk, hr⟩ := h r List.mem_cons_self
    have ih := ih fun x hx => h x (List.mem_cons_of_mem r hx)
    have hcons : ∀ k', (r :: rows).countP (fun r => key r = some k') =
        rows.countP (fun r => key r = some k') + if k = k' then 1 else 0 := by
      intro k'
      rw [List.countP_cons, hr]
      simp
    simp only [hcons]
    rw [List.sum_map_add, ih, sum_map_eq_count, List.count_eq_one_of_mem hn hk, List.length_cons]

/-- A list of all keys with their counts. -/
theorem partitions_of {K : Type} [DecidableEq K] {key : Row → Option K} {keys : List K}
    (hn : keys.Nodup) (hall : ∀ k, k ∈ keys) {rows : List Row} (h : ∀ r ∈ rows, key r ≠ none) :
    Partitions key rows (keys.map fun k => (k, rows.countP fun r => key r = some k)) := by
  refine ⟨?_, ?_, ?_⟩
  · rw [List.map_map]
    exact (List.map_id keys).symm ▸ hn
  · intro k
    exact List.mem_map.mpr ⟨k, hall k, rfl⟩
  · rw [List.map_map]
    refine sum_countP hn fun r hr => ?_
    obtain ⟨k, hk⟩ := Option.ne_none_iff_exists'.mp (h r hr)
    exact ⟨k, hall k, hk⟩

/-! ## Rows with constants -/

/-- Status and end state are constants of their enumerations. -/
structure Row.Typed (r : Row) : Prop where
  taskStatus : ∃ v, r.taskStatus = statusName v
  endState : ∃ v : EndState, r.endState = v.toText

theorem endStateOf_toText (v : EndState) : endStateOf v.toText = some v := by
  cases v <;> rfl

theorem Collation.toText_inj (κ : Collation) {v v' : EndState}
    (h : v.toText.map κ.key = v'.toText.map κ.key) : v = v' := by
  have hname : ∀ v : EndState, v = .none ∨ v.toText = some v.name := by
    intro v
    cases v <;> simp [EndState.toText]
  rcases hname v with rfl | hv <;> rcases hname v' with rfl | hv'
  · rfl
  · rw [hv'] at h
    cases h
  · rw [hv] at h
    cases h
  · rw [hv, hv'] at h
    exact κ.endState (Option.some.inj h)

/-- In such a row the column compares as equal to a constant exactly if it
is read as that constant. -/
theorem Row.Typed.taskStatus_iff {r : Row} (h : r.Typed) (κ : Collation) {v : TaskStatus} :
    statusValueOf r.taskStatus = some v ↔ κ.key r.taskStatus = κ.key (statusName v) := by
  obtain ⟨v', hv'⟩ := h.taskStatus
  rw [hv', statusValueOf_name, Option.some.injEq, κ.key_statusName]

/-- The column is null exactly if the end state is `NONE`. -/
theorem Row.Typed.endState_iff {r : Row} (h : r.Typed) (κ : Collation) {v : EndState} :
    endStateOf r.endState = some v ↔ r.endState.map κ.key = v.toText.map κ.key := by
  obtain ⟨v', hv'⟩ := h.endState
  rw [hv', endStateOf_toText, Option.some.injEq]
  constructor
  · rintro rfl
    rfl
  · exact κ.toText_inj

theorem typed_default (m : String) : (Row.default m).Typed := ⟨⟨.notStarted, rfl⟩, ⟨.none, rfl⟩⟩

theorem typed_written (x : String × Option String) : (Row.written x).Typed :=
  ⟨(typed_default x.1).taskStatus, (typed_default x.1).endState⟩

theorem Row.Typed.stamp {r : Row} (h : r.Typed) (κ : Collation) (now : ℕ) :
    (stamp κ now r).Typed := by
  unfold Db.stamp
  split
  · exact ⟨h.taskStatus, h.endState⟩
  · split
    · exact ⟨h.taskStatus, h.endState⟩
    · exact h

/-- What an `UPDATE` assigns are constants. -/
theorem Row.Typed.putAll {r : Row} (h : r.Typed) {values : List (String × Option String)}
    (hv : Assigns values) : (r.putAll values).Typed := by
  cases hv with
  | status s => exact ⟨⟨s, rfl⟩, h.endState⟩
  | result s e x => exact ⟨⟨s, rfl⟩, ⟨e, rfl⟩⟩

theorem Row.Typed.act {r r' : Row} (h : r.Typed) {q : BatchQuery} {κ : Collation} {trigger : Bool}
    {now : ℕ} (hr : q.act κ trigger now r = some r') : r'.Typed := by
  unfold BatchQuery.act at hr
  split at hr
  · cases hr
  · rename_i hq
    split at hr
    · obtain rfl := Option.some.inj hr
      have hput := h.putAll (BatchQuery.assigns hq)
      split
      · exact hput.stamp κ now
      · exact hput
    · exact Option.some.inj hr ▸ h

/-! ## Tables with such rows -/

/-- All rows of a table are typed. -/
def Table.Typed (T : Table) : Prop := ∀ r ∈ T.rows, r.Typed

/-- Every table has a name, and its rows are typed. -/
def Database.Typed (server : Server) (d : Database) : Prop :=
  ∀ e ∈ d.tables, server.IsName e.1 ∧ e.2.Typed

theorem Table.Typed.insertRows {T T' : Table} (h : T.Typed) {xs : List (String × Option String)}
    (hx : T.insertRows xs = .ok T') : T'.Typed := by
  unfold Table.insertRows at hx
  split at hx
  · unfold Table.withRows at hx
    split at hx
    · cases hx
      intro r hr
      rcases List.mem_append.mp hr with hr | hr
      · exact h r hr
      · obtain ⟨x, -, rfl⟩ := List.mem_map.mp hr
        exact typed_written x
    · cases hx
  · cases hx

/-- An update or a deletion of rows with these methods. -/
theorem Table.Typed.execute {T T' : Table} (h : T.Typed) (q : BatchQuery) {now : ℕ}
    {methods : List String} {c : Condition} {vs : List (Option String)}
    (hc : ∀ r, selects T.collation c vs r = decide (T.collation.Has methods r)) {t : String}
    (hx : T.execute now (q.values.map Prod.snd ++ vs) (q.statement t c) = .ok T') : T'.Typed := by
  have hrows := (q.rows_next T now methods c vs hc t).1
  have hnext : T.next now (q.values.map Prod.snd ++ vs) (q.statement t c) = T' := by
    unfold Table.next
    rw [hx]
  rw [hnext] at hrows
  intro r hr
  rw [hrows] at hr
  obtain ⟨r₀, hr₀, htouch⟩ := List.mem_filterMap.mp hr
  unfold BatchQuery.touch at htouch
  split at htouch
  · exact (h r₀ hr₀).act htouch
  · exact Option.some.inj htouch ▸ h r₀ hr₀

theorem Database.Typed.replace {server : Server} {d : Database} (h : d.Typed server)
    {t : String} {T : Table} (hT : T.Typed) : (d.replace t T).Typed server := by
  intro e he
  obtain ⟨e₀, he₀, rfl⟩ := List.mem_map.mp he
  split
  · exact ⟨(h e₀ he₀).1, hT⟩
  · exact h e₀ he₀

theorem Database.Typed.find? {server : Server} {d : Database} (h : d.Typed server) {t : String}
    {T : Table} (hT : d.find? t = some T) : server.IsName t ∧ T.Typed :=
  h _ (Database.find?_mem hT)

/-! ## Every query keeps them -/

section

variable {server : Server} {o : Outside} {t : String}

theorem selects_eq (κ : Collation) (m : String) (r : Row) :
    selects κ (.eq "method") [some m] r = decide (κ.Has [m] r) := by
  simp

theorem selects_isIn (κ : Collation) (methods : List String) (r : Row) :
    selects κ (.isIn "method" methods.length) (methods.map some) r =
      decide (κ.Has methods r) := by
  simp

/-- A query that is one update. -/
theorem preserves_update {x : Code Unit} {exec : Table → Except SqlError Table}
    (hno : ¬ o.server.IsName t → Keeps Backend.database x)
    (hrun : o.server.IsName t → ∀ b, x b = b.after t ((b.database.find? t).map exec))
    (hexec : ∀ T T', exec T = .ok T' → T.Typed → T'.Typed) :
    Preserves (fun b => b.database.Typed server) x := by
  intro b hb
  by_cases hn : o.server.IsName t
  · rw [hrun hn b]
    cases hT : b.database.find? t with
    | none => exact hb
    | some T =>
      rw [Option.map_some]
      cases hx : exec T with
      | error e => exact hb
      | ok T' => exact hb.replace (hexec T T' hx (hb.find? hT).2)
  · have hk : (x b).fields.database = b.database := hno hn b
    show (x b).fields.database.Typed server
    rw [hk]
    exact hb

/-- A statement that is refused changes nothing. -/
theorem keeps_refused {sql : String} {bindings : List (ℕ × Option String)}
    (h : ¬ (o.server.IsName t ∧ ∃ st, Sql.parse sql = some st)) :
    Keeps Backend.database (update o t sql bindings) := by
  intro b
  rw [update_refused h]

theorem preserves_createTask (m : String) (params : Option (StringMap String)) :
    Preserves (fun b => b.database.Typed server) (DBCreateTask.perform o m params t) := by
  refine preserves_update (o := o) (fun hn => ?_) (fun hn b => createTask_run hn m params)
    fun T T' hx hT => hT.insertRows hx
  cases params with
  | none => exact keeps_refused fun h => hn h.1
  | some params => exact keeps_refused fun h => hn h.1

/-- A query without a statement. -/
theorem preserves_never {x : Code Unit} (h : Keeps Backend.database x) :
    Preserves (fun b => b.database.Typed server) x := by
  intro b hb
  have hk : (x b).fields.database = b.database := h b
  show (x b).fields.database.Typed server
  rw [hk]
  exact hb

theorem preserves_createTasks (methods : List String) :
    Preserves (fun b => b.database.Typed server) (DBCreateTasks.perform o methods t) := by
  by_cases hm : methods = []
  · subst hm
    refine preserves_never (keeps_refused ?_)
    rintro ⟨hn, st, hst⟩
    exact absurd ((parse_nothing hn).2.2.2.2.1.symm.trans hst) (by simp)
  · exact preserves_update (o := o) (fun hn => keeps_refused fun h => hn h.1)
      (fun hn b => createTasks_run hn hm) fun T T' hx hT => hT.insertRows hx

theorem preserves_createTasks_params (tasks : StringMap (StringMap String)) :
    Preserves (fun b => b.database.Typed server) (DBCreateTasks.performWithParams o tasks t) := by
  by_cases hm : tasks.entries = []
  · refine preserves_never ?_
    unfold DBCreateTasks.performWithParams
    rw [hm]
    refine keeps_refused ?_
    rintro ⟨hn, st, hst⟩
    exact absurd ((parse_nothing hn).2.2.2.2.2.symm.trans hst) (by simp)
  · exact preserves_update (o := o) (fun hn => keeps_refused fun h => hn h.1)
      (fun hn b => createTasks_params_run hn hm) fun T T' hx hT => hT.insertRows hx

theorem preserves_one (q : BatchQuery) (m : String) :
    Preserves (fun b => b.database.Typed server) (q.one o m t) := by
  refine preserves_update (o := o) (fun hn => ?_) (fun hn b => q.one_run hn m b)
    fun T T' hx hT => hT.execute q (selects_eq T.collation m) hx
  cases q <;> exact keeps_refused fun h => hn h.1

theorem preserves_all (q : BatchQuery) (methods : List String) :
    Preserves (fun b => b.database.Typed server) (q.all o methods t) := by
  by_cases hm : methods = []
  · subst hm
    refine preserves_never ?_
    rw [q.all_eq]
    refine keeps_refused ?_
    rintro ⟨hn, st, hst⟩
    exact absurd ((q.parse_sql_nil hn).symm.trans hst) (by simp)
  · refine preserves_update (o := o) (fun hn => ?_) (fun hn b => q.all_run hn hm b)
      fun T T' hx hT => hT.execute q (selects_isIn T.collation methods) hx
    rw [q.all_eq]
    exact keeps_refused fun h => hn h.1

/-- The query of any message keeps the tables typed. -/
theorem preserves_query {m : DBMessage} {q : DBQuery} (hq : DBActor.query o m = some q) :
    Preserves (fun b => b.database.Typed server) q.perform := by
  have hunit : ∀ {t : String} {x : Code Unit}, Preserves (fun b => b.database.Typed server) x →
      Preserves (fun b => b.database.Typed server) (DBQuery.ofUnit t x).perform :=
    fun hx => .bind hx fun _ => .pure _
  cases hm : m.reads with
  | some target =>
    obtain ⟨q', hq', hk, -⟩ := query_reading Backend.database o hm
    obtain rfl := Option.some.inj (hq.symm.trans hq')
    intro b hb
    have hkeep : (q.perform b).fields.database = b.database := hk b
    show (q.perform b).fields.database.Typed server
    rw [hkeep]
    exact hb
  | none =>
    cases m with
    | createTask m t => cases hq; exact hunit (preserves_createTask m none)
    | createParametrizedTask m params t =>
      cases hq
      exact hunit (preserves_createTask m (some params))
    | createTasks methods t => cases hq; exact hunit (preserves_createTasks methods)
    | createParametrizedTasks tasks t =>
      cases hq
      exact hunit (preserves_createTasks_params tasks)
    | updateTask m s e x t => cases hq; exact hunit (preserves_one (.updateTasks s e x) m)
    | updateTasks methods s e x t =>
      cases hq
      exact hunit (preserves_all (.updateTasks s e x) methods)
    | updateTaskStatus m s t => cases hq; exact hunit (preserves_one (.updateTasksStatus s) m)
    | updateTasksStatus methods s t =>
      cases hq
      exact hunit (preserves_all (.updateTasksStatus s) methods)
    | deleteTask m t => cases hq; exact hunit (preserves_one .deleteTasks m)
    | deleteTasks methods t => cases hq; exact hunit (preserves_all .deleteTasks methods)
    | connectionTest | unknown => cases hq
    | getTables | generateTextReport | generateJsonReport | countTaskStatus | countEndState
    | getTask | getTasks | getTasksWithStatus => cases hm

/-! ## Every message does -/

/-- A new table is empty. -/
theorem Database.Typed.createTasksTable {b : Backend} (h : b.database.Typed o.server)
    (hf : b.database.find? t = none) :
    (DBCreateTasksTable.perform o.server t b).fields.database.Typed o.server := by
  intro e he
  rw [createTasksTable_tables o.server hf] at he
  split at he
  · rename_i hn
    rcases List.mem_append.mp he with he | he
    · exact h e he
    · obtain rfl := List.mem_singleton.mp he
      exact ⟨hn, fun r hr => by cases hr⟩
  · exact h e he

theorem typed_performQuery {q : DBQuery}
    (hq : Preserves (fun b => b.database.Typed o.server) q.perform) {b : Backend}
    (h : b.database.Typed o.server) :
    (DBActor.performQuery o q b).fields.database.Typed o.server := by
  have hrest : Preserves (fun b => b.database.Typed o.server) (finish q b.next) := by
    refine .bind hq fun msg => .bind ?_ fun _ => .assign fun _ hb => hb
    cases msg with
    | unit => exact .pure _
    | tables | report | countedTaskStatus | countedEndState | task | tasks => exact .perform _
  by_cases hc : o.connects = true
  · rw [performQuery_connected hc]
    split
    · rename_i hnew
      rw [bind_apply]
      have hcreate := Database.Typed.createTasksTable (o := o) (b := b.opened) h hnew.1
      rcases hx : DBCreateTasksTable.perform o.server q.table b.opened with ⟨b', es, e | u⟩
      · rw [hx] at hcreate
        exact hcreate
      · rw [hx] at hcreate
        exact hrest b' hcreate
    · exact hrest b.opened h
  · rw [performQuery_unconnected (by simpa using hc)]
    exact h

/-- **One message keeps all rows typed.** -/
theorem typed_receive (m : DBMessage) {b : Backend} (h : b.database.Typed o.server) :
    (DBActor.receive o m b).fields.database.Typed o.server := by
  cases hq : DBActor.query o m with
  | some q =>
    have hne : m ≠ .connectionTest := by
      rintro rfl
      cases hq
    rw [receive_of_query hq hne]
    exact typed_performQuery (preserves_query hq) h
  | none =>
    cases m with
    | connectionTest =>
      by_cases hc : o.connects = true <;>
        simpa [DBActor.receive, DBActor.connect, hc, DBActor.close, Backend.opened,
          Backend.closed] using h
    | unknown => exact h
    | _ => cases hq

/-- In every run on one server. -/
theorem typed_handled {steps : List (Outside × DBMessage)} (hs : ∀ x ∈ steps, x.1.server = server)
    {b : Backend} (h : b.database.Typed server) : (handled steps b).database.Typed server := by
  induction steps generalizing b with
  | nil => exact h
  | cons step steps ih =>
    obtain ⟨o, m⟩ := step
    have ho : o.server = server := hs (o, m) List.mem_cons_self
    refine ih (fun x hx => hs x (List.mem_cons_of_mem _ hx)) ?_
    rw [← ho] at h ⊢
    exact typed_receive m h

end

/-! ## The counts -/

section

variable {server : Server} {o : Outside} {t : String} {b : Backend} {T : Table}

/-- A query that counts, on a table that is there. -/
theorem receive_count {α : Type} {y : Code α} {g : Table → α} (f : α → Reply) {m : DBMessage}
    (hq : DBActor.query o m = some ⟨false, t, do pure (f (← y))⟩) (hm : m ≠ .connectionTest)
    (hy : y = do pure (g (← tableOf o.server t)))
    (hf : ∀ a, DBActor.answer (f a) = perform (.reply (f a))) (hc : o.connects = true)
    (hn : o.server.IsName t) (hT : b.database.find? t = some T) :
    DBActor.receive o m b =
      ⟨b.opened.closed b.next, [.reply (f (g T))], .ok ()⟩ := by
  subst hy
  have hT' : b.opened.database.find? t = some T := hT
  rw [receive_of_query hq hm, performQuery_connected hc, if_neg (by simp [hT])]
  have htable : tableOf o.server t b.opened = _ := tableOf_run hT'
  rw [if_pos hn] at htable
  simp [finish, htable, hf, DBActor.close]

end

/-- **The counts partition the table**: whatever messages came before, each
of the two replies has every key once, with the number of the rows that
have it, and together all rows of the table. -/
theorem counts_partition {server : Server} {steps : List (Outside × DBMessage)}
    (hs : ∀ x ∈ steps, x.1.server = server) {t : String} {T : Table}
    (hT : (handled steps .initial).database.find? t = some T) {o : Outside}
    (ho : o.server = server) (hc : o.connects = true) :
    (∃ b l, DBActor.receive o (.countTaskStatus t) (handled steps .initial) =
        ⟨b, [.reply (.countedTaskStatus l)], .ok ()⟩ ∧
      Partitions (fun r => statusValueOf r.taskStatus) T.rows l) ∧
    ∃ b l, DBActor.receive o (.countEndState t) (handled steps .initial) =
        ⟨b, [.reply (.countedEndState l)], .ok ()⟩ ∧
      Partitions (fun r => endStateOf r.endState) T.rows l := by
  have htyped : (handled steps .initial).database.Typed server := by
    refine typed_handled hs fun e he => ?_
    cases he
  obtain ⟨hn, hrows⟩ := htyped.find? hT
  rw [← ho] at hn
  constructor
  · refine ⟨_, _, receive_count .countedTaskStatus rfl (by simp)
      (DBCountTaskStatus.perform_eq _ _) (fun _ => rfl) hc hn hT, ?_⟩
    have hstatus : ∀ r ∈ T.rows, statusValueOf r.taskStatus ≠ none := by
      intro r hr
      obtain ⟨v, hv⟩ := (hrows r hr).taskStatus
      simp [hv, statusValueOf_name]
    have hpart := partitions_of (by decide : [TaskStatus.notStarted, .running, .done].Nodup)
      (fun k => by cases k <;> simp) hstatus
    have hcount : ∀ v : TaskStatus, T.countStatus v =
        T.rows.countP fun r => statusValueOf r.taskStatus = some v := by
      intro v
      refine List.countP_congr fun r hr => ?_
      simpa using ((hrows r hr).taskStatus_iff T.collation).symm
    simp only [hcount]
    exact hpart
  · refine ⟨_, _, receive_count .countedEndState rfl (by simp)
      (DBCountEndState.perform_eq _ _) (fun _ => rfl) hc hn hT, ?_⟩
    have hend : ∀ r ∈ T.rows, endStateOf r.endState ≠ none := by
      intro r hr
      obtain ⟨v, hv⟩ := (hrows r hr).endState
      simp [hv, endStateOf_toText]
    have hpart := partitions_of
      (by decide : [EndState.none, .success, .failure, .abandoned, .error].Nodup)
      (fun k => by cases k <;> simp) hend
    have hcount : ∀ v : EndState, T.countEndState v =
        T.rows.countP fun r => endStateOf r.endState = some v := by
      intro v
      refine List.countP_congr fun r hr => ?_
      simpa using ((hrows r hr).endState_iff T.collation).symm
    simp only [hcount]
    exact hpart

/-- Two tasks, one of which has failed. -/
def oneFailure : List (Outside × DBMessage) :=
  [(someOutside, .createTasks ["Suite.first", "Suite.second"] "tasks"),
    (someOutside, .updateTask "Suite.first" .done .failure none "tasks")]

theorem counts_partition_oneFailure : ∃ T,
    (handled oneFailure .initial).database.find? "tasks" = some T ∧
    (∃ b l, DBActor.receive someOutside (.countTaskStatus "tasks") (handled oneFailure .initial) =
        ⟨b, [.reply (.countedTaskStatus l)], .ok ()⟩ ∧
      Partitions (fun r => statusValueOf r.taskStatus) T.rows l) ∧
    ∃ b l, DBActor.receive someOutside (.countEndState "tasks") (handled oneFailure .initial) =
        ⟨b, [.reply (.countedEndState l)], .ok ()⟩ ∧
      Partitions (fun r => endStateOf r.endState) T.rows l := by
  have hsome : ((handled oneFailure .initial).database.find? "tasks").isSome := by decide +kernel
  obtain ⟨T, hT⟩ := Option.isSome_iff_exists.mp hsome
  have hserver : ∀ x ∈ oneFailure, x.1.server = someOutside.server := by
    intro x hx
    rcases List.mem_cons.mp hx with rfl | hx
    · rfl
    · rw [List.mem_singleton.mp hx]
  exact ⟨T, hT, counts_partition hserver hT rfl rfl⟩

end Clustering.Db
