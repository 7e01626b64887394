/-
Clustering.Db.Readers — what the three readers find.

Reading a row is code that only computes (`Computes`): it changes nothing
and returns a value or raises. The value is `Row.taskWith?`, the task a
row stands for; `DBGetTask` takes the method from the message, and
`DBGetTasksWithStatus` the status. On a table, `DBGetTask` finds the task
of the one row with its method, the other two the tasks of the rows they
select, unless one of these cannot be read.
-/
import Clustering.Db.Meaning

namespace Clustering.Db

open Actors Actors.Handler
open Clustering.Worker (TaskStatus)
open Java Sql

/-! ## Code that only computes -/

/-- The code changes nothing, performs nothing, and returns this value or
raises. -/
structure Computes {α : Type} (x : Code α) (v : Option α) : Prop where
  ok : ∀ a, v = some a → ∀ b, x b = ⟨b, [], .ok a⟩
  error : v = none → ∀ b, ∃ e, x b = ⟨b, [], .error e⟩

namespace Computes

variable {α β : Type}

theorem pure (a : α) : Computes (pure a) (some a) where
  ok := by
    rintro _ ⟨⟩ b
    rfl
  error := by rintro ⟨⟩

theorem raise (e : DbThrowable) : Computes (raise e : Code α) none where
  ok := by rintro _ ⟨⟩
  error := fun _ _ => ⟨e, rfl⟩

theorem deref (e : DbThrowable) : ∀ v : Option α, Computes (deref e v) v
  | some a => pure a
  | none => raise e

theorem bind {x : Code α} {v : Option α} {f : α → Code β} {g : α → Option β} (hx : Computes x v)
    (hf : ∀ a, Computes (f a) (g a)) : Computes (x >>= f) (v.bind g) where
  ok := by
    intro c hc b
    obtain ⟨a, ha, hg⟩ := Option.bind_eq_some_iff.mp hc
    rw [bind_apply, hx.ok a ha b, Outcome.andThen_ok, (hf a).ok c hg b]
    rfl
  error := by
    intro hc b
    cases hv : v with
    | none =>
      obtain ⟨e, he⟩ := hx.error hv b
      exact ⟨e, by rw [bind_apply, he]; rfl⟩
    | some a =>
      rw [hv] at hc
      obtain ⟨e, he⟩ := (hf a).error hc b
      exact ⟨e, by rw [bind_apply, hx.ok a hv b, Outcome.andThen_ok, he]; rfl⟩

theorem map {x : Code α} {v : Option α} (hx : Computes x v) (f : α → β) :
    Computes (x >>= fun a => Pure.pure (f a)) (v.map f) := by
  have h := bind hx (f := fun a => Pure.pure (f a)) (g := fun a => some (f a)) fun a => pure _
  cases v with
  | none => exact h
  | some a => exact h

end Computes

/-! ## Reading a row -/

/-- The column `params` as a map, if it can be read as one. -/
def paramsOf : Option String → Option (StringMap String)
  | none => some .empty
  | some column => (pairs (split isSeparator (delete ';' column))).map .ofPairs

def endStateOf : Option String → Option EndState
  | none => some .none
  | some column => EndState.valueOf column

def timestampOf (server : Server) (t : ℕ) : Option (Option Timestamp) :=
  if t = 0 then if server.readsZeroDates then some none else none
  else some (some (server.calendar t))

/-- The task a row stands for, if its status and the other columns can be
read. -/
def Row.taskWith? (server : Server) (method : String) (status : Option TaskStatus) (r : Row) :
    Option RequestedTask :=
  (paramsOf r.params).bind fun params =>
    status.bind fun taskStatus =>
      (endStateOf r.endState).bind fun endState =>
        (timestampOf server r.startedAt).bind fun startedAt =>
          (timestampOf server r.finishedAt).bind fun finishedAt =>
            some ⟨method, params, taskStatus, endState, r.taskResult, startedAt, finishedAt,
              r.timeSpent.getD 0⟩

/-- With the status of its own column. -/
def Row.task? (server : Server) (method : String) (r : Row) : Option RequestedTask :=
  r.taskWith? server method (statusValueOf r.taskStatus)

theorem Row.taskWith?_method {server : Server} {m : String} {v : Option TaskStatus} {r : Row}
    {task : RequestedTask} (h : r.taskWith? server m v = some task) : task.method = m := by
  simp only [Row.taskWith?, Option.bind_eq_some_iff] at h
  obtain ⟨_, -, _, -, _, -, _, -, _, -, htask⟩ := h
  cases htask
  rfl

theorem computes_readParams : ∀ column, Computes (readParams column) (paramsOf column)
  | none => .pure _
  | some _ => (Computes.deref _ _).map _

theorem computes_readEndState : ∀ column, Computes (readEndState column) (endStateOf column)
  | none => .pure _
  | some _ => .deref _ _

theorem computes_getTimestamp (server : Server) (t : ℕ) :
    Computes (getTimestamp server t) (timestampOf server t) := by
  unfold getTimestamp timestampOf
  split
  · split
    · exact .pure _
    · exact .raise _
  · exact .pure _

/-- **A reader computes the task of its row,** whether it reads the status
or knows it. -/
theorem computes_readTask (server : Server) (method : String) {status : Code TaskStatus}
    {v : Option TaskStatus} (hs : Computes status v) (r : Row) :
    Computes (readTask server method status r) (r.taskWith? server method v) :=
  (computes_readParams _).bind fun _ => hs.bind fun _ => (computes_readEndState _).bind fun _ =>
    (computes_getTimestamp _ _).bind fun _ => (computes_getTimestamp _ _).bind fun _ => .pure _

theorem computes_readStatus (r : Row) :
    Computes (readStatus r) (statusValueOf r.taskStatus) := .deref _ _

theorem computes_readList {read : Row → Code RequestedTask} {g : Row → Option RequestedTask} :
    ∀ {rows : List Row}, (∀ r ∈ rows, Computes (read r) (g r)) → ∀ taskList,
      Computes (readList read rows taskList) ((rows.mapM g).map fun l => l.reverse ++ taskList)
  | [], _, _ => .pure _
  | r :: rest, h, taskList => by
      have hr := h r List.mem_cons_self
      have ih := fun task => computes_readList (fun x hx => h x (List.mem_cons_of_mem _ hx))
        (task :: taskList)
      have hbind := hr.bind ih
      rw [List.mapM_cons]
      cases hg : g r with
      | none =>
        rw [hg] at hbind
        exact hbind
      | some task =>
        rw [hg] at hbind
        have hmap : (rest.mapM g).map (fun l => l.reverse ++ task :: taskList) =
            (Option.bind (rest.mapM g) fun l => some (task :: l)).map
              fun l => l.reverse ++ taskList := by
          cases rest.mapM g <;> simp
        rw [Option.bind_some, hmap] at hbind
        exact hbind

theorem mapM_eq_none {α β : Type} {g : α → Option β} {xs : List α} :
    xs.mapM g = none ↔ ∃ x ∈ xs, g x = none := by
  induction xs with
  | nil => simp
  | cons x xs ih =>
    rw [List.mapM_cons]
    cases hg : g x with
    | none => simp [hg]
    | some y =>
      cases hm : xs.mapM g with
      | none => simpa [hg] using ih.mp hm
      | some ys =>
        have hno := ih.not.mp (by simp [hm])
        simpa [hg] using hno

theorem mem_mapM {α β : Type} {g : α → Option β} {xs : List α} {ys : List β}
    (h : xs.mapM g = some ys) {y : β} : y ∈ ys ↔ ∃ x ∈ xs, g x = some y := by
  induction xs generalizing ys with
  | nil =>
    cases h
    simp
  | cons x xs ih =>
    rw [List.mapM_cons] at h
    cases hg : g x with
    | none => simp [hg] at h
    | some z =>
      cases hm : xs.mapM g with
      | none => simp [hg, hm] at h
      | some zs =>
        obtain rfl : z :: zs = ys := by simpa [hg, hm] using h
        simp [ih hm, hg, eq_comm]

/-! ## The readers -/

/-- What a reader of several rows answers, if it does not raise. -/
def tasksOf (read : Row → Option RequestedTask) (rows : List Row) :
    Option (Option (List RequestedTask)) :=
  if rows.isEmpty then some none else (rows.mapM read).map fun l => some l.reverse

theorem tasksOf_eq_none {read : Row → Option RequestedTask} {rows : List Row} :
    tasksOf read rows = none ↔ ∃ r ∈ rows, read r = none := by
  unfold tasksOf
  by_cases hrows : rows = []
  · simp [hrows]
  · rw [if_neg (by simpa using hrows), Option.map_eq_none_iff, mapM_eq_none]

theorem mem_tasksOf {read : Row → Option RequestedTask} {rows : List Row}
    {tasks : Option (List RequestedTask)} (h : tasksOf read rows = some tasks)
    {task : RequestedTask} : task ∈ tasks.getD [] ↔ ∃ r ∈ rows, read r = some task := by
  unfold tasksOf at h
  by_cases hrows : rows = []
  · rw [if_pos (by simp [hrows])] at h
    obtain rfl := Option.some.inj h
    simp [hrows]
  · rw [if_neg (by simpa using hrows)] at h
    obtain ⟨l, hl, rfl⟩ := Option.map_eq_some_iff.mp h
    show task ∈ l.reverse ↔ _
    rw [List.mem_reverse, mem_mapM hl]

theorem computes_readAll {read : Row → Code RequestedTask} {g : Row → Option RequestedTask}
    (h : ∀ r, Computes (read r) (g r)) (rows : List Row) :
    Computes (if rows.isEmpty then pure none else do
        let taskList ← readList read rows []
        pure (some taskList)) (tasksOf g rows) := by
  unfold tasksOf
  split
  · exact .pure _
  · have hlist := (computes_readList (fun r (_ : r ∈ rows) => h r) []).map some
    simpa [Option.map_map, Function.comp_def] using hlist

section

variable {server : Server} {t : String} {b : Backend} {T : Table}

/-- The three steps of a query and what it does with the rows. -/
theorem select_bind {α : Type} (sql : String) (bindings : List (ℕ × Option String))
    (f : List Row → Code α) :
    (do
      let p ← prepareStatement server t sql
      let rows ← executeQuery (← setStrings p bindings)
      f rows) = select server t sql bindings >>= f := by
  simp only [select, Handler.bind_assoc]

theorem after_select {α : Type} {x : Code (List Row)} {rows : List Row}
    (h : x b = ⟨b, [], .ok rows⟩) (f : List Row → Code α) : (x >>= f) b = f rows b := by
  rw [bind_apply, h]
  rfl

theorem getTasks_run (h : server.IsName t) (hT : b.database.find? t = some T) {methods : List String}
    (hm : methods ≠ []) :
    ∃ x, DBGetTasks.perform server methods t b = x b ∧
      Computes x (tasksOf (fun r => r.task? server r.method)
        (T.rows.filter fun r => T.collation.Has methods r)) := by
  obtain ⟨n, hn⟩ : ∃ n, methods.length = n + 1 :=
    Nat.exists_eq_succ_of_ne_zero (by simpa using hm)
  have hsel := select_run (b := b) (methods.map some) h (hn ▸ parse_getTasks h n)
    (by simp [Condition.placeholders, hn]) (bindings_methods methods)
  rw [hT] at hsel
  simp only [selects_methods] at hsel
  refine ⟨_, ?_, computes_readAll (fun r => computes_readTask server r.method
    (computes_readStatus r) r) _⟩
  rw [DBGetTasks.perform, select_bind]
  exact after_select hsel _

/-- The rows with a given method: at most one. -/
theorem Table.filter_method (T : Table) (m : String) :
    (T.rows.filter fun r => T.collation.Has [m] r) = [] ∨
      ∃ r ∈ T.rows, T.collation.key r.method = T.collation.key m ∧
        (T.rows.filter fun r => T.collation.Has [m] r) = [r] := by
  simp only [Collation.has_singleton]
  have hu := T.unique
  generalize T.rows = rows at hu
  induction rows with
  | nil => exact .inl rfl
  | cons x rows ih =>
    rw [List.map_cons, List.nodup_cons] at hu
    by_cases hx : T.collation.key x.method = T.collation.key m
    · have hno : (rows.filter fun r => T.collation.key r.method = T.collation.key m) = [] := by
        refine List.filter_eq_nil_iff.mpr fun r hr hrm => hu.1 ?_
        rw [hx, ← of_decide_eq_true hrm]
        exact List.mem_map_of_mem hr
      exact .inr ⟨x, List.mem_cons_self, hx, by simp [hx, hno]⟩
    · rcases ih hu.2 with h | ⟨r, hr, hrm, h⟩
      · exact .inl (by simpa [hx] using h)
      · exact .inr ⟨r, List.mem_cons_of_mem _ hr, hrm, by simpa [hx] using h⟩

theorem getTask_run (h : server.IsName t) (hT : b.database.find? t = some T) (m : String) :
    ∃ x, DBGetTask.perform server m t b = x b ∧
      Computes x (match T.rows.filter fun r => T.collation.Has [m] r with
        | [] => some none
        | r :: _ => (r.task? server m).map some) := by
  have hsel := select_run (b := b) [some m] h (parse_getTask h) rfl rfl
  rw [hT] at hsel
  simp only [selects_method] at hsel
  refine ⟨DBGetTask.readLast server m (T.rows.filter fun r => T.collation.Has [m] r) none,
    ?_, ?_⟩
  · rw [DBGetTask.perform, select_bind]
    exact after_select hsel _
  · rcases T.filter_method m with hf | ⟨r, -, -, hf⟩
    · rw [hf]
      exact .pure _
    · rw [hf]
      exact (computes_readTask server m (computes_readStatus r) r).map some

/-- The row has this status, for the server. -/
def Table.HasStatus (T : Table) (status : TaskStatus) (r : Row) : Prop :=
  T.collation.key r.taskStatus = T.collation.key (statusName status)

instance (T : Table) (status : TaskStatus) : DecidablePred (T.HasStatus status) :=
  fun _ => inferInstanceAs (Decidable (_ = _))

theorem getTasksWithStatus_run (h : server.IsName t) (hT : b.database.find? t = some T)
    (status : TaskStatus) :
    ∃ x, DBGetTasksWithStatus.perform server status t b = x b ∧
      Computes x (tasksOf (fun r => r.taskWith? server r.method (some status))
        (T.rows.filter fun r => T.HasStatus status r)) := by
  have hsel := select_run (b := b) [some (statusName status)] h (parse_getTasksWithStatus h)
    rfl rfl
  rw [hT] at hsel
  simp only [selects_status] at hsel
  refine ⟨_, ?_, computes_readAll (fun r => computes_readTask server r.method (.pure status) r) _⟩
  rw [DBGetTasksWithStatus.perform, select_bind]
  exact after_select hsel _

end

theorem Computes.result_error {α : Type} {x : Code α} {v : Option α} (h : Computes x v)
    (b : Backend) : (∃ e, (x b).result = .error e) ↔ v = none := by
  cases hv : v with
  | none =>
    obtain ⟨e, he⟩ := h.error hv b
    simp [he]
  | some a => simp [h.ok a hv b]

theorem Computes.result_ok {α : Type} {x : Code α} {v : Option α} (h : Computes x v)
    (b : Backend) (a : α) : (x b).result = .ok a ↔ v = some a := by
  cases hv : v with
  | none =>
    obtain ⟨e, he⟩ := h.error hv b
    simp [he]
  | some c => simp [h.ok c hv b]

/-- What `DBGetTask` finds for a method. -/
theorem getTask_result {server : Server} {t : String} {b : Backend} {T : Table}
    (h : server.IsName t) (hT : b.database.find? t = some T) (m : String) :
    ((∃ e, (DBGetTask.perform server m t b).result = .error e) ↔
      ∃ r ∈ T.rows, T.collation.key r.method = T.collation.key m ∧ r.task? server m = none) ∧
    ∀ task, (DBGetTask.perform server m t b).result = .ok (some task) ↔
      ∃ r ∈ T.rows, T.collation.key r.method = T.collation.key m ∧
        r.task? server m = some task := by
  obtain ⟨x, hx, hc⟩ := getTask_run h hT m
  rw [hx, hc.result_error]
  have hmem : ∀ r, r ∈ T.rows ∧ T.collation.key r.method = T.collation.key m ↔
      r ∈ T.rows.filter fun r => T.collation.Has [m] r := by
    simp
  rcases T.filter_method m with hf | ⟨r, -, hrm, hf⟩
  · rw [hf] at hmem hc ⊢
    have hno : ∀ r ∈ T.rows, T.collation.key r.method ≠ T.collation.key m :=
      fun r hr hrm => by simpa using (hmem r).mp ⟨hr, hrm⟩
    refine ⟨⟨by rintro ⟨⟩, fun ⟨r, hr, hrm, _⟩ => absurd hrm (hno r hr)⟩, fun task => ?_⟩
    rw [hc.result_ok]
    exact ⟨by rintro ⟨⟩, fun ⟨r, hr, hrm, _⟩ => absurd hrm (hno r hr)⟩
  · rw [hf] at hmem hc ⊢
    have hone : ∀ p : Row → Prop,
        (∃ r' ∈ T.rows, T.collation.key r'.method = T.collation.key m ∧ p r') ↔ p r := by
      intro p
      constructor
      · rintro ⟨r', hr', hrm', hp⟩
        obtain rfl : r' = r := by simpa using (hmem r').mp ⟨hr', hrm'⟩
        exact hp
      · intro hp
        obtain ⟨hr, -⟩ := (hmem r).mpr List.mem_cons_self
        exact ⟨r, hr, hrm, hp⟩
    rw [hone]
    refine ⟨by simp, fun task => ?_⟩
    rw [hc.result_ok, hone]
    simp

end Clustering.Db
