/-
Clustering.Db.Params — task parameters, written and read back.

A map is written as `name=value; ` for each entry. Reading deletes every
`;`, splits at `=` and at blanks, drops the empty pieces at the end and
groups the rest by two. `Encodable` says for which maps that gives the map
again. An empty value is no harm in the middle, where an empty piece
stands for it, but is lost at the end.

`round_trip_iff` puts the writers and the readers around it.
-/
import Clustering.Db.Readers
import Clustering.Db.Reading
import Mathlib.Data.List.Perm.Subperm

namespace Clustering.Db

open Actors Actors.Handler
open Clustering.Worker (TaskStatus)
open Java Sql

/-! ## The text -/

/-- No character that the format uses for itself. -/
def PlainText (s : String) : Prop := ∀ c ∈ s.toList, c ≠ '=' ∧ c ≠ ' ' ∧ c ≠ ';'

instance : DecidablePred PlainText := fun s =>
  List.decidableBAll (fun c => c ≠ '=' ∧ c ≠ ' ' ∧ c ≠ ';') s.toList

/-- The maps that can be read back. -/
structure Encodable (m : StringMap String) : Prop where
  nonempty : m.entries ≠ []
  plain : ∀ e ∈ m.entries, PlainText e.1 ∧ PlainText e.2
  last : ∀ e ∈ m.entries.getLast?, e.2 ≠ ""

/-- The characters of a text that reading keeps. -/
def kept (s : String) : List Char := s.toList.filter fun c => c ≠ ';'

theorem kept_plain {s : String} (h : PlainText s) : kept s = s.toList :=
  List.filter_eq_self.mpr fun c hc => by simpa using (h c hc).2.2

/-- What is split. -/
def keptText (es : List (String × String)) : List Char :=
  es.flatMap fun e => kept e.1 ++ '=' :: (kept e.2 ++ [' '])

theorem delete_paramsAsString (m : StringMap String) :
    (delete ';' (paramsAsString m)).toList = keptText m.entries := by
  have hgen : ∀ (es : List (String × String)) (s : String),
      ((es.foldl (fun s e => s ++ (e.1 ++ "=" ++ e.2 ++ "; ")) s).toList.filter fun c => c ≠ ';') =
        kept s ++ keptText es := by
    intro es
    induction es with
    | nil => simp [keptText, kept]
    | cons e es ih =>
      intro s
      rw [List.foldl_cons, ih]
      simp [kept, keptText]
  rw [delete, String.toList_ofList, paramsAsString, hgen]
  simp [kept]

/-! ## The pieces -/

/-- The pieces between the separators. -/
def piecesOf (es : List (String × String)) : List (List Char) :=
  (keptText es).splitOnP isSeparator

theorem plain_separator {s : String} (h : PlainText s) : ∀ c ∈ s.toList, isSeparator c = false := by
  intro c hc
  simp [isSeparator, (h c hc).1, (h c hc).2.1]

/-- Plain entries are the pieces, with an empty one at the end. -/
theorem piecesOf_plain : ∀ {es : List (String × String)},
    (∀ e ∈ es, PlainText e.1 ∧ PlainText e.2) →
    piecesOf es = (es.flatMap fun e => [e.1.toList, e.2.toList]) ++ [[]]
  | [], _ => rfl
  | e :: es, h => by
      obtain ⟨hk, hv⟩ := h e List.mem_cons_self
      have ih := piecesOf_plain fun x hx => h x (List.mem_cons_of_mem _ hx)
      unfold piecesOf at ih ⊢
      have htext : keptText (e :: es) =
          e.1.toList ++ '=' :: (e.2.toList ++ ' ' :: keptText es) := by
        simp [keptText, kept_plain hk, kept_plain hv]
      rw [htext, List.splitOnP_append_cons_of_forall_mem (plain_separator hk) _ rfl,
        List.splitOnP_append_cons_of_forall_mem (plain_separator hv) _ rfl, ih]
      rfl

/-- A piece holds no character of the format. -/
theorem plain_piece {es : List (String × String)} {w : List Char} (hw : w ∈ piecesOf es) :
    PlainText (String.ofList w) := by
  intro c hc
  rw [String.toList_ofList] at hc
  obtain ⟨hmem, hsep⟩ := mem_splitOnP hw c hc
  have hsemi : c ≠ ';' ∨ c = '=' ∨ c = ' ' := by
    obtain ⟨e, -, hce⟩ := List.mem_flatMap.mp hmem
    simp [kept] at hce
    tauto
  simp [isSeparator] at hsep
  tauto

/-- What the readers make of the column. -/
theorem paramsOf_text (m : StringMap String) :
    paramsOf (some (paramsAsString m)) =
      match piecesOf m.entries with
      | [_] => none
      | pieces => (pairs ((pieces.rdropWhile fun w => w.isEmpty).map String.ofList)).map .ofPairs := by
  simp only [paramsOf, split, delete_paramsAsString]
  show Option.map _ (pairs (match piecesOf m.entries with | [_] => _ | _ => _)) = _
  split <;> rfl

/-! ## Which maps survive -/

theorem Encodable.paramsOf {m : StringMap String} (h : Encodable m) :
    ∃ m', paramsOf (some (paramsAsString m)) = some m' ∧ m'.Same m := by
  refine ⟨.ofPairs m.entries, ?_, StringMap.same_ofPairs m⟩
  obtain ⟨es, e, hes⟩ := (List.eq_nil_or_concat m.entries).resolve_left h.nonempty
  have hlast : e.2 ≠ "" := h.last e (by simp [hes])
  have hdrop : (piecesOf m.entries).rdropWhile (fun w => w.isEmpty) =
      m.entries.flatMap fun e => [e.1.toList, e.2.toList] := by
    rw [piecesOf_plain h.plain, List.rdropWhile_concat_pos _ _ _ rfl, hes]
    simp only [List.concat_eq_append, List.flatMap_append, List.flatMap_singleton]
    rw [show [e.1.toList, e.2.toList] = [e.1.toList] ++ [e.2.toList] from rfl,
      ← List.append_assoc]
    exact List.rdropWhile_concat_neg _ _ _ (by simpa using hlast)
  rw [paramsOf_text]
  split
  · rename_i w hw
    rw [piecesOf_plain h.plain, hes] at hw
    have := congrArg List.length hw
    simp at this
  · rw [hdrop]
    refine congrArg (Option.map StringMap.ofPairs) (pairs_eq_some.mpr ?_)
    rw [List.map_flatMap]
    simp

theorem encodable_of_paramsOf {m m' : StringMap String}
    (h : paramsOf (some (paramsAsString m)) = some m') (hsame : m'.Same m) : Encodable m := by
  rw [paramsOf_text] at h
  split at h
  · cases h
  rename_i hpieces
  obtain ⟨ps, hps, rfl⟩ := Option.map_eq_some_iff.mp h
  have hflat := pairs_eq_some.mp hps
  -- every entry of the map is one of the pairs
  have hmem : ∀ e ∈ m.entries, e ∈ ps := fun e he =>
    StringMap.mem_ofPairs ((hsame e.1).trans (StringMap.get?_eq_some.mpr he))
  have hpiece : ∀ x ∈ ps.flatMap (fun e => [e.1, e.2]), PlainText x := by
    intro x hx
    rw [← hflat] at hx
    obtain ⟨w, hw, rfl⟩ := List.mem_map.mp hx
    exact plain_piece ((List.rdropWhile_prefix _ _).subset hw)
  have hplain : ∀ e ∈ m.entries, PlainText e.1 ∧ PlainText e.2 := by
    intro e he
    exact ⟨hpiece _ (List.mem_flatMap.mpr ⟨e, hmem e he, by simp⟩),
      hpiece _ (List.mem_flatMap.mpr ⟨e, hmem e he, by simp⟩)⟩
  refine ⟨?_, hplain, ?_⟩
  · intro hnil
    exact hpieces [] (by rw [hnil]; rfl)
  · -- an empty last value leaves too few pieces
    intro e he hempty
    obtain ⟨es, hes⟩ := List.getLast?_eq_some_iff.mp he
    have hdrop : ((piecesOf m.entries).rdropWhile fun w => w.isEmpty).length ≤
        2 * es.length + 1 := by
      rw [piecesOf_plain hplain, List.rdropWhile_concat_pos _ _ _ rfl, hes]
      simp only [List.flatMap_append, List.flatMap_singleton, hempty]
      rw [show [e.1.toList, "".toList] = [e.1.toList] ++ [[]] from rfl, ← List.append_assoc,
        List.rdropWhile_concat_pos _ _ _ rfl]
      refine (List.rdropWhile_prefix _ _).length_le.trans ?_
      simp
      omega
    have hlen := congrArg List.length hflat
    rw [List.length_map, length_flatMap_pair] at hlen
    have hsub : m.entries.length ≤ ps.length :=
      (List.subperm_of_subset (List.Nodup.of_map _ m.nodup) hmem).length_le
    rw [hes, List.length_append] at hsub
    simp at hsub
    omega

/-! ## Writing -/

theorem written_method (κ : Collation) (xs : List (String × Option String)) :
    (xs.map Row.written).map (fun r => κ.key r.method) = xs.map fun x => κ.key x.1 := by
  rw [List.map_map]
  rfl

/-- New methods are inserted. -/
theorem insertRows_fresh {T : Table} {xs : List (String × Option String)}
    (hfit : ∀ x ∈ xs, FitsColumns x) (hnodup : (xs.map fun x => T.collation.key x.1).Nodup)
    (hfresh : ∀ x ∈ xs, T.collation.key x.1 ∉ T.rows.map fun r => T.collation.key r.method) :
    ∃ T', T.insertRows xs = .ok T' ∧ T'.collation = T.collation ∧
      T'.rows = T.rows ++ xs.map Row.written := by
  have hu : ((T.rows ++ xs.map Row.written).map fun r => T.collation.key r.method).Nodup := by
    rw [List.map_append, written_method, List.nodup_append]
    refine ⟨T.unique, hnodup, ?_⟩
    rintro k hk k' hk' rfl
    obtain ⟨x, hx, rfl⟩ := List.mem_map.mp hk'
    exact hfresh x hx hk
  exact ⟨⟨_, _, hu, T.trigger⟩, by rw [Table.insertRows, if_pos hfit]; exact dif_pos hu, rfl, rfl⟩

/-! ## Reading -/

inductive Reader where
  | getTask
  /-- With all methods it is asked for. -/
  | getTasks (methods : List String)
  | getTasksWithStatus
  deriving DecidableEq, Repr

namespace Reader

/-- The tasks a reader finds when it is asked for a new task, by its
method, among others or by its status. `none` is an exception. -/
def found (rd : Reader) (server : Server) (t m : String) (b : Backend) :
    Option (List RequestedTask) :=
  match rd with
  | getTask =>
      match (DBGetTask.perform server m t b).result with
      | .ok task => some task.toList
      | .error _ => none
  | getTasks methods =>
      match (DBGetTasks.perform server methods t b).result with
      | .ok tasks => some (tasks.getD [])
      | .error _ => none
  | getTasksWithStatus =>
      match (DBGetTasksWithStatus.perform server .notStarted t b).result with
      | .ok tasks => some (tasks.getD [])
      | .error _ => none

/-- The task is one of those the reader is asked for. -/
def AsksFor (rd : Reader) (m : String) : Prop :=
  match rd with
  | getTasks methods => m ∈ methods
  | getTask | getTasksWithStatus => True

/-- The reader succeeds, and the task has the parameters again. -/
def YieldsBack (rd : Reader) (server : Server) (t m : String) (params : StringMap String)
    (b : Backend) : Prop :=
  ∃ tasks, rd.found server t m b = some tasks ∧
    ∃ task ∈ tasks, task.method = m ∧ task.params.Same params

/-- Whether the reader reads a row when it is asked for the task `m`. -/
def Asks (rd : Reader) (κ : Collation) (m : String) (r : Row) : Prop :=
  match rd with
  | getTask => κ.Has [m] r
  | getTasks methods => κ.Has methods r
  | getTasksWithStatus => κ.key r.taskStatus = κ.key (statusName .notStarted)

/-- What the reader makes of a row. -/
def read (rd : Reader) (server : Server) (m : String) (r : Row) : Option RequestedTask :=
  match rd with
  | getTask => r.task? server m
  | getTasks _ => r.task? server r.method
  | getTasksWithStatus => r.taskWith? server r.method (some .notStarted)

/-- **A reader finds the tasks of the rows it reads,** unless one of them
cannot be read. -/
theorem found_eq_some (rd : Reader) {server : Server} {t m : String} {b : Backend} {T : Table}
    (h : server.IsName t) (hT : b.database.find? t = some T) (hm : rd.AsksFor m) :
    ((∃ tasks, rd.found server t m b = some tasks) ↔
      ∀ r ∈ T.rows, rd.Asks T.collation m r → rd.read server m r ≠ none) ∧
    ∀ tasks, rd.found server t m b = some tasks → ∀ task, task ∈ tasks ↔
      ∃ r ∈ T.rows, rd.Asks T.collation m r ∧ rd.read server m r = some task := by
  -- the readers of several rows
  have hlist : ∀ {x : Code (Option (List RequestedTask))} {read : Row → Option RequestedTask}
      {p : Row → Prop} [DecidablePred p], Computes x (tasksOf read (T.rows.filter fun r => p r)) →
      ((∃ tasks, (match (x b).result with
          | .ok tasks => some (tasks.getD [])
          | .error _ => none) = some tasks) ↔ ∀ r ∈ T.rows, p r → read r ≠ none) ∧
      ∀ tasks, (match (x b).result with
          | .ok tasks => some (tasks.getD [])
          | .error _ => none) = some tasks → ∀ task, task ∈ tasks ↔
        ∃ r ∈ T.rows, p r ∧ read r = some task := by
    intro x read p _ hc
    cases hv : tasksOf read (T.rows.filter fun r => p r) with
    | none =>
      obtain ⟨e, he⟩ := (hc.result_error b).mpr hv
      obtain ⟨r, hr, hbad⟩ := tasksOf_eq_none.mp hv
      obtain ⟨hr, hp⟩ := List.mem_filter.mp hr
      rw [he]
      exact ⟨⟨by rintro ⟨_, ⟨⟩⟩, fun h => absurd hbad (h r hr (by simpa using hp))⟩, by rintro _ ⟨⟩⟩
    | some tasks =>
      rw [(hc.result_ok b tasks).mpr hv]
      refine ⟨⟨fun _ r hr hp hbad => ?_, fun _ => ⟨_, rfl⟩⟩, ?_⟩
      · have hin : r ∈ T.rows.filter fun r => p r := List.mem_filter.mpr ⟨hr, decide_eq_true hp⟩
        have hnone := tasksOf_eq_none.mpr ⟨r, hin, hbad⟩
        rw [hv] at hnone
        cases hnone
      · rintro _ ⟨⟩ task
        rw [mem_tasksOf hv]
        simp [and_assoc]
  cases rd with
  | getTask =>
    obtain ⟨herror, hok⟩ := getTask_result h hT m
    simp only [found, Asks, read, Collation.has_singleton]
    cases hres : (DBGetTask.perform server m t b).result with
    | error e =>
      obtain ⟨r, hr, hrm, hbad⟩ := herror.mp ⟨e, hres⟩
      exact ⟨⟨by rintro ⟨_, ⟨⟩⟩, fun hgood => absurd hbad (hgood r hr hrm)⟩, by rintro _ ⟨⟩⟩
    | ok task =>
      refine ⟨⟨fun _ r hr hrm hbad => ?_, fun _ => ⟨_, rfl⟩⟩, ?_⟩
      · obtain ⟨e, he⟩ := herror.mpr ⟨r, hr, hrm, hbad⟩
        rw [hres] at he
        cases he
      · rintro _ ⟨⟩ task'
        have htask := hok task'
        rw [hres] at htask
        rw [← htask]
        simp
  | getTasks methods =>
    obtain ⟨x, hx, hc⟩ := getTasks_run h hT (List.ne_nil_of_mem hm)
    have hall := hlist hc
    simp only [found, hx]
    exact hall
  | getTasksWithStatus =>
    obtain ⟨x, hx, hc⟩ := getTasksWithStatus_run h hT .notStarted
    have hall := hlist hc
    simp only [found, hx]
    exact hall

/-! ## The round trip -/

theorem taskWith?_written {server : Server} (hz : server.readsZeroDates = true)
    (x : String × Option String) (m : String) :
    (Row.written x).taskWith? server m (some .notStarted) =
      (paramsOf x.2).map fun params => ⟨m, params, .notStarted, .none, none, none, none, 0⟩ := by
  have htime : timestampOf server 0 = some none := by simp [timestampOf, hz]
  unfold Row.taskWith?
  cases hp : paramsOf x.2 with
  | none => simp [Row.written, hp]
  | some params => simp [Row.written, Row.default, hp, htime, endStateOf]

/-- Whoever reads a new row knows its status. -/
theorem read_written (rd : Reader) (server : Server) (m : String) (x : String × Option String) :
    ∃ m', rd.read server m (Row.written x) =
      (Row.written x).taskWith? server m' (some .notStarted) ∧ (m = x.1 → m' = x.1) := by
  have hstatus : statusValueOf (Row.written x).taskStatus = some .notStarted := rfl
  cases rd with
  | getTask => exact ⟨m, by rw [← hstatus]; rfl, id⟩
  | getTasks methods => exact ⟨x.1, by rw [← hstatus]; rfl, fun _ => rfl⟩
  | getTasksWithStatus => exact ⟨x.1, rfl, fun _ => rfl⟩

/-- A task that is found with the method `m` comes from a row with this
method. -/
theorem key_of_read {rd : Reader} {server : Server} {κ : Collation} {m : String} {r : Row}
    {task : RequestedTask} (ha : rd.Asks κ m r) (h : rd.read server m r = some task)
    (hm : task.method = m) : κ.key r.method = κ.key m := by
  cases rd with
  | getTask => exact (κ.has_singleton m r).mp ha
  | getTasks methods => rw [← (Row.taskWith?_method h).symm.trans hm]
  | getTasksWithStatus => rw [← (Row.taskWith?_method h).symm.trans hm]

/-- **A task that was written is found again with its parameters if they
are encodable and the reader can read what else it reads.** -/
theorem yieldsBack_iff (rd : Reader) {server : Server} {t : String} {b : Backend} {T : Table}
    (h : server.IsName t) (hT : b.database.find? t = some T) (hz : server.readsZeroDates = true)
    {m : String} {params : StringMap String} (hm : rd.AsksFor m)
    (hmem : Row.written (m, some (paramsAsString params)) ∈ T.rows) :
    rd.YieldsBack server t m params b ↔ Encodable params ∧
      ∀ r ∈ T.rows, rd.Asks T.collation m r → T.collation.key r.method ≠ T.collation.key m →
        rd.read server m r ≠ none := by
  obtain ⟨hfound, htasks⟩ := rd.found_eq_some h hT hm
  have hone : ∀ r ∈ T.rows, T.collation.key r.method = T.collation.key m →
      r = Row.written (m, some (paramsAsString params)) :=
    fun r hr hrm => List.inj_on_of_nodup_map T.unique hr hmem hrm
  have hasks : rd.Asks T.collation m (Row.written (m, some (paramsAsString params))) := by
    cases rd with
    | getTask => exact (T.collation.has_singleton _ _).mpr rfl
    | getTasks methods => exact List.mem_map_of_mem hm
    | getTasksWithStatus => rfl
  obtain ⟨m', hread, hm'⟩ := rd.read_written server m (m, some (paramsAsString params))
  obtain rfl : m' = m := hm' rfl
  rw [taskWith?_written hz] at hread
  constructor
  · rintro ⟨tasks, hsome, task, hin, hmethod, hsame⟩
    have hgood := hfound.mp ⟨tasks, hsome⟩
    refine ⟨?_, fun r hr ha _ => hgood r hr ha⟩
    obtain ⟨r, hr, ha, hrt⟩ := (htasks tasks hsome task).mp hin
    obtain rfl := hone r hr (key_of_read ha hrt hmethod)
    rw [hread] at hrt
    obtain ⟨ps, hps, rfl⟩ := Option.map_eq_some_iff.mp hrt
    exact encodable_of_paramsOf hps hsame
  · rintro ⟨henc, hothers⟩
    obtain ⟨ps, hps, hsame⟩ := henc.paramsOf
    rw [hps] at hread
    obtain ⟨tasks, hsome⟩ := hfound.mpr fun r hr ha => by
      by_cases hrm : T.collation.key r.method = T.collation.key m'
      · obtain rfl := hone r hr hrm
        rw [hread]
        simp
      · exact hothers r hr ha hrm
    exact ⟨tasks, hsome, _, (htasks tasks hsome _).mpr ⟨_, hmem, hasks, hread⟩, rfl, hsame⟩

end Reader

/-- The row `CreateParametrizedTask` writes for a task. -/
def newTask (x : String × StringMap String) : String × Option String :=
  (x.1, some (paramsAsString x.2))

/-- The tasks can be inserted: they fit their columns and are new. -/
structure Insertable (T : Table) (tasks : List (String × StringMap String)) : Prop where
  fits : ∀ x ∈ tasks, FitsColumns (newTask x)
  nodup : (tasks.map fun x => T.collation.key x.1).Nodup
  fresh : ∀ x ∈ tasks, T.collation.key x.1 ∉ T.rows.map fun r => T.collation.key r.method

/-- What the readers find after tasks were inserted. -/
theorem yieldsBack_inserted (rd : Reader) {server : Server} {t : String} {b : Backend}
    {T T' : Table} {tasks : List (String × StringMap String)} (h : server.IsName t)
    (hT : b.database.find? t = some T') (hz : server.readsZeroDates = true)
    (hκ : T'.collation = T.collation) (hrows : T'.rows = T.rows ++ (tasks.map newTask).map Row.written)
    (hfresh : ∀ x ∈ tasks, T.collation.key x.1 ∉ T.rows.map fun r => T.collation.key r.method)
    (hrd : ∀ x ∈ tasks, rd.AsksFor x.1) :
    (∀ x ∈ tasks, rd.YieldsBack server t x.1 x.2 b) ↔
      ∀ x ∈ tasks, Encodable x.2 ∧
        ∀ r ∈ T.rows, rd.Asks T.collation x.1 r → rd.read server x.1 r ≠ none := by
  have hin : ∀ x ∈ tasks, Row.written (newTask x) ∈ T'.rows := by
    intro x hx
    rw [hrows, List.map_map]
    exact List.mem_append_right _ (List.mem_map.mpr ⟨x, hx, rfl⟩)
  have hiff := fun x hx => rd.yieldsBack_iff (m := x.1) h hT hz (hrd x hx) (hin x hx)
  rw [hκ] at hiff
  constructor
  · intro hyields x hx
    obtain ⟨henc, hothers⟩ := (hiff x hx).mp (hyields x hx)
    refine ⟨henc, fun r hr ha => hothers r ?_ ha ?_⟩
    · rw [hrows]
      exact List.mem_append_left _ hr
    · intro hrm
      exact hfresh x hx (hrm ▸ List.mem_map_of_mem hr)
  · intro hall x hx
    refine (hiff x hx).mpr ⟨(hall x hx).1, fun r hr ha hrm => ?_⟩
    rw [hrows, List.map_map] at hr
    rcases List.mem_append.mp hr with hr | hr
    · exact (hall x hx).2 r hr ha
    · obtain ⟨y, hy, rfl⟩ := List.mem_map.mp hr
      obtain ⟨ps, hps, -⟩ := (hall y hy).1.paramsOf
      obtain ⟨m', hread, -⟩ := rd.read_written server x.1 (newTask y)
      show rd.read server x.1 (Row.written (newTask y)) ≠ none
      rw [hread, Reader.taskWith?_written hz, show paramsOf (newTask y).2 = some ps from hps]
      simp

section

variable {o : Outside} {t : String} {b : Backend} {T : Table}

/-- The table after a successful insert. -/
theorem after_insert {tasks : List (String × StringMap String)} (hT : b.database.find? t = some T)
    (hi : Insertable T tasks) :
    ∃ T', (b.after t ((b.database.find? t).map fun T =>
        T.insertRows (tasks.map newTask))).fields.database.find? t = some T' ∧
      T'.collation = T.collation ∧ T'.rows = T.rows ++ (tasks.map newTask).map Row.written := by
  have hfits : ∀ x ∈ tasks.map newTask, FitsColumns x := List.forall_mem_map.mpr hi.fits
  obtain ⟨T', hins, hκ, hrows⟩ := insertRows_fresh hfits (by rw [List.map_map]; exact hi.nodup)
    (List.forall_mem_map.mpr hi.fresh)
  refine ⟨T', ?_, hκ, hrows⟩
  rw [hT, Option.map_some, hins]
  exact Database.find?_replace hT T'

theorem createTask_yieldsBack (h : o.server.IsName t) (hT : b.database.find? t = some T)
    (hz : o.server.readsZeroDates = true) {m : String} {params : StringMap String}
    (hi : Insertable T [(m, params)]) {rd : Reader} (hm : rd.AsksFor m) :
    rd.YieldsBack o.server t m params (DBCreateTask.perform o m (some params) t b).fields ↔
      Encodable params ∧
        ∀ r ∈ T.rows, rd.Asks T.collation m r → rd.read o.server m r ≠ none := by
  obtain ⟨T', hfind, hκ, hrows⟩ := after_insert hT hi
  have hall := yieldsBack_inserted rd h hfind hz hκ hrows hi.fresh (by simpa using hm)
  simp only [List.mem_singleton, forall_eq] at hall
  rw [createTask_run h m (some params)]
  exact hall

theorem createTasks_yieldsBack (h : o.server.IsName t) (hT : b.database.find? t = some T)
    (hz : o.server.readsZeroDates = true) {tasks : StringMap (StringMap String)}
    (hi : Insertable T tasks.entries) {rd : Reader} (hrd : ∀ x ∈ tasks.entries, rd.AsksFor x.1) :
    (∀ x ∈ tasks.entries,
        rd.YieldsBack o.server t x.1 x.2 (DBCreateTasks.performWithParams o tasks t b).fields) ↔
      ∀ x ∈ tasks.entries, Encodable x.2 ∧
        ∀ r ∈ T.rows, rd.Asks T.collation x.1 r → rd.read o.server x.1 r ≠ none := by
  by_cases hm : tasks.entries = []
  · simp [hm]
  · obtain ⟨T', hfind, hκ, hrows⟩ := after_insert hT hi
    rw [createTasks_params_run h hm]
    exact yieldsBack_inserted rd h hfind hz hκ hrows hi.fresh hrd

/-- **Parameters survive exactly if they are encodable,** whichever writer
and reader is used. A reader that is asked for more tasks, or for all with
a status, fails if one of their rows cannot be read. The two writers leave
the same database. -/
theorem round_trip_iff (h : o.server.IsName t) (hT : b.database.find? t = some T)
    (hz : o.server.readsZeroDates = true) :
    (∀ m params, Insertable T [(m, params)] → ∀ rd : Reader, rd.AsksFor m →
      (rd.YieldsBack o.server t m params (DBCreateTask.perform o m (some params) t b).fields ↔
        Encodable params ∧
          ∀ r ∈ T.rows, rd.Asks T.collation m r → rd.read o.server m r ≠ none)) ∧
    (∀ tasks : StringMap (StringMap String), Insertable T tasks.entries → ∀ rd : Reader,
      (∀ x ∈ tasks.entries, rd.AsksFor x.1) →
      ((∀ x ∈ tasks.entries,
          rd.YieldsBack o.server t x.1 x.2 (DBCreateTasks.performWithParams o tasks t b).fields) ↔
        ∀ x ∈ tasks.entries, Encodable x.2 ∧
          ∀ r ∈ T.rows, rd.Asks T.collation x.1 r → rd.read o.server x.1 r ≠ none)) ∧
    ∀ m params, DBCreateTasks.performWithParams o ⟨[(m, params)], by simp⟩ t b =
      DBCreateTask.perform o m (some params) t b := by
  refine ⟨fun m params hi rd hm => createTask_yieldsBack h hT hz hi hm,
    fun tasks hi rd hrd => createTasks_yieldsBack h hT hz hi hrd, fun m params => ?_⟩
  rw [createTask_run h m (some params)]
  exact createTasks_params_run h (List.cons_ne_nil (m, params) [])

end

/-- The parameters of the test application. -/
def testParams : StringMap String := ⟨[("param1", "1"), ("param2", "2")], by decide⟩

/-- Both tasks of the table are asked for. -/
theorem round_trip_iff_testParams :
    (Reader.getTasks ["Suite.test", "Suite.other"]).YieldsBack someOutside.server "tasks"
      "Suite.other" testParams
      (DBCreateTask.perform someOutside "Suite.other" (some testParams) "tasks" .oneTask).fields :=
  ((round_trip_iff (o := someOutside) (b := .oneTask) (by decide) rfl rfl).1 "Suite.other"
    testParams ⟨by decide, by decide, by decide⟩ (.getTasks ["Suite.test", "Suite.other"])
      (List.mem_cons_of_mem _ List.mem_cons_self)).mpr
      ⟨⟨by decide, by decide, by decide⟩, by
        rintro r hr -
        obtain rfl := List.mem_singleton.mp hr
        exact Option.some_ne_none _⟩

/-- A map without entries, an empty value at the end, and a blank in a
value are not read back. -/
theorem params_lost :
    ¬ ∃ params ∈ [StringMap.empty, ⟨[("a", "")], by simp⟩, ⟨[("a", "x y")], by simp⟩],
      ∃ rd : Reader, rd.AsksFor "Suite.other" ∧
        rd.YieldsBack someOutside.server "tasks" "Suite.other" params
          (DBCreateTask.perform someOutside "Suite.other" (some params) "tasks" .oneTask).fields := by
  rintro ⟨params, hp, rd, hrd, hy⟩
  have hiff : Insertable _ [("Suite.other", params)] → _ := fun hi =>
    (createTask_yieldsBack (o := someOutside) (t := "tasks") (b := .oneTask) (by decide) rfl rfl hi
      hrd).mp hy
  simp only [List.mem_cons, List.not_mem_nil, or_false] at hp
  rcases hp with rfl | rfl | rfl
  · exact (hiff ⟨by decide, by decide, by decide⟩).1.nonempty rfl
  · exact (hiff ⟨by decide, by decide, by decide⟩).1.last ("a", "") rfl rfl
  · exact absurd ((hiff ⟨by decide, by decide, by decide⟩).1.plain ("a", "x y")
      List.mem_cons_self).2 (by decide)

end Clustering.Db
