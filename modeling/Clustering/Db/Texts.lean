/-
Clustering.Db.Texts — the statements behind the texts.

For a table whose name is an identifier, each text is read back as the
statement its query means. A list of `n + 1` methods gives `n + 1`
placeholders. The texts for an empty list are no statements: the
characters cut off at the end belong to the text before the list.
-/
import Clustering.Db.DBQuery

namespace Clustering.Db

open Java Sql

/-! ## Parts of a text -/

theorem lex_name {server : Server} {t : String} (h : server.IsName t) : lex t = [.word t] :=
  lex_word h.1 h.2.1

/-- A text with a name between two fixed parts. -/
theorem lex_around {server : Server} {a t b : String} (ha : Closed a) (hb : Separated b)
    (h : server.IsName t) : lex (a ++ t ++ b) = lex a ++ .word t :: lex b := by
  rw [lex_append hb, lex_append_closed ha, lex_name h, List.append_assoc, List.singleton_append]

/-- A repeated part whose last characters `cut` are cut off again. -/
theorem dropRight_appended {piece : String} (part cut base : String) (hp : piece = part ++ cut)
    (n : ℕ) : dropRight (appended piece (n + 1) base) cut.length = appended piece n base ++ part := by
  conv_lhs => rw [appended, hp, ← String.append_assoc, dropRight_append]
  rw [← hp]

/-- A list of placeholders after a bracket, with the last separator cut
off. -/
theorem lex_list (base : String) (n : ℕ) :
    lex (dropRight (appended "?, " (n + 1) base) 2 ++ ");") =
      lex base ++ ((List.replicate n [Token.sign '?', .sign ',']).flatten
        ++ [.sign '?', .sign ')', .sign ';']) := by
  have hcut : dropRight (appended "?, " (n + 1) base) 2 = appended "?, " n base ++ "?" :=
    dropRight_appended "?" ", " base rfl n
  rw [hcut, String.append_assoc, lex_append (by decide), lex_appended (by decide),
    List.append_assoc]
  rfl

/-- No placeholder: the bracket is cut off with the blank before it. -/
theorem lex_noList (base : String) :
    lex (dropRight (appended "?, " 0 (base ++ " (")) 2 ++ ");") =
      lex base ++ [.sign ')', .sign ';'] := by
  have hcut : dropRight (appended "?, " 0 (base ++ " (")) 2 = base := dropRight_append
  rw [hcut, lex_append (by decide)]
  rfl

/-- Rows of placeholders, with what separates the last one from nothing
cut off. -/
theorem lex_rows (piece part base : String) (hp : piece = part ++ ", (")
    (hs : Separated piece) (hs' : Separated part) (n : ℕ) :
    lex (dropRight (appended piece (n + 1) base) 3 ++ ";") =
      lex base ++ ((List.replicate n (lex piece)).flatten ++ (lex part ++ [.sign ';'])) := by
  have hcut : dropRight (appended piece (n + 1) base) 3 = appended piece n base ++ part :=
    dropRight_appended part ", (" base hp n
  rw [hcut, lex_append (by decide), lex_append hs', lex_appended hs, List.append_assoc,
    List.append_assoc]
  rfl

theorem lt_length_rows (n : ℕ) (piece last : List Token) (c : Token) :
    n < (c :: ((List.replicate n (piece ++ [.sign ',', .sign '('])).flatten ++ last)).length := by
  have hlen : ∀ k, k ≤ (List.replicate k (piece ++ [Token.sign ',', .sign '('])).flatten.length := by
    intro k
    simp
    exact Nat.le_mul_of_pos_right _ (by omega)
  have := hlen n
  simp only [List.length_cons, List.length_append]
  omega

section

variable {server : Server} {t : String}

/-! ## One method -/

theorem parse_createTask (h : server.IsName t) :
    Sql.parse s!"INSERT INTO {t} (method) VALUES (?);" = some (.insertInto t ["method"] 1) := by
  have hl : lex s!"INSERT INTO {t} (method) VALUES (?);" =
      lex "INSERT INTO " ++ .word t :: lex " (method) VALUES (?);" :=
    lex_around (by decide) (by decide) h
  rw [Sql.parse, hl]
  rfl

theorem parse_createTask_params (h : server.IsName t) :
    Sql.parse s!"INSERT INTO {t} (method, params) VALUES (?, ?);" =
      some (.insertInto t ["method", "params"] 1) := by
  have hl : lex s!"INSERT INTO {t} (method, params) VALUES (?, ?);" =
      lex "INSERT INTO " ++ .word t :: lex " (method, params) VALUES (?, ?);" :=
    lex_around (by decide) (by decide) h
  rw [Sql.parse, hl]
  rfl

theorem parse_getTask (h : server.IsName t) :
    Sql.parse (DBGetTask.sql t) = some (.selectAll t (.eq "method")) := by
  have hl : lex (DBGetTask.sql t) = lex "SELECT * FROM " ++ .word t :: lex " WHERE method = ?;" :=
    lex_around (by decide) (by decide) h
  rw [Sql.parse, hl]
  rfl

theorem parse_getTasksWithStatus (h : server.IsName t) :
    Sql.parse (DBGetTasksWithStatus.sql t) = some (.selectAll t (.eq "task_status")) := by
  have hl : lex (DBGetTasksWithStatus.sql t) =
      lex "SELECT * FROM " ++ .word t :: lex " WHERE task_status = ?;" :=
    lex_around (by decide) (by decide) h
  rw [Sql.parse, hl]
  rfl

theorem parse_updateTask (h : server.IsName t) :
    Sql.parse (DBUpdateTask.sql t) =
      some (.update t ["task_status", "end_state", "task_result"] (.eq "method")) := by
  have hl : lex (DBUpdateTask.sql t) = lex "UPDATE " ++ .word t ::
      lex " SET task_status = ?, end_state = ?, task_result = ? WHERE method = ?;" :=
    lex_around (by decide) (by decide) h
  rw [Sql.parse, hl]
  rfl

theorem parse_updateTaskStatus (h : server.IsName t) :
    Sql.parse (DBUpdateTaskStatus.sql t) = some (.update t ["task_status"] (.eq "method")) := by
  have hl : lex (DBUpdateTaskStatus.sql t) = lex "UPDATE " ++ .word t ::
      lex " SET task_status = ? WHERE method = ?;" :=
    lex_around (by decide) (by decide) h
  rw [Sql.parse, hl]
  rfl

theorem parse_deleteTask (h : server.IsName t) :
    Sql.parse (DBDeleteTask.sql t) = some (.deleteFrom t (.eq "method")) := by
  have hl : lex (DBDeleteTask.sql t) = lex "DELETE FROM " ++ .word t :: lex " WHERE method = ?;" :=
    lex_around (by decide) (by decide) h
  rw [Sql.parse, hl]
  rfl

/-! ## Lists of methods -/

theorem parse_getTasks (h : server.IsName t) (n : ℕ) :
    Sql.parse (DBGetTasks.sql t (n + 1)) = some (.selectAll t (.isIn "method" (n + 1))) := by
  have hl : lex s!"SELECT * FROM {t} WHERE method IN (" =
      lex "SELECT * FROM " ++ .word t :: lex " WHERE method IN (" :=
    lex_around (by decide) (by decide) h
  rw [Sql.parse, DBGetTasks.sql, lex_list, hl]
  exact congrArg (Option.map (Statement.selectAll t)) (parseCondition_list "method" n)

theorem parse_updateTasks (h : server.IsName t) (n : ℕ) :
    Sql.parse (DBUpdateTasks.sql t (n + 1)) =
      some (.update t ["task_status", "end_state", "task_result"] (.isIn "method" (n + 1))) := by
  have hl : lex s!"UPDATE {t} SET task_status = ?, end_state = ?, task_result = ? WHERE method IN (" =
      lex "UPDATE " ++ .word t ::
        lex " SET task_status = ?, end_state = ?, task_result = ? WHERE method IN (" :=
    lex_around (by decide) (by decide) h
  rw [Sql.parse, DBUpdateTasks.sql, lex_list, hl]
  exact congrArg (Option.map (Statement.update t ["task_status", "end_state", "task_result"]))
    (parseCondition_list "method" n)

theorem parse_updateTasksStatus (h : server.IsName t) (n : ℕ) :
    Sql.parse (DBUpdateTasksStatus.sql t (n + 1)) =
      some (.update t ["task_status"] (.isIn "method" (n + 1))) := by
  have hl : lex s!"UPDATE {t} SET task_status = ? WHERE method IN (" =
      lex "UPDATE " ++ .word t :: lex " SET task_status = ? WHERE method IN (" :=
    lex_around (by decide) (by decide) h
  rw [Sql.parse, DBUpdateTasksStatus.sql, lex_list, hl]
  exact congrArg (Option.map (Statement.update t ["task_status"])) (parseCondition_list "method" n)

theorem parse_deleteTasks (h : server.IsName t) (n : ℕ) :
    Sql.parse (DBDeleteTasks.sql t (n + 1)) = some (.deleteFrom t (.isIn "method" (n + 1))) := by
  have hl : lex s!"DELETE FROM {t} WHERE method IN (" =
      lex "DELETE FROM " ++ .word t :: lex " WHERE method IN (" :=
    lex_around (by decide) (by decide) h
  rw [Sql.parse, DBDeleteTasks.sql, lex_list, hl]
  exact congrArg (Option.map (Statement.deleteFrom t)) (parseCondition_list "method" n)

theorem parse_createTasks (h : server.IsName t) (n : ℕ) :
    Sql.parse (DBCreateTasks.sql t (n + 1)) = some (.insertInto t ["method"] (n + 1)) := by
  have hl : lex s!"INSERT INTO {t} (method) VALUES (" = [.word "INSERT", .word "INTO", .word t,
      .sign '(', .word "method", .sign ')', .word "VALUES", .sign '('] :=
    lex_around (by decide) (by decide) h
  have hp : lex "?), (" = [.sign '?', .sign ')'] ++ [.sign ',', .sign '('] := rfl
  have hp' : lex "?)" = [.sign '?', .sign ')'] := rfl
  rw [Sql.parse, DBCreateTasks.sql, lex_rows "?), (" "?)" _ rfl (by decide) (by decide), hl, hp, hp']
  exact congrArg (Option.map (Statement.insertInto t ["method"]))
    (parseRows_replicate 1 [.sign '?', .sign ')'] (fun _ => rfl) n _ (lt_length_rows n _ _ _))

theorem parse_createTasks_params (h : server.IsName t) (n : ℕ) :
    Sql.parse (DBCreateTasks.sqlWithParams t (n + 1)) =
      some (.insertInto t ["method", "params"] (n + 1)) := by
  have hl : lex s!"INSERT INTO {t} (method, params) VALUES (" = [.word "INSERT", .word "INTO",
      .word t, .sign '(', .word "method", .sign ',', .word "params", .sign ')', .word "VALUES",
      .sign '('] :=
    lex_around (by decide) (by decide) h
  have hp : lex "?, ?), (" =
      [.sign '?', .sign ',', .sign '?', .sign ')'] ++ [.sign ',', .sign '('] := rfl
  have hp' : lex "?, ?)" = [.sign '?', .sign ',', .sign '?', .sign ')'] := rfl
  rw [Sql.parse, DBCreateTasks.sqlWithParams,
    lex_rows "?, ?), (" "?, ?)" _ rfl (by decide) (by decide), hl, hp, hp']
  exact congrArg (Option.map (Statement.insertInto t ["method", "params"]))
    (parseRows_replicate 2 [.sign '?', .sign ',', .sign '?', .sign ')'] (fun _ => rfl) n _
      (lt_length_rows n _ _ _))

/-! ## Empty lists -/

/-- What a text for a list is for no method. -/
theorem parse_nothing (h : server.IsName t) :
    Sql.parse (DBGetTasks.sql t 0) = none ∧ Sql.parse (DBUpdateTasks.sql t 0) = none ∧
      Sql.parse (DBUpdateTasksStatus.sql t 0) = none ∧ Sql.parse (DBDeleteTasks.sql t 0) = none ∧
      Sql.parse (DBCreateTasks.sql t 0) = none ∧
      Sql.parse (DBCreateTasks.sqlWithParams t 0) = none := by
  have hlist : ∀ a b : String, Closed a → Separated b →
      lex (dropRight (appended "?, " 0 (a ++ t ++ (b ++ " ("))) 2 ++ ");") =
        lex a ++ .word t :: (lex b ++ [.sign ')', .sign ';']) := by
    intro a b ha hb
    rw [← String.append_assoc, lex_noList, lex_around ha hb h, List.append_assoc, List.cons_append]
  have hrows : ∀ piece a b : String, Closed a → Separated b →
      lex (dropRight (appended piece 0 (a ++ t ++ (b ++ "S ("))) 3 ++ ";") =
        lex a ++ .word t :: (lex b ++ [.sign ';']) := by
    intro piece a b ha hb
    have hcut : dropRight (appended piece 0 (a ++ t ++ b ++ "S (")) 3 = a ++ t ++ b :=
      dropRight_append
    rw [← String.append_assoc, hcut, lex_append (by decide), lex_around ha hb h, List.append_assoc,
      List.cons_append]
    rfl
  refine ⟨?_, ?_, ?_, ?_, ?_, ?_⟩
  · exact congrArg parseTokens
      (hlist "SELECT * FROM " " WHERE method IN" (by decide) (by decide))
  · exact congrArg parseTokens (hlist "UPDATE "
      " SET task_status = ?, end_state = ?, task_result = ? WHERE method IN"
      (by decide) (by decide))
  · exact congrArg parseTokens
      (hlist "UPDATE " " SET task_status = ? WHERE method IN" (by decide) (by decide))
  · exact congrArg parseTokens
      (hlist "DELETE FROM " " WHERE method IN" (by decide) (by decide))
  · exact congrArg parseTokens
      (hrows "?), (" "INSERT INTO " " (method) VALUE" (by decide) (by decide))
  · exact congrArg parseTokens
      (hrows "?, ?), (" "INSERT INTO " " (method, params) VALUE" (by decide) (by decide))

end

end Clustering.Db
