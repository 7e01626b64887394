/-
Sql.Statements — the text of SQL statements with placeholders.

`lex` cuts a text into words and signs, `parse` reads the five forms of
statement a program that keeps one table of rows needs: an `INSERT` of
some rows, a `SELECT`, an `UPDATE` and a `DELETE` with a `WHERE` that
compares one column, to one value or with `IN`. A `?` stands for a value
that is bound later; `Statement.placeholders` is how many there are.

A text that is none of these is no statement: `parse` is `none`, and
preparing it is a syntax error.

`Prepared` is a statement with the values bound so far, by index from 1.
`setAll_inOrder` says when such bindings are complete: each placeholder
gets its own value, and the statement runs with the values in order.
-/
import Mathlib.Data.List.Induction

namespace Sql

/-! ## Lexing -/

/-- A character of an unquoted identifier. -/
def isWordChar (c : Char) : Bool :=
  c.isAlphanum || c == '_' || c == '$' || (0x80 ≤ c.toNat && c.toNat ≤ 0xFFFF)

inductive Token where
  | word (w : String)
  | sign (c : Char)
  deriving DecidableEq, Repr

/-- The word read so far, if any. -/
def flush (w : List Char) : List Token :=
  if w = [] then [] else [.word (String.ofList w)]

/-- Lex the text, with `w` the word read so far. -/
def lexFrom (w : List Char) : List Char → List Token
  | [] => flush w
  | c :: cs =>
      if isWordChar c then lexFrom (w ++ [c]) cs
      else if c.isWhitespace then flush w ++ lexFrom [] cs
      else flush w ++ .sign c :: lexFrom [] cs

def lex (s : String) : List Token := lexFrom [] s.toList

/-! ## Statements -/

/-- `column = ?`, or `column IN (?, …, ?)` with so many placeholders. -/
inductive Condition where
  | eq (column : String)
  | isIn (column : String) (count : ℕ)
  deriving DecidableEq, Repr

inductive Statement where
  /-- `INSERT INTO table (columns) VALUES (?, …), …`. -/
  | insertInto (table : String) (columns : List String) (rows : ℕ)
  /-- `SELECT * FROM table WHERE …`. -/
  | selectAll (table : String) (condition : Condition)
  /-- `UPDATE table SET column = ?, … WHERE …`. -/
  | update (table : String) (columns : List String) (condition : Condition)
  /-- `DELETE FROM table WHERE …`. -/
  | deleteFrom (table : String) (condition : Condition)
  deriving DecidableEq, Repr

def Condition.placeholders : Condition → ℕ
  | .eq _ => 1
  | .isIn _ count => count

/-- How many values a statement waits for. -/
def Statement.placeholders : Statement → ℕ
  | .insertInto _ columns rows => rows * columns.length
  | .selectAll _ c => c.placeholders
  | .update _ columns c => columns.length + c.placeholders
  | .deleteFrom _ c => c.placeholders

def Statement.table : Statement → String
  | .insertInto t _ _ | .selectAll t _ | .update t _ _ | .deleteFrom t _ => t

/-! ## Parsing -/

/-- `?, …, ?)`, at least one. -/
def parsePlaceholders : List Token → Option (ℕ × List Token)
  | .sign '?' :: .sign ',' :: rest =>
      (parsePlaceholders rest).map fun p => (p.1 + 1, p.2)
  | .sign '?' :: .sign ')' :: rest => some (1, rest)
  | _ => none

/-- `column, …, column)`, at least one. -/
def parseColumns : List Token → Option (List String × List Token)
  | .word c :: .sign ',' :: rest =>
      (parseColumns rest).map fun p => (c :: p.1, p.2)
  | .word c :: .sign ')' :: rest => some ([c], rest)
  | _ => none

/-- `column = ?, …, column = ?`, at least one. -/
def parseAssignments : List Token → Option (List String × List Token)
  | .word c :: .sign '=' :: .sign '?' :: .sign ',' :: rest =>
      (parseAssignments rest).map fun p => (c :: p.1, p.2)
  | .word c :: .sign '=' :: .sign '?' :: rest => some ([c], rest)
  | _ => none

/-- The rows after `VALUES`, each with `width` placeholders, up to the
end of the statement. The first argument bounds the number of rows. -/
def parseRows (width : ℕ) : ℕ → List Token → Option ℕ
  | 0, _ => none
  | fuel + 1, .sign '(' :: rest =>
      match parsePlaceholders rest with
      | some (n, [.sign ';']) => if n = width then some 1 else none
      | some (n, .sign ',' :: rest') =>
          if n = width then (parseRows width fuel rest').map (· + 1) else none
      | _ => none
  | _ + 1, _ => none

/-- What follows `WHERE`, up to the end of the statement. -/
def parseCondition : List Token → Option Condition
  | [.word c, .sign '=', .sign '?', .sign ';'] => some (.eq c)
  | .word c :: .word "IN" :: .sign '(' :: rest =>
      match parsePlaceholders rest with
      | some (n, [.sign ';']) => some (.isIn c n)
      | _ => none
  | _ => none

def parseTokens : List Token → Option Statement
  | .word "INSERT" :: .word "INTO" :: .word t :: .sign '(' :: rest =>
      match parseColumns rest with
      | some (columns, .word "VALUES" :: rest') =>
          (parseRows columns.length rest'.length rest').map (.insertInto t columns)
      | _ => none
  | .word "SELECT" :: .sign '*' :: .word "FROM" :: .word t :: .word "WHERE" :: rest =>
      (parseCondition rest).map (.selectAll t)
  | .word "UPDATE" :: .word t :: .word "SET" :: rest =>
      match parseAssignments rest with
      | some (columns, .word "WHERE" :: rest') =>
          (parseCondition rest').map (.update t columns)
      | _ => none
  | .word "DELETE" :: .word "FROM" :: .word t :: .word "WHERE" :: rest =>
      (parseCondition rest).map (.deleteFrom t)
  | _ => none

/-- Read a text as a statement. -/
def parse (s : String) : Option Statement := parseTokens (lex s)

/-! ## Texts put together -/

theorem lexFrom_append (w a b : List Char) {c : Char} (hc : isWordChar c = false) :
    lexFrom w (a ++ c :: b) = lexFrom w a ++ lexFrom [] (c :: b) := by
  induction a generalizing w with
  | nil =>
    rw [List.nil_append, lexFrom, lexFrom, hc, lexFrom, hc]
    by_cases hs : c.isWhitespace <;> simp [hs, flush]
  | cons x a ih =>
    rw [List.cons_append, lexFrom, lexFrom]
    split
    · exact ih _
    · split
      · rw [ih, List.append_assoc]
      · rw [ih, List.append_assoc, List.cons_append]

/-- A text that starts with no letter of a word, and so ends the word
before it. -/
def Separated (s : String) : Prop := ∀ c ∈ s.toList.head?, isWordChar c = false

instance (s : String) : Decidable (Separated s) :=
  s.toList.head?.decidableForallMem

theorem lex_append {a b : String} (hb : Separated b) : lex (a ++ b) = lex a ++ lex b := by
  unfold lex
  rw [String.toList_append]
  cases hbl : b.toList with
  | nil => simp [lexFrom, flush]
  | cons c cs =>
    have hc : isWordChar c = false := hb c (by simp [hbl])
    exact lexFrom_append [] a.toList cs hc

/-- A text that ends with no letter of a word. -/
def Closed (s : String) : Prop := ∀ c ∈ s.toList.getLast?, isWordChar c = false

instance (s : String) : Decidable (Closed s) :=
  s.toList.getLast?.decidableForallMem

theorem lex_append_closed {a b : String} (ha : Closed a) : lex (a ++ b) = lex a ++ lex b := by
  unfold lex
  rw [String.toList_append]
  rcases List.eq_nil_or_concat a.toList with hal | ⟨cs, c, hal⟩
  · simp [hal, lexFrom, flush]
  · have hc : isWordChar c = false := ha c (by simp [hal])
    have hone : ∀ d, lexFrom [] (c :: d) = lexFrom [] [c] ++ lexFrom [] d := by
      intro d
      simp only [lexFrom, hc, flush]
      by_cases hs : c.isWhitespace <;> simp [hs]
    rw [hal, List.concat_eq_append, List.append_assoc, List.singleton_append,
      lexFrom_append _ _ _ hc, hone,
      lexFrom_append _ _ _ hc, List.append_assoc]

theorem lexFrom_word {w a : List Char} (h : ∀ c ∈ a, isWordChar c = true) :
    lexFrom w a = flush (w ++ a) := by
  induction a generalizing w with
  | nil => simp [lexFrom]
  | cons c a ih =>
    rw [lexFrom, if_pos (h c List.mem_cons_self), ih fun x hx => h x (List.mem_cons_of_mem _ hx),
      List.append_assoc, List.singleton_append]

/-- A word is lexed to itself. -/
theorem lex_word {s : String} (hs : s ≠ "") (h : ∀ c ∈ s.toList, isWordChar c = true) :
    lex s = [.word s] := by
  have hne : s.toList ≠ [] := by
    simpa using hs
  unfold lex
  rw [lexFrom_word h, List.nil_append, flush, if_neg hne, String.ofList_toList]

/-! ## Repeated parts -/

/-- `for (_ <- 1 to n) sql += piece`. -/
def appended (piece : String) : ℕ → String → String
  | 0, sql => sql
  | n + 1, sql => appended piece n sql ++ piece

theorem lex_appended {piece : String} (hp : Separated piece) (sql : String) :
    ∀ n, lex (appended piece n sql) = lex sql ++ (List.replicate n (lex piece)).flatten
  | 0 => by simp [appended]
  | n + 1 => by
      rw [appended, lex_append hp, lex_appended hp sql n, List.append_assoc,
        List.replicate_succ', List.flatten_append]
      simp

theorem parsePlaceholders_replicate (rest : List Token) : ∀ n,
    parsePlaceholders ((List.replicate n [Token.sign '?', .sign ',']).flatten
      ++ .sign '?' :: .sign ')' :: rest) = some (n + 1, rest)
  | 0 => rfl
  | n + 1 => by
      rw [List.replicate_succ, List.flatten_cons, List.append_assoc]
      simp [parsePlaceholders, parsePlaceholders_replicate rest n]

theorem parseCondition_list (column : String) (n : ℕ) :
    parseCondition (.word column :: .word "IN" :: .sign '(' ::
      ((List.replicate n [Token.sign '?', .sign ',']).flatten ++
        [.sign '?', .sign ')', .sign ';'])) = some (.isIn column (n + 1)) := by
  have hp := parsePlaceholders_replicate [.sign ';'] n
  simp only [parseCondition, hp]

/-- Rows that are all read alike are counted. -/
theorem parseRows_replicate (width : ℕ) (row : List Token)
    (hrow : ∀ rest, parsePlaceholders (row ++ rest) = some (width, rest)) : ∀ n fuel, n < fuel →
    parseRows width fuel (.sign '(' :: ((List.replicate n (row ++ [.sign ',', .sign '('])).flatten
      ++ (row ++ [.sign ';']))) = some (n + 1)
  | 0, fuel + 1, _ => by simp [parseRows, hrow]
  | n + 1, fuel + 1, h => by
      have ih := parseRows_replicate width row hrow n fuel (Nat.lt_of_succ_lt_succ h)
      simp only [List.replicate_succ, List.flatten_cons, List.append_assoc] at ih ⊢
      simp [parseRows, hrow, ih]

/-! ## Prepared statements -/

/-- A statement with the values bound so far, the last one first. -/
structure Prepared (V : Type) where
  statement : Statement
  bound : List (ℕ × V)

namespace Prepared

variable {V : Type}

/-- Bind the placeholder with number `i`, from 1. There must be one. -/
def set (p : Prepared V) (i : ℕ) (v : V) : Option (Prepared V) :=
  if 1 ≤ i ∧ i ≤ p.statement.placeholders then some { p with bound := (i, v) :: p.bound }
  else none

/-- Bind several placeholders, in order. -/
def setAll (p : Prepared V) : List (ℕ × V) → Option (Prepared V)
  | [] => some p
  | (i, v) :: rest => (p.set i v).bind fun q => q.setAll rest

/-- The values of all placeholders, if each has one. -/
def values (p : Prepared V) : Option (List V) :=
  (List.range' 1 p.statement.placeholders).mapM fun i => p.bound.lookup i

theorem setAll_eq (st : Statement) (b : List (ℕ × V)) : ∀ bs : List (ℕ × V),
    (∀ x ∈ bs, 1 ≤ x.1 ∧ x.1 ≤ st.placeholders) →
    setAll ⟨st, b⟩ bs = some ⟨st, bs.reverse ++ b⟩
  | [], _ => rfl
  | (i, v) :: rest, h => by
      rw [setAll, set, if_pos (h _ List.mem_cons_self), Option.bind_some,
        setAll_eq st _ rest fun x hx => h x (List.mem_cons_of_mem _ hx)]
      simp

/-- The bindings `1 ↦ v₁, 2 ↦ v₂, …`. -/
def inOrder (vs : List V) : List (ℕ × V) := (vs.zipIdx 1).map Prod.swap

theorem inOrder_append (vs ws : List V) :
    inOrder (vs ++ ws) = inOrder vs ++ (ws.zipIdx (vs.length + 1)).map Prod.swap := by
  rw [inOrder, List.zipIdx_append, List.map_append, Nat.add_comm]
  rfl

theorem mem_inOrder {vs : List V} {x : ℕ × V} (hx : x ∈ inOrder vs) :
    1 ≤ x.1 ∧ x.1 ≤ vs.length := by
  obtain ⟨⟨v, i⟩, hmem, rfl⟩ := List.mem_map.mp hx
  have hi := List.mem_zipIdx hmem
  have hlt := hi.2.1
  refine ⟨hi.1, ?_⟩
  show i ≤ _
  omega

theorem lookup_inOrder (b : List (ℕ × V)) (vs : List V) : ∀ k v, vs[k]? = some v →
    ((inOrder vs).reverse ++ b).lookup (1 + k) = some v := by
  induction vs using List.reverseRecOn with
  | nil => simp
  | append_singleton vs w ih =>
    intro k v hk
    rw [inOrder_append, List.reverse_append]
    rcases Nat.lt_or_ge k vs.length with hlt | hge
    · rw [List.getElem?_append_left hlt] at hk
      have hne : ((1 + k == vs.length + 1) : Bool) = false := by simp; omega
      simpa [List.lookup_cons, hne] using ih k v hk
    · obtain ⟨hkl, -⟩ := List.getElem?_eq_some_iff.mp hk
      have hkv : k = vs.length := by simp at hkl; omega
      subst hkv
      simp at hk
      simp [Nat.add_comm, hk]

theorem mapM_range' (f : ℕ → Option V) : ∀ (vs : List V) (s : ℕ),
    (∀ k v, vs[k]? = some v → f (s + k) = some v) →
    (List.range' s vs.length).mapM f = some vs
  | [], s, _ => rfl
  | v :: vs, s, h => by
      have hrest := mapM_range' f vs (s + 1) fun k w hw => by
        have := h (k + 1) w (by simpa using hw)
        rwa [Nat.add_assoc, Nat.add_comm 1 k]
      have hv : f s = some v := h 0 v rfl
      simp [List.range'_succ, List.mapM_cons, hv, hrest]

/-- **Bound in order, each placeholder has its own value.** -/
theorem setAll_inOrder (st : Statement) (vs : List V) (h : vs.length = st.placeholders) :
    ∃ p, setAll ⟨st, []⟩ (inOrder vs) = some p ∧ p.statement = st ∧ p.values = some vs := by
  refine ⟨⟨st, (inOrder vs).reverse ++ []⟩, ?_, rfl, ?_⟩
  · exact setAll_eq st [] _ fun x hx => h ▸ mem_inOrder hx
  · unfold values
    rw [← h]
    exact mapM_range' _ vs 1 (lookup_inOrder [] vs)

end Prepared

end Sql
