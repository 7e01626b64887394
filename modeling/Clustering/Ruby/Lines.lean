/-
Clustering.Ruby.Lines — what a line of code is.

A line opens a block when `do` is its one reserved word, and closes one
when it is `end`. Any other line with a reserved word, with brackets of
its own that do not close, or with an operator at its end is no line of
the part of Ruby read here. `Segment` is what can be put together to a
plain line, piece by piece.
-/
import Clustering.Ruby.Blocks
import Clustering.Ruby.HereDocs

namespace Clustering.Ruby

/-! ## Words, brackets, ends -/

def wordToken : Token → Bool
  | .char c => nameChar c
  | _ => false

def solid : Token → Bool
  | .char c => !blank c
  | _ => true

def flush (word : List Char) : List (List Char) := if word = [] then [] else [word]

def wordsFrom (word : List Char) : List Token → List (List Char)
  | [] => flush word
  | .char c :: ts =>
    if nameChar c then wordsFrom (word ++ [c]) ts else flush word ++ wordsFrom [] ts
  | .str _ :: ts => flush word ++ wordsFrom [] ts
  | .heredoc _ :: ts => flush word ++ wordsFrom [] ts

def words (ts : List Token) : List (List Char) := wordsFrom [] ts

/-- The words that begin, end or continue something over several lines. -/
def reservedWords : List String :=
  ["do", "end", "begin", "if", "unless", "while", "until", "case", "when", "for", "in", "def",
    "class", "module", "then", "else", "elsif", "rescue", "ensure", "and", "or", "not"]

def reserved (word : List Char) : Bool := (reservedWords.map String.toList).contains word

/-- The closing brackets that are due. -/
def bracket (due : List Char) : Token → Option (List Char)
  | .char c =>
    if c = '(' then some (')' :: due)
    else if c = '[' then some (']' :: due)
    else if c = '{' then some ('}' :: due)
    else if c = ')' ∨ c = ']' ∨ c = '}' then
      if due.head? = some c then some due.tail else none
    else some due
  | _ => some due

def brackets (due : List Char) (ts : List Token) : Option (List Char) := ts.foldlM bracket due

/-- Behind an operator the statement goes on in the next line. -/
def goesOn : Token → Bool
  | .char c => "=+-*<>&|^~!:,.".toList.contains c
  | _ => false

def kind (ts : List Token) : Option Kind :=
  if words ts = ["end".toList] ∧ (ts.filter solid).length = 3 then some .closes
  else if brackets [] ts ≠ some [] then none
  else
    match (words ts).filter reserved with
    | [] => if (ts.filter solid).getLast?.any goesOn then none else some .plain
    | [word] => if word = "do".toList then some .opens else none
    | _ => none

/-- The blocks of a file. -/
def readFile (text : String) : Option (List (Node (List Token))) :=
  (readLines text).bind (tree kind)

theorem readFile_eq_some_iff {text : String} {ns : List (Node (List Token))} :
    readFile text = some ns ↔
      readLines text = some (Node.allLines ns) ∧ Node.AllShaped kind ns := by
  unfold readFile
  constructor
  · intro h
    obtain ⟨lines, hlines, htree⟩ := Option.bind_eq_some_iff.mp h
    obtain ⟨rfl, hshaped⟩ := tree_eq_some_iff.mp htree
    exact ⟨hlines, hshaped⟩
  · rintro ⟨hlines, hshaped⟩
    rw [hlines]
    exact tree_eq_some_iff.mpr ⟨rfl, hshaped⟩

/-! ## Words of lines put together -/

theorem wordsFrom_cons_of_not {t : Token} (ht : wordToken t = false) (word : List Char)
    (ts : List Token) : wordsFrom word (t :: ts) = flush word ++ words ts := by
  cases t with
  | char c => simp [wordsFrom, words, show nameChar c = false from ht]
  | str v => rfl
  | heredoc v => rfl

theorem words_cons_of_not {t : Token} (ht : wordToken t = false) (ts : List Token) :
    words (t :: ts) = words ts := by
  rw [words, wordsFrom_cons_of_not ht]
  rfl

theorem wordsFrom_append {xs ys : List Token} (h : ys.head?.all (!wordToken ·) = true) :
    ∀ word, wordsFrom word (xs ++ ys) = wordsFrom word xs ++ words ys := by
  induction xs with
  | nil =>
    intro word
    cases ys with
    | nil => simp [wordsFrom, words, flush]
    | cons t ts =>
      have ht : wordToken t = false := by simpa using h
      rw [List.nil_append, wordsFrom_cons_of_not ht, words_cons_of_not ht]
      rfl
  | cons x xs ih =>
    intro word
    cases x with
    | char c =>
      simp only [List.cons_append, wordsFrom]
      split
      · exact ih _
      · rw [ih, List.append_assoc]
    | str v => simp only [List.cons_append, wordsFrom, ih, List.append_assoc]
    | heredoc v => simp only [List.cons_append, wordsFrom, ih, List.append_assoc]

theorem words_append {xs ys : List Token} (h : ys.head?.all (!wordToken ·) = true) :
    words (xs ++ ys) = words xs ++ words ys :=
  wordsFrom_append h []

/-- Behind a token that is no letter a new word begins. -/
theorem words_append_of_last {xs ys : List Token} (h : xs.getLast?.all (!wordToken ·) = true) :
    words (xs ++ ys) = words xs ++ words ys := by
  cases hx : xs.getLast? with
  | none =>
    rw [List.getLast?_eq_none_iff] at hx
    simp [hx, words, wordsFrom, flush]
  | some t =>
    have ht : wordToken t = false := by simpa [hx] using h
    obtain ⟨zs, rfl⟩ := List.getLast?_eq_some_iff.mp hx
    have hcons : (t :: ys).head?.all (!wordToken ·) = true := by simp [ht]
    have hone' : [t].head?.all (!wordToken ·) = true := by simp [ht]
    rw [List.append_assoc, List.singleton_append, words_append hcons, words_append hone',
      words_cons_of_not ht, words_cons_of_not ht, List.append_assoc]
    rfl

theorem mem_wordsFrom {w : List Char} (ts : List Token) : ∀ word, w ∈ wordsFrom word ts →
    w ≠ [] ∧ ∀ c ∈ w, c ∈ word ∨ .char c ∈ ts := by
  have hflush : ∀ word : List Char, w ∈ flush word → w ≠ [] ∧ w = word := by
    intro word hw
    unfold flush at hw
    split at hw
    · cases hw
    · rename_i hne
      obtain rfl := List.mem_singleton.mp hw
      exact ⟨hne, rfl⟩
  induction ts with
  | nil =>
    intro word hw
    obtain ⟨hne, rfl⟩ := hflush word hw
    exact ⟨hne, fun c hc => Or.inl hc⟩
  | cons t ts ih =>
    intro word hw
    by_cases ht : wordToken t = true
    · cases t with
      | char c =>
        rw [wordsFrom, if_pos (show nameChar c = true from ht)] at hw
        obtain ⟨hne, hmem⟩ := ih _ hw
        refine ⟨hne, ?_⟩
        intro d hd
        obtain hd | hd := hmem d hd
        · obtain hd | hd := List.mem_append.mp hd
          · exact Or.inl hd
          · obtain rfl := List.mem_singleton.mp hd
            exact Or.inr List.mem_cons_self
        · exact Or.inr (List.mem_cons_of_mem _ hd)
      | str v => cases ht
      | heredoc v => cases ht
    · rw [wordsFrom_cons_of_not (by simpa using ht)] at hw
      obtain hw | hw := List.mem_append.mp hw
      · obtain ⟨hne, rfl⟩ := hflush word hw
        exact ⟨hne, fun c hc => Or.inl hc⟩
      · obtain ⟨hne, hmem⟩ := ih [] hw
        refine ⟨hne, ?_⟩
        intro d hd
        obtain hd | hd := hmem d hd
        · cases hd
        · exact Or.inr (List.mem_cons_of_mem _ hd)

/-! ## Segments -/

/-- Tokens that can be put behind others in a plain line. -/
structure Segment (ts : List Token) : Prop where
  front : ts.head?.all (!wordToken ·) = true
  calm : (words ts).all (!reserved ·) = true
  neutral : ∀ due, brackets due ts = some due
  last : (ts.filter solid).getLast?.all (!goesOn ·) = true

theorem Segment.nil : Segment [] := ⟨rfl, rfl, fun _ => rfl, rfl⟩

theorem getLast?_filter_append (xs ys : List Token) (h : ys.filter solid ≠ []) :
    ((xs ++ ys).filter solid).getLast? = (ys.filter solid).getLast? := by
  rw [List.filter_append, List.getLast?_append_of_ne_nil _ h]

theorem Segment.append {xs ys : List Token} (hx : Segment xs) (hy : Segment ys) :
    Segment (xs ++ ys) := by
  refine ⟨?_, ?_, ?_, ?_⟩
  · cases xs with
    | nil => exact hy.front
    | cons x xs => exact hx.front
  · rw [words_append hy.front, List.all_append, hx.calm, hy.calm]
    rfl
  · intro due
    rw [brackets, List.foldlM_append]
    have h1 := hx.neutral due
    have h2 := hy.neutral due
    unfold brackets at h1 h2
    simp [h1, h2]
  · by_cases h : ys.filter solid = []
    · rw [List.filter_append, h, List.append_nil]
      exact hx.last
    · rw [getLast?_filter_append xs ys h]
      exact hy.last

/-- **A segment is a plain line.** -/
theorem Segment.plain {ts : List Token} (h : Segment ts) : kind ts = some .plain := by
  have hnone : (words ts).filter reserved = [] := by
    rw [List.filter_eq_nil_iff]
    intro w hw
    have hall := List.all_eq_true.mp h.calm w hw
    simpa using hall
  have hend : ¬ (words ts = ["end".toList] ∧ (ts.filter solid).length = 3) := by
    rintro ⟨hw, -⟩
    have hall := h.calm
    rw [hw] at hall
    revert hall
    decide
  have hlast : (ts.filter solid).getLast?.any goesOn = false := by
    have hall := h.last
    cases hg : (ts.filter solid).getLast? with
    | none => rfl
    | some t => simpa [hg] using hall
  rw [kind, if_neg hend, if_neg (by simp [h.neutral]), hnone]
  simp only [hlast, Bool.false_eq_true, ↓reduceIte]

/-! ## A line of code behind others -/

/-- A text that is a statement of one line. -/
def Code (v : List Char) : Prop :=
  ∃ ts, (State.start.run (unixLines (v ++ ['\n']))).bind State.finish = some [ts] ∧
    kind ts = some .plain ∧ ∃ t ∈ ts, solid t = true

/-- What stands before a line of code: it ends with an operator. -/
structure Lead (ts : List Token) : Prop where
  calm : (words ts).all (!reserved ·) = true
  last_token : ts.getLast?.all (!wordToken ·) = true
  neutral : ∀ due, brackets due ts = some due
  goes_on : (ts.filter solid).getLast?.any goesOn = true

theorem kind_plain_iff {ts : List Token} :
    kind ts = some .plain ↔ brackets [] ts = some [] ∧ (words ts).filter reserved = [] ∧
      (ts.filter solid).getLast?.any goesOn = false := by
  unfold kind
  split
  · rename_i h
    constructor
    · intro hkind
      cases hkind
    · rintro ⟨-, hwords, -⟩
      rw [h.1] at hwords
      revert hwords
      decide
  · split
    · rename_i h
      constructor
      · intro hkind
        cases hkind
      · rintro ⟨hb, -, -⟩
        exact absurd hb h
    · rename_i h
      simp only [ne_eq, Decidable.not_not] at h
      split
      · rename_i hwords
        cases hg : (ts.filter solid).getLast?.any goesOn <;> simp [h, hwords]
      · rename_i word hwords
        rw [hwords]
        split <;> simp
      · rename_i hne _
        simp only [reduceCtorEq, false_iff]
        rintro ⟨-, hnil, -⟩
        exact hne hnil

/-- **A line with a value of code is plain exactly when the value is.** -/
theorem Lead.kind_iff {xs ys : List Token} (h : Lead xs) :
    kind (xs ++ ys) = some .plain ↔ kind ys = some .plain ∧ ∃ t ∈ ys, solid t = true := by
  have hfirst : (words xs).filter reserved = [] := by
    rw [List.filter_eq_nil_iff]
    intro w hw
    simpa using List.all_eq_true.mp h.calm w hw
  have hbrackets : brackets [] (xs ++ ys) = brackets [] ys := by
    have hx := h.neutral []
    unfold brackets at hx ⊢
    simp [List.foldlM_append, hx]
  rw [kind_plain_iff, kind_plain_iff, words_append_of_last h.last_token, List.filter_append,
    hfirst, hbrackets, List.nil_append]
  by_cases hs : ys.filter solid = []
  · have hno : ¬ ∃ t ∈ ys, solid t = true := by
      rintro ⟨t, ht, hsolid⟩
      have hmem := List.mem_filter.mpr ⟨ht, hsolid⟩
      rw [hs] at hmem
      cases hmem
    rw [List.filter_append, hs, List.append_nil, h.goes_on]
    simp [hno]
  · have hsome : ∃ t ∈ ys, solid t = true := by
      obtain ⟨t, ht⟩ := List.exists_mem_of_ne_nil _ hs
      exact ⟨t, (List.mem_filter.mp ht).1, (List.mem_filter.mp ht).2⟩
    rw [getLast?_filter_append xs ys hs]
    simp [hsome]

end Clustering.Ruby
