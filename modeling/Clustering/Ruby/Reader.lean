/-
Clustering.Ruby.Reader — how Ruby reads literals and here-documents.

A text is read one character at a time. What a character does depends on
the mode alone (`Mode.step`): in code it is a token of its own, inside a
double-quoted literal or a here-document it belongs to a value, and the
rules of escapes and interpolation decide what it adds. The tokens are
kept line by line; a line break inside a literal or a here-document ends
no line.

What is outside this part of Ruby is not read at all (`none`): an
interpolated value is no text, numeric and control escapes, a second
statement on a line, comments, and the other kinds of literals.
-/
import Mathlib.Data.List.Basic
import Mathlib.Data.List.Count

namespace Clustering.Ruby

/-! ## Characters of a value -/

/-- A letter of an identifier. -/
def nameStart (c : Char) : Bool := c.isAlpha || c == '_' || 128 ≤ c.toNat

def nameChar (c : Char) : Bool := nameStart c || c.isDigit

/-- The punctuation that names a global variable. -/
def globalMark (c : Char) : Bool := "~*$?!@/\\;,.=:<>\"&`'+".toList.contains c

/-- How far the characters read may be the start of an interpolation. -/
inductive Hash
  | clear
  | sharp
  | dollar
  | dollarDash
  | sign
  | signSign
  deriving DecidableEq, Repr

def Hash.fresh (c : Char) : Hash := if c = '#' then .sharp else .clear

/-- The next character; `none` where `#` and what follows is an
interpolation. -/
def Hash.next : Hash → Char → Option Hash
  | .clear, c => some (fresh c)
  | .sharp, c =>
    if c = '{' then none
    else if c = '$' then some .dollar
    else if c = '@' then some .sign
    else some (fresh c)
  | .dollar, c =>
    if c = '-' then some .dollarDash
    else if globalMark c || nameChar c then none
    else some (fresh c)
  | .sign, c =>
    if c = '@' then some .signSign
    else if nameStart c then none
    else some (fresh c)
  | .dollarDash, c => if nameStart c then none else some (fresh c)
  | .signSign, c => if nameStart c then none else some (fresh c)

/-- What a backslash and the character after it stand for. -/
def escaped (c : Char) : Option (List Char) :=
  match c with
  | '\n' => some []
  | 'n' => some ['\n']
  | 't' => some ['\t']
  | 'r' => some ['\r']
  | 's' => some [' ']
  | 'a' => some ['\x07']
  | 'b' => some ['\x08']
  | 'e' => some ['\x1b']
  | 'f' => some ['\x0c']
  | 'v' => some ['\x0b']
  | _ => if "01234567xucCM".toList.contains c then none else some [c]

/-- A value while it is read. -/
inductive Scan
  | text (hash : Hash) (value : List Char)
  | escape (value : List Char)
  deriving DecidableEq, Repr

def Scan.value : Scan → List Char
  | .text _ value => value
  | .escape value => value

def Scan.step : Scan → Char → Option Scan
  | .text hash value, c =>
    (hash.next c).map fun next =>
      if c = '\\' then .escape value else .text next (value ++ [c])
  | .escape value, c => (escaped c).map fun cs => .text .clear (value ++ cs)

def Scan.start : Scan := .text .clear []

/-! ## Tokens and modes -/

inductive Token
  | char (c : Char)
  | str (value : List Char)
  | heredoc (value : List Char)
  deriving DecidableEq, Repr

/-- `code angles` has just read `angles` times `<`; `mark name` is behind
`<<-`; `here name before raw scan` is in the body of a here-document,
`raw` are the characters of its present line and `before` is the value
without that line. -/
inductive Mode
  | code (angles : Nat)
  | mark (name : List Char)
  | quoted (scan : Scan)
  | single (value : List Char) (escape : Bool)
  | here (name before raw : List Char) (scan : Scan)
  deriving DecidableEq, Repr

/-- What a character does: the tokens it completes, whether it ends the
line, and the mode after it. -/
structure Effect where
  tokens : List Token
  endsLine : Bool
  mode : Mode
  deriving DecidableEq, Repr

def Effect.turn (mode : Mode) : Effect := ⟨[], false, mode⟩

def Effect.put (token : Token) (mode : Mode) : Effect := ⟨[token], false, mode⟩

def Effect.endLine (tokens : List Token) : Effect := ⟨tokens, true, .code 0⟩

def blank (c : Char) : Bool :=
  c == ' ' || c == '\t' || c == '\x0b' || c == '\x0c' || c == '\r'

/-- Characters with a meaning in code that is not read here. -/
def foreign (c : Char) : Bool :=
  ";`%?/\\#".toList.contains c || (c.toNat < 32 && c != '\t')

def codeStep (angles : Nat) (c : Char) : Option Effect :=
  if c = '\n' then some (.endLine [])
  else if c = '<' then
    if angles = 2 then none else some (.put (.char c) (.code (angles + 1)))
  else if angles = 2 && c == '-' then some (.put (.char c) (.mark []))
  else if angles = 2 && (nameChar c || "~\"'`".toList.contains c) then none
  else if c = '"' then some (.turn (.quoted .start))
  else if c = '\'' then some (.turn (.single [] false))
  else if foreign c then none
  else some (.put (.char c) (.code 0))

/-- The name of a here-document, with nothing behind it on its line. -/
def markStep (name : List Char) (c : Char) : Option Effect :=
  if nameChar c then some (.put (.char c) (.mark (name ++ [c])))
  else if c = '\n' ∧ name ≠ [] then some (.turn (.here name [] [] .start))
  else none

def quotedStep (scan : Scan) (c : Char) : Option Effect :=
  match scan with
  | .text hash value =>
    if c = '"' then (hash.next c).map fun _ => .put (.str value) (.code 0)
    else (scan.step c).map fun next => .turn (.quoted next)
  | .escape _ => (scan.step c).map fun next => .turn (.quoted next)

def singleStep (value : List Char) (escape : Bool) (c : Char) : Effect :=
  if escape then
    if c = '\'' ∨ c = '\\' then .turn (.single (value ++ [c]) false)
    else .turn (.single (value ++ ['\\', c]) false)
  else if c = '\'' then .put (.str value) (.code 0)
  else if c = '\\' then .turn (.single value true)
  else .turn (.single (value ++ [c]) false)

/-- A line that is the name, perhaps indented, ends the here-document. A
line break behind a backslash only joins two lines. -/
def hereStep (name before raw : List Char) (scan : Scan) (c : Char) : Option Effect :=
  match scan with
  | .text _ value =>
    if c = '\n' then
      if raw.dropWhile blank = name then some (.endLine [.heredoc before])
      else some (.turn (.here name (value ++ [c]) [] (.text .clear (value ++ [c]))))
    else (scan.step c).map fun next => .turn (.here name before (raw ++ [c]) next)
  | .escape _ =>
    (scan.step c).map fun next => .turn (.here name before (raw ++ [c]) next)

def Mode.step (mode : Mode) (c : Char) : Option Effect :=
  match mode with
  | .code angles => codeStep angles c
  | .mark name => markStep name c
  | .quoted scan => quotedStep scan c
  | .single value escape => some (singleStep value escape c)
  | .here name before raw scan => hereStep name before raw scan c

/-! ## Reading a text -/

/-- The lines read, the tokens of the present line, and the mode. -/
structure State where
  lines : List (List Token)
  line : List Token
  mode : Mode
  deriving DecidableEq, Repr

def State.start : State := ⟨[], [], .code 0⟩

def State.after (s : State) (e : Effect) : State :=
  if e.endsLine then ⟨s.lines ++ [s.line ++ e.tokens], [], e.mode⟩
  else ⟨s.lines, s.line ++ e.tokens, e.mode⟩

def State.step (s : State) (c : Char) : Option State := (s.mode.step c).map s.after

def State.run (s : State) (text : List Char) : Option State := text.foldlM State.step s

/-- A text is a row of lines, each with its line break. -/
def State.finish (s : State) : Option (List (List Token)) :=
  if s.line = [] ∧ s.mode = .code 0 then some s.lines else none

/-- A carriage return before a line break is part of the line break. -/
def unixLines : List Char → List Char
  | [] => []
  | [c] => [c]
  | c :: d :: cs =>
    if c = '\r' ∧ d = '\n' then unixLines (d :: cs) else c :: unixLines (d :: cs)

def readLines (text : String) : Option (List (List Token)) :=
  (State.start.run (unixLines text.toList)).bind State.finish

example : readLines "a = \"b\\\"c\", [1]\n" =
    some ["a = ".toList.map .char ++ [.str "b\"c".toList] ++ ", [1]".toList.map .char] := by
  decide +kernel

example : readLines "a = \"#$\"\n" = none := by decide +kernel

example : readLines "s <<-X\n  X \nx\n X\n" =
    some ["s <<-X".toList.map .char ++ [.heredoc "  X \nx\n".toList]] := by
  decide +kernel

/-! ## Runs -/

@[simp] theorem State.run_nil (s : State) : s.run [] = some s := rfl

@[simp] theorem State.run_cons (s : State) (c : Char) (cs : List Char) :
    s.run (c :: cs) = (s.step c).bind (·.run cs) := rfl

theorem State.run_append (s : State) (xs ys : List Char) :
    s.run (xs ++ ys) = (s.run xs).bind (·.run ys) := by
  simp only [State.run, List.foldlM_append]
  rfl

/-- The rest of a text is read to these lines. -/
def Reads (s : State) (text : List Char) (lines : List (List Token)) : Prop :=
  (s.run text).bind State.finish = some lines

theorem reads_append {s : State} {xs ys : List Char} {lines : List (List Token)} :
    Reads s (xs ++ ys) lines ↔ ∃ t, s.run xs = some t ∧ Reads t ys lines := by
  unfold Reads
  rw [State.run_append]
  cases h : s.run xs with
  | none => simp
  | some t => simp

theorem reads_of_run {s t : State} {xs ys : List Char} {lines : List (List Token)}
    (h : s.run xs = some t) : Reads s (xs ++ ys) lines ↔ Reads t ys lines := by
  rw [reads_append, h]
  simp

/-- Nothing that was read is taken back. -/
theorem reads_extends {text : List Char} : ∀ {s : State} {lines : List (List Token)},
    Reads s text lines → ∃ more, lines = s.lines ++ more ∧ s.line <+: more.headD [] := by
  induction text with
  | nil =>
    intro s lines h
    simp only [Reads, State.run_nil, Option.bind_some, State.finish] at h
    split at h
    · rename_i hs
      obtain rfl : s.lines = lines := by simpa using h
      exact ⟨[], by simp, by simp [hs.1]⟩
    · cases h
  | cons c cs ih =>
    intro s lines h
    simp only [Reads, State.run_cons, State.step] at h
    cases he : s.mode.step c with
    | none => simp [he] at h
    | some e =>
      rw [he] at h
      obtain ⟨more, hmore, hhead⟩ := ih (s := s.after e) (by simpa [Reads] using h)
      unfold State.after at hmore hhead
      split at hmore
      · rename_i hend
        refine ⟨(s.line ++ e.tokens) :: more, by simpa using hmore, ?_⟩
        simp
      · rename_i hend
        rw [if_neg hend] at hhead
        exact ⟨more, hmore, (List.prefix_append _ _).trans hhead⟩

/-- The next token of a line is settled once it is read. -/
theorem reads_next {L : List (List Token)} {line : List Token} {t u : Token} {mode : Mode}
    {text : List Char} {toks : List Token} {more : List (List Token)}
    (h : Reads ⟨L, line ++ [t], mode⟩ text (L ++ (line ++ u :: toks) :: more)) : t = u := by
  obtain ⟨more', hmore, hhead⟩ := reads_extends h
  obtain rfl : (line ++ u :: toks) :: more = more' := List.append_cancel_left hmore
  obtain ⟨rest, hrest⟩ := hhead
  simp only [List.headD_cons, List.append_assoc, List.singleton_append,
    List.append_cancel_left_eq, List.cons.injEq] at hrest
  exact hrest.1

/-! ## Reading inside a line -/

/-- The same state behind lines and tokens read before. -/
def State.behind (L : List (List Token)) (line : List Token) (s : State) : State :=
  match s.lines with
  | [] => ⟨L, line ++ s.line, s.mode⟩
  | l :: ls => ⟨L ++ (line ++ l) :: ls, s.line, s.mode⟩

theorem State.behind_after (L : List (List Token)) (line : List Token) (s : State)
    (e : Effect) : (s.behind L line).after e = (s.after e).behind L line := by
  obtain ⟨lines, l, mode⟩ := s
  unfold State.after
  cases lines with
  | nil => split <;> simp [State.behind]
  | cons h t => split <;> simp [State.behind]

theorem State.behind_mode (L : List (List Token)) (line : List Token) (s : State) :
    (s.behind L line).mode = s.mode := by
  unfold State.behind
  cases s.lines <;> rfl

theorem State.behind_run (L : List (List Token)) (line : List Token) (text : List Char) :
    ∀ s : State, (s.behind L line).run text = (s.run text).map (State.behind L line) := by
  induction text with
  | nil =>
    intro s
    rfl
  | cons c cs ih =>
    intro s
    simp only [State.run_cons, State.step, State.behind_mode]
    cases he : s.mode.step c with
    | none => rfl
    | some e => simp [State.behind_after, ih]

/-- A text that is read as one line is the rest of any line. -/
theorem run_line {text : List Char} {toks : List Token} (L : List (List Token))
    (line : List Token)
    (h : (State.start.run text).bind State.finish = some [toks]) :
    State.run ⟨L, line, .code 0⟩ text = some ⟨L ++ [line ++ toks], [], .code 0⟩ := by
  cases hs : State.start.run text with
  | none => simp [hs] at h
  | some s =>
    simp only [hs, Option.bind_some, State.finish] at h
    split at h
    · rename_i hend
      have hstart : (⟨L, line, .code 0⟩ : State) = State.start.behind L line := by
        simp [State.start, State.behind]
      have hlines : s.lines = [toks] := by simpa using h
      rw [hstart, State.behind_run, hs, Option.map_some, State.behind, hlines]
      simp [hend.1, hend.2]
    · cases h

end Clustering.Ruby
