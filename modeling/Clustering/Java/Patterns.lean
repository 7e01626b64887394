/-
Java.Patterns — regular expressions with `.*`, as Java matches them.

A pattern is what it consumes of a text, if it matches at its start: the
number of characters. `dotStar k` is `.*` with the pattern `k` behind it:
the longest stretch without a line terminator is tried first.
`findAllMatch k` is `findAllMatchIn`: from left to right, each match
behind the one before it. A pattern that matches nothing by itself is not
asked for at the end of a text.
-/
import Mathlib.Data.List.Basic

namespace Java

/-- `.` matches everything but a line terminator. -/
def dot (c : Char) : Bool :=
  c != '\n' && c != '\r' && c != '\u0085' && c != '\u2028' && c != '\u2029'

/-- `\s`. -/
def whitespace (c : Char) : Bool :=
  c == ' ' || c == '\t' || c == '\n' || c == '\x0b' || c == '\x0c' || c == '\r'

abbrev Pattern : Type := List Char → Option ℕ

def dotStar (k : Pattern) : Pattern
  | [] => k []
  | c :: cs => if dot c then ((dotStar k cs).map (· + 1)).or (k (c :: cs)) else k (c :: cs)

/-- The matches from here on, behind `skip` characters of the last one. -/
def findFrom (k : Pattern) : ℕ → List Char → List (List Char)
  | _, [] => []
  | skip + 1, _ :: cs => findFrom k skip cs
  | 0, c :: cs =>
    match k (c :: cs) with
    | some n => (c :: cs).take n :: findFrom k (n - 1) cs
    | none => findFrom k 0 cs

def findAllMatch (k : Pattern) (text : List Char) : List (List Char) := findFrom k 0 text

/-! ## `.*` -/

/-- A text that `.` does not go beyond. -/
def Breaks (text : List Char) : Prop := ∀ c ∈ text.head?, dot c = false

theorem dotStar_breaks {k : Pattern} {text : List Char} (h : Breaks text) :
    dotStar k text = k text := by
  cases text with
  | nil => rfl
  | cons c cs =>
    have hc : dot c = false := h c rfl
    simp [dotStar, hc]

/-- What stands behind a stretch is preferred to what stands in it. -/
theorem dotStar_append {k : Pattern} {n : ℕ} {rest : List Char} (hk : dotStar k rest = some n) :
    ∀ {line : List Char}, line.all dot = true →
      dotStar k (line ++ rest) = some (line.length + n) := by
  intro line hline
  induction line with
  | nil => simpa using hk
  | cons c cs ih =>
    simp only [List.all_cons, Bool.and_eq_true] at hline
    simp [dotStar, hline.1, ih hline.2]
    omega

theorem dotStar_eq_none {k : Pattern} {text : List Char}
    (h : ∀ a b, text = a ++ b → k b = none) : dotStar k text = none := by
  induction text with
  | nil => exact h [] [] rfl
  | cons c cs ih =>
    have hcs : dotStar k cs = none := ih fun a b hab => h (c :: a) b (by rw [hab]; rfl)
    have hc : k (c :: cs) = none := h [] (c :: cs) rfl
    simp [dotStar, hcs, hc]

/-- `.*\)` goes up to the end of a line that ends with the bracket. -/
def closing : Pattern := dotStar fun cs => if cs.head? = some ')' then some 1 else none

theorem closing_line {line rest : List Char} (hline : line.all dot = true) (hrest : Breaks rest) :
    closing (line ++ ')' :: rest) = some (line.length + 1) := by
  have hnone : dotStar (fun cs => if cs.head? = some ')' then some 1 else none) rest = none := by
    rw [dotStar_breaks hrest]
    have hhead : rest.head? ≠ some ')' := by
      intro h
      exact absurd (hrest ')' h) (by decide)
    simp [hhead]
  have hlast : dotStar (fun cs => if cs.head? = some ')' then some 1 else none) (')' :: rest) =
      some 1 := by
    simp [dotStar, hnone]
  exact dotStar_append hlast hline

/-! ## All matches -/

theorem findFrom_skip (k : Pattern) (text : List Char) :
    ∀ skip, findFrom k skip text = findFrom k 0 (text.drop skip) := by
  induction text with
  | nil =>
    intro skip
    cases skip <;> rfl
  | cons c cs ih =>
    intro skip
    cases skip with
    | zero => rfl
    | succ skip => exact ih skip

theorem findAllMatch_some {k : Pattern} {m rest : List Char} (hm : m ≠ [])
    (hk : k (m ++ rest) = some m.length) :
    findAllMatch k (m ++ rest) = m :: findAllMatch k rest := by
  obtain ⟨c, cs, rfl⟩ := List.exists_cons_of_ne_nil hm
  simp only [findAllMatch, List.cons_append, findFrom]
  rw [List.cons_append] at hk
  rw [hk]
  simp [findFrom_skip]

theorem findAllMatch_none {k : Pattern} {c : Char} {rest : List Char}
    (hk : k (c :: rest) = none) : findAllMatch k (c :: rest) = findAllMatch k rest := by
  simp [findAllMatch, findFrom, hk]

theorem findAllMatch_skip {k : Pattern} {rest : List Char} : ∀ {front : List Char},
    (∀ a b, front = a ++ b → b ≠ [] → k (b ++ rest) = none) →
      findAllMatch k (front ++ rest) = findAllMatch k rest := by
  intro front h
  induction front with
  | nil => rfl
  | cons c cs ih =>
    have hc : k (c :: (cs ++ rest)) = none := h [] (c :: cs) rfl (List.cons_ne_nil _ _)
    rw [List.cons_append, findAllMatch_none hc]
    refine ih fun a b hab hb => ?_
    exact h (c :: a) b (by rw [hab, List.cons_append]) hb

end Java
