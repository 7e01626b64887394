/-
Json.Text — reading a text as a JSON value.

`scan` goes through the characters with a `Mode`: between tokens, in a
word, or in a string, where a backslash starts an escape and a control
character is refused. `Builder.step` goes through the tokens with the
arrays and objects that are still open. Both are folds, so a text can be
read in pieces: `scan_append` and `build_append`.

A newline ends whatever precedes it, as no string crosses one
(`step_newline`). Between two newlines the strings are no longer than the
text (`scan_width`); a string that decodes to a text with a quote, a
backslash or a control character is longer than what it decodes to
(`length_decode_lt`).
-/
import Mathlib.Algebra.Ring.Nat
import Mathlib.Data.List.Basic

namespace Json

/-! ## Strings and their pieces -/

/-- A character that may stand in a string as it is. -/
def isPlain (c : Char) : Bool := c ≠ '"' ∧ c ≠ '\\' ∧ 0x20 ≤ c.toNat

/-- A text without characters that have to be escaped. -/
def Plain (cs : List Char) : Prop := ∀ c ∈ cs, isPlain c = true

instance : DecidablePred Plain := fun cs => List.decidableBAll _ cs

/-- What a string is written with. -/
inductive Piece where
  | plain (c : {c : Char // isPlain c = true})
  /-- A backslash and one character, for the character `c`. -/
  | escaped (c : Char)
  /-- `\uXXXX`. -/
  | unit (n : ℕ)
  deriving DecidableEq

namespace Piece

/-- How many characters the piece takes. -/
def width : Piece → ℕ
  | plain _ => 1
  | escaped _ => 2
  | unit _ => 6

/-- The character of a piece by itself. Half a surrogate pair is none. -/
def char : Piece → Char
  | plain c => c
  | escaped c => c
  | unit n => if 0xD800 ≤ n ∧ n < 0xE000 then '\uFFFD' else Char.ofNat n

end Piece

def width (ps : List Piece) : ℕ := (ps.map Piece.width).sum

/-- The text of a string. Two units that are a surrogate pair are one
character. -/
def decode : List Piece → List Char
  | [] => []
  | [p] => [p.char]
  | .unit high :: .unit low :: rest =>
      if (0xD800 ≤ high ∧ high < 0xDC00) ∧ 0xDC00 ≤ low ∧ low < 0xE000 then
        Char.ofNat (0x10000 + (high - 0xD800) * 0x400 + (low - 0xDC00)) :: decode rest
      else (Piece.unit high).char :: decode (.unit low :: rest)
  | p :: rest => p.char :: decode rest

/-- The pieces of a plain text. -/
def pieces (cs : List Char) : List Piece :=
  cs.filterMap fun c => if h : isPlain c = true then some (.plain ⟨c, h⟩) else none

theorem pieces_cons {c : Char} (h : isPlain c = true) (cs : List Char) :
    pieces (c :: cs) = .plain ⟨c, h⟩ :: pieces cs := by
  simp [pieces, h]

theorem decode_plain (c : {c : Char // isPlain c = true}) (ps : List Piece) :
    decode (.plain c :: ps) = c.1 :: decode ps := by
  cases ps <;> simp [decode, Piece.char]

theorem decode_pieces {cs : List Char} (h : Plain cs) : decode (pieces cs) = cs := by
  induction cs with
  | nil => rfl
  | cons c cs ih =>
    rw [pieces_cons (h c List.mem_cons_self), decode_plain,
      ih fun d hd => h d (List.mem_cons_of_mem _ hd)]

theorem length_decode (ps : List Piece) : (decode ps).length ≤ ps.length := by
  fun_induction decode ps with
  | case1 => exact Nat.le_refl _
  | case2 => exact Nat.le_refl _
  | case3 high low rest h ih =>
    simp only [List.length_cons]
    omega
  | case4 high low rest h ih =>
    simp only [List.length_cons] at ih ⊢
    omega
  | case5 p rest h1 h2 ih =>
    simp only [List.length_cons]
    omega

theorem width_cons (p : Piece) (ps : List Piece) : width (p :: ps) = p.width + width ps := by
  simp [width]

/-- A text that is not plain takes more characters than it has. -/
theorem length_decode_lt {ps : List Piece} (h : ¬ Plain (decode ps)) :
    (decode ps).length < width ps := by
  -- if every piece took one character, all would be plain
  have hpieces : ¬ (∃ cs, Plain cs ∧ ps = pieces cs) → ps.length < width ps := by
    clear h
    intro h
    induction ps with
    | nil => exact absurd ⟨[], by simp [Plain], rfl⟩ h
    | cons p ps ih =>
      rw [width_cons, List.length_cons]
      have hle : ∀ qs : List Piece, qs.length ≤ width qs := by
        intro qs
        induction qs with
        | nil => exact Nat.le_refl _
        | cons q qs ih =>
          rw [width_cons, List.length_cons]
          cases q <;> simp only [Piece.width] <;> omega
      cases p with
      | plain c =>
        have hrest : ps.length < width ps := by
          refine ih fun ⟨cs, hcs, hps⟩ => h ⟨c.1 :: cs, ?_, ?_⟩
          · intro d hd
            rcases List.mem_cons.mp hd with rfl | hd
            · exact c.2
            · exact hcs d hd
          · rw [pieces_cons c.2, hps]
        simp only [Piece.width]
        omega
      | escaped c =>
        have := hle ps
        simp only [Piece.width]
        omega
      | unit n =>
        have := hle ps
        simp only [Piece.width]
        omega
  refine Nat.lt_of_le_of_lt (length_decode ps) (hpieces ?_)
  rintro ⟨cs, hcs, rfl⟩
  rw [decode_pieces hcs] at h
  exact h hcs

/-! ## Scanning -/

inductive Token where
  | sign (c : Char)
  | str (ps : List Piece)
  /-- A number, or `true`, `false`, `null`. -/
  | word (w : List Char)
  deriving DecidableEq

inductive Mode where
  | between
  | word (w : List Char)
  | inside (ps : List Piece)
  /-- After a backslash. -/
  | escape (ps : List Piece)
  /-- After `\u` and fewer than four digits. -/
  | unicode (ps : List Piece) (digits : List ℕ)
  deriving DecidableEq

def isSpace (c : Char) : Bool := c ∈ [' ', '\t', '\n', '\r']

def isSign (c : Char) : Bool := c ∈ ['\x7b', '\x7d', '[', ']', ':', ',']

def escapeOf (c : Char) : Option Char :=
  [('"', '"'), ('\\', '\\'), ('/', '/'), ('b', '\x08'), ('f', '\x0c'), ('n', '\n'), ('r', '\r'),
    ('t', '\t')].lookup c

def hexDigit (c : Char) : Option ℕ :=
  if '0' ≤ c ∧ c ≤ '9' then some (c.toNat - '0'.toNat)
  else if 'a' ≤ c ∧ c ≤ 'f' then some (c.toNat - 'a'.toNat + 10)
  else if 'A' ≤ c ∧ c ≤ 'F' then some (c.toNat - 'A'.toNat + 10)
  else none

/-- One character, between tokens. -/
def start (c : Char) : Mode × List Token :=
  if c = '"' then (.inside [], [])
  else if isSpace c then (.between, [])
  else if isSign c then (.between, [.sign c])
  else (.word [c], [])

/-- One character: the mode after it and the tokens it completes. -/
def step : Mode → Char → Option (Mode × List Token)
  | .between, c => some (start c)
  | .word w, c =>
      if c = '"' || isSpace c || isSign c then some ((start c).1, .word w :: (start c).2)
      else some (.word (w ++ [c]), [])
  | .inside ps, c =>
      if c = '"' then some (.between, [.str ps])
      else if c = '\\' then some (.escape ps, [])
      else if h : isPlain c = true then some (.inside (ps ++ [.plain ⟨c, h⟩]), [])
      else none
  | .escape ps, c =>
      if c = 'u' then some (.unicode ps [], [])
      else (escapeOf c).map fun d => (.inside (ps ++ [.escaped d]), [])
  | .unicode ps digits, c =>
      (hexDigit c).map fun d =>
        if digits.length = 3 then
          (.inside (ps ++ [.unit ((digits ++ [d]).foldl (fun n d => 16 * n + d) 0)]), [])
        else (.unicode ps (digits ++ [d]), [])

def scan : Mode → List Char → Option (Mode × List Token)
  | m, [] => some (m, [])
  | m, c :: cs =>
      (step m c).bind fun x => (scan x.1 cs).map fun y => (y.1, x.2 ++ y.2)

theorem scan_append (m : Mode) (as bs : List Char) :
    scan m (as ++ bs) =
      (scan m as).bind fun x => (scan x.1 bs).map fun y => (y.1, x.2 ++ y.2) := by
  induction as generalizing m with
  | nil => simp [scan]
  | cons a as ih =>
    rw [List.cons_append, scan, scan]
    cases step m a with
    | none => rfl
    | some x =>
      simp only [Option.bind_some, ih]
      cases scan x.1 as with
      | none => rfl
      | some y => simp [Function.comp_def]

/-- Scanning in two pieces. -/
theorem scan_append_eq_some {m m' : Mode} {as bs : List Char} {ts : List Token} :
    scan m (as ++ bs) = some (m', ts) ↔
      ∃ n us vs, scan m as = some (n, us) ∧ scan n bs = some (m', vs) ∧ ts = us ++ vs := by
  rw [scan_append, Option.bind_eq_some_iff]
  constructor
  · rintro ⟨⟨n, us⟩, has, h⟩
    obtain ⟨⟨k, vs⟩, hbs, h⟩ := Option.map_eq_some_iff.mp h
    cases h
    exact ⟨n, us, vs, has, hbs, rfl⟩
  · rintro ⟨n, us, vs, has, hbs, rfl⟩
    exact ⟨(n, us), has, by rw [hbs]; rfl⟩

theorem scan_append_of_eq {m n k : Mode} {as bs : List Char} {us vs : List Token}
    (has : scan m as = some (n, us)) (hbs : scan n bs = some (k, vs)) :
    scan m (as ++ bs) = some (k, us ++ vs) :=
  scan_append_eq_some.mpr ⟨n, us, vs, has, hbs, rfl⟩

/-- The rest of a text whose start has been scanned. -/
theorem scan_rest {m n m' : Mode} {as bs : List Char} {us ts : List Token}
    (h : scan m (as ++ bs) = some (m', ts)) (has : scan m as = some (n, us)) :
    ∃ vs, scan n bs = some (m', vs) ∧ ts = us ++ vs := by
  obtain ⟨n', us', vs, has', hbs, rfl⟩ := scan_append_eq_some.mp h
  obtain ⟨rfl, rfl⟩ := Prod.mk.inj (Option.some.inj (has'.symm.trans has))
  exact ⟨vs, hbs, rfl⟩

/-- A plain text in a string. -/
theorem scan_plain {cs : List Char} (h : Plain cs) (ps : List Piece) :
    scan (.inside ps) cs = some (.inside (ps ++ pieces cs), []) := by
  induction cs generalizing ps with
  | nil => simp [scan, pieces]
  | cons c cs ih =>
    have hc : isPlain c = true := h c List.mem_cons_self
    have hq : c ≠ '"' := by
      rintro rfl
      exact absurd hc (by decide)
    have hb : c ≠ '\\' := by
      rintro rfl
      exact absurd hc (by decide)
    have hstep : step (.inside ps) c = some (.inside (ps ++ [.plain ⟨c, hc⟩]), []) := by
      simp [step, hq, hb, hc]
    rw [scan, hstep, Option.bind_some, ih fun d hd => h d (List.mem_cons_of_mem _ hd),
      pieces_cons hc]
    simp

/-! ## Where strings end -/

/-- A token that is no string. -/
def Token.NoString (t : Token) : Prop := ∀ ps, t ≠ .str ps

theorem start_noString (c : Char) : ∀ t ∈ (start c).2, t.NoString := by
  intro t ht ps
  unfold start at ht
  split at ht
  · simp at ht
  · split at ht
    · simp at ht
    · split at ht
      · rw [List.mem_singleton] at ht
        simp [ht]
      · simp at ht

/-- Only a quote completes a string. -/
theorem step_noString {m m' : Mode} {c : Char} {ts : List Token} (hc : c ≠ '"')
    (h : step m c = some (m', ts)) : ∀ t ∈ ts, t.NoString := by
  cases m with
  | between =>
    obtain ⟨-, rfl⟩ := Prod.mk.inj (Option.some.inj h)
    exact start_noString c
  | word w =>
    rw [step] at h
    split at h
    · obtain ⟨-, rfl⟩ := Prod.mk.inj (Option.some.inj h)
      intro t ht ps
      rcases List.mem_cons.mp ht with rfl | ht
      · simp
      · exact start_noString c t ht ps
    · obtain ⟨-, rfl⟩ := Prod.mk.inj (Option.some.inj h)
      simp
  | inside ps =>
    rw [step, if_neg hc] at h
    split at h
    · obtain ⟨-, rfl⟩ := Prod.mk.inj (Option.some.inj h)
      simp
    · split at h
      · obtain ⟨-, rfl⟩ := Prod.mk.inj (Option.some.inj h)
        simp
      · cases h
  | escape ps =>
    rw [step] at h
    split at h
    · obtain ⟨-, rfl⟩ := Prod.mk.inj (Option.some.inj h)
      simp
    · obtain ⟨d, -, h⟩ := Option.map_eq_some_iff.mp h
      obtain ⟨-, rfl⟩ := Prod.mk.inj h
      simp
  | unicode ps digits =>
    obtain ⟨d, -, h⟩ := Option.map_eq_some_iff.mp h
    split at h
    · obtain ⟨-, rfl⟩ := Prod.mk.inj h
      simp
    · obtain ⟨-, rfl⟩ := Prod.mk.inj h
      simp

/-- A newline ends whatever precedes it, or is refused. -/
theorem step_newline {m m' : Mode} {ts : List Token} (h : step m '\n' = some (m', ts)) :
    m' = .between ∧ ∀ t ∈ ts, t.NoString := by
  refine ⟨?_, step_noString (by decide) h⟩
  cases m with
  | between => exact (Prod.mk.inj (Option.some.inj h)).1.symm
  | word w => exact (Prod.mk.inj (Option.some.inj h)).1.symm
  | inside ps => cases h
  | escape ps => cases h
  | unicode ps digits => cases h

/-- The characters of a string that is not complete. -/
def Mode.pending : Mode → ℕ
  | .between | .word _ => 0
  | .inside ps => width ps
  | .escape ps => width ps + 1
  | .unicode ps digits => width ps + 2 + min digits.length 3

theorem start_pending (c : Char) : (start c).1.pending = 0 := by
  unfold start
  split
  · rfl
  · split
    · rfl
    · split <;> rfl

/-- One character adds at most one to a string. -/
theorem step_width {m m' : Mode} {c : Char} {ts : List Token} (h : step m c = some (m', ts)) :
    m'.pending ≤ m.pending + 1 ∧ ∀ ps, Token.str ps ∈ ts → width ps ≤ m.pending := by
  by_cases hc : c = '"' ∧ ∃ ps, m = .inside ps
  · obtain ⟨rfl, ps, rfl⟩ := hc
    obtain ⟨rfl, rfl⟩ := Prod.mk.inj (Option.some.inj h)
    refine ⟨Nat.zero_le _, fun qs hqs => ?_⟩
    cases List.mem_singleton.mp hqs
    exact Nat.le_refl _
  cases m with
  | between =>
    have hm : start c = (m', ts) := Option.some.inj h
    have hpending := start_pending c
    have hts := start_noString c
    rw [hm] at hpending hts
    exact ⟨hpending ▸ Nat.zero_le _, fun ps hps => absurd rfl (hts _ hps ps)⟩
  | word w =>
    rw [step] at h
    split at h
    · obtain ⟨rfl, rfl⟩ := Prod.mk.inj (Option.some.inj h)
      refine ⟨(start_pending c).symm ▸ Nat.zero_le _, fun ps hps => ?_⟩
      rcases List.mem_cons.mp hps with hw | hps
      · cases hw
      · exact absurd rfl (start_noString c _ hps ps)
    · obtain ⟨rfl, rfl⟩ := Prod.mk.inj (Option.some.inj h)
      exact ⟨Nat.zero_le _, by simp⟩
  | inside ps =>
    rw [step, if_neg fun h => hc ⟨h, ps, rfl⟩] at h
    split at h
    · obtain ⟨rfl, rfl⟩ := Prod.mk.inj (Option.some.inj h)
      exact ⟨Nat.le_refl _, by simp⟩
    · split at h
      · obtain ⟨rfl, rfl⟩ := Prod.mk.inj (Option.some.inj h)
        exact ⟨by simp [Mode.pending, width, Piece.width], by simp⟩
      · cases h
  | escape ps =>
    rw [step] at h
    split at h
    · obtain ⟨rfl, rfl⟩ := Prod.mk.inj (Option.some.inj h)
      exact ⟨by simp [Mode.pending], by simp⟩
    · obtain ⟨d, -, h⟩ := Option.map_eq_some_iff.mp h
      obtain ⟨rfl, rfl⟩ := Prod.mk.inj h
      exact ⟨by simp [Mode.pending, width, Piece.width], by simp⟩
  | unicode ps digits =>
    obtain ⟨d, -, h⟩ := Option.map_eq_some_iff.mp h
    split at h
    · rename_i hlen
      obtain ⟨rfl, rfl⟩ := Prod.mk.inj h
      exact ⟨by simp [Mode.pending, width, Piece.width, hlen], by simp⟩
    · obtain ⟨rfl, rfl⟩ := Prod.mk.inj h
      refine ⟨?_, by simp⟩
      simp only [Mode.pending, List.length_append, List.length_singleton]
      omega

/-- **No string is longer than the text it is scanned from.** -/
theorem scan_width {m m' : Mode} {cs : List Char} {ts : List Token}
    (h : scan m cs = some (m', ts)) :
    m'.pending ≤ m.pending + cs.length ∧
      ∀ ps, Token.str ps ∈ ts → width ps + 1 ≤ m.pending + cs.length := by
  induction cs generalizing m m' ts with
  | nil =>
    obtain ⟨rfl, rfl⟩ := Prod.mk.inj (Option.some.inj h)
    exact ⟨Nat.le_refl _, by simp⟩
  | cons c cs ih =>
    obtain ⟨⟨n, us⟩, hstep, h⟩ := Option.bind_eq_some_iff.mp h
    obtain ⟨⟨k, vs⟩, hscan, h⟩ := Option.map_eq_some_iff.mp h
    obtain ⟨rfl, rfl⟩ := Prod.mk.inj h
    obtain ⟨hpending, hus⟩ := step_width hstep
    obtain ⟨hk, hvs⟩ := ih hscan
    rw [List.length_cons]
    refine ⟨by simp only at hpending hk ⊢; omega, fun ps hps => ?_⟩
    rcases List.mem_append.mp hps with hps | hps
    · have := hus ps hps
      omega
    · have := hvs ps hps
      simp only at hpending this
      omega

/-! ## Values -/

inductive Value where
  | null
  | bool (b : Bool)
  /-- A number, as it is written. -/
  | num (text : String)
  | str (s : String)
  | arr (vs : List Value)
  | obj (ms : List (String × Value))

/-- What is left after at least one digit. -/
def digits? (cs : List Char) : Option (List Char) :=
  if (cs.takeWhile Char.isDigit).isEmpty then none else some (cs.dropWhile Char.isDigit)

def isExponent : List Char → Bool
  | [] => true
  | e :: '+' :: cs => (e = 'e' || e = 'E') && digits? cs = some []
  | e :: '-' :: cs => (e = 'e' || e = 'E') && digits? cs = some []
  | e :: cs => (e = 'e' || e = 'E') && digits? cs = some []

def isFraction : List Char → Bool
  | '.' :: cs => (digits? cs).any isExponent
  | cs => isExponent cs

def isUnsigned : List Char → Bool
  | '0' :: cs => isFraction cs
  | c :: cs => c.isDigit && isFraction (cs.dropWhile Char.isDigit)
  | [] => false

def isNumber : List Char → Bool
  | '-' :: cs => isUnsigned cs
  | cs => isUnsigned cs

/-- The value of a token by itself. -/
def Token.atom : Token → Option Value
  | .str ps => some (.str (String.ofList (decode ps)))
  | .sign _ => none
  | .word w =>
      if w = "null".toList then some .null
      else if w = "true".toList then some (.bool true)
      else if w = "false".toList then some (.bool false)
      else if isNumber w then some (.num (String.ofList w))
      else none

/-- An array or object that is open around the current value. -/
inductive Frame where
  | item (vs : List Value)
  | member (ms : List (String × Value)) (name : String)

/-- What has been read of a value. -/
inductive Builder where
  /-- A value must follow. -/
  | value (fs : List Frame)
  /-- A value or the end of the array. -/
  | items (fs : List Frame)
  /-- The name of a member or, if there is none so far, the end of the object. -/
  | members (ms : List (String × Value)) (fs : List Frame)
  | colon (ms : List (String × Value)) (name : String) (fs : List Frame)
  /-- A value is complete. -/
  | after (v : Value) (fs : List Frame)

namespace Builder

/-- The start of a value. -/
def begin (t : Token) (fs : List Frame) : Option Builder :=
  match t with
  | .sign '[' => some (items fs)
  | .sign '\x7b' => some (members [] fs)
  | t => t.atom.map (after · fs)

def step : Builder → Token → Option Builder
  | value fs, t => begin t fs
  | items fs, .sign ']' => some (after (.arr []) fs)
  | items fs, t => begin t (.item [] :: fs)
  | members ms fs, .str ps => some (colon ms (String.ofList (decode ps)) fs)
  | members [] fs, .sign '\x7d' => some (after (.obj []) fs)
  | colon ms name fs, .sign ':' => some (value (.member ms name :: fs))
  | after v (.item vs :: fs), .sign ',' => some (value (.item (vs ++ [v]) :: fs))
  | after v (.item vs :: fs), .sign ']' => some (after (.arr (vs ++ [v])) fs)
  | after v (.member ms name :: fs), .sign ',' => some (members (ms ++ [(name, v)]) fs)
  | after v (.member ms name :: fs), .sign '\x7d' => some (after (.obj (ms ++ [(name, v)])) fs)
  | _, _ => none

end Builder

def build : Builder → List Token → Option Builder
  | b, [] => some b
  | b, t :: ts => (b.step t).bind fun b => build b ts

theorem build_append (b : Builder) (ts us : List Token) :
    build b (ts ++ us) = (build b ts).bind fun b => build b us := by
  induction ts generalizing b with
  | nil => rfl
  | cons t ts ih =>
    rw [List.cons_append, build, build]
    cases b.step t with
    | none => rfl
    | some b => exact ih b

/-! ## Documents that are put together -/

section

variable {α : Type}

theorem scan_intercalate {f : α → List Char} {g : α → List Token} {xs : List α}
    (h : ∀ x ∈ xs, scan .between (f x) = some (.between, g x)) :
    scan .between ([','].intercalate (xs.map f)) =
      some (.between, [Token.sign ','].intercalate (xs.map g)) := by
  induction xs with
  | nil => rfl
  | cons x xs ih =>
    have hx := h x List.mem_cons_self
    cases xs with
    | nil => simpa using hx
    | cons y ys =>
      have hrest := ih fun z hz => h z (List.mem_cons_of_mem _ hz)
      have hcomma : scan .between [','] = some (.between, [.sign ',']) := rfl
      simp only [List.map_cons, List.intercalate_cons_cons] at hrest ⊢
      exact scan_append_of_eq (scan_append_of_eq hx hcomma) hrest

/-- Building in two pieces. -/
theorem build_append_of_eq {b c : Builder} {ts : List Token} (h : build b ts = some c)
    (us : List Token) : build b (ts ++ us) = build c us := by
  rw [build_append, h, Option.bind_some]

/-- The items of an array and its end. -/
theorem build_items {g : α → List Token} {v : α → Value} {xs : List α}
    (h : ∀ x ∈ xs, ∀ fs, build (.value fs) (g x) = some (.after (v x) fs)) (hne : xs ≠ [])
    (vs : List Value) (fs : List Frame) :
    build (.value (.item vs :: fs)) ([.sign ','].intercalate (xs.map g) ++ [.sign ']']) =
      some (.after (.arr (vs ++ xs.map v)) fs) := by
  induction xs generalizing vs with
  | nil => exact absurd rfl hne
  | cons x xs ih =>
    have hx := h x List.mem_cons_self (.item vs :: fs)
    cases xs with
    | nil =>
      simp only [List.map_cons, List.map_nil, List.intercalate_singleton]
      rw [build_append_of_eq hx]
      rfl
    | cons y ys =>
      have hrest := ih (fun z hz => h z (List.mem_cons_of_mem _ hz)) (by simp) (vs ++ [v x])
      simp only [List.map_cons, List.intercalate_cons_cons, List.append_assoc] at hrest ⊢
      rw [build_append_of_eq hx]
      exact hrest

/-- The tokens of a member. -/
def memberTokens (name : String) (value : List Token) : List Token :=
  .str (pieces name.toList) :: .sign ':' :: value

/-- The members of an object and its end. -/
theorem build_members {name : α → String} {g : α → List Token} {v : α → Value} {xs : List α}
    (hname : ∀ x ∈ xs, Plain (name x).toList)
    (h : ∀ x ∈ xs, ∀ fs, build (.value fs) (g x) = some (.after (v x) fs)) (hne : xs ≠ [])
    (ms : List (String × Value)) (fs : List Frame) :
    build (.members ms fs)
        ([.sign ','].intercalate (xs.map fun x => memberTokens (name x) (g x)) ++
          [.sign '\x7d']) =
      some (.after (.obj (ms ++ xs.map fun x => (name x, v x))) fs) := by
  induction xs generalizing ms with
  | nil => exact absurd rfl hne
  | cons x xs ih =>
    have hvalue := h x List.mem_cons_self (.member ms (name x) :: fs)
    have hx : build (.members ms fs) (memberTokens (name x) (g x)) =
        some (.after (v x) (.member ms (name x) :: fs)) := by
      rw [← hvalue]
      simp [memberTokens, build, Builder.step, decode_pieces (hname x List.mem_cons_self)]
    cases xs with
    | nil =>
      simp only [List.map_cons, List.map_nil, List.intercalate_singleton]
      rw [build_append_of_eq hx]
      rfl
    | cons y ys =>
      have hrest := ih (fun z hz => hname z (List.mem_cons_of_mem _ hz))
        (fun z hz => h z (List.mem_cons_of_mem _ hz)) (by simp) (ms ++ [(name x, v x)])
      simp only [List.map_cons, List.intercalate_cons_cons, List.append_assoc] at hrest ⊢
      rw [build_append_of_eq hx]
      exact hrest

end

/-! ## Reading -/

/-- The tokens of a text. The newline ends the last word. -/
def tokens (s : String) : Option (List Token) :=
  (scan .between (s.toList ++ ['\n'])).map Prod.snd

/-- Read a text as a value. -/
def parse (s : String) : Option Value :=
  (tokens s).bind fun ts =>
    match build (.value []) ts with
    | some (.after v []) => some v
    | _ => none

/-- The value of a member, the first of that name. -/
def Value.member (name : String) : Value → Option Value
  | .obj ms => ms.lookup name
  | _ => none

/-! ## Strings in values -/

/-- The string is the value or a value in it. -/
inductive Value.Holds (s : String) : Value → Prop where
  | str : Holds s (.str s)
  | item {v : Value} {vs : List Value} : v ∈ vs → Holds s v → Holds s (.arr vs)
  | member {name : String} {v : Value} {ms : List (String × Value)} :
      (name, v) ∈ ms → Holds s v → Holds s (.obj ms)

def Frame.Holds (s : String) : Frame → Prop
  | .item vs => ∃ v ∈ vs, v.Holds s
  | .member ms _ => ∃ x ∈ ms, x.2.Holds s

def Builder.Holds (s : String) : Builder → Prop
  | .value fs | .items fs => ∃ f ∈ fs, f.Holds s
  | .members ms fs | .colon ms _ fs => (∃ x ∈ ms, x.2.Holds s) ∨ ∃ f ∈ fs, f.Holds s
  | .after v fs => v.Holds s ∨ ∃ f ∈ fs, f.Holds s

/-- The string is written by one of the tokens. -/
def WrittenIn (s : String) (ts : List Token) : Prop :=
  ∃ ps, Token.str ps ∈ ts ∧ s = String.ofList (decode ps)

theorem atom_holds {t : Token} {v : Value} {s : String} (h : t.atom = some v) (hs : v.Holds s) :
    WrittenIn s [t] := by
  cases t with
  | sign c => cases h
  | str ps =>
    cases h
    cases hs
    exact ⟨ps, List.mem_singleton_self _, rfl⟩
  | word w =>
    rw [Token.atom] at h
    split at h
    · cases h
      cases hs
    · split at h
      · cases h
        cases hs
      · split at h
        · cases h
          cases hs
        · split at h
          · cases h
            cases hs
          · cases h

theorem begin_holds {t : Token} {fs : List Frame} {b : Builder} {s : String}
    (h : Builder.begin t fs = some b) (hs : b.Holds s) :
    (∃ f ∈ fs, f.Holds s) ∨ WrittenIn s [t] := by
  unfold Builder.begin at h
  split at h
  · cases h
    exact .inl hs
  · cases h
    rcases hs with ⟨x, hx, -⟩ | hs
    · cases hx
    · exact .inl hs
  · obtain ⟨v, hv, rfl⟩ := Option.map_eq_some_iff.mp h
    rcases hs with hs | hs
    · exact .inr (atom_holds hv hs)
    · exact .inl hs

/-- A string in what has been read was there before, or the token wrote it. -/
theorem step_holds {b b' : Builder} {t : Token} {s : String} (h : b.step t = some b')
    (hs : b'.Holds s) : b.Holds s ∨ WrittenIn s [t] := by
  unfold Builder.step at h
  split at h
  case h_1 fs => exact begin_holds h hs
  case h_2 fs =>
    cases h
    rcases hs with hs | hs
    · cases hs with
      | item hv _ => cases hv
    · exact .inl hs
  case h_3 fs t _ =>
    rcases begin_holds h hs with ⟨f, hf, hs⟩ | hs
    · rcases List.mem_cons.mp hf with rfl | hf
      · obtain ⟨v, hv, -⟩ := hs
        cases hv
      · exact .inl ⟨f, hf, hs⟩
    · exact .inr hs
  case h_4 ms fs ps =>
    cases h
    exact .inl hs
  case h_5 fs =>
    cases h
    rcases hs with hs | hs
    · cases hs with
      | member hx _ => cases hx
    · exact .inl (.inr hs)
  case h_6 ms name fs =>
    cases h
    obtain ⟨f, hf, hs⟩ := hs
    rcases List.mem_cons.mp hf with rfl | hf
    · exact .inl (.inl hs)
    · exact .inl (.inr ⟨f, hf, hs⟩)
  case h_7 v vs fs =>
    cases h
    obtain ⟨f, hf, hs⟩ := hs
    rcases List.mem_cons.mp hf with rfl | hf
    · obtain ⟨w, hw, hs⟩ := hs
      rcases List.mem_append.mp hw with hw | hw
      · exact .inl (.inr ⟨_, List.mem_cons_self, w, hw, hs⟩)
      · cases List.mem_singleton.mp hw
        exact .inl (.inl hs)
    · exact .inl (.inr ⟨f, List.mem_cons_of_mem _ hf, hs⟩)
  case h_8 v vs fs =>
    cases h
    rcases hs with hs | ⟨f, hf, hs⟩
    · cases hs with
      | item hw hs =>
        rcases List.mem_append.mp hw with hw | hw
        · exact .inl (.inr ⟨_, List.mem_cons_self, _, hw, hs⟩)
        · cases List.mem_singleton.mp hw
          exact .inl (.inl hs)
    · exact .inl (.inr ⟨f, List.mem_cons_of_mem _ hf, hs⟩)
  case h_9 v ms name fs =>
    cases h
    rcases hs with ⟨x, hx, hs⟩ | ⟨f, hf, hs⟩
    · rcases List.mem_append.mp hx with hx | hx
      · exact .inl (.inr ⟨_, List.mem_cons_self, x, hx, hs⟩)
      · cases List.mem_singleton.mp hx
        exact .inl (.inl hs)
    · exact .inl (.inr ⟨f, List.mem_cons_of_mem _ hf, hs⟩)
  case h_10 v ms name fs =>
    cases h
    rcases hs with hs | ⟨f, hf, hs⟩
    · cases hs with
      | member hx hs =>
        rcases List.mem_append.mp hx with hx | hx
        · exact .inl (.inr ⟨_, List.mem_cons_self, _, hx, hs⟩)
        · cases List.mem_singleton.mp hx
          exact .inl (.inl hs)
    · exact .inl (.inr ⟨f, List.mem_cons_of_mem _ hf, hs⟩)
  case h_11 => cases h

theorem build_holds {b b' : Builder} {ts : List Token} {s : String} (h : build b ts = some b')
    (hs : b'.Holds s) : b.Holds s ∨ WrittenIn s ts := by
  induction ts generalizing b with
  | nil =>
    obtain rfl := Option.some.inj h
    exact .inl hs
  | cons t ts ih =>
    obtain ⟨c, hc, h⟩ := Option.bind_eq_some_iff.mp h
    rcases ih h with hb | ⟨ps, hps, rfl⟩
    · rcases step_holds hc hb with hb | ⟨ps, hps, rfl⟩
      · exact .inl hb
      · cases List.mem_singleton.mp hps
        exact .inr ⟨ps, List.mem_cons_self, rfl⟩
    · exact .inr ⟨ps, List.mem_cons_of_mem _ hps, rfl⟩

/-- A text that can be read, with its tokens. -/
theorem parse_eq_some {s : String} {v : Value} :
    parse s = some v ↔ ∃ ts, tokens s = some ts ∧ build (.value []) ts = some (.after v []) := by
  unfold parse
  rw [Option.bind_eq_some_iff]
  refine exists_congr fun ts => and_congr_right fun _ => ?_
  split
  · rename_i w hw
    rw [hw]
    simp
  · rename_i hno
    simp only [reduceCtorEq, false_iff]
    exact hno v

/-- **Every string in a value is written in the text.** -/
theorem parse_holds {s : String} {v : Value} {x : String} (h : parse s = some v)
    (hx : v.Holds x) : ∃ ts, tokens s = some ts ∧ WrittenIn x ts := by
  obtain ⟨ts, hts, hb⟩ := parse_eq_some.mp h
  refine ⟨ts, hts, ?_⟩
  rcases build_holds hb (.inl hx) with ⟨f, hf, -⟩ | hw
  · cases hf
  · exact hw

theorem member_holds {v w : Value} {name x : String} (h : v.member name = some w)
    (hx : w.Holds x) : v.Holds x := by
  cases v with
  | obj ms =>
    obtain ⟨ms₁, ms₂, rfl, -⟩ := List.lookup_eq_some_iff.mp h
    exact .member (List.mem_append_right _ List.mem_cons_self) hx
  | null | bool | num | str | arr => cases h

end Json
