/-
Clustering.Ruby.Literals — which texts stand for themselves.

A text written between double quotes is read back as its own value
exactly when it is `Plain` (`reads_quoted`), a text written as the body
of a here-document exactly when it is a `Body` (`reads_here`). Both are
equivalences, whatever stands behind the text in the file: an escape
makes the value shorter than the text, and a quote or a terminator that
is taken for text makes the value hold a character too often. A text
written without quotes is never read as its own value (`not_reads_bare`).
-/
import Mathlib.Data.List.Infix
import Clustering.Ruby.Reader

namespace Clustering.Ruby

/-! ## Line breaks -/

theorem unixLines_cons {c : Char} (h : c ≠ '\r') (cs : List Char) :
    unixLines (c :: cs) = c :: unixLines cs := by
  cases cs with
  | nil => rfl
  | cons d cs => simp [unixLines, h]

theorem unixLines_append {c : Char} (h : c ≠ '\n') (xs ys : List Char) :
    unixLines (xs ++ c :: ys) = unixLines xs ++ unixLines (c :: ys) := by
  induction xs with
  | nil => rfl
  | cons x xs ih =>
    cases xs with
    | nil => simp [unixLines, h]
    | cons y xs =>
      simp only [List.cons_append, unixLines] at ih ⊢
      split <;> simp [ih]

theorem unixLines_append_newline (xs ys : List Char) :
    unixLines (xs ++ '\n' :: ys) = unixLines (xs ++ ['\n']) ++ unixLines ys := by
  induction xs with
  | nil => rw [List.nil_append, unixLines_cons (by decide)]; rfl
  | cons x xs ih =>
    cases xs with
    | nil =>
      have hn : ∀ cs : List Char, unixLines ('\n' :: cs) = '\n' :: unixLines cs :=
        unixLines_cons (by decide)
      simp only [List.cons_append, List.nil_append, unixLines, hn]
      split <;> simp
    | cons y xs =>
      simp only [List.cons_append, unixLines] at ih ⊢
      split <;> simp [ih]

/-- Joining line breaks drops carriage returns and nothing else. -/
theorem count_unixLines {d : Char} (h : d ≠ '\r') (xs : List Char) :
    (unixLines xs).count d = xs.count d := by
  induction xs using unixLines.induct with
  | case1 => rfl
  | case2 c => rfl
  | case3 c e cs hcr ih =>
    rw [unixLines, if_pos hcr, ih, hcr.1, List.count_cons_of_ne (Ne.symm h)]
  | case4 c e cs hcr ih =>
    rw [unixLines, if_neg hcr, List.count_cons, ih, List.count_cons (l := e :: cs)]

theorem length_unixLines_le (xs : List Char) : (unixLines xs).length ≤ xs.length := by
  induction xs using unixLines.induct with
  | case1 => simp [unixLines]
  | case2 c => simp [unixLines]
  | case3 c e cs hcr ih =>
    rw [unixLines, if_pos hcr]
    simp only [List.length_cons] at ih ⊢
    omega
  | case4 c e cs hcr ih =>
    rw [unixLines, if_neg hcr]
    simp only [List.length_cons] at ih ⊢
    omega

theorem unixLines_eq_self_iff (xs : List Char) :
    unixLines xs = xs ↔ ¬ ['\r', '\n'] <:+: xs := by
  induction xs using unixLines.induct with
  | case1 => simp [unixLines]
  | case2 c => simp [unixLines, List.infix_cons_iff]
  | case3 c e cs hcr ih =>
    constructor
    · intro h
      have hle := length_unixLines_le (e :: cs)
      rw [unixLines, if_pos hcr] at h
      rw [h] at hle
      simp only [List.length_cons] at hle
      omega
    · intro h
      exact absurd ⟨[], cs, by simp [hcr.1, hcr.2]⟩ h
  | case4 c e cs hcr ih =>
    rw [unixLines, if_neg hcr, List.infix_cons_iff, not_or, ← ih]
    constructor
    · intro h
      refine ⟨?_, (List.cons.inj h).2⟩
      intro hpre
      simp only [List.cons_prefix_cons, List.nil_prefix, and_true] at hpre
      exact hcr ⟨hpre.1.symm, hpre.2.symm⟩
    · intro h
      rw [h.2]

theorem unixLines_eq_self_of_length {xs : List Char}
    (h : (unixLines xs).length = xs.length) : unixLines xs = xs := by
  induction xs using unixLines.induct with
  | case1 => rfl
  | case2 c => rfl
  | case3 c e cs hcr ih =>
    have hle := length_unixLines_le (e :: cs)
    rw [unixLines, if_pos hcr] at h
    simp only [List.length_cons] at h hle
    omega
  | case4 c e cs hcr ih =>
    rw [unixLines, if_neg hcr] at h ⊢
    rw [ih (by simpa using h)]

/-! ## Interpolation -/

def startsName (cs : List Char) : Bool := cs.head?.any nameStart

/-- Behind `#$`. -/
def startsGlobal : List Char → Bool
  | [] => false
  | c :: cs => if c = '-' then startsName cs else globalMark c || nameChar c

/-- Behind `#@`. -/
def startsInstance : List Char → Bool
  | [] => false
  | c :: cs => if c = '@' then startsName cs else nameStart c

/-- What may stand behind a `#` that begins an interpolation. -/
def startsVariable : List Char → Bool
  | [] => false
  | c :: cs =>
    if c = '{' then true
    else if c = '$' then startsGlobal cs
    else if c = '@' then startsInstance cs
    else false

def interpolates : List Char → Bool
  | [] => false
  | c :: cs => (c == '#' && startsVariable cs) || interpolates cs

/-- What a state says about the characters behind it. -/
def Hash.pending : Hash → List Char → Bool
  | .clear, _ => false
  | .sharp, cs => startsVariable cs
  | .dollar, cs => startsGlobal cs
  | .dollarDash, cs => startsName cs
  | .sign, cs => startsInstance cs
  | .signSign, cs => startsName cs

def Hash.run (h : Hash) (text : List Char) : Option Hash := text.foldlM Hash.next h

@[simp] theorem Hash.run_nil (h : Hash) : h.run [] = some h := rfl

@[simp] theorem Hash.run_cons (h : Hash) (c : Char) (cs : List Char) :
    h.run (c :: cs) = (h.next c).bind (·.run cs) := rfl

theorem Hash.run_append (h : Hash) (xs ys : List Char) :
    h.run (xs ++ ys) = (h.run xs).bind (·.run ys) := by
  simp only [Hash.run, List.foldlM_append]
  rfl

theorem Hash.pending_fresh (c : Char) (cs : List Char) :
    (Hash.fresh c).pending cs = (c == '#' && startsVariable cs) := by
  unfold Hash.fresh
  by_cases h : c = '#'
  · simp [h, Hash.pending]
  · simp [h, Hash.pending]

/-- One character settles what was pending, or hands it on. -/
theorem Hash.next_pending (h : Hash) (c : Char) (cs : List Char) :
    (h.next c).elim true (fun h' => h'.pending cs) =
      (h.pending (c :: cs) || (c == '#' && startsVariable cs)) := by
  have hfresh := Hash.pending_fresh c cs
  cases h with
  | clear => simpa [Hash.next, Hash.pending] using hfresh
  | sharp =>
    rw [Hash.next, Hash.pending, startsVariable]
    by_cases h1 : c = '{'
    · simp [h1]
    · by_cases h2 : c = '$'
      · simp [h2, Hash.pending]
      · by_cases h3 : c = '@'
        · simp [h3, Hash.pending]
        · simpa [h1, h2, h3] using hfresh
  | dollar =>
    rw [Hash.next, Hash.pending, startsGlobal]
    by_cases h1 : c = '-'
    · simp [h1, Hash.pending]
    · by_cases h2 : (globalMark c || nameChar c) = true
      · simp [h1, h2]
      · simpa [h1, h2] using hfresh
  | sign =>
    rw [Hash.next, Hash.pending, startsInstance]
    by_cases h1 : c = '@'
    · simp [h1, Hash.pending]
    · by_cases h2 : nameStart c = true
      · simp [h1, h2]
      · simpa [h1, h2] using hfresh
  | dollarDash =>
    by_cases h : nameStart c = true
    · simp [Hash.next, Hash.pending, startsName, h]
    · simpa [Hash.next, Hash.pending, startsName, h] using hfresh
  | signSign =>
    by_cases h : nameStart c = true
    · simp [Hash.next, Hash.pending, startsName, h]
    · simpa [Hash.next, Hash.pending, startsName, h] using hfresh

/-- **A text passes exactly when it interpolates nothing.** -/
theorem Hash.run_isNone (text : List Char) :
    ∀ h : Hash, (h.run text).isNone = (h.pending text || interpolates text) := by
  induction text with
  | nil =>
    intro h
    cases h <;> rfl
  | cons c cs ih =>
    intro h
    have hnext := Hash.next_pending h c cs
    rw [interpolates, ← Bool.or_assoc, ← hnext, Hash.run_cons]
    cases h.next c with
    | none => simp
    | some h' => simpa using ih h'

/-! ## Values -/

def Scan.run (s : Scan) (text : List Char) : Option Scan := text.foldlM Scan.step s

@[simp] theorem Scan.run_nil (s : Scan) : s.run [] = some s := rfl

@[simp] theorem Scan.run_cons (s : Scan) (c : Char) (cs : List Char) :
    s.run (c :: cs) = (s.step c).bind (·.run cs) := rfl

theorem Scan.run_append (s : Scan) (xs ys : List Char) :
    s.run (xs ++ ys) = (s.run xs).bind (·.run ys) := by
  simp only [Scan.run, List.foldlM_append]
  rfl

theorem escaped_length {c : Char} {cs : List Char} (h : escaped c = some cs) :
    cs.length ≤ 1 := by
  unfold escaped at h
  split at h
  case h_11 =>
    split at h
    · cases h
    · obtain rfl := Option.some.inj h
      simp
  all_goals
    obtain rfl := Option.some.inj h
    simp

/-- One character adds one character at most, and a character that an
escape leaves as it is adds itself. -/
theorem Scan.step_value {s t : Scan} {c : Char} (h : s.step c = some t) :
    t.value.length ≤ s.value.length + 1 ∧
      ∀ d, d ≠ '\\' → escaped d = some [d] →
        s.value.count d + [c].count d ≤ t.value.count d := by
  cases s with
  | text before value =>
    simp only [Scan.step, Option.map_eq_some_iff] at h
    obtain ⟨next, -, rfl⟩ := h
    split
    · rename_i hc
      subst hc
      constructor
      · simp [Scan.value]
      · intro d hd _
        simp [Scan.value, List.count_cons_of_ne (Ne.symm hd)]
    · simp [Scan.value]
  | escape value =>
    simp only [Scan.step, Option.map_eq_some_iff] at h
    obtain ⟨cs, hcs, rfl⟩ := h
    constructor
    · simpa [Scan.value] using escaped_length hcs
    · intro d _ hd
      by_cases hcd : c = d
      · subst hcd
        obtain rfl : [c] = cs := by simpa [hd] using hcs
        simp [Scan.value]
      · simp [Scan.value, List.count_cons_of_ne hcd]

theorem Scan.run_value {text : List Char} : ∀ {s t : Scan}, s.run text = some t →
    t.value.length ≤ s.value.length + text.length ∧
      ∀ d, d ≠ '\\' → escaped d = some [d] →
        s.value.count d + text.count d ≤ t.value.count d := by
  induction text with
  | nil =>
    intro s t h
    obtain rfl : s = t := by simpa using h
    simp
  | cons c cs ih =>
    intro s t h
    simp only [Scan.run_cons, Option.bind_eq_some_iff] at h
    obtain ⟨u, hu, ht⟩ := h
    obtain ⟨hlen, hcount⟩ := Scan.step_value hu
    obtain ⟨hlens, hcounts⟩ := ih ht
    constructor
    · simp only [List.length_cons]
      omega
    · intro d hd hkept
      have h1 := hcount d hd hkept
      have h2 := hcounts d hd hkept
      rw [List.count_cons]
      rw [List.count_singleton] at h1
      omega

def Scan.isText : Scan → Prop
  | .text _ _ => True
  | .escape _ => False

theorem Scan.isText_step {s t : Scan} {c : Char} (h : s.step c = some t) (hs : s.isText)
    (hc : c ≠ '\\') : t.isText := by
  cases s with
  | text before value =>
    simp only [Scan.step, Option.map_eq_some_iff, if_neg hc] at h
    obtain ⟨next, -, rfl⟩ := h
    trivial
  | escape value => cases hs

/-- Without backslashes the value is the text. -/
theorem Scan.run_text {text : List Char} (hb : '\\' ∉ text) : ∀ (h : Hash) (value : List Char),
    (Scan.text h value).run text = (h.run text).map fun h' => .text h' (value ++ text) := by
  induction text with
  | nil =>
    intro h value
    simp
  | cons c cs ih =>
    intro h value
    have hc : c ≠ '\\' := by
      rintro rfl
      exact hb List.mem_cons_self
    have hcs : '\\' ∉ cs := fun hmem => hb (List.mem_cons_of_mem _ hmem)
    simp only [Scan.run_cons, Scan.step, Hash.run_cons]
    cases h.next c with
    | none => rfl
    | some next => simp [hc, ih hcs]

/-- With a backslash it is shorter. -/
theorem Scan.run_shorter {text : List Char} (hb : '\\' ∈ text) {h : Hash} {value : List Char}
    {t : Scan} (hrun : (Scan.text h value).run text = some t) :
    t.value.length < value.length + text.length := by
  obtain ⟨a, b, rfl, ha⟩ := List.eq_append_cons_of_mem hb
  rw [Scan.run_append, Scan.run_text ha] at hrun
  cases hh : h.run a with
  | none => simp [hh] at hrun
  | some h' =>
    simp only [hh, Option.map_some, Option.bind_some, Scan.run_cons, Scan.step,
      Option.bind_eq_some_iff, Option.map_eq_some_iff] at hrun
    obtain ⟨u, ⟨next, -, rfl⟩, hu⟩ := hrun
    have hlen := (Scan.run_value hu).1
    simp only [↓reduceIte, Scan.value, List.length_append, List.length_cons] at hlen ⊢
    omega

/-- Every backslash that is read is missing from the value, or its escape
stands for one. -/
theorem Scan.step_backslash {s t : Scan} {c : Char} (h : s.step c = some t) :
    t.value.count '\\' ≤ s.value.count '\\' + [c].count '\\' := by
  cases s with
  | text before value =>
    simp only [Scan.step, Option.map_eq_some_iff] at h
    obtain ⟨next, -, rfl⟩ := h
    split <;> simp [Scan.value]
  | escape value =>
    simp only [Scan.step, Option.map_eq_some_iff] at h
    obtain ⟨cs, hcs, rfl⟩ := h
    have hcount : cs.count '\\' ≤ [c].count '\\' := by
      unfold escaped at hcs
      split at hcs
      case h_11 =>
        split at hcs
        · cases hcs
        · obtain rfl := Option.some.inj hcs
          exact Nat.le_refl _
      all_goals
        obtain rfl := Option.some.inj hcs
        decide
    simpa [Scan.value] using hcount

theorem Scan.run_backslash {text : List Char} : ∀ {s t : Scan}, s.run text = some t →
    t.value.count '\\' ≤ s.value.count '\\' + text.count '\\' := by
  induction text with
  | nil =>
    intro s t h
    obtain rfl : s = t := by simpa using h
    simp
  | cons c cs ih =>
    intro s t h
    simp only [Scan.run_cons, Option.bind_eq_some_iff] at h
    obtain ⟨u, hu, ht⟩ := h
    have h1 := Scan.step_backslash hu
    have h2 := ih ht
    rw [List.count_singleton] at h1
    rw [List.count_cons]
    omega

theorem Scan.run_fewer {text : List Char} (hb : '\\' ∈ text) {h : Hash} {value : List Char}
    {t : Scan} (hrun : (Scan.text h value).run text = some t) :
    t.value.count '\\' < value.count '\\' + text.count '\\' := by
  obtain ⟨a, b, rfl, ha⟩ := List.eq_append_cons_of_mem hb
  rw [Scan.run_append, Scan.run_text ha] at hrun
  cases hh : h.run a with
  | none => simp [hh] at hrun
  | some h' =>
    simp only [hh, Option.map_some, Option.bind_some, Scan.run_cons, Scan.step,
      Option.bind_eq_some_iff, Option.map_eq_some_iff] at hrun
    obtain ⟨u, ⟨next, -, rfl⟩, hu⟩ := hrun
    have hcount := Scan.run_backslash hu
    simp only [↓reduceIte, Scan.value, List.count_append, List.count_cons_self] at hcount ⊢
    omega

/-! ## Double-quoted literals -/

/-- A text that stands for itself between double quotes. The closing
quote belongs to it: behind `#$` it would name a variable. -/
structure Plain (v : List Char) : Prop where
  quote : '"' ∉ v
  backslash : '\\' ∉ v
  lineBreak : ¬ ['\r', '\n'] <:+: v
  hash : interpolates (v ++ ['"']) = false

instance (v : List Char) : Decidable (Plain v) :=
  decidable_of_iff ('"' ∉ v ∧ '\\' ∉ v ∧ ¬ ['\r', '\n'] <:+: v ∧
    interpolates (v ++ ['"']) = false)
    ⟨fun h => ⟨h.1, h.2.1, h.2.2.1, h.2.2.2⟩,
      fun h => ⟨h.quote, h.backslash, h.lineBreak, h.hash⟩⟩

/-- The literal is closed at a quote, or it swallows the whole text. -/
theorem quoted_cases (L : List (List Token)) (line : List Token) (text : List Char) :
    ∀ scan t, State.run ⟨L, line, .quoted scan⟩ text = some t →
      (∃ scan', t.mode = .quoted scan') ∨
      ∃ a b h w, text = a ++ '"' :: b ∧ scan.run a = some (.text h w) ∧
        h.next '"' ≠ none ∧ State.run ⟨L, line ++ [.str w], .code 0⟩ b = some t ∧
        (scan.isText → '\\' ∉ a → '"' ∉ a) := by
  induction text with
  | nil =>
    intro scan t h
    obtain rfl := Option.some.inj h
    exact Or.inl ⟨scan, rfl⟩
  | cons c cs ih =>
    intro scan t h
    simp only [State.run_cons, State.step, Mode.step, Option.bind_eq_some_iff,
      Option.map_eq_some_iff] at h
    obtain ⟨s, ⟨e, he, rfl⟩, hs⟩ := h
    -- a character that does not close the literal goes to the value
    have hgoes : ∀ next, scan.step c = some next → e = .turn (.quoted next) →
        (scan.isText → c ≠ '"') →
        (∃ scan', t.mode = .quoted scan') ∨
        ∃ a b h w, c :: cs = a ++ '"' :: b ∧ scan.run a = some (.text h w) ∧
          h.next '"' ≠ none ∧ State.run ⟨L, line ++ [.str w], .code 0⟩ b = some t ∧
          (scan.isText → '\\' ∉ a → '"' ∉ a) := by
      intro next hnext hturn hquote
      subst hturn
      have hrun : State.run ⟨L, line, .quoted next⟩ cs = some t := by
        simpa [State.after, Effect.turn] using hs
      obtain hin | ⟨a, b, h, w, rfl, ha, hh, hb, hfree⟩ := ih next t hrun
      · exact Or.inl hin
      · refine Or.inr ⟨c :: a, b, h, w, rfl, by simp [hnext, ha], hh, hb, ?_⟩
        intro htext hback
        simp only [List.mem_cons, not_or] at hback ⊢
        refine ⟨Ne.symm (hquote htext), hfree ?_ hback.2⟩
        exact Scan.isText_step hnext htext (Ne.symm hback.1)
    cases scan with
    | text hash value =>
      simp only [quotedStep] at he
      split at he
      · rename_i hc
        subst hc
        simp only [Option.map_eq_some_iff] at he
        obtain ⟨next, hnext, rfl⟩ := he
        refine Or.inr ⟨[], cs, hash, value, rfl, rfl, by simp [hnext], ?_, by simp⟩
        simpa [State.after, Effect.put] using hs
      · rename_i hc
        obtain ⟨next, hnext, rfl⟩ := Option.map_eq_some_iff.mp he
        exact hgoes next hnext rfl fun _ => hc
    | escape value =>
      obtain ⟨next, hnext, rfl⟩ := Option.map_eq_some_iff.mp he
      exact hgoes next hnext rfl (by simp [Scan.isText])

theorem run_quoted_text {v : List Char} (hq : '"' ∉ v) (hb : '\\' ∉ v) (L : List (List Token))
    (line : List Token) : ∀ (h : Hash) (w : List Char),
    State.run ⟨L, line, .quoted (.text h w)⟩ v =
      (h.run v).map fun h' => ⟨L, line, .quoted (.text h' (w ++ v))⟩ := by
  induction v with
  | nil =>
    intro h w
    simp
  | cons c cs ih =>
    intro h w
    simp only [List.mem_cons, not_or] at hq hb
    have hc : c ≠ '"' := Ne.symm hq.1
    have hc' : c ≠ '\\' := Ne.symm hb.1
    simp only [State.run_cons, State.step, Mode.step, quotedStep, if_neg hc, Scan.step,
      Hash.run_cons]
    cases h.next c with
    | none => rfl
    | some next => simpa [hc', State.after, Effect.turn] using ih hq.2 hb.2 next (w ++ [c])

/-- A plain text is read as itself. -/
theorem run_quoted {v : List Char} (hv : Plain v) (L : List (List Token)) (line : List Token) :
    State.run ⟨L, line, .code 0⟩ ('"' :: (v ++ ['"'])) =
      some ⟨L, line ++ [.str v], .code 0⟩ := by
  have hpass : ∃ h, Hash.clear.run v = some h ∧ h.next '"' ≠ none := by
    have hnone := Hash.run_isNone (v ++ ['"']) .clear
    rw [hv.hash, Hash.pending, Hash.run_append] at hnone
    cases hh : Hash.clear.run v with
    | none => simp [hh] at hnone
    | some h =>
      refine ⟨h, rfl, ?_⟩
      intro hquote
      simp [hh, hquote] at hnone
  obtain ⟨h, hh, hquote⟩ := hpass
  obtain ⟨next, hnext⟩ := Option.ne_none_iff_exists'.mp hquote
  have hopen : State.step ⟨L, line, .code 0⟩ '"' =
      some ⟨L, line, .quoted (.text .clear [])⟩ := by
    simp [State.step, Mode.step, codeStep, State.after, Effect.turn, Scan.start]
  have hclose : State.step ⟨L, line, .quoted (.text h v)⟩ '"' =
      some ⟨L, line ++ [.str v], .code 0⟩ := by
    simp [State.step, Mode.step, quotedStep, hnext, State.after, Effect.put]
  rw [State.run_cons, hopen, Option.bind_some, State.run_append,
    run_quoted_text hv.quote hv.backslash, hh]
  simp [hclose]

/-- A scan that lost nothing shows that its text has no backslash and
interpolates nothing. -/
theorem Scan.run_same {v : List Char} {h : Hash} (hrun : Scan.start.run v = some (.text h v)) :
    '\\' ∉ v ∧ Hash.clear.run v = some h := by
  have hb : '\\' ∉ v := by
    intro hmem
    have hlt := Scan.run_shorter hmem hrun
    simp [Scan.value] at hlt
  rw [Scan.start, Scan.run_text hb] at hrun
  simp only [List.nil_append, Option.map_eq_some_iff, Scan.text.injEq] at hrun
  obtain ⟨h', hh', rfl, -⟩ := hrun
  exact ⟨hb, hh'⟩

/-- Two ways to cut a text before a character. -/
theorem append_cons_cases {α : Type} {xs ys a b : List α} {c d : α}
    (h : xs ++ c :: ys = a ++ d :: b) :
    (∃ e, xs = a ++ d :: e) ∨ (xs = a ∧ c = d ∧ ys = b) ∨ ∃ e, a = xs ++ c :: e := by
  obtain ⟨e, he, hcut⟩ | ⟨e, he, hcut⟩ := List.append_eq_append_iff.mp h
  · cases e with
    | nil =>
      obtain ⟨rfl, rfl⟩ := List.cons.inj hcut
      exact Or.inr (Or.inl ⟨by simpa using he.symm, rfl, rfl⟩)
    | cons x e =>
      obtain ⟨rfl, -⟩ := List.cons.inj hcut
      exact Or.inr (Or.inr ⟨e, he⟩)
  · cases e with
    | nil =>
      obtain ⟨rfl, rfl⟩ := List.cons.inj hcut
      exact Or.inr (Or.inl ⟨by simpa using he, rfl, rfl⟩)
    | cons x e =>
      obtain ⟨rfl, -⟩ := List.cons.inj hcut
      exact Or.inl ⟨e, he⟩

/-- **Between double quotes a text is read as its value exactly when it
is plain**, and then nothing behind the literal is touched. -/
theorem reads_quoted {L : List (List Token)} {line : List Token} (v rest : List Char)
    {toks : List Token} {more : List (List Token)} :
    Reads ⟨L, line, .code 0⟩ ('"' :: (unixLines v ++ '"' :: rest))
        (L ++ (line ++ .str v :: toks) :: more) ↔
      Plain v ∧ Reads ⟨L, line ++ [.str v], .code 0⟩ rest
        (L ++ (line ++ .str v :: toks) :: more) := by
  constructor
  · intro hreads
    have hquoted : Reads ⟨L, line, .quoted .start⟩ (unixLines v ++ '"' :: rest)
        (L ++ (line ++ .str v :: toks) :: more) := by
      simpa [Reads, State.step, Mode.step, codeStep, State.after, Effect.turn] using hreads
    obtain ⟨t, ht, hfin⟩ := Option.bind_eq_some_iff.mp hquoted
    obtain ⟨scan', hmode⟩ | ⟨a, b, h, w, htext, ha, hh, hb, hfree⟩ :=
      quoted_cases L line _ _ t ht
    · -- the literal is never closed
      simp [State.finish, hmode] at hfin
    · have hreads' : Reads ⟨L, line ++ [.str w], .code 0⟩ b
          (L ++ (line ++ .str v :: toks) :: more) := by
        rw [Reads, hb]
        exact hfin
      obtain rfl : w = v := Token.str.inj (reads_next hreads')
      have hle := length_unixLines_le w
      obtain ⟨hlen, hcount⟩ := Scan.run_value ha
      simp only [Scan.value, Scan.start, List.length_nil, List.count_nil, Nat.zero_add]
        at hlen hcount
      have hsame : unixLines w = a ∧ rest = b := by
        obtain ⟨e, he⟩ | ⟨hwa, -, hrb⟩ | ⟨e, rfl⟩ := append_cons_cases htext
        · rw [he, List.length_append, List.length_cons] at hle
          omega
        · exact ⟨hwa, hrb⟩
        · -- the closing quote was taken for text: one quote too many
          have hmany := hcount '"' (by decide) rfl
          rw [List.count_append, List.count_cons_self, count_unixLines (by decide)] at hmany
          omega
      obtain ⟨rfl, rfl⟩ := hsame
      have hself : unixLines w = w := by
        apply unixLines_eq_self_of_length
        omega
      rw [hself] at ha hfree
      obtain ⟨hback, hhash⟩ := Scan.run_same ha
      refine ⟨⟨hfree trivial hback, hback, (unixLines_eq_self_iff w).mp hself, ?_⟩, hreads'⟩
      obtain ⟨next, hnext⟩ := Option.ne_none_iff_exists'.mp hh
      have hnone := Hash.run_isNone (w ++ ['"']) .clear
      rw [Hash.run_append, hhash] at hnone
      simpa [hnext, Hash.pending] using hnone.symm
  · rintro ⟨hv, hreads⟩
    rw [(unixLines_eq_self_iff v).mpr hv.lineBreak]
    have hsplit : '"' :: (v ++ '"' :: rest) = '"' :: (v ++ ['"']) ++ rest := by simp
    rw [hsplit, reads_of_run (run_quoted hv L line)]
    exact hreads

/-! ## Texts without quotes -/

/-- The same for single quotes. -/
theorem single_cases (L : List (List Token)) (line : List Token) (text : List Char) :
    ∀ value escape t, State.run ⟨L, line, .single value escape⟩ text = some t →
      (∃ value' escape', t.mode = .single value' escape') ∨
      ∃ a b w, text = a ++ '\'' :: b ∧
        State.run ⟨L, line ++ [.str w], .code 0⟩ b = some t ∧
        w.length ≤ value.length + escape.toNat + a.length ∧
        ∀ d, d ≠ '\\' → value.count d + a.count d ≤ w.count d := by
  induction text with
  | nil =>
    intro value escape t h
    obtain rfl := Option.some.inj h
    exact Or.inl ⟨value, escape, rfl⟩
  | cons c cs ih =>
    intro value escape t h
    simp only [State.run_cons, State.step, Mode.step, Option.map_some, Option.bind_some] at h
    -- a character that does not close the literal
    have hgoes : ∀ value' escape', singleStep value escape c = .turn (.single value' escape') →
        value'.length + escape'.toNat ≤ value.length + escape.toNat + 1 →
        (∀ d, d ≠ '\\' → value.count d + [c].count d ≤ value'.count d) →
        (∃ value' escape', t.mode = .single value' escape') ∨
        ∃ a b w, c :: cs = a ++ '\'' :: b ∧
          State.run ⟨L, line ++ [.str w], .code 0⟩ b = some t ∧
          w.length ≤ value.length + escape.toNat + a.length ∧
          ∀ d, d ≠ '\\' → value.count d + a.count d ≤ w.count d := by
      intro value' escape' hstep hlen hcount
      rw [hstep] at h
      have hrun : State.run ⟨L, line, .single value' escape'⟩ cs = some t := by
        simpa [State.after, Effect.turn] using h
      obtain hin | ⟨a, b, w, rfl, hb, hw, hws⟩ := ih value' escape' t hrun
      · exact Or.inl hin
      · refine Or.inr ⟨c :: a, b, w, rfl, hb, ?_, ?_⟩
        · simp only [List.length_cons]
          omega
        · intro d hd
          have h1 := hcount d hd
          have h2 := hws d hd
          rw [List.count_singleton] at h1
          rw [List.count_cons]
          omega
    cases escape with
    | true =>
      by_cases hc : c = '\'' ∨ c = '\\'
      · exact hgoes (value ++ [c]) false (by simp [singleStep, hc]) (by simp) (by simp)
      · refine hgoes (value ++ ['\\', c]) false (by simp [singleStep, hc]) (by simp) ?_
        intro d hd
        simp [List.count_cons_of_ne (Ne.symm hd)]
    | false =>
      by_cases hq : c = '\''
      · subst hq
        refine Or.inr ⟨[], cs, value, rfl, ?_, by simp, by simp⟩
        simpa [singleStep, State.after, Effect.put] using h
      · by_cases hb : c = '\\'
        · subst hb
          refine hgoes value true (by simp [singleStep]) (by simp) ?_
          intro d hd
          simp [List.count_cons_of_ne (Ne.symm hd)]
        · exact hgoes (value ++ [c]) false (by simp [singleStep, hq, hb]) (by simp) (by simp)

/-- In code a character ends the line, is a token, or opens a literal. -/
theorem codeStep_cases {c : Char} {e : Effect} (h : codeStep 0 c = some e) :
    e = .endLine [] ∨ (∃ mode, e = .put (.char c) mode) ∨
      (c = '"' ∧ e = .turn (.quoted .start)) ∨ (c = '\'' ∧ e = .turn (.single [] false)) := by
  unfold codeStep at h
  split at h
  · exact Or.inl (Option.some.inj h).symm
  · split at h
    · exact Or.inr (Or.inl ⟨_, (Option.some.inj h).symm⟩)
    · rw [if_neg (by simp), if_neg (by simp)] at h
      split at h
      · rename_i hc
        exact Or.inr (Or.inr (Or.inl ⟨hc, (Option.some.inj h).symm⟩))
      · split at h
        · rename_i hc
          exact Or.inr (Or.inr (Or.inr ⟨hc, (Option.some.inj h).symm⟩))
        · split at h
          · cases h
          · exact Or.inr (Or.inl ⟨_, (Option.some.inj h).symm⟩)

/-- A literal that begins with the first character of a text and swallows
no more than the text is shorter; one that swallows the comma behind it
has a comma too many. -/
theorem bare_not_value {c q : Char} {cs rest a b w : List Char} (hw : c :: cs = unixLines w)
    (hc : c ≠ ',') (hq : q ≠ ',') (htext : cs ++ ',' :: rest = a ++ q :: b)
    (hlen : w.length ≤ a.length) (hcount : a.count ',' ≤ w.count ',') : False := by
  obtain ⟨e, rfl⟩ | ⟨-, hcq, -⟩ | ⟨e, rfl⟩ := append_cons_cases htext
  · have hle := length_unixLines_le w
    rw [← hw, List.length_cons, List.length_append, List.length_cons] at hle
    omega
  · exact hq hcq.symm
  · have hcommas := count_unixLines (d := ',') (by decide) w
    rw [← hw, List.count_cons_of_ne hc] at hcommas
    rw [List.count_append, List.count_cons_self] at hcount
    omega

/-- **Without quotes no text is read as its own value.** -/
theorem not_reads_bare {L : List (List Token)} {line : List Token} (v rest : List Char)
    {toks : List Token} {more : List (List Token)} :
    ¬ Reads ⟨L, line, .code 0⟩ (unixLines v ++ ',' :: rest)
        (L ++ (line ++ .str v :: toks) :: more) := by
  intro hreads
  -- the first character decides
  obtain ⟨c, cs, hcs, hc⟩ : ∃ c cs, unixLines v ++ ',' :: rest = c :: cs ∧
      (c ≠ ',' → ∃ tail, c :: tail = unixLines v ∧ cs = tail ++ ',' :: rest) := by
    cases h : unixLines v with
    | nil => exact ⟨',', rest, rfl, fun hc => absurd rfl hc⟩
    | cons c tail => exact ⟨c, tail ++ ',' :: rest, rfl, fun _ => ⟨tail, rfl, rfl⟩⟩
  rw [hcs, Reads, State.run_cons, State.step, Mode.step] at hreads
  cases he : codeStep 0 c with
  | none => simp [he] at hreads
  | some e =>
    simp only [he, Option.map_some, Option.bind_some] at hreads
    obtain rfl | ⟨mode, rfl⟩ | ⟨rfl, rfl⟩ | ⟨rfl, rfl⟩ := codeStep_cases he
    · obtain ⟨more', hmore, -⟩ := reads_extends hreads
      simp [State.after, Effect.endLine] at hmore
    · cases reads_next hreads
    · obtain ⟨tail, htail, rfl⟩ := hc (by decide)
      obtain ⟨t, ht, hfin⟩ := Option.bind_eq_some_iff.mp hreads
      simp only [State.after, Effect.turn, List.append_nil, Bool.false_eq_true, ↓reduceIte] at ht
      obtain ⟨scan', hmode⟩ | ⟨a, b, h, w, htext, ha, -, hb, -⟩ := quoted_cases L line _ _ t ht
      · simp [State.finish, hmode] at hfin
      · obtain rfl : w = v := Token.str.inj (reads_next (by rw [Reads, hb]; exact hfin))
        obtain ⟨hlen, hcount⟩ := Scan.run_value ha
        simp only [Scan.value, Scan.start, List.length_nil, List.count_nil, Nat.zero_add]
          at hlen hcount
        exact bare_not_value htail (by decide) (by decide) htext hlen
          (hcount ',' (by decide) rfl)
    · obtain ⟨tail, htail, rfl⟩ := hc (by decide)
      obtain ⟨t, ht, hfin⟩ := Option.bind_eq_some_iff.mp hreads
      simp only [State.after, Effect.turn, List.append_nil, Bool.false_eq_true, ↓reduceIte] at ht
      obtain ⟨value', escape', hmode⟩ | ⟨a, b, w, htext, hb, hlen, hcount⟩ :=
        single_cases L line _ _ _ t ht
      · simp [State.finish, hmode] at hfin
      · obtain rfl : w = v := Token.str.inj (reads_next (by rw [Reads, hb]; exact hfin))
        exact bare_not_value htail (by decide) (by decide) htext (by simpa using hlen)
          (by simpa using hcount ',' (by decide))

end Clustering.Ruby
