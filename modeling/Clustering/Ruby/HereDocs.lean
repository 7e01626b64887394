/-
Clustering.Ruby.HereDocs — which texts stand for themselves in a
here-document.

The value of a here-document ends with a line break, so a text and the
break behind it are what can be read back: that is so exactly for the
texts that are a `Body` (`reads_here`), and the text alone is never read
back (`not_reads_here_alone`).
-/
import Mathlib.Data.List.TakeWhile
import Clustering.Ruby.Literals

namespace Clustering.Ruby

/-! ## Lines of a text -/

/-- Every line with its break. -/
def joinLines (ls : List (List Char)) : List Char := ls.flatMap (· ++ ['\n'])

theorem joinLines_splitOn (v : List Char) : joinLines (v.splitOn '\n') = v ++ ['\n'] := by
  induction v with
  | nil => rfl
  | cons c cs ih =>
    rw [List.splitOn_cons_eq_if_modifyHead]
    split
    · rename_i hc
      rw [joinLines, List.flatMap_cons, ← joinLines, ih, eq_of_beq hc]
      rfl
    · cases h : cs.splitOn '\n' with
      | nil => exact absurd h (List.splitOn_ne_nil _ _)
      | cons l ls =>
        rw [h] at ih
        simp only [joinLines, List.flatMap_cons, List.modifyHead_cons, List.cons_append] at ih ⊢
        rw [ih]

theorem not_mem_of_mem_splitOn {v l : List Char} (h : l ∈ v.splitOn '\n') : '\n' ∉ l := by
  induction v generalizing l with
  | nil =>
    obtain rfl : l = [] := by simpa using h
    exact List.not_mem_nil
  | cons c cs ih =>
    rw [List.splitOn_cons_eq_if_modifyHead] at h
    split at h
    · obtain rfl | hl := List.mem_cons.mp h
      · exact List.not_mem_nil
      · exact ih hl
    · rename_i hc
      cases hs : cs.splitOn '\n' with
      | nil => exact absurd hs (List.splitOn_ne_nil _ _)
      | cons m ms =>
        rw [hs] at h ih
        obtain rfl | hl := List.mem_cons.mp h
        · have hm := ih List.mem_cons_self
          simp only [List.mem_cons, not_or]
          refine ⟨?_, hm⟩
          rintro rfl
          exact hc (by simp)
        · exact ih (List.mem_cons_of_mem _ hl)

/-! ## The body -/

theorem Hash.next_newline (h : Hash) : h.next '\n' = some .clear := by
  cases h <;> rfl

/-- A text that stands for itself, with a line break, in a here-document. -/
structure Body (name v : List Char) : Prop where
  backslash : '\\' ∉ v
  lineBreak : ¬ ['\r', '\n'] <:+: v ++ ['\n']
  hash : interpolates (v ++ ['\n']) = false
  line : ∀ l ∈ v.splitOn '\n', l.dropWhile blank ≠ name

instance (name v : List Char) : Decidable (Body name v) :=
  decidable_of_iff ('\\' ∉ v ∧ ¬ ['\r', '\n'] <:+: v ++ ['\n'] ∧
    interpolates (v ++ ['\n']) = false ∧ ∀ l ∈ v.splitOn '\n', l.dropWhile blank ≠ name)
    ⟨fun h => ⟨h.1, h.2.1, h.2.2.1, h.2.2.2⟩,
      fun h => ⟨h.backslash, h.lineBreak, h.hash, h.line⟩⟩

/-- The text read so far, `before` the value of its complete lines. -/
def HereAt (read before raw : List Char) (scan : Scan) : Prop :=
  ∃ a h, read = a ++ raw ∧ (a = [] ∨ ∃ a', a = a' ++ ['\n']) ∧
    Scan.start.run a = some (.text h before) ∧ Scan.start.run read = some scan

/-- The here-document is closed at a line that is its name, or it
swallows the whole text. -/
theorem here_cases (L : List (List Token)) (line : List Token) (name text : List Char) :
    ∀ read before raw scan t, HereAt read before raw scan →
      State.run ⟨L, line, .here name before raw scan⟩ text = some t →
      (∃ before' raw' scan', t.mode = .here name before' raw' scan') ∨
      ∃ a raw' b h w, read ++ text = a ++ (raw' ++ '\n' :: b) ∧ raw'.dropWhile blank = name ∧
        (a = [] ∨ ∃ a', a = a' ++ ['\n']) ∧ Scan.start.run a = some (.text h w) ∧
        State.run ⟨L ++ [line ++ [.heredoc w]], [], .code 0⟩ b = some t := by
  induction text with
  | nil =>
    intro read before raw scan t _ h
    obtain rfl := Option.some.inj h
    exact Or.inl ⟨before, raw, scan, rfl⟩
  | cons c cs ih =>
    intro read before raw scan t hat h
    obtain ⟨a, ha, hread, haend, hrun, hscan⟩ := hat
    simp only [State.run_cons, State.step, Mode.step, Option.bind_eq_some_iff,
      Option.map_eq_some_iff] at h
    obtain ⟨s, ⟨e, he, rfl⟩, hs⟩ := h
    -- the state the next character leaves, and what it has read
    have hgoes : ∀ before' raw' next, e = .turn (.here name before' raw' next) →
        HereAt (read ++ [c]) before' raw' next →
        (∃ before' raw' scan', t.mode = .here name before' raw' scan') ∨
        ∃ a raw' b h w, read ++ c :: cs = a ++ (raw' ++ '\n' :: b) ∧
          raw'.dropWhile blank = name ∧ (a = [] ∨ ∃ a', a = a' ++ ['\n']) ∧
          Scan.start.run a = some (.text h w) ∧
          State.run ⟨L ++ [line ++ [.heredoc w]], [], .code 0⟩ b = some t := by
      intro before' raw' next hturn hat'
      subst hturn
      have hnext := ih (read ++ [c]) before' raw' next t hat'
        (by simpa [State.after, Effect.turn] using hs)
      simpa using hnext
    have hin : ∀ next, scan.step c = some next → HereAt (read ++ [c]) before (raw ++ [c]) next := by
      intro next hnext
      refine ⟨a, ha, by simp [hread], haend, hrun, ?_⟩
      rw [Scan.run_append, hscan]
      simp [hnext]
    cases scan with
    | text hash value =>
      simp only [hereStep] at he
      split at he
      · rename_i hc
        subst hc
        split at he
        · rename_i hname
          obtain rfl := Option.some.inj he
          refine Or.inr ⟨a, raw, cs, ha, before, by simp [hread], hname, haend, hrun, ?_⟩
          simpa [State.after, Effect.endLine] using hs
        · obtain rfl := Option.some.inj he
          refine hgoes _ _ _ rfl ⟨read ++ ['\n'], .clear, by simp, Or.inr ⟨read, rfl⟩, ?_⟩
          have hnew : Scan.start.run (read ++ ['\n']) = some (.text .clear (value ++ ['\n'])) := by
            rw [Scan.run_append, hscan]
            simp [Scan.step, Hash.next_newline]
          exact ⟨hnew, hnew⟩
      · obtain ⟨next, hnext, rfl⟩ := Option.map_eq_some_iff.mp he
        exact hgoes _ _ _ rfl (hin next hnext)
    | escape value =>
      obtain ⟨next, hnext, rfl⟩ := Option.map_eq_some_iff.mp he
      exact hgoes _ _ _ rfl (hin next hnext)

/-! ## Texts that are read as they are -/

theorem run_here_line {l : List Char} (hn : '\n' ∉ l) (hb : '\\' ∉ l) (L : List (List Token))
    (line : List Token) (name before : List Char) : ∀ (raw : List Char) (h : Hash) (v : List Char),
    State.run ⟨L, line, .here name before raw (.text h v)⟩ l =
      (h.run l).map fun h' => ⟨L, line, .here name before (raw ++ l) (.text h' (v ++ l))⟩ := by
  induction l with
  | nil =>
    intro raw h v
    simp
  | cons c cs ih =>
    intro raw h v
    simp only [List.mem_cons, not_or] at hn hb
    have hc : c ≠ '\n' := Ne.symm hn.1
    have hc' : c ≠ '\\' := Ne.symm hb.1
    simp only [State.run_cons, State.step, Mode.step, hereStep, if_neg hc, Scan.step,
      Hash.run_cons]
    cases h.next c with
    | none => rfl
    | some next =>
      simpa [hc', State.after, Effect.turn] using ih hn.2 hb.2 (raw ++ [c]) next (v ++ [c])

/-- A line that closes no here-document is part of its value. -/
theorem run_here_lines (L : List (List Token)) (line : List Token) (name : List Char)
    (ls : List (List Char)) : ∀ v : List Char,
    (∀ l ∈ ls, '\n' ∉ l ∧ '\\' ∉ l ∧ l.dropWhile blank ≠ name) →
    (Hash.clear.run (joinLines ls)).isSome →
    State.run ⟨L, line, .here name v [] (.text .clear v)⟩ (joinLines ls) =
      some ⟨L, line, .here name (v ++ joinLines ls) [] (.text .clear (v ++ joinLines ls))⟩ := by
  induction ls with
  | nil =>
    intro v _ _
    simp [joinLines]
  | cons l ls ih =>
    intro v hls hhash
    obtain ⟨hn, hb, hname⟩ := hls l List.mem_cons_self
    have hcons : joinLines (l :: ls) = l ++ '\n' :: joinLines ls := by simp [joinLines]
    rw [hcons, Hash.run_append] at hhash
    cases hh : Hash.clear.run l with
    | none => simp [hh] at hhash
    | some h =>
      simp only [hh, Option.bind_some, Hash.run_cons, Hash.next_newline] at hhash
      have hline := run_here_line hn hb L line name v [] .clear v
      have hbreak : State.step ⟨L, line, .here name v l (.text h (v ++ l))⟩ '\n' =
          some ⟨L, line, .here name (v ++ l ++ ['\n']) []
            (.text .clear (v ++ l ++ ['\n']))⟩ := by
        simp [State.step, Mode.step, hereStep, hname, State.after, Effect.turn]
      have hrest := ih (v ++ l ++ ['\n']) (fun x hx => hls x (List.mem_cons_of_mem _ hx)) hhash
      rw [hcons, State.run_append, hline, hh, Option.map_some, Option.bind_some,
        List.nil_append, State.run_cons, hbreak, Option.bind_some, hrest]
      simp

/-- The first line that is the name closes the here-document. -/
theorem run_here_close (L : List (List Token)) (line : List Token) {name l : List Char}
    {ls : List (List Char)} (hls : ∀ l ∈ ls, '\n' ∉ l ∧ '\\' ∉ l ∧ l.dropWhile blank ≠ name)
    (hn : '\n' ∉ l) (hb : '\\' ∉ l) (hl : l.dropWhile blank = name)
    (hhash : (Hash.clear.run (joinLines ls)).isSome) (hhash' : (Hash.clear.run l).isSome) :
    State.run ⟨L, line, .here name [] [] .start⟩ (joinLines ls ++ (l ++ ['\n'])) =
      some ⟨L ++ [line ++ [.heredoc (joinLines ls)]], [], .code 0⟩ := by
  obtain ⟨h, hh⟩ := Option.isSome_iff_exists.mp hhash'
  have hlines := run_here_lines L line name ls [] hls hhash
  rw [State.run_append, Scan.start, hlines, Option.bind_some, State.run_append,
    run_here_line hn hb, hh]
  simp [State.step, Mode.step, hereStep, hl, State.after, Effect.endLine]

/-! ## Reading a body -/

theorem blank_cases {c : Char} (h : blank c = true) :
    c = ' ' ∨ c = '\t' ∨ c = '\x0b' ∨ c = '\x0c' ∨ c = '\r' := by
  simpa [blank, or_assoc] using h

theorem nameChar_plain {c : Char} (h : nameChar c = true) :
    c ≠ '\n' ∧ c ≠ '\\' ∧ c ≠ '#' ∧ c ≠ '\r' ∧ blank c = false := by
  have hfalse : ∀ d, nameChar d = false → c ≠ d := by
    intro d hd
    rintro rfl
    rw [h] at hd
    cases hd
  refine ⟨hfalse _ (by decide), hfalse _ (by decide), hfalse _ (by decide),
    hfalse _ (by decide), ?_⟩
  by_contra hblank
  obtain hc | hc | hc | hc | hc := blank_cases (by simpa using hblank) <;>
    exact hfalse _ (by decide) hc

theorem blank_plain {c : Char} (h : blank c = true) : c ≠ '\n' ∧ c ≠ '\\' ∧ c ≠ '#' := by
  obtain rfl | rfl | rfl | rfl | rfl := blank_cases h <;> decide

theorem interpolates_of_not_mem {l : List Char} (h : '#' ∉ l) : interpolates l = false := by
  induction l with
  | nil => rfl
  | cons c cs ih =>
    simp only [List.mem_cons, not_or] at h
    have hc : (c == '#') = false := by
      rw [beq_eq_false_iff_ne]
      exact Ne.symm h.1
    simp [interpolates, hc, ih h.2]

/-- A name, indented, on a line of its own. -/
structure Terminator (indent name : List Char) : Prop where
  blanks : ∀ c ∈ indent, blank c = true
  nameChars : ∀ c ∈ name, nameChar c = true
  ne_nil : name ≠ []

theorem Terminator.dropWhile {indent name : List Char} (ht : Terminator indent name) :
    (indent ++ name).dropWhile blank = name := by
  rw [List.dropWhile_append_of_pos ht.blanks]
  cases hname : name with
  | nil => exact absurd hname ht.ne_nil
  | cons c cs =>
    have hc := (nameChar_plain (ht.nameChars c (by simp [hname]))).2.2.2.2
    simp [hc]

/-- A line that closes a here-document holds its name and blanks only. -/
theorem Terminator.closing {indent name raw : List Char} (ht : Terminator indent name)
    (hraw : raw.dropWhile blank = name) : '\n' ∉ raw ∧ '\\' ∉ raw ∧ '#' ∉ raw := by
  have hmem : ∀ c ∈ raw, c ≠ '\n' ∧ c ≠ '\\' ∧ c ≠ '#' := by
    intro c hc
    rw [← List.takeWhile_append_dropWhile (p := blank) (l := raw), hraw] at hc
    obtain hc | hc := List.mem_append.mp hc
    · exact blank_plain (List.mem_takeWhile_imp hc)
    · obtain ⟨h1, h2, h3, -⟩ := nameChar_plain (ht.nameChars c hc)
      exact ⟨h1, h2, h3⟩
  exact ⟨fun h => (hmem _ h).1 rfl, fun h => (hmem _ h).2.1 rfl, fun h => (hmem _ h).2.2 rfl⟩

theorem Terminator.plain {indent name : List Char} (ht : Terminator indent name) :
    '\n' ∉ indent ++ name ∧ '\\' ∉ indent ++ name ∧ '#' ∉ indent ++ name :=
  ht.closing ht.dropWhile

theorem run_isSome_of_not_mem {l : List Char} (h : '#' ∉ l) : (Hash.clear.run l).isSome := by
  have hnone := Hash.run_isNone l .clear
  rw [interpolates_of_not_mem h] at hnone
  rw [Option.isSome_iff_ne_none]
  intro heq
  simp [heq, Hash.pending] at hnone

section Reading

variable {L : List (List Token)} {line : List Token} {indent name : List Char} {d : Char}
  {v x rest : List Char} {toks : List Token} {more : List (List Token)}

/-- Where the value that is asked for comes from. -/
theorem reads_here_cases
    (hreads : Reads ⟨L, line, .here name [] [] .start⟩ x (L ++ (line ++ .heredoc v :: toks) :: more)) :
    ∃ a raw b h, x = a ++ (raw ++ '\n' :: b) ∧ raw.dropWhile blank = name ∧
      (a = [] ∨ ∃ a', a = a' ++ ['\n']) ∧ Scan.start.run a = some (.text h v) ∧ toks = [] ∧
      Reads ⟨L ++ [line ++ [.heredoc v]], [], .code 0⟩ b
        (L ++ (line ++ .heredoc v :: toks) :: more) := by
  obtain ⟨t, ht, hfin⟩ := Option.bind_eq_some_iff.mp hreads
  have hat : HereAt [] [] [] .start := ⟨[], .clear, rfl, Or.inl rfl, rfl, rfl⟩
  obtain ⟨before, raw, scan, hmode⟩ | ⟨a, raw, b, h, w, hx, hraw, ha, hscan, hb⟩ :=
    here_cases L line name x [] [] [] .start t hat ht
  · simp [State.finish, hmode] at hfin
  · have hrest : Reads ⟨L ++ [line ++ [.heredoc w]], [], .code 0⟩ b
        (L ++ (line ++ .heredoc v :: toks) :: more) := by
      rw [Reads, hb]
      exact hfin
    obtain ⟨more', hmore, -⟩ := reads_extends hrest
    simp only [List.append_assoc, List.append_cancel_left_eq, List.singleton_append,
      List.cons.injEq, Token.heredoc.injEq] at hmore
    obtain ⟨⟨rfl, rfl⟩, -⟩ := hmore
    exact ⟨a, raw, b, h, hx, hraw, ha, hscan, rfl, hrest⟩

/-- A body whose own terminator is taken for text has a name too many. -/
theorem Terminator.count {a raw b B : List Char} {e : List Char} (ht : Terminator indent name)
    (ha : a = [] ∨ ∃ a', a = a' ++ ['\n']) (he : a = B ++ e) (hne : e ≠ []) (hd : d ∈ name)
    (hx : indent ++ name ++ '\n' :: rest = e ++ (raw ++ '\n' :: b)) :
    B.count d < a.count d := by
  obtain rfl | ⟨a', ha'⟩ := ha
  · exact absurd (List.append_eq_nil_iff.mp he.symm).2 hne
  · -- what is behind the body ends with the first break there, or later
    obtain ⟨e', rfl⟩ : ∃ e', e = e' ++ ['\n'] := by
      refine ⟨e.dropLast, ?_⟩
      have hlast : a.getLast? = some '\n' := by simp [ha']
      rw [he, List.getLast?_append_of_ne_nil _ hne] at hlast
      exact (List.dropLast_append_getLast? _ hlast).symm
    have hmem : ∃ r, e' = indent ++ name ++ r := by
      rw [List.append_assoc e'] at hx
      obtain ⟨r, hr⟩ | ⟨hr, -, -⟩ | ⟨r, hr⟩ := append_cons_cases hx
      · have hbreak : '\n' ∈ indent ++ name := by
          rw [hr]
          simp
        exact absurd hbreak ht.plain.1
      · exact ⟨[], by simp [hr]⟩
      · exact ⟨_, hr⟩
    obtain ⟨r, rfl⟩ := hmem
    have hpos : 0 < name.count d := List.count_pos_iff.mpr hd
    rw [he]
    simp only [List.count_append]
    omega

/-- Two terminators at the same place are the same line. -/
theorem Terminator.rest_eq {raw b : List Char} (ht : Terminator indent name)
    (hraw : raw.dropWhile blank = name)
    (h : indent ++ name ++ '\n' :: rest = raw ++ '\n' :: b) : rest = b := by
  obtain ⟨r, hr⟩ | ⟨-, -, hrest⟩ | ⟨r, hr⟩ := append_cons_cases h
  · exact absurd (by rw [hr]; simp) ht.plain.1
  · exact hrest
  · exact absurd (by rw [hr]; simp) (ht.closing hraw).1

/-- What the two readings below have in common: the here-document ends at
its own terminator, or in its own body. -/
theorem Terminator.ends (ht : Terminator indent name) (hd : d ∈ name)
    (hkept : escaped d = some [d]) {a raw b B w : List Char} {h : Hash}
    (hx : B ++ (indent ++ name ++ '\n' :: rest) = a ++ (raw ++ '\n' :: b))
    (hraw : raw.dropWhile blank = name) (ha : a = [] ∨ ∃ a', a = a' ++ ['\n'])
    (hscan : Scan.start.run a = some (.text h w)) (hw : w.count d ≤ B.count d) :
    (∃ e, e ≠ [] ∧ B = a ++ e ∧ raw ++ '\n' :: b = e ++ (indent ++ name ++ '\n' :: rest)) ∨
      (a = B ∧ b = rest) := by
  obtain ⟨e, he, hcut⟩ | ⟨e, he, hcut⟩ := List.append_eq_append_iff.mp hx
  · by_cases hne : e = []
    · subst hne
      exact Or.inr ⟨by simpa using he, (ht.rest_eq hraw (by simpa using hcut)).symm⟩
    · exfalso
      have hmore := ht.count ha he hne hd hcut
      have hkeep := (Scan.run_value hscan).2 d (nameChar_plain (ht.nameChars d hd)).2.1 hkept
      simp only [Scan.value, Scan.start, List.count_nil, Nat.zero_add] at hkeep
      omega
  · by_cases hne : e = []
    · subst hne
      exact Or.inr ⟨by simpa using he.symm, (ht.rest_eq hraw (by simpa using hcut.symm)).symm⟩
    · exact Or.inl ⟨e, hne, he, hcut⟩

/-- The value of a here-document ends with a break, so a text alone is
never read back. -/
theorem not_reads_here_alone (ht : Terminator indent name) (hd : d ∈ name)
    (hkept : escaped d = some [d]) :
    ¬ Reads ⟨L, line, .here name [] [] .start⟩
      (unixLines (v ++ ['\n']) ++ (indent ++ name ++ '\n' :: rest))
      (L ++ (line ++ .heredoc v :: toks) :: more) := by
  intro hreads
  obtain ⟨a, raw, b, h, hx, hraw, ha, hscan, -, -⟩ := reads_here_cases hreads
  obtain ⟨hdn, -, -, hdr, -⟩ := nameChar_plain (ht.nameChars d hd)
  have hcount : v.count d ≤ (unixLines (v ++ ['\n'])).count d := by
    rw [count_unixLines hdr, List.count_append]
    omega
  have hbreaks : (unixLines (v ++ ['\n'])).count '\n' = v.count '\n' + 1 := by
    rw [count_unixLines (by decide)]
    simp
  have hle := length_unixLines_le (v ++ ['\n'])
  have hlen := (Scan.run_value hscan).1
  simp only [Scan.value, Scan.start, List.length_nil, Nat.zero_add, List.length_append,
    List.length_singleton] at hle hlen
  obtain ⟨e, hne, hB, hcut⟩ | ⟨rfl, -⟩ := ht.ends hd hkept hx hraw ha hscan hcount
  · -- closed in the body, at its last line at most
    have hpos := List.length_pos_of_ne_nil hne
    have hBlen : (unixLines (v ++ ['\n'])).length = a.length + e.length := by
      rw [hB, List.length_append]
    have hB' : v ++ ['\n'] = a ++ e := by
      rw [← hB]
      refine (unixLines_eq_self_of_length ?_).symm
      rw [List.length_append, List.length_singleton]
      omega
    have hlena : a.length = v.length := by omega
    obtain ⟨-, he⟩ := List.append_inj hB' hlena.symm
    rw [← he] at hcut
    have hnil : raw = [] := by
      cases raw with
      | nil => rfl
      | cons c cs =>
        obtain ⟨rfl, -⟩ := List.cons.inj hcut
        exact absurd List.mem_cons_self (ht.closing hraw).1
    rw [hnil] at hraw
    exact ht.ne_nil hraw.symm
  · by_cases hback : '\\' ∈ unixLines (v ++ ['\n'])
    · have hfew := Scan.run_fewer hback hscan
      rw [count_unixLines (by decide)] at hfew
      simp [Scan.value] at hfew
    · rw [Scan.start, Scan.run_text hback] at hscan
      simp only [List.nil_append, Option.map_eq_some_iff, Scan.text.injEq] at hscan
      obtain ⟨-, -, -, hv⟩ := hscan
      rw [hv] at hbreaks
      omega

/-- The first lines of a text without backslashes and interpolation. -/
theorem lines_plain {pre post : List (List Char)} (hv : '\\' ∉ v)
    (hhash : interpolates (v ++ ['\n']) = false) (hls : v.splitOn '\n' = pre ++ post) :
    (∀ l ∈ pre, '\n' ∉ l ∧ '\\' ∉ l) ∧ v ++ ['\n'] = joinLines pre ++ joinLines post ∧
      (Hash.clear.run (joinLines pre)).isSome := by
  have hjoin : v ++ ['\n'] = joinLines pre ++ joinLines post := by
    rw [← joinLines_splitOn, hls, joinLines, List.flatMap_append]
    rfl
  refine ⟨?_, hjoin, ?_⟩
  · intro l hl
    have hmem : l ∈ v.splitOn '\n' := hls ▸ List.mem_append_left _ hl
    refine ⟨not_mem_of_mem_splitOn hmem, ?_⟩
    intro hback
    have hin : '\\' ∈ v ++ ['\n'] := by
      rw [← joinLines_splitOn, joinLines, List.mem_flatMap]
      exact ⟨l, hmem, List.mem_append_left _ hback⟩
    simp [hv] at hin
  · have hrun : (Hash.clear.run (v ++ ['\n'])).isNone = false := by
      rw [Hash.run_isNone, hhash]
      rfl
    rw [hjoin, Hash.run_append] at hrun
    cases h : Hash.clear.run (joinLines pre) with
    | none => simp [h] at hrun
    | some _ => rfl

/-- A body is read as itself. -/
theorem run_body (ht : Terminator indent name) (hv : Body name v) (L : List (List Token))
    (line : List Token) :
    State.run ⟨L, line, .here name [] [] .start⟩
        (v ++ ['\n'] ++ (indent ++ name ++ ['\n'])) =
      some ⟨L ++ [line ++ [.heredoc (v ++ ['\n'])]], [], .code 0⟩ := by
  obtain ⟨hlines, hjoin, hhash⟩ :=
    lines_plain hv.backslash hv.hash (List.append_nil _).symm
  have hclose := run_here_close L line
    (fun l hl => ⟨(hlines l hl).1, (hlines l hl).2, hv.line l hl⟩)
    ht.plain.1 ht.plain.2.1 ht.dropWhile hhash (run_isSome_of_not_mem ht.plain.2.2)
  rw [joinLines_splitOn] at hclose
  exact hclose

/-- A line of the text that is the name would close the here-document
before its end. -/
theorem no_name_line (ht : Terminator indent name) (hv : '\\' ∉ v)
    (hhash : interpolates (v ++ ['\n']) = false)
    (hreads : Reads ⟨L, line, .here name [] [] .start⟩ (v ++ ['\n'] ++ rest)
      (L ++ (line ++ .heredoc (v ++ ['\n']) :: toks) :: more)) :
    ∀ l ∈ v.splitOn '\n', l.dropWhile blank ≠ name := by
  by_contra hbad
  simp only [not_forall, not_not] at hbad
  obtain ⟨m, hm, hmname⟩ := hbad
  -- the first such line
  cases hfind : (v.splitOn '\n').find? fun l => l.dropWhile blank == name with
  | none =>
    have hnone := List.find?_eq_none.mp hfind m hm
    simp [hmname] at hnone
  | some l =>
    obtain ⟨hl, pre, post, hls, hpre⟩ := List.find?_eq_some_iff_append.mp hfind
    have hname : l.dropWhile blank = name := eq_of_beq hl
    obtain ⟨hn, hb, hh⟩ := ht.closing hname
    obtain ⟨hlines, hjoin, hsome⟩ := lines_plain hv hhash hls
    have hclose := run_here_close L line
      (fun x hx => ⟨(hlines x hx).1, (hlines x hx).2, by simpa using hpre x hx⟩)
      hn hb hname hsome (run_isSome_of_not_mem hh)
    have htext : v ++ ['\n'] ++ rest =
        joinLines pre ++ (l ++ ['\n']) ++ (joinLines post ++ rest) := by
      rw [hjoin]
      simp [joinLines]
    rw [htext, reads_of_run hclose] at hreads
    obtain ⟨more', hmore, -⟩ := reads_extends hreads
    simp only [List.append_assoc, List.append_cancel_left_eq, List.singleton_append,
      List.cons.injEq, Token.heredoc.injEq] at hmore
    have hlen := congrArg List.length (hmore.1.1.symm.trans hjoin)
    simp [joinLines] at hlen

/-- **In a here-document a text is read as itself, with its break, exactly
when it is a body**, and then nothing behind it is touched. -/
theorem reads_here (ht : Terminator indent name) (hd : d ∈ name)
    (hkept : escaped d = some [d]) :
    Reads ⟨L, line, .here name [] [] .start⟩
        (unixLines (v ++ ['\n']) ++ (indent ++ name ++ '\n' :: rest))
        (L ++ (line ++ .heredoc (v ++ ['\n']) :: toks) :: more) ↔
      Body name v ∧ toks = [] ∧
        Reads ⟨L ++ [line ++ [.heredoc (v ++ ['\n'])]], [], .code 0⟩ rest
          (L ++ (line ++ .heredoc (v ++ ['\n']) :: toks) :: more) := by
  constructor
  · intro hreads
    obtain ⟨a, raw, b, h, hx, hraw, ha, hscan, htoks, hrest⟩ := reads_here_cases hreads
    obtain ⟨hdn, -, -, hdr, -⟩ := nameChar_plain (ht.nameChars d hd)
    have hle := length_unixLines_le (v ++ ['\n'])
    have hlen := (Scan.run_value hscan).1
    simp only [Scan.value, Scan.start, List.length_nil, Nat.zero_add] at hlen
    obtain ⟨e, hne, hB, -⟩ | ⟨rfl, rfl⟩ :=
      ht.ends hd hkept hx hraw ha hscan (count_unixLines hdr _).ge
    · have hpos := List.length_pos_of_ne_nil hne
      rw [hB, List.length_append] at hle
      omega
    · have hself : unixLines (v ++ ['\n']) = v ++ ['\n'] := by
        apply unixLines_eq_self_of_length
        omega
      rw [hself] at hscan hreads
      obtain ⟨hback, hhash⟩ := Scan.run_same hscan
      have hfree : interpolates (v ++ ['\n']) = false := by
        have hnone := Hash.run_isNone (v ++ ['\n']) .clear
        rw [hhash] at hnone
        simpa [Hash.pending] using hnone.symm
      have hback' : '\\' ∉ v := fun hmem => hback (List.mem_append_left _ hmem)
      exact ⟨⟨hback', (unixLines_eq_self_iff _).mp hself, hfree,
        no_name_line ht hback' hfree hreads⟩, htoks, hrest⟩
  · rintro ⟨hv, -, hreads⟩
    rw [(unixLines_eq_self_iff _).mpr hv.lineBreak]
    have hsplit : v ++ ['\n'] ++ (indent ++ name ++ '\n' :: rest) =
        v ++ ['\n'] ++ (indent ++ name ++ ['\n']) ++ rest := by simp
    rw [hsplit, reads_of_run (run_body ht hv L line)]
    exact hreads

end Reading

/-! ## Here-documents in a line -/

theorem unixLines_text {text : List Char} (h : text.all (· != '\r') = true)
    (rest : List Char) : unixLines (text ++ rest) = text ++ unixLines rest := by
  induction text with
  | nil => rfl
  | cons c cs ih =>
    simp only [List.all_cons, Bool.and_eq_true, bne_iff_ne, ne_eq] at h
    rw [List.cons_append, unixLines_cons h.1, ih (by simpa using h.2), List.cons_append]

/-- The texts of an opening line, an indent and a name. -/
structure HereText (opening indent name : List Char) (front : List Token) : Prop where
  opens : State.start.run opening = some ⟨[], front, .here name [] [] .start⟩
  opening_unix : opening.all (· != '\r') = true
  foot_unix : (indent ++ name).all (· != '\r') = true
  terminates : Terminator indent name

section HereTexts

variable {opening : List Char} {front : List Token}

theorem HereText.reads_body (h : HereText opening indent name front)
    {lines : List (List Token)} :
    Reads ⟨L, line, .code 0⟩
        (unixLines (opening ++ (v ++ '\n' :: (indent ++ name ++ '\n' :: rest)))) lines ↔
      Reads ⟨L, line ++ front, .here name [] [] .start⟩
        (unixLines (v ++ ['\n']) ++ (indent ++ name ++ '\n' :: unixLines rest)) lines := by
  have hopen : State.run ⟨L, line, .code 0⟩ opening =
      some ⟨L, line ++ front, .here name [] [] .start⟩ := by
    have hbehind := State.behind_run L line opening State.start
    rw [h.opens] at hbehind
    simpa [State.behind, State.start] using hbehind
  have hfoot : unixLines (indent ++ name ++ '\n' :: rest) =
      indent ++ name ++ '\n' :: unixLines rest := by
    rw [unixLines_text h.foot_unix, unixLines_cons (by decide)]
  rw [unixLines_text h.opening_unix, unixLines_append_newline, hfoot, reads_of_run hopen]

theorem HereText.reads (h : HereText opening indent name front) (hd : d ∈ name)
    (hkept : escaped d = some [d]) :
    Reads ⟨L, line, .code 0⟩
        (unixLines (opening ++ (v ++ '\n' :: (indent ++ name ++ '\n' :: rest))))
        (L ++ (line ++ (front ++ [.heredoc (v ++ ['\n'])])) :: more) ↔
      Body name v ∧
        Reads ⟨L ++ [line ++ (front ++ [.heredoc (v ++ ['\n'])])], [], .code 0⟩
          (unixLines rest) (L ++ (line ++ (front ++ [.heredoc (v ++ ['\n'])])) :: more) := by
  rw [h.reads_body, ← List.append_assoc line, reads_here h.terminates hd hkept, and_iff_right rfl]

theorem HereText.not_reads_alone (h : HereText opening indent name front) (hd : d ∈ name)
    (hkept : escaped d = some [d]) :
    ¬ Reads ⟨L, line, .code 0⟩
      (unixLines (opening ++ (v ++ '\n' :: (indent ++ name ++ '\n' :: rest))))
      (L ++ (line ++ (front ++ [.heredoc v])) :: more) := by
  rw [h.reads_body, ← List.append_assoc line]
  exact not_reads_here_alone h.terminates hd hkept

end HereTexts

end Clustering.Ruby
