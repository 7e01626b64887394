/-
Clustering.Vagrant.Status — `VagrantEnvironment.status`.

`status` looks for the states it knows between white space and an opening
bracket, up to the last closing bracket of the line, and then asks which
word the whole match contains. A report is a line for each machine; which
of them raise an alarm, that is, show a machine that is not running, is
settled by `exists_not_running_iff`.
-/
import Mathlib.Data.List.Infix
import Clustering.Java.Patterns
import Clustering.Java.Strings
import Clustering.Provisioning.VMActor

namespace Clustering.Vagrant

open Java

inductive VmStatus
  | notCreated
  | poweroff
  | running
  deriving DecidableEq, Repr

def VmStatus.text : VmStatus → String
  | .notCreated => "not created"
  | .poweroff => "poweroff"
  | .running => "running"

/-! ## The pattern -/

/-- `word\s\(.*\)`, with one character before it. -/
def behind (word : List Char) (cs : List Char) : Option ℕ :=
  if word.isPrefixOf cs then
    match cs.drop word.length with
    | t :: '(' :: inner =>
      if whitespace t then (closing inner).map (· + (word.length + 3)) else none
    | _ => none
  else none

/-- `\s(not created|poweroff|running)\s\(.*\)`. -/
def marked : Pattern
  | s :: cs =>
    if whitespace s then
      (behind VmStatus.notCreated.text.toList cs).or
        ((behind VmStatus.poweroff.text.toList cs).or (behind VmStatus.running.text.toList cs))
    else none
  | [] => none

def statusPattern : Pattern := dotStar marked

/-- `poweroff` counts as running, and a text with none of the words is
left out. -/
def status (output : String) : List (String × VmStatus) :=
  (findAllMatch statusPattern output.toList).filterMap fun m =>
    if VmStatus.running.text.toList <:+: m then
      some ((split whitespace (String.ofList m)).headD "", .running)
    else if VmStatus.poweroff.text.toList <:+: m then
      some ((split whitespace (String.ofList m)).headD "", .running)
    else if VmStatus.notCreated.text.toList <:+: m then
      some ((split whitespace (String.ofList m)).headD "", .notCreated)
    else none

example : status "Current machine states:\n\na      poweroff (virtualbox)\nb      aborted (x)\n" =
    [("a", .running)] := by
  decide +kernel

/-! ## One line -/

/-- A line that ends with a closing bracket. -/
structure Closed (line : List Char) : Prop where
  last : ∃ body, line = body ++ [')']
  dots : line.all dot = true

/-- The line is a state, white space and an opening bracket, and goes on. -/
def BeginsWith (word line : List Char) : Prop :=
  ∃ t inner, line = word ++ t :: '(' :: inner ∧ whitespace t = true

def Begins (line : List Char) : Prop := ∃ state : VmStatus, BeginsWith state.text.toList line

/-- A state stands in the line between white space and a bracket. -/
def Shows (line : List Char) : Prop :=
  ∃ front s rest, line = front ++ s :: rest ∧ whitespace s = true ∧ Begins rest

theorem Closed.tail {c : Char} {line : List Char} (h : Closed (c :: line)) :
    line = [] ∧ c = ')' ∨ Closed line := by
  obtain ⟨⟨body, hbody⟩, hdots⟩ := h
  simp only [List.all_cons, Bool.and_eq_true] at hdots
  cases body with
  | nil =>
    obtain ⟨rfl, rfl⟩ := List.cons.inj hbody
    exact Or.inl ⟨rfl, rfl⟩
  | cons b body =>
    obtain ⟨-, rfl⟩ := List.cons.inj hbody
    exact Or.inr ⟨⟨body, rfl⟩, hdots.2⟩

theorem Closed.ne_nil {line : List Char} (h : Closed line) : line ≠ [] := by
  obtain ⟨⟨body, rfl⟩, -⟩ := h
  simp

theorem Closed.drop {front line : List Char} (h : Closed (front ++ line)) (hne : line ≠ []) :
    Closed line := by
  induction front with
  | nil => exact h
  | cons c cs ih =>
    obtain ⟨hnil, -⟩ | hcs := h.tail
    · exact absurd (List.append_eq_nil_iff.mp hnil).2 hne
    · exact ih hcs

theorem closing_closed {line rest : List Char} (h : Closed line) (hrest : Breaks rest) :
    closing (line ++ rest) = some line.length := by
  obtain ⟨⟨body, rfl⟩, hdots⟩ := h
  rw [List.all_append, Bool.and_eq_true] at hdots
  simpa using closing_line hdots.1 hrest

/-- A word that is found behind a character is the start of the line, and
its match goes to the end of the line. -/
theorem behind_closed {word line rest : List Char} (hword : ')' ∉ word) (h : Closed line)
    (hrest : Breaks rest) :
    (BeginsWith word line → behind word (line ++ rest) = some (line.length + 1)) ∧
      (¬ BeginsWith word line → behind word (line ++ rest) = none) := by
  constructor
  · rintro ⟨t, inner, rfl, ht⟩
    have hinner : Closed inner := by
      have hdrop : Closed (word ++ [t, '('] ++ inner) := by simpa using h
      refine hdrop.drop ?_
      rintro rfl
      obtain ⟨⟨body, hbody⟩, -⟩ := h
      have hlast := congrArg List.getLast? hbody
      simp at hlast
    have hprefix : word.isPrefixOf (word ++ t :: '(' :: inner ++ rest) = true := by
      rw [List.isPrefixOf_iff_prefix, List.append_assoc]
      exact List.prefix_append _ _
    have hdrop : (word ++ t :: '(' :: inner ++ rest).drop word.length =
        t :: '(' :: (inner ++ rest) := by
      rw [List.append_assoc, List.drop_left]
      rfl
    rw [behind, if_pos hprefix, hdrop]
    simp only [ht, if_true, closing_closed hinner hrest, Option.map_some, List.length_append,
      List.length_cons]
    congr 1
    omega
  · intro hno
    unfold behind
    split
    · rename_i hprefix
      obtain ⟨more, hmore⟩ := List.isPrefixOf_iff_prefix.mp hprefix
      -- the word does not reach the bracket at the end of the line
      obtain ⟨left, rfl, hleft⟩ : ∃ left, line = word ++ left ∧ left ≠ [] := by
        obtain ⟨⟨body, rfl⟩, -⟩ := h
        obtain ⟨e, he, -⟩ | ⟨e, he, -⟩ := List.append_eq_append_iff.mp hmore
        · refine ⟨e, he, ?_⟩
          rintro rfl
          rw [List.append_nil] at he
          exact hword (he ▸ by simp)
        · exact absurd (he ▸ by simp) hword
      rw [List.append_assoc, List.drop_left]
      split
      · rename_i t inner heq
        cases left with
        | nil => exact absurd rfl hleft
        | cons u left =>
          obtain ⟨rfl, hinner⟩ := List.cons.inj heq
          split
          · rename_i ht
            cases left with
            | nil =>
              -- the last character of the line is no white space
              obtain ⟨⟨body, hbody⟩, -⟩ := h
              have hlast := congrArg List.getLast? hbody
              simp only [List.getLast?_append, List.getLast?_singleton, Option.some_or,
                Option.some.injEq] at hlast
              rw [hlast] at ht
              exact absurd ht (by decide)
            | cons v left =>
              obtain ⟨rfl, -⟩ := List.cons.inj hinner
              exact absurd ⟨u, left, rfl, ht⟩ hno
          · rfl
      · rfl
    · rfl

theorem marked_cons (s : Char) (cs : List Char) : marked (s :: cs) =
    if whitespace s then
      (behind VmStatus.notCreated.text.toList cs).or
        ((behind VmStatus.poweroff.text.toList cs).or (behind VmStatus.running.text.toList cs))
    else none := rfl

theorem marked_closed {s : Char} {line rest : List Char} (h : Closed line) (hrest : Breaks rest) :
    (whitespace s = true ∧ Begins line → marked (s :: (line ++ rest)) = some (line.length + 1)) ∧
      (¬ (whitespace s = true ∧ Begins line) → marked (s :: (line ++ rest)) = none) := by
  have hnone : ∀ state : VmStatus, ¬ BeginsWith state.text.toList line →
      behind state.text.toList (line ++ rest) = none := by
    intro state
    refine (behind_closed ?_ h hrest).2
    cases state <;> decide
  have hsome : ∀ state : VmStatus, BeginsWith state.text.toList line →
      behind state.text.toList (line ++ rest) = some (line.length + 1) := by
    intro state
    refine (behind_closed ?_ h hrest).1
    cases state <;> decide
  rw [marked_cons]
  constructor
  · rintro ⟨hs, hbegins⟩
    rw [if_pos hs]
    by_cases h1 : BeginsWith VmStatus.notCreated.text.toList line
    · rw [hsome _ h1, Option.some_or]
    · by_cases h2 : BeginsWith VmStatus.poweroff.text.toList line
      · rw [hnone _ h1, hsome _ h2, Option.none_or, Option.some_or]
      · by_cases h3 : BeginsWith VmStatus.running.text.toList line
        · rw [hnone _ h1, hnone _ h2, hsome _ h3, Option.none_or, Option.none_or]
        · obtain ⟨state, hstate⟩ := hbegins
          cases state <;> contradiction
  · intro hno
    split
    · rename_i hs
      have hall : ∀ state : VmStatus, ¬ BeginsWith state.text.toList line :=
        fun state hstate => hno ⟨hs, state, hstate⟩
      rw [hnone _ (hall _), hnone _ (hall _), hnone _ (hall _)]
      rfl
    · rfl

/-! ## Lines one below the other -/

theorem shows_cons (c : Char) (line : List Char) :
    Shows (c :: line) ↔ (whitespace c = true ∧ Begins line) ∨ Shows line := by
  constructor
  · rintro ⟨front, s, rest, heq, hs, hrest⟩
    cases front with
    | nil =>
      obtain ⟨rfl, rfl⟩ := List.cons.inj heq
      exact Or.inl ⟨hs, hrest⟩
    | cons d front =>
      obtain ⟨-, rfl⟩ := List.cons.inj heq
      exact Or.inr ⟨front, s, rest, rfl, hs, hrest⟩
  · rintro (⟨hc, hline⟩ | ⟨front, s, rest, rfl, hs, hrest⟩)
    · exact ⟨[], c, line, rfl, hc, hline⟩
    · exact ⟨c :: front, s, rest, rfl, hs, hrest⟩

theorem not_shows_nil : ¬ Shows [] := by
  rintro ⟨front, s, rest, heq, -⟩
  simp at heq

theorem not_begins_nil : ¬ Begins [] := by
  rintro ⟨state, t, inner, heq, -⟩
  simp at heq

/-- The line before the next one, if there is one. -/
def Lead (lead : List Char) : Prop := lead = [] ∨ Closed lead

theorem Lead.tail {c : Char} {line : List Char} (h : Lead (c :: line)) :
    Lead line ∧ dot c = true ∧ (line = [] → c = ')') := by
  obtain h | h := h
  · cases h
  · have hdots := h.dots
    simp only [List.all_cons, Bool.and_eq_true] at hdots
    obtain ⟨rfl, rfl⟩ | hline := h.tail
    · exact ⟨Or.inl rfl, hdots.1, fun _ => rfl⟩
    · exact ⟨Or.inr hline, hdots.1, fun hnil => absurd hnil hline.ne_nil⟩

theorem Lead.dots {lead : List Char} (h : Lead lead) : lead.all dot = true := by
  obtain rfl | h := h
  · rfl
  · exact h.dots

/-- What follows a line is found from the start of that line. -/
theorem statusPattern_follow {lead follow : List Char} {n : ℕ} (h : Lead lead)
    (hfollow : Breaks follow) (hn : marked follow = some n) :
    statusPattern (lead ++ follow) = some (lead.length + n) :=
  dotStar_append ((dotStar_breaks hfollow).trans hn) h.dots

theorem statusPattern_line {lead follow : List Char} (h : Lead lead) (hfollow : Breaks follow)
    (hnone : marked follow = none) :
    (Shows lead → statusPattern (lead ++ follow) = some lead.length) ∧
      (¬ Shows lead → statusPattern (lead ++ follow) = none) := by
  unfold statusPattern
  induction lead with
  | nil =>
    have hpattern : dotStar marked ([] ++ follow) = none := (dotStar_breaks hfollow).trans hnone
    exact ⟨fun hshows => absurd hshows not_shows_nil, fun _ => hpattern⟩
  | cons c cs ih =>
    obtain ⟨hcs, hdot, hlast⟩ := h.tail
    obtain ⟨ihshows, ihnone⟩ := ih hcs
    have hmarked : (whitespace c = true ∧ Begins cs →
        marked (c :: (cs ++ follow)) = some (cs.length + 1)) ∧
        (¬ (whitespace c = true ∧ Begins cs) → marked (c :: (cs ++ follow)) = none) := by
      obtain rfl | hclosed := hcs
      · obtain rfl := hlast rfl
        exact ⟨fun hbegins => absurd hbegins.2 not_begins_nil, fun _ => rfl⟩
      · exact marked_closed hclosed hfollow
    rw [shows_cons, List.cons_append, dotStar, if_pos hdot]
    by_cases hshows : Shows cs
    · simp [ihshows hshows, hshows]
    · rw [ihnone hshows, Option.map_none, Option.none_or]
      simpa [hshows] using hmarked

/-! ## Alarms -/

/-- A text in which no machine counts as running. -/
def Quiet (text : List Char) : Prop :=
  ¬ VmStatus.running.text.toList <:+: text ∧ ¬ VmStatus.poweroff.text.toList <:+: text

/-- A match that is reported as not running. -/
def Raises (m : List Char) : Prop := Quiet m ∧ VmStatus.notCreated.text.toList <:+: m

theorem raises_iff {m : List Char} (h : Shows m) : Raises m ↔ Quiet m := by
  refine and_iff_left_of_imp fun hquiet => ?_
  obtain ⟨front, s, rest, rfl, -, state, t, inner, rfl, -⟩ := h
  have hinfix : state.text.toList <:+: front ++ s :: (state.text.toList ++ t :: '(' :: inner) :=
    ⟨front ++ [s], t :: '(' :: inner, by simp⟩
  cases state with
  | notCreated => exact hinfix
  | poweroff => exact absurd hinfix hquiet.2
  | running => exact absurd hinfix hquiet.1

theorem infix_append_cons_iff {α : Type} {w x y : List α} {c : α} (hc : c ∉ w) :
    w <:+: x ++ c :: y ↔ w <:+: x ∨ w <:+: y := by
  constructor
  · rintro ⟨s, t, h⟩
    obtain ⟨e, hx, he⟩ | ⟨e, hs, he⟩ := List.append_eq_append_iff.mp h
    · exact Or.inl ⟨s, e, hx.symm⟩
    · -- the word ends behind the character that is not in it
      cases e with
      | nil =>
        rw [List.append_nil] at hs
        exact Or.inl ⟨s, [], by simp [hs]⟩
      | cons d e =>
        obtain ⟨rfl, rfl⟩ := List.cons.inj he
        obtain ⟨f, hf, hw⟩ | ⟨f, hf, hw⟩ := List.append_eq_append_iff.mp hs
        · exact absurd (hw ▸ by simp) hc
        · cases f with
          | nil => exact absurd (List.mem_of_mem_head? (by rw [← List.nil_append w, ← hw]; rfl)) hc
          | cons g f =>
            obtain ⟨rfl, rfl⟩ := List.cons.inj hw
            exact Or.inr ⟨f, t, by simp⟩
  · rintro (h | h)
    · exact h.trans (List.prefix_append x _).isInfix
    · exact h.trans ((List.suffix_cons c y).trans (List.suffix_append x _)).isInfix

theorem quiet_append (lead line : List Char) :
    Quiet (lead ++ '\n' :: line) ↔ Quiet lead ∧ Quiet line := by
  unfold Quiet
  rw [infix_append_cons_iff (by decide), infix_append_cons_iff (by decide)]
  tauto

theorem quiet_nil : Quiet [] := by
  constructor <;> decide

/-- A line raises the alarm if it shows a machine that was not created and
has none of the other words. A line that begins with a state is read as
one with the line before, unless that was read before. -/
def Alarms (before after : Option (List Char)) (line : List Char) : Prop :=
  Quiet line ∧ (Shows line ∧ ¬ Begins line ∧ (∀ next ∈ after, ¬ Begins next) ∨
    Begins line ∧ ∀ last ∈ before, Begins last ∨ Quiet last)

def Alarming (lines : List (List Char)) : Prop :=
  ∃ pre line post, lines = pre ++ line :: post ∧ Alarms pre.getLast? post.head? line

/-- The same with a line before that was not read yet. -/
def AlarmingBehind (lead : List Char) (lines : List (List Char)) : Prop :=
  (Shows lead ∧ Quiet lead ∧ ∀ next ∈ lines.head?, ¬ Begins next) ∨
    ∃ pre line post, lines = pre ++ line :: post ∧
      Alarms (lead :: pre).getLast? post.head? line

theorem alarmingBehind_nil_iff (lines : List (List Char)) :
    AlarmingBehind [] lines ↔ Alarming lines := by
  have hbefore : ∀ (pre : List (List Char)) (after : Option (List Char)) (line : List Char),
      Alarms ([] :: pre).getLast? after line ↔ Alarms pre.getLast? after line := by
    intro pre after line
    cases pre with
    | nil => simp [Alarms, quiet_nil]
    | cons p pre => simp [List.getLast?_cons_cons]
  unfold AlarmingBehind Alarming
  simp [not_shows_nil, hbefore]

theorem Lead.suffix {front line : List Char} (h : Lead (front ++ line)) : Lead line := by
  induction front with
  | nil => exact h
  | cons c cs ih => exact ih h.tail.1

theorem shows_append {front line : List Char} (h : Shows line) : Shows (front ++ line) := by
  induction front with
  | nil => exact h
  | cons c cs ih => exact (shows_cons c _).mpr (Or.inr ih)

/-- A line is passed over, unless a state shows in it. -/
theorem findAllMatch_line {lead follow : List Char} (h : Lead lead) (hfollow : Breaks follow)
    (hnone : marked follow = none) :
    (Shows lead → findAllMatch statusPattern (lead ++ follow) =
        lead :: findAllMatch statusPattern follow) ∧
      (¬ Shows lead → findAllMatch statusPattern (lead ++ follow) =
        findAllMatch statusPattern follow) := by
  constructor
  · intro hshows
    have hne : lead ≠ [] := by
      rintro rfl
      exact not_shows_nil hshows
    exact findAllMatch_some hne ((statusPattern_line h hfollow hnone).1 hshows)
  · intro hshows
    refine findAllMatch_skip fun a b hab _ => ?_
    subst hab
    exact (statusPattern_line h.suffix hfollow hnone).2 fun hb => hshows (shows_append hb)

theorem exists_split_cons {α : Type} {P : List α → α → List α → Prop} {x : α} {xs : List α} :
    (∃ pre y post, x :: xs = pre ++ y :: post ∧ P pre y post) ↔
      P [] x xs ∨ ∃ pre y post, xs = pre ++ y :: post ∧ P (x :: pre) y post := by
  constructor
  · rintro ⟨pre, y, post, heq, hp⟩
    cases pre with
    | nil =>
      obtain ⟨rfl, rfl⟩ := List.cons.inj heq
      exact Or.inl hp
    | cons z pre =>
      obtain ⟨rfl, rfl⟩ := List.cons.inj heq
      exact Or.inr ⟨pre, y, post, rfl, hp⟩
  · rintro (hp | ⟨pre, y, post, rfl, hp⟩)
    · exact ⟨[], x, xs, rfl, hp⟩
    · exact ⟨x :: pre, y, post, rfl, hp⟩

theorem alarmingBehind_split {lead line : List Char} {lines : List (List Char)} :
    AlarmingBehind lead (line :: lines) ↔
      (Shows lead ∧ Quiet lead ∧ ¬ Begins line) ∨ Alarms (some lead) lines.head? line ∨
        ∃ pre l post, lines = pre ++ l :: post ∧ Alarms (line :: pre).getLast? post.head? l := by
  unfold AlarmingBehind
  rw [exists_split_cons]
  simp only [List.head?_cons, Option.mem_some_iff, forall_eq', List.getLast?_singleton,
    List.getLast?_cons_cons]

/-- A line that begins with a state takes the line before with it. -/
theorem alarmingBehind_begins {lead line : List Char} {lines : List (List Char)}
    (hlead : ¬ Begins lead) (hline : Begins line) :
    AlarmingBehind lead (line :: lines) ↔ (Quiet lead ∧ Quiet line) ∨ AlarmingBehind [] lines := by
  have hfirst : Alarms (some lead) lines.head? line ↔ Quiet lead ∧ Quiet line := by
    simp [Alarms, hline, hlead, and_comm]
  have hbefore : ∀ (pre : List (List Char)) (after : Option (List Char)) (l : List Char),
      Alarms (line :: pre).getLast? after l ↔ Alarms ([] :: pre).getLast? after l := by
    intro pre after l
    cases pre with
    | nil => simp [Alarms, hline, quiet_nil]
    | cons p pre => simp [List.getLast?_cons_cons]
  rw [alarmingBehind_split, hfirst, AlarmingBehind]
  simp only [hline, not_true, and_false, false_or, not_shows_nil, false_and, hbefore]

theorem alarmingBehind_cons {lead line : List Char} {lines : List (List Char)}
    (hline : ¬ Begins line) :
    AlarmingBehind lead (line :: lines) ↔
      (Shows lead ∧ Quiet lead) ∨ AlarmingBehind line lines := by
  have hfirst : Alarms (some lead) lines.head? line ↔
      Shows line ∧ Quiet line ∧ ∀ next ∈ lines.head?, ¬ Begins next := by
    simp only [Alarms, hline, false_and, or_false, not_false_eq_true, true_and]
    tauto
  rw [alarmingBehind_split, hfirst, AlarmingBehind]
  simp only [hline, not_false_eq_true, and_true]

/-- **What the report raises is decided line by line.** -/
theorem raises_lines {tail : List Char} (htail : Breaks tail) (hnone : marked tail = none)
    (hend : findAllMatch statusPattern tail = []) {lines : List (List Char)} :
    ∀ {lead : List Char}, Lead lead → ¬ Begins lead → (∀ line ∈ lines, Closed line) →
      ((∃ m ∈ findAllMatch statusPattern (lead ++ (lines.flatMap ('\n' :: ·) ++ tail)), Raises m) ↔
        AlarmingBehind lead lines) := by
  induction lines with
  | nil =>
    intro lead hlead hbegins hlines
    obtain ⟨hmatch, hskip⟩ := findAllMatch_line hlead htail hnone
    by_cases hshows : Shows lead
    · simp [hmatch hshows, hend, raises_iff hshows, AlarmingBehind, hshows]
    · simp [hskip hshows, hend, AlarmingBehind, hshows]
  | cons line lines ih =>
    intro lead hlead hbegins hlines
    obtain ⟨hline, hlines⟩ := List.forall_mem_cons.mp hlines
    have hrest : Breaks (lines.flatMap ('\n' :: ·) ++ tail) := by
      cases lines with
      | nil => exact htail
      | cons l ls =>
        rintro c hc
        obtain rfl : '\n' = c := by simpa using hc
        decide
    have hfollow : Breaks ('\n' :: (line ++ (lines.flatMap ('\n' :: ·) ++ tail))) := by
      rintro c hc
      obtain rfl : '\n' = c := by simpa using hc
      decide
    have htext : (line :: lines).flatMap ('\n' :: ·) ++ tail =
        '\n' :: (line ++ (lines.flatMap ('\n' :: ·) ++ tail)) := by
      simp
    obtain ⟨hsome, hnone'⟩ := marked_closed (s := '\n') hline hrest
    rw [htext]
    by_cases hbegin : Begins line
    · -- the line is read with the one before
      have hshows : Shows (lead ++ '\n' :: line) := ⟨lead, '\n', line, rfl, rfl, hbegin⟩
      have hmatch : statusPattern ((lead ++ '\n' :: line) ++ (lines.flatMap ('\n' :: ·) ++ tail)) =
          some (lead ++ '\n' :: line).length := by
        have hlead' := statusPattern_follow hlead hfollow (hsome ⟨rfl, hbegin⟩)
        simpa using hlead'
      have hihnil := ih (Or.inl rfl) not_begins_nil hlines
      rw [List.nil_append] at hihnil
      have hcut : lead ++ '\n' :: (line ++ (lines.flatMap ('\n' :: ·) ++ tail)) =
          (lead ++ '\n' :: line) ++ (lines.flatMap ('\n' :: ·) ++ tail) := by
        simp
      rw [hcut, findAllMatch_some (by simp) hmatch, List.exists_mem_cons_iff, raises_iff hshows,
        quiet_append, hihnil, alarmingBehind_begins hbegins hbegin]
    · have hmark : marked ('\n' :: (line ++ (lines.flatMap ('\n' :: ·) ++ tail))) = none :=
        hnone' fun h => hbegin h.2
      have hpass : findAllMatch statusPattern ('\n' :: (line ++ (lines.flatMap ('\n' :: ·) ++ tail))) =
          findAllMatch statusPattern (line ++ (lines.flatMap ('\n' :: ·) ++ tail)) :=
        findAllMatch_none ((dotStar_breaks hfollow).trans hmark)
      obtain ⟨hmatch, hskip⟩ := findAllMatch_line hlead hfollow hmark
      have hih := ih (Or.inr hline) hbegin hlines
      rw [alarmingBehind_cons hbegin, ← hih]
      by_cases hshows : Shows lead
      · rw [hmatch hshows, hpass, List.exists_mem_cons_iff, raises_iff hshows]
        simp [hshows]
      · rw [hskip hshows, hpass]
        simp [hshows]

/-! ## Reports -/

/-- A machine in the report of `vagrant status`. -/
structure VmRow where
  name : String
  padding : ℕ
  state : String
  provider : String

def VmRow.text (row : VmRow) : List Char :=
  row.name.toList ++ List.replicate row.padding ' ' ++ ' ' :: row.state.toList ++
    ' ' :: '(' :: row.provider.toList ++ [')']

/-- What `vagrant status` prints: a line for each machine, and a message
behind them. No entry has a line break, and the message no bracket. -/
structure Report where
  rows : List VmRow
  message : String
  oneLine : ∀ row ∈ rows, row.text.all dot = true
  noBracket : '(' ∉ message.toList

def Report.text (report : Report) : String :=
  String.ofList ("Current machine states:\n".toList ++
    (report.rows.flatMap (fun row => '\n' :: row.text) ++
      '\n' :: '\n' :: (report.message.toList ++ ['\n'])))

theorem marked_eq_none {cs : List Char} (h : '(' ∉ cs) : marked cs = none := by
  have hbehind : ∀ word rest, '(' ∉ rest → behind word rest = none := by
    intro word rest hrest
    unfold behind
    split
    · split
      · rename_i t inner heq
        have hmem : '(' ∈ rest.drop word.length := by simp [heq]
        exact absurd (List.mem_of_mem_drop hmem) hrest
      · rfl
    · rfl
  cases cs with
  | nil => rfl
  | cons c cs =>
    simp only [List.mem_cons, not_or] at h
    rw [marked_cons, hbehind _ _ h.2, hbehind _ _ h.2, hbehind _ _ h.2]
    split <;> rfl

theorem findAllMatch_eq_nil {cs : List Char} (h : '(' ∉ cs) :
    findAllMatch statusPattern cs = [] := by
  have hpass : ∀ a b, cs = a ++ b → b ≠ [] → statusPattern (b ++ []) = none := by
    rintro a b rfl -
    rw [List.append_nil]
    refine dotStar_eq_none fun front rest hb => marked_eq_none fun hmem => ?_
    subst hb
    exact h (by simp [hmem])
  have hskip := findAllMatch_skip hpass
  rw [List.append_nil] at hskip
  exact hskip

/-- Nothing is found in the headline. -/
theorem findAllMatch_headline (rest : List Char) :
    findAllMatch statusPattern ("Current machine states:\n".toList ++ '\n' :: rest) =
      findAllMatch statusPattern ('\n' :: rest) := by
  rfl

theorem vmRow_closed {row : VmRow} (h : row.text.all dot = true) : Closed row.text :=
  ⟨⟨_, rfl⟩, h⟩

/-- **Which reports show a machine that is not running.** -/
theorem exists_not_running_iff (report : Report) :
    (∃ x ∈ status report.text, x.2 ≠ .running) ↔ Alarming (report.rows.map VmRow.text) := by
  have hraises : (∃ x ∈ status report.text, x.2 ≠ .running) ↔
      ∃ m ∈ findAllMatch statusPattern report.text.toList, Raises m := by
    unfold status
    simp only [List.mem_filterMap]
    constructor
    · rintro ⟨x, ⟨m, hm, hx⟩, hne⟩
      refine ⟨m, hm, ?_⟩
      split at hx
      · obtain rfl := Option.some.inj hx
        exact absurd rfl hne
      · split at hx
        · obtain rfl := Option.some.inj hx
          exact absurd rfl hne
        · split at hx
          · exact ⟨⟨‹_›, ‹_›⟩, ‹_›⟩
          · cases hx
    · rintro ⟨m, hm, ⟨hrunning, hpoweroff⟩, hcreated⟩
      refine ⟨((split whitespace (String.ofList m)).headD "", .notCreated), ⟨m, hm, ?_⟩, by simp⟩
      rw [if_neg hrunning, if_neg hpoweroff, if_pos hcreated]
  have htail : '(' ∉ '\n' :: '\n' :: (report.message.toList ++ ['\n']) := by
    simp [report.noBracket]
  have hbreaks : Breaks ('\n' :: '\n' :: (report.message.toList ++ ['\n'])) := by
    rintro c hc
    obtain rfl : '\n' = c := by simpa using hc
    decide
  have hclosed : ∀ line ∈ report.rows.map VmRow.text, Closed line := by
    intro line hline
    obtain ⟨row, hrow, rfl⟩ := List.mem_map.mp hline
    exact vmRow_closed (report.oneLine row hrow)
  have hlines := raises_lines hbreaks (marked_eq_none htail) (findAllMatch_eq_nil htail)
    (Or.inl rfl) not_begins_nil hclosed
  have hheadline : findAllMatch statusPattern report.text.toList =
      findAllMatch statusPattern ([] ++ ((report.rows.map VmRow.text).flatMap ('\n' :: ·) ++
        '\n' :: '\n' :: (report.message.toList ++ ['\n']))) := by
    have htext : report.text.toList = "Current machine states:\n".toList ++
        (report.rows.flatMap (fun row => '\n' :: row.text) ++
          '\n' :: '\n' :: (report.message.toList ++ ['\n'])) := by
      unfold Report.text
      exact String.toList_ofList
    rw [htext, List.flatMap_map, List.nil_append]
    cases report.rows with
    | nil =>
      rw [List.flatMap_nil, List.nil_append]
      exact findAllMatch_headline _
    | cons row rows =>
      rw [List.flatMap_cons, List.cons_append, List.cons_append]
      exact findAllMatch_headline _
  rw [hraises, hheadline, hlines, alarmingBehind_nil_iff]

/-! ## What the machine actor makes of it -/

/-- `!statuses.exists(_._2 != VmStatus.running)`. -/
def allRunning (statuses : List (String × VmStatus)) : Bool :=
  !statuses.any fun x => x.2 != .running

/-- `finishProvisionVm` sets `vmProvisioned`, or tells the node so. -/
def Announces (self : ℕ) (isDirectory : Bool) (v : Provisioning.VMActor) (output : String) :
    Prop :=
  (Provisioning.VMActor.finishProvisionVm self isDirectory (allRunning (status output))
      v).fields.vmProvisioned = true ∨
    Provisioning.Effect.tell .node .vmProvisioned ∈
      (Provisioning.VMActor.finishProvisionVm self isDirectory (allRunning (status output))
        v).effects

theorem announces_iff_allRunning (self : ℕ) (isDirectory : Bool) (v : Provisioning.VMActor)
    (output : String) :
    Announces self isDirectory v output ↔ allRunning (status output) = true := by
  unfold Announces
  cases allRunning (status output) with
  | true =>
    refine iff_of_true (Or.inr ?_) rfl
    simp [Provisioning.VMActor.finishProvisionVm]
  | false =>
    refine iff_of_false ?_ (by simp)
    unfold Provisioning.VMActor.finishProvisionVm Provisioning.VMActor.prepareProvisionVm
    cases hconfig : v.vagrantEnvironmentConfig with
    | none => simp [hconfig]
    | some config => cases hvagrant : v.vagrant <;> cases isDirectory <;> simp [hconfig, hvagrant]

/-- **Provisioned means running exactly when the report raises an alarm**
for a machine that is not. -/
theorem provisioned_running_iff (self : ℕ) (isDirectory : Bool) (v : Provisioning.VMActor)
    (report : Report) :
    (Announces self isDirectory v report.text → ∀ row ∈ report.rows, row.state = "running") ↔
      (∀ row ∈ report.rows, row.state = "running") ∨ Alarming (report.rows.map VmRow.text) := by
  have hannounces : Announces self isDirectory v report.text ↔
      ¬ Alarming (report.rows.map VmRow.text) := by
    rw [announces_iff_allRunning, ← exists_not_running_iff]
    simp [allRunning]
  rw [hannounces]
  tauto

/-- A machine that is powered off, one that was aborted, and one that was
not created but is called `running`. -/
theorem announced_not_running :
    (∃ report : Report, report.rows = [⟨"node", 21, "poweroff", "virtualbox"⟩] ∧
      ¬ (Announces 7 true .new report.text → ∀ row ∈ report.rows, row.state = "running")) ∧
    (∃ report : Report, report.rows = [⟨"node", 21, "aborted", "virtualbox"⟩] ∧
      ¬ (Announces 7 true .new report.text → ∀ row ∈ report.rows, row.state = "running")) ∧
    ∃ report : Report, report.rows = [⟨"running_1", 16, "not created", "virtualbox"⟩] ∧
      ¬ (Announces 7 true .new report.text → ∀ row ∈ report.rows, row.state = "running") := by
  have hreport : ∀ (row : VmRow) (h : ∀ r ∈ [row], r.text.all dot = true), row.state ≠ "running" →
      allRunning (status (Report.text ⟨[row], "", h, List.not_mem_nil⟩)) = true →
      ∃ report : Report, report.rows = [row] ∧
        ¬ (Announces 7 true .new report.text → ∀ row ∈ report.rows, row.state = "running") := by
    intro row h hstate hrunning
    refine ⟨⟨[row], "", h, List.not_mem_nil⟩, rfl, fun hall => ?_⟩
    have hannounced : Announces 7 true .new (Report.text ⟨[row], "", h, List.not_mem_nil⟩) :=
      (announces_iff_allRunning 7 true .new _).mpr hrunning
    exact hstate (hall hannounced row (List.mem_singleton_self row))
  exact ⟨hreport _ (by decide +kernel) (by decide) (by decide +kernel),
    hreport _ (by decide +kernel) (by decide) (by decide +kernel),
    hreport _ (by decide +kernel) (by decide) (by decide +kernel)⟩

end Clustering.Vagrant
