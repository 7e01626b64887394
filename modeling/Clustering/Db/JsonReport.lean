/-
Clustering.Db.JsonReport — the JSON report, read back.

The report has a line for each member of each task's object, with the
text of the member between two quotes, as it is (`memberText`). If the
texts are plain the document is the one that is meant (`parse_json`).

In the other direction, a text that is not plain would have to stand
somewhere in the document as a string that is longer than itself. No
string goes beyond the text it is in (`emits_member`), so there would be
a longer text that is not plain, and so on (`plain_of_faithful`).

The minutes and hours of `time_spent` are cut off at 60 and 24, the
seconds are not: they are the whole time.
-/
import Clustering.Db.Reports
import Clustering.Json.Text
import Mathlib.Algebra.Order.BigOperators.Group.List
import Mathlib.Algebra.Order.Group.Nat

namespace Clustering.Db

open Actors Actors.Handler
open Java Json

/-! ## What the report should be -/

/-- The method of a task with its parameters. -/
def methodText (task : RequestedTask) : String :=
  task.method ++ "(" ++ dropRight (paramsAsString task.params) 1 ++ ")"

/-- A text or null. -/
def nullableText : Value → Option (Option String)
  | .str s => some (some s)
  | .null => some none
  | _ => none

/-- The object gives back the values of the task. -/
structure Denotes (v : Value) (task : RequestedTask) : Prop where
  endState : (v.member "end_state").bind nullableText = some task.endState.toText
  method : v.member "method" = some (.str (methodText task))
  startedAt : (v.member "started_at").bind nullableText =
    some (task.startedAt.map Timestamp.toText)
  finishedAt : (v.member "finished_at").bind nullableText =
    some (task.finishedAt.map Timestamp.toText)
  timeSpent : ∃ h m s : ℕ,
    v.member "time_spent" = some (.str (pad2 h ++ ":" ++ pad2 m ++ ":" ++ pad2 s)) ∧
      m < 60 ∧ s < 60 ∧ ((3600 * h + 60 * m + s : ℕ) : ℤ) = task.timeSpent
  result : (v.member "result").bind nullableText = some task.taskResult

/-- The text is a JSON document whose `data` has one object for each task,
in order. -/
def Faithful (text : String) (tasks : List RequestedTask) : Prop :=
  ∃ doc objects, Json.parse text = some doc ∧ doc.member "data" = some (.arr objects) ∧
    List.Forall₂ Denotes objects tasks

/-- The values of the task can be inserted as they are. -/
structure Verbatim (task : RequestedTask) : Prop where
  method : Plain task.method.toList
  params : ∀ e ∈ task.params.entries, Plain e.1.toList ∧ Plain e.2.toList
  endState : task.endState ≠ .none
  startedAt : task.startedAt ≠ none
  finishedAt : task.finishedAt ≠ none
  timeSpent : task.timeSpent < 60
  result : ∃ s, task.taskResult = some s ∧ Plain s.toList

/-! ## The lines of the report -/

/-- The line of a member, without the comma. -/
def memberText (x : String × String) : List Char :=
  ('\n' :: "      \"".toList) ++ (x.1.toList ++ ("\": \"".toList ++ (x.2.toList ++ ['"'])))

/-- The members of an object and their texts. -/
def members (task : RequestedTask) : List (String × String) :=
  [("end_state", nullable task.endState.toText), ("method", methodText task),
    ("started_at", nullable (task.startedAt.map Timestamp.toText)),
    ("finished_at", nullable (task.finishedAt.map Timestamp.toText)),
    ("time_spent", DBGenerateJsonReport.timeString task.timeSpent),
    ("result", nullable task.taskResult)]

/-- The object of a task, without the comma. -/
def bareObject (task : RequestedTask) : List Char :=
  "\n    \x7b".toList ++ [','].intercalate ((members task).map memberText) ++ "\n    \x7d".toList

theorem objectText_toList (task : RequestedTask) :
    (DBGenerateJsonReport.objectText task).toList = bareObject task ++ [','] := by
  have hfirst : "\n    \x7b\n      \"end_state\": \"".toList = "\n    \x7b".toList ++
      '\n' :: ("      \"".toList ++ ("end_state".toList ++ "\": \"".toList)) := by simp
  have hmethod : "\",\n      \"method\": \"".toList =
      '"' :: ',' :: '\n' :: ("      \"".toList ++ ("method".toList ++ "\": \"".toList)) := by simp
  have hstarted : ")\",\n      \"started_at\": \"".toList = ")".toList ++
      '"' :: ',' :: '\n' :: ("      \"".toList ++ ("started_at".toList ++ "\": \"".toList)) := by simp
  have hfinished : "\",\n      \"finished_at\": \"".toList =
      '"' :: ',' :: '\n' :: ("      \"".toList ++ ("finished_at".toList ++ "\": \"".toList)) := by simp
  have hspent : "\",\n      \"time_spent\": \"".toList =
      '"' :: ',' :: '\n' :: ("      \"".toList ++ ("time_spent".toList ++ "\": \"".toList)) := by simp
  have hresult : "\",\n      \"result\": \"".toList =
      '"' :: ',' :: '\n' :: ("      \"".toList ++ ("result".toList ++ "\": \"".toList)) := by simp
  have hend : "\"\n    \x7d,".toList = '"' :: ("\n    \x7d".toList ++ [',']) := by simp
  unfold DBGenerateJsonReport.objectText bareObject members memberText methodText
  generalize nullable task.endState.toText = endState,
    nullable (task.startedAt.map Timestamp.toText) = startedAt,
    nullable (task.finishedAt.map Timestamp.toText) = finishedAt,
    nullable task.taskResult = result,
    DBGenerateJsonReport.timeString task.timeSpent = timeSpent,
    dropRight (paramsAsString task.params) 1 = params
  simp only [List.map_cons, List.map_nil, List.intercalate_cons_cons, List.intercalate_singleton,
    String.toList_append, hfirst, hmethod, hstarted, hfinished, hspent, hresult, hend,
    List.append_assoc, List.cons_append, List.nil_append]

theorem foldl_append_toList {α : Type} (f : α → String) (s : String) (xs : List α) :
    (xs.foldl (fun s x => s ++ f x) s).toList = s.toList ++ xs.flatMap fun x => (f x).toList := by
  induction xs generalizing s with
  | nil => simp
  | cons x xs ih => simp [ih]

theorem flatMap_comma {α : Type} (f : α → List Char) (xs : List α) (h : xs ≠ []) :
    (xs.flatMap fun x => f x ++ [',']) = [','].intercalate (xs.map f) ++ [','] := by
  induction xs with
  | nil => exact absurd rfl h
  | cons x xs ih =>
    cases xs with
    | nil => simp [List.intercalate]
    | cons y ys => rw [List.flatMap_cons, ih (by simp)]; simp [List.intercalate]

/-- The report as a whole. Cutting off one character cuts off the last
comma. -/
theorem jsonString_toList {tasks : List RequestedTask} (h : tasks ≠ []) :
    (DBGenerateJsonReport.jsonString tasks).toList =
      "\x7b".toList ++ ("\n  \"data\": [".toList ++ ([','].intercalate (tasks.map bareObject) ++
        "\n  ]\n\x7d".toList)) := by
  have hbody : (tasks.flatMap fun task => (DBGenerateJsonReport.objectText task).toList) =
      [','].intercalate (tasks.map bareObject) ++ [','] := by
    simp only [objectText_toList]
    exact flatMap_comma bareObject tasks h
  have hall : (tasks.foldl (fun s task => s ++ DBGenerateJsonReport.objectText task)
      "\x7b\n  \"data\": [").toList =
      ("\x7b\n  \"data\": [".toList ++ [','].intercalate (tasks.map bareObject)) ++ [','] := by
    rw [foldl_append_toList, hbody, List.append_assoc]
  rw [DBGenerateJsonReport.jsonString, dropRight, hall, String.toList_append,
    String.toList_ofList, show (1 : ℕ) = [','].length from rfl, List.rdrop_append_length]
  simp

/-! ## Plain texts give the document that is meant -/

/-- The tokens of a member's line. -/
def lineTokens (x : String × String) : List Token :=
  memberTokens x.1 [.str (pieces x.2.toList)]

theorem scan_member {x : String × String} (hname : Plain x.1.toList) (htext : Plain x.2.toList) :
    scan .between (memberText x) = some (.between, lineTokens x) := by
  have hnewline : scan .between ('\n' :: "      \"".toList) = some (.inside [], []) := rfl
  have hcolon : ∀ ps, scan (.inside ps) "\": \"".toList =
      some (.inside [], [.str ps, .sign ':']) := fun _ => rfl
  have hclose : ∀ ps, scan (.inside ps) ['"'] = some (.between, [.str ps]) := fun _ => rfl
  have htext := scan_append_of_eq (scan_plain htext []) (hclose ([] ++ pieces x.2.toList))
  have hrest := scan_append_of_eq (hcolon ([] ++ pieces x.1.toList)) htext
  have hline := scan_append_of_eq hnewline (scan_append_of_eq (scan_plain hname []) hrest)
  unfold memberText
  refine hline.trans ?_
  simp [lineTokens, memberTokens]

/-- All names and texts of the members are plain. -/
def PlainMembers (task : RequestedTask) : Prop :=
  ∀ x ∈ members task, Plain x.1.toList ∧ Plain x.2.toList

def objectTokens (task : RequestedTask) : List Token :=
  .sign '\x7b' :: ([Token.sign ','].intercalate ((members task).map lineTokens) ++
    [.sign '\x7d'])

/-- The object of a task, with its texts as they are. -/
def objectValue (task : RequestedTask) : Value :=
  .obj ((members task).map fun x => (x.1, .str x.2))

theorem scan_object {task : RequestedTask} (h : PlainMembers task) :
    scan .between (bareObject task) = some (.between, objectTokens task) := by
  have hopen : scan .between "\n    \x7b".toList = some (.between, [.sign '\x7b']) := rfl
  have hclose : scan .between "\n    \x7d".toList = some (.between, [.sign '\x7d']) := rfl
  have hmembers := scan_intercalate (f := memberText) (g := lineTokens)
    fun x hx => scan_member (h x hx).1 (h x hx).2
  have hobject : scan .between (bareObject task) = _ :=
    scan_append_of_eq (scan_append_of_eq hopen hmembers) hclose
  rw [hobject, objectTokens]
  rfl

theorem build_object {task : RequestedTask} (h : PlainMembers task) (fs : List Frame) :
    build (.value fs) (objectTokens task) = some (.after (objectValue task) fs) := by
  have hvalue : ∀ x ∈ members task, ∀ fs,
      build (.value fs) [.str (pieces x.2.toList)] = some (.after (.str x.2) fs) := by
    intro x hx fs
    simp [build, Builder.step, Builder.begin, Token.atom, decode_pieces (h x hx).2]
  have hne : members task ≠ [] := by simp [members]
  have hmembers := build_members (g := fun x => [.str (pieces x.2.toList)])
    (v := fun x => .str x.2) (fun x hx => (h x hx).1) hvalue hne [] fs
  have hopen : ∀ us, build (.value fs) (.sign '\x7b' :: us) = build (.members [] fs) us :=
    fun _ => rfl
  rw [objectTokens, hopen]
  exact hmembers

/-- **The document, if all texts are plain.** -/
theorem parse_json {tasks : List RequestedTask} (hne : tasks ≠ [])
    (h : ∀ task ∈ tasks, PlainMembers task) :
    Json.parse (DBGenerateJsonReport.jsonString tasks) =
      some (.obj [("data", .arr (tasks.map objectValue))]) := by
  have hopen : scan .between "\x7b".toList = some (.between, [.sign '\x7b']) := rfl
  have hdata : scan .between "\n  \"data\": [".toList =
      some (.between, [.str (pieces "data".toList), .sign ':', .sign '[']) := rfl
  have hclose : scan .between ("\n  ]\n\x7d".toList ++ ['\n']) =
      some (.between, [.sign ']', .sign '\x7d']) := rfl
  have hobjects := scan_intercalate (f := bareObject) (g := objectTokens)
    fun task htask => scan_object (h task htask)
  have hitems := build_items (g := objectTokens) (v := objectValue)
    (fun task htask fs => build_object (h task htask) fs) hne [] [.member [] "data"]
  rw [parse_eq_some]
  refine ⟨.sign '\x7b' :: .str (pieces "data".toList) :: .sign ':' :: .sign '[' ::
    ([Token.sign ','].intercalate (tasks.map objectTokens) ++ [.sign ']', .sign '\x7d']), ?_, ?_⟩
  · rw [tokens, jsonString_toList hne]
    have hscan := scan_append_of_eq hopen (scan_append_of_eq hdata
      (scan_append_of_eq hobjects hclose))
    simp only [List.append_assoc] at hscan ⊢
    rw [hscan]
    rfl
  · obtain ⟨task, rest, rfl⟩ := List.exists_cons_of_ne_nil hne
    -- the first object is no end of the array
    have hstart : ∀ us, build (.items [.member [] "data"]) (objectTokens task ++ us) =
        build (.value [.item [], .member [] "data"]) (objectTokens task ++ us) := by
      intro us
      rw [objectTokens, List.cons_append]
      rfl
    obtain ⟨us, hus⟩ : ∃ us, [Token.sign ','].intercalate ((task :: rest).map objectTokens) =
        objectTokens task ++ us := by
      cases rest with
      | nil => exact ⟨[], by simp⟩
      | cons y ys => exact ⟨_, by rw [List.map_cons, List.map_cons, List.intercalate_cons_cons,
          List.append_assoc]⟩
    have hhead : ∀ us, build (.value []) (.sign '\x7b' :: .str (pieces "data".toList) ::
        .sign ':' :: .sign '[' :: us) = build (.items [.member [] "data"]) us := by
      intro us
      have hdecode : decode (pieces "data".toList) = "data".toList := decode_pieces (by decide)
      simp only [build, Builder.step, Builder.begin, Option.bind_some, hdecode,
        String.ofList_toList]
    have hend : ∀ v, build (.after v [.member [] "data"]) [.sign '\x7d'] =
        some (.after (.obj [("data", v)]) []) := fun _ => rfl
    have hsplit : ∀ ts, ts ++ [Token.sign ']', .sign '\x7d'] =
        (ts ++ [.sign ']']) ++ [.sign '\x7d'] := fun ts => by simp
    rw [hhead, hsplit, hus, List.append_assoc, List.append_assoc, hstart, ← List.append_assoc,
      ← List.append_assoc, ← hus, build_append_of_eq hitems]
    exact hend _

/-! ## A text that is not plain -/

/-- Whatever precedes the text, the strings it completes satisfy `P`. -/
def Emits (P : List Piece → Prop) (cs : List Char) : Prop :=
  ∀ m m' ts, scan m cs = some (m', ts) → ∀ ps, Token.str ps ∈ ts → P ps

theorem Emits.append {P : List Piece → Prop} {as bs : List Char} (ha : Emits P as)
    (hb : Emits P bs) : Emits P (as ++ bs) := by
  intro m m' ts h ps hps
  obtain ⟨n, us, vs, has, hbs, rfl⟩ := scan_append_eq_some.mp h
  rcases List.mem_append.mp hps with hps | hps
  · exact ha m n us has ps hps
  · exact hb n m' vs hbs ps hps

/-- A text without a quote completes no string. -/
theorem emits_of_no_quote {P : List Piece → Prop} {cs : List Char} (h : '"' ∉ cs) :
    Emits P cs := by
  induction cs with
  | nil =>
    intro m m' ts h ps hps
    obtain ⟨rfl, rfl⟩ := Prod.mk.inj (Option.some.inj h)
    cases hps
  | cons c cs ih =>
    intro m m' ts hscan ps hps
    obtain ⟨⟨n, us⟩, hstep, hscan⟩ := Option.bind_eq_some_iff.mp hscan
    obtain ⟨⟨k, vs⟩, hrest, hscan⟩ := Option.map_eq_some_iff.mp hscan
    obtain ⟨rfl, rfl⟩ := Prod.mk.inj hscan
    rcases List.mem_append.mp hps with hps | hps
    · exact absurd rfl (step_noString (fun hc => h (hc ▸ List.mem_cons_self)) hstep _ hps ps)
    · exact ih (fun hmem => h (List.mem_cons_of_mem _ hmem)) n k vs hrest ps hps

theorem emits_intercalate {P : List Piece → Prop} {α : Type} {f : α → List Char} {xs : List α}
    (h : ∀ x ∈ xs, Emits P (f x)) : Emits P ([','].intercalate (xs.map f)) := by
  induction xs with
  | nil => exact emits_of_no_quote (by simp)
  | cons x xs ih =>
    have hx := h x List.mem_cons_self
    cases xs with
    | nil => simpa using hx
    | cons y ys =>
      have hrest := ih fun z hz => h z (List.mem_cons_of_mem _ hz)
      simp only [List.map_cons, List.intercalate_cons_cons] at hrest ⊢
      exact (hx.append (emits_of_no_quote (by decide))).append hrest

/-- A line that starts with a newline is scanned from between tokens. -/
theorem emits_newline {P : List Piece → Prop} {cs : List Char}
    (h : ∀ m' ts, scan .between cs = some (m', ts) → ∀ ps, Token.str ps ∈ ts → P ps) :
    Emits P ('\n' :: cs) := by
  intro m m' ts hscan ps hps
  obtain ⟨⟨n, us⟩, hstep, hscan⟩ := Option.bind_eq_some_iff.mp hscan
  obtain ⟨⟨k, vs⟩, hrest, hscan⟩ := Option.map_eq_some_iff.mp hscan
  obtain ⟨rfl, rfl⟩ := Prod.mk.inj hscan
  obtain ⟨rfl, hno⟩ := step_newline hstep
  rcases List.mem_append.mp hps with hps | hps
  · exact absurd rfl (hno _ hps ps)
  · exact h k vs hrest ps hps

/-- The string is plain, or no longer than one of the texts that are not. -/
def Bounded (texts : List String) (ps : List Piece) : Prop :=
  Plain (decode ps) ∨ ∃ s ∈ texts, ¬ Plain s.toList ∧ width ps ≤ s.toList.length

/-- **No string goes beyond the text it is in.** -/
theorem emits_member {texts : List String} {x : String × String} (hname : Plain x.1.toList)
    (hx : x.2 ∈ texts) : Emits (Bounded texts) (memberText x) := by
  have hrest : memberText x = '\n' :: ("      \"".toList ++ (x.1.toList ++ ("\": \"".toList ++
      (x.2.toList ++ ['"'])))) := rfl
  rw [hrest]
  refine emits_newline fun m' ts hscan ps hps => ?_
  -- what precedes the text is scanned in one way
  have hindent : scan .between "      \"".toList = some (.inside [], []) := rfl
  have hcolon : scan (.inside (pieces x.1.toList)) "\": \"".toList =
      some (.inside [], [.str (pieces x.1.toList), .sign ':']) := rfl
  obtain ⟨us, hline, rfl⟩ := scan_rest hscan hindent
  obtain ⟨us, hafter, rfl⟩ := scan_rest hline (scan_plain hname [])
  obtain ⟨us, htail, rfl⟩ := scan_rest hafter hcolon
  rcases List.mem_append.mp hps with hps | hps
  · obtain rfl : ps = pieces x.1.toList := by simpa using hps
    exact .inl (by rwa [decode_pieces hname])
  -- the text and the quote after it
  by_cases htext : Plain x.2.toList
  · have hquote : scan (.inside (pieces x.2.toList)) ['"'] =
        some (.between, [.str (pieces x.2.toList)]) := rfl
    obtain ⟨us, hlast, rfl⟩ := scan_rest htail (scan_plain htext [])
    obtain ⟨-, rfl⟩ := Prod.mk.inj (Option.some.inj (hlast.symm.trans hquote))
    obtain rfl : ps = pieces x.2.toList := by simpa using hps
    exact .inl (by rwa [decode_pieces htext])
  · refine .inr ⟨x.2, hx, htext, ?_⟩
    have hwidth := (scan_width htail).2 ps hps
    simp only [Mode.pending, width, List.map_nil, List.sum_nil, List.length_append,
      List.length_singleton] at hwidth ⊢
    omega

/-- The texts of all members. -/
def texts (tasks : List RequestedTask) : List String :=
  tasks.flatMap fun task => (members task).map Prod.snd

theorem plain_name {task : RequestedTask} {x : String × String} (hx : x ∈ members task) :
    Plain x.1.toList := by
  simp only [members, List.mem_cons, List.not_mem_nil, or_false] at hx
  rcases hx with rfl | rfl | rfl | rfl | rfl | rfl <;> simp only <;> decide

theorem emits_object {tasks : List RequestedTask} {task : RequestedTask} (h : task ∈ tasks) :
    Emits (Bounded (texts tasks)) (bareObject task) := by
  refine ((emits_of_no_quote (by decide)).append (emits_intercalate fun x hx => ?_)).append
    (emits_of_no_quote (by decide))
  exact emits_member (plain_name hx)
    (List.mem_flatMap.mpr ⟨task, h, List.mem_map_of_mem hx⟩)

theorem emits_json {tasks : List RequestedTask} (hne : tasks ≠ []) :
    Emits (Bounded (texts tasks)) ((DBGenerateJsonReport.jsonString tasks).toList ++ ['\n']) := by
  rw [jsonString_toList hne]
  refine Emits.append ((emits_of_no_quote (by decide)).append (Emits.append ?_
    ((emits_intercalate fun task h => emits_object h).append (emits_of_no_quote (by decide)))))
    (emits_of_no_quote (by decide))
  have hdata : "\n  \"data\": [".toList = '\n' :: "  \"data\": [".toList := rfl
  rw [hdata]
  refine emits_newline fun m' ts hscan ps hps => .inl ?_
  have h : scan .between "  \"data\": [".toList =
      some (.between, [.str (pieces "data".toList), .sign ':', .sign '[']) := rfl
  obtain ⟨-, rfl⟩ := Prod.mk.inj (Option.some.inj (hscan.symm.trans h))
  have hplain : Plain "data".toList := by decide
  rcases List.mem_cons.mp hps with hps | hps
  · obtain rfl : ps = pieces "data".toList := Token.str.inj hps
    rwa [decode_pieces hplain]
  · simp at hps

/-- **A text that is a string of the document is plain,** if every text
that is not plain is such a string. -/
theorem plain_of_holds {tasks : List RequestedTask} (hne : tasks ≠ []) {doc : Value}
    (hparse : Json.parse (DBGenerateJsonReport.jsonString tasks) = some doc)
    (hholds : ∀ s ∈ texts tasks, ¬ Plain s.toList → doc.Holds s) :
    ∀ s ∈ texts tasks, Plain s.toList := by
  -- a text that is not plain is shorter than another one
  have hlonger : ∀ s ∈ texts tasks, ¬ Plain s.toList →
      ∃ u ∈ texts tasks, ¬ Plain u.toList ∧ s.toList.length < u.toList.length := by
    intro s hs hbad
    obtain ⟨ts, hts, ps, hps, rfl⟩ := parse_holds hparse (hholds s hs hbad)
    obtain ⟨⟨m, ts'⟩, hscan, rfl⟩ := Option.map_eq_some_iff.mp hts
    rw [String.toList_ofList] at hbad ⊢
    rcases emits_json hne _ _ _ hscan ps hps with hplain | ⟨u, hu, hubad, hlen⟩
    · exact absurd hplain hbad
    · exact ⟨u, hu, hubad, Nat.lt_of_lt_of_le (length_decode_lt hbad) hlen⟩
  intro s hs
  by_contra hbad
  have hall : ∀ k, ∃ u ∈ texts tasks, ¬ Plain u.toList ∧ k ≤ u.toList.length := by
    intro k
    induction k with
    | zero => exact ⟨s, hs, hbad, Nat.zero_le _⟩
    | succ k ih =>
      obtain ⟨u, hu, hubad, hk⟩ := ih
      obtain ⟨w, hw, hwbad, hlt⟩ := hlonger u hu hubad
      exact ⟨w, hw, hwbad, Nat.lt_of_le_of_lt hk hlt⟩
  obtain ⟨u, hu, -, hlen⟩ := hall (((texts tasks).map fun s => s.toList.length).sum + 1)
  have hle := List.le_sum_of_mem (List.mem_map_of_mem (f := fun s : String => s.toList.length) hu)
  omega

/-! ## Texts the report makes itself -/

theorem plain_digits {n : ℕ} : Plain (Nat.toDigits 10 n) := by
  intro c hc
  have hdigit := Nat.isDigit_of_mem_toDigits (by decide) (by decide) hc
  have hrange : 48 ≤ c.toNat ∧ c.toNat ≤ 57 := by
    simpa [Char.isDigit, UInt32.le_iff_toNat_le] using hdigit
  have hq : c ≠ '"' := by
    rintro rfl
    exact absurd hrange.1 (by decide)
  have hb : c ≠ '\\' := by
    rintro rfl
    exact absurd hrange.2 (by decide)
  simp only [isPlain, decide_eq_true_eq]
  exact ⟨hq, hb, by omega⟩

/-- The digits of `%02d`. -/
theorem pad2_toList (n : ℕ) : (pad2 n).toList =
    List.replicate (if n < 10 then 1 else 0) '0' ++ Nat.toDigits 10 n := by
  have hn : (toString (n : ℤ)).toList = Nat.toDigits 10 n := Nat.toList_repr
  unfold pad2
  by_cases h : n < 10
  · rw [if_pos ⟨by omega, by omega⟩, String.toList_append, hn, if_pos h]
    rfl
  · rw [if_neg (by omega), hn, if_neg h]
    rfl

theorem plain_append {as bs : List Char} : Plain (as ++ bs) ↔ Plain as ∧ Plain bs := by
  simp [Plain, or_imp, forall_and]

theorem plain_zeros (n : ℕ) : Plain (List.replicate n '0') := by
  intro c hc
  obtain rfl := List.eq_of_mem_replicate hc
  decide

theorem plain_pad2 (n : ℕ) : Plain (pad2 n).toList := by
  rw [pad2_toList]
  exact plain_append.mpr ⟨plain_zeros _, plain_digits⟩

theorem plain_timestamp (t : Timestamp) : Plain t.toText.toList := by
  have hyear : Plain (pad4 t.year).toList := by
    rw [pad4, String.toList_append, String.toList_ofList]
    exact plain_append.mpr ⟨plain_zeros _, by
      rw [show (toString t.year).toList = Nat.toDigits 10 t.year from Nat.toList_repr]
      exact plain_digits⟩
  simp only [Timestamp.toText, String.toList_append, plain_append, hyear, plain_pad2, true_and,
    and_true]
  decide

theorem plain_nullable {t : Option String} (h : ∀ s ∈ t, Plain s.toList) :
    Plain (nullable t).toList := by
  cases t with
  | none =>
    simp only [nullable]
    decide
  | some s => exact h s rfl

theorem plain_endState (e : EndState) : Plain (nullable e.toText).toList := by
  cases e <;> simp only [EndState.toText, EndState.name, nullable] <;> decide

/-- The time as three numbers, the last of which is the whole time. -/
theorem timeString_natCast (n : ℕ) : DBGenerateJsonReport.timeString n =
    pad2 (n / 60 / 60 % 24 : ℕ) ++ ":" ++ pad2 (n / 60 % 60 : ℕ) ++ ":" ++ pad2 n := rfl

theorem plain_timeString (n : ℕ) : Plain (DBGenerateJsonReport.timeString n).toList := by
  rw [timeString_natCast]
  simp only [String.toList_append, plain_append, plain_pad2, true_and, and_true]
  decide

theorem pad2_inj {m n : ℕ} (h : pad2 m = pad2 n) : m = n := by
  have hvalue : ∀ k : ℕ, Nat.ofDigitChars 10 (pad2 k).toList 0 = k := by
    intro k
    rw [pad2_toList, Nat.ofDigitChars_append, Nat.ofDigitChars_replicate_zero, Nat.mul_zero,
      Nat.ofDigitChars_ten_toDigits]
  rw [← hvalue m, h, hvalue n]

theorem colon_not_mem_pad2 (n : ℕ) : ':' ∉ (pad2 n).toList := by
  rw [pad2_toList]
  intro h
  rcases List.mem_append.mp h with h | h
  · exact absurd (List.eq_of_mem_replicate h) (by decide)
  · exact absurd (Nat.isDigit_of_mem_toDigits (by decide) (by decide) h) (by decide)

/-- What follows the first separator. -/
theorem eq_of_append_cons {α : Type} {c : α} {as bs cs ds : List α} (ha : c ∉ as) (hc : c ∉ cs)
    (h : as ++ c :: bs = cs ++ c :: ds) : as = cs ∧ bs = ds := by
  have hlist := List.append_eq_append_iff.mp h
  rcases hlist with ⟨es, rfl, hes⟩ | ⟨es, rfl, hes⟩
  · cases es with
    | nil => simpa using hes
    | cons e es =>
      obtain ⟨rfl, -⟩ := List.cons.inj hes
      exact absurd (List.mem_append_right _ List.mem_cons_self) hc
  · cases es with
    | nil => simpa [eq_comm] using hes
    | cons e es =>
      obtain ⟨rfl, -⟩ := List.cons.inj hes
      exact absurd (List.mem_append_right _ List.mem_cons_self) ha

/-- The seconds of a time, read back. -/
theorem seconds_eq {h m s h' m' s' : ℕ}
    (heq : pad2 h ++ ":" ++ pad2 m ++ ":" ++ pad2 s =
      pad2 h' ++ ":" ++ pad2 m' ++ ":" ++ pad2 s') : s = s' := by
  have hlist := congrArg String.toList heq
  simp only [String.toList_append, List.append_assoc] at hlist
  have h1 := (eq_of_append_cons (colon_not_mem_pad2 h) (colon_not_mem_pad2 h') hlist).2
  have h2 := (eq_of_append_cons (colon_not_mem_pad2 m) (colon_not_mem_pad2 m') h1).2
  exact pad2_inj (String.toList_inj.mp h2)

theorem paramsAsString_toList (params : StringMap String) : (paramsAsString params).toList =
    params.entries.flatMap fun e => e.1.toList ++ ("=".toList ++ (e.2.toList ++ "; ".toList)) := by
  rw [paramsAsString, foldl_append_toList fun e : String × String => e.1 ++ "=" ++ e.2 ++ "; "]
  simp only [String.toList_append, List.append_assoc]
  rfl

/-- The last blank is cut off. -/
theorem plain_dropRight_params (params : StringMap String) :
    Plain (dropRight (paramsAsString params) 1).toList ↔
      ∀ e ∈ params.entries, Plain e.1.toList ∧ Plain e.2.toList := by
  have hall : Plain (paramsAsString params).toList ↔
      ∀ e ∈ params.entries, Plain e.1.toList ∧ Plain e.2.toList := by
    have hequals : Plain "=".toList := by decide
    have hblank : Plain "; ".toList := by decide
    rw [paramsAsString_toList]
    constructor
    · intro h e he
      have hentry : Plain (e.1.toList ++ ("=".toList ++ (e.2.toList ++ "; ".toList))) :=
        fun c hc => h c (List.mem_flatMap.mpr ⟨e, he, hc⟩)
      simp only [plain_append] at hentry
      exact ⟨hentry.1, hentry.2.2.1⟩
    · intro h c hc
      obtain ⟨e, he, hc⟩ := List.mem_flatMap.mp hc
      have hentry : Plain (e.1.toList ++ ("=".toList ++ (e.2.toList ++ "; ".toList))) := by
        simp only [plain_append]
        exact ⟨(h e he).1, hequals, (h e he).2, hblank⟩
      exact hentry c hc
  rw [← hall, dropRight, String.toList_ofList]
  rcases List.eq_nil_or_concat params.entries with hnil | ⟨es, e, hes⟩
  · rw [paramsAsString_toList, hnil]
    simp [List.rdrop]
  · obtain ⟨xs, hxs⟩ : ∃ xs, (paramsAsString params).toList = xs ++ [' '] := by
      refine ⟨(es.flatMap fun e => e.1.toList ++ ("=".toList ++ (e.2.toList ++ "; ".toList))) ++
        (e.1.toList ++ ("=".toList ++ (e.2.toList ++ ";".toList))), ?_⟩
      rw [paramsAsString_toList, hes]
      simp
    have hblank : Plain [' '] := by decide
    rw [hxs, show (1 : ℕ) = [' '].length from rfl, List.rdrop_append_length, plain_append]
    exact ⟨fun h => ⟨h, hblank⟩, And.left⟩

/-! ## When the report is faithful -/

theorem plain_methodText {task : RequestedTask} : Plain (methodText task).toList ↔
    Plain task.method.toList ∧ ∀ e ∈ task.params.entries, Plain e.1.toList ∧ Plain e.2.toList := by
  have hopen : Plain "(".toList := by decide
  have hclose : Plain ")".toList := by decide
  simp only [methodText, String.toList_append, plain_append, plain_dropRight_params, hopen, hclose,
    and_true]

/-- Only the method, the parameters and the result can be other than plain. -/
theorem mem_members_cases {task : RequestedTask} (ht : 0 ≤ task.timeSpent) {x : String × String}
    (hx : x ∈ members task) :
    x.2 = methodText task ∨ x.2 = nullable task.taskResult ∨ Plain x.2.toList := by
  have htimestamp : ∀ t : Option Timestamp, Plain (nullable (t.map Timestamp.toText)).toList := by
    intro t
    refine plain_nullable fun s hs => ?_
    obtain ⟨t, -, rfl⟩ := Option.map_eq_some_iff.mp hs
    exact plain_timestamp t
  obtain ⟨n, hn⟩ := Int.eq_ofNat_of_zero_le ht
  simp only [members, List.mem_cons, List.not_mem_nil, or_false] at hx
  rcases hx with rfl | rfl | rfl | rfl | rfl | rfl
  · exact .inr (.inr (plain_endState _))
  · exact .inl rfl
  · exact .inr (.inr (htimestamp _))
  · exact .inr (.inr (htimestamp _))
  · rw [hn]
    exact .inr (.inr (plain_timeString n))
  · exact .inr (.inl rfl)

theorem plainMembers_iff {task : RequestedTask} (ht : 0 ≤ task.timeSpent) :
    PlainMembers task ↔
      Plain (methodText task).toList ∧ Plain (nullable task.taskResult).toList := by
  constructor
  · intro h
    exact ⟨(h ("method", methodText task) (.tail _ (.head _))).2,
      (h ("result", nullable task.taskResult)
        (.tail _ (.tail _ (.tail _ (.tail _ (.tail _ (.head _))))))).2⟩
  · rintro ⟨hmethod, hresult⟩ x hx
    refine ⟨plain_name hx, ?_⟩
    rcases mem_members_cases ht hx with h | h | h
    · rwa [h]
    · rwa [h]
    · exact h

theorem nullable_eq_self {t : Option String} : some (nullable t) = t ↔ t ≠ none := by
  cases t <;> simp [nullable]

/-- The object of plain texts gives back the task, unless a value is null
or the seconds have to be carried. -/
theorem denotes_iff {task : RequestedTask} (ht : 0 ≤ task.timeSpent) :
    Denotes (objectValue task) task ↔ task.endState ≠ .none ∧ task.startedAt ≠ none ∧
      task.finishedAt ≠ none ∧ task.timeSpent < 60 ∧ task.taskResult ≠ none := by
  have hvalue : ∀ x ∈ members task, (objectValue task).member x.1 = some (.str x.2) := by
    intro x hx
    simp only [members, List.mem_cons, List.not_mem_nil, or_false] at hx
    rcases hx with rfl | rfl | rfl | rfl | rfl | rfl <;>
      simp [objectValue, members, Value.member, List.lookup_cons]
  have hend : (objectValue task).member "end_state" =
      some (.str (nullable task.endState.toText)) := hvalue ("end_state", _) (.head _)
  have hmethod : (objectValue task).member "method" =
      some (.str (methodText task)) := hvalue ("method", _) (.tail _ (.head _))
  have hstarted : (objectValue task).member "started_at" =
      some (.str (nullable (task.startedAt.map Timestamp.toText))) :=
    hvalue ("started_at", _) (.tail _ (.tail _ (.head _)))
  have hfinished : (objectValue task).member "finished_at" =
      some (.str (nullable (task.finishedAt.map Timestamp.toText))) :=
    hvalue ("finished_at", _) (.tail _ (.tail _ (.tail _ (.head _))))
  have hspent : (objectValue task).member "time_spent" =
      some (.str (DBGenerateJsonReport.timeString task.timeSpent)) :=
    hvalue ("time_spent", _) (.tail _ (.tail _ (.tail _ (.tail _ (.head _)))))
  have hresult : (objectValue task).member "result" =
      some (.str (nullable task.taskResult)) :=
    hvalue ("result", _) (.tail _ (.tail _ (.tail _ (.tail _ (.tail _ (.head _))))))
  have hnone : task.endState.toText ≠ none ↔ task.endState ≠ .none := by
    cases task.endState <;> simp [EndState.toText]
  obtain ⟨n, hn⟩ := Int.eq_ofNat_of_zero_le ht
  have hseconds : (∃ h m s : ℕ, (objectValue task).member "time_spent" =
      some (.str (pad2 h ++ ":" ++ pad2 m ++ ":" ++ pad2 s)) ∧
        m < 60 ∧ s < 60 ∧ ((3600 * h + 60 * m + s : ℕ) : ℤ) = task.timeSpent) ↔
      task.timeSpent < 60 := by
    rw [hspent]
    simp only [hn]
    rw [show ((n : ℕ) : ℤ) = (n : ℤ) from rfl, timeString_natCast]
    constructor
    · rintro ⟨h, m, s, heq, -, hs, -⟩
      have := seconds_eq (Value.str.inj (Option.some.inj heq))
      omega
    · intro hlt
      refine ⟨0, 0, n, ?_, by decide, by omega, by omega⟩
      rw [show n / 60 / 60 % 24 = 0 by omega, show n / 60 % 60 = 0 by omega]
  constructor
  · rintro ⟨h1, -, h3, h4, h5, h6⟩
    rw [hend] at h1
    rw [hstarted] at h3
    rw [hfinished] at h4
    rw [hresult] at h6
    refine ⟨hnone.mp (nullable_eq_self.mp (Option.some.inj h1)), ?_, ?_, hseconds.mp h5,
      nullable_eq_self.mp (Option.some.inj h6)⟩
    · simpa using nullable_eq_self.mp (Option.some.inj h3)
    · simpa using nullable_eq_self.mp (Option.some.inj h4)
  · rintro ⟨h1, h3, h4, h5, h6⟩
    refine ⟨?_, hmethod, ?_, ?_, hseconds.mpr h5, ?_⟩
    · rw [hend]
      exact congrArg some (nullable_eq_self.mpr (hnone.mpr h1))
    · rw [hstarted]
      exact congrArg some (nullable_eq_self.mpr (by simpa using h3))
    · rw [hfinished]
      exact congrArg some (nullable_eq_self.mpr (by simpa using h4))
    · rw [hresult]
      exact congrArg some (nullable_eq_self.mpr h6)

theorem forall₂_mem_right {α β : Type} {R : α → β → Prop} {as : List α} {bs : List β} {b : β}
    (h : List.Forall₂ R as bs) (hb : b ∈ bs) : ∃ a ∈ as, R a b := by
  induction h with
  | nil => cases hb
  | cons hab _ ih =>
    rcases List.mem_cons.mp hb with rfl | hb
    · exact ⟨_, List.mem_cons_self, hab⟩
    · obtain ⟨a, ha, hr⟩ := ih hb
      exact ⟨a, List.mem_cons_of_mem _ ha, hr⟩

/-- In a faithful report every text is plain. -/
theorem plain_of_faithful {tasks : List RequestedTask} (hne : tasks ≠ [])
    (ht : ∀ task ∈ tasks, 0 ≤ task.timeSpent)
    (h : Faithful (DBGenerateJsonReport.jsonString tasks) tasks) :
    ∀ task ∈ tasks, PlainMembers task := by
  obtain ⟨doc, objects, hparse, hdata, hall⟩ := h
  have hplain := plain_of_holds hne hparse fun s hs hbad => ?_
  · intro task htask x hx
    exact ⟨plain_name hx, hplain _ (List.mem_flatMap.mpr ⟨task, htask, List.mem_map_of_mem hx⟩)⟩
  obtain ⟨task, htask, hs⟩ := List.mem_flatMap.mp hs
  obtain ⟨x, hx, rfl⟩ := List.mem_map.mp hs
  obtain ⟨v, hv, hdenotes⟩ := forall₂_mem_right hall htask
  have hmember : ∀ {name : String}, v.member name = some (.str x.2) → doc.Holds x.2 :=
    fun h => member_holds hdata (.item hv (member_holds h .str))
  rcases mem_members_cases (ht task htask) hx with hmethod | hresult | hplain
  · exact hmember (hdenotes.method.trans (by rw [hmethod]))
  · cases hr : task.taskResult with
    | none =>
      rw [hresult, hr] at hbad
      exact absurd (by decide) hbad
    | some r =>
      have hread := hdenotes.result
      rw [hr] at hread
      obtain ⟨w, hw, hread⟩ := Option.bind_eq_some_iff.mp hread
      cases w with
      | str s =>
        obtain rfl : s = r := by simpa [nullableText] using hread
        refine hmember (hw.trans ?_)
        rw [hresult, hr]
        rfl
      | null | bool | num | arr | obj => simp [nullableText] at hread
  · exact absurd hplain hbad

/-- A report is faithful exactly if all its values can be inserted as they
are. -/
theorem jsonString_faithful {tasks : List RequestedTask} (hne : tasks ≠ [])
    (ht : ∀ task ∈ tasks, 0 ≤ task.timeSpent) :
    Faithful (DBGenerateJsonReport.jsonString tasks) tasks ↔ ∀ task ∈ tasks, Verbatim task := by
  constructor
  · intro h
    have hplain := plain_of_faithful hne ht h
    obtain ⟨doc, objects, hparse, hdata, hall⟩ := h
    obtain rfl := Option.some.inj (hparse.symm.trans (parse_json hne hplain))
    obtain rfl : tasks.map objectValue = objects := Value.arr.inj (Option.some.inj hdata)
    rw [List.forall₂_map_left_iff, List.forall₂_same] at hall
    intro task htask
    obtain ⟨hend, hstarted, hfinished, hspent, hresult⟩ :=
      (denotes_iff (ht task htask)).mp (hall task htask)
    obtain ⟨hmethod, hr⟩ := (plainMembers_iff (ht task htask)).mp (hplain task htask)
    obtain ⟨hm, hparams⟩ := plain_methodText.mp hmethod
    obtain ⟨s, hs⟩ := Option.ne_none_iff_exists'.mp hresult
    rw [hs] at hr
    exact ⟨hm, hparams, hend, hstarted, hfinished, hspent, s, hs, hr⟩
  · intro h
    refine ⟨_, _, parse_json hne fun task htask => ?_, rfl, ?_⟩
    · obtain ⟨hm, hparams, -, -, -, -, s, hs, hr⟩ := h task htask
      refine (plainMembers_iff (ht task htask)).mpr ⟨plain_methodText.mpr ⟨hm, hparams⟩, ?_⟩
      rw [hs]
      exact hr
    · rw [List.forall₂_map_left_iff, List.forall₂_same]
      intro task htask
      obtain ⟨-, -, hend, hstarted, hfinished, hspent, s, hs, -⟩ := h task htask
      refine (denotes_iff (ht task htask)).mpr ⟨hend, hstarted, hfinished, hspent, ?_⟩
      simp [hs]

/-- **The JSON report.** The text that is written is faithful exactly if no
value of a task is null, none has a character that JSON would have to
escape, and no time has to be carried. -/
theorem json_report_iff {tasks : List RequestedTask} (hne : tasks ≠ [])
    (ht : ∀ task ∈ tasks, 0 ≤ task.timeSpent) :
    (∀ o tableName b path, o.tempFile = some path →
      (DBGetTasksWithStatus.perform o.server .done tableName b).result = .ok (some tasks) →
      (DBGenerateJsonReport.perform o tableName b).result = .ok (.report path) ∧
        DbEffect.writeFile path (DBGenerateJsonReport.jsonString tasks) ∈
          (DBGenerateJsonReport.perform o tableName b).effects) ∧
    (Faithful (DBGenerateJsonReport.jsonString tasks) tasks ↔
      ∀ task ∈ tasks, Verbatim task) := by
  refine ⟨fun o tableName b path hpath hread => ?_, jsonString_faithful hne ht⟩
  rw [DBGenerateJsonReport.perform, bind_apply]
  rcases hrun : DBGetTasksWithStatus.perform o.server .done tableName b with ⟨b', es, r⟩
  rw [hrun] at hread
  obtain rfl : r = .ok (some tasks) := hread
  simp [Outcome.andThen, hpath]

/-- A task that ran for a minute. -/
def RequestedTask.minute : RequestedTask where
  method := "Suite.test"
  params := StringMap.empty
  taskStatus := .done
  endState := .success
  taskResult := some ""
  startedAt := some ⟨2018, 1, 1, 12, 0, 0⟩
  finishedAt := some ⟨2018, 1, 1, 12, 1, 0⟩
  timeSpent := 60

/-- A task with parameters that failed in less. -/
def RequestedTask.failed : RequestedTask where
  method := "Suite.withParams"
  params := ⟨[("name", "value"), ("other", "")], by decide⟩
  taskStatus := .done
  endState := .failure
  taskResult := some "java.lang.AssertionError: expected 1 but was 2"
  startedAt := some ⟨2018, 1, 1, 12, 0, 0⟩
  finishedAt := some ⟨2018, 1, 1, 12, 0, 42⟩
  timeSpent := 42

def shortTasks : List RequestedTask :=
  [.failed, { RequestedTask.minute with
    finishedAt := some ⟨2018, 1, 1, 12, 0, 59⟩, timeSpent := 59 }]

theorem json_report_iff_shortTasks :
    (∀ o tableName b path, o.tempFile = some path →
      (DBGetTasksWithStatus.perform o.server .done tableName b).result = .ok (some shortTasks) →
      (DBGenerateJsonReport.perform o tableName b).result = .ok (.report path) ∧
        DbEffect.writeFile path (DBGenerateJsonReport.jsonString shortTasks) ∈
          (DBGenerateJsonReport.perform o tableName b).effects) ∧
    Faithful (DBGenerateJsonReport.jsonString shortTasks) shortTasks := by
  have hne : shortTasks ≠ [] := by simp [shortTasks]
  obtain ⟨hwritten, hfaithful⟩ := json_report_iff hne (by decide)
  refine ⟨hwritten, hfaithful.mpr ?_⟩
  rw [shortTasks, List.forall_mem_cons, List.forall_mem_singleton]
  constructor
  · exact ⟨by decide +kernel, by decide +kernel, by simp [RequestedTask.failed],
      by simp [RequestedTask.failed], by simp [RequestedTask.failed], by decide,
      _, rfl, by decide +kernel⟩
  · exact ⟨by decide +kernel, by decide +kernel, by simp [RequestedTask.minute],
      by simp [RequestedTask.minute], by simp, by decide, _, rfl, by decide +kernel⟩

/-- A minute is reported as `00:01:60`. -/
theorem minute_not_faithful :
    ¬ ∀ tasks : List RequestedTask, tasks ≠ [] → (∀ task ∈ tasks, 0 ≤ task.timeSpent) →
      Faithful (DBGenerateJsonReport.jsonString tasks) tasks := by
  intro h
  have hverbatim := (jsonString_faithful (by simp) (by decide)).mp
    (h [RequestedTask.minute] (by simp) (by decide))
  exact absurd (hverbatim _ (.head _)).timeSpent (by decide)

end Clustering.Db
