/-
Clustering.Vagrant.Emitted — what the builders write, line by line.

`Line.tokens` says what a line has to be read as. Whatever the settings
are, every line is made of `Fragment`s: its own text is ordinary code,
and its tokens are those of a plain line (`Fragment.emitted`), except for
the lines that end with a setting as code (`Lead`).
-/
import Clustering.Ruby.Lines
import Clustering.Vagrant.Configuration

namespace Clustering.Vagrant

open Ruby

/-! ## What a line is to be read as -/

def Piece.tokens : Piece → List Token
  | .code text => text.toList.map .char
  | .number n => (toString n).toList.map .char
  | .quoted value => [.str value.toList]
  | .null => [.str "null".toList]
  | .bare values => [.char ',', .char ' '].intercalate (values.map fun v => [.str v.toList])

/-- The tokens of a text that is a line of its own. -/
def codeTokens (value : String) : List Token :=
  match (State.start.run (unixLines (value.toList ++ ['\n']))).bind State.finish with
  | some [ts] => ts
  | _ => []

/-- A script is given back with `ending` behind it. -/
def Tail.tokens (ending : List Char) : Tail → List Token
  | .none => []
  | .code value => codeTokens value
  | .script value => "<<-SHELL".toList.map .char ++ [.heredoc (value.toList ++ ending)]

def Line.tokens (ending : List Char) (l : Line) : List Token :=
  l.pieces.flatMap Piece.tokens ++ l.tail.tokens ending

/-- A setting that is written as code does not end its line. -/
def Tail.OneLine : Tail → Prop
  | .code value => ∃ ts,
    (State.start.run (unixLines (value.toList ++ ['\n']))).bind State.finish = some [ts]
  | _ => True

/-! ## Fragments -/

/-- A character that is code by itself. -/
def ordinary (c : Char) : Bool :=
  32 ≤ c.toNat && c != '"' && c != '\'' && c != '<' && c != ';' && c != '\x60' && c != '%' &&
    c != '?' && c != '/' && c != '\\' && c != '#'

theorem ordinary_step {c : Char} (h : ordinary c = true) :
    codeStep 0 c = some (.put (.char c) (.code 0)) ∧ c ≠ '\r' := by
  simp only [ordinary, Bool.and_eq_true, decide_eq_true_eq, bne_iff_ne, ne_eq] at h
  obtain ⟨⟨⟨⟨⟨⟨⟨⟨⟨⟨hc, h1⟩, h2⟩, h3⟩, h4⟩, h5⟩, h6⟩, h7⟩, h8⟩, h9⟩, h10⟩ := h
  have hbreak : c ≠ '\n' := by
    rintro rfl
    exact absurd hc (by decide)
  have hreturn : c ≠ '\r' := by
    rintro rfl
    exact absurd hc (by decide)
  have hforeign : foreign c = false := by
    simp [foreign, h4, h5, h6, h7, h8, h9, h10]
    omega
  simp [codeStep, hbreak, hreturn, h1, h2, h3, hforeign]

def Piece.Proper : Piece → Prop
  | .code text => text.toList.all ordinary = true
  | .bare values => 2 ≤ values.length
  | _ => True

/-- Pieces that can be put behind others in a plain line. -/
structure Fragment (ps : List Piece) : Prop where
  proper : ∀ p ∈ ps, p.Proper
  segment : Segment (ps.flatMap Piece.tokens)

theorem Fragment.nil : Fragment [] := ⟨by simp, Segment.nil⟩

theorem Fragment.append {ps qs : List Piece} (hp : Fragment ps) (hq : Fragment qs) :
    Fragment (ps ++ qs) := by
  refine ⟨?_, ?_⟩
  · intro p hmem
    obtain hmem | hmem := List.mem_append.mp hmem
    · exact hp.proper p hmem
    · exact hq.proper p hmem
  · rw [List.flatMap_append]
    exact hp.segment.append hq.segment

theorem Fragment.flatten {pss : List (List Piece)} (h : ∀ ps ∈ pss, Fragment ps) :
    Fragment pss.flatten := by
  induction pss with
  | nil => exact Fragment.nil
  | cons ps pss ih =>
    rw [List.flatten_cons]
    exact (h ps List.mem_cons_self).append (ih fun qs hq => h qs (List.mem_cons_of_mem _ hq))

theorem Fragment.ite {c : Prop} [Decidable c] {ps qs : List Piece} (hp : Fragment ps)
    (hq : Fragment qs) : Fragment (if c then ps else qs) := by
  split
  · exact hp
  · exact hq

theorem Fragment.whenFilled {x : Option String} {f : String → List Piece}
    (h : ∀ v, Fragment (f v)) : Fragment (whenFilled x f) := by
  unfold Vagrant.whenFilled
  split
  · exact Fragment.ite Fragment.nil (h _)
  · exact Fragment.nil

theorem Fragment.whenGiven {x : Option String} {f : String → List Piece}
    (h : ∀ v, Fragment (f v)) : Fragment (whenGiven x f) := by
  unfold Vagrant.whenGiven
  split
  · exact h _
  · exact Fragment.nil

/-! ## A text and its value -/

def neutralChar (c : Char) : Bool :=
  c != '(' && c != ')' && c != '[' && c != ']' && c != '{' && c != '}'

theorem brackets_neutral {ts : List Token}
    (h : ∀ t ∈ ts, ∀ c, t = .char c → neutralChar c = true) (due : List Char) :
    brackets due ts = some due := by
  induction ts with
  | nil => rfl
  | cons t ts ih =>
    have ht : bracket due t = some due := by
      cases t with
      | char c =>
        have hc := h _ List.mem_cons_self c rfl
        simp only [neutralChar, Bool.and_eq_true, bne_iff_ne, ne_eq] at hc
        obtain ⟨⟨⟨⟨⟨h1, h2⟩, h3⟩, h4⟩, h5⟩, h6⟩ := hc
        simp [bracket, h1, h2, h3, h4, h5, h6]
      | str v => rfl
      | heredoc v => rfl
    have hrest := ih fun t' ht' => h t' (List.mem_cons_of_mem _ ht')
    unfold brackets at hrest ⊢
    simp [ht, hrest]

/-- A text that names a setting: what stands behind it is a new word. -/
def leads (text : String) : Bool :=
  text.toList.all ordinary && text.toList.all neutralChar &&
    text.toList.head?.any (!nameChar ·) && text.toList.getLast?.all (!nameChar ·) &&
    (words (text.toList.map .char)).all (!reserved ·)

/-- The texts behind which the builders write a value. -/
def settingTexts : List String :=
  [", ", "    vm.vm.boot_timeout = ", "    vm.vm.box = ", "    vm.vm.box_check_update = ",
    "    vm.vm.box_download_checksum = ", "    vm.vm.box_download_checksum_type = ",
    "    vm.vm.box_download_client_cert = ", "    vm.vm.box_download_ca_cert = ",
    "    vm.vm.box_download_ca_path = ", "    vm.vm.box_download_insecure = ",
    "    vm.vm.box_download_location_trusted = ", "    vm.vm.box_url = ",
    "    vm.vm.box_version = ", "    vm.vm.communicator = ",
    "    vm.vm.graceful_halt_timeout = ", "    vm.vm.guest = ", "    vm.vm.hostname = ",
    "    vm.vm.post_up_message = ", "    vm.vm.network ", ", type: ", ", ip: ", ", netmask: ",
    ", auto_config: ", ", guest: ", ", host: ", ", id: ", ", protocol: ", ", auto_correct: ",
    ", guest_ip: ", ", host_ip: ", ", bridge:", ", use_dhcp_assigned_default_route: ",
    ", nfs_export: ", ", nfs_udp : ", ", nfs_version: ", "    vm.vm.synced_folder ",
    ", create: ", ", disabled: ", ", group: ", ", mount_options: ", ", owner: ",
    "      provider.gui = ", "      provider.memory = ", "      provider.cpus = ",
    "      provider.name = ", ", source: ", ", destination: ", ", md5: ", ", sha1: ", ", path: ",
    ", args: ", ", binary: ", ", privileged: ", ", upload_path: ", ", keep_color: ", ", name: ",
    "    vm.vm.provision ", ", run: ", ", preserve_order: "]

theorem settingTexts_lead : settingTexts.all leads = true := by decide +kernel

theorem leads_setting {text : String} (h : text ∈ settingTexts) : leads text = true :=
  List.all_eq_true.mp settingTexts_lead text h

/-- Pieces that end a line as well as any. -/
structure Value (ps : List Piece) : Prop where
  proper : ∀ p ∈ ps, p.Proper
  calm : (words (ps.flatMap Piece.tokens)).all (!reserved ·) = true
  neutral : ∀ due, brackets due (ps.flatMap Piece.tokens) = some due
  shows : (ps.flatMap Piece.tokens).filter solid ≠ []
  last : ((ps.flatMap Piece.tokens).filter solid).getLast?.all (!goesOn ·) = true

theorem Value.quoted (v : String) : Value [.quoted v] :=
  ⟨by simp [Piece.Proper], rfl, fun _ => rfl, by simp [Piece.tokens, solid], rfl⟩

theorem Value.quotedOrNull (x : Option String) : Value [quotedOrNull x] := by
  cases x with
  | none => exact ⟨by simp [Vagrant.quotedOrNull, Piece.Proper], rfl, fun _ => rfl, by decide, rfl⟩
  | some v => exact Value.quoted v

theorem Value.boolean (b : Bool) : Value [boolean b] := by
  cases b
  · exact ⟨by simp [Vagrant.boolean, Piece.Proper]; decide, rfl, fun _ => rfl, by decide, rfl⟩
  · exact ⟨by simp [Vagrant.boolean, Piece.Proper]; decide, rfl, fun _ => rfl, by decide, rfl⟩

theorem Fragment.value {text : String} {ps : List Piece} (ht : text ∈ settingTexts)
    (hp : Value ps) : Fragment (.code text :: ps) := by
  have hleads := leads_setting ht
  simp only [leads, Bool.and_eq_true] at hleads
  obtain ⟨⟨⟨⟨hord, hneutral⟩, hfront⟩, hlast⟩, hcalm⟩ := hleads
  have htokens : (Piece.code text :: ps).flatMap Piece.tokens =
      text.toList.map .char ++ ps.flatMap Piece.tokens := by
    simp [Piece.tokens]
  refine ⟨?_, ?_⟩
  · intro q hq
    obtain rfl | hq := List.mem_cons.mp hq
    · exact hord
    · exact hp.proper q hq
  · rw [htokens]
    refine ⟨?_, ?_, ?_, ?_⟩
    · cases htext : text.toList with
      | nil => simp [htext] at hfront
      | cons c cs => simpa [htext, wordToken] using hfront
    · rw [words_append_of_last (by simpa [List.getLast?_map, wordToken, Function.comp_def,
        Option.all_map] using hlast), List.all_append, hcalm, hp.calm]
      rfl
    · intro due
      have hleft : brackets due (text.toList.map Token.char) = some due := by
        apply brackets_neutral
        rintro t ht c rfl
        obtain ⟨d, hd, hdc⟩ := List.mem_map.mp ht
        obtain rfl := Token.char.inj hdc
        exact List.all_eq_true.mp hneutral _ hd
      have hright := hp.neutral due
      unfold brackets at hleft hright ⊢
      simp [List.foldlM_append, hleft, hright]
    · rw [getLast?_filter_append _ _ hp.shows]
      exact hp.last

theorem Fragment.blank : Fragment [.code " "] :=
  ⟨by simp [Piece.Proper]; decide, ⟨rfl, rfl, fun _ => rfl, rfl⟩⟩

/-- A value with a blank behind it. -/
theorem Fragment.valueBlank {text : String} {p : Piece} (ht : text ∈ settingTexts)
    (hp : Value [p]) : Fragment [.code text, p, .code " "] :=
  (Fragment.value ht hp).append Fragment.blank

/-! ## Numbers -/

theorem digit_cases {c : Char} (h : c.isDigit = true) : c ∈ "0123456789".toList := by
  have hall : ∀ n < 58, 48 ≤ n → ("0123456789".toList.contains (Char.ofNat n)) = true := by
    decide
  simp only [Char.isDigit, ge_iff_le, Bool.and_eq_true, decide_eq_true_eq] at h
  have hlow : 48 ≤ c.toNat := h.1
  have hhigh : c.toNat ≤ 57 := h.2
  have hmem := hall c.toNat (by omega) hlow
  rwa [Char.ofNat_toNat, List.contains_iff_mem] at hmem

/-- A number is digits behind a sign. -/
theorem number_digits (n : ℤ) : ∃ sign ds, (toString n).toList = sign ++ ds ∧
    (sign = [] ∨ sign = ['-']) ∧ ds ≠ [] ∧ ∀ c ∈ ds, c.isDigit = true := by
  have hnat : ∀ k : ℕ, (toString k).toList ≠ [] ∧ ∀ c ∈ (toString k).toList, c.isDigit = true := by
    intro k
    rw [show (toString k).toList = Nat.toDigits 10 k from Nat.toList_repr]
    refine ⟨?_, fun c hc => Nat.isDigit_of_mem_toDigits (by decide) (by decide) hc⟩
    intro hnil
    have hpos := Nat.length_toDigits_pos (b := 10) (n := k)
    simp [hnil] at hpos
  cases n with
  | ofNat k => exact ⟨[], _, rfl, Or.inl rfl, hnat k⟩
  | negSucc k =>
    refine ⟨['-'], (toString (k + 1)).toList, ?_, Or.inr rfl, hnat (k + 1)⟩
    show (Int.repr _).toList = _
    unfold Int.repr
    simp

/-- What is true of digits and the sign is true of every character. -/
theorem number_all {P : Char → Bool} (hds : "0123456789".toList.all P = true) (n : ℤ)
    (hsign : P '-' = true) : (toString n).toList.all P = true := by
  obtain ⟨sign, ds, htext, hs, -, hdigits⟩ := number_digits n
  rw [htext, List.all_append, Bool.and_eq_true]
  constructor
  · obtain rfl | rfl := hs
    · rfl
    · simpa using hsign
  · rw [List.all_eq_true]
    intro c hc
    exact List.all_eq_true.mp hds c (digit_cases (hdigits c hc))

theorem reserved_letters {w : List Char} (h : reserved w = true) :
    w.all (fun c => !c.isDigit && c != '-') = true := by
  have hall : (reservedWords.map String.toList).all
      (fun w => w.all fun c => !c.isDigit && c != '-') = true := by decide
  exact List.all_eq_true.mp hall w (List.contains_iff_mem.mp h)

theorem Value.number (n : ℤ) : Value [.number n] := by
  have htokens : [Piece.number n].flatMap Piece.tokens = (toString n).toList.map .char := by
    simp [Piece.tokens]
  have hall : ((toString n).toList.map Token.char).filter solid =
      (toString n).toList.map .char := by
    rw [List.filter_eq_self]
    intro t ht
    obtain ⟨c, hc, rfl⟩ := List.mem_map.mp ht
    exact List.all_eq_true.mp (number_all (P := fun c => solid (.char c)) (by decide) n
      (by decide)) c hc
  refine ⟨by simp [Piece.Proper], ?_, ?_, ?_, ?_⟩ <;> rw [htokens]
  · rw [List.all_eq_true]
    intro w hw
    obtain ⟨hne, hmem⟩ := mem_wordsFrom _ [] hw
    by_contra hreserved
    obtain ⟨c, cs, rfl⟩ := List.exists_cons_of_ne_nil hne
    have hletter := List.all_eq_true.mp
      (reserved_letters (by simpa using hreserved : reserved (c :: cs) = true)) c
      List.mem_cons_self
    obtain hc | hc := hmem c List.mem_cons_self
    · cases hc
    · obtain ⟨d, hd, hdc⟩ := List.mem_map.mp hc
      obtain rfl := Token.char.inj hdc
      have hnum := List.all_eq_true.mp
        (number_all (P := fun c => c.isDigit || c == '-') (by decide) n (by decide)) d hd
      revert hletter hnum
      cases d.isDigit <;> cases hd' : d == '-' <;> simp_all
  · apply brackets_neutral
    rintro t ht c rfl
    obtain ⟨d, hd, hdc⟩ := List.mem_map.mp ht
    obtain rfl := Token.char.inj hdc
    exact List.all_eq_true.mp (number_all (by decide) n (by decide)) _ hd
  · obtain ⟨sign, ds, htext, -, hne, -⟩ := number_digits n
    rw [hall, htext]
    simp [hne]
  · -- the last character is a digit
    obtain ⟨sign, ds, htext, -, hne, hds⟩ := number_digits n
    rw [hall, htext, List.map_append, List.getLast?_append_of_ne_nil _ (by simpa using hne),
      List.getLast?_map, List.getLast?_eq_getLast_of_ne_nil hne]
    have hdigit := digit_cases (hds _ (List.getLast_mem hne))
    have hdigits : "0123456789".toList.all (fun c => !goesOn (.char c)) = true := by decide
    exact List.all_eq_true.mp hdigits _ hdigit

theorem Value.numberOrNull (x : Option Int) : Value [numberOrNull x] := by
  cases x with
  | none =>
    exact ⟨by simp [Vagrant.numberOrNull, Piece.Proper]; decide, by decide, fun _ => rfl,
      by decide, rfl⟩
  | some n => exact Value.number n

/-! ## Lists -/

theorem words_eq_nil {ts : List Token} (h : ∀ t ∈ ts, wordToken t = false) : words ts = [] := by
  induction ts with
  | nil => rfl
  | cons t ts ih =>
    rw [words_cons_of_not (h t List.mem_cons_self)]
    exact ih fun t' ht' => h t' (List.mem_cons_of_mem _ ht')

/-- The tokens between the brackets of a list. -/
def Listed (ts : List Token) : Prop :=
  ∀ t ∈ ts, (∃ v, t = .str v) ∨ t = .char ',' ∨ t = .char ' '

theorem mem_intersperse {α : Type} {x sep : α} {xs : List α} (h : x ∈ xs.intersperse sep) :
    x ∈ xs ∨ x = sep := by
  induction xs with
  | nil => cases h
  | cons a xs ih =>
    cases xs with
    | nil => exact Or.inl h
    | cons b xs =>
      rw [List.intersperse_cons_cons] at h
      obtain rfl | h := List.mem_cons.mp h
      · exact Or.inl List.mem_cons_self
      · obtain rfl | h := List.mem_cons.mp h
        · exact Or.inr rfl
        · obtain hx | hx := ih h
          · exact Or.inl (List.mem_cons_of_mem _ hx)
          · exact Or.inr hx

theorem Value.listed {ps : List Piece} {front ts : List Token}
    (hp : ∀ p ∈ ps, p.Proper) (hfront : Listed front) (hts : Listed ts)
    (htokens : ps.flatMap Piece.tokens = front ++ .char '[' :: (ts ++ [.char ']'])) :
    Value ps := by
  have hword : ∀ t, ((∃ v, t = .str v) ∨ t = .char ',' ∨ t = .char ' ') → wordToken t = false := by
    rintro t (⟨v, rfl⟩ | rfl | rfl)
    · rfl
    · decide
    · decide
  have hneutral : ∀ {xs : List Token}, Listed xs → ∀ due, brackets due xs = some due := by
    intro xs hxs
    apply brackets_neutral
    rintro t ht c rfl
    obtain ⟨v, hv⟩ | hc | hc := hxs _ ht
    · cases hv
    · obtain rfl := Token.char.inj hc
      decide
    · obtain rfl := Token.char.inj hc
      decide
  refine ⟨hp, ?_, ?_, ?_, ?_⟩ <;> rw [htokens]
  · rw [words_eq_nil]
    · rfl
    · intro t ht
      simp only [List.mem_append, List.mem_cons, List.not_mem_nil, or_false] at ht
      obtain ht | rfl | ht | rfl := ht
      · exact hword t (hfront t ht)
      · decide
      · exact hword t (hts t ht)
      · decide
  · intro due
    have h1 := hneutral hfront due
    have h2 := hneutral hts (']' :: due)
    unfold brackets at h1 h2 ⊢
    simp [List.foldlM_append, h1, h2, bracket]
  · simp [solid, blank]
  · have hlast : (front ++ Token.char '[' :: (ts ++ [.char ']'])) =
        (front ++ .char '[' :: ts) ++ [.char ']'] := by simp
    rw [hlast, getLast?_filter_append _ _ (by decide)]
    decide

theorem Value.quotedList (values : List String) : Value (quotedList values) := by
  have hmem : ∀ p ∈ (values.map Piece.quoted).intersperse (.code ", "),
      (∃ v, p = .quoted v) ∨ p = .code ", " := by
    intro p hp
    obtain hp | rfl := mem_intersperse hp
    · obtain ⟨v, -, rfl⟩ := List.mem_map.mp hp
      exact Or.inl ⟨v, rfl⟩
    · exact Or.inr rfl
  refine @Value.listed _ []
    (((values.map Piece.quoted).intersperse (.code ", ")).flatMap Piece.tokens)
    ?_ (by simp [Listed]) ?_ (by simp [Vagrant.quotedList, Piece.tokens])
  · intro p hp
    simp only [Vagrant.quotedList, List.mem_cons, List.mem_append, List.not_mem_nil, or_false]
      at hp
    obtain rfl | hp | rfl := hp
    · simp only [Piece.Proper]
      decide
    · obtain ⟨v, rfl⟩ | rfl := hmem p hp
      · trivial
      · simp only [Piece.Proper]
        decide
    · simp only [Piece.Proper]
      decide
  · intro t ht
    obtain ⟨p, hp, ht⟩ := List.mem_flatMap.mp ht
    obtain ⟨v, rfl⟩ | rfl := hmem p hp
    · exact Or.inl ⟨_, by simpa [Piece.tokens] using ht⟩
    · right
      simpa [Piece.tokens] using ht

theorem Value.bare {values : List String} (h : 2 ≤ values.length) :
    Value [.code " [ ", .bare values, .code " ]"] := by
  refine @Value.listed _ [.char ' '] (.char ' ' :: ((Piece.bare values).tokens ++ [.char ' ']))
    ?_ (by simp [Listed]) ?_ (by simp [Piece.tokens])
  · intro p hp
    simp only [List.mem_cons, List.not_mem_nil, or_false] at hp
    obtain rfl | rfl | rfl := hp
    · simp only [Piece.Proper]
      decide
    · exact h
    · simp only [Piece.Proper]
      decide
  · intro t ht
    simp only [List.mem_cons, List.mem_append, List.not_mem_nil, or_false] at ht
    obtain rfl | ht | rfl := ht
    · exact Or.inr (Or.inr rfl)
    · obtain ⟨ts, hts, ht⟩ := List.mem_flatten.mp ht
      obtain hts | rfl := mem_intersperse hts
      · obtain ⟨v, -, rfl⟩ := List.mem_map.mp hts
        exact Or.inl ⟨_, List.mem_singleton.mp ht⟩
      · right
        simpa using ht
    · exact Or.inr (Or.inr rfl)

/-! ## Builders that may raise -/

section MapM

variable {α β : Type} {f : α → Option β} {xs : List α} {ys : List β}

theorem mapM_cons_eq_some_iff {x : α} : (x :: xs).mapM f = some ys ↔
    ∃ y zs, f x = some y ∧ xs.mapM f = some zs ∧ ys = y :: zs := by
  rw [List.mapM_cons, Option.bind_eq_bind, Option.bind_eq_some_iff]
  constructor
  · rintro ⟨y, hy, hrest⟩
    obtain ⟨zs, hzs, heq⟩ := Option.bind_eq_some_iff.mp hrest
    exact ⟨y, zs, hy, hzs, (Option.some.inj heq).symm⟩
  · rintro ⟨y, zs, hy, hzs, rfl⟩
    exact ⟨y, hy, Option.bind_eq_some_iff.mpr ⟨zs, hzs, rfl⟩⟩

theorem isSome_mapM : (xs.mapM f).isSome = true ↔ ∀ x ∈ xs, (f x).isSome = true := by
  induction xs with
  | nil => simp
  | cons x xs ih =>
    rw [List.mapM_cons, List.forall_mem_cons, ← ih]
    cases f x with
    | none => simp
    | some y => cases xs.mapM f <;> simp

/-- A condition on what is built is one on what it is built of. -/
theorem forall_mem_mapM_iff {P : α → Prop} {Q : β → Prop} (h : xs.mapM f = some ys)
    (hPQ : ∀ x y, f x = some y → (Q y ↔ P x)) : (∀ y ∈ ys, Q y) ↔ ∀ x ∈ xs, P x := by
  induction xs generalizing ys with
  | nil =>
    obtain rfl : [] = ys := Option.some.inj h
    simp
  | cons x xs ih =>
    obtain ⟨y, zs, hy, hzs, rfl⟩ := mapM_cons_eq_some_iff.mp h
    rw [List.forall_mem_cons, List.forall_mem_cons, hPQ x y hy, ih hzs]

theorem forall_mem_mapM {Q : β → Prop} (h : xs.mapM f = some ys)
    (hQ : ∀ x y, f x = some y → Q y) : ∀ y ∈ ys, Q y :=
  (forall_mem_mapM_iff h fun x y hy => iff_of_true (hQ x y hy) trivial).mpr fun _ _ => trivial

end MapM

/-! ## Lines -/

theorem forall_mem_nil {α : Type} {P : α → Prop} : ∀ x ∈ ([] : List α), P x := by
  intro x hx
  cases hx

/-- A setting that is written as code is a statement of its own. -/
def Tail.Statement : Tail → Prop
  | .code value => kind (codeTokens value) = some .plain ∧ ∃ t ∈ codeTokens value, solid t = true
  | _ => True

/-- A line in a block: it is plain if its setting is. -/
structure Line.Emitted (l : Line) : Prop where
  proper : ∀ p ∈ l.pieces, p.Proper
  plain : ∀ ending, kind (l.tokens ending) = some .plain ↔ l.tail.Statement

theorem tokens_of (ending : List Char) (ps : List Piece) :
    (Line.of ps).tokens ending = ps.flatMap Piece.tokens :=
  List.append_nil _

theorem Fragment.emitted {ps : List Piece} (h : Fragment ps) : (Line.of ps).Emitted := by
  refine ⟨h.proper, ?_⟩
  intro ending
  rw [tokens_of, h.segment.plain]
  exact iff_of_true rfl trivial

theorem emitted_code {text value : String} (htext : text.toList.all ordinary = true)
    (h : Lead (text.toList.map .char)) : (⟨[.code text], .code value⟩ : Line).Emitted := by
  refine ⟨?_, ?_⟩
  · intro p hp
    obtain rfl := List.mem_singleton.mp hp
    exact htext
  · intro ending
    have htokens : Line.tokens ending ⟨[.code text], .code value⟩ =
        text.toList.map .char ++ codeTokens value := by
      show [Piece.code text].flatMap Piece.tokens ++ codeTokens value = _
      simp [Piece.tokens]
    rw [htokens]
    exact h.kind_iff

theorem emitted_script {ps : List Piece} {value : String} (h : Fragment ps) :
    (⟨ps ++ [.code ", inline: "], .script value⟩ : Line).Emitted := by
  refine ⟨?_, ?_⟩
  · intro p hp
    obtain hp | hp := List.mem_append.mp hp
    · exact h.proper p hp
    · obtain rfl := List.mem_singleton.mp hp
      simp only [Piece.Proper]
      decide
  · intro ending
    have hscript : Segment (", inline: <<-SHELL".toList.map Token.char ++
        [.heredoc (value.toList ++ ending)]) := ⟨rfl, rfl, fun _ => rfl, rfl⟩
    have htokens : Line.tokens ending ⟨ps ++ [.code ", inline: "], .script value⟩ =
        ps.flatMap Piece.tokens ++ (", inline: <<-SHELL".toList.map Token.char ++
          [.heredoc (value.toList ++ ending)]) := by
      show (ps ++ [Piece.code ", inline: "]).flatMap Piece.tokens ++
        ("<<-SHELL".toList.map Token.char ++ [.heredoc (value.toList ++ ending)]) = _
      rw [List.flatMap_append, List.append_assoc]
      rfl
    rw [htokens, (h.segment.append hscript).plain]
    exact iff_of_true rfl trivial

/-! ## The builders -/

theorem emitted_privateNetwork {c : VagrantPrivateNetworkConfig} {l : Line}
    (h : createVmNetworkPrivateNetworkConfig c = some l) : l.Emitted := by
  simp only [createVmNetworkPrivateNetworkConfig, Option.bind_eq_bind, Option.bind_eq_some_iff,
    Option.some.injEq] at h
  obtain ⟨dhcp, -, autoConfig, -, rfl⟩ := h
  refine Fragment.emitted (Fragment.flatten ?_)
  simp only [List.forall_mem_cons]
  refine ⟨Fragment.value (by simp [settingTexts]) (Value.quoted _), Fragment.ite ?_ Fragment.nil,
    Fragment.whenFilled fun v => ?_, Fragment.whenFilled fun v => ?_,
    Fragment.ite Fragment.nil ?_, forall_mem_nil⟩
  · exact Fragment.valueBlank (by simp [settingTexts]) (Value.quoted _)
  · exact Fragment.valueBlank (by simp [settingTexts]) (Value.quoted _)
  · exact Fragment.valueBlank (by simp [settingTexts]) (Value.quoted _)
  · exact Fragment.valueBlank (by simp [settingTexts]) (Value.boolean _)

theorem emitted_portForwarding {c : VagrantPortForwardingConfig} {l : Line}
    (h : createVmNetworkPortForwardingConfig c = some l) : l.Emitted := by
  simp only [createVmNetworkPortForwardingConfig, Option.bind_eq_bind, Option.bind_eq_some_iff,
    Option.some.injEq] at h
  obtain ⟨protocol, -, autoCorrect, -, rfl⟩ := h
  refine Fragment.emitted (Fragment.flatten ?_)
  simp only [List.forall_mem_cons]
  refine ⟨?_, Fragment.whenFilled fun v => ?_, Fragment.ite ?_ Fragment.nil,
    Fragment.ite ?_ Fragment.nil, Fragment.whenFilled fun v => ?_,
    Fragment.whenFilled fun v => ?_, forall_mem_nil⟩
  · exact (Fragment.value (by simp [settingTexts]) (Value.quoted _)).append
      ((Fragment.value (by simp [settingTexts]) (Value.numberOrNull _)).append
        (Fragment.value (by simp [settingTexts]) (Value.numberOrNull _)))
  · exact Fragment.value (by simp [settingTexts]) (Value.quoted _)
  · exact Fragment.value (by simp [settingTexts]) (Value.quoted _)
  · exact Fragment.value (by simp [settingTexts]) (Value.boolean _)
  · exact Fragment.value (by simp [settingTexts]) (Value.quoted _)
  · exact Fragment.value (by simp [settingTexts]) (Value.quoted _)

theorem fragment_bridges (bridges : List String) : Fragment (bridgePieces bridges) := by
  match bridges with
  | [] => exact Fragment.nil
  | [bridge] =>
    refine Fragment.value (by simp [settingTexts]) ?_
    exact ⟨by simp [Piece.Proper]; decide, rfl, fun _ => rfl, by simp [Piece.tokens, solid], rfl⟩
  | b₁ :: b₂ :: bs => exact Fragment.value (by simp [settingTexts]) (Value.bare (by simp))

theorem emitted_publicNetwork {c : VagrantPublicNetworkConfig} {l : Line}
    (h : createVmNetworkPublicNetworkConfig c = some l) : l.Emitted := by
  simp only [createVmNetworkPublicNetworkConfig, Option.bind_eq_bind, Option.bind_eq_some_iff,
    Option.some.injEq] at h
  obtain ⟨useDhcp, -, autoConfig, -, rfl⟩ := h
  refine Fragment.emitted (Fragment.flatten ?_)
  simp only [List.forall_mem_cons]
  refine ⟨Fragment.value (by simp [settingTexts]) (Value.quoted _), Fragment.ite ?_ Fragment.nil,
    Fragment.whenFilled fun v => ?_, fragment_bridges _, Fragment.ite Fragment.nil ?_,
    forall_mem_nil⟩
  · exact Fragment.value (by simp [settingTexts]) (Value.boolean _)
  · exact Fragment.value (by simp [settingTexts]) (Value.quoted _)
  · exact Fragment.value (by simp [settingTexts]) (Value.boolean _)

theorem fragment_nfs {c : SyncedFolderClass} {ps : List Piece} (h : nfsPieces c = some ps) :
    Fragment ps := by
  cases c with
  | nfs nfsExport nfsUdp nfsVersion =>
    simp only [nfsPieces, createVmSyncedFolderNfsConfig, Option.bind_eq_bind,
      Option.bind_eq_some_iff, Option.some.injEq] at h
    obtain ⟨export', -, udp, -, version, -, rfl⟩ := h
    apply Fragment.flatten
    simp only [List.forall_mem_cons]
    refine ⟨Fragment.ite Fragment.nil ?_, Fragment.ite Fragment.nil ?_,
      Fragment.ite Fragment.nil ?_, Fragment.ite ?_ Fragment.nil, forall_mem_nil⟩
    · exact Fragment.value (by simp [settingTexts]) (Value.boolean _)
    · exact Fragment.value (by simp [settingTexts]) (Value.boolean _)
    · exact Fragment.value (by simp [settingTexts]) (Value.boolean _)
    · exact Fragment.value (by simp [settingTexts]) (Value.number _)
  | rsync =>
    obtain rfl := Option.some.inj h
    exact Fragment.nil
  | virtualBox =>
    obtain rfl := Option.some.inj h
    exact Fragment.nil

theorem emitted_syncFolder {c : VagrantSyncedFolderConfig} {l : Line}
    (h : createVmSyncFolderConfig c = some l) : l.Emitted := by
  simp only [createVmSyncFolderConfig, Option.bind_eq_bind, Option.bind_eq_some_iff,
    Option.some.injEq] at h
  obtain ⟨create, -, disabled, -, nfs, hnfs, rfl⟩ := h
  refine Fragment.emitted (Fragment.flatten ?_)
  simp only [List.forall_mem_cons]
  refine ⟨?_, Fragment.ite ?_ Fragment.nil, Fragment.ite ?_ Fragment.nil,
    Fragment.whenFilled fun v => ?_, Fragment.ite Fragment.nil ?_,
    Fragment.whenFilled fun v => ?_, Fragment.whenFilled fun v => ?_, fragment_nfs hnfs,
    forall_mem_nil⟩
  · exact (Fragment.value (by simp [settingTexts]) (Value.quotedOrNull _)).append
      ((Fragment.value (by simp [settingTexts]) (Value.quotedOrNull _)).append
        (Fragment.valueBlank (by simp [settingTexts]) (Value.quoted _)))
  · exact Fragment.value (by simp [settingTexts]) (Value.boolean _)
  · exact Fragment.value (by simp [settingTexts]) (Value.boolean _)
  · exact Fragment.valueBlank (by simp [settingTexts]) (Value.quoted _)
  · exact (Fragment.value (by simp [settingTexts]) (Value.quotedList _)).append Fragment.blank
  · exact Fragment.valueBlank (by simp [settingTexts]) (Value.quoted _)
  · exact Fragment.valueBlank (by simp [settingTexts]) (Value.quoted _)

theorem fragment_checksum (md5 sha1 : Option String) : Fragment (checksumPieces md5 sha1) := by
  unfold checksumPieces
  split
  · exact Fragment.whenFilled fun v => Fragment.value (by simp [settingTexts]) (Value.quoted _)
  · exact Fragment.whenFilled fun v => Fragment.value (by simp [settingTexts]) (Value.quoted _)

theorem fragment_path (path : Option String) :
    Fragment (whenGiven path fun v => [.code ", path: ", .quoted v, .code " "]) :=
  Fragment.whenGiven fun _ => Fragment.valueBlank (by simp [settingTexts]) (Value.quoted _)

/-! ## Blocks -/

/-- What the tree of lines comes to, whatever the settings are. -/
structure Sound (n : Node Line) : Prop where
  proper : ∀ l ∈ n.lines, ∀ p ∈ l.pieces, p.Proper
  shaped : ∀ ending, n.Shaped (kind ∘ Line.tokens ending) ↔ ∀ l ∈ n.lines, l.tail.Statement

theorem Line.Emitted.sound {l : Line} (h : l.Emitted) : Sound (.line l) := by
  refine ⟨?_, ?_⟩
  · intro l' hl'
    obtain rfl := List.mem_singleton.mp hl'
    exact h.proper
  · intro ending
    rw [Node.Shaped]
    constructor
    · intro hkind l' hl'
      obtain rfl := List.mem_singleton.mp hl'
      exact (h.plain ending).mp hkind
    · intro hall
      exact (h.plain ending).mpr (hall l List.mem_cons_self)

theorem mem_allLines {α : Type} {a : α} (ns : List (Node α)) :
    a ∈ Node.allLines ns ↔ ∃ n ∈ ns, a ∈ n.lines := by
  induction ns with
  | nil => simp [Node.allLines]
  | cons n ns ih => simp [Node.allLines, ih]

theorem allShaped_iff {α : Type} {kind : α → Option Kind} (ns : List (Node α)) :
    Node.AllShaped kind ns ↔ ∀ n ∈ ns, n.Shaped kind := by
  induction ns with
  | nil => simp [Node.AllShaped]
  | cons n ns ih => simp [Node.AllShaped, ih]

theorem Sound.block {head foot : List Piece} {body : List (Node Line)}
    (hhead : ∀ p ∈ head, p.Proper) (hfoot : ∀ p ∈ foot, p.Proper)
    (hopens : kind (head.flatMap Piece.tokens) = some .opens)
    (hcloses : kind (foot.flatMap Piece.tokens) = some .closes)
    (hbody : ∀ n ∈ body, Sound n) : Sound (.block (Line.of head) body (Line.of foot)) := by
  have hlines : ∀ l, l ∈ (Node.block (Line.of head) body (Line.of foot)).lines ↔
      l = Line.of head ∨ (∃ n ∈ body, l ∈ n.lines) ∨ l = Line.of foot := by
    intro l
    simp [Node.lines, mem_allLines]
  refine ⟨?_, ?_⟩
  · intro l hl
    obtain rfl | ⟨n, hn, hl⟩ | rfl := (hlines l).mp hl
    · exact hhead
    · exact (hbody n hn).proper l hl
    · exact hfoot
  · intro ending
    have hopens' : (kind ∘ Line.tokens ending) (Line.of head) = some .opens := by
      rw [Function.comp_apply, tokens_of, hopens]
    have hcloses' : (kind ∘ Line.tokens ending) (Line.of foot) = some .closes := by
      rw [Function.comp_apply, tokens_of, hcloses]
    rw [Node.Shaped, allShaped_iff]
    constructor
    · rintro ⟨-, hall, -⟩ l hl
      obtain rfl | ⟨n, hn, hl⟩ | rfl := (hlines l).mp hl
      · trivial
      · exact ((hbody n hn).shaped ending).mp (hall n hn) l hl
      · trivial
    · intro hall
      refine ⟨hopens', ?_, hcloses'⟩
      intro n hn
      rw [(hbody n hn).shaped ending]
      exact fun l hl => hall l ((hlines l).mpr (Or.inr (Or.inl ⟨n, hn, hl⟩)))

/-- Lines that open a block and hold one value. -/
theorem kind_opens {ts : List Token} (hlen : (words ts).length ≠ 1)
    (hbrackets : brackets [] ts = some [])
    (hwords : (words ts).filter reserved = ["do".toList]) : kind ts = some .opens := by
  unfold kind
  rw [if_neg, if_neg, hwords]
  · rfl
  · simp [hbrackets]
  · rintro ⟨hone, -⟩
    rw [hone] at hlen
    exact hlen rfl

theorem opens_define (name : Option String) : kind ([Piece.code "  config.vm.define ",
    quotedOrNull name, .code " do |vm|"].flatMap Piece.tokens) = some .opens := by
  have hwords : words ([Piece.code "  config.vm.define ", quotedOrNull name,
      .code " do |vm|"].flatMap Piece.tokens) =
      ["config", "vm", "define", "do", "vm"].map String.toList := by
    cases name <;> rfl
  refine kind_opens ?_ (by cases name <;> rfl) ?_ <;> rw [hwords] <;> decide

theorem opens_provider (name : String) : kind ([Piece.code "    vm.vm.provider ", .quoted name,
    .code " do |provider|"].flatMap Piece.tokens) = some .opens := by
  have hwords : words ([Piece.code "    vm.vm.provider ", .quoted name,
      .code " do |provider|"].flatMap Piece.tokens) =
      ["vm", "vm", "provider", "do", "provider"].map String.toList := rfl
  refine kind_opens ?_ rfl ?_ <;> rw [hwords] <;> decide

/-! ## The whole file -/

theorem fragment_provisioner_head {c : VagrantProvisionerConfig} {ps : List Piece}
    (h : provisionerHead c = some ps) : Fragment ps := by
  simp only [provisionerHead, Option.bind_eq_bind, Option.bind_eq_some_iff,
    Option.some.injEq] at h
  obtain ⟨run, -, preserveOrder, -, rfl⟩ := h
  apply Fragment.flatten
  simp only [List.forall_mem_cons]
  refine ⟨Fragment.value (by simp [settingTexts]) (Value.quoted _), Fragment.ite ?_ Fragment.nil,
    Fragment.ite ?_ Fragment.nil, forall_mem_nil⟩
  · exact Fragment.value (by simp [settingTexts]) (Value.quoted _)
  · exact Fragment.value (by simp [settingTexts]) (Value.boolean _)

theorem fragment_shell {c : VagrantProvisionerShellConfig} {ps : List Piece}
    (h : shellPieces c = some ps) : Fragment ps := by
  simp only [shellPieces, Option.bind_eq_bind, Option.bind_eq_some_iff, Option.some.injEq] at h
  obtain ⟨binary, -, privileged, -, keepColor, -, rfl⟩ := h
  apply Fragment.flatten
  simp only [List.forall_mem_cons]
  refine ⟨Fragment.ite Fragment.nil ?_, Fragment.ite ?_ Fragment.nil, Fragment.ite Fragment.nil ?_,
    Fragment.whenGiven fun v => ?_, Fragment.ite ?_ Fragment.nil,
    Fragment.whenFilled fun v => ?_, fragment_checksum _ _, forall_mem_nil⟩
  · exact Fragment.value (by simp [settingTexts]) (Value.quotedList _)
  · exact Fragment.valueBlank (by simp [settingTexts]) (Value.boolean _)
  · exact Fragment.valueBlank (by simp [settingTexts]) (Value.boolean _)
  · exact Fragment.valueBlank (by simp [settingTexts]) (Value.quoted _)
  · exact Fragment.valueBlank (by simp [settingTexts]) (Value.boolean _)
  · exact Fragment.value (by simp [settingTexts]) (Value.quoted _)

theorem emitted_provisioner {c : VagrantProvisionerConfig} {l : Line}
    (h : createVmProvisionerConfig c = some l) : l.Emitted := by
  unfold createVmProvisionerConfig at h
  obtain ⟨head, hhead, h⟩ := Option.bind_eq_some_iff.mp h
  replace hhead := fragment_provisioner_head hhead
  cases hclass : c.provisionerClass with
  | file x =>
    simp only [hclass, Option.some.injEq] at h
    obtain rfl := h
    refine (hhead.append ?_).emitted
    exact (Fragment.whenGiven fun v =>
        Fragment.value (by simp [settingTexts]) (Value.quoted _)).append
      (Fragment.whenGiven fun v => Fragment.value (by simp [settingTexts]) (Value.quoted _))
  | shell x =>
    simp only [hclass, createVmProvisionerShellConfig, Option.bind_eq_bind,
      Option.bind_eq_some_iff, Option.some.injEq] at h
    obtain ⟨shell, ⟨ps, hps, rfl⟩, rfl⟩ := h
    have hshell := hhead.append (fragment_shell hps)
    dsimp only
    rw [← List.append_assoc]
    unfold scriptPieces
    split
    · split
      · exact (hshell.append (fragment_path x.path)).emitted
      · exact emitted_script hshell
    · exact (hshell.append (fragment_path x.path)).emitted

theorem emitted_network {c : VagrantNetworkConfig} {l : Line}
    (h : createVmNetworkConfig c = some l) : l.Emitted := by
  cases c with
  | privateNetwork x => exact emitted_privateNetwork h
  | portForwarding x => exact emitted_portForwarding h
  | publicNetwork x => exact emitted_publicNetwork h

def AllSound (ns : List (Node Line)) : Prop := ∀ n ∈ ns, Sound n

theorem AllSound.nil : AllSound [] := forall_mem_nil

theorem AllSound.line {l : Line} (h : l.Emitted) : AllSound [.line l] := by
  intro n hn
  obtain rfl := List.mem_singleton.mp hn
  exact h.sound

theorem AllSound.flatten {nss : List (List (Node Line))} (h : ∀ ns ∈ nss, AllSound ns) :
    AllSound nss.flatten := by
  intro n hn
  obtain ⟨ns, hns, hn⟩ := List.mem_flatten.mp hn
  exact h ns hns n hn

theorem AllSound.ite {c : Prop} [Decidable c] {ms ns : List (Node Line)} (hm : AllSound ms)
    (hn : AllSound ns) : AllSound (if c then ms else ns) := by
  split
  · exact hm
  · exact hn

theorem AllSound.built {ls : List Line} (h : ∀ l ∈ ls, l.Emitted) : AllSound (ls.map .line) := by
  intro n hn
  obtain ⟨l, hl, rfl⟩ := List.mem_map.mp hn
  exact (h l hl).sound

theorem AllSound.lines {α : Type} {xs : List α} {f : α → Line} (h : ∀ x, (f x).Emitted) :
    AllSound (xs.map fun x => .line (f x)) := by
  intro n hn
  obtain ⟨x, -, rfl⟩ := List.mem_map.mp hn
  exact (h x).sound

theorem AllSound.lineOf {α : Type} {x : Option α} {f : α → Line} (h : ∀ v, (f v).Emitted) :
    AllSound (lineOf x f) :=
  AllSound.lines h

theorem AllSound.filledLine {x : Option String} {f : String → Line} (h : ∀ v, (f v).Emitted) :
    AllSound (filledLine x f) := by
  unfold Vagrant.filledLine
  split
  · exact AllSound.ite AllSound.nil (AllSound.line (h _))
  · exact AllSound.nil

/-- A line that sets one value. -/
theorem emitted_value {text : String} {p : Piece} (ht : text ∈ settingTexts) (hp : Value [p]) :
    (Line.of [.code text, p]).Emitted :=
  (Fragment.value ht hp).emitted

theorem emitted_usablePortRange (v : String) : (createVmUsablePortRangeConfig v).Emitted :=
  emitted_code (by decide +kernel) ⟨by decide, by decide, fun _ => rfl, by decide⟩

theorem emitted_customize (v : String) :
    (⟨[.code "      provider.customize = "], .code v⟩ : Line).Emitted :=
  emitted_code (by decide +kernel) ⟨by decide, by decide, fun _ => rfl, by decide⟩

theorem proper_define (x : Option String) : ∀ p ∈ [Piece.code "  config.vm.define ",
    quotedOrNull x, .code " do |vm|"], p.Proper := by
  have hname : (quotedOrNull x).Proper := by cases x <;> trivial
  simp only [List.forall_mem_cons]
  refine ⟨?_, hname, ?_, forall_mem_nil⟩ <;> simp only [Piece.Proper] <;> decide

theorem proper_provider (v : String) : ∀ p ∈ [Piece.code "    vm.vm.provider ", .quoted v,
    .code " do |provider|"], p.Proper := by
  simp only [List.forall_mem_cons, Piece.Proper]
  exact ⟨by decide, trivial, by decide, forall_mem_nil⟩

theorem proper_code {text : String} (h : text.toList.all ordinary = true) :
    ∀ p ∈ [Piece.code text], p.Proper := by
  intro p hp
  obtain rfl := List.mem_singleton.mp hp
  exact h

theorem sound_provider {c : VagrantProviderConfig} {ns : List (Node Line)}
    (h : createVmProviderConfig c = some ns) : AllSound ns := by
  unfold createVmProviderConfig at h
  split at h
  · obtain rfl := Option.some.inj h
    exact AllSound.nil
  · split at h
    · obtain rfl := Option.some.inj h
      exact AllSound.nil
    simp only [Option.bind_eq_bind, Option.bind_eq_some_iff, Option.some.injEq] at h
    obtain ⟨guiMode, -, memory, -, cpus, -, rfl⟩ := h
    intro n hn
    obtain rfl := List.mem_singleton.mp hn
    refine Sound.block (proper_provider _) (proper_code (by decide +kernel)) (opens_provider _)
      (by decide +kernel) (AllSound.flatten ?_)
    simp only [List.forall_mem_cons]
    refine ⟨AllSound.ite (AllSound.line ?_) AllSound.nil,
      AllSound.ite (AllSound.line ?_) AllSound.nil,
      AllSound.ite (AllSound.line ?_) AllSound.nil,
      AllSound.filledLine fun v => ?_, AllSound.lines emitted_customize, forall_mem_nil⟩
    · exact emitted_value (by simp [settingTexts]) (Value.boolean _)
    · exact emitted_value (by simp [settingTexts]) (Value.quoted _)
    · exact emitted_value (by simp [settingTexts]) (Value.number _)
    · exact emitted_value (by simp [settingTexts]) (Value.quoted _)

theorem sound_vm {c : VagrantVmConfig} {n : Node Line}
    (h : createVmInMultiEnvConfig c = some n) : Sound n := by
  obtain ⟨bootTimeout, -, h⟩ := Option.bind_eq_some_iff.mp h
  obtain ⟨boxCheckUpdate, -, h⟩ := Option.bind_eq_some_iff.mp h
  obtain ⟨insecure, -, h⟩ := Option.bind_eq_some_iff.mp h
  obtain ⟨trusted, -, h⟩ := Option.bind_eq_some_iff.mp h
  obtain ⟨haltTimeout, -, h⟩ := Option.bind_eq_some_iff.mp h
  obtain ⟨networks, hnetworks, h⟩ := Option.bind_eq_some_iff.mp h
  obtain ⟨provider, hp, h⟩ := Option.bind_eq_some_iff.mp h
  obtain ⟨config, -, hprovider⟩ := Option.bind_eq_some_iff.mp hp
  obtain ⟨provisioners, hprovisioners, h⟩ := Option.bind_eq_some_iff.mp h
  obtain ⟨syncFolders, hsyncFolders, h⟩ := Option.bind_eq_some_iff.mp h
  obtain ⟨portRange, -, h⟩ := Option.bind_eq_some_iff.mp h
  obtain rfl := Option.some.inj h
  refine Sound.block (proper_define _) (proper_code (by decide +kernel)) (opens_define _)
    (by decide +kernel) (AllSound.flatten ?_)
  simp only [List.forall_mem_cons]
  refine ⟨AllSound.line ?_, AllSound.lineOf fun v => ?_,
    AllSound.ite AllSound.nil (AllSound.line ?_), AllSound.lineOf fun v => ?_,
    AllSound.lineOf fun v => ?_, AllSound.lineOf fun v => ?_,
    AllSound.lineOf fun v => ?_, AllSound.lineOf fun v => ?_,
    AllSound.ite (AllSound.line ?_) AllSound.nil, AllSound.ite (AllSound.line ?_) AllSound.nil,
    AllSound.lineOf fun v => ?_, AllSound.lineOf fun v => ?_, AllSound.lineOf fun v => ?_,
    AllSound.ite (AllSound.line ?_) AllSound.nil, AllSound.lineOf fun v => ?_,
    AllSound.lineOf fun v => ?_,
    AllSound.built (forall_mem_mapM hnetworks fun _ _ => emitted_network),
    AllSound.lineOf fun v => ?_, sound_provider hprovider,
    AllSound.built (forall_mem_mapM hprovisioners fun _ _ => emitted_provisioner),
    AllSound.built (forall_mem_mapM hsyncFolders fun _ _ => emitted_syncFolder),
    AllSound.ite AllSound.nil (AllSound.line (emitted_usablePortRange _)), forall_mem_nil⟩
  · exact emitted_value (by simp [settingTexts]) (Value.number _)
  · exact emitted_value (by simp [settingTexts]) (Value.quoted _)
  · exact emitted_value (by simp [settingTexts]) (Value.boolean _)
  · exact emitted_value (by simp [settingTexts]) (Value.quoted _)
  · exact emitted_value (by simp [settingTexts]) (Value.quoted _)
  · exact emitted_value (by simp [settingTexts]) (Value.quoted _)
  · exact emitted_value (by simp [settingTexts]) (Value.quoted _)
  · exact emitted_value (by simp [settingTexts]) (Value.quoted _)
  · exact emitted_value (by simp [settingTexts]) (Value.boolean _)
  · exact emitted_value (by simp [settingTexts]) (Value.boolean _)
  · exact emitted_value (by simp [settingTexts]) (Value.quoted _)
  · exact emitted_value (by simp [settingTexts]) (Value.quoted _)
  · exact emitted_value (by simp [settingTexts]) (Value.quoted _)
  · exact emitted_value (by simp [settingTexts]) (Value.number _)
  · exact emitted_value (by simp [settingTexts]) (Value.quoted _)
  · exact emitted_value (by simp [settingTexts]) (Value.quoted _)
  · exact emitted_value (by simp [settingTexts]) (Value.quoted _)

/-- **Every block is opened and closed by the lines the builders write for
it**, and nothing else can open or close one but a setting that is
written as code. -/
theorem sound_vagrantFile {config : VagrantEnvironmentConfig} {file : Node Line}
    (h : vagrantFile config = some file) : Sound file := by
  simp only [vagrantFile, Option.bind_eq_bind, Option.bind_eq_some_iff, Option.some.injEq] at h
  obtain ⟨vms, hvms, rfl⟩ := h
  refine Sound.block ?_ (proper_code (by decide +kernel)) (by decide +kernel) (by decide +kernel) ?_
  · simp only [List.forall_mem_cons, Piece.Proper]
    exact ⟨by decide, trivial, by decide, forall_mem_nil⟩
  · exact forall_mem_mapM hvms fun _ _ => sound_vm

end Clustering.Vagrant
