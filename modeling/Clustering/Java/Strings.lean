/-
Java.Strings — some methods of `String` and of Scala's collections.

`split` is `String.split` with a regular expression that matches single
characters: the pieces between matches, without the empty ones at the
end, and the whole string if nothing matches. `pairs` is `grouped(2)`
followed by a match on groups of two. `StringMap` is an immutable
`Map[String, V]`, its entries in the order the map iterates in.
-/
import Mathlib.Data.List.DropRight
import Mathlib.Data.List.Nodup

namespace Java

/-! ## Numbers as text -/

theorem toString_toList (n : ℕ) : (toString n).toList = Nat.toDigits 10 n := Nat.toList_repr

theorem not_digit_mem {n : ℕ} {c : Char} (hc : c.isDigit = false) : c ∉ (toString n).toList := by
  intro hmem
  rw [toString_toList] at hmem
  have hdigit := Nat.isDigit_of_mem_toDigits (by decide) (by decide) hmem
  rw [hc] at hdigit
  cases hdigit

theorem toString_inj {m n : ℕ} (h : toString m = toString n) : m = n := by
  have hm : Nat.ofDigitChars 10 (toString m).toList 0 = m := by
    rw [toString_toList]
    exact Nat.ofDigitChars_ten_toDigits
  rw [← hm, h, toString_toList]
  exact Nat.ofDigitChars_ten_toDigits

/-! ## Strings -/

/-- `s dropRight n`. -/
def dropRight (s : String) (n : ℕ) : String := String.ofList (s.toList.rdrop n)

@[simp] theorem dropRight_append {s t : String} : dropRight (s ++ t) t.length = s := by
  have h : t.length = t.toList.length := String.length_toList.symm
  rw [dropRight, String.toList_append, h, List.rdrop_append_length, String.ofList_toList]

/-- `s.split(regex)`, where the regular expression matches the single
characters `p`. -/
def split (p : Char → Bool) (s : String) : List String :=
  match s.toList.splitOnP p with
  | [_] => [s]
  | pieces => (pieces.rdropWhile fun w => w.isEmpty).map String.ofList

/-- `s.replace(c.toString, "")`. -/
def delete (c : Char) (s : String) : String := String.ofList (s.toList.filter fun d => d ≠ c)

section

variable {α : Type}

theorem mem_splitOnP {p : α → Bool} {xs w : List α} (hw : w ∈ xs.splitOnP p) :
    ∀ c ∈ w, c ∈ xs ∧ p c = false := by
  induction xs generalizing w with
  | nil =>
    rw [List.splitOnP_nil, List.mem_singleton] at hw
    simp [hw]
  | cons x xs ih =>
    rw [List.splitOnP_cons_eq_if_modifyHead] at hw
    split at hw
    · rcases List.mem_cons.mp hw with rfl | hw
      · simp
      · intro c hc
        exact ⟨List.mem_cons_of_mem _ (ih hw c hc).1, (ih hw c hc).2⟩
    · rename_i hx
      obtain ⟨v, vs, hv⟩ := List.exists_cons_of_ne_nil (List.splitOnP_ne_nil p xs)
      rw [hv, List.modifyHead_cons] at hw
      intro c hc
      rcases List.mem_cons.mp hw with rfl | hw
      · rcases List.mem_cons.mp hc with rfl | hc
        · exact ⟨List.mem_cons_self, by simpa using hx⟩
        · have := ih (hv ▸ List.mem_cons_self) c hc
          exact ⟨List.mem_cons_of_mem _ this.1, this.2⟩
      · have := ih (hv ▸ List.mem_cons_of_mem _ hw) c hc
        exact ⟨List.mem_cons_of_mem _ this.1, this.2⟩

theorem rdropWhile_append_cons {p : α → Bool} {x : α} (hx : p x = false) (l r : List α) :
    (l ++ x :: r).rdropWhile p = l ++ x :: r.rdropWhile p := by
  induction r using List.reverseRecOn with
  | nil => rw [List.rdropWhile_concat_neg _ _ _ (by simp [hx]), List.rdropWhile_nil]
  | append_singleton r y ih =>
    have hassoc : l ++ x :: (r ++ [y]) = (l ++ x :: r) ++ [y] := by simp
    rw [hassoc, List.rdropWhile_concat, List.rdropWhile_concat]
    split
    · exact ih
    · simp

/-- `grouped(2)` and `case Array(k, v)`: a group of one matches nothing. -/
def pairs : List α → Option (List (α × α))
  | [] => some []
  | [_] => none
  | k :: v :: rest => (pairs rest).map ((k, v) :: ·)

theorem pairs_eq_some : ∀ {l : List α} {ps : List (α × α)}, pairs l = some ps ↔
    l = ps.flatMap fun e => [e.1, e.2]
  | [], [] => by simp [pairs]
  | [], e :: ps => by simp [pairs]
  | [_], [] => by simp [pairs]
  | [_], e :: ps => by simp [pairs]
  | k :: v :: rest, [] => by simp [pairs]
  | k :: v :: rest, e :: ps => by
      have ih := @pairs_eq_some rest ps
      obtain ⟨k', v'⟩ := e
      simp [pairs, ih]
      tauto

theorem length_flatMap_pair (ps : List (α × α)) :
    (ps.flatMap fun e => [e.1, e.2]).length = 2 * ps.length := by
  induction ps with
  | nil => rfl
  | cons e ps ih => simp [ih]; omega

/-- A piece that is not empty is at its place, if anything matches. -/
theorem getElem?_split {p : Char → Bool} {s : String} {l r : List (List Char)} {x : List Char}
    (hs : s.toList.splitOnP p = l ++ x :: r) (hx : x ≠ []) (hlr : l ≠ [] ∨ r ≠ []) :
    (split p s)[l.length]? = some (String.ofList x) := by
  have hpieces : split p s =
      ((l ++ x :: r).rdropWhile fun w => w.isEmpty).map String.ofList := by
    unfold split
    rw [hs]
    split
    · rename_i y heq
      obtain ⟨rfl, hr⟩ | ⟨-, hr⟩ := List.append_eq_singleton_iff.mp heq
      · exact absurd (List.cons.inj hr).2 (by simpa using hlr)
      · cases hr
    · rfl
  rw [hpieces, rdropWhile_append_cons (by simpa using hx)]
  simp

end

/-! ## Maps -/

/-- An immutable map from strings. -/
structure StringMap (V : Type) where
  entries : List (String × V)
  nodup : (entries.map Prod.fst).Nodup

namespace StringMap

variable {V : Type}

def empty : StringMap V := ⟨[], List.nodup_nil⟩

def get? (m : StringMap V) (k : String) : Option V := m.entries.lookup k

/-- `m + (k -> v)`. -/
def updated (m : StringMap V) (k : String) (v : V) : StringMap V :=
  ⟨(k, v) :: m.entries.filter fun e => e.1 ≠ k, by
    rw [List.map_cons, List.nodup_cons]
    refine ⟨?_, m.nodup.sublist (List.filter_sublist.map _)⟩
    simp⟩

/-- `ps.toMap`: of two entries for one key the later counts. -/
def ofPairs (ps : List (String × V)) : StringMap V :=
  ps.foldl (fun m e => m.updated e.1 e.2) empty

/-- The two maps are equal. -/
def Same (m n : StringMap V) : Prop := ∀ k, m.get? k = n.get? k

theorem mem_of_get? {m : StringMap V} {k : String} {v : V} (h : m.get? k = some v) :
    (k, v) ∈ m.entries := by
  unfold get? at h
  generalize m.entries = es at h
  induction es with
  | nil => cases h
  | cons e es ih =>
    obtain ⟨k', v'⟩ := e
    rw [List.lookup_cons] at h
    split at h
    · rename_i hk
      obtain rfl : k = k' := by simpa using hk
      cases h
      exact List.mem_cons_self
    · exact List.mem_cons_of_mem _ (ih h)

theorem lookup_of_mem {es : List (String × V)} (hn : (es.map Prod.fst).Nodup) {k : String} {v : V}
    (h : (k, v) ∈ es) : es.lookup k = some v := by
  induction es with
  | nil => cases h
  | cons e es ih =>
    rw [List.map_cons, List.nodup_cons] at hn
    rcases List.mem_cons.mp h with rfl | h
    · simp
    · have hne : ((k == e.1) : Bool) = false := by
        rw [beq_eq_false_iff_ne]
        rintro rfl
        exact hn.1 (List.mem_map.mpr ⟨_, h, rfl⟩)
      rw [List.lookup_cons, hne]
      exact ih hn.2 h

theorem get?_eq_some {m : StringMap V} {k : String} {v : V} :
    m.get? k = some v ↔ (k, v) ∈ m.entries :=
  ⟨mem_of_get?, lookup_of_mem m.nodup⟩

theorem mem_updated {m : StringMap V} {k k' : String} {v v' : V} :
    (k', v') ∈ (m.updated k v).entries ↔
      (k' = k ∧ v' = v) ∨ (k' ≠ k ∧ (k', v') ∈ m.entries) := by
  simp [updated]
  tauto

theorem mem_foldl_updated : ∀ (ps : List (String × V)) (m : StringMap V) {k : String} {v : V},
    (k, v) ∈ (ps.foldl (fun m e => m.updated e.1 e.2) m).entries → (k, v) ∈ ps ∨ (k, v) ∈ m.entries
  | [], _, _, _, h => .inr h
  | e :: ps, m, k, v, h => by
      rcases mem_foldl_updated ps _ h with h | h
      · exact .inl (List.mem_cons_of_mem _ h)
      · rcases mem_updated.mp h with ⟨rfl, rfl⟩ | ⟨-, h⟩
        · exact .inl List.mem_cons_self
        · exact .inr h

/-- An entry of `ps.toMap` is one of `ps`. -/
theorem mem_ofPairs {ps : List (String × V)} {k : String} {v : V}
    (h : (ofPairs ps).get? k = some v) : (k, v) ∈ ps :=
  (mem_foldl_updated ps empty (mem_of_get? h)).resolve_right (by simp [empty])

theorem mem_foldl_updated_of : ∀ (ps : List (String × V)) (m : StringMap V) {k : String} {v : V},
    (ps.map Prod.fst).Nodup → ((k, v) ∈ ps ∨ (k ∉ ps.map Prod.fst ∧ (k, v) ∈ m.entries)) →
    (k, v) ∈ (ps.foldl (fun m e => m.updated e.1 e.2) m).entries
  | [], _, _, _, _, h => by simpa using h
  | e :: ps, m, k, v, hn, h => by
      rw [List.map_cons, List.nodup_cons] at hn
      refine mem_foldl_updated_of ps _ hn.2 ?_
      rcases h with h | ⟨hk, h⟩
      · rcases List.mem_cons.mp h with rfl | h
        · exact .inr ⟨hn.1, mem_updated.mpr (.inl ⟨rfl, rfl⟩)⟩
        · exact .inl h
      · rw [List.map_cons, List.mem_cons, not_or] at hk
        exact .inr ⟨hk.2, mem_updated.mpr (.inr ⟨hk.1, h⟩)⟩

/-- **The entries of a map make the map again.** -/
theorem same_ofPairs (m : StringMap V) : (ofPairs m.entries).Same m := by
  intro k
  ext v
  constructor
  · exact fun h => get?_eq_some.mpr (mem_ofPairs h)
  · intro h
    exact get?_eq_some.mpr (mem_foldl_updated_of _ _ m.nodup (.inl (get?_eq_some.mp h)))

end StringMap

end Java
