/-
Clustering.Ruby.Blocks — lines and the blocks they open and close.

A file is a row of lines, some of which open a block and some of which
close the last block that is open. `tree` reads the lines with a stack.
`tree_eq_some_iff` says what it reads: the one forest whose lines these
are and in which every line is what its place asks for, so that each
block is closed by its own line.
-/
import Mathlib.Data.List.Basic

namespace Clustering.Ruby

/-! ## Forests -/

inductive Kind
  | plain
  | opens
  | closes
  deriving DecidableEq, Repr

inductive Node (α : Type)
  | line (a : α)
  | block (head : α) (body : List (Node α)) (foot : α)

variable {α β : Type}

mutual

/-- The lines of a node, in their order. -/
def Node.lines : Node α → List α
  | .line a => [a]
  | .block head body foot => head :: (Node.allLines body ++ [foot])

def Node.allLines : List (Node α) → List α
  | [] => []
  | n :: ns => n.lines ++ Node.allLines ns

end

mutual

def Node.map (f : α → β) : Node α → Node β
  | .line a => .line (f a)
  | .block head body foot => .block (f head) (Node.mapAll f body) (f foot)

def Node.mapAll (f : α → β) : List (Node α) → List (Node β)
  | [] => []
  | n :: ns => n.map f :: Node.mapAll f ns

end

mutual

/-- Every line is of the kind that its place asks for. -/
def Node.Shaped (kind : α → Option Kind) : Node α → Prop
  | .line a => kind a = some .plain
  | .block head body foot =>
    kind head = some .opens ∧ Node.AllShaped kind body ∧ kind foot = some .closes

def Node.AllShaped (kind : α → Option Kind) : List (Node α) → Prop
  | [] => True
  | n :: ns => n.Shaped kind ∧ Node.AllShaped kind ns

end

theorem Node.allLines_append (ms ns : List (Node α)) :
    Node.allLines (ms ++ ns) = Node.allLines ms ++ Node.allLines ns := by
  induction ms with
  | nil => rfl
  | cons m ms ih => simp [Node.allLines, ih]

theorem Node.allShaped_append (kind : α → Option Kind) (ms ns : List (Node α)) :
    Node.AllShaped kind (ms ++ ns) ↔ Node.AllShaped kind ms ∧ Node.AllShaped kind ns := by
  induction ms with
  | nil => simp [Node.AllShaped]
  | cons m ms ih => simp [Node.AllShaped, ih, and_assoc]

mutual

theorem Node.lines_map (f : α → β) : ∀ n : Node α, (n.map f).lines = n.lines.map f
  | .line a => by rfl
  | .block head body foot => by
    simp [Node.map, Node.lines, Node.allLines_mapAll f body]

theorem Node.allLines_mapAll (f : α → β) :
    ∀ ns : List (Node α), Node.allLines (Node.mapAll f ns) = (Node.allLines ns).map f
  | [] => by rfl
  | n :: ns => by
    simp [Node.mapAll, Node.allLines, Node.lines_map f n, Node.allLines_mapAll f ns]

end

mutual

theorem Node.shaped_map (f : α → β) (kind : β → Option Kind) :
    ∀ n : Node α, (n.map f).Shaped kind ↔ n.Shaped (kind ∘ f)
  | .line a => by rfl
  | .block head body foot => by
    simp [Node.map, Node.Shaped, Node.allShaped_mapAll f kind body]

theorem Node.allShaped_mapAll (f : α → β) (kind : β → Option Kind) :
    ∀ ns : List (Node α), Node.AllShaped kind (Node.mapAll f ns) ↔ Node.AllShaped (kind ∘ f) ns
  | [] => by rfl
  | n :: ns => by
    simp [Node.mapAll, Node.AllShaped, Node.shaped_map f kind n, Node.allShaped_mapAll f kind ns]

end

/-! ## Reading lines -/

/-- The blocks that are open, innermost first: the line that opened each
and what stands before it, and the nodes of the innermost. -/
structure Open (α : Type) where
  stack : List (α × List (Node α))
  nodes : List (Node α)

def Open.place (kind : α → Option Kind) (s : Open α) (a : α) : Option (Open α) :=
  match kind a with
  | some .plain => some ⟨s.stack, s.nodes ++ [.line a]⟩
  | some .opens => some ⟨(a, s.nodes) :: s.stack, []⟩
  | some .closes =>
    match s.stack with
    | (head, before) :: stack => some ⟨stack, before ++ [.block head s.nodes a]⟩
    | [] => none
  | none => none

/-- The forest of a row of lines, when every block is closed. -/
def tree (kind : α → Option Kind) (lines : List α) : Option (List (Node α)) :=
  match lines.foldlM (Open.place kind) ⟨[], []⟩ with
  | some ⟨[], nodes⟩ => some nodes
  | _ => none

mutual

/-- The lines of a shaped node put it behind the nodes read before. -/
theorem Node.place_lines {kind : α → Option Kind} : ∀ n : Node α, n.Shaped kind → ∀ s : Open α,
    n.lines.foldlM (Open.place kind) s = some ⟨s.stack, s.nodes ++ [n]⟩
  | .line a, h, s => by
    simp only [Node.Shaped] at h
    simp [Node.lines, Open.place, h]
  | .block head body foot, h, s => by
    obtain ⟨hhead, hbody, hfoot⟩ := h
    have hin := Node.place_allLines body hbody ⟨(head, s.nodes) :: s.stack, []⟩
    simp [Node.lines, Open.place, hhead, hfoot, List.foldlM_append, hin]

theorem Node.place_allLines {kind : α → Option Kind} :
    ∀ ns : List (Node α), Node.AllShaped kind ns → ∀ s : Open α,
    (Node.allLines ns).foldlM (Open.place kind) s = some ⟨s.stack, s.nodes ++ ns⟩
  | [], _, s => by simp [Node.allLines]
  | n :: ns, h, s => by
    obtain ⟨hn, hns⟩ := h
    have hfirst := Node.place_lines n hn s
    have hrest := Node.place_allLines ns hns ⟨s.stack, s.nodes ++ [n]⟩
    simp [Node.allLines, List.foldlM_append, hfirst, hrest]

end

/-- The lines that were read. -/
def stackLines : List (α × List (Node α)) → List α
  | [] => []
  | (head, before) :: stack => stackLines stack ++ (Node.allLines before ++ [head])

def Open.lines (s : Open α) : List α := stackLines s.stack ++ Node.allLines s.nodes

/-- All that was read is in its place. -/
def Open.Shaped (kind : α → Option Kind) (s : Open α) : Prop :=
  Node.AllShaped kind s.nodes ∧
    ∀ frame ∈ s.stack, kind frame.1 = some .opens ∧ Node.AllShaped kind frame.2

theorem Open.place_spec {kind : α → Option Kind} {s t : Open α} {a : α}
    (h : s.place kind a = some t) (hs : s.Shaped kind) :
    t.Shaped kind ∧ t.lines = s.lines ++ [a] := by
  obtain ⟨stack, nodes⟩ := s
  obtain ⟨hnodes, hstack⟩ := hs
  simp only [Open.place] at h
  split at h
  · rename_i hkind
    obtain rfl := Option.some.inj h
    refine ⟨⟨?_, hstack⟩, ?_⟩
    · rw [Node.allShaped_append]
      exact ⟨hnodes, hkind, trivial⟩
    · simp [Open.lines, Node.allLines_append, Node.allLines, Node.lines]
  · rename_i hkind
    obtain rfl := Option.some.inj h
    refine ⟨⟨trivial, ?_⟩, ?_⟩
    · intro frame hframe
      obtain rfl | hframe := List.mem_cons.mp hframe
      · exact ⟨hkind, hnodes⟩
      · exact hstack frame hframe
    · simp [Open.lines, stackLines, Node.allLines]
  · rename_i hkind
    cases stack with
    | nil => cases h
    | cons frame stack =>
      obtain rfl := Option.some.inj h
      obtain ⟨hopens, hbefore⟩ := hstack frame List.mem_cons_self
      refine ⟨⟨?_, fun f hf => hstack f (List.mem_cons_of_mem _ hf)⟩, ?_⟩
      · rw [Node.allShaped_append]
        exact ⟨hbefore, ⟨hopens, hnodes, hkind⟩, trivial⟩
      · simp [Open.lines, stackLines, Node.allLines_append, Node.allLines, Node.lines]
  · cases h

theorem Open.run_spec {kind : α → Option Kind} (lines : List α) : ∀ {s t : Open α},
    lines.foldlM (Open.place kind) s = some t → s.Shaped kind →
    t.Shaped kind ∧ t.lines = s.lines ++ lines := by
  induction lines with
  | nil =>
    intro s t h hs
    obtain rfl : s = t := by simpa using h
    exact ⟨hs, (List.append_nil _).symm⟩
  | cons a lines ih =>
    intro s t h hs
    simp only [List.foldlM_cons, Option.bind_eq_bind, Option.bind_eq_some_iff] at h
    obtain ⟨u, hu, ht⟩ := h
    obtain ⟨hshaped, hlines⟩ := Open.place_spec hu hs
    obtain ⟨hshaped', hlines'⟩ := ih ht hshaped
    refine ⟨hshaped', ?_⟩
    rw [hlines', hlines, List.append_assoc, List.singleton_append]

/-- **The forest that is read is the one shaped forest with these lines.** -/
theorem tree_eq_some_iff {kind : α → Option Kind} {lines : List α} {ns : List (Node α)} :
    tree kind lines = some ns ↔ Node.allLines ns = lines ∧ Node.AllShaped kind ns := by
  constructor
  · intro h
    unfold tree at h
    split at h
    · rename_i nodes hrun
      obtain rfl := Option.some.inj h
      obtain ⟨⟨hshaped, -⟩, hlines⟩ := Open.run_spec lines hrun ⟨trivial, by simp⟩
      simp only [Open.lines, stackLines, Node.allLines, List.nil_append] at hlines
      exact ⟨hlines, hshaped⟩
    · cases h
  · rintro ⟨rfl, hshaped⟩
    rw [tree, Node.place_allLines ns hshaped]
    rfl

end Clustering.Ruby
