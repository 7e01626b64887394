/-
Clustering.Actors.Tokens — counting what a system carries.

A message, a future, an entry of a table may stand for something that
exists once: a right, a slot, an answer owed. `held f l` is the multiset
of tokens the entries of the list `l` stand for, where `f` says which
each stands for. What a step does to the tokens is then an equation or
an inequality of multisets, and the lists it moves them between do not
matter any more.
-/
import Mathlib.Algebra.BigOperators.Group.List.Basic
import Mathlib.Algebra.Order.Group.Multiset

namespace Actors

variable {α β : Type}

/-- The tokens the entries of `l` stand for. -/
def held (f : α → Multiset β) (l : List α) : Multiset β := (l.map f).sum

variable {f g : α → Multiset β} {l l' : List α} {x : α}

@[simp] theorem held_nil : held f [] = 0 := rfl

@[simp] theorem held_cons : held f (x :: l) = f x + held f l := by
  simp [held]

@[simp] theorem held_append : held f (l ++ l') = held f l + held f l' := by
  simp [held]

theorem held_congr (h : ∀ x ∈ l, f x = g x) : held f l = held g l := by
  unfold held
  rw [List.map_congr_left h]

theorem held_eq_zero (h : ∀ x ∈ l, f x = 0) : held f l = 0 := by
  rw [held_congr h]
  induction l with
  | nil => rfl
  | cons y l ih =>
    rw [held_cons, ih fun z hz => h z (by simp [hz])]
    rfl

/-- An entry leaves, with what it stands for. -/
theorem held_erase [DecidableEq α] (h : x ∈ l) : f x + held f (l.erase x) = held f l :=
  List.sum_map_erase f h

theorem le_held (h : x ∈ l) : f x ≤ held f l := by
  classical
  rw [← held_erase (f := f) h]
  exact Multiset.le_add_right _ _

theorem held_filter_le (p : α → Bool) : ∀ l : List α, held f (l.filter p) ≤ held f l
  | [] => le_refl _
  | y :: l => by
      have ih := held_filter_le p l
      by_cases hy : p y = true
      · rw [List.filter_cons_of_pos hy, held_cons, held_cons]
        exact add_le_add_right ih _
      · rw [List.filter_cons_of_neg hy, held_cons]
        exact ih.trans (Multiset.le_add_left _ _)

/-- All entries equal to `x` leave. -/
theorem held_remove_le [DecidableEq α] : ∀ {l : List α}, x ∈ l →
    f x + held f (l.filter (· ≠ x)) ≤ held f l
  | y :: l, h => by
      by_cases hy : y = x
      · subst hy
        rw [List.filter_cons_of_neg (by simp), held_cons]
        exact add_le_add_right (held_filter_le _ l) _
      · have hx : x ∈ l := (List.mem_cons.mp h).resolve_left fun h => hy h.symm
        have ih := held_remove_le hx
        rw [List.filter_cons_of_pos (by simpa using hy), held_cons, held_cons,
          ← add_assoc, add_comm (f x), add_assoc]
        exact add_le_add_right ih _

theorem held_insert_le [DecidableEq α] : held f (l.insert x) ≤ f x + held f l := by
  by_cases h : x ∈ l
  · rw [List.insert_of_mem h]
    exact Multiset.le_add_left _ _
  · rw [List.insert_of_not_mem h, held_cons]

end Actors
