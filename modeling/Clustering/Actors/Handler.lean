/-
Clustering.Actors.Handler — the code of one message handler.

A handler reads and assigns the fields of its actor, performs effects
(sends a message, watches or stops an actor, starts a timer) and either
returns or raises. `Handler σ ω ε α` is that: from the fields of type
`σ` to an `Outcome`, the fields afterwards, the effects performed in
order and the value or the exception.

What distinguishes it from a state-and-exception stack that rolls back:
assignments and effects made BEFORE an exception stay. A handler that
sets a flag, sends a message and then dereferences null has set the
flag and sent the message.

`Handler` is a monad, so handler code is written with `do` in the order
of the program it models. The `@[simp]` lemmas evaluate such code on
given fields; a handler's specification is stated on its `Outcome`.
-/
import Mathlib.Data.List.Basic

namespace Actors

/-- What running handler code leaves behind. -/
structure Outcome (σ ω ε α : Type) where
  fields : σ
  effects : List ω
  result : Except ε α

/-- Handler code over fields `σ`, effects `ω` and exceptions `ε`. -/
def Handler (σ ω ε α : Type) : Type := σ → Outcome σ ω ε α

namespace Outcome

variable {σ ω ε α β : Type}

/-- Continue after an outcome: a value is passed on, an exception ends
the code with the effects performed so far. -/
def andThen (o : Outcome σ ω ε α) (f : α → Handler σ ω ε β) : Outcome σ ω ε β :=
  match o.result with
  | .ok a =>
      ⟨(f a o.fields).fields, o.effects ++ (f a o.fields).effects, (f a o.fields).result⟩
  | .error e => ⟨o.fields, o.effects, .error e⟩

/-- The exception that left the code, if any. -/
def raised (o : Outcome σ ω ε α) : Option ε :=
  match o.result with
  | .ok _ => none
  | .error e => some e

@[simp] theorem andThen_ok (s : σ) (es : List ω) (a : α) (f : α → Handler σ ω ε β) :
    (⟨s, es, .ok a⟩ : Outcome σ ω ε α).andThen f =
      ⟨(f a s).fields, es ++ (f a s).effects, (f a s).result⟩ := rfl

@[simp] theorem andThen_error (s : σ) (es : List ω) (e : ε) (f : α → Handler σ ω ε β) :
    (⟨s, es, .error e⟩ : Outcome σ ω ε α).andThen f = ⟨s, es, .error e⟩ := rfl

@[simp] theorem raised_ok (s : σ) (es : List ω) (a : α) :
    (⟨s, es, .ok a⟩ : Outcome σ ω ε α).raised = none := rfl

@[simp] theorem raised_error (s : σ) (es : List ω) (e : ε) :
    (⟨s, es, .error e⟩ : Outcome σ ω ε α).raised = some e := rfl

end Outcome

namespace Handler

variable {σ ω ε α β : Type}

instance : Monad (Handler σ ω ε) where
  pure a := fun s => ⟨s, [], .ok a⟩
  bind x f := fun s => (x s).andThen f

/-- Read the fields. -/
def fields : Handler σ ω ε σ := fun s => ⟨s, [], .ok s⟩

/-- Assign the fields. -/
def assign (f : σ → σ) : Handler σ ω ε Unit := fun s => ⟨f s, [], .ok ()⟩

/-- Perform one effect. -/
def perform (w : ω) : Handler σ ω ε Unit := fun s => ⟨s, [w], .ok ()⟩

/-- Perform a list of effects, in order. -/
def performAll (ws : List ω) : Handler σ ω ε Unit := fun s => ⟨s, ws, .ok ()⟩

/-- Raise an exception. -/
def raise (e : ε) : Handler σ ω ε α := fun s => ⟨s, [], .error e⟩

/-- Dereference a field that may be null. -/
def deref (e : ε) : Option α → Handler σ ω ε α
  | some a => pure a
  | none => raise e

@[simp] theorem pure_apply (a : α) (s : σ) :
    (pure a : Handler σ ω ε α) s = ⟨s, [], .ok a⟩ := rfl

@[simp] theorem bind_apply (x : Handler σ ω ε α) (f : α → Handler σ ω ε β) (s : σ) :
    (x >>= f) s = (x s).andThen f := rfl

@[simp] theorem fields_apply (s : σ) :
    (fields : Handler σ ω ε σ) s = ⟨s, [], .ok s⟩ := rfl

@[simp] theorem assign_apply (f : σ → σ) (s : σ) :
    (assign f : Handler σ ω ε Unit) s = ⟨f s, [], .ok ()⟩ := rfl

@[simp] theorem perform_apply (w : ω) (s : σ) :
    (perform w : Handler σ ω ε Unit) s = ⟨s, [w], .ok ()⟩ := rfl

@[simp] theorem performAll_apply (ws : List ω) (s : σ) :
    (performAll ws : Handler σ ω ε Unit) s = ⟨s, ws, .ok ()⟩ := rfl

@[simp] theorem raise_apply (e : ε) (s : σ) :
    (raise e : Handler σ ω ε α) s = ⟨s, [], .error e⟩ := rfl

@[simp] theorem deref_some (e : ε) (a : α) (s : σ) :
    (deref e (some a) : Handler σ ω ε α) s = ⟨s, [], .ok a⟩ := rfl

@[simp] theorem deref_none (e : ε) (s : σ) :
    (deref e none : Handler σ ω ε α) s = ⟨s, [], .error e⟩ := rfl

/-- Code in sequence may be bracketed either way. -/
theorem bind_assoc {γ : Type} (x : Handler σ ω ε α) (f : α → Handler σ ω ε β)
    (g : β → Handler σ ω ε γ) : (x >>= f) >>= g = x >>= fun a => f a >>= g := by
  funext s
  simp only [bind_apply]
  rcases x s with ⟨s', es, a | a⟩
  · rfl
  · rcases hf : f a s' with ⟨s'', es', b | b⟩ <;> simp [hf]

/-! ## The frame rule -/

/-- The code leaves the part `f` of the fields alone, also when it raises. -/
def Keeps {γ : Type} (f : σ → γ) (x : Handler σ ω ε α) : Prop :=
  ∀ s, f (x s).fields = f s

namespace Keeps

variable {γ : Type} {f : σ → γ}

theorem pure (a : α) : Keeps f (pure a : Handler σ ω ε α) := fun _ => rfl

theorem fields : Keeps f (fields : Handler σ ω ε σ) := fun _ => rfl

theorem perform (w : ω) : Keeps f (perform w : Handler σ ω ε Unit) := fun _ => rfl

theorem raise (e : ε) : Keeps f (raise e : Handler σ ω ε α) := fun _ => rfl

theorem deref (e : ε) : ∀ o : Option α, Keeps f (deref e o : Handler σ ω ε α)
  | some _ => fun _ => rfl
  | none => fun _ => rfl

theorem assign {g : σ → σ} (h : ∀ s, f (g s) = f s) :
    Keeps f (assign g : Handler σ ω ε Unit) := h

/-- **Code that leaves a part alone may be run in sequence.** -/
theorem bind {x : Handler σ ω ε α} {y : α → Handler σ ω ε β} (hx : Keeps f x)
    (hy : ∀ a, Keeps f (y a)) : Keeps f (x >>= y) := by
  intro s
  have hs := hx s
  rw [bind_apply]
  unfold Outcome.andThen
  split
  · rw [hy, hs]
  · exact hs

/-- The part is as the first piece of code left it. -/
theorem after {x : Handler σ ω ε α} {y : α → Handler σ ω ε β} (hy : ∀ a, Keeps f (y a)) (s : σ) :
    f ((x >>= y) s).fields = f (x s).fields := by
  rw [bind_apply]
  unfold Outcome.andThen
  split
  · rw [hy]
  · rfl

theorem ite {p : Prop} [Decidable p] {x y : Handler σ ω ε α} (hx : Keeps f x) (hy : Keeps f y) :
    Keeps f (if p then x else y) := by
  split
  · exact hx
  · exact hy

end Keeps

/-! ## Invariants of code -/

/-- The code preserves a property of the fields, also when it raises. -/
def Preserves (I : σ → Prop) (x : Handler σ ω ε α) : Prop :=
  ∀ s, I s → I (x s).fields

namespace Preserves

variable {I : σ → Prop}

theorem pure (a : α) : Preserves I (pure a : Handler σ ω ε α) := fun _ h => h

theorem fields : Preserves I (fields : Handler σ ω ε σ) := fun _ h => h

theorem perform (w : ω) : Preserves I (perform w : Handler σ ω ε Unit) := fun _ h => h

theorem raise (e : ε) : Preserves I (raise e : Handler σ ω ε α) := fun _ h => h

theorem deref (e : ε) : ∀ o : Option α, Preserves I (deref e o : Handler σ ω ε α)
  | some _ => fun _ h => h
  | none => fun _ h => h

theorem assign {g : σ → σ} (h : ∀ s, I s → I (g s)) :
    Preserves I (assign g : Handler σ ω ε Unit) := h

theorem bind {x : Handler σ ω ε α} {y : α → Handler σ ω ε β} (hx : Preserves I x)
    (hy : ∀ a, Preserves I (y a)) : Preserves I (x >>= y) := by
  intro s h
  have hs := hx s h
  rw [bind_apply]
  unfold Outcome.andThen
  split
  · exact hy _ _ hs
  · exact hs

theorem ite {p : Prop} [Decidable p] {x y : Handler σ ω ε α} (hx : p → Preserves I x)
    (hy : ¬ p → Preserves I y) : Preserves I (if p then x else y) := by
  split
  · exact hx ‹_›
  · exact hy ‹_›

end Preserves

/-- All effects of the code are of this kind. -/
def Emits (P : ω → Prop) (x : Handler σ ω ε α) : Prop :=
  ∀ s, ∀ w ∈ (x s).effects, P w

namespace Emits

variable {P : ω → Prop}

theorem pure (a : α) : Emits P (pure a : Handler σ ω ε α) := fun _ _ h => by cases h

theorem fields : Emits P (fields : Handler σ ω ε σ) := fun _ _ h => by cases h

theorem raise (e : ε) : Emits P (raise e : Handler σ ω ε α) := fun _ _ h => by cases h

theorem deref (e : ε) : ∀ o : Option α, Emits P (deref e o : Handler σ ω ε α)
  | some _ => fun _ _ h => by cases h
  | none => fun _ _ h => by cases h

theorem assign (g : σ → σ) : Emits P (assign g : Handler σ ω ε Unit) := fun _ _ h => by cases h

theorem perform {w : ω} (h : P w) : Emits P (perform w : Handler σ ω ε Unit) := by
  intro s w' hw
  obtain rfl := List.mem_singleton.mp hw
  exact h

theorem bind {x : Handler σ ω ε α} {y : α → Handler σ ω ε β} (hx : Emits P x)
    (hy : ∀ a, Emits P (y a)) : Emits P (x >>= y) := by
  intro s w hw
  rw [bind_apply] at hw
  unfold Outcome.andThen at hw
  split at hw
  · rcases List.mem_append.mp hw with hw | hw
    · exact hx s w hw
    · exact hy _ _ w hw
  · exact hx s w hw

theorem ite {p : Prop} [Decidable p] {x y : Handler σ ω ε α} (hx : p → Emits P x)
    (hy : ¬ p → Emits P y) : Emits P (if p then x else y) := by
  split
  · exact hx ‹_›
  · exact hy ‹_›

end Emits

/-! ## Code that only reads -/

/-- The code assigns nothing and performs nothing, also when it raises. -/
def Inert (x : Handler σ ω ε α) : Prop :=
  ∀ s, (x s).fields = s ∧ (x s).effects = []

namespace Inert

theorem pure (a : α) : Inert (pure a : Handler σ ω ε α) := fun _ => ⟨rfl, rfl⟩

theorem fields : Inert (fields : Handler σ ω ε σ) := fun _ => ⟨rfl, rfl⟩

theorem raise (e : ε) : Inert (raise e : Handler σ ω ε α) := fun _ => ⟨rfl, rfl⟩

theorem deref (e : ε) : ∀ o : Option α, Inert (deref e o : Handler σ ω ε α)
  | some _ => fun _ => ⟨rfl, rfl⟩
  | none => fun _ => ⟨rfl, rfl⟩

theorem bind {x : Handler σ ω ε α} {y : α → Handler σ ω ε β} (hx : Inert x)
    (hy : ∀ a, Inert (y a)) : Inert (x >>= y) := by
  intro s
  obtain ⟨hfields, heffects⟩ := hx s
  rw [bind_apply]
  unfold Outcome.andThen
  split
  · rename_i a _
    obtain ⟨hfields', heffects'⟩ := hy a (x s).fields
    exact ⟨hfields'.trans hfields, by rw [heffects, heffects', List.append_nil]⟩
  · exact ⟨hfields, heffects⟩

theorem ite {p : Prop} [Decidable p] {x y : Handler σ ω ε α} (hx : Inert x) (hy : Inert y) :
    Inert (if p then x else y) := by
  split
  · exact hx
  · exact hy

theorem keeps {γ : Type} {f : σ → γ} {x : Handler σ ω ε α} (hx : Inert x) : Keeps f x :=
  fun s => congrArg f (hx s).1

/-- What follows such code runs on the same fields and adds its effects. -/
theorem andThen {x : Handler σ ω ε α} (hx : Inert x) (y : α → Handler σ ω ε β) (s : σ) :
    (∃ a, (x s).result = .ok a ∧ (x >>= y) s = y a s) ∨
      ∃ e, (x s).result = .error e ∧ (x >>= y) s = ⟨s, [], .error e⟩ := by
  obtain ⟨hfields, heffects⟩ := hx s
  rw [bind_apply]
  rcases hxs : x s with ⟨s', es, r⟩
  rw [hxs] at hfields heffects
  obtain rfl := hfields
  obtain rfl := heffects
  cases r with
  | ok a => exact .inl ⟨a, rfl, by simp⟩
  | error e => exact .inr ⟨e, rfl, by simp⟩

end Inert

end Handler

end Actors
