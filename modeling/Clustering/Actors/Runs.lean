/-
Clustering.Actors.Runs — guarded event systems, their runs, and the two
induction rules every safety proof of the development goes through.

An `EventSystem` is an initial state and a partial step function: an
event that is not enabled in a state has no successor. Nothing is said
about who chooses the events, so a statement about every run is a
statement about every scheduler, every delivery order and every
failure pattern the events describe.

`Run sys ok es s` is a run whose steps all meet `ok`, where `ok` sees
the events so far, the state before the step and the event. Two uses:

* `ok = anyStep`: all runs (`Reach`);
* `ok` a side condition: the runs in which the environment behaves.

The run carries its events, oldest first, so a property may speak of
what happened before (`e ∈ es`) without a history field in the state.

`exec` and `execWhen` compute runs; `run_of_execWhen` turns a computed
run into a `Run`, which is how a concrete run is exhibited. `play` does
the same for a script that picks each event from the state.
-/
import Mathlib.Data.List.Basic

namespace Actors

/-- An initial state and a partial step: `none` is "not enabled". -/
structure EventSystem (S E : Type) where
  init : S
  step : S → E → Option S

namespace EventSystem

variable {S E : Type} (sys : EventSystem S E)

/-- The condition that allows every enabled step. -/
def anyStep : List E → S → E → Prop := fun _ _ _ => True

instance (es : List E) (s : S) (e : E) : Decidable (anyStep es s e) := .isTrue trivial

/-- A run from the initial state: its events, oldest first, and the
state it ends in. Every step meets `ok`. -/
inductive Run (ok : List E → S → E → Prop) : List E → S → Prop
  | start : Run ok [] sys.init
  | step {es : List E} {s s' : S} {e : E} (h : Run ok es s)
      (hok : ok es s e) (hs : sys.step s e = some s') : Run ok (es ++ [e]) s'

/-- The states some run reaches. -/
def Reach (s : S) : Prop := ∃ es, sys.Run anyStep es s

variable {sys}

/-- Runs under a condition are runs under any weaker one. -/
theorem Run.mono {ok ok' : List E → S → E → Prop} {es : List E} {s : S}
    (hle : ∀ es s e, ok es s e → ok' es s e) (h : sys.Run ok es s) :
    sys.Run ok' es s := by
  induction h with
  | start => exact .start
  | step _ hok hs ih => exact .step ih (hle _ _ _ hok) hs

/-- **The invariant rule**: what holds at the start and is preserved by
every allowed step holds along every run. The property sees the events
so far as well as the state. -/
theorem Run.invariant {ok : List E → S → E → Prop} {I : List E → S → Prop}
    (h0 : I [] sys.init)
    (hstep : ∀ es s e s', I es s → ok es s e → sys.step s e = some s' →
      I (es ++ [e]) s')
    {es : List E} {s : S} (h : sys.Run ok es s) : I es s := by
  induction h with
  | start => exact h0
  | step _ hok hs ih => exact hstep _ _ _ _ ih hok hs

/-- The invariant rule for a property of the state alone. -/
theorem Run.state_invariant {ok : List E → S → E → Prop} {I : S → Prop}
    (h0 : I sys.init)
    (hstep : ∀ es s e s', I s → ok es s e → sys.step s e = some s' → I s')
    {es : List E} {s : S} (h : sys.Run ok es s) : I s :=
  h.invariant (I := fun _ s => I s) h0 hstep

/-- The last step of a run. -/
theorem run_concat {ok : List E → S → E → Prop} {es : List E} {e : E} {s' : S} :
    sys.Run ok (es ++ [e]) s' ↔
      ∃ s, sys.Run ok es s ∧ ok es s e ∧ sys.step s e = some s' := by
  constructor
  · generalize hes : es ++ [e] = es'
    rintro (_ | ⟨h, hok, hs⟩)
    · simp at hes
    · obtain ⟨rfl, hlast⟩ := List.append_inj' hes rfl
      obtain rfl := List.singleton_inj.mp hlast
      exact ⟨_, h, hok, hs⟩
  · rintro ⟨s, h, hok, hs⟩
    exact .step h hok hs

/-- The events of a run determine the state it ends in. -/
theorem Run.unique {ok ok' : List E → S → E → Prop} {es : List E} {s t : S}
    (h : sys.Run ok es s) (h' : sys.Run ok' es t) : s = t := by
  induction h generalizing t with
  | start =>
    generalize hes : ([] : List E) = es' at h'
    cases h' with
    | start => rfl
    | step => simp at hes
  | step _ _ hs ih =>
    obtain ⟨u, hu, -, hs'⟩ := run_concat.mp h'
    obtain rfl := ih hu
    exact Option.some.inj (hs.symm.trans hs')

/-- A run is one under a condition exactly if each step of it is. -/
theorem Run.concat_iff {ok ok' : List E → S → E → Prop} {es : List E} {s s' : S} {e : E}
    (h : sys.Run ok es s) (hs : sys.step s e = some s') :
    sys.Run ok' (es ++ [e]) s' ↔ sys.Run ok' es s ∧ ok' es s e := by
  rw [run_concat]
  constructor
  · rintro ⟨t, ht, hok, -⟩
    obtain rfl := h.unique ht
    exact ⟨ht, hok⟩
  · rintro ⟨h', hok⟩
    exact ⟨s, h', hok, hs⟩

/-! ## Computing runs -/

/-- Run a list of events, stopping at the first one not enabled. -/
def exec (step : S → E → Option S) : List E → S → Option S
  | [], s => some s
  | e :: es, s => (step s e).bind (exec step es)

/-- `exec` after the events `pre`, stopping also at the first step that
does not meet the condition. -/
def execWhen (step : S → E → Option S) (ok : List E → S → E → Prop)
    [∀ es s e, Decidable (ok es s e)] : List E → List E → S → Option S
  | _, [], s => some s
  | pre, e :: es, s =>
      if ok pre s e then (step s e).bind (execWhen step ok (pre ++ [e]) es) else none

variable {ok : List E → S → E → Prop} [∀ es s e, Decidable (ok es s e)]

theorem Run.append_execWhen :
    ∀ (es : List E) {pre : List E} {s s' : S}, sys.Run ok pre s →
      execWhen sys.step ok pre es s = some s' → sys.Run ok (pre ++ es) s'
  | [], pre, s, s', h, hx => by
      simp only [execWhen, Option.some.injEq] at hx
      simpa [hx] using h
  | e :: es, pre, s, s', h, hx => by
      simp only [execWhen] at hx
      split at hx
      · rename_i hok
        cases hs : sys.step s e with
        | none => simp [hs] at hx
        | some t =>
          simp only [hs, Option.bind_some] at hx
          have h' := Run.append_execWhen es (.step h hok hs) hx
          simpa using h'
      · simp at hx

/-- A run computed under a condition is a run under it. -/
theorem run_of_execWhen {es : List E} {s : S}
    (hx : execWhen sys.step ok [] es sys.init = some s) : sys.Run ok es s := by
  simpa using Run.append_execWhen es .start hx

omit [∀ es s e, Decidable (ok es s e)] in
theorem Run.append_exec :
    ∀ (es : List E) {pre : List E} {s s' : S}, sys.Run anyStep pre s →
      exec sys.step es s = some s' → sys.Run anyStep (pre ++ es) s'
  | [], pre, s, s', h, hx => by
      simp only [exec, Option.some.injEq] at hx
      simpa [hx] using h
  | e :: es, pre, s, s', h, hx => by
      simp only [exec] at hx
      cases hs : sys.step s e with
      | none => simp [hs] at hx
      | some t =>
        simp only [hs, Option.bind_some] at hx
        have h' := Run.append_exec es (.step h trivial hs) hx
        simpa using h'

/-- A computed run is a run. -/
theorem run_of_exec {es : List E} {s : S}
    (hx : exec sys.step es sys.init = some s) : sys.Run anyStep es s := by
  simpa using Run.append_exec es .start hx

/-- A computed run that ends in a state with a decidable property. -/
theorem exists_run_of_exec {P : S → Prop} [DecidablePred P] {es : List E}
    (hx : (exec sys.step es sys.init).any (fun s => P s) = true) :
    ∃ s, sys.Run anyStep es s ∧ P s := by
  obtain ⟨s, hs, hp⟩ := (Option.any_eq_true _ _).mp hx
  exact ⟨s, run_of_exec hs, of_decide_eq_true hp⟩

theorem exists_run_of_execWhen {P : S → Prop} [DecidablePred P] {es : List E}
    (hx : (execWhen sys.step ok [] es sys.init).any (fun s => P s) = true) :
    ∃ s, sys.Run ok es s ∧ P s := by
  obtain ⟨s, hs, hp⟩ := (Option.any_eq_true _ _).mp hx
  exact ⟨s, run_of_execWhen hs, of_decide_eq_true hp⟩

/-! ## Playing a script -/

/-- Run a script, in which each line picks the next event from the state;
the events are collected. -/
def play (step : S → E → Option S) (ok : List E → S → E → Prop)
    [∀ es s e, Decidable (ok es s e)] :
    List E → List (S → Option E) → S → Option (List E × S)
  | pre, [], s => some (pre, s)
  | pre, line :: lines, s =>
      (line s).bind fun e =>
        if ok pre s e then (step s e).bind (play step ok (pre ++ [e]) lines) else none

theorem Run.append_play :
    ∀ (lines : List (S → Option E)) {pre es : List E} {s s' : S}, sys.Run ok pre s →
      play sys.step ok pre lines s = some (es, s') → sys.Run ok es s'
  | [], pre, es, s, s', h, hx => by
      obtain ⟨rfl, rfl⟩ := Prod.mk.inj (Option.some.inj hx)
      exact h
  | line :: lines, pre, es, s, s', h, hx => by
      obtain ⟨e, -, hx⟩ := Option.bind_eq_some_iff.mp hx
      split at hx
      · rename_i hok
        obtain ⟨t, hs, hx⟩ := Option.bind_eq_some_iff.mp hx
        exact Run.append_play lines (.step h hok hs) hx
      · cases hx

/-- A script that can be played to a state with a decidable property. -/
theorem exists_run_of_play {P : S → Prop} [DecidablePred P] {lines : List (S → Option E)}
    (hx : (play sys.step ok [] lines sys.init).any (fun x => P x.2) = true) :
    ∃ es s, sys.Run ok es s ∧ P s := by
  obtain ⟨⟨es, s⟩, hs, hp⟩ := (Option.any_eq_true _ _).mp hx
  exact ⟨es, s, Run.append_play lines .start hs, of_decide_eq_true hp⟩

end EventSystem

end Actors
