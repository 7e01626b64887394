/-
Clustering.Handshake.Attempts — one attempt at a time.

A task actor distinguishes its attempts by three fields: `isTaken`,
`targetVm` and `executorActor`. They are written by its handlers and by
the callbacks of asks it made earlier, so two attempts can overlap
unless a reset and an outstanding ask exclude each other.

`TaskSide.OneAttempt` says that they do: at most one ask is
outstanding; while there is one the task is taken and no executor is
watched; a watched executor is the one in `executorActor`; and every
executor that runs the task is watched. It is an invariant of the runs
in which a `Terminated` of a machine resets a taken task only if it is
the machine of the current attempt and no ask is outstanding
(`ResetsCurrent`). The code does not check either, and
`attempts_overlap` is a run in which two executors of one task actor
run at once.
-/
import Clustering.Handshake.TaskSide

namespace Clustering.Handshake

open Actors Clustering.Worker Clustering.Vm

/-- The executor has been sent its task and has neither terminated nor
been stopped. -/
def ExecutorCell.Active (c : ExecutorCell) : Prop :=
  c.target.isSome ∧ c.Live ∧ c.stopped = false

instance (c : ExecutorCell) : Decidable c.Active := inferInstanceAs (Decidable (_ ∧ _))

namespace TaskSide

/-- A `Terminated` of machine `v` that resets the task is about the
current attempt, and that attempt is not waiting for an answer. (If
there is no executor the handler crashes and resets nothing.) -/
def ResetsCurrent (t : ℕ) (s : TaskSide) (e : Event) : Prop :=
  ∀ v, e = .terminated t (.vm v) → s.cell.actor.isTaken = true →
    s.cell.actor.taskDone = false →
      s.cell.actor.targetVm = some v ∧ (s.asks = [] ∨ s.cell.actor.executorActor = none)

structure OneAttempt (s : TaskSide) : Prop where
  ask : ∀ a ∈ s.asks, ∀ b ∈ s.asks, a = b ∨ s.cell.phase = .stopped
  taken : s.cell.phase = .running → s.asks ≠ [] → s.cell.actor.isTaken = true
  watched : ∀ e, .executor e ∈ s.cell.watching ∨ .executor e ∈ s.cell.notices →
    s.cell.phase ≠ .stopped → s.asks = [] ∧ s.cell.actor.executorActor = some e ∧
      (s.cell.phase = .running → s.cell.actor.isTaken = true)
  apart : ∀ e, .executor e ∈ s.cell.notices → .executor e ∉ s.cell.watching
  active : ∀ e c, s.executors e = some c → c.Active →
    s.cell.phase ≠ .stopped ∧ .executor e ∈ s.cell.watching

theorem stopped_not_active {c : ExecutorCell} (h : c.stopped = true) : ¬ c.Active := by
  intro ha
  simp [ha.2.2] at h

/-- An executor active after a change that activates none was so before. -/
theorem active_updExecutor {s : TaskSide} {x e : ℕ} {f : ExecutorCell → ExecutorCell}
    {c : ExecutorCell} (hf : ∀ d, (f d).Active → d.Active)
    (hx : (s.updExecutor x f).executors e = some c) (hc : c.Active) :
    ∃ d, s.executors e = some d ∧ d.Active := by
  by_cases he : e = x
  · subst he
    simp only [updExecutor_executors, Function.update_self, Option.map_eq_some_iff] at hx
    obtain ⟨d, hd, rfl⟩ := hx
    exact ⟨d, hd, hf d hc⟩
  · simp only [updExecutor_executors, Function.update_of_ne he] at hx
    exact ⟨c, hx, hc⟩

/-- The invariant after a step that takes no notice of anything: the
same watched executors, no ask more, `isTaken` not lost while there is
an ask or a watched executor. -/
theorem OneAttempt.of_same {s s' : TaskSide} (h : s.OneAttempt)
    (hp : s'.cell.phase = s.cell.phase ∨ ∃ y, s.cell.phase = .running ∧ s'.cell.phase = .failed y)
    (ha : s'.asks = s.asks) (hr : s'.cell.actor.executorActor = s.cell.actor.executorActor)
    (ht : s'.cell.actor.isTaken = s.cell.actor.isTaken)
    (hw : ∀ e, .executor e ∈ s'.cell.watching ∨ .executor e ∈ s'.cell.notices →
      .executor e ∈ s.cell.watching ∨ .executor e ∈ s.cell.notices)
    (hn : ∀ e, .executor e ∈ s'.cell.notices → .executor e ∉ s'.cell.watching)
    (hx : ∀ e c, s'.executors e = some c → c.Active → .executor e ∈ s'.cell.watching ∧
      ∃ d, s.executors e = some d ∧ d.Active) : s'.OneAttempt := by
  have hrun : s'.cell.phase = .running → s.cell.phase = .running := by
    rcases hp with hp | ⟨y, hp, hp'⟩
    · rw [hp]
      exact id
    · exact fun _ => hp
  have hstop : s'.cell.phase = .stopped ↔ s.cell.phase = .stopped := by
    rcases hp with hp | ⟨y, hp, hp'⟩
    · rw [hp]
    · simp [hp, hp']
  constructor
  · rw [ha, hstop]
    exact h.ask
  · rw [ha, ht]
    exact fun hp' => h.taken (hrun hp')
  · intro e he hns
    obtain ⟨h1, h2, h3⟩ := h.watched e (hw e he) (fun hs => hns (hstop.mpr hs))
    rw [ha, hr, ht]
    exact ⟨h1, h2, fun hp' => h3 (hrun hp')⟩
  · exact hn
  · intro e c hc hact
    obtain ⟨hwatch, d, hd, hda⟩ := hx e c hc hact
    exact ⟨fun hs => (h.active e d hd hda).1 (hstop.mp hs), hwatch⟩

theorem OneAttempt.no_asks_left {s : TaskSide} {a : Ask} (h : s.OneAttempt)
    (hp : s.cell.phase ≠ .stopped) (ha : a ∈ s.asks) : s.asks.filter (· ≠ a) = [] := by
  refine List.filter_eq_nil_iff.mpr ?_
  intro b hb
  rcases h.ask b hb a ha with hba | hs
  · simp [hba]
  · exact absurd hs hp

/-- While an ask is outstanding no executor is watched. -/
theorem OneAttempt.none_watched {s : TaskSide} {a : Ask} (h : s.OneAttempt)
    (hp : s.cell.phase ≠ .stopped) (ha : a ∈ s.asks) (e : ℕ) :
    .executor e ∉ s.cell.watching ∧ .executor e ∉ s.cell.notices := by
  constructor
  · intro he
    have := (h.watched e (.inl he) hp).1
    simp [this] at ha
  · intro he
    have := (h.watched e (.inr he) hp).1
    simp [this] at ha

theorem OneAttempt.none_active {s : TaskSide} {a : Ask} (h : s.OneAttempt)
    (hp : s.cell.phase ≠ .stopped) (ha : a ∈ s.asks) {e : ℕ} {c : ExecutorCell}
    (hc : s.executors e = some c) : ¬ c.Active :=
  fun hact => (h.none_watched hp ha e).1 (h.active e c hc hact).2

theorem OneAttempt.halted {s : TaskSide} : s.halt.OneAttempt := by
  constructor
  · intro a _ b _
    exact .inr rfl
  · intro hp
    simp [TaskCell.halt] at hp
  · intro e he hp
    simp [TaskCell.halt] at hp
  · simp [TaskCell.halt]
  · intro e c hc hact
    simp only [halt_executors, Option.map_eq_some_iff] at hc
    obtain ⟨d, -, rfl⟩ := hc
    exact absurd hact (stopped_not_active rfl)

/-- The attempt's ask is answered and an executor is created. -/
theorem OneAttempt.newExecutor {s s₀ : TaskSide} {a : Ask} {x : ℕ} {c : ExecutorCell}
    (h : s.OneAttempt) (hp : s.cell.phase ≠ .stopped) (ha : a ∈ s.asks)
    (hp₀ : s₀.cell.phase = s.cell.phase) (ha₀ : s₀.asks = s.asks.filter (· ≠ a))
    (ht₀ : s₀.cell.actor.isTaken = s.cell.actor.isTaken)
    (hw₀ : ∀ e, (.executor e ∈ s₀.cell.watching → .executor e ∈ s.cell.watching) ∧
      (.executor e ∈ s₀.cell.notices → .executor e ∈ s.cell.notices))
    (hx₀ : s₀.executors = s.executors) : (s₀.newExecutor x c).OneAttempt := by
  have hnil : s₀.asks = [] := ha₀.trans (h.no_asks_left hp ha)
  constructor
  · simp [hnil]
  · simp [hnil]
  · intro e he hns
    simp only [newExecutor_cell_watching, newExecutor_cell_notices, List.mem_insert_iff] at he
    have hex : e = x := by
      by_contra hne
      have hne' : (Ref.executor e) ≠ .executor x := fun hh => hne (Ref.executor.inj hh)
      rcases he with (he | he) | he
      · exact hne' he
      · exact (h.none_watched hp ha e).1 ((hw₀ e).1 he)
      · exact (h.none_watched hp ha e).2 ((hw₀ e).2 he)
    subst hex
    refine ⟨hnil, rfl, ?_⟩
    intro hrun
    have hne : s.asks ≠ [] := List.ne_nil_of_mem ha
    show s₀.cell.actor.isTaken = true
    rw [ht₀]
    exact h.taken (hp₀ ▸ hrun) hne
  · intro e he
    exact absurd ((hw₀ e).2 he) (h.none_watched hp ha e).2
  · intro e d hd hact
    refine ⟨fun hs => hp (hp₀ ▸ hs), ?_⟩
    by_cases he : e = x
    · subst he
      simp
    · rw [newExecutor_executors, Function.update_of_ne he, hx₀] at hd
      exact absurd hact (h.none_active hp ha hd)

/-- The attempt's ask completes, and nothing comes of it. -/
theorem OneAttempt.offerEnds {s s' : TaskSide} {a : Ask} (h : s.OneAttempt) (ha : a ∈ s.asks)
    (ha' : s'.asks = s.asks.filter (· ≠ a)) (hp : s'.cell.phase = s.cell.phase)
    (hw : s'.cell.watching = s.cell.watching) (hn : s'.cell.notices = s.cell.notices)
    (hx : s'.executors = s.executors) : s'.OneAttempt := by
  constructor
  · rw [ha', hp]
    intro x hx y hy
    exact h.ask x (List.mem_of_mem_filter hx) y (List.mem_of_mem_filter hy)
  · rw [ha', hp]
    intro hrun hne
    refine absurd (h.no_asks_left ?_ ha) hne
    simp [hrun]
  · rw [hw, hn, hp]
    intro e he hp
    rcases he with he | he
    · exact absurd he (h.none_watched hp ha e).1
    · exact absurd he (h.none_watched hp ha e).2
  · rw [hw, hn]
    exact h.apart
  · rw [hw, hx, hp]
    exact h.active

/-- A task that is not taken has no attempt under way. -/
theorem OneAttempt.free {s : TaskSide} (h : s.OneAttempt) (hp : s.cell.phase = .running)
    (ht : s.cell.actor.isTaken = false) :
    s.asks = [] ∧ ∀ e, .executor e ∉ s.cell.watching ∧ .executor e ∉ s.cell.notices := by
  refine ⟨?_, ?_⟩
  · by_contra hne
    simp [h.taken hp hne] at ht
  · intro e
    constructor
    · intro he
      simp [(h.watched e (.inl he) (by simp [hp])).2.2 hp] at ht
    · intro he
      simp [(h.watched e (.inr he) (by simp [hp])).2.2 hp] at ht

/-- Executors change in a way that activates none. -/
theorem OneAttempt.updExecutor {s : TaskSide} {x : ℕ} {f : ExecutorCell → ExecutorCell}
    (h : s.OneAttempt) (hf : ∀ d, (f d).Active → d.Active) : (s.updExecutor x f).OneAttempt := by
  refine h.of_same (.inl rfl) rfl rfl rfl (fun _ he => he) h.apart ?_
  intro e d hd hact
  obtain ⟨c, hc, hca⟩ := active_updExecutor hf hd hact
  exact ⟨(h.active e c hc hca).2, c, hc, hca⟩

/-- A live executor changes its phase. -/
theorem OneAttempt.rephase {s : TaskSide} {x : ℕ} {f : ExecutorCell → ExecutorCell}
    {c : ExecutorCell} (h : s.OneAttempt) (hx : s.executors x = some c) (hl : c.Live)
    (ht : (f c).target = c.target) (hf : (f c).stopped = false → c.stopped = false) :
    (s.updExecutor x f).OneAttempt := by
  refine h.of_same (.inl rfl) rfl rfl rfl (fun _ he => he) h.apart ?_
  intro e d hd hact
  by_cases he : e = x
  · subst he
    simp only [updExecutor_executors, Function.update_self, hx, Option.map_some,
      Option.some.injEq] at hd
    subst hd
    obtain ⟨h1, -, h3⟩ := hact
    have hca : c.Active := ⟨ht ▸ h1, hl, hf h3⟩
    exact ⟨(h.active e c hx hca).2, c, hx, hca⟩
  · simp only [updExecutor_executors, Function.update_of_ne he] at hd
    exact ⟨(h.active e d hd hact).2, d, hd, hact⟩

theorem OneAttempt.judge {s : TaskSide} {x : ℕ} {b : Bool} {y : Throwable} {c : ExecutorCell}
    (h : s.OneAttempt) (hx : s.executors x = some c) (hy : c.phase = .threw y) :
    (s.judge x b).OneAttempt := by
  refine h.rephase hx (by simp [ExecutorCell.Live, hy]) rfl ?_
  intro hs
  exact (Bool.or_eq_false_iff.mp hs).1

/-- The fields other than `isTaken` and `executorActor` are assigned. -/
theorem OneAttempt.assign {s : TaskSide} {f : TaskActor → TaskActor} (h : s.OneAttempt)
    (ht : (f s.cell.actor).isTaken = s.cell.actor.isTaken)
    (hx : (f s.cell.actor).executorActor = s.cell.actor.executorActor) :
    (s.assign f).OneAttempt :=
  h.of_same (.inl rfl) rfl hx ht (fun _ he => he) h.apart
    fun e c hc hact => ⟨(h.active e c hc hact).2, c, hc, hact⟩

theorem OneAttempt.fail {s : TaskSide} {y : Throwable} (h : s.OneAttempt)
    (hp : s.cell.phase = .running) : (s.setPhase (.failed y)).OneAttempt :=
  h.of_same (.inr ⟨y, hp, rfl⟩) rfl rfl rfl (fun _ he => he) h.apart
    fun e c hc hact => ⟨(h.active e c hc hact).2, c, hc, hact⟩

theorem OneAttempt.step {t : ℕ} {s s' : TaskSide} {e : Event} (h : s.OneAttempt)
    (hok : s.ResetsCurrent t e) (hs : Step t s e s') : s'.OneAttempt := by
  cases hs with
  | idle => exact h
  | create hp ha hx => constructor <;> simp [ha, hx]
  | vmTerminates =>
    refine h.of_same (.inl (by simp)) rfl (by simp) (by simp) (by simp) ?_ ?_
    · intro e he
      simpa using h.apart e (by simpa using he)
    · intro e c hc hact
      exact ⟨by simpa using (h.active e c hc hact).2, c, hc, hact⟩
  | @executorDies x =>
    refine h.of_same (.inl (by simp)) rfl (by simp) (by simp) ?_ ?_ ?_
    · intro e he
      simp only [TaskCell.mem_notify_watching, TaskCell.mem_notify_notices] at he
      rcases he with ⟨he, -⟩ | he | ⟨heq, he⟩
      · exact .inl he
      · exact .inr he
      · exact .inl (heq ▸ he)
    · intro e he
      simp only [TaskCell.mem_notify_watching, TaskCell.mem_notify_notices] at he ⊢
      rcases he with he | ⟨heq, -⟩
      · exact fun hw => h.apart e he hw.1
      · exact fun hw => hw.2 heq
    · intro e c hc hact
      have hdead : ∀ d : ExecutorCell, ¬ d.die.Active := by
        simp [ExecutorCell.die, ExecutorCell.Active, ExecutorCell.Live]
      obtain ⟨d, hd, hda⟩ := active_updExecutor (fun d hd => absurd hd (hdead d)) hc hact
      refine ⟨?_, d, hd, hda⟩
      rw [TaskCell.mem_notify_watching]
      refine ⟨(h.active e d hd hda).2, ?_⟩
      intro hex
      cases hex
      simp only [updExecutor_executors, Function.update_self, hd, Option.map_some,
        Option.some.injEq] at hc
      exact hdead d (hc ▸ hact)
  | @getTask v hh hp ht hlt =>
    obtain ⟨hnil, hnone⟩ := h.free hp ht
    constructor
    · simp [hnil]
    · simp
    · intro e he hns
      rcases he with he | he
      · exact absurd he (hnone e).1
      · exact absurd he (hnone e).2
    · exact h.apart
    · exact h.active
  | persistAndSuicide hp => exact .halted
  | stop hp => exact .halted
  | terminatedDone hp hr hd => exact .halted
  | @terminatedTarget v x hp hr hd hv hx =>
    -- the machine of the current attempt is gone, and its executor is stopped
    have hno : ∀ e, .executor e ∈ s.cell.watching ∨ .executor e ∈ s.cell.notices → e = x := by
      intro e he
      have hw := (h.watched e he (by simp [hp])).2.1
      exact Option.some.inj (hw.symm.trans hx)
    have hnil : s.asks = [] := by
      by_contra hne
      have hcur := hok v rfl (h.taken hp hne) hd
      rcases hcur.2 with ha | ha
      · exact hne ha
      · simp [hx] at ha
    constructor
    · simp [hnil]
    · simp [hnil]
    · intro e he
      have hold : .executor e ∈ s.cell.watching ∨ .executor e ∈ s.cell.notices := by
        simp at he
        tauto
      simp [hno e hold] at he
    · intro e he
      simp at he ⊢
      exact fun hw => absurd hw (h.apart e he.1)
    · intro e c hc hact
      by_cases he : e = x
      · subst he
        simp only [updExecutor_executors, Function.update_self, Option.map_eq_some_iff] at hc
        obtain ⟨d, -, rfl⟩ := hc
        exact absurd hact (stopped_not_active rfl)
      · simp only [updExecutor_executors, Function.update_of_ne he] at hc
        exact absurd (hno e (.inl (h.active e c hc hact).2)) he
  | @terminatedNull r hp hr hd hn =>
    -- the actor crashes: from now on it takes no message
    constructor
    · intro a ha b hb
      exact .inl ((h.ask a ha b hb).resolve_right (by simp [hp]))
    · intro hp'
      simp at hp'
    · intro e he hns
      have hold : .executor e ∈ s.cell.watching ∨ .executor e ∈ s.cell.notices := by
        simp at he
        tauto
      obtain ⟨h1, h2, -⟩ := h.watched e hold (by simp [hp])
      exact ⟨h1, h2, by simp⟩
    · intro e he
      simp at he
      exact h.apart e he.1
    · intro e c hc hact
      exact ⟨by simp, (h.active e c hc hact).2⟩
  | @terminatedOther r v hp hr hd hv hne =>
    -- either the task is not taken, or the notice is about its executor
    have hkeep : s.asks = [] ∧ ∀ e, .executor e ∈ s.cell.watching ∨
        .executor e ∈ s.cell.notices → r = .executor e := by
      cases ht : s.cell.actor.isTaken with
      | false =>
        obtain ⟨hnil, hnone⟩ := h.free hp ht
        refine ⟨hnil, ?_⟩
        intro e he
        rcases he with he | he
        · exact absurd he (hnone e).1
        · exact absurd he (hnone e).2
      | true =>
        cases r with
        | vm u =>
          have hu := (hok u rfl ht hd).1
          exact absurd (congrArg Ref.vm (Option.some.inj (hu.symm.trans hv))) hne
        | executor x =>
          obtain ⟨hnil, hx, -⟩ := h.watched x (.inr hr) (by simp [hp])
          refine ⟨hnil, ?_⟩
          intro e he
          have he' := (h.watched e he (by simp [hp])).2.1
          rw [Option.some.inj (hx.symm.trans he')]
    obtain ⟨hnil, honly⟩ := hkeep
    have hnone : ∀ e, .executor e ∉ s.cell.watching := by
      intro e he
      have hre := honly e (.inl he)
      subst hre
      exact h.apart e hr he
    constructor
    · simp [hnil]
    · simp [hnil]
    · intro e he
      simp at he
      rcases he with he | he
      · exact absurd he (hnone e)
      · exact absurd (honly e (.inr he.1)).symm he.2
    · intro e he
      simp at he ⊢
      exact hnone e
    · intro e c hc hact
      exact absurd (h.active e c hc hact).2 (hnone e)
  | callbackStopped hp hp' hx hw hn =>
    constructor
    · intro a _ b _
      exact .inr hp'
    · intro hrun
      simp [hp'] at hrun
    · intro e _ hns
      exact absurd hp' hns
    · intro e he hw'
      exact h.apart e (hn e he) (hw e hw')
    · intro e c hc hact
      rw [hx] at hc
      exact absurd hp (h.active e c hc hact).1
  | @offerFails e a v ha hk he => exact h.offerEnds ha rfl rfl rfl rfl rfl
  | @offerUnmatched r a ha hk hh hq => exact h.offerEnds ha rfl rfl rfl rfl rfl
  | @acquireRemote r a alive hp ha hk hh hq =>
    have hnil := h.no_asks_left hp ha
    have hnone := h.none_watched hp ha
    constructor
    · simp only [hnil, List.nil_append, List.mem_singleton]
      intro x hx y hy
      exact .inl (hx.trans hy.symm)
    · intro hrun _
      have htaken := h.taken (by simpa using hrun) (List.ne_nil_of_mem ha)
      simpa using htaken
    · intro e he
      simp at he
      rcases he with he | he
      · exact absurd he (hnone e).1
      · exact absurd he (hnone e).2
    · intro e he
      simp at he
      exact absurd he (hnone e).2
    · intro e c hc hact
      exact absurd (h.active e c hc hact).2 (hnone e).1
  | @acquireLocal r a x alive hp ha hk hh hq hx =>
    refine h.newExecutor hp ha (by simp) rfl (by simp) ?_ rfl
    simp
  | @address a target v x hp ha hk hv hx =>
    exact h.newExecutor hp ha rfl rfl rfl (fun _ => ⟨id, id⟩) rfl
  | @addressNull a target x hp ha hk hv hx =>
    exact h.newExecutor hp ha rfl rfl rfl (fun _ => ⟨id, id⟩) rfl
  | @addressFails a target v ha hk hv => exact h.offerEnds ha rfl rfl rfl rfl rfl
  | @addressFailsNull a target ha hk hv => exact h.offerEnds ha rfl rfl rfl rfl rfl
  | throws hx hl ht => exact h.rephase hx (by simp [ExecutorCell.Live, hl]) rfl id
  | failedNotTaken hx hy hp ht => exact h.judge hx hy
  | failedReset hx hy hp ht =>
    exact OneAttempt.judge (h.assign rfl rfl) hx hy
  | failedEscalate hx hy hp ht hr =>
    exact (OneAttempt.judge (h.assign rfl rfl) hx hy).fail hp
  | failedRaises hx hy hp ht hn hf => exact (h.judge hx hy).fail hp
  | failedStopped hx hy hp => exact h.judge hx hy

end TaskSide

/-! ## Runs of the handshake -/

namespace World

/-- Task actor `t` has sent `ExecuteTask` to executor `e`, which has
neither terminated nor been stopped by it. -/
def RunsFor (w : World) (t e : ℕ) : Prop := (w.executor e).task = t ∧ (w.executor e).Active

instance (w : World) (t e : ℕ) : Decidable (w.RunsFor t e) := inferInstanceAs (Decidable (_ ∧ _))

def OneExecutor (w : World) : Prop :=
  ∀ t e e', w.RunsFor t e → w.RunsFor t e' → e = e'

end World

/-- The condition: a `Terminated` of a machine resets a taken task only
if it is the machine of the current attempt, and that attempt waits for
no answer. -/
def ResetsCurrent (_ : List Event) (w : World) : Event → Prop
  | .terminated t (.vm v) =>
      (w.task t).actor.isTaken = true → (w.task t).actor.taskDone = false →
        (w.task t).actor.targetVm = some v ∧
          ((∀ a ∈ w.asks, a.task ≠ t) ∨ (w.task t).actor.executorActor = none)
  | _ => True

instance (es : List Event) (w : World) : DecidablePred (ResetsCurrent es w) := fun e => by
  unfold ResetsCurrent
  split <;> infer_instance

theorem ResetsCurrent.side {es : List Event} {w : World} {e : Event}
    (h : ResetsCurrent es w e) (t : ℕ) : (w.side t).ResetsCurrent t e := by
  intro v he ht hd
  subst he
  obtain ⟨hv, ha⟩ := h ht hd
  refine ⟨hv, ha.imp_left ?_⟩
  intro hno
  refine List.filter_eq_nil_iff.mpr ?_
  intro a ha'
  simpa using hno a ha'

theorem oneAttempt_init (t : ℕ) : (World.init.side t).OneAttempt := by
  constructor <;> simp [World.side, World.init, ExecutorCell.of]

/-- The invariant of the runs that meet the condition. -/
theorem oneAttempt_run {es : List Event} {w : World} (h : handshake.Run ResetsCurrent es w) :
    ∀ t, (w.side t).OneAttempt := by
  have hinv : w.Numbered ∧ ∀ t, (w.side t).OneAttempt := by
    refine h.state_invariant (I := fun w => w.Numbered ∧ ∀ t, (w.side t).OneAttempt)
      ⟨World.numbered_init, oneAttempt_init⟩ ?_
    intro es w e w' hw hok hs
    have hm := World.step_moves hs
    exact ⟨World.numbered_step hw.1 hm,
      fun t => (hw.2 t).step (hok.side t) (World.side_step hw.1 hm)⟩
  exact hinv.2

theorem RunsFor.side {w : World} {t e : ℕ} (h : w.RunsFor t e) :
    (w.side t).executors e = some (w.executor e) ∧ (w.executor e).Active :=
  ⟨World.of_eq_some.mpr ⟨rfl, h.1, h.2.2.1.1⟩, h.2⟩

/-- **One attempt at a time**, in the runs whose resets are about the
current attempt. -/
theorem one_executor {es : List Event} {w : World} (h : handshake.Run ResetsCurrent es w) :
    w.OneExecutor := by
  intro t e e' he he'
  have hone := oneAttempt_run h t
  have hcur : ∀ x, w.RunsFor t x → (w.task t).actor.executorActor = some x := by
    intro x hx
    obtain ⟨hc, hact⟩ := RunsFor.side hx
    obtain ⟨hp, hw⟩ := hone.active x _ hc hact
    exact (hone.watched x (.inl hw) hp).2.1
  exact Option.some.inj ((hcur e he).symm.trans (hcur e' he'))

/-! ### Two runs -/

/-- An outside nothing here asks. -/
def idleOutside : VMProxyActor.Outside :=
  ⟨⟨fun _ => none, some, fun _ _ => true, fun _ _ => true, fun uri _ _ => some uri,
    fun _ => .error "", fun _ => none, fun _ => true⟩, .alphabetical, fun _ => .refused⟩

/-- Machine `v` is provisioned and gets ready. -/
def provision (v : ℕ) : List Event :=
  [.vmTakes v ⟨none, .init⟩ idleOutside, .configure v ⟨"1.0", []⟩ idleOutside,
    .vmInput v (.setVmActor (some 0)) idleOutside,
    .vmInput v (.setInstanceActor (some 0)) idleOutside]

/-- Machine `v` takes the task of `t`, in handshake `h`. -/
def accept (t v h : ℕ) : List Event :=
  [.getTask t v, .vmTakes v ⟨some h, .sendTask⟩ idleOutside, .reply ⟨h, v, .acquireExecutor⟩]

/-- A task that any node may execute. -/
def anyTask : Task := ⟨"Suite", "test", false, false⟩

/-- Machine 0 takes the task, an executor is started, and the machine is
lost: the executor is stopped. -/
def lostRun : List Event :=
  .create 0 anyTask "run" :: provision 0 ++ accept 0 0 1 ++
    [.address ⟨1, 0, .executorAddress 0⟩, .vmDies 0, .terminated 0 (.vm 0)]

theorem one_executor_lostRun :
    ∃ w, handshake.Run ResetsCurrent lostRun w ∧ (w.executor 2).stopped = true ∧
      w.OneExecutor := by
  obtain ⟨w, hrun, hstop⟩ := @EventSystem.exists_run_of_execWhen _ _ handshake ResetsCurrent _
    (fun w => (w.executor 2).stopped = true) _ lostRun (by decide)
  exact ⟨w, hrun, hstop, one_executor hrun⟩

/-- No executor is available for machine 0; the task goes to machine 1.
When machine 0 dies, still watched, the task is reset and goes to
machine 2, while the executor of machine 1 runs on. -/
def overlapRun : List Event :=
  .create 0 anyTask "run" :: provision 0 ++ provision 1 ++ provision 2 ++ accept 0 0 3 ++
    [.addressFails ⟨3, 0, .executorAddress 0⟩] ++ accept 0 1 4 ++
    [.address ⟨4, 0, .executorAddress 1⟩, .vmDies 0, .terminated 0 (.vm 0)] ++ accept 0 2 6 ++
    [.address ⟨6, 0, .executorAddress 2⟩]

/-- **Two executors of one task actor can run at once.** -/
theorem attempts_overlap :
    ¬ ∀ es w, handshake.Run EventSystem.anyStep es w → w.OneExecutor := by
  intro h
  obtain ⟨w, hrun, h5, h7⟩ := @EventSystem.exists_run_of_exec _ _ handshake
    (fun w => w.RunsFor 0 5 ∧ w.RunsFor 0 7) _ overlapRun (by decide)
  exact absurd (h _ _ hrun 0 5 7 h5 h7) (by decide)

end Clustering.Handshake
