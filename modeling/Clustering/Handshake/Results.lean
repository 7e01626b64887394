/-
Clustering.Handshake.Results — whose result decides a task.

The supervision decision of a task actor escalates a result whenever
`isTaken` is set. It does not ask which executor the exception comes
from, although an executor stopped with its machine finishes its test
first and may throw when the task has been taken again.

`TaskSide.Attributed` ties the attempts to machines: the ask and the
executor of the current attempt are about `targetVm`, which has not
been reported. `World.Unanswered` is why a later attempt never returns
to a reported machine: it is gone, and no answer of it to a pending ask
is on its way. With these an escalated result is one of the current
attempt, in the runs where the exception of a stopped executor finds
the task free (`JudgesCurrent`). In `stale_result_decides` it does not.
-/
import Clustering.Handshake.Attempts
import Clustering.Handshake.DeathWatch
import Clustering.Handshake.Posted

namespace Clustering.Handshake

open Actors Clustering.Worker Clustering.Vm

namespace TaskSide

structure Attributed (s : TaskSide) : Prop where
  threw : ∀ e c x, s.executors e = some c → c.phase = .threw x → c.target.isSome
  asked : s.cell.phase = .running → ∀ a ∈ s.asks, ∀ v, a.kind = .executorAddress v →
    s.cell.actor.targetVm = some v
  target : s.cell.phase = .running → ∀ e c v, s.executors e = some c → c.Active →
    c.target = some v → s.cell.actor.targetVm = some v
  reported : s.cell.phase = .running → ∀ v, s.cell.actor.targetVm = some v →
    .vm v ∉ s.cell.reported

/-- The invariant says nothing more of an actor that does not run. -/
theorem attributed_of_not_running {s : TaskSide} (hp : s.cell.phase ≠ .running)
    (h : ∀ e c x, s.executors e = some c → c.phase = .threw x → c.target.isSome) :
    s.Attributed :=
  ⟨h, fun hr => absurd hr hp, fun hr => absurd hr hp, fun hr => absurd hr hp⟩

/-- The fields and the history are as before, no ask is new, and no
executor is active that was not. -/
theorem Attributed.of_same {s s' : TaskSide} (h : s.Attributed)
    (hp : s'.cell.phase = .running → s.cell.phase = .running)
    (hv : s'.cell.actor.targetVm = s.cell.actor.targetVm)
    (hr : s'.cell.reported = s.cell.reported)
    (ha : ∀ a ∈ s'.asks, ∀ v, a.kind = .executorAddress v → a ∈ s.asks)
    (hx : ∀ e c, s'.executors e = some c → ∃ d, s.executors e = some d ∧
      c.target = d.target ∧ (c.Active → d.Active) ∧
      ∀ x, c.phase = .threw x → c.target.isSome) : s'.Attributed := by
  constructor
  · intro e c x hc hthrew
    obtain ⟨d, -, -, -, ht⟩ := hx e c hc
    exact ht x hthrew
  · intro hrun a ha' v hk
    rw [hv]
    exact h.asked (hp hrun) a (ha a ha' v hk) v hk
  · intro hrun e c v hc hact ht
    obtain ⟨d, hd, htd, hda, -⟩ := hx e c hc
    rw [hv]
    exact h.target (hp hrun) e d v hd (hda hact) (htd ▸ ht)
  · intro hrun v ht
    rw [hr]
    exact h.reported (hp hrun) v (hv ▸ ht)

theorem Attributed.updExecutor {s : TaskSide} {x : ℕ} {f : ExecutorCell → ExecutorCell}
    (h : s.Attributed)
    (hf : ∀ c, s.executors x = some c → (f c).target = c.target ∧ ((f c).Active → c.Active) ∧
      ∀ y, (f c).phase = .threw y → c.target.isSome) : (s.updExecutor x f).Attributed := by
  refine h.of_same id rfl rfl (fun _ ha _ _ => ha) ?_
  intro e c hc
  by_cases he : e = x
  · subst he
    simp only [updExecutor_executors, Function.update_self, Option.map_eq_some_iff] at hc
    obtain ⟨d, hd, rfl⟩ := hc
    obtain ⟨h1, h2, h3⟩ := hf d hd
    exact ⟨d, hd, h1, h2, by rw [h1]; exact h3⟩
  · simp only [updExecutor_executors, Function.update_of_ne he] at hc
    exact ⟨c, hc, rfl, id, fun x hx => h.threw e c x hc hx⟩

theorem Attributed.judge {s : TaskSide} {x : ℕ} {b : Bool} {y : Throwable} {c : ExecutorCell}
    (h : s.Attributed) (hx : s.executors x = some c) (hy : c.phase = .threw y) :
    (s.judge x b).Attributed := by
  refine h.updExecutor ?_
  intro d hd
  obtain rfl := Option.some.inj (hx.symm.trans hd)
  refine ⟨rfl, ?_, fun z hz => by cases hz⟩
  intro hact
  exact ⟨hact.1, by simp [ExecutorCell.Live, hy], (Bool.or_eq_false_iff.mp hact.2.2).1⟩

theorem Attributed.assign {s : TaskSide} {f : TaskActor → TaskActor} (h : s.Attributed)
    (hv : (f s.cell.actor).targetVm = s.cell.actor.targetVm) : (s.assign f).Attributed :=
  h.of_same id hv rfl (fun _ ha _ _ => ha) fun e c hc =>
    ⟨c, hc, rfl, id, fun x hx => h.threw e c x hc hx⟩

theorem Attributed.fail {s : TaskSide} {y : Throwable} (h : s.Attributed) :
    (s.setPhase (.failed y)).Attributed :=
  attributed_of_not_running (by simp) h.threw

theorem attributed_halt {s : TaskSide}
    (h : ∀ e c x, s.executors e = some c → c.phase = .threw x → c.target.isSome) :
    s.halt.Attributed := by
  refine attributed_of_not_running (by simp [TaskCell.halt]) ?_
  intro e c x hc hx
  simp only [halt_executors, Option.map_eq_some_iff] at hc
  obtain ⟨d, hd, rfl⟩ := hc
  exact h e d x hd hx

/-- A task that has been reset: nothing is asked for, and no executor of
it is active. -/
theorem attributed_reset {s : TaskSide} (hone : s.OneAttempt)
    (ht : s.cell.actor.isTaken = false) (hv : s.cell.actor.targetVm = none)
    (h : ∀ e c x, s.executors e = some c → c.phase = .threw x → c.target.isSome) :
    s.Attributed := by
  refine ⟨h, ?_, ?_, ?_⟩
  · intro hrun a ha
    rw [(hone.free hrun ht).1] at ha
    simp at ha
  · intro hrun e c v hc hact
    exact absurd (hone.active e c hc hact).2 ((hone.free hrun ht).2 e).1
  · intro _ v hv'
    simp [hv] at hv'

/-- The attempt's ask is answered and an executor for `target` is created
while the machine of the attempt is `target`. -/
theorem attributed_newExecutor {s s₀ : TaskSide} {a : Ask} {x : ℕ} {c : ExecutorCell}
    (h : s.Attributed) (hone : s.OneAttempt) (hp : s.cell.phase ≠ .stopped) (ha : a ∈ s.asks)
    (hp₀ : s₀.cell.phase = s.cell.phase) (ha₀ : s₀.asks = s.asks.filter (· ≠ a))
    (hx₀ : s₀.executors = s.executors) (hl : c.phase = .live)
    (hc : s.cell.phase = .running → ∀ v, c.target = some v → s₀.cell.actor.targetVm = some v)
    (hr : s.cell.phase = .running → ∀ v, s₀.cell.actor.targetVm = some v →
      .vm v ∉ s₀.cell.reported) : (s₀.newExecutor x c).Attributed := by
  constructor
  · intro e d y hd hy
    by_cases he : e = x
    · subst he
      simp only [newExecutor_executors, Function.update_self, Option.some.injEq] at hd
      subst hd
      simp [hl] at hy
    · rw [newExecutor_executors, Function.update_of_ne he, hx₀] at hd
      exact h.threw e d y hd hy
  · intro _ b hb
    rw [newExecutor_asks, ha₀, hone.no_asks_left hp ha] at hb
    simp at hb
  · intro hrun e d v hd hact ht
    by_cases he : e = x
    · subst he
      simp only [newExecutor_executors, Function.update_self, Option.some.injEq] at hd
      subst hd
      exact hc (hp₀ ▸ hrun) v ht
    · rw [newExecutor_executors, Function.update_of_ne he, hx₀] at hd
      exact absurd hact (hone.none_active hp ha hd)
  · intro hrun v hv
    exact hr (hp₀ ▸ hrun) v hv

/-- The machine of the answer that ends an offer has not been reported. -/
def Answers (s : TaskSide) (e : Event) : Prop :=
  ∀ r, e = .reply r → ∀ a ∈ s.asks, a.handshake = r.handshake → a.kind = .sendTask r.vm →
    s.cell.phase = .running → .vm r.vm ∉ s.cell.reported

theorem Attributed.step {t : ℕ} {s s' : TaskSide} {e : Event} (h : s.Attributed)
    (hone : s.OneAttempt) (hok : s.ResetsCurrent t e) (hans : s.Answers e)
    (hs : Step t s e s') : s'.Attributed := by
  have hsame : ∀ e c, s.executors e = some c → ∃ d, s.executors e = some d ∧
      c.target = d.target ∧ (c.Active → d.Active) ∧ ∀ x, c.phase = .threw x → c.target.isSome :=
    fun e c hc => ⟨c, hc, rfl, id, fun x hx => h.threw e c x hc hx⟩
  cases hs with
  | idle => exact h
  | create hp ha hx => constructor <;> simp [ha, hx, TaskActor.new]
  | vmTerminates => exact h.of_same (by simp) (by simp) (by simp) (fun _ ha _ _ => ha) hsame
  | @executorDies x =>
    have h1 : (s.updExecutor x .die).Attributed := by
      refine h.updExecutor ?_
      intro c hc
      exact ⟨rfl, by simp [ExecutorCell.Active, ExecutorCell.Live, ExecutorCell.die],
        by simp [ExecutorCell.die]⟩
    exact h1.of_same (by simp) (by simp) (by simp) (fun _ ha _ _ => ha) fun e c hc =>
      ⟨c, hc, rfl, id, fun y hy => h1.threw e c y hc hy⟩
  | @getTask v hh hp ht hlt =>
    refine h.of_same (fun _ => hp) rfl rfl ?_ hsame
    intro a ha u hk
    rcases List.mem_append.mp ha with ha | ha
    · exact ha
    · simp [List.mem_singleton.mp ha] at hk
  | persistAndSuicide hp => exact attributed_halt h.threw
  | stop hp => exact attributed_halt h.threw
  | terminatedDone hp hr hd => exact attributed_halt h.threw
  | @terminatedTarget v x hp hr hd hv hx =>
    refine attributed_reset (hone.step hok (.terminatedTarget hp hr hd hv hx)) rfl rfl ?_
    intro e c y hc hy
    by_cases he : e = x
    · subst he
      simp only [updExecutor_executors, Function.update_self, Option.map_eq_some_iff] at hc
      obtain ⟨d, hd', rfl⟩ := hc
      exact h.threw e d y hd' hy
    · simp only [updExecutor_executors, Function.update_of_ne he] at hc
      exact h.threw e c y hc hy
  | @terminatedNull r hp hr hd hn => exact attributed_of_not_running (by simp) h.threw
  | @terminatedOther r v hp hr hd hv hne =>
    exact attributed_reset (hone.step hok (.terminatedOther hp hr hd hv hne)) rfl rfl h.threw
  | callbackStopped hp hp' hx hw hn =>
    refine attributed_of_not_running (by simp [hp']) ?_
    rw [hx]
    exact h.threw
  | @offerFails e a v ha hk he =>
    exact h.of_same id rfl rfl (fun _ hb _ _ => List.mem_of_mem_filter hb) hsame
  | @offerUnmatched r a ha hk hh hq =>
    exact h.of_same id rfl rfl (fun _ hb _ _ => List.mem_of_mem_filter hb) hsame
  | @acquireRemote r a alive hp ha hk hh hq =>
    constructor
    · exact h.threw
    · intro _ b hb v hbk
      simp only [hone.no_asks_left hp ha, List.nil_append, List.mem_singleton] at hb
      subst hb
      simpa using hbk
    · intro _ e c v hc hact
      exact absurd hact (hone.none_active hp ha hc)
    · intro hrun v hv
      simp only [watch_cell, TaskCell.watch_actor, assign_cell_actor, Option.some.injEq] at hv
      subst hv
      simpa using hans r rfl a ha hh hk (by simpa using hrun)
  | @acquireLocal r a x alive hp ha hk hh hq hx =>
    refine attributed_newExecutor h hone hp ha (by simp) rfl rfl rfl ?_ ?_
    · intro _ v hv
      simpa using hv
    · intro hrun v hv
      simp only [watch_cell, TaskCell.watch_actor, assign_cell_actor, Option.some.injEq] at hv
      subst hv
      simpa using hans r rfl a ha hh hk hrun
  | @address a target v x hp ha hk hv hx =>
    refine attributed_newExecutor h hone hp ha rfl rfl rfl rfl ?_ h.reported
    intro hrun u hu
    obtain rfl := Option.some.inj hu
    exact h.asked hrun a ha _ hk
  | @addressNull a target x hp ha hk hv hx =>
    refine attributed_newExecutor h hone hp ha rfl rfl rfl rfl ?_ h.reported
    simp
  | @addressFails a target v ha hk hv =>
    exact h.of_same id rfl rfl (fun _ hb _ _ => List.mem_of_mem_filter hb) hsame
  | @addressFailsNull a target ha hk hv =>
    exact h.of_same id rfl rfl (fun _ hb _ _ => List.mem_of_mem_filter hb) hsame
  | @throws x y c hx hl ht =>
    refine h.updExecutor ?_
    intro d hd
    obtain rfl := Option.some.inj (hx.symm.trans hd)
    exact ⟨rfl, fun hact => ⟨hact.1, by simp [ExecutorCell.Live, hl], hact.2.2⟩, fun _ _ => ht⟩
  | failedNotTaken hx hy hp ht => exact h.judge hx hy
  | failedReset hx hy hp ht => exact Attributed.judge (h.assign rfl) hx hy
  | failedEscalate hx hy hp ht hr => exact (Attributed.judge (h.assign rfl) hx hy).fail
  | failedRaises hx hy hp ht hn hf => exact (h.judge hx hy).fail
  | failedStopped hx hy hp => exact h.judge hx hy

/-- What a running actor has handled is what it had handled before, and
the notice it takes; with that it is reset. -/
theorem Step.reported {t : ℕ} {s s' : TaskSide} {e : Event} (hs : Step t s e s')
    (hp : s'.cell.phase = .running) {r : Ref} (hr : r ∈ s'.cell.reported) :
    s.cell.phase = .running ∧ r ∈ s.cell.reported ∨
      r ∈ s.cell.notices ∧ s'.cell.actor.isTaken = false := by
  cases hs with
  | create hp' ha hx => simp at hr
  | terminatedTarget hp' hr' hd hv hx =>
    simp only [updExecutor_cell, unwatch_cell, TaskCell.unwatch_reported, assign_cell_reported,
      takeNotice_cell_reported, List.mem_cons] at hr
    rcases hr with rfl | hr
    · exact .inr ⟨hr', by simp⟩
    · exact .inl ⟨hp', hr⟩
  | terminatedOther hp' hr' hd hv hne =>
    simp only [unwatch_cell, TaskCell.unwatch_reported, assign_cell_reported,
      takeNotice_cell_reported, List.mem_cons] at hr
    rcases hr with rfl | hr
    · exact .inr ⟨hr', by simp⟩
    · exact .inl ⟨hp', hr⟩
  | callbackStopped hp' hp'' hx hw hn => simp [hp''] at hp
  | persistAndSuicide hp' => simp [TaskCell.halt] at hp
  | stop hp' => simp [TaskCell.halt] at hp
  | terminatedDone hp' hr' hd => simp [TaskCell.halt] at hp
  | terminatedNull hp' hr' hd hn => simp at hp
  | failedEscalate hx hy hp' ht hr' => simp at hp
  | failedRaises hx hy hp' ht hn hf => simp at hp
  | _ => exact .inl ⟨by simpa using hp, by simpa using hr⟩

end TaskSide

/-! ## What a reported machine can still do -/

namespace World

variable {w w' : World} {e : Event}

/-- A machine that task actor `t` knows to be gone answers none of its
pending offers. -/
def Unanswered (w : World) : Prop :=
  ∀ t v, (w.task t).phase = .running → .vm v ∈ (w.task t).reported →
    (w.vm v).alive = false ∧ ∀ r ∈ w.replies, r.vm = v →
      ∀ a ∈ w.asks, a.task = t → a.handshake = r.handshake → a.kind ≠ .sendTask v

theorem unanswered_step (hn : w.Numbered) (hd : w.DeathWatch) (hp : w.Posted)
    (h : w.Unanswered) (hone : ∀ t, (w'.side t).OneAttempt) (hm : w.Moves e w') :
    w'.Unanswered := by
  intro t v hrun hv
  rcases (side_step hn hm).reported (t := t) hrun hv with ⟨hrun', hv'⟩ | ⟨hno, htaken⟩
  · obtain ⟨hdead, hnone⟩ := h t v hrun' hv'
    obtain ⟨hdead', hold⟩ := hm.dead hdead
    refine ⟨hdead', ?_⟩
    intro r hr hrv a ha hat hah hk
    have hr' := hold r hr hrv
    rcases hm.newAsk ha hk with ha' | hnext
    · exact hnone r hr' hrv a ha' hat hah hk
    · -- the number of the ask was unused when the answer was sent
      have hlt := hp.replies r hr'
      omega
  · have hgone : (w.vm v).alive = false := hd.notices t (.vm v) hno
    refine ⟨(hm.dead hgone).1, ?_⟩
    intro r _ _ a ha hat
    have hnil := ((hone t).free hrun htaken).1
    have ha' : a ∈ (w'.side t).asks := mem_side_asks.mpr ⟨ha, hat⟩
    simp [hnil] at ha'

end World

/-! ## Runs of the handshake -/

/-- The executor threw a result that is not judged yet. -/
def ExecutorCell.ThrewResult (c : ExecutorCell) : Prop :=
  match c.phase with
  | .threw x => x.IsResult
  | _ => False

instance (c : ExecutorCell) : Decidable c.ThrewResult := by
  unfold ExecutorCell.ThrewResult
  split <;> infer_instance

/-- A result thrown by an executor that has been stopped is judged while
its task is free. -/
def StoppedFindsFree (w : World) : Event → Prop
  | .failed e _ => (w.executor e).stopped = true → (w.executor e).ThrewResult →
      (w.task (w.executor e).task).phase = .running →
        (w.task (w.executor e).task).actor.isTaken = false
  | _ => True

instance (w : World) : DecidablePred (StoppedFindsFree w) := fun e => by
  induction e using Event.casesOn <;> delta StoppedFindsFree <;> dsimp only <;> infer_instance

/-- The condition: resets are about the current attempt, and results of
stopped executors find the task free. -/
def JudgesCurrent (es : List Event) (w : World) (e : Event) : Prop :=
  ResetsCurrent es w e ∧ StoppedFindsFree w e

instance (es : List Event) (w : World) : DecidablePred (JudgesCurrent es w) :=
  fun _ => inferInstanceAs (Decidable (_ ∧ _))

namespace World

/-- The exception of executor `e` decides its task: its task actor sets
`taskDone` or escalates. -/
def Decides (w : World) (e : ℕ) (answer : StillAliveAnswer) (x : Throwable) : Prop :=
  (w.executor e).phase = .threw x ∧ (w.task (w.executor e).task).phase = .running ∧
    ((TaskActor.supervisorStrategy x answer (w.task (w.executor e).task).actor).result =
        .ok .escalate ∨
      (w.task (w.executor e).task).actor.taskDone = false ∧
        (TaskActor.supervisorStrategy x answer
          (w.task (w.executor e).task).actor).fields.taskDone = true)

/-- Executor `e` is that of the current attempt, and neither the machine
it was sent to nor `targetVm` has been reported. -/
def Current (w : World) (e : ℕ) : Prop :=
  (w.task (w.executor e).task).actor.executorActor = some e ∧
    ∀ v, (w.executor e).target = some v ∨
        (w.task (w.executor e).task).actor.targetVm = some v →
      .vm v ∉ (w.task (w.executor e).task).reported

instance (w : World) (e : ℕ) (answer : StillAliveAnswer) (x : Throwable) :
    Decidable (w.Decides e answer x) := inferInstanceAs (Decidable (_ ∧ _ ∧ (_ ∨ _ ∧ _)))

/-- Only a result decides, and only of a task that is taken. -/
theorem Decides.taken {w : World} {e : ℕ} {answer : StillAliveAnswer} {x : Throwable}
    (h : w.Decides e answer x) :
    x.IsResult ∧ (w.task (w.executor e).task).actor.isTaken = true := by
  obtain ⟨-, -, hd⟩ := h
  cases ht : (w.task (w.executor e).task).actor.isTaken with
  | false =>
    rw [TaskActor.supervisorStrategy_notTaken ht] at hd
    rcases hd with hd | ⟨hf, hd⟩
    · simp at hd
    · simp [hf] at hd
  | true =>
    refine ⟨?_, rfl⟩
    by_contra hres
    rw [TaskActor.supervisorStrategy_unexpected ht hres] at hd
    simp at hd

end World

theorem attributed_init (t : ℕ) : (World.init.side t).Attributed := by
  constructor <;> simp [World.side, World.init, ExecutorCell.of]

/-- The invariant of the runs that meet the condition. -/
theorem attributed_run {es : List Event} {w : World} (h : handshake.Run JudgesCurrent es w) :
    ∀ t, (w.side t).OneAttempt ∧ (w.side t).Attributed := by
  have hinv : w.Numbered ∧ w.DeathWatch ∧ w.Posted ∧ w.Unanswered ∧
      ∀ t, (w.side t).OneAttempt ∧ (w.side t).Attributed := by
    refine h.state_invariant (I := fun w => w.Numbered ∧ w.DeathWatch ∧ w.Posted ∧
      w.Unanswered ∧ ∀ t, (w.side t).OneAttempt ∧ (w.side t).Attributed) ⟨World.numbered_init,
        World.deathWatch_init, World.posted_init, ?_,
        fun t => ⟨oneAttempt_init t, attributed_init t⟩⟩ ?_
    · intro t v hp
      simp [handshake, World.init] at hp
    · rintro es w e w' ⟨hn, hd, hp, hu, hall⟩ hok hs
      have hm := World.step_moves hs
      have hone : ∀ t, (w'.side t).OneAttempt :=
        fun t => (hall t).1.step (hok.1.side t) (World.side_step hn hm)
      refine ⟨World.numbered_step hn hm, World.deathWatch_step hn hd hm,
        World.posted_step hn hp hm, World.unanswered_step hn hd hp hu hone hm, ?_⟩
      intro t
      refine ⟨hone t, (hall t).2.step (hall t).1 (hok.1.side t) ?_ (World.side_step hn hm)⟩
      rintro r rfl a ha hh hk hrun hrep
      -- an answer of a reported machine would be on its way to a pending ask
      obtain ⟨ha', hat⟩ := World.mem_side_asks.mp ha
      have hnone := (hu t r.vm hrun hrep).2 r ?_ rfl a ha' hat hh
      · exact hnone hk
      · cases hm with
        | lateReply hr hn => exact hr
        | acquireRemote hr => exact hr
        | acquireLocal hr => exact hr
        | acquireTerminating hr => exact hr
        | acquireTerminated hr => exact hr
        | replyOther hr => exact hr
        | replyFailure hr => exact hr
  exact hinv.2.2.2.2

/-- **A result decides the task only if it is one of the current
attempt**, in the runs that meet the condition. -/
theorem result_attributed {es : List Event} {w : World} {e : ℕ} {answer : StillAliveAnswer}
    {x : Throwable} (h : handshake.Run JudgesCurrent es w)
    (hok : JudgesCurrent es w (.failed e answer)) (hd : w.Decides e answer x) :
    x.IsResult ∧ w.Current e := by
  obtain ⟨hres, htaken⟩ := hd.taken
  obtain ⟨hx, hrun, -⟩ := hd
  obtain ⟨hone, hatt⟩ := attributed_run h (w.executor e).task
  have hc : (w.side (w.executor e).task).executors e = some (w.executor e) :=
    World.of_eq_some.mpr ⟨rfl, rfl, by simp [hx]⟩
  have hstop : (w.executor e).stopped = false := by
    cases hs : (w.executor e).stopped with
    | false => rfl
    | true =>
      have hfree := hok.2 hs (by simpa [ExecutorCell.ThrewResult, hx] using hres) hrun
      simp [hfree] at htaken
  have hact : (w.executor e).Active :=
    ⟨hatt.threw e _ x hc hx, by simp [ExecutorCell.Live, hx], hstop⟩
  obtain ⟨hp, hw⟩ := hone.active e _ hc hact
  refine ⟨hres, (hone.watched e (.inl hw) hp).2.1, ?_⟩
  rintro v (hv | hv)
  · exact hatt.reported hrun v (hatt.target hrun e _ v hc hact hv)
  · exact hatt.reported hrun v hv

/-- Machine 0 is lost with the task, which goes to machine 1. -/
def retakenRun : List Event :=
  .create 0 anyTask "run" :: provision 0 ++ provision 1 ++ accept 0 0 2 ++
    [.address ⟨2, 0, .executorAddress 0⟩, .vmDies 0, .terminated 0 (.vm 0)] ++ accept 0 1 4 ++
    [.address ⟨4, 0, .executorAddress 1⟩]

theorem result_attributed_retakenRun :
    ∃ w, handshake.Run JudgesCurrent (retakenRun ++ [.throws 5 (.testSuccess anyTask none)]) w ∧
      w.Decides 5 .alive (.testSuccess anyTask none) ∧ w.Current 5 := by
  obtain ⟨w, hrun, hd, hok⟩ := @EventSystem.exists_run_of_execWhen _ _ handshake JudgesCurrent _
    (fun w => w.Decides 5 .alive (.testSuccess anyTask none) ∧
      ((w.executor 5).stopped = false)) _
    (retakenRun ++ [.throws 5 (.testSuccess anyTask none)]) (by decide)
  exact ⟨w, hrun, hd, (result_attributed hrun ⟨trivial, fun hs => by simp [hok] at hs⟩ hd).2⟩

/-- **The result of an abandoned executor can decide the task**: executor
3 was stopped with machine 0 and finishes its test when executor 5 is
already running it on machine 1. -/
theorem stale_result_decides :
    ¬ ∀ es w e answer x, handshake.Run EventSystem.anyStep es w → w.Decides e answer x →
      w.Current e := by
  intro h
  obtain ⟨w, hrun, hd, hne⟩ := @EventSystem.exists_run_of_exec _ _ handshake
    (fun w => w.Decides 3 .alive (.testSuccess anyTask none) ∧
      (w.task (w.executor 3).task).actor.executorActor = some 5) _
    (retakenRun ++ [.throws 3 (.testSuccess anyTask none)]) (by decide)
  have hcur := (h _ w 3 .alive _ hrun hd).1
  simp [hne] at hcur

end Clustering.Handshake
