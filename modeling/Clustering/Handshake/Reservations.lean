/-
Clustering.Handshake.Reservations — a task that is taken is taken by
somebody.

`isTaken` keeps a task from being offered. It is set with the `SendTask`
ask and must be reset by whatever ends the attempt: the callbacks of the
two asks, or the `Terminated` of the executor. `TaskSide.Reserved` says
that one of these is still to come.

The callback of the `SendTask` ask has a case for `AcquireExecutor` and
one for `Failure`. A machine that is not ready answers `NotReadyJet`,
which is neither: the callback raises, and nothing resets the flag. So
the invariant holds in the runs where no such answer reaches a pending
ask (`AnswersOffers`), and `reservation_leaks` is a run in which one
does, sent by a machine that was restarted while its timer kept asking
for tasks.
-/
import Clustering.Handshake.Attempts

namespace Clustering.Handshake

open Actors Clustering.Worker Clustering.Vm

namespace TaskSide

/-- Something will still reset the flag of a taken task. -/
def Reserved (s : TaskSide) : Prop :=
  s.cell.phase ≠ .stopped → s.cell.actor.isTaken = true →
    (∃ a ∈ s.asks, ∃ v, a.kind = .sendTask v) ∨
    (s.cell.actor.targetVm ≠ none ∧ ∃ a ∈ s.asks, ∃ v, a.kind = .executorAddress v) ∨
    (∃ e c, .executor e ∈ s.cell.watching ∧ s.executors e = some c ∧ c.Live) ∨
    ∃ e, .executor e ∈ s.cell.notices

/-- No answer the callback cannot match reaches a pending ask. -/
def AnswersOffers (s : TaskSide) (e : Event) : Prop :=
  ∀ r, e = .reply r → r.toResult = .otherSuccess → s.cell.phase ≠ .stopped →
    ∀ a ∈ s.asks, a.handshake = r.handshake → a.kind ≠ .sendTask r.vm

theorem reserved_of_free {s : TaskSide} (h : s.cell.actor.isTaken = false) : s.Reserved := by
  intro _ ht
  simp [h] at ht

theorem reserved_of_stopped {s : TaskSide} (h : s.cell.phase = .stopped) : s.Reserved :=
  fun hp => absurd h hp

/-- The flag, the asks and the watched executors are as before. -/
theorem Reserved.of_same {s s' : TaskSide} (h : s.Reserved)
    (hp : s'.cell.phase ≠ .stopped → s.cell.phase ≠ .stopped) (ha : s'.asks = s.asks)
    (ht : s'.cell.actor.isTaken = s.cell.actor.isTaken)
    (hv : s'.cell.actor.targetVm = s.cell.actor.targetVm)
    (hw : ∀ e, .executor e ∈ s.cell.watching →
      .executor e ∈ s'.cell.watching ∨ .executor e ∈ s'.cell.notices)
    (hn : ∀ e, .executor e ∈ s.cell.notices → .executor e ∈ s'.cell.notices)
    (hx : ∀ e c, s.executors e = some c → c.Live → .executor e ∈ s'.cell.watching →
      ∃ d, s'.executors e = some d ∧ d.Live) : s'.Reserved := by
  intro hp' ht'
  rw [ha, hv]
  rcases h (hp hp') (ht ▸ ht') with h1 | h2 | ⟨e, c, hew, hec, hl⟩ | ⟨e, he⟩
  · exact .inl h1
  · exact .inr (.inl h2)
  · rcases hw e hew with hew' | hen'
    · obtain ⟨d, hd, hdl⟩ := hx e c hec hl hew'
      exact .inr (.inr (.inl ⟨e, d, hew', hd, hdl⟩))
    · exact .inr (.inr (.inr ⟨e, hen'⟩))
  · exact .inr (.inr (.inr ⟨e, hn e he⟩))

/-- A live executor changes its phase and lives on. -/
theorem Reserved.rephase {s : TaskSide} {x : ℕ} {f : ExecutorCell → ExecutorCell}
    (h : s.Reserved) (hl : ∀ c, s.executors x = some c → (f c).Live) :
    (s.updExecutor x f).Reserved := by
  refine h.of_same id rfl rfl rfl (fun _ he => .inl he) (fun _ he => he) ?_
  intro e c hc hcl _
  by_cases he : e = x
  · subst he
    exact ⟨f c, by simp [hc], hl c hc⟩
  · exact ⟨c, by simp [he, hc], hcl⟩

theorem Reserved.assign {s : TaskSide} {f : TaskActor → TaskActor} (h : s.Reserved)
    (ht : (f s.cell.actor).isTaken = s.cell.actor.isTaken)
    (hv : (f s.cell.actor).targetVm = s.cell.actor.targetVm) : (s.assign f).Reserved :=
  h.of_same id rfl ht hv (fun _ he => .inl he) (fun _ he => he) fun _ c hc hl _ => ⟨c, hc, hl⟩

theorem Reserved.fail {s : TaskSide} {y : Throwable} (h : s.Reserved)
    (hp : s.cell.phase = .running) : (s.setPhase (.failed y)).Reserved :=
  h.of_same (fun _ => by simp [hp]) rfl rfl rfl (fun _ he => .inl he) (fun _ he => he)
    fun _ c hc hl _ => ⟨c, hc, hl⟩

theorem Reserved.judge {s : TaskSide} {x : ℕ} {b : Bool} (h : s.Reserved) :
    (s.judge x b).Reserved :=
  h.rephase fun c _ => by simp [ExecutorCell.Live]

theorem reserved_newExecutor {s : TaskSide} {x : ℕ} {c : ExecutorCell} (hc : c.Live) :
    (s.newExecutor x c).Reserved :=
  fun _ _ => .inr (.inr (.inl ⟨x, c, by simp, by simp, hc⟩))

theorem Reserved.step {t : ℕ} {s s' : TaskSide} {e : Event} (h : s.Reserved)
    (hok : s.AnswersOffers e) (hs : Step t s e s') : s'.Reserved := by
  have hlive : ∀ hd tgt, (⟨t, hd, tgt, .live, false⟩ : ExecutorCell).Live := by
    simp [ExecutorCell.Live]
  cases hs with
  | idle => exact h
  | create hp ha hx => exact reserved_of_free rfl
  | vmTerminates =>
    refine h.of_same (by simp) rfl (by simp) (by simp) ?_ ?_ fun e c hc hl _ => ⟨c, hc, hl⟩
    · intro e he
      simp [he]
    · intro e he
      simp [he]
  | @executorDies x =>
    refine h.of_same (by simp) rfl (by simp) (by simp) ?_ ?_ ?_
    · intro e he
      by_cases hex : e = x
      · subst hex
        simp [he]
      · simp [he, hex]
    · intro e he
      simp [he]
    · intro e c hc hl he
      have hex : e ≠ x := by
        intro hex
        simp [hex] at he
      exact ⟨c, by simp [hex, hc], hl⟩
  | @getTask v hh hp ht hlt =>
    intro _ _
    exact .inl ⟨⟨hh, t, .sendTask v⟩, by simp, v, rfl⟩
  | persistAndSuicide hp => exact reserved_of_stopped rfl
  | stop hp => exact reserved_of_stopped rfl
  | terminatedDone hp hr hd => exact reserved_of_stopped rfl
  | terminatedTarget hp hr hd hv hx => exact reserved_of_free (by simp)
  | terminatedNull hp hr hd hn => exact reserved_of_free rfl
  | terminatedOther hp hr hd hv hne => exact reserved_of_free (by simp)
  | callbackStopped hp hp' hx hw hn => exact reserved_of_stopped hp'
  | offerFails ha hk he => exact reserved_of_free rfl
  | @offerUnmatched r a ha hk hh hq =>
    by_cases hp : s.cell.phase = .stopped
    · exact reserved_of_stopped hp
    · exact absurd hk (hok r rfl hq hp a ha hh)
  | @acquireRemote r a alive hp ha hk hh hq =>
    intro _ _
    refine .inr (.inl ⟨by simp, ⟨a.handshake, t, .executorAddress r.vm⟩, by simp, r.vm, rfl⟩)
  | acquireLocal alive hp ha hk hh hq hx => exact reserved_newExecutor (hlive _ _)
  | address hp ha hk hv hx => exact reserved_newExecutor (hlive _ _)
  | addressNull hp ha hk hv hx => exact reserved_newExecutor (hlive _ _)
  | addressFails ha hk hv => exact reserved_of_free rfl
  | @addressFailsNull a target ha hk hv =>
    -- the attempt of this ask was reset before; the flag is another one's
    intro hp ht
    rcases h hp ht with ⟨b, hb, v, hbk⟩ | ⟨hne, -⟩ | hx | hn
    · refine .inl ⟨b, ?_, v, hbk⟩
      have hba : b ≠ a := by
        intro hba
        simp [hba, hk] at hbk
      simp [hb, hba]
    · exact absurd hv hne
    · exact .inr (.inr (.inl hx))
    · exact .inr (.inr (.inr hn))
  | throws hx hl ht => exact h.rephase fun c _ => by simp [ExecutorCell.Live]
  | failedNotTaken hx hy hp ht => exact h.judge
  | failedReset hx hy hp ht => exact Reserved.judge (h.assign rfl rfl)
  | failedEscalate hx hy hp ht hr =>
    exact Reserved.fail (Reserved.judge (h.assign rfl rfl)) hp
  | failedRaises hx hy hp ht hn hf => exact Reserved.fail h.judge hp
  | failedStopped hx hy hp => exact h.judge

end TaskSide

/-! ## Runs of the handshake -/

/-- The condition: an answer that reaches a pending `SendTask` ask, of a
task actor that has not stopped, is `AcquireExecutor` or `Failure`. -/
def AnswersOffers (_ : List Event) (w : World) : Event → Prop
  | .reply r => r.toResult = .otherSuccess →
      ∀ a ∈ w.asks, a.handshake = r.handshake → (w.task a.task).phase ≠ .stopped →
        a.kind ≠ .sendTask r.vm
  | _ => True

instance (es : List Event) (w : World) : DecidablePred (AnswersOffers es w) := fun e => by
  unfold AnswersOffers
  split <;> infer_instance

namespace World

/-- Every task actor that is taken has an ask pending, a live executor,
or the `Terminated` of one in its mailbox. -/
def NoLeakedReservation (w : World) : Prop :=
  ∀ t, (w.task t).phase ≠ .stopped → (w.task t).actor.isTaken = true →
    (∃ a ∈ w.asks, a.task = t) ∨ (∃ e, (w.executor e).task = t ∧ (w.executor e).Live) ∨
      ∃ e, .executor e ∈ (w.task t).notices

/-- An offer that leads to no executor leaves the task free. (If the
address is not found after a `Terminated` has already ended the offer,
the flag belongs to a later one.) -/
def OfferEnds (w w' : World) : Event → Prop
  | .reply r => ∀ a ∈ w.asks, a.handshake = r.handshake → a.kind = .sendTask r.vm →
      (w.task a.task).phase ≠ .stopped → r.answer ≠ .acquireExecutor →
        (w'.task a.task).actor.isTaken = false
  | .sendTaskTimeout a => (w'.task a.task).actor.isTaken = false
  | .addressFails a => (w'.task a.task).actor.isTaken = false ∨
      (w.task a.task).actor.targetVm = none
  | _ => True

theorem offerEnds_of_moves {es : List Event} {w w' : World} {e : Event} (hw : w.Numbered)
    (hok : AnswersOffers es w e) (hm : w.Moves e w') : OfferEnds w w' e := by
  have hdone : ∀ {a : Ask} {w₀ : World},
      ((w₀.act a.task a.handshake { (w.task a.task).actor with isTaken := false } []).task
        a.task).actor.isTaken = false := by
    intro a w₀
    simp [act, setActor]
  cases e with
  | reply r =>
    intro b hb hbh hbk hbp hq
    -- the ask the reply finds is the only one of its handshake
    have huniq : ∀ a ∈ w.asks, a.handshake = r.handshake → b = a :=
      fun a ha hah => hw.distinct b hb a ha (hbh.trans hah.symm)
    cases hm with
    | lateReply hr hn => exact absurd hbk (hn b hb hbh)
    | acquireRemote hr ha hh hk hq' hc hl => exact absurd hq' hq
    | acquireLocal hr ha hh hk hq' hp hl => exact absurd hq' hq
    | acquireTerminating hr ha hh hk hq' hp => exact absurd hq' hq
    | acquireTerminated hr ha hh hk hq' hp => exact absurd hq' hq
    | replyOther hr ha hh hk hq' => exact absurd hbk (hok hq' b hb hbh hbp)
    | replyFailure hr ha hh hk hq' =>
      rw [huniq _ ha hh]
      exact hdone
  | sendTaskTimeout a =>
    cases hm with
    | sendTaskTimeout ha hk => exact hdone
  | addressFails a =>
    cases hm with
    | addressFails ha hk hv =>
      left
      simp [act, perform, toVm, setActor]
    | addressFailsNull ha hk hv => exact .inr hv
  | _ => trivial

end World

theorem reserved_run {es : List Event} {w : World} (h : handshake.Run AnswersOffers es w) :
    w.Numbered ∧ ∀ t, (w.side t).Reserved := by
  refine h.state_invariant (I := fun w => w.Numbered ∧ ∀ t, (w.side t).Reserved)
    ⟨World.numbered_init, fun t => TaskSide.reserved_of_free rfl⟩ ?_
  intro es w e w' hw hok hs
  have hm := World.step_moves hs
  refine ⟨World.numbered_step hw.1 hm, ?_⟩
  intro t
  refine (hw.2 t).step ?_ (World.side_step hw.1 hm)
  rintro r rfl hq hp a ha hh
  obtain ⟨ha', rfl⟩ := World.mem_side_asks.mp ha
  exact hok hq a ha' hh hp

/-- **No leaked reservation**, in the runs whose offers are answered
with `AcquireExecutor` or `Failure`: a taken task always has something
that will reset it, and an offer that leads to no executor leaves the
task free. -/
theorem no_leaked_reservation {es : List Event} {w : World}
    (h : handshake.Run AnswersOffers es w) :
    w.NoLeakedReservation ∧
      ∀ e w', AnswersOffers es w e → w.step e = some w' → World.OfferEnds w w' e := by
  obtain ⟨hw, hres⟩ := reserved_run h
  constructor
  · intro t hp ht
    rcases hres t hp ht with ⟨a, ha, -⟩ | ⟨-, a, ha, -⟩ | ⟨e, c, -, hc, hl⟩ | hn
    · obtain ⟨ha', hat⟩ := World.mem_side_asks.mp ha
      exact .inl ⟨a, ha', hat⟩
    · obtain ⟨ha', hat⟩ := World.mem_side_asks.mp ha
      exact .inl ⟨a, ha', hat⟩
    · obtain ⟨rfl, hct, -⟩ := World.of_eq_some.mp hc
      exact .inr (.inl ⟨e, hct, hl⟩)
    · exact .inr (.inr hn)
  · intro e w' hok hs
    exact World.offerEnds_of_moves hw hok (World.step_moves hs)

/-- Machine 0 rejects a second task while it executes the first. -/
def rejectedRun : List Event :=
  .create 0 anyTask "run" :: .create 1 anyTask "run" :: provision 0 ++ accept 0 0 1 ++
    [.getTask 1 0, .vmTakes 0 ⟨some 2, .sendTask⟩ idleOutside,
      .reply ⟨2, 0, .failure "no more tasks!"⟩]

theorem no_leaked_reservation_rejectedRun :
    ∃ w, handshake.Run AnswersOffers rejectedRun w ∧ (w.task 0).actor.isTaken = true ∧
      (w.task 1).actor.isTaken = false ∧ w.NoLeakedReservation := by
  obtain ⟨w, hrun, h0, h1⟩ := @EventSystem.exists_run_of_execWhen _ _ handshake AnswersOffers _
    (fun w => (w.task 0).actor.isTaken = true ∧ (w.task 1).actor.isTaken = false) _ rejectedRun
    (by decide)
  exact ⟨w, hrun, h0, h1, (no_leaked_reservation hrun).1⟩

/-- A request with a malformed URL restarts the actor of machine 0. Its
timer fires again, the task is offered, and the new instance, which is
not ready, answers `NotReadyJet`. -/
def notReadyRun : List Event :=
  .create 0 anyTask "run" :: provision 0 ++
    [.vmInput 0 (.restApiRequest ⟨"GET", "no url", some [], some [], none⟩) idleOutside,
      .vmTakes 0 ⟨none, .init⟩ idleOutside, .getTask 0 0,
      .vmTakes 0 ⟨some 1, .sendTask⟩ idleOutside, .reply ⟨1, 0, .notReadyJet⟩]

/-- **A reservation can leak**: the timer that asked for the task is
still running, and nothing will ever reset the task. -/
theorem reservation_leaks :
    ¬ ∀ es w, handshake.Run EventSystem.anyStep es w → w.NoLeakedReservation := by
  intro h
  obtain ⟨w, hrun, hp, ht, ha, hn, hl, -⟩ := @EventSystem.exists_run_of_exec _ _ handshake
    (fun w => (w.task 0).phase = .running ∧ (w.task 0).actor.isTaken = true ∧ w.asks = [] ∧
      (w.task 0).notices = [] ∧ (∀ e < w.next, (w.executor e).phase = .absent) ∧
      (w.vm 0).timers = [0]) _ notReadyRun (by decide)
  rcases h _ _ hrun 0 (by simp [hp]) ht with ⟨a, ha', -⟩ | ⟨e, -, he⟩ | ⟨e, he⟩
  · simp [ha] at ha'
  · rcases Nat.lt_or_ge e w.next with hlt | hge
    · exact he.1 (hl e hlt)
    · exact he.1 ((World.numbered_run hrun).executors e hge)
  · simp [hn] at he

end Clustering.Handshake
