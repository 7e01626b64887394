/-
Clustering.Handshake.Lives — the life of a task actor, as a step sees it.

The task of an actor and its table are given to it once. It is absent,
then running, then failed or not, and in the end stopped; no step leads
back. `Moves.lives` says so for every step of the handshake.
-/
import Clustering.Handshake.Effects

namespace Clustering.Handshake

open Actors Clustering.Worker Clustering.Vm

namespace World

variable {w w' : World} {t u : ℕ}

/-- Task actor `t` is where it was in its life. -/
structure Stays (w w' : World) (t : ℕ) : Prop where
  task : (w'.task t).actor.task = (w.task t).actor.task
  tablename : (w'.task t).actor.tablename = (w.task t).actor.tablename
  phase : (w'.task t).phase = (w.task t).phase

/-- Task actor `t` is where it was in its life, or later. -/
structure Lives (w w' : World) (t : ℕ) : Prop where
  task : (w'.task t).actor.task = (w.task t).actor.task
  tablename : (w'.task t).actor.tablename = (w.task t).actor.tablename
  phase : (w'.task t).phase = (w.task t).phase ∨
    ((w.task t).phase = .running ∧ ∃ x, (w'.task t).phase = .failed x) ∨
      ((w.task t).phase ≠ .absent ∧ (w'.task t).phase = .stopped)

theorem stays_refl (w : World) (t : ℕ) : Stays w w t := ⟨rfl, rfl, rfl⟩

theorem stays_of_eq (h : w'.task = w.task) : Stays w w' t := by
  constructor <;> rw [h]

theorem Stays.trans {w'' : World} (h : Stays w w' t) (h' : Stays w' w'' t) : Stays w w'' t :=
  ⟨h'.task.trans h.task, h'.tablename.trans h.tablename, h'.phase.trans h.phase⟩

theorem Stays.lives (h : Stays w w' t) : Lives w w' t := ⟨h.task, h.tablename, .inl h.phase⟩

theorem Stays.lives_trans {w'' : World} (h : Stays w w' t) (h' : Lives w' w'' t) :
    Lives w w'' t := by
  refine ⟨h'.task.trans h.task, h'.tablename.trans h.tablename, ?_⟩
  have hp := h'.phase
  rw [h.phase] at hp
  exact hp

theorem stays_updTask {f : TaskCell → TaskCell}
    (hf : (f (w.task u)).actor.task = (w.task u).actor.task ∧
      (f (w.task u)).actor.tablename = (w.task u).actor.tablename ∧
      (f (w.task u)).phase = (w.task u).phase) : Stays w (w.updTask u f) t := by
  by_cases ht : t = u
  · subst ht
    obtain ⟨h1, h2, h3⟩ := hf
    constructor <;> simpa using by assumption
  · constructor <;> simp [ht]

/-- Code of a task actor that assigns neither its task nor its table and
does not stop it. -/
theorem stays_act {h : ℕ} {a : TaskActor} {es : List TaskEffect}
    (ht : a.task = (w.task u).actor.task) (hn : a.tablename = (w.task u).actor.tablename)
    (hes : .stopSelf ∉ es) : Stays w (w.act u h a es) t := by
  have ha : ((w.act u h a es).task t).actor = if t = u then a else (w.task t).actor :=
    act_actor t
  by_cases htu : t = u
  · subst htu
    rw [if_pos rfl] at ha
    exact ⟨by rw [ha, ht], by rw [ha, hn], act_phase hes t⟩
  · rw [if_neg htu] at ha
    exact ⟨by rw [ha], by rw [ha], act_phase hes t⟩

/-- The same, after something that is no concern of the task actors. -/
theorem lives_act {z : World} {h : ℕ} {a : TaskActor} {es : List TaskEffect}
    (hz : z.task = w.task) (ht : a.task = (w.task u).actor.task)
    (hn : a.tablename = (w.task u).actor.tablename) (hes : .stopSelf ∉ es) :
    Lives w (z.act u h a es) t := by
  rw [← hz] at ht hn
  exact ((stays_of_eq hz).trans (stays_act ht hn hes)).lives

theorem lives_of_eq (h : w'.task = w.task) : Lives w w' t := (stays_of_eq h).lives

theorem lives_stopTask (hu : (w.task u).phase ≠ .absent) : Lives w (w.stopTask u) t := by
  by_cases ht : t = u
  · subst ht
    refine ⟨?_, ?_, .inr (.inr ⟨hu, ?_⟩)⟩ <;> simp [stopTask, TaskCell.halt]
  · refine ⟨?_, ?_, .inl ?_⟩ <;> simp [stopTask, ht]

theorem lives_failTask (x : Throwable) : Lives w (w.failTask u x) t := by
  by_cases ht : t = u
  · subst ht
    by_cases hp : (w.task t).phase = .running
    · refine ⟨?_, ?_, .inr (.inl ⟨hp, x, ?_⟩)⟩ <;> simp [failTask, hp]
    · refine ⟨?_, ?_, .inl ?_⟩ <;> simp [failTask, hp]
  · refine ⟨?_, ?_, .inl ?_⟩ <;> simp [failTask, ht]

theorem Stays.failTask (h : Stays w w' t) (x : Throwable) : Lives w (w'.failTask u x) t :=
  h.lives_trans (lives_failTask x)

theorem stays_takeNotice (r : Ref) : Stays w (w.takeNotice u r) t :=
  stays_updTask ⟨rfl, rfl, rfl⟩

theorem stays_notify (r : Ref) (h : w'.task t = (w.task t).notify r) : Stays w w' t := by
  constructor <;> rw [h] <;> simp

theorem stays_judge (e : ℕ) (b : Bool) : Stays w (w.judge e b) t := stays_of_eq rfl

/-- A task actor that stops itself. -/
theorem lives_stops {h : ℕ} (es : List TaskEffect) (hu : (w.task u).phase ≠ .absent)
    (hes : .stopSelf ∉ es) :
    Lives w (w.act u h (w.task u).actor (es ++ [.stopSelf])) t := by
  have hs : Stays w (w.act u h (w.task u).actor es) t := stays_act rfl rfl hes
  have hu' : ((w.act u h (w.task u).actor es).task u).phase ≠ .absent := by
    rw [act_phase hes]
    exact hu
  unfold act
  rw [List.foldl_append]
  exact hs.lives_trans (lives_stopTask hu')

theorem lives_vmFrame {v : ℕ} (h : VmFrame v w w') : Lives w w' t := by
  rcases h.task with ⟨ht, -⟩ | ⟨ht, -⟩
  · exact lives_of_eq ht
  · exact (stays_notify (.vm v) (by rw [ht])).lives

/-- **Nothing a step does leads back in the life of a task actor.** -/
theorem Moves.lives {e : Event} (hm : w.Moves e w')
    (he : ∀ task tablename, e ≠ .create t task tablename) : Lives w w' t := by
  have hm' := hm
  cases hm with
  | @create u task tablename hp =>
    have ht : t ≠ u := fun h => he task tablename (h ▸ rfl)
    have hs : Stays w (w.updTask u fun _ => ⟨.new task tablename, .running, [], [], []⟩) t := by
      constructor <;> simp [ht]
    exact hs.lives
  | getTaskTaken hp ht => exact (stays_refl w t).lives
  | getTask hp ht => exact lives_act rfl rfl rfl (by simp)
  | persistAndSuicide hp => exact lives_stops [_] (by simp [hp]) (by simp)
  | @terminatedDone u r hp hr hd =>
    have ha : ((w.takeNotice u r).task u).actor = (w.task u).actor := takeNotice_actor u r
    rw [← ha]
    refine (stays_takeNotice r).lives_trans (lives_stops [] ?_ (by simp))
    simp [takeNotice, hp]
  | @terminatedTarget u v x hp hr hd hv hx =>
    have hs : Stays w (w.takeNotice u (.vm v)) t := stays_takeNotice _
    refine hs.lives_trans (lives_act rfl ?_ ?_ (by simp)) <;> simp [takeNotice]
  | @terminatedNull u r hp hr hd hn =>
    refine ((stays_takeNotice r).trans (stays_act ?_ ?_ (by simp))).failTask _ <;>
      simp [takeNotice]
  | @terminatedOther u v r hp hr hd hv hne =>
    have hs : Stays w (w.takeNotice u r) t := stays_takeNotice r
    refine hs.lives_trans (lives_act rfl ?_ ?_ (by simp)) <;> simp [takeNotice]
  | stop ha hs => exact lives_stopTask ha
  | lateReply hr hn => exact lives_of_eq rfl
  | acquireRemote => exact lives_act rfl rfl rfl (by simp)
  | acquireLocal => exact lives_act rfl rfl rfl (by simp)
  | acquireTerminating => exact lives_act rfl rfl rfl (by simp)
  | acquireTerminated => exact lives_act rfl rfl rfl (by simp)
  | replyOther => exact lives_act rfl rfl rfl (by simp)
  | replyFailure => exact lives_act rfl rfl rfl (by simp)
  | sendTaskTimeout => exact lives_act rfl rfl rfl (by simp)
  | address => exact lives_act rfl rfl rfl (by simp)
  | addressNull => exact lives_act rfl rfl rfl (by simp)
  | addressStopped => exact lives_act rfl rfl rfl (by simp)
  | addressFails => exact lives_act rfl rfl rfl (by simp)
  | addressFailsNull => exact lives_act rfl rfl rfl (by simp)
  | vmTakes hv hmem => exact lives_vmFrame (hm'.vmFrame rfl)
  | vmInput hv ho => exact lives_vmFrame (hm'.vmFrame rfl)
  | configure hv hc hi => exact lives_vmFrame (hm'.vmFrame rfl)
  | vmDies hv => exact lives_vmFrame (hm'.vmFrame rfl)
  | throws hp ht => exact lives_of_eq rfl
  | failedNotTaken hx hp ht => exact lives_of_eq rfl
  | @failedReset e v x answer es hx hp ht hes =>
    have hs : Stays w (w.act (w.executor e).task w.next
        { (w.task (w.executor e).task).actor with taskDone := false } es) t := by
      refine stays_act rfl rfl ?_
      rcases hes with ⟨rfl, -⟩ | ⟨rfl, -⟩ <;> simp
    exact (hs.trans (stays_judge e _)).lives
  | @failedEscalate e v x answer es hx hp ht hres hes =>
    have hs : Stays w (w.act (w.executor e).task w.next
        { (w.task (w.executor e).task).actor with taskDone := true } es) t := by
      refine stays_act rfl rfl ?_
      rcases hes with ⟨rfl, -⟩ | ⟨rfl, -⟩ <;> simp
    exact (hs.trans (stays_judge e _)).failTask x
  | @failedRaises e v x x' answer es hx hp ht hf hes =>
    have hs : Stays w (w.act (w.executor e).task w.next
        (w.task (w.executor e).task).actor es) t := by
      refine stays_act rfl rfl ?_
      rcases hes with ⟨rfl, -⟩ | ⟨rfl, -⟩ <;> simp
    exact (hs.trans (stays_judge e _)).failTask x'
  | failedStopped hx hp => exact lives_of_eq rfl
  | executorDies he => exact (stays_notify _ rfl).lives

/-! ## Offers -/

/-- Task actor `t` offers its task to machine `v`. -/
def Offers (w w' : World) (t v : ℕ) : Prop :=
  ∃ a ∈ w'.asks, a ∉ w.asks ∧ a.task = t ∧ a.kind = .sendTask v

theorem no_offer {v : ℕ} (h : ∀ a ∈ w'.asks, a ∈ w.asks ∨ ∃ u, a.kind = .executorAddress u) :
    ¬ Offers w w' t v := by
  rintro ⟨a, ha, hna, -, hk⟩
  rcases h a ha with ha | ⟨u, hu⟩
  · exact hna ha
  · rw [hk] at hu
    cases hu

/-- Code that makes no offer. -/
theorem no_offer_act {z : World} {h v : ℕ} {a : TaskActor} {es : List TaskEffect}
    (hz : ∀ b ∈ z.asks, b ∈ w.asks) (hes : ∀ ef ∈ es, NoOffer ef) :
    ¬ Offers w (z.act u h a es) t v := by
  refine no_offer ?_
  intro b hb
  rw [act_asks hes] at hb
  rcases List.mem_append.mp hb with hb | hb
  · exact .inl (hz b hb)
  · obtain ⟨ef, -, hb⟩ := List.mem_flatMap.mp hb
    cases ef <;> simp only [makes, List.not_mem_nil, List.mem_singleton] at hb
    exact .inr ⟨_, by rw [hb]⟩

theorem no_offer_vmFrame {v x : ℕ} (h : VmFrame x w w') : ¬ Offers w w' t v := by
  refine no_offer ?_
  intro a ha
  exact .inl (h.asks ▸ ha)

/-- **A task is offered in answer to a `GetTask` only**, to the machine
that asked, and only while it is free. -/
theorem Moves.offers {e : Event} {v : ℕ} (hm : w.Moves e w') (ho : Offers w w' t v) :
    e = .getTask t v ∧ (w.task t).phase = .running ∧ (w.task t).actor.isTaken = false := by
  have hsub : ∀ {P : Prop}, (∀ a ∈ w'.asks, a ∈ w.asks) → P :=
    fun h => absurd ho (no_offer fun a ha => .inl (h a ha))
  have hdrop : ∀ a, ∀ b ∈ (w.dropAsk a).asks, b ∈ w.asks :=
    fun a b hb => List.mem_of_mem_filter hb
  have hm' := hm
  cases hm with
  | @getTask u x hp ht =>
    obtain ⟨a, ha, hna, hat, hk⟩ := ho
    have ha' : a = ⟨w.next, u, .sendTask x⟩ := by
      rw [act_offer] at ha
      have ha : a ∈ w.asks ++ [⟨w.next, u, .sendTask x⟩] := ha
      rcases List.mem_append.mp ha with ha | ha
      · exact absurd ha hna
      · exact List.mem_singleton.mp ha
    subst ha'
    obtain rfl : u = t := hat
    obtain rfl : x = v := AskKind.sendTask.inj hk
    exact ⟨rfl, hp, ht⟩
  | persistAndSuicide hp => exact absurd ho (no_offer_act (fun _ hb => hb) (by simp [NoOffer]))
  | terminatedDone => exact absurd ho (no_offer_act (fun _ hb => hb) (by simp [NoOffer]))
  | terminatedTarget => exact absurd ho (no_offer_act (fun _ hb => hb) (by simp [NoOffer]))
  | terminatedNull hp hr hd hn => exact hsub fun a ha => ha
  | terminatedOther => exact absurd ho (no_offer_act (fun _ hb => hb) (by simp [NoOffer]))
  | acquireRemote => exact absurd ho (no_offer_act (hdrop _) (by simp [NoOffer]))
  | acquireLocal => exact absurd ho (no_offer_act (hdrop _) (by simp [NoOffer]))
  | acquireTerminating => exact absurd ho (no_offer_act (hdrop _) (by simp [NoOffer]))
  | acquireTerminated => exact absurd ho (no_offer_act (hdrop _) (by simp [NoOffer]))
  | replyOther => exact absurd ho (no_offer_act (hdrop _) (by simp [NoOffer]))
  | replyFailure => exact absurd ho (no_offer_act (hdrop _) (by simp [NoOffer]))
  | sendTaskTimeout => exact absurd ho (no_offer_act (hdrop _) (by simp [NoOffer]))
  | address => exact absurd ho (no_offer_act (hdrop _) (by simp [NoOffer]))
  | addressNull => exact absurd ho (no_offer_act (hdrop _) (by simp [NoOffer]))
  | addressStopped => exact absurd ho (no_offer_act (hdrop _) (by simp [NoOffer]))
  | addressFails => exact absurd ho (no_offer_act (hdrop _) (by simp [NoOffer]))
  | addressFailsNull => exact absurd ho (no_offer_act (hdrop _) (by simp [NoOffer]))
  | vmTakes => exact absurd ho (no_offer_vmFrame (hm'.vmFrame rfl))
  | vmInput => exact absurd ho (no_offer_vmFrame (hm'.vmFrame rfl))
  | configure => exact absurd ho (no_offer_vmFrame (hm'.vmFrame rfl))
  | vmDies => exact absurd ho (no_offer_vmFrame (hm'.vmFrame rfl))
  | failedReset hx hp ht hes =>
    rcases hes with ⟨rfl, -⟩ | ⟨rfl, -⟩
    · exact hsub fun a ha => ha
    · exact hsub fun a ha => ha
  | failedEscalate hx hp ht hres hes =>
    rcases hes with ⟨rfl, -⟩ | ⟨rfl, -⟩
    · exact hsub fun a ha => ha
    · exact hsub fun a ha => ha
  | failedRaises hx hp ht hf hes =>
    rcases hes with ⟨rfl, -⟩ | ⟨rfl, -⟩
    · exact hsub fun a ha => ha
    · exact hsub fun a ha => ha
  | _ => exact hsub fun a ha => ha

end World

end Clustering.Handshake
