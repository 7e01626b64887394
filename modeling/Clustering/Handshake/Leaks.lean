/-
Clustering.Handshake.Leaks — who gives a machine's slot back.

A machine that accepts a task gives up its slot and its timer at once.
It gets the slot back from a `Terminated` or a `CannotGetExecutor`, so
from an executor it watches, from a message on its way, or from a task
actor that has yet to process the `AcquireExecutor`. `World.WillFree`
lists these.

Nothing ties the two sides together in between. The reply may find its
ask timed out, the task actor may stop with the reply on its way or
with an address outstanding, another `Terminated` may reset `targetVm`
before the address comes. `KeepsOffers` says that none of this happens;
then the slot is never lost. `lateRun` is the shortest way to lose it:
the reply comes after the timeout.
-/
import Clustering.Handshake.Attempts
import Clustering.Handshake.Posted

namespace Clustering.Handshake

open Actors Clustering.Worker Clustering.Vm

/-- The event completes ask `a`. -/
def Event.Completes (e : Event) (a : Ask) : Prop :=
  e = .sendTaskTimeout a ∨ e = .address a ∨ e = .addressFails a ∨
    ∃ r, e = .reply r ∧ a.handshake = r.handshake ∧ a.kind = .sendTask r.vm

/-- The ask is one for `SendTask`. -/
def Ask.IsOffer (a : Ask) : Prop :=
  match a.kind with
  | .sendTask _ => True
  | .executorAddress _ => False

instance (a : Ask) : Decidable a.IsOffer := by
  unfold Ask.IsOffer
  split <;> infer_instance

/-- Handling the `Terminated` of `r` resets `targetVm`. -/
def TaskCell.Resets (c : TaskCell) (r : Ref) : Prop :=
  c.actor.taskDone = false ∧ c.actor.targetVm ≠ none ∧
    ¬ (c.actor.targetVm.map Ref.vm = some r ∧ c.actor.executorActor = none)

instance (c : TaskCell) (r : Ref) : Decidable (c.Resets r) :=
  inferInstanceAs (Decidable (_ ∧ _ ∧ ¬ (_ ∧ _)))

namespace TaskSide

variable {t : ℕ} {s s' : TaskSide} {e : Event} {a : Ask}

/-- An ask is outstanding until an event completes it. -/
theorem Step.ask (hs : Step t s e s') (hp : s.cell.phase ≠ .stopped) (ha : a ∈ s.asks) :
    a ∈ s'.asks ∨ e.Completes a := by
  have hdrop : ∀ {b : Ask}, (a = b → e.Completes a) →
      a ∈ s.asks.filter (· ≠ b) ∨ e.Completes a := by
    intro b hb
    by_cases hab : a = b
    · exact .inr (hb hab)
    · exact .inl (List.mem_filter.mpr ⟨ha, by simpa using hab⟩)
  cases hs with
  | getTask hp' ht hh => exact .inl (List.mem_append_left _ ha)
  | callbackStopped hp' => exact absurd hp' hp
  | offerFails ha' hk he =>
    refine hdrop ?_
    rintro rfl
    rcases he with rfl | ⟨r, rfl, -, hr, rfl⟩
    · exact .inl rfl
    · exact .inr (.inr (.inr ⟨r, rfl, hr.symm, hk⟩))
  | offerUnmatched ha' hk hh hq =>
    refine hdrop ?_
    rintro rfl
    exact .inr (.inr (.inr ⟨_, rfl, hh, hk⟩))
  | acquireRemote alive hp' ha' hk hh hq =>
    refine (hdrop ?_).imp_left fun h => List.mem_append_left _ h
    rintro rfl
    exact .inr (.inr (.inr ⟨_, rfl, hh, hk⟩))
  | acquireLocal alive hp' ha' hk hh hq hx =>
    refine hdrop ?_
    rintro rfl
    exact .inr (.inr (.inr ⟨_, rfl, hh, hk⟩))
  | address hp' ha' hk hv hx =>
    refine hdrop ?_
    rintro rfl
    exact .inr (.inl rfl)
  | addressNull hp' ha' hk hv hx =>
    refine hdrop ?_
    rintro rfl
    exact .inr (.inl rfl)
  | addressFails ha' hk hv =>
    refine hdrop ?_
    rintro rfl
    exact .inr (.inr (.inl rfl))
  | addressFailsNull ha' hk hv =>
    refine hdrop ?_
    rintro rfl
    exact .inr (.inr (.inl rfl))
  | _ => exact .inl ha

/-- What stops a task actor. -/
theorem Step.stops (hs : Step t s e s') (hp : s.cell.phase ≠ .stopped) :
    s'.cell.phase ≠ .stopped ∨ e = .stop t ∨ (∃ reason, e = .persistAndSuicide t reason) ∨
      ∃ r, e = .terminated t r ∧ s.cell.actor.taskDone = true := by
  cases hs with
  | stop => exact .inr (.inl rfl)
  | persistAndSuicide => exact .inr (.inr (.inl ⟨_, rfl⟩))
  | terminatedDone hp' hr hd => exact .inr (.inr (.inr ⟨_, rfl, hd⟩))
  | callbackStopped hp' => exact absurd hp' hp
  | _ => exact .inl (by simp [hp])

/-- What changes `targetVm` while an ask is outstanding. -/
theorem Step.targetVm {v : ℕ} (hs : Step t s e s') (hp : s.cell.phase ≠ .stopped)
    (ha : a ∈ s.asks) (hv : s.cell.actor.targetVm = some v) :
    s'.cell.actor.targetVm = some v ∨ (∃ r, e = .terminated t r ∧ s.cell.Resets r) ∨
      ∃ r b, e = .reply r ∧ r.answer = .acquireExecutor ∧ b ∈ s.asks ∧
        b.handshake = r.handshake ∧ b.kind = .sendTask r.vm ∧
        s'.cell.actor.targetVm = some r.vm := by
  cases hs with
  | create hp' ha' hx => simp [ha'] at ha
  | terminatedTarget hp' hr hd hv' hx =>
    refine .inr (.inl ⟨_, rfl, hd, by simp [hv'], ?_⟩)
    simp [hx]
  | terminatedOther hp' hr hd hv' hne =>
    refine .inr (.inl ⟨_, rfl, hd, by simp [hv'], ?_⟩)
    rintro ⟨h, -⟩
    rw [hv'] at h
    exact hne (Option.some.inj h).symm
  | persistAndSuicide => exact .inl hv
  | stop => exact .inl hv
  | terminatedDone => exact .inl hv
  | callbackStopped hp' => exact absurd hp' hp
  | acquireRemote alive hp' ha' hk hh hq =>
    exact .inr (.inr ⟨_, _, rfl, hq, ha', hh, hk, by simp⟩)
  | acquireLocal alive hp' ha' hk hh hq hx =>
    exact .inr (.inr ⟨_, _, rfl, hq, ha', hh, hk, by simp⟩)
  | _ => exact .inl (by simpa using hv)

end TaskSide

namespace World

variable {w w' : World} {e : Event} {v : ℕ}

/-- Ask `a` is one in which a machine may have given up its slot. -/
def Holding (w : World) (a : Ask) : Prop :=
  match a.kind with
  | .executorAddress _ => True
  | .sendTask v => ⟨a.handshake, v, .acquireExecutor⟩ ∈ w.replies

instance (w : World) (a : Ask) : Decidable (w.Holding a) := by
  unfold Holding
  split <;> infer_instance

/-- The answer to ask `a` will make its task actor ask for an executor
of machine `v`. -/
def Accepted (w : World) (v : ℕ) (a : Ask) : Prop :=
  a ∈ w.asks ∧ a.kind = .sendTask v ∧ ⟨a.handshake, v, .acquireExecutor⟩ ∈ w.replies ∧
    (w.task a.task).phase ≠ .stopped

/-- The answer to ask `a` will be told machine `v`. -/
def Awaited (w : World) (v : ℕ) (a : Ask) : Prop :=
  a ∈ w.asks ∧ a.kind = .executorAddress v ∧ (w.task a.task).phase ≠ .stopped ∧
    (w.task a.task).actor.targetVm = some v


/-- Machine `v` gets its slot back: from an executor it watches, from a
message on its way, or from a task actor that waits for an answer. -/
def WillFree (w : World) (v : ℕ) : Prop :=
  (∃ x ∈ (w.vm v).watching, (w.executor x).Live) ∨
    (∃ m ∈ (w.vm v).mailbox, m.msg = .cannotGetExecutor ∨ (∃ x, m.msg = .executor x) ∨
      ∃ x, m.msg = .terminated x) ∨
    (∃ a, w.Accepted v a) ∨ ∃ a, w.Awaited v a

/-- No machine waits forever for a task nobody runs. (A machine that has
not handled its own `Init` has no slot to give.) -/
def NoLeakedSlot (w : World) : Prop :=
  ∀ v, (w.vm v).alive = true → (w.vm v).actor.haveSpaceForTasks = false →
    ⟨none, .init⟩ ∉ (w.vm v).mailbox → (w.vm v).actor.ready = true ∧ w.WillFree v

theorem noLeakedSlot_init : init.NoLeakedSlot := by
  intro v _ _ hi
  simp [init] at hi

/-- A reply is on its way until it arrives. -/
theorem Moves.reply_stays (hm : w.Moves e w') {r : Reply} (hr : r ∈ w.replies)
    (he : e ≠ .reply r) : r ∈ w'.replies := by
  have hdrop : ∀ {r' : Reply}, .reply r' ≠ Event.reply r → r ∈ w.replies.erase r' := by
    intro r' hne
    refine (List.mem_erase_of_ne ?_).mpr hr
    rintro rfl
    exact hne rfl
  have hvm : ∀ {w₀ : World} {v o m}, w₀.replies = w.replies →
      r ∈ (w₀.handleVm v o m).replies := by
    intro w₀ v o m h₀
    obtain ⟨s, as, -, -, hreplies, -, -⟩ := handleVm_spec v o m w₀
    rw [hreplies, h₀]
    exact List.mem_append_left _ hr
  cases hm with
  | lateReply => exact hdrop he
  | acquireRemote =>
    rw [act_replies]
    exact hdrop he
  | acquireLocal =>
    rw [act_replies]
    exact hdrop he
  | acquireTerminating =>
    rw [act_replies]
    exact hdrop he
  | acquireTerminated =>
    rw [act_replies]
    exact hdrop he
  | replyOther =>
    rw [act_replies]
    exact hdrop he
  | replyFailure =>
    rw [act_replies]
    exact hdrop he
  | vmTakes hv hmem =>
    refine hvm ?_
    rw [updVm_replies]
    unfold World.noteDeclined
    split
    · split <;> rfl
    · rfl
  | vmInput => exact hvm rfl
  | configure => exact hvm rfl
  | _ => simpa [act_replies, takeNotice, judge, failTask] using hr

/-- The answer that keeps a machine waiting arrives. -/
theorem Accepted.answered {a : Ask} (hn : w.Numbered) (h : w.Accepted v a)
    (hm : w.Moves (.reply ⟨a.handshake, v, .acquireExecutor⟩) w') : w'.WillFree v := by
  obtain ⟨ha, hk, -, hp⟩ := h
  have huniq : ∀ b ∈ w.asks, b.handshake = a.handshake → b = a :=
    fun b hb hh => hn.distinct b hb a ha hh
  cases hm with
  | lateReply hr hno => exact absurd hk (hno a ha rfl)
  | @acquireRemote _ b hr hb hh hk' hq hc hl =>
    obtain rfl := huniq _ hb hh
    refine .inr (.inr (.inr ⟨⟨b.handshake, b.task, .executorAddress v⟩, ?_, rfl, ?_, ?_⟩))
    · rw [act_asks (by simp [NoOffer])]
      exact List.mem_append_right _ (by simp [makes])
    · rw [act_phase (by simp)]
      exact hp
    · rw [act_actor, if_pos rfl]
  | @acquireLocal _ b hr hb hh hk' hq hp' hl =>
    refine .inr (.inl ⟨⟨some b.handshake, .executor w.next⟩, ?_, .inr (.inl ⟨_, rfl⟩)⟩)
    rw [act_vm (by simp [NoOffer])]
    exact List.mem_append_right _ (by simp [posts, envelope])
  | acquireTerminating hr hb hh hk' hq hp' =>
    obtain rfl := huniq _ hb hh
    exact absurd hp' hp
  | acquireTerminated hr hb hh hk' hq hp' =>
    obtain rfl := huniq _ hb hh
    exact absurd hp' hp
  | replyOther hr hb hh hk' hq => simp [Reply.toResult] at hq
  | replyFailure hr hb hh hk' hq => simp [Reply.toResult] at hq

/-- The address a machine is waiting for is found, or is not. -/
theorem Awaited.answered {a : Ask} (h : w.Awaited v a) (hm : w.Moves e w')
    (he : e = .address a ∨ e = .addressFails a) : w'.WillFree v := by
  obtain ⟨ha, hk, hp, hv⟩ := h
  rcases he with rfl | rfl
  · cases hm with
    | address ha' hk' hp' hv' =>
      obtain rfl := Option.some.inj (hv.symm.trans hv')
      refine .inr (.inl ⟨⟨some a.handshake, .executor w.next⟩, ?_, .inr (.inl ⟨_, rfl⟩)⟩)
      rw [act_vm (by simp [NoOffer])]
      exact List.mem_append_right _ (by simp [posts, envelope])
    | addressNull ha' hk' hp' hv' => simp [hv] at hv'
    | addressStopped ha' hk' hp' => exact absurd hp' hp
  · cases hm with
    | addressFails ha' hk' hv' =>
      obtain rfl := Option.some.inj (hv.symm.trans hv')
      refine .inr (.inl ⟨⟨some a.handshake, .cannotGetExecutor⟩, ?_, .inl rfl⟩)
      rw [act_vm (by simp [NoOffer])]
      exact List.mem_append_right _ (by simp [posts, envelope])
    | addressFailsNull ha' hk' hv' => simp [hv] at hv'

end World

/-- The condition: the answer to an offer finds it open. A machine
accepts only an offer whose ask is pending; an ask does not time out,
and a task actor does not stop, while a machine may be waiting for it;
and `targetVm` is not reset or replaced while an address is asked for. -/
def KeepsOffers (_ : List Event) (w : World) : Event → Prop
  | .vmTakes v ⟨some h, .sendTask⟩ _ =>
      (w.vm v).actor.ready = true → (w.vm v).actor.haveSpaceForTasks = true →
        ∃ a ∈ w.asks, a.handshake = h ∧ a.kind = .sendTask v ∧
          (w.task a.task).phase ≠ .stopped
  | .sendTaskTimeout a => ¬ w.Holding a
  | .stop t => ∀ a ∈ w.asks, a.task = t → ¬ w.Holding a
  | .persistAndSuicide t _ => ∀ a ∈ w.asks, a.task = t → ¬ w.Holding a
  | .terminated t r =>
      ((w.task t).actor.taskDone = true → ∀ a ∈ w.asks, a.task = t → ¬ w.Holding a) ∧
        ((w.task t).Resets r → ∀ a ∈ w.asks, a.task = t → a.IsOffer)
  | .reply r => r.answer = .acquireExecutor →
      ∀ a ∈ w.asks, a.handshake = r.handshake → a.kind = .sendTask r.vm →
        ∀ b ∈ w.asks, b.task = a.task → b.kind = .executorAddress r.vm ∨ b.IsOffer
  | _ => True

instance (es : List Event) (w : World) : DecidablePred (KeepsOffers es w) := fun e => by
  induction e using Event.casesOn with
  | vmTakes v l o =>
    induction l using Envelope.casesOn with
    | mk sender m =>
      induction sender using Option.casesOn <;> induction m using VmMessage.casesOn <;>
        delta KeepsOffers <;> dsimp only <;> infer_instance
  | _ => delta KeepsOffers; dsimp only; infer_instance

namespace World

variable {w w' : World} {e : Event} {v : ℕ} {es : List Event}

/-- The condition keeps a task actor with a machine waiting from
stopping. -/
theorem phase_stays {a : Ask} (hn : w.Numbered) (hm : w.Moves e w') (hok : KeepsOffers es w e)
    (ha : a ∈ w.asks) (hh : w.Holding a) (hp : (w.task a.task).phase ≠ .stopped) :
    (w'.task a.task).phase ≠ .stopped := by
  rcases (side_step (t := a.task) hn hm).stops hp with hp' | rfl | ⟨reason, rfl⟩ | ⟨r, rfl, hd⟩
  · exact hp'
  · exact absurd hh (hok a ha rfl)
  · exact absurd hh (hok a ha rfl)
  · exact absurd hh (hok.1 hd a ha rfl)

theorem Accepted.step {a : Ask} (hn : w.Numbered) (ho : w.OnceOffered) (h : w.Accepted v a)
    (hm : w.Moves e w') (hok : KeepsOffers es w e) : w'.WillFree v := by
  by_cases he : e = .reply ⟨a.handshake, v, .acquireExecutor⟩
  · subst he
    exact h.answered hn hm
  · obtain ⟨ha, hk, hr, hp⟩ := h
    have hh : w.Holding a := by simpa [Holding, hk] using hr
    have hside : a ∈ (w.side a.task).asks := mem_side_asks.mpr ⟨ha, rfl⟩
    rcases (side_step (t := a.task) hn hm).ask hp hside with ha' |
        rfl | rfl | rfl | ⟨r, rfl, hrh, hrk⟩
    · exact .inr (.inr (.inl ⟨a, (mem_side_asks.mp ha').1, hk, hm.reply_stays hr he,
        phase_stays hn hm hok ha hh hp⟩))
    · exact absurd hh hok
    · cases hm <;> simp_all
    · cases hm <;> simp_all
    · -- a machine answers an offer once
      exfalso
      have hr' : r ∈ w.replies := by
        cases hm <;> assumption
      have hv : v = r.vm := by
        rw [hk] at hrk
        exact AskKind.sendTask.inj hrk
      have heq := ho.reply _ hr r hr' hv hrh
      exact he (by rw [heq])

theorem Awaited.step {a : Ask} (hn : w.Numbered) (h : w.Awaited v a) (hm : w.Moves e w')
    (hok : KeepsOffers es w e) : w'.WillFree v := by
  by_cases he : e = .address a ∨ e = .addressFails a
  · exact h.answered hm he
  · obtain ⟨ha, hk, hp, hv⟩ := h
    have hh : w.Holding a := by simp [Holding, hk]
    have hoff : ¬ a.IsOffer := by simp [Ask.IsOffer, hk]
    have hside : a ∈ (w.side a.task).asks := mem_side_asks.mpr ⟨ha, rfl⟩
    have hstep := side_step (t := a.task) hn hm
    have htarget : (w'.task a.task).actor.targetVm = some v := by
      rcases hstep.targetVm hp hside hv with hv' | ⟨r, rfl, hres⟩ |
          ⟨r, b, rfl, hq, hb, hbh, hbk, hv'⟩
      · exact hv'
      · exact absurd (hok.2 hres a ha rfl) hoff
      · obtain ⟨hb', hbt⟩ := mem_side_asks.mp hb
        rcases hok hq b hb' hbh hbk a ha hbt.symm with hk' | hk'
        · rw [hk] at hk'
          obtain rfl := AskKind.executorAddress.inj hk'
          exact hv'
        · exact absurd hk' hoff
    rcases hstep.ask hp hside with ha' | rfl | rfl | rfl | ⟨r, rfl, hrh, hrk⟩
    · exact .inr (.inr (.inr ⟨a, (mem_side_asks.mp ha').1, hk,
        phase_stays hn hm hok ha hh hp, htarget⟩))
    · exact absurd hh hok
    · exact absurd (.inl rfl) he
    · exact absurd (.inr rfl) he
    · simp [hk] at hrk

/-- Outside the machines. -/
theorem NoLeakedSlot.calm (hn : w.Numbered) (ho : w.OnceOffered) (hp' : w'.Posted)
    (h : w.NoLeakedSlot) (hm : w.Moves e w') (hc : Calm w w') (hok : KeepsOffers es w e) :
    w'.NoLeakedSlot := by
  intro v halive hfree hinit
  obtain ⟨ms, hms, -⟩ := hc.mailbox v
  rw [hc.alive] at halive
  rw [hc.actor] at hfree ⊢
  rw [hms] at hinit
  obtain ⟨hready, hwill⟩ := h v halive hfree fun hi => hinit (List.mem_append_left _ hi)
  refine ⟨hready, ?_⟩
  rcases hwill with ⟨x, hx, -⟩ | ⟨m, hmem, hmsg⟩ | ⟨a, ha⟩ | ⟨a, ha⟩
  · rcases hc.watching v x hx with hx' | ⟨m, hmem, hmsg⟩
    · exact .inl ⟨x, hx', hp'.watching v x hx'⟩
    · exact .inr (.inl ⟨m, hmem, .inr (.inr ⟨x, hmsg⟩)⟩)
  · refine .inr (.inl ⟨m, ?_, hmsg⟩)
    rw [hms]
    exact List.mem_append_left _ hmem
  · exact ha.step hn ho hm hok
  · exact ha.step hn hm hok

/-- The step of a machine loses nothing that another waits for. -/
theorem WillFree.frame {u : ℕ} (h : w.WillFree u) (hf : VmFrame v w w')
    (hr : ∀ r ∈ w.replies, r ∈ w'.replies)
    (hm : ∀ m ∈ (w.vm u).mailbox, m ∈ (w'.vm u).mailbox)
    (hw : ∀ x ∈ (w.vm u).watching, x ∈ (w'.vm u).watching) : w'.WillFree u := by
  have htask : ∀ t, (w'.task t).phase = (w.task t).phase ∧
      (w'.task t).actor = (w.task t).actor := by
    intro t
    rcases hf.task with ⟨ht, -⟩ | ⟨ht, -⟩ <;> simp [ht]
  rcases h with ⟨x, hx, hl⟩ | ⟨m, hmem, hmsg⟩ | ⟨a, ha, hk, hra, hp⟩ | ⟨a, ha, hk, hp, hv⟩
  · exact .inl ⟨x, hw x hx, by rw [hf.executor]; exact hl⟩
  · exact .inr (.inl ⟨m, hm m hmem, hmsg⟩)
  · refine .inr (.inr (.inl ⟨a, ?_, hk, hr _ hra, ?_⟩))
    · rwa [hf.asks]
    · rwa [(htask _).1]
  · refine .inr (.inr (.inr ⟨a, ?_, hk, ?_, ?_⟩))
    · rwa [hf.asks]
    · rwa [(htask _).1]
    · rwa [(htask _).2]

/-- Message `m`, which has left the mailbox, is one of those `WillFree`
counts. -/
def Returns (m : Envelope) : Prop :=
  m.msg = .cannotGetExecutor ∨ (∃ x, m.msg = .executor x) ∨ ∃ x, m.msg = .terminated x

/-- Machine `v` handles `m`. -/
theorem willFree_handleVm {o : VMProxyActor.Outside} {m : Envelope}
    (h : (w.vm v).actor.haveSpaceForTasks = false → ⟨none, .init⟩ ∉ (w.vm v).mailbox →
      m.msg ≠ .init → (w.vm v).actor.ready = true ∧ (w.WillFree v ∨ Returns m))
    (hacc : m.msg = .sendTask → (w.vm v).actor.ready = true →
      (w.vm v).actor.haveSpaceForTasks = true →
        ∃ a ∈ w.asks, m.about = some a.handshake ∧ a.kind = .sendTask v ∧
          (w.task a.task).phase ≠ .stopped)
    (halive : ((w.handleVm v o m).vm v).alive = true)
    (hfree : ((w.handleVm v o m).vm v).actor.haveSpaceForTasks = false)
    (hinit : ⟨none, .init⟩ ∉ ((w.handleVm v o m).vm v).mailbox) :
    ((w.handleVm v o m).vm v).actor.ready = true ∧ (w.handleVm v o m).WillFree v := by
  obtain ⟨s, as, hs, hside, hreplies, -, -⟩ := handleVm_spec v o m w
  have hf := handleVm_frame v o m w
  have hr : ∀ r ∈ w.replies, r ∈ (w.handleVm v o m).replies := by
    intro r hr
    rw [hreplies]
    exact List.mem_append_left _ hr
  generalize w.handleVm v o m = w' at *
  have hmail : (w'.vm v).mailbox = s.mailbox := congrArg VmSide.mailbox hside
  have hwatch : (w'.vm v).watching = s.watching := congrArg VmSide.watching hside
  have hready : (w'.vm v).actor.ready = s.slot.ready :=
    congrArg (fun c => c.slot.ready) hside
  rw [show (w'.vm v).alive = s.alive from congrArg VmSide.alive hside] at halive
  rw [show (w'.vm v).actor.haveSpaceForTasks = s.slot.free from
    congrArg (fun c => c.slot.free) hside] at hfree
  rw [hmail] at hinit
  rw [hready]
  -- the machine had no slot before either, and `m` changes nothing
  have hold : s.mailbox = (w.vm v).mailbox → s.watching = (w.vm v).watching →
      (w.vm v).actor.haveSpaceForTasks = false → m.msg ≠ .init →
      (Returns m → (w.vm v).actor.ready = false) →
      (w.vm v).actor.ready = true ∧ w'.WillFree v := by
    intro hsm hsw hfree' hi hret
    obtain ⟨h1, h2⟩ := h hfree' (hsm ▸ hinit) hi
    rcases h2 with h2 | h2
    · refine ⟨h1, h2.frame hf hr ?_ ?_⟩
      · rw [hmail, hsm]
        exact fun _ hx => hx
      · rw [hwatch, hsw]
        exact fun _ hx => hx
    · simp [hret h2] at h1
  cases hs with
  | keeps hm hret hi =>
    refine hold rfl rfl hfree hi ?_
    rintro (hx | ⟨x, hx⟩ | ⟨x, hx⟩)
    · exact hret (.inl hx)
    · exact hret (.inr (.inr ⟨x, hx⟩))
    · exact hret (.inr (.inl ⟨x, hx⟩))
  | init hm => simp [VmSide.setSlot] at hfree
  | getsReady hm hi hc =>
    refine ⟨rfl, (hold rfl rfl hfree hi ?_).2⟩
    rintro (hx | ⟨x, hx⟩ | ⟨x, hx⟩) <;> simp [hx, VMProxyActor.Guarded] at hm
  | @configured config ready hm hrd =>
    have h1 := hold rfl rfl hfree (by simp [hm]) (by simp [Returns, hm])
    exact ⟨hrd h1.1, h1.2⟩
  | restarts hm => simp [VmSide.post] at hinit
  | answers hm ha => exact hold rfl rfl hfree (by simp [hm]) (by simp [Returns, hm])
  | accepts hm hrd hfr =>
    obtain ⟨a, ha, habout, hk, hp⟩ := hacc hm hrd hfr
    refine ⟨hrd, .inr (.inr (.inl ⟨a, ?_, hk, ?_, ?_⟩))⟩
    · rwa [hf.asks]
    · rw [hreplies]
      exact List.mem_append_right _ (by simp [repliesTo, habout])
    · rcases hf.task with ⟨ht, -⟩ | ⟨ht, -⟩
      · rwa [ht]
      · rw [ht, TaskCell.notify_phase]
        exact hp
  | stops hm => simp at halive
  | @watches x hm hrd hl =>
    refine ⟨hrd, .inl ⟨x, ?_, by rw [hf.executor]; exact hl⟩⟩
    rw [hwatch]
    exact List.mem_insert_self
  | @watchesDead x hm hrd hl =>
    refine ⟨hrd, .inr (.inl ⟨⟨some (w.executor x).handshake, .terminated x⟩, ?_,
      .inr (.inr ⟨x, rfl⟩)⟩)⟩
    rw [hmail]
    exact List.mem_append_right _ (List.mem_singleton_self _)
  | frees hrd hm => simp [VmSide.setSlot] at hfree

theorem WillFree.take {m : Envelope} (h : w.WillFree v) :
    ((w.noteDeclined v m).updVm v fun c =>
      { c with mailbox := c.mailbox.erase m }).WillFree v ∨ Returns m := by
  obtain ⟨d, hd, -⟩ := noteDeclined_eq (w := w) v m
  rw [hd]
  rcases h with ⟨x, hx, hl⟩ | ⟨m', hmem, hmsg⟩ | ha | ha
  · exact .inl (.inl ⟨x, by simpa using hx, hl⟩)
  · by_cases hmm : m' = m
    · subst hmm
      exact .inr hmsg
    · refine .inl (.inr (.inl ⟨m', ?_, hmsg⟩))
      simp only [updVm_vm, Function.update_self]
      exact (List.mem_erase_of_ne hmm).mpr hmem
  · exact .inl (.inr (.inr (.inl ha)))
  · exact .inl (.inr (.inr (.inr ha)))

theorem noLeakedSlot_step (hn : w.Numbered) (hp : w.Posted) (ho : w.OnceOffered)
    (h : w.NoLeakedSlot) (hok : KeepsOffers es w e) (hm : w.Moves e w') : w'.NoLeakedSlot := by
  cases he : e.machine with
  | none => exact h.calm hn ho (posted_step hn hp hm) hm (hm.calm he) hok
  | some v =>
    have hf := hm.vmFrame he
    have hreply : ∀ r ∈ w.replies, r ∈ w'.replies := by
      intro r hr
      refine hm.reply_stays hr ?_
      rintro rfl
      cases he
    intro u halive hfree hinit
    by_cases hu : u = v
    · subst hu
      have hold := h u (hm.answers he).1
      cases hm with
      | @vmTakes u' m o hv hmem =>
        obtain rfl : u = u' := (Option.some.inj he).symm
        refine willFree_handleVm ?_ ?_ halive hfree hinit
        · obtain ⟨d, hd, -⟩ := noteDeclined_eq (w := w) u m
          intro hfree' hinit' hi
          have hsame : (((w.noteDeclined u m).updVm u fun c =>
              { c with mailbox := c.mailbox.erase m }).vm u).actor = (w.vm u).actor := by
            simp [hd]
          rw [hsame] at hfree' ⊢
          have hne : (⟨none, .init⟩ : Envelope) ≠ m := fun hm' => hi (hm' ▸ rfl)
          have hinit'' : ⟨none, .init⟩ ∉ (w.vm u).mailbox := by
            intro hx
            refine hinit' ?_
            simp only [hd, updVm_vm, Function.update_self]
            exact (List.mem_erase_of_ne hne).mpr hx
          obtain ⟨h1, h2⟩ := hold hfree' hinit''
          exact ⟨h1, h2.take⟩
        · intro hmsg hrd hfr
          obtain ⟨about, msg⟩ := m
          obtain rfl : msg = .sendTask := hmsg
          obtain ⟨d, hd, -⟩ := noteDeclined_eq (w := w) u ⟨about, .sendTask⟩
          simp only [hd, updVm_vm, Function.update_self] at hrd hfr
          cases about with
          | none => exact absurd rfl (hp.names u _ hmem)
          | some x =>
            obtain ⟨a, ha, hax, hk, hph⟩ := hok hrd hfr
            rw [hd]
            exact ⟨a, ha, congrArg some hax.symm, hk, hph⟩
      | @vmInput u' m o hv hout =>
        obtain rfl : u = u' := (Option.some.inj he).symm
        refine willFree_handleVm ?_ ?_ halive hfree hinit
        · intro hfree' hinit' _
          exact (hold hfree' hinit').imp_right .inl
        · rintro rfl
          cases hout
      | @configure u' config o hv hc hi =>
        obtain rfl : u = u' := (Option.some.inj he).symm
        refine willFree_handleVm ?_ (by simp) halive hfree hinit
        intro hfree' hinit' _
        obtain ⟨h1, h2⟩ := hold (by simpa using hfree') (by simpa using hinit')
        refine ⟨by simpa using h1, .inl (h2.frame (v := u)
          (updVm_frame (f := fun c => { c with configured := true }) rfl) (fun _ hr => hr) ?_ ?_)⟩
        · intro x hx
          simpa using hx
        · intro x hx
          simpa using hx
      | vmDies hv =>
        obtain rfl := Option.some.inj he
        simp at halive
      | _ => cases he
    · rw [hf.others u hu] at halive hfree hinit ⊢
      obtain ⟨h1, h2⟩ := h u halive hfree hinit
      refine ⟨h1, h2.frame hf hreply ?_ ?_⟩
      · rw [hf.others u hu]
        exact fun _ hx => hx
      · rw [hf.others u hu]
        exact fun _ hx => hx

end World

/-- **No leaked slot**, in the runs where every answer to an offer finds
it open. -/
theorem no_leaked_slot {es : List Event} {w : World} (h : handshake.Run KeepsOffers es w) :
    w.NoLeakedSlot := by
  have hinv : w.Numbered ∧ w.Posted ∧ w.OnceOffered ∧ w.NoLeakedSlot := by
    refine h.state_invariant (I := fun w => w.Numbered ∧ w.Posted ∧ w.OnceOffered ∧
      w.NoLeakedSlot) ⟨World.numbered_init, World.posted_init, World.onceOffered_init,
        World.noLeakedSlot_init⟩ ?_
    intro es w e w' ⟨hn, hp, ho, hl⟩ hok hs
    have hm := World.step_moves hs
    exact ⟨World.numbered_step hn hm, World.posted_step hn hp hm,
      World.onceOffered_step hp ho hm, World.noLeakedSlot_step hn hp ho hl hok hm⟩
  exact hinv.2.2.2

/-- The machine of a finished test gets its slot back. -/
def finishedRun : List Event :=
  .create 0 anyTask "run" :: provision 0 ++ accept 0 0 1 ++
    [.address ⟨1, 0, .executorAddress 0⟩, .vmTakes 0 ⟨some 1, .executor 2⟩ idleOutside]

theorem no_leaked_slot_finishedRun :
    ∃ w, handshake.Run KeepsOffers finishedRun w ∧
      (w.vm 0).actor.haveSpaceForTasks = false ∧ w.NoLeakedSlot := by
  obtain ⟨w, hrun, hfree⟩ := @EventSystem.exists_run_of_execWhen _ _ handshake KeepsOffers _
    (fun w => (w.vm 0).actor.haveSpaceForTasks = false) _ finishedRun (by decide)
  exact ⟨w, hrun, hfree, no_leaked_slot hrun⟩

/-- The ask times out before machine 0 takes the offer from its mailbox:
the machine accepts, and its answer finds nobody. -/
def lateRun : List Event :=
  .create 0 anyTask "run" :: provision 0 ++
    [.getTask 0 0, .sendTaskTimeout ⟨1, 0, .sendTask 0⟩,
      .vmTakes 0 ⟨some 1, .sendTask⟩ idleOutside, .reply ⟨1, 0, .acquireExecutor⟩]

/-- **A slot can leak**: the machine is ready and has no slot, and there
is no executor, no message and no ask. -/
theorem slot_leaks :
    ¬ ∀ es w, handshake.Run EventSystem.anyStep es w → w.NoLeakedSlot := by
  intro h
  obtain ⟨w, hrun, hv, hf, hmail, hwatch, hasks⟩ := @EventSystem.exists_run_of_exec _ _ handshake
    (fun w => (w.vm 0).alive = true ∧ (w.vm 0).actor.haveSpaceForTasks = false ∧
      (w.vm 0).mailbox = [] ∧ (w.vm 0).watching = [] ∧ w.asks = []) _ lateRun (by decide)
  rcases (h _ w hrun 0 hv hf (by simp [hmail])).2 with ⟨x, hx, -⟩ | ⟨m, hm, -⟩ | ⟨a, ha, -⟩ |
      ⟨a, ha, -⟩
  · simp [hwatch] at hx
  · simp [hmail] at hm
  · simp [hasks] at ha
  · simp [hasks] at ha

end Clustering.Handshake
