/-
Clustering.Handshake.DeathWatch — what a task actor watches is alive,
and what its mailbox reports is gone.

`DeathWatch` is the contract of Akka's death watch, proved of the way
the world interprets `watch`, `unwatch` and the deaths. The reset of a
task rests on it: a machine whose `Terminated` has been handled will
never answer again.
-/
import Clustering.Handshake.Numbered

namespace Clustering.Handshake

open Actors Clustering.Worker Clustering.Vm

namespace World

variable {w w' : World} {t : ℕ}

/-- The actor exists and has not terminated. -/
def Up (w : World) : Ref → Prop
  | .vm v => (w.vm v).alive = true
  | .executor e => (w.executor e).Live

/-- The actor has terminated. -/
def Gone (w : World) : Ref → Prop
  | .vm v => (w.vm v).alive = false
  | .executor e => (w.executor e).phase = .dead

structure DeathWatch (w : World) : Prop where
  watching : ∀ t r, r ∈ (w.task t).watching → w.Up r
  notices : ∀ t r, r ∈ (w.task t).notices → w.Gone r

theorem deathWatch_init : init.DeathWatch := by
  constructor <;> simp [init]

theorem up_iff_refAlive {r : Ref} : w.Up r ↔ w.refAlive r = true := by
  cases r with
  | vm v => exact Iff.rfl
  | executor e => simp [Up, refAlive]

/-- The task actors may change what they watch, the actors live on. -/
theorem DeathWatch.of_same (h : w.DeathWatch)
    (hv : ∀ v, (w'.vm v).alive = (w.vm v).alive)
    (hx : ∀ e, (w.executor e).phase ≠ .absent → ((w'.executor e).Live ↔ (w.executor e).Live) ∧
      ((w.executor e).phase = .dead → (w'.executor e).phase = .dead))
    (hw : ∀ t r, r ∈ (w'.task t).watching → r ∈ (w.task t).watching ∨ w'.Up r)
    (hn : ∀ t r, r ∈ (w'.task t).notices → r ∈ (w.task t).notices ∨ w'.Gone r) :
    w'.DeathWatch := by
  constructor
  · intro t r hr
    rcases hw t r hr with hr' | hr'
    · have hup := h.watching t r hr'
      cases r with
      | vm v => exact (hv v).trans hup
      | executor e => exact (hx e hup.1).1.mpr hup
    · exact hr'
  · intro t r hr
    rcases hn t r hr with hr' | hr'
    · have hgone := h.notices t r hr'
      cases r with
      | vm v => exact (hv v).trans hgone
      | executor e => exact (hx e (by simp [show _ = _ from hgone])).2 hgone
    · exact hr'

theorem DeathWatch.updTask {f : TaskCell → TaskCell} (h : w.DeathWatch)
    (hw : ∀ r ∈ (f (w.task t)).watching, r ∈ (w.task t).watching ∨ w.Up r)
    (hn : ∀ r ∈ (f (w.task t)).notices, r ∈ (w.task t).notices ∨
      w.Gone r) : (w.updTask t f).DeathWatch := by
  refine h.of_same (fun _ => rfl) (fun _ _ => ⟨Iff.rfl, id⟩) ?_ ?_
  · intro u r hr
    by_cases hu : u = t
    · subst hu
      exact hw r (by simpa using hr)
    · exact .inl (by simpa [hu] using hr)
  · intro u r hr
    by_cases hu : u = t
    · subst hu
      exact hn r (by simpa using hr)
    · exact .inl (by simpa [hu] using hr)

theorem DeathWatch.updExecutor {x : ℕ} {f : ExecutorCell → ExecutorCell} (h : w.DeathWatch)
    (hl : (w.executor x).phase ≠ .absent → ((f (w.executor x)).Live ↔ (w.executor x).Live) ∧
      ((w.executor x).phase = .dead → (f (w.executor x)).phase = .dead)) :
    (w.updExecutor x f).DeathWatch := by
  refine h.of_same (fun _ => rfl) ?_ (fun _ _ hr => .inl hr) (fun _ _ hr => .inl hr)
  intro e he
  by_cases hex : e = x
  · subst hex
    simpa using hl he
  · simp [hex]

theorem DeathWatch.stopTask (h : w.DeathWatch) : (w.stopTask t).DeathWatch := by
  refine h.of_same (fun _ => rfl) ?_ ?_ ?_
  · intro e _
    rw [stopTask_executor]
    split
    · exact ⟨Iff.rfl, id⟩
    · exact ⟨Iff.rfl, id⟩
  · intro u r hr
    by_cases hu : u = t
    · simp [hu, TaskCell.halt] at hr
    · exact .inl (by simpa [hu] using hr)
  · intro u r hr
    by_cases hu : u = t
    · simp [hu, TaskCell.halt] at hr
    · exact .inl (by simpa [hu] using hr)

theorem DeathWatch.watch {r : Ref} (h : w.DeathWatch)
    (hr : ∀ e, r = .executor e → (w.executor e).Live) : (w.watch t r).DeathWatch := by
  refine h.updTask ?_ ?_
  · intro r' hr'
    simp only [TaskCell.mem_watch_watching] at hr'
    rcases hr' with hr' | ⟨ha, rfl⟩
    · exact .inl hr'
    · exact .inr (up_iff_refAlive.mpr ha)
  · intro r' hr'
    simp only [TaskCell.mem_watch_notices] at hr'
    rcases hr' with hr' | ⟨ha, rfl⟩
    · exact .inl hr'
    · right
      cases r' with
      | vm v => exact ha
      | executor e =>
        have hlive := hr e rfl
        simp [refAlive, hlive] at ha

/-- Every effect keeps the contract, if an executor is created under an
unused number and watched while it lives. -/
theorem DeathWatch.perform {h : ℕ} {ef : TaskEffect} (hw : w.DeathWatch)
    (hx : ∀ e, ef = .createExecutor e → (w.executor e).phase = .absent)
    (hr : ∀ e, ef = .watch (.executor e) → (w.executor e).Live) :
    (perform t h w ef).DeathWatch := by
  cases ef with
  | askSendTask v =>
    refine hw.of_same ?_ (fun _ _ => ⟨Iff.rfl, id⟩) (fun _ _ hr => .inl hr)
      (fun _ _ hr => .inl hr)
    intro u
    by_cases hu : u = v <;> simp [World.perform, toVm, hu]
  | askExecutorAddress target =>
    exact hw.of_same (fun _ => rfl) (fun _ _ => ⟨Iff.rfl, id⟩) (fun _ _ hr => .inl hr)
      (fun _ _ hr => .inl hr)
  | watch r =>
    refine hw.watch ?_
    rintro e rfl
    exact hr e rfl
  | unwatch r =>
    refine hw.updTask ?_ ?_
    · intro r' hr'
      exact .inl (List.mem_of_mem_filter hr')
    · intro r' hr'
      exact .inl (List.mem_of_mem_filter hr')
  | stopExecutor e => exact hw.updExecutor fun _ => ⟨Iff.rfl, id⟩
  | stopSelf => exact hw.stopTask
  | createExecutor e =>
    have habs := hx e rfl
    have h1 : (w.updExecutor e fun _ => ⟨t, h, none, .live, false⟩).DeathWatch :=
      hw.updExecutor fun hne => absurd habs hne
    exact h1.of_same (fun _ => rfl) (fun _ _ => ⟨Iff.rfl, id⟩) (fun _ _ hr => .inl hr)
      (fun _ _ hr => .inl hr)
  | tellVm v m =>
    have hto : ∀ m', (w.toVm v m').DeathWatch := by
      intro m'
      refine hw.of_same ?_ (fun _ _ => ⟨Iff.rfl, id⟩) (fun _ _ hr => .inl hr)
        (fun _ _ hr => .inl hr)
      intro u
      by_cases hu : u = v <;> simp [toVm, hu]
    cases m <;> exact hto _
  | executeTask e target =>
    exact hw.updExecutor (f := fun c => { c with target := some target })
      fun _ => ⟨Iff.rfl, id⟩
  | tellDb m =>
    exact hw.of_same (fun _ => rfl) (fun _ _ => ⟨Iff.rfl, id⟩) (fun _ _ hr => .inl hr)
      (fun _ _ hr => .inl hr)

/-- Effects that neither create an executor nor watch one. -/
def Plain : TaskEffect → Prop
  | .createExecutor _ | .watch (.executor _) => False
  | _ => True

theorem DeathWatch.foldl {h : ℕ} : ∀ (es : List TaskEffect) {w : World}, w.DeathWatch →
    (∀ ef ∈ es, Plain ef) → (es.foldl (World.perform t h) w).DeathWatch
  | [], _, hw, _ => hw
  | ef :: es, w, hw, hes => by
      have hp := hes ef (by simp)
      have hw' : (World.perform t h w ef).DeathWatch := by
        refine hw.perform ?_ ?_
        · rintro e rfl
          cases hp
        · rintro e rfl
          cases hp
      exact DeathWatch.foldl es hw' fun ef' hef' => hes ef' (by simp [hef'])

theorem DeathWatch.setActor {f : TaskActor → TaskActor} (h : w.DeathWatch) :
    (w.setActor t f).DeathWatch :=
  h.updTask (fun _ hr => .inl hr) (fun _ hr => .inl hr)

theorem DeathWatch.act {h : ℕ} {a : TaskActor} {es : List TaskEffect} (hw : w.DeathWatch)
    (hes : ∀ ef ∈ es, Plain ef) : (w.act t h a es).DeathWatch :=
  DeathWatch.foldl es hw.setActor hes

/-- A new executor is created, watched and sent its task. -/
theorem DeathWatch.newExecutor {h e : ℕ} {es : List TaskEffect} (hw : w.DeathWatch)
    (he : (w.executor e).phase = .absent) (hes : ∀ ef ∈ es, Plain ef) :
    ((.createExecutor e :: .watch (.executor e) :: es).foldl (World.perform t h) w).DeathWatch := by
  have h1 : (World.perform t h w (.createExecutor e)).DeathWatch :=
    hw.perform (by rintro x ⟨⟩; exact he) (by rintro x ⟨⟩)
  have h2 := h1.watch (t := t) (r := .executor e) (by
    rintro x ⟨⟩
    simp [World.perform, ExecutorCell.Live])
  exact DeathWatch.foldl es h2 hes

theorem DeathWatch.dropAsk {a : Ask} (h : w.DeathWatch) : (w.dropAsk a).DeathWatch :=
  h.of_same (fun _ => rfl) (fun _ _ => ⟨Iff.rfl, id⟩) (fun _ _ hr => .inl hr)
    (fun _ _ hr => .inl hr)

theorem DeathWatch.dropReply {r : Reply} (h : w.DeathWatch) : (w.dropReply r).DeathWatch :=
  h.of_same (fun _ => rfl) (fun _ _ => ⟨Iff.rfl, id⟩) (fun _ _ hr => .inl hr)
    (fun _ _ hr => .inl hr)

theorem DeathWatch.takeNotice {r : Ref} (h : w.DeathWatch) : (w.takeNotice t r).DeathWatch :=
  h.updTask (fun _ hr => .inl hr) (fun _ hr => .inl (List.mem_of_mem_filter hr))

theorem DeathWatch.failTask {x : Throwable} (h : w.DeathWatch) : (w.failTask t x).DeathWatch := by
  refine h.updTask ?_ ?_
  · intro r hr
    split at hr <;> exact .inl hr
  · intro r hr
    split at hr <;> exact .inl hr

theorem DeathWatch.rephase {e : ℕ} {f : ExecutorCell → ExecutorCell} (h : w.DeathWatch)
    (hl : (w.executor e).Live) (hf : (f (w.executor e)).Live) :
    (w.updExecutor e f).DeathWatch :=
  h.updExecutor fun _ => ⟨⟨fun _ => hl, fun _ => hf⟩, fun hd => absurd hd hl.2⟩

theorem DeathWatch.judge {e : ℕ} {b : Bool} {x : Throwable} (h : w.DeathWatch)
    (hx : (w.executor e).phase = .threw x) : (w.judge e b).DeathWatch :=
  h.rephase (by simp [ExecutorCell.Live, hx]) (by simp [ExecutorCell.Live])

theorem DeathWatch.killVm {v : ℕ} (h : w.DeathWatch) (hf : VmFrame v w w') : w'.DeathWatch := by
  have halive : ∀ u, u ≠ v → (w'.vm u).alive = (w.vm u).alive := by
    intro u hu
    rw [hf.others u hu]
  have hup : ∀ r, r ≠ .vm v → w.Up r → w'.Up r := by
    intro r hr hu
    cases r with
    | vm u => exact (halive u fun h => hr (congrArg Ref.vm h)).trans hu
    | executor e =>
      show (w'.executor e).Live
      rw [hf.executor]
      exact hu
  have hgone : ∀ r, r ≠ .vm v → w.Gone r → w'.Gone r := by
    intro r hr hg
    cases r with
    | vm u => exact (halive u fun h => hr (congrArg Ref.vm h)).trans hg
    | executor e =>
      show (w'.executor e).phase = .dead
      rw [hf.executor]
      exact hg
  rcases hf.task with ⟨ht, ha⟩ | ⟨ht, ha⟩
  · constructor
    · intro t r hr
      rw [ht] at hr
      by_cases hrv : r = .vm v
      · subst hrv
        exact ha.trans (h.watching t _ hr)
      · exact hup r hrv (h.watching t r hr)
    · intro t r hr
      rw [ht] at hr
      by_cases hrv : r = .vm v
      · subst hrv
        exact ha.trans (h.notices t _ hr)
      · exact hgone r hrv (h.notices t r hr)
  · constructor
    · intro t r hr
      rw [ht, TaskCell.mem_notify_watching] at hr
      exact hup r hr.2 (h.watching t r hr.1)
    · intro t r hr
      rw [ht, TaskCell.mem_notify_notices] at hr
      by_cases hrv : r = .vm v
      · subst hrv
        exact ha
      · exact hgone r hrv (h.notices t r (hr.resolve_right fun hr' => hrv hr'.1))

theorem DeathWatch.killExecutor {e : ℕ} (h : w.DeathWatch) : (w.killExecutor e).DeathWatch := by
  have halive : ∀ v, ((w.killExecutor e).vm v).alive = (w.vm v).alive := by
    intro v
    simp only [killExecutor_vm, VmCell.notify]
    split <;> rfl
  constructor
  · intro t r hr
    rw [killExecutor_task, TaskCell.mem_notify_watching] at hr
    have hup := h.watching t r hr.1
    cases r with
    | vm v => exact (halive v).trans hup
    | executor x =>
      have hx : x ≠ e := fun hx => hr.2 (congrArg Ref.executor hx)
      show ((w.killExecutor e).executor x).Live
      rw [killExecutor_executor, Function.update_of_ne hx]
      exact hup
  · intro t r hr
    rw [killExecutor_task, TaskCell.mem_notify_notices] at hr
    cases r with
    | vm v =>
      have hn := hr.resolve_right fun hr' => by simp at hr'
      exact (halive v).trans (h.notices t _ hn)
    | executor x =>
      show ((w.killExecutor e).executor x).phase = .dead
      by_cases hx : x = e
      · subst hx
        simp [ExecutorCell.die]
      · rw [killExecutor_executor, Function.update_of_ne hx]
        exact h.notices t _ (hr.resolve_right fun hr' => hx (Ref.executor.inj hr'.1))

theorem deathWatch_step {e : Event} (hn : w.Numbered) (h : w.DeathWatch) (hm : w.Moves e w') :
    w'.DeathWatch := by
  have habs : (w.executor w.next).phase = .absent := hn.executors _ (Nat.le_refl _)
  cases hm with
  | create hp => exact h.updTask (by simp) (by simp)
  | getTaskTaken hp ht => exact h
  | getTask hp ht => exact h.act (by simp [Plain])
  | persistAndSuicide hp => exact h.act (by simp [Plain])
  | terminatedDone hp hr hd => exact h.takeNotice.act (by simp [Plain])
  | terminatedTarget hp hr hd hv hx => exact h.takeNotice.act (by simp [Plain])
  | terminatedNull hp hr hd hn => exact (h.takeNotice.act (by simp)).failTask
  | terminatedOther hp hr hd hv hne => exact h.takeNotice.act (by simp [Plain])
  | stop ha hs => exact h.stopTask
  | lateReply hr hn => exact h.dropReply
  | acquireRemote hr ha hh hk hq hc hl => exact h.dropReply.dropAsk.act (by simp [Plain])
  | acquireLocal hr ha hh hk hq hp hl =>
    exact DeathWatch.newExecutor ((h.dropReply.dropAsk.setActor).watch (r := .vm _) (by simp)) habs
      (by simp [Plain])
  | acquireTerminating hr ha hh hk hq hp => exact h.dropReply.dropAsk.act (by simp [Plain])
  | acquireTerminated hr ha hh hk hq hp => exact h.dropReply.dropAsk.act (by simp)
  | replyOther hr ha hh hk hq => exact h.dropReply.dropAsk.act (by simp)
  | replyFailure hr ha hh hk hq => exact h.dropReply.dropAsk.act (by simp)
  | sendTaskTimeout ha hk => exact h.dropAsk.act (by simp)
  | address ha hk hp hv => exact (h.dropAsk.setActor).newExecutor habs (by simp [Plain])
  | addressNull ha hk hp hv => exact (h.dropAsk.setActor).newExecutor habs (by simp)
  | addressStopped ha hk hp => exact h.dropAsk.act (by simp)
  | addressFails ha hk hv => exact h.dropAsk.act (by simp [Plain])
  | addressFailsNull ha hk hv => exact h.dropAsk.act (by simp)
  | @vmTakes v m o hv hm => exact h.killVm ((Moves.vmTakes (o := o) hv hm).vmFrame rfl)
  | @vmInput v m o hv hm => exact h.killVm ((Moves.vmInput (o := o) hv hm).vmFrame rfl)
  | @configure v config o hv hc hi =>
    exact h.killVm ((Moves.configure (o := o) hv hc hi).vmFrame rfl)
  | @vmDies v hv => exact h.killVm ((Moves.vmDies hv).vmFrame rfl)
  | throws hp ht =>
    exact h.rephase (by simp [ExecutorCell.Live, hp]) (by simp [ExecutorCell.Live])
  | failedNotTaken hx hp ht => exact h.judge hx
  | failedReset hx hp ht hes =>
    rcases hes with ⟨rfl, -⟩ | ⟨rfl, -⟩
    · exact (h.act (by simp)).judge (by exact hx)
    · exact (h.act (by simp [Plain])).judge (by exact hx)
  | failedEscalate hx hp ht hres hes =>
    rcases hes with ⟨rfl, -⟩ | ⟨rfl, -⟩
    · exact ((h.act (by simp)).judge (by exact hx)).failTask
    · exact ((h.act (by simp [Plain])).judge (by exact hx)).failTask
  | failedRaises hx hp ht hf hes =>
    rcases hes with ⟨rfl, -⟩ | ⟨rfl, -⟩
    · exact ((h.act (by simp)).judge (by exact hx)).failTask
    · exact ((h.act (by simp [Plain])).judge (by exact hx)).failTask
  | failedStopped hx hp => exact h.judge hx
  | executorDies he => exact h.killExecutor

end World

end Clustering.Handshake
