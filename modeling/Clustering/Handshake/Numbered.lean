/-
Clustering.Handshake.Numbered — numbers are names.

Executors, handshakes and timers are numbered by one counter. That a
number is never given twice is what makes a number a name, and every
later argument that tells one attempt from another rests on it: the
ask of one handshake is not the ask of another, a new executor is not
an old one.
-/
import Clustering.Handshake.Moves

namespace Clustering.Handshake

open Actors Clustering.Worker Clustering.Vm

namespace World

variable {w w' : World} {t : ℕ}

/-- Numbers from `next` on are unused, asks are told apart by their
handshake, and whatever exists belongs to a task actor that does. -/
structure Numbered (w : World) : Prop where
  executors : ∀ e, w.next ≤ e → (w.executor e).phase = .absent
  executorActor : ∀ t e, (w.task t).actor.executorActor = some e →
    (w.executor e).task = t ∧ (w.executor e).phase ≠ .absent
  asks : ∀ a ∈ w.asks, a.handshake < w.next ∧ (w.task a.task).phase ≠ .absent
  distinct : ∀ a ∈ w.asks, ∀ b ∈ w.asks, a.handshake = b.handshake → a = b
  owners : ∀ e, (w.executor e).phase ≠ .absent → (w.task (w.executor e).task).phase ≠ .absent

theorem numbered_init : World.init.Numbered := by
  constructor <;> simp [World.init, TaskActor.new]

theorem Numbered.vmFrame {v : ℕ} (h : w.Numbered) (hf : VmFrame v w w') : w'.Numbered := by
  have hactor : ∀ t, (w'.task t).actor = (w.task t).actor := by
    intro t
    rcases hf.task with ⟨ht, -⟩ | ⟨ht, -⟩ <;> simp [ht]
  have hphase : ∀ t, (w'.task t).phase = (w.task t).phase := by
    intro t
    rcases hf.task with ⟨ht, -⟩ | ⟨ht, -⟩ <;> simp [ht]
  constructor
  · intro e he
    rw [hf.executor]
    exact h.executors e (Nat.le_trans hf.next he)
  · intro t e he
    rw [hactor] at he
    rw [hf.executor]
    exact h.executorActor t e he
  · intro a ha
    rw [hf.asks] at ha
    rw [hphase]
    exact ⟨Nat.lt_of_lt_of_le (h.asks a ha).1 hf.next, (h.asks a ha).2⟩
  · rw [hf.asks]
    exact h.distinct
  · intro e he
    rw [hf.executor] at he ⊢
    rw [hphase]
    exact h.owners e he

/-- The same executors and asks or fewer, the same task actors. -/
structure Fewer (w w' : World) : Prop where
  executor : ∀ e, (w'.executor e).task = (w.executor e).task ∧
    ((w'.executor e).phase = .absent ↔ (w.executor e).phase = .absent)
  asks : ∀ a ∈ w'.asks, a ∈ w.asks
  next : w.next ≤ w'.next
  phase : ∀ t, (w'.task t).phase = .absent → (w.task t).phase = .absent
  executorActor : ∀ t e, (w'.task t).actor.executorActor = some e →
    (w.task t).actor.executorActor = some e

theorem Numbered.fewer (h : w.Numbered) (hf : Fewer w w') : w'.Numbered := by
  constructor
  · intro e he
    rw [(hf.executor e).2]
    exact h.executors e (Nat.le_trans hf.next he)
  · intro t e he
    rw [(hf.executor e).1, Ne, (hf.executor e).2]
    exact h.executorActor t e (hf.executorActor t e he)
  · intro a ha
    have ha' := h.asks a (hf.asks a ha)
    exact ⟨Nat.lt_of_lt_of_le ha'.1 hf.next, fun hp => ha'.2 (hf.phase _ hp)⟩
  · intro a ha b hb
    exact h.distinct a (hf.asks a ha) b (hf.asks b hb)
  · intro e he
    rw [Ne, (hf.executor e).2] at he
    rw [(hf.executor e).1]
    exact fun hp => h.owners e he (hf.phase _ hp)

theorem Fewer.refl (w : World) : Fewer w w :=
  ⟨fun _ => ⟨rfl, Iff.rfl⟩, fun _ h => h, Nat.le_refl _, fun _ h => h, fun _ _ h => h⟩

theorem Fewer.trans {w w' w'' : World} (h : Fewer w w') (h' : Fewer w' w'') : Fewer w w'' :=
  ⟨fun e => ⟨(h'.executor e).1.trans (h.executor e).1, (h'.executor e).2.trans (h.executor e).2⟩,
   fun a ha => h.asks a (h'.asks a ha), Nat.le_trans h.next h'.next,
   fun t ht => h.phase t (h'.phase t ht),
   fun t e he => h.executorActor t e (h'.executorActor t e he)⟩

/-- Effects that create neither an ask nor an executor. -/
def Harmless : TaskEffect → Prop
  | .askSendTask _ | .askExecutorAddress _ | .createExecutor _ => False
  | _ => True

theorem fewer_updTask {f : TaskCell → TaskCell}
    (hp : (f (w.task t)).phase = .absent → (w.task t).phase = .absent)
    (he : ∀ e, (f (w.task t)).actor.executorActor = some e →
      (w.task t).actor.executorActor = some e) : Fewer w (w.updTask t f) := by
  refine ⟨fun _ => ⟨rfl, Iff.rfl⟩, fun _ h => h, Nat.le_refl _, ?_, ?_⟩
  · intro u hu
    by_cases hut : u = t
    · subst hut
      exact hp (by simpa using hu)
    · simpa [hut] using hu
  · intro u e hu
    by_cases hut : u = t
    · subst hut
      exact he e (by simpa using hu)
    · simpa [hut] using hu

theorem fewer_updExecutor {x : ℕ} {f : ExecutorCell → ExecutorCell}
    (ht : (f (w.executor x)).task = (w.executor x).task)
    (hp : (f (w.executor x)).phase = .absent ↔ (w.executor x).phase = .absent) :
    Fewer w (w.updExecutor x f) := by
  refine ⟨?_, fun _ h => h, Nat.le_refl _, fun _ h => h, fun _ _ h => h⟩
  intro e
  by_cases he : e = x
  · subst he
    simpa using ⟨ht, hp⟩
  · simp [he]

theorem fewer_stopTask : Fewer w (w.stopTask t) := by
  refine ⟨?_, fun _ h => h, Nat.le_refl _, ?_, ?_⟩
  · intro e
    rw [stopTask_executor]
    split
    · exact ⟨rfl, Iff.rfl⟩
    · exact ⟨rfl, Iff.rfl⟩
  · intro u hu
    by_cases hut : u = t <;> simp_all [TaskCell.halt]
  · intro u e hu
    by_cases hut : u = t <;> simp_all [TaskCell.halt]

theorem fewer_perform {h : ℕ} {ef : TaskEffect} (hh : Harmless ef) :
    Fewer w (perform t h w ef) := by
  cases ef with
  | askSendTask => cases hh
  | askExecutorAddress => cases hh
  | createExecutor => cases hh
  | watch r => exact fewer_updTask (by simp) (by simp)
  | unwatch r => exact fewer_updTask (fun h => h) (fun _ h => h)
  | stopExecutor e => exact fewer_updExecutor rfl Iff.rfl
  | stopSelf => exact fewer_stopTask
  | tellVm v m =>
    cases m <;>
      exact ⟨fun _ => ⟨rfl, Iff.rfl⟩, fun _ h => h, Nat.le_refl _, fun _ h => h, fun _ _ h => h⟩
  | executeTask e target =>
    exact fewer_updExecutor (f := fun c => { c with target := some target }) rfl Iff.rfl
  | tellDb m =>
    exact ⟨fun _ => ⟨rfl, Iff.rfl⟩, fun _ h => h, Nat.le_refl _, fun _ h => h, fun _ _ h => h⟩

theorem fewer_foldl {h : ℕ} : ∀ (es : List TaskEffect) (w : World), (∀ ef ∈ es, Harmless ef) →
    Fewer w (es.foldl (perform t h) w)
  | [], w, _ => .refl w
  | ef :: es, w, hes =>
      (fewer_perform (hes ef (by simp))).trans
        (fewer_foldl es _ fun x hx => hes x (by simp [hx]))

theorem fewer_act {h : ℕ} {a : TaskActor} {es : List TaskEffect}
    (ha : ∀ e, a.executorActor = some e → (w.task t).actor.executorActor = some e)
    (hes : ∀ ef ∈ es, Harmless ef) : Fewer w (w.act t h a es) :=
  (fewer_updTask (fun h => h) ha).trans (fewer_foldl es _ hes)

theorem fewer_dropAsk (a : Ask) : Fewer w (w.dropAsk a) :=
  ⟨fun _ => ⟨rfl, Iff.rfl⟩, fun _ h => List.mem_of_mem_filter h, Nat.le_refl _, fun _ h => h,
   fun _ _ h => h⟩

theorem fewer_dropReply (r : Reply) : Fewer w (w.dropReply r) :=
  ⟨fun _ => ⟨rfl, Iff.rfl⟩, fun _ h => h, Nat.le_refl _, fun _ h => h, fun _ _ h => h⟩

theorem fewer_complete (r : Reply) (a : Ask) : Fewer w ((w.dropReply r).dropAsk a) :=
  (fewer_dropReply r).trans (fewer_dropAsk a)

theorem fewer_takeNotice (r : Ref) : Fewer w (w.takeNotice t r) :=
  fewer_updTask (fun h => h) (fun _ h => h)

theorem fewer_failTask (x : Throwable) : Fewer w (w.failTask t x) := by
  refine fewer_updTask ?_ ?_
  · split <;> simp
  · split <;> simp

theorem fewer_judge {e : ℕ} {b : Bool} (hx : (w.executor e).phase ≠ .absent) :
    Fewer w (w.judge e b) :=
  fewer_updExecutor rfl (by simp [hx])

theorem Numbered.newExecutor {h : ℕ} (target : Option ℕ) (hw : w.Numbered)
    (hx : ∀ e, w'.executor e =
      Function.update w.executor w.next ⟨t, h, target, .live, false⟩ e)
    (ha : ∀ a ∈ w'.asks, a ∈ w.asks) (hn : w'.next = w.next + 1)
    (hp : ∀ u, (w'.task u).phase = (w.task u).phase) (ht : (w.task t).phase ≠ .absent)
    (hr : ∀ u e, (w'.task u).actor.executorActor = some e →
      u = t ∧ e = w.next ∨ (w.task u).actor.executorActor = some e) : w'.Numbered := by
  have hfresh : ∀ e, (w.executor e).phase ≠ .absent → e ≠ w.next := by
    intro e he hen
    exact he (hw.executors e (by omega))
  constructor
  · intro e he
    have hne : e ≠ w.next := by omega
    rw [hx, Function.update_of_ne hne]
    exact hw.executors e (by omega)
  · intro u e he
    rcases hr u e he with ⟨rfl, rfl⟩ | he'
    · rw [hx]
      simp
    · obtain ⟨h1, h2⟩ := hw.executorActor u e he'
      rw [hx, Function.update_of_ne (hfresh e h2)]
      exact ⟨h1, h2⟩
  · intro a haw
    obtain ⟨h1, h2⟩ := hw.asks a (ha a haw)
    rw [hp]
    exact ⟨by omega, h2⟩
  · intro a haw b hbw
    exact hw.distinct a (ha a haw) b (ha b hbw)
  · intro e he
    by_cases hen : e = w.next
    · subst hen
      rw [hx, hp]
      simpa using ht
    · rw [hx, Function.update_of_ne hen] at he ⊢
      rw [hp]
      exact hw.owners e he

theorem Numbered.newAsk {a : Ask} (hw : w.Numbered) (hx : w'.executor = w.executor)
    (ha : ∀ b ∈ w'.asks, b = a ∨ b ∈ w.asks ∧ b.handshake ≠ a.handshake) (hn : w.next ≤ w'.next)
    (hp : ∀ u, (w'.task u).phase = (w.task u).phase) (hat : (w.task a.task).phase ≠ .absent)
    (hlt : a.handshake < w'.next)
    (hr : ∀ u, (w'.task u).actor.executorActor = (w.task u).actor.executorActor) :
    w'.Numbered := by
  constructor
  · intro e he
    rw [hx]
    exact hw.executors e (by omega)
  · intro u e he
    rw [hr] at he
    rw [hx]
    exact hw.executorActor u e he
  · intro b hb
    rw [hp]
    rcases ha b hb with rfl | ⟨hb', _⟩
    · exact ⟨hlt, hat⟩
    · exact ⟨Nat.lt_of_lt_of_le (hw.asks b hb').1 hn, (hw.asks b hb').2⟩
  · intro b hb c hc hbc
    rcases ha b hb with rfl | ⟨hb', hbn⟩
    · rcases ha c hc with rfl | ⟨hc', hcn⟩
      · rfl
      · exact absurd hbc.symm hcn
    · rcases ha c hc with rfl | ⟨hc', hcn⟩
      · exact absurd hbc hbn
      · exact hw.distinct b hb' c hc' hbc
  · intro e he
    rw [hx] at he ⊢
    rw [hp]
    exact hw.owners e he

theorem Numbered.create {task : Task} {tablename : String} (hw : w.Numbered)
    (hp : (w.task t).phase = .absent) :
    (w.updTask t fun _ => ⟨.new task tablename, .running, [], [], []⟩).Numbered := by
  have hphase : ∀ u, (w.task u).phase ≠ .absent →
      ((w.updTask t fun _ => ⟨.new task tablename, .running, [], [], []⟩).task u).phase ≠
        .absent := by
    intro u hu
    by_cases hut : u = t
    · subst hut
      simp
    · simpa [hut] using hu
  constructor
  · exact hw.executors
  · intro u e he
    by_cases hut : u = t
    · subst hut
      simp [TaskActor.new] at he
    · exact hw.executorActor u e (by simpa [hut] using he)
  · intro a ha
    exact ⟨(hw.asks a ha).1, hphase _ (hw.asks a ha).2⟩
  · exact hw.distinct
  · intro e he
    exact hphase _ (hw.owners e he)

theorem numbered_step {e : Event} (hw : w.Numbered) (hm : w.Moves e w') : w'.Numbered := by
  cases hm with
  | create hp => exact hw.create hp
  | getTaskTaken hp ht => exact hw
  | @getTask t v hp ht =>
    refine hw.newAsk (a := ⟨w.next, t, .sendTask v⟩) rfl ?_ (Nat.le_succ _) ?_ (by simp [hp])
      (Nat.lt_succ_self _) ?_
    · intro b hb
      simp [act, perform, setActor, toVm] at hb
      rcases hb with hb | rfl
      · exact .inr ⟨hb, Nat.ne_of_lt (hw.asks b hb).1⟩
      · exact .inl rfl
    · intro u
      by_cases hu : u = t <;> simp [act, perform, toVm, setActor, hu]
    · intro u
      by_cases hu : u = t <;> simp [act, perform, toVm, setActor, hu]
  | persistAndSuicide hp => exact hw.fewer (fewer_act (by simp) (by simp [Harmless]))
  | terminatedDone hp hr hd =>
    exact hw.fewer ((fewer_takeNotice _).trans (fewer_act (by simp [takeNotice])
      (by simp [Harmless])))
  | terminatedTarget hp hr hd hv hx =>
    exact hw.fewer ((fewer_takeNotice _).trans (fewer_act (by simp) (by simp [Harmless])))
  | terminatedNull hp hr hd hn =>
    exact hw.fewer (((fewer_takeNotice _).trans (fewer_act (by simp [takeNotice])
      (by simp))).trans (fewer_failTask _))
  | terminatedOther hp hr hd hv hne =>
    exact hw.fewer ((fewer_takeNotice _).trans (fewer_act (by simp [takeNotice])
      (by simp [Harmless])))
  | stop ha hs => exact hw.fewer fewer_stopTask
  | lateReply hr hn => exact hw.fewer (fewer_dropReply _)
  | @acquireRemote r a hr ha hh hk hq hc hl =>
    refine hw.newAsk (a := ⟨a.handshake, a.task, .executorAddress r.vm⟩) rfl ?_ (Nat.le_refl _)
      ?_ (hw.asks a ha).2 (hw.asks a ha).1 ?_
    · intro b hb
      simp [act, perform, setActor, watch] at hb
      rcases hb with ⟨hb, hne⟩ | rfl
      · exact .inr ⟨hb, fun hh => hne (hw.distinct b hb a ha hh)⟩
      · exact .inl rfl
    · intro u
      by_cases hu : u = a.task <;> simp [act, perform, watch, setActor, hu]
    · intro u
      by_cases hu : u = a.task <;> simp [act, perform, watch, setActor, hu]
  | @acquireLocal r a hr ha hh hk hq hp hl =>
    refine hw.newExecutor (t := a.task) (h := a.handshake) (some r.vm) ?_ ?_ rfl ?_
      (hw.asks a ha).2 ?_
    · intro e
      by_cases he : e = w.next <;> simp [act, perform, watch, setActor, toVm, he]
    · intro b hb
      exact List.mem_of_mem_filter hb
    · intro u
      by_cases hu : u = a.task <;>
        simp [act, perform, watch, setActor, toVm, hu]
    · intro u e he
      by_cases hu : u = a.task
      · subst hu
        simp [act, perform, watch, setActor, toVm] at he
        exact .inl ⟨rfl, he.symm⟩
      · exact .inr (by simpa [act, perform, watch, setActor, toVm, hu] using he)
  | acquireTerminating hr ha hh hk hq hp =>
    exact hw.fewer ((fewer_complete _ _).trans (fewer_act (by simp) (by simp [Harmless])))
  | acquireTerminated hr ha hh hk hq hp =>
    exact hw.fewer ((fewer_complete _ _).trans (fewer_act (by simp [dropReply]) (by simp)))
  | replyOther hr ha hh hk hq =>
    exact hw.fewer ((fewer_complete _ _).trans (fewer_act (by simp [dropReply]) (by simp)))
  | replyFailure hr ha hh hk hq =>
    exact hw.fewer ((fewer_complete _ _).trans (fewer_act (by simp [dropReply]) (by simp)))
  | sendTaskTimeout ha hk =>
    exact hw.fewer ((fewer_dropAsk _).trans (fewer_act (by simp) (by simp)))
  | @address a target v ha hk hp hv =>
    refine hw.newExecutor (t := a.task) (h := a.handshake) (some target) ?_ ?_ rfl ?_
      (hw.asks a ha).2 ?_
    · intro e
      by_cases he : e = w.next <;> simp [act, perform, watch, setActor, toVm, he]
    · intro b hb
      exact List.mem_of_mem_filter hb
    · intro u
      by_cases hu : u = a.task <;> simp [act, perform, watch, setActor, toVm, hu]
    · intro u e he
      by_cases hu : u = a.task
      · subst hu
        simp [act, perform, watch, setActor, toVm] at he
        exact .inl ⟨rfl, he.symm⟩
      · exact .inr (by simpa [act, perform, watch, setActor, toVm, hu] using he)
  | @addressNull a target ha hk hp hv =>
    refine hw.newExecutor (t := a.task) (h := a.handshake) none ?_ ?_ rfl ?_
      (hw.asks a ha).2 ?_
    · intro e
      by_cases he : e = w.next <;> simp [act, perform, watch, setActor, he]
    · intro b hb
      exact List.mem_of_mem_filter hb
    · intro u
      by_cases hu : u = a.task <;> simp [act, perform, watch, setActor, hu]
    · intro u e he
      by_cases hu : u = a.task
      · subst hu
        simp [act, perform, watch, setActor] at he
        exact .inl ⟨rfl, he.symm⟩
      · exact .inr (by simpa [act, perform, watch, setActor, hu] using he)
  | addressStopped ha hk hp =>
    exact hw.fewer ((fewer_dropAsk _).trans (fewer_act (by simp) (by simp)))
  | addressFails ha hk hv =>
    exact hw.fewer ((fewer_dropAsk _).trans (fewer_act (by simp) (by simp [Harmless])))
  | addressFailsNull ha hk hv =>
    exact hw.fewer ((fewer_dropAsk _).trans (fewer_act (by simp) (by simp)))
  | @vmTakes v m o hv hm => exact hw.vmFrame ((Moves.vmTakes (o := o) hv hm).vmFrame rfl)
  | @vmInput v m o hv hm => exact hw.vmFrame ((Moves.vmInput (o := o) hv hm).vmFrame rfl)
  | @configure v config o hv hc hi =>
    exact hw.vmFrame ((Moves.configure (o := o) hv hc hi).vmFrame rfl)
  | @vmDies v hv => exact hw.vmFrame ((Moves.vmDies hv).vmFrame rfl)
  | throws hp ht => exact hw.fewer (fewer_updExecutor rfl (by simp [hp]))
  | failedNotTaken hx hp ht => exact hw.fewer (fewer_judge (by simp [hx]))
  | @failedReset e v x answer es hx hp ht hes =>
    refine hw.fewer ((fewer_act (by simp) ?_).trans (fewer_judge ?_))
    · rcases hes with ⟨rfl, _⟩ | ⟨rfl, _⟩ <;> simp [Harmless]
    · rcases hes with ⟨rfl, _⟩ | ⟨rfl, _⟩ <;> simp [act, setActor, perform, toVm, hx]
  | @failedEscalate e v x answer es hx hp ht hres hes =>
    refine hw.fewer (((fewer_act (by simp) ?_).trans (fewer_judge ?_)).trans
      (fewer_failTask _))
    · rcases hes with ⟨rfl, _⟩ | ⟨rfl, _⟩ <;> simp [Harmless]
    · rcases hes with ⟨rfl, _⟩ | ⟨rfl, _⟩ <;> simp [act, setActor, perform, toVm, hx]
  | @failedRaises e v x x' answer es hx hp ht hf hes =>
    refine hw.fewer (((fewer_act (by simp) ?_).trans (fewer_judge ?_)).trans
      (fewer_failTask _))
    · rcases hes with ⟨rfl, _⟩ | ⟨rfl, _⟩ <;> simp [Harmless]
    · rcases hes with ⟨rfl, _⟩ | ⟨rfl, _⟩ <;> simp [act, setActor, perform, toVm, hx]
  | failedStopped hx hp => exact hw.fewer (fewer_judge (by simp [hx]))
  | @executorDies e he =>
    refine hw.fewer ⟨?_, fun _ h => h, Nat.le_refl _, ?_, ?_⟩
    · intro x
      by_cases hx : x = e
      · subst hx
        simpa [ExecutorCell.die] using he.1
      · simp [hx]
    · simp
    · simp

/-- Every reachable world is `Numbered`. -/
theorem numbered_run {ok : List Event → World → Event → Prop} {es : List Event}
    (h : handshake.Run ok es w) : w.Numbered :=
  h.state_invariant (I := Numbered) numbered_init
    fun _ _ _ _ hw _ hs => numbered_step hw (step_moves hs)

end World

end Clustering.Handshake
