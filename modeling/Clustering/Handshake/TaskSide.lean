/-
Clustering.Handshake.TaskSide — the handshake as one task actor sees it.

`TaskSide` keeps of a world what the fate of task actor `t` depends on:
its cell, its outstanding asks, its executors. `TaskSide.Step` is a
transition system on that alone: machines, replies and all other task
actors are gone, and what they do shows only as asks that complete and
watched actors that terminate.

`side_step` is the simulation: every step of the handshake is, for
every task actor, a step of its side. A property of one task actor is
proved on `TaskSide.Step` and carried to the handshake by it.
-/
import Clustering.Handshake.Numbered

namespace Clustering.Handshake

open Actors Clustering.Worker Clustering.Vm

structure TaskSide where
  cell : TaskCell
  asks : List Ask
  executors : ℕ → Option ExecutorCell

/-- Executor cell `c`, if task actor `t` created it. -/
def ExecutorCell.of (t : ℕ) (c : ExecutorCell) : Option ExecutorCell :=
  if c.task = t ∧ c.phase ≠ .absent then some c else none

/-- The side of task actor `t`. -/
def World.side (w : World) (t : ℕ) : TaskSide :=
  ⟨w.task t, w.asks.filter (·.task = t), fun e => (w.executor e).of t⟩

namespace TaskSide

/-- The fields are assigned. -/
@[simps]
def assign (s : TaskSide) (f : TaskActor → TaskActor) : TaskSide :=
  { s with cell := { s.cell with actor := f s.cell.actor } }

@[simps]
def dropAsk (s : TaskSide) (a : Ask) : TaskSide :=
  { s with asks := s.asks.filter (· ≠ a) }

/-- Executor `e` changes. -/
@[simps]
def updExecutor (s : TaskSide) (e : ℕ) (f : ExecutorCell → ExecutorCell) : TaskSide :=
  { s with executors := Function.update s.executors e ((s.executors e).map f) }

/-- The actor takes the `Terminated` of `r`. -/
@[simps]
def takeNotice (s : TaskSide) (r : Ref) : TaskSide :=
  { s with cell := { s.cell with
      notices := s.cell.notices.filter (· ≠ r), reported := r :: s.cell.reported } }

/-- The actor watches `r`, which may be dead. -/
@[simps]
def watch (s : TaskSide) (alive : Bool) (r : Ref) : TaskSide :=
  { s with cell := s.cell.watch alive r }

@[simps]
def unwatch (s : TaskSide) (r : Ref) : TaskSide := { s with cell := s.cell.unwatch r }

/-- Executor `e` is created for handshake `h` and watched. -/
@[simps]
def newExecutor (s : TaskSide) (e : ℕ) (c : ExecutorCell) : TaskSide :=
  { s with
    cell := { s.cell with
      actor := { s.cell.actor with executorActor := some e }
      watching := s.cell.watching.insert (.executor e) }
    executors := Function.update s.executors e (some c) }

@[simps]
def setPhase (s : TaskSide) (p : TaskPhase) : TaskSide :=
  { s with cell := { s.cell with phase := p } }

/-- The actor stops. -/
@[simps]
def halt (s : TaskSide) : TaskSide :=
  { s with cell := s.cell.halt, executors := fun e => (s.executors e).map .stop }

/-- Executor `e` is suspended with its exception judged. -/
@[simps!]
def judge (s : TaskSide) (e : ℕ) (stop : Bool) : TaskSide :=
  s.updExecutor e fun c => { c with phase := .suspended, stopped := c.stopped || stop }

end TaskSide

/-- The steps of task actor `t`'s side. -/
inductive TaskSide.Step (t : ℕ) (s : TaskSide) : Event → TaskSide → Prop
  /-- Nothing of it is concerned. -/
  | idle {e : Event} : Step t s e s
  | create {task : Task} {tablename : String} (hp : s.cell.phase = .absent)
      (ha : s.asks = []) (hx : ∀ e, s.executors e = none) :
      Step t s (.create t task tablename)
        { s with cell := ⟨.new task tablename, .running, [], [], []⟩ }
  /-- Machine `v` terminates. -/
  | vmTerminates {e : Event} {v : ℕ} : Step t s e { s with cell := s.cell.notify (.vm v) }
  /-- Executor `x` terminates, its own or not. -/
  | executorDies {x : ℕ} :
      Step t s (.executorDies x)
        { s.updExecutor x .die with cell := s.cell.notify (.executor x) }
  | getTask {v h : ℕ} (hp : s.cell.phase = .running) (ht : s.cell.actor.isTaken = false)
      (hh : ∀ a ∈ s.asks, a.handshake < h) :
      Step t s (.getTask t v)
        { s.assign fun a => { a with isTaken := true } with
          asks := s.asks ++ [⟨h, t, .sendTask v⟩] }
  | persistAndSuicide {reason : String} (hp : s.cell.phase = .running) :
      Step t s (.persistAndSuicide t reason) s.halt
  | stop (hp : s.cell.phase ≠ .stopped) : Step t s (.stop t) s.halt
  | terminatedDone {r : Ref} (hp : s.cell.phase = .running) (hr : r ∈ s.cell.notices)
      (hd : s.cell.actor.taskDone = true) : Step t s (.terminated t r) (s.takeNotice r).halt
  | terminatedTarget {v x : ℕ} (hp : s.cell.phase = .running)
      (hr : .vm v ∈ s.cell.notices) (hd : s.cell.actor.taskDone = false)
      (hv : s.cell.actor.targetVm = some v) (hx : s.cell.actor.executorActor = some x) :
      Step t s (.terminated t (.vm v))
        ((((s.takeNotice (.vm v)).assign fun a =>
          { a with isTaken := false, executorActor := none, targetVm := none }).unwatch
            (.executor x)).unwatch (.vm v)|>.updExecutor x .stop)
  | terminatedNull {r : Ref} (hp : s.cell.phase = .running) (hr : r ∈ s.cell.notices)
      (hd : s.cell.actor.taskDone = false)
      (hn : s.cell.actor.targetVm = none ∨
        s.cell.actor.targetVm.map Ref.vm = some r ∧ s.cell.actor.executorActor = none) :
      Step t s (.terminated t r)
        (((s.takeNotice r).assign fun a => { a with isTaken := false }).setPhase
          (.failed .matchError))
  | terminatedOther {r : Ref} {v : ℕ} (hp : s.cell.phase = .running)
      (hr : r ∈ s.cell.notices) (hd : s.cell.actor.taskDone = false)
      (hv : s.cell.actor.targetVm = some v) (hne : r ≠ .vm v) :
      Step t s (.terminated t r)
        (((s.takeNotice r).assign fun a =>
          { a with isTaken := false, targetVm := none }).unwatch (.vm v))
  /-- A callback after the actor has stopped. -/
  | callbackStopped {e : Event} {s' : TaskSide} (hp : s.cell.phase = .stopped)
      (hp' : s'.cell.phase = .stopped) (hx : s'.executors = s.executors)
      (hw : ∀ x, .executor x ∈ s'.cell.watching → .executor x ∈ s.cell.watching)
      (hn : ∀ x, .executor x ∈ s'.cell.notices → .executor x ∈ s.cell.notices) : Step t s e s'
  | offerFails {e : Event} {a : Ask} {v : ℕ} (ha : a ∈ s.asks) (hk : a.kind = .sendTask v)
      (he : e = .sendTaskTimeout a ∨
        ∃ r, e = .reply r ∧ r.toResult = .failure ∧ r.handshake = a.handshake ∧ r.vm = v) :
      Step t s e ((s.dropAsk a).assign fun a => { a with isTaken := false })
  | offerUnmatched {r : Reply} {a : Ask} (ha : a ∈ s.asks) (hk : a.kind = .sendTask r.vm)
      (hh : a.handshake = r.handshake) (hq : r.toResult = .otherSuccess) :
      Step t s (.reply r) (s.dropAsk a)
  | acquireRemote {r : Reply} {a : Ask} (alive : Bool) (hp : s.cell.phase ≠ .stopped)
      (ha : a ∈ s.asks) (hk : a.kind = .sendTask r.vm) (hh : a.handshake = r.handshake)
      (hq : r.answer = .acquireExecutor) :
      Step t s (.reply r)
        { ((s.dropAsk a).assign fun a => { a with targetVm := some r.vm }).watch alive
            (.vm r.vm) with
          asks := s.asks.filter (· ≠ a) ++ [⟨a.handshake, t, .executorAddress r.vm⟩] }
  | acquireLocal {r : Reply} {a : Ask} {x : ℕ} (alive : Bool)
      (hp : s.cell.phase ≠ .stopped)
      (ha : a ∈ s.asks) (hk : a.kind = .sendTask r.vm) (hh : a.handshake = r.handshake)
      (hq : r.answer = .acquireExecutor) (hx : s.executors x = none) :
      Step t s (.reply r)
        ((((s.dropAsk a).assign fun a => { a with targetVm := some r.vm }).watch alive
          (.vm r.vm)).newExecutor x ⟨t, a.handshake, some r.vm, .live, false⟩)
  | address {a : Ask} {target v x : ℕ} (hp : s.cell.phase ≠ .stopped) (ha : a ∈ s.asks)
      (hk : a.kind = .executorAddress target) (hv : s.cell.actor.targetVm = some v)
      (hx : s.executors x = none) :
      Step t s (.address a)
        ((s.dropAsk a).newExecutor x ⟨t, a.handshake, some target, .live, false⟩)
  | addressNull {a : Ask} {target x : ℕ} (hp : s.cell.phase ≠ .stopped) (ha : a ∈ s.asks)
      (hk : a.kind = .executorAddress target) (hv : s.cell.actor.targetVm = none)
      (hx : s.executors x = none) :
      Step t s (.address a) ((s.dropAsk a).newExecutor x ⟨t, a.handshake, none, .live, false⟩)
  | addressFails {a : Ask} {target v : ℕ} (ha : a ∈ s.asks)
      (hk : a.kind = .executorAddress target) (hv : s.cell.actor.targetVm = some v) :
      Step t s (.addressFails a) ((s.dropAsk a).assign fun a => { a with isTaken := false })
  | addressFailsNull {a : Ask} {target : ℕ} (ha : a ∈ s.asks)
      (hk : a.kind = .executorAddress target) (hv : s.cell.actor.targetVm = none) :
      Step t s (.addressFails a) (s.dropAsk a)
  | throws {x : ℕ} {y : Throwable} {c : ExecutorCell} (hx : s.executors x = some c)
      (hl : c.phase = .live) (ht : c.target.isSome) :
      Step t s (.throws x y) (s.updExecutor x fun c => { c with phase := .threw y })
  | failedNotTaken {x : ℕ} {y : Throwable} {c : ExecutorCell} {answer : StillAliveAnswer}
      (hx : s.executors x = some c) (hy : c.phase = .threw y)
      (hp : s.cell.phase = .running) (ht : s.cell.actor.isTaken = false) :
      Step t s (.failed x answer) (s.judge x true)
  | failedReset {x : ℕ} {y : Throwable} {c : ExecutorCell} {answer : StillAliveAnswer}
      (hx : s.executors x = some c) (hy : c.phase = .threw y)
      (hp : s.cell.phase = .running) (ht : s.cell.actor.isTaken = true) :
      Step t s (.failed x answer)
        ((s.assign fun a => { a with taskDone := false }).judge x true)
  | failedEscalate {x : ℕ} {y : Throwable} {c : ExecutorCell} {answer : StillAliveAnswer}
      (hx : s.executors x = some c) (hy : c.phase = .threw y)
      (hp : s.cell.phase = .running) (ht : s.cell.actor.isTaken = true)
      (hr : y.IsResult) :
      Step t s (.failed x answer)
        (((s.assign fun a => { a with taskDone := true }).judge x false).setPhase (.failed y))
  | failedRaises {x : ℕ} {y y' : Throwable} {c : ExecutorCell} {answer : StillAliveAnswer}
      (hx : s.executors x = some c) (hy : c.phase = .threw y)
      (hp : s.cell.phase = .running) (ht : s.cell.actor.isTaken = true)
      (hn : s.cell.actor.targetVm = none ∨ answer = .timeout)
      (hf : ∃ task res, y = .testFail task res) :
      Step t s (.failed x answer) ((s.judge x false).setPhase (.failed y'))
  | failedStopped {x : ℕ} {y : Throwable} {c : ExecutorCell} {answer : StillAliveAnswer}
      (hx : s.executors x = some c) (hy : c.phase = .threw y) (hp : s.cell.phase = .stopped) :
      Step t s (.failed x answer) (s.judge x false)

/-! ## The side of an updated world -/

namespace World

variable {w w' : World} {t u : ℕ}

theorem side_ext {s : TaskSide} (hc : w.task t = s.cell)
    (ha : w.asks.filter (·.task = t) = s.asks)
    (hx : ∀ e, (w.executor e).of t = s.executors e) : w.side t = s := by
  obtain ⟨cell, asks, executors⟩ := s
  simp only [side, TaskSide.mk.injEq]
  exact ⟨hc, ha, funext hx⟩

theorem of_map {c : ExecutorCell} {f : ExecutorCell → ExecutorCell}
    (ht : (f c).task = c.task) (hp : (f c).phase = .absent ↔ c.phase = .absent) :
    (f c).of t = (c.of t).map f := by
  unfold ExecutorCell.of
  by_cases h : c.task = t ∧ c.phase ≠ .absent
  · rw [if_pos h, if_pos (by rw [ht, Ne, hp]; exact h)]
    rfl
  · rw [if_neg h, if_neg (by rw [ht, Ne, hp]; exact h)]
    rfl

theorem of_eq_some {c d : ExecutorCell} :
    c.of t = some d ↔ c = d ∧ c.task = t ∧ c.phase ≠ .absent := by
  unfold ExecutorCell.of
  split
  · rename_i h
    simp [h]
  · rename_i h
    simp [h]

theorem of_other {c : ExecutorCell} (h : c.task ≠ t) : c.of t = none := by
  unfold ExecutorCell.of
  rw [if_neg (fun hc => h hc.1)]

theorem of_absent {c : ExecutorCell} (h : c.phase = .absent) : c.of t = none := by
  unfold ExecutorCell.of
  rw [if_neg (fun hc => hc.2 h)]

theorem filter_dropAsk {a : Ask} (hu : a.task ≠ t) (l : List Ask) :
    (l.filter (· ≠ a)).filter (·.task = t) = l.filter (·.task = t) := by
  rw [List.filter_filter]
  apply List.filter_congr
  intro b _
  by_cases hb : b.task = t
  · have hne : b ≠ a := fun hba => hu (hba ▸ hb)
    simp [hne]
  · simp [hb]

theorem filter_comm_dropAsk (a : Ask) (l : List Ask) :
    (l.filter (· ≠ a)).filter (·.task = t) = (l.filter (·.task = t)).filter (· ≠ a) := by
  rw [List.filter_filter, List.filter_filter]
  apply List.filter_congr
  intro b _
  rw [Bool.and_comm]

theorem side_dropAsk (a : Ask) :
    (w.dropAsk a).side t = (w.side t).dropAsk a := by
  apply side_ext rfl (filter_comm_dropAsk a w.asks)
  intro e
  rfl

theorem side_dropAsk_other {a : Ask} (h : a.task ≠ t) : (w.dropAsk a).side t = w.side t :=
  side_ext rfl (filter_dropAsk h w.asks) fun _ => rfl

theorem side_updTask (f : TaskCell → TaskCell) :
    (w.updTask t f).side t = { w.side t with cell := f (w.task t) } :=
  side_ext (by simp) rfl fun _ => rfl

theorem side_updTask_other (h : t ≠ u) (f : TaskCell → TaskCell) :
    (w.updTask u f).side t = w.side t :=
  side_ext (by simp [h, side]) rfl fun _ => rfl

theorem side_updExecutor {e : ℕ} {f : ExecutorCell → ExecutorCell}
    (hf : (f (w.executor e)).of t = ((w.executor e).of t).map f) :
    (w.updExecutor e f).side t = (w.side t).updExecutor e f := by
  refine side_ext rfl rfl ?_
  intro x
  by_cases hx : x = e
  · subst hx
    simp [TaskSide.updExecutor, side, hf]
  · simp [TaskSide.updExecutor, side, hx]

theorem side_stopTask : (w.stopTask t).side t = (w.side t).halt := by
  refine side_ext (by simp [TaskSide.halt, side]) rfl ?_
  intro e
  simp only [stopTask_executor, TaskSide.halt, side]
  split
  · exact of_map rfl Iff.rfl
  · rename_i h
    rw [of_other h]
    rfl

theorem side_stopTask_other (h : t ≠ u) : (w.stopTask u).side t = w.side t := by
  refine side_ext (by simp [h, side]) rfl ?_
  intro e
  simp only [stopTask_executor, side]
  split
  · rename_i hu
    have hne : (w.executor e).task ≠ t := fun ht => h (ht.symm.trans hu)
    rw [of_other hne, of_other (c := (w.executor e).stop) hne]
  · rfl

/-! ## The simulation -/

theorem side_executor {e : ℕ} : (w.side t).executors e = (w.executor e).of t := rfl

theorem side_setActor (f : TaskActor → TaskActor) :
    (w.setActor t f).side t = (w.side t).assign f := side_updTask _

theorem side_addAsk_other {a : Ask} (h : a.task ≠ t) : (w.addAsk a).side t = w.side t := by
  refine side_ext rfl ?_ fun _ => rfl
  simp [side, List.filter_append, h]

theorem updExecutor_none {s : TaskSide} {e : ℕ} {f : ExecutorCell → ExecutorCell}
    (h : s.executors e = none) : s.updExecutor e f = s := by
  unfold TaskSide.updExecutor
  rw [h, Option.map_none, ← h, Function.update_eq_self]

theorem side_updExecutor_other {e : ℕ} {f : ExecutorCell → ExecutorCell}
    (h : (w.executor e).of t = none) (hf : (f (w.executor e)).of t = none) :
    (w.updExecutor e f).side t = w.side t := by
  rw [side_updExecutor (by rw [h, hf]; rfl)]
  exact updExecutor_none h

/-- The executor an effect writes. -/
def executorOf : TaskEffect → Option ℕ
  | .stopExecutor e | .createExecutor e | .executeTask e _ => some e
  | _ => none

theorem side_perform_other {h : ℕ} {ef : TaskEffect} (hu : t ≠ u)
    (hx : ∀ e, executorOf ef = some e → (w.executor e).of t = none) :
    (perform u h w ef).side t = w.side t := by
  cases ef with
  | askSendTask v => exact side_addAsk_other (w := w.toVm v _) (a := ⟨w.next, u, _⟩) hu.symm
  | askExecutorAddress target => exact side_addAsk_other (a := ⟨h, u, _⟩) hu.symm
  | watch r => exact side_updTask_other hu _
  | unwatch r => exact side_updTask_other hu _
  | stopExecutor e =>
    have he := hx e rfl
    refine side_updExecutor_other he ?_
    rw [of_map rfl Iff.rfl, he]
    rfl
  | stopSelf => exact side_stopTask_other hu
  | createExecutor e =>
    exact side_updExecutor_other (f := fun _ => ⟨u, h, none, .live, false⟩) (hx e rfl)
      (of_other (Ne.symm hu))
  | tellVm v m => cases m <;> rfl
  | executeTask e target =>
    have he := hx e rfl
    refine side_updExecutor_other (f := fun c => { c with target := some target }) he ?_
    rw [of_map (f := fun c => { c with target := some target }) rfl Iff.rfl, he]
    rfl
  | tellDb m => rfl

theorem side_foldl_other {h : ℕ} (hu : t ≠ u) : ∀ (es : List TaskEffect) (w : World),
    (∀ ef ∈ es, ∀ e, executorOf ef = some e → (w.executor e).of t = none) →
    (es.foldl (perform u h) w).side t = w.side t
  | [], _, _ => rfl
  | ef :: es, w, hes => by
      have h1 := side_perform_other (w := w) (h := h) hu (hes ef (by simp))
      have h2 := side_foldl_other (h := h) hu es (perform u h w ef) (by
        intro ef' hef' e he
        have hnone := hes ef' (by simp [hef']) e he
        rw [← side_executor, h1, side_executor]
        exact hnone)
      exact h2.trans h1

/-- What the code of another task actor leaves alone. -/
theorem side_act_other {h : ℕ} {a : TaskActor} {es : List TaskEffect} (hu : t ≠ u)
    (hes : ∀ ef ∈ es, ∀ e, executorOf ef = some e → (w.executor e).of t = none) :
    (w.act u h a es).side t = w.side t :=
  (side_foldl_other hu es (w.setActor u fun _ => a) hes).trans (side_updTask_other hu _)

theorem side_takeNotice (r : Ref) : (w.takeNotice t r).side t = (w.side t).takeNotice r :=
  side_updTask _

theorem side_takeNotice_other (h : t ≠ u) (r : Ref) : (w.takeNotice u r).side t = w.side t :=
  side_updTask_other h _

theorem side_failTask (h : (w.task t).phase = .running) (x : Throwable) :
    (w.failTask t x).side t = (w.side t).setPhase (.failed x) := by
  rw [failTask, side_updTask, if_pos h]
  rfl

theorem side_failTask_other (h : t ≠ u) (x : Throwable) : (w.failTask u x).side t = w.side t :=
  side_updTask_other h _

theorem side_judge {e : ℕ} {b : Bool} (hx : (w.executor e).phase ≠ .absent) :
    (w.judge e b).side t = (w.side t).judge e b := by
  refine side_updExecutor
    (of_map (f := fun c => { c with phase := .suspended, stopped := c.stopped || b }) rfl ?_)
  constructor
  · intro h
    cases h
  · intro h
    exact absurd h hx

theorem side_judge_other {e : ℕ} {b : Bool} (h : t ≠ (w.executor e).task) :
    (w.judge e b).side t = w.side t :=
  side_updExecutor_other (of_other h.symm) (of_other h.symm)

theorem side_killExecutor {e : ℕ} (he : (w.executor e).Live) :
    (w.killExecutor e).side t =
      { (w.side t).updExecutor e .die with cell := (w.task t).notify (.executor e) } := by
  refine side_ext rfl rfl ?_
  intro x
  by_cases hx : x = e
  · subst hx
    have hm : (w.executor x).die.of t = ((w.executor x).of t).map .die :=
      of_map rfl (by simp [ExecutorCell.die, he.1])
    simp [TaskSide.updExecutor, side, hm]
  · simp [TaskSide.updExecutor, side, hx]

theorem side_vmFrame {v : ℕ} (h : VmFrame v w w') :
    w'.side t = w.side t ∨
      w'.side t = { w.side t with cell := (w.side t).cell.notify (.vm v) } := by
  have hx : ∀ e, (w'.executor e).of t = (w.side t).executors e := by
    intro e
    rw [h.executor]
    rfl
  have ha : w'.asks.filter (·.task = t) = (w.side t).asks := by
    rw [h.asks]
    rfl
  rcases h.task with ⟨ht, -⟩ | ⟨ht, -⟩
  · exact .inl (side_ext (by rw [ht]; rfl) ha hx)
  · exact .inr (side_ext (by rw [ht]; rfl) ha hx)

theorem mem_side_asks {a : Ask} : a ∈ (w.side t).asks ↔ a ∈ w.asks ∧ a.task = t := by
  simp [side]

theorem side_next (hw : w.Numbered) {e : ℕ} (he : w.next ≤ e) : (w.side t).executors e = none :=
  of_absent (hw.executors e he)

/-- A new executor, created, watched and (if `target` is known) sent its
task. -/
theorem side_newExecutor {a : TaskActor} {h : ℕ} {target : ℕ} {v : ℕ} {m : DBMessage}
    (ha : a = { (w.task t).actor with executorActor := some w.next }) :
    (w.act t h a [.createExecutor w.next, .watch (.executor w.next),
      .tellVm v (.executor w.next), .executeTask w.next target, .tellDb m]).side t =
      (w.side t).newExecutor w.next ⟨t, h, some target, .live, false⟩ := by
  subst ha
  refine side_ext ?_ rfl ?_
  · simp [act, perform, watch, refAlive, TaskCell.watch, setActor, toVm, ExecutorCell.Live,
      TaskSide.newExecutor, side]
  · intro e
    by_cases he : e = w.next
    · subst he
      simp [act, perform, watch, setActor, toVm, TaskSide.newExecutor, ExecutorCell.of]
    · simp [act, perform, watch, setActor, toVm, TaskSide.newExecutor, he, side]

theorem side_newExecutor_null {a : TaskActor} {h : ℕ}
    (ha : a = { (w.task t).actor with executorActor := some w.next }) :
    (w.act t h a [.createExecutor w.next, .watch (.executor w.next)]).side t =
      (w.side t).newExecutor w.next ⟨t, h, none, .live, false⟩ := by
  subst ha
  refine side_ext ?_ rfl ?_
  · simp [act, perform, watch, refAlive, TaskCell.watch, setActor, ExecutorCell.Live,
      TaskSide.newExecutor, side]
  · intro e
    by_cases he : e = w.next
    · subst he
      simp [act, perform, watch, setActor, TaskSide.newExecutor, ExecutorCell.of]
    · simp [act, perform, watch, setActor, TaskSide.newExecutor, he, side]

theorem act_nil {h : ℕ} {a : TaskActor} : w.act t h a [] = w.setActor t fun _ => a := rfl

theorem act_tellVm {h v : ℕ} {a : TaskActor} :
    w.act t h a [.tellVm v .stillAlive] =
      (w.setActor t fun _ => a).toVm v ⟨none, .stillAlive⟩ := rfl

theorem side_toVm {v : ℕ} {m : Envelope} : (w.toVm v m).side t = w.side t := rfl

/-- The side of a world that another task actor's code has left. -/
theorem side_complete_other {h : ℕ} {a : Ask} {b : TaskActor} {es : List TaskEffect} {w₀ : World}
    (hu : t ≠ a.task) (hw : w₀.side t = w.side t)
    (hes : ∀ ef ∈ es, ∀ e, executorOf ef = some e → (w.executor e).of t = none) :
    ((w₀.dropAsk a).act a.task h b es).side t = w.side t := by
  rw [side_act_other hu, side_dropAsk_other (Ne.symm hu), hw]
  intro ef hef e he
  rw [← side_executor, side_dropAsk_other (Ne.symm hu), hw]
  exact hes ef hef e he

theorem step_idle {e : Event} (h : w'.side t = w.side t) :
    TaskSide.Step t (w.side t) e (w'.side t) := by
  rw [h]
  exact .idle

theorem step_machine {e : Event} {v : ℕ} (h : VmFrame v w w') :
    TaskSide.Step t (w.side t) e (w'.side t) := by
  rcases side_vmFrame (t := t) h with hs | hs
  · exact step_idle hs
  · rw [hs]
    exact .vmTerminates

theorem step_of_eq {e : Event} {s : TaskSide} (hs : w'.side t = s)
    (h : TaskSide.Step t (w.side t) e s) : TaskSide.Step t (w.side t) e (w'.side t) := by
  rw [hs]
  exact h

theorem side_callback {a : Ask} {b : TaskActor} (f : TaskActor → TaskActor) {h : ℕ} {w₀ : World}
    (ht : w₀.task = w.task) (hw : w₀.side a.task = w.side a.task)
    (hb : b = f (w.task a.task).actor) :
    ((w₀.dropAsk a).act a.task h b []).side a.task = ((w.side a.task).dropAsk a).assign f := by
  have h1 : (w₀.dropAsk a).act a.task h b [] = (w₀.dropAsk a).setActor a.task f := by
    simp [act, setActor, updTask, ht, hb]
  rw [h1, side_setActor, side_dropAsk, hw]

theorem side_step_reply {r : Reply} (hw : w.Numbered) (hm : w.Moves (.reply r) w') :
    TaskSide.Step t (w.side t) (.reply r) (w'.side t) := by
  cases hm with
  | lateReply hr hn => exact .idle
  | @acquireRemote _ a hr ha hh hk hq hc hl =>
    by_cases hu : t = a.task
    · subst hu
      have hs := mem_side_asks.mpr ⟨ha, rfl⟩
      by_cases hp : (w.task a.task).phase = .stopped
      · refine .callbackStopped hp ?_ rfl ?_ ?_ <;> simp [act, perform, watch, setActor, side, hp]
      · have h := TaskSide.Step.acquireRemote (t := a.task) (w.refAlive (.vm r.vm)) hp hs hk
          hh hq
        convert h using 1
        refine side_ext ?_ ?_ fun _ => rfl
        · simp [act, perform, watch, setActor, TaskSide.watch, TaskSide.assign,
            TaskSide.dropAsk, side, refAlive]
        · simp only [act, List.foldl, perform, addAsk_asks, watch, updTask_asks, setActor,
            dropAsk_asks, dropReply_asks, List.filter_append, filter_comm_dropAsk]
          simp [side]
    · apply step_idle
      exact side_complete_other hu rfl (by simp [executorOf])
  | @acquireLocal _ a hr ha hh hk hq hp hl =>
    by_cases hu : t = a.task
    · subst hu
      have hs := mem_side_asks.mpr ⟨ha, rfl⟩
      have hx := side_next (t := a.task) hw (Nat.le_refl w.next)
      have h := TaskSide.Step.acquireLocal (t := a.task) (w.refAlive (.vm r.vm)) hp hs hk hh
        hq hx
      convert h using 1
      refine side_ext ?_ ?_ ?_
      · cases hv : (w.vm r.vm).alive <;>
          simp [act, perform, watch, setActor, TaskSide.watch, TaskSide.assign, toVm,
            TaskSide.dropAsk, side, refAlive, TaskSide.newExecutor, TaskCell.watch,
            ExecutorCell.Live, hv]
      · exact filter_comm_dropAsk a w.asks
      · intro e
        by_cases he : e = w.next
        · subst he
          simp [act, perform, watch, setActor, toVm, TaskSide.newExecutor, ExecutorCell.of]
        · simp [act, perform, watch, setActor, toVm, TaskSide.newExecutor, he, side,
            TaskSide.watch, TaskSide.assign, TaskSide.dropAsk]
    · apply step_idle
      refine side_complete_other hu rfl ?_
      have hnone : (w.executor w.next).of t = none := side_next hw (Nat.le_refl w.next)
      simp [executorOf, hnone]
  | @acquireTerminating _ a hr ha hh hk hq hp =>
    by_cases hu : t = a.task
    · subst hu
      refine .callbackStopped hp ?_ rfl ?_ ?_ <;> simp [act, perform, watch, setActor, side, hp]
    · exact step_idle (side_complete_other hu rfl (by simp [executorOf]))
  | @acquireTerminated _ a hr ha hh hk hq hp =>
    by_cases hu : t = a.task
    · subst hu
      refine .callbackStopped hp ?_ rfl ?_ ?_ <;> simp [act, setActor, side, hp]
    · exact step_idle (side_complete_other hu rfl (by simp))
  | @replyOther _ a hr ha hh hk hq =>
    by_cases hu : t = a.task
    · subst hu
      exact step_of_eq (side_callback id rfl rfl rfl)
        (.offerUnmatched (mem_side_asks.mpr ⟨ha, rfl⟩) hk hh hq)
    · exact step_idle (side_complete_other hu rfl (by simp))
  | @replyFailure _ a hr ha hh hk hq =>
    by_cases hu : t = a.task
    · subst hu
      exact step_of_eq (side_callback (fun b => { b with isTaken := false }) rfl rfl rfl)
        (.offerFails (mem_side_asks.mpr ⟨ha, rfl⟩) hk (.inr ⟨r, rfl, hq, hh.symm, rfl⟩))
    · exact step_idle (side_complete_other hu rfl (by simp))

/-- **The simulation**: what a step does to one task actor is a step of
its side. -/
theorem side_step {e : Event} (hw : w.Numbered) (hm : w.Moves e w') :
    TaskSide.Step t (w.side t) e (w'.side t) := by
  have hnext : (w.executor w.next).of t = none := side_next hw (Nat.le_refl w.next)
  cases e with
  | reply r => exact side_step_reply hw hm
  | create u task tablename =>
    obtain ⟨hp⟩ := hm
    by_cases hu : t = u
    · subst hu
      rw [side_updTask]
      refine .create hp ?_ ?_
      · refine List.filter_eq_nil_iff.mpr ?_
        intro a ha hat
        have hat' : a.task = t := by simpa using hat
        exact (hw.asks a ha).2 (hat' ▸ hp)
      · intro e
        by_contra hne
        obtain ⟨c, hc⟩ := Option.ne_none_iff_exists'.mp hne
        obtain ⟨-, h1, h2⟩ := of_eq_some.mp hc
        exact hw.owners e h2 (h1 ▸ hp)
    · exact step_idle (side_updTask_other hu _)
  | getTask u v =>
    cases hm with
    | getTaskTaken hp ht => exact .idle
    | getTask hp ht =>
      by_cases hu : t = u
      · subst hu
        have hlt : ∀ a ∈ (w.side t).asks, a.handshake < w.next := by
          intro a ha
          exact (hw.asks a (mem_side_asks.mp ha).1).1
        have h := TaskSide.Step.getTask (t := t) (v := v) hp ht hlt
        convert h using 1
        refine side_ext ?_ ?_ fun _ => rfl
        · simp [act, perform, setActor, toVm, TaskSide.assign, side]
        · simp [act, perform, setActor, toVm, side]
      · exact step_idle (side_act_other hu (by simp [executorOf]))
  | persistAndSuicide u reason =>
    obtain - | - | - | ⟨hp⟩ := hm
    by_cases hu : t = u
    · subst hu
      have hside : (w.act t w.next (w.task t).actor
          [.tellDb (.updateTask (w.task t).actor.task.fullName .notStarted .abandoned
            (some ("DEPENDENCY FAILED: " ++ reason)) (w.task t).actor.tablename),
            .stopSelf]).side t = (w.side t).halt := by
        simp only [act, List.foldl, perform, setActor_self]
        exact side_stopTask
      rw [hside]
      exact .persistAndSuicide hp
    · exact step_idle (side_act_other hu (by simp [executorOf]))
  | terminated u r =>
    by_cases hu : t = u
    · subst hu
      cases hm with
      | terminatedDone hp hr hd =>
        have hside : ((w.takeNotice t r).act t w.next (w.task t).actor [.stopSelf]).side t =
            ((w.side t).takeNotice r).halt := by
          have ha := takeNotice_actor (w := w) t r
          simp only [act, List.foldl, perform, ← ha, setActor_self]
          rw [side_stopTask, side_takeNotice]
        rw [hside]
        exact .terminatedDone hp hr hd
      | @terminatedTarget _ v x hp hr hd hv hx =>
        have h := TaskSide.Step.terminatedTarget (t := t) (s := w.side t) hp hr hd hv hx
        obtain ⟨hxt, hxa⟩ := hw.executorActor t x hx
        convert h using 1
        refine side_ext ?_ rfl ?_
        · simp [act, perform, setActor, takeNotice, side, TaskSide.takeNotice,
            TaskSide.assign, TaskSide.unwatch, TaskSide.updExecutor]
        · intro e
          by_cases he : e = x
          · subst he
            have hm : (w.executor e).stop.of t = ((w.executor e).of t).map .stop :=
              of_map rfl Iff.rfl
            simp [act, perform, setActor, takeNotice, side, TaskSide.takeNotice,
              TaskSide.assign, TaskSide.unwatch, TaskSide.updExecutor, hm]
          · simp [act, perform, setActor, takeNotice, side, TaskSide.takeNotice,
              TaskSide.assign, TaskSide.unwatch, TaskSide.updExecutor, he]
      | terminatedNull hp hr hd hn =>
        refine step_of_eq ?_ (.terminatedNull hp hr hd hn)
        have ha := takeNotice_actor (w := w) t r
        rw [side_failTask (by simp [act, takeNotice, setActor, hp]), ← ha, act_nil,
          side_setActor, side_takeNotice]
        simp [TaskSide.assign, ha, side, TaskSide.takeNotice]
      | terminatedOther hp hr hd hv hne =>
        have h := TaskSide.Step.terminatedOther (t := t) (s := w.side t) hp hr hd hv hne
        convert h using 1
        refine side_ext ?_ rfl (fun _ => rfl)
        simp [act, perform, setActor, takeNotice, side, TaskSide.takeNotice, TaskSide.assign,
          TaskSide.unwatch]
    · cases hm with
      | terminatedDone hp hr hd =>
        apply step_idle
        rw [side_act_other hu (by simp [executorOf]), side_takeNotice_other hu]
      | @terminatedTarget _ v x hp hr hd hv hx =>
        apply step_idle
        obtain ⟨hxt, hxa⟩ := hw.executorActor u x hx
        have hnone : (w.executor x).of t = none := of_other (fun h => hu (h.symm.trans hxt))
        rw [side_act_other hu, side_takeNotice_other hu]
        simpa [executorOf, takeNotice] using hnone
      | terminatedNull hp hr hd hn =>
        apply step_idle
        rw [side_failTask_other hu, side_act_other hu (by simp), side_takeNotice_other hu]
      | terminatedOther hp hr hd hv hne =>
        apply step_idle
        rw [side_act_other hu (by simp [executorOf]), side_takeNotice_other hu]
  | stop u =>
    cases hm with
    | stop ha hs =>
      by_cases hu : t = u
      · subst hu
        rw [side_stopTask]
        exact .stop hs
      · exact step_idle (side_stopTask_other hu)
  | sendTaskTimeout a =>
    cases hm with
    | sendTaskTimeout ha hk =>
      by_cases hu : t = a.task
      · subst hu
        exact step_of_eq (side_callback (fun b => { b with isTaken := false }) rfl rfl rfl)
          (.offerFails (mem_side_asks.mpr ⟨ha, rfl⟩) hk (.inl rfl))
      · exact step_idle (side_complete_other hu rfl (by simp))
  | address a =>
    by_cases hu : t = a.task
    · subst hu
      cases hm with
      | address ha hk hp hv =>
        refine step_of_eq ((side_newExecutor (w := w.dropAsk a) rfl).trans ?_)
          (.address hp (mem_side_asks.mpr ⟨ha, rfl⟩) hk hv hnext)
        rw [side_dropAsk]
        rfl
      | addressNull ha hk hp hv =>
        refine step_of_eq ((side_newExecutor_null (w := w.dropAsk a) rfl).trans ?_)
          (.addressNull hp (mem_side_asks.mpr ⟨ha, rfl⟩) hk hv hnext)
        rw [side_dropAsk]
        rfl
      | addressStopped ha hk hp =>
        refine .callbackStopped hp ?_ rfl ?_ ?_ <;> simp [act, setActor, side, hp]
    · apply step_idle
      cases hm with
      | address ha hk hp hv => exact side_complete_other hu rfl (by simp [executorOf, hnext])
      | addressNull ha hk hp hv =>
        exact side_complete_other hu rfl (by simp [executorOf, hnext])
      | addressStopped ha hk hp => exact side_complete_other hu rfl (by simp)
  | addressFails a =>
    by_cases hu : t = a.task
    · subst hu
      cases hm with
      | addressFails ha hk hv =>
        -- the message to the machine is outside the side
        have hside := side_callback (w := w) (a := a) (h := a.handshake)
          (fun b => { b with isTaken := false }) rfl rfl rfl
        exact step_of_eq hside (.addressFails (mem_side_asks.mpr ⟨ha, rfl⟩) hk hv)
      | addressFailsNull ha hk hv =>
        exact step_of_eq (side_callback id rfl rfl rfl)
          (.addressFailsNull (mem_side_asks.mpr ⟨ha, rfl⟩) hk hv)
    · apply step_idle
      cases hm with
      | addressFails ha hk hv => exact side_complete_other hu rfl (by simp [executorOf])
      | addressFailsNull ha hk hv => exact side_complete_other hu rfl (by simp)
  | vmTakes v m o => exact step_machine (hm.vmFrame rfl)
  | vmInput v m o => exact step_machine (hm.vmFrame rfl)
  | configure v config o => exact step_machine (hm.vmFrame rfl)
  | vmDies v => exact step_machine (hm.vmFrame rfl)
  | throws x y =>
    cases hm with | throws hp ht =>
    by_cases hu : (w.executor x).task = t
    · have hx : (w.side t).executors x = some (w.executor x) :=
        of_eq_some.mpr ⟨rfl, hu, by simp [hp]⟩
      have h := TaskSide.Step.throws (t := t) (y := y) hx hp ht
      rw [← side_updExecutor (of_map (f := fun c => { c with phase := .threw y }) rfl
        (by simp [hp]))] at h
      exact h
    · exact step_idle (side_updExecutor_other (f := fun c => { c with phase := .threw y })
        (of_other hu) (of_other hu))
  | failed x answer =>
    by_cases hu : (w.executor x).task = t
    · have hof : (w.executor x).phase ≠ .absent →
          (w.side t).executors x = some (w.executor x) := by
        intro hp
        exact of_eq_some.mpr ⟨rfl, hu, hp⟩
      subst hu
      cases hm with
      | failedNotTaken hx hp ht =>
        have hne : (w.executor x).phase ≠ .absent := by simp [hx]
        rw [side_judge hne]
        exact .failedNotTaken (hof hne) hx hp ht
      | failedReset hx hp ht hes =>
        have hne : (w.executor x).phase ≠ .absent := by simp [hx]
        refine step_of_eq ?_ (.failedReset (hof hne) hx hp ht)
        rcases hes with ⟨rfl, -⟩ | ⟨rfl, -⟩
        · rw [side_judge (by exact hne), act_nil, side_setActor]
          rfl
        · rw [side_judge (by exact hne), act_tellVm, side_toVm, side_setActor]
          rfl
      | failedEscalate hx hp ht hres hes =>
        have hne : (w.executor x).phase ≠ .absent := by simp [hx]
        refine step_of_eq ?_ (.failedEscalate (hof hne) hx hp ht hres)
        rcases hes with ⟨rfl, -⟩ | ⟨rfl, -⟩
        · refine (side_failTask (by simp [act, judge, setActor, hp]) _).trans ?_
          rw [side_judge (by exact hne), act_nil, side_setActor]
          rfl
        · refine (side_failTask (by simp [act, perform, judge, setActor, toVm, hp]) _).trans ?_
          rw [side_judge (by exact hne), act_tellVm, side_toVm, side_setActor]
          rfl
      | @failedRaises _ v y y' _ es hx hp ht hf hes =>
        have hne : (w.executor x).phase ≠ .absent := by simp [hx]
        have hn : (w.task (w.executor x).task).actor.targetVm = none ∨ answer = .timeout := by
          rcases hes with ⟨-, hn, -⟩ | ⟨-, ha, -⟩
          · exact .inl hn
          · exact .inr ha
        refine step_of_eq (s := ((w.side (w.executor x).task).judge x false).setPhase (.failed y'))
          ?_ (.failedRaises (hof hne) hx hp ht hn hf)
        rcases hes with ⟨rfl, -⟩ | ⟨rfl, -⟩
        · refine (side_failTask (by simp [act, judge, setActor, hp]) _).trans ?_
          rw [side_judge (by exact hne), act_self]
        · refine (side_failTask (by simp [act, perform, judge, setActor, toVm, hp]) _).trans ?_
          rw [side_judge (by exact hne), act_tellVm, side_toVm, setActor_self]
      | failedStopped hx hp =>
        have hne : (w.executor x).phase ≠ .absent := by simp [hx]
        rw [side_judge hne]
        exact .failedStopped (hof hne) hx hp
    · apply step_idle
      have hu' : t ≠ (w.executor x).task := fun h => hu h.symm
      cases hm with
      | failedNotTaken hx hp ht => exact side_judge_other hu'
      | failedReset hx hp ht hes =>
        rcases hes with ⟨rfl, -⟩ | ⟨rfl, -⟩
        · exact (side_judge_other (by exact hu')).trans (side_act_other hu' (by simp))
        · exact (side_judge_other (by exact hu')).trans
            (side_act_other hu' (by simp [executorOf]))
      | failedEscalate hx hp ht hres hes =>
        refine (side_failTask_other hu' _).trans ?_
        rcases hes with ⟨rfl, -⟩ | ⟨rfl, -⟩
        · exact (side_judge_other (by exact hu')).trans (side_act_other hu' (by simp))
        · exact (side_judge_other (by exact hu')).trans
            (side_act_other hu' (by simp [executorOf]))
      | failedRaises hx hp ht hf hes =>
        refine (side_failTask_other hu' _).trans ?_
        rcases hes with ⟨rfl, -⟩ | ⟨rfl, -⟩
        · exact (side_judge_other (by exact hu')).trans (side_act_other hu' (by simp))
        · exact (side_judge_other (by exact hu')).trans
            (side_act_other hu' (by simp [executorOf]))
      | failedStopped hx hp => exact side_judge_other hu'
  | executorDies x =>
    cases hm with
    | executorDies he =>
      rw [side_killExecutor he]
      exact .executorDies

end World

end Clustering.Handshake
