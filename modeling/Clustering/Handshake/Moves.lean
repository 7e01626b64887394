/-
Clustering.Handshake.Moves — everything one step of the handshake can do.

`World.Moves w e w'` lists the steps: one constructor for each path
through the code behind an event, with its guards and the world it
leaves. The fields and effects are written out; what the effects do to
the rest of the world is `World.act`.

`step_moves` says that the list is complete. It is proved once, from
the path lemmas of `Worker.TaskActor`; every invariant of a task actor
is then a case analysis over `Moves`, and no such proof looks at the
handlers again. Steps of a machine stay unopened here (`handleVm`):
they never write a field of a task actor.
-/
import Clustering.Handshake.World

namespace Clustering.Handshake

open Actors Clustering.Worker Clustering.Vm

/-- The machine whose step an event is. -/
def Event.machine : Event → Option ℕ
  | .vmTakes v _ _ | .vmInput v _ _ | .configure v _ _ | .vmDies v => some v
  | _ => none

namespace World

/-- The mailbox of task actor `t` after it took the `Terminated` of `r`. -/
def takeNotice (w : World) (t : ℕ) (r : Ref) : World :=
  w.updTask t fun c => { c with
    notices := c.notices.filter (· ≠ r), reported := r :: c.reported }

/-- A reply leaves the network. -/
@[simps]
def dropReply (w : World) (r : Reply) : World := { w with replies := w.replies.erase r }

/-- The phase an executor is in, and whether it has been stopped, after
its task actor judged its exception. -/
def judge (w : World) (e : ℕ) (stop : Bool) : World :=
  w.updExecutor e fun c => { c with phase := .suspended, stopped := c.stopped || stop }

section

variable (w : World)

inductive Moves : Event → World → Prop
  | create {t : ℕ} {task : Task} {tablename : String} (hp : (w.task t).phase = .absent) :
      Moves (.create t task tablename)
        (w.updTask t fun _ => ⟨.new task tablename, .running, [], [], []⟩)
  | getTaskTaken {t v : ℕ} (hp : (w.task t).phase = .running)
      (ht : (w.task t).actor.isTaken = true) : Moves (.getTask t v) w
  | getTask {t v : ℕ} (hp : (w.task t).phase = .running)
      (ht : (w.task t).actor.isTaken = false) :
      Moves (.getTask t v)
        (w.act t w.next { (w.task t).actor with isTaken := true } [.askSendTask v])
  | persistAndSuicide {t : ℕ} {reason : String} (hp : (w.task t).phase = .running) :
      Moves (.persistAndSuicide t reason)
        (w.act t w.next (w.task t).actor
          [.tellDb (.updateTask (w.task t).actor.task.fullName .notStarted .abandoned
            (some ("DEPENDENCY FAILED: " ++ reason)) (w.task t).actor.tablename), .stopSelf])
  | terminatedDone {t : ℕ} {r : Ref} (hp : (w.task t).phase = .running)
      (hr : r ∈ (w.task t).notices) (hd : (w.task t).actor.taskDone = true) :
      Moves (.terminated t r) ((w.takeNotice t r).act t w.next (w.task t).actor [.stopSelf])
  | terminatedTarget {t v x : ℕ} (hp : (w.task t).phase = .running)
      (hr : .vm v ∈ (w.task t).notices) (hd : (w.task t).actor.taskDone = false)
      (hv : (w.task t).actor.targetVm = some v)
      (hx : (w.task t).actor.executorActor = some x) :
      Moves (.terminated t (.vm v)) ((w.takeNotice t (.vm v)).act t w.next
        { (w.task t).actor with isTaken := false, executorActor := none, targetVm := none }
        [.unwatch (.executor x), .stopExecutor x, .unwatch (.vm v),
          .tellDb (.updateTaskStatus (w.task t).actor.task.fullName .notStarted
            (w.task t).actor.tablename)])
  /-- There is no reference to unwatch: the actor crashes. -/
  | terminatedNull {t : ℕ} {r : Ref} (hp : (w.task t).phase = .running)
      (hr : r ∈ (w.task t).notices) (hd : (w.task t).actor.taskDone = false)
      (hn : (w.task t).actor.targetVm = none ∨
        (w.task t).actor.targetVm.map Ref.vm = some r ∧ (w.task t).actor.executorActor = none) :
      Moves (.terminated t r) (((w.takeNotice t r).act t w.next
        { (w.task t).actor with isTaken := false } []).failTask t .matchError)
  | terminatedOther {t v : ℕ} {r : Ref} (hp : (w.task t).phase = .running)
      (hr : r ∈ (w.task t).notices) (hd : (w.task t).actor.taskDone = false)
      (hv : (w.task t).actor.targetVm = some v) (hne : r ≠ .vm v) :
      Moves (.terminated t r) ((w.takeNotice t r).act t w.next
        { (w.task t).actor with isTaken := false, targetVm := none }
        [.unwatch (.vm v),
          .tellDb (.updateTaskStatus (w.task t).actor.task.fullName .notStarted
            (w.task t).actor.tablename)])
  | stop {t : ℕ} (ha : (w.task t).phase ≠ .absent) (hs : (w.task t).phase ≠ .stopped) :
      Moves (.stop t) (w.stopTask t)
  /-- The ask has timed out before. -/
  | lateReply {r : Reply} (hr : r ∈ w.replies)
      (hn : ∀ a ∈ w.asks, a.handshake = r.handshake → a.kind ≠ .sendTask r.vm) :
      Moves (.reply r) (w.dropReply r)
  | acquireRemote {r : Reply} {a : Ask} (hr : r ∈ w.replies) (ha : a ∈ w.asks)
      (hh : a.handshake = r.handshake) (hk : a.kind = .sendTask r.vm)
      (hq : r.answer = .acquireExecutor) (hc : w.contextState a.task ≠ .terminated)
      (hl : (w.task a.task).actor.task.runLocally = false) :
      Moves (.reply r) (((w.dropReply r).dropAsk a).act a.task a.handshake
        { (w.task a.task).actor with targetVm := some r.vm }
        [.watch (.vm r.vm), .askExecutorAddress r.vm])
  | acquireLocal {r : Reply} {a : Ask} (hr : r ∈ w.replies) (ha : a ∈ w.asks)
      (hh : a.handshake = r.handshake) (hk : a.kind = .sendTask r.vm)
      (hq : r.answer = .acquireExecutor) (hp : (w.task a.task).phase ≠ .stopped)
      (hl : (w.task a.task).actor.task.runLocally = true) :
      Moves (.reply r) (((w.dropReply r).dropAsk a).act a.task a.handshake
        { (w.task a.task).actor with targetVm := some r.vm, executorActor := some w.next }
        [.watch (.vm r.vm), .createExecutor w.next, .watch (.executor w.next),
          .tellVm r.vm (.executor w.next), .executeTask w.next r.vm,
          .tellDb (.updateTaskStatus (w.task a.task).actor.task.fullName .running
            (w.task a.task).actor.tablename)])
  /-- `context.actorOf` in an actor that is about to stop. -/
  | acquireTerminating {r : Reply} {a : Ask} (hr : r ∈ w.replies) (ha : a ∈ w.asks)
      (hh : a.handshake = r.handshake) (hk : a.kind = .sendTask r.vm)
      (hq : r.answer = .acquireExecutor) (hp : (w.task a.task).phase = .stopped) :
      Moves (.reply r) (((w.dropReply r).dropAsk a).act a.task a.handshake
        { (w.task a.task).actor with targetVm := some r.vm } [.watch (.vm r.vm)])
  /-- `context` is null. -/
  | acquireTerminated {r : Reply} {a : Ask} (hr : r ∈ w.replies) (ha : a ∈ w.asks)
      (hh : a.handshake = r.handshake) (hk : a.kind = .sendTask r.vm)
      (hq : r.answer = .acquireExecutor) (hp : (w.task a.task).phase = .stopped) :
      Moves (.reply r) (((w.dropReply r).dropAsk a).act a.task a.handshake
        { (w.task a.task).actor with targetVm := some r.vm } [])
  /-- No case of the callback matches. -/
  | replyOther {r : Reply} {a : Ask} (hr : r ∈ w.replies) (ha : a ∈ w.asks)
      (hh : a.handshake = r.handshake) (hk : a.kind = .sendTask r.vm)
      (hq : r.toResult = .otherSuccess) :
      Moves (.reply r) (((w.dropReply r).dropAsk a).act a.task a.handshake
        (w.task a.task).actor [])
  | replyFailure {r : Reply} {a : Ask} (hr : r ∈ w.replies) (ha : a ∈ w.asks)
      (hh : a.handshake = r.handshake) (hk : a.kind = .sendTask r.vm)
      (hq : r.toResult = .failure) :
      Moves (.reply r) (((w.dropReply r).dropAsk a).act a.task a.handshake
        { (w.task a.task).actor with isTaken := false } [])
  | sendTaskTimeout {a : Ask} {v : ℕ} (ha : a ∈ w.asks) (hk : a.kind = .sendTask v) :
      Moves (.sendTaskTimeout a) ((w.dropAsk a).act a.task a.handshake
        { (w.task a.task).actor with isTaken := false } [])
  | address {a : Ask} {target v : ℕ} (ha : a ∈ w.asks) (hk : a.kind = .executorAddress target)
      (hp : (w.task a.task).phase ≠ .stopped)
      (hv : (w.task a.task).actor.targetVm = some v) :
      Moves (.address a) ((w.dropAsk a).act a.task a.handshake
        { (w.task a.task).actor with executorActor := some w.next }
        [.createExecutor w.next, .watch (.executor w.next), .tellVm v (.executor w.next),
          .executeTask w.next target,
          .tellDb (.updateTaskStatus (w.task a.task).actor.task.fullName .running
            (w.task a.task).actor.tablename)])
  /-- The executor is created and watched, and never sent its task. -/
  | addressNull {a : Ask} {target : ℕ} (ha : a ∈ w.asks)
      (hk : a.kind = .executorAddress target) (hp : (w.task a.task).phase ≠ .stopped)
      (hv : (w.task a.task).actor.targetVm = none) :
      Moves (.address a) ((w.dropAsk a).act a.task a.handshake
        { (w.task a.task).actor with executorActor := some w.next }
        [.createExecutor w.next, .watch (.executor w.next)])
  /-- `context` is closed or null. -/
  | addressStopped {a : Ask} {target : ℕ} (ha : a ∈ w.asks)
      (hk : a.kind = .executorAddress target) (hp : (w.task a.task).phase = .stopped) :
      Moves (.address a) ((w.dropAsk a).act a.task a.handshake (w.task a.task).actor [])
  | addressFails {a : Ask} {target v : ℕ} (ha : a ∈ w.asks)
      (hk : a.kind = .executorAddress target)
      (hv : (w.task a.task).actor.targetVm = some v) :
      Moves (.addressFails a) ((w.dropAsk a).act a.task a.handshake
        { (w.task a.task).actor with isTaken := false } [.tellVm v .cannotGetExecutor])
  | addressFailsNull {a : Ask} {target : ℕ} (ha : a ∈ w.asks)
      (hk : a.kind = .executorAddress target)
      (hv : (w.task a.task).actor.targetVm = none) :
      Moves (.addressFails a) ((w.dropAsk a).act a.task a.handshake (w.task a.task).actor [])
  | vmTakes {v : ℕ} {m : Envelope} {o : VMProxyActor.Outside} (hv : (w.vm v).alive = true)
      (hm : m ∈ (w.vm v).mailbox) :
      Moves (.vmTakes v m o) (((w.noteDeclined v m).updVm v fun c =>
        { c with mailbox := c.mailbox.erase m }).handleVm v o m)
  | vmInput {v : ℕ} {m : VmMessage} {o : VMProxyActor.Outside} (hv : (w.vm v).alive = true)
      (hm : Outer m) : Moves (.vmInput v m o) (w.handleVm v o ⟨none, m⟩)
  | configure {v : ℕ} {config : VagrantEnvironmentConfig} {o : VMProxyActor.Outside}
      (hv : (w.vm v).alive = true) (hc : (w.vm v).configured = false)
      (hi : (⟨none, .init⟩ : Envelope) ∉ (w.vm v).mailbox) :
      Moves (.configure v config o) ((w.updVm v fun c => { c with configured := true }).handleVm
        v o ⟨none, .setVagrantEnvironmentConfig config⟩)
  | vmDies {v : ℕ} (hv : (w.vm v).alive = true) : Moves (.vmDies v) (w.killVm v)
  | throws {e : ℕ} {x : Throwable} (hp : (w.executor e).phase = .live)
      (ht : (w.executor e).target.isSome) :
      Moves (.throws e x) (w.updExecutor e fun c => { c with phase := .threw x })
  /-- The decider stops the executor: nobody is waiting for its result. -/
  | failedNotTaken {e : ℕ} {x : Throwable} {answer : StillAliveAnswer}
      (hx : (w.executor e).phase = .threw x)
      (hp : (w.task (w.executor e).task).phase = .running)
      (ht : (w.task (w.executor e).task).actor.isTaken = false) :
      Moves (.failed e answer) (w.judge e true)
  /-- The decider resets the task: unexpected exception, or a test that
  failed on a machine that is gone. -/
  | failedReset {e v : ℕ} {x : Throwable} {answer : StillAliveAnswer}
      {es : List TaskEffect}
      (hx : (w.executor e).phase = .threw x)
      (hp : (w.task (w.executor e).task).phase = .running)
      (ht : (w.task (w.executor e).task).actor.isTaken = true)
      (hes : es = [] ∧ ¬ x.IsResult ∨ es = [.tellVm v .stillAlive] ∧ answer = .notAlive ∧
        (w.task (w.executor e).task).actor.targetVm = some v ∧
        ∃ task res, x = .testFail task res) :
      Moves (.failed e answer) ((w.act (w.executor e).task w.next
        { (w.task (w.executor e).task).actor with taskDone := false } es).judge e true)
  | failedEscalate {e v : ℕ} {x : Throwable} {answer : StillAliveAnswer}
      {es : List TaskEffect}
      (hx : (w.executor e).phase = .threw x)
      (hp : (w.task (w.executor e).task).phase = .running)
      (ht : (w.task (w.executor e).task).actor.isTaken = true) (hres : x.IsResult)
      (hes : es = [] ∧ (∃ task res, x = .testSuccess task res) ∨
        es = [.tellVm v .stillAlive] ∧ answer = .alive ∧
        (w.task (w.executor e).task).actor.targetVm = some v ∧
        ∃ task res, x = .testFail task res) :
      Moves (.failed e answer) (((w.act (w.executor e).task w.next
        { (w.task (w.executor e).task).actor with taskDone := true } es).judge e false).failTask
          (w.executor e).task x)
  /-- The decider itself raises `x'`. -/
  | failedRaises {e v : ℕ} {x x' : Throwable} {answer : StillAliveAnswer}
      {es : List TaskEffect}
      (hx : (w.executor e).phase = .threw x)
      (hp : (w.task (w.executor e).task).phase = .running)
      (ht : (w.task (w.executor e).task).actor.isTaken = true)
      (hf : ∃ task res, x = .testFail task res)
      (hes : es = [] ∧ (w.task (w.executor e).task).actor.targetVm = none ∧
          x' = .illegalArgument ∨
        es = [.tellVm v .stillAlive] ∧ answer = .timeout ∧
          (w.task (w.executor e).task).actor.targetVm = some v ∧ x' = .timeout) :
      Moves (.failed e answer) (((w.act (w.executor e).task w.next
        (w.task (w.executor e).task).actor es).judge e false).failTask (w.executor e).task x')
  | failedStopped {e : ℕ} {x : Throwable} {answer : StillAliveAnswer}
      (hx : (w.executor e).phase = .threw x)
      (hp : (w.task (w.executor e).task).phase = .stopped) :
      Moves (.failed e answer) (w.judge e false)
  | executorDies {e : ℕ} (he : (w.executor e).Live) : Moves (.executorDies e) (w.killExecutor e)

end

/-! ## What a machine leaves alone -/

/-- What every step of machine `v` preserves. If `v` stops, the task
actors that watch it are told, and nothing else about them changes. -/
structure VmFrame (v : ℕ) (w w' : World) : Prop where
  executor : w'.executor = w.executor
  asks : w'.asks = w.asks
  next : w.next ≤ w'.next
  others : ∀ u, u ≠ v → w'.vm u = w.vm u
  task : w'.task = w.task ∧ (w'.vm v).alive = (w.vm v).alive ∨
    w'.task = (fun t => (w.task t).notify (.vm v)) ∧ (w'.vm v).alive = false

theorem notify_notify (r : Ref) (c : TaskCell) : (c.notify r).notify r = c.notify r := by
  unfold TaskCell.notify
  by_cases h : r ∈ c.watching
  · simp [h]
  · simp [h]

theorem VmFrame.refl (v : ℕ) (w : World) : VmFrame v w w :=
  ⟨rfl, rfl, Nat.le_refl _, fun _ _ => rfl, .inl ⟨rfl, rfl⟩⟩

theorem VmFrame.trans {v : ℕ} {w w' w'' : World} (h : VmFrame v w w')
    (h' : VmFrame v w' w'') : VmFrame v w w'' := by
  refine ⟨h'.executor.trans h.executor, h'.asks.trans h.asks, Nat.le_trans h.next h'.next,
    fun u hu => (h'.others u hu).trans (h.others u hu), ?_⟩
  rcases h.task with ⟨ht, ha⟩ | ⟨ht, ha⟩
  · rw [← ht, ← ha]
    exact h'.task
  · right
    rcases h'.task with ⟨ht', ha'⟩ | ⟨ht', ha'⟩
    · exact ⟨ht'.trans ht, ha'.trans ha⟩
    · refine ⟨?_, ha'⟩
      rw [ht', ht]
      funext t
      exact notify_notify (.vm v) (w.task t)

theorem updVm_frame {v : ℕ} {f : VmCell → VmCell} {w : World}
    (hf : (f (w.vm v)).alive = (w.vm v).alive) : VmFrame v w (w.updVm v f) := by
  refine ⟨rfl, rfl, Nat.le_refl _, ?_, .inl ⟨rfl, by simpa using hf⟩⟩
  intro u hu
  simp [hu]

theorem performVm_frame (v : ℕ) (m : Envelope) (w : World) (ef : VmEffect) :
    VmFrame v w (performVm v m w ef) := by
  cases ef with
  | stopSelf =>
    refine ⟨rfl, rfl, Nat.le_refl _, ?_, .inr ⟨rfl, by simp [performVm]⟩⟩
    intro u hu
    simp [performVm, hu]
  | schedule timer =>
    have hf := updVm_frame (v := v) (w := w)
      (f := fun c => { c with timers := c.timers ++ [timer] }) rfl
    exact ⟨rfl, rfl, Nat.le_succ _, hf.others, hf.task⟩
  | reply a =>
    simp only [performVm]
    split
    · exact ⟨rfl, rfl, Nat.le_refl _, fun _ _ => rfl, .inl ⟨rfl, rfl⟩⟩
    · exact .refl v w
  | watch e =>
    simp only [performVm]
    split
    · exact updVm_frame (f := fun c => { c with watching := c.watching.insert e }) rfl
    · exact updVm_frame (f := fun c => { c with mailbox := c.mailbox ++ [_] }) rfl
  | cancel timer => exact updVm_frame (f := fun c => { c with timers := c.timers.erase timer }) rfl
  | _ => exact .refl v w

theorem performVm_foldl_frame (v : ℕ) (m : Envelope) :
    ∀ (es : List VmEffect) (w : World), VmFrame v w (es.foldl (performVm v m) w)
  | [], w => .refl v w
  | ef :: es, w => (performVm_frame v m w ef).trans (performVm_foldl_frame v m es _)

theorem handleVm_frame (v : ℕ) (o : VMProxyActor.Outside) (m : Envelope) (w : World) :
    VmFrame v w (w.handleVm v o m) := by
  have h := performVm_foldl_frame v m
    (VMProxyActor.receive w.next o m.msg (w.vm v).actor).effects
    (w.updVm v fun c => { c with
      actor := (VMProxyActor.receive w.next o m.msg (w.vm v).actor).fields })
  have h' := (updVm_frame (v := v) (w := w) (f := fun c => { c with
      actor := (VMProxyActor.receive w.next o m.msg (w.vm v).actor).fields }) rfl).trans h
  simp only [handleVm]
  split
  · exact h'
  · exact h'.trans (updVm_frame
      (f := fun c => { c with actor := .new, mailbox := c.mailbox ++ [⟨none, .init⟩] }) rfl)

theorem noteDeclined_frame (v : ℕ) (m : Envelope) (w : World) :
    VmFrame v w (w.noteDeclined v m) := by
  unfold noteDeclined
  split
  · split
    · exact ⟨rfl, rfl, Nat.le_refl _, fun _ _ => rfl, .inl ⟨rfl, rfl⟩⟩
    · exact .refl v w
  · exact .refl v w

theorem Moves.vmFrame {w w' : World} {e : Event} {v : ℕ} (hm : w.Moves e w')
    (he : e.machine = some v) : VmFrame v w w' := by
  cases hm with
  | vmTakes hv hmem =>
    obtain rfl := Option.some.inj he
    exact (noteDeclined_frame _ _ w).trans
      ((updVm_frame (f := fun c => { c with mailbox := c.mailbox.erase _ }) rfl).trans
        (handleVm_frame _ _ _ _))
  | vmInput hv ho =>
    obtain rfl := Option.some.inj he
    exact handleVm_frame _ _ _ w
  | configure hv hc hi =>
    obtain rfl := Option.some.inj he
    exact (updVm_frame (f := fun c => { c with configured := true }) rfl).trans
      (handleVm_frame _ _ _ _)
  | vmDies hv =>
    obtain rfl := Option.some.inj he
    exact performVm_frame _ ⟨none, .noMoreTasks⟩ w .stopSelf
  | _ => cases he

/-! ## The list is complete -/

variable {w w' : World}

theorem setActor_self (t : ℕ) : w.setActor t (fun _ => (w.task t).actor) = w := by
  simp [setActor, updTask]

theorem act_self (t h : ℕ) : w.act t h (w.task t).actor [] = w := by
  simp [act, setActor_self]

theorem contextState_active {t : ℕ} (h : (w.task t).phase ≠ .stopped) :
    w.contextState t = .active := by
  simp [contextState, h]

theorem contextState_stopped {t : ℕ} (h : (w.task t).phase = .stopped) :
    w.contextState t = .terminating ∨ w.contextState t = .terminated := by
  unfold contextState
  rw [if_neg (by simp [h])]
  split
  · exact .inl rfl
  · exact .inr rfl

@[simp] theorem contextState_dropReply (r : Reply) (t : ℕ) :
    (w.dropReply r).contextState t = w.contextState t := rfl

@[simp] theorem contextState_dropAsk (a : Ask) (t : ℕ) :
    (w.dropAsk a).contextState t = w.contextState t := rfl

theorem judge_true (e : ℕ) :
    (w.updExecutor e fun c => { c with phase := .suspended }).updExecutor e ExecutorCell.stop =
      w.judge e true := by
  simp [judge, updExecutor, ExecutorCell.stop]

theorem judge_false (e : ℕ) :
    (w.updExecutor e fun c => { c with phase := .suspended }) = w.judge e false := by
  simp [judge]

theorem moves_getTask {t v : ℕ} (h : w.step (.getTask t v) = some w') :
    w.Moves (.getTask t v) w' := by
  simp only [step] at h
  split at h
  · rename_i hp
    obtain rfl := Option.some.inj h
    cases ht : (w.task t).actor.isTaken with
    | true =>
      have hw : w.handleTask t (.getTask v) = w := by
        simp [handleTask, TaskActor.receive_getTask_taken ht, applyTask, act_self]
      rw [hw]
      exact .getTaskTaken hp ht
    | false =>
      simp only [handleTask, TaskActor.receive_getTask_free ht, Outcome.raised_ok, applyTask]
      exact .getTask hp ht
  · cases h

theorem moves_persistAndSuicide {t : ℕ} {reason : String}
    (h : w.step (.persistAndSuicide t reason) = some w') :
    w.Moves (.persistAndSuicide t reason) w' := by
  simp only [step] at h
  split at h
  · rename_i hp
    obtain rfl := Option.some.inj h
    simp only [handleTask, TaskActor.receive_persistAndSuicide, Outcome.raised_ok, applyTask]
    exact .persistAndSuicide hp
  · cases h

theorem takeNotice_actor (t : ℕ) (r : Ref) :
    ((w.takeNotice t r).task t).actor = (w.task t).actor := by
  simp [takeNotice, updTask]

theorem moves_terminated {t : ℕ} {r : Ref} (h : w.step (.terminated t r) = some w') :
    w.Moves (.terminated t r) w' := by
  simp only [step] at h
  split at h
  · rename_i hpr
    obtain ⟨hp, hr⟩ := hpr
    obtain rfl := Option.some.inj h
    change w.Moves _ ((w.takeNotice t r).handleTask t (.terminated r))
    have hnext : (w.takeNotice t r).next = w.next := rfl
    simp only [handleTask, takeNotice_actor, hnext]
    cases hd : (w.task t).actor.taskDone with
    | true =>
      simp only [TaskActor.receive_terminated_done hd, Outcome.raised_ok, applyTask]
      exact .terminatedDone hp hr hd
    | false =>
      cases hv : (w.task t).actor.targetVm with
      | none =>
        simp only [TaskActor.receive_terminated_null hd hv, Outcome.raised_error, applyTask]
        exact .terminatedNull hp hr hd (.inl hv)
      | some v =>
        by_cases hrv : r = .vm v
        · subst hrv
          cases hx : (w.task t).actor.executorActor with
          | none =>
            simp only [TaskActor.receive_terminated_target_null hd hv hx,
              Outcome.raised_error, applyTask]
            exact .terminatedNull hp hr hd (.inr ⟨by simp [hv], hx⟩)
          | some x =>
            simp only [TaskActor.receive_terminated_target hd hv hx, Outcome.raised_ok,
              applyTask]
            exact .terminatedTarget hp hr hd hv hx
        · simp only [TaskActor.receive_terminated_other hd hv hrv, Outcome.raised_ok, applyTask]
          exact .terminatedOther hp hr hd hv hrv
  · cases h

theorem find_ask {asks : List Ask} {r : Reply} {a : Ask}
    (h : asks.find? (fun a => a.handshake = r.handshake ∧ a.kind = .sendTask r.vm) = some a) :
    a ∈ asks ∧ a.handshake = r.handshake ∧ a.kind = .sendTask r.vm := by
  have hp := List.find?_some h
  simp only [decide_eq_true_eq] at hp
  exact ⟨List.mem_of_find?_eq_some h, hp.1, hp.2⟩

theorem Reply.toResult_eq (r : Reply) :
    r.toResult = .acquireExecutor r.vm ∧ r.answer = .acquireExecutor ∨
      r.toResult = .failure ∨ r.toResult = .otherSuccess := by
  unfold Handshake.Reply.toResult
  split <;> simp_all

theorem moves_reply {r : Reply} (h : w.step (.reply r) = some w') : w.Moves (.reply r) w' := by
  simp only [step] at h
  split at h
  · rename_i hr
    split at h
    · rename_i a hfind
      obtain ⟨ha, hh, hk⟩ := find_ask hfind
      obtain rfl := Option.some.inj h
      change w.Moves _ (((w.dropReply r).dropAsk a).callback a.task a.handshake _)
      have hactor : (((w.dropReply r).dropAsk a).task a.task).actor = (w.task a.task).actor := rfl
      simp only [callback, hactor, contextState_dropAsk, contextState_dropReply]
      rcases Reply.toResult_eq r with ⟨hq, hans⟩ | hq | hq
      · simp only [hq]
        by_cases hp : (w.task a.task).phase = .stopped
        · rcases contextState_stopped hp with hc | hc
          · cases hl : (w.task a.task).actor.task.runLocally with
            | true =>
              rw [hc]
              simp only [TaskActor.onSendTask_local_terminating hl, applyTask]
              exact .acquireTerminating hr ha hh hk hans hp
            | false =>
              rw [TaskActor.onSendTask_remote (by simp [hc]) hl]
              simp only [applyTask]
              exact .acquireRemote hr ha hh hk hans (by simp [hc]) hl
          · rw [hc]
            simp only [TaskActor.onSendTask_terminated, applyTask]
            exact .acquireTerminated hr ha hh hk hans hp
        · have hc := contextState_active hp
          cases hl : (w.task a.task).actor.task.runLocally with
          | true =>
            rw [hc]
            simp only [TaskActor.onSendTask_local hl, applyTask]
            exact .acquireLocal hr ha hh hk hans hp hl
          | false =>
            rw [TaskActor.onSendTask_remote (by simp [hc]) hl]
            simp only [applyTask]
            exact .acquireRemote hr ha hh hk hans (by simp [hc]) hl
      · simp only [hq, TaskActor.onSendTask_failure, applyTask]
        exact .replyFailure hr ha hh hk hq
      · simp only [hq, TaskActor.onSendTask_other, applyTask]
        exact .replyOther hr ha hh hk hq
    · rename_i hfind
      obtain rfl := Option.some.inj h
      refine .lateReply hr ?_
      intro a ha hh hk
      have hno := List.find?_eq_none.mp hfind a ha
      simp [hh, hk] at hno
  · cases h

theorem moves_sendTaskTimeout {a : Ask} (h : w.step (.sendTaskTimeout a) = some w') :
    w.Moves (.sendTaskTimeout a) w' := by
  simp only [step] at h
  split at h
  · rename_i v hk
    split at h
    · rename_i ha
      obtain rfl := Option.some.inj h
      have hactor : ((w.dropAsk a).task a.task).actor = (w.task a.task).actor := rfl
      simp only [callback, hactor, TaskActor.onSendTask_failure, applyTask]
      exact .sendTaskTimeout ha hk
    · cases h
  · cases h

theorem moves_address {a : Ask} (h : w.step (.address a) = some w') :
    w.Moves (.address a) w' := by
  simp only [step] at h
  split at h
  · rename_i target hk
    split at h
    · rename_i ha
      obtain rfl := Option.some.inj h
      have hactor : ((w.dropAsk a).task a.task).actor = (w.task a.task).actor := rfl
      simp only [callback, hactor, contextState_dropAsk]
      by_cases hp : (w.task a.task).phase = .stopped
      · rcases contextState_stopped hp with hc | hc
        · simp only [hc, TaskActor.onExecutorAddress_success_terminating, applyTask]
          exact .addressStopped ha hk hp
        · simp only [hc, TaskActor.onExecutorAddress_success_terminated, applyTask]
          exact .addressStopped ha hk hp
      · simp only [contextState_active hp]
        cases hv : (w.task a.task).actor.targetVm with
        | none =>
          simp only [TaskActor.onExecutorAddress_success_null hv, applyTask]
          exact .addressNull ha hk hp hv
        | some v =>
          simp only [TaskActor.onExecutorAddress_success hv, applyTask]
          exact .address ha hk hp hv
    · cases h
  · cases h

theorem moves_addressFails {a : Ask} (h : w.step (.addressFails a) = some w') :
    w.Moves (.addressFails a) w' := by
  simp only [step] at h
  split at h
  · rename_i target hk
    split at h
    · rename_i ha
      obtain rfl := Option.some.inj h
      have hactor : ((w.dropAsk a).task a.task).actor = (w.task a.task).actor := rfl
      simp only [callback, hactor]
      cases hv : (w.task a.task).actor.targetVm with
      | none =>
        simp only [TaskActor.onExecutorAddress_failure_null hv, applyTask]
        exact .addressFailsNull ha hk hv
      | some v =>
        simp only [TaskActor.onExecutorAddress_failure hv, applyTask]
        exact .addressFails ha hk hv
    · cases h
  · cases h

theorem moves_failed {e : ℕ} {answer : StillAliveAnswer}
    (h : w.step (.failed e answer) = some w') : w.Moves (.failed e answer) w' := by
  simp only [step] at h
  split at h
  · rename_i x hx
    split at h
    · rename_i hp
      obtain rfl := Option.some.inj h
      cases ht : (w.task (w.executor e).task).actor.isTaken with
      | false =>
        simp only [decide, TaskActor.supervisorStrategy_notTaken ht, applyTask, act_self,
          judge_true]
        exact .failedNotTaken hx hp ht
      | true =>
        by_cases hres : x.IsResult
        · cases x with
          | testSuccess task res =>
            simp only [decide, TaskActor.supervisorStrategy_success ht, applyTask, judge_false]
            exact .failedEscalate (v := 0) hx hp ht hres (.inl ⟨rfl, task, res, rfl⟩)
          | testFail task res =>
            cases hv : (w.task (w.executor e).task).actor.targetVm with
            | none =>
              simp only [decide, TaskActor.supervisorStrategy_fail_null ht hv, applyTask,
                judge_false]
              exact .failedRaises (v := 0) hx hp ht ⟨task, res, rfl⟩ (.inl ⟨rfl, hv, rfl⟩)
            | some v =>
              cases answer with
              | alive =>
                simp only [decide, TaskActor.supervisorStrategy_fail ht hv, applyTask,
                  judge_false]
                exact .failedEscalate hx hp ht hres
                  (.inr ⟨rfl, rfl, hv, task, res, rfl⟩)
              | notAlive =>
                simp only [decide, TaskActor.supervisorStrategy_fail_notAlive ht hv, applyTask,
                  judge_true]
                exact .failedReset hx hp ht (.inr ⟨rfl, rfl, hv, task, res, rfl⟩)
              | timeout =>
                simp only [decide, TaskActor.supervisorStrategy_fail_timeout ht hv, applyTask,
                  judge_false]
                exact .failedRaises hx hp ht ⟨task, res, rfl⟩ (.inr ⟨rfl, rfl, hv, rfl⟩)
          | _ => exact absurd hres (by simp [Throwable.IsResult])
        · simp only [decide, TaskActor.supervisorStrategy_unexpected ht hres, applyTask,
            judge_true]
          exact .failedReset (v := 0) hx hp ht (.inl ⟨rfl, hres⟩)
    · rename_i hp
      obtain rfl := Option.some.inj h
      rw [judge_false]
      exact .failedStopped hx hp
    · cases h
  · cases h

/-- **What a step can do**: every step is one of the moves. -/
theorem step_moves {e : Event} (h : w.step e = some w') : w.Moves e w' := by
  cases e with
  | create t task tablename =>
    simp only [step] at h
    split at h
    · rename_i hp
      obtain rfl := Option.some.inj h
      exact .create hp
    · cases h
  | getTask t v => exact moves_getTask h
  | persistAndSuicide t reason => exact moves_persistAndSuicide h
  | terminated t r => exact moves_terminated h
  | stop t =>
    simp only [step] at h
    split at h
    · rename_i hp
      obtain rfl := Option.some.inj h
      exact .stop hp.1 hp.2
    · cases h
  | reply r => exact moves_reply h
  | sendTaskTimeout a => exact moves_sendTaskTimeout h
  | address a => exact moves_address h
  | addressFails a => exact moves_addressFails h
  | vmTakes v m o =>
    simp only [step] at h
    split at h
    · rename_i hv
      obtain rfl := Option.some.inj h
      exact .vmTakes hv.1 hv.2
    · cases h
  | vmInput v m o =>
    simp only [step] at h
    split at h
    · rename_i hv
      obtain rfl := Option.some.inj h
      exact .vmInput hv.1 hv.2
    · cases h
  | configure v config o =>
    simp only [step] at h
    split at h
    · rename_i hv
      obtain rfl := Option.some.inj h
      exact .configure hv.1 hv.2.1 hv.2.2
    · cases h
  | vmDies v =>
    simp only [step] at h
    split at h
    · rename_i hv
      obtain rfl := Option.some.inj h
      exact .vmDies hv
    · cases h
  | throws e x =>
    simp only [step] at h
    split at h
    · rename_i hp
      obtain rfl := Option.some.inj h
      exact .throws hp.1 hp.2
    · cases h
  | failed e answer => exact moves_failed h
  | executorDies e =>
    simp only [step] at h
    split at h
    · rename_i he
      obtain rfl := Option.some.inj h
      exact .executorDies he
    · cases h

end World

end Clustering.Handshake
