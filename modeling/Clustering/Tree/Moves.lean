/-
Clustering.Tree.Moves — everything one step of the workers can do.

`Turns` lists what the code of one worker can leave when it handles a
message, whatever its class: an `AddTask` is passed on, spawns a child,
becomes a task actor or is refused; a `GetTask` is forwarded; and so
on. The classes differ in three functions, `Worker.hop` (the child an
`AddTask` goes to), `Worker.enlist` (what is noted about a new child)
and `Worker.targets` (who gets a `GetTask`).

`Workers.Moves` lists the steps, and `step_moves` says that the list is
complete. Every invariant of the tree is a case analysis over the two.
-/
import Clustering.Tree.World

namespace Clustering.Tree

open Actors Clustering.Worker
open Clustering.Handshake (World)

/-! ## What the classes differ in -/

namespace Worker

/-- The name of the child an `AddTask` goes to. -/
def hop : Worker → AddTask → Option String
  | .instanceActor _, m => some m.instanceId
  | .distributorActor _, m => m.group.head?
  | .subWorkerActor _ a, m =>
      if a.group.length < m.group.length then
        some (mkString "." (SubWorkerActor.nextGroup a.group.length m))
      else none
  | .taskActor, _ => none

/-- The class of that child, if it has to be created. -/
def hopProps (pathName : String) : Worker → AddTask → Props
  | .distributorActor _, m =>
      SubWorkerActor.subProps m.task.singleInstance (m.group.take 1) pathName
  | .subWorkerActor _ a, m =>
      SubWorkerActor.subProps m.task.singleInstance
        (SubWorkerActor.nextGroup a.group.length m) a.tablename
  | _, _ => .distributorActor

/-- What is noted about the new child. -/
def enlist (fresh : ℕ) (m : AddTask) : Worker → Worker
  | .instanceActor a =>
      match m.version with
      | some info =>
          .instanceActor ⟨⟨m.instanceId, fresh, info.version, info⟩ :: a.instances⟩
      | none => .instanceActor a
  | .distributorActor a => .distributorActor (a.enlist m.task.singleInstance fresh)
  | w => w

/-- The children a `GetTask` is forwarded to. -/
def targets (cs : List Child) (q : GetTask) : Worker → List ℕ
  | .instanceActor a => ((InstanceActor.firstById (a.ofVersion q.version)).map (·.ref)).toList
  | .distributorActor a => if cs = [] then [] else a.targets cs q
  | .subWorkerActor _ a => a.targets cs
  | .taskActor => []

/-- What is left when the child `t` has terminated. -/
def mourn (cs : List Child) (t : ℕ) : Worker → Worker
  | .instanceActor a => .instanceActor ⟨a.instances.filter (·.ref ≠ t)⟩
  | .distributorActor a =>
      if cs = [] then .distributorActor a
      else .distributorActor
        ⟨a.singleInstanceList.filter (· ≠ t), a.groupInstanceList.filter (· ≠ t)⟩
  | w => w

/-- Registering a run takes a version. -/
def CanEnlist (m : AddTask) : Worker → Prop
  | .instanceActor _ => m.version.isSome
  | _ => True

/-- The run of `t` is in the registry, if this is the registry. -/
def Knows (t : ℕ) : Worker → Prop
  | .instanceActor a => ∃ i ∈ a.instances, i.ref = t
  | _ => True

end Worker

/-- Lines on the console, or none; `context.stop(self)`, only without
children; or an answer to the sender. -/
def Aside (cs : List Child) (rest : List WorkerEffect) : Prop :=
  (∃ ls : List ConsoleLine, rest = ls.map .println) ∨ rest = [.stopSelf] ∧ cs = [] ∨
    ∃ a, rest = [.reply a]

/-- Effects that only watch children. -/
def Watches (ws : List WorkerEffect) : Prop := ∀ e ∈ ws, ∃ x, e = .watch x

section

variable (legal : String → Bool) (fresh : ℕ) (c : Cell)

/-- What the code of a worker leaves when it handles a message. -/
inductive Turns : WorkerMessage → Turn → Prop
  | pass {m : AddTask} {n : String} {d : ℕ} {ws : List WorkerEffect}
      (hh : c.worker.hop m = some n) (hc : childNamed c.children (.named n) = some d)
      (hws : Watches ws) :
      Turns (.addTask m) ⟨c.worker, c.children, .tell d (.addTask m) :: ws, none⟩
  | spawn {m : AddTask} {n : String} {ws : List WorkerEffect}
      (hh : c.worker.hop m = some n) (hc : childNamed c.children (.named n) = none)
      (hl : legal n = true) (he : c.worker.CanEnlist m) (hws : Watches ws)
      (hw : .watch fresh ∈ ws) :
      Turns (.addTask m) ⟨c.worker.enlist fresh m, ⟨.named n, fresh⟩ :: c.children,
        .actorOf fresh (.named n) (c.worker.hopProps c.name.text m) ::
          .tell fresh (.addTask m) :: ws, none⟩
  | place {m : AddTask} {single : Bool} {a : SubWorkerActor}
      (hw : c.worker = .subWorkerActor single a) (hg : m.group.length ≤ a.group.length)
      (hl : legal (ActorName.task m.task.method fresh).text = true) :
      Turns (.addTask m) ⟨.subWorkerActor single { a with taskActors := fresh :: a.taskActors },
        ⟨.task m.task.method fresh, fresh⟩ :: c.children,
        [.actorOf fresh (.task m.task.method fresh) (.taskActor m.task a.tablename),
          .watch fresh], none⟩
  /-- No child can be created for it. -/
  | refuse {m : AddTask} {x : Throwable} (hx : ¬ x.IsResult)
      (hm : (∃ n, c.worker.hop m = some n ∧ childNamed c.children (.named n) = none ∧
          legal n = false) ∨
        (∃ a, c.worker = .distributorActor a) ∧ m.group = [] ∨
        (∃ single a, c.worker = .subWorkerActor single a ∧ m.group.length ≤ a.group.length) ∧
          (legal (ActorName.task m.task.method fresh).text = false ∨
            (childNamed c.children (.task m.task.method fresh)).isSome)) :
      Turns (.addTask m) ⟨c.worker, c.children, [], some x⟩
  /-- The version is null. -/
  | unregistered {m : AddTask} {n : String} {a : InstanceActor}
      (hw : c.worker = .instanceActor a) (hh : c.worker.hop m = some n) (hv : m.version = none)
      (hc : childNamed c.children (.named n) = none) :
      Turns (.addTask m) ⟨c.worker, ⟨.named n, fresh⟩ :: c.children,
        [.actorOf fresh (.named n) .distributorActor], some .nullPointer⟩
  | serve {q : GetTask} {rest : List WorkerEffect} (hr : Aside c.children rest) :
      Turns (.getTask q) ⟨c.worker, c.children,
        (c.worker.targets c.children q).map (fun x => .forward x (.getTask q)) ++ rest, none⟩
  | mourn {t : ℕ} {rest : List WorkerEffect} (hk : c.worker.Knows t)
      (hr : Aside c.children rest) :
      Turns (.terminated t) ⟨c.worker.mourn c.children t, c.children, rest, none⟩
  /-- A run that is not in the registry. -/
  | unknown {t : ℕ} {a : InstanceActor} (hw : c.worker = .instanceActor a)
      (hk : ∀ i ∈ a.instances, i.ref ≠ t) :
      Turns (.terminated t) ⟨c.worker, c.children, [], some .noSuchElement⟩
  | cancel {reason : String} {single : Bool} {a : SubWorkerActor}
      (hw : c.worker = .subWorkerActor single a) :
      Turns (.persistAndSuicide reason) ⟨.subWorkerActor single { a with taskActors := [] },
        c.children, c.children.map fun x => .tell x.ref (.persistAndSuicide reason), none⟩
  | ignore {m : WorkerMessage} {rest : List WorkerEffect} (hr : Aside c.children rest)
      (hm : m.toAddTask = none) (hq : ∀ q, m ≠ .getTask q) (ht : ∀ t, m ≠ .terminated t)
      (hp : ∀ reason, m = .persistAndSuicide reason →
        ∀ single a, c.worker ≠ .subWorkerActor single a) :
      Turns m ⟨c.worker, c.children, rest, none⟩

end

section

variable {legal : String → Bool} {fresh : ℕ} {c : Cell}

theorem watches_nil : Watches [] := by simp [Watches]

theorem watches_cons {ws : List WorkerEffect} (d : ℕ) (h : Watches ws) :
    Watches (.watch d :: ws) := by
  intro e he
  rcases List.mem_cons.mp he with rfl | he
  · exact ⟨d, rfl⟩
  · exact h e he

theorem watches_children (cs : List Child) : Watches (cs.map fun x => .watch x.ref) := by
  simp [Watches]

theorem aside_lines (cs : List Child) (ls : List ConsoleLine) : Aside cs (ls.map .println) :=
  .inl ⟨ls, rfl⟩

theorem aside_nil (cs : List Child) : Aside cs [] := aside_lines cs []

theorem aside_reply (cs : List Child) (r : InstanceReply) : Aside cs [.reply r] :=
  .inr (.inr ⟨r, rfl⟩)

theorem aside_stop {cs : List Child} (h : cs = []) : Aside cs [.stopSelf] := .inr (.inl ⟨rfl, h⟩)

theorem aside_suicide (cs : List Child) : Aside cs (SubWorkerActor.suicide cs) := by
  unfold SubWorkerActor.suicide
  split
  · rename_i h
    exact aside_stop h
  · exact aside_nil cs

theorem not_isResult_invalid (n : String) : ¬ (Throwable.invalidActorName n).IsResult := by
  simp [Throwable.IsResult]

theorem instance_turns {a : InstanceActor} (hw : c.worker = .instanceActor a)
    (msg : WorkerMessage) :
    Turns legal fresh c msg
      (.of .instanceActor (InstanceActor.receive legal fresh msg ⟨a, c.children⟩)) := by
  cases msg with
  | addTask m =>
    have hh : c.worker.hop m = some m.instanceId := by rw [hw]; rfl
    cases hc : childNamed c.children (.named m.instanceId) with
    | some d =>
      rw [InstanceActor.receive_addTask_pass hc, Turn.of_ok, ← hw]
      exact .pass hh hc watches_nil
    | none =>
      cases hl : legal m.instanceId with
      | false =>
        rw [InstanceActor.receive_addTask_illegal hc hl, Turn.of_error, ← hw]
        exact .refuse (not_isResult_invalid _) (.inl ⟨_, hh, hc, hl⟩)
      | true =>
        cases hv : m.version with
        | none =>
          rw [InstanceActor.receive_addTask_noVersion hc hl hv, Turn.of_error, ← hw]
          exact .unregistered hw hh hv hc
        | some info =>
          rw [InstanceActor.receive_addTask_spawn hc hl hv, Turn.of_ok]
          have h : Turns legal fresh c (.addTask m) _ :=
            .spawn hh hc hl (by simp [hw, Worker.CanEnlist, hv]) (watches_cons fresh watches_nil)
              (by simp)
          simpa [hw, Worker.enlist, Worker.hopProps, hv] using h
  | getTask q =>
    cases hf : InstanceActor.firstById (a.ofVersion q.version) with
    | none =>
      rw [InstanceActor.receive_getTask_none hf]
      have h : Turns legal fresh c (.getTask q) _ := .serve (aside_reply _ .noMoreTasks)
      simpa [hw, Worker.targets, hf] using h
    | some i =>
      rw [InstanceActor.receive_getTask hf]
      have h : Turns legal fresh c (.getTask q) _ := .serve (aside_nil _)
      simpa [hw, Worker.targets, hf] using h
  | terminated t =>
    by_cases hk : ∃ i ∈ a.instances, i.ref = t
    · obtain ⟨i, -, -, hf⟩ := InstanceActor.find_ref hk
      rw [InstanceActor.receive_terminated hf]
      have h : Turns legal fresh c (.terminated t) _ :=
        .mourn (by rw [hw]; exact hk) (aside_lines _ (InstanceActor.doneLines a i))
      simpa [hw, Worker.mourn] using h
    · have hk' : ∀ i ∈ a.instances, i.ref ≠ t := fun i hi hit => hk ⟨i, hi, hit⟩
      rw [InstanceActor.receive_terminated_unknown hk', Turn.of_error, ← hw]
      exact .unknown hw hk'
  | getDeployInfo =>
    have h : ∃ r, Turn.of Worker.instanceActor
        (InstanceActor.receive legal fresh .getDeployInfo ⟨a, c.children⟩) =
          ⟨.instanceActor a, c.children, [.reply r], none⟩ := by
      cases hf : InstanceActor.firstById a.instances with
      | none =>
        refine ⟨.noDeployInfo, ?_⟩
        simp [InstanceActor.receive, InstanceActor.handleGetDeployInfo, hf]
      | some i =>
        refine ⟨.deployInfo i.info, ?_⟩
        simp [InstanceActor.receive, InstanceActor.handleGetDeployInfo, hf]
    obtain ⟨r, hr⟩ := h
    rw [hr, ← hw]
    exact .ignore (aside_reply _ r) rfl (by simp) (by simp) (by simp)
  | getInstanceActor =>
    show Turns legal fresh c _ ⟨.instanceActor a, c.children, [.reply .setInstanceActor], none⟩
    rw [← hw]
    exact .ignore (aside_reply _ _) rfl (by simp) (by simp) (by simp)
  | persistAndSuicide reason =>
    show Turns legal fresh c _ ⟨.instanceActor a, c.children, [], none⟩
    rw [← hw]
    exact .ignore (aside_nil _) rfl (by simp) (by simp) (by simp [hw])

theorem distributor_turns {a : DistributorActor} (hw : c.worker = .distributorActor a)
    (msg : WorkerMessage) :
    Turns legal fresh c msg (.of .distributorActor
      (DistributorActor.receive legal fresh c.name.text msg ⟨a, c.children⟩)) := by
  cases msg with
  | addTask m =>
    cases hg : m.group with
    | nil =>
      rw [DistributorActor.receive_addTask_empty hg, Turn.of_error, ← hw]
      exact .refuse (by simp [Throwable.IsResult]) (.inr (.inl ⟨⟨a, hw⟩, hg⟩))
    | cons api gs =>
      have hh : c.worker.hop m = some api := by simp [hw, Worker.hop, hg]
      cases hc : childNamed c.children (.named api) with
      | some d =>
        rw [DistributorActor.receive_addTask_pass hg hc, Turn.of_ok, ← hw]
        exact .pass hh hc (watches_children _)
      | none =>
        cases hl : legal api with
        | false =>
          rw [DistributorActor.receive_addTask_illegal hg hc hl, Turn.of_error, ← hw]
          exact .refuse (not_isResult_invalid _) (.inl ⟨_, hh, hc, hl⟩)
        | true =>
          rw [DistributorActor.receive_addTask_spawn hg hc hl, Turn.of_ok]
          have h : Turns legal fresh c (.addTask m) _ :=
            .spawn hh hc hl (by simp [hw, Worker.CanEnlist])
              (watches_cons fresh (watches_children c.children)) (by simp)
          simpa [hw, Worker.enlist, Worker.hopProps, hg] using h
  | getTask q =>
    by_cases hc : c.children = []
    · rw [hc, DistributorActor.receive_getTask_empty]
      have h : Turns legal fresh c (.getTask q) _ := .serve (aside_stop hc)
      simpa [hw, Worker.targets, hc] using h
    · rw [DistributorActor.receive_getTask q hc]
      have h : Turns legal fresh c (.getTask q) _ := .serve (aside_nil _)
      simpa [hw, Worker.targets, hc] using h
  | terminated t =>
    have hk : c.worker.Knows t := by simp [hw, Worker.Knows]
    by_cases hc : c.children = []
    · rw [hc, DistributorActor.receive_terminated_empty]
      have h : Turns legal fresh c (.terminated t) _ := .mourn hk (aside_stop hc)
      simpa [hw, Worker.mourn, hc] using h
    · rw [DistributorActor.receive_terminated t hc]
      have h : Turns legal fresh c (.terminated t) _ := .mourn hk (aside_nil _)
      simpa [hw, Worker.mourn, hc] using h
  | _ =>
    show Turns legal fresh c _ ⟨.distributorActor a, c.children, [], none⟩
    rw [← hw]
    exact .ignore (aside_nil _) rfl (by simp) (by simp) (by simp [hw])

theorem subWorker_turns {single : Bool} {a : SubWorkerActor}
    (hw : c.worker = .subWorkerActor single a) (msg : WorkerMessage) :
    Turns legal fresh c msg (.of (.subWorkerActor single)
      (SubWorkerActor.receive legal fresh msg ⟨a, c.children⟩)) := by
  cases msg with
  | addTask m =>
    by_cases hg : a.group.length < m.group.length
    · have hh : c.worker.hop m = some (mkString "." (SubWorkerActor.nextGroup a.group.length m)) := by
        simp [hw, Worker.hop, hg]
      generalize hn : mkString "." (SubWorkerActor.nextGroup a.group.length m) = n at hh
      cases hc : childNamed c.children (.named n) with
      | some d =>
        rw [SubWorkerActor.receive_addTask_pass hg (hn ▸ hc), Turn.of_ok, ← hw]
        exact .pass hh hc watches_nil
      | none =>
        cases hl : legal n with
        | false =>
          rw [SubWorkerActor.receive_addTask_illegal hg (hn ▸ hc) (hn ▸ hl), Turn.of_error, ← hw]
          exact .refuse (not_isResult_invalid _) (.inl ⟨_, hh, hc, hl⟩)
        | true =>
          rw [SubWorkerActor.receive_addTask_spawn hg (hn ▸ hc) (hn ▸ hl), Turn.of_ok]
          have h : Turns legal fresh c (.addTask m) _ :=
            .spawn hh hc hl (by simp [hw, Worker.CanEnlist]) (watches_cons fresh watches_nil)
              (by simp)
          simpa [hw, Worker.enlist, Worker.hopProps, hn] using h
    · have hg' := Nat.not_lt.mp hg
      have hsub : ∃ single a, c.worker = .subWorkerActor single a ∧
          m.group.length ≤ a.group.length := ⟨single, a, hw, hg'⟩
      cases hl : legal (ActorName.task m.task.method fresh).text with
      | false =>
        rw [SubWorkerActor.receive_addTask_taskIllegal hg' hl, Turn.of_error, ← hw]
        exact .refuse (not_isResult_invalid _) (.inr (.inr ⟨hsub, .inl hl⟩))
      | true =>
        cases hc : childNamed c.children (.task m.task.method fresh) with
        | some d =>
          rw [SubWorkerActor.receive_addTask_taskUsed hg' hc, Turn.of_error, ← hw]
          exact .refuse (not_isResult_invalid _) (.inr (.inr ⟨hsub, .inr (by simp [hc])⟩))
        | none =>
          rw [SubWorkerActor.receive_addTask_task hg' hc hl, Turn.of_ok]
          exact .place hw hg' hl
  | getTask q =>
    rw [SubWorkerActor.receive_getTask]
    have h : Turns legal fresh c (.getTask q) _ := .serve (aside_suicide c.children)
    simpa [hw, Worker.targets] using h
  | terminated t =>
    rw [SubWorkerActor.receive_terminated]
    have h : Turns legal fresh c (.terminated t) _ :=
      .mourn (by simp [hw, Worker.Knows]) (aside_suicide c.children)
    simpa [hw, Worker.mourn] using h
  | persistAndSuicide reason =>
    rw [SubWorkerActor.receive_persistAndSuicide]
    exact .cancel hw
  | _ =>
    show Turns legal fresh c _ ⟨.subWorkerActor single a, c.children, [], none⟩
    rw [← hw]
    exact .ignore (aside_nil _) rfl (by simp) (by simp) (by simp)

/-- The list of turns is complete. -/
theorem receive_turns (hw : c.worker ≠ .taskActor) (msg : WorkerMessage) :
    Turns legal fresh c msg (c.receive legal fresh msg) := by
  unfold Cell.receive
  split
  · rename_i a ha
    exact instance_turns ha msg
  · rename_i a ha
    exact distributor_turns ha msg
  · rename_i single a ha
    exact subWorker_turns ha msg
  · rename_i ha
    exact absurd ha hw

end

/-! ## Steps -/

namespace Workers

section

variable (legal : String → Bool) (w : World) (s : Workers)

/-- The parent of `c` is running and has it as a child. -/
structure Supervised (c : ℕ) : Prop where
  root : c ≠ 0
  running : (s.cell (s.cell c).parent).phase = .running
  child : s.IsChild c

/-- What the workers do at an event, with the event of the handshake it
goes with. -/
inductive Moves : Event → Workers → Option Handshake.Event → Prop
  | input {v : ℕ} {msg : WorkerMessage} {t : Turn} (hp : (s.cell 0).phase = .running)
      (hm : External msg) (hw : (s.cell 0).worker ≠ .taskActor)
      (ht : Turns legal s.next (s.cell 0) msg t) :
      Moves (.input v msg) ((s.note msg).perform 0 0 ⟨v, s.clock, []⟩ msg.toAddTask t) (birth t)
  | takes {r : ℕ} {l : Letter} {t : Turn} (hl : (s.cell r).mailbox.head? = some l)
      (hp : (s.cell r).phase = .running) (hw : (s.cell r).worker ≠ .taskActor)
      (ht : Turns legal s.next (s.cell r) l.msg t) :
      Moves (.takes r l) ((s.pop r).perform r r l.toStamp l.msg.toAddTask t) (birth t)
  | taskTakes {r : ℕ} {l : Letter} (hl : (s.cell r).mailbox.head? = some l)
      (hw : (s.cell r).worker = .taskActor) (hp : (w.task r).phase = .running) :
      Moves (.takes r l) (s.pop r) (taskEvent r l)
  | judgeSuccess {c : ℕ} {task : Task} {res : Option String} {single : Bool}
      {a : SubWorkerActor} (hf : s.failure w c = some (.testSuccess task res))
      (hc : s.Supervised c) (hw : (s.cell (s.cell c).parent).worker = .subWorkerActor single a)
      {s' : Workers} {he : Option Handshake.Event}
      (hs : (s', he) = (s.perform (s.cell c).parent c ⟨0, s.clock, []⟩ none
        ⟨.subWorkerActor single (a.forget c), (s.cell (s.cell c).parent).children,
          [.tellDb (a.successRecord task res)], none⟩).stopChild c) :
      Moves (.judge c (.testSuccess task res)) s' he
  | judgeFailure {c : ℕ} {task : Task} {res : Cause} {single : Bool}
      {a : SubWorkerActor} (hf : s.failure w c = some (.testFail task (some res)))
      (hc : s.Supervised c) (hw : (s.cell (s.cell c).parent).worker = .subWorkerActor single a)
      {s' : Workers} {he : Option Handshake.Event}
      (hs : (s', he) = (s.perform (s.cell c).parent c ⟨0, s.clock, []⟩ none
        ⟨.subWorkerActor single (a.forget c), (s.cell (s.cell c).parent).children,
          .tellDb (a.failureRecord task res) ::
            (s.cell (s.cell c).parent).children.map fun x =>
              .tell x.ref (.persistAndSuicide task.fullName), none⟩).stopChild c) :
      Moves (.judge c (.testFail task (some res))) s' he
  /-- The parent fails, with the exception of its child or its own. -/
  | judgeFails {c : ℕ} {x x' : Throwable} (hf : s.failure w c = some x)
      (hc : s.Supervised c)
      (hx : (∃ single a, (s.cell (s.cell c).parent).worker = .subWorkerActor single a) ∧
          (¬ x.IsResult ∧ x' = x ∨ (∃ task, x = .testFail task none) ∧ x' = .nullPointer) ∨
        (∀ single a, (s.cell (s.cell c).parent).worker ≠ .subWorkerActor single a) ∧
          x.IsResult ∧ x' = x) :
      Moves (.judge c x) (s.fail (s.cell c).parent x') none
  | judgeRestarts {c : ℕ} {x : Throwable} (hf : s.failure w c = some x)
      (hc : s.Supervised c)
      (hw : ∀ single a, (s.cell (s.cell c).parent).worker ≠ .subWorkerActor single a)
      (hx : ¬ x.IsResult) : Moves (.judge c x) (s.restart c) none
  /-- The guardian restarts the `InstanceActor`. -/
  | guardian {x : Throwable} (hf : s.failure w 0 = some x) : Moves (.judge 0 x) (s.restart 0) none
  | stops {c : ℕ} (hr : c ≠ 0) (hc : s.IsChild c)
      (hp : (s.cell (s.cell c).parent).phase = .restarting ∨
        (s.cell (s.cell c).parent).phase = .stopped)
      {s' : Workers} {he : Option Handshake.Event} (hs : (s', he) = s.stopChild c) :
      Moves (.stops c) s' he
  | terminates {c : ℕ} (hr : c ≠ 0) (hc : s.IsChild c) (hd : s.Dead w c) :
      Moves (.terminates c) (s.bury c) none
  | recreate {r : ℕ} (hp : (s.cell r).phase = .restarting)
      (hc : (s.cell r).children = []) :
      Moves (.recreate r)
        (s.updCell r fun c => { c with worker := c.worker.renew, phase := .running }) none
  | execute {e : ℕ} {o : Execution} :
      Moves (.execute e o) s (some (.throws e
        (TaskExecutorActor.run (w.task (w.executor e).task).actor.task o)))
  | handshake {e : Handshake.Event} (hi : Internal e) : Moves (.handshake e) s (some e)

end

section

variable {legal : String → Bool} {w : World} {s : Workers}

/-- Code without effects changes only the fields. -/
theorem perform_nil (r about : ℕ) (stamp : Stamp) (origin : Option AddTask) :
    s.perform r about stamp origin ⟨(s.cell r).worker, (s.cell r).children, [], none⟩ = s := by
  have hcell : ∀ c, s.acting r origin ⟨(s.cell r).worker, (s.cell r).children, [], none⟩ c =
      s.cell c := by
    intro c
    unfold acting
    split
    · rename_i hc
      subst hc
      simp [acted]
    · rfl
  simp [perform, hcell, born]

/-- Code that only raises fails. -/
theorem perform_raise (r about : ℕ) (stamp : Stamp) (origin : Option AddTask)
    (x : Throwable) :
    s.perform r about stamp origin ⟨(s.cell r).worker, (s.cell r).children, [], some x⟩ =
      s.fail r x := by
  have hcell : ∀ c, s.acting r origin ⟨(s.cell r).worker, (s.cell r).children, [], some x⟩ c =
      (s.fail r x).cell c := by
    intro c
    unfold acting fail
    by_cases hc : c = r
    · subst hc
      simp [acted]
    · simp [born, hc]
  simp only [perform, hcell, born, List.findSome?_nil, List.filterMap_nil, List.append_nil]
  rfl

theorem judge_unexpected {c : ℕ} {x : Throwable} {single : Bool} {a : SubWorkerActor}
    (hw : (s.cell (s.cell c).parent).worker = .subWorkerActor single a) (hx : ¬ x.IsResult) :
    s.judge c x = (s.fail (s.cell c).parent x, none) := by
  simp only [judge, hw, SubWorkerActor.supervisorStrategy_unexpected hx, Turn.of_ok]
  rw [← hw, perform_nil]

theorem judge_null {c : ℕ} {task : Task} {single : Bool} {a : SubWorkerActor}
    (hw : (s.cell (s.cell c).parent).worker = .subWorkerActor single a) :
    s.judge c (.testFail task none) = (s.fail (s.cell c).parent .nullPointer, none) := by
  simp only [judge, hw, SubWorkerActor.supervisorStrategy_failure_null, Turn.of_error]
  rw [← hw, perform_raise]

/-- Akka's default decider. -/
theorem judge_default {c : ℕ} {x : Throwable}
    (hw : ∀ single a, (s.cell (s.cell c).parent).worker ≠ .subWorkerActor single a) :
    s.judge c x =
      if x.IsResult then (s.fail (s.cell c).parent x, none) else (s.restart c, none) := by
  unfold judge defaultDecider
  cases hp : (s.cell (s.cell c).parent).worker with
  | subWorkerActor single a => exact absurd hp (hw single a)
  | _ => by_cases hx : x.IsResult <;> simp [hx]

theorem judge_moves {c : ℕ} {x : Throwable} (hf : s.failure w c = some x)
    (hc : s.Supervised c) : Moves legal w s (.judge c x) (s.judge c x).1 (s.judge c x).2 := by
  by_cases hsub : ∃ single a, (s.cell (s.cell c).parent).worker = .subWorkerActor single a
  · obtain ⟨single, a, hw⟩ := hsub
    by_cases hx : x.IsResult
    · cases x with
      | testSuccess task res =>
        refine .judgeSuccess hf hc hw ?_
        simp [judge, hw, SubWorkerActor.supervisorStrategy_success]
      | testFail task res =>
        cases res with
        | some res =>
          refine .judgeFailure hf hc hw ?_
          simp [judge, hw, SubWorkerActor.supervisorStrategy_failure]
        | none =>
          rw [judge_null hw]
          exact .judgeFails hf hc (.inl ⟨⟨_, _, hw⟩, .inr ⟨⟨_, rfl⟩, rfl⟩⟩)
      | _ => exact absurd hx (by simp [Throwable.IsResult])
    · rw [judge_unexpected hw hx]
      exact .judgeFails hf hc (.inl ⟨⟨_, _, hw⟩, .inl ⟨hx, rfl⟩⟩)
  · have hw : ∀ single a, (s.cell (s.cell c).parent).worker ≠ .subWorkerActor single a :=
      fun single a h => hsub ⟨single, a, h⟩
    rw [judge_default hw]
    by_cases hx : x.IsResult
    · rw [if_pos hx]
      exact .judgeFails hf hc (.inr ⟨hw, hx, rfl⟩)
    · rw [if_neg hx]
      exact .judgeRestarts hf hc hw hx

/-- The list of steps is complete. -/
theorem step_moves {e : Event} {s' : Workers} {he : Option Handshake.Event}
    (hroot : (s.cell 0).worker ≠ .taskActor) (h : s.step legal w e = some (s', he)) :
    Moves legal w s e s' he := by
  cases e with
  | input v msg =>
    simp only [step] at h
    split at h
    · rename_i hp
      obtain ⟨rfl, rfl⟩ : _ = s' ∧ _ = he := by simpa [handle] using h
      have hnote : ((s.note msg).cell 0) = s.cell 0 ∧ (s.note msg).next = s.next := by
        cases msg <;> exact ⟨rfl, rfl⟩
      rw [hnote.1, hnote.2]
      exact .input hp.1 hp.2 hroot (receive_turns hroot msg)
    · cases h
  | takes r l =>
    simp only [step] at h
    split at h
    · rename_i hl
      by_cases hw : (s.cell r).worker = .taskActor
      · simp only [hw] at h
        split at h
        · rename_i hp
          obtain ⟨rfl, rfl⟩ : _ = s' ∧ _ = he := by simpa using h
          exact .taskTakes hl hw hp
        · cases h
      · have h' : (if (s.cell r).phase = .running then some ((s.pop r).handle legal r l)
            else none) = some (s', he) := by
          cases hcase : (s.cell r).worker with
          | taskActor => exact absurd hcase hw
          | _ => simpa [hcase] using h
        split at h'
        · rename_i hp
          obtain ⟨rfl, rfl⟩ : _ = s' ∧ _ = he := by simpa [handle] using h'
          have hcell : ((s.pop r).cell r).receive legal (s.pop r).next l.msg =
              (s.cell r).receive legal s.next l.msg := by
            simp [pop, Cell.receive]
          rw [hcell]
          exact .takes hl hp hw (receive_turns hw l.msg)
        · cases h'
    · cases h
  | judge c x =>
    simp only [step] at h
    split at h
    · rename_i hf
      split at h
      · rename_i hc
        obtain ⟨rfl, rfl⟩ : _ = s' ∧ _ = he := by simpa using h
        subst hc
        exact .guardian hf
      · rename_i hc
        split at h
        · rename_i hp
          have h := Option.some.inj h
          have hm := @judge_moves legal _ _ _ _ hf ⟨hc, hp.1, hp.2⟩
          rwa [h] at hm
        · cases h
    · cases h
  | stops c =>
    simp only [step] at h
    split at h
    · rename_i hc
      exact .stops hc.1 hc.2.1 hc.2.2 (Option.some.inj h).symm
    · cases h
  | terminates c =>
    simp only [step] at h
    split at h
    · rename_i hc
      obtain ⟨rfl, rfl⟩ : _ = s' ∧ _ = he := by simpa using h
      exact .terminates hc.1 hc.2.1 hc.2.2
    · cases h
  | recreate r =>
    simp only [step] at h
    split at h
    · rename_i hr
      obtain ⟨rfl, rfl⟩ : _ = s' ∧ _ = he := by simpa using h
      exact .recreate hr.1 hr.2
    · cases h
  | execute e o =>
    obtain ⟨rfl, rfl⟩ : _ = s' ∧ _ = he := by simpa [step] using h
    exact .execute
  | handshake e =>
    simp only [step] at h
    split at h
    · rename_i hi
      obtain ⟨rfl, rfl⟩ : _ = s' ∧ _ = he := by simpa using h
      exact .handshake hi
    · cases h

end

end Workers

/-- A handshake event happens, or nothing does. -/
def Follows (w : World) (he : Option Handshake.Event) (w' : World) : Prop :=
  he = none ∧ w' = w ∨ ∃ e, he = some e ∧ w.step e = some w'

/-- What a step of the system is made of. -/
theorem System.step_moves {legal : String → Bool} {s s' : System} {e : Event}
    (hroot : (s.workers.cell 0).worker ≠ .taskActor) (h : s.step legal e = some s') :
    ∃ t he, Workers.Moves legal s.world s.workers e t he ∧ Follows s.world he s'.world ∧
      s'.workers = t.tick := by
  simp only [System.step, Option.bind_eq_bind, Option.bind_eq_some_iff] at h
  obtain ⟨⟨t, he⟩, ht, w', hw, hs⟩ := h
  obtain rfl := Option.some.inj hs
  refine ⟨t, he, Workers.step_moves hroot ht, ?_, rfl⟩
  cases he with
  | none => exact .inl ⟨rfl, (Option.some.inj hw).symm⟩
  | some e => exact .inr ⟨e, rfl, hw⟩

end Clustering.Tree
