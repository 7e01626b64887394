/-
Clustering.Tree.Purity — whether a task is below nodes of its own class.

The class of a node is that of the first task whose group led to it;
later tasks find it by name only. `FindsOwnClass` is what it takes for
the classes to mean something: a task that is passed on to a node that
is there already finds one of its own class. `node_type_purity` is the
invariant of all runs in which that is so, and `mixedRun` a run of two
tasks in which it is not.
-/
import Clustering.Tree.Mail

namespace Clustering.Tree

open Actors Clustering.Worker
open Clustering.Handshake (World)

/-- The tasks a node is for, by its class: `true` for a
`SingleInstanceActor`, `false` for a `GroupActor`. -/
def Worker.singleInstance : Worker → Option Bool
  | .subWorkerActor single _ => some single
  | _ => none

theorem Worker.singleInstance_of_kind {x y : Worker} (h : x.kind = y.kind) :
    x.singleInstance = y.singleInstance := by
  cases x <;> cases y <;> simp_all [Worker.kind, Worker.singleInstance]

/-- A node that is created is of the class of its first task. -/
theorem singleInstance_new {x : Worker} {name : String} {m : AddTask} {b : Bool}
    (h : b ∈ (Worker.new (x.hopProps name m)).singleInstance) : b = m.task.singleInstance := by
  have hsub : ∀ g tn, b ∈ (Worker.new
      (SubWorkerActor.subProps m.task.singleInstance g tn)).singleInstance →
        b = m.task.singleInstance := by
    intro g tn h
    cases hs : m.task.singleInstance <;> rw [hs] at h <;> exact (Option.some.inj h).symm
  cases x with
  | distributorActor a => exact hsub _ _ h
  | subWorkerActor single a => exact hsub _ _ h
  | instanceActor a => cases h
  | taskActor => cases h

namespace Workers

variable {legal : String → Bool} {w : World} {s s' : Workers} {e : Event}
  {he : Option Handshake.Event}

/-- The child of `r` that is there for an `AddTask`. -/
def destination (s : Workers) (r : ℕ) (m : AddTask) : Option ℕ :=
  ((s.cell r).worker.hop m).bind fun n => childNamed (s.cell r).children (.named n)

/-- All nodes from `c` upwards are for such tasks. -/
def OneClass (s : Workers) (single : Bool) (c : ℕ) : Prop :=
  ∀ p, s.Above p c → ∀ b ∈ (s.cell p).worker.singleInstance, b = single

/-- Tasks are, and are on their way, below nodes of their class only. -/
structure Pure (s : Workers) : Prop where
  mail : ∀ c l m, l ∈ (s.cell c).mailbox → l.msg = .addTask m → s.OneClass m.task.singleInstance c
  origin : ∀ c m, c < s.next → (s.cell c).origin = some m → s.OneClass m.task.singleInstance c

theorem OneClass.grows {single : Bool} {c : ℕ} (h : s.OneClass single c) (hs : s.Shape)
    (hg : Grows s s' he) (hc : c < s.next) : s'.OneClass single c := by
  intro p ha b hb
  have ha := (hg.above hs hc).mp ha
  have hp := Nat.lt_of_le_of_lt (hs.above_le ha hc) hc
  rw [Worker.singleInstance_of_kind (hg.kind hp)] at hb
  exact h p ha b hb

theorem OneClass.child {single : Bool} {r c : ℕ} (h : s.OneClass single r)
    (hp : (s.cell c).parent = r)
    (hc : ∀ b ∈ (s.cell c).worker.singleInstance, b = single) : s.OneClass single c := by
  intro p ha b hb
  rcases ha.cases_parent with rfl | ⟨-, ha⟩
  · exact hc b hb
  · exact h p (hp ▸ ha) b hb

/-- The `InstanceActor` is of no class. -/
theorem Shape.oneClass_root (h : s.Shape) (single : Bool) : s.OneClass single 0 := by
  intro p ha b hb
  rcases ha.cases_parent with rfl | ⟨h0, -⟩
  · have hk := h.root.2
    cases hw : (s.cell 0).worker with
    | subWorkerActor single a =>
      rw [hw] at hk
      cases hk
    | _ =>
      rw [hw] at hb
      cases hb
  · exact absurd rfl h0

/-- What a worker handles belongs where it is. -/
theorem Pure.handles (h : s.Pure) (hs : s.Shape) {r : ℕ} {l : Letter} {t : Turn}
    (hh : Handles legal s e r l t) {m : AddTask} (hm : l.msg = .addTask m) :
    s.OneClass m.task.singleInstance r := by
  rcases hh.mem with hl | ⟨rfl, -⟩
  · exact h.mail r l m hl hm
  · exact hs.oneClass_root _

end Workers

/-- An `AddTask` that is passed on to a node finds one of its class. -/
def FindsOwnClass (s : System) : Event → Prop
  | .takes r ⟨_, .addTask m⟩ => ∀ d ∈ s.workers.destination r m,
      ∀ b ∈ (s.workers.cell d).worker.singleInstance, b = m.task.singleInstance
  | _ => True

instance (s : System) : DecidablePred (FindsOwnClass s) := fun e => by
  unfold FindsOwnClass
  split <;> infer_instance

namespace Workers

variable {legal : String → Bool} {w : World} {s s' : Workers} {e : Event}
  {he : Option Handshake.Event}

/-- The child an `AddTask` finds is of its class. -/
theorem finds_child (hs : s.Shape) {r d : ℕ} {l : Letter} {t : Turn} {m : AddTask} {n : String}
    (hok : FindsOwnClass ⟨s, w⟩ e) (hh : Handles legal s e r l t) (hm : l.msg = .addTask m)
    (hn : (s.cell r).worker.hop m = some n)
    (hd : childNamed (s.cell r).children (.named n) = some d) :
    ∀ b ∈ (s.cell d).worker.singleInstance, b = m.task.singleInstance := by
  have hdest : d ∈ s.destination r m := by simp [destination, hn, hd]
  cases hh with
  | input hp hw hext ht =>
    -- below the `InstanceActor` there are no nodes
    have hf := (hs.below (childNamed_some hd)).2.2
    have hk : (s.cell 0).place.kind = .instanceActor := hs.root.2
    obtain ⟨m₀, -, hf⟩ := hf
    rw [hk] at hf
    intro b hb
    cases hwd : (s.cell d).worker with
    | subWorkerActor single a => simp [Cell.place, hwd, Worker.kind] at hf
    | _ => simp [hwd, Worker.singleInstance] at hb
  | @takes r l t hp hw hl ht =>
    obtain ⟨st, msg⟩ := l
    obtain rfl : msg = _ := hm
    exact hok d hdest

/-- **One step keeps the classes apart.** -/
theorem Pure.step (h : s.Pure) (hs : s.Shape) (hok : FindsOwnClass ⟨s, w⟩ e)
    (hm : Moves legal w s e s' he) : s'.Pure := by
  have hg := hm.grows hs
  have horigin : ∀ c m, c < s'.next → (s'.cell c).origin = some m →
      s'.OneClass m.task.singleInstance c := by
    intro c m hc ho
    rcases hg.lt_or_eq hc with hlt | ⟨rfl, hn⟩
    · rw [hg.origin hlt] at ho
      exact (h.origin c m hlt ho).grows hs hg hlt
    · obtain ⟨r, l, t, n, props, hh, -, hb, hcell⟩ := hm.newborn hs hn
      obtain ⟨m', hm', hprops⟩ := Turns.born_cases hh.turns hb
      rw [hcell] at ho
      obtain rfl : m' = m := by simpa [hm', WorkerMessage.toAddTask] using ho
      have hr := (h.handles hs hh hm').grows hs hg (hh.lt hs)
      refine hr.child (by rw [hcell]) ?_
      intro b hb
      rw [hcell] at hb
      rcases hprops with ⟨x, -, -, -, rfl⟩ | ⟨single, a, -, -, -, rfl⟩
      · exact singleInstance_new hb
      · cases hb
  refine ⟨?_, horigin⟩
  intro c l m hl' hmsg
  rcases hm.mem_mailbox hs hl' with hl | hl
  · exact (h.mail c l m hl hmsg).grows hs hg (hs.lt_of_mem hl)
  · cases hl with
    | @handled r l₀ t hh hst hsay =>
      rw [hmsg] at hsay
      obtain ⟨hm₀, n, hn, hd⟩ := Turns.says_addTask hh.turns hsay
      rcases hd with ⟨hd, -⟩ | ⟨-, rfl, -, -, -, -, hb⟩
      · have hchild := hs.below (childNamed_some hd)
        have hp := (hs.child r _ (childNamed_some hd)).2.2.1
        refine OneClass.grows ?_ hs hg hchild.1
        exact (h.handles hs hh hm₀).child hp (finds_child hs hok hh hm₀ hn hd)
      · -- the node was created for it
        have hn' : s'.next = s.next + 1 := by
          rcases hg.lt_or_eq ((hm.shape hs).lt_of_mem hl') with hlt | ⟨-, hn'⟩
          · exact absurd hlt (Nat.lt_irrefl _)
          · exact hn'
        obtain ⟨r', l', t', n', props, hh', -, hb', hcell⟩ := hm.newborn hs hn'
        obtain ⟨rfl, rfl⟩ := hh.unique hh'
        refine horigin _ m (by omega) ?_
        rw [hcell]
        simp [hm₀, WorkerMessage.toAddTask]
    | cancels he hw hd hc hl =>
      rw [hl] at hmsg
      cases hmsg
    | buried he hd hi hc hw hl =>
      rw [hl] at hmsg
      cases hmsg

theorem Pure.tick (h : s.Pure) : s.tick.Pure := by
  constructor
  · intro c l m hl hm p ha
    exact h.mail c l m hl hm p (tick_above.mp ha)
  · intro c m hc ho p ha
    exact h.origin c m hc ho p (tick_above.mp ha)

theorem pure_init : System.init.workers.Pure := by
  constructor
  · intro c l m hl
    by_cases hc : c = 0 <;> simp [System.init, hc] at hl
  · intro c m hc ho
    by_cases hc : c = 0 <;> simp [System.init, hc] at ho

theorem Shape.origin (h : s.Shape) {c : ℕ} (h0 : c ≠ 0) (hc : c < s.next) :
    ∃ m, (s.cell c).origin = some m := by
  obtain ⟨m, hm, -⟩ := (h.fits c h0 hc).2
  exact ⟨m, hm⟩

end Workers

theorem pure_run {legal : String → Bool} {es : List Event} {s : System}
    (h : (system legal).Run (fun _ => FindsOwnClass) es s) : s.workers.Pure :=
  workers_run Workers.pure_init
    (fun _ _ _ _ _ hw hp hok hm => (hp.step hw.shape hok hm).tick) h

/-- **Every task is below nodes of its class only**, at every depth, in
every run in which an `AddTask` never finds a node of the other class on
its way. -/
theorem node_type_purity {legal : String → Bool} {es : List Event} {s : System}
    (h : (system legal).Run (fun _ => FindsOwnClass) es s) {p c : ℕ} {single : Bool}
    {a : SubWorkerActor} (hc : c < s.workers.next) (hcw : (s.workers.cell c).worker = .taskActor)
    (hp : s.workers.Above p c) (hpw : (s.workers.cell p).worker = .subWorkerActor single a) :
    (s.world.task c).actor.task.singleInstance = single := by
  have hw := wellFormed_run h
  have h0 : c ≠ 0 := by
    intro h0
    subst h0
    exact hw.shape.root_ne hcw
  obtain ⟨m, hm⟩ := hw.shape.origin h0 hc
  rw [(hw.leaves.task c m hc hcw hm).1]
  have hone := (pure_run h).origin c m hc hm
  exact (hone p hp single (by rw [hpw]; rfl)).symm

/-! ## Two classes under one name -/

def parallelTask : AddTask :=
  ⟨"run", ["a"], ⟨"Tests", "parallel", false, false⟩, some ⟨"1.0"⟩⟩

def secondTask : AddTask := ⟨"run", ["a"], ⟨"Tests", "second", false, false⟩, some ⟨"1.0"⟩⟩

/-- A task one level below `parallelTask`. -/
def deepTask : AddTask := ⟨"run", ["a", "b"], ⟨"Tests", "deep", false, false⟩, some ⟨"1.0"⟩⟩

def exclusiveTask : AddTask :=
  ⟨"run", ["a"], ⟨"Tests", "exclusive", true, false⟩, some ⟨"1.0"⟩⟩

/-- The letter that carries an `AddTask` number `n` along these hops. -/
def addTaskLetter (n : ℕ) (hops : List Hop) (m : AddTask) : Letter :=
  ⟨⟨0, n, hops⟩, .addTask m⟩

/-- `m`, sent at time `n`, is placed two levels down by the workers 1
and 2. -/
def placedRun (n : ℕ) (m : AddTask) : List Event :=
  [.input 0 (.addTask m),
    .takes 1 (addTaskLetter n [⟨0, n⟩] m),
    .takes 2 (addTaskLetter n [⟨1, n + 1⟩, ⟨0, n⟩] m)]

/-- Two tasks of one group and one a level below: the second and the third
find the node of the first. -/
def sameClassRun : List Event :=
  placedRun 0 parallelTask ++ placedRun 3 secondTask ++ placedRun 6 deepTask ++
    [.takes 5 (addTaskLetter 6 [⟨2, 8⟩, ⟨1, 7⟩, ⟨0, 6⟩] deepTask)]

def anyName : String → Bool := fun _ => true

/-- The tasks of actors 3, 4 and 6 are below the `GroupActor` that is
actor 2. -/
def ParallelPlaced (s : System) : Prop :=
  6 < s.workers.next ∧ (∀ c ∈ [3, 4, 6], (s.workers.cell c).worker = .taskActor) ∧
    (∀ c ∈ [3, 4, 5], (s.workers.cell c).parent = 2) ∧ (s.workers.cell 6).parent = 5 ∧
    (s.workers.cell 2).worker = .subWorkerActor false ⟨["a"], "run", [4, 3]⟩

instance : DecidablePred ParallelPlaced := fun _ => by
  unfold ParallelPlaced
  infer_instance

theorem node_type_purity_sameClassRun : ∃ s, (system anyName).Run (fun _ => FindsOwnClass)
    sameClassRun s ∧ ∀ c ∈ [3, 4, 6], (s.world.task c).actor.task.singleInstance = false := by
  obtain ⟨s, hr, hnext, htask, hparent, hbelow, hnode⟩ :
      ∃ s, (system anyName).Run (fun _ => FindsOwnClass) sameClassRun s ∧ ParallelPlaced s :=
    EventSystem.exists_run_of_execWhen (by decide)
  have habove : ∀ c ∈ [3, 4, 6], s.workers.Above 2 c := by
    intro c hc
    rcases List.mem_cons.mp hc with rfl | hc
    · exact .step (by decide) (hparent 3 (by decide) ▸ .self)
    rcases List.mem_cons.mp hc with rfl | hc
    · exact .step (by decide) (hparent 4 (by decide) ▸ .self)
    · obtain rfl := List.mem_singleton.mp hc
      exact .step (by decide)
        (hbelow ▸ .step (by decide) (hparent 5 (by decide) ▸ .self))
  refine ⟨s, hr, fun c hc => ?_⟩
  have hlt : c < s.workers.next := by
    have hle : ∀ c ∈ [3, 4, 6], c ≤ 6 := by decide
    exact Nat.lt_of_le_of_lt (hle c hc) hnext
  exact node_type_purity hr hlt (htask c hc) (habove c hc) hnode

/-- Two tasks of one group, one of either class: the first decides. -/
def mixedRun : List Event := placedRun 0 parallelTask ++ placedRun 3 exclusiveTask

/-- The task of actor 4 is not of the class of its parent, actor 2. -/
def ExclusiveMisplaced (s : System) : Prop :=
  4 < s.workers.next ∧ (s.workers.cell 4).worker = .taskActor ∧
    (s.workers.cell 4).parent = 2 ∧
    (s.workers.cell 2).worker = .subWorkerActor false ⟨["a"], "run", [4, 3]⟩ ∧
    (s.world.task 4).actor.task.singleInstance = true

instance : DecidablePred ExclusiveMisplaced := fun _ => by
  unfold ExclusiveMisplaced
  infer_instance

/-- **Groups are not told apart by class**: a task for a single instance
ends up below a `GroupActor`. -/
theorem single_instance_below_group : ∃ s, (system anyName).Run EventSystem.anyStep mixedRun s ∧
    ∃ p c a, c < s.workers.next ∧ (s.workers.cell c).worker = .taskActor ∧
      s.workers.Above p c ∧ (s.workers.cell p).worker = .subWorkerActor false a ∧
      (s.world.task c).actor.task.singleInstance = true := by
  obtain ⟨s, hr, h1, h2, h3, h4, h5⟩ : ∃ s, (system anyName).Run EventSystem.anyStep
      mixedRun s ∧ ExclusiveMisplaced s := EventSystem.exists_run_of_exec (by decide)
  exact ⟨s, hr, 2, 4, _, h1, h2, .step (by decide) (h3 ▸ .self), h4, h5⟩

end Clustering.Tree
