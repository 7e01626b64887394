/-
Clustering.Tree.Forwarding — does a `GetTask` find a free task?

A `GetTask` goes down the tree along a chain of choices: `InstanceActor`
picks a run of the version, the run a list of nodes, every node its
tasks or its children. Nobody knows which tasks are taken. `Reaches`
follows the choices the workers make in a state, `Free` says of a task
what a choice should lead to.

Above a free task no node has a task left, and the nodes and the run are
all there (`Attached`). So what loses a free task is one of four things:
its run is not the one with the least id, its class is not the one the
run prefers, its node has forgotten it, or a node above still has a task
in its list that is gone. `finds_iff` is exact.
-/
import Mathlib.Logic.Relation
import Clustering.Tree.Attached
import Clustering.Tree.Purity

namespace Clustering.Tree

open Actors Clustering.Worker
open Clustering.Handshake (World)

/-! ## The way of a `GetTask` -/

namespace Workers

/-- A worker that handles a `GetTask` forwards it to `d`. -/
def Forwards (legal : String → Bool) (s : Workers) (q : GetTask) (r d : ℕ) : Prop :=
  (s.cell r).phase = .running ∧
    .forward d (.getTask q) ∈ ((s.cell r).receive legal s.next (.getTask q)).effects

/-- A `GetTask` that comes to the `InstanceActor` is forwarded to `d`, if
everyone on the way handles it as he is now. -/
def Reaches (legal : String → Bool) (s : Workers) (q : GetTask) : ℕ → Prop :=
  Relation.ReflTransGen (s.Forwards legal q) 0

variable {legal : String → Bool} {s : Workers} {q : GetTask} {r d : ℕ}

theorem forwards_iff : s.Forwards legal q r d ↔ (s.cell r).phase = .running ∧
    d ∈ (s.cell r).worker.targets (s.cell r).children q := by
  refine and_congr_right fun _ => ?_
  unfold Cell.receive
  cases hw : (s.cell r).worker with
  | instanceActor a =>
    cases hf : InstanceActor.firstById (a.ofVersion q.version) with
    | none => simp [Turn.of, InstanceActor.receive_getTask_none hf, Worker.targets, hf]
    | some i => simp [Turn.of, InstanceActor.receive_getTask hf, Worker.targets, hf]
  | distributorActor a =>
    by_cases hc : (s.cell r).children = []
    · simp [Turn.of, hc, DistributorActor.receive_getTask_empty, Worker.targets]
    · simp [Turn.of, hc, DistributorActor.receive_getTask q hc, Worker.targets]
  | subWorkerActor single a =>
    have hno : .forward d (.getTask q) ∉ SubWorkerActor.suicide (s.cell r).children := by
      unfold SubWorkerActor.suicide
      split <;> simp
    simp [Turn.of, SubWorkerActor.receive_getTask, Worker.targets, hno]
  | taskActor => simp [Worker.targets]

/-- Forwarding goes down one level. -/
theorem Forwards.parent (h : s.Shape) (hf : s.Forwards legal q r d) :
    d ≠ 0 ∧ d < s.next ∧ (s.cell d).parent = r := by
  rcases Worker.mem_targets (forwards_iff.mp hf).2 with hd | hd
  · obtain ⟨x, hx, rfl⟩ := List.mem_map.mp hd
    obtain ⟨h0, h1, h2, -⟩ := h.child r x hx
    exact ⟨h0, h1, h2⟩
  · exact h.refs r d hd

/-- The way between two actors goes down the tree. -/
theorem above_of_path (h : s.Shape) {p c : ℕ}
    (hp : Relation.ReflTransGen (s.Forwards legal q) p c) : s.Above p c := by
  induction hp with
  | refl => exact .self
  | tail _ hbc ih =>
    obtain ⟨h0, -, hpar⟩ := hbc.parent h
    exact .step h0 (hpar ▸ ih)

/-- Above an actor is also the parent of everyone above it. -/
theorem Above.parent {x c : ℕ} (h : s.Above x c) (h0 : x ≠ 0) :
    s.Above (s.cell x).parent c := by
  induction h with
  | self => exact .step h0 .self
  | step hc _ ih => exact .step hc ih

theorem above_zero {x : ℕ} (h : s.Above x 0) : x = 0 := by
  rcases h.cases_parent with rfl | ⟨h0, -⟩
  · rfl
  · exact absurd rfl h0

/-- Above an actor that is reached everyone is running. -/
theorem Reaches.running (h : s.Shape) {c : ℕ} (hr : s.Reaches legal q c) {x : ℕ}
    (hx : s.Above x c) (hne : x ≠ c) : (s.cell x).phase = .running := by
  induction hr with
  | refl => exact absurd (above_zero hx) hne
  | @tail b c _ hbc ih =>
    rcases hx.cases_parent with rfl | ⟨-, hx⟩
    · exact absurd rfl hne
    · rw [(hbc.parent h).2.2] at hx
      by_cases hxb : x = b
      · subst hxb
        exact hbc.1
      · exact ih hx hxb

end Workers

/-! ## Free tasks -/

/-- A task actor that would offer its task: nobody has taken it, and the
levels above its own are finished, no actor there has a task actor left
among its children. -/
structure System.Free (s : System) (c : ℕ) : Prop where
  task : (s.workers.cell c).worker = .taskActor
  running : (s.world.task c).phase = .running
  notTaken : (s.world.task c).actor.isTaken = false
  levels : ∀ p, s.workers.Above p (s.workers.cell c).parent →
    p ≠ (s.workers.cell c).parent →
      ∀ x ∈ (s.workers.cell p).children, (s.workers.cell x.ref).worker ≠ .taskActor

/-- A registered run of version `v`. -/
def System.Registered (s : System) (v : String) (i : Instance) : Prop :=
  ∃ a, (s.workers.cell 0).worker = .instanceActor a ∧ i ∈ a.ofVersion v

/-- A free task of a registered run of version `v`. -/
def System.FreeIn (s : System) (v : String) (c : ℕ) : Prop :=
  s.Free c ∧ ∃ i, s.Registered v i ∧ s.workers.Above i.ref c

/-- A `GetTask` for a version with free tasks is forwarded to one. -/
def System.Finds (legal : String → Bool) (s : System) (q : GetTask) : Prop :=
  (∃ c, s.FreeIn q.version c) → ∃ c, s.FreeIn q.version c ∧ s.workers.Reaches legal q c

/-- The node of a task has it in its list, or has an empty list. -/
def System.Listed (s : System) (c : ℕ) : Prop :=
  ∀ single a, (s.workers.cell (s.workers.cell c).parent).worker = .subWorkerActor single a →
    a.taskActors = [] ∨ c ∈ a.taskActors

/-- The nodes above the node of a task have no task in their lists. -/
def System.Cleared (s : System) (c : ℕ) : Prop :=
  ∀ p single a, s.workers.Above p (s.workers.cell c).parent →
    p ≠ (s.workers.cell c).parent → (s.workers.cell p).worker = .subWorkerActor single a →
      a.taskActors = []

/-- The run with the least id of this version has a free task: below a
node of the class asked for, unless the run has none of this class, and
listed by its own node. The nodes above list no task, and everyone above
it is running. -/
def System.FirstRunHas (s : System) (q : GetTask) : Prop :=
  ∃ a i d n c, (s.workers.cell 0).worker = .instanceActor a ∧
    InstanceActor.firstById (a.ofVersion q.version) = some i ∧
    (s.workers.cell i.ref).worker = .distributorActor d ∧
    n ≠ 0 ∧ (s.workers.cell n).parent = i.ref ∧ s.workers.Above n c ∧
    (d.listFor q.singleInstance = [] ∨ n ∈ d.listFor q.singleInstance) ∧
    s.Free c ∧ s.Listed c ∧ s.Cleared c ∧
    ∀ x, s.workers.Above x c → x ≠ c → (s.workers.cell x).phase = .running

/-! ## The way down -/

section

variable {legal : String → Bool} {s : System} {q : GetTask} {c : ℕ}

theorem System.Free.lt (hf : s.Free c) (hw : s.WellFormed) : c < s.workers.next :=
  ((hw.leaves.leaf c).mp (by simp [hf.running])).1

theorem System.Free.ne_zero (hf : s.Free c) (hw : s.WellFormed) : c ≠ 0 := by
  rintro rfl
  exact hw.shape.root_ne hf.task

theorem System.Free.not_gone (hf : s.Free c) : ¬ s.workers.Gone s.world c := by
  intro hg
  have hp := hg.1 hf.task
  rw [hf.running] at hp
  cases hp

namespace Workers

variable {w : Workers}

/-- Whom the `InstanceActor` has registered is a run. -/
theorem Shape.run_kind (h : w.Shape) {a : InstanceActor} {i : Instance}
    (ha : (w.cell 0).worker = .instanceActor a) (hi : i ∈ a.instances) :
    ∃ d, (w.cell i.ref).worker = .distributorActor d := by
  have href : i.ref ∈ (w.cell 0).worker.refs := by
    rw [ha]
    exact List.mem_map_of_mem hi
  obtain ⟨-, m, -, hfit⟩ := h.ref_below href
  have hk : (w.cell 0).place.kind = .instanceActor := h.root.2
  rw [hk] at hfit
  cases hw : (w.cell i.ref).worker with
  | distributorActor d => exact ⟨d, rfl⟩
  | _ => simp [Cell.place, hw, Worker.kind] at hfit

/-- Below a run there are nodes. -/
theorem Shape.node_kind (h : w.Shape) {n r : ℕ} {d : DistributorActor} (h0 : n ≠ 0)
    (hn : n < w.next) (hp : (w.cell n).parent = r)
    (hd : (w.cell r).worker = .distributorActor d) :
    ∃ single a, (w.cell n).worker = .subWorkerActor single a := by
  obtain ⟨-, m, -, hfit⟩ := h.fits n h0 hn
  have hk : (w.cell (w.cell n).parent).place.kind = .distributorActor := by
    rw [hp]
    simp [Cell.place, hd, Worker.kind]
  rw [hk] at hfit
  cases hw : (w.cell n).worker with
  | subWorkerActor single a => exact ⟨single, a, rfl⟩
  | _ => simp [Cell.place, hw, Worker.kind] at hfit

/-- Above a task actor there is a node. -/
theorem Shape.task_below_node (h : w.Shape) {c : ℕ} (h0 : c ≠ 0) (hc : c < w.next)
    (ht : (w.cell c).worker = .taskActor) :
    ∃ single a, (w.cell (w.cell c).parent).worker = .subWorkerActor single a := by
  obtain ⟨-, m, -, hfit⟩ := h.fits c h0 hc
  have hk : (w.cell c).place.kind = .taskActor := kind_taskActor.mpr ht
  rw [hk] at hfit
  cases hp : (w.cell (w.cell c).parent).worker with
  | subWorkerActor single a => exact ⟨single, a, rfl⟩
  | _ => simp [Cell.place, hp, Worker.kind] at hfit

/-- Below a node there are nodes and task actors. -/
theorem Shape.below_node (h : w.Shape) {n x : ℕ} (hx : x < w.next) (ha : w.Above n x)
    (hn : ∃ single a, (w.cell n).worker = .subWorkerActor single a)
    (ht : (w.cell x).worker ≠ .taskActor) :
    ∃ single a, (w.cell x).worker = .subWorkerActor single a := by
  induction ha with
  | self => exact hn
  | @step x h0 _ ih =>
    have hplt := (h.fits x h0 hx).1.trans hx
    obtain ⟨single, a, hp⟩ := ih hplt (h.parent_ne_task h0 hx)
    have hk : (w.cell (w.cell x).parent).place.kind = .subWorkerActor single a.group a.tablename :=
      by simp [Cell.place, hp, Worker.kind]
    rcases (h.fits x h0 hx).2.of_subWorker hk with hkind | ⟨single', g, tn, hkind⟩
    · exact absurd (kind_taskActor.mp hkind) ht
    · have hkind' : (w.cell x).worker.kind = .subWorkerActor single' g tn := hkind
      cases hw : (w.cell x).worker with
      | subWorkerActor single a => exact ⟨single, a, rfl⟩
      | _ => simp [hw, Worker.kind] at hkind'

/-- A node that forwards to a node has no task in its list. -/
theorem Forwards.cleared (h : w.Shape) {r d : ℕ} (hf : w.Forwards legal q r d)
    (hd : (w.cell d).worker ≠ .taskActor) {single : Bool} {a : SubWorkerActor}
    (hr : (w.cell r).worker = .subWorkerActor single a) : a.taskActors = [] := by
  have ht := (forwards_iff.mp hf).2
  rw [hr] at ht
  simp only [Worker.targets, SubWorkerActor.targets] at ht
  split at ht
  · assumption
  · -- who is in the list is a task actor
    exact absurd (kind_taskActor.mp (h.tasks r single a hr d ht)) hd

/-- Nor have the nodes above one that a `GetTask` comes to. -/
theorem Reaches.cleared (h : w.Shape) {x : ℕ} (hr : w.Reaches legal q x)
    (hx : (w.cell x).worker ≠ .taskActor) {p : ℕ} (hp : w.Above p x) (hne : p ≠ x)
    {single : Bool} {a : SubWorkerActor} (hw : (w.cell p).worker = .subWorkerActor single a) :
    a.taskActors = [] := by
  induction hr with
  | refl => exact absurd (above_zero hp) hne
  | @tail b x _ hbx ih =>
    obtain ⟨h0, hlt, hpar⟩ := hbx.parent h
    have hpb : w.Above p b := hpar ▸ (hp.cases_parent.resolve_left hne).2
    by_cases hb : p = b
    · subst hb
      exact hbx.cleared h hx hw
    · exact ih (hpar ▸ h.parent_ne_task h0 hlt) hpb hb

end Workers

/-- **From the first node above a free task the way goes on to it**: the
nodes between list no task and look at all their children, and its own
has it listed. -/
theorem System.Free.path (hf : s.Free c) (hw : s.WellFormed)
    (ha : s.workers.Attached s.world) (hl : s.Listed c) (hcl : s.Cleared c)
    (hrun : ∀ x, s.workers.Above x c → x ≠ c → (s.workers.cell x).phase = .running) {n : ℕ}
    (hn : ∃ single a, (s.workers.cell n).worker = .subWorkerActor single a) {x : ℕ}
    (hnx : s.workers.Above n x) (hxc : s.workers.Above x c) :
    Relation.ReflTransGen (s.workers.Forwards legal q) n x := by
  have hc := hf.lt hw
  induction hnx with
  | self => exact .refl
  | @step x h0 hny ih =>
    have hx : x < s.workers.next := (hw.shape.above_le hxc hc).trans_lt hc
    obtain ⟨y, hy⟩ : ∃ y, (s.workers.cell x).parent = y := ⟨_, rfl⟩
    have hyx : y < x := hy ▸ (hw.shape.fits x h0 hx).1
    have hyc : s.workers.Above y c := hy ▸ hxc.parent h0
    have hne : y ≠ c := Nat.ne_of_lt (hyx.trans_le (hw.shape.above_le hxc hc))
    obtain ⟨single, a, hya⟩ := hw.shape.below_node (hyx.trans hx) (hy ▸ hny) hn
      (hy ▸ hw.shape.parent_ne_task h0 hx)
    have hchild : x ∈ (s.workers.cell y).children.map (·.ref) :=
      hy ▸ ha.above hw.shape hc hf.not_gone hxc h0
    refine (ih (hy ▸ hyc)).tail ?_
    rw [hy]
    refine Workers.forwards_iff.mpr ⟨hrun y hyc hne, ?_⟩
    rw [hya]
    show x ∈ a.targets (s.workers.cell y).children
    unfold SubWorkerActor.targets
    by_cases hyp : y = (s.workers.cell c).parent
    · -- the node of the task itself
      have hxc' : x = c := by
        rcases hxc.cases_parent with rfl | ⟨-, hxp⟩
        · rfl
        · have hle := hw.shape.above_le hxp ((hyp ▸ hyx).trans hx)
          omega
      subst hxc'
      rcases hl single a (hyp ▸ hya) with hnil | hmem
      · rwa [if_pos hnil]
      · rwa [if_neg (List.ne_nil_of_mem hmem)]
    · -- a node further up: its tasks are done
      have hup : s.workers.Above y (s.workers.cell c).parent :=
        (hyc.cases_parent.resolve_left hne).2
      rwa [if_pos (hcl y single a hup hyp hya)]

end

/-! ## Exactly when a free task is found -/

/-- **A free task is found exactly if there is none, or the run with the
least id has one** where the `GetTask` is looking. -/
theorem finds_iff {legal : String → Bool} {es : List Event} {s : System}
    (h : (system legal).Run EventSystem.anyStep es s) (q : GetTask) :
    s.Finds legal q ↔ (∀ c, ¬ s.FreeIn q.version c) ∨ s.FirstRunHas q := by
  have hw := wellFormed_run h
  constructor
  · intro hfinds
    by_cases hfree : ∃ c, s.FreeIn q.version c
    · right
      obtain ⟨c, ⟨hf, -⟩, hreach⟩ := hfinds hfree
      -- the first hop picks the run, the second the node
      rcases hreach.cases_head with h0 | ⟨r, h0r, hrc⟩
      · exact absurd h0.symm (hf.ne_zero hw)
      obtain ⟨a, ha⟩ := hw.shape.instanceActor
      obtain ⟨i, hi, rfl⟩ : ∃ i, InstanceActor.firstById (a.ofVersion q.version) = some i ∧
          i.ref = r := by
        have ht := (Workers.forwards_iff.mp h0r).2
        rw [ha] at ht
        simpa [Worker.targets] using ht
      obtain ⟨d, hd⟩ := hw.shape.run_kind ha
        (List.mem_of_mem_filter (InstanceActor.firstById_mem hi))
      rcases hrc.cases_head with hrc | ⟨n, hrn, hnc⟩
      · rw [hrc, hf.task] at hd
        cases hd
      obtain ⟨hn0, hnlt, hnp⟩ := hrn.parent hw.shape
      obtain h0 | ⟨y, hy, hyc⟩ := hreach.cases_tail
      · exact absurd h0 (hf.ne_zero hw)
      obtain ⟨-, hclt, hcy⟩ := hyc.parent hw.shape
      refine ⟨a, i, d, n, c, ha, hi, hd, hn0, hnp, Workers.above_of_path hw.shape hnc, ?_, hf, ?_,
        ?_, fun x hx hne => hreach.running hw.shape hx hne⟩
      · have ht := (Workers.forwards_iff.mp hrn).2
        rw [hd] at ht
        simp only [Worker.targets, DistributorActor.targets] at ht
        split at ht
        · cases ht
        · split at ht
          · exact .inl ‹_›
          · exact .inr ht
      · -- the last hop
        intro single b hb
        have ht := (Workers.forwards_iff.mp hyc).2
        rw [← hcy, hb] at ht
        simp only [Worker.targets, SubWorkerActor.targets] at ht
        split at ht
        · exact .inl ‹_›
        · exact .inr ht
      · intro p single b hp hne hb
        have hnode := hw.shape.parent_ne_task (hf.ne_zero hw) hclt
        rw [hcy] at hp hne hnode
        exact Workers.Reaches.cleared hw.shape hy hnode hp hne hb
    · exact .inl fun c hc => hfree ⟨c, hc⟩
  · rintro (hnone | ⟨a, i, d, n, c, ha, hi, hd, hn0, hnp, hnc, hlist, hf, hl, hcl, hrun⟩)
    · rintro ⟨c, hc⟩
      exact absurd hc (hnone c)
    · rintro -
      have hat := attached_run h
      have hc := hf.lt hw
      have hmem := InstanceActor.firstById_mem hi
      have hnlt : n < s.workers.next := (hw.shape.above_le hnc hc).trans_lt hc
      have hic : s.workers.Above i.ref c := hnp ▸ hnc.parent hn0
      have hrne : i.ref ≠ c := by
        intro hic
        rw [hic, hf.task] at hd
        cases hd
      refine ⟨c, ⟨hf, i, ⟨a, ha, hmem⟩, hic⟩, ?_⟩
      -- the `InstanceActor` picks the run
      have h0r : s.workers.Forwards legal q 0 i.ref := by
        have href := hw.shape.refs 0 i.ref (by
          rw [ha]
          exact List.mem_map_of_mem (List.mem_of_mem_filter hmem))
        have h0c : s.workers.Above 0 c := href.2.2 ▸ hic.parent href.1
        refine Workers.forwards_iff.mpr ⟨hrun 0 h0c (hf.ne_zero hw).symm, ?_⟩
        rw [ha]
        simp [Worker.targets, hi]
      -- the run picks the node
      have hrn : s.workers.Forwards legal q i.ref n := by
        have hchild : n ∈ (s.workers.cell i.ref).children.map (·.ref) :=
          hnp ▸ hat.above hw.shape hc hf.not_gone hnc hn0
        refine Workers.forwards_iff.mpr ⟨hrun i.ref hic hrne, ?_⟩
        rw [hd]
        have hne : (s.workers.cell i.ref).children ≠ [] := by
          intro hnil
          rw [hnil] at hchild
          cases hchild
        simp only [Worker.targets, DistributorActor.targets, if_neg hne]
        rcases hlist with hnil | hmem
        · rwa [if_pos hnil]
        · rwa [if_neg (List.ne_nil_of_mem hmem)]
      exact (Relation.ReflTransGen.single h0r).tail hrn |>.trans
        (hf.path hw hat hl hcl hrun (hw.shape.node_kind hn0 hnlt hnp hd) hnc .self)

/-! ## Two uploads of one version -/

/-- With no node above the node of an actor, it has no level above its
own. -/
theorem System.no_levels {s : System} (hw : s.WellFormed) {c : ℕ}
    (hno : ∀ p, s.workers.Above p (s.workers.cell c).parent → p ≠ (s.workers.cell c).parent →
      ∀ single a, (s.workers.cell p).worker ≠ .subWorkerActor single a) :
    (∀ p, s.workers.Above p (s.workers.cell c).parent → p ≠ (s.workers.cell c).parent →
      ∀ x ∈ (s.workers.cell p).children, (s.workers.cell x.ref).worker ≠ .taskActor) ∧
    s.Cleared c := by
  refine ⟨fun p hp hne x hx ht => ?_, fun p single a hp hne hw => absurd hw (hno p hp hne single a)⟩
  obtain ⟨h0, hlt, hpar, -⟩ := hw.shape.child p x hx
  obtain ⟨single, a, hnode⟩ := hw.shape.task_below_node h0 hlt ht
  rw [hpar] at hnode
  exact hno p hp hne single a hnode

/-- Actor 3 is the only task of the only run, and nobody has taken it. -/
def OneFreeTask (s : System) : Prop :=
  (s.workers.cell 0).worker = .instanceActor ⟨[⟨"run", 1, "1.0", ⟨"1.0"⟩⟩]⟩ ∧
    (s.workers.cell 1).worker = .distributorActor ⟨[], [2]⟩ ∧
    (s.workers.cell 2).worker = .subWorkerActor false ⟨["a"], "run", [3]⟩ ∧
    (s.workers.cell 2).parent = 1 ∧ (s.workers.cell 3).parent = 2 ∧
    (s.workers.cell 3).worker = .taskActor ∧ (s.world.task 3).phase = .running ∧
    (s.world.task 3).actor.isTaken = false ∧ ∀ x < 3, (s.workers.cell x).phase = .running

instance : DecidablePred OneFreeTask := fun _ => by
  unfold OneFreeTask
  infer_instance

theorem finds_iff_placedRun : ∃ s, (system anyName).Run EventSystem.anyStep
    (placedRun 0 parallelTask) s ∧ s.FreeIn "1.0" 3 ∧ s.Finds anyName ⟨"1.0", false⟩ := by
  obtain ⟨s, hr, h0, h1, h2, hp2, hp3, h3, hph, htaken, hrun⟩ : ∃ s, (system anyName).Run
      EventSystem.anyStep (placedRun 0 parallelTask) s ∧ OneFreeTask s :=
    EventSystem.exists_run_of_exec (by decide)
  have hshape := (wellFormed_run hr).shape
  have hlt : 3 < s.workers.next := ((wellFormed_run hr).leaves.leaf 3).mp (by simp [hph]) |>.1
  have hle : ∀ x, s.workers.Above x 3 → x ≤ 3 := fun x hx => hshape.above_le hx hlt
  have hup : ∀ x, s.workers.Above x (s.workers.cell 3).parent → x ≤ 2 := by
    rw [hp3]
    exact fun x hx => hshape.above_le hx (by omega)
  obtain ⟨hlevels, hcleared⟩ := System.no_levels (c := 3) (wellFormed_run hr) (by
    intro p hp hne single a hw
    have hp2 := hup p hp
    rw [hp3] at hne
    obtain rfl | rfl : p = 0 ∨ p = 1 := by omega
    · rw [h0] at hw
      cases hw
    · rw [h1] at hw
      cases hw)
  have hfree : s.Free 3 := ⟨h3, hph, htaken, hlevels⟩
  have h23 : s.workers.Above 2 3 := .step (by decide) (hp3 ▸ .self)
  have h13 : s.workers.Above 1 3 := hp2 ▸ h23.parent (by decide)
  refine ⟨s, hr, ⟨hfree, _, ⟨_, h0, List.mem_singleton_self _⟩, h13⟩, (finds_iff hr _).mpr (.inr ?_)⟩
  refine ⟨_, _, _, 2, 3, h0, rfl, h1, by decide, hp2, h23, .inr (by decide), hfree, ?_,
    hcleared, ?_⟩
  · intro single a ha
    rw [hp3, h2] at ha
    cases ha
    exact .inr (by decide)
  · intro x hx hne
    exact hrun x (by have := hle x hx; omega)

/-- The later upload of the two. -/
def otherUpload : AddTask :=
  ⟨"sun", ["a"], ⟨"Tests", "other", false, false⟩, some ⟨"1.0"⟩⟩

/-- Two runs with a task each, then a `GetTask` for the task of the
first. -/
def twoUploads : List (System → Option Event) :=
  [cue (.input 0 (.addTask parallelTask)), takesNext 1, takesNext 2,
    cue (.input 0 (.addTask otherUpload)), takesNext 4, takesNext 5,
    cue (.input 0 (.getTask ⟨"1.0", false⟩)), takesNext 1, takesNext 2, takesNext 3]

/-- A `GetTask` gets no further than actor 3, whose task is taken. The
task of actor 6 is not. -/
def OtherFree (s : System) : Prop :=
  (∀ x < 4, ∀ d ∈ (s.workers.cell x).worker.targets (s.workers.cell x).children ⟨"1.0", false⟩,
      d < 4) ∧
    (∀ x < 4, (s.workers.cell x).worker = .taskActor →
      (s.world.task x).actor.isTaken = true) ∧
    (s.workers.cell 0).worker = .instanceActor
      ⟨[⟨"sun", 4, "1.0", ⟨"1.0"⟩⟩, ⟨"run", 1, "1.0", ⟨"1.0"⟩⟩]⟩ ∧
    (s.workers.cell 4).worker = .distributorActor ⟨[], [5]⟩ ∧
    (s.workers.cell 4).parent = 0 ∧ (s.workers.cell 5).parent = 4 ∧
    (s.workers.cell 6).parent = 5 ∧ (s.workers.cell 6).worker = .taskActor ∧
    (s.world.task 6).phase = .running ∧ (s.world.task 6).actor.isTaken = false

instance : DecidablePred OtherFree := fun _ => by
  unfold OtherFree
  infer_instance

/-- **The second upload of a version waits for the first**: the only task
of the first is taken, the task of the second is free, and no `GetTask`
gets to it. -/
theorem second_upload_waits : ∃ es s, (system anyName).Run EventSystem.anyStep es s ∧
    s.FreeIn "1.0" 6 ∧ ¬ s.Finds anyName ⟨"1.0", false⟩ := by
  obtain ⟨es, s, hr, hto, htaken, h0, h4, hp4, hp5, hp6, h6, hph, hfree6⟩ :
      ∃ es s, (system anyName).Run EventSystem.anyStep es s ∧ OtherFree s :=
    @EventSystem.exists_run_of_play _ _ (system anyName) _ _ OtherFree _ twoUploads
      (by decide +kernel)
  have h56 : s.workers.Above 5 6 := .step (by decide) (hp6 ▸ .self)
  have h46 : s.workers.Above 4 6 := hp5 ▸ h56.parent (by decide)
  have hfree : s.FreeIn "1.0" 6 := by
    refine ⟨⟨h6, hph, hfree6, (System.no_levels (wellFormed_run hr) ?_).1⟩, _,
      ⟨_, h0, List.mem_cons_self⟩, h46⟩
    intro p hp hne single a hw
    rw [hp6] at hp hne
    rcases hp.cases_parent with rfl | ⟨-, hp⟩
    · exact absurd rfl hne
    rw [hp5] at hp
    rcases hp.cases_parent with rfl | ⟨-, hp⟩
    · rw [h4] at hw
      cases hw
    · rw [hp4] at hp
      obtain rfl := Workers.above_zero hp
      rw [h0] at hw
      cases hw
  have hfirst : ∀ c, s.workers.Reaches anyName ⟨"1.0", false⟩ c → c < 4 := by
    intro c hreach
    induction hreach with
    | refl => decide
    | tail _ hbc ih => exact hto _ ih _ (Workers.forwards_iff.mp hbc).2
  refine ⟨es, s, hr, hfree, fun hfinds => ?_⟩
  obtain ⟨c, ⟨hc, -⟩, hreach⟩ := hfinds ⟨6, hfree⟩
  have ht := htaken c (hfirst c hreach) hc.task
  rw [hc.notTaken] at ht
  cases ht

end Clustering.Tree
