/-
Clustering.Tree.PrefixTree — the dependency tree is the prefix tree of
the groups.

A node is found by its name, the members of its group joined with dots,
and each class of worker builds the level below it by itself. `node_cases`
is what this comes to at one node; induction over its group gives the
path from the root (`node_unique`, `node_prefix`). Tasks and nodes have
one name space below a node: `Shape.text_inj` says that the texts of
their names are different all the same.

`prefix_tree` is about every run in which the tasks of one run have been
added and placed and none has finished. The text `TASK-<method>-` has to
be a legal name, which the code does not check: `illegal_method_lost` is
a task of which no task actor remains.
-/
import Mathlib.Data.List.Induction
import Clustering.Java.Strings
import Clustering.Tree.Growth

namespace Clustering.Tree

open Actors Clustering.Worker
open Clustering.Handshake (World)

/-! ## Texts of names -/

/-- The text of a name with its random number. -/
def fullText : ActorName → String
  | .named name => name
  | .task method random => "TASK-" ++ method ++ "-" ++ toString random

/-- What follows the last dash. -/
theorem takeWhile_dash {xs ds : List Char} (hd : '-' ∉ ds) :
    (xs ++ '-' :: ds).reverse.takeWhile (· ≠ '-') = ds.reverse := by
  rw [List.reverse_append, List.reverse_cons, List.append_assoc,
    List.takeWhile_append_of_pos]
  · simp
  · intro c hc
    rw [List.mem_reverse] at hc
    simp only [ne_eq, decide_not, Bool.not_eq_true', decide_eq_false_iff_not]
    rintro rfl
    exact hd hc

/-- The random number can be read off the name of a task actor. -/
theorem task_text_inj {m m' : String} {n n' : ℕ}
    (h : fullText (.task m n) = fullText (.task m' n')) : n = n' := by
  have hl := congrArg (fun x : String => x.toList.reverse.takeWhile (· ≠ '-')) h
  simp only [fullText, String.toList_append] at hl
  have hdash : ∀ k : ℕ, '-' ∉ (toString k).toList := fun k => Java.not_digit_mem (by decide)
  have hone : "-".toList = ['-'] := by decide
  rw [hone, List.append_assoc _ ['-'], List.append_assoc _ ['-']] at hl
  change ((_ ++ '-' :: (toString n).toList).reverse.takeWhile _) =
    ((_ ++ '-' :: (toString n').toList).reverse.takeWhile _) at hl
  rw [takeWhile_dash (hdash n), takeWhile_dash (hdash n')] at hl
  exact Java.toString_inj (String.toList_inj.mp (List.reverse_injective hl))

/-- The name of a task actor has no dot. -/
theorem dot_not_mem_task {m : String} (hm : '.' ∉ m.toList) (n : ℕ) :
    '.' ∉ (fullText (.task m n)).toList := by
  have hdot : '.' ∉ (toString n).toList := Java.not_digit_mem (by decide)
  simp only [fullText, String.toList_append, List.mem_append, not_or]
  exact ⟨⟨⟨by decide, hm⟩, by decide⟩, hdot⟩

/-- The name of a node below a node has one. -/
theorem dot_mem_mkString {g : List String} (hg : g ≠ []) (x : String) :
    '.' ∈ (mkString "." (g ++ [x])).toList := by
  rw [mkString_append_singleton "." hg x, String.toList_append, String.toList_append]
  refine List.mem_append_left _ (List.mem_append_right _ ?_)
  decide

theorem childNamed_of_mem {cs : List Child} (h : (cs.map (·.name)).Nodup) {n : ActorName} {c : ℕ}
    (hc : ⟨n, c⟩ ∈ cs) : childNamed cs n = some c := by
  cases hf : childNamed cs n with
  | none => exact absurd rfl (childNamed_none hf _ hc)
  | some d =>
    have heq := List.inj_on_of_nodup_map h (childNamed_some hf) hc rfl
    exact congrArg (some ∘ Child.ref) heq

/-! ## One node -/

namespace Workers

/-- `c` is the root of a run. -/
def IsRun (s : Workers) (c : ℕ) : Prop :=
  c < s.next ∧ (s.cell c).worker.kind = .distributorActor

/-- `c` is a worker of group `g`. -/
def IsNode (s : Workers) (g : List String) (c : ℕ) : Prop :=
  c < s.next ∧ ∃ single tn, (s.cell c).worker.kind = .subWorkerActor single g tn

def IsTask (s : Workers) (c : ℕ) : Prop :=
  c < s.next ∧ (s.cell c).worker = .taskActor

section

variable {legal : String → Bool} {run : String} {s : Workers} {g : List String} {c d : ℕ}

theorem Shape.ne_zero (h : s.Shape) (hk : (s.cell c).worker.kind ≠ .instanceActor) : c ≠ 0 := by
  rintro rfl
  exact hk h.root.2

theorem IsRun.ne_zero (hc : s.IsRun c) (h : s.Shape) : c ≠ 0 := h.ne_zero (by simp [hc.2])

theorem IsNode.ne_zero (hc : s.IsNode g c) (h : s.Shape) : c ≠ 0 := by
  obtain ⟨-, single, tn, hk⟩ := hc
  exact h.ne_zero (by simp [hk])

theorem IsTask.ne_zero (hc : s.IsTask c) (h : s.Shape) : c ≠ 0 := h.ne_zero (by simp [hc.2, Worker.kind])

/-- The root of the run is a child of the `InstanceActor`, named by the
run. -/
theorem Grown.run_place (hg : s.Grown legal run) (h : s.Shape) (hc : s.IsRun c) :
    (s.cell c).parent = 0 ∧ (s.cell c).name = .named run := by
  have h0 := hc.ne_zero h
  obtain ⟨hp, m, hm, hf⟩ := h.fits c h0 hc.1
  have hkind : (s.cell c).place.kind = .distributorActor := hc.2
  rw [hkind] at hf
  cases hpk : (s.cell (s.cell c).parent).place.kind <;> simp only [hpk] at hf
  obtain ⟨n, m', hm', hadd⟩ := hg.origins c h0 hc.1
  obtain rfl : m = m' := Option.some.inj (hm.symm.trans hm')
  constructor
  · by_contra hp0
    exact (h.fits _ hp0 (Nat.lt_trans hp hc.1)).2.not_instance hpk
  · rw [← (hg.added _ hadd).run]
    exact hf

/-- There is one root. -/
theorem Grown.run_unique (hg : s.Grown legal run) (h : s.Shape) (hc : s.IsRun c) (hd : s.IsRun d) :
    c = d := by
  obtain ⟨hcp, hcn⟩ := hg.run_place h hc
  obtain ⟨hdp, hdn⟩ := hg.run_place h hd
  exact hg.name_inj (hc.ne_zero h) hc.1 (hd.ne_zero h) hd.1 (hcp.trans hdp.symm)
    (hcn.trans hdn.symm)

/-- A worker is of the first level, below the root of the run, or below
a worker whose group has one member less. -/
theorem Shape.node_cases (h : s.Shape) (hc : s.IsNode g c) :
    (∃ x, g = [x] ∧ s.IsRun (s.cell c).parent ∧ (s.cell c).name = .named x) ∨
      ∃ g' x, g = g' ++ [x] ∧ s.IsNode g' (s.cell c).parent ∧
        (s.cell c).name = .named (mkString "." g) := by
  have h0 := hc.ne_zero h
  obtain ⟨hlt, single, tn, hk⟩ := hc
  obtain ⟨hp, m, -, hf⟩ := h.fits c h0 hlt
  have hkind : (s.cell c).place.kind = .subWorkerActor single g tn := hk
  rw [hkind] at hf
  cases hpk : (s.cell (s.cell c).parent).place.kind <;> simp only [hpk] at hf
  · obtain ⟨-, -, -, x, rfl, hx⟩ := hf
    exact .inl ⟨x, rfl, ⟨Nat.lt_trans hp hlt, hpk⟩, hx⟩
  · obtain ⟨-, -, -, x, rfl, hx⟩ := hf
    exact .inr ⟨_, x, rfl, ⟨Nat.lt_trans hp hlt, _, _, hpk⟩, hx⟩

theorem Shape.node_ne_nil (h : s.Shape) (hc : s.IsNode g c) : g ≠ [] := by
  rcases h.node_cases hc with ⟨x, rfl, -⟩ | ⟨g', x, rfl, -⟩ <;> simp

/-- A worker is created for a task of its group or of a longer one. -/
theorem Shape.node_origin (h : s.Shape) (hc : s.IsNode g c) :
    ∃ m, (s.cell c).origin = some m ∧ g <+: m.group := by
  have h0 := hc.ne_zero h
  obtain ⟨hlt, single, tn, hk⟩ := hc
  obtain ⟨-, m, hm, hf⟩ := h.fits c h0 hlt
  have hkind : (s.cell c).place.kind = .subWorkerActor single g tn := hk
  rw [hkind] at hf
  cases hpk : (s.cell (s.cell c).parent).place.kind <;> simp only [hpk] at hf
  · exact ⟨m, hm, hf.2.2.1⟩
  · exact ⟨m, hm, hf.2.2.1⟩

/-! ## The path to a node -/

/-- **Every group has at most one worker.** -/
theorem Grown.node_unique (hg : s.Grown legal run) (h : s.Shape) (hc : s.IsNode g c)
    (hd : s.IsNode g d) : c = d := by
  induction g using List.reverseRecOn generalizing c d with
  | nil => exact absurd rfl (h.node_ne_nil hc)
  | append_singleton g x ih =>
    -- the parents are the same, and so are the names
    suffices hsame : (s.cell c).parent = (s.cell d).parent ∧ (s.cell c).name = (s.cell d).name from
      hg.name_inj (hc.ne_zero h) hc.1 (hd.ne_zero h) hd.1 hsame.1 hsame.2
    rcases h.node_cases hc with ⟨y, hy, hcp, hcn⟩ | ⟨g', y, hy, hcp, hcn⟩ <;>
      rcases h.node_cases hd with ⟨z, hz, hdp, hdn⟩ | ⟨g'', z, hz, hdp, hdn⟩
    · rw [hy] at hz
      obtain rfl := List.singleton_inj.mp hz
      exact ⟨hg.run_unique h hcp hdp, hcn.trans hdn.symm⟩
    · obtain ⟨rfl, -⟩ := List.append_inj' hz rfl
      have hnil : g = [] := by simpa using congrArg List.length hy
      exact absurd hnil (h.node_ne_nil hdp)
    · obtain ⟨rfl, -⟩ := List.append_inj' hy rfl
      have hnil : g = [] := by simpa using congrArg List.length hz
      exact absurd hnil (h.node_ne_nil hcp)
    · obtain ⟨rfl, -⟩ := List.append_inj' hy rfl
      obtain ⟨rfl, -⟩ := List.append_inj' hz rfl
      exact ⟨ih hcp hdp, hcn.trans hdn.symm⟩

/-- Every prefix of the group of a worker has one. -/
theorem Shape.node_prefix (h : s.Shape) (hc : s.IsNode g c) {g' : List String} (hg' : g' ≠ [])
    (hpre : g' <+: g) : ∃ d, s.IsNode g' d := by
  induction g using List.reverseRecOn generalizing c with
  | nil => exact absurd rfl (h.node_ne_nil hc)
  | append_singleton g x ih =>
    rcases List.prefix_concat_iff.mp hpre with rfl | hpre
    · exact ⟨c, hc⟩
    · rcases h.node_cases hc with ⟨y, hy, -, -⟩ | ⟨g'', y, hy, hcp, -⟩
      · have hnil : g = [] := by simpa using congrArg List.length hy
        rw [hnil] at hpre
        exact absurd (List.prefix_nil.mp hpre) hg'
      · obtain ⟨rfl, -⟩ := List.append_inj' hy rfl
        exact ih hcp hpre

/-! ## Names below one actor -/

/-- What is named like a task actor is one, with its own number, below a
node. -/
theorem Shape.named_task (h : s.Shape) (h0 : c ≠ 0) (hc : c < s.next) {m : String} {k : ℕ}
    (hn : (s.cell c).name = .task m k) :
    k = c ∧ (s.cell c).worker = .taskActor ∧ ∃ g, s.IsNode g (s.cell c).parent := by
  obtain ⟨hp, m', -, hf⟩ := h.fits c h0 hc
  have hname : (s.cell c).place.name = .task m k := hn
  have hno : ∀ {x}, (s.cell c).place.name ≠ .named x := by
    intro x hx
    rw [hname] at hx
    cases hx
  cases hpk : (s.cell (s.cell c).parent).place.kind <;> cases hk : (s.cell c).place.kind <;>
    simp only [hpk, hk] at hf
  · exact absurd hf hno
  · obtain ⟨-, -, -, z, -, hz⟩ := hf
    exact absurd hz hno
  · obtain ⟨-, -, -, z, -, hz⟩ := hf
    exact absurd hz hno
  · obtain ⟨-, -, method, hz⟩ := hf
    rw [hname] at hz
    cases hz
    exact ⟨rfl, kind_taskActor.mp hk, _, Nat.lt_trans hp hc, _, _, hpk⟩

/-- The other names below a node are those of groups. -/
theorem Shape.named_node (h : s.Shape) (h0 : c ≠ 0) (hc : c < s.next)
    (hp : s.IsNode g (s.cell c).parent) {n : String} (hn : (s.cell c).name = .named n) :
    ∃ x, n = mkString "." (g ++ [x]) := by
  obtain ⟨-, m', -, hf⟩ := h.fits c h0 hc
  obtain ⟨-, single, tn, hpk⟩ := hp
  have hpk : (s.cell (s.cell c).parent).place.kind = .subWorkerActor single g tn := hpk
  have hname : (s.cell c).place.name = .named n := hn
  cases hk : (s.cell c).place.kind <;> simp only [hpk, hk] at hf
  · obtain ⟨-, -, -, z, -, hz⟩ := hf
    rw [hname] at hz
    exact ⟨z, ActorName.named.inj hz⟩
  · obtain ⟨-, -, method, hz⟩ := hf
    rw [hname] at hz
    cases hz

/-- The text of a name like that of a task actor is no other's. -/
theorem Grown.text_ne (hg : s.Grown legal run) (h : s.Shape) {p : ℕ} {x y : Child}
    (hx : x ∈ (s.cell p).children) (hy : y ∈ (s.cell p).children) {n m : String} {k : ℕ}
    (hxn : x.name = .named n) (hyn : y.name = .task m k) : fullText x.name ≠ fullText y.name := by
  intro heq
  obtain ⟨hx0, hxlt, hxp, hxname⟩ := h.child p x hx
  obtain ⟨hy0, hylt, hyp, hyname⟩ := h.child p y hy
  obtain ⟨-, hyw, g, hnode⟩ := h.named_task hy0 hylt (hyname.trans hyn)
  obtain ⟨i, my, hmy, hadd⟩ := hg.origins y.ref hy0 hylt
  have hname := hg.methods y.ref my hylt hyw hmy
  -- no dot in the one, one in the other
  have hdot := dot_not_mem_task (hg.added _ hadd).method y.ref
  rw [← hname, hyname, ← heq, hxn] at hdot
  obtain ⟨z, rfl⟩ := h.named_node hx0 hxlt (by rw [hxp, ← hyp]; exact hnode) (hxname.trans hxn)
  exact hdot (dot_mem_mkString (h.node_ne_nil hnode) z)

/-- **The texts of the names below one actor are different.** -/
theorem Grown.text_inj (hg : s.Grown legal run) (h : s.Shape) {p : ℕ} {x y : Child}
    (hx : x ∈ (s.cell p).children) (hy : y ∈ (s.cell p).children)
    (ht : fullText x.name = fullText y.name) : x = y := by
  refine List.inj_on_of_nodup_map (hg.names p) hx hy ?_
  cases hxn : x.name with
  | named n =>
    cases hyn : y.name with
    | named n' =>
      rw [hxn, hyn] at ht
      exact congrArg ActorName.named ht
    | task m k => exact absurd ht (hg.text_ne h hx hy hxn hyn)
  | task m k =>
    cases hyn : y.name with
    | named n => exact absurd ht.symm (hg.text_ne h hy hx hyn hxn)
    | task m' k' =>
      -- the random number is the number of the actor
      obtain ⟨hx0, hxlt, -, hxname⟩ := h.child p x hx
      obtain ⟨hy0, hylt, -, hyname⟩ := h.child p y hy
      obtain ⟨hxk, -⟩ := h.named_task hx0 hxlt (hxname.trans hxn)
      obtain ⟨hyk, -⟩ := h.named_task hy0 hylt (hyname.trans hyn)
      rw [hxn, hyn] at ht
      have href : x.ref = y.ref := by rw [← hxk, ← hyk, task_text_inj ht]
      rw [← hxn, ← hyn, ← hxname, ← hyname, href]

/-! ## The tasks -/

/-- A task actor is placed once. -/
def PlacedOnce (s : Workers) : Prop := (s.placed.map (·.2)).Nodup

theorem PlacedOnce.step {w : World} {s' : Workers} {e : Event} {he : Option Handshake.Event}
    (h : s.PlacedOnce) (hs : s.Shape) (hk : s.Known) (hm : Moves legal w s e s' he) :
    s'.tick.PlacedOnce := by
  show (s'.placed.map (·.2)).Nodup
  rcases hm.placed hs with ⟨heq, -⟩ | ⟨r, l, t, m, -, -, heq, -⟩ <;> rw [heq]
  · exact h
  · rw [List.map_append]
    refine List.Nodup.append h (by simp) ?_
    simp only [List.map_cons, List.map_nil, List.disjoint_singleton]
    intro hx
    obtain ⟨⟨n, c⟩, hx, hc⟩ := List.mem_map.mp hx
    have hlt := (hk.placed n c hx).1
    rw [show c = s.next from hc] at hlt
    exact Nat.lt_irrefl _ hlt

/-- No `AddTask` is on its way. -/
def Processed (s : Workers) : Prop := ∀ c, NoAddTask (s.cell c).mailbox

/-- Only actors that exist have mail. -/
theorem Shape.processed (h : s.Shape) (hp : ∀ c < s.next, NoAddTask (s.cell c).mailbox) :
    s.Processed := by
  intro c
  by_cases hc : c < s.next
  · exact hp c hc
  · rw [(h.unused c (Nat.not_lt.mp hc)).2.1]
    intro l hl
    cases hl

theorem Processed.placed (hp : s.Processed) {n : ℕ} (ha : s.Arrives n) : ∃ c, s.Placed n c := by
  rcases ha with ⟨c, hc⟩ | hc
  · exfalso
    have hone := hc.here
    unfold copies at hone
    rw [countP_noAddTask (hp c)] at hone
    cases hone
  · exact hc

theorem Placed.mem {n : ℕ} (h : s.Placed n c) : (n, c) ∈ s.placed := by
  have hf : (n, c) ∈ s.placed.filter (·.1 = n) := by
    rw [h.once]
    exact List.mem_singleton_self _
  exact List.mem_of_mem_filter hf

/-- Every number that was added is placed, once. -/
theorem Known.numbers_perm (hk : s.Known)
    (ha : ∀ n m, (n, m) ∈ s.added → ∃ c, s.Placed n c) :
    (s.placed.map (·.1)).Perm (s.added.map (·.1)) := by
  refine List.perm_iff_count.mpr ?_
  intro n
  by_cases hn : n ∈ s.added.map (·.1)
  · obtain ⟨⟨n', m⟩, hm, rfl⟩ := List.mem_map.mp hn
    obtain ⟨c, hc⟩ := ha n' m hm
    have hfilter := congrArg List.length hc.once
    rw [List.count_eq_one_of_mem hk.once hn, List.count_eq_countP, List.countP_map,
      List.countP_eq_length_filter]
    simp only [Function.comp_def, beq_eq_decide]
    exact hfilter
  · have hnot : n ∉ s.placed.map (·.1) := by
      intro hmem
      obtain ⟨⟨n', c⟩, hc, rfl⟩ := List.mem_map.mp hmem
      obtain ⟨-, -, m, -, hadd⟩ := hk.placed n' c hc
      exact hn (List.mem_map_of_mem hadd)
    rw [List.count_eq_zero_of_not_mem hn, List.count_eq_zero_of_not_mem hnot]

/-- A task actor is below the worker of the group of its task. -/
theorem Shape.task_below (h : s.Shape) (hc : s.IsTask c) {m : AddTask}
    (hm : (s.cell c).origin = some m) : s.IsNode m.group (s.cell c).parent := by
  obtain ⟨single, a, hw, hg, -⟩ := h.task_node hc.1 hc.2 hm
  have hlt := (h.fits c (hc.ne_zero h) hc.1).1
  refine ⟨Nat.lt_trans hlt hc.1, single, a.tablename, ?_⟩
  rw [hw, ← hg]
  rfl

theorem IsNode.group_eq {g' : List String} (hc : s.IsNode g c) (hc' : s.IsNode g' c) : g = g' := by
  obtain ⟨-, single, tn, hk⟩ := hc
  obtain ⟨-, single', tn', hk'⟩ := hc'
  rw [hk] at hk'
  cases hk'
  rfl

end

end Workers

/-- The tasks of the task actors below `c`. -/
def System.tasksAt (s : System) (c : ℕ) : List Task :=
  ((s.workers.cell c).children.filter fun x => (s.workers.cell x.ref).worker = .taskActor).map
    fun x => (s.world.task x.ref).actor.task

section

variable {legal : String → Bool} {run : String} {s : System} {g : List String} {c : ℕ}

/-- The references of the children are different. -/
theorem Workers.Grown.refs_nodup {s : Workers} (hg : s.Grown legal run) (h : s.Shape) (c : ℕ) :
    ((s.cell c).children.map (·.ref)).Nodup := by
  refine List.Nodup.of_map (fun x => (s.cell x).name) ?_
  rw [List.map_map]
  have hnames : (s.cell c).children.map (fun x => (s.cell x.ref).name) =
      (s.cell c).children.map (·.name) :=
    List.map_congr_left fun x hx => (h.child c x hx).2.2.2
  exact hnames ▸ hg.names c

/-- The task actors below a worker are those placed there. -/
theorem Workers.Grown.children_perm {s : Workers} (hg : s.Grown legal run) (h : s.Shape)
    (hk : s.Known) (ho : s.PlacedOnce) (c : ℕ) :
    (((s.cell c).children.filter fun x => (s.cell x.ref).worker = .taskActor).map (·.ref)).Perm
      ((s.placed.filter fun p => (s.cell p.2).parent = c).map (·.2)) := by
  have hleft : (((s.cell c).children.filter fun x =>
      (s.cell x.ref).worker = .taskActor).map (·.ref)).Nodup :=
    (hg.refs_nodup h c).sublist (List.filter_sublist.map _)
  have hright : ((s.placed.filter fun p => (s.cell p.2).parent = c).map (·.2)).Nodup :=
    List.Nodup.sublist (List.filter_sublist.map _) ho
  refine (List.perm_ext_iff_of_nodup hleft hright).mpr ?_
  intro r
  simp only [List.mem_map, List.mem_filter, decide_eq_true_eq]
  constructor
  · rintro ⟨x, ⟨hx, hw⟩, rfl⟩
    obtain ⟨-, hlt, hp, -⟩ := h.child c x hx
    obtain ⟨n, hn⟩ := hk.tasks x.ref hlt hw
    exact ⟨(n, x.ref), ⟨hn, hp⟩, rfl⟩
  · rintro ⟨⟨n, r⟩, ⟨hn, rfl⟩, rfl⟩
    obtain ⟨hlt, hw, -⟩ := hk.placed n r hn
    have h0 : r ≠ 0 := h.ne_zero (by simp [hw, Worker.kind])
    exact ⟨_, ⟨hg.attached r h0 hlt, hw⟩, rfl⟩

/-- What is placed below the worker of a group is what was added for
it. -/
theorem System.WellFormed.pairs_perm (hw : s.WellFormed) (hg : s.workers.Grown legal run)
    (hk : s.workers.Known) (ha : ∀ n m, (n, m) ∈ s.workers.added → ∃ c, s.workers.Placed n c)
    (hc : s.workers.IsNode g c) :
    (s.workers.placed.map fun p => (p.1, (s.world.task p.2).actor.task,
        decide ((s.workers.cell p.2).parent = c))).Perm
      (s.workers.added.map fun x => (x.1, x.2.task, decide (x.2.group = g))) := by
  have hnumbers := hk.numbers_perm ha
  have hleft : (s.workers.placed.map fun p => (p.1, (s.world.task p.2).actor.task,
      decide ((s.workers.cell p.2).parent = c))).Nodup := by
    refine List.Nodup.of_map Prod.fst ?_
    rw [List.map_map]
    exact hnumbers.nodup_iff.mpr hk.once
  have hright : (s.workers.added.map fun x => (x.1, x.2.task, decide (x.2.group = g))).Nodup := by
    refine List.Nodup.of_map Prod.fst ?_
    rw [List.map_map]
    exact hk.once
  -- one task actor with its `AddTask`
  have hpair : ∀ {n d m}, (n, d) ∈ s.workers.placed → (n, m) ∈ s.workers.added →
      (s.world.task d).actor.task = m.task ∧
        ((s.workers.cell d).parent = c ↔ m.group = g) := by
    intro n d m hd hm
    obtain ⟨hlt, hdw, m', hm', hadd⟩ := hk.placed n d hd
    obtain rfl := hk.unique hadd hm
    have hbelow := hw.shape.task_below ⟨hlt, hdw⟩ hm'
    refine ⟨(hw.leaves.task d m' hlt hdw hm').1, ?_⟩
    constructor
    · rintro rfl
      exact hbelow.group_eq hc
    · rintro rfl
      exact hg.node_unique hw.shape hbelow hc
  refine (List.perm_ext_iff_of_nodup hleft hright).mpr ?_
  rintro ⟨n, x, b⟩
  simp only [List.mem_map, Prod.mk.injEq]
  constructor
  · rintro ⟨⟨n, d⟩, hd, rfl, rfl, rfl⟩
    obtain ⟨-, -, m, -, hadd⟩ := hk.placed n d hd
    obtain ⟨htask, hgroup⟩ := hpair hd hadd
    exact ⟨(n, m), hadd, rfl, htask.symm, by simp [hgroup]⟩
  · rintro ⟨⟨n, m⟩, hadd, rfl, rfl, rfl⟩
    obtain ⟨d, hd⟩ := ha n m hadd
    obtain ⟨htask, hgroup⟩ := hpair hd.mem hadd
    exact ⟨(n, d), hd.mem, rfl, htask, by simp [hgroup]⟩

/-- **The tasks below the worker of a group are those added for it.** -/
theorem System.WellFormed.tasksAt_perm (hw : s.WellFormed) (hg : s.workers.Grown legal run)
    (hk : s.workers.Known) (ho : s.workers.PlacedOnce)
    (ha : ∀ n m, (n, m) ∈ s.workers.added → ∃ c, s.workers.Placed n c)
    (hc : s.workers.IsNode g c) :
    (s.tasksAt c).Perm (((s.workers.added.map (·.2)).filter (·.group = g)).map (·.task)) := by
  have hrefs := (hg.children_perm hw.shape hk ho c).map fun r => (s.world.task r).actor.task
  have hpairs := ((hw.pairs_perm hg hk ha hc).filter (·.2.2)).map (·.2.1)
  simp only [List.map_map, List.filter_map, Function.comp_def] at hrefs hpairs ⊢
  exact hrefs.trans hpairs

/-! ## The tree -/

/-- The tree of the run is the prefix tree of the groups that were
added. -/
structure PrefixTree (run : String) (s : System) : Prop where
  /-- One task actor for each message, also for equal tasks. -/
  messages : (s.workers.placed.map (·.1)).Perm (s.workers.added.map (·.1))
  once : (s.workers.placed.map (·.2)).Nodup
  tasks : ∀ c, c ∈ s.workers.placed.map (·.2) ↔ s.workers.IsTask c
  /-- It sits below the worker of its group. -/
  sits : ∀ n c, (n, c) ∈ s.workers.placed → ∃ m, (n, m) ∈ s.workers.added ∧
    (s.world.task c).actor.task = m.task ∧
    s.workers.IsNode m.group (s.workers.cell c).parent ∧ s.workers.IsChild c
  /-- The workers are the prefixes. -/
  nodes : ∀ g, (∃ c, s.workers.IsNode g c) ↔ g ≠ [] ∧ ∃ x ∈ s.workers.added, g <+: x.2.group
  unique : ∀ g c d, s.workers.IsNode g c → s.workers.IsNode g d → c = d
  /-- A worker is found by its name below the one of the shorter prefix. -/
  first : ∀ x c, s.workers.IsNode [x] c → ∃ d, s.workers.IsRun d ∧
    childNamed (s.workers.cell 0).children (.named run) = some d ∧
    childNamed (s.workers.cell d).children (.named x) = some c
  next : ∀ g x c, g ≠ [] → s.workers.IsNode (g ++ [x]) c → ∃ p, s.workers.IsNode g p ∧
    childNamed (s.workers.cell p).children (.named (mkString "." (g ++ [x]))) = some c
  /-- The texts of the names below one actor are different. -/
  texts : ∀ p, ∀ x ∈ (s.workers.cell p).children, ∀ y ∈ (s.workers.cell p).children,
    fullText x.name = fullText y.name → x = y
  /-- Its tasks are those added for its group. -/
  content : ∀ g c, s.workers.IsNode g c →
    (s.tasksAt c).Perm (((s.workers.added.map (·.2)).filter (·.group = g)).map (·.task))

theorem placedOnce_run {ok : List Event → System → Event → Prop} {es : List Event}
    (h : (system legal).Run ok es s) : s.workers.PlacedOnce := by
  have hinv : s.workers.Known ∧ s.workers.PlacedOnce := by
    refine workers_run (I := fun s => s.Known ∧ s.PlacedOnce)
      ⟨Workers.known_init, by simp [Workers.PlacedOnce, System.init]⟩ ?_ h
    rintro es s e t he hw ⟨hk, ho⟩ - hm
    exact ⟨hk.step hw.shape hm, ho.step hw.shape hk hm⟩
  exact hinv.2

/-- The way down to a worker. -/
theorem Workers.Grown.child_named {s : Workers} (hg : s.Grown legal run) {c : ℕ} (h0 : c ≠ 0)
    (hc : c < s.next) : childNamed (s.cell (s.cell c).parent).children (s.cell c).name = some c :=
  childNamed_of_mem (hg.names _) (hg.attached c h0 hc)

theorem prefixTree_of (names : Names legal run) {es : List Event}
    (h : (system legal).Run (fun _ _ => Growing legal run) es s) (hp : s.workers.Processed) :
    PrefixTree run s := by
  have hw := wellFormed_run h
  have hs := hw.shape
  have hg := grown_run names h
  have hk := known_run h
  have ho := placedOnce_run h
  have ha : ∀ n m, (n, m) ∈ s.workers.added → ∃ c, s.workers.Placed n c :=
    fun n m hm => hp.placed (arrives_run (losesNoTask_run names h) n m hm)
  constructor
  · exact hk.numbers_perm ha
  · exact ho
  · intro c
    constructor
    · intro hc
      obtain ⟨⟨n, c⟩, hmem, rfl⟩ := List.mem_map.mp hc
      obtain ⟨hlt, hcw, -⟩ := hk.placed n c hmem
      exact ⟨hlt, hcw⟩
    · rintro ⟨hlt, hcw⟩
      obtain ⟨n, hn⟩ := hk.tasks c hlt hcw
      exact List.mem_map.mpr ⟨(n, c), hn, rfl⟩
  · intro n c hmem
    obtain ⟨hlt, hcw, m, hm, hadd⟩ := hk.placed n c hmem
    have htask : s.workers.IsTask c := ⟨hlt, hcw⟩
    exact ⟨m, hadd, (hw.leaves.task c m hlt hcw hm).1, hs.task_below htask hm,
      List.mem_map.mpr ⟨_, hg.attached c (htask.ne_zero hs) hlt, rfl⟩⟩
  · intro g
    constructor
    · rintro ⟨c, hc⟩
      refine ⟨hs.node_ne_nil hc, ?_⟩
      obtain ⟨m, hm, hpre⟩ := hs.node_origin hc
      obtain ⟨n, m', hm', hadd⟩ := hg.origins c (hc.ne_zero hs) hc.1
      obtain rfl : m = m' := Option.some.inj (hm.symm.trans hm')
      exact ⟨(n, m), hadd, hpre⟩
    · rintro ⟨hne, ⟨n, m⟩, hadd, hpre⟩
      obtain ⟨c, hc⟩ := ha n m hadd
      obtain ⟨hlt, hcw, m', hm, hadd'⟩ := hk.placed n c hc.mem
      obtain rfl := hk.unique hadd' hadd
      exact hs.node_prefix (hs.task_below ⟨hlt, hcw⟩ hm) hne hpre
  · exact fun g c d hc hd => hg.node_unique hs hc hd
  · intro x c hc
    have hchild := hg.child_named (hc.ne_zero hs) hc.1
    rcases hs.node_cases hc with ⟨y, hy, hrun, hname⟩ | ⟨g', y, hy, hnode, -⟩
    · obtain rfl := List.singleton_inj.mp hy
      have hrchild := hg.child_named (hrun.ne_zero hs) hrun.1
      obtain ⟨hparent, hrname⟩ := hg.run_place hs hrun
      rw [hparent, hrname] at hrchild
      exact ⟨_, hrun, hrchild, hname ▸ hchild⟩
    · have hnil : g' = [] := by simpa using congrArg List.length hy
      exact absurd hnil (hs.node_ne_nil hnode)
  · intro g x c hne hc
    have hchild := hg.child_named (hc.ne_zero hs) hc.1
    rcases hs.node_cases hc with ⟨y, hy, -, -⟩ | ⟨g', y, hy, hnode, hname⟩
    · have hnil : g = [] := by simpa using congrArg List.length hy
      exact absurd hnil hne
    · obtain ⟨rfl, -⟩ := List.append_inj' hy rfl
      exact ⟨_, hnode, hname ▸ hchild⟩
  · exact fun p x hx y hy ht => hg.text_inj hs hx hy ht
  · exact fun g c hc => hw.tasksAt_perm hg hk ho ha hc

/-- **The dependency tree is the prefix tree of the groups**, and it does
not depend on the order in which its tasks came. -/
theorem prefix_tree (names : Names legal run) {es : List Event}
    (h : (system legal).Run (fun _ _ => Growing legal run) es s) (hp : s.workers.Processed) :
    PrefixTree run s ∧
      ∀ es' s', (system legal).Run (fun _ _ => Growing legal run) es' s' → s'.workers.Processed →
        (s.workers.added.map (·.2)).Perm (s'.workers.added.map (·.2)) →
        ∀ g c c', s.workers.IsNode g c → s'.workers.IsNode g c' →
          (s.tasksAt c).Perm (s'.tasksAt c') := by
  have htree := prefixTree_of names h hp
  refine ⟨htree, ?_⟩
  intro es' s' h' hp' hperm g c c' hc hc'
  have htree' := prefixTree_of names h' hp'
  have hadded := (hperm.filter (·.group = g)).map (·.task)
  exact (htree.content g c hc).trans (hadded.trans (htree'.content g c' hc').symm)

end

/-! ## Names with legal characters -/

/-- The characters Akka allows in the name of an actor. -/
def plainChar (c : Char) : Bool :=
  c.isAlphanum || c ∈ "-_.*$+:@&=,!~';".toList

/-- Akka's check of a name without percent signs. -/
def plainName (name : String) : Bool :=
  match name.toList with
  | [] => false
  | c :: cs => c ≠ '$' && (c :: cs).all plainChar

theorem plainName_dot {a b : String} (ha : plainName a = true) (hb : plainName b = true) :
    plainName (a ++ "." ++ b) = true := by
  unfold plainName at ha hb ⊢
  rw [String.toList_append, String.toList_append]
  cases hal : a.toList with
  | nil => simp [hal] at ha
  | cons c cs =>
    cases hbl : b.toList with
    | nil => simp [hbl] at hb
    | cons d ds =>
      simp only [hal, hbl, Bool.and_eq_true] at ha hb
      have hdot : ".".toList.all plainChar = true := by decide
      have hall : ((c :: cs) ++ ".".toList ++ (d :: ds)).all plainChar = true := by
        rw [List.all_append, List.all_append, ha.2, hb.2, hdot]
        rfl
      simp only [List.cons_append, Bool.and_eq_true]
      exact ⟨ha.1, hall⟩

theorem names_plain {run : String} (h : plainName run = true) : Names plainName run := by
  refine ⟨h, ?_⟩
  intro g
  induction g with
  | nil => exact fun hne _ => absurd rfl hne
  | cons a g ih =>
    intro _ hg
    have ha := hg a List.mem_cons_self
    cases g with
    | nil => exact ha
    | cons b g =>
      have hb := ih (List.cons_ne_nil b g) fun x hx => hg x (List.mem_cons_of_mem a hx)
      exact plainName_dot ha hb

/-- The same task twice, and one of a longer group. -/
def threeTasks : List Event :=
  placedRun 0 parallelTask ++ placedRun 3 parallelTask ++ placedRun 6 deepTask ++
    [.takes 5 (addTaskLetter 6 [⟨2, 8⟩, ⟨1, 7⟩, ⟨0, 6⟩] deepTask)]

/-- Everything that exists has handled its `AddTask`s. -/
def ThreePlaced (s : System) : Prop :=
  s.workers.added.map (·.2) = [parallelTask, parallelTask, deepTask] ∧
    ∀ c < s.workers.next, NoAddTask (s.workers.cell c).mailbox

instance : DecidablePred ThreePlaced := fun _ => by
  unfold ThreePlaced
  infer_instance

theorem prefix_tree_threeTasks : ∃ s, (system plainName).Run
    (fun _ _ => Growing plainName "run") threeTasks s ∧
    s.workers.added.map (·.2) = [parallelTask, parallelTask, deepTask] ∧ PrefixTree "run" s := by
  obtain ⟨s, hr, hadded, hp⟩ : ∃ s, (system plainName).Run (fun _ _ => Growing plainName "run")
      threeTasks s ∧ ThreePlaced s := EventSystem.exists_run_of_execWhen (by decide +kernel)
  refine ⟨s, hr, hadded, ?_⟩
  exact (prefix_tree (names_plain (by decide)) hr ((wellFormed_run hr).shape.processed hp)).1

/-- A Java method whose name is not a legal part of an actor's. -/
def umlautTask : AddTask := ⟨"run", ["a"], ⟨"Tests", "prüfe", false, false⟩, some ⟨"1.0"⟩⟩

/-- Its node has failed, and nobody has its `AddTask`. -/
def UmlautLost (s : System) : Prop :=
  (0, umlautTask) ∈ s.workers.added ∧ s.workers.placed = [] ∧
    ∀ c < s.workers.next, NoAddTask (s.workers.cell c).mailbox

instance : LawfulBEq (ℕ × AddTask) := inferInstance

instance : DecidablePred UmlautLost := fun _ => by
  delta UmlautLost
  infer_instance

/-- **A task whose method cannot be part of a name is lost**: its group is
one of legal names, and it has no task actor. -/
theorem illegal_method_lost : (∀ x ∈ umlautTask.group, plainName x = true) ∧
    '.' ∉ umlautTask.task.method.toList ∧
    ∃ s, (system plainName).Run EventSystem.anyStep (placedRun 0 umlautTask) s ∧
      s.workers.Processed ∧ (0, umlautTask) ∈ s.workers.added ∧ s.workers.placed = [] ∧
      ¬ PrefixTree "run" s := by
  obtain ⟨s, hr, hadd, hnone, hp⟩ : ∃ s, (system plainName).Run EventSystem.anyStep
      (placedRun 0 umlautTask) s ∧ UmlautLost s :=
    EventSystem.exists_run_of_exec (by decide +kernel)
  refine ⟨by decide, by decide, s, hr, (wellFormed_run hr).shape.processed hp, hadd, hnone, ?_⟩
  intro htree
  have hmem := htree.messages.mem_iff.mpr (List.mem_map_of_mem hadd)
  rw [hnone] at hmem
  cases hmem

end Clustering.Tree
