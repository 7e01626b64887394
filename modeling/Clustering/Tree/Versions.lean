/-
Clustering.Tree.Versions — a task is offered for its own version only.

`InstanceActor` stores one version for a run, that of the first task,
and finds the run of a later task by its `instanceId`, a date with
seconds. `JoinsOwnVersion` says that a task which finds its run there
already is of the version the run was created for. Under it the version
is the same in the whole subtree of a run and in every `GetTask` on its
way down (`OneVersion`), and `version_match` follows. In
`wrong_version_offered` there are two uploads within one second.
-/
import Clustering.Tree.Provenance
import Clustering.Tree.Purity

namespace Clustering.Tree

open Actors Clustering.Worker
open Clustering.Handshake (World)

/-- `version.version()`, if there is a deploy info. -/
def versionText (m : AddTask) : Option String := m.version.map (·.version)

namespace Workers

variable {legal : String → Bool} {w : World} {s s' : Workers} {e : Event}
  {he : Option Handshake.Event}

/-- The version of the task `c` was created for. -/
def versionOf (s : Workers) (c : ℕ) : Option (Option String) :=
  (s.cell c).origin.map versionText

/-- Below a run everything is of the version the run was created for. -/
structure OneVersion (s : Workers) : Prop where
  origin : ∀ c, c ≠ 0 → c < s.next → (s.cell c).parent ≠ 0 →
    s.versionOf c = s.versionOf (s.cell c).parent
  mail : ∀ c l m, l ∈ (s.cell c).mailbox → l.msg = .addTask m →
    s.versionOf c = some (versionText m)
  asked : ∀ c l q, l ∈ (s.cell c).mailbox → l.msg = .getTask q →
    s.versionOf c = some (some q.version)
  registered : ∀ a, (s.cell 0).worker = .instanceActor a →
    ∀ i ∈ a.instances, s.versionOf i.ref = some (some i.version)

theorem versionOf_grows (hg : Grows s s' he) {c : ℕ} (hc : c < s.next) :
    s'.versionOf c = s.versionOf c := by
  unfold versionOf
  rw [hg.origin hc]

end Workers

/-- A task that finds its run there already is of the version the run was
created for. -/
def JoinsOwnVersion (s : System) : Event → Prop
  | .input _ (.addTask m) => ∀ d ∈ s.workers.destination 0 m,
      s.workers.versionOf d = some (versionText m)
  | _ => True

instance (s : System) : DecidablePred (JoinsOwnVersion s) := fun e => by
  unfold JoinsOwnVersion
  split <;> infer_instance

namespace Workers

variable {legal : String → Bool} {w : World} {s s' : Workers} {e : Event}
  {he : Option Handshake.Event}

/-- What is passed on below a run is of the version of the run. -/
theorem OneVersion.below (h : s.OneVersion) (hs : s.Shape) {r d : ℕ} (hr : r ≠ 0)
    (hd : d ∈ (s.cell r).children.map (·.ref) ∨ d ∈ (s.cell r).worker.refs) :
    s.versionOf d = s.versionOf r := by
  have hp : d ≠ 0 ∧ d < s.next ∧ (s.cell d).parent = r := by
    rcases hd with hd | hd
    · obtain ⟨x, hx, rfl⟩ := List.mem_map.mp hd
      obtain ⟨h1, h2, h3, -⟩ := hs.child r x hx
      exact ⟨h1, h2, h3⟩
    · exact hs.refs r d hd
  have ho := h.origin d hp.1 hp.2.1 (by rw [hp.2.2]; exact hr)
  rw [hp.2.2] at ho
  exact ho

/-- Only the `InstanceActor` has no parent, and it is sent no `AddTask`
from inside. -/
theorem Handles.input_of_root (hs : s.Shape) {l : Letter} {t : Turn}
    (hh : Handles legal s e 0 l t) (hm : (∃ m, l.msg = .addTask m) ∨ ∃ q, l.msg = .getTask q) :
    ∃ v, e = .input v l.msg := by
  rcases hh.mem with hl | ⟨-, v, hv, -⟩
  · exfalso
    have hp := hs.mail 0 l hl
    have hk : (s.cell 0).place.kind = .instanceActor := hs.root.2
    rcases hm with ⟨m, hm⟩ | ⟨q, hm⟩ <;> rw [hm] at hp <;> simp [Proper, hk] at hp
  · exact ⟨v, hv⟩

/-- A new entry has the version of the task it was made for. -/
theorem Turns.registers {fresh : ℕ} {c : Cell} {m : WorkerMessage} {t : Turn}
    (ht : Turns legal fresh c m t) {a a' : InstanceActor} (hw : c.worker = .instanceActor a)
    (hw' : t.worker = .instanceActor a') {i : Instance} (hi : i ∈ a'.instances) :
    i ∈ a.instances ∨ i.ref = fresh ∧ (born t.effects).isSome ∧
      ∃ p, m = .addTask p ∧ versionText p = some i.version := by
  have hsame : c.worker = .instanceActor a' → i ∈ a.instances := by
    intro h
    rw [hw] at h
    cases h
    exact hi
  cases ht with
  | @spawn m n ws hh hc hl he hws hwf =>
    change c.worker.enlist fresh m = _ at hw'
    rw [hw] at hw' he
    obtain ⟨info, hv⟩ := Option.isSome_iff_exists.mp he
    simp only [Worker.enlist, hv] at hw'
    cases hw'
    rcases List.mem_cons.mp hi with rfl | hi
    · exact .inr ⟨rfl, rfl, m, rfl, by simp [versionText, hv]⟩
    · exact .inl hi
  | @mourn u rest hk hr =>
    change c.worker.mourn c.children u = _ at hw'
    rw [hw] at hw'
    cases hw'
    exact .inl (List.mem_of_mem_filter hi)
  | place hwp hg hl =>
    rw [hw] at hwp
    cases hwp
  | cancel hwp =>
    rw [hw] at hwp
    cases hwp
  | _ => exact .inl (hsame hw')

/-- An entry of the registry was there, or it is made now. -/
theorem registered_of (hs : s.Shape) (hm : Moves legal w s e s' he) {a a' : InstanceActor}
    (hw : (s.cell 0).worker = .instanceActor a) (hw' : (s'.cell 0).worker = .instanceActor a')
    {i : Instance} (hi : i ∈ a'.instances) :
    i ∈ a.instances ∨ i.ref = s.next ∧ s'.versionOf s.next = some (some i.version) := by
  rcases hm.handles with ⟨r, l, t, hh, -, hs'⟩ | hno
  · by_cases hr : r = 0
    · subst hr
      rw [hs', hh.cell_self hs] at hw'
      rcases Turns.registers hh.turns hw hw' hi with hi | ⟨hr, hb, p, hmsg, hv⟩
      · exact .inl hi
      · right
        refine ⟨hr, ?_⟩
        obtain ⟨⟨f, n, props⟩, hb⟩ := Option.isSome_iff_exists.mp hb
        obtain rfl := Turns.born_fresh hh.turns f n props hb
        rw [hs', versionOf, perform_born (Nat.ne_of_gt (hh.lt hs)) hb, hmsg]
        simp [WorkerMessage.toAddTask, hv]
    · rw [hs', hh.cell_other hs (Ne.symm hr) hs.root.1] at hw'
      change (s.cell 0).worker = _ at hw'
      rw [hw] at hw'
      cases hw'
      exact .inl hi
  · left
    rcases hm.worker hno 0 with hsame | ⟨d, x, single, b, -, -, -, -, -, hsub, -⟩ |
        ⟨-, -, -, hnew⟩
    · rw [hsame, hw] at hw'
      cases hw'
      exact hi
    · rw [hw] at hsub
      cases hsub
    · rw [hnew, hw] at hw'
      cases hw'
      cases hi

/-- **One step keeps the versions of the runs apart.** -/
theorem OneVersion.step (h : s.OneVersion) (hs : s.Shape) (hok : JoinsOwnVersion ⟨s, w⟩ e)
    (hm : Moves legal w s e s' he) : s'.OneVersion := by
  have hg := hm.grows hs
  have hlt : ∀ {c l}, l ∈ (s.cell c).mailbox → c < s.next := fun hl => hs.lt_of_mem hl
  constructor
  · intro c h0 hc hp
    rcases hg.lt_or_eq hc with hlt | ⟨rfl, hn⟩
    · rw [hg.parent hlt] at hp ⊢
      rw [versionOf_grows hg hlt, versionOf_grows hg (Nat.lt_trans (hs.fits c h0 hlt).1 hlt)]
      exact h.origin c h0 hlt hp
    · obtain ⟨r, l, t, n, props, hh, -, hb, hcell⟩ := hm.newborn hs hn
      obtain ⟨m, hmsg, -⟩ := Turns.born_cases hh.turns hb
      rw [hcell] at hp ⊢
      rw [versionOf_grows hg (hh.lt hs)]
      rcases hh.mem with hl | ⟨hr, -⟩
      · rw [h.mail r l m hl hmsg]
        simp [versionOf, hcell, hmsg, WorkerMessage.toAddTask]
      · exact absurd hr hp
  · intro c l m hl' hmsg
    rcases hm.mem_mailbox hs hl' with hl | hl
    · rw [versionOf_grows hg (hs.lt_of_mem hl)]
      exact h.mail c l m hl hmsg
    · cases hl with
      | @handled r l₀ t hh hst hsay =>
        rw [hmsg] at hsay
        obtain ⟨hm₀, n, hn, hd⟩ := Turns.says_addTask hh.turns hsay
        rcases hd with ⟨hd, -⟩ | ⟨-, rfl, -, -, -, -, hb⟩
        · have hchild := hs.below (childNamed_some hd)
          rw [versionOf_grows hg hchild.1]
          by_cases hr : r = 0
          · subst hr
            obtain ⟨v, rfl⟩ := hh.input_of_root hs (.inl ⟨m, hm₀⟩)
            rw [hm₀] at hok
            have hdest : c ∈ s.destination 0 m := by simp [destination, hn, hd]
            exact hok c hdest
          · rw [h.below hs hr (.inl (List.mem_map.mpr ⟨_, childNamed_some hd, rfl⟩))]
            rcases hh.mem with hl | ⟨hr', -⟩
            · exact h.mail r l₀ m hl hm₀
            · exact absurd hr' hr
        · -- the child was created for it
          have hn' : s'.next = s.next + 1 := by
            rcases hg.lt_or_eq ((hm.shape hs).lt_of_mem hl') with hlt | ⟨-, hn'⟩
            · exact absurd hlt (Nat.lt_irrefl _)
            · exact hn'
          obtain ⟨r', l', t', n', props, hh', -, hb', hcell⟩ := hm.newborn hs hn'
          obtain ⟨rfl, rfl⟩ := hh.unique hh'
          simp [versionOf, hcell, hm₀, WorkerMessage.toAddTask]
      | cancels he hw hd hc hl =>
        rw [hl] at hmsg
        cases hmsg
      | buried he hd hi hc hw hl =>
        rw [hl] at hmsg
        cases hmsg
  · intro c l q hl hmsg
    rcases hm.mem_mailbox hs hl with hl | hl
    · rw [versionOf_grows hg (hs.lt_of_mem hl)]
      exact h.asked c l q hl hmsg
    · cases hl with
      | @handled r l₀ t hh hst hsay =>
        rw [hmsg] at hsay
        obtain ⟨hm₀, hd⟩ := Turns.says_getTask hh.turns hsay
        have hwho := Worker.mem_targets hd
        have hc : c < s.next := by
          rcases hwho with hx | hx
          · obtain ⟨x, hch, rfl⟩ := List.mem_map.mp hx
            exact (hs.child r x hch).2.1
          · exact (hs.refs r c hx).2.1
        rw [versionOf_grows hg hc]
        by_cases hr : r = 0
        · subst hr
          obtain ⟨a, hw⟩ := hs.instanceActor
          rw [hw] at hd
          simp only [Worker.targets, Option.mem_toList, Option.map_eq_some_iff] at hd
          obtain ⟨i, hi, rfl⟩ := hd
          have hi := List.mem_filter.mp (InstanceActor.firstById_mem hi)
          rw [h.registered a hw i hi.1, of_decide_eq_true hi.2]
        · rw [h.below hs hr hwho]
          rcases hh.mem with hl | ⟨hr', -⟩
          · exact h.asked r l₀ q hl hm₀
          · exact absurd hr' hr
      | cancels he hw hd hc hl =>
        rw [hl] at hmsg
        cases hmsg
      | buried he hd hi hc hw hl =>
        rw [hl] at hmsg
        cases hmsg
  · intro a' hw' i hi
    obtain ⟨a, hw⟩ := hs.instanceActor
    rcases registered_of hs hm hw hw' hi with hi | ⟨hr, hv⟩
    · have hlt : i.ref < s.next := by
        have hx : i.ref ∈ (s.cell 0).worker.refs := by
          rw [hw]
          exact List.mem_map_of_mem hi
        exact (hs.refs 0 _ hx).2.1
      rw [versionOf_grows hg hlt]
      exact h.registered a hw i hi
    · rw [hr]
      exact hv

theorem OneVersion.tick (h : s.OneVersion) : s.tick.OneVersion :=
  ⟨h.origin, h.mail, h.asked, h.registered⟩

theorem oneVersion_init : System.init.workers.OneVersion := by
  constructor
  · intro c h0 hc
    exact absurd (Nat.lt_one_iff.mp hc) h0
  · intro c l m hl
    by_cases hc : c = 0 <;> simp [System.init, hc] at hl
  · intro c l q hl
    by_cases hc : c = 0 <;> simp [System.init, hc] at hl
  · intro a hw i hi
    cases hw
    cases hi

/-- A task actor is asked by the letter it takes. -/
theorem Moves.asks {c v : ℕ} (hm : Moves legal w s e s' (some (.getTask c v))) :
    ∃ l q, e = .takes c l ∧ l.msg = .getTask q ∧ l.sender = v ∧ l ∈ (s.cell c).mailbox ∧
      (s.cell c).worker = .taskActor := by
  have hbirth : ∀ {t : Turn}, birth t ≠ some (.getTask c v) := by
    intro t
    unfold birth
    split <;> simp
  have hstop : ∀ {s₁ : Workers} {d : ℕ} {s' : Workers},
      (s', some (.getTask c v)) ≠ s₁.stopChild d := by
    intro s₁ d s' h
    rw [Prod.eq_iff_fst_eq_snd_eq] at h
    rcases stopChild_event (s := s₁) d with he | he <;> rw [he] at h <;> cases h.2
  generalize hhe : some (Handshake.Event.getTask c v) = he at hm
  cases hm with
  | input => exact absurd hhe.symm hbirth
  | takes => exact absurd hhe.symm hbirth
  | @taskTakes r l hl hw hp =>
    obtain ⟨st, msg⟩ := l
    cases msg with
    | getTask q =>
      cases hhe
      exact ⟨_, q, rfl, rfl, rfl, List.mem_of_head? hl, hw⟩
    | _ => cases hhe
  | judgeSuccess hf hc hw hs =>
    rw [← hhe] at hs
    exact absurd hs hstop
  | judgeFailure hf hc hw hs =>
    rw [← hhe] at hs
    exact absurd hs hstop
  | stops hr hc hp hs =>
    rw [← hhe] at hs
    exact absurd hs hstop
  | execute => cases hhe
  | handshake hi =>
    cases hhe
    exact hi.elim
  | _ => cases hhe

end Workers

/-- An offer of the system answers the letter a task actor takes. -/
theorem System.offers {legal : String → Bool} {s s' : System} {e : Event} {c v : ℕ}
    (hw : s.WellFormed) (hs : s.step legal e = some s')
    (ho : World.Offers s.world s'.world c v) :
    ∃ l q, e = .takes c l ∧ l.msg = .getTask q ∧ l.sender = v ∧
      l ∈ (s.workers.cell c).mailbox ∧ (s.workers.cell c).worker = .taskActor := by
  obtain ⟨t, he, hm, hf, -⟩ := System.step_moves hw.shape.root_ne hs
  rcases hf.moves with ⟨-, hw'⟩ | ⟨e', rfl, hm'⟩
  · obtain ⟨a, ha, hna, -⟩ := ho
    exact absurd (hw' ▸ ha) hna
  · obtain ⟨rfl, -, -⟩ := hm'.offers ho
    exact hm.asks

theorem oneVersion_run {legal : String → Bool} {es : List Event} {s : System}
    (h : (system legal).Run (fun _ => JoinsOwnVersion) es s) : s.workers.OneVersion :=
  workers_run Workers.oneVersion_init
    (fun _ _ _ _ _ hw hv hok hm => (hv.step hw.shape hok hm).tick) h

/-- **A task offered in answer to `GetTask(v)` was added with a deploy
info whose `version()` is `v`**, in every run in which no task joins a
run of another version. -/
theorem version_match {legal : String → Bool} {es : List Event} {s s' : System} {e : Event}
    {c v : ℕ} (h : (system legal).Run (fun _ => JoinsOwnVersion) es s)
    (hs : s.step legal e = some s') (ho : World.Offers s.world s'.world c v) :
    ∃ l q n m info, e = .takes c l ∧ l.msg = .getTask q ∧ l.sender = v ∧
      (n, c) ∈ s.workers.placed ∧ (n, m) ∈ s.workers.added ∧
      (s.world.task c).actor.task = m.task ∧ m.version = some info ∧
      info.version = q.version := by
  have hw := wellFormed_run h
  obtain ⟨l, q, he, hmsg, hv, hl, hcw⟩ := System.offers hw hs ho
  have hlt := hw.shape.lt_of_mem hl
  obtain ⟨n, hn⟩ := (known_run h).tasks c hlt hcw
  obtain ⟨-, -, m, hm, hadd⟩ := (known_run h).placed n c hn
  have hver := (oneVersion_run h).asked c l q hl hmsg
  obtain ⟨info, hinfo, hq⟩ : ∃ info, m.version = some info ∧ info.version = q.version := by
    simpa [Workers.versionOf, hm, versionText] using hver
  exact ⟨l, q, n, m, info, he, hmsg, hv, hn, hadd, (hw.leaves.task c m hlt hcw hm).1, hinfo, hq⟩

/-! ## Two uploads within one second -/

/-- The `GetTask` machine 0 sends at time 6, after these hops. -/
def getTaskLetter (hops : List Hop) : Letter := ⟨⟨0, 6, hops⟩, .getTask ⟨"1.0", false⟩⟩

/-- Two tasks are placed, and machine 0 asks for one of version 1.0. -/
def askedRun (m m' : AddTask) : List Event :=
  placedRun 0 m ++ placedRun 3 m' ++
    [.input 0 (.getTask ⟨"1.0", false⟩), .takes 1 (getTaskLetter [⟨0, 6⟩]),
      .takes 2 (getTaskLetter [⟨1, 7⟩, ⟨0, 6⟩])]

/-- The second task is asked. -/
def secondAsked : Event := .takes 4 (getTaskLetter [⟨2, 8⟩, ⟨1, 7⟩, ⟨0, 6⟩])

def laterTask : AddTask := ⟨"run", ["a"], ⟨"Tests", "later", false, false⟩, some ⟨"2.0"⟩⟩

def SecondOffered (s : System) : Prop :=
  ∃ s' ∈ s.step anyName secondAsked, World.Offers s.world s'.world 4 0

instance : DecidablePred SecondOffered := fun _ => by
  unfold SecondOffered World.Offers
  infer_instance

theorem version_match_askedRun : ∃ s s', (system anyName).Run (fun _ => JoinsOwnVersion)
    (askedRun parallelTask secondTask) s ∧ s.step anyName secondAsked = some s' ∧
      ∃ (m : AddTask) (info : DeployInfo), (s.world.task 4).actor.task = m.task ∧
        m.version = some info ∧
        info.version = "1.0" := by
  obtain ⟨s, hr, s', hs, ho⟩ : ∃ s, (system anyName).Run (fun _ => JoinsOwnVersion)
      (askedRun parallelTask secondTask) s ∧ SecondOffered s :=
    EventSystem.exists_run_of_execWhen (by decide)
  obtain ⟨l, q, n, m, info, he, hq, -, -, -, htask, hinfo, hv⟩ := version_match hr hs ho
  cases he
  cases hq
  exact ⟨s, s', hr, hs, m, info, htask, hinfo, hv⟩

/-- **Two uploads of one second share a run**: in answer to a `GetTask`
for version 1.0 a task is offered that was added with version 2.0. -/
theorem wrong_version_offered : ∃ s s', (system anyName).Run EventSystem.anyStep
    (askedRun parallelTask laterTask) s ∧ s.step anyName secondAsked = some s' ∧
      World.Offers s.world s'.world 4 0 ∧ (3, 4) ∈ s.workers.placed ∧
        (3, laterTask) ∈ s.workers.added ∧ versionText laterTask = some "2.0" := by
  obtain ⟨s, hr, ⟨s', hs, ho⟩, hp, ha⟩ : ∃ s, (system anyName).Run EventSystem.anyStep
      (askedRun parallelTask laterTask) s ∧ SecondOffered s ∧ (3, 4) ∈ s.workers.placed ∧
        (3, laterTask) ∈ s.workers.added := EventSystem.exists_run_of_exec (by decide)
  exact ⟨s, s', hr, hs, ho, hp, ha, rfl⟩

end Clustering.Tree
