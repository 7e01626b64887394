/-
Clustering.Tree.Growth — a dependency tree while it is being built.

In a `Growing` run the `AddTask`s all belong to one run and every name
they need is legal (`Placeable`); nothing has failed and nothing has
terminated yet. Machines may ask for tasks meanwhile. `Grown` is the
invariant: every actor that was created is running and is a child of its
parent, under a name of its own, and a worker that has no children yet
has the `AddTask` it was created for first in its mailbox. So no worker
stops itself, and no `AddTask` is lost (`losesNoTask`).
-/
import Clustering.Tree.Placement

namespace Clustering.Tree

open Actors Clustering.Worker
open Clustering.Handshake (World)

/-! ## What is added -/

/-- What the names of one run need of the check of actor names: the
dot that joins the members of a group is a legal character. -/
structure Names (legal : String → Bool) (run : String) : Prop where
  run : legal run = true
  join : ∀ g : List String, g ≠ [] → (∀ x ∈ g, legal x = true) → legal (mkString "." g) = true

/-- A task of the run whose group has members, all with legal names, and
whose method can be part of a name. -/
structure Placeable (legal : String → Bool) (run : String) (m : AddTask) : Prop where
  run : m.instanceId = run
  version : m.version ≠ none
  group : m.group ≠ []
  members : ∀ x ∈ m.group, legal x = true
  method : '.' ∉ m.task.method.toList
  task : legal (ActorName.task m.task.method 0).text = true

instance (legal : String → Bool) (run : String) : DecidablePred (Placeable legal run) := fun m =>
  decidable_of_iff (m.instanceId = run ∧ m.version ≠ none ∧ m.group ≠ [] ∧
    (∀ x ∈ m.group, legal x = true) ∧ '.' ∉ m.task.method.toList ∧
    legal (ActorName.task m.task.method 0).text = true)
  ⟨fun ⟨h1, h2, h3, h4, h5, h6⟩ => ⟨h1, h2, h3, h4, h5, h6⟩,
    fun ⟨h1, h2, h3, h4, h5, h6⟩ => ⟨h1, h2, h3, h4, h5, h6⟩⟩

/-- No task has finished: no failure is judged, since a result is
reported as one, and nobody has terminated. -/
def Growing (legal : String → Bool) (run : String) : Event → Prop
  | .input _ (.addTask m) => Placeable legal run m
  | .judge .. => False
  | .terminates _ => False
  | _ => True

instance (legal : String → Bool) (run : String) : DecidablePred (Growing legal run) := fun e => by
  induction e using Event.casesOn with
  | input sender m =>
    induction m using WorkerMessage.casesOn <;> delta Growing <;> dsimp only <;> infer_instance
  | _ => delta Growing; dsimp only; infer_instance

/-- All members of a group that is not longer than the task's. -/
theorem Placeable.take {legal : String → Bool} {run : String} {m : AddTask} (names : Names legal run)
    (hm : Placeable legal run m) (n : ℕ) : legal (mkString "." (m.group.take (n + 1))) = true := by
  refine names.join _ ?_ ?_
  · intro hnil
    rcases List.take_eq_nil_iff.mp hnil with h | h
    · cases h
    · exact hm.group h
  · intro x hx
    exact hm.members x (List.mem_of_mem_take hx)

/-- The name of the next worker is legal. -/
theorem Placeable.hop_legal {legal : String → Bool} {run n : String} {m : AddTask} {x : Worker}
    (hm : Placeable legal run m) (names : Names legal run) (hn : x.hop m = some n) :
    legal n = true := by
  cases x with
  | instanceActor a =>
    obtain rfl := Option.some.inj hn
    rw [hm.run]
    exact names.run
  | distributorActor a => exact hm.members n (List.mem_of_head? hn)
  | subWorkerActor single a =>
    simp only [Worker.hop] at hn
    split at hn
    · obtain rfl := Option.some.inj hn
      exact hm.take names _
    · cases hn
  | taskActor => cases hn

/-! ## One turn -/

/-- The `InstanceActor` never stops itself. -/
theorem Cell.instance_stays (legal : String → Bool) (fresh : ℕ) (msg : WorkerMessage) {c : Cell}
    {a : InstanceActor} (hw : c.worker = .instanceActor a) :
    .stopSelf ∉ (c.receive legal fresh msg).effects := by
  unfold Cell.receive
  rw [hw]
  change .stopSelf ∉ (InstanceActor.receive legal fresh msg ⟨a, c.children⟩).effects
  cases msg with
  | addTask m =>
    cases hc : childNamed c.children (.named m.instanceId) with
    | some d => simp [InstanceActor.receive_addTask_pass hc]
    | none =>
      cases hl : legal m.instanceId with
      | false => simp [InstanceActor.receive_addTask_illegal hc hl]
      | true =>
        cases hv : m.version with
        | none => simp [InstanceActor.receive_addTask_noVersion hc hl hv]
        | some info => simp [InstanceActor.receive_addTask_spawn hc hl hv]
  | getTask q =>
    cases hf : InstanceActor.firstById (a.ofVersion q.version) with
    | none => simp [InstanceActor.receive_getTask_none hf]
    | some i => simp [InstanceActor.receive_getTask hf]
  | terminated t =>
    by_cases hk : ∃ i ∈ a.instances, i.ref = t
    · obtain ⟨i, -, -, hf⟩ := InstanceActor.find_ref hk
      simp [InstanceActor.receive_terminated hf]
    · have hk' : ∀ i ∈ a.instances, i.ref ≠ t := fun i hi hit => hk ⟨i, hi, hit⟩
      simp [InstanceActor.receive_terminated_unknown hk']
  | getDeployInfo =>
    cases hf : InstanceActor.firstById a.instances with
    | none => simp [InstanceActor.receive_getDeployInfo_none hf]
    | some i => simp [InstanceActor.receive_getDeployInfo hf]
  | getInstanceActor => simp [InstanceActor.receive]
  | persistAndSuicide reason => simp [InstanceActor.receive]

namespace Workers

section

variable {legal : String → Bool} {run : String} {w : World} {s s' : Workers} {e : Event}
  {he : Option Handshake.Event} {r : ℕ} {l : Letter} {t : Turn} {m : AddTask}

/-- Who takes a letter handles it as the code says. -/
theorem step_takes {r : ℕ} {l : Letter} (hw : (s.cell r).worker ≠ .taskActor)
    (h : s.step legal w (.takes r l) = some (s', he)) :
    s' = (s.pop r).perform r r l.toStamp l.msg.toAddTask ((s.cell r).receive legal s.next l.msg) := by
  simp only [step] at h
  split at h
  · have h' : (if (s.cell r).phase = .running then some ((s.pop r).handle legal r l)
        else none) = some (s', he) := by
      cases hcase : (s.cell r).worker with
      | taskActor => exact absurd hcase hw
      | _ => simpa [hcase] using h
    split at h'
    · obtain ⟨rfl, -⟩ : _ = s' ∧ _ = he := by simpa [handle] using h'
      have hcell : ((s.pop r).cell r).receive legal (s.pop r).next l.msg =
          (s.cell r).receive legal s.next l.msg := by
        simp [pop, Cell.receive]
      rw [hcell]
    · cases h'
  · cases h

/-- Nobody fails at an `AddTask` whose names are legal: it is passed on,
or a child is created for it. -/
theorem Shape.placeable_turn (h : s.Shape) (names : Names legal run) (hm : Placeable legal run m)
    (hh : Handles legal s e r l t) (hmsg : l.msg = .addTask m) :
    t.raised = none ∧ ((s.cell r).children ≠ [] ∨ (born t.effects).isSome) := by
  have hturn := hh.turns
  rw [hmsg] at hturn
  cases hturn with
  | pass hn hc hws =>
    refine ⟨rfl, .inl ?_⟩
    exact List.ne_nil_of_mem (childNamed_some hc)
  | spawn hn hc hl he hws hw => exact ⟨rfl, .inr rfl⟩
  | place hw hg hl => exact ⟨rfl, .inr rfl⟩
  | @refuse m x hx hr =>
    exfalso
    rcases hr with ⟨n, hn, hd, hl⟩ | ⟨⟨a, hw⟩, hg⟩ | ⟨⟨single, a, hw, hg⟩, hbad | hbad⟩
    · rw [hm.hop_legal names hn] at hl
      cases hl
    · exact hm.group hg
    · exact absurd (hm.task.symm.trans hbad) (by decide)
    · rw [h.no_task_child] at hbad
      cases hbad
  | unregistered hw hn hv hc => exact absurd hv hm.version
  | ignore hr hm hq ht hp => cases hm

/-! ## The invariant -/

/-- A tree that is being built of the tasks of one run. -/
structure Grown (legal : String → Bool) (run : String) (s : Workers) : Prop where
  added : ∀ x ∈ s.added, Placeable legal run x.2
  running : ∀ c, c < s.next → (s.cell c).phase = .running
  attached : ∀ c, c ≠ 0 → c < s.next →
    ⟨(s.cell c).name, c⟩ ∈ (s.cell (s.cell c).parent).children
  names : ∀ p, ((s.cell p).children.map (·.name)).Nodup
  busy : ∀ c, c ≠ 0 → c < s.next → (s.cell c).worker ≠ .taskActor → (s.cell c).children = [] →
    ∃ l m, (s.cell c).mailbox.head? = some l ∧ l.msg = .addTask m
  origins : ∀ c, c ≠ 0 → c < s.next →
    ∃ n m, (s.cell c).origin = some m ∧ (n, m) ∈ s.added
  methods : ∀ c m, c < s.next → (s.cell c).worker = .taskActor → (s.cell c).origin = some m →
    (s.cell c).name = .task m.task.method c
  mail : ∀ c, ∀ l ∈ (s.cell c).mailbox, (∃ m, l.msg = .addTask m) ∨ ∃ q, l.msg = .getTask q

theorem grown_init : System.init.workers.Grown legal run := by
  have hroot : ∀ {c}, c < System.init.workers.next → c = 0 := fun hc => Nat.lt_one_iff.mp hc
  have hchildren : ∀ p, (System.init.workers.cell p).children = [] := by
    intro p
    by_cases hp : p = 0 <;> simp [System.init, hp]
  constructor
  · intro x hx
    cases hx
  · intro c hc
    rw [hroot hc]
    rfl
  · intro c h0 hc
    exact absurd (hroot hc) h0
  · intro p
    rw [hchildren]
    exact List.nodup_nil
  · intro c h0 hc
    exact absurd (hroot hc) h0
  · intro c h0 hc
    exact absurd (hroot hc) h0
  · intro c m hc hw
    rw [hroot hc] at hw
    cases hw
  · intro c l hl
    by_cases hc : c = 0 <;> simp [System.init, hc] at hl

/-- Two children of one parent have different names. -/
theorem Grown.name_inj (h : s.Grown legal run) {c d : ℕ} (hc : c ≠ 0) (hc' : c < s.next)
    (hd : d ≠ 0) (hd' : d < s.next) (hp : (s.cell c).parent = (s.cell d).parent)
    (hn : (s.cell c).name = (s.cell d).name) : c = d := by
  have hmem := h.attached c hc hc'
  have hmem' := h.attached d hd hd'
  rw [← hp] at hmem'
  exact congrArg Child.ref (List.inj_on_of_nodup_map (h.names _) hmem hmem' hn)

/-! ## What is handled -/

/-- The code of the step is the code of the class. -/
theorem step_handles (h : s.step legal w e = some (s', he)) :
    (∃ r l, Handles legal s e r l ((s.cell r).receive legal s.next l.msg) ∧
      s' = (s.before e).perform r r l.toStamp l.msg.toAddTask
        ((s.cell r).receive legal s.next l.msg)) ∨ ∀ r l t, ¬ Handles legal s e r l t := by
  by_cases hno : ∀ r l t, ¬ Handles legal s e r l t
  · exact .inr hno
  · left
    push Not at hno
    obtain ⟨r, l, t, hh⟩ := hno
    cases hh with
    | @input v msg t hp hw hm ht =>
      refine ⟨0, _, .input hp hw hm (receive_turns hw msg), ?_⟩
      simp only [step, hp, hm, true_and, if_true, handle, Option.some.injEq, Prod.mk.injEq] at h
      obtain ⟨rfl, -⟩ := h
      rw [(note_cell msg).1, (note_cell msg).2.1]
      rfl
    | @takes r l t hp hw hl ht =>
      exact ⟨r, l, .takes hp hw hl (receive_turns hw l.msg), step_takes hw h⟩

/-- An `AddTask` that is handled is placeable. -/
theorem Grown.placeable (h : s.Grown legal run) (hk : s.Known) (hok : Growing legal run e)
    (hh : Handles legal s e r l t) (hmsg : l.msg = .addTask m) : Placeable legal run m := by
  rcases hh.mem with hl | ⟨rfl, v, rfl, -⟩
  · exact h.added _ (hk.mail r l m hl hmsg)
  · rw [hmsg] at hok
    exact hok

/-- Nothing but messages from outside is handled: no cancellation and no
`Terminated` is on its way. -/
theorem Grown.handles_only (h : s.Grown legal run) (hh : Handles legal s e r l t) :
    External l.msg := by
  cases hh with
  | input hp hw hm ht => exact hm
  | takes hp hw hl ht =>
    rcases h.mail r l (List.mem_of_head? hl) with ⟨m, hmsg⟩ | ⟨q, hmsg⟩
    · rw [hmsg]
      trivial
    · rw [hmsg]
      trivial

/-- **No worker fails or stops itself while the tree grows.** -/
theorem Grown.turn (h : s.Grown legal run) (hs : s.Shape) (hk : s.Known) (names : Names legal run)
    (hok : Growing legal run e) (hh : Handles legal s e r l t)
    (ht : t = (s.cell r).receive legal s.next l.msg) :
    t.raised = none ∧ .stopSelf ∉ t.effects ∧
      (r ≠ 0 → (s.cell r).children ≠ [] ∨ (born t.effects).isSome) := by
  have hstays : .stopSelf ∉ t.effects := by
    intro hstop
    by_cases hi : (s.cell r).worker.kind = .instanceActor
    · cases hw : (s.cell r).worker with
      | instanceActor a =>
        rw [ht] at hstop
        exact Cell.instance_stays legal s.next l.msg hw hstop
      | _ =>
        rw [hw] at hi
        cases hi
    · obtain ⟨hc, hmsg⟩ := hh.stopsSelf hs hi hstop
      cases hh with
      | input hp hw hm htu => exact hi hs.root.2
      | takes hp hw hl htu =>
        have h0 : r ≠ 0 := by
          rintro rfl
          exact hi hs.root.2
        obtain ⟨l', m, hl', hm⟩ := h.busy r h0 (hs.lt_of_mail hl) hw hc
        obtain rfl := Option.some.inj (hl.symm.trans hl')
        rcases hmsg with ⟨q, hq⟩ | ⟨u, hu⟩
        · rw [hm] at hq
          cases hq
        · rw [hm] at hu
          cases hu
  by_cases hadd : ∃ m, l.msg = .addTask m
  · obtain ⟨m, hmsg⟩ := hadd
    obtain ⟨hraised, hch⟩ := hs.placeable_turn names (h.placeable hk hok hh hmsg) hh hmsg
    exact ⟨hraised, hstays, fun _ => hch⟩
  · refine ⟨?_, hstays, ?_⟩
    · -- only an `AddTask` and the `Terminated` of an unknown run make code fail
      have hturn := hh.turns
      have hnot : ∀ u, l.msg ≠ .terminated u := by
        intro u hu
        have hknown := h.handles_only hh
        rw [hu] at hknown
        exact hknown
      generalize hmsg : l.msg = msg at hturn
      cases hturn with
      | refuse hx hm => exact absurd ⟨_, hmsg⟩ hadd
      | unregistered hw hn hv hc => exact absurd ⟨_, hmsg⟩ hadd
      | unknown hw hkn => exact absurd hmsg (hnot _)
      | _ => rfl
    · intro h0
      left
      intro hc
      cases hh with
      | input hp hw hm htu => exact h0 rfl
      | takes hp hw hl htu =>
        obtain ⟨l', m, hl', hm⟩ := h.busy r h0 (hs.lt_of_mail hl) hw hc
        obtain rfl := Option.some.inj (hl.symm.trans hl')
        exact hadd ⟨m, hm⟩

/-! ## One step -/

/-- A step in which no worker handles a letter: at most a task actor
takes one. -/
theorem Grown.quiet (h : s.Grown legal run) (hs : s.Shape) (hok : Growing legal run e)
    (hm : Moves legal w s e s' he) (hno : ∀ r l t, ¬ Handles legal s e r l t) :
    s'.next = s.next ∧ s'.added = s.added ∧
      ∀ c, s'.cell c = { s.cell c with mailbox := s.rest e c } ∧
        ((s.cell c).worker ≠ .taskActor → s.rest e c = (s.cell c).mailbox) := by
  have hparent : ∀ {c}, s.IsChild c → (s.cell (s.cell c).parent).phase = .running :=
    fun hc => h.running _ (hs.supervised hc).2.1
  cases hm with
  | input hp hm hw ht => exact absurd (.input hp hw hm ht) (hno _ _ _)
  | takes hl hp hw ht => exact absurd (.takes hp hw hl ht) (hno _ _ _)
  | @taskTakes r l hl hw hp =>
    refine ⟨rfl, rfl, fun c => ?_⟩
    by_cases hc : c = r
    · subst hc
      exact ⟨by simp [rest, pop], fun hw' => absurd hw hw'⟩
    · simp [rest, pop, hc]
  | judgeSuccess hf hc hw hs => exact hok.elim
  | judgeFailure hf hc hw hs => exact hok.elim
  | judgeFails hf hc hx => exact hok.elim
  | judgeRestarts hf hc hw hx => exact hok.elim
  | guardian hf => exact hok.elim
  | stops hr hc hp hs =>
    rw [hparent hc] at hp
    rcases hp with hp | hp <;> cases hp
  | terminates hr hc hd => exact hok.elim
  | @recreate r hp hc =>
    have hrun := h.running r (hs.lt_of_phase (by simp [hp]))
    rw [hp] at hrun
    cases hrun
  | execute => exact ⟨rfl, rfl, fun c => ⟨rfl, fun _ => rfl⟩⟩
  | handshake hi => exact ⟨rfl, rfl, fun c => ⟨rfl, fun _ => rfl⟩⟩

/-- The letters after a step are `AddTask`s and `GetTask`s. -/
theorem Grown.mail_step (h : s.Grown legal run) (hs : s.Shape) (hok : Growing legal run e)
    (hm : Moves legal w s e s' he) (c : ℕ) :
    ∀ l ∈ (s'.cell c).mailbox, (∃ m, l.msg = .addTask m) ∨ ∃ q, l.msg = .getTask q := by
  intro l hl
  have hproper := (hm.shape hs).mail c l hl
  rcases hm.mem_mailbox hs hl with hl | hposts
  · exact h.mail c l hl
  · cases hposts with
    | @handled r l₀ t hh hst hsay =>
      cases hmsg : l.msg with
      | addTask m => exact .inl ⟨m, rfl⟩
      | getTask q => exact .inr ⟨q, rfl⟩
      | persistAndSuicide reason =>
        exfalso
        rw [hmsg] at hsay
        obtain ⟨hmsg₀, -⟩ := Turns.says_persistAndSuicide hh.turns hsay
        have hknown := h.handles_only hh
        rw [hmsg₀] at hknown
        exact hknown
      | terminated u =>
        rw [hmsg] at hsay
        exact absurd hsay (Turns.says_terminated hh.turns)
      | getDeployInfo =>
        rw [hmsg] at hproper
        exact hproper.elim
      | getInstanceActor =>
        rw [hmsg] at hproper
        exact hproper.elim
    | cancels he' hw hd hc hl =>
      subst he'
      exact hok.elim
    | buried he' hd hi hc hw hl =>
      subst he'
      exact hok.elim

/-- What is added in a step is placeable. -/
theorem Grown.added_step (h : s.Grown legal run) (hok : Growing legal run e)
    (hm : Moves legal w s e s' he) :
    (∀ x ∈ s.added, x ∈ s'.added) ∧ ∀ x ∈ s'.added, Placeable legal run x.2 := by
  rcases hm.added.2 with ⟨heq, -⟩ | ⟨v, m, rfl, heq⟩ <;> rw [heq]
  · exact ⟨fun x hx => hx, h.added⟩
  · refine ⟨fun x hx => List.mem_append_left _ hx, ?_⟩
    intro x hx
    rcases List.mem_append.mp hx with hx | hx
    · exact h.added x hx
    · obtain rfl := List.mem_singleton.mp hx
      exact hok

/-- The cells of a tree that did not change but for what task actors
took. -/
theorem Grown.of_quiet (h : s.Grown legal run) (hs : s.Shape) (hok : Growing legal run e)
    (hm : Moves legal w s e s' he) (hno : ∀ r l t, ¬ Handles legal s e r l t) :
    s'.Grown legal run := by
  obtain ⟨hnext, hadded, hcell⟩ := h.quiet hs hok hm hno
  have hcells : ∀ c, s'.cell c = { s.cell c with mailbox := s.rest e c } := fun c => (hcell c).1
  constructor
  · exact (h.added_step hok hm).2
  · intro c hc
    rw [hcells]
    exact h.running c (hnext ▸ hc)
  · intro c h0 hc
    rw [hcells c, hcells]
    exact h.attached c h0 (hnext ▸ hc)
  · intro p
    rw [hcells]
    exact h.names p
  · intro c h0 hc
    rw [hcells]
    intro hw hch
    obtain ⟨l, m, hl, hmsg⟩ := h.busy c h0 (hnext ▸ hc) hw hch
    refine ⟨l, m, ?_, hmsg⟩
    change (s.rest e c).head? = _
    rw [(hcell c).2 hw]
    exact hl
  · intro c h0 hc
    rw [hcells, hadded]
    exact h.origins c h0 (hnext ▸ hc)
  · intro c m hc
    rw [hcells]
    exact h.methods c m (hnext ▸ hc)
  · exact h.mail_step hs hok hm

/-- Whom a letter creates: a child under a name that is new below its
parent, and a worker has the letter in its mailbox. -/
theorem Shape.newborn_child (h : s.Shape) (hh : Handles legal s e r l t) {n : ActorName}
    {props : Props} (hb : born t.effects = some (s.next, n, props)) :
    ∃ m, l.msg = .addTask m ∧ childNamed (s.cell r).children n = none ∧
      t.children = ⟨n, s.next⟩ :: (s.cell r).children ∧
      (Worker.new props = .taskActor → n = .task m.task.method s.next) := by
  obtain ⟨m, hmsg, hcase⟩ := Turns.born_cases hh.turns hb
  have hchildren : t.children = ⟨n, s.next⟩ :: (s.cell r).children := by
    rcases Turns.children hh.turns with ⟨hn, -⟩ | ⟨n', props', hn, hc⟩
    · rw [hn] at hb
      cases hb
    · rw [hn] at hb
      cases hb
      exact hc
  rcases hcase with ⟨x, rfl, hhop, hnone, rfl⟩ | ⟨single, a, hw, hg, rfl, rfl⟩
  · refine ⟨m, hmsg, hnone, hchildren, ?_⟩
    intro hnew
    exfalso
    cases hprops : (s.cell r).worker.hopProps (s.cell r).name.text m with
    | taskActor task tn => exact Worker.hopProps_not_task _ _ m task tn hprops
    | _ =>
      rw [hprops] at hnew
      cases hnew
  · exact ⟨m, hmsg, h.no_task_child r _, hchildren, fun _ => rfl⟩

/-- The `AddTask` a new worker is created for is the first letter in its
mailbox. -/
theorem Turns.first_letter {stamp : Stamp} (ht : Turns legal s.next (s.cell r) l.msg t)
    {n : ActorName} {props : Props} (hb : born t.effects = some (s.next, n, props))
    (hw : Worker.new props ≠ .taskActor) (hraised : t.raised = none) :
    ∃ l' m, (s.sent r stamp t s.next).head? = some l' ∧ l'.msg = .addTask m := by
  obtain ⟨m, hmsg, -⟩ := Turns.born_cases ht hb
  rw [hmsg] at ht
  cases ht with
  | pass hn hc hws =>
    have hno : born _ = none := born_watches hws
    exact absurd (hno.symm.trans hb) (by simp)
  | @spawn m n' ws hn hc hl he hws hw' =>
    refine ⟨⟨{ stamp with hops := ⟨r, s.clock⟩ :: stamp.hops }, .addTask m⟩, m, ?_, rfl⟩
    simp only [sent, List.filterMap_cons, letterTo, if_true]
    rfl
  | place hw' hg hl =>
    cases hb
    exact absurd rfl hw
  | refuse hx hm => cases hb
  | unregistered hw' hn hv hc => cases hraised
  | ignore hr hm hq ht hp => cases hm

/-- The cells of a tree in which a worker handled a letter. -/
theorem Grown.of_handles (h : s.Grown legal run) (hs : s.Shape) (hk : s.Known)
    (names : Names legal run) (hok : Growing legal run e) (hm : Moves legal w s e s' he)
    (hh : Handles legal s e r l t) (ht : t = (s.cell r).receive legal s.next l.msg)
    (hs' : s' = (s.before e).perform r r l.toStamp l.msg.toAddTask t) : s'.Grown legal run := by
  obtain ⟨hraised, hstays, hchild⟩ := h.turn hs hk names hok hh ht
  have hg := hm.grows hs
  have hr := hh.lt hs
  have hnew : s'.next = s.next + 1 → ∃ n props, born t.effects = some (s.next, n, props) ∧
      s'.cell s.next = ⟨.new props, n, r, l.msg.toAddTask, [], [], s.sent r l.toStamp t s.next,
        .running⟩ := by
    intro hn
    rcases Turns.children hh.turns with ⟨hb, -⟩ | ⟨n, props, hb, -⟩
    · rw [hs'] at hn
      simp [perform, hb, (before_same s e).1] at hn
    · refine ⟨n, props, hb, ?_⟩
      have hsent : (s.before e).sent r l.toStamp t s.next = s.sent r l.toStamp t s.next := by
        unfold sent
        rw [(before_same s e).2.1]
      rw [hs', perform_born (Nat.ne_of_gt hr) hb, hsent]
  have hself : s'.cell r = { s.acted r t with
      mailbox := s.rest e r ++ s.sent r l.toStamp t r } := by
    rw [hs']
    exact hh.cell_self hs
  have hother : ∀ {c}, c ≠ r → c < s.next → s'.cell c =
      { s.cell c with mailbox := s.rest e c ++ s.sent r l.toStamp t c } := by
    intro c hc hlt
    rw [hs']
    exact hh.cell_other hs hc hlt
  -- the children of `r` before the step are children after it
  have hkeep : ∀ x ∈ (s.cell r).children, x ∈ t.children := by
    intro x hx
    rcases Turns.children hh.turns with ⟨-, hc⟩ | ⟨n, props, -, hc⟩ <;> rw [hc]
    · exact hx
    · exact List.mem_cons_of_mem _ hx
  constructor
  · exact (h.added_step hok hm).2
  · intro c hc
    rcases hg.lt_or_eq hc with hlt | ⟨rfl, hn⟩
    · by_cases hcr : c = r
      · subst hcr
        rw [hself]
        simp [acted, hraised, hstays, hh.running]
      · rw [hother hcr hlt]
        exact h.running c hlt
    · obtain ⟨n, props, -, hcell⟩ := hnew hn
      rw [hcell]
  · intro c h0 hc
    rcases hg.lt_or_eq hc with hlt | ⟨rfl, hn⟩
    · have hmem := h.attached c h0 hlt
      rw [hg.name hlt, hg.parent hlt]
      by_cases hpr : (s.cell c).parent = r
      · rw [hpr] at hmem ⊢
        rw [hself]
        exact hkeep _ hmem
      · rw [hother hpr (Nat.lt_trans (hs.fits c h0 hlt).1 hlt)]
        exact hmem
    · obtain ⟨n, props, hb, hcell⟩ := hnew hn
      obtain ⟨m, -, -, hch, -⟩ := hs.newborn_child hh hb
      rw [hcell, hself]
      show _ ∈ t.children
      rw [hch]
      exact List.mem_cons_self
  · intro p
    by_cases hp : p < s'.next
    · rcases hg.lt_or_eq hp with hlt | ⟨rfl, hn⟩
      · by_cases hpr : p = r
        · subst hpr
          rw [hself]
          show (t.children.map (·.name)).Nodup
          rcases Turns.children hh.turns with ⟨-, hc⟩ | ⟨n, props, hb, hc⟩
          · rw [hc]
            exact h.names p
          · obtain ⟨m, -, hnone, -, -⟩ := hs.newborn_child hh hb
            rw [hc, List.map_cons, List.nodup_cons]
            refine ⟨?_, h.names p⟩
            intro hmem
            obtain ⟨x, hx, hxn⟩ := List.mem_map.mp hmem
            exact childNamed_none hnone x hx hxn
        · rw [hother hpr hlt]
          exact h.names p
      · obtain ⟨n, props, -, hcell⟩ := hnew hn
        rw [hcell]
        exact List.nodup_nil
    · rw [((hm.shape hs).unused p (Nat.not_lt.mp hp)).2.2]
      exact List.nodup_nil
  · intro c h0 hc hw hch
    rcases hg.lt_or_eq hc with hlt | ⟨rfl, hn⟩
    · by_cases hcr : c = r
      · -- it has passed its `AddTask` on, and has a child
        exfalso
        subst hcr
        rw [hself] at hch
        change t.children = [] at hch
        rcases hchild h0 with hne | hbo
        · obtain ⟨x, hx⟩ := List.exists_mem_of_ne_nil _ hne
          have hx := hkeep x hx
          rw [hch] at hx
          cases hx
        · rcases Turns.children hh.turns with ⟨hb, -⟩ | ⟨n, props, -, hc⟩
          · rw [hb] at hbo
            cases hbo
          · rw [hc] at hch
            cases hch
      · rw [hother hcr hlt] at hw hch ⊢
        obtain ⟨l', m, hl', hmsg⟩ := h.busy c h0 hlt hw hch
        refine ⟨l', m, ?_, hmsg⟩
        have hrest : s.rest e c = (s.cell c).mailbox := by
          cases hh with
          | input hp hw hm ht => rfl
          | takes hp hw hl ht => simp [rest, hcr]
        show (s.rest e c ++ _).head? = _
        rw [hrest, List.head?_append, hl']
        rfl
    · obtain ⟨n, props, hb, hcell⟩ := hnew hn
      rw [hcell] at hw ⊢
      exact Turns.first_letter hh.turns hb hw hraised
  · intro c h0 hc
    rcases hg.lt_or_eq hc with hlt | ⟨rfl, hn⟩
    · obtain ⟨n, m, ho, hadd⟩ := h.origins c h0 hlt
      rw [hg.origin hlt]
      exact ⟨n, m, ho, (h.added_step hok hm).1 _ hadd⟩
    · obtain ⟨n, props, hb, hcell⟩ := hnew hn
      obtain ⟨m, hmsg, -⟩ := hs.newborn_child hh hb
      refine ⟨l.number, m, ?_, hk.handled hm hh hmsg⟩
      rw [hcell, hmsg]
      rfl
  · intro c m hc hw ho
    rcases hg.lt_or_eq hc with hlt | ⟨rfl, hn⟩
    · rw [hg.name hlt]
      refine h.methods c m hlt ?_ ?_
      · rw [← kind_taskActor, ← hg.kind hlt, hw]
        rfl
      · rw [← hg.origin hlt]
        exact ho
    · obtain ⟨n, props, hb, hcell⟩ := hnew hn
      obtain ⟨m', hmsg, -, -, hname⟩ := hs.newborn_child hh hb
      rw [hcell] at hw ho ⊢
      rw [hmsg] at ho
      obtain rfl := Option.some.inj ho
      exact hname hw
  · exact h.mail_step hs hok hm

/-- **A growing step keeps the tree grown.** -/
theorem Grown.step (h : s.Grown legal run) (hs : s.Shape) (hk : s.Known) (names : Names legal run)
    (hok : Growing legal run e) (hstep : s.step legal w e = some (s', he)) :
    s'.tick.Grown legal run := by
  have hm := step_moves hs.root_ne hstep
  have hgrown : s'.Grown legal run := by
    rcases step_handles hstep with ⟨r, l, hh, hs'⟩ | hno
    · exact h.of_handles hs hk names hok hm hh rfl hs'
    · exact h.of_quiet hs hok hm hno
  exact ⟨hgrown.added, hgrown.running, hgrown.attached, hgrown.names, hgrown.busy,
    hgrown.origins, hgrown.methods, hgrown.mail⟩

/-! ## No task is lost -/

/-- Who handles an `AddTask` of the run can pass it on or place it. -/
theorem Grown.passable (h : s.Grown legal run) (hs : s.Shape) (names : Names legal run)
    (hm : Placeable legal run m) : s.Passable legal r m := by
  cases hn : (s.cell r).worker.hop m with
  | none =>
    simp only [Passable, hn]
    exact ⟨hm.group, hm.task⟩
  | some n =>
    cases hc : childNamed (s.cell r).children (.named n) with
    | some d =>
      simp only [Passable, hn, hc]
      rw [h.running d (hs.below (childNamed_some hc)).1]
      simp
    | none =>
      simp only [Passable, hn, hc]
      refine ⟨hm.hop_legal names hn, ?_⟩
      cases hw : (s.cell r).worker with
      | instanceActor a => exact Option.isSome_iff_ne_none.mpr hm.version
      | _ => trivial

/-- **No growing step loses an `AddTask`.** -/
theorem Grown.losesNoTask (h : s.Grown legal run) (hs : s.Shape) (hk : s.Known)
    (names : Names legal run) (hok : Growing legal run e) (hm : Moves legal w s e s' he) :
    LosesNoTask legal ⟨s, w⟩ e := by
  have hpass : ∀ {r l m}, (s.cell r).mailbox.head? = some l → l.msg = .addTask m →
      s.Passable legal r m := by
    intro r l m hl hmsg
    exact h.passable hs names (h.added _ (hk.mail r l m (List.mem_of_head? hl) hmsg))
  -- a worker without children has an `AddTask` to handle first
  have hbusy : ∀ {r l}, (s.cell r).mailbox.head? = some l → l.msg.toAddTask = none →
      (s.cell r).children = [] → NoAddTask (s.cell r).mailbox.tail := by
    intro r l hl hno hc
    by_cases h0 : r = 0 ∨ (s.cell r).worker = .taskActor
    · -- no `AddTask` is on its way to the root or to a task actor
      intro x hx
      have hproper := hs.mail r x (List.mem_of_mem_tail hx)
      cases hmsg : x.msg with
      | addTask m =>
        exfalso
        rw [hmsg] at hproper
        rcases h0 with rfl | hw
        · have hkind : (s.cell 0).place.kind = .instanceActor := hs.root.2
          simp [Proper, hkind] at hproper
        · have hkind : (s.cell r).place.kind = .taskActor := kind_taskActor.mpr hw
          simp [Proper, hkind] at hproper
      | _ => rfl
    · push Not at h0
      obtain ⟨l', m, hl', hmsg⟩ := h.busy r h0.1 (hs.lt_of_mail hl) h0.2 hc
      obtain rfl := Option.some.inj (hl.symm.trans hl')
      rw [hmsg] at hno
      cases hno
  have htakes : ∀ {r l}, (s.cell r).mailbox.head? = some l →
      LosesNoTask legal ⟨s, w⟩ (.takes r l) := by
    rintro r ⟨st, msg⟩ hl
    cases msg with
    | addTask m => exact hpass hl rfl
    | getTask q => exact hbusy hl rfl
    | terminated u => exact hbusy hl rfl
    | _ => trivial
  cases hm with
  | @input v msg t hp hext hw ht =>
    cases msg with
    | addTask m => exact h.passable hs names hok
    | _ => trivial
  | takes hl hp hw ht => exact htakes hl
  | taskTakes hl hw hp => exact htakes hl
  | judgeSuccess hf hc hw hs => trivial
  | judgeFailure hf hc hw hs => trivial
  | judgeFails hf hc hx => trivial
  | judgeRestarts hf hc hw hx => trivial
  | guardian hf => trivial
  | stops hr hc hp hst =>
    rw [h.running _ (hs.supervised hc).2.1] at hp
    rcases hp with hp | hp <;> cases hp
  | terminates hr hc hd => trivial
  | recreate hp hc => trivial
  | execute => trivial
  | handshake hi => trivial

end

end Workers

variable {legal : String → Bool} {run : String} {es : List Event} {s : System}

theorem grown_run (names : Names legal run)
    (h : (system legal).Run (fun _ _ => Growing legal run) es s) : s.workers.Grown legal run := by
  induction h with
  | start => exact Workers.grown_init
  | @step es s s' e h hok hs ih =>
    have hw := wellFormed_run h
    change System.step legal s e = some s' at hs
    simp only [System.step, Option.bind_eq_bind, Option.bind_eq_some_iff] at hs
    obtain ⟨⟨t, he⟩, ht, w', -, hs⟩ := hs
    obtain rfl := Option.some.inj hs
    exact ih.step hw.shape (known_run h) names hok ht

/-- Every growing run is one that loses no `AddTask`. -/
theorem losesNoTask_run (names : Names legal run)
    (h : (system legal).Run (fun _ _ => Growing legal run) es s) :
    (system legal).Run (fun _ => LosesNoTask legal) es s := by
  induction h with
  | start => exact .start
  | @step es s s' e h hok hs ih =>
    have hw := wellFormed_run h
    obtain ⟨t, he, hm, -, -⟩ := System.step_moves hw.shape.root_ne hs
    exact .step ih ((grown_run names h).losesNoTask hw.shape (known_run h) names hok hm) hs

end Clustering.Tree
