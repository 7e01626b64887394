/-
Clustering.Tree.Leaves — how the tree grows, and what its leaves are.

`Grows` says what a step does to the places: none changes, and at most
one actor is created. `Leaves` is the seam between the two halves of a
system: the task actors of the tree are exactly those that exist in the
handshake, each with the task of the `AddTask` it was created for.
-/
import Clustering.Tree.Shape
import Clustering.Handshake.Lives

namespace Clustering.Tree

open Actors Clustering.Worker
open Clustering.Handshake (World)

/-! ## Growth -/

/-- No place changes, and at most one actor is created, together with
its task actor in the handshake. -/
inductive Grows (s s' : Workers) : Option Handshake.Event → Prop
  | nobody {he : Option Handshake.Event} (hn : s'.next = s.next)
      (hp : ∀ c, (s'.cell c).place = (s.cell c).place)
      (hc : ∀ t task tablename, he ≠ some (.create t task tablename)) : Grows s s' he
  | worker (hn : s'.next = s.next + 1)
      (hp : ∀ c, c < s.next → (s'.cell c).place = (s.cell c).place)
      (hk : (s'.cell s.next).worker.kind ≠ .taskActor) : Grows s s' none
  | task {m : AddTask} (hn : s'.next = s.next + 1)
      (hp : ∀ c, c < s.next → (s'.cell c).place = (s.cell c).place)
      (hk : (s'.cell s.next).worker = .taskActor) (ho : (s'.cell s.next).origin = some m) :
      Grows s s' (some (.create s.next m.task m.instanceId))

section

variable {s s' : Workers} {he : Option Handshake.Event}

theorem Grows.next_le (h : Grows s s' he) : s.next ≤ s'.next := by
  cases h <;> omega

theorem Grows.place (h : Grows s s' he) {c : ℕ} (hc : c < s.next) :
    (s'.cell c).place = (s.cell c).place := by
  cases h with
  | nobody hn hp he => exact hp c
  | worker hn hp hk => exact hp c hc
  | task hn hp hk ho => exact hp c hc

theorem Grows.kind (h : Grows s s' he) {c : ℕ} (hc : c < s.next) :
    (s'.cell c).worker.kind = (s.cell c).worker.kind := congrArg Place.kind (h.place hc)

theorem Grows.parent (h : Grows s s' he) {c : ℕ} (hc : c < s.next) :
    (s'.cell c).parent = (s.cell c).parent := congrArg Place.parent (h.place hc)

theorem Grows.name (h : Grows s s' he) {c : ℕ} (hc : c < s.next) :
    (s'.cell c).name = (s.cell c).name := congrArg Place.name (h.place hc)

theorem Grows.origin (h : Grows s s' he) {c : ℕ} (hc : c < s.next) :
    (s'.cell c).origin = (s.cell c).origin := congrArg Place.origin (h.place hc)

theorem grows_of_keeps (hk : s.Keeps s')
    (he' : ∀ t task tablename, he ≠ some (.create t task tablename)) : Grows s s' he :=
  .nobody hk.next hk.place he'

/-- The new actor is the only one with the next number. -/
theorem Grows.lt_or_eq (h : Grows s s' he) {c : ℕ} (hc : c < s'.next) :
    c < s.next ∨ c = s.next ∧ s'.next = s.next + 1 := by
  cases h with
  | nobody hn hp he => exact .inl (hn ▸ hc)
  | worker hn hp hk => omega
  | task hn hp hk ho => omega

end

/-! ## Ancestors -/

/-- `p` is `c` itself or above it. -/
inductive Workers.Above (s : Workers) (p : ℕ) : ℕ → Prop
  | self : Above s p p
  | step {c : ℕ} (h0 : c ≠ 0) (h : Above s p (s.cell c).parent) : Above s p c

theorem Workers.Above.cases_parent {s : Workers} {p c : ℕ} (h : s.Above p c) :
    p = c ∨ c ≠ 0 ∧ s.Above p (s.cell c).parent := by
  cases h with
  | self => exact .inl rfl
  | step h0 h => exact .inr ⟨h0, h⟩

theorem Workers.tick_above {s : Workers} {p c : ℕ} : s.tick.Above p c ↔ s.Above p c := by
  constructor
  · intro h
    induction h with
    | self => exact .self
    | step h0 h ih => exact .step h0 ih
  · intro h
    induction h with
    | self => exact .self
    | step h0 h ih => exact .step h0 ih

/-- Ancestors have smaller numbers. -/
theorem Workers.Shape.above_le {s : Workers} (h : s.Shape) {p c : ℕ} (ha : s.Above p c)
    (hc : c < s.next) : p ≤ c := by
  induction ha with
  | self => exact Nat.le_refl p
  | @step c h0 ha ih =>
    have hlt := (h.fits c h0 hc).1
    exact Nat.le_trans (ih (Nat.lt_trans hlt hc)) (Nat.le_of_lt hlt)

/-- Of an actor that existed, growth changes no ancestors. -/
theorem Grows.above {s s' : Workers} {he : Option Handshake.Event} (hs : s.Shape)
    (h : Grows s s' he) {p c : ℕ} (hc : c < s.next) : s'.Above p c ↔ s.Above p c := by
  constructor
  · intro ha
    induction ha with
    | self => exact .self
    | @step c h0 ha ih =>
      have hp := h.parent hc
      rw [hp] at ih
      exact .step h0 (ih (Nat.lt_trans (hs.fits c h0 hc).1 hc))
  · intro ha
    induction ha with
    | self => exact .self
    | @step c h0 ha ih =>
      refine .step h0 ?_
      rw [h.parent hc]
      exact ih (Nat.lt_trans (hs.fits c h0 hc).1 hc)

theorem kind_taskActor {x : Worker} : x.kind = .taskActor ↔ x = .taskActor := by
  cases x <;> simp [Worker.kind]

section

variable {legal : String → Bool} {fresh : ℕ} {c : Cell} {m : WorkerMessage} {t : Turn}

/-- What an `AddTask` creates on its way is no task actor. -/
theorem Worker.hopProps_not_task (x : Worker) (name : String) (m : AddTask) (task : Task)
    (tn : String) : x.hopProps name m ≠ .taskActor task tn := by
  have hsub : ∀ single g tn', SubWorkerActor.subProps single g tn' ≠ .taskActor task tn := by
    intro single g tn'
    cases single <;> simp [SubWorkerActor.subProps]
  cases x with
  | distributorActor a => exact hsub _ _ _
  | subWorkerActor single a => exact hsub _ _ _
  | instanceActor a => simp [Worker.hopProps]
  | taskActor => simp [Worker.hopProps]

/-- A turn that creates a task actor places the task it handles. -/
theorem Turns.birth (h : Turns legal fresh c m t) :
    (Workers.birth t = none ∧ ∀ f n props, born t.effects = some (f, n, props) →
      Worker.new props ≠ .taskActor) ∨
    ∃ p single a, m = .addTask p ∧ c.worker = .subWorkerActor single a ∧
      p.group.length ≤ a.group.length ∧
      Workers.birth t = some (.create fresh p.task a.tablename) ∧
      born t.effects = some (fresh, .task p.task.method fresh, .taskActor p.task a.tablename) := by
  have hnone : born t.effects = none → Workers.birth t = none ∧ ∀ f n props,
      born t.effects = some (f, n, props) → Worker.new props ≠ .taskActor := by
    intro hb
    refine ⟨by simp [Workers.birth, hb], ?_⟩
    intro f n props hb'
    rw [hb] at hb'
    cases hb'
  cases h with
  | pass hh hc hws =>
    have hb := born_watches hws
    exact .inl (hnone hb)
  | @spawn m n ws hh hc hl he hws hw =>
    have hb : born (.actorOf fresh (.named n) (c.worker.hopProps c.name.text m) ::
        .tell fresh (.addTask m) :: ws) = some (fresh, .named n, c.worker.hopProps c.name.text m) :=
      rfl
    left
    constructor
    · unfold Workers.birth
      rw [hb]
      cases hp : c.worker.hopProps c.name.text m with
      | taskActor task tn => exact absurd hp (Worker.hopProps_not_task _ _ _ task tn)
      | _ => rfl
    · intro f n' props hb'
      rw [hb] at hb'
      cases hb'
      cases hp : c.worker.hopProps c.name.text m with
      | taskActor task tn => exact absurd hp (Worker.hopProps_not_task _ _ _ task tn)
      | _ => simp [Worker.new]
  | @place m single a hw hg hl => exact .inr ⟨m, single, a, rfl, hw, hg, rfl, rfl⟩
  | refuse hx hm => exact .inl (hnone rfl)
  | unregistered hw hh hv hc =>
    refine .inl ⟨rfl, ?_⟩
    intro f n' props hb
    cases hb
    simp [Worker.new]
  | serve hr =>
    refine .inl (hnone ?_)
    rw [born_forwards]
    exact born_aside hr
  | mourn hk hr => exact .inl (hnone (born_aside hr))
  | unknown hw hk => exact .inl (hnone rfl)
  | cancel hw => exact .inl (hnone (born_tells _ _))
  | ignore hr hm hq ht hp => exact .inl (hnone (born_aside hr))

end

namespace Workers

variable {legal : String → Bool} {w : World} {s s' : Workers} {r about : ℕ} {stamp : Stamp}
  {t : Turn}

/-- A handled message makes the tree grow by what its turn creates. -/
theorem Turns.grows {m : WorkerMessage} (h : s.Shape) (hr : r < s.next) (hm : s.Handled r m)
    (ht : Turns legal s.next (s.cell r) m t) :
    Grows s (s.perform r about stamp m.toAddTask t) (birth t) := by
  have hsound := Turns.sound h hm ht
  have hplace : ∀ c, c < s.next → ((s.perform r about stamp m.toAddTask t).cell c).place =
      (s.cell c).place := fun c hc => hsound.place hc
  have hne : s.next ≠ r := Nat.ne_of_gt hr
  rcases Turns.birth ht with ⟨hb, hprops⟩ | ⟨p, single, a, rfl, hw, hg, hb, hbo⟩
  · rw [hb]
    have hn : (s.perform r about stamp m.toAddTask t).next = s.next ∧ _ ∨ _ := hsound.next
    rcases hn with ⟨hn, hbo⟩ | ⟨n, props, hn, hbo, -, -⟩
    · refine .nobody hn ?_ (fun _ _ _ hno => by cases hno)
      intro c
      by_cases hcr : c = r
      · exact hplace c (hcr ▸ hr)
      · rw [perform_other hcr (by simp [hbo])]
        rfl
    · refine .worker hn hplace ?_
      rw [perform_born hne hbo]
      intro hk
      exact hprops _ _ _ hbo (kind_taskActor.mp hk)
  · have hk : (s.cell r).place.kind = .subWorkerActor single a.group a.tablename := by
      simp [Cell.place, hw, Worker.kind]
    have hp := h.handled_proper hm (by simp [hw, Worker.kind])
    simp only [Proper, hk] at hp
    rw [hb, hp.2]
    have hn : (s.perform r about stamp (WorkerMessage.addTask p).toAddTask t).next = s.next + 1 := by
      simp [perform, hbo]
    refine .task hn hplace ?_ ?_
    · rw [perform_born hne hbo]
      rfl
    · rw [perform_born hne hbo]
      rfl

theorem keeps_note (msg : WorkerMessage) : s.Keeps (s.note msg) := by
  have hn := note_cell (s := s) msg
  have hk := keeps_refl s
  refine ⟨hn.2.1, ?_, ?_, ?_, ?_, ?_, ?_⟩ <;> rw [hn.1]
  · exact hk.place
  · exact hk.phase
  · exact hk.children
  · exact hk.refs
  · exact hk.mail
  · exact hk.failed

theorem Keeps.grows_trans {s₁ : Workers} {he : Option Handshake.Event} (hk : s.Keeps s₁)
    (hg : Grows s₁ s' he) : Grows s s' he := by
  cases hg with
  | nobody hn hp hc => exact .nobody (hn.trans hk.next) (fun c => (hp c).trans (hk.place c)) hc
  | worker hn hp hk' =>
    rw [hk.next] at hn hp hk'
    exact .worker hn (fun c hc => (hp c hc).trans (hk.place c)) hk'
  | task hn hp hk' ho =>
    rw [hk.next] at hn hp hk' ho ⊢
    exact .task hn (fun c hc => (hp c hc).trans (hk.place c)) hk' ho

/-- A turn that creates nobody. -/
theorem Sound.grows {origin : Option AddTask} {he : Option Handshake.Event} (hr : r < s.next)
    (ht : s.Sound r origin t) (hb : born t.effects = none)
    (hc : ∀ t task tablename, he ≠ some (.create t task tablename)) :
    Grows s (s.perform r about stamp origin t) he := by
  refine .nobody (by simp [perform, hb]) ?_ hc
  intro c
  by_cases hcr : c = r
  · exact ht.place (hcr ▸ hr)
  · rw [perform_other hcr (by simp [hb])]
    rfl

theorem stopChild_event (c : ℕ) : (s.stopChild c).2 = none ∨ (s.stopChild c).2 = some (.stop c) := by
  unfold stopChild
  split
  · exact .inr rfl
  · exact .inl rfl

/-- A child that is told to stop, after nothing else has grown. -/
theorem stopChild_grows {s₁ : Workers} {c : ℕ} {he : Option Handshake.Event}
    (hg : Grows s s₁ none) (hn : s₁.next = s.next) (hc : c < s.next)
    (hs : (s', he) = s₁.stopChild c) : Grows s s' he := by
  rw [Prod.eq_iff_fst_eq_snd_eq] at hs
  obtain ⟨rfl, rfl⟩ := hs
  have hk : s₁.Keeps (s₁.stopChild c).1 := keeps_stopChild (hn ▸ hc)
  cases hg with
  | nobody hn hp _ =>
    refine .nobody (hk.next.trans hn) (fun c => (hk.place c).trans (hp c)) ?_
    intro t task tablename
    rcases stopChild_event (s := s₁) c with he | he <;> simp [he]
  | worker hn' hp hk' => omega

/-- **What a step creates**: at most one actor, which is a task actor
exactly if one is created in the handshake. -/
theorem Moves.grows {e : Event} {he : Option Handshake.Event} (h : s.Shape)
    (hm : Moves legal w s e s' he) : Grows s s' he := by
  cases hm with
  | @input v msg t hp hext hw ht =>
    have hn := note_cell (s := s) msg
    have ht' : Turns legal (s.note msg).next ((s.note msg).cell 0) msg t := by
      rw [hn.1, hn.2.1]
      exact ht
    exact (keeps_note msg).grows_trans
      (Turns.grows (h.note msg) (by rw [hn.2.1]; exact h.root.1) (.inr ⟨rfl, hext⟩) ht')
  | @takes r l t hl hp hw ht =>
    have hr := h.lt_of_mail hl
    have hpop := h.keeps (keeps_pop hr)
    exact (keeps_pop hr).grows_trans
      (Turns.grows hpop hr (h.handled_pop hl) (turns_pop ht))
  | @taskTakes r l hl hw hp =>
    refine grows_of_keeps (keeps_pop (h.lt_of_mail hl)) ?_
    intro t task tablename
    unfold taskEvent
    split <;> simp
  | @judgeSuccess c task res single a hf hc hw s' he hs =>
    obtain ⟨h1, h2, -⟩ := h.supervised hc.child
    have hsound : s.Sound (s.cell c).parent none ⟨.subWorkerActor single (a.forget c),
        (s.cell (s.cell c).parent).children, [.tellDb (a.successRecord task res)], none⟩ :=
      sound_success h hw
    exact stopChild_grows (hsound.grows h2 rfl (by simp)) rfl h1 hs
  | @judgeFailure c task res single a hf hc hw s' he hs =>
    obtain ⟨h1, h2, -⟩ := h.supervised hc.child
    have hb : born (.tellDb (a.failureRecord task res) ::
        (s.cell (s.cell c).parent).children.map fun x =>
          .tell x.ref (.persistAndSuicide task.fullName)) = none := born_tells _ _
    have hsound : s.Sound (s.cell c).parent none ⟨.subWorkerActor single (a.forget c),
        (s.cell (s.cell c).parent).children, .tellDb (a.failureRecord task res) ::
          (s.cell (s.cell c).parent).children.map fun x =>
            .tell x.ref (.persistAndSuicide task.fullName), none⟩ := sound_failure h hw
    exact stopChild_grows (hsound.grows h2 hb (by simp)) (by simp [perform, hb]) h1 hs
  | judgeFails hf hc hx =>
    exact grows_of_keeps (keeps_fail (h.supervised hc.child).2.1 (h.judged hf hc.child hx))
      (by simp)
  | judgeRestarts hf hc hw hx =>
    exact grows_of_keeps (keeps_restart (h.supervised hc.child).1) (by simp)
  | guardian hf => exact grows_of_keeps (keeps_restart h.root.1) (by simp)
  | @stops c hr hc hp s' he hs =>
    exact stopChild_grows (grows_of_keeps (keeps_refl s) (by simp)) rfl (h.supervised hc).1 hs
  | terminates hr hc hd => exact grows_of_keeps (keeps_bury h hc) (by simp)
  | recreate hp hc =>
    exact grows_of_keeps (keeps_recreate (h.lt_of_phase (by simp [hp]))) (by simp)
  | execute => exact grows_of_keeps (keeps_refl s) (by simp)
  | @handshake e hi =>
    refine grows_of_keeps (keeps_refl s) ?_
    intro t task tablename he
    obtain rfl := Option.some.inj he
    exact hi

end Workers

/-! ## The leaves -/

/-- The task actors of the tree are those of the handshake. -/
structure Leaves (s : Workers) (w : World) : Prop where
  leaf : ∀ c, (w.task c).phase ≠ .absent ↔ c < s.next ∧ (s.cell c).worker = .taskActor
  task : ∀ c m, c < s.next → (s.cell c).worker = .taskActor → (s.cell c).origin = some m →
    (w.task c).actor.task = m.task ∧ (w.task c).actor.tablename = m.instanceId

section

variable {legal : String → Bool} {s s' : Workers} {w w' : World} {he : Option Handshake.Event}

theorem Follows.moves (hf : Follows w he w') :
    he = none ∧ w' = w ∨ ∃ e, he = some e ∧ w.Moves e w' := by
  rcases hf with hf | ⟨e, he, hw⟩
  · exact .inl hf
  · exact .inr ⟨e, he, World.step_moves hw⟩

/-- What happens to the life of a task actor that is not created now. -/
theorem Follows.lives (hf : Follows w he w') {t : ℕ}
    (hc : ∀ task tablename, he ≠ some (.create t task tablename)) : World.Lives w w' t := by
  rcases hf.moves with ⟨rfl, rfl⟩ | ⟨e, rfl, hm⟩
  · exact (World.stays_refl w' t).lives
  · refine hm.lives ?_
    intro task tablename he
    exact hc task tablename (he ▸ rfl)

theorem lives_absent {t : ℕ} (h : World.Lives w w' t) :
    (w'.task t).phase ≠ .absent ↔ (w.task t).phase ≠ .absent := by
  rcases h.phase with hp | ⟨hp, x, hp'⟩ | ⟨hp, hp'⟩
  · rw [hp]
  · simp [hp, hp']
  · simp [hp, hp']

/-- A task actor that is not created now stays a leaf. -/
theorem Leaves.keeps (h : Leaves s w) (hf : Follows w he w') {c : ℕ}
    (hc : ∀ task tablename, he ≠ some (.create c task tablename))
    (hp : (s'.cell c).place = (s.cell c).place) (hn : c < s'.next ↔ c < s.next) :
    ((w'.task c).phase ≠ .absent ↔ c < s'.next ∧ (s'.cell c).worker = .taskActor) ∧
      ∀ m, c < s'.next → (s'.cell c).worker = .taskActor → (s'.cell c).origin = some m →
        (w'.task c).actor.task = m.task ∧ (w'.task c).actor.tablename = m.instanceId := by
  have hl := hf.lives hc
  have hw : (s'.cell c).worker = .taskActor ↔ (s.cell c).worker = .taskActor := by
    rw [← kind_taskActor, ← kind_taskActor]
    exact iff_of_eq (congrArg (· = Kind.taskActor) (congrArg Place.kind hp))
  have ho : (s'.cell c).origin = (s.cell c).origin := congrArg Place.origin hp
  refine ⟨?_, ?_⟩
  · rw [lives_absent hl, hn, hw]
    exact h.leaf c
  · intro m hlt hcw hm
    rw [hl.task, hl.tablename]
    exact h.task c m (hn.mp hlt) (hw.mp hcw) (ho ▸ hm)

theorem leaves_of {h : ∀ c, ((w'.task c).phase ≠ .absent ↔
      c < s'.next ∧ (s'.cell c).worker = .taskActor) ∧
    ∀ m, c < s'.next → (s'.cell c).worker = .taskActor → (s'.cell c).origin = some m →
      (w'.task c).actor.task = m.task ∧ (w'.task c).actor.tablename = m.instanceId} :
    Leaves s' w' := ⟨fun c => (h c).1, fun c => (h c).2⟩

/-- Growing together keeps the seam. -/
theorem Leaves.grows (h : Leaves s w) (hg : Grows s s' he) (hf : Follows w he w') :
    Leaves s' w' := by
  apply leaves_of
  intro c
  cases hg with
  | nobody hn hp hc => exact h.keeps hf (hc c) (hp c) (by rw [hn])
  | worker hn hp hk =>
    by_cases hlt : c < s.next
    · exact h.keeps hf (by simp) (hp c hlt) (by omega)
    · -- nothing happens in the handshake
      have hno : ¬ (w'.task c).phase ≠ .absent := by
        rw [lives_absent (hf.lives (by simp)), h.leaf c]
        exact fun hc => hlt hc.1
      have hcw : ¬ (c < s'.next ∧ (s'.cell c).worker = .taskActor) := by
        rintro ⟨h1, h2⟩
        obtain rfl : c = s.next := by omega
        exact hk (kind_taskActor.mpr h2)
      exact ⟨iff_of_false hno hcw, fun m h1 h2 => absurd ⟨h1, h2⟩ hcw⟩
  | @task m hn hp hk ho =>
    by_cases hcn : c = s.next
    · subst hcn
      have hw' : w' = w.updTask s.next fun _ => ⟨.new m.task m.instanceId, .running, [], [], []⟩ := by
        rcases hf.moves with ⟨he, -⟩ | ⟨e, he, hm⟩
        · cases he
        · cases he
          cases hm
          rfl
      have hcell : w'.task s.next = ⟨.new m.task m.instanceId, .running, [], [], []⟩ := by
        rw [hw']
        simp
      rw [hcell]
      refine ⟨iff_of_true (by simp) ⟨by omega, hk⟩, ?_⟩
      intro m' hlt hcw hm'
      rw [ho] at hm'
      cases hm'
      exact ⟨rfl, rfl⟩
    · have hc : ∀ task tablename, some (Handshake.Event.create s.next m.task m.instanceId) ≠
          some (.create c task tablename) := by
        intro task tablename he
        cases he
        exact hcn rfl
      by_cases hlt : c < s.next
      · exact h.keeps hf hc (hp c hlt) (by omega)
      · have hno : ¬ (w'.task c).phase ≠ .absent := by
          rw [lives_absent (hf.lives hc), h.leaf c]
          exact fun hc => hlt hc.1
        have hlt' : ¬ c < s'.next := by omega
        exact ⟨iff_of_false hno fun hc => hlt' hc.1, fun m h1 => absurd h1 hlt'⟩

theorem leaves_init : Leaves System.init.workers System.init.world := by
  constructor
  · intro c
    refine iff_of_false (by simp [System.init, World.init]) ?_
    rintro ⟨hlt, hc⟩
    obtain rfl : c = 0 := Nat.lt_one_iff.mp hlt
    simp [System.init] at hc
  · intro c m hlt hc
    obtain rfl : c = 0 := Nat.lt_one_iff.mp hlt
    simp [System.init] at hc

end

/-! ## Runs -/

/-- What every reachable state of the system is. -/
structure System.WellFormed (s : System) : Prop where
  shape : s.workers.Shape
  leaves : Leaves s.workers s.world

theorem System.WellFormed.step {legal : String → Bool} {s s' : System} {e : Event}
    (h : s.WellFormed) (hs : s.step legal e = some s') : s'.WellFormed := by
  obtain ⟨t, he, hm, hf, ht⟩ := System.step_moves h.shape.root_ne hs
  constructor
  · rw [ht]
    exact (hm.shape h.shape).tick
  · have hl := h.leaves.grows (hm.grows h.shape) hf
    rw [ht]
    exact ⟨hl.leaf, hl.task⟩

theorem wellFormed_run {legal : String → Bool} {ok : List Event → System → Event → Prop}
    {es : List Event} {s : System} (h : (system legal).Run ok es s) : s.WellFormed :=
  h.state_invariant ⟨Workers.shape_init, leaves_init⟩ fun _ _ _ _ h _ hs => h.step hs

/-- The invariant rule for a property of the workers. -/
theorem workers_run {legal : String → Bool} {ok : List Event → System → Event → Prop}
    {I : Workers → Prop} (h0 : I System.init.workers)
    (hstep : ∀ es (s : System) e t he, s.WellFormed → I s.workers → ok es s e →
      Workers.Moves legal s.world s.workers e t he → I t.tick)
    {es : List Event} {s : System} (h : (system legal).Run ok es s) : I s.workers := by
  induction h with
  | start => exact h0
  | step h hok hs ih =>
    have hw := wellFormed_run h
    obtain ⟨t, he, hm, -, ht⟩ := System.step_moves hw.shape.root_ne hs
    rw [ht]
    exact hstep _ _ _ t he hw ih hok hm

/-- In a script: this event. -/
def cue (e : Event) : System → Option Event := fun _ => some e

/-- In a script: `r` takes the first letter from its mailbox. -/
def takesNext (r : ℕ) : System → Option Event :=
  fun s => (s.workers.cell r).mailbox.head?.map (.takes r)

/-- **The world of a run is a state of the handshake**: whatever holds in
every run of the handshake holds here. -/
theorem world_run {legal : String → Bool} {ok : List Event → System → Event → Prop}
    {es : List Event} {s : System} (h : (system legal).Run ok es s) :
    ∃ hes, Handshake.handshake.Run EventSystem.anyStep hes s.world := by
  induction h with
  | start => exact ⟨[], .start⟩
  | @step es s s' e h hok hs ih =>
    obtain ⟨hes, ih⟩ := ih
    obtain ⟨t, he, hm, hf, ht⟩ := System.step_moves (wellFormed_run h).shape.root_ne hs
    rcases hf with ⟨-, hw⟩ | ⟨e', -, hw⟩
    · rw [hw]
      exact ⟨hes, ih⟩
    · exact ⟨_, .step ih trivial hw⟩

end Clustering.Tree
