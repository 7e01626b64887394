/-
Clustering.Tree.Mail — which letters a step adds, and whom it creates.

`Handles` is a worker handling a letter, `Posts` the three ways a letter
gets into a mailbox: a worker handles another one, a decider cancels the
children of its node, a watched child has terminated. `Moves.mail` says
that a step appends only such letters, in mailbox order, and
`Moves.newborn` whom it creates and what for.
-/
import Clustering.Tree.Leaves

namespace Clustering.Tree

open Actors Clustering.Worker
open Clustering.Handshake (World)

/-! ## What a turn says, by message -/

section

variable {legal : String → Bool} {fresh : ℕ} {c : Cell} {msg : WorkerMessage} {t : Turn}

theorem says_pass {d d' : ℕ} {m : AddTask} {m' : WorkerMessage} {x : Worker} {cs : List Child}
    {ws : List WorkerEffect} {y : Option Throwable} (hws : Watches ws)
    (h : Turn.Says ⟨x, cs, .tell d' (.addTask m) :: ws, y⟩ d m') : d = d' ∧ m' = .addTask m := by
  have hno := speaks_watches hws d m'
  simp only [Turn.Says, List.mem_cons, WorkerEffect.tell.injEq, reduceCtorEq, false_or] at h
  rcases h with (h | h) | h
  · exact h
  · exact absurd (.inl h) hno
  · exact absurd (.inr h) hno

/-- An `AddTask` is passed on to the child it belongs to, or to the one
created for it. -/
theorem Turns.says_addTask (h : Turns legal fresh c msg t) {d : ℕ} {m : AddTask}
    (hs : t.Says d (.addTask m)) : msg = .addTask m ∧ ∃ n, c.worker.hop m = some n ∧
      (childNamed c.children (.named n) = some d ∧ t.worker = c.worker ∧
          t.children = c.children ∧ born t.effects = none ∨
        childNamed c.children (.named n) = none ∧ d = fresh ∧ legal n = true ∧
          c.worker.CanEnlist m ∧ t.worker = c.worker.enlist fresh m ∧
          t.children = ⟨.named n, fresh⟩ :: c.children ∧
          born t.effects = some (fresh, .named n, c.worker.hopProps c.name.text m)) := by
  obtain ⟨rfl, -⟩ := Turns.speaks h hs
  refine ⟨rfl, ?_⟩
  cases h with
  | @pass m n d' ws hh hc hws =>
    obtain ⟨rfl, -⟩ := says_pass hws hs
    have hb := born_watches hws
    exact ⟨n, hh, .inl ⟨hc, rfl, rfl, hb⟩⟩
  | @spawn m n ws hh hc hl he hws hw =>
    have hd : Turn.Says ⟨c.worker, [], .tell fresh (.addTask m) :: ws, none⟩ d (.addTask m) := by
      simpa [Turn.Says] using hs
    obtain ⟨rfl, -⟩ := says_pass hws hd
    exact ⟨n, hh, .inr ⟨hc, rfl, hl, he, rfl, rfl, rfl⟩⟩
  | place hw hg hl => simp [Turn.Says] at hs
  | refuse hx hm => simp [Turn.Says] at hs
  | unregistered hw hh hv hc => simp [Turn.Says] at hs
  | ignore hr hm hq ht hp => exact absurd hs (speaks_aside hr d _)

/-- Nobody stops itself at an `AddTask`. -/
theorem Turns.addTask_not_stops {m : AddTask} (h : Turns legal fresh c (.addTask m) t) :
    .stopSelf ∉ t.effects := by
  have hwatch : ∀ {ws : List WorkerEffect}, Watches ws → .stopSelf ∉ ws := by
    intro ws hws hmem
    obtain ⟨x, hx⟩ := hws _ hmem
    cases hx
  cases h with
  | pass hh hc hws => simpa using hwatch hws
  | spawn hh hc hl he hws hw => simpa using hwatch hws
  | place hw hg hl => simp
  | refuse hx hm => simp
  | unregistered hw hh hv hc => simp
  | ignore hr hm hq ht hp => cases hm

/-- A `GetTask` is forwarded as the class of the worker says. -/
theorem Turns.says_getTask (h : Turns legal fresh c msg t) {d : ℕ} {q : GetTask}
    (hs : t.Says d (.getTask q)) : msg = .getTask q ∧ d ∈ c.worker.targets c.children q := by
  obtain ⟨rfl, -⟩ := Turns.speaks h hs
  refine ⟨rfl, ?_⟩
  cases h with
  | @serve q rest hr =>
    have hno := speaks_aside hr d (.getTask q)
    rcases hs with hs | hs
    · rcases List.mem_append.mp hs with hs | hs
      · simp at hs
      · exact absurd (.inl hs) hno
    · rcases List.mem_append.mp hs with hs | hs
      · simpa using hs
      · exact absurd (.inr hs) hno
  | ignore hr hm hq ht hp => exact absurd rfl (hq q)

/-- A cancellation is passed on by a node, to all its children. -/
theorem Turns.says_persistAndSuicide (h : Turns legal fresh c msg t) {d : ℕ} {reason : String}
    (hs : t.Says d (.persistAndSuicide reason)) :
    msg = .persistAndSuicide reason ∧ (∃ single a, c.worker = .subWorkerActor single a) ∧
      d ∈ c.children.map (·.ref) := by
  obtain ⟨rfl, -⟩ := Turns.speaks h hs
  refine ⟨rfl, ?_⟩
  cases h with
  | @cancel reason single a hw =>
    refine ⟨⟨single, a, hw⟩, ?_⟩
    have hs' : ∃ x ∈ c.children, x.ref = d := by simpa [Turn.Says] using hs
    obtain ⟨x, hx, rfl⟩ := hs'
    exact List.mem_map_of_mem hx
  | ignore hr hm hq ht hp => exact absurd hs (speaks_aside hr d _)

/-- Nobody passes on a `Terminated`. -/
theorem Turns.says_terminated (h : Turns legal fresh c msg t) {d u : ℕ} :
    ¬ t.Says d (.terminated u) := by
  intro hs
  obtain ⟨rfl, -⟩ := Turns.speaks h hs
  cases h with
  | mourn hk hr => exact speaks_aside hr d _ hs
  | unknown hw hk => simp [Turn.Says] at hs
  | ignore hr hm hq ht hp => exact ht u rfl

/-- Whom a turn creates, and for which `AddTask`. -/
theorem Turns.born_cases (h : Turns legal fresh c msg t) {f : ℕ} {n : ActorName} {props : Props}
    (hb : born t.effects = some (f, n, props)) : ∃ m, msg = .addTask m ∧
      ((∃ x, n = .named x ∧ c.worker.hop m = some x ∧ childNamed c.children n = none ∧
          props = c.worker.hopProps c.name.text m) ∨
        ∃ single a, c.worker = .subWorkerActor single a ∧ m.group.length ≤ a.group.length ∧
          n = .task m.task.method fresh ∧ props = .taskActor m.task a.tablename) := by
  have hno : ∀ {P : Prop}, born t.effects = none → P := by
    intro P hn
    rw [hn] at hb
    cases hb
  cases h with
  | pass hh hc hws =>
    have hn := born_watches hws
    exact hno hn
  | @spawn m x ws hh hc hl he hws hw =>
    cases hb
    exact ⟨m, rfl, .inl ⟨x, rfl, hh, hc, rfl⟩⟩
  | @place m single a hw hg hl =>
    cases hb
    exact ⟨m, rfl, .inr ⟨single, a, hw, hg, rfl, rfl⟩⟩
  | refuse hx hm => exact hno rfl
  | @unregistered m x a hw hh hv hc =>
    cases hb
    refine ⟨m, rfl, .inl ⟨x, rfl, hh, hc, ?_⟩⟩
    rw [hw]
    rfl
  | serve hr =>
    refine hno ?_
    rw [born_forwards]
    exact born_aside hr
  | mourn hk hr => exact hno (born_aside hr)
  | unknown hw hk => exact hno rfl
  | cancel hw => exact hno (born_tells _ _)
  | ignore hr hm hq ht hp => exact hno (born_aside hr)

end

namespace Workers

/-! ## A worker handles a letter -/

/-- At event `e` worker `r` handles letter `l`, and its code leaves `t`. -/
inductive Handles (legal : String → Bool) (s : Workers) : Event → ℕ → Letter → Turn → Prop
  | input {v : ℕ} {msg : WorkerMessage} {t : Turn} (hp : (s.cell 0).phase = .running)
      (hw : (s.cell 0).worker ≠ .taskActor) (hm : External msg)
      (ht : Turns legal s.next (s.cell 0) msg t) :
      Handles legal s (.input v msg) 0 ⟨⟨v, s.clock, []⟩, msg⟩ t
  | takes {r : ℕ} {l : Letter} {t : Turn} (hp : (s.cell r).phase = .running)
      (hw : (s.cell r).worker ≠ .taskActor) (hl : (s.cell r).mailbox.head? = some l)
      (ht : Turns legal s.next (s.cell r) l.msg t) : Handles legal s (.takes r l) r l t

section

variable {legal : String → Bool} {s : Workers} {e : Event} {r : ℕ} {l : Letter} {t : Turn}

theorem Handles.running (h : Handles legal s e r l t) : (s.cell r).phase = .running := by
  cases h <;> assumption

theorem Handles.worker (h : Handles legal s e r l t) : (s.cell r).worker ≠ .taskActor := by
  cases h <;> assumption

theorem Handles.turns (h : Handles legal s e r l t) :
    Turns legal s.next (s.cell r) l.msg t := by
  cases h <;> assumption

theorem Handles.lt (h : Handles legal s e r l t) (hs : s.Shape) : r < s.next :=
  hs.lt_of_phase (by simp [h.running])

theorem Handles.handled (h : Handles legal s e r l t) (hs : s.Shape) : s.Handled r l.msg := by
  cases h with
  | input hp hw hm ht => exact .inr ⟨rfl, hm⟩
  | takes hp hw hl ht => exact .inl (hs.mail r l (List.mem_of_head? hl))

theorem Handles.sound (h : Handles legal s e r l t) (hs : s.Shape) :
    s.Sound r l.msg.toAddTask t := Turns.sound hs (h.handled hs) h.turns

/-- One event, one letter. -/
theorem Handles.unique {r' : ℕ} {l' : Letter} {t' : Turn} (h : Handles legal s e r l t)
    (h' : Handles legal s e r' l' t') : r = r' ∧ l = l' := by
  cases h <;> cases h' <;> exact ⟨rfl, rfl⟩

/-- The letter was in the mailbox, or comes from outside. -/
theorem Handles.mem (h : Handles legal s e r l t) :
    l ∈ (s.cell r).mailbox ∨ r = 0 ∧ ∃ v, e = .input v l.msg ∧ l.toStamp = ⟨v, s.clock, []⟩ := by
  cases h with
  | input hp hw hm ht => exact .inr ⟨rfl, _, rfl, rfl⟩
  | takes hp hw hl ht => exact .inl (List.mem_of_head? hl)

end

/-- The state in which the code for event `e` runs: the letter is taken,
an input is noted. -/
def before (s : Workers) : Event → Workers
  | .input _ msg => s.note msg
  | .takes r _ => s.pop r
  | _ => s

/-- The mailbox of `c` when a letter is taken at event `e`. -/
def rest (s : Workers) (e : Event) (c : ℕ) : List Letter :=
  match e with
  | .takes r _ => if c = r then (s.cell c).mailbox.tail else (s.cell c).mailbox
  | _ => (s.cell c).mailbox

theorem before_mailbox (s : Workers) (e : Event) (c : ℕ) :
    ((s.before e).cell c).mailbox = s.rest e c := by
  cases e with
  | input v msg =>
    show ((s.note msg).cell c).mailbox = _
    rw [(note_cell msg).1]
    rfl
  | takes r l =>
    by_cases hc : c = r
    · subst hc
      simp [before, rest, pop]
    · simp [before, rest, pop, hc]
  | _ => rfl

theorem before_same (s : Workers) (e : Event) :
    (s.before e).next = s.next ∧ (s.before e).clock = s.clock ∧
      ∀ c, { (s.before e).cell c with mailbox := (s.cell c).mailbox } = s.cell c := by
  cases e with
  | input v msg =>
    have hn := note_cell (s := s) msg
    refine ⟨hn.2.1, hn.2.2, ?_⟩
    intro c
    show { (s.note msg).cell c with mailbox := (s.cell c).mailbox } = _
    rw [hn.1]
  | takes r l =>
    refine ⟨rfl, rfl, ?_⟩
    intro c
    by_cases hc : c = r
    · subst hc
      simp [before, pop]
    · simp [before, pop, hc]
  | _ => exact ⟨rfl, rfl, fun _ => rfl⟩

theorem mem_rest {s : Workers} {e : Event} {c : ℕ} {l : Letter} (h : l ∈ s.rest e c) :
    l ∈ (s.cell c).mailbox := by
  unfold rest at h
  split at h
  · split at h
    · exact List.mem_of_mem_tail h
    · exact h
  · exact h

/-! ## Who posts -/

/-- At event `e` the letter `l` is sent to `c`. -/
inductive Posts (legal : String → Bool) (s : Workers) (e : Event) (c : ℕ) (l : Letter) : Prop
  | handled {r : ℕ} {l₀ : Letter} {t : Turn} (h : Handles legal s e r l₀ t)
      (hl : l.toStamp = { l₀.toStamp with hops := ⟨r, s.clock⟩ :: l₀.hops })
      (ht : t.Says c l.msg)
  | cancels {d : ℕ} {task : Task} {res : Cause} {single : Bool} {a : SubWorkerActor}
      (he : e = .judge d (.testFail task (some res)))
      (hw : (s.cell (s.cell d).parent).worker = .subWorkerActor single a)
      (hd : s.Supervised d)
      (hc : c ∈ (s.cell (s.cell d).parent).children.map (·.ref))
      (hl : l = ⟨⟨0, s.clock, [⟨(s.cell d).parent, s.clock⟩]⟩, .persistAndSuicide task.fullName⟩)
  | buried {d : ℕ} (he : e = .terminates d) (hd : d ≠ 0) (hi : s.IsChild d)
      (hc : c = (s.cell d).parent) (hw : d ∈ (s.cell c).watching)
      (hl : l = ⟨⟨0, s.clock, []⟩, .terminated d⟩)

section

variable {legal : String → Bool} {w : World} {s s' : Workers} {e : Event}
  {he : Option Handshake.Event} {r about : ℕ} {stamp : Stamp} {origin : Option AddTask} {t : Turn}

/-- A turn leaves every mailbox as it is and appends what it sends. -/
theorem perform_mailbox (h : s.Shape) (hr : r < s.next)
    (ht : ∀ f n props, born t.effects = some (f, n, props) → f = s.next) (c : ℕ) :
    ((s.perform r about stamp origin t).cell c).mailbox =
      (s.cell c).mailbox ++ s.sent r stamp t c := by
  by_cases hcr : c = r
  · subst hcr
    rw [perform_self]
  · by_cases hb : ∀ f n props, born t.effects = some (f, n, props) → c ≠ f
    · rw [perform_other hcr hb]
    · push Not at hb
      obtain ⟨f, n, props, hb, rfl⟩ := hb
      rw [perform_born hcr hb, (h.unused c (Nat.le_of_eq (ht c n props hb).symm)).2.1]
      rfl

theorem Turns.born_fresh {m : WorkerMessage} {fresh : ℕ} {c : Cell}
    (h : Turns legal fresh c m t) : ∀ f n props, born t.effects = some (f, n, props) →
      f = fresh := by
  intro f n props hb
  rcases Turns.children h with ⟨hn, -⟩ | ⟨n', props', hn, -⟩
  · rw [hn] at hb
    cases hb
  · rw [hn] at hb
    cases hb
    rfl

theorem sent_watches {ws : List WorkerEffect} (hws : Watches ws) (stamp : Stamp) (c : ℕ) :
    ws.filterMap (letterTo stamp c) = [] := by
  refine List.filterMap_eq_nil_iff.mpr ?_
  intro ef hef
  obtain ⟨x, rfl⟩ := hws ef hef
  rfl

theorem stopChild_mailbox (c d : ℕ) :
    (((s.stopChild c).1).cell d).mailbox = (s.cell d).mailbox := by
  unfold stopChild
  split
  · rfl
  · by_cases hd : d = c
    · subst hd
      simp
    · simp [hd]

theorem stopChild_worker (c d : ℕ) :
    (((s.stopChild c).1).cell d).worker = (s.cell d).worker := by
  unfold stopChild
  split
  · rfl
  · by_cases hd : d = c
    · subst hd
      simp
    · simp [hd]

theorem stopChild_next (c : ℕ) : ((s.stopChild c).1).next = s.next := by
  unfold stopChild
  split <;> rfl

theorem updCell_mailbox {c : ℕ} {f : Cell → Cell} (hf : (f (s.cell c)).mailbox = (s.cell c).mailbox)
    (d : ℕ) : ((s.updCell c f).cell d).mailbox = (s.cell d).mailbox := by
  by_cases hd : d = c
  · subst hd
    simpa using hf
  · simp [hd]

/-- The steps in which a worker handles a letter. -/
theorem Moves.handles (hm : Moves legal w s e s' he) :
    (∃ r l t, Handles legal s e r l t ∧ he = birth t ∧
      s' = (s.before e).perform r r l.toStamp l.msg.toAddTask t) ∨
    ∀ r l t, ¬ Handles legal s e r l t := by
  cases hm with
  | @input v msg t hp hm hw ht => exact .inl ⟨0, _, t, .input hp hw hm ht, rfl, rfl⟩
  | @takes r l t hl hp hw ht => exact .inl ⟨r, l, t, .takes hp hw hl ht, rfl, rfl⟩
  | taskTakes hl hw hp =>
    right
    intro r' l' t hh
    cases hh with
    | takes hp' hw' hl' ht => exact hw' hw
  | _ =>
    right
    intro r' l' t hh
    cases hh

/-- The mailboxes after a worker handled a letter. -/
theorem Handles.mailbox (hh : Handles legal s e r l t) (h : s.Shape) {origin : Option AddTask}
    (c : ℕ) : (((s.before e).perform r r l.toStamp origin t).cell c).mailbox =
      s.rest e c ++ s.sent r l.toStamp t c := by
  obtain ⟨hn, hc, hcell⟩ := before_same s e
  have hborn := Turns.born_fresh hh.turns
  have hsent : (s.before e).sent r l.toStamp t c = s.sent r l.toStamp t c := by
    unfold sent
    rw [hc]
  rw [← before_mailbox, ← hsent]
  by_cases hcr : c = r
  · subst hcr
    rw [perform_self]
  · by_cases hb : ∀ f n props, born t.effects = some (f, n, props) → c ≠ f
    · rw [perform_other hcr hb]
    · push Not at hb
      obtain ⟨f, n, props, hb, rfl⟩ := hb
      have hempty : ((s.before e).cell c).mailbox = [] := by
        rw [before_mailbox]
        refine List.eq_nil_iff_forall_not_mem.mpr ?_
        intro x hx
        have hx := mem_rest hx
        rw [(h.unused c (Nat.le_of_eq (hborn c n props hb).symm)).2.1] at hx
        cases hx
      rw [perform_born hcr hb, hempty]
      rfl

/-- The worker itself after it handled a letter. -/
theorem Handles.cell_self (hh : Handles legal s e r l t) (h : s.Shape)
    {origin : Option AddTask} : ((s.before e).perform r r l.toStamp origin t).cell r =
      { s.acted r t with mailbox := s.rest e r ++ s.sent r l.toStamp t r } := by
  have hmail : (((s.before e).perform r r l.toStamp origin t).cell r).mailbox = _ :=
    hh.mailbox h r
  have hcell := (before_same s e).2.2 r
  rw [perform_self] at hmail ⊢
  rw [← hmail]
  unfold acted
  rw [← hcell]

/-- Another actor. -/
theorem Handles.cell_other (hh : Handles legal s e r l t) (h : s.Shape)
    {origin : Option AddTask} {c : ℕ} (hc : c ≠ r) (hlt : c < s.next) :
    ((s.before e).perform r r l.toStamp origin t).cell c =
      { s.cell c with mailbox := s.rest e c ++ s.sent r l.toStamp t c } := by
  have hb : ∀ f n props, born t.effects = some (f, n, props) → c ≠ f := by
    intro f n props hb
    rw [Turns.born_fresh hh.turns f n props hb]
    exact Nat.ne_of_lt hlt
  have hmail : (((s.before e).perform r r l.toStamp origin t).cell c).mailbox = _ :=
    hh.mailbox h c
  have hcell := (before_same s e).2.2 c
  rw [perform_other hc hb] at hmail ⊢
  rw [← hmail, ← hcell]

/-- The new instance in a step in which no letter is handled: a verdict
or a restart. -/
theorem Moves.worker (hm : Moves legal w s e s' he)
    (hno : ∀ r l t, ¬ Handles legal s e r l t) (c : ℕ) :
    (s'.cell c).worker = (s.cell c).worker ∨
      (∃ d x single a, e = .judge d x ∧ s.Supervised d ∧ (s.cell d).parent = c ∧ x.IsResult ∧
        s.failure w d = some x ∧ (s.cell c).worker = .subWorkerActor single a ∧
        (s'.cell c).worker = .subWorkerActor single (a.forget d)) ∨
      e = .recreate c ∧ (s.cell c).phase = .restarting ∧ (s.cell c).children = [] ∧
        (s'.cell c).worker = (s.cell c).worker.renew := by
  have hupd : ∀ {d : ℕ} {f : Cell → Cell}, (f (s.cell d)).worker = (s.cell d).worker →
      ((s.updCell d f).cell c).worker = (s.cell c).worker := by
    intro d f hf
    by_cases hd : c = d
    · subst hd
      simpa using hf
    · simp [hd]
  cases hm with
  | input hp hm hw ht => exact absurd (.input hp hw hm ht) (hno _ _ _)
  | takes hl hp hw ht => exact absurd (.takes hp hw hl ht) (hno _ _ _)
  | taskTakes hl hw hp => exact .inl (hupd rfl)
  | @judgeSuccess d task res single a hf hc hw s' he hs =>
    rw [Prod.eq_iff_fst_eq_snd_eq] at hs
    obtain ⟨rfl, -⟩ := hs
    by_cases hcd : c = (s.cell d).parent
    · subst hcd
      refine .inr (.inl ⟨d, _, single, a, rfl, hc, rfl, trivial, hf, hw, ?_⟩)
      rw [stopChild_worker, perform_self]
      rfl
    · left
      rw [stopChild_worker, perform_other hcd (by simp [born])]
  | @judgeFailure d task res single a hf hc hw s' he hs =>
    rw [Prod.eq_iff_fst_eq_snd_eq] at hs
    obtain ⟨rfl, -⟩ := hs
    have hb : born (.tellDb (a.failureRecord task res) ::
        (s.cell (s.cell d).parent).children.map fun x =>
          .tell x.ref (.persistAndSuicide task.fullName)) = none := born_tells _ _
    by_cases hcd : c = (s.cell d).parent
    · subst hcd
      refine .inr (.inl ⟨d, _, single, a, rfl, hc, rfl, trivial, hf, hw, ?_⟩)
      rw [stopChild_worker, perform_self]
      rfl
    · left
      rw [stopChild_worker, perform_other hcd (by simp [hb])]
  | judgeFails hf hc hx => exact .inl (hupd rfl)
  | judgeRestarts hf hc hw hx => exact .inl (hupd rfl)
  | guardian hf => exact .inl (hupd rfl)
  | @stops d hr hc hp s' he hs =>
    rw [Prod.eq_iff_fst_eq_snd_eq] at hs
    obtain ⟨rfl, -⟩ := hs
    exact .inl (stopChild_worker d c)
  | terminates hr hc hd => exact .inl (hupd rfl)
  | @recreate r hp hc =>
    by_cases hcr : c = r
    · subst hcr
      exact .inr (.inr ⟨rfl, hp, hc, by simp⟩)
    · left
      simp [hcr]
  | execute => exact .inl rfl
  | handshake hi => exact .inl rfl

/-- Only task actors fail with a result. -/
theorem Shape.leaf_of_result (h : s.Shape) {c : ℕ} {x : Throwable}
    (hf : s.failure w c = some x) (hx : x.IsResult) : (s.cell c).worker = .taskActor := by
  by_contra hw
  exact h.failure hf (fun hk => hw (kind_taskActor.mp hk)) hx

/-- The ways the life of worker `c` goes on at event `e`. -/
inductive Changes (legal : String → Bool) (w : World) (s : Workers) (e : Event) (c : ℕ) :
    Phase → Prop
  | fails {l : Letter} {t : Turn} {x : Throwable} (h : Handles legal s e c l t)
      (hx : t.raised = some x) : Changes legal w s e c (.failed x)
  | stopsSelf {l : Letter} {t : Turn} (h : Handles legal s e c l t) (hx : t.raised = none)
      (ht : .stopSelf ∈ t.effects) : Changes legal w s e c .stopped
  | childFails {d : ℕ} {x x' : Throwable} (he : e = .judge d x) (hf : s.failure w d = some x)
      (hd : s.Supervised d) (hp : (s.cell d).parent = c) (hx : ¬ x'.IsResult) :
      Changes legal w s e c (.failed x')
  | restarts {x : Throwable} (he : e = .judge c x) (hf : s.failure w c = some x)
      (hx : c ≠ 0 → ¬ x.IsResult) : Changes legal w s e c .restarting
  | stops (he : e = .stops c) (hi : s.IsChild c)
      (hp : (s.cell (s.cell c).parent).phase = .restarting ∨
        (s.cell (s.cell c).parent).phase = .stopped) : Changes legal w s e c .stopped
  | recreates (he : e = .recreate c) (hp : (s.cell c).phase = .restarting)
      (hc : (s.cell c).children = []) : Changes legal w s e c .running

/-- **What becomes of a worker in a step.** -/
theorem Moves.phase (h : s.Shape) (hm : Moves legal w s e s' he) {c : ℕ} (hc : c < s.next) :
    (s'.cell c).phase = (s.cell c).phase ∨ Changes legal w s e c (s'.cell c).phase := by
  have hupd : ∀ {d : ℕ} {f : Cell → Cell}, (f (s.cell d)).phase = (s.cell d).phase →
      ((s.updCell d f).cell c).phase = (s.cell c).phase := by
    intro d f hf
    by_cases hd : c = d
    · subst hd
      simpa using hf
    · simp [hd]
  rcases hm.handles with ⟨r, l, t, hh, -, hs'⟩ | hno
  · by_cases hcr : c = r
    · subst hcr
      rw [hs', hh.cell_self h]
      dsimp only [acted]
      cases hx : t.raised with
      | some x => exact .inr (.fails hh hx)
      | none =>
        by_cases ht : .stopSelf ∈ t.effects
        · simp only [ht, if_true]
          exact .inr (.stopsSelf hh hx ht)
        · simp [ht]
    · left
      rw [hs', hh.cell_other h hcr hc]
  · -- a task actor that reported a result is stopped in the handshake
    have hverdict : ∀ {d x r t}, s.failure w d = some x → x.IsResult → s.Supervised d →
        r = (s.cell d).parent → t.raised = none → .stopSelf ∉ t.effects → born t.effects = none →
        ((((s.perform r d ⟨0, s.clock, []⟩ none t).stopChild d).1).cell c).phase =
          (s.cell c).phase := by
      intro d x r t hf hx hd hr ht hst hb
      have hleaf := h.leaf_of_result hf hx
      have hw : ((s.perform r d ⟨0, s.clock, []⟩ none t).cell d).worker = .taskActor := by
        have hdr : d ≠ r := by
          have hlt := (h.fits d hd.root (h.supervised hd.child).1).1
          omega
        rw [perform_other hdr (by simp [hb])]
        exact hleaf
      have hstop : ((s.perform r d ⟨0, s.clock, []⟩ none t).stopChild d).1 =
          s.perform r d ⟨0, s.clock, []⟩ none t := by
        unfold stopChild
        rw [hw]
      rw [hstop]
      by_cases hcr : c = r
      · subst hcr
        rw [perform_self]
        simp [acted, ht, hst]
      · rw [perform_other hcr (by simp [hb])]
    cases hm with
    | input hp hm hw ht => exact absurd (.input hp hw hm ht) (hno _ _ _)
    | takes hl hp hw ht => exact absurd (.takes hp hw hl ht) (hno _ _ _)
    | taskTakes hl hw hp => exact .inl (hupd rfl)
    | @judgeSuccess d task res single a hf hc hw s' he hs =>
      rw [Prod.eq_iff_fst_eq_snd_eq] at hs
      obtain ⟨rfl, -⟩ := hs
      exact .inl (hverdict hf trivial hc rfl rfl (by simp) rfl)
    | @judgeFailure d task res single a hf hc hw s' he hs =>
      rw [Prod.eq_iff_fst_eq_snd_eq] at hs
      obtain ⟨rfl, -⟩ := hs
      exact .inl (hverdict hf trivial hc rfl rfl (by simp) (born_tells _ _))
    | @judgeFails d x x' hf hd hx =>
      by_cases hcp : c = (s.cell d).parent
      · subst hcp
        right
        have hphase : ((s.fail (s.cell d).parent x').cell (s.cell d).parent).phase = .failed x' := by
          simp [fail]
        rw [hphase]
        exact .childFails rfl hf hd rfl (h.judged hf hd.child hx)
      · left
        simp [fail, hcp]
    | @judgeRestarts d x hf hd hw hx =>
      by_cases hcd : c = d
      · subst hcd
        right
        have hphase : ((s.restart c).cell c).phase = .restarting := by simp [restart]
        rw [hphase]
        exact .restarts rfl hf fun _ => hx
      · left
        simp [restart, hcd]
    | @guardian x hf =>
      by_cases hc0 : c = 0
      · subst hc0
        right
        have hphase : ((s.restart 0).cell 0).phase = .restarting := by simp [restart]
        rw [hphase]
        exact .restarts rfl hf fun h0 => absurd rfl h0
      · left
        simp [restart, hc0]
    | @stops d hr hi hp s' he hs =>
      rw [Prod.eq_iff_fst_eq_snd_eq] at hs
      obtain ⟨rfl, -⟩ := hs
      by_cases hw : (s.cell d).worker = .taskActor
      · left
        have hstop : (s.stopChild d).1 = s := by
          unfold stopChild
          rw [hw]
        rw [hstop]
      · have hstop : (s.stopChild d).1 = s.updCell d fun x => { x with phase := .stopped } := by
          unfold stopChild
          split
          · rename_i hw'
            exact absurd hw' hw
          · rfl
        rw [hstop]
        by_cases hcd : c = d
        · subst hcd
          right
          have hphase : ((s.updCell c fun x => { x with phase := .stopped }).cell c).phase =
              .stopped := by simp
          rw [hphase]
          exact .stops rfl hi hp
        · left
          simp [hcd]
    | terminates hr hi hd => exact .inl (hupd rfl)
    | @recreate r hp hch =>
      by_cases hcr : c = r
      · subst hcr
        right
        have hphase : ((s.updCell c fun c => { c with
            worker := c.worker.renew, phase := .running }).cell c).phase = .running := by simp
        rw [hphase]
        exact .recreates rfl hp hch
      · left
        simp [hcr]
    | execute => exact .inl rfl
    | handshake hi => exact .inl rfl

/-- A worker stops itself when it has no children left, at a `GetTask` or
a `Terminated`. -/
theorem Handles.stopsSelf (hh : Handles legal s e r l t) (h : s.Shape)
    (hk : (s.cell r).worker.kind ≠ .instanceActor) (ht : .stopSelf ∈ t.effects) :
    (s.cell r).children = [] ∧ ((∃ q, l.msg = .getTask q) ∨ ∃ u, l.msg = .terminated u) := by
  have hproper := h.handled_proper (hh.handled h) hk
  have haside : ∀ {rest : List WorkerEffect}, Aside (s.cell r).children rest →
      .stopSelf ∈ rest → (s.cell r).children = [] := by
    intro rest hr hmem
    rcases hr with ⟨ls, rfl⟩ | ⟨rfl, hc⟩ | ⟨a, rfl⟩
    · simp at hmem
    · exact hc
    · simp at hmem
  obtain ⟨st, msg⟩ := l
  have hadd : ∀ m, msg ≠ .addTask m := by
    rintro m rfl
    exact Turns.addTask_not_stops hh.turns ht
  cases hh.turns with
  | pass hn hc hws => exact absurd rfl (hadd _)
  | spawn hn hc hl he hws hw => exact absurd rfl (hadd _)
  | place hw hg hl => exact absurd rfl (hadd _)
  | refuse hx hm => exact absurd rfl (hadd _)
  | unregistered hw hn hv hc => exact absurd rfl (hadd _)
  | @serve q rest hr =>
    refine ⟨haside hr ?_, .inl ⟨q, rfl⟩⟩
    rcases List.mem_append.mp ht with ht | ht
    · simp at ht
    · exact ht
  | @mourn u rest hkn hr => exact ⟨haside hr ht, .inr ⟨u, rfl⟩⟩
  | unknown hw hkn => cases ht
  | cancel hw => simp at ht
  | ignore hr hm hq hu hp =>
    -- no such message reaches a worker below the `InstanceActor`
    exfalso
    cases msg with
    | addTask m => cases hm
    | getTask q => exact hq q rfl
    | terminated u => exact hu u rfl
    | persistAndSuicide reason =>
      rcases hproper with hk | ⟨single, g, tn, hk⟩
      · exact hh.worker (kind_taskActor.mp hk)
      · cases hw : (s.cell r).worker with
        | subWorkerActor single a => exact hp reason rfl single a hw
        | _ => simp [Cell.place, hw, Worker.kind] at hk
    | _ => exact hproper

/-- **What a step adds to a mailbox.** -/
theorem Moves.mail (h : s.Shape) (hm : Moves legal w s e s' he) (c : ℕ) :
    ∃ ls, (s'.cell c).mailbox = s.rest e c ++ ls ∧ ∀ l ∈ ls, Posts legal s e c l := by
  have hturn : ∀ {r l t}, Handles legal s e r l t →
      ∃ ls, (((s.before e).perform r r l.toStamp l.msg.toAddTask t).cell c).mailbox =
        s.rest e c ++ ls ∧ ∀ l ∈ ls, Posts legal s e c l := by
    intro r l t hh
    refine ⟨_, hh.mailbox h c, ?_⟩
    intro l' hl'
    obtain ⟨h1, h2⟩ := mem_sent.mp hl'
    exact .handled hh h1 h2
  -- nothing is added
  have hsame : (s'.cell c).mailbox = s.rest e c →
      ∃ ls, (s'.cell c).mailbox = s.rest e c ++ ls ∧ ∀ l ∈ ls, Posts legal s e c l :=
    fun hc => ⟨[], by simpa using hc, by simp⟩
  cases hm with
  | @input v msg t hp hm hw ht => exact hturn (.input hp hw hm ht)
  | @takes r l t hl hp hw ht => exact hturn (.takes hp hw hl ht)
  | @taskTakes r l hl hw hp => exact hsame (before_mailbox s (.takes r l) c)
  | @judgeSuccess d task res single a hf hc hw s' he hs =>
    obtain ⟨h1, h2, -⟩ := h.supervised hc.child
    rw [Prod.eq_iff_fst_eq_snd_eq] at hs
    obtain ⟨rfl, -⟩ := hs
    apply hsame
    rw [stopChild_mailbox, perform_mailbox h h2 (by simp [born])]
    simp [sent, letterTo, rest]
  | @judgeFailure d task res single a hf hc hw s' he hs =>
    obtain ⟨h1, h2, -⟩ := h.supervised hc.child
    rw [Prod.eq_iff_fst_eq_snd_eq] at hs
    obtain ⟨rfl, -⟩ := hs
    have hb : born (.tellDb (a.failureRecord task res) ::
        (s.cell (s.cell d).parent).children.map fun x =>
          .tell x.ref (.persistAndSuicide task.fullName)) = none := born_tells _ _
    rw [stopChild_mailbox, perform_mailbox h h2 (by simp [hb])]
    refine ⟨_, rfl, ?_⟩
    intro l hl
    obtain ⟨hst, hsay⟩ := mem_sent.mp hl
    have hsay' : ∃ x ∈ (s.cell (s.cell d).parent).children, x.ref = c ∧
        .persistAndSuicide task.fullName = l.msg := by
      simpa [Turn.Says] using hsay
    obtain ⟨x, hx, rfl, hmsg⟩ := hsay'
    refine .cancels rfl hw hc (List.mem_map_of_mem hx) ?_
    obtain ⟨st, m⟩ := l
    obtain rfl : st = _ := hst
    obtain rfl : _ = m := hmsg
    rfl
  | judgeFails hf hc hx => exact hsame (updCell_mailbox rfl c)
  | judgeRestarts hf hc hw hx => exact hsame (updCell_mailbox rfl c)
  | guardian hf => exact hsame (updCell_mailbox rfl c)
  | @stops d hr hc hp s' he hs =>
    rw [Prod.eq_iff_fst_eq_snd_eq] at hs
    obtain ⟨rfl, -⟩ := hs
    exact hsame (stopChild_mailbox d c)
  | @terminates d hr hc hd =>
    by_cases hcp : c = (s.cell d).parent
    · by_cases hw : d ∈ (s.cell c).watching
      · refine ⟨[⟨⟨0, s.clock, []⟩, .terminated d⟩], ?_, ?_⟩
        · subst hcp
          simp [bury, rest, hw]
        · intro l hl
          obtain rfl := List.mem_singleton.mp hl
          exact .buried rfl hr hc hcp hw rfl
      · apply hsame
        subst hcp
        simp [bury, rest, hw]
    · apply hsame
      simp [bury, rest, hcp]
  | recreate hp hc => exact hsame (updCell_mailbox rfl c)
  | execute => exact hsame rfl
  | handshake hi => exact hsame rfl

/-- A letter in a mailbox was there or is posted now. -/
theorem Moves.mem_mailbox (h : s.Shape) (hm : Moves legal w s e s' he) {c : ℕ} {l : Letter}
    (hl : l ∈ (s'.cell c).mailbox) : l ∈ (s.cell c).mailbox ∨ Posts legal s e c l := by
  obtain ⟨ls, heq, hp⟩ := hm.mail h c
  rw [heq] at hl
  rcases List.mem_append.mp hl with hl | hl
  · exact .inl (mem_rest hl)
  · exact .inr (hp l hl)

/-- **Whom a step creates.** -/
theorem Moves.newborn (h : s.Shape) (hm : Moves legal w s e s' he) (hn : s'.next = s.next + 1) :
    ∃ r l t n props, Handles legal s e r l t ∧ he = birth t ∧
      born t.effects = some (s.next, n, props) ∧
      s'.cell s.next = ⟨.new props, n, r, l.msg.toAddTask, [], [], s.sent r l.toStamp t s.next,
        .running⟩ := by
  rcases hm.handles with ⟨r, l, t, hh, hbi, hs'⟩ | hno
  · have hborn : ∃ n props, born t.effects = some (s.next, n, props) := by
      rcases Turns.children hh.turns with ⟨hb, -⟩ | ⟨n, props, hb, -⟩
      · rw [hs'] at hn
        simp [perform, hb, (before_same s e).1] at hn
      · exact ⟨n, props, hb⟩
    obtain ⟨n, props, hb⟩ := hborn
    refine ⟨r, l, t, n, props, hh, hbi, hb, ?_⟩
    have hsent : (s.before e).sent r l.toStamp t s.next = s.sent r l.toStamp t s.next := by
      unfold sent
      rw [(before_same s e).2.1]
    rw [hs', perform_born (Nat.ne_of_gt (hh.lt h)) hb, hsent]
  · exfalso
    have hnext : s'.next = s.next := by
      cases hm with
      | @input v msg t hp hm hw ht => exact absurd (.input hp hw hm ht) (hno _ _ _)
      | @takes r l t hl hp hw ht => exact absurd (.takes hp hw hl ht) (hno _ _ _)
      | taskTakes hl hw hp => rfl
      | judgeSuccess hf hc hw hs =>
        rw [Prod.eq_iff_fst_eq_snd_eq] at hs
        obtain ⟨rfl, -⟩ := hs
        rw [stopChild_next]
        simp [perform, born]
      | @judgeFailure d task res single a hf hc hw s' he hs =>
        rw [Prod.eq_iff_fst_eq_snd_eq] at hs
        obtain ⟨rfl, -⟩ := hs
        have hb : born (.tellDb (a.failureRecord task res) ::
            (s.cell (s.cell d).parent).children.map fun x =>
              .tell x.ref (.persistAndSuicide task.fullName)) = none := born_tells _ _
        rw [stopChild_next]
        simp [perform, hb]
      | stops hr hc hp hs =>
        rw [Prod.eq_iff_fst_eq_snd_eq] at hs
        obtain ⟨rfl, -⟩ := hs
        rw [stopChild_next]
      | _ => rfl
    omega

end

end Workers

end Clustering.Tree
