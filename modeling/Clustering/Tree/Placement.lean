/-
Clustering.Tree.Placement — what becomes of an `AddTask`.

An `AddTask` is one letter until it is placed. `Arrives` says of its
number that there is one copy of it, waiting at a worker that is not
stopped, or one task actor. Four things lose it: a worker that cannot
create the next child, a next child that is stopped already, a worker
that stops itself and one that its parent stops with the letter still in
its mailbox. `LosesNoTask` rules these out, and `addTask_arrives` is the
invariant of all runs under it. `lateRun` is a task that comes when the
last task of its node is done.
-/
import Clustering.Tree.Provenance
import Clustering.Tree.Versions
import Clustering.Handshake.Attempts

namespace Clustering.Tree

open Actors Clustering.Worker
open Clustering.Handshake (World)

/-! ## Copies -/

/-- The letter carries the `AddTask` number `n`. -/
def Carries (n : ℕ) (l : Letter) : Bool := l.number = n && l.msg.toAddTask.isSome

/-- No letter carries an `AddTask`. -/
def NoAddTask (ls : List Letter) : Prop := ∀ l ∈ ls, l.msg.toAddTask = none

instance : DecidablePred NoAddTask := fun ls => by
  unfold NoAddTask
  infer_instance

theorem carries_eq_true {n : ℕ} {l : Letter} :
    Carries n l = true ↔ l.number = n ∧ ∃ m, l.msg = .addTask m := by
  unfold Carries
  cases l.msg <;> simp [WorkerMessage.toAddTask]

theorem countP_noAddTask {ls : List Letter} (h : NoAddTask ls) (n : ℕ) :
    ls.countP (Carries n) = 0 := by
  refine List.countP_eq_zero.mpr ?_
  intro l hl hc
  obtain ⟨-, m, hm⟩ := carries_eq_true.mp hc
  have hn := h l hl
  rw [hm] at hn
  cases hn

namespace Workers

variable {legal : String → Bool} {w : World} {s s' : Workers} {e : Event}
  {he : Option Handshake.Event} {n : ℕ}

/-- The copies of `AddTask` number `n` in the mailbox of `c`. -/
def copies (s : Workers) (n c : ℕ) : ℕ := (s.cell c).mailbox.countP (Carries n)

/-- The only copy of number `n` waits at `c`, which will handle it. -/
structure Waits (s : Workers) (n c : ℕ) : Prop where
  here : s.copies n c = 1
  elsewhere : ∀ d, d ≠ c → s.copies n d = 0
  alive : (s.cell c).phase ≠ .stopped
  unplaced : ∀ p ∈ s.placed, p.1 ≠ n

/-- Number `n` has become the task actor `c`, and no other. -/
structure Placed (s : Workers) (n c : ℕ) : Prop where
  copies : ∀ d, s.copies n d = 0
  once : s.placed.filter (·.1 = n) = [(n, c)]

/-- Number `n` is on its way, or it has arrived. -/
def Arrives (s : Workers) (n : ℕ) : Prop := (∃ c, s.Waits n c) ∨ ∃ c, s.Placed n c

/-- The worker `r` can pass the `AddTask` on or place it. -/
def Passable (s : Workers) (legal : String → Bool) (r : ℕ) (m : AddTask) : Prop :=
  match (s.cell r).worker.hop m with
  | some n =>
      match childNamed (s.cell r).children (.named n) with
      | some d => (s.cell d).phase ≠ .stopped
      | none => legal n = true ∧ (s.cell r).worker.CanEnlist m
  | none => m.group ≠ [] ∧ legal (ActorName.task m.task.method s.next).text = true

end Workers

instance (m : AddTask) : DecidablePred (Worker.CanEnlist m) := fun x => by
  cases x <;> simp only [Worker.CanEnlist] <;> infer_instance

instance (s : Workers) (legal : String → Bool) (r : ℕ) : DecidablePred (s.Passable legal r) :=
  fun m => by
    unfold Workers.Passable
    split
    · split <;> infer_instance
    · infer_instance

/-- No `AddTask` is lost: who handles one can pass it on, and nobody stops
who has one in the mailbox. A worker without children stops itself at a
`GetTask` and at a `Terminated`. -/
def LosesNoTask (legal : String → Bool) (s : System) : Event → Prop
  | .input _ (.addTask m) => s.workers.Passable legal 0 m
  | .takes r ⟨_, .addTask m⟩ => s.workers.Passable legal r m
  | .takes r ⟨_, .getTask _⟩ | .takes r ⟨_, .terminated _⟩ =>
      (s.workers.cell r).children = [] → NoAddTask (s.workers.cell r).mailbox.tail
  | .stops c => NoAddTask (s.workers.cell c).mailbox
  | _ => True

instance (legal : String → Bool) (s : System) : DecidablePred (LosesNoTask legal s) := fun e => by
  induction e using Event.casesOn with
  | input sender m =>
    induction m using WorkerMessage.casesOn <;> delta LosesNoTask <;> dsimp only <;> infer_instance
  | takes r l =>
    induction l using Letter.casesOn with
    | mk sender m =>
      induction m using WorkerMessage.casesOn <;> delta LosesNoTask <;> dsimp only <;>
        infer_instance
  | _ => delta LosesNoTask; dsimp only; infer_instance

namespace Workers

variable {legal : String → Bool} {w : World} {s s' : Workers} {e : Event}
  {he : Option Handshake.Event} {n : ℕ}

/-! ## Steps that leave the copies alone -/

/-- The copies stay where they are, and nobody stops with one. -/
structure Still (s s' : Workers) (n : ℕ) : Prop where
  copies : ∀ c, s'.copies n c = s.copies n c
  placed : s'.placed.filter (·.1 = n) = s.placed.filter (·.1 = n)
  stopped : ∀ c, (s'.cell c).phase = .stopped →
    (s.cell c).phase = .stopped ∨ s.copies n c = 0

theorem placed_ne {l : List (ℕ × ℕ)} : (∀ p ∈ l, p.1 ≠ n) ↔ l.filter (·.1 = n) = [] := by
  simp [List.filter_eq_nil_iff]

theorem Arrives.still (h : s.Arrives n) (hs : Still s s' n) : s'.Arrives n := by
  rcases h with ⟨c, hc⟩ | ⟨c, hc⟩
  · refine .inl ⟨c, ?_, ?_, ?_, ?_⟩
    · rw [hs.copies, hc.here]
    · intro d hd
      rw [hs.copies, hc.elsewhere d hd]
    · intro hp
      rcases hs.stopped c hp with hp | hp
      · exact hc.alive hp
      · rw [hc.here] at hp
        cases hp
    · rw [placed_ne, hs.placed]
      exact placed_ne.mp hc.unplaced
  · refine .inr ⟨c, ?_, ?_⟩
    · intro d
      rw [hs.copies, hc.copies d]
    · rw [hs.placed, hc.once]

/-- The copies in what is left of a mailbox when another letter is
taken. -/
theorem countP_rest (hm : Moves legal w s e s' he)
    (hl : ∀ r l, e = .takes r l → Carries n l = false) (c : ℕ) :
    (s.rest e c).countP (Carries n) = s.copies n c := by
  have hhead : ∀ {r l}, e = .takes r l → (s.cell r).mailbox.head? = some l := by
    intro r l he
    subst he
    cases hm <;> assumption
  unfold rest
  split
  · rename_i r l
    split
    · rename_i hc
      subst hc
      obtain ⟨ls, hls⟩ := List.head?_eq_some_iff.mp (hhead rfl)
      simp [copies, hls, hl c l rfl]
    · rfl
  · rfl

/-- No `AddTask` is on its way to the `InstanceActor`. -/
theorem Shape.copies_root (h : s.Shape) {c : ℕ} (hk : (s.cell c).worker.kind = .instanceActor)
    (n : ℕ) : s.copies n c = 0 := by
  refine countP_noAddTask ?_ n
  intro l hl
  have hproper := h.mail c l hl
  have hk' : (s.cell c).place.kind = .instanceActor := hk
  cases hmsg : l.msg with
  | addTask m =>
    rw [hmsg] at hproper
    simp [Proper, hk'] at hproper
  | _ => rfl

/-- A task actor is named by its own number. -/
theorem Shape.no_task_child (h : s.Shape) (r : ℕ) (method : String) :
    childNamed (s.cell r).children (.task method s.next) = none := by
  by_contra hne
  obtain ⟨d, hd⟩ := Option.ne_none_iff_exists'.mp hne
  obtain ⟨hlt, hname, m, -, hf⟩ := h.below (childNamed_some hd)
  have hname' : (s.cell d).place.name = .task method s.next := hname
  cases hp : (s.cell r).place.kind <;> cases hc : (s.cell d).place.kind <;>
    simp only [hp, hc] at hf
  · rw [hname'] at hf
    cases hf
  · obtain ⟨-, -, -, x, -, hx⟩ := hf
    rw [hname'] at hx
    cases hx
  · obtain ⟨-, -, -, x, -, hx⟩ := hf
    rw [hname'] at hx
    cases hx
  · obtain ⟨-, -, method', hx⟩ := hf
    rw [hname'] at hx
    cases hx
    exact Nat.lt_irrefl _ hlt

/-- Who handles an `AddTask` can pass it on or place it. -/
theorem passable_of {r : ℕ} {l : Letter} {t : Turn} {m : AddTask}
    (hok : LosesNoTask legal ⟨s, w⟩ e) (hh : Handles legal s e r l t)
    (hmsg : l.msg = .addTask m) : s.Passable legal r m := by
  cases hh with
  | input hp hw hm ht =>
    change _ = WorkerMessage.addTask m at hmsg
    subst hmsg
    exact hok
  | takes hp hw hl ht =>
    obtain ⟨st, msg⟩ := l
    change msg = WorkerMessage.addTask m at hmsg
    subst hmsg
    exact hok

/-- What a step that handles no `AddTask` leaves still. -/
theorem still_of_quiet (h : s.Shape) (hok : LosesNoTask legal ⟨s, w⟩ e)
    (hm : Moves legal w s e s' he)
    (hno : ∀ r l t, Handles legal s e r l t → l.msg.toAddTask = none) : Still s s' n := by
  have htaken : ∀ r l, e = .takes r l → Carries n l = false := by
    intro r l he
    subst he
    by_contra hc
    obtain ⟨-, m, hmsg⟩ := carries_eq_true.mp (Bool.of_not_eq_false hc)
    have hl : l ∈ (s.cell r).mailbox := by
      cases hm <;> exact List.mem_of_head? ‹_›
    by_cases hw : (s.cell r).worker = .taskActor
    · have hp := h.mail r l hl
      have hk : (s.cell r).place.kind = .taskActor := kind_taskActor.mpr hw
      rw [hmsg] at hp
      simp [Proper, hk] at hp
    · cases hm with
      | takes hhd hp hw ht =>
        have hn := hno _ _ _ (.takes hp hw hhd ht)
        rw [hmsg] at hn
        cases hn
      | taskTakes hhd hw' hp => exact hw hw'
  refine ⟨?_, ?_, ?_⟩
  · intro c
    obtain ⟨ls, hls, hposts⟩ := hm.mail h c
    have hquiet : NoAddTask ls := by
      intro l hl
      cases hposts l hl with
      | @handled r l₀ t hh hst hsay =>
        obtain ⟨hmsg, -⟩ := Turns.speaks hh.turns hsay
        rw [hmsg]
        exact hno _ _ _ hh
      | cancels he hw hd hc hl => rw [hl]; rfl
      | buried he hd hi hc hw hl => rw [hl]; rfl
    have hcount : s'.copies n c = (s.rest e c).countP (Carries n) + 0 := by
      unfold copies
      rw [hls, List.countP_append, countP_noAddTask hquiet]
    rw [hcount, countP_rest hm htaken, Nat.add_zero]
  · rcases hm.placed h with ⟨heq, -⟩ | ⟨r, l, t, m, hh, hmsg, -⟩
    · rw [heq]
    · have hn := hno _ _ _ hh
      rw [hmsg] at hn
      cases hn
  · intro c hp
    have hc : c < s.next := by
      have hc' := (hm.shape h).lt_of_phase (c := c) (by simp [hp])
      rcases (hm.grows h).lt_or_eq hc' with hlt | ⟨rfl, hn⟩
      · exact hlt
      · obtain ⟨r, l, t, m, props, -, -, -, hcell⟩ := hm.newborn h hn
        rw [hcell] at hp
        cases hp
    rcases hm.phase h hc with hsame | hch
    · exact .inl (hsame ▸ hp)
    · rw [hp] at hch
      right
      cases hch with
      | @stopsSelf l t hh hx ht =>
        by_cases hk : (s.cell c).worker.kind = .instanceActor
        · exact h.copies_root hk n
        · obtain ⟨hch, hmsg⟩ := hh.stopsSelf h hk ht
          cases hh with
          | input hp hw hm ht => exact absurd h.root.2 hk
          | takes hp hw hl htu =>
            have htail : NoAddTask (s.cell c).mailbox.tail := by
              obtain ⟨st, msg⟩ := l
              rcases hmsg with ⟨q, rfl⟩ | ⟨u, rfl⟩
              · exact hok hch
              · exact hok hch
            obtain ⟨ls, hls⟩ := List.head?_eq_some_iff.mp hl
            refine countP_noAddTask ?_ n
            rw [hls] at htail ⊢
            intro x hx
            rcases List.mem_cons.mp hx with rfl | hx
            · rcases hmsg with ⟨q, hq⟩ | ⟨u, hu⟩
              · rw [hq]; rfl
              · rw [hu]; rfl
            · exact htail x hx
      | stops he hi hp =>
        subst he
        exact countP_noAddTask hok n

/-! ## The step of one `AddTask` -/

/-- The copies a turn sends of an `AddTask` it passes on to `d`. -/
theorem copies_passed {l : Letter} {m : AddTask} {r d : ℕ} {t : Turn}
    (pre ws : List WorkerEffect) (hes : t.effects = pre ++ .tell d (.addTask m) :: ws)
    (hws : Watches ws) (hpre : ∀ stamp c, pre.filterMap (letterTo stamp c) = []) (c : ℕ) :
    (s.sent r l.toStamp t c).countP (Carries l.number) = if c = d then 1 else 0 := by
  unfold sent
  rw [hes, List.filterMap_append, hpre, List.nil_append, List.filterMap_cons]
  by_cases hc : c = d
  · subst hc
    simp [letterTo, sent_watches hws, Carries, WorkerMessage.toAddTask]
  · simp [letterTo, sent_watches hws, hc, Ne.symm hc]

/-- A worker has the copy in hand: it is in no mailbox, and not placed. -/
structure InHand (s : Workers) (e : Event) (n : ℕ) : Prop where
  copies : ∀ c, (s.rest e c).countP (Carries n) = 0
  unplaced : ∀ p ∈ s.placed, p.1 ≠ n

/-- Before it is passed on, the worker has it in hand. -/
theorem inHand (hk : s.Known) (h : ∀ n m, (n, m) ∈ s.added → s.Arrives n) {r : ℕ} {l : Letter}
    {t : Turn} {m : AddTask} (hh : Handles legal s e r l t) (hmsg : l.msg = .addTask m) :
    InHand s e l.number := by
  have hc : Carries l.number l = true := carries_eq_true.mpr ⟨rfl, m, hmsg⟩
  cases hh with
  | @input v msg t hp hw hext ht =>
    -- a new number
    have hno : ∀ m', (s.clock, m') ∉ s.added := fun m' hm' => Nat.lt_irrefl _ (hk.clock _ _ hm')
    refine ⟨?_, ?_⟩
    · intro c
      refine List.countP_eq_zero.mpr ?_
      intro x hx hcx
      obtain ⟨hn, m', hm'⟩ := carries_eq_true.mp hcx
      have hadd := hk.mail c x m' hx hm'
      rw [hn] at hadd
      exact hno m' hadd
    · rintro ⟨n, c⟩ hx rfl
      obtain ⟨-, -, m', -, hadd⟩ := hk.placed _ _ hx
      exact hno m' hadd
  | @takes r l t hp hw hl ht =>
    obtain ⟨ls, hls⟩ := List.head?_eq_some_iff.mp hl
    have hpos : s.copies l.number r = ls.countP (Carries l.number) + 1 := by
      simp [copies, hls, hc]
    rcases h l.number m (hk.mail r l m (by simp [hls]) hmsg) with ⟨c, hw⟩ | ⟨c, hp⟩
    · have hcr : r = c := by
        by_contra hcr
        have hz := hw.elsewhere r hcr
        omega
      subst hcr
      refine ⟨?_, hw.unplaced⟩
      intro c
      by_cases hcr : c = r
      · subst hcr
        have h1 := hw.here
        simp only [rest, if_true, hls, List.tail_cons]
        omega
      · have hz := hw.elsewhere c hcr
        unfold rest
        simp only [hcr, if_false]
        exact hz
    · have hz := hp.copies r
      omega

/-- What becomes of a copy in hand. -/
theorem Arrives.handled (h : s.Shape) (hok : LosesNoTask legal ⟨s, w⟩ e) {r : ℕ} {l : Letter} {t : Turn} {m : AddTask}
    (hh : Handles legal s e r l t)
    (hs' : s' = (s.before e).perform r r l.toStamp l.msg.toAddTask t)
    (hmsg : l.msg = .addTask m) (hi : InHand s e l.number) : s'.Arrives l.number := by
  have hpass := passable_of hok hh hmsg
  -- the copies afterwards are those the turn sends
  have hcopies : ∀ c, s'.copies l.number c =
      (s.sent r l.toStamp t c).countP (Carries l.number) := by
    intro c
    unfold copies
    rw [hs', hh.mailbox h, List.countP_append, hi.copies, Nat.zero_add]
  have hplaced : (∀ f x task tn, born t.effects ≠ some (f, x, .taskActor task tn)) →
      ∀ p ∈ s'.placed, p.1 ≠ l.number := by
    intro hb
    rw [hs', perform_placed hb, before_placed]
    exact hi.unplaced
  -- passed on to `d`
  have hpassed : ∀ d, (∀ c, s'.copies l.number c = if c = d then 1 else 0) →
      (s'.cell d).phase ≠ .stopped →
      (∀ f x task tn, born t.effects ≠ some (f, x, .taskActor task tn)) →
      s'.Arrives l.number := by
    intro d hc hp hb
    refine .inl ⟨d, ?_, ?_, hp, hplaced hb⟩
    · rw [hc, if_pos rfl]
    · intro c hcd
      rw [hc, if_neg hcd]
  have hturn := hh.turns
  rw [hmsg] at hturn
  cases hturn with
  | @pass m n d ws hn hd hws =>
    simp only [Passable, hn, hd] at hpass
    have hbelow := h.below (childNamed_some hd)
    have hdr : d ≠ r := by
      have hp := (h.child r _ (childNamed_some hd))
      have hlt := (h.fits d hp.1 hp.2.1).1
      rw [hp.2.2.1] at hlt
      omega
    have hb := born_watches hws
    refine hpassed d ?_ ?_ ?_
    · intro c
      rw [hcopies]
      exact copies_passed [] ws rfl hws (by simp) c
    · rw [hs', hh.cell_other h hdr hbelow.1]
      exact hpass
    · intro f x task tn hbo
      change born ws = _ at hbo
      rw [hb] at hbo
      cases hbo
  | @spawn m n ws hn hd hl hce hws hw =>
    refine hpassed s.next ?_ ?_ ?_
    · intro c
      rw [hcopies]
      exact copies_passed [.actorOf s.next (.named n) _] ws rfl hws (by simp [letterTo]) c
    · rw [hs', perform_born (Nat.ne_of_gt (hh.lt h)) rfl]
      simp
    · intro f x task tn hbo
      have hprops := Worker.hopProps_not_task (s.cell r).worker (s.cell r).name.text m task tn
      exact hprops (Prod.mk.inj (Prod.mk.inj (Option.some.inj hbo)).2).2
  | @place m single a hw hg hl =>
    refine .inr ⟨s.next, ?_, ?_⟩
    · intro c
      rw [hcopies]
      simp [sent, letterTo]
    · have hold := placed_ne.mp hi.unplaced
      rw [hs']
      show ((s.before e).placed ++ [(l.number, s.next)]).filter (·.1 = l.number) = _
      rw [before_placed, List.filter_append, hold]
      simp
  | @refuse m x hx hr =>
    exfalso
    rcases hr with ⟨n, hn, hd, hl⟩ | ⟨⟨a, hw⟩, hg⟩ | ⟨⟨single, a, hw, hg⟩, hbad⟩
    · simp [Passable, hn, hd, hl] at hpass
    · simp [Passable, hw, Worker.hop, hg] at hpass
    · have hn : (s.cell r).worker.hop m = none := by
        simp [hw, Worker.hop, Nat.not_lt.mpr hg]
      simp only [Passable, hn] at hpass
      rcases hbad with hbad | hbad
      · rw [hpass.2] at hbad
        cases hbad
      · rw [h.no_task_child] at hbad
        cases hbad
  | unregistered hw hn hv hc =>
    exfalso
    simp only [Passable, hn, hc] at hpass
    rw [hw] at hpass
    simp [Worker.CanEnlist, hv] at hpass
  | ignore hr hm hq ht hp => cases hm

/-- The other numbers are left alone by a worker that handles an
`AddTask`. -/
theorem still_of_other (h : s.Shape) (hm : Moves legal w s e s' he) {r : ℕ} {l : Letter}
    {t : Turn} {m : AddTask} (hh : Handles legal s e r l t)
    (hs' : s' = (s.before e).perform r r l.toStamp l.msg.toAddTask t)
    (hmsg : l.msg = .addTask m) (hn : n ≠ l.number) : Still s s' n := by
  have htaken : ∀ r' l', e = .takes r' l' → Carries n l' = false := by
    intro r' l' he
    subst he
    cases hh with
    | takes hp hw hl ht =>
      by_contra hc
      exact hn (carries_eq_true.mp (Bool.of_not_eq_false hc)).1.symm
  refine ⟨?_, ?_, ?_⟩
  · intro c
    have hsent : (s.sent r l.toStamp t c).countP (Carries n) = 0 := by
      refine List.countP_eq_zero.mpr ?_
      intro x hx hc
      obtain ⟨hst, -⟩ := mem_sent.mp hx
      have hnum : x.number = l.number := by rw [hst]
      exact hn ((carries_eq_true.mp hc).1.symm.trans hnum)
    have hrest := countP_rest hm htaken c
    unfold copies at hrest ⊢
    rw [hs', hh.mailbox h, List.countP_append, hsent, hrest, Nat.add_zero]
  · rcases hm.placed h with ⟨heq, -⟩ | ⟨r', l', t', m', hh', -, heq, -⟩
    · rw [heq]
    · obtain ⟨rfl, rfl⟩ := hh.unique hh'
      rw [heq, List.filter_append]
      simp [Ne.symm hn]
  · intro c hp
    left
    have hc := (hm.shape h).lt_of_phase (c := c) (by simp [hp])
    rcases (hm.grows h).lt_or_eq hc with hlt | ⟨rfl, hn'⟩
    · rcases hm.phase h hlt with hsame | hch
      · exact hsame ▸ hp
      · rw [hp] at hch
        cases hch with
        | @stopsSelf l' t' hh' hx ht =>
          exfalso
          obtain ⟨rfl, rfl⟩ := hh.unique hh'
          have hsay := hh'.turns
          rw [hmsg] at hsay
          exact Turns.addTask_not_stops hsay ht
        | stops he hi hp =>
          subst he
          cases hh
    · obtain ⟨r', l', t', n', props, -, -, -, hcell⟩ := hm.newborn h hn'
      rw [hcell] at hp
      cases hp

/-- **One step loses no `AddTask`.** -/
theorem arrives_step (h : s.Shape) (hk : s.Known) (ha : ∀ n m, (n, m) ∈ s.added → s.Arrives n)
    (hok : LosesNoTask legal ⟨s, w⟩ e) (hm : Moves legal w s e s' he) :
    ∀ n m, (n, m) ∈ s'.added → s'.Arrives n := by
  intro n m hadd
  rcases hm.handles with ⟨r, l, t, hh, -, hs'⟩ | hno
  · cases hmsg : l.msg.toAddTask with
    | some k =>
      have hmsg : l.msg = .addTask k := by
        cases hl : l.msg <;> simp_all [WorkerMessage.toAddTask]
      by_cases hn : n = l.number
      · subst hn
        exact Arrives.handled h hok hh hs' hmsg (inHand hk ha hh hmsg)
      · refine (ha n m ?_).still (still_of_other h hm hh hs' hmsg hn)
        rcases hm.added.2 with ⟨heq, -⟩ | ⟨v, m', he', heq⟩
        · exact heq ▸ hadd
        · rw [heq] at hadd
          rcases List.mem_append.mp hadd with hadd | hadd
          · exact hadd
          · obtain ⟨rfl, rfl⟩ := Prod.mk.inj (List.mem_singleton.mp hadd)
            subst he'
            cases hh
            exact absurd rfl hn
    | none =>
      refine (ha n m ?_).still (still_of_quiet h hok hm ?_)
      · rcases hm.added.2 with ⟨heq, -⟩ | ⟨v, m', he', heq⟩
        · exact heq ▸ hadd
        · subst he'
          cases hh
          cases hmsg
      · intro r' l' t' hh'
        obtain ⟨rfl, rfl⟩ := hh.unique hh'
        exact hmsg
  · refine (ha n m ?_).still (still_of_quiet h hok hm fun r l t hh => absurd hh (hno r l t))
    rcases hm.added.2 with ⟨heq, -⟩ | ⟨v, m', he', heq⟩
    · exact heq ▸ hadd
    · subst he'
      cases hm with
      | input hp hm hw ht => exact absurd (.input hp hw hm ht) (hno _ _ _)

theorem Arrives.tick (h : s.Arrives n) : s.tick.Arrives n := by
  rcases h with ⟨c, hc⟩ | ⟨c, hc⟩
  · exact .inl ⟨c, hc.here, hc.elsewhere, hc.alive, hc.unplaced⟩
  · exact .inr ⟨c, hc.copies, hc.once⟩

/-- A task actor is below the node of its group. -/
theorem Shape.task_node (h : s.Shape) {c : ℕ} {m : AddTask} (hc : c < s.next)
    (hw : (s.cell c).worker = .taskActor) (hm : (s.cell c).origin = some m) :
    ∃ single a, (s.cell (s.cell c).parent).worker = .subWorkerActor single a ∧
      a.group = m.group ∧ a.tablename = m.instanceId := by
  have h0 : c ≠ 0 := by
    intro h0
    subst h0
    exact h.root_ne hw
  obtain ⟨-, m', hm', hf⟩ := h.fits c h0 hc
  have hm'' : (s.cell c).origin = some m' := hm'
  obtain rfl : m = m' := Option.some.inj (hm.symm.trans hm'')
  have hk : (s.cell c).place.kind = .taskActor := kind_taskActor.mpr hw
  rw [hk] at hf
  cases hp : (s.cell (s.cell c).parent).worker with
  | subWorkerActor single a =>
    have hkp : (s.cell (s.cell c).parent).place.kind =
        .subWorkerActor single a.group a.tablename := by simp [Cell.place, hp, Worker.kind]
    rw [hkp] at hf
    exact ⟨single, a, rfl, hf.1, hf.2.1⟩
  | _ => simp [Cell.place, hp, Worker.kind] at hf

end Workers

theorem arrives_run {legal : String → Bool} {es : List Event} {s : System}
    (h : (system legal).Run (fun _ => LosesNoTask legal) es s) :
    ∀ n m, (n, m) ∈ s.workers.added → s.workers.Arrives n := by
  have hinv : s.workers.Known ∧ ∀ n m, (n, m) ∈ s.workers.added → s.workers.Arrives n := by
    refine workers_run (I := fun s => s.Known ∧ ∀ n m, (n, m) ∈ s.added → s.Arrives n)
      ⟨Workers.known_init, by simp [System.init]⟩ ?_ h
    rintro es s e t he hw ⟨hk, ha⟩ hok hm
    refine ⟨hk.step hw.shape hm, ?_⟩
    intro n m hn
    exact (Workers.arrives_step hw.shape hk ha hok hm n m hn).tick
  exact hinv.2

/-- **No `AddTask` is lost**: in every run under the condition, each one
the `InstanceActor` handled is one letter on its way, at a worker that
will handle it, or it is exactly one task actor, with its task, below
the node of its group. -/
theorem addTask_arrives {legal : String → Bool} {es : List Event} {s : System}
    (h : (system legal).Run (fun _ => LosesNoTask legal) es s) {n : ℕ} {m : AddTask}
    (hn : (n, m) ∈ s.workers.added) :
    (∃ c, s.workers.Waits n c) ∨
      ∃ c, s.workers.Placed n c ∧ (s.world.task c).actor.task = m.task ∧
        ∃ single a, (s.workers.cell (s.workers.cell c).parent).worker = .subWorkerActor single a ∧
          a.group = m.group ∧ a.tablename = m.instanceId := by
  rcases arrives_run h n m hn with hw | ⟨c, hc⟩
  · exact .inl hw
  · have hmem : (n, c) ∈ s.workers.placed := by
      have hf : (n, c) ∈ s.workers.placed.filter (·.1 = n) := by
        rw [hc.once]
        exact List.mem_singleton_self _
      exact List.mem_of_mem_filter hf
    have hw := wellFormed_run h
    obtain ⟨hlt, hcw, m', hm', hadd⟩ := (known_run h).placed n c hmem
    obtain rfl := (known_run h).unique hadd hn
    exact .inr ⟨c, hc, (hw.leaves.task c m' hlt hcw hm').1, hw.shape.task_node hlt hcw hm'⟩

/-! ## A task that comes in time -/

/-- A method that is no test returns null. -/
def voidMethod : Execution := ⟨.ok (), .ok [], .ok false, .ok ⟨0, []⟩, .ok none⟩

/-- The task of actor 3 is executed by machine 0, and all that is left of
it is the `Terminated` on its way to the node. -/
def taskDone : List (System → Option Event) :=
  (Handshake.provision 0).map (fun e => cue (.handshake e)) ++
    [cue (.input 0 (.getTask ⟨"1.0", false⟩)), takesNext 1, takesNext 2, takesNext 3,
      cue (.handshake (.vmTakes 0 ⟨some 1, .sendTask⟩ Handshake.idleOutside)),
      cue (.handshake (.reply ⟨1, 0, .acquireExecutor⟩)),
      cue (.handshake (.address ⟨1, 3, .executorAddress 0⟩)), cue (.execute 2 voidMethod),
      cue (.handshake (.failed 2 .alive)), cue (.judge 3 (.testSuccess parallelTask.task none)),
      cue (.handshake (.executorDies 2)), cue (.terminates 3)]

/-- Two tasks are placed, the first is executed and forgotten by its node,
and then a third one comes. -/
def thirdRun : List (System → Option Event) :=
  [cue (.input 0 (.addTask parallelTask)), takesNext 1, takesNext 2,
    cue (.input 0 (.addTask secondTask)), takesNext 1, takesNext 2] ++ taskDone ++
    [takesNext 2, cue (.input 0 (.addTask deepTask)), takesNext 1, takesNext 2, takesNext 5]

def ThirdAdded (s : System) : Prop :=
  (23, deepTask) ∈ s.workers.added ∧ (∀ x ∈ (s.workers.cell 2).children, x.ref ≠ 3) ∧
    (s.workers.cell 2).worker = .subWorkerActor false ⟨["a"], "run", [4]⟩

instance : DecidablePred ThirdAdded := fun _ => by
  unfold ThirdAdded
  infer_instance

theorem addTask_arrives_thirdRun : ∃ es s, (system anyName).Run (fun _ => LosesNoTask anyName)
    es s ∧ (∀ x ∈ (s.workers.cell 2).children, x.ref ≠ 3) ∧ ((∃ c, s.workers.Waits 23 c) ∨
      ∃ c, s.workers.Placed 23 c ∧ (s.world.task c).actor.task = deepTask.task) := by
  obtain ⟨es, s, hr, hn, hgone, -⟩ :
      ∃ es s, (system anyName).Run (fun _ => LosesNoTask anyName) es s ∧ ThirdAdded s :=
    @EventSystem.exists_run_of_play _ _ (system anyName) _ _ ThirdAdded _ thirdRun (by decide)
  refine ⟨es, s, hr, hgone, ?_⟩
  rcases addTask_arrives hr hn with hw | ⟨c, hc, htask, -⟩
  · exact .inl hw
  · exact .inr ⟨c, hc, htask⟩

/-! ## A task that comes too late -/

/-- The only task of a run is done, and its node stops itself. The next task of its group is still sent to
it, and with the node the whole run goes. -/
def lateRun : List (System → Option Event) :=
  [cue (.input 0 (.addTask parallelTask)), takesNext 1, takesNext 2] ++ taskDone ++
    [takesNext 2, cue (.input 0 (.addTask secondTask)), takesNext 1,
    cue (.terminates 2), takesNext 1, cue (.terminates 1), takesNext 0]

/-- `AddTask` number 20 is in the mailbox of the stopped node, and the
`InstanceActor` has no run any more. -/
def SecondLost (s : System) : Prop :=
  (20, secondTask) ∈ s.workers.added ∧ (∀ p ∈ s.workers.placed, p.1 ≠ 20) ∧
    s.workers.copies 20 2 = 1 ∧ (s.workers.cell 2).phase = .stopped ∧
    (s.workers.cell 0).children = []

instance : DecidablePred SecondLost := fun _ => by
  unfold SecondLost
  infer_instance

/-- **An `AddTask` is lost** when its node has just stopped itself: its
only copy is in the mailbox of an actor that handles nothing any more. -/
theorem addTask_lost : ∃ es s, (system anyName).Run EventSystem.anyStep es s ∧
    (20, secondTask) ∈ s.workers.added ∧ (∀ p ∈ s.workers.placed, p.1 ≠ 20) ∧
    (s.workers.cell 0).children = [] ∧ ¬ s.workers.Arrives 20 := by
  obtain ⟨es, s, hr, ha, hp, hc, hs, h0⟩ : ∃ es s, (system anyName).Run EventSystem.anyStep es s ∧
      SecondLost s := @EventSystem.exists_run_of_play _ _ (system anyName) _ _ SecondLost _ lateRun (by decide)
  refine ⟨es, s, hr, ha, hp, h0, ?_⟩
  rintro (⟨c, hw⟩ | ⟨c, hw⟩)
  · by_cases h2 : c = 2
    · subst h2
      exact hw.alive hs
    · have hz := hw.elsewhere 2 (Ne.symm h2)
      omega
  · have hz := hw.copies 2
    omega

end Clustering.Tree
