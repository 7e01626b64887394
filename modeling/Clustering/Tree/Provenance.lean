/-
Clustering.Tree.Provenance — every task actor comes from an `AddTask`.

The `AddTask`s the `InstanceActor` handles are numbered by the time, and
a letter that carries one carries its number. `Known` is the invariant
that ties the two histories of the workers to their state: what is on
its way was added, and a task actor was placed for something that was.
-/
import Clustering.Tree.Mail

namespace Clustering.Tree

open Actors Clustering.Worker
open Clustering.Handshake (World)

namespace Workers

variable {legal : String → Bool} {w : World} {s s' : Workers} {e : Event}
  {he : Option Handshake.Event}

/-! ## What a step adds to the histories -/

theorem before_placed (s : Workers) (e : Event) : (s.before e).placed = s.placed := by
  cases e with
  | input v msg => cases msg <;> rfl
  | _ => rfl

theorem stopChild_same (c : ℕ) : ((s.stopChild c).1).clock = s.clock ∧
    ((s.stopChild c).1).added = s.added ∧ ((s.stopChild c).1).placed = s.placed := by
  unfold stopChild
  split <;> exact ⟨rfl, rfl, rfl⟩

theorem perform_placed {r about : ℕ} {stamp : Stamp} {origin : Option AddTask} {t : Turn}
    (hb : ∀ f n task tn, born t.effects ≠ some (f, n, .taskActor task tn)) :
    (s.perform r about stamp origin t).placed = s.placed := by
  dsimp only [perform]
  split
  · rename_i f n task tn hbo
    exact absurd hbo (hb f n task tn)
  · rfl

/-- The clock waits for the end of the step, and only an input is
added. -/
theorem Moves.added (hm : Moves legal w s e s' he) : s'.clock = s.clock ∧
    (s'.added = s.added ∧ (∀ v m, e ≠ .input v (.addTask m)) ∨
      ∃ v m, e = .input v (.addTask m) ∧ s'.added = s.added ++ [(s.clock, m)]) := by
  cases hm with
  | @input v msg t hp hm hw ht =>
    refine ⟨(note_cell msg).2.2, ?_⟩
    cases msg with
    | addTask m => exact .inr ⟨v, m, rfl, rfl⟩
    | _ => exact .inl ⟨rfl, by simp⟩
  | judgeSuccess hf hc hw hs =>
    rw [Prod.eq_iff_fst_eq_snd_eq] at hs
    obtain ⟨rfl, -⟩ := hs
    rw [(stopChild_same _).1, (stopChild_same _).2.1]
    exact ⟨rfl, .inl ⟨rfl, by simp⟩⟩
  | judgeFailure hf hc hw hs =>
    rw [Prod.eq_iff_fst_eq_snd_eq] at hs
    obtain ⟨rfl, -⟩ := hs
    rw [(stopChild_same _).1, (stopChild_same _).2.1]
    exact ⟨rfl, .inl ⟨rfl, by simp⟩⟩
  | stops hr hc hp hs =>
    rw [Prod.eq_iff_fst_eq_snd_eq] at hs
    obtain ⟨rfl, -⟩ := hs
    rw [(stopChild_same _).1, (stopChild_same _).2.1]
    exact ⟨rfl, .inl ⟨rfl, by simp⟩⟩
  | _ => exact ⟨rfl, .inl ⟨rfl, by simp⟩⟩

/-- A task actor is placed when it is created, for the number of the
letter that is handled. -/
theorem Moves.placed (h : s.Shape) (hm : Moves legal w s e s' he) :
    s'.placed = s.placed ∧ (∀ task tn, he ≠ some (.create s.next task tn)) ∨
      ∃ r l t m, Handles legal s e r l t ∧ l.msg = .addTask m ∧
        s'.placed = s.placed ++ [(l.number, s.next)] ∧ s'.next = s.next + 1 ∧
        (s'.cell s.next).worker = .taskActor ∧ (s'.cell s.next).parent = r ∧
        (s'.cell s.next).origin = some m := by
  rcases hm.handles with ⟨r, l, t, hh, rfl, hs'⟩ | hno
  · rcases Turns.birth hh.turns with ⟨hb, hprops⟩ | ⟨m, single, a, hmsg, hw, hg, hb, hbo⟩
    · left
      constructor
      · rw [hs', perform_placed, before_placed]
        intro f n task tn hbo
        exact hprops _ _ _ hbo rfl
      · simp [hb]
    · right
      refine ⟨r, l, t, m, hh, hmsg, ?_, ?_, ?_⟩
      · rw [hs', ← before_placed s e]
        simp [perform, hbo]
      · rw [hs']
        simp [perform, hbo, (before_same s e).1]
      · rw [hs', perform_born (Nat.ne_of_gt (hh.lt h)) hbo]
        simp [hmsg, WorkerMessage.toAddTask, Worker.new]
  · left
    cases hm with
    | input hp hm hw ht => exact absurd (.input hp hw hm ht) (hno _ _ _)
    | takes hl hp hw ht => exact absurd (.takes hp hw hl ht) (hno _ _ _)
    | @taskTakes r l hl hw hp =>
      refine ⟨rfl, ?_⟩
      intro task tn
      unfold taskEvent
      split <;> simp
    | @judgeSuccess c task res single a hf hc hw s' he hs =>
      rw [Prod.eq_iff_fst_eq_snd_eq] at hs
      obtain ⟨rfl, rfl⟩ := hs
      refine ⟨?_, ?_⟩
      · rw [(stopChild_same c).2.2, perform_placed (by simp [born])]
      · intro task tn
        rcases stopChild_event (s := s.perform _ _ _ _ _) c with hc | hc <;> rw [hc] <;> simp
    | @judgeFailure c task res single a hf hc hw s' he hs =>
      rw [Prod.eq_iff_fst_eq_snd_eq] at hs
      obtain ⟨rfl, rfl⟩ := hs
      have hb : born (.tellDb (a.failureRecord task res) ::
          (s.cell (s.cell c).parent).children.map fun x =>
            .tell x.ref (.persistAndSuicide task.fullName)) = none := born_tells _ _
      refine ⟨?_, ?_⟩
      · rw [(stopChild_same c).2.2, perform_placed (by simp [hb])]
      · intro task tn
        rcases stopChild_event (s := s.perform _ _ _ _ _) c with hc | hc <;> rw [hc] <;> simp
    | @stops c hr hc hp s' he hs =>
      rw [Prod.eq_iff_fst_eq_snd_eq] at hs
      obtain ⟨rfl, rfl⟩ := hs
      refine ⟨(stopChild_same c).2.2, ?_⟩
      intro task tn
      rcases stopChild_event (s := s) c with hc | hc <;> rw [hc] <;> simp
    | @handshake e hi =>
      refine ⟨rfl, ?_⟩
      rintro task tn heq
      obtain rfl := Option.some.inj heq
      exact hi
    | _ => exact ⟨rfl, by simp⟩

/-! ## The invariant -/

/-- Everything that is placed or on its way was added. -/
structure Known (s : Workers) : Prop where
  clock : ∀ n m, (n, m) ∈ s.added → n < s.clock
  once : (s.added.map (·.1)).Nodup
  mail : ∀ c l m, l ∈ (s.cell c).mailbox → l.msg = .addTask m → (l.number, m) ∈ s.added
  placed : ∀ n c, (n, c) ∈ s.placed → c < s.next ∧ (s.cell c).worker = .taskActor ∧
    ∃ m, (s.cell c).origin = some m ∧ (n, m) ∈ s.added
  tasks : ∀ c, c < s.next → (s.cell c).worker = .taskActor → ∃ n, (n, c) ∈ s.placed

theorem known_init : System.init.workers.Known := by
  constructor
  · intro n m h
    simp [System.init] at h
  · simp [System.init]
  · intro c l m h
    by_cases hc : c = 0 <;> simp [System.init, hc] at h
  · intro n c h
    simp [System.init] at h
  · intro c hc hw
    obtain rfl : c = 0 := Nat.lt_one_iff.mp hc
    simp [System.init] at hw

/-- A number has one `AddTask`. -/
theorem Known.unique (h : s.Known) {n : ℕ} {m m' : AddTask} (hm : (n, m) ∈ s.added)
    (hm' : (n, m') ∈ s.added) : m = m' := by
  have hinj := List.inj_on_of_nodup_map h.once hm hm' rfl
  exact (Prod.mk.inj hinj).2

/-- The number of a letter that is handled is, after the step, that of
the `AddTask` it carries. -/
theorem Known.handled (h : s.Known) (hm : Moves legal w s e s' he) {r : ℕ} {l : Letter} {t : Turn}
    (hh : Handles legal s e r l t) {m : AddTask} (hmsg : l.msg = .addTask m) :
    (l.number, m) ∈ s'.added := by
  rcases hh.mem with hl | ⟨rfl, v, hv, hst⟩
  · have hadd := h.mail r l m hl hmsg
    rcases hm.added.2 with ⟨heq, -⟩ | ⟨v, m', -, heq⟩ <;> rw [heq]
    · exact hadd
    · exact List.mem_append_left _ hadd
  · rw [hmsg] at hv
    rcases hm.added.2 with ⟨-, hno⟩ | ⟨v', m', hv', heq⟩
    · exact absurd hv (hno v m)
    · rw [hv] at hv'
      cases hv'
      have hn : l.number = s.clock := by rw [hst]
      rw [heq, hn]
      simp

theorem Known.step (h : s.Known) (hs : s.Shape) (hm : Moves legal w s e s' he) :
    s'.tick.Known := by
  have hg := hm.grows hs
  obtain ⟨hclock, hadded⟩ := hm.added
  have hsub : ∀ {x}, x ∈ s.added → x ∈ s'.added := by
    intro x hx
    rcases hadded with ⟨heq, -⟩ | ⟨v, m, -, heq⟩ <;> rw [heq]
    · exact hx
    · exact List.mem_append_left _ hx
  have hworker : ∀ {c}, c < s.next →
      ((s'.cell c).worker = .taskActor ↔ (s.cell c).worker = .taskActor) := by
    intro c hc
    rw [← kind_taskActor, ← kind_taskActor, hg.kind hc]
  have hold : ∀ n c, (n, c) ∈ s.placed → c < s'.next ∧ (s'.cell c).worker = .taskActor ∧
      ∃ m, (s'.cell c).origin = some m ∧ (n, m) ∈ s'.added := by
    intro n c hc
    obtain ⟨h1, h2, m, h3, h4⟩ := h.placed n c hc
    refine ⟨Nat.lt_of_lt_of_le h1 hg.next_le, (hworker h1).mpr h2, m, ?_, hsub h4⟩
    rw [hg.origin h1]
    exact h3
  constructor
  · intro n m hn
    show n < s'.clock + 1
    rw [hclock]
    rcases hadded with ⟨heq, -⟩ | ⟨v, m', -, heq⟩ <;> rw [tick_added, heq] at hn
    · exact Nat.lt_succ_of_lt (h.clock n m hn)
    · rcases List.mem_append.mp hn with hn | hn
      · exact Nat.lt_succ_of_lt (h.clock n m hn)
      · cases List.mem_singleton.mp hn
        exact Nat.lt_succ_self _
  · show (s'.added.map (·.1)).Nodup
    rcases hadded with ⟨heq, -⟩ | ⟨v, m, -, heq⟩ <;> rw [heq]
    · exact h.once
    · rw [List.map_append]
      refine List.Nodup.append h.once (by simp) ?_
      simp only [List.map_cons, List.map_nil, List.disjoint_singleton]
      intro hx
      obtain ⟨⟨n, m'⟩, hx, rfl⟩ := List.mem_map.mp hx
      exact Nat.lt_irrefl _ (h.clock _ m' hx)
  · intro c l m hl hmsg
    rcases hm.mem_mailbox hs hl with hl | hl
    · exact hsub (h.mail c l m hl hmsg)
    · cases hl with
      | @handled r l₀ t hh hst hsay =>
        rw [hmsg] at hsay
        have hadd := h.handled hm hh (Turns.says_addTask hh.turns hsay).1
        have hn : l.number = l₀.number := by rw [hst]
        rw [hn]
        exact hadd
      | cancels he hw hd hc hl =>
        rw [hl] at hmsg
        cases hmsg
      | buried he hd hi hc hw hl =>
        rw [hl] at hmsg
        cases hmsg
  · intro n c hc
    rcases hm.placed hs with ⟨heq, -⟩ | ⟨r, l, t, m, hh, hmsg, heq, hn, hw, -, ho⟩
    · exact hold n c (heq ▸ hc)
    · change (n, c) ∈ s'.placed at hc
      rw [heq] at hc
      rcases List.mem_append.mp hc with hc | hc
      · exact hold n c hc
      · cases List.mem_singleton.mp hc
        exact ⟨by show s.next < s'.next; omega, hw, m, ho, h.handled hm hh hmsg⟩
  · intro c hc hw
    have hpl : ∀ x ∈ s.placed, x ∈ s'.placed := by
      intro x hx
      rcases hm.placed hs with ⟨heq, -⟩ | ⟨r, l, t, m, -, -, heq, -⟩ <;> rw [heq]
      · exact hx
      · exact List.mem_append_left _ hx
    rcases hg.lt_or_eq hc with hlt | ⟨rfl, hn⟩
    · obtain ⟨n, hn⟩ := h.tasks c hlt ((hworker hlt).mp hw)
      exact ⟨n, hpl _ hn⟩
    · rcases hm.placed hs with ⟨-, hno⟩ | ⟨r, l, t, m, -, -, heq, -⟩
      · exfalso
        cases hg with
        | nobody hn' hp hc => omega
        | worker hn' hp hk => exact hk (kind_taskActor.mpr hw)
        | task hn' hp hk ho => exact hno _ _ rfl
      · refine ⟨l.number, ?_⟩
        show _ ∈ s'.placed
        rw [heq]
        simp

end Workers

theorem known_run {legal : String → Bool} {ok : List Event → System → Event → Prop}
    {es : List Event} {s : System} (h : (system legal).Run ok es s) : s.workers.Known :=
  workers_run Workers.known_init (fun _ _ _ _ _ hw hk _ hm => hk.step hw.shape hm) h

end Clustering.Tree
