/-
Clustering.Tree.Attached — how long an actor is a child of its parent.

From its creation on until it has terminated, which takes that it was
stopped and has no children left. So above an actor that is not stopped
everyone is still there (`Attached.above`): its parent has it as a
child, the parent of the parent has the parent, and so on to the root.
-/
import Clustering.Tree.Mail

namespace Clustering.Tree

open Actors Clustering.Worker
open Clustering.Handshake (World)

theorem Grows.not_create {s s' : Workers} {he : Option Handshake.Event} (h : Grows s s' he) {c : ℕ}
    (hc : c < s.next) (task : Task) (tablename : String) :
    he ≠ some (.create c task tablename) := by
  cases h with
  | nobody hn hp hno => exact hno c task tablename
  | worker hn hp hk => simp
  | task hn hp hk ho =>
    intro heq
    simp only [Option.some.injEq, Handshake.Event.create.injEq] at heq
    exact absurd heq.1 (Nat.ne_of_gt hc)

namespace Workers

section

variable {legal : String → Bool} {w w' : World} {s s' : Workers} {e : Event}
  {he : Option Handshake.Event}

theorem stopChild_children (c d : ℕ) :
    (((s.stopChild c).1).cell d).children = (s.cell d).children := by
  unfold stopChild
  split
  · rfl
  · by_cases hd : d = c
    · subst hd
      simp
    · simp [hd]

/-- **What becomes of the children of an actor in a step.** -/
theorem Moves.children (h : s.Shape) (hm : Moves legal w s e s' he) {p : ℕ} (hp : p < s.next) :
    (∃ l t, Handles legal s e p l t ∧ (s'.cell p).children = t.children) ∨
      (∃ d, e = .terminates d ∧ s.Dead w d ∧ he = none ∧
        (s'.cell p).children = (s.cell p).children.filter (·.ref ≠ d)) ∨
      (s'.cell p).children = (s.cell p).children := by
  have hupd : ∀ {d : ℕ} {f : Cell → Cell}, (f (s.cell d)).children = (s.cell d).children →
      ((s.updCell d f).cell p).children = (s.cell p).children := by
    intro d f hf
    by_cases hd : p = d
    · subst hd
      simpa using hf
    · simp [hd]
  rcases hm.handles with ⟨r, l, t, hh, -, hs'⟩ | hno
  · by_cases hpr : p = r
    · subst hpr
      refine .inl ⟨l, t, hh, ?_⟩
      rw [hs', hh.cell_self h]
      rfl
    · right
      right
      rw [hs', hh.cell_other h hpr hp]
  · right
    -- a verdict leaves the children of the node
    have hverdict : ∀ {d : ℕ} {t : Turn}, t.children = (s.cell (s.cell d).parent).children →
        born t.effects = none →
        ((((s.perform (s.cell d).parent d ⟨0, s.clock, []⟩ none t).stopChild d).1).cell p).children =
          (s.cell p).children := by
      intro d t ht hb
      rw [stopChild_children]
      by_cases hpd : p = (s.cell d).parent
      · subst hpd
        rw [perform_self]
        exact ht
      · rw [perform_other hpd (by simp [hb])]
    cases hm with
    | input hp hm hw ht => exact absurd (.input hp hw hm ht) (hno _ _ _)
    | takes hl hp hw ht => exact absurd (.takes hp hw hl ht) (hno _ _ _)
    | judgeSuccess hf hc hw hs =>
      rw [Prod.eq_iff_fst_eq_snd_eq] at hs
      obtain ⟨rfl, -⟩ := hs
      exact .inr (hverdict rfl (by simp [born]))
    | judgeFailure hf hc hw hs =>
      rw [Prod.eq_iff_fst_eq_snd_eq] at hs
      obtain ⟨rfl, -⟩ := hs
      exact .inr (hverdict rfl (born_tells _ _))
    | stops hr hc hp hs =>
      rw [Prod.eq_iff_fst_eq_snd_eq] at hs
      obtain ⟨rfl, -⟩ := hs
      exact .inr (stopChild_children _ p)
    | @terminates d hr hc hd =>
      by_cases hpd : p = (s.cell d).parent
      · subst hpd
        exact .inl ⟨d, rfl, hd, rfl, by simp [bury]⟩
      · exact .inr (by simp [bury, hpd])
    | taskTakes hl hw hp => exact .inr (hupd rfl)
    | judgeFails hf hc hx => exact .inr (hupd rfl)
    | judgeRestarts hf hc hw hx => exact .inr (hupd rfl)
    | guardian hf => exact .inr (hupd rfl)
    | recreate hp hc => exact .inr (hupd rfl)
    | execute => exact .inr rfl
    | handshake hi => exact .inr rfl

/-- `c` is stopped, and has no children. -/
def Gone (s : Workers) (w : World) (c : ℕ) : Prop :=
  ((s.cell c).worker = .taskActor → (w.task c).phase = .stopped) ∧
    ((s.cell c).worker ≠ .taskActor → (s.cell c).phase = .stopped ∧ (s.cell c).children = [])

/-- Everyone is a child of its parent, or is gone. -/
def Attached (s : Workers) (w : World) : Prop :=
  ∀ c, c ≠ 0 → c < s.next → s.IsChild c ∨ s.Gone w c

theorem gone_of_dead {c : ℕ} (h : s.Dead w c) : s.Gone w c := by
  unfold Dead at h
  constructor
  · intro hw
    simp only [hw] at h
    by_contra hp
    rw [World.contextState_active hp] at h
    cases h
  · intro hw
    split at h
    · exact absurd ‹_› hw
    · exact h

/-- A stopped worker handles nothing and is not restarted. -/
theorem Changes.of_stopped {c : ℕ} {q : Phase} (h : Changes legal w s e c q)
    (hw : (s.cell c).worker ≠ .taskActor) (hp : (s.cell c).phase = .stopped) : q = .stopped := by
  cases h with
  | fails hh hx => exact absurd (hp.symm.trans hh.running) (by simp)
  | stopsSelf hh hx ht => rfl
  | childFails he hf hd hpc hx =>
    have hrun := hd.running
    rw [hpc, hp] at hrun
    cases hrun
  | restarts he hf hx =>
    unfold failure at hf
    split at hf
    · exact absurd ‹_› hw
    · rw [hp] at hf
      cases hf
  | stops he hi hpar => rfl
  | recreates he hpr hc => exact absurd (hp.symm.trans hpr) (by simp)

/-- Who is stopped stays so. -/
theorem Gone.step (hs : s.Shape) (hm : Moves legal w s e s' he) (hf : Follows w he w') {c : ℕ}
    (hc : c < s.next) (h : s.Gone w c) : s'.Gone w' c := by
  have hg := hm.grows hs
  have hkind : (s'.cell c).worker = .taskActor ↔ (s.cell c).worker = .taskActor := by
    rw [← kind_taskActor, ← kind_taskActor, hg.kind hc]
  refine ⟨fun hw => ?_, fun hw => ?_⟩
  · have hold := h.1 (hkind.mp hw)
    have hl := hf.lives fun task tablename => hg.not_create hc task tablename
    rcases hl.phase with hp | ⟨hp, -⟩ | ⟨-, hp⟩
    · exact hp.trans hold
    · rw [hold] at hp
      cases hp
    · exact hp
  · obtain ⟨hp, hch⟩ := h.2 fun hw' => hw (hkind.mpr hw')
    have hrun : ∀ l t, ¬ Handles legal s e c l t := fun l t hh => by
      have := hh.running
      rw [hp] at this
      cases this
    constructor
    · rcases hm.phase hs hc with hq | hq
      · exact hq.trans hp
      · exact hq.of_stopped (fun hw' => hw (hkind.mpr hw')) hp
    · rcases hm.children hs hc with ⟨l, t, hh, -⟩ | ⟨d, -, -, -, hd⟩ | hsame
      · exact absurd hh (hrun l t)
      · rw [hd, hch]
        rfl
      · exact hsame.trans hch

/-- **An actor is a child of its parent until it is gone.** -/
theorem Attached.step (h : s.Attached w) (hs : s.Shape) (hm : Moves legal w s e s' he)
    (hf : Follows w he w') : s'.Attached w' := by
  have hg := hm.grows hs
  intro c h0 hc
  rcases hg.lt_or_eq hc with hlt | ⟨rfl, hn⟩
  · have hpar := hg.parent hlt
    have hplt := (hs.fits c h0 hlt).1.trans hlt
    rcases h c h0 hlt with hi | hgone
    · rcases hm.children hs hplt with ⟨l, t, hh, hch⟩ | ⟨d, rfl, hd, rfl, hch⟩ | hch
      · left
        unfold IsChild
        rw [hpar, hch]
        rcases Turns.children hh.turns with ⟨-, heq⟩ | ⟨n, props, -, heq⟩
        · rw [heq]
          exact hi
        · rw [heq]
          exact List.mem_cons_of_mem _ hi
      · by_cases hcd : c = d
        · subst hcd
          exact .inr ((gone_of_dead hd).step hs hm hf hlt)
        · left
          unfold IsChild
          rw [hpar, hch]
          obtain ⟨x, hx, hxc⟩ := List.mem_map.mp hi
          exact List.mem_map.mpr ⟨x, List.mem_filter.mpr ⟨hx, by simpa [hxc] using hcd⟩, hxc⟩
      · left
        unfold IsChild
        rw [hpar, hch]
        exact hi
    · exact .inr (hgone.step hs hm hf hlt)
  · left
    obtain ⟨r, l, t, n, props, hh, -, -, hcell⟩ := hm.newborn hs hn
    rcases hm.handles with ⟨r', l', t', hh', -, hs'⟩ | hno
    · obtain ⟨rfl, rfl⟩ := hh.unique hh'
      have hch : (s'.cell r).children = t'.children := by
        rw [hs', hh'.cell_self hs]
        rfl
      have hpar : (s'.cell s.next).parent = r := by rw [hcell]
      unfold IsChild
      rw [hpar, hch]
      rcases Turns.children hh'.turns with ⟨hb, -⟩ | ⟨n', props', -, heq⟩
      · rw [hs'] at hn
        simp [perform, hb, (before_same s e).1] at hn
      · rw [heq]
        exact List.mem_cons_self
    · exact absurd hh (hno r l t)

theorem Attached.tick (h : s.Attached w) : s.tick.Attached w := h

theorem attached_init : System.init.workers.Attached System.init.world := by
  intro c h0 hc
  exact absurd (Nat.lt_one_iff.mp hc) h0

/-- Nobody is below a task actor. -/
theorem Shape.parent_ne_task (h : s.Shape) {c : ℕ} (h0 : c ≠ 0) (hc : c < s.next) :
    (s.cell (s.cell c).parent).worker ≠ .taskActor := by
  intro hw
  obtain ⟨m, -, hfit⟩ := (h.fits c h0 hc).2
  have hk : (s.cell (s.cell c).parent).place.kind = .taskActor := kind_taskActor.mpr hw
  rw [hk] at hfit
  exact hfit

/-- Above an actor that is not gone everyone is a child. -/
theorem Attached.above (h : s.Attached w) (hs : s.Shape) {c : ℕ} (hc : c < s.next)
    (hg : ¬ s.Gone w c) {x : ℕ} (hx : s.Above x c) (h0 : x ≠ 0) : s.IsChild x := by
  have hup : ∀ y, s.Above x y → y < s.next → (y ≠ 0 → s.IsChild y) → s.IsChild x := by
    intro y hy
    induction hy with
    | self => exact fun _ hi => hi h0
    | @step y hy0 _ ih =>
      intro hlt hi
      have hplt := (hs.fits y hy0 hlt).1.trans hlt
      refine ih hplt fun hp0 => (h _ hp0 hplt).resolve_right fun hgone => ?_
      have hmem := hi hy0
      obtain ⟨z, hz, -⟩ := List.mem_map.mp hmem
      rw [(hgone.2 (hs.parent_ne_task hy0 hlt)).2] at hz
      cases hz
  exact hup c hx hc fun hc0 => (h c hc0 hc).resolve_right hg

end

end Workers

/-- In every reachable state. -/
theorem attached_run {legal : String → Bool} {ok : List Event → System → Event → Prop}
    {es : List Event} {s : System} (h : (system legal).Run ok es s) :
    s.workers.Attached s.world := by
  induction h with
  | start => exact Workers.attached_init
  | step h hok hs ih =>
    have hw := wellFormed_run h
    obtain ⟨t, he, hm, hf, ht⟩ := System.step_moves hw.shape.root_ne hs
    rw [ht]
    exact (ih.step hw.shape hm hf).tick

end Clustering.Tree
