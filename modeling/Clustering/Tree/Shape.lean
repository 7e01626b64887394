/-
Clustering.Tree.Shape — what every reachable tree looks like.

An actor is created once, and its class, its group, its name, its
parent and the `AddTask` it was created for never change: they are its
`Place`. `Fits` says which places go below which: distributors below
the `InstanceActor`, nodes with one member below a distributor, nodes
with one member more below a node, and task actors below the node of
their group. `Proper` says which messages reach which place; an
`AddTask` is only ever on the way to the node of its group.

`Shape` is the invariant. It holds in every reachable state, whatever
fails or is restarted.
-/
import Clustering.Tree.Moves

namespace Clustering.Tree

open Actors Clustering.Worker
open Clustering.Handshake (World)

/-! ## Places -/

/-- The class of a worker with what a restart keeps of its fields. -/
inductive Kind where
  | instanceActor
  | distributorActor
  | subWorkerActor (single : Bool) (group : List String) (tablename : String)
  | taskActor
  deriving DecidableEq, Repr

def Worker.kind : Worker → Kind
  | .instanceActor _ => .instanceActor
  | .distributorActor _ => .distributorActor
  | .subWorkerActor single a => .subWorkerActor single a.group a.tablename
  | .taskActor => .taskActor

/-- What never changes about an actor. -/
structure Place where
  kind : Kind
  name : ActorName
  parent : ℕ
  origin : Option AddTask
  deriving DecidableEq, Repr

def Cell.place (c : Cell) : Place := ⟨c.worker.kind, c.name, c.parent, c.origin⟩

/-- The actors the fields of a worker refer to. -/
def Worker.refs : Worker → List ℕ
  | .instanceActor a => a.instances.map (·.ref)
  | .distributorActor a => a.singleInstanceList ++ a.groupInstanceList
  | .subWorkerActor _ a => a.taskActors
  | .taskActor => []

/-- Place `c`, of actor number `ref`, may be below place `p`. -/
def Fits (p : Place) (ref : ℕ) (c : Place) : Prop :=
  ∃ m, c.origin = some m ∧
    match p.kind, c.kind with
    | .instanceActor, .distributorActor => c.name = .named m.instanceId
    | .distributorActor, .subWorkerActor _ g tn =>
        p.name = .named tn ∧ tn = m.instanceId ∧ g <+: m.group ∧
          ∃ x, g = [x] ∧ c.name = .named x
    | .subWorkerActor _ g tn, .subWorkerActor _ g' tn' =>
        tn' = tn ∧ tn = m.instanceId ∧ g' <+: m.group ∧
          ∃ x, g' = g ++ [x] ∧ c.name = .named (mkString "." (g ++ [x]))
    | .subWorkerActor _ g tn, .taskActor =>
        g = m.group ∧ tn = m.instanceId ∧ ∃ method, c.name = .task method ref
    | _, _ => False

/-- A message that may reach place `p`. -/
def Proper (p : Place) : WorkerMessage → Prop
  | .addTask m =>
      match p.kind with
      | .distributorActor => p.name = .named m.instanceId
      | .subWorkerActor _ g tn => g <+: m.group ∧ tn = m.instanceId
      | _ => False
  | .getTask _ => p.kind ≠ .instanceActor
  | .persistAndSuicide _ => p.kind = .taskActor ∨ ∃ single g tn, p.kind = .subWorkerActor single g tn
  | .terminated _ => p.kind ≠ .taskActor
  | _ => False

theorem Fits.not_instance {p c : Place} {d : ℕ} (h : Fits p d c) : c.kind ≠ .instanceActor := by
  intro hc
  obtain ⟨m, -, h⟩ := h
  rw [hc] at h
  cases hp : p.kind <;> simp [hp] at h

/-- Below a node there are nodes and task actors. -/
theorem Fits.of_subWorker {p c : Place} {d : ℕ} {single : Bool} {g : List String} {tn : String}
    (h : Fits p d c) (hp : p.kind = .subWorkerActor single g tn) :
    c.kind = .taskActor ∨ ∃ single g tn, c.kind = .subWorkerActor single g tn := by
  obtain ⟨m, -, h⟩ := h
  rw [hp] at h
  cases hc : c.kind with
  | taskActor => exact .inl rfl
  | subWorkerActor single g tn => exact .inr ⟨_, _, _, rfl⟩
  | _ => simp [hc] at h

/-! ## What a turn says and makes -/

/-- The code sends `m` to `d`. -/
def Turn.Says (t : Turn) (d : ℕ) (m : WorkerMessage) : Prop :=
  .tell d m ∈ t.effects ∨ .forward d m ∈ t.effects

theorem mem_letters {stamp : Stamp} {c : ℕ} {es : List WorkerEffect} {l : Letter} :
    l ∈ es.filterMap (letterTo stamp c) ↔
      l.toStamp = stamp ∧ (.tell c l.msg ∈ es ∨ .forward c l.msg ∈ es) := by
  simp only [List.mem_filterMap]
  constructor
  · rintro ⟨e, he, hl⟩
    cases e <;> simp only [letterTo] at hl <;> try cases hl
    all_goals
      split at hl
      · rename_i hd
        subst hd
        obtain rfl := Option.some.inj hl
        exact ⟨rfl, by simp [he]⟩
      · cases hl
  · obtain ⟨st, m⟩ := l
    rintro ⟨rfl, he | he⟩
    · exact ⟨_, he, by simp [letterTo]⟩
    · exact ⟨_, he, by simp [letterTo]⟩

theorem born_watches {ws : List WorkerEffect} (h : Watches ws) : born ws = none := by
  refine List.findSome?_eq_none_iff.mpr ?_
  intro e he
  obtain ⟨x, rfl⟩ := h e he
  rfl

theorem born_aside {cs : List Child} {rest : List WorkerEffect} (h : Aside cs rest) :
    born rest = none := by
  rcases h with ⟨ls, rfl⟩ | ⟨rfl, -⟩ | ⟨a, rfl⟩
  · refine List.findSome?_eq_none_iff.mpr ?_
    intro e he
    obtain ⟨l, -, rfl⟩ := List.mem_map.mp he
    rfl
  · rfl
  · rfl

theorem born_forwards (ts : List ℕ) (m : WorkerMessage) {rest : List WorkerEffect} :
    born (ts.map (fun x => .forward x m) ++ rest) = born rest := by
  induction ts with
  | nil => rfl
  | cons x ts ih => exact ih

theorem born_tells (cs : List Child) (m : WorkerMessage) :
    born (cs.map fun x => .tell x.ref m) = none := by
  refine List.findSome?_eq_none_iff.mpr ?_
  intro e he
  obtain ⟨x, -, rfl⟩ := List.mem_map.mp he
  rfl

theorem speaks_watches {ws : List WorkerEffect} (h : Watches ws) (d : ℕ)
    (m : WorkerMessage) : ¬ (.tell d m ∈ ws ∨ .forward d m ∈ ws) := by
  rintro (hd | hd)
  · obtain ⟨x, hx⟩ := h _ hd
    cases hx
  · obtain ⟨x, hx⟩ := h _ hd
    cases hx

theorem speaks_aside {cs : List Child} {rest : List WorkerEffect} (h : Aside cs rest)
    (d : ℕ) (m : WorkerMessage) : ¬ (.tell d m ∈ rest ∨ .forward d m ∈ rest) := by
  rcases h with ⟨ls, rfl⟩ | ⟨rfl, -⟩ | ⟨a, rfl⟩ <;> simp

section

variable {legal : String → Bool} {fresh : ℕ} {c : Cell} {m : WorkerMessage} {t : Turn}

/-- Handling a message changes no place. -/
theorem Turns.kind (h : Turns legal fresh c m t) : t.worker.kind = c.worker.kind := by
  cases h with
  | @spawn m n ws hh hc hl he hws hw =>
    show (c.worker.enlist fresh m).kind = _
    cases hcw : c.worker with
    | instanceActor a =>
      simp only [Worker.enlist]
      split <;> rfl
    | _ => rfl
  | place hw hg hl => rw [hw]; rfl
  | @mourn t rest hk hr =>
    show (c.worker.mourn c.children t).kind = _
    cases hcw : c.worker with
    | distributorActor a =>
      simp only [Worker.mourn]
      split <;> rfl
    | _ => rfl
  | cancel hw => rw [hw]; rfl
  | _ => rfl

/-- The fields refer to nobody new but the actor just created. -/
theorem Turns.refs (h : Turns legal fresh c m t) {x : ℕ} (hx : x ∈ t.worker.refs) :
    x ∈ c.worker.refs ∨ x = fresh ∧ (born t.effects).isSome := by
  cases h with
  | @spawn m n ws hh hc hl he hws hw =>
    change x ∈ (c.worker.enlist fresh m).refs at hx
    have hb : (born (.actorOf fresh (.named n) (c.worker.hopProps c.name.text m) ::
        .tell fresh (.addTask m) :: ws)).isSome := rfl
    cases hcw : c.worker with
    | instanceActor a =>
      rw [hcw] at hx
      simp only [Worker.enlist] at hx
      split at hx
      · rcases List.mem_cons.mp hx with rfl | hx
        · exact .inr ⟨rfl, hb⟩
        · exact .inl hx
      · exact .inl hx
    | distributorActor a =>
      rw [hcw] at hx
      cases hs : m.task.singleInstance <;>
        simp only [Worker.enlist, DistributorActor.enlist, hs, if_true, if_false, Worker.refs,
          Bool.false_eq_true, List.mem_append, List.mem_cons] at hx ⊢
      · rcases hx with hx | rfl | hx
        · exact .inl (.inl hx)
        · exact .inr ⟨rfl, hb⟩
        · exact .inl (.inr hx)
      · rcases hx with (rfl | hx) | hx
        · exact .inr ⟨rfl, hb⟩
        · exact .inl (.inl hx)
        · exact .inl (.inr hx)
    | subWorkerActor single a =>
      rw [hcw] at hx
      exact .inl hx
    | taskActor =>
      rw [hcw] at hx
      exact .inl hx
  | place hw hg hl =>
    rw [hw]
    rcases List.mem_cons.mp hx with rfl | hx
    · exact .inr ⟨rfl, rfl⟩
    · exact .inl hx
  | @mourn t rest hk hr =>
    change x ∈ (c.worker.mourn c.children t).refs at hx
    left
    cases hcw : c.worker with
    | instanceActor a =>
      rw [hcw] at hx
      obtain ⟨i, hi, rfl⟩ := List.mem_map.mp hx
      exact List.mem_map_of_mem (List.mem_of_mem_filter hi)
    | distributorActor a =>
      rw [hcw] at hx
      simp only [Worker.mourn] at hx
      split at hx
      · exact hx
      · rcases List.mem_append.mp hx with hx | hx
        · exact List.mem_append_left _ (List.mem_of_mem_filter hx)
        · exact List.mem_append_right _ (List.mem_of_mem_filter hx)
    | subWorkerActor single a =>
      rw [hcw] at hx
      exact hx
    | taskActor =>
      rw [hcw] at hx
      exact hx
  | cancel hw => simp [Worker.refs] at hx
  | _ => exact .inl hx

/-- Who gets a `GetTask` is a child or named in the fields. -/
theorem Worker.mem_targets {w : Worker} {cs : List Child} {q : GetTask} {d : ℕ}
    (h : d ∈ w.targets cs q) : d ∈ cs.map (·.ref) ∨ d ∈ w.refs := by
  cases w with
  | instanceActor a =>
    simp only [Worker.targets, Option.mem_toList, Option.map_eq_some_iff] at h
    obtain ⟨i, hi, rfl⟩ := h
    have hi := InstanceActor.firstById_mem hi
    exact .inr (List.mem_map_of_mem (List.mem_of_mem_filter hi))
  | distributorActor a =>
    simp only [Worker.targets, DistributorActor.targets] at h
    split at h
    · cases h
    · split at h
      · exact .inl h
      · right
        unfold DistributorActor.listFor at h
        split at h
        · exact List.mem_append_left _ h
        · exact List.mem_append_right _ h
  | subWorkerActor single a =>
    simp only [Worker.targets, SubWorkerActor.targets] at h
    split at h
    · exact .inl h
    · exact .inr h
  | taskActor => cases h

/-- A worker only passes on the message it handles, to a child, to an
actor in its fields or to the actor it just created. -/
theorem Turns.speaks (h : Turns legal fresh c m t) {d : ℕ} {m' : WorkerMessage}
    (hs : t.Says d m') :
    m' = m ∧ (d ∈ c.children.map (·.ref) ∨ d ∈ c.worker.refs ∨
      d = fresh ∧ (born t.effects).isSome) := by
  unfold Turn.Says at hs
  cases h with
  | @pass m n d' ws hh hc hws =>
    have hs' : d = d' ∧ m' = .addTask m := by
      have hno := speaks_watches hws d m'
      simp only [List.mem_cons, WorkerEffect.tell.injEq, reduceCtorEq, false_or] at hs
      rcases hs with (hs | hs) | hs
      · exact hs
      · exact absurd (.inl hs) hno
      · exact absurd (.inr hs) hno
    obtain ⟨rfl, rfl⟩ := hs'
    exact ⟨rfl, .inl (List.mem_map.mpr ⟨_, childNamed_some hc, rfl⟩)⟩
  | @spawn m n ws hh hc hl he hws hw =>
    have hs' : d = fresh ∧ m' = .addTask m := by
      have hno := speaks_watches hws d m'
      simp only [List.mem_cons, WorkerEffect.tell.injEq, reduceCtorEq, false_or] at hs
      rcases hs with (hs | hs) | hs
      · exact hs
      · exact absurd (.inl hs) hno
      · exact absurd (.inr hs) hno
    obtain ⟨rfl, rfl⟩ := hs'
    exact ⟨rfl, .inr (.inr ⟨rfl, rfl⟩)⟩
  | place hw hg hl => simp at hs
  | refuse hx hm => simp at hs
  | unregistered hw hh hv hc => simp at hs
  | @serve q rest hr =>
    have hno := speaks_aside hr d m'
    have hs' : ∃ x ∈ c.worker.targets c.children q, x = d ∧ .getTask q = m' := by
      rcases hs with hs | hs
      · rcases List.mem_append.mp hs with hs | hs
        · simp at hs
        · exact absurd (.inl hs) hno
      · rcases List.mem_append.mp hs with hs | hs
        · simpa using hs
        · exact absurd (.inr hs) hno
    obtain ⟨x, hx, rfl, rfl⟩ := hs'
    refine ⟨rfl, ?_⟩
    rcases Worker.mem_targets hx with hx | hx
    · exact .inl hx
    · exact .inr (.inl hx)
  | mourn hk hr => exact absurd hs (speaks_aside hr d m')
  | unknown hw hk => simp at hs
  | @cancel reason single a hw =>
    have hs' : ∃ x ∈ c.children, x.ref = d ∧ .persistAndSuicide reason = m' := by
      rcases hs with hs | hs
      · simpa using hs
      · simp at hs
    obtain ⟨x, hx, rfl, rfl⟩ := hs'
    exact ⟨rfl, .inl (List.mem_map_of_mem hx)⟩
  | ignore hr hm hq ht hp => exact absurd hs (speaks_aside hr d m')

/-- One child more, if an actor is created. -/
theorem Turns.children (h : Turns legal fresh c m t) :
    born t.effects = none ∧ t.children = c.children ∨
      ∃ n props, born t.effects = some (fresh, n, props) ∧
        t.children = ⟨n, fresh⟩ :: c.children := by
  cases h with
  | pass hh hc hws =>
    have hb := born_watches hws
    exact .inl ⟨hb, rfl⟩
  | spawn hh hc hl he hws hw => exact .inr ⟨_, _, rfl, rfl⟩
  | place hw hg hl => exact .inr ⟨_, _, rfl, rfl⟩
  | refuse hx hm => exact .inl ⟨rfl, rfl⟩
  | unregistered hw hh hv hc => exact .inr ⟨_, _, rfl, rfl⟩
  | serve hr =>
    refine .inl ⟨?_, rfl⟩
    rw [born_forwards]
    exact born_aside hr
  | mourn hk hr => exact .inl ⟨born_aside hr, rfl⟩
  | unknown hw hk => exact .inl ⟨rfl, rfl⟩
  | cancel hw => exact .inl ⟨born_tells _ _, rfl⟩
  | ignore hr hm hq ht hp => exact .inl ⟨born_aside hr, rfl⟩

/-- The mailbox is not looked at. -/
theorem Turns.mailbox (h : Turns legal fresh c m t) (ls : List Letter) :
    Turns legal fresh { c with mailbox := ls } m t := by
  cases h with
  | pass hh hc hws => exact .pass hh hc hws
  | spawn hh hc hl he hws hw => exact .spawn hh hc hl he hws hw
  | place hw hg hl => exact .place hw hg hl
  | refuse hx hm => exact .refuse hx hm
  | unregistered hw hh hv hc => exact .unregistered hw hh hv hc
  | serve hr => exact .serve hr
  | mourn hk hr => exact .mourn hk hr
  | unknown hw hk => exact .unknown hw hk
  | cancel hw => exact .cancel hw
  | ignore hr hm hq ht hp => exact .ignore hr hm hq ht hp

/-- Handlers raise no result exceptions. -/
theorem Turns.raised (h : Turns legal fresh c m t) {x : Throwable} (hx : t.raised = some x) :
    ¬ x.IsResult := by
  cases h with
  | refuse hr hm =>
    obtain rfl := Option.some.inj hx
    exact hr
  | unregistered hw hh hv hc =>
    obtain rfl := Option.some.inj hx
    simp [Throwable.IsResult]
  | unknown hw hk =>
    obtain rfl := Option.some.inj hx
    simp [Throwable.IsResult]
  | _ => cases hx

end

/-! ## The cells after a turn -/

namespace Workers

variable {s : Workers} {r about : ℕ} {stamp : Stamp} {origin : Option AddTask} {t : Turn}

/-- The letters a turn of `r` sends to `c`. -/
def sent (s : Workers) (r : ℕ) (stamp : Stamp) (t : Turn) (c : ℕ) : List Letter :=
  t.effects.filterMap (letterTo { stamp with hops := ⟨r, s.clock⟩ :: stamp.hops } c)

theorem mem_sent {c : ℕ} {l : Letter} :
    l ∈ s.sent r stamp t c ↔
      l.toStamp = { stamp with hops := ⟨r, s.clock⟩ :: stamp.hops } ∧ t.Says c l.msg :=
  mem_letters

theorem perform_cell (c : ℕ) : (s.perform r about stamp origin t).cell c =
    { s.acting r origin t c with
      mailbox := (s.acting r origin t c).mailbox ++ s.sent r stamp t c } := rfl

theorem perform_self : (s.perform r about stamp origin t).cell r =
    { s.acted r t with mailbox := (s.cell r).mailbox ++ s.sent r stamp t r } := by
  simp [perform_cell, acting, acted]

theorem perform_other {c : ℕ} (hc : c ≠ r)
    (hb : ∀ f n props, born t.effects = some (f, n, props) → c ≠ f) :
    (s.perform r about stamp origin t).cell c =
      { s.cell c with mailbox := (s.cell c).mailbox ++ s.sent r stamp t c } := by
  have hact : s.acting r origin t c = s.cell c := by
    unfold acting
    rw [if_neg hc]
    split
    · rename_i f n props hbo
      rw [if_neg (hb f n props hbo)]
    · rfl
  rw [perform_cell, hact]

theorem perform_born {f : ℕ} {n : ActorName} {props : Props} (hf : f ≠ r)
    (hb : born t.effects = some (f, n, props)) :
    (s.perform r about stamp origin t).cell f =
      ⟨.new props, n, r, origin, [], [], s.sent r stamp t f, .running⟩ := by
  have hact : s.acting r origin t f = ⟨.new props, n, r, origin, [], [], [], .running⟩ := by
    unfold acting
    rw [if_neg hf, hb]
    simp
  rw [perform_cell, hact]
  rfl

/-! ## The invariant -/

/-- Every reachable tree is so. -/
structure Shape (s : Workers) : Prop where
  root : 0 < s.next ∧ (s.cell 0).worker.kind = .instanceActor
  unused : ∀ c, s.next ≤ c →
    (s.cell c).phase = .absent ∧ (s.cell c).mailbox = [] ∧ (s.cell c).children = []
  fits : ∀ c, c ≠ 0 → c < s.next →
    (s.cell c).parent < c ∧ Fits (s.cell (s.cell c).parent).place c (s.cell c).place
  child : ∀ p, ∀ x ∈ (s.cell p).children, x.ref ≠ 0 ∧ x.ref < s.next ∧
    (s.cell x.ref).parent = p ∧ (s.cell x.ref).name = x.name
  refs : ∀ p, ∀ x ∈ (s.cell p).worker.refs, x ≠ 0 ∧ x < s.next ∧ (s.cell x).parent = p
  tasks : ∀ p single a, (s.cell p).worker = .subWorkerActor single a →
    ∀ x ∈ a.taskActors, (s.cell x).worker.kind = .taskActor
  mail : ∀ c, ∀ l ∈ (s.cell c).mailbox, Proper (s.cell c).place l.msg
  failed : ∀ c x, (s.cell c).phase = .failed x → ¬ x.IsResult

/-- A turn of `r` that keeps the tree in shape. -/
structure Sound (s : Workers) (r : ℕ) (origin : Option AddTask) (t : Turn) : Prop where
  kind : t.worker.kind = (s.cell r).worker.kind
  refs : ∀ x ∈ t.worker.refs, x ∈ (s.cell r).worker.refs ∨ x = s.next ∧ (born t.effects).isSome
  tasks : ∀ single a, t.worker = .subWorkerActor single a → s.next ∈ a.taskActors →
    ∃ n task tn, born t.effects = some (s.next, n, .taskActor task tn)
  children : born t.effects = none ∧ (∀ x ∈ t.children, x ∈ (s.cell r).children) ∨
    ∃ n props, born t.effects = some (s.next, n, props) ∧
      t.children = ⟨n, s.next⟩ :: (s.cell r).children ∧
      Fits (s.cell r).place s.next ⟨(Worker.new props).kind, n, r, origin⟩
  speaks : ∀ d m, t.Says d m →
    (d < s.next ∧ Proper (s.cell d).place m) ∨
      ∃ n props, d = s.next ∧ born t.effects = some (s.next, n, props) ∧
        Proper ⟨(Worker.new props).kind, n, r, origin⟩ m
  raised : ∀ x, t.raised = some x → ¬ x.IsResult

/-- Of an actor that exists, a turn changes no place. -/
theorem Sound.place (ht : s.Sound r origin t) {c : ℕ} (hc : c < s.next) :
    ((s.perform r about stamp origin t).cell c).place = (s.cell c).place := by
  by_cases hcr : c = r
  · subst hcr
    rw [perform_self]
    show Place.mk t.worker.kind _ _ _ = _
    rw [ht.kind]
    rfl
  · rw [perform_other hcr]
    · rfl
    · intro f n props hb
      rcases ht.children with ⟨hn, -⟩ | ⟨n', props', hn, -, -⟩
      · rw [hn] at hb
        cases hb
      · rw [hn] at hb
        cases hb
        exact Nat.ne_of_lt hc

theorem Sound.next (ht : s.Sound r origin t) :
    (s.perform r about stamp origin t).next = s.next ∧ born t.effects = none ∨
      ∃ n props, (s.perform r about stamp origin t).next = s.next + 1 ∧
        born t.effects = some (s.next, n, props) ∧
        t.children = ⟨n, s.next⟩ :: (s.cell r).children ∧
        Fits (s.cell r).place s.next ⟨(Worker.new props).kind, n, r, origin⟩ := by
  rcases ht.children with ⟨hn, -⟩ | ⟨n, props, hn, hch, hfit⟩
  · exact .inl ⟨by simp [perform, hn], hn⟩
  · exact .inr ⟨n, props, by simp [perform, hn], hn, hch, hfit⟩

theorem Sound.le_next (ht : s.Sound r origin t) :
    s.next ≤ (s.perform r about stamp origin t).next := by
  have hn : (s.perform r about stamp origin t).next = s.next ∧ _ ∨ _ := ht.next
  rcases hn with ⟨hn, -⟩ | ⟨n, props, hn, -⟩ <;> omega

/-- **A sound turn keeps the shape.** -/
theorem Shape.perform (h : s.Shape) (hr : r < s.next) (ht : s.Sound r origin t) :
    (s.perform r about stamp origin t).Shape := by
  have hplace : ∀ c, c < s.next →
      ((s.perform r about stamp origin t).cell c).place = (s.cell c).place :=
    fun c hc => ht.place hc
  have hkind : ∀ c, c < s.next → ((s.perform r about stamp origin t).cell c).worker.kind =
      (s.cell c).worker.kind := fun c hc => congrArg Place.kind (hplace c hc)
  have hparent : ∀ c, c < s.next → ((s.perform r about stamp origin t).cell c).parent =
      (s.cell c).parent := fun c hc => congrArg Place.parent (hplace c hc)
  have hname : ∀ c, c < s.next → ((s.perform r about stamp origin t).cell c).name =
      (s.cell c).name := fun c hc => congrArg Place.name (hplace c hc)
  have hr' : r ≠ s.next := Nat.ne_of_lt hr
  have hroot : 0 < s.next := h.root.1
  have hnext : (s.perform r about stamp origin t).next = s.next ∧ born t.effects = none ∨
      ∃ n props, (s.perform r about stamp origin t).next = s.next + 1 ∧
        born t.effects = some (s.next, n, props) ∧
        t.children = ⟨n, s.next⟩ :: (s.cell r).children ∧
        Fits (s.cell r).place s.next ⟨(Worker.new props).kind, n, r, origin⟩ := ht.next
  -- the cell of an actor that is created now
  have hnew : ∀ n props, born t.effects = some (s.next, n, props) →
      (s.perform r about stamp origin t).cell s.next =
        ⟨.new props, n, r, origin, [], [], s.sent r stamp t s.next, .running⟩ :=
    fun n props hb => perform_born (Ne.symm hr') hb
  -- the other cells
  have hold : ∀ c, c ≠ r → (c < s.next ∨ born t.effects = none ∨
      (s.perform r about stamp origin t).next ≤ c) →
      (s.perform r about stamp origin t).cell c =
        { s.cell c with mailbox := (s.cell c).mailbox ++ s.sent r stamp t c } := by
    intro c hcr hc
    refine perform_other hcr ?_
    intro f n props hb
    rcases hnext with ⟨-, hn⟩ | ⟨n', props', hn', hn, -, -⟩
    · rw [hn] at hb
      cases hb
    · rw [hn] at hb
      cases hb
      rcases hc with hc | hc | hc
      · exact Nat.ne_of_lt hc
      · rw [hn] at hc
        cases hc
      · rw [hn'] at hc
        exact fun he => by omega
  have hlt : s.next ≤ (s.perform r about stamp origin t).next := ht.le_next
  have hcases : ∀ c, c < (s.perform r about stamp origin t).next →
      c < s.next ∨ c = s.next ∧ ∃ n props, born t.effects = some (s.next, n, props) ∧
        t.children = ⟨n, s.next⟩ :: (s.cell r).children ∧
        Fits (s.cell r).place s.next ⟨(Worker.new props).kind, n, r, origin⟩ := by
    intro c hc
    rcases hnext with ⟨hn, -⟩ | ⟨n, props, hn, hb, hch, hfit⟩
    · left
      omega
    · rw [hn] at hc
      rcases Nat.lt_succ_iff_lt_or_eq.mp hc with hc | hc
      · exact .inl hc
      · exact .inr ⟨hc, n, props, hb, hch, hfit⟩
  constructor
  · exact ⟨Nat.lt_of_lt_of_le h.root.1 hlt, (hkind 0 h.root.1).trans h.root.2⟩
  · intro c hc
    have hcr : c ≠ r := by omega
    obtain ⟨h1, h2, h3⟩ := h.unused c (Nat.le_trans hlt hc)
    rw [hold c hcr (.inr (.inr hc))]
    refine ⟨h1, ?_, h3⟩
    -- nobody writes to it
    have hnil : s.sent r stamp t c = [] := by
      refine List.eq_nil_iff_forall_not_mem.mpr ?_
      intro l hl
      rcases ht.speaks c l.msg (mem_sent.mp hl).2 with ⟨hlt', -⟩ | ⟨n, props, rfl, hb, -⟩
      · omega
      · rcases hnext with ⟨-, hn⟩ | ⟨-, -, hn, -⟩
        · rw [hn] at hb
          cases hb
        · omega
    show (s.cell c).mailbox ++ s.sent r stamp t c = []
    rw [h2, hnil]
    rfl
  · intro c hc0 hc
    rcases hcases c hc with hc | ⟨rfl, n, props, hb, -, hfit⟩
    · obtain ⟨hp, hf⟩ := h.fits c hc0 hc
      rw [hparent c hc, hplace c hc, hplace _ (Nat.lt_trans hp hc)]
      exact ⟨hp, hf⟩
    · rw [hnew n props hb]
      refine ⟨hr, ?_⟩
      show Fits ((s.perform r about stamp origin t).cell r).place s.next _
      rw [hplace r hr]
      exact hfit
  · intro p x hx
    have hchild : x ∈ (s.cell p).children →
        x.ref ≠ 0 ∧ x.ref < (s.perform r about stamp origin t).next ∧
        ((s.perform r about stamp origin t).cell x.ref).parent = p ∧
        ((s.perform r about stamp origin t).cell x.ref).name = x.name := by
      intro hx
      obtain ⟨h0, h1, h2, h3⟩ := h.child p x hx
      exact ⟨h0, Nat.lt_of_lt_of_le h1 hlt, (hparent _ h1).trans h2, (hname _ h1).trans h3⟩
    by_cases hpr : p = r
    · subst hpr
      rw [perform_self] at hx
      change x ∈ t.children at hx
      rcases ht.children with ⟨-, hall⟩ | ⟨n, props, hb, hch, -⟩
      · exact hchild (hall x hx)
      · rw [hch] at hx
        rcases List.mem_cons.mp hx with rfl | hx
        · have hnext : (s.perform p about stamp origin t).next = s.next + 1 := by
            simp [perform, hb]
          rw [hnext, hnew n props hb]
          exact ⟨Nat.ne_of_gt hroot, Nat.lt_succ_self _, rfl, rfl⟩
        · exact hchild hx
    · by_cases hpn : p < s.next ∨ born t.effects = none ∨
        (s.perform r about stamp origin t).next ≤ p
      · rw [hold p hpr hpn] at hx
        exact hchild hx
      · have hlt' : p < (s.perform r about stamp origin t).next := by
          by_contra hcon
          exact hpn (.inr (.inr (Nat.not_lt.mp hcon)))
        rcases hcases p hlt' with hp | ⟨rfl, n, props, hb, -, -⟩
        · exact absurd (.inl hp) hpn
        · rw [hnew n props hb] at hx
          cases hx
  · intro p x hx
    have href : x ∈ (s.cell p).worker.refs → x ≠ 0 ∧
        x < (s.perform r about stamp origin t).next ∧
        ((s.perform r about stamp origin t).cell x).parent = p := by
      intro hx
      obtain ⟨h0, h1, h2⟩ := h.refs p x hx
      exact ⟨h0, Nat.lt_of_lt_of_le h1 hlt, (hparent _ h1).trans h2⟩
    by_cases hpr : p = r
    · subst hpr
      rw [perform_self] at hx
      rcases ht.refs x hx with hx | ⟨rfl, hb⟩
      · exact href hx
      · rcases hnext with ⟨-, hn⟩ | ⟨n, props, hn, hb', -, -⟩
        · rw [hn] at hb
          cases hb
        · rw [hn, hnew n props hb']
          exact ⟨by omega, Nat.lt_succ_self _, rfl⟩
    · by_cases hpn : p < s.next ∨ born t.effects = none ∨
        (s.perform r about stamp origin t).next ≤ p
      · rw [hold p hpr hpn] at hx
        exact href hx
      · have hlt' : p < (s.perform r about stamp origin t).next := by
          by_contra hcon
          exact hpn (.inr (.inr (Nat.not_lt.mp hcon)))
        rcases hcases p hlt' with hp | ⟨rfl, n, props, hb, -, -⟩
        · exact absurd (.inl hp) hpn
        · rw [hnew n props hb] at hx
          cases props <;> cases hx
  · intro p single a hw x hx
    have htask : (∃ a₀, (s.cell p).worker = .subWorkerActor single a₀ ∧ x ∈ a₀.taskActors) →
        ((s.perform r about stamp origin t).cell x).worker.kind = .taskActor := by
      rintro ⟨a₀, hw₀, hx₀⟩
      have hx' : x ∈ (s.cell p).worker.refs := by rw [hw₀]; exact hx₀
      rw [hkind x (h.refs p x hx').2.1]
      exact h.tasks p single a₀ hw₀ x hx₀
    by_cases hpr : p = r
    · subst hpr
      rw [perform_self] at hw
      change t.worker = _ at hw
      have hx' : x ∈ t.worker.refs := by rw [hw]; exact hx
      rcases ht.refs x hx' with hx₀ | ⟨rfl, -⟩
      · have hk := ht.kind
        rw [hw] at hk
        cases hw₀ : (s.cell p).worker with
        | subWorkerActor single₀ a₀ =>
          rw [hw₀] at hk hx₀
          simp only [Worker.kind, Kind.subWorkerActor.injEq] at hk
          obtain ⟨rfl, -, -⟩ := hk
          exact htask ⟨a₀, hw₀, hx₀⟩
        | _ => simp [hw₀, Worker.kind] at hk
      · obtain ⟨n, task, tn, hb⟩ := ht.tasks single a hw hx
        rw [hnew n _ hb]
        rfl
    · by_cases hpn : p < s.next ∨ born t.effects = none ∨
        (s.perform r about stamp origin t).next ≤ p
      · rw [hold p hpr hpn] at hw
        exact htask ⟨a, hw, hx⟩
      · have hlt' : p < (s.perform r about stamp origin t).next := by
          by_contra hcon
          exact hpn (.inr (.inr (Nat.not_lt.mp hcon)))
        rcases hcases p hlt' with hp | ⟨rfl, n, props, hb, -, -⟩
        · exact absurd (.inl hp) hpn
        · rw [hnew n props hb] at hw
          cases props <;> cases hw <;> cases hx
  · intro c l hl
    have hsent : ∀ l ∈ s.sent r stamp t c,
        Proper ((s.perform r about stamp origin t).cell c).place l.msg := by
      intro l hl
      rcases ht.speaks c l.msg (mem_sent.mp hl).2 with ⟨hc, hp⟩ | ⟨n, props, rfl, hb, hp⟩
      · rw [hplace c hc]
        exact hp
      · rw [hnew n props hb]
        exact hp
    by_cases hcn : c = s.next ∧ born t.effects ≠ none
    · obtain ⟨rfl, hb⟩ := hcn
      rcases hnext with ⟨-, hn⟩ | ⟨n, props, -, hb', -, -⟩
      · exact absurd hn hb
      · apply hsent
        rw [hnew n props hb'] at hl
        exact hl
    · have hmail : ((s.perform r about stamp origin t).cell c).mailbox =
          (s.cell c).mailbox ++ s.sent r stamp t c := by
        by_cases hcr : c = r
        · subst hcr
          rw [perform_self]
        · rw [perform_other hcr]
          intro f n props hb hcf
          rcases hnext with ⟨-, hn⟩ | ⟨n', props', -, hb', -, -⟩
          · rw [hn] at hb
            cases hb
          · rw [hb'] at hb
            cases hb
            exact hcn ⟨hcf, by simp [hb']⟩
      rw [hmail] at hl
      rcases List.mem_append.mp hl with hl | hl
      · have hc : c < s.next := by
          by_contra hc
          have := (h.unused c (Nat.not_lt.mp hc)).2.1
          rw [this] at hl
          cases hl
        rw [hplace c hc]
        exact h.mail c l hl
      · exact hsent l hl
  · intro c x hx
    by_cases hcr : c = r
    · subst hcr
      rw [perform_self] at hx
      simp only [acted] at hx
      split at hx
      · rename_i y hy
        exact ht.raised x (Phase.failed.inj hx ▸ hy)
      · split at hx
        · cases hx
        · exact h.failed c x hx
    · by_cases hcn : ∀ f n props, born t.effects = some (f, n, props) → c ≠ f
      · rw [perform_other hcr hcn] at hx
        exact h.failed c x hx
      · push Not at hcn
        obtain ⟨f, n, props, hb, rfl⟩ := hcn
        rw [perform_born hcr hb] at hx
        cases hx

/-! ## Turns are sound -/

/-- A child that is not named like a task actor is none. -/
theorem Shape.below (h : s.Shape) {r d : ℕ} {n : ActorName} (hd : ⟨n, d⟩ ∈ (s.cell r).children) :
    d < s.next ∧ (s.cell d).name = n ∧ Fits (s.cell r).place d (s.cell d).place := by
  obtain ⟨h0, h1, h2, h3⟩ := h.child r _ hd
  have hf := (h.fits d h0 h1).2
  rw [h2] at hf
  exact ⟨h1, h3, hf⟩

/-- An actor of the fields is below, too. -/
theorem Shape.ref_below (h : s.Shape) {r d : ℕ} (hd : d ∈ (s.cell r).worker.refs) :
    d < s.next ∧ Fits (s.cell r).place d (s.cell d).place := by
  obtain ⟨h0, h1, h2⟩ := h.refs r _ hd
  have hf := (h.fits d h0 h1).2
  rw [h2] at hf
  exact ⟨h1, hf⟩

/-- The next node on the way to the node of a group. -/
theorem nextGroup_of_prefix {g : List String} {m : AddTask} (hg : g <+: m.group)
    (hlt : g.length < m.group.length) :
    ∃ x, SubWorkerActor.nextGroup g.length m = g ++ [x] ∧ g ++ [x] <+: m.group := by
  obtain ⟨rest, hrest⟩ := hg
  cases rest with
  | nil =>
    rw [List.append_nil] at hrest
    rw [hrest] at hlt
    exact absurd hlt (Nat.lt_irrefl _)
  | cons x rest =>
    refine ⟨x, ?_, rest, ?_⟩
    · unfold SubWorkerActor.nextGroup
      rw [← hrest, List.take_length_add_append]
      rfl
    · rw [← hrest, List.append_assoc]
      rfl

/-- What may be handled by `r`: a message that may reach it, or one from
outside at the `InstanceActor`. -/
def Handled (s : Workers) (r : ℕ) (m : WorkerMessage) : Prop :=
  Proper (s.cell r).place m ∨ r = 0 ∧ External m

/-- Below the `InstanceActor` only proper messages are handled. -/
theorem Shape.handled_proper (h : s.Shape) {r : ℕ} {m : WorkerMessage} (hm : s.Handled r m)
    (hk : (s.cell r).worker.kind ≠ .instanceActor) : Proper (s.cell r).place m := by
  rcases hm with hm | ⟨rfl, -⟩
  · exact hm
  · exact absurd h.root.2 hk

/-- An `AddTask` goes on to a child it may reach. -/
theorem Shape.hop_proper (h : s.Shape) {r d : ℕ} {m : AddTask} {n : String}
    (hm : s.Handled r (.addTask m)) (hh : (s.cell r).worker.hop m = some n)
    {c : Place} (hn : c.name = .named n) (hf : Fits (s.cell r).place d c) :
    Proper c (.addTask m) := by
  obtain ⟨m₀, -, hf⟩ := hf
  cases hw : (s.cell r).worker with
  | instanceActor a =>
    have hk : (s.cell r).place.kind = .instanceActor := by simp [Cell.place, hw, Worker.kind]
    rw [hw] at hh
    obtain rfl := Option.some.inj hh
    rw [hk] at hf
    cases hc : c.kind with
    | distributorActor => simpa [Proper, hc] using hn
    | _ => simp [hc] at hf
  | distributorActor a =>
    have hk : (s.cell r).place.kind = .distributorActor := by simp [Cell.place, hw, Worker.kind]
    rw [hw] at hh
    have hname : (s.cell r).place.name = .named m.instanceId := by
      simpa [Proper, hk] using h.handled_proper hm (by simp [hw, Worker.kind])
    rw [hk] at hf
    cases hc : c.kind with
    | subWorkerActor single g tn =>
      simp only [hc] at hf
      obtain ⟨htn, -, -, x, rfl, hx⟩ := hf
      rw [hname] at htn
      rw [hn] at hx
      obtain rfl := ActorName.named.inj hx
      obtain rfl := ActorName.named.inj htn
      obtain ⟨gs, hgs⟩ : ∃ gs, m.group = n :: gs := List.head?_eq_some_iff.mp hh
      simp only [Proper, hc]
      exact ⟨⟨gs, by rw [hgs]; rfl⟩, trivial⟩
    | _ => simp [hc] at hf
  | subWorkerActor single a =>
    have hk : (s.cell r).place.kind = .subWorkerActor single a.group a.tablename := by
      simp [Cell.place, hw, Worker.kind]
    rw [hw] at hh
    have hprop : a.group <+: m.group ∧ a.tablename = m.instanceId := by
      simpa [Proper, hk] using h.handled_proper hm (by simp [hw, Worker.kind])
    simp only [Worker.hop] at hh
    split at hh
    · rename_i hlt
      obtain ⟨y, hy, hpre⟩ := nextGroup_of_prefix hprop.1 hlt
      rw [hy] at hh
      have hh := Option.some.inj hh
      rw [hk] at hf
      cases hc : c.kind with
      | subWorkerActor single' g tn =>
        simp only [hc] at hf
        obtain ⟨htn, -, -, x, hgx, hx⟩ := hf
        rw [hn, ← hh] at hx
        obtain rfl := mkString_append_inj (ActorName.named.inj hx)
        simp only [Proper, hc]
        exact ⟨hgx ▸ hpre, htn.trans hprop.2⟩
      | taskActor =>
        simp only [hc] at hf
        obtain ⟨-, -, method, hx⟩ := hf
        rw [hn] at hx
        cases hx
      | _ => simp [hc] at hf
    · cases hh
  | taskActor =>
    rw [hw] at hh
    cases hh

/-- The place of a child that an `AddTask` creates on its way. -/
theorem Shape.hop_fits (h : s.Shape) {r : ℕ} {m : AddTask} {n : String} (d : ℕ)
    (hm : s.Handled r (.addTask m)) (hh : (s.cell r).worker.hop m = some n) :
    Fits (s.cell r).place d
      ⟨(Worker.new ((s.cell r).worker.hopProps (s.cell r).name.text m)).kind, .named n, r,
        some m⟩ := by
  refine ⟨m, rfl, ?_⟩
  have hsub : ∀ single g tn, (Worker.new (SubWorkerActor.subProps single g tn)).kind =
      .subWorkerActor single g tn := by
    intro single g tn
    cases single <;> rfl
  cases hw : (s.cell r).worker with
  | instanceActor a =>
    have hk : (s.cell r).place.kind = .instanceActor := by simp [Cell.place, hw, Worker.kind]
    rw [hw] at hh
    obtain rfl := Option.some.inj hh
    simp [hk, Worker.hopProps, Worker.new, Worker.kind]
  | distributorActor a =>
    have hk : (s.cell r).place.kind = .distributorActor := by simp [Cell.place, hw, Worker.kind]
    rw [hw] at hh
    have hname : (s.cell r).name = .named m.instanceId := by
      have hp := h.handled_proper hm (by simp [hw, Worker.kind])
      simp only [Proper, hk] at hp
      exact hp
    obtain ⟨gs, hgs⟩ : ∃ gs, m.group = n :: gs := List.head?_eq_some_iff.mp hh
    have htake : m.group.take 1 = [n] := by rw [hgs]; rfl
    simp only [hk, Worker.hopProps, hsub, htake, hname, ActorName.text]
    exact ⟨hname, trivial, ⟨gs, by rw [hgs]; rfl⟩, n, rfl, rfl⟩
  | subWorkerActor single a =>
    have hk : (s.cell r).place.kind = .subWorkerActor single a.group a.tablename := by
      simp [Cell.place, hw, Worker.kind]
    rw [hw] at hh
    have hprop : a.group <+: m.group ∧ a.tablename = m.instanceId := by
      simpa [Proper, hk] using h.handled_proper hm (by simp [hw, Worker.kind])
    simp only [Worker.hop] at hh
    split at hh
    · rename_i hlt
      obtain ⟨y, hy, hpre⟩ := nextGroup_of_prefix hprop.1 hlt
      rw [hy] at hh
      have hh := Option.some.inj hh
      simp only [hk, Worker.hopProps, hsub, hy]
      exact ⟨trivial, hprop.2, hpre, y, rfl, by rw [hh]⟩
    · cases hh
  | taskActor =>
    rw [hw] at hh
    cases hh

/-- A `GetTask` or a cancellation may reach every child, as far as it may
reach `r`. -/
theorem passes_below {r d : ℕ} {m : WorkerMessage}
    (hf : Fits (s.cell r).place d (s.cell d).place)
    (hm : (∃ q, m = .getTask q) ∨ ∃ reason single a, m = .persistAndSuicide reason ∧
      (s.cell r).worker = .subWorkerActor single a) : Proper (s.cell d).place m := by
  rcases hm with ⟨q, rfl⟩ | ⟨reason, single, a, rfl, hw⟩
  · exact hf.not_instance
  · have hk : (s.cell r).place.kind = .subWorkerActor single a.group a.tablename := by
      simp [Cell.place, hw, Worker.kind]
    exact hf.of_subWorker hk

/-- **What a worker leaves when it handles a message is sound.** -/
theorem Turns.sound {legal : String → Bool} {m : WorkerMessage} (h : s.Shape)
    (hm : s.Handled r m) (ht : Turns legal s.next (s.cell r) m t) :
    s.Sound r m.toAddTask t := by
  have hno : s.next ∉ (s.cell r).worker.refs := fun hx =>
    Nat.lt_irrefl _ (h.refs r _ hx).2.1
  refine ⟨ht.kind, fun x hx => ht.refs hx, ?_, ?_, ?_, fun x hx => ht.raised hx⟩
  · intro single a hw hx
    have hx' : s.next ∈ t.worker.refs := by rw [hw]; exact hx
    cases ht with
    | @place m single' a' hw' hg hl => exact ⟨_, _, _, rfl⟩
    | @spawn m n ws hh hc hl he hws hwf =>
      change (s.cell r).worker.enlist s.next m = _ at hw
      cases hcw : (s.cell r).worker with
      | subWorkerActor single' a' =>
        rw [hcw] at hw
        rw [hcw] at hno
        change Worker.subWorkerActor single' a' = _ at hw
        rw [hw] at hno
        exact absurd hx hno
      | instanceActor a' =>
        rw [hcw] at hw
        simp only [Worker.enlist] at hw
        split at hw <;> cases hw
      | distributorActor a' =>
        rw [hcw] at hw
        cases hw
      | taskActor =>
        rw [hcw] at hw
        cases hw
    | @mourn u rest hk hr =>
      change (s.cell r).worker.mourn (s.cell r).children u = _ at hw
      cases hcw : (s.cell r).worker with
      | subWorkerActor single' a' =>
        rw [hcw] at hw
        rw [hcw] at hno
        change Worker.subWorkerActor single' a' = _ at hw
        rw [hw] at hno
        exact absurd hx hno
      | instanceActor a' =>
        rw [hcw] at hw
        cases hw
      | distributorActor a' =>
        rw [hcw] at hw
        simp only [Worker.mourn] at hw
        split at hw <;> cases hw
      | taskActor =>
        rw [hcw] at hw
        cases hw
    | @cancel reason single' a' hw' =>
      cases hw
      cases hx
    | _ => exact absurd hx' hno
  · cases ht with
    | pass hh hc hws =>
      have hb := born_watches hws
      exact .inl ⟨hb, fun x hx => hx⟩
    | @spawn m n ws hh hc hl he hws hw =>
      exact .inr ⟨_, _, rfl, rfl, h.hop_fits s.next hm hh⟩
    | @place m single a hw hg hl =>
      have hk : (s.cell r).place.kind = .subWorkerActor single a.group a.tablename := by
        simp [Cell.place, hw, Worker.kind]
      have hp := h.handled_proper hm (by simp [hw, Worker.kind])
      simp only [Proper, hk] at hp
      refine .inr ⟨_, _, rfl, rfl, m, rfl, ?_⟩
      simp only [hk, Worker.new, Worker.kind]
      exact ⟨hp.1.eq_of_length_le hg, hp.2, _, rfl⟩
    | refuse hx hr => exact .inl ⟨rfl, fun x hx => hx⟩
    | @unregistered m n a hw hh hv hc =>
      have hf := h.hop_fits s.next hm hh
      simp only [hw, Worker.hopProps] at hf
      exact .inr ⟨_, _, rfl, rfl, hf⟩
    | serve hr =>
      refine .inl ⟨?_, fun x hx => hx⟩
      rw [born_forwards]
      exact born_aside hr
    | mourn hk hr => exact .inl ⟨born_aside hr, fun x hx => hx⟩
    | unknown hw hk => exact .inl ⟨rfl, fun x hx => hx⟩
    | cancel hw => exact .inl ⟨born_tells _ _, fun x hx => hx⟩
    | ignore hr hm' hq ht' hp => exact .inl ⟨born_aside hr, fun x hx => hx⟩
  · intro d m' hd
    obtain ⟨rfl, hwho⟩ := ht.speaks hd
    have hbelow : (d ∈ (s.cell r).children.map (·.ref) ∨ d ∈ (s.cell r).worker.refs) →
        d < s.next ∧ Fits (s.cell r).place d (s.cell d).place := by
      rintro (hx | hx)
      · obtain ⟨x, hx₀, rfl⟩ := List.mem_map.mp hx
        obtain ⟨h1, -, h3⟩ := h.below (n := x.name) hx₀
        exact ⟨h1, h3⟩
      · exact h.ref_below hx
    cases ht with
    | @pass m n d' ws hh hc hws =>
      have hd' : d = d' := by
        rcases hd with hd | hd
        · rcases List.mem_cons.mp hd with hd | hd
          · simpa using hd
          · exact absurd (.inl hd) (speaks_watches hws _ _)
        · rcases List.mem_cons.mp hd with hd | hd
          · cases hd
          · exact absurd (.inr hd) (speaks_watches hws _ _)
      subst hd'
      obtain ⟨h1, h2, h3⟩ := h.below (childNamed_some hc)
      exact .inl ⟨h1, h.hop_proper hm hh h2 h3⟩
    | @spawn m n ws hh hc hl he hws hw =>
      have hd' : d = s.next := by
        rcases hd with hd | hd
        · simp only [List.mem_cons, reduceCtorEq, WorkerEffect.tell.injEq, false_or] at hd
          rcases hd with hd | hd
          · exact hd.1
          · exact absurd (.inl hd) (speaks_watches hws _ _)
        · simp only [List.mem_cons, reduceCtorEq, false_or] at hd
          exact absurd (.inr hd) (speaks_watches hws _ _)
      subst hd'
      exact .inr ⟨_, _, rfl, rfl, h.hop_proper hm hh rfl (h.hop_fits s.next hm hh)⟩
    | @serve q rest hr =>
      rcases hwho with hwho | hwho | ⟨-, hb⟩
      · obtain ⟨h1, h2⟩ := hbelow (.inl hwho)
        exact .inl ⟨h1, passes_below h2 (.inl ⟨_, rfl⟩)⟩
      · obtain ⟨h1, h2⟩ := hbelow (.inr hwho)
        exact .inl ⟨h1, passes_below h2 (.inl ⟨_, rfl⟩)⟩
      · rw [born_forwards, born_aside hr] at hb
        cases hb
    | @cancel reason single a hw =>
      rcases hwho with hwho | hwho | ⟨-, hb⟩
      · obtain ⟨h1, h2⟩ := hbelow (.inl hwho)
        exact .inl ⟨h1, passes_below h2 (.inr ⟨_, _, _, rfl, hw⟩)⟩
      · obtain ⟨h1, h2⟩ := hbelow (.inr hwho)
        exact .inl ⟨h1, passes_below h2 (.inr ⟨_, _, _, rfl, hw⟩)⟩
      · rw [born_tells] at hb
        cases hb
    | place hw hg hl => simp [Turn.Says] at hd
    | refuse hx hr => simp [Turn.Says] at hd
    | unregistered hw hh hv hc => simp [Turn.Says] at hd
    | mourn hk hr => exact absurd hd (speaks_aside hr _ _)
    | unknown hw hk => simp [Turn.Says] at hd
    | ignore hr hm' hq ht' hp => exact absurd hd (speaks_aside hr _ _)

/-! ## Steps -/

/-- What a change without new actors and with nothing but proper letters
leaves. -/
structure Keeps (s s' : Workers) : Prop where
  next : s'.next = s.next
  place : ∀ c, (s'.cell c).place = (s.cell c).place
  phase : ∀ c, s.next ≤ c → (s'.cell c).phase = (s.cell c).phase
  children : ∀ c, ∀ x ∈ (s'.cell c).children, x ∈ (s.cell c).children
  refs : ∀ c, ∀ x ∈ (s'.cell c).worker.refs, x ∈ (s.cell c).worker.refs
  mail : ∀ c, ∀ l ∈ (s'.cell c).mailbox, l ∈ (s.cell c).mailbox ∨
    c < s.next ∧ Proper (s.cell c).place l.msg
  failed : ∀ c x, (s'.cell c).phase = .failed x → (s.cell c).phase = .failed x ∨ ¬ x.IsResult

theorem Shape.keeps {s' : Workers} (h : s.Shape) (hk : s.Keeps s') : s'.Shape := by
  have hkind : ∀ c, (s'.cell c).worker.kind = (s.cell c).worker.kind :=
    fun c => congrArg Place.kind (hk.place c)
  have hparent : ∀ c, (s'.cell c).parent = (s.cell c).parent :=
    fun c => congrArg Place.parent (hk.place c)
  have hname : ∀ c, (s'.cell c).name = (s.cell c).name :=
    fun c => congrArg Place.name (hk.place c)
  constructor
  · rw [hk.next, hkind]
    exact h.root
  · intro c hc
    rw [hk.next] at hc
    obtain ⟨h1, h2, h3⟩ := h.unused c hc
    refine ⟨(hk.phase c hc).trans h1, ?_, ?_⟩
    · refine List.eq_nil_iff_forall_not_mem.mpr ?_
      intro l hl
      rcases hk.mail c l hl with hl | ⟨hlt, -⟩
      · rw [h2] at hl
        cases hl
      · omega
    · refine List.eq_nil_iff_forall_not_mem.mpr ?_
      intro x hx
      have hx := hk.children c x hx
      rw [h3] at hx
      cases hx
  · intro c h0 hc
    rw [hk.next] at hc
    rw [hparent, hk.place, hk.place]
    exact h.fits c h0 hc
  · intro p x hx
    rw [hk.next, hparent, hname]
    exact h.child p x (hk.children p x hx)
  · intro p x hx
    rw [hk.next, hparent]
    exact h.refs p x (hk.refs p x hx)
  · intro p single a hw x hx
    rw [hkind]
    have hx' : x ∈ (s.cell p).worker.refs := hk.refs p x (by rw [hw]; exact hx)
    have hkp := hkind p
    rw [hw] at hkp
    cases hwp : (s.cell p).worker with
    | subWorkerActor single' a' =>
      rw [hwp] at hx'
      exact h.tasks p single' a' hwp x hx'
    | _ => simp [hwp, Worker.kind] at hkp
  · intro c l hl
    rw [hk.place]
    rcases hk.mail c l hl with hl | ⟨-, hp⟩
    · exact h.mail c l hl
    · exact hp
  · intro c x hx
    rcases hk.failed c x hx with hx | hx
    · exact h.failed c x hx
    · exact hx

theorem keeps_refl (s : Workers) : s.Keeps s :=
  ⟨rfl, fun _ => rfl, fun _ _ => rfl, fun _ _ hx => hx, fun _ _ hx => hx,
    fun _ _ hl => .inl hl, fun _ _ hx => .inl hx⟩

/-- One actor changes. -/
theorem keeps_updCell {c : ℕ} {f : Cell → Cell} (hc : c < s.next)
    (hp : (f (s.cell c)).place = (s.cell c).place)
    (hch : ∀ x ∈ (f (s.cell c)).children, x ∈ (s.cell c).children)
    (hr : ∀ x ∈ (f (s.cell c)).worker.refs, x ∈ (s.cell c).worker.refs)
    (hm : ∀ l ∈ (f (s.cell c)).mailbox, l ∈ (s.cell c).mailbox ∨ Proper (s.cell c).place l.msg)
    (hf : ∀ x, (f (s.cell c)).phase = .failed x → (s.cell c).phase = .failed x ∨ ¬ x.IsResult) :
    s.Keeps (s.updCell c f) := by
  have hcell : ∀ d, d ≠ c → (s.updCell c f).cell d = s.cell d := by
    intro d hd
    simp [hd]
  have hself : (s.updCell c f).cell c = f (s.cell c) := by simp
  refine ⟨rfl, ?_, ?_, ?_, ?_, ?_, ?_⟩
  · intro d
    by_cases hd : d = c
    · subst hd
      rw [hself, hp]
    · rw [hcell d hd]
  · intro d hd
    rw [hcell d (by omega)]
  · intro d x hx
    by_cases hd : d = c
    · subst hd
      rw [hself] at hx
      exact hch x hx
    · rwa [hcell d hd] at hx
  · intro d x hx
    by_cases hd : d = c
    · subst hd
      rw [hself] at hx
      exact hr x hx
    · rwa [hcell d hd] at hx
  · intro d l hl
    by_cases hd : d = c
    · subst hd
      rw [hself] at hl
      exact (hm l hl).imp_right fun hp => ⟨hc, hp⟩
    · rw [hcell d hd] at hl
      exact .inl hl
  · intro d x hx
    by_cases hd : d = c
    · subst hd
      rw [hself] at hx
      exact hf x hx
    · rw [hcell d hd] at hx
      exact .inl hx

theorem pop_self : (s.pop r).cell r = { s.cell r with mailbox := (s.cell r).mailbox.tail } := by
  simp [pop]

theorem turns_pop {legal : String → Bool} {m : WorkerMessage}
    (ht : Turns legal s.next (s.cell r) m t) :
    Turns legal (s.pop r).next ((s.pop r).cell r) m t := by
  rw [pop_self]
  exact ht.mailbox _

theorem keeps_pop (hr : r < s.next) : s.Keeps (s.pop r) :=
  keeps_updCell hr rfl (fun _ hx => hx) (fun _ hx => hx)
    (fun _ hl => .inl (List.mem_of_mem_tail hl)) (fun _ hx => .inl hx)

theorem keeps_fail {x : Throwable} (hr : r < s.next) (hx : ¬ x.IsResult) : s.Keeps (s.fail r x) :=
  keeps_updCell hr rfl (fun _ hx => hx) (fun _ hx => hx) (fun _ hl => .inl hl)
    fun _ hy => .inr (Phase.failed.inj hy ▸ hx)

theorem keeps_restart {c : ℕ} (hc : c < s.next) : s.Keeps (s.restart c) := by
  refine keeps_updCell hc rfl ?_ ?_ ?_ ?_
  · exact fun x hx => hx
  · exact fun x hx => hx
  · exact fun l hl => .inl hl
  · intro x hx
    cases hx

theorem keeps_stopChild {c : ℕ} (hc : c < s.next) : s.Keeps (s.stopChild c).1 := by
  unfold stopChild
  split
  · exact keeps_refl s
  · show s.Keeps (s.updCell c fun x => { x with phase := .stopped })
    refine keeps_updCell hc rfl ?_ ?_ ?_ ?_
    · exact fun x hx => hx
    · exact fun x hx => hx
    · exact fun l hl => .inl hl
    · intro x hx
      cases hx

theorem keeps_recreate (hr : r < s.next) :
    s.Keeps (s.updCell r fun c => { c with worker := c.worker.renew, phase := .running }) := by
  refine keeps_updCell hr ?_ (fun _ hx => hx) ?_ (fun _ hl => .inl hl) ?_
  · show Place.mk (s.cell r).worker.renew.kind _ _ _ = Place.mk (s.cell r).worker.kind _ _ _
    cases (s.cell r).worker <;> rfl
  · intro x hx
    change x ∈ (s.cell r).worker.renew.refs at hx
    cases hw : (s.cell r).worker <;> rw [hw] at hx <;> cases hx
  · intro x hx
    cases hx

theorem keeps_bury {c : ℕ} (h : s.Shape) (hc : s.IsChild c) : s.Keeps (s.bury c) := by
  obtain ⟨x, hx, rfl⟩ := List.mem_map.mp hc
  obtain ⟨h0, h1, h2, h3⟩ := h.child _ x hx
  obtain ⟨hlt, hfit⟩ := h.fits x.ref h0 h1
  refine keeps_updCell (Nat.lt_trans hlt h1) rfl (fun _ hx => List.mem_of_mem_filter hx)
    (fun _ hx => hx) ?_ fun _ hy => .inl hy
  intro l hl
  change l ∈ (if x.ref ∈ (s.cell (s.cell x.ref).parent).watching then
    (s.cell (s.cell x.ref).parent).mailbox ++ [⟨⟨0, s.clock, []⟩, .terminated x.ref⟩]
    else (s.cell (s.cell x.ref).parent).mailbox) at hl
  split at hl
  · rcases List.mem_append.mp hl with hl | hl
    · exact .inl hl
    · obtain rfl := List.mem_singleton.mp hl
      right
      show (s.cell (s.cell x.ref).parent).place.kind ≠ .taskActor
      intro hk
      obtain ⟨m, -, hf⟩ := hfit
      rw [hk] at hf
      exact hf
  · exact .inl hl

/-- The turn of a decider that records a result. -/
theorem sound_verdict (h : s.Shape) {single : Bool} {a : SubWorkerActor} {c : ℕ}
    {cs : List WorkerEffect} (hw : (s.cell r).worker = .subWorkerActor single a)
    (hb : born cs = none)
    (hs : ∀ d m, Turn.Says ⟨.subWorkerActor single (a.forget c), (s.cell r).children, cs, none⟩ d m →
      (∃ reason, m = .persistAndSuicide reason) ∧ d ∈ (s.cell r).children.map (·.ref)) :
    s.Sound r origin ⟨.subWorkerActor single (a.forget c), (s.cell r).children, cs, none⟩ := by
  refine ⟨by rw [hw]; rfl, ?_, ?_, .inl ⟨hb, fun x hx => hx⟩, ?_, fun x hx => by cases hx⟩
  · intro x hx
    rw [hw]
    exact .inl (List.mem_of_mem_filter hx)
  · intro single' a' hw' hx
    cases hw'
    have hx' : s.next ∈ (s.cell r).worker.refs := by
      rw [hw]
      exact List.mem_of_mem_filter hx
    exact absurd (h.refs r _ hx').2.1 (Nat.lt_irrefl _)
  · intro d m hd
    obtain ⟨⟨reason, rfl⟩, hd'⟩ := hs d m hd
    obtain ⟨x, hx, rfl⟩ := List.mem_map.mp hd'
    obtain ⟨h1, -, h3⟩ := h.below (n := x.name) hx
    exact .inl ⟨h1, passes_below h3 (.inr ⟨_, _, _, rfl, hw⟩)⟩

theorem sound_success (h : s.Shape) {single : Bool} {a : SubWorkerActor} {c : ℕ} {m : DBMessage}
    (hw : (s.cell r).worker = .subWorkerActor single a) :
    s.Sound r origin ⟨.subWorkerActor single (a.forget c), (s.cell r).children, [.tellDb m],
      none⟩ :=
  sound_verdict h hw rfl (by simp [Turn.Says])

theorem sound_failure (h : s.Shape) {single : Bool} {a : SubWorkerActor} {c : ℕ} {m : DBMessage}
    {reason : String} (hw : (s.cell r).worker = .subWorkerActor single a) :
    s.Sound r origin ⟨.subWorkerActor single (a.forget c), (s.cell r).children,
      .tellDb m :: (s.cell r).children.map fun x => .tell x.ref (.persistAndSuicide reason),
        none⟩ := by
  refine sound_verdict h hw (born_tells _ _) ?_
  intro d m' hd
  have hd' : ∃ x ∈ (s.cell r).children, x.ref = d ∧ .persistAndSuicide reason = m' := by
    simpa [Turn.Says] using hd
  obtain ⟨x, hx, rfl, rfl⟩ := hd'
  exact ⟨⟨reason, rfl⟩, List.mem_map_of_mem hx⟩

/-- Of a child, the parent and the child exist. -/
theorem Shape.supervised (h : s.Shape) {c : ℕ} (hc : s.IsChild c) :
    c < s.next ∧ (s.cell c).parent < s.next ∧
      Fits (s.cell (s.cell c).parent).place c (s.cell c).place := by
  obtain ⟨x, hx, rfl⟩ := List.mem_map.mp hc
  obtain ⟨h0, h1, h2, h3⟩ := h.child _ x hx
  obtain ⟨hlt, hfit⟩ := h.fits x.ref h0 h1
  exact ⟨h1, Nat.lt_trans hlt h1, hfit⟩

/-- A worker fails with no result exception. -/
theorem Shape.failure (h : s.Shape) {w : World} {c : ℕ} {x : Throwable}
    (hf : s.failure w c = some x) (hk : (s.cell c).worker.kind ≠ .taskActor) : ¬ x.IsResult := by
  have hphase : (s.cell c).phase = .failed x := by
    unfold Workers.failure at hf
    cases hw : (s.cell c).worker with
    | taskActor => exact absurd (by rw [hw]; rfl) hk
    | _ =>
      rw [hw] at hf
      simp only at hf
      split at hf
      · rename_i y hy
        cases hf
        exact hy
      · cases hf
  exact h.failed c x hphase

/-- A worker that fails because of its child fails with no result
exception: those stop at the nodes. -/
theorem Shape.judged (h : s.Shape) {w : World} {c : ℕ} {x x' : Throwable}
    (hf : s.failure w c = some x) (hc : s.IsChild c)
    (hx : (∃ single a, (s.cell (s.cell c).parent).worker = .subWorkerActor single a) ∧
        (¬ x.IsResult ∧ x' = x ∨ (∃ task, x = .testFail task none) ∧ x' = .nullPointer) ∨
      (∀ single a, (s.cell (s.cell c).parent).worker ≠ .subWorkerActor single a) ∧
        x.IsResult ∧ x' = x) : ¬ x'.IsResult := by
  obtain ⟨h1, h2, h3⟩ := h.supervised hc
  rcases hx with ⟨hsub, ⟨hx, rfl⟩ | ⟨-, rfl⟩⟩ | ⟨hsub, hx, rfl⟩
  · exact hx
  · simp [Throwable.IsResult]
  · refine absurd hx (h.failure hf ?_)
    -- a task actor is below a node only
    intro hk
    obtain ⟨m, -, h3⟩ := h3
    have hk' : (s.cell c).place.kind = .taskActor := hk
    rw [hk'] at h3
    cases hwp : (s.cell (s.cell c).parent).worker with
    | subWorkerActor single a => exact hsub single a hwp
    | _ => simp [Cell.place, hwp, Worker.kind] at h3

theorem Shape.lt_of_phase (h : s.Shape) {c : ℕ} (hp : (s.cell c).phase ≠ .absent) :
    c < s.next := by
  by_contra hc
  exact hp (h.unused c (Nat.not_lt.mp hc)).1

theorem note_cell (msg : WorkerMessage) : (s.note msg).cell = s.cell ∧
    (s.note msg).next = s.next ∧ (s.note msg).clock = s.clock := by
  cases msg <;> exact ⟨rfl, rfl, rfl⟩

theorem Shape.note (h : s.Shape) (msg : WorkerMessage) : (s.note msg).Shape := by
  have hn := note_cell (s := s) msg
  constructor <;> rw [hn.1] <;> try rw [hn.2.1]
  · exact h.root
  · exact h.unused
  · exact h.fits
  · exact h.child
  · exact h.refs
  · exact h.tasks
  · exact h.mail
  · exact h.failed

/-- What exists has mail. -/
theorem Shape.lt_of_mem (h : s.Shape) {l : Letter} (hl : l ∈ (s.cell r).mailbox) :
    r < s.next := by
  by_contra hr
  rw [(h.unused r (Nat.not_lt.mp hr)).2.1] at hl
  cases hl

theorem Shape.lt_of_mail (h : s.Shape) {l : Letter} (hl : (s.cell r).mailbox.head? = some l) :
    r < s.next := h.lt_of_mem (List.mem_of_head? hl)

/-- The letter taken is one that may be handled, also after it is gone
from the mailbox. -/
theorem Shape.handled_pop (h : s.Shape) {l : Letter} (hl : (s.cell r).mailbox.head? = some l) :
    (s.pop r).Handled r l.msg := by
  left
  rw [(keeps_pop (h.lt_of_mail hl)).place]
  exact h.mail r l (List.mem_of_head? hl)

/-- A verdict, and the child is told to stop. -/
theorem Shape.stopChild_perform (h : s.Shape) {c : ℕ} (hc : c < s.next) (hr : r < s.next)
    (ht : s.Sound r origin t) : ((s.perform r about stamp origin t).stopChild c).1.Shape := by
  have hp : (s.perform r about stamp origin t).Shape := h.perform hr ht
  exact hp.keeps (keeps_stopChild (Nat.lt_of_lt_of_le hc ht.le_next))

/-- **Every step keeps the shape.** -/
theorem Moves.shape {legal : String → Bool} {w : World} {e : Event} {s' : Workers}
    {he : Option Handshake.Event} (h : s.Shape) (hm : Moves legal w s e s' he) : s'.Shape := by
  cases hm with
  | @input v msg t hp hext hw ht =>
    have hn := note_cell (s := s) msg
    have ht' : Turns legal (s.note msg).next ((s.note msg).cell 0) msg t := by
      rw [hn.1, hn.2.1]
      exact ht
    exact (h.note msg).perform (by rw [hn.2.1]; exact h.root.1)
      (Turns.sound (h.note msg) (.inr ⟨rfl, hext⟩) ht')
  | @takes r l t hl hp hw ht =>
    have hr := h.lt_of_mail hl
    have hpop := h.keeps (keeps_pop hr)
    exact hpop.perform hr (Turns.sound hpop (h.handled_pop hl) (turns_pop ht))
  | taskTakes hl hw hp => exact h.keeps (keeps_pop (h.lt_of_mail hl))
  | @judgeSuccess c task res single a hf hc hw s' he hs =>
    obtain ⟨h1, h2, -⟩ := h.supervised hc.child
    rw [Prod.eq_iff_fst_eq_snd_eq] at hs
    obtain ⟨rfl, -⟩ := hs
    exact h.stopChild_perform h1 h2 (sound_success h hw)
  | @judgeFailure c task res single a hf hc hw s' he hs =>
    obtain ⟨h1, h2, -⟩ := h.supervised hc.child
    rw [Prod.eq_iff_fst_eq_snd_eq] at hs
    obtain ⟨rfl, -⟩ := hs
    exact h.stopChild_perform h1 h2 (sound_failure h hw)
  | judgeFails hf hc hx =>
    exact h.keeps (keeps_fail (h.supervised hc.child).2.1 (h.judged hf hc.child hx))
  | judgeRestarts hf hc hw hx => exact h.keeps (keeps_restart (h.supervised hc.child).1)
  | guardian hf => exact h.keeps (keeps_restart h.root.1)
  | stops hr hc hp hs =>
    rw [Prod.eq_iff_fst_eq_snd_eq] at hs
    obtain ⟨rfl, -⟩ := hs
    exact h.keeps (keeps_stopChild (h.supervised hc).1)
  | terminates hr hc hd => exact h.keeps (keeps_bury h hc)
  | recreate hp hc => exact h.keeps (keeps_recreate (h.lt_of_phase (by simp [hp])))
  | execute => exact h
  | handshake hi => exact h

/-! ## Runs -/

theorem shape_init : System.init.workers.Shape := by
  constructor
  · exact ⟨Nat.one_pos, rfl⟩
  · intro c hc
    have hc : c ≠ 0 := Nat.ne_of_gt hc
    simp [System.init, hc]
  · intro c h0 hc
    exact absurd (Nat.lt_one_iff.mp hc) h0
  · intro p x hx
    by_cases hp : p = 0 <;> simp [System.init, hp] at hx
  · intro p x hx
    by_cases hp : p = 0 <;> simp [System.init, hp, Worker.refs, InstanceActor.new] at hx
  · intro p single a hw
    by_cases hp : p = 0 <;> simp [System.init, hp] at hw
  · intro c l hl
    by_cases hc : c = 0 <;> simp [System.init, hc] at hl
  · intro c x hx
    by_cases hc : c = 0 <;> simp [System.init, hc] at hx

theorem Shape.tick (h : s.Shape) : s.tick.Shape :=
  ⟨h.root, h.unused, h.fits, h.child, h.refs, h.tasks, h.mail, h.failed⟩

theorem Shape.instanceActor (h : s.Shape) : ∃ a, (s.cell 0).worker = .instanceActor a := by
  have hk := h.root.2
  cases hw : (s.cell 0).worker with
  | instanceActor a => exact ⟨a, rfl⟩
  | _ =>
    rw [hw] at hk
    cases hk

theorem Shape.root_ne (h : s.Shape) : (s.cell 0).worker ≠ .taskActor := by
  intro hw
  have hk := h.root.2
  rw [hw] at hk
  cases hk

end Workers

end Clustering.Tree
