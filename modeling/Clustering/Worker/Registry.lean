/-
Clustering.Worker.Registry — the bookkeeping of the `InstanceActor` over
whole runs.

Three records name the runs: `context.children`, the watched actors and
`instances`. They change at different moments. A `DistributorActor` that
ends leaves the children at once, and its `Terminated` waits in the
mailbox; until it is handled `instances` has the entry, and a new run of
the same id may be entered beside it.

Messages are handled in any order, and a `DistributorActor` may end at
any time. An exception restarts the `InstanceActor` with no children and
no entries. The id of an `AddTask` is a name Akka accepts, as the time of
the upload is that both callers send, and its deploy info is not null.
-/
import Clustering.Actors.Runs
import Clustering.Worker.InstanceActor

namespace Clustering.Worker

open Actors Actors.EventSystem

/-! ## State and events -/

structure Registry where
  self : Self InstanceActor
  watching : List ℕ
  /-- The actors whose `Terminated` is in the mailbox. -/
  notices : List ℕ
  next : ℕ
  /-- The `DistributorActor`s created, newest first, with the message each
  was created for. -/
  created : List (ℕ × AddTask)
  /-- Those whose `Terminated` was handled. -/
  handled : List ℕ
  /-- The runs told as done on the console, with the actor that had ended. -/
  reported : List (ℕ × ConsoleLine)

inductive RegistryEvent where
  | receive (m : WorkerMessage)
  /-- A `DistributorActor` has ended; it is a child no more. -/
  | stops (c : ℕ)
  /-- Its `Terminated` is handled. -/
  | terminated (c : ℕ)
  deriving DecidableEq, Repr

/-- What the `InstanceActor` is sent. -/
def Sent (legal : String → Bool) : RegistryEvent → Prop
  | .receive (.addTask m) => m.version ≠ none ∧ legal m.instanceId = true
  | _ => True

def watchedRef : WorkerEffect → Option ℕ
  | .watch ref => some ref
  | _ => none

def createdRef : WorkerEffect → Option ℕ
  | .actorOf ref _ _ => some ref
  | _ => none

/-- The line that tells the end of one run. -/
def doneLine : WorkerEffect → Option ConsoleLine
  | .println (.runDone instanceId version) => some (.runDone instanceId version)
  | _ => none

namespace Registry

variable (legal : String → Bool) (s : Registry)

/-- The code has run on the message; an exception restarts the actor. -/
def act (m : WorkerMessage) : Registry :=
  let out := InstanceActor.receive legal s.next m s.self
  let s' := { s with
    next := s.next + 1
    created := (out.effects.filterMap createdRef).filterMap
      (fun ref => m.toAddTask.map fun msg => (ref, msg)) ++ s.created
    reported := (out.effects.filterMap doneLine).filterMap
      (fun line => m.toTerminated.map fun c => (c, line)) ++ s.reported }
  if out.raised.isSome then { s' with self := ⟨.new, []⟩, watching := [], notices := [] }
  else { s' with self := out.fields, watching := out.effects.filterMap watchedRef ++ s.watching }

/-- The message is no `Terminated`. -/
def Outer : WorkerMessage → Prop
  | .terminated _ => False
  | _ => True

instance : DecidablePred Outer := fun m => by
  unfold Outer
  split <;> infer_instance

/-- The step function: `none` is "not enabled". -/
def step (s : Registry) : RegistryEvent → Option Registry
  | .receive m => if Outer m then some (s.act legal m) else none
  | .stops c =>
      if c ∈ s.self.children.map (·.ref) then
        some { s with
          self := ⟨s.self.fields, s.self.children.filter (·.ref ≠ c)⟩
          watching := s.watching.filter (· ≠ c)
          notices := if c ∈ s.watching then s.notices ++ [c] else s.notices }
      else none
  | .terminated c =>
      if c ∈ s.notices then
        some ({ s with
          notices := s.notices.erase c
          handled := c :: s.handled }.act legal (.terminated c))
      else none

def init : Registry := ⟨⟨.new, []⟩, [], [], 0, [], [], []⟩

/-- The runs that were created and not yet handled as terminated. -/
def pending : List (ℕ × AddTask) := s.created.filter fun d => d.1 ∉ s.handled

end Registry

/-- One `InstanceActor`. -/
def registry (legal : String → Bool) : EventSystem Registry RegistryEvent :=
  ⟨Registry.init, Registry.step legal⟩

/-! ## The invariant -/

/-- The entry a run is registered with. -/
def entryOf (d : ℕ × AddTask) : Option Instance :=
  d.2.version.map fun info => ⟨d.2.instanceId, d.1, info.version, info⟩

/-- `r` tells the end of the run `d`. -/
def Tells (r : ℕ × ConsoleLine) (d : ℕ × AddTask) : Prop :=
  d.1 = r.1 ∧ ∃ info, d.2.version = some info ∧ r.2 = .runDone d.2.instanceId info.version

namespace Registry

/-- `instances` holds the entries of the runs that are pending, and each
of these is a watched child or has its `Terminated` on the way. -/
structure Kept (s : Registry) : Prop where
  entries : s.self.fields.instances = s.pending.filterMap entryOf
  versions : ∀ d ∈ s.created, d.2.version ≠ none
  distinct : (s.created.map Prod.fst).Nodup
  fresh : ∀ d ∈ s.created, d.1 < s.next
  known : ∀ c ∈ s.handled, c ∈ s.created.map Prod.fst
  handled : s.handled.Nodup
  reported : s.reported.map Prod.fst = s.handled
  lines : ∀ r ∈ s.reported, ∃ d ∈ s.created, Tells r d
  notices : s.notices.Nodup
  pending : ∀ c, c ∈ s.pending.map Prod.fst ↔
    c ∈ s.self.children.map (·.ref) ∨ c ∈ s.notices
  apart : ∀ c ∈ s.self.children.map (·.ref), c ∉ s.notices
  watched : ∀ c ∈ s.self.children.map (·.ref), c ∈ s.watching

variable {legal : String → Bool} {s : Registry}

theorem kept_init : Kept init := by
  constructor <;> simp [init, Registry.pending, InstanceActor.new]

theorem mem_pending {d : ℕ × AddTask} : d ∈ s.pending ↔ d ∈ s.created ∧ d.1 ∉ s.handled := by
  simp [Registry.pending]

theorem mem_pending_ref {c : ℕ} :
    c ∈ s.pending.map Prod.fst ↔ c ∈ s.created.map Prod.fst ∧ c ∉ s.handled := by
  constructor
  · intro h
    obtain ⟨d, hd, rfl⟩ := List.mem_map.mp h
    exact ⟨List.mem_map_of_mem (mem_pending.mp hd).1, (mem_pending.mp hd).2⟩
  · rintro ⟨h, hc⟩
    obtain ⟨d, hd, rfl⟩ := List.mem_map.mp h
    exact List.mem_map_of_mem (mem_pending.mpr ⟨hd, hc⟩)

/-- The refs in `instances` are those of the pending runs. -/
theorem Kept.refs (h : s.Kept) : s.self.fields.instances.map (·.ref) = s.pending.map Prod.fst := by
  have hall : ∀ d ∈ s.pending, (entryOf d).map (·.ref) = some d.1 := by
    intro d hd
    cases hv : d.2.version with
    | none => exact absurd hv (h.versions d (mem_pending.mp hd).1)
    | some info => simp [entryOf, hv]
  rw [h.entries]
  generalize s.pending = ds at hall
  induction ds with
  | nil => rfl
  | cons d ds ih =>
    obtain ⟨i, hi, href⟩ := Option.map_eq_some_iff.mp (hall d List.mem_cons_self)
    rw [List.filterMap_cons_some hi, List.map_cons, List.map_cons, href,
      ih fun e he => hall e (List.mem_cons_of_mem _ he)]

theorem Kept.refs_nodup (h : s.Kept) : (s.self.fields.instances.map (·.ref)).Nodup := by
  rw [h.refs]
  exact h.distinct.sublist (List.filter_sublist.map _)

/-- A `Terminated` on its way has exactly one entry. -/
theorem Kept.entry (h : s.Kept) {c : ℕ} (hc : c ∈ s.notices) :
    ∃ i ∈ s.self.fields.instances, i.ref = c := by
  have hmem : c ∈ s.self.fields.instances.map (·.ref) := by
    rw [h.refs, h.pending]
    exact .inr hc
  exact List.mem_map.mp hmem

/-- An entry is that of a pending run. -/
theorem Kept.entry_pending (h : s.Kept) {i : Instance} (hi : i ∈ s.self.fields.instances) :
    ∃ d ∈ s.pending, entryOf d = some i := by
  rw [h.entries] at hi
  exact List.mem_filterMap.mp hi

/-! ## One message -/

theorem Kept.later (h : s.Kept) : Kept { s with next := s.next + 1 } :=
  { h with fresh := fun d hd => Nat.lt_succ_of_lt (h.fresh d hd) }

/-- A message that only sends. -/
theorem act_sends {m : WorkerMessage} {es : List WorkerEffect}
    (hout : InstanceActor.receive legal s.next m s.self = ⟨s.self, es, .ok ()⟩)
    (hcreated : es.filterMap createdRef = []) (hwatched : es.filterMap watchedRef = [])
    (hdone : es.filterMap doneLine = []) : s.act legal m = { s with next := s.next + 1 } := by
  simp [Registry.act, hout, hcreated, hwatched, hdone]

/-- A new run is entered, beside an older one of its id if there is one. -/
theorem Kept.spawn (h : s.Kept) {msg : AddTask} {info : DeployInfo} (hv : msg.version = some info) :
    Kept { s with
      self := ⟨⟨⟨msg.instanceId, s.next, info.version, info⟩ :: s.self.fields.instances⟩,
        ⟨.named msg.instanceId, s.next⟩ :: s.self.children⟩
      watching := s.next :: s.watching
      next := s.next + 1
      created := (s.next, msg) :: s.created } := by
  have hnew : s.next ∉ s.created.map Prod.fst := by
    intro hmem
    obtain ⟨d, hd, heq⟩ := List.mem_map.mp hmem
    exact absurd (h.fresh d hd) (by omega)
  have hopen : s.next ∉ s.handled := fun hc => hnew (h.known _ hc)
  have hnotice : s.next ∉ s.notices := fun hc =>
    hnew (mem_pending_ref.mp ((h.pending _).mpr (.inr hc))).1
  have hpending : ((s.next, msg) :: s.created).filter (fun d => d.1 ∉ s.handled) =
      (s.next, msg) :: s.pending := List.filter_cons_of_pos (by simpa using hopen)
  constructor
  · have hentry : entryOf (s.next, msg) =
        some ⟨msg.instanceId, s.next, info.version, info⟩ := by simp [entryOf, hv]
    rw [Registry.pending, hpending, List.filterMap_cons_some hentry, ← h.entries]
  · intro d hd
    rcases List.mem_cons.mp hd with rfl | hd
    · simp [hv]
    · exact h.versions d hd
  · exact List.nodup_cons.mpr ⟨hnew, h.distinct⟩
  · intro d hd
    rcases List.mem_cons.mp hd with rfl | hd
    · exact Nat.lt_succ_self _
    · exact Nat.lt_succ_of_lt (h.fresh d hd)
  · exact fun c hc => List.mem_cons_of_mem _ (h.known c hc)
  · exact h.handled
  · exact h.reported
  · intro r hr
    obtain ⟨d, hd, htells⟩ := h.lines r hr
    exact ⟨d, List.mem_cons_of_mem _ hd, htells⟩
  · exact h.notices
  · intro c
    rw [Registry.pending, hpending, List.map_cons, List.mem_cons, h.pending]
    simp [or_assoc]
  · intro c hc
    rcases List.mem_cons.mp hc with rfl | hc
    · exact hnotice
    · exact h.apart c hc
  · intro c hc
    rcases List.mem_cons.mp hc with rfl | hc
    · exact List.mem_cons_self
    · exact List.mem_cons_of_mem _ (h.watched c hc)

/-- A `DistributorActor` ends. -/
theorem Kept.stops (h : s.Kept) {c : ℕ} (hc : c ∈ s.self.children.map (·.ref)) :
    Kept { s with
      self := ⟨s.self.fields, s.self.children.filter (·.ref ≠ c)⟩
      watching := s.watching.filter (· ≠ c)
      notices := if c ∈ s.watching then s.notices ++ [c] else s.notices } := by
  have hrest : ∀ x, x ∈ (s.self.children.filter (·.ref ≠ c)).map (·.ref) ↔
      x ∈ s.self.children.map (·.ref) ∧ x ≠ c := by
    intro x
    constructor
    · intro hx
      obtain ⟨d, hd, rfl⟩ := List.mem_map.mp hx
      rw [List.mem_filter] at hd
      exact ⟨List.mem_map_of_mem hd.1, by simpa using hd.2⟩
    · rintro ⟨hx, hne⟩
      obtain ⟨d, hd, rfl⟩ := List.mem_map.mp hx
      exact List.mem_map_of_mem (List.mem_filter.mpr ⟨hd, by simpa using hne⟩)
  rw [if_pos (h.watched c hc)]
  refine { h with notices := ?_, pending := ?_, apart := ?_, watched := ?_ }
  · exact List.nodup_append.mpr ⟨h.notices, List.nodup_singleton _, by
      rintro x hx y hy rfl
      obtain rfl := List.mem_singleton.mp hy
      exact h.apart x hc hx⟩
  · intro x
    have hold := h.pending x
    rw [List.mem_append, List.mem_singleton, hrest x]
    refine hold.trans ?_
    by_cases hx : x = c
    · subst hx
      simp [hc]
    · simp [hx]
  · intro x hx
    obtain ⟨hx, hne⟩ := (hrest x).mp hx
    rw [List.mem_append, List.mem_singleton, not_or]
    exact ⟨h.apart x hx, hne⟩
  · intro x hx
    obtain ⟨hx, hne⟩ := (hrest x).mp hx
    exact List.mem_filter.mpr ⟨h.watched x hx, by simpa using hne⟩

/-- Its `Terminated` is handled: the entry is found, told and taken out. -/
theorem Kept.terminated (h : s.Kept) {c : ℕ} (hc : c ∈ s.notices) {i : Instance}
    (hi : i ∈ s.self.fields.instances) (href : i.ref = c) :
    Kept { s with
      self := ⟨⟨s.self.fields.instances.filter (·.ref ≠ c)⟩, s.self.children⟩
      notices := s.notices.erase c
      next := s.next + 1
      handled := c :: s.handled
      reported := (c, .runDone i.instanceId i.version) :: s.reported } := by
  obtain ⟨hcreated, hnew⟩ := mem_pending_ref.mp ((h.pending c).mpr (.inr hc))
  have hpending : s.created.filter (fun d => d.1 ∉ c :: s.handled) =
      s.pending.filter fun d => d.1 ≠ c := by
    rw [Registry.pending, List.filter_filter]
    refine List.filter_congr fun d _ => ?_
    simp [not_or]
  constructor
  · have hentry : ∀ (ds : List (ℕ × AddTask)), (ds.filterMap entryOf).filter (·.ref ≠ c) =
        (ds.filter fun d => d.1 ≠ c).filterMap entryOf := by
      intro ds
      induction ds with
      | nil => rfl
      | cons d ds ih =>
        cases hd : entryOf d with
        | none =>
          rw [List.filterMap_cons_none hd, ih, List.filter_cons]
          split
          · rw [List.filterMap_cons_none hd]
          · rfl
        | some i =>
          have hd1 : i.ref = d.1 := by
            obtain ⟨info, -, rfl⟩ := Option.map_eq_some_iff.mp hd
            rfl
          rw [List.filterMap_cons_some hd, List.filter_cons, List.filter_cons, hd1, ih]
          split
          · rw [List.filterMap_cons_some hd]
          · rfl
    have hgoal : s.self.fields.instances.filter (·.ref ≠ c) =
        (s.created.filter fun d => d.1 ∉ c :: s.handled).filterMap entryOf := by
      rw [hpending, ← hentry, h.entries]
    exact hgoal
  · exact h.versions
  · exact h.distinct
  · exact fun d hd => Nat.lt_succ_of_lt (h.fresh d hd)
  · intro x hx
    rcases List.mem_cons.mp hx with rfl | hx
    · exact hcreated
    · exact h.known x hx
  · exact List.nodup_cons.mpr ⟨hnew, h.handled⟩
  · rw [List.map_cons, h.reported]
  · intro r hr
    rcases List.mem_cons.mp hr with rfl | hr
    · obtain ⟨d, hd, hentry⟩ := h.entry_pending hi
      obtain ⟨info, hinfo, rfl⟩ := Option.map_eq_some_iff.mp hentry
      exact ⟨d, (mem_pending.mp hd).1, href, info, hinfo, rfl⟩
    · exact h.lines r hr
  · exact h.notices.erase c
  · intro x
    have hold := h.pending x
    have hx : x ∈ (s.pending.filter fun d => d.1 ≠ c).map Prod.fst ↔
        x ∈ s.pending.map Prod.fst ∧ x ≠ c := by
      constructor
      · intro hx
        obtain ⟨d, hd, rfl⟩ := List.mem_map.mp hx
        rw [List.mem_filter] at hd
        exact ⟨List.mem_map_of_mem hd.1, by simpa using hd.2⟩
      · rintro ⟨hx, hne⟩
        obtain ⟨d, hd, rfl⟩ := List.mem_map.mp hx
        exact List.mem_map_of_mem (List.mem_filter.mpr ⟨hd, by simpa using hne⟩)
    have hgoal : x ∈ (s.created.filter fun d => d.1 ∉ c :: s.handled).map Prod.fst ↔
        x ∈ s.self.children.map (·.ref) ∨ x ∈ s.notices.erase c := by
      rw [hpending, hx, hold, h.notices.mem_erase_iff]
      by_cases hxc : x = c
      · subst hxc
        simp only [ne_eq, not_true_eq_false, and_false, false_and, or_false, false_iff]
        exact fun hchild => h.apart x hchild hc
      · simp [hxc]
    exact hgoal
  · exact fun x hx hmem => h.apart x hx (List.mem_of_mem_erase hmem)
  · exact h.watched

/-- **What the actor is sent keeps its books.** -/
theorem Kept.receive (h : s.Kept) {m : WorkerMessage} (hm : Outer m)
    (hsent : Sent legal (.receive m)) : (s.act legal m).Kept := by
  have hself : s.self = ⟨s.self.fields, s.self.children⟩ := rfl
  have hsends : ∀ {es : List WorkerEffect},
      InstanceActor.receive legal s.next m s.self = ⟨s.self, es, .ok ()⟩ →
      es.filterMap createdRef = [] → es.filterMap watchedRef = [] →
      es.filterMap doneLine = [] → (s.act legal m).Kept := by
    intro es hout hcreated hwatched hdone
    rw [act_sends hout hcreated hwatched hdone]
    exact h.later
  cases m with
  | addTask msg =>
    obtain ⟨hv, hid⟩ := hsent
    obtain ⟨info, hv⟩ := Option.ne_none_iff_exists'.mp hv
    cases hc : childNamed s.self.children (.named msg.instanceId) with
    | some c => exact hsends (InstanceActor.receive_addTask_pass hc) rfl rfl rfl
    | none =>
      have hout : InstanceActor.receive legal s.next (.addTask msg)
          ⟨s.self.fields, s.self.children⟩ = _ :=
        InstanceActor.receive_addTask_spawn hc hid hv
      have hact : s.act legal (.addTask msg) = { s with
          self := ⟨⟨⟨msg.instanceId, s.next, info.version, info⟩ :: s.self.fields.instances⟩,
            ⟨.named msg.instanceId, s.next⟩ :: s.self.children⟩
          watching := s.next :: s.watching
          next := s.next + 1
          created := (s.next, msg) :: s.created } := by
        rw [Registry.act, hself, hout]
        rfl
      rw [hact]
      exact h.spawn hv
  | getTask msg =>
    cases hf : InstanceActor.firstById (s.self.fields.ofVersion msg.version) with
    | none => exact hsends (InstanceActor.receive_getTask_none hf) rfl rfl rfl
    | some i => exact hsends (InstanceActor.receive_getTask hf) rfl rfl rfl
  | getDeployInfo =>
    cases hf : InstanceActor.firstById s.self.fields.instances with
    | none => exact hsends (InstanceActor.receive_getDeployInfo_none hf) rfl rfl rfl
    | some i => exact hsends (InstanceActor.receive_getDeployInfo hf) rfl rfl rfl
  | getInstanceActor =>
    have hout : InstanceActor.receive legal s.next .getInstanceActor s.self =
        ⟨s.self, [.reply .setInstanceActor], .ok ()⟩ := rfl
    exact hsends hout rfl rfl rfl
  | persistAndSuicide reason =>
    have hout : InstanceActor.receive legal s.next (.persistAndSuicide reason) s.self =
        ⟨s.self, [], .ok ()⟩ := rfl
    exact hsends hout rfl rfl rfl
  | terminated c => exact hm.elim

/-- Telling a run done is told once. -/
theorem doneLine_doneLines (a : InstanceActor) (i : Instance) :
    ((InstanceActor.doneLines a i).map WorkerEffect.println).filterMap doneLine =
      [.runDone i.instanceId i.version] := by
  unfold InstanceActor.doneLines
  split <;> rfl

theorem effects_doneLines (a : InstanceActor) (i : Instance) :
    ((InstanceActor.doneLines a i).map WorkerEffect.println).filterMap createdRef = [] ∧
      ((InstanceActor.doneLines a i).map WorkerEffect.println).filterMap watchedRef = [] := by
  unfold InstanceActor.doneLines
  split <;> exact ⟨rfl, rfl⟩

theorem Kept.step (h : s.Kept) {e : RegistryEvent} {s' : Registry} (hok : Sent legal e)
    (hs : s.step legal e = some s') : s'.Kept := by
  cases e with
  | receive m =>
    simp only [Registry.step, Option.ite_none_right_eq_some, Option.some.injEq] at hs
    obtain ⟨hm, rfl⟩ := hs
    exact h.receive hm hok
  | stops c =>
    simp only [Registry.step, Option.ite_none_right_eq_some, Option.some.injEq] at hs
    obtain ⟨hc, rfl⟩ := hs
    exact h.stops hc
  | terminated c =>
    simp only [Registry.step, Option.ite_none_right_eq_some, Option.some.injEq] at hs
    obtain ⟨hc, rfl⟩ := hs
    obtain ⟨i, hi, href, hf⟩ := InstanceActor.find_ref (h.entry hc)
    have hout : InstanceActor.receive legal s.next (.terminated c) s.self = _ :=
      InstanceActor.receive_terminated hf
    obtain ⟨hcreated, hwatched⟩ := effects_doneLines s.self.fields i
    have hact : ({ s with
        notices := s.notices.erase c
        handled := c :: s.handled } : Registry).act legal (.terminated c) = { s with
        self := ⟨⟨s.self.fields.instances.filter (·.ref ≠ c)⟩, s.self.children⟩
        notices := s.notices.erase c
        next := s.next + 1
        handled := c :: s.handled
        reported := (c, .runDone i.instanceId i.version) :: s.reported } := by
      simp only [Registry.act, hout, hcreated, hwatched, doneLine_doneLines]
      rfl
    rw [hact]
    exact h.terminated hc hi href

theorem kept_run {es : List RegistryEvent}
    (h : (registry legal).Run (fun _ _ => Sent legal) es s) : s.Kept :=
  h.state_invariant kept_init fun _ _ _ _ hs hok hstep => hs.step hok hstep

/-! ## What the actor answers -/

theorem reply_noMoreTasks {fresh : ℕ} {msg : GetTask} :
    .reply .noMoreTasks ∈ (InstanceActor.receive legal fresh (.getTask msg) s.self).effects ↔
      ∀ i ∈ s.self.fields.instances, i.version ≠ msg.version := by
  cases hf : InstanceActor.firstById (s.self.fields.ofVersion msg.version) with
  | none =>
    have hnone := InstanceActor.firstById_none hf
    have hall : ∀ i ∈ s.self.fields.instances, i.version ≠ msg.version := by
      intro i hi hversion
      have hmem : i ∈ s.self.fields.ofVersion msg.version :=
        List.mem_filter.mpr ⟨hi, by simpa using hversion⟩
      rw [hnone] at hmem
      cases hmem
    have heffects : (InstanceActor.receive legal fresh (.getTask msg) s.self).effects =
        [.reply .noMoreTasks] :=
      congrArg Outcome.effects (InstanceActor.receive_getTask_none hf)
    rw [heffects]
    simpa using hall
  | some i =>
    have hi := List.mem_filter.mp (InstanceActor.firstById_mem hf)
    have heffects : (InstanceActor.receive legal fresh (.getTask msg) s.self).effects =
        [.forward i.ref (.getTask msg)] :=
      congrArg Outcome.effects (InstanceActor.receive_getTask hf)
    rw [heffects]
    constructor
    · simp
    · intro hall
      exact absurd (by simpa using hi.2) (hall i hi.1)

theorem reply_noDeployInfo {fresh : ℕ} :
    .reply .noDeployInfo ∈ (InstanceActor.receive legal fresh .getDeployInfo s.self).effects ↔
      s.self.fields.instances = [] := by
  cases hf : InstanceActor.firstById s.self.fields.instances with
  | none =>
    have heffects : (InstanceActor.receive legal fresh .getDeployInfo s.self).effects =
        [.reply .noDeployInfo] :=
      congrArg Outcome.effects (InstanceActor.receive_getDeployInfo_none hf)
    rw [heffects]
    simpa using InstanceActor.firstById_none hf
  | some i =>
    have heffects : (InstanceActor.receive legal fresh .getDeployInfo s.self).effects =
        [.reply (.deployInfo i.info)] :=
      congrArg Outcome.effects (InstanceActor.receive_getDeployInfo hf)
    rw [heffects]
    constructor
    · simp
    · intro hnil
      have hi := InstanceActor.firstById_mem hf
      rw [hnil] at hi
      cases hi

/-- Each entry is that of a pending run, with the version of the message
it was created for. -/
theorem Kept.entry_of (h : s.Kept) {P : Instance → Prop} :
    (∀ i ∈ s.self.fields.instances, P i) ↔ ∀ d ∈ s.pending, ∀ i, entryOf d = some i → P i := by
  rw [h.entries]
  constructor
  · exact fun hall d hd i hi => hall i (List.mem_filterMap.mpr ⟨d, hd, hi⟩)
  · intro hall i hi
    obtain ⟨d, hd, hentry⟩ := List.mem_filterMap.mp hi
    exact hall d hd i hentry

end Registry

open Registry in
/-- **The books of the `InstanceActor` are right in every state**: the
entries are the runs whose `Terminated` was not handled, each once; a
`Terminated` finds its one entry; the runs whose `Terminated` was handled
are those told on the console, each once and by its own id and version,
and every other run is a watched child or about to be told; and a machine
is sent away exactly if no run of its version, or no run at all, is
registered. -/
theorem books_kept {legal : String → Bool} {es : List RegistryEvent} {s : Registry}
    (h : (registry legal).Run (fun _ _ => Sent legal) es s) :
    ((s.self.fields.instances.map (·.ref)).Nodup ∧
      ∀ c, c ∈ s.self.fields.instances.map (·.ref) ↔
        c ∈ s.created.map Prod.fst ∧ c ∉ s.handled) ∧
    (∀ c ∈ s.notices, ∃ i ∈ s.self.fields.instances, i.ref = c) ∧
    (s.reported.map Prod.fst = s.handled ∧ (s.reported.map Prod.fst).Nodup ∧
      (∀ r ∈ s.reported, ∃ d ∈ s.created, Tells r d) ∧ ∀ c ∈ s.created.map Prod.fst,
        (c ∈ s.self.children.map (·.ref) ∧ c ∈ s.watching) ∨ c ∈ s.notices ∨
          c ∈ s.reported.map Prod.fst) ∧
    (∀ fresh (msg : GetTask),
      .reply .noMoreTasks ∈ (InstanceActor.receive legal fresh (.getTask msg) s.self).effects ↔
        ∀ d ∈ s.created, d.1 ∉ s.handled → d.2.version.map (·.version) ≠ some msg.version) ∧
    ∀ fresh, .reply .noDeployInfo ∈
        (InstanceActor.receive legal fresh .getDeployInfo s.self).effects ↔
      ∀ d ∈ s.created, d.1 ∈ s.handled := by
  have hk := kept_run h
  refine ⟨⟨hk.refs_nodup, fun c => ?_⟩, fun c hc => hk.entry hc,
    ⟨hk.reported, hk.reported ▸ hk.handled, hk.lines, fun c hc => ?_⟩, fun fresh msg => ?_,
    fun fresh => ?_⟩
  · rw [hk.refs]
    exact mem_pending_ref
  · by_cases hhandled : c ∈ s.handled
    · exact .inr (.inr (hk.reported ▸ hhandled))
    · rcases (hk.pending c).mp (mem_pending_ref.mpr ⟨hc, hhandled⟩) with hchild | hnotice
      · exact .inl ⟨hchild, hk.watched c hchild⟩
      · exact .inr (.inl hnotice)
  · rw [reply_noMoreTasks, hk.entry_of]
    constructor
    · intro hall d hd hopen hversion
      obtain ⟨info, hinfo, hv⟩ := Option.map_eq_some_iff.mp hversion
      exact hall d (mem_pending.mpr ⟨hd, hopen⟩) ⟨d.2.instanceId, d.1, info.version, info⟩
        (by simp [entryOf, hinfo]) hv
    · intro hall d hd i hi hversion
      obtain ⟨info, hinfo, rfl⟩ := Option.map_eq_some_iff.mp hi
      obtain ⟨hcreated, hopen⟩ := mem_pending.mp hd
      exact hall d hcreated hopen (by simpa [hinfo] using hversion)
  · rw [reply_noDeployInfo, hk.entries, List.filterMap_eq_nil_iff]
    constructor
    · intro hall d hd
      by_contra hopen
      have hnone := hall d (mem_pending.mpr ⟨hd, hopen⟩)
      exact hk.versions d hd (by simpa [entryOf] using hnone)
    · intro hall d hd
      obtain ⟨hcreated, hopen⟩ := mem_pending.mp hd
      exact absurd (hall d hcreated) hopen

/-- A run is added again before the end of the first is handled. -/
def addTwice : List RegistryEvent :=
  let msg : AddTask := ⟨"2017_05_01_10_00_00", ["a"], ⟨"Test", "a", false, false⟩, some ⟨"1"⟩⟩
  [.receive (.addTask msg), .stops 0, .receive (.addTask msg), .terminated 0]

theorem books_kept_addTwice : ∃ s : Registry,
    (registry fun _ => true).Run (fun _ _ => Sent fun _ => true) addTwice s ∧
      s.handled = [0] ∧ s.created.map Prod.fst = [1, 0] ∧
      s.reported = [(0, .runDone "2017_05_01_10_00_00" "1")] ∧
      ∀ c, c ∈ s.self.fields.instances.map (·.ref) ↔ c ∈ s.created.map Prod.fst ∧ c ∉ s.handled := by
  have hrun : (registry fun _ => true).Run (fun _ _ => Sent fun _ => true) addTwice _ :=
    .step (.step (.step (.step .start ⟨by simp, rfl⟩ rfl) trivial rfl) ⟨by simp, rfl⟩ rfl)
      trivial rfl
  exact ⟨_, hrun, rfl, rfl, rfl, (books_kept hrun).1.2⟩

end Clustering.Worker
