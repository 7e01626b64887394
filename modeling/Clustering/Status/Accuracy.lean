/-
Clustering.Status.Accuracy — the machines of all nodes and the counters
of the `GlobalStatusActor`, as one system.

A counter is right if each `VMActor` alternates its two notices in step
with `vmProvisioned`. What ends an actor or resets the field on another
way leaves the counter behind: `postStop` sends nothing, an exception
restarts the actor with fresh fields, a second provisioning registers
again, and a node that leaves takes its actors with it.

An actor belongs to the node it was created on (`node`); in its notices
it names the node by what it cuts out of its own path (`address`).

The machines handle their messages as the code does, in any order, and
nothing is assumed of who sends them. A stop is one by the supervisor.
Notices of one actor arrive in their order; those of an actor whose node
has left do not arrive.
-/
import Clustering.Actors.Runs
import Clustering.Java.Strings
import Clustering.Status.Counters
import Clustering.Status.GlobalStatusActor
import Mathlib.Logic.Function.Basic

namespace Clustering.Status

open Actors Actors.EventSystem
open Clustering.Provisioning (Actor Message Effect VMActor)

/-! ## The node of a machine -/

/-- The path of the machine `u` of a node, which is named by its address. -/
def vmPath (root address : String) (u : ℕ) : String :=
  root ++ "/nodeActor_" ++ address ++ "/vmActor_" ++ toString u

/-- `path.toString.split("_"){1}.split("/"){0}`. -/
def nodeAddress (path : String) : Option String := do
  let piece ← (Java.split (· = '_') path)[1]?
  (Java.split (· = '/') piece)[0]?

/-- **The address in a notice is the one the node is named by**, if
neither it nor the path of the node's parent has an underscore. -/
theorem nodeAddress_path {root address : String} (u : ℕ) (hroot : '_' ∉ root.toList)
    (hname : '_' ∉ address.toList) (hslash : '/' ∉ address.toList) (hne : address ≠ "") :
    nodeAddress (vmPath root address u) = some address := by
  obtain ⟨uuid, huuid⟩ : ∃ uuid, toString u = uuid := ⟨_, rfl⟩
  rw [vmPath, huuid]
  have hchars : (root ++ "/nodeActor_" ++ address ++ "/vmActor_" ++ uuid).toList =
      (root.toList ++ "/nodeActor".toList) ++ '_' ::
        ((address.toList ++ "/vmActor".toList) ++ '_' :: uuid.toList) := by
    simp [String.toList_append]
  have hfirst : ∀ c ∈ root.toList ++ "/nodeActor".toList, decide (c = '_') = false := by
    simp only [List.mem_append, decide_eq_false_iff_not]
    rintro c (hc | hc) rfl
    · exact hroot hc
    · exact absurd hc (by decide)
  have hsecond : ∀ c ∈ address.toList ++ "/vmActor".toList, decide (c = '_') = false := by
    simp only [List.mem_append, decide_eq_false_iff_not]
    rintro c (hc | hc) rfl
    · exact hname hc
    · exact absurd hc (by decide)
  have hpieces : (root ++ "/nodeActor_" ++ address ++ "/vmActor_" ++ uuid).toList.splitOnP
      (fun c => decide (c = '_')) = [root.toList ++ "/nodeActor".toList] ++
        (address.toList ++ "/vmActor".toList) ::
          uuid.toList.splitOnP fun c => decide (c = '_') := by
    rw [hchars, List.splitOnP_append_cons_of_forall_mem hfirst '_' (by decide),
      List.splitOnP_append_cons_of_forall_mem hsecond '_' (by decide)]
    rfl
  have hpiece := Java.getElem?_split hpieces (by simp) (.inl (by simp))
  have hslashes : ∀ c ∈ address.toList, decide (c = '/') = false := by
    rintro c hc
    rw [decide_eq_false_iff_not]
    rintro rfl
    exact hslash hc
  have hnode : (String.ofList (address.toList ++ "/vmActor".toList)).toList.splitOnP
      (fun c => decide (c = '/')) = [] ++ address.toList :: ["vmActor".toList] := by
    have hcons : "/vmActor".toList = '/' :: "vmActor".toList := by decide
    rw [String.toList_ofList, hcons,
      List.splitOnP_append_cons_of_forall_mem hslashes '/' (by decide)]
    rfl
  have hhead := Java.getElem?_split hnode (by simpa using hne) (.inr (by simp))
  have hone : ([root.toList ++ "/nodeActor".toList] : List (List Char)).length = 1 := rfl
  rw [hone] at hpiece
  rw [String.ofList_toList] at hhead
  rw [nodeAddress, hpiece]
  exact hhead

/-! ## State and events -/

/-- All `VMActor`s that were created, and the notices on their way: the
actor that sent one, and whether it is a registration. -/
structure Vms where
  /-- The address of the node the actor was created on. -/
  node : ℕ → String
  path : ℕ → String
  actor : ℕ → VMActor
  live : ℕ → Bool
  created : List ℕ
  status : GlobalStatusActor
  inflight : List (ℕ × Bool)

inductive Event where
  /-- On a node with this address, whose parent has the path `root`. -/
  | create (u : ℕ) (root address : String)
  /-- An actor handles a message. -/
  | handle (u : ℕ) (isDirectory : Bool) (sender : Actor) (m : Message)
  /-- A runnable of the actor creates its environment, or has booted it. -/
  | start (u : ℕ)
  | finish (u : ℕ) (version : String)
  /-- The supervisor stops the actor, with its node for instance. -/
  | stop (u : ℕ)
  /-- A node leaves the cluster. -/
  | leave (address : String)
  /-- The first notice of the actor arrives. -/
  | deliver (u : ℕ)
  /-- The `GlobalStatusActor` handles another message. -/
  | tend (fresh sender : ℕ) (m : StatusMessage)

/-- The message is no notice of a `VMActor`. -/
def Other : StatusMessage → Prop
  | .registerVmActor _ | .deregisterVmActor _ => False
  | _ => True

instance : DecidablePred Other := fun m => by
  unfold Other
  split <;> infer_instance

instance : DecidablePred Genuine := fun m => by
  unfold Genuine
  split <;> infer_instance

namespace Vms

variable (w : Vms)

/-- What the actor calls its node. -/
def address (u : ℕ) : String := (nodeAddress (w.path u)).getD ""

def notice (u : ℕ) (register : Bool) : StatusMessage :=
  if register then .registerVmActor (w.address u) else .deregisterVmActor (w.address u)

/-- The actor is alive, and its machine is provisioned. -/
def provisioned (u : ℕ) : Bool := w.live u && (w.actor u).vmProvisioned

/-- How many live actors of a node are provisioned. -/
def provisionedOn (a : String) : ℕ :=
  w.created.countP fun u => w.provisioned u && decide (w.node u = a)

def add (u : ℕ) (root address : String) : Vms :=
  { w with
    node := Function.update w.node u address
    path := Function.update w.path u (vmPath root address u)
    actor := Function.update w.actor u .new
    live := Function.update w.live u true
    created := u :: w.created }

/-- An exception restarts the actor; its effects stay. -/
def handle (u : ℕ) (isDirectory : Bool) (sender : Actor) (m : Message) : Vms :=
  let out := VMActor.receive u isDirectory sender m (w.actor u)
  { w with
    actor := Function.update w.actor u (if out.raised.isSome then .new else out.fields)
    live := Function.update w.live u (decide (.stopSelf ∉ out.effects))
    inflight := w.inflight ++ (out.effects.filterMap told).map fun b => (u, b) }

/-- The step function: `none` is "not enabled". -/
def step (w : Vms) : Event → Option Vms
  | .create u root address =>
      if u ∉ w.created ∧ nodeAddress (vmPath root address u) ≠ none then
        some (w.add u root address)
      else none
  | .handle u isDirectory sender m =>
      if u ∈ w.created ∧ w.live u = true ∧ Genuine m then
        some (w.handle u isDirectory sender m)
      else none
  | .start u =>
      some { w with actor := Function.update w.actor u (w.actor u).createEnvironment }
  | .finish u version =>
      some { w with actor := Function.update w.actor u ((w.actor u).finishRunnable version) }
  | .stop u => some { w with live := Function.update w.live u false }
  | .leave a => some { w with
      live := fun u => w.live u && decide (w.node u ≠ a)
      inflight := w.inflight.filter fun n => w.node n.1 ≠ a }
  | .deliver u =>
      match w.inflight.find? fun n => n.1 = u with
      | some (_, register) => some { w with
          inflight := w.inflight.eraseP fun n => n.1 = u
          status := (GlobalStatusActor.receive 0 0 (w.notice u register) w.status).fields }
      | none => none
  | .tend fresh sender m =>
      if Other m then
        some { w with status := (GlobalStatusActor.receive fresh sender m w.status).fields }
      else none

def init : Vms := ⟨fun _ => "", fun _ => "", fun _ => .new, fun _ => false, [], .new, []⟩

end Vms

/-- The machines of all nodes. -/
def vms : EventSystem Vms Event := ⟨Vms.init, Vms.step⟩

/-! ## The runs whose counters are right -/

/-- The message is the result of a provisioning. -/
def IsResult (m : Message) : Prop := m = .vmTaskResult true ∨ m = .vmTaskResult false

instance : DecidablePred IsResult := fun m => by
  unfold IsResult
  infer_instance

/-- What an actor handles while its machine is provisioned resets nothing
and does not crash it; only then it handles that its machine is
destroyed. -/
def Orderly (isDirectory : Bool) (v : VMActor) (m : Message) : Prop :=
  if v.vmProvisioned then
    m ≠ .init ∧ (v.ready = true → ¬ IsResult m ∧ ¬ VMActor.Crashes isDirectory v m)
  else v.ready = true → m ≠ .vmDestroyed

instance (isDirectory : Bool) (v : VMActor) : DecidablePred (Orderly isDirectory v) := fun m => by
  unfold Orderly
  infer_instance

/-- A node is named by an address without `_` and `/`, below a path
without `_`; no provisioned actor is stopped, crashes or leaves with its
node, no notice is lost, and no counter overflows. -/
def Paired (w : Vms) : Event → Prop
  | .create _ root address =>
      '_' ∉ root.toList ∧ '_' ∉ address.toList ∧ '/' ∉ address.toList ∧ address ≠ ""
  | .handle u isDirectory _ m => Orderly isDirectory (w.actor u) m
  | .stop u => w.provisioned u = false
  | .leave a => (∀ u ∈ w.created, w.provisioned u = true → w.node u ≠ a) ∧
      ∀ n ∈ w.inflight, w.node n.1 ≠ a
  | .deliver u => w.status.count (w.node u) < 2 ^ 31 - 1
  | _ => True

instance (w : Vms) : DecidablePred (Paired w) := fun e => by
  cases e <;> delta Paired <;> dsimp only <;> infer_instance

/-! ## What one message adds -/

section

variable {isDirectory : Bool} {u : ℕ} {sender : Actor} {m : Message} {v : VMActor}

theorem filterMap_plain {es : List Effect} (h : ∀ e ∈ es, Plain e) :
    es.filterMap told = [] ∧ Effect.stopSelf ∉ es :=
  ⟨List.filterMap_eq_nil_iff.mpr fun e he => (h e he).1, fun hs => (h _ hs).2 rfl⟩

/-- Whether the actor counts after a message. -/
def after (o : Outcome VMActor Effect Worker.Throwable Unit) : Bool :=
  decide (Effect.stopSelf ∉ o.effects) && !o.raised.isSome && o.fields.vmProvisioned

theorem Orderly.no_crash (h : Orderly isDirectory v m) (hp : v.vmProvisioned = true) :
    (VMActor.receive u isDirectory sender m v).raised.isSome = false := by
  rw [Orderly, if_pos hp] at h
  rw [Bool.eq_false_iff]
  intro hraised
  obtain ⟨hr, hcrash⟩ := VMActor.raised_receive.mp hraised
  exact (h.2 hr).2 hcrash

/-- **An orderly message either changes nothing, or changes whether the
actor counts and tells so.** -/
theorem orderly_receive (h : Orderly isDirectory v m) (hm : Genuine m) (hv : VMActor.Refers v)
    {o : Outcome VMActor Effect Worker.Throwable Unit}
    (ho : VMActor.receive u isDirectory sender m v = o) :
    (o.effects.filterMap told = [] ∧ after o = v.vmProvisioned) ∨
      (o.effects.filterMap told = [!v.vmProvisioned] ∧ after o = !v.vmProvisioned) := by
  obtain ⟨-, hcounts⟩ := VMActor.receive_counts (u := u) hm hv
  have hcrash : v.vmProvisioned = true → o.raised.isSome = false := by
    rw [← ho]
    exact h.no_crash
  rw [ho] at hcounts
  unfold after
  generalize o.raised.isSome = raised at hcounts hcrash
  generalize o.effects = es at hcounts
  generalize o.fields = v' at hcounts
  cases hcounts with
  | stays hp hes =>
    obtain ⟨hnone, hlives⟩ := filterMap_plain hes
    refine .inl ⟨hnone, ?_⟩
    cases hpr : v.vmProvisioned with
    | true => simp [hlives, hcrash hpr, hp, hpr]
    | false => simp [hp, hpr]
  | resets hp hes =>
    obtain ⟨hnone, -⟩ := filterMap_plain hes
    refine .inl ⟨hnone, ?_⟩
    cases hpr : v.vmProvisioned with
    | true =>
      rw [Orderly, if_pos hpr] at h
      exact absurd rfl h.1
    | false => simp [hp]
  | succeeds hr hp hes hs =>
    cases hpr : v.vmProvisioned with
    | true =>
      rw [Orderly, if_pos hpr] at h
      exact absurd (.inl rfl) (h.2 hr).1
    | false => exact .inr ⟨hes, by simp [hs, hp]⟩
  | failed hr hp hes =>
    obtain ⟨hnone, -⟩ := filterMap_plain hes
    cases hpr : v.vmProvisioned with
    | true =>
      rw [Orderly, if_pos hpr] at h
      exact absurd (.inr rfl) (h.2 hr).1
    | false => exact .inl ⟨hnone, by simp [hp]⟩
  | raises hes =>
    obtain ⟨hnone, -⟩ := filterMap_plain hes
    refine .inl ⟨hnone, ?_⟩
    cases hpr : v.vmProvisioned with
    | true => exact absurd (hcrash hpr) (by simp)
    | false => simp
  | destroyed hr hes hs =>
    cases hpr : v.vmProvisioned with
    | true => exact .inr ⟨hes, by simp [hs]⟩
    | false =>
      rw [Orderly, hpr, if_neg (by simp)] at h
      exact absurd rfl (h hr)

end

/-! ## Counting -/

theorem countP_update {l : List ℕ} (hl : l.Nodup) {u : ℕ} (hu : u ∈ l) {p q : ℕ → Bool}
    (hsame : ∀ x, x ≠ u → q x = p x) :
    (l.countP q : ℤ) = l.countP p + (if q u then 1 else 0) - (if p u then 1 else 0) := by
  induction l with
  | nil => cases hu
  | cons x l ih =>
    rw [List.nodup_cons] at hl
    rw [List.countP_cons, List.countP_cons]
    by_cases hx : x = u
    · subst hx
      have hrest : l.countP q = l.countP p := by
        refine List.countP_congr fun y hy => ?_
        rw [hsame y (by rintro rfl; exact hl.1 hy)]
      rw [hrest]
      push_cast
      split <;> split <;> omega
    · have hmem : u ∈ l := (List.mem_cons.mp hu).resolve_left (Ne.symm hx)
      have hrest := ih hl.2 hmem
      rw [hsame x hx]
      push_cast
      omega

/-! ## The invariant -/

/-- The notices of an actor, first to last. -/
def noticesOf (u : ℕ) (ns : List (ℕ × Bool)) : List Bool :=
  ns.filterMap fun n => if n.1 = u then some n.2 else none

theorem noticesOf_cons (u : ℕ) (n : ℕ × Bool) (ns : List (ℕ × Bool)) :
    noticesOf u (n :: ns) = (if n.1 = u then [n.2] else []) ++ noticesOf u ns := by
  unfold noticesOf
  rw [List.filterMap_cons]
  split <;> split <;> simp_all

theorem noticesOf_append (u : ℕ) (ns : List (ℕ × Bool)) (u' : ℕ) (bs : List Bool) :
    noticesOf u (ns ++ bs.map fun b => (u', b)) =
      noticesOf u ns ++ if u = u' then bs else [] := by
  unfold noticesOf
  rw [List.filterMap_append, List.filterMap_map]
  congr 1
  split
  · rename_i h
    subst h
    simp
  · rename_i h
    simp [Ne.symm h]

/-- The notices of an actor on their way. -/
def Vms.pending (w : Vms) (u : ℕ) : List Bool := noticesOf u w.inflight

/-- From `r` through these notices to `p`, each the opposite of what was
told before. -/
def Alternates : Bool → List Bool → Bool → Prop
  | r, [], p => r = p
  | r, b :: bs, p => b = !r ∧ Alternates b bs p

theorem Alternates.tells {r p : Bool} {bs : List Bool} (h : Alternates r bs p) :
    Alternates r (bs ++ [!p]) !p := by
  induction bs generalizing r with
  | nil =>
    obtain rfl : r = p := h
    exact ⟨rfl, rfl⟩
  | cons b bs ih => exact ⟨h.1, ih h.2⟩

/-- `r u` says whether `u` is registered: its notices lead from there to
whether it is provisioned, they name its node, and the counters count the
registered. -/
structure Tracked (w : Vms) (r : ℕ → Bool) : Prop where
  nodup : w.created.Nodup
  refers : ∀ u, VMActor.Refers (w.actor u)
  names : ∀ u ∈ w.created, w.address u = w.node u
  sent : ∀ n ∈ w.inflight, n.1 ∈ w.created
  alternates : ∀ u ∈ w.created, Alternates (r u) (w.pending u) (w.provisioned u)
  counts : ∀ a, w.status.count a = w.created.countP fun u => r u && decide (w.node u = a)

section

variable {w : Vms} {r : ℕ → Bool}

theorem tracked_init : Tracked Vms.init fun _ => false where
  nodup := List.nodup_nil
  refers _ := .inl rfl
  names u hu := by cases hu
  sent n hn := by cases hn
  alternates u hu := by cases hu
  counts a := rfl

theorem pending_of_fresh (hw : Tracked w r) {u : ℕ} (hu : u ∉ w.created) : w.pending u = [] := by
  refine List.filterMap_eq_nil_iff.mpr fun n hn => ?_
  have hne : n.1 ≠ u := by
    rintro rfl
    exact hu (hw.sent n hn)
  simp [hne]

/-- What leaves the notices, the nodes and the counters alone, and
changes no actor that counts, keeps all in step. -/
theorem Tracked.same (hw : Tracked w r) {w' : Vms} (hnode : w'.node = w.node)
    (hpath : w'.path = w.path) (hcreated : w'.created = w.created) (hinflight : w'.inflight = w.inflight)
    (hcount : ∀ a, w'.status.count a = w.status.count a)
    (hrefers : ∀ u, VMActor.Refers (w'.actor u))
    (hp : ∀ u ∈ w.created, w'.provisioned u = w.provisioned u) : Tracked w' r where
  nodup := hcreated ▸ hw.nodup
  refers := hrefers
  names u hu := by
    have haddress : w'.address u = w.address u := by rw [Vms.address, hpath, Vms.address]
    rw [haddress, hnode]
    exact hw.names u (hcreated ▸ hu)
  sent n hn := by
    rw [hcreated]
    exact hw.sent n (hinflight ▸ hn)
  alternates u hu := by
    rw [hcreated] at hu
    have hpending : w'.pending u = w.pending u := by rw [Vms.pending, hinflight, Vms.pending]
    rw [hpending, hp u hu]
    exact hw.alternates u hu
  counts a := by
    rw [hcount, hcreated, hnode]
    exact hw.counts a

theorem refers_update (h : ∀ u, VMActor.Refers (w.actor u)) {u : ℕ} {v : VMActor}
    (hv : VMActor.Refers v) (x : ℕ) : VMActor.Refers (Function.update w.actor u v x) := by
  by_cases hx : x = u
  · subst hx
    rw [Function.update_self]
    exact hv
  · rw [Function.update_of_ne hx]
    exact h x

theorem add_other {u x : ℕ} (root address : String) (hx : x ≠ u) :
    (w.add u root address).node x = w.node x ∧
      (w.add u root address).address x = w.address x := by
  simp only [Vms.address, Vms.add, Function.update_of_ne hx, and_self]

theorem add_provisioned {u x : ℕ} (root address : String) :
    (w.add u root address).provisioned x = if x = u then false else w.provisioned x := by
  unfold Vms.provisioned Vms.add
  split
  · rename_i hx
    subst hx
    simp [VMActor.new]
  · rename_i hx
    simp only [Function.update_of_ne hx]

theorem Tracked.create (hw : Tracked w r) {u : ℕ} (hu : u ∉ w.created) {root address : String}
    (hname : nodeAddress (vmPath root address u) = some address) :
    Tracked (w.add u root address) (Function.update r u false) where
  nodup := List.nodup_cons.mpr ⟨hu, hw.nodup⟩
  refers := refers_update hw.refers (.inl rfl)
  names x hx := by
    by_cases hxu : x = u
    · subst hxu
      simp [Vms.address, Vms.add, hname]
    · rw [(add_other root address hxu).1, (add_other root address hxu).2]
      exact hw.names x ((List.mem_cons.mp hx).resolve_left hxu)
  sent n hn := List.mem_cons_of_mem _ (hw.sent n hn)
  alternates x hx := by
    have hpending : (w.add u root address).pending x = w.pending x := rfl
    rw [hpending, add_provisioned]
    split
    · rename_i hxu
      subst hxu
      rw [pending_of_fresh hw hu, Function.update_self]
      rfl
    · rename_i hxu
      rw [Function.update_of_ne hxu]
      exact hw.alternates x ((List.mem_cons.mp hx).resolve_left hxu)
  counts a := by
    have hcreated : (w.add u root address).created = u :: w.created := rfl
    have hstatus : (w.add u root address).status = w.status := rfl
    have hold : w.created.countP (fun x => Function.update r u false x &&
        decide ((w.add u root address).node x = a)) =
        w.created.countP fun x => r x && decide (w.node x = a) := by
      refine List.countP_congr fun x hx => ?_
      have hne : x ≠ u := by
        rintro rfl
        exact hu hx
      rw [Function.update_of_ne hne, (add_other root address hne).1]
    rw [hcreated, hstatus, List.countP_cons, Function.update_self, hold]
    simpa using hw.counts a

/-- A message is handled by an orderly actor. -/
theorem Tracked.handle (hw : Tracked w r) {u : ℕ} {isDirectory : Bool} {sender : Actor}
    {m : Message} (hlive : w.live u = true) (hu : u ∈ w.created) (hm : Genuine m)
    (h : Orderly isDirectory (w.actor u) m) : Tracked (w.handle u isDirectory sender m) r := by
  have hrefers : VMActor.Refers (VMActor.receive u isDirectory sender m (w.actor u)).fields :=
    (VMActor.receive_counts hm (hw.refers u)).1
  have ho : VMActor.receive u isDirectory sender m (w.actor u) =
      VMActor.receive u isDirectory sender m (w.actor u) := rfl
  have hout := orderly_receive h hm (hw.refers u) ho
  have hself : w.provisioned u = (w.actor u).vmProvisioned := by
    rw [Vms.provisioned, hlive, Bool.true_and]
  have hafter : (w.handle u isDirectory sender m).provisioned u =
      after (VMActor.receive u isDirectory sender m (w.actor u)) := by
    simp only [Vms.provisioned, Vms.handle, Function.update_self, after]
    split
    · rename_i hr
      simp [hr, VMActor.new]
    · rename_i hr
      simp [hr]
  have hother : ∀ x, x ≠ u → (w.handle u isDirectory sender m).provisioned x = w.provisioned x := by
    intro x hx
    simp only [Vms.provisioned, Vms.handle, Function.update_of_ne hx]
  refine ⟨hw.nodup, refers_update hw.refers ?_, hw.names, ?_, ?_, hw.counts⟩
  · split
    · exact .inl rfl
    · exact hrefers
  · intro n hn
    rcases List.mem_append.mp hn with hn | hn
    · exact hw.sent n hn
    · obtain ⟨b, -, rfl⟩ := List.mem_map.mp hn
      exact hu
  · intro x hx
    have hpending : (w.handle u isDirectory sender m).pending x = w.pending x ++ if x = u then
        (VMActor.receive u isDirectory sender m (w.actor u)).effects.filterMap told else [] :=
      noticesOf_append x w.inflight u _
    have hold := hw.alternates x hx
    rw [hpending]
    by_cases hxu : x = u
    · subst hxu
      rw [if_pos rfl, hafter]
      rw [hself] at hold
      rcases hout with ⟨hnone, heq⟩ | ⟨hone, heq⟩
      · rw [hnone, heq, List.append_nil]
        exact hold
      · rw [hone, heq]
        exact hold.tells
    · rw [if_neg hxu, List.append_nil, hother x hxu]
      exact hold

theorem stopped_provisioned (hw : Tracked w r) {u : ℕ} (hu : w.provisioned u = false) :
    Tracked { w with live := Function.update w.live u false } r := by
  refine hw.same rfl rfl rfl rfl (fun _ => rfl) hw.refers fun x hx => ?_
  by_cases hxu : x = u
  · subst hxu
    rw [hu]
    simp [Vms.provisioned]
  · simp only [Vms.provisioned, Function.update_of_ne hxu]

theorem filter_node {a : String} (h : ∀ n ∈ w.inflight, w.node n.1 ≠ a) :
    (w.inflight.filter fun n => w.node n.1 ≠ a) = w.inflight :=
  List.filter_eq_self.mpr fun n hn => by simpa using h n hn

theorem left_provisioned (hw : Tracked w r) {a : String}
    (h : ∀ u ∈ w.created, w.provisioned u = true → w.node u ≠ a)
    (hn : ∀ n ∈ w.inflight, w.node n.1 ≠ a) : Tracked { w with
      live := fun u => w.live u && decide (w.node u ≠ a)
      inflight := w.inflight.filter fun n => w.node n.1 ≠ a } r := by
  refine hw.same rfl rfl rfl (filter_node hn) (fun _ => rfl) hw.refers fun x hx => ?_
  have hx := h x hx
  unfold Vms.provisioned at *
  cases hp : (w.live x && (w.actor x).vmProvisioned) with
  | true =>
    rw [Bool.and_eq_true] at hp
    simp [hp, hx]
  | false =>
    rw [Bool.and_eq_false_iff] at hp
    rcases hp with hp | hp <;> simp [hp]

/-- A runnable changes neither field. -/
theorem ran_provisioned (hw : Tracked w r) {u : ℕ} {v : VMActor}
    (hv : VMActor.counting v = VMActor.counting (w.actor u)) :
    Tracked { w with actor := Function.update w.actor u v } r := by
  refine hw.same rfl rfl rfl rfl (fun _ => rfl)
    (refers_update hw.refers (VMActor.refers_of_counting hv (hw.refers u))) fun x hx => ?_
  by_cases hxu : x = u
  · subst hxu
    have hp : v.vmProvisioned = (w.actor x).vmProvisioned := congrArg Prod.fst hv
    simp [Vms.provisioned, hp]
  · simp only [Vms.provisioned, Function.update_of_ne hxu]

theorem keeps_other {fresh sender : ℕ} {m : StatusMessage} (hm : Other m) :
    Handler.Keeps GlobalStatusActor.nodeVms (GlobalStatusActor.receive fresh sender m) := by
  have hderegister : ∀ actor : ℕ, Handler.Keeps GlobalStatusActor.nodeVms
      (GlobalStatusActor.handlerDeregisterNodeMonitorActor actor) := by
    refine fun actor => .bind .fields fun s => ?_
    cases s.nodeMonitorActors.lookup actor with
    | none => exact .pure _
    | some c => exact .bind (.perform _) fun _ => .assign fun _ => rfl
  cases m with
  | registerVmActor a => exact hm.elim
  | deregisterVmActor a => exact hm.elim
  | registerNodeMonitorActor actor =>
    exact .bind (.perform _) fun _ => .bind (.perform _) fun _ => .assign fun _ => rfl
  | deregisterNodeMonitorActor actor => exact hderegister actor
  | terminated actor => exact hderegister actor
  | systemAttributes attributes => exact .assign fun _ => rfl
  | getGlobalStatusActor => exact .perform _
  | getGlobalSystemAttributes => exact .bind .fields fun _ => .perform _
  | getVMInfos => exact .bind .fields fun _ => .perform _
  | notReadyJet => exact .perform _

theorem count_other {fresh sender : ℕ} {m : StatusMessage} (hm : Other m) (s : GlobalStatusActor)
    (a : String) : (GlobalStatusActor.receive fresh sender m s).fields.count a = s.count a :=
  congrArg (fun vms : List (String × ℤ) => (vms.lookup a).getD 0) (keeps_other hm s)

/-- The first notice of an actor, and what is left of those of each. -/
theorem noticesOf_eraseP {ns : List (ℕ × Bool)} {u : ℕ} {n : ℕ × Bool}
    (h : ns.find? (fun n => n.1 = u) = some n) :
    n.1 = u ∧ ∀ x, noticesOf x ns =
      (if x = u then [n.2] else []) ++ noticesOf x (ns.eraseP fun n => n.1 = u) := by
  induction ns with
  | nil => cases h
  | cons k rest ih =>
    rw [List.find?_cons] at h
    by_cases hk : k.1 = u
    · rw [decide_eq_true hk] at h
      obtain rfl := Option.some.inj h
      refine ⟨hk, fun x => ?_⟩
      rw [List.eraseP_cons_of_pos (by simpa using hk), noticesOf_cons, hk]
      simp only [eq_comm]
    · rw [decide_eq_false hk] at h
      obtain ⟨hn, hrest⟩ := ih h
      refine ⟨hn, fun x => ?_⟩
      rw [List.eraseP_cons_of_neg (by simpa using hk), noticesOf_cons, noticesOf_cons, hrest x]
      by_cases hx : x = u
      · have hne : k.1 ≠ x := fun hkx => hk (hkx.trans hx)
        rw [if_neg hne, List.nil_append, List.nil_append]
      · rw [if_neg hx, List.nil_append, List.nil_append]

/-- A notice arrives. -/
theorem Tracked.deliver (hw : Tracked w r) {u : ℕ} {n : ℕ × Bool}
    (hn : w.inflight.find? (fun n => n.1 = u) = some n)
    (hbound : w.status.count (w.node u) < 2 ^ 31 - 1) : Tracked { w with
      inflight := w.inflight.eraseP fun n => n.1 = u
      status := (GlobalStatusActor.receive 0 0 (w.notice u n.2) w.status).fields }
      (Function.update r u n.2) := by
  obtain ⟨hnu, hpending⟩ := noticesOf_eraseP hn
  have hu : u ∈ w.created := hnu ▸ hw.sent n (List.mem_of_find?_eq_some hn)
  -- the notice is the opposite of what the actor was registered as
  have halternates := hw.alternates u hu
  rw [Vms.pending, hpending u, if_pos rfl] at halternates
  obtain ⟨hopposite, hrest⟩ := halternates
  have hname := hw.names u hu
  refine ⟨hw.nodup, hw.refers, hw.names, fun k hk => hw.sent k (List.mem_of_mem_eraseP hk), ?_, ?_⟩
  · intro x hx
    by_cases hxu : x = u
    · subst hxu
      rw [Function.update_self]
      exact hrest
    · have hold := hw.alternates x hx
      rw [Vms.pending, hpending x, if_neg hxu] at hold
      rw [Function.update_of_ne hxu]
      exact hold
  · intro a
    have hcount := countP_update hw.nodup hu
      (p := fun x => r x && decide (w.node x = a))
      (q := fun x => Function.update r u n.2 x && decide (w.node x = a))
      fun x hx => by rw [Function.update_of_ne hx]
    rw [← hw.counts a, Function.update_self] at hcount
    refine Eq.trans ?_ hcount.symm
    cases hr : r u with
    | false =>
      have hregister : n.2 = true := by rw [hopposite, hr, Bool.not_false]
      have hnotice : w.notice u n.2 = .registerVmActor (w.node u) := by
        rw [Vms.notice, if_pos hregister, hname]
      have hnonneg : 0 ≤ w.status.count (w.node u) := by
        rw [hw.counts]
        exact Int.natCast_nonneg _
      rw [hnotice, GlobalStatusActor.count_registerVmActor _ _ hbound hnonneg, hregister]
      simp [eq_comm]
    | true =>
      have hderegister : n.2 = false := by rw [hopposite, hr, Bool.not_true]
      have hnotice : w.notice u n.2 = .deregisterVmActor (w.node u) := by
        rw [Vms.notice, hderegister, if_neg (by simp), hname]
      have hpos : 0 < w.status.count (w.node u) := by
        rw [hw.counts]
        exact Int.natCast_pos.mpr (List.countP_pos_iff.mpr ⟨u, hu, by simp [hr]⟩)
      rw [hnotice, GlobalStatusActor.count_deregisterVmActor _ _ hpos, hderegister]
      simp [eq_comm]

/-! ## Every run -/

theorem tracked_step {e : Event} {w' : Vms} (hw : ∃ r, Tracked w r) (hok : Paired w e)
    (hs : w.step e = some w') : ∃ r, Tracked w' r := by
  obtain ⟨r, hw⟩ := hw
  cases e with
  | create u root address =>
    simp only [Vms.step, Option.ite_none_right_eq_some, Option.some.injEq] at hs
    obtain ⟨⟨hu, -⟩, rfl⟩ := hs
    obtain ⟨hroot, hname, hslash, hne⟩ := hok
    exact ⟨_, hw.create hu (nodeAddress_path u hroot hname hslash hne)⟩
  | handle u isDirectory sender m =>
    simp only [Vms.step, Option.ite_none_right_eq_some, Option.some.injEq] at hs
    obtain ⟨⟨hu, hlive, hm⟩, rfl⟩ := hs
    exact ⟨r, hw.handle hlive hu hm hok⟩
  | start u =>
    obtain rfl := Option.some.inj hs
    exact ⟨r, ran_provisioned hw rfl⟩
  | finish u version =>
    obtain rfl := Option.some.inj hs
    exact ⟨r, ran_provisioned hw rfl⟩
  | stop u =>
    obtain rfl := Option.some.inj hs
    exact ⟨r, stopped_provisioned hw hok⟩
  | leave a =>
    obtain rfl := Option.some.inj hs
    exact ⟨r, left_provisioned hw hok.1 hok.2⟩
  | deliver u =>
    simp only [Vms.step] at hs
    split at hs
    · rename_i x register hn
      obtain rfl := Option.some.inj hs
      exact ⟨_, hw.deliver hn hok⟩
    · cases hs
  | tend fresh sender m =>
    simp only [Vms.step, Option.ite_none_right_eq_some, Option.some.injEq] at hs
    obtain ⟨hm, rfl⟩ := hs
    exact ⟨r, hw.same rfl rfl rfl rfl (count_other hm w.status) hw.refers fun _ _ => rfl⟩

theorem tracked_run {es : List Event} (h : vms.Run (fun _ => Paired) es w) : ∃ r, Tracked w r :=
  h.state_invariant ⟨_, tracked_init⟩ fun _ _ _ _ hw hok hs => tracked_step hw hok hs

/-- **In a run whose provisioned actors end only by destroying their
machine the counters are right**: none is negative, and when no notice is
on its way each is the number of live provisioned actors of its node. -/
theorem counters_accurate {es : List Event} (h : vms.Run (fun _ => Paired) es w) :
    (∀ a, 0 ≤ w.status.count a) ∧
      (w.inflight = [] → ∀ a, w.status.count a = w.provisionedOn a) := by
  obtain ⟨r, hw⟩ := tracked_run h
  constructor
  · intro a
    rw [hw.counts a]
    exact Int.natCast_nonneg _
  · intro hnone a
    rw [hw.counts a, Vms.provisionedOn]
    congr 1
    refine List.countP_congr fun u hu => ?_
    have hsettled := hw.alternates u hu
    rw [Vms.pending, hnone] at hsettled
    have hr : r u = w.provisioned u := hsettled
    rw [hr]

end

/-! ## A machine whose node leaves -/

def nodeAt : String := "10.0.0.2:2550"

/-- The machine `u` of the node is provisioned, and has said so. -/
def provisions (u : ℕ) : List Event :=
  [.create u "akka://the-cluster/user/nodeMasterActor" nodeAt,
    .handle u false (.vmActor u) .init,
    .handle u false .node (.setInstanceActor (some .instances)),
    .handle u false .node (.setVmProxyActor (some (.vmProxyActor u))),
    .handle u false .node (.setNodeMonitorActor (some .monitor)),
    .handle u false .node (.setGlobalStatusActor (some .globalStatus)),
    .handle u true .monitor (.systemAttributes ⟨some 8, true⟩),
    .handle u true .instances (.deployInfo ⟨[⟨0, "vm", ⟨0, some 1, some "vm"⟩⟩], "vms", "1"⟩),
    .start u, .finish u "1",
    .handle u true (.vmActor u) (.vmTaskResult true), .deliver u]

theorem counters_accurate_provisioned : ∃ es w, vms.Run (fun _ => Paired) es w ∧
    w.provisionedOn nodeAt = 1 ∧ w.status.count nodeAt = 1 := by
  have hplay : (execWhen vms.step (fun _ => Paired) [] (provisions 0) vms.init).any
      (fun w => decide (w.inflight = [] ∧ w.provisionedOn nodeAt = 1)) = true := by decide +kernel
  obtain ⟨w, hrun, hnone, hone⟩ := exists_run_of_execWhen hplay
  exact ⟨_, w, hrun, hone, by rw [(counters_accurate hrun).2 hnone, hone]; rfl⟩

/-- When a node leaves, its machines stay counted. -/
theorem counters_stale : ¬ ∀ es w, vms.Run anyStep es w → w.inflight = [] →
    ∀ a, w.status.count a = w.provisionedOn a := by
  intro h
  have hplay : (exec vms.step (provisions 0 ++ [.leave nodeAt]) vms.init).any
      (fun w => decide (w.inflight = [] ∧ w.status.count nodeAt = 1 ∧
        w.provisionedOn nodeAt = 0)) = true := by decide +kernel
  obtain ⟨w, hrun, hnone, hone, hzero⟩ := exists_run_of_exec hplay
  have heq := h _ w hrun hnone nodeAt
  rw [hone, hzero] at heq
  cases heq

end Clustering.Status
