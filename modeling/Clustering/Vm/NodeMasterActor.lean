/-
Clustering.Vm.NodeMasterActor — the `NodeActor`s of the cluster's nodes.

The `NodeMasterActor` creates a `NodeActor` for each member with the
role `vm` that joins, and for each address it is told to include. What
it is sent before it is ready it answers with `NotReadyJet`, for the
sender to send again. Akka's part: a name in use raises an exception,
an exception restarts the actor, and a restart stops its children and
begins with the `Init` of the constructor.

`nodes_included` is the invariant of the runs in which a join comes at
a ready actor that has no `NodeActor` of that address yet.
-/
import Mathlib.Data.List.Nodup
import Clustering.Actors.Runs
import Clustering.Worker.Messages

namespace Clustering.Vm

open Actors Actors.Handler

/-! ## The actor -/

/-- `akka.actor.Address`. -/
structure Address where
  protocol : String
  system : String
  host : Option String
  port : Option ℕ
  deriving DecidableEq, Repr

/-- `akka.cluster.Member`, as far as it is read. -/
structure Member where
  address : Address
  roles : List String
  deriving DecidableEq, Repr

/-- `hasRole("vm")`. -/
def Member.IsVm (m : Member) : Prop := "vm" ∈ m.roles

instance : DecidablePred Member.IsVm := fun m => inferInstanceAs (Decidable ("vm" ∈ m.roles))

/-- References are numbers; a null reference is `none`. -/
inductive NodeMasterMessage where
  | init
  | setInstanceActor (actor : Option ℕ)
  | setGlobalStatusActor (actor : Option ℕ)
  | notReadyJet
  | terminated (actor : ℕ)
  | getGlobalStatusActor
  | getInstanceActor
  | deregisterNodeActor (actor : ℕ)
  | includeNode (address : Address)
  | memberJoined (member : Member)
  deriving DecidableEq, Repr

inductive NodeMasterEffect where
  /-- `cluster.subscribe(self, …, classOf[MemberJoined])`. -/
  | subscribe
  | askGlobalStatus
  | askInstances
  | actorOf (ref : ℕ) (address : Address) (name : String)
  /-- `sender() ! SetGlobalStatusActor(actor)`. -/
  | replyGlobalStatus (actor : Option ℕ)
  | replyInstance (actor : Option ℕ)
  /-- `sender() ! NotReadyJet(any)`. -/
  | replyNotReady
  /-- `scheduleOnceRetry(5 seconds, sender(), any)`. -/
  | scheduleRetry
  deriving DecidableEq, Repr

/-- A `NodeActor` among the children, deployed at `address`. -/
structure NodeChild where
  name : String
  address : Address
  ref : ℕ
  deriving DecidableEq, Repr

/-- The fields, and `context.children`. -/
structure NodeMasterActor where
  globalStatusActor : Option ℕ
  instanceActor : Option ℕ
  nodeActors : Option (List ℕ)
  ready : Bool
  children : List NodeChild
  deriving DecidableEq, Repr

namespace NodeMasterActor

abbrev Code := Handler NodeMasterActor NodeMasterEffect Worker.Throwable

/-- A fresh instance, before its `Init`. -/
def new : NodeMasterActor := ⟨none, none, none, false, []⟩

/-- The name of the `NodeActor` of an address; `uuid` is a random text. -/
def actorName (uuid : String) (a : Address) : String :=
  "nodeActor_" ++ a.host.getD uuid ++ ":" ++ a.port.elim "" toString

/-- `context.actorOf(Props[NodeActor].withDeploy(…), name)`. -/
def actorOf (legal : String → Bool) (fresh : ℕ) (address : Address) (name : String) :
    Code Unit := do
  if legal name = true ∧ ∀ c ∈ (← fields).children, c.name ≠ name then
    perform (.actorOf fresh address name)
    assign fun a => { a with children := ⟨name, address, fresh⟩ :: a.children }
  else
    raise (.invalidActorName name)

def handlerInit : Code Unit := do
  assign fun a => { a with ready := false, nodeActors := some [] }
  perform .subscribe
  perform .askGlobalStatus
  perform .askInstances

def handlerSetInstanceActor (actor : Option ℕ) : Code Unit :=
  assign fun a =>
    if a.globalStatusActor.isSome && actor.isSome then
      { a with instanceActor := actor, ready := true }
    else { a with instanceActor := actor }

def handlerSetGlobalStatusActor (actor : Option ℕ) : Code Unit :=
  assign fun a =>
    if actor.isSome && a.instanceActor.isSome then
      { a with globalStatusActor := actor, ready := true }
    else { a with globalStatusActor := actor }

/-- `nodeActors.diff(actor :: Nil)` takes one occurrence out. -/
def handlerDeregisterNodeActor (actor : ℕ) : Code Unit := do
  let actors ← deref .nullPointer (← fields).nodeActors
  if actor ∈ actors then
    assign fun a => { a with nodeActors := some (actors.erase actor) }

def handlerIncludeNode (legal : String → Bool) (fresh : ℕ) (uuid : String) (address : Address) :
    Code Unit := do
  actorOf legal fresh address (actorName uuid address)
  let actors ← deref .nullPointer (← fields).nodeActors
  assign fun a => { a with nodeActors := some (fresh :: actors) }

def handlerMemberJoined (legal : String → Bool) (fresh : ℕ) (uuid : String) (member : Member) :
    Code Unit := do
  if member.IsVm then
    handlerIncludeNode legal fresh uuid member.address

def handlerGetGlobalStatusActor : Code Unit := do
  perform (.replyGlobalStatus (← fields).globalStatusActor)

def handlerGetInstanceActor : Code Unit := do
  perform (.replyInstance (← fields).instanceActor)

def handlerNotReady : Code Unit := perform .replyNotReady

def handlerNotReadyJet : Code Unit := perform .scheduleRetry

/-- `receive`, with the guards in the order of the source. -/
def receive (legal : String → Bool) (fresh : ℕ) (uuid : String) (m : NodeMasterMessage) :
    Code Unit := do
  let ready := (← fields).ready
  match m with
  | .init => handlerInit
  | .setInstanceActor actor => handlerSetInstanceActor actor
  | .setGlobalStatusActor actor => handlerSetGlobalStatusActor actor
  | .notReadyJet => handlerNotReadyJet
  | .terminated actor => handlerDeregisterNodeActor actor
  | .getGlobalStatusActor => if ready then handlerGetGlobalStatusActor else handlerNotReady
  | .getInstanceActor => if ready then handlerGetInstanceActor else handlerNotReady
  | .deregisterNodeActor actor =>
      if ready then handlerDeregisterNodeActor actor else handlerNotReady
  | .includeNode address =>
      if ready then handlerIncludeNode legal fresh uuid address else handlerNotReady
  | .memberJoined member =>
      if ready then handlerMemberJoined legal fresh uuid member else handlerNotReady

end NodeMasterActor

/-! ## Its mailbox -/

/-- The actor with its mailbox. `joined` are the members whose join was
published, for statements only. -/
structure NodeMaster where
  actor : NodeMasterActor
  mailbox : List NodeMasterMessage
  next : ℕ
  joined : List Member

namespace NodeMaster

inductive Event where
  /-- A message joins the mailbox. -/
  | send (m : NodeMasterMessage)
  /-- The next message is handled; `uuid` is the random text of now. -/
  | handle (uuid : String)
  deriving DecidableEq, Repr

/-- The member a message announces. -/
def announced : NodeMasterMessage → List Member
  | .memberJoined member => [member]
  | _ => []

/-- The actor handles `m`; an exception restarts it and stops its
children. -/
def handle (legal : String → Bool) (s : NodeMaster) (uuid : String) (m : NodeMasterMessage) :
    NodeMaster :=
  let out := NodeMasterActor.receive legal s.next uuid m s.actor
  match out.raised with
  | none => { s with actor := out.fields, next := s.next + 1 }
  | some _ => { s with actor := .new, mailbox := s.mailbox ++ [.init], next := s.next + 1 }

def step (legal : String → Bool) (s : NodeMaster) : Event → Option NodeMaster
  | .send m => some { s with mailbox := s.mailbox ++ [m], joined := s.joined ++ announced m }
  | .handle uuid =>
      match s.mailbox with
      | [] => none
      | m :: rest => some ({ s with mailbox := rest }.handle legal uuid m)

def init : NodeMaster := ⟨.new, [], 0, []⟩

def system (legal : String → Bool) : EventSystem NodeMaster Event := ⟨init, step legal⟩

/-! ## What a message leaves of the children -/

/-- The address a message makes the actor include. -/
def included (ready : Bool) : NodeMasterMessage → Option Address
  | .includeNode address => if ready then some address else none
  | .memberJoined member => if ready ∧ member.IsVm then some member.address else none
  | _ => none

/-- A `NodeActor` can be created for the address, and there is none. -/
structure Includable (legal : String → Bool) (s : NodeMaster) (uuid : String) (a : Address) :
    Prop where
  initialized : s.actor.nodeActors.isSome
  legal : legal (NodeMasterActor.actorName uuid a) = true
  fresh : ∀ c ∈ s.actor.children, c.name ≠ NodeMasterActor.actorName uuid a ∧ c.address ≠ a

instance (legal : String → Bool) (s : NodeMaster) (uuid : String) (a : Address) :
    Decidable (s.Includable legal uuid a) :=
  decidable_of_iff (s.actor.nodeActors.isSome ∧
      legal (NodeMasterActor.actorName uuid a) = true ∧
      ∀ c ∈ s.actor.children, c.name ≠ NodeMasterActor.actorName uuid a ∧ c.address ≠ a)
    ⟨fun h => ⟨h.1, h.2.1, h.2.2⟩, fun h => ⟨h.initialized, h.legal, h.fresh⟩⟩

/-- The condition on one message: the join of a machine finds the actor
ready, whatever is included has no `NodeActor` yet, and no actor is
deregistered before the first `Init`. -/
def IncludesOnce (legal : String → Bool) (s : NodeMaster) (uuid : String) :
    NodeMasterMessage → Prop
  | .memberJoined member =>
      member.IsVm → s.actor.ready = true ∧ s.Includable legal uuid member.address
  | .includeNode address => s.actor.ready = true → s.Includable legal uuid address
  | .terminated _ => s.actor.nodeActors.isSome
  | .deregisterNodeActor _ => s.actor.ready = true → s.actor.nodeActors.isSome
  | _ => True

instance (legal : String → Bool) (s : NodeMaster) (uuid : String) :
    DecidablePred (IncludesOnce legal s uuid) := fun m => by
  cases m <;> simp only [IncludesOnce] <;> infer_instance

variable {legal : String → Bool} {s : NodeMaster} {uuid : String}

/-- The code raises nothing and leaves these children. -/
def Leaves (x : NodeMasterActor.Code Unit) (a : NodeMasterActor) (cs : List NodeChild) : Prop :=
  (x a).raised = none ∧ (x a).fields.children = cs

theorem leaves_include {a : Address} (h : s.Includable legal uuid a) (fresh : ℕ) :
    Leaves (NodeMasterActor.handlerIncludeNode legal fresh uuid a) s.actor
      (⟨NodeMasterActor.actorName uuid a, a, fresh⟩ :: s.actor.children) := by
  have hnew : legal (NodeMasterActor.actorName uuid a) = true ∧
      ∀ c ∈ s.actor.children, c.name ≠ NodeMasterActor.actorName uuid a :=
    ⟨h.legal, fun c hc => (h.fresh c hc).1⟩
  obtain ⟨actors, ha⟩ := Option.isSome_iff_exists.mp h.initialized
  simp only [Leaves, NodeMasterActor.handlerIncludeNode, NodeMasterActor.actorOf, bind_apply,
    fields_apply, Outcome.andThen_ok, if_pos hnew, perform_apply, assign_apply, ha, deref_some]
  exact ⟨rfl, trivial⟩

theorem leaves_deregister {a : NodeMasterActor} (h : a.nodeActors.isSome) (actor : ℕ) :
    Leaves (NodeMasterActor.handlerDeregisterNodeActor actor) a a.children := by
  obtain ⟨actors, ha⟩ := Option.isSome_iff_exists.mp h
  by_cases hm : actor ∈ actors <;>
    simp [Leaves, NodeMasterActor.handlerDeregisterNodeActor, ha, hm]

/-- **A message under the condition raises nothing**, and adds a child if
it includes an address. -/
theorem leaves_receive {m : NodeMasterMessage} (h : IncludesOnce legal s uuid m) (fresh : ℕ) :
    Leaves (NodeMasterActor.receive legal fresh uuid m) s.actor
      ((included s.actor.ready m).elim s.actor.children fun a =>
        ⟨NodeMasterActor.actorName uuid a, a, fresh⟩ :: s.actor.children) := by
  cases m with
  | init => exact ⟨rfl, rfl⟩
  | setInstanceActor actor =>
    refine ⟨rfl, ?_⟩
    simp only [NodeMasterActor.receive, NodeMasterActor.handlerSetInstanceActor, bind_apply,
      fields_apply, Outcome.andThen_ok, assign_apply]
    split <;> rfl
  | setGlobalStatusActor actor =>
    refine ⟨rfl, ?_⟩
    simp only [NodeMasterActor.receive, NodeMasterActor.handlerSetGlobalStatusActor, bind_apply,
      fields_apply, Outcome.andThen_ok, assign_apply]
    split <;> rfl
  | notReadyJet => exact ⟨rfl, rfl⟩
  | terminated actor => exact leaves_deregister h actor
  | getGlobalStatusActor =>
    cases hr : s.actor.ready <;>
      simp [Leaves, NodeMasterActor.receive, hr, NodeMasterActor.handlerGetGlobalStatusActor,
        NodeMasterActor.handlerNotReady, included]
  | getInstanceActor =>
    cases hr : s.actor.ready <;>
      simp [Leaves, NodeMasterActor.receive, hr, NodeMasterActor.handlerGetInstanceActor,
        NodeMasterActor.handlerNotReady, included]
  | deregisterNodeActor actor =>
    cases hr : s.actor.ready with
    | false => simp [Leaves, NodeMasterActor.receive, hr, NodeMasterActor.handlerNotReady, included]
    | true =>
      have he : NodeMasterActor.receive legal fresh uuid (.deregisterNodeActor actor) s.actor =
          NodeMasterActor.handlerDeregisterNodeActor actor s.actor := by
        simp [NodeMasterActor.receive, hr]
      unfold Leaves
      rw [he]
      exact leaves_deregister (h hr) actor
  | includeNode address =>
    cases hr : s.actor.ready with
    | false => simp [Leaves, NodeMasterActor.receive, hr, NodeMasterActor.handlerNotReady, included]
    | true =>
      simpa [Leaves, NodeMasterActor.receive, hr, included] using leaves_include (h hr) fresh
  | memberJoined member =>
    by_cases hv : member.IsVm
    · obtain ⟨hr, hi⟩ := h hv
      simpa [Leaves, NodeMasterActor.receive, hr, included, NodeMasterActor.handlerMemberJoined,
        hv] using leaves_include hi fresh
    · cases hr : s.actor.ready <;>
        simp [Leaves, NodeMasterActor.receive, hr, NodeMasterActor.handlerNotReady, included,
          NodeMasterActor.handlerMemberJoined, hv]

/-! ## The invariant -/

/-- The `NodeActor`s of an address. -/
def nodesAt (s : NodeMaster) (a : Address) : List NodeChild :=
  s.actor.children.filter (·.address = a)

/-- Each machine that joined is announced in the mailbox, or included;
and no address is included twice. -/
structure Included (s : NodeMaster) : Prop where
  once : (s.actor.children.map (·.address)).Nodup
  joined : ∀ m ∈ s.joined, m.IsVm → .memberJoined m ∈ s.mailbox ∨
    ∃ c ∈ s.actor.children, c.address = m.address

/-- The condition on a step. -/
def Cautious (legal : String → Bool) (s : NodeMaster) : Event → Prop
  | .send _ => True
  | .handle uuid => ∀ m ∈ s.mailbox.head?, IncludesOnce legal s uuid m

instance (legal : String → Bool) (s : NodeMaster) : DecidablePred (Cautious legal s) := fun e => by
  cases e <;> simp only [Cautious] <;> infer_instance

theorem included_init : init.Included := by
  constructor <;> simp [init, NodeMasterActor.new]

/-- What a step does to the children under the condition. -/
theorem children_step {e : Event} {s' : NodeMaster} (hok : Cautious legal s e)
    (hs : s.step legal e = some s') :
    (∃ m, e = .send m ∧ s' = { s with mailbox := s.mailbox ++ [m], joined := s.joined ++ announced m }) ∨
    ∃ uuid m rest, e = .handle uuid ∧ s.mailbox = m :: rest ∧ IncludesOnce legal s uuid m ∧
      s'.mailbox = rest ∧ s'.joined = s.joined ∧
      s'.actor.children = (included s.actor.ready m).elim s.actor.children fun a =>
        ⟨NodeMasterActor.actorName uuid a, a, s.next⟩ :: s.actor.children := by
  cases e with
  | send m => exact .inl ⟨m, rfl, (Option.some.inj hs).symm⟩
  | handle uuid =>
    cases hmb : s.mailbox with
    | nil => simp [step, hmb] at hs
    | cons m rest =>
      have hm : IncludesOnce legal s uuid m := hok m (by simp [hmb])
      obtain ⟨hr, hc⟩ := leaves_receive hm s.next
      simp only [step, hmb, handle, hr, Option.some.injEq] at hs
      subst hs
      exact .inr ⟨uuid, m, rest, rfl, rfl, hm, rfl, rfl, hc⟩

/-- An address that is included has no `NodeActor` before. -/
theorem included_fresh {m : NodeMasterMessage} (h : IncludesOnce legal s uuid m) {a : Address}
    (ha : included s.actor.ready m = some a) : ∀ c ∈ s.actor.children, c.address ≠ a := by
  cases m with
  | includeNode address =>
    cases hr : s.actor.ready with
    | false => simp [included, hr] at ha
    | true =>
      obtain rfl : address = a := by simpa [included, hr] using ha
      exact fun c hc => ((h hr).fresh c hc).2
  | memberJoined member =>
    by_cases hv : member.IsVm
    · obtain ⟨hr, hi⟩ := h hv
      obtain rfl : member.address = a := by simpa [included, hr, hv] using ha
      exact fun c hc => (hi.fresh c hc).2
    · simp [included, hv] at ha
  | _ => simp [included] at ha

/-- No child is lost, and an address that is included has one. -/
theorem children_elim {a? : Option Address} {cs : List NodeChild} {name : Address → String}
    {n : ℕ} : (∀ c ∈ cs, c ∈ a?.elim cs fun a => ⟨name a, a, n⟩ :: cs) ∧
      ∀ a ∈ a?, ∃ c ∈ a?.elim cs (fun a => ⟨name a, a, n⟩ :: cs), c.address = a := by
  cases a? with
  | none => simp
  | some a => exact ⟨fun c hc => List.mem_cons_of_mem _ hc, by simp⟩

/-- **No step under the condition stops a `NodeActor`.** -/
theorem children_kept {e : Event} {s' : NodeMaster} (hok : Cautious legal s e)
    (hs : s.step legal e = some s') : ∀ c ∈ s.actor.children, c ∈ s'.actor.children := by
  rcases children_step hok hs with ⟨m, -, rfl⟩ | ⟨uuid, m, rest, -, -, -, -, -, hc⟩
  · exact fun c hc => hc
  · rw [hc]
    exact children_elim.1

theorem Included.step (h : s.Included) {e : Event} {s' : NodeMaster} (hok : Cautious legal s e)
    (hs : s.step legal e = some s') : s'.Included := by
  have hkept := children_kept hok hs
  rcases children_step hok hs with ⟨m, -, rfl⟩ | ⟨uuid, m, rest, -, hmb, hm, hmb', hj, hc⟩
  · refine ⟨h.once, ?_⟩
    intro x hx hv
    rcases List.mem_append.mp hx with hx | hx
    · rcases h.joined x hx hv with hx | hx
      · exact .inl (List.mem_append_left _ hx)
      · exact .inr hx
    · -- the member that is announced just now
      cases m with
      | memberJoined member =>
        obtain rfl := List.mem_singleton.mp hx
        exact .inl (List.mem_append_right _ List.mem_cons_self)
      | _ => cases hx
  · constructor
    · rw [hc]
      cases hi : included s.actor.ready m with
      | none => exact h.once
      | some a =>
        have hfresh := included_fresh hm hi
        simp only [Option.elim_some, List.map_cons, List.nodup_cons, List.mem_map]
        exact ⟨fun ⟨c, hcm, hca⟩ => hfresh c hcm hca, h.once⟩
    · intro x hx hv
      rw [hj] at hx
      rcases h.joined x hx hv with hx | ⟨c, hcm, hca⟩
      · rw [hmb] at hx
        rcases List.mem_cons.mp hx with rfl | hx
        · -- its join is handled: it is included
          right
          rw [hc]
          exact children_elim.2 x.address (by simp [included, (hm hv).1, hv])
        · exact .inl (hmb' ▸ hx)
      · exact .inr ⟨c, hkept c hcm, hca⟩

theorem included_run {es : List Event} (h : (system legal).Run (fun _ => Cautious legal) es s) :
    s.Included :=
  h.state_invariant included_init fun _ _ _ _ hi hok hs => hi.step hok hs

theorem length_filter_eq_one {l : List NodeChild} (h : (l.map (·.address)).Nodup) {a : Address}
    (ha : ∃ c ∈ l, c.address = a) : (l.filter (·.address = a)).length = 1 := by
  obtain ⟨c, hc, hca⟩ := ha
  have hcount := List.count_eq_one_of_mem h (List.mem_map.mpr ⟨c, hc, hca⟩)
  rw [List.count, List.countP_map, List.countP_eq_length_filter] at hcount
  rw [← hcount]
  congr 1

/-- **Every machine that joined has exactly one `NodeActor`** as soon as
the actor is ready and has nothing to handle, and no step stops the
`NodeActor` of any member, in every run in which a join finds the actor
ready and nothing is included twice. -/
theorem nodes_included {es : List Event} (h : (system legal).Run (fun _ => Cautious legal) es s) :
    (s.actor.ready = true → s.mailbox = [] →
      ∀ m ∈ s.joined, m.IsVm → (s.nodesAt m.address).length = 1) ∧
    ∀ e s', Cautious legal s e → s.step legal e = some s' →
      ∀ c ∈ s.actor.children, c ∈ s'.actor.children := by
  refine ⟨?_, fun e s' hok hs => children_kept hok hs⟩
  intro _ hmb m hm hv
  have hi := included_run h
  refine length_filter_eq_one hi.once ?_
  rcases hi.joined m hm hv with hx | hx
  · rw [hmb] at hx
    cases hx
  · exact hx

/-! ## Joins that come too early, and twice -/

def anyName : String → Bool := fun _ => true

def masterNode : Member := ⟨⟨"akka.tcp", "the-cluster", some "10.0.0.1", some 2550⟩, ["master", "vm"]⟩

def vmNode : Member := ⟨⟨"akka.tcp", "the-cluster", some "10.0.0.2", some 2550⟩, ["vm"]⟩

/-- The messages come one after the other, each is handled at once. -/
def inTurn (ms : List NodeMasterMessage) : List Event :=
  ms.flatMap fun m => [.send m, .handle "a random text"]

def getReady : List NodeMasterMessage :=
  [.init, .setInstanceActor (some 0), .setGlobalStatusActor (some 1)]

def otherVmNode : Member := ⟨⟨"akka.tcp", "the-cluster", some "10.0.0.3", some 2550⟩, ["vm", "seed"]⟩

def executorNode : Member := ⟨⟨"akka.tcp", "the-cluster", some "10.0.0.4", some 2550⟩, ["executor"]⟩

/-- Two machines and a member without the role, and an `Init` in between
that is sent once more. -/
def threeJoins : List NodeMasterMessage :=
  getReady ++ [.memberJoined vmNode, .memberJoined executorNode, .init,
    .setInstanceActor (some 0), .memberJoined otherVmNode]

theorem nodes_included_threeJoins : ∃ s, (system anyName).Run (fun _ => Cautious anyName)
    (inTurn threeJoins) s ∧ executorNode ∈ s.joined ∧
    (s.nodesAt vmNode.address).length = 1 ∧ (s.nodesAt otherVmNode.address).length = 1 := by
  obtain ⟨s, hr, hready, hmb, hvm, hexecutor, hother⟩ :
      ∃ s, (system anyName).Run (fun _ => Cautious anyName) (inTurn threeJoins) s ∧
        s.actor.ready = true ∧ s.mailbox = [] ∧ vmNode ∈ s.joined ∧ executorNode ∈ s.joined ∧
          otherVmNode ∈ s.joined :=
    EventSystem.exists_run_of_execWhen (by decide)
  have hnodes := (nodes_included hr).1 hready hmb
  exact ⟨s, hr, hexecutor, hnodes vmNode hvm (by decide), hnodes otherVmNode hother (by decide)⟩

/-- The node of the master joins too, and is included once more at the
end of the start-up. -/
def masterTwice : List NodeMasterMessage :=
  getReady ++ [.memberJoined vmNode, .memberJoined masterNode]

/-- The other node has its `NodeActor`, and loses it with the next
message. -/
def MasterIncluded (s : NodeMaster) : Prop :=
  (s.nodesAt vmNode.address).length = 1 ∧
    ∃ s' ∈ s.step anyName (.handle ""), s'.nodesAt vmNode.address = []

instance : DecidablePred MasterIncluded := fun _ => by
  unfold MasterIncluded
  infer_instance

/-- **A join before the actor is ready is lost; and the second inclusion
of one address stops the `NodeActor` of every member.** -/
theorem nodes_lost :
    (∃ s, (system anyName).Run EventSystem.anyStep (inTurn (.memberJoined vmNode :: getReady)) s ∧
      s.actor.ready = true ∧ s.mailbox = [] ∧ vmNode ∈ s.joined ∧ s.nodesAt vmNode.address = []) ∧
    ∃ s, (system anyName).Run EventSystem.anyStep
        (inTurn masterTwice ++ [.send (.includeNode masterNode.address)]) s ∧
      (s.nodesAt vmNode.address).length = 1 ∧
      ∃ s', s.step anyName (.handle "") = some s' ∧ s'.nodesAt vmNode.address = [] := by
  refine ⟨EventSystem.exists_run_of_exec (by decide), ?_⟩
  obtain ⟨s, hr, h1, s', hs, h0⟩ : ∃ s, (system anyName).Run EventSystem.anyStep
      (inTurn masterTwice ++ [.send (.includeNode masterNode.address)]) s ∧
        MasterIncluded s := EventSystem.exists_run_of_exec (by decide)
  exact ⟨s, hr, h1, s', hs, h0⟩

end NodeMaster

end Clustering.Vm
