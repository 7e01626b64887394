/-
Clustering.Provisioning.World — a node with its machines, as one system.

The `NodeActor`, its monitor, the `InstanceActor` and the `VMActor`s of
the node handle their messages as the code does; messages are taken in
any order, and what a timer will send counts as on its way. The rest is
open: the `NodeMasterActor` answers or is not ready, uploads come and
runs complete, Vagrant succeeds or fails, the `VMProxyActor`s and the
`GlobalStatusActor` ask whatever they may ask.

An exception restarts the actor. A restarted `VMActor` is a new
instance, while the runnables of the old one go on with the old fields:
`vmActor` is indexed by instance, `current` says which one handles the
messages of a uuid. A restarted `NodeActor` stops its children.

`created`, `announced`, `provisioned`, `compared` and `booted` are read
by statements only.
-/
import Mathlib.Logic.Function.Basic
import Mathlib.Data.List.Sort
import Clustering.Actors.Runs
import Clustering.Provisioning.NodeActor
import Clustering.Provisioning.VMActor

namespace Clustering.Provisioning

open Actors

/-! ## State -/

/-- An entry of `InstanceActor.instances`, as far as it is read here. -/
structure Run where
  instanceId : String
  ref : ℕ
  config : VagrantEnvironmentConfig
  deriving DecidableEq, Repr

/-- `instances.sortBy(a => a._1).head`, of a list that may be empty. -/
def firstRun (runs : List Run) : Option Run :=
  (runs.insertionSort fun a b => a.instanceId ≤ b.instanceId).head?

/-- A runnable of `prepareProvisionVm`, with the instance whose fields it
reads and assigns. -/
structure Runnable where
  uuid : ℕ
  instance' : ℕ
  version : String
  deriving DecidableEq, Repr

structure World where
  node : NodeActor
  monitor : NodeMonitorActor
  runs : List Run
  vmActor : ℕ → VMActor
  /-- The instance that handles the messages of `vmActor uuid`. -/
  current : ℕ → ℕ
  inflight : List Envelope
  submitted : List Runnable
  /-- Runnables between `createEnvironment` and their end. -/
  started : List Runnable
  destroying : List ℕ
  /-- Numbers from here on are unused. -/
  next : ℕ
  /-- The machines whose pair of actors was created. -/
  created : List ℕ
  gone : List ℕ
  /-- The machines that sent `VmProvisioned`. -/
  announced : List ℕ
  /-- Those whose `VmProvisioned` the node has handled. -/
  provisioned : List ℕ
  /-- What `addVm` compared when it created a machine. -/
  compared : ℕ → Option (VagrantEnvironmentConfig × SystemAttributes)
  /-- The configurations an environment was created from. -/
  booted : List (ℕ × VagrantEnvironmentConfig)

/-! ## Effects -/

/-- What an effect of actor `a` puts on its way. A new actor begins with
its own `Init`. -/
def posted (a : Actor) : Effect → List Envelope
  | .tell receiver msg | .scheduleOnce _ receiver msg => [⟨a, receiver, msg⟩]
  | .actorOf .monitor => [⟨.monitor, .monitor, .init⟩]
  | .actorOf (.vmActor uuid) => [⟨.vmActor uuid, .vmActor uuid, .init⟩]
  | _ => []

def createdBy : Effect → Option ℕ
  | .actorOf (.vmActor uuid) => some uuid
  | _ => none

namespace World

variable (w : World)

/-- The effects of an actor that is no `VMActor`. -/
def act (a : Actor) (es : List Effect) : World :=
  { w with
    inflight := w.inflight ++ es.flatMap (posted a)
    monitor := if .actorOf .monitor ∈ es then .new else w.monitor
    created := w.created ++ es.filterMap createdBy
    vmActor := fun i => if i ∈ es.filterMap createdBy then .new else w.vmActor i
    current := fun u => if u ∈ es.filterMap createdBy then u else w.current u }

/-- The effects of `vmActor u`. -/
def actVm (u : ℕ) (es : List Effect) : World :=
  { w with
    inflight := w.inflight ++ es.flatMap (posted (.vmActor u))
    submitted := w.submitted ++ es.filterMap fun
      | .submit version => some ⟨u, w.current u, version⟩
      | _ => none
    destroying := w.destroying ++ es.filterMap fun
      | .submitDestroy => some u
      | _ => none
    gone := if .stopSelf ∈ es then u :: w.gone else w.gone
    announced := if .tell .node .vmProvisioned ∈ es then u :: w.announced else w.announced }

/-- A message joins those on their way. -/
def post (e : Envelope) : World := { w with inflight := w.inflight ++ [e] }

/-- The node is restarted: its children are stopped, and what is sent to
its monitor is lost. -/
def restartNode : World :=
  { w with
    node := .new
    gone := w.created
    inflight := w.inflight.filter (·.receiver ≠ .monitor) ++ [⟨.node, .node, .init⟩] }

def restartMonitor : World :=
  { w with monitor := .new, inflight := w.inflight ++ [⟨.monitor, .monitor, .init⟩] }

def restartVm (u : ℕ) : World :=
  { w with
    vmActor := Function.update w.vmActor w.next .new
    current := Function.update w.current u w.next
    next := w.next + 1
    inflight := w.inflight ++ [⟨.vmActor u, .vmActor u, .init⟩] }

/-! ## Handling a message -/

/-- What statements remember of a message the node handles. -/
def noteProvisioned (e : Envelope) : World :=
  match e.sender, e.msg with
  | .vmActor u, .vmProvisioned =>
      if w.node.ready then { w with provisioned := u :: w.provisioned } else w
  | _, _ => w

/-- What `addVm` compared, if it created a machine. -/
def noteCompared (es : List Effect) (n : NodeActor) : World :=
  { w with compared := fun u =>
      if u ∈ es.filterMap createdBy then
        n.vagrantEnvironmentConfig.bind fun c => n.systemAttributes.map fun a => (c, a)
      else w.compared u }

def handleNode (e : Envelope) : World :=
  let out := NodeActor.receive w.next e.sender e.msg w.node
  let w' := (({ w.noteProvisioned e with node := out.fields, next := w.next + 1 }).noteCompared
    out.effects out.fields).act .node out.effects
  match out.raised with
  | none => w'
  | some _ => w'.restartNode

def handleMonitor (platform : Platform) (e : Envelope) : World :=
  let out := NodeMonitorActor.receive platform e.sender e.msg w.monitor
  let w' := ({ w with monitor := out.fields }).act .monitor out.effects
  match out.raised with
  | none => w'
  | some _ => w'.restartMonitor

/-- `handleGetDeployInfo()`; nothing else the `InstanceActor` is sent
here has a part in this. -/
def handleInstances (e : Envelope) : World :=
  match e.msg with
  | .getDeployInfo =>
      match firstRun w.runs with
      | some run => w.post ⟨.instances, e.sender, .deployInfo run.config⟩
      | none => w.post ⟨.instances, e.sender, .noDeployInfo⟩
  | _ => w

def handleVm (isDirectory : Bool) (u : ℕ) (e : Envelope) : World :=
  if u ∈ w.created ∧ u ∉ w.gone then
    let out := VMActor.receive u isDirectory e.sender e.msg (w.vmActor (w.current u))
    let w' := ({ w with
      vmActor := Function.update w.vmActor (w.current u) out.fields }).actVm u out.effects
    match out.raised with
    | none => w'
    | some _ => w'.restartVm u
  else w

/-- The `NodeMasterActor` answers what the node asks, if it is ready. -/
def masterAnswer (ready : Bool) : Message → Option Message
  | .getInstanceActor =>
      some (if ready then .setInstanceActor (some .instances) else .notReadyJet .getInstanceActor)
  | .getGlobalStatusActor =>
      some (if ready then .setGlobalStatusActor (some .globalStatus)
        else .notReadyJet .getGlobalStatusActor)
  | _ => none

end World

/-! ## Events -/

inductive Event where
  /-- A message is handled by its receiver. -/
  | deliver (e : Envelope) (platform : Platform) (isDirectory : Bool)
  /-- The `NodeMasterActor` handles a message. -/
  | master (e : Envelope) (ready : Bool)
  /-- A `VMProxyActor` or the `GlobalStatusActor` sends a message. -/
  | outside (e : Envelope)
  /-- A run is added to, or removed from, `instances`. -/
  | upload (instanceId : String) (config : VagrantEnvironmentConfig)
  | complete (ref : ℕ)
  /-- A runnable creates its environment. -/
  | start (r : Runnable)
  /-- `up()` has returned; whether every machine is running. -/
  | finish (r : Runnable) (running : Bool)
  /-- `up()` has failed: the machine asks for a configuration again. -/
  | fail (r : Runnable)
  /-- The environment of a machine is destroyed. -/
  | destroyed (uuid : ℕ)

/-- What the actors outside may send: a `VMProxyActor` asks its node and
has its machine stopped, the `GlobalStatusActor` polls the monitor. -/
def Outside (w : World) : Envelope → Prop
  | ⟨.vmProxyActor u, .node, m⟩ => u ∈ w.created ∧
      (m = .getInstanceActor ∨ m = .getVmActor u ∨ m = .removeVmActor true u)
  | ⟨.vmProxyActor u, .vmActor u', m⟩ => u ∈ w.created ∧ u' = u ∧
      (m = .noMoreTasks ∨ m = .getVagrantEnvironmentConfig)
  | ⟨.globalStatus, .monitor, m⟩ =>
      w.node.nodeMonitorActor ≠ none ∧ m = .getSystemAttributes
  | _ => False

instance (w : World) : DecidablePred (Outside w) := fun e => by
  unfold Outside
  split <;> infer_instance

namespace World

variable (w : World)

/-- The message leaves those on their way. -/
def taken (e : Envelope) : World := { w with inflight := w.inflight.erase e }

/-- The step function: `none` is "not enabled". -/
def step (w : World) : Event → Option World
  | .deliver e platform isDirectory =>
      if e ∈ w.inflight then
        match e.receiver with
        | .node => some ((w.taken e).handleNode e)
        | .monitor => some ((w.taken e).handleMonitor platform e)
        | .instances => some ((w.taken e).handleInstances e)
        | .vmActor u => some ((w.taken e).handleVm isDirectory u e)
        | .vmProxyActor _ | .globalStatus => some (w.taken e)
        | .master => none
      else none
  | .master e ready =>
      if e ∈ w.inflight ∧ e.receiver = .master then
        match masterAnswer ready e.msg with
        | some m => some ((w.taken e).post ⟨.master, e.sender, m⟩)
        | none => some (w.taken e)
      else none
  | .outside e => if Outside w e then some (w.post e) else none
  | .upload instanceId config =>
      some { w with runs := ⟨instanceId, w.next, config⟩ :: w.runs, next := w.next + 1 }
  | .complete ref => some { w with runs := w.runs.filter (·.ref ≠ ref) }
  | .start r =>
      if r ∈ w.submitted then
        match (w.vmActor r.instance').vagrantEnvironmentConfig with
        | some config => some { w with
            submitted := w.submitted.erase r
            started := r :: w.started
            vmActor := Function.update w.vmActor r.instance'
              (w.vmActor r.instance').createEnvironment
            booted := (r.uuid, config) :: w.booted }
        -- `createEnvironment(null)` raises in the helper
        | none => some { w with submitted := w.submitted.erase r }
      else none
  | .finish r running =>
      if r ∈ w.started ∧ (w.vmActor r.instance').vagrantEnvironmentConfig.isSome then
        some (({ w with
          started := w.started.erase r
          vmActor := Function.update w.vmActor r.instance'
            ((w.vmActor r.instance').finishRunnable r.version) }).post
          ⟨.vmActor r.uuid, .vmActor r.uuid, .vmTaskResult running⟩)
      else none
  | .fail r =>
      if r ∈ w.started then
        some (({ w with started := w.started.erase r }).post
          ⟨.vmActor r.uuid, .instances, .getDeployInfo⟩)
      else none
  | .destroyed u =>
      if u ∈ w.destroying then
        some (({ w with destroying := w.destroying.erase u }).post
          ⟨.vmActor u, .vmActor u, .vmDestroyed⟩)
      else none

/-- The `NodeActor` has just sent itself `Init`. -/
def init : World where
  node := .new
  monitor := .new
  runs := []
  vmActor _ := .new
  current u := u
  inflight := [⟨.node, .node, .init⟩]
  submitted := []
  started := []
  destroying := []
  next := 0
  created := []
  gone := []
  announced := []
  provisioned := []
  compared _ := none
  booted := []

end World

/-- The provisioning of one node. -/
def provisioning : EventSystem World Event := ⟨World.init, World.step⟩

end Clustering.Provisioning
