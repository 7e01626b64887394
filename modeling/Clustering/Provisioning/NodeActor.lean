/-
Clustering.Provisioning.NodeActor — the handlers of `NodeActor.scala`
and `NodeMonitorActor.scala`.

A `NodeActor` adds one virtual machine after the other: a timer asks it
to, it asks the `InstanceActor` what to deploy and its monitor for the
free memory, and creates the pair of actors of a machine if the memory
is there. It goes on when the machine is provisioned.

References are those of `Actor`; a null reference is `none`. Messages
are sent to whatever a field holds.
-/
import Clustering.Provisioning.Messages

namespace Clustering.Provisioning

open Actors Actors.Handler

/-- An entry of `vmActors`: uuid, `VMActor` and `VMProxyActor`. -/
structure VmEntry where
  uuid : ℕ
  vmActor : Option Actor
  vmProxyActor : Option Actor
  deriving DecidableEq, Repr

/-- The fields of a `NodeActor`. Of the timer only whether there is one
is read. -/
structure NodeActor where
  nodeMonitorActor : Option Actor
  globalStatusActor : Option Actor
  instanceActor : Option Actor
  systemAttributes : Option SystemAttributes
  vagrantEnvironmentConfig : Option VagrantEnvironmentConfig
  scheduleOnceAddVmActor : Bool
  ready : Bool
  vmActors : List VmEntry
  deriving DecidableEq, Repr

namespace NodeActor

abbrev Code := Handler NodeActor Effect Worker.Throwable

/-- The fields of a fresh instance, before its `Init`. -/
def new : NodeActor := ⟨none, none, none, none, none, false, false, []⟩

/-- `scheduleOnceAddVmActor(delay)`, where the source first asks for a
timer that is null. -/
def scheduleAddVmActor (delay : ℕ) : Code Unit := do
  if !(← fields).scheduleOnceAddVmActor then
    perform (.scheduleOnce delay .node .addVmActor)
    assign fun n => { n with scheduleOnceAddVmActor := true }

def initNodeMonitorActor : Code Unit := do
  let n ← fields
  if n.instanceActor.isSome ∧ n.globalStatusActor.isSome ∧ n.nodeMonitorActor = none then
    assign fun n => { n with ready := true }
    perform (.actorOf .monitor)
    assign fun n => { n with nodeMonitorActor := some .monitor }
    scheduleAddVmActor 5

def handlerInit : Code Unit := do
  assign fun n => { n with ready := false }
  perform (.tell .master .getInstanceActor)
  perform (.tell .master .getGlobalStatusActor)

def handlerSetGlobalStatusActor (actor : Option Actor) : Code Unit := do
  assign fun n => { n with globalStatusActor := actor }
  initNodeMonitorActor

def handlerSetInstanceActor (actor : Option Actor) : Code Unit := do
  assign fun n => { n with instanceActor := actor }
  initNodeMonitorActor

def entry (n : NodeActor) (uuid : ℕ) : Option VmEntry := n.vmActors.find? (·.uuid = uuid)

def handlerGetVmProxyActor (sender : Actor) (uuid : ℕ) : Code Unit := do
  let n : NodeActor ← fields
  perform (.tell sender (.setVmProxyActor ((n.entry uuid).bind (·.vmProxyActor))))

def handlerGetVmActor (sender : Actor) (uuid : ℕ) : Code Unit := do
  let n : NodeActor ← fields
  perform (.tell sender (.setVmActor ((n.entry uuid).bind (·.vmActor))))

def handlerAddVmActor : Code Unit := do
  assign fun n => { n with scheduleOnceAddVmActor := false }
  let instanceActor ← deref .nullPointer (← fields).instanceActor
  perform (.tell instanceActor .getDeployInfo)

def handlerDeployInfo (config : VagrantEnvironmentConfig) : Code Unit := do
  assign fun n => { n with vagrantEnvironmentConfig := some config }
  let monitorActor ← deref .nullPointer (← fields).nodeMonitorActor
  perform (.tell monitorActor .getSystemAttributes)

def handlerNoDeployInfo : Code Unit := do
  assign fun n => { n with vagrantEnvironmentConfig := none }
  scheduleAddVmActor 30

/-- `vmConfigs().map(_.provider().memory().toLong).sum * 1024 * 1024`, a
`Long`; a memory that is null cannot be unboxed. -/
def memoryNeeded (config : VagrantEnvironmentConfig) : Option Int64 :=
  (config.vmConfigs.mapM fun vm : VagrantVmConfig => vm.provider.memory).map fun memories =>
    (memories.map Int64.ofInt).sum * 1024 * 1024

/-- `vmActors += uuid -> (vmActor, vmProxyActor)`. -/
def insertVm (e : VmEntry) (l : List VmEntry) : List VmEntry := e :: l.filter (·.uuid ≠ e.uuid)

def addVm (fresh : ℕ) : Code Unit := do
  let config ← deref .nullPointer (← fields).vagrantEnvironmentConfig
  let monitorActor ← deref .nullPointer (← fields).nodeMonitorActor
  perform (.tell monitorActor (.setPath config.path))
  let memoryNeeded ← deref .nullPointer (memoryNeeded config)
  let attributes ← deref .nullPointer (← fields).systemAttributes
  let freeMemory ← deref .noSuchElement attributes.freePhysicalMemorySize
  if 0 < memoryNeeded ∧ memoryNeeded < Int64.ofInt freeMemory ∧ attributes.vagrant = true then
    perform (.actorOf (.vmProxyActor fresh))
    perform (.actorOf (.vmActor fresh))
    assign fun n => { n with
      vmActors := insertVm ⟨fresh, some (.vmActor fresh), some (.vmProxyActor fresh)⟩ n.vmActors }
  else
    scheduleAddVmActor 30

def handlerSystemAttributes (fresh : ℕ) (attributes : SystemAttributes) : Code Unit := do
  assign fun n => { n with systemAttributes := some attributes }
  addVm fresh

/-- One half of a pair is gone; the entry goes with the other half. -/
def handlerRemoveVmActor (proxy : Bool) (uuid : ℕ) : Code Unit := do
  let n : NodeActor ← fields
  match n.entry uuid with
  | none => pure ()
  | some e =>
      let e' := if proxy then { e with vmProxyActor := none } else { e with vmActor := none }
      if (if proxy then e.vmActor else e.vmProxyActor) = none then
        assign fun n => { n with vmActors := n.vmActors.filter (·.uuid ≠ uuid) }
      else
        assign fun n => { n with vmActors := insertVm e' n.vmActors }

def handlerVmProvisioned : Code Unit := scheduleAddVmActor 2

def handlerNotReady (sender : Actor) (m : Message) : Code Unit :=
  perform (.tell sender (.notReadyJet m))

def handlerNotReadyJet (sender : Actor) (m : Message) : Code Unit :=
  perform (.scheduleOnce 5 sender m)

/-- `receive`, with the guards in the order of the source. `fresh` is the
uuid of a machine that is added. -/
def receive (fresh : ℕ) (sender : Actor) (m : Message) : Code Unit := do
  let ready := (← fields).ready
  match m with
  | .init => handlerInit
  | .setGlobalStatusActor actor => handlerSetGlobalStatusActor actor
  | .setInstanceActor actor => handlerSetInstanceActor actor
  | .notReadyJet message => handlerNotReadyJet sender message
  | m =>
      if ready then
        match m with
        | .getInstanceActor => do
            perform (.tell sender (.setInstanceActor (← fields).instanceActor))
        | .getVmProxyActor uuid => handlerGetVmProxyActor sender uuid
        | .getVmActor uuid => handlerGetVmActor sender uuid
        | .getGlobalStatusActor => do
            perform (.tell sender (.setGlobalStatusActor (← fields).globalStatusActor))
        | .getNodeMonitorActor => do
            perform (.tell sender (.setNodeMonitorActor (← fields).nodeMonitorActor))
        | .addVmActor => handlerAddVmActor
        | .removeVmActor proxy uuid => handlerRemoveVmActor proxy uuid
        | .deployInfo config => handlerDeployInfo config
        | .noDeployInfo => handlerNoDeployInfo
        | .systemAttributes attributes => handlerSystemAttributes fresh attributes
        | .vmProvisioned => handlerVmProvisioned
        | _ => pure ()
      else handlerNotReady sender m

end NodeActor

/-! ## The monitor of a node -/

/-- What the platform answers the monitor while it handles a message:
the free memory it reports, and whether Vagrant is there (`none` is an
exception `checkVagrant` does not catch). -/
structure Platform where
  freePhysicalMemorySize : Option Int
  checkVagrant : Option Bool
  deriving DecidableEq, Repr

/-- The fields of a `NodeMonitorActor`. -/
structure NodeMonitorActor where
  path : Option String
  vagrant : Bool
  globalStatusActor : Option Actor
  /-- `mbeanServer != null`. -/
  mbeanServer : Bool
  ready : Bool
  deriving DecidableEq, Repr

namespace NodeMonitorActor

abbrev Code := Handler NodeMonitorActor Effect Worker.Throwable

def new : NodeMonitorActor := ⟨none, false, none, false, false⟩

def handlerInit : Code Unit := do
  assign fun m => { m with ready := false, mbeanServer := true }
  perform (.tell .node .getGlobalStatusActor)

def handlerGetSystemAttributes (platform : Platform) (sender : Actor) : Code Unit := do
  let m ← fields
  if m.mbeanServer then
    perform (.tell sender (.systemAttributes ⟨platform.freePhysicalMemorySize, m.vagrant⟩))
  else
    raise .nullPointer

def handlerSetPath (path : String) : Code Unit := assign fun m => { m with path := some path }

def handlerSetGlobalStatusActor (platform : Platform) (actor : Option Actor) : Code Unit := do
  assign fun m => { m with globalStatusActor := actor }
  let vagrant ← deref (.other "checkVagrant") platform.checkVagrant
  assign fun m => { m with vagrant := vagrant, ready := true }
  let statusActor ← deref .nullPointer actor
  perform (.tell statusActor .registerNodeMonitorActor)

def handlerNotReady (sender : Actor) (m : Message) : Code Unit :=
  perform (.tell sender (.notReadyJet m))

def handlerNotReadyJet (sender : Actor) (m : Message) : Code Unit :=
  perform (.scheduleOnce 5 sender m)

/-- `receive`, with the guards in the order of the source. -/
def receive (platform : Platform) (sender : Actor) (m : Message) : Code Unit := do
  let ready := (← fields).ready
  match m with
  | .init => handlerInit
  | .notReadyJet message => handlerNotReadyJet sender message
  | .setPath path => handlerSetPath path
  | .setGlobalStatusActor actor => handlerSetGlobalStatusActor platform actor
  | .getSystemAttributes =>
      if ready then handlerGetSystemAttributes platform sender
      else handlerNotReady sender .getSystemAttributes
  | m => if ready then pure () else handlerNotReady sender m

end NodeMonitorActor

end Clustering.Provisioning
