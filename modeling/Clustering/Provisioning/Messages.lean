/-
Clustering.Provisioning.Messages — what a node and its virtual machines
send each other until a machine is provisioned.

Of a configuration the memory of its machines is kept, with the names
and the path `VMActor` rewrites; of the system attributes what `addVm`
reads. The pair of actors of a machine is named by its uuid, a number.
-/
import Clustering.Worker.Messages

namespace Clustering.Provisioning

/-- The actors of one node, and those it talks to. -/
inductive Actor where
  | node
  | monitor
  | master
  | globalStatus
  | instances
  | vmActor (uuid : ℕ)
  | vmProxyActor (uuid : ℕ)
  deriving DecidableEq, Repr

/-- An object with the identity `ref`: machines may share it. `memory()`
is an `Integer` that may be null. -/
structure VagrantProviderConfig where
  ref : ℕ
  memory : Option Int
  vmName : Option String
  deriving DecidableEq, Repr

/-- An object with the identity `ref`: a list may have it twice. -/
structure VagrantVmConfig where
  ref : ℕ
  name : String
  provider : VagrantProviderConfig
  deriving DecidableEq, Repr

structure VagrantEnvironmentConfig where
  vmConfigs : List VagrantVmConfig
  path : String
  version : String
  deriving DecidableEq, Repr

/-- `Map[String,String]` with the entries `FreePhysicalMemorySize`, which
the platform may not know, and `Vagrant`. -/
structure SystemAttributes where
  freePhysicalMemorySize : Option Int
  vagrant : Bool
  deriving DecidableEq, Repr

inductive Message where
  | init
  | setGlobalStatusActor (actor : Option Actor)
  | setInstanceActor (actor : Option Actor)
  | setNodeMonitorActor (actor : Option Actor)
  | setVmProxyActor (actor : Option Actor)
  | setVmActor (actor : Option Actor)
  | notReadyJet (message : Message)
  | getGlobalStatusActor
  | getInstanceActor
  | getNodeMonitorActor
  /-- `GetVmProxyActor(actor)`, of which the uuid in its name is read. -/
  | getVmProxyActor (uuid : ℕ)
  | getVmActor (uuid : ℕ)
  | addVmActor
  /-- `RemoveVmActor(actor)`, with type and uuid of its name. -/
  | removeVmActor (proxy : Bool) (uuid : ℕ)
  | getDeployInfo
  | deployInfo (config : VagrantEnvironmentConfig)
  | noDeployInfo
  | getSystemAttributes
  | systemAttributes (attributes : SystemAttributes)
  | setPath (path : String)
  | vmProvisioned
  /-- `VmTaskResult` of a provisioning: whether every machine is running. -/
  | vmTaskResult (running : Bool)
  /-- `VmTaskResult(VmDestroy())`. -/
  | vmDestroyed
  | noMoreTasks
  | getVagrantEnvironmentConfig
  | setVagrantEnvironmentConfig (config : Option VagrantEnvironmentConfig)
  | registerNodeMonitorActor
  | registerVmActor (uuid : ℕ)
  | deregisterVmActor (uuid : ℕ)
  deriving DecidableEq, Repr

/-- A message on its way, or that a timer will send. -/
structure Envelope where
  sender : Actor
  receiver : Actor
  msg : Message
  deriving DecidableEq, Repr

/-- What the handlers of a node leave besides their fields. -/
inductive Effect where
  | tell (receiver : Actor) (msg : Message)
  /-- `scheduler.scheduleOnce(delay, receiver, message)`, in seconds. -/
  | scheduleOnce (delay : ℕ) (receiver : Actor) (msg : Message)
  | actorOf (actor : Actor)
  | stopSelf
  /-- A runnable is given to a `VMActorHelper`; it has read `version`. -/
  | submit (version : String)
  /-- A runnable that destroys the environment. -/
  | submitDestroy
  deriving DecidableEq, Repr

end Clustering.Provisioning
