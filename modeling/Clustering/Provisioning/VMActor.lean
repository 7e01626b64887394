/-
Clustering.Provisioning.VMActor — the handlers of `VMActor.scala`.

A `VMActor` asks for a configuration itself, and provisions the last one
it was sent as soon as it knows that Vagrant is there. Vagrant is run by
a runnable on another thread, which reads and assigns the fields of the
actor directly: `createEnvironment` and `finishRunnable` are its steps.
-/
import Clustering.Provisioning.Messages

namespace Clustering.Provisioning

open Actors Actors.Handler

/-- The fields of a `VMActor`. Of the timer only whether there is one is
read; of an environment which configuration it was created from. -/
structure VMActor where
  nodeMonitorActor : Option Actor
  instanceActor : Option Actor
  globalStatusActor : Option Actor
  vmProxyActor : Option Actor
  vagrantEnvironmentConfig : Option VagrantEnvironmentConfig
  vagrantEnvironment : Option VagrantEnvironmentConfig
  vmProvisioned : Bool
  scheduleOnceGetDeployInfo : Bool
  systemAttributes : Option SystemAttributes
  vagrant : Bool
  path : Option String
  ready : Bool
  deriving DecidableEq, Repr

namespace VMActor

abbrev Code := Handler VMActor Effect Worker.Throwable

/-- The fields of a fresh instance, before its `Init`. -/
def new : VMActor := ⟨none, none, none, none, none, none, false, false, none, false, none, false⟩

def handlerInit (self : ℕ) : Code Unit := do
  assign fun v => { v with vagrant := false, vmProvisioned := false, ready := false }
  perform (.tell .node .getInstanceActor)
  perform (.tell .node (.getVmProxyActor self))
  perform (.tell .node .getNodeMonitorActor)
  perform (.tell .node .getGlobalStatusActor)

/-- `scheduleOnceGetDeployInfo(delay)`. A timer for a null actor is a timer,
which sends nothing when it fires. -/
def scheduleGetDeployInfo (delay : ℕ) : Code Unit := do
  match (← fields).instanceActor with
  | some instanceActor => perform (.scheduleOnce delay instanceActor .getDeployInfo)
  | none => pure ()
  assign fun v => { v with scheduleOnceGetDeployInfo := true }

def checkReady : Code Unit := do
  let v ← fields
  if v.instanceActor.isSome ∧ v.vmProxyActor.isSome ∧ v.nodeMonitorActor.isSome ∧
      v.globalStatusActor.isSome then
    assign fun v => { v with ready := true }
    if !(← fields).scheduleOnceGetDeployInfo then
      scheduleGetDeployInfo 0
    let monitorActor ← deref .nullPointer (← fields).nodeMonitorActor
    perform (.tell monitorActor .getSystemAttributes)

def handlerSetInstanceActor (actor : Option Actor) : Code Unit := do
  assign fun v => { v with instanceActor := actor }
  checkReady

def handlerSetVmProxyActor (actor : Option Actor) : Code Unit := do
  assign fun v => { v with vmProxyActor := actor }
  checkReady

def handlerSetNodeMonitorActor (actor : Option Actor) : Code Unit := do
  assign fun v => { v with nodeMonitorActor := actor }
  checkReady

def handlerSetGlobalStatusActor (actor : Option Actor) : Code Unit := do
  assign fun v => { v with globalStatusActor := actor }
  checkReady

/-- `provider.setVmName(name)`, seen by every machine with that provider. -/
def setVmName (provider : ℕ) (name : String) (vms : List VagrantVmConfig) :
    List VagrantVmConfig :=
  vms.map fun vm =>
    if vm.provider.ref = provider then
      { vm with provider := { vm.provider with vmName := some name } }
    else vm

/-- `d.setName(name)`. -/
def setName (ref : ℕ) (name : String) (vms : List VagrantVmConfig) : List VagrantVmConfig :=
  vms.map fun vm => if vm.ref = ref then { vm with name := name } else vm

/-- The name for a machine, and `vmCounter` behind it: `vmCounter` counts
the machines that had no name. -/
def nextName (uuid : String) (vmCounter : ℕ) (provider : VagrantProviderConfig) : String × ℕ :=
  match provider.vmName with
  | some name =>
      if 0 < name.length then (name ++ "_" ++ uuid, vmCounter)
      else (uuid ++ "_" ++ toString (vmCounter + 1), vmCounter + 1)
  | none => (uuid ++ "_" ++ toString (vmCounter + 1), vmCounter + 1)

/-- The body of the loop over the machines, at the one at `i`. -/
def renameVm (uuid : String) (s : List VagrantVmConfig × ℕ) (i : ℕ) : List VagrantVmConfig × ℕ :=
  match s.1[i]? with
  | some d =>
      let (name, vmCounter) := nextName uuid s.2 d.provider
      (setName d.ref name (setVmName d.provider.ref name s.1), vmCounter)
  | none => s

/-- The loop: it reads each machine as the ones before have left it. -/
def renameVms (uuid : String) (vms : List VagrantVmConfig) : List VagrantVmConfig :=
  ((List.range vms.length).foldl (renameVm uuid) (vms, 0)).1

/-- `prepareProvisionVm`, where `isDirectory` says whether the path of the
configuration is one. -/
def prepareProvisionVm (self : ℕ) (isDirectory : Bool) : Code Unit := do
  let v ← fields
  match v.vagrantEnvironmentConfig with
  | some config =>
      if v.vagrant then
        if isDirectory then
          let path := config.path ++ "/" ++ toString self
          assign fun v => { v with
            path := some path
            vagrantEnvironmentConfig :=
              some ⟨renameVms (toString self) config.vmConfigs, path, config.version⟩ }
          perform (.submit config.version)
        else
          raise (.other "path is not a directory!")
  | none => pure ()

def handlerDeployInfo (self : ℕ) (isDirectory : Bool) (config : VagrantEnvironmentConfig) :
    Code Unit := do
  assign fun v => { v with scheduleOnceGetDeployInfo := false }
  -- a deep clone
  assign fun v => { v with vagrantEnvironmentConfig := some config }
  prepareProvisionVm self isDirectory

def handlerNoDeployInfo : Code Unit := do
  assign fun v => { v with scheduleOnceGetDeployInfo := false, vagrantEnvironmentConfig := none }
  let v ← fields
  if v.systemAttributes.isSome ∧ v.vagrant = true then
    scheduleGetDeployInfo 30

def handlerSystemAttributes (self : ℕ) (isDirectory : Bool) (attributes : SystemAttributes) :
    Code Unit := do
  assign fun v => { v with systemAttributes := some attributes, vagrant := attributes.vagrant }
  prepareProvisionVm self isDirectory

def finishProvisionVm (self : ℕ) (isDirectory running : Bool) : Code Unit := do
  if running then
    assign fun v => { v with vmProvisioned := true }
    perform (.tell .node .vmProvisioned)
    let proxy ← deref .nullPointer (← fields).vmProxyActor
    perform (.tell proxy (.setVagrantEnvironmentConfig (← fields).vagrantEnvironmentConfig))
    let statusActor ← deref .nullPointer (← fields).globalStatusActor
    perform (.tell statusActor (.registerVmActor self))
  else
    assign fun v => { v with vmProvisioned := false }
    prepareProvisionVm self isDirectory

def handlerVmDestroyed (self : ℕ) : Code Unit := do
  perform (.tell .node (.removeVmActor false self))
  let statusActor ← deref .nullPointer (← fields).globalStatusActor
  perform (.tell statusActor (.deregisterVmActor self))
  perform .stopSelf

def handlerNotReady (sender : Actor) (m : Message) : Code Unit :=
  perform (.tell sender (.notReadyJet m))

def handlerNotReadyJet (sender : Actor) (m : Message) : Code Unit :=
  perform (.scheduleOnce 5 sender m)

/-- `case x if !ready || !vmProvisioned`. -/
def otherwise (sender : Actor) (m : Message) : Code Unit := do
  let v ← fields
  if v.ready = false ∨ v.vmProvisioned = false then
    handlerNotReady sender m

/-- `receive`, with the guards in the order of the source. -/
def receive (self : ℕ) (isDirectory : Bool) (sender : Actor) (m : Message) : Code Unit := do
  let v ← fields
  match m with
  | .init => handlerInit self
  | .setInstanceActor actor => handlerSetInstanceActor actor
  | .setVmProxyActor actor => handlerSetVmProxyActor actor
  | .setNodeMonitorActor actor => handlerSetNodeMonitorActor actor
  | .setGlobalStatusActor actor => handlerSetGlobalStatusActor actor
  | .notReadyJet message => handlerNotReadyJet sender message
  | .deployInfo config =>
      if v.ready then handlerDeployInfo self isDirectory config else otherwise sender m
  | .systemAttributes attributes =>
      if v.ready then handlerSystemAttributes self isDirectory attributes else otherwise sender m
  | .noDeployInfo => if v.ready then handlerNoDeployInfo else otherwise sender m
  | .vmTaskResult running =>
      if v.ready then finishProvisionVm self isDirectory running else otherwise sender m
  | .vmDestroyed => if v.ready then handlerVmDestroyed self else otherwise sender m
  | .noMoreTasks => if v.vmProvisioned then perform .submitDestroy else otherwise sender m
  | .getVagrantEnvironmentConfig =>
      if v.vmProvisioned then
        perform (.tell sender (.setVagrantEnvironmentConfig v.vagrantEnvironmentConfig))
      else otherwise sender m
  | m => otherwise sender m

/-! ## The runnable -/

/-- `vagrantEnvironment = new Vagrant().createEnvironment(config)`, of the
configuration in the field: the machines of it are booted next. -/
def createEnvironment (v : VMActor) : VMActor :=
  { v with vagrantEnvironment := v.vagrantEnvironmentConfig }

/-- After `up()` the field is assigned again: the port mappings are those
of the booted machines, the version is the one the runnable has read. -/
def finishRunnable (version : String) (v : VMActor) : VMActor :=
  { v with vagrantEnvironmentConfig :=
    v.vagrantEnvironmentConfig.map fun config => { config with version := version } }

end VMActor

end Clustering.Provisioning
