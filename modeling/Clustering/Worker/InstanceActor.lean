/-
Clustering.Worker.InstanceActor — the registry of the runs: the handlers
of `InstanceActor.scala`.

One `DistributorActor` is created for every `instanceId`, and is entered
in `instances` with the version its first task was added with. A
`GetTask` goes to one run of its version, the one with the least id.
-/
import Mathlib.Data.List.Sort
import Clustering.Worker.WorkerContext

namespace Clustering.Worker

open Actors Actors.Handler

/-- An entry of `instances`: id, actor, version, deploy info. -/
structure Instance where
  instanceId : String
  ref : ℕ
  version : String
  info : DeployInfo
  deriving DecidableEq, Repr

/-- The fields of the `InstanceActor`. -/
structure InstanceActor where
  instances : List Instance
  deriving DecidableEq, Repr

namespace InstanceActor

abbrev Code := WorkerCode InstanceActor

def new : InstanceActor := ⟨[]⟩

/-- `sortBy(a => a._1).head`, of a list that may be empty. -/
def firstById (l : List Instance) : Option Instance :=
  (l.insertionSort fun a b => a.instanceId ≤ b.instanceId).head?

/-- The runs with version `v`. -/
def ofVersion (a : InstanceActor) (v : String) : List Instance :=
  a.instances.filter (·.version = v)

def handleAddTask (legal : String → Bool) (fresh : ℕ) (msg : AddTask) : Code Unit := do
  match childNamed (← fields).children (.named msg.instanceId) with
  | some child => perform (.tell child (.addTask msg))
  | none =>
      let ref ← actorOf legal fresh .distributorActor (.named msg.instanceId)
      -- `msg.version.version()`
      let info ← deref .nullPointer msg.version
      assignFields fun a => ⟨⟨msg.instanceId, ref, info.version, info⟩ :: a.instances⟩
      perform (.tell ref (.addTask msg))
      perform (.watch ref)

def handleGetTask (msg : GetTask) : Code Unit := do
  match firstById ((← fields).fields.ofVersion msg.version) with
  | none => perform (.reply .noMoreTasks)
  | some i => perform (.forward i.ref (.getTask msg))

def handleRunComplete (ref : ℕ) : Code Unit := do
  let instances := (← fields).fields.instances
  let done ← deref .noSuchElement (instances.filter (·.ref = ref)).head?
  perform (.println (.runDone done.instanceId done.version))
  if instances.length = 1 then
    perform (.println .noMoreInstances)

def handleGetDeployInfo : Code Unit := do
  match firstById (← fields).fields.instances with
  | none => perform (.reply .noDeployInfo)
  | some i => perform (.reply (.deployInfo i.info))

def receive (legal : String → Bool) (fresh : ℕ) : WorkerMessage → Code Unit
  | .addTask p => handleAddTask legal fresh p
  | .getTask p => handleGetTask p
  | .getDeployInfo => handleGetDeployInfo
  | .terminated t => do
      handleRunComplete t
      assignFields fun a => ⟨a.instances.filter (·.ref ≠ t)⟩
  | .getInstanceActor => perform (.reply .setInstanceActor)
  | _ => pure ()

/-! ## What each piece of code leaves -/

variable {legal : String → Bool} {fresh : ℕ} {a : InstanceActor} {cs : List Child}

theorem firstById_mem {l : List Instance} {i : Instance} (h : firstById l = some i) : i ∈ l :=
  (List.mem_insertionSort _).mp (List.mem_of_head? h)

theorem firstById_none {l : List Instance} (h : firstById l = none) : l = [] := by
  have h' := List.head?_eq_none_iff.mp h
  have hlen := List.length_insertionSort (fun a b : Instance => a.instanceId ≤ b.instanceId) l
  rw [h'] at hlen
  exact List.length_eq_zero_iff.mp hlen.symm

theorem receive_addTask_pass {msg : AddTask} {c : ℕ}
    (hc : childNamed cs (.named msg.instanceId) = some c) :
    receive legal fresh (.addTask msg) ⟨a, cs⟩ =
      ⟨⟨a, cs⟩, [.tell c (.addTask msg)], .ok ()⟩ := by
  simp [receive, handleAddTask, hc]

theorem receive_addTask_spawn {msg : AddTask} {info : DeployInfo}
    (hc : childNamed cs (.named msg.instanceId) = none)
    (hl : legal msg.instanceId = true) (hv : msg.version = some info) :
    receive legal fresh (.addTask msg) ⟨a, cs⟩ =
      ⟨⟨⟨⟨msg.instanceId, fresh, info.version, info⟩ :: a.instances⟩,
        ⟨.named msg.instanceId, fresh⟩ :: cs⟩,
       [.actorOf fresh (.named msg.instanceId) .distributorActor,
        .tell fresh (.addTask msg), .watch fresh], .ok ()⟩ := by
  simp [receive, handleAddTask, hc, actorOf_legal (n := .named msg.instanceId) hl hc,
    assignFields, hv]

theorem receive_addTask_illegal {msg : AddTask}
    (hc : childNamed cs (.named msg.instanceId) = none) (hl : legal msg.instanceId = false) :
    receive legal fresh (.addTask msg) ⟨a, cs⟩ =
      ⟨⟨a, cs⟩, [], .error (.invalidActorName msg.instanceId)⟩ := by
  simp [receive, handleAddTask, hc, actorOf_illegal (n := .named msg.instanceId) hl]
  rfl

/-- The version is null: the child exists by then, unregistered and
unwatched. -/
theorem receive_addTask_noVersion {msg : AddTask}
    (hc : childNamed cs (.named msg.instanceId) = none)
    (hl : legal msg.instanceId = true) (hv : msg.version = none) :
    receive legal fresh (.addTask msg) ⟨a, cs⟩ =
      ⟨⟨a, ⟨.named msg.instanceId, fresh⟩ :: cs⟩,
       [.actorOf fresh (.named msg.instanceId) .distributorActor], .error .nullPointer⟩ := by
  simp [receive, handleAddTask, hc, actorOf_legal (n := .named msg.instanceId) hl hc, hv]

theorem receive_getTask_none {msg : GetTask} (h : firstById (a.ofVersion msg.version) = none) :
    receive legal fresh (.getTask msg) ⟨a, cs⟩ = ⟨⟨a, cs⟩, [.reply .noMoreTasks], .ok ()⟩ := by
  simp [receive, handleGetTask, h]

theorem receive_getTask {msg : GetTask} {i : Instance}
    (h : firstById (a.ofVersion msg.version) = some i) :
    receive legal fresh (.getTask msg) ⟨a, cs⟩ =
      ⟨⟨a, cs⟩, [.forward i.ref (.getTask msg)], .ok ()⟩ := by
  simp [receive, handleGetTask, h]

theorem receive_getDeployInfo_none (h : firstById a.instances = none) :
    receive legal fresh .getDeployInfo ⟨a, cs⟩ = ⟨⟨a, cs⟩, [.reply .noDeployInfo], .ok ()⟩ := by
  simp [receive, handleGetDeployInfo, h]

theorem receive_getDeployInfo {i : Instance} (h : firstById a.instances = some i) :
    receive legal fresh .getDeployInfo ⟨a, cs⟩ =
      ⟨⟨a, cs⟩, [.reply (.deployInfo i.info)], .ok ()⟩ := by
  simp [receive, handleGetDeployInfo, h]

/-- The lines that tell that a run is done; the last run is told twice. -/
def doneLines (a : InstanceActor) (i : Instance) : List ConsoleLine :=
  .runDone i.instanceId i.version :: if a.instances.length = 1 then [.noMoreInstances] else []

theorem receive_terminated {t : ℕ} {i : Instance} (h : a.instances.find? (·.ref = t) = some i) :
    receive legal fresh (.terminated t) ⟨a, cs⟩ =
      ⟨⟨⟨a.instances.filter (·.ref ≠ t)⟩, cs⟩, (doneLines a i).map .println, .ok ()⟩ := by
  by_cases hlast : a.instances.length = 1
  · simp [receive, handleRunComplete, assignFields, doneLines, h, hlast]
  · simp [receive, handleRunComplete, assignFields, doneLines, h, hlast]

theorem find_ref {t : ℕ} (h : ∃ i ∈ a.instances, i.ref = t) :
    ∃ i ∈ a.instances, i.ref = t ∧ a.instances.find? (·.ref = t) = some i := by
  cases hf : a.instances.find? (·.ref = t) with
  | none =>
    obtain ⟨i, hi, hit⟩ := h
    have hne := List.find?_eq_none.mp hf i hi
    simp [hit] at hne
  | some i => exact ⟨i, List.mem_of_find?_eq_some hf, by simpa using List.find?_some hf, rfl⟩

theorem receive_terminated_unknown {t : ℕ} (h : ∀ i ∈ a.instances, i.ref ≠ t) :
    receive legal fresh (.terminated t) ⟨a, cs⟩ = ⟨⟨a, cs⟩, [], .error .noSuchElement⟩ := by
  have hnil : a.instances.find? (·.ref = t) = none :=
    List.find?_eq_none.mpr fun i hi => by simpa using h i hi
  simp [receive, handleRunComplete, hnil]

end InstanceActor

end Clustering.Worker
