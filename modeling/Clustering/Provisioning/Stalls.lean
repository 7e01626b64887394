/-
Clustering.Provisioning.Stalls — whether a `VMActor` is still waiting for
something.

`Machine` is a `VMActor` with its errands: requests for a configuration
and for the system attributes, each from the timer or the request to the
answer, and the helpers that provision. Every message is handled by
`VMActor.receive`; answers and failures come in any order. Each step that
can lose the last errand is known (`Keeps`), and an actor stalls in no
other way (`never_stalls_iff`).
-/
import Clustering.Actors.Runs
import Clustering.Provisioning.VMActor

namespace Clustering.Provisioning

open Actors Actors.EventSystem

/-! ## The actor and its errands -/

/-- `orphans` are helpers of an instance that was restarted. -/
structure Machine where
  vm : VMActor
  /-- `Init` is still to be handled. -/
  starting : Bool
  asking : ℕ
  exchanging : ℕ
  helping : ℕ
  orphans : ℕ
  deriving DecidableEq, Repr

def isAsking : Effect → Bool
  | .tell _ .getDeployInfo | .scheduleOnce _ _ .getDeployInfo => true
  | _ => false

def isExchanging : Effect → Bool
  | .tell _ .getSystemAttributes | .scheduleOnce _ _ .getSystemAttributes => true
  | _ => false

def isSubmitting : Effect → Bool
  | .submit _ => true
  | _ => false

inductive MachineEvent where
  | init
  | setInstanceActor (actor : Option Actor)
  | setVmProxyActor (actor : Option Actor)
  | setNodeMonitorActor (actor : Option Actor)
  | setGlobalStatusActor (actor : Option Actor)
  /-- A request was refused, and is sent again in five seconds. -/
  | notReadyJet (sender : Actor) (message : Message)
  /-- `DeployInfo` or `NoDeployInfo`. -/
  | answer (config : Option VagrantEnvironmentConfig) (isDirectory : Bool)
  | attributes (attributes : SystemAttributes) (isDirectory : Bool)
  /-- A helper has sent its `VmTaskResult`. -/
  | report (orphan running isDirectory : Bool)
  /-- The runnable assigns the environment, and after `up()` the
  configuration. -/
  | created
  | booted (version : String)
  /-- `up()` or what stands around it has failed. -/
  | askAgain (orphan : Bool)
  /-- A helper raises outside of the `try`, or in the `catch`. -/
  | vanish (orphan : Bool)
  deriving DecidableEq, Repr

namespace Machine

/-- A message is handled. A restarted actor is a new instance, and the
helpers of the old one are no longer its own. -/
def handle (uuid : ℕ) (isDirectory : Bool) (sender : Actor) (m : Message) (s : Machine) :
    Machine :=
  let out := VMActor.receive uuid isDirectory sender m s.vm
  let s' := { s with
    vm := out.fields
    asking := s.asking + out.effects.countP isAsking
    exchanging := s.exchanging + out.effects.countP isExchanging
    helping := s.helping + out.effects.countP isSubmitting }
  match out.raised with
  | none => s'
  | some _ => { s' with
      vm := .new
      starting := true
      helping := 0
      orphans := s'.orphans + s'.helping }

/-- A helper is gone. -/
def leave (s : Machine) (orphan : Bool) : Option Machine :=
  if orphan then
    if 0 < s.orphans then some { s with orphans := s.orphans - 1 } else none
  else if 0 < s.helping then some { s with helping := s.helping - 1 } else none

/-- A request is no longer outstanding. -/
def settle (s : Machine) : Message → Option Machine
  | .getDeployInfo => if 0 < s.asking then some { s with asking := s.asking - 1 } else none
  | .getSystemAttributes =>
    if 0 < s.exchanging then some { s with exchanging := s.exchanging - 1 } else none
  | _ => some s

/-- What an actor refuses comes again, in answer to its `NotReadyJet`. -/
def unlessRefused (s s' : Machine) : Machine := if s.vm.ready then s' else s

def step (uuid : ℕ) (s : Machine) : MachineEvent → Option Machine
  | .init =>
    if s.starting then some ({ s with starting := false }.handle uuid true (.vmActor uuid) .init)
    else none
  | .setInstanceActor actor => some (s.handle uuid true .node (.setInstanceActor actor))
  | .setVmProxyActor actor => some (s.handle uuid true .node (.setVmProxyActor actor))
  | .setNodeMonitorActor actor => some (s.handle uuid true .node (.setNodeMonitorActor actor))
  | .setGlobalStatusActor actor => some (s.handle uuid true .node (.setGlobalStatusActor actor))
  | .notReadyJet sender message =>
    (s.settle message).map (·.handle uuid true sender (.notReadyJet message))
  | .answer config isDirectory =>
    -- an `InstanceActor` does not know `NotReadyJet`
    (s.settle .getDeployInfo).map (·.handle uuid isDirectory .instances
      (match config with
        | some config => .deployInfo config
        | none => .noDeployInfo))
  | .attributes attributes isDirectory =>
    (s.settle .getSystemAttributes).map fun s' =>
      (s.unlessRefused s').handle uuid isDirectory .monitor (.systemAttributes attributes)
  | .report orphan running isDirectory =>
    (s.leave orphan).map fun s' =>
      (s.unlessRefused s').handle uuid isDirectory (.vmActor uuid) (.vmTaskResult running)
  | .created => if 0 < s.helping then some { s with vm := s.vm.createEnvironment } else none
  | .booted version =>
    if 0 < s.helping then some { s with vm := s.vm.finishRunnable version } else none
  | .askAgain orphan => (s.leave orphan).map fun s => { s with asking := s.asking + 1 }
  | .vanish orphan => s.leave orphan

end Machine

/-- A `VMActor` that was just created. -/
def machine (uuid : ℕ) : EventSystem Machine MachineEvent :=
  ⟨⟨.new, true, 0, 0, 0, 0⟩, Machine.step uuid⟩

namespace Machine

/-! ## Stalls -/

/-- Something will still come: a configuration, system attributes that
find one, or the report of a helper. -/
def Outstanding (s : Machine) : Prop :=
  0 < s.asking ∨ 0 < s.helping ∨
    (0 < s.exchanging ∧ s.vm.vagrantEnvironmentConfig.isSome = true)

def Stalled (s : Machine) : Prop :=
  s.vm.ready = true ∧ s.vm.vmProvisioned = false ∧ ¬ s.Outstanding

/-- What there is for an actor that becomes ready. A timer that was set
before is not set again, and may be long over. -/
def Startable (s : Machine) : Prop :=
  s.vm.ready = true ∨ s.vm.scheduleOnceGetDeployInfo = false ∨ s.vm.vmProvisioned = true ∨
    0 < s.asking ∨ 0 < s.helping ∨ s.vm.vagrantEnvironmentConfig.isSome = true

/-- What a step must find so that it does not take the last errand. -/
def Keeps (s : Machine) : MachineEvent → Prop
  | .setInstanceActor actor =>
    s.Startable ∨ ¬ (actor.isSome ∧ s.vm.vmProxyActor.isSome ∧ s.vm.nodeMonitorActor.isSome ∧
      s.vm.globalStatusActor.isSome)
  | .setVmProxyActor actor =>
    s.Startable ∨ ¬ (s.vm.instanceActor.isSome ∧ actor.isSome ∧ s.vm.nodeMonitorActor.isSome ∧
      s.vm.globalStatusActor.isSome)
  | .setNodeMonitorActor actor =>
    s.Startable ∨ ¬ (s.vm.instanceActor.isSome ∧ s.vm.vmProxyActor.isSome ∧ actor.isSome ∧
      s.vm.globalStatusActor.isSome)
  | .setGlobalStatusActor actor =>
    s.Startable ∨ ¬ (s.vm.instanceActor.isSome ∧ s.vm.vmProxyActor.isSome ∧
      s.vm.nodeMonitorActor.isSome ∧ actor.isSome)
  | .answer none _ =>
    s.vm.ready = false ∨ s.vm.vmProvisioned = true ∨ 1 < s.asking ∨ 0 < s.helping ∨
      (s.vm.systemAttributes.isSome = true ∧ s.vm.vagrant = true ∧ s.vm.instanceActor.isSome = true)
  | .answer (some _) _ =>
    s.vm.ready = false ∨ s.vm.vmProvisioned = true ∨ 1 < s.asking ∨ 0 < s.helping ∨
      s.vm.vagrant = true ∨ 0 < s.exchanging
  | .attributes a _ =>
    s.vm.ready = false ∨ s.vm.vmProvisioned = true ∨ 0 < s.asking ∨ 0 < s.helping ∨
      (s.vm.vagrantEnvironmentConfig.isSome = true ∧ (a.vagrant = true ∨ 1 < s.exchanging))
  | .report orphan running _ =>
    s.vm.ready = false ∨ running = true ∨ 0 < s.asking ∨
      (if orphan then 0 else 1) < s.helping ∨
      (s.vm.vagrantEnvironmentConfig.isSome = true ∧ (s.vm.vagrant = true ∨ 0 < s.exchanging))
  | .vanish orphan =>
    orphan = true ∨ s.vm.ready = false ∨ s.vm.vmProvisioned = true ∨ 0 < s.asking ∨
      1 < s.helping ∨
      (0 < s.exchanging ∧ s.vm.vagrantEnvironmentConfig.isSome = true)
  | _ => True

instance (s : Machine) : Decidable s.Outstanding := inferInstanceAs (Decidable (_ ∨ _ ∨ (_ ∧ _)))

instance (s : Machine) : Decidable s.Stalled := inferInstanceAs (Decidable (_ ∧ _ ∧ ¬ _))

instance (s : Machine) : Decidable s.Startable :=
  inferInstanceAs (Decidable (_ ∨ _ ∨ _ ∨ _ ∨ _ ∨ _))

instance (s : Machine) : (e : MachineEvent) → Decidable (s.Keeps e)
  | .setInstanceActor _ | .setVmProxyActor _ | .setNodeMonitorActor _ | .setGlobalStatusActor _ =>
    inferInstanceAs (Decidable (_ ∨ ¬ (_ ∧ _ ∧ _ ∧ _)))
  | .answer none _ => inferInstanceAs (Decidable (_ ∨ _ ∨ _ ∨ _ ∨ (_ ∧ _ ∧ _)))
  | .attributes _ _ => inferInstanceAs (Decidable (_ ∨ _ ∨ _ ∨ _ ∨ (_ ∧ _)))
  | .answer (some _) _ => inferInstanceAs (Decidable (_ ∨ _ ∨ _ ∨ _ ∨ _ ∨ _))
  | .report _ _ _ => inferInstanceAs (Decidable (_ ∨ _ ∨ _ ∨ _ ∨ (_ ∧ _)))
  | .vanish _ => inferInstanceAs (Decidable (_ ∨ _ ∨ _ ∨ _ ∨ _ ∨ (_ ∧ _)))
  | .init | .notReadyJet _ _ | .created | .booted _ | .askAgain _ =>
    inferInstanceAs (Decidable True)

/-! ## What a message does -/

theorem not_stalled_iff (s : Machine) :
    ¬ s.Stalled ↔ s.vm.ready = false ∨ s.vm.vmProvisioned = true ∨ 0 < s.asking ∨ 0 < s.helping ∨
      (0 < s.exchanging ∧ s.vm.vagrantEnvironmentConfig.isSome = true) := by
  unfold Stalled Outstanding
  cases s.vm.ready with
  | false => simp
  | true =>
    cases s.vm.vmProvisioned with
    | true => simp
    | false => simp only [Bool.true_eq_false, Bool.false_eq_true, true_and, not_not, false_or]

section Handled

variable {uuid : ℕ} {isDirectory : Bool} {sender : Actor} {m : Message} {s : Machine}

theorem handle_ok {vm : VMActor} {es : List Effect}
    (h : VMActor.receive uuid isDirectory sender m s.vm = ⟨vm, es, .ok ()⟩) :
    s.handle uuid isDirectory sender m = { s with
      vm := vm
      asking := s.asking + es.countP isAsking
      exchanging := s.exchanging + es.countP isExchanging
      helping := s.helping + es.countP isSubmitting } := by
  simp [handle, h]

/-- An exception makes a new instance of the actor. -/
theorem handle_error {vm : VMActor} {es : List Effect} {e : Worker.Throwable}
    (h : VMActor.receive uuid isDirectory sender m s.vm = ⟨vm, es, .error e⟩) :
    ¬ (s.handle uuid isDirectory sender m).Stalled := by
  have hnew : (s.handle uuid isDirectory sender m).vm = .new := by
    simp [handle, h]
  rw [not_stalled_iff, hnew]
  exact Or.inl rfl

/-- Before it is ready, an actor refuses what it is asked. -/
theorem handle_unready (h : s.vm.ready = false)
    (hm : (∃ c, m = .deployInfo c) ∨ m = .noDeployInfo ∨ (∃ a, m = .systemAttributes a) ∨
      ∃ b, m = .vmTaskResult b) : ¬ (s.handle uuid isDirectory sender m).Stalled := by
  have hreceive : VMActor.receive uuid isDirectory sender m s.vm =
      ⟨s.vm, [.tell sender (.notReadyJet m)], .ok ()⟩ := by
    obtain ⟨c, rfl⟩ | rfl | ⟨a, rfl⟩ | ⟨b, rfl⟩ := hm <;>
      simp [VMActor.receive, VMActor.otherwise, VMActor.handlerNotReady, h]
  rw [handle_ok hreceive, not_stalled_iff]
  exact Or.inl h

/-- `prepareProvisionVm` gives a configuration to a helper, if Vagrant is
there; in a path that is no directory it raises. -/
theorem prepareProvisionVm_cases (vm : VMActor) :
    (vm.vagrantEnvironmentConfig.isSome = true ∧ vm.vagrant = true ∧
      ((∃ e, (VMActor.prepareProvisionVm uuid isDirectory vm).result = .error e) ∨
        ∃ path config version, VMActor.prepareProvisionVm uuid isDirectory vm =
          ⟨{ vm with path := path, vagrantEnvironmentConfig := some config },
            [.submit version], .ok ()⟩)) ∨
    ((vm.vagrantEnvironmentConfig = none ∨ vm.vagrant = false) ∧
      VMActor.prepareProvisionVm uuid isDirectory vm = ⟨vm, [], .ok ()⟩) := by
  cases hconfig : vm.vagrantEnvironmentConfig with
  | none => exact Or.inr ⟨Or.inl rfl, by simp [VMActor.prepareProvisionVm, hconfig]⟩
  | some config =>
    cases hvagrant : vm.vagrant with
    | false => exact Or.inr ⟨Or.inr rfl, by simp [VMActor.prepareProvisionVm, hconfig, hvagrant]⟩
    | true =>
      refine Or.inl ⟨rfl, rfl, ?_⟩
      cases isDirectory with
      | false => exact Or.inl ⟨_, by simp [VMActor.prepareProvisionVm, hconfig, hvagrant]; rfl⟩
      | true =>
        exact Or.inr ⟨some (config.path ++ "/" ++ toString uuid),
          ⟨VMActor.renameVms (toString uuid) config.vmConfigs,
            config.path ++ "/" ++ toString uuid, config.version⟩, config.version,
          by simp [VMActor.prepareProvisionVm, hconfig, hvagrant]⟩

/-- A handler that ends with `prepareProvisionVm`, behind assignments. -/
theorem handle_prepare {vm : VMActor}
    (hreceive : VMActor.receive uuid isDirectory sender m s.vm =
      VMActor.prepareProvisionVm uuid isDirectory vm) (hready : vm.ready = true) :
    ¬ (s.handle uuid isDirectory sender m).Stalled ↔
      vm.vmProvisioned = true ∨ 0 < s.asking ∨ 0 < s.helping ∨
        (vm.vagrantEnvironmentConfig.isSome = true ∧ (vm.vagrant = true ∨ 0 < s.exchanging)) := by
  obtain ⟨hconfig, hvagrant, ⟨e, he⟩ | ⟨path, config, version, hprepare⟩⟩ | ⟨hnone, hprepare⟩ :=
    @prepareProvisionVm_cases uuid isDirectory vm
  · rw [show VMActor.prepareProvisionVm uuid isDirectory vm = ⟨_, _, .error e⟩ by rw [← he]]
      at hreceive
    exact iff_of_true (handle_error hreceive) (by simp [hconfig, hvagrant])
  · rw [hprepare] at hreceive
    rw [handle_ok hreceive]
    refine iff_of_true ?_ (by simp [hconfig, hvagrant])
    simp [not_stalled_iff, isSubmitting]
  · rw [hprepare] at hreceive
    rw [handle_ok hreceive]
    obtain hnone | hnone := hnone
    · simp [not_stalled_iff, hready, hnone]
    · simp [not_stalled_iff, hready, hnone, and_comm]

theorem handle_deployInfo (h : s.vm.ready = true) (config : VagrantEnvironmentConfig) :
    ¬ (s.handle uuid isDirectory sender (.deployInfo config)).Stalled ↔
      s.vm.vmProvisioned = true ∨ 0 < s.asking ∨ 0 < s.helping ∨ s.vm.vagrant = true ∨
        0 < s.exchanging := by
  have hreceive : VMActor.receive uuid isDirectory sender (.deployInfo config) s.vm =
      VMActor.prepareProvisionVm uuid isDirectory { s.vm with
        scheduleOnceGetDeployInfo := false, vagrantEnvironmentConfig := some config } := by
    simp [VMActor.receive, VMActor.handlerDeployInfo, h]
  simpa using handle_prepare hreceive h

theorem handle_systemAttributes (h : s.vm.ready = true) (a : SystemAttributes) :
    ¬ (s.handle uuid isDirectory sender (.systemAttributes a)).Stalled ↔
      s.vm.vmProvisioned = true ∨ 0 < s.asking ∨ 0 < s.helping ∨
        (s.vm.vagrantEnvironmentConfig.isSome = true ∧
          (a.vagrant = true ∨ 0 < s.exchanging)) := by
  have hreceive : VMActor.receive uuid isDirectory sender (.systemAttributes a) s.vm =
      VMActor.prepareProvisionVm uuid isDirectory { s.vm with
        systemAttributes := some a, vagrant := a.vagrant } := by
    simp [VMActor.receive, VMActor.handlerSystemAttributes, h]
  exact handle_prepare hreceive h

theorem handle_vmTaskResult (h : s.vm.ready = true) (running : Bool) :
    ¬ (s.handle uuid isDirectory sender (.vmTaskResult running)).Stalled ↔
      running = true ∨ 0 < s.asking ∨ 0 < s.helping ∨
        (s.vm.vagrantEnvironmentConfig.isSome = true ∧
          (s.vm.vagrant = true ∨ 0 < s.exchanging)) := by
  have hfinish : VMActor.receive uuid isDirectory sender (.vmTaskResult running) s.vm =
      VMActor.finishProvisionVm uuid isDirectory running s.vm := by
    simp [VMActor.receive, h]
  unfold VMActor.finishProvisionVm at hfinish
  cases running with
  | false =>
    have hreceive : VMActor.receive uuid isDirectory sender (.vmTaskResult false) s.vm =
        VMActor.prepareProvisionVm uuid isDirectory { s.vm with vmProvisioned := false } := by
      simp [hfinish]
    simpa using handle_prepare hreceive h
  | true =>
    -- the actor counts as provisioned, or is restarted
    refine iff_of_true ?_ (Or.inl rfl)
    cases hproxy : s.vm.vmProxyActor with
    | none =>
      simp [hproxy] at hfinish
      exact handle_error hfinish
    | some proxy =>
      cases hstatus : s.vm.globalStatusActor with
      | none =>
        simp [hproxy, hstatus] at hfinish
        exact handle_error hfinish
      | some statusActor =>
        simp [hproxy, hstatus] at hfinish
        rw [handle_ok hfinish]
        simp [not_stalled_iff]

theorem handle_noDeployInfo (h : s.vm.ready = true) :
    ¬ (s.handle uuid isDirectory sender .noDeployInfo).Stalled ↔
      s.vm.vmProvisioned = true ∨ 0 < s.asking ∨ 0 < s.helping ∨
        (s.vm.systemAttributes.isSome = true ∧ s.vm.vagrant = true ∧
          s.vm.instanceActor.isSome = true) := by
  have hreceive : VMActor.receive uuid isDirectory sender .noDeployInfo s.vm =
      VMActor.handlerNoDeployInfo s.vm := by
    simp [VMActor.receive, h]
  unfold VMActor.handlerNoDeployInfo VMActor.scheduleGetDeployInfo at hreceive
  by_cases hknown : s.vm.systemAttributes.isSome = true ∧ s.vm.vagrant = true
  · cases hactor : s.vm.instanceActor with
    | none =>
      -- the timer sends nothing
      simp [hknown.1, hknown.2, hactor] at hreceive
      rw [handle_ok hreceive]
      simp [not_stalled_iff, h]
    | some instanceActor =>
      refine iff_of_true ?_ (by simp [hknown.1, hknown.2])
      simp [hknown.1, hknown.2, hactor] at hreceive
      rw [handle_ok hreceive]
      simp [not_stalled_iff, isAsking]
  · have hlost : ¬ (s.vm.systemAttributes.isSome = true ∧ s.vm.vagrant = true ∧
        s.vm.instanceActor.isSome = true) := fun hall => hknown ⟨hall.1, hall.2.1⟩
    simp [hknown] at hreceive
    rw [handle_ok hreceive, not_stalled_iff]
    simp only [h, hlost, or_false, Bool.true_eq_false, false_or]
    simp

/-- What the handlers that set an actor leave as it is. -/
structure SetsActor (v vm : VMActor) : Prop where
  ready : vm.ready = v.ready
  provisioned : vm.vmProvisioned = v.vmProvisioned
  timer : vm.scheduleOnceGetDeployInfo = v.scheduleOnceGetDeployInfo
  config : vm.vagrantEnvironmentConfig = v.vagrantEnvironmentConfig

/-- An actor is as ready as before, or becomes ready and asks for what it
has no timer for. -/
theorem handle_set (vm : VMActor) (hsets : SetsActor s.vm vm) (hstalled : ¬ s.Stalled)
    (hreceive : VMActor.receive uuid isDirectory sender m s.vm = VMActor.checkReady vm) :
    ¬ (s.handle uuid isDirectory sender m).Stalled ↔
      s.Startable ∨ ¬ (vm.instanceActor.isSome ∧ vm.vmProxyActor.isSome ∧
        vm.nodeMonitorActor.isSome ∧ vm.globalStatusActor.isSome) := by
  unfold VMActor.checkReady VMActor.scheduleGetDeployInfo at hreceive
  rw [not_stalled_iff] at hstalled
  by_cases hset : vm.instanceActor.isSome ∧ vm.vmProxyActor.isSome ∧ vm.nodeMonitorActor.isSome ∧
      vm.globalStatusActor.isSome
  · obtain ⟨instanceActor, hinstance⟩ := Option.isSome_iff_exists.mp hset.1
    obtain ⟨nodeMonitor, hmonitor⟩ := Option.isSome_iff_exists.mp hset.2.2.1
    rw [or_iff_left (not_not.mpr hset), Startable]
    cases hflag : vm.scheduleOnceGetDeployInfo with
    | false =>
      simp [hset, hflag, hinstance, hmonitor] at hreceive
      rw [handle_ok hreceive]
      refine iff_of_true ?_ (Or.inr (Or.inl (hsets.timer.symm.trans hflag)))
      simp [not_stalled_iff, List.countP_cons, isAsking]
    | true =>
      simp [hset, hflag, hmonitor] at hreceive
      rw [handle_ok hreceive, not_stalled_iff]
      have htimer : s.vm.scheduleOnceGetDeployInfo = true := hsets.timer.symm.trans hflag
      simp [List.countP_cons, isAsking, isExchanging, isSubmitting, hsets.provisioned,
        hsets.config, htimer]
      rintro hready
      rw [hready] at hstalled
      grind
  · simp [hset] at hreceive
    rw [handle_ok hreceive]
    refine iff_of_true ?_ (Or.inr hset)
    simpa [not_stalled_iff, hsets.ready, hsets.provisioned, hsets.config] using hstalled

end Handled

/-! ## Steps -/

variable {uuid : ℕ} {s s' : Machine}

theorem settle_vm {m : Message} (h : s.settle m = some s') : s'.vm = s.vm := by
  cases m <;> grind [settle]

theorem settle_getDeployInfo (h : s.settle .getDeployInfo = some s') :
    0 < s.asking ∧ s' = { s with asking := s.asking - 1 } := by
  grind [settle]

theorem settle_getSystemAttributes (h : s.settle .getSystemAttributes = some s') :
    0 < s.exchanging ∧ s' = { s with exchanging := s.exchanging - 1 } := by
  grind [settle]

theorem leave_cases {orphan : Bool} (h : s.leave orphan = some s') :
    (orphan = true ∧ s' = { s with orphans := s.orphans - 1 }) ∨
      (orphan = false ∧ 0 < s.helping ∧ s' = { s with helping := s.helping - 1 }) := by
  cases orphan <;> grind [leave]

theorem stalled_init (h : s.step uuid .init = some s') : ¬ s'.Stalled := by
  simp only [step] at h
  split at h
  · obtain rfl := Option.some.inj h
    rw [not_stalled_iff]
    left
    rfl
  · cases h

/-- What was refused is sent again in five seconds. -/
theorem stalled_notReadyJet {sender : Actor} {m : Message}
    (hstalled : ¬ s.Stalled) (h : s.step uuid (.notReadyJet sender m) = some s') :
    ¬ s'.Stalled := by
  obtain ⟨t, hsettle, rfl⟩ := Option.map_eq_some_iff.mp h
  have hvm := settle_vm hsettle
  have hreceive : VMActor.receive uuid true sender (.notReadyJet m) t.vm =
      ⟨t.vm, [.scheduleOnce 5 sender m], .ok ()⟩ := rfl
  rw [handle_ok hreceive, not_stalled_iff]
  rw [not_stalled_iff] at hstalled
  cases m
  case getDeployInfo =>
    obtain ⟨-, rfl⟩ := settle_getDeployInfo hsettle
    simp only [List.countP_singleton, isAsking]
    grind
  case getSystemAttributes =>
    obtain ⟨hpos, rfl⟩ := settle_getSystemAttributes hsettle
    simp only [List.countP_singleton, isExchanging]
    grind
  all_goals
    obtain rfl := Option.some.inj hsettle
    simpa [isAsking, isExchanging, isSubmitting] using hstalled

theorem stalled_answer {config : Option VagrantEnvironmentConfig} {isDirectory : Bool}
    (h : s.step uuid (.answer config isDirectory) = some s') :
    ¬ s'.Stalled ↔ s.Keeps (.answer config isDirectory) := by
  obtain ⟨t, hsettle, rfl⟩ := Option.map_eq_some_iff.mp h
  obtain ⟨hpos, rfl⟩ := settle_getDeployInfo hsettle
  have hasking : 0 < s.asking - 1 ↔ 1 < s.asking := by omega
  cases hready : s.vm.ready with
  | false =>
    refine iff_of_true ?_ (by cases config <;> exact Or.inl hready)
    cases config <;> exact handle_unready hready (by simp)
  | true =>
    cases config with
    | none => simp [handle_noDeployInfo, hready, Keeps, hasking]
    | some config => simp [handle_deployInfo, hready, Keeps, hasking]

theorem stalled_attributes {a : SystemAttributes} {isDirectory : Bool}
    (h : s.step uuid (.attributes a isDirectory) = some s') :
    ¬ s'.Stalled ↔ s.Keeps (.attributes a isDirectory) := by
  obtain ⟨t, hsettle, rfl⟩ := Option.map_eq_some_iff.mp h
  obtain ⟨hpos, rfl⟩ := settle_getSystemAttributes hsettle
  have hexchanging : 0 < s.exchanging - 1 ↔ 1 < s.exchanging := by omega
  cases hready : s.vm.ready with
  | false =>
    refine iff_of_true ?_ (Or.inl hready)
    simp only [unlessRefused, hready, Bool.false_eq_true, if_false]
    exact handle_unready hready (by simp)
  | true => simp [unlessRefused, handle_systemAttributes, hready, Keeps, hexchanging]

theorem stalled_report {orphan running isDirectory : Bool}
    (h : s.step uuid (.report orphan running isDirectory) = some s') :
    ¬ s'.Stalled ↔ s.Keeps (.report orphan running isDirectory) := by
  obtain ⟨t, hleave, rfl⟩ := Option.map_eq_some_iff.mp h
  cases hready : s.vm.ready with
  | false =>
    refine iff_of_true ?_ (Or.inl hready)
    simp only [unlessRefused, hready, Bool.false_eq_true, if_false]
    exact handle_unready hready (by simp)
  | true =>
    simp only [unlessRefused, hready, if_true, Keeps]
    obtain ⟨rfl, rfl⟩ | ⟨rfl, hpos, rfl⟩ := leave_cases hleave
    · simp [handle_vmTaskResult, hready]
    · have hhelping : 0 < s.helping - 1 ↔ 1 < s.helping := by omega
      simp [handle_vmTaskResult, hready, hhelping]

/-- **What a step keeps.** -/
theorem stalled_step {e : MachineEvent} (hstalled : ¬ s.Stalled)
    (h : s.step uuid e = some s') : ¬ s'.Stalled ↔ s.Keeps e := by
  cases e with
  | init => exact iff_of_true (stalled_init h) trivial
  | setInstanceActor actor =>
    obtain rfl := Option.some.inj h
    exact handle_set { s.vm with instanceActor := actor } ⟨rfl, rfl, rfl, rfl⟩ hstalled rfl
  | setVmProxyActor actor =>
    obtain rfl := Option.some.inj h
    exact handle_set { s.vm with vmProxyActor := actor } ⟨rfl, rfl, rfl, rfl⟩ hstalled rfl
  | setNodeMonitorActor actor =>
    obtain rfl := Option.some.inj h
    exact handle_set { s.vm with nodeMonitorActor := actor } ⟨rfl, rfl, rfl, rfl⟩ hstalled rfl
  | setGlobalStatusActor actor =>
    obtain rfl := Option.some.inj h
    exact handle_set { s.vm with globalStatusActor := actor } ⟨rfl, rfl, rfl, rfl⟩ hstalled rfl
  | notReadyJet sender m => exact iff_of_true (stalled_notReadyJet hstalled h) trivial
  | answer config isDirectory => exact stalled_answer h
  | attributes a isDirectory => exact stalled_attributes h
  | report orphan running isDirectory => exact stalled_report h
  | created =>
    simp only [step] at h
    split at h
    · obtain rfl := Option.some.inj h
      exact iff_of_true hstalled trivial
    · cases h
  | booted version =>
    simp only [step] at h
    split at h
    · rename_i hpos
      obtain rfl := Option.some.inj h
      refine iff_of_true ?_ trivial
      rw [not_stalled_iff]
      exact Or.inr (Or.inr (Or.inr (Or.inl hpos)))
    · cases h
  | askAgain orphan =>
    obtain ⟨t, -, rfl⟩ := Option.map_eq_some_iff.mp h
    refine iff_of_true ?_ trivial
    simp [not_stalled_iff]
  | vanish orphan =>
    rw [not_stalled_iff] at hstalled ⊢
    simp only [Keeps]
    obtain ⟨rfl, rfl⟩ | ⟨rfl, hpos, rfl⟩ := leave_cases h
    · exact iff_of_true hstalled (Or.inl rfl)
    · have hhelping : 0 < s.helping - 1 ↔ 1 < s.helping := by omega
      simp [hhelping]

end Machine

/-- **No state a run goes through is stalled, exactly if each of its
steps finds what it must not take away.** -/
theorem never_stalls_iff {uuid : ℕ} {es : List MachineEvent} {s : Machine}
    (h : (machine uuid).Run anyStep es s) :
    (∀ pre t, pre <+: es → (machine uuid).Run anyStep pre t → ¬ t.Stalled) ↔
      (machine uuid).Run (fun _ t e => t.Keeps e) es s := by
  induction h with
  | start =>
    refine iff_of_true ?_ .start
    rintro pre t hpre ht
    obtain rfl := List.prefix_nil.mp hpre
    have hstart : (machine uuid).Run anyStep [] (machine uuid).init := .start
    obtain rfl := ht.unique hstart
    simp [Machine.not_stalled_iff, machine, VMActor.new]
  | @step es s s' e hrun hok hs ih =>
    rw [hrun.concat_iff hs, ← ih]
    constructor
    · intro hall
      have hbefore : ∀ pre t, pre <+: es → (machine uuid).Run anyStep pre t → ¬ t.Stalled :=
        fun pre t hpre => hall pre t (hpre.trans (List.prefix_append es [e]))
      refine ⟨hbefore, ?_⟩
      rw [← Machine.stalled_step (hbefore es s List.prefix_rfl hrun) hs]
      exact hall _ s' List.prefix_rfl (hrun.step hok hs)
    · rintro ⟨hbefore, hkeeps⟩ pre t hpre ht
      obtain rfl | hpre := List.prefix_concat_iff.mp hpre
      · obtain rfl := ht.unique (hrun.step hok hs)
        exact (Machine.stalled_step (hbefore es s List.prefix_rfl hrun) hs).mpr hkeeps
      · exact hbefore pre t hpre ht

/-- What `NodeActor` answers to `Init`. -/
def setUp : List MachineEvent :=
  [.init, .setInstanceActor (some .instances), .setVmProxyActor (some (.vmProxyActor 7)),
    .setNodeMonitorActor (some .monitor), .setGlobalStatusActor (some .globalStatus)]

/-- A configuration, then Vagrant: the machines are up at once. -/
theorem never_stalls_first :
    ∃ s, (machine 7).Run anyStep (setUp ++ [.answer (some ⟨[], "/vms", "1"⟩) true,
        .attributes ⟨none, true⟩ true, .created, .booted "1", .report false true true]) s ∧
      s.vm.vmProvisioned = true ∧
      ∀ pre t, pre <+: setUp ++ [.answer (some ⟨[], "/vms", "1"⟩) true,
        .attributes ⟨none, true⟩ true, .created, .booted "1", .report false true true] →
        (machine 7).Run anyStep pre t → ¬ t.Stalled :=
  ⟨_, run_of_exec rfl, rfl, (never_stalls_iff (run_of_exec rfl)).mpr (run_of_execWhen rfl)⟩

/-- There is nothing to deploy yet, and it is said before the system
attributes have come: nobody asks again. -/
theorem stalls_noDeployInfo :
    ¬ ∀ es s, (machine 7).Run anyStep es s → ¬ s.Stalled := by
  intro hall
  obtain ⟨s, hrun, hstalled⟩ : ∃ s, (machine 7).Run anyStep
      (setUp ++ [.answer none true, .attributes ⟨none, true⟩ true]) s ∧ s.Stalled :=
    exists_run_of_exec (by decide +kernel)
  exact hall _ s hrun hstalled

end Clustering.Provisioning
