/-
Clustering.Provisioning.Retries — the attempts of one `VMActor`.

An attempt fails in one of two ways: `up()` returns and some machine is
not running, or a call of Vagrant raises. `Trial` goes through any number
of such attempts with the handlers of `VMActor`, and keeps what each call
of `prepareProvisionVm` leaves and what is done to directories and
environments. Only the first kind of retry reads the configuration that
the attempt before has rewritten, and only machines that share a provider
find the names of others in it (`stable_iff`).
-/
import Mathlib.Data.List.Induction
import Clustering.Provisioning.Names

namespace Clustering.Provisioning

/-- What is done on the disk and with Vagrant. -/
inductive Action where
  | mkdirs (path : String)
  | mkdir (path : String)
  | delete (path : String)
  | createEnvironment (path : String)
  | destroy (path : String)
  | up (path : String)
  deriving DecidableEq, Repr

/-- How an attempt fails: a machine is not running, or there is an
exception, in the call of `up` or before it. -/
inductive Failure where
  | notRunning
  | raised (duringUp : Bool)
  deriving DecidableEq, Repr

/-- `calls` are the path and the configuration each call of
`prepareProvisionVm` leaves. -/
structure Trial where
  vm : VMActor
  log : List Action
  calls : List (Option String × Option VagrantEnvironmentConfig)

namespace Trial

/-- A call of `prepareProvisionVm` with the fields `vm`: it makes the
directory of the configuration, deletes the one of the last attempt and
makes a new one. -/
def prepare (uuid : ℕ) (vm : VMActor) (t : Trial) : Trial :=
  let vm' := (VMActor.prepareProvisionVm uuid true vm).fields
  match vm.vagrantEnvironmentConfig with
  | some config =>
    if vm.vagrant then
      { vm := vm'
        log := t.log ++ (.mkdirs config.path :: (vm.path.toList.map .delete ++
          vm'.path.toList.map .mkdir))
        calls := t.calls ++ [(vm'.path, vm'.vagrantEnvironmentConfig)] }
    else { t with vm := vm' }
  | none => { t with vm := vm' }

/-- The runnable up to the end of `up()`, or to an exception before. The
environment is created in the directory of the configuration. -/
def boot (reachesUp : Bool) (t : Trial) : Trial :=
  match t.vm.vagrantEnvironmentConfig with
  | some config =>
    { t with
      vm := t.vm.createEnvironment
      log := t.log ++ (.createEnvironment config.path :: .destroy config.path ::
        if reachesUp then [.up config.path] else []) }
  | none => t

/-- The `catch` of the runnable. -/
def cleanUp (t : Trial) : Trial :=
  { t with log := t.log ++ ((t.vm.vagrantEnvironment.toList.map fun config =>
      .destroy config.path) ++ t.vm.path.toList.map .delete) }

/-- `handlerDeployInfo`. -/
def deploy (uuid : ℕ) (config : VagrantEnvironmentConfig) (t : Trial) : Trial :=
  t.prepare uuid { t.vm with
    scheduleOnceGetDeployInfo := false, vagrantEnvironmentConfig := some config }

/-- `finishProvisionVm`, with a machine that is not running. -/
def finish (uuid : ℕ) (t : Trial) : Trial := t.prepare uuid { t.vm with vmProvisioned := false }

/-- A failed attempt and the call that begins the next one. After an
exception the configuration is asked for again. -/
def retry (uuid : ℕ) (config : VagrantEnvironmentConfig) (t : Trial) : Failure → Trial
  | .notRunning =>
    finish uuid { t.boot true with vm := (t.boot true).vm.finishRunnable config.version }
  | .raised duringUp => ((t.boot duringUp).cleanUp).deploy uuid config

/-- An actor that knows that Vagrant is there, and its first attempt. -/
def first (uuid : ℕ) (config : VagrantEnvironmentConfig) : Trial :=
  deploy uuid config ⟨{ VMActor.new with ready := true, vagrant := true }, [], []⟩

def run (uuid : ℕ) (config : VagrantEnvironmentConfig) (failures : List Failure) : Trial :=
  failures.foldl (retry uuid config) (first uuid config)

/-- The calls are those of the handlers. -/
theorem deploy_vm (uuid : ℕ) (config : VagrantEnvironmentConfig) (t : Trial) :
    (t.deploy uuid config).vm = (VMActor.handlerDeployInfo uuid true config t.vm).fields := by
  unfold deploy prepare VMActor.handlerDeployInfo
  cases hvagrant : t.vm.vagrant <;> simp [VMActor.prepareProvisionVm, hvagrant]

theorem finish_vm (uuid : ℕ) (t : Trial) :
    (t.finish uuid).vm = (VMActor.finishProvisionVm uuid true false t.vm).fields := by
  unfold finish prepare VMActor.finishProvisionVm
  cases hconfig : t.vm.vagrantEnvironmentConfig with
  | none => simp [VMActor.prepareProvisionVm, hconfig]
  | some config => cases hvagrant : t.vm.vagrant <;> simp [VMActor.prepareProvisionVm, hconfig, hvagrant]

/-! ## What is to stay the same -/

def directory (uuid : ℕ) (path : String) : String := path ++ "/" ++ toString uuid

/-- The configuration of the first attempt. -/
def renamed (uuid : ℕ) (config : VagrantEnvironmentConfig) : VagrantEnvironmentConfig :=
  ⟨VMActor.renameVms (toString uuid) config.vmConfigs, directory uuid config.path,
    config.version⟩

/-- A directory is deleted only behind a `destroy()` of its environment,
and nothing was brought up in it since. -/
def DeletesDestroyed (log : List Action) : Prop :=
  ∀ before path after, log = before ++ .delete path :: after →
    ∃ front back, before = front ++ .destroy path :: back ∧ .up path ∉ back

/-- Every attempt works in the same directory, gives the machines the names
they are to have, and deletes nothing that is still up. -/
structure Stable (uuid : ℕ) (config : VagrantEnvironmentConfig) (t : Trial) : Prop where
  paths : ∀ c ∈ t.calls, c.1 = some (directory uuid config.path)
  names : ∀ c ∈ t.calls, c.2.map (fun given => names given.vmConfigs) =
    some (targetNames (toString uuid) config.vmConfigs)
  deletes : DeletesDestroyed t.log

/-- The state between two attempts, as long as nothing was rewritten
twice. -/
structure Ready (uuid : ℕ) (config : VagrantEnvironmentConfig) (t : Trial) : Prop where
  vagrant : t.vm.vagrant = true
  path : t.vm.path = some (directory uuid config.path)
  kept : t.vm.vagrantEnvironmentConfig = some (renamed uuid config)
  calls : ∀ c ∈ t.calls, c = (some (directory uuid config.path), some (renamed uuid config))
  deletes : DeletesDestroyed t.log

/-! ## Directories -/

/-- The environment of a directory was destroyed last. -/
def Destroyed (path : String) (log : List Action) : Prop :=
  ∃ front back, log = front ++ .destroy path :: back ∧ .up path ∉ back

theorem destroyed_self (path : String) (log : List Action) :
    Destroyed path (log ++ [.destroy path]) :=
  ⟨log, [], rfl, List.not_mem_nil⟩

theorem Destroyed.concat {path : String} {log : List Action} (h : Destroyed path log) {a : Action}
    (ha : a ≠ .up path) : Destroyed path (log ++ [a]) := by
  obtain ⟨front, back, rfl, hback⟩ := h
  refine ⟨front, back ++ [a], by simp, ?_⟩
  intro hmem
  obtain hmem | hmem := List.mem_append.mp hmem
  · exact hback hmem
  · exact ha (List.mem_singleton.mp hmem).symm

theorem deletes_nil : DeletesDestroyed [] := by
  intro before path after h
  simp at h

theorem DeletesDestroyed.concat {log : List Action} (h : DeletesDestroyed log) {a : Action}
    (ha : ∀ path, a = .delete path → Destroyed path log) : DeletesDestroyed (log ++ [a]) := by
  intro before path after heq
  obtain rfl | ⟨after, b, rfl⟩ := List.eq_nil_or_concat after
  · obtain ⟨rfl, hlast⟩ := List.append_inj' heq rfl
    exact ha path (List.cons.inj hlast).1
  · rw [List.concat_eq_append, ← List.cons_append, ← List.append_assoc] at heq
    obtain ⟨hlog, -⟩ := List.append_inj' heq rfl
    exact h before path after hlog

/-! ## Retries behind an exception -/

theorem prepare_eq {uuid : ℕ} {vm : VMActor} {t : Trial} {config : VagrantEnvironmentConfig}
    (hconfig : vm.vagrantEnvironmentConfig = some config) (hvagrant : vm.vagrant = true) :
    t.prepare uuid vm =
      { vm := { vm with
          path := some (directory uuid config.path)
          vagrantEnvironmentConfig := some (renamed uuid config) }
        log := t.log ++ (.mkdirs config.path :: (vm.path.toList.map .delete ++
          [.mkdir (directory uuid config.path)]))
        calls := t.calls ++ [(some (directory uuid config.path), some (renamed uuid config))] } := by
  unfold prepare
  rw [hconfig]
  simp [VMActor.prepareProvisionVm, hconfig, hvagrant, directory, renamed]

theorem ready_first (uuid : ℕ) (config : VagrantEnvironmentConfig) :
    Ready uuid config (first uuid config) := by
  unfold first deploy
  rw [prepare_eq rfl rfl]
  refine ⟨rfl, rfl, rfl, ?_, ?_⟩
  · intro c hc
    simpa using hc
  · have hmkdirs : DeletesDestroyed ([] ++ [.mkdirs config.path]) := deletes_nil.concat nofun
    exact hmkdirs.concat nofun

theorem Ready.raised {uuid : ℕ} {config : VagrantEnvironmentConfig} {t : Trial}
    (h : Ready uuid config t) (duringUp : Bool) :
    Ready uuid config (t.retry uuid config (.raised duringUp)) := by
  have hboot : t.boot duringUp = { t with
      vm := t.vm.createEnvironment
      log := t.log ++ (.createEnvironment (directory uuid config.path) ::
        .destroy (directory uuid config.path) ::
          if duringUp then [.up (directory uuid config.path)] else []) } := by
    unfold boot
    rw [h.kept]
    rfl
  have hclean : (t.boot duringUp).cleanUp = { t.boot duringUp with
      log := (t.boot duringUp).log ++ [.destroy (directory uuid config.path),
        .delete (directory uuid config.path)] } := by
    rw [hboot, cleanUp]
    simp [VMActor.createEnvironment, h.kept, h.path, renamed]
  have hdeploy : t.retry uuid config (.raised duringUp) =
      ((t.boot duringUp).cleanUp).deploy uuid config := rfl
  have hvagrant : (t.boot duringUp).vm.vagrant = true := by
    rw [hboot]
    exact h.vagrant
  have hpath : (t.boot duringUp).vm.path = some (directory uuid config.path) := by
    rw [hboot]
    exact h.path
  have hcalls : (t.boot duringUp).calls = t.calls := by
    rw [hboot]
  have hlog : DeletesDestroyed (t.boot duringUp).log := by
    rw [hboot, List.append_cons, List.append_cons]
    have hfront := (h.deletes.concat (a := .createEnvironment (directory uuid config.path))
      nofun).concat (a := .destroy (directory uuid config.path)) nofun
    cases duringUp with
    | true => exact hfront.concat nofun
    | false => simpa using hfront
  rw [hdeploy, deploy, prepare_eq rfl (by rw [hclean]; exact hvagrant), hclean]
  refine ⟨hvagrant, rfl, rfl, ?_, ?_⟩
  · intro c hc
    obtain hc | hc := List.mem_append.mp hc
    · exact h.calls c (hcalls ▸ hc)
    · exact List.mem_singleton.mp hc
  · -- the directory is deleted behind its `destroy()`, and once more
    have hdestroyed := destroyed_self (directory uuid config.path) (t.boot duringUp).log
    have hdelete := (hlog.concat (a := .destroy (directory uuid config.path)) nofun).concat
      (a := .delete (directory uuid config.path)) (by rintro path ⟨⟩; exact hdestroyed)
    have hmkdirs := hdelete.concat (a := .mkdirs config.path) nofun
    have hagain := hmkdirs.concat (a := .delete (directory uuid config.path)) (by
      rintro path ⟨⟩
      exact (hdestroyed.concat (a := .delete _) nofun).concat (a := .mkdirs _) nofun)
    have hmkdir := hagain.concat (a := .mkdir (directory uuid config.path)) nofun
    simpa [hpath] using hmkdir

theorem Ready.stable {uuid : ℕ} {config : VagrantEnvironmentConfig} {t : Trial}
    (h : Ready uuid config t) (hnames : names (renamed uuid config).vmConfigs =
      targetNames (toString uuid) config.vmConfigs) : Stable uuid config t := by
  refine ⟨?_, ?_, h.deletes⟩
  · intro c hc
    rw [h.calls c hc]
  · intro c hc
    rw [h.calls c hc]
    exact congrArg some hnames

/-! ## Retries behind a machine that is not running -/

theorem prepare_calls (uuid : ℕ) (vm : VMActor) (t : Trial) :
    t.calls <+: (t.prepare uuid vm).calls := by
  unfold prepare
  split
  · split
    · exact List.prefix_append _ _
    · exact List.prefix_rfl
  · exact List.prefix_rfl

theorem boot_calls (reachesUp : Bool) (t : Trial) : (t.boot reachesUp).calls = t.calls := by
  unfold boot
  split <;> rfl

theorem retry_calls (uuid : ℕ) (config : VagrantEnvironmentConfig) (t : Trial) (f : Failure) :
    t.calls <+: (t.retry uuid config f).calls := by
  cases f with
  | notRunning =>
    have hcalls := prepare_calls uuid
      { ((t.boot true).vm.finishRunnable config.version) with vmProvisioned := false }
      { t.boot true with vm := (t.boot true).vm.finishRunnable config.version }
    rw [← boot_calls true t]
    exact hcalls
  | raised duringUp =>
    rw [← boot_calls duringUp t]
    exact prepare_calls uuid _ (t.boot duringUp).cleanUp

/-- The directory of a later attempt is never above the first one. -/
structure Below (uuid : ℕ) (config : VagrantEnvironmentConfig) (t : Trial) : Prop where
  vagrant : t.vm.vagrant = true
  kept : ∃ c, t.vm.vagrantEnvironmentConfig = some c ∧
    (directory uuid config.path).length ≤ c.path.length

theorem boot_vm (reachesUp : Bool) (t : Trial) :
    (t.boot reachesUp).vm.vagrantEnvironmentConfig = t.vm.vagrantEnvironmentConfig ∧
      (t.boot reachesUp).vm.vagrant = t.vm.vagrant := by
  unfold boot
  split
  · exact ⟨rfl, rfl⟩
  · exact ⟨rfl, rfl⟩

/-- Behind a machine that is not running, one directory further down. -/
theorem Below.notRunning {uuid : ℕ} {config : VagrantEnvironmentConfig} {t : Trial}
    (h : Below uuid config t) :
    Below uuid config (t.retry uuid config .notRunning) ∧
      ∃ c ∈ (t.retry uuid config .notRunning).calls, c.1 ≠ some (directory uuid config.path) := by
  obtain ⟨c, hc, hlength⟩ := h.kept
  have hconfig : { ((t.boot true).vm.finishRunnable config.version) with
      vmProvisioned := false }.vagrantEnvironmentConfig = some { c with version := config.version } := by
    simp [VMActor.finishRunnable, (boot_vm true t).1, hc]
  have hvagrant : { ((t.boot true).vm.finishRunnable config.version) with
      vmProvisioned := false }.vagrant = true := (boot_vm true t).2.trans h.vagrant
  have hlonger : c.path.length < (directory uuid c.path).length := by
    simp only [directory, String.length_append]
    have hslash : "/".length = 1 := rfl
    omega
  have hretry : t.retry uuid config .notRunning = prepare uuid _
      { t.boot true with vm := (t.boot true).vm.finishRunnable config.version } := rfl
  rw [hretry, prepare_eq hconfig hvagrant]
  refine ⟨⟨hvagrant, _, rfl, ?_⟩, _, List.mem_append_right _ List.mem_cons_self, ?_⟩
  · show (directory uuid config.path).length ≤ (directory uuid c.path).length
    omega
  · intro heq
    have hpaths := Option.some.inj heq
    have hlengths : (directory uuid c.path).length = (directory uuid config.path).length :=
      congrArg String.length hpaths
    omega

theorem Below.retry {uuid : ℕ} {config : VagrantEnvironmentConfig} {t : Trial}
    (h : Below uuid config t) (f : Failure) : Below uuid config (t.retry uuid config f) := by
  cases f with
  | notRunning => exact h.notRunning.1
  | raised duringUp =>
    have hvagrant : (t.boot duringUp).vm.vagrant = true := (boot_vm duringUp t).2.trans h.vagrant
    have hretry : t.retry uuid config (.raised duringUp) =
        ((t.boot duringUp).cleanUp).deploy uuid config := rfl
    rw [hretry, deploy, prepare_eq rfl (by exact hvagrant)]
    exact ⟨hvagrant, _, rfl, Nat.le_refl _⟩

theorem run_concat (uuid : ℕ) (config : VagrantEnvironmentConfig) (fs : List Failure)
    (f : Failure) : run uuid config (fs ++ [f]) = (run uuid config fs).retry uuid config f := by
  rw [run, List.foldl_append]
  rfl

theorem ready_run {uuid : ℕ} {config : VagrantEnvironmentConfig} {failures : List Failure}
    (h : .notRunning ∉ failures) : Ready uuid config (run uuid config failures) := by
  induction failures using List.reverseRecOn with
  | nil => exact ready_first uuid config
  | append_singleton fs f ih =>
    rw [List.mem_append, not_or] at h
    rw [run_concat]
    cases f with
    | notRunning => exact absurd List.mem_cons_self h.2
    | raised duringUp => exact (ih h.1).raised duringUp

theorem below_run (uuid : ℕ) (config : VagrantEnvironmentConfig) (failures : List Failure) :
    Below uuid config (run uuid config failures) := by
  induction failures using List.reverseRecOn with
  | nil =>
    have hfirst := ready_first uuid config
    exact ⟨hfirst.vagrant, _, hfirst.kept, Nat.le_refl _⟩
  | append_singleton fs f ih =>
    rw [run_concat]
    exact ih.retry f

/-- The first attempt stays among the calls. -/
theorem first_call_mem (uuid : ℕ) (config : VagrantEnvironmentConfig) (failures : List Failure) :
    (some (directory uuid config.path), some (renamed uuid config)) ∈
      (run uuid config failures).calls := by
  induction failures using List.reverseRecOn with
  | nil =>
    show _ ∈ (first uuid config).calls
    unfold first deploy
    rw [prepare_eq rfl rfl]
    exact List.mem_append_right _ List.mem_cons_self
  | append_singleton fs f ih =>
    rw [run_concat]
    exact (retry_calls uuid config _ f).subset ih

/-- One directory too far down stays among the calls. -/
theorem calls_notRunning {uuid : ℕ} {config : VagrantEnvironmentConfig} {failures : List Failure}
    (h : .notRunning ∈ failures) :
    ∃ c ∈ (run uuid config failures).calls, c.1 ≠ some (directory uuid config.path) := by
  induction failures using List.reverseRecOn with
  | nil => cases h
  | append_singleton fs f ih =>
    rw [run_concat]
    obtain h | h := List.mem_append.mp h
    · obtain ⟨c, hc, hne⟩ := ih h
      exact ⟨c, (retry_calls uuid config _ f).subset hc, hne⟩
    · obtain rfl := List.mem_singleton.mp h
      exact (below_run uuid config fs).notRunning.2

/-- **Attempts are stable exactly if each of them fails with an exception
and no two machines share a provider.** -/
theorem stable_iff (uuid : ℕ)
    (config : { config : VagrantEnvironmentConfig // Coherent config.vmConfigs })
    (failures : List Failure) :
    Stable uuid config.val (run uuid config.val failures) ↔
      .notRunning ∉ failures ∧ (config.val.vmConfigs.map (·.provider.ref)).Nodup := by
  constructor
  · intro hstable
    refine ⟨?_, ?_⟩
    · intro hmem
      obtain ⟨c, hc, hne⟩ := calls_notRunning hmem
      exact hne (hstable.paths c hc)
    · have hnames := hstable.names _ (first_call_mem uuid config.val failures)
      exact (names_renameVms_iff config.property _).mp (Option.some.inj hnames)
  · rintro ⟨hno, hnodup⟩
    exact (ready_run hno).stable ((names_renameVms_iff config.property _).mpr hnodup)

/-- A machine that is not running after the first attempt: the second one
works below the directory of the first, which is deleted while the
machines in it are up, and a name has the uuid twice. -/
theorem not_running_drifts :
    ¬ Stable 7 ⟨[⟨0, "web", ⟨0, some 512, some "web"⟩⟩], "/vms", "1"⟩
        (run 7 ⟨[⟨0, "web", ⟨0, some 512, some "web"⟩⟩], "/vms", "1"⟩ [.notRunning]) ∧
      (run 7 ⟨[⟨0, "web", ⟨0, some 512, some "web"⟩⟩], "/vms", "1"⟩ [.notRunning]).calls =
        [(some "/vms/7", some ⟨[⟨0, "web_7", ⟨0, some 512, some "web_7"⟩⟩], "/vms/7", "1"⟩),
          (some "/vms/7/7",
            some ⟨[⟨0, "web_7_7", ⟨0, some 512, some "web_7_7"⟩⟩], "/vms/7/7", "1"⟩)] ∧
      (run 7 ⟨[⟨0, "web", ⟨0, some 512, some "web"⟩⟩], "/vms", "1"⟩ [.notRunning]).log =
        [.mkdirs "/vms", .mkdir "/vms/7", .createEnvironment "/vms/7", .destroy "/vms/7",
          .up "/vms/7", .mkdirs "/vms/7", .delete "/vms/7", .mkdir "/vms/7/7"] := by
  refine ⟨?_, by decide +kernel, by decide +kernel⟩
  have hcoherent : Coherent [⟨0, "web", ⟨0, some 512, some "web"⟩⟩] := by
    refine ⟨?_, ?_⟩ <;> simp
  intro hstable
  have hno := ((stable_iff 7 ⟨_, hcoherent⟩ [.notRunning]).mp hstable).1
  exact hno List.mem_cons_self

end Trial

end Clustering.Provisioning
