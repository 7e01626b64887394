/-
Clustering.Vm.StillAlive — what a `StillAlive` answered with `true` says.

`portMapping` is built from the port forwardings of the configuration,
the last one of a key wins. `VagrantEnvironmentConfig.ports` is the list
it is built from, and `Registered` says which of its entries are left.
`checkSsh` takes the entries under a key with `ssh` in it, keeps one port
of each host, the last one in the order of the map (`SshRegistered`), and
takes an attempt that raises for one that succeeds. `stillAlive_sound_iff`
is exactly when its `true` can be relied on.
-/
import Clustering.Actors.Runs
import Clustering.Vm.VMProxyActor

namespace Clustering.Vm

open Actors Actors.Handler

/-! ## The port mapping of a configuration -/

namespace VagrantNetworkConfig

/-- The entry of a port forwarding of the machine `vmName`. -/
def entry (vmName : String) : VagrantNetworkConfig → Option (Option String × String × Int)
  | .portForwarding service guestPort hostIp hostPort => hostPort.map fun port =>
      (if guestPort = some 22 then some (service.getD "null" ++ "_" ++ vmName) else service,
        hostIp, port)
  | _ => none

/-- Where guest port 22 is forwarded to. -/
def sshHost : VagrantNetworkConfig → Option (String × Int)
  | .portForwarding _ guestPort hostIp hostPort =>
      if guestPort = some 22 then hostPort.map fun port => (hostIp, port) else none
  | _ => none

end VagrantNetworkConfig

namespace VagrantVmConfig

def ports (vm : VagrantVmConfig) : PortMapping :=
  vm.vagrantNetworkConfigs.filterMap (·.entry vm.name)

/-- The host ports of guest port 22. -/
def sshHosts (vm : VagrantVmConfig) : List (String × Int) :=
  vm.vagrantNetworkConfigs.filterMap (·.sshHost)

end VagrantVmConfig

namespace VagrantEnvironmentConfig

/-- The entries of all machines, in the order `getPortMapping` adds them. -/
def ports (c : VagrantEnvironmentConfig) : PortMapping :=
  c.vmConfigs.flatMap (·.ports)

end VagrantEnvironmentConfig

/-- The last entry under `key` has the value `value`. -/
def Registered {α β : Type} (l : List (α × β)) (key : α) (value : β) : Prop :=
  ∃ before after, l = before ++ (key, value) :: after ∧ ∀ e ∈ after, e.1 ≠ key

section

variable {α β : Type} {key : α} {value : β}

theorem registered_nil : ¬ Registered [] key value := by
  rintro ⟨before, after, h, -⟩
  cases before <;> cases h

theorem registered_cons {e : α × β} {l : List (α × β)} :
    Registered (e :: l) key value ↔
      Registered l key value ∨ (e = (key, value) ∧ ∀ x ∈ l, x.1 ≠ key) := by
  constructor
  · rintro ⟨before, after, h, ha⟩
    cases before with
    | nil =>
      obtain ⟨he, rfl⟩ := List.cons.inj h
      exact .inr ⟨he, ha⟩
    | cons b before =>
      obtain ⟨-, hl⟩ := List.cons.inj h
      exact .inl ⟨before, after, hl, ha⟩
  · rintro (⟨before, after, rfl, ha⟩ | ⟨rfl, hl⟩)
    · exact ⟨e :: before, after, rfl, ha⟩
    · exact ⟨[], l, rfl, hl⟩

theorem Registered.mem {l : List (α × β)} (h : Registered l key value) : (key, value) ∈ l := by
  obtain ⟨before, after, rfl, -⟩ := h
  simp

/-- A key that is there has a last entry. -/
theorem exists_registered {l : List (α × β)} (h : ∃ x ∈ l, x.1 = key) :
    ∃ last, Registered l key last := by
  induction l with
  | nil =>
    obtain ⟨x, hx, -⟩ := h
    cases hx
  | cons e l ih =>
    by_cases hl : ∃ x ∈ l, x.1 = key
    · obtain ⟨last, hlast⟩ := ih hl
      exact ⟨last, registered_cons.mpr (.inl hlast)⟩
    · push Not at hl
      obtain ⟨x, hx, rfl⟩ := h
      rcases List.mem_cons.mp hx with rfl | hx
      · exact ⟨x.2, registered_cons.mpr (.inr ⟨rfl, hl⟩)⟩
      · exact absurd rfl (hl x hx)

/-- The last entry of a key is one. -/
theorem Registered.unique {l : List (α × β)} {value' : β} (h : Registered l key value)
    (h' : Registered l key value') : value = value' := by
  induction l with
  | nil => exact absurd h registered_nil
  | cons e l ih =>
    rcases registered_cons.mp h with h | ⟨rfl, hl⟩ <;>
      rcases registered_cons.mp h' with h' | ⟨he, hl'⟩
    · exact ih h h'
    · exact absurd rfl (hl' _ h.mem)
    · exact absurd rfl (hl _ h'.mem)
    · exact congrArg Prod.snd he

end

namespace VMProxyActor

section

variable {α β : Type} [DecidableEq α] {key key' : α} {value value' : β}

theorem mem_insertEntry {m : List (α × β)} :
    (key, value) ∈ insertEntry key' value' m ↔
      (key', value') = (key, value) ∨ ((key, value) ∈ m ∧ key' ≠ key) := by
  unfold insertEntry
  rw [List.mem_cons, List.mem_filter, eq_comm, decide_eq_true_iff]
  exact or_congr_right (and_congr_right fun _ => ne_comm)

/-- Each entry replaces the one before under its key. -/
theorem mem_insertEntries (l : List (α × β)) :
    ∀ m : List (α × β), (key, value) ∈ insertEntries m l ↔
      Registered l key value ∨ ((key, value) ∈ m ∧ ∀ e ∈ l, e.1 ≠ key) := by
  induction l with
  | nil => simp [insertEntries, registered_nil]
  | cons e l ih =>
    intro m
    change (key, value) ∈ insertEntries (insertEntry e.1 e.2 m) l ↔ _
    rw [ih, mem_insertEntry, registered_cons]
    simp only [List.mem_cons, forall_eq_or_imp]
    tauto

end

/-! ## The hosts in the order of a map -/

section

variable {β : Type} (order : KeyOrder)

theorem mem_entries {m : List (String × β)} {e : String × β} :
    e ∈ order.entries m ↔ e ∈ m := List.mem_insertionSort _

theorem pairwise_entries (m : List (String × β)) :
    (order.entries m).Pairwise fun a b => order.le a.1 b.1 = true :=
  letI : Std.Total fun a b : String × β => order.le a.1 b.1 = true :=
    ⟨fun a b => order.total a.1 b.1⟩
  letI : IsTrans (String × β) fun a b => order.le a.1 b.1 = true :=
    ⟨fun a b c => order.trans a.1 b.1 c.1⟩
  List.pairwise_insertionSort _ m

end

/-- The last port of a host among the values of a map: that of a key
behind which the host comes with no other port. -/
theorem registered_values {order : KeyOrder} {m : List (String × String × Int)} {host : String × Int}
    (hm : ∀ key h h', (key, h) ∈ m → (key, h') ∈ m → h = h') :
    Registered ((order.entries m).map (·.2)) host.1 host.2 ↔
      ∃ key, (key, host) ∈ m ∧ ∀ key' port, (key', host.1, port) ∈ m →
        order.le key key' = true → port = host.2 := by
  have hsorted := pairwise_entries order m
  -- an entry of the host, by where it is from the last one
  have hparts : ∀ {before after key value}, order.entries m = before ++ (key, host.1, value) :: after →
      (∀ e ∈ after.map (·.2), e.1 ≠ host.1) → ∀ key' port, (key', host.1, port) ∈ m →
        order.le key' key = true ∨ port = value := by
    intro before after key value hsplit hlast key' port hmem
    have hpos := (mem_entries order).mpr hmem
    rw [hsplit] at hpos hsorted
    rcases List.mem_append.mp hpos with hpos | hpos
    · exact .inl ((List.pairwise_append.mp hsorted).2.2 _ hpos _ List.mem_cons_self)
    · rcases List.mem_cons.mp hpos with heq | hpos
      · simp only [Prod.mk.injEq] at heq
        exact .inr heq.2.2
      · exact absurd rfl (hlast (host.1, port) (List.mem_map.mpr ⟨_, hpos, rfl⟩))
  constructor
  · rintro ⟨before, after, hsplit, hlast⟩
    obtain ⟨b, rest, hentries, -, hrest⟩ := List.map_eq_append_iff.mp hsplit
    obtain ⟨e, a, rfl, he, rfl⟩ := List.map_eq_cons_iff.mp hrest
    obtain ⟨key, h⟩ := e
    obtain rfl : h = host := he
    have hkey : (key, h) ∈ m := by
      rw [← mem_entries order, hentries]
      simp
    refine ⟨key, hkey, fun key' port hmem hle => ?_⟩
    rcases hparts hentries hlast key' port hmem with hle' | heq
    · obtain rfl := order.antisymm _ _ hle hle'
      exact congrArg Prod.snd (hm _ _ _ hmem hkey)
    · exact heq
  · rintro ⟨key, hkey, hbehind⟩
    obtain ⟨last, hlast⟩ : ∃ last, Registered ((order.entries m).map (·.2)) host.1 last :=
      exists_registered ⟨host, List.mem_map.mpr ⟨_, (mem_entries order).mpr hkey, rfl⟩, rfl⟩
    obtain ⟨before, after, hsplit, hafter⟩ := id hlast
    obtain ⟨b, rest, hentries, -, hrest⟩ := List.map_eq_append_iff.mp hsplit
    obtain ⟨⟨k, h⟩, a, rfl, rfl, rfl⟩ := List.map_eq_cons_iff.mp hrest
    have hk : (k, host.1, last) ∈ m := by
      rw [← mem_entries order, hentries]
      simp
    rcases hparts hentries hafter key host.2 hkey with hle | heq
    · rwa [← hbehind k last hk hle]
    · rwa [heq]

/-! ## What the handlers leave of it -/

/-- The configuration and the mapping made from it. -/
def environment (v : VMProxyActor) : Option VagrantEnvironmentConfig × PortMapping :=
  (v.vagrantEnvironmentConfig, v.portMapping)

theorem keeps_checkReady : Keeps environment checkReady := by
  refine .assign ?_
  intro v
  split <;> rfl

theorem keeps_scheduleGetTaskTimer (fresh delay interval : ℕ) :
    Keeps environment (scheduleGetTaskTimer fresh delay interval) :=
  .bind .fields fun _ => .bind (.deref _ _) fun _ => .bind (.perform _) fun _ =>
    .assign fun _ => rfl

theorem keeps_cancelGetTask : Keeps environment cancelGetTask := by
  refine .bind .fields ?_
  intro v
  cases v.scheduleGetTask with
  | some timer => exact .bind (.perform _) fun _ => .assign fun _ => rfl
  | none => exact .assign fun _ => rfl

theorem keeps_handlerFailure (fresh : ℕ) : Keeps environment (handlerFailure fresh) :=
  .bind (.assign fun _ => rfl) fun _ => .bind .fields fun _ =>
    .ite (keeps_scheduleGetTaskTimer _ _ _) (.pure _)

theorem keeps_sendRequest (fresh : ℕ) (http : Http) (request : HttpRequest) :
    Keeps environment (sendRequest fresh http request) :=
  .bind (fun v => by rw [answerRequest_apply]) fun _ =>
    .ite (keeps_handlerFailure fresh) (.raise _)

theorem keeps_handlerRestApiRequest (fresh : ℕ) (http : Http) (request : RestApiRequest) :
    Keeps environment (handlerRestApiRequest fresh http request) := by
  refine .bind (.deref _ _) fun _ => .bind .fields fun _ => .bind (.deref _ _) fun new => ?_
  split
  · exact keeps_sendRequest fresh http _
  · exact .raise _

/-- Only a new configuration changes the environment. -/
theorem keeps_receive (fresh : ℕ) (o : Outside) {m : VmMessage}
    (hm : ∀ config, m ≠ .setVagrantEnvironmentConfig config) :
    Keeps environment (receive fresh o m) := by
  refine .bind .fields ?_
  intro v
  cases m with
  | init => exact .bind (.assign fun _ => rfl) fun _ => .perform _
  | setVmActor actor => exact .bind (.assign fun _ => rfl) fun _ => keeps_checkReady
  | setInstanceActor actor => exact .bind (.assign fun _ => rfl) fun _ => keeps_checkReady
  | notReadyJet => exact .perform _
  | setVagrantEnvironmentConfig config => exact absurd rfl (hm config)
  | sendTask =>
    refine .ite (.bind keeps_cancelGetTask fun _ => .bind .fields fun _ => .ite ?_ (.perform _))
      (.perform _)
    exact .bind (.assign fun _ => rfl) fun _ => .perform _
  | noMoreTasks =>
    refine .ite (.bind keeps_cancelGetTask fun _ => .bind .fields fun _ => ?_) (.perform _)
    exact .bind (.deref _ _) fun _ => .bind (.perform _) fun _ => .bind (.perform _) fun _ =>
      .perform _
  | executor id => exact .ite (.perform _) (.perform _)
  | cannotGetExecutor => exact .ite (keeps_handlerFailure fresh) (.perform _)
  | terminated id => exact .ite (keeps_handlerFailure fresh) (.perform _)
  | restApiRequest request =>
    exact .ite (keeps_handlerRestApiRequest fresh o.http request) (.perform _)
  | stillAlive =>
    exact .ite (.bind .fields fun _ => .ite (.bind (.raise _) fun _ => .perform _) (.perform _))
      (.perform _)

theorem mapPorts_cons (name : String) (service : Option String) (guestPort : Option Int)
    (hostIp : String) (port : Int) (rest : List VagrantNetworkConfig) (v : VMProxyActor) :
    mapPorts name (.portForwarding service guestPort hostIp (some port) :: rest) v =
      mapPorts name rest { v with
        portMapping := insertEntry
          (if guestPort = some 22 then some (service.getD "null" ++ "_" ++ name) else service)
          (hostIp, port) v.portMapping } := by
  by_cases h : guestPort = some 22 <;> simp [mapPorts, h]

/-- The inner loop adds the entries of one machine, if it does not meet a
network that is no port forwarding, or has no host port. -/
theorem mapPorts_ok (name : String) : ∀ (l : List VagrantNetworkConfig) (v : VMProxyActor),
    (∃ f x, mapPorts name l v = ⟨f, [], .error x⟩) ∨
      mapPorts name l v = ⟨{ v with
        portMapping := insertEntries v.portMapping (l.filterMap (·.entry name)) }, [], .ok ()⟩
  | [], v => .inr rfl
  | .portForwarding _ _ _ none :: _, v => .inl ⟨v, .nullPointer, rfl⟩
  | .portForwarding service guestPort hostIp (some port) :: rest, v => by
      rw [mapPorts_cons]
      exact mapPorts_ok name rest _
  | .privateNetwork :: _, v => .inl ⟨v, .matchError, rfl⟩
  | .publicNetwork :: _, v => .inl ⟨v, .matchError, rfl⟩

theorem insertEntries_append (m l l' : PortMapping) :
    insertEntries m (l ++ l') = insertEntries (insertEntries m l) l' := List.foldl_append

theorem mapVms_ok : ∀ (l : List VagrantVmConfig) (v : VMProxyActor),
    (∃ f x, mapVms l v = ⟨f, [], .error x⟩) ∨
      mapVms l v = ⟨{ v with
        portMapping := insertEntries v.portMapping (l.flatMap (·.ports)) }, [], .ok ()⟩
  | [], v => .inr rfl
  | vm :: rest, v => by
      rcases mapPorts_ok vm.name vm.vagrantNetworkConfigs v with ⟨f, x, h⟩ | h
      · exact .inl ⟨f, x, by simp [mapVms, h]⟩
      · have ih := mapVms_ok rest { v with portMapping := insertEntries v.portMapping vm.ports }
        have hm : mapVms (vm :: rest) v =
            mapVms rest { v with portMapping := insertEntries v.portMapping vm.ports } := by
          simp only [mapVms, bind_apply, h]
          rfl
        rw [hm, List.flatMap_cons, insertEntries_append]
        exact ih

/-- The mapping of a configuration. -/
def mapping (config : VagrantEnvironmentConfig) : PortMapping :=
  insertEntries [] config.ports

theorem mem_mapping {config : VagrantEnvironmentConfig} {key : Option String}
    {host : String × Int} : (key, host) ∈ mapping config ↔ Registered config.ports key host := by
  unfold mapping
  rw [mem_insertEntries]
  simp

/-- A key of the mapping is one of the forwardings. -/
theorem key_mem_mapping {config : VagrantEnvironmentConfig} {key : Option String} :
    key ∈ (mapping config).map (·.1) ↔ key ∈ config.ports.map (·.1) := by
  simp only [List.mem_map]
  constructor
  · rintro ⟨⟨key, host⟩, hmem, rfl⟩
    exact ⟨(key, host), (mem_mapping.mp hmem).mem, rfl⟩
  · intro h
    obtain ⟨host, hhost⟩ := exists_registered h
    exact ⟨(key, host), mem_mapping.mpr hhost, rfl⟩

theorem mem_named {m : PortMapping} {key : String} {host : String × Int} :
    (key, host) ∈ named m ↔ (some key, host) ∈ m := by
  unfold named
  rw [List.mem_filterMap]
  constructor
  · rintro ⟨⟨k, h⟩, hmem, he⟩
    obtain ⟨key', rfl, hk⟩ := Option.map_eq_some_iff.mp he
    cases hk
    exact hmem
  · intro hmem
    exact ⟨_, hmem, rfl⟩

/-- A configuration that is taken on is mapped. -/
theorem environment_config (fresh : ℕ) (o : Outside) (config : VagrantEnvironmentConfig)
    (v : VMProxyActor) (h : (receive fresh o (.setVagrantEnvironmentConfig config) v).raised = none) :
    (receive fresh o (.setVagrantEnvironmentConfig config) v).fields.environment =
      (some config, mapping config) := by
  have hkeeps : Keeps environment (do
      checkReady
      if (← fields).scheduleGetTask.isNone then
        scheduleGetTaskTimer fresh 5 10) :=
    .bind keeps_checkReady fun _ => .bind .fields fun _ =>
      .ite (keeps_scheduleGetTaskTimer _ _ _) (.pure _)
  rcases mapVms_ok config.vmConfigs
      { v with vagrantEnvironmentConfig := some config, portMapping := [] } with ⟨f, x, hm⟩ | hm
  · have hr : receive fresh o (.setVagrantEnvironmentConfig config) v = ⟨f, [], .error x⟩ := by
      simp [receive, handlerSetVagrantEnvironmentConfig, getPortMapping, hm]
    rw [hr] at h
    cases h
  · have hr : (receive fresh o (.setVagrantEnvironmentConfig config) v).fields =
        ((do
          checkReady
          if (← fields).scheduleGetTask.isNone then
            scheduleGetTaskTimer fresh 5 10 : Code Unit)
          { v with vagrantEnvironmentConfig := some config
                   portMapping := mapping config }).fields := by
      simp only [receive, handlerSetVagrantEnvironmentConfig, getPortMapping, bind_apply,
        fields_apply, Outcome.andThen_ok, assign_apply, deref_some, hm]
      rfl
    rw [hr, hkeeps]
    rfl

/-! ## One actor -/

/-- A message, with what is outside when it is handled. -/
structure Receipt where
  fresh : ℕ
  outside : Outside
  msg : VmMessage

/-- The actor handles a message; an exception restarts it. -/
def step (v : VMProxyActor) (r : Receipt) : VMProxyActor :=
  let out := receive r.fresh r.outside r.msg v
  if out.raised.isSome then new else out.fields

/-- One actor, with any messages in any order. -/
def system : EventSystem VMProxyActor Receipt := ⟨new, fun v r => some (v.step r)⟩

/-- The mapping is that of the configuration, and a ready actor has one. -/
structure Mapped (v : VMProxyActor) : Prop where
  ready : v.ready = true → v.vagrantEnvironmentConfig.isSome
  mapping : ∀ config, v.vagrantEnvironmentConfig = some config → v.portMapping = mapping config

theorem mapped_new : Mapped new := by
  constructor <;> simp [new]

/-- What a message that raises nothing leaves of a ready actor. -/
theorem ready_step {v : VMProxyActor} {o : Outside} {m : VmMessage} {s : Slot} {es : List VmEffect}
    (h : v.slot.ready = true → v.slot.config = true) (hp : Path v o m s es false)
    (hs : s.ready = true) : s.config = true := by
  cases hp with
  | init => cases hs
  | getsReady hm hi hc => exact hc
  | configured => rfl
  | set | retry | notReady | accept | reject | stop | executor | release | stillAlive => exact h hs

theorem step_raised {v : VMProxyActor} {r : Receipt} {x : Worker.Throwable}
    (h : (receive r.fresh r.outside r.msg v).raised = some x) : v.step r = new := by
  simp [step, h]

theorem step_ok {v : VMProxyActor} {r : Receipt}
    (h : (receive r.fresh r.outside r.msg v).raised = none) :
    v.step r = (receive r.fresh r.outside r.msg v).fields := by
  simp [step, h]

theorem Mapped.step {v : VMProxyActor} (h : v.Mapped) (r : Receipt) : (v.step r).Mapped := by
  have hpath := receive_path v r.fresh r.outside r.msg
  cases hr : (receive r.fresh r.outside r.msg v).raised with
  | some x =>
    rw [step_raised hr]
    exact mapped_new
  | none =>
    rw [hr] at hpath
    rw [step_ok hr]
    refine ⟨ready_step h.ready hpath, ?_⟩
    intro config hc
    by_cases hm : ∃ c, r.msg = .setVagrantEnvironmentConfig c
    · obtain ⟨c, hm⟩ := hm
      rw [hm] at hr hc ⊢
      have he := environment_config r.fresh r.outside c v hr
      obtain rfl : c = config := Option.some.inj ((congrArg Prod.fst he).symm.trans hc)
      exact congrArg Prod.snd he
    · have he := keeps_receive r.fresh r.outside (fun c hc => hm ⟨c, hc⟩) v
      have hmap := h.mapping config ((congrArg Prod.fst he).symm.trans hc)
      exact (congrArg Prod.snd he).trans hmap

/-- In every run the mapping is that of the configuration. -/
theorem mapped_run {rs : List Receipt} {v : VMProxyActor}
    (h : system.Run EventSystem.anyStep rs v) : v.Mapped := by
  refine h.state_invariant mapped_new ?_
  intro es v r v' hv _ hs
  obtain rfl := Option.some.inj hs
  exact hv.step r

/-! ## What `true` says -/

/-- A `StillAlive` handled now is answered with `true`. -/
def AnswersTrue (v : VMProxyActor) (fresh : ℕ) (o : Outside) : Prop :=
  .reply (.stillAlive true) ∈ (receive fresh o .stillAlive v).effects

/-- The hosts `checkSsh` tries to connect to. -/
def attempts (v : VMProxyActor) (order : KeyOrder) : List (String × Int) :=
  sshEntries order v.portMapping

/-- For every machine of the environment guest port 22 is forwarded, and
a connection to where it is forwarded was tried and succeeded. -/
def AllReached (v : VMProxyActor) (o : Outside) : Prop :=
  ∀ config ∈ v.vagrantEnvironmentConfig, ∀ vm ∈ config.vmConfigs,
    vm.sshHosts ≠ [] ∧ ∀ host ∈ vm.sshHosts, host ∈ v.attempts o.order ∧
      o.probe host = .connected

/-- The host is registered under a key with `ssh` in it, and behind it in
the order of the map no such key has the host with another port. -/
def SshRegistered (order : KeyOrder) (config : VagrantEnvironmentConfig) (host : String × Int) :
    Prop :=
  ∃ key, IsSsh key ∧ Registered config.ports (some key) host ∧ ∀ key' port, IsSsh key' →
    Registered config.ports (some key') (host.1, port) → order.le key key' = true → port = host.2

/-- A forwarding of another guest port has no service, so that nothing is
answered; or a connection to a registered host is refused; or every
machine has guest port 22 forwarded, to hosts that are registered, and no
attempt to connect to one of these raises an exception. -/
def Checkable (order : KeyOrder) (config : VagrantEnvironmentConfig)
    (probe : String × Int → ProbeResult) : Prop :=
  none ∈ config.ports.map (·.1) ∨ (∃ host, SshRegistered order config host ∧ probe host = .refused) ∨
    ∀ vm ∈ config.vmConfigs, vm.sshHosts ≠ [] ∧
      ∀ host ∈ vm.sshHosts, SshRegistered order config host ∧ probe host ≠ .exception

/-- The hosts that are tried are those registered. -/
theorem Mapped.mem_attempts {v : VMProxyActor} (h : v.Mapped) {config : VagrantEnvironmentConfig}
    (hc : v.vagrantEnvironmentConfig = some config) {order : KeyOrder} {host : String × Int} :
    host ∈ v.attempts order ↔ SshRegistered order config host := by
  have hssh : ∀ key h, (key, h) ∈ (named (VMProxyActor.mapping config)).filter (fun e => IsSsh e.1) ↔
      IsSsh key ∧ Registered config.ports (some key) h := by
    intro key h
    rw [List.mem_filter, decide_eq_true_iff, mem_named, mem_mapping, and_comm]
  have hunique : ∀ key h h',
      (key, h) ∈ (named (VMProxyActor.mapping config)).filter (fun e => IsSsh e.1) →
      (key, h') ∈ (named (VMProxyActor.mapping config)).filter (fun e => IsSsh e.1) → h = h' :=
    fun key h h' hh hh' =>
    ((hssh key h).mp hh).2.unique ((hssh key h').mp hh').2
  have hmem : host ∈ v.attempts order ↔ Registered ((order.entries
      ((named (VMProxyActor.mapping config)).filter fun e => IsSsh e.1)).map (·.2)) host.1 host.2 := by
    unfold attempts sshEntries
    rw [h.mapping config hc]
    exact (mem_insertEntries _ []).trans (by simp)
  rw [hmem, registered_values hunique]
  simp only [hssh, SshRegistered, and_assoc, and_imp]

theorem any_isNone_iff (m : PortMapping) :
    (m.any fun e => e.1.isNone) = true ↔ none ∈ m.map (·.1) := by
  simp only [List.any_eq_true, Option.isNone_iff_eq_none, List.mem_map]

theorem answersTrue_iff {v : VMProxyActor} {fresh : ℕ} {o : Outside} :
    v.AnswersTrue fresh o ↔
      v.ready = true ∧ none ∉ v.portMapping.map (·.1) ∧
        ∀ host ∈ v.attempts o.order, o.probe host ≠ .refused := by
  cases hr : v.ready with
  | false => simp [AnswersTrue, receive, hr, handlerNotReady]
  | true =>
    have hrun : receive fresh o .stillAlive v = checkSsh o.order o.probe v := by
      simp [receive, hr]
    rw [AnswersTrue, hrun, ← any_isNone_iff]
    cases hnull : v.portMapping.any fun e => e.1.isNone with
    | true => simp [checkSsh_null hnull]
    | false => simp [checkSsh_named hnull, attempts]

/-- **`StillAlive` answered with `true` is sound exactly when** the
configuration can be checked at all, in every state an actor reaches,
for every configuration, every order of the map and every outcome of the
connections. -/
theorem stillAlive_sound_iff {rs : List Receipt} {v : VMProxyActor}
    (h : system.Run EventSystem.anyStep rs v) (fresh : ℕ) (o : Outside) :
    (v.AnswersTrue fresh o → v.AllReached o) ↔
      (v.ready = true → ∀ config ∈ v.vagrantEnvironmentConfig,
        Checkable o.order config o.probe) := by
  have hv := mapped_run h
  rw [answersTrue_iff]
  constructor
  · intro hsound hr config hc
    have hkeys : none ∈ v.portMapping.map (·.1) ↔ none ∈ config.ports.map (·.1) := by
      rw [hv.mapping config hc, key_mem_mapping]
    by_cases hnull : none ∈ config.ports.map (·.1)
    · exact .inl hnull
    right
    by_cases href : ∃ host, SshRegistered o.order config host ∧ o.probe host = .refused
    · exact .inl href
    · have hok : ∀ host ∈ v.attempts o.order, o.probe host ≠ .refused := fun host hh hp =>
        href ⟨host, (hv.mem_attempts hc).mp hh, hp⟩
      right
      intro vm hvm
      obtain ⟨hne, hall⟩ := hsound ⟨hr, hkeys.not.mpr hnull, hok⟩ config hc vm hvm
      refine ⟨hne, ?_⟩
      intro host hh
      obtain ⟨ha, hp⟩ := hall host hh
      refine ⟨(hv.mem_attempts hc).mp ha, ?_⟩
      rw [hp]
      simp
  · rintro hcheck ⟨hr, hnull, hok⟩ config hc vm hvm
    rw [hv.mapping config hc, key_mem_mapping] at hnull
    rcases hcheck hr config hc with hnone | ⟨host, hreg, hp⟩ | hall
    · exact absurd hnone hnull
    · exact absurd hp (hok host ((hv.mem_attempts hc).mpr hreg))
    · obtain ⟨hne, hall⟩ := hall vm hvm
      refine ⟨hne, ?_⟩
      intro host hh
      obtain ⟨hreg, hp⟩ := hall host hh
      have ha := (hv.mem_attempts hc).mpr hreg
      refine ⟨ha, ?_⟩
      cases hpr : o.probe host with
      | connected => rfl
      | refused => exact absurd hpr (hok host ha)
      | exception => exact absurd hpr hp

/-! ## An attempt that raises -/

/-- One machine, with the forwarding Vagrant makes by default. -/
def oneMachine : VagrantEnvironmentConfig :=
  ⟨"1.0", [⟨"default", [.portForwarding (some "ssh") (some 22) "127.0.0.1" (some 2222)]⟩]⟩

/-- No HTTP, and every attempt to connect ends like this. -/
def probing (result : ProbeResult) : Outside :=
  ⟨⟨fun _ => none, some, fun _ _ => true, fun _ _ => true, fun uri _ _ => some uri,
    fun _ => .error "", fun _ => none, fun _ => true⟩, .alphabetical, fun _ => result⟩

/-- The actor of the machine gets ready. -/
def startUp : List Receipt :=
  [.init, .setVmActor (some 0), .setInstanceActor (some 0),
    .setVagrantEnvironmentConfig oneMachine].map fun m => ⟨0, probing .refused, m⟩

def started : VMProxyActor where
  vagrantEnvironmentConfig := some oneMachine
  vmActor := some 0
  instanceActor := some 0
  portMapping := [(some "ssh_default", "127.0.0.1", 2222)]
  scheduleGetTask := some 0
  haveSpaceForTasks := true
  ready := true

theorem run_startUp : system.Run EventSystem.anyStep startUp started :=
  EventSystem.run_of_exec (by decide)

theorem stillAlive_sound_iff_startUp :
    started.AnswersTrue 0 (probing .connected) ∧ started.AllReached (probing .connected) := by
  have ht : started.AnswersTrue 0 (probing .connected) :=
    answersTrue_iff.mpr ⟨rfl, by decide, fun _ _ => by simp [probing]⟩
  refine ⟨ht, (stillAlive_sound_iff run_startUp 0 (probing .connected)).mpr ?_ ht⟩
  rintro - config hc
  obtain rfl := Option.some.inj hc
  refine .inr (.inr ?_)
  intro vm hvm
  obtain rfl := List.mem_singleton.mp hvm
  refine ⟨by decide, ?_⟩
  intro host hhost
  obtain rfl : host = ("127.0.0.1", 2222) := List.mem_singleton.mp hhost
  have hreg : Registered oneMachine.ports (some "ssh_default") ("127.0.0.1", 2222) :=
    ⟨[], [], rfl, by simp⟩
  refine ⟨⟨"ssh_default", by decide, hreg, fun key' port _ h' _ => ?_⟩, by simp [probing]⟩
  have hmem := h'.mem
  simp only [oneMachine, VagrantEnvironmentConfig.ports, VagrantVmConfig.ports,
    VagrantNetworkConfig.entry, List.flatMap_cons, List.flatMap_nil, List.filterMap_cons,
    Option.map_some, List.filterMap_nil, List.append_nil, List.mem_singleton, Prod.mk.injEq] at hmem
  exact hmem.2.2

/-- **An attempt that raises an exception counts as a success**: the only
machine of the environment was never connected to. -/
theorem exception_counts_as_alive :
    system.Run EventSystem.anyStep startUp started ∧
      started.AnswersTrue 0 (probing .exception) ∧ ¬ started.AllReached (probing .exception) := by
  refine ⟨run_startUp, answersTrue_iff.mpr ⟨rfl, by decide, fun _ _ => by simp [probing]⟩, ?_⟩
  intro h
  obtain ⟨-, hall⟩ := h oneMachine rfl
    ⟨"default", [.portForwarding (some "ssh") (some 22) "127.0.0.1" (some 2222)]⟩ List.mem_cons_self
  cases (hall ("127.0.0.1", 2222) (by decide)).2

end VMProxyActor

end Clustering.Vm
