/-
Clustering.Vagrant.PortMapping — from `vagrant port` to the ports of a
proxy.

`updatePortMapping` writes the reported host ports into the settings of a
machine, `getPortMapping` collects the forwardings of all machines under
their services. Both match on the kind of network and know only one; a
match without a case is `none`, as is a `null` that is unboxed.

Networks and lists of networks are objects (`Heap`): two machines of one
builder have one list between them, and a network may be in several. What
an update is to do to the list of a machine is `reported` and `addedSsh`,
in terms of the last pair reported for a guest port.
-/
import Mathlib
import Clustering.Vagrant.Configuration

namespace Clustering.Vagrant

/-! ## Maps filled entry by entry -/

section Filling

variable {α β : Type} [DecidableEq α]

/-- Later entries replace earlier ones with the same key. -/
def fill (m : AList fun _ : α => β) (es : List (α × β)) : AList fun _ : α => β :=
  es.foldl (fun m e => m.insert e.1 e.2) m

theorem fill_append (m : AList fun _ : α => β) (es fs : List (α × β)) :
    fill m (es ++ fs) = fill (fill m es) fs :=
  List.foldl_append

theorem fill_concat (m : AList fun _ : α => β) (es : List (α × β)) (e : α × β) :
    fill m (es ++ [e]) = (fill m es).insert e.1 e.2 := by
  rw [fill_append]
  rfl

theorem mem_fill {es : List (α × β)} {a : α} :
    a ∈ fill (∅ : AList fun _ : α => β) es ↔ a ∈ es.map Prod.fst := by
  induction es using List.reverseRecOn with
  | nil => simp [fill]
  | append_singleton es e ih => simp [fill_concat, ih, or_comm]

theorem keys_length_insert (m : AList fun _ : α => β) (a : α) (b : β) :
    (m.insert a b).keys.length = m.keys.length + if a ∈ m then 0 else 1 := by
  rw [AList.keys_insert, List.length_cons, List.length_erase]
  by_cases h : a ∈ m
  · have hkey : a ∈ m.keys := AList.mem_keys.mp h
    have hpos := List.length_pos_of_mem hkey
    simp only [hkey, h, if_true]
    omega
  · have hkey : a ∉ m.keys := fun hmem => h (AList.mem_keys.mpr hmem)
    simp [hkey, h]

theorem keys_length_fill_le (es : List (α × β)) :
    (fill (∅ : AList fun _ : α => β) es).keys.length ≤ es.length := by
  induction es using List.reverseRecOn with
  | nil => simp [fill]
  | append_singleton es e ih =>
    rw [fill_concat, keys_length_insert, List.length_append, List.length_singleton]
    split <;> omega

/-- **Every entry has a place of its own exactly when no key comes twice.** -/
theorem keys_length_fill_iff (es : List (α × β)) :
    (fill (∅ : AList fun _ : α => β) es).keys.length = es.length ↔ (es.map Prod.fst).Nodup := by
  induction es using List.reverseRecOn with
  | nil => simp [fill]
  | append_singleton es e ih =>
    have hle := keys_length_fill_le es
    have hmem : e.1 ∈ fill (∅ : AList fun _ : α => β) es ↔ e.1 ∈ es.map Prod.fst := mem_fill
    rw [fill_concat, keys_length_insert, List.length_append, List.length_singleton,
      List.map_append, List.map_singleton, List.nodup_append_comm, List.singleton_append,
      List.nodup_cons, ← ih, ← hmem]
    by_cases h : e.1 ∈ fill ∅ es
    · simp only [h, if_true, not_true, false_and, iff_false]
      omega
    · simp only [h, if_false, not_false_eq_true, true_and]
      omega

theorem lookup_fill {es : List (α × β)} (h : (es.map Prod.fst).Nodup) {e : α × β}
    (he : e ∈ es) : (fill (∅ : AList fun _ : α => β) es).lookup e.1 = some e.2 := by
  induction es using List.reverseRecOn with
  | nil => cases he
  | append_singleton es f ih =>
    rw [List.map_append, List.map_singleton, List.nodup_append_comm, List.singleton_append,
      List.nodup_cons] at h
    rw [fill_concat]
    obtain he | he := List.mem_append.mp he
    · have hne : e.1 ≠ f.1 := by
        intro heq
        exact h.1 (heq ▸ List.mem_map_of_mem he)
      rw [AList.lookup_insert_ne hne]
      exact ih h.2 he
    · obtain rfl := List.mem_singleton.mp he
      exact AList.lookup_insert _

end Filling

/-! ## The code -/

/-- A match with the case of a forwarding alone. -/
def VagrantNetworkConfig.forwarding? : VagrantNetworkConfig → Option VagrantPortForwardingConfig
  | .portForwarding x => some x
  | _ => none

def VagrantPortForwardingConfig.serves (guestPort : Int) (x : VagrantPortForwardingConfig) : Bool :=
  x.guestPort == some guestPort && x.protocol == some .tcp

def VagrantPortForwardingConfig.setHostPort (hostPort : Int) (x : VagrantPortForwardingConfig) :
    VagrantPortForwardingConfig :=
  { x with hostPort := some hostPort }

def VagrantNetworkConfig.setHostPort (hostPort : Int) : VagrantNetworkConfig → VagrantNetworkConfig
  | .portForwarding x => .portForwarding (x.setHostPort hostPort)
  | n => n

def sshForwarding (guestPort hostPort : Int) : VagrantPortForwardingConfig where
  autoCorrect := some true
  guestPort := some guestPort
  guestIp := none
  hostPort := some hostPort
  hostIp := some "127.0.0.1"
  protocol := some .tcp
  service := some "ssh"
  name := some "ssh"

/-- The networks and the lists of them, by identity. -/
structure Heap where
  network : ℕ → VagrantNetworkConfig
  list : ℕ → List ℕ
  /-- From here on there is no network yet. -/
  fresh : ℕ
  closed : ∀ l, ∀ r ∈ list l, r < fresh

namespace Heap

variable (σ : Heap)

def networks (l : ℕ) : List VagrantNetworkConfig := (σ.list l).map σ.network

/-- `setHostPort` of the network `r`, wherever it is listed. -/
def setHostPort (r : ℕ) (hostPort : Int) : Heap :=
  { σ with network := Function.update σ.network r ((σ.network r).setHostPort hostPort) }

theorem closed_add (l : ℕ) :
    ∀ l', ∀ r ∈ Function.update σ.list l (σ.list l ++ [σ.fresh]) l', r < σ.fresh + 1 := by
  intro l' r hr
  by_cases hl : l' = l
  · subst hl
    rw [Function.update_self, List.mem_append, List.mem_singleton] at hr
    obtain hr | rfl := hr
    · exact Nat.lt_succ_of_lt (σ.closed l' r hr)
    · exact Nat.lt_succ_self _
  · rw [Function.update_of_ne hl] at hr
    exact Nat.lt_succ_of_lt (σ.closed l' r hr)

/-- `add` of a new network to the list `l`. -/
def add (l : ℕ) (n : VagrantNetworkConfig) : Heap where
  network := Function.update σ.network σ.fresh n
  list := Function.update σ.list l (σ.list l ++ [σ.fresh])
  fresh := σ.fresh + 1
  closed := closed_add σ l

end Heap

/-- A machine has its settings to itself, but for the list of networks,
which may be `null`. -/
structure Vm where
  settings : VagrantVmConfig
  vagrantNetworkConfigs : Option ℕ

/-- The settings with the networks as they are now. -/
def Vm.value (σ : Heap) (vm : Vm) : VagrantVmConfig :=
  { vm.settings with vagrantNetworkConfigs := (vm.vagrantNetworkConfigs.map σ.networks).getD [] }

/-- The body of the loop over the reported pairs. -/
def updateOne (l : ℕ) (σ : Heap) (portMapping : Int × Int) : Option Heap := do
  let forwardings ← (σ.list l).mapM fun r => (σ.network r).forwarding?.map fun x => (r, x)
  let portForwards := forwardings.filter (·.2.serves portMapping.1)
  if portForwards.isEmpty && portMapping.1 == 22 then
    some (σ.add l (.portForwarding (sshForwarding portMapping.1 portMapping.2)))
  else some (portForwards.foldl (fun σ x => σ.setHostPort x.1 portMapping.2) σ)

def updatePortMapping (vm : Vm) (portMappings : List (Int × Int)) (σ : Heap) : Option Heap :=
  portMappings.foldlM (fun σ portMapping => do
    let l ← vm.vagrantNetworkConfigs
    updateOne l σ portMapping) σ

/-- The key of a forwarding; `null` is written out only inside a text. -/
def portKey (vmName : Option String) (x : VagrantPortForwardingConfig) : Option String :=
  if x.guestPort = some 22 then some (x.service.getD "null" ++ "_" ++ vmName.getD "null")
  else x.service

/-- What is put into the map for a network: its host port is unboxed. -/
def portEntry (vmName : Option String) (network : VagrantNetworkConfig) :
    Option (Option String × Option String × Int) := do
  let x ← network.forwarding?
  let hostPort ← x.hostPort
  some (portKey vmName x, x.hostIp, hostPort)

abbrev PortMap : Type := AList fun _ : Option String => Option String × Int

/-- The body of the loop over the machines. -/
def putPorts (σ : Heap) (portMapping : PortMap) (vmConfig : Vm) : Option PortMap := do
  let l ← vmConfig.vagrantNetworkConfigs
  (σ.networks l).foldlM (fun portMapping network =>
    (portEntry vmConfig.settings.name network).map fun e => portMapping.insert e.1 e.2) portMapping

def getPortMapping (vmConfigs : List Vm) (σ : Heap) : Option PortMap :=
  vmConfigs.foldlM (putPorts σ) ∅

/-! ## What an update is to do -/

/-- The host port of the last pair for a guest port. -/
def lastReported (portMappings : List (Int × Int)) (guestPort : Int) : Option Int :=
  (portMappings.filter (·.1 == guestPort)).getLast?.map Prod.snd

/-- A TCP forwarding takes the port reported last, or keeps its own. -/
def VagrantPortForwardingConfig.reported (portMappings : List (Int × Int))
    (x : VagrantPortForwardingConfig) : VagrantPortForwardingConfig :=
  if x.protocol = some .tcp then
    match x.guestPort.bind (lastReported portMappings) with
    | some hostPort => x.setHostPort hostPort
    | none => x
  else x

/-- The ssh forwarding, when it is reported and not configured. -/
def addedSsh (portMappings : List (Int × Int)) (forwardings : List VagrantPortForwardingConfig) :
    List VagrantPortForwardingConfig :=
  if forwardings.any (·.serves 22) then []
  else ((lastReported portMappings 22).map (sshForwarding 22)).toList

/-- The forwardings of a list behind all pairs. -/
def updatedForwardings (portMappings : List (Int × Int))
    (forwardings : List VagrantPortForwardingConfig) : List VagrantPortForwardingConfig :=
  forwardings.map (·.reported portMappings) ++ addedSsh portMappings forwardings

/-- Nothing but the host ports and the ssh forwarding changes. -/
def Updated (portMappings : List (Int × Int)) (before after : VagrantVmConfig) : Prop :=
  ∃ forwardings : List VagrantPortForwardingConfig,
    before.vagrantNetworkConfigs = forwardings.map .portForwarding ∧
    after = { before with vagrantNetworkConfigs :=
      (updatedForwardings portMappings forwardings).map .portForwarding }

/-! ## One pair after the other -/

/-- What a pair does to a list of forwardings. -/
def applyPair (forwardings : List VagrantPortForwardingConfig) (portMapping : Int × Int) :
    List VagrantPortForwardingConfig :=
  if !forwardings.any (·.serves portMapping.1) && portMapping.1 == 22 then
    forwardings ++ [sshForwarding portMapping.1 portMapping.2]
  else forwardings.map fun x =>
    if x.serves portMapping.1 then x.setHostPort portMapping.2 else x

theorem lastReported_concat (ps : List (Int × Int)) (p : Int × Int) (guestPort : Int) :
    lastReported (ps ++ [p]) guestPort =
      if p.1 = guestPort then some p.2 else lastReported ps guestPort := by
  by_cases h : p.1 = guestPort
  · simp [lastReported, h]
  · simp [lastReported, h]

/-- Only the host port is written. -/
theorem reported_cases (ps : List (Int × Int)) (x : VagrantPortForwardingConfig) :
    x.reported ps = x ∨ ∃ hostPort, x.reported ps = x.setHostPort hostPort := by
  unfold VagrantPortForwardingConfig.reported
  split
  · split
    · exact .inr ⟨_, rfl⟩
    · exact .inl rfl
  · exact .inl rfl

@[simp] theorem serves_reported (x : VagrantPortForwardingConfig) (ps : List (Int × Int))
    (guestPort : Int) : (x.reported ps).serves guestPort = x.serves guestPort := by
  obtain h | ⟨hostPort, h⟩ := reported_cases ps x
  · rw [h]
  · rw [h]
    rfl

theorem serves_iff (x : VagrantPortForwardingConfig) (guestPort : Int) :
    x.serves guestPort = true ↔ x.guestPort = some guestPort ∧ x.protocol = some .tcp := by
  simp [VagrantPortForwardingConfig.serves]

/-- A forwarding takes what is reported last for the port it serves. -/
theorem reported_of_serves {x : VagrantPortForwardingConfig} {guestPort : Int}
    (h : x.serves guestPort = true) (ps : List (Int × Int)) :
    x.reported ps = match lastReported ps guestPort with
      | some hostPort => x.setHostPort hostPort
      | none => x := by
  obtain ⟨hguest, htcp⟩ := (serves_iff x guestPort).mp h
  rw [VagrantPortForwardingConfig.reported, if_pos htcp, hguest, Option.bind_some]

/-- The pair that is reported next. -/
theorem reported_concat (x : VagrantPortForwardingConfig) (ps : List (Int × Int)) (p : Int × Int) :
    (if x.serves p.1 then (x.reported ps).setHostPort p.2 else x.reported ps) =
      x.reported (ps ++ [p]) := by
  cases hserves : x.serves p.1 with
  | true =>
    rw [if_pos rfl, reported_of_serves hserves, reported_of_serves hserves, lastReported_concat,
      if_pos rfl]
    split <;> rfl
  | false =>
    have hother : x.protocol = some .tcp → x.guestPort ≠ some p.1 := by
      intro htcp hguest
      rw [(serves_iff x p.1).mpr ⟨hguest, htcp⟩] at hserves
      cases hserves
    rw [if_neg (by simp), VagrantPortForwardingConfig.reported, VagrantPortForwardingConfig.reported]
    by_cases htcp : x.protocol = some .tcp
    · cases hguest : x.guestPort with
      | none => simp
      | some guestPort =>
        have hne : p.1 ≠ guestPort := fun heq => hother htcp (by rw [hguest, heq])
        simp [lastReported_concat, hne]
    · rw [if_neg htcp, if_neg htcp]

theorem serves_ssh (guestPort hostPort : Int) :
    (sshForwarding 22 hostPort).serves guestPort = (22 == guestPort) := by
  simp [sshForwarding, VagrantPortForwardingConfig.serves]

/-- **The last pair for a port decides, and ssh is added once.** -/
theorem foldl_applyPair (portMappings : List (Int × Int))
    (forwardings : List VagrantPortForwardingConfig) :
    portMappings.foldl applyPair forwardings = updatedForwardings portMappings forwardings := by
  unfold updatedForwardings
  induction portMappings using List.reverseRecOn with
  | nil =>
    have hnone : ∀ x : VagrantPortForwardingConfig, x.reported [] = x := by
      intro x
      unfold VagrantPortForwardingConfig.reported
      cases x.guestPort <;> simp [lastReported]
    simp [hnone, addedSsh, lastReported]
  | append_singleton ps p ih =>
    have hmap : (forwardings.map (·.reported ps)).map (fun x =>
        if x.serves p.1 then x.setHostPort p.2 else x) =
        forwardings.map (·.reported (ps ++ [p])) := by
      rw [List.map_map]
      refine List.map_congr_left fun x _ => ?_
      rw [← reported_concat, Function.comp_apply, serves_reported]
    have hany : (forwardings.map (·.reported ps)).any (·.serves p.1) =
        forwardings.any (·.serves p.1) := by
      rw [List.any_map]
      simp [Function.comp_def]
    rw [List.foldl_append, ih, List.foldl_cons, List.foldl_nil, applyPair, List.any_append, hany,
      List.map_append, hmap]
    by_cases hp : p.1 = 22
    · -- a pair for ssh: it is configured, was added before, or is added now
      unfold addedSsh
      rw [lastReported_concat, if_pos hp, hp]
      cases hssh : forwardings.any (·.serves 22) with
      | true => simp
      | false =>
        have hsame : forwardings.map (·.reported (ps ++ [p])) = forwardings.map (·.reported ps) := by
          rw [← hmap, List.map_map]
          refine List.map_congr_left fun x hx => ?_
          have hno : x.serves p.1 = false := by
            rw [hp]
            simpa using List.any_eq_false.mp hssh x hx
          simp [hno]
        cases lastReported ps 22 with
        | none => simp [hsame]
        | some port =>
          have hset : (sshForwarding 22 port).setHostPort p.2 = sshForwarding 22 p.2 := rfl
          simp [serves_ssh, hset]
    · have hcond : (!(forwardings.any (·.serves p.1) ||
          (addedSsh ps forwardings).any (·.serves p.1)) && p.1 == 22) = false := by
        simp [hp]
      have hadded : (addedSsh ps forwardings).map (fun x =>
          if x.serves p.1 then x.setHostPort p.2 else x) = addedSsh (ps ++ [p]) forwardings := by
        unfold addedSsh
        rw [lastReported_concat, if_neg hp]
        split
        · rfl
        · cases lastReported ps 22 with
          | none => rfl
          | some port => simp [serves_ssh, Ne.symm hp]
      rw [hcond, hadded]
      rfl

theorem reported_reported (x : VagrantPortForwardingConfig) (ps : List (Int × Int)) :
    (x.reported ps).reported ps = x.reported ps := by
  unfold VagrantPortForwardingConfig.reported
  by_cases h : x.protocol = some .tcp
  · cases hlast : x.guestPort.bind (lastReported ps) <;>
      simp [h, hlast, VagrantPortForwardingConfig.setHostPort]
  · simp [h]

/-- The ssh forwarding that was added is found the next time. -/
theorem addedSsh_again (ps : List (Int × Int)) (forwardings : List VagrantPortForwardingConfig) :
    (addedSsh ps forwardings).map (·.reported ps) = addedSsh ps forwardings ∧
      addedSsh ps (forwardings.map (·.reported ps) ++ addedSsh ps forwardings) = [] := by
  have hany : (forwardings.map (·.reported ps)).any (·.serves 22) =
      forwardings.any (·.serves 22) := by
    rw [List.any_map]
    simp [Function.comp_def]
  unfold addedSsh
  rw [List.any_append, hany]
  cases hssh : forwardings.any (·.serves 22) with
  | true => simp
  | false =>
    cases hlast : lastReported ps 22 with
    | none => simp
    | some port =>
      have hsame : (sshForwarding 22 port).reported ps = sshForwarding 22 port := by
        have hssh : (sshForwarding 22 port).serves 22 = true := by simp [serves_ssh]
        rw [reported_of_serves hssh, hlast]
        rfl
      simp [serves_ssh, hsame]

/-- **A second update with the same pairs changes nothing.** -/
theorem updatedForwardings_again (ps : List (Int × Int))
    (forwardings : List VagrantPortForwardingConfig) :
    updatedForwardings ps (updatedForwardings ps forwardings) =
      updatedForwardings ps forwardings := by
  obtain ⟨hadded, hnone⟩ := addedSsh_again ps forwardings
  unfold updatedForwardings
  rw [hnone, List.append_nil, List.map_append, hadded, List.map_map]
  simp only [Function.comp_def, reported_reported]

end Clustering.Vagrant
