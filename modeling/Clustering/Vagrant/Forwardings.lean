/-
Clustering.Vagrant.Forwardings — which forwardings survive the round
through Vagrant.

The machines are updated one after the other. An update writes the
networks of one list, and whatever other list has one of them sees it.
`Progress` says what is there behind some of the machines: as long as
machines with a network or a list between them are told the same about it
(`Agreeing`), each list is as its own machine wants it. From the end of
the updates on nothing is written, and `getPortMapping` puts all
forwardings into one map.
-/
import Mathlib
import Clustering.Vagrant.Emitted
import Clustering.Vagrant.PortMapping

namespace Clustering.Vagrant

/-! ## What an update writes -/

theorem Heap.ext {σ τ : Heap} (hnetwork : σ.network = τ.network) (hlist : σ.list = τ.list)
    (hfresh : σ.fresh = τ.fresh) : σ = τ := by
  cases σ
  cases τ
  obtain rfl : _ = _ := hnetwork
  obtain rfl : _ = _ := hlist
  obtain rfl : _ = _ := hfresh
  rfl

/-- Nothing is written but the list `l` and the networks in it; what is
added to the list is new. -/
structure Writes (l : ℕ) (σ τ : Heap) : Prop where
  grown : ∃ rs, τ.list l = σ.list l ++ rs ∧ (∀ r ∈ rs, σ.fresh ≤ r) ∧
    τ.fresh = σ.fresh + rs.length
  lists : ∀ l', l' ≠ l → τ.list l' = σ.list l'
  networks : ∀ r, r ∉ τ.list l → τ.network r = σ.network r

theorem Writes.refl (l : ℕ) (σ : Heap) : Writes l σ σ :=
  ⟨⟨[], by simp⟩, fun _ _ => rfl, fun _ _ => rfl⟩

theorem Writes.trans {l : ℕ} {σ τ υ : Heap} (h : Writes l σ τ) (h' : Writes l τ υ) :
    Writes l σ υ := by
  obtain ⟨rs, hlist, hnew, hfresh⟩ := h.grown
  obtain ⟨rs', hlist', hnew', hfresh'⟩ := h'.grown
  refine ⟨⟨rs ++ rs', ?_, ?_, ?_⟩, ?_, ?_⟩
  · rw [hlist', hlist, List.append_assoc]
  · intro r hr
    obtain hr | hr := List.mem_append.mp hr
    · exact hnew r hr
    · have hafter := hnew' r hr
      omega
  · rw [hfresh', hfresh, List.length_append]
    omega
  · intro l' hl'
    rw [h'.lists l' hl', h.lists l' hl']
  · intro r hr
    have hbefore : r ∉ τ.list l := by
      rw [hlist', List.mem_append, not_or] at hr
      exact hr.1
    rw [h'.networks r hr, h.networks r hbefore]

/-- A list that holds what it held is all that could have changed. -/
theorem Writes.eq_of_networks {l : ℕ} {σ τ : Heap} (h : Writes l σ τ)
    (hsame : τ.networks l = σ.networks l) : τ = σ := by
  obtain ⟨rs, hlist, -, hfresh⟩ := h.grown
  have hnone : rs = [] := by
    have hlength := congrArg List.length hsame
    simp only [Heap.networks, hlist, List.length_map, List.length_append] at hlength
    exact List.eq_nil_of_length_eq_zero (by omega)
  rw [hnone, List.append_nil] at hlist
  have hnetworks := List.map_inj_left.mp (by simpa only [Heap.networks, hlist] using hsame)
  refine Heap.ext ?_ ?_ (by simpa [hnone] using hfresh)
  · funext r
    by_cases hr : r ∈ σ.list l
    · exact hnetworks r hr
    · exact h.networks r (hlist ▸ hr)
  · funext l'
    by_cases hl : l' = l
    · rw [hl, hlist]
    · exact h.lists l' hl

/-- A network that is not in the list is not written. -/
theorem Writes.network_of_not_mem {l r : ℕ} {σ τ : Heap} (h : Writes l σ τ) (hr : r < σ.fresh)
    (hnot : r ∉ σ.list l) : τ.network r = σ.network r := by
  obtain ⟨rs, hlist, hnew, -⟩ := h.grown
  refine h.networks r ?_
  rw [hlist, List.mem_append, not_or]
  refine ⟨hnot, fun hmem => ?_⟩
  have hlater := hnew r hmem
  omega

/-! ## One pair -/

theorem mem_forwardings {σ : Heap} {refs : List ℕ} {xs : List (ℕ × VagrantPortForwardingConfig)}
    (h : (refs.mapM fun r => (σ.network r).forwarding?.map fun x => (r, x)) = some xs) :
    ∀ e : ℕ × VagrantPortForwardingConfig,
      e ∈ xs ↔ e.1 ∈ refs ∧ σ.network e.1 = .portForwarding e.2 := by
  induction refs generalizing xs with
  | nil =>
    obtain rfl : [] = xs := Option.some.inj h
    simp
  | cons r refs ih =>
    obtain ⟨y, ys, hy, hys, rfl⟩ := mapM_cons_eq_some_iff.mp h
    obtain ⟨x, hx, rfl⟩ := Option.map_eq_some_iff.mp hy
    have hr : σ.network r = .portForwarding x := by
      cases hn : σ.network r with
      | portForwarding x' =>
        rw [hn] at hx
        rw [Option.some.inj hx]
      | privateNetwork x' => simp [hn, VagrantNetworkConfig.forwarding?] at hx
      | publicNetwork x' => simp [hn, VagrantNetworkConfig.forwarding?] at hx
    intro e
    rw [List.mem_cons, List.mem_cons, ih hys]
    constructor
    · rintro (rfl | ⟨hmem, hnetwork⟩)
      · exact ⟨.inl rfl, hr⟩
      · exact ⟨.inr hmem, hnetwork⟩
    · rintro ⟨heq | hmem, hnetwork⟩
      · left
        rw [heq, hr] at hnetwork
        exact Prod.ext heq (VagrantNetworkConfig.portForwarding.inj hnetwork).symm
      · exact .inr ⟨hmem, hnetwork⟩

theorem setHostPort_setHostPort (n : VagrantNetworkConfig) (p : Int) :
    (n.setHostPort p).setHostPort p = n.setHostPort p := by
  cases n <;> rfl

/-- `foreach(portForward => portForward.setHostPort(p))`. -/
theorem foldl_setHostPort (xs : List (ℕ × VagrantPortForwardingConfig)) (p : Int) :
    ∀ σ : Heap, (xs.foldl (fun σ x => σ.setHostPort x.1 p) σ).list = σ.list ∧
      (xs.foldl (fun σ x => σ.setHostPort x.1 p) σ).fresh = σ.fresh ∧
      ∀ r, (xs.foldl (fun σ x => σ.setHostPort x.1 p) σ).network r =
        if r ∈ xs.map Prod.fst then (σ.network r).setHostPort p else σ.network r := by
  induction xs with
  | nil => simp
  | cons x xs ih =>
    intro σ
    obtain ⟨hlist, hfresh, hnetwork⟩ := ih (σ.setHostPort x.1 p)
    refine ⟨hlist, hfresh, ?_⟩
    intro r
    rw [List.foldl_cons, hnetwork]
    by_cases hr : r = x.1
    · subst hr
      simp [Heap.setHostPort, setHostPort_setHostPort]
    · have hfst : r ∈ (x :: xs).map Prod.fst ↔ r ∈ xs.map Prod.fst := by
        rw [List.map_cons, List.mem_cons, or_iff_right hr]
      simp only [Heap.setHostPort, Function.update_of_ne hr, hfst]

theorem updateOne_writes {l : ℕ} {σ τ : Heap} {p : Int × Int} (h : updateOne l σ p = some τ) :
    Writes l σ τ := by
  obtain ⟨xs, hxs, h⟩ := Option.bind_eq_some_iff.mp h
  have hmem := mem_forwardings hxs
  dsimp only at h
  split at h
  · obtain rfl := Option.some.inj h
    refine ⟨⟨[σ.fresh], ?_, ?_, rfl⟩, ?_, ?_⟩
    · simp [Heap.add]
    · simp
    · intro l' hl'
      simp [Heap.add, hl']
    · intro r hr
      have hne : r ≠ σ.fresh := by
        rintro rfl
        simp [Heap.add] at hr
      simp [Heap.add, hne]
  · obtain rfl := Option.some.inj h
    obtain ⟨hlist, hfresh, hnetwork⟩ := foldl_setHostPort (xs.filter (·.2.serves p.1)) p.2 σ
    refine ⟨⟨[], by simp [hlist, hfresh]⟩, fun _ _ => by rw [hlist], ?_⟩
    intro r hr
    rw [hlist] at hr
    rw [hnetwork, if_neg]
    intro hfst
    obtain ⟨e, he, rfl⟩ := List.mem_map.mp hfst
    exact hr ((hmem e).mp (List.mem_filter.mp he).1).1

theorem forwarding?_eq_some {n : VagrantNetworkConfig} (h : n.forwarding?.isSome = true) :
    ∃ x, n = .portForwarding x := by
  cases n with
  | portForwarding x => exact ⟨x, rfl⟩
  | privateNetwork x => cases h
  | publicNetwork x => cases h

theorem portForwarding_injective : Function.Injective VagrantNetworkConfig.portForwarding :=
  fun _ _ h => VagrantNetworkConfig.portForwarding.inj h

/-- What a pair does to a network that is listed. -/
def VagrantNetworkConfig.paired (p : Int × Int) : VagrantNetworkConfig → VagrantNetworkConfig
  | .portForwarding x => .portForwarding (if x.serves p.1 then x.setHostPort p.2 else x)
  | n => n

theorem updateOne_forwardings {l : ℕ} {σ : Heap} {forwardings : List VagrantPortForwardingConfig}
    (h : σ.networks l = forwardings.map .portForwarding) (p : Int × Int) :
    ∃ τ, updateOne l σ p = some τ ∧
      τ.networks l = (applyPair forwardings p).map .portForwarding := by
  have hnetwork : ∀ r ∈ σ.list l, ∃ x ∈ forwardings, σ.network r = .portForwarding x := by
    intro r hr
    have hmem : σ.network r ∈ σ.networks l := List.mem_map_of_mem hr
    rw [h] at hmem
    obtain ⟨x, hx, heq⟩ := List.mem_map.mp hmem
    exact ⟨x, hx, heq.symm⟩
  obtain ⟨xs, hxs⟩ : ∃ xs, ((σ.list l).mapM fun r =>
      (σ.network r).forwarding?.map fun x => (r, x)) = some xs := by
    rw [← Option.isSome_iff_exists, isSome_mapM]
    intro r hr
    obtain ⟨x, -, hx⟩ := hnetwork r hr
    rw [hx]
    rfl
  have hmem := mem_forwardings hxs
  have hempty : (xs.filter (·.2.serves p.1)).isEmpty = !forwardings.any (·.serves p.1) := by
    rw [Bool.eq_iff_iff, List.isEmpty_iff, List.filter_eq_nil_iff, Bool.not_eq_true',
      List.any_eq_false]
    constructor
    · intro hall x hx
      have hin : VagrantNetworkConfig.portForwarding x ∈ σ.networks l := by
        rw [h]
        exact List.mem_map_of_mem hx
      obtain ⟨r, hr, heq⟩ := List.mem_map.mp hin
      exact hall (r, x) ((hmem (r, x)).mpr ⟨hr, heq⟩)
    · intro hall e he
      obtain ⟨hr, heq⟩ := (hmem e).mp he
      obtain ⟨x, hx, heq'⟩ := hnetwork e.1 hr
      rw [heq] at heq'
      rw [portForwarding_injective heq']
      exact hall x hx
  cases hadd : (!forwardings.any (·.serves p.1) && p.1 == 22) with
  | true =>
    refine ⟨σ.add l (.portForwarding (sshForwarding p.1 p.2)), ?_, ?_⟩
    · rw [updateOne, hxs, Option.bind_eq_bind, Option.bind_some]
      dsimp only
      rw [hempty, hadd]
      rfl
    · have hold : (σ.list l).map (Function.update σ.network σ.fresh
          (.portForwarding (sshForwarding p.1 p.2))) = σ.networks l := by
        refine List.map_congr_left fun r hr => ?_
        exact Function.update_of_ne (Nat.ne_of_lt (σ.closed l r hr)) _ _
      rw [applyPair, hadd]
      simpa [Heap.networks, Heap.add, hold] using h
  | false =>
    refine ⟨(xs.filter (·.2.serves p.1)).foldl (fun σ x => σ.setHostPort x.1 p.2) σ, ?_, ?_⟩
    · rw [updateOne, hxs, Option.bind_eq_bind, Option.bind_some]
      dsimp only
      rw [hempty, hadd]
      rfl
    · obtain ⟨hlist, -, hset⟩ := foldl_setHostPort (xs.filter (·.2.serves p.1)) p.2 σ
      have hnetworks : ∀ r ∈ σ.list l,
          ((xs.filter (·.2.serves p.1)).foldl (fun σ x => σ.setHostPort x.1 p.2) σ).network r =
            (σ.network r).paired p := by
        intro r hr
        obtain ⟨x, -, hx⟩ := hnetwork r hr
        have hfst : r ∈ (xs.filter (·.2.serves p.1)).map Prod.fst ↔ x.serves p.1 = true := by
          constructor
          · intro hin
            obtain ⟨e, he, rfl⟩ := List.mem_map.mp hin
            obtain ⟨he, hserves⟩ := List.mem_filter.mp he
            have heq := ((hmem e).mp he).2
            rw [hx] at heq
            rwa [portForwarding_injective heq]
          · intro hserves
            exact List.mem_map.mpr ⟨(r, x), List.mem_filter.mpr
              ⟨(hmem (r, x)).mpr ⟨hr, hx⟩, hserves⟩, rfl⟩
        rw [hset, hx]
        by_cases hserves : x.serves p.1 = true
        · rw [if_pos (hfst.mpr hserves), VagrantNetworkConfig.paired, if_pos hserves]
          rfl
        · rw [if_neg (mt hfst.mp hserves), VagrantNetworkConfig.paired, if_neg hserves]
      have hmap := congrArg (List.map (VagrantNetworkConfig.paired p)) h
      rw [Heap.networks, List.map_map, List.map_map] at hmap
      rw [applyPair, hadd, if_neg Bool.false_ne_true, List.map_map, Heap.networks, hlist,
        List.map_congr_left hnetworks]
      exact hmap

/-! ## All pairs -/

theorem updatePortMapping_writes {vm : Vm} {l : ℕ} (hl : vm.vagrantNetworkConfigs = some l)
    {ps : List (Int × Int)} : ∀ {σ τ : Heap}, updatePortMapping vm ps σ = some τ → Writes l σ τ := by
  unfold updatePortMapping
  induction ps with
  | nil =>
    intro σ τ h
    obtain rfl := Option.some.inj h
    exact Writes.refl l σ
  | cons p ps ih =>
    intro σ τ h
    rw [List.foldlM_cons] at h
    obtain ⟨υ, hυ, h⟩ := Option.bind_eq_some_iff.mp h
    rw [hl] at hυ
    exact (updateOne_writes hυ).trans (ih h)

theorem updatePortMapping_forwardings {vm : Vm} {l : ℕ} (hl : vm.vagrantNetworkConfigs = some l)
    (ps : List (Int × Int)) {σ : Heap} {forwardings : List VagrantPortForwardingConfig}
    (h : σ.networks l = forwardings.map .portForwarding) :
    ∃ τ, updatePortMapping vm ps σ = some τ ∧ Writes l σ τ ∧
      τ.networks l = (updatedForwardings ps forwardings).map .portForwarding := by
  have hrun : ∀ (ps : List (Int × Int)) (σ : Heap) (forwardings), σ.networks l =
      forwardings.map .portForwarding → ∃ τ, updatePortMapping vm ps σ = some τ ∧
        τ.networks l = (ps.foldl applyPair forwardings).map .portForwarding := by
    intro ps
    induction ps with
    | nil => exact fun σ forwardings h => ⟨σ, rfl, h⟩
    | cons p ps ih =>
      intro σ forwardings h
      obtain ⟨υ, hυ, hnetworks⟩ := updateOne_forwardings h p
      obtain ⟨τ, hτ, hfinal⟩ := ih υ _ hnetworks
      refine ⟨τ, ?_, hfinal⟩
      rw [updatePortMapping, List.foldlM_cons, hl]
      exact Option.bind_eq_some_iff.mpr ⟨υ, hυ, by rw [← hτ, updatePortMapping, hl]⟩
  obtain ⟨τ, hτ, hnetworks⟩ := hrun ps σ forwardings h
  rw [foldl_applyPair] at hnetworks
  exact ⟨τ, hτ, updatePortMapping_writes hl hτ, hnetworks⟩

/-! ## The updates of all machines -/

abbrev Env : Type := List (Vm × List (Int × Int))

/-- `vmConfigs().asScala.map(vagrantEnvironment.getBoxePortMapping(_))`,
with the pairs `vagrant port` reports for each machine. -/
def getBoxePortMappings (env : Env) (σ : Heap) : Option Heap :=
  env.foldlM (fun σ e => updatePortMapping e.1 e.2 σ) σ

def VagrantVmConfig.forwardings (vmConfig : VagrantVmConfig) : List VagrantPortForwardingConfig :=
  vmConfig.vagrantNetworkConfigs.filterMap VagrantNetworkConfig.forwarding?

theorem forwardings_map (forwardings : List VagrantPortForwardingConfig) :
    (forwardings.map VagrantNetworkConfig.portForwarding).filterMap
      VagrantNetworkConfig.forwarding? = forwardings := by
  induction forwardings with
  | nil => rfl
  | cons x xs ih => simp [VagrantNetworkConfig.forwarding?, ih]

theorem all_forwardings_iff (networks : List VagrantNetworkConfig) :
    (∀ n ∈ networks, n.forwarding?.isSome = true) ↔
      ∃ forwardings : List VagrantPortForwardingConfig,
        networks = forwardings.map .portForwarding := by
  constructor
  · intro h
    induction networks with
    | nil => exact ⟨[], rfl⟩
    | cons n ns ih =>
      obtain ⟨xs, rfl⟩ := ih fun m hm => h m (List.mem_cons_of_mem _ hm)
      obtain ⟨x, rfl⟩ := forwarding?_eq_some (h n List.mem_cons_self)
      exact ⟨x :: xs, rfl⟩
  · rintro ⟨xs, rfl⟩ n hn
    obtain ⟨x, -, rfl⟩ := List.mem_map.mp hn
    rfl

def VagrantNetworkConfig.reported (ps : List (Int × Int)) :
    VagrantNetworkConfig → VagrantNetworkConfig
  | .portForwarding x => .portForwarding (x.reported ps)
  | n => n

theorem VagrantNetworkConfig.reported_reported (n : VagrantNetworkConfig)
    (ps : List (Int × Int)) : (n.reported ps).reported ps = n.reported ps := by
  cases n with
  | portForwarding x =>
    exact congrArg VagrantNetworkConfig.portForwarding (Vagrant.reported_reported x ps)
  | privateNetwork x => rfl
  | publicNetwork x => rfl

/-- The machines are told the same about what they have between them: a
network, or the list to which ssh may be added. -/
structure Agreeing (σ : Heap) (env : Env) : Prop where
  networks : ∀ e ∈ env, ∀ e' ∈ env, ∀ l l' : ℕ, e.1.vagrantNetworkConfigs = some l →
    e'.1.vagrantNetworkConfigs = some l' → ∀ r ∈ σ.list l, r ∈ σ.list l' →
      (σ.network r).reported e.2 = (σ.network r).reported e'.2
  lists : ∀ e ∈ env, ∀ e' ∈ env, ∀ l : ℕ, e.1.vagrantNetworkConfigs = some l →
    e'.1.vagrantNetworkConfigs = some l →
      addedSsh e.2 ((σ.networks l).filterMap VagrantNetworkConfig.forwarding?) =
        addedSsh e'.2 ((σ.networks l).filterMap VagrantNetworkConfig.forwarding?)

/-- Forwardings that take the same ports are updated to the same. -/
theorem updatedForwardings_congr {ps : List (Int × Int)}
    {xs ys : List VagrantPortForwardingConfig}
    (h : xs.map (·.reported ps) = ys.map (·.reported ps)) :
    updatedForwardings ps xs = updatedForwardings ps ys := by
  have hany : xs.any (·.serves 22) = ys.any (·.serves 22) := by
    have hserves := congrArg (List.any · (·.serves 22)) h
    simpa [List.any_map, Function.comp_def] using hserves
  rw [updatedForwardings, updatedForwardings, h, addedSsh, addedSsh, hany]

/-- The networks of a list, reported as those of another heap. -/
theorem map_reported_iff (ps qs : List (Int × Int)) {refs : List ℕ} {σ τ : Heap}
    {xs ys : List VagrantPortForwardingConfig} (hx : refs.map σ.network = xs.map .portForwarding)
    (hy : refs.map τ.network = ys.map .portForwarding) :
    xs.map (·.reported ps) = ys.map (·.reported qs) ↔
      ∀ r ∈ refs, (σ.network r).reported ps = (τ.network r).reported qs := by
  have hmap : ∀ (zs : List VagrantPortForwardingConfig) (ps : List (Int × Int)),
      (zs.map VagrantNetworkConfig.portForwarding).map (·.reported ps) =
        (zs.map (·.reported ps)).map VagrantNetworkConfig.portForwarding := by
    intro zs ps
    rw [List.map_map, List.map_map]
    rfl
  rw [← List.map_inj_left, ← (List.map_injective_iff.mpr portForwarding_injective).eq_iff,
    ← hmap, ← hmap, ← hx, ← hy, List.map_map, List.map_map]
  rfl

/-- A list behind its update: what was in it has the ports reported. -/
theorem network_of_updated {l r : ℕ} {σ τ : Heap} {ps : List (Int × Int)} {rs : List ℕ}
    {forwardings : List VagrantPortForwardingConfig} (hlist : τ.list l = σ.list l ++ rs)
    (hσ : σ.networks l = forwardings.map .portForwarding)
    (hτ : τ.networks l = (updatedForwardings ps forwardings).map .portForwarding)
    (hr : r ∈ σ.list l) : τ.network r = (σ.network r).reported ps := by
  rw [Heap.networks, hlist, List.map_append, updatedForwardings, List.map_append] at hτ
  have hlength : ((σ.list l).map τ.network).length =
      ((forwardings.map (·.reported ps)).map VagrantNetworkConfig.portForwarding).length := by
    have hfirst := congrArg List.length hσ
    simpa [Heap.networks] using hfirst
  have hfront := (List.append_inj hτ hlength).1
  have hmap : (forwardings.map (·.reported ps)).map VagrantNetworkConfig.portForwarding =
      (σ.list l).map fun r => (σ.network r).reported ps := by
    have hreported := congrArg (List.map (VagrantNetworkConfig.reported ps)) hσ
    rw [Heap.networks, List.map_map, List.map_map] at hreported
    rw [List.map_map]
    exact hreported.symm
  exact List.map_inj_left.mp (hfront.trans hmap) r hr

/-- Behind the updates of the machines `done`. -/
structure Progress (σ : Heap) (done : Env) (τ : Heap) : Prop where
  fresh : σ.fresh ≤ τ.fresh
  grown : ∀ l, ∃ rs, τ.list l = σ.list l ++ rs ∧ ∀ r ∈ rs, σ.fresh ≤ r
  /-- What is added to a list is in no other. -/
  apart : ∀ l l' r, l ≠ l' → r ∈ τ.list l → r ∈ τ.list l' → r < σ.fresh
  same : ∀ l, (∀ e ∈ done, e.1.vagrantNetworkConfigs ≠ some l) → τ.list l = σ.list l
  network : ∀ r < σ.fresh, τ.network r = σ.network r ∨
    ∃ e ∈ done, ∃ l, e.1.vagrantNetworkConfigs = some l ∧ r ∈ σ.list l ∧
      τ.network r = (σ.network r).reported e.2
  updated : ∀ e ∈ done, ∀ (l : ℕ) (xs : List VagrantPortForwardingConfig),
    e.1.vagrantNetworkConfigs = some l → σ.networks l = xs.map .portForwarding →
      τ.networks l = (updatedForwardings e.2 xs).map .portForwarding

theorem progress_nil (σ : Heap) : Progress σ [] σ := by
  refine ⟨Nat.le_refl _, fun l => ⟨[], by simp⟩, ?_, fun _ _ => rfl, fun _ _ => .inl rfl, ?_⟩
  · intro l l' r _ hr _
    exact σ.closed l r hr
  · intro e he
    cases he

/-- Machines with one list that agree want the same of it. -/
theorem Agreeing.updatedForwardings {σ : Heap} {env : Env} (h : Agreeing σ env)
    {e e' : Vm × List (Int × Int)} (he : e ∈ env) (he' : e' ∈ env) {l : ℕ}
    (hl : e.1.vagrantNetworkConfigs = some l) (hl' : e'.1.vagrantNetworkConfigs = some l)
    {xs : List VagrantPortForwardingConfig} (hxs : σ.networks l = xs.map .portForwarding) :
    updatedForwardings e.2 xs = updatedForwardings e'.2 xs := by
  have hadded := h.lists e he e' he' l hl hl'
  rw [hxs, forwardings_map] at hadded
  have hreported := (map_reported_iff e.2 e'.2 hxs hxs).mpr
    fun r hr => h.networks e he e' he' l l hl hl' r hr hr
  rw [Vagrant.updatedForwardings, Vagrant.updatedForwardings, hreported, hadded]

/-- However far the list of a machine is written, its update ends the same. -/
theorem Progress.wanted {σ τ : Heap} {env done : Env} (h : Progress σ done τ)
    (hagree : Agreeing σ env) (hdone : ∀ e ∈ done, e ∈ env) {e : Vm × List (Int × Int)}
    (he : e ∈ env) {l : ℕ} (hl : e.1.vagrantNetworkConfigs = some l)
    {xs : List VagrantPortForwardingConfig} (hxs : σ.networks l = xs.map .portForwarding) :
    ∃ ys, τ.networks l = ys.map VagrantNetworkConfig.portForwarding ∧
      Vagrant.updatedForwardings e.2 ys = Vagrant.updatedForwardings e.2 xs := by
  by_cases hnew : ∀ e ∈ done, e.1.vagrantNetworkConfigs ≠ some l
  · -- no machine with this list was there yet
    have hlist := h.same l hnew
    have hreported : ∀ r ∈ σ.list l,
        (τ.network r).reported e.2 = (σ.network r).reported e.2 := by
      intro r hr
      obtain hsame | ⟨e', he', l', hl', hr', hnetwork⟩ := h.network r (σ.closed l r hr)
      · rw [hsame]
      · rw [hnetwork, ← hagree.networks e he e' (hdone e' he') l l' hl hl' r hr hr',
          VagrantNetworkConfig.reported_reported]
    have hall : ∀ n ∈ τ.networks l, n.forwarding?.isSome = true := by
      intro n hn
      obtain ⟨r, hr, rfl⟩ := List.mem_map.mp hn
      rw [hlist] at hr
      have hmem : σ.network r ∈ σ.networks l := List.mem_map_of_mem hr
      rw [hxs] at hmem
      obtain ⟨x, -, hx⟩ := List.mem_map.mp hmem
      obtain hsame | ⟨e', -, l', -, -, hnetwork⟩ := h.network r (σ.closed l r hr)
      · rw [hsame, ← hx]
        rfl
      · rw [hnetwork, ← hx]
        rfl
    obtain ⟨ys, hys⟩ := (all_forwardings_iff _).mp hall
    refine ⟨ys, hys, updatedForwardings_congr ?_⟩
    rw [Heap.networks, hlist] at hys
    exact (map_reported_iff _ _ hys hxs).mpr hreported
  · obtain ⟨e', he', hl'⟩ : ∃ e' ∈ done, e'.1.vagrantNetworkConfigs = some l := by
      push Not at hnew
      exact hnew
    refine ⟨_, h.updated e' he' l xs hl' hxs, ?_⟩
    rw [hagree.updatedForwardings (hdone e' he') he hl' hl hxs, updatedForwardings_again]

/-- **The update of the next machine.** -/
theorem Progress.step {σ τ : Heap} {env done : Env} (h : Progress σ done τ)
    (hagree : Agreeing σ env) (hdone : ∀ e ∈ done, e ∈ env) {e : Vm × List (Int × Int)}
    (he : e ∈ env) {l : ℕ} (hl : e.1.vagrantNetworkConfigs = some l)
    {xs : List VagrantPortForwardingConfig} (hxs : σ.networks l = xs.map .portForwarding) :
    ∃ υ, updatePortMapping e.1 e.2 τ = some υ ∧ Progress σ (done ++ [e]) υ := by
  obtain ⟨ys, hys, hwanted⟩ := h.wanted hagree hdone he hl hxs
  obtain ⟨υ, hυ, hwrites, hnetworks⟩ := updatePortMapping_forwardings hl e.2 hys
  rw [hwanted] at hnetworks
  refine ⟨υ, hυ, ?_⟩
  obtain ⟨rs, hrs, hnewer, hfresh⟩ := hwrites.grown
  obtain ⟨rs₀, hrs₀, hnew₀⟩ := h.grown l
  have hlist : υ.list l = σ.list l ++ (rs₀ ++ rs) := by
    rw [hrs, hrs₀, List.append_assoc]
  -- what was there at first and is in this list is as this machine wants it
  have hown : ∀ r ∈ σ.list l, υ.network r = (σ.network r).reported e.2 :=
    fun r hr => network_of_updated hlist hxs hnetworks hr
  have hold : ∀ r, r < σ.fresh → r ∈ τ.list l → r ∈ σ.list l := by
    intro r hr hmem
    rw [hrs₀] at hmem
    obtain hmem | hmem := List.mem_append.mp hmem
    · exact hmem
    · have hlater := hnew₀ r hmem
      omega
  have hother : ∀ r < τ.fresh, r ∉ τ.list l → υ.network r = τ.network r :=
    fun r hr hnot => hwrites.network_of_not_mem hr hnot
  have happart : ∀ l' r, l' ≠ l → r ∈ υ.list l → r ∈ υ.list l' → r < σ.fresh := by
    intro l' r hne hr hr'
    rw [hwrites.lists l' hne] at hr'
    rw [hrs] at hr
    obtain hr | hr := List.mem_append.mp hr
    · exact h.apart l' l r hne hr' hr
    · have hlater := hnewer r hr
      have hthere := τ.closed l' r hr'
      omega
  refine ⟨?_, ?_, ?_, ?_, ?_, ?_⟩
  · have hbefore := h.fresh
    omega
  · intro l'
    by_cases hne : l' = l
    · subst hne
      refine ⟨_, hlist, fun r hr => ?_⟩
      obtain hr | hr := List.mem_append.mp hr
      · exact hnew₀ r hr
      · exact Nat.le_trans h.fresh (hnewer r hr)
    · rw [hwrites.lists l' hne]
      exact h.grown l'
  · intro l₁ l₂ r hne hr₁ hr₂
    by_cases h₁ : l₁ = l
    · subst h₁
      exact happart l₂ r (Ne.symm hne) hr₁ hr₂
    · by_cases h₂ : l₂ = l
      · subst h₂
        exact happart l₁ r hne hr₂ hr₁
      · rw [hwrites.lists l₁ h₁] at hr₁
        rw [hwrites.lists l₂ h₂] at hr₂
        exact h.apart l₁ l₂ r hne hr₁ hr₂
  · intro l' hall
    have hne : l' ≠ l := by
      rintro rfl
      exact hall e (List.mem_append_right _ List.mem_cons_self) hl
    rw [hwrites.lists l' hne]
    exact h.same l' fun e' he' => hall e' (List.mem_append_left _ he')
  · intro r hr
    by_cases hmem : r ∈ τ.list l
    · have hin := hold r hr hmem
      exact .inr ⟨e, List.mem_append_right _ List.mem_cons_self, l, hl, hin, hown r hin⟩
    · rw [hother r (Nat.lt_of_lt_of_le hr h.fresh) hmem]
      obtain hsame | ⟨e', he', hrest⟩ := h.network r hr
      · exact .inl hsame
      · exact .inr ⟨e', List.mem_append_left _ he', hrest⟩
  · intro e' he' l' xs' hl' hxs'
    by_cases hne : l' = l
    · subst hne
      have hsame : xs' = xs :=
        List.map_injective_iff.mpr portForwarding_injective (hxs'.symm.trans hxs)
      have henv : e' ∈ env := by
        obtain he' | he' := List.mem_append.mp he'
        · exact hdone e' he'
        · exact List.mem_singleton.mp he' ▸ he
      rw [hnetworks, hsame, hagree.updatedForwardings he henv hl hl' hxs]
    · obtain he' | he' := List.mem_append.mp he'
      · rw [← h.updated e' he' l' xs' hl' hxs', Heap.networks, Heap.networks,
          hwrites.lists l' hne]
        refine List.map_congr_left fun r hr => ?_
        by_cases hmem : r ∈ τ.list l
        · -- a network of both lists
          have hr₀ := h.apart l' l r hne hr hmem
          have hin := hold r hr₀ hmem
          obtain ⟨rs', hrs', hnew'⟩ := h.grown l'
          have hin' : r ∈ σ.list l' := by
            rw [hrs'] at hr
            obtain hr | hr := List.mem_append.mp hr
            · exact hr
            · have hlater := hnew' r hr
              omega
          rw [hown r hin, network_of_updated hrs' hxs' (h.updated e' he' l' xs' hl' hxs') hin']
          exact hagree.networks e he e' (hdone e' he') l l' hl hl' r hin hin'
        · exact hother r (τ.closed l' r hr) hmem
      · obtain rfl := List.mem_singleton.mp he'
        rw [hl] at hl'
        exact absurd (Option.some.inj hl').symm hne

/-! ## The ports of all machines -/

def portEntries (vmConfig : VagrantVmConfig) : List (Option String × Option String × Int) :=
  vmConfig.vagrantNetworkConfigs.filterMap (portEntry vmConfig.name)

theorem foldlM_networks (vmName : Option String) (networks : List VagrantNetworkConfig) :
    ∀ m m' : PortMap,
      networks.foldlM (fun portMapping network => (portEntry vmName network).map fun e =>
          portMapping.insert e.1 e.2) m = some m' ↔
        (∀ n ∈ networks, (portEntry vmName n).isSome = true) ∧
          m' = fill m (networks.filterMap (portEntry vmName)) := by
  induction networks with
  | nil =>
    intro m m'
    simp only [List.foldlM_nil, List.filterMap_nil, fill,
      List.foldl_nil, Option.pure_def, Option.some.injEq, List.not_mem_nil, false_implies,
      implies_true, true_and]
    exact eq_comm
  | cons n ns ih =>
    intro m m'
    rw [List.foldlM_cons, List.forall_mem_cons]
    cases hn : portEntry vmName n with
    | none => simp
    | some e =>
      rw [Option.map_some, Option.bind_eq_bind, Option.bind_some, ih, List.filterMap_cons_some hn]
      simp [fill]

/-- One machine's networks go into the map when each has an entry. -/
theorem putPorts_eq_some_iff (σ : Heap) (vm : Vm) (m m' : PortMap) :
    putPorts σ m vm = some m' ↔
      (vm.vagrantNetworkConfigs.isSome = true ∧
        ∀ n ∈ (vm.value σ).vagrantNetworkConfigs, (portEntry vm.settings.name n).isSome = true) ∧
        m' = fill m (portEntries (vm.value σ)) := by
  unfold putPorts
  cases hl : vm.vagrantNetworkConfigs with
  | none => simp
  | some l =>
    have hvalue : (vm.value σ).vagrantNetworkConfigs = σ.networks l := by simp [Vm.value, hl]
    have hentries : portEntries (vm.value σ) =
        (σ.networks l).filterMap (portEntry vm.settings.name) := by
      rw [portEntries, hvalue]
      rfl
    rw [Option.bind_eq_bind, Option.bind_some, foldlM_networks, hvalue, hentries,
      Option.isSome_some, eq_self_iff_true, true_and]

theorem getPortMapping_iff (σ : Heap) (vms : List Vm) (portMapping : PortMap) :
    getPortMapping vms σ = some portMapping ↔
      (∀ vm ∈ vms, vm.vagrantNetworkConfigs.isSome = true ∧
        ∀ n ∈ (vm.value σ).vagrantNetworkConfigs, (portEntry vm.settings.name n).isSome = true) ∧
        portMapping = fill ∅ (vms.flatMap fun vm => portEntries (vm.value σ)) := by
  unfold getPortMapping
  generalize (∅ : PortMap) = m
  induction vms generalizing m with
  | nil =>
    simp only [List.foldlM_nil, List.flatMap_nil, fill, List.foldl_nil, Option.pure_def,
      Option.some.injEq, List.not_mem_nil, false_implies, implies_true, true_and]
    exact eq_comm
  | cons vm vms ih =>
    rw [List.foldlM_cons, List.forall_mem_cons, List.flatMap_cons, fill_append,
      Option.bind_eq_bind, Option.bind_eq_some_iff]
    constructor
    · rintro ⟨m₁, hfirst, hrest⟩
      obtain ⟨hvm, rfl⟩ := (putPorts_eq_some_iff σ vm m m₁).mp hfirst
      obtain ⟨hvms, rfl⟩ := (ih _).mp hrest
      exact ⟨⟨hvm, hvms⟩, rfl⟩
    · rintro ⟨⟨hvm, hvms⟩, rfl⟩
      exact ⟨_, (putPorts_eq_some_iff σ vm m _).mpr ⟨hvm, rfl⟩, (ih _).mpr ⟨hvms, rfl⟩⟩

/-! ## What survives -/

/-- Every forwarding has an entry, and an entry of its own. -/
structure Kept (vmConfigs : List VagrantVmConfig) (portMapping : PortMap) : Prop where
  present : ∀ vm ∈ vmConfigs, ∀ x ∈ vm.forwardings, ∃ hostPort, x.hostPort = some hostPort ∧
    portMapping.lookup (portKey vm.name x) = some (x.hostIp, hostPort)
  own : portMapping.keys.length = (vmConfigs.map (·.vagrantNetworkConfigs.length)).sum

/-- The machines with the pairs reported for each go through the updates
and into the map. -/
def Survives (σ : Heap) (env : Env) : Prop :=
  ∃ τ portMapping, getBoxePortMappings env σ = some τ ∧
    getPortMapping (env.map Prod.fst) τ = some portMapping ∧
    (∀ e ∈ env, Updated e.2 (e.1.value σ) (e.1.value τ) ∧
      updatePortMapping e.1 e.2 τ = some τ) ∧
    Kept (env.map fun e => e.1.value τ) portMapping

/-- The keys of a machine's forwardings, with the one for ssh if it is to
be added. -/
def portKeys (ps : List (Int × Int)) (vmConfig : VagrantVmConfig) : List (Option String) :=
  vmConfig.forwardings.map (portKey vmConfig.name) ++
    if (lastReported ps 22).isSome && !vmConfig.forwardings.any (·.serves 22) then
      [some ("ssh_" ++ vmConfig.name.getD "null")] else []

/-- What the machines must come with. -/
structure Forwardable (σ : Heap) (env : Env) : Prop where
  forwardings : ∀ e ∈ env, ∃ l, e.1.vagrantNetworkConfigs = some l ∧
    ∀ n ∈ σ.networks l, n.forwarding?.isSome = true
  agreeing : Agreeing σ env
  hostPorts : ∀ e ∈ env, ∀ x ∈ (e.1.value σ).forwardings,
    (x.reported e.2).hostPort.isSome = true
  keys : (env.flatMap fun e => portKeys e.2 (e.1.value σ)).Nodup

@[simp] theorem portKey_reported (vmName : Option String) (ps : List (Int × Int))
    (x : VagrantPortForwardingConfig) : portKey vmName (x.reported ps) = portKey vmName x := by
  obtain h | ⟨hostPort, h⟩ := reported_cases ps x
  · rw [h]
  · rw [h]
    rfl

theorem portEntry_forwarding (vmName : Option String) (x : VagrantPortForwardingConfig) :
    portEntry vmName (.portForwarding x) =
      x.hostPort.map fun hostPort => (portKey vmName x, x.hostIp, hostPort) := by
  cases h : x.hostPort <;> simp [portEntry, VagrantNetworkConfig.forwarding?, h]

/-- Each forwarding with a host port has its entry. -/
theorem portEntries_keys {vm : VagrantVmConfig} {xs : List VagrantPortForwardingConfig}
    (h : vm.vagrantNetworkConfigs = xs.map .portForwarding)
    (hports : ∀ x ∈ xs, x.hostPort.isSome = true) :
    (portEntries vm).map Prod.fst = xs.map (portKey vm.name) := by
  rw [portEntries, h]
  clear h
  induction xs with
  | nil => rfl
  | cons x xs ih =>
    obtain ⟨hx, hxs⟩ := List.forall_mem_cons.mp hports
    obtain ⟨hostPort, hport⟩ := Option.isSome_iff_exists.mp hx
    rw [List.map_cons, List.filterMap_cons, portEntry_forwarding, hport, Option.map_some,
      List.map_cons, List.map_cons, ih hxs]

theorem Updated.forwardings {ps : List (Int × Int)} {before after : VagrantVmConfig}
    (h : Updated ps before after) :
    before.vagrantNetworkConfigs = before.forwardings.map .portForwarding ∧
      after = { before with vagrantNetworkConfigs :=
        (updatedForwardings ps before.forwardings).map .portForwarding } := by
  obtain ⟨xs, hxs, rfl⟩ := h
  have hforwardings : before.forwardings = xs := by
    rw [VagrantVmConfig.forwardings, hxs, forwardings_map]
  rw [hforwardings]
  exact ⟨hxs, rfl⟩

theorem map_portKey_updated (vm : VagrantVmConfig) (ps : List (Int × Int)) :
    (updatedForwardings ps vm.forwardings).map (portKey vm.name) = portKeys ps vm := by
  have hssh : ∀ port, portKey vm.name (sshForwarding 22 port) =
      some ("ssh_" ++ vm.name.getD "null") := by
    intro port
    rfl
  unfold updatedForwardings portKeys
  rw [List.map_append, List.map_map]
  congr 1
  · refine List.map_congr_left fun x _ => ?_
    simp
  · unfold addedSsh
    cases vm.forwardings.any (·.serves 22) with
    | true => simp
    | false => cases lastReported ps 22 <;> simp [hssh]

/-- All host ports are there behind an update that found or got them. -/
theorem hostPorts_updated {ps : List (Int × Int)} {xs : List VagrantPortForwardingConfig} :
    (∀ x ∈ updatedForwardings ps xs, x.hostPort.isSome = true) ↔
      ∀ x ∈ xs, (x.reported ps).hostPort.isSome = true := by
  have hadded : ∀ x ∈ addedSsh ps xs, x.hostPort.isSome = true := by
    intro x hx
    unfold addedSsh at hx
    split at hx
    · cases hx
    · obtain ⟨port, -, rfl⟩ := Option.map_eq_some_iff.mp (Option.mem_toList.mp hx)
      rfl
  rw [updatedForwardings, List.forall_mem_append, and_iff_left hadded, List.forall_mem_map]

theorem kept_iff {vmConfigs : List VagrantVmConfig}
    (hall : ∀ vm ∈ vmConfigs, ∀ n ∈ vm.vagrantNetworkConfigs,
      (portEntry vm.name n).isSome = true) :
    Kept vmConfigs (fill ∅ (vmConfigs.flatMap portEntries)) ↔
      ((vmConfigs.flatMap portEntries).map Prod.fst).Nodup := by
  have hlength : (vmConfigs.flatMap portEntries).length =
      (vmConfigs.map (·.vagrantNetworkConfigs.length)).sum := by
    rw [List.length_flatMap]
    refine congrArg List.sum (List.map_congr_left fun vm hvm => ?_)
    rw [portEntries, List.filterMap_length_eq_length]
    exact hall vm hvm
  constructor
  · intro h
    rw [← keys_length_fill_iff, h.own, hlength]
  · intro hnodup
    refine ⟨?_, ?_⟩
    · intro vm hvm x hx
      obtain ⟨n, hn, hnx⟩ := List.mem_filterMap.mp hx
      obtain ⟨e, he⟩ := Option.isSome_iff_exists.mp (hall vm hvm n hn)
      have hx' := he
      rw [portEntry, hnx, Option.bind_eq_bind, Option.bind_some] at hx'
      obtain ⟨hostPort, hport, hpair⟩ := Option.bind_eq_some_iff.mp hx'
      obtain rfl := Option.some.inj hpair
      have hentry : (portKey vm.name x, x.hostIp, hostPort) ∈ vmConfigs.flatMap portEntries :=
        List.mem_flatMap.mpr ⟨vm, hvm, List.mem_filterMap.mpr ⟨n, hn, he⟩⟩
      exact ⟨hostPort, hport, lookup_fill hnodup hentry⟩
    · rw [(keys_length_fill_iff _).mpr hnodup, hlength]

/-! ## Both directions -/

theorem value_of_list {vm : Vm} {l : ℕ} (h : vm.vagrantNetworkConfigs = some l) (σ : Heap) :
    vm.value σ = { vm.settings with vagrantNetworkConfigs := σ.networks l } := by
  simp [Vm.value, h]

theorem getBoxePortMappings_concat (env : Env) (e : Vm × List (Int × Int)) (σ : Heap) :
    getBoxePortMappings (env ++ [e]) σ =
      (getBoxePortMappings env σ).bind (updatePortMapping e.1 e.2) := by
  rw [getBoxePortMappings, List.foldlM_append]
  refine congrArg (Option.bind _) (funext fun τ => ?_)
  cases h : updatePortMapping e.1 e.2 τ <;> simp [h]

theorem progress_run {σ : Heap} {env : Env} (h : Forwardable σ env) :
    ∀ done : Env, (∀ e ∈ done, e ∈ env) →
      ∃ τ, getBoxePortMappings done σ = some τ ∧ Progress σ done τ := by
  intro done
  induction done using List.reverseRecOn with
  | nil => exact fun _ => ⟨σ, rfl, progress_nil σ⟩
  | append_singleton done e ih =>
    intro hall
    have hdone : ∀ e ∈ done, e ∈ env := fun e he => hall e (List.mem_append_left _ he)
    have he : e ∈ env := hall e (List.mem_append_right _ List.mem_cons_self)
    obtain ⟨τ, hτ, hprogress⟩ := ih hdone
    obtain ⟨l, hl, hforwardings⟩ := h.forwardings e he
    obtain ⟨xs, hxs⟩ := (all_forwardings_iff _).mp hforwardings
    obtain ⟨υ, hυ, hnext⟩ := hprogress.step h.agreeing hdone he hl hxs
    exact ⟨υ, by rw [getBoxePortMappings_concat, hτ, Option.bind_some, hυ], hnext⟩

/-- No update takes something out of a list. -/
theorem grown_run {σ : Heap} {env : Env}
    (hlists : ∀ e ∈ env, e.1.vagrantNetworkConfigs.isSome = true) :
    ∀ {τ : Heap}, getBoxePortMappings env σ = some τ → ∀ l, σ.list l <+: τ.list l := by
  induction env using List.reverseRecOn with
  | nil =>
    intro τ h l
    obtain rfl := Option.some.inj h
    exact List.prefix_rfl
  | append_singleton es e ih =>
    intro υ h l
    rw [getBoxePortMappings_concat] at h
    obtain ⟨τ, hτ, hυ⟩ := Option.bind_eq_some_iff.mp h
    have hbefore := ih (fun e he => hlists e (List.mem_append_left _ he)) hτ l
    obtain ⟨l', hl'⟩ := Option.isSome_iff_exists.mp
      (hlists e (List.mem_append_right _ List.mem_cons_self))
    have hwrites := updatePortMapping_writes hl' hυ
    by_cases hne : l = l'
    · subst hne
      obtain ⟨rs, hrs, -⟩ := hwrites.grown
      rw [hrs]
      exact hbefore.trans (List.prefix_append _ _)
    · rw [hwrites.lists l hne]
      exact hbefore

theorem Survives.forwardable {σ : Heap} {env : Env} (h : Survives σ env) :
    Forwardable σ env := by
  obtain ⟨τ, portMapping, hrun, hports, hupdated, hkept⟩ := h
  obtain ⟨hentries, rfl⟩ := (getPortMapping_iff τ _ _).mp hports
  have hlists : ∀ e ∈ env, e.1.vagrantNetworkConfigs.isSome = true := fun e he =>
    (hentries e.1 (List.mem_map_of_mem he)).1
  -- what stands in a list at first and at last
  have hlist : ∀ e ∈ env, ∃ l rs, e.1.vagrantNetworkConfigs = some l ∧
      τ.list l = σ.list l ++ rs ∧
      σ.networks l = (e.1.value σ).forwardings.map .portForwarding ∧
      τ.networks l = (updatedForwardings e.2 (e.1.value σ).forwardings).map .portForwarding := by
    intro e he
    obtain ⟨l, hl⟩ := Option.isSome_iff_exists.mp (hlists e he)
    obtain ⟨hbefore, hafter⟩ := (hupdated e he).1.forwardings
    obtain ⟨rs, hrs⟩ := grown_run hlists hrun l
    have hfinal := congrArg VagrantVmConfig.vagrantNetworkConfigs hafter
    rw [value_of_list hl] at hbefore
    rw [value_of_list hl τ] at hfinal
    refine ⟨l, rs, hl, hrs.symm, ?_, hfinal⟩
    rw [value_of_list hl]
    exact hbefore
  have hvalues : ∀ vm ∈ env.map fun e => e.1.value τ, ∀ n ∈ vm.vagrantNetworkConfigs,
      (portEntry vm.name n).isSome = true := by
    intro vm hvm
    obtain ⟨e, he, rfl⟩ := List.mem_map.mp hvm
    exact (hentries e.1 (List.mem_map_of_mem he)).2
  have hhostPorts : ∀ e ∈ env,
      ∀ x ∈ updatedForwardings e.2 (e.1.value σ).forwardings, x.hostPort.isSome = true := by
    intro e he x hx
    obtain ⟨l, -, hl, -, -, hτ⟩ := hlist e he
    have hmem : VagrantNetworkConfig.portForwarding x ∈ (e.1.value τ).vagrantNetworkConfigs := by
      rw [value_of_list hl]
      show _ ∈ τ.networks l
      rw [hτ]
      exact List.mem_map_of_mem hx
    have hsome := (hentries e.1 (List.mem_map_of_mem he)).2 _ hmem
    rw [portEntry_forwarding, Option.isSome_map] at hsome
    exact hsome
  have hkeys : ((env.map fun e => e.1.value τ).flatMap portEntries).map Prod.fst =
      env.flatMap fun e => portKeys e.2 (e.1.value σ) := by
    rw [List.flatMap_map, List.map_flatMap]
    refine List.flatMap_congr fun e he => ?_
    obtain ⟨l, -, hl, -, -, hτ⟩ := hlist e he
    have hnetworks : (e.1.value τ).vagrantNetworkConfigs =
        (updatedForwardings e.2 (e.1.value σ).forwardings).map .portForwarding := by
      rw [value_of_list hl]
      exact hτ
    rw [portEntries_keys hnetworks (hhostPorts e he), ← map_portKey_updated]
    rfl
  refine ⟨?_, ⟨?_, ?_⟩, ?_, ?_⟩
  · intro e he
    obtain ⟨l, -, hl, -, hσ, -⟩ := hlist e he
    exact ⟨l, hl, (all_forwardings_iff _).mpr ⟨_, hσ⟩⟩
  · intro e he e' he' l l' hl hl' r hr hr'
    obtain ⟨k, rs, hk, hrs, hσ, hτ⟩ := hlist e he
    obtain ⟨k', rs', hk', hrs', hσ', hτ'⟩ := hlist e' he'
    obtain rfl := Option.some.inj (hl.symm.trans hk)
    obtain rfl := Option.some.inj (hl'.symm.trans hk')
    rw [← network_of_updated hrs hσ hτ hr, ← network_of_updated hrs' hσ' hτ' hr']
  · intro e he e' he' l hl hl'
    obtain ⟨k, rs, hk, -, hσ, hτ⟩ := hlist e he
    obtain ⟨k', rs', hk', -, hσ', hτ'⟩ := hlist e' he'
    obtain rfl := Option.some.inj (hl.symm.trans hk)
    obtain rfl := Option.some.inj (hl'.symm.trans hk')
    have hsame : (e'.1.value σ).forwardings = (e.1.value σ).forwardings :=
      List.map_injective_iff.mpr portForwarding_injective (hσ'.symm.trans hσ)
    rw [hsame] at hτ'
    have hall := List.map_injective_iff.mpr portForwarding_injective (hτ.symm.trans hτ')
    rw [hσ, forwardings_map]
    exact (List.append_inj hall (by simp)).2
  · intro e he
    exact hostPorts_updated.mp (hhostPorts e he)
  · rw [← hkeys]
    rw [List.flatMap_map] at hkeys
    have hmap : ((env.map Prod.fst).flatMap fun vm => portEntries (vm.value τ)) =
        (env.map fun e => e.1.value τ).flatMap portEntries := by
      rw [List.flatMap_map, List.flatMap_map]
    rw [hmap] at hkept
    exact (kept_iff hvalues).mp hkept

theorem Forwardable.survives {σ : Heap} {env : Env} (h : Forwardable σ env) :
    Survives σ env := by
  obtain ⟨τ, hτ, hprogress⟩ := progress_run h env fun _ he => he
  have hlist : ∀ e ∈ env, ∃ l, e.1.vagrantNetworkConfigs = some l ∧
      σ.networks l = (e.1.value σ).forwardings.map .portForwarding ∧
      τ.networks l = (updatedForwardings e.2 (e.1.value σ).forwardings).map .portForwarding := by
    intro e he
    obtain ⟨l, hl, hforwardings⟩ := h.forwardings e he
    obtain ⟨xs, hxs⟩ := (all_forwardings_iff _).mp hforwardings
    have hvalue : (e.1.value σ).forwardings = xs := by
      rw [VagrantVmConfig.forwardings, value_of_list hl]
      show (σ.networks l).filterMap _ = xs
      rw [hxs, forwardings_map]
    rw [hvalue]
    exact ⟨l, hl, hxs, hprogress.updated e he l xs hl hxs⟩
  have hnetworks : ∀ e ∈ env, (e.1.value τ).vagrantNetworkConfigs =
      (updatedForwardings e.2 (e.1.value σ).forwardings).map .portForwarding := by
    intro e he
    obtain ⟨l, hl, -, hfinal⟩ := hlist e he
    rw [value_of_list hl]
    exact hfinal
  have hvalues : ∀ e ∈ env, ∀ n ∈ (e.1.value τ).vagrantNetworkConfigs,
      (portEntry e.1.settings.name n).isSome = true := by
    intro e he n hn
    rw [hnetworks e he] at hn
    obtain ⟨x, hx, rfl⟩ := List.mem_map.mp hn
    rw [portEntry_forwarding, Option.isSome_map]
    exact hostPorts_updated.mpr (h.hostPorts e he) x hx
  have hkeys : ((env.map fun e => e.1.value τ).flatMap portEntries).map Prod.fst =
      env.flatMap fun e => portKeys e.2 (e.1.value σ) := by
    rw [List.flatMap_map, List.map_flatMap]
    refine List.flatMap_congr fun e he => ?_
    rw [portEntries_keys (hnetworks e he) (hostPorts_updated.mpr (h.hostPorts e he)),
      ← map_portKey_updated]
    rfl
  refine ⟨τ, fill ∅ ((env.map fun e => e.1.value τ).flatMap portEntries), hτ, ?_, ?_, ?_⟩
  · rw [getPortMapping_iff]
    refine ⟨?_, by rw [List.flatMap_map, List.flatMap_map]⟩
    intro vm hvm
    obtain ⟨e, he, rfl⟩ := List.mem_map.mp hvm
    obtain ⟨l, hl, -⟩ := hlist e he
    exact ⟨by rw [hl]; rfl, hvalues e he⟩
  · intro e he
    obtain ⟨l, hl, hfirst, hfinal⟩ := hlist e he
    refine ⟨⟨(e.1.value σ).forwardings, ?_, ?_⟩, ?_⟩
    · rw [← hfirst, value_of_list hl]
    · rw [← hfinal, value_of_list hl, value_of_list hl]
    · obtain ⟨υ, hυ, hwrites, hagain⟩ := updatePortMapping_forwardings hl e.2 hfinal
      rw [updatedForwardings_again, ← hfinal] at hagain
      rw [hυ, hwrites.eq_of_networks hagain]
  · refine (kept_iff ?_).mpr (hkeys ▸ h.keys)
    intro vm hvm
    obtain ⟨e, he, rfl⟩ := List.mem_map.mp hvm
    exact hvalues e he

/-- **Forwardings survive exactly when there is no other kind of network,
no host port is missing, machines agree on what they share, and no two
forwardings come under one key.** -/
theorem forwardings_kept_iff (σ : Heap) (env : Env) : Survives σ env ↔ Forwardable σ env :=
  ⟨Survives.forwardable, Forwardable.survives⟩

/-- A heap with lists of one network each. -/
def apart (networks : List VagrantNetworkConfig) : Heap where
  network := fun r => networks.getD r (.privateNetwork ⟨none, none, none, none⟩)
  list := fun l => (List.range networks.length).filter (· == l)
  fresh := networks.length
  closed := fun _ _ h => List.mem_range.mp (List.mem_of_mem_filter h)

def forwardingOf (guestPort : Int) (hostPort : Option Int) (service : String) :
    VagrantNetworkConfig :=
  .portForwarding
    ⟨some true, some guestPort, none, hostPort, none, some .tcp, some service, some service⟩

/-- A private network, a service of two machines, a list of two machines
that are reported different ports, a missing host port and a missing list. -/
theorem forwardings_lost :
    ¬ Survives (apart [.privateNetwork ⟨some true, none, none, some true⟩])
        [(⟨bareVm, some 0⟩, [(22, 2222)])] ∧
      ¬ Survives (apart [forwardingOf 80 (some 8080) "http", forwardingOf 80 (some 8081) "http"])
        [(⟨bareVm, some 0⟩, [(80, 8080)]),
          (⟨{ bareVm with name := some "second" }, some 1⟩, [(80, 8081)])] ∧
      ¬ Survives (apart [forwardingOf 22 (some 22) "ssh"])
        [(⟨bareVm, some 0⟩, [(22, 2222)]),
          (⟨{ bareVm with name := some "second" }, some 0⟩, [(22, 2200)])] ∧
      ¬ Survives (apart [forwardingOf 80 none "http"]) [(⟨bareVm, some 0⟩, [(22, 2222)])] ∧
      ¬ Survives (apart []) [(⟨bareVm, none⟩, [(22, 2222)])] := by
  refine ⟨?_, ?_, ?_, ?_, ?_⟩
  · intro h
    obtain ⟨l, hl, hall⟩ := h.forwardable.forwardings _ List.mem_cons_self
    obtain rfl := Option.some.inj hl
    exact absurd (hall _ List.mem_cons_self) (by decide)
  · intro h
    have hkeys := h.forwardable.keys
    revert hkeys
    decide +kernel
  · intro h
    have hsame := h.forwardable.agreeing.networks _ List.mem_cons_self _
      (List.mem_cons_of_mem _ List.mem_cons_self) 0 0 rfl rfl 0 (by decide) (by decide)
    have hport := congrArg (fun n => n.forwarding?.bind (·.hostPort)) hsame
    exact absurd hport (by decide)
  · intro h
    exact absurd (h.forwardable.hostPorts _ List.mem_cons_self _ List.mem_cons_self) (by decide)
  · intro h
    obtain ⟨l, hl, -⟩ := h.forwardable.forwardings _ List.mem_cons_self
    cases hl

end Clustering.Vagrant
