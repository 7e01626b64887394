/-
Clustering.Provisioning.Names — the names the loop of `prepareProvisionVm`
gives.

A machine is to get its own name, or its number among those that have
none, with the uuid once. The loop writes into objects and reads them
again, so two machines that share a provider share its name, and the
second one finds what the first was given. Machines and providers are
told apart by identity; the loop gives the names it should exactly when
no provider is shared (`names_renameVms_iff`).
-/
import Mathlib.Data.List.Nodup
import Mathlib.Data.List.NodupEquivFin
import Clustering.Java.Strings
import Clustering.Provisioning.VMActor

namespace Clustering.Provisioning

/-- Entries with one identity are one object, and so of one content. -/
structure Coherent (vms : List VagrantVmConfig) : Prop where
  providers : ∀ a ∈ vms, ∀ b ∈ vms, a.provider.ref = b.provider.ref → a.provider = b.provider
  machines : ∀ a ∈ vms, ∀ b ∈ vms, a.ref = b.ref → a = b

/-- The name a machine comes with. -/
def VagrantVmConfig.ownName (vm : VagrantVmConfig) : Option String :=
  vm.provider.vmName.filter fun name => decide (0 < name.length)

def unnamed (vms : List VagrantVmConfig) : ℕ := vms.countP fun vm => vm.ownName.isNone

/-- The name of the machine at `i`: its own or its number among those
without one, and the uuid. -/
def targetName (uuid : String) (vms : List VagrantVmConfig) (i : ℕ) (vm : VagrantVmConfig) :
    String :=
  match vm.ownName with
  | some name => name ++ "_" ++ uuid
  | none => uuid ++ "_" ++ toString (unnamed (vms.take (i + 1)))

/-- The names of the machines, and those of their providers. -/
def names (vms : List VagrantVmConfig) : List (String × Option String) :=
  vms.map fun vm => (vm.name, vm.provider.vmName)

def targetNames (uuid : String) (vms : List VagrantVmConfig) : List (String × Option String) :=
  vms.mapIdx fun i vm => (targetName uuid vms i vm, some (targetName uuid vms i vm))

/-! ## Providers of their own -/

def VagrantVmConfig.named (vm : VagrantVmConfig) (name : String) : VagrantVmConfig :=
  { vm with name := name, provider := { vm.provider with vmName := some name } }

theorem unnamed_take_succ {vms : List VagrantVmConfig} {k : ℕ} {vm : VagrantVmConfig}
    (h : vms[k]? = some vm) :
    unnamed (vms.take (k + 1)) = unnamed (vms.take k) + if vm.ownName.isNone then 1 else 0 := by
  rw [unnamed, List.take_add_one, h, List.countP_append]
  cases hown : vm.ownName <;> simp [unnamed, hown]

/-- Read from a machine as it came, the next name is the one it is to have. -/
theorem nextName_eq {vms : List VagrantVmConfig} {k : ℕ} {vm : VagrantVmConfig}
    (h : vms[k]? = some vm) (uuid : String) :
    VMActor.nextName uuid (unnamed (vms.take k)) vm.provider =
      (targetName uuid vms k vm, unnamed (vms.take (k + 1))) := by
  rw [unnamed_take_succ h, targetName, unnamed_take_succ h, VMActor.nextName]
  cases hname : vm.provider.vmName with
  | none =>
    have hown : vm.ownName = none := by simp [VagrantVmConfig.ownName, hname]
    simp [hown]
  | some name =>
    by_cases hfilled : 0 < name.length
    · have hown : vm.ownName = some name := by
        simp [VagrantVmConfig.ownName, hname, Option.filter, hfilled]
      simp [hown, hfilled]
    · have hown : vm.ownName = none := by
        simp [VagrantVmConfig.ownName, hname, Option.filter, hfilled]
      simp [hown, hfilled]

/-- The first `k` machines have their names. -/
def renamedUpTo (uuid : String) (vms : List VagrantVmConfig) (k : ℕ) : List VagrantVmConfig :=
  vms.mapIdx fun i vm => if i < k then vm.named (targetName uuid vms i vm) else vm

theorem renamedUpTo_succ {uuid : String} {vms : List VagrantVmConfig} (h : Coherent vms)
    (hnodup : (vms.map (·.provider.ref)).Nodup) {k : ℕ} {vm : VagrantVmConfig}
    (hk : vms[k]? = some vm) :
    VMActor.setName vm.ref (targetName uuid vms k vm)
        (VMActor.setVmName vm.provider.ref (targetName uuid vms k vm) (renamedUpTo uuid vms k)) =
      renamedUpTo uuid vms (k + 1) := by
  refine List.ext_getElem? fun i => ?_
  simp only [VMActor.setName, VMActor.setVmName, renamedUpTo, List.getElem?_map,
    List.getElem?_mapIdx]
  cases hi : vms[i]? with
  | none => rfl
  | some other =>
    have hprovider : other.provider.ref = vm.provider.ref ↔ i = k := by
      constructor
      · intro heq
        have hlength : i < (vms.map (·.provider.ref)).length := by
          rw [List.length_map]
          exact (List.getElem?_eq_some_iff.mp hi).1
        refine (List.getElem?_inj hlength hnodup).mp ?_
        rw [List.getElem?_map, List.getElem?_map, hi, hk]
        exact congrArg some heq
      · rintro rfl
        rw [hi] at hk
        cases hk
        rfl
    have hmachine : other.ref = vm.ref ↔ i = k := by
      constructor
      · intro heq
        have hsame := h.machines other (List.mem_of_getElem? hi) vm (List.mem_of_getElem? hk) heq
        exact hprovider.mp (by rw [hsame])
      · rintro rfl
        rw [hi] at hk
        cases hk
        rfl
    by_cases hik : i = k
    · subst hik
      rw [hi] at hk
      cases hk
      simp [VagrantVmConfig.named]
    · have hlt : i < k + 1 ↔ i < k := by omega
      by_cases hbelow : i < k
      · simp [hbelow, hlt, VagrantVmConfig.named, hprovider, hmachine, hik]
      · simp [hbelow, hlt, hprovider, hmachine, hik]

theorem renameVm_run {uuid : String} {vms : List VagrantVmConfig} (h : Coherent vms)
    (hnodup : (vms.map (·.provider.ref)).Nodup) {k : ℕ} (hk : k ≤ vms.length) :
    (List.range k).foldl (VMActor.renameVm uuid) (vms, 0) =
      (renamedUpTo uuid vms k, unnamed (vms.take k)) := by
  induction k with
  | zero =>
    have hnone : renamedUpTo uuid vms 0 = vms := by
      refine List.ext_getElem? fun i => ?_
      rw [renamedUpTo, List.getElem?_mapIdx]
      cases vms[i]? <;> simp
    rw [hnone]
    rfl
  | succ k ih =>
    have hget : vms[k]? = some vms[k] := List.getElem?_eq_getElem hk
    have hread : (renamedUpTo uuid vms k)[k]? = some vms[k] := by
      simp [renamedUpTo, hget]
    rw [List.range_succ, List.foldl_append, ih (Nat.le_of_succ_le hk)]
    simp only [List.foldl_cons, List.foldl_nil, VMActor.renameVm, hread, nextName_eq hget]
    rw [renamedUpTo_succ h hnodup hget]

theorem names_renameVms_of_nodup {vms : List VagrantVmConfig} (h : Coherent vms)
    (hnodup : (vms.map (·.provider.ref)).Nodup) (uuid : String) :
    names (VMActor.renameVms uuid vms) = targetNames uuid vms := by
  rw [VMActor.renameVms, renameVm_run h hnodup (Nat.le_refl _)]
  refine List.ext_getElem? fun i => ?_
  simp only [names, renamedUpTo, targetNames, List.getElem?_map, List.getElem?_mapIdx]
  cases hi : vms[i]? with
  | none => rfl
  | some vm =>
    have hlength : i < vms.length := (List.getElem?_eq_some_iff.mp hi).1
    simp [hlength, VagrantVmConfig.named]

/-! ## A shared provider -/

/-- Behind `k` machines: nothing is exchanged, providers are still one
object for all that share them, and a name that was there has the uuid
once for every machine that came by. -/
structure Renaming (uuid : String) (vms : List VagrantVmConfig) (k : ℕ)
    (now : List VagrantVmConfig) : Prop where
  refs : now.map (·.provider.ref) = vms.map (·.provider.ref)
  shared : ∀ a ∈ now, ∀ b ∈ now, a.provider.ref = b.provider.ref →
    a.provider.vmName = b.provider.vmName
  grown : ∀ (i : ℕ) (vm vm' : VagrantVmConfig) (name : String),
    vms[i]? = some vm → now[i]? = some vm' → vm.ownName = some name →
    ∃ name', vm'.provider.vmName = some name' ∧ name'.length = name.length +
      (1 + uuid.length) * (vms.take k).countP fun other => other.provider.ref = vm.provider.ref

theorem renaming_zero {vms : List VagrantVmConfig} (h : Coherent vms) (uuid : String) :
    Renaming uuid vms 0 vms := by
  refine ⟨rfl, ?_, ?_⟩
  · intro a ha b hb heq
    rw [h.providers a ha b hb heq]
  · intro i vm vm' name hi hi' hname
    rw [hi] at hi'
    cases hi'
    refine ⟨name, ?_, by simp⟩
    exact (Option.filter_eq_some_iff.mp hname).1

/-- The provider of the machine at `k` has the name `name`, as have those
who share it. -/
theorem getElem?_setNames {now : List VagrantVmConfig} {provider ref i : ℕ} {name : String}
    {vm : VagrantVmConfig} (h : (VMActor.setName ref name
      (VMActor.setVmName provider name now))[i]? = some vm) :
    ∃ before, now[i]? = some before ∧ vm.provider.ref = before.provider.ref ∧
      vm.provider.vmName = if before.provider.ref = provider then some name
        else before.provider.vmName := by
  simp only [VMActor.setName, VMActor.setVmName, List.getElem?_map] at h
  cases hi : now[i]? with
  | none => simp [hi] at h
  | some before =>
    refine ⟨before, rfl, ?_⟩
    simp only [hi, Option.map_some, Option.some.injEq] at h
    subst h
    by_cases hprovider : before.provider.ref = provider
    · by_cases href : before.ref = ref <;> simp [hprovider, href]
    · by_cases href : before.ref = ref <;> simp [hprovider, href]

theorem Renaming.succ {uuid : String} {vms now : List VagrantVmConfig} {k c : ℕ}
    (h : Renaming uuid vms k now) :
    Renaming uuid vms (k + 1) (VMActor.renameVm uuid (now, c) k).1 := by
  have hlength : now.length = vms.length := by
    simpa using congrArg List.length h.refs
  have hrefs : ∀ i : ℕ, (now[i]?).map (·.provider.ref) = (vms[i]?).map (·.provider.ref) := by
    intro i
    rw [← List.getElem?_map, ← List.getElem?_map, h.refs]
  cases hk : now[k]? with
  | none =>
    have hover : vms.length ≤ k := by
      rw [← hlength]
      exact List.getElem?_eq_none_iff.mp hk
    have htake : vms.take (k + 1) = vms.take k := by
      rw [List.take_of_length_le hover, List.take_of_length_le (Nat.le_succ_of_le hover)]
    have hsame : (VMActor.renameVm uuid (now, c) k).1 = now := by simp [VMActor.renameVm, hk]
    rw [hsame]
    exact ⟨h.refs, h.shared, htake ▸ h.grown⟩
  | some d =>
    obtain ⟨name, c', hnext⟩ : ∃ name c', VMActor.nextName uuid c d.provider = (name, c') :=
      ⟨_, _, rfl⟩
    have hrename : (VMActor.renameVm uuid (now, c) k).1 =
        VMActor.setName d.ref name (VMActor.setVmName d.provider.ref name now) := by
      simp [VMActor.renameVm, hk, hnext]
    rw [hrename]
    refine ⟨?_, ?_, ?_⟩
    · rw [← h.refs]
      refine List.ext_getElem? fun i => ?_
      rw [List.getElem?_map, List.getElem?_map]
      cases hi : (VMActor.setName d.ref name (VMActor.setVmName d.provider.ref name now))[i]? with
      | none =>
        have hnone : now[i]? = none := by simpa [VMActor.setName, VMActor.setVmName] using hi
        rw [hnone]
      | some vm =>
        obtain ⟨before, hbefore, href, -⟩ := getElem?_setNames hi
        rw [hbefore]
        exact congrArg some href
    · intro a ha b hb heq
      obtain ⟨i, hi⟩ := List.getElem?_of_mem ha
      obtain ⟨j, hj⟩ := List.getElem?_of_mem hb
      obtain ⟨a', ha', hrefa, hnamea⟩ := getElem?_setNames hi
      obtain ⟨b', hb', hrefb, hnameb⟩ := getElem?_setNames hj
      have hshared := h.shared a' (List.mem_of_getElem? ha') b' (List.mem_of_getElem? hb')
        (by rw [← hrefa, ← hrefb, heq])
      rw [hnamea, hnameb, ← hrefa, ← hrefb, heq, hshared]
    · intro i vm vm' own hi hi' hown
      obtain ⟨before, hbefore, -, hname⟩ := getElem?_setNames hi'
      obtain ⟨old, hold, hgrown⟩ := h.grown i vm before own hi hbefore hown
      have hvm : before.provider.ref = vm.provider.ref := by
        have := hrefs i
        rw [hbefore, hi] at this
        exact Option.some.inj this
      obtain ⟨vmk, hvmk, hvmkref⟩ : ∃ vmk, vms[k]? = some vmk ∧
          vmk.provider.ref = d.provider.ref := by
        have hmap := hrefs k
        rw [hk] at hmap
        cases hvmk : vms[k]? with
        | none => simp [hvmk] at hmap
        | some vmk =>
          rw [hvmk] at hmap
          exact ⟨vmk, rfl, (Option.some.inj hmap).symm⟩
      rw [List.take_add_one, hvmk, List.countP_append]
      by_cases hprovider : before.provider.ref = d.provider.ref
      · -- the name read is the one all of them share
        have hread : d.provider.vmName = some old := by
          rw [← h.shared before (List.mem_of_getElem? hbefore) d (List.mem_of_getElem? hk) hprovider]
          exact hold
        have hfilled : 0 < old.length := by
          have hpos : 0 < own.length := by
            simpa using (Option.filter_eq_some_iff.mp hown).2
          omega
        have hthe : name = old ++ "_" ++ uuid := by
          simp only [VMActor.nextName, hread, if_pos hfilled] at hnext
          exact (Prod.mk.inj hnext).1.symm
        refine ⟨name, by rw [hname, if_pos hprovider], ?_⟩
        have hone : (vmk.provider.ref = vm.provider.ref) := by rw [hvmkref, ← hprovider, hvm]
        have hunder : "_".length = 1 := rfl
        rw [hthe]
        simp only [String.length_append, hgrown, hunder, Option.toList_some, List.countP_singleton,
          hone, decide_true, if_true, Nat.mul_add]
        omega
      · refine ⟨old, by rw [hname, if_neg hprovider, hold], ?_⟩
        have hother : ¬ vmk.provider.ref = vm.provider.ref := by
          rw [hvmkref, ← hvm]
          exact fun heq => hprovider heq.symm
        rw [hgrown]
        simp [hother]

theorem renaming_run {vms : List VagrantVmConfig} (h : Coherent vms) (uuid : String) (k : ℕ) :
    Renaming uuid vms k ((List.range k).foldl (VMActor.renameVm uuid) (vms, 0)).1 := by
  induction k with
  | zero => exact renaming_zero h uuid
  | succ k ih =>
    rw [List.range_succ, List.foldl_append]
    exact ih.succ

theorem nodup_of_names_renameVms {vms : List VagrantVmConfig} (h : Coherent vms) {uuid : String}
    (hnames : names (VMActor.renameVms uuid vms) = targetNames uuid vms) :
    (vms.map (·.provider.ref)).Nodup := by
  have hrun := renaming_run h uuid vms.length
  rw [← VMActor.renameVms] at hrun
  have htarget : ∀ i vm, vms[i]? = some vm → ∃ vm', (VMActor.renameVms uuid vms)[i]? = some vm' ∧
      vm'.provider.vmName = some (targetName uuid vms i vm) := by
    intro i vm hi
    have hat := congrArg (·[i]?) hnames
    simp only [names, targetNames, List.getElem?_map, List.getElem?_mapIdx, hi,
      Option.map_some] at hat
    obtain ⟨vm', hvm', hpair⟩ := Option.map_eq_some_iff.mp hat
    exact ⟨vm', hvm', (Prod.mk.inj hpair).2⟩
  by_contra hdup
  obtain ⟨r, hr⟩ := List.exists_duplicate_iff_not_nodup.mpr hdup
  obtain ⟨i, j, hij, hri, hrj⟩ := List.duplicate_iff_exists_distinct_get.mp hr
  have hi : (i : ℕ) < vms.length := by simpa using i.isLt
  have hj : (j : ℕ) < vms.length := by simpa using j.isLt
  have hgeti : vms[(i : ℕ)]? = some vms[(i : ℕ)] := List.getElem?_eq_getElem hi
  have hgetj : vms[(j : ℕ)]? = some vms[(j : ℕ)] := List.getElem?_eq_getElem hj
  have hrefi : vms[(i : ℕ)].provider.ref = r := by simpa using hri.symm
  have hrefj : vms[(j : ℕ)].provider.ref = r := by simpa using hrj.symm
  obtain ⟨vi, hvi, hnamei⟩ := htarget i _ hgeti
  obtain ⟨vj, hvj, hnamej⟩ := htarget j _ hgetj
  have hsame : vms[(i : ℕ)].provider = vms[(j : ℕ)].provider :=
    h.providers _ (List.getElem_mem hi) _ (List.getElem_mem hj) (hrefi.trans hrefj.symm)
  cases hown : vms[(i : ℕ)].ownName with
  | some name =>
    obtain ⟨name', hname', hgrown⟩ := hrun.grown i _ vi name hgeti hvi hown
    have hlength : name'.length = name.length + 1 + uuid.length := by
      rw [hnamei] at hname'
      have hunder : "_".length = 1 := rfl
      rw [← Option.some.inj hname', targetName, hown]
      simp only [String.length_append, hunder]
    have htwice : 2 ≤ vms.countP fun other => other.provider.ref = vms[(i : ℕ)].provider.ref := by
      have hcount := List.duplicate_iff_two_le_count.mp hr
      rw [List.count, List.countP_map] at hcount
      rw [hrefi]
      exact hcount
    rw [List.take_length, hlength] at hgrown
    have hmul := Nat.mul_le_mul_left (1 + uuid.length) htwice
    omega
  | none =>
    have hownj : vms[(j : ℕ)].ownName = none := by
      rw [← hown, VagrantVmConfig.ownName, VagrantVmConfig.ownName, hsame]
    have href : vi.provider.ref = vj.provider.ref := by
      have hat : ∀ k : ℕ, ((VMActor.renameVms uuid vms)[k]?).map (·.provider.ref) =
          (vms[k]?).map (·.provider.ref) := by
        intro k
        rw [← List.getElem?_map, ← List.getElem?_map, hrun.refs]
      have hati := hat i
      have hatj := hat j
      rw [hvi, hgeti] at hati
      rw [hvj, hgetj] at hatj
      exact (Option.some.inj hati).trans (hrefi.trans (hrefj.symm.trans (Option.some.inj hatj).symm))
    have hone := hrun.shared vi (List.mem_of_getElem? hvi) vj (List.mem_of_getElem? hvj) href
    rw [hnamei, hnamej, targetName, targetName, hown, hownj] at hone
    have hnumbers : unnamed (vms.take (i + 1)) = unnamed (vms.take (j + 1)) := by
      have htexts := (String.append_right_inj _).mp (Option.some.inj hone)
      exact Java.toString_inj htexts
    have hless : unnamed (vms.take (i + 1)) ≤ unnamed (vms.take j) :=
      ((List.take_prefix_take_left (show (i : ℕ) + 1 ≤ j from hij)).sublist).countP_le
    rw [unnamed_take_succ hgetj, hownj] at hnumbers
    simp only [Option.isNone_none, if_true] at hnumbers
    omega

/-- **The machines get the names they are to have exactly when no two of
them share a provider.** -/
theorem names_renameVms_iff {vms : List VagrantVmConfig} (h : Coherent vms) (uuid : String) :
    names (VMActor.renameVms uuid vms) = targetNames uuid vms ↔
      (vms.map (·.provider.ref)).Nodup :=
  ⟨nodup_of_names_renameVms h, fun hnodup => names_renameVms_of_nodup h hnodup uuid⟩

/-- Two machines with the provider 5. -/
example : names (VMActor.renameVms "7" [⟨0, "a", ⟨5, some 512, some "web"⟩⟩,
    ⟨1, "b", ⟨5, some 512, some "web"⟩⟩]) =
      [("web_7", some "web_7_7"), ("web_7_7", some "web_7_7")] := by
  decide +kernel

end Clustering.Provisioning
