/-
Clustering.Provisioning.Pipeline — a node adds its machines one by one.

There is one token: the timer that asks for a machine, the exchange with
the `InstanceActor`, the exchange with the monitor, or a machine that is
not provisioned yet. `carried` says which messages are one, `pipeline`
counts all there are. Every handler that takes the token passes it on.

A run goes through three phases: the node has not handled its `Init`, it
waits for the references of its master, it runs (`Running`). The token
appears with the last of the two references.
-/
import Clustering.Actors.Tokens
import Clustering.Provisioning.Turns
import Clustering.Provisioning.World

namespace Clustering.Provisioning

open Actors Actors.EventSystem

/-! ## The token -/

inductive Stage where
  /-- A timer that is armed, or its `AddVmActor`. -/
  | timer
  /-- `GetDeployInfo`, `DeployInfo` or `NoDeployInfo`. -/
  | deployInfo
  /-- `GetSystemAttributes`, `NotReadyJet` or `SystemAttributes`. -/
  | systemAttributes
  /-- A machine whose `VmProvisioned` has not been handled. -/
  | booting (uuid : ℕ)
  deriving DecidableEq, Repr

/-- What a message of the node is of the pipeline. -/
def carried : Envelope → Multiset Stage
  | ⟨_, .node, .addVmActor⟩ => {.timer}
  | ⟨.node, .instances, .getDeployInfo⟩ | ⟨_, .node, .deployInfo _⟩ | ⟨_, .node, .noDeployInfo⟩ =>
      {.deployInfo}
  | ⟨.node, .monitor, .getSystemAttributes⟩ | ⟨_, .node, .systemAttributes _⟩
  | ⟨_, .node, .notReadyJet .getSystemAttributes⟩ => {.systemAttributes}
  | _ => 0

/-- The machines that are not provisioned. -/
def booting (created provisioned : List ℕ) : Multiset Stage :=
  ((created.filter (· ∉ provisioned)).map Stage.booting : List Stage)

/-- All there is of the pipeline of a node. -/
def pipeline (w : World) : Multiset Stage :=
  held carried w.inflight + booting w.created w.provisioned

/-- No handler of the node or its monitor raises, and no machine is
announced twice. -/
def Undisturbed (w : World) : Event → Prop
  | .deliver ⟨sender, .node, m⟩ _ _ => (NodeActor.receive w.next sender m w.node).raised = none
  | .deliver ⟨sender, .monitor, m⟩ platform _ =>
      (NodeMonitorActor.receive platform sender m w.monitor).raised = none
  | .deliver ⟨sender, .vmActor u, m⟩ _ isDirectory =>
      u ∈ w.created → u ∉ w.gone → u ∈ w.announced →
        .tell .node .vmProvisioned ∉
          (VMActor.receive u isDirectory sender m (w.vmActor (w.current u))).effects
  | _ => True

instance (w : World) : DecidablePred (Undisturbed w) := fun e => by
  unfold Undisturbed
  split <;> infer_instance

/-! ## What is on its way -/

/-- What may be on its way to the node, by sender. -/
def ToNode (created : List ℕ) : Actor → Message → Prop
  | .master, m => m = .setInstanceActor (some .instances) ∨
      m = .setGlobalStatusActor (some .globalStatus) ∨ m = .notReadyJet .getInstanceActor ∨
      m = .notReadyJet .getGlobalStatusActor
  | .node, m => m = .addVmActor
  | .instances, m => (∃ c, m = .deployInfo c) ∨ m = .noDeployInfo
  | .monitor, m => (∃ a, m = .systemAttributes a) ∨ m = .notReadyJet .getSystemAttributes ∨
      m = .getGlobalStatusActor ∨ m = .registerNodeMonitorActor
  | .vmActor u, m => u ∈ created ∧
      (VMActor.TellsNode u m ∨ VMActor.TellsOthers m ∨ m = .vmProvisioned)
  | .vmProxyActor u, m => m = .getInstanceActor ∨ m = .getVmActor u ∨ m = .removeVmActor true u
  | .globalStatus, _ => False

/-- What the node may have sent, by receiver. -/
def FromNode : Actor → Message → Prop
  | .master, m => m = .getInstanceActor ∨ m = .getGlobalStatusActor
  | .node, m => m = .addVmActor
  | .instances, m => m = .getDeployInfo
  | .monitor, m => m = .getSystemAttributes ∨ (∃ p, m = .setPath p) ∨
      ∃ a, m = .setGlobalStatusActor a
  | .vmActor _, m => VMActor.Brings m
  | _, _ => True

def Expected (created : List ℕ) (e : Envelope) : Prop :=
  (e.receiver = .node → ToNode created e.sender e.msg) ∧
    (e.sender = .node → FromNode e.receiver e.msg)

theorem Expected.mono {l l' : List ℕ} {e : Envelope} (h : Expected l e) (hl : l ⊆ l') :
    Expected l' e := by
  refine ⟨fun hr => ?_, h.2⟩
  obtain ⟨sender, receiver, m⟩ := e
  have ht := h.1 hr
  cases sender with
  | vmActor u => exact ⟨hl ht.1, ht.2⟩
  | _ => exact ht

/-- Messages that neither come from the node nor go there are free. -/
theorem expected_of_ne {l : List ℕ} {e : Envelope} (hs : e.sender ≠ .node)
    (hr : e.receiver ≠ .node) : Expected l e :=
  ⟨fun h => absurd h hr, fun h => absurd h hs⟩

theorem carried_of_ne {e : Envelope} (hs : e.sender ≠ .node) (hr : e.receiver ≠ .node) :
    carried e = 0 := by
  obtain ⟨sender, receiver, m⟩ := e
  cases receiver with
  | node => exact absurd rfl hr
  | instances =>
    cases sender with
    | node => exact absurd rfl hs
    | _ => rfl
  | monitor =>
    cases sender with
    | node => exact absurd rfl hs
    | _ => rfl
  | _ => rfl

/-- The `VmProvisioned` of a machine. -/
def announcement (u : ℕ) : Envelope := ⟨.vmActor u, .node, .vmProvisioned⟩

/-! ## A node that runs -/

/-- The invariant of a node that runs. -/
structure Running (w : World) : Prop where
  monitor : w.node.nodeMonitorActor = some .monitor
  ready : w.node.ready = true
  instances : w.node.instanceActor = some .instances
  expected : ∀ e ∈ w.inflight, Expected w.created e
  stage : ∃ s, pipeline w = {s} ∧ (w.node.scheduleOnceAddVmActor = true ↔ s = .timer) ∧
    (s = .systemAttributes → w.node.vagrantEnvironmentConfig.isSome = true)
  announced : ∀ u, w.inflight.count (announcement u) + w.provisioned.count u ≤
    if u ∈ w.announced then 1 else 0
  created : ∀ u ∈ w.created, u < w.next
  nodup : w.created.Nodup
  provisioned : w.provisioned ⊆ w.created

/-- What is left of the pipeline when `e` is taken. -/
def rest (w : World) (e : Envelope) : Multiset Stage :=
  held carried (w.inflight.erase e) + booting w.created w.provisioned

theorem carried_add_rest {w : World} {e : Envelope} (he : e ∈ w.inflight) :
    carried e + rest w e = pipeline w := by
  rw [rest, ← add_assoc, held_erase he]
  rfl

/-- A message that is the token is all there is. -/
theorem Running.spend {w : World} (h : Running w) {e : Envelope} (he : e ∈ w.inflight) {t : Stage}
    (hc : carried e = {t}) : rest w e = 0 ∧ (w.node.scheduleOnceAddVmActor = true ↔ t = .timer) ∧
      (t = .systemAttributes → w.node.vagrantEnvironmentConfig.isSome = true) := by
  obtain ⟨s, hs, htimer, hconfig⟩ := h.stage
  rw [← carried_add_rest he, hc] at hs
  have hts : t = s := by
    have hm : t ∈ ({t} + rest w e : Multiset Stage) := by simp
    rw [hs] at hm
    exact Multiset.mem_singleton.mp hm
  subst hts
  have hrest : rest w e = 0 := by
    have hcard := congrArg Multiset.card hs
    simpa using hcard
  exact ⟨hrest, htimer, hconfig⟩

/-! ## The node handles a message -/

/-- The machines known to be provisioned after a message. -/
def provisionedBy (ready : Bool) (e : Envelope) (l : List ℕ) : List ℕ :=
  match e.sender, e.msg with
  | .vmActor u, .vmProvisioned => if ready then u :: l else l
  | _, _ => l

/-- The node has handled `e` without an exception, and left `es`. -/
structure Handled (w : World) (e : Envelope) (n : NodeActor) (es : List Effect) (w' : World) :
    Prop where
  node : w'.node = n
  inflight : w'.inflight = w.inflight.erase e ++ es.flatMap (posted .node)
  created : w'.created = w.created ++ es.filterMap createdBy
  provisioned : w'.provisioned = provisionedBy w.node.ready e w.provisioned
  announced : w'.announced = w.announced
  next : w'.next = w.next + 1
  submitted : w'.submitted = w.submitted
  started : w'.started = w.started
  destroying : w'.destroying = w.destroying

theorem noteProvisioned_eq (w : World) (e : Envelope) :
    w.noteProvisioned e = { w with provisioned := provisionedBy w.node.ready e w.provisioned } := by
  unfold World.noteProvisioned
  split
  · rename_i u hs hm
    simp only [provisionedBy, hs, hm]
    split <;> rfl
  · rename_i hno
    unfold provisionedBy
    split
    · rename_i u hs hm
      exact (hno u hs hm).elim
    · rfl

theorem handleNode_handled {w : World} {e : Envelope}
    (h : (NodeActor.receive w.next e.sender e.msg w.node).raised = none) :
    Handled w e (NodeActor.receive w.next e.sender e.msg w.node).fields
      (NodeActor.receive w.next e.sender e.msg w.node).effects ((w.taken e).handleNode e) := by
  have he : (w.taken e).handleNode e = (({ (w.taken e).noteProvisioned e with
      node := (NodeActor.receive w.next e.sender e.msg w.node).fields
      next := w.next + 1 } : World).noteCompared
        (NodeActor.receive w.next e.sender e.msg w.node).effects
        (NodeActor.receive w.next e.sender e.msg w.node).fields).act .node
        (NodeActor.receive w.next e.sender e.msg w.node).effects := by
    simp only [World.handleNode, World.taken] at h ⊢
    rw [h]
  rw [he, noteProvisioned_eq]
  exact ⟨rfl, rfl, rfl, rfl, rfl, rfl, rfl, rfl, rfl⟩

/-- An announcement is counted before it is handled, or after. -/
theorem count_announcement {w : World} {e : Envelope} (he : e ∈ w.inflight)
    (hrec : e.receiver = .node) (u : ℕ) : (w.inflight.erase e).count (announcement u) +
      (provisionedBy w.node.ready e w.provisioned).count u ≤
        w.inflight.count (announcement u) + w.provisioned.count u := by
  obtain ⟨sender, receiver, m⟩ := e
  obtain rfl : receiver = .node := hrec
  have hle := (List.erase_sublist (a := ⟨sender, .node, m⟩) (l := w.inflight)).count_le
    (announcement u)
  by_cases ha : (⟨sender, .node, m⟩ : Envelope) = announcement u
  · have hpos := List.count_pos_iff.mpr he
    rw [ha] at hpos ⊢
    have hp : (provisionedBy w.node.ready (announcement u) w.provisioned).count u ≤
        w.provisioned.count u + 1 := by
      simp only [provisionedBy, announcement]
      split <;> simp
    rw [List.count_erase_self]
    omega
  · have hp : (provisionedBy w.node.ready ⟨sender, .node, m⟩ w.provisioned).count u =
        w.provisioned.count u := by
      unfold provisionedBy
      split
      · rename_i v hs hm
        obtain rfl : sender = .vmActor v := hs
        obtain rfl : m = .vmProvisioned := hm
        split
        · exact List.count_cons_of_ne fun h => ha (by rw [h]; rfl)
        · rfl
      · rfl
    omega

/-- Only a machine that was created is provisioned. -/
theorem provisionedBy_subset {w : World} {e : Envelope} {l : List ℕ} (hl : w.provisioned ⊆ l)
    (hx : ToNode l e.sender e.msg) : provisionedBy w.node.ready e w.provisioned ⊆ l := by
  unfold provisionedBy
  split
  · rename_i v hs hm
    rw [hs, hm] at hx
    split
    · exact List.cons_subset.mpr ⟨hx.1, hl⟩
    · exact hl
  · exact hl

/-- The invariant is rebuilt from what a turn does to the token. -/
theorem Running.of_handled {w w' : World} {e : Envelope} {n : NodeActor} {es : List Effect}
    (h : Running w) (he : e ∈ w.inflight) (hrec : e.receiver = .node) (hd : Handled w e n es w')
    (hm : n.nodeMonitorActor = some .monitor) (hr : n.ready = true)
    (hi : n.instanceActor = some .instances)
    (hx : ∀ e' ∈ es.flatMap (posted .node), e'.sender = .node ∧ e'.receiver ≠ .node ∧
      FromNode e'.receiver e'.msg ∨ e' = ⟨.node, .node, .addVmActor⟩ ∨
        ∃ u, e' = ⟨.vmActor u, .vmActor u, .init⟩)
    (hc : es.filterMap createdBy = [] ∨ es.filterMap createdBy = [w.next])
    (hs : ∃ s, held carried (es.flatMap (posted .node)) + (held carried (w.inflight.erase e) +
      booting w'.created w'.provisioned) = {s} ∧ (n.scheduleOnceAddVmActor = true ↔ s = .timer) ∧
        (s = .systemAttributes → n.vagrantEnvironmentConfig.isSome = true)) : Running w' := by
  have hsub : w.created ⊆ w'.created := by
    rw [hd.created]
    exact List.subset_append_left _ _
  refine ⟨hd.node ▸ hm, hd.node ▸ hr, hd.node ▸ hi, ?_, ?_, ?_, ?_, ?_, ?_⟩
  · intro e' he'
    rw [hd.inflight] at he'
    rcases List.mem_append.mp he' with he' | he'
    · exact (h.expected e' (List.mem_of_mem_erase he')).mono hsub
    · rcases hx e' he' with ⟨hsend, hrec, hf⟩ | rfl | ⟨u, rfl⟩
      · exact ⟨fun h => absurd h hrec, fun _ => hf⟩
      · exact ⟨fun _ => rfl, fun _ => rfl⟩
      · exact expected_of_ne (by simp) (by simp)
  · obtain ⟨s, hs, htimer, hconfig⟩ := hs
    refine ⟨s, ?_, by rw [hd.node]; exact htimer, by rw [hd.node]; exact hconfig⟩
    rw [pipeline, hd.inflight, held_append, ← hs, add_comm (held carried (w.inflight.erase e)),
      add_assoc]
  · intro u
    rw [hd.announced, hd.inflight, List.count_append, hd.provisioned]
    have hnew : (es.flatMap (posted .node)).count (announcement u) = 0 := by
      refine List.count_eq_zero.mpr fun hmem => ?_
      rcases hx _ hmem with ⟨hsend, -, -⟩ | heq | ⟨u', heq⟩
      · cases hsend
      · cases heq
      · cases heq
    have hold := h.announced u
    have hcount := count_announcement he hrec u
    omega
  · intro u hu
    rw [hd.created] at hu
    rw [hd.next]
    rcases List.mem_append.mp hu with hu | hu
    · exact Nat.lt_succ_of_lt (h.created u hu)
    · rcases hc with hc | hc
      · rw [hc] at hu
        cases hu
      · rw [hc, List.mem_singleton] at hu
        omega
  · rw [hd.created]
    rcases hc with hc | hc
    · rw [hc, List.append_nil]
      exact h.nodup
    · rw [hc]
      refine List.Nodup.append h.nodup (List.nodup_singleton _) fun u hu hu' => ?_
      obtain rfl := List.mem_singleton.mp hu'
      exact absurd (h.created _ hu) (lt_irrefl _)
  · rw [hd.provisioned]
    have hto := ((h.expected e he).mono hsub).1 hrec
    exact provisionedBy_subset (fun _ hv => hsub (h.provisioned hv)) hto

/-- A turn that has nothing to do with the token. -/
theorem Running.idle {w w' : World} {e : Envelope} {n : NodeActor} {es : List Effect}
    (h : Running w) (he : e ∈ w.inflight) (hrec : e.receiver = .node) (hd : Handled w e n es w')
    (hm : n.nodeMonitorActor = some .monitor) (hr : n.ready = true)
    (hi : n.instanceActor = some .instances)
    (ht : n.scheduleOnceAddVmActor = w.node.scheduleOnceAddVmActor)
    (hv : n.vagrantEnvironmentConfig = w.node.vagrantEnvironmentConfig)
    (hx : ∀ e' ∈ es.flatMap (posted .node), e'.sender = .node ∧ e'.receiver ≠ .node ∧
      FromNode e'.receiver e'.msg ∧ carried e' = 0)
    (hc : es.filterMap createdBy = []) (hca : carried e = 0)
    (hpr : provisionedBy w.node.ready e w.provisioned = w.provisioned) : Running w' := by
  refine h.of_handled he hrec hd hm hr hi (fun e' he' => ?_) (.inl hc) ?_
  · obtain ⟨hs, hrec', hf, -⟩ := hx e' he'
    exact .inl ⟨hs, hrec', hf⟩
  · obtain ⟨s, hs, htimer, hconfig⟩ := h.stage
    refine ⟨s, ?_, by rw [ht]; exact htimer, by rw [hv]; exact hconfig⟩
    have hzero : held carried (es.flatMap (posted .node)) = 0 :=
      held_eq_zero fun e' he' => (hx e' he').2.2.2
    have hrest := carried_add_rest he
    rw [hca, zero_add, hs] at hrest
    rw [hzero, zero_add, hd.created, hc, List.append_nil, hd.provisioned, hpr]
    exact hrest

/-- A turn that takes the token and passes it on. -/
theorem Running.pass {w w' : World} {e : Envelope} {n : NodeActor} {es : List Effect} {t b : Stage}
    (h : Running w) (he : e ∈ w.inflight) (hrec : e.receiver = .node) (hd : Handled w e n es w')
    (hm : n.nodeMonitorActor = some .monitor) (hr : n.ready = true)
    (hi : n.instanceActor = some .instances)
    (hx : ∀ e' ∈ es.flatMap (posted .node), e'.sender = .node ∧ e'.receiver ≠ .node ∧
      FromNode e'.receiver e'.msg ∨ e' = ⟨.node, .node, .addVmActor⟩)
    (hc : es.filterMap createdBy = []) (hca : carried e = {t})
    (hpr : provisionedBy w.node.ready e w.provisioned = w.provisioned)
    (hca' : held carried (es.flatMap (posted .node)) = {b})
    (ht : n.scheduleOnceAddVmActor = true ↔ b = .timer)
    (hv : b = .systemAttributes → n.vagrantEnvironmentConfig.isSome = true) : Running w' := by
  refine h.of_handled he hrec hd hm hr hi (fun e' he' => ?_) (.inl hc) ⟨b, ?_, ht, hv⟩
  · rcases hx e' he' with hx | hx
    · exact .inl hx
    · exact .inr (.inl hx)
  · obtain ⟨hrest, -, -⟩ := h.spend he hca
    rw [hca', hd.created, hc, List.append_nil, hd.provisioned, hpr]
    exact (congrArg ({b} + ·) hrest).trans (add_zero _)

theorem posted_timer {n : NodeActor} {d : ℕ} (h : n.scheduleOnceAddVmActor = false) :
    (n.timer d).flatMap (posted .node) = [⟨.node, .node, .addVmActor⟩] := by
  simp [NodeActor.timer, h, posted]

theorem createdBy_timer (n : NodeActor) (delay : ℕ) : (n.timer delay).filterMap createdBy = [] := by
  unfold NodeActor.timer
  split <;> rfl

theorem provisionedBy_of_ne {ready : Bool} {sender : Actor} {m : Message} {l : List ℕ}
    (h : m ≠ .vmProvisioned) : provisionedBy ready ⟨sender, .node, m⟩ l = l := by
  unfold provisionedBy
  split
  · rename_i u hs hm
    exact absurd hm h
  · rfl

/-- What a message brings to a node that runs: nothing new. -/
theorem brings_running {w : World} (h : Running w) {sender : Actor} {m : Message}
    (hto : ToNode w.created sender m) {n : NodeActor} (hb : w.node.Brings m n) :
    carried ⟨sender, .node, m⟩ = 0 ∧ m ≠ .vmProvisioned ∧ n.nodeMonitorActor = some .monitor ∧
      n.ready = true ∧ n.instanceActor = some .instances ∧
      n.scheduleOnceAddVmActor = w.node.scheduleOnceAddVmActor ∧
      n.vagrantEnvironmentConfig = w.node.vagrantEnvironmentConfig := by
  cases m with
  | setInstanceActor a =>
    obtain rfl := hb
    have ha : a = some .instances := by
      cases sender <;> simp [ToNode, VMActor.TellsNode, VMActor.TellsOthers] at hto
      exact hto
    exact ⟨rfl, by simp, h.monitor, h.ready, ha, rfl, rfl⟩
  | setGlobalStatusActor a =>
    obtain rfl := hb
    exact ⟨rfl, by simp, h.monitor, h.ready, h.instances, rfl, rfl⟩
  | _ => exact hb.elim

/-- What the node answers at once reaches someone who asked. -/
theorem answers_expected {n : NodeActor} {created : List ℕ} {sender : Actor} {m a : Message}
    (hto : ToNode created sender m) (ha : n.Asked m a) :
    carried ⟨sender, .node, m⟩ = 0 ∧ m ≠ .vmProvisioned ∧ sender ≠ .node ∧ FromNode sender a ∧
      carried ⟨.node, sender, a⟩ = 0 := by
  cases m <;> simp only [NodeActor.Asked] at ha <;> subst ha <;>
    refine ⟨rfl, by simp, ?_, ?_, ?_⟩ <;> cases sender <;>
    simp_all [ToNode, FromNode, VMActor.TellsNode, VMActor.TellsOthers, VMActor.Brings, carried]

/-- What the node sends again reaches whoever was not ready. -/
theorem retries_expected {created : List ℕ} {sender : Actor} {m : Message}
    (hto : ToNode created sender (.notReadyJet m)) :
    (sender = .master ∧ FromNode .master m ∧ carried ⟨.node, sender, m⟩ = 0 ∧
      carried ⟨sender, .node, .notReadyJet m⟩ = 0) ∨
    (sender = .monitor ∧ m = .getSystemAttributes) := by
  cases sender with
  | master =>
    have hm : m = .getInstanceActor ∨ m = .getGlobalStatusActor := by
      simpa [ToNode] using hto
    rcases hm with rfl | rfl
    · exact .inl ⟨rfl, .inl rfl, rfl, rfl⟩
    · exact .inl ⟨rfl, .inr rfl, rfl, rfl⟩
  | monitor => exact .inr ⟨rfl, by simpa [ToNode] using hto⟩
  | _ => simp [ToNode, VMActor.TellsNode, VMActor.TellsOthers] at hto

/-- The messages no case matches are not the token. -/
theorem unknown_carried {sender : Actor} {m : Message} (hm : NodeActor.Unknown m) :
    carried ⟨sender, .node, m⟩ = 0 ∧ m ≠ .vmProvisioned := by
  cases m <;> first | exact hm.elim | exact ⟨rfl, by simp⟩

/-- A machine that is provisioned leaves the pipeline. -/
theorem booting_provisioned {created provisioned : List ℕ} {u : ℕ} (hn : created.Nodup)
    (hc : u ∈ created) (hu : u ∉ provisioned) :
    booting created provisioned = {.booting u} + booting created (u :: provisioned) := by
  have hp : List.Perm (created.filter (· ∉ provisioned))
      (u :: created.filter (· ∉ u :: provisioned)) := by
    refine (List.perm_ext_iff_of_nodup (hn.filter _) ?_).mpr fun v => ?_
    · exact List.nodup_cons.mpr ⟨by simp, hn.filter _⟩
    · by_cases hv : v = u
      · subst hv
        simp [hc, hu]
      · simp [hv]
  have hmap := Multiset.coe_eq_coe.mpr (hp.map Stage.booting)
  rw [booting, hmap, List.map_cons, ← Multiset.cons_coe, Multiset.singleton_add]
  rfl

/-- A machine that is created joins it. -/
theorem booting_created {created provisioned : List ℕ} {u : ℕ} (hu : u ∉ provisioned) :
    booting (created ++ [u]) provisioned = {.booting u} + booting created provisioned := by
  have hf : [u].filter (· ∉ provisioned) = [u] := by simp [hu]
  rw [booting, List.filter_append, hf, List.map_append, ← Multiset.coe_add, add_comm]
  rfl

/-- While a machine boots it is all there is. -/
theorem Running.boots {w : World} (h : Running w) {u : ℕ} (he : announcement u ∈ w.inflight)
    (hc : u ∈ w.created) (hu : u ∉ w.provisioned) :
    held carried (w.inflight.erase (announcement u)) + booting w.created (u :: w.provisioned) = 0 ∧
      (w.node.scheduleOnceAddVmActor = true ↔ Stage.booting u = .timer) := by
  obtain ⟨s, hs, htimer, -⟩ := h.stage
  have hzero : carried (announcement u) = 0 := rfl
  rw [← carried_add_rest he, hzero, zero_add, rest, booting_provisioned h.nodup hc hu,
    add_left_comm] at hs
  have hsu : Stage.booting u = s := by
    have hm : Stage.booting u ∈ ({s} : Multiset Stage) := by
      rw [← hs]
      simp
    exact Multiset.mem_singleton.mp hm
  subst hsu
  have hcard := congrArg Multiset.card hs
  rw [Multiset.card_add, Multiset.card_singleton] at hcard
  exact ⟨Multiset.card_eq_zero.mp (Nat.add_left_cancel hcard), htimer⟩

/-- **A node that runs keeps one token**, whatever it handles. -/
theorem Running.node {w w' : World} {sender : Actor} {m : Message} {n : NodeActor}
    {es : List Effect} (h : Running w) (he : ⟨sender, .node, m⟩ ∈ w.inflight)
    (ht : NodeActor.Turn w.node w.next sender m n es)
    (hd : Handled w ⟨sender, .node, m⟩ n es w') : Running w' := by
  have hto : ToNode w.created sender m := (h.expected _ he).1 rfl
  cases ht with
  | init => cases sender <;> simp [ToNode, VMActor.TellsNode, VMActor.TellsOthers] at hto
  | brings hb hno =>
    obtain ⟨hca, hne, hm, hr, hi, htm, hv⟩ := brings_running h hto hb
    refine h.idle he rfl hd hm hr hi htm hv ?_ rfl hca (provisionedBy_of_ne hne)
    exact fun e' he' => by cases he'
  | starts hb _ _ hm' =>
    obtain ⟨-, -, hm, -⟩ := brings_running h hto hb
    rw [hm] at hm'
    cases hm'
  | retries m =>
    rcases retries_expected hto with ⟨rfl, hf, hca, hca'⟩ | ⟨rfl, rfl⟩
    · refine h.idle he rfl hd h.monitor h.ready h.instances rfl rfl ?_ rfl hca'
        (provisionedBy_of_ne (by simp))
      intro e' he'
      obtain rfl := List.mem_singleton.mp he'
      exact ⟨rfl, by simp, hf, hca⟩
    · obtain ⟨-, htimer, hconfig⟩ := h.spend (t := .systemAttributes) he rfl
      refine h.pass (b := .systemAttributes) he rfl hd h.monitor h.ready h.instances ?_ rfl rfl
        (provisionedBy_of_ne (by simp)) rfl htimer hconfig
      intro e' he'
      obtain rfl := List.mem_singleton.mp he'
      exact .inl ⟨rfl, by simp, .inl rfl⟩
  | notReady hg hr =>
    rw [h.ready] at hr
    cases hr
  | answers hr ha =>
    obtain ⟨hca, hne, hs, hf, hca'⟩ := answers_expected hto ha
    refine h.idle he rfl hd h.monitor h.ready h.instances rfl rfl ?_ rfl hca
      (provisionedBy_of_ne hne)
    intro e' he'
    obtain rfl := List.mem_singleton.mp he'
    exact ⟨rfl, hs, hf, hca'⟩
  | addVmActor hr hi =>
    obtain rfl : _ = Actor.instances := Option.some.inj (hi.symm.trans h.instances)
    refine h.pass (t := .timer) (b := .deployInfo) he rfl hd h.monitor h.ready h.instances ?_ rfl
      rfl (provisionedBy_of_ne (by simp)) rfl (by simp) (by simp)
    intro e' he'
    obtain rfl := List.mem_singleton.mp he'
    exact .inl ⟨rfl, by simp, rfl⟩
  | removes hr proxy u l =>
    refine h.idle he rfl hd h.monitor h.ready h.instances rfl rfl ?_ rfl rfl
      (provisionedBy_of_ne (by simp))
    exact fun e' he' => by cases he'
  | deployInfo hr ha =>
    obtain rfl : _ = Actor.monitor := Option.some.inj (ha.symm.trans h.monitor)
    obtain ⟨-, htimer, -⟩ := h.spend (t := .deployInfo) he rfl
    refine h.pass (t := .deployInfo) (b := .systemAttributes) he rfl hd h.monitor h.ready
      h.instances ?_ rfl rfl (provisionedBy_of_ne (by simp)) rfl ?_ fun _ => rfl
    · intro e' he'
      obtain rfl := List.mem_singleton.mp he'
      exact .inl ⟨rfl, by simp, .inl rfl⟩
    · simpa using htimer
  | noDeployInfo hr =>
    obtain ⟨-, htimer, -⟩ := h.spend (t := .deployInfo) he rfl
    have hoff : w.node.scheduleOnceAddVmActor = false := by simpa using htimer
    refine h.pass (t := .deployInfo) (b := .timer) he rfl hd h.monitor h.ready h.instances ?_
      (createdBy_timer _ _) rfl (provisionedBy_of_ne (by simp)) ?_ (by simp) (by simp)
    · intro e' he'
      rw [posted_timer hoff] at he'
      exact .inr (List.mem_singleton.mp he')
    · rw [posted_timer hoff]
      rfl
  | @creates c _ attributes hr hc ha hf =>
    obtain rfl : _ = Actor.monitor := Option.some.inj (ha.symm.trans h.monitor)
    obtain ⟨hrest, htimer, -⟩ := h.spend (t := .systemAttributes) he rfl
    have hoff : w.node.scheduleOnceAddVmActor = false := by simpa using htimer
    have hfresh : w.next ∉ w.provisioned := fun hmem =>
      absurd (h.created _ (h.provisioned hmem)) (lt_irrefl _)
    refine h.of_handled he rfl hd h.monitor h.ready h.instances ?_ (.inr rfl)
      ⟨.booting w.next, ?_, by simp [hoff], by simp⟩
    · intro e' he'
      simp only [List.flatMap_cons, List.flatMap_nil, posted, List.append_nil, List.singleton_append,
        List.nil_append, List.mem_cons, List.not_mem_nil, or_false] at he'
      rcases he' with rfl | rfl
      · exact .inl ⟨rfl, by simp, .inr (.inl ⟨_, rfl⟩)⟩
      · exact .inr (.inr ⟨_, rfl⟩)
    · have hcr : w'.created = w.created ++ [w.next] := hd.created
      have hzero : held carried ([.tell .monitor (.setPath c.path), .actorOf (.vmProxyActor w.next),
          .actorOf (.vmActor w.next)].flatMap (posted .node)) = 0 := rfl
      rw [hzero, zero_add, hcr, hd.provisioned, provisionedBy_of_ne (by simp),
        booting_created hfresh, add_left_comm]
      exact (congrArg ({.booting w.next} + ·) hrest).trans (add_zero _)
  | waits hr hc ha =>
    obtain rfl : _ = Actor.monitor := Option.some.inj (ha.symm.trans h.monitor)
    obtain ⟨-, htimer, -⟩ := h.spend (t := .systemAttributes) he rfl
    have hoff : w.node.scheduleOnceAddVmActor = false := by simpa using htimer
    have hp := posted_timer (d := 30) hoff
    refine h.pass (t := .systemAttributes) (b := .timer) he rfl hd h.monitor h.ready h.instances ?_
      ?_ rfl (provisionedBy_of_ne (by simp)) ?_ (by simp) (by simp)
    · intro e' he'
      rw [List.flatMap_cons, hp] at he'
      simp only [posted, List.singleton_append, List.mem_cons, List.not_mem_nil, or_false] at he'
      rcases he' with rfl | rfl
      · exact .inl ⟨rfl, by simp, .inr (.inl ⟨_, rfl⟩)⟩
      · exact .inr rfl
    · exact createdBy_timer _ _
    · rw [List.flatMap_cons, hp]
      rfl
  | provisioned hr =>
    obtain ⟨u, rfl, hu⟩ : ∃ u, sender = .vmActor u ∧ u ∈ w.created := by
      cases sender with
      | vmActor u => exact ⟨u, rfl, hto.1⟩
      | _ => simp [ToNode] at hto
    have hnew : u ∉ w.provisioned := by
      have hcount := h.announced u
      have hone : 0 < w.inflight.count (announcement u) := List.count_pos_iff.mpr he
      refine fun hmem => absurd (List.count_pos_iff.mpr hmem) ?_
      split at hcount <;> omega
    obtain ⟨hrest, htimer⟩ := h.boots he hu hnew
    have hoff : w.node.scheduleOnceAddVmActor = false := by simpa using htimer
    have hp := posted_timer (d := 2) hoff
    refine h.of_handled he rfl hd h.monitor h.ready h.instances ?_ (.inl (createdBy_timer _ _))
      ⟨.timer, ?_, by simp, by simp⟩
    · intro e' he'
      rw [hp] at he'
      exact .inr (.inl (List.mem_singleton.mp he'))
    · have hpr : w'.provisioned = u :: w.provisioned := by
        rw [hd.provisioned]
        simp [provisionedBy, h.ready]
      rw [hp, hd.created, createdBy_timer, List.append_nil, hpr]
      exact (congrArg (({.timer} : Multiset Stage) + ·) hrest).trans (add_zero _)
  | drops hr hm =>
    obtain ⟨hca, hne⟩ := unknown_carried hm
    refine h.idle he rfl hd h.monitor h.ready h.instances rfl rfl ?_ rfl hca
      (provisionedBy_of_ne hne)
    exact fun e' he' => by cases he'

/-! ## The others handle a message -/

/-- A step in which the node has no part. -/
structure Beside (w w' : World) : Prop where
  node : w'.node = w.node
  created : w'.created = w.created
  provisioned : w'.provisioned = w.provisioned
  next : w.next ≤ w'.next

theorem Running.beside {w w' : World} (h : Running w) (hb : Beside w w')
    (hca : held carried w'.inflight = held carried w.inflight)
    (hx : ∀ e ∈ w'.inflight, e ∈ w.inflight ∨ Expected w.created e)
    (ha : ∀ u, w'.inflight.count (announcement u) + (if u ∈ w.announced then 1 else 0) ≤
      w.inflight.count (announcement u) + if u ∈ w'.announced then 1 else 0) : Running w' := by
  refine ⟨hb.node ▸ h.monitor, hb.node ▸ h.ready, hb.node ▸ h.instances, ?_, ?_, ?_, ?_,
    hb.created ▸ h.nodup, ?_⟩
  · intro e he
    rw [hb.created]
    rcases hx e he with he | he
    · exact h.expected e he
    · exact he
  · rw [pipeline, hca, hb.created, hb.provisioned, hb.node]
    exact h.stage
  · intro u
    rw [hb.provisioned]
    have hold := h.announced u
    have hnew := ha u
    omega
  · intro u hu
    rw [hb.created] at hu
    exact (h.created u hu).trans_le hb.next
  · rw [hb.provisioned, hb.created]
    exact h.provisioned

/-- Messages `l` come for the message `e`. -/
theorem Running.exchange {w w' : World} {e : Envelope} {l : List Envelope} (h : Running w)
    (he : e ∈ w.inflight) (hb : Beside w w') (hl : w'.inflight = w.inflight.erase e ++ l)
    (hca : held carried l = carried e) (hx : ∀ e' ∈ l, Expected w.created e')
    (ha : ∀ u, l.count (announcement u) + (if u ∈ w.announced then 1 else 0) ≤
      if u ∈ w'.announced then 1 else 0) : Running w' := by
  refine h.beside hb ?_ (fun e' he' => ?_) fun u => ?_
  · rw [hl, held_append, hca, add_comm, held_erase he]
  · rw [hl] at he'
    rcases List.mem_append.mp he' with he' | he'
    · exact .inl (List.mem_of_mem_erase he')
    · exact .inr (hx e' he')
  · rw [hl, List.count_append]
    have hle := (List.erase_sublist (a := e) (l := w.inflight)).count_le (announcement u)
    have hnew := ha u
    omega

/-- A message is put on its way by someone else. -/
theorem Running.adds {w w' : World} {e : Envelope} (h : Running w) (hb : Beside w w')
    (hl : w'.inflight = w.inflight ++ [e]) (hx : Expected w.created e) (hca : carried e = 0)
    (hne : ∀ u, e ≠ announcement u) (ha : w'.announced = w.announced) : Running w' := by
  refine h.beside hb ?_ (fun e' he' => ?_) fun u => ?_
  · rw [hl, held_append, held_cons, hca, held_nil, add_zero, add_zero]
  · rw [hl] at he'
    rcases List.mem_append.mp he' with he' | he'
    · exact .inl he'
    · obtain rfl := List.mem_singleton.mp he'
      exact .inr hx
  · rw [hl, List.count_append, ha, List.count_singleton]
    simp [hne u]

theorem count_announcement_zero {w w' : World} {l : List Envelope}
    (hl : ∀ e ∈ l, ∀ u, e ≠ announcement u) (ha : w'.announced = w.announced) (u : ℕ) :
    l.count (announcement u) + (if u ∈ w.announced then 1 else 0) ≤
      if u ∈ w'.announced then 1 else 0 := by
  rw [List.count_eq_zero.mpr fun hmem => hl _ hmem u rfl, ha, zero_add]

/-- What the monitor makes of a message: the token comes back to the node. -/
theorem monitor_expected {created : List ℕ} {r : NodeMonitorActor} {sender : Actor} {m : Message}
    {es : List Effect} (hx : Expected created ⟨sender, .monitor, m⟩)
    (ht : NodeMonitorActor.Turn r sender m es) :
    held carried (es.flatMap (posted .monitor)) = carried ⟨sender, .monitor, m⟩ ∧
      es.filterMap createdBy = [] ∧ ∀ e ∈ es.flatMap (posted .monitor), Expected created e := by
  cases ht with
  | init =>
    refine ⟨by cases sender <;> rfl, rfl, fun e he => ?_⟩
    obtain rfl := List.mem_singleton.mp he
    exact ⟨fun _ => .inr (.inr (.inl rfl)), fun h => by cases h⟩
  | answers hr =>
    refine ⟨?_, rfl, fun e he => ?_⟩
    · by_cases hs : sender = .node
      · subst hs
        rfl
      · rw [carried_of_ne hs (by simp)]
        exact (add_zero _).trans (carried_of_ne (by simp) hs)
    · obtain rfl := List.mem_singleton.mp he
      refine ⟨fun hs => ?_, fun h => by cases h⟩
      exact .inl ⟨_, rfl⟩
  | notReady hp hg hr =>
    by_cases hs : sender = .node
    · subst hs
      obtain rfl : m = .getSystemAttributes := by
        rcases hx.2 rfl with hm | ⟨p, hm⟩ | ⟨a, hm⟩
        · exact hm
        · exact absurd hm (hp p)
        · exact absurd hm (hg a)
      refine ⟨rfl, rfl, fun e he => ?_⟩
      obtain rfl := List.mem_singleton.mp he
      exact ⟨fun _ => .inr (.inl rfl), fun h => by cases h⟩
    · refine ⟨?_, rfl, fun e he => ?_⟩
      · rw [carried_of_ne hs (by simp)]
        exact (add_zero _).trans (carried_of_ne (by simp) hs)
      · obtain rfl := List.mem_singleton.mp he
        exact expected_of_ne (by simp) hs
  | retries m =>
    have hs : sender ≠ .node := by
      rintro rfl
      simpa [FromNode] using hx.2 rfl
    refine ⟨?_, rfl, fun e he => ?_⟩
    · rw [carried_of_ne hs (by simp)]
      exact (add_zero _).trans (carried_of_ne (by simp) hs)
    · obtain rfl := List.mem_singleton.mp he
      exact expected_of_ne (by simp) hs
  | registers =>
    refine ⟨?_, rfl, fun e he => ?_⟩
    · rename_i a
      cases sender <;> cases a <;> rfl
    · obtain rfl := List.mem_singleton.mp he
      exact ⟨fun _ => .inr (.inr (.inr rfl)), fun h => by cases h⟩
  | silent hm =>
    refine ⟨?_, rfl, fun e he => by cases he⟩
    by_cases hs : sender = .node
    · subst hs
      rcases hx.2 rfl with hm' | ⟨p, rfl⟩ | ⟨a, rfl⟩
      · exact absurd hm' hm
      · rfl
      · rfl
    · exact (carried_of_ne hs (by simp)).symm

/-- What the `InstanceActor` is asked by the node, it answers. -/
theorem instances_expected {created : List ℕ} {sender : Actor} {a : Message}
    (ha : (∃ c, a = .deployInfo c) ∨ a = .noDeployInfo) :
    carried ⟨.instances, sender, a⟩ = carried ⟨sender, .instances, .getDeployInfo⟩ ∧
      Expected created ⟨.instances, sender, a⟩ := by
  refine ⟨?_, fun _ => ha, fun h => by cases h⟩
  by_cases hs : sender = .node
  · subst hs
    rcases ha with ⟨c, rfl⟩ | rfl <;> rfl
  · rw [carried_of_ne (by simp) hs, carried_of_ne hs (by simp)]

/-- What a machine sends is not the token. -/
theorem vm_expected {created : List ℕ} {u : ℕ} (hu : u ∈ created) {sender : Actor} {m : Message}
    (hx : Expected created ⟨sender, .vmActor u, m⟩) {f : Effect}
    (hf : VMActor.MaySend u sender m f) {e : Envelope} (he : e ∈ posted (.vmActor u) f) :
    Expected created e ∧ carried e = 0 ∧ ∀ v, e ≠ announcement v := by
  have htold : ∀ a b, VMActor.MaySend u sender m (.tell a b) → Expected created ⟨.vmActor u, a, b⟩ ∧
        carried ⟨.vmActor u, a, b⟩ = 0 ∧ ∀ v, (⟨.vmActor u, a, b⟩ : Envelope) ≠ announcement v := by
    intro a b hab
    by_cases ha : a = .node
    · subst ha
      have hb : VMActor.TellsNode u b ∨ VMActor.TellsOthers b := by
        rcases hab with ⟨-, hb⟩ | hb | ⟨hs, hm, -⟩
        · exact .inl hb
        · exact .inr hb
        · exact absurd (hx.2 hs.symm) hm
      refine ⟨⟨fun _ => ⟨hu, ?_⟩, fun h => by cases h⟩, ?_, ?_⟩
      · rcases hb with hb | hb
        · exact .inl hb
        · exact .inr (.inl hb)
      · rcases hb with (rfl | rfl | rfl | rfl | rfl) | hb
        · rfl
        · rfl
        · rfl
        · rfl
        · rfl
        · cases b <;> first | rfl | exact hb.elim
      · intro v heq
        obtain rfl : b = .vmProvisioned := congrArg Envelope.msg heq
        rcases hb with hb | hb
        · simp [VMActor.TellsNode] at hb
        · exact hb.elim
    · refine ⟨expected_of_ne (by simp) ha, carried_of_ne (by simp) ha, fun v heq => ?_⟩
      exact ha (congrArg Envelope.receiver heq)
  cases f with
  | tell a b =>
    obtain rfl := List.mem_singleton.mp he
    exact htold a b hf
  | scheduleOnce d a b =>
    obtain rfl := List.mem_singleton.mp he
    exact htold a b hf
  | actorOf a => exact hf.elim
  | _ => cases he

/-- What a machine puts on its way: `VmProvisioned` once at most. -/
theorem vm_posts {created : List ℕ} {u : ℕ} (hu : u ∈ created) {sender : Actor} {m : Message}
    (hx : Expected created ⟨sender, .vmActor u, m⟩) (isDirectory : Bool) (v : VMActor)
    {es : List Effect} (hes : (VMActor.receive u isDirectory sender m v).effects = es) :
    (∀ e ∈ es.flatMap (posted (.vmActor u)), Expected created e ∧ carried e = 0) ∧
      ∀ t, (es.flatMap (posted (.vmActor u))).count (announcement t) ≤
        if t = u ∧ .tell .node .vmProvisioned ∈ es then 1 else 0 := by
  have hquiet : ∀ l : List Effect, (∀ f ∈ l, VMActor.MaySend u sender m f) →
      ∀ e ∈ l.flatMap (posted (.vmActor u)), Expected created e ∧ carried e = 0 ∧
        ∀ t, e ≠ announcement t := by
    intro l hl e he
    obtain ⟨f, hf, he⟩ := List.mem_flatMap.mp he
    exact vm_expected hu hx (hl f hf) he
  have hnone : ∀ l : List Effect, (∀ f ∈ l, VMActor.MaySend u sender m f) → ∀ t,
      (l.flatMap (posted (.vmActor u))).count (announcement t) = 0 := fun l hl t =>
    List.count_eq_zero.mpr fun hmem => (hquiet l hl _ hmem).2.2 t rfl
  rcases @VMActor.receive_effects u sender m isDirectory v with hall | ⟨l, hl, hall⟩
  · rw [hes] at hall
    refine ⟨fun e he => ?_, fun t => ?_⟩
    · obtain ⟨hexp, hca, -⟩ := hquiet es hall e he
      exact ⟨hexp, hca⟩
    · rw [hnone es hall t]
      exact Nat.zero_le _
  · rw [hes] at hl
    subst hl
    have hp : (Effect.tell Actor.node Message.vmProvisioned :: l).flatMap (posted (.vmActor u)) =
        announcement u :: l.flatMap (posted (.vmActor u)) := rfl
    rw [hp]
    refine ⟨fun e he => ?_, fun t => ?_⟩
    · rcases List.mem_cons.mp he with rfl | he
      · exact ⟨⟨fun _ => ⟨hu, .inr (.inr rfl)⟩, fun h => by cases h⟩, rfl⟩
      · obtain ⟨hexp, hca, -⟩ := hquiet l hall e he
        exact ⟨hexp, hca⟩
    · rw [List.count_cons, hnone l hall t, zero_add]
      by_cases ht : t = u
      · simp [ht]
      · rw [if_neg, if_neg]
        · exact fun h => ht h.1
        · simpa [announcement] using fun h => ht h.symm

theorem Running.vm {w : World} {sender : Actor} {u : ℕ} {m : Message} (h : Running w)
    (he : ⟨sender, .vmActor u, m⟩ ∈ w.inflight) {platform : Platform} {isDirectory : Bool}
    (hok : Undisturbed w (.deliver ⟨sender, .vmActor u, m⟩ platform isDirectory)) :
    Running ((w.taken ⟨sender, .vmActor u, m⟩).handleVm isDirectory u ⟨sender, .vmActor u, m⟩) := by
  have hca : carried ⟨sender, .vmActor u, m⟩ = 0 := by cases sender <;> rfl
  unfold World.handleVm
  split
  case isFalse =>
    exact h.exchange (l := []) he ⟨rfl, rfl, rfl, le_refl _⟩ (List.append_nil _).symm hca.symm
      (fun e' he' => by cases he') (count_announcement_zero (fun e' he' => by cases he') rfl)
  case isTrue halive =>
    obtain ⟨hu, hgone⟩ := halive
    have hx := h.expected _ he
    generalize hout : VMActor.receive u isDirectory sender m
      ((w.taken ⟨sender, .vmActor u, m⟩).vmActor
        ((w.taken ⟨sender, .vmActor u, m⟩).current u)) = out
    obtain ⟨hposts, hcount⟩ := vm_posts hu hx isDirectory _ (congrArg Outcome.effects hout)
    have hzero : held carried (out.effects.flatMap (posted (.vmActor u))) = 0 :=
      held_eq_zero fun e' he' => (hposts e' he').2
    have hann : ∀ t, (out.effects.flatMap (posted (.vmActor u))).count (announcement t) +
        (if t ∈ w.announced then 1 else 0) ≤
          if t ∈ (if .tell .node .vmProvisioned ∈ out.effects then u :: w.announced
            else w.announced) then 1 else 0 := by
      intro t
      have ht := hcount t
      by_cases hp : .tell .node .vmProvisioned ∈ out.effects
      · have hnot : u ∉ w.announced := fun hmem => hok hu hgone hmem (hout ▸ hp)
        by_cases htu : t = u
        · subst htu
          simpa [hp, hnot] using ht
        · simp only [htu, false_and, if_false] at ht
          simp [hp, htu, Nat.le_zero.mp ht]
      · simp only [hp, and_false, if_false] at ht
        simp [hp, Nat.le_zero.mp ht]
    simp only
    split
    · refine h.exchange he ⟨rfl, rfl, rfl, le_refl _⟩ rfl (hzero.trans hca.symm)
        (fun e' he' => (hposts e' he').1) hann
    · refine h.exchange (l := out.effects.flatMap (posted (.vmActor u)) ++
        [⟨.vmActor u, .vmActor u, .init⟩]) he ⟨rfl, rfl, rfl, Nat.le_succ _⟩ ?_ ?_ ?_ ?_
      · exact List.append_assoc (w.inflight.erase _) (out.effects.flatMap _) _
      · rw [held_append, hzero]
        exact (add_zero _).trans hca.symm
      · intro e' he'
        rcases List.mem_append.mp he' with he' | he'
        · exact (hposts e' he').1
        · obtain rfl := List.mem_singleton.mp he'
          exact expected_of_ne (by simp) (by simp)
      · intro t
        have hinit : [(⟨.vmActor u, .vmActor u, .init⟩ : Envelope)].count (announcement t) = 0 :=
          List.count_eq_zero.mpr (by simp [announcement])
        rw [List.count_append, hinit, add_zero]
        exact hann t

theorem Running.taken {w : World} {e : Envelope} (h : Running w) (he : e ∈ w.inflight)
    (hca : carried e = 0) : Running (w.taken e) :=
  h.exchange (l := []) he ⟨rfl, rfl, rfl, le_refl _⟩ (List.append_nil _).symm hca.symm
    (fun e' he' => by cases he') (count_announcement_zero (fun e' he' => by cases he') rfl)

/-- An answer comes for a message. -/
theorem Running.answer {w : World} {e a : Envelope} (h : Running w) (he : e ∈ w.inflight)
    (hca : carried a = carried e) (hx : Expected w.created a) (ha : ∀ u, a ≠ announcement u) :
    Running ((w.taken e).post a) := by
  refine h.exchange he ⟨rfl, rfl, rfl, le_refl _⟩ rfl ((add_zero _).trans hca) (fun e' he' => ?_)
    (count_announcement_zero (fun e' he' => ?_) rfl)
  · obtain rfl := List.mem_singleton.mp he'
    exact hx
  · obtain rfl := List.mem_singleton.mp he'
    exact ha

theorem Running.monitorTurn {w : World} {sender : Actor} {m : Message} (h : Running w)
    (he : ⟨sender, .monitor, m⟩ ∈ w.inflight) {platform : Platform}
    (hok : (NodeMonitorActor.receive platform sender m w.monitor).raised = none) :
    Running ((w.taken ⟨sender, .monitor, m⟩).handleMonitor platform ⟨sender, .monitor, m⟩) := by
  have hturn := NodeMonitorActor.receive_turn hok
  obtain ⟨hca, hcr, hx⟩ := monitor_expected (h.expected _ he) hturn
  generalize hout : NodeMonitorActor.receive platform sender m w.monitor = out at *
  have heq : (w.taken ⟨sender, .monitor, m⟩).handleMonitor platform ⟨sender, .monitor, m⟩ =
      ({ w.taken ⟨sender, .monitor, m⟩ with monitor := out.fields } : World).act .monitor
        out.effects := by
    simp only [World.handleMonitor, World.taken, hout, hok]
  rw [heq]
  refine h.exchange he ⟨rfl, ?_, rfl, le_refl _⟩ rfl hca hx
    (count_announcement_zero (fun e' he' u heq' => ?_) rfl)
  · simp only [World.act, World.taken, hcr, List.append_nil]
  · obtain ⟨f, -, hf⟩ := List.mem_flatMap.mp he'
    rw [heq'] at hf
    cases f with
    | actorOf a => cases a <;> simp [posted, announcement] at hf
    | _ => simp [posted, announcement] at hf

/-- What the master answers the node. -/
theorem master_expected {created : List ℕ} {sender : Actor} {m a : Message} {ready : Bool}
    (hx : Expected created ⟨sender, .master, m⟩) (ha : World.masterAnswer ready m = some a) :
    Expected created ⟨.master, sender, a⟩ ∧ carried ⟨.master, sender, a⟩ = 0 := by
  by_cases hs : sender = .node
  · subst hs
    refine ⟨⟨fun _ => ?_, fun h => by cases h⟩, ?_⟩
    · rcases hx.2 rfl with rfl | rfl <;> cases ready <;>
        simp only [World.masterAnswer, Option.some.injEq] at ha <;> subst ha <;> simp [ToNode]
    · rcases hx.2 rfl with rfl | rfl <;> cases ready <;>
        simp only [World.masterAnswer, Option.some.injEq] at ha <;> subst ha <;> rfl
  · exact ⟨expected_of_ne (by simp) hs, carried_of_ne (by simp) hs⟩

/-- What comes from outside is not the token. -/
theorem outside_expected {w : World} {e : Envelope} (h : Outside w e) :
    Expected w.created e ∧ carried e = 0 ∧ ∀ u, e ≠ announcement u := by
  unfold Outside at h
  split at h
  · obtain ⟨-, hm⟩ := h
    refine ⟨⟨fun _ => hm, fun h => by cases h⟩, ?_, fun u heq => by cases heq⟩
    rcases hm with rfl | rfl | rfl <;> rfl
  · exact ⟨expected_of_ne (by simp) (by simp), rfl, fun u heq => by cases heq⟩
  · exact ⟨expected_of_ne (by simp) (by simp), rfl, fun u heq => by cases heq⟩
  · exact h.elim

/-- What a machine tells itself, or asks the `InstanceActor`. -/
theorem Running.vmAdds {w w' : World} {u : ℕ} {a : Actor} {m : Message} (h : Running w)
    (ha : a ≠ .node) (hb : Beside w w') (hl : w'.inflight = w.inflight ++ [⟨.vmActor u, a, m⟩])
    (hann : w'.announced = w.announced) : Running w' :=
  h.adds hb hl (expected_of_ne (by simp) ha) (carried_of_ne (by simp) ha)
    (fun _ heq => ha (congrArg Envelope.receiver heq)) hann

/-- **A step keeps the one token of a node that runs.** -/
theorem Running.step {w w' : World} {ev : Event} (h : Running w) (hok : Undisturbed w ev)
    (hs : w.step ev = some w') : Running w' := by
  have hcalm : ∀ w'' : World, Beside w w'' → w''.inflight = w.inflight →
      w''.announced = w.announced → Running w'' := by
    intro w'' hb hl ha
    refine h.beside hb (by rw [hl]) (fun e he => .inl (hl ▸ he)) fun u => ?_
    rw [hl, ha]
  cases ev with
  | deliver e platform isDirectory =>
    obtain ⟨sender, receiver, m⟩ := e
    simp only [World.step] at hs
    split at hs
    case isFalse => cases hs
    case isTrue he =>
      cases receiver with
      | node =>
        obtain rfl := Option.some.inj hs
        exact h.node he (NodeActor.receive_turn hok) (handleNode_handled hok)
      | monitor =>
        obtain rfl := Option.some.inj hs
        exact h.monitorTurn he hok
      | master => cases hs
      | instances =>
        obtain rfl := Option.some.inj hs
        by_cases hm : m = .getDeployInfo
        · subst hm
          cases hf : firstRun w.runs with
          | none =>
            have ha := @instances_expected w.created sender .noDeployInfo (.inr rfl)
            simp only [World.handleInstances, World.taken, hf]
            exact h.answer he ha.1 ha.2 fun u heq => by cases heq
          | some run =>
            have ha := @instances_expected w.created sender (.deployInfo run.config) (.inl ⟨_, rfl⟩)
            simp only [World.handleInstances, World.taken, hf]
            exact h.answer he ha.1 ha.2 fun u heq => by cases heq
        · have hs : sender ≠ .node := fun hs => hm ((h.expected _ he).2 hs)
          have heq : (w.taken ⟨sender, .instances, m⟩).handleInstances ⟨sender, .instances, m⟩ =
              w.taken ⟨sender, .instances, m⟩ := by
            cases m <;> first | rfl | exact absurd rfl hm
          rw [heq]
          exact h.taken he (carried_of_ne hs (by simp))
      | vmActor u =>
        obtain rfl := Option.some.inj hs
        exact h.vm he hok
      | vmProxyActor u =>
        obtain rfl := Option.some.inj hs
        exact h.taken he (by cases sender <;> rfl)
      | globalStatus =>
        obtain rfl := Option.some.inj hs
        exact h.taken he (by cases sender <;> rfl)
  | master e ready =>
    obtain ⟨sender, receiver, m⟩ := e
    simp only [World.step] at hs
    split at hs
    case isFalse => cases hs
    case isTrue he =>
      obtain ⟨he, hrec⟩ := he
      obtain rfl : receiver = .master := hrec
      have hca : carried ⟨sender, .master, m⟩ = 0 := by cases sender <;> rfl
      split at hs
      · rename_i a ha
        obtain rfl := Option.some.inj hs
        obtain ⟨hx, hca'⟩ := master_expected (h.expected _ he) ha
        exact h.answer he (hca'.trans hca.symm) hx fun u heq => by cases heq
      · obtain rfl := Option.some.inj hs
        exact h.taken he hca
  | outside e =>
    simp only [World.step] at hs
    split at hs
    case isFalse => cases hs
    case isTrue ho =>
      obtain rfl := Option.some.inj hs
      obtain ⟨hx, hca, hne⟩ := outside_expected ho
      exact h.adds ⟨rfl, rfl, rfl, le_refl _⟩ rfl hx hca hne rfl
  | upload instanceId config =>
    obtain rfl := Option.some.inj hs
    exact hcalm _ ⟨rfl, rfl, rfl, Nat.le_succ _⟩ rfl rfl
  | complete ref =>
    obtain rfl := Option.some.inj hs
    exact hcalm _ ⟨rfl, rfl, rfl, le_refl _⟩ rfl rfl
  | start r =>
    simp only [World.step] at hs
    split at hs
    case isFalse => cases hs
    case isTrue =>
      split at hs
      · obtain rfl := Option.some.inj hs
        exact hcalm _ ⟨rfl, rfl, rfl, le_refl _⟩ rfl rfl
      · obtain rfl := Option.some.inj hs
        exact hcalm _ ⟨rfl, rfl, rfl, le_refl _⟩ rfl rfl
  | finish r running =>
    simp only [World.step] at hs
    split at hs
    case isFalse => cases hs
    case isTrue =>
      obtain rfl := Option.some.inj hs
      exact h.vmAdds (by simp) ⟨rfl, rfl, rfl, le_refl _⟩ rfl rfl
  | fail r =>
    simp only [World.step] at hs
    split at hs
    case isFalse => cases hs
    case isTrue =>
      obtain rfl := Option.some.inj hs
      exact h.vmAdds (by simp) ⟨rfl, rfl, rfl, le_refl _⟩ rfl rfl
  | destroyed u =>
    simp only [World.step] at hs
    split at hs
    case isFalse => cases hs
    case isTrue =>
      obtain rfl := Option.some.inj hs
      exact h.vmAdds (by simp) ⟨rfl, rfl, rfl, le_refl _⟩ rfl rfl

/-! ## Before it runs -/

/-- Between a node that does not run yet and its master. -/
def Opening (e : Envelope) : Prop :=
  (e.sender = .master ∧ e.receiver = .node ∧ ToNode [] .master e.msg) ∨
    (e.sender = .node ∧ e.receiver = .master ∧ FromNode .master e.msg)

/-- The node has no monitor: it waits for its `Init`, or for references. -/
structure Waiting (w : World) : Prop where
  monitor : w.node.nodeMonitorActor = none
  timer : w.node.scheduleOnceAddVmActor = false
  instances : w.node.instanceActor = none ∨ w.node.instanceActor = some .instances
  messages : w.inflight = [⟨.node, .node, .init⟩] ∨ ∀ e ∈ w.inflight, Opening e
  created : w.created = []
  provisioned : w.provisioned = []
  submitted : w.submitted = []
  started : w.started = []
  destroying : w.destroying = []

theorem waiting_init : Waiting World.init :=
  ⟨rfl, rfl, .inl rfl, .inl rfl, rfl, rfl, rfl, rfl, rfl⟩

/-- The node has handled a message and still waits. -/
theorem Waiting.of_handled {w w' : World} {e : Envelope} {n : NodeActor} {es : List Effect}
    (h : Waiting w) (hd : Handled w e n es w') (hm : n.nodeMonitorActor = none)
    (ht : n.scheduleOnceAddVmActor = false)
    (hi : n.instanceActor = none ∨ n.instanceActor = some .instances)
    (hl : ∀ e' ∈ w'.inflight, Opening e') (hc : es.filterMap createdBy = [])
    (hp : e.msg ≠ .vmProvisioned) : Waiting w' := by
  refine ⟨hd.node ▸ hm, hd.node ▸ ht, hd.node ▸ hi, .inr hl, ?_, ?_, hd.submitted ▸ h.submitted,
    hd.started ▸ h.started, hd.destroying ▸ h.destroying⟩
  · rw [hd.created, hc, h.created]
    rfl
  · rw [hd.provisioned, h.provisioned]
    unfold provisionedBy
    split
    · rename_i u hs hm
      exact absurd hm hp
    · rfl

/-- With the last reference the node begins to run: the timer is armed. -/
theorem Waiting.starts {w w' : World} {e : Envelope} {n n' : NodeActor} {d : ℕ} (h : Waiting w)
    (hl : ∀ e' ∈ w.inflight, Opening e') (hd : Handled w e n (.actorOf .monitor :: n'.timer d) w')
    (ht : n'.scheduleOnceAddVmActor = false) (hm : n.nodeMonitorActor = some .monitor)
    (hr : n.ready = true) (hi : n.instanceActor = some .instances)
    (hn : n.scheduleOnceAddVmActor = true) (hp : e.msg ≠ .vmProvisioned) : Running w' := by
  have hcr : w'.created = [] := by
    rw [hd.created, h.created, List.filterMap_cons, createdBy_timer]
    rfl
  have hpr : w'.provisioned = [] := by
    rw [hd.provisioned, h.provisioned]
    unfold provisionedBy
    split
    · rename_i u hs hm
      exact absurd hm hp
    · rfl
  have hin : w'.inflight = w.inflight.erase e ++
      [⟨.monitor, .monitor, .init⟩, ⟨.node, .node, .addVmActor⟩] := by
    rw [hd.inflight, List.flatMap_cons, posted_timer ht]
    rfl
  have hold : ∀ e' ∈ w.inflight.erase e, Expected [] e' ∧ carried e' = 0 ∧
      ∀ u, e' ≠ announcement u := by
    intro e' he'
    obtain ⟨sender, receiver, m⟩ := e'
    rcases hl _ (List.mem_of_mem_erase he') with ⟨hs, hrec, hto⟩ | ⟨hs, hrec, hf⟩
    · obtain rfl : sender = .master := hs
      obtain rfl : receiver = .node := hrec
      refine ⟨⟨fun _ => hto, fun h => by cases h⟩, ?_, fun u heq => by cases heq⟩
      rcases hto with hm | hm | hm | hm <;> obtain rfl : m = _ := hm <;> rfl
    · obtain rfl : sender = .node := hs
      obtain rfl : receiver = .master := hrec
      exact ⟨⟨fun h => (by cases h), fun _ => hf⟩, rfl, fun u heq => by cases heq⟩
  refine ⟨hd.node ▸ hm, hd.node ▸ hr, hd.node ▸ hi, ?_, ⟨.timer, ?_, ?_, by simp⟩, ?_, ?_, ?_, ?_⟩
  · intro e' he'
    rw [hin] at he'
    rw [hcr]
    rcases List.mem_append.mp he' with he' | he'
    · exact (hold e' he').1
    · simp only [List.mem_cons, List.not_mem_nil, or_false] at he'
      rcases he' with rfl | rfl
      · exact expected_of_ne (by simp) (by simp)
      · exact ⟨fun _ => rfl, fun _ => rfl⟩
  · have hzero : held carried (w.inflight.erase e) = 0 :=
      held_eq_zero fun e' he' => (hold e' he').2.1
    rw [pipeline, hin, held_append, hzero, zero_add, hcr, hpr]
    rfl
  · rw [hd.node, hn]
    simp
  · intro u
    have hzero : w'.inflight.count (announcement u) = 0 := by
      refine List.count_eq_zero.mpr fun hmem => ?_
      rw [hin] at hmem
      rcases List.mem_append.mp hmem with hmem | hmem
      · exact (hold _ hmem).2.2 u rfl
      · simp [announcement] at hmem
    rw [hzero, hpr]
    exact Nat.zero_le _
  · rw [hcr]
    exact fun u hu => by cases hu
  · rw [hcr]
    exact List.nodup_nil
  · rw [hpr]
    exact List.nil_subset _

/-- What a message of the master brings. -/
theorem brings_waiting {w : World} (h : Waiting w) {m : Message} (hto : ToNode [] .master m)
    {n : NodeActor} (hb : w.node.Brings m n) :
    m ≠ .vmProvisioned ∧ n.nodeMonitorActor = none ∧ n.scheduleOnceAddVmActor = false ∧
      (n.instanceActor = none ∨ n.instanceActor = some .instances) := by
  cases m with
  | setInstanceActor a =>
    obtain rfl := hb
    obtain rfl : a = some .instances := by simpa [ToNode] using hto
    exact ⟨by simp, h.monitor, h.timer, .inr rfl⟩
  | setGlobalStatusActor a =>
    obtain rfl := hb
    exact ⟨by simp, h.monitor, h.timer, h.instances⟩
  | _ => exact hb.elim

/-- A node that waits handles its `Init`, or an answer of its master. -/
theorem Waiting.node {w w' : World} {sender : Actor} {m : Message} {n : NodeActor}
    {es : List Effect} (h : Waiting w) (he : ⟨sender, .node, m⟩ ∈ w.inflight)
    (ht : NodeActor.Turn w.node w.next sender m n es)
    (hd : Handled w ⟨sender, .node, m⟩ n es w') : Waiting w' ∨ Running w' := by
  rcases h.messages with hl | hl
  · rw [hl, List.mem_singleton] at he
    obtain ⟨rfl, rfl⟩ : sender = .node ∧ m = .init := by
      simpa using he
    cases ht with
    | init =>
      refine .inl (h.of_handled hd h.monitor h.timer h.instances (fun e' he' => ?_) rfl (by simp))
      rw [hd.inflight, hl, List.erase_cons_head, List.nil_append] at he'
      simp only [List.flatMap_cons, List.flatMap_nil, posted, List.append_nil,
        List.singleton_append, List.mem_cons, List.not_mem_nil, or_false] at he'
      rcases he' with rfl | rfl
      · exact .inr ⟨rfl, rfl, .inl rfl⟩
      · exact .inr ⟨rfl, rfl, .inr rfl⟩
    | brings hb _ => exact hb.elim
    | starts hb _ _ _ => exact hb.elim
    | notReady hg _ => exact hg.elim
    | answers _ ha => exact ha.elim
    | drops _ hm => exact hm.elim
  · have hlate : ∀ e' ∈ w'.inflight, e' ∈ w.inflight ∨ e' ∈ es.flatMap (posted .node) := by
      intro e' he'
      rw [hd.inflight] at he'
      rcases List.mem_append.mp he' with he' | he'
      · exact .inl (List.mem_of_mem_erase he')
      · exact .inr he'
    obtain ⟨rfl, hto⟩ : sender = .master ∧ ToNode [] .master m := by
      rcases hl _ he with ⟨hs, -, hto⟩ | ⟨-, hrec, -⟩
      · exact ⟨hs, hto⟩
      · cases hrec
    cases ht with
    | brings hb hno =>
      obtain ⟨hp, hm, htm, hi⟩ := brings_waiting h hto hb
      refine .inl (h.of_handled hd hm htm hi (fun e' he' => ?_) rfl hp)
      rcases hlate e' he' with he' | he'
      · exact hl e' he'
      · cases he'
    | starts hb hi' hg hm' =>
      obtain ⟨hp, hm, htm, hi⟩ := brings_waiting h hto hb
      refine .inr (h.starts hl hd htm rfl rfl (hi.resolve_left fun hno => ?_) rfl hp)
      rw [hno] at hi'
      cases hi'
    | retries m =>
      refine .inl (h.of_handled hd h.monitor h.timer h.instances (fun e' he' => ?_) rfl (by simp))
      rcases hlate e' he' with he' | he'
      · exact hl e' he'
      · obtain rfl := List.mem_singleton.mp he'
        have hm : m = .getInstanceActor ∨ m = .getGlobalStatusActor := by
          simpa [ToNode] using hto
        exact .inr ⟨rfl, rfl, hm⟩
    | notReady hg _ =>
      rcases hto with rfl | rfl | rfl | rfl <;> exact hg.elim
    | answers _ ha =>
      rcases hto with rfl | rfl | rfl | rfl <;> exact ha.elim
    | drops _ hm =>
      rcases hto with rfl | rfl | rfl | rfl <;> exact hm.elim
    | _ => simp [ToNode] at hto

theorem Waiting.step {w w' : World} {ev : Event} (h : Waiting w) (hok : Undisturbed w ev)
    (hs : w.step ev = some w') : Waiting w' ∨ Running w' := by
  have hends : ∀ e ∈ w.inflight, e.receiver = .node ∨
      (e.receiver = .master ∧ Opening e ∧ ∀ e' ∈ w.inflight, Opening e') := by
    intro e he
    rcases h.messages with hl | hl
    · rw [hl, List.mem_singleton] at he
      exact .inl (by rw [he])
    · rcases hl e he with ⟨-, hrec, -⟩ | ⟨hsend, hrec, hf⟩
      · exact .inl hrec
      · exact .inr ⟨hrec, .inr ⟨hsend, hrec, hf⟩, hl⟩
  cases ev with
  | deliver e platform isDirectory =>
    obtain ⟨sender, receiver, m⟩ := e
    simp only [World.step] at hs
    split at hs
    case isFalse => cases hs
    case isTrue he =>
      rcases hends _ he with hrec | ⟨hrec, -⟩
      · obtain rfl : receiver = .node := hrec
        obtain rfl := Option.some.inj hs
        exact h.node he (NodeActor.receive_turn hok) (handleNode_handled hok)
      · obtain rfl : receiver = .master := hrec
        cases hs
  | master e ready =>
    obtain ⟨sender, receiver, m⟩ := e
    simp only [World.step] at hs
    split at hs
    case isFalse => cases hs
    case isTrue he =>
      obtain ⟨he, hrec⟩ := he
      obtain rfl : receiver = .master := hrec
      rcases hends _ he with hrec | ⟨-, hopen, hl⟩
      · cases hrec
      obtain ⟨rfl, hf⟩ : sender = .node ∧ FromNode .master m := by
        rcases hopen with ⟨-, hrec, -⟩ | ⟨hsend, -, hf⟩
        · cases hrec
        · exact ⟨hsend, hf⟩
      have hkeep : ∀ e' ∈ (w.inflight.erase ⟨.node, .master, m⟩), Opening e' := fun e' he' =>
        hl e' (List.mem_of_mem_erase he')
      split at hs
      · rename_i a ha
        obtain rfl := Option.some.inj hs
        refine .inl ⟨h.monitor, h.timer, h.instances, .inr fun e' he' => ?_, h.created,
          h.provisioned, h.submitted, h.started, h.destroying⟩
        rcases List.mem_append.mp he' with he' | he'
        · exact hkeep e' he'
        · obtain rfl := List.mem_singleton.mp he'
          have hx : Expected [] ⟨.node, .master, m⟩ := ⟨fun h => (by cases h), fun _ => hf⟩
          exact .inl ⟨rfl, rfl, (master_expected hx ha).1.1 rfl⟩
      · obtain rfl := Option.some.inj hs
        exact .inl ⟨h.monitor, h.timer, h.instances, .inr hkeep, h.created, h.provisioned,
          h.submitted, h.started, h.destroying⟩
  | outside e =>
    simp only [World.step] at hs
    split at hs
    case isFalse => cases hs
    case isTrue ho =>
      unfold Outside at ho
      rw [h.created, h.monitor] at ho
      split at ho
      · exact absurd ho.1 List.not_mem_nil
      · exact absurd ho.1 List.not_mem_nil
      · exact absurd rfl ho.1
      · exact ho.elim
  | upload instanceId config =>
    obtain rfl := Option.some.inj hs
    exact .inl ⟨h.monitor, h.timer, h.instances, h.messages, h.created, h.provisioned,
      h.submitted, h.started, h.destroying⟩
  | complete ref =>
    obtain rfl := Option.some.inj hs
    exact .inl ⟨h.monitor, h.timer, h.instances, h.messages, h.created, h.provisioned,
      h.submitted, h.started, h.destroying⟩
  | start r => simp [World.step, h.submitted] at hs
  | finish r running => simp [World.step, h.started] at hs
  | fail r => simp [World.step, h.started] at hs
  | destroyed u => simp [World.step, h.destroying] at hs

/-- **In every state of an undisturbed run the node waits or runs.** -/
theorem run_phase {es : List Event} {w : World}
    (h : provisioning.Run (fun _ w e => Undisturbed w e) es w) : Waiting w ∨ Running w := by
  refine h.state_invariant (I := fun w => Waiting w ∨ Running w) (.inl waiting_init) ?_
  intro es w ev w' hw hok hs
  rcases hw with hw | hw
  · exact hw.step hok hs
  · exact .inr (hw.step hok hs)

/-- **One pipeline per node.** In every state after the monitor was
created there is one token, and a timer is kept in the field exactly
while the token is the timer. So `addVm` never runs without a
configuration, and never while a machine is booting. -/
theorem one_pipeline {es : List Event} {w : World}
    (h : provisioning.Run (fun _ w e => Undisturbed w e) es w)
    (hm : w.node.nodeMonitorActor ≠ none) :
    (∃ s, pipeline w = {s} ∧ (w.node.scheduleOnceAddVmActor = true ↔ s = .timer)) ∧
      ∀ sender attributes, ⟨sender, .node, .systemAttributes attributes⟩ ∈ w.inflight →
        w.node.vagrantEnvironmentConfig ≠ none ∧ ∀ u ∈ w.created, u ∈ w.provisioned := by
  have hrun : Running w := (run_phase h).resolve_left fun hw => hm hw.monitor
  refine ⟨?_, fun sender attributes he => ?_⟩
  · obtain ⟨s, hs, htimer, -⟩ := hrun.stage
    exact ⟨s, hs, htimer⟩
  · obtain ⟨hrest, -, hconfig⟩ := hrun.spend (t := .systemAttributes) he rfl
    refine ⟨Option.isSome_iff_ne_none.mp (hconfig rfl), fun u hu => ?_⟩
    by_contra hno
    have hboot : booting w.created w.provisioned = 0 := by
      have hcard := congrArg Multiset.card hrest
      rw [rest, Multiset.card_add, Multiset.card_zero] at hcard
      exact Multiset.card_eq_zero.mp (Nat.add_eq_zero_iff.mp hcard).2
    have hmem : Stage.booting u ∈ booting w.created w.provisioned :=
      Multiset.mem_coe.mpr (List.mem_map_of_mem (List.mem_filter.mpr ⟨hu, by simpa using hno⟩))
    rw [hboot] at hmem
    cases hmem

/-- A platform that has Vagrant and this much memory. -/
def platformWith (free : Int) : Platform := ⟨some free, some true⟩

/-- A node is started, and its monitor is ready. -/
def startUp (free : Int) : List Event :=
  [.deliver ⟨.node, .node, .init⟩ (platformWith free) true,
    .master ⟨.node, .master, .getInstanceActor⟩ true,
    .master ⟨.node, .master, .getGlobalStatusActor⟩ true,
    .deliver ⟨.master, .node, .setInstanceActor (some .instances)⟩ (platformWith free) true,
    .deliver ⟨.master, .node, .setGlobalStatusActor (some .globalStatus)⟩ (platformWith free) true,
    .deliver ⟨.monitor, .monitor, .init⟩ (platformWith free) true,
    .deliver ⟨.monitor, .node, .getGlobalStatusActor⟩ (platformWith free) true,
    .deliver ⟨.node, .monitor, .setGlobalStatusActor (some .globalStatus)⟩ (platformWith free) true]

/-- The node asks what to deploy, and for the memory. -/
def asks (config : VagrantEnvironmentConfig) (free : Int) : List Event :=
  [.deliver ⟨.node, .node, .addVmActor⟩ (platformWith free) true,
    .deliver ⟨.node, .instances, .getDeployInfo⟩ (platformWith free) true,
    .deliver ⟨.instances, .node, .deployInfo config⟩ (platformWith free) true,
    .deliver ⟨.node, .monitor, .getSystemAttributes⟩ (platformWith free) true]

/-- A configuration of one machine. -/
def oneMachine (memory : Int) : VagrantEnvironmentConfig :=
  ⟨[⟨0, "", ⟨0, some memory, none⟩⟩], "vagrant", "v"⟩

theorem one_pipeline_asked : ∃ es w, provisioning.Run (fun _ w e => Undisturbed w e) es w ∧
    w.node.nodeMonitorActor ≠ none ∧
    (∃ s, pipeline w = {s} ∧ (w.node.scheduleOnceAddVmActor = true ↔ s = .timer)) ∧
      ∀ sender attributes, ⟨sender, .node, .systemAttributes attributes⟩ ∈ w.inflight →
        w.node.vagrantEnvironmentConfig ≠ none ∧ ∀ u ∈ w.created, u ∈ w.provisioned := by
  obtain ⟨w, hrun, hm⟩ : ∃ w, provisioning.Run (fun _ w e => Undisturbed w e)
      (startUp 8192 ++ .upload "1" (oneMachine 1024) :: asks (oneMachine 1024) 8192) w ∧
        w.node.nodeMonitorActor ≠ none :=
    exists_run_of_execWhen (by decide +kernel)
  exact ⟨_, w, hrun, hm, one_pipeline hrun hm⟩

end Clustering.Provisioning
