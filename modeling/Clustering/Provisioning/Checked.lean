/-
Clustering.Provisioning.Checked — is the memory that is checked the
memory that is booted?

The node asks the `InstanceActor` for a configuration, compares its
memory, and creates a machine; the `VMActor` of the machine asks again,
and boots what it is answered. So everything hangs on the run that is
first when the machine asks: if its memory is the one that was compared,
so is the memory of all that is ever booted (`booted_covered`), through
retries, restarts and destroyed machines. A run that is added between
the two questions breaks it (`booted_uncovered`).
-/
import Clustering.Provisioning.Pipeline

namespace Clustering.Provisioning

open Actors Actors.EventSystem Actors.Handler

/-! ## Configurations on their way -/

/-- Handlers make up no configuration; one that is not wanted goes back.
A machine is created only when the attributes have come. -/
def Passes (sender : Actor) (m : Message) : Effect → Prop
  | .tell a b | .scheduleOnce _ a b => configOf b = none ∨ (a = sender ∧ configOf b = configOf m)
  | .actorOf (.vmActor _) => ∃ a, m = .systemAttributes a
  | _ => True

theorem passes_back {sender : Actor} {m : Message} : Passes sender m (.tell sender (.notReadyJet m)) :=
  .inr ⟨rfl, rfl⟩

theorem passes_again {sender : Actor} {m : Message} (d : ℕ) :
    Passes sender (.notReadyJet m) (.scheduleOnce d sender m) :=
  .inr ⟨rfl, rfl⟩

namespace NodeActor

variable {sender : Actor} {m : Message}

theorem emits_scheduleAddVmActor (d : ℕ) : Emits (Passes sender m) (scheduleAddVmActor d) :=
  .bind .fields fun _ => .ite (fun _ => .bind (.perform (.inl rfl)) fun _ => .assign _) fun _ =>
    .pure _

theorem emits_initNodeMonitorActor : Emits (Passes sender m) initNodeMonitorActor := by
  refine .bind .fields fun n => .ite (fun _ => ?_) fun _ => .pure _
  exact .bind (.assign _) fun _ => .bind (.perform trivial) fun _ => .bind (.assign _) fun _ =>
    emits_scheduleAddVmActor 5

theorem emits_addVm (fresh : ℕ) (hm : ∃ a, m = .systemAttributes a) :
    Emits (Passes sender m) (addVm fresh) := by
  refine .bind .fields fun _ => .bind (.deref _ _) fun _ => .bind .fields fun _ =>
    .bind (.deref _ _) fun _ => .bind (.perform (.inl rfl)) fun _ => .bind (.deref _ _) fun _ => ?_
  refine .bind .fields fun _ => .bind (.deref _ _) fun _ => .bind (.deref _ _) fun _ =>
    .ite (fun _ => ?_) fun _ => emits_scheduleAddVmActor 30
  exact .bind (.perform trivial) fun _ => .bind (.perform hm) fun _ => .assign _

theorem emits_handlerRemoveVmActor (proxy : Bool) (u : ℕ) :
    Emits (Passes sender m) (handlerRemoveVmActor proxy u) := by
  refine .bind .fields fun n => ?_
  split
  · exact .pure _
  · exact .ite (fun _ => .assign _) fun _ => .assign _

/-- A guarded handler, and `case x if !ready`. -/
theorem emits_ready {x : Code Unit} {ready : Bool} (h : Emits (Passes sender m) x) :
    Emits (Passes sender m) (if ready = true then x else handlerNotReady sender m) :=
  .ite (fun _ => h) fun _ => .perform passes_back

theorem emits_passes (fresh : ℕ) : Emits (Passes sender m) (receive fresh sender m) := by
  refine .bind .fields fun n => ?_
  cases m with
  | init => exact .bind (.assign _) fun _ => .bind (.perform (.inl rfl)) fun _ => .perform (.inl rfl)
  | setGlobalStatusActor a => exact .bind (.assign _) fun _ => emits_initNodeMonitorActor
  | setInstanceActor a => exact .bind (.assign _) fun _ => emits_initNodeMonitorActor
  | notReadyJet m => exact .perform (passes_again 5)
  | getInstanceActor => exact emits_ready (.bind .fields fun _ => .perform (.inl rfl))
  | getGlobalStatusActor => exact emits_ready (.bind .fields fun _ => .perform (.inl rfl))
  | getNodeMonitorActor => exact emits_ready (.bind .fields fun _ => .perform (.inl rfl))
  | getVmProxyActor u => exact emits_ready (.bind .fields fun _ => .perform (.inl rfl))
  | getVmActor u => exact emits_ready (.bind .fields fun _ => .perform (.inl rfl))
  | addVmActor =>
    exact emits_ready (.bind (.assign _) fun _ => .bind .fields fun _ => .bind (.deref _ _) fun _ =>
      .perform (.inl rfl))
  | removeVmActor proxy u => exact emits_ready (emits_handlerRemoveVmActor proxy u)
  | deployInfo c =>
    exact emits_ready (.bind (.assign _) fun _ => .bind .fields fun _ => .bind (.deref _ _) fun _ =>
      .perform (.inl rfl))
  | noDeployInfo => exact emits_ready (.bind (.assign _) fun _ => emits_scheduleAddVmActor 30)
  | systemAttributes a => exact emits_ready (.bind (.assign _) fun _ => emits_addVm fresh ⟨a, rfl⟩)
  | vmProvisioned => exact emits_ready (emits_scheduleAddVmActor 2)
  | _ => exact emits_ready (.pure _)

/-- While `addVm` may still raise it has created nothing. -/
theorem raised_creates_nothing {fresh : ℕ} {attributes : SystemAttributes} {n : NodeActor}
    (h : (handlerSystemAttributes fresh attributes n).raised ≠ none) :
    (handlerSystemAttributes fresh attributes n).effects.filterMap createdBy = [] := by
  cases hc : n.vagrantEnvironmentConfig with
  | none => simp [handlerSystemAttributes, addVm, hc]
  | some c =>
    cases ha : n.nodeMonitorActor with
    | none => simp [handlerSystemAttributes, addVm, hc, ha]
    | some a =>
      cases hn : memoryNeeded c with
      | none => simp [handlerSystemAttributes, addVm, hc, ha, hn, createdBy]
      | some needed =>
        cases hf : attributes.freePhysicalMemorySize with
        | none => simp [handlerSystemAttributes, addVm, hc, ha, hn, hf, createdBy]
        | some free =>
          refine absurd ?_ h
          by_cases hfit : 0 < needed ∧ needed < Int64.ofInt free ∧ attributes.vagrant = true
          · simp [handlerSystemAttributes, addVm, hc, ha, hn, hf, hfit]
          · simp only [handlerSystemAttributes, addVm, bind_apply, assign_apply, fields_apply,
              Outcome.andThen_ok, hc, ha, hn, hf, deref_some, perform_apply, if_neg hfit,
              scheduleAddVmActor_apply]
            rfl

/-- A handler that creates a machine has compared its memory. -/
theorem creates_fits {fresh u : ℕ} {n : NodeActor}
    (hu : u ∈ (receive fresh sender m n).effects.filterMap createdBy) :
    u = fresh ∧ ∃ c a, (receive fresh sender m n).fields.vagrantEnvironmentConfig = some c ∧
      (receive fresh sender m n).fields.systemAttributes = some a ∧ Fits c a := by
  obtain ⟨f, hf, hfu⟩ := List.mem_filterMap.mp hu
  obtain rfl : f = .actorOf (.vmActor u) := by
    cases f with
    | actorOf a => cases a <;> simp [createdBy] at hfu ⊢; exact hfu
    | _ => cases hfu
  obtain ⟨attributes, rfl⟩ := emits_passes fresh n _ hf
  cases hr : n.ready with
  | false => simp [receive, hr, handlerNotReady] at hf
  | true =>
    have hrec : receive fresh sender (.systemAttributes attributes) n =
        handlerSystemAttributes fresh attributes n := by simp [receive, hr]
    rw [hrec] at hf hu ⊢
    cases hraised : (handlerSystemAttributes fresh attributes n).raised with
    | none =>
      have hturn := @turn_systemAttributes n fresh sender hr attributes hraised
      generalize (handlerSystemAttributes fresh attributes n).fields = n' at hturn ⊢
      generalize (handlerSystemAttributes fresh attributes n).effects = es at hturn hu
      cases hturn with
      | creates _ hc _ hfit =>
        obtain rfl : fresh = u := by simpa [createdBy] using hu
        exact ⟨rfl, _, _, hc, rfl, hfit⟩
      | waits _ hc _ =>
        rw [List.filterMap_cons, createdBy_timer] at hu
        cases hu
      | brings hb _ => exact hb.elim
      | starts hb _ _ _ => exact hb.elim
      | notReady _ hno => exact absurd (hr.symm.trans hno) (by simp)
      | answers _ ha => exact ha.elim
      | drops _ hm => exact hm.elim
    | some x =>
      rw [raised_creates_nothing (by simp [hraised])] at hu
      cases hu

end NodeActor

namespace NodeMonitorActor

theorem emits_passes {sender : Actor} {m : Message} (platform : Platform) :
    Emits (fun f => Passes sender m f ∧ createdBy f = none) (receive platform sender m) := by
  refine .bind .fields fun r => ?_
  cases m with
  | init => exact .bind (.assign _) fun _ => .perform ⟨.inl rfl, rfl⟩
  | notReadyJet m => exact .perform ⟨passes_again 5, rfl⟩
  | setPath p => exact .assign _
  | setGlobalStatusActor a =>
    exact .bind (.assign _) fun _ => .bind (.deref _ _) fun _ => .bind (.assign _) fun _ =>
      .bind (.deref _ _) fun _ => .perform ⟨.inl rfl, rfl⟩
  | getSystemAttributes =>
    refine .ite (fun _ => .bind .fields fun _ => ?_) fun _ => .perform ⟨passes_back, rfl⟩
    exact .ite (fun _ => .perform ⟨.inl rfl, rfl⟩) fun _ => .raise _
  | _ => exact .ite (fun _ => .pure _) fun _ => .perform ⟨passes_back, rfl⟩

end NodeMonitorActor

namespace VMActor

variable {u : ℕ} {sender : Actor} {m : Message} {isDirectory : Bool}

theorem maySend_passes {f : Effect} (h : MaySend u sender m f) : Passes sender m f := by
  have htold : ∀ a b, MaySend u sender m (.tell a b) → Passes sender m (.tell a b) := by
    intro a b hab
    rcases hab with ⟨-, hb⟩ | hb | ⟨ha, -, hb | hb⟩
    · rcases hb with rfl | rfl | rfl | rfl | rfl <;> exact .inl rfl
    · cases b <;> first | exact hb.elim | exact .inl rfl
    · exact .inl hb
    · exact .inr ⟨ha, hb⟩
  cases f with
  | tell a b => exact htold a b h
  | scheduleOnce d a b => exact htold a b h
  | actorOf a => exact h.elim
  | _ => trivial

theorem emits_passes : Emits (Passes sender m) (receive u isDirectory sender m) := by
  intro v f hf
  rcases @receive_effects u sender m isDirectory v with hall | ⟨l, hl, hall⟩
  · exact maySend_passes (hall f hf)
  · rw [hl] at hf
    rcases List.mem_cons.mp hf with rfl | hf
    · exact .inl rfl
    · exact maySend_passes (hall f hf)

end VMActor

/-! ## The configuration of a machine -/

/-- New names do not change what a machine needs. -/
theorem memories_renameVm (uuid : String) (s : List VagrantVmConfig × ℕ) (i : ℕ) :
    (VMActor.renameVm uuid s i).1.map (·.provider.memory) = s.1.map (·.provider.memory) := by
  unfold VMActor.renameVm
  split
  · simp only [VMActor.setName, VMActor.setVmName, List.map_map]
    refine List.map_congr_left fun vm _ => ?_
    simp only [Function.comp_apply]
    split <;> split <;> rfl
  · rfl

theorem memories_renameVms (uuid : String) (vms : List VagrantVmConfig) :
    (VMActor.renameVms uuid vms).map (·.provider.memory) = vms.map (·.provider.memory) := by
  have hloop : ∀ (is : List ℕ) (s : List VagrantVmConfig × ℕ),
      (is.foldl (VMActor.renameVm uuid) s).1.map (·.provider.memory) =
        s.1.map (·.provider.memory) := by
    intro is
    induction is with
    | nil => intro s; rfl
    | cons i is ih =>
      intro s
      rw [List.foldl_cons, ih, memories_renameVm]
  exact hloop _ _

theorem memoryNeeded_congr {c c' : VagrantEnvironmentConfig}
    (h : c.vmConfigs.map (·.provider.memory) = c'.vmConfigs.map (·.provider.memory)) :
    NodeActor.memoryNeeded c = NodeActor.memoryNeeded c' := by
  have hm : ∀ l : List VagrantVmConfig, (l.mapM fun vm : VagrantVmConfig => vm.provider.memory) =
      (l.map (·.provider.memory)).mapM id := by
    intro l
    rw [List.mapM_map]
    rfl
  rw [NodeActor.memoryNeeded, NodeActor.memoryNeeded, hm, hm, h]

namespace VMActor

variable {u : ℕ} {sender : Actor} {m : Message} {isDirectory : Bool} {P : Option Int64 → Prop}

/-- Whatever configuration the machine has, its memory is in `P`. -/
def Needs (P : Option Int64 → Prop) (v : VMActor) : Prop :=
  ∀ c, v.vagrantEnvironmentConfig = some c → P (NodeActor.memoryNeeded c)

theorem needs_new : Needs P new := fun _ h => by cases h

theorem needs_finishRunnable {v : VMActor} (version : String) (h : Needs P v) :
    Needs P (v.finishRunnable version) := by
  intro c hc
  obtain ⟨c', hc', rfl⟩ := Option.map_eq_some_iff.mp hc
  exact h c' hc'

theorem preserves_scheduleGetDeployInfo (delay : ℕ) :
    Preserves (Needs P) (scheduleGetDeployInfo delay) := by
  refine .bind .fields fun v => ?_
  cases v.instanceActor with
  | some instanceActor => exact .bind (.perform _) fun _ => .assign fun v h => h
  | none => exact .assign fun v h => h

theorem preserves_checkReady : Preserves (Needs P) checkReady := by
  refine .bind .fields fun v => .ite (fun _ => ?_) fun _ => .pure _
  refine .bind (.assign fun v h => h) fun _ => .bind .fields fun v => ?_
  have hrest : Preserves (Needs P) (do
      let monitorActor ← deref .nullPointer (← fields).nodeMonitorActor
      perform (.tell monitorActor .getSystemAttributes) : Code Unit) :=
    .bind .fields fun _ => .bind (.deref _ _) fun _ => .perform _
  exact .ite (fun _ => .bind (preserves_scheduleGetDeployInfo 0) fun _ => hrest) fun _ => hrest

/-- The configuration is replaced by one with other names. -/
theorem preserves_prepareProvisionVm : Preserves (Needs P) (prepareProvisionVm u isDirectory) := by
  intro v h
  cases hc : v.vagrantEnvironmentConfig with
  | none => simpa [prepareProvisionVm, hc] using h
  | some config =>
    cases hv : v.vagrant with
    | false => simpa [prepareProvisionVm, hc, hv] using h
    | true =>
      cases isDirectory with
      | false => simpa [prepareProvisionVm, hc, hv] using h
      | true =>
        have hcong : NodeActor.memoryNeeded ⟨renameVms (toString u) config.vmConfigs,
            config.path ++ "/" ++ toString u, config.version⟩ = NodeActor.memoryNeeded config :=
          memoryNeeded_congr (memories_renameVms (toString u) config.vmConfigs)
        intro c hcc
        simp only [prepareProvisionVm, bind_apply, fields_apply, Outcome.andThen_ok, hc, hv, if_true,
          assign_apply, perform_apply, Option.some.injEq] at hcc
        rw [← hcc, hcong]
        exact h config hc

theorem preserves_otherwise : Preserves (Needs P) (otherwise sender m) :=
  .bind .fields fun _ => .ite (fun _ => .perform _) fun _ => .pure _

/-- **A machine keeps what it needs**, unless it is sent something else. -/
theorem preserves_receive (hm : ∀ c, m = .deployInfo c → P (NodeActor.memoryNeeded c)) :
    Preserves (Needs P) (receive u isDirectory sender m) := by
  refine .bind .fields fun v => ?_
  cases m with
  | init =>
    exact .bind (.assign fun v h => h) fun _ => .bind (.perform _) fun _ => .bind (.perform _) fun _ =>
      .bind (.perform _) fun _ => .perform _
  | setInstanceActor a => exact .bind (.assign fun v h => h) fun _ => preserves_checkReady
  | setVmProxyActor a => exact .bind (.assign fun v h => h) fun _ => preserves_checkReady
  | setNodeMonitorActor a => exact .bind (.assign fun v h => h) fun _ => preserves_checkReady
  | setGlobalStatusActor a => exact .bind (.assign fun v h => h) fun _ => preserves_checkReady
  | notReadyJet m => exact .perform _
  | deployInfo c =>
    refine .ite (fun _ => ?_) fun _ => preserves_otherwise
    refine .bind (.assign fun v h => h) fun _ => .bind (.assign fun v h c' hc' => ?_) fun _ =>
      preserves_prepareProvisionVm
    obtain rfl := Option.some.inj hc'
    exact hm c rfl
  | systemAttributes a =>
    exact .ite (fun _ => .bind (.assign fun v h => h) fun _ => preserves_prepareProvisionVm)
      fun _ => preserves_otherwise
  | noDeployInfo =>
    refine .ite (fun _ => ?_) fun _ => preserves_otherwise
    exact .bind (.assign fun v h c hc => by cases hc) fun _ => .bind .fields fun _ =>
      .ite (fun _ => preserves_scheduleGetDeployInfo 30) fun _ => .pure _
  | vmTaskResult running =>
    refine .ite (fun _ => .ite (fun _ => ?_) fun _ => ?_) fun _ => preserves_otherwise
    · refine .bind (.assign fun v h => h) fun _ => .bind (.perform _) fun _ => .bind .fields fun _ =>
        .bind (.deref _ _) fun _ => .bind .fields fun _ => .bind (.perform _) fun _ => ?_
      exact .bind .fields fun _ => .bind (.deref _ _) fun _ => .perform _
    · exact .bind (.assign fun v h => h) fun _ => preserves_prepareProvisionVm
  | vmDestroyed =>
    refine .ite (fun _ => ?_) fun _ => preserves_otherwise
    exact .bind (.perform _) fun _ => .bind .fields fun _ => .bind (.deref _ _) fun _ =>
      .bind (.perform _) fun _ => .perform _
  | noMoreTasks => exact .ite (fun _ => .perform _) fun _ => preserves_otherwise
  | getVagrantEnvironmentConfig => exact .ite (fun _ => .perform _) fun _ => preserves_otherwise
  | _ => exact preserves_otherwise

end VMActor

/-! ## What is booted was compared -/

/-- The memory that was compared, if anything was, is `k`. -/
def Compared (p : Option (VagrantEnvironmentConfig × SystemAttributes)) (k : Option Int64) : Prop :=
  p.map (fun p => NodeActor.memoryNeeded p.1) = some k

instance (p : Option (VagrantEnvironmentConfig × SystemAttributes)) (k : Option Int64) :
    Decidable (Compared p k) := inferInstanceAs (Decidable (_ = _))

/-- When a machine asks for a configuration, the run that is first needs
the memory that was compared for the machine. -/
def AnswersCompared (w : World) : Event → Prop
  | .deliver ⟨.vmActor u, .instances, .getDeployInfo⟩ _ _ =>
      ∀ run ∈ firstRun w.runs, Compared (w.compared u) (NodeActor.memoryNeeded run.config)
  | _ => True

instance (w : World) : DecidablePred (AnswersCompared w) := fun e => by
  unfold AnswersCompared
  split <;> infer_instance

/-- A configuration on its way was compared for the machine it goes to,
or it comes back to the `InstanceActor`. -/
def Travels (compared : ℕ → Option (VagrantEnvironmentConfig × SystemAttributes)) (e : Envelope) :
    Prop :=
  ∀ c, configOf e.msg = some c → e.receiver = .instances ∨
    (e.sender = .instances ∧
      ∀ u, e.receiver = .vmActor u → Compared (compared u) (NodeActor.memoryNeeded c))

/-- The invariant. `own i` is the machine an instance of `VMActor` is of. -/
structure Covering (w : World) (own : ℕ → ℕ) : Prop where
  travels : ∀ e ∈ w.inflight, Travels w.compared e
  needs : ∀ i, VMActor.Needs (Compared (w.compared (own i))) (w.vmActor i)
  current : ∀ u ∈ w.created, own (w.current u) = u ∧ w.current u < w.next
  submitted : ∀ r ∈ w.submitted, own r.instance' = r.uuid ∧ r.instance' < w.next
  started : ∀ r ∈ w.started, own r.instance' = r.uuid ∧ r.instance' < w.next
  booted : ∀ p ∈ w.booted, Compared (w.compared p.1) (NodeActor.memoryNeeded p.2)
  compared : ∀ u c a, w.compared u = some (c, a) → u < w.next ∧ NodeActor.Fits c a

theorem covering_init : Covering World.init id := by
  refine ⟨fun e he c hc => ?_, fun i => VMActor.needs_new, ?_, ?_, ?_, ?_, ?_⟩
  · obtain rfl := List.mem_singleton.mp he
    cases hc
  · exact fun u hu => by cases hu
  · exact fun r hr => by cases hr
  · exact fun r hr => by cases hr
  · exact fun p hp => by cases hp
  · exact fun u c a h => by cases h

/-- What handlers pass on travels as it did. -/
theorem travels_posted {compared : ℕ → Option (VagrantEnvironmentConfig × SystemAttributes)}
    {sender self : Actor} {m : Message} (ht : Travels compared ⟨sender, self, m⟩)
    (hself : self ≠ .instances) {f : Effect} (hf : Passes sender m f) {e : Envelope}
    (he : e ∈ posted self f) : Travels compared e := by
  intro c hc
  have htold : ∀ a b, Passes sender m (.tell a b) → e = ⟨self, a, b⟩ →
      e.receiver = .instances ∨ (e.sender = .instances ∧
        ∀ u, e.receiver = .vmActor u → Compared (compared u) (NodeActor.memoryNeeded c)) := by
    rintro a b hab rfl
    rcases hab with hno | ⟨rfl, hsame⟩
    · exact absurd (hno.symm.trans hc) (by simp)
    · rcases ht c (hsame.symm.trans hc) with h | ⟨h, -⟩
      · exact absurd h hself
      · exact .inl h
  cases f with
  | tell a b => exact htold a b hf (List.mem_singleton.mp he)
  | scheduleOnce d a b => exact htold a b hf (List.mem_singleton.mp he)
  | actorOf a =>
    have hinit : e.msg = .init := by
      cases a <;> simp only [posted, List.mem_singleton, List.not_mem_nil] at he <;> rw [he]
    rw [hinit] at hc
    cases hc
  | _ => cases he

/-- A message without a configuration travels. -/
theorem travels_of_none {compared : ℕ → Option (VagrantEnvironmentConfig × SystemAttributes)}
    {e : Envelope} (h : configOf e.msg = none) : Travels compared e :=
  fun _ hc => absurd (h.symm.trans hc) (by simp)

/-- What was compared stays. -/
theorem Compared.mono {p q : Option (VagrantEnvironmentConfig × SystemAttributes)}
    {k : Option Int64} (h : Compared p k) (hpq : ∀ x, p = some x → q = some x) : Compared q k := by
  obtain ⟨x, hx, hk⟩ := Option.map_eq_some_iff.mp h
  exact Option.map_eq_some_iff.mpr ⟨x, hpq x hx, hk⟩

theorem Travels.mono {f g : ℕ → Option (VagrantEnvironmentConfig × SystemAttributes)}
    (hfg : ∀ u x, f u = some x → g u = some x) {e : Envelope} (h : Travels f e) : Travels g e := by
  intro c hc
  rcases h c hc with h | ⟨hs, hu⟩
  · exact .inl h
  · exact .inr ⟨hs, fun u hr => (hu u hr).mono (hfg u)⟩

section Steps

variable {w : World} {own : ℕ → ℕ}

/-- A step that leaves the machines alone, and puts nothing on its way
that was not compared. -/
theorem Covering.frame {w' : World} (h : Covering w own) (hc : w'.compared = w.compared)
    (hv : w'.vmActor = w.vmActor) (hcur : w'.current = w.current) (hcr : w'.created = w.created)
    (hsub : w'.submitted ⊆ w.submitted) (hst : w'.started ⊆ w.started) (hb : w'.booted = w.booted)
    (hn : w.next ≤ w'.next) (hl : ∀ e ∈ w'.inflight, e ∈ w.inflight ∨ Travels w.compared e) :
    Covering w' own := by
  refine ⟨fun e he => ?_, fun i => ?_, fun u hu => ?_, fun r hr => ?_, fun r hr => ?_, ?_, ?_⟩
  · rw [hc]
    exact (hl e he).elim (h.travels e) id
  · rw [hc, hv]
    exact h.needs i
  · rw [hcr] at hu
    rw [hcur]
    exact ⟨(h.current u hu).1, (h.current u hu).2.trans_le hn⟩
  · exact ⟨(h.submitted r (hsub hr)).1, (h.submitted r (hsub hr)).2.trans_le hn⟩
  · exact ⟨(h.started r (hst hr)).1, (h.started r (hst hr)).2.trans_le hn⟩
  · rw [hb, hc]
    exact h.booted
  · rw [hc]
    exact fun u c a hu => ⟨(h.compared u c a hu).1.trans_le hn, (h.compared u c a hu).2⟩

theorem mem_taken_append {e e' : Envelope} {l : List Envelope} (h : e' ∈ w.inflight.erase e ++ l) :
    e' ∈ w.inflight ∨ e' ∈ l := by
  rcases List.mem_append.mp h with h | h
  · exact .inl (List.mem_of_mem_erase h)
  · exact .inr h

theorem Covering.post (h : Covering w own) {e : Envelope} (he : Travels w.compared e) :
    Covering (w.post e) own := by
  refine h.frame rfl rfl rfl rfl (fun _ hr => hr) (fun _ hr => hr) rfl (le_refl _) fun e' he' => ?_
  rcases List.mem_append.mp he' with he' | he'
  · exact .inl he'
  · obtain rfl := List.mem_singleton.mp he'
    exact .inr he

theorem Covering.taken (h : Covering w own) (e : Envelope) : Covering (w.taken e) own :=
  h.frame rfl rfl rfl rfl (fun _ hr => hr) (fun _ hr => hr) rfl (le_refl _)
    fun _ he' => .inl (List.mem_of_mem_erase he')

theorem Covering.restartNode (h : Covering w own) : Covering w.restartNode own := by
  refine h.frame rfl rfl rfl rfl (fun _ hr => hr) (fun _ hr => hr) rfl (le_refl _) fun e he => ?_
  rcases List.mem_append.mp he with he | he
  · exact .inl (List.mem_of_mem_filter he)
  · obtain rfl := List.mem_singleton.mp he
    exact .inr (travels_of_none rfl)

/-- The node has handled a message: a machine it created is new, and what
it compared is remembered. -/
theorem Covering.nodeTurn {sender : Actor} {m : Message} (h : Covering w own)
    (he : ⟨sender, .node, m⟩ ∈ w.inflight) :
    ∃ own', Covering ((w.taken ⟨sender, .node, m⟩).handleNode ⟨sender, .node, m⟩) own' := by
  unfold World.handleNode
  rw [noteProvisioned_eq]
  have hfits := fun u => @NodeActor.creates_fits sender m w.next u w.node
  have hpasses := @NodeActor.emits_passes sender m w.next w.node
  simp only [World.taken]
  generalize NodeActor.receive w.next sender m w.node = out at hfits hpasses
  generalize hes : out.effects.filterMap createdBy = cr at hfits
  have hold : ∀ i < w.next, i ∉ cr := fun i hi hmem => absurd (hfits i hmem).1 hi.ne
  have hmono : ∀ u x, w.compared u = some x → (if u ∈ cr then
      out.fields.vagrantEnvironmentConfig.bind fun c => out.fields.systemAttributes.map fun a =>
        (c, a) else w.compared u) = some x := by
    rintro u ⟨c, a⟩ hx
    rw [if_neg (hold u (h.compared u c a hx).1)]
    exact hx
  refine ⟨fun i => if i ∈ cr then i else own i, ?_⟩
  have hmain : Covering ((({ w with
      inflight := w.inflight.erase ⟨sender, .node, m⟩
      provisioned := provisionedBy w.node.ready ⟨sender, .node, m⟩ w.provisioned
      node := out.fields
      next := w.next + 1 } : World).noteCompared out.effects out.fields).act .node out.effects)
      fun i => if i ∈ cr then i else own i := by
    simp only [World.act, World.noteCompared, hes]
    refine ⟨fun e' he' => ?_, fun i => ?_, fun u hu => ?_, fun r hr => ?_, fun r hr => ?_,
      fun p hp => (h.booted p hp).mono (hmono p.1), fun u c a hu => ?_⟩
    · rcases mem_taken_append he' with he' | he'
      · exact (h.travels e' he').mono hmono
      · obtain ⟨f, hf, he'⟩ := List.mem_flatMap.mp he'
        exact (travels_posted (h.travels _ he) (by simp) (hpasses f hf) he').mono hmono
    · simp only
      split
      · exact VMActor.needs_new
      · exact fun c hc => (h.needs i c hc).mono (hmono (own i))
    · rcases List.mem_append.mp hu with hu | hu
      · have hlt := (h.current u hu).2
        by_cases hmem : u ∈ cr
        · simp only [if_pos hmem, true_and]
          rw [(hfits u hmem).1]
          exact Nat.lt_succ_self _
        · simp only [if_neg hmem, if_neg (hold _ hlt)]
          exact ⟨(h.current u hu).1, Nat.lt_succ_of_lt hlt⟩
      · simp only [if_pos hu, true_and]
        rw [(hfits u hu).1]
        exact Nat.lt_succ_self _
    · obtain ⟨hown, hlt⟩ := h.submitted r hr
      simp only [if_neg (hold _ hlt)]
      exact ⟨hown, Nat.lt_succ_of_lt hlt⟩
    · obtain ⟨hown, hlt⟩ := h.started r hr
      simp only [if_neg (hold _ hlt)]
      exact ⟨hown, Nat.lt_succ_of_lt hlt⟩
    · simp only at hu
      split at hu
      · rename_i hmem
        obtain ⟨rfl, c', a', hc, ha, hfit⟩ := hfits u hmem
        rw [hc, ha] at hu
        obtain ⟨rfl, rfl⟩ := Prod.mk.inj (Option.some.inj hu)
        exact ⟨Nat.lt_succ_self _, hfit⟩
      · exact ⟨Nat.lt_succ_of_lt (h.compared u c a hu).1, (h.compared u c a hu).2⟩
  split
  · exact hmain
  · exact hmain.restartNode

theorem Covering.instancesTurn {sender : Actor} {m : Message} {platform : Platform}
    {isDirectory : Bool} (h : Covering w own)
    (hok : AnswersCompared w (.deliver ⟨sender, .instances, m⟩ platform isDirectory)) :
    Covering ((w.taken ⟨sender, .instances, m⟩).handleInstances ⟨sender, .instances, m⟩) own := by
  have htaken := h.taken ⟨sender, .instances, m⟩
  cases m with
  | getDeployInfo =>
    simp only [World.handleInstances]
    cases hf : firstRun (w.taken ⟨sender, .instances, .getDeployInfo⟩).runs with
    | none => exact htaken.post (travels_of_none rfl)
    | some run =>
      refine htaken.post fun c hc => .inr ⟨rfl, fun u hu => ?_⟩
      obtain rfl := Option.some.inj hc
      obtain rfl : sender = .vmActor u := hu
      exact hok run hf
  | _ => exact htaken

theorem Covering.monitorTurn {sender : Actor} {m : Message} (h : Covering w own)
    (he : ⟨sender, .monitor, m⟩ ∈ w.inflight) (platform : Platform) :
    Covering ((w.taken ⟨sender, .monitor, m⟩).handleMonitor platform ⟨sender, .monitor, m⟩) own := by
  unfold World.handleMonitor
  have hpasses := @NodeMonitorActor.emits_passes sender m platform w.monitor
  simp only [World.taken]
  generalize NodeMonitorActor.receive platform sender m w.monitor = out at hpasses
  have hnone : out.effects.filterMap createdBy = [] :=
    List.filterMap_eq_nil_iff.mpr fun f hf => (hpasses f hf).2
  have hl : ∀ e' ∈ w.inflight.erase ⟨sender, .monitor, m⟩ ++ out.effects.flatMap (posted .monitor),
      e' ∈ w.inflight ∨ Travels w.compared e' := by
    intro e' he'
    rcases mem_taken_append he' with he' | he'
    · exact .inl he'
    · obtain ⟨f, hf, he'⟩ := List.mem_flatMap.mp he'
      exact .inr (travels_posted (h.travels _ he) (by simp) (hpasses f hf).1 he')
  have hact : Covering (({ w with
      inflight := w.inflight.erase ⟨sender, .monitor, m⟩
      monitor := out.fields } : World).act .monitor out.effects) own := by
    refine h.frame rfl ?_ ?_ ?_ (fun _ hr => hr) (fun _ hr => hr) rfl (le_refl _) hl
    · simp [World.act, hnone]
    · simp [World.act, hnone]
    · simp [World.act, hnone]
  split
  · exact hact
  · exact (hact.post (e := ⟨.monitor, .monitor, .init⟩) (travels_of_none rfl)).frame rfl rfl rfl rfl
      (fun _ hr => hr) (fun _ hr => hr) rfl (le_refl _) fun e' he' => .inl he'

/-- A restarted machine has a new instance, with no configuration. -/
theorem Covering.restartVm (h : Covering w own) (u : ℕ) :
    Covering (w.restartVm u) (Function.update own w.next u) := by
  have hold : ∀ i < w.next, Function.update own w.next u i = own i := fun i hi =>
    Function.update_of_ne hi.ne u own
  refine ⟨fun e he => ?_, fun i => ?_, fun v hv => ?_, fun r hr => ?_, fun r hr => ?_, h.booted,
    fun v c a hv => ⟨Nat.lt_succ_of_lt (h.compared v c a hv).1, (h.compared v c a hv).2⟩⟩
  · rcases List.mem_append.mp he with he | he
    · exact h.travels e he
    · obtain rfl := List.mem_singleton.mp he
      exact travels_of_none rfl
  · by_cases hi : i = w.next
    · subst hi
      simp only [World.restartVm, Function.update_self]
      exact VMActor.needs_new
    · simp only [World.restartVm, Function.update_of_ne hi]
      exact h.needs i
  · by_cases hvu : v = u
    · subst hvu
      simp only [World.restartVm, Function.update_self, true_and]
      exact Nat.lt_succ_self _
    · obtain ⟨hown, hlt⟩ := h.current v hv
      simp only [World.restartVm, Function.update_of_ne hvu, hold _ hlt]
      exact ⟨hown, Nat.lt_succ_of_lt hlt⟩
  · obtain ⟨hown, hlt⟩ := h.submitted r hr
    exact ⟨(hold _ hlt).trans hown, Nat.lt_succ_of_lt hlt⟩
  · obtain ⟨hown, hlt⟩ := h.started r hr
    exact ⟨(hold _ hlt).trans hown, Nat.lt_succ_of_lt hlt⟩

/-- The fields of one instance change. -/
theorem needs_update {f : ℕ → VMActor} {P : ℕ → Option Int64 → Prop} {i : ℕ} {v : VMActor}
    (hf : ∀ i, VMActor.Needs (P i) (f i)) (hv : VMActor.Needs (P i) v) (j : ℕ) :
    VMActor.Needs (P j) (Function.update f i v j) := by
  by_cases hj : j = i
  · subst hj
    rw [Function.update_self]
    exact hv
  · rw [Function.update_of_ne hj]
    exact hf j

theorem Covering.vmTurn {sender : Actor} {u : ℕ} {m : Message} (h : Covering w own)
    (he : ⟨sender, .vmActor u, m⟩ ∈ w.inflight) (isDirectory : Bool) :
    ∃ own', Covering ((w.taken ⟨sender, .vmActor u, m⟩).handleVm isDirectory u
      ⟨sender, .vmActor u, m⟩) own' := by
  unfold World.handleVm
  split
  case isFalse => exact ⟨own, h.taken _⟩
  case isTrue halive =>
    simp only [World.taken] at halive ⊢
    obtain ⟨hown, hlt⟩ := h.current u halive.1
    have hneeds : VMActor.Needs (Compared (w.compared (own (w.current u))))
        (VMActor.receive u isDirectory sender m (w.vmActor (w.current u))).fields := by
      refine VMActor.preserves_receive (fun c hc => ?_) _ (h.needs _)
      rcases h.travels _ he c (by rw [hc]; rfl) with hno | ⟨-, hto⟩
      · cases hno
      · rw [hown]
        exact hto u rfl
    have hpasses := @VMActor.emits_passes u sender m isDirectory (w.vmActor (w.current u))
    generalize VMActor.receive u isDirectory sender m (w.vmActor (w.current u)) = out at *
    have hact : Covering (({ w with
        inflight := w.inflight.erase ⟨sender, .vmActor u, m⟩
        vmActor := Function.update w.vmActor (w.current u) out.fields } : World).actVm u
        out.effects) own := by
      refine ⟨fun e' he' => ?_, needs_update h.needs hneeds, h.current, fun r hr => ?_, h.started,
        h.booted, h.compared⟩
      · rcases mem_taken_append he' with he' | he'
        · exact h.travels e' he'
        · obtain ⟨f, hf, he'⟩ := List.mem_flatMap.mp he'
          exact travels_posted (h.travels _ he) (by simp) (hpasses f hf) he'
      · rcases List.mem_append.mp hr with hr | hr
        · exact h.submitted r hr
        · obtain ⟨f, -, hf⟩ := List.mem_filterMap.mp hr
          cases f with
          | submit version =>
            obtain rfl := Option.some.inj hf
            exact ⟨hown, hlt⟩
          | _ => cases hf
    split
    · exact ⟨own, hact⟩
    · exact ⟨_, hact.restartVm u⟩

/-- **A step whose answers are those that were compared** boots nothing
else. -/
theorem Covering.step {w' : World} {ev : Event} (h : Covering w own) (hok : AnswersCompared w ev)
    (hs : w.step ev = some w') : ∃ own', Covering w' own' := by
  cases ev with
  | deliver e platform isDirectory =>
    obtain ⟨sender, receiver, m⟩ := e
    simp only [World.step] at hs
    split at hs
    case isFalse => cases hs
    case isTrue he =>
      cases receiver with
      | node =>
        obtain rfl := Option.some.inj hs
        exact h.nodeTurn he
      | monitor =>
        obtain rfl := Option.some.inj hs
        exact ⟨own, h.monitorTurn he platform⟩
      | master => cases hs
      | instances =>
        obtain rfl := Option.some.inj hs
        exact ⟨own, h.instancesTurn hok⟩
      | vmActor u =>
        obtain rfl := Option.some.inj hs
        exact h.vmTurn he isDirectory
      | vmProxyActor u =>
        obtain rfl := Option.some.inj hs
        exact ⟨own, h.taken _⟩
      | globalStatus =>
        obtain rfl := Option.some.inj hs
        exact ⟨own, h.taken _⟩
  | master e ready =>
    simp only [World.step] at hs
    split at hs
    case isFalse => cases hs
    case isTrue =>
      split at hs
      · rename_i a ha
        obtain rfl := Option.some.inj hs
        have hnone : configOf a = none := by
          obtain ⟨sender, receiver, m⟩ := e
          cases m <;> cases ready <;> simp only [World.masterAnswer, Option.some.injEq] at ha <;>
            first | (subst ha; rfl) | cases ha
        exact ⟨own, (h.taken e).post (travels_of_none hnone)⟩
      · obtain rfl := Option.some.inj hs
        exact ⟨own, h.taken e⟩
  | outside e =>
    simp only [World.step] at hs
    split at hs
    case isFalse => cases hs
    case isTrue ho =>
      obtain rfl := Option.some.inj hs
      refine ⟨own, h.post (travels_of_none ?_)⟩
      unfold Outside at ho
      split at ho
      · rcases ho.2 with rfl | rfl | rfl <;> rfl
      · rcases ho.2.2 with rfl | rfl <;> rfl
      · obtain ⟨-, rfl⟩ := ho
        rfl
      · exact ho.elim
  | upload instanceId config =>
    obtain rfl := Option.some.inj hs
    exact ⟨own, h.frame rfl rfl rfl rfl (fun _ hr => hr) (fun _ hr => hr) rfl (Nat.le_succ _)
      fun e' he' => .inl he'⟩
  | complete ref =>
    obtain rfl := Option.some.inj hs
    exact ⟨own, h.frame rfl rfl rfl rfl (fun _ hr => hr) (fun _ hr => hr) rfl (le_refl _)
      fun e' he' => .inl he'⟩
  | start r =>
    simp only [World.step] at hs
    split at hs
    case isFalse => cases hs
    case isTrue hr =>
      obtain ⟨hown, hlt⟩ := h.submitted r hr
      have herase : ∀ r' ∈ w.submitted.erase r, own r'.instance' = r'.uuid ∧ r'.instance' < w.next :=
        fun r' hr' => h.submitted r' (List.mem_of_mem_erase hr')
      split at hs
      · rename_i config hc
        obtain rfl := Option.some.inj hs
        refine ⟨own, h.travels, needs_update h.needs (h.needs r.instance'), h.current, herase,
          fun r' hr' => ?_, fun p hp => ?_, h.compared⟩
        · rcases List.mem_cons.mp hr' with rfl | hr'
          · exact ⟨hown, hlt⟩
          · exact h.started r' hr'
        · rcases List.mem_cons.mp hp with rfl | hp
          · exact hown ▸ h.needs r.instance' config hc
          · exact h.booted p hp
      · obtain rfl := Option.some.inj hs
        exact ⟨own, h.travels, h.needs, h.current, herase, h.started, h.booted, h.compared⟩
  | finish r running =>
    simp only [World.step] at hs
    split at hs
    case isFalse => cases hs
    case isTrue =>
      obtain rfl := Option.some.inj hs
      have hv := VMActor.needs_finishRunnable r.version (h.needs r.instance')
      have hdone : Covering { w with
          started := w.started.erase r
          vmActor := Function.update w.vmActor r.instance'
            ((w.vmActor r.instance').finishRunnable r.version) } own :=
        ⟨h.travels, needs_update h.needs hv, h.current, h.submitted,
          fun r' hr' => h.started r' (List.mem_of_mem_erase hr'), h.booted, h.compared⟩
      exact ⟨own, hdone.post (travels_of_none rfl)⟩
  | fail r =>
    simp only [World.step] at hs
    split at hs
    case isFalse => cases hs
    case isTrue =>
      obtain rfl := Option.some.inj hs
      have hdone : Covering { w with started := w.started.erase r } own :=
        h.frame rfl rfl rfl rfl (fun _ hr => hr) (List.erase_subset) rfl (le_refl _)
          fun e he => .inl he
      exact ⟨own, hdone.post (travels_of_none rfl)⟩
  | destroyed u =>
    simp only [World.step] at hs
    split at hs
    case isFalse => cases hs
    case isTrue =>
      obtain rfl := Option.some.inj hs
      have hdone : Covering { w with destroying := w.destroying.erase u } own :=
        h.frame rfl rfl rfl rfl (fun _ hr => hr) (fun _ hr => hr) rfl (le_refl _)
          fun e he => .inl he
      exact ⟨own, hdone.post (travels_of_none rfl)⟩

end Steps

/-- **What is booted was compared.** In every run in which the run that is
first when a machine asks needs the memory that was compared for it, each
environment is created from a configuration of a memory that `addVm`
compared, with success, before it created the machine. -/
theorem booted_covered {es : List Event} {w : World}
    (h : provisioning.Run (fun _ w e => AnswersCompared w e) es w) :
    ∀ p ∈ w.booted, ∃ c a, w.compared p.1 = some (c, a) ∧ NodeActor.Fits c a ∧
      NodeActor.memoryNeeded p.2 = NodeActor.memoryNeeded c := by
  have hcov : ∃ own, Covering w own := by
    refine h.state_invariant (I := fun w => ∃ own, Covering w own) ⟨id, covering_init⟩ ?_
    rintro es w ev w' ⟨own, hw⟩ hok hs
    exact hw.step hok hs
  obtain ⟨own, hcov⟩ := hcov
  intro p hp
  obtain ⟨⟨c, a⟩, hca, hk⟩ := Option.map_eq_some_iff.mp (hcov.booted p hp)
  exact ⟨c, a, hca, (hcov.compared p.1 c a hca).2, hk.symm⟩

/-- A node with 8000 MB creates `vmActor 7` for the run `2`. -/
def creation : List Event :=
  startUp 8388608000 ++ .upload "2" (oneMachine 1024) :: asks (oneMachine 1024) 8388608000 ++
    [.deliver ⟨.monitor, .node, .systemAttributes ⟨some 8388608000, true⟩⟩
      (platformWith 8388608000) true]

/-- `vmActor 7` handles a message, or another actor does. -/
def handles (sender receiver : Actor) (m : Message) : Event :=
  .deliver ⟨sender, receiver, m⟩ (platformWith 8388608000) true

/-- It collects its references, asks what to deploy, and boots it. -/
def boot (config : VagrantEnvironmentConfig) : List Event :=
  [handles (.vmActor 7) (.vmActor 7) .init,
    handles (.vmActor 7) .node .getInstanceActor,
    handles (.vmActor 7) .node (.getVmProxyActor 7),
    handles (.vmActor 7) .node .getNodeMonitorActor,
    handles (.vmActor 7) .node .getGlobalStatusActor,
    handles .node (.vmActor 7) (.setInstanceActor (some .instances)),
    handles .node (.vmActor 7) (.setVmProxyActor (some (.vmProxyActor 7))),
    handles .node (.vmActor 7) (.setNodeMonitorActor (some .monitor)),
    handles .node (.vmActor 7) (.setGlobalStatusActor (some .globalStatus)),
    handles (.vmActor 7) .instances .getDeployInfo,
    handles (.vmActor 7) .monitor .getSystemAttributes,
    handles .monitor (.vmActor 7) (.systemAttributes ⟨some 8388608000, true⟩),
    handles .instances (.vmActor 7) (.deployInfo config),
    .start ⟨7, 7, "v"⟩]

theorem booted_covered_first : ∃ es w, provisioning.Run (fun _ w e => AnswersCompared w e) es w ∧
    w.booted ≠ [] ∧ ∀ p ∈ w.booted, ∃ c a, w.compared p.1 = some (c, a) ∧ NodeActor.Fits c a ∧
      NodeActor.memoryNeeded p.2 = NodeActor.memoryNeeded c := by
  obtain ⟨w, hrun, hb⟩ : ∃ w, provisioning.Run (fun _ w e => AnswersCompared w e)
      (creation ++ boot (oneMachine 1024)) w ∧ w.booted ≠ [] :=
    exists_run_of_execWhen (by decide +kernel)
  exact ⟨_, w, hrun, hb, booted_covered hrun⟩

/-- Run `1`, of 16384 MB, is added before the machine asks. -/
theorem booted_uncovered : ¬ ∀ es w, provisioning.Run anyStep es w →
    ∀ p ∈ w.booted, ∃ c a, w.compared p.1 = some (c, a) ∧ NodeActor.Fits c a ∧
      NodeActor.memoryNeeded p.2 = NodeActor.memoryNeeded c := by
  intro hall
  obtain ⟨w, hrun, p, hp, hno⟩ : ∃ w, provisioning.Run anyStep
      (creation ++ .upload "1" (oneMachine 16384) :: boot (oneMachine 16384)) w ∧
        ∃ p ∈ w.booted, ¬ Compared (w.compared p.1) (NodeActor.memoryNeeded p.2) :=
    exists_run_of_execWhen (by decide +kernel)
  obtain ⟨c, a, hca, -, hk⟩ := hall _ w hrun p hp
  exact hno (Option.map_eq_some_iff.mpr ⟨(c, a), hca, hk.symm⟩)

end Clustering.Provisioning
