/-
Clustering.Provisioning.Turns — what the handlers of a node leave.

`NodeActor.Turn` and `NodeMonitorActor.Turn` list the paths through the
two `receive`s that raise nothing: the message, the fields afterwards,
the effects in order. Of a `VMActor` it is enough to know what it may
send (`VMActor.MaySend`) and what becomes of its configuration.
-/
import Clustering.Provisioning.NodeActor
import Clustering.Provisioning.VMActor

namespace Clustering.Provisioning

open Actors Actors.Handler

/-- The configuration in a message, also in one that comes back. -/
def configOf : Message → Option VagrantEnvironmentConfig
  | .deployInfo c => some c
  | .notReadyJet m => configOf m
  | _ => none

/-! ## The node -/

namespace NodeActor

/-- What `scheduleAddVmActor` performs. -/
def timer (n : NodeActor) (delay : ℕ) : List Effect :=
  if n.scheduleOnceAddVmActor then [] else [.scheduleOnce delay .node .addVmActor]

theorem scheduleAddVmActor_apply (n : NodeActor) (delay : ℕ) :
    scheduleAddVmActor delay n =
      ⟨{ n with scheduleOnceAddVmActor := true }, n.timer delay, .ok ()⟩ := by
  cases n
  rename_i t r v
  cases t <;> rfl

/-- The messages a node answers at once. -/
def Asked (n : NodeActor) : Message → Message → Prop
  | .getInstanceActor, a => a = .setInstanceActor n.instanceActor
  | .getGlobalStatusActor, a => a = .setGlobalStatusActor n.globalStatusActor
  | .getNodeMonitorActor, a => a = .setNodeMonitorActor n.nodeMonitorActor
  | .getVmProxyActor u, a => a = .setVmProxyActor ((n.entry u).bind (·.vmProxyActor))
  | .getVmActor u, a => a = .setVmActor ((n.entry u).bind (·.vmActor))
  | _, _ => False

/-- The reference a message brings. -/
def Brings (n : NodeActor) : Message → NodeActor → Prop
  | .setInstanceActor a, n' => n' = { n with instanceActor := a }
  | .setGlobalStatusActor a, n' => n' = { n with globalStatusActor := a }
  | _, _ => False

/-- The messages that are guarded by `if ready`. -/
def Guarded : Message → Prop
  | .init | .setGlobalStatusActor _ | .setInstanceActor _ | .notReadyJet _ => False
  | _ => True

/-- The messages no case matches while the node is ready. -/
def Unknown : Message → Prop
  | .setNodeMonitorActor _ | .setVmProxyActor _ | .setVmActor _ | .getDeployInfo
  | .getSystemAttributes | .setPath _ | .vmTaskResult _ | .vmDestroyed | .noMoreTasks
  | .getVagrantEnvironmentConfig | .setVagrantEnvironmentConfig _ | .registerNodeMonitorActor
  | .registerVmActor _ | .deregisterVmActor _ => True
  | _ => False

/-- The memory is there. -/
def Fits (c : VagrantEnvironmentConfig) (a : SystemAttributes) : Prop :=
  ∃ needed free, memoryNeeded c = some needed ∧ a.freePhysicalMemorySize = some free ∧
    0 < needed ∧ needed < Int64.ofInt free ∧ a.vagrant = true

/-- The paths through `receive` that raise nothing. -/
inductive Turn (n : NodeActor) (fresh : ℕ) (sender : Actor) :
    Message → NodeActor → List Effect → Prop
  | init : Turn n fresh sender .init { n with ready := false }
      [.tell .master .getInstanceActor, .tell .master .getGlobalStatusActor]
  | brings {m : Message} {n' : NodeActor} (h : n.Brings m n')
      (hm : n'.instanceActor = none ∨ n'.globalStatusActor = none ∨ n'.nodeMonitorActor ≠ none) :
      Turn n fresh sender m n' []
  /-- The last reference comes: the monitor is created. -/
  | starts {m : Message} {n' : NodeActor} (h : n.Brings m n') (hi : n'.instanceActor.isSome)
      (hg : n'.globalStatusActor.isSome) (hm : n'.nodeMonitorActor = none) :
      Turn n fresh sender m
        { n' with ready := true, nodeMonitorActor := some .monitor, scheduleOnceAddVmActor := true }
        (.actorOf .monitor :: n'.timer 5)
  | retries (m : Message) : Turn n fresh sender (.notReadyJet m) n [.scheduleOnce 5 sender m]
  | notReady {m : Message} (hm : Guarded m) (hr : n.ready = false) :
      Turn n fresh sender m n [.tell sender (.notReadyJet m)]
  | answers {m a : Message} (hr : n.ready = true) (h : n.Asked m a) :
      Turn n fresh sender m n [.tell sender a]
  | addVmActor {i : Actor} (hr : n.ready = true) (hi : n.instanceActor = some i) :
      Turn n fresh sender .addVmActor { n with scheduleOnceAddVmActor := false }
        [.tell i .getDeployInfo]
  | removes (hr : n.ready = true) (proxy : Bool) (uuid : ℕ) (l : List VmEntry) :
      Turn n fresh sender (.removeVmActor proxy uuid) { n with vmActors := l } []
  | deployInfo {c : VagrantEnvironmentConfig} {a : Actor} (hr : n.ready = true)
      (ha : n.nodeMonitorActor = some a) :
      Turn n fresh sender (.deployInfo c) { n with vagrantEnvironmentConfig := some c }
        [.tell a .getSystemAttributes]
  | noDeployInfo (hr : n.ready = true) :
      Turn n fresh sender .noDeployInfo
        { n with vagrantEnvironmentConfig := none, scheduleOnceAddVmActor := true } (n.timer 30)
  | creates {c : VagrantEnvironmentConfig} {a : Actor} {attributes : SystemAttributes}
      (hr : n.ready = true) (hc : n.vagrantEnvironmentConfig = some c)
      (ha : n.nodeMonitorActor = some a) (hf : Fits c attributes) :
      Turn n fresh sender (.systemAttributes attributes)
        { n with
          systemAttributes := some attributes
          vmActors :=
            insertVm ⟨fresh, some (.vmActor fresh), some (.vmProxyActor fresh)⟩ n.vmActors }
        [.tell a (.setPath c.path), .actorOf (.vmProxyActor fresh), .actorOf (.vmActor fresh)]
  | waits {c : VagrantEnvironmentConfig} {a : Actor} {attributes : SystemAttributes}
      (hr : n.ready = true) (hc : n.vagrantEnvironmentConfig = some c)
      (ha : n.nodeMonitorActor = some a) :
      Turn n fresh sender (.systemAttributes attributes)
        { n with systemAttributes := some attributes, scheduleOnceAddVmActor := true }
        (.tell a (.setPath c.path) :: n.timer 30)
  | provisioned (hr : n.ready = true) :
      Turn n fresh sender .vmProvisioned { n with scheduleOnceAddVmActor := true } (n.timer 2)
  | drops {m : Message} (hr : n.ready = true) (hm : Unknown m) : Turn n fresh sender m n []

variable {n : NodeActor} {fresh : ℕ} {sender : Actor} {m : Message}

theorem turn_brings {n' : NodeActor} (h : n.Brings m n') :
    Turn n fresh sender m (initNodeMonitorActor n').fields (initNodeMonitorActor n').effects := by
  by_cases hp : n'.instanceActor.isSome ∧ n'.globalStatusActor.isSome ∧ n'.nodeMonitorActor = none
  · obtain ⟨hi, hg, hm⟩ := hp
    have he : initNodeMonitorActor n' = ⟨{ n' with
        ready := true, nodeMonitorActor := some .monitor, scheduleOnceAddVmActor := true },
        .actorOf .monitor :: n'.timer 5, .ok ()⟩ := by
      simp only [initNodeMonitorActor, bind_apply, fields_apply, Outcome.andThen_ok,
        if_pos (And.intro hi (And.intro hg hm)), assign_apply, perform_apply,
        scheduleAddVmActor_apply]
      rfl
    rw [he]
    exact .starts h hi hg hm
  · have he : initNodeMonitorActor n' = ⟨n', [], .ok ()⟩ := by
      simp only [initNodeMonitorActor, bind_apply, fields_apply, Outcome.andThen_ok, if_neg hp,
        pure_apply]
      rfl
    rw [he]
    refine .brings h ?_
    by_contra hno
    push Not at hno
    obtain ⟨hi, hg, hm⟩ := hno
    exact hp ⟨Option.isSome_iff_ne_none.mpr hi, Option.isSome_iff_ne_none.mpr hg, hm⟩

theorem turn_removes (hr : n.ready = true) (proxy : Bool) (uuid : ℕ) :
    Turn n fresh sender (.removeVmActor proxy uuid) (handlerRemoveVmActor proxy uuid n).fields
      (handlerRemoveVmActor proxy uuid n).effects := by
  obtain ⟨l, hl⟩ : ∃ l,
      handlerRemoveVmActor proxy uuid n = ⟨{ n with vmActors := l }, [], .ok ()⟩ := by
    cases he : n.entry uuid with
    | none => exact ⟨n.vmActors, by simp [handlerRemoveVmActor, he]⟩
    | some e =>
      by_cases hn : (if proxy then e.vmActor else e.vmProxyActor) = none
      · exact ⟨_, by simp only [handlerRemoveVmActor, bind_apply, fields_apply,
          Outcome.andThen_ok, he, if_pos hn, assign_apply]; rfl⟩
      · exact ⟨_, by simp only [handlerRemoveVmActor, bind_apply, fields_apply,
          Outcome.andThen_ok, he, if_neg hn, assign_apply]; rfl⟩
  rw [hl]
  exact .removes hr proxy uuid l

theorem turn_systemAttributes (hr : n.ready = true) (attributes : SystemAttributes)
    (h : (handlerSystemAttributes fresh attributes n).raised = none) :
    Turn n fresh sender (.systemAttributes attributes)
      (handlerSystemAttributes fresh attributes n).fields
      (handlerSystemAttributes fresh attributes n).effects := by
  cases hc : n.vagrantEnvironmentConfig with
  | none => simp [handlerSystemAttributes, addVm, hc] at h
  | some c =>
    cases ha : n.nodeMonitorActor with
    | none => simp [handlerSystemAttributes, addVm, hc, ha] at h
    | some a =>
      cases hn : memoryNeeded c with
      | none => simp [handlerSystemAttributes, addVm, hc, ha, hn] at h
      | some needed =>
        cases hf : attributes.freePhysicalMemorySize with
        | none => simp [handlerSystemAttributes, addVm, hc, ha, hn, hf] at h
        | some free =>
          by_cases hfit : 0 < needed ∧ needed < Int64.ofInt free ∧ attributes.vagrant = true
          · have he : handlerSystemAttributes fresh attributes n =
                ⟨{ n with
                  systemAttributes := some attributes
                  vmActors := insertVm ⟨fresh, some (.vmActor fresh), some (.vmProxyActor fresh)⟩
                    n.vmActors },
                [.tell a (.setPath c.path), .actorOf (.vmProxyActor fresh),
                  .actorOf (.vmActor fresh)], .ok ()⟩ := by
              simp only [handlerSystemAttributes, addVm, bind_apply, assign_apply, fields_apply,
                Outcome.andThen_ok, hc, ha, hn, hf, deref_some, perform_apply, if_pos hfit]
              rfl
            rw [he]
            exact .creates hr hc ha ⟨needed, free, hn, hf, hfit⟩
          · have he : handlerSystemAttributes fresh attributes n =
                ⟨{ n with systemAttributes := some attributes, scheduleOnceAddVmActor := true },
                .tell a (.setPath c.path) :: n.timer 30, .ok ()⟩ := by
              simp only [handlerSystemAttributes, addVm, bind_apply, assign_apply, fields_apply,
                Outcome.andThen_ok, hc, ha, hn, hf, deref_some, perform_apply, if_neg hfit,
                scheduleAddVmActor_apply]
              rfl
            rw [he]
            exact .waits hr hc ha

theorem turn_ready (hr : n.ready = true) (hg : Guarded m)
    (h : (receive fresh sender m n).raised = none) :
    Turn n fresh sender m (receive fresh sender m n).fields (receive fresh sender m n).effects := by
  by_cases hu : Unknown m
  · have he : receive fresh sender m n = ⟨n, [], .ok ()⟩ := by
      cases m <;> first | exact hu.elim | simp [receive, hr]
    rw [he]
    exact .drops hr hu
  cases m with
  | init | setGlobalStatusActor _ | setInstanceActor _ | notReadyJet _ => exact hg.elim
  | getInstanceActor =>
    have he : receive fresh sender .getInstanceActor n =
        ⟨n, [.tell sender (.setInstanceActor n.instanceActor)], .ok ()⟩ := by simp [receive, hr]
    rw [he]
    exact .answers hr rfl
  | getGlobalStatusActor =>
    have he : receive fresh sender .getGlobalStatusActor n =
        ⟨n, [.tell sender (.setGlobalStatusActor n.globalStatusActor)], .ok ()⟩ := by
      simp [receive, hr]
    rw [he]
    exact .answers hr rfl
  | getNodeMonitorActor =>
    have he : receive fresh sender .getNodeMonitorActor n =
        ⟨n, [.tell sender (.setNodeMonitorActor n.nodeMonitorActor)], .ok ()⟩ := by
      simp [receive, hr]
    rw [he]
    exact .answers hr rfl
  | getVmProxyActor u =>
    have he : receive fresh sender (.getVmProxyActor u) n =
        ⟨n, [.tell sender (.setVmProxyActor ((n.entry u).bind (·.vmProxyActor)))], .ok ()⟩ := by
      simp [receive, hr, handlerGetVmProxyActor]
    rw [he]
    exact .answers hr rfl
  | getVmActor u =>
    have he : receive fresh sender (.getVmActor u) n =
        ⟨n, [.tell sender (.setVmActor ((n.entry u).bind (·.vmActor)))], .ok ()⟩ := by
      simp [receive, hr, handlerGetVmActor]
    rw [he]
    exact .answers hr rfl
  | addVmActor =>
    cases hi : n.instanceActor with
    | none => simp [receive, hr, handlerAddVmActor, hi] at h
    | some i =>
      have he : receive fresh sender .addVmActor n =
          ⟨{ n with scheduleOnceAddVmActor := false }, [.tell i .getDeployInfo], .ok ()⟩ := by
        simp [receive, hr, handlerAddVmActor, hi]
      rw [he]
      exact .addVmActor hr hi
  | removeVmActor proxy u =>
    have he : receive fresh sender (.removeVmActor proxy u) n = handlerRemoveVmActor proxy u n := by
      simp [receive, hr]
    rw [he]
    exact turn_removes hr proxy u
  | deployInfo c =>
    cases ha : n.nodeMonitorActor with
    | none => simp [receive, hr, handlerDeployInfo, ha] at h
    | some a =>
      have he : receive fresh sender (.deployInfo c) n =
          ⟨{ n with vagrantEnvironmentConfig := some c }, [.tell a .getSystemAttributes],
            .ok ()⟩ := by
        simp [receive, hr, handlerDeployInfo, ha]
      rw [he]
      exact .deployInfo hr ha
  | noDeployInfo =>
    have he : receive fresh sender .noDeployInfo n =
        ⟨{ n with vagrantEnvironmentConfig := none, scheduleOnceAddVmActor := true }, n.timer 30,
          .ok ()⟩ := by
      simp [receive, hr, handlerNoDeployInfo, scheduleAddVmActor_apply, timer]
    rw [he]
    exact .noDeployInfo hr
  | systemAttributes attributes =>
    have he : receive fresh sender (.systemAttributes attributes) n =
        handlerSystemAttributes fresh attributes n := by
      simp [receive, hr]
    rw [he] at h ⊢
    exact turn_systemAttributes hr attributes h
  | vmProvisioned =>
    have he : receive fresh sender .vmProvisioned n =
        ⟨{ n with scheduleOnceAddVmActor := true }, n.timer 2, .ok ()⟩ := by
      simp [receive, hr, handlerVmProvisioned, scheduleAddVmActor_apply]
    rw [he]
    exact .provisioned hr
  | _ => exact absurd trivial hu

/-- **Every message that raises nothing takes one of the paths.** -/
theorem receive_turn (h : (receive fresh sender m n).raised = none) :
    Turn n fresh sender m (receive fresh sender m n).fields (receive fresh sender m n).effects := by
  by_cases hg : Guarded m
  · cases hr : n.ready with
    | false =>
      have he : receive fresh sender m n = ⟨n, [.tell sender (.notReadyJet m)], .ok ()⟩ := by
        cases m <;> first | exact hg.elim | simp [receive, hr, handlerNotReady]
      rw [he]
      exact .notReady hg hr
    | true => exact turn_ready hr hg h
  · cases m with
    | init => exact .init
    | setGlobalStatusActor a =>
      have he : receive fresh sender (.setGlobalStatusActor a) n =
          initNodeMonitorActor { n with globalStatusActor := a } := by
        simp [receive, handlerSetGlobalStatusActor]
      rw [he]
      exact turn_brings rfl
    | setInstanceActor a =>
      have he : receive fresh sender (.setInstanceActor a) n =
          initNodeMonitorActor { n with instanceActor := a } := by
        simp [receive, handlerSetInstanceActor]
      rw [he]
      exact turn_brings rfl
    | notReadyJet m => exact .retries m
    | _ => exact absurd trivial hg

end NodeActor

/-! ## The monitor -/

namespace NodeMonitorActor

/-- The paths through the monitor's `receive` that raise nothing, by what
they send: nothing but its own requests, or one answer to the sender. -/
inductive Turn (r : NodeMonitorActor) (sender : Actor) : Message → List Effect → Prop
  | init : Turn r sender .init [.tell .node .getGlobalStatusActor]
  | answers {attributes : SystemAttributes} (hr : r.ready = true) :
      Turn r sender .getSystemAttributes [.tell sender (.systemAttributes attributes)]
  | notReady {m : Message} (hp : ∀ p, m ≠ .setPath p) (hg : ∀ a, m ≠ .setGlobalStatusActor a)
      (hr : r.ready = false) : Turn r sender m [.tell sender (.notReadyJet m)]
  | retries (m : Message) : Turn r sender (.notReadyJet m) [.scheduleOnce 5 sender m]
  | registers {a : Actor} : Turn r sender (.setGlobalStatusActor (some a))
      [.tell a .registerNodeMonitorActor]
  | silent {m : Message} (hm : m ≠ .getSystemAttributes) : Turn r sender m []

theorem receive_turn {r : NodeMonitorActor} {platform : Platform} {sender : Actor} {m : Message}
    (h : (receive platform sender m r).raised = none) :
    Turn r sender m (receive platform sender m r).effects := by
  cases m with
  | init => exact .init
  | notReadyJet m => exact .retries m
  | setPath p => exact .silent (by simp)
  | setGlobalStatusActor a =>
    cases hv : platform.checkVagrant with
    | none => simp [receive, handlerSetGlobalStatusActor, hv] at h
    | some vagrant =>
      cases a with
      | none => simp [receive, handlerSetGlobalStatusActor, hv] at h
      | some a =>
        have he : (receive platform sender (.setGlobalStatusActor (some a)) r).effects =
            [.tell a .registerNodeMonitorActor] := by
          simp [receive, handlerSetGlobalStatusActor, hv]
        rw [he]
        exact .registers
  | getSystemAttributes =>
    cases hr : r.ready with
    | false =>
      have he : (receive platform sender .getSystemAttributes r).effects =
          [.tell sender (.notReadyJet .getSystemAttributes)] := by
        simp [receive, hr, handlerNotReady]
      rw [he]
      exact .notReady (by simp) (by simp) hr
    | true =>
      cases hb : r.mbeanServer with
      | false => simp [receive, hr, handlerGetSystemAttributes, hb] at h
      | true =>
        have he : (receive platform sender .getSystemAttributes r).effects =
            [.tell sender (.systemAttributes ⟨platform.freePhysicalMemorySize, r.vagrant⟩)] := by
          simp [receive, hr, handlerGetSystemAttributes, hb]
        rw [he]
        exact .answers hr
  | _ =>
    cases hr : r.ready with
    | false =>
      simp only [receive, hr, handlerNotReady, bind_apply, fields_apply, Outcome.andThen_ok,
        perform_apply, List.nil_append, Bool.false_eq_true, if_false]
      exact .notReady (by simp) (by simp) hr
    | true =>
      simp only [receive, hr, bind_apply, fields_apply, Outcome.andThen_ok, pure_apply,
        List.nil_append, if_true]
      exact .silent (by simp)

end NodeMonitorActor

/-! ## The machines -/

namespace VMActor

/-- The messages that bring a reference. -/
def Brings : Message → Prop
  | .setInstanceActor _ | .setVmProxyActor _ | .setNodeMonitorActor _ | .setGlobalStatusActor _ =>
      True
  | _ => False

/-- What `vmActor u` tells its node, besides `VmProvisioned`. -/
def TellsNode (u : ℕ) (m : Message) : Prop :=
  m = .getInstanceActor ∨ m = .getVmProxyActor u ∨ m = .getNodeMonitorActor ∨
    m = .getGlobalStatusActor ∨ m = .removeVmActor false u

/-- What it sends to the actors in its fields. -/
def TellsOthers : Message → Prop
  | .getDeployInfo | .getSystemAttributes | .setVagrantEnvironmentConfig _ | .registerVmActor _
  | .deregisterVmActor _ => True
  | _ => False

/-- What the effects of `vmActor u` may be while it handles `m` of
`sender`, apart from `VmProvisioned`: it tells `sender` something only if
`m` brings no reference, and then no other configuration than that of `m`. -/
def MaySend (u : ℕ) (sender : Actor) (m : Message) : Effect → Prop
  | .tell a b | .scheduleOnce _ a b =>
      (a = .node ∧ TellsNode u b) ∨ TellsOthers b ∨
        (a = sender ∧ ¬ Brings m ∧ (configOf b = none ∨ configOf b = configOf m))
  | .actorOf _ => False
  | _ => True

variable {u : ℕ} {sender : Actor} {m : Message} {isDirectory : Bool}

theorem emits_scheduleGetDeployInfo (delay : ℕ) :
    Emits (MaySend u sender m) (scheduleGetDeployInfo delay) := by
  refine .bind .fields fun v => ?_
  cases v.instanceActor with
  | some instanceActor => exact .bind (.perform (.inr (.inl trivial))) fun _ => .assign _
  | none => exact .assign _

theorem emits_checkReady : Emits (MaySend u sender m) checkReady := by
  refine .bind .fields fun v => .ite (fun _ => ?_) fun _ => .pure _
  refine .bind (.assign _) fun _ => .bind .fields fun v => ?_
  have hrest : Emits (MaySend u sender m) (do
      let monitorActor ← deref .nullPointer (← fields).nodeMonitorActor
      perform (.tell monitorActor .getSystemAttributes) : Code Unit) :=
    .bind .fields fun _ => .bind (.deref _ _) fun _ => .perform (.inr (.inl trivial))
  refine .ite (fun _ => ?_) fun _ => hrest
  exact .bind (emits_scheduleGetDeployInfo 0) fun _ => hrest

theorem emits_handlerInit : Emits (MaySend u sender m) (handlerInit u) := by
  refine .bind (.assign _) fun _ => .bind (.perform (.inl ⟨rfl, .inl rfl⟩)) fun _ => ?_
  refine .bind (.perform (.inl ⟨rfl, .inr (.inl rfl)⟩)) fun _ => ?_
  refine .bind (.perform (.inl ⟨rfl, .inr (.inr (.inl rfl))⟩)) fun _ => ?_
  exact .perform (.inl ⟨rfl, .inr (.inr (.inr (.inl rfl)))⟩)

theorem emits_prepareProvisionVm :
    Emits (MaySend u sender m) (prepareProvisionVm u isDirectory) := by
  refine .bind .fields fun v => ?_
  split
  · refine .ite (fun _ => .ite (fun _ => ?_) fun _ => .raise _) fun _ => .pure _
    exact .bind (.assign _) fun _ => .perform trivial
  · exact .pure _

theorem emits_handlerNoDeployInfo : Emits (MaySend u sender m) handlerNoDeployInfo :=
  .bind (.assign _) fun _ => .bind .fields fun _ =>
    .ite (fun _ => emits_scheduleGetDeployInfo 30) fun _ => .pure _

theorem emits_handlerVmDestroyed : Emits (MaySend u sender m) (handlerVmDestroyed u) := by
  refine .bind (.perform (.inl ⟨rfl, .inr (.inr (.inr (.inr rfl)))⟩)) fun _ => ?_
  refine .bind .fields fun _ => .bind (.deref _ _) fun _ => ?_
  exact .bind (.perform (.inr (.inl trivial))) fun _ => .perform trivial

/-- An answer to the sender. -/
theorem emits_answer {a : Message} (hm : ¬ Brings m)
    (ha : configOf a = none ∨ configOf a = configOf m) :
    Emits (MaySend u sender m) (perform (.tell sender a) : Code Unit) :=
  .perform (.inr (.inr ⟨rfl, hm, ha⟩))

theorem emits_otherwise (hm : ¬ Brings m) : Emits (MaySend u sender m) (otherwise sender m) :=
  .bind .fields fun _ => .ite (fun _ => emits_answer hm (.inr rfl)) fun _ => .pure _

/-- Only a provisioned machine is announced, with the first effect. -/
theorem finishProvisionVm_effects (running : Bool) (v : VMActor) :
    (∀ e ∈ (finishProvisionVm u isDirectory running v).effects, MaySend u sender m e) ∨
      ∃ l, (finishProvisionVm u isDirectory running v).effects = .tell .node .vmProvisioned :: l ∧
        ∀ e ∈ l, MaySend u sender m e := by
  cases running with
  | false =>
    refine .inl (Emits.bind (P := MaySend u sender m) (.assign _) (fun _ => ?_) v)
    exact emits_prepareProvisionVm
  | true =>
    have hrest : Emits (MaySend u sender m) (do
        let proxy ← deref .nullPointer (← fields).vmProxyActor
        perform (.tell proxy (.setVagrantEnvironmentConfig (← fields).vagrantEnvironmentConfig))
        let statusActor ← deref .nullPointer (← fields).globalStatusActor
        perform (.tell statusActor (.registerVmActor u)) : Code Unit) := by
      refine .bind .fields fun _ => .bind (.deref _ _) fun _ => .bind .fields fun _ => ?_
      refine .bind (.perform (.inr (.inl trivial))) fun _ => .bind .fields fun _ => ?_
      exact .bind (.deref _ _) fun _ => .perform (.inr (.inl trivial))
    exact .inr ⟨_, rfl, hrest _⟩

/-- A guarded handler, and `case x` when the guard fails. -/
theorem emits_guarded {x : Code Unit} {p : VMActor → Prop} [DecidablePred p] (hm : ¬ Brings m)
    (hx : Emits (MaySend u sender m) x) :
    Emits (MaySend u sender m) (do if p (← fields) then x else otherwise sender m) :=
  .bind .fields fun _ => .ite (fun _ => hx) fun _ => emits_otherwise hm

theorem emits_receive (hm : ∀ running, m ≠ .vmTaskResult running) :
    Emits (MaySend u sender m) (receive u isDirectory sender m) := by
  cases m with
  | vmTaskResult running => exact absurd rfl (hm running)
  | init => exact emits_handlerInit
  | setInstanceActor a =>
    exact .bind .fields fun _ => .bind (.assign _) fun _ => emits_checkReady
  | setVmProxyActor a =>
    exact .bind .fields fun _ => .bind (.assign _) fun _ => emits_checkReady
  | setNodeMonitorActor a =>
    exact .bind .fields fun _ => .bind (.assign _) fun _ => emits_checkReady
  | setGlobalStatusActor a =>
    exact .bind .fields fun _ => .bind (.assign _) fun _ => emits_checkReady
  | notReadyJet m' =>
    have ha : MaySend u sender (.notReadyJet m') (.scheduleOnce 5 sender m') :=
      .inr (.inr ⟨rfl, fun h => h, .inr rfl⟩)
    exact .perform ha
  | deployInfo c =>
    refine emits_guarded (p := fun v => v.ready = true) (fun h => h) ?_
    exact .bind (.assign _) fun _ => .bind (.assign _) fun _ => emits_prepareProvisionVm
  | systemAttributes a =>
    refine emits_guarded (p := fun v => v.ready = true) (fun h => h) ?_
    exact .bind (.assign _) fun _ => emits_prepareProvisionVm
  | noDeployInfo =>
    exact emits_guarded (p := fun v => v.ready = true) (fun h => h) emits_handlerNoDeployInfo
  | vmDestroyed =>
    exact emits_guarded (p := fun v => v.ready = true) (fun h => h) emits_handlerVmDestroyed
  | noMoreTasks =>
    have hd : MaySend u sender .noMoreTasks .submitDestroy := trivial
    exact emits_guarded (p := fun v => v.vmProvisioned = true) (fun h => h) (.perform hd)
  | getVagrantEnvironmentConfig =>
    have hb : ¬ Brings .getVagrantEnvironmentConfig := fun h => h
    exact .bind .fields fun _ => .ite (fun _ => emits_answer hb (.inl rfl)) fun _ =>
      emits_otherwise hb
  | _ =>
    refine emits_otherwise ?_
    exact fun h => h

/-- **What a `VMActor` sends**: `VmProvisioned` at most once a message. -/
theorem receive_effects (v : VMActor) :
    (∀ e ∈ (receive u isDirectory sender m v).effects, MaySend u sender m e) ∨
      ∃ l, (receive u isDirectory sender m v).effects = .tell .node .vmProvisioned :: l ∧
        ∀ e ∈ l, MaySend u sender m e := by
  by_cases hm : ∃ running, m = .vmTaskResult running
  · obtain ⟨running, rfl⟩ := hm
    cases hr : v.ready with
    | false =>
      have hb : ¬ Brings (.vmTaskResult running) := fun h => h
      have he : receive u isDirectory sender (.vmTaskResult running) v =
          otherwise sender (.vmTaskResult running) v := by simp [receive, hr]
      rw [he]
      exact .inl (emits_otherwise hb v)
    | true =>
      have he : receive u isDirectory sender (.vmTaskResult running) v =
          finishProvisionVm u isDirectory running v := by simp [receive, hr]
      rw [he]
      exact finishProvisionVm_effects running v
  · exact .inl (emits_receive (fun running h => hm ⟨running, h⟩) v)

end VMActor

end Clustering.Provisioning
