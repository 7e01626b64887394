/-
Clustering.Status.Counters — what a machine tells the
`GlobalStatusActor`.

A `VMActor` tells it twice that it counts: with `RegisterVmActor` when
its machine is provisioned, with `DeregisterVmActor` when it has handled
`VmDestroy`. `Counts` is what any message does to `vmProvisioned` and
which of the two it sends; `Crashes` is when a handler dereferences null
or finds no directory.
-/
import Clustering.Provisioning.VMActor

namespace Clustering.Status

open Actors Actors.Handler
open Clustering.Provisioning (Actor Message Effect VMActor)

/-! ## What a machine tells the counter -/

/-- What an effect tells the `GlobalStatusActor`: a registration (`true`)
or a deregistration. -/
def told : Effect → Option Bool
  | .tell .globalStatus (.registerVmActor _) => some true
  | .tell .globalStatus (.deregisterVmActor _) => some false
  | _ => none

/-- The effect concerns no counter and does not end the actor. -/
def Plain (e : Effect) : Prop := told e = none ∧ e ≠ .stopSelf

/-- The messages a `VMActor` can be sent: `SetGlobalStatusActor` carries
no other reference, and nobody sends its own two messages back. -/
def Genuine : Message → Prop
  | .setGlobalStatusActor actor => actor = none ∨ actor = some .globalStatus
  | .notReadyJet (.registerVmActor _) | .notReadyJet (.deregisterVmActor _) => False
  | _ => True

namespace VMActor

open Clustering.Provisioning.VMActor

/-- The fields the counter depends on. -/
def counting (v : VMActor) : Bool × Option Actor := (v.vmProvisioned, v.globalStatusActor)

/-- Code that leaves these fields and tells the counter nothing. -/
structure Modest {α : Type} (x : Code α) : Prop where
  keeps : Keeps counting x
  emits : Emits Plain x

namespace Modest

variable {α β : Type}

theorem pure (a : α) : Modest (pure a) := ⟨.pure a, .pure a⟩

theorem fields : Modest fields := ⟨.fields, .fields⟩

theorem raise (e : Worker.Throwable) : Modest (raise e : Code α) := ⟨.raise e, .raise e⟩

theorem deref (e : Worker.Throwable) (o : Option α) : Modest (deref e o) := ⟨.deref e o, .deref e o⟩

theorem assign {g : VMActor → VMActor} (h : ∀ v, counting (g v) = counting v) :
    Modest (assign g) := ⟨.assign h, .assign g⟩

theorem perform {e : Effect} (h : Plain e) : Modest (perform e) := ⟨.perform e, .perform h⟩

theorem bind {x : Code α} {y : α → Code β} (hx : Modest x) (hy : ∀ a, Modest (y a)) :
    Modest (x >>= y) := ⟨.bind hx.keeps fun a => (hy a).keeps, .bind hx.emits fun a => (hy a).emits⟩

theorem ite {p : Prop} [Decidable p] {x y : Code α} (hx : Modest x) (hy : Modest y) :
    Modest (if p then x else y) := ⟨.ite hx.keeps hy.keeps, .ite (fun _ => hx.emits) fun _ => hy.emits⟩

end Modest

variable {u : ℕ} {isDirectory : Bool} {sender : Actor} {m : Message} {v : VMActor}

theorem plain_tell {a : Actor} {b : Message} (hr : ∀ u, b ≠ .registerVmActor u)
    (hd : ∀ u, b ≠ .deregisterVmActor u) : Plain (.tell a b) := by
  refine ⟨?_, by simp⟩
  unfold told
  split
  · rename_i heq
    cases heq
    exact absurd rfl (hr _)
  · rename_i heq
    cases heq
    exact absurd rfl (hd _)
  · rfl

theorem modest_scheduleGetDeployInfo (delay : ℕ) : Modest (scheduleGetDeployInfo delay) := by
  refine .bind .fields fun v => ?_
  cases v.instanceActor with
  | some instanceActor => exact .bind (.perform ⟨rfl, by simp⟩) fun _ => .assign fun _ => rfl
  | none => exact .assign fun _ => rfl

theorem modest_checkReady : Modest checkReady := by
  refine .bind .fields fun _ => .ite ?_ (.pure _)
  refine .bind (.assign fun _ => rfl) fun _ => .bind .fields fun _ => ?_
  have hrest : Modest (do
      let monitorActor ← Handler.deref .nullPointer (← Handler.fields).nodeMonitorActor
      Handler.perform (.tell monitorActor .getSystemAttributes) : Code Unit) :=
    .bind .fields fun _ => .bind (.deref _ _) fun _ => .perform (plain_tell (by simp) (by simp))
  exact .ite (.bind (modest_scheduleGetDeployInfo 0) fun _ => hrest) hrest

theorem modest_prepareProvisionVm : Modest (prepareProvisionVm u isDirectory) := by
  refine .bind .fields fun v => ?_
  split
  · refine .ite (.ite ?_ (.raise _)) (.pure _)
    exact .bind (.assign fun _ => rfl) fun _ => .perform ⟨rfl, by simp⟩
  · exact .pure _

/-- The actor knows no other actor than the `GlobalStatusActor` as such. -/
def Refers (v : VMActor) : Prop :=
  v.globalStatusActor = none ∨ v.globalStatusActor = some .globalStatus

theorem refers_of_counting {v' : VMActor} (h : counting v' = counting v) (hv : Refers v) :
    Refers v' := by
  have hg : v'.globalStatusActor = v.globalStatusActor := congrArg Prod.snd h
  unfold Refers
  rw [hg]
  exact hv

/-- What a message does to `vmProvisioned`, and what it tells. -/
inductive Counts (v : VMActor) : Message → VMActor → List Effect → Bool → Prop
  | stays {m : Message} {v' : VMActor} {es : List Effect} {raised : Bool}
      (hp : v'.vmProvisioned = v.vmProvisioned) (hes : ∀ e ∈ es, Plain e) : Counts v m v' es raised
  | resets {v' : VMActor} {es : List Effect} (hp : v'.vmProvisioned = false)
      (hes : ∀ e ∈ es, Plain e) : Counts v .init v' es false
  | succeeds {v' : VMActor} {es : List Effect} (hr : v.ready = true)
      (hp : v'.vmProvisioned = true) (hes : es.filterMap told = [true])
      (hs : Effect.stopSelf ∉ es) : Counts v (.vmTaskResult true) v' es false
  | failed {v' : VMActor} {es : List Effect} {raised : Bool} (hr : v.ready = true)
      (hp : v'.vmProvisioned = false) (hes : ∀ e ∈ es, Plain e) :
      Counts v (.vmTaskResult false) v' es raised
  /-- A reference is null: the actor is restarted. -/
  | raises {m : Message} {v' : VMActor} {es : List Effect} (hes : ∀ e ∈ es, Plain e) :
      Counts v m v' es true
  | destroyed {v' : VMActor} {es : List Effect} (hr : v.ready = true)
      (hes : es.filterMap told = [false]) (hs : Effect.stopSelf ∈ es) :
      Counts v .vmDestroyed v' es false

theorem Modest.counts {x : Code Unit} (hx : Modest x) (m : Message) (hv : Refers v) :
    Refers (x v).fields ∧ Counts v m (x v).fields (x v).effects (x v).raised.isSome := by
  have hkeeps := hx.keeps v
  exact ⟨refers_of_counting hkeeps hv, .stays (congrArg Prod.fst hkeeps) (hx.emits v)⟩

theorem counts_set {f : VMActor} (m : Message) (hv : Refers f)
    (hf : f.vmProvisioned = v.vmProvisioned) :
    Refers (checkReady f).fields ∧
      Counts v m (checkReady f).fields (checkReady f).effects (checkReady f).raised.isSome := by
  have hkeeps := modest_checkReady.keeps f
  exact ⟨refers_of_counting hkeeps hv,
    .stays ((congrArg Prod.fst hkeeps).trans hf) (modest_checkReady.emits f)⟩

theorem counts_finishProvisionVm (hr : v.ready = true) (hv : Refers v) (running : Bool) :
    Refers (finishProvisionVm u isDirectory running v).fields ∧
      Counts v (.vmTaskResult running) (finishProvisionVm u isDirectory running v).fields
        (finishProvisionVm u isDirectory running v).effects
        (finishProvisionVm u isDirectory running v).raised.isSome := by
  cases running with
  | false =>
    have hrun : finishProvisionVm u isDirectory false v =
        prepareProvisionVm u isDirectory { v with vmProvisioned := false } := rfl
    have hmodest : Modest (prepareProvisionVm u isDirectory) := modest_prepareProvisionVm
    have hkeeps := hmodest.keeps { v with vmProvisioned := false }
    have hnew : Refers { v with vmProvisioned := false } := hv
    rw [hrun]
    exact ⟨refers_of_counting hkeeps hnew,
      .failed hr (congrArg Prod.fst hkeeps) (modest_prepareProvisionVm.emits _)⟩
  | true =>
    cases hp : v.vmProxyActor with
    | none =>
      have hrun : finishProvisionVm u isDirectory true v =
          ⟨{ v with vmProvisioned := true }, [.tell .node .vmProvisioned],
            .error .nullPointer⟩ := by
        simp [finishProvisionVm, hp]
      rw [hrun]
      exact ⟨hv, .raises (by simp [Plain, told])⟩
    | some proxy =>
      have hconfig : Plain
          (.tell proxy (.setVagrantEnvironmentConfig v.vagrantEnvironmentConfig)) :=
        plain_tell (by simp) (by simp)
      rcases hv with hg | hg
      · have hrun : finishProvisionVm u isDirectory true v =
            ⟨{ v with vmProvisioned := true }, [.tell .node .vmProvisioned,
              .tell proxy (.setVagrantEnvironmentConfig v.vagrantEnvironmentConfig)],
              .error .nullPointer⟩ := by
          simp [finishProvisionVm, hp, hg]
        rw [hrun]
        refine ⟨.inl hg, .raises ?_⟩
        intro e he
        rcases List.mem_cons.mp he with rfl | he
        · exact ⟨rfl, by simp⟩
        · obtain rfl := List.mem_singleton.mp he
          exact hconfig
      · have hrun : finishProvisionVm u isDirectory true v =
            ⟨{ v with vmProvisioned := true }, [.tell .node .vmProvisioned,
              .tell proxy (.setVagrantEnvironmentConfig v.vagrantEnvironmentConfig),
              .tell .globalStatus (.registerVmActor u)], .ok ()⟩ := by
          simp [finishProvisionVm, hp, hg]
        rw [hrun]
        refine ⟨.inr hg, .succeeds hr rfl ?_ (by simp)⟩
        rw [List.filterMap_cons_none rfl, List.filterMap_cons_none hconfig.1]
        rfl

theorem counts_handlerVmDestroyed (hr : v.ready = true) (hv : Refers v) :
    Refers (handlerVmDestroyed u v).fields ∧
      Counts v .vmDestroyed (handlerVmDestroyed u v).fields (handlerVmDestroyed u v).effects
        (handlerVmDestroyed u v).raised.isSome := by
  rcases hv with hg | hg
  · have hrun : handlerVmDestroyed u v =
        ⟨v, [.tell .node (.removeVmActor false u)], .error .nullPointer⟩ := by
      simp [handlerVmDestroyed, hg]
    rw [hrun]
    exact ⟨.inl hg, .raises (by simp [Plain, told])⟩
  · have hrun : handlerVmDestroyed u v =
        ⟨v, [.tell .node (.removeVmActor false u), .tell .globalStatus (.deregisterVmActor u),
          .stopSelf], .ok ()⟩ := by
      simp [handlerVmDestroyed, hg]
    rw [hrun]
    exact ⟨.inr hg, .destroyed hr rfl (by simp)⟩

/-- **Every message a machine is sent goes one of these ways.** -/
theorem receive_counts (hm : Genuine m) (hv : Refers v) :
    Refers (receive u isDirectory sender m v).fields ∧
      Counts v m (receive u isDirectory sender m v).fields
        (receive u isDirectory sender m v).effects
        (receive u isDirectory sender m v).raised.isSome := by
  have hother : ∀ {m : Message}, Modest (otherwise sender m) :=
    .bind .fields fun _ => .ite (.perform (plain_tell (by simp) (by simp))) (.pure _)
  cases m with
  | init =>
    exact ⟨hv, .resets rfl (by simp [receive, handlerInit, Plain, told])⟩
  | setInstanceActor a => exact counts_set (f := { v with instanceActor := a }) _ hv rfl
  | setVmProxyActor a => exact counts_set (f := { v with vmProxyActor := a }) _ hv rfl
  | setNodeMonitorActor a => exact counts_set (f := { v with nodeMonitorActor := a }) _ hv rfl
  | setGlobalStatusActor a =>
    exact counts_set (f := { v with globalStatusActor := a }) _ hm rfl
  | notReadyJet m' =>
    have hx : Modest (handlerNotReadyJet sender m') := .perform ⟨rfl, by simp⟩
    exact (Modest.bind .fields fun _ => hx).counts _ hv
  | vmTaskResult running =>
    cases hr : v.ready with
    | true =>
      have hrun : receive u isDirectory sender (.vmTaskResult running) v =
          finishProvisionVm u isDirectory running v := by simp [receive, hr]
      rw [hrun]
      exact counts_finishProvisionVm hr hv running
    | false =>
      have hrun : receive u isDirectory sender (.vmTaskResult running) v =
          otherwise sender (.vmTaskResult running) v := by simp [receive, hr]
      rw [hrun]
      exact hother.counts _ hv
  | vmDestroyed =>
    cases hr : v.ready with
    | true =>
      have hrun : receive u isDirectory sender .vmDestroyed v = handlerVmDestroyed u v := by
        simp [receive, hr]
      rw [hrun]
      exact counts_handlerVmDestroyed hr hv
    | false =>
      have hrun : receive u isDirectory sender .vmDestroyed v = otherwise sender .vmDestroyed v := by
        simp [receive, hr]
      rw [hrun]
      exact hother.counts _ hv
  | deployInfo c =>
    have hx : Modest (handlerDeployInfo u isDirectory c) :=
      .bind (.assign fun _ => rfl) fun _ => .bind (.assign fun _ => rfl) fun _ =>
        modest_prepareProvisionVm
    exact (Modest.bind .fields fun _ => .ite hx hother).counts _ hv
  | systemAttributes a =>
    have hx : Modest (handlerSystemAttributes u isDirectory a) :=
      .bind (.assign fun _ => rfl) fun _ => modest_prepareProvisionVm
    exact (Modest.bind .fields fun _ => .ite hx hother).counts _ hv
  | noDeployInfo =>
    have hx : Modest handlerNoDeployInfo :=
      .bind (.assign fun _ => rfl) fun _ => .bind .fields fun _ =>
        .ite (modest_scheduleGetDeployInfo 30) (.pure _)
    exact (Modest.bind .fields fun _ => .ite hx hother).counts _ hv
  | noMoreTasks =>
    have hx : Modest (perform .submitDestroy : Code Unit) := .perform ⟨rfl, by simp⟩
    exact (Modest.bind .fields fun _ => .ite hx hother).counts _ hv
  | getVagrantEnvironmentConfig =>
    exact (Modest.bind .fields fun v => .ite (.perform (plain_tell (by simp) (by simp)))
      hother).counts _ hv
  | _ => exact (Modest.bind .fields fun _ => hother).counts _ hv

/-! ## When a handler raises -/

/-- An instance that is ready raises on such a message. -/
def Crashes (isDirectory : Bool) (v : VMActor) : Message → Prop
  | .deployInfo _ => v.vagrant = true ∧ isDirectory = false
  | .systemAttributes a =>
      a.vagrant = true ∧ v.vagrantEnvironmentConfig ≠ none ∧ isDirectory = false
  | .vmTaskResult true => v.vmProxyActor = none ∨ v.globalStatusActor = none
  | .vmTaskResult false =>
      v.vagrant = true ∧ v.vagrantEnvironmentConfig ≠ none ∧ isDirectory = false
  | .vmDestroyed => v.globalStatusActor = none
  | _ => False

instance : Decidable (Crashes isDirectory v m) := by
  unfold Crashes
  split <;> infer_instance

theorem raised_checkReady : (checkReady v).raised = none := by
  by_cases h : v.instanceActor.isSome ∧ v.vmProxyActor.isSome ∧ v.nodeMonitorActor.isSome ∧
      v.globalStatusActor.isSome
  · obtain ⟨a, ha⟩ := Option.isSome_iff_exists.mp h.1
    obtain ⟨n, hn⟩ := Option.isSome_iff_exists.mp h.2.2.1
    cases hs : v.scheduleOnceGetDeployInfo <;>
      simp [checkReady, h, hs, ha, hn, scheduleGetDeployInfo]
  · simp [checkReady, h]

theorem raised_prepareProvisionVm : (prepareProvisionVm u isDirectory v).raised.isSome ↔
    v.vagrant = true ∧ v.vagrantEnvironmentConfig ≠ none ∧ isDirectory = false := by
  cases hc : v.vagrantEnvironmentConfig <;> cases hv : v.vagrant <;> cases isDirectory <;>
    simp [prepareProvisionVm, hc, hv]

theorem raised_otherwise : (otherwise sender m v).raised = none := by
  by_cases h : v.ready = false ∨ v.vmProvisioned = false <;>
    simp [otherwise, handlerNotReady, h]

/-- **Exactly on these messages a handler raises**, and only if the
instance is ready. -/
theorem raised_receive : (receive u isDirectory sender m v).raised.isSome ↔
    v.ready = true ∧ Crashes isDirectory v m := by
  have hset : ∀ f : VMActor, ((checkReady f).raised.isSome = true ↔ v.ready = true ∧ False) := by
    simp [raised_checkReady]
  have hother : (otherwise sender m v).raised.isSome = true ↔ v.ready = true ∧ False := by
    simp [raised_otherwise]
  have hsend : ∀ {e : Effect}, (receive u isDirectory sender m v =
      (if v.vmProvisioned then perform e else otherwise sender m) v) →
      ((receive u isDirectory sender m v).raised.isSome = true ↔ v.ready = true ∧ False) := by
    intro e hrun
    rw [hrun]
    split
    · simp
    · exact hother
  -- a handler behind the guard `ready`
  have hguard : ∀ {x : Code Unit} {p : Prop}, (receive u isDirectory sender m v =
      (if v.ready then x else otherwise sender m) v) →
      (v.ready = true → ((x v).raised.isSome = true ↔ p)) →
      ((receive u isDirectory sender m v).raised.isSome = true ↔ v.ready = true ∧ p) := by
    intro x p hrun hx
    rw [hrun]
    cases hr : v.ready with
    | true => simpa using hx hr
    | false => simp [raised_otherwise]
  cases m with
  | setInstanceActor a => exact hset { v with instanceActor := a }
  | setVmProxyActor a => exact hset { v with vmProxyActor := a }
  | setNodeMonitorActor a => exact hset { v with nodeMonitorActor := a }
  | setGlobalStatusActor a => exact hset { v with globalStatusActor := a }
  | deployInfo c =>
    refine hguard rfl fun _ => ?_
    have hrun : (handlerDeployInfo u isDirectory c v).raised = (prepareProvisionVm u isDirectory
        { v with scheduleOnceGetDeployInfo := false, vagrantEnvironmentConfig := some c }).raised :=
      rfl
    rw [hrun, raised_prepareProvisionVm]
    simp [Crashes]
  | systemAttributes a =>
    refine hguard rfl fun _ => ?_
    have hrun : (handlerSystemAttributes u isDirectory a v).raised = (prepareProvisionVm u
        isDirectory { v with systemAttributes := some a, vagrant := a.vagrant }).raised := rfl
    rw [hrun, raised_prepareProvisionVm]
    rfl
  | noDeployInfo =>
    refine hguard rfl fun _ => ?_
    cases ha : v.systemAttributes <;> cases hv : v.vagrant <;> cases hi : v.instanceActor <;>
      simp [handlerNoDeployInfo, scheduleGetDeployInfo, Crashes, ha, hv, hi]
  | vmTaskResult running =>
    refine hguard rfl fun _ => ?_
    cases running with
    | false =>
      have hrun : (finishProvisionVm u isDirectory false v).raised =
          (prepareProvisionVm u isDirectory { v with vmProvisioned := false }).raised := rfl
      rw [hrun, raised_prepareProvisionVm]
      rfl
    | true =>
      cases hp : v.vmProxyActor <;> cases hg : v.globalStatusActor <;>
        simp [finishProvisionVm, Crashes, hp, hg]
  | vmDestroyed =>
    refine hguard rfl fun _ => ?_
    cases hg : v.globalStatusActor <;> simp [handlerVmDestroyed, Crashes, hg]
  | noMoreTasks => exact hsend rfl
  | getVagrantEnvironmentConfig => exact hsend rfl
  | init => simp [receive, handlerInit, Crashes]
  | notReadyJet m => simp [receive, handlerNotReadyJet, Crashes]
  | _ => exact hother

end VMActor

end Clustering.Status
