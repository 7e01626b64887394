/-
Clustering.Vm.PollTimer — the timer a `VMProxyActor` polls with.

Two fields and what runs outside belong together: `haveSpaceForTasks`,
the timer in `scheduleGetTask`, and the timers that were started and not
cancelled. A handler starts a timer only if the field is null and takes
the slot only after it has cancelled it; so, once the machine is
configured, the slot is free exactly while the field holds a timer, and
no other timer runs.

A timer sends to the `instanceActor` of the moment it was started in.
`schedule` takes a null receiver and fails when the timer fires, and the
field keeps the timer, so no other is started: a machine that is
configured before it has an `InstanceActor` never asks for a task
(`polls_nobody`). `VMActor` starts its timer only when all its references
are there.

The actor is one instance: `Init` is its first message, which it sends
itself, and an exception ends it.
-/
import Clustering.Actors.Runs
import Clustering.Vm.VMProxyActor

namespace Clustering.Vm

open Actors Actors.EventSystem Actors.Handler

namespace VMProxyActor

/-! ## What a message does to slot and timer -/

/-- The timers that run after some effects, each with its receiver. -/
def running : List VmEffect → List (ℕ × Option ℕ) → List (ℕ × Option ℕ)
  | [], timers => timers
  | .schedule timer _ _ receiver _ :: es, timers => running es ((timer, receiver) :: timers)
  | .cancel timer :: es, timers => running es (timers.filter (·.1 ≠ timer))
  | _ :: es, timers => running es timers

/-- The effect starts or cancels no timer and does not stop the actor. -/
def Aside : VmEffect → Prop
  | .schedule .. | .cancel _ | .stopSelf => False
  | _ => True

/-- The messages that free the slot. -/
def Frees : VmMessage → Prop
  | .cannotGetExecutor | .terminated _ | .restApiRequest _ => True
  | _ => False

/-- The paths through `receive` that raise nothing, by what they do to
the slot and its timer. `Init` and the configuration are two others. -/
inductive Polls (v : VMProxyActor) (fresh : ℕ) (m : VmMessage) (v' : VMProxyActor) :
    List VmEffect → Prop
  | keeps {es : List VmEffect} (hes : ∀ e ∈ es, Aside e)
      (hf : v'.haveSpaceForTasks = v.haveSpaceForTasks)
      (ht : v'.scheduleGetTask = v.scheduleGetTask) : Polls v fresh m v' es
  /-- The timer is cancelled, and the slot is taken or was taken. -/
  | takes {es : List VmEffect} (hes : ∀ e ∈ es, Aside e) (hf : v'.haveSpaceForTasks = false)
      (ht : v'.scheduleGetTask = none) :
      Polls v fresh m v' (v.scheduleGetTask.toList.map .cancel ++ es)
  /-- The timer is cancelled, and the actor stops. -/
  | stops {es : List VmEffect} (hes : ∀ e ∈ es, Aside e) (ht : v'.scheduleGetTask = none) :
      Polls v fresh m v' (v.scheduleGetTask.toList.map .cancel ++ es ++ [.stopSelf])
  /-- The slot is free again, and the timer was running. -/
  | frees {es : List VmEffect} {timer : ℕ} (hes : ∀ e ∈ es, Aside e)
      (hf : v'.haveSpaceForTasks = true) (hold : v.scheduleGetTask = some timer)
      (ht : v'.scheduleGetTask = some timer) : Polls v fresh m v' es
  /-- The slot is free again, and a timer is started. -/
  | starts {es : List VmEffect} {version : String} (hm : Frees m) (hr : v.ready = true)
      (hes : ∀ e ∈ es, Aside e) (hf : v'.haveSpaceForTasks = true)
      (hold : v.scheduleGetTask = none) (ht : v'.scheduleGetTask = some fresh) :
      Polls v fresh m v' (es ++ [.schedule fresh 0 10 v.instanceActor version])

variable {v : VMProxyActor} {fresh : ℕ} {o : Outside}

theorem cancelGetTask_eq (v : VMProxyActor) :
    cancelGetTask v =
      ⟨{ v with scheduleGetTask := none }, v.scheduleGetTask.toList.map .cancel, .ok ()⟩ := by
  cases h : v.scheduleGetTask <;> simp [cancelGetTask, h]

theorem checkReady_timer (v : VMProxyActor) :
    ∃ f, checkReady v = ⟨f, [], .ok ()⟩ ∧ f.haveSpaceForTasks = v.haveSpaceForTasks ∧
      f.scheduleGetTask = v.scheduleGetTask ∧
      f.vagrantEnvironmentConfig = v.vagrantEnvironmentConfig ∧
      f.instanceActor = v.instanceActor ∧
      (v.vagrantEnvironmentConfig = none → f.ready = v.ready) := by
  refine ⟨_, rfl, ?_⟩
  dsimp only
  split
  · rename_i h
    refine ⟨rfl, rfl, rfl, rfl, fun hnone => ?_⟩
    simp [hnone] at h
  · exact ⟨rfl, rfl, rfl, rfl, fun _ => rfl⟩

/-- After `pre`, the slot is freed. -/
theorem polls_handlerFailure {m : VmMessage} (hm : Frees m) (hready : v.ready = true)
    (pre : List VmEffect) (hpre : ∀ e ∈ pre, Aside e)
    (h : (handlerFailure fresh v).raised = none) :
    Polls v fresh m (handlerFailure fresh v).fields (pre ++ (handlerFailure fresh v).effects) := by
  cases hs : v.scheduleGetTask with
  | some timer =>
    have hrun : handlerFailure fresh v = ⟨{ v with haveSpaceForTasks := true }, [], .ok ()⟩ := by
      simp [handlerFailure, hs]
    rw [hrun, List.append_nil]
    exact .frees hpre rfl hs hs
  | none =>
    cases hc : v.vagrantEnvironmentConfig with
    | none => simp [handlerFailure, scheduleGetTaskTimer, hs, hc] at h
    | some config =>
      have hrun : handlerFailure fresh v =
          ⟨{ v with haveSpaceForTasks := true, scheduleGetTask := some fresh },
            [.schedule fresh 0 10 v.instanceActor config.version], .ok ()⟩ := by
        simp [handlerFailure, scheduleGetTaskTimer, hs, hc]
      rw [hrun]
      exact .starts hm hready hpre rfl hs rfl

theorem polls_restApiRequest {request : RestApiRequest} (hready : v.ready = true)
    (h : (handlerRestApiRequest fresh o.http request v).raised = none) :
    Polls v fresh (.restApiRequest request) (handlerRestApiRequest fresh o.http request v).fields
      (handlerRestApiRequest fresh o.http request v).effects := by
  rcases handlerRestApiRequest_apply fresh o.http request v with ⟨x, -, hx⟩ | ⟨r, -, hr⟩
  · simp [hx] at h
  · have hreplies : ∀ e ∈ (requestAnswers o.http r).map VmEffect.reply, Aside e := by
      intro e he
      obtain ⟨a, -, rfl⟩ := List.mem_map.mp he
      trivial
    rw [hr] at h ⊢
    cases hclose : o.http.closeClient r with
    | false => simp [sendRequest, answerRequest_apply, hclose] at h
    | true =>
      have hrun : sendRequest fresh o.http r v = ⟨(handlerFailure fresh v).fields,
          (requestAnswers o.http r).map VmEffect.reply ++ (handlerFailure fresh v).effects,
          (handlerFailure fresh v).result⟩ := by
        simp only [sendRequest, bind_apply, answerRequest_apply, Outcome.andThen_ok, hclose, if_true]
        rfl
      rw [hrun] at h ⊢
      exact polls_handlerFailure (m := .restApiRequest request) trivial hready _ hreplies h

/-- A message leaves slot, timer and configuration alone, and does not
make an actor ready that has no configuration. -/
structure Leaves (v v' : VMProxyActor) (es : List VmEffect) : Prop where
  aside : ∀ e ∈ es, Aside e
  free : v'.haveSpaceForTasks = v.haveSpaceForTasks
  timer : v'.scheduleGetTask = v.scheduleGetTask
  config : v'.vagrantEnvironmentConfig = v.vagrantEnvironmentConfig
  ready : v.vagrantEnvironmentConfig = none → v'.ready = v.ready

theorem leaves_set (f : VMProxyActor) (h : Leaves v f []) :
    Leaves v (checkReady f).fields (checkReady f).effects := by
  obtain ⟨g, hg, hfree, htimer, hconfig, -, hready⟩ := checkReady_timer f
  rw [hg]
  refine ⟨by simp, hfree.trans h.free, htimer.trans h.timer, hconfig.trans h.config, fun hnone => ?_⟩
  exact (hready (h.config.trans hnone)).trans (h.ready hnone)

theorem receive_unready {m : VmMessage} (hi : m ≠ .init)
    (hc : ∀ config, m ≠ .setVagrantEnvironmentConfig config) (hr : v.ready = false) :
    Leaves v (receive fresh o m v).fields (receive fresh o m v).effects := by
  cases m with
  | init => exact absurd rfl hi
  | setVagrantEnvironmentConfig config => exact absurd rfl (hc config)
  | setVmActor actor =>
    exact leaves_set (v := v) { v with vmActor := actor } ⟨by simp, rfl, rfl, rfl, fun _ => rfl⟩
  | setInstanceActor actor =>
    exact leaves_set (v := v) { v with instanceActor := actor }
      ⟨by simp, rfl, rfl, rfl, fun _ => rfl⟩
  | notReadyJet =>
    exact ⟨by simp [receive, handlerNotReadyJet, Aside], rfl, rfl, rfl, fun _ => rfl⟩
  | sendTask | noMoreTasks | executor | cannotGetExecutor | terminated | restApiRequest
  | stillAlive =>
    have hrun : handlerNotReady v = ⟨v, [.reply .notReadyJet], .ok ()⟩ := rfl
    simp only [receive, bind_apply, fields_apply, Outcome.andThen_ok, hr, Bool.false_eq_true,
      if_false, hrun, List.nil_append]
    exact ⟨by simp [Aside], rfl, rfl, rfl, fun _ => rfl⟩

/-- **Every other message that raises nothing takes one of the paths.** -/
theorem receive_polls {m : VmMessage} (hi : m ≠ .init)
    (hc : ∀ config, m ≠ .setVagrantEnvironmentConfig config)
    (h : (receive fresh o m v).raised = none) :
    Polls v fresh m (receive fresh o m v).fields (receive fresh o m v).effects := by
  cases hr : v.ready with
  | false =>
    have hleaves : Leaves v (receive fresh o m v).fields (receive fresh o m v).effects :=
      receive_unready hi hc hr
    exact .keeps hleaves.aside hleaves.free hleaves.timer
  | true =>
    cases m with
    | init => exact absurd rfl hi
    | setVagrantEnvironmentConfig config => exact absurd rfl (hc config)
    | setVmActor actor =>
      have hleaves := leaves_set (v := v) { v with vmActor := actor }
        ⟨by simp, rfl, rfl, rfl, fun _ => rfl⟩
      exact .keeps hleaves.aside hleaves.free hleaves.timer
    | setInstanceActor actor =>
      have hleaves := leaves_set (v := v) { v with instanceActor := actor }
        ⟨by simp, rfl, rfl, rfl, fun _ => rfl⟩
      exact .keeps hleaves.aside hleaves.free hleaves.timer
    | notReadyJet => exact .keeps (by simp [receive, handlerNotReadyJet, Aside]) rfl rfl
    | sendTask =>
      cases hs : v.haveSpaceForTasks with
      | true =>
        have hrun : receive fresh o .sendTask v =
            ⟨{ v with scheduleGetTask := none, haveSpaceForTasks := false },
              v.scheduleGetTask.toList.map .cancel ++ [.reply .acquireExecutor], .ok ()⟩ := by
          simp [receive, hr, handlerSendTask, cancelGetTask_eq, hs]
        rw [hrun]
        exact .takes (by simp [Aside]) rfl rfl
      | false =>
        have hrun : receive fresh o .sendTask v =
            ⟨{ v with scheduleGetTask := none },
              v.scheduleGetTask.toList.map .cancel ++ [.reply (.failure "no more tasks!")],
              .ok ()⟩ := by
          simp [receive, hr, handlerSendTask, cancelGetTask_eq, hs]
        rw [hrun]
        exact .takes (by simp [Aside]) hs rfl
    | noMoreTasks =>
      cases ha : v.vmActor with
      | none => simp [receive, hr, handlerNoMoreTasks, cancelGetTask_eq, ha] at h
      | some actor =>
        have hrun : receive fresh o .noMoreTasks v =
            ⟨{ v with scheduleGetTask := none },
              v.scheduleGetTask.toList.map .cancel ++ [.tellVmActor actor, .removeVmActor] ++
                [.stopSelf], .ok ()⟩ := by
          simp [receive, hr, handlerNoMoreTasks, cancelGetTask_eq, ha]
        rw [hrun]
        exact .stops (by simp [Aside]) rfl
    | executor e =>
      have hrun : receive fresh o (.executor e) v = ⟨v, [.watch e], .ok ()⟩ := by
        simp [receive, hr, handlerExecutor]
      rw [hrun]
      exact .keeps (by simp [Aside]) rfl rfl
    | cannotGetExecutor =>
      have hrun : receive fresh o .cannotGetExecutor v = handlerFailure fresh v := by
        simp [receive, hr, handlerCannotGetExecutor]
      rw [hrun] at h ⊢
      exact polls_handlerFailure (m := .cannotGetExecutor) trivial hr [] (by simp) h
    | terminated e =>
      have hrun : receive fresh o (.terminated e) v = handlerFailure fresh v := by
        simp [receive, hr, handlerTerminated]
      rw [hrun] at h ⊢
      exact polls_handlerFailure (m := .terminated e) trivial hr [] (by simp) h
    | restApiRequest request =>
      have hrun : receive fresh o (.restApiRequest request) v =
          handlerRestApiRequest fresh o.http request v := by
        simp [receive, hr]
      rw [hrun] at h ⊢
      exact polls_restApiRequest hr h
    | stillAlive =>
      have hrun : receive fresh o .stillAlive v = checkSsh o.order o.probe v := by
        simp [receive, hr]
      rw [hrun] at h ⊢
      cases hnull : v.portMapping.any fun e => e.1.isNone with
      | true =>
        rw [checkSsh_null hnull] at h
        cases h
      | false =>
        rw [checkSsh_named hnull]
        exact .keeps (by simp [Aside]) rfl rfl

/-- The configuration, if it raises nothing: a timer is started unless
there is one. -/
theorem receive_configuration {config : VagrantEnvironmentConfig}
    (h : (receive fresh o (.setVagrantEnvironmentConfig config) v).raised = none)
    (hs : v.scheduleGetTask = none) :
    ∃ version,
      (receive fresh o (.setVagrantEnvironmentConfig config) v).effects =
        [.schedule fresh 5 10 v.instanceActor version] ∧
      (receive fresh o (.setVagrantEnvironmentConfig config) v).fields.haveSpaceForTasks =
        v.haveSpaceForTasks ∧
      (receive fresh o (.setVagrantEnvironmentConfig config) v).fields.scheduleGetTask =
        some fresh := by
  have hrecv : receive fresh o (.setVagrantEnvironmentConfig config) v =
      handlerSetVagrantEnvironmentConfig fresh config v := by simp [receive]
  obtain ⟨p, r, hp⟩ := mapVms_apply config.vmConfigs
    { v with vagrantEnvironmentConfig := some config, portMapping := [] }
  have hmap : getPortMapping { v with vagrantEnvironmentConfig := some config } =
      ⟨{ v with vagrantEnvironmentConfig := some config, portMapping := p }, [], r⟩ := by
    simp [getPortMapping, hp]
  rw [hrecv] at h ⊢
  cases r with
  | error x => simp [handlerSetVagrantEnvironmentConfig, hmap] at h
  | ok _ =>
    obtain ⟨f, hf, hfree, htimer, hconfig, hinstance, -⟩ := checkReady_timer
      { v with vagrantEnvironmentConfig := some config, portMapping := p }
    have hnone : f.scheduleGetTask = none := htimer.trans hs
    have hrun : handlerSetVagrantEnvironmentConfig fresh config v =
        ⟨{ f with scheduleGetTask := some fresh },
          [.schedule fresh 5 10 v.instanceActor config.version], .ok ()⟩ := by
      simp [handlerSetVagrantEnvironmentConfig, hmap, hf, hnone, hconfig, hinstance,
        scheduleGetTaskTimer]
    rw [hrun]
    exact ⟨_, rfl, hfree, rfl⟩

/-- `NoMoreTasks`, if it raises nothing, stops the actor. -/
theorem receive_noMoreTasks (hr : v.ready = true)
    (h : (receive fresh o .noMoreTasks v).raised = none) :
    .stopSelf ∈ (receive fresh o .noMoreTasks v).effects := by
  cases ha : v.vmActor with
  | none => simp [receive, hr, handlerNoMoreTasks, cancelGetTask_eq, ha] at h
  | some actor => simp [receive, hr, handlerNoMoreTasks, cancelGetTask_eq, ha]

end VMProxyActor

/-! ## The actor and its timers -/

/-- One instance of the actor, and the timers that run, each with the
actor it sends to. -/
structure Polling where
  actor : VMProxyActor
  timers : List (ℕ × Option ℕ)
  /-- Timers from here on are new. -/
  next : ℕ
  /-- `SetVagrantEnvironmentConfig` was handled. -/
  configured : Bool
  stopped : Bool

namespace Polling

open VMProxyActor

variable {s s' : Polling}

/-- The actor handles a message. An exception would end the instance. -/
def step (s : Polling) (e : VMProxyActor.Outside × VmMessage) : Option Polling :=
  let out := receive s.next e.1 e.2 s.actor
  if s.stopped = false ∧ out.raised = none then
    some {
      actor := out.fields
      timers := running out.effects s.timers
      next := s.next + 1
      configured := s.configured || (e.2 matches .setVagrantEnvironmentConfig _)
      stopped := out.effects.contains .stopSelf }
  else none

/-- `Init` is the first message and no other, and the configuration
comes once. -/
def Once (es : List (VMProxyActor.Outside × VmMessage)) (s : Polling)
    (e : VMProxyActor.Outside × VmMessage) : Prop :=
  match e.2 with
  | .init => es = []
  | .setVagrantEnvironmentConfig _ => es ≠ [] ∧ s.configured = false
  | _ => es ≠ []

instance (es : List (VMProxyActor.Outside × VmMessage)) (s : Polling) :
    ∀ e, Decidable (Once es s e)
  | (_, .init) => inferInstanceAs (Decidable (es = []))
  | (_, .setVagrantEnvironmentConfig _) =>
      inferInstanceAs (Decidable (es ≠ [] ∧ s.configured = false))
  | (_, .setVmActor _) | (_, .setInstanceActor _) | (_, .notReadyJet) | (_, .sendTask)
  | (_, .noMoreTasks) | (_, .executor _) | (_, .cannotGetExecutor) | (_, .terminated _)
  | (_, .restApiRequest _) | (_, .stillAlive) => inferInstanceAs (Decidable (es ≠ []))

/-- Whenever a message starts a timer there is an `InstanceActor`, and
`NoMoreTasks` comes to an actor that is ready, once it is configured. -/
def Served (s : Polling) : VmMessage → Prop
  | .setVagrantEnvironmentConfig _ => s.actor.instanceActor ≠ none
  | .cannotGetExecutor | .terminated _ | .restApiRequest _ =>
      s.actor.ready = true → s.actor.scheduleGetTask = none → s.actor.instanceActor ≠ none
  | .noMoreTasks => s.configured = true → s.actor.ready = true
  | _ => True

instance (s : Polling) : DecidablePred s.Served
  | .setVagrantEnvironmentConfig _ => inferInstanceAs (Decidable (s.actor.instanceActor ≠ none))
  | .cannotGetExecutor | .terminated _ | .restApiRequest _ => inferInstanceAs (Decidable
      (s.actor.ready = true → s.actor.scheduleGetTask = none → s.actor.instanceActor ≠ none))
  | .noMoreTasks => inferInstanceAs (Decidable (s.configured = true → s.actor.ready = true))
  | .init | .setVmActor _ | .setInstanceActor _ | .notReadyJet | .sendTask | .executor _
  | .stillAlive => isTrue trivial

/-- The runs in which whoever is to be asked is known. -/
def Known (es : List (VMProxyActor.Outside × VmMessage)) (s : Polling)
    (e : VMProxyActor.Outside × VmMessage) : Prop :=
  Once es s e ∧ s.Served e.2

instance (es : List (VMProxyActor.Outside × VmMessage)) (s : Polling)
    (e : VMProxyActor.Outside × VmMessage) : Decidable (Known es s e) :=
  inferInstanceAs (Decidable (_ ∧ _))

/-- **The discipline of the timer**: the slot is free exactly while the
field holds a timer; the timer in the field is the only one that runs;
and a timer that runs has somebody to ask. -/
structure Disciplined (s : Polling) : Prop where
  slot : s.actor.haveSpaceForTasks = true ↔ s.actor.scheduleGetTask ≠ none
  timers : s.timers.map Prod.fst = s.actor.scheduleGetTask.toList
  asks : ∀ t ∈ s.timers, t.2 ≠ none

end Polling

def polling : EventSystem Polling (VMProxyActor.Outside × VmMessage) where
  init := ⟨.new, [], 0, false, false⟩
  step := Polling.step

namespace Polling

open VMProxyActor

variable {s s' : Polling}

theorem running_append (es fs : List VmEffect) (timers : List (ℕ × Option ℕ)) :
    running (es ++ fs) timers = running fs (running es timers) := by
  induction es generalizing timers with
  | nil => rfl
  | cons e es ih => cases e <;> exact ih _

theorem running_aside {es : List VmEffect} (h : ∀ e ∈ es, Aside e)
    (timers : List (ℕ × Option ℕ)) : running es timers = timers := by
  induction es with
  | nil => rfl
  | cons e es ih =>
    have hrest := ih fun f hf => h f (List.mem_cons_of_mem _ hf)
    have he := h e List.mem_cons_self
    cases e <;> first | exact hrest | exact he.elim

/-- Cancelling the only timer leaves none. -/
theorem running_cancel {timer : Option ℕ} {timers : List (ℕ × Option ℕ)}
    (h : timers.map Prod.fst = timer.toList) : running (timer.toList.map .cancel) timers = [] := by
  cases timer with
  | none => exact List.map_eq_nil_iff.mp h
  | some t =>
    refine List.filter_eq_nil_iff.mpr fun x hx => ?_
    have hx : x.1 ∈ timers.map Prod.fst := List.mem_map_of_mem hx
    rw [h] at hx
    simpa using hx

/-- Before the configuration the slot is free, no timer runs and the
actor is not ready; after it slot and timer belong together. -/
structure Inv (es : List (VMProxyActor.Outside × VmMessage)) (s : Polling) : Prop where
  timers : s.timers.map Prod.fst = s.actor.scheduleGetTask.toList
  asks : ∀ t ∈ s.timers, t.2 ≠ none
  first : es = [] → s.configured = false
  before : s.configured = false → s.actor.scheduleGetTask = none ∧ s.actor.ready = false ∧
    s.actor.vagrantEnvironmentConfig = none ∧ (es ≠ [] → s.actor.haveSpaceForTasks = true)
  after : s.configured = true → s.stopped = false →
    (s.actor.haveSpaceForTasks = true ↔ s.actor.scheduleGetTask.isSome)
  stopped : s.stopped = true → s.actor.scheduleGetTask = none

theorem inv_init : Inv [] polling.init where
  timers := rfl
  asks := by simp [polling]
  first _ := rfl
  before _ := ⟨rfl, rfl, rfl, fun h => absurd rfl h⟩
  after h := by cases h
  stopped h := by cases h

theorem contains_stopSelf_false {es : List VmEffect} (h : ∀ e ∈ es, Aside e) :
    es.contains .stopSelf = false := by
  rw [List.contains_eq_mem, decide_eq_false_iff_not]
  exact fun hm => h _ hm

theorem Inv.no_timers {es : List (VMProxyActor.Outside × VmMessage)} (h : Inv es s)
    (hs : s.actor.scheduleGetTask = none) : s.timers = [] :=
  List.map_eq_nil_iff.mp (h.timers.trans (by rw [hs]; rfl))

/-- A message that is neither `Init` nor the configuration. -/
theorem Inv.other {es : List (VMProxyActor.Outside × VmMessage)} {o : VMProxyActor.Outside}
    {m : VmMessage} (h : Inv es s) (hi : m ≠ .init)
    (hc : ∀ config, m ≠ .setVagrantEnvironmentConfig config) (hne : es ≠ [])
    (hok : s.Served m) (hstopped : s.stopped = false)
    (hr : (receive s.next o m s.actor).raised = none)
    (ha : s'.actor = (receive s.next o m s.actor).fields)
    (ht : s'.timers = running (receive s.next o m s.actor).effects s.timers)
    (hconf : s'.configured = s.configured)
    (hstop : s'.stopped = (receive s.next o m s.actor).effects.contains .stopSelf) :
    Inv (es ++ [(o, m)]) s' := by
  cases hs : s.configured with
  | false =>
    -- not ready: everything stays as it is
    obtain ⟨hnull, hready, hconfig, hfree⟩ := h.before hs
    have hleaves : Leaves s.actor (receive s.next o m s.actor).fields
        (receive s.next o m s.actor).effects := receive_unready hi hc hready
    have htimer := hleaves.timer.trans hnull
    rw [running_aside hleaves.aside] at ht
    refine ⟨?_, ?_, by simp, fun _ => ?_, fun hconf' => ?_, fun _ => ?_⟩
    · rw [ht, h.timers, ha, htimer, hnull]
    · rw [ht]
      exact h.asks
    · rw [ha]
      exact ⟨htimer, (hleaves.ready hconfig).trans hready, hleaves.config.trans hconfig,
        fun _ => hleaves.free.trans (hfree hne)⟩
    · rw [hconf, hs] at hconf'
      cases hconf'
    · rw [ha]
      exact htimer
  | true =>
    have hafter := h.after hs hstopped
    have hbefore : s'.configured = false → s'.actor.scheduleGetTask = none ∧
        s'.actor.ready = false ∧ s'.actor.vagrantEnvironmentConfig = none ∧
        (es ++ [(o, m)] ≠ [] → s'.actor.haveSpaceForTasks = true) := by
      intro hno
      rw [hconf, hs] at hno
      cases hno
    have hpolls : Polls s.actor s.next m s'.actor (receive s.next o m s.actor).effects := by
      rw [ha]
      exact receive_polls hi hc hr
    have hcancelled := running_cancel h.timers
    generalize (receive s.next o m s.actor).effects = fx at hpolls ht hstop
    cases hpolls with
    | keeps hes hf hts =>
      rw [running_aside hes] at ht
      refine ⟨by rw [ht, hts, h.timers], by rw [ht]; exact h.asks, by simp, hbefore,
        fun _ _ => by rw [hf, hts]; exact hafter, fun hst => ?_⟩
      rw [hstop, contains_stopSelf_false hes] at hst
      cases hst
    | takes hes hf hts =>
      rw [running_append, hcancelled, running_aside hes] at ht
      exact ⟨by rw [ht, hts]; rfl, by simp [ht], by simp, hbefore, fun _ _ => by simp [hf, hts],
        fun _ => hts⟩
    | stops hes hts =>
      rw [running_append, running_append, hcancelled, running_aside hes] at ht
      refine ⟨by rw [ht, hts]; rfl, by simp [ht, running], by simp, hbefore, fun _ hno => ?_,
        fun _ => hts⟩
      simp [hstop] at hno
    | frees hes hf hold hts =>
      rw [running_aside hes] at ht
      refine ⟨by rw [ht, hts, h.timers, hold], by rw [ht]; exact h.asks, by simp, hbefore,
        fun _ _ => by simp [hf, hts], fun hst => ?_⟩
      rw [hstop, contains_stopSelf_false hes] at hst
      cases hst
    | starts hm hready hes hf hold hts =>
      have hknown : s.actor.instanceActor ≠ none := by
        cases m with
        | cannotGetExecutor | terminated | restApiRequest => exact hok hready hold
        | _ => exact hm.elim
      rw [running_append, running_aside hes, h.no_timers hold] at ht
      refine ⟨by rw [ht, hts]; rfl, by simpa [ht, running] using hknown, by simp, hbefore,
        fun _ _ => by simp [hf, hts], fun hst => ?_⟩
      have hmem : VmEffect.stopSelf ∈ _ := List.contains_iff_mem.mp (hstop.symm.trans hst)
      rcases List.mem_append.mp hmem with hmem | hmem
      · exact (hes _ hmem).elim
      · simp at hmem

theorem inv_step {es : List (VMProxyActor.Outside × VmMessage)}
    {e : VMProxyActor.Outside × VmMessage} (h : Inv es s) (hok : Known es s e)
    (hs : s.step e = some s') : Inv (es ++ [e]) s' := by
  obtain ⟨o, m⟩ := e
  obtain ⟨hok, hserved⟩ := hok
  simp only [step] at hs
  split at hs
  · rename_i hcond
    obtain ⟨hstopped, hr⟩ := hcond
    obtain rfl := Option.some.inj hs
    by_cases hi : m = .init
    · subst hi
      obtain rfl : es = [] := hok
      have hconf := h.first rfl
      obtain ⟨hnull, -, hconfig, -⟩ := h.before hconf
      refine ⟨h.timers, h.asks, by simp, fun _ => ⟨hnull, rfl, hconfig, fun _ => rfl⟩, fun hconf' => ?_,
        fun _ => hnull⟩
      simp [hconf] at hconf'
    · by_cases hc : ∃ config, m = .setVagrantEnvironmentConfig config
      · obtain ⟨config, rfl⟩ := hc
        obtain ⟨hne, hconf⟩ := hok
        obtain ⟨hnull, -, -, hfree⟩ := h.before hconf
        obtain ⟨version, heffects, hf, ht⟩ := receive_configuration hr hnull
        have htimers := h.no_timers hnull
        refine ⟨?_, ?_, by simp, fun hno => ?_, fun _ _ => ?_, fun hst => ?_⟩
        · dsimp only
          rw [heffects, ht, htimers]
          rfl
        · dsimp only
          rw [heffects, htimers]
          have hknown : s.actor.instanceActor ≠ none := hserved
          simpa [running] using hknown
        · simp at hno
        · dsimp only
          rw [hf, ht, hfree hne]
          simp
        · simp [heffects] at hst
      · push Not at hc
        have hne : es ≠ [] := by
          cases m with
          | init => exact absurd rfl hi
          | setVagrantEnvironmentConfig config => exact absurd rfl (hc config)
          | _ => exact hok
        refine h.other hi hc hne hserved hstopped hr rfl rfl ?_ rfl
        cases m with
        | setVagrantEnvironmentConfig config => exact absurd rfl (hc config)
        | _ => exact Bool.or_false _
  · cases hs

theorem inv_run {es : List (VMProxyActor.Outside × VmMessage)} (h : polling.Run Known es s) :
    Inv es s :=
  h.invariant inv_init fun _ _ _ _ h hok hs => inv_step h hok hs

/-- A `NoMoreTasks` that is handled after the configuration stops the
actor. -/
theorem stopped_of_noMoreTasks {o : VMProxyActor.Outside} (hok : s.Served .noMoreTasks)
    (hs : s.step (o, .noMoreTasks) = some s') (hc : s'.configured = true) :
    s'.stopped = true := by
  simp only [step] at hs
  split at hs
  · rename_i hcond
    obtain rfl := Option.some.inj hs
    have hready : s.actor.ready = true := hok (by simpa using hc)
    exact List.contains_iff_mem.mpr (receive_noMoreTasks hready hcond.2)
  · cases hs

end Polling

open Polling

/-- **The timer of a configured machine**, in the runs in which whoever is
to be asked is known: it is disciplined until the actor stops, none runs
when the actor has stopped, and `NoMoreTasks` stops it. -/
theorem timer_iff_free {es : List (VMProxyActor.Outside × VmMessage)} {s : Polling}
    (h : polling.Run Known es s) (hc : s.configured = true) :
    (s.stopped = false → s.Disciplined) ∧ (s.stopped = true → s.timers = []) ∧
    ∀ es' o, es = es' ++ [(o, .noMoreTasks)] → s.stopped = true ∧ s.timers = [] := by
  have hinv := inv_run h
  have hend : s.stopped = true → s.timers = [] := fun hst => hinv.no_timers (hinv.stopped hst)
  refine ⟨fun hst => ⟨?_, hinv.timers, hinv.asks⟩, hend, ?_⟩
  · rw [hinv.after hc hst, Option.isSome_iff_ne_none]
  · rintro es' o rfl
    obtain ⟨t, -, ⟨-, hserved⟩, hs⟩ := run_concat.mp h
    have hst : s.stopped = true := stopped_of_noMoreTasks hserved hs hc
    exact ⟨hst, hend hst⟩

/-- A machine without port forwardings, that accepts nothing from outside. -/
def noOutside : VMProxyActor.Outside where
  http := ⟨fun _ => none, fun _ => none, fun _ _ => false, fun _ _ => false, fun _ _ _ => none,
    fun _ => .error "", fun _ => none, fun _ => false⟩
  order := .alphabetical
  probe _ := .refused

/-- The actor is configured, takes a task and gives it back. -/
def taskTaken : List (VMProxyActor.Outside × VmMessage) :=
  [(noOutside, .init), (noOutside, .setVmActor (some 0)), (noOutside, .setInstanceActor (some 1)),
    (noOutside, .setVagrantEnvironmentConfig ⟨"1", []⟩), (noOutside, .sendTask),
    (noOutside, .terminated 2)]

theorem timer_iff_free_taskTaken :
    (∃ s, polling.Run Known taskTaken s ∧ s.timers = [(5, some 1)] ∧ s.Disciplined) ∧
      ∃ s, polling.Run Known (taskTaken ++ [(noOutside, .noMoreTasks)]) s ∧ s.timers = [] := by
  have hrun : ∃ s, polling.Run Known taskTaken s ∧
      (s.configured = true ∧ s.stopped = false ∧ s.timers = [(5, some 1)]) :=
    exists_run_of_execWhen (by decide)
  have hlast : ∃ s, polling.Run Known (taskTaken ++ [(noOutside, .noMoreTasks)]) s ∧
      s.configured = true := exists_run_of_execWhen (by decide)
  obtain ⟨s, hrun, hc, hst, ht⟩ := hrun
  obtain ⟨t, hlast, hc'⟩ := hlast
  exact ⟨⟨s, hrun, ht, (timer_iff_free hrun hc).1 hst⟩,
    t, hlast, ((timer_iff_free hlast hc').2.2 _ _ rfl).2⟩

/-- The configuration comes before the `InstanceActor`. -/
def configuredFirst : List (VMProxyActor.Outside × VmMessage) :=
  [(noOutside, .init), (noOutside, .setVmActor (some 0)),
    (noOutside, .setVagrantEnvironmentConfig ⟨"1", []⟩), (noOutside, .setInstanceActor (some 1))]

/-- **A machine can have a free slot, be ready, and ask nobody**: the only
timer it ever starts has no receiver. -/
theorem polls_nobody :
    (∃ s, polling.Run Once configuredFirst s ∧ s.configured = true ∧ s.stopped = false ∧
      s.actor.ready = true ∧ s.actor.haveSpaceForTasks = true ∧ s.timers = [(2, none)]) ∧
    ¬ ∀ es s, polling.Run Once es s → s.configured = true → s.stopped = false →
      s.Disciplined := by
  have hrun : ∃ s, polling.Run Once configuredFirst s ∧
      (s.configured = true ∧ s.stopped = false ∧ s.actor.ready = true ∧
        s.actor.haveSpaceForTasks = true ∧ s.timers = [(2, none)]) :=
    exists_run_of_execWhen (by decide)
  refine ⟨hrun, fun hall => ?_⟩
  obtain ⟨s, hrun, hc, hst, -, -, ht⟩ := hrun
  exact (hall _ s hrun hc hst).asks (2, none) (by rw [ht]; exact List.mem_singleton_self _) rfl

end Clustering.Vm
