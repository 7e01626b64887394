/-
Clustering.Handshake.VmSide — the handshake as one machine sees it.

`VmSide` keeps of a world the slot of machine `v`, its mailbox and the
executors it watches. `VmSide.Handles` lists what handling one message
can do to it, and which answers to a `SendTask` go out; `handleVm_spec`
proves the list complete from the paths through the handlers
(`VMProxyActor.receive_path`). Timers, port mappings and the rest of the
machine's fields do not occur any more.
-/
import Clustering.Handshake.Effects
import Clustering.Handshake.Numbered

namespace Clustering.Handshake

open Actors Clustering.Worker Clustering.Vm

structure VmSide where
  alive : Bool
  slot : VMProxyActor.Slot
  configured : Bool
  mailbox : List Envelope
  watching : List ℕ

def VmCell.side (c : VmCell) : VmSide :=
  ⟨c.alive, c.actor.slot, c.configured, c.mailbox, c.watching⟩

namespace VmSide

def setSlot (s : VmSide) (f : VMProxyActor.Slot → VMProxyActor.Slot) : VmSide :=
  { s with slot := f s.slot }

def post (s : VmSide) (m : Envelope) : VmSide := { s with mailbox := s.mailbox ++ [m] }

/-- What handling `m` does to the side of a machine, and the answers to
the sender, in a world `w` with the outside `o`. -/
inductive Handles (w : World) (mapping : PortMapping)
    (o : VMProxyActor.Outside) (m : Envelope) (s : VmSide) : VmSide → List Answer → Prop
  | keeps (hm : m.msg ≠ .sendTask)
      (hr : m.msg = .cannotGetExecutor ∨ (∃ e, m.msg = .terminated e) ∨
        (∃ e, m.msg = .executor e) → s.slot.ready = false)
      (hi : m.msg ≠ .init) : Handles w mapping o m s s []
  | init (hm : m.msg = .init) :
      Handles w mapping o m s (s.setSlot fun t => { t with ready := false, free := true }) []
  /-- The last of the three parts a machine needs has come. -/
  | getsReady (hm : ¬ VMProxyActor.Guarded m.msg) (hi : m.msg ≠ .init) (hc : s.slot.config = true) :
      Handles w mapping o m s (s.setSlot fun t => { t with ready := true }) []
  | configured {config : VagrantEnvironmentConfig} {ready : Bool}
      (hm : m.msg = .setVagrantEnvironmentConfig config)
      (hr : s.slot.ready = true → ready = true) :
      Handles w mapping o m s
        (s.setSlot fun t => { t with config := true, ready := ready }) []
  /-- The handler raised, and a new instance takes over. -/
  | restarts (hm : m.msg ≠ .sendTask) :
      Handles w mapping o m s ({ s with slot := ⟨false, false, false⟩ }.post ⟨none, .init⟩) []
  | answers {a : Answer} (hm : m.msg = .sendTask) (ha : a ≠ .acquireExecutor) :
      Handles w mapping o m s s [a]
  | accepts (hm : m.msg = .sendTask) (hr : s.slot.ready = true) (hf : s.slot.free = true) :
      Handles w mapping o m s (s.setSlot fun t => { t with free := false }) [.acquireExecutor]
  | stops (hm : m.msg = .noMoreTasks) : Handles w mapping o m s { s with alive := false } []
  | watches {e : ℕ} (hm : m.msg = .executor e) (hr : s.slot.ready = true)
      (he : (w.executor e).Live) :
      Handles w mapping o m s { s with watching := s.watching.insert e } []
  | watchesDead {e : ℕ} (hm : m.msg = .executor e) (hr : s.slot.ready = true)
      (he : ¬ (w.executor e).Live) :
      Handles w mapping o m s (s.post ⟨some (w.executor e).handshake, .terminated e⟩) []
  | frees (hr : s.slot.ready = true)
      (hm : m.msg = .cannotGetExecutor ∨ (∃ e, m.msg = .terminated e) ∨
        ∃ request, m.msg = .restApiRequest request ∧
          VMProxyActor.Completes o.http mapping request) :
      Handles w mapping o m s (s.setSlot fun t => { t with free := true }) []

end VmSide

namespace World

variable {w w' w₀ : World} {v : ℕ} {m : Envelope} {o : VMProxyActor.Outside} {s : VmSide}

/-- Nothing of machine `v` but its timers changes, and nothing outside
it. -/
structure Quiet (v : ℕ) (w w' : World) : Prop where
  actor : (w'.vm v).actor = (w.vm v).actor
  side : (w'.vm v).side = (w.vm v).side
  executor : ∀ e, w'.executor e = w.executor e
  replies : w'.replies = w.replies
  accepted : w'.accepted = w.accepted
  declined : w'.declined = w.declined

theorem Quiet.refl (v : ℕ) (w : World) : Quiet v w w :=
  ⟨rfl, rfl, fun _ => rfl, rfl, rfl, rfl⟩

theorem Quiet.trans {w'' : World} (h : Quiet v w w') (h' : Quiet v w' w'') : Quiet v w w'' :=
  ⟨h'.actor.trans h.actor, h'.side.trans h.side, fun e => (h'.executor e).trans (h.executor e),
    h'.replies.trans h.replies, h'.accepted.trans h.accepted, h'.declined.trans h.declined⟩

theorem quiet_performVm {ef : VmEffect}
    (h : VMProxyActor.Silent ef ∨ m.msg ≠ .sendTask ∧ ∃ a, ef = .reply a) :
    Quiet v w (performVm v m w ef) := by
  rcases h with h | ⟨hm, a, rfl⟩
  · cases ef with
    | reply => cases h
    | watch => cases h
    | stopSelf => cases h
    | schedule => constructor <;> simp [performVm, VmCell.side]
    | cancel => constructor <;> simp [performVm, VmCell.side]
    | _ => constructor <;> simp [performVm, VmCell.side]
  · simp only [performVm]
    split
    · exact absurd rfl hm
    · exact .refl v w

theorem quiet_foldl : ∀ (es : List VmEffect) {w : World},
    (∀ ef ∈ es, VMProxyActor.Silent ef ∨ m.msg ≠ .sendTask ∧ ∃ a, ef = .reply a) →
    Quiet v w (es.foldl (performVm v m) w)
  | [], w, _ => .refl v w
  | ef :: es, w, h =>
      (quiet_performVm (h ef (by simp))).trans
        (quiet_foldl es fun ef' hef' => h ef' (by simp [hef']))

/-- The answers to a `SendTask` that join the network. -/
def repliesTo (m : Envelope) (v : ℕ) (as : List Answer) : List Reply :=
  match m.about with
  | some h => as.map fun a => ⟨h, v, a⟩
  | none => []

/-- What a step of machine `v` on message `m` leaves: its side, and the
answers `as` on their way. -/
def Leaves (v : ℕ) (m : Envelope) (w w' : World) (s : VmSide) (as : List Answer) : Prop :=
  (w'.vm v).side = s ∧ w'.replies = w.replies ++ repliesTo m v as ∧
    w'.accepted = (if as = [.acquireExecutor] then
      (m.about.map fun h => (v, h)).toList else []) ++ w.accepted ∧
    w'.declined = w.declined

theorem leaves_quiet (h : Quiet v w w') : Leaves v m w w' (w.vm v).side [] := by
  refine ⟨h.side, ?_, h.accepted, h.declined⟩
  rw [h.replies]
  cases hm : m.about <;> simp [repliesTo, hm]

theorem Leaves.of_quiet {w₀ : World} {s : VmSide} {as : List Answer} (hq : Quiet v w₀ w)
    (h : Leaves v m w w' s as) : Leaves v m w₀ w' s as := by
  refine ⟨h.1, ?_, ?_, h.2.2.2.trans hq.declined⟩
  · rw [h.2.1, hq.replies]
  · rw [h.2.2.1, hq.accepted]

/-- The answer to a `SendTask` is sent last. -/
theorem leaves_reply {a : Answer} (hm : m.msg = .sendTask) :
    Leaves v m w (performVm v m w (.reply a)) (w.vm v).side [a] := by
  obtain ⟨about, msg⟩ := m
  obtain rfl : msg = .sendTask := hm
  cases about with
  | none => exact ⟨rfl, by simp [performVm, repliesTo], by simp [performVm], rfl⟩
  | some h =>
    refine ⟨rfl, rfl, ?_, rfl⟩
    by_cases ha : a = .acquireExecutor <;> simp [performVm, ha]

theorem side_assign (f : VMProxyActor) :
    ((w.updVm v fun c => { c with actor := f }).vm v).side =
      { (w.vm v).side with slot := f.slot } := by
  simp [VmCell.side]

theorem handleVm_ok {f : VMProxyActor} {es : List VmEffect}
    (h : VMProxyActor.receive w.next o m.msg (w.vm v).actor = ⟨f, es, .ok ()⟩) :
    w.handleVm v o m =
      es.foldl (performVm v m) (w.updVm v fun c => { c with actor := f }) := by
  simp only [handleVm, h]
  rfl

theorem handleVm_error {f : VMProxyActor} {es : List VmEffect} {x : Throwable}
    (h : VMProxyActor.receive w.next o m.msg (w.vm v).actor = ⟨f, es, .error x⟩) :
    w.handleVm v o m =
      (es.foldl (performVm v m) (w.updVm v fun c => { c with actor := f })).restartVm v := by
  simp only [handleVm, h]
  rfl

theorem leaves_stop :
    Leaves v m w (performVm v m w .stopSelf) { (w.vm v).side with alive := false } [] := by
  refine ⟨by simp [performVm, VmCell.side], ?_, rfl, rfl⟩
  cases hm : m.about <;> simp [performVm, repliesTo, hm]

theorem leaves_watch {e : ℕ} :
    Leaves v m w (performVm v m w (.watch e)) (if (w.executor e).Live then
      { (w.vm v).side with watching := (w.vm v).side.watching.insert e }
      else (w.vm v).side.post ⟨some (w.executor e).handshake, .terminated e⟩) [] := by
  have hnil : repliesTo m v [] = [] := by
    cases hm : m.about <;> simp [repliesTo, hm]
  by_cases he : (w.executor e).Live
  · refine ⟨?_, ?_, ?_, ?_⟩ <;> simp [performVm, he, VmCell.side, hnil]
  · refine ⟨?_, ?_, ?_, ?_⟩ <;> simp [performVm, he, VmCell.side, hnil, toVm, VmSide.post]

theorem leaves_restart (h : Leaves v m w₀ w s []) :
    Leaves v m w₀ (w.restartVm v) ({ s with slot := ⟨false, false, false⟩ }.post ⟨none, .init⟩)
      [] := by
  obtain ⟨hs, hr, ha, hd⟩ := h
  subst hs
  refine ⟨?_, hr, ha, hd⟩
  simp [restartVm, VmCell.side, VmSide.post, VMProxyActor.new, VMProxyActor.slot]

/-- **What handling a message does**, to the machine and to the
network. -/
theorem handleVm_spec (v : ℕ) (o : VMProxyActor.Outside) (m : Envelope) (w : World) :
    ∃ s as, VmSide.Handles w (w.vm v).actor.portMapping o m (w.vm v).side s as ∧
      Leaves v m w (w.handleVm v o m) s as := by
  have hpath := VMProxyActor.receive_path (w.vm v).actor w.next o m.msg
  rcases hout : VMProxyActor.receive w.next o m.msg (w.vm v).actor with ⟨f, es, r⟩
  rw [hout] at hpath
  obtain ⟨msg, hmsg⟩ : ∃ msg, m.msg = msg := ⟨_, rfl⟩
  rw [hmsg] at hpath
  -- the world with the fields assigned, before the effects
  obtain ⟨w₁, hw₁⟩ : ∃ w₁, w₁ = w.updVm v fun c => { c with actor := f } := ⟨_, rfl⟩
  have hside : (w₁.vm v).side = { (w.vm v).side with slot := f.slot } := by
    rw [hw₁, side_assign]
  have hto : ∀ {w' : World} {s : VmSide} {as : List Answer},
      Leaves v m w₁ w' s as → Leaves v m w w' s as := by
    intro w' s as h
    rw [hw₁] at h
    exact h
  have hlive : ∀ e, w₁.executor e = w.executor e := by
    intro e
    rw [hw₁]
    rfl
  cases r with
  | error x =>
    rw [handleVm_error hout, ← hw₁]
    change VMProxyActor.Path _ o msg f.slot es true at hpath
    generalize f.slot = sl at hpath hside
    cases hpath with
    | raises hes hm =>
      have hmt : m.msg ≠ .sendTask := by
        rw [hmsg]
        exact hm
      refine ⟨_, [], .restarts hmt, ?_⟩
      have hq := quiet_foldl (v := v) (m := m) (w := w₁) es
        fun ef hef => (hes ef hef).imp_right fun h => ⟨hmt, h⟩
      have hl := leaves_restart (hto (leaves_quiet (m := m) hq))
      rw [hside] at hl
      exact hl
  | ok u =>
    cases u
    rw [handleVm_ok hout, ← hw₁]
    change VMProxyActor.Path _ o msg f.slot es false at hpath
    have hquiet : (∀ ef ∈ es, VMProxyActor.Silent ef ∨ m.msg ≠ .sendTask ∧ ∃ a, ef = .reply a) →
        Leaves v m w (es.foldl (performVm v m) w₁) { (w.vm v).side with slot := f.slot } [] := by
      intro hes
      have hl := hto (leaves_quiet (m := m) (quiet_foldl (v := v) (w := w₁) es hes))
      rw [hside] at hl
      exact hl
    generalize f.slot = sl at hpath hside hquiet
    cases hpath with
    | init hes => exact ⟨_, [], .init hmsg, hquiet fun ef hef => .inl (hes ef hef)⟩
    | set hm hi =>
      rw [← hmsg] at hm hi
      refine ⟨_, [], .keeps ?_ ?_ hi, hquiet (by simp)⟩
      · intro h
        simp [h, VMProxyActor.Guarded] at hm
      · rintro (h | ⟨e, h⟩ | ⟨e, h⟩) <;> simp [h, VMProxyActor.Guarded] at hm
    | getsReady hm hi hc =>
      rw [← hmsg] at hm hi
      exact ⟨_, [], .getsReady hm hi hc, hquiet (by simp)⟩
    | configured hr hes =>
      exact ⟨_, [], .configured hmsg hr, hquiet fun ef hef => .inl (hes ef hef)⟩
    | retry =>
      exact ⟨_, [], .keeps (by simp [hmsg]) (by simp [hmsg]) (by simp [hmsg]),
        hquiet (by simp [VMProxyActor.Silent])⟩
    | notReady hm hr =>
      by_cases hst : m.msg = .sendTask
      · refine ⟨_, [.notReadyJet], .answers hst (by simp), hto ?_⟩
        have hl := leaves_reply (v := v) (w := w₁) (a := .notReadyJet) hst
        rw [hside] at hl
        exact hl
      · refine ⟨_, [], .keeps hst (fun _ => hr) ?_, hquiet (by simp [hst])⟩
        intro hi
        rw [← hmsg, hi] at hm
        exact hm
    | accept hr hs hes =>
      refine ⟨_, [.acquireExecutor], .accepts hmsg hr hs, hto ?_⟩
      have hq := quiet_foldl (v := v) (m := m) (w := w₁) _ fun ef hef => .inl (hes ef hef)
      rw [List.foldl_append]
      have hl := (leaves_reply (v := v) (a := .acquireExecutor) hmsg).of_quiet hq
      rw [hq.side, hside] at hl
      exact hl
    | reject hr hs hes =>
      refine ⟨_, [.failure "no more tasks!"], .answers hmsg (by simp), hto ?_⟩
      have hq := quiet_foldl (v := v) (m := m) (w := w₁) _ fun ef hef => .inl (hes ef hef)
      rw [List.foldl_append]
      have hl := (leaves_reply (v := v) (a := .failure "no more tasks!") hmsg).of_quiet hq
      rw [hq.side, hside] at hl
      exact hl
    | stop hr hes =>
      refine ⟨_, [], .stops hmsg, hto ?_⟩
      have hq := quiet_foldl (v := v) (m := m) (w := w₁) _ fun ef hef => .inl (hes ef hef)
      rw [List.foldl_append]
      have hl := (leaves_stop (v := v) (m := m)).of_quiet hq
      rw [hq.side, hside] at hl
      exact hl
    | @executor e hr =>
      have hl := hto (leaves_watch (v := v) (m := m) (w := w₁) (e := e))
      rw [hlive, hside] at hl
      by_cases he : (w.executor e).Live
      · rw [if_pos he] at hl
        exact ⟨_, [], .watches hmsg hr he, hl⟩
      · rw [if_neg he] at hl
        exact ⟨_, [], .watchesDead hmsg hr he, hl⟩
    | release hr hm hes =>
      have hst : m.msg ≠ .sendTask := by
        rw [hmsg]
        rcases hm with rfl | ⟨e, rfl⟩ | ⟨request, rfl, -⟩ <;> simp
      refine ⟨_, [], .frees hr ?_, hquiet fun ef hef => (hes ef hef).imp_right fun h => ⟨hst, h⟩⟩
      rw [hmsg]
      exact hm
    | stillAlive hr =>
      exact ⟨_, [], .keeps (by simp [hmsg]) (by simp [hmsg]) (by simp [hmsg]),
        hquiet (by simp [hmsg])⟩

/-! ## Answers come from machines that are alive -/

variable {e : Event}

theorem noteDeclined_eq (v : ℕ) (m : Envelope) :
    ∃ d, w.noteDeclined v m = { w with declined := d } ∧ (∀ x ∈ w.declined, x ∈ d) ∧
      ∀ x, m = ⟨some x, .cannotGetExecutor⟩ → (w.vm v).actor.ready = true → x ∈ d := by
  unfold noteDeclined
  split
  · rename_i x
    split
    · refine ⟨_, rfl, fun _ hx => List.mem_cons_of_mem _ hx, ?_⟩
      intro y hy _
      obtain rfl : x = y := by simpa using hy
      exact List.mem_cons_self
    · rename_i hr
      exact ⟨_, rfl, fun _ hx => hx, fun _ _ hr' => absurd hr' hr⟩
  · rename_i hne
    exact ⟨_, rfl, fun _ hx => hx, fun x hx _ => absurd hx (hne x)⟩

theorem handleVm_replies {v : ℕ} {o : VMProxyActor.Outside} {m : Envelope} :
    ∀ r ∈ (w.handleVm v o m).replies, r ∈ w.replies ∨ r.vm = v := by
  obtain ⟨s, as, -, -, hreplies, -, -⟩ := handleVm_spec v o m w
  intro r hr
  rw [hreplies] at hr
  refine (List.mem_append.mp hr).imp_right ?_
  intro hr
  unfold repliesTo at hr
  split at hr
  · obtain ⟨b, -, rfl⟩ := List.mem_map.mp hr
    rfl
  · simp at hr

/-- What a machine answers is its own answer. -/
theorem Moves.answers (hm : w.Moves e w') {v : ℕ} (he : e.machine = some v) :
    (w.vm v).alive = true ∧ ∀ r ∈ w'.replies, r ∈ w.replies ∨ r.vm = v := by
  cases hm with
  | vmTakes hv hmem =>
    obtain rfl := Option.some.inj he
    refine ⟨hv, ?_⟩
    intro r hr
    refine (handleVm_replies r hr).imp_left ?_
    intro hr
    unfold World.noteDeclined at hr
    split at hr
    · split at hr <;> exact hr
    · exact hr
  | vmInput hv ho =>
    obtain rfl := Option.some.inj he
    exact ⟨hv, handleVm_replies⟩
  | configure hv hc hi =>
    obtain rfl := Option.some.inj he
    refine ⟨hv, fun r hr => ?_⟩
    exact handleVm_replies (w := w.updVm _ fun c => { c with configured := true }) r hr
  | vmDies hv =>
    obtain rfl := Option.some.inj he
    exact ⟨hv, fun r hr => .inl hr⟩
  | _ => cases he

/-- A machine that is gone stays gone, and no answer of it is new. -/
theorem Moves.dead (hm : w.Moves e w') {v : ℕ} (hv : (w.vm v).alive = false) :
    (w'.vm v).alive = false ∧ ∀ r ∈ w'.replies, r.vm = v → r ∈ w.replies := by
  cases he : e.machine with
  | none =>
    have hc := hm.calm he
    exact ⟨(hc.alive v).trans hv, fun r hr _ => hc.replies r hr⟩
  | some u =>
    obtain ⟨hu, hans⟩ := hm.answers he
    have hvu : v ≠ u := by
      rintro rfl
      simp [hu] at hv
    rw [(hm.vmFrame he).others v hvu]
    exact ⟨hv, fun r hr hrv => (hans r hr).resolve_right fun h => hvu (hrv.symm.trans h)⟩

/-- A new `SendTask` ask has an unused number. -/
theorem Moves.newAsk (hm : w.Moves e w') {b : Ask} (hb : b ∈ w'.asks) {v : ℕ}
    (hk : b.kind = .sendTask v) : b ∈ w.asks ∨ w.next ≤ b.handshake := by
  cases he : e.machine with
  | none => exact (hm.calm he).offers b hb v hk
  | some u =>
    rw [(hm.vmFrame he).asks] at hb
    exact .inl hb

end World

end Clustering.Handshake
