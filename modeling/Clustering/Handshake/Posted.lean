/-
Clustering.Handshake.Posted — what is on its way to a machine.

The messages of a handshake carry its number, and the executor they name
belongs to that handshake. `Posted` says so of every mailbox, and that
no number on its way is still unused: the reply to an old ask can not be
taken for the reply to a new one.
-/
import Clustering.Handshake.VmSide

namespace Clustering.Handshake

open Actors Clustering.Worker Clustering.Vm

namespace World

variable {w w' : World} {t v : ℕ}

/-- Message `m` names its handshake and, if it is about an executor, one
of that handshake. -/
def Names (w : World) (m : Envelope) : Prop :=
  match m.msg with
  | .sendTask | .cannotGetExecutor => m.about ≠ none
  | .executor e => (w.executor e).phase ≠ .absent ∧ m.about = some (w.executor e).handshake
  | .terminated e => (w.executor e).phase = .dead ∧ m.about = some (w.executor e).handshake
  | .init => m.about = none
  | .stillAlive => True
  | _ => False

structure Posted (w : World) : Prop where
  replies : ∀ r ∈ w.replies, r.handshake < w.next
  about : ∀ v, ∀ m ∈ (w.vm v).mailbox, ∀ h, m.about = some h → h < w.next
  executor : ∀ e, (w.executor e).phase ≠ .absent → (w.executor e).handshake < w.next
  names : ∀ v, ∀ m ∈ (w.vm v).mailbox, w.Names m
  watching : ∀ v, ∀ e ∈ (w.vm v).watching, (w.executor e).Live

theorem posted_init : init.Posted := by
  constructor
  · simp [init]
  · intro v m hm h hh
    obtain rfl : m = ⟨none, .init⟩ := by simpa [init] using hm
    cases hh
  · simp [init]
  · intro v m hm
    obtain rfl : m = ⟨none, .init⟩ := by simpa [init] using hm
    rfl
  · simp [init]

/-- Executors keep what messages say about them. -/
def SameExecutors (w w' : World) : Prop :=
  ∀ e, (w.executor e).phase ≠ .absent →
    (w'.executor e).handshake = (w.executor e).handshake ∧
    (w'.executor e).phase ≠ .absent ∧
    ((w.executor e).phase = .dead → (w'.executor e).phase = .dead)

theorem SameExecutors.refl (w : World) : SameExecutors w w := fun _ he => ⟨rfl, he, id⟩

theorem sameExecutors_of_eq (h : w'.executor = w.executor) : SameExecutors w w' := by
  intro e he
  rw [h]
  exact ⟨rfl, he, id⟩

theorem Names.mono {m : Envelope} (h : SameExecutors w w') (hm : w.Names m) : w'.Names m := by
  obtain ⟨about, msg⟩ := m
  cases msg with
  | executor e =>
    show (w'.executor e).phase ≠ .absent ∧ about = some (w'.executor e).handshake
    rw [(h e hm.1).1]
    exact ⟨(h e hm.1).2.1, hm.2⟩
  | terminated e =>
    have hp : (w.executor e).phase ≠ .absent := by simp [show _ = _ from hm.1]
    show (w'.executor e).phase = .dead ∧ about = some (w'.executor e).handshake
    rw [(h e hp).1]
    exact ⟨(h e hp).2.2 hm.1, hm.2⟩
  | _ => exact hm

/-- A step after which less is on its way, but for `ms v` to machine
`v`. -/
theorem Posted.step (h : w.Posted) (ms : ℕ → List Envelope)
    (hr : ∀ r ∈ w'.replies, r ∈ w.replies ∨ r.handshake < w'.next)
    (hn : w.next ≤ w'.next)
    (hx : SameExecutors w w')
    (hxn : ∀ e, (w'.executor e).phase ≠ .absent → (w.executor e).phase = .absent →
      (w'.executor e).handshake < w'.next)
    (hm : ∀ v, ∀ m ∈ (w'.vm v).mailbox, m ∈ (w.vm v).mailbox ∨ m ∈ ms v)
    (hms : ∀ v, ∀ m ∈ ms v, w'.Names m ∧ ∀ x, m.about = some x → x < w'.next)
    (hw : ∀ v, ∀ e ∈ (w'.vm v).watching,
      e ∈ (w.vm v).watching ∧ ((w.executor e).Live → (w'.executor e).Live) ∨
        (w'.executor e).Live) :
    w'.Posted := by
  constructor
  · intro r hr'
    rcases hr r hr' with h' | h'
    · exact Nat.lt_of_lt_of_le (h.replies r h') hn
    · exact h'
  · intro v m hm' x hx'
    rcases hm v m hm' with h' | h'
    · exact Nat.lt_of_lt_of_le (h.about v m h' x hx') hn
    · exact (hms v m h').2 x hx'
  · intro e he
    by_cases he' : (w.executor e).phase = .absent
    · exact hxn e he he'
    · rw [(hx e he').1]
      exact Nat.lt_of_lt_of_le (h.executor e he') hn
  · intro v m hm'
    rcases hm v m hm' with h' | h'
    · exact (h.names v m h').mono hx
    · exact (hms v m h').1
  · intro v e he
    rcases hw v e he with ⟨h', hl⟩ | h'
    · exact hl (h.watching v e h')
    · exact h'

/-- A step that posts nothing and touches no executor. -/
theorem Posted.same (h : w.Posted) (hr : ∀ r ∈ w'.replies, r ∈ w.replies)
    (hn : w.next ≤ w'.next) (hx : w'.executor = w.executor)
    (hm : ∀ v, ∀ m ∈ (w'.vm v).mailbox, m ∈ (w.vm v).mailbox)
    (hw : ∀ v, (w'.vm v).watching = (w.vm v).watching) : w'.Posted := by
  refine h.step (fun _ => []) (fun r hr' => .inl (hr r hr')) hn (sameExecutors_of_eq hx) ?_
    (fun v m hm' => .inl (hm v m hm')) (by simp) ?_
  · intro e he hne
    rw [hx] at he
    exact absurd hne he
  · intro v e he
    rw [hw] at he
    rw [hx]
    exact .inl ⟨he, id⟩

/-- Executors change without a new one and without a death. -/
theorem Posted.updExecutor {e : ℕ} {f : ExecutorCell → ExecutorCell} (h : w.Posted)
    (hh : (f (w.executor e)).handshake = (w.executor e).handshake)
    (hl : (w.executor e).Live → (f (w.executor e)).Live) (hp : (w.executor e).Live) :
    (w.updExecutor e f).Posted := by
  refine h.step (fun _ => []) (fun r hr => .inl hr) (Nat.le_refl _) ?_ ?_
    (fun v m hm => .inl hm) (by simp) ?_
  · intro x hx
    by_cases hxe : x = e
    · subst hxe
      simp only [updExecutor_executor, Function.update_self]
      exact ⟨hh, (hl hp).1, fun hd => absurd hd hp.2⟩
    · simp [hxe, hx]
  · intro x hx hne
    by_cases hxe : x = e
    · subst hxe
      exact absurd hne hp.1
    · simp only [updExecutor_executor, Function.update_of_ne hxe] at hx
      exact absurd hne hx
  · intro v x hx
    refine .inl ⟨hx, ?_⟩
    by_cases hxe : x = e
    · subst hxe
      simpa using hl
    · simp [hxe]

theorem Posted.act {h : ℕ} {a : TaskActor} {es : List TaskEffect} (hw : w.Posted)
    (hes : ∀ ef ∈ es, NoOffer ef ∧ ∀ x, ef ≠ .createExecutor x)
    (hms : ∀ v, ∀ m ∈ es.flatMap (posts h v), w.Names m ∧ ∀ x, m.about = some x → x < w.next) :
    (w.act t h a es).Posted := by
  have hu : Untouched w (w.act t h a es) := act_untouched
  have hvm := fun v => act_vm (w := w) (t := t) (h := h) (a := a) (fun ef hef => (hes ef hef).1) v
  have hx : ∀ e, ((w.act t h a es).executor e).handshake = (w.executor e).handshake ∧
      ((w.act t h a es).executor e).phase = (w.executor e).phase := by
    intro e
    rw [act_executor]
    exact (foldl_writes_same es fun ef hef => (hes ef hef).2).2
  have hsame : SameExecutors w (w.act t h a es) := by
    intro e he
    rw [(hx e).1, (hx e).2]
    exact ⟨rfl, he, id⟩
  refine hw.step (fun v => es.flatMap (posts h v)) ?_ hu.next hsame ?_ ?_ ?_ ?_
  · intro r hr
    rw [hu.replies] at hr
    exact .inl hr
  · intro e he hne
    rw [(hx e).2] at he
    exact absurd hne he
  · intro v m hm
    rw [hvm] at hm
    exact List.mem_append.mp hm
  · intro v m hm
    exact ⟨(hms v m hm).1.mono hsame,
      fun x hx' => Nat.lt_of_lt_of_le ((hms v m hm).2 x hx') hu.next⟩
  · intro v e he
    rw [hvm] at he
    refine .inl ⟨he, ?_⟩
    unfold ExecutorCell.Live
    rw [(hx e).2]
    exact id

/-- Executor `e` is created, for handshake `h`. -/
theorem Posted.newExecutor {h e : ℕ} {a : TaskActor} {es : List TaskEffect} (hw : w.Posted)
    (habs : (w.executor e).phase = .absent) (hh : h < w.next) (hes : ∀ ef ∈ es, NoOffer ef)
    (hx : ∀ x, x ≠ e → es.foldl (writes t h x) (w.executor x) = w.executor x)
    (he : (es.foldl (writes t h e) (w.executor e)).Live ∧
      (es.foldl (writes t h e) (w.executor e)).handshake = h)
    (hms : ∀ v, ∀ m ∈ es.flatMap (posts h v), m = ⟨some h, .executor e⟩) :
    (w.act t h a es).Posted := by
  have hu : Untouched w (w.act t h a es) := act_untouched
  have hvm := fun v => act_vm (w := w) (t := t) (h := h) (a := a) hes v
  refine hw.step (fun v => es.flatMap (posts h v)) ?_ hu.next ?_ ?_ ?_ ?_ ?_
  · intro r hr
    rw [hu.replies] at hr
    exact .inl hr
  · intro x hxp
    rw [act_executor, hx x fun hxe => hxp (hxe ▸ habs)]
    exact ⟨rfl, hxp, id⟩
  · intro x hxp hxa
    rw [act_executor] at hxp ⊢
    by_cases hxe : x = e
    · subst hxe
      rw [he.2]
      exact Nat.lt_of_lt_of_le hh hu.next
    · rw [hx x hxe] at hxp
      exact absurd hxa hxp
  · intro v m hm
    rw [hvm] at hm
    exact List.mem_append.mp hm
  · intro v m hm
    obtain rfl := hms v m hm
    refine ⟨?_, ?_⟩
    · show ((w.act t h a es).executor e).phase ≠ .absent ∧
        some h = some ((w.act t h a es).executor e).handshake
      rw [act_executor, he.2]
      exact ⟨he.1.1, rfl⟩
    · rintro x ⟨⟩
      exact Nat.lt_of_lt_of_le hh hu.next
  · intro v x hx'
    rw [hvm] at hx'
    rw [act_executor]
    refine .inl ⟨hx', fun hl => ?_⟩
    rw [hx x fun hxe => hl.1 (hxe ▸ habs)]
    exact hl

/-- A machine handles a message. -/
theorem Posted.handleVm {o : VMProxyActor.Outside} {m : Envelope} (h : w.Posted)
    (ha : ∀ x, m.about = some x → x < w.next)
    (he : ∀ e, m.msg = .executor e → (w.executor e).phase ≠ .absent) :
    (w.handleVm v o m).Posted := by
  obtain ⟨s, as, hs, hside, hreplies, -, -⟩ := handleVm_spec v o m w
  have hf := handleVm_frame v o m w
  have hmail : ((w.handleVm v o m).vm v).mailbox = s.mailbox := congrArg VmSide.mailbox hside
  have hwatch : ((w.handleVm v o m).vm v).watching = s.watching := congrArg VmSide.watching hside
  -- what the machine sends itself, and whom it watches
  have hnew : (∀ x ∈ s.mailbox, x ∈ (w.vm v).mailbox ∨ w.Names x ∧
        ∀ y, x.about = some y → y < w.next) ∧
      ∀ x ∈ s.watching, x ∈ (w.vm v).watching ∨ (w.executor x).Live := by
    cases hs with
    | restarts hm =>
      refine ⟨?_, fun x hx => .inl hx⟩
      intro x hx
      rcases List.mem_append.mp hx with hx | hx
      · exact .inl hx
      · obtain rfl := List.mem_singleton.mp hx
        exact .inr ⟨rfl, by simp⟩
    | @watches e hm hr hl =>
      refine ⟨fun x hx => .inl hx, ?_⟩
      intro x hx
      rcases List.mem_insert_iff.mp hx with rfl | hx
      · exact .inr hl
      · exact .inl hx
    | @watchesDead e hm hr hl =>
      refine ⟨?_, fun x hx => .inl hx⟩
      intro x hx
      rcases List.mem_append.mp hx with hx | hx
      · exact .inl hx
      · obtain rfl := List.mem_singleton.mp hx
        have hp := he e hm
        have hd : (w.executor e).phase = .dead := by
          by_contra hd
          exact hl ⟨hp, hd⟩
        refine .inr ⟨⟨hd, rfl⟩, ?_⟩
        rintro y ⟨⟩
        exact h.executor e hp
    | _ => exact ⟨fun x hx => .inl hx, fun x hx => .inl hx⟩
  refine h.step (fun u => if u = v then s.mailbox.filter (· ∉ (w.vm v).mailbox) else [])
    ?_ hf.next (sameExecutors_of_eq hf.executor) ?_ ?_ ?_ ?_
  · intro r hr
    rw [hreplies] at hr
    rcases List.mem_append.mp hr with hr | hr
    · exact .inl hr
    · unfold repliesTo at hr
      split at hr
      · rename_i x hx
        obtain ⟨b, -, rfl⟩ := List.mem_map.mp hr
        exact .inr (Nat.lt_of_lt_of_le (ha x hx) hf.next)
      · simp at hr
  · intro e hp hne
    rw [hf.executor] at hp
    exact absurd hne hp
  · intro u x hx
    by_cases hu : u = v
    · subst hu
      rw [hmail] at hx
      by_cases hold : x ∈ (w.vm u).mailbox
      · exact .inl hold
      · exact .inr (by simp [hx, hold])
    · rw [hf.others u hu] at hx
      exact .inl hx
  · intro u x hx
    by_cases hu : u = v
    · subst hu
      rw [if_pos rfl, List.mem_filter] at hx
      obtain ⟨hnames, habout⟩ := (hnew.1 x hx.1).resolve_left (by simpa using hx.2)
      exact ⟨hnames.mono (sameExecutors_of_eq hf.executor),
        fun y hy => Nat.lt_of_lt_of_le (habout y hy) hf.next⟩
    · rw [if_neg hu] at hx
      simp at hx
  · intro u x hx
    rw [hf.executor]
    by_cases hu : u = v
    · subst hu
      rw [hwatch] at hx
      exact (hnew.2 x hx).imp_left fun hx' => ⟨hx', id⟩
    · rw [hf.others u hu] at hx
      exact .inl ⟨hx, id⟩

theorem Posted.dropReply {r : Reply} (h : w.Posted) : (w.dropReply r).Posted :=
  h.same (fun _ hr => List.mem_of_mem_erase hr) (Nat.le_refl _) rfl (fun _ _ hm => hm)
    fun _ => rfl

theorem Posted.dropAsk {a : Ask} (h : w.Posted) : (w.dropAsk a).Posted :=
  h.same (fun _ hr => hr) (Nat.le_refl _) rfl (fun _ _ hm => hm) fun _ => rfl

theorem Posted.updTask {f : TaskCell → TaskCell} (h : w.Posted) : (w.updTask t f).Posted :=
  h.same (fun _ hr => hr) (Nat.le_refl _) rfl (fun _ _ hm => hm) fun _ => rfl

theorem Posted.judge {e : ℕ} {b : Bool} {x : Throwable} (h : w.Posted)
    (hx : (w.executor e).phase = .threw x) : (w.judge e b).Posted :=
  h.updExecutor rfl (by simp [ExecutorCell.Live]) (by simp [ExecutorCell.Live, hx])

theorem Posted.stopTask (h : w.Posted) : (w.stopTask t).Posted :=
  (show (w.act t 0 (w.task t).actor [.stopSelf]).Posted from
    Posted.act h (by simp [NoOffer]) (by simp [posts])).same (fun _ hr => hr) (Nat.le_refl _)
      (by simp [World.act, perform, setActor_self]) (fun _ _ hm => by
        simpa [World.act, perform, setActor_self] using hm)
      (by simp [World.act, perform, setActor_self])

/-- Only the machines' messages and the executors count. -/
theorem Posted.offer {u : ℕ} {a : TaskActor} (h : w.Posted) :
    (w.act t w.next a [.askSendTask u]).Posted := by
  rw [act_offer]
  refine h.step (fun v => if v = u then [⟨some w.next, .sendTask⟩] else [])
    (fun r hr => .inl hr) (Nat.le_succ _) (sameExecutors_of_eq rfl)
    (fun e he hne => absurd hne he) ?_ ?_ ?_
  · intro v m hm
    by_cases hv : v = u
    · subst hv
      simpa [toVm, setActor] using hm
    · simp [toVm, setActor, hv] at hm
      exact .inl hm
  · intro v m hm
    split at hm
    · obtain rfl := List.mem_singleton.mp hm
      refine ⟨by simp [Names], ?_⟩
      rintro x ⟨⟩
      exact Nat.lt_succ_self _
    · simp at hm
  · intro v e he
    by_cases hv : v = u
    · subst hv
      exact .inl ⟨by simpa [toVm, setActor] using he, id⟩
    · simp [toVm, setActor, hv] at he
      exact .inl ⟨he, id⟩

/-- An executor terminates, and the machines that watch it are told. -/
theorem Posted.killExecutor {e : ℕ} (h : w.Posted) (he : (w.executor e).Live) :
    (w.killExecutor e).Posted := by
  have hx : ∀ x, x ≠ e → (w.killExecutor e).executor x = w.executor x := by
    intro x hxe
    simp [hxe]
  refine h.step (fun _ => [⟨some (w.executor e).handshake, .terminated e⟩])
    (fun r hr => .inl hr) (Nat.le_refl _) ?_ ?_ ?_ ?_ ?_
  · intro x hxp
    by_cases hxe : x = e
    · subst hxe
      simp [ExecutorCell.die]
    · rw [hx x hxe]
      exact ⟨rfl, hxp, id⟩
  · intro x hxp hne
    by_cases hxe : x = e
    · subst hxe
      exact absurd hne he.1
    · rw [hx x hxe] at hxp
      exact absurd hne hxp
  · intro v m hm
    rw [killExecutor_vm] at hm
    unfold VmCell.notify at hm
    split at hm
    · exact List.mem_append.mp hm
    · exact .inl hm
  · intro v m hm
    obtain rfl := List.mem_singleton.mp hm
    refine ⟨by simp [Names, ExecutorCell.die], ?_⟩
    rintro x ⟨⟩
    exact h.executor e he.1
  · intro v x hx'
    rw [killExecutor_vm] at hx'
    by_cases hxe : x = e
    · subst hxe
      unfold VmCell.notify at hx'
      split at hx'
      · simp at hx'
      · rename_i hno
        exact absurd hx' hno
    · rw [hx x hxe]
      refine .inl ⟨?_, id⟩
      unfold VmCell.notify at hx'
      split at hx'
      · exact List.mem_of_mem_filter hx'
      · exact hx'

theorem Posted.askStillAlive {h u : ℕ} {a : TaskActor} (hw : w.Posted) :
    (w.act t h a [.tellVm u .stillAlive]).Posted := by
  refine hw.act (by simp [NoOffer]) ?_
  intro v m hm
  simp only [List.flatMap_cons, posts, List.flatMap_nil, List.append_nil] at hm
  split at hm
  · obtain rfl := List.mem_singleton.mp hm
    exact ⟨trivial, by simp [envelope]⟩
  · simp at hm

/-- Machine `v` changes, and nothing joins its mailbox. -/
theorem Posted.updVm {f : VmCell → VmCell} (h : w.Posted)
    (hm : ∀ m ∈ (f (w.vm v)).mailbox, m ∈ (w.vm v).mailbox)
    (hw : (f (w.vm v)).watching = (w.vm v).watching) : (w.updVm v f).Posted := by
  refine h.same (fun _ hr => hr) (Nat.le_refl _) rfl ?_ ?_
  · intro u x hx
    by_cases hu : u = v
    · subst hu
      simp only [updVm_vm, Function.update_self] at hx
      exact hm x hx
    · simpa [hu] using hx
  · intro u
    by_cases hu : u = v
    · subst hu
      simpa using hw
    · simp [hu]

theorem posted_step {e : Event} (hn : w.Numbered) (h : w.Posted) (hm : w.Moves e w') :
    w'.Posted := by
  have habs : (w.executor w.next).phase = .absent := hn.executors _ (Nat.le_refl _)
  have hask : ∀ {a : Ask}, a ∈ w.asks → a.handshake < w.next := fun ha => (hn.asks _ ha).1
  cases hm with
  | create hp => exact h.updTask
  | getTaskTaken hp ht => exact h
  | getTask hp ht => exact h.offer
  | persistAndSuicide hp => exact h.act (by simp [NoOffer]) (by simp [posts])
  | terminatedDone hp hr hd =>
    exact Posted.act (w := w.takeNotice _ _) h.updTask (by simp [NoOffer]) (by simp [posts])
  | terminatedTarget hp hr hd hv hx =>
    exact Posted.act (w := w.takeNotice _ _) h.updTask (by simp [NoOffer]) (by simp [posts])
  | terminatedNull hp hr hd hn =>
    exact (Posted.act (w := w.takeNotice _ _) h.updTask (by simp) (by simp)).updTask
  | terminatedOther hp hr hd hv hne =>
    exact Posted.act (w := w.takeNotice _ _) h.updTask (by simp [NoOffer]) (by simp [posts])
  | stop ha hs => exact h.stopTask
  | lateReply hr hn => exact h.dropReply
  | acquireRemote hr ha hh hk hq hc hl =>
    exact h.dropReply.dropAsk.act (by simp [NoOffer]) (by simp [posts])
  | acquireLocal hr ha hh hk hq hp hl =>
    refine h.dropReply.dropAsk.newExecutor (e := w.next) habs (hask ha) (by simp [NoOffer]) ?_ ?_ ?_
    · intro x hx
      simp [writes, hx.symm]
    · simp [writes, ExecutorCell.Live]
    · intro v m hm
      simp only [List.flatMap_cons, posts, List.flatMap_nil, List.nil_append, List.append_nil] at hm
      split at hm
      · exact List.mem_singleton.mp hm
      · simp at hm
  | acquireTerminating hr ha hh hk hq hp =>
    exact h.dropReply.dropAsk.act (by simp [NoOffer]) (by simp [posts])
  | acquireTerminated hr ha hh hk hq hp => exact h.dropReply.dropAsk.act (by simp) (by simp)
  | replyOther hr ha hh hk hq => exact h.dropReply.dropAsk.act (by simp) (by simp)
  | replyFailure hr ha hh hk hq => exact h.dropReply.dropAsk.act (by simp) (by simp)
  | sendTaskTimeout ha hk => exact h.dropAsk.act (by simp) (by simp)
  | address ha hk hp hv =>
    refine h.dropAsk.newExecutor (e := w.next) habs (hask ha) (by simp [NoOffer]) ?_ ?_ ?_
    · intro x hx
      simp [writes, hx.symm]
    · simp [writes, ExecutorCell.Live]
    · intro v m hm
      simp only [List.flatMap_cons, posts, List.flatMap_nil, List.nil_append, List.append_nil] at hm
      split at hm
      · exact List.mem_singleton.mp hm
      · simp at hm
  | addressNull ha hk hp hv =>
    refine h.dropAsk.newExecutor (e := w.next) habs (hask ha) (by simp [NoOffer]) ?_ ?_ ?_
    · intro x hx
      simp [writes, hx.symm]
    · simp [writes, ExecutorCell.Live]
    · simp [posts]
  | addressStopped ha hk hp => exact h.dropAsk.act (by simp) (by simp)
  | addressFails ha hk hv =>
    refine h.dropAsk.act (by simp [NoOffer]) ?_
    intro v m hm
    simp only [List.flatMap_cons, posts, List.flatMap_nil, List.append_nil] at hm
    split at hm
    · obtain rfl := List.mem_singleton.mp hm
      refine ⟨by simp [Names, envelope], ?_⟩
      rintro x ⟨⟩
      exact hask ha
    · simp at hm
  | addressFailsNull ha hk hv => exact h.dropAsk.act (by simp) (by simp)
  | @vmTakes v m o hv hm =>
    have hnames := h.names v m hm
    obtain ⟨d, hd, -⟩ := noteDeclined_eq (w := w) v m
    have h1 : World.Posted { w with declined := d } :=
      h.same (fun _ hr => hr) (Nat.le_refl _) rfl (fun _ _ hm => hm) fun _ => rfl
    rw [hd]
    refine Posted.handleVm (h1.updVm (fun _ hx => List.mem_of_mem_erase hx) rfl) ?_ ?_
    · intro x hx
      exact h.about v m hm x hx
    · intro e he
      simp only [Names, he] at hnames
      exact hnames.1
  | vmInput hv ho =>
    refine h.handleVm (by simp) ?_
    rintro e rfl
    cases ho
  | configure hv hc hi => 
    exact Posted.handleVm (h.updVm (f := fun c => { c with configured := true })
      (fun _ hx => hx) rfl) (by simp) (by simp)
  | @vmDies v hv =>
    exact (h.updVm (v := v) (f := fun c => { c with alive := false }) (fun _ hx => hx) rfl).same
      (fun _ hr => hr) (Nat.le_refl _) rfl (fun _ _ hm => hm) fun _ => rfl
  | throws hp ht =>
    exact h.updExecutor rfl (by simp [ExecutorCell.Live]) (by simp [ExecutorCell.Live, hp])
  | failedNotTaken hx hp ht => exact h.judge hx
  | failedReset hx hp ht hes =>
    rcases hes with ⟨rfl, -⟩ | ⟨rfl, -⟩
    · exact (h.act (by simp) (by simp)).judge (by exact hx)
    · exact h.askStillAlive.judge (by exact hx)
  | failedEscalate hx hp ht hres hes =>
    rcases hes with ⟨rfl, -⟩ | ⟨rfl, -⟩
    · exact ((h.act (by simp) (by simp)).judge (by exact hx)).updTask
    · exact (h.askStillAlive.judge (by exact hx)).updTask
  | failedRaises hx hp ht hf hes =>
    rcases hes with ⟨rfl, -⟩ | ⟨rfl, -⟩
    · exact ((h.act (by simp) (by simp)).judge (by exact hx)).updTask
    · exact (h.askStillAlive.judge (by exact hx)).updTask
  | failedStopped hx hp => exact h.judge hx
  | executorDies he => exact h.killExecutor he

/-! ## An offer is answered once -/

/-- An offer is in its machine's mailbox once, until it is answered
once. -/
structure OnceOffered (w : World) : Prop where
  count : ∀ v h, (w.vm v).mailbox.count ⟨some h, .sendTask⟩ ≤ 1
  open_ : ∀ v h, ⟨some h, .sendTask⟩ ∈ (w.vm v).mailbox →
    ∀ r ∈ w.replies, r.vm = v → r.handshake ≠ h
  reply : ∀ r ∈ w.replies, ∀ r' ∈ w.replies, r.vm = r'.vm → r.handshake = r'.handshake → r = r'

theorem onceOffered_init : init.OnceOffered := by
  constructor
  · intro v h
    simp [init]
  · simp [init]
  · simp [init]

theorem OnceOffered.calm (h : w.OnceOffered) (hp : w.Posted) (hc : Calm w w') :
    w'.OnceOffered := by
  constructor
  · intro v x
    obtain ⟨ms, hms, hf⟩ := hc.mailbox v
    rw [hms, List.count_append]
    by_cases hx : ⟨some x, .sendTask⟩ ∈ ms
    · obtain ⟨hn, -, hone⟩ := hf x hx
      have hold : ⟨some x, .sendTask⟩ ∉ (w.vm v).mailbox := by
        intro hm
        have := hp.about v _ hm x rfl
        omega
      have hnone := List.count_eq_zero.mpr hold
      omega
    · rw [List.count_eq_zero.mpr hx]
      exact h.count v x
  · intro v x hx r hr hrv
    obtain ⟨ms, hms, hf⟩ := hc.mailbox v
    have hr' := hc.replies r hr
    rw [hms] at hx
    rcases List.mem_append.mp hx with hx | hx
    · exact h.open_ v x hx r hr' hrv
    · have hlt := hp.replies r hr'
      have hle := (hf x hx).1
      omega
  · intro r hr r' hr'
    exact h.reply r (hc.replies r hr) r' (hc.replies r' hr')

/-- A machine handles `m`, which has left its mailbox. -/
theorem OnceOffered.handleVm {o : VMProxyActor.Outside} {m : Envelope} (h : w.OnceOffered)
    (hm : ∀ x, m = ⟨some x, .sendTask⟩ → m ∉ (w.vm v).mailbox ∧
      ∀ r ∈ w.replies, r.vm = v → r.handshake ≠ x) : (w.handleVm v o m).OnceOffered := by
  obtain ⟨s, as, hs, hside, hreplies, -, -⟩ := handleVm_spec v o m w
  have hf := handleVm_frame v o m w
  have hmail : ((w.handleVm v o m).vm v).mailbox = s.mailbox := congrArg VmSide.mailbox hside
  have hcount : ∀ x, s.mailbox.count ⟨some x, .sendTask⟩ =
      (w.vm v).mailbox.count ⟨some x, .sendTask⟩ := by
    intro x
    cases hs with
    | restarts hm => simp [VmSide.post, VmCell.side]
    | watchesDead hm hr he => simp [VmSide.post, VmCell.side]
    | _ => rfl
  have hnew : repliesTo m v as = [] ∨
      ∃ x a, m = ⟨some x, .sendTask⟩ ∧ repliesTo m v as = [⟨x, v, a⟩] := by
    obtain ⟨about, msg⟩ := m
    cases about with
    | none => exact .inl rfl
    | some x =>
      cases hs with
      | @answers a hm ha =>
        obtain rfl : msg = .sendTask := hm
        exact .inr ⟨x, a, rfl, rfl⟩
      | accepts hm hr hf =>
        obtain rfl : msg = .sendTask := hm
        exact .inr ⟨x, _, rfl, rfl⟩
      | _ => exact .inl rfl
  constructor
  · intro u x
    by_cases hu : u = v
    · subst hu
      rw [hmail, hcount]
      exact h.count u x
    · rw [hf.others u hu]
      exact h.count u x
  · intro u x hx r hr hru
    have hold : ⟨some x, .sendTask⟩ ∈ (w.vm u).mailbox := by
      by_cases hu : u = v
      · subst hu
        rw [hmail] at hx
        have hpos := List.count_pos_iff.mpr hx
        rw [hcount] at hpos
        exact List.count_pos_iff.mp hpos
      · rwa [hf.others u hu] at hx
    rw [hreplies] at hr
    rcases List.mem_append.mp hr with hr | hr
    · exact h.open_ u x hold r hr hru
    · rcases hnew with hnil | ⟨y, a, rfl, hone⟩
      · simp [hnil] at hr
      · rw [hone, List.mem_singleton] at hr
        subst hr
        obtain rfl : v = u := hru
        rintro rfl
        exact (hm y rfl).1 hold
  · intro r hr r' hr' hv hh
    rw [hreplies] at hr hr'
    rcases hnew with hnil | ⟨y, a, rfl, hone⟩
    · rw [hnil, List.append_nil] at hr hr'
      exact h.reply r hr r' hr' hv hh
    · rw [hone, List.mem_append, List.mem_singleton] at hr hr'
      rcases hr with hr | rfl <;> rcases hr' with hr' | rfl
      · exact h.reply r hr r' hr' hv hh
      · exact absurd hh ((hm y rfl).2 r hr hv)
      · exact absurd hh.symm ((hm y rfl).2 r' hr' hv.symm)
      · rfl

theorem OnceOffered.updVm {f : VmCell → VmCell} (h : w.OnceOffered)
    (hf : ∀ m, (f (w.vm v)).mailbox.count m ≤ (w.vm v).mailbox.count m) :
    (w.updVm v f).OnceOffered := by
  have hle : ∀ u m, ((w.updVm v f).vm u).mailbox.count m ≤ (w.vm u).mailbox.count m := by
    intro u m
    by_cases hu : u = v
    · subst hu
      simpa using hf m
    · simp [hu]
  constructor
  · intro u x
    exact Nat.le_trans (hle u _) (h.count u x)
  · intro u x hx
    have hpos := List.count_pos_iff.mpr hx
    exact h.open_ u x (List.count_pos_iff.mp (Nat.lt_of_lt_of_le hpos (hle u _)))
  · exact h.reply

theorem onceOffered_step {e : Event} (hp : w.Posted) (h : w.OnceOffered) (hm : w.Moves e w') :
    w'.OnceOffered := by
  cases he : e.machine with
  | none => exact h.calm hp (hm.calm he)
  | some v =>
    cases hm with
    | @vmTakes v m o hv hmem =>
      obtain ⟨d, hd, -⟩ := noteDeclined_eq (w := w) v m
      have h1 : World.OnceOffered { w with declined := d } := ⟨h.count, h.open_, h.reply⟩
      rw [hd]
      refine OnceOffered.handleVm
        (h1.updVm (f := fun c => { c with mailbox := c.mailbox.erase m }) ?_) ?_
      · intro x
        exact List.Sublist.count_le _ (List.erase_sublist)
      · rintro x rfl
        refine ⟨?_, h.open_ v x hmem⟩
        simp only [updVm_vm, Function.update_self]
        rw [← List.count_eq_zero, List.count_erase_self]
        have := h.count v x
        omega
    | @vmInput v m o hv ho => exact h.handleVm (by simp)
    | @configure v config o hv hc hi =>
      exact OnceOffered.handleVm (h.updVm (f := fun c => { c with configured := true })
        fun _ => Nat.le_refl _) (by simp)
    | @vmDies v hv =>
      have h1 := h.updVm (v := v) (f := fun c => { c with alive := false }) fun _ => Nat.le_refl _
      exact ⟨h1.count, h1.open_, h1.reply⟩
    | _ => cases he

end World

end Clustering.Handshake
