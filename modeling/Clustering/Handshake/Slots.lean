/-
Clustering.Handshake.Slots — a machine executes one task at a time.

A machine has one slot. Between the moment it accepts a task and the
moment it frees the slot, exactly one thing in the world stands for it:
the `AcquireExecutor` on its way, the ask for an executor's address, a
message to the machine, or the executor it watches. `World.tokens v`
counts these for machine `v`, each with the handshake it belongs to, and
`Exclusive` says that there is at most one, none while the slot is free,
and that an executor sent to the machine leaves no room for another.

Two steps create or move a token the wrong way and are excluded by
`KeepsSlots`: a request that completes on a machine whose slot is taken
frees it, and an address that is found after `targetVm` was replaced is
told to another machine.
-/
import Clustering.Actors.Tokens
import Clustering.Handshake.Attempts
import Clustering.Handshake.Posted

namespace Clustering.Handshake

open Actors Clustering.Worker Clustering.Vm

/-! ## Tokens -/

/-- A reply by which machine `v` accepts. -/
def Reply.tokens (v : ℕ) (r : Reply) : Multiset ℕ :=
  if r.vm = v ∧ r.answer = .acquireExecutor then {r.handshake} else 0

/-- An ask for an executor of machine `v`. -/
def Ask.tokens (v : ℕ) (a : Ask) : Multiset ℕ :=
  if a.kind = .executorAddress v then {a.handshake} else 0

/-- A message that tells a machine about its task. -/
def Envelope.tokens (m : Envelope) : Multiset ℕ :=
  match m.about, m.msg with
  | some h, .executor _ => {h}
  | some h, .cannotGetExecutor => {h}
  | some h, .terminated _ => {h}
  | _, _ => 0

namespace World

variable {w w' z : World} {v : ℕ}

/-- What stands for the slot of machine `v` before there is an
executor. -/
def offered (w : World) (v : ℕ) : Multiset ℕ :=
  held (Reply.tokens v) w.replies + held (Ask.tokens v) w.asks

/-- What stands for it afterwards. -/
def carried (w : World) (v : ℕ) : Multiset ℕ :=
  held Envelope.tokens (w.vm v).mailbox +
    held (fun e => {(w.executor e).handshake}) (w.vm v).watching

def tokens (w : World) (v : ℕ) : Multiset ℕ := w.offered v + w.carried v

/-- The handshakes machine `v` accepted, the last one first. -/
def accepts (w : World) (v : ℕ) : List ℕ :=
  w.accepted.filterMap fun p => if p.1 = v then some p.2 else none

/-- The executor of handshake `h` has terminated, or the machine was
told that there is none. -/
def Released (w : World) (h : ℕ) : Prop :=
  h ∈ w.declined ∨ ∃ e, (w.executor e).phase = .dead ∧ (w.executor e).handshake = h

/-- Executor `e` has been sent its task for machine `v` and has not
terminated. -/
def Occupies (w : World) (e v : ℕ) : Prop :=
  (w.executor e).Live ∧ (w.executor e).target = some v

instance (w : World) (e v : ℕ) : Decidable (w.Occupies e v) := inferInstanceAs (Decidable (_ ∧ _))

/-- Machine `v` knows of executor `e`, or will. -/
def Knows (w : World) (v e : ℕ) : Prop :=
  (∃ m ∈ (w.vm v).mailbox, m.msg = .executor e) ∨ e ∈ (w.vm v).watching

/-- Machine `v` has not been ready yet. -/
def NotYetReady (w : World) (v : ℕ) : Prop :=
  (w.vm v).configured = false ∨
    (w.vm v).actor.slot.ready = false ∧ (w.vm v).actor.slot.config = true

structure Exclusive (w : World) (v : ℕ) : Prop where
  one : (w.tokens v).card ≤ 1
  free : (w.vm v).actor.slot.ready = true → (w.vm v).actor.slot.free = true →
    w.tokens v = 0 ∧ ∀ h ∈ w.accepts v, w.Released h
  head : ∀ h ∈ w.tokens v, (w.accepts v).head? = some h
  tail : ∀ h ∈ (w.accepts v).tail, w.Released h
  notYet : w.NotYetReady v → w.tokens v = 0 ∧ w.accepts v = [] ∧ ∀ e, ¬ w.Occupies e v
  ready : (w.vm v).actor.slot.ready = true → (w.vm v).actor.slot.config = true
  config : (w.vm v).actor.slot.config = true → (w.vm v).configured = true
  init : ⟨none, .init⟩ ∈ (w.vm v).mailbox → (w.vm v).actor.slot.config = false
  alone : ∀ e, w.Occupies e v → w.offered v = 0
  knows : ∀ e, w.Occupies e v → (w.vm v).actor.slot.ready = true → w.Knows v e
  unique : ∀ e e', w.Occupies e v → w.Occupies e' v → e = e'

theorem exclusive_init (v : ℕ) : World.init.Exclusive v := by
  have htok : World.init.tokens v = 0 := by
    simp [tokens, offered, carried, World.init, Envelope.tokens]
  have hocc : ∀ e, ¬ World.init.Occupies e v := by
    simp [Occupies, World.init]
  constructor
  · simp [htok]
  · simp [World.init, VMProxyActor.new, VMProxyActor.slot]
  · simp [htok]
  · simp [accepts, World.init]
  · exact fun _ => ⟨htok, by simp [accepts, World.init], hocc⟩
  · simp [World.init, VMProxyActor.new, VMProxyActor.slot]
  · simp [World.init, VMProxyActor.new, VMProxyActor.slot]
  · simp [World.init, VMProxyActor.new, VMProxyActor.slot]
  · exact fun e he => absurd he (hocc e)
  · exact fun e he => absurd he (hocc e)
  · exact fun e e' he => absurd he (hocc e)

/-! ## Steps that create no token -/

/-- For machine `v` the step adds neither a token nor an executor. -/
structure Spends (v : ℕ) (w w' : World) : Prop where
  slot : (w'.vm v).actor.slot = (w.vm v).actor.slot
  configured : (w'.vm v).configured = (w.vm v).configured
  init : ⟨none, .init⟩ ∈ (w'.vm v).mailbox → ⟨none, .init⟩ ∈ (w.vm v).mailbox
  accepts : w'.accepts v = w.accepts v
  released : ∀ h, w.Released h → w'.Released h
  occupies : ∀ e, w'.Occupies e v → w.Occupies e v
  knows : ∀ e, w'.Occupies e v → w.Knows v e → w'.Knows v e
  offered : w'.offered v ≤ w.offered v
  tokens : w'.tokens v ≤ w.tokens v

/-- A step that adds neither, but may change the slot. -/
theorem Exclusive.shrinks (h : w.Exclusive v)
    (hacc : w'.accepts v = w.accepts v) (hrel : ∀ x, w.Released x → w'.Released x)
    (hocc : ∀ e, w'.Occupies e v → w.Occupies e v)
    (hoff : w'.offered v ≤ w.offered v) (htok : w'.tokens v ≤ w.tokens v)
    (hfree : (w'.vm v).actor.slot.ready = true → (w'.vm v).actor.slot.free = true →
      w'.tokens v = 0 ∧ ∀ x ∈ w.accepts v, w'.Released x)
    (hnot : w'.NotYetReady v → w.NotYetReady v)
    (hready : (w'.vm v).actor.slot.ready = true → (w'.vm v).actor.slot.config = true)
    (hconfig : (w'.vm v).actor.slot.config = true → (w'.vm v).configured = true)
    (hinit : ⟨none, .init⟩ ∈ (w'.vm v).mailbox → (w'.vm v).actor.slot.config = false)
    (hknows : ∀ e, w'.Occupies e v → (w'.vm v).actor.slot.ready = true → w'.Knows v e) :
    w'.Exclusive v := by
  constructor
  · exact (Multiset.card_le_card htok).trans h.one
  · rw [hacc]
    exact hfree
  · intro x hx
    rw [hacc]
    exact h.head x (Multiset.mem_of_le htok hx)
  · rw [hacc]
    exact fun x hx => hrel x (h.tail x hx)
  · intro hn
    obtain ⟨h1, h2, h3⟩ := h.notYet (hnot hn)
    exact ⟨Multiset.le_zero.mp (h1 ▸ htok), hacc.trans h2, fun e he => h3 e (hocc e he)⟩
  · exact hready
  · exact hconfig
  · exact hinit
  · intro e he
    exact Multiset.le_zero.mp (h.alone e (hocc e he) ▸ hoff)
  · exact hknows
  · exact fun e e' he he' => h.unique e e' (hocc e he) (hocc e' he')

theorem Exclusive.spends (h : w.Exclusive v) (hs : Spends v w w') : w'.Exclusive v := by
  refine h.shrinks hs.accepts hs.released hs.occupies hs.offered hs.tokens ?_ ?_ ?_ ?_ ?_ ?_
  · intro hr hf
    rw [hs.slot] at hr hf
    obtain ⟨h1, h2⟩ := h.free hr hf
    exact ⟨Multiset.le_zero.mp (h1 ▸ hs.tokens), fun x hx => hs.released x (h2 x hx)⟩
  · unfold NotYetReady
    rw [hs.slot, hs.configured]
    exact id
  · rw [hs.slot]
    exact h.ready
  · rw [hs.slot, hs.configured]
    exact h.config
  · rw [hs.slot]
    exact fun hi => h.init (hs.init hi)
  · rw [hs.slot]
    exact fun e he hr => hs.knows e he (h.knows e (hs.occupies e he) hr)

theorem Spends.trans {w'' : World} (h : Spends v w w') (h' : Spends v w' w'') :
    Spends v w w'' :=
  ⟨h'.slot.trans h.slot, h'.configured.trans h.configured, fun hi => h.init (h'.init hi),
    h'.accepts.trans h.accepts, fun x hx => h'.released x (h.released x hx),
    fun e he => h.occupies e (h'.occupies e he),
    fun e he hk => h'.knows e he (h.knows e (h'.occupies e he) hk),
    h'.offered.trans h.offered, h'.tokens.trans h.tokens⟩

/-- Machines, executors and the history are as before, and no offer is
new. -/
theorem spends_of_same (hv : w'.vm = w.vm) (hx : w'.executor = w.executor)
    (ha : w'.accepted = w.accepted) (hd : w'.declined = w.declined)
    (ho : w'.offered v ≤ w.offered v) : Spends v w w' := by
  have hc : w'.carried v = w.carried v := by
    unfold carried
    rw [hv, hx]
  refine ⟨by rw [hv], by rw [hv], by rw [hv]; exact id, by unfold accepts; rw [ha], ?_, ?_, ?_,
    ho, ?_⟩
  · unfold Released
    rw [hd, hx]
    exact fun _ h => h
  · unfold Occupies
    rw [hx]
    exact fun _ h => h
  · unfold Knows
    rw [hv]
    exact fun _ _ h => h
  · unfold tokens
    rw [hc]
    exact add_le_add_left ho _

theorem spends_updTask {t : ℕ} {f : TaskCell → TaskCell} : Spends v w (w.updTask t f) :=
  spends_of_same rfl rfl rfl rfl (le_refl _)

/-- Executors change, but neither their handshakes nor their targets,
and the dead stay dead. -/
structure SameWork (w w' : World) : Prop where
  handshake : ∀ e, (w.executor e).phase ≠ .absent →
    (w'.executor e).handshake = (w.executor e).handshake
  live : ∀ e v, w'.Occupies e v → w.Occupies e v
  dead : ∀ e, (w.executor e).phase = .dead → (w'.executor e).phase = .dead

theorem SameWork.released (h : SameWork w w') (hd : w'.declined = w.declined) {x : ℕ}
    (hx : w.Released x) : w'.Released x := by
  rcases hx with hx | ⟨e, he, hh⟩
  · exact .inl (hd ▸ hx)
  · refine .inr ⟨e, h.dead e he, ?_⟩
    rw [h.handshake e (by simp [he]), hh]

/-- The entries a machine watches stand for what they stood for. -/
theorem SameWork.watched (h : SameWork w w') (hp : w.Posted) (v : ℕ) :
    held (fun e => {(w'.executor e).handshake}) (w.vm v).watching =
      held (fun e => ({(w.executor e).handshake} : Multiset ℕ)) (w.vm v).watching := by
  refine held_congr ?_
  intro e he
  rw [h.handshake e (hp.watching v e he).1]

theorem spends_updExecutor {e : ℕ} {f : ExecutorCell → ExecutorCell} (hp : w.Posted)
    (hl : (w.executor e).Live)
    (hf : (f (w.executor e)).handshake = (w.executor e).handshake ∧
      (f (w.executor e)).target = (w.executor e).target) :
    Spends v w (w.updExecutor e f) := by
  have hs : SameWork w (w.updExecutor e f) := by
    constructor
    · intro x _
      by_cases hx : x = e
      · subst hx
        simpa using hf.1
      · simp [hx]
    · intro x u hx
      by_cases hxe : x = e
      · subst hxe
        refine ⟨hl, ?_⟩
        have ht := hx.2
        rw [updExecutor_executor, Function.update_self, hf.2] at ht
        exact ht
      · unfold Occupies at hx
        rw [updExecutor_executor, Function.update_of_ne hxe] at hx
        exact hx
    · intro x hx
      by_cases hxe : x = e
      · subst hxe
        exact absurd hx hl.2
      · simpa [hxe] using hx
  refine ⟨rfl, rfl, id, rfl, fun x hx => hs.released rfl hx, fun x hx => hs.live x v hx,
    fun _ _ hk => hk, le_refl _, ?_⟩
  unfold tokens carried
  rw [show (w.updExecutor e f).vm = w.vm from rfl, hs.watched hp]
  exact le_refl _

theorem spends_judge {e : ℕ} {b : Bool} {x : Throwable} (hp : w.Posted)
    (hx : (w.executor e).phase = .threw x) : Spends v w (w.judge e b) :=
  spends_updExecutor hp (by simp [ExecutorCell.Live, hx]) ⟨rfl, rfl⟩

/-! ## What the code of a task actor does to the tokens -/

variable {t h : ℕ} {a : TaskActor} {es : List TaskEffect}

/-- What an effect posts is not an `Init`. -/
theorem posts_not_init {m : Envelope} (hm : m ∈ es.flatMap (posts h v)) : m ≠ ⟨none, .init⟩ := by
  obtain ⟨ef, -, hef⟩ := List.mem_flatMap.mp hm
  cases ef with
  | tellVm u x =>
    simp only [posts] at hef
    split at hef
    · obtain rfl := List.mem_singleton.mp hef
      cases x <;> simp [envelope]
    · simp at hef
  | _ => simp [posts] at hef

/-- Code of a task actor that creates no executor for machine `v`, run in
`z`, where an ask or a reply of `w` has gone: what it makes and posts
may use up what has gone. -/
theorem spends_act (hp : w.Posted) (hes : ∀ ef ∈ es, NoOffer ef) (hv : z.vm = w.vm)
    (ha : z.accepted = w.accepted) (hd : z.declined = w.declined)
    (hh : ∀ e, (w.executor e).phase ≠ .absent →
      ((z.act t h a es).executor e).handshake = (w.executor e).handshake)
    (hocc : ∀ e, (z.act t h a es).Occupies e v → w.Occupies e v)
    (hdead : ∀ e, (w.executor e).phase = .dead →
      ((z.act t h a es).executor e).phase = .dead)
    (ho : held Envelope.tokens (es.flatMap (posts h v)) +
      (z.offered v + held (Ask.tokens v) (es.flatMap (makes t h))) ≤ w.offered v) :
    Spends v w (z.act t h a es) := by
  have hu : Untouched z (z.act t h a es) := act_untouched
  have hoff : (z.act t h a es).offered v =
      z.offered v + held (Ask.tokens v) (es.flatMap (makes t h)) := by
    unfold offered
    rw [act_replies, act_asks hes, held_append, add_assoc]
  have hcar : (z.act t h a es).carried v =
      held Envelope.tokens (es.flatMap (posts h v)) + w.carried v := by
    unfold carried
    rw [act_vm hes, hv]
    simp only [held_append]
    rw [held_congr (g := fun e => {(w.executor e).handshake}) fun e he => by
      rw [hh e (hp.watching v e he).1]]
    rw [← add_assoc, add_comm (held Envelope.tokens (w.vm v).mailbox)]
  refine ⟨by rw [act_vm hes, hv], by rw [act_vm hes, hv], ?_, ?_, ?_, hocc, ?_, ?_, ?_⟩
  · rw [act_vm hes, hv]
    intro hi
    refine (List.mem_append.mp hi).resolve_right ?_
    intro hi'
    exact posts_not_init hi' rfl
  · unfold accepts
    rw [hu.accepted, ha]
  · rintro x (hx | ⟨e, he, hx⟩)
    · exact .inl (by rw [hu.declined, hd]; exact hx)
    · exact .inr ⟨e, hdead e he, (hh e (by simp [he])).trans hx⟩
  · intro e _ hk
    unfold Knows
    rw [act_vm hes, hv]
    rcases hk with ⟨m, hm, hmsg⟩ | hk
    · exact .inl ⟨m, List.mem_append_left _ hm, hmsg⟩
    · exact .inr hk
  · rw [hoff]
    exact (Multiset.le_add_left _ _).trans ho
  · unfold tokens
    rw [hoff, hcar, ← add_assoc, add_comm _ (held Envelope.tokens _)]
    exact add_le_add_left ho _

/-- Effects that leave the executors' work as it is. -/
def Modest (ef : TaskEffect) : Prop :=
  NoOffer ef ∧ (∀ x, ef ≠ .createExecutor x) ∧ ∀ x y, ef ≠ .executeTask x y

theorem spends_modest (hp : w.Posted) (hes : ∀ ef ∈ es, Modest ef) (hv : z.vm = w.vm)
    (hx : z.executor = w.executor) (ha : z.accepted = w.accepted)
    (hd : z.declined = w.declined)
    (ho : held Envelope.tokens (es.flatMap (posts h v)) +
      (z.offered v + held (Ask.tokens v) (es.flatMap (makes t h))) ≤ w.offered v) :
    Spends v w (z.act t h a es) := by
  have hsame : ∀ e, ((z.act t h a es).executor e).handshake = (w.executor e).handshake ∧
      ((z.act t h a es).executor e).phase = (w.executor e).phase := by
    intro e
    rw [act_executor, hx]
    exact (foldl_writes_same es fun ef hef => (hes ef hef).2.1).2
  have htarget : ∀ e, ((z.act t h a es).executor e).target = (w.executor e).target := by
    intro e
    rw [act_executor, hx]
    exact foldl_writes_target es (fun ef hef => (hes ef hef).2.1) fun ef hef => (hes ef hef).2.2
  refine spends_act hp (fun ef hef => (hes ef hef).1) hv ha hd (fun e _ => (hsame e).1) ?_ ?_ ho
  · intro e he
    unfold Occupies ExecutorCell.Live at he ⊢
    rwa [htarget, (hsame e).2] at he
  · intro e he
    rw [(hsame e).2]
    exact he

theorem offered_dropReply {r : Reply} (hr : r ∈ w.replies) :
    r.tokens v + (w.dropReply r).offered v = w.offered v := by
  unfold offered
  rw [← add_assoc, dropReply_replies, held_erase hr]
  rfl

theorem offered_dropAsk {b : Ask} (hb : b ∈ w.asks) :
    b.tokens v + (w.dropAsk b).offered v ≤ w.offered v := by
  unfold offered
  rw [add_comm (b.tokens v), add_assoc, add_comm _ (b.tokens v)]
  exact add_le_add_right (held_remove_le hb) _

theorem offered_complete {r : Reply} {b : Ask} (hr : r ∈ w.replies) (hb : b ∈ w.asks) :
    r.tokens v + (b.tokens v + ((w.dropReply r).dropAsk b).offered v) ≤ w.offered v := by
  rw [← offered_dropReply (v := v) hr]
  exact add_le_add_right (offered_dropAsk (w := w.dropReply r) hb) _

theorem dropAsk_le {b : Ask} (hb : b ∈ w.asks) : (w.dropAsk b).offered v ≤ w.offered v :=
  (Multiset.le_add_left _ _).trans (offered_dropAsk hb)

theorem complete_le {r : Reply} {b : Ask} (hr : r ∈ w.replies) (hb : b ∈ w.asks) :
    ((w.dropReply r).dropAsk b).offered v ≤ w.offered v :=
  ((Multiset.le_add_left _ _).trans (Multiset.le_add_left _ _)).trans (offered_complete hr hb)

/-- Code that makes and posts nothing that counts. -/
theorem spends_idle (hp : w.Posted) (hes : ∀ ef ∈ es, Modest ef) (hv : z.vm = w.vm)
    (hx : z.executor = w.executor) (ha : z.accepted = w.accepted)
    (hd : z.declined = w.declined) (ho : z.offered v ≤ w.offered v)
    (h1 : held Envelope.tokens (es.flatMap (posts h v)) = 0)
    (h2 : es.flatMap (makes t h) = []) : Spends v w (z.act t h a es) := by
  refine spends_modest hp hes hv hx ha hd ?_
  rw [h1, h2, held_nil, add_zero, zero_add]
  exact ho

/-- Asking a machine whether it is alive counts for nothing. -/
theorem spends_asks (hp : w.Posted) (hes : es = [] ∨ ∃ u, es = [.tellVm u .stillAlive]) :
    Spends v w (w.act t h a es) := by
  rcases hes with rfl | ⟨u, rfl⟩
  · exact spends_idle hp (by simp) rfl rfl rfl rfl (le_refl _) (by simp) (by simp)
  · refine spends_idle hp (by simp [Modest, NoOffer]) rfl rfl rfl rfl (le_refl _) ?_
      (by simp [makes])
    by_cases hu : u = v <;> simp [posts, hu, envelope, Envelope.tokens]

/-- An offer is no token. -/
theorem spends_offer {u : ℕ} : Spends v w (w.act t w.next a [.askSendTask u]) := by
  have hvm := act_offer_vm (w := w) (t := t) (a := a) u v
  refine ⟨by rw [hvm], by rw [hvm], ?_, rfl, fun _ h => h, fun _ h => h, ?_, le_of_eq ?_,
    le_of_eq ?_⟩
  · rw [hvm]
    intro hi
    refine (List.mem_append.mp hi).resolve_right ?_
    intro hi'
    split at hi' <;> simp at hi'
  · unfold Knows
    rw [hvm]
    rintro e - (⟨m, hm, hmsg⟩ | hk)
    · exact .inl ⟨m, List.mem_append_left _ hm, hmsg⟩
    · exact .inr hk
  · unfold offered
    rw [act_offer]
    simp [toVm, setActor, Ask.tokens]
  · have hoff : (w.act t w.next a [.askSendTask u]).offered v = w.offered v := by
      unfold offered
      rw [act_offer]
      simp [toVm, setActor, Ask.tokens]
    unfold tokens carried
    rw [hoff, hvm, held_append]
    have hzero : held Envelope.tokens
        (if v = u then [(⟨some w.next, .sendTask⟩ : Envelope)] else []) = 0 := by
      split <;> simp [Envelope.tokens]
    rw [hzero, add_zero]
    rfl

/-- An executor is created, but not for machine `v`. -/
theorem spends_newExecutor {x : ℕ} (hp : w.Posted) (hes : ∀ ef ∈ es, NoOffer ef)
    (hv : z.vm = w.vm) (ha : z.accepted = w.accepted) (hd : z.declined = w.declined)
    (habs : (w.executor x).phase = .absent)
    (hx : ∀ e, e ≠ x → (z.act t h a es).executor e = w.executor e)
    (hct : ((z.act t h a es).executor x).target ≠ some v)
    (ho : held Envelope.tokens (es.flatMap (posts h v)) +
      (z.offered v + held (Ask.tokens v) (es.flatMap (makes t h))) ≤ w.offered v) :
    Spends v w (z.act t h a es) := by
  refine spends_act hp hes hv ha hd ?_ ?_ ?_ ho
  · intro e he
    rw [hx e fun hex => he (hex ▸ habs)]
  · intro e he
    by_cases hex : e = x
    · subst hex
      exact absurd he.2 hct
    · unfold Occupies at he
      rwa [hx e hex] at he
  · intro e he
    rw [hx e (by rintro rfl; simp [habs] at he)]
    exact he

/-- An executor is created and sent its task for machine `v`, which is
told. -/
theorem Exclusive.newExecutor {x : ℕ} (h₀ : w.Exclusive v) (hp : w.Posted)
    (hes : ∀ ef ∈ es, NoOffer ef)
    (hv : z.vm = w.vm) (ha : z.accepted = w.accepted) (hd : z.declined = w.declined)
    (habs : (w.executor x).phase = .absent)
    (hx : ∀ e, e ≠ x → (z.act t h a es).executor e = w.executor e)
    (hmakes : es.flatMap (makes t h) = [])
    (hposts : es.flatMap (posts h v) = [⟨some h, .executor x⟩])
    (ho : {h} + z.offered v ≤ w.offered v) : (z.act t h a es).Exclusive v := by
  have hu : Untouched z (z.act t h a es) := act_untouched
  have hmem : h ∈ w.offered v := Multiset.mem_of_le ho (by simp)
  have hmem' : h ∈ w.tokens v := Multiset.mem_add.mpr (.inl hmem)
  have hne : w.tokens v ≠ 0 := by
    intro h0
    simp [h0] at hmem'
  have hno : ∀ e, ¬ w.Occupies e v := by
    intro e he
    simp [h₀.alone e he] at hmem
  -- the token of the offer is spent for the message
  have hoff : (z.act t h a es).offered v = z.offered v := by
    unfold offered
    rw [act_replies, act_asks hes, hmakes, List.append_nil]
  have hcar : (z.act t h a es).carried v = {h} + w.carried v := by
    unfold carried
    rw [act_vm hes, hv, hposts, held_append]
    simp only [held_cons, held_nil, add_zero, Envelope.tokens]
    rw [held_congr (g := fun e => {(w.executor e).handshake}) fun e he => by
      rw [hx e fun hex => (hp.watching v e he).1 (hex ▸ habs)]]
    rw [← add_assoc, add_comm (held Envelope.tokens (w.vm v).mailbox)]
  have htok : (z.act t h a es).tokens v ≤ w.tokens v := by
    unfold tokens
    rw [hoff, hcar, ← add_assoc, add_comm (z.offered v)]
    exact add_le_add_left ho _
  have hzero : z.offered v = 0 := by
    have hcard := (Multiset.card_le_card (ho.trans (Multiset.le_add_right _ (w.carried v)))).trans
      h₀.one
    rw [Multiset.card_add, Multiset.card_singleton] at hcard
    exact Multiset.card_eq_zero.mp (by omega)
  have hacc : (z.act t h a es).accepts v = w.accepts v := by
    unfold accepts
    rw [hu.accepted, ha]
  have hrel : ∀ y, w.Released y → (z.act t h a es).Released y := by
    rintro y (hy | ⟨e, he, hy⟩)
    · exact .inl (by rw [hu.declined, hd]; exact hy)
    · refine .inr ⟨e, ?_, ?_⟩
      · rw [hx e (by rintro rfl; simp [habs] at he)]
        exact he
      · rw [hx e (by rintro rfl; simp [habs] at he)]
        exact hy
  have honly : ∀ e, (z.act t h a es).Occupies e v → e = x := by
    intro e he
    by_contra hex
    unfold Occupies at he
    rw [hx e hex] at he
    exact hno e he
  have hslot : ((z.act t h a es).vm v).actor = (w.vm v).actor ∧
      ((z.act t h a es).vm v).configured = (w.vm v).configured := by
    rw [act_vm hes, hv]
    exact ⟨rfl, rfl⟩
  constructor
  · exact (Multiset.card_le_card htok).trans h₀.one
  · rw [hslot.1]
    intro hr hf
    exact absurd (h₀.free hr hf).1 hne
  · intro y hy
    rw [hacc]
    exact h₀.head y (Multiset.mem_of_le htok hy)
  · rw [hacc]
    exact fun y hy => hrel y (h₀.tail y hy)
  · intro hn
    unfold NotYetReady at hn
    rw [hslot.1, hslot.2] at hn
    exact absurd (h₀.notYet hn).1 hne
  · rw [hslot.1]
    exact h₀.ready
  · rw [hslot.1, hslot.2]
    exact h₀.config
  · rw [hslot.1, act_vm hes, hv]
    intro hi
    refine h₀.init ((List.mem_append.mp hi).resolve_right ?_)
    intro hi'
    exact posts_not_init hi' rfl
  · intro e _
    rw [hoff, hzero]
  · intro e he _
    obtain rfl := honly e he
    left
    refine ⟨⟨some h, .executor e⟩, ?_, rfl⟩
    rw [act_vm hes, hposts]
    exact List.mem_append_right _ (List.mem_singleton_self _)
  · intro e e' he he'
    rw [honly e he, honly e' he']

/-- An executor terminates. -/
theorem spends_killExecutor {x : ℕ} (hx : (w.executor x).Live) :
    Spends v w (w.killExecutor x) := by
  have hex : ∀ e, e ≠ x → (w.killExecutor x).executor e = w.executor e := by
    intro e he
    simp [he]
  have hself : (w.killExecutor x).executor x = (w.executor x).die := by simp
  have hsame : ∀ e, ((w.killExecutor x).executor e).handshake = (w.executor e).handshake := by
    intro e
    by_cases he : e = x
    · subst he
      rw [hself]
      rfl
    · rw [hex e he]
  have hocc : ∀ e, (w.killExecutor x).Occupies e v → e ≠ x ∧ w.Occupies e v := by
    intro e he
    by_cases hex' : e = x
    · subst hex'
      unfold Occupies at he
      rw [hself] at he
      simp [ExecutorCell.die, ExecutorCell.Live] at he
    · unfold Occupies at he
      rw [hex e hex'] at he
      exact ⟨hex', he⟩
  refine ⟨?_, ?_, ?_, rfl, ?_, fun e he => (hocc e he).2, ?_, le_refl _, ?_⟩
  · simp only [killExecutor_vm, VmCell.notify]
    split <;> rfl
  · simp only [killExecutor_vm, VmCell.notify]
    split <;> rfl
  · simp only [killExecutor_vm, VmCell.notify]
    split
    · intro hi
      simpa using hi
    · exact id
  · rintro y (hy | ⟨e, he, hy⟩)
    · exact .inl hy
    · refine .inr ⟨e, ?_, (hsame e).trans hy⟩
      rw [hex e (by rintro rfl; exact hx.2 he)]
      exact he
  · intro e he hk
    have hne := (hocc e he).1
    unfold Knows
    simp only [killExecutor_vm, VmCell.notify]
    rcases hk with ⟨m, hm, hmsg⟩ | hk
    · split
      · exact .inl ⟨m, List.mem_append_left _ hm, hmsg⟩
      · exact .inl ⟨m, hm, hmsg⟩
    · split
      · exact .inr (List.mem_filter.mpr ⟨hk, by simpa using hne⟩)
      · exact .inr hk
  · unfold tokens carried
    simp only [hsame, killExecutor_vm, VmCell.notify]
    refine add_le_add_right ?_ _
    split
    · rename_i hmem
      simp only [held_append, held_cons, held_nil, add_zero, Envelope.tokens]
      rw [add_assoc]
      exact add_le_add_right (held_remove_le (f := fun e => {(w.executor e).handshake}) hmem) _
    · exact le_refl _

/-! ## What a machine does to the tokens -/

variable {o : VMProxyActor.Outside} {m : Envelope}

theorem held_repliesTo {u : ℕ} {as : List Answer}
    (h : u = v → ∀ b ∈ as, b ≠ .acquireExecutor) :
    held (Reply.tokens u) (repliesTo m v as) = 0 := by
  refine held_eq_zero ?_
  intro r hr
  unfold repliesTo at hr
  split at hr
  · obtain ⟨b, hb, rfl⟩ := List.mem_map.mp hr
    unfold Reply.tokens
    rw [if_neg]
    rintro ⟨rfl, hq⟩
    exact h rfl b hb hq
  · simp at hr

/-- Another machine's step. -/
theorem spends_handleVm {u : ℕ} (hu : u ≠ v) : Spends u w (w.handleVm v o m) := by
  obtain ⟨s, as, hs, -, hreplies, haccepted, hdeclined⟩ := handleVm_spec v o m w
  have hf := handleVm_frame v o m w
  have hoff : (w.handleVm v o m).offered u = w.offered u := by
    unfold offered
    rw [hreplies, hf.asks, held_append, held_repliesTo fun h => absurd h hu, add_zero]
  have hacc : (w.handleVm v o m).accepts u = w.accepts u := by
    unfold accepts
    rw [haccepted]
    split
    · cases habout : m.about with
      | none => simp
      | some x => simp [Ne.symm hu]
    · simp
  refine ⟨by rw [hf.others u hu], by rw [hf.others u hu], by rw [hf.others u hu]; exact id, hacc,
    ?_, ?_, ?_, le_of_eq hoff, ?_⟩
  · unfold Released
    rw [hdeclined, hf.executor]
    exact fun _ h => h
  · unfold Occupies
    rw [hf.executor]
    exact fun _ h => h
  · unfold Knows
    rw [hf.others u hu]
    exact fun _ _ h => h
  · unfold tokens carried
    rw [hoff, hf.others u hu, hf.executor]

/-- A machine that knows of an executor has a token for it. -/
theorem carried_ne_zero {e : ℕ} (hp : w.Posted) (hk : w.Knows v e) : w.carried v ≠ 0 := by
  intro h0
  rcases hk with ⟨⟨about, msg⟩, hm, hmsg⟩ | hk
  · obtain rfl : msg = .executor e := hmsg
    have hn := hp.names v _ hm
    obtain rfl : about = some (w.executor e).handshake := hn.2
    have hle : Envelope.tokens ⟨some (w.executor e).handshake, .executor e⟩ ≤ w.carried v :=
      (le_held hm).trans (Multiset.le_add_right _ _)
    simp [h0, Envelope.tokens] at hle
  · have hle : {(w.executor e).handshake} ≤ w.carried v :=
      (le_held (f := fun e => {(w.executor e).handshake}) hk).trans (Multiset.le_add_left _ _)
    simp [h0] at hle

theorem spends_declined {d : List ℕ} (hd : ∀ x ∈ w.declined, x ∈ d) :
    Spends v w { w with declined := d } := by
  refine ⟨rfl, rfl, id, rfl, ?_, fun _ h => h, fun _ _ h => h, le_refl _, le_refl _⟩
  rintro x (hx | hx)
  · exact .inl (hd x hx)
  · exact .inr hx

/-- Another machine changes. -/
theorem spends_updVm {u : ℕ} {f : VmCell → VmCell} (hu : v ≠ u) : Spends v w (w.updVm u f) := by
  have hvm : (w.updVm u f).vm v = w.vm v := by
    simp [hu]
  refine ⟨by rw [hvm], by rw [hvm], by rw [hvm]; exact id, rfl, fun _ h => h, fun _ h => h, ?_,
    le_refl _, ?_⟩
  · unfold Knows
    rw [hvm]
    exact fun _ _ h => h
  · unfold tokens carried
    rw [hvm]
    exact le_refl _

/-- In `z` machine `v` has taken `m`, which it handles next. -/
structure Takes (v : ℕ) (m : Envelope) (w z : World) : Prop where
  actor : (z.vm v).actor = (w.vm v).actor
  configured : (z.vm v).configured = (w.vm v).configured
  watching : (z.vm v).watching = (w.vm v).watching
  executor : z.executor = w.executor
  replies : z.replies = w.replies
  asks : z.asks = w.asks
  accepted : z.accepted = w.accepted
  declined : ∀ x ∈ w.declined, x ∈ z.declined
  noted : ∀ x, m = ⟨some x, .cannotGetExecutor⟩ → (w.vm v).actor.ready = true → x ∈ z.declined
  mailbox : ∀ x ∈ (z.vm v).mailbox, x ∈ (w.vm v).mailbox
  keeps : ∀ x ∈ (w.vm v).mailbox, x ≠ m → x ∈ (z.vm v).mailbox
  tokens : m.tokens + held Envelope.tokens (z.vm v).mailbox =
    held Envelope.tokens (w.vm v).mailbox
  origin : m ∈ (w.vm v).mailbox ∧ w.Names m ∨ Outer m.msg

/-- Message `m` says that the executor of its handshake is gone, or that
there is none. -/
theorem Takes.releases (h : Takes v m w z)
    (hr : (w.vm v).actor.ready = true)
    (hm : m.msg = .cannotGetExecutor ∨ ∃ e, m.msg = .terminated e) :
    ∃ x, m.tokens = {x} ∧ z.Released x := by
  obtain ⟨about, msg⟩ := m
  rcases h.origin with ⟨-, hn⟩ | ho
  · rcases hm with hm | ⟨e, hm⟩
    · obtain rfl : msg = .cannotGetExecutor := hm
      cases about with
      | none => exact absurd rfl hn
      | some x => exact ⟨x, rfl, .inl (h.noted x rfl hr)⟩
    · obtain rfl : msg = .terminated e := hm
      obtain ⟨hd, ha⟩ := hn
      obtain rfl : about = some (w.executor e).handshake := ha
      refine ⟨_, rfl, .inr ⟨e, ?_, ?_⟩⟩
      · rw [h.executor]
        exact hd
      · rw [h.executor]
  · rcases hm with hm | ⟨e, hm⟩
    · obtain rfl : msg = .cannotGetExecutor := hm
      cases ho
    · obtain rfl : msg = .terminated e := hm
      cases ho

theorem Takes.executor_tokens {x : ℕ} (h : Takes v m w z) (hm : m.msg = .executor x) :
    m.tokens = {(w.executor x).handshake} := by
  obtain ⟨about, msg⟩ := m
  obtain rfl : msg = .executor x := hm
  rcases h.origin with ⟨-, hn⟩ | ho
  · obtain rfl : about = some (w.executor x).handshake := hn.2
    rfl
  · cases ho

/-- Machine `v` handles `m`. A request that completes finds the slot
free. -/
theorem Exclusive.handleVm (h : w.Exclusive v) (hp : w.Posted) (ht : Takes v m w z)
    (hrest : ∀ request, m.msg = .restApiRequest request → (w.vm v).actor.slot.ready = true →
      (w.vm v).actor.slot.free = false →
        ¬ VMProxyActor.Completes o.http (z.vm v).actor.portMapping request) :
    (z.handleVm v o m).Exclusive v := by
  obtain ⟨s, as, hs, hside, hreplies, haccepted, hdeclined⟩ := handleVm_spec v o m z
  have hf := handleVm_frame v o m z
  generalize z.handleVm v o m = w' at *
  have hslot : (w'.vm v).actor.slot = s.slot := congrArg VmSide.slot hside
  have hconf : (w'.vm v).configured = s.configured := congrArg VmSide.configured hside
  have hmail : (w'.vm v).mailbox = s.mailbox := congrArg VmSide.mailbox hside
  have hwatch : (w'.vm v).watching = s.watching := congrArg VmSide.watching hside
  have hexec : w'.executor = w.executor := hf.executor.trans ht.executor
  have hrel : ∀ x, w.Released x → w'.Released x := by
    rintro x (hx | hx)
    · exact .inl (by rw [hdeclined]; exact ht.declined x hx)
    · exact .inr (by rw [hexec]; exact hx)
  have hrel₁ : ∀ x, z.Released x → w'.Released x := by
    rintro x (hx | hx)
    · exact .inl (by rw [hdeclined]; exact hx)
    · exact .inr (by rw [hf.executor]; exact hx)
  have hocc : ∀ e, w'.Occupies e v → w.Occupies e v := by
    unfold Occupies
    rw [hexec]
    exact fun _ h => h
  have hslot₁ : (z.vm v).side.slot = (w.vm v).actor.slot := by
    show (z.vm v).actor.slot = _
    rw [ht.actor]
  have hconf₁ : (z.vm v).side.configured = (w.vm v).configured := ht.configured
  have hcar₁ : m.tokens + (held Envelope.tokens (z.vm v).mailbox +
      held (fun e => {(w.executor e).handshake}) (z.vm v).watching) = w.carried v := by
    rw [← add_assoc, ht.tokens, ht.watching]
    rfl
  have hcar' : w'.carried v = held Envelope.tokens s.mailbox +
      held (fun e => {(w.executor e).handshake}) s.watching := by
    unfold carried
    rw [hmail, hwatch, hexec]
  have hinit₁ : ⟨none, .init⟩ ∈ (z.vm v).mailbox → (w.vm v).actor.slot.config = false :=
    fun hi => h.init (ht.mailbox _ hi)
  have hknows₁ : ∀ e, w.Occupies e v → (w.vm v).actor.slot.ready = true → m.msg ≠ .executor e →
      (∃ x ∈ (z.vm v).mailbox, x.msg = .executor e) ∨ e ∈ (z.vm v).watching := by
    intro e he hr hne
    rcases h.knows e he hr with ⟨x, hx, hmsg⟩ | hx
    · exact .inl ⟨x, ht.keeps x hx (by rintro rfl; exact hne hmsg), hmsg⟩
    · exact .inr (by rw [ht.watching]; exact hx)
  -- an answer other than `AcquireExecutor` is no token
  have hoff : (∀ b ∈ as, b ≠ .acquireExecutor) → w'.offered v = w.offered v := by
    intro hq
    unfold offered
    rw [hreplies, hf.asks, ht.asks, held_append, held_repliesTo fun _ => hq, add_zero, ht.replies]
  have hacc : (∀ b ∈ as, b ≠ .acquireExecutor) → w'.accepts v = w.accepts v := by
    intro hq
    unfold accepts
    rw [haccepted, if_neg, List.nil_append, ht.accepted]
    rintro rfl
    exact hq _ (List.mem_singleton_self _) rfl
  have hdone : (∀ b ∈ as, b ≠ .acquireExecutor) → w'.carried v ≤ w.carried v →
      (s.slot.ready = true → s.slot.free = true →
        w'.tokens v = 0 ∧ ∀ x ∈ w.accepts v, w'.Released x) →
      (s.configured = false ∨ s.slot.ready = false ∧ s.slot.config = true →
        w.NotYetReady v) →
      (s.slot.ready = true → s.slot.config = true) →
      (s.slot.config = true → s.configured = true) →
      (⟨none, .init⟩ ∈ s.mailbox → s.slot.config = false) →
      (∀ e, w.Occupies e v → s.slot.ready = true →
        (∃ x ∈ s.mailbox, x.msg = .executor e) ∨ e ∈ s.watching) → w'.Exclusive v := by
    intro hq hcar hfree hnot hready hconfig hinit hknows
    refine h.shrinks (hacc hq) hrel hocc (le_of_eq (hoff hq)) ?_ ?_ ?_ ?_ ?_ ?_ ?_
    · unfold tokens
      rw [hoff hq]
      exact add_le_add_right hcar _
    · rw [hslot]
      exact hfree
    · unfold NotYetReady
      rw [hslot, hconf]
      exact hnot
    · rw [hslot]
      exact hready
    · rw [hslot, hconf]
      exact hconfig
    · rw [hslot, hmail]
      exact hinit
    · rw [hslot]
      unfold Knows
      rw [hmail, hwatch]
      exact fun e he hr => hknows e (hocc e he) hr
  -- the slot is as before
  have hsame : (∀ b ∈ as, b ≠ .acquireExecutor) → w'.carried v ≤ w.carried v →
      s.slot = (w.vm v).actor.slot → s.configured = (w.vm v).configured →
      (⟨none, .init⟩ ∈ s.mailbox → ⟨none, .init⟩ ∈ (z.vm v).mailbox) →
      (∀ e, w.Occupies e v → (w.vm v).actor.slot.ready = true →
        (∃ x ∈ s.mailbox, x.msg = .executor e) ∨ e ∈ s.watching) → w'.Exclusive v := by
    intro hq hcar hss hsc hinit hknows
    refine hdone hq hcar ?_ ?_ ?_ ?_ ?_ ?_
    · intro hr hfr
      rw [hss] at hr hfr
      obtain ⟨h1, h2⟩ := h.free hr hfr
      refine ⟨Multiset.le_zero.mp ?_, fun x hx => hrel x (h2 x hx)⟩
      rw [← h1]
      unfold tokens
      rw [hoff hq]
      exact add_le_add_right hcar _
    · rw [hss, hsc]
      exact id
    · rw [hss]
      exact h.ready
    · rw [hss, hsc]
      exact h.config
    · rw [hss]
      exact fun hi => hinit₁ (hinit hi)
    · rw [hss]
      exact hknows
  have hdrop : held Envelope.tokens (z.vm v).side.mailbox +
      held (fun e => {(w.executor e).handshake}) (z.vm v).side.watching ≤ w.carried v := by
    rw [← hcar₁]
    exact Multiset.le_add_left _ _
  cases hs with
  | keeps hm hret hi =>
    refine hsame (by simp) (hcar' ▸ hdrop) hslot₁ hconf₁ id ?_
    intro e he hr
    refine hknows₁ e he hr ?_
    intro hmsg
    have hnr := hret (.inr (.inr ⟨e, hmsg⟩))
    rw [hslot₁, hr] at hnr
    cases hnr
  | init hm =>
    have hoc : (w.vm v).actor.slot.config = false := by
      rcases ht.origin with ⟨hmem, hn⟩ | ho
      · refine h.init ?_
        obtain ⟨about, msg⟩ := m
        obtain rfl : msg = .init := hm
        obtain rfl : about = none := hn
        exact hmem
      · rw [hm] at ho
        cases ho
    have hsc : ((z.vm v).side.setSlot fun t => { t with ready := false, free := true }).slot.config
        = false := by
      rw [← hoc, ← hslot₁]
      rfl
    refine hdone (by simp) (hcar' ▸ hdrop) (by simp [VmSide.setSlot]) ?_ (by simp [VmSide.setSlot])
      ?_ (fun _ => hsc) (by simp [VmSide.setSlot])
    · rintro (hc | ⟨-, hc⟩)
      · exact .inl (hconf₁ ▸ hc)
      · simp [hsc] at hc
    · intro hc
      simp [hsc] at hc
  | getsReady hm hi hc =>
    rw [hslot₁] at hc
    have hsf : ((z.vm v).side.setSlot fun t => { t with ready := true }).slot.free =
        (w.vm v).actor.slot.free := by
      rw [← hslot₁]
      rfl
    have hsc : ((z.vm v).side.setSlot fun t => { t with ready := true }).slot.config = true := by
      rw [← hc, ← hslot₁]
      rfl
    refine hdone (by simp) (hcar' ▸ hdrop) ?_ ?_ (fun _ => hsc) ?_ ?_ ?_
    · intro _ hfr
      have htok : w'.tokens v ≤ w.tokens v := by
        unfold tokens
        rw [hoff (by simp)]
        exact add_le_add_right (hcar' ▸ hdrop) _
      cases hr : (w.vm v).actor.slot.ready with
      | true =>
        obtain ⟨h1, h2⟩ := h.free hr (hsf ▸ hfr)
        exact ⟨Multiset.le_zero.mp (h1 ▸ htok), fun x hx => hrel x (h2 x hx)⟩
      | false =>
        obtain ⟨h1, h2, -⟩ := h.notYet (.inr ⟨hr, hc⟩)
        exact ⟨Multiset.le_zero.mp (h1 ▸ htok), by simp [h2]⟩
    · rintro (hcf | ⟨hcf, -⟩)
      · exact .inl (hconf₁ ▸ hcf)
      · cases hcf
    · exact fun _ => hconf₁.trans (h.config hc)
    · intro hin
      have hno := hinit₁ hin
      rw [hc] at hno
      cases hno
    · intro e he _
      cases hr : (w.vm v).actor.slot.ready with
      | true =>
        refine hknows₁ e he hr ?_
        intro hmsg
        rw [hmsg] at hm
        exact hm trivial
      | false => exact absurd he ((h.notYet (.inr ⟨hr, hc⟩)).2.2 e)
  | @configured config ready hm hr =>
    -- nobody posts it: a machine is configured from outside
    rcases ht.origin with ⟨-, hn⟩ | ho
    · simp [Names, hm] at hn
    · rw [hm] at ho
      cases ho
  | restarts hm =>
    refine hdone (by simp) ?_ (by simp [VmSide.post]) ?_ (by simp [VmSide.post])
      (by simp [VmSide.post]) (fun _ => rfl) (by simp [VmSide.post])
    · rw [hcar']
      have hpost : held Envelope.tokens ((z.vm v).mailbox ++ [⟨none, .init⟩]) =
          held Envelope.tokens (z.vm v).mailbox := by
        simp [Envelope.tokens]
      refine le_trans (le_of_eq ?_) hdrop
      exact congrArg (· + _) hpost
    · rintro (hc | ⟨-, hc⟩)
      · exact .inl (hconf₁ ▸ hc)
      · cases hc
  | answers hm ha =>
    refine hsame (by simpa using ha) (hcar' ▸ hdrop) hslot₁ hconf₁ id ?_
    exact fun e he hr => hknows₁ e he hr (by simp [hm])
  | accepts hm hr hfr =>
    rw [hslot₁] at hr hfr
    obtain ⟨hzero, hall⟩ := h.free hr hfr
    have hz1 : w.offered v = 0 := Multiset.le_zero.mp (hzero ▸ Multiset.le_add_right _ _)
    have hz2 : w.carried v = 0 := Multiset.le_zero.mp (hzero ▸ Multiset.le_add_left _ _)
    obtain ⟨x, rfl⟩ : ∃ x, m = ⟨some x, .sendTask⟩ := by
      obtain ⟨about, msg⟩ := m
      obtain rfl : msg = .sendTask := hm
      rcases ht.origin with ⟨-, hn⟩ | ho
      · cases about with
        | none => exact absurd rfl hn
        | some x => exact ⟨x, rfl⟩
      · cases ho
    have hno : ∀ e, ¬ w.Occupies e v := fun e he => carried_ne_zero hp (h.knows e he hr) hz2
    have hno' : ∀ e, ¬ w'.Occupies e v := fun e he => hno e (hocc e he)
    have hoff' : w'.offered v = {x} := by
      unfold offered at hz1 ⊢
      rw [hreplies, hf.asks, ht.asks, ht.replies, held_append, add_right_comm, hz1]
      simp [repliesTo, Reply.tokens]
    have hacc' : w'.accepts v = x :: w.accepts v := by
      unfold accepts
      rw [haccepted, ht.accepted]
      simp
    have htok' : w'.tokens v = {x} := by
      unfold tokens
      have hle : w'.carried v ≤ 0 := by
        rw [hcar', ← hz2]
        exact hdrop
      rw [hoff', Multiset.le_zero.mp hle, add_zero]
    constructor
    · simp [htok']
    · rw [hslot]
      intro _ hfr'
      cases hfr'
    · intro y hy
      rw [htok', Multiset.mem_singleton] at hy
      rw [hacc', hy]
      rfl
    · rw [hacc']
      exact fun y hy => hrel y (hall y hy)
    · intro hn
      unfold NotYetReady at hn
      rw [hslot, hconf] at hn
      rcases hn with hn | ⟨hn, -⟩
      · have hcf : (z.vm v).side.configured = true := hconf₁.trans (h.config (h.ready hr))
        exact Bool.noConfusion (hcf.symm.trans hn)
      · have hrd : (z.vm v).side.slot.ready = true := by rw [hslot₁, hr]
        exact Bool.noConfusion (hrd.symm.trans hn)
    · rw [hslot]
      intro _
      show (z.vm v).side.slot.config = true
      rw [hslot₁]
      exact h.ready hr
    · rw [hslot, hconf]
      intro _
      exact hconf₁.trans (h.config (h.ready hr))
    · rw [hslot, hmail]
      intro hi
      show (z.vm v).side.slot.config = false
      rw [hslot₁]
      exact hinit₁ hi
    · exact fun e he => absurd he (hno' e)
    · exact fun e he => absurd he (hno' e)
    · exact fun e e' he => absurd he (hno' e)
  | stops hm =>
    refine hsame (by simp) (hcar' ▸ hdrop) hslot₁ hconf₁ id ?_
    exact fun e he hr => hknows₁ e he hr (by simp [hm])
  | @watches x hm hr hl =>
    have hmt : m.tokens = {(w.executor x).handshake} := ht.executor_tokens hm
    refine hsame (by simp) ?_ hslot₁ hconf₁ id ?_
    · rw [hcar', ← hcar₁, hmt, add_left_comm]
      exact add_le_add_right (held_insert_le (f := fun e => {(w.executor e).handshake})) _
    · intro e he hrd
      by_cases hex : e = x
      · subst hex
        exact .inr List.mem_insert_self
      · refine (hknows₁ e he hrd ?_).imp_right fun h => List.mem_insert_of_mem h
        rw [hm]
        intro hmsg
        exact hex (VmMessage.executor.inj hmsg).symm
  | @watchesDead x hm hr hl =>
    have hmt : m.tokens = {(w.executor x).handshake} := ht.executor_tokens hm
    refine hsame (by simp) ?_ hslot₁ hconf₁ ?_ ?_
    · rw [hcar', ← hcar₁, hmt]
      have hpost : held Envelope.tokens
          ((z.vm v).mailbox ++ [⟨some (z.executor x).handshake, .terminated x⟩]) =
          {(w.executor x).handshake} + held Envelope.tokens (z.vm v).mailbox := by
        rw [held_append, add_comm, ht.executor]
        simp [Envelope.tokens]
      rw [← add_assoc, ← hpost]
      exact le_refl _
    · intro hi
      have hi' : ⟨none, .init⟩ ∈ (z.vm v).mailbox ++
          [⟨some (z.executor x).handshake, .terminated x⟩] := hi
      simpa using hi'
    · intro e he hrd
      have hex : e ≠ x := by
        rintro rfl
        rw [ht.executor] at hl
        exact hl he.1
      refine (hknows₁ e he hrd ?_).imp_left ?_
      · rw [hm]
        intro hmsg
        exact hex (VmMessage.executor.inj hmsg).symm
      · rintro ⟨y, hy, hmsg⟩
        exact ⟨y, List.mem_append_left _ hy, hmsg⟩
  | frees hr hm =>
    rw [hslot₁] at hr
    refine hdone (by simp) (hcar' ▸ hdrop) ?_ ?_ ?_ ?_ ?_ ?_
    · intro _ _
      have hgone : ∀ hm' : m.msg = .cannotGetExecutor ∨ ∃ e, m.msg = .terminated e,
          w'.tokens v = 0 ∧ ∀ x ∈ w.accepts v, w'.Released x := by
        intro hm'
        -- the only token of the machine is the one of `m`
        obtain ⟨x, hx, hxr⟩ := ht.releases (by exact hr) hm'
        have hcard := h.one
        have htok : w.tokens v = {x} + (w.offered v + w'.carried v) := by
          unfold tokens
          rw [← hcar₁, hx, hcar', add_left_comm]
          rfl
        rw [htok, Multiset.card_add, Multiset.card_singleton] at hcard
        have hrest' : w.offered v + w'.carried v = 0 := Multiset.card_eq_zero.mp (by omega)
        refine ⟨?_, ?_⟩
        · unfold tokens
          rw [hoff (by simp)]
          exact hrest'
        · have hhead := h.head x (by rw [htok]; simp)
          intro y hy
          cases hacc₀ : w.accepts v with
          | nil => simp [hacc₀] at hy
          | cons z l =>
            rw [hacc₀] at hhead hy
            rcases List.mem_cons.mp hy with rfl | hy
            · obtain rfl : y = x := by simpa using hhead
              exact hrel₁ y hxr
            · exact hrel y (h.tail y (by rw [hacc₀]; exact hy))
      rcases hm with hm | hm | ⟨request, hm, hcomp⟩
      · exact hgone (.inl hm)
      · exact hgone (.inr hm)
      · cases hfr : (w.vm v).actor.slot.free with
        | false => exact absurd hcomp (hrest request hm hr hfr)
        | true =>
          obtain ⟨h1, h2⟩ := h.free hr hfr
          refine ⟨Multiset.le_zero.mp ?_, fun x hx => hrel x (h2 x hx)⟩
          rw [← h1]
          unfold tokens
          rw [hoff (by simp)]
          exact add_le_add_right (hcar' ▸ hdrop) _
    · rintro (hc | ⟨hc, -⟩)
      · exact .inl (hconf₁ ▸ hc)
      · have hrd : (z.vm v).side.slot.ready = true := by rw [hslot₁, hr]
        exact Bool.noConfusion (hrd.symm.trans hc)
    · intro _
      show (z.vm v).side.slot.config = true
      rw [hslot₁]
      exact h.ready hr
    · intro _
      exact hconf₁.trans (h.config (h.ready hr))
    · intro hi
      show (z.vm v).side.slot.config = false
      rw [hslot₁]
      exact hinit₁ hi
    · intro e he _
      refine hknows₁ e he hr ?_
      intro hmsg
      rcases hm with hm | ⟨x, hm⟩ | ⟨request, hm, -⟩ <;> simp [hm] at hmsg

/-- Before it is configured, a machine stands for nothing. -/
theorem Exclusive.configure {config : VagrantEnvironmentConfig} (h : w.Exclusive v)
    (hc : (w.vm v).configured = false) (hi : ⟨none, .init⟩ ∉ (w.vm v).mailbox) :
    ((w.updVm v fun c => { c with configured := true }).handleVm v o
      ⟨none, .setVagrantEnvironmentConfig config⟩).Exclusive v := by
  obtain ⟨z, hz⟩ : ∃ z, z = w.updVm v fun c => { c with configured := true } := ⟨_, rfl⟩
  rw [← hz]
  obtain ⟨s, as, hs, hside, hreplies, haccepted, -⟩ := handleVm_spec v o
    ⟨none, .setVagrantEnvironmentConfig config⟩ z
  have hf := handleVm_frame v o ⟨none, .setVagrantEnvironmentConfig config⟩ z
  generalize z.handleVm v o _ = w' at *
  obtain ⟨h1, h2, h3⟩ := h.notYet (.inl hc)
  have hcf : (w.vm v).actor.slot.config = false := by
    cases hcf : (w.vm v).actor.slot.config with
    | false => rfl
    | true => exact Bool.noConfusion (hc.symm.trans (h.config hcf))
  have hrd : (w.vm v).actor.slot.ready = false := by
    cases hrd : (w.vm v).actor.slot.ready with
    | false => rfl
    | true => exact Bool.noConfusion (hcf.symm.trans (h.ready hrd))
  have hvm : z.vm v = { w.vm v with configured := true } := by
    rw [hz]
    simp
  have hx : w'.executor = w.executor := by
    rw [hf.executor, hz]
    rfl
  have hslot : (w'.vm v).actor.slot = s.slot := congrArg VmSide.slot hside
  have hconf : (w'.vm v).configured = s.configured := congrArg VmSide.configured hside
  have hmail : (w'.vm v).mailbox = s.mailbox := congrArg VmSide.mailbox hside
  have hwatch : (w'.vm v).watching = s.watching := congrArg VmSide.watching hside
  -- nothing but the slot and an `Init` can be new
  have hs' : s.configured = true ∧ s.watching = (w.vm v).watching ∧
      (s.mailbox = (w.vm v).mailbox ∧ (s.slot.ready = true → s.slot.config = true) ∨
        s.mailbox = (w.vm v).mailbox ++ [⟨none, .init⟩] ∧ s.slot = ⟨false, false, false⟩) := by
    have hside₁ : (z.vm v).side = { (w.vm v).side with configured := true } := by
      rw [hvm]
      rfl
    rw [hside₁] at hs
    cases hs with
    | keeps hm hret hi' =>
      refine ⟨rfl, rfl, .inl ⟨rfl, ?_⟩⟩
      intro hr
      exact Bool.noConfusion (hrd.symm.trans hr)
    | getsReady hm hi' hcfg => exact Bool.noConfusion (hcf.symm.trans hcfg)
    | configured hm hr => exact ⟨rfl, rfl, .inl ⟨rfl, fun _ => rfl⟩⟩
    | restarts hm => exact ⟨rfl, rfl, .inr ⟨rfl, rfl⟩⟩
    | init hm => cases hm
    | answers hm ha => cases hm
    | accepts hm hr hfr => cases hm
    | stops hm => cases hm
    | watches hm hr hl => cases hm
    | watchesDead hm hr hl => cases hm
    | frees hr hm => rcases hm with hm | ⟨x, hm⟩ | ⟨request, hm, -⟩ <;> cases hm
  obtain ⟨hsc, hsw, hsm⟩ := hs'
  have htok : w'.tokens v = 0 := by
    have hoff : w'.offered v = w.offered v := by
      unfold offered
      rw [hreplies, hf.asks, hz]
      simp [repliesTo]
    have hcar : w'.carried v = w.carried v := by
      unfold carried
      rw [hmail, hwatch, hx, hsw]
      rcases hsm with ⟨hsm, -⟩ | ⟨hsm, -⟩
      · rw [hsm]
      · rw [hsm, held_append]
        simp [Envelope.tokens]
    unfold tokens at h1 ⊢
    rw [hoff, hcar, h1]
  have hacc : w'.accepts v = [] := by
    unfold accepts at h2 ⊢
    rw [haccepted, hz]
    simpa using h2
  have hno : ∀ e, ¬ w'.Occupies e v := by
    unfold Occupies at h3 ⊢
    rw [hx]
    exact h3
  constructor
  · simp [htok]
  · exact fun _ _ => ⟨htok, by simp [hacc]⟩
  · simp [htok]
  · simp [hacc]
  · exact fun _ => ⟨htok, hacc, hno⟩
  · rw [hslot]
    rcases hsm with ⟨-, hsm⟩ | ⟨-, hsm⟩
    · exact hsm
    · simp [hsm]
  · rw [hconf, hsc]
    exact fun _ => rfl
  · rw [hslot, hmail]
    rcases hsm with ⟨hsm, -⟩ | ⟨-, hsm⟩
    · rw [hsm]
      exact fun hi' => absurd hi' hi
    · simp [hsm]
  · exact fun e he => absurd he (hno e)
  · exact fun e he => absurd he (hno e)
  · exact fun e e' he => absurd he (hno e)

end World

/-! ## Runs of the handshake -/

/-- The address is told the machine it was asked for. -/
def World.OwnTarget (w : World) (a : Ask) : Prop :=
  match a.kind, (w.task a.task).actor.targetVm with
  | .executorAddress v, some u => u = v
  | _, _ => True

instance (w : World) (a : Ask) : Decidable (w.OwnTarget a) := by
  delta World.OwnTarget
  generalize a.kind = kind, (w.task a.task).actor.targetVm = target
  induction kind using AskKind.casesOn <;> induction target using Option.casesOn <;>
    dsimp only <;> infer_instance

/-- The condition: a request completes only on a ready machine whose slot
is free, and the answer to an ask for an executor's address finds its
machine in `targetVm`, or nothing. -/
def KeepsSlots (_ : List Event) (w : World) : Event → Prop
  | .vmInput v (.restApiRequest request) o =>
      (w.vm v).actor.ready = true → (w.vm v).actor.haveSpaceForTasks = false →
        ¬ VMProxyActor.Completes o.http (w.vm v).actor.portMapping request
  | .address a => (w.task a.task).phase ≠ .stopped → w.OwnTarget a
  | .addressFails a => w.OwnTarget a
  | _ => True

instance (es : List Event) (w : World) : DecidablePred (KeepsSlots es w) := fun e => by
  induction e using Event.casesOn with
  | vmInput v m o =>
    induction m using VmMessage.casesOn <;> delta KeepsSlots <;> dsimp only <;> infer_instance
  | _ => delta KeepsSlots; dsimp only; infer_instance

namespace World

variable {w w' : World} {e : Event} {v : ℕ} {es : List Event}

theorem exclusive_step (hn : w.Numbered) (hp : w.Posted) (h : ∀ v, w.Exclusive v)
    (hok : KeepsSlots es w e) (hm : w.Moves e w') (v : ℕ) : w'.Exclusive v := by
  have habs : (w.executor w.next).phase = .absent := hn.executors _ (Nat.le_refl _)
  cases hm with
  | create hp' => exact (h v).spends spends_updTask
  | getTaskTaken hp' ht => exact h v
  | getTask hp' ht => exact (h v).spends spends_offer
  | persistAndSuicide hp' =>
    exact (h v).spends (spends_idle hp (by simp [Modest, NoOffer]) rfl rfl rfl rfl (le_refl _)
      (by simp [posts]) (by simp [makes]))
  | @terminatedDone t r hp' hr hd =>
    exact (h v).spends (spends_idle (z := w.takeNotice t r) hp (by simp [Modest, NoOffer]) rfl
      rfl rfl rfl (le_refl _) (by simp [posts]) (by simp [makes]))
  | @terminatedTarget t u x hp' hr hd hv hx =>
    exact (h v).spends (spends_idle (z := w.takeNotice t (.vm u)) hp (by simp [Modest, NoOffer])
      rfl rfl rfl rfl (le_refl _) (by simp [posts]) (by simp [makes]))
  | @terminatedNull t r hp' hr hd hn' =>
    exact (h v).spends ((spends_idle (z := w.takeNotice t r) hp (by simp) rfl rfl rfl rfl
      (le_refl _) (by simp) (by simp)).trans spends_updTask)
  | @terminatedOther t u r hp' hr hd hv hne =>
    exact (h v).spends (spends_idle (z := w.takeNotice t r) hp (by simp [Modest, NoOffer]) rfl
      rfl rfl rfl (le_refl _) (by simp [posts]) (by simp [makes]))
  | @stop t ha hs =>
    rw [stopTask_eq_act (h := 0)]
    exact (h v).spends (spends_idle hp (by simp [Modest, NoOffer]) rfl rfl rfl rfl (le_refl _)
      (by simp [posts]) (by simp [makes]))
  | lateReply hr hno =>
    refine (h v).spends (spends_of_same rfl rfl rfl rfl ?_)
    rw [← offered_dropReply (v := v) hr]
    exact Multiset.le_add_left _ _
  | @acquireRemote r a hr ha hh hk hq hc hl =>
    refine (h v).spends (spends_modest (z := (w.dropReply r).dropAsk a) hp
      (by simp [Modest, NoOffer]) rfl rfl rfl rfl ?_)
    have hle := offered_complete (v := v) hr ha
    have htok : Ask.tokens v ⟨a.handshake, a.task, .executorAddress r.vm⟩ = r.tokens v := by
      simp [Ask.tokens, Reply.tokens, hq, hh]
    simp only [List.flatMap_cons, posts, makes, List.flatMap_nil, List.append_nil, List.nil_append,
      held_nil, held_cons, add_zero, zero_add, htok]
    rw [add_comm]
    exact (add_le_add_right (Multiset.le_add_left _ _) _).trans hle
  | @acquireLocal r a hr ha hh hk hq hp' hl =>
    have hx : ∀ e, e ≠ w.next → [.watch (.vm r.vm), .createExecutor w.next,
        .watch (.executor w.next), .tellVm r.vm (.executor w.next), .executeTask w.next r.vm,
        .tellDb (.updateTaskStatus (w.task a.task).actor.task.fullName .running
          (w.task a.task).actor.tablename)].foldl (writes a.task a.handshake e) (w.executor e) =
            w.executor e := by
      intro e he
      simp [writes, he.symm]
    by_cases hv : v = r.vm
    · subst hv
      refine (h r.vm).newExecutor (z := (w.dropReply r).dropAsk a) (x := w.next) hp
        (by simp [NoOffer]) rfl rfl rfl habs (fun e he => (act_executor e).trans (hx e he))
        (by simp [makes]) (by simp [posts, envelope]) ?_
      have hle := offered_complete (v := r.vm) hr ha
      have htok : r.tokens r.vm = {a.handshake} := by
        simp [Reply.tokens, hq, hh]
      rw [htok] at hle
      exact (add_le_add_right (Multiset.le_add_left _ _) _).trans hle
    · refine (h v).spends (spends_newExecutor (z := (w.dropReply r).dropAsk a) (x := w.next) hp
        (by simp [NoOffer]) rfl rfl rfl habs (fun e he => (act_executor e).trans (hx e he)) ?_ ?_)
      · rw [act_executor]
        simp [writes, Ne.symm hv]
      · simpa [posts, makes, Ne.symm hv] using complete_le hr ha
  | @acquireTerminating r a hr ha hh hk hq hp' =>
    exact (h v).spends (spends_idle (z := (w.dropReply r).dropAsk a) hp (by simp [Modest, NoOffer])
      rfl rfl rfl rfl (complete_le hr ha) (by simp [posts]) (by simp [makes]))
  | @acquireTerminated r a hr ha hh hk hq hp' =>
    exact (h v).spends (spends_idle (z := (w.dropReply r).dropAsk a) hp (by simp) rfl rfl rfl rfl
      (complete_le hr ha) (by simp) (by simp))
  | @replyOther r a hr ha hh hk hq =>
    exact (h v).spends (spends_idle (z := (w.dropReply r).dropAsk a) hp (by simp) rfl rfl rfl rfl
      (complete_le hr ha) (by simp) (by simp))
  | @replyFailure r a hr ha hh hk hq =>
    exact (h v).spends (spends_idle (z := (w.dropReply r).dropAsk a) hp (by simp) rfl rfl rfl rfl
      (complete_le hr ha) (by simp) (by simp))
  | @sendTaskTimeout a u ha hk =>
    exact (h v).spends (spends_idle (z := w.dropAsk a) hp (by simp) rfl rfl rfl rfl
      (dropAsk_le ha) (by simp) (by simp))
  | @address a target u ha hk hp' hv =>
    have hx : ∀ e, e ≠ w.next → [.createExecutor w.next, .watch (.executor w.next),
        .tellVm u (.executor w.next), .executeTask w.next target,
        .tellDb (.updateTaskStatus (w.task a.task).actor.task.fullName .running
          (w.task a.task).actor.tablename)].foldl (writes a.task a.handshake e) (w.executor e) =
            w.executor e := by
      intro e he
      simp [writes, he.symm]
    obtain rfl : u = target := by simpa [OwnTarget, hk, hv] using hok hp'
    by_cases hvu : v = u
    · subst hvu
      refine (h v).newExecutor (z := w.dropAsk a) (x := w.next) hp (by simp [NoOffer]) rfl rfl rfl
        habs (fun e he => (act_executor e).trans (hx e he)) (by simp [makes])
        (by simp [posts, envelope]) ?_
      have hle := offered_dropAsk (v := v) ha
      rwa [show a.tokens v = {a.handshake} by simp [Ask.tokens, hk]] at hle
    · refine (h v).spends (spends_newExecutor (z := w.dropAsk a) (x := w.next) hp
        (by simp [NoOffer]) rfl rfl rfl habs (fun e he => (act_executor e).trans (hx e he)) ?_ ?_)
      · rw [act_executor]
        simp [writes, Ne.symm hvu]
      · simpa [posts, makes, Ne.symm hvu] using dropAsk_le ha
  | @addressNull a target ha hk hp' hv =>
    refine (h v).spends (spends_newExecutor (z := w.dropAsk a) (x := w.next) hp
      (by simp [NoOffer]) rfl rfl rfl habs ?_ ?_ ?_)
    · intro e he
      rw [act_executor]
      simp [writes, he.symm]
    · rw [act_executor]
      simp [writes]
    · simpa [posts, makes] using dropAsk_le ha
  | @addressStopped a target ha hk hp' =>
    exact (h v).spends (spends_idle (z := w.dropAsk a) hp (by simp) rfl rfl rfl rfl
      (dropAsk_le ha) (by simp) (by simp))
  | @addressFails a target u ha hk hv =>
    obtain rfl : u = target := by
      have hown : w.OwnTarget a := hok
      simpa [OwnTarget, hk, hv] using hown
    refine (h v).spends (spends_modest (z := w.dropAsk a) hp (by simp [Modest, NoOffer]) rfl rfl
      rfl rfl ?_)
    by_cases hvu : v = u
    · subst hvu
      have hle := offered_dropAsk (v := v) ha
      rw [show a.tokens v = {a.handshake} by simp [Ask.tokens, hk]] at hle
      simpa [posts, makes, envelope, Envelope.tokens] using hle
    · simpa [posts, makes, Ne.symm hvu] using dropAsk_le ha
  | @addressFailsNull a target ha hk hv =>
    exact (h v).spends (spends_idle (z := w.dropAsk a) hp (by simp) rfl rfl rfl rfl
      (dropAsk_le ha) (by simp) (by simp))
  | @vmTakes u m o hv hmem =>
    obtain ⟨d, hd, hsup, hnote⟩ := noteDeclined_eq (w := w) u m
    rw [hd]
    by_cases hvu : v = u
    · subst hvu
      refine (h v).handleVm hp ?_ ?_
      · refine ⟨by simp, by simp, by simp, rfl, rfl, rfl, rfl, hsup, hnote, ?_, ?_, ?_,
          .inl ⟨hmem, hp.names v m hmem⟩⟩
        · simp only [updVm_vm, Function.update_self]
          exact fun x hx => List.mem_of_mem_erase hx
        · simp only [updVm_vm, Function.update_self]
          exact fun x hx hne => (List.mem_erase_of_ne hne).mpr hx
        · simp only [updVm_vm, Function.update_self]
          exact held_erase hmem
      · intro request hmsg
        have hn := hp.names v m hmem
        simp [Names, hmsg] at hn
    · exact (h v).spends (((spends_declined hsup).trans (spends_updVm hvu)).trans
        (spends_handleVm hvu))
  | @vmInput u m o hv ho =>
    by_cases hvu : v = u
    · subst hvu
      refine (h v).handleVm hp ⟨rfl, rfl, rfl, rfl, rfl, rfl, rfl, fun _ hx => hx, ?_,
        fun _ hx => hx, fun _ hx _ => hx, ?_, .inr ho⟩ ?_
      · simp
      · simp [Envelope.tokens]
      · rintro request rfl hr hf
        exact hok hr hf
    · exact (h v).spends (spends_handleVm hvu)
  | @configure u config o hv hc hi =>
    by_cases hvu : v = u
    · subst hvu
      exact (h v).configure hc hi
    · exact (h v).spends ((spends_updVm hvu).trans (spends_handleVm hvu))
  | @vmDies u hv =>
    by_cases hvu : v = u
    · subst hvu
      have hvm : (w.killVm v).vm v = { w.vm v with alive := false } := by simp
      refine (h v).spends ⟨by rw [hvm], by rw [hvm], by rw [hvm]; exact id, rfl, fun _ h => h,
        fun _ h => h, ?_, le_refl _, ?_⟩
      · unfold Knows
        rw [hvm]
        exact fun _ _ h => h
      · unfold tokens carried
        rw [hvm]
        exact le_refl _
    · exact (h v).spends ((spends_updVm (f := fun c => { c with alive := false }) hvu).trans
        (spends_of_same rfl rfl rfl rfl (le_refl _)))
  | throws hp' ht =>
    exact (h v).spends (spends_updExecutor hp (by simp [ExecutorCell.Live, hp']) ⟨rfl, rfl⟩)
  | failedNotTaken hx hp' ht => exact (h v).spends (spends_judge hp hx)
  | failedReset hx hp' ht hes =>
    rcases hes with ⟨rfl, -⟩ | ⟨rfl, -⟩
    · exact (h v).spends ((spends_asks hp (.inl rfl)).trans
        (spends_judge (hp.act (by simp) (by simp)) (by exact hx)))
    · exact (h v).spends ((spends_asks hp (.inr ⟨_, rfl⟩)).trans
        (spends_judge hp.askStillAlive (by exact hx)))
  | failedEscalate hx hp' ht hres hes =>
    rcases hes with ⟨rfl, -⟩ | ⟨rfl, -⟩
    · exact (h v).spends (((spends_asks hp (.inl rfl)).trans
        (spends_judge (hp.act (by simp) (by simp)) (by exact hx))).trans spends_updTask)
    · exact (h v).spends (((spends_asks hp (.inr ⟨_, rfl⟩)).trans
        (spends_judge hp.askStillAlive (by exact hx))).trans spends_updTask)
  | failedRaises hx hp' ht hf hes =>
    rcases hes with ⟨rfl, -⟩ | ⟨rfl, -⟩
    · exact (h v).spends (((spends_asks hp (.inl rfl)).trans
        (spends_judge (hp.act (by simp) (by simp)) (by exact hx))).trans spends_updTask)
    · exact (h v).spends (((spends_asks hp (.inr ⟨_, rfl⟩)).trans
        (spends_judge hp.askStillAlive (by exact hx))).trans spends_updTask)
  | failedStopped hx hp' => exact (h v).spends (spends_judge hp hx)
  | executorDies he => exact (h v).spends (spends_killExecutor he)

/-- Each machine is the target of at most one live executor, and has
accepted a further task only when the one before was released. -/
def SlotsExclusive (w : World) : Prop :=
  ∀ v, (∀ e e', w.Occupies e v → w.Occupies e' v → e = e') ∧
    ∀ h ∈ (w.accepts v).tail, w.Released h

end World

/-- **Machine exclusivity**, in the runs that meet the condition. -/
theorem slots_exclusive {es : List Event} {w : World} (h : handshake.Run KeepsSlots es w) :
    w.SlotsExclusive := by
  have hinv : w.Numbered ∧ w.Posted ∧ ∀ v, w.Exclusive v := by
    refine h.state_invariant (I := fun w => w.Numbered ∧ w.Posted ∧ ∀ v, w.Exclusive v)
      ⟨World.numbered_init, World.posted_init, World.exclusive_init⟩ ?_
    intro es w e w' ⟨hn, hp, hex⟩ hok hs
    have hm := World.step_moves hs
    exact ⟨World.numbered_step hn hm, World.posted_step hn hp hm,
      World.exclusive_step hn hp hex hok hm⟩
  intro v
  exact ⟨(hinv.2.2 v).unique, (hinv.2.2 v).tail⟩

/-- Machine 0 executes one task after the other. -/
def twoTasksRun : List Event :=
  .create 0 anyTask "run" :: .create 1 anyTask "run" :: provision 0 ++ accept 0 0 1 ++
    [.address ⟨1, 0, .executorAddress 0⟩, .vmTakes 0 ⟨some 1, .executor 2⟩ idleOutside,
      .executorDies 2, .vmTakes 0 ⟨some 1, .terminated 2⟩ idleOutside] ++ accept 1 0 4 ++
    [.address ⟨4, 1, .executorAddress 0⟩]

theorem slots_exclusive_twoTasksRun :
    ∃ w, handshake.Run KeepsSlots twoTasksRun w ∧ w.accepts 0 = [4, 1] ∧ w.Occupies 5 0 ∧
      w.SlotsExclusive := by
  obtain ⟨w, hrun, ha, ho⟩ := @EventSystem.exists_run_of_execWhen _ _ handshake KeepsSlots _
    (fun w => w.accepts 0 = [4, 1] ∧ w.Occupies 5 0) _ twoTasksRun (by decide)
  exact ⟨w, hrun, ha, ho, slots_exclusive hrun⟩

/-- An outside where every request is answered. -/
def webOutside : VMProxyActor.Outside :=
  ⟨⟨fun _ => some ⟨"http", some "", none, none⟩, some, fun _ _ => true, fun _ _ => true,
    fun uri _ _ => some uri, fun _ => .ok "", fun _ => none, fun _ => true⟩, .alphabetical,
    fun _ => .connected⟩

/-- The test that runs for machine 0 sends it a request. The answer
frees the slot, and the machine takes a second task. -/
def requestRun : List Event :=
  .create 0 anyTask "run" :: .create 1 anyTask "run" :: provision 0 ++ accept 0 0 1 ++
    [.address ⟨1, 0, .executorAddress 0⟩, .vmTakes 0 ⟨some 1, .executor 2⟩ idleOutside,
      .vmInput 0 (.restApiRequest ⟨"GET", "http://vm", some [], some [], none⟩) webOutside] ++
    accept 1 0 4 ++ [.address ⟨4, 1, .executorAddress 0⟩]

/-- **Two executors can run on one machine.** -/
theorem slots_overlap :
    ¬ ∀ es w, handshake.Run EventSystem.anyStep es w → w.SlotsExclusive := by
  intro h
  obtain ⟨w, hrun, h2, h5⟩ := @EventSystem.exists_run_of_exec _ _ handshake
    (fun w => w.Occupies 2 0 ∧ w.Occupies 5 0) _ requestRun (by decide)
  exact absurd ((h _ w hrun 0).1 2 5 h2 h5) (by decide)

end Clustering.Handshake
