/-
Clustering.Handshake.Effects — what the code of a task actor leaves,
part by part.

`World.act` performs a list of effects one after the other. Each lemma
here says what becomes of one part of the world: the mailboxes of the
machines, the asks, the executors, the fields of the task actors. A
proof about one part of the world evaluates that part and never follows
the others. `Moves.calm` is what all steps outside the machines have in
common.
-/
import Clustering.Handshake.Moves

namespace Clustering.Handshake

open Actors Clustering.Worker Clustering.Vm

/-- What a task actor tells a machine, on its way. -/
def envelope (h : ℕ) : ToVm → Envelope
  | .executor e => ⟨some h, .executor e⟩
  | .cannotGetExecutor => ⟨some h, .cannotGetExecutor⟩
  | .stillAlive => ⟨none, .stillAlive⟩

/-- The messages an effect posts to machine `v`, but for an offer. -/
def posts (h v : ℕ) : TaskEffect → List Envelope
  | .tellVm u m => if u = v then [envelope h m] else []
  | _ => []

/-- The asks an effect makes, but for an offer. -/
def makes (t h : ℕ) : TaskEffect → List Ask
  | .askExecutorAddress target => [⟨h, t, .executorAddress target⟩]
  | _ => []

/-- What an effect of task actor `t` does to executor `e`. -/
def writes (t h e : ℕ) (c : ExecutorCell) : TaskEffect → ExecutorCell
  | .stopExecutor x => if x = e then c.stop else c
  | .stopSelf => if c.task = t then c.stop else c
  | .createExecutor x => if x = e then ⟨t, h, none, .live, false⟩ else c
  | .executeTask x target => if x = e then { c with target := some target } else c
  | _ => c

/-- The effect offers no task. -/
def NoOffer (ef : TaskEffect) : Prop := ∀ v, ef ≠ .askSendTask v

namespace World

variable {w : World} {t h : ℕ} {ef : TaskEffect} {a : TaskActor} {es : List TaskEffect}

theorem perform_vm (hne : NoOffer ef) (v : ℕ) :
    (perform t h w ef).vm v =
      { w.vm v with mailbox := (w.vm v).mailbox ++ posts h v ef } := by
  have hto : ∀ u m, (w.toVm u m).vm v =
      { w.vm v with mailbox := (w.vm v).mailbox ++ if u = v then [m] else [] } := by
    intro u m
    by_cases hu : u = v
    · subst hu
      simp [toVm]
    · simp [toVm, hu, Ne.symm hu]
  cases ef with
  | askSendTask u => exact absurd rfl (hne u)
  | tellVm u m =>
    simp only [posts]
    cases m <;> exact hto _ _
  | _ => simp [perform, posts, World.watch]

theorem foldl_vm (v : ℕ) : ∀ (es : List TaskEffect) {w : World}, (∀ ef ∈ es, NoOffer ef) →
    (es.foldl (perform t h) w).vm v =
      { w.vm v with mailbox := (w.vm v).mailbox ++ es.flatMap (posts h v) }
  | [], w, _ => by simp
  | ef :: es, w, hes => by
      rw [List.foldl_cons, foldl_vm v es fun ef' hef' => hes ef' (by simp [hef']),
        perform_vm (hes ef (by simp))]
      simp

/-- The mailboxes afterwards. -/
theorem act_vm (hes : ∀ ef ∈ es, NoOffer ef) (v : ℕ) :
    (w.act t h a es).vm v =
      { w.vm v with mailbox := (w.vm v).mailbox ++ es.flatMap (posts h v) } :=
  foldl_vm v es hes

theorem perform_asks (hne : NoOffer ef) :
    (perform t h w ef).asks = w.asks ++ makes t h ef := by
  cases ef with
  | askSendTask u => exact absurd rfl (hne u)
  | tellVm u m => cases m <;> simp [perform, makes, toVm]
  | _ => simp [perform, makes, World.watch]

theorem foldl_asks : ∀ (es : List TaskEffect) {w : World}, (∀ ef ∈ es, NoOffer ef) →
    (es.foldl (perform t h) w).asks = w.asks ++ es.flatMap (makes t h)
  | [], w, _ => by simp
  | ef :: es, w, hes => by
      rw [List.foldl_cons, foldl_asks es fun ef' hef' => hes ef' (by simp [hef']),
        perform_asks (hes ef (by simp))]
      simp

/-- The asks afterwards. -/
theorem act_asks (hes : ∀ ef ∈ es, NoOffer ef) :
    (w.act t h a es).asks = w.asks ++ es.flatMap (makes t h) :=
  foldl_asks es hes

theorem perform_executor (e : ℕ) :
    (perform t h w ef).executor e = writes t h e (w.executor e) ef := by
  cases ef with
  | stopExecutor x =>
    by_cases hx : x = e
    · subst hx
      simp [perform, writes]
    · simp [perform, writes, hx, Ne.symm hx]
  | stopSelf => simp [perform, writes]
  | createExecutor x =>
    by_cases hx : x = e
    · subst hx
      simp [perform, writes]
    · simp [perform, writes, hx, Ne.symm hx]
  | executeTask x target =>
    by_cases hx : x = e
    · subst hx
      simp [perform, writes]
    · simp [perform, writes, hx, Ne.symm hx]
  | tellVm u m => cases m <;> rfl
  | _ => rfl

theorem foldl_executor (e : ℕ) : ∀ (es : List TaskEffect) {w : World},
    (es.foldl (perform t h) w).executor e = es.foldl (writes t h e) (w.executor e)
  | [], w => rfl
  | ef :: es, w => by
      rw [List.foldl_cons, foldl_executor e es, perform_executor, List.foldl_cons]

/-- The executors afterwards. -/
theorem act_executor (e : ℕ) :
    (w.act t h a es).executor e = es.foldl (writes t h e) (w.executor e) :=
  foldl_executor e es

theorem writes_same {e : ℕ} {c : ExecutorCell} (hc : ∀ x, ef ≠ .createExecutor x) :
    (writes t h e c ef).task = c.task ∧ (writes t h e c ef).handshake = c.handshake ∧
      (writes t h e c ef).phase = c.phase := by
  cases ef with
  | createExecutor x => exact absurd rfl (hc x)
  | stopExecutor x =>
    simp only [writes]
    split <;> exact ⟨rfl, rfl, rfl⟩
  | stopSelf =>
    simp only [writes]
    split <;> exact ⟨rfl, rfl, rfl⟩
  | executeTask x target =>
    simp only [writes]
    split <;> exact ⟨rfl, rfl, rfl⟩
  | _ => exact ⟨rfl, rfl, rfl⟩

/-- If none is created, executors keep what they were created with and
the phase they are in. -/
theorem foldl_writes_same {e : ℕ} : ∀ (es : List TaskEffect) {c : ExecutorCell},
    (∀ ef ∈ es, ∀ x, ef ≠ .createExecutor x) →
    (es.foldl (writes t h e) c).task = c.task ∧
      (es.foldl (writes t h e) c).handshake = c.handshake ∧
      (es.foldl (writes t h e) c).phase = c.phase
  | [], c, _ => ⟨rfl, rfl, rfl⟩
  | ef :: es, c, hes => by
      have h1 := writes_same (t := t) (h := h) (e := e) (c := c) (hes ef (by simp))
      have h2 := foldl_writes_same (e := e) es (c := writes t h e c ef)
        fun ef' hef' => hes ef' (by simp [hef'])
      exact ⟨h2.1.trans h1.1, h2.2.1.trans h1.2.1, h2.2.2.trans h1.2.2⟩

theorem writes_target {e : ℕ} {c : ExecutorCell} (hc : ∀ x, ef ≠ .createExecutor x)
    (ht : ∀ x y, ef ≠ .executeTask x y) : (writes t h e c ef).target = c.target := by
  cases ef with
  | createExecutor x => exact absurd rfl (hc x)
  | executeTask x y => exact absurd rfl (ht x y)
  | stopExecutor x =>
    simp only [writes]
    split <;> rfl
  | stopSelf =>
    simp only [writes]
    split <;> rfl
  | _ => rfl

theorem foldl_writes_target {e : ℕ} : ∀ (es : List TaskEffect) {c : ExecutorCell},
    (∀ ef ∈ es, ∀ x, ef ≠ .createExecutor x) → (∀ ef ∈ es, ∀ x y, ef ≠ .executeTask x y) →
    (es.foldl (writes t h e) c).target = c.target
  | [], _, _, _ => rfl
  | ef :: es, c, hc, ht => by
      rw [List.foldl_cons, foldl_writes_target es (fun ef' hef' => hc ef' (by simp [hef']))
        (fun ef' hef' => ht ef' (by simp [hef'])), writes_target (hc ef (by simp)) (ht ef (by simp))]

/-- Parts of the world no effect of a task actor writes. -/
structure Untouched (w w' : World) : Prop where
  replies : w'.replies = w.replies
  accepted : w'.accepted = w.accepted
  declined : w'.declined = w.declined
  next : w.next ≤ w'.next

theorem untouched_perform : Untouched w (perform t h w ef) := by
  cases ef with
  | tellVm u m => cases m <;> exact ⟨rfl, rfl, rfl, Nat.le_refl _⟩
  | askSendTask u => exact ⟨rfl, rfl, rfl, Nat.le_succ _⟩
  | createExecutor e => exact ⟨rfl, rfl, rfl, Nat.le_succ _⟩
  | _ => exact ⟨rfl, rfl, rfl, Nat.le_refl _⟩

theorem untouched_foldl : ∀ (es : List TaskEffect) (w : World),
    Untouched w (es.foldl (perform t h) w)
  | [], w => ⟨rfl, rfl, rfl, Nat.le_refl _⟩
  | ef :: es, w => by
      have h1 : Untouched w (perform t h w ef) := untouched_perform
      have h2 := untouched_foldl es (perform t h w ef)
      exact ⟨h2.replies.trans h1.replies, h2.accepted.trans h1.accepted,
        h2.declined.trans h1.declined, Nat.le_trans h1.next h2.next⟩

theorem act_untouched : Untouched w (w.act t h a es) := by
  have hf := untouched_foldl (t := t) (h := h) es (w.setActor t fun _ => a)
  exact ⟨hf.replies, hf.accepted, hf.declined, hf.next⟩

theorem act_replies : (w.act t h a es).replies = w.replies := act_untouched.replies

theorem perform_actor (u : ℕ) : ((perform t h w ef).task u).actor = (w.task u).actor := by
  have hupd : ∀ f : TaskCell → TaskCell, (∀ c, (f c).actor = c.actor) →
      ((w.updTask t f).task u).actor = (w.task u).actor := by
    intro f hf
    by_cases hu : u = t
    · subst hu
      simp [hf]
    · simp [hu]
  cases ef with
  | watch r => exact hupd _ fun c => TaskCell.watch_actor _ _ c
  | unwatch r => exact hupd _ fun c => TaskCell.unwatch_actor _ c
  | stopSelf => exact hupd TaskCell.halt fun c => rfl
  | tellVm v m => cases m <;> rfl
  | _ => rfl

theorem foldl_actor (u : ℕ) : ∀ (es : List TaskEffect) {w : World},
    ((es.foldl (perform t h) w).task u).actor = (w.task u).actor
  | [], w => rfl
  | ef :: es, w => by
      rw [List.foldl_cons, foldl_actor u es, perform_actor]

/-- The fields afterwards. -/
theorem act_actor (u : ℕ) :
    ((w.act t h a es).task u).actor = if u = t then a else (w.task u).actor := by
  unfold act
  rw [foldl_actor]
  by_cases hu : u = t
  · subst hu
    simp [setActor]
  · simp [setActor, hu]

theorem perform_phase (hs : ef ≠ .stopSelf) (u : ℕ) :
    ((perform t h w ef).task u).phase = (w.task u).phase := by
  have hupd : ∀ f : TaskCell → TaskCell, (∀ c, (f c).phase = c.phase) →
      ((w.updTask t f).task u).phase = (w.task u).phase := by
    intro f hf
    by_cases hu : u = t
    · subst hu
      simp [hf]
    · simp [hu]
  cases ef with
  | watch r => exact hupd _ fun c => TaskCell.watch_phase _ _ c
  | unwatch r => exact hupd _ fun c => TaskCell.unwatch_phase _ c
  | stopSelf => exact absurd rfl hs
  | tellVm v m => cases m <;> rfl
  | _ => rfl

theorem foldl_phase (u : ℕ) : ∀ (es : List TaskEffect) {w : World}, .stopSelf ∉ es →
    ((es.foldl (perform t h) w).task u).phase = (w.task u).phase
  | [], w, _ => rfl
  | ef :: es, w, hes => by
      rw [List.foldl_cons, foldl_phase u es fun h => hes (by simp [h]),
        perform_phase fun h => hes (by simp [h])]

/-- The phases afterwards, if the actor does not stop itself. -/
theorem act_phase (hes : .stopSelf ∉ es) (u : ℕ) :
    ((w.act t h a es).task u).phase = (w.task u).phase := by
  unfold act
  rw [foldl_phase u es hes]
  by_cases hu : u = t
  · subst hu
    simp [setActor]
  · simp [setActor, hu]

/-- The world after task actor `t` offered its task to machine `v`. -/
theorem act_offer (v : ℕ) : w.act t h a [.askSendTask v] =
    (((w.setActor t fun _ => a).toVm v ⟨some w.next, .sendTask⟩).addAsk
      ⟨w.next, t, .sendTask v⟩).bump := rfl

theorem stopTask_eq_act : w.stopTask t = w.act t h (w.task t).actor [.stopSelf] := by
  simp [act, perform, setActor_self]

theorem act_offer_vm (v u : ℕ) : (w.act t w.next a [.askSendTask v]).vm u =
    { w.vm u with mailbox := (w.vm u).mailbox ++
        if u = v then [⟨some w.next, .sendTask⟩] else [] } := by
  rw [act_offer]
  by_cases hu : u = v
  · subst hu
    simp [toVm, setActor]
  · simp [toVm, setActor, hu]

/-! ## What happens outside the machines -/

variable {w' : World} {e : Event}

/-- Offers among the messages `ms` have numbers from `n` to `n'`, each
its own. -/
def FreshOffers (n n' : ℕ) (ms : List Envelope) : Prop :=
  ∀ h, ⟨some h, .sendTask⟩ ∈ ms → n ≤ h ∧ h < n' ∧ ms.count ⟨some h, .sendTask⟩ = 1

theorem freshOffers_of_none {n n' : ℕ} {ms : List Envelope} (h : ∀ m ∈ ms, m.msg ≠ .sendTask) :
    FreshOffers n n' ms :=
  fun _ hx => absurd rfl (h _ hx)

theorem FreshOffers.append {n n' n'' : ℕ} {ms ms' : List Envelope} (h : FreshOffers n n' ms)
    (h' : FreshOffers n' n'' ms') (hn : n ≤ n') (hn' : n' ≤ n'') :
    FreshOffers n n'' (ms ++ ms') := by
  intro x hx
  rw [List.count_append]
  rcases List.mem_append.mp hx with hx | hx
  · obtain ⟨h1, h2, h3⟩ := h x hx
    have hno : ⟨some x, .sendTask⟩ ∉ ms' := by
      intro hx'
      have := (h' x hx').1
      omega
    rw [h3, List.count_eq_zero.mpr hno]
    exact ⟨h1, by omega, rfl⟩
  · obtain ⟨h1, h2, h3⟩ := h' x hx
    have hno : ⟨some x, .sendTask⟩ ∉ ms := by
      intro hx'
      have := (h x hx').2.1
      omega
    rw [h3, List.count_eq_zero.mpr hno]
    exact ⟨by omega, h2, rfl⟩

/-- What everything outside the machines leaves of them: they live on
with the fields and the messages they have, they answer nothing, and
what is new about an offer has a new number. -/
structure Calm (w w' : World) : Prop where
  alive : ∀ v, (w'.vm v).alive = (w.vm v).alive
  actor : ∀ v, (w'.vm v).actor = (w.vm v).actor
  configured : ∀ v, (w'.vm v).configured = (w.vm v).configured
  mailbox : ∀ v, ∃ ms, (w'.vm v).mailbox = (w.vm v).mailbox ++ ms ∧
    FreshOffers w.next w'.next ms
  watching : ∀ v, ∀ x ∈ (w.vm v).watching, x ∈ (w'.vm v).watching ∨
    ∃ m ∈ (w'.vm v).mailbox, m.msg = .terminated x
  replies : ∀ r ∈ w'.replies, r ∈ w.replies
  next : w.next ≤ w'.next
  offers : ∀ b ∈ w'.asks, ∀ v, b.kind = .sendTask v → b ∈ w.asks ∨ w.next ≤ b.handshake

theorem Calm.trans {w'' : World} (h : Calm w w') (h' : Calm w' w'') : Calm w w'' := by
  refine ⟨fun v => (h'.alive v).trans (h.alive v), fun v => (h'.actor v).trans (h.actor v),
    fun v => (h'.configured v).trans (h.configured v), ?_, ?_,
    fun r hr => h.replies r (h'.replies r hr), Nat.le_trans h.next h'.next, ?_⟩
  · intro v
    obtain ⟨ms, hms, hf⟩ := h.mailbox v
    obtain ⟨ms', hms', hf'⟩ := h'.mailbox v
    refine ⟨ms ++ ms', ?_, hf.append hf' h.next h'.next⟩
    rw [hms', hms, List.append_assoc]
  · intro v x hx
    rcases h.watching v x hx with hx' | ⟨m, hm, hmx⟩
    · exact h'.watching v x hx'
    · obtain ⟨ms', hms', -⟩ := h'.mailbox v
      exact .inr ⟨m, by rw [hms']; exact List.mem_append_left _ hm, hmx⟩
  · intro b hb v hk
    rcases h'.offers b hb v hk with hb' | hn
    · exact h.offers b hb' v hk
    · exact .inr (Nat.le_trans h.next hn)

theorem calm_of_eq (hv : w'.vm = w.vm) (hr : ∀ r ∈ w'.replies, r ∈ w.replies)
    (hn : w'.next = w.next) (ha : ∀ a ∈ w'.asks, a ∈ w.asks) : Calm w w' := by
  refine ⟨?_, ?_, ?_, ?_, ?_, hr, Nat.le_of_eq hn.symm, fun b hb _ _ => .inl (ha b hb)⟩
  · simp [hv]
  · simp [hv]
  · simp [hv]
  · exact fun v => ⟨[], by simp [hv], freshOffers_of_none (by simp)⟩
  · intro v x hx
    exact .inl (by simpa [hv] using hx)

theorem posts_not_offer {h v : ℕ} {m : Envelope} (hm : m ∈ es.flatMap (posts h v)) :
    m.msg ≠ .sendTask := by
  obtain ⟨ef, -, hef⟩ := List.mem_flatMap.mp hm
  cases ef with
  | tellVm u x =>
    simp only [posts] at hef
    split at hef
    · obtain rfl := List.mem_singleton.mp hef
      cases x <;> simp [envelope]
    · simp at hef
  | _ => simp [posts] at hef

theorem calm_act {t h : ℕ} {a : TaskActor} {es : List TaskEffect}
    (hes : ∀ ef ∈ es, NoOffer ef) : Calm w (w.act t h a es) := by
  have hu : Untouched w (w.act t h a es) := act_untouched
  refine ⟨?_, ?_, ?_, ?_, ?_, ?_, hu.next, ?_⟩
  · intro v
    rw [act_vm hes]
  · intro v
    rw [act_vm hes]
  · intro v
    rw [act_vm hes]
  · intro v
    rw [act_vm hes]
    exact ⟨_, rfl, freshOffers_of_none fun m hm => posts_not_offer hm⟩
  · intro v x hx
    rw [act_vm hes]
    exact .inl hx
  · intro r hr
    rwa [hu.replies] at hr
  · intro b hb v hk
    rw [act_asks hes] at hb
    refine .inl ((List.mem_append.mp hb).resolve_right ?_)
    intro hb
    obtain ⟨ef, -, hef⟩ := List.mem_flatMap.mp hb
    cases ef <;> simp [makes] at hef
    simp [hef] at hk

theorem calm_offer {t v : ℕ} {a : TaskActor} : Calm w (w.act t w.next a [.askSendTask v]) := by
  have hvm := fun u => act_offer_vm (w := w) (t := t) (a := a) v u
  refine ⟨fun u => by rw [hvm], fun u => by rw [hvm], fun u => by rw [hvm], ?_,
    fun u x hx => .inl (by rw [hvm]; exact hx), fun r hr => hr, Nat.le_succ _, ?_⟩
  · intro u
    rw [hvm]
    refine ⟨_, rfl, ?_⟩
    intro x hx
    split at hx
    · obtain ⟨rfl⟩ : x = w.next := by simpa using hx
      rename_i hu
      rw [if_pos hu]
      exact ⟨Nat.le_refl _, Nat.lt_succ_self _, by simp⟩
    · simp at hx
  · intro b hb u hk
    rcases List.mem_append.mp hb with hb | hb
    · exact .inl hb
    · obtain rfl := List.mem_singleton.mp hb
      exact .inr (Nat.le_refl _)

theorem calm_ask {b : Ask} {t h : ℕ} {a : TaskActor} {es : List TaskEffect}
    (hes : ∀ ef ∈ es, NoOffer ef) : Calm w ((w.dropAsk b).act t h a es) :=
  (show Calm w (w.dropAsk b) from calm_of_eq rfl (fun _ hr => hr) rfl
    fun _ ha => List.mem_of_mem_filter ha).trans (calm_act hes)

theorem calm_reply {r : Reply} {b : Ask} {t h : ℕ} {a : TaskActor} {es : List TaskEffect}
    (hes : ∀ ef ∈ es, NoOffer ef) : Calm w (((w.dropReply r).dropAsk b).act t h a es) :=
  (show Calm w (w.dropReply r) from calm_of_eq rfl (fun _ hr => List.mem_of_mem_erase hr) rfl
    fun _ ha => ha).trans (calm_ask hes)

theorem calm_notice {r : Ref} {t h : ℕ} {a : TaskActor} {es : List TaskEffect}
    (hes : ∀ ef ∈ es, NoOffer ef) : Calm w ((w.takeNotice t r).act t h a es) :=
  (show Calm w (w.takeNotice t r) from
    calm_of_eq rfl (fun _ hr => hr) rfl fun _ ha => ha).trans (calm_act hes)

/-- What happens outside the machines leaves them alive and silent. -/
theorem Moves.calm (hm : w.Moves e w') (he : e.machine = none) : Calm w w' := by
  cases hm with
  | create hp => exact calm_of_eq rfl (fun _ hr => hr) rfl fun _ ha => ha
  | getTaskTaken hp ht => exact calm_of_eq rfl (fun _ hr => hr) rfl fun _ ha => ha
  | getTask hp ht => exact calm_offer
  | persistAndSuicide hp => exact calm_act (by simp [NoOffer])
  | terminatedDone hp hr hd => exact calm_notice (by simp [NoOffer])
  | terminatedTarget hp hr hd hv hx => exact calm_notice (by simp [NoOffer])
  | terminatedNull hp hr hd hn =>
    exact (calm_notice (by simp)).trans (calm_of_eq rfl (fun _ hr => hr) rfl fun _ ha => ha)
  | terminatedOther hp hr hd hv hne => exact calm_notice (by simp [NoOffer])
  | stop ha hs => exact calm_of_eq rfl (fun _ hr => hr) rfl fun _ ha => ha
  | lateReply hr hn => exact calm_of_eq rfl (fun _ hr => List.mem_of_mem_erase hr) rfl fun _ ha => ha
  | acquireRemote hr ha hh hk hq hc hl => exact calm_reply (by simp [NoOffer])
  | acquireLocal hr ha hh hk hq hp hl => exact calm_reply (by simp [NoOffer])
  | acquireTerminating hr ha hh hk hq hp => exact calm_reply (by simp [NoOffer])
  | acquireTerminated hr ha hh hk hq hp => exact calm_reply (by simp)
  | replyOther hr ha hh hk hq => exact calm_reply (by simp)
  | replyFailure hr ha hh hk hq => exact calm_reply (by simp)
  | sendTaskTimeout ha hk => exact calm_ask (by simp)
  | address ha hk hp hv => exact calm_ask (by simp [NoOffer])
  | addressNull ha hk hp hv => exact calm_ask (by simp [NoOffer])
  | addressStopped ha hk hp => exact calm_ask (by simp)
  | addressFails ha hk hv => exact calm_ask (by simp [NoOffer])
  | addressFailsNull ha hk hv => exact calm_ask (by simp)
  | throws hp ht => exact calm_of_eq rfl (fun _ hr => hr) rfl fun _ ha => ha
  | failedNotTaken hx hp ht => exact calm_of_eq rfl (fun _ hr => hr) rfl fun _ ha => ha
  | failedReset hx hp ht hes =>
    refine (calm_act (h := w.next) ?_).trans (calm_of_eq rfl (fun _ hr => hr) rfl fun _ ha => ha)
    rcases hes with ⟨rfl, -⟩ | ⟨rfl, -⟩ <;> simp [NoOffer]
  | failedEscalate hx hp ht hres hes =>
    refine (calm_act (h := w.next) ?_).trans (calm_of_eq rfl (fun _ hr => hr) rfl fun _ ha => ha)
    rcases hes with ⟨rfl, -⟩ | ⟨rfl, -⟩ <;> simp [NoOffer]
  | failedRaises hx hp ht hf hes =>
    refine (calm_act (h := w.next) ?_).trans (calm_of_eq rfl (fun _ hr => hr) rfl fun _ ha => ha)
    rcases hes with ⟨rfl, -⟩ | ⟨rfl, -⟩ <;> simp [NoOffer]
  | failedStopped hx hp => exact calm_of_eq rfl (fun _ hr => hr) rfl fun _ ha => ha
  | @executorDies x hx =>
    refine ⟨?_, ?_, ?_, ?_, ?_, fun _ hr => hr, Nat.le_refl _, fun _ ha _ _ => .inl ha⟩
    · intro v
      simp only [killExecutor_vm, VmCell.notify]
      split <;> rfl
    · intro v
      simp only [killExecutor_vm, VmCell.notify]
      split <;> rfl
    · intro v
      simp only [killExecutor_vm, VmCell.notify]
      split <;> rfl
    · intro v
      simp only [killExecutor_vm, VmCell.notify]
      split
      · exact ⟨_, rfl, freshOffers_of_none (by simp)⟩
      · exact ⟨[], by simp, freshOffers_of_none (by simp)⟩
    · intro v y hy
      simp only [killExecutor_vm, VmCell.notify]
      split
      · by_cases hyx : y = x
        · subst hyx
          exact .inr ⟨_, List.mem_append_right _ (List.mem_singleton_self _), rfl⟩
        · exact .inl (by simp [hy, hyx])
      · exact .inl hy
  | _ => cases he

end World

end Clustering.Handshake
