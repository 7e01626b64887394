/-
Clustering.Provisioning.VmPairs — the map `vmActors` of a node.

A machine is a pair of actors under one uuid. Each of them tells the
node with `RemoveVmActor(self)` that it stops; the node reads type and
uuid from the name of the reference. `handlerRemoveVmActor` has four
cases, by the type and by whether the other half is gone; what they come
to is one statement about the map: it holds the halves that have not
said so.

`created` and `removed` are what the statements speak of: the machines
that were added, and the `RemoveVmActor` messages a ready node handled.
-/
import Clustering.Java.Strings
import Clustering.Provisioning.Pipeline

namespace Clustering.Provisioning

open Actors Actors.EventSystem Actors.Handler

/-! ## Names -/

/-- The names `addVm` gives the pair of actors. -/
def pairName (proxy : Bool) (uuid : ℕ) : String :=
  (if proxy then "vmProxyActor" else "vmActor") ++ "_" ++ toString uuid

/-- The number of a text of digits. -/
def readUuid (text : String) : ℕ := Nat.ofDigitChars 10 text.toList 0

/-- `RemoveVmActor(actorRef)` as `handlerRemoveVmActor` reads it: type and
uuid are the first two pieces of the name. -/
def removeMessage (name : String) : Option Message :=
  match Java.split (· == '_') name with
  | actorType :: uuid :: _ =>
      if actorType = "vmProxyActor" then some (.removeVmActor true (readUuid uuid))
      else if actorType = "vmActor" then some (.removeVmActor false (readUuid uuid))
      else none
  | _ => none

theorem readUuid_toString (uuid : ℕ) : readUuid (toString uuid) = uuid := by
  rw [readUuid, show (toString uuid).toList = Nat.toDigits 10 uuid from Nat.toList_repr]
  exact Nat.ofDigitChars_ten_toDigits

/-- The pieces of such a name. -/
theorem split_pairName (proxy : Bool) (uuid : ℕ) :
    Java.split (· == '_') (pairName proxy uuid) =
      [if proxy then "vmProxyActor" else "vmActor", toString uuid] := by
  have hdigits : (toString uuid).toList = Nat.toDigits 10 uuid := Nat.toList_repr
  have huuid : ∀ c ∈ (toString uuid).toList, (c == '_') = false := by
    intro c hc
    rw [hdigits] at hc
    rw [beq_eq_false_iff_ne]
    rintro rfl
    exact Nat.underscore_not_in_toDigits hc
  have hne : (toString uuid).toList ≠ [] := by
    rw [hdigits]
    exact Nat.toDigits_ne_nil
  have hpieces : (pairName proxy uuid).toList.splitOnP (· == '_') =
      [(if proxy then "vmProxyActor" else "vmActor").toList, (toString uuid).toList] := by
    have htype : ∀ c ∈ (if proxy then "vmProxyActor" else "vmActor").toList, (c == '_') = false := by
      cases proxy <;> simp
    rw [pairName, String.toList_append, String.toList_append, List.append_assoc]
    show ((if proxy then "vmProxyActor" else "vmActor").toList ++
      '_' :: (toString uuid).toList).splitOnP _ = _
    rw [List.splitOnP_append_cons_of_forall_mem htype _ rfl, List.splitOnP_eq_singleton huuid]
  rw [Java.split, hpieces]
  have hlast : (toString uuid).toList.isEmpty = false := List.isEmpty_eq_false_iff.mpr hne
  simp only [List.rdropWhile, List.reverse_cons, List.reverse_nil, List.nil_append,
    List.singleton_append, List.dropWhile_cons, hlast]
  simp only [Bool.false_eq_true, if_false, List.reverse_cons, List.reverse_nil, List.nil_append,
    List.singleton_append, List.map_cons, List.map_nil, String.ofList_toList]

/-- **The node reads the machine and the half from the name.** -/
theorem removeMessage_pairName (proxy : Bool) (uuid : ℕ) :
    removeMessage (pairName proxy uuid) = some (.removeVmActor proxy uuid) := by
  rw [removeMessage, split_pairName]
  simp only [readUuid_toString]
  cases proxy <;> rfl

/-! ## Creations and removals -/

/-- A node, the machines it added, and the halves whose `RemoveVmActor` it
has handled. -/
structure VmPairs where
  node : NodeActor
  created : List ℕ
  removed : List (Bool × ℕ)

inductive VmEvent where
  /-- Any message but `RemoveVmActor`; `fresh` is the uuid of a machine
  that is added. -/
  | handles (fresh : ℕ) (sender : Actor) (m : Message)
  /-- One actor of a pair sends `RemoveVmActor(self)`. -/
  | removes (fresh : ℕ) (sender : Actor) (proxy : Bool) (uuid : ℕ)

namespace VmPairs

variable {s s' : VmPairs}

/-- The node handles a message. After an exception there is no such node. -/
def handle (s : VmPairs) (fresh : ℕ) (sender : Actor) (m : Message) : Option VmPairs :=
  let out := NodeActor.receive fresh sender m s.node
  match out.raised with
  | none => some { s with
      node := out.fields
      created := s.created ++ out.effects.filterMap createdBy }
  | some _ => none

def step (s : VmPairs) : VmEvent → Option VmPairs
  | .handles _ _ (.removeVmActor _ _) => none
  | .handles fresh sender m => s.handle fresh sender m
  | .removes fresh sender proxy uuid => do
      let m ← removeMessage (pairName proxy uuid)
      let s' ← s.handle fresh sender m
      if uuid ∈ s.created then
        some { s' with
          removed := if s.node.ready then (proxy, uuid) :: s.removed else s.removed }
      else none

/-- `UUID.randomUUID()` is no uuid of a machine there has been. -/
def Fresh (_ : List VmEvent) (s : VmPairs) : VmEvent → Prop
  | .handles fresh _ _ => fresh ∉ s.created
  | .removes _ _ _ _ => True

instance (es : List VmEvent) (s : VmPairs) : ∀ e, Decidable (Fresh es s e)
  | .handles fresh _ _ => inferInstanceAs (Decidable (fresh ∉ s.created))
  | .removes _ _ _ _ => .isTrue trivial

/-- One actor of a pair, until it has sent `RemoveVmActor`. -/
def half (s : VmPairs) (proxy : Bool) (uuid : ℕ) : Option Actor :=
  if uuid ∈ s.created ∧ (proxy, uuid) ∉ s.removed then
    some (if proxy then .vmProxyActor uuid else .vmActor uuid)
  else none

/-- The entry of a machine: there is one while there is one of the two. -/
def pair (s : VmPairs) (uuid : ℕ) : Option VmEntry :=
  if s.half false uuid = none ∧ s.half true uuid = none then none
  else some ⟨uuid, s.half false uuid, s.half true uuid⟩

end VmPairs

/-- A node without machines. -/
def vmPairs : EventSystem VmPairs VmEvent where
  init := ⟨.new, [], []⟩
  step := VmPairs.step

/-! ## The map -/

namespace NodeActor

variable {n n' : NodeActor}

theorem entry_of_eq (h : n'.vmActors = n.vmActors) (u : ℕ) : n'.entry u = n.entry u := by
  rw [entry, entry, h]

theorem entry_filter {uuid : ℕ} (h : n'.vmActors = n.vmActors.filter (·.uuid ≠ uuid)) (u : ℕ) :
    n'.entry u = if u = uuid then none else n.entry u := by
  rw [entry, h, List.find?_filter]
  split
  · rename_i hu
    rw [List.find?_eq_none]
    rintro e - he
    simp [hu] at he
  · rename_i hu
    rw [entry]
    congr 1
    funext e
    by_cases he : e.uuid = u
    · simp [he, hu]
    · simp [he]

theorem entry_insertVm {e : VmEntry} (h : n'.vmActors = insertVm e n.vmActors) (u : ℕ) :
    n'.entry u = if u = e.uuid then some e else n.entry u := by
  have hrest : NodeActor.entry { n with vmActors := n.vmActors.filter (·.uuid ≠ e.uuid) } u =
      if u = e.uuid then none else n.entry u := entry_filter rfl u
  rw [entry, h, insertVm, List.find?_cons]
  by_cases hu : u = e.uuid
  · simp [hu]
  · rw [if_neg hu] at hrest ⊢
    have hne : ¬ e.uuid = u := fun he => hu he.symm
    simpa [hne, entry] using hrest

theorem nodup_insertVm {e : VmEntry} {l : List VmEntry} (h : (l.map VmEntry.uuid).Nodup) :
    ((insertVm e l).map VmEntry.uuid).Nodup := by
  rw [insertVm, List.map_cons, List.nodup_cons]
  refine ⟨?_, h.sublist (List.filter_sublist.map _)⟩
  simp

/-- What is left of an entry when one half is gone. -/
def remaining (proxy : Bool) (e : VmEntry) : Option VmEntry :=
  if (if proxy then e.vmActor else e.vmProxyActor) = none then none
  else some (if proxy then { e with vmProxyActor := none } else { e with vmActor := none })

/-- The map without one half of a machine. -/
def withoutHalf (n : NodeActor) (proxy : Bool) (uuid : ℕ) : List VmEntry :=
  match n.entry uuid with
  | none => n.vmActors
  | some e =>
      match remaining proxy e with
      | none => n.vmActors.filter (·.uuid ≠ uuid)
      | some e' => insertVm e' n.vmActors

/-- **The four cases of `handlerRemoveVmActor` as one.** -/
theorem handlerRemoveVmActor_apply (proxy : Bool) (uuid : ℕ) (n : NodeActor) :
    handlerRemoveVmActor proxy uuid n =
      ⟨{ n with vmActors := n.withoutHalf proxy uuid }, [], .ok ()⟩ := by
  unfold withoutHalf remaining
  cases he : n.entry uuid with
  | none => simp [handlerRemoveVmActor, he]
  | some e =>
    by_cases hn : (if proxy then e.vmActor else e.vmProxyActor) = none
    · simp only [handlerRemoveVmActor, bind_apply, fields_apply, Outcome.andThen_ok, he, if_pos hn,
        assign_apply]
      rfl
    · simp only [handlerRemoveVmActor, bind_apply, fields_apply, Outcome.andThen_ok, he, if_neg hn,
        assign_apply]
      rfl

theorem entry_withoutHalf {proxy : Bool} {uuid : ℕ} (h : n'.vmActors = n.withoutHalf proxy uuid)
    (u : ℕ) : n'.entry u =
      if u = uuid then (n.entry uuid).bind (remaining proxy) else n.entry u := by
  unfold withoutHalf at h
  cases he : n.entry uuid with
  | none =>
    rw [he] at h
    rw [entry_of_eq h]
    split
    · rename_i hu
      rw [hu, he, Option.bind_none]
    · rfl
  | some e =>
    have huuid : e.uuid = uuid := by simpa using List.find?_some he
    rw [he] at h
    rw [Option.bind_some]
    cases hr : remaining proxy e with
    | none =>
      simp only [hr] at h
      exact entry_filter h u
    | some e' =>
      simp only [hr] at h
      have huuid' : e'.uuid = uuid := by
        unfold remaining at hr
        split_ifs at hr <;> obtain rfl := Option.some.inj hr <;> exact huuid
      rw [entry_insertVm h, huuid']

theorem nodup_withoutHalf {proxy : Bool} {uuid : ℕ} (h : (n.vmActors.map VmEntry.uuid).Nodup) :
    ((n.withoutHalf proxy uuid).map VmEntry.uuid).Nodup := by
  unfold withoutHalf
  split
  · exact h
  · split
    · exact h.sublist (List.filter_sublist.map _)
    · exact nodup_insertVm h

/-- A message that is no `RemoveVmActor` leaves the map, or adds a pair. -/
theorem Turn.vmActors {fresh : ℕ} {sender : Actor} {m : Message} {es : List Effect}
    (h : Turn n fresh sender m n' es) (hm : ∀ proxy uuid, m ≠ .removeVmActor proxy uuid) :
    n'.vmActors = n.vmActors ∧ es.filterMap createdBy = [] ∨
      n'.vmActors = insertVm ⟨fresh, some (.vmActor fresh), some (.vmProxyActor fresh)⟩ n.vmActors ∧
        es.filterMap createdBy = [fresh] := by
  have hbrings : ∀ {n₁ : NodeActor}, n.Brings m n₁ → n₁.vmActors = n.vmActors := by
    intro n₁ hb
    cases m with
    | setInstanceActor | setGlobalStatusActor => rw [show n₁ = _ from hb]
    | _ => exact hb.elim
  cases h with
  | removes _ proxy uuid l => exact absurd rfl (hm proxy uuid)
  | creates => exact .inr ⟨rfl, rfl⟩
  | brings h => exact .inl ⟨hbrings h, rfl⟩
  | @starts _ n₁ h =>
    refine .inl ⟨(hbrings h :), ?_⟩
    rw [List.filterMap_cons_none rfl]
    exact createdBy_timer n₁ 5
  | waits => exact .inl ⟨rfl, createdBy_timer n 30⟩
  | noDeployInfo => exact .inl ⟨rfl, createdBy_timer n 30⟩
  | provisioned => exact .inl ⟨rfl, createdBy_timer n 2⟩
  | init | retries | notReady | answers | addVmActor | deployInfo | drops => exact .inl ⟨rfl, rfl⟩

end NodeActor

/-! ## The map along a run -/

namespace VmPairs

variable {s s' : VmPairs}

theorem handle_turn {fresh : ℕ} {sender : Actor} {m : Message}
    (h : s.handle fresh sender m = some s') :
    ∃ es, NodeActor.Turn s.node fresh sender m s'.node es ∧
      s'.created = s.created ++ es.filterMap createdBy ∧ s'.removed = s.removed := by
  simp only [handle] at h
  split at h
  · rename_i hr
    obtain rfl := Option.some.inj h
    exact ⟨_, NodeActor.receive_turn hr, rfl, rfl⟩
  · cases h

/-- A ready node that handles a `RemoveVmActor`, or one that is not ready. -/
theorem handle_removes {fresh : ℕ} {sender : Actor} {proxy : Bool} {uuid : ℕ}
    (h : s.handle fresh sender (.removeVmActor proxy uuid) = some s') :
    s'.created = s.created ∧ s'.removed = s.removed ∧
      (s.node.ready = true ∧ s'.node.vmActors = s.node.withoutHalf proxy uuid ∨
        s.node.ready = false ∧ s'.node = s.node) := by
  cases hr : s.node.ready with
  | true =>
    have hrun : NodeActor.receive fresh sender (.removeVmActor proxy uuid) s.node =
        ⟨{ s.node with vmActors := s.node.withoutHalf proxy uuid }, [], .ok ()⟩ := by
      rw [← NodeActor.handlerRemoveVmActor_apply]
      simp [NodeActor.receive, hr]
    simp only [handle, hrun, Outcome.raised_ok, List.filterMap_nil, List.append_nil] at h
    obtain rfl := Option.some.inj h
    exact ⟨rfl, rfl, .inl ⟨rfl, rfl⟩⟩
  | false =>
    have hrun : NodeActor.receive fresh sender (.removeVmActor proxy uuid) s.node =
        ⟨s.node, [.tell sender (.notReadyJet (.removeVmActor proxy uuid))], .ok ()⟩ := by
      simp [NodeActor.receive, hr, NodeActor.handlerNotReady]
    simp only [handle, hrun, Outcome.raised_ok] at h
    obtain rfl := Option.some.inj h
    exact ⟨List.append_nil _, rfl, .inr ⟨rfl, rfl⟩⟩

/-- What one step can do with the machines. -/
inductive Step (s : VmPairs) (s' : VmPairs) : VmEvent → Prop
  | keeps {e : VmEvent} (hmap : s'.node.vmActors = s.node.vmActors)
      (hc : s'.created = s.created) (hr : s'.removed = s.removed) : Step s s' e
  | adds {fresh : ℕ} {sender : Actor} {m : Message}
      (hmap : s'.node.vmActors =
        NodeActor.insertVm ⟨fresh, some (.vmActor fresh), some (.vmProxyActor fresh)⟩
          s.node.vmActors)
      (hc : s'.created = s.created ++ [fresh]) (hr : s'.removed = s.removed) :
      Step s s' (.handles fresh sender m)
  | removes {fresh : ℕ} {sender : Actor} {proxy : Bool} {uuid : ℕ} (hu : uuid ∈ s.created)
      (hmap : s'.node.vmActors = s.node.withoutHalf proxy uuid)
      (hc : s'.created = s.created) (hr : s'.removed = (proxy, uuid) :: s.removed) :
      Step s s' (.removes fresh sender proxy uuid)

theorem step_of_eq {e : VmEvent} (hs : s.step e = some s') : Step s s' e := by
  cases e with
  | handles fresh sender m =>
    have hm : (∀ proxy uuid, m ≠ .removeVmActor proxy uuid) ∧ s.handle fresh sender m = some s' := by
      cases m with
      | removeVmActor => cases hs
      | _ => exact ⟨by simp, hs⟩
    obtain ⟨es, hturn, hc, hr⟩ := handle_turn hm.2
    rcases hturn.vmActors hm.1 with ⟨hmap, hes⟩ | ⟨hmap, hes⟩
    · exact .keeps hmap (by rw [hc, hes, List.append_nil]) hr
    · exact .adds hmap (by rw [hc, hes]) hr
  | removes fresh sender proxy uuid =>
    simp only [step, removeMessage_pairName, Option.bind_eq_bind, Option.bind_some] at hs
    obtain ⟨t, ht, hs⟩ := Option.bind_eq_some_iff.mp hs
    obtain ⟨hc, hr, hmap⟩ := handle_removes ht
    split at hs
    · rename_i hu
      obtain rfl := Option.some.inj hs
      rcases hmap with ⟨hready, hmap⟩ | ⟨hready, hnode⟩
      · exact .removes hu hmap hc (if_pos hready)
      · exact .keeps (congrArg _ hnode) hc (if_neg (by simp [hready]))
    · cases hs

/-- The map holds the halves that have not said they stop. -/
structure Inv (s : VmPairs) : Prop where
  nodup : (s.node.vmActors.map VmEntry.uuid).Nodup
  entry : ∀ u, s.node.entry u = s.pair u
  created : ∀ x ∈ s.removed, x.2 ∈ s.created

theorem inv_init : Inv vmPairs.init where
  nodup := List.nodup_nil
  entry _ := rfl
  created := by rintro x ⟨⟩

theorem half_of_eq {proxy : Bool} {u : ℕ} (hc : u ∈ s'.created ↔ u ∈ s.created)
    (hr : (proxy, u) ∈ s'.removed ↔ (proxy, u) ∈ s.removed) : s'.half proxy u = s.half proxy u := by
  simp only [half, hc, hr]

/-- Which halves are there decides the entry. -/
theorem pair_of_eq {u : ℕ} (h : ∀ proxy, s'.half proxy u = s.half proxy u) :
    s'.pair u = s.pair u := by
  simp only [pair, h]

/-- What remains of a pair is the other half. -/
theorem pair_bind_remaining {proxy : Bool} {u : ℕ} (hgone : s'.half proxy u = none)
    (hother : s'.half (!proxy) u = s.half (!proxy) u) :
    (s.pair u).bind (NodeActor.remaining proxy) = s'.pair u := by
  cases proxy with
  | true =>
    cases h : s.half false u <;> cases h' : s.half true u <;>
      simp_all [pair, NodeActor.remaining]
  | false =>
    cases h : s.half true u <;> cases h' : s.half false u <;>
      simp_all [pair, NodeActor.remaining]

theorem inv_step {es : List VmEvent} {e : VmEvent} (h : Inv s) (hf : Fresh es s e)
    (hs : Step s s' e) : Inv s' := by
  cases hs with
  | keeps hmap hc hr =>
    refine ⟨hmap ▸ h.nodup, fun u => ?_, by rw [hc, hr]; exact h.created⟩
    have hpair : s'.pair u = s.pair u :=
      pair_of_eq fun proxy => half_of_eq (by rw [hc]) (by rw [hr])
    rw [NodeActor.entry_of_eq hmap, h.entry, hpair]
  | @adds fresh sender m hmap hc hr =>
    have hnew : ∀ proxy, (proxy, fresh) ∉ s'.removed := fun proxy hx =>
      hf (h.created _ (hr ▸ hx))
    refine ⟨hmap ▸ NodeActor.nodup_insertVm h.nodup, fun u => ?_, ?_⟩
    · rw [NodeActor.entry_insertVm hmap]
      split
      · rename_i hu
        subst hu
        simp [pair, half, hc, hnew]
      · rename_i hu
        rw [h.entry]
        exact (pair_of_eq fun proxy => half_of_eq (by simp [hc, hu]) (by rw [hr])).symm
    · intro x hx
      rw [hc]
      exact List.mem_append_left _ (h.created x (hr ▸ hx))
  | @removes fresh sender proxy uuid hu hmap hc hr =>
    refine ⟨hmap ▸ NodeActor.nodup_withoutHalf h.nodup, fun u => ?_, ?_⟩
    · rw [NodeActor.entry_withoutHalf hmap]
      split
      · rename_i huu
        subst huu
        rw [h.entry]
        refine pair_bind_remaining ?_ (half_of_eq (by rw [hc]) (by simp [hr]))
        simp [half, hr]
      · rename_i huu
        rw [h.entry]
        exact (pair_of_eq fun p => half_of_eq (by rw [hc]) (by simp [hr, huu])).symm
    · intro x hx
      rw [hr] at hx
      rw [hc]
      rcases List.mem_cons.mp hx with rfl | hx
      · exact hu
      · exact h.created x hx

theorem inv_run {es : List VmEvent} (h : vmPairs.Run Fresh es s) : Inv s :=
  h.state_invariant inv_init fun _ _ _ _ h hf hs => inv_step h hf (step_of_eq hs)

/-! ## What the node answers -/

theorem pair_vmActor (s : VmPairs) (u : ℕ) : (s.pair u).bind (·.vmActor) = s.half false u := by
  unfold pair
  split
  · rename_i h
    rw [h.1, Option.bind_none]
  · rfl

theorem pair_vmProxyActor (s : VmPairs) (u : ℕ) :
    (s.pair u).bind (·.vmProxyActor) = s.half true u := by
  unfold pair
  split
  · rename_i h
    rw [h.2, Option.bind_none]
  · rfl

/-- What a node sends back for `question`: the answer if it is ready. -/
def reply (s : VmPairs) (sender : Actor) (question answer : Message) : List Effect :=
  [.tell sender (if s.node.ready then answer else .notReadyJet question)]

theorem getVmActor_effects (h : Inv s) (fresh : ℕ) (sender : Actor) (u : ℕ) :
    (NodeActor.receive fresh sender (.getVmActor u) s.node).effects =
      s.reply sender (.getVmActor u) (.setVmActor (s.half false u)) := by
  rw [← pair_vmActor, ← h.entry]
  cases hr : s.node.ready <;>
    simp [NodeActor.receive, hr, reply, NodeActor.handlerGetVmActor, NodeActor.handlerNotReady]

theorem getVmProxyActor_effects (h : Inv s) (fresh : ℕ) (sender : Actor) (u : ℕ) :
    (NodeActor.receive fresh sender (.getVmProxyActor u) s.node).effects =
      s.reply sender (.getVmProxyActor u) (.setVmProxyActor (s.half true u)) := by
  rw [← pair_vmProxyActor, ← h.entry]
  cases hr : s.node.ready <;>
    simp [NodeActor.receive, hr, reply, NodeActor.handlerGetVmProxyActor,
      NodeActor.handlerNotReady]

/-- A removal leaves the entries of the other machines. -/
theorem entry_removes {fresh : ℕ} {sender : Actor} {proxy : Bool} {uuid u : ℕ}
    (hs : s.step (.removes fresh sender proxy uuid) = some s') (hu : u ≠ uuid) :
    s'.node.entry u = s.node.entry u := by
  cases step_of_eq hs with
  | keeps hmap => exact NodeActor.entry_of_eq hmap u
  | removes _ hmap => rw [NodeActor.entry_withoutHalf hmap, if_neg hu]

end VmPairs

open VmPairs

/-- **The map `vmActors` along every run**: one entry for each machine of
which an actor has not sent `RemoveVmActor`, with exactly these actors;
a removal changes no other entry; and the two questions about a machine
are answered by it. -/
theorem vmActors_pairs {es : List VmEvent} {s : VmPairs} (h : vmPairs.Run Fresh es s) :
    (s.node.vmActors.map VmEntry.uuid).Nodup ∧
    (∀ u, s.node.entry u = s.pair u) ∧
    (∀ fresh sender proxy uuid s', s.step (.removes fresh sender proxy uuid) = some s' →
      ∀ u, u ≠ uuid → s'.node.entry u = s.node.entry u) ∧
    ∀ fresh sender u,
      (NodeActor.receive fresh sender (.getVmActor u) s.node).effects =
        s.reply sender (.getVmActor u) (.setVmActor (s.half false u)) ∧
      (NodeActor.receive fresh sender (.getVmProxyActor u) s.node).effects =
        s.reply sender (.getVmProxyActor u) (.setVmProxyActor (s.half true u)) := by
  have hinv := inv_run h
  refine ⟨hinv.nodup, hinv.entry, ?_, ?_⟩
  · intro fresh sender proxy uuid s' hs u hu
    exact entry_removes hs hu
  · intro fresh sender u
    exact ⟨getVmActor_effects hinv fresh sender u, getVmProxyActor_effects hinv fresh sender u⟩

/-- A node adds two machines; the proxy of the first goes, and says so twice. -/
def twoMachines : List VmEvent :=
  [.handles 0 .master (.setInstanceActor (some .instances)),
    .handles 0 .master (.setGlobalStatusActor (some .globalStatus)),
    .handles 0 .instances (.deployInfo ⟨[⟨0, "vm", ⟨0, some 1, none⟩⟩], "path", "1"⟩),
    .handles 0 .monitor (.systemAttributes ⟨some 4194304, true⟩),
    .handles 1 .monitor (.systemAttributes ⟨some 4194304, true⟩),
    .removes 2 (.vmProxyActor 0) true 0,
    .removes 2 (.vmProxyActor 0) true 0]

theorem vmActors_pairs_twoMachines :
    ∃ s, vmPairs.Run Fresh twoMachines s ∧
      (s.created = [0, 1] ∧ s.pair 0 = some ⟨0, some (.vmActor 0), none⟩) ∧
      ∀ u, s.node.entry u = s.pair u := by
  have hrun : ∃ s, vmPairs.Run Fresh twoMachines s ∧
      (s.created = [0, 1] ∧ s.pair 0 = some ⟨0, some (.vmActor 0), none⟩) :=
    exists_run_of_execWhen (by decide)
  obtain ⟨s, hrun, hs⟩ := hrun
  exact ⟨s, hrun, hs, (vmActors_pairs hrun).2.1⟩

end Clustering.Provisioning
