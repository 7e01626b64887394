/-
Clustering.Communication.SharedRequest — executors of one JVM and the
request object they share (`TaskExecutorActor.run`, `ClusteringTask`).

`ClusteringTask.request` is a field of an interface, hence a constant:
one `ProxyRequest` for every task class of the JVM, whatever loader
defined the class. `run` writes its own `targetVM` into that object and
then lets the test use it, so executors running side by side write and
read the same three fields.

The system below has any number of executors (numbered by ℕ, executor
`i` having received an `ExecuteTask` naming `target i`) and any number
of requests per executor. An event is one piece of one executor's code
or an answer arriving from a VM:

* `inject`, `checkInjected` — `field.set(proxyRequest, msg.targetVM)`
  and the assertion on the next line;
* `start` — the task of a class that has `ClusteringTask` only from a
  superclass or through another interface: `getInterfaces` does not list
  it, and the test runs without an injection;
* `send`, `await`, `store`, `awaitFails`, `ret` — the pieces of one
  `getResponse` call, as cut in `ProxyRequest`;
* `reply` — the asked VM answers.

`requests_isolated` is request isolation for the runs in which nobody
writes a shared field between an executor's own write and its own read;
`requests_not_isolated` is a run of two executors that is not isolated.
-/
import Clustering.Actors.Runs
import Clustering.Communication.ProxyRequest

namespace Clustering.Communication

open Actors

/-! ## The system -/

/-- Where an executor stands in `run`. `n` is the number of the ask its
current `getResponse` call made. -/
inductive Phase where
  /-- Before the injection. -/
  | created
  /-- After `field.set`, before the assertion. -/
  | injected
  /-- In the test, outside `getResponse`. -/
  | running
  /-- Between `send` and `receive`. -/
  | sent (n : Option ℕ)
  /-- In `Await.result` on the future `receive` read. -/
  | awaiting (n : Option ℕ) (future : ℕ)
  /-- Between storing the result and reading it back. -/
  | stored (n : Option ℕ)
  /-- The assertion failed: the executor raised. -/
  | failed
  deriving DecidableEq, Repr

/-- One ask: who issued it, which VM was asked, and the answer once
there is one. -/
structure AskRecord (V R : Type) where
  issuer : ℕ
  vm : V
  request : Request
  answer : Option R

/-- The value one `getResponse` call returned. -/
structure Returned (R : Type) where
  executor : ℕ
  ask : Option ℕ
  value : Option R

/-- One request of a task, and the number of the ask it led to. -/
structure Issue where
  executor : ℕ
  request : Request
  ask : Option ℕ

structure Jvm (V R : Type) where
  shared : ProxyRequest V R
  phase : ℕ → Phase
  asks : ℕ → Option (AskRecord V R)
  next : ℕ
  issued : List Issue
  returned : List (Returned R)

inductive JvmEvent (R : Type) where
  | inject (i : ℕ)
  | checkInjected (i : ℕ)
  | start (i : ℕ)
  | send (i : ℕ) (request : Request) (x : Execution R)
  | await (i : ℕ)
  | store (i : ℕ)
  | awaitFails (i : ℕ)
  | ret (i : ℕ)
  | reply (n : ℕ) (r : R)

namespace Jvm

variable {V R : Type}

/-- The shared object as `ClusteringTask` initialises it, no executor
having started. -/
def init : Jvm V R := ⟨.new, fun _ => .created, fun _ => none, 0, [], []⟩

def setPhase (s : Jvm V R) (i : ℕ) (p : Phase) : Jvm V R :=
  { s with phase := Function.update s.phase i p }

/-- Executor `i` has asked `vm` and holds the future. -/
def asking (s : Jvm V R) (i : ℕ) (vm : V) (request : Request) : Jvm V R :=
  { s with
    shared := { s.shared with future := some s.next }
    phase := Function.update s.phase i (.sent (some s.next))
    asks := Function.update s.asks s.next (some ⟨i, vm, request, none⟩)
    next := s.next + 1
    issued := s.issued ++ [⟨i, request, some s.next⟩] }

/-- The call of `getResponse` by `i` ends with a value. -/
def returns (s : Jvm V R) (i : ℕ) (n : Option ℕ) (v : Option R) : Jvm V R :=
  { s.setPhase i .running with returned := s.returned ++ [⟨i, n, v⟩] }

/-- `send` by executor `i`: the request is recorded, and the ask, if one
is made, under the next number. -/
def send (s : Jvm V R) (i : ℕ) (request : Request) (x : Execution R) : Jvm V R :=
  let o := ProxyRequest.send s.next request x s.shared
  let s' := { s with shared := o.fields }
  match o.result, o.effects with
  | .error _, _ => { s'.setPhase i .running with issued := s.issued ++ [⟨i, request, none⟩] }
  | .ok _, [] => { s'.setPhase i (.sent none) with issued := s.issued ++ [⟨i, request, none⟩] }
  | .ok _, a :: _ =>
      { s'.setPhase i (.sent (some s.next)) with
        asks := Function.update s.asks s.next (some ⟨i, a.vm, a.request, none⟩)
        next := s.next + 1
        issued := s.issued ++ [⟨i, request, some s.next⟩] }

/-- The step function; `direct i` says that the class of the task of `i`
lists `ClusteringTask` itself. -/
def step [DecidableEq V] (direct : ℕ → Bool) (target : ℕ → V) (s : Jvm V R) :
    JvmEvent R → Option (Jvm V R)
  | .inject i =>
      if direct i ∧ s.phase i = .created then
        some ({ s with shared := { s.shared with vmProxy := some (target i) } }.setPhase i
          .injected)
      else none
  | .checkInjected i =>
      if s.phase i = .injected then
        some (s.setPhase i (if s.shared.vmProxy = some (target i) then .running else .failed))
      else none
  | .start i =>
      if ¬ direct i ∧ s.phase i = .created then some (s.setPhase i .running) else none
  | .send i request x =>
      if s.phase i = .running then some (s.send i request x) else none
  | .await i =>
      match s.phase i with
      | .sent n =>
          match s.shared.receiveAwait with
          | .forFuture (some f) => some (s.setPhase i (.awaiting n f))
          | .forFuture none => some (s.returns i n none)
          | .returned v => some (s.returns i n v)
      | _ => none
  | .store i =>
      match s.phase i with
      | .awaiting n f =>
          match (s.asks f).bind AskRecord.answer with
          | some r => some ({ s with shared := s.shared.receiveStore r }.setPhase i (.stored n))
          | none => none
      | _ => none
  | .awaitFails i =>
      match s.phase i with
      | .awaiting n _ => some (s.returns i n none)
      | _ => none
  | .ret i =>
      match s.phase i with
      | .stored n => some (s.returns i n s.shared.receiveReturn)
      | _ => none
  | .reply n r =>
      match s.asks n with
      | some a =>
          if a.answer.isNone then
            some { s with asks := Function.update s.asks n (some { a with answer := some r }) }
          else none
      | none => none

end Jvm

variable {V R : Type}

/-- The executors of one JVM, executor `i` with target `target i`. -/
def jvm [DecidableEq V] (R : Type) (direct : ℕ → Bool) (target : ℕ → V) :
    EventSystem (Jvm V R) (JvmEvent R) :=
  ⟨Jvm.init, Jvm.step direct target⟩

/-- **Request isolation** in one state: every request was asked of the
target of the executor that made it, no ask went elsewhere, and every
value a call returned is the answer to that call's own ask, or null. -/
structure Isolated (target : ℕ → V) (s : Jvm V R) : Prop where
  requested : ∀ q ∈ s.issued, ∃ n a, q.ask = some n ∧ s.asks n = some a ∧
    a.issuer = q.executor ∧ a.vm = target q.executor ∧ a.request = q.request
  asked : ∀ n a, s.asks n = some a → a.vm = target a.issuer
  answered : ∀ c ∈ s.returned, ∀ v, c.value = some v →
    ∃ n a, c.ask = some n ∧ s.asks n = some a ∧ a.issuer = c.executor ∧ a.answer = some v

/-! ## Who touched the shared object last -/

namespace JvmEvent

def injector? : JvmEvent R → Option ℕ
  | .inject i => some i
  | _ => none

def sender? : JvmEvent R → Option ℕ
  | .send i _ _ => some i
  | _ => none

def storer? : JvmEvent R → Option ℕ
  | .store i => some i
  | _ => none

end JvmEvent

/-- The last event, among those so far, that `f` picks. -/
def last (f : JvmEvent R → Option ℕ) (es : List (JvmEvent R)) : Option ℕ :=
  (es.filterMap f).getLast?

theorem last_concat (f : JvmEvent R → Option ℕ) (es : List (JvmEvent R)) (e : JvmEvent R) :
    last f (es ++ [e]) = (f e).or (last f es) := by
  cases h : f e <;> simp [last, List.filterMap_append, h]

/-- **The schedules that keep executors apart**, as a condition on one
step and the events before it: there is an injection before a `send`,
and the last one names the sender's own VM; the last `send` before an
executor reads `future` is its own; the last `store` before an executor
reads `response` back is its own. -/
def KeptApart (target : ℕ → V) : List (JvmEvent R) → Jvm V R → JvmEvent R → Prop
  | es, _, .send i _ _ => (last JvmEvent.injector? es).map target = some (target i)
  | es, _, .await i => last JvmEvent.sender? es = some i
  | es, _, .ret i => last JvmEvent.storer? es = some i
  | _, _, _ => True

instance [DecidableEq V] (target : ℕ → V) (es : List (JvmEvent R)) (s : Jvm V R)
    (e : JvmEvent R) : Decidable (KeptApart target es s e) :=
  match e with
  | .send i _ _ =>
      inferInstanceAs (Decidable ((last JvmEvent.injector? es).map target = some (target i)))
  | .await i => inferInstanceAs (Decidable (last JvmEvent.sender? es = some i))
  | .ret i => inferInstanceAs (Decidable (last JvmEvent.storer? es = some i))
  | .inject _ | .checkInjected _ | .start _ | .store _ | .awaitFails _ | .reply _ _ =>
      inferInstanceAs (Decidable True)

/-! ## The invariant -/

/-- Ask `k` was issued by executor `i`. -/
def Issued (s : Jvm V R) (k i : ℕ) : Prop := ∃ a, s.asks k = some a ∧ a.issuer = i

/-- Ask `k` was issued by executor `i` and answered with `v`. -/
def Answered (s : Jvm V R) (k i : ℕ) (v : R) : Prop :=
  ∃ a, s.asks k = some a ∧ a.issuer = i ∧ a.answer = some v

/-- What a phase promises about the ask the executor is working on and
about the shared fields, given who touched them last. -/
def PhaseOk (es : List (JvmEvent R)) (s : Jvm V R) (i : ℕ) : Phase → Prop
  | .sent n => (last JvmEvent.injector? es).isSome ∧ ∃ k, n = some k ∧ Issued s k i ∧
      (last JvmEvent.sender? es = some i → s.shared.future = some k)
  | .awaiting n f => n = some f ∧ Issued s f i
  | .stored n => ∃ k v, n = some k ∧ Answered s k i v ∧
      (last JvmEvent.storer? es = some i → s.shared.response = some v)
  | _ => True

structure Inv (target : ℕ → V) (es : List (JvmEvent R)) (s : Jvm V R) : Prop where
  proxy : s.shared.vmProxy = (last JvmEvent.injector? es).map target
  fresh : ∀ n, s.next ≤ n → s.asks n = none
  phases : ∀ i, PhaseOk es s i (s.phase i)
  isolated : Isolated target s

/-- The asks of `s'` are those of `s`, with issuer, VM and request
unchanged and no answer lost. -/
def AsksGrow (s s' : Jvm V R) : Prop :=
  ∀ k a, s.asks k = some a → ∃ a', s'.asks k = some a' ∧ a'.issuer = a.issuer ∧
    a'.vm = a.vm ∧ a'.request = a.request ∧ ∀ v, a.answer = some v → a'.answer = some v

theorem AsksGrow.of_eq {s s' : Jvm V R} (h : s'.asks = s.asks) : AsksGrow s s' :=
  fun _ a ha => ⟨a, by rw [h]; exact ha, rfl, rfl, rfl, fun _ hv => hv⟩

theorem AsksGrow.issued {s s' : Jvm V R} (hg : AsksGrow s s') {k i : ℕ}
    (h : Issued s k i) : Issued s' k i := by
  obtain ⟨a, ha, hi⟩ := h
  obtain ⟨a', ha', hi', -⟩ := hg k a ha
  exact ⟨a', ha', hi'.trans hi⟩

theorem AsksGrow.answered {s s' : Jvm V R} (hg : AsksGrow s s') {k i : ℕ} {v : R}
    (h : Answered s k i v) : Answered s' k i v := by
  obtain ⟨a, ha, hi, hv⟩ := h
  obtain ⟨a', ha', hi', -, -, hv'⟩ := hg k a ha
  exact ⟨a', ha', hi'.trans hi, hv' v hv⟩

/-- A phase keeps its promise across a step that does not move its
executor, provided the last `send` and the last `store` are either
somebody else's now or the ones they were, with their field untouched. -/
theorem PhaseOk.frame {es es' : List (JvmEvent R)} {s s' : Jvm V R} {i : ℕ} {p : Phase}
    (hg : AsksGrow s s')
    (hinject : (last JvmEvent.injector? es).isSome → (last JvmEvent.injector? es').isSome)
    (hsend : last JvmEvent.sender? es' = some i →
      last JvmEvent.sender? es = some i ∧ s'.shared.future = s.shared.future)
    (hstore : last JvmEvent.storer? es' = some i →
      last JvmEvent.storer? es = some i ∧ s'.shared.response = s.shared.response)
    (h : PhaseOk es s i p) : PhaseOk es' s' i p := by
  cases p with
  | sent n =>
      obtain ⟨hinj, k, hn, hk, hf⟩ := h
      refine ⟨hinject hinj, k, hn, hg.issued hk, fun hl => ?_⟩
      obtain ⟨hl', heq⟩ := hsend hl
      exact heq.trans (hf hl')
  | awaiting n f => exact ⟨h.1, hg.issued h.2⟩
  | stored n =>
      obtain ⟨k, v, hn, hk, hf⟩ := h
      refine ⟨k, v, hn, hg.answered hk, fun hl => ?_⟩
      obtain ⟨hl', heq⟩ := hstore hl
      exact heq.trans (hf hl')
  | _ => trivial

/-- Isolation is kept when asks only grow, a new request is asked of its
issuer's target, new asks go there, and a newly returned value is an
answer to the call's own ask. -/
theorem Isolated.grow {target : ℕ → V} {s s' : Jvm V R} (h : Isolated target s)
    (hg : AsksGrow s s')
    (hissue : ∀ q ∈ s'.issued, q ∈ s.issued ∨ ∃ n a, q.ask = some n ∧ s'.asks n = some a ∧
      a.issuer = q.executor ∧ a.vm = target q.executor ∧ a.request = q.request)
    (hnew : ∀ n a, s'.asks n = some a → (∃ b, s.asks n = some b ∧ b.issuer = a.issuer ∧
      b.vm = a.vm) ∨ a.vm = target a.issuer)
    (hret : ∀ c ∈ s'.returned, c ∈ s.returned ∨ ∀ v, c.value = some v →
      ∃ n, c.ask = some n ∧ Answered s' n c.executor v) : Isolated target s' where
  requested q hq := by
    rcases hissue q hq with hold | hnew'
    · obtain ⟨n, a, hn, ha, hi, hv, hr⟩ := h.requested q hold
      obtain ⟨a', ha', hi', hv', hr', -⟩ := hg n a ha
      exact ⟨n, a', hn, ha', hi'.trans hi, hv'.trans hv, hr'.trans hr⟩
    · exact hnew'
  asked n a ha := by
    rcases hnew n a ha with ⟨b, hb, hi, hv⟩ | hv
    · rw [← hv, ← hi]; exact h.asked n b hb
    · exact hv
  answered c hc v hv := by
    rcases hret c hc with hold | hnew'
    · obtain ⟨n, a, hn, ha, hi, hans⟩ := h.answered c hold v hv
      obtain ⟨a', ha', hi', -, -, hans'⟩ := hg n a ha
      exact ⟨n, a', hn, ha', hi'.trans hi, hans' v hans⟩
    · obtain ⟨n, hn, a, ha, hi, hans⟩ := hnew' v hv
      exact ⟨n, a, hn, ha, hi, hans⟩

theorem inv_init (target : ℕ → V) : Inv target [] (Jvm.init : Jvm V R) where
  proxy := rfl
  fresh _ _ := rfl
  phases _ := trivial
  isolated := ⟨fun _ h => by simp [Jvm.init] at h, fun _ _ h => by simp [Jvm.init] at h,
    fun _ h => by simp [Jvm.init] at h⟩

/-! ## One step -/

/-- The executor whose code an event is. -/
def JvmEvent.executor? : JvmEvent R → Option ℕ
  | .inject i | .checkInjected i | .start i | .send i _ _ | .await i | .store i
  | .awaitFails i | .ret i => some i
  | .reply _ _ => none

/-- An injection made is never forgotten. -/
theorem last_isSome {f : JvmEvent R → Option ℕ} {es : List (JvmEvent R)} (e : JvmEvent R)
    (h : (last f es).isSome) : (last f (es ++ [e])).isSome := by
  rw [last_concat]
  cases f e <;> simp [h]

/-- If somebody else's event is the last of its kind after an event of
`i`, it was the last of its kind before, and `i` made none. -/
theorem last_other {f : JvmEvent R → Option ℕ} {es : List (JvmEvent R)} {e : JvmEvent R}
    {i j : ℕ} (hf : f e = none ∨ f e = some i) (hij : j ≠ i)
    (h : last f (es ++ [e]) = some j) : last f es = some j ∧ f e = none := by
  rw [last_concat] at h
  rcases hf with hf | hf
  · rw [hf] at h; exact ⟨by simpa using h, hf⟩
  · rw [hf] at h
    exact absurd (by simpa using h : i = j).symm hij

/-- A step of executor `i` keeps the invariant if it keeps `i`'s own
part of it, writes `future` only as a `send` and `response` only as a
`store`. -/
theorem Inv.executorStep {target : ℕ → V} {es : List (JvmEvent R)} {s s' : Jvm V R}
    {e : JvmEvent R} {i : ℕ} {p : Phase} (h : Inv target es s)
    (hg : AsksGrow s s') (hphase : s'.phase = Function.update s.phase i p)
    (hfresh : ∀ n, s'.next ≤ n → s'.asks n = none)
    (hsend : (JvmEvent.sender? e = none ∧ s'.shared.future = s.shared.future) ∨
      JvmEvent.sender? e = some i)
    (hstore : (JvmEvent.storer? e = none ∧ s'.shared.response = s.shared.response) ∨
      JvmEvent.storer? e = some i)
    (hproxy : s'.shared.vmProxy = (last JvmEvent.injector? (es ++ [e])).map target)
    (hp : PhaseOk (es ++ [e]) s' i p) (hiso : Isolated target s') :
    Inv target (es ++ [e]) s' where
  proxy := hproxy
  fresh := hfresh
  isolated := hiso
  phases j := by
    by_cases hj : j = i
    · subst hj; simpa [hphase] using hp
    · have hpj : s'.phase j = s.phase j := by simp [hphase, hj]
      rw [hpj]
      refine (h.phases j).frame hg (last_isSome e) (fun hl => ?_) (fun hl => ?_)
      · obtain ⟨hold, hnone⟩ := last_other (hsend.imp And.left id) hj hl
        rcases hsend with ⟨-, heq⟩ | hsome
        · exact ⟨hold, heq⟩
        · rw [hnone] at hsome; cases hsome
      · obtain ⟨hold, hnone⟩ := last_other (hstore.imp And.left id) hj hl
        rcases hstore with ⟨-, heq⟩ | hsome
        · exact ⟨hold, heq⟩
        · rw [hnone] at hsome; cases hsome

variable {target : ℕ → V} {es : List (JvmEvent R)} {s s' : Jvm V R} {i : ℕ}

/-- A step that only moves `i` and appends to `returned` keeps
isolation if the new value is an answer to the call's own ask. -/
theorem Isolated.returns (h : Isolated target s) {n : Option ℕ} {v : Option R}
    (hv : ∀ r, v = some r → ∃ k, n = some k ∧ Answered s k i r) :
    Isolated target (s.returns i n v) := by
  refine h.grow (.of_eq rfl) (fun q hq => Or.inl hq) (fun m a ha => Or.inl ⟨a, ha, rfl, rfl⟩)
    (fun c hc => ?_)
  simp only [Jvm.returns, List.mem_append, List.mem_singleton] at hc
  rcases hc with hc | rfl
  · exact Or.inl hc
  · exact Or.inr hv

/-- Any other step leaves `vmProxy` the last injected VM. -/
theorem Inv.proxy_concat (h : Inv target es s) {e : JvmEvent R}
    (he : JvmEvent.injector? e = none) :
    s.shared.vmProxy = (last JvmEvent.injector? (es ++ [e])).map target := by
  rw [last_concat, he]
  exact h.proxy

/-- A `send` made when the last injection named the sender's VM is a
cluster-mode ask of that VM. -/
theorem send_of_keptApart (h : Inv target es s) {request : Request} {x : Execution R}
    (hok : KeptApart target es s (.send i request x)) :
    s.send i request x = s.asking i (target i) request := by
  have hvm : s.shared.vmProxy = some (target i) := h.proxy.trans hok
  simp only [Jvm.send, ProxyRequest.send_cluster hvm]
  rfl

section Steps

variable [DecidableEq V] {direct : ℕ → Bool}

theorem inv_inject (h : Inv target es s)
    (hs : (jvm R direct target).step s (.inject i) = some s') :
    Inv target (es ++ [.inject i]) s' := by
  simp only [jvm, Jvm.step] at hs
  split at hs
  · simp only [Option.some.injEq] at hs
    subst hs
    refine h.executorStep (.of_eq rfl) rfl h.fresh (.inl ⟨rfl, rfl⟩) (.inl ⟨rfl, rfl⟩) ?_
      trivial ⟨h.isolated.requested, h.isolated.asked, h.isolated.answered⟩
    simp [last_concat, JvmEvent.injector?, Jvm.setPhase]
  · cases hs

theorem inv_checkInjected (h : Inv target es s)
    (hs : (jvm R direct target).step s (.checkInjected i) = some s') :
    Inv target (es ++ [.checkInjected i]) s' := by
  simp only [jvm, Jvm.step] at hs
  split at hs
  · simp only [Option.some.injEq] at hs
    subst hs
    refine h.executorStep (.of_eq rfl) rfl h.fresh (.inl ⟨rfl, rfl⟩) (.inl ⟨rfl, rfl⟩)
      (h.proxy_concat rfl) ?_ ⟨h.isolated.requested, h.isolated.asked, h.isolated.answered⟩
    split <;> trivial
  · cases hs

theorem inv_start (h : Inv target es s)
    (hs : (jvm R direct target).step s (.start i) = some s') :
    Inv target (es ++ [.start i]) s' := by
  simp only [jvm, Jvm.step] at hs
  split at hs
  · simp only [Option.some.injEq] at hs
    subst hs
    exact h.executorStep (.of_eq rfl) rfl h.fresh (.inl ⟨rfl, rfl⟩) (.inl ⟨rfl, rfl⟩)
      (h.proxy_concat rfl) trivial
      ⟨h.isolated.requested, h.isolated.asked, h.isolated.answered⟩
  · cases hs

theorem inv_send (h : Inv target es s) {request : Request} {x : Execution R}
    (hok : KeptApart target es s (.send i request x))
    (hs : (jvm R direct target).step s (.send i request x) = some s') :
    Inv target (es ++ [.send i request x]) s' := by
  simp only [jvm, Jvm.step] at hs
  split at hs
  · simp only [Option.some.injEq] at hs
    rw [send_of_keptApart h hok] at hs
    subst hs
    have hnew : s.asks s.next = none := h.fresh _ (Nat.le_refl _)
    have hg : AsksGrow s (s.asking i (target i) request) := by
      intro k a ha
      have hk : k ≠ s.next := by rintro rfl; rw [hnew] at ha; cases ha
      exact ⟨a, by simpa [Jvm.asking, hk] using ha, rfl, rfl, rfl, fun _ hv => hv⟩
    have hinjected : (last JvmEvent.injector? es).isSome := by
      obtain ⟨j, hj, -⟩ := Option.map_eq_some_iff.mp hok
      rw [hj]
      rfl
    refine h.executorStep hg rfl ?_ (.inr rfl) (.inl ⟨rfl, rfl⟩) (h.proxy_concat rfl) ?_ ?_
    · intro n hn
      have hlt : s.next < n := hn
      simpa [Jvm.asking, Nat.ne_of_gt hlt] using h.fresh n (Nat.le_of_lt hlt)
    · exact ⟨last_isSome _ hinjected, s.next, rfl, ⟨_, Function.update_self .., rfl⟩, fun _ => rfl⟩
    · refine h.isolated.grow hg (fun q hq => ?_) (fun n a ha => ?_) (fun c hc => Or.inl hc)
      · simp only [Jvm.asking, List.mem_append, List.mem_singleton] at hq
        rcases hq with hq | rfl
        · exact Or.inl hq
        · exact Or.inr ⟨s.next, _, rfl, Function.update_self .., rfl, rfl, rfl⟩
      · by_cases hn : n = s.next
        · subst hn
          simp only [Jvm.asking, Function.update_self, Option.some.injEq] at ha
          subst ha; exact Or.inr rfl
        · exact Or.inl ⟨a, by simpa [Jvm.asking, hn] using ha, rfl, rfl⟩
  · cases hs

theorem inv_await (h : Inv target es s) (hok : KeptApart target es s (.await i))
    (hs : (jvm R direct target).step s (.await i) = some s') :
    Inv target (es ++ [.await i]) s' := by
  simp only [jvm, Jvm.step] at hs
  split at hs
  case h_2 => cases hs
  case h_1 n hp =>
    obtain ⟨hinj, k, hn, hissued, hfut⟩ : PhaseOk es s i (.sent n) := hp ▸ h.phases i
    have hfuture : s.shared.future = some k := hfut hok
    have hmode : s.shared.receiveAwait = .forFuture (some k) := by
      obtain ⟨j, hj⟩ := Option.isSome_iff_exists.mp hinj
      have hvm : s.shared.vmProxy = some (target j) := by rw [h.proxy, hj]; rfl
      simp [ProxyRequest.receiveAwait, hvm, hfuture]
    simp only [hmode, Option.some.injEq] at hs
    subst hs
    exact h.executorStep (.of_eq rfl) rfl h.fresh (.inl ⟨rfl, rfl⟩) (.inl ⟨rfl, rfl⟩)
      (h.proxy_concat rfl) ⟨hn, hissued⟩
      ⟨h.isolated.requested, h.isolated.asked, h.isolated.answered⟩

theorem inv_store (h : Inv target es s)
    (hs : (jvm R direct target).step s (.store i) = some s') :
    Inv target (es ++ [.store i]) s' := by
  simp only [jvm, Jvm.step] at hs
  split at hs
  case h_2 => cases hs
  case h_1 n f hp =>
    obtain ⟨hn, a, ha, hi⟩ : PhaseOk es s i (.awaiting n f) := hp ▸ h.phases i
    split at hs
    case h_2 => cases hs
    case h_1 r hr =>
      simp only [Option.some.injEq] at hs
      subst hs
      have hans : a.answer = some r := by simpa [ha] using hr
      exact h.executorStep (.of_eq rfl) rfl h.fresh (.inl ⟨rfl, rfl⟩) (.inr rfl)
        (h.proxy_concat rfl) ⟨f, r, hn, ⟨a, ha, hi, hans⟩, fun _ => rfl⟩
        ⟨h.isolated.requested, h.isolated.asked, h.isolated.answered⟩

theorem inv_awaitFails (h : Inv target es s)
    (hs : (jvm R direct target).step s (.awaitFails i) = some s') :
    Inv target (es ++ [.awaitFails i]) s' := by
  simp only [jvm, Jvm.step] at hs
  split at hs
  case h_2 => cases hs
  case h_1 n f hp =>
    simp only [Option.some.injEq] at hs
    subst hs
    exact h.executorStep (.of_eq rfl) rfl h.fresh (.inl ⟨rfl, rfl⟩) (.inl ⟨rfl, rfl⟩)
      (h.proxy_concat rfl) trivial (h.isolated.returns (by simp))

theorem inv_ret (h : Inv target es s) (hok : KeptApart target es s (.ret i))
    (hs : (jvm R direct target).step s (.ret i) = some s') :
    Inv target (es ++ [.ret i]) s' := by
  simp only [jvm, Jvm.step] at hs
  split at hs
  case h_2 => cases hs
  case h_1 n hp =>
    obtain ⟨k, v, hn, hans, hresp⟩ : PhaseOk es s i (.stored n) := hp ▸ h.phases i
    simp only [Option.some.injEq] at hs
    subst hs
    refine h.executorStep (.of_eq rfl) rfl h.fresh (.inl ⟨rfl, rfl⟩) (.inl ⟨rfl, rfl⟩)
      (h.proxy_concat rfl) trivial (h.isolated.returns fun r hr => ?_)
    have hvr : v = r := by
      have := (hresp hok).symm.trans hr
      simpa using this
    exact ⟨k, hn, hvr ▸ hans⟩

theorem inv_reply (h : Inv target es s) {n : ℕ} {r : R}
    (hs : (jvm R direct target).step s (.reply n r) = some s') :
    Inv target (es ++ [.reply n r]) s' := by
  simp only [jvm, Jvm.step] at hs
  split at hs
  case h_2 => cases hs
  case h_1 a ha =>
    split at hs
    case isFalse => cases hs
    case isTrue hnone =>
      simp only [Option.some.injEq] at hs
      subst hs
      have hg : AsksGrow s { s with
          asks := Function.update s.asks n (some { a with answer := some r }) } := by
        intro k b hb
        by_cases hk : k = n
        · subst hk
          obtain rfl : a = b := by rw [ha] at hb; exact Option.some.inj hb
          refine ⟨_, Function.update_self .., rfl, rfl, rfl, fun v hv => ?_⟩
          simp [hv] at hnone
        · exact ⟨b, by simpa [hk] using hb, rfl, rfl, rfl, fun _ hv => hv⟩
      have hlast : ∀ f : JvmEvent R → Option ℕ, f (.reply n r) = none →
          last f (es ++ [.reply n r]) = last f es := fun f hf => by simp [last_concat, hf]
      refine ⟨?_, fun m hm => ?_, fun j => ?_, ?_⟩
      · rw [hlast _ rfl]; exact h.proxy
      · have hmn : m ≠ n := by rintro rfl; rw [h.fresh m hm] at ha; cases ha
        simpa [hmn] using h.fresh m hm
      · refine (h.phases j).frame hg (last_isSome _) (fun hl => ?_) (fun hl => ?_)
        · rw [hlast _ rfl] at hl; exact ⟨hl, rfl⟩
        · rw [hlast _ rfl] at hl; exact ⟨hl, rfl⟩
      · refine h.isolated.grow hg (fun q hq => Or.inl hq) (fun m b hb => ?_)
          (fun c hc => Or.inl hc)
        by_cases hm : m = n
        · subst hm
          simp only [Function.update_self, Option.some.injEq] at hb
          subst hb; exact Or.inl ⟨a, ha, rfl, rfl⟩
        · exact Or.inl ⟨b, by simpa [hm] using hb, rfl, rfl⟩

theorem inv_step {e : JvmEvent R} (h : Inv target es s) (hok : KeptApart target es s e)
    (hs : (jvm R direct target).step s e = some s') : Inv target (es ++ [e]) s' := by
  cases e with
  | inject i => exact inv_inject h hs
  | checkInjected i => exact inv_checkInjected h hs
  | start i => exact inv_start h hs
  | send i request x => exact inv_send h hok hs
  | await i => exact inv_await h hok hs
  | store i => exact inv_store h hs
  | awaitFails i => exact inv_awaitFails h hs
  | ret i => exact inv_ret h hok hs
  | reply n r => exact inv_reply h hs

end Steps

/-! ## Isolation -/

/-- **Request isolation on the schedules that keep executors apart**:
for any number of executors and requests, every request is asked of the
target named in its issuer's `ExecuteTask`, and `getResponse` returns the
answer to its own request or null. -/
theorem requests_isolated [DecidableEq V] (direct : ℕ → Bool) (target : ℕ → V)
    {es : List (JvmEvent R)} {s : Jvm V R}
    (h : (jvm R direct target).Run (KeptApart target) es s) : Isolated target s :=
  (h.invariant (I := Inv target) (inv_init target)
    fun _ _ _ _ hi hok hs => inv_step hi hok hs).isolated

/-- A task makes one request, gets the answer `7`, and makes another. A
second one, of the same VM and without an injection of its own, follows. -/
def turnsRun : List (JvmEvent ℕ) :=
  [.inject 0, .checkInjected 0, .start 1,
    .send 0 (.restApiRequest "GET" "http://a") .ioException, .await 0, .reply 0 7, .store 0, .ret 0,
    .send 1 (.restApiRequest "PUT" "http://b") .ioException, .await 1, .reply 1 8, .store 1, .ret 1,
    .send 0 (.restApiRequest "GET" "http://c") .ioException]

theorem requests_isolated_turns :
    Isolated (fun _ : ℕ => 5)
      ((EventSystem.execWhen (jvm ℕ (· = 0) fun _ => 5).step (KeptApart fun _ => 5) [] turnsRun
        Jvm.init).get (by decide)) :=
  requests_isolated (· = 0) (fun _ : ℕ => 5) (@EventSystem.run_of_execWhen _ _
    (jvm ℕ (· = 0) fun _ => 5) (KeptApart fun _ => 5) _ turnsRun _ (by simp [jvm]))

/-- Two executors start, the second injects its VM over the first one's,
and the first one's request is asked of the second one's VM. -/
def mixedRun : List (JvmEvent ℕ) :=
  [.inject 0, .checkInjected 0, .inject 1, .checkInjected 1,
    .send 0 (.restApiRequest "GET" "http://a") .ioException]

/-- **Two executors of one JVM are not isolated.** -/
theorem requests_not_isolated :
    ¬ ∀ (direct : ℕ → Bool) (target : ℕ → ℕ) (es : List (JvmEvent ℕ)) (s : Jvm ℕ ℕ),
      (jvm ℕ direct target).Run EventSystem.anyStep es s → Isolated target s := by
  intro h
  have hrun := @EventSystem.run_of_exec _ _ (jvm ℕ (fun _ => true) fun i : ℕ => i) mixedRun _ rfl
  have hasked := (h _ _ _ _ hrun).asked 0 ⟨0, 1, .restApiRequest "GET" "http://a", none⟩ rfl
  exact absurd hasked (by decide)

end Clustering.Communication
