/-
Clustering.Communication.LocalRequests — many requests through one
`ProxyRequest` in local mode.

`response` is a field of the object. `execute` writes it when the HTTP
client has answered; an `IOException` is printed, another method is
skipped, an object of another class is reported, and all three leave
the field as it was. `receive` returns it in any case.

Whose response a call returns is said with the number of the call: the
response of call `i` is an object of its own, `⟨i, content⟩`.
-/
import Clustering.Communication.ProxyRequest

namespace Clustering.Communication

open Actors Actors.Handler

/-- A response object, with the call it was built in. -/
structure Produced (α : Type) where
  call : ℕ
  content : α
  deriving DecidableEq, Repr

namespace Execution

variable {α : Type}

/-- The execution as part of call `i`. -/
def inCall (i : ℕ) : Execution α → Execution (Produced α)
  | .response a => .response ⟨i, a⟩
  | .ioException => .ioException
  | .thrown => .thrown

end Execution

/-- One call of `getResponse`: the request, and what executing it comes to. -/
abbrev Call (α : Type) := Request × Execution α

namespace Call

variable {α : Type}

/-- The request is one that `send` executes. -/
def Executes : Request → Prop
  | .restApiRequest method _ => method ∈ ["GET", "POST", "PUT", "DELETE"]
  | .other _ => False

instance : DecidablePred Executes
  | .restApiRequest method _ => inferInstanceAs (Decidable (method ∈ ["GET", "POST", "PUT", "DELETE"]))
  | .other _ => .isFalse id

/-- The call gets a response of its own. -/
def Succeeds (c : Call α) : Prop := Executes c.1 ∧ ∃ a, c.2 = .response a

/-- The call gets none, and returns nevertheless: an `IOException`, a
method that is no case of the `switch`, or an unsupported request. -/
def Passes (c : Call α) : Prop := Executes c.1 → c.2 = .ioException

end Call

namespace ProxyRequest

variable {V α : Type}

/-- The answers of a list of calls on one object, the first of them
number `i`. An exception is `.error`. -/
def answers : ℕ → List (Call α) → ProxyRequest V (Produced α) →
    List (Except RequestError (Option (Produced α)))
  | _, [], _ => []
  | i, c :: cs, p =>
      let o := getResponse i c.1 (c.2.inCall i) none p
      o.result :: answers (i + 1) cs o.fields

/-! ## One call -/

theorem send_local {p : ProxyRequest V (Produced α)} (h : p.vmProxy = none) (i : ℕ) (c : Call α) :
    send i c.1 (c.2.inCall i) p =
      if Call.Executes c.1 then execute (c.2.inCall i) p else ⟨p, [], .ok ()⟩ := by
  obtain ⟨request, x⟩ := c
  cases request with
  | other cls => simp [send, h, Call.Executes]
  | restApiRequest method url =>
    simp only [send, bind_apply, fields_apply, Outcome.andThen_ok, h, List.nil_append,
      Call.Executes, List.mem_cons, List.not_mem_nil, or_false]
    split
    · simp
    · simp
    · simp
    · simp
    · rename_i h1 h2 h3 h4
      rw [if_neg (fun hm => by rcases hm with rfl | rfl | rfl | rfl <;> contradiction)]
      rfl

/-- **What one call does to the field and what it returns.** -/
theorem getResponse_local {p : ProxyRequest V (Produced α)} (h : p.vmProxy = none) (i : ℕ)
    (c : Call α) :
    let o := getResponse i c.1 (c.2.inCall i) none p
    o.fields.vmProxy = none ∧
    ((∃ a, c.2 = .response a ∧ Call.Executes c.1 ∧ o.fields.response = some ⟨i, a⟩ ∧
        o.result = .ok (some ⟨i, a⟩)) ∨
      c.Passes ∧ o.fields.response = p.response ∧ o.result = .ok p.response ∨
      ¬ c.Succeeds ∧ ¬ c.Passes ∧ o.fields.response = p.response ∧
        o.result = .error .unchecked) := by
  have hsend := send_local h i c
  by_cases hx : Call.Executes c.1
  · rw [if_pos hx] at hsend
    cases hc : c.2 with
    | response a =>
      simp only [hc, Execution.inCall, execute] at hsend
      simp [getResponse, hsend, Execution.inCall, receiveAwait, h, hx]
    | ioException =>
      simp only [hc, Execution.inCall, execute] at hsend
      simp [getResponse, hsend, Execution.inCall, hc, receiveAwait, h, Call.Passes]
    | thrown =>
      simp only [hc, Execution.inCall, execute] at hsend
      simp [getResponse, hsend, Execution.inCall, hc, h, hx, Call.Passes, Call.Succeeds]
  · rw [if_neg hx] at hsend
    simp [getResponse, hsend, receiveAwait, h, Call.Passes, hx]

/-! ## All calls -/

/-- From call `i` on, every call returns its own response or null. -/
def AnswersOwn (i : ℕ) (calls : List (Call α)) (p : ProxyRequest V (Produced α)) : Prop :=
  ∀ k r, (answers i calls p)[k]? = some (.ok (some r)) →
    r.call = i + k ∧ ∃ c a, calls[k]? = some c ∧ c.2 = .response a ∧ r.content = a

theorem answersOwn_cons {i : ℕ} {c : Call α} {calls : List (Call α)}
    {p : ProxyRequest V (Produced α)} :
    AnswersOwn i (c :: calls) p ↔
      (∀ r, (getResponse i c.1 (c.2.inCall i) none p).result = .ok (some r) →
        r.call = i ∧ ∃ a, c.2 = .response a ∧ r.content = a) ∧
      AnswersOwn (i + 1) calls (getResponse i c.1 (c.2.inCall i) none p).fields := by
  constructor
  · intro h
    constructor
    · intro r hr
      obtain ⟨hcall, d, a, hd, ha, hcontent⟩ := h 0 r (by simp [answers, hr])
      obtain rfl := Option.some.inj hd
      exact ⟨hcall, a, ha, hcontent⟩
    · intro k r hr
      have hk := h (k + 1) r (by simpa [answers] using hr)
      rw [Nat.add_assoc, Nat.add_comm 1 k]
      exact hk
  · rintro ⟨hhead, htail⟩ k r hr
    cases k with
    | zero =>
      obtain ⟨hcall, a, ha, hcontent⟩ := hhead r (by simpa [answers] using hr)
      exact ⟨hcall, c, a, rfl, ha, hcontent⟩
    | succ k =>
      have hk := htail k r (by simpa [answers] using hr)
      rw [Nat.add_assoc, Nat.add_comm 1 k] at hk
      exact hk

/-- What the field holds is older than the calls to come. Then a call
that passes returns it. -/
theorem answersOwn_iff {calls : List (Call α)} :
    ∀ {i : ℕ} {p : ProxyRequest V (Produced α)}, p.vmProxy = none →
      (∀ r, p.response = some r → r.call < i) →
      (AnswersOwn i calls p ↔
        (p.response ≠ none → ∀ d ∈ calls, ¬ d.Passes) ∧
        calls.Pairwise fun c d => c.Succeeds → ¬ d.Passes) := by
  induction calls with
  | nil => simp [AnswersOwn, answers]
  | cons c calls ih =>
    intro i p hp hold
    obtain ⟨hproxy, ⟨a, hc, hx, hfield, hresult⟩ | ⟨hpass, hfield, hresult⟩ |
      ⟨hfail, hpass, hfield, hresult⟩⟩ := getResponse_local hp i c
    -- the field holds the response of this call
    · have hnext := ih (i := i + 1) hproxy (by
        intro r hr
        obtain rfl := Option.some.inj (hfield.symm.trans hr)
        exact Nat.lt_succ_self i)
      have hown : ∀ r : Produced α, (.ok (some ⟨i, a⟩) : Except RequestError _) = .ok (some r) →
          r.call = i ∧ ∃ b, c.2 = .response b ∧ r.content = b := by
        rintro r ⟨⟩
        exact ⟨rfl, a, hc, rfl⟩
      have hsucc : c.Succeeds := ⟨hx, a, hc⟩
      have hnot : ¬ c.Passes := fun hpass => by simpa [hc] using hpass hx
      rw [answersOwn_cons, hresult, hnext, hfield]
      simp only [List.pairwise_cons, List.mem_cons, forall_eq_or_imp, hnot, hsucc,
        not_false_iff, true_and, forall_const]
      constructor
      · rintro ⟨-, hlater, hpairs⟩
        exact ⟨fun _ => hlater (by simp), hlater (by simp), hpairs⟩
      · rintro ⟨-, hlater, hpairs⟩
        exact ⟨hown, fun _ => hlater, hpairs⟩
    -- the field is returned as it is
    · have hnext := ih (i := i + 1) hproxy (by
        intro r hr
        exact Nat.lt_succ_of_lt (hold r (hfield.symm.trans hr)))
      have hnot : ¬ c.Succeeds := by
        rintro ⟨hx, a, ha⟩
        simpa [ha] using hpass hx
      rw [answersOwn_cons, hresult, hnext, hfield]
      simp only [List.pairwise_cons, List.mem_cons, forall_eq_or_imp, hpass, hnot, not_true,
        false_imp_iff, implies_true, false_and, imp_false, not_not, true_and]
      constructor
      · rintro ⟨hhead, hlater, hpairs⟩
        refine ⟨?_, hpairs⟩
        by_contra hne
        obtain ⟨r, hr⟩ := Option.ne_none_iff_exists'.mp hne
        exact absurd (hhead r (by rw [hr])).1 (Nat.ne_of_lt (hold r hr))
      · rintro ⟨hnone, hpairs⟩
        rw [hnone]
        exact ⟨by simp, by simp, hpairs⟩
    -- the exception leaves the field as it was
    · have hnext := ih (i := i + 1) hproxy (by
        intro r hr
        exact Nat.lt_succ_of_lt (hold r (hfield.symm.trans hr)))
      rw [answersOwn_cons, hresult, hnext, hfield]
      simp [hpass, hfail]

end ProxyRequest

/-- **Each call returns the response of its own request or null exactly
if no call that gets no response, and returns, comes after one that got
one.** -/
theorem answersOwn_new_iff {α : Type} (V : Type) (calls : List (Call α)) :
    ProxyRequest.AnswersOwn 0 calls (ProxyRequest.new : ProxyRequest V (Produced α)) ↔
      calls.Pairwise fun c d => c.Succeeds → ¬ d.Passes := by
  rw [ProxyRequest.answersOwn_iff rfl (by simp [ProxyRequest.new])]
  simp [ProxyRequest.new]

/-- The service answers the first request and is gone at the second. -/
theorem response_stale :
    ¬ ProxyRequest.AnswersOwn 0
      [(.restApiRequest "GET" "http://service/a", .response "a"),
        (.restApiRequest "GET" "http://service/b", .ioException)]
      (ProxyRequest.new : ProxyRequest Unit (Produced String)) := by
  intro h
  have hstale := h 1 ⟨0, "a"⟩ rfl
  exact absurd hstale.1 (by decide)

end Clustering.Communication
