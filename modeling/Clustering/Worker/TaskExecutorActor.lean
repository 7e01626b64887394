/-
Clustering.Worker.TaskExecutorActor — how `TaskExecutorActor.run` ends.

`run` never returns: it throws whatever becomes of the task. What
reflection, the class loader and JUnit do with the class of a task is
outside the model; `Execution` is what each of their calls comes to.
The two result exceptions are `Throwable`s and no `Exception`s, so the
`catch` around the whole body lets them pass.
-/
import Clustering.Worker.Messages

namespace Clustering.Worker

/-- What a call throws, as far as the `catch` reads it. -/
inductive Raised where
  /-- An `Exception` with this `getCause`, which may be null. -/
  | exception (cause : Option Cause)
  /-- A `Throwable` that is no `Exception`. -/
  | error (text : String)
  deriving DecidableEq, Repr

/-- The `Result` of JUnit: `getIgnoreCount` and the exceptions of its
`getFailures`. -/
structure JUnitResult where
  ignoreCount : ℕ
  failures : List Cause
  deriving DecidableEq, Repr

def JUnitResult.wasSuccessful (r : JUnitResult) : Bool := r.failures.isEmpty

/-- A declared field of the `ProxyRequest` class: `inject` makes it
accessible, sets it to `targetVM` and reads it back. -/
structure ProxyField where
  name : String
  inject : Except Raised Bool

/-- A declared field of an interface; `get` is its value, with the fields
of the value's class. -/
structure InterfaceField where
  isProxyRequest : Bool
  get : Except Raised (List ProxyField)

structure Interface where
  typeName : String
  fields : List InterfaceField

/-- What the calls in the body of `run` come to. -/
structure Execution where
  getClassFromByte : Except Raised Unit
  /-- The object, with the interfaces of its class. -/
  newInstance : Except Raised (List Interface)
  /-- Whether the method has the annotation `Test`. -/
  getMethod : Except Raised Bool
  junit : Except Raised JUnitResult
  /-- `method.invoke(obj)` returns this object, or null. -/
  invoke : Except Raised (Option String)

namespace TaskExecutorActor

/-- `classOf[ClusteringTask].getTypeName`. -/
def clusteringTask : String := "de.oth.clustering.java.clustering.ClusteringTask"

def injectField (f : ProxyField) : Except Raised Unit :=
  match f.name with
  | "vmProxy" => do
      if !(← f.inject) then
        throw (.error "de.oth.de.oth.clustering.java.clustering.scala.vm proxy injection failed.")
  | _ => pure ()

def injectRequest (f : InterfaceField) : Except Raised Unit := do
  if f.isProxyRequest then
    (← f.get).forM injectField

def injectInterface (i : Interface) : Except Raised Unit := do
  if i.typeName = clusteringTask then
    i.fields.forM injectRequest

/-- The end of the body: the method, and its invocation. -/
def invokeMethod (task : Task) (x : Execution) : Except Raised Throwable := do
  if ← x.getMethod then
    let result ← x.junit
    match result.failures with
    | [] => return .testSuccess task (some (if result.ignoreCount = 1 then "IGNORE" else "SUCCESS"))
    | exception :: _ => return .testFail task (some exception)
  else
    let res ← x.invoke
    return .testSuccess task res

/-- The body of the `try`, with the exception it throws for the task. -/
def body (task : Task) (x : Execution) : Except Raised Throwable := do
  x.getClassFromByte
  let interfaces ← x.newInstance
  interfaces.forM injectInterface
  invokeMethod task x

/-- What `run(msg)` throws, for the `msg.task` it was sent. -/
def run (task : Task) (x : Execution) : Throwable :=
  match body task x with
  | .ok t => t
  | .error (.exception cause) =>
      -- the log line before the `throw` reads `e.getCause.toString`
      match cause with
      | some c => .testFail task (some c)
      | none => .nullPointer
  | .error (.error text) => .other text

end TaskExecutorActor

/-! ## What a call raises -/

/-- The exception a call ends with. -/
def raisedBy {α : Type} : Except Raised α → Option Raised
  | .ok _ => none
  | .error r => some r

/-- An assertion that fails is no `Exception`. -/
def ProxyField.raised (f : ProxyField) : Option Raised :=
  if f.name = "vmProxy" then
    match f.inject with
    | .ok true => none
    | .ok false =>
        some (.error "de.oth.de.oth.clustering.java.clustering.scala.vm proxy injection failed.")
    | .error r => some r
  else none

def InterfaceField.raised (f : InterfaceField) : Option Raised :=
  if f.isProxyRequest then
    match f.get with
    | .ok fields => fields.findSome? ProxyField.raised
    | .error r => some r
  else none

def Interface.raised (i : Interface) : Option Raised :=
  if i.typeName = TaskExecutorActor.clusteringTask then
    i.fields.findSome? InterfaceField.raised
  else none

namespace Execution

/-- The object and the injection into its interfaces' fields. -/
def instanceRaised (x : Execution) : Option Raised :=
  match x.newInstance with
  | .ok interfaces => interfaces.findSome? Interface.raised
  | .error r => some r

/-- The method and its invocation, by JUnit if it is a test. -/
def methodRaised (x : Execution) : Option Raised :=
  match x.getMethod with
  | .ok true => raisedBy x.junit
  | .ok false => raisedBy x.invoke
  | .error r => some r

/-- The exception an execution ends with: that of the first call that
raises one. -/
def raised (x : Execution) : Option Raised :=
  (raisedBy x.getClassFromByte).or (x.instanceRaised.or x.methodRaised)

/-- The method returned normally, or its JUnit result was successful. -/
def Succeeds (x : Execution) : Prop :=
  (x.getMethod = .ok false ∧ ∃ res, x.invoke = .ok res) ∨
    (x.getMethod = .ok true ∧ ∃ result, x.junit = .ok result ∧ result.wasSuccessful = true)

end Execution

namespace TaskExecutorActor

variable {task : Task} {x : Execution}

theorem raisedBy_seq {α : Type} (x : Except Raised Unit) (y : Except Raised α) :
    raisedBy (x >>= fun _ => y) = (raisedBy x).or (raisedBy y) := by
  cases x <;> rfl

/-- A loop ends with the exception of the first call that raises one. -/
theorem raisedBy_forM {α : Type} (f : α → Except Raised Unit) (l : List α) :
    raisedBy (l.forM f) = l.findSome? fun a => raisedBy (f a) := by
  induction l with
  | nil => rfl
  | cons a l ih =>
    have hcons : (a :: l).forM f = (f a >>= fun _ => l.forM f) := rfl
    rw [hcons, raisedBy_seq, List.findSome?_cons, ih]
    cases f a <;> rfl

theorem raisedBy_injectField (f : ProxyField) : raisedBy (injectField f) = f.raised := by
  unfold injectField ProxyField.raised
  split
  · rename_i hname
    rw [if_pos hname]
    cases hx : f.inject with
    | error r => rfl
    | ok b => cases b <;> rfl
  · rename_i hname
    rw [if_neg hname]
    rfl

theorem raisedBy_injectRequest (f : InterfaceField) : raisedBy (injectRequest f) = f.raised := by
  unfold injectRequest InterfaceField.raised
  split
  · cases hx : f.get with
    | error r => rfl
    | ok fields =>
      change raisedBy (fields.forM injectField) = _
      rw [raisedBy_forM]
      simp only [raisedBy_injectField]
  · rfl

theorem raisedBy_injectInterface (i : Interface) : raisedBy (injectInterface i) = i.raised := by
  unfold injectInterface Interface.raised
  split
  · rw [raisedBy_forM]
    simp only [raisedBy_injectRequest]
  · rfl

theorem raisedBy_invokeMethod : raisedBy (invokeMethod task x) = x.methodRaised := by
  unfold invokeMethod Execution.methodRaised
  cases hm : x.getMethod with
  | error r => rfl
  | ok test =>
    cases test with
    | false => cases hx : x.invoke <;> rfl
    | true =>
      cases hj : x.junit with
      | error r => rfl
      | ok result =>
        cases hf : result.failures with
        | nil => simp [bind, Except.bind, hf, raisedBy, pure, Except.pure]
        | cons e es => simp [bind, Except.bind, hf, raisedBy, pure, Except.pure]

/-- The body ends with the exception of the first call that raises one. -/
theorem raisedBy_body : raisedBy (body task x) = x.raised := by
  unfold body Execution.raised Execution.instanceRaised
  rw [raisedBy_seq]
  congr 1
  cases x.newInstance with
  | error r => rfl
  | ok interfaces =>
    change raisedBy (interfaces.forM injectInterface >>= fun _ => invokeMethod task x) = _
    rw [raisedBy_seq, raisedBy_forM, raisedBy_invokeMethod]
    simp only [raisedBy_injectInterface]

/-! ## What `run` throws -/

/-- What the body throws for the task when no call raises anything. -/
theorem invokeMethod_ok {t : Throwable} (h : invokeMethod task x = .ok t) :
    (x.Succeeds ∧ ∃ res, t = .testSuccess task res) ∨ ∃ c, t = .testFail task (some c) := by
  unfold invokeMethod at h
  cases hm : x.getMethod with
  | error r => simp [hm, bind, Except.bind] at h
  | ok test =>
    cases test with
    | false =>
      cases hx : x.invoke with
      | error r => simp [hm, hx, bind, Except.bind] at h
      | ok res =>
        have ht : Throwable.testSuccess task res = t := by
          simpa [hm, hx, bind, Except.bind, pure, Except.pure] using h
        exact .inl ⟨.inl ⟨hm, res, hx⟩, res, ht.symm⟩
    | true =>
      cases hj : x.junit with
      | error r => simp [hm, hj, bind, Except.bind] at h
      | ok result =>
        cases hf : result.failures with
        | nil =>
          have hs : result.wasSuccessful = true := by simp [JUnitResult.wasSuccessful, hf]
          have ht : Throwable.testSuccess task
              (some (if result.ignoreCount = 1 then "IGNORE" else "SUCCESS")) = t := by
            simpa [hm, hj, hf, bind, Except.bind, pure, Except.pure] using h
          exact .inl ⟨.inr ⟨hm, result, hj, hs⟩, _, ht.symm⟩
        | cons e es =>
          have ht : Throwable.testFail task (some e) = t := by
            simpa [hm, hj, hf, bind, Except.bind, pure, Except.pure] using h
          exact .inr ⟨e, ht.symm⟩

theorem body_ok {t : Throwable} (h : body task x = .ok t) :
    (x.Succeeds ∧ ∃ res, t = .testSuccess task res) ∨ ∃ c, t = .testFail task (some c) := by
  refine invokeMethod_ok ?_
  unfold body at h
  cases hc : x.getClassFromByte with
  | error r => simp [hc, bind, Except.bind] at h
  | ok _ =>
    cases hn : x.newInstance with
    | error r => simp [hc, hn, bind, Except.bind] at h
    | ok interfaces =>
      cases hi : interfaces.forM injectInterface with
      | error r => simp [hc, hn, hi, bind, Except.bind] at h
      | ok _ => simpa [hc, hn, hi, bind, Except.bind] using h

theorem raisedBy_eq_some {α : Type} {y : Except Raised α} {r : Raised} :
    raisedBy y = some r ↔ y = .error r := by
  cases y <;> simp [raisedBy]

/-- The `catch`: an `Exception` without a cause breaks it. -/
theorem run_exception {cause : Option Cause} (h : x.raised = some (.exception cause)) :
    run task x = cause.elim .nullPointer fun c => .testFail task (some c) := by
  have hb : body task x = .error (.exception cause) := by
    rw [← raisedBy_eq_some, raisedBy_body, h]
  unfold run
  rw [hb]
  cases cause <;> rfl

/-- Only a success is thrown as one. -/
theorem run_testSuccess {task' : Task} {res : Option String}
    (h : run task x = .testSuccess task' res) : x.Succeeds := by
  unfold run at h
  cases hb : body task x with
  | ok t =>
    rcases body_ok hb with ⟨hs, -⟩ | ⟨c, ht⟩
    · exact hs
    · rw [hb, ht] at h
      cases h
  | error r =>
    rw [hb] at h
    cases r with
    | exception cause => cases cause <;> cases h
    | error text => cases h

end TaskExecutorActor

end Clustering.Worker
