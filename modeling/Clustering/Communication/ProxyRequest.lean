/-
Clustering.Communication.ProxyRequest — the request object of a
clustering task (`ProxyRequest.java`).

A task performs its requests with `request.getResponse(r)`, which is
`send(r)` followed by `receive()`. With `vmProxy` set the request is
asked of that actor and `receive` waits for the future; without it the
request is executed on the spot. The three mutable fields `vmProxy`,
`future` and `response` are the whole state of the object.

`receive` is given in the three pieces between which another thread can
run: reading `future` to wait for it (`receiveAwait`), storing the
result (`receiveStore`) and reading the field back to return it
(`receiveReturn`). The Java is

    this.response = Await.result(future, TIMEOUT.duration());
    return this.response;

The HTTP client, the four request constructors and `RestApiResponse`
are outside this module: what executing a request locally comes to is
the argument `Execution`.
-/
import Clustering.Actors.Handler

namespace Clustering.Communication

open Actors Actors.Handler

/-- A request object: `send` distinguishes `RestApiRequest` from every
other class. -/
inductive Request where
  | restApiRequest (method url : String)
  | other (cls : String)
  deriving DecidableEq, Repr

/-- What building and executing a request locally comes to. -/
inductive Execution (R : Type) where
  /-- `client.execute` and `new RestApiResponse` returned. -/
  | response (r : R)
  /-- An `IOException`, which `execute` catches and prints. -/
  | ioException
  /-- An unchecked exception, such as a request constructor rejecting
  the URL: nothing catches it before it leaves `getResponse`. -/
  | thrown

/-- The exceptions that leave the methods of `ProxyRequest`. -/
inductive RequestError where
  | unchecked
  deriving DecidableEq, Repr

/-- `Patterns.ask(vmProxy, request, TIMEOUT)`: the one effect the
object has on the actor system. -/
structure AskEffect (V : Type) where
  vm : V
  request : Request

/-- The fields of `ProxyRequest`; a future is named by the number of the
ask it belongs to. -/
structure ProxyRequest (V R : Type) where
  vmProxy : Option V
  future : Option ℕ
  response : Option R

namespace ProxyRequest

variable {V R : Type}

/-- `new ProxyRequest<>()`. -/
def new : ProxyRequest V R := ⟨none, none, none⟩

/-- `private void execute(HttpRequest http)`. -/
def execute (x : Execution R) :
    Handler (ProxyRequest V R) (AskEffect V) RequestError Unit :=
  match x with
  | .response r => assign fun p => { p with response := some r }
  | .ioException => pure ()
  | .thrown => raise .unchecked

/-- `private void send(T request)`; `fresh` numbers the future a call
of `ask` creates. -/
def send (fresh : ℕ) (request : Request) (x : Execution R) :
    Handler (ProxyRequest V R) (AskEffect V) RequestError Unit := do
  match (← fields).vmProxy with
  | some vm =>
      perform ⟨vm, request⟩
      assign fun p => { p with future := some fresh }
  | none =>
      match request with
      | .restApiRequest method _ =>
          match method with
          | "GET" => execute x
          | "POST" => execute x
          | "PUT" => execute x
          | "DELETE" => execute x
          | _ => pure ()
      | .other _ => pure ()

/-- What `receive` does before it can block. -/
inductive Waiting (R : Type) where
  /-- Cluster mode: wait for this future (`null` if none was ever set). -/
  | forFuture (future : Option ℕ)
  /-- Local mode: the field is returned at once. -/
  | returned (value : Option R)

/-- The start of `receive()`: the mode test and the read of `future`. -/
def receiveAwait (p : ProxyRequest V R) : Waiting R :=
  match p.vmProxy with
  | some _ => .forFuture p.future
  | none => .returned p.response

/-- `this.response = Await.result(...)`, the future having the value `r`. -/
def receiveStore (r : R) (p : ProxyRequest V R) : ProxyRequest V R :=
  { p with response := some r }

/-- `return this.response`. -/
def receiveReturn (p : ProxyRequest V R) : Option R := p.response

/-- `public Object getResponse(T request)` in one thread. In cluster mode
`awaited` is what `Await.result` comes to, `none` an exception, which
`receive` catches. -/
def getResponse (fresh : ℕ) (request : Request) (x : Execution R) (awaited : Option R) :
    Handler (ProxyRequest V R) (AskEffect V) RequestError (Option R) := do
  send fresh request x
  match receiveAwait (← fields) with
  | .returned value => pure value
  | .forFuture _ =>
      match awaited with
      | some r =>
          assign (receiveStore r)
          pure (receiveReturn (← fields))
      | none => pure none

/-- In cluster mode `send` asks the injected VM and nobody else. -/
@[simp] theorem send_cluster {p : ProxyRequest V R} {vm : V} (h : p.vmProxy = some vm)
    (fresh : ℕ) (request : Request) (x : Execution R) :
    send fresh request x p =
      ⟨{ p with future := some fresh }, [⟨vm, request⟩], .ok ()⟩ := by
  simp [send, h]

end ProxyRequest

end Clustering.Communication
