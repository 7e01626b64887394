/-
Clustering.Vm.VMProxyActor — the handlers of `VMProxyActor.scala`.

The actor offers one slot for a task: `haveSpaceForTasks` says whether
it is free, `scheduleGetTask` holds the timer that polls for a task
while it is. Every handler that is guarded by `if ready` in `receive`
is dispatched here under the same guard; a message no case matches
while the actor is ready is dropped, as Akka does.

Outside this module: `java.net.URL` and `URI`, the HTTP client, the
order a `Map` is iterated in, and the attempt to connect to an SSH port.
They are the argument `Outside`. The
four request constructors of the project are one, `HttpRequest.new`, with
the method of the class.
-/
import Mathlib.Data.List.Sort
import Clustering.Worker.Messages

namespace Clustering.Vm

open Actors Actors.Handler

/-- The kinds of network settings of a virtual machine, with what
`getPortMapping` reads of them. A service and a port may be null. -/
inductive VagrantNetworkConfig where
  | portForwarding (service : Option String) (guestPort : Option Int) (hostIp : String)
      (hostPort : Option Int)
  | privateNetwork
  | publicNetwork
  deriving DecidableEq, Repr

structure VagrantVmConfig where
  name : String
  vagrantNetworkConfigs : List VagrantNetworkConfig
  deriving DecidableEq, Repr

structure VagrantEnvironmentConfig where
  version : String
  vmConfigs : List VagrantVmConfig
  deriving DecidableEq, Repr

/-- Hosts and ports by service. The key may be null, as a service may. -/
abbrev PortMapping := List (Option String × String × Int)

/-- A `java.net.URL`, with the parts the handler reads. -/
structure Url where
  protocol : String
  path : Option String
  query : Option String
  ref : Option String
  deriving DecidableEq, Repr

/-- A map, its names and its values may be null. -/
structure RestApiRequest where
  method : String
  url : String
  headers : Option (List (Option String × Option String))
  params : Option (List (Option String × Option String))
  body : Option String
  deriving DecidableEq, Repr

/-- An `HttpRequest`: what its constructor puts into it. -/
structure HttpRequest where
  method : String
  uri : String
  headers : List (Option String × Option String)
  body : Option String
  deriving DecidableEq, Repr

/-- The HTTP libraries, as one request meets them. -/
structure Http where
  /-- `new URL(s)`: `none` is a `MalformedURLException`. -/
  parse : String → Option Url
  /-- `URI.create(s)`: `none` is an `IllegalArgumentException`. -/
  createUri : String → Option String
  /-- `addHeader(name, value)`: whether it returns. -/
  takesHeader : Option String → Option String → Bool
  /-- `addParameter(name, value)`: whether it returns; what it throws else
  is an `IllegalArgumentException`. -/
  takesParam : Option String → Option String → Bool
  /-- `new URIBuilder(uri).addParameter(name, value).build()`: `none` is
  a `URISyntaxException`. -/
  addParameter : String → Option String → Option String → Option String
  /-- `client.execute` and `new RestApiResponse`: a body or the text of
  the exception. -/
  execute : HttpRequest → Except String String
  /-- `response.close()`: the text of an exception. -/
  closeResponse : HttpRequest → Option String
  /-- `client.close()`: whether it returns. -/
  closeClient : HttpRequest → Bool

/-- The loop over the parameters with `addParam`, which prints a
`URISyntaxException` and leaves the URI as it was. -/
def addParams (http : Http) (uri : String) (params : List (Option String × Option String)) :
    String :=
  params.foldl (fun uri param => (http.addParameter uri param.1 param.2).getD uri) uri

/-- What a constructor from a `RestApiRequest` makes or throws. -/
abbrev Built := Except Worker.Throwable HttpRequest

/-- The constructors from a `RestApiRequest`. The method is that of the
class; `RequestMethod.valueOf` knows all four. -/
def HttpRequest.new (http : Http) (method : String) (req : RestApiRequest) : Built :=
  match http.createUri req.url, req.headers with
  | none, _ => .error .illegalArgument
  | some _, none => .error .nullPointer
  | some uri, some headers =>
      if headers.all fun header => http.takesHeader header.1 header.2 then
        match req.params with
        | none => .error .nullPointer
        | some params =>
            if params.all fun param => http.takesParam param.1 param.2 then
              .ok ⟨method, addParams http uri params, headers, req.body⟩
            else .error .illegalArgument
      else .error .illegalArgument

namespace GetRequest

def new (http : Http) (req : RestApiRequest) : Built := HttpRequest.new http "GET" req

end GetRequest

namespace PostRequest

def new (http : Http) (req : RestApiRequest) : Built := HttpRequest.new http "POST" req

end PostRequest

namespace PutRequest

def new (http : Http) (req : RestApiRequest) : Built := HttpRequest.new http "PUT" req

end PutRequest

namespace DeleteRequest

def new (http : Http) (req : RestApiRequest) : Built := HttpRequest.new http "DELETE" req

end DeleteRequest

/-- The order in which the entries of a map are iterated, by their keys. -/
structure KeyOrder where
  le : String → String → Bool
  total : ∀ a b, le a b = true ∨ le b a = true
  trans : ∀ a b c, le a b = true → le b c = true → le a c = true
  antisymm : ∀ a b, le a b = true → le b a = true → a = b

namespace KeyOrder

/-- The entries of a map as they are iterated. -/
def entries {β : Type} (order : KeyOrder) (m : List (String × β)) : List (String × β) :=
  m.insertionSort fun a b => order.le a.1 b.1 = true

def alphabetical : KeyOrder where
  le a b := decide (a ≤ b)
  total a b := by simpa using String.le_total a b
  trans a b c := by simpa using fun h h' => String.le_trans h h'
  antisymm a b := by simpa using fun h h' => String.le_antisymm h h'

end KeyOrder

/-- Whether a connection to a host and port succeeds. An exception of
the attempt is caught and counts as neither. -/
inductive ProbeResult where
  | connected
  | refused
  | exception
  deriving DecidableEq, Repr

/-- What `VMProxyActor` answers to a sender. -/
inductive Answer where
  | acquireExecutor
  | failure (text : String)
  | notReadyJet
  | restApiResponse (body : String)
  | exception (text : String)
  | stillAlive (result : Bool)
  deriving DecidableEq, Repr

/-- The messages `VMProxyActor` handles. References are numbers; a null
reference in a `Set…` message is `none`. -/
inductive VmMessage where
  | init
  | setVmActor (actor : Option ℕ)
  | setInstanceActor (actor : Option ℕ)
  | notReadyJet
  | setVagrantEnvironmentConfig (config : VagrantEnvironmentConfig)
  | sendTask
  | noMoreTasks
  | executor (id : ℕ)
  | cannotGetExecutor
  | terminated (id : ℕ)
  | restApiRequest (request : RestApiRequest)
  | stillAlive
  deriving DecidableEq, Repr

/-- The effects of `VMProxyActor`. -/
inductive VmEffect where
  /-- `sender() ! a`. -/
  | reply (a : Answer)
  /-- `nodeActor ! GetVmActor(self)` and `nodeActor ! GetInstanceActor`. -/
  | askNode
  /-- `nodeActor ! RemoveVmActor(self)`. -/
  | removeVmActor
  /-- `vmActor ! NoMoreTasks`. -/
  | tellVmActor (actor : ℕ)
  | watch (executor : ℕ)
  | stopSelf
  /-- `scheduler.schedule(delay, interval, instanceActor, GetTask(version))`. -/
  | schedule (timer : ℕ) (delay interval : ℕ) (receiver : Option ℕ) (version : String)
  | cancel (timer : ℕ)
  /-- `scheduleOnceRetry(5 seconds, sender(), any)`. -/
  | scheduleRetry
  deriving DecidableEq, Repr

/-- The fields of a `VMProxyActor`. A timer is named by a number. -/
structure VMProxyActor where
  vagrantEnvironmentConfig : Option VagrantEnvironmentConfig
  vmActor : Option ℕ
  instanceActor : Option ℕ
  portMapping : PortMapping
  scheduleGetTask : Option ℕ
  haveSpaceForTasks : Bool
  ready : Bool
  deriving DecidableEq, Repr

namespace VMProxyActor

abbrev Code := Handler VMProxyActor VmEffect Worker.Throwable

/-- The fields of a fresh instance, before its `Init`. -/
def new : VMProxyActor := ⟨none, none, none, [], none, false, false⟩

/-- `map += key -> value`. -/
def insertEntry {α β : Type} [DecidableEq α] (key : α) (value : β) (m : List (α × β)) :
    List (α × β) :=
  (key, value) :: m.filter (fun e => e.1 ≠ key)

/-- The map that entries make on top of `m`. -/
def insertEntries {α β : Type} [DecidableEq α] (m l : List (α × β)) : List (α × β) :=
  l.foldl (fun m e => insertEntry e.1 e.2 m) m

def checkReady : Code Unit :=
  assign fun v =>
    if v.vmActor.isSome && v.instanceActor.isSome && v.vagrantEnvironmentConfig.isSome then
      { v with ready := true }
    else v

/-- `scheduleGetTask(delay, interval)`. The version is read from
`vagrantEnvironmentConfig`, which may be null. -/
def scheduleGetTaskTimer (fresh delay interval : ℕ) : Code Unit := do
  let v ← fields
  let config ← deref .nullPointer v.vagrantEnvironmentConfig
  perform (.schedule fresh delay interval v.instanceActor config.version)
  assign fun v => { v with scheduleGetTask := some fresh }

/-- `if (scheduleGetTask != null) scheduleGetTask.cancel(); scheduleGetTask = null`. -/
def cancelGetTask : Code Unit := do
  match (← fields).scheduleGetTask with
  | some timer => perform (.cancel timer)
  | none => pure ()
  assign fun v => { v with scheduleGetTask := none }

/-- The inner loop of `getPortMapping`. The match has a case for port
forwardings only, and a host port becomes an `Int`. -/
def mapPorts (vmName : String) : List VagrantNetworkConfig → Code Unit
  | [] => pure ()
  | .portForwarding service guestPort hostIp hostPort :: rest => do
      let port ← deref .nullPointer hostPort
      if guestPort = some 22 then
        assign fun v => { v with
          portMapping := insertEntry (some (service.getD "null" ++ "_" ++ vmName)) (hostIp, port)
            v.portMapping }
      else
        assign fun v => { v with
          portMapping := insertEntry service (hostIp, port) v.portMapping }
      mapPorts vmName rest
  | .privateNetwork :: _ => raise .matchError
  | .publicNetwork :: _ => raise .matchError

/-- The outer loop of `getPortMapping`. -/
def mapVms : List VagrantVmConfig → Code Unit
  | [] => pure ()
  | vm :: rest => do
      mapPorts vm.name vm.vagrantNetworkConfigs
      mapVms rest

def getPortMapping : Code Unit := do
  assign fun v => { v with portMapping := [] }
  let config ← deref .nullPointer (← fields).vagrantEnvironmentConfig
  mapVms config.vmConfigs

def handlerInit : Code Unit := do
  assign fun v => { v with ready := false, haveSpaceForTasks := true }
  perform .askNode

def handlerSetVmActor (actor : Option ℕ) : Code Unit := do
  assign fun v => { v with vmActor := actor }
  checkReady

def handlerSetInstanceActor (actor : Option ℕ) : Code Unit := do
  assign fun v => { v with instanceActor := actor }
  checkReady

def handlerSetVagrantEnvironmentConfig (fresh : ℕ) (config : VagrantEnvironmentConfig) :
    Code Unit := do
  assign fun v => { v with vagrantEnvironmentConfig := some config }
  getPortMapping
  checkReady
  if (← fields).scheduleGetTask.isNone then
    scheduleGetTaskTimer fresh 5 10

def handlerNotReady : Code Unit := perform (.reply .notReadyJet)

def handlerNotReadyJet : Code Unit := perform .scheduleRetry

def handlerSendTask : Code Unit := do
  cancelGetTask
  if (← fields).haveSpaceForTasks then
    assign fun v => { v with haveSpaceForTasks := false }
    perform (.reply .acquireExecutor)
  else
    perform (.reply (.failure "no more tasks!"))

def handlerNoMoreTasks : Code Unit := do
  cancelGetTask
  let actor ← deref .nullPointer (← fields).vmActor
  perform (.tellVmActor actor)
  perform .removeVmActor
  perform .stopSelf

def handlerExecutor (executor : ℕ) : Code Unit := perform (.watch executor)

def handlerFailure (fresh : ℕ) : Code Unit := do
  assign fun v => { v with haveSpaceForTasks := true }
  if (← fields).scheduleGetTask.isNone then
    scheduleGetTaskTimer fresh 0 10

def handlerSuccess (fresh : ℕ) : Code Unit := do
  assign fun v => { v with haveSpaceForTasks := true }
  if (← fields).scheduleGetTask.isNone then
    scheduleGetTaskTimer fresh 0 10

def handlerCannotGetExecutor (fresh : ℕ) : Code Unit := handlerFailure fresh

def handlerTerminated (fresh : ℕ) : Code Unit := handlerFailure fresh

/-- The text the rewritten URL is built from. -/
def rewriteUrl (url : Url) (host : String) (port : Int) : String :=
  url.protocol ++ "://" ++ host ++ ":" ++ toString port ++ url.path.getD ""
    ++ (url.query.elim "" fun q => "?" ++ q) ++ (url.ref.elim "" fun r => "#" ++ r)

/-- The request with its URL rewritten, if the protocol is mapped. -/
def redirected (mapping : PortMapping) (url : Url) (request : RestApiRequest) :
    RestApiRequest :=
  match mapping.lookup (some url.protocol) with
  | some (host, port) => { request with url := rewriteUrl url host port }
  | none => request

/-- The `try` of `sendRequest` with its handler. An exception of
`response.close()` is sent after the response. -/
def answerRequest (http : Http) (request : HttpRequest) : Code Unit :=
  match http.execute request with
  | .ok body => do
      perform (.reply (.restApiResponse body))
      match http.closeResponse request with
      | some text => perform (.reply (.exception text))
      | none => pure ()
  | .error text => perform (.reply (.exception text))

def sendRequest (fresh : ℕ) (http : Http) (request : HttpRequest) : Code Unit := do
  answerRequest http request
  if http.closeClient request then
    handlerSuccess fresh
  else
    raise (.other "IOException")

/-- The constructor for a method. -/
def constructorOf (http : Http) : String → Option (RestApiRequest → Built)
  | "GET" => some (GetRequest.new http)
  | "POST" => some (PostRequest.new http)
  | "PUT" => some (PutRequest.new http)
  | "DELETE" => some (DeleteRequest.new http)
  | _ => none

def handlerRestApiRequest (fresh : ℕ) (http : Http) (request : RestApiRequest) :
    Code Unit := do
  let url ← deref (.other "MalformedURLException") (http.parse request.url)
  let request := redirected (← fields).portMapping url request
  let new ← deref .matchError (constructorOf http request.method)
  match new request with
  | .ok httpRequest => sendRequest fresh http httpRequest
  | .error x => raise x

/-- `key.contains("ssh")`. -/
def IsSsh (key : String) : Prop := "ssh".toList <:+: key.toList

instance : DecidablePred IsSsh := fun _ => inferInstanceAs (Decidable (_ <:+: _))

/-- The entries under a key that is not null. -/
def named (m : PortMapping) : List (String × String × Int) :=
  m.filterMap fun e => e.1.map fun key => (key, e.2)

/-- `portMapping.filter(_._1.contains("ssh")).map(_._2)`. The values are
pairs, and `map` makes a map of them, by their hosts. -/
def sshEntries (order : KeyOrder) (m : PortMapping) : List (String × Int) :=
  insertEntries [] ((order.entries ((named m).filter fun e => IsSsh e.1)).map (·.2))

/-- The loop over the ssh entries of `portMapping`: only a refused
connection makes the result false. The filter asks every key, and raises
for a null. -/
def checkSsh (order : KeyOrder) (probe : String × Int → ProbeResult) : Code Unit := do
  let mapping := (← fields).portMapping
  if mapping.any fun e => e.1.isNone then raise .nullPointer
  let entries := sshEntries order mapping
  perform (.reply (.stillAlive (entries.all fun e => probe e ≠ .refused)))

/-- What the outside answers while one message is handled. -/
structure Outside where
  http : Http
  order : KeyOrder
  probe : String × Int → ProbeResult

/-- `receive`, with the guards in the order of the source. `fresh` is
the number of a timer started by the handler. -/
def receive (fresh : ℕ) (o : Outside) (m : VmMessage) : Code Unit := do
  let ready := (← fields).ready
  match m with
  | .init => handlerInit
  | .setVmActor actor => handlerSetVmActor actor
  | .setInstanceActor actor => handlerSetInstanceActor actor
  | .notReadyJet => handlerNotReadyJet
  | .setVagrantEnvironmentConfig config => handlerSetVagrantEnvironmentConfig fresh config
  | .sendTask => if ready then handlerSendTask else handlerNotReady
  | .noMoreTasks => if ready then handlerNoMoreTasks else handlerNotReady
  | .executor id => if ready then handlerExecutor id else handlerNotReady
  | .cannotGetExecutor => if ready then handlerCannotGetExecutor fresh else handlerNotReady
  | .terminated _ => if ready then handlerTerminated fresh else handlerNotReady
  | .restApiRequest request =>
      if ready then handlerRestApiRequest fresh o.http request else handlerNotReady
  | .stillAlive => if ready then checkSsh o.order o.probe else handlerNotReady

/-! ## What a message leaves of the slot -/

/-- What the slot depends on. -/
structure Slot where
  ready : Bool
  free : Bool
  config : Bool
  deriving DecidableEq, Repr

def slot (v : VMProxyActor) : Slot :=
  ⟨v.ready, v.haveSpaceForTasks, v.vagrantEnvironmentConfig.isSome⟩

/-- Effects on nothing but timers and actors outside the handshake. -/
def Silent : VmEffect → Prop
  | .reply _ | .watch _ | .stopSelf => False
  | _ => True

/-- The request that is executed, if its URL, its method and its parts
are accepted. -/
def built (http : Http) (mapping : PortMapping) (request : RestApiRequest) :
    Option HttpRequest :=
  (http.parse request.url).bind fun url =>
    (constructorOf http request.method).bind fun new =>
      (new (redirected mapping url request)).toOption

/-- A request that `handlerRestApiRequest` carries out. -/
def Completes (http : Http) (mapping : PortMapping) (request : RestApiRequest) :
    Prop :=
  ∃ httpRequest, built http mapping request = some httpRequest ∧
    http.closeClient httpRequest = true

instance (http : Http) (mapping : PortMapping) (request : RestApiRequest) :
    Decidable (Completes http mapping request) :=
  decidable_of_iff ((built http mapping request).any http.closeClient = true) (by
    unfold Completes
    cases built http mapping request <;> simp)

/-- The messages that are guarded by `if ready`. -/
def Guarded : VmMessage → Prop
  | .sendTask | .noMoreTasks | .executor _ | .cannotGetExecutor | .terminated _
  | .restApiRequest _ | .stillAlive => True
  | _ => False

/-- The paths through `receive`, by what they leave: the slot, the
effects that are not `Silent`, and whether they raise. -/
inductive Path (v : VMProxyActor) (o : Outside) : VmMessage → Slot → List VmEffect → Bool → Prop
  | init {es : List VmEffect} (hes : ∀ e ∈ es, Silent e) :
      Path v o .init { v.slot with ready := false, free := true } es false
  | set {m : VmMessage} (hm : ¬ Guarded m) (hi : m ≠ .init) : Path v o m v.slot [] false
  /-- The last of the three parts a machine needs has come. -/
  | getsReady {m : VmMessage} (hm : ¬ Guarded m) (hi : m ≠ .init) (hc : v.slot.config = true) :
      Path v o m { v.slot with ready := true } [] false
  | configured {config : VagrantEnvironmentConfig} {ready : Bool} {es : List VmEffect}
      (hr : v.ready = true → ready = true) (hes : ∀ e ∈ es, Silent e) :
      Path v o (.setVagrantEnvironmentConfig config)
        { v.slot with config := true, ready := ready } es false
  | raises {m : VmMessage} {s : Slot} {es : List VmEffect}
      (hes : ∀ e ∈ es, Silent e ∨ ∃ a, e = .reply a) (hm : m ≠ .sendTask) :
      Path v o m s es true
  | retry : Path v o .notReadyJet v.slot [.scheduleRetry] false
  | notReady {m : VmMessage} (hm : Guarded m) (hr : v.ready = false) :
      Path v o m v.slot [.reply .notReadyJet] false
  | accept {es : List VmEffect} (hr : v.ready = true) (hs : v.haveSpaceForTasks = true)
      (hes : ∀ e ∈ es, Silent e) :
      Path v o .sendTask { v.slot with free := false } (es ++ [.reply .acquireExecutor]) false
  | reject {es : List VmEffect} (hr : v.ready = true) (hs : v.haveSpaceForTasks = false)
      (hes : ∀ e ∈ es, Silent e) :
      Path v o .sendTask v.slot (es ++ [.reply (.failure "no more tasks!")]) false
  | stop {es : List VmEffect} (hr : v.ready = true) (hes : ∀ e ∈ es, Silent e) :
      Path v o .noMoreTasks v.slot (es ++ [.stopSelf]) false
  | executor {e : ℕ} (hr : v.ready = true) : Path v o (.executor e) v.slot [.watch e] false
  | release {m : VmMessage} {es : List VmEffect} (hr : v.ready = true)
      (hm : m = .cannotGetExecutor ∨ (∃ e, m = .terminated e) ∨
        ∃ request, m = .restApiRequest request ∧ Completes o.http v.portMapping request)
      (hes : ∀ e ∈ es, Silent e ∨ ∃ a, e = .reply a) :
      Path v o m { v.slot with free := true } es false
  | stillAlive {a : Answer} (hr : v.ready = true) : Path v o .stillAlive v.slot [.reply a] false

variable {v : VMProxyActor} {o : Outside} {fresh : ℕ}

theorem cancelGetTask_apply (v : VMProxyActor) :
    ∃ es, (∀ e ∈ es, Silent e) ∧
      cancelGetTask v = ⟨{ v with scheduleGetTask := none }, es, .ok ()⟩ := by
  cases h : v.scheduleGetTask with
  | none => exact ⟨[], by simp, by simp [cancelGetTask, h]⟩
  | some timer => exact ⟨[.cancel timer], by simp [Silent], by simp [cancelGetTask, h]⟩

theorem checkReady_slot (v : VMProxyActor) :
    ∃ f, checkReady v = ⟨f, [], .ok ()⟩ ∧ f.scheduleGetTask = v.scheduleGetTask ∧
      (f.slot = v.slot ∨ v.slot.config = true ∧ f.slot = { v.slot with ready := true }) := by
  by_cases h : (v.vmActor.isSome && v.instanceActor.isSome &&
      v.vagrantEnvironmentConfig.isSome) = true
  · have hc := (Bool.and_eq_true_iff.mp h).2
    exact ⟨{ v with ready := true }, by simp only [checkReady, assign_apply, if_pos h], rfl,
      .inr ⟨hc, rfl⟩⟩
  · exact ⟨v, by simp only [checkReady, assign_apply, if_neg h], rfl, .inl rfl⟩

theorem mapPorts_apply (name : String) : ∀ (l : List VagrantNetworkConfig) (v : VMProxyActor),
    ∃ p r, mapPorts name l v = ⟨{ v with portMapping := p }, [], r⟩
  | [], v => ⟨v.portMapping, _, rfl⟩
  | .portForwarding _ _ _ none :: _, v => ⟨v.portMapping, _, rfl⟩
  | .portForwarding service guestPort hostIp (some port) :: rest, v => by
      by_cases h : guestPort = some 22
      · obtain ⟨p, r, hp⟩ := mapPorts_apply name rest { v with
          portMapping := insertEntry (some (service.getD "null" ++ "_" ++ name)) (hostIp, port)
            v.portMapping }
        exact ⟨p, r, by simp [mapPorts, h, hp]⟩
      · obtain ⟨p, r, hp⟩ := mapPorts_apply name rest { v with
          portMapping := insertEntry service (hostIp, port) v.portMapping }
        exact ⟨p, r, by simp [mapPorts, h, hp]⟩
  | .privateNetwork :: _, v => ⟨v.portMapping, _, rfl⟩
  | .publicNetwork :: _, v => ⟨v.portMapping, _, rfl⟩

theorem mapVms_apply : ∀ (l : List VagrantVmConfig) (v : VMProxyActor),
    ∃ p r, mapVms l v = ⟨{ v with portMapping := p }, [], r⟩
  | [], v => ⟨v.portMapping, _, rfl⟩
  | vm :: rest, v => by
      obtain ⟨p, r, hp⟩ := mapPorts_apply vm.name vm.vagrantNetworkConfigs v
      cases r with
      | error x => exact ⟨p, .error x, by simp [mapVms, hp]⟩
      | ok _ =>
        obtain ⟨q, r, hq⟩ := mapVms_apply rest { v with portMapping := p }
        exact ⟨q, r, by simp [mapVms, hp, hq]⟩

theorem handlerFailure_apply (v : VMProxyActor) (fresh : ℕ) :
    ∃ f es r, handlerFailure fresh v = ⟨f, es, r⟩ ∧ f.slot = { v.slot with free := true } ∧
      ∀ e ∈ es, Silent e := by
  cases hs : v.scheduleGetTask with
  | some timer =>
    exact ⟨{ v with haveSpaceForTasks := true }, [], .ok (), by simp [handlerFailure, hs], rfl,
      by simp⟩
  | none =>
    cases hc : v.vagrantEnvironmentConfig with
    | none =>
      refine ⟨{ v with haveSpaceForTasks := true }, [], .error .nullPointer, ?_, rfl, by simp⟩
      simp [handlerFailure, scheduleGetTaskTimer, hs, hc]
    | some config =>
      refine ⟨{ v with haveSpaceForTasks := true, scheduleGetTask := some fresh },
        [.schedule fresh 0 10 v.instanceActor config.version], .ok (), ?_, rfl,
        by simp [Silent]⟩
      simp [handlerFailure, scheduleGetTaskTimer, hs, hc]

theorem path_release (fresh : ℕ) {m : VmMessage} (hr : v.ready = true)
    (hm : m = .cannotGetExecutor ∨ (∃ e, m = .terminated e) ∨
      ∃ request, m = .restApiRequest request ∧ Completes o.http v.portMapping request)
    (pre : List VmEffect) (hpre : ∀ e ∈ pre, Silent e ∨ ∃ a, e = .reply a)
    {out : Outcome VMProxyActor VmEffect Worker.Throwable Unit}
    (hout : out = ⟨(handlerFailure fresh v).fields, pre ++ (handlerFailure fresh v).effects,
      (handlerFailure fresh v).result⟩) :
    Path v o m out.fields.slot out.effects out.raised.isSome := by
  obtain ⟨f, es, r, h, hf, hes⟩ := handlerFailure_apply v fresh
  have hall : ∀ e ∈ pre ++ es, Silent e ∨ ∃ a, e = .reply a := by
    intro e he
    rcases List.mem_append.mp he with he | he
    · exact hpre e he
    · exact .inl (hes e he)
  subst hout
  rw [h]
  cases r with
  | ok _ =>
    show Path v o m f.slot (pre ++ es) false
    rw [hf]
    exact .release hr hm hall
  | error x =>
    refine .raises hall ?_
    rcases hm with rfl | ⟨e, rfl⟩ | ⟨request, rfl, -⟩ <;> simp

theorem path_config (v : VMProxyActor) (o : Outside) (fresh : ℕ)
    (config : VagrantEnvironmentConfig) :
    Path v o (.setVagrantEnvironmentConfig config)
      (handlerSetVagrantEnvironmentConfig fresh config v).fields.slot
      (handlerSetVagrantEnvironmentConfig fresh config v).effects
      (handlerSetVagrantEnvironmentConfig fresh config v).raised.isSome := by
  obtain ⟨p, r, hp⟩ := mapVms_apply config.vmConfigs
    { v with vagrantEnvironmentConfig := some config, portMapping := [] }
  have hmap : getPortMapping { v with vagrantEnvironmentConfig := some config } =
      ⟨{ v with vagrantEnvironmentConfig := some config, portMapping := p }, [], r⟩ := by
    simp [getPortMapping, hp]
  cases r with
  | error x =>
    have h : handlerSetVagrantEnvironmentConfig fresh config v =
        ⟨{ v with vagrantEnvironmentConfig := some config, portMapping := p }, [], .error x⟩ := by
      simp [handlerSetVagrantEnvironmentConfig, hmap]
    rw [h]
    exact .raises (by simp) (by simp)
  | ok _ =>
    obtain ⟨f, hf, hsched, hslot⟩ := checkReady_slot
      { v with vagrantEnvironmentConfig := some config, portMapping := p }
    have hready : ∃ ready, (v.ready = true → ready = true) ∧
        f.slot = { v.slot with config := true, ready := ready } := by
      rcases hslot with h | ⟨-, h⟩
      · exact ⟨v.ready, id, h⟩
      · exact ⟨true, fun _ => rfl, h⟩
    obtain ⟨ready, hr, hslot⟩ := hready
    cases ht : v.scheduleGetTask with
    | some timer =>
      have hst : f.scheduleGetTask = some timer := hsched.trans ht
      have h : handlerSetVagrantEnvironmentConfig fresh config v = ⟨f, [], .ok ()⟩ := by
        simp [handlerSetVagrantEnvironmentConfig, hmap, hf, hst]
      rw [h]
      show Path v o _ f.slot [] false
      rw [hslot]
      exact .configured hr (by simp)
    | none =>
      cases hc : f.vagrantEnvironmentConfig with
      | none =>
        have hnone : f.slot.config = false := by simp [slot, hc]
        rw [hslot] at hnone
        simp at hnone
      | some c =>
        have h : handlerSetVagrantEnvironmentConfig fresh config v =
            ⟨{ f with scheduleGetTask := some fresh },
              [.schedule fresh 5 10 f.instanceActor c.version], .ok ()⟩ := by
          have hst : f.scheduleGetTask = none := hsched.trans ht
          simp [handlerSetVagrantEnvironmentConfig, hmap, hf, hst, hc, scheduleGetTaskTimer]
        rw [h]
        show Path v o _ f.slot _ false
        rw [hslot]
        exact .configured hr (by simp [Silent])

@[simp] theorem redirected_method (mapping : PortMapping) (url : Url)
    (request : RestApiRequest) : (redirected mapping url request).method = request.method := by
  unfold redirected
  split <;> rfl

/-- What the `try` of `sendRequest` answers. -/
def requestAnswers (http : Http) (request : HttpRequest) : List Answer :=
  match http.execute request with
  | .ok body => .restApiResponse body :: ((http.closeResponse request).map Answer.exception).toList
  | .error text => [.exception text]

theorem answerRequest_apply (http : Http) (request : HttpRequest) (v : VMProxyActor) :
    answerRequest http request v =
      ⟨v, (requestAnswers http request).map VmEffect.reply, .ok ()⟩ := by
  unfold answerRequest requestAnswers
  cases http.execute request with
  | ok body => cases http.closeResponse request <;> simp
  | error text => rfl

/-- The four ways a request goes. -/
theorem handlerRestApiRequest_apply (fresh : ℕ) (http : Http) (request : RestApiRequest)
    (v : VMProxyActor) :
    (∃ x, built http v.portMapping request = none ∧
      handlerRestApiRequest fresh http request v = ⟨v, [], .error x⟩) ∨
    ∃ r, built http v.portMapping request = some r ∧
      handlerRestApiRequest fresh http request v = sendRequest fresh http r v := by
  unfold built
  cases hurl : http.parse request.url with
  | none => exact .inl ⟨_, rfl, by simp only [handlerRestApiRequest, hurl]; rfl⟩
  | some url =>
    cases hcon : constructorOf http request.method with
    | none =>
      refine .inl ⟨.matchError, rfl, ?_⟩
      simp [handlerRestApiRequest, hurl, hcon]
    | some new =>
      cases hnew : new (redirected v.portMapping url request) with
      | error x =>
        refine .inl ⟨x, by simp [hnew, Except.toOption], ?_⟩
        simp [handlerRestApiRequest, hurl, hcon, hnew]
      | ok r =>
        refine .inr ⟨r, by simp [hnew, Except.toOption], ?_⟩
        simp [handlerRestApiRequest, hurl, hcon, hnew]

theorem path_request (hr : v.ready = true) (request : RestApiRequest) :
    Path v o (.restApiRequest request) (handlerRestApiRequest fresh o.http request v).fields.slot
      (handlerRestApiRequest fresh o.http request v).effects
      (handlerRestApiRequest fresh o.http request v).raised.isSome := by
  rcases handlerRestApiRequest_apply fresh o.http request v with ⟨x, -, h⟩ | ⟨r, hb, h⟩
  · rw [h]
    exact .raises (by simp) (by simp)
  · have hreplies : ∀ e ∈ (requestAnswers o.http r).map VmEffect.reply,
        Silent e ∨ ∃ a, e = .reply a := by
      intro e he
      obtain ⟨a, -, rfl⟩ := List.mem_map.mp he
      exact .inr ⟨a, rfl⟩
    rw [h]
    cases hclose : o.http.closeClient r with
    | true =>
      refine path_release fresh hr (.inr (.inr ⟨request, rfl, r, hb, hclose⟩)) _ hreplies ?_
      simp only [sendRequest, bind_apply, answerRequest_apply, Outcome.andThen_ok, hclose, if_true]
      rfl
    | false =>
      have hraise : sendRequest fresh o.http r v =
          ⟨v, (requestAnswers o.http r).map VmEffect.reply, .error (.other "IOException")⟩ := by
        simp [sendRequest, answerRequest_apply, hclose]
      rw [hraise]
      exact .raises hreplies (by simp)

theorem checkSsh_null {order : KeyOrder} {probe : String × Int → ProbeResult}
    (h : (v.portMapping.any fun e => e.1.isNone) = true) :
    checkSsh order probe v = ⟨v, [], .error .nullPointer⟩ := by
  rw [checkSsh, bind_apply, fields_apply, Outcome.andThen_ok, if_pos h]
  rfl

theorem checkSsh_named {order : KeyOrder} {probe : String × Int → ProbeResult}
    (h : (v.portMapping.any fun e => e.1.isNone) = false) :
    checkSsh order probe v = ⟨v, [.reply (.stillAlive
      ((sshEntries order v.portMapping).all fun e => probe e ≠ .refused))], .ok ()⟩ := by
  have hno : ¬ (v.portMapping.any fun e => e.1.isNone) = true := by
    rw [h]
    exact Bool.false_ne_true
  rw [checkSsh, bind_apply, fields_apply, Outcome.andThen_ok, if_neg hno]
  rfl

/-- **Every message takes one of the paths.** -/
theorem receive_path (v : VMProxyActor) (fresh : ℕ) (o : Outside) (m : VmMessage) :
    Path v o m (receive fresh o m v).fields.slot (receive fresh o m v).effects
      (receive fresh o m v).raised.isSome := by
  have hset : ∀ {m : VmMessage} {f : VMProxyActor}, ¬ Guarded m → m ≠ .init → f.slot = v.slot →
      ∀ {out : Outcome VMProxyActor VmEffect Worker.Throwable Unit}, out = checkReady f →
        Path v o m out.fields.slot out.effects out.raised.isSome := by
    intro m f hm hi hf out hout
    obtain ⟨g, hg, -, hslot⟩ := checkReady_slot f
    rw [hout, hg]
    show Path v o m g.slot [] false
    rcases hslot with h | ⟨hc, h⟩
    · rw [h, hf]
      exact .set hm hi
    · rw [h, hf]
      exact .getsReady hm hi (hf ▸ hc)
  have hnot : ∀ {m : VmMessage}, Guarded m → v.ready = false →
      ∀ {out : Outcome VMProxyActor VmEffect Worker.Throwable Unit}, out = handlerNotReady v →
        Path v o m out.fields.slot out.effects out.raised.isSome := by
    intro m hm hr out hout
    subst hout
    exact .notReady hm hr
  obtain ⟨es, hes, hcancel⟩ := cancelGetTask_apply v
  cases m with
  | init => exact .init (by simp [receive, handlerInit, Silent])
  | setVmActor actor =>
    exact hset (f := { v with vmActor := actor }) (by simp [Guarded]) (by simp) rfl
      (by simp [receive, handlerSetVmActor])
  | setInstanceActor actor =>
    exact hset (f := { v with instanceActor := actor }) (by simp [Guarded]) (by simp) rfl
      (by simp [receive, handlerSetInstanceActor])
  | notReadyJet => exact .retry
  | setVagrantEnvironmentConfig config => exact path_config v o fresh config
  | sendTask =>
    cases hr : v.ready with
    | false => exact hnot (m := .sendTask) trivial hr (by simp [receive, hr])
    | true =>
      cases hs : v.haveSpaceForTasks with
      | true =>
        have h : receive fresh o .sendTask v =
            ⟨{ v with scheduleGetTask := none, haveSpaceForTasks := false },
              es ++ [.reply .acquireExecutor], .ok ()⟩ := by
          simp [receive, hr, handlerSendTask, hcancel, hs]
        rw [h]
        exact .accept hr hs hes
      | false =>
        have h : receive fresh o .sendTask v =
            ⟨{ v with scheduleGetTask := none },
              es ++ [.reply (.failure "no more tasks!")], .ok ()⟩ := by
          simp [receive, hr, handlerSendTask, hcancel, hs]
        rw [h]
        exact .reject hr hs hes
  | noMoreTasks =>
    cases hr : v.ready with
    | false => exact hnot (m := .noMoreTasks) trivial hr (by simp [receive, hr])
    | true =>
      cases ha : v.vmActor with
      | none =>
        have h : receive fresh o .noMoreTasks v =
            ⟨{ v with scheduleGetTask := none }, es, .error .nullPointer⟩ := by
          simp [receive, hr, handlerNoMoreTasks, hcancel, ha]
        rw [h]
        exact .raises (fun e he => .inl (hes e he)) (by simp)
      | some actor =>
        have h : receive fresh o .noMoreTasks v =
            ⟨{ v with scheduleGetTask := none },
              (es ++ [.tellVmActor actor, .removeVmActor]) ++ [.stopSelf], .ok ()⟩ := by
          simp [receive, hr, handlerNoMoreTasks, hcancel, ha]
        rw [h]
        refine .stop hr ?_
        intro e he
        rcases List.mem_append.mp he with he | he
        · exact hes e he
        · simp only [List.mem_cons, List.not_mem_nil, or_false] at he
          rcases he with rfl | rfl <;> trivial
  | executor e =>
    cases hr : v.ready with
    | false => exact hnot (m := .executor e) trivial hr (by simp [receive, hr])
    | true =>
      have h : receive fresh o (.executor e) v = ⟨v, [.watch e], .ok ()⟩ := by
        simp [receive, hr, handlerExecutor]
      rw [h]
      exact .executor hr
  | cannotGetExecutor =>
    cases hr : v.ready with
    | false => exact hnot (m := .cannotGetExecutor) trivial hr (by simp [receive, hr])
    | true =>
      refine path_release fresh hr (.inl rfl) [] (by simp) ?_
      simp [receive, hr, handlerCannotGetExecutor]
  | terminated e =>
    cases hr : v.ready with
    | false => exact hnot (m := .terminated e) trivial hr (by simp [receive, hr])
    | true =>
      refine path_release fresh hr (.inr (.inl ⟨e, rfl⟩)) [] (by simp) ?_
      simp [receive, hr, handlerTerminated]
  | restApiRequest request =>
    cases hr : v.ready with
    | false => exact hnot (m := .restApiRequest request) trivial hr (by simp [receive, hr])
    | true =>
      have h : receive fresh o (.restApiRequest request) v =
          handlerRestApiRequest fresh o.http request v := by
        simp [receive, hr]
      rw [h]
      exact path_request hr request
  | stillAlive =>
    cases hr : v.ready with
    | false => exact hnot (m := .stillAlive) trivial hr (by simp [receive, hr])
    | true =>
      have hrun : receive fresh o .stillAlive v = checkSsh o.order o.probe v := by
        simp [receive, hr]
      rw [hrun]
      cases hnull : v.portMapping.any fun e => e.1.isNone with
      | true =>
        rw [checkSsh_null hnull]
        exact .raises (by simp) (by simp)
      | false =>
        rw [checkSsh_named hnull]
        exact .stillAlive hr

end VMProxyActor

end Clustering.Vm
