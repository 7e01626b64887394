/-
Clustering.Vm.Requests — what a request leaves of a machine's actor.

`receive` has no handler of its own: an exception that leaves
`handlerRestApiRequest` restarts the actor, without an answer and without
the configuration, which is sent only once. Only `client.execute` and
what follows it in `sendRequest` is caught. `Accepted` is when nothing
else raises, and `survives_iff` is that a ready actor then, and only
then, gives one answer and stays as it is.
-/
import Clustering.Vm.StillAlive

namespace Clustering.Vm

open Actors Actors.Handler

/-- A response, or the exception of an execution. -/
def Answer.OfRequest : Answer → Prop
  | .restApiResponse _ | .exception _ => True
  | _ => False

namespace VMProxyActor

/-- What the sender of a message is answered. -/
def replies (es : List VmEffect) : List Answer :=
  es.filterMap fun
    | .reply a => some a
    | _ => none

theorem replies_append (es es' : List VmEffect) : replies (es ++ es') = replies es ++ replies es' :=
  List.filterMap_append

theorem replies_map (as : List Answer) : replies (as.map VmEffect.reply) = as := by
  simp [replies, List.filterMap_map]

/-- The request is answered once, and the actor is as ready as before. -/
structure Survives (v : VMProxyActor) (r : Receipt) : Prop where
  answer : ∃ a, replies (receive r.fresh r.outside r.msg v).effects = [a] ∧ a.OfRequest
  ready : (v.step r).ready = true
  config : (v.step r).vagrantEnvironmentConfig = v.vagrantEnvironmentConfig
  portMapping : (v.step r).portMapping = v.portMapping
  vmActor : (v.step r).vmActor = v.vmActor
  instanceActor : (v.step r).instanceActor = v.instanceActor

/-- Nothing refuses a part of the request, and closing raises nothing. -/
structure Accepted (http : Http) (mapping : PortMapping)
    (request : RestApiRequest) : Prop where
  /-- The URL has a known protocol, and as it is sent it is a URI. -/
  url : ∃ url, http.parse request.url = some url ∧
    http.createUri (redirected mapping url request).url ≠ none
  method : request.method ∈ ["GET", "POST", "PUT", "DELETE"]
  headers : ∃ headers, request.headers = some headers ∧
    ∀ header ∈ headers, http.takesHeader header.1 header.2 = true
  params : ∃ params, request.params = some params ∧
    ∀ param ∈ params, http.takesParam param.1 param.2 = true
  closes : ∀ r, built http mapping request = some r → http.closeClient r = true ∧
    ∀ body, http.execute r = .ok body → http.closeResponse r = none

/-! ## The request that is built -/

@[simp] theorem redirected_headers (mapping : PortMapping) (url : Url)
    (request : RestApiRequest) : (redirected mapping url request).headers = request.headers := by
  unfold redirected
  split <;> rfl

@[simp] theorem redirected_params (mapping : PortMapping) (url : Url)
    (request : RestApiRequest) : (redirected mapping url request).params = request.params := by
  unfold redirected
  split <;> rfl

/-- No header and no parameter is refused, and neither map is null. -/
def Parts (http : Http) (request : RestApiRequest) : Prop :=
  (∃ headers, request.headers = some headers ∧
    ∀ header ∈ headers, http.takesHeader header.1 header.2 = true) ∧
  ∃ params, request.params = some params ∧
    ∀ param ∈ params, http.takesParam param.1 param.2 = true

theorem parts_redirected {http : Http} {mapping : PortMapping} {url : Url}
    {request : RestApiRequest} :
    Parts http (redirected mapping url request) ↔ Parts http request := by
  simp [Parts]

theorem new_isSome {http : Http} {method : String} {request : RestApiRequest} :
    (HttpRequest.new http method request).toOption.isSome ↔
      http.createUri request.url ≠ none ∧ Parts http request := by
  unfold HttpRequest.new Parts
  cases http.createUri request.url with
  | none => simp [Except.toOption]
  | some uri =>
    cases request.headers with
    | none => simp [Except.toOption]
    | some headers =>
      by_cases hh : ∀ header ∈ headers, http.takesHeader header.1 header.2 = true
      · have hall := List.all_eq_true.mpr hh
        cases request.params with
        | none => simp [hall, Except.toOption]
        | some params =>
          by_cases hp : ∀ param ∈ params, http.takesParam param.1 param.2 = true
          · have hall' := List.all_eq_true.mpr hp
            simp only [hall, hall', if_true]
            exact iff_of_true rfl ⟨by simp, ⟨headers, rfl, hh⟩, params, rfl, hp⟩
          · have hall' := mt List.all_eq_true.mp hp
            simp only [hall, if_neg hall', if_true]
            refine iff_of_false (by simp [Except.toOption]) ?_
            rintro ⟨-, -, _, heq, hp'⟩
            obtain rfl := Option.some.inj heq
            exact hp hp'
      · have hall := mt List.all_eq_true.mp hh
        simp only [if_neg hall]
        refine iff_of_false (by simp [Except.toOption]) ?_
        rintro ⟨-, ⟨_, heq, hh'⟩, -⟩
        obtain rfl := Option.some.inj heq
        exact hh hh'

/-- There is a constructor for each of the four methods. -/
theorem constructorOf_isSome {http : Http} {method : String} :
    method ∈ ["GET", "POST", "PUT", "DELETE"] ↔
      ∃ name, constructorOf http method = some (HttpRequest.new http name) := by
  constructor
  · intro h
    simp only [List.mem_cons, List.not_mem_nil, or_false] at h
    rcases h with rfl | rfl | rfl | rfl <;> exact ⟨_, rfl⟩
  · rintro ⟨name, h⟩
    unfold constructorOf at h
    split at h
    · simp
    · simp
    · simp
    · simp
    · cases h

theorem built_isSome {http : Http} {mapping : PortMapping}
    {request : RestApiRequest} :
    (∃ r, built http mapping request = some r) ↔
      (∃ url, http.parse request.url = some url ∧
        http.createUri (redirected mapping url request).url ≠ none) ∧
      request.method ∈ ["GET", "POST", "PUT", "DELETE"] ∧ Parts http request := by
  unfold built
  constructor
  · rintro ⟨r, hr⟩
    obtain ⟨url, hurl, hr⟩ := Option.bind_eq_some_iff.mp hr
    obtain ⟨new, hnew, hr⟩ := Option.bind_eq_some_iff.mp hr
    have hmethod : request.method ∈ ["GET", "POST", "PUT", "DELETE"] := by
      unfold constructorOf at hnew
      split at hnew <;> simp_all
    obtain ⟨name, hname⟩ : ∃ name, constructorOf http request.method = some (HttpRequest.new http name) :=
      constructorOf_isSome.mp hmethod
    obtain rfl := Option.some.inj (hname.symm.trans hnew)
    have hparts := new_isSome.mp (Option.isSome_iff_exists.mpr ⟨r, hr⟩)
    exact ⟨⟨url, hurl, hparts.1⟩, hmethod, parts_redirected.mp hparts.2⟩
  · rintro ⟨⟨url, hurl, huri⟩, hmethod, hparts⟩
    obtain ⟨name, hname⟩ : ∃ name, constructorOf http request.method = some (HttpRequest.new http name) :=
      constructorOf_isSome.mp hmethod
    have hsome : (HttpRequest.new http name (redirected mapping url request)).toOption.isSome :=
      new_isSome.mpr ⟨huri, parts_redirected.mpr hparts⟩
    obtain ⟨r, hr⟩ := Option.isSome_iff_exists.mp hsome
    exact ⟨r, by rw [hurl, Option.bind_some, hname, Option.bind_some, hr]⟩

theorem accepted_iff {http : Http} {mapping : PortMapping}
    {request : RestApiRequest} : Accepted http mapping request ↔
      ∃ r, built http mapping request = some r ∧ http.closeClient r = true ∧
        ∀ body, http.execute r = .ok body → http.closeResponse r = none := by
  constructor
  · rintro ⟨hurl, hmethod, hheaders, hparams, hcloses⟩
    obtain ⟨r, hr⟩ := built_isSome.mpr ⟨hurl, hmethod, hheaders, hparams⟩
    exact ⟨r, hr, hcloses r hr⟩
  · rintro ⟨r, hr, hcloses⟩
    obtain ⟨hurl, hmethod, hheaders, hparams⟩ := built_isSome.mp ⟨r, hr⟩
    refine ⟨hurl, hmethod, hheaders, hparams, ?_⟩
    rintro r' hr'
    obtain rfl := Option.some.inj (hr.symm.trans hr')
    exact hcloses

/-! ## The answer -/

theorem requestAnswers_single {http : Http} {r : HttpRequest} :
    (∃ a, requestAnswers http r = [a] ∧ a.OfRequest) ↔
      ∀ body, http.execute r = .ok body → http.closeResponse r = none := by
  unfold requestAnswers
  cases http.execute r with
  | ok body => cases http.closeResponse r <;> simp [Answer.OfRequest]
  | error text => simp [Answer.OfRequest]

/-- Once it is configured the actor can always ask for a new task. -/
theorem handlerSuccess_configured {v : VMProxyActor} {config : VagrantEnvironmentConfig}
    (hc : v.vagrantEnvironmentConfig = some config) (fresh : ℕ) :
    ∃ timer es, handlerSuccess fresh v =
      ⟨{ v with haveSpaceForTasks := true, scheduleGetTask := timer }, es, .ok ()⟩ ∧
        replies es = [] := by
  cases hs : v.scheduleGetTask with
  | some timer =>
    refine ⟨some timer, [], ?_, rfl⟩
    simp [handlerSuccess, hs]
  | none =>
    refine ⟨some fresh, [.schedule fresh 0 10 v.instanceActor config.version], ?_, rfl⟩
    simp [handlerSuccess, scheduleGetTaskTimer, hs, hc]

theorem receive_request {v : VMProxyActor} (hr : v.ready = true) (fresh : ℕ) (o : Outside)
    (request : RestApiRequest) : receive fresh o (.restApiRequest request) v =
      handlerRestApiRequest fresh o.http request v := by
  simp [receive, hr]

/-- **A request leaves a ready actor in service exactly if it is
accepted,** in every state an actor reaches. -/
theorem survives_iff {rs : List Receipt} {v : VMProxyActor}
    (h : system.Run EventSystem.anyStep rs v) (hr : v.ready = true) (fresh : ℕ) (o : Outside)
    (request : RestApiRequest) :
    v.Survives ⟨fresh, o, .restApiRequest request⟩ ↔
      Accepted o.http v.portMapping request := by
  obtain ⟨config, hc⟩ := Option.isSome_iff_exists.mp ((mapped_run h).ready hr)
  have hreceive := receive_request hr fresh o request
  -- a new instance is not ready
  have hrestart : ∀ x, (handlerRestApiRequest fresh o.http request v).raised = some x →
      ¬ v.Survives ⟨fresh, o, .restApiRequest request⟩ := by
    intro x hx hs
    have hready := hs.ready
    rw [step_raised (x := x) (by rw [hreceive, hx])] at hready
    cases hready
  rw [accepted_iff]
  rcases handlerRestApiRequest_apply fresh o.http request v with ⟨x, hb, hrun⟩ | ⟨r, hb, hrun⟩
  · simp only [hb, reduceCtorEq, false_and, exists_false, iff_false]
    exact hrestart x (by rw [hrun]; rfl)
  cases hclose : o.http.closeClient r with
  | false =>
    have hraise : sendRequest fresh o.http r v =
        ⟨v, (requestAnswers o.http r).map VmEffect.reply, .error (.other "IOException")⟩ := by
      simp [sendRequest, answerRequest_apply, hclose]
    simp only [hb, Option.some.injEq, exists_eq_left', hclose, reduceCtorEq, false_and, iff_false]
    exact hrestart _ (by rw [hrun, hraise]; rfl)
  | true =>
    obtain ⟨timer, es, hsuccess, hes⟩ := handlerSuccess_configured hc fresh
    have hout : receive fresh o (.restApiRequest request) v =
        ⟨{ v with haveSpaceForTasks := true, scheduleGetTask := timer },
          (requestAnswers o.http r).map VmEffect.reply ++ es, .ok ()⟩ := by
      rw [hreceive, hrun]
      simp [sendRequest, answerRequest_apply, hclose, hsuccess]
    have hstep : v.step ⟨fresh, o, .restApiRequest request⟩ =
        { v with haveSpaceForTasks := true, scheduleGetTask := timer } := by
      rw [step_ok (by rw [hout]; rfl)]
      exact congrArg Outcome.fields hout
    have hreplies : replies (receive fresh o (.restApiRequest request) v).effects =
        requestAnswers o.http r := by
      rw [hout, replies_append, replies_map, hes, List.append_nil]
    simp only [hb, Option.some.injEq, exists_eq_left', hclose, true_and]
    rw [← requestAnswers_single]
    constructor
    · intro hs
      rw [← hreplies]
      exact hs.answer
    · intro ha
      exact ⟨by rw [hreplies]; exact ha, by rw [hstep]; exact hr, by rw [hstep], by rw [hstep],
        by rw [hstep], by rw [hstep]⟩

/-! ## A request without a protocol -/

/-- URLs without a colon have no protocol; every URI is accepted and
answered, and no name may be null. -/
def web : Outside where
  http := {
    parse := fun s => if ':' ∈ s.toList then some ⟨"http", some "", none, none⟩ else none
    createUri := some
    takesHeader := fun name _ => name.isSome
    takesParam := fun name _ => name.isSome
    addParameter := fun uri name value =>
      some (uri ++ "?" ++ name.getD "" ++ (value.elim "" fun v => "=" ++ v))
    execute := fun _ => .ok ""
    closeResponse := fun _ => none
    closeClient := fun _ => true }
  order := .alphabetical
  probe := fun _ => .connected

theorem survives_iff_started :
    started.Survives ⟨1, web, .restApiRequest ⟨"GET", "http://vm", some [(some "Accept", none)],
      some [(some "page", some "1")], none⟩⟩ :=
  (survives_iff run_startUp rfl 1 web ⟨"GET", "http://vm", some [(some "Accept", none)],
    some [(some "page", some "1")], none⟩).mpr
    ⟨⟨_, rfl, by simp [web]⟩, by simp, ⟨_, rfl, by simp [web]⟩, ⟨_, rfl, by simp [web]⟩,
      fun _ _ => ⟨rfl, fun _ _ => rfl⟩⟩

/-- A request for `status` restarts the actor of the machine. -/
theorem bad_request_loses_machine :
    ¬ ∀ (rs : List Receipt) (v : VMProxyActor), system.Run EventSystem.anyStep rs v →
      v.ready = true → ∀ (fresh : ℕ) (o : Outside) (request : RestApiRequest),
        v.Survives ⟨fresh, o, .restApiRequest request⟩ := by
  intro h
  have hs := h startUp started run_startUp rfl 1 web ⟨"GET", "status", some [], some [], none⟩
  exact absurd hs.ready (by decide)

end VMProxyActor

end Clustering.Vm
