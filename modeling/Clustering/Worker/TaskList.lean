/-
Clustering.Worker.TaskList — the list `taskActors` of a node over whole
runs.

A `TaskActor` ends on one of two ways: it throws a result, which the
decider of the node records and answers with `Stop`, or it handles
`PersistAndSuicide`. The decider and the handler of `PersistAndSuicide`
take it out of `taskActors`; `Terminated` does not. What is missing is
the other `TaskActor`s of a node one of whose tasks has failed:
`handleFailure` sends `PersistAndSuicide` to all children and takes only
the failed one out.

Messages are handled in any order. The end of a child takes it out of
the children and puts its `Terminated` into the mailbox. The run of an
instance ends with an exception or with `context.stop(self)`.
-/
import Clustering.Actors.Runs
import Clustering.Worker.SubWorkerActor

namespace Clustering.Worker

open Actors Actors.EventSystem

/-! ## State and events -/

structure Node where
  self : Self SubWorkerActor
  /-- The instance has neither raised nor stopped itself. -/
  alive : Bool
  /-- The children with a `PersistAndSuicide` in their mailbox. -/
  told : List ℕ
  /-- The children that have ended. -/
  stopped : List ℕ
  /-- The actors whose `Terminated` is in the mailbox. -/
  notices : List ℕ
  next : ℕ
  /-- The `TaskActor`s created. -/
  tasks : List ℕ
  /-- Those the node has let go: it has judged their result, or they were
  there when it handled `PersistAndSuicide`. -/
  released : List ℕ
  /-- The `TaskActor`s whose `Terminated` was handled. -/
  handled : List ℕ

inductive NodeEvent where
  | receive (m : WorkerMessage)
  /-- A `TaskActor` throws its result, and the node judges it. -/
  | result (c : ℕ) (t : Throwable)
  /-- A `TaskActor` handles `PersistAndSuicide`. -/
  | suicide (c : ℕ)
  /-- A node below stops itself. -/
  | done (c : ℕ)
  /-- The end of a child is processed: it is a child no more. -/
  | buried (c : ℕ)
  /-- Its `Terminated` is handled. -/
  | terminated (c : ℕ)
  deriving DecidableEq, Repr

/-- The `TaskActor` an effect creates. -/
def createdTask : WorkerEffect → Option ℕ
  | .actorOf ref _ (.taskActor _ _) => some ref
  | _ => none

def toldRef : WorkerEffect → Option ℕ
  | .tell ref (.persistAndSuicide _) => some ref
  | _ => none

/-- The messages of others. -/
def IsRequest : WorkerMessage → Prop
  | .addTask _ | .getTask _ | .persistAndSuicide _ => True
  | _ => False

instance : DecidablePred IsRequest := fun m => by
  induction m using WorkerMessage.casesOn <;> delta IsRequest <;> dsimp only <;> infer_instance

namespace Node

variable (legal : String → Bool) (s : Node)

/-- A piece of code has run. -/
def acted {α : Type} (out : Outcome (Self SubWorkerActor) WorkerEffect Throwable α) : Node :=
  { s with
    self := out.fields
    alive := out.raised.isNone && decide (.stopSelf ∉ out.effects)
    told := out.effects.filterMap toldRef ++ s.told
    next := s.next + 1
    tasks := out.effects.filterMap createdTask ++ s.tasks }

/-- A running `TaskActor` of the node. -/
def IsTask (c : ℕ) : Prop := c ∈ s.tasks ∧ c ∈ s.self.children.map (·.ref) ∧ c ∉ s.stopped

instance (c : ℕ) : Decidable (s.IsTask c) := by
  unfold IsTask
  infer_instance

/-- What a message lets go. -/
def letsGo : WorkerMessage → List ℕ
  | .persistAndSuicide _ => s.tasks
  | _ => []

/-- The step function: `none` is "not enabled". -/
def step (s : Node) : NodeEvent → Option Node
  | .receive m =>
      if s.alive = true ∧ IsRequest m then
        some ({ s with released := s.letsGo m ++ s.released }.acted
          (SubWorkerActor.receive legal s.next m s.self))
      else none
  | .result c t =>
      if s.alive = true ∧ s.IsTask c ∧ t.IsResult then
        let out := SubWorkerActor.supervisorStrategy c t s.self
        some ({ s with
          released := if out.raised.isNone then c :: s.released else s.released
          stopped := c :: s.stopped }.acted out)
      else none
  | .suicide c =>
      if s.IsTask c ∧ c ∈ s.told then some { s with stopped := c :: s.stopped } else none
  | .done c =>
      if c ∈ s.self.children.map (·.ref) ∧ c ∉ s.tasks then
        some { s with stopped := c :: s.stopped }
      else none
  | .buried c =>
      if c ∈ s.self.children.map (·.ref) ∧ c ∈ s.stopped then
        some { s with
          self := ⟨s.self.fields, s.self.children.filter (·.ref ≠ c)⟩
          notices := s.notices ++ [c] }
      else none
  | .terminated c =>
      if s.alive = true ∧ c ∈ s.notices then
        some ({ s with
          notices := s.notices.erase c
          handled := if c ∈ s.tasks then c :: s.handled else s.handled }.acted
          (SubWorkerActor.receive legal s.next (.terminated c) s.self))
      else none

def init (group : List String) (tablename : String) : Node :=
  ⟨⟨.new group tablename, []⟩, true, [], [], [], 0, [], [], []⟩

end Node

/-- One node of the dependency tree. -/
def node (legal : String → Bool) (group : List String) (tablename : String) :
    EventSystem Node NodeEvent := ⟨Node.init group tablename, Node.step legal⟩

/-! ## The list -/

namespace Node

/-- No `TaskActor` whose `Terminated` was handled is in the list; and when
none is left the next `GetTask` goes to the children. -/
structure Accurate (s : Node) : Prop where
  gone : ∀ c ∈ s.handled, c ∉ s.self.fields.taskActors
  forwards : (∀ c ∈ s.tasks, c ∈ s.handled) → s.self.fields.taskActors = [] ∧
    ∀ (legal : String → Bool) (fresh : ℕ) (msg : GetTask),
      (SubWorkerActor.receive legal fresh (.getTask msg) s.self).effects =
        s.self.children.map (fun x => .forward x.ref (.getTask msg)) ++
          SubWorkerActor.suicide s.self.children

/-- When its `Terminated` is handled, the node has let the `TaskActor` go. -/
def LetGo (s : Node) : NodeEvent → Prop
  | .terminated c => c ∈ s.tasks → c ∈ s.released
  | _ => True

instance (s : Node) : DecidablePred s.LetGo := fun e => by
  unfold LetGo
  split <;> infer_instance

/-- `taskActors` holds the `TaskActor`s that were not let go. -/
structure Listed (s : Node) : Prop where
  listed : ∀ c, c ∈ s.self.fields.taskActors ↔ c ∈ s.tasks ∧ c ∉ s.released
  fresh : ∀ c ∈ s.tasks, c < s.next
  known : ∀ c ∈ s.released, c ∈ s.tasks
  ended : ∀ c ∈ s.handled, c ∈ s.tasks

variable {legal : String → Bool} {s : Node}

theorem listed_init (group : List String) (tablename : String) : Listed (init group tablename) := by
  constructor <;> simp [init, SubWorkerActor.new]

/-- Code that leaves the list alone and creates no `TaskActor`. -/
theorem Listed.same (h : s.Listed) {α : Type}
    {out : Outcome (Self SubWorkerActor) WorkerEffect Throwable α}
    (htasks : out.fields.fields.taskActors = s.self.fields.taskActors)
    (hcreated : out.effects.filterMap createdTask = []) : (s.acted out).Listed := by
  have hs : (s.acted out).tasks = s.tasks := by
    rw [Node.acted, hcreated, List.nil_append]
  refine ⟨fun c => ?_, fun c hc => ?_, fun c hc => ?_, fun c hc => ?_⟩
  · have hself : (s.acted out).self = out.fields := rfl
    rw [hself, htasks, hs]
    exact h.listed c
  · rw [hs] at hc
    exact Nat.lt_succ_of_lt (h.fresh c hc)
  · rw [hs]
    exact h.known c hc
  · rw [hs]
    exact h.ended c hc

theorem createdTask_subProps (single : Bool) (group : List String) (tablename : String) (ref : ℕ)
    (name : ActorName) :
    createdTask (.actorOf ref name (SubWorkerActor.subProps single group tablename)) = none := by
  cases single <;> rfl

theorem createdTask_suicide (cs : List Child) :
    (SubWorkerActor.suicide cs).filterMap createdTask = [] := by
  unfold SubWorkerActor.suicide
  split <;> rfl

theorem Listed.addTask (h : s.Listed) (msg : AddTask) :
    (s.acted (SubWorkerActor.receive legal s.next (.addTask msg) s.self)).Listed := by
  by_cases hg : s.self.fields.group.length < msg.group.length
  · -- the task belongs to a node below
    cases hc : childNamed s.self.children
        (.named (mkString "." (SubWorkerActor.nextGroup s.self.fields.group.length msg))) with
    | some c =>
      have hout : SubWorkerActor.receive legal s.next (.addTask msg) s.self = _ :=
        SubWorkerActor.receive_addTask_pass hg hc
      rw [hout]
      exact h.same rfl rfl
    | none =>
      cases hl : legal (mkString "."
          (SubWorkerActor.nextGroup s.self.fields.group.length msg)) with
      | false =>
        have hout : SubWorkerActor.receive legal s.next (.addTask msg) s.self = _ :=
          SubWorkerActor.receive_addTask_illegal hg hc hl
        rw [hout]
        exact h.same rfl rfl
      | true =>
        have hout : SubWorkerActor.receive legal s.next (.addTask msg) s.self = _ :=
          SubWorkerActor.receive_addTask_spawn hg hc hl
        rw [hout]
        refine h.same rfl ?_
        rw [List.filterMap_cons_none (createdTask_subProps _ _ _ _ _)]
        rfl
  · have hle : msg.group.length ≤ s.self.fields.group.length := Nat.not_lt.mp hg
    cases hl : legal (ActorName.task msg.task.method s.next).text with
    | false =>
      have hout : SubWorkerActor.receive legal s.next (.addTask msg) s.self = _ :=
        SubWorkerActor.receive_addTask_taskIllegal hle hl
      rw [hout]
      exact h.same rfl rfl
    | true =>
      cases hc : childNamed s.self.children (.task msg.task.method s.next) with
      | some c =>
        have hout : SubWorkerActor.receive legal s.next (.addTask msg) s.self = _ :=
          SubWorkerActor.receive_addTask_taskUsed hle hc
        rw [hout]
        exact h.same rfl rfl
      | none =>
        have hout : SubWorkerActor.receive legal s.next (.addTask msg) s.self = _ :=
          SubWorkerActor.receive_addTask_task hle hc hl
        have hnew : s.next ∉ s.released := fun hmem =>
          absurd (h.fresh _ (h.known _ hmem)) (Nat.lt_irrefl _)
        rw [hout]
        refine ⟨fun c => ?_, fun c hc => ?_, fun c hc => List.mem_cons_of_mem _ (h.known c hc),
          fun c hc => List.mem_cons_of_mem _ (h.ended c hc)⟩
        · have hgoal : c ∈ s.next :: s.self.fields.taskActors ↔
              c ∈ s.next :: s.tasks ∧ c ∉ s.released := by
            rw [List.mem_cons, List.mem_cons, h.listed]
            by_cases hcn : c = s.next
            · subst hcn
              simp [hnew]
            · simp [hcn]
          exact hgoal
        · rcases List.mem_cons.mp hc with rfl | hc
          · exact Nat.lt_succ_self _
          · exact Nat.lt_succ_of_lt (h.fresh c hc)

/-- The node lets actors go. -/
theorem Listed.release (h : s.Listed) {gone stopped : List ℕ} (hgone : ∀ c ∈ gone, c ∈ s.tasks)
    {α : Type} {out : Outcome (Self SubWorkerActor) WorkerEffect Throwable α}
    (htasks : ∀ c, c ∈ out.fields.fields.taskActors ↔
      c ∈ s.self.fields.taskActors ∧ c ∉ gone)
    (hcreated : out.effects.filterMap createdTask = []) :
    ({ s with released := gone ++ s.released, stopped := stopped }.acted out).Listed := by
  have hs : ({ s with released := gone ++ s.released, stopped := stopped }.acted out).tasks =
      s.tasks := by
    rw [Node.acted, hcreated, List.nil_append]
  refine ⟨fun c => ?_, fun c hc => ?_, fun c hc => ?_, fun c hc => ?_⟩
  · have hgoal : c ∈ out.fields.fields.taskActors ↔ c ∈ s.tasks ∧ c ∉ gone ++ s.released := by
      rw [htasks, h.listed, List.mem_append, not_or]
      tauto
    rw [hs]
    exact hgoal
  · rw [hs] at hc
    exact Nat.lt_succ_of_lt (h.fresh c hc)
  · rw [hs]
    rcases List.mem_append.mp hc with hc | hc
    · exact hgone c hc
    · exact h.known c hc
  · rw [hs]
    exact h.ended c hc

/-- The list after the result of a `TaskActor`: it is let go, unless the
decider raises. -/
theorem Listed.result (h : s.Listed) {c : ℕ} {t : Throwable} (hc : c ∈ s.tasks)
    (ht : t.IsResult) {out : Outcome (Self SubWorkerActor) WorkerEffect Throwable Directive}
    (hrun : SubWorkerActor.supervisorStrategy c t s.self = out) :
    ({ s with
      released := if out.raised.isNone then c :: s.released else s.released
      stopped := c :: s.stopped }.acted out).Listed := by
  have hgone : ∀ d ∈ [c], d ∈ s.tasks := by simpa using hc
  have hforget : ∀ d, d ∈ (s.self.fields.forget c).taskActors ↔
      d ∈ s.self.fields.taskActors ∧ d ∉ [c] := by
    intro d
    simp [SubWorkerActor.forget]
  subst hrun
  cases t with
  | testSuccess task result =>
    have hout : SubWorkerActor.supervisorStrategy c (.testSuccess task result) s.self = _ :=
      SubWorkerActor.supervisorStrategy_success
    rw [hout]
    exact h.release hgone hforget rfl
  | testFail task result =>
    cases result with
    | none =>
      have hout : SubWorkerActor.supervisorStrategy c (.testFail task none) s.self = _ :=
        SubWorkerActor.supervisorStrategy_failure_null
      rw [hout]
      have hstopped : Listed { s with stopped := c :: s.stopped } := ⟨h.listed, h.fresh, h.known, h.ended⟩
      exact hstopped.same rfl rfl
    | some cause =>
      have hout : SubWorkerActor.supervisorStrategy c (.testFail task (some cause)) s.self = _ :=
        SubWorkerActor.supervisorStrategy_failure
      rw [hout]
      refine h.release hgone hforget ?_
      rw [List.filterMap_cons_none rfl, List.filterMap_map, List.filterMap_eq_nil_iff]
      exact fun _ _ => rfl
  | _ => exact ht.elim

theorem Listed.receive (h : s.Listed) {m : WorkerMessage} (hm : IsRequest m) :
    ({ s with released := s.letsGo m ++ s.released }.acted
      (SubWorkerActor.receive legal s.next m s.self)).Listed := by
  cases m with
  | addTask msg => exact h.addTask msg
  | getTask msg =>
    have hout : SubWorkerActor.receive legal s.next (.getTask msg) s.self = _ :=
      SubWorkerActor.receive_getTask msg
    rw [hout]
    refine h.same rfl ?_
    rw [List.filterMap_append, createdTask_suicide, List.filterMap_map, List.append_nil,
      List.filterMap_eq_nil_iff]
    exact fun _ _ => rfl
  | persistAndSuicide reason =>
    have hout : SubWorkerActor.receive legal s.next (.persistAndSuicide reason) s.self = _ :=
      SubWorkerActor.receive_persistAndSuicide reason
    have hall : ∀ c, c ∈ ([] : List ℕ) ↔ c ∈ s.self.fields.taskActors ∧ c ∉ s.tasks := by
      intro c
      rw [h.listed]
      simp
      tauto
    rw [hout]
    refine h.release (fun c hc => hc) hall ?_
    rw [List.filterMap_map, List.filterMap_eq_nil_iff]
    exact fun _ _ => rfl
  | _ => exact hm.elim

/-- **`taskActors` holds in every state the `TaskActor`s that were not let
go.** -/
theorem Listed.step (h : s.Listed) {e : NodeEvent} {s' : Node} (hs : s.step legal e = some s') :
    s'.Listed := by
  cases e with
  | receive m =>
    simp only [Node.step, Option.ite_none_right_eq_some, Option.some.injEq] at hs
    obtain ⟨⟨-, hm⟩, rfl⟩ := hs
    exact h.receive hm
  | result c t =>
    simp only [Node.step, Option.ite_none_right_eq_some, Option.some.injEq] at hs
    obtain ⟨⟨-, hc, ht⟩, rfl⟩ := hs
    exact h.result hc.1 ht rfl
  | suicide c =>
    simp only [Node.step, Option.ite_none_right_eq_some, Option.some.injEq] at hs
    obtain ⟨-, rfl⟩ := hs
    exact ⟨h.listed, h.fresh, h.known, h.ended⟩
  | done c =>
    simp only [Node.step, Option.ite_none_right_eq_some, Option.some.injEq] at hs
    obtain ⟨-, rfl⟩ := hs
    exact ⟨h.listed, h.fresh, h.known, h.ended⟩
  | buried c =>
    simp only [Node.step, Option.ite_none_right_eq_some, Option.some.injEq] at hs
    obtain ⟨-, rfl⟩ := hs
    exact ⟨h.listed, h.fresh, h.known, h.ended⟩
  | terminated c =>
    simp only [Node.step, Option.ite_none_right_eq_some, Option.some.injEq] at hs
    obtain ⟨-, rfl⟩ := hs
    have hout : SubWorkerActor.receive legal s.next (.terminated c) s.self = _ :=
      SubWorkerActor.receive_terminated c
    have hhandled : Listed { s with
        notices := s.notices.erase c
        handled := if c ∈ s.tasks then c :: s.handled else s.handled } := by
      refine ⟨h.listed, h.fresh, h.known, fun d hd => ?_⟩
      dsimp only at hd
      split at hd
      · rename_i hc
        rcases List.mem_cons.mp hd with rfl | hd
        · exact hc
        · exact h.ended d hd
      · exact h.ended d hd
    rw [hout]
    exact hhandled.same rfl (createdTask_suicide _)

/-! ## Every run -/

/-- The `TaskActor`s handled as terminated were let go. -/
def Cleared (s : Node) : Prop := ∀ c ∈ s.handled, c ∈ s.released

theorem accurate_iff_cleared (h : s.Listed) : s.Accurate ↔ s.Cleared := by
  constructor
  · intro ha c hhandled
    by_contra hnot
    exact ha.gone c hhandled ((h.listed c).mpr ⟨h.ended c hhandled, hnot⟩)
  · intro hcleared
    have hgone : ∀ c ∈ s.handled, c ∉ s.self.fields.taskActors := by
      intro c hhandled hlisted
      exact ((h.listed c).mp hlisted).2 (hcleared c hhandled)
    refine ⟨hgone, fun hall => ?_⟩
    have hempty : s.self.fields.taskActors = [] := by
      rw [List.eq_nil_iff_forall_not_mem]
      intro c hc
      exact hgone c (hall c ((h.listed c).mp hc).1) hc
    refine ⟨hempty, fun legal fresh msg => ?_⟩
    have hout : SubWorkerActor.receive legal fresh (.getTask msg) s.self = _ :=
      SubWorkerActor.receive_getTask msg
    rw [hout, SubWorkerActor.targets, if_pos hempty, List.map_map]
    rfl

/-- Only a `Terminated` of a `TaskActor` that was not let go leaves one
behind. -/
theorem cleared_step (hc : s.Cleared) {e : NodeEvent} {s' : Node}
    (hs : s.step legal e = some s') : s'.Cleared ↔ s.LetGo e := by
  cases e with
  | receive m =>
    simp only [Node.step, Option.ite_none_right_eq_some, Option.some.injEq] at hs
    obtain ⟨-, rfl⟩ := hs
    exact iff_of_true (fun c hhandled => List.mem_append_right _ (hc c hhandled)) trivial
  | result c t =>
    simp only [Node.step, Option.ite_none_right_eq_some, Option.some.injEq] at hs
    obtain ⟨-, rfl⟩ := hs
    refine iff_of_true (fun d hhandled => ?_) trivial
    have hold : d ∈ s.released := hc d hhandled
    have hgoal : d ∈ if (SubWorkerActor.supervisorStrategy c t s.self).raised.isNone then
        c :: s.released else s.released := by
      split
      · exact List.mem_cons_of_mem _ hold
      · exact hold
    exact hgoal
  | suicide c =>
    simp only [Node.step, Option.ite_none_right_eq_some, Option.some.injEq] at hs
    obtain ⟨-, rfl⟩ := hs
    exact iff_of_true hc trivial
  | done c =>
    simp only [Node.step, Option.ite_none_right_eq_some, Option.some.injEq] at hs
    obtain ⟨-, rfl⟩ := hs
    exact iff_of_true hc trivial
  | buried c =>
    simp only [Node.step, Option.ite_none_right_eq_some, Option.some.injEq] at hs
    obtain ⟨-, rfl⟩ := hs
    exact iff_of_true hc trivial
  | terminated c =>
    simp only [Node.step, Option.ite_none_right_eq_some, Option.some.injEq] at hs
    obtain ⟨-, rfl⟩ := hs
    have hgoal : (∀ d ∈ (if c ∈ s.tasks then c :: s.handled else s.handled), d ∈ s.released) ↔
        (c ∈ s.tasks → c ∈ s.released) := by
      split
      · rename_i htask
        simp only [List.forall_mem_cons, htask, forall_const]
        exact and_iff_left hc
      · rename_i htask
        exact iff_of_true hc fun h => absurd h htask
    exact hgoal

/-- The step leads to a state with an accurate list. -/
def StaysAccurate (legal : String → Bool) (s : Node) (e : NodeEvent) : Prop :=
  ∀ s', s.step legal e = some s' → s'.Accurate

theorem listed_run {group : List String} {tablename : String}
    {ok : List NodeEvent → Node → NodeEvent → Prop} {es : List NodeEvent}
    (h : (node legal group tablename).Run ok es s) : s.Listed :=
  h.state_invariant (listed_init group tablename) fun _ _ _ _ hs _ hstep => hs.step hstep

theorem cleared_run {group : List String} {tablename : String} {es : List NodeEvent}
    (h : (node legal group tablename).Run (fun _ => LetGo) es s) : s.Cleared :=
  h.state_invariant (by rintro c ⟨⟩) fun _ _ _ _ hs hok hstep => (cleared_step hs hstep).mpr hok

end Node

open Node in
/-- **The list of a node is accurate in every state of a run exactly if
every `TaskActor` whose `Terminated` the node handles was let go before**:
its result was judged, or the node has handled `PersistAndSuicide`. -/
theorem taskActors_accurate_iff {legal : String → Bool} {group : List String}
    {tablename : String} {es : List NodeEvent} {s : Node}
    (h : (node legal group tablename).Run anyStep es s) :
    (node legal group tablename).Run (fun _ => StaysAccurate legal) es s ↔
      (node legal group tablename).Run (fun _ => LetGo) es s := by
  induction h with
  | start => exact iff_of_true .start .start
  | step h _ hs ih =>
    rw [Run.concat_iff h hs, Run.concat_iff h hs, ih]
    refine and_congr_right fun hrun => ?_
    have hlisted := (listed_run h).step hs
    have hcleared := cleared_step (cleared_run hrun) hs
    rw [← hcleared, ← accurate_iff_cleared hlisted]
    constructor
    · exact fun hstays => hstays _ hs
    · intro haccurate s' hs'
      obtain rfl := Option.some.inj (hs.symm.trans hs')
      exact haccurate

/-! ## A failure in the node -/

/-- Two tasks of one node, and one of the node below. -/
def twoTasks : List NodeEvent :=
  let add (method : String) (group : List String) : NodeEvent :=
    .receive (.addTask ⟨"run", group, ⟨"Test", method, false, false⟩, some ⟨"1"⟩⟩)
  [add "a" ["g"], add "b" ["g"], add "c" ["g", "h"]]

def failureOf (c : ℕ) : NodeEvent :=
  .result c (.testFail ⟨"Test", "a", false, false⟩ (some ⟨"failed", none⟩))

def legalNames : String → Bool := fun _ => true

/-- A success takes its `TaskActor` out of the list. -/
theorem taskActors_accurate_iff_success : ∃ s,
    (node legalNames ["g"] "run").Run (fun _ => Node.StaysAccurate legalNames)
      (twoTasks ++ [.result 0 (.testSuccess ⟨"Test", "a", false, false⟩ none), .buried 0,
        .terminated 0]) s ∧ s.self.fields.taskActors = [1] := by
  have hplay : (execWhen (Node.step legalNames) (fun _ => Node.LetGo) []
      (twoTasks ++ [.result 0 (.testSuccess ⟨"Test", "a", false, false⟩ none), .buried 0,
        .terminated 0]) (Node.init ["g"] "run")).any
      (fun s => decide (s.self.fields.taskActors = [1])) = true := by decide +kernel
  have hplayed : ∃ s, (node legalNames ["g"] "run").Run (fun _ => Node.LetGo) _ s ∧
      s.self.fields.taskActors = [1] := exists_run_of_execWhen hplay
  obtain ⟨s, hrun, hlist⟩ := hplayed
  exact ⟨s, (taskActors_accurate_iff (hrun.mono fun _ _ _ _ => trivial)).mpr hrun, hlist⟩

/-- After the failure of one task the other ends by `PersistAndSuicide`,
and stays in the list: the node below is asked for nothing. -/
theorem taskActors_stale : ¬ ∀ es s,
    (node legalNames ["g"] "run").Run anyStep es s → s.Accurate := by
  intro h
  have hplay : (exec (Node.step legalNames) (twoTasks ++ [failureOf 0, .suicide 1, .buried 0,
      .buried 1, .terminated 0, .terminated 1]) (Node.init ["g"] "run")).any
      (fun s => decide (s.handled = [1, 0] ∧ s.self.fields.taskActors = [1] ∧
        s.self.children.map (·.ref) = [2])) = true := by decide +kernel
  have hplayed : ∃ s, (node legalNames ["g"] "run").Run anyStep _ s ∧ s.handled = [1, 0] ∧
      s.self.fields.taskActors = [1] ∧ s.self.children.map (·.ref) = [2] :=
    exists_run_of_exec hplay
  obtain ⟨s, hrun, hhandled, hlist, -⟩ := hplayed
  have haccurate := (h _ s hrun).gone 1 (by simp [hhandled])
  exact haccurate (by simp [hlist])

end Clustering.Worker
