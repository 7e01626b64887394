/-
Clustering.Webui.ClusteringApi — the two requests of a report page
(`ClusteringApi.scala`).

`GET /api/reporting/[table name]` asks the `DBActor` for a report, stores
the path of the answer in the field `dataPath` and sends the page. The
page asks for `GET /files/data.json`, which is the file at `dataPath`.
The field is one for all clients.

The steps are those between which another request can run: the question
(`get`), the answer of the `DBActor` (`generate`), the assignment after
`Await.result` (`store`), a failed `Await.result` (`timeout`) and the
page's own request (`data`). The backend the report is read from is an
argument of `generate`, so nothing is said about what else the
`DBActor` does between two reports.
-/
import Clustering.Actors.Runs
import Clustering.Db.Readers
import Clustering.Db.Reading
import Mathlib.Logic.Function.Basic

namespace Clustering.Webui

open Actors Actors.EventSystem Actors.Handler
open Clustering.Db

/-- A temporary file, with the task set the report in it was generated for. -/
structure ReportFile where
  tableName : String
  text : String

/-- How far a request for a report is. -/
inductive Stage where
  /-- In `Await.result`. -/
  | waiting
  /-- The page was sent. -/
  | opened
  | failed
  deriving DecidableEq, Repr

/-- One `GET /api/reporting/[table name]`. -/
structure ReportRequest where
  tableName : String
  /-- The `DBActor` has handled the message. -/
  handled : Bool
  /-- The path of the `Report` in the future. -/
  reply : Option String
  stage : Stage
  deriving DecidableEq, Repr

/-- The field `dataPath`, the temporary files, and the requests. -/
structure ClusteringApi where
  dataPath : String
  files : String → Option ReportFile
  requests : ℕ → Option ReportRequest
  /-- The data served so far, each with the page that asked for it. -/
  served : List (ℕ × ReportFile)

inductive Event where
  | get (k : ℕ) (tableName : String)
  | generate (k : ℕ) (o : Outside) (b : Backend)
  | store (k : ℕ)
  | timeout (k : ℕ)
  | data (k : ℕ)

namespace ClusteringApi

variable {s s' : ClusteringApi} {k : ℕ}

/-- The files after the effects of generating a report for a task set. -/
def written (tableName : String) :
    List DbEffect → (String → Option ReportFile) → String → Option ReportFile
  | [], files => files
  | .writeFile path text :: es, files =>
      written tableName es (Function.update files path (some ⟨tableName, text⟩))
  | _ :: es, files => written tableName es files

/-- The path in the first answer. -/
def replied (effects : List DbEffect) : Option String :=
  effects.findSome? fun
    | .reply (.report path) => some path
    | _ => none

/-- `File.createTempFile` names a file that was not there. -/
def IsFresh (files : String → Option ReportFile) (tempFile : Option String) : Prop :=
  ∀ path ∈ tempFile, path ≠ "" ∧ (files path).isNone

instance (files : String → Option ReportFile) (tempFile : Option String) :
    Decidable (IsFresh files tempFile) :=
  tempFile.decidableForallMem

/-- `GetFromFile(dataPath)`: nothing, if there is no such file. -/
def getFromFile (s : ClusteringApi) : Option ReportFile := s.files s.dataPath

/-- `dataPath = path`, and the page is sent. -/
def report (s : ClusteringApi) (k : ℕ) (r : ReportRequest) (path : String) : ClusteringApi :=
  { s with
    dataPath := path
    requests := Function.update s.requests k (some { r with stage := .opened }) }

/-- The `DBActor` handles the message of request `k`. -/
def generated (s : ClusteringApi) (k : ℕ) (r : ReportRequest) (effects : List DbEffect) :
    ClusteringApi :=
  { s with
    files := written r.tableName effects s.files
    requests := Function.update s.requests k
      (some { r with handled := true, reply := replied effects }) }

def step (s : ClusteringApi) : Event → Option ClusteringApi
  | .get k tableName =>
      match s.requests k with
      | none => some { s with
          requests := Function.update s.requests k (some ⟨tableName, false, none, .waiting⟩) }
      | some _ => none
  | .generate k o b => do
      let r ← s.requests k
      if r.handled = false ∧ IsFresh s.files o.tempFile then
        some (s.generated k r (DBActor.receive o (.generateJsonReport r.tableName) b).effects)
      else none
  | .store k => do
      let r ← s.requests k
      let path ← r.reply
      if r.stage = .waiting then some (s.report k r path) else none
  | .timeout k => do
      let r ← s.requests k
      if r.stage = .waiting then
        some { s with requests := Function.update s.requests k (some { r with stage := .failed }) }
      else none
  | .data k => do
      let r ← s.requests k
      if r.stage = .opened then
        some { s with served := s.served ++ (s.getFromFile.map fun f => (k, f)).toList }
      else none

end ClusteringApi

open ClusteringApi

/-- `var dataPath = new String`. -/
def api : EventSystem ClusteringApi Event where
  init := ⟨"", fun _ => none, fun _ => none, []⟩
  step := ClusteringApi.step

namespace ClusteringApi

variable {s s' : ClusteringApi} {k : ℕ}

/-- What one step can do. -/
inductive Step (s : ClusteringApi) : Event → ClusteringApi → Prop
  | get {k : ℕ} (tableName : String) (hk : s.requests k = none) :
      Step s (.get k tableName) { s with
        requests := Function.update s.requests k (some ⟨tableName, false, none, .waiting⟩) }
  | generate {k : ℕ} {r : ReportRequest} (o : Outside) (b : Backend) (hk : s.requests k = some r)
      (hopen : r.handled = false) (hfresh : IsFresh s.files o.tempFile) :
      Step s (.generate k o b) (s.generated k r
        (DBActor.receive o (.generateJsonReport r.tableName) b).effects)
  | store {k : ℕ} {r : ReportRequest} {path : String} (hk : s.requests k = some r)
      (hpath : r.reply = some path) : Step s (.store k) (s.report k r path)
  | timeout {k : ℕ} {r : ReportRequest} (hk : s.requests k = some r) :
      Step s (.timeout k) { s with
        requests := Function.update s.requests k (some { r with stage := .failed }) }
  | data {k : ℕ} {r : ReportRequest} (hk : s.requests k = some r) :
      Step s (.data k) { s with
        served := s.served ++ (s.getFromFile.map fun f => (k, f)).toList }

theorem step_of_eq {e : Event} (hs : step s e = some s') : Step s e s' := by
  cases e with
  | get k tableName =>
    simp only [step] at hs
    split at hs
    · obtain rfl := Option.some.inj hs
      exact .get tableName ‹_›
    · cases hs
  | generate k o b =>
    obtain ⟨r, hk, hs⟩ := Option.bind_eq_some_iff.mp hs
    split at hs
    · rename_i hr
      obtain rfl := Option.some.inj hs
      exact .generate o b hk hr.1 hr.2
    · cases hs
  | store k =>
    obtain ⟨r, hk, hs⟩ := Option.bind_eq_some_iff.mp hs
    obtain ⟨path, hpath, hs⟩ := Option.bind_eq_some_iff.mp hs
    split at hs
    · obtain rfl := Option.some.inj hs
      exact .store hk hpath
    · cases hs
  | timeout k =>
    obtain ⟨r, hk, hs⟩ := Option.bind_eq_some_iff.mp hs
    split at hs
    · obtain rfl := Option.some.inj hs
      exact .timeout hk
    · cases hs
  | data k =>
    obtain ⟨r, hk, hs⟩ := Option.bind_eq_some_iff.mp hs
    split at hs
    · obtain rfl := Option.some.inj hs
      exact .data hk
    · cases hs

/-! ## What a report request leaves -/

/-- The query of a report, its answer and the end of the connection: the
code raises, or answers that there is no report, or writes a report and
answers its path. -/
theorem finish_jsonReport_effects (o : Outside) (tableName : String) (connection : ℕ)
    (b : Backend) :
    let effects := (finish ⟨false, tableName, DBGenerateJsonReport.perform o tableName⟩
      connection b).effects
    effects = [] ∨ effects = [.reply (.report "")] ∨
      ∃ path text, o.tempFile = some path ∧
        effects = [.writeFile path text, .reply (.report path)] := by
  simp only [finish, DBGenerateJsonReport.perform, bind_assoc]
  rcases (inert_getTasksWithStatus o.server .done tableName).andThen _ b with
    ⟨doneTasks, -, heq⟩ | ⟨e, -, heq⟩
  · rw [heq]
    cases doneTasks with
    | none => exact .inr (.inl rfl)
    | some tasks =>
      cases hf : o.tempFile with
      | none => exact .inl rfl
      | some path => exact .inr (.inr ⟨path, _, rfl, rfl⟩)
  · rw [heq]
    exact .inl rfl

theorem createTasksTable_effects (server : Server) (name : String) (b : Backend) :
    (DBCreateTasksTable.perform server name b).effects = [] := by
  unfold DBCreateTasksTable.perform syntaxErrorUnless
  by_cases hn : server.IsName name
  · by_cases ht : server.IsName (DBCreateTasksTable.triggerName name)
    · cases hf : (b.database.create server.collation name).find? name <;> simp [hn, ht, hf]
    · simp [hn, ht]
  · simp [hn]

/-- **What the `DBActor` does for a report**, in any backend. -/
theorem generateJsonReport_effects (o : Outside) (tableName : String) (b : Backend) :
    let effects := (DBActor.receive o (.generateJsonReport tableName) b).effects
    effects = [] ∨ effects = [.reply (.report "")] ∨
      ∃ path text, o.tempFile = some path ∧
        effects = [.writeFile path text, .reply (.report path)] := by
  rw [receive_of_query rfl (by simp)]
  by_cases hc : o.connects = true
  · rw [performQuery_connected hc]
    split
    · have hcreate := createTasksTable_effects o.server tableName b.opened
      rw [bind_apply]
      unfold Outcome.andThen
      split
      · rw [hcreate]
        exact finish_jsonReport_effects o tableName b.next _
      · exact .inl hcreate
    · exact finish_jsonReport_effects o tableName b.next b.opened
  · rw [performQuery_unconnected (by simpa using hc)]
    exact .inl rfl

/-- A report, if there are readable tasks that are done. -/
theorem generateJsonReport_done {o : Outside} {tableName path : String} {b : Backend} {T : Table}
    {tasks : List RequestedTask} (hc : o.connects = true) (h : o.server.IsName tableName)
    (hT : b.database.find? tableName = some T)
    (htasks : tasksOf (fun r => r.taskWith? o.server r.method (some .done))
      (T.rows.filter fun r => T.HasStatus .done r) = some (some tasks))
    (hpath : o.tempFile = some path) :
    (DBActor.receive o (.generateJsonReport tableName) b).effects =
      [.writeFile path (DBGenerateJsonReport.jsonString tasks), .reply (.report path)] := by
  have hT' : b.opened.database.find? tableName = some T := hT
  obtain ⟨x, hx, hcomp⟩ := getTasksWithStatus_run h hT' .done
  have hdone : DBGetTasksWithStatus.perform o.server .done tableName b.opened =
      ⟨b.opened, [], .ok (some tasks)⟩ := hx.trans (hcomp.ok _ htasks b.opened)
  rw [receive_of_query rfl (by simp), performQuery_connected hc,
    if_neg fun hnone => by simp [hT] at hnone]
  simp [finish, DBGenerateJsonReport.perform, hdone, hpath, DBActor.answer, DBActor.close]

/-! ## The reports and the field -/

/-- The request whose path was stored last. -/
def latest (es : List Event) : Option ℕ :=
  (es.filterMap fun
    | .store k => some k
    | _ => none).getLast?

theorem latest_store (es : List Event) (k : ℕ) : latest (es ++ [.store k]) = some k := by
  simp [latest]

theorem latest_other (es : List Event) {e : Event} (h : ∀ k, e ≠ .store k) :
    latest (es ++ [e]) = latest es := by
  cases e with
  | store k => exact absurd rfl (h k)
  | get | generate | timeout | data => simp [latest]

/-- The path of an answer names the report of its request, and the field
holds the path that was stored last. -/
structure Inv (es : List Event) (s : ClusteringApi) : Prop where
  empty : s.files "" = none
  open_ : ∀ k r, s.requests k = some r → r.handled = false → r.reply = none
  reply : ∀ k r path, s.requests k = some r → r.reply = some path →
    path = "" ∨ ∃ f, s.files path = some f ∧ f.tableName = r.tableName
  initial : latest es = none → s.dataPath = ""
  stored : ∀ j, latest es = some j → ∃ r, s.requests j = some r ∧ r.reply = some s.dataPath

theorem inv_init : Inv [] api.init where
  empty := rfl
  open_ := by
    intro k r hr
    cases hr
  reply := by
    intro k r path hr
    cases hr
  initial _ := rfl
  stored := by
    intro j hj
    cases hj

/-- A request changes and keeps its answer. -/
theorem Inv.update {es es' : List Event} {r r' : ReportRequest} (h : Inv es s)
    (hk : s.requests k = some r) (htable : r'.tableName = r.tableName)
    (hhandled : r'.handled = r.handled) (hreply : r'.reply = r.reply)
    (hes : latest es' = latest es) :
    Inv es' { s with requests := Function.update s.requests k (some r') } where
  empty := h.empty
  open_ := by
    intro i q hq hnot
    dsimp only at hq
    rw [Function.update_apply] at hq
    split at hq
    · obtain rfl := Option.some.inj hq
      exact hreply.trans (h.open_ k r hk (hhandled ▸ hnot))
    · exact h.open_ i q hq hnot
  reply := by
    intro i q path hq hpath
    dsimp only at hq
    rw [Function.update_apply] at hq
    split at hq
    · obtain rfl := Option.some.inj hq
      rw [htable]
      exact h.reply k r path hk (hreply ▸ hpath)
    · exact h.reply i q path hq hpath
  initial hnone := h.initial (hes ▸ hnone)
  stored := by
    intro j hj
    obtain ⟨q, hq, hpath⟩ := h.stored j (hes ▸ hj)
    dsimp only
    rw [Function.update_apply]
    split
    · rename_i hi
      subst hi
      obtain rfl := Option.some.inj (hq.symm.trans hk)
      exact ⟨r', rfl, hreply.trans hpath⟩
    · exact ⟨q, hq, hpath⟩

/-- The answer of the `DBActor` names a report for its request. -/
theorem Inv.generated {es : List Event} {r : ReportRequest} {o : Outside} (h : Inv es s)
    (hk : s.requests k = some r) (hfresh : IsFresh s.files o.tempFile) (hr : r.handled = false)
    (b : Backend) :
    Inv es (s.generated k r
      (DBActor.receive o (.generateJsonReport r.tableName) b).effects) := by
  have hold : ∀ j, latest es = some j → j ≠ k := by
    rintro j hj rfl
    obtain ⟨q, hq, hpath⟩ := h.stored j hj
    obtain rfl := Option.some.inj (hq.symm.trans hk)
    cases (h.open_ j q hq hr).symm.trans hpath
  -- the files that were there stay, and the answer names one of its own
  have hmain : ∀ effects : List DbEffect,
      (written r.tableName effects s.files "" = none) →
      (∀ path f, s.files path = some f → written r.tableName effects s.files path = some f) →
      (∀ path, replied effects = some path → path = "" ∨
        ∃ f, written r.tableName effects s.files path = some f ∧ f.tableName = r.tableName) →
      Inv es (s.generated k r effects) := by
    intro effects hempty hfiles hnew
    refine ⟨hempty, ?_, ?_, h.initial, ?_⟩
    · intro i q hq hnot
      simp only [ClusteringApi.generated, Function.update_apply] at hq
      split at hq
      · obtain rfl := Option.some.inj hq
        cases hnot
      · exact h.open_ i q hq hnot
    · intro i q path hq hpath
      simp only [ClusteringApi.generated, Function.update_apply] at hq ⊢
      split at hq
      · obtain rfl := Option.some.inj hq
        exact hnew path hpath
      · refine (h.reply i q path hq hpath).imp_right ?_
        rintro ⟨f, hf, htable⟩
        exact ⟨f, hfiles path f hf, htable⟩
    · intro j hj
      obtain ⟨q, hq, hpath⟩ := h.stored j hj
      refine ⟨q, ?_, hpath⟩
      simp only [ClusteringApi.generated, Function.update_apply]
      rw [if_neg (hold j hj)]
      exact hq
  obtain heq | heq | ⟨path, text, hpath, heq⟩ := generateJsonReport_effects o r.tableName b
  · rw [heq]
    exact hmain _ h.empty (fun _ _ hf => hf) (by rintro _ ⟨⟩)
  · rw [heq]
    refine hmain _ h.empty (fun _ _ hf => hf) ?_
    rintro _ ⟨⟩
    exact .inl rfl
  · rw [heq]
    obtain ⟨hne, hnone⟩ := hfresh path hpath
    refine hmain _ ?_ ?_ ?_
    · exact (Function.update_of_ne (Ne.symm hne) _ _).trans h.empty
    · intro path' f hf
      refine (Function.update_of_ne ?_ _ _).trans hf
      rintro rfl
      simp [hf] at hnone
    · rintro _ ⟨⟩
      exact .inr ⟨_, Function.update_self _ _ _, rfl⟩

theorem inv_step {es : List Event} {e : Event} (h : Inv es s) (hs : Step s e s') :
    Inv (es ++ [e]) s' := by
  cases hs with
  | @get k tableName hk =>
    have hes := latest_other es (e := .get k tableName) (by simp)
    refine ⟨h.empty, ?_, ?_, fun hnone => h.initial (hes ▸ hnone), ?_⟩
    · intro i q hq hnot
      dsimp only at hq
      rw [Function.update_apply] at hq
      split at hq
      · obtain rfl := Option.some.inj hq
        rfl
      · exact h.open_ i q hq hnot
    · intro i q path hq hpath
      dsimp only at hq
      rw [Function.update_apply] at hq
      split at hq
      · obtain rfl := Option.some.inj hq
        cases hpath
      · exact h.reply i q path hq hpath
    · intro j hj
      obtain ⟨q, hq, hpath⟩ := h.stored j (hes ▸ hj)
      refine ⟨q, ?_, hpath⟩
      rw [← hq]
      refine Function.update_of_ne ?_ _ _
      rintro rfl
      cases hk.symm.trans hq
  | @generate k r o b hk hopen hfresh =>
    have hgen := h.generated hk hfresh hopen b
    have hes := latest_other es (e := .generate k o b) (by simp)
    exact ⟨hgen.empty, hgen.open_, hgen.reply, hes ▸ hgen.initial, hes ▸ hgen.stored⟩
  | @store k r path hk hpath =>
    have hes := latest_store es k
    have hupd : Inv es { s with
        requests := Function.update s.requests k (some { r with stage := .opened }) } :=
      h.update hk rfl rfl rfl rfl
    refine ⟨hupd.empty, hupd.open_, hupd.reply, ?_, ?_⟩
    · intro hnone
      cases hes.symm.trans hnone
    · intro j hj
      obtain rfl := Option.some.inj (hes.symm.trans hj)
      exact ⟨_, Function.update_self _ _ _, hpath⟩
  | timeout hk => exact h.update hk rfl rfl rfl (latest_other es (by simp))
  | @data k r hk =>
    have hes := latest_other es (e := .data k) (by simp)
    exact ⟨h.empty, h.open_, h.reply, hes ▸ h.initial, hes ▸ h.stored⟩

theorem inv_run {es : List Event} (h : api.Run anyStep es s) : Inv es s :=
  h.invariant inv_init fun _ _ _ _ h _ hs => inv_step h (step_of_eq hs)

/-! ## Reports are not mixed up -/

/-- The data served to a page are a report for the task set of the page. -/
def NotMixedUp (s : ClusteringApi) : Prop :=
  ∀ x ∈ s.served, (s.requests x.1).map ReportRequest.tableName = some x.2.tableName

/-- When a page asks for its data, the path stored last is that of a
request for the same task set, or of one without a report. -/
def Undisturbed (es : List Event) (s : ClusteringApi) : Event → Prop
  | .data k => ∀ j ∈ latest es, ∀ q ∈ s.requests j, ∀ r ∈ s.requests k,
      q.tableName = r.tableName ∨ q.reply = some ""
  | _ => True

/-- A request keeps its task set. -/
theorem tableName_step {e : Event} (hs : Step s e s') {i : ℕ} (hi : s.requests i ≠ none) :
    (s'.requests i).map ReportRequest.tableName =
      (s.requests i).map ReportRequest.tableName := by
  have hupdate : ∀ {k : ℕ} {r r' : ReportRequest}, s.requests k = some r →
      r'.tableName = r.tableName →
      (Function.update s.requests k (some r') i).map ReportRequest.tableName =
        (s.requests i).map ReportRequest.tableName := by
    intro k r r' hk htable
    rw [Function.update_apply]
    split
    · rename_i hik
      simp [hik, hk, htable]
    · rfl
  cases hs with
  | get tableName hk =>
    refine congrArg _ (Function.update_of_ne ?_ _ _)
    rintro rfl
    exact hi hk
  | generate o b hk => exact hupdate hk rfl
  | store hk => exact hupdate hk rfl
  | timeout hk => exact hupdate hk rfl
  | data => rfl

/-- The pages that were served data are pages. -/
theorem requests_of_served {es : List Event} (h : api.Run anyStep es s) :
    ∀ x ∈ s.served, s.requests x.1 ≠ none := by
  refine h.state_invariant (I := fun s => ∀ x ∈ s.served, s.requests x.1 ≠ none) ?_ ?_
  · rintro x ⟨⟩
  · intro es s e s' ih _ hs x hx
    have hstep := step_of_eq hs
    have hold : s.requests x.1 ≠ none → s'.requests x.1 ≠ none := by
      intro hne hnone
      have hmap := tableName_step hstep hne
      rw [hnone, Option.map_none, eq_comm, Option.map_eq_none_iff] at hmap
      exact hne hmap
    refine hold ?_
    cases hstep with
    | data hk =>
      rcases List.mem_append.mp hx with hx | hx
      · exact ih x hx
      · obtain ⟨f, -, rfl⟩ := by simpa using hx
        simp [hk]
    | get | generate | store | timeout => exact ih x hx

/-- **One step keeps the reports apart exactly if it is undisturbed.** -/
theorem notMixedUp_step {es : List Event} {e : Event} (h : api.Run anyStep es s)
    (hs : Step s e s') : s'.NotMixedUp ↔ s.NotMixedUp ∧ Undisturbed es s e := by
  have hinv := inv_run h
  have hserved := requests_of_served h
  have hold : (∀ x ∈ s.served, (s'.requests x.1).map ReportRequest.tableName =
      some x.2.tableName) ↔ s.NotMixedUp :=
    forall₂_congr fun x hx => by rw [tableName_step hs (hserved x hx)]
  cases hs with
  | get | generate | store | timeout =>
    rw [← hold]
    exact (and_iff_left trivial).symm
  | @data k r hk =>
    simp only [NotMixedUp, List.forall_mem_append]
    refine and_congr_right fun _ => ?_
    have hnew : (∀ x ∈ (s.getFromFile.map fun f => (k, f)).toList,
        (s.requests x.1).map ReportRequest.tableName = some x.2.tableName) ↔
        ∀ f ∈ s.getFromFile, f.tableName = r.tableName := by
      cases s.getFromFile with
      | none => simp
      | some f => simp [hk, eq_comm]
    rw [hnew]
    simp only [Undisturbed, Option.mem_def, hk, Option.some.injEq, forall_eq']
    cases hl : latest es with
    | none =>
      simp [getFromFile, hinv.initial hl, hinv.empty]
    | some j =>
      obtain ⟨q, hq, hpath⟩ := hinv.stored j hl
      simp only [Option.some.injEq, forall_eq', hq]
      rcases hinv.reply j q s.dataPath hq hpath with hempty | ⟨f, hf, htable⟩
      · simp [getFromFile, hempty, hinv.empty, hpath]
      · have hne : s.dataPath ≠ "" := by
          intro hempty
          rw [hempty, hinv.empty] at hf
          cases hf
        simp [getFromFile, hf, htable, hpath, hne]

end ClusteringApi

open ClusteringApi

/-- **The data served to each page are a report for its task set exactly
if every page asks for them while the path stored last is that of a
request for this task set, or of one without a report.** -/
theorem notMixedUp_iff {es : List Event} {s : ClusteringApi} (h : api.Run anyStep es s) :
    s.NotMixedUp ↔ api.Run Undisturbed es s := by
  induction h with
  | start =>
    refine iff_of_true ?_ .start
    rintro x ⟨⟩
  | step h _ hs ih =>
    rw [notMixedUp_step h (step_of_eq hs), ih, Run.concat_iff h hs]

/-! ## Two clients -/

/-- A task that is done. -/
def doneRow (method : String) : Row :=
  { Row.default method with taskStatus := "DONE", startedAt := 1, finishedAt := 1 }

/-- A task set with one done task. -/
def doneTable (method : String) : Table := ⟨binary, [doneRow method], by simp, true⟩

/-- Two task sets. -/
theorem nodup_twoSets :
    ([("a", doneTable "A.test"), ("b", doneTable "B.test")].map Prod.fst).Nodup := by
  simp

def twoSets : Backend :=
  ⟨⟨[("a", doneTable "A.test"), ("b", doneTable "B.test")], nodup_twoSets⟩, 0, [],
    fun _ hc => absurd hc List.not_mem_nil⟩

def outsideOf (path : String) : Outside := { someOutside with tempFile := some path }

/-- Client 1 asks for its page before the page of client 0 asks for its data. -/
def crossed : List Event :=
  [.get 0 "a", .generate 0 (outsideOf "a.json") twoSets, .store 0,
    .get 1 "b", .generate 1 (outsideOf "b.json") twoSets, .store 1, .data 0]

theorem tasksOf_doneTable (path method : String) :
    ∃ tasks, tasksOf (fun r => r.taskWith? (outsideOf path).server r.method (some .done))
      ((doneTable method).rows.filter fun r => (doneTable method).HasStatus .done r) =
        some (some tasks) := by
  have hrow : (doneTable method).rows.filter (fun r => (doneTable method).HasStatus .done r) =
      [doneRow method] := rfl
  rw [hrow]
  exact ⟨_, rfl⟩

theorem generate_twoSets {es : List Event} {s : ClusteringApi} {k : ℕ} {t q method : String}
    (hrun : api.Run anyStep es s) (hk : s.requests k = some ⟨t, false, none, .waiting⟩) (ht : someOutside.server.IsName t)
    (hT : twoSets.database.find? t = some (doneTable method)) (hq : q ≠ "")
    (hfresh : s.files q = none) :
    ∃ text, api.Run anyStep (es ++ [.generate k (outsideOf q) twoSets]) { s with
      files := Function.update s.files q (some ⟨t, text⟩)
      requests := Function.update s.requests k (some ⟨t, true, some q, .waiting⟩) } := by
  obtain ⟨tasks, htasks⟩ := tasksOf_doneTable q method
  have heffects := generateJsonReport_done (o := outsideOf q) (b := twoSets) rfl ht hT htasks rfl
  refine ⟨DBGenerateJsonReport.jsonString tasks, hrun.step trivial ?_⟩
  have hif : IsFresh s.files (outsideOf q).tempFile := by
    rintro _ ⟨⟩
    exact ⟨hq, by simp [hfresh]⟩
  simp only [api, ClusteringApi.step, hk, Option.bind_eq_bind, Option.bind_some, hif, and_self, if_true,
    generated, heffects]
  rfl

/-- The run of the two clients, and what it served. -/
theorem run_crossed :
    ∃ s text, api.Run anyStep crossed s ∧ s.served = [(0, ⟨"b", text⟩)] ∧
      (s.requests 0).map ReportRequest.tableName = some "a" := by
  have h0 : api.Run anyStep [] api.init := .start
  have h1 := h0.step (e := .get 0 "a") trivial rfl
  obtain ⟨texta, h2⟩ := generate_twoSets (k := 0) (t := "a") (q := "a.json") h1 rfl (by decide) rfl
    (by decide) rfl
  have h3 := h2.step (e := .store 0) trivial rfl
  have h4 := h3.step (e := .get 1 "b") trivial rfl
  obtain ⟨textb, h5⟩ := generate_twoSets (k := 1) (t := "b") (q := "b.json") h4 rfl (by decide) rfl
    (by decide) rfl
  have h6 := h5.step (e := .store 1) trivial rfl
  have h7 := h6.step (e := .data 0) trivial rfl
  exact ⟨_, textb, h7, rfl, rfl⟩

theorem notMixedUp_iff_crossed :
    ∃ s, api.Run anyStep crossed s ∧ (s.NotMixedUp ↔ api.Run Undisturbed crossed s) := by
  obtain ⟨s, -, h, -⟩ := run_crossed
  exact ⟨s, h, notMixedUp_iff h⟩

/-- The page for task set `a` is served the report of task set `b`. -/
theorem reports_mixed_up : ¬ ∀ es s, api.Run anyStep es s → s.NotMixedUp := by
  intro h
  obtain ⟨s, text, hrun, hserved, hpage⟩ := run_crossed
  have hmixed := h crossed s hrun (0, ⟨"b", text⟩) (by simp [hserved])
  rw [hpage] at hmixed
  have hsame : "a" = "b" := Option.some.inj hmixed
  exact absurd hsame (by decide)

end Clustering.Webui
