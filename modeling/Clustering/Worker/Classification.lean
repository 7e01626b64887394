/-
Clustering.Worker.Classification — what an execution is recorded as.

The exception of `TaskExecutorActor.run` passes two deciders: that of
the `TaskActor`, which treats every exception that is no result as a
reason to run the task again, and that of the node above, which writes
the result to the database. `Classified` says of one execution that it
is never taken for the third kind when a call of it raises an
`Exception`; `classified_iff` is the exact condition.
-/
import Clustering.Worker.TaskActor
import Clustering.Worker.SubWorkerActor
import Clustering.Worker.TaskExecutorActor

namespace Clustering.Worker

open Actors

/-- The decider of a `TaskActor` with a living machine passes `t` on, and
does not run the task again. -/
def Decides (t : Throwable) : Prop :=
  ∀ (a : TaskActor) (v : ℕ), a.isTaken = true → a.targetVm = some v →
    (TaskActor.supervisorStrategy t .alive a).result = .ok .escalate ∧
      (TaskActor.supervisorStrategy t .alive a).fields.taskDone = true

/-- The node above writes a FAILURE of `task` for `t`, and stops the
`TaskActor`. -/
def RecordsFailure (task : Task) (t : Throwable) : Prop :=
  ∀ (source : ℕ) (a : SubWorkerActor) (cs : List Child),
    (SubWorkerActor.supervisorStrategy source t ⟨a, cs⟩).result = .ok .stop ∧
      ∃ text, .tellDb (.updateTask task.fullName .done .failure (some text) a.tablename) ∈
        (SubWorkerActor.supervisorStrategy source t ⟨a, cs⟩).effects

/-- The execution `x` of `task` is classified. -/
structure Classified (task : Task) (x : Execution) : Prop where
  /-- An `Exception` in any call ends as a `TestFailException`. -/
  failure : ∀ cause, x.raised = some (.exception cause) →
    ∃ c, TaskExecutorActor.run task x = .testFail task c
  /-- It is recorded as a FAILURE, and the task is not run again. -/
  recorded : ∀ cause, x.raised = some (.exception cause) →
    Decides (TaskExecutorActor.run task x) ∧ RecordsFailure task (TaskExecutorActor.run task x)
  /-- Only a success is reported as one. -/
  success : ∀ task' res, TaskExecutorActor.run task x = .testSuccess task' res → x.Succeeds

/-- The exception the execution ends with, if it is an `Exception`, has a
cause. -/
def Execution.CauseKnown (x : Execution) : Prop :=
  ∀ cause, x.raised = some (.exception cause) → cause ≠ none

theorem decides_testFail (task : Task) (c : Option Cause) : Decides (.testFail task c) := by
  intro a v ht hv
  rw [TaskActor.supervisorStrategy_fail ht hv]
  exact ⟨rfl, rfl⟩

theorem recordsFailure_testFail (task : Task) (c : Cause) :
    RecordsFailure task (.testFail task (some c)) := by
  intro source a cs
  rw [SubWorkerActor.supervisorStrategy_failure]
  exact ⟨rfl, _, List.mem_cons_self⟩

/-- **An execution is classified if and only if the `Exception` it ends
with, if there is one, has a cause.** -/
theorem classified_iff (task : Task) (x : Execution) : Classified task x ↔ x.CauseKnown := by
  constructor
  · intro h cause hx hc
    subst hc
    obtain ⟨c, hf⟩ := h.failure none hx
    rw [TaskExecutorActor.run_exception hx] at hf
    cases hf
  · intro h
    have hfail : ∀ cause, x.raised = some (.exception cause) →
        ∃ c, TaskExecutorActor.run task x = .testFail task (some c) := by
      intro cause hx
      obtain ⟨c, rfl⟩ := Option.ne_none_iff_exists'.mp (h cause hx)
      exact ⟨c, TaskExecutorActor.run_exception hx⟩
    refine ⟨?_, ?_, ?_⟩
    · intro cause hx
      obtain ⟨c, hc⟩ := hfail cause hx
      exact ⟨some c, hc⟩
    · intro cause hx
      obtain ⟨c, hc⟩ := hfail cause hx
      rw [hc]
      exact ⟨decides_testFail task _, recordsFailure_testFail task c⟩
    · intro task' res hs
      exact TaskExecutorActor.run_testSuccess hs

/-! ## A method that is not there -/

/-- `getMethod` raises a `NoSuchMethodException`, which has no cause. -/
def methodMissing : Execution where
  getClassFromByte := .ok ()
  newInstance := .ok []
  getMethod := .error (.exception none)
  junit := .ok ⟨0, []⟩
  invoke := .ok none

def missingTask : Task := ⟨"Tests", "gone", false, false⟩

/-- The task actor that executes it on machine 0. -/
def missingTaskActor : TaskActor :=
  { TaskActor.new missingTask "run" with isTaken := true, targetVm := some 0, executorActor := some 1 }

/-- **A task that can never run is run again without end**: what `run`
throws is no `TestFailException`, and the `TaskActor` only stops the
executor. -/
theorem missing_method_unclassified :
    ¬ Classified missingTask methodMissing ∧
      TaskExecutorActor.run missingTask methodMissing = .nullPointer ∧
      TaskActor.supervisorStrategy .nullPointer .alive missingTaskActor =
        ⟨missingTaskActor, [], .ok .stop⟩ := by
  refine ⟨?_, rfl, rfl⟩
  intro h
  obtain ⟨c, hc⟩ := h.failure none rfl
  cases hc

end Clustering.Worker
