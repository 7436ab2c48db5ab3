import MpvmApp.Automations.Runbook
import MpvmApp.Lib.Runs

/-!
# The execution of a run

A worker executes a run step by step, and a step in attempts.  Each action of a worker
reads or writes the stored run once, or it is a call of the step handler.  An operator
may request the cancellation between any two of them, the process may die, and after a
restart the recovery looks for active runs and submits them again.

Main definitions:

- `work`: one action of a worker.
- `step`: one step of a run with its workers and recoveries.

Main results:

- Theorem `rank_work_lt`: every action brings a worker closer to its end.
- Theorem `worker_ends`: a worker that takes enough actions ends.
-/

namespace MpvmApp
namespace Automations

open Runs

/-! ## Workers -/

/-- The statuses with which a worker finishes a run. -/
inductive Ending where
  | completed
  | completedWithWarnings
  | failed
  | cancelled
deriving DecidableEq, Repr

/-- The stored status of an ending. -/
def Ending.status : Ending → RunStatus
  | .completed => .completed
  | .completedWithWarnings => .completedWithWarnings
  | .failed => .failed
  | .cancelled => .cancelled

/-- What a handler or a notification does in the end. -/
inductive Outcome where
  | completed (output : Output)
  /-- `AutomationStepCancelled` is raised. -/
  | cancelled
  /-- Another exception with its text is raised. -/
  | raised (message : String)

/-- The point that a worker has reached; its next action is the one that is named. -/
inductive Phase where
  /-- The run is read. -/
  | submitted
  /-- The status `running` is stored. -/
  | loaded
  /-- The step at an index is begun, or the run is finished after the last step. -/
  | atStep (index : Nat)
  /-- The step is stored as cancelled. -/
  | cancellingStep (index : Nat)
  /-- The step is stored as skipped. -/
  | skipping (index : Nat)
  /-- The status `running` is stored for an attempt. -/
  | attempting (index : Nat) (step : StepDefinition) (attempt : Nat)
  /-- The step is stored as running. -/
  | marking (index : Nat) (step : StepDefinition) (attempt : Nat)
  /-- The step is carried out. -/
  | ready (index : Nat) (step : StepDefinition) (attempt : Nat)
  /-- The handler or the notification returns. -/
  | invoked (index : Nat) (step : StepDefinition) (attempt : Nat)
  /-- The step is stored as completed. -/
  | storing (index : Nat) (step : StepDefinition) (output : Output)
  /-- The error of the last attempt is stored. -/
  | failing (index : Nat) (step : StepDefinition)
  /-- The final status is stored. -/
  | finishing (ending : Ending)
  | ended

/-- A worker with the local variables of `execute_run`. -/
structure Worker where
  phase : Phase := .submitted
  persisted : List StepRow := []
  context : Context := []
  warnings : Nat := 0

/-- A worker that has been submitted. -/
def submitted : Worker where

/-- The step at an index was completed when the worker read the run. -/
def Worker.hasCompleted (w : Worker) (index : Nat) : Bool :=
  w.persisted[index]?.any StepRow.isCompleted

/-- The output of a dry run. -/
def plannedOutput (step : StepDefinition) : Output :=
  [("dry_run", .bool true), ("planned_config", .dict step.config)]

/-- The phase after an attempt has returned. -/
def afterAttempt (index : Nat) (step : StepDefinition) (attempt : Nat) : Outcome → Phase
  | .completed output => .storing index step output
  | .cancelled => .cancellingStep index
  | .raised message =>
      if attempt ≤ step.maxRetries then .attempting index step (attempt + 1)
      -- An error without a text is no error to the loop.
      else if message = "" then .atStep (index + 1)
      else .failing index step

/-- One action of a worker; the outcome matters only when an attempt returns. -/
def work (run : Run) (w : Worker) (outcome : Outcome) : Run × Worker :=
  match w.phase with
  | .submitted =>
      (run, { w with
        phase := .loaded
        persisted := run.steps
        context := completedOutputs run.steps })
  | .loaded => (run.setStatus .running, { w with phase := .atStep 0 })
  | .atStep index =>
      match run.definition.steps[index]? with
      | none =>
          (run, { w with
            phase := .finishing (if w.warnings = 0 then .completed else .completedWithWarnings) })
      | some step =>
          if w.hasCompleted index then (run, { w with phase := .atStep (index + 1) })
          else if run.cancelRequested then (run, { w with phase := .cancellingStep index })
          else if conditionMatches step.condition w.context then
            (run, { w with phase := .attempting index step 1 })
          else (run, { w with phase := .skipping index })
  | .cancellingStep index =>
      (run.setStepStatus index .cancelled, { w with phase := .finishing .cancelled })
  | .skipping index =>
      (run.setStepStatus index .skipped (some [("reason", .text "condition")]),
        { w with phase := .atStep (index + 1) })
  | .attempting index step attempt =>
      (run.setStatus .running, { w with phase := .marking index step attempt })
  | .marking index step attempt =>
      (run.setStepStatus index .running, { w with phase := .ready index step attempt })
  | .ready index step attempt =>
      (run, { w with
        phase :=
          if run.dryRun then .storing index step (plannedOutput step)
          else .invoked index step attempt })
  | .invoked index step attempt =>
      (run, { w with phase := afterAttempt index step attempt outcome })
  | .storing index step output =>
      (run.setStepStatus index .completed (some output),
        { w with
          phase := .atStep (index + 1)
          context := (step.stepId, output) :: w.context })
  | .failing index step =>
      match step.onError with
      | .proceed =>
          (run.setStepStatus index .warning,
            { w with phase := .atStep (index + 1), warnings := w.warnings + 1 })
      | .stop => (run.setStepStatus index .failed, { w with phase := .finishing .failed })
  | .finishing ending => (run.setStatus ending.status, { w with phase := .ended })
  | .ended => (run, w)

/-! ## The system -/

/-- How far `resume_runs` has come with a run. -/
inductive Recovery where
  /-- The run was active. -/
  | selected
  /-- The run is read: the cancellation was requested, or a step was running. -/
  | read (cancelRequested interrupted : Bool)
  | handled
deriving DecidableEq, Repr

/-- A run, the request that starts it, its workers and the recoveries that look at it. -/
structure State where
  run : Run
  starting : Bool
  workers : List Worker := []
  recoveries : List Recovery := []

/-- What happens to a run. -/
inductive Event where
  /-- `start_run` submits the run. -/
  | submit
  /-- The worker at a position takes an action. -/
  | work (i : Nat) (outcome : Outcome)
  /-- `request_cancel`. -/
  | cancel
  /-- A recovery finds the run among the active ones. -/
  | select
  /-- The recovery at a position reads the run. -/
  | read (j : Nat)
  /-- The recovery at a position acts on what it has read. -/
  | recover (j : Nat)
  /-- The process dies. -/
  | crash

/-- A step of the run is stored as running. -/
def Run.isInterrupted (run : Run) : Bool :=
  run.steps.any fun row => decide (row.status = .running)

/-- One step of the system. -/
def step (s : State) : Event → State
  | .submit =>
      if s.starting then { s with starting := false, workers := s.workers ++ [submitted] } else s
  | .work i outcome =>
      match s.workers[i]? with
      | none => s
      | some w =>
          { s with
            run := (work s.run w outcome).1
            workers := s.workers.set i (work s.run w outcome).2 }
  | .cancel =>
      match s.run.requestCancel with
      | some run => { s with run := run }
      | none => s
  | .select =>
      if s.run.status.isActive then { s with recoveries := s.recoveries ++ [.selected] } else s
  | .read j =>
      match s.recoveries[j]? with
      | some .selected =>
          { s with
            recoveries := s.recoveries.set j (.read s.run.cancelRequested s.run.isInterrupted) }
      | _ => s
  | .recover j =>
      match s.recoveries[j]? with
      | some (.read cancelRequested interrupted) =>
          let s' := { s with recoveries := s.recoveries.set j .handled }
          if cancelRequested then { s' with run := s.run.setStatus .cancelled }
          else if interrupted then { s' with run := s.run.setStatus .needsAttention }
          else { s' with workers := s.workers ++ [submitted] }
      | _ => s
  | .crash => { s with starting := false, workers := [], recoveries := [] }

/-- A run that was just created. -/
def created (definition : Definition) (dryRun : Bool) : State where
  run := createRun definition dryRun
  starting := true

/-! ## Workers end -/

/-- The actions that one step takes at most. -/
def StepDefinition.cost (step : StepDefinition) : Nat :=
  4 * (step.maxRetries + 1) + 3

/-- The actions that the steps from an index on take at most. -/
def Definition.costFrom (definition : Definition) (index : Nat) : Nat :=
  ((definition.steps.drop index).map StepDefinition.cost).sum

/-- The actions that a worker takes at most until it ends. -/
def Phase.rank (definition : Definition) : Phase → Nat
  | .submitted => definition.costFrom 0 + 4
  | .loaded => definition.costFrom 0 + 3
  | .atStep index => definition.costFrom index + 2
  | .cancellingStep _ => 2
  | .skipping index => definition.costFrom (index + 1) + 3
  | .attempting index step attempt =>
      definition.costFrom (index + 1) + 4 * (step.maxRetries + 1 - attempt) + 7
  | .marking index step attempt =>
      definition.costFrom (index + 1) + 4 * (step.maxRetries + 1 - attempt) + 6
  | .ready index step attempt =>
      definition.costFrom (index + 1) + 4 * (step.maxRetries + 1 - attempt) + 5
  | .invoked index step attempt =>
      definition.costFrom (index + 1) + 4 * (step.maxRetries + 1 - attempt) + 4
  | .storing index _ _ | .failing index _ => definition.costFrom (index + 1) + 3
  | .finishing _ => 1
  | .ended => 0

theorem costFrom_of_step {definition : Definition} {index : Nat} {step : StepDefinition}
    (h : definition.steps[index]? = some step) :
    definition.costFrom index = step.cost + definition.costFrom (index + 1) := by
  obtain ⟨hlt, rfl⟩ := List.getElem?_eq_some_iff.1 h
  rw [Definition.costFrom, List.drop_eq_getElem_cons hlt, List.map_cons, List.sum_cons]
  rfl

/-- An attempt that has returned brings the worker closer to its end. -/
theorem rank_afterAttempt_lt (definition : Definition) (index : Nat) (step : StepDefinition)
    (attempt : Nat) (outcome : Outcome) :
    (afterAttempt index step attempt outcome).rank definition <
      (Phase.invoked index step attempt).rank definition := by
  cases outcome with
  | completed output =>
      simp only [afterAttempt, Phase.rank]
      omega
  | cancelled =>
      simp only [afterAttempt, Phase.rank]
      omega
  | raised message =>
      unfold afterAttempt
      dsimp only
      split_ifs with hretry hempty
      · simp only [Phase.rank]
        omega
      · simp only [Phase.rank]
        omega
      · simp only [Phase.rank]
        omega

/-- Every action brings a worker closer to its end. -/
theorem rank_work_lt (run : Run) {w : Worker} (hopen : w.phase ≠ .ended) (outcome : Outcome) :
    (work run w outcome).2.phase.rank run.definition < w.phase.rank run.definition := by
  cases hphase : w.phase with
  | atStep index =>
      simp only [work, hphase]
      cases hstep : run.definition.steps[index]? with
      | none =>
          simp only [Phase.rank]
          omega
      | some step =>
          have hcost := costFrom_of_step hstep
          unfold StepDefinition.cost at hcost
          dsimp only
          split_ifs <;> simp only [Phase.rank] <;> omega
  | invoked index step attempt =>
      simp only [work, hphase]
      exact rank_afterAttempt_lt run.definition index step attempt outcome
  | ready index step attempt =>
      simp only [work, hphase]
      split <;> simp only [Phase.rank] <;> omega
  | failing index step =>
      simp only [work, hphase]
      split <;> simp only [Phase.rank] <;> omega
  | ended => exact absurd hphase hopen
  | submitted | loaded | cancellingStep | skipping | attempting | marking | storing
  | finishing =>
      simp only [work, hphase, Phase.rank]
      omega

@[simp]
theorem definition_work (run : Run) (w : Worker) (outcome : Outcome) :
    (work run w outcome).1.definition = run.definition := by
  unfold work
  split <;> try rfl
  · split
    · rfl
    · split_ifs <;> rfl
  · split <;> rfl

@[simp]
theorem cancelRequested_work (run : Run) (w : Worker) (outcome : Outcome) :
    (work run w outcome).1.cancelRequested = run.cancelRequested := by
  unfold work
  split <;> try rfl
  · split
    · rfl
    · split_ifs <;> rfl
  · split <;> rfl

@[simp]
theorem dryRun_work (run : Run) (w : Worker) (outcome : Outcome) :
    (work run w outcome).1.dryRun = run.dryRun := by
  unfold work
  split <;> try rfl
  · split
    · rfl
    · split_ifs <;> rfl
  · split <;> rfl

@[simp]
theorem length_steps_work (run : Run) (w : Worker) (outcome : Outcome) :
    (work run w outcome).1.steps.length = run.steps.length := by
  unfold work
  split <;> try rfl
  · split
    · rfl
    · split_ifs <;> rfl
  · simp
  · simp
  · simp
  · simp
  · split <;> simp

/-- The actions that the worker at a position takes in a run. -/
def turns (i : Nat) (es : List Event) : Nat :=
  es.countP fun ev => match ev with
    | .work k _ => decide (k = i)
    | _ => false

/-- The process does not die. -/
def Survives (es : List Event) : Prop :=
  ∀ ev ∈ es, ev ≠ .crash

/-- An event that is no action of a worker leaves the worker as it is. -/
theorem worker_step {s : State} {i : Nat} {w : Worker} (hw : s.workers[i]? = some w)
    {ev : Event} (hsurvives : ev ≠ .crash) (hother : ∀ outcome, ev ≠ .work i outcome) :
    (step s ev).workers[i]? = some w := by
  have hlt : i < s.workers.length := (List.getElem?_eq_some_iff.1 hw).1
  have happend : (s.workers ++ [submitted])[i]? = some w := by
    rw [List.getElem?_append_left hlt, hw]
  cases ev with
  | submit =>
      simp only [step]
      split
      · exact happend
      · exact hw
  | work k outcome =>
      have hne : k ≠ i := fun heq => hother outcome (by rw [heq])
      simp only [step]
      split
      · exact hw
      · simpa [List.getElem?_set_ne hne] using hw
  | cancel =>
      simp only [step]
      split <;> exact hw
  | select =>
      simp only [step]
      split <;> exact hw
  | read j =>
      simp only [step]
      split <;> exact hw
  | recover j =>
      simp only [step]
      split
      · split_ifs
        · exact hw
        · exact hw
        · exact happend
      · exact hw
  | crash => exact absurd rfl hsurvives

theorem definition_step (s : State) (ev : Event) :
    (step s ev).run.definition = s.run.definition := by
  cases ev with
  | submit =>
      simp only [step]
      split <;> rfl
  | work i outcome =>
      simp only [step]
      split
      · rfl
      · exact definition_work _ _ _
  | cancel =>
      simp only [step, Run.requestCancel]
      by_cases hactive : s.run.status.isActive = true <;> simp [hactive]
  | select =>
      simp only [step]
      split <;> rfl
  | read j =>
      simp only [step]
      split <;> rfl
  | recover j =>
      simp only [step]
      split
      · split_ifs <;> rfl
      · rfl
  | crash => rfl

@[simp]
theorem definition_run (s : State) (es : List Event) :
    (run step s es).run.definition = s.run.definition := by
  induction es generalizing s with
  | nil => rfl
  | cons ev es ih => rw [run_cons, ih, definition_step]

/-- A worker that takes enough actions ends. -/
theorem worker_ends {s : State} {i : Nat} {w : Worker} {es : List Event}
    (hw : s.workers[i]? = some w) (hsurvives : Survives es)
    (hturns : w.phase.rank s.run.definition ≤ turns i es) :
    ∃ w', (run step s es).workers[i]? = some w' ∧ w'.phase = .ended := by
  induction es generalizing s w with
  | nil =>
      refine ⟨w, hw, ?_⟩
      have hzero : w.phase.rank s.run.definition = 0 := Nat.le_zero.1 hturns
      cases hphase : w.phase with
      | ended => rfl
      | _ => simp [hphase, Phase.rank] at hzero
  | cons ev es ih =>
      have hrest : Survives es := fun e he => hsurvives e (List.mem_cons_of_mem _ he)
      rw [run_cons]
      by_cases hown : ∃ outcome, ev = .work i outcome
      · obtain ⟨outcome, rfl⟩ := hown
        have hlt : i < s.workers.length := (List.getElem?_eq_some_iff.1 hw).1
        have hnext : (step s (.work i outcome)).workers[i]? = some (work s.run w outcome).2 := by
          simp [step, hw, List.getElem?_set_self hlt]
        refine ih hnext hrest ?_
        rw [definition_step]
        have hcount : turns i (.work i outcome :: es) = turns i es + 1 := by
          simp [turns]
        rw [hcount] at hturns
        by_cases hended : w.phase = .ended
        · simp [work, hended, Phase.rank]
        · have hless := rank_work_lt s.run hended outcome
          omega
      · have hother : ∀ outcome, ev ≠ .work i outcome := fun outcome heq => hown ⟨outcome, heq⟩
        refine ih (worker_step hw (hsurvives ev List.mem_cons_self) hother) hrest ?_
        rw [definition_step]
        have hcount : turns i (ev :: es) = turns i es := by
          unfold turns
          rw [List.countP_cons_of_neg]
          cases ev with
          | work k outcome =>
              have hne : k ≠ i := fun heq => hother outcome (by rw [heq])
              simpa using hne
          | _ => simp
        rw [hcount] at hturns
        exact hturns

end Automations
end MpvmApp
