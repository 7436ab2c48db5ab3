import MpvmApp.Automations.Execution
import MpvmApp.Automations.Publication
import MpvmApp.Automations.Scheduler

/-!
# The deployment of runbooks

A run is started by a client, by a retry or by a tick of the scheduler, and it is resumed
after a restart.  Each of them reads the latest version or the run that was created from
it, while drafts are edited, published and deleted.

Main definitions:

- `Deployment`: the runbooks, the schedules, the runs and those who start them.
- `deploymentStep`: one transaction or one action of a worker.

Main results:

- Theorems `FitsWorkers.step` and `FitsWorkers.removedStep`: the workers of a run
  take their steps from its definition, also when the run is deleted under them.
-/

namespace MpvmApp
namespace Automations
namespace Publication

/-! ## Starting runs -/

/-- A row of `automation_runs` with the workers that execute it. -/
structure RunEntry extends RunRequest where
  version : Nat
  state : State
  /-- The row was deleted with its runbook. -/
  removed : Bool := false

/-- The row as the scheduler sees it. -/
def RunEntry.record (entry : RunEntry) : RunRecord :=
  { toRunRequest := entry.toRunRequest
    version := entry.version
    status := entry.state.run.status }

/-- A call of `start_run`, or the record of a skipped slot; its next action is named. -/
inductive Call where
  /-- The key is looked up. -/
  | looking (request : RunRequest)
  /-- The latest version is read and checked. -/
  | choosing (request : RunRequest)
  /-- The run is created. -/
  | creating (request : RunRequest) (version : VersionRow)
  /-- The runbook is read again. -/
  | labelling (i : Nat)
  /-- The run is submitted. -/
  | submitting (i : Nat)
  /-- The latest version is read for a slot that is skipped. -/
  | skipping (request : RunRequest)
  /-- The key of the skipped slot is looked up. -/
  | checking (request : RunRequest) (version : VersionRow)
  /-- The skipped slot is recorded. -/
  | recording (request : RunRequest) (version : VersionRow)
  | returned
  | raised

/-- A tick of the scheduler between two of its transactions. -/
inductive TickPhase where
  /-- The next schedule is taken. -/
  | next
  /-- A run is started for a schedule, or its slot is skipped. -/
  | calling (x : Schedule) (nextAt : Instant) (status : String) (call : Call)
  /-- The schedule is advanced. -/
  | advancing (x : Schedule) (nextAt : Instant) (status : String)
  | ended

/-- A tick with the schedules that it has still to handle. -/
structure Tick where
  env : TickEnv
  pending : List Schedule
  phase : TickPhase := .next

/-- Who starts runs. -/
inductive Party where
  | client (call : Call)
  | tick (tick : Tick)

/-- The tables of the deployment and what is under way in its process. -/
structure Deployment where
  registry : Registry := {}
  schedules : Table Schedule Schedule.scheduleId Schedule.scheduleId := .empty
  runs : List RunEntry := []
  parties : List Party := []

namespace Deployment

/-- `get_run_by_idempotency_key`. -/
def byKey? (s : Deployment) (key : RunKey) : Option RunEntry :=
  s.runs.find? fun entry => !entry.removed && decide (entry.key = some key)

/-- The tables that the scheduler reads. -/
def scheduler (s : Deployment) : SchedulerState where
  schedules := s.schedules
  versions := fun runbookId => (s.registry.latest? runbookId).map fun row =>
    { version := row.version
      destructive := isDestructive row.definition
      destructiveApproved := row.destructiveApproved }
  runs := (s.runs.filter fun entry => !entry.removed).map RunEntry.record

/-- A run that `create_run` inserts with a status. -/
def entryOf (request : RunRequest) (version : VersionRow) (status : RunStatus) : RunEntry where
  toRunRequest := request
  version := version.version
  state :=
    { run := (createRun version.definition request.dryRun).setStatus status
      starting := decide (status = .queued) }

/-- `create_run`, unless its key is used or its runbook or schedule is gone. -/
def createRun? (s : Deployment) (request : RunRequest) (version : VersionRow)
    (status : RunStatus) : Option Deployment :=
  if (s.registry.runbooks.find? request.runbookId).isNone then none
  else if request.scheduleId.any fun id => (s.schedules.find? id).isNone then none
  else if (request.key.bind s.byKey?).isSome then none
  else some { s with runs := s.runs ++ [entryOf request version status] }

/-- The next action of a call. -/
def callWork (s : Deployment) : Call → Deployment × Call
  | .looking request =>
      match (request.key.bind RunKey.lookup?).bind s.byKey? with
      | some replay => (s, if replay.record.sameRequest request then .returned else .raised)
      | none => (s, .choosing request)
  | .choosing request =>
      match s.registry.latest? request.runbookId with
      | none => (s, .raised)
      | some version =>
          if isDestructive version.definition && !version.destructiveApproved then (s, .raised)
          else (s, .creating request version)
  | .creating request version =>
      match s.createRun? request version .queued with
      | none => (s, .raised)
      | some s' => (s', .labelling s.runs.length)
  | .labelling i =>
      (s, if (s.runs[i]?).any fun entry => !entry.removed then .submitting i else .raised)
  | .submitting i =>
      ({ s with runs := s.runs.modify i fun entry =>
          { entry with state := step entry.state .submit } }, .returned)
  | .skipping request =>
      match s.registry.latest? request.runbookId with
      | none => (s, .returned)
      | some version => (s, .checking request version)
  | .checking request version =>
      match request.key.bind s.byKey? with
      | some _ => (s, .returned)
      | none => (s, .recording request version)
  | .recording request version =>
      match s.createRun? request version .skipped with
      | none => (s, .raised)
      | some s' => (s', .returned)
  | .returned => (s, .returned)
  | .raised => (s, .raised)

/-- The phase of a tick after an action of its call. -/
def afterCall (x : Schedule) (nextAt : Instant) (status : String) : Call → TickPhase
  | .returned => .advancing x nextAt status
  | .raised => .ended
  | call => .calling x nextAt status call

/-- The next action of a tick. -/
def tickWork (cfg : SchedulerSettings) (s : Deployment) (tick : Tick) : Deployment × Tick :=
  match tick.phase with
  | .next =>
      match tick.pending with
      | [] => (s, { tick with phase := .ended })
      | x :: xs =>
          match cfg.next x.cron x.timezone tick.env.now with
          | none => (s, { tick with phase := .ended })
          | some nextAt =>
              match skipReason cfg tick.env s.scheduler x with
              | some reason =>
                  (s, { tick with
                    pending := xs
                    phase := .calling x nextAt ("skipped:" ++ reason) (.skipping x.request) })
              | none =>
                  (s, { tick with
                    pending := xs
                    phase := .calling x nextAt "queued" (.looking x.request) })
  | .calling x nextAt status call =>
      ((s.callWork call).1, { tick with phase := afterCall x nextAt status (s.callWork call).2 })
  | .advancing x nextAt status =>
      ({ s with schedules := (advance s.scheduler x nextAt status).schedules },
        { tick with phase := .next })
  | .ended => (s, tick)

/-- The next action of one who starts runs; an error of the database ends it. -/
def partyWork (cfg : SchedulerSettings) (s : Deployment) (fails : Bool) :
    Party → Deployment × Party
  | .client call =>
      if fails then (s, .client .raised)
      else ((s.callWork call).1, .client (s.callWork call).2)
  | .tick tick =>
      if fails then (s, .tick { tick with phase := .ended })
      else ((s.tickWork cfg tick).1, .tick (s.tickWork cfg tick).2)

end Deployment

/-! ## The deployment -/

/-- An action of a worker whose run is deleted; it stops when it reads the run again. -/
def removedWork (run : Run) (w : Worker) (outcome : Outcome) : Worker :=
  match w.phase with
  | .submitted => { w with phase := .ended }
  | .atStep index =>
      if (run.definition.steps[index]?).isSome && !w.hasCompleted index then
        { w with phase := .ended }
      else (work run w outcome).2
  | _ => (work run w outcome).2

/-- One step of a run that is deleted: nothing is stored, and its workers keep their copy. -/
def removedStep (s : State) : Event → State
  | .work i outcome =>
      match s.workers[i]? with
      | none => s
      | some w => { s with workers := s.workers.set i (removedWork s.run w outcome) }
  | .read j =>
      match s.recoveries[j]? with
      | some .selected => { s with recoveries := s.recoveries.set j .handled }
      | _ => s
  | .recover j =>
      match s.recoveries[j]? with
      | some (.read cancelRequested interrupted) =>
          let s' := { s with recoveries := s.recoveries.set j .handled }
          if cancelRequested || interrupted then s'
          else { s' with workers := s.workers ++ [submitted] }
      | _ => s
  | .submit => step s .submit
  | .crash => step s .crash
  | .cancel | .select => s

/-- A deployment without runbooks. -/
def emptyDeployment : Deployment where

/-- What happens in the deployment. -/
inductive DeploymentEvent where
  /-- A runbook is created, cloned, edited, published or deleted. -/
  | registry (ev : RegistryEvent)
  | createSchedule (scheduleId runbookId cron timezone : String) (enabled : Bool) (now : Instant)
  | editSchedule (scheduleId cron timezone : String) (enabled : Bool) (now : Instant)
  | deleteSchedule (scheduleId : String)
  /-- A client calls `start_run`, or has a run retried. -/
  | start (runbookId : String) (dryRun : Bool) (trigger : Trigger) (key : Option String)
  /-- A tick reads the schedules that are due. -/
  | tick (env : TickEnv)
  /-- The one who starts runs at a position takes an action. -/
  | party (j : Nat) (fails : Bool)
  /-- A worker or a recovery of a run acts, or an operator requests its cancellation. -/
  | run (i : Nat) (ev : Event)
  /-- The process dies. -/
  | crash

/-- A step of a run that no call submits and no crash interrupts. -/
def RunEntry.step (entry : RunEntry) : Event → RunEntry
  | .submit | .crash => entry
  | ev =>
      { entry with
        state := if entry.removed then removedStep entry.state ev
          else Automations.step entry.state ev }

/-- One step of the deployment. -/
def deploymentStep (t : CharTables) (cfg : SchedulerSettings) (s : Deployment) :
    DeploymentEvent → Deployment
  | .registry (.delete runbookId) =>
      { s with
        registry := s.registry.delete runbookId
        schedules := s.schedules.filterRows fun x => decide (x.runbookId ≠ runbookId)
        runs := s.runs.map fun entry =>
          { entry with removed := entry.removed || decide (entry.runbookId = runbookId) } }
  | .registry ev => { s with registry := registryStep t s.registry ev }
  | .createSchedule scheduleId runbookId cron timezone enabled now =>
      { s with
        schedules :=
          (createSchedule cfg s.scheduler scheduleId runbookId cron timezone enabled now).schedules }
  | .editSchedule scheduleId cron timezone enabled now =>
      { s with
        schedules := (editSchedule cfg s.scheduler scheduleId cron timezone enabled now).schedules }
  | .deleteSchedule scheduleId =>
      { s with
        schedules := s.schedules.filterRows fun x => decide (x.scheduleId ≠ scheduleId)
        runs := s.runs.map fun entry =>
          { entry with scheduleId := entry.scheduleId.filter fun id => decide (id ≠ scheduleId) } }
  | .start runbookId dryRun trigger key =>
      { s with
        parties := s.parties ++
          [.client (.looking
            { runbookId := runbookId
              dryRun := dryRun
              trigger := trigger
              key := key.map .client })] }
  | .tick env =>
      { s with
        parties := s.parties ++
          [.tick
            { env := env
              pending := (s.scheduler.dueSchedules env.now).take dueLimit }] }
  | .party j fails =>
      match s.parties[j]? with
      | none => s
      | some party =>
          { (s.partyWork cfg fails party).1 with
            parties := s.parties.set j (s.partyWork cfg fails party).2 }
  | .run i ev => { s with runs := s.runs.modify i fun entry => entry.step ev }
  | .crash =>
      { s with
        registry := registryStep t s.registry .crash
        runs := s.runs.map fun entry => { entry with state := step entry.state .crash }
        parties := [] }

/-! ## Workers execute the definition of their run -/

/-- The step that a worker has reached is the one at its index. -/
def FitsPhase (definition : Definition) : Phase → Prop
  | .attempting index step _ | .marking index step _ | .ready index step _
  | .invoked index step _ | .storing index step _ | .failing index step =>
      definition.steps[index]? = some step
  | _ => True

section Workers

variable {definition : Definition}

theorem fitsPhase_afterAttempt {index : Nat} {step : StepDefinition} {attempt : Nat}
    (h : definition.steps[index]? = some step) (outcome : Outcome) :
    FitsPhase definition (afterAttempt index step attempt outcome) := by
  cases outcome with
  | completed output => exact h
  | cancelled => trivial
  | raised message =>
      simp only [afterAttempt]
      split_ifs
      · exact h
      · trivial
      · exact h

/-- An action of a worker takes the next step from the definition of the run. -/
theorem fitsPhase_work {run : Run} {w : Worker} (h : FitsPhase run.definition w.phase)
    (outcome : Outcome) :
    FitsPhase run.definition (work run w outcome).2.phase := by
  cases hphase : w.phase with
  | atStep index =>
      simp only [work, hphase]
      split
      · trivial
      · rename_i hstep
        split_ifs
        · trivial
        · trivial
        · exact hstep
        · trivial
  | invoked index step attempt =>
      rw [hphase] at h
      simp only [work, hphase]
      exact fitsPhase_afterAttempt h outcome
  | ready index step attempt =>
      rw [hphase] at h
      simp only [work, hphase]
      split <;> exact h
  | failing index step =>
      simp only [work, hphase]
      split <;> trivial
  | attempting index step attempt | marking index step attempt =>
      rw [hphase] at h
      simp only [work, hphase]
      exact h
  | submitted | loaded | cancellingStep | skipping | storing | finishing | ended =>
      simp only [work, hphase, FitsPhase]

theorem fitsPhase_removedWork {run : Run} {w : Worker} (h : FitsPhase run.definition w.phase)
    (outcome : Outcome) :
    FitsPhase run.definition (removedWork run w outcome).phase := by
  unfold removedWork
  split
  · trivial
  · split
    · trivial
    · exact fitsPhase_work h outcome
  · exact fitsPhase_work h outcome

/-- The workers of a run execute its definition. -/
def FitsWorkers (s : State) : Prop :=
  ∀ w ∈ s.workers, FitsPhase s.run.definition w.phase

variable {s : State}

theorem FitsWorkers.append_submitted (h : FitsWorkers s) :
    ∀ w ∈ s.workers ++ [submitted], FitsPhase s.run.definition w.phase := by
  intro w hw
  rcases List.mem_append.1 hw with hold | hnew
  · exact h w hold
  · obtain rfl := List.mem_singleton.1 hnew
    trivial

theorem FitsWorkers.set (h : FitsWorkers s) (i : Nat) {w : Worker}
    (hw : FitsPhase s.run.definition w.phase) :
    ∀ w' ∈ s.workers.set i w, FitsPhase s.run.definition w'.phase := by
  intro w' hw'
  rcases List.mem_or_eq_of_mem_set hw' with hold | rfl
  · exact h w' hold
  · exact hw

/-- One step of a run keeps its workers on its definition. -/
theorem FitsWorkers.step (h : FitsWorkers s) (ev : Event) :
    FitsWorkers (Automations.step s ev) := by
  unfold FitsWorkers
  rw [definition_step]
  cases ev with
  | submit =>
      simp only [Automations.step]
      split
      · exact h.append_submitted
      · exact h
  | work i outcome =>
      simp only [Automations.step]
      split
      · exact h
      · rename_i w hw
        exact h.set i (fitsPhase_work (h w (List.mem_of_getElem? hw)) outcome)
  | cancel =>
      simp only [Automations.step]
      split <;> exact h
  | select =>
      simp only [Automations.step]
      split <;> exact h
  | read j =>
      simp only [Automations.step]
      split <;> exact h
  | recover j =>
      simp only [Automations.step]
      split
      · split_ifs
        · exact h
        · exact h
        · exact h.append_submitted
      · exact h
  | crash => exact fun w hw => absurd hw List.not_mem_nil

theorem run_removedStep (ev : Event) :
    (removedStep s ev).run = s.run := by
  cases ev with
  | submit =>
      simp only [removedStep, Automations.step]
      split <;> rfl
  | work i outcome =>
      simp only [removedStep]
      split <;> rfl
  | read j =>
      simp only [removedStep]
      split <;> rfl
  | recover j =>
      simp only [removedStep]
      split
      · split <;> rfl
      · rfl
  | cancel | select | crash => rfl

/-- One step of a deleted run keeps its workers on their copy of its definition. -/
theorem FitsWorkers.removedStep (h : FitsWorkers s) (ev : Event) :
    FitsWorkers (Publication.removedStep s ev) := by
  cases ev with
  | submit => exact h.step .submit
  | crash => exact h.step .crash
  | work i outcome =>
      unfold FitsWorkers
      rw [run_removedStep]
      simp only [Publication.removedStep]
      split
      · exact h
      · rename_i w hw
        exact h.set i (fitsPhase_removedWork (h w (List.mem_of_getElem? hw)) outcome)
  | read j =>
      simp only [Publication.removedStep]
      split <;> exact h
  | recover j =>
      simp only [Publication.removedStep]
      split
      · split
        · exact h
        · exact h.append_submitted
      · exact h
  | cancel | select => exact h

end Workers

end Publication
end Automations
end MpvmApp
