import MpvmApp.Automations.Resume

/-!
# The progress of a run

A run has come to a step when the steps before it have ended as they end without a
restart.  The rows of these steps tell a worker what it has to know to go on; a worker
that reads them back passes over them and stands before the same step.

Main definitions:

- `RowsAt`: the rows of a run that has come to a step.
- `WorkerAt`: what is known of its worker at every point of the loop.
- `Progress`: a run that has come to a step as it does without restarts.

Main results:

- Theorem `RowsAt.outputs`: the rows give the context of the next step back.
- Theorem `Progress.work`: every action of a worker keeps the progress of its run.
-/

namespace MpvmApp
namespace Automations

open Runs

/-! ## Rows of a run that has come to a step -/

/-- The row of a step tells how the step has ended. -/
def Fits (row : StepRow) (stepEnd : StepEnd) : Prop :=
  row.status = stepEnd.status ∧ ∀ output, stepEnd = .completed output → row.output = output

/-- The status of a step that has to be carried out, possibly again. -/
def StepStatus.isOpen : StepStatus → Bool
  | .pending | .failed | .cancelled => true
  | _ => false

/-- The row at an index has a status with a property, if there is one. -/
def Front (rows : List StepRow) (index : Nat) (status : StepStatus → Prop) : Prop :=
  ∀ row, rows[index]? = some row → status row.status

/-- The rows of a run whose steps have ended up to an index, as they end without a restart. -/
structure RowsAt (c : Scenario) (rows : List StepRow) (front : Nat) : Prop where
  ids : rows.map StepRow.stepId = c.definition.steps.map StepDefinition.stepId
  bound : front ≤ c.definition.steps.length
  settled : ∀ j < front, ∀ row, rows[j]? = some row → ∀ stepEnd, c.endAt j = some stepEnd →
    Fits row stepEnd
  passed : ∀ j < front, ∀ stepEnd, c.endAt j = some stepEnd → stepEnd.stops = false
  pending : ∀ j, front < j → Front rows j fun status => status = .pending

section Rows

variable {c : Scenario} {rows : List StepRow} {front : Nat}

theorem RowsAt.length (h : RowsAt c rows front) :
    rows.length = c.definition.steps.length := by
  simpa using congrArg List.length h.ids

theorem endAt_of_step {index : Nat} {step : StepDefinition}
    (h : c.definition.steps[index]? = some step) :
    c.endAt index = some (c.stepEnd index step (c.contextAt index)) := by
  simp [Scenario.endAt, h]

theorem contextAt_succ {index : Nat} {step : StepDefinition} {stepEnd : StepEnd}
    (h : c.definition.steps[index]? = some step) (hend : c.endAt index = some stepEnd) :
    c.contextAt (index + 1) = stepEnd.extend step.stepId (c.contextAt index) := by
  rw [endAt_of_step h, Option.some.injEq] at hend
  simp [Scenario.contextAt, h, hend]

theorem warningsAt_succ (index : Nat) :
    c.warningsAt (index + 1) = c.warningsAt index + if c.warnsAt index then 1 else 0 := by
  simp [Scenario.warningsAt, List.range_succ, List.countP_append, List.countP_cons]

theorem RowsAt.stepId (h : RowsAt c rows front) {j : Nat} {row : StepRow} {step : StepDefinition}
    (hrow : rows[j]? = some row) (hstep : c.definition.steps[j]? = some step) :
    row.stepId = step.stepId := by
  have hids := congrArg (fun ids => ids[j]?) h.ids
  simpa [hrow, hstep] using hids

theorem RowsAt.exists_step (h : RowsAt c rows front) {j : Nat} {row : StepRow}
    (hrow : rows[j]? = some row) :
    ∃ step, c.definition.steps[j]? = some step := by
  have hlt : j < c.definition.steps.length :=
    h.length ▸ (List.getElem?_eq_some_iff.1 hrow).1
  exact ⟨_, List.getElem?_eq_getElem hlt⟩

theorem RowsAt.exists_row (h : RowsAt c rows front) {j : Nat} {step : StepDefinition}
    (hstep : c.definition.steps[j]? = some step) :
    ∃ row, rows[j]? = some row := by
  have hlt : j < rows.length := h.length ▸ (List.getElem?_eq_some_iff.1 hstep).1
  exact ⟨_, List.getElem?_eq_getElem hlt⟩

theorem completedOutputs_snoc (rows : List StepRow) (row : StepRow) :
    completedOutputs (rows ++ [row]) =
      (if row.isCompleted then [(row.stepId, row.output)] else []) ++ completedOutputs rows := by
  unfold completedOutputs
  cases hcompleted : row.isCompleted <;> simp [hcompleted]

/-- The outputs of the first rows are the context in which the next step was begun. -/
theorem RowsAt.outputs_take (h : RowsAt c rows front) {j : Nat} (hj : j ≤ front) :
    completedOutputs (rows.take j) = c.contextAt j := by
  induction j with
  | zero => rfl
  | succ j ih =>
      have hlt : j < rows.length := by
        have hbound := h.bound
        rw [h.length]
        omega
      have hrow : rows[j]? = some rows[j] := List.getElem?_eq_getElem hlt
      obtain ⟨step, hstep⟩ := h.exists_step hrow
      have hend := endAt_of_step hstep
      obtain ⟨hstatus, houtput⟩ := h.settled j (by omega) _ hrow _ hend
      have hid := h.stepId hrow hstep
      rw [List.take_succ_eq_append_getElem hlt, completedOutputs_snoc, ih (by omega),
        contextAt_succ hstep hend]
      cases hstepEnd : c.stepEnd j step (c.contextAt j) with
      | completed output =>
          rw [hstepEnd] at hstatus houtput
          have hcompleted : rows[j].isCompleted = true := decide_eq_true hstatus
          rw [hcompleted, hid, houtput output rfl]
          rfl
      | skipped | warning | failed | cancelled | unsettled =>
          rw [hstepEnd] at hstatus
          have hopen : rows[j].isCompleted = false := by
            simp [StepRow.isCompleted, hstatus, StepEnd.status]
          rw [hopen]
          rfl

/-- A worker reads the context of the next step back from the rows. -/
theorem RowsAt.outputs (h : RowsAt c rows front)
    (hfront : Front rows front fun status => status ≠ .completed) :
    completedOutputs rows = c.contextAt front := by
  have hrest : (rows.drop front).filter StepRow.isCompleted = [] := by
    rw [List.filter_eq_nil_iff]
    intro row hrow hcompleted
    obtain ⟨k, hk⟩ := List.mem_iff_getElem?.1 hrow
    rw [List.getElem?_drop] at hk
    have hstatus : row.status = .completed := of_decide_eq_true hcompleted
    rcases Nat.eq_zero_or_pos k with rfl | hpos
    · exact hfront row hk hstatus
    · have hpending := h.pending (front + k) (by omega) row hk
      rw [hpending] at hstatus
      cases hstatus
  rw [← h.outputs_take (Nat.le_refl front)]
  unfold completedOutputs
  conv_lhs => rw [← List.take_append_drop front rows, List.filter_append, hrest, List.append_nil]

/-- The worker tells the completed steps from the others. -/
theorem RowsAt.hasCompleted_iff (h : RowsAt c rows front)
    (hfront : Front rows front fun status => status ≠ .completed) {w : Worker}
    (hw : w.persisted = rows) (j : Nat) :
    w.hasCompleted j = true ↔ j < front ∧ ∃ output, c.endAt j = some (.completed output) := by
  simp only [Worker.hasCompleted, hw, Option.any_eq_true]
  constructor
  · rintro ⟨row, hrow, hcompleted⟩
    have hstatus : row.status = .completed := of_decide_eq_true hcompleted
    rcases Nat.lt_trichotomy j front with hlt | rfl | hgt
    · obtain ⟨step, hstep⟩ := h.exists_step hrow
      have hend := endAt_of_step hstep
      obtain ⟨hsame, _⟩ := h.settled j hlt row hrow _ hend
      refine ⟨hlt, ?_⟩
      rw [hstatus] at hsame
      rw [hend]
      cases hstepEnd : c.stepEnd j step (c.contextAt j) with
      | completed output => exact ⟨output, rfl⟩
      | skipped | warning | failed | cancelled | unsettled =>
          rw [hstepEnd] at hsame
          cases hsame
    · exact absurd hstatus (hfront row hrow)
    · have hpending := h.pending j hgt row hrow
      rw [hpending] at hstatus
      cases hstatus
  · rintro ⟨hlt, output, hend⟩
    have hstep : ∃ step, c.definition.steps[j]? = some step :=
      ⟨_, List.getElem?_eq_getElem (Nat.lt_of_lt_of_le hlt h.bound)⟩
    obtain ⟨step, hstep⟩ := hstep
    obtain ⟨row, hrow⟩ := h.exists_row hstep
    obtain ⟨hstatus, _⟩ := h.settled j hlt row hrow _ hend
    exact ⟨row, hrow, decide_eq_true hstatus⟩

/-- The row of the step that is under way changes. -/
theorem RowsAt.modify (h : RowsAt c rows front) {index : Nat} {f : StepRow → StepRow}
    (hid : ∀ row, (f row).stepId = row.stepId)
    (hindex : index = front ∨ index < front ∧ ∀ row stepEnd, rows[index]? = some row →
      c.endAt index = some stepEnd → Fits (f row) stepEnd) :
    RowsAt c (rows.modify index f) front := by
  refine ⟨?_, h.bound, ?_, h.passed, ?_⟩
  · rw [← h.ids]
    apply List.ext_getElem?
    intro j
    simp only [List.getElem?_map, List.getElem?_modify]
    cases rows[j]? with
    | none => rfl
    | some row =>
        by_cases hij : index = j <;> simp [hij, hid]
  · intro j hj row hrow stepEnd hend
    rw [List.getElem?_modify] at hrow
    obtain ⟨old, hold, rfl⟩ := Option.map_eq_some_iff.1 hrow
    by_cases hij : index = j
    · subst hij
      rcases hindex with rfl | ⟨_, hfits⟩
      · omega
      · simpa using hfits old stepEnd hold hend
    · simpa [hij] using h.settled j hj old hold stepEnd hend
  · intro j hj row hrow
    rw [List.getElem?_modify] at hrow
    obtain ⟨old, hold, rfl⟩ := Option.map_eq_some_iff.1 hrow
    have hij : index ≠ j := by
      rcases hindex with rfl | ⟨hlt, _⟩ <;> omega
    simpa [hij] using h.pending j hj old hold

/-- The step under way has ended, and the next one is begun. -/
theorem RowsAt.succ (h : RowsAt c rows front) {stepEnd : StepEnd}
    (hend : c.endAt front = some stepEnd) (hstops : stepEnd.stops = false)
    (hfits : ∀ row, rows[front]? = some row → Fits row stepEnd) :
    RowsAt c rows (front + 1) := by
  refine ⟨h.ids, ?_, ?_, ?_, ?_⟩
  · obtain ⟨step, hstep, _⟩ := Option.map_eq_some_iff.1 hend
    exact (List.getElem?_eq_some_iff.1 hstep).1
  · intro j hj row hrow stepEnd' hend'
    rcases Nat.lt_succ_iff_lt_or_eq.1 hj with hlt | rfl
    · exact h.settled j hlt row hrow stepEnd' hend'
    · rw [hend, Option.some.injEq] at hend'
      exact hend' ▸ hfits row hrow
  · intro j hj stepEnd' hend'
    rcases Nat.lt_succ_iff_lt_or_eq.1 hj with hlt | rfl
    · exact h.passed j hlt stepEnd' hend'
    · rw [hend, Option.some.injEq] at hend'
      exact hend' ▸ hstops
  · intro j hj
    exact h.pending j (by omega)

theorem RowsAt.front_succ (h : RowsAt c rows front) :
    Front rows (front + 1) fun status => status.isOpen = true := by
  intro row hrow
  rw [h.pending (front + 1) (Nat.lt_succ_self front) row hrow]
  rfl

end Rows

/-! ## Workers of a run that has come to a step -/

/-- A worker passes over the steps before an index without carrying one out. -/
def Replays (c : Scenario) (front : Nat) : Prop :=
  ∀ j < front, ∀ step, c.definition.steps[j]? = some step →
    (∃ output, c.endAt j = some (.completed output)) ∨
      c.endAt j = some .skipped ∧ conditionMatches step.condition (c.contextAt front) = false

/-- The worker knows what a worker knows that was never interrupted. -/
structure Live (c : Scenario) (front : Nat) (w : Worker) : Prop where
  context : w.context = c.contextAt front
  warnings : w.warnings = c.warningsAt front
  fresh : ∀ j, front ≤ j → w.hasCompleted j = false

/-- The worker stands before the step at an index; it may have to pass over steps again. -/
structure Before (c : Scenario) (front index : Nat) (w : Worker) : Prop extends
    Live c front w where
  le : index ≤ front
  replays : index < front → Replays c front
  knows : index < front → ∀ j < front,
    (w.hasCompleted j = true ↔ ∃ output, c.endAt j = some (.completed output))

/-- The worker makes an attempt of the step at the front. -/
structure Trying (c : Scenario) (front : Nat) (w : Worker) (index : Nat) (step : StepDefinition)
    (attempt : Nat) : Prop extends Live c front w where
  atFront : index = front
  isStep : c.definition.steps[front]? = some step
  bounds : 1 ≤ attempt ∧ attempt ≤ step.maxRetries + 1
  ends : c.endAt front = some
    (if c.dryRun then .completed (plannedOutput step)
    else c.settle front step (c.contextAt front) (step.maxRetries + 1 - attempt) attempt)

/-- The worker stores how the step at the front has ended. -/
structure Reached (c : Scenario) (front : Nat) (w : Worker) (index : Nat)
    (stepEnd : StepEnd) : Prop extends Live c front w where
  atFront : index = front
  ends : c.endAt front = some stepEnd

/-- The final status of a run that has come to a step, or to its end. -/
def Verdict (c : Scenario) (front : Nat) : Ending → Prop
  | .completed => front = c.definition.steps.length ∧ c.warningsAt front = 0
  | .completedWithWarnings => front = c.definition.steps.length ∧ c.warningsAt front ≠ 0
  | .failed => c.endAt front = some .failed
  | .cancelled => c.endAt front = some .cancelled

/-- What is known of a worker and of the row of the step at the front. -/
def WorkerAt (c : Scenario) (run : Run) (front : Nat) (w : Worker) : Prop :=
  let isOpen := Front run.steps front fun status => status.isOpen = true
  let isRunning := Front run.steps front fun status => status = .running
  match w.phase with
  | .submitted => isOpen ∧ Replays c front ∧ w.warnings = 0
  | .loaded => isOpen ∧ Before c front 0 w
  | .atStep index => isOpen ∧ Before c front index w
  | .skipping index => isOpen ∧ Before c front index w ∧ c.endAt index = some .skipped
  | .attempting index step attempt | .marking index step attempt =>
      (if attempt = 1 then isOpen else isRunning) ∧ Trying c front w index step attempt
  | .ready index step attempt => isRunning ∧ Trying c front w index step attempt
  | .invoked index step attempt =>
      c.dryRun = false ∧ isRunning ∧ Trying c front w index step attempt
  | .storing index step output =>
      isRunning ∧ Reached c front w index (.completed output) ∧
        c.definition.steps[front]? = some step
  | .failing index step =>
      isRunning ∧ Reached c front w index
        (match step.onError with
          | .proceed => .warning
          | .stop => .failed)
  | .cancellingStep index => isRunning ∧ Reached c front w index .cancelled
  | .finishing ending => isOpen ∧ Verdict c front ending ∧ w.warnings = c.warningsAt front
  | .ended => ∃ ending, Verdict c front ending ∧ run.status = ending.status ∧
      w.warnings = c.warningsAt front

/-- A run that has come to a step as it does without restarts. -/
structure Progress (c : Scenario) (s : Execution) (front : Nat) : Prop where
  definition : s.run.definition = c.definition
  dryRun : s.run.dryRun = c.dryRun
  notRequested : s.run.cancelRequested = false
  rows : RowsAt c s.run.steps front
  idle : s.worker = none → s.run.status.isActive = false
  worker : ∀ w, s.worker = some w → WorkerAt c s.run front w

section Worker

variable {c : Scenario} {front : Nat}

theorem Replays.warningsAt (h : Replays c front) (hbound : front ≤ c.definition.steps.length) :
    c.warningsAt front = 0 := by
  unfold Scenario.warningsAt
  rw [List.countP_eq_zero]
  intro j hj
  have hlt : j < front := List.mem_range.1 hj
  have hstep := List.getElem?_eq_getElem (Nat.lt_of_lt_of_le hlt hbound)
  rcases h j hlt _ hstep with ⟨output, hend⟩ | ⟨hend, _⟩
  · simp [Scenario.warnsAt, hend]
  · simp [Scenario.warnsAt, hend]

theorem Before.next {index : Nat} {w : Worker} (h : Before c front index w)
    (hlt : index < front) (phase : Phase) :
    Before c front (index + 1) { w with phase := phase } where
  context := h.context
  warnings := h.warnings
  fresh := h.fresh
  le := hlt
  replays := fun hnext => h.replays (by omega)
  knows := fun hnext => h.knows (by omega)

theorem Before.of_live {w : Worker} (h : Live c front w) :
    Before c front front w where
  context := h.context
  warnings := h.warnings
  fresh := h.fresh
  le := Nat.le_refl front
  replays := fun hlt => absurd hlt (Nat.lt_irrefl front)
  knows := fun hlt => absurd hlt (Nat.lt_irrefl front)

theorem Live.succ {w : Worker} (h : Live c front w) {stepEnd : StepEnd}
    (hend : c.endAt front = some stepEnd) {context : Context} {warnings : Nat}
    (hcontext : ∀ step, c.definition.steps[front]? = some step →
      context = stepEnd.extend step.stepId w.context)
    (hwarnings : warnings = w.warnings + if c.warnsAt front then 1 else 0) (phase : Phase) :
    Live c (front + 1)
      { w with
        phase := phase
        context := context
        warnings := warnings } where
  context := by
    obtain ⟨step, hstep, _⟩ := Option.map_eq_some_iff.1 hend
    rw [contextAt_succ hstep hend, ← h.context]
    exact hcontext step hstep
  warnings := by
    rw [warningsAt_succ, ← h.warnings]
    exact hwarnings
  fresh := fun j hj => h.fresh j (by omega)

end Worker

/-! ## Actions of a worker -/

section Action

variable {c : Scenario} {s : Execution} {front : Nat} {w : Worker}

theorem front_setStepStatus_self (run : Run) (index : Nat) (status : StepStatus)
    (output : Option Output) :
    Front (run.setStepStatus index status output).steps index fun st => st = status := by
  intro row hrow
  simp only [Run.setStepStatus, List.getElem?_modify] at hrow
  obtain ⟨old, _, rfl⟩ := Option.map_eq_some_iff.1 hrow
  simp

theorem front_setStepStatus_of_ne (run : Run) {index j : Nat} (hne : index ≠ j)
    (status : StepStatus) (output : Option Output) {p : StepStatus → Prop}
    (h : Front run.steps j p) :
    Front (run.setStepStatus index status output).steps j p := by
  intro row hrow
  simp only [Run.setStepStatus, List.getElem?_modify] at hrow
  obtain ⟨old, hold, rfl⟩ := Option.map_eq_some_iff.1 hrow
  simpa [hne] using h old hold

theorem RowsAt.setStepStatus {run : Run} (h : RowsAt c run.steps front) (status : StepStatus)
    (output : Option Output) :
    RowsAt c (run.setStepStatus front status output).steps front :=
  h.modify (fun _ => rfl) (.inl rfl)

theorem RowsAt.store {run : Run} (h : RowsAt c run.steps front) {stepEnd : StepEnd}
    (hend : c.endAt front = some stepEnd) (hstops : stepEnd.stops = false)
    {output : Option Output} (houtput : ∀ o, stepEnd = .completed o → output = some o) :
    RowsAt c (run.setStepStatus front stepEnd.status output).steps (front + 1) := by
  refine (h.setStepStatus stepEnd.status output).succ hend hstops ?_
  intro row hrow
  simp only [Run.setStepStatus, List.getElem?_modify] at hrow
  obtain ⟨old, _, rfl⟩ := Option.map_eq_some_iff.1 hrow
  refine ⟨by simp, ?_⟩
  intro o ho
  simp [houtput o ho]

theorem Progress.of_work {front' : Nat} (h : Progress c s front)
    {outcome : Outcome} (hrows : RowsAt c (work s.run w outcome).1.steps front')
    (hworker : WorkerAt c (work s.run w outcome).1 front' (work s.run w outcome).2) :
    Progress c
      { run := (work s.run w outcome).1
        worker := some (work s.run w outcome).2 } front' where
  definition := (definition_work _ _ _).trans h.definition
  dryRun := (dryRun_work _ _ _).trans h.dryRun
  notRequested := (cancelRequested_work _ _ _).trans h.notRequested
  rows := hrows
  idle := fun hnone => by cases hnone
  worker := fun w' hw' => by
    cases hw'
    exact hworker

/-- The worker reads the run. -/
theorem Progress.work_submitted (h : Progress c s front) (hphase : w.phase = .submitted)
    (hat : WorkerAt c s.run front w) (outcome : Outcome) :
    Progress c
      { run := (work s.run w outcome).1
        worker := some (work s.run w outcome).2 } front := by
  simp only [WorkerAt, hphase] at hat
  obtain ⟨hopen, hreplays, hwarnings⟩ := hat
  have hfront : Front s.run.steps front fun status => status ≠ .completed := by
    intro row hrow hcompleted
    have hrowOpen := hopen row hrow
    rw [hcompleted] at hrowOpen
    cases hrowOpen
  refine h.of_work ?_ ?_
  · simp only [work, hphase]
    exact h.rows
  · simp only [work, hphase, WorkerAt]
    refine ⟨hopen, ?_⟩
    have hknows := fun j => h.rows.hasCompleted_iff hfront
      (w := { w with phase := .loaded, persisted := s.run.steps,
                     context := completedOutputs s.run.steps }) rfl j
    refine ⟨⟨h.rows.outputs hfront, ?_, ?_⟩, Nat.zero_le front, fun _ => hreplays, ?_⟩
    · rw [hreplays.warningsAt h.rows.bound]
      exact hwarnings
    · intro j hj
      rw [← Bool.not_eq_true, hknows]
      rintro ⟨hlt, _⟩
      omega
    · intro _ j hj
      rw [hknows]
      exact and_iff_right hj

/-- The worker begins a step, or it finishes the run after the last one. -/
theorem Progress.work_atStep (h : Progress c s front) {index : Nat}
    (hphase : w.phase = .atStep index) (hat : WorkerAt c s.run front w) (outcome : Outcome) :
    Progress c
      { run := (work s.run w outcome).1
        worker := some (work s.run w outcome).2 } front := by
  simp only [WorkerAt, hphase] at hat
  obtain ⟨hopen, hbefore⟩ := hat
  have hle := hbefore.le
  have hbound := h.rows.bound
  refine h.of_work ?_ ?_
  · simp only [work, hphase]
    split
    · exact h.rows
    · split_ifs <;> exact h.rows
  · simp only [work, hphase, h.definition, h.notRequested]
    split
    · rename_i hnone
      have hlength := List.getElem?_eq_none_iff.1 hnone
      have hlast : front = c.definition.steps.length := by omega
      refine ⟨hopen, ?_, hbefore.warnings⟩
      rw [hbefore.warnings]
      by_cases hzero : c.warningsAt front = 0
      · rw [if_pos hzero]
        exact ⟨hlast, hzero⟩
      · rw [if_neg hzero]
        exact ⟨hlast, hzero⟩
    · rename_i step hstep
      split
      · rename_i hcompleted
        have hlt : index < front := by
          by_contra hge
          rw [hbefore.fresh index (by omega)] at hcompleted
          cases hcompleted
        exact ⟨hopen, hbefore.next hlt _⟩
      · rename_i hcompleted
        rw [if_neg (by simp)]
        split
        · rename_i hmatches
          -- A step that is passed over is completed, or its condition does not match.
          have hlast : index = front := by
            by_contra hne
            have hlt : index < front := by omega
            rcases hbefore.replays hlt index hlt step hstep with hend | ⟨_, hnot⟩
            · exact hcompleted ((hbefore.knows hlt index hlt).2 hend)
            · rw [hbefore.context, hnot] at hmatches
              cases hmatches
          subst hlast
          refine ⟨hopen, ⟨hbefore.context, hbefore.warnings, hbefore.fresh⟩, rfl, hstep,
            ⟨Nat.le_refl 1, by omega⟩, ?_⟩
          rw [endAt_of_step hstep]
          rw [hbefore.context] at hmatches
          simp [Scenario.stepEnd, hmatches]
        · rename_i hnot
          refine ⟨hopen, ⟨⟨hbefore.context, hbefore.warnings, hbefore.fresh⟩, hle,
            hbefore.replays, hbefore.knows⟩, ?_⟩
          rcases Nat.lt_or_ge index front with hlt | hge
          · rcases hbefore.replays hlt index hlt step hstep with hend | ⟨hend, _⟩
            · exact absurd ((hbefore.knows hlt index hlt).2 hend) hcompleted
            · exact hend
          · have hlast : index = front := by omega
            subst hlast
            rw [endAt_of_step hstep]
            rw [hbefore.context] at hnot
            simp [Scenario.stepEnd, hnot]

/-- The step at an index is stored as skipped. -/
theorem Progress.work_skipping (h : Progress c s front) {index : Nat}
    (hphase : w.phase = .skipping index) (hat : WorkerAt c s.run front w) (outcome : Outcome) :
    ∃ front', Progress c
      { run := (work s.run w outcome).1
        worker := some (work s.run w outcome).2 } front' := by
  simp only [WorkerAt, hphase] at hat
  obtain ⟨hopen, hbefore, hend⟩ := hat
  rcases Nat.lt_or_ge index front with hlt | hge
  · -- A step that was skipped before is stored as skipped again.
    refine ⟨front, h.of_work ?_ ?_⟩
    · simp only [work, hphase]
      refine h.rows.modify (fun _ => rfl) (.inr ⟨hlt, fun row stepEnd _ hend' => ?_⟩)
      rw [hend, Option.some.injEq] at hend'
      subst hend'
      exact ⟨rfl, fun _ hcompleted => by cases hcompleted⟩
    · simp only [work, hphase, WorkerAt]
      exact ⟨front_setStepStatus_of_ne _ (Nat.ne_of_lt hlt) _ _ hopen, hbefore.next hlt _⟩
  · have hlast : index = front := by
      have hle := hbefore.le
      omega
    subst hlast
    refine ⟨index + 1, h.of_work ?_ ?_⟩
    · simp only [work, hphase]
      exact h.rows.store hend rfl fun _ hcompleted => by cases hcompleted
    · simp only [work, hphase, WorkerAt]
      refine ⟨?_, Before.of_live (hbefore.toLive.succ hend (fun _ _ => rfl) ?_ _)⟩
      · exact front_setStepStatus_of_ne _ (by omega) _ _ h.rows.front_succ
      · simp [Scenario.warnsAt, hend]

theorem Progress.work_attempting (h : Progress c s front) {index attempt : Nat}
    {step : StepDefinition} (hphase : w.phase = .attempting index step attempt)
    (hat : WorkerAt c s.run front w) (outcome : Outcome) :
    Progress c
      { run := (work s.run w outcome).1
        worker := some (work s.run w outcome).2 } front := by
  simp only [WorkerAt, hphase] at hat
  obtain ⟨hrow, htrying⟩ := hat
  refine h.of_work ?_ ?_
  · simp only [work, hphase]
    exact h.rows
  · simp only [work, hphase, WorkerAt]
    exact ⟨hrow, ⟨htrying.context, htrying.warnings, htrying.fresh⟩, htrying.atFront,
      htrying.isStep, htrying.bounds, htrying.ends⟩

theorem Progress.work_marking (h : Progress c s front) {index attempt : Nat}
    {step : StepDefinition} (hphase : w.phase = .marking index step attempt)
    (hat : WorkerAt c s.run front w) (outcome : Outcome) :
    Progress c
      { run := (work s.run w outcome).1
        worker := some (work s.run w outcome).2 } front := by
  simp only [WorkerAt, hphase] at hat
  obtain ⟨_, htrying⟩ := hat
  have hfront := htrying.atFront
  subst hfront
  refine h.of_work ?_ ?_
  · simp only [work, hphase]
    exact h.rows.setStepStatus .running none
  · simp only [work, hphase, WorkerAt]
    exact ⟨front_setStepStatus_self _ _ _ _,
      ⟨htrying.context, htrying.warnings, htrying.fresh⟩, rfl, htrying.isStep, htrying.bounds,
      htrying.ends⟩

/-- The step at the front is carried out, or planned in a dry run. -/
theorem Progress.work_ready (h : Progress c s front) {index attempt : Nat}
    {step : StepDefinition} (hphase : w.phase = .ready index step attempt)
    (hat : WorkerAt c s.run front w) (outcome : Outcome) :
    Progress c
      { run := (work s.run w outcome).1
        worker := some (work s.run w outcome).2 } front := by
  simp only [WorkerAt, hphase] at hat
  obtain ⟨hrunning, htrying⟩ := hat
  have hlive : ∀ phase, Live c front { w with phase := phase } :=
    fun _ => ⟨htrying.context, htrying.warnings, htrying.fresh⟩
  refine h.of_work ?_ ?_
  · simp only [work, hphase]
    exact h.rows
  · simp only [work, hphase, h.dryRun]
    have hends := htrying.ends
    cases hdry : c.dryRun with
    | true =>
        rw [hdry] at hends
        exact ⟨hrunning, ⟨hlive _, htrying.atFront, hends⟩, htrying.isStep⟩
    | false =>
        exact ⟨hdry, hrunning, hlive _, htrying.atFront, htrying.isStep, htrying.bounds, hends⟩

/-- An attempt of the step at the front has returned. -/
theorem Progress.work_invoked (h : Progress c s front) {index attempt : Nat}
    {step : StepDefinition} (hphase : w.phase = .invoked index step attempt)
    (hat : WorkerAt c s.run front w) :
    ∃ front', Progress c
      { run := (work s.run w (c.oracle.outcome w)).1
        worker := some (work s.run w (c.oracle.outcome w)).2 } front' := by
  simp only [WorkerAt, hphase] at hat
  obtain ⟨hdry, hrunning, htrying⟩ := hat
  have hlive : ∀ phase, Live c front { w with phase := phase } :=
    fun _ => ⟨htrying.context, htrying.warnings, htrying.fresh⟩
  have hfront := htrying.atFront
  subst hfront
  obtain ⟨hfirst, hmost⟩ := htrying.bounds
  have houtcome : c.oracle.outcome w = c.oracle index attempt (c.contextAt index) := by
    simp [Oracle.outcome, hphase, htrying.context]
  have hends := htrying.ends
  rw [hdry, if_neg (by simp)] at hends
  unfold Scenario.settle at hends
  rw [houtcome]
  cases hresult : c.oracle index attempt (c.contextAt index) with
  | completed output =>
      rw [hresult] at hends
      refine ⟨index, h.of_work ?_ ?_⟩
      · simp only [work, hphase]
        exact h.rows
      · simp only [work, hphase]
        exact ⟨hrunning, ⟨hlive _, rfl, hends⟩, htrying.isStep⟩
  | cancelled =>
      rw [hresult] at hends
      refine ⟨index, h.of_work ?_ ?_⟩
      · simp only [work, hphase]
        exact h.rows
      · simp only [work, hphase]
        exact ⟨hrunning, hlive _, rfl, hends⟩
  | raised message =>
      rw [hresult] at hends
      dsimp only at hends
      by_cases hretry : attempt ≤ step.maxRetries
      · have hleft : step.maxRetries + 1 - attempt = (step.maxRetries - attempt) + 1 := by omega
        rw [hleft] at hends
        refine ⟨index, h.of_work ?_ ?_⟩
        · simp only [work, hphase]
          exact h.rows
        · simp only [work, hphase, afterAttempt, if_pos hretry]
          have hnext : attempt + 1 ≠ 1 := by omega
          have hright : step.maxRetries + 1 - (attempt + 1) = step.maxRetries - attempt := by omega
          refine ⟨by rw [if_neg hnext]; exact hrunning, hlive _, rfl, htrying.isStep,
            ⟨by omega, by omega⟩, ?_⟩
          rw [hdry, if_neg (by simp), hright]
          exact hends
      · have hleft : step.maxRetries + 1 - attempt = 0 := by omega
        rw [hleft] at hends
        by_cases hempty : message = ""
        · dsimp only at hends
          rw [if_pos hempty] at hends
          refine ⟨index + 1, h.of_work ?_ ?_⟩
          · simp only [work, hphase]
            refine h.rows.succ hends rfl fun row hrow => ?_
            exact ⟨hrunning row hrow, fun _ hcompleted => by cases hcompleted⟩
          · simp only [work, hphase, afterAttempt, if_neg hretry, if_pos hempty]
            refine ⟨h.rows.front_succ, Before.of_live (htrying.toLive.succ hends
              (fun _ _ => rfl) ?_ _)⟩
            simp [Scenario.warnsAt, hends]
        · dsimp only at hends
          rw [if_neg hempty] at hends
          refine ⟨index, h.of_work ?_ ?_⟩
          · simp only [work, hphase]
            exact h.rows
          · simp only [work, hphase, afterAttempt, if_neg hretry, if_neg hempty]
            exact ⟨hrunning, hlive _, rfl, hends⟩

/-- The output of the step at the front is stored. -/
theorem Progress.work_storing (h : Progress c s front) {index : Nat} {step : StepDefinition}
    {output : Output} (hphase : w.phase = .storing index step output)
    (hat : WorkerAt c s.run front w) (outcome : Outcome) :
    ∃ front', Progress c
      { run := (work s.run w outcome).1
        worker := some (work s.run w outcome).2 } front' := by
  simp only [WorkerAt, hphase] at hat
  obtain ⟨_, hreached, hstep⟩ := hat
  have hfront := hreached.atFront
  subst hfront
  refine ⟨index + 1, h.of_work ?_ ?_⟩
  · simp only [work, hphase]
    refine h.rows.store hreached.ends rfl fun o ho => ?_
    cases ho
    rfl
  · simp only [work, hphase, WorkerAt]
    refine ⟨front_setStepStatus_of_ne _ (by omega) _ _ h.rows.front_succ,
      Before.of_live (hreached.toLive.succ hreached.ends ?_ ?_ _)⟩
    · intro step' hstep'
      rw [hstep, Option.some.injEq] at hstep'
      rw [hstep']
      rfl
    · simp [Scenario.warnsAt, hreached.ends]

/-- The error of the step at the front is stored. -/
theorem Progress.work_failing (h : Progress c s front) {index : Nat} {step : StepDefinition}
    (hphase : w.phase = .failing index step) (hat : WorkerAt c s.run front w)
    (outcome : Outcome) :
    ∃ front', Progress c
      { run := (work s.run w outcome).1
        worker := some (work s.run w outcome).2 } front' := by
  simp only [WorkerAt, hphase] at hat
  obtain ⟨_, hreached⟩ := hat
  have hfront := hreached.atFront
  subst hfront
  have hends := hreached.ends
  cases hpolicy : step.onError with
  | proceed =>
      rw [hpolicy] at hends
      refine ⟨index + 1, h.of_work ?_ ?_⟩
      · simp only [work, hphase, hpolicy]
        exact h.rows.store hends rfl fun _ hcompleted => by cases hcompleted
      · simp only [work, hphase, hpolicy, WorkerAt]
        refine ⟨front_setStepStatus_of_ne _ (by omega) _ _ h.rows.front_succ,
          Before.of_live (hreached.toLive.succ hends (fun _ _ => rfl) ?_ _)⟩
        simp [Scenario.warnsAt, hends]
  | stop =>
      rw [hpolicy] at hends
      refine ⟨index, h.of_work ?_ ?_⟩
      · simp only [work, hphase, hpolicy]
        exact h.rows.setStepStatus .failed none
      · simp only [work, hphase, hpolicy, WorkerAt]
        refine ⟨fun row hrow => ?_, hends, hreached.warnings⟩
        rw [front_setStepStatus_self _ _ _ _ row hrow]
        rfl

theorem Progress.work_cancellingStep (h : Progress c s front) {index : Nat}
    (hphase : w.phase = .cancellingStep index) (hat : WorkerAt c s.run front w)
    (outcome : Outcome) :
    Progress c
      { run := (work s.run w outcome).1
        worker := some (work s.run w outcome).2 } front := by
  simp only [WorkerAt, hphase] at hat
  obtain ⟨_, hreached⟩ := hat
  have hfront := hreached.atFront
  subst hfront
  refine h.of_work ?_ ?_
  · simp only [work, hphase]
    exact h.rows.setStepStatus .cancelled none
  · simp only [work, hphase, WorkerAt]
    refine ⟨fun row hrow => ?_, hreached.ends, hreached.warnings⟩
    rw [front_setStepStatus_self _ _ _ _ row hrow]
    rfl

/-- Every action of a worker keeps the progress of its run. -/
theorem Progress.work (h : Progress c s front) (hw : s.worker = some w) :
    ∃ front', Progress c
      { run := (Automations.work s.run w (c.oracle.outcome w)).1
        worker := some (Automations.work s.run w (c.oracle.outcome w)).2 } front' := by
  have hat := h.worker w hw
  cases hphase : w.phase with
  | submitted => exact ⟨front, h.work_submitted hphase hat _⟩
  | loaded =>
      refine ⟨front, h.of_work ?_ ?_⟩
      · simp only [Automations.work, hphase]
        exact h.rows
      · simp only [WorkerAt, hphase] at hat
        simp only [Automations.work, hphase, WorkerAt]
        obtain ⟨hopen, hbefore⟩ := hat
        exact ⟨hopen, ⟨hbefore.context, hbefore.warnings, hbefore.fresh⟩, hbefore.le,
          hbefore.replays, hbefore.knows⟩
  | atStep index => exact ⟨front, h.work_atStep hphase hat _⟩
  | cancellingStep index => exact ⟨front, h.work_cancellingStep hphase hat _⟩
  | skipping index => exact h.work_skipping hphase hat _
  | attempting index step attempt => exact ⟨front, h.work_attempting hphase hat _⟩
  | marking index step attempt => exact ⟨front, h.work_marking hphase hat _⟩
  | ready index step attempt => exact ⟨front, h.work_ready hphase hat _⟩
  | invoked index step attempt => exact h.work_invoked hphase hat
  | storing index step output => exact h.work_storing hphase hat _
  | failing index step => exact h.work_failing hphase hat _
  | finishing ending =>
      refine ⟨front, h.of_work ?_ ?_⟩
      · simp only [Automations.work, hphase]
        exact h.rows
      · simp only [WorkerAt, hphase] at hat
        simp only [Automations.work, hphase, WorkerAt]
        obtain ⟨_, hverdict, hwarnings⟩ := hat
        exact ⟨ending, hverdict, rfl, hwarnings⟩
  | ended =>
      refine ⟨front, h.of_work ?_ ?_⟩
      · simp only [Automations.work, hphase]
        exact h.rows
      · simp only [Automations.work, hphase]
        exact hat

end Action

end Automations
end MpvmApp
