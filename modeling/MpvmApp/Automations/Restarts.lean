import MpvmApp.Automations.Progress

/-!
# Restarts of a run

A restart keeps what a worker has to know when no step is stored with a warning and no
skipped step would be carried out with the outputs that are stored.  Otherwise the new
worker carries out steps again that had ended.  A run that is interrupted inside a step
is not executed again.

Main definitions:

- `RebuildsAlike`: the restarts after which a worker knows what the first one knew.
- `ExecutesOnce`: no step that has ended is carried out again.

Main results:

- Theorem `Progress.restart`: such a restart keeps the progress of a run.
- Theorem `resumed_run_agrees`: a resumed run ends as the run without restarts.
-/

namespace MpvmApp
namespace Automations

open Runs

/-! ## Resumed runs -/

/-- No step is stored as running when the process dies. -/
def AtBoundary (s : Execution) (m : Moment) : Prop :=
  m = .restart → s.run.status.isActive = true → s.run.isInterrupted = false

/--
No step is stored with a warning when the process dies, and the condition of a step
that was skipped does not match the outputs that are stored then.
-/
def RebuildsAlike (s : Execution) (m : Moment) : Prop :=
  m = .restart → s.run.status.isActive = true →
    ∀ (j : Nat) (step : StepDefinition) (row : StepRow),
      s.run.definition.steps[j]? = some step → s.run.steps[j]? = some row →
      row.status ≠ .warning ∧
        (row.status = .skipped →
          conditionMatches step.condition (completedOutputs s.run.steps) = false)

/-- A worker does not carry out a step again that is completed, skipped or passed over. -/
def ExecutesOnce (s : Execution) (m : Moment) : Prop :=
  m = .work → ∀ w index step attempt row, s.worker = some w →
    w.phase = .attempting index step attempt → s.run.steps[index]? = some row →
      row.status ≠ .completed ∧ row.status ≠ .skipped ∧ row.status ≠ .warning

section Resumed

variable {c : Scenario} {s : Execution} {front : Nat}

/-- A run that is not interrupted inside a step is open at the front. -/
theorem Progress.front_open (h : Progress c s front) (hactive : s.run.status.isActive = true)
    (hboundary : s.run.isInterrupted = false) :
    Front s.run.steps front fun status => status.isOpen = true := by
  have hrunning : (Front s.run.steps front fun status => status = .running) →
      Front s.run.steps front fun status => status.isOpen = true := by
    intro hfront row hrow
    have hinterrupted : s.run.isInterrupted = true :=
      List.any_eq_true.2 ⟨row, List.mem_of_getElem? hrow, decide_eq_true (hfront row hrow)⟩
    rw [hboundary] at hinterrupted
    cases hinterrupted
  cases hworker : s.worker with
  | none =>
      rw [h.idle hworker] at hactive
      cases hactive
  | some w =>
      have hat := h.worker w hworker
      cases hphase : w.phase with
      | submitted | loaded | atStep | skipping | finishing =>
          simp only [WorkerAt, hphase] at hat
          exact hat.1
      | attempting index step attempt | marking index step attempt =>
          simp only [WorkerAt, hphase] at hat
          obtain ⟨hrow, _⟩ := hat
          split at hrow
          · exact hrow
          · exact hrunning hrow
      | ready | storing | failing | cancellingStep =>
          simp only [WorkerAt, hphase] at hat
          exact hrunning hat.1
      | invoked =>
          simp only [WorkerAt, hphase] at hat
          exact hrunning hat.2.1
      | ended =>
          simp only [WorkerAt, hphase] at hat
          obtain ⟨ending, _, hstatus, _⟩ := hat
          rw [hstatus] at hactive
          cases ending <;> cases hactive

/-- A restart at the boundary of a step keeps the progress of a run. -/
theorem Progress.restart (h : Progress c s front) (hboundary : AtBoundary s .restart)
    (hrebuilds : RebuildsAlike s .restart) :
    Progress c (resume s.run) front := by
  unfold resume
  by_cases hactive : s.run.status.isActive = true
  · have hnot := hboundary rfl hactive
    have hopen := h.front_open hactive hnot
    rw [if_pos hactive, if_neg (by simp [h.notRequested]), if_neg (by simp [hnot])]
    refine ⟨h.definition, h.dryRun, h.notRequested, h.rows, fun hnone => (by cases hnone), ?_⟩
    rintro w hw
    cases hw
    refine ⟨hopen, ?_, rfl⟩
    have hcontext : completedOutputs s.run.steps = c.contextAt front := by
      refine h.rows.outputs fun row hrow hcompleted => ?_
      have hrowOpen := hopen row hrow
      rw [hcompleted] at hrowOpen
      cases hrowOpen
    intro j hj step hstep
    obtain ⟨row, hrow⟩ := h.rows.exists_row hstep
    have hend := endAt_of_step hstep
    obtain ⟨hstatus, _⟩ := h.rows.settled j hj row hrow _ hend
    have hpassed := h.rows.passed j hj _ hend
    obtain ⟨hwarning, hskipped⟩ :=
      hrebuilds rfl hactive j step row (h.definition ▸ hstep) hrow
    rw [hend]
    cases hstepEnd : c.stepEnd j step (c.contextAt j) with
    | completed output => exact .inl ⟨output, rfl⟩
    | skipped =>
        rw [hstepEnd] at hstatus
        rw [← hcontext]
        exact .inr ⟨rfl, hskipped hstatus⟩
    | warning =>
        rw [hstepEnd] at hstatus
        exact absurd hstatus hwarning
    | failed =>
        rw [hstepEnd] at hpassed
        cases hpassed
    | cancelled =>
        rw [hstepEnd] at hpassed
        cases hpassed
    | unsettled =>
        rw [hstepEnd] at hstatus
        have hinterrupted : s.run.isInterrupted = true :=
          List.any_eq_true.2 ⟨row, List.mem_of_getElem? hrow, decide_eq_true hstatus⟩
        rw [hnot] at hinterrupted
        cases hinterrupted
  · rw [if_neg hactive]
    refine ⟨h.definition, h.dryRun, h.notRequested, h.rows, fun _ => ?_, ?_⟩
    · simpa using hactive
    · intro w hw
      cases hw

theorem Progress.step (h : Progress c s front) {m : Moment}
    (hok : AtBoundary s m ∧ RebuildsAlike s m) :
    ∃ front', Progress c (resumeStep c.oracle s m) front' := by
  cases m with
  | restart => exact ⟨front, h.restart hok.1 hok.2⟩
  | work =>
      simp only [resumeStep]
      cases hworker : s.worker with
      | none => exact ⟨front, h⟩
      | some w => exact h.work hworker

/-- A run that was just submitted has come to its first step. -/
theorem progress_started (c : Scenario) :
    Progress c (started c.definition c.dryRun) 0 where
  definition := rfl
  dryRun := rfl
  notRequested := rfl
  rows :=
    { ids := by simp [started, createRun, Function.comp_def]
      bound := Nat.zero_le _
      settled := fun j hj => absurd hj (Nat.not_lt_zero j)
      passed := fun j hj => absurd hj (Nat.not_lt_zero j)
      pending := by
        intro j _ row hrow
        simp only [started, createRun, List.getElem?_map] at hrow
        obtain ⟨step, _, rfl⟩ := Option.map_eq_some_iff.1 hrow
        rfl }
  idle := fun hnone => by cases hnone
  worker := by
    rintro w hw
    cases hw
    refine ⟨?_, fun j hj => absurd hj (Nat.not_lt_zero j), rfl⟩
    intro row hrow
    simp only [started, createRun, List.getElem?_map] at hrow
    obtain ⟨step, _, rfl⟩ := Option.map_eq_some_iff.1 hrow
    rfl

theorem Progress.executesOnce (h : Progress c s front) (m : Moment) :
    ExecutesOnce s m := by
  intro _ w index step attempt row hworker hphase hrow
  have hat := h.worker w hworker
  simp only [WorkerAt, hphase] at hat
  obtain ⟨hfront, htrying⟩ := hat
  have hlast := htrying.atFront
  subst hlast
  split at hfront
  · have hopen := hfront row hrow
    refine ⟨?_, ?_, ?_⟩ <;> (intro hstatus; rw [hstatus] at hopen; cases hopen)
  · have hrunning := hfront row hrow
    rw [hrunning]
    simp

theorem Progress.le_of_verdict (h : Progress c s front) {last : Nat} {ending : Ending}
    (hverdict : Verdict c last ending) :
    front ≤ last := by
  by_contra hlt
  have hbound := h.rows.bound
  cases ending with
  | completed =>
      have hlast := hverdict.1
      omega
  | completedWithWarnings =>
      have hlast := hverdict.1
      omega
  | failed =>
      have hpassed := h.rows.passed last (by omega) _ hverdict
      cases hpassed
  | cancelled =>
      have hpassed := h.rows.passed last (by omega) _ hverdict
      cases hpassed

theorem ne_length_of_endAt {stepEnd : StepEnd} (hend : c.endAt front = some stepEnd) :
    front ≠ c.definition.steps.length := by
  rintro rfl
  simp [Scenario.endAt] at hend

/-- A run has one final status at its end. -/
theorem Verdict.unique {ending ending' : Ending} (h : Verdict c front ending)
    (h' : Verdict c front ending') :
    ending = ending' := by
  cases ending with
  | completed =>
      cases ending' with
      | completed => rfl
      | completedWithWarnings => exact absurd h.2 h'.2
      | failed => exact absurd h.1 (ne_length_of_endAt h')
      | cancelled => exact absurd h.1 (ne_length_of_endAt h')
  | completedWithWarnings =>
      cases ending' with
      | completed => exact absurd h'.2 h.2
      | completedWithWarnings => rfl
      | failed => exact absurd h.1 (ne_length_of_endAt h')
      | cancelled => exact absurd h.1 (ne_length_of_endAt h')
  | failed =>
      cases ending' with
      | completed => exact absurd h'.1 (ne_length_of_endAt h)
      | completedWithWarnings => exact absurd h'.1 (ne_length_of_endAt h)
      | failed => rfl
      | cancelled =>
          have hsame := Option.some.inj (Eq.trans (Eq.symm h) h')
          cases hsame
  | cancelled =>
      cases ending' with
      | completed => exact absurd h'.1 (ne_length_of_endAt h)
      | completedWithWarnings => exact absurd h'.1 (ne_length_of_endAt h)
      | failed =>
          have hsame := Option.some.inj (Eq.trans (Eq.symm h) h')
          cases hsame
      | cancelled => rfl

theorem Progress.agrees {s' : Execution} {front' : Nat} {w w' : Worker}
    (h : Progress c s front) (h' : Progress c s' front') (hworker : s.worker = some w)
    (hworker' : s'.worker = some w') (hended : w.phase = .ended) (hended' : w'.phase = .ended) :
    s.run.status = s'.run.status ∧ w.warnings = w'.warnings := by
  have hat := h.worker w hworker
  have hat' := h'.worker w' hworker'
  simp only [WorkerAt, hended] at hat
  simp only [WorkerAt, hended'] at hat'
  obtain ⟨ending, hverdict, hstatus, hwarnings⟩ := hat
  obtain ⟨ending', hverdict', hstatus', hwarnings'⟩ := hat'
  have hsame : front = front' :=
    Nat.le_antisymm (h.le_of_verdict hverdict') (h'.le_of_verdict hverdict)
  subst hsame
  rw [hstatus, hstatus', hwarnings, hwarnings', hverdict.unique hverdict']
  exact ⟨rfl, rfl⟩

end Resumed

/-! ## Runs that were interrupted inside a step -/

/-- The index of the step that a worker is inside of. -/
def Phase.inside? : Phase → Option Nat
  | .attempting index _ attempt | .marking index _ attempt =>
      if attempt = 1 then none else some index
  | .ready index _ _ | .invoked index _ _ | .storing index _ _ | .failing index _
  | .cancellingStep index => some index
  | _ => none

/-- The index of the step that a worker is about to enter. -/
def Phase.entering? : Phase → Option Nat
  | .attempting index _ _ | .marking index _ _ => some index
  | _ => none

/-- The row at an index is stored as running. -/
def Run.RunsStep (run : Run) (index : Nat) : Prop :=
  ∃ row, run.steps[index]? = some row ∧ row.status = .running

/-- The step that the worker is inside of is stored as running. -/
structure Marked (s : Execution) : Prop where
  notRequested : s.run.cancelRequested = false
  length : s.run.steps.length = s.run.definition.steps.length
  enters : ∀ w, s.worker = some w → ∀ index, w.phase.entering? = some index →
    index < s.run.steps.length
  inside : ∀ w, s.worker = some w → ∀ index, w.phase.inside? = some index →
    s.run.RunsStep index

/-- A run is not executed any more. -/
def Abandoned (s : Execution) : Prop :=
  s.worker = none ∧ s.run.status.isActive = false

section Interrupted

variable {s : Execution} {oracle : Oracle}

theorem Abandoned.step (h : Abandoned s) (m : Moment) :
    Abandoned (resumeStep oracle s m) := by
  obtain ⟨hworker, hactive⟩ := h
  cases m with
  | work =>
      simp only [resumeStep, hworker]
      exact ⟨hworker, hactive⟩
  | restart =>
      simp only [resumeStep, resume, hactive]
      exact ⟨rfl, hactive⟩

theorem Abandoned.run (h : Abandoned s) (ms : List Moment) :
    Abandoned (Runs.run (resumeStep oracle) s ms) := by
  induction ms generalizing s with
  | nil => exact h
  | cons m ms ih => exact ih (h.step m)

theorem abandoned_resume {run : Run} {index : Nat} (h : run.RunsStep index) :
    Abandoned (resume run) := by
  obtain ⟨row, hrow, hstatus⟩ := h
  have hinterrupted : run.isInterrupted = true :=
    List.any_eq_true.2 ⟨row, List.mem_of_getElem? hrow, decide_eq_true hstatus⟩
  unfold resume
  split_ifs with hactive hrequested
  · exact ⟨rfl, rfl⟩
  · exact ⟨rfl, rfl⟩
  · exact ⟨rfl, by simpa using hactive⟩

theorem marked_started (definition : Definition) (dryRun : Bool) :
    Marked (started definition dryRun) where
  notRequested := rfl
  length := by simp [started, createRun]
  enters := fun w hw index hindex => by
    cases hw
    cases hindex
  inside := fun w hw index hindex => by
    cases hw
    cases hindex

theorem runsStep_setStepStatus {run : Run} {index : Nat} (h : index < run.steps.length)
    (output : Option Output) :
    (run.setStepStatus index .running output).RunsStep index := by
  have hrow : ∃ row, (run.setStepStatus index .running output).steps[index]? = some row :=
    ⟨_, List.getElem?_eq_getElem (by simpa using h)⟩
  obtain ⟨row, hrow⟩ := hrow
  exact ⟨row, hrow, front_setStepStatus_self run index .running output row hrow⟩

/-- The execution after an action of a worker. -/
def Execution.worked (s : Execution) (w : Worker) (outcome : Outcome) : Execution where
  run := (work s.run w outcome).1
  worker := some (work s.run w outcome).2

section Marked

variable {w : Worker} {outcome : Outcome}

theorem Marked.of_phase (h : Marked s) (phase : Phase)
    (hphase : (Automations.work s.run w outcome).2.phase = phase)
    (hnext : ∀ index, phase.entering? = some index → index < s.run.steps.length)
    (hmarked : ∀ index, phase.inside? = some index →
      (Automations.work s.run w outcome).1.RunsStep index) :
    Marked (s.worked w outcome) := by
  subst hphase
  refine ⟨(cancelRequested_work _ _ _).trans h.notRequested, ?_, ?_, ?_⟩
  · simpa [Execution.worked] using h.length
  · intro w' hw' index hindex
    cases hw'
    simpa [Execution.worked] using hnext index hindex
  · intro w' hw' index hindex
    cases hw'
    exact hmarked index hindex

theorem Marked.of_outside (h : Marked s) (phase : Phase)
    (hphase : (Automations.work s.run w outcome).2.phase = phase)
    (hentering : phase.entering? = none) (hinside : phase.inside? = none) :
    Marked (s.worked w outcome) := by
  apply h.of_phase phase hphase
  · intro index hindex
    rw [hentering] at hindex
    cases hindex
  · intro index hindex
    rw [hinside] at hindex
    cases hindex

theorem Marked.work_atStep (h : Marked s) {index : Nat} (hphase : w.phase = .atStep index) :
    Marked (s.worked w outcome) := by
  cases hstep : s.run.definition.steps[index]? with
  | none =>
      exact h.of_outside
        (.finishing (if w.warnings = 0 then .completed else .completedWithWarnings))
        (by simp only [Automations.work, hphase, hstep]) rfl rfl
  | some step =>
      have hlt : index < s.run.steps.length :=
        h.length ▸ (List.getElem?_eq_some_iff.1 hstep).1
      by_cases hcompleted : w.hasCompleted index = true
      · exact h.of_outside (.atStep (index + 1))
          (by simp [Automations.work, hphase, hstep, hcompleted]) rfl rfl
      · by_cases hmatches : conditionMatches step.condition w.context = true
        · apply h.of_phase (.attempting index step 1)
            (by simp [Automations.work, hphase, hstep, hcompleted, hmatches, h.notRequested])
          · intro index' hindex'
            cases hindex'
            exact hlt
          · intro index' hindex'
            cases hindex'
        · exact h.of_outside (.skipping index)
            (by simp [Automations.work, hphase, hstep, hcompleted, hmatches, h.notRequested])
            rfl rfl

theorem Marked.work_marking (h : Marked s) (hworker : s.worker = some w) {index attempt : Nat}
    {step : StepDefinition} (hphase : w.phase = .marking index step attempt) :
    Marked (s.worked w outcome) := by
  have henters := h.enters w hworker
  rw [hphase] at henters
  apply h.of_phase (.ready index step attempt) (by simp [Automations.work, hphase])
  · intro index' hindex'
    cases hindex'
  · intro index' hindex'
    cases hindex'
    have hrun : (Automations.work s.run w outcome).1 = s.run.setStepStatus index .running := by
      simp [Automations.work, hphase]
    rw [hrun]
    exact runsStep_setStepStatus (henters index rfl) none

theorem Marked.work_ready (h : Marked s) (hworker : s.worker = some w) {index attempt : Nat}
    {step : StepDefinition} (hphase : w.phase = .ready index step attempt) :
    Marked (s.worked w outcome) := by
  have hinside := h.inside w hworker
  rw [hphase] at hinside
  have hrun : (Automations.work s.run w outcome).1 = s.run := by
    simp [Automations.work, hphase]
  apply h.of_phase _ rfl
  · intro index' hindex'
    simp only [Automations.work, hphase] at hindex'
    split at hindex' <;> cases hindex'
  · intro index' hindex'
    rw [hrun]
    refine hinside index' ?_
    simp only [Automations.work, hphase] at hindex'
    split at hindex' <;> exact hindex'

theorem Marked.work_invoked (h : Marked s) (hworker : s.worker = some w) {index attempt : Nat}
    {step : StepDefinition} (hphase : w.phase = .invoked index step attempt) :
    Marked (s.worked w outcome) := by
  have hinside := h.inside w hworker
  rw [hphase] at hinside
  have hrow := hinside index rfl
  obtain ⟨row, hget, _⟩ := id hrow
  have hlt := (List.getElem?_eq_some_iff.1 hget).1
  have hrun : (Automations.work s.run w outcome).1 = s.run := by
    simp [Automations.work, hphase]
  apply h.of_phase _ rfl
  · intro index' hindex'
    simp only [Automations.work, hphase, afterAttempt] at hindex'
    split at hindex'
    · cases hindex'
    · cases hindex'
    · split_ifs at hindex' <;> cases hindex'
      exact hlt
  · intro index' hindex'
    rw [hrun]
    simp only [Automations.work, hphase, afterAttempt] at hindex'
    split at hindex'
    · cases hindex'
      exact hrow
    · cases hindex'
      exact hrow
    · split_ifs at hindex' with hretry hempty
      · simp only [Phase.inside?] at hindex'
        split_ifs at hindex'
        cases hindex'
        exact hrow
      · cases hindex'
      · cases hindex'
        exact hrow

/-- An action of a worker keeps the row of its step stored as running. -/
theorem Marked.work (h : Marked s) (hworker : s.worker = some w) :
    Marked (s.worked w outcome) := by
  cases hphase : w.phase with
  | submitted => exact h.of_outside .loaded (by simp [Automations.work, hphase]) rfl rfl
  | loaded => exact h.of_outside (.atStep 0) (by simp [Automations.work, hphase]) rfl rfl
  | atStep index => exact h.work_atStep hphase
  | cancellingStep index =>
      exact h.of_outside (.finishing .cancelled) (by simp [Automations.work, hphase]) rfl rfl
  | skipping index =>
      exact h.of_outside (.atStep (index + 1)) (by simp [Automations.work, hphase]) rfl rfl
  | attempting index step attempt =>
      have henters := h.enters w hworker
      have hinside := h.inside w hworker
      rw [hphase] at henters hinside
      apply h.of_phase (.marking index step attempt) (by simp [Automations.work, hphase]) henters
      intro index' hindex'
      simpa [Automations.work, hphase, Run.RunsStep] using hinside index' hindex'
  | marking index step attempt => exact h.work_marking hworker hphase
  | ready index step attempt => exact h.work_ready hworker hphase
  | invoked index step attempt => exact h.work_invoked hworker hphase
  | storing index step output =>
      exact h.of_outside (.atStep (index + 1)) (by simp [Automations.work, hphase]) rfl rfl
  | failing index step =>
      cases hpolicy : step.onError with
      | proceed =>
          exact h.of_outside (.atStep (index + 1)) (by simp [Automations.work, hphase, hpolicy])
            rfl rfl
      | stop =>
          exact h.of_outside (.finishing .failed) (by simp [Automations.work, hphase, hpolicy])
            rfl rfl
  | finishing ending => exact h.of_outside .ended (by simp [Automations.work, hphase]) rfl rfl
  | ended => exact h.of_outside .ended (by simp [Automations.work, hphase]) rfl rfl

end Marked

theorem Marked.resume (h : Marked s) :
    Marked (Automations.resume s.run) ∨ Abandoned (Automations.resume s.run) := by
  unfold Automations.resume
  split_ifs with hactive hrequested hinterrupted
  · exact .inr ⟨rfl, rfl⟩
  · exact .inr ⟨rfl, rfl⟩
  · refine .inl ⟨h.notRequested, h.length, ?_, ?_⟩
    · intro w hw index hindex
      cases hw
      cases hindex
    · intro w hw index hindex
      cases hw
      cases hindex
  · exact .inr ⟨rfl, by simpa using hactive⟩

theorem marked_or_abandoned_run (oracle : Oracle) (h : Marked s ∨ Abandoned s) (ms : List Moment) :
    Marked (Runs.run (resumeStep oracle) s ms) ∨ Abandoned (Runs.run (resumeStep oracle) s ms) := by
  induction ms generalizing s with
  | nil => exact h
  | cons m ms ih =>
      rw [run_cons]
      apply ih
      rcases h with hmarked | habandoned
      · cases m with
        | restart => exact hmarked.resume
        | work =>
            simp only [resumeStep]
            cases hworker : s.worker with
            | none => exact .inl hmarked
            | some w => exact .inl (hmarked.work hworker)
      · exact .inr (habandoned.step m)

end Interrupted

/-! ## Main result -/

theorem along_work (oracle : Oracle) (s : Execution) (n : Nat) :
    Along (resumeStep oracle) (fun s m => AtBoundary s m ∧ RebuildsAlike s m) s
      (List.replicate n .work) := by
  induction n generalizing s with
  | zero => trivial
  | succ n ih => exact ⟨⟨fun hm => (by cases hm), fun hm => (by cases hm)⟩, ih _⟩

/--
A run whose restarts rebuild what its worker knew carries out no step again and ends
with the status and the warnings of the run without restarts; and a run that is
interrupted inside a step is not executed any more.
-/
theorem resumed_run_agrees (c : Scenario) {ms : List Moment}
    (h : Along (resumeStep c.oracle) (fun s m => AtBoundary s m ∧ RebuildsAlike s m)
      (started c.definition c.dryRun) ms) :
    Along (resumeStep c.oracle) ExecutesOnce (started c.definition c.dryRun) ms ∧
      (∃ n w', (run (resumeStep c.oracle) (started c.definition c.dryRun)
            (List.replicate n .work)).worker = some w' ∧ w'.phase = .ended ∧
          ∀ w, (run (resumeStep c.oracle) (started c.definition c.dryRun) ms).worker = some w →
            w.phase = .ended →
            (run (resumeStep c.oracle) (started c.definition c.dryRun) ms).run.status =
                (run (resumeStep c.oracle) (started c.definition c.dryRun)
                  (List.replicate n .work)).run.status ∧
              w.warnings = w'.warnings) ∧
      (∀ ms' w index, (run (resumeStep c.oracle) (started c.definition c.dryRun) ms').worker =
          some w → w.phase.inside? = some index →
        ∀ later, (run (resumeStep c.oracle) (started c.definition c.dryRun)
          (ms' ++ .restart :: later)).worker = none) := by
  have hstarted : ∃ front, Progress c (started c.definition c.dryRun) front :=
    ⟨0, progress_started c⟩
  have hstep : ∀ s m, (∃ front, Progress c s front) → AtBoundary s m ∧ RebuildsAlike s m →
      ∃ front, Progress c (resumeStep c.oracle s m) front :=
    fun s m ⟨_, hs⟩ hok => hs.step hok
  refine ⟨h.ensures hstep (fun s m ⟨_, hs⟩ _ => hs.executesOnce m) hstarted, ?_, ?_⟩
  · obtain ⟨w', hworker', hended'⟩ := execution_ends c.oracle
      (s := started c.definition c.dryRun) rfl (Nat.le_refl _)
    refine ⟨_, w', hworker', hended', fun w hworker hended => ?_⟩
    obtain ⟨_, hprogress⟩ := h.invariant hstep hstarted
    obtain ⟨_, hprogress'⟩ := (along_work c.oracle _ _).invariant hstep hstarted
    exact hprogress.agrees hprogress' hworker hworker' hended hended'
  · intro ms' w index hworker hinside later
    rw [run_append, run_cons]
    rcases marked_or_abandoned_run c.oracle
      (.inl (marked_started c.definition c.dryRun)) ms' with hmarked | habandoned
    · exact ((abandoned_resume (hmarked.inside w hworker index hinside)).run later).1
    · rw [habandoned.1] at hworker
      cases hworker

/-! ## A warning before a restart -/

instance (s : Execution) (m : Moment) : Decidable (AtBoundary s m) :=
  inferInstanceAs (Decidable (_ → _ → _))

/-- Two steps; the first one is not needed for the second one. -/
def twoSteps : Definition where
  steps :=
    [{ stepId := "s1", type := .assetQuery, onError := .proceed },
      { stepId := "s2", type := .assetQuery }]
  nonempty := by simp
  distinct := by simp

/-- Both steps complete. -/
def bothComplete : Scenario where
  definition := twoSteps
  dryRun := false
  oracle := fun _ _ _ => .completed []

/-- The first step fails. -/
def firstFails : Scenario where
  definition := twoSteps
  dryRun := false
  oracle := fun index _ _ => if index = 0 then .raised "timeout" else .completed []

/-- The process starts again after the first step. -/
def restartedOnce : List Moment :=
  List.replicate 8 .work ++ .restart :: List.replicate 4 .work

/-- The first step is not carried out again when it has completed. -/
theorem resumed_run_agrees_bothComplete :
    Along (resumeStep bothComplete.oracle) ExecutesOnce (started twoSteps false)
      restartedOnce := by
  refine (resumed_run_agrees bothComplete ?_).1
  rw [restartedOnce, along_append, along_cons]
  refine ⟨along_work _ _ 8, ⟨fun _ _ => rfl, ?_⟩, along_work _ _ 4⟩
  intro _ _ j step row _ hrow
  match j with
  | 0 =>
      cases hrow
      exact ⟨by decide, fun hskipped => (by cases hskipped)⟩
  | 1 =>
      cases hrow
      exact ⟨by decide, fun hskipped => (by cases hskipped)⟩
  | j + 2 => cases hrow

/-- The first step is carried out again after it has failed with a warning. -/
theorem warning_step_executed_again :
    ¬ ∀ (c : Scenario) (ms : List Moment),
      Along (resumeStep c.oracle) AtBoundary (started c.definition c.dryRun) ms →
        Along (resumeStep c.oracle) ExecutesOnce (started c.definition c.dryRun) ms := by
  intro h
  have hrun := h firstFails restartedOnce (by decide +kernel)
  rw [restartedOnce, along_append] at hrun
  have hexecutes := hrun.2.2.2.2.2.1
  exact (hexecutes rfl _ _ _ _ _ rfl rfl rfl).2.2 rfl

end Automations
end MpvmApp
