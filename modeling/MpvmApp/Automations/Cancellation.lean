import MpvmApp.Automations.Execution

/-!
# The status of a run and its cancellation

A worker stores the status `running` before its first step and before every
attempt, and a final status at its end, whatever is stored then.  It looks for a
requested cancellation before every step that it has to carry out, and nowhere else.

Main definitions:

- `Guarded`: the steps that overwrite neither a final status nor a cancellation.
- `InTime`: the steps after which a worker still looks for the cancellation.

Main results:

- Theorem `status_holds_iff`: when final statuses and accepted cancellations hold.
- Theorem `cancellation_obeyed`: a cancellation that comes in time is obeyed.
-/

namespace MpvmApp
namespace Automations

open Runs

/-! ## Stored statuses -/

/-- The status is one in which a run has ended. -/
def RunStatus.isFinal : RunStatus → Bool
  | .completed | .completedWithWarnings | .failed | .cancelled => true
  | _ => false

@[simp]
theorem isFinal_status (ending : Ending) :
    ending.status.isFinal = true := by
  cases ending <;> rfl

theorem RunStatus.not_active_of_isFinal {status : RunStatus} (h : status.isFinal = true) :
    status.isActive = false := by
  cases status <;> first | rfl | cases h

/-- The status that the next action of a worker stores. -/
def Phase.written? : Phase → Option RunStatus
  | .loaded | .attempting _ _ _ => some .running
  | .finishing ending => some ending.status
  | _ => none

theorem status_work (run : Run) (w : Worker) (outcome : Outcome) :
    (work run w outcome).1.status = w.phase.written?.getD run.status := by
  cases hphase : w.phase with
  | atStep index =>
      simp only [work, hphase]
      split
      · rfl
      · split_ifs <;> rfl
  | failing index step =>
      simp only [work, hphase]
      split <;> rfl
  | submitted | loaded | cancellingStep | skipping | attempting | marking | ready | invoked
  | storing | finishing | ended =>
      simp only [work, hphase]
      rfl

/-! ## Final statuses hold -/

/-- A final status stays, and the run is not running once its cancellation is accepted. -/
def StatusHolds (s : State) (ev : Event) : Prop :=
  (s.run.status.isFinal = true → (step s ev).run.status = s.run.status) ∧
    ((step s ev).run.cancelRequested = true → (step s ev).run.status ≠ .running)

/--
No worker begins or repeats a step of a run that has a final status or whose
cancellation is accepted, and no worker and no recovery finishes a run that has
another final status.
-/
def Guarded (s : State) : Event → Prop
  | .work i _ => ∀ w, s.workers[i]? = some w →
      match w.phase with
      | .loaded | .attempting _ _ _ =>
          s.run.cancelRequested = false ∧ s.run.status.isFinal = false
      | .finishing ending => s.run.status.isFinal = true → ending.status = s.run.status
      | _ => True
  | .recover j =>
      match s.recoveries[j]? with
      | some (.read true _) => s.run.status.isFinal = true → s.run.status = .cancelled
      | some (.read false true) => s.run.status.isFinal = false
      | _ => True
  | _ => True

/-- A run whose cancellation is accepted is not running. -/
def NotRunning (s : State) : Prop :=
  s.run.cancelRequested = true → s.run.status ≠ .running

theorem statusHolds_work_iff {s : State} (hinv : NotRunning s) (i : Nat) (outcome : Outcome) :
    StatusHolds s (.work i outcome) ↔ Guarded s (.work i outcome) := by
  cases hw : s.workers[i]? with
  | none =>
      refine iff_of_true ?_ ?_
      · simp only [StatusHolds, step, hw]
        exact ⟨fun _ => trivial, hinv⟩
      · intro w hsome
        rw [hw] at hsome
        cases hsome
  | some w =>
      have hrun : (step s (.work i outcome)).run = (work s.run w outcome).1 := by
        simp [step, hw]
      simp only [StatusHolds, Guarded, hrun, status_work, cancelRequested_work, hw,
        Option.some.injEq, forall_eq']
      cases hphase : w.phase with
      | loaded | attempting =>
          simp only [Phase.written?, Option.getD_some, ne_eq, not_true_eq_false, imp_false,
            Bool.not_eq_true]
          constructor
          · rintro ⟨hkept, hrequested⟩
            refine ⟨hrequested, ?_⟩
            by_contra hfinal
            rw [Bool.not_eq_false] at hfinal
            rw [← hkept hfinal] at hfinal
            cases hfinal
          · rintro ⟨hrequested, hopen⟩
            refine ⟨fun hfinal => ?_, hrequested⟩
            rw [hopen] at hfinal
            cases hfinal
      | finishing ending =>
          simp only [Phase.written?, Option.getD_some]
          refine and_iff_left fun _ => ?_
          cases ending <;> simp [Ending.status]
      | submitted | atStep | cancellingStep | skipping | marking | ready | invoked | storing
      | failing | ended =>
          simp only [Phase.written?, Option.getD_none, iff_true]
          exact ⟨fun _ => trivial, hinv⟩

theorem statusHolds_recover_iff {s : State} (hinv : NotRunning s) (j : Nat) :
    StatusHolds s (.recover j) ↔ Guarded s (.recover j) := by
  cases hj : s.recoveries[j]? with
  | none =>
      simp only [StatusHolds, Guarded, step, hj, iff_true]
      exact ⟨fun _ => trivial, hinv⟩
  | some recovery =>
      cases recovery with
      | selected | handled =>
          simp only [StatusHolds, Guarded, step, hj, iff_true]
          exact ⟨fun _ => trivial, hinv⟩
      | read cancelRequested interrupted =>
          cases cancelRequested with
          | true =>
              simp only [StatusHolds, Guarded, step, hj, if_true, status_setStatus]
              constructor
              · exact fun hholds hfinal => (hholds.1 hfinal).symm
              · exact fun hsame => ⟨fun hfinal => (hsame hfinal).symm, fun _ => by simp⟩
          | false =>
              cases interrupted with
              | false =>
                  simp only [StatusHolds, Guarded, step, hj, Bool.false_eq_true, if_false, iff_true]
                  exact ⟨fun _ => trivial, hinv⟩
              | true =>
                  simp only [StatusHolds, Guarded, step, hj, Bool.false_eq_true, if_false,
                    if_true, status_setStatus]
                  constructor
                  · rintro ⟨hkept, _⟩
                    by_contra hfinal
                    rw [Bool.not_eq_false] at hfinal
                    rw [← hkept hfinal] at hfinal
                    cases hfinal
                  · intro hopen
                    refine ⟨fun hfinal => ?_, fun _ => by simp⟩
                    rw [hopen] at hfinal
                    cases hfinal

/-- A step keeps final statuses and cancellations exactly when it is guarded. -/
theorem statusHolds_iff {s : State} (hinv : NotRunning s) (ev : Event) :
    StatusHolds s ev ↔ Guarded s ev := by
  cases ev with
  | work i outcome => exact statusHolds_work_iff hinv i outcome
  | recover j => exact statusHolds_recover_iff hinv j
  | cancel =>
      refine iff_of_true ?_ trivial
      unfold StatusHolds
      by_cases hactive : s.run.status.isActive = true
      · simp only [step, Run.requestCancel, hactive, if_true]
        refine ⟨fun hfinal => ?_, fun _ => by split <;> simp⟩
        rw [RunStatus.not_active_of_isFinal hfinal] at hactive
        cases hactive
      · simp only [step, Run.requestCancel, hactive]
        exact ⟨fun _ => rfl, hinv⟩
  | submit =>
      refine iff_of_true ?_ trivial
      simp only [StatusHolds, step]
      split <;> exact ⟨fun _ => rfl, hinv⟩
  | select =>
      refine iff_of_true ?_ trivial
      simp only [StatusHolds, step]
      split <;> exact ⟨fun _ => rfl, hinv⟩
  | read j =>
      refine iff_of_true ?_ trivial
      simp only [StatusHolds, step]
      split <;> exact ⟨fun _ => rfl, hinv⟩
  | crash => exact iff_of_true ⟨fun _ => rfl, hinv⟩ trivial

/--
In a run of the system final statuses hold, and a cancelled run never runs again,
exactly when no step overwrites a final status or an accepted cancellation.
-/
theorem status_holds_iff (definition : Definition) (dryRun : Bool) (es : List Event) :
    Along step StatusHolds (created definition dryRun) es ↔
      Along step Guarded (created definition dryRun) es := by
  apply along_congr
  · intro s ev (_ : NotRunning s) hholds
    exact hholds.2
  · intro s ev hinv
    exact statusHolds_iff hinv ev
  · intro hrequested
    cases hrequested

/-- A runbook with one step. -/
def oneStep : Definition where
  steps := [{ stepId := "s1", type := .assetQuery }]
  nonempty := by simp
  distinct := by simp

/-- A queued run is cancelled before its worker reads it. -/
theorem cancelled_run_runs :
    ¬ ∀ (definition : Definition) (dryRun : Bool) (es : List Event),
      Along step StatusHolds (created definition dryRun) es := by
  intro h
  have hrun := h oneStep false [.submit, .cancel, .work 0 .cancelled, .work 0 .cancelled]
  exact hrun.2.2.2.1.2 rfl rfl

/-! ## Cancellations are obeyed -/

/-- Carrying out the step calls the step handler. -/
def callsHandler (run : Run) (step : StepDefinition) : Bool :=
  !run.dryRun && decide (step.type ≠ .notification)

/-- The action of a worker starts the step handler. -/
def startsHandler (s : State) : Event → Bool
  | .work i _ =>
      match s.workers[i]?.map Worker.phase with
      | some (.ready _ step _) => callsHandler s.run step
      | _ => false
  | _ => false

/-- The status with which an event finishes the run. -/
def finishes? (s : State) : Event → Option RunStatus
  | .work i _ =>
      match s.workers[i]?.map Worker.phase with
      | some (.finishing ending) => some ending.status
      | _ => none
  | .recover j =>
      match s.recoveries[j]? with
      | some (.read true _) => some .cancelled
      | some (.read false true) => some .needsAttention
      | _ => none
  | _ => none

/-- Once the cancellation is accepted no handler starts, and the run is finished as cancelled. -/
def Obeys (s : State) (ev : Event) : Prop :=
  s.run.cancelRequested = true →
    startsHandler s ev = false ∧ ∀ status, finishes? s ev = some status → status = .cancelled

/-- The worker has still to look for the cancellation at a step, from an index on. -/
def Remaining (definition : Definition) (w : Worker) (index : Nat) : Prop :=
  ∃ k, index ≤ k ∧ k < definition.steps.length ∧ w.hasCompleted k = false

/--
From here the worker looks for the cancellation before it calls the handler and before
it finishes the run, whatever an attempt that is under way returns.
-/
def LooksAgain (run : Run) (w : Worker) : Prop :=
  match w.phase with
  | .submitted | .cancellingStep _ | .invoked _ _ _ | .ended => True
  | .loaded => Remaining run.definition w 0
  | .atStep index => Remaining run.definition w index
  | .skipping index | .storing index _ _ => Remaining run.definition w (index + 1)
  | .attempting index step _ | .marking index step _ | .ready index step _ =>
      callsHandler run step = false ∧
        (run.dryRun = true → Remaining run.definition w (index + 1))
  | .failing index step => step.onError = .proceed ∧ Remaining run.definition w (index + 1)
  | .finishing ending => ending = .cancelled

/-- The outcome of an attempt leads to another look for the cancellation. -/
def LooksAfter (run : Run) (w : Worker) (index : Nat) (step : StepDefinition) (attempt : Nat) :
    Outcome → Prop
  | .completed _ => Remaining run.definition w (index + 1)
  | .cancelled => True
  | .raised message =>
      if attempt ≤ step.maxRetries then callsHandler run step = false ∧ run.dryRun = false
      else if message = "" then Remaining run.definition w (index + 1)
      else step.onError = .proceed ∧ Remaining run.definition w (index + 1)

/--
The cancellation is accepted while every worker still looks for it, and an attempt
that was under way then returns with an outcome after which the worker looks for it.
-/
def InTime (s : State) : Event → Prop
  | .cancel => s.run.status.isActive = true →
      (∀ w ∈ s.workers, LooksAgain s.run w) ∧ .read false true ∉ s.recoveries
  | .work i outcome => s.run.cancelRequested = true → ∀ w, s.workers[i]? = some w →
      match w.phase with
      | .submitted => ∃ row ∈ s.run.steps, row.isCompleted = false
      | .invoked index step attempt => LooksAfter s.run w index step attempt outcome
      | _ => True
  | _ => True


/-! ## Workers that look again -/

theorem Remaining.next {definition : Definition} {w : Worker} {index : Nat}
    (h : Remaining definition w index) (hcompleted : w.hasCompleted index = true) :
    Remaining definition w (index + 1) := by
  obtain ⟨k, hle, hlt, hopen⟩ := h
  refine ⟨k, ?_, hlt, hopen⟩
  have hne : k ≠ index := by
    rintro rfl
    rw [hopen] at hcompleted
    cases hcompleted
  omega

theorem LooksAgain.congr {run run' : Run} {w : Worker} (h : LooksAgain run w)
    (hdefinition : run'.definition = run.definition) (hdryRun : run'.dryRun = run.dryRun) :
    LooksAgain run' w := by
  unfold LooksAgain callsHandler at h ⊢
  rw [hdefinition, hdryRun]
  exact h

theorem remaining_of_row {run : Run} (hlength : run.steps.length = run.definition.steps.length)
    (hopen : ∃ row ∈ run.steps, row.isCompleted = false) {w : Worker}
    (hw : w.persisted = run.steps) :
    Remaining run.definition w 0 := by
  obtain ⟨row, hrow, hcompleted⟩ := hopen
  obtain ⟨k, hlt, hget⟩ := List.mem_iff_getElem.1 hrow
  refine ⟨k, Nat.zero_le k, hlength ▸ hlt, ?_⟩
  simp [Worker.hasCompleted, hw, List.getElem?_eq_getElem hlt, hget, hcompleted]

/-- A worker of a cancelled run that looks again does so after its action, too. -/
theorem looksAgain_work {run : Run} {w : Worker} {outcome : Outcome}
    (hlength : run.steps.length = run.definition.steps.length)
    (hrequested : run.cancelRequested = true) (hlooks : LooksAgain run w)
    (hintime : match w.phase with
      | .submitted => ∃ row ∈ run.steps, row.isCompleted = false
      | .invoked index step attempt => LooksAfter run w index step attempt outcome
      | _ => True) :
    LooksAgain run (work run w outcome).2 := by
  cases hphase : w.phase with
  | submitted =>
      rw [hphase] at hintime
      simp only [work, hphase, LooksAgain]
      exact remaining_of_row hlength hintime rfl
  | loaded =>
      simp only [LooksAgain, hphase] at hlooks
      simp only [work, hphase, LooksAgain]
      exact hlooks
  | atStep index =>
      simp only [LooksAgain, hphase] at hlooks
      simp only [work, hphase]
      split
      · rename_i hnone
        obtain ⟨k, hle, hlt, _⟩ := hlooks
        rw [List.getElem?_eq_none_iff] at hnone
        omega
      · split
        · rename_i hcompleted
          exact hlooks.next hcompleted
        · trivial
  | cancellingStep index =>
      simp only [work, hphase, LooksAgain]
  | skipping index =>
      simp only [LooksAgain, hphase] at hlooks
      simp only [work, hphase, LooksAgain]
      exact hlooks
  | attempting index step attempt =>
      simp only [LooksAgain, hphase] at hlooks
      simp only [work, hphase, LooksAgain]
      exact hlooks
  | marking index step attempt =>
      simp only [LooksAgain, hphase] at hlooks
      simp only [work, hphase, LooksAgain]
      exact hlooks
  | ready index step attempt =>
      simp only [LooksAgain, hphase] at hlooks
      simp only [work, hphase]
      split
      · rename_i hdry
        exact hlooks.2 hdry
      · trivial
  | invoked index step attempt =>
      rw [hphase] at hintime
      simp only [work, hphase]
      cases outcome with
      | completed output => exact hintime
      | cancelled => trivial
      | raised message =>
          simp only [LooksAfter] at hintime
          simp only [afterAttempt]
          split_ifs with hretry hempty
          · rw [if_pos hretry] at hintime
            refine ⟨hintime.1, fun hdry => ?_⟩
            rw [hintime.2] at hdry
            cases hdry
          · rw [if_neg hretry, if_pos hempty] at hintime
            exact hintime
          · rw [if_neg hretry, if_neg hempty] at hintime
            exact hintime
  | storing index step output =>
      simp only [LooksAgain, hphase] at hlooks
      simp only [work, hphase, LooksAgain]
      exact hlooks
  | failing index step =>
      simp only [LooksAgain, hphase] at hlooks
      simp only [work, hphase, hlooks.1]
      exact hlooks.2
  | finishing ending =>
      simp only [work, hphase, LooksAgain]
  | ended => simp only [work, hphase, LooksAgain]

/-! ## Runs in which cancellations come in time -/

/-- While a run has workers, one of them has not ended or the run is no longer active. -/
def Attended (s : State) : Prop :=
  s.workers ≠ [] → (∃ w ∈ s.workers, w.phase ≠ .ended) ∨ s.run.status.isActive = false

/-- What a cancellation that came in time leaves. -/
structure Cancelling (s : State) : Prop where
  length : s.run.steps.length = s.run.definition.steps.length
  attended : Attended s
  looks : s.run.cancelRequested = true → ∀ w ∈ s.workers, LooksAgain s.run w
  noted : s.run.cancelRequested = true → .read false true ∉ s.recoveries
  settled : s.run.cancelRequested = true → s.workers ≠ [] →
    (∃ w ∈ s.workers, w.phase ≠ .ended) ∨ s.run.status = .cancelled

theorem cancelling_created (definition : Definition) (dryRun : Bool) :
    Cancelling (created definition dryRun) where
  length := by simp [created, createRun]
  attended := fun h => absurd rfl h
  looks := fun h => by cases h
  noted := fun h => by cases h
  settled := fun h => by cases h

theorem exists_open_set {workers : List Worker} {i : Nat} {w' : Worker} (hi : i < workers.length)
    (hopen : w'.phase ≠ .ended) :
    ∃ w ∈ workers.set i w', w.phase ≠ .ended :=
  ⟨w', List.mem_set hi w', hopen⟩

/-- An action after which a worker has ended stores a final status. -/
theorem ended_work {run : Run} {w : Worker} {outcome : Outcome} (hopen : w.phase ≠ .ended)
    (hended : (work run w outcome).2.phase = .ended) :
    ∃ ending, w.phase = .finishing ending ∧ (work run w outcome).1 = run.setStatus ending.status := by
  cases hphase : w.phase with
  | finishing ending => exact ⟨ending, rfl, by simp [work, hphase]⟩
  | ended => exact absurd hphase hopen
  | atStep index =>
      simp only [work, hphase] at hended
      split at hended
      · cases hended
      · split_ifs at hended
  | invoked index step attempt =>
      simp only [work, hphase] at hended
      cases outcome with
      | completed output => cases hended
      | cancelled => cases hended
      | raised message =>
          simp only [afterAttempt] at hended
          split_ifs at hended
  | ready index step attempt =>
      simp only [work, hphase] at hended
      split at hended <;> cases hended
  | failing index step =>
      simp only [work, hphase] at hended
      split at hended <;> cases hended
  | submitted | loaded | cancellingStep | skipping | attempting | marking | storing =>
      simp only [work, hphase] at hended
      cases hended

/-- The action of a worker keeps what a cancellation in time leaves. -/
theorem Cancelling.work {s : State} (h : Cancelling s) {i : Nat} {outcome : Outcome}
    (hok : InTime s (.work i outcome)) :
    Cancelling (step s (.work i outcome)) := by
  cases hw : s.workers[i]? with
  | none =>
      have hstep : step s (.work i outcome) = s := by simp [step, hw]
      rw [hstep]
      exact h
  | some w =>
      have hi : i < s.workers.length := (List.getElem?_eq_some_iff.1 hw).1
      have hmem : w ∈ s.workers := List.mem_of_getElem? hw
      have hstep : step s (.work i outcome) =
          { s with
            run := (Automations.work s.run w outcome).1
            workers := s.workers.set i (Automations.work s.run w outcome).2 } := by
        simp [step, hw]
      rw [hstep]
      -- A worker that had ended takes no action.
      by_cases hopen : w.phase = .ended
      · have hsame : Automations.work s.run w outcome = (s.run, w) := by
          simp [Automations.work, hopen]
        have hset : s.workers.set i w = s.workers := by
          obtain ⟨_, rfl⟩ := List.getElem?_eq_some_iff.1 hw
          exact List.set_getElem_self hi
        rw [hsame, hset]
        exact h
      · refine ⟨by simpa using h.length, ?_, ?_, ?_, ?_⟩
        · intro _
          by_cases hended : (Automations.work s.run w outcome).2.phase = .ended
          · obtain ⟨ending, _, hrun⟩ := ended_work hopen hended
            right
            simp only [hrun, status_setStatus]
            exact RunStatus.not_active_of_isFinal (isFinal_status ending)
          · exact .inl (exists_open_set hi hended)
        · intro hrequested w' hw'
          simp only [cancelRequested_work] at hrequested
          have hlooks : LooksAgain s.run w' := by
            rcases List.mem_or_eq_of_mem_set hw' with hold | rfl
            · exact h.looks hrequested w' hold
            · exact looksAgain_work h.length hrequested (h.looks hrequested w hmem)
                (hok hrequested w hw)
          exact hlooks.congr (by simp) (by simp)
        · intro hrequested
          simp only [cancelRequested_work] at hrequested
          exact h.noted hrequested
        · intro hrequested _
          simp only [cancelRequested_work] at hrequested
          by_cases hended : (Automations.work s.run w outcome).2.phase = .ended
          · obtain ⟨ending, hphase, hrun⟩ := ended_work hopen hended
            have hlooks := h.looks hrequested w hmem
            simp only [LooksAgain, hphase] at hlooks
            right
            simp only [hrun, status_setStatus, hlooks]
            rfl
          · exact .inl (exists_open_set hi hended)

/-- Another worker is submitted. -/
theorem Cancelling.submit {s s' : State} (h : Cancelling s) (hrun : s'.run = s.run)
    (hworkers : s'.workers = s.workers ++ [submitted])
    (hrecoveries : ∀ r ∈ s'.recoveries, r = .handled ∨ r ∈ s.recoveries) :
    Cancelling s' := by
  have hopen : ∃ w ∈ s'.workers, w.phase ≠ .ended :=
    ⟨submitted, by simp [hworkers], by simp [submitted]⟩
  refine ⟨hrun ▸ h.length, fun _ => .inl hopen, ?_, ?_, fun _ _ => .inl hopen⟩
  · intro hrequested w hw
    rw [hrun] at hrequested ⊢
    rw [hworkers] at hw
    rcases List.mem_append.1 hw with hold | hnew
    · exact h.looks hrequested w hold
    · rw [List.mem_singleton.1 hnew]
      trivial
  · intro hrequested hmem
    rw [hrun] at hrequested
    rcases hrecoveries _ hmem with hhandled | hold
    · cases hhandled
    · exact h.noted hrequested hold

/-- Every step keeps what a cancellation in time leaves. -/
theorem Cancelling.step {s : State} (h : Cancelling s) {ev : Event} (hok : InTime s ev) :
    Cancelling (step s ev) := by
  cases ev with
  | work i outcome => exact h.work hok
  | submit =>
      by_cases hstarting : s.starting = true
      · simp only [Automations.step, hstarting, if_true]
        exact h.submit rfl rfl fun r hr => .inr hr
      · simp only [Automations.step, hstarting]
        exact h
  | cancel =>
      by_cases hactive : s.run.status.isActive = true
      · obtain ⟨hlooks, hnoted⟩ := hok hactive
        have hopen : s.workers ≠ [] → ∃ w ∈ s.workers, w.phase ≠ .ended := by
          intro hworkers
          rcases h.attended hworkers with hopen | hinactive
          · exact hopen
          · rw [hactive] at hinactive
            cases hinactive
        simp only [Automations.step, Run.requestCancel, hactive, if_true]
        exact ⟨h.length, fun hworkers => .inl (hopen hworkers),
          fun _ w hw => (hlooks w hw).congr rfl rfl, fun _ => hnoted,
          fun _ hworkers => .inl (hopen hworkers)⟩
      · simp only [Automations.step, Run.requestCancel, hactive]
        exact h
  | select =>
      by_cases hactive : s.run.status.isActive = true
      · simp only [Automations.step, hactive, if_true]
        refine ⟨h.length, h.attended, h.looks, ?_, h.settled⟩
        intro hrequested hmem
        rcases List.mem_append.1 hmem with hold | hnew
        · exact h.noted hrequested hold
        · cases List.mem_singleton.1 hnew
      · simp only [Automations.step, hactive]
        exact h
  | read j =>
      simp only [Automations.step]
      split
      · refine ⟨h.length, h.attended, h.looks, ?_, h.settled⟩
        intro hrequested hmem
        rcases List.mem_or_eq_of_mem_set hmem with hold | hnew
        · exact h.noted hrequested hold
        · rw [show s.run.cancelRequested = true from hrequested] at hnew
          cases hnew
      · exact h
  | recover j =>
      simp only [Automations.step]
      split
      · rename_i cancelRequested interrupted hj
        have hkept : ∀ r ∈ s.recoveries.set j .handled, r = .handled ∨ r ∈ s.recoveries :=
          fun r hr => (List.mem_or_eq_of_mem_set hr).symm
        have hnoted : s.run.cancelRequested = true →
            .read false true ∉ s.recoveries.set j .handled := by
          intro hrequested hmem
          rcases hkept _ hmem with hhandled | hold
          · cases hhandled
          · exact h.noted hrequested hold
        cases cancelRequested with
        | true =>
            exact ⟨h.length, fun _ => .inr rfl,
              fun hrequested w hw => (h.looks hrequested w hw).congr rfl rfl, hnoted,
              fun _ _ => .inr rfl⟩
        | false =>
            cases interrupted with
            | true =>
                refine ⟨h.length, fun _ => .inr rfl,
                  fun hrequested w hw => (h.looks hrequested w hw).congr rfl rfl, hnoted, ?_⟩
                intro hrequested
                exact absurd (List.mem_of_getElem? hj) (h.noted hrequested)
            | false => exact h.submit rfl rfl hkept
      · exact h
  | crash =>
      refine ⟨h.length, fun hworkers => absurd rfl hworkers, ?_, ?_,
        fun _ hworkers => absurd rfl hworkers⟩
      · intro _ w hw
        cases hw
      · intro _ hmem
        cases hmem

/-- After a cancellation in time no step calls the handler or finishes otherwise. -/
theorem Cancelling.obeys {s : State} (h : Cancelling s) (ev : Event) :
    Obeys s ev := by
  intro hrequested
  cases ev with
  | work i outcome =>
      simp only [startsHandler, finishes?]
      cases hw : s.workers[i]? with
      | none => exact ⟨rfl, fun status hstatus => by cases hstatus⟩
      | some w =>
          have hlooks := h.looks hrequested w (List.mem_of_getElem? hw)
          cases hphase : w.phase with
          | ready index step attempt =>
              simp only [LooksAgain, hphase] at hlooks
              simp only [Option.map_some, hphase]
              exact ⟨hlooks.1, fun status hstatus => by cases hstatus⟩
          | finishing ending =>
              simp only [LooksAgain, hphase] at hlooks
              simp only [Option.map_some, hphase]
              refine ⟨trivial, fun status hstatus => ?_⟩
              cases hstatus
              rw [hlooks]
              rfl
          | submitted | loaded | atStep | cancellingStep | skipping | attempting | marking
          | invoked | storing | failing | ended =>
              simp [hphase]
  | recover j =>
      simp only [startsHandler, finishes?]
      refine ⟨trivial, fun status hstatus => ?_⟩
      split at hstatus
      · cases hstatus
        rfl
      · rename_i hj
        exact absurd (List.mem_of_getElem? hj) (h.noted hrequested)
      · cases hstatus
  | _ => exact ⟨rfl, fun status hstatus => by cases hstatus⟩

/--
When the cancellation comes in time, no handler starts after it, the run is finished
as cancelled and is stored as cancelled once its workers have ended, and they end.
-/
theorem cancellation_obeyed (definition : Definition) (dryRun : Bool) {es : List Event}
    (h : Along step InTime (created definition dryRun) es) :
    Along step Obeys (created definition dryRun) es ∧
      ((run step (created definition dryRun) es).run.cancelRequested = true →
        (run step (created definition dryRun) es).workers ≠ [] →
        (∀ w ∈ (run step (created definition dryRun) es).workers, w.phase = .ended) →
        (run step (created definition dryRun) es).run.status = .cancelled) ∧
      (∀ i w fs, (run step (created definition dryRun) es).workers[i]? = some w → Survives fs →
        w.phase.rank definition ≤ turns i fs →
        ∃ w', (run step (created definition dryRun) (es ++ fs)).workers[i]? = some w' ∧
          w'.phase = .ended) := by
  have hcreated := cancelling_created definition dryRun
  refine ⟨?_, ?_, ?_⟩
  · exact h.ensures (fun s ev (hs : Cancelling s) hok => hs.step hok)
      (fun s ev hs _ => hs.obeys ev) hcreated
  · intro hrequested hworkers hended
    have hinv := h.invariant (fun s ev (hs : Cancelling s) hok => hs.step hok) hcreated
    rcases hinv.settled hrequested hworkers with ⟨w, hw, hopen⟩ | hcancelled
    · exact absurd (hended w hw) hopen
    · exact hcancelled
  · intro i w fs hw hsurvives hturns
    rw [run_append]
    refine worker_ends hw hsurvives ?_
    rw [definition_run]
    exact hturns

/-- A run is cancelled before its first step. -/
def cancelledBeforeStep : List Event :=
  [.submit, .work 0 .cancelled, .work 0 .cancelled, .cancel, .work 0 .cancelled,
    .work 0 .cancelled, .work 0 .cancelled]

/-- The cancellation before the first step is obeyed. -/
theorem cancellation_obeyed_before_step :
    Along step Obeys (created oneStep false) cancelledBeforeStep := by
  refine (cancellation_obeyed oneStep false ?_).1
  simp only [cancelledBeforeStep, along_cons, along_nil, and_true]
  refine ⟨trivial, fun h => (by cases h), fun h => (by cases h), ?_, ?_, ?_, ?_⟩
  · intro _
    refine ⟨?_, by decide⟩
    intro w hw
    rw [List.mem_singleton.1 hw]
    exact ⟨0, Nat.le_refl 0, Nat.zero_lt_one, rfl⟩
  · rintro _ w hw
    cases hw
    trivial
  · rintro _ w hw
    cases hw
    trivial
  · rintro _ w hw
    cases hw
    trivial

/-- A runbook with one step that is tried again once. -/
def oneRetry : Definition where
  steps := [{ stepId := "s1", type := .assetQuery, maxRetries := 1 }]
  nonempty := by simp
  distinct := by simp

/-- The cancellation is requested during the first attempt, which fails. -/
def cancelledDuringAttempt : List Event :=
  [.submit, .work 0 .cancelled, .work 0 .cancelled, .work 0 .cancelled, .work 0 .cancelled,
    .work 0 .cancelled, .work 0 .cancelled, .cancel, .work 0 (.raised "timeout"),
    .work 0 .cancelled, .work 0 .cancelled]

/-- The handler is called again after the cancellation is accepted. -/
theorem handler_starts_after_cancellation :
    ¬ ∀ (definition : Definition) (dryRun : Bool) (es : List Event),
      Along step Obeys (created definition dryRun) es := by
  intro h
  have hrun := h oneRetry false (cancelledDuringAttempt ++ [.work 0 .cancelled])
  rw [along_append] at hrun
  have hstarts := (hrun.2.1 rfl).1
  cases hstarts

end Automations
end MpvmApp
