import MpvmApp.Lib.Runs
import MpvmApp.Operations.Registry

/-!
# Outcomes of background workers

The bulk refresh of the cards and the refresh of the passport catalog have no source table: their
worker, the operators and the sweep of stale operations write the row of the registry themselves.
The worker of a bulk refresh writes without a look at the row.  The one of a catalog refresh reads
it in a transaction before, and so does every cancel request.

Main definitions:

- Definition `finish`: the final update of a worker.
- Definition `advance`: the next statement of a cancel request.
- Definition `Clean`: no final update is dropped, and no cancel request writes after it.

Main results:

- Theorem `inv_step`: a clean step keeps the outcome.
- Theorem `outcome_stays_iff`: the row has the reported status from the final update on
  exactly when the steps are clean.
-/

namespace MpvmApp
namespace Operations
namespace Outcomes

open Remediation Runs

/-! ## The row -/

/-- A row of `operations` with its `updated_at`. -/
structure Entry where
  values : OperationValues
  updatedAt : Stamp

/-- `register_operation` for a row that is stored. -/
def Entry.register (e : Entry) (values : OperationValues) (updatedAt : Stamp) : Entry where
  values := mergeOperation e.values
    { values with progressPercent := clampPercent values.progressPercent }
  updatedAt := updatedAt

@[simp]
theorem status_register (e : Entry) (values : OperationValues) (updatedAt : Stamp) :
    (e.register values updatedAt).values.status = values.status :=
  rfl

/-- The row becomes interrupted. -/
def Entry.interrupt (e : Entry) (message : String) (finishedAt : Option Stamp) (current : Stamp) :
    Entry where
  values := { e.values with
    status := "interrupted", stage := "interrupted", message := some message, finishedAt }
  updatedAt := current

/-- `STALE_OPERATION_HOURS`, in seconds. -/
def staleOperationSeconds : Int :=
  6 * 3600

/-- `interrupt_stale_operations` for the row. -/
def Entry.sweep (e : Entry) (now : Instant) : Entry :=
  if e.values.status ∈ activeOperationStatuses ∧
      e.updatedAt < nowUtc now - staleOperationSeconds then
    e.interrupt "Не обновлялась более 6 ч; помечена прерванной автоматически."
      (Sql.coalesce e.values.finishedAt (some (nowUtc now))) (nowUtc now)
  else e

/-- `ACTIVE` of the catalog refreshes. -/
def activeRefreshStatuses : List String :=
  ["queued", "running", "cancelling"]

/-- `interrupt_active` for the row of a catalog refresh. -/
def Entry.interruptActive (e : Entry) (now : Instant) : Entry :=
  if e.values.status ∈ activeRefreshStatuses then
    e.interrupt "Обновление прервано перезапуском приложения." (some (nowUtc now)) (nowUtc now)
  else e

/-- The statuses that `update` of a catalog refresh does not overwrite. -/
def terminalRefreshStatuses : List String :=
  ["completed", "completed_with_errors", "failed", "cancelled", "interrupted"]

/-- `update` returns the row as it is. -/
def Entry.isTerminal (e : Entry) : Bool :=
  decide (e.values.status ∈ terminalRefreshStatuses)

/-! ## The workers -/

/-- The kinds of operations without a source table that are modelled here. -/
inductive Kind where
  | assetCardBulkRefresh
  | passportCatalogRefresh
deriving DecidableEq, Repr

/-- The worker looks at the row before it writes. -/
def Kind.isGuarded : Kind → Bool
  | .assetCardBulkRefresh => false
  | .passportCatalogRefresh => true

/-- What a worker reports while it works. -/
inductive Progress : Kind → Type where
  | selecting : Progress .assetCardBulkRefresh
  | persistProgress (selected completed failed : Nat) (snapshot : Json) :
      Progress .assetCardBulkRefresh
  | registerChild (count : Nat) (childId : String) (snapshot : Json) :
      Progress .assetCardBulkRefresh
  | progress (percent : Int) (stage message : String) : Progress .passportCatalogRefresh

/-- What a worker reports at its end. -/
inductive Outcome : Kind → Type where
  | summary (selected completed failed : Nat) (snapshot : Json) : Outcome .assetCardBulkRefresh
  | stepCancelled (snapshot : Json) : Outcome .assetCardBulkRefresh
  | stepFailed (exc : String) (snapshot : Json) : Outcome .assetCardBulkRefresh
  | saved (trendFailed hasDetailJob : Bool) (result : Json) : Outcome .passportCatalogRefresh
  | refreshCancelled : Outcome .passportCatalogRefresh
  | refreshFailed (exc : String) : Outcome .passportCatalogRefresh

/-- The first characters of a text. -/
def shortened (length : Nat) (text : String) : String :=
  String.ofList (text.toList.take length)

/-- The registration of a progress update. -/
def Progress.values (label : String) (current : Stamp) :
    {kind : Kind} → Progress kind → OperationValues
  | _, .selecting =>
      { operationId := "", status := "running", stage := "selecting", progressPercent := 0
        subjectType := some "asset_cards", subjectLabel := some label
        message := some "Формируется список карточек для обновления."
        createdAt := current, startedAt := some current }
  | _, .persistProgress selected completed failed snapshot =>
      let processed := completed + failed
      { operationId := "", status := "running"
        stage := if selected ≠ 0 then "refreshing" else "completed"
        progressPercent :=
          if selected ≠ 0 then roundHalfEven (processed * 100 / selected) else 100
        subjectType := some "asset_cards", subjectLabel := some label
        message := some <|
          if selected ≠ 0 then
            s!"Обработано карточек: {processed} из {selected}; ошибок: {failed}."
          else "Карточек для обновления не найдено."
        result := snapshot, createdAt := current }
  | _, .registerChild count childId snapshot =>
      { operationId := "", status := "running", stage := "refreshing", progressPercent := 0
        subjectType := some "asset_cards", subjectLabel := some label
        message := some s!"Запущено дочерних операций: {count}; последняя — {childId}."
        result := snapshot, createdAt := current }
  | _, .progress percent stage message =>
      { operationId := "", status := "running", stage, progressPercent := percent
        message := some message, createdAt := current, startedAt := some current }

/-- The status of an outcome. -/
def Outcome.status : {kind : Kind} → Outcome kind → String
  | _, .summary _ _ failed _ => if failed ≠ 0 then "completed_with_errors" else "completed"
  | _, .stepCancelled _ => "cancelled"
  | _, .stepFailed _ _ => "failed"
  | _, .saved trendFailed _ _ => if trendFailed then "completed_with_errors" else "completed"
  | _, .refreshCancelled => "cancelled"
  | _, .refreshFailed _ => "failed"

/-- The registration of the final update. -/
def Outcome.values (label : String) (current : Stamp) :
    {kind : Kind} → Outcome kind → OperationValues
  | _, outcome@(.summary selected completed failed snapshot) =>
      { operationId := "", status := outcome.status, stage := outcome.status
        progressPercent := 100
        subjectType := some "asset_cards", subjectLabel := some label
        message := some s!"Обновлено карточек: {completed} из {selected}; ошибок: {failed}."
        result := snapshot, createdAt := current, finishedAt := some current }
  | _, outcome@(.stepCancelled snapshot) =>
      { operationId := "", status := outcome.status, stage := "cancelled", progressPercent := 0
        subjectType := some "asset_cards", subjectLabel := some label
        message := some "Массовое обновление карточек остановлено."
        result := snapshot, createdAt := current, finishedAt := some current }
  | _, outcome@(.stepFailed exc snapshot) =>
      { operationId := "", status := outcome.status, stage := "failed", progressPercent := 0
        subjectType := some "asset_cards", subjectLabel := some label
        message := some "Не удалось выполнить массовое обновление карточек."
        error := .message (shortened 1000 exc)
        result := snapshot, createdAt := current, finishedAt := some current }
  | _, outcome@(.saved trendFailed hasDetailJob result) =>
      { operationId := "", status := outcome.status, stage := "completed", progressPercent := 100
        message := some <|
          if trendFailed then "Список сохранён, но тренды не обновлены."
          else if hasDetailJob then
            "Обновление списка завершено. Детали загружаются отдельной задачей."
          else "Обновление паспортов завершено."
        result, createdAt := current, finishedAt := some current }
  | _, outcome@.refreshCancelled =>
      { operationId := "", status := outcome.status, stage := "cancelled", progressPercent := 0
        message := some "Обновление остановлено."
        createdAt := current, finishedAt := some current }
  | _, outcome@(.refreshFailed exc) =>
      { operationId := "", status := outcome.status, stage := "failed", progressPercent := 0
        message := some (shortened 2000 ("Ошибка обновления: " ++ exc))
        createdAt := current, finishedAt := some current }

/-- What the worker does instead of its next report when the cancellation event is set. -/
def Kind.onCancel : (kind : Kind) → Option (Outcome kind)
  | .assetCardBulkRefresh => none
  | .passportCatalogRefresh => some .refreshCancelled

/-- The last look at the cancellation event, before a catalog refresh reports what it has saved. -/
def Outcome.polled (cancelEvent : Bool) : {kind : Kind} → Outcome kind → Outcome kind
  | _, .saved trendFailed hasDetailJob result =>
      if cancelEvent then .refreshCancelled else .saved trendFailed hasDetailJob result
  | _, outcome => outcome

@[simp]
theorem status_values (label : String) (current : Stamp) {kind : Kind} (outcome : Outcome kind) :
    (outcome.values label current).status = outcome.status := by
  cases outcome <;> rfl

@[simp]
theorem status_progress (label : String) (current : Stamp) {kind : Kind}
    (progress : Progress kind) :
    (progress.values label current).status = "running" := by
  cases progress <;> rfl

/-! ## The system -/

/-- How far the worker is; a catalog refresh has read the row before it writes. -/
inductive Phase (kind : Kind) where
  | working
  | updating (progress : Progress kind)
  | finishing (outcome : Outcome kind)
  | finished (status : String)
  | gone

/-- How far a cancel request is; the phases are the statements that it goes on with. -/
inductive Request where
  | cancelOperation
  | requestCancel
  | update (percent : Int)
  | register (percent : Int)
deriving DecidableEq

/-- The row, the worker, the cancellation event and the cancel requests. -/
structure System (kind : Kind) where
  label : String
  entry : Entry
  phase : Phase kind := .working
  cancelEvent : Bool := false
  requests : List Request := []

/-- The row as the operation is created, before its worker starts. -/
def System.initial (kind : Kind) (label : String) (request : Json) (now : Instant) :
    System kind where
  label := label
  entry :=
    { values :=
        match kind with
        | .assetCardBulkRefresh =>
            { operationId := "", status := "queued", stage := "queued", progressPercent := 0
              subjectType := some "asset_cards", subjectLabel := some label
              message := some "Массовое обновление карточек поставлено в очередь."
              request, createdAt := nowUtc now }
        | .passportCatalogRefresh =>
            { operationId := "", status := "queued", stage := "queued", progressPercent := 0
              subjectType := some "vulnerability_passports"
              subjectLabel := some "Паспорта уязвимостей"
              message := some "Обновление поставлено в очередь."
              request, createdAt := nowUtc now }
      updatedAt := nowUtc now }

section Steps

variable {kind : Kind}

/-- A progress update: it is written at once, or the row is read before. -/
def report (s : System kind) (progress : Progress kind) (now : Instant) : System kind :=
  if kind.isGuarded then
    if s.entry.isTerminal then s else { s with phase := .updating progress }
  else
    { s with entry := s.entry.register (progress.values s.label (nowUtc now)) (nowUtc now) }

/-- The final update: it is written at once, or the row is read before. -/
def finish (s : System kind) (outcome : Outcome kind) (now : Instant) : System kind :=
  if kind.isGuarded then
    if s.entry.isTerminal then { s with phase := .finished outcome.status }
    else { s with phase := .finishing outcome }
  else
    { s with
      entry := s.entry.register (outcome.values s.label (nowUtc now)) (nowUtc now)
      phase := .finished outcome.status }

/-- The write of an update after the row has been read. -/
def write (s : System kind) (now : Instant) : System kind :=
  match s.phase with
  | .updating progress =>
      { s with
        entry := s.entry.register (progress.values s.label (nowUtc now)) (nowUtc now)
        phase := .working }
  | .finishing outcome =>
      { s with
        entry := s.entry.register (outcome.values s.label (nowUtc now)) (nowUtc now)
        phase := .finished outcome.status }
  | _ => s

/-- The registration of a cancel request. -/
def cancelValues (kind : Kind) (percent : Int) (current : Stamp) : OperationValues where
  operationId := ""
  status := "cancelling"
  stage := "cancelling"
  progressPercent := percent
  message := some <|
    match kind with
    | .assetCardBulkRefresh => "Остановка массового обновления карточек запрошена."
    | .passportCatalogRefresh => "Остановка запрошена."
  createdAt := current

/-- The next statement of the cancel request with this number. -/
def advance (s : System kind) (i : Nat) (now : Instant) : System kind :=
  match s.requests[i]? with
  | some .cancelOperation =>
      if s.entry.values.status ∈ activeOperationStatuses then
        { s with
          cancelEvent := true
          requests := s.requests.set i <|
            match kind with
            | .assetCardBulkRefresh => .register (clampPercent s.entry.values.progressPercent)
            | .passportCatalogRefresh => .requestCancel }
      else { s with requests := s.requests.eraseIdx i }
  | some .requestCancel =>
      { s with
        cancelEvent := true
        requests :=
          if s.entry.values.status ∈ activeRefreshStatuses then
            s.requests.set i (.update (clampPercent s.entry.values.progressPercent))
          else s.requests.eraseIdx i }
  | some (.update percent) =>
      { s with
        requests :=
          if s.entry.isTerminal then s.requests.eraseIdx i
          else s.requests.set i (.register percent) }
  | some (.register percent) =>
      { s with
        entry := s.entry.register (cancelValues kind percent (nowUtc now)) (nowUtc now)
        requests := s.requests.eraseIdx i }
  | none => s

/-- What can happen next. -/
inductive Event (kind : Kind) where
  | progress (progress : Progress kind) (now : Instant)
  | finish (outcome : Outcome kind) (now : Instant)
  | write (now : Instant)
  | writeFails
  | request (direct : Bool)
  | advance (i : Nat) (now : Instant)
  | drop (i : Nat)
  | sweep (now : Instant)
  | restart (now : Instant)

/-- One step of the system. -/
def step (s : System kind) : Event kind → System kind
  | .progress progress now =>
      match s.phase with
      | .working =>
          match if s.cancelEvent then kind.onCancel else none with
          | some outcome => finish s outcome now
          | none => report s progress now
      | _ => s
  | .finish outcome now =>
      match s.phase with
      | .working => finish s (outcome.polled s.cancelEvent) now
      | _ => s
  | .write now => write s now
  -- The worker catches the error and goes on to report a failure.
  | .writeFails =>
      match s.phase with
      | .updating _ => { s with phase := .working }
      | .finishing _ => { s with phase := .working }
      | _ => s
  -- The operations API, or the endpoint of the catalog refreshes.
  | .request direct =>
      { s with
        requests := s.requests ++
          [if direct && kind.isGuarded then .requestCancel else .cancelOperation] }
  | .advance i now => advance s i now
  | .drop i => { s with requests := s.requests.eraseIdx i }
  | .sweep now => { s with entry := s.entry.sweep now }
  | .restart now =>
      { s with
        entry := if kind.isGuarded then s.entry.interruptActive now else s.entry
        phase :=
          match s.phase with
          | .finished status => .finished status
          | _ => .gone
        cancelEvent := false
        requests := [] }

/-- After the final update the row has the status that the worker has reported. -/
def Faithful (s : System kind) : Prop :=
  ∀ status, s.phase = .finished status → s.entry.values.status = status

/-- The step is the final update of the worker. -/
def System.issuesFinal (s : System kind) : Event kind → Bool
  | .progress _ _ => s.cancelEvent && kind.onCancel.isSome
  | .finish _ _ => true
  | _ => false

/--
A final update that reads the row before does not find it interrupted, and no cancel request
writes after the final update.
-/
def Clean (s : System kind) (e : Event kind) : Prop :=
  (s.phase = .working → s.issuesFinal e = true → kind.isGuarded = true →
      s.entry.values.status ≠ "interrupted") ∧
    ∀ i now percent, e = .advance i now → s.requests[i]? = some (.register percent) →
      ∀ status, s.phase ≠ .finished status

/-! ## What holds in every run -/

/-- The statuses of an operation whose worker has not reported its outcome. -/
def openStatuses : List String :=
  ["queued", "running", "cancelling", "interrupted"]

/-- The statuses that a worker reports at its end. -/
def reportedStatuses : List String :=
  ["completed", "completed_with_errors", "failed", "cancelled"]

/-- The row is open until the final update, and then it has the reported status. -/
structure Inv (s : System kind) : Prop where
  unreported : (∀ status, s.phase ≠ .finished status) → s.entry.values.status ∈ openStatuses
  reported : ∀ status, s.phase = .finished status →
    s.entry.values.status = status ∧ status ∈ reportedStatuses

variable {s : System kind}

theorem status_mem_reportedStatuses (outcome : Outcome kind) :
    outcome.status ∈ reportedStatuses := by
  unfold reportedStatuses
  cases outcome with
  | summary selected completed failed snapshot =>
      rw [Outcome.status]
      split <;> simp
  | saved trendFailed hasDetailJob result =>
      rw [Outcome.status]
      split <;> simp
  | _ => simp [Outcome.status]

theorem not_active_of_reported {status : String} (h : status ∈ reportedStatuses) :
    status ∉ activeOperationStatuses ∧ status ∉ activeRefreshStatuses ∧
      status ≠ "interrupted" := by
  simp only [reportedStatuses, List.mem_cons, List.not_mem_nil, or_false] at h
  rcases h with rfl | rfl | rfl | rfl <;> decide

theorem isTerminal_iff_of_open {e : Entry} (h : e.values.status ∈ openStatuses) :
    e.isTerminal = true ↔ e.values.status = "interrupted" := by
  unfold Entry.isTerminal
  generalize e.values.status = status at h
  simp only [openStatuses, List.mem_cons, List.not_mem_nil, or_false] at h
  rcases h with rfl | rfl | rfl | rfl <;> decide

theorem queued_mem_openStatuses :
    "queued" ∈ openStatuses := by
  decide

theorem running_mem_openStatuses :
    "running" ∈ openStatuses := by
  decide

theorem cancelling_mem_openStatuses :
    "cancelling" ∈ openStatuses := by
  decide

theorem interrupted_mem_openStatuses :
    "interrupted" ∈ openStatuses := by
  decide

theorem Inv.faithful (h : Inv s) : Faithful s :=
  fun status hphase => (h.reported status hphase).1

theorem inv_of_open {s' : System kind} (hphase : ∀ status, s'.phase ≠ .finished status)
    (hopen : s'.entry.values.status ∈ openStatuses) :
    Inv s' where
  unreported := fun _ => hopen
  reported := fun status h => absurd h (hphase status)

theorem inv_of_reported {s' : System kind} {outcome : Outcome kind}
    (hphase : s'.phase = .finished outcome.status)
    (hstatus : s'.entry.values.status = outcome.status) :
    Inv s' where
  unreported := fun h => absurd hphase (h outcome.status)
  reported := by
    intro status h
    obtain rfl : status = outcome.status := by
      rw [hphase] at h
      exact (Phase.finished.inj h).symm
    exact ⟨hstatus, status_mem_reportedStatuses outcome⟩

theorem Inv.same (h : Inv s) {s' : System kind}
    (hstatus : s'.entry.values.status = s.entry.values.status) (hphase : s'.phase = s.phase) :
    Inv s' where
  unreported := by
    rw [hstatus, hphase]
    exact h.unreported
  reported := by
    rw [hstatus, hphase]
    exact h.reported

/-! ## The worker -/

theorem Inv.finish (h : Inv s) (hphase : s.phase = .working) (outcome : Outcome kind)
    (now : Instant)
    (hclean : kind.isGuarded = true → s.entry.values.status ≠ "interrupted") :
    Inv (finish s outcome now) := by
  have hopen := h.unreported (by rw [hphase]; nofun)
  unfold Outcomes.finish
  split
  · rename_i hguarded
    split
    · rename_i hterminal
      exact absurd ((isTerminal_iff_of_open hopen).1 hterminal) (hclean hguarded)
    · exact inv_of_open nofun hopen
  · exact inv_of_reported rfl (by simp)

theorem not_faithful_finish (outcome : Outcome kind) (now : Instant)
    (hguarded : kind.isGuarded = true) (hstatus : s.entry.values.status = "interrupted") :
    ¬ Faithful (finish s outcome now) := by
  have hterminal : s.entry.isTerminal = true := by
    rw [Entry.isTerminal, hstatus]
    rfl
  intro h
  rw [finish, if_pos hguarded, if_pos hterminal] at h
  have hsame : s.entry.values.status = outcome.status := h outcome.status rfl
  rw [hstatus] at hsame
  exact (not_active_of_reported (status_mem_reportedStatuses outcome)).2.2 hsame.symm

theorem Inv.report (h : Inv s) (hphase : s.phase = .working) (progress : Progress kind)
    (now : Instant) :
    Inv (report s progress now) := by
  have hopen := h.unreported (by rw [hphase]; nofun)
  unfold Outcomes.report
  split
  · split
    · exact h
    · exact inv_of_open nofun hopen
  · refine inv_of_open (by rw [hphase]; nofun) ?_
    rw [status_register, status_progress]
    exact running_mem_openStatuses

theorem Inv.write (h : Inv s) (now : Instant) :
    Inv (write s now) := by
  unfold Outcomes.write
  split
  · refine inv_of_open nofun ?_
    rw [status_register, status_progress]
    exact running_mem_openStatuses
  · exact inv_of_reported rfl (by simp)
  · exact h

/-! ## The others -/

theorem Inv.sweep (h : Inv s) (now : Instant) :
    Inv { s with entry := s.entry.sweep now } := by
  unfold Entry.sweep
  split
  · rename_i hstale
    refine ⟨fun _ => interrupted_mem_openStatuses, fun status hphase => ?_⟩
    obtain ⟨hstatus, hreported⟩ := h.reported status hphase
    exact absurd (hstatus ▸ hstale.1) (not_active_of_reported hreported).1
  · exact h

/-- A restart leaves a reported status, and an open row open. -/
theorem Inv.restart (h : Inv s) (now : Instant) :
    Inv (step s (.restart now)) := by
  have hentry : ∀ status, s.phase = .finished status →
      (if kind.isGuarded then s.entry.interruptActive now else s.entry) = s.entry := by
    intro status hphase
    obtain ⟨hstatus, hreported⟩ := h.reported status hphase
    have hnot : s.entry.values.status ∉ activeRefreshStatuses :=
      hstatus ▸ (not_active_of_reported hreported).2.1
    split
    · exact if_neg hnot
    · rfl
  cases hphase : s.phase with
  | finished status =>
      refine h.same ?_ ?_
      · simp only [step, hentry status hphase]
      · simp only [step, hphase]
  | _ =>
      refine inv_of_open (by simp only [step, hphase]; nofun) ?_
      have hopen := h.unreported (by rw [hphase]; nofun)
      simp only [step]
      split
      · unfold Entry.interruptActive
        split
        · exact interrupted_mem_openStatuses
        · exact hopen
      · exact hopen

theorem Inv.advance (h : Inv s) (i : Nat) (now : Instant)
    (hclean : ∀ percent, s.requests[i]? = some (.register percent) →
      ∀ status, s.phase ≠ .finished status) :
    Inv (advance s i now) := by
  unfold Outcomes.advance
  split
  · split
    · exact h.same rfl rfl
    · exact h.same rfl rfl
  · exact h.same rfl rfl
  · exact h.same rfl rfl
  · rename_i percent hrequest
    refine inv_of_open (hclean percent hrequest) ?_
    rw [status_register]
    exact cancelling_mem_openStatuses
  · exact h

theorem not_faithful_advance (h : Inv s) {i : Nat} {now : Instant} {percent : Int}
    {status : String} (hrequest : s.requests[i]? = some (.register percent))
    (hphase : s.phase = .finished status) :
    ¬ Faithful (advance s i now) := by
  intro hfaithful
  simp only [advance, hrequest] at hfaithful
  have hcancelling : "cancelling" = status := hfaithful status hphase
  have hnot := (not_active_of_reported (h.reported status hphase).2).1
  rw [← hcancelling] at hnot
  exact hnot (by decide)

/-! ## One step -/

theorem step_progress (hphase : s.phase = .working) (progress : Progress kind) (now : Instant) :
    (∃ outcome, s.issuesFinal (.progress progress now) = true ∧
        step s (.progress progress now) = finish s outcome now) ∨
      s.issuesFinal (.progress progress now) = false ∧
        step s (.progress progress now) = report s progress now := by
  simp only [step, hphase, System.issuesFinal]
  cases hevent : s.cancelEvent with
  | false => exact .inr ⟨rfl, rfl⟩
  | true =>
      cases hcancel : kind.onCancel with
      | none => exact .inr ⟨rfl, rfl⟩
      | some outcome => exact .inl ⟨outcome, rfl, rfl⟩

theorem step_progress_of_not_working (hphase : s.phase ≠ .working) (progress : Progress kind)
    (now : Instant) :
    step s (.progress progress now) = s := by
  cases hnow : s.phase with
  | working => exact absurd hnow hphase
  | _ => simp only [step, hnow]

theorem step_finish_of_not_working (hphase : s.phase ≠ .working) (outcome : Outcome kind)
    (now : Instant) :
    step s (.finish outcome now) = s := by
  cases hnow : s.phase with
  | working => exact absurd hnow hphase
  | _ => simp only [step, hnow]

/-- A clean step keeps the outcome. -/
theorem inv_step (h : Inv s) {e : Event kind} (hclean : Clean s e) :
    Inv (step s e) := by
  obtain ⟨hfinal, hwrites⟩ := hclean
  cases e with
  | progress progress now =>
      by_cases hphase : s.phase = .working
      · rcases step_progress hphase progress now with ⟨outcome, hissues, hstep⟩ | ⟨_, hstep⟩
        · rw [hstep]
          exact h.finish hphase outcome now (hfinal hphase hissues)
        · rw [hstep]
          exact h.report hphase progress now
      · rw [step_progress_of_not_working hphase]
        exact h
  | finish outcome now =>
      by_cases hphase : s.phase = .working
      · simp only [step, hphase]
        exact h.finish hphase _ now (hfinal hphase rfl)
      · rw [step_finish_of_not_working hphase]
        exact h
  | write now => exact h.write now
  | writeFails =>
      simp only [step]
      split
      · rename_i hphase
        exact inv_of_open nofun (h.unreported (by rw [hphase]; nofun))
      · rename_i hphase
        exact inv_of_open nofun (h.unreported (by rw [hphase]; nofun))
      · exact h
  | request direct => exact h.same rfl rfl
  | advance i now => exact h.advance i now fun percent => hwrites i now percent rfl
  | drop i => exact h.same rfl rfl
  | sweep now => exact h.sweep now
  | restart now => exact h.restart now

/-- A step that is not clean takes the outcome away. -/
theorem not_faithful_step (h : Inv s) {e : Event kind} (hclean : ¬ Clean s e) :
    ¬ Faithful (step s e) := by
  by_cases hfinal : s.phase = .working ∧ s.issuesFinal e = true ∧ kind.isGuarded = true ∧
      s.entry.values.status = "interrupted"
  · obtain ⟨hphase, hissues, hguarded, hstatus⟩ := hfinal
    cases e with
    | progress progress now =>
        rcases step_progress hphase progress now with ⟨outcome, _, hstep⟩ | ⟨hnot, _⟩
        · rw [hstep]
          exact not_faithful_finish outcome now hguarded hstatus
        · rw [hissues] at hnot
          cases hnot
    | finish outcome now =>
        simp only [step, hphase]
        exact not_faithful_finish _ now hguarded hstatus
    | _ => cases hissues
  · -- the other half of the condition fails
    have hwrites : ∃ i now percent status, e = .advance i now ∧
        s.requests[i]? = some (.register percent) ∧ s.phase = .finished status := by
      by_contra hnone
      refine hclean ⟨?_, ?_⟩
      · exact fun hphase hissues hguarded hstatus =>
          hfinal ⟨hphase, hissues, hguarded, hstatus⟩
      · exact fun i now percent he hrequest status hphase =>
          hnone ⟨i, now, percent, status, he, hrequest, hphase⟩
    obtain ⟨i, now, percent, status, rfl, hrequest, hphase⟩ := hwrites
    exact not_faithful_advance h hrequest hphase

theorem faithful_step_iff (h : Inv s) (e : Event kind) :
    Faithful (step s e) ↔ Clean s e := by
  constructor
  · intro hfaithful
    by_contra hclean
    exact not_faithful_step h hclean hfaithful
  · exact fun hclean => (inv_step h hclean).faithful

end Steps

/--
From the final update of the worker on the row has the status that it has reported, whatever
progress updates, cancel requests and sweeps there are, exactly when no step of the run lets a
final update find the row interrupted or a cancel request write after it.
-/
theorem outcome_stays_iff (kind : Kind) (label : String) (request : Json) (now : Instant)
    (es : List (Event kind)) :
    Along step (fun s e => Faithful (step s e)) (System.initial kind label request now) es ↔
      Along step Clean (System.initial kind label request now) es := by
  have hstep : ∀ (s : System kind) (e : Event kind), Inv s → Faithful (step s e) →
      Inv (step s e) :=
    fun s e h hfaithful => inv_step h ((faithful_step_iff h e).1 hfaithful)
  have hiff : ∀ (s : System kind) (e : Event kind), Inv s →
      (Faithful (step s e) ↔ Clean s e) :=
    fun s e h => faithful_step_iff h e
  have hinitial : Inv (System.initial kind label request now) := by
    refine inv_of_open nofun ?_
    cases kind with
    | _ => exact queued_mem_openStatuses
  exact along_congr hstep hiff hinitial es

/-! ## Two outcomes that are lost -/

/-- An operator has looked at the running operation when its worker completes it. -/
def cancelledLate : List (Event .assetCardBulkRefresh) :=
  [.progress .selecting 0, .request false, .advance 0 (1 * second),
    .finish (.summary 1 1 0 (.obj [])) (2 * second), .advance 0 (3 * second)]

/-- A catalog refresh is silent for longer than the sweep waits, and then it completes. -/
def sweptMeanwhile : List (Event .passportCatalogRefresh) :=
  [.progress (.progress 1 "starting" "") 0, .write 0, .sweep (7 * 3600 * second),
    .finish (.saved false false (.obj [])) (8 * 3600 * second)]

/-- The row of a completed operation is cancelling, and that of another one is interrupted. -/
theorem completed_outcomes_lost :
    (¬ Along step (fun s e => Faithful (step s e))
        (System.initial .assetCardBulkRefresh "" (.obj []) 0) cancelledLate) ∧
      ¬ Along step (fun s e => Faithful (step s e))
        (System.initial .passportCatalogRefresh "" (.obj []) 0) sweptMeanwhile := by
  constructor
  · rintro ⟨_, _, _, _, hlast, _⟩
    exact absurd (hlast "completed" rfl) (by decide +kernel)
  · rintro ⟨_, _, _, hlast, _⟩
    exact absurd (hlast "completed" rfl) (by decide +kernel)

end Outcomes
end Operations
end MpvmApp
