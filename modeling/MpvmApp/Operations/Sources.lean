import MpvmApp.Operations.Registry

/-!
# The source tables of the operations

Asset card jobs, passport detail jobs, scan postprocess runs, imports and asset
removals with their writers.  A writer is an `UPDATE`: the rows that it takes and what
it sets in them.  Each table has its translation into the arguments of a
registration, as the synchronisation makes them.

Main definitions:

- `BuildJobWrite`, `DetailJobWrite`, `PostprocessWrite`, `ImportWrite`: the updates of the
  four tables that have some.
- `BuildJob.operation` and its siblings: the registration of a source row.
-/

namespace MpvmApp
namespace Operations

open Remediation

/-- A text that is present and not empty. -/
def nonEmpty (text : Option String) : Option String :=
  text.filter fun s => decide (s ≠ "")

/-- A number inside a result document. -/
def jsonNat (n : Nat) : Json :=
  .num (toString n)

/-- A nullable text inside a result document. -/
def jsonText : Option String → Json
  | some s => .str s
  | none => .null

/-! ## Asset card jobs -/

/-- A row of `asset_card_build_jobs`. -/
structure BuildJob where
  jobId : String
  traceId : Option String
  assetId : String
  operation : String
  status : String := "queued"
  stage : String := "queued"
  progressPercent : Int := 0
  request : Json
  stats : Json := .obj []
  cancelRequested : Bool := false
  message : Option String := none
  createdAt : Stamp
  startedAt : Option Stamp := none
  finishedAt : Option Stamp := none
  updatedAt : Stamp

/-- The statuses of a job that has not ended. -/
def activeJobStatuses : List String :=
  ["queued", "running", "cancelling"]

/-- The updates of `asset_card_build_jobs`. -/
inductive BuildJobWrite where
  /-- `interrupt_active_asset_card_build_jobs` -/
  | interruptActive
  /-- `start_asset_card_build_job` -/
  | start (jobId : String)
  /-- `update_asset_card_build_job` -/
  | update (jobId stage : String) (progressPercent : Int) (stats : Json)
  /-- `request_asset_card_build_job_cancel` -/
  | requestCancel (jobId : String)
  /-- `finish_asset_card_build_job` -/
  | finish (jobId status stage : String) (message : Option String) (stats : Option Json)
  /-- `rebind_scan_postprocess_asset` -/
  | rebind (jobId assetId : String)

/-- The rows that the update takes. -/
def BuildJobWrite.takes : BuildJobWrite → BuildJob → Bool
  | .interruptActive, job => decide (job.status ∈ activeJobStatuses)
  | .start jobId, job => decide (job.jobId = jobId ∧ job.status = "queued")
  | .update jobId _ _ _, job => decide (job.jobId = jobId)
  | .requestCancel jobId, job => decide (job.jobId = jobId ∧ job.status ∈ activeJobStatuses)
  | .finish jobId _ _ _ _, job => decide (job.jobId = jobId)
  | .rebind jobId _, job => decide (job.jobId = jobId)

/-- What the update sets in a row. -/
def BuildJobWrite.set (write : BuildJobWrite) (now : Instant) (job : BuildJob) : BuildJob :=
  match write with
  | .interruptActive =>
      { job with
        status := "interrupted"
        stage := "interrupted"
        message := some "Application restarted before the asset card build finished."
        finishedAt := some (nowUtc now)
        updatedAt := nowUtc now }
  | .start _ =>
      { job with
        status := if job.cancelRequested then "cancelling" else "running"
        stage := if job.cancelRequested then "cancelling" else "starting"
        progressPercent := max job.progressPercent 5
        startedAt := Sql.coalesce job.startedAt (some (nowUtc now))
        updatedAt := nowUtc now }
  | .update _ stage progressPercent stats =>
      { job with
        stage := stage
        progressPercent := max job.progressPercent (min 100 (max 0 progressPercent))
        stats := stats
        updatedAt := nowUtc now }
  | .requestCancel _ =>
      { job with
        cancelRequested := true
        status := "cancelling"
        stage := "cancelling"
        updatedAt := nowUtc now }
  | .finish _ status stage message stats =>
      { job with
        status := status
        stage := stage
        message := message
        progressPercent := if status = "completed" then 100 else job.progressPercent
        stats := stats.getD job.stats
        finishedAt := some (nowUtc now)
        updatedAt := nowUtc now }
  | .rebind _ assetId => { job with assetId := assetId, updatedAt := nowUtc now }

/-- The registration of a job by the synchronisation. -/
def BuildJob.operationRow (job : BuildJob) : OperationRow :=
  Operations.operationRow (.assetCardBuild, job.jobId)
    { operationId := job.jobId
      status := job.status
      stage := if job.stage = "" then job.status else job.stage
      progressPercent := job.progressPercent
      subjectType := some "asset"
      subjectId := some job.assetId
      subjectLabel := some job.assetId
      message := job.message
      request := job.request
      result := job.stats
      traceId := job.traceId
      createdAt := job.createdAt
      startedAt := job.startedAt
      finishedAt := job.finishedAt }
    job.updatedAt

/-! ## Passport detail jobs -/

/-- A row of `vulnerability_passport_detail_jobs`. -/
structure DetailJob where
  jobId : String
  status : String
  requestedCount : Nat
  eligibleCount : Nat
  processedCount : Nat := 0
  loadedCount : Nat := 0
  failedCount : Nat := 0
  skippedFreshCount : Nat
  cancelRequested : Bool := false
  errors : List (List (String × String)) := []
  message : Option String := none
  createdAt : Stamp
  startedAt : Option Stamp := none
  finishedAt : Option Stamp
  updatedAt : Stamp

/-- The updates of `vulnerability_passport_detail_jobs`. -/
inductive DetailJobWrite where
  /-- `interrupt_active_vulnerability_passport_detail_jobs` -/
  | interruptActive
  /-- `start_vulnerability_passport_detail_job` -/
  | start (jobId : String)
  /-- `request_vulnerability_passport_detail_job_cancel` -/
  | requestCancel (jobId : String)
  /-- `save_vulnerability_passport_detail_job_batch` -/
  | saveBatch (jobId : String) (loadedCount : Nat) (errors : List (List (String × String)))
  /-- `finish_vulnerability_passport_detail_job` -/
  | finish (jobId status : String) (message : Option String)

/-- The rows that the update takes. -/
def DetailJobWrite.takes : DetailJobWrite → DetailJob → Bool
  | .interruptActive, job => decide (job.status ∈ activeJobStatuses)
  | .start jobId, job => decide (job.jobId = jobId ∧ job.status = "queued")
  | .requestCancel jobId, job => decide (job.jobId = jobId ∧ job.status ∈ activeJobStatuses)
  | .saveBatch jobId _ _, job => decide (job.jobId = jobId)
  | .finish jobId _ _, job => decide (job.jobId = jobId)

/-- What the update sets in a row. -/
def DetailJobWrite.set (write : DetailJobWrite) (now : Instant) (job : DetailJob) : DetailJob :=
  match write with
  | .interruptActive =>
      { job with
        status := "interrupted"
        message := some "Application restarted before the detail sync finished."
        finishedAt := some (nowUtc now)
        updatedAt := nowUtc now }
  | .start _ =>
      { job with
        status := if job.cancelRequested then "cancelling" else "running"
        startedAt := Sql.coalesce job.startedAt (some (nowUtc now))
        updatedAt := nowUtc now }
  | .requestCancel _ =>
      { job with cancelRequested := true, status := "cancelling", updatedAt := nowUtc now }
  | .saveBatch _ loadedCount errors =>
      { job with
        processedCount := job.processedCount + (loadedCount + errors.length)
        loadedCount := job.loadedCount + loadedCount
        failedCount := job.failedCount + errors.length
        errors := (job.errors ++ errors).take 100
        updatedAt := nowUtc now }
  | .finish _ status message =>
      { job with
        status := status
        message := message
        finishedAt := some (nowUtc now)
        updatedAt := nowUtc now }

/-- The registration of a job by the synchronisation. -/
def DetailJob.operationRow (job : DetailJob) : OperationRow :=
  Operations.operationRow (.passportDetailSync, job.jobId)
    { operationId := job.jobId
      status := job.status
      stage := job.status
      progressPercent :=
        if job.eligibleCount = 0 then 100
        else roundHalfEven ((job.processedCount * 100 : Nat) / job.eligibleCount)
      subjectType := some "vulnerability_passports"
      subjectLabel := some "Vulnerability passports"
      message := job.message
      error := .items job.errors
      result := .obj
        [("requested_count", jsonNat job.requestedCount),
          ("eligible_count", jsonNat job.eligibleCount),
          ("processed_count", jsonNat job.processedCount),
          ("loaded_count", jsonNat job.loadedCount),
          ("failed_count", jsonNat job.failedCount),
          ("skipped_fresh_count", jsonNat job.skippedFreshCount)]
      createdAt := job.createdAt
      startedAt := job.startedAt
      finishedAt := job.finishedAt }
    job.updatedAt

/-! ## Scan postprocess runs -/

/-- A row of `scan_postprocess_runs`; `options` is its `options_json`. -/
structure PostprocessRun where
  runId : String
  mpTaskId : String
  mpRunId : Option String := none
  status : String := "monitoring"
  stage : String := "waiting_for_run"
  options : Json
  cancelRequested : Bool := false
  workerId : Option String := none
  runStartedAt : Option String := none
  totalJobCount : Nat := 0
  successfulJobCount : Nat := 0
  targetCount : Nat := 0
  assetCount : Nat := 0
  completedCount : Nat := 0
  failedCount : Nat := 0
  message : Option String := none
  error : Option String := none
  createdAt : Stamp
  startedAt : Option Stamp := none
  finishedAt : Option Stamp := none
  updatedAt : Stamp

/-- The statuses of a run that has not ended. -/
def activeRunStatuses : List String :=
  ["monitoring", "resolving", "processing", "waiting", "cancelling"]

/-- The fields that `update_scan_postprocess_run` may set; absent ones stay. -/
structure PostprocessValues where
  mpRunId : Option (Option String) := none
  status : Option String := none
  stage : Option String := none
  runStartedAt : Option (Option String) := none
  totalJobCount : Option Nat := none
  successfulJobCount : Option Nat := none
  targetCount : Option Nat := none
  assetCount : Option Nat := none
  completedCount : Option Nat := none
  failedCount : Option Nat := none
  message : Option (Option String) := none
  error : Option (Option String) := none
  workerId : Option (Option String) := none
deriving DecidableEq

/-- The updates of `scan_postprocess_runs`. -/
inductive PostprocessWrite where
  /-- `claim_scan_postprocess_run` -/
  | claim (runId workerId : String)
  /-- `release_scan_postprocess_leases` -/
  | releaseLeases
  /-- `update_scan_postprocess_run` -/
  | update (runId : String) (values : PostprocessValues)
  /-- `finish_scan_postprocess_run` -/
  | finish (runId status stage : String) (message error : Option String)
  /-- `update_scan_postprocess_docker_group` -/
  | dockerGroup (runId : String) (values : List (String × Json))
  /-- `request_scan_postprocess_cancel` -/
  | requestCancel (runId : String)

/-- The rows that the update takes; an update without fields is no statement at all. -/
def PostprocessWrite.takes : PostprocessWrite → PostprocessRun → Bool
  | .claim runId _, run =>
      decide (run.runId = runId ∧ run.workerId = none ∧ run.status ∈ activeRunStatuses)
  | .releaseLeases, run => decide (run.status ∈ activeRunStatuses)
  | .update runId values, run => decide (run.runId = runId ∧ values ≠ {})
  | .finish runId _ _ _ _, run => decide (run.runId = runId)
  | .dockerGroup runId _, run => decide (run.runId = runId)
  | .requestCancel runId, run => decide (run.runId = runId ∧ run.status ∈ activeRunStatuses)

/-- `dict.update` on the members of an object; anything else counts as empty. -/
def updateMembers (document : Option Json) (values : List (String × Json)) : Json :=
  let members :=
    match document with
    | some (.obj members) => members
    | _ => []
  .obj (values.foldl
    (fun members value =>
      if members.any fun m => decide (m.1 = value.1) then
        members.map fun m => if m.1 = value.1 then value else m
      else members ++ [value])
    members)

/-- What the update sets in a row. -/
def PostprocessWrite.set (write : PostprocessWrite) (now : Instant) (run : PostprocessRun) :
    PostprocessRun :=
  match write with
  | .claim _ workerId =>
      { run with
        workerId := some workerId
        startedAt := Sql.coalesce run.startedAt (some (nowUtc now))
        updatedAt := nowUtc now }
  | .releaseLeases => { run with workerId := none, updatedAt := nowUtc now }
  | .update _ values =>
      { run with
        mpRunId := values.mpRunId.getD run.mpRunId
        status := values.status.getD run.status
        stage := values.stage.getD run.stage
        runStartedAt := values.runStartedAt.getD run.runStartedAt
        totalJobCount := values.totalJobCount.getD run.totalJobCount
        successfulJobCount := values.successfulJobCount.getD run.successfulJobCount
        targetCount := values.targetCount.getD run.targetCount
        assetCount := values.assetCount.getD run.assetCount
        completedCount := values.completedCount.getD run.completedCount
        failedCount := values.failedCount.getD run.failedCount
        message := values.message.getD run.message
        error := values.error.getD run.error
        workerId := values.workerId.getD run.workerId
        updatedAt := nowUtc now }
  | .finish _ status stage message error =>
      { run with
        status := status
        stage := stage
        message := message
        error := error
        workerId := none
        finishedAt := some (nowUtc now)
        updatedAt := nowUtc now }
  | .dockerGroup _ values =>
      let group := updateMembers (run.options.member? "docker_dynamic_group") values
      { run with
        options := updateMembers (some run.options) [("docker_dynamic_group", group)]
        updatedAt := nowUtc now }
  | .requestCancel _ =>
      { run with
        cancelRequested := true
        status := "cancelling"
        stage := "cancelling"
        message := some "Cancellation requested."
        updatedAt := nowUtc now }

/-- The asset that a run refreshes, and the label for it. -/
def PostprocessRun.subject (run : PostprocessRun) : String × String × String :=
  let label := nonEmpty (run.options.getText "refresh_asset_label")
  match nonEmpty (run.options.getText "refresh_asset_id") with
  | some assetId => ("asset_card", assetId, label.getD assetId)
  | none => ("scanner_task", run.mpTaskId, label.getD run.mpTaskId)

/-- The error document of a run or an import. -/
def messageError (error : Option String) : OperationError :=
  match nonEmpty error with
  | some text => .message text
  | none => .empty

/-- The registration of a run by the synchronisation. -/
def PostprocessRun.operationRow (run : PostprocessRun) : OperationRow :=
  let total := max (max run.targetCount run.totalJobCount) 1
  let done := run.completedCount + run.failedCount
  Operations.operationRow (.scanPostprocess, run.runId)
    { operationId := run.runId
      status := run.status
      stage := if run.stage = "" then run.status else run.stage
      progressPercent := min 100 (roundHalfEven ((done * 100 : Nat) / total))
      subjectType := some run.subject.1
      subjectId := some run.subject.2.1
      subjectLabel := some run.subject.2.2
      message := run.message
      error := messageError run.error
      request := run.options
      result := .obj
        [("mp_run_id", jsonText run.mpRunId),
          ("completed_count", jsonNat run.completedCount),
          ("failed_count", jsonNat run.failedCount)]
      createdAt := run.createdAt
      startedAt := run.startedAt
      finishedAt := run.finishedAt }
    run.updatedAt

/-! ## Imports -/

/-- A row of `import_runs`. -/
structure ImportRun where
  id : Nat
  source : String
  pdql : Option String
  csvFilename : Option String
  rowCount : Nat := 0
  assetCount : Nat := 0
  findingCount : Nat := 0
  status : String := "running"
  error : Option String := none
  deleteAfterExport : Bool
  startedAt : Stamp
  finishedAt : Option Stamp := none

/-- The update of `import_runs`. -/
inductive ImportWrite where
  /-- `finish_import_run` -/
  | finish (id rowCount assetCount findingCount : Nat) (status : String) (error : Option String)

/-- The rows that the update takes. -/
def ImportWrite.takes : ImportWrite → ImportRun → Bool
  | .finish id _ _ _ _ _, run => decide (run.id = id)

/-- What the update sets in a row. -/
def ImportWrite.set (write : ImportWrite) (now : Instant) (run : ImportRun) : ImportRun :=
  match write with
  | .finish _ rowCount assetCount findingCount status error =>
      { run with
        rowCount := rowCount
        assetCount := assetCount
        findingCount := findingCount
        status := status
        error := error
        finishedAt := some (nowUtc now) }

/-- The registration of an import by the synchronisation. -/
def ImportRun.operationRow (run : ImportRun) : OperationRow :=
  let status := if run.status = "" then "completed" else run.status
  Operations.operationRow (.pdqlExport, Nat.repr run.id)
    { operationId := "import:" ++ Nat.repr run.id
      status := status
      stage := status
      progressPercent := if run.finishedAt.isSome then 100 else 25
      subjectType := some "export"
      subjectId := some (Nat.repr run.id)
      subjectLabel := some ((nonEmpty run.csvFilename).getD run.source)
      message := some ((nonEmpty run.error).getD
        ("Imported " ++ Nat.repr run.rowCount ++ " rows"))
      error := messageError run.error
      request := .obj
        [("pdql", jsonText run.pdql), ("delete_after_export", .bool run.deleteAfterExport)]
      result := .obj
        [("row_count", jsonNat run.rowCount), ("asset_count", jsonNat run.assetCount),
          ("finding_count", jsonNat run.findingCount)]
      createdAt := run.startedAt
      startedAt := some run.startedAt
      finishedAt := run.finishedAt }
    (run.finishedAt.getD run.startedAt)

/-! ## Asset removals -/

/-- A row of `asset_removal_operations`; no statement updates it. -/
structure RemovalRun where
  id : Nat
  operationId : Option String
  assetIds : List String
  status : String
  message : Option String
  rawResponse : Json
  createdAt : Stamp
  updatedAt : Stamp

/-- The registration of a removal by the synchronisation. -/
def RemovalRun.operationRow (run : RemovalRun) : OperationRow :=
  let status := if run.status = "" then "queued" else run.status
  Operations.operationRow (.assetRemoval, Nat.repr run.id)
    { operationId := "removal:" ++ Nat.repr run.id
      status := status
      stage := status
      progressPercent := if status ∈ ["completed", "success", "failed"] then 100 else 25
      subjectType := some "assets"
      subjectId := run.operationId
      subjectLabel := some "MP VM assets"
      message := run.message
      request := .obj [("asset_ids", .arr (run.assetIds.map Json.str))]
      result := run.rawResponse
      createdAt := run.createdAt
      startedAt := some run.createdAt
      finishedAt := if status ∈ activeOperationStatuses then none else some run.updatedAt }
    run.updatedAt

end Operations
end MpvmApp
