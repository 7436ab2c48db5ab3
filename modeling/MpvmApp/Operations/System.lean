import MpvmApp.Operations.Sources

/-!
# Sources and registry together

The source tables and the registry, the creation of source rows, and the
synchronisation that registers every source row whose registry row is missing or
older.

Main definitions:

- `State.sources`: the registrations of all source rows.
- `syncOperationsFromSources`: the synchronisation.
- `step`: one step of the system.
-/

namespace MpvmApp
namespace Operations

open Remediation

/-- The source tables and the registry. -/
structure State where
  buildJobs : Table BuildJob BuildJob.jobId BuildJob.jobId
  detailJobs : Table DetailJob DetailJob.jobId DetailJob.jobId
  runs : Table PostprocessRun PostprocessRun.runId PostprocessRun.runId
  imports : Table ImportRun ImportRun.id ImportRun.id
  removals : Table RemovalRun RemovalRun.id RemovalRun.id
  operations : OperationTable

/-- The registrations of all source rows, in the order of the synchronisation. -/
def State.sources (s : State) : List OperationRow :=
  s.buildJobs.rows.map BuildJob.operationRow ++
    (s.detailJobs.rows.map DetailJob.operationRow ++
      (s.runs.rows.map PostprocessRun.operationRow ++
        (s.imports.rows.map ImportRun.operationRow ++
          s.removals.rows.map RemovalRun.operationRow)))

/-- `sync_operations_from_sources`. -/
def syncOperationsFromSources (s : State) : State :=
  { s with operations := Replica.refreshAll mergeOperation s.operations s.sources }

/-! ## New source rows -/

/-- `ASSET_CARD_BUILD_JOB_LIMIT`. -/
def assetCardBuildJobLimit : Nat :=
  2

/-- One requested job of a batch. -/
structure BuildJobRequest where
  jobId : String
  traceId : Option String
  assetId : String
  operation : String
  request : Json

/-- The row of a requested job. -/
def BuildJobRequest.row (item : BuildJobRequest) (now : Instant) : BuildJob where
  jobId := Sql.strip item.jobId
  traceId := item.traceId
  assetId := Sql.strip item.assetId
  operation := Sql.strip item.operation
  request := item.request
  createdAt := nowUtc now
  updatedAt := nowUtc now

/-- Insert one admitted job and register its operation; `none` is a conflict. -/
def createBuildJob (s : State) (job : BuildJob) : Option State :=
  (s.buildJobs.insert? job).map fun buildJobs =>
    { s with
      buildJobs := buildJobs
      operations := registerOperation s.operations job.operationRow }

/-- The batch passes the checks of its items and the admission under the lock. -/
def admitsBuildJobs (s : State) (jobs : List BuildJob) : Bool :=
  let active := s.buildJobs.rows.filter fun job => decide (job.status ∈ activeJobStatuses)
  decide (1 ≤ jobs.length ∧ jobs.length ≤ assetCardBuildJobLimit) &&
    jobs.all (fun job => decide (job.jobId ≠ "" ∧ job.assetId ≠ "" ∧ job.operation ≠ "")) &&
    decide ((jobs.map BuildJob.jobId).Nodup ∧ (jobs.map BuildJob.assetId).Nodup) &&
    !active.any (fun job => decide (job.assetId ∈ jobs.map BuildJob.assetId)) &&
    decide (active.length + jobs.length ≤ assetCardBuildJobLimit)

/-- `create_asset_card_build_jobs`: all jobs of the batch or none. -/
def createBuildJobs (items : List BuildJobRequest) (now : Instant) (s : State) : Option State :=
  let jobs := items.map fun item => item.row now
  if admitsBuildJobs s jobs then jobs.foldlM createBuildJob s else none

/-- The row of a new passport detail job: it is completed when nothing is eligible. -/
def newDetailJob (jobId : String) (requestedCount eligibleCount skippedFreshCount : Nat)
    (now : Instant) : DetailJob where
  jobId := jobId
  status := if eligibleCount = 0 then "completed" else "queued"
  requestedCount := requestedCount
  eligibleCount := eligibleCount
  skippedFreshCount := skippedFreshCount
  createdAt := nowUtc now
  finishedAt := if eligibleCount = 0 then some (nowUtc now) else none
  updatedAt := nowUtc now

/-- The registration of a new passport detail job. -/
def DetailJob.created (job : DetailJob) (request : Json) : OperationRow :=
  Operations.operationRow (.passportDetailSync, job.jobId)
    { operationId := job.jobId
      status := job.status
      stage := job.status
      progressPercent := if job.eligibleCount = 0 then 100 else 0
      subjectType := some "vulnerability_passports"
      subjectLabel := some "Vulnerability passports"
      request := request
      result := .obj
        [("requested_count", jsonNat job.requestedCount),
          ("eligible_count", jsonNat job.eligibleCount),
          ("skipped_fresh_count", jsonNat job.skippedFreshCount)]
      createdAt := job.createdAt
      finishedAt := job.finishedAt }
    job.updatedAt

/-- `create_vulnerability_passport_detail_job`. -/
def createDetailJob (job : DetailJob) (request : Json) (s : State) : Option State :=
  (s.detailJobs.insert? job).map fun detailJobs =>
    { s with
      detailJobs := detailJobs
      operations := registerOperation s.operations (job.created request) }

/-- The row of a new scan postprocess run. -/
def newPostprocessRun (runId mpTaskId : String) (options : Json) (now : Instant) :
    PostprocessRun where
  runId := runId
  mpTaskId := mpTaskId
  options := options
  createdAt := nowUtc now
  updatedAt := nowUtc now

/-- The registration of a new scan postprocess run. -/
def PostprocessRun.created (run : PostprocessRun) : OperationRow :=
  Operations.operationRow (.scanPostprocess, run.runId)
    { operationId := run.runId
      status := "monitoring"
      stage := "waiting_for_run"
      progressPercent := 0
      subjectType := some run.subject.1
      subjectId := some run.subject.2.1
      subjectLabel := some run.subject.2.2
      request := run.options
      createdAt := run.createdAt }
    run.updatedAt

/-- `create_scan_postprocess_run`. -/
def createPostprocessRun (runId mpTaskId : String) (options : Json) (now : Instant) (s : State) :
    Option State :=
  let run := newPostprocessRun runId mpTaskId options now
  (s.runs.insert? run).map fun runs =>
    { s with runs := runs, operations := registerOperation s.operations run.created }

/-- `create_import_run`: no operation is registered. -/
def createImportRun (run : ImportRun) (s : State) : Option State :=
  (s.imports.insert? run).map fun imports => { s with imports := imports }

/-- `record_asset_removal`: no operation is registered. -/
def recordAssetRemoval (run : RemovalRun) (s : State) : Option State :=
  (s.removals.insert? run).map fun removals => { s with removals := removals }

/-! ## Updates of source rows -/

theorem BuildJobWrite.set_jobId (write : BuildJobWrite) (now : Instant) (job : BuildJob) :
    (write.set now job).jobId = job.jobId := by
  cases write <;> rfl

theorem DetailJobWrite.set_jobId (write : DetailJobWrite) (now : Instant) (job : DetailJob) :
    (write.set now job).jobId = job.jobId := by
  cases write <;> rfl

theorem PostprocessWrite.set_runId (write : PostprocessWrite) (now : Instant)
    (run : PostprocessRun) :
    (write.set now run).runId = run.runId := by
  cases write <;> rfl

theorem ImportWrite.set_id (write : ImportWrite) (now : Instant) (run : ImportRun) :
    (write.set now run).id = run.id := by
  cases write
  rfl

/-- `UPDATE` of the rows of a source table that a statement takes. -/
def updateRows {α κ : Type} {pk : α → κ} (t : Table α pk pk) (takes : α → Bool) (set : α → α)
    (hkey : ∀ r, pk (set r) = pk r) : Table α pk pk :=
  t.mapRows (fun r => if takes r then set r else r)
    (fun r => by split <;> simp [hkey]) (fun r => by split <;> simp [hkey])

/-! ## Steps of the system -/

/-- What happens to the source tables and the registry. -/
inductive Event where
  | createBuildJobs (items : List BuildJobRequest) (now : Instant)
  | buildJob (write : BuildJobWrite) (now : Instant)
  | createDetailJob (jobId : String) (requestedCount eligibleCount skippedFreshCount : Nat)
      (request : Json) (now : Instant)
  | detailJob (write : DetailJobWrite) (now : Instant)
  | createPostprocessRun (runId mpTaskId : String) (options : Json) (now : Instant)
  | postprocessRun (write : PostprocessWrite) (now : Instant)
  | createImportRun (id : Nat) (source : String) (pdql csvFilename : Option String)
      (deleteAfterExport : Bool) (now : Instant)
  | importRun (write : ImportWrite) (now : Instant)
  | recordAssetRemoval (id : Nat) (operationId : Option String) (assetIds : List String)
      (status : String) (message : Option String) (rawResponse : Json) (now : Instant)
  /-- A registration of the source row under a key, as the synchronisation makes it. -/
  | register (key : OperationKey)
  | sync
  | clearHistory (actor : Option String) (now : Instant)

/-- One step of the system; a statement that raises changes nothing. -/
def step (s : State) : Event → State
  | .createBuildJobs items now => (createBuildJobs items now s).getD s
  | .buildJob write now =>
      { s with buildJobs :=
          updateRows s.buildJobs write.takes (write.set now) (write.set_jobId now) }
  | .createDetailJob jobId requestedCount eligibleCount skippedFreshCount request now =>
      (createDetailJob (newDetailJob jobId requestedCount eligibleCount skippedFreshCount now)
        request s).getD s
  | .detailJob write now =>
      { s with detailJobs :=
          updateRows s.detailJobs write.takes (write.set now) (write.set_jobId now) }
  | .createPostprocessRun runId mpTaskId options now =>
      (createPostprocessRun runId mpTaskId options now s).getD s
  | .postprocessRun write now =>
      { s with runs := updateRows s.runs write.takes (write.set now) (write.set_runId now) }
  | .createImportRun id source pdql csvFilename deleteAfterExport now =>
      (createImportRun
        { id := id
          source := source
          pdql := pdql
          csvFilename := csvFilename
          deleteAfterExport := deleteAfterExport
          startedAt := nowUtc now } s).getD s
  | .importRun write now =>
      { s with imports := updateRows s.imports write.takes (write.set now) (write.set_id now) }
  | .recordAssetRemoval id operationId assetIds status message rawResponse now =>
      (recordAssetRemoval
        { id := id
          operationId := operationId
          assetIds := assetIds
          status := status
          message := message
          rawResponse := rawResponse
          createdAt := nowUtc now
          updatedAt := nowUtc now } s).getD s
  | .register key =>
      match s.sources.find? fun c => decide (c.key = key) with
      | some c => { s with operations := registerOperation s.operations c }
      | none => s
  | .sync => syncOperationsFromSources s
  | .clearHistory actor now =>
      { s with operations := clearHistory actor now s.operations }

end Operations
end MpvmApp
