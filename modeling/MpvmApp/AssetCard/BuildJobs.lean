import MpvmApp.Lib.Runs
import MpvmApp.Lib.Table
import MpvmApp.Remediation.Case
import MpvmApp.Sql.Text

/-!
# The build jobs of asset cards

A batch of build jobs is admitted under an advisory lock: its transaction counts the active
jobs and those of the batch's assets, and inserts the jobs.  The steps of the jobs do not take
the lock, so they fall between the count and the commit of a batch.  One of them is the
rebinding of a job of the scan postprocessing to the card in which its result is stored.

Main definitions:

- `normalizeJobs`: the batches that are well formed.
- `admits`: the count of an admission.
- `rebindScanPostprocessAsset`: the asset of a job changes.

Main results:

- Theorem `checked_rebindings_keep_assets_apart`: rebindings that looked at the other active jobs
  would keep the active jobs on distinct assets.
- Theorem `build_jobs_distinct_iff`: the limit and the rejection of whole batches hold in
  every run; which runs keep the active jobs on distinct assets.
-/

namespace MpvmApp
namespace AssetCard
namespace BuildJobs

open Remediation

variable {R : Type*}

/-! ## Jobs -/

/-- The values of the column `status`. -/
inductive JobStatus where
  | queued
  | running
  | cancelling
  | completed
  | cancelled
  | failed
  | interrupted
deriving DecidableEq, Repr

/-- `status IN ('queued', 'running', 'cancelling')`. -/
def JobStatus.isActive : JobStatus → Bool
  | .queued => true
  | .running => true
  | .cancelling => true
  | _ => false

/-- The statuses with which a build ends. -/
inductive Outcome where
  | completed
  | cancelled
  | failed
deriving DecidableEq, Repr

/-- The status that an outcome is stored as. -/
def Outcome.status : Outcome → JobStatus
  | .completed => .completed
  | .cancelled => .cancelled
  | .failed => .failed

@[simp]
theorem Outcome.isActive_status (outcome : Outcome) :
    outcome.status.isActive = false := by
  cases outcome <;> rfl

/-- The counters of a build that its progress reports. -/
structure Counters where
  discoveredRequests : Nat := 0
  completedRequests : Nat := 0
  nodeCount : Nat := 0
  collectionCount : Nat := 0
  findingCount : Nat := 0
  warningCount : Nat := 0
deriving DecidableEq, Repr

/--
A row of `asset_card_build_jobs`; `R` is the type of its documents.  The number of the
batch that has created the job is not stored by the program.
-/
structure JobRow (R : Type*) where
  jobId : String
  traceId : Option String
  assetId : String
  operation : String
  status : JobStatus
  stage : String
  progressPercent : Int
  request : R
  stats : Option R
  counters : Counters
  cancelRequested : Bool
  message : Option String
  createdAt : Instant
  startedAt : Option Instant
  finishedAt : Option Instant
  updatedAt : Instant
  batch : Nat

/-- The job is queued, running or cancelling. -/
def JobRow.isActive (row : JobRow R) : Bool :=
  row.status.isActive

/-- The table of the build jobs. -/
abbrev Jobs (R : Type*) := Table (JobRow R) JobRow.jobId JobRow.jobId

/-- `ASSET_CARD_BUILD_JOB_LIMIT`. -/
def assetCardBuildJobLimit : Nat := 2

/-! ## Admission -/

/-- An item of the argument `jobs`; the request is missing when it is not an object. -/
structure JobItem (R : Type*) where
  jobId : Option String
  traceId : Option String := none
  assetId : Option String
  operation : Option String
  request : Option R

/-- An item with its texts stripped. -/
structure NewJob (R : Type*) where
  jobId : String
  traceId : Option String
  assetId : String
  operation : String
  request : R

/-- The jobs of a well formed batch. -/
structure Batch (R : Type*) where
  jobs : List (NewJob R)
  size : 1 ≤ jobs.length ∧ jobs.length ≤ assetCardBuildJobLimit
  jobIdsNodup : (jobs.map NewJob.jobId).Nodup
  assetIdsNodup : (jobs.map NewJob.assetId).Nodup

/-- The normalisation of one item. -/
def normalizeJob (item : JobItem R) : Except String (NewJob R) :=
  let jobId := Sql.strip (item.jobId.getD "")
  let assetId := Sql.strip (item.assetId.getD "")
  let operation := Sql.strip (item.operation.getD "")
  match item.request with
  | some request =>
      if jobId = "" ∨ assetId = "" ∨ operation = "" then
        .error "each job requires non-empty job_id, asset_id, operation and a request object"
      else
        .ok { jobId, traceId := item.traceId, assetId, operation, request }
  | none =>
      .error "each job requires non-empty job_id, asset_id, operation and a request object"

/-- The normalisation of the items in order; the first error ends it. -/
def normalizeItems : List (JobItem R) → Except String (List (NewJob R))
  | [] => .ok []
  | item :: items => do
      let job ← normalizeJob item
      let jobs ← normalizeItems items
      return job :: jobs

theorem length_of_normalizeItems {items : List (JobItem R)} {jobs : List (NewJob R)}
    (h : normalizeItems items = .ok jobs) :
    jobs.length = items.length := by
  induction items generalizing jobs with
  | nil =>
      cases h
      rfl
  | cons item items ih =>
      simp only [normalizeItems, bind, Except.bind, pure, Except.pure] at h
      split at h
      · cases h
      · split at h
        · cases h
        · rename_i hrest
          cases h
          simp [ih hrest]

/-- The checks of `create_asset_card_build_jobs` before it opens a connection. -/
def normalizeJobs (items : List (JobItem R)) : Except String (Batch R) :=
  if hsize : 1 ≤ items.length ∧ items.length ≤ assetCardBuildJobLimit then
    match hitems : normalizeItems items with
    | .error error => .error error
    | .ok jobs =>
        if hjobs : (jobs.map NewJob.jobId).Nodup then
          if hassets : (jobs.map NewJob.assetId).Nodup then
            .ok {
              jobs
              size := length_of_normalizeItems hitems ▸ hsize
              jobIdsNodup := hjobs
              assetIdsNodup := hassets }
          else
            .error "asset_id values must be unique within the batch"
        else
          .error "job_id values must be unique within the batch"
  else
    .error s!"jobs must contain between 1 and {assetCardBuildJobLimit} items"

/-- `active_count`: how many jobs are active. -/
def activeCount (jobs : Jobs R) : Nat :=
  jobs.rows.countP JobRow.isActive

/-- `duplicate_asset_count`: how many active jobs are about one of the assets. -/
def duplicateAssetCount (jobs : Jobs R) (assetIds : List String) : Nat :=
  jobs.rows.countP fun row => row.isActive && decide (row.assetId ∈ assetIds)

/-- The capacity check of an admission. -/
def admits (jobs : Jobs R) (batch : Batch R) : Bool :=
  !(duplicateAssetCount jobs (batch.jobs.map NewJob.assetId) != 0 ||
    decide (assetCardBuildJobLimit < activeCount jobs + batch.jobs.length))

/-- The row that an admission inserts for a job. -/
def newRow (batch : Nat) (current : Instant) (job : NewJob R) : JobRow R where
  jobId := job.jobId
  traceId := job.traceId
  assetId := job.assetId
  operation := job.operation
  status := .queued
  stage := "queued"
  progressPercent := 0
  request := job.request
  stats := none
  counters := {}
  cancelRequested := false
  message := none
  createdAt := current
  startedAt := none
  finishedAt := none
  updatedAt := current
  batch := batch

/--
The inserts of an admission: `ON CONFLICT DO NOTHING` returns no row for a job id in use,
and the admission is given up.
-/
def insertJobs (batch : Nat) (current : Instant) : List (NewJob R) → Jobs R → Option (Jobs R)
  | [], jobs => some jobs
  | job :: rest, jobs => do
      let inserted ← jobs.insert? (newRow batch current job)
      insertJobs batch current rest inserted

theorem rows_of_insertJobs {batch : Nat} {current : Instant} {new : List (NewJob R)}
    {jobs jobs' : Jobs R} (h : insertJobs batch current new jobs = some jobs') :
    jobs'.rows = jobs.rows ++ new.map (newRow batch current) := by
  induction new generalizing jobs with
  | nil =>
      cases h
      simp
  | cons job rest ih =>
      obtain ⟨inserted, hinsert, hrest⟩ := Option.bind_eq_some_iff.1 h
      rw [ih hrest, Table.rows_of_insert? hinsert]
      simp

/-! ## The steps of a job -/

/-- `UPDATE … WHERE job_id = … AND …`. -/
def updateJob (jobs : Jobs R) (jobId : String) (selected : JobRow R → Bool)
    (f : JobRow R → JobRow R) (hf : ∀ row, (f row).jobId = row.jobId) : Jobs R :=
  jobs.mapRows (fun row => if row.jobId = jobId ∧ selected row then f row else row)
    (fun row => by split <;> simp [hf]) (fun row => by split <;> simp [hf])

/-- `start_asset_card_build_job`. -/
def startAssetCardBuildJob (jobs : Jobs R) (jobId : String) (current : Instant) : Jobs R :=
  updateJob jobs jobId (fun row => decide (row.status = .queued))
    (fun row => { row with
      status := if row.cancelRequested then .cancelling else .running
      stage := if row.cancelRequested then "cancelling" else "starting"
      progressPercent := max row.progressPercent 5
      startedAt := Sql.coalesce row.startedAt (some current)
      updatedAt := current })
    fun _ => rfl

/-- `update_asset_card_build_job`. -/
def updateAssetCardBuildJob (jobs : Jobs R) (jobId stage : String) (progressPercent : Int)
    (counters : Counters) (stats : Option R) (current : Instant) : Jobs R :=
  updateJob jobs jobId (fun _ => true)
    (fun row => { row with
      stage := stage
      progressPercent := max row.progressPercent (min 100 (max 0 progressPercent))
      counters := counters
      stats := stats
      updatedAt := current })
    fun _ => rfl

/-- `request_asset_card_build_job_cancel`. -/
def requestAssetCardBuildJobCancel (jobs : Jobs R) (jobId : String) (current : Instant) :
    Jobs R :=
  updateJob jobs jobId JobRow.isActive
    (fun row => { row with
      cancelRequested := true
      status := .cancelling
      stage := "cancelling"
      updatedAt := current })
    fun _ => rfl

/-- `finish_asset_card_build_job`; the status that the job has is not looked at. -/
def finishAssetCardBuildJob (jobs : Jobs R) (jobId : String) (outcome : Outcome) (stage : String)
    (message : Option String) (stats : Option R) (current : Instant) : Jobs R :=
  updateJob jobs jobId (fun _ => true)
    (fun row => { row with
      status := outcome.status
      stage := stage
      message := message
      progressPercent := if outcome = .completed then 100 else row.progressPercent
      stats := Sql.coalesce stats row.stats
      finishedAt := some current
      updatedAt := current })
    fun _ => rfl

/-- `interrupt_active_asset_card_build_jobs`, at the start of the application. -/
def interruptActiveAssetCardBuildJobs (jobs : Jobs R) (current : Instant) : Jobs R :=
  jobs.mapRows
    (fun row =>
      if row.isActive then
        { row with
          status := .interrupted
          stage := "interrupted"
          message := some "Application restarted before the asset card build finished."
          finishedAt := some current
          updatedAt := current }
      else row)
    (fun row => by split <;> rfl) (fun row => by split <;> rfl)

/--
The second statement of `rebind_scan_postprocess_asset`: the job gets the asset id under
which its card has been stored, whatever its status.
-/
def rebindScanPostprocessAsset (jobs : Jobs R) (jobId canonicalAssetId : String)
    (current : Instant) : Jobs R :=
  updateJob jobs jobId (fun _ => true)
    (fun row => { row with assetId := canonicalAssetId, updatedAt := current }) fun _ => rfl

/-! ## Interleaved requests and jobs -/

/-- A batch between its count and its commit; its rows are not visible yet. -/
structure Admission (R : Type*) where
  number : Nat
  batch : Batch R
  current : Instant

/--
The table, the admission that holds the advisory lock, the number of the next batch and the
numbers of the batches that were rejected or whose transaction was lost.
-/
structure Store (R : Type*) where
  jobs : Jobs R
  admission : Option (Admission R)
  nextBatch : Nat
  rejected : List Nat

/-- The store without jobs. -/
def initial : Store R where
  jobs := Table.empty
  admission := none
  nextBatch := 0
  rejected := []

/-- What can happen to the build jobs. -/
inductive Event (R : Type*) where
  | create (items : List (JobItem R)) (current : Instant)
  | commit (registered : Bool)
  | rollback
  | start (jobId : String) (current : Instant)
  | update (jobId stage : String) (progressPercent : Int) (counters : Counters)
      (stats : Option R) (current : Instant)
  | requestCancel (jobId : String) (current : Instant)
  | finish (jobId : String) (outcome : Outcome) (stage : String) (message : Option String)
      (stats : Option R) (current : Instant)
  | interrupt (current : Instant)
  | rebind (jobId canonicalAssetId : String) (current : Instant)

/--
The first part of `create_asset_card_build_jobs`: the checks, and the count once the lock is
free.  A batch that fails them is rejected.
-/
def beginBatch (s : Store R) (items : List (JobItem R)) (current : Instant) : Store R :=
  match normalizeJobs items with
  | .error _ => { s with nextBatch := s.nextBatch + 1, rejected := s.nextBatch :: s.rejected }
  | .ok batch =>
      -- A second batch waits for the lock; its count is a later event.
      if s.admission.isSome then s
      else if admits s.jobs batch then
        { s with nextBatch := s.nextBatch + 1,
                 admission := some { number := s.nextBatch, batch, current } }
      else { s with nextBatch := s.nextBatch + 1, rejected := s.nextBatch :: s.rejected }

/--
The second part: the inserts, the registration of the operations and the commit.
`registered` says that the registration raises no error.
-/
def commitBatch (s : Store R) (registered : Bool) : Store R :=
  match s.admission with
  | none => s
  | some admission =>
      match insertJobs admission.number admission.current admission.batch.jobs s.jobs with
      | some jobs =>
          if registered then { s with jobs := jobs, admission := none }
          else { s with admission := none, rejected := admission.number :: s.rejected }
      | none => { s with admission := none, rejected := admission.number :: s.rejected }

/-- The transaction of the admission is lost with its connection. -/
def rollbackBatch (s : Store R) : Store R :=
  match s.admission with
  | none => s
  | some admission => { s with admission := none, rejected := admission.number :: s.rejected }

/--
`create_asset_card_build_jobs` when nothing falls between its count and its commit, and
whether it returns jobs.  With the lock taken it waits.
-/
def createAssetCardBuildJobs (s : Store R) (items : List (JobItem R)) (current : Instant)
    (registered : Bool) : Store R × Bool :=
  if s.admission.isSome then (s, false)
  else
    let begun := beginBatch s items current
    let committed := commitBatch begun registered
    (committed, begun.admission.isSome && decide (committed.rejected = begun.rejected))

/-- One step of the system. -/
def step (s : Store R) : Event R → Store R
  | .create items current => beginBatch s items current
  | .commit registered => commitBatch s registered
  | .rollback => rollbackBatch s
  | .start jobId current => { s with jobs := startAssetCardBuildJob s.jobs jobId current }
  | .update jobId stage progressPercent counters stats current =>
      { s with jobs := updateAssetCardBuildJob s.jobs jobId stage progressPercent counters stats
                         current }
  | .requestCancel jobId current =>
      { s with jobs := requestAssetCardBuildJobCancel s.jobs jobId current }
  | .finish jobId outcome stage message stats current =>
      { s with jobs := finishAssetCardBuildJob s.jobs jobId outcome stage message stats current }
  | .interrupt current => { s with jobs := interruptActiveAssetCardBuildJobs s.jobs current }
  | .rebind jobId canonicalAssetId current =>
      { s with jobs := rebindScanPostprocessAsset s.jobs jobId canonicalAssetId current }

theorem createAssetCardBuildJobs_eq (s : Store R) (items : List (JobItem R)) (current : Instant)
    (registered : Bool) :
    (createAssetCardBuildJobs s items current registered).1 = s ∨
      (createAssetCardBuildJobs s items current registered).1 =
        step (step s (.create items current)) (.commit registered) := by
  unfold createAssetCardBuildJobs
  split_ifs
  · exact .inl rfl
  · exact .inr rfl

theorem jobs_of_normalizeJobs_singleton {item : JobItem R} {batch : Batch R}
    (h : normalizeJobs [item] = .ok batch) :
    ∃ job, normalizeJob item = .ok job ∧ batch.jobs = [job] := by
  unfold normalizeJobs at h
  split_ifs at h with hsize
  split at h
  · cases h
  · rename_i jobs hitems
    split_ifs at h
    cases h
    simp only [normalizeItems, bind, Except.bind, pure, Except.pure] at hitems
    split at hitems
    · cases hitems
    · rename_i job hjob
      cases hitems
      exact ⟨job, hjob, rfl⟩

/-- The job that an admission returns is in the table. -/
theorem exists_job_create {s : Store R} {item : JobItem R} {current : Instant} {registered : Bool}
    (h : (createAssetCardBuildJobs s [item] current registered).2 = true) :
    ∃ job, normalizeJob item = .ok job ∧
      ∃ row ∈ (createAssetCardBuildJobs s [item] current registered).1.jobs.rows,
        row.jobId = job.jobId ∧ row.request = job.request := by
  unfold createAssetCardBuildJobs at h ⊢
  split_ifs at h ⊢ with hlock
  simp only [Bool.and_eq_true, decide_eq_true_eq] at h
  obtain ⟨hbegun, hcommitted⟩ := h
  unfold beginBatch at hbegun hcommitted ⊢
  cases hbatch : normalizeJobs [item] with
  | error error =>
      rw [hbatch] at hbegun
      exact absurd hbegun hlock
  | ok batch =>
      obtain ⟨job, hjob, hjobs⟩ := jobs_of_normalizeJobs_singleton hbatch
      simp only [hbatch, if_neg hlock] at hbegun hcommitted ⊢
      split_ifs at hbegun hcommitted ⊢ with hadmits
      · simp only [commitBatch] at hcommitted ⊢
        split at hcommitted
        · rename_i jobs hinsert
          split_ifs at hcommitted ⊢ with hregistered
          · refine ⟨job, hjob, newRow s.nextBatch current job, ?_, rfl, rfl⟩
            rw [rows_of_insertJobs hinsert, hjobs]
            simp
          · exact absurd hcommitted (List.cons_ne_self _ _)
        · exact absurd hcommitted (List.cons_ne_self _ _)
      · exact absurd hbegun hlock

/-! ## What holds in every run -/

/-- Two active jobs are never about one asset. -/
def DistinctAssets (jobs : Jobs R) : Prop :=
  ∀ row ∈ jobs.rows, ∀ other ∈ jobs.rows, row.isActive = true → other.isActive = true →
    row.assetId = other.assetId → row.jobId = other.jobId

/-- No more jobs are active than the limit, and no job is of a rejected batch. -/
structure Admitted (s : Store R) : Prop where
  limit : activeCount s.jobs ≤ assetCardBuildJobLimit
  whole : ∀ row ∈ s.jobs.rows, row.batch ∉ s.rejected

/-- What the steps keep: the admission leaves room for its batch, and batches are numbered. -/
structure Inv (s : Store R) : Prop where
  room : activeCount s.jobs + (s.admission.elim 0 fun admission => admission.batch.jobs.length) ≤
    assetCardBuildJobLimit
  jobsNumbered : ∀ row ∈ s.jobs.rows, row.batch < s.nextBatch
  rejectedNumbered : ∀ number ∈ s.rejected, number < s.nextBatch
  whole : ∀ row ∈ s.jobs.rows, row.batch ∉ s.rejected
  admission : ∀ admission ∈ s.admission, admission.number < s.nextBatch ∧
    admission.number ∉ s.rejected ∧ ∀ row ∈ s.jobs.rows, row.batch ≠ admission.number

theorem inv_initial :
    Inv (initial : Store R) where
  room := by simp [initial, activeCount, Table.empty]
  jobsNumbered := by simp [initial, Table.empty]
  rejectedNumbered := by simp [initial]
  whole := by simp [initial, Table.empty]
  admission := by simp [initial]

theorem Inv.admitted {s : Store R} (h : Inv s) :
    Admitted s where
  limit := (Nat.le_add_right _ _).trans h.room
  whole := h.whole

/-- What an update keeps of a job: its id, request and batch; it does not make the job active. -/
structure Keeps (old new : JobRow R) : Prop where
  jobId : new.jobId = old.jobId
  request : new.request = old.request
  batch : new.batch = old.batch
  active : new.isActive = true → old.isActive = true

theorem Keeps.refl (row : JobRow R) :
    Keeps row row :=
  ⟨rfl, rfl, rfl, id⟩

/-- The rows after a step are images of the rows before: no job is added, none gets active. -/
def Quiet (jobs jobs' : Jobs R) : Prop :=
  ∃ f : JobRow R → JobRow R, jobs'.rows = jobs.rows.map f ∧ ∀ row, Keeps row (f row)

/-- Moreover every job keeps its asset. -/
def Settled (jobs jobs' : Jobs R) : Prop :=
  ∃ f : JobRow R → JobRow R, jobs'.rows = jobs.rows.map f ∧
    ∀ row, Keeps row (f row) ∧ (f row).assetId = row.assetId

theorem Settled.quiet {jobs jobs' : Jobs R} (h : Settled jobs jobs') :
    Quiet jobs jobs' := by
  obtain ⟨f, hrows, hf⟩ := h
  exact ⟨f, hrows, fun row => (hf row).1⟩

theorem settled_updateJob (jobs : Jobs R) (jobId : String) {selected : JobRow R → Bool}
    {f : JobRow R → JobRow R} (hf : ∀ row, (f row).jobId = row.jobId)
    (hkeep : ∀ row, (f row).request = row.request ∧ (f row).batch = row.batch ∧
      (f row).assetId = row.assetId)
    (hactive : ∀ row, selected row = true → (f row).isActive = true → row.isActive = true) :
    Settled jobs (updateJob jobs jobId selected f hf) := by
  refine ⟨_, rfl, fun row => ?_⟩
  obtain ⟨hrequest, hbatch, hasset⟩ := hkeep row
  split
  · rename_i hrow
    exact ⟨⟨hf row, hrequest, hbatch, hactive row hrow.2⟩, hasset⟩
  · exact ⟨Keeps.refl row, rfl⟩

theorem quiet_rebind (jobs : Jobs R) (jobId canonicalAssetId : String) (current : Instant) :
    Quiet jobs (rebindScanPostprocessAsset jobs jobId canonicalAssetId current) := by
  refine ⟨_, rfl, fun row => ?_⟩
  split <;> exact ⟨rfl, rfl, rfl, id⟩

theorem activeCount_le_of_quiet {jobs jobs' : Jobs R} (h : Quiet jobs jobs') :
    activeCount jobs' ≤ activeCount jobs := by
  obtain ⟨f, hrows, hf⟩ := h
  rw [activeCount, activeCount, hrows, List.countP_map]
  exact List.countP_mono_left fun row _ hactive => (hf row).active hactive

theorem inv_of_quiet {s : Store R} (h : Inv s) {jobs : Jobs R} (hquiet : Quiet s.jobs jobs) :
    Inv { s with jobs := jobs } := by
  have hold : ∀ row ∈ jobs.rows, ∃ old ∈ s.jobs.rows, old.batch = row.batch := by
    obtain ⟨f, hrows, hf⟩ := hquiet
    intro row hrow
    rw [hrows] at hrow
    obtain ⟨old, hold, rfl⟩ := List.mem_map.1 hrow
    exact ⟨old, hold, (hf old).batch.symm⟩
  refine ⟨?_, ?_, h.rejectedNumbered, ?_, ?_⟩
  · exact (Nat.add_le_add_right (activeCount_le_of_quiet hquiet) _).trans h.room
  · intro row hrow
    obtain ⟨old, hmem, hbatch⟩ := hold row hrow
    exact hbatch ▸ h.jobsNumbered old hmem
  · intro row hrow
    obtain ⟨old, hmem, hbatch⟩ := hold row hrow
    exact hbatch ▸ h.whole old hmem
  · intro admission hadmission
    obtain ⟨hnumber, hrejected, hfresh⟩ := h.admission admission hadmission
    refine ⟨hnumber, hrejected, fun row hrow => ?_⟩
    obtain ⟨old, hmem, hbatch⟩ := hold row hrow
    exact hbatch ▸ hfresh old hmem

theorem inv_reject {s : Store R} (h : Inv s) :
    Inv { s with nextBatch := s.nextBatch + 1, rejected := s.nextBatch :: s.rejected } where
  room := h.room
  jobsNumbered row hrow := (h.jobsNumbered row hrow).trans (Nat.lt_succ_self _)
  rejectedNumbered number hnumber := by
    rcases List.mem_cons.1 hnumber with rfl | hold
    · exact Nat.lt_succ_self _
    · exact (h.rejectedNumbered number hold).trans (Nat.lt_succ_self _)
  whole row hrow hrejected := by
    rcases List.mem_cons.1 hrejected with heq | hold
    · exact absurd (h.jobsNumbered row hrow) (heq ▸ Nat.lt_irrefl _)
    · exact h.whole row hrow hold
  admission admission hadmission := by
    obtain ⟨hnumber, hrejected, hfresh⟩ := h.admission admission hadmission
    refine ⟨hnumber.trans (Nat.lt_succ_self _), fun hmem => ?_, hfresh⟩
    rcases List.mem_cons.1 hmem with heq | hold
    · exact absurd hnumber (heq ▸ Nat.lt_irrefl _)
    · exact hrejected hold

theorem admits_iff {jobs : Jobs R} {batch : Batch R} :
    admits jobs batch = true ↔
      (∀ row ∈ jobs.rows, row.isActive = true → ∀ job ∈ batch.jobs, job.assetId ≠ row.assetId) ∧
        activeCount jobs + batch.jobs.length ≤ assetCardBuildJobLimit := by
  simp [admits, duplicateAssetCount, List.countP_eq_zero]

theorem inv_rollback {s : Store R} (h : Inv s) {admission : Admission R}
    (hsome : s.admission = some admission) :
    Inv { s with admission := none, rejected := admission.number :: s.rejected } := by
  obtain ⟨hnumber, _, hfresh⟩ := h.admission admission hsome
  refine ⟨?_, h.jobsNumbered, ?_, ?_, by simp⟩
  · exact (Nat.add_le_add_left (Nat.zero_le _) _).trans h.room
  · intro number hmem
    rcases List.mem_cons.1 hmem with rfl | hold
    · exact hnumber
    · exact h.rejectedNumbered number hold
  · intro row hrow hmem
    rcases List.mem_cons.1 hmem with heq | hold
    · exact hfresh row hrow heq
    · exact h.whole row hrow hold

theorem inv_beginBatch {s : Store R} (h : Inv s) (items : List (JobItem R)) (current : Instant) :
    Inv (beginBatch s items current) := by
  unfold beginBatch
  split
  · exact inv_reject h
  · split_ifs with hwaits hadmits
    · exact h
    · refine ⟨(admits_iff.1 hadmits).2, ?_, ?_, h.whole, ?_⟩
      · exact fun row hrow => (h.jobsNumbered row hrow).trans (Nat.lt_succ_self _)
      · exact fun number hnumber => (h.rejectedNumbered number hnumber).trans (Nat.lt_succ_self _)
      · rintro admission ⟨⟩
        refine ⟨Nat.lt_succ_self _, fun hmem => ?_, fun row hrow => ?_⟩
        · exact Nat.lt_irrefl _ (h.rejectedNumbered _ hmem)
        · exact (h.jobsNumbered row hrow).ne
    · exact inv_reject h

theorem activeCount_insertJobs {batch : Nat} {current : Instant} {new : List (NewJob R)}
    {jobs jobs' : Jobs R} (h : insertJobs batch current new jobs = some jobs') :
    activeCount jobs' = activeCount jobs + new.length := by
  have hall : ((new.map (newRow batch current)).countP JobRow.isActive) = new.length := by
    rw [List.countP_map, List.countP_eq_length.2]
    intro job _
    rfl
  rw [activeCount, rows_of_insertJobs h, List.countP_append, hall, activeCount]

theorem inv_commitBatch {s : Store R} (h : Inv s) (registered : Bool) :
    Inv (commitBatch s registered) := by
  unfold commitBatch
  split
  · exact h
  · rename_i admission hsome
    obtain ⟨hnumber, hrejected, _⟩ := h.admission admission hsome
    split
    · rename_i jobs hinsert
      split_ifs
      · have hroom := h.room
        rw [hsome] at hroom
        refine ⟨?_, ?_, h.rejectedNumbered, ?_, by simp⟩
        · simpa [activeCount_insertJobs hinsert] using hroom
        · intro row hrow
          rw [rows_of_insertJobs hinsert, List.mem_append, List.mem_map] at hrow
          rcases hrow with hold | ⟨job, _, rfl⟩
          · exact h.jobsNumbered row hold
          · exact hnumber
        · intro row hrow
          rw [rows_of_insertJobs hinsert, List.mem_append, List.mem_map] at hrow
          rcases hrow with hold | ⟨job, _, rfl⟩
          · exact h.whole row hold
          · exact hrejected
      · exact inv_rollback h hsome
    · exact inv_rollback h hsome

theorem inv_rollbackBatch {s : Store R} (h : Inv s) :
    Inv (rollbackBatch s) := by
  unfold rollbackBatch
  split
  · exact h
  · rename_i admission hsome
    exact inv_rollback h hsome

theorem settled_start (jobs : Jobs R) (jobId : String) (current : Instant) :
    Settled jobs (startAssetCardBuildJob jobs jobId current) := by
  refine settled_updateJob jobs jobId _ (fun _ => ⟨rfl, rfl, rfl⟩) fun row hqueued _ => ?_
  rw [JobRow.isActive, of_decide_eq_true hqueued]
  rfl

theorem settled_update (jobs : Jobs R) (jobId stage : String) (progressPercent : Int)
    (counters : Counters) (stats : Option R) (current : Instant) :
    Settled jobs (updateAssetCardBuildJob jobs jobId stage progressPercent counters stats
      current) := by
  refine settled_updateJob jobs jobId _ (fun _ => ⟨rfl, rfl, rfl⟩) fun _ _ hactive => hactive

theorem settled_requestCancel (jobs : Jobs R) (jobId : String) (current : Instant) :
    Settled jobs (requestAssetCardBuildJobCancel jobs jobId current) := by
  refine settled_updateJob jobs jobId _ (fun _ => ⟨rfl, rfl, rfl⟩) fun _ hactive _ => hactive

theorem settled_finish (jobs : Jobs R) (jobId : String) (outcome : Outcome) (stage : String)
    (message : Option String) (stats : Option R) (current : Instant) :
    Settled jobs (finishAssetCardBuildJob jobs jobId outcome stage message stats current) := by
  refine settled_updateJob jobs jobId _ (fun _ => ⟨rfl, rfl, rfl⟩) fun row _ hactive => ?_
  simp [JobRow.isActive] at hactive

theorem settled_interrupt (jobs : Jobs R) (current : Instant) :
    Settled jobs (interruptActiveAssetCardBuildJobs jobs current) := by
  refine ⟨_, rfl, fun row => ?_⟩
  split
  · rename_i hactive
    exact ⟨⟨rfl, rfl, rfl, fun _ => hactive⟩, rfl⟩
  · exact ⟨Keeps.refl row, rfl⟩

/-- A step that is no commit leaves the table or updates it quietly. -/
theorem quiet_step (s : Store R) {e : Event R} (he : ∀ registered, e ≠ .commit registered) :
    Quiet s.jobs (step s e).jobs := by
  have hsame : Quiet s.jobs s.jobs := ⟨id, by simp, Keeps.refl⟩
  cases e with
  | create items current =>
      simp only [step, beginBatch]
      split
      · exact hsame
      · split_ifs <;> exact hsame
  | commit registered => exact absurd rfl (he registered)
  | rollback =>
      simp only [step, rollbackBatch]
      split <;> exact hsame
  | start jobId current => exact (settled_start s.jobs jobId current).quiet
  | update jobId stage progressPercent counters stats current =>
      exact (settled_update s.jobs jobId stage progressPercent counters stats current).quiet
  | requestCancel jobId current => exact (settled_requestCancel s.jobs jobId current).quiet
  | finish jobId outcome stage message stats current =>
      exact (settled_finish s.jobs jobId outcome stage message stats current).quiet
  | interrupt current => exact (settled_interrupt s.jobs current).quiet
  | rebind jobId canonicalAssetId current => exact quiet_rebind s.jobs jobId canonicalAssetId current

theorem exists_job_step {s : Store R} {row : JobRow R} (h : row ∈ s.jobs.rows) (e : Event R) :
    ∃ row' ∈ (step s e).jobs.rows, row'.jobId = row.jobId ∧ row'.request = row.request := by
  by_cases he : ∃ registered, e = .commit registered
  · obtain ⟨registered, rfl⟩ := he
    refine ⟨row, ?_, rfl, rfl⟩
    simp only [step, commitBatch]
    split
    · exact h
    · split
      · rename_i hinsert
        split_ifs
        · rw [rows_of_insertJobs hinsert]
          exact List.mem_append_left _ h
        · exact h
      · exact h
  · obtain ⟨f, hrows, hf⟩ := quiet_step s (not_exists.1 he)
    exact ⟨f row, hrows ▸ List.mem_map_of_mem h, (hf row).jobId, (hf row).request⟩

theorem inv_step {s : Store R} (h : Inv s) (e : Event R) :
    Inv (step s e) := by
  cases e with
  | create items current => exact inv_beginBatch h items current
  | commit registered => exact inv_commitBatch h registered
  | rollback => exact inv_rollbackBatch h
  | start jobId current => exact inv_of_quiet h (settled_start s.jobs jobId current).quiet
  | update jobId stage progressPercent counters stats current =>
      exact inv_of_quiet h
        (settled_update s.jobs jobId stage progressPercent counters stats current).quiet
  | requestCancel jobId current =>
      exact inv_of_quiet h (settled_requestCancel s.jobs jobId current).quiet
  | finish jobId outcome stage message stats current =>
      exact inv_of_quiet h
        (settled_finish s.jobs jobId outcome stage message stats current).quiet
  | interrupt current => exact inv_of_quiet h (settled_interrupt s.jobs current).quiet
  | rebind jobId canonicalAssetId current =>
      exact inv_of_quiet h (quiet_rebind s.jobs jobId canonicalAssetId current)

/-! ## Active jobs on distinct assets -/

/--
The condition on a step: a batch commits when what its count has found about its assets still
holds, and an active job is rebound to an asset that no other active job is about.
-/
def RebindOk (s : Store R) : Event R → Prop
  | .commit registered =>
      registered = true → ∀ admission ∈ s.admission,
        (insertJobs admission.number admission.current admission.batch.jobs s.jobs).isSome = true →
        ∀ row ∈ s.jobs.rows, row.isActive = true →
          ∀ job ∈ admission.batch.jobs, job.assetId ≠ row.assetId
  | .rebind jobId canonicalAssetId _ =>
      ∀ row ∈ s.jobs.rows, row.jobId = jobId → row.isActive = true →
        ∀ other ∈ s.jobs.rows, other.isActive = true → other.assetId = canonicalAssetId →
          other.jobId = jobId
  | _ => True

theorem distinctAssets_of_settled {jobs jobs' : Jobs R} (hsettled : Settled jobs jobs')
    (h : DistinctAssets jobs) :
    DistinctAssets jobs' := by
  obtain ⟨f, hrows, hf⟩ := hsettled
  intro row hrow other hother hactive hactive' hasset
  rw [hrows] at hrow hother
  obtain ⟨old, hold, rfl⟩ := List.mem_map.1 hrow
  obtain ⟨old', hold', rfl⟩ := List.mem_map.1 hother
  rw [(hf old).1.jobId, (hf old').1.jobId]
  refine h old hold old' hold' ((hf old).1.active hactive) ((hf old').1.active hactive') ?_
  rw [← (hf old).2, ← (hf old').2, hasset]

/-- Which insertions keep the active jobs on distinct assets. -/
theorem distinctAssets_insertJobs_iff {s : Store R} {admission : Admission R} {jobs' : Jobs R}
    (h : DistinctAssets s.jobs)
    (hinsert : insertJobs admission.number admission.current admission.batch.jobs s.jobs =
      some jobs') :
    DistinctAssets jobs' ↔
      ∀ row ∈ s.jobs.rows, row.isActive = true →
        ∀ job ∈ admission.batch.jobs, job.assetId ≠ row.assetId := by
  have hrows := rows_of_insertJobs hinsert
  have hmem : ∀ {row}, row ∈ jobs'.rows ↔ row ∈ s.jobs.rows ∨
      ∃ job ∈ admission.batch.jobs, newRow admission.number admission.current job = row := by
    simp [hrows]
  constructor
  · intro hdistinct row hrow hactive job hjob hasset
    have hsame := hdistinct row (hmem.2 (.inl hrow)) _ (hmem.2 (.inr ⟨job, hjob, rfl⟩)) hactive rfl
      hasset.symm
    -- The insertion has found the id of the new job free.
    have hnodup := jobs'.pkNodup
    rw [hrows, List.map_append] at hnodup
    exact (List.nodup_append.1 hnodup).2.2 _ (List.mem_map_of_mem hrow) _
      (List.mem_map_of_mem (List.mem_map_of_mem hjob)) hsame
  · intro hfree row hrow other hother hactive hactive' hasset
    rcases hmem.1 hrow with hold | ⟨job, hjob, rfl⟩
    · rcases hmem.1 hother with hold' | ⟨job', hjob', rfl⟩
      · exact h row hold other hold' hactive hactive' hasset
      · exact absurd hasset.symm (hfree row hold hactive job' hjob')
    · rcases hmem.1 hother with hold' | ⟨job', hjob', rfl⟩
      · exact absurd hasset (hfree other hold' hactive' job hjob)
      · exact congrArg NewJob.jobId
          (List.inj_on_of_nodup_map admission.batch.assetIdsNodup hjob hjob' hasset)

/-- Which rebindings keep the active jobs on distinct assets. -/
theorem distinctAssets_rebind_iff {jobs : Jobs R} (h : DistinctAssets jobs)
    (jobId canonicalAssetId : String) (current : Instant) :
    DistinctAssets (rebindScanPostprocessAsset jobs jobId canonicalAssetId current) ↔
      ∀ row ∈ jobs.rows, row.jobId = jobId → row.isActive = true →
        ∀ other ∈ jobs.rows, other.isActive = true → other.assetId = canonicalAssetId →
          other.jobId = jobId := by
  let f : JobRow R → JobRow R := fun row =>
    if row.jobId = jobId ∧ true then
      { row with assetId := canonicalAssetId, updatedAt := current }
    else row
  have hrows : (rebindScanPostprocessAsset jobs jobId canonicalAssetId current).rows =
      jobs.rows.map f := rfl
  have hkeep : ∀ row, (f row).jobId = row.jobId ∧ (f row).isActive = row.isActive := by
    intro row
    dsimp only [f]
    split <;> exact ⟨rfl, rfl⟩
  have hself : ∀ row, row.jobId = jobId → (f row).assetId = canonicalAssetId := by
    intro row hid
    simp [f, hid]
  have hother : ∀ row, row.jobId ≠ jobId → (f row).assetId = row.assetId := by
    intro row hid
    simp [f, hid]
  constructor
  · intro hdistinct row hrow hid hactive other hmem hactive' hasset
    by_contra hne
    have hsame := hdistinct (f row) (hrows ▸ List.mem_map_of_mem hrow) (f other)
      (hrows ▸ List.mem_map_of_mem hmem) ((hkeep row).2 ▸ hactive) ((hkeep other).2 ▸ hactive')
      (by rw [hself row hid, hother other hne, hasset])
    rw [(hkeep row).1, (hkeep other).1, hid] at hsame
    exact hne hsame.symm
  · intro hfree row' hrow' other' hother' hactive hactive' hasset
    rw [hrows] at hrow' hother'
    obtain ⟨row, hrow, rfl⟩ := List.mem_map.1 hrow'
    obtain ⟨other, hmem, rfl⟩ := List.mem_map.1 hother'
    rw [(hkeep row).2] at hactive
    rw [(hkeep other).2] at hactive'
    rw [(hkeep row).1, (hkeep other).1]
    by_cases hid : row.jobId = jobId
    · by_cases hid' : other.jobId = jobId
      · rw [hid, hid']
      · rw [hself row hid, hother other hid'] at hasset
        rw [hid, hfree row hrow hid hactive other hmem hactive' hasset.symm]
    · by_cases hid' : other.jobId = jobId
      · rw [hother row hid, hself other hid'] at hasset
        rw [hid', hfree other hmem hid' hactive' row hrow hactive hasset]
      · rw [hother row hid, hother other hid'] at hasset
        exact h row hrow other hmem hactive hactive' hasset

/-- Which steps keep the active jobs on distinct assets. -/
theorem distinctAssets_step_iff (s : Store R) (e : Event R) (h : DistinctAssets s.jobs) :
    DistinctAssets (step s e).jobs ↔ RebindOk s e := by
  have hsettled : ∀ {jobs : Jobs R}, Settled s.jobs jobs → (DistinctAssets jobs ↔ True) :=
    fun hsettled => iff_true_intro (distinctAssets_of_settled hsettled h)
  cases e with
  | create items current =>
      refine iff_of_true ?_ trivial
      simp only [step, beginBatch]
      split
      · exact h
      · split_ifs <;> exact h
  | commit registered =>
      simp only [step, commitBatch, RebindOk]
      cases hsome : s.admission with
      | none => simpa using h
      | some admission =>
          cases hinsert : insertJobs admission.number admission.current admission.batch.jobs
              s.jobs with
          | none => simpa [hinsert] using h
          | some jobs =>
              cases registered with
              | false => simpa [hinsert] using h
              | true => simpa [hinsert] using distinctAssets_insertJobs_iff h hinsert
  | rollback =>
      refine iff_of_true ?_ trivial
      simp only [step, rollbackBatch]
      split <;> exact h
  | start jobId current => exact hsettled (settled_start s.jobs jobId current)
  | update jobId stage progressPercent counters stats current =>
      exact hsettled (settled_update s.jobs jobId stage progressPercent counters stats current)
  | requestCancel jobId current => exact hsettled (settled_requestCancel s.jobs jobId current)
  | finish jobId outcome stage message stats current =>
      exact hsettled (settled_finish s.jobs jobId outcome stage message stats current)
  | interrupt current => exact hsettled (settled_interrupt s.jobs current)
  | rebind jobId canonicalAssetId current =>
      exact distinctAssets_rebind_iff h jobId canonicalAssetId current

/-! ## Only rebinding is to blame -/

/-- What the count of the running admission has found about its assets. -/
def CountStands (s : Store R) : Prop :=
  ∀ admission ∈ s.admission, ∀ row ∈ s.jobs.rows, row.isActive = true →
    ∀ job ∈ admission.batch.jobs, job.assetId ≠ row.assetId

/-- A rebinding of an active job looks at the other active jobs and at the running admission. -/
def ChecksRebind (s : Store R) : Event R → Prop
  | .rebind jobId canonicalAssetId _ =>
      ∀ row ∈ s.jobs.rows, row.jobId = jobId → row.isActive = true →
        (∀ other ∈ s.jobs.rows, other.isActive = true → other.assetId = canonicalAssetId →
          other.jobId = jobId) ∧
        ∀ admission ∈ s.admission, ∀ job ∈ admission.batch.jobs, job.assetId ≠ canonicalAssetId
  | _ => True

theorem countStands_of_settled {s : Store R} {jobs : Jobs R} (hsettled : Settled s.jobs jobs)
    (h : CountStands s) :
    CountStands { s with jobs := jobs } := by
  obtain ⟨f, hrows, hf⟩ := hsettled
  intro admission hadmission row hrow hactive job hjob
  simp only [hrows] at hrow
  obtain ⟨old, hold, rfl⟩ := List.mem_map.1 hrow
  rw [(hf old).2]
  exact h admission hadmission old hold ((hf old).1.active hactive) job hjob

theorem countStands_rebind {s : Store R} {jobId canonicalAssetId : String} {current : Instant}
    (h : CountStands s) (hok : ChecksRebind s (.rebind jobId canonicalAssetId current)) :
    CountStands (step s (.rebind jobId canonicalAssetId current)) := by
  intro admission hadmission row hrow hactive job hjob
  obtain ⟨old, hold, rfl⟩ := List.mem_map.1 hrow
  split at hactive
  · rename_i hrebound
    rw [if_pos hrebound]
    exact (hok old hold hrebound.1 hactive).2 admission hadmission job hjob
  · rename_i hother
    rw [if_neg hother]
    exact h admission hadmission old hold hactive job hjob

/-- What a count has found stands until the commit, unless a rebinding breaks it. -/
theorem countStands_step {s : Store R} (h : CountStands s) (e : Event R)
    (hok : ChecksRebind s e) :
    CountStands (step s e) := by
  cases e with
  | create items current =>
      simp only [step, beginBatch]
      split
      · exact h
      · split_ifs with hwaits hadmits
        · exact h
        · rintro admission ⟨⟩
          exact (admits_iff.1 hadmits).1
        · exact h
  | commit registered =>
      simp only [step, commitBatch]
      split
      · exact h
      · split
        · split_ifs <;> simp [CountStands]
        · simp [CountStands]
  | rollback =>
      simp only [step, rollbackBatch]
      split
      · exact h
      · simp [CountStands]
  | start jobId current => exact countStands_of_settled (settled_start s.jobs jobId current) h
  | update jobId stage progressPercent counters stats current =>
      exact countStands_of_settled
        (settled_update s.jobs jobId stage progressPercent counters stats current) h
  | requestCancel jobId current =>
      exact countStands_of_settled (settled_requestCancel s.jobs jobId current) h
  | finish jobId outcome stage message stats current =>
      exact countStands_of_settled
        (settled_finish s.jobs jobId outcome stage message stats current) h
  | interrupt current => exact countStands_of_settled (settled_interrupt s.jobs current) h
  | rebind jobId canonicalAssetId current => exact countStands_rebind h hok

theorem rebindOk_of_checksRebind {es : List (Event R)}
    (h : Runs.Along step ChecksRebind (initial : Store R) es) :
    Runs.Along step RebindOk (initial : Store R) es := by
  refine h.ensures (fun _ e hstands hok => countStands_step hstands e hok) ?_
    (by simp [CountStands, initial])
  intro s e hstands hok
  cases e with
  | commit registered => exact fun _ admission hadmission _ => hstands admission hadmission
  | rebind jobId canonicalAssetId current =>
      exact fun row hrow hid hactive => (hok row hrow hid hactive).1
  | _ => trivial

/--
When every rebinding of an active job looks at the other active jobs and at the running admission,
no two active jobs are about one asset, whatever else happens to the jobs.
-/
theorem checked_rebindings_keep_assets_apart {es : List (Event R)}
    (h : Runs.Along step ChecksRebind (initial : Store R) es) :
    Runs.Along step (fun s e => DistinctAssets (step s e).jobs) (initial : Store R) es := by
  have hinitial : DistinctAssets (initial : Store R).jobs := by
    simp [DistinctAssets, initial, Table.empty]
  exact (rebindOk_of_checksRebind h).throughout
    (fun s e (hdistinct : DistinctAssets s.jobs) hok => (distinctAssets_step_iff s e hdistinct).2 hok)
    hinitial

theorem checked_rebindings_keep_assets_apart_rebound :
    Runs.Along step (fun s e => DistinctAssets (step s e).jobs) (initial : Store Unit)
      [.create [{ jobId := some "job-1", assetId := some "a", operation := some "refresh",
                  request := some () },
                { jobId := some "job-2", assetId := some "b", operation := some "create",
                  request := some () }] 1,
        .commit true, .start "job-1" 2, .rebind "job-2" "c" 3] := by
  apply checked_rebindings_keep_assets_apart
  refine ⟨trivial, trivial, trivial, ?_, trivial⟩
  unfold ChecksRebind
  decide +kernel

/-! ## The build jobs of every run -/

/--
After every step of every run the limit holds and rejected batches have no jobs.  The active
jobs are on distinct assets throughout exactly when every step meets the condition.
-/
theorem build_jobs_distinct_iff (es : List (Event R)) :
    Runs.Along step (fun s e => Admitted (step s e)) (initial : Store R) es ∧
      (Runs.Along step (fun s e => DistinctAssets (step s e).jobs) (initial : Store R) es ↔
        Runs.Along step RebindOk (initial : Store R) es) := by
  constructor
  · have hany : Runs.Along step (fun _ _ => True) (initial : Store R) es :=
      Runs.along_of_forall (fun _ _ => trivial) _ es
    exact hany.ensures (fun _ e h _ => inv_step h e) (fun _ e h _ => (inv_step h e).admitted)
      inv_initial
  · have hinitial : DistinctAssets (initial : Store R).jobs := by
      simp [DistinctAssets, initial, Table.empty]
    exact Runs.along_congr (fun (s : Store R) _ (_ : DistinctAssets s.jobs) hok => hok)
      distinctAssets_step_iff hinitial es

/--
Two jobs are admitted for the assets a and b; the card of b is stored under a, and both jobs
are about a while they run.
-/
theorem rebind_duplicates_asset :
    ¬ Runs.Along step (fun s e => DistinctAssets (step s e).jobs) (initial : Store Unit)
      [.create [{ jobId := some "job-1", assetId := some "a", operation := some "refresh",
                  request := some () }] 1,
        .commit true,
        .create [{ jobId := some "job-2", assetId := some "b", operation := some "create",
                   request := some () }] 2,
        .commit true, .start "job-1" 3, .start "job-2" 4, .rebind "job-2" "a" 5] := by
  rintro ⟨-, -, -, -, -, -, hrebound, -⟩
  revert hrebound
  unfold DistinctAssets
  decide +kernel

end BuildJobs
end AssetCard
end MpvmApp
