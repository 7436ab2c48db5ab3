import MpvmApp.Operations.Sync

/-!
# Who sees an active scan postprocess run

The registry copies the status of a run as it is, and a run has statuses of its own.  The summary,
the cancel flag, the history and the preflight of a scan each compare the copied status with the
statuses of the registry, which have only one name in common with those of an active run.  The
preflight moreover looks the scanner task up in the request of the operation, where the start of a
scan does not write it.

Main definitions:

- Definition `step`: a start of a scan, a step of the registry, or a workflow.
- Definition `Visible`: the four places where an active run is to be seen.
- Definition `Seen`: the copied status is cancelling, and an active workflow tracks the run.

Main results:

- Theorem `inv_step`: a step keeps what every place relies on.
- Theorem `visible_iff_seen`: in a reachable state a run is visible exactly when it is seen.
-/

namespace MpvmApp
namespace Operations
namespace Visibility

open Remediation

/-! ## Starts of scans -/

/-- `StartScannerTaskRequest`; a number is its decimal text. -/
structure StartOptions where
  precheckEnabled : Bool := false
  precheckProfileId : Option String := none
  precheckTaskPrefix : String := "MP VM credential precheck"
  precheckTimeoutMinutes : String := "10"
  precheckMaxRuntimeMinutes : String := "5"
  precheckPollSeconds : String := "10"
  precheckJobsLimit : String := "1000"
  waitForFinish : Bool := false
  taskTimeoutMinutes : String := "120"
  taskPollSeconds : String := "15"
  requireCleanJobs : Bool := false
  createSettleSeconds : String := "30"
  skipValidation : Bool := false

/-- `model_dump` of the start options. -/
def StartOptions.modelDump (options : StartOptions) : Json :=
  .obj
    [("precheck_enabled", .bool options.precheckEnabled),
      ("precheck_profile_id", jsonText options.precheckProfileId),
      ("precheck_task_prefix", .str options.precheckTaskPrefix),
      ("precheck_timeout_minutes", .num options.precheckTimeoutMinutes),
      ("precheck_max_runtime_minutes", .num options.precheckMaxRuntimeMinutes),
      ("precheck_poll_seconds", .num options.precheckPollSeconds),
      ("precheck_jobs_limit", .num options.precheckJobsLimit),
      ("wait_for_finish", .bool options.waitForFinish),
      ("task_timeout_minutes", .num options.taskTimeoutMinutes),
      ("task_poll_seconds", .num options.taskPollSeconds),
      ("require_clean_jobs", .bool options.requireCleanJobs),
      ("create_settle_seconds", .num options.createSettleSeconds),
      ("skip_validation", .bool options.skipValidation)]

/-- The asset card that a scan refreshes. -/
structure RefreshedCard where
  assetId : String
  label : String
  targetIp : String
  templateTaskId : Option String

/-- The members of `options_json` that the refresh of a card adds. -/
def RefreshedCard.members (card : RefreshedCard) : List (String × Json) :=
  [("refresh_asset_id", .str card.assetId),
    ("refresh_asset_label", .str card.label),
    ("refresh_target_ip", .str card.targetIp),
    ("refresh_template_task_id", jsonText card.templateTaskId),
    ("auto_created_refresh_task", .bool true)]

/-- The planned Docker group of a scan, if such groups are configured. -/
def dockerMembers (dockerGroup : Option String) : List (String × Json) :=
  match dockerGroup with
  | some name => [("docker_dynamic_group", .obj [("name", .str name), ("state", .str "planned")])]
  | none => []

/-- The options that the start of a scan stores with its run. -/
def runOptions (options : StartOptions) (card : Option RefreshedCard)
    (dockerGroup : Option String) : Json :=
  updateMembers (some options.modelDump)
    ((card.map RefreshedCard.members).getD [] ++ dockerMembers dockerGroup)

/-! ## Workflows -/

/-- A row of `vm_workflow_runs`. -/
structure Workflow where
  workflowId : String
  status : String
  progressPercent : Int := 0
  request : Json
  operationId : Option String := none

/-- The workflow is one of `active`. -/
def Workflow.isActive (w : Workflow) : Bool :=
  decide (w.status ∈ ["queued", "running", "cancelling"])

/-- `str(request.get("task_id") or "")`; a task id is a text or missing. -/
def requestTaskId (request : Json) : String :=
  match request.member? "task_id" with
  | some (.str taskId) => taskId
  | _ => ""

/-- Insert a workflow, or overwrite the one with its id. -/
def putWorkflow (workflows : List Workflow) (w : Workflow) : List Workflow :=
  workflows.filter (fun old => decide (old.workflowId ≠ w.workflowId)) ++ [w]

/-! ## The system -/

/-- The source tables with the registry, and the workflows. -/
structure System where
  state : State
  workflows : List Workflow

/-- Nothing has been started. -/
def System.empty : System where
  state :=
    { buildJobs := .empty
      detailJobs := .empty
      runs := .empty
      imports := .empty
      removals := .empty
      operations := .empty }
  workflows := []

/-- The statuses that a run gets. -/
def runStatuses : List String :=
  activeRunStatuses ++ ["completed", "completed_with_errors", "failed", "cancelled"]

/-- A run is created by the start of a scan only, and it gets no other statuses. -/
def admits : Operations.Event → Bool
  | .createPostprocessRun .. => false
  | .postprocessRun (.update _ values) _ =>
      values.status.all fun status => decide (status ∈ runStatuses)
  | .postprocessRun (.finish _ status _ _ _) _ => decide (status ∈ runStatuses)
  | _ => true

/-- What can happen next. -/
inductive Event where
  /-- The start of a scanner task, or the refresh of a card. -/
  | startScan (runId taskId : String) (options : StartOptions) (card : Option RefreshedCard)
      (dockerGroup : Option String) (now : Instant)
  | operations (e : Operations.Event)
  | workflow (w : Workflow)

/-- One step; neither a path of the API nor the remote system names an empty task. -/
def step (s : System) : Event → System
  | .startScan runId taskId options card dockerGroup now =>
      if taskId = "" then s
      else
        let options := runOptions options card dockerGroup
        { s with state := Operations.step s.state (.createPostprocessRun runId taskId options now) }
  | .operations e => if admits e then { s with state := Operations.step s.state e } else s
  | .workflow w => { s with workflows := putWorkflow s.workflows w }

/-! ## Where operations are shown -/

/-- The rows that the summary counts as active. -/
def activeOperations (operations : OperationTable) : List OperationRow :=
  operations.rows.filter fun row =>
    decide (row.value.clearedAt = none ∧ row.value.status ∈ activeOperationStatuses)

/-- `active` of `get_operations_summary`. -/
def activeCount (operations : OperationTable) : Nat :=
  (activeOperations operations).length

/-- The kinds of operations that can be cancelled. -/
def cancellableKinds : List OperationKind :=
  [.assetCardBuild, .passportDetailSync, .scanPostprocess]

/-- `can_cancel` of `decode_operation`. -/
def canCancel (row : OperationRow) : Bool :=
  decide (row.value.status ∈ activeOperationStatuses ∧ row.key.1 ∈ cancellableKinds)

/-- `list_operations` without filters and with the default order. -/
def listOperations (loc : Sql.Locale) (limit : Nat) (operations : OperationTable) :
    List OperationRow :=
  let shown := operations.rows.filter fun row => decide (row.value.clearedAt = none)
  let sorted := shown.mergeSort fun a b =>
    decide (b.value.createdAt < a.value.createdAt) ||
      (decide (a.value.createdAt = b.value.createdAt) &&
        loc.le a.value.operationId b.value.operationId)
  sorted.take (max 1 (min 200 limit))

/-- An entry of `conflicting_operations`: it names an operation or a workflow. -/
inductive Conflict where
  | operation (row : OperationRow)
  | workflow (w : Workflow)

/--
The conflicts of `scan_preflight`.  A decoded operation has its subject as a document, and no
`subject_id` that the preflight could fall back to.
-/
def conflictingOperations (loc : Sql.Locale) (s : System) (taskId : String) : List Conflict :=
  let operations := (syncOperationsFromSources s.state).operations
  let rows := (listOperations loc 200 operations).filter fun row =>
    decide (row.value.status ∈ activeOperationStatuses ∧ requestTaskId row.value.request = taskId)
  let workflows := s.workflows.filter fun w =>
    w.isActive && decide (requestTaskId w.request = taskId)
  rows.map .operation ++ workflows.map .workflow

/-- The entry stands for the run: it is its operation, or the workflow that tracks it. -/
def Conflict.standsFor (run : PostprocessRun) : Conflict → Prop
  | .operation row => row.key = (.scanPostprocess, run.runId)
  | .workflow w => w.operationId = some run.runId

/-- After a synchronisation the run is to be seen in all four places. -/
structure Visible (loc : Sql.Locale) (s : System) (run : PostprocessRun) : Prop where
  counted : ∃ row ∈ activeOperations (syncOperationsFromSources s.state).operations,
    row.key = (.scanPostprocess, run.runId)
  cancellable : ∃ row, (syncOperationsFromSources s.state).operations.find?
    (.scanPostprocess, run.runId) = some row ∧ canCancel row = true
  kept : ∀ (actor : Option String) (now : Instant), ∃ row,
    (clearHistory actor now (syncOperationsFromSources s.state).operations).find?
      (.scanPostprocess, run.runId) = some row ∧ row.value.clearedAt = none
  reported : ∃ c ∈ conflictingOperations loc s run.mpTaskId, c.standsFor run

/-- The status that a synchronisation leaves: it copies that of the run over an older row. -/
def registeredStatus (s : State) (run : PostprocessRun) : String :=
  match s.operations.find? (.scanPostprocess, run.runId) with
  | some row => if row.stamp < run.updatedAt then run.status else row.value.status
  | none => run.status

/-- An active workflow for the task of the run tracks it. -/
def IsTracked (s : System) (run : PostprocessRun) : Prop :=
  ∃ w ∈ s.workflows, w.isActive = true ∧ requestTaskId w.request = run.mpTaskId ∧
    w.operationId = some run.runId

/-- The registry shows the run as cancelling, and a workflow tracks it. -/
structure Seen (s : System) (run : PostprocessRun) : Prop where
  cancelling : registeredStatus s.state run = "cancelling"
  tracked : IsTracked s run

instance (s : System) (run : PostprocessRun) : Decidable (IsTracked s run) :=
  inferInstanceAs (Decidable (∃ w ∈ s.workflows, w.isActive = true ∧
    requestTaskId w.request = run.mpTaskId ∧ w.operationId = some run.runId))

instance (s : System) (run : PostprocessRun) : Decidable (Seen s run) :=
  decidable_of_iff (registeredStatus s.state run = "cancelling" ∧ IsTracked s run)
    ⟨fun h => ⟨h.1, h.2⟩, fun h => ⟨h.cancelling, h.tracked⟩⟩

/-! ## What every place relies on -/

theorem eq_cancelling_of_active {status : String} (hrun : status ∈ runStatuses)
    (hactive : status ∈ activeOperationStatuses) :
    status = "cancelling" := by
  simp only [activeOperationStatuses, List.mem_cons, List.not_mem_nil, or_false] at hactive
  rcases hactive with rfl | rfl | rfl | rfl
  · exact absurd hrun (by decide)
  · exact absurd hrun (by decide)
  · rfl
  · exact absurd hrun (by decide)

theorem cancelling_active :
    "cancelling" ∈ activeOperationStatuses := by
  decide

theorem cancelling_not_clearable :
    "cancelling" ∉ clearableOperationStatuses := by
  decide

theorem scanPostprocess_cancellable :
    OperationKind.scanPostprocess ∈ cancellableKinds := by
  decide

theorem monitoring_mem_runStatuses :
    "monitoring" ∈ runStatuses := by
  decide

theorem cancelling_mem_runStatuses :
    "cancelling" ∈ runStatuses := by
  decide

/-- The document names no scanner task. -/
def NamesNoTask (document : Json) : Prop :=
  document.member? "task_id" = none

/-- A run of a scan start. -/
structure RunOk (run : PostprocessRun) : Prop where
  status : run.status ∈ runStatuses
  options : NamesNoTask run.options
  task : run.mpTaskId ≠ ""

/-- The registry row of a run of a scan start. -/
structure RowOk (values : OperationValues) : Prop where
  status : values.status ∈ runStatuses
  request : NamesNoTask values.request
  shown : values.status ∈ activeOperationStatuses → values.clearedAt = none

/-- A registration of a run is as every place relies on. -/
def CopyOk (c : OperationRow) : Prop :=
  c.key.1 = .scanPostprocess → RowOk c.value

/-- The registry rows of runs are as every place relies on. -/
def TableOk (operations : OperationTable) : Prop :=
  ∀ k row, operations.find? k = some row → CopyOk row

/-- The runs and their registry rows are as every place relies on. -/
structure Inv (s : State) : Prop where
  runs : ∀ run ∈ s.runs, RunOk run
  table : TableOk s.operations

/-! ## Documents -/

/-- To set another member leaves a member alone. -/
theorem find?_setMember {members : List (String × Json)} {value : String × Json} {key : String}
    (hne : value.1 ≠ key) :
    (if members.any fun m => decide (m.1 = value.1) then
        members.map fun m => if m.1 = value.1 then value else m
      else members ++ [value]).find? (fun m => decide (m.1 = key)) =
      members.find? fun m => decide (m.1 = key) := by
  have hmap : (members.map fun m => if m.1 = value.1 then value else m).find?
      (fun m => decide (m.1 = key)) = members.find? fun m => decide (m.1 = key) := by
    induction members with
    | nil => rfl
    | cons m members ih =>
        rw [List.map_cons, List.find?_cons, List.find?_cons, ih]
        by_cases hm : m.1 = value.1
        · rw [if_pos hm, hm]
          simp [hne]
        · rw [if_neg hm]
  split
  · exact hmap
  · simp [hne]

/-- An update of other members leaves a member alone. -/
theorem member?_updateMembers {document : Option Json} {values : List (String × Json)}
    {key : String} (hvalues : ∀ value ∈ values, value.1 ≠ key) :
    (updateMembers document values).member? key = document.bind (Json.member? key) := by
  have hfold : ∀ members : List (String × Json),
      (values.foldl (fun members value =>
        if members.any fun m => decide (m.1 = value.1) then
          members.map fun m => if m.1 = value.1 then value else m
        else members ++ [value]) members).find? (fun m => decide (m.1 = key)) =
      members.find? fun m => decide (m.1 = key) := by
    induction values with
    | nil => exact fun _ => rfl
    | cons value values ih =>
        intro members
        rw [List.foldl_cons, ih fun v hv => hvalues v (List.mem_cons_of_mem _ hv)]
        exact find?_setMember (hvalues value List.mem_cons_self)
  unfold updateMembers
  rw [Json.member?, hfold]
  cases document with
  | none => rfl
  | some document => cases document <;> rfl

/-- The options of a started scan name no task. -/
theorem namesNoTask_runOptions (options : StartOptions) (card : Option RefreshedCard)
    (dockerGroup : Option String) :
    NamesNoTask (runOptions options card dockerGroup) := by
  have hadded : ∀ value ∈ (card.map RefreshedCard.members).getD [] ++ dockerMembers dockerGroup,
      value.1 ≠ "task_id" := by
    intro value hvalue
    rcases List.mem_append.1 hvalue with hcard | hdocker
    · cases card with
      | none => cases hcard
      | some card =>
          simp only [Option.map_some, Option.getD_some, RefreshedCard.members, List.mem_cons,
            List.not_mem_nil, or_false] at hcard
          rcases hcard with rfl | rfl | rfl | rfl | rfl <;> simp
    · cases dockerGroup with
      | none => cases hdocker
      | some name =>
          simp only [dockerMembers, List.mem_singleton] at hdocker
          rw [hdocker]
          simp
  unfold NamesNoTask runOptions
  rw [member?_updateMembers hadded]
  simp [StartOptions.modelDump, Json.member?]

theorem requestTaskId_of_namesNoTask {request : Json} (h : NamesNoTask request) :
    requestTaskId request = "" := by
  unfold requestTaskId
  rw [h]

/-! ## The registry -/

theorem RunOk.operationRow {run : PostprocessRun} (h : RunOk run) :
    CopyOk run.operationRow :=
  fun _ => ⟨h.status, h.options, fun _ => rfl⟩

theorem RunOk.created {run : PostprocessRun} (h : RunOk run) :
    CopyOk run.created :=
  fun _ => ⟨monitoring_mem_runStatuses, h.options, fun _ => rfl⟩

theorem RowOk.merge {old new : OperationValues} (hold : RowOk old) (hnew : RowOk new) :
    RowOk (mergeOperation old new) where
  status := hnew.status
  request := by
    unfold mergeOperation
    dsimp only
    split
    · exact hold.request
    · exact hnew.request
  shown := fun hactive => if_pos hactive

theorem TableOk.register {operations : OperationTable} (h : TableOk operations)
    {c : OperationRow} (hc : CopyOk c) :
    TableOk (Replica.register mergeOperation operations c) := by
  intro k row hrow
  rw [Replica.find?_register] at hrow
  split at hrow
  · obtain rfl := Option.some.inj hrow
    cases hheld : operations.find? k with
    | none => exact hc
    | some held =>
        intro hkind
        rename_i hkey
        have hheldKind : held.key.1 = .scanPostprocess := by
          rw [Table.pk_of_find? hheld, ← hkey]
          exact hkind
        exact (h k held hheld hheldKind).merge (hc hkind)
  · exact h k row hrow

theorem TableOk.refreshAll {operations : OperationTable} (h : TableOk operations)
    {sources : List OperationRow} (hsources : ∀ c ∈ sources, CopyOk c) :
    TableOk (Replica.refreshAll mergeOperation operations sources) := by
  have hfold : ∀ (copies : List OperationRow) (table : OperationTable), TableOk table →
      (∀ c ∈ copies, CopyOk c) → TableOk (copies.foldl (Replica.register mergeOperation) table) := by
    intro copies
    induction copies with
    | nil => exact fun _ htable _ => htable
    | cons c copies ih =>
        intro table htable hcopies
        rw [List.foldl_cons]
        exact ih _ (htable.register (hcopies c List.mem_cons_self))
          fun c' hc' => hcopies c' (List.mem_cons_of_mem _ hc')
  exact hfold _ _ h fun c hc => hsources c (List.mem_of_mem_filter hc)

theorem copyOk_sources {s : State} (h : ∀ run ∈ s.runs, RunOk run) :
    ∀ c ∈ s.sources, CopyOk c := by
  unfold State.sources
  simp only [List.forall_mem_append, List.forall_mem_map]
  exact ⟨fun _ _ => nofun, fun _ _ => nofun, fun run hrun => (h run hrun).operationRow,
    fun _ _ => nofun, fun _ _ => nofun⟩

theorem find?_clearHistory {operations : OperationTable} {k : OperationKey} {row : OperationRow}
    (hkept : row.value.status ∉ clearableOperationStatuses) (hfind : operations.find? k = some row)
    {actor : Option String} {now : Instant} :
    (Operations.clearHistory actor now operations).find? k = some row := by
  unfold Operations.clearHistory
  rw [Table.find?_mapRows, hfind, Option.map_some, if_neg fun hclear => hkept hclear.2]

theorem TableOk.clearHistory {operations : OperationTable} (h : TableOk operations)
    (actor : Option String) (now : Instant) :
    TableOk (Operations.clearHistory actor now operations) := by
  intro k row hrow
  unfold Operations.clearHistory at hrow
  rw [Table.find?_mapRows] at hrow
  obtain ⟨held, hheld, rfl⟩ := Option.map_eq_some_iff.1 hrow
  intro hkind
  split at hkind
  · rename_i hclear
    rw [if_pos hclear]
    have hok := h k held hheld hkind
    refine ⟨hok.status, hok.request, fun hactive => ?_⟩
    have hcancelling := eq_cancelling_of_active hok.status hactive
    exact absurd (hcancelling ▸ hclear.2) (by decide)
  · rename_i hclear
    rw [if_neg hclear]
    exact h k held hheld hkind

/-! ## One step -/

/-- An update of a run keeps it as every place relies on. -/
theorem RunOk.set {run : PostprocessRun} (h : RunOk run) {write : PostprocessWrite}
    {now : Instant} (hadmits : admits (.postprocessRun write now) = true) :
    RunOk (write.set now run) := by
  cases write with
  | claim runId workerId => exact ⟨h.status, h.options, h.task⟩
  | releaseLeases => exact ⟨h.status, h.options, h.task⟩
  | update runId values =>
      refine ⟨?_, h.options, h.task⟩
      cases hstatus : values.status with
      | none => simpa [PostprocessWrite.set, hstatus] using h.status
      | some status => simpa [PostprocessWrite.set, admits, hstatus] using hadmits
  | finish runId status stage message error =>
      exact ⟨of_decide_eq_true hadmits, h.options, h.task⟩
  | dockerGroup runId values =>
      refine ⟨h.status, ?_, h.task⟩
      unfold NamesNoTask
      simp only [PostprocessWrite.set]
      rw [member?_updateMembers (by simp), Option.bind_some]
      exact h.options
  | requestCancel runId => exact ⟨cancelling_mem_runStatuses, h.options, h.task⟩

theorem Inv.of_table {s s' : State} (h : Inv s) (hruns : s'.runs = s.runs)
    (htable : TableOk s'.operations) :
    Inv s' where
  runs := by
    rw [hruns]
    exact h.runs
  table := htable

theorem Inv.created {s : State} (h : Inv s) {created : Option State}
    (hcreated : ∀ s', created = some s' → Inv s') :
    Inv (created.getD s) := by
  cases created with
  | none => exact h
  | some s' => exact hcreated s' rfl

theorem inv_createBuildJobs {jobs : List BuildJob} {s s' : State} (h : Inv s)
    (hcreate : jobs.foldlM createBuildJob s = some s') :
    Inv s' := by
  induction jobs generalizing s with
  | nil =>
      cases hcreate
      exact h
  | cons job jobs ih =>
      rw [List.foldlM_cons] at hcreate
      obtain ⟨mid, hmid, hrest⟩ := Option.bind_eq_some_iff.1 hcreate
      obtain ⟨buildJobs, _, rfl⟩ := Option.map_eq_some_iff.1 hmid
      refine ih ?_ hrest
      exact ⟨h.runs, h.table.register nofun⟩

theorem inv_createPostprocessRun {s s' : State} (h : Inv s) {runId taskId : String}
    {options : Json} {now : Instant} (htask : taskId ≠ "") (hoptions : NamesNoTask options)
    (hcreate : createPostprocessRun runId taskId options now s = some s') :
    Inv s' := by
  obtain ⟨runs, hinsert, rfl⟩ := Option.map_eq_some_iff.1 hcreate
  have hnew : RunOk (newPostprocessRun runId taskId options now) :=
    ⟨monitoring_mem_runStatuses, hoptions, htask⟩
  refine ⟨fun run hrun => ?_, h.table.register hnew.created⟩
  rw [Table.mem_def, Table.rows_of_insert? hinsert] at hrun
  rcases List.mem_append.1 hrun with hold | hadded
  · exact h.runs run hold
  · rw [List.mem_singleton.1 hadded]
    exact hnew

/-- A step of the registry keeps what every place relies on. -/
theorem inv_operations {s : State} (h : Inv s) {e : Operations.Event}
    (hadmits : admits e = true) :
    Inv (Operations.step s e) := by
  cases e with
  | createBuildJobs items now =>
      refine h.created fun s' hcreate => ?_
      unfold createBuildJobs at hcreate
      dsimp only at hcreate
      split at hcreate
      · exact inv_createBuildJobs h hcreate
      · cases hcreate
  | createDetailJob jobId requested eligible skipped request now =>
      refine h.created fun s' hcreate => ?_
      obtain ⟨detailJobs, _, rfl⟩ := Option.map_eq_some_iff.1 hcreate
      exact h.of_table rfl (h.table.register nofun)
  | createPostprocessRun runId taskId options now => cases hadmits
  | postprocessRun write now =>
      refine ⟨fun run hrun => ?_, h.table⟩
      simp only [Operations.step, updateRows, Table.mem_mapRows] at hrun
      obtain ⟨old, hold, rfl⟩ := hrun
      split
      · exact (h.runs old hold).set hadmits
      · exact h.runs old hold
  | createImportRun id source pdql csvFilename deleteAfterExport now =>
      refine h.created fun s' hcreate => ?_
      obtain ⟨imports, _, rfl⟩ := Option.map_eq_some_iff.1 hcreate
      exact h.of_table rfl h.table
  | recordAssetRemoval id operationId assetIds status message rawResponse now =>
      refine h.created fun s' hcreate => ?_
      obtain ⟨removals, _, rfl⟩ := Option.map_eq_some_iff.1 hcreate
      exact h.of_table rfl h.table
  | register key =>
      simp only [Operations.step]
      split
      · rename_i c hc
        refine h.of_table rfl (h.table.register ?_)
        exact copyOk_sources h.runs c (List.mem_of_find?_eq_some hc)
      · exact h
  | sync => exact h.of_table rfl (h.table.refreshAll (copyOk_sources h.runs))
  | clearHistory actor now => exact h.of_table rfl (h.table.clearHistory actor now)
  | _ => exact h.of_table rfl h.table

/-- A step keeps what every place relies on. -/
theorem inv_step {s : System} (h : Inv s.state) (e : Event) :
    Inv (step s e).state := by
  cases e with
  | startScan runId taskId options card dockerGroup now =>
      by_cases htask : taskId = ""
      · rw [step, if_pos htask]
        exact h
      · rw [step, if_neg htask]
        exact h.created fun s' hcreate => inv_createPostprocessRun h htask
          (namesNoTask_runOptions options card dockerGroup) hcreate
  | operations e =>
      by_cases hadmits : admits e = true
      · rw [step, if_pos hadmits]
        exact inv_operations h hadmits
      · rw [step, if_neg hadmits]
        exact h
  | workflow w => exact h

theorem inv_run (es : List Event) :
    Inv (Runs.run step System.empty es).state := by
  have hempty : Inv System.empty.state :=
    ⟨fun _ hrun => absurd hrun List.not_mem_nil,
      fun _ row hrow => absurd hrow.symm (Option.some_ne_none row)⟩
  have hstep : ∀ (s : System) (e : Event), Inv s.state → True → Inv (step s e).state :=
    fun s e h _ => inv_step h e
  exact (Runs.along_of_forall (fun _ _ => trivial) System.empty es).invariant hstep hempty

/-! ## The four places -/

section Places

variable {s : System} {run : PostprocessRun}

/-- What a synchronisation leaves in the row of a run has the registered status. -/
theorem find?_sync (hrun : run ∈ s.state.runs) :
    ∃ row, (syncOperationsFromSources s.state).operations.find? (.scanPostprocess, run.runId) =
        some row ∧ row.value.status = registeredStatus s.state run := by
  have hmem : run.operationRow ∈ s.state.sources := by
    unfold State.sources
    exact List.mem_append_right _ (List.mem_append_right _
      (List.mem_append_left _ (List.mem_map_of_mem hrun)))
  refine ⟨_, Replica.find?_refreshAll (sources_nodup s.state) hmem, ?_⟩
  unfold registeredStatus Replica.refresh Replica.outdated Replica.absorb
  have hkey : run.operationRow.key = (.scanPostprocess, run.runId) := rfl
  have hstamp : run.operationRow.stamp = run.updatedAt := rfl
  rw [hkey, hstamp]
  cases s.state.operations.find? (.scanPostprocess, run.runId) with
  | none => rfl
  | some row =>
      by_cases hold : row.stamp < run.updatedAt
      · simp only [hold, if_true, Option.all_some, decide_true]
        rfl
      · simp only [hold, if_false, Option.all_some, decide_false]
        rfl

theorem Inv.sync (h : Inv s.state) :
    TableOk (syncOperationsFromSources s.state).operations :=
  h.table.refreshAll (copyOk_sources h.runs)

theorem Visible.cancelling {loc : Sql.Locale} (h : Inv s.state) (hrun : run ∈ s.state.runs)
    (hvisible : Visible loc s run) :
    registeredStatus s.state run = "cancelling" := by
  obtain ⟨row, hfind, hstatus⟩ := find?_sync hrun
  obtain ⟨counted, hcounted, hkey⟩ := hvisible.counted
  have hmem := List.mem_of_mem_filter hcounted
  have hsame : counted = row := by
    have hfound := Table.find?_of_mem (Table.mem_def.2 hmem)
    rw [hkey, hfind] at hfound
    exact (Option.some.inj hfound).symm
  have hshown := of_decide_eq_true (List.mem_filter.1 hcounted).2
  have hok : RowOk counted.value := by
    rw [hsame]
    refine h.sync _ row hfind ?_
    rw [Table.pk_of_find? hfind]
  rw [← hstatus, ← hsame]
  exact eq_cancelling_of_active hok.status hshown.2

/-- The operation of a run is no conflict: its request names no task. -/
theorem Visible.tracked {loc : Sql.Locale} (h : Inv s.state) (hrun : run ∈ s.state.runs)
    (hvisible : Visible loc s run) :
    IsTracked s run := by
  obtain ⟨c, hc, hstands⟩ := hvisible.reported
  rcases List.mem_append.1 hc with hoperation | hworkflow
  · obtain ⟨row, hrow, rfl⟩ := List.mem_map.1 hoperation
    obtain ⟨hlisted, hconflict⟩ := List.mem_filter.1 hrow
    have hmem : row ∈ (syncOperationsFromSources s.state).operations := by
      have hsorted := List.mem_of_mem_take hlisted
      exact List.mem_of_mem_filter (List.mem_mergeSort.1 hsorted)
    have hkey : row.key = (.scanPostprocess, run.runId) := hstands
    have hok : RowOk row.value :=
      h.sync _ row (Table.find?_of_mem hmem) (by rw [hkey])
    have htask := (of_decide_eq_true hconflict).2
    rw [requestTaskId_of_namesNoTask hok.request] at htask
    exact absurd htask.symm (h.runs run hrun).task
  · obtain ⟨w, hw, rfl⟩ := List.mem_map.1 hworkflow
    obtain ⟨hmem, hconflict⟩ := List.mem_filter.1 hw
    obtain ⟨hactive, htask⟩ := Bool.and_eq_true_iff.1 hconflict
    exact ⟨w, hmem, hactive, of_decide_eq_true htask, hstands⟩

/-- A tracked run that the registry shows as cancelling is to be seen in all four places. -/
theorem Seen.visible (loc : Sql.Locale) (h : Inv s.state) (hrun : run ∈ s.state.runs)
    (hseen : Seen s run) :
    Visible loc s run := by
  obtain ⟨row, hfind, hstatus⟩ := find?_sync hrun
  rw [hseen.cancelling] at hstatus
  have hkey := Table.pk_of_find? hfind
  have hactive : row.value.status ∈ activeOperationStatuses := by
    rw [hstatus]
    exact cancelling_active
  have hok : RowOk row.value := h.sync _ row hfind (by rw [hkey])
  have hshown := hok.shown hactive
  refine ⟨⟨row, ?_, hkey⟩, ⟨row, hfind, ?_⟩, fun actor now => ?_, ?_⟩
  · exact List.mem_filter.2 ⟨Table.mem_of_find? hfind, decide_eq_true ⟨hshown, hactive⟩⟩
  · refine decide_eq_true ⟨hactive, ?_⟩
    rw [hkey]
    exact scanPostprocess_cancellable
  · have hkept : row.value.status ∉ clearableOperationStatuses := by
      rw [hstatus]
      exact cancelling_not_clearable
    exact ⟨row, find?_clearHistory hkept hfind, hshown⟩
  · obtain ⟨w, hw, hrunning, htask, htracks⟩ := hseen.tracked
    refine ⟨.workflow w, List.mem_append_right _ (List.mem_map_of_mem ?_), htracks⟩
    exact List.mem_filter.2 ⟨hw, Bool.and_eq_true_iff.2 ⟨hrunning, decide_eq_true htask⟩⟩

end Places

/--
In every state that starts of scans, status changes, synchronisations, cancellations and clearings
of the history lead to, a run is to be seen after a synchronisation in the summary, with its cancel
flag, in the history and by the preflight exactly when its registry row is cancelling and an active
workflow for its task tracks it.  An active run in particular is not to be seen as long as it is
not cancelled.
-/
theorem visible_iff_seen (loc : Sql.Locale) (es : List Event) (run : PostprocessRun)
    (hrun : run ∈ (Runs.run step System.empty es).state.runs) :
    Visible loc (Runs.run step System.empty es) run ↔ Seen (Runs.run step System.empty es) run := by
  have hinv := inv_run es
  constructor
  · exact fun hvisible => ⟨hvisible.cancelling hinv hrun, hvisible.tracked hinv hrun⟩
  · exact fun hseen => hseen.visible loc hinv hrun

/-! ## One run that is seen, and one that is not -/

/-- A tracked scan is cancelled a second after its start. -/
def cancelledScan : List Event :=
  [.startScan "r1" "t1" {} none none 0,
    .workflow { workflowId := "w1", status := "running", request := .obj [("task_id", .str "t1")]
                operationId := some "r1" },
    .operations (.postprocessRun (.requestCancel "r1") second)]

/-- The cancelled scan is visible. -/
theorem visible_cancelledScan :
    ∃ run ∈ (Runs.run step System.empty cancelledScan).state.runs,
      run.status ∈ activeRunStatuses ∧
        Visible Sql.plainLocale (Runs.run step System.empty cancelledScan) run := by
  have hstored : (Runs.run step System.empty cancelledScan).state.runs.rows.any (fun run =>
      decide (run.status ∈ activeRunStatuses ∧
        Seen (Runs.run step System.empty cancelledScan) run)) = true := by
    decide +kernel
  obtain ⟨run, hrun, hboth⟩ := List.any_eq_true.1 hstored
  obtain ⟨hactive, hseen⟩ := of_decide_eq_true hboth
  exact ⟨run, hrun, hactive,
    (visible_iff_seen Sql.plainLocale cancelledScan run hrun).2 hseen⟩

/-- The tracked scan before it is cancelled. -/
def monitoredScan : List Event :=
  cancelledScan.take 2

/-- A scan that is monitored is an active run, and it is not visible. -/
theorem monitoredScan_not_visible :
    ¬ ∀ (loc : Sql.Locale) (es : List Event) (run : PostprocessRun),
      run ∈ (Runs.run step System.empty es).state.runs → run.status ∈ activeRunStatuses →
        Visible loc (Runs.run step System.empty es) run := by
  intro h
  have hstored : (Runs.run step System.empty monitoredScan).state.runs.rows.any (fun run =>
      decide (run.status ∈ activeRunStatuses ∧
        registeredStatus (Runs.run step System.empty monitoredScan).state run ≠ "cancelling")) =
      true := by
    decide +kernel
  obtain ⟨run, hrun, hboth⟩ := List.any_eq_true.1 hstored
  obtain ⟨hactive, hstatus⟩ := of_decide_eq_true hboth
  have hvisible := h Sql.plainLocale monitoredScan run hrun hactive
  exact hstatus (hvisible.cancelling (inv_run monitoredScan) hrun)

end Visibility
end Operations
end MpvmApp
