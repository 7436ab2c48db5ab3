import MpvmApp.Workflow.Reconciliation

/-!
# The workflow machine

Request handlers and workers share the workflow rows and the remediation tables.
Each of them is a thread that goes through phases; a step is one transaction of
one thread, one operation on the remediation tables, or the arrival of a new
workflow.  Between two steps any other thread may take a step.

Main definitions:

- `advance`: one step of the thread of a workflow.
- `step`: one step of the whole system.
-/

namespace MpvmApp
namespace Workflow

open Remediation

/-- How far the thread of a workflow has come. -/
inductive Phase where
  /-- The row is inserted. -/
  | created
  /-- The campaign id is stored in the row. -/
  | linked
  /-- The cases of the campaign are marked as queued. -/
  | announced
  /-- The run is submitted to the runner. -/
  | scheduled (monitorOnly : Bool)
  /-- The run has stored the status running. -/
  | begun (monitorOnly : Bool)
  /-- The starter of the child operations is called. -/
  | launching
  /-- The child operations are awaited. -/
  | monitoring
  /-- The child operations have ended and the assets are reconciled. -/
  | reconciling (operations : List ChildOperation)
  /-- The outcome is known and the campaign is to be finalised. -/
  | closing (finished : WorkflowRow) (failedAssets : List String)
  /-- The campaign is finalised and the outcome is to be stored. -/
  | finalized (finished : WorkflowRow)
  /-- An exception is caught. -/
  | failing (message : String)
  /-- The status failed is stored and the campaign is to be told. -/
  | failed (message : String)
  /-- A cancellation is observed. -/
  | cancelling
  /-- The status cancelled is stored and the campaign is to be told. -/
  | cancelled
  /-- The thread has ended. -/
  | done

/-- A workflow row with the state of its thread. -/
structure Entry where
  row : WorkflowRow
  phase : Phase := .created
  /-- The row that a retry has read before it created this workflow. -/
  source : Option WorkflowRow := none

/-- The remediation tables and the workflows by their ids. -/
structure State where
  db : Database
  workflows : String → Option Entry

/-- The steps of the thread of one workflow. -/
inductive Action where
  | link
  | completeEmpty
  | announce
  | schedule
  | track (operationId : String)
  | resumeReconciliation
  | begin (sawCancel : Bool)
  | launch
  | started (operationIds : List String) (errors : List AssetError)
  | observeCancel
  | childrenDone (operations : List ChildOperation)
  | reconciled (repository : Reconciler) (catalog : List String) (configuredWorkers : Nat)
      (pick : Nat → Nat)
  | finalize
  | finish
  | raise (message : String)
  | die
  | storeFailed
  | tellFailed
  | storeCancelled
  | tellCancelled
  | requestCancel

/-! ## Request handlers -/

/-- The request asks for nothing: it is a new verification without assets. -/
def Entry.asksNothing (e : Entry) : Bool :=
  decide (e.row.kind = .verification) && e.row.request.assets.isEmpty && e.source.isNone

/-- The handler may submit the run: the campaign, if there is one, has been told. -/
def Entry.readyToRun (e : Entry) : Bool :=
  match e.phase with
  | .announced => true
  | .created => e.row.request.campaignId.isNone && !e.asksNothing
  | _ => false

/-- The retry repeats only the reconciliation of its source. -/
def Entry.repeatsReconciliation (e : Entry) : Bool :=
  e.source.any WorkflowRow.retriesReconciliation

/-- `update_run(campaign_id=...)` of a verification of a campaign. -/
def link (e : Entry) : Option Entry :=
  match e.phase, e.row.request.campaignId with
  | .created, some campaignId =>
      some { e with row := { e.row with campaignId := some campaignId }, phase := .linked }
  | _, _ => none

/-- A verification without assets is completed at once. -/
def completeEmpty (e : Entry) : Option Entry :=
  let completed : WorkflowRow :=
    { ((((e.row.updateStep .targets .completed).updateStep .scan .skipped).updateStep
        .postprocess .skipped).updateStep .reconcile
          (if e.row.request.campaignId.isSome then .completed else .skipped)) with
      status := .completed
      result := {} }
  match e.phase with
  | .linked => if e.asksNothing then some { e with row := completed, phase := .done } else none
  | .created =>
      if e.asksNothing && e.row.request.campaignId.isNone then
        some { e with row := completed, phase := .done }
      else none
  | _ => none

/-- `set_campaign_verification(..., "queued")`. -/
def announce (w : String) (db : Database) (e : Entry) : Option (Database × Entry) :=
  match e.phase, e.row.request.campaignId with
  | .linked, some campaignId =>
      if e.asksNothing then none
      else
        some (setCampaignVerification campaignId w .queued none db,
          { e with phase := .announced })
  | _, _ => none

/-- `_schedule` by the handler. -/
def schedule (e : Entry) : Option Entry :=
  if e.readyToRun && !e.repeatsReconciliation then
    some { e with phase := .scheduled false }
  else none

/-- `track_scan`: a workflow for a scan operation that already runs. -/
def track (operationId : String) (e : Entry) : Option Entry :=
  match e.phase, e.row.kind, e.row.request.campaignId with
  | .created, .scan, none =>
      some { e with
        row :=
          { (e.row.updateStep .validation .completed).updateStep .scan .completed with
            status := .running
            taskId := e.row.request.taskId
            operationId := some operationId }
        phase := .scheduled true }
  | _, _, _ => none

/-- `_resume_reconciliation`: reuse the child operations of the source. -/
def resumeReconciliation (e : Entry) : Option Entry :=
  match e.source with
  | none => none
  | some source =>
      if e.readyToRun && source.retriesReconciliation then
        let operationIds := source.operationIds
        some { e with
          row :=
            { e.row with
              steps := source.steps.map fun step =>
                if step.stepKey = .reconcile then { step with status := .pending }
                else if step.status = .skipped then step
                else { step with status := .completed }
              status := .running
              taskId := source.taskId
              campaignId := source.campaignId
              operationId := if operationIds.length = 1 then operationIds.head? else none
              result := { operationIds := operationIds, resumedFrom := e.row.retryOf } }
          phase := .scheduled true }
      else none

/-! ## The run of a workflow -/

/-- The start of `_run`; `sawCancel` is what the row read at the start says. -/
def begin (sawCancel : Bool) (e : Entry) : Option Entry :=
  match e.phase with
  | .scheduled monitorOnly =>
      if !e.row.status.isActive then some { e with phase := .done }
      else if sawCancel then
        if e.row.cancelRequested then some { e with phase := .cancelling } else none
      else
        some { e with row := { e.row with status := .running }, phase := .begun monitorOnly }
  | _ => none

/-- The assets that a run without child operations reports as failed. -/
def startFailures (row : WorkflowRow) : List String :=
  (row.result.startErrors.map AssetError.assetId).filter fun assetId => decide (assetId ≠ "")

/-- `_complete_without_operations`: the row that it stores at the end. -/
def withoutOperations (row : WorkflowRow) : WorkflowRow :=
  { ((row.updateStep .postprocess .skipped).updateStep .reconcile .skipped) with
    status := .completedWithErrors
    result :=
      { startErrors := row.result.startErrors
        failedAssets := row.result.startErrors.map AssetError.assetId } }

/-- Where the run goes once its child operations are known. -/
def afterStart (row : WorkflowRow) (operationIds : List String) : Phase :=
  if !operationIds.isEmpty then .monitoring
  else if row.kind = .verification ∧ row.result.startErrors ≠ [] then
    .closing (withoutOperations row) (startFailures row)
  else .failing "Workflow has no child operations."

/-- The run goes on to its children, or marks the campaign as running and starts them. -/
def launch (w : String) (db : Database) (e : Entry) : Option (Database × Entry) :=
  match e.phase with
  | .begun monitorOnly =>
      if !monitorOnly && e.row.operationIds.isEmpty then
        match e.row.kind, e.row.campaignId with
        | .verification, some campaignId =>
            some (setCampaignVerification campaignId w .running none db,
              { e with phase := .launching })
        | _, _ => some (db, { e with phase := .launching })
      else
        some (db, { e with phase := afterStart e.row e.row.operationIds })
  | _ => none

/-- The starter returns the child operations and the errors of single assets. -/
def started (operationIds : List String) (errors : List AssetError) (e : Entry) :
    Option Entry :=
  match e.phase with
  | .launching =>
      let row : WorkflowRow :=
        match e.row.kind with
        | .scan =>
            { e.row with
              taskId := e.row.request.taskId
              operationId := operationIds.head? }
        | .verification =>
            { (e.row.updateStep .targets .completed).updateStep .scan
                (if operationIds.isEmpty then .failed else .completed) with
              operationId := if operationIds.length = 1 then operationIds.head? else none
              result := { operationIds := operationIds, startErrors := errors } }
      some { e with row := row, phase := afterStart row operationIds }
  | _ => none

/-- The monitor observes a cancellation. -/
def observeCancel (e : Entry) : Option Entry :=
  match e.phase with
  | .monitoring => if e.row.cancelRequested then some { e with phase := .cancelling } else none
  | _ => none

/-- `OPERATION_TERMINAL`. -/
def operationTerminal : List String :=
  ["completed", "completed_with_errors", "failed", "cancelled", "interrupted"]

/-- The monitor sees that every child operation has ended. -/
def childrenDone (operations : List ChildOperation) (e : Entry) : Option Entry :=
  match e.phase with
  | .monitoring =>
      if operations.map ChildOperation.operationId = e.row.operationIds ∧
          operations.all fun operation => decide (operation.status ∈ operationTerminal) then
        some { e with phase := .reconciling operations }
      else none
  | _ => none

/-- `_reconcile` has called the service for every asset. -/
def reconciled (phase : List ChildOperation → FinalPhase) (repository : Reconciler) (e : Entry) :
    Option Entry :=
  match e.phase with
  | .reconciling operations =>
      let finished := finishWorkflow (serviceReconcile repository) (phase operations)
      some { e with
        phase := .closing finished
          (failedAssets (phase operations) finished.result.reconciliationErrors) }
  | _ => none

/-- `finalize_campaign_verification`, when the workflow has a campaign. -/
def finalize (w : String) (db : Database) (e : Entry) : Option (Database × Entry) :=
  match e.phase with
  | .closing finished failed =>
      match e.row.campaignId with
      | some campaignId =>
          some (finalizeCampaignVerification campaignId w failed db,
            { e with phase := .finalized finished })
      | none => some (db, { e with phase := .finalized finished })
  | _ => none

/-- The last `update_run` stores the outcome. -/
def finish (e : Entry) : Option Entry :=
  match e.phase with
  | .finalized finished =>
      some { e with
        row := { e.row with
          steps := finished.steps, status := finished.status, result := finished.result }
        phase := .done }
  | _ => none

/-! ## Failures and cancellations -/

/-- The phases inside the `try` block of `_run`. -/
def Phase.guarded : Phase → Bool
  | .scheduled _ | .begun _ | .launching | .monitoring | .reconciling _ | .closing _ _
  | .finalized _ | .cancelling | .cancelled => true
  | _ => false

/-- An exception inside `_run`; it is reported unless the row is already terminal. -/
def raise (message : String) (e : Entry) : Option Entry :=
  if e.phase.guarded then
    some { e with phase := if e.row.status.isTerminal then .done else .failing message }
  else none

/-- An exception inside the `except` block ends the thread. -/
def die (e : Entry) : Option Entry :=
  match e.phase with
  | .failing _ | .failed _ => some { e with phase := .done }
  | _ => none

/-- `update_run(status="failed")`, with the active step failed. -/
def storeFailed (e : Entry) : Option Entry :=
  match e.phase with
  | .failing message =>
      let active :=
        match e.row.steps.find? fun step => decide (step.status = .running) with
        | some step => step.stepKey
        | none =>
            match e.row.steps.find? fun step => decide (step.status = .pending) with
            | some step => step.stepKey
            | none => .scan
      some { e with
        row := { e.row.updateStep active .failed with
          status := .failed, errorMessage := some message }
        phase := if e.row.campaignId.isSome then .failed message else .done }
  | _ => none

/-- The campaign of a failed workflow is told. -/
def tellFailed (w : String) (db : Database) (e : Entry) : Option (Database × Entry) :=
  match e.phase, e.row.campaignId with
  | .failed message, some campaignId =>
      some (setCampaignVerification campaignId w .failed (some message) db, { e with phase := .done })
  | _, _ => none

/-- `_finish_cancelled`: the open steps and the run are cancelled. -/
def storeCancelled (e : Entry) : Option Entry :=
  match e.phase with
  | .cancelling =>
      some { e with
        row := { e.row with
          steps := e.row.steps.map fun step =>
            if step.status = .pending ∨ step.status = .running then
              { step with status := .cancelled }
            else step
          status := .cancelled }
        phase := if e.row.campaignId.isSome then .cancelled else .done }
  | _ => none

/-- The campaign of a cancelled workflow is told. -/
def tellCancelled (w : String) (db : Database) (e : Entry) : Option (Database × Entry) :=
  match e.phase, e.row.campaignId with
  | .cancelled, some campaignId =>
      some (setCampaignVerification campaignId w .failed (some "Проверка отменена.") db,
        { e with phase := .done })
  | _, _ => none

/-- `request_cancel` of an active workflow. -/
def requestCancel (e : Entry) : Option Entry :=
  if e.row.status.isActive then
    some { e with row := { e.row with cancelRequested := true, status := .cancelling } }
  else none

/-! ## The system -/

/-- One step of the thread of the workflow `w`; `none` when it cannot take it. -/
def advance (w : String) (action : Action) (db : Database) (e : Entry) :
    Option (Database × Entry) :=
  let own (next : Option Entry) : Option (Database × Entry) := next.map fun e' => (db, e')
  match action with
  | .link => own (link e)
  | .completeEmpty => own (completeEmpty e)
  | .announce => announce w db e
  | .schedule => own (schedule e)
  | .track operationId => own (track operationId e)
  | .resumeReconciliation => own (resumeReconciliation e)
  | .begin sawCancel => own (begin sawCancel e)
  | .launch => launch w db e
  | .started operationIds errors => own (started operationIds errors e)
  | .observeCancel => own (observeCancel e)
  | .childrenDone operations => own (childrenDone operations e)
  | .reconciled repository catalog configuredWorkers pick =>
      own (reconciled
        (fun operations =>
          { row := e.row
            operations := operations
            catalog := catalog
            configuredWorkers := configuredWorkers
            pick := pick }) repository e)
  | .finalize => finalize w db e
  | .finish => own (finish e)
  | .raise message => own (raise message e)
  | .die => own (die e)
  | .storeFailed => own (storeFailed e)
  | .tellFailed => tellFailed w db e
  | .storeCancelled => own (storeCancelled e)
  | .tellCancelled => tellCancelled w db e
  | .requestCancel => own (requestCancel e)

/-- What happens to the system. -/
inductive Event where
  /-- A scan of a task is requested, or a running one is tracked. -/
  | scan (w : String) (taskId : String) (reconcile : Option Json)
  /-- The verification of a campaign is requested, with the targets that it had. -/
  | verification (w : String) (campaignId : String) (targets : List String)
      (reconcile : Option Json)
  /-- A scan or a verification of an asset group is requested. -/
  | assetGroup (w : String) (assetGroupId : String) (assetIds : List String)
      (reconcile : Bool)
  /-- A finished workflow is retried. -/
  | retry (w : String) (sourceId : String)
  /-- The thread of a workflow takes a step. -/
  | act (w : String) (action : Action)
  /-- Another writer changes the remediation tables. -/
  | remediation (op : Operation)

/-- The operations that only the workflows perform. -/
def isVerification : Operation → Bool
  | .verification .. | .finalize .. => true
  | _ => false

/-- The state with one workflow entry and the tables replaced. -/
def State.put (s : State) (w : String) (db : Database) (e : Entry) : State where
  db := db
  workflows := fun w' => if w' = w then some e else s.workflows w'

/-- `create`: a workflow under a fresh id. -/
def State.create (s : State) (w : String) (kind : Kind) (request : WorkflowRequest)
    (source : Option WorkflowRow) : State :=
  match s.workflows w with
  | some _ => s
  | none =>
      s.put w s.db
        { row := newWorkflow w kind request (source.map WorkflowRow.workflowId)
          source := source }

/-- One step of the system; what cannot happen changes nothing. -/
def step (cfg : Settings) (s : State) : Event → State
  | .scan w taskId reconcile =>
      s.create w .scan { taskId := some taskId, reconcile := reconcile } none
  | .verification w campaignId targets reconcile =>
      s.create w .verification
        { campaignId := some campaignId, assetIds := targets, reconcile := reconcile } none
  | .assetGroup w assetGroupId assetIds reconcile =>
      s.create w .verification
        { assetGroupId := some assetGroupId
          assetIds := fromKeys (assetIds.filter fun assetId => decide (assetId ≠ ""))
          reconcile := some (.bool reconcile) } none
  | .retry w sourceId =>
      match s.workflows sourceId with
      | none => s
      | some source =>
          if source.row.status.canRetry then
            s.create w source.row.kind source.row.request (some source.row)
          else s
  | .act w action =>
      match s.workflows w with
      | none => s
      | some e =>
          match advance w action s.db e with
          | some (db, e') => s.put w db e'
          | none => s
  | .remediation op =>
      if isVerification op then s
      else { s with db := Remediation.step cfg s.db op }

end Workflow
end MpvmApp
