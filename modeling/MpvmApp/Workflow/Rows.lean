import MpvmApp.Remediation.Service

/-!
# Workflow rows

The rows of `vm_workflow_runs` and `vm_workflow_steps` with the columns that the
workflow service reads, and the decisions that it takes from a stored row.

Main definitions:

- `WorkflowRow.operationIds`: the child operations of a workflow.
- `WorkflowRow.resumable`: a retry of the workflow starts at the reconciliation.
-/

namespace MpvmApp
namespace Workflow

open Remediation

/-- The kinds of workflows. -/
inductive Kind where
  | scan
  | verification
deriving DecidableEq, Repr

/-- The statuses of a workflow run. -/
inductive RunStatus where
  | queued
  | running
  | cancelling
  | completed
  | completedWithErrors
  | failed
  | cancelled
deriving DecidableEq, Repr

/-- `ACTIVE`. -/
def RunStatus.isActive : RunStatus → Bool
  | .queued | .running | .cancelling => true
  | _ => false

/-- `TERMINAL`. -/
def RunStatus.isTerminal : RunStatus → Bool
  | .completed | .completedWithErrors | .failed | .cancelled => true
  | _ => false

/-- A status from which a workflow can be retried. -/
def RunStatus.canRetry : RunStatus → Bool
  | .failed | .completedWithErrors | .cancelled => true
  | _ => false

/-- The keys of the steps of a workflow. -/
inductive StepKey where
  | validation
  | targets
  | scan
  | postprocess
  | reconcile
deriving DecidableEq, Repr

/-- The statuses of a step. -/
inductive StepStatus where
  | pending
  | running
  | completed
  | failed
  | cancelled
  | skipped
deriving DecidableEq, Repr

/-- A row of `vm_workflow_steps`. -/
structure StepRow where
  stepKey : StepKey
  status : StepStatus := .pending
deriving DecidableEq

/-- `STEP_KEYS`: the steps of each kind, in order. -/
def stepKeys : Kind → List StepKey
  | .scan => [.validation, .scan, .postprocess, .reconcile]
  | .verification => [.targets, .scan, .postprocess, .reconcile]

/-- The request of a workflow; `reconcile` is the option of that name. -/
structure WorkflowRequest where
  campaignId : Option String := none
  assetGroupId : Option String := none
  taskId : Option String := none
  assetIds : List String := []
  reconcile : Option Json := none

/-- `options.get("reconcile", True) is not False`. -/
def WorkflowRequest.shouldReconcile (request : WorkflowRequest) : Bool :=
  match request.reconcile with
  | some (.bool false) => false
  | _ => true

/-- The assets of a request, without repetitions. -/
def WorkflowRequest.assets (request : WorkflowRequest) : List String :=
  fromKeys request.assetIds

/-- An error about one asset. -/
structure AssetError where
  assetId : String
  message : String
deriving DecidableEq

/-- The result document of a workflow. -/
structure WorkflowResult where
  operationIds : List String := []
  startErrors : List AssetError := []
  reconciliation : Option ReconcileCounts := none
  failedOperationIds : List String := []
  reconciliationErrors : List AssetError := []
  failedAssets : List String := []
  resumedFrom : Option String := none
deriving DecidableEq

/-- A row of `vm_workflow_runs` with its steps. -/
structure WorkflowRow where
  workflowId : String
  kind : Kind
  request : WorkflowRequest
  status : RunStatus := .queued
  campaignId : Option String := none
  operationId : Option String := none
  taskId : Option String := none
  result : WorkflowResult := {}
  errorMessage : Option String := none
  cancelRequested : Bool := false
  retryOf : Option String := none
  steps : List StepRow

/-- A row of a new workflow. -/
def newWorkflow (workflowId : String) (kind : Kind) (request : WorkflowRequest)
    (retryOf : Option String) : WorkflowRow where
  workflowId := workflowId
  kind := kind
  request := request
  retryOf := retryOf
  steps := (stepKeys kind).map fun key => { stepKey := key }

namespace WorkflowRow

/-- `update_step`: set the status of the step with a key. -/
def updateStep (row : WorkflowRow) (key : StepKey) (status : StepStatus) : WorkflowRow :=
  { row with steps := row.steps.map fun step =>
      if step.stepKey = key then { step with status := status } else step }

/-- `_operation_ids`. -/
def operationIds (row : WorkflowRow) : List String :=
  let stored := row.result.operationIds
  let values :=
    match row.operationId with
    | some id => if id ∈ stored then stored else id :: stored
    | none => stored
  (fromKeys values).filter fun id => decide (id ≠ "")

/-- The first failed step. -/
def failedStep? (row : WorkflowRow) : Option StepRow :=
  row.steps.find? fun step => decide (step.status = .failed)

/-- A retry reuses the child operations and repeats only the reconciliation. -/
def retriesReconciliation (row : WorkflowRow) : Bool :=
  (row.failedStep?.any fun step => decide (step.stepKey = .reconcile)) &&
    !row.operationIds.isEmpty

/-- The workflow can be retried, and the retry starts at the reconciliation. -/
def resumable (row : WorkflowRow) : Bool :=
  row.status.canRetry && row.retriesReconciliation

end WorkflowRow

/-- A child operation as the registry shows it. -/
structure ChildOperation where
  operationId : String
  status : String
  subjectId : Option String
deriving DecidableEq

/-- The operations that did not complete. -/
def failedOperations (operations : List ChildOperation) : List ChildOperation :=
  operations.filter fun operation => decide (operation.status ≠ "completed")

end Workflow
end MpvmApp
