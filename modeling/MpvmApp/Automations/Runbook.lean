import Mathlib.Algebra.GroupWithZero.Nat
import Mathlib.Data.Rat.Defs
import Mathlib.Algebra.Order.Ring.Unbundled.Rat

/-!
# Runbooks

A runbook is a list of steps.  A step has a condition on the outputs of the steps that
have completed, a number of retries and a policy for its failure.  The values in an
output and in a condition are the documents that the standard library decodes; they
are compared as the language compares them.

Main definitions:

- `conditionMatches`: the decision whether a step is carried out.
- `Definition`: a definition that `validate_definition` has accepted.
- `Run`: the stored row of a run with the rows of its steps.
-/

namespace MpvmApp
namespace Automations

/-! ## Values -/

/-- A decoded document; a number is compared by its value. -/
inductive Value where
  | none
  | bool (b : Bool)
  | number (q : Rat)
  | text (s : String)
  | list (items : List Value)
  | dict (members : List (String × Value))

/-- The output of a step. -/
abbrev Output := List (String × Value)

namespace Value

/-- The value of a number; the truth values are the numbers zero and one. -/
def number? : Value → Option Rat
  | .bool b => some (if b then 1 else 0)
  | .number q => some q
  | _ => Option.none

/-- `bool(value)`. -/
def truthy : Value → Bool
  | .none => false
  | .bool b => b
  | .number q => decide (q ≠ 0)
  | .text s => decide (s ≠ "")
  | .list items => !items.isEmpty
  | .dict members => !members.isEmpty

mutual

/-- `value == other`. -/
def same : Value → Value → Bool
  | .none, .none => true
  | .text s, .text t => decide (s = t)
  | .list items, .list others => sameItems items others
  | .dict members, .dict others =>
      decide (members.length = others.length) && sameMembers members others
  | value, other =>
      match value.number?, other.number? with
      | some q, some r => decide (q = r)
      | _, _ => false

/-- The elements of two lists are equal. -/
def sameItems : List Value → List Value → Bool
  | [], [] => true
  | item :: items, other :: others => same item other && sameItems items others
  | _, _ => false

/-- Every member of a dictionary has an equal one under its key. -/
def sameMembers : List (String × Value) → List (String × Value) → Bool
  | [], _ => true
  | (key, value) :: members, others =>
      (match others.find? fun m => decide (m.1 = key) with
        | some (_, other) => same value other
        | Option.none => false) && sameMembers members others

end

/-- The order of two values of one type. -/
def order {α : Type} [LT α] [DecidableLT α] [DecidableEq α] (a b : α) : Ordering :=
  if a < b then .lt else if a = b then .eq else .gt

mutual

/-- The order of two values; the comparison of other values is a `TypeError`. -/
def compare? : Value → Value → Option Ordering
  | .text s, .text t => some (order s t)
  | .list items, .list others => compareItems items others
  | value, other =>
      match value.number?, other.number? with
      | some q, some r => some (order q r)
      | _, _ => Option.none

/-- Lists are compared at their first different elements. -/
def compareItems : List Value → List Value → Option Ordering
  | [], [] => some .eq
  | [], _ :: _ => some .lt
  | _ :: _, [] => some .gt
  | item :: items, other :: others =>
      if same item other then compareItems items others else compare? item other

end

/-- The value under a path of keys. -/
def descend : Value → List String → Value
  | value, [] => value
  | .dict members, part :: parts =>
      ((members.find? fun m => decide (m.1 = part)).map Prod.snd).getD .none |>.descend parts
  | _, _ :: parts => Value.none.descend parts

end Value

/-! ## Conditions -/

/-- The outputs of the completed steps by their ids, the latest first. -/
abbrev Context := List (String × Output)

/-- The output under the id of a step. -/
def Context.output (context : Context) (stepId : String) : Output :=
  ((context.find? fun entry => decide (entry.1 = stepId)).map Prod.snd).getD []

/-- A condition that is not empty. -/
structure Condition where
  stepId : Option String := none
  field : String := ""
  operator : String := ""
  value : Value := .none

/-- The keys of a dotted field, without the empty ones. -/
def fieldPath (field : String) : List String :=
  ((field.toList.splitOn '.').filter fun part => !part.isEmpty).map String.ofList

/-- The value that a condition compares. -/
def Condition.subject (condition : Condition) (context : Context) : Value :=
  (Value.dict ((condition.stepId.map context.output).getD [])).descend
    (fieldPath condition.field)

/-- `_condition_matches`. -/
def conditionMatches (condition : Option Condition) (context : Context) : Bool :=
  match condition with
  | none => true
  | some c =>
      let value := c.subject context
      match if c.operator = "" then "eq" else c.operator with
      | "truthy" => value.truthy
      | "eq" => value.same c.value
      | "ne" => !value.same c.value
      | "gt" => value.compare? c.value == some .gt
      | "gte" => (value.compare? c.value).any fun o => o != .lt
      | "lt" => value.compare? c.value == some .lt
      | "lte" => (value.compare? c.value).any fun o => o != .gt
      | _ => false

/-! ## Definitions -/

/-- `SUPPORTED_STEP_TYPES`. -/
inductive StepType where
  | scannerTaskStart
  | pdqlExport
  | passportSync
  | assetCardBuild
  | assetQuery
  | notification
deriving DecidableEq, Repr

/-- `on_error`. -/
inductive OnError where
  | stop
  | proceed
deriving DecidableEq, Repr

/-- One step of a definition, with its normalised configuration. -/
structure StepDefinition where
  stepId : String
  type : StepType
  config : Output := []
  condition : Option Condition := none
  onError : OnError := .stop
  maxRetries : Nat := 0

/-- A definition that `validate_definition` has accepted. -/
structure Definition where
  steps : List StepDefinition
  nonempty : steps ≠ []
  distinct : (steps.map StepDefinition.stepId).Nodup

/-! ## Stored runs -/

/-- The statuses of a run. -/
inductive RunStatus where
  | queued
  | running
  | cancelling
  | completed
  | completedWithWarnings
  | failed
  | cancelled
  | skipped
  | needsAttention
deriving DecidableEq, Repr

/-- `ACTIVE_RUN_STATUSES`. -/
def RunStatus.isActive : RunStatus → Bool
  | .queued | .running | .cancelling => true
  | _ => false

/-- The statuses of a step. -/
inductive StepStatus where
  | pending
  | running
  | completed
  | skipped
  | warning
  | failed
  | cancelled
deriving DecidableEq, Repr

/-- The stored row of a step. -/
structure StepRow where
  stepId : String
  status : StepStatus := .pending
  output : Output := []

/-- The stored row of a run, with the rows of its steps in their order. -/
structure Run where
  definition : Definition
  dryRun : Bool
  status : RunStatus := .queued
  cancelRequested : Bool := false
  steps : List StepRow

/-- `create_run` of a run that is to be executed. -/
def createRun (definition : Definition) (dryRun : Bool) : Run where
  definition := definition
  dryRun := dryRun
  steps := definition.steps.map fun step => { stepId := step.stepId }

namespace Run

/-- `set_run_status`. -/
def setStatus (run : Run) (status : RunStatus) : Run :=
  { run with status := status }

/-- `set_step_status`; an output that is not given stays. -/
def setStepStatus (run : Run) (index : Nat) (status : StepStatus)
    (output : Option Output := none) : Run :=
  { run with
    steps := run.steps.modify index fun row =>
      { row with status := status, output := output.getD row.output } }

/-- `request_cancel`; nothing is returned for a run that is not active. -/
def requestCancel (run : Run) : Option Run :=
  if run.status.isActive then
    some
      { run with
        cancelRequested := true
        status := if run.status = .queued then .cancelled else .cancelling }
  else none

end Run

/-- The row of a step is stored as completed. -/
def StepRow.isCompleted (row : StepRow) : Bool :=
  decide (row.status = .completed)

/-- The outputs that a worker reads back from the rows of the completed steps. -/
def completedOutputs (rows : List StepRow) : Context :=
  ((rows.filter StepRow.isCompleted).map fun row => (row.stepId, row.output)).reverse

section Rows

variable (run : Run) (status : RunStatus) (index : Nat) (stepStatus : StepStatus)
  (output : Option Output)

@[simp]
theorem definition_setStatus :
    (run.setStatus status).definition = run.definition :=
  rfl

@[simp]
theorem dryRun_setStatus :
    (run.setStatus status).dryRun = run.dryRun :=
  rfl

@[simp]
theorem status_setStatus :
    (run.setStatus status).status = status :=
  rfl

@[simp]
theorem cancelRequested_setStatus :
    (run.setStatus status).cancelRequested = run.cancelRequested :=
  rfl

@[simp]
theorem steps_setStatus :
    (run.setStatus status).steps = run.steps :=
  rfl

@[simp]
theorem definition_setStepStatus :
    (run.setStepStatus index stepStatus output).definition = run.definition :=
  rfl

@[simp]
theorem dryRun_setStepStatus :
    (run.setStepStatus index stepStatus output).dryRun = run.dryRun :=
  rfl

@[simp]
theorem status_setStepStatus :
    (run.setStepStatus index stepStatus output).status = run.status :=
  rfl

@[simp]
theorem cancelRequested_setStepStatus :
    (run.setStepStatus index stepStatus output).cancelRequested = run.cancelRequested :=
  rfl

@[simp]
theorem length_setStepStatus :
    (run.setStepStatus index stepStatus output).steps.length = run.steps.length := by
  simp [Run.setStepStatus]

end Rows

end Automations
end MpvmApp
