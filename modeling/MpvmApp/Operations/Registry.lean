import Mathlib.Algebra.Order.Round
import Mathlib.Data.Rat.Floor
import MpvmApp.Lib.Replica
import MpvmApp.Remediation.Case

/-!
# The operation registry

The registry `operations` is a read model: it holds one normalised row for each row
of the source tables.  Its time stamps are texts with a resolution of one second,
which the model keeps as whole seconds since the epoch.

Main definitions:

- `mergeOperation`: what a registration keeps of the row that it overwrites.
- `registerOperation`: the registration of one operation.
-/

namespace MpvmApp
namespace Operations

open Remediation

/-- A time stamp text with a resolution of one second. -/
abbrev Stamp := Int

/-- `now_utc`: the current instant cut to whole seconds. -/
def nowUtc (now : Instant) : Stamp :=
  now / second

/-- The kinds of operations that have a source table. -/
inductive OperationKind where
  | assetCardBuild
  | passportDetailSync
  | scanPostprocess
  | pdqlExport
  | assetRemoval
deriving DecidableEq, Repr

/-- The source row of an operation: its kind and its source id. -/
abbrev OperationKey := OperationKind × String

/-- The documents that `error_json` holds for these kinds. -/
inductive OperationError where
  | empty
  | items (errors : List (List (String × String)))
  | message (text : String)
deriving DecidableEq, Repr

/-- What an error document reports: an empty list of items reports nothing. -/
def OperationError.reported : OperationError → OperationError
  | .items [] => .empty
  | error => error

/-- The columns of an operation besides its key and `updated_at`. -/
structure OperationValues where
  operationId : String
  status : String
  stage : String
  progressPercent : Int
  subjectType : Option String := none
  subjectId : Option String := none
  subjectLabel : Option String := none
  message : Option String := none
  error : OperationError := .empty
  request : Json := .obj []
  result : Json := .obj []
  traceId : Option String := none
  createdAt : Stamp
  startedAt : Option Stamp := none
  finishedAt : Option Stamp := none
  clearedAt : Option Stamp := none
  clearedBy : Option String := none

/-- A row of `operations`; its stamp is `updated_at`. -/
abbrev OperationRow := Copy OperationKey OperationValues

/-- The table `operations` with its unique key. -/
abbrev OperationTable := Replica OperationKey OperationValues

/-- `ACTIVE_OPERATION_STATUSES`. -/
def activeOperationStatuses : List String :=
  ["queued", "running", "cancelling", "recovering"]

/-- `CLEARABLE_OPERATION_STATUSES`. -/
def clearableOperationStatuses : List String :=
  ["completed", "completed_with_errors", "failed", "cancelled", "interrupted", "needs_attention"]

/-- The document is the empty object. -/
def isEmptyObject : Json → Bool
  | .obj [] => true
  | _ => false

/-- The `DO UPDATE` of a registration: an empty document keeps the stored one. -/
def mergeOperation (old new : OperationValues) : OperationValues where
  operationId := old.operationId
  status := new.status
  stage := new.stage
  progressPercent := max old.progressPercent new.progressPercent
  subjectType := Sql.coalesce new.subjectType old.subjectType
  subjectId := Sql.coalesce new.subjectId old.subjectId
  subjectLabel := Sql.coalesce new.subjectLabel old.subjectLabel
  message := Sql.coalesce new.message old.message
  error := if new.error = .empty then old.error else new.error
  request := if isEmptyObject new.request then old.request else new.request
  result := if isEmptyObject new.result then old.result else new.result
  traceId := Sql.coalesce new.traceId old.traceId
  createdAt := old.createdAt
  startedAt := Sql.coalesce new.startedAt old.startedAt
  finishedAt := Sql.coalesce new.finishedAt old.finishedAt
  clearedAt := if new.status ∈ activeOperationStatuses then none else old.clearedAt
  clearedBy := if new.status ∈ activeOperationStatuses then none else old.clearedBy

/-- `max(0, min(100, percent))`. -/
def clampPercent (percent : Int) : Int :=
  max 0 (min 100 percent)

/-- The arguments of `register_operation` as it stores them. -/
def operationRow (key : OperationKey) (values : OperationValues) (updatedAt : Stamp) :
    OperationRow where
  key := key
  value := { values with progressPercent := clampPercent values.progressPercent }
  stamp := updatedAt

/-- `register_operation`: insert the operation, or merge it into the stored row. -/
def registerOperation (operations : OperationTable) (operation : OperationRow) : OperationTable :=
  Replica.register mergeOperation operations operation

/-- `clear_history`: hide the finished rows. -/
def clearHistory (actor : Option String) (now : Instant) (operations : OperationTable) :
    OperationTable :=
  operations.mapRows
    (fun row =>
      if row.value.clearedAt = none ∧ row.value.status ∈ clearableOperationStatuses then
        { row with value := { row.value with
            clearedAt := some (nowUtc now), clearedBy := actor } }
      else row)
    (fun row => by split <;> rfl) (fun row => by split <;> rfl)

/-- Python's `round` of a quotient: halves go to the even neighbour. -/
def roundHalfEven (q : Rat) : Int :=
  let fraction := q - ⌊q⌋
  if fraction < 1 / 2 then ⌊q⌋
  else if 1 / 2 < fraction then ⌊q⌋ + 1
  else if ⌊q⌋ % 2 = 0 then ⌊q⌋
  else ⌊q⌋ + 1

/-! ## Agreement -/

/-- Two operations show the same status, stage and error. -/
def ShowsSame (a b : OperationValues) : Prop :=
  a.status = b.status ∧ a.stage = b.stage ∧ a.error.reported = b.error.reported

instance : DecidableRel ShowsSame := fun a b =>
  inferInstanceAs (Decidable (a.status = b.status ∧ a.stage = b.stage ∧
    a.error.reported = b.error.reported))

theorem showsSame_refl (a : OperationValues) :
    ShowsSame a a :=
  ⟨rfl, rfl, rfl⟩

theorem showsSame_merge_iff (old new : OperationValues) :
    ShowsSame (mergeOperation old new) new ↔
      (new.error = .empty → old.error.reported = .empty) := by
  unfold ShowsSame mergeOperation
  by_cases hempty : new.error = .empty
  · simp [hempty, OperationError.reported]
  · simp [hempty]

theorem showsSame_merge {old new : OperationValues} (h : ShowsSame old new) :
    ShowsSame (mergeOperation old new) new := by
  refine (showsSame_merge_iff old new).2 fun hempty => ?_
  rw [h.2.2, hempty]
  rfl

end Operations
end MpvmApp
