import MpvmApp.Findings.Schema
import MpvmApp.Lib.Table

/-!
# Remediation cases and their database

The rows of `remediation_cases` and `remediation_case_events` with the
columns that some writer or reader uses, and the database state that the
remediation operations share.  Instants are microseconds since the epoch.

Main results:

- Definition `Database.case?`: the case under a case id.
- Definition `Database.history`: the events of one case in write order.
-/

namespace MpvmApp
namespace Remediation

open Sql Findings

/-- Microseconds since the epoch. -/
abbrev Instant := Int

/-- Microseconds in one second. -/
def second : Int :=
  1000000

/-- Microseconds in one day. -/
def day : Int :=
  86400 * second

/-- `datetime.replace(microsecond=0)`. -/
def dropMicroseconds (t : Instant) : Instant :=
  t - t % second

/-- The statuses that the check constraint of `remediation_cases` admits. -/
inductive CaseStatus where
  | opened
  | inProgress
  | riskAccepted
  | falsePositive
  | resolved
deriving DecidableEq, Repr

/-- The statuses that suspend the work on a case. -/
def CaseStatus.isException : CaseStatus → Bool
  | .riskAccepted | .falsePositive => true
  | _ => false

/-- The statuses that count as work to do. -/
def CaseStatus.isActive : CaseStatus → Bool
  | .opened | .inProgress => true
  | _ => false

/-- The outcome of the verification scan of a case. -/
inductive VerificationStatus where
  | none
  | queued
  | running
  | passed
  | failed
deriving DecidableEq, Repr

/-- A verification whose workflow has not reported yet. -/
def VerificationStatus.isPending : VerificationStatus → Bool
  | .queued | .running => true
  | _ => false

/-- A row of `remediation_cases`. -/
structure CaseRow where
  caseId : String
  assetId : String
  vulnerabilityKey : String
  title : Option String
  cve : Option String
  severity : Severity
  cvssScore : Option Rat
  passportInternalId : Option String
  status : CaseStatus := .opened
  assignee : Option String := none
  dueAt : Option Instant
  manualDue : Bool := false
  riskReason : Option String := none
  riskExpiresAt : Option Instant := none
  firstSeenAt : Instant
  lastSeenAt : Instant
  resolvedAt : Option Instant := none
  reopenedAt : Option Instant := none
  version : Nat := 1
  exceptionReason : Option String := none
  exceptionExpiresAt : Option Instant := none
  verificationStatus : VerificationStatus := .none
  verificationWorkflowId : Option String := none
  verificationMessage : Option String := none
deriving DecidableEq

/-- What the event log stores as a status: a case status or the word `exception`. -/
inductive EventStatus where
  | status (s : CaseStatus)
  | exception
deriving DecidableEq, Repr

/-- The event types of `remediation_case_events`. -/
inductive EventType where
  | findingCreated
  | findingReappeared
  | findingAbsent
  | operatorUpdate
  | exceptionExpired
  | policyRecalculated
deriving DecidableEq, Repr

/-- A value inside `changes_json`. -/
inductive ChangeValue where
  | null
  | text (s : String)
  | instant (t : Instant)
  | status (s : CaseStatus)
  | severity (s : Severity)
deriving DecidableEq

/-- A nullable text inside `changes_json`. -/
def ChangeValue.ofText : Option String → ChangeValue
  | some s => .text s
  | none => .null

/-- A nullable instant inside `changes_json`. -/
def ChangeValue.ofInstant : Option Instant → ChangeValue
  | some t => .instant t
  | none => .null

/-- A nullable status inside `changes_json`. -/
def ChangeValue.ofStatus : Option CaseStatus → ChangeValue
  | some s => .status s
  | none => .null

/-- A row of `remediation_case_events`; its position in the log is its event id. -/
structure CaseEvent where
  caseId : String
  eventType : EventType
  oldStatus : Option EventStatus
  newStatus : Option CaseStatus
  changes : List (String × ChangeValue)
  comment : Option String
  createdAt : Instant
deriving DecidableEq

/-- The row of `remediation_sla_policy`. -/
structure SlaPolicy where
  criticalDays : Nat
  highDays : Nat
  mediumDays : Nat
  lowDays : Nat
  nearDueDays : Nat
deriving DecidableEq

/-- The days a severity gets; an unknown severity has no deadline. -/
def SlaPolicy.days? (p : SlaPolicy) : Severity → Option Nat
  | .critical => some p.criticalDays
  | .high => some p.highDays
  | .medium => some p.mediumDays
  | .low => some p.lowDays
  | .unknown => none

/-- The deadline of a severity, counted from an instant. -/
def SlaPolicy.due (p : SlaPolicy) (start : Instant) (severity : Severity) : Option Instant :=
  (p.days? severity).map fun days => start + days * day

/--
The row of `asset_cards` as the remediation reads it.  A `last_seen` text
that is not an ISO instant is `none`.
-/
structure AssetCard where
  assetId : String
  lastSeen : Option Instant
deriving DecidableEq

/-- A row of `asset_contexts`. -/
structure AssetContext where
  assetId : String
  criticality : String := "medium"
  environment : String := "production"
  exposure : String := "internal"
  owner : Option String := none
  tags : List String := []
  version : Nat := 1
deriving DecidableEq

/-- The case table: case ids are unique, and so is the pair of asset and key. -/
abbrev CaseTable :=
  Table CaseRow CaseRow.caseId fun c => (c.assetId, c.vulnerabilityKey)

/-- The tables that the remediation operations read and write. -/
structure Database where
  policy : Option SlaPolicy
  cards : List AssetCard
  groups : List GroupRow
  findings : List FindingRow
  links : List PassportLink
  cases : CaseTable
  events : List CaseEvent
  campaignCases : List (String × String)
  contexts : List AssetContext

namespace Database

/-- The case under a case id. -/
def case? (db : Database) (caseId : String) : Option CaseRow :=
  db.cases.find? caseId

/-- The events of one case in write order. -/
def history (db : Database) (caseId : String) : List CaseEvent :=
  db.events.filter fun e => decide (e.caseId = caseId)

end Database

end Remediation
end MpvmApp
