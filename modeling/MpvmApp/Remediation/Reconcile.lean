import Mathlib.Data.List.Sort
import MpvmApp.Remediation.Case

/-!
# Reconciliation of the cases of an asset

A transaction that raises is an `Except.error` and leaves no new database, as its
writes are rolled back.  The instant `now` stands for the transaction's
`NOW()` and for the clock reading of the service.

Main definitions:

- `currentFindings`: the current findings of an asset, one for each key.
- `reconcileAsset`: create, refresh, reopen and resolve the cases of an asset.
-/

namespace MpvmApp
namespace Remediation

open Sql Findings

/-- The exceptions that the transactions raise. -/
inductive Failure where
  | valueError (message : String)
  | lookupError (message : String)
  | versionConflict
  | integrityError (constraint : String)
deriving DecidableEq, Repr

/-- Append rows to the event log. -/
def Database.log (db : Database) (es : List CaseEvent) : Database :=
  { db with events := db.events ++ es }

/-- `UPDATE` of the case table by a function that keeps the identity of a case. -/
def Database.updateCases (db : Database) (g : CaseRow → CaseRow)
    (hid : ∀ c, (g c).caseId = c.caseId)
    (hpair : ∀ c, ((g c).assetId, (g c).vulnerabilityKey) = (c.assetId, c.vulnerabilityKey)) :
    Database :=
  { db with cases := db.cases.mapRows g hid hpair }

/-! ## Current findings of an asset -/

/-- A row of the query that lists the current findings of an asset. -/
structure CurrentFinding where
  vulnerabilityKey : Option String
  title : Option String
  cve : Option String
  severity : Severity
  cvssScore : Option Rat
  passportInternalId : Option String
deriving DecidableEq

/-- Ascending order with nulls last. -/
def nullsLast {α : Type} (le : α → α → Bool) : Option α → Option α → Bool
  | some a, some b => le a b
  | none, some _ => false
  | _, none => true

/-- The `ORDER BY` of the query: key, then score descending, then passport. -/
def CurrentFinding.before (loc : Sql.Locale) (a b : CurrentFinding) : Bool :=
  if a.vulnerabilityKey ≠ b.vulnerabilityKey then
    nullsLast loc.le a.vulnerabilityKey b.vulnerabilityKey
  else if a.cvssScore ≠ b.cvssScore then
    nullsLast (fun x y => decide (y ≤ x)) a.cvssScore b.cvssScore
  else
    nullsLast loc.le a.passportInternalId b.passportInternalId

/-- The first row of each key, in order. -/
def distinctOnKey : List (Option String) → List CurrentFinding → List CurrentFinding
  | _, [] => []
  | seen, row :: rows =>
      if row.vulnerabilityKey ∈ seen then distinctOnKey seen rows
      else row :: distinctOnKey (row.vulnerabilityKey :: seen) rows

/-- The joined rows of one finding: one for each passport link, or one without. -/
def joinFinding (loc : Sql.Locale) (db : Database) (finding : FindingRow) : List CurrentFinding :=
  if db.groups.any (fun g => decide (g.id = finding.groupId)) then
    let row (passport : Option String) : CurrentFinding :=
      { vulnerabilityKey := finding.selector
        title := finding.name
        cve := finding.cveName
        severity := severityOf loc finding.severity
        cvssScore := finding.cvssScore
        passportInternalId := passport }
    match db.links.filter (fun l => decide (l.assetVulnerabilityId = finding.id)) with
    | [] => [row none]
    | links => links.map fun l => row (some l.passportInternalId)
  else
    []

/-- The `SELECT DISTINCT ON` of the current findings of an asset. -/
def currentFindings (loc : Sql.Locale) (db : Database) (assetId : String) : List CurrentFinding :=
  let rows := (db.findings.filter fun f => decide (f.assetId = assetId)).flatMap (joinFinding loc db)
  distinctOnKey [] (rows.insertionSort fun a b => a.before loc b = true)

/-! ## Reconciliation of an asset -/

/-- A new case for a finding that has none. -/
def newCase (md5 : String → String) (assetId key : String) (finding : CurrentFinding)
    (dueAt : Option Instant) (now : Instant) : CaseRow :=
  { caseId := md5 (assetId ++ "\x1f" ++ key)
    assetId := assetId
    vulnerabilityKey := key
    title := finding.title
    cve := finding.cve
    severity := finding.severity
    cvssScore := finding.cvssScore
    passportInternalId := finding.passportInternalId
    dueAt := dueAt
    firstSeenAt := now
    lastSeenAt := now }

/-- The event of a new case. -/
def createdEvent (caseId : String) (changes : List (String × ChangeValue)) (now : Instant) :
    CaseEvent :=
  { caseId := caseId
    eventType := .findingCreated
    oldStatus := none
    newStatus := some .opened
    changes := changes
    comment := none
    createdAt := now }

/-- The cases of one asset in the case table. -/
def assetCases (db : Database) (assetId : String) : List CaseRow :=
  db.cases.rows.filter fun c => decide (c.assetId = assetId)

/-- The row that an asset already has for a finding. -/
def existingCase? (existing : List CaseRow) (finding : CurrentFinding) : Option CaseRow :=
  existing.find? fun c => decide (some c.vulnerabilityKey = finding.vulnerabilityKey)

/-- Insert the case of a finding that the asset has no case for. -/
def insertMissing (md5 : String → String) (policy : SlaPolicy) (assetId : String)
    (existing : List CaseRow) (now : Instant) (db : Database) (finding : CurrentFinding) :
    Except Failure Database :=
  match existingCase? existing finding with
  | some _ => .ok db
  | none =>
      match finding.vulnerabilityKey with
      | none => .error (.integrityError "vulnerability_key")
      | some key =>
          let due := policy.due (dropMicroseconds now) finding.severity
          let row := newCase md5 assetId key finding due now
          match db.cases.insert? row with
          | none => .error (.integrityError "remediation_cases_pkey")
          | some cases => .ok ({ db with cases := cases }.log [createdEvent row.caseId [] now])

/-- What the bulk update writes to the case of a finding that is still present. -/
def refreshCase (policy : SlaPolicy) (now : Instant) (finding : CurrentFinding) (c : CaseRow) :
    CaseRow :=
  { c with
    title := finding.title
    cve := finding.cve
    severity := finding.severity
    cvssScore := finding.cvssScore
    passportInternalId := finding.passportInternalId
    lastSeenAt := now
    status := if c.status = .resolved then .opened else c.status
    resolvedAt := if c.status = .resolved then none else c.resolvedAt
    reopenedAt := if c.status = .resolved then some now else c.reopenedAt
    dueAt := if c.status = .resolved then policy.due now finding.severity else c.dueAt
    version := c.version + 1 }

/-- The current finding of an existing case. -/
def findingOf? (found : List CurrentFinding) (c : CaseRow) : Option CurrentFinding :=
  found.find? fun f => decide (f.vulnerabilityKey = some c.vulnerabilityKey)

/-- The bulk update of the existing cases whose findings are present. -/
def refreshPresent (policy : SlaPolicy) (now : Instant) (existing : List CaseRow)
    (found : List CurrentFinding) (c : CaseRow) : CaseRow :=
  if c ∈ existing then
    match findingOf? found c with
    | some finding => refreshCase policy now finding c
    | none => c
  else
    c

/-- The event of a finding that is present again. -/
def reappearedEvent (caseId : String) (newStatus : CaseStatus)
    (changes : List (String × ChangeValue)) (now : Instant) : CaseEvent :=
  { caseId := caseId
    eventType := .findingReappeared
    oldStatus := some (.status .resolved)
    newStatus := some newStatus
    changes := changes
    comment := none
    createdAt := now }

/-- The case ids whose findings are present again, in the order of the findings. -/
def reopenedCases (existing : List CaseRow) (found : List CurrentFinding) : List CaseRow :=
  (found.filterMap (existingCase? existing)).filter fun c => decide (c.status = .resolved)

/-- The snapshot of an asset is complete: no group is cut short and the card is fresh. -/
def snapshotComplete (db : Database) (assetId : String) (staleDays : Int) (lastSeen now : Instant) :
    Bool :=
  !(db.groups.any fun g => decide (g.assetId = assetId) && g.truncated) &&
    decide ((now - lastSeen) / day < staleDays)

/-- The existing cases that a complete snapshot without their finding resolves. -/
def absentCases (existing : List CaseRow) (found : List CurrentFinding) : List CaseRow :=
  existing.filter fun c =>
    (findingOf? found c).isNone && decide (c.status ≠ .resolved ∧ c.status ≠ .falsePositive)

/-- What the resolve branch writes to a case. -/
def resolveCase (now : Instant) (c : CaseRow) : CaseRow :=
  { c with status := .resolved, resolvedAt := some now, version := c.version + 1 }

/-- The resolve branch over the cases of the asset. -/
def resolveAbsent (now : Instant) (absent : List CaseRow) (c : CaseRow) : CaseRow :=
  if c ∈ absent then resolveCase now c else c

/-- The event of a resolved case. -/
def absentEvent (c : CaseRow) (now : Instant) : CaseEvent :=
  { caseId := c.caseId
    eventType := .findingAbsent
    oldStatus := some (.status c.status)
    newStatus := some .resolved
    changes :=
      [("severity", .severity c.severity), ("cve", .ofText c.cve), ("title", .ofText c.title),
        ("asset_id", .text c.assetId)]
    comment := none
    createdAt := now }

theorem refreshPresent_caseId (policy : SlaPolicy) (now : Instant) (existing : List CaseRow)
    (found : List CurrentFinding) (c : CaseRow) :
    (refreshPresent policy now existing found c).caseId = c.caseId := by
  unfold refreshPresent
  split
  · split <;> rfl
  · rfl

theorem refreshPresent_pair (policy : SlaPolicy) (now : Instant) (existing : List CaseRow)
    (found : List CurrentFinding) (c : CaseRow) :
    ((refreshPresent policy now existing found c).assetId,
        (refreshPresent policy now existing found c).vulnerabilityKey) =
      (c.assetId, c.vulnerabilityKey) := by
  unfold refreshPresent
  split
  · split <;> rfl
  · rfl

theorem resolveAbsent_caseId (now : Instant) (absent : List CaseRow) (c : CaseRow) :
    (resolveAbsent now absent c).caseId = c.caseId := by
  unfold resolveAbsent
  split <;> rfl

theorem resolveAbsent_pair (now : Instant) (absent : List CaseRow) (c : CaseRow) :
    ((resolveAbsent now absent c).assetId, (resolveAbsent now absent c).vulnerabilityKey) =
      (c.assetId, c.vulnerabilityKey) := by
  unfold resolveAbsent
  split <;> rfl

/-- How many cases a reconciliation created, reopened and resolved. -/
structure ReconcileCounts where
  created : Nat := 0
  reopened : Nat := 0
  resolved : Nat := 0
deriving DecidableEq, Repr

/-- Write the present findings to the existing cases and reopen the resolved ones. -/
def refreshExisting (policy : SlaPolicy) (now : Instant) (existing : List CaseRow)
    (found : List CurrentFinding) (db : Database) : Database :=
  (db.updateCases (refreshPresent policy now existing found)
      (refreshPresent_caseId policy now existing found)
      (refreshPresent_pair policy now existing found)).log
    ((reopenedCases existing found).map fun c => reappearedEvent c.caseId .opened [] now)

/-- Resolve the given cases. -/
def resolveCases (now : Instant) (absent : List CaseRow) (db : Database) : Database :=
  (db.updateCases (resolveAbsent now absent) (resolveAbsent_caseId now absent)
      (resolveAbsent_pair now absent)).log
    (absent.map fun c => absentEvent c now)

/-- Reconcile the cases of one asset with its stored findings. -/
def reconcileAsset (loc : Sql.Locale) (md5 : String → String) (staleDays : Int) (assetId : String)
    (now : Instant) (db : Database) : Except Failure (Database × ReconcileCounts) :=
  match db.policy, db.cards.find? (fun card => decide (card.assetId = assetId)) with
  | some policy, some card => do
      let found := currentFindings loc db assetId
      let existing := assetCases db assetId
      let inserted ← found.foldlM (insertMissing md5 policy assetId existing now) db
      let refreshed := refreshExisting policy now existing found inserted
      match card.lastSeen with
      | none => .error (.valueError "Invalid isoformat string")
      | some lastSeen =>
          let absent :=
            if snapshotComplete refreshed assetId staleDays lastSeen now then
              absentCases existing found
            else []
          .ok (resolveCases now absent refreshed,
            { created := (found.filter fun f => (existingCase? existing f).isNone).length
              reopened := (reopenedCases existing found).length
              resolved := absent.length })
  | _, _ => .ok (db, {})

end Remediation
end MpvmApp
