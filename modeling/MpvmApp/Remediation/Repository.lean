import MpvmApp.Remediation.Reconcile

/-!
# The other writers of the case table

Each definition is one transaction on the remediation tables: the operator
update, the start of a finding, the expiry pass, the policy change, the two
verification updates of a campaign, the campaign itself, the asset contexts and
the replacement of passport ids.

Main definitions:

- `update`: the operator update guarded by the expected version.
- `startForFinding`: start the work on one finding.
- `expireRiskAcceptances`: reopen the cases whose exception has run out.
-/

namespace MpvmApp
namespace Remediation

open Sql Findings

/-- `UPDATE` of the rows that satisfy `p`. -/
def Database.updateWhere (db : Database) (p : CaseRow → Bool) (g : CaseRow → CaseRow)
    (hid : ∀ c, (g c).caseId = c.caseId := by intros; rfl)
    (hpair : ∀ c, ((g c).assetId, (g c).vulnerabilityKey) =
      (c.assetId, c.vulnerabilityKey) := by intros; rfl) :
    Database :=
  db.updateCases (fun c => if p c then g c else c)
    (fun c => by split <;> first | exact hid c | rfl)
    (fun c => by split <;> first | exact hpair c | rfl)

/-! ## Operator update -/

/-- The fields of a case that a request carries: absent, null or a value. -/
structure CaseChanges where
  status : Option (Option CaseStatus) := none
  assignee : Option (Option String) := none
  dueAt : Option (Option Instant) := none
  riskReason : Option (Option String) := none
  riskExpiresAt : Option (Option Instant) := none
  exceptionReason : Option (Option String) := none
  exceptionExpiresAt : Option (Option Instant) := none
deriving DecidableEq

/-- No field is present, so that the update would have no assignment. -/
def CaseChanges.isEmpty (ch : CaseChanges) : Bool :=
  ch.status.isNone && ch.assignee.isNone && ch.dueAt.isNone && ch.riskReason.isNone &&
    ch.riskExpiresAt.isNone && ch.exceptionReason.isNone && ch.exceptionExpiresAt.isNone

/-- `changes_json` of an operator update: the fields that are present. -/
def CaseChanges.toJson (ch : CaseChanges) : List (String × ChangeValue) :=
  [ch.status.map fun v => ("status", .ofStatus v),
    ch.assignee.map fun v => ("assignee", .ofText v),
    ch.dueAt.map fun v => ("due_at", .ofInstant v),
    ch.riskReason.map fun v => ("risk_reason", .ofText v),
    ch.riskExpiresAt.map fun v => ("risk_expires_at", .ofInstant v),
    ch.exceptionReason.map fun v => ("exception_reason", .ofText v),
    ch.exceptionExpiresAt.map fun v => ("exception_expires_at", .ofInstant v)].reduceOption

/-- The assignments of the update, with the status that it stores. -/
def CaseChanges.assign (ch : CaseChanges) (status : CaseStatus) (c : CaseRow) : CaseRow :=
  { c with
    status := status
    assignee := (ch.assignee.map orNone).getD c.assignee
    dueAt := ch.dueAt.getD c.dueAt
    manualDue := if ch.dueAt.isSome then true else c.manualDue
    riskReason := (ch.riskReason.map orNone).getD c.riskReason
    riskExpiresAt := ch.riskExpiresAt.getD c.riskExpiresAt
    exceptionReason := (ch.exceptionReason.map orNone).getD c.exceptionReason
    exceptionExpiresAt := ch.exceptionExpiresAt.getD c.exceptionExpiresAt
    version := c.version + 1 }

/-- The event of an operator action on a case. -/
def operatorEvent (caseId : String) (oldStatus newStatus : CaseStatus)
    (changes : List (String × ChangeValue)) (comment : Option String) (now : Instant) :
    CaseEvent :=
  { caseId := caseId
    eventType := .operatorUpdate
    oldStatus := some (.status oldStatus)
    newStatus := some newStatus
    changes := changes
    comment := comment
    createdAt := now }

/--
The operator update.  A request without fields and without a comment only reads
the case.  A null status violates the `NOT NULL` constraint of the column.
-/
def update (caseId : String) (changes : CaseChanges) (expectedVersion : Nat)
    (comment : Option String) (now : Instant) (db : Database) :
    Except Failure (Database × Option CaseRow) :=
  if changes.isEmpty && (orNone comment).isNone then
    .ok (db, db.case? caseId)
  else
    match db.case? caseId with
    | none => .ok (db, none)
    | some old =>
        if old.version ≠ expectedVersion then
          .error .versionConflict
        else if changes.isEmpty then
          let event := operatorEvent caseId old.status old.status changes.toJson comment now
          .ok (db.log [event], some old)
        else
          match changes.status.getD (some old.status) with
          | none => .error (.integrityError "status")
          | some status =>
              let updated := db.updateWhere (fun c => decide (c.caseId = caseId))
                (changes.assign status)
              let event := operatorEvent caseId old.status status changes.toJson comment now
              .ok (updated.log [event], some (changes.assign status old))

/-! ## Expiry of exceptions -/

/-- `COALESCE(exception_expires_at, risk_expires_at)`. -/
def CaseRow.expiry (c : CaseRow) : Option Instant :=
  coalesce c.exceptionExpiresAt c.riskExpiresAt

/-- The expiry pass takes the case: its exception has run out. -/
def CaseRow.expired (now : Instant) (c : CaseRow) : Bool :=
  c.status.isException && c.expiry.any fun t => decide (t ≤ now)

/-- What the expiry pass writes to a case. -/
def expireCase (policy : SlaPolicy) (now : Instant) (c : CaseRow) : CaseRow :=
  { c with
    status := .opened
    riskReason := none
    riskExpiresAt := none
    exceptionReason := none
    exceptionExpiresAt := none
    reopenedAt := some now
    resolvedAt := none
    dueAt := policy.due now c.severity
    manualDue := false
    version := c.version + 1 }

/-- The event of an expired exception: its old status is the word `exception`. -/
def expiredEvent (caseId : String) (now : Instant) : CaseEvent :=
  { caseId := caseId
    eventType := .exceptionExpired
    oldStatus := some .exception
    newStatus := some .opened
    changes := []
    comment := none
    createdAt := now }

/-- Reopen the cases whose exception has run out. -/
def expireRiskAcceptances (now : Instant) (db : Database) : Database :=
  match db.policy with
  | none => db
  | some policy =>
      let expired := db.cases.rows.filter (CaseRow.expired now)
      (db.updateWhere (CaseRow.expired now) (expireCase policy now)).log
        (expired.map fun c => expiredEvent c.caseId now)

/-! ## Start of a finding -/

/-- The request to start the work on a finding. -/
structure StartRequest where
  assetId : String
  vulnerabilityKey : String
  assignee : Option String
  dueAt : Option Instant
  comment : Option String
  resumeException : Bool
deriving DecidableEq

/-- `changes_json` of the two events that a start writes about the finding. -/
def findingChanges (finding : CurrentFinding) : List (String × ChangeValue) :=
  [("source", .text "vulnerabilities"), ("severity", .severity finding.severity),
    ("cve", .ofText finding.cve), ("title", .ofText finding.title)]

/-- The deadline that a start gives by the policy. -/
def policyDue (policy : Option SlaPolicy) (now : Instant) (severity : Severity) :
    Option Instant :=
  policy.bind fun p => p.due (dropMicroseconds now) severity

/-- What a start writes to the case. -/
def startCase (policy : Option SlaPolicy) (request : StartRequest) (finding : CurrentFinding)
    (now : Instant) (c : CaseRow) : CaseRow :=
  let reopened := c.status = .resolved
  { c with
    title := finding.title
    cve := finding.cve
    severity := finding.severity
    cvssScore := finding.cvssScore
    passportInternalId := finding.passportInternalId
    lastSeenAt := now
    status := .inProgress
    resolvedAt := none
    riskReason := none
    riskExpiresAt := none
    exceptionReason := none
    exceptionExpiresAt := none
    version := c.version + 1
    reopenedAt := if reopened then some now else c.reopenedAt
    assignee := if request.assignee.isSome then orNone request.assignee else c.assignee
    dueAt :=
      if reopened ∧ request.dueAt = none then policyDue policy now finding.severity
      else if request.dueAt.isSome then request.dueAt
      else c.dueAt
    manualDue :=
      if reopened ∧ request.dueAt = none then false
      else if request.dueAt.isSome then true
      else c.manualDue }

/-- The events of a start: the return of a resolved finding, then the update. -/
def startEvents (request : StartRequest) (finding : CurrentFinding) (now : Instant)
    (c : CaseRow) : List CaseEvent :=
  let changes : List (String × ChangeValue) :=
    [("status", .status .inProgress), ("assignee", .ofText request.assignee),
      ("due_at", .ofInstant request.dueAt)]
  (if c.status = .resolved then
    [reappearedEvent c.caseId .inProgress (findingChanges finding) now] else []) ++
  [operatorEvent c.caseId c.status .inProgress changes request.comment now]

/-- The case of an asset under a vulnerability key. -/
def Database.caseOf? (db : Database) (assetId key : String) : Option CaseRow :=
  db.cases.rows.find? fun c => decide (c.assetId = assetId ∧ c.vulnerabilityKey = key)

/-- Start the work on a case that exists. -/
def startExisting (request : StartRequest) (finding : CurrentFinding) (now : Instant)
    (db : Database) (current : CaseRow) : Except Failure (Database × CaseRow) :=
  if current.status.isException && !request.resumeException then
    .error (.valueError
      "Explicit confirmation is required to resume a case with an active exception.")
  else if current.status = .inProgress ∧ request.assignee = none ∧ request.dueAt = none then
    .ok (db, current)
  else
    let started := db.updateWhere (fun c => decide (c.caseId = current.caseId))
      (startCase db.policy request finding now)
    .ok (started.log (startEvents request finding now current),
      startCase db.policy request finding now current)

/-- Start the work on one finding, with a new case when it has none. -/
def startForFinding (loc : Sql.Locale) (md5 : String → String) (request : StartRequest)
    (now : Instant) (db : Database) : Except Failure (Database × CaseRow) :=
  let found := (currentFindings loc db request.assetId).find? fun f =>
    decide (f.vulnerabilityKey = some request.vulnerabilityKey)
  match found with
  | none => .error (.lookupError "FINDING_NOT_FOUND")
  | some finding =>
      match db.caseOf? request.assetId request.vulnerabilityKey with
      | some current => startExisting request finding now db current
      | none =>
          let due := policyDue db.policy now finding.severity
          let row := newCase md5 request.assetId request.vulnerabilityKey finding due now
          match db.cases.insert? row with
          | none => .error (.lookupError "FINDING_NOT_FOUND")
          | some cases =>
              let event := createdEvent row.caseId (findingChanges finding) now
              startExisting request finding now ({ db with cases := cases }.log [event]) row

/-! ## Deadline policy -/

/-- The request to change the policy: absent values keep the stored ones. -/
structure PolicyValues where
  criticalDays : Option Nat := none
  highDays : Option Nat := none
  mediumDays : Option Nat := none
  lowDays : Option Nat := none
  nearDueDays : Option Nat := none
deriving DecidableEq

/-- The policy after a request. -/
def PolicyValues.merge (values : PolicyValues) (p : SlaPolicy) : SlaPolicy :=
  { criticalDays := values.criticalDays.getD p.criticalDays
    highDays := values.highDays.getD p.highDays
    mediumDays := values.mediumDays.getD p.mediumDays
    lowDays := values.lowDays.getD p.lowDays
    nearDueDays := values.nearDueDays.getD p.nearDueDays }

/-- The recalculation takes the case: it is active and its deadline is not manual. -/
def CaseRow.recalculable (c : CaseRow) : Bool :=
  c.status.isActive && !c.manualDue

/-- What the recalculation writes to a case. -/
def recalculateCase (policy : SlaPolicy) (c : CaseRow) : CaseRow :=
  { c with dueAt := policy.due c.firstSeenAt c.severity, version := c.version + 1 }

/-- The event of a recalculated deadline. -/
def recalculatedEvent (c : CaseRow) (now : Instant) : CaseEvent :=
  { caseId := c.caseId
    eventType := .policyRecalculated
    oldStatus := some (.status c.status)
    newStatus := some c.status
    changes := [("due_at", .text "recalculated")]
    comment := none
    createdAt := now }

/-- Change the policy and, on request, the deadlines of the active cases. -/
def updatePolicy (values : PolicyValues) (applyToOpen : Bool) (now : Instant) (db : Database) :
    Except Failure Database :=
  match db.policy with
  | none => .error (.integrityError "remediation_sla_policy")
  | some current =>
      let merged := values.merge current
      let stored : Database := { db with policy := some merged }
      if applyToOpen then
        let taken := db.cases.rows.filter CaseRow.recalculable
        .ok ((stored.updateWhere CaseRow.recalculable (recalculateCase merged)).log
          (taken.map fun c => recalculatedEvent c now))
      else
        .ok stored

/-! ## Campaigns and their verification -/

/-- The case belongs to the campaign. -/
def Database.inCampaign (db : Database) (campaignId caseId : String) : Bool :=
  decide ((campaignId, caseId) ∈ db.campaignCases)

/-- The verification update takes the case: it is an active case of the campaign. -/
def Database.verifiable (db : Database) (campaignId : String) (c : CaseRow) : Bool :=
  db.inCampaign campaignId c.caseId && c.status.isActive

/-- What the verification update writes to a case. -/
def markVerification (workflowId : String) (status : VerificationStatus)
    (message : Option String) (c : CaseRow) : CaseRow :=
  { c with
    verificationStatus := status
    verificationWorkflowId := some workflowId
    verificationMessage := message
    version := c.version + 1 }

/-- Give the active cases of a campaign a verification status. -/
def setCampaignVerification (campaignId workflowId : String) (status : VerificationStatus)
    (message : Option String) (db : Database) : Database :=
  db.updateWhere (db.verifiable campaignId) (markVerification workflowId status message)

/-- The final update takes the case: its verification belongs to the workflow. -/
def Database.finalizable (db : Database) (campaignId workflowId : String) (c : CaseRow) : Bool :=
  db.inCampaign campaignId c.caseId && decide (c.verificationWorkflowId = some workflowId)

/-- What the final update writes to a case. -/
def finalizeCase (failedAssets : List String) (c : CaseRow) : CaseRow :=
  { c with
    verificationStatus :=
      if c.assetId ∈ failedAssets then .failed
      else if c.status = .resolved then .passed
      else .failed
    verificationMessage :=
      some (if c.assetId ∈ failedAssets then "Сканирование актива завершилось с ошибкой."
        else if c.status = .resolved then
          "Отсутствие находки подтверждено свежей полной карточкой."
        else "Находка сохранилась или результат проверки неполон.")
    version := c.version + 1 }

/-- Write the outcome of a verification to the cases of a campaign. -/
def finalizeCampaignVerification (campaignId workflowId : String) (failedAssets : List String)
    (db : Database) : Database :=
  db.updateWhere (db.finalizable campaignId workflowId) (finalizeCase failedAssets)

/-- The request to create a campaign. -/
structure CampaignValues where
  caseIds : List String
  assignee : Option String
  dueAt : Option Instant
deriving DecidableEq

/-- What a new campaign writes to its cases. -/
def assignCampaign (values : CampaignValues) (c : CaseRow) : CaseRow :=
  { c with
    assignee := coalesce values.assignee c.assignee
    dueAt := coalesce values.dueAt c.dueAt
    manualDue := if values.dueAt.isNone then c.manualDue else true
    version := c.version + 1 }

/-- Create a campaign under a fresh id; an unknown case id violates the foreign key. -/
def createCampaign (campaignId : String) (values : CampaignValues) (db : Database) :
    Except Failure Database :=
  if db.campaignCases.any (fun m => decide (m.1 = campaignId)) then
    .error (.integrityError "remediation_campaigns_pkey")
  else if values.caseIds.all (fun k => (db.case? k).isSome) then
    let joined : Database :=
      { db with campaignCases :=
          db.campaignCases ++ (fromKeys values.caseIds).map fun k => (campaignId, k) }
    if (orNone values.assignee).isSome || values.dueAt.isSome then
      .ok (joined.updateWhere (fun c => joined.inCampaign campaignId c.caseId)
        (assignCampaign values))
    else
      .ok joined
  else
    .error (.integrityError "remediation_campaign_cases_case_id_fkey")

/-! ## Asset contexts -/

/-- The fields of an asset context that one imported line carries. -/
structure ContextValues where
  criticality : Option String := none
  environment : Option String := none
  exposure : Option String := none
  owner : Option (Option String) := none
  tags : Option (List String) := none
deriving DecidableEq

/-- The first field whose value is not one that it accepts. -/
def ContextValues.unsupported? (values : ContextValues) : Option String :=
  [("criticality", values.criticality, ["critical", "high", "medium", "low"]),
    ("environment", values.environment, ["production", "test", "development"]),
    ("exposure", values.exposure, ["external", "internal", "isolated"])].findSome?
    fun (key, value, allowed) => if value.all (fun v => decide (v ∈ allowed)) then none else some key

/-- The normal form of the free fields: stripped owner, sorted distinct tags. -/
def ContextValues.normalize (values : ContextValues) : ContextValues :=
  { values with
    owner := values.owner.map fun v =>
      orNone (some (String.ofList ((strip (v.getD "")).toList.take 200)))
    tags := values.tags.map fun ts =>
      ((((ts.map strip).filter fun t => decide (t ≠ "")).dedup).insertionSort (· ≤ ·)).take 50 }

/-- No context field is supplied. -/
def ContextValues.isEmpty (values : ContextValues) : Bool :=
  values.criticality.isNone && values.environment.isNone && values.exposure.isNone &&
    values.owner.isNone && values.tags.isNone

/-- The context row after a request. -/
def ContextValues.merge (values : ContextValues) (current : AssetContext) : AssetContext :=
  { current with
    criticality := values.criticality.getD current.criticality
    environment := values.environment.getD current.environment
    exposure := values.exposure.getD current.exposure
    owner := values.owner.getD current.owner
    tags := values.tags.getD current.tags }

/-- One imported line: set the context of one asset that has a card. -/
def setContext (assetId : String) (values : ContextValues) (expectedVersion : Nat)
    (db : Database) : Except Failure Database :=
  match values.unsupported? with
  | some key => .error (.valueError ("Unsupported " ++ key ++ "."))
  | none =>
  let values := values.normalize
  if values.isEmpty then
    .error (.valueError "No context fields supplied.")
  else if !db.cards.any (fun card => decide (card.assetId = assetId)) then
    .ok db
  else
    match db.contexts.find? fun x => decide (x.assetId = assetId) with
    | none =>
        if expectedVersion ≠ 0 then .error .versionConflict
        else .ok { db with contexts := db.contexts ++ [values.merge { assetId := assetId }] }
    | some current =>
        if expectedVersion ≠ current.version then .error .versionConflict
        else
          .ok { db with contexts := db.contexts.map fun x =>
                  if x.assetId = assetId then
                    { values.merge x with version := x.version + 1 }
                  else x }

/-! ## Replacement of passport ids -/

/-- The successor of a passport id. -/
def successorId (plan : List (String × String)) (passport : String) : String :=
  match plan.find? fun p => decide (p.1 = passport) with
  | some p => p.2
  | none => passport

/--
A reference to a passport after the replacement: it moves to the successor, and
a reference to a deleted passport becomes null.
-/
def replaceReference (plan : List (String × String)) (passport : Option String) : Option String :=
  (passport.map (successorId plan)).filter fun p => !plan.any fun q => decide (q.1 = p)

/-- What the replacement writes to a case: the version stays as it is. -/
def replacePassport (plan : List (String × String)) (c : CaseRow) : CaseRow :=
  { c with passportInternalId := replaceReference plan c.passportInternalId }

/--
The part of `upsert_vulnerability_passports` that rewrites references: the old ids
of the plan are the primary key of its temporary table.
-/
def replacePassports (plan : List (String × String)) (db : Database) :
    Except Failure Database :=
  if (plan.map Prod.fst).Nodup then
    let links := db.links.filter fun l =>
      !plan.any fun p => decide (p.1 = l.passportInternalId) &&
        db.links.any fun n => decide (n.passportInternalId = p.2 ∧
          n.assetVulnerabilityId = l.assetVulnerabilityId)
    let moved : Database :=
      { db with links := links.filterMap fun l =>
          (replaceReference plan (some l.passportInternalId)).map fun p =>
            { l with passportInternalId := p } }
    .ok (moved.updateWhere (fun _ => true) (replacePassport plan))
  else
    .error (.integrityError "passport_id_replacements_pkey")

end Remediation
end MpvmApp
