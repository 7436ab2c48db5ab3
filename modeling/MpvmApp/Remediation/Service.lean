import MpvmApp.Lib.Runs
import MpvmApp.Remediation.Repository

/-!
# The remediation service and its runs

The service validates a request before it reaches the repository, and it absorbs
every exception of a reconciliation.  The operations of the system are the
requests of the operators and the transactions of the background work; a step
that raises leaves the database as it was.

Main results:

- Theorem `validate_eq_ok`: what the validation of an operator request accepts
  and which changes it passes on.
- Theorem `step_of_rejected`: a rejected operation leaves the database unchanged.
-/

namespace MpvmApp
namespace Remediation

open Sql Findings

/-! ## Operator requests -/

/-- The body of `PATCH /cases/(case_id)`: each field is absent, null or a value. -/
structure CaseUpdate where
  expectedVersion : Nat
  status : Option (Option CaseStatus) := none
  assignee : Option (Option String) := none
  dueAt : Option (Option Instant) := none
  riskReason : Option (Option String) := none
  riskExpiresAt : Option (Option Instant) := none
  exceptionReason : Option (Option String) := none
  exceptionExpiresAt : Option (Option Instant) := none
  comment : Option (Option String) := none
deriving DecidableEq

/-- A text field is at most `n` characters long. -/
def withinLength (n : Nat) (x : Option (Option String)) : Bool :=
  x.all fun v => v.all fun s => decide (s.toList.length ≤ n)

/-- The field constraints of the request model. -/
def CaseUpdate.wellFormed (p : CaseUpdate) : Bool :=
  decide (1 ≤ p.expectedVersion) && withinLength 200 p.assignee &&
    withinLength 4000 p.riskReason && withinLength 4000 p.exceptionReason &&
    withinLength 4000 p.comment

/-- `payload.get("exception_reason", payload.get("risk_reason"))`. -/
def CaseUpdate.reason (p : CaseUpdate) : Option String :=
  p.exceptionReason.getD (p.riskReason.getD none)

/-- `payload.get("exception_expires_at", payload.get("risk_expires_at"))`. -/
def CaseUpdate.expiration (p : CaseUpdate) : Option Instant :=
  p.exceptionExpiresAt.getD (p.riskExpiresAt.getD none)

/-- The fields of a request as they stand. -/
def CaseUpdate.changes (p : CaseUpdate) : CaseChanges :=
  { status := p.status
    assignee := p.assignee
    dueAt := p.dueAt
    riskReason := p.riskReason
    riskExpiresAt := p.riskExpiresAt
    exceptionReason := p.exceptionReason
    exceptionExpiresAt := p.exceptionExpiresAt }

/-- The changes of a request that grants an exception. -/
def CaseUpdate.exceptionChanges (p : CaseUpdate) (status : CaseStatus) : CaseChanges :=
  { p.changes with
    riskReason := some (if status = .riskAccepted then p.reason else none)
    riskExpiresAt := some (if status = .riskAccepted then p.expiration else none)
    exceptionReason := some p.reason
    exceptionExpiresAt := some p.expiration }

/-- The changes of a request that sets any other status. -/
def CaseUpdate.clearingChanges (p : CaseUpdate) : CaseChanges :=
  { p.changes with
    riskReason := some none
    riskExpiresAt := some none
    exceptionReason := some none
    exceptionExpiresAt := some none }

/-- The checks of the service on an operator request, and the changes it passes on. -/
def validate (p : CaseUpdate) (now : Instant) : Except Failure CaseChanges :=
  match p.status.getD none with
  | some .resolved =>
      .error (.valueError
        "Resolved status is assigned only after a complete refresh confirms absence.")
  | none => .ok p.changes
  | some status =>
      if status.isException then
        match p.expiration with
        | none =>
            .error (.valueError
              "Each risk acceptance or false-positive exception requires a reason and expiration date.")
        | some expires =>
            if isBlank p.reason then
              .error (.valueError
                "Each risk acceptance or false-positive exception requires a reason and expiration date.")
            else if expires ≤ now then
              .error (.valueError "Exception expiration must be in the future.")
            else
              .ok (p.exceptionChanges status)
      else
        .ok p.clearingChanges

/--
An accepted request sets no status and is passed on as it is, grants an
exception with a reason and a future expiry, or sets a working status and
clears the exception fields.
-/
theorem validate_eq_ok {p : CaseUpdate} {now : Instant} {ch : CaseChanges}
    (h : validate p now = .ok ch) :
    (p.status.getD none = none ∧ ch = p.changes) ∨
      (∃ status expires, p.status = some (some status) ∧ status.isException = true ∧
        isBlank p.reason = false ∧ p.expiration = some expires ∧ now < expires ∧
        ch = p.exceptionChanges status) ∨
      (∃ status, p.status = some (some status) ∧ status.isActive = true ∧
        ch = p.clearingChanges) := by
  have hsome : ∀ s, p.status.getD none = some s → p.status = some (some s) := by
    intro s hs
    cases hp : p.status <;> simp_all
  unfold validate at h
  split at h
  · cases h
  · rename_i hnone
    cases h
    exact Or.inl ⟨hnone, rfl⟩
  · rename_i status hresolved hstatus
    split at h
    · rename_i hexc
      split at h
      · cases h
      · rename_i expires hexpires
        split_ifs at h with hblank hpast
        cases h
        exact Or.inr (Or.inl ⟨status, expires, hsome _ hstatus, hexc, by simpa using hblank,
          hexpires, Int.not_le.1 hpast, rfl⟩)
    · rename_i hexc
      cases h
      refine Or.inr (Or.inr ⟨status, hsome _ hstatus, ?_, rfl⟩)
      cases status <;> simp_all [CaseStatus.isException, CaseStatus.isActive]

/--
The three kinds of update that an accepted request leads to, by the status that
the update stores over the status `old`.
-/
theorem validate_stores {p : CaseUpdate} {now : Instant} {ch : CaseChanges}
    {old status : CaseStatus} (hvalid : validate p now = .ok ch)
    (hstatus : ch.status.getD (some old) = some status) :
    (p.status = none ∧ status = old ∧ ch = p.changes) ∨
      (∃ expires, p.status = some (some status) ∧ status.isException = true ∧
        isBlank p.reason = false ∧ p.expiration = some expires ∧ now < expires ∧
        ch = p.exceptionChanges status) ∨
      (p.status = some (some status) ∧ status.isActive = true ∧ ch = p.clearingChanges) := by
  rcases validate_eq_ok hvalid with ⟨hnone, rfl⟩ |
    ⟨granted, expires, hgiven, hexc, hreason, hexpires, hfuture, rfl⟩ |
    ⟨working, hgiven, hactive, rfl⟩
  · have habsent : p.status = none := by
      cases hp : p.status with
      | none => rfl
      | some v =>
          simp only [hp, Option.getD_some] at hnone
          simp [CaseUpdate.changes, hp, hnone] at hstatus
    refine Or.inl ⟨habsent, ?_, rfl⟩
    simpa [CaseUpdate.changes, habsent, eq_comm] using hstatus
  · have hsame : granted = status := by
      simpa [CaseUpdate.exceptionChanges, CaseUpdate.changes, hgiven] using hstatus
    subst hsame
    exact Or.inr (Or.inl ⟨expires, hgiven, hexc, hreason, hexpires, hfuture, rfl⟩)
  · have hsame : working = status := by
      simpa [CaseUpdate.clearingChanges, CaseUpdate.changes, hgiven] using hstatus
    subst hsame
    exact Or.inr (Or.inr ⟨hgiven, hactive, rfl⟩)

/-- `RemediationService.update` behind the checks of the request model. -/
def patchCase (caseId : String) (p : CaseUpdate) (now : Instant) (db : Database) :
    Except Failure (Database × Option CaseRow) :=
  if p.wellFormed then do
    let changes ← validate p now
    update caseId changes p.expectedVersion (p.comment.getD none) now db
  else
    .error (.valueError "Request validation failed.")

/-- The field constraints of a start request. -/
def StartRequest.wellFormed (r : StartRequest) : Bool :=
  decide (1 ≤ r.assetId.toList.length ∧ r.assetId.toList.length ≤ 500) &&
    decide (1 ≤ r.vulnerabilityKey.toList.length ∧ r.vulnerabilityKey.toList.length ≤ 2000) &&
    withinLength 200 (some r.assignee) && withinLength 4000 (some r.comment)

/-- The comment of a start that carries none. -/
def startComment : String :=
  "Задача запущена из вкладки «Уязвимости»."

/-- `RemediationService.start_for_finding` behind the checks of the request model. -/
def startFinding (loc : Sql.Locale) (md5 : String → String) (request : StartRequest)
    (now : Instant) (db : Database) : Except Failure (Database × CaseRow) :=
  let clean : StartRequest :=
    { request with
      assetId := strip request.assetId
      vulnerabilityKey := strip request.vulnerabilityKey
      comment := some ((orNone request.comment).getD startComment) }
  if !request.wellFormed then
    .error (.valueError "Request validation failed.")
  else if clean.assetId = "" ∨ clean.vulnerabilityKey = "" then
    .error (.valueError "Asset and vulnerability selector are required.")
  else
    startForFinding loc md5 clean now db

/-- `RemediationService.reconcile_asset`: every exception is absorbed. -/
def reconcile (loc : Sql.Locale) (md5 : String → String) (staleDays : Int) (assetId : String)
    (now : Instant) (db : Database) : Database × ReconcileCounts :=
  match reconcileAsset loc md5 staleDays assetId now db with
  | .ok result => result
  | .error _ => (db, {})

/-! ## Steps of the system -/

/-- What the deployment fixes: locale, hash and the age at which a card is stale. -/
structure Settings where
  locale : Sql.Locale
  md5 : String → String
  staleDays : Int

/-- The asset data that a card save replaces. -/
structure AssetData where
  cards : List AssetCard
  groups : List GroupRow
  findings : List FindingRow
  links : List PassportLink

/-- The operations on the remediation tables. -/
inductive Operation where
  | patch (caseId : String) (request : CaseUpdate) (now : Instant)
  | start (request : StartRequest) (now : Instant)
  | expire (now : Instant)
  | reconcile (assetId : String) (now : Instant)
  | policy (values : PolicyValues) (applyToOpen : Bool) (now : Instant)
  | verification (campaignId workflowId : String) (status : VerificationStatus)
      (message : Option String)
  | finalize (campaignId workflowId : String) (failedAssets : List String)
  | campaign (campaignId : String) (values : CampaignValues)
  | context (assetId : String) (values : ContextValues) (expectedVersion : Nat)
  | passports (plan : List (String × String))
  | saveAssets (data : AssetData)

/-- The database after an operation, or the exception that it raises. -/
def perform (cfg : Settings) (op : Operation) (db : Database) : Except Failure Database :=
  match op with
  | .patch caseId request now => (patchCase caseId request now db).map Prod.fst
  | .start request now => (startFinding cfg.locale cfg.md5 request now db).map Prod.fst
  | .expire now => .ok (expireRiskAcceptances now db)
  | .reconcile assetId now =>
      .ok (Remediation.reconcile cfg.locale cfg.md5 cfg.staleDays assetId now db).1
  | .policy values applyToOpen now => updatePolicy values applyToOpen now db
  | .verification campaignId workflowId status message =>
      .ok (setCampaignVerification campaignId workflowId status message db)
  | .finalize campaignId workflowId failedAssets =>
      .ok (finalizeCampaignVerification campaignId workflowId failedAssets db)
  | .campaign campaignId values => createCampaign campaignId values db
  | .context assetId values expectedVersion => setContext assetId values expectedVersion db
  | .passports plan => replacePassports plan db
  | .saveAssets data =>
      .ok { db with
            cards := data.cards
            groups := data.groups
            findings := data.findings
            links := data.links }

/-- One step of the system: an operation that raises changes nothing. -/
def step (cfg : Settings) (db : Database) (op : Operation) : Database :=
  match perform cfg op db with
  | .ok db' => db'
  | .error _ => db

/-- A rejected operation leaves the database unchanged. -/
theorem step_of_rejected {cfg : Settings} {db : Database} {op : Operation} {e : Failure}
    (h : perform cfg op db = .error e) :
    step cfg db op = db := by
  simp [step, h]

theorem step_of_performed {cfg : Settings} {db db' : Database} {op : Operation}
    (h : perform cfg op db = .ok db') :
    step cfg db op = db' := by
  simp [step, h]

/-! ## Initial states -/

/--
A database as the migration leaves it: every case is new, with the one event of
its creation, and no event is about an unknown case.
-/
structure Database.Initial (db : Database) : Prop where
  fresh : ∀ k c, db.case? k = some c → c.status = .opened ∧ c.resolvedAt = none ∧
    c.riskReason = none ∧ c.riskExpiresAt = none ∧ c.exceptionReason = none ∧
    c.exceptionExpiresAt = none
  created : ∀ k c, db.case? k = some c →
    ∃ e, db.history k = [e] ∧ e.oldStatus = none ∧ e.newStatus = some .opened
  silent : ∀ k, db.case? k = none → db.history k = []

/-- A deployment without cases. -/
def emptyDatabase (policy : SlaPolicy) : Database :=
  { policy := some policy
    cards := []
    groups := []
    findings := []
    links := []
    cases := Table.empty
    events := []
    campaignCases := []
    contexts := [] }

theorem emptyDatabase_initial (policy : SlaPolicy) :
    (emptyDatabase policy).Initial where
  fresh := fun k c h => by simp [Database.case?, emptyDatabase] at h
  created := fun k c h => by simp [Database.case?, emptyDatabase] at h
  silent := fun _ _ => rfl

/-! ## A small deployment -/

/-- Settings that use the hashed text itself as the hash. -/
def plainSettings : Settings where
  locale := plainLocale
  md5 := id
  staleDays := 7

/-- A policy with the default deadlines. -/
def defaultPolicy : SlaPolicy where
  criticalDays := 7
  highDays := 30
  mediumDays := 90
  lowDays := 180
  nearDueDays := 7

/-- An asset with one complete group, and the findings of that group. -/
def oneAsset (findings : List FindingRow) : AssetData where
  cards := [{ assetId := "host", lastSeen := some 0 }]
  groups :=
    [{ id := 1
       assetId := "host"
       sourceType := "os"
       collectionType := "HostOSVulnerabilities"
       collectionId := "c1"
       name := some "kernel"
       severity := some "high"
       vulnerabilityCount := 1
       cvssScore := none
       groupOrder := 0
       truncated := false
       groupJson := .obj [] }]
  findings := findings
  links := []

/-- A finding of that group. -/
def oneFinding : FindingRow where
  id := 1
  assetId := "host"
  groupId := 1
  vulnerabilityInstanceId := some "i1"
  vulnerabilityId := some "v1"
  objectId := none
  cveName := some "CVE-2024-0001"
  name := some "overflow"
  severity := some "high"
  cvssScore := none
  descriptionKey := none
  vulnerabilityJson := .obj []
  selector := some "id:v1"

/-- The case id of that finding. -/
def oneCaseId : String :=
  "host\x1fid:v1"

/-- A request that accepts the risk of a case until an instant. -/
def acceptRisk (version : Nat) (expires : Instant) : CaseUpdate where
  expectedVersion := version
  status := some (some .riskAccepted)
  exceptionReason := some (some "compensating control")
  exceptionExpiresAt := some (some expires)

end Remediation
end MpvmApp
