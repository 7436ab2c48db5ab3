import MpvmApp.Findings.Analytics
import MpvmApp.Lib.CharTables
import MpvmApp.Lib.IpAddress

/-!
# Assets of a compliance assessment

An asset belongs to the scope of the internet or to that of the organization by its
address, it is fresh or stale by its last scan, and it has a category by its type.  An
instant is counted in microseconds; a date is counted in days from the same origin.

Main definitions:

- `evaluateFreshness`: whether a scan is recent enough on a date.
- `isInternetAsset`, `inScope`: the scope of an address.
- `classifyAssetType`: the category of a type.
- `DatasetRow`, `assetRow`: a row of the query, and the asset that it describes.
-/

namespace MpvmApp
namespace Compliance

open Sql Findings

/-! ## Freshness -/

/-- `FRESHNESS_DAYS`. -/
def freshnessDays : Int :=
  30

/-- The microseconds of a day. -/
def dayMicros : Int :=
  86400000000

/-- How the standard library reads and writes times. -/
structure TimeTexts where
  /-- `datetime.fromisoformat` with the zone UTC for `Z` and for no zone. -/
  read : String → Except String Int
  /-- `isoformat` of an instant. -/
  write : Int → String
  /-- `isoformat` of a date. -/
  writeDate : Int → String

/-- Why an asset is fresh or not. -/
inductive FreshnessReason where
  | fresh
  | stale
  | missingScanDate
deriving DecidableEq, Repr

/-- `FreshnessResult`. -/
structure FreshnessResult where
  scanAt : Option Int
  cutoffAt : Int
  isFresh : Bool
  ageDays : Option Int
  reason : FreshnessReason
deriving DecidableEq, Repr

/-- `freshness_cutoff`; there is no date before the first one. -/
def freshnessCutoff (assessmentDate : Int) : Except String Int :=
  if assessmentDate ≤ freshnessDays then .error "date value out of range"
  else .ok ((assessmentDate - freshnessDays) * dayMicros)

/-- The time of a scan: an instant, or a stored text. -/
inductive ScanTime where
  | instant (time : Int)
  | text (text : String)
deriving DecidableEq

/-- The result for a scan at an instant. -/
def freshnessAt (cutoff assessmentDate scanAt : Int) : FreshnessResult where
  scanAt := some scanAt
  cutoffAt := cutoff
  isFresh := decide (cutoff ≤ scanAt)
  ageDays := some (assessmentDate - scanAt / dayMicros)
  reason := if cutoff ≤ scanAt then .fresh else .stale

/-- `evaluate_freshness`. -/
def evaluateFreshness (times : TimeTexts) (scanAt : Option ScanTime) (assessmentDate : Int) :
    Except String FreshnessResult :=
  match freshnessCutoff assessmentDate with
  | .error message => .error message
  | .ok cutoff =>
      match scanAt with
      | none | some (.text "") =>
          .ok
            { scanAt := none
              cutoffAt := cutoff
              isFresh := false
              ageDays := none
              reason := .missingScanDate }
      | some (.instant scanAt) => .ok (freshnessAt cutoff assessmentDate scanAt)
      | some (.text text) =>
          match times.read text with
          | .error message => .error message
          | .ok scanAt => .ok (freshnessAt cutoff assessmentDate scanAt)

/-! ## Scopes and categories -/

/-- `ComplianceScope`. -/
inductive ComplianceScope where
  | internet
  | organization
deriving DecidableEq, Repr

/-- `AssetCategory`. -/
inductive AssetCategory where
  | userDevice
  | server
  | unclassified
deriving DecidableEq, Repr

/-- `INTERNET_NETWORK`: the first half of an address in 10.255.0.0/16. -/
def internetPrefix : Nat :=
  10 * 256 + 255

/-- `is_internet_asset`; the text of a missing address is no address. -/
def isInternetAsset (value : Option String) : Bool :=
  match Ip.ipAddress (stripText (value.getD "None").toList) with
  | some (.v4 ip) => decide (ip.toNat / 65536 = internetPrefix)
  | _ => false

/-- `SERVER_TYPES`. -/
def serverTypes : List String :=
  ["server", "virtual server", "physical server"]

/-- `USER_DEVICE_TYPES`. -/
def userDeviceTypes : List String :=
  ["workstation", "desktop", "laptop", "user device"]

/-- `classify_asset_type`. -/
def classifyAssetType (tables : CharTables) (value : Option String) : AssetCategory :=
  let lowered := tables.lowerText (stripText (value.getD "").toList)
  let normalized := String.ofList (squeeze isSpace false lowered)
  if normalized ∈ serverTypes then .server
  else if normalized ∈ userDeviceTypes then .userDevice
  else .unclassified

/-! ## Rows and assets -/

/-- The columns of a card with the time of its last completed scan. -/
structure CardScan where
  assetId : String
  displayName : Option String
  ipAddress : Option String
  fqdn : Option String
  hostname : Option String
  assetType : Option String
  cardLastSeen : String
  scannedAt : Option Int
deriving DecidableEq

/-- A row of the query for the dataset. -/
structure DatasetRow extends CardScan where
  findingId : Option Nat
  vulnerabilityId : Option String
  cve : Option String
  vulnerabilityName : Option String
  severity : String
  cvssScore : Option Rat
  sourceType : Option String

/-- `_in_scope`. -/
def inScope (scope : ComplianceScope) (card : CardScan) : Bool :=
  match scope with
  | .internet => isInternetAsset card.ipAddress
  | .organization => !isInternetAsset card.ipAddress

/-- An asset of the dataset. -/
structure AssetRow where
  assetId : String
  displayName : Option String
  ipAddress : Option String
  fqdn : Option String
  hostname : Option String
  assetType : Option String
  assetCategory : AssetCategory
  scanAt : Option String
  scanDateSource : String
  isFresh : Bool
  ageDays : Option Int
  freshnessReason : FreshnessReason
deriving DecidableEq

/-- The time by which an asset is fresh: that of the scan, or that of the card. -/
def CardScan.scanTime (card : CardScan) : ScanTime :=
  match card.scannedAt with
  | some instant => .instant instant
  | none => .text card.cardLastSeen

/-- `_asset_row`. -/
def assetRow (times : TimeTexts) (tables : CharTables) (assessmentDate : Int) (card : CardScan) :
    Except String AssetRow :=
  match evaluateFreshness times (some card.scanTime) assessmentDate with
  | .error message => .error message
  | .ok freshness =>
      .ok
        { assetId := card.assetId
          displayName := card.displayName
          ipAddress := card.ipAddress
          fqdn := card.fqdn
          hostname := card.hostname
          assetType := card.assetType
          assetCategory := classifyAssetType tables card.assetType
          scanAt := freshness.scanAt.map times.write
          scanDateSource :=
            if card.scannedAt.isSome then "scan_completed" else "asset_card_last_seen"
          isFresh := freshness.isFresh
          ageDays := freshness.ageDays
          freshnessReason := freshness.reason }

theorem assetId_of_assetRow {times : TimeTexts} {tables : CharTables} {date : Int}
    {card : CardScan} {asset : AssetRow} (h : assetRow times tables date card = .ok asset) :
    asset.assetId = card.assetId := by
  unfold assetRow at h
  split at h
  · cases h
  · cases h
    rfl

theorem inScope_organization (card : CardScan) :
    inScope .organization card = !inScope .internet card :=
  rfl

theorem not_inScope_internet_of_no_address {card : CardScan}
    (h : nullIfEmpty card.ipAddress = none) :
    inScope .internet card = false := by
  unfold inScope isInternetAsset
  have hcases : card.ipAddress = none ∨ card.ipAddress = some "" := by
    cases haddress : card.ipAddress with
    | none => exact .inl rfl
    | some text =>
        rw [haddress] at h
        by_cases hempty : text = ""
        · exact .inr (congrArg some hempty)
        · simp [nullIfEmpty, hempty] at h
  rcases hcases with hnone | hempty
  · rw [hnone]
    decide +kernel
  · rw [hempty]
    decide +kernel

end Compliance
end MpvmApp
