import Mathlib.Data.List.Count
import MpvmApp.Compliance.Assets
import MpvmApp.Findings.ReadPathEquality
import MpvmApp.Lib.FirstBy
import MpvmApp.Lib.GroupTotals

/-!
# The compliance dataset

The query for the dataset joins every asset with its critical findings only, and the rows of
assets without an address are counted by a second query.  A dataset that is built from the
rows of all severities is the same.

Main definitions:

- `buildComplianceDataset`: the dataset of some rows.
- `joinedRows`: the rows of the query, with a condition on the findings.
- `dataset`: the dataset of a request.
- `allRows`: the rows with the findings of all severities.

Main results:

- Theorem `fromKeys_joined`, `filter_joined`: a condition on the findings leaves
  the assets and the critical findings as they are.
- Theorem `compliance_dataset`: the dataset is that of all rows, the scopes divide the
  assets, and the counters of a dataset add up.
-/

namespace MpvmApp
namespace Compliance

open Sql Findings
open Passports (Collation Collated)

/-! ## Building the dataset -/

/-- A finding of the dataset: the asset with the columns of a row. -/
structure FindingEntry where
  asset : AssetRow
  vulnerabilityId : Option String
  cve : Option String
  vulnerabilityName : Option String
  severity : String
  cvssScore : Option Rat
  sourceType : Option String

/-- `by_asset_category`. -/
structure CategoryCounts where
  userDevice : Nat
  server : Nat
  unclassified : Nat
deriving DecidableEq, Repr

/-- The summary of a dataset. -/
structure DatasetSummary where
  scope : ComplianceScope
  assessmentDate : String
  freshnessDays : Int
  assetsTotal : Nat
  freshAssets : Nat
  staleAssets : Nat
  affectedAssets : Nat
  criticalFindings : Nat
  uniqueVulnerabilities : Nat
  oldestFreshScanAt : Option String
  freshestScanAt : Option String
  byAssetCategory : CategoryCounts

/-- `ComplianceDataset`, besides the time at which it was generated. -/
structure ComplianceDataset where
  scope : ComplianceScope
  assessmentDate : Int
  summary : DatasetSummary
  findings : List FindingEntry
  assets : List AssetRow
  staleAssets : List AssetRow
  invalidOrMissingIp : Nat

/-- `assets_by_id` of the rows in the scope, in the order of their first rows. -/
def assetsById (times : TimeTexts) (tables : CharTables) (date : Int)
    (scopedRows : List DatasetRow) : Except String (List AssetRow) :=
  let identified := scopedRows.filter fun r => !decide (r.assetId = "")
  (identified.mapM fun r => assetRow times tables date r.toCardScan).map
    (firstBy AssetRow.assetId)

/-- The rows of assets without an address. -/
def invalidIpCount (scopedRows : List DatasetRow) : Nat :=
  scopedRows.countP fun r => !decide (r.assetId = "") && (nullIfEmpty r.ipAddress).isNone

/-- The identity of the vulnerability of a row. -/
def identity (vulnerabilityId cve vulnerabilityName : Option String) : String :=
  strip (((nullIfEmpty vulnerabilityId).or ((nullIfEmpty cve).or vulnerabilityName)).getD "")

/-- The severity of a row is critical. -/
def isCriticalRow (tables : CharTables) (severity : String) : Bool :=
  decide (tables.lowerText (stripText severity.toList) = "critical".toList)

/-- The entry of a row: a critical finding with an identity, of a fresh asset. -/
def findingEntry (tables : CharTables) (assets : List AssetRow) (row : DatasetRow) :
    Option FindingEntry :=
  match assets.find? fun asset => decide (asset.assetId = row.assetId) with
  | none => none
  | some asset =>
      if asset.isFresh && isCriticalRow tables row.severity &&
          !decide (identity row.vulnerabilityId row.cve row.vulnerabilityName = "") then
        some
          { asset := asset
            vulnerabilityId := row.vulnerabilityId
            cve := row.cve
            vulnerabilityName := row.vulnerabilityName
            severity := "critical"
            cvssScore := row.cvssScore
            sourceType := row.sourceType }
      else none

/-- The asset, the identity of the vulnerability and the source of an entry. -/
def FindingEntry.key (entry : FindingEntry) : String × String × String :=
  (entry.asset.assetId, identity entry.vulnerabilityId entry.cve entry.vulnerabilityName,
    entry.sourceType.getD "")

/-- The key by which the entries are sorted. -/
def FindingEntry.sortKey (entry : FindingEntry) : Lex (String × String) :=
  toLex (entry.asset.assetId,
    ((nullIfEmpty entry.cve).or (nullIfEmpty entry.vulnerabilityId)).getD "")

/-- The entries of the rows: one for each key, sorted. -/
def findingEntries (tables : CharTables) (assets : List AssetRow) (scopedRows : List DatasetRow) :
    List FindingEntry :=
  sortOn FindingEntry.sortKey
    (firstBy FindingEntry.key (scopedRows.filterMap (findingEntry tables assets)))

/-- The fresh assets. -/
def freshAssets (assets : List AssetRow) : List AssetRow :=
  assets.filter fun asset => asset.isFresh

/-- The assets of each category. -/
def categoryCounts (assets : List AssetRow) : CategoryCounts where
  userDevice := assets.countP fun asset => decide (asset.assetCategory = .userDevice)
  server := assets.countP fun asset => decide (asset.assetCategory = .server)
  unclassified := assets.countP fun asset => decide (asset.assetCategory = .unclassified)

/-- The dataset of sorted assets and entries. -/
def datasetOf (times : TimeTexts) (scope : ComplianceScope) (date : Int)
    (assets : List AssetRow) (findings : List FindingEntry) (missingIp : Nat) :
    ComplianceDataset :=
  let stale := assets.filter fun asset => !asset.isFresh
  let scans := (freshAssets assets).filterMap AssetRow.scanAt
  { scope := scope
    assessmentDate := date
    summary :=
      { scope := scope
        assessmentDate := times.writeDate date
        freshnessDays := 30
        assetsTotal := assets.length
        freshAssets := (freshAssets assets).length
        staleAssets := stale.length
        affectedAssets := countDistinct (findings.map fun f => f.asset.assetId)
        criticalFindings := findings.length
        uniqueVulnerabilities := countDistinct (findings.map fun f =>
          (nullIfEmpty f.cve).or ((nullIfEmpty f.vulnerabilityId).or f.vulnerabilityName))
        oldestFreshScanAt := (sortOn id scans).head?
        freshestScanAt := (sortOn id scans).getLast?
        byAssetCategory := categoryCounts assets }
    findings := findings
    assets := assets
    staleAssets := stale
    invalidOrMissingIp := missingIp }

/-- `build_compliance_dataset`. -/
def buildComplianceDataset (times : TimeTexts) (tables : CharTables) (scope : ComplianceScope)
    (date : Int) (rows : List DatasetRow) (missingIpRows : Option Nat) :
    Except String ComplianceDataset :=
  let scopedRows := rows.filter fun r => inScope scope r.toCardScan
  match assetsById times tables date scopedRows with
  | .error message => .error message
  | .ok found =>
      let assets := sortOn AssetRow.assetId found
      .ok (datasetOf times scope date assets (findingEntries tables found scopedRows)
        (missingIpRows.getD (invalidIpCount scopedRows)))

/-! ## The queries -/

/-- A row of `asset_scan_evidence`. -/
structure ScanEvidence where
  assetId : String
  scannedAt : Int

/-- The tables that the dataset reads. -/
structure ComplianceTables where
  cards : List CardRow
  evidence : List ScanEvidence
  groups : List GroupRow
  findings : List FindingRow

/-- The constraints of the tables; the texts of a saved card are cleaned, and its id is not empty. -/
structure ComplianceTables.Constraints (db : ComplianceTables) : Prop where
  cardIds : (db.cards.map CardRow.assetId).Nodup
  cardIdsGiven : ∀ card ∈ db.cards, card.assetId ≠ ""
  evidenceIds : (db.evidence.map ScanEvidence.assetId).Nodup
  groupIds : (db.groups.map GroupRow.id).Nodup
  findingIds : (db.findings.map FindingRow.id).Nodup
  cleanSeverity : ∀ f ∈ db.findings, f.severity.map strip = f.severity

/-- The tables with their constraints. -/
structure ComplianceDatabase extends ComplianceTables where
  constraints : toComplianceTables.Constraints

/-- The collation of the database with what its `LOWER` does to a text. -/
structure CaseCollation extends Collation where
  lower_capital : ∀ text, ∀ c ∈ (lower text).toList, ¬ ('A' ≤ c ∧ c ≤ 'Z')
  lower_strip : ∀ text, strip text = text → strip (lower text) = lower text

/-- The matches of a row in a `LEFT JOIN`. -/
def leftJoin {α : Type} : List α → List (Option α)
  | [] => [none]
  | matched => matched.map some

/-- The columns of a card, with the evidence of its last scan. -/
def cardScan (db : ComplianceTables) (card : CardRow) : CardScan where
  assetId := card.assetId
  displayName := card.displayName
  ipAddress := card.ipAddress
  fqdn := card.fqdn
  hostname := card.hostname
  assetType := card.assetType
  cardLastSeen := card.lastSeen
  scannedAt :=
    (db.evidence.find? fun e => decide (e.assetId = card.assetId)).map ScanEvidence.scannedAt

/-- `LOWER(TRIM(COALESCE(severity, '')))`. -/
def loweredSeverity (loc : Sql.Locale) (severity : Option String) : String :=
  loc.lower (trim (severity.getD ""))

/-- One row of the join. -/
def datasetRow (loc : Sql.Locale) (card : CardScan) (group : Option GroupRow)
    (finding : Option FindingRow) : DatasetRow where
  toCardScan := card
  findingId := finding.map FindingRow.id
  vulnerabilityId := finding.bind FindingRow.vulnerabilityId
  cve := finding.bind FindingRow.cveName
  vulnerabilityName := finding.bind FindingRow.name
  severity := loweredSeverity loc (finding.bind FindingRow.severity)
  cvssScore := finding.bind FindingRow.cvssScore
  sourceType := group.map GroupRow.sourceType

/-- The findings of a group that meet the condition of the join. -/
def findingsOf (db : ComplianceTables) (p : FindingRow → Bool) (group : Option GroupRow) :
    List FindingRow :=
  match group with
  | some g => db.findings.filter fun f => decide (f.groupId = g.id) && p f
  | none => []

/-- The cards that are selected. -/
def selectedCards (db : ComplianceTables) (assetIds : Option (List String)) : List CardRow :=
  match fromKeys (assetIds.getD []) with
  | [] => db.cards
  | selected => db.cards.filter fun card => decide (card.assetId ∈ selected)

/-- The groups of a card. -/
def groupsOf (db : ComplianceTables) (card : CardRow) : List GroupRow :=
  db.groups.filter fun g => decide (g.assetId = card.assetId)

/-- The joined rows of one card. -/
def cardRows (loc : Sql.Locale) (db : ComplianceTables) (p : FindingRow → Bool) (card : CardRow) :
    List DatasetRow :=
  (leftJoin (groupsOf db card)).flatMap fun group =>
    (leftJoin (findingsOf db p group)).map (datasetRow loc (cardScan db card) group)

/-- The joined rows of the selected cards. -/
def joinedRows (loc : Sql.Locale) (db : ComplianceTables) (p : FindingRow → Bool)
    (assetIds : Option (List String)) : List DatasetRow :=
  (selectedCards db assetIds).flatMap (cardRows loc db p)

/-- `ORDER BY card.asset_id, finding.id`. -/
def orderRows (loc : Collation) (rows : List DatasetRow) : List DatasetRow :=
  sortOn (fun r => toLex (collate loc r.assetId, MpvmApp.nullsLast r.findingId)) rows

/-- The severity of a finding is critical for the database. -/
def isCritical (loc : Sql.Locale) (finding : FindingRow) : Bool :=
  decide (loweredSeverity loc finding.severity = "critical")

/-- `_rows`. -/
def rows (loc : Collation) (db : ComplianceTables) (assetIds : Option (List String)) :
    List DatasetRow :=
  orderRows loc (joinedRows loc.toLocale db (isCritical loc.toLocale) assetIds)

/-- `_missing_ip_rows`. -/
def missingIpRows (loc : Sql.Locale) (db : ComplianceTables) (assetIds : Option (List String)) :
    Nat :=
  ((joinedRows loc db (fun _ => true) assetIds).filter fun r =>
    (nullIfEmpty r.ipAddress).isNone).length

/-- The dataset of a request. -/
def dataset (loc : Collation) (times : TimeTexts) (tables : CharTables) (db : ComplianceTables)
    (scope : ComplianceScope) (date : Int) (assetIds : Option (List String)) :
    Except String ComplianceDataset :=
  let missing :=
    match scope with
    | .internet => 0
    | .organization => missingIpRows loc.toLocale db assetIds
  buildComplianceDataset times tables scope date (rows loc db assetIds) (some missing)

/-- The rows with the findings of all severities. -/
def allRows (loc : Collation) (db : ComplianceTables) (assetIds : Option (List String)) :
    List DatasetRow :=
  orderRows loc (joinedRows loc.toLocale db (fun _ => true) assetIds)

/-! ## Critical severities -/

theorem mem_critical {d : Char} (h : d ∈ "critical".toList) :
    (d.toNat < 128 ∧ d ≠ 'k') ∧ d.toLower = d := by
  have hall : ("critical".toList.all fun d =>
      decide ((d.toNat < 128 ∧ d ≠ 'k') ∧ d.toLower = d)) = true := by
    decide +kernel
  exact of_decide_eq_true (List.all_eq_true.1 hall d h)

/-- What the database takes for critical is what the rows take for critical. -/
theorem isCriticalRow_iff (loc : CaseCollation) (tables : CharTables) {severity : Option String}
    (hclean : severity.map strip = severity) :
    isCriticalRow tables (loweredSeverity loc.toLocale severity) = true ↔
      loweredSeverity loc.toLocale severity = "critical" := by
  have hstripped : strip (severity.getD "") = severity.getD "" := by
    cases severity with
    | none => decide
    | some text => exact Option.some.inj hclean
  unfold loweredSeverity
  rw [trim_eq_self hstripped]
  have hlowered := loc.lower_strip _ hstripped
  have hcapital := loc.lower_capital (severity.getD "")
  generalize loc.lower (severity.getD "") = text at hlowered hcapital ⊢
  have hlist : stripText text.toList = text.toList := by
    rw [← toList_strip, hlowered]
  unfold isCriticalRow
  rw [hlist, decide_eq_true_eq]
  constructor
  · intro h
    rw [← String.toList_inj]
    exact tables.eq_of_lowerText (fun d hd => (mem_critical hd).1) hcapital h
  · rintro rfl
    exact tables.lowerText_eq_self fun d hd => ⟨(mem_critical hd).1.1, (mem_critical hd).2⟩

/-- The row of a finding counts for the dataset. -/
def counts (tables : CharTables) (row : DatasetRow) : Bool :=
  isCriticalRow tables row.severity &&
    !decide (identity row.vulnerabilityId row.cve row.vulnerabilityName = "")

theorem counts_of_no_finding (loc : Sql.Locale) (tables : CharTables) (card : CardScan)
    (group : Option GroupRow) :
    counts tables (datasetRow loc card group none) = false := by
  have hidentity : identity none none none = "" := by decide
  unfold counts datasetRow
  simp [hidentity]

/-- Rows that do not count give no entry. -/
theorem filterMap_findingEntry (tables : CharTables) (assets : List AssetRow)
    (scopedRows : List DatasetRow) :
    (scopedRows.filter (counts tables)).filterMap (findingEntry tables assets) =
      scopedRows.filterMap (findingEntry tables assets) := by
  rw [List.filterMap_filter]
  congr 1
  funext row
  by_cases hcounts : counts tables row = true
  · rw [if_pos hcounts]
  · rw [if_neg hcounts]
    have hfalse : ∀ fresh : Bool, (fresh && isCriticalRow tables row.severity &&
        !decide (identity row.vulnerabilityId row.cve row.vulnerabilityName = "")) = false := by
      intro fresh
      rw [Bool.and_assoc, show (isCriticalRow tables row.severity &&
        !decide (identity row.vulnerabilityId row.cve row.vulnerabilityName = "")) = false from
        Bool.eq_false_iff.2 hcounts, Bool.and_false]
    unfold findingEntry
    split
    · rfl
    · rw [hfalse, if_neg Bool.false_ne_true]

/-! ## Joined rows -/

section Joined

variable {loc : CaseCollation} {tables : CharTables} {db : ComplianceTables}

theorem filter_leftJoin {α : Type} (q : DatasetRow → Bool) (row : Option α → DatasetRow)
    (h : q (row none) = false) (matched : List α) :
    ((leftJoin matched).map row).filter q =
      (matched.filter fun a => q (row (some a))).map fun a => row (some a) := by
  cases matched with
  | nil => simp [leftJoin, h]
  | cons a rest =>
      unfold leftJoin
      rw [List.map_map, List.filter_map]
      rfl

theorem leftJoin_ne_nil {α : Type} (matched : List α) :
    leftJoin matched ≠ [] := by
  cases matched <;> simp [leftJoin]

/-- A condition that only the critical findings fail leaves the rows that count. -/
theorem filter_joined (h : db.Constraints) (assetIds : Option (List String)) :
    (joinedRows loc.toLocale db (isCritical loc.toLocale) assetIds).filter (counts tables) =
      (joinedRows loc.toLocale db (fun _ => true) assetIds).filter (counts tables) := by
  unfold joinedRows cardRows
  rw [List.filter_flatMap, List.filter_flatMap]
  congr 1
  funext card
  rw [List.filter_flatMap, List.filter_flatMap]
  congr 1
  funext group
  rw [filter_leftJoin _ _ (counts_of_no_finding _ _ _ _),
    filter_leftJoin _ _ (counts_of_no_finding _ _ _ _)]
  congr 1
  cases group with
  | none => rfl
  | some g =>
      unfold findingsOf
      dsimp only
      rw [List.filter_filter, List.filter_filter]
      refine List.filter_congr fun f hf => ?_
      have hcritical : counts tables
          (datasetRow loc.toLocale (cardScan db card) (some g) (some f)) = true →
          isCritical loc.toLocale f = true := by
        intro hcounts
        unfold counts at hcounts
        rw [Bool.and_eq_true] at hcounts
        exact decide_eq_true ((isCriticalRow_iff loc tables (h.cleanSeverity f hf)).1 hcounts.1)
      cases hcounts : counts tables
          (datasetRow loc.toLocale (cardScan db card) (some g) (some f)) with
      | false => rfl
      | true => simp [hcritical hcounts]

theorem mem_map_joined {p : FindingRow → Bool} {assetIds : Option (List String)}
    {card : CardScan} :
    card ∈ (joinedRows loc.toLocale db p assetIds).map DatasetRow.toCardScan ↔
      ∃ selected ∈ selectedCards db assetIds, cardScan db selected = card := by
  unfold joinedRows cardRows
  simp only [List.mem_map, List.mem_flatMap]
  constructor
  · rintro ⟨row, ⟨selected, hselected, group, _, finding, _, rfl⟩, rfl⟩
    exact ⟨selected, hselected, rfl⟩
  · rintro ⟨selected, hselected, rfl⟩
    obtain ⟨group, hgroup⟩ :=
      List.exists_mem_of_ne_nil _ (leftJoin_ne_nil (groupsOf db selected))
    obtain ⟨finding, hfinding⟩ :=
      List.exists_mem_of_ne_nil _ (leftJoin_ne_nil (findingsOf db p group))
    exact ⟨_, ⟨selected, hselected, group, hgroup, finding, hfinding, rfl⟩, rfl⟩

theorem mem_of_mem_selectedCards {assetIds : Option (List String)} {card : CardRow}
    (h : card ∈ selectedCards db assetIds) :
    card ∈ db.cards := by
  unfold selectedCards at h
  split at h
  · exact h
  · exact List.mem_of_mem_filter h

/-- The rows in a scope that have an id, in the order of the query. -/
def identifiedRows (loc : Collation) (db : ComplianceTables) (scope : ComplianceScope)
    (p : FindingRow → Bool) (assetIds : Option (List String)) : List DatasetRow :=
  ((orderRows loc (joinedRows loc.toLocale db p assetIds)).filter fun r =>
    inScope scope r.toCardScan).filter fun r => !decide (r.assetId = "")

/-- The ids of these rows are those of the selected cards in the scope. -/
theorem mem_identified (h : db.Constraints) {scope : ComplianceScope} {p : FindingRow → Bool}
    {assetIds : Option (List String)} {id : String} :
    id ∈ (identifiedRows loc.toCollation db scope p assetIds).map (fun r => r.assetId) ↔
      ∃ card ∈ selectedCards db assetIds, inScope scope (cardScan db card) = true ∧
        card.assetId = id := by
  unfold identifiedRows orderRows
  simp only [List.mem_map, List.mem_filter, mem_sortOn]
  constructor
  · rintro ⟨row, ⟨⟨hrow, hscope⟩, _⟩, rfl⟩
    obtain ⟨card, hcard, hscan⟩ := mem_map_joined.1 (List.mem_map_of_mem hrow)
    refine ⟨card, hcard, ?_, ?_⟩
    · rw [hscan]
      exact hscope
    · rw [← hscan]
      rfl
  · rintro ⟨card, hcard, hscope, rfl⟩
    obtain ⟨row, hrow, hscan⟩ := List.mem_map.1 (mem_map_joined.2 ⟨card, hcard, rfl⟩)
    have hid : row.assetId = card.assetId := congrArg CardScan.assetId hscan
    have hgiven := h.cardIdsGiven card (mem_of_mem_selectedCards hcard)
    refine ⟨row, ⟨⟨hrow, ?_⟩, ?_⟩, hid⟩
    · rw [hscan]
      exact hscope
    · simp [hid, hgiven]

theorem pairwise_identified {scope : ComplianceScope} {p : FindingRow → Bool}
    {assetIds : Option (List String)} :
    ((identifiedRows loc.toCollation db scope p assetIds).map fun r => r.assetId).Pairwise
      fun a b => loc.le a b = true := by
  have hsorted := pairwise_sortOn
    (fun r : DatasetRow => toLex (collate loc.toCollation r.assetId,
      MpvmApp.nullsLast r.findingId)) (joinedRows loc.toLocale db p assetIds)
  rw [List.pairwise_map]
  refine ((hsorted.filter _).filter _).imp ?_
  intro a b hab
  rcases Prod.Lex.toLex_le_toLex.1 hab with hlt | ⟨heq, _⟩
  · exact le_of_lt hlt
  · exact le_of_eq heq

/-- The ids do not depend on the condition on the findings. -/
theorem fromKeys_joined (h : db.Constraints) {scope : ComplianceScope}
    (p p' : FindingRow → Bool) {assetIds : Option (List String)} :
    fromKeys ((identifiedRows loc.toCollation db scope p assetIds).map fun r => r.assetId) =
      fromKeys ((identifiedRows loc.toCollation db scope p' assetIds).map fun r => r.assetId) := by
  apply fromKeys_eq_of_sorted (loc.le_antisymm) pairwise_identified pairwise_identified
  intro id
  rw [mem_identified h, mem_identified h]

/-- The asset with an id. -/
def assetOf (times : TimeTexts) (tables : CharTables) (db : ComplianceTables) (date : Int)
    (id : String) : Except String AssetRow :=
  match db.cards.find? fun card => decide (card.assetId = id) with
  | some card => assetRow times tables date (cardScan db card)
  | none => .error ""

theorem assetOf_card (h : db.Constraints) {times : TimeTexts} {date : Int} {card : CardRow}
    (hcard : card ∈ db.cards) :
    assetOf times tables db date card.assetId =
      assetRow times tables date (cardScan db card) := by
  have hfilter := filter_key_eq_singleton h.cardIds hcard
  unfold assetOf
  rw [← List.head?_filter, hfilter]
  rfl

theorem assetId_of_assetOf {times : TimeTexts} {date : Int} {id : String} {asset : AssetRow}
    (h : assetOf times tables db date id = .ok asset) :
    asset.assetId = id := by
  unfold assetOf at h
  split at h
  · rename_i card hfind
    have hid := List.find?_some hfind
    rw [assetId_of_assetRow h]
    exact of_decide_eq_true hid
  · cases h

theorem assetsById_joined (h : db.Constraints) (times : TimeTexts) {scope : ComplianceScope}
    {p : FindingRow → Bool} {assetIds : Option (List String)} {date : Int} :
    assetsById times tables date
        ((orderRows loc.toCollation (joinedRows loc.toLocale db p assetIds)).filter fun r =>
          inScope scope r.toCardScan) =
      (fromKeys ((identifiedRows loc.toCollation db scope p assetIds).map fun r =>
        r.assetId)).mapM (assetOf times tables db date) := by
  have hrow : ∀ r ∈ identifiedRows loc.toCollation db scope p assetIds,
      assetRow times tables date r.toCardScan = assetOf times tables db date r.assetId := by
    intro r hr
    have hjoined : r ∈ joinedRows loc.toLocale db p assetIds := by
      unfold identifiedRows orderRows at hr
      exact mem_sortOn.1 (List.mem_of_mem_filter (List.mem_of_mem_filter hr))
    obtain ⟨card, hcard, hscan⟩ := mem_map_joined.1 (List.mem_map_of_mem hjoined)
    have hid : r.assetId = card.assetId := (congrArg CardScan.assetId hscan).symm
    rw [hid, assetOf_card h (mem_of_mem_selectedCards hcard), hscan]
  rw [← firstBy_mapM (fun id asset hasset => assetId_of_assetOf hasset), List.mapM_map]
  exact congrArg (Except.map (firstBy AssetRow.assetId)) (mapM_congr hrow)

theorem findingEntries_joined (h : db.Constraints) (assets : List AssetRow)
    {scope : ComplianceScope} {assetIds : Option (List String)} :
    findingEntries tables assets
        ((rows loc.toCollation db assetIds).filter fun r => inScope scope r.toCardScan) =
      findingEntries tables assets
        ((allRows loc.toCollation db assetIds).filter fun r => inScope scope r.toCardScan) := by
  have hcounts : ((rows loc.toCollation db assetIds).filter fun r =>
      inScope scope r.toCardScan).filter (counts tables) =
      ((allRows loc.toCollation db assetIds).filter fun r =>
        inScope scope r.toCardScan).filter (counts tables) := by
    unfold rows allRows orderRows
    rw [List.filter_comm, filter_sortOn, filter_joined h, List.filter_comm,
      filter_sortOn _ (counts tables)]
  unfold findingEntries
  rw [← filterMap_findingEntry, hcounts, filterMap_findingEntry]

/-- The rows without an address are those that the second query counts. -/
theorem invalidIpCount_joined (h : db.Constraints) {scope : ComplianceScope}
    {assetIds : Option (List String)} :
    invalidIpCount ((allRows loc.toCollation db assetIds).filter fun r =>
        inScope scope r.toCardScan) =
      match scope with
      | .internet => 0
      | .organization => missingIpRows loc.toLocale db assetIds := by
  unfold invalidIpCount allRows
  rw [List.countP_filter]
  cases scope with
  | internet =>
      rw [List.countP_eq_zero]
      intro row _ hrow
      simp only [Bool.and_eq_true, Option.isNone_iff_eq_none] at hrow
      rw [not_inScope_internet_of_no_address hrow.1.2] at hrow
      exact Bool.false_ne_true hrow.2
  | organization =>
      unfold missingIpRows orderRows
      dsimp only
      rw [← List.countP_eq_length_filter, (perm_sortOn _ _).countP_eq]
      apply List.countP_congr
      intro row hrow
      obtain ⟨card, hcard, hscan⟩ := mem_map_joined.1 (List.mem_map_of_mem hrow)
      have hid : row.assetId = card.assetId := (congrArg CardScan.assetId hscan).symm
      have hgiven := h.cardIdsGiven card (mem_of_mem_selectedCards hcard)
      simp only [Bool.and_eq_true, hid, hgiven, decide_false, Bool.not_false, true_and,
        Option.isNone_iff_eq_none]
      constructor
      · exact fun hrow => hrow.1
      · intro hnone
        refine ⟨hnone, ?_⟩
        rw [inScope_organization, not_inScope_internet_of_no_address hnone]
        rfl

/-- The dataset of a request is that of all rows. -/
theorem dataset_eq_allRows (h : db.Constraints) (times : TimeTexts) (scope : ComplianceScope)
    (date : Int) (assetIds : Option (List String)) :
    dataset loc.toCollation times tables db scope date assetIds =
      buildComplianceDataset times tables scope date (allRows loc.toCollation db assetIds)
        none := by
  have hassets : assetsById times tables date
      ((rows loc.toCollation db assetIds).filter fun r => inScope scope r.toCardScan) =
      assetsById times tables date
        ((allRows loc.toCollation db assetIds).filter fun r => inScope scope r.toCardScan) := by
    unfold rows allRows
    rw [assetsById_joined h, assetsById_joined h,
      fromKeys_joined h (isCritical loc.toLocale) fun _ => true]
  unfold dataset buildComplianceDataset
  dsimp only
  rw [hassets]
  split
  · rfl
  · rename_i found _
    rw [findingEntries_joined h, Option.getD_some, Option.getD_none, invalidIpCount_joined h]

/-! ## What a dataset holds -/

/-- The last scan of a card is recent enough. -/
def CardFresh (times : TimeTexts) (db : ComplianceTables) (date : Int) (card : CardRow) : Prop :=
  ∃ freshness, evaluateFreshness times (some (cardScan db card).scanTime) date = .ok freshness ∧
    freshness.isFresh = true

/-- An asset, an identity of a vulnerability and a source of its critical findings. -/
def CriticalTriple (loc : Sql.Locale) (times : TimeTexts) (db : ComplianceTables)
    (scope : ComplianceScope) (date : Int) (assetIds : Option (List String))
    (triple : String × String × String) : Prop :=
  ∃ card ∈ selectedCards db assetIds, inScope scope (cardScan db card) = true ∧
    CardFresh times db date card ∧ ∃ group ∈ groupsOf db card, ∃ finding ∈ db.findings,
      finding.groupId = group.id ∧ isCritical loc finding = true ∧
        identity finding.vulnerabilityId finding.cveName finding.name ≠ "" ∧
          triple = (card.assetId,
            identity finding.vulnerabilityId finding.cveName finding.name, group.sourceType)

/-- The assets, the findings and the counters of a dataset agree. -/
structure Consistent (loc : Sql.Locale) (times : TimeTexts) (db : ComplianceTables)
    (scope : ComplianceScope) (date : Int) (assetIds : Option (List String))
    (d : ComplianceDataset) : Prop where
  parts : (freshAssets d.assets ++ d.staleAssets).Perm d.assets
  fresh : d.summary.freshAssets = (freshAssets d.assets).length
  stale : d.summary.staleAssets = d.staleAssets.length
  total : d.summary.freshAssets + d.summary.staleAssets = d.summary.assetsTotal
  categories : d.summary.byAssetCategory.userDevice + d.summary.byAssetCategory.server +
    d.summary.byAssetCategory.unclassified = d.summary.assetsTotal
  critical : d.summary.criticalFindings = d.findings.length
  distinct : (d.findings.map FindingEntry.key).Nodup
  triples : ∀ triple, triple ∈ d.findings.map FindingEntry.key ↔
    CriticalTriple loc times db scope date assetIds triple

theorem some_mem_leftJoin {α : Type} {a : α} {matched : List α} :
    some a ∈ leftJoin matched ↔ a ∈ matched := by
  cases matched <;> simp [leftJoin]

theorem mem_findingsOf {p : FindingRow → Bool} {group : Option GroupRow} {finding : FindingRow} :
    finding ∈ findingsOf db p group ↔
      ∃ g, group = some g ∧ finding ∈ db.findings ∧ finding.groupId = g.id ∧ p finding = true := by
  cases group with
  | none => simp [findingsOf]
  | some g => simp [findingsOf]

theorem counts_datasetRow (h : db.Constraints) {card : CardScan} {group : Option GroupRow}
    {finding : FindingRow} (hfinding : finding ∈ db.findings)
    (hcritical : isCritical loc.toLocale finding = true) :
    counts tables (datasetRow loc.toLocale card group (some finding)) = true ↔
      identity finding.vulnerabilityId finding.cveName finding.name ≠ "" := by
  have hrow : isCriticalRow tables (loweredSeverity loc.toLocale finding.severity) = true :=
    (isCriticalRow_iff loc tables (h.cleanSeverity finding hfinding)).2
      (of_decide_eq_true hcritical)
  unfold counts datasetRow
  simp [hrow]

/-- The rows that count are those of the critical findings with an identity. -/
theorem mem_joined_counts (h : db.Constraints) {assetIds : Option (List String)}
    {row : DatasetRow} :
    (row ∈ joinedRows loc.toLocale db (isCritical loc.toLocale) assetIds ∧
        counts tables row = true) ↔
      ∃ card ∈ selectedCards db assetIds, ∃ group ∈ groupsOf db card, ∃ finding ∈ db.findings,
        finding.groupId = group.id ∧ isCritical loc.toLocale finding = true ∧
          identity finding.vulnerabilityId finding.cveName finding.name ≠ "" ∧
            row = datasetRow loc.toLocale (cardScan db card) (some group) (some finding) := by
  unfold joinedRows cardRows
  simp only [List.mem_map, List.mem_flatMap]
  constructor
  · rintro ⟨⟨card, hcard, group, hgroup, finding, hfinding, rfl⟩, hcounts⟩
    cases finding with
    | none =>
        rw [counts_of_no_finding] at hcounts
        cases hcounts
    | some finding =>
        have hmatched := some_mem_leftJoin.1 hfinding
        obtain ⟨g, rfl, hmem, hid, hcritical⟩ := mem_findingsOf.1 hmatched
        exact ⟨card, hcard, g, some_mem_leftJoin.1 hgroup, finding, hmem, hid, hcritical,
          (counts_datasetRow h hmem hcritical).1 hcounts, rfl⟩
  · rintro ⟨card, hcard, group, hgroup, finding, hmem, hid, hcritical, hidentity, rfl⟩
    have hmatched := mem_findingsOf.2 ⟨group, rfl, hmem, hid, hcritical⟩
    exact ⟨⟨card, hcard, some group, some_mem_leftJoin.2 hgroup, some finding,
      some_mem_leftJoin.2 hmatched, rfl⟩, (counts_datasetRow h hmem hcritical).2 hidentity⟩

theorem find?_found (h : db.Constraints) {times : TimeTexts} {date : Int} {ids : List String}
    {found : List AssetRow} (hfound : ids.mapM (assetOf times tables db date) = .ok found)
    {card : CardRow} (hcard : card ∈ db.cards) (hid : card.assetId ∈ ids) :
    ∃ asset, found.find? (fun asset => decide (asset.assetId = card.assetId)) = some asset ∧
      assetRow times tables date (cardScan db card) = .ok asset := by
  obtain ⟨asset, hasset, hof⟩ := forall_of_mapM_eq_ok hfound card.assetId hid
  have hkey := assetId_of_assetOf hof
  have hmem : card.assetId ∈ found.map AssetRow.assetId :=
    List.mem_map.2 ⟨asset, hasset, hkey⟩
  obtain ⟨first, hfirst, hfirstmem, hfirstkey⟩ := exists_find?_key hmem
  obtain ⟨id, _, hfirstof⟩ := exists_of_mem_mapM hfound hfirstmem
  have hsame : id = card.assetId := (assetId_of_assetOf hfirstof).symm.trans hfirstkey
  refine ⟨first, hfirst, ?_⟩
  rw [← assetOf_card h hcard, ← hsame]
  exact hfirstof

theorem isFresh_iff {times : TimeTexts} {date : Int} {card : CardRow} {asset : AssetRow}
    (hasset : assetRow times tables date (cardScan db card) = .ok asset) :
    asset.isFresh = true ↔ CardFresh times db date card := by
  unfold assetRow at hasset
  unfold CardFresh
  cases hfreshness : evaluateFreshness times (some (cardScan db card).scanTime) date with
  | error message =>
      rw [hfreshness] at hasset
      cases hasset
  | ok freshness =>
      rw [hfreshness] at hasset
      cases hasset
      constructor
      · exact fun hfresh => ⟨freshness, rfl, hfresh⟩
      · rintro ⟨other, heq, hfresh⟩
        cases heq
        exact hfresh

theorem categoryCounts_sum (assets : List AssetRow) :
    (categoryCounts assets).userDevice + (categoryCounts assets).server +
      (categoryCounts assets).unclassified = assets.length := by
  unfold categoryCounts
  dsimp only
  induction assets with
  | nil => rfl
  | cons asset assets ih =>
      simp only [List.countP_cons, List.length_cons]
      cases asset.assetCategory <;> simp <;> omega

theorem findingEntry_of_counts {assets : List AssetRow} {row : DatasetRow} {asset : AssetRow}
    (hfind : assets.find? (fun asset => decide (asset.assetId = row.assetId)) = some asset)
    (hcounts : counts tables row = true) :
    (findingEntry tables assets row).map FindingEntry.key =
      if asset.isFresh then
        some (asset.assetId, identity row.vulnerabilityId row.cve row.vulnerabilityName,
          row.sourceType.getD "")
      else none := by
  unfold counts at hcounts
  unfold findingEntry
  rw [hfind]
  dsimp only
  rw [Bool.and_assoc, hcounts, Bool.and_true]
  split
  · rfl
  · rfl

theorem mem_map_key_findingEntries {assets : List AssetRow} {scopedRows : List DatasetRow}
    {triple : String × String × String} :
    triple ∈ (findingEntries tables assets scopedRows).map FindingEntry.key ↔
      ∃ row ∈ scopedRows, counts tables row = true ∧
        (findingEntry tables assets row).map FindingEntry.key = some triple := by
  unfold findingEntries
  rw [((perm_sortOn _ _).map FindingEntry.key).mem_iff, map_firstBy, mem_fromKeys,
    ← filterMap_findingEntry]
  simp only [List.mem_map, List.mem_filterMap, List.mem_filter, Option.map_eq_some_iff]
  constructor
  · rintro ⟨entry, ⟨row, ⟨hrow, hcounts⟩, hentry⟩, hkey⟩
    exact ⟨row, hrow, hcounts, entry, hentry, hkey⟩
  · rintro ⟨row, hrow, hcounts, entry, hentry, hkey⟩
    exact ⟨entry, ⟨row, ⟨hrow, hcounts⟩, hentry⟩, hkey⟩

/-- The distinct ids of the selected cards in a scope. -/
def scopedIds (loc : Collation) (db : ComplianceTables) (scope : ComplianceScope)
    (assetIds : Option (List String)) : List String :=
  fromKeys ((identifiedRows loc db scope (isCritical loc.toLocale) assetIds).map fun r =>
    r.assetId)

theorem mem_scopedIds (h : db.Constraints) {scope : ComplianceScope}
    {assetIds : Option (List String)} {id : String} :
    id ∈ scopedIds loc.toCollation db scope assetIds ↔
      ∃ card ∈ selectedCards db assetIds, inScope scope (cardScan db card) = true ∧
        card.assetId = id := by
  unfold scopedIds
  rw [mem_fromKeys, mem_identified h]

/-- The triples of the entries. -/
theorem mem_map_key_rows (h : db.Constraints) {times : TimeTexts} {scope : ComplianceScope}
    {date : Int} {assetIds : Option (List String)} {found : List AssetRow}
    (hfound : (scopedIds loc.toCollation db scope assetIds).mapM (assetOf times tables db date) =
      .ok found)
    (triple : String × String × String) :
    triple ∈ (findingEntries tables found
        ((rows loc.toCollation db assetIds).filter fun r => inScope scope r.toCardScan)).map
          FindingEntry.key ↔
      CriticalTriple loc.toLocale times db scope date assetIds triple := by
  rw [mem_map_key_findingEntries]
  have hasset : ∀ card ∈ selectedCards db assetIds,
      inScope scope (cardScan db card) = true →
        ∃ asset, found.find? (fun asset => decide (asset.assetId = card.assetId)) = some asset ∧
          asset.assetId = card.assetId ∧
            (asset.isFresh = true ↔ CardFresh times db date card) := by
    intro card hcard hscope
    have hid : card.assetId ∈ scopedIds loc.toCollation db scope assetIds :=
      (mem_scopedIds h).2 ⟨card, hcard, hscope, rfl⟩
    obtain ⟨asset, hfind, hrow⟩ := find?_found h hfound (mem_of_mem_selectedCards hcard) hid
    exact ⟨asset, hfind, assetId_of_assetRow hrow, isFresh_iff hrow⟩
  constructor
  · rintro ⟨row, hrow, hcounts, hentry⟩
    rw [List.mem_filter] at hrow
    obtain ⟨hrow, hscope⟩ := hrow
    have hjoined : row ∈ joinedRows loc.toLocale db (isCritical loc.toLocale) assetIds :=
      mem_sortOn.1 hrow
    obtain ⟨card, hcard, group, hgroup, finding, hmem, hid, hcritical, hidentity, rfl⟩ :=
      (mem_joined_counts h).1 ⟨hjoined, hcounts⟩
    obtain ⟨asset, hfind, hassetId, hfresh⟩ := hasset card hcard hscope
    rw [findingEntry_of_counts hfind hcounts] at hentry
    split at hentry
    · rename_i hisFresh
      refine ⟨card, hcard, hscope, hfresh.1 hisFresh, group, hgroup, finding, hmem, hid,
        hcritical, hidentity, ?_⟩
      rw [← Option.some.inj hentry, hassetId]
      rfl
    · cases hentry
  · rintro ⟨card, hcard, hscope, hcardFresh, group, hgroup, finding, hmem, hid, hcritical,
      hidentity, rfl⟩
    have hrow := (@mem_joined_counts _ tables _ h _ _).2
      ⟨card, hcard, group, hgroup, finding, hmem, hid, hcritical, hidentity, rfl⟩
    obtain ⟨asset, hfind, hassetId, hfresh⟩ := hasset card hcard hscope
    refine ⟨_, List.mem_filter.2 ⟨mem_sortOn.2 hrow.1, hscope⟩, hrow.2, ?_⟩
    rw [findingEntry_of_counts hfind hrow.2, if_pos (hfresh.2 hcardFresh), hassetId]
    rfl

theorem dataset_eq_ok (h : db.Constraints) {times : TimeTexts} {scope : ComplianceScope}
    {date : Int} {assetIds : Option (List String)} {d : ComplianceDataset}
    (hd : dataset loc.toCollation times tables db scope date assetIds = .ok d) :
    ∃ found missing,
      (scopedIds loc.toCollation db scope assetIds).mapM (assetOf times tables db date) =
        .ok found ∧
      d = datasetOf times scope date (sortOn AssetRow.assetId found)
        (findingEntries tables found
          ((rows loc.toCollation db assetIds).filter fun r => inScope scope r.toCardScan))
        missing := by
  unfold dataset buildComplianceDataset at hd
  dsimp only at hd
  split at hd
  · cases hd
  · rename_i found hfound
    refine ⟨found, _, ?_, (Except.ok.inj hd).symm⟩
    rw [← hfound]
    exact (assetsById_joined h times).symm

theorem nodup_map_key_findingEntries (assets : List AssetRow) (scopedRows : List DatasetRow) :
    ((findingEntries tables assets scopedRows).map FindingEntry.key).Nodup := by
  unfold findingEntries
  rw [((perm_sortOn _ _).map FindingEntry.key).nodup_iff, map_firstBy]
  exact nodup_fromKeys _

theorem consistent_dataset (h : db.Constraints) {times : TimeTexts} {scope : ComplianceScope}
    {date : Int} {assetIds : Option (List String)} {d : ComplianceDataset}
    (hd : dataset loc.toCollation times tables db scope date assetIds = .ok d) :
    Consistent loc.toLocale times db scope date assetIds d := by
  obtain ⟨found, missing, hfound, rfl⟩ := dataset_eq_ok h hd
  have hparts := List.filter_append_perm AssetRow.isFresh (sortOn AssetRow.assetId found)
  refine
    { parts := hparts
      fresh := rfl
      stale := rfl
      total := ?_
      categories := categoryCounts_sum _
      critical := rfl
      distinct := nodup_map_key_findingEntries _ _
      triples := mem_map_key_rows h hfound }
  have hlength := hparts.length_eq
  rw [List.length_append] at hlength
  exact hlength

/-- The assets of a dataset are the selected ones in its scope. -/
theorem assets_dataset (h : db.Constraints) {times : TimeTexts} {scope : ComplianceScope}
    {date : Int} {assetIds : Option (List String)} {d : ComplianceDataset}
    (hd : dataset loc.toCollation times tables db scope date assetIds = .ok d) :
    (d.assets.map AssetRow.assetId).Perm
      (((selectedCards db assetIds).filter fun card =>
        inScope scope (cardScan db card)).map CardRow.assetId) := by
  obtain ⟨found, missing, hfound, rfl⟩ := dataset_eq_ok h hd
  have hids : found.map AssetRow.assetId = scopedIds loc.toCollation db scope assetIds :=
    map_of_mapM_eq_ok (fun id asset hasset => assetId_of_assetOf hasset) hfound
  refine ((perm_sortOn _ found).map AssetRow.assetId).trans ?_
  have hselected : (selectedCards db assetIds).Sublist db.cards := by
    unfold selectedCards
    split
    · exact List.Sublist.refl _
    · exact List.filter_sublist
  have hnodup : (((selectedCards db assetIds).filter fun card =>
      inScope scope (cardScan db card)).map CardRow.assetId).Nodup :=
    h.cardIds.sublist ((List.filter_sublist.trans hselected).map CardRow.assetId)
  have hdistinct : (scopedIds loc.toCollation db scope assetIds).Nodup := nodup_fromKeys _
  rw [hids, List.perm_ext_iff_of_nodup hdistinct hnodup]
  intro id
  refine (mem_scopedIds h).trans ?_
  simp only [List.mem_map, List.mem_filter, and_assoc]

end Joined

end Compliance
end MpvmApp
