import Mathlib.Algebra.GroupWithZero.Nat
import MpvmApp.Findings.Analytics

/-!
# The list, the summary and the snapshots of vulnerabilities

The unfiltered list and the unfiltered summary have two ways to the same rows: the live one
aggregates the findings, and the other one reads the two stored aggregates.  A snapshot aggregates
the findings once more.

Main definitions:

- Definition `liveRows`, `rollupRows`: a page of the list, read in the two ways.
- Definition `list`: the list, which takes one of the two ways.
- Definition `liveSummaryRows`, `rollupSummaryRows`: the pieces of the summary.
- Definition `summary`: the summary, which takes one of the two ways.
- Definition `captureSnapshot`: the values of a snapshot.
-/

namespace MpvmApp
namespace Findings

open Sql
open Passports (Collation Collated)

/-! ## The live findings -/

/-- A row of `filtered_findings`; its columns of the card are in `card`. -/
structure FilteredFinding extends JoinedFinding where
  findingId : Nat
  severity : Severity
  card : CardRow

/-- One row of the live join; `asset_id` is that of the card. -/
def filterRow (loc : Sql.Locale) (finding : FindingRow) (group : GroupRow) (card : CardRow) :
    FilteredFinding where
  selector := finding.selector
  assetId := card.assetId
  vulnerabilityId := finding.vulnerabilityId
  cveName := finding.cveName
  name := finding.name
  severityRank := (severityOf loc finding.severity).rank
  cvssScore := finding.cvssScore
  groupId := group.id
  groupName := group.name
  sourceType := group.sourceType
  containerName := containerName finding group
  imageName := imageName finding group
  findingId := finding.id
  severity := severityOf loc finding.severity
  card := card

/-- `_filtered_findings_cte` without filters. -/
def filteredFindings (loc : Sql.Locale) (s : Analytics) : List FilteredFinding :=
  (s.findings.filter FindingRow.valid).flatMap fun f =>
    (s.groups.filter fun g => decide (g.id = f.groupId)).flatMap fun g =>
      (s.cards.filter fun c => decide (c.assetId = f.assetId)).map (filterRow loc f g)

/-- The live aggregate of the findings with one selector. -/
def aggregateLive (loc : Sql.Locale) (selector : Option String) (rows : List FilteredFinding) :
    VulnerabilityRow where
  selector := selector
  vulnerabilityId := maxOf loc.le (rows.map fun r => nullIfEmpty r.vulnerabilityId)
  cve := maxOf loc.le (rows.map fun r => nullIfEmpty r.cveName)
  name := maxOf loc.le (rows.map fun r => nullIfEmpty r.name)
  severity := severityOfRank (minRank (rows.map fun r => r.severityRank))
  severityRank := minRank (rows.map fun r => r.severityRank)
  cvssScore := maxOf (fun x y => decide (x ≤ y)) (rows.map fun r => r.cvssScore)
  affectedHosts := countDistinct (rows.map fun r => r.assetId)
  findings := rows.length
  affectedObjects := countDistinct (rows.map fun r => r.groupId)
  components := arrayAgg loc.le (rows.map fun r => nullIfEmpty r.groupName)
  sources := distinctSorted loc.le (rows.map fun r => r.sourceType)
  dockerContainers := arrayAgg loc.le (rows.map fun r => nullIfEmpty r.containerName)
  dockerImages := arrayAgg loc.le (rows.map fun r => nullIfEmpty r.imageName)
  lastSeen := maxOf loc.le (rows.map fun r => some r.card.lastSeen)

/-- `aggregated`: one row for each selector. -/
def aggregatedView (loc : Sql.Locale) :
    GroupedView FilteredFinding (Option String) VulnerabilityRow where
  key r := r.selector
  keyOf r := r.selector
  aggregate := aggregateLive loc
  keyOf_aggregate _ _ := rfl

/-! ## The stored aggregate -/

/-- The columns that are selected of a row of `vulnerability_rollup`. -/
def VulnerabilityRollup.columns (r : VulnerabilityRollup) : VulnerabilityColumns where
  selector := r.selector
  vulnerabilityId := r.vulnerabilityId
  cve := r.cve
  name := r.name
  severity := severityOfRank r.severityRank
  severityRank := r.severityRank
  cvssScore := r.cvssScore
  affectedHosts := r.affectedHosts
  findings := r.findings
  affectedObjects := r.affectedObjects
  components := r.components
  sources := r.sources
  dockerContainers := r.dockerContainers
  dockerImages := r.dockerImages

/-- `last_seen` of a shown row: it is read from the cards of the findings. -/
def lastSeenOf (loc : Sql.Locale) (s : Analytics) (selector : Option String) : Option String :=
  let findings := s.findings.filter fun f => sqlEq f.selector selector && f.valid
  let cards := findings.flatMap fun f => s.cards.filter fun c => decide (c.assetId = f.assetId)
  maxOf loc.le (cards.map fun c => some c.lastSeen)

/-- A stored row as it is shown. -/
def shownRow (loc : Sql.Locale) (s : Analytics) (r : VulnerabilityRollup) : VulnerabilityRow where
  toVulnerabilityColumns := r.columns
  lastSeen := lastSeenOf loc s r.selector

/-! ## The list -/

/-- A request of the list without filters. -/
structure ListQuery where
  sortBy : Option String := none
  sortDir : Option String := none
  limit : Int := 50
  offset : Int := 0
  includeTotal : Bool := true

/-- What the list returns. -/
structure ListPage where
  total : Nat
  rows : List VulnerabilityItem
  limit : Nat
  offset : Nat

/-- A page with the passports of its rows, in its order. -/
def withPassports (loc : Collation) (s : Analytics) (column : SortColumn) (direction : Direction)
    (filtered : List (Option String × Nat)) (paged : List VulnerabilityRow) :
    List (VulnerabilityRow × List PassportEntry) :=
  orderBy loc column direction (fun x => x.1.toVulnerabilityColumns)
    (paged.map fun r => (r, passportRollup loc s filtered r.selector))

/-- The live total: the number of selectors. -/
def liveTotal (loc : Sql.Locale) (s : Analytics) : Nat :=
  countDistinct ((filteredFindings loc s).filterMap fun r => r.selector)

/-- The live page. -/
def liveRows (loc : Collation) (s : Analytics) (column : SortColumn) (direction : Direction)
    (limit offset : Int) : List (VulnerabilityRow × List PassportEntry) :=
  let findings := filteredFindings loc.toLocale s
  let aggregated := (aggregatedView loc.toLocale).view findings
  let paged := page limit offset
    (orderBy loc column direction VulnerabilityRow.toVulnerabilityColumns aggregated)
  withPassports loc s column direction (findings.map fun r => (r.selector, r.findingId)) paged

/-- The page of the stored aggregate. -/
def rollupRows (loc : Collation) (s : Analytics) (column : SortColumn) (direction : Direction)
    (limit offset : Int) : List (VulnerabilityRow × List PassportEntry) :=
  let pageRows := page limit offset
    (orderBy loc column direction VulnerabilityRollup.columns s.rollup)
  let paged := pageRows.map (shownRow loc.toLocale s)
  let findings := s.findings.filter fun f =>
    (paged.any fun r => sqlEq f.selector r.selector) && f.valid
  withPassports loc s column direction (findings.map fun f => (f.selector, f.id)) paged

/--
The list without filters, with the stored aggregate or without.  It returns nothing here when the
direction is invalid, or when the sort key is not one that the stored aggregate serves.
-/
def list (loc : Collation) (rollupEnabled : Bool) (query : ListQuery) (s : Analytics) :
    Option ListPage := do
  let column ← sortColumn? query.sortBy
  let direction ← direction? query.sortDir
  let rows :=
    if rollupEnabled then rollupRows loc s column direction query.limit query.offset
    else liveRows loc s column direction query.limit query.offset
  let total :=
    if query.includeTotal then
      if rollupEnabled then s.rollup.length else liveTotal loc.toLocale s
    else 0
  let items := rows.map fun x => decodeVulnerability x.1 x.2 none
  let fixes := fixMap loc s (items.map VulnerabilityItem.selector)
  return {
    total := total
    rows := items.map (attachFixText fixes)
    limit := pageLimit query.limit
    offset := pageOffset query.offset }

/-! ## The totals -/

/-- What the totals read of a finding. -/
structure CountedFinding where
  selector : Option String
  assetId : String
  cve : Option String
  severity : Severity
  severityRank : Nat

/-- The counters of all findings. -/
structure TotalCounts where
  affectedHosts : Nat
  findings : Nat
  uniqueVulnerabilities : Nat
  uniqueCves : Nat
  highRiskHosts : Nat
  unratedVulnerabilities : Nat
deriving DecidableEq, Repr

/-- The counters of one severity. -/
structure SeverityCounts where
  severity : Severity
  findings : Nat
  affectedHosts : Nat
  uniqueVulnerabilities : Nat
deriving DecidableEq, Repr

/-- A severity without findings. -/
def SeverityCounts.zero (severity : Severity) : SeverityCounts where
  severity := severity
  findings := 0
  affectedHosts := 0
  uniqueVulnerabilities := 0

/-- `totals` over the findings, with `vulnerability_rollup` for the unrated ones. -/
def totalCounts (loc : Sql.Locale) (rows : List CountedFinding) : TotalCounts where
  affectedHosts := countDistinct (rows.map CountedFinding.assetId)
  findings := rows.length
  uniqueVulnerabilities := countDistinct (rows.filterMap CountedFinding.selector)
  uniqueCves :=
    countDistinct (rows.filterMap fun r => (nullIfBlank r.cve).map loc.upper)
  highRiskHosts :=
    countDistinct ((rows.filter fun r => decide (r.severityRank ≤ 2)).map CountedFinding.assetId)
  unratedVulnerabilities :=
    (fromKeys (rows.map CountedFinding.selector)).countP fun k =>
      let group := rows.filter fun r => decide (r.selector = k)
      decide (minRank (group.map CountedFinding.severityRank) = 5)

/-- The counters of the findings with a severity. -/
def severityCounts (rows : List CountedFinding) (severity : Severity) : SeverityCounts :=
  let group := rows.filter fun r => decide (r.severity = severity)
  { severity := severity
    findings := group.length
    affectedHosts := countDistinct (group.map CountedFinding.assetId)
    uniqueVulnerabilities := countDistinct (group.filterMap CountedFinding.selector) }

/-- `GROUP BY severity`. -/
def severityGroups (rows : List CountedFinding) : List SeverityCounts :=
  (fromKeys (rows.map CountedFinding.severity)).map (severityCounts rows)

/-! ## The summary -/

/-- `VULNERABILITY_SEVERITIES`; the rank of a severity is its position, from 1 on. -/
def vulnerabilitySeverities : List Severity :=
  [.critical, .high, .medium, .low, .unknown]

/-- A host at the top of the summary; it has no objects, containers and remediation case. -/
structure HostItem where
  assetId : String
  displayName : Option String
  hostname : Option String
  fqdn : Option String
  ipAddress : Option String
  osName : Option String
  osVersion : Option String
  assetType : Option String
  severity : String
  cvssScore : Option Rat
  findingCount : Nat
  uniqueVulnerabilities : Nat
  highRiskVulnerabilities : Nat
  sources : List String
  lastSeen : Option String
deriving DecidableEq

/-- The live aggregate of the findings of one host. -/
def aggregateLiveHost (loc : Sql.Locale) (assetId : String) (rows : List FilteredFinding) :
    HostItem where
  assetId := assetId
  displayName := maxOf loc.le (rows.map fun r => r.card.displayName)
  hostname := maxOf loc.le (rows.map fun r => r.card.hostname)
  fqdn := maxOf loc.le (rows.map fun r => r.card.fqdn)
  ipAddress := maxOf loc.le (rows.map fun r => r.card.ipAddress)
  osName := maxOf loc.le (rows.map fun r => r.card.osName)
  osVersion := maxOf loc.le (rows.map fun r => r.card.osVersion)
  assetType := maxOf loc.le (rows.map fun r => r.card.assetType)
  severity := severityOfRank (minRank (rows.map fun r => r.severityRank))
  cvssScore := maxOf (fun x y => decide (x ≤ y)) (rows.map fun r => r.cvssScore)
  findingCount := rows.length
  uniqueVulnerabilities := countDistinct (rows.filterMap fun r => r.selector)
  highRiskVulnerabilities :=
    countDistinct
      ((rows.filter fun r => decide (r.severityRank ≤ 2)).filterMap fun r => r.selector)
  sources := distinctSorted loc.le (rows.map fun r => r.sourceType)
  lastSeen := maxOf loc.le (rows.map fun r => some r.card.lastSeen)

/-- The hosts with findings. -/
def hostsView (loc : Sql.Locale) : GroupedView FilteredFinding String HostItem where
  key r := r.assetId
  keyOf r := r.assetId
  aggregate := aggregateLiveHost loc
  keyOf_aggregate _ _ := rfl

/-- The counters by which the hosts at the top are ordered. -/
structure HostRank where
  findings : Nat
  highRiskVulnerabilities : Nat
  uniqueVulnerabilities : Nat
  assetId : String

/-- `findings DESC, high_risk_vulnerabilities DESC, unique_vulnerabilities DESC, asset_id`. -/
def HostRank.key (loc : Collation) (r : HostRank) :
    Lex (Natᵒᵈ × Lex (Natᵒᵈ × Lex (Natᵒᵈ × Collated loc))) :=
  toLex (OrderDual.toDual r.findings, toLex (OrderDual.toDual r.highRiskVulnerabilities,
    toLex (OrderDual.toDual r.uniqueVulnerabilities, collate loc r.assetId)))

/-- The rank of a live host. -/
def HostItem.rank (r : HostItem) : HostRank where
  findings := r.findingCount
  highRiskVulnerabilities := r.highRiskVulnerabilities
  uniqueVulnerabilities := r.uniqueVulnerabilities
  assetId := r.assetId

/-- The rank of a stored host. -/
def VulnerabilityHostRollup.rank (r : VulnerabilityHostRollup) : HostRank where
  findings := r.findings
  highRiskVulnerabilities := r.highRiskVulnerabilities
  uniqueVulnerabilities := r.uniqueVulnerabilities
  assetId := r.assetId

/-- A stored host joined with its card. -/
def VulnerabilityHostRollup.item (r : VulnerabilityHostRollup) (card : CardRow) : HostItem where
  assetId := r.assetId
  displayName := card.displayName
  hostname := card.hostname
  fqdn := card.fqdn
  ipAddress := card.ipAddress
  osName := card.osName
  osVersion := card.osVersion
  assetType := card.assetType
  severity := severityOfRank r.severityRank
  cvssScore := r.cvssScore
  findingCount := r.findings
  uniqueVulnerabilities := r.uniqueVulnerabilities
  highRiskVulnerabilities := r.highRiskVulnerabilities
  sources := r.sources
  lastSeen := some card.lastSeen

/-- The pieces of the summary that the findings decide. -/
@[ext]
structure SummaryRows where
  totals : TotalCounts
  severities : List SeverityCounts
  topVulnerabilities : List VulnerabilityRow
  topHosts : List HostItem

/-- What the live queries count of a finding. -/
def FilteredFinding.counted (r : FilteredFinding) : CountedFinding where
  selector := r.selector
  assetId := r.assetId
  cve := r.cveName
  severity := r.severity
  severityRank := r.severityRank

/-- The live pieces of the summary. -/
def liveSummaryRows (loc : Collation) (s : Analytics) : SummaryRows :=
  let findings := filteredFindings loc.toLocale s
  let counted := findings.map FilteredFinding.counted
  let topVulnerabilityKey := fun r : VulnerabilityRow => topKey loc r.toVulnerabilityColumns
  let topHostKey := fun r : HostItem => r.rank.key loc
  { totals := totalCounts loc.toLocale counted
    severities := sortOn (fun r => r.severity.rank) (severityGroups counted)
    topVulnerabilities := sortOn topVulnerabilityKey
      ((sortOn topVulnerabilityKey ((aggregatedView loc.toLocale).view findings)).take 8)
    topHosts := (sortOn topHostKey ((hostsView loc.toLocale).view findings)).take 8 }

/-- The column of a stored host with the number of findings of a severity. -/
def VulnerabilityHostRollup.findingsOf (r : VulnerabilityHostRollup) : Severity → Nat
  | .critical => r.findingsCritical
  | .high => r.findingsHigh
  | .medium => r.findingsMedium
  | .low => r.findingsLow
  | .unknown => r.findingsUnknown

/-- The totals of `_rollup_summary_rows`. -/
def rollupTotals (s : Analytics) : TotalCounts where
  affectedHosts := s.hostRollup.length
  findings := (s.hostRollup.map VulnerabilityHostRollup.findings).sum
  uniqueVulnerabilities := s.rollup.length
  uniqueCves := countDistinct (s.rollup.flatMap fun r => r.cves.getD [])
  highRiskHosts := s.hostRollup.countP fun r => decide (r.severityRank ≤ 2)
  unratedVulnerabilities := s.rollup.countP fun r => decide (r.severityRank = 5)

/-- The counters of one severity in `_rollup_summary_rows`. -/
def rollupSeverityCounts (s : Analytics) (severity : Severity) : SeverityCounts where
  severity := severity
  findings := (s.hostRollup.map fun r => r.findingsOf severity).sum
  affectedHosts := s.hostRollup.countP fun r => decide (0 < r.findingsOf severity)
  uniqueVulnerabilities := s.rollup.countP fun r => decide (severity.rank ∈ r.severityRanks)

/-- `_rollup_summary_rows`. -/
def rollupSummaryRows (loc : Collation) (s : Analytics) : SummaryRows :=
  let topHosts :=
    ((sortOn (fun r => r.rank.key loc) s.hostRollup).take 8).flatMap fun r =>
      (s.cards.filter fun c => decide (c.assetId = r.assetId)).map fun c => (r, c)
  { totals := rollupTotals s
    severities := (vulnerabilitySeverities.map (rollupSeverityCounts s)).filter fun r =>
      decide (0 < r.findings)
    topVulnerabilities := sortOn (fun r => topKey loc r.toVulnerabilityColumns)
      (((sortOn (fun r => topKey loc r.columns) s.rollup).take 8).map (shownRow loc.toLocale s))
    topHosts := (sortOn (fun x => x.1.rank.key loc) topHosts).map fun x => x.1.item x.2 }

/-- What the summary returns. -/
structure Summary where
  hostsTotal : Nat
  totals : TotalCounts
  bySeverity : List SeverityCounts
  coverage : Coverage
  topVulnerabilities : List VulnerabilityItem
  topHosts : List HostItem

/-- The summary without filters, with the stored aggregates or without. -/
def summary (loc : Collation) (rollupEnabled : Bool) (s : Analytics) : Summary :=
  let rows := if rollupEnabled then rollupSummaryRows loc s else liveSummaryRows loc s
  let fixes := fixMap loc s (rows.topVulnerabilities.map fun r => r.selector)
  { hostsTotal := (coverage loc s).cardsTotal
    totals := rows.totals
    bySeverity := rows.severities
    coverage := coverage loc s
    topVulnerabilities := rows.topVulnerabilities.map fun r =>
      decodeVulnerability r [] (cleanText (fixes r.selector))
    topHosts := rows.topHosts }

/-- The counters of a severity; a severity that the summary leaves out counts as zero. -/
def Summary.countsOf (summary : Summary) (severity : Severity) : SeverityCounts :=
  (summary.bySeverity.find? fun r => decide (r.severity = severity)).getD (.zero severity)

/-! ## Snapshots -/

/-- `findings` of a snapshot. -/
def snapshotFindings (loc : Sql.Locale) (s : Analytics) : List CountedFinding :=
  (s.findings.filter FindingRow.valid).flatMap fun f =>
    (s.groups.filter fun g => decide (g.id = f.groupId)).flatMap fun _ =>
      (s.cards.filter fun c => decide (c.assetId = f.assetId)).map fun _ =>
        { selector := f.selector
          assetId := f.assetId
          cve := f.cveName
          severity := severityOf loc f.severity
          severityRank := (severityOf loc f.severity).rank }

/-- The cards with their groups, and a null for a card without groups. -/
def cardGroups (s : Analytics) : List (CardRow × Option GroupRow) :=
  s.cards.flatMap fun c =>
    match s.groups.filter fun g => decide (g.assetId = c.assetId) with
    | [] => [(c, none)]
    | groups => groups.map fun g => (c, some g)

/-- The values of a snapshot, as they are stored and read back. -/
structure Snapshot where
  hostsTotal : Nat
  totals : TotalCounts
  bySeverity : List SeverityCounts
  coverage : Coverage

/-- `CAPTURE_SNAPSHOT_SQL`. -/
def captureSnapshot (loc : Collation) (s : Analytics) : Snapshot :=
  let findings := snapshotFindings loc.toLocale s
  let groups := cardGroups s
  let truncatedGroups := countDistinct
    ((groups.filterMap Prod.snd).filterMap fun g => if g.truncated then some g.id else none)
  let severityRollup := severityGroups findings
  let cardsTotal := countDistinct (groups.map fun x => x.1.assetId)
  { hostsTotal := cardsTotal
    totals := totalCounts loc.toLocale findings
    bySeverity := vulnerabilitySeverities.map fun severity =>
      (severityRollup.find? fun r => decide (r.severity = severity)).getD (.zero severity)
    coverage :=
      { cardsTotal := cardsTotal
        cardsWithFindings := countDistinct (findings.map CountedFinding.assetId)
        truncatedGroups := truncatedGroups
        complete := decide (truncatedGroups = 0)
        oldestAt := minOf loc (groups.map fun x => some x.1.lastSeen)
        freshestAt := maxOf loc.le (groups.map fun x => some x.1.lastSeen) } }

/-- The counters of a severity in a snapshot. -/
def Snapshot.countsOf (snapshot : Snapshot) (severity : Severity) : SeverityCounts :=
  (snapshot.bySeverity.find? fun r => decide (r.severity = severity)).getD (.zero severity)

end Findings
end MpvmApp
