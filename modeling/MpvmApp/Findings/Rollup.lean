import Mathlib.Data.List.Sort
import Mathlib.Data.Rat.Defs
import Mathlib.Algebra.Order.Ring.Rat
import MpvmApp.Findings.Schema
import MpvmApp.Lib.GroupedView

/-!
# Selectors and aggregates of the findings

The formula of the selector, the joined rows of valid findings and the two
aggregates over them: one row for each selector and one row for each host.

Main definitions:

- `vulnerabilitySelector`: the identity of a vulnerability across hosts.
- `vulnerabilityRollupSource`, `vulnerabilityHostRollupSource`: the source views
  of the two stored aggregates.

Main results:

- Theorem `selectorIn_ne_none`: a valid finding of a stored group has a
  selector.
- Theorem `group_joinedFindings`: the rows of a view under a key come
  from the valid findings with this key.
-/

namespace MpvmApp
namespace Findings

open Sql

/-! ## Selectors -/

/-- The suffix that keeps the vulnerabilities of containers apart. -/
def dockerSuffix (sourceType : Option String) : String :=
  if sourceType = some "docker" then "|source:docker" else ""

/--
The selector of a finding.  The arguments of the group are null when it is
missing, and so is every concatenation with them.
-/
def vulnerabilitySelector (loc : Sql.Locale)
    (vulnerabilityId cveName name instanceId sourceType groupName : Option String) :
    Option String :=
  match nullIfBlank vulnerabilityId, nullIfBlank cveName, nullIfBlank name with
  | some identifier, _, _ => some ("id:" ++ identifier ++ dockerSuffix sourceType)
  | none, some cve, _ => some ("cve:" ++ loc.upper cve ++ dockerSuffix sourceType)
  | none, none, some title =>
      sourceType.map fun source =>
        "name:" ++ loc.lower (collapseSpaces loc title) ++ "|source:" ++ source ++ "|object:" ++
          loc.lower (collapseSpaces loc (trim (groupName.getD "")))
  | none, none, none => instanceId.map fun i => "instance:" ++ trim i

/-- A finding is valid when it has an identity. -/
def FindingRow.valid (finding : FindingRow) : Bool :=
  (coalesce (nullIfBlank finding.vulnerabilityId)
    (coalesce (nullIfBlank finding.cveName)
      (coalesce (nullIfBlank finding.name)
        (nullIfBlank finding.vulnerabilityInstanceId)))).isSome

/-- The selector of a finding in a group. -/
def FindingRow.selectorIn (loc : Sql.Locale) (finding : FindingRow) (group : Option GroupRow) :
    Option String :=
  vulnerabilitySelector loc finding.vulnerabilityId finding.cveName finding.name
    finding.vulnerabilityInstanceId (group.map GroupRow.sourceType) (group.bind GroupRow.name)

/-- A valid finding of a stored group has a selector. -/
theorem selectorIn_ne_none (loc : Sql.Locale) {finding : FindingRow} {group : GroupRow}
    (hvalid : finding.valid = true) :
    finding.selectorIn loc (some group) ≠ none := by
  unfold FindingRow.selectorIn vulnerabilitySelector
  unfold FindingRow.valid at hvalid
  cases hid : nullIfBlank finding.vulnerabilityId with
  | some identifier => simp
  | none =>
      cases hcve : nullIfBlank finding.cveName with
      | some cve => simp
      | none =>
          cases hname : nullIfBlank finding.name with
          | some title => simp
          | none =>
              rw [hid, hcve, hname] at hvalid
              simp only [coalesce_none_left] at hvalid
              cases hinst : finding.vulnerabilityInstanceId with
              | none =>
                  rw [hinst] at hvalid
                  exact absurd hvalid (by decide)
              | some i => simp

/-! ## Joined rows -/

/-- The name of the container of a finding, for groups of containers only. -/
def containerName (finding : FindingRow) (group : GroupRow) : Option String :=
  if group.sourceType = "docker" then
    coalesce (nullIfEmpty (finding.vulnerabilityJson.getText "container_name"))
      (coalesce
        (nullIfEmpty (finding.vulnerabilityJson.pathText ["docker_container", "container_name"]))
        (coalesce (nullIfEmpty (group.groupJson.getText "container_name"))
          (nullIfEmpty group.name)))
  else
    none

/-- The name of the image of a finding, for groups of containers only. -/
def imageName (finding : FindingRow) (group : GroupRow) : Option String :=
  if group.sourceType = "docker" then
    coalesce (nullIfEmpty (finding.vulnerabilityJson.pathText ["docker_image", "image_name"]))
      (coalesce (nullIfEmpty (group.groupJson.getText "image_name"))
        (coalesce (nullIfEmpty (finding.vulnerabilityJson.getText "image_id"))
          (nullIfEmpty (finding.vulnerabilityJson.pathText ["docker_image", "image_key"]))))
  else
    none

/-- What the aggregates read of a finding and its group. -/
structure JoinedFinding where
  selector : Option String
  assetId : String
  vulnerabilityId : Option String
  cveName : Option String
  name : Option String
  severityRank : Nat
  cvssScore : Option Rat
  groupId : Nat
  groupName : Option String
  sourceType : String
  containerName : Option String
  imageName : Option String
deriving DecidableEq

/-- One row of the join. -/
def joinRow (loc : Sql.Locale) (finding : FindingRow) (group : GroupRow) : JoinedFinding where
  selector := finding.selector
  assetId := finding.assetId
  vulnerabilityId := finding.vulnerabilityId
  cveName := finding.cveName
  name := finding.name
  severityRank := (severityOf loc finding.severity).rank
  cvssScore := finding.cvssScore
  groupId := group.id
  groupName := group.name
  sourceType := group.sourceType
  containerName := containerName finding group
  imageName := imageName finding group

/-- The joined rows of one finding. -/
def joinGroups (loc : Sql.Locale) (groups : List GroupRow) (finding : FindingRow) :
    List JoinedFinding :=
  (groups.filter fun g => decide (g.id = finding.groupId)).map (joinRow loc finding)

/-- The joined rows of the valid findings. -/
def joinedFindings (loc : Sql.Locale) (groups : List GroupRow) (findings : List FindingRow) :
    List JoinedFinding :=
  (findings.filter FindingRow.valid).flatMap (joinGroups loc groups)

/-! ## Aggregates -/

/-- `MAX(x)` over the values that are not null. -/
def maxOf {α : Type} (le : α → α → Bool) (values : List (Option α)) : Option α :=
  values.reduceOption.foldl
    (fun best x => match best with
      | some y => if le y x then some x else best
      | none => some x)
    none

/-- `MIN` of severity ranks, none of which exceeds 5. -/
def minRank (ranks : List Nat) : Nat :=
  ranks.foldl min 5

/-- `COUNT(DISTINCT x)`. -/
def countDistinct {α : Type} [DecidableEq α] (values : List α) : Nat :=
  (fromKeys values).length

/-- `ARRAY_AGG(DISTINCT x ORDER BY x)` over at least one row. -/
def distinctSorted {α : Type} [DecidableEq α] (le : α → α → Bool) (values : List α) : List α :=
  (fromKeys values).insertionSort fun a b => le a b = true

/-- `ARRAY_AGG(DISTINCT x ORDER BY x)` over the rows left by a filter, null without rows. -/
def arrayAgg (le : String → String → Bool) (values : List (Option String)) :
    Option (List String) :=
  match values.reduceOption with
  | [] => none
  | texts => some (distinctSorted le texts)

/-- A row of `vulnerability_rollup` and of its source view. -/
structure VulnerabilityRollup where
  selector : Option String
  vulnerabilityId : Option String
  cve : Option String
  name : Option String
  severityRank : Nat
  cvssScore : Option Rat
  affectedHosts : Nat
  findings : Nat
  affectedObjects : Nat
  components : Option (List String)
  sources : List String
  dockerContainers : Option (List String)
  dockerImages : Option (List String)
  severityRanks : List Nat
  cves : Option (List String)
deriving DecidableEq

/-- The aggregate of the findings with one selector. -/
def aggregateSelector (loc : Sql.Locale) (selector : Option String) (rows : List JoinedFinding) :
    VulnerabilityRollup where
  selector := selector
  vulnerabilityId := maxOf loc.le (rows.map fun r => nullIfEmpty r.vulnerabilityId)
  cve := maxOf loc.le (rows.map fun r => nullIfEmpty r.cveName)
  name := maxOf loc.le (rows.map fun r => nullIfEmpty r.name)
  severityRank := minRank (rows.map JoinedFinding.severityRank)
  cvssScore := maxOf (fun x y => decide (x ≤ y)) (rows.map JoinedFinding.cvssScore)
  affectedHosts := countDistinct (rows.map JoinedFinding.assetId)
  findings := rows.length
  affectedObjects := countDistinct (rows.map JoinedFinding.groupId)
  components := arrayAgg loc.le (rows.map fun r => nullIfEmpty r.groupName)
  sources := distinctSorted loc.le (rows.map JoinedFinding.sourceType)
  dockerContainers := arrayAgg loc.le (rows.map JoinedFinding.containerName)
  dockerImages := arrayAgg loc.le (rows.map JoinedFinding.imageName)
  severityRanks := distinctSorted (fun x y => decide (x ≤ y)) (rows.map JoinedFinding.severityRank)
  cves := arrayAgg loc.le (rows.map fun r => (nullIfBlank r.cveName).map loc.upper)

/-- The view `vulnerability_rollup_source`. -/
def vulnerabilityRollupSource (loc : Sql.Locale) :
    GroupedView JoinedFinding (Option String) VulnerabilityRollup where
  key := JoinedFinding.selector
  keyOf := VulnerabilityRollup.selector
  aggregate := aggregateSelector loc
  keyOf_aggregate _ _ := rfl

/-- A row of `vulnerability_host_rollup` and of its source view. -/
structure VulnerabilityHostRollup where
  assetId : String
  findings : Nat
  uniqueVulnerabilities : Nat
  highRiskVulnerabilities : Nat
  severityRank : Nat
  cvssScore : Option Rat
  sources : List String
  findingsCritical : Nat
  findingsHigh : Nat
  findingsMedium : Nat
  findingsLow : Nat
  findingsUnknown : Nat
deriving DecidableEq

/-- How many findings of one host have a severity rank. -/
def countRank (rows : List JoinedFinding) (rank : Nat) : Nat :=
  (rows.filter fun r => decide (r.severityRank = rank)).length

/-- The aggregate of the findings of one host. -/
def aggregateHost (loc : Sql.Locale) (assetId : String) (rows : List JoinedFinding) :
    VulnerabilityHostRollup where
  assetId := assetId
  findings := rows.length
  uniqueVulnerabilities := countDistinct (rows.filterMap JoinedFinding.selector)
  highRiskVulnerabilities :=
    countDistinct
      ((rows.filter fun r => decide (r.severityRank ≤ 2)).filterMap JoinedFinding.selector)
  severityRank := minRank (rows.map JoinedFinding.severityRank)
  cvssScore := maxOf (fun x y => decide (x ≤ y)) (rows.map JoinedFinding.cvssScore)
  sources := distinctSorted loc.le (rows.map JoinedFinding.sourceType)
  findingsCritical := countRank rows 1
  findingsHigh := countRank rows 2
  findingsMedium := countRank rows 3
  findingsLow := countRank rows 4
  findingsUnknown := countRank rows 5

/-- The view `vulnerability_host_rollup_source`. -/
def vulnerabilityHostRollupSource (loc : Sql.Locale) :
    GroupedView JoinedFinding String VulnerabilityHostRollup where
  key := JoinedFinding.assetId
  keyOf := VulnerabilityHostRollup.assetId
  aggregate := aggregateHost loc
  keyOf_aggregate _ _ := rfl

/-! ## Rows under a key -/

/-- A valid finding with the key `k`. -/
def FindingRow.validAt {κ : Type} [DecidableEq κ] (key : FindingRow → κ) (k : κ)
    (finding : FindingRow) : Bool :=
  finding.valid && decide (key finding = k)

/--
The rows of a view under a key come from the valid findings with this key, when
the key of a joined row is read off the finding.
-/
theorem group_joinedFindings {κ ν : Type} [DecidableEq κ] {G : GroupedView JoinedFinding κ ν}
    {loc : Sql.Locale} {key : FindingRow → κ} (hkey : ∀ f g, G.key (joinRow loc f g) = key f)
    (groups : List GroupRow) (findings : List FindingRow) (k : κ) :
    G.group (joinedFindings loc groups findings) k =
      (findings.filter (FindingRow.validAt key k)).flatMap (joinGroups loc groups) := by
  have hrows (f : FindingRow) :
      (joinGroups loc groups f).filter (fun r => decide (G.key r = k)) =
        if key f = k then joinGroups loc groups f else [] := by
    unfold joinGroups
    rw [List.filter_map]
    by_cases hf : key f = k <;> simp [Function.comp_def, hkey, hf]
  unfold GroupedView.group joinedFindings
  induction findings with
  | nil => rfl
  | cons f fs ih =>
      by_cases hvalid : f.valid = true <;> by_cases hf : key f = k <;>
        simp [FindingRow.validAt, hvalid, hf, hrows, ih]

end Findings
end MpvmApp
