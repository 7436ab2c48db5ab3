import MpvmApp.Findings.Statements
import MpvmApp.Lib.Sorted
import MpvmApp.Passports.Matching

/-!
# What the vulnerability list and the summary share

The list and the summary are read from the findings, or from the two stored aggregates.  Both
ways order, cut and decode their rows alike, and both add the passports and the fix texts of the
rows that they show.

Main definitions:

- Definition `AnalyticsDatabase`: the tables with their constraints.
- Definition `orderBy`: `ORDER BY` of the list.
- Definition `passportRollup`: the passports of a vulnerability on a page.
- Definition `fixMap`: the fix texts of the vulnerabilities that are shown.
- Definition `decodeVulnerability`: a row as it is returned.
-/

namespace MpvmApp
namespace Findings

open Sql
open Passports (Collation Collated)

/-! ## Tables -/

/-- A row of `asset_cards`. -/
structure CardRow where
  assetId : String
  displayName : Option String := none
  hostname : Option String := none
  fqdn : Option String := none
  ipAddress : Option String := none
  osName : Option String := none
  osVersion : Option String := none
  assetType : Option String := none
  lastSeen : String

/-- A row of `vulnerability_passports`; an empty `cves_json` is missing. -/
structure PassportRow where
  internalId : String
  externalId : Option String := none
  name : Option String := none
  severity : Option String := none
  score : Option String := none
  issueTime : Option String := none
  packageId : Option String := none
  packageVersion : Option String := none
  cvesJson : Option Json := none
  rawDetailJson : Option Json := none

/-- A row of `asset_card_vulnerability_passports` with its method. -/
structure MatchedLink extends PassportLink where
  matchMethod : String

/-- The tables that the list and the summary read. -/
structure Analytics extends Store where
  cards : List CardRow
  passports : List PassportRow
  links : List MatchedLink

/-- The constraints of the tables. -/
structure Analytics.Constraints (s : Analytics) : Prop where
  store : s.toStore.Constraints
  cardIds : (s.cards.map CardRow.assetId).Nodup
  groupCards : ∀ g ∈ s.groups, g.assetId ∈ s.cards.map CardRow.assetId
  findingCards : ∀ f ∈ s.findings, f.assetId ∈ s.cards.map CardRow.assetId
  passportIds : (s.passports.map PassportRow.internalId).Nodup
  linkKeys : (s.links.map MatchedLink.toPassportLink).Nodup
  linkFindings : ∀ l ∈ s.links, l.assetVulnerabilityId ∈ s.findings.map FindingRow.id
  linkPassports : ∀ l ∈ s.links, l.passportInternalId ∈ s.passports.map PassportRow.internalId
  rollupKeys : (s.rollup.map VulnerabilityRollup.selector).Nodup
  rollupKeyed : ∀ r ∈ s.rollup, r.selector ≠ none
  hostRollupKeys : (s.hostRollup.map VulnerabilityHostRollup.assetId).Nodup

/-- The tables with their constraints. -/
structure AnalyticsDatabase extends Analytics where
  constraints : toAnalytics.Constraints

/-- `x = y` for nullable texts. -/
def sqlEq (x y : Option String) : Bool :=
  x.isSome && decide (x = y)

@[simp]
theorem sqlEq_some_left {text : String} {y : Option String} :
    sqlEq (some text) y = decide (some text = y) := by
  simp [sqlEq]

/-! ## Columns of a vulnerability -/

/-- The columns that both queries select of a vulnerability, besides `last_seen`. -/
structure VulnerabilityColumns where
  selector : Option String
  vulnerabilityId : Option String
  cve : Option String
  name : Option String
  severity : String
  severityRank : Nat
  cvssScore : Option Rat
  affectedHosts : Nat
  findings : Nat
  affectedObjects : Nat
  components : Option (List String)
  sources : List String
  dockerContainers : Option (List String)
  dockerImages : Option (List String)
deriving DecidableEq

/-- A row of the list, and of the top of the summary. -/
structure VulnerabilityRow extends VulnerabilityColumns where
  lastSeen : Option String
deriving DecidableEq

/-- The severity that a rank stands for. -/
def severityOfRank : Nat → String
  | 1 => "critical"
  | 2 => "high"
  | 3 => "medium"
  | 4 => "low"
  | _ => "unknown"

/-! ## Order and pages -/

/-- The sort keys of the list that the stored aggregate serves. -/
inductive SortColumn where
  | affectedHosts
  | findings
  | severity
  | cvssScore
  | name
  | cve
deriving DecidableEq, Repr

/-- A direction of `ORDER BY`. -/
inductive Direction where
  | asc
  | desc
deriving DecidableEq, Repr

/-- The column of a sort key, if the key is one of `_ROLLUP_SORTS`. -/
def sortColumn? : Option String → Option SortColumn
  | none => some .affectedHosts
  | some "" => some .affectedHosts
  | some "affected_hosts" => some .affectedHosts
  | some "findings" => some .findings
  | some "severity" => some .severity
  | some "cvss_score" => some .cvssScore
  | some "max_cvss" => some .cvssScore
  | some "name" => some .name
  | some "cve" => some .cve
  | some _ => none

/-- The direction of a request; any other text is an error. -/
def direction? (sortDir : Option String) : Option Direction :=
  match ((nullIfEmpty sortDir).getD "desc").toLower with
  | "asc" => some .asc
  | "desc" => some .desc
  | _ => none

/-- A text as the collation orders it. -/
def collate (loc : Collation) (text : String) : Collated loc :=
  ⟨text⟩

/-- `selector ASC`. -/
def selectorKey (loc : Collation) (selector : Option String) : WithTop (Collated loc) :=
  nullsLast (selector.map (collate loc))

section Order

variable {α : Type}

/-- `ORDER BY value direction NULLS LAST, selector ASC`. -/
def orderByValue {β : Type} [LinearOrder β] (loc : Collation) (direction : Direction)
    (value : α → Option β) (selector : α → Option String) (rows : List α) : List α :=
  match direction with
  | .asc => sortOn (fun r => toLex (nullsLast (value r), selectorKey loc (selector r))) rows
  | .desc =>
      sortOn
        (fun r => toLex (nullsLast ((value r).map OrderDual.toDual), selectorKey loc (selector r)))
        rows

/-- `LOWER(COALESCE(name, cve, selector))`. -/
def nameKey (loc : Collation) (r : VulnerabilityColumns) : Option (Collated loc) :=
  (coalesce r.name (coalesce r.cve r.selector)).map fun text => collate loc (loc.lower text)

/-- `LOWER(COALESCE(cve, ''))`. -/
def cveKey (loc : Collation) (r : VulnerabilityColumns) : Collated loc :=
  collate loc (loc.lower (r.cve.getD ""))

/-- `ORDER BY` of the list, for rows with the columns of a vulnerability. -/
def orderBy (loc : Collation) (column : SortColumn) (direction : Direction)
    (columns : α → VulnerabilityColumns) (rows : List α) : List α :=
  let selector := fun r => (columns r).selector
  match column with
  | .affectedHosts =>
      orderByValue loc direction (fun r => some (columns r).affectedHosts) selector rows
  | .findings => orderByValue loc direction (fun r => some (columns r).findings) selector rows
  | .severity => orderByValue loc direction (fun r => some (columns r).severityRank) selector rows
  | .cvssScore => orderByValue loc direction (fun r => (columns r).cvssScore) selector rows
  | .name => orderByValue loc direction (fun r => nameKey loc (columns r)) selector rows
  | .cve => orderByValue loc direction (fun r => some (cveKey loc (columns r))) selector rows

/-- The key of `ORDER BY affected_hosts DESC, findings DESC, selector ASC`. -/
def topKey (loc : Collation) (r : VulnerabilityColumns) :
    Lex (Natᵒᵈ × Lex (Natᵒᵈ × WithTop (Collated loc))) :=
  toLex (OrderDual.toDual r.affectedHosts,
    toLex (OrderDual.toDual r.findings, selectorKey loc r.selector))

/-- `_page_bounds` of a limit. -/
def pageLimit (limit : Int) : Nat :=
  (max 1 (min limit 500)).toNat

/-- `_page_bounds` of an offset. -/
def pageOffset (offset : Int) : Nat :=
  (max 0 offset).toNat

/-- `LIMIT limit OFFSET offset`. -/
def page (limit offset : Int) (rows : List α) : List α :=
  (rows.drop (pageOffset offset)).take (pageLimit limit)

end Order

/-! ## Passports of a page -/

/-- The text of a member, if the member is a string. -/
def stringMember (document : Option Json) (key : String) : Option String :=
  match document.bind (Json.member? key) with
  | some (.str text) => some text
  | _ => none

/-- `document #>> path`, null for a missing document. -/
def pathMember (document : Option Json) (path : List String) : Option String :=
  document.bind fun json => json.pathText path

/-- `COALESCE` of texts of which the empty ones count as null. -/
def firstText (texts : List (Option String)) : Option String :=
  (texts.map nullIfEmpty).foldr coalesce none

/-- `short_description` of a passport. -/
def shortDescription (detail : Option Json) : Option String :=
  firstText
    [stringMember detail "description",
      pathMember detail ["description", "text"],
      pathMember detail ["description", "description"],
      stringMember detail "vulnerabilityDescription",
      pathMember detail ["vulnerabilityDescription", "text"],
      pathMember detail ["details", "description"],
      stringMember detail "localizedDescription",
      pathMember detail ["localizedDescription", "text"]]

/-- An element of `passports`. -/
structure PassportEntry where
  internalId : String
  externalId : Option String
  name : Option String
  severity : Option String
  score : Option String
  issueTime : Option String
  packageId : Option String
  packageVersion : Option String
  cves : Json
  shortDescription : Option String
  hasDetail : Bool

/-- The object that `JSONB_BUILD_OBJECT` builds of a passport. -/
def PassportRow.entry (passport : PassportRow) : PassportEntry where
  internalId := passport.internalId
  externalId := passport.externalId
  name := passport.name
  severity := passport.severity
  score := passport.score
  issueTime := passport.issueTime
  packageId := passport.packageId
  packageVersion := passport.packageVersion
  cves := passport.cvesJson.getD (.arr [])
  shortDescription := Findings.shortDescription passport.rawDetailJson
  hasDetail := passport.rawDetailJson.isSome

/-- A match by the id comes first. -/
def MatchedLink.priority (link : MatchedLink) : Nat :=
  if link.matchMethod = "vulner_id" then 0 else 1

/-- The passports that are linked to one of the findings, each with its link. -/
def linkedPassports (s : Analytics) (findingIds : List Nat) : List (PassportRow × MatchedLink) :=
  findingIds.flatMap fun id =>
    (s.links.filter fun l => decide (l.assetVulnerabilityId = id)).flatMap fun l =>
      (s.passports.filter fun p => decide (p.internalId = l.passportInternalId)).map fun p => (p, l)

/--
`mapped_passports` of one vulnerability: the passports with their priorities.  The query
groups by the columns of the passport, which its id determines.
-/
def mappedPassports (s : Analytics) (findingIds : List Nat) : List (PassportRow × Nat) :=
  let linked := linkedPassports s findingIds
  (fromKeys (linked.map fun x => x.1.internalId)).filterMap fun internalId =>
    let group := linked.filter fun x => decide (x.1.internalId = internalId)
    group.head?.map fun first =>
      (first.1, (group.map fun x => x.2.priority).foldl min first.2.priority)

/--
`passport_rollup` of one vulnerability on a page; `filtered` has the selectors and ids of
the findings behind the page.
-/
def passportRollup (loc : Collation) (s : Analytics) (filtered : List (Option String × Nat))
    (selector : Option String) : List PassportEntry :=
  let findingIds := (filtered.filter fun x => sqlEq selector x.1).map Prod.snd
  let ordered := sortOn (fun x => toLex (x.2, collate loc x.1.internalId))
    (mappedPassports s findingIds)
  ordered.map fun x => x.1.entry

/-! ## Fix texts -/

/-- `_PASSPORT_FIX_KEYS`. -/
def passportFixKeys : List String :=
  ["howToFix", "solution", "recommendation", "remediation", "fixDescription"]

/-- `_passport_fix_sql`. -/
def passportFix (detail : Option Json) : Option String :=
  firstText (passportFixKeys.flatMap fun key =>
    [stringMember detail key, pathMember detail [key, "text"],
      pathMember detail [key, "description"]])

/-- The rows of `_fix_text_query` before they are grouped. -/
def fixFindings (s : Analytics) (selectors : List String) : List (Option String × Option String) :=
  let findings := s.findings.filter fun f =>
    f.valid && selectors.any fun selector => decide (f.selector = some selector)
  findings.flatMap fun f =>
    (s.groups.filter fun g => decide (g.id = f.groupId)).flatMap fun _ =>
      (linkedPassports s [f.id]).map fun x => (f.selector, passportFix x.1.rawDetailJson)

/-- The fix texts of the vulnerabilities that are shown; those without a selector have none. -/
def fixMap (loc : Collation) (s : Analytics) (shown : List (Option String))
    (selector : Option String) : Option String :=
  let selectors := fromKeys (shown.reduceOption.filter fun text => decide (text ≠ ""))
  let group := (fixFindings s selectors).filter fun x => decide (x.1 = selector)
  maxOf loc.le (group.map Prod.snd)

/-! ## Decoded rows -/

/-- A vulnerability as it is returned. -/
structure VulnerabilityItem where
  selector : Option String
  vulnerabilityId : Option String
  cve : Option String
  name : Option String
  severity : String
  cvssScore : Option Rat
  maxCvss : Option Rat
  affectedHosts : Nat
  findings : Nat
  affectedObjects : Nat
  components : List String
  sources : List String
  dockerContainers : List String
  dockerImages : List String
  passports : List PassportEntry
  shortDescription : Option String
  howToFix : Option String
  hasFix : Bool
  lastSeen : Option String

/-- `_decode_vulnerability`. -/
def decodeVulnerability (row : VulnerabilityRow) (passports : List PassportEntry)
    (howToFix : Option String) : VulnerabilityItem where
  selector := row.selector
  vulnerabilityId := row.vulnerabilityId
  cve := row.cve
  name := row.name
  severity := row.severity
  cvssScore := row.cvssScore
  maxCvss := row.cvssScore
  affectedHosts := row.affectedHosts
  findings := row.findings
  affectedObjects := row.affectedObjects
  components := row.components.getD []
  sources := row.sources
  dockerContainers := row.dockerContainers.getD []
  dockerImages := row.dockerImages.getD []
  passports := passports
  shortDescription := (passports.filterMap fun p => nullIfEmpty p.shortDescription).head?.map strip
  howToFix := cleanText howToFix
  hasFix := (cleanText howToFix).isSome
  lastSeen := row.lastSeen

/-- `_attach_fix_text`. -/
def attachFixText (fixes : Option String → Option String) (item : VulnerabilityItem) :
    VulnerabilityItem :=
  { item with
    howToFix := cleanText (fixes item.selector)
    hasFix := (cleanText (fixes item.selector)).isSome }

/-! ## Coverage -/

/-- `MIN(x)` over the values that are not null. -/
def minOf (loc : Collation) (values : List (Option String)) : Option String :=
  maxOf (fun x y => loc.le y x) values

/-- What the cards cover. -/
structure Coverage where
  cardsTotal : Nat
  cardsWithFindings : Nat
  truncatedGroups : Nat
  complete : Bool
  oldestAt : Option String
  freshestAt : Option String
deriving DecidableEq

/-- The coverage that the summary shows. -/
def coverage (loc : Collation) (s : Analytics) : Coverage :=
  let truncatedGroups := s.groups.flatMap fun g =>
    if g.truncated then s.cards.filter fun card => decide (card.assetId = g.assetId) else []
  { cardsTotal := s.cards.length
    cardsWithFindings := s.cards.countP fun card =>
      s.groups.any fun g => decide (g.assetId = card.assetId) &&
        s.findings.any fun f => decide (f.groupId = g.id) && f.valid
    truncatedGroups := truncatedGroups.length
    complete := decide (truncatedGroups.length = 0)
    oldestAt := minOf loc (s.cards.map fun card => some card.lastSeen)
    freshestAt := maxOf loc.le (s.cards.map fun card => some card.lastSeen) }

end Findings
end MpvmApp
