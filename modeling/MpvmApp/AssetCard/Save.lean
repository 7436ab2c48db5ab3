import MpvmApp.AssetCard.Docker
import MpvmApp.Findings.Statements
import MpvmApp.Remediation.Service

/-!
# Save of an asset card and its reconciliation

A built snapshot replaces the stored groups and findings of its asset, and the
reconciliation of the cases follows.  A save that violates a constraint is rolled
back, and no reconciliation follows it.

Main definitions:

- `buildSnapshot`: the three sources of a card.
- `iterGroups`, `deduplicateFindings`: what the save stores of them.
- `saveCard`: the transaction of the save.
- `refreshCard`: build, save and reconciliation.

Main results:

- Theorem `saves_of_saveCard`: the tables after a save that is not rolled back.
-/

namespace MpvmApp
namespace AssetCard

open Sql Findings Remediation

/-- The groups of a snapshot by source. -/
abbrev Snapshot := List (SourceType × List Group)

/-- `build_asset_vulnerability_snapshot`; a cancelled build is not saved. -/
def buildSnapshot (request : BuildRequest) (answers : Answers) : Except String Snapshot :=
  if answers.cancelled then .error "Asset card build was cancelled."
  else
    let software := widgetGroups request answers .software
    let (retained, containers) := buildDockerSource request answers software
    .ok [(.os, widgetGroups request answers .os), (.software, retained), (.docker, containers)]

/-! ## Rows of a snapshot -/

/-- `clean_value` of a text. -/
def cleanValue (value : String) : Option String :=
  nullIfEmpty (some (strip value))

/-- `clean_value` of a value that may be missing. -/
def cleanOption (value : Option String) : Option String :=
  value.bind cleanValue

/-- `iter_asset_card_vulnerability_groups`: the groups with a collection id. -/
def iterGroups (snapshot : Snapshot) : List (SourceType × Group) :=
  snapshot.flatMap fun (source, groups) =>
    groups.filterMap fun group =>
      (cleanValue group.collectionId).map fun identifier =>
        (source, { group with collectionId := identifier })

/-- Keep the first finding with each instance id that is not blank. -/
def keepFirst {α : Type} : List String → List (α × Finding) → List (α × Finding)
  | _, [] => []
  | seen, (group, finding) :: rest =>
      match cleanValue finding.vulnerabilityInstanceId with
      | none => (group, finding) :: keepFirst seen rest
      | some instanceId =>
          if instanceId ∈ seen then keepFirst seen rest
          else (group, finding) :: keepFirst (instanceId :: seen) rest

/-- `deduplicate_asset_card_vulnerability_findings`, over the groups with their ids. -/
def deduplicateFindings (groups : List ((SourceType × Group) × Nat)) :
    List (((SourceType × Group) × Nat) × Finding) :=
  keepFirst [] (groups.flatMap fun stored => stored.1.2.items.map fun finding => (stored, finding))

/-- The members of `group_json` that the aggregates read. -/
def groupDocument (group : Group) : Json :=
  .obj
    ((group.image.toList.map fun image => ("image_name", .str image.imageName)) ++
      group.container.toList.map fun container => ("container_name", .str container.containerName))

/-- The members of `vulnerability_json` that the aggregates read. -/
def findingDocument (finding : Finding) : Json :=
  .obj
    ([("container_name", .str finding.containerName), ("image_id", .str finding.imageId)] ++
      (finding.dockerImage.toList.map fun image =>
        ("docker_image",
          .obj [("image_name", .str image.imageName), ("image_key", .str image.imageKey)])) ++
      finding.dockerContainer.toList.map fun container =>
        ("docker_container", .obj [("container_name", .str container.containerName)]))

/-- The row of a group. -/
def groupRow (assetId : String) (stored : (SourceType × Group) × Nat) : GroupRow where
  id := stored.2
  assetId := assetId
  sourceType := stored.1.1.name
  collectionType := stored.1.1.collectionType
  collectionId := stored.1.2.collectionId
  name := cleanValue stored.1.2.name
  severity := cleanOption stored.1.2.level
  vulnerabilityCount := stored.1.2.vulnerabilitiesCount.num.tdiv stored.1.2.vulnerabilitiesCount.den
  cvssScore := stored.1.2.cvssScore
  groupOrder := stored.1.2.order
  truncated := stored.1.2.truncated
  groupJson := groupDocument stored.1.2

/-- The row of a finding; the trigger fills in its selector. -/
def findingRow (assetId : String) (groupId : Nat) (finding : Finding) (id : Nat) : FindingRow where
  id := id
  assetId := assetId
  groupId := groupId
  vulnerabilityInstanceId := cleanValue finding.vulnerabilityInstanceId
  vulnerabilityId := cleanValue finding.vulnerabilityId
  objectId := cleanValue finding.objectId
  cveName := cleanValue finding.cveName
  name := cleanValue finding.name
  severity := cleanOption finding.level
  cvssScore := finding.cvssScore
  descriptionKey := cleanValue finding.descriptionKey
  vulnerabilityJson := findingDocument finding
  selector := none

/-- The next value of a sequence of ids. -/
def nextId (ids : List Nat) : Nat :=
  ids.foldl max 0 + 1

/-- The groups to store, each with its id. -/
def numberedGroups (base : Nat) (snapshot : Snapshot) : List ((SourceType × Group) × Nat) :=
  (iterGroups snapshot).zipIdx base

/-- The finding rows of a snapshot. -/
def findingRows (assetId : String) (groupBase findingBase : Nat) (snapshot : Snapshot) :
    List FindingRow :=
  ((deduplicateFindings (numberedGroups groupBase snapshot)).zipIdx findingBase).map
    fun ((stored, finding), id) => findingRow assetId stored.2 finding id

/-! ## Save -/

/-- A statement of the transaction; a violated constraint ends it. -/
def saveStatement (loc : Sql.Locale) (s : Store) (stmt : Findings.Statement) : Option Store :=
  if (stmt.apply loc s).Constraints then some (stmt.apply loc s) else none

/-- The row of the card is inserted, or gets a new `last_seen`. -/
def touchCard (assetId : String) (savedAt : Instant) (cards : List AssetCard) : List AssetCard :=
  if cards.any fun card => decide (card.assetId = assetId) then
    cards.map fun card =>
      if card.assetId = assetId then { card with lastSeen := some savedAt } else card
  else
    cards ++ [{ assetId := assetId, lastSeen := some savedAt }]

/-- The passport links of the asset are made anew; those of other assets stay. -/
def relink (passports : FindingRow → List String) (assetId : String) (findings : List FindingRow)
    (links : List PassportLink) : List PassportLink :=
  let own := findings.filter fun f => decide (f.assetId = assetId)
  let others := findings.filter fun f => !decide (f.assetId = assetId)
  (links.filter fun link => others.any fun f => decide (f.id = link.assetVulnerabilityId)) ++
    own.flatMap fun f => (passports f).map fun internalId => ⟨f.id, internalId⟩

/-- The save of a card; `none` is a violated constraint. -/
def saveCard (loc : Sql.Locale) (passports : FindingRow → List String) (assetId : String)
    (savedAt : Instant) (snapshot : Snapshot) (db : Remediation.Database) :
    Option Remediation.Database :=
  let groupBase := nextId (db.groups.map GroupRow.id)
  let findingBase := nextId (db.findings.map FindingRow.id)
  let statements := replaceAssetCardCache assetId
    ((numberedGroups groupBase snapshot).map (groupRow assetId))
    (findingRows assetId groupBase findingBase snapshot)
  let store : Store := ⟨db.groups, db.findings, [], []⟩
  (statements.foldlM (saveStatement loc) store).map fun s =>
    { db with
      cards := touchCard assetId savedAt db.cards
      groups := s.groups
      findings := s.findings
      links := relink passports assetId s.findings db.links }

/-! ## Refresh -/

/-- What a refresh of a card depends on besides the answers of the remote system. -/
structure RefreshContext where
  settings : Settings
  /-- The passports that the catalogue has for a finding. -/
  passports : FindingRow → List String
  savedAt : Instant
  reconciledAt : Instant

/--
The build of a card, its save and the reconciliation that follows it.  Without a
save nothing changes.
-/
def refreshCard (ctx : RefreshContext) (request : BuildRequest) (answers : Answers)
    (db : Remediation.Database) : Remediation.Database :=
  match buildSnapshot request answers with
  | .error _ => db
  | .ok snapshot =>
      match saveCard ctx.settings.locale ctx.passports request.assetId ctx.savedAt snapshot db with
      | none => db
      | some saved => step ctx.settings saved (.reconcile request.assetId ctx.reconciledAt)

/-! ## Rows of a saved card -/

@[simp]
theorem groups_vulnerabilityRollupSync (loc : Sql.Locale) (changed : List FindingRow) (s : Store) :
    (vulnerabilityRollupSync loc changed s).groups = s.groups :=
  rfl

@[simp]
theorem findings_vulnerabilityRollupSync (loc : Sql.Locale) (changed : List FindingRow) (s : Store) :
    (vulnerabilityRollupSync loc changed s).findings = s.findings :=
  rfl

theorem constraints_of_tables {s s' : Store} (h : s.Constraints)
    (hgroups : s'.groups = s.groups) (hfindings : s'.findings = s.findings) :
    s'.Constraints := by
  refine ⟨?_, ?_, ?_, ?_, ?_⟩
  · rw [hgroups]
    exact h.groupIds
  · rw [hgroups]
    exact h.groupKeys
  · rw [hfindings]
    exact h.findingIds
  · rw [hfindings]
    exact h.findingKeys
  · rw [hgroups, hfindings]
    exact h.references

theorem saveStatement_eq_some {loc : Sql.Locale} {s s' : Store} {stmt : Findings.Statement}
    (h : saveStatement loc s stmt = some s') :
    s' = stmt.apply loc s ∧ s'.Constraints := by
  unfold saveStatement at h
  split at h
  · rename_i hconstraints
    cases h
    exact ⟨rfl, hconstraints⟩
  · cases h

/-- The tables after a save, and the parts of the database that it leaves alone. -/
structure Saves (loc : Sql.Locale) (assetId : String) (savedAt : Instant) (snapshot : Snapshot)
    (db saved : Remediation.Database) : Prop where
  groups : ∃ base, saved.groups =
    (db.groups.filter fun g => !decide (g.assetId = assetId)) ++
      (numberedGroups base snapshot).map (groupRow assetId)
  findings : ∃ old base findingBase, old.Sublist db.findings ∧
    saved.findings =
      old ++ (findingRows assetId base findingBase snapshot).map (selectorSync loc saved.groups)
  cards : saved.cards = touchCard assetId savedAt db.cards
  cases : saved.cases = db.cases
  policy : saved.policy = db.policy
  constraints : (⟨saved.groups, saved.findings, [], []⟩ : Store).Constraints

/-- What a save that is not rolled back does. -/
theorem saves_of_saveCard {loc : Sql.Locale} {passports : FindingRow → List String}
    {assetId : String} {savedAt : Instant} {snapshot : Snapshot}
    {db saved : Remediation.Database}
    (h : saveCard loc passports assetId savedAt snapshot db = some saved) :
    Saves loc assetId savedAt snapshot db saved := by
  obtain ⟨s₃, hfold, rfl⟩ := Option.map_eq_some_iff.1 h
  simp only [replaceAssetCardCache, List.foldlM_cons, List.foldlM_nil, Option.bind_eq_bind,
    Option.bind_eq_some_iff, Option.pure_def, Option.some.injEq] at hfold
  obtain ⟨s₁, hdelete, s₂, hgroups, s₃', hfindings, rfl⟩ := hfold
  obtain ⟨rfl, _⟩ := saveStatement_eq_some hdelete
  obtain ⟨rfl, _⟩ := saveStatement_eq_some hgroups
  obtain ⟨rfl, hconstraints⟩ := saveStatement_eq_some hfindings
  exact {
    groups := ⟨_, rfl⟩
    findings := ⟨_, _, _, List.filter_sublist, rfl⟩
    cards := rfl
    cases := rfl
    policy := rfl
    constraints := constraints_of_tables hconstraints rfl rfl }

/-- The card of a saved asset was seen at the save. -/
theorem find?_touchCard (assetId : String) (savedAt : Instant) (cards : List AssetCard) :
    ∃ card, (touchCard assetId savedAt cards).find? (fun card => decide (card.assetId = assetId)) =
        some card ∧ card.lastSeen = some savedAt := by
  unfold touchCard
  split
  · rename_i hany
    obtain ⟨card, hcard, hid⟩ := List.any_eq_true.1 hany
    have hsome : (cards.find? fun card => decide (card.assetId = assetId)).isSome :=
      List.find?_isSome.2 ⟨card, hcard, hid⟩
    obtain ⟨first, hfirst⟩ := Option.isSome_iff_exists.1 hsome
    have hown : first.assetId = assetId := by simpa using List.find?_some hfirst
    refine ⟨{ first with lastSeen := some savedAt }, ?_, rfl⟩
    have hsame : ((fun card : AssetCard => decide (card.assetId = assetId)) ∘ fun card =>
        if card.assetId = assetId then { card with lastSeen := some savedAt } else card) =
        fun card => decide (card.assetId = assetId) := by
      funext card
      by_cases hcard : card.assetId = assetId <;> simp [hcard]
    rw [List.find?_map, hsame, hfirst]
    simp [hown]
  · rename_i hnone
    have habsent : (cards.find? fun card => decide (card.assetId = assetId)) = none := by
      apply List.find?_eq_none.2
      intro card hcard hid
      exact hnone (List.any_eq_true.2 ⟨card, hcard, hid⟩)
    refine ⟨{ assetId := assetId, lastSeen := some savedAt }, ?_, rfl⟩
    rw [List.find?_append, habsent]
    simp

theorem uniqueKey_groupRows (assetId : String) (base : Nat) (snapshot : Snapshot) :
    ((numberedGroups base snapshot).map (groupRow assetId)).map GroupRow.uniqueKey =
      (iterGroups snapshot).map fun g => (assetId, g.1.name, g.2.collectionId) := by
  have hfst := List.zipIdx_map_fst base (iterGroups snapshot)
  rw [numberedGroups, List.map_map]
  calc ((iterGroups snapshot).zipIdx base).map (GroupRow.uniqueKey ∘ groupRow assetId)
      = ((((iterGroups snapshot).zipIdx base).map Prod.fst).map
          fun g => (assetId, g.1.name, g.2.collectionId)) := by
        rw [List.map_map]
        rfl
    _ = (iterGroups snapshot).map fun g => (assetId, g.1.name, g.2.collectionId) := by
        rw [hfst]

theorem SourceType.name_injective :
    Function.Injective SourceType.name := by
  intro a b h
  cases a <;> cases b <;> first | rfl | exact absurd h (by decide)

theorem nodup_uniqueKey_groupRows_iff {assetId : String} {base : Nat} {snapshot : Snapshot} :
    (((numberedGroups base snapshot).map (groupRow assetId)).map GroupRow.uniqueKey).Nodup ↔
      ((iterGroups snapshot).map fun g => (g.1, g.2.collectionId)).Nodup := by
  have hinj : Function.Injective fun g : SourceType × String => (assetId, g.1.name, g.2) := by
    rintro ⟨a, i⟩ ⟨b, j⟩ h
    simp only [Prod.mk.injEq, true_and] at h
    rw [SourceType.name_injective h.1, h.2]
  rw [uniqueKey_groupRows, ← List.nodup_map_iff hinj, List.map_map]
  rfl

end AssetCard
end MpvmApp
