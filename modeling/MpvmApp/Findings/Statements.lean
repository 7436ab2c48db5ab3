import MpvmApp.Findings.Rollup

/-!
# Statements on findings and groups

The two tables with their constraints, the triggers that keep the selectors and
the stored aggregates in step, and the `INSERT`, `UPDATE` and `DELETE`
statements on the tables.  Writing transactions take an advisory lock, so a
serial order of transactions is a list of statements.  A statement that violates
a constraint is rolled back.

Main definitions:

- `vulnerabilityRollupSync`: the statement trigger on the findings.
- `selectorSync`, `groupSelectorSync`: the row triggers of the selector.
- `Statement.apply`: one statement with the triggers that it fires.
- `Database.execute`: one statement on a database that keeps its constraints.
-/

namespace MpvmApp
namespace Findings

open Sql

/-- The two tables and the two stored aggregates. -/
structure Store where
  groups : List GroupRow
  findings : List FindingRow
  rollup : List VulnerabilityRollup
  hostRollup : List VulnerabilityHostRollup

/-- The unique key of a group. -/
def GroupRow.uniqueKey (group : GroupRow) : String × String × String :=
  (group.assetId, group.sourceType, group.collectionId)

/-- The unique key of a finding: findings without an instance id do not clash. -/
def FindingRow.uniqueKey (finding : FindingRow) : String × (String ⊕ Nat) :=
  match finding.vulnerabilityInstanceId with
  | some i => (finding.assetId, .inl i)
  | none => (finding.assetId, .inr finding.id)

/-- The constraints of the two tables. -/
structure Store.Constraints (s : Store) : Prop where
  groupIds : (s.groups.map GroupRow.id).Nodup
  groupKeys : (s.groups.map GroupRow.uniqueKey).Nodup
  findingIds : (s.findings.map FindingRow.id).Nodup
  findingKeys : (s.findings.map FindingRow.uniqueKey).Nodup
  references : ∀ f ∈ s.findings, f.groupId ∈ s.groups.map GroupRow.id

instance (s : Store) : Decidable s.Constraints :=
  decidable_of_iff
    ((s.groups.map GroupRow.id).Nodup ∧ (s.groups.map GroupRow.uniqueKey).Nodup ∧
      (s.findings.map FindingRow.id).Nodup ∧ (s.findings.map FindingRow.uniqueKey).Nodup ∧
      ∀ f ∈ s.findings, f.groupId ∈ s.groups.map GroupRow.id)
    ⟨fun ⟨h₁, h₂, h₃, h₄, h₅⟩ => ⟨h₁, h₂, h₃, h₄, h₅⟩,
      fun ⟨h₁, h₂, h₃, h₄, h₅⟩ => ⟨h₁, h₂, h₃, h₄, h₅⟩⟩

/-- The joined rows of the stored findings. -/
def Store.joined (loc : Sql.Locale) (s : Store) : List JoinedFinding :=
  joinedFindings loc s.groups s.findings

/-! ## Triggers -/

/-- `refresh_vulnerability_rollup(target_selectors)`. -/
def refreshVulnerabilityRollup (loc : Sql.Locale) (targetSelectors : List (Option String))
    (s : Store) : Store :=
  { s with
    rollup := (vulnerabilityRollupSource loc).refresh targetSelectors (s.joined loc) s.rollup }

/-- `refresh_vulnerability_host_rollup(target_assets)`. -/
def refreshVulnerabilityHostRollup (loc : Sql.Locale) (targetAssets : List String) (s : Store) :
    Store :=
  { s with
    hostRollup :=
      (vulnerabilityHostRollupSource loc).refresh targetAssets (s.joined loc) s.hostRollup }

/-- The distinct selectors of the changed rows that are not null. -/
def affectedSelectors (changed : List FindingRow) : List (Option String) :=
  fromKeys ((changed.map FindingRow.selector).filter Option.isSome)

/-- The distinct hosts of the changed rows. -/
def affectedAssets (changed : List FindingRow) : List String :=
  fromKeys (changed.map FindingRow.assetId)

/--
The statement trigger on the findings: `changed` are the rows of its transition
tables, the old and the new ones.  A refresh of no key changes nothing.
-/
def vulnerabilityRollupSync (loc : Sql.Locale) (changed : List FindingRow) (s : Store) : Store :=
  refreshVulnerabilityHostRollup loc (affectedAssets changed)
    (refreshVulnerabilityRollup loc (affectedSelectors changed) s)

/-- The group that a finding names. -/
def groupOf? (groups : List GroupRow) (finding : FindingRow) : Option GroupRow :=
  groups.find? fun g => decide (g.id = finding.groupId)

/-- The row trigger before a finding is written: its selector follows the formula. -/
def selectorSync (loc : Sql.Locale) (groups : List GroupRow) (finding : FindingRow) : FindingRow :=
  { finding with selector := finding.selectorIn loc (groupOf? groups finding) }

/--
`UPDATE` of the findings selected by `p`, with the rows after the row trigger
given by `g`, and the statement trigger.
-/
def writeFindings (loc : Sql.Locale) (p : FindingRow → Bool) (g : FindingRow → FindingRow)
    (s : Store) : Store :=
  vulnerabilityRollupSync loc (s.findings.filter p ++ (s.findings.filter p).map g)
    { s with findings := s.findings.map fun f => if p f then g f else f }

/-- The row trigger after a group is written: the selectors of its findings follow. -/
def groupSelectorSync (loc : Sql.Locale) (s : Store) (group : GroupRow) : Store :=
  writeFindings loc (fun f => decide (f.groupId = group.id))
    (fun f => { f with selector := f.selectorIn loc (some group) }) s

/-! ## Column assignments -/

/-- The value of a column after an update that may assign an expression to it. -/
def assign {α β : Type} (expression : Option (α → β)) (row : α) (old : β) : β :=
  match expression with
  | some e => e row
  | none => old

/-- The `SET` list of an update of groups. -/
structure GroupSet where
  id : Option (GroupRow → Nat) := none
  assetId : Option (GroupRow → String) := none
  sourceType : Option (GroupRow → String) := none
  collectionType : Option (GroupRow → String) := none
  collectionId : Option (GroupRow → String) := none
  name : Option (GroupRow → Option String) := none
  severity : Option (GroupRow → Option String) := none
  vulnerabilityCount : Option (GroupRow → Int) := none
  cvssScore : Option (GroupRow → Option Rat) := none
  groupOrder : Option (GroupRow → Int) := none
  truncated : Option (GroupRow → Bool) := none
  groupJson : Option (GroupRow → Json) := none

/-- A group after the assignments. -/
def GroupSet.apply (set : GroupSet) (group : GroupRow) : GroupRow where
  id := assign set.id group group.id
  assetId := assign set.assetId group group.assetId
  sourceType := assign set.sourceType group group.sourceType
  collectionType := assign set.collectionType group group.collectionType
  collectionId := assign set.collectionId group group.collectionId
  name := assign set.name group group.name
  severity := assign set.severity group group.severity
  vulnerabilityCount := assign set.vulnerabilityCount group group.vulnerabilityCount
  cvssScore := assign set.cvssScore group group.cvssScore
  groupOrder := assign set.groupOrder group group.groupOrder
  truncated := assign set.truncated group group.truncated
  groupJson := assign set.groupJson group group.groupJson

/-- `UPDATE OF source_type, name`: the trigger is considered for the statement. -/
def GroupSet.firesSelector (set : GroupSet) : Bool :=
  set.sourceType.isSome || set.name.isSome

/-- The `SET` list of an update of findings. -/
structure FindingSet where
  id : Option (FindingRow → Nat) := none
  assetId : Option (FindingRow → String) := none
  groupId : Option (FindingRow → Nat) := none
  vulnerabilityInstanceId : Option (FindingRow → Option String) := none
  vulnerabilityId : Option (FindingRow → Option String) := none
  objectId : Option (FindingRow → Option String) := none
  cveName : Option (FindingRow → Option String) := none
  name : Option (FindingRow → Option String) := none
  severity : Option (FindingRow → Option String) := none
  cvssScore : Option (FindingRow → Option Rat) := none
  descriptionKey : Option (FindingRow → Option String) := none
  vulnerabilityJson : Option (FindingRow → Json) := none
  selector : Option (FindingRow → Option String) := none

/-- A finding after the assignments. -/
def FindingSet.apply (set : FindingSet) (finding : FindingRow) : FindingRow where
  id := assign set.id finding finding.id
  assetId := assign set.assetId finding finding.assetId
  groupId := assign set.groupId finding finding.groupId
  vulnerabilityInstanceId :=
    assign set.vulnerabilityInstanceId finding finding.vulnerabilityInstanceId
  vulnerabilityId := assign set.vulnerabilityId finding finding.vulnerabilityId
  objectId := assign set.objectId finding finding.objectId
  cveName := assign set.cveName finding finding.cveName
  name := assign set.name finding finding.name
  severity := assign set.severity finding finding.severity
  cvssScore := assign set.cvssScore finding finding.cvssScore
  descriptionKey := assign set.descriptionKey finding finding.descriptionKey
  vulnerabilityJson := assign set.vulnerabilityJson finding finding.vulnerabilityJson
  selector := assign set.selector finding finding.selector

/--
`UPDATE OF vulnerability_id, cve_name, name, vulnerability_instance_id, group_id`: the
trigger is fired by the statement.
-/
def FindingSet.firesSelector (set : FindingSet) : Bool :=
  set.vulnerabilityId.isSome || set.cveName.isSome || set.name.isSome ||
    set.vulnerabilityInstanceId.isSome || set.groupId.isSome

/-- A finding as an update writes it: the assignments, then the row trigger if it fires. -/
def FindingSet.write (loc : Sql.Locale) (groups : List GroupRow) (set : FindingSet)
    (finding : FindingRow) : FindingRow :=
  if set.firesSelector then selectorSync loc groups (set.apply finding) else set.apply finding

/-! ## Statements -/

/-- A statement on one of the two tables. -/
inductive Statement where
  | insertGroups (rows : List GroupRow)
  | updateGroups (p : GroupRow → Bool) (set : GroupSet)
  | deleteGroups (p : GroupRow → Bool)
  | insertFindings (rows : List FindingRow)
  | updateFindings (p : FindingRow → Bool) (set : FindingSet)
  | deleteFindings (p : FindingRow → Bool)

/-- The groups after an update. -/
def updatedGroups (p : GroupRow → Bool) (set : GroupSet) (groups : List GroupRow) :
    List GroupRow :=
  groups.map fun g => if p g then set.apply g else g

/-- The updated groups for which the trigger of the selectors fires. -/
def firedGroups (p : GroupRow → Bool) (set : GroupSet) (groups : List GroupRow) :
    List GroupRow :=
  if set.firesSelector then
    ((groups.filter p).filter fun g =>
        decide (g.sourceType ≠ (set.apply g).sourceType ∨ g.name ≠ (set.apply g).name)).map
      set.apply
  else
    []

/-- `ON DELETE CASCADE`: the finding belongs to a deleted group. -/
def cascades (p : GroupRow → Bool) (groups : List GroupRow) (finding : FindingRow) : Bool :=
  groups.any fun g => p g && decide (g.id = finding.groupId)

/-- Delete the findings selected by `p`, with the statement trigger. -/
def removeFindings (loc : Sql.Locale) (p : FindingRow → Bool) (s : Store) : Store :=
  vulnerabilityRollupSync loc (s.findings.filter p)
    { s with findings := s.findings.filter fun f => !p f }

/-- One statement with the triggers that it fires. -/
def Statement.apply (loc : Sql.Locale) : Statement → Store → Store
  | .insertGroups rows, s => { s with groups := s.groups ++ rows }
  | .updateGroups p set, s =>
      (firedGroups p set s.groups).foldl (groupSelectorSync loc)
        { s with groups := updatedGroups p set s.groups }
  | .deleteGroups p, s =>
      removeFindings loc (cascades p s.groups)
        { s with groups := s.groups.filter fun g => !p g }
  | .insertFindings rows, s =>
      let written := rows.map (selectorSync loc s.groups)
      vulnerabilityRollupSync loc written { s with findings := s.findings ++ written }
  | .updateFindings p set, s => writeFindings loc p (set.write loc s.groups) s
  | .deleteFindings p, s => removeFindings loc p s

/-- A database: the store with its constraints. -/
structure Database extends Store where
  constraints : toStore.Constraints

/-- The database without rows. -/
def Database.empty : Database where
  groups := []
  findings := []
  rollup := []
  hostRollup := []
  constraints := by
    constructor <;> simp

/-- One statement on a database; a statement that violates a constraint changes nothing. -/
def Database.execute (loc : Sql.Locale) (db : Database) (stmt : Statement) : Database :=
  if h : (stmt.apply loc db.toStore).Constraints then ⟨stmt.apply loc db.toStore, h⟩ else db

/-! ## The save of a card -/

/-- The statements with which a saved card replaces its findings. -/
def replaceAssetCardCache (assetId : String) (groups : List GroupRow)
    (findings : List FindingRow) : List Statement :=
  [.deleteGroups fun g => decide (g.assetId = assetId), .insertGroups groups,
    .insertFindings findings]

/-- The stored aggregates have the contents of their source views. -/
structure Store.Exact (loc : Sql.Locale) (s : Store) : Prop where
  rollup : s.rollup.Perm ((vulnerabilityRollupSource loc).view (s.joined loc))
  hostRollup : s.hostRollup.Perm ((vulnerabilityHostRollupSource loc).view (s.joined loc))

instance (loc : Sql.Locale) (s : Store) : Decidable (s.Exact loc) :=
  decidable_of_iff
    (s.rollup.Perm ((vulnerabilityRollupSource loc).view (s.joined loc)) ∧
      s.hostRollup.Perm ((vulnerabilityHostRollupSource loc).view (s.joined loc)))
    ⟨fun ⟨h₁, h₂⟩ => ⟨h₁, h₂⟩, fun ⟨h₁, h₂⟩ => ⟨h₁, h₂⟩⟩

end Findings
end MpvmApp
