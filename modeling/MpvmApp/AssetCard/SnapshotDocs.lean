import MpvmApp.AssetCard.Save
import MpvmApp.Findings.Analytics
import MpvmApp.Sql.Members

/-!
# Stored vulnerability snapshots

The vulnerabilities of a card are a document: sources with groups, and groups with findings.
A save flattens it into the rows of two tables, and a load builds a document again from the
stored document of the sources, the documents of the rows and their columns.

Main definitions:

- `SnapshotDocument`: the document of the vulnerabilities of a card.
- `iterGroups`, `deduplicateFindings`: the groups and findings that a save stores.
- `saveSnapshot`: the vulnerability part of a save.
- `loadSnapshot`: the document that is loaded.

Main results:

- Theorem `deduplicateFindings_eq`: the findings whose instance id is new.
- Theorem `appendToLast_spec`: the groups of a document after one more was added.
-/

namespace MpvmApp
namespace AssetCard
namespace SnapshotDocs

open Sql Findings
open Passports (Collation Collated)

/-! ## Documents -/

/-- A group: its members besides the findings, and the findings that are dictionaries. -/
structure GroupDocument where
  members : Members
  items : List Members

/-- A source: its name and collection type if it has them, other members and its groups. -/
structure SourceDocument where
  source : Option String
  collectionType : Option String
  members : Members
  groups : List GroupDocument

/-- The vulnerabilities of a card; missing lists are empty. -/
structure SnapshotDocument where
  members : Members
  sources : List SourceDocument

/-- How the standard library and the database read and write the values of a document. -/
structure Coercions where
  /-- `str(value)`. -/
  text : Json → String
  /-- `int(value)`, if it is a number. -/
  integer : Json → Option Int
  /-- `float(value)`, if it is a number. -/
  decimal : Json → Option Rat
  /-- `decimal_to_number` of a stored value. -/
  decimalText : Rat → String
  /-- A number is not zero. -/
  nonzero : String → Bool
  text_str : ∀ s, text (.str s) = s
  integer_text : ∀ n : Int, integer (.num (toString n)) = some n
  decimal_text : ∀ value q, decimal value = some q → decimal (.num (decimalText q)) = some q

variable (c : Coercions)

/-- `clean_value`. -/
def Coercions.cleanValue : Json → Option String
  | .null => none
  | value => cleanText (some (c.text value))

/-- `safe_int`. -/
def Coercions.safeInt : Json → Option Int
  | .null | .str "" => none
  | value => c.integer value

/-- `safe_decimal`. -/
def Coercions.safeDecimal : Json → Option Rat
  | .null | .str "" => none
  | value => c.decimal value

/-- `bool(value)`. -/
def Coercions.truthy : Json → Bool
  | .null => false
  | .bool b => b
  | .num text => c.nonzero text
  | .str text => !decide (text = "")
  | .arr items => !items.isEmpty
  | .obj members => !members.isEmpty

/-- `strip_asset_card_raw` of a group. -/
def GroupDocument.strip (group : GroupDocument) : GroupDocument where
  members := stripMembers group.members
  items := group.items.map stripMembers

/-- `strip_asset_card_raw` of a source. -/
def SourceDocument.strip (source : SourceDocument) : SourceDocument where
  source := source.source
  collectionType := source.collectionType
  members := stripMembers source.members
  groups := source.groups.map GroupDocument.strip

/-- `strip_asset_card_raw` of a snapshot. -/
def SnapshotDocument.strip (snapshot : SnapshotDocument) : SnapshotDocument where
  members := stripMembers snapshot.members
  sources := snapshot.sources.map SourceDocument.strip

/-! ## Groups and findings to store -/

/-- A group with the source, the collection type and the collection id that it has. -/
structure GroupEntry where
  source : String
  collectionType : String
  collectionId : String
  document : GroupDocument

/-- The key of a group among those of its asset. -/
def GroupEntry.key (entry : GroupEntry) : String × String × String :=
  (entry.source, entry.collectionType, entry.collectionId)

/-- A group with a collection id. -/
def groupEntry (source collectionType : String) (group : GroupDocument) : Option GroupEntry :=
  (c.cleanValue (dictGet group.members "collection_id")).map fun collectionId =>
    { source := source
      collectionType := collectionType
      collectionId := collectionId
      document :=
        { group with
          members :=
            overlay
              [("source", .str source), ("collection_type", .str collectionType),
                ("collection_id", .str collectionId)]
              group.members } }

/-- The groups of a source that has a name and a collection type. -/
def sourceEntries (source : SourceDocument) : List GroupEntry :=
  match cleanText source.source, cleanText source.collectionType with
  | some name, some collectionType => source.groups.filterMap (groupEntry c name collectionType)
  | _, _ => []

/-- `iter_asset_card_vulnerability_groups`. -/
def iterGroups (snapshot : SnapshotDocument) : List GroupEntry :=
  snapshot.sources.flatMap (sourceEntries c)

/-- The findings with their groups, in the order of the snapshot. -/
def occurrences (entries : List GroupEntry) : List (GroupEntry × Members) :=
  entries.flatMap fun entry => entry.document.items.map fun finding => (entry, finding)

/-- The instance id of a finding, if it has one. -/
def instanceId (finding : Members) : Option String :=
  c.cleanValue (dictGet finding "vulnerability_instance_id")

/-- The loop over the findings, with the instance ids that it has seen. -/
def keepUnseen : List String → List (GroupEntry × Members) → List (GroupEntry × Members)
  | _, [] => []
  | seen, (entry, finding) :: rest =>
      match instanceId c finding with
      | none => (entry, finding) :: keepUnseen seen rest
      | some id =>
          if id ∈ seen then keepUnseen seen rest
          else (entry, finding) :: keepUnseen (id :: seen) rest

/-- `deduplicate_asset_card_vulnerability_findings`. -/
def deduplicateFindings (entries : List GroupEntry) : List (GroupEntry × Members) :=
  keepUnseen c [] (occurrences entries)

/-! ## Rows -/

/-- The row of a group. -/
def groupRow (assetId : String) (entry : GroupEntry) (id : Nat) : GroupRow where
  id := id
  assetId := assetId
  sourceType := entry.source
  collectionType := entry.collectionType
  collectionId := entry.collectionId
  name := c.cleanValue (dictGet entry.document.members "name")
  severity := c.cleanValue (dictGet entry.document.members "level")
  vulnerabilityCount :=
    (c.safeInt (dictGet entry.document.members "vulnerabilities_count")).getD 0
  cvssScore := c.safeDecimal (dictGet entry.document.members "cvss_score")
  groupOrder := (c.safeInt (dictGet entry.document.members "order")).getD 0
  truncated := c.truthy (dictGet entry.document.members "truncated")
  groupJson := .obj (stripMembers entry.document.members)

/-- The row of a finding; the trigger fills in its selector. -/
def findingRow (assetId : String) (groupId : Nat) (finding : Members) (id : Nat) : FindingRow where
  id := id
  assetId := assetId
  groupId := groupId
  vulnerabilityInstanceId := instanceId c finding
  vulnerabilityId := c.cleanValue (dictGet finding "vulnerability_id")
  objectId := c.cleanValue (dictGet finding "object_id")
  cveName := c.cleanValue (dictGet finding "cve_name")
  name := c.cleanValue (dictGet finding "name")
  severity := c.cleanValue (dictGet finding "level")
  cvssScore := c.safeDecimal (dictGet finding "cvss_score")
  descriptionKey := c.cleanValue (dictGet finding "description_key")
  vulnerabilityJson := .obj (stripMembers finding)
  selector := none

/-- The columns by which a stored group is found. -/
def rowKey (row : GroupRow) : String × String × String :=
  (row.sourceType, row.collectionType, row.collectionId)

/-- `group_ids.get(key)`. -/
def groupIdOf (groups : List GroupRow) (entry : GroupEntry) : Option Nat :=
  (groups.find? fun row => decide (rowKey row = entry.key)).map GroupRow.id

/-- The rows of the groups; the ids continue those of the table. -/
def groupRows (assetId : String) (base : Nat) (entries : List GroupEntry) : List GroupRow :=
  (entries.zipIdx base).map fun numbered => groupRow c assetId numbered.1 numbered.2

/-- The rows of the findings that have a stored group. -/
def findingRows (assetId : String) (groups : List GroupRow) (base : Nat)
    (findings : List (GroupEntry × Members)) : List FindingRow :=
  let stored := findings.filterMap fun (entry, finding) =>
    (groupIdOf groups entry).map fun groupId => (groupId, finding)
  (stored.zipIdx base).map fun numbered =>
    findingRow c assetId numbered.1.1 numbered.1.2 numbered.2

/-- The value fits a column of the type `INTEGER`. -/
def fitsInteger (n : Int) : Bool :=
  decide (-2147483648 ≤ n ∧ n ≤ 2147483647)

/-- The integer columns of a row fit their type. -/
def rowFits (row : GroupRow) : Bool :=
  fitsInteger row.vulnerabilityCount && fitsInteger row.groupOrder

/--
The vulnerability part of `replace_asset_card_cache` with the document that the card
stores; `none` is a value out of range or a violated constraint.
-/
def saveSnapshot (loc : Sql.Locale) (assetId : String) (snapshot : SnapshotDocument)
    (store : Store) : Option (Store × SnapshotDocument) :=
  let entries := iterGroups c snapshot
  let groups := groupRows c assetId (nextId (store.groups.map GroupRow.id)) entries
  let findings := findingRows c assetId groups (nextId (store.findings.map FindingRow.id))
    (deduplicateFindings c entries)
  if groups.all rowFits then
    ((replaceAssetCardCache assetId groups findings).foldlM (saveStatement loc) store).map
      fun saved => (saved, snapshot.strip)
  else none

/-! ## Load -/

/-- A text column in a document. -/
def textJson (value : Option String) : Json :=
  match value with
  | some text => .str text
  | none => .null

/-- `decimal_to_number` in a document. -/
def Coercions.decimalJson (value : Option Rat) : Json :=
  match value with
  | some q => .num (c.decimalText q)
  | none => .null

/-- The members of a stored document. -/
def storedMembers : Json → Members
  | .obj members => members
  | _ => []

/-- The members of a group that are read from columns. -/
def groupFields (row : GroupRow) : Members :=
  [("source", .str row.sourceType), ("collection_type", .str row.collectionType),
    ("collection_id", .str row.collectionId), ("name", textJson row.name),
    ("level", textJson row.severity),
    ("vulnerabilities_count", .num (toString row.vulnerabilityCount)),
    ("cvss_score", c.decimalJson row.cvssScore), ("order", .num (toString row.groupOrder)),
    ("truncated", .bool row.truncated)]

/-- The members of a group that is loaded. -/
def groupMembers (row : GroupRow) : Members :=
  overlay (groupFields c row) (storedMembers row.groupJson)

/--
The passport that the reconciliation links to a finding, with its document: by the image of
the group and by the vulnerability and the CVE of the finding.
-/
structure Catalogue where
  linked : Json → Json → Option String → Option String → Option (String × Json)

/-- The passport of a stored finding. -/
def Catalogue.passport (cat : Catalogue) (group : GroupRow) (finding : FindingRow) :
    Option (String × Json) :=
  cat.linked (dictGet (storedMembers group.groupJson) "image_os_name")
    (dictGet (storedMembers group.groupJson) "image_os_version") finding.vulnerabilityId
    finding.cveName

/-- The members of a finding that are read from columns and from the links. -/
def findingFields (passport : Option (String × Json)) (row : FindingRow) : Members :=
  [("level", textJson row.severity), ("name", textJson row.name),
    ("cve_name", textJson row.cveName), ("description_key", textJson row.descriptionKey),
    ("cvss_score", c.decimalJson row.cvssScore), ("object_id", textJson row.objectId),
    ("vulnerability_id", textJson row.vulnerabilityId),
    ("vulnerability_instance_id", textJson row.vulnerabilityInstanceId),
    ("passport_ids", .arr (passport.toList.map fun linked => .str linked.1)),
    ("passports", .arr (passport.toList.map Prod.snd))]

/-- The members of a finding that is loaded. -/
def findingMembers (cat : Catalogue) (group : GroupRow) (row : FindingRow) : Members :=
  overlay (findingFields c (cat.passport group row) row) (storedMembers row.vulnerabilityJson)

/-- `ORDER BY source_type, group_order, name NULLS LAST, collection_id`. -/
def orderGroups (loc : Collation) (rows : List GroupRow) : List GroupRow :=
  sortOn
    (fun r => toLex (collate loc r.sourceType, toLex (r.groupOrder,
      toLex (MpvmApp.nullsLast (r.name.map (collate loc)), collate loc r.collectionId))))
    rows

/-- `ORDER BY cve_name NULLS LAST, name NULLS LAST, id`. -/
def orderFindings (loc : Collation) (rows : List FindingRow) : List FindingRow :=
  sortOn
    (fun r => toLex (MpvmApp.nullsLast (r.cveName.map (collate loc)),
      toLex (MpvmApp.nullsLast (r.name.map (collate loc)), r.id)))
    rows

/-- The group of a row with its findings. -/
def loadGroup (loc : Collation) (cat : Catalogue) (store : Store) (row : GroupRow) :
    GroupDocument where
  members := groupMembers c row
  items :=
    (orderFindings loc (store.findings.filter fun f => decide (f.groupId = row.id))).map
      (findingMembers c cat row)

/-- Add a group to the last source of its kind. -/
def appendToLast (kind : String) (group : GroupDocument) :
    List SourceDocument → Option (List SourceDocument)
  | [] => none
  | source :: rest =>
      match appendToLast kind group rest with
      | some rest' => some (source :: rest')
      | none =>
          if cleanText source.source = some kind then
            some ({ source with groups := source.groups ++ [group] } :: rest)
          else none

/-- The title of a source that is not in the stored document. -/
def sourceTitle (kind : String) : String :=
  if kind = "os" then "Уязвимости ОС"
  else if kind = "docker" then "Docker-контейнеры"
  else "Уязвимости программного обеспечения"

/-- The kind of the source that a group belongs to. -/
def rowKind (row : GroupRow) : String :=
  (cleanText (some row.sourceType)).getD "unknown"

/-- Add a group to its source, which is made if there is none. -/
def appendGroup (sources : List SourceDocument) (row : GroupRow) (group : GroupDocument) :
    List SourceDocument :=
  match appendToLast (rowKind row) group sources with
  | some sources' => sources'
  | none =>
      sources ++
        [{ source := some (rowKind row)
           collectionType := some row.collectionType
           members := [("title", .str (sourceTitle (rowKind row)))]
           groups := [group] }]

/-- The groups of an asset. -/
def ownGroups (assetId : String) (store : Store) : List GroupRow :=
  store.groups.filter fun g => decide (g.assetId = assetId)

/-- The sources of the stored document without their groups. -/
def clearedSources (stored : SnapshotDocument) : List SourceDocument :=
  stored.strip.sources.map fun source => { source with groups := [] }

/-- `load_asset_card_vulnerabilities`. -/
def loadSnapshot (loc : Collation) (cat : Catalogue) (assetId : String) (store : Store)
    (stored : SnapshotDocument) : SnapshotDocument where
  members := stored.strip.members
  sources :=
    (orderGroups loc (ownGroups assetId store)).foldl
      (fun sources row => appendGroup sources row (loadGroup c loc cat store row))
      (clearedSources stored)
/-! ## First occurrences -/

/-- The finding at a position is the first one with its instance id, or has none. -/
def isFirst (findings : List (GroupEntry × Members)) (numbered : (GroupEntry × Members) × Nat) :
    Bool :=
  match instanceId c numbered.1.2 with
  | none => true
  | some id =>
      !decide (id ∈ (findings.take numbered.2).filterMap fun earlier => instanceId c earlier.2)

/-- The findings without those whose instance id occurred earlier. -/
def firstOccurrences (findings : List (GroupEntry × Members)) : List (GroupEntry × Members) :=
  (findings.zipIdx.filter (isFirst c findings)).map Prod.fst

/-- The instance ids of the findings that have one. -/
def instanceIds (findings : List (GroupEntry × Members)) : List String :=
  findings.filterMap fun finding => instanceId c finding.2

variable {c}

theorem instanceIds_cons (entry : GroupEntry) (finding : Members)
    (rest : List (GroupEntry × Members)) :
    instanceIds c ((entry, finding) :: rest) =
      (instanceId c finding).toList ++ instanceIds c rest := by
  unfold instanceIds
  cases hid : instanceId c finding with
  | none => exact List.filterMap_cons_none hid
  | some id => exact List.filterMap_cons_some hid

theorem instanceIds_concat (before : List (GroupEntry × Members)) (entry : GroupEntry)
    (finding : Members) :
    instanceIds c (before ++ [(entry, finding)]) =
      instanceIds c before ++ (instanceId c finding).toList := by
  have hlast := instanceIds_cons (c := c) entry finding []
  unfold instanceIds at hlast ⊢
  rw [List.filterMap_append, hlast, List.filterMap_nil, List.append_nil]

/-- The loop keeps the first occurrences; it has seen the ids of the findings before. -/
theorem keepUnseen_eq {seen : List String} {before rest : List (GroupEntry × Members)}
    (hseen : ∀ id, id ∈ seen ↔ id ∈ instanceIds c before) :
    keepUnseen c seen rest =
      ((rest.zipIdx before.length).filter (isFirst c (before ++ rest))).map Prod.fst := by
  induction rest generalizing seen before with
  | nil => rfl
  | cons occurrence rest ih =>
      obtain ⟨entry, finding⟩ := occurrence
      have htake : (before ++ (entry, finding) :: rest).take before.length = before :=
        List.take_left
      have hlength : before.length + 1 = (before ++ [(entry, finding)]).length := by simp
      have hlist : before ++ (entry, finding) :: rest = (before ++ [(entry, finding)]) ++ rest := by
        simp
      rw [keepUnseen, List.zipIdx_cons, List.filter_cons]
      cases hid : instanceId c finding with
      | none =>
          have hfirst : isFirst c (before ++ (entry, finding) :: rest)
              ((entry, finding), before.length) = true := by
            unfold isFirst
            rw [hid]
          rw [if_pos hfirst, List.map_cons, hlist, hlength]
          dsimp only
          rw [@ih seen (before ++ [(entry, finding)])]
          intro id
          rw [instanceIds_concat, hid, hseen]
          simp
      | some id =>
          have hfirst : isFirst c (before ++ (entry, finding) :: rest)
              ((entry, finding), before.length) = !decide (id ∈ seen) := by
            unfold isFirst
            rw [hid]
            dsimp only
            rw [htake]
            exact congrArg (!·) (decide_eq_decide.2 (hseen id).symm)
          dsimp only
          rw [hfirst]
          by_cases hmem : id ∈ seen
          · rw [if_pos hmem, if_neg (by simp [hmem]), hlist, hlength]
            apply ih
            intro id'
            rw [instanceIds_concat, hid, hseen, Option.toList_some, List.mem_append,
              List.mem_singleton]
            constructor
            · exact Or.inl
            · rintro (h | rfl)
              · exact h
              · exact (hseen id').1 hmem
          · rw [if_neg hmem, if_pos (by simp [hmem]), List.map_cons, hlist, hlength]
            rw [@ih (id :: seen) (before ++ [(entry, finding)])]
            intro id'
            rw [instanceIds_concat, hid, List.mem_cons, hseen, Option.toList_some, List.mem_append,
              List.mem_singleton, or_comm]

/-- The findings whose instance id is new. -/
theorem deduplicateFindings_eq (entries : List GroupEntry) :
    deduplicateFindings c entries = firstOccurrences c (occurrences entries) := by
  unfold deduplicateFindings firstOccurrences
  exact @keepUnseen_eq c [] [] _ (by simp [instanceIds])

theorem keepUnseen_sublist (seen : List String) (findings : List (GroupEntry × Members)) :
    (keepUnseen c seen findings).Sublist findings := by
  induction findings generalizing seen with
  | nil => exact .slnil
  | cons occurrence rest ih =>
      obtain ⟨entry, finding⟩ := occurrence
      rw [keepUnseen]
      split
      · exact (ih seen).cons_cons _
      · split
        · exact (ih seen).cons _
        · exact (ih _).cons_cons _

/-- The instance ids of the findings that are kept are distinct, and they were not seen before. -/
theorem nodup_instanceIds_keepUnseen (seen : List String)
    (findings : List (GroupEntry × Members)) :
    (instanceIds c (keepUnseen c seen findings)).Nodup ∧
      ∀ id ∈ instanceIds c (keepUnseen c seen findings), id ∉ seen := by
  induction findings generalizing seen with
  | nil => exact ⟨List.nodup_nil, fun id hid => absurd hid List.not_mem_nil⟩
  | cons occurrence rest ih =>
      obtain ⟨entry, finding⟩ := occurrence
      rw [keepUnseen]
      cases hid : instanceId c finding with
      | none =>
          rw [instanceIds_cons, hid]
          exact ih seen
      | some id =>
          dsimp only
          split
          · exact ih seen
          · rename_i hmem
            obtain ⟨hnodup, hnew⟩ := ih (id :: seen)
            rw [instanceIds_cons, hid, Option.toList_some, List.singleton_append, List.nodup_cons]
            refine ⟨⟨fun h => hnew id h List.mem_cons_self, hnodup⟩, ?_⟩
            intro id' hid'
            rcases List.mem_cons.1 hid' with rfl | hrest
            · exact hmem
            · exact fun h => hnew id' hrest (List.mem_cons_of_mem id h)

/-- Findings with distinct instance ids are all kept. -/
theorem keepUnseen_eq_self {seen : List String} {findings : List (GroupEntry × Members)}
    (hnodup : (instanceIds c findings).Nodup) (hnew : ∀ id ∈ instanceIds c findings, id ∉ seen) :
    keepUnseen c seen findings = findings := by
  induction findings generalizing seen with
  | nil => rfl
  | cons occurrence rest ih =>
      obtain ⟨entry, finding⟩ := occurrence
      rw [instanceIds_cons] at hnodup hnew
      rw [keepUnseen]
      cases hid : instanceId c finding with
      | none =>
          rw [hid] at hnodup hnew
          exact congrArg _ (ih hnodup hnew)
      | some id =>
          rw [hid, Option.toList_some, List.singleton_append] at hnodup hnew
          rw [List.nodup_cons] at hnodup
          dsimp only
          rw [if_neg (hnew id List.mem_cons_self)]
          refine congrArg _ (ih hnodup.2 fun id' hid' hmem => ?_)
          rcases List.mem_cons.1 hmem with rfl | hseen
          · exact hnodup.1 hid'
          · exact hnew id' (List.mem_cons_of_mem id hid') hseen

/-! ## Sources with more groups -/

/-- The last source of a kind. -/
def lastSource (kind : String) (sources : List SourceDocument) : Option SourceDocument :=
  sources.reverse.find? fun source => decide (cleanText source.source = some kind)

/-- The collection type that the last source of a kind has. -/
def lastType (kind : String) (sources : List SourceDocument) : Option String :=
  (lastSource kind sources).bind fun source => cleanText source.collectionType

theorem lastSource_cons (kind : String) (source : SourceDocument) (rest : List SourceDocument) :
    lastSource kind (source :: rest) =
      (lastSource kind rest).or
        (if cleanText source.source = some kind then some source else none) := by
  unfold lastSource
  rw [List.reverse_cons, List.find?_append]
  congr 1
  by_cases h : cleanText source.source = some kind <;> simp [h]

theorem exists_lastSource {kind : String} {sources : List SourceDocument}
    {source : SourceDocument} (hmem : source ∈ sources)
    (hkind : cleanText source.source = some kind) :
    ∃ last, lastSource kind sources = some last := by
  rw [← Option.isSome_iff_exists]
  unfold lastSource
  rw [List.find?_isSome]
  exact ⟨source, List.mem_reverse.2 hmem, decide_eq_true hkind⟩

/-- What a source says about itself, without its groups. -/
def SourceDocument.header (source : SourceDocument) : Option String × Option String :=
  (cleanText source.source, cleanText source.collectionType)

theorem map_header_lastSource (kind : String) (sources : List SourceDocument) :
    (lastSource kind sources).map SourceDocument.header =
      (sources.map SourceDocument.header).reverse.find? fun header =>
        decide (header.1 = some kind) := by
  unfold lastSource
  rw [← List.map_reverse, List.find?_map]
  rfl

theorem lastType_congr {kind : String} {sources sources' : List SourceDocument}
    (h : sources.map SourceDocument.header = sources'.map SourceDocument.header) :
    lastType kind sources = lastType kind sources' := by
  have hsame := map_header_lastSource kind sources
  rw [h, ← map_header_lastSource kind sources'] at hsame
  unfold lastType
  cases hlast : lastSource kind sources with
  | none =>
      rw [hlast] at hsame
      rw [Option.map_eq_none_iff.1 hsame.symm]
  | some last =>
      rw [hlast] at hsame
      obtain ⟨last', hlast', hheader⟩ := Option.map_eq_some_iff.1 hsame.symm
      rw [hlast']
      exact (congrArg Prod.snd hheader).symm

/-- The entry of a group in the source of a kind with a collection type. -/
def entryIn (c : Coercions) (kind : String) (collectionType : Option String)
    (group : GroupDocument) : List GroupEntry :=
  match collectionType with
  | some collectionType => (groupEntry c kind collectionType group).toList
  | none => []

theorem appendToLast_eq_none {kind : String} {group : GroupDocument}
    {sources : List SourceDocument} (h : lastSource kind sources = none) :
    appendToLast kind group sources = none := by
  induction sources with
  | nil => rfl
  | cons source rest ih =>
      rw [lastSource_cons, Option.or_eq_none_iff] at h
      rw [appendToLast, ih h.1]
      dsimp only
      rw [if_neg]
      intro hkind
      rw [if_pos hkind] at h
      cases h.2

/-- What a document is after a group was added to the last source of its kind. -/
theorem appendToLast_spec {kind : String} {group : GroupDocument}
    {sources : List SourceDocument} {last : SourceDocument}
    (h : lastSource kind sources = some last) :
    ∃ sources', appendToLast kind group sources = some sources' ∧
      sources'.map SourceDocument.header = sources.map SourceDocument.header ∧
      (sources'.flatMap SourceDocument.groups).Perm
        (sources.flatMap SourceDocument.groups ++ [group]) ∧
      (sources'.flatMap (sourceEntries c)).Perm
        (sources.flatMap (sourceEntries c) ++ entryIn c kind (lastType kind sources) group) := by
  induction sources generalizing last with
  | nil => cases h
  | cons source rest ih =>
      rw [appendToLast]
      rw [lastSource_cons] at h
      cases hrest : lastSource kind rest with
      | some found =>
          obtain ⟨rest', happend, hheaders, hgroups, hentries⟩ := ih hrest
          have htype : lastType kind (source :: rest) = lastType kind rest := by
            unfold lastType
            rw [lastSource_cons, hrest]
            rfl
          rw [happend, htype]
          refine ⟨source :: rest', rfl, ?_, ?_, ?_⟩
          · rw [List.map_cons, List.map_cons, hheaders]
          · rw [List.flatMap_cons, List.flatMap_cons, List.append_assoc]
            exact hgroups.append_left _
          · rw [List.flatMap_cons, List.flatMap_cons, List.append_assoc]
            exact hentries.append_left _
      | none =>
          have hnone : appendToLast kind group rest = none := appendToLast_eq_none hrest
          rw [hrest, Option.none_or] at h
          have hkind : cleanText source.source = some kind := by
            by_contra hkind
            rw [if_neg hkind] at h
            cases h
          have htype : lastType kind (source :: rest) = cleanText source.collectionType := by
            unfold lastType
            rw [lastSource_cons, hrest, if_pos hkind]
            rfl
          rw [hnone, htype]
          dsimp only
          rw [if_pos hkind]
          refine ⟨_, rfl, rfl, ?_, ?_⟩
          · rw [List.flatMap_cons, List.flatMap_cons, List.append_assoc, List.append_assoc]
            exact List.perm_append_comm.append_left _
          · have hsource : sourceEntries c { source with groups := source.groups ++ [group] } =
                sourceEntries c source ++
                  entryIn c kind (cleanText source.collectionType) group := by
              unfold sourceEntries entryIn
              dsimp only
              rw [hkind]
              cases cleanText source.collectionType with
              | none => rfl
              | some collectionType =>
                  dsimp only
                  rw [List.filterMap_append]
                  congr 1
            rw [List.flatMap_cons, List.flatMap_cons, hsource, List.append_assoc,
              List.append_assoc]
            exact List.perm_append_comm.append_left _

end SnapshotDocs
end AssetCard
end MpvmApp
