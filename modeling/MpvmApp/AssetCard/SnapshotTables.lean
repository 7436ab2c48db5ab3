import MpvmApp.AssetCard.SnapshotDocs
import MpvmApp.Lib.Numbered

/-!
# Tables of a saved snapshot

The columns and the documents of a group or finding that is loaded are those that were stored,
and after a save the tables hold the groups of the snapshot and the findings that it keeps.

Main definitions:

- `loadedMembers`, `loadedFinding`: a group and a finding as they are loaded.
- `groupContents`, `findingContents`: what is stored of an asset, besides the ids.
- `Saved`: the tables of a store in which a snapshot has been saved.

Main results:

- Theorem `groupContent_reload`, `findingContent_reload`: a second save stores the
  same columns and documents.
- Theorem `exists_saveSnapshot`, `of_saveSnapshot`: when a save succeeds.
-/

namespace MpvmApp
namespace AssetCard
namespace SnapshotDocs

open Sql Findings
open Passports (Collation Collated)

/-! ## Columns -/

section Columns

variable {c : Coercions}

theorem cleanText_cleanText {x : Option String} {text : String} (h : cleanText x = some text) :
    cleanText (some text) = some text := by
  unfold cleanText nullIfEmpty at h ⊢
  rw [Option.filter_eq_some_iff] at h
  obtain ⟨hmap, hne⟩ := h
  obtain ⟨raw, _, rfl⟩ := Option.map_eq_some_iff.1 hmap
  rw [Option.map_some, strip_strip, Option.filter_some, if_pos hne]

theorem cleanText_cleanValue {value : Json} {text : String}
    (h : c.cleanValue value = some text) :
    cleanText (some text) = some text := by
  cases value with
  | null => cases h
  | bool b => exact cleanText_cleanText h
  | num n => exact cleanText_cleanText h
  | str s => exact cleanText_cleanText h
  | arr items => exact cleanText_cleanText h
  | obj members => exact cleanText_cleanText h

theorem cleanValue_str {text : String} (h : cleanText (some text) = some text) :
    c.cleanValue (.str text) = some text := by
  have htext : c.cleanValue (.str text) = cleanText (some (c.text (.str text))) := rfl
  rw [htext, c.text_str]
  exact h

@[simp]
theorem cleanValue_textJson (value : Json) :
    c.cleanValue (textJson (c.cleanValue value)) = c.cleanValue value := by
  cases h : c.cleanValue value with
  | none => rfl
  | some text => exact cleanValue_str (cleanText_cleanValue h)

@[simp]
theorem safeInt_text (n : Int) :
    c.safeInt (.num (toString n)) = some n :=
  c.integer_text n

@[simp]
theorem safeDecimal_decimalJson (value : Json) :
    c.safeDecimal (c.decimalJson (c.safeDecimal value)) = c.safeDecimal value := by
  cases h : c.safeDecimal value with
  | none => rfl
  | some q =>
      have hdecimal : ∃ value', c.decimal value' = some q := by
        unfold Coercions.safeDecimal at h
        split at h
        · cases h
        · cases h
        · exact ⟨_, h⟩
      obtain ⟨value', hvalue'⟩ := hdecimal
      exact c.decimal_text value' q hvalue'

end Columns

/-! ## Groups and findings as they are loaded -/

section Contents

variable (c : Coercions) (cat : Catalogue)

/-- The members of a group as they are loaded. -/
def loadedMembers (entry : GroupEntry) : Members :=
  groupMembers c (groupRow c "" entry 0)

/-- The members of a finding as they are loaded. -/
def loadedFinding (entry : GroupEntry) (finding : Members) : Members :=
  findingMembers c cat (groupRow c "" entry 0) (findingRow c "" 0 finding 0)

/-- A stored group besides its id: its columns and the document that is loaded. -/
def groupContent (row : GroupRow) : GroupRow :=
  { row with id := 0, groupJson := .obj (groupMembers c row) }

/-- A stored finding besides the ids: the key of its group, its columns and its document. -/
def findingContent (group : GroupRow) (row : FindingRow) :
    (String × String × String) × FindingRow :=
  (rowKey group,
    { row with
      id := 0
      groupId := 0
      vulnerabilityJson := .obj (findingMembers c cat group row) })

/-- The groups of an asset. -/
def groupContents (assetId : String) (store : Store) : List GroupRow :=
  (ownGroups assetId store).map (groupContent c)

/-- The findings of the groups of an asset. -/
def findingContents (assetId : String) (store : Store) :
    List ((String × String × String) × FindingRow) :=
  (ownGroups assetId store).flatMap fun group =>
    (store.findings.filter fun f => decide (f.groupId = group.id)).map (findingContent c cat group)

/-- The finding of a snapshot as the trigger completes its row. -/
def storedFinding (loc : Sql.Locale) (assetId : String) (entry : GroupEntry) (groupId : Nat)
    (finding : Members) (id : Nat) : FindingRow :=
  { findingRow c assetId groupId finding id with
    selector := (findingRow c assetId groupId finding id).selectorIn loc
      (some (groupRow c assetId entry groupId)) }

/-- The entry of a group that was loaded. -/
def reload (items : List Members) (entry : GroupEntry) : GroupEntry where
  source := entry.source
  collectionType := entry.collectionType
  collectionId := entry.collectionId
  document := { members := loadedMembers c entry, items := items }

variable {c cat}

theorem dictGet_groupMembers (row : GroupRow) (key : String) :
    dictGet (groupMembers c row) key =
      if key ∈ (groupFields c row).map Prod.fst then dictGet (groupFields c row) key
      else dictGet (storedMembers row.groupJson) key :=
  dictGet_overlay _ _ _

theorem map_fst_groupFields (row : GroupRow) :
    (groupFields c row).map Prod.fst =
      ["source", "collection_type", "collection_id", "name", "level", "vulnerabilities_count",
        "cvss_score", "order", "truncated"] :=
  rfl

theorem map_fst_findingFields (passport : Option (String × Json)) (row : FindingRow) :
    (findingFields c passport row).map Prod.fst =
      ["level", "name", "cve_name", "description_key", "cvss_score", "object_id",
        "vulnerability_id", "vulnerability_instance_id", "passport_ids", "passports"] :=
  rfl

theorem nodup_groupFields (row : GroupRow) :
    ((groupFields c row).map Prod.fst).Nodup := by
  rw [map_fst_groupFields]
  decide

theorem groupFields_notMem_rawKeys (row : GroupRow) :
    ∀ f ∈ groupFields c row, f.1 ∉ rawKeys := by
  have hnames : ∀ name ∈ (groupFields c row).map Prod.fst, name ∉ rawKeys := by
    rw [map_fst_groupFields]
    decide
  exact fun f hf => hnames f.1 (List.mem_map_of_mem hf)

theorem nodup_findingFields (passport : Option (String × Json)) (row : FindingRow) :
    ((findingFields c passport row).map Prod.fst).Nodup := by
  rw [map_fst_findingFields]
  decide

theorem findingFields_notMem_rawKeys (passport : Option (String × Json)) (row : FindingRow) :
    ∀ f ∈ findingFields c passport row, f.1 ∉ rawKeys := by
  have hnames : ∀ name ∈ (findingFields c passport row).map Prod.fst, name ∉ rawKeys := by
    rw [map_fst_findingFields]
    decide
  exact fun f hf => hnames f.1 (List.mem_map_of_mem hf)

theorem groupRow_reload (assetId : String) (entry : GroupEntry) (items : List Members) (id : Nat) :
    groupRow c assetId (reload c items entry) id =
      { groupRow c assetId entry id with
        groupJson := .obj (stripMembers (loadedMembers c entry)) } := by
  have hinteger : ∀ n : Int, (c.safeInt (.num n.repr)).getD 0 = n :=
    fun n => congrArg (fun found => found.getD 0) (safeInt_text n)
  unfold groupRow reload loadedMembers
  dsimp only
  simp only [dictGet_groupMembers]
  simp [groupFields, dictGet_cons, groupRow, Coercions.truthy, hinteger]

/-- The document of a group that was loaded is the one that is loaded again. -/
theorem groupContent_reload (assetId : String) (entry : GroupEntry) (items : List Members)
    (id id' : Nat) :
    groupContent c (groupRow c assetId (reload c items entry) id) =
      groupContent c (groupRow c assetId entry id') := by
  have hmembers : groupMembers c (groupRow c assetId (reload c items entry) id) =
      groupMembers c (groupRow c assetId entry id') := by
    rw [groupRow_reload]
    exact overlay_absorb (nodup_groupFields _) (groupFields_notMem_rawKeys _) _
  unfold groupContent
  rw [hmembers, groupRow_reload]
  rfl

theorem image_reload {key : String} (hraw : key ∉ rawKeys)
    (hkey : ∀ row, key ∉ (groupFields c row).map Prod.fst) (entry : GroupEntry) :
    dictGet (stripMembers (loadedMembers c entry)) key =
      dictGet (stripMembers entry.document.members) key := by
  unfold loadedMembers
  rw [dictGet_stripMembers hraw, dictGet_groupMembers, if_neg (hkey _)]
  show (dictGet (stripMembers entry.document.members) key).stripRaw = _
  rw [dictGet_stripMembers hraw, Json.stripRaw_stripRaw]

theorem passport_reload (assetId : String) (entry : GroupEntry) (items : List Members)
    (id id' : Nat) (row : FindingRow) :
    cat.passport (groupRow c assetId (reload c items entry) id) row =
      cat.passport (groupRow c assetId entry id') row := by
  have hname := @image_reload c "image_os_name" (by decide)
    (fun row => by rw [map_fst_groupFields]; decide) entry
  have hversion := @image_reload c "image_os_version" (by decide)
    (fun row => by rw [map_fst_groupFields]; decide) entry
  rw [groupRow_reload]
  unfold Catalogue.passport
  show cat.linked (dictGet (stripMembers (loadedMembers c entry)) "image_os_name")
    (dictGet (stripMembers (loadedMembers c entry)) "image_os_version") _ _ = _
  rw [hname, hversion]
  rfl

theorem dictGet_findingMembers (group : GroupRow) (row : FindingRow) (key : String) :
    dictGet (findingMembers c cat group row) key =
      if key ∈ (findingFields c (cat.passport group row) row).map Prod.fst then
        dictGet (findingFields c (cat.passport group row) row) key
      else dictGet (storedMembers row.vulnerabilityJson) key :=
  dictGet_overlay _ _ _

theorem findingRow_loaded (assetId : String) (groupId : Nat) (entry : GroupEntry)
    (finding : Members) (id : Nat) :
    findingRow c assetId groupId (loadedFinding c cat entry finding) id =
      { findingRow c assetId groupId finding id with
        vulnerabilityJson := .obj (stripMembers (loadedFinding c cat entry finding)) } := by
  unfold findingRow loadedFinding instanceId
  simp only [dictGet_findingMembers]
  simp [findingFields, dictGet_cons, findingRow, instanceId]

theorem instanceId_loadedFinding (entry : GroupEntry) (finding : Members) :
    instanceId c (loadedFinding c cat entry finding) = instanceId c finding :=
  congrArg FindingRow.vulnerabilityInstanceId (findingRow_loaded "" 0 entry finding 0)

theorem storedFinding_reload (loc : Sql.Locale) (assetId : String) (entry : GroupEntry)
    (items : List Members) (finding : Members) (groupId n : Nat) :
    storedFinding c loc assetId (reload c items entry) groupId
        (loadedFinding c cat entry finding) n =
      { storedFinding c loc assetId entry groupId finding n with
        vulnerabilityJson := .obj (stripMembers (loadedFinding c cat entry finding)) } := by
  unfold storedFinding
  rw [findingRow_loaded, groupRow_reload]
  rfl

theorem findingContent_ids (loc : Sql.Locale) (assetId : String) (entry : GroupEntry)
    (finding : Members) (id groupId n id' groupId' n' : Nat) :
    findingContent c cat (groupRow c assetId entry id)
        (storedFinding c loc assetId entry groupId finding n) =
      findingContent c cat (groupRow c assetId entry id')
        (storedFinding c loc assetId entry groupId' finding n') := by
  unfold findingContent storedFinding FindingRow.selectorIn
  dsimp only [findingRow, groupRow, rowKey]
  rfl

/-- The document of a finding that was loaded is the one that is loaded again. -/
theorem findingContent_reload (loc : Sql.Locale) (assetId : String) (entry : GroupEntry)
    (items : List Members) (finding : Members) (id groupId n : Nat) :
    findingContent c cat (groupRow c assetId (reload c items entry) id)
        (storedFinding c loc assetId (reload c items entry) groupId
          (loadedFinding c cat entry finding) n) =
      findingContent c cat (groupRow c assetId entry id)
        (storedFinding c loc assetId entry groupId finding n) := by
  have hmembers : findingMembers c cat (groupRow c assetId (reload c items entry) id)
      (storedFinding c loc assetId (reload c items entry) groupId
        (loadedFinding c cat entry finding) n) =
      findingMembers c cat (groupRow c assetId entry id)
        (storedFinding c loc assetId entry groupId finding n) := by
    rw [storedFinding_reload]
    unfold findingMembers
    rw [passport_reload assetId entry items id id]
    exact overlay_absorb (nodup_findingFields _ _) (findingFields_notMem_rawKeys _ _) _
  unfold findingContent
  rw [hmembers, storedFinding_reload, groupRow_reload]
  rfl

end Contents

/-! ## Tables after a save -/

section Tables

variable {c : Coercions}

/-- A finding belongs to the asset of its group. -/
def OwnRows (store : Store) : Prop :=
  ∀ f ∈ store.findings, ∀ g ∈ store.groups, g.id = f.groupId → g.assetId = f.assetId

/-- The key of a group that the table keeps unique in an asset. -/
def GroupEntry.uniqueKey (entry : GroupEntry) : String × String :=
  (entry.source, entry.collectionId)

/-- The id of the row of a group. -/
def groupNumber (base : Nat) (entries : List GroupEntry) (entry : GroupEntry) : Nat :=
  base + (entries.map GroupEntry.key).idxOf entry.key

theorem le_foldl_max (ids : List Nat) (m : Nat) :
    m ≤ ids.foldl max m ∧ ∀ id ∈ ids, id ≤ ids.foldl max m := by
  induction ids generalizing m with
  | nil => exact ⟨le_rfl, fun id hid => absurd hid List.not_mem_nil⟩
  | cons id ids ih =>
      rw [List.foldl_cons]
      obtain ⟨hm, hids⟩ := ih (max m id)
      refine ⟨le_trans (le_max_left m id) hm, ?_⟩
      intro id' hid'
      rcases List.mem_cons.1 hid' with rfl | hmem
      · exact le_trans (le_max_right m id') hm
      · exact hids id' hmem

theorem lt_nextId {ids : List Nat} {id : Nat} (h : id ∈ ids) :
    id < nextId ids :=
  Nat.lt_succ_of_le ((le_foldl_max ids 0).2 id h)

theorem nodup_key {entries : List GroupEntry}
    (h : (entries.map GroupEntry.uniqueKey).Nodup) :
    (entries.map GroupEntry.key).Nodup := by
  have hmap : entries.map GroupEntry.uniqueKey =
      (entries.map GroupEntry.key).map fun key => (key.1, key.2.2) := by
    rw [List.map_map]
    rfl
  rw [hmap] at h
  exact List.Nodup.of_map _ h

theorem groupRows_eq {entries : List GroupEntry} (h : (entries.map GroupEntry.key).Nodup)
    (assetId : String) (base : Nat) :
    groupRows c assetId base entries =
      entries.map fun entry => groupRow c assetId entry (groupNumber base entries entry) := by
  unfold groupRows
  rw [zipIdx_eq_map h, List.map_map]
  rfl

/-- A stored group is found by its key. -/
theorem groupIdOf_groupRows {entries : List GroupEntry} (h : (entries.map GroupEntry.key).Nodup)
    (assetId : String) (base : Nat) {entry : GroupEntry} (hentry : entry ∈ entries) :
    groupIdOf (groupRows c assetId base entries) entry =
      some (groupNumber base entries entry) := by
  rw [groupRows_eq h]
  unfold groupIdOf
  rw [List.find?_map]
  cases hfind : entries.find? ((fun row => decide (rowKey row = entry.key)) ∘ fun entry =>
      groupRow c assetId entry (groupNumber base entries entry)) with
  | none =>
      have hnone := List.find?_eq_none.1 hfind entry hentry
      exact absurd (decide_eq_true (p := rowKey _ = entry.key) rfl) hnone
  | some found =>
      have hfound := List.find?_some hfind
      have hkey : found.key = entry.key := of_decide_eq_true hfound
      rw [Option.map_some, Option.map_some]
      unfold groupNumber
      rw [← hkey]
      rfl

theorem eq_of_groupNumber {entries : List GroupEntry} (h : (entries.map GroupEntry.key).Nodup)
    {base : Nat} {entry entry' : GroupEntry} (hentry : entry ∈ entries)
    (hentry' : entry' ∈ entries)
    (hnumber : groupNumber base entries entry = groupNumber base entries entry') :
    entry = entry' := by
  unfold groupNumber at hnumber
  have hindex := Nat.add_left_cancel hnumber
  have hkey := (List.idxOf_inj (List.mem_map_of_mem hentry)).1 hindex
  exact List.inj_on_of_nodup_map h hentry hentry' hkey

theorem findingRows_eq {entries : List GroupEntry} (h : (entries.map GroupEntry.key).Nodup)
    (assetId : String) (base findingBase : Nat) {findings : List (GroupEntry × Members)}
    (hentries : ∀ x ∈ findings, x.1 ∈ entries) :
    findingRows c assetId (groupRows c assetId base entries) findingBase findings =
      (findings.zipIdx findingBase).map fun numbered =>
        findingRow c assetId (groupNumber base entries numbered.1.1) numbered.1.2 numbered.2 := by
  have hstored : (findings.filterMap fun x =>
      (groupIdOf (groupRows c assetId base entries) x.1).map fun groupId => (groupId, x.2)) =
      findings.map fun x => (groupNumber base entries x.1, x.2) := by
    rw [← List.filterMap_eq_map]
    refine List.filterMap_congr fun x hx => ?_
    rw [groupIdOf_groupRows h assetId base (hentries _ hx)]
    rfl
  show ((findings.filterMap fun x =>
      (groupIdOf (groupRows c assetId base entries) x.1).map fun groupId => (groupId, x.2)).zipIdx
    findingBase).map _ = _
  rw [hstored, List.zipIdx_map, List.map_map]
  rfl

theorem mem_entries_of_mem_deduplicate {entries : List GroupEntry} {x : GroupEntry × Members}
    (hx : x ∈ deduplicateFindings c entries) :
    x.1 ∈ entries := by
  have hmem := (keepUnseen_sublist [] (occurrences entries)).subset hx
  obtain ⟨entry, hentry, hfinding⟩ := List.mem_flatMap.1 hmem
  obtain ⟨finding, _, rfl⟩ := List.mem_map.1 hfinding
  exact hentry

end Tables

/-! ## The save of a snapshot -/

section SaveRows

variable {c : Coercions} {loc : Sql.Locale} {assetId : String} {store : Store}

/-- The tables of a store in which the groups of an asset have been saved. -/
structure Saved (c : Coercions) (loc : Sql.Locale) (assetId : String) (entries : List GroupEntry)
    (base : Nat) (saved : Store) : Prop where
  groups : ownGroups assetId saved =
    entries.map fun entry => groupRow c assetId entry (groupNumber base entries entry)
  findings : ∀ entry ∈ entries, ∃ numbered : List ((GroupEntry × Members) × Nat),
    numbered.map Prod.fst =
      (deduplicateFindings c entries).filter (fun x => decide (x.1.key = entry.key)) ∧
    (saved.findings.filter fun f => decide (f.groupId = groupNumber base entries entry)) =
      numbered.map fun n =>
        storedFinding c loc assetId entry (groupNumber base entries entry) n.1.2 n.2
  constraints : saved.Constraints
  own : OwnRows saved

/-- The groups of the other assets. -/
def otherGroups (assetId : String) (store : Store) : List GroupRow :=
  store.groups.filter fun g => !decide (g.assetId = assetId)

/-- The findings that stay when the groups of an asset are deleted. -/
def otherFindings (assetId : String) (store : Store) : List FindingRow :=
  store.findings.filter fun f =>
    !cascades (fun g => decide (g.assetId = assetId)) store.groups f

theorem otherGroups_lt {g : GroupRow} (hg : g ∈ otherGroups assetId store) :
    g.id < nextId (store.groups.map GroupRow.id) :=
  lt_nextId (List.mem_map_of_mem (List.mem_of_mem_filter hg))

theorem exists_otherGroup (hstore : store.Constraints) {f : FindingRow}
    (hf : f ∈ otherFindings assetId store) :
    ∃ g ∈ otherGroups assetId store, g.id = f.groupId := by
  have hmem := List.mem_filter.1 hf
  obtain ⟨g, hg, hid⟩ := List.mem_map.1 (hstore.references f hmem.1)
  refine ⟨g, List.mem_filter.2 ⟨hg, ?_⟩, hid⟩
  have hcascades : cascades (fun g => decide (g.assetId = assetId)) store.groups f = false := by
    simpa using hmem.2
  have hgroup := List.any_eq_false.1 hcascades g hg
  simpa [hid] using hgroup

theorem assetId_otherFinding (hstore : store.Constraints) (hown : OwnRows store) {f : FindingRow}
    (hf : f ∈ otherFindings assetId store) :
    f.assetId ≠ assetId := by
  obtain ⟨g, hg, hid⟩ := exists_otherGroup hstore hf
  have hmem := List.mem_filter.1 hg
  rw [← hown f (List.mem_of_mem_filter hf) g hmem.1 hid]
  simpa using hmem.2

variable (c loc assetId store) in
/-- The findings of a snapshot with the numbers of their rows. -/
def numberedFindings (entries : List GroupEntry) : List ((GroupEntry × Members) × Nat) :=
  (deduplicateFindings c entries).zipIdx (nextId (store.findings.map FindingRow.id))

variable (c loc assetId store) in
/-- The rows of the findings of a snapshot. -/
def writtenFindings (entries : List GroupEntry) : List FindingRow :=
  (numberedFindings c store entries).map fun n =>
    storedFinding c loc assetId n.1.1
      (groupNumber (nextId (store.groups.map GroupRow.id)) entries n.1.1) n.1.2 n.2

variable (c loc assetId store) in
/-- The tables after the three statements, besides the stored aggregates. -/
def savedTables (entries : List GroupEntry) : Store where
  groups := otherGroups assetId store ++
    groupRows c assetId (nextId (store.groups.map GroupRow.id)) entries
  findings := otherFindings assetId store ++ writtenFindings c loc assetId store entries
  rollup := []
  hostRollup := []

theorem mem_entries_of_mem_numbered {entries : List GroupEntry}
    {n : (GroupEntry × Members) × Nat} (hn : n ∈ numberedFindings c store entries) :
    n.1.1 ∈ entries :=
  mem_entries_of_mem_deduplicate (List.fst_mem_of_mem_zipIdx hn)

/-- The trigger finds the group of a finding that is written. -/
theorem groupOf?_written {entries : List GroupEntry} (hkeys : (entries.map GroupEntry.key).Nodup)
    {base : Nat} {others : List GroupRow} (hothers : ∀ g ∈ others, g.id < base)
    {entry : GroupEntry} (hentry : entry ∈ entries) (finding : Members) (id : Nat) :
    groupOf? (others ++ groupRows c assetId base entries)
        (findingRow c assetId (groupNumber base entries entry) finding id) =
      some (groupRow c assetId entry (groupNumber base entries entry)) := by
  have hbase : base ≤ groupNumber base entries entry := Nat.le_add_right _ _
  have hnone : (others.find? fun g => decide (g.id = groupNumber base entries entry)) = none := by
    rw [List.find?_eq_none]
    intro g hg hid
    have hlt := hothers g hg
    have heq : g.id = groupNumber base entries entry := of_decide_eq_true hid
    omega
  unfold groupOf?
  rw [List.find?_append]
  show (others.find? fun g => decide (g.id = groupNumber base entries entry)).or _ = _
  rw [hnone, Option.none_or, groupRows_eq hkeys]
  rw [List.find?_map]
  cases hfind : entries.find? ((fun g => decide (g.id =
      (findingRow c assetId (groupNumber base entries entry) finding id).groupId)) ∘ fun entry =>
      groupRow c assetId entry (groupNumber base entries entry)) with
  | none =>
      have habsent := List.find?_eq_none.1 hfind entry hentry
      exact absurd (decide_eq_true (p := groupNumber base entries entry = _) rfl) habsent
  | some found =>
      have hfound := List.find?_some hfind
      have hnumber : groupNumber base entries found = groupNumber base entries entry :=
        of_decide_eq_true hfound
      have hsame := eq_of_groupNumber hkeys (List.mem_of_find?_eq_some hfind) hentry hnumber
      rw [hsame]
      rfl

theorem map_selectorSync {entries : List GroupEntry} (hkeys : (entries.map GroupEntry.key).Nodup) :
    (findingRows c assetId
        (groupRows c assetId (nextId (store.groups.map GroupRow.id)) entries)
        (nextId (store.findings.map FindingRow.id)) (deduplicateFindings c entries)).map
      (selectorSync loc (otherGroups assetId store ++
        groupRows c assetId (nextId (store.groups.map GroupRow.id)) entries)) =
      writtenFindings c loc assetId store entries := by
  rw [findingRows_eq hkeys _ _ _ fun x hx => mem_entries_of_mem_deduplicate hx, List.map_map]
  refine List.map_congr_left fun n hn => ?_
  have hothers : ∀ g ∈ otherGroups assetId store, g.id < nextId (store.groups.map GroupRow.id) :=
    fun g hg => otherGroups_lt hg
  have hentry : n.1.1 ∈ entries := @mem_entries_of_mem_numbered _ store _ _ hn
  have hgroup := @groupOf?_written c assetId _ hkeys _ _ hothers _ hentry n.1.2 n.2
  unfold storedFinding
  rw [← hgroup]
  rfl

theorem map_id_groupRows (entries : List GroupEntry) (base : Nat) :
    (groupRows c assetId base entries).map GroupRow.id = List.range' base entries.length := by
  unfold groupRows
  rw [List.map_map]
  exact List.zipIdx_map_snd base entries

theorem map_id_writtenFindings (entries : List GroupEntry) :
    (writtenFindings c loc assetId store entries).map FindingRow.id =
      List.range' (nextId (store.findings.map FindingRow.id))
        (deduplicateFindings c entries).length := by
  unfold writtenFindings numberedFindings
  rw [List.map_map]
  exact List.zipIdx_map_snd _ _

theorem map_uniqueKey_groupRows (entries : List GroupEntry) (base : Nat) :
    (groupRows c assetId base entries).map GroupRow.uniqueKey =
      (entries.map GroupEntry.uniqueKey).map fun key => (assetId, key) := by
  unfold groupRows
  rw [List.map_map, List.map_map]
  exact map_zipIdx_fst entries base fun entry => (assetId, entry.uniqueKey)

theorem nodup_uniqueKey_written (entries : List GroupEntry) :
    ((writtenFindings c loc assetId store entries).map FindingRow.uniqueKey).Nodup := by
  have hids := (nodup_instanceIds_keepUnseen (c := c) [] (occurrences entries)).1
  have hkeys := @nodup_keyOrNumber _ _ (fun x : GroupEntry × Members => instanceId c x.2) _ hids
    (nextId (store.findings.map FindingRow.id))
  have hrows : (writtenFindings c loc assetId store entries).map FindingRow.uniqueKey =
      ((numberedFindings c store entries).map
        (keyOrNumber fun x : GroupEntry × Members => instanceId c x.2)).map
          fun key => (assetId, key) := by
    unfold writtenFindings
    rw [List.map_map, List.map_map]
    refine List.map_congr_left fun n _ => ?_
    show FindingRow.uniqueKey (storedFinding c loc assetId _ _ _ _) = _
    unfold FindingRow.uniqueKey storedFinding keyOrNumber findingRow
    dsimp only [Function.comp]
    cases instanceId c n.1.2 <;> rfl
  rw [hrows]
  exact hkeys.map (Prod.mk_right_injective assetId)

theorem mem_writtenFindings {entries : List GroupEntry} {f : FindingRow}
    (hf : f ∈ writtenFindings c loc assetId store entries) :
    f.assetId = assetId ∧ ∃ entry ∈ entries,
      f.groupId = groupNumber (nextId (store.groups.map GroupRow.id)) entries entry := by
  obtain ⟨n, hn, rfl⟩ := List.mem_map.1 hf
  exact ⟨rfl, n.1.1, mem_entries_of_mem_numbered hn, rfl⟩

/-- The constraints hold after a save of groups with distinct unique keys. -/
theorem constraints_savedTables (hstore : store.Constraints) (hown : OwnRows store)
    {entries : List GroupEntry} (hkeys : (entries.map GroupEntry.uniqueKey).Nodup) :
    (savedTables c loc assetId store entries).Constraints where
  groupIds := by
    unfold savedTables
    dsimp only
    rw [List.map_append, map_id_groupRows, List.nodup_append']
    refine ⟨hstore.groupIds.sublist (List.filter_sublist.map _), List.nodup_range' .., ?_⟩
    intro id hid hnew
    obtain ⟨g, hg, rfl⟩ := List.mem_map.1 hid
    have hlt := otherGroups_lt hg
    have hle := (List.mem_range'_1.1 hnew).1
    omega
  groupKeys := by
    unfold savedTables
    dsimp only
    rw [List.map_append, map_uniqueKey_groupRows, List.nodup_append']
    refine ⟨hstore.groupKeys.sublist (List.filter_sublist.map _),
      hkeys.map (Prod.mk_right_injective assetId), ?_⟩
    intro key hkey hnew
    obtain ⟨g, hg, rfl⟩ := List.mem_map.1 hkey
    obtain ⟨key', _, heq⟩ := List.mem_map.1 hnew
    have hasset : g.assetId = assetId := (congrArg Prod.fst heq).symm
    simpa [hasset] using (List.mem_filter.1 hg).2
  findingIds := by
    unfold savedTables
    dsimp only
    rw [List.map_append, map_id_writtenFindings, List.nodup_append']
    refine ⟨hstore.findingIds.sublist (List.filter_sublist.map _), List.nodup_range' .., ?_⟩
    intro id hid hnew
    obtain ⟨f, hf, rfl⟩ := List.mem_map.1 hid
    have hlt : f.id < nextId (store.findings.map FindingRow.id) :=
      lt_nextId (List.mem_map_of_mem (List.mem_of_mem_filter hf))
    have hle := (List.mem_range'_1.1 hnew).1
    omega
  findingKeys := by
    unfold savedTables
    dsimp only
    rw [List.map_append, List.nodup_append']
    refine ⟨hstore.findingKeys.sublist (List.filter_sublist.map _),
      nodup_uniqueKey_written entries, ?_⟩
    intro key hkey hnew
    obtain ⟨f, hf, rfl⟩ := List.mem_map.1 hkey
    obtain ⟨f', hf', heq⟩ := List.mem_map.1 hnew
    have hfst : ∀ row : FindingRow, row.uniqueKey.1 = row.assetId := by
      intro row
      unfold FindingRow.uniqueKey
      split <;> rfl
    have hasset : f.assetId = assetId := by
      rw [← hfst f, ← heq, hfst f']
      exact (mem_writtenFindings hf').1
    exact assetId_otherFinding hstore hown hf hasset
  references := by
    intro f hf
    unfold savedTables at hf ⊢
    dsimp only at hf ⊢
    rw [List.map_append, List.mem_append]
    rcases List.mem_append.1 hf with hold | hnew
    · obtain ⟨g, hg, hid⟩ := exists_otherGroup hstore hold
      exact .inl (List.mem_map.2 ⟨g, hg, hid⟩)
    · obtain ⟨_, entry, hentry, hid⟩ := mem_writtenFindings hnew
      refine .inr ?_
      rw [groupRows_eq (nodup_key hkeys), List.map_map]
      exact List.mem_map.2 ⟨entry, hentry, hid.symm⟩

/-- Every finding belongs to the asset of its group after a save. -/
theorem ownRows_savedTables (hstore : store.Constraints) (hown : OwnRows store)
    {entries : List GroupEntry} (hkeys : (entries.map GroupEntry.key).Nodup) :
    OwnRows (savedTables c loc assetId store entries) := by
  intro f hf g hg hid
  rcases List.mem_append.1 hf with hold | hnew
  · rcases List.mem_append.1 hg with hother | hrow
    · exact hown f (List.mem_of_mem_filter hold) g (List.mem_of_mem_filter hother) hid
    · rw [groupRows_eq hkeys] at hrow
      obtain ⟨entry, _, rfl⟩ := List.mem_map.1 hrow
      obtain ⟨g', hg', hid'⟩ := exists_otherGroup hstore hold
      have hlt := otherGroups_lt hg'
      have hle : nextId (store.groups.map GroupRow.id) ≤
          groupNumber (nextId (store.groups.map GroupRow.id)) entries entry := Nat.le_add_right _ _
      have hsame : groupNumber (nextId (store.groups.map GroupRow.id)) entries entry =
          f.groupId := hid
      omega
  · obtain ⟨hasset, entry, hentry, hgroup⟩ := mem_writtenFindings hnew
    rcases List.mem_append.1 hg with hother | hrow
    · have hlt := otherGroups_lt hother
      have hle : nextId (store.groups.map GroupRow.id) ≤
          groupNumber (nextId (store.groups.map GroupRow.id)) entries entry := Nat.le_add_right _ _
      omega
    · rw [groupRows_eq hkeys] at hrow
      obtain ⟨entry', _, rfl⟩ := List.mem_map.1 hrow
      exact hasset.symm

/-- The findings of a saved group. -/
theorem findings_savedTables (hstore : store.Constraints) {entries : List GroupEntry}
    (hkeys : (entries.map GroupEntry.key).Nodup) {entry : GroupEntry} (hentry : entry ∈ entries) :
    ∃ numbered : List ((GroupEntry × Members) × Nat),
      numbered.map Prod.fst =
        (deduplicateFindings c entries).filter (fun x => decide (x.1.key = entry.key)) ∧
      ((savedTables c loc assetId store entries).findings.filter fun f =>
          decide (f.groupId = groupNumber (nextId (store.groups.map GroupRow.id)) entries entry)) =
        numbered.map fun n =>
          storedFinding c loc assetId entry
            (groupNumber (nextId (store.groups.map GroupRow.id)) entries entry) n.1.2 n.2 := by
  refine ⟨(numberedFindings c store entries).filter fun n => decide (n.1.1.key = entry.key),
    ?_, ?_⟩
  · have h := map_filter_zipIdx (deduplicateFindings c entries)
      (nextId (store.findings.map FindingRow.id))
      (fun x => decide (x.1.key = entry.key)) id
    rwa [List.map_id] at h
  · unfold savedTables
    dsimp only
    rw [List.filter_append]
    have hnone : ((otherFindings assetId store).filter fun f =>
        decide (f.groupId =
          groupNumber (nextId (store.groups.map GroupRow.id)) entries entry)) = [] := by
      rw [List.filter_eq_nil_iff]
      intro f hf hid
      obtain ⟨g, hg, hgroup⟩ := exists_otherGroup hstore hf
      have hlt := otherGroups_lt hg
      have hle : nextId (store.groups.map GroupRow.id) ≤
          groupNumber (nextId (store.groups.map GroupRow.id)) entries entry := Nat.le_add_right _ _
      have hsame := of_decide_eq_true hid
      omega
    rw [hnone, List.nil_append]
    unfold writtenFindings
    rw [List.filter_map]
    have hfilter : (numberedFindings c store entries).filter
        ((fun f : FindingRow => decide (f.groupId =
          groupNumber (nextId (store.groups.map GroupRow.id)) entries entry)) ∘ fun n =>
            storedFinding c loc assetId n.1.1
              (groupNumber (nextId (store.groups.map GroupRow.id)) entries n.1.1) n.1.2 n.2) =
        (numberedFindings c store entries).filter fun n => decide (n.1.1.key = entry.key) := by
      refine List.filter_congr fun n hn => decide_eq_decide.2 ⟨?_, ?_⟩
      · intro hnumber
        rw [eq_of_groupNumber hkeys (mem_entries_of_mem_numbered hn) hentry hnumber]
      · intro hkey
        show groupNumber _ entries n.1.1 = _
        unfold groupNumber
        rw [hkey]
    rw [hfilter]
    refine List.map_congr_left fun n hn => ?_
    have hmem := List.mem_filter.1 hn
    have hsame : n.1.1 = entry :=
      List.inj_on_of_nodup_map hkeys (mem_entries_of_mem_numbered hmem.1) hentry
        (of_decide_eq_true hmem.2)
    rw [hsame]

theorem ownGroups_savedTables {entries : List GroupEntry}
    (hkeys : (entries.map GroupEntry.key).Nodup) :
    ownGroups assetId (savedTables c loc assetId store entries) =
      entries.map fun entry =>
        groupRow c assetId entry
          (groupNumber (nextId (store.groups.map GroupRow.id)) entries entry) := by
  unfold ownGroups savedTables otherGroups
  dsimp only
  rw [List.filter_append, List.filter_filter, groupRows_eq hkeys]
  have hnone : (store.groups.filter fun g =>
      decide (g.assetId = assetId) && !decide (g.assetId = assetId)) = [] := by
    rw [List.filter_eq_nil_iff]
    intro g _
    simp
  rw [hnone, List.nil_append, List.filter_eq_self]
  intro g hg
  obtain ⟨entry, _, rfl⟩ := List.mem_map.1 hg
  exact decide_eq_true rfl

theorem saved_savedTables (hstore : store.Constraints) (hown : OwnRows store)
    {entries : List GroupEntry} (hkeys : (entries.map GroupEntry.uniqueKey).Nodup) :
    Saved c loc assetId entries (nextId (store.groups.map GroupRow.id))
      (savedTables c loc assetId store entries) where
  groups := ownGroups_savedTables (nodup_key hkeys)
  findings := fun _ hentry => findings_savedTables hstore (nodup_key hkeys) hentry
  constraints := constraints_savedTables hstore hown hkeys
  own := ownRows_savedTables hstore hown (nodup_key hkeys)

theorem Saved.congr {entries : List GroupEntry} {base : Nat} {saved saved' : Store}
    (h : Saved c loc assetId entries base saved) (hgroups : saved'.groups = saved.groups)
    (hfindings : saved'.findings = saved.findings) :
    Saved c loc assetId entries base saved' where
  groups := by
    unfold ownGroups
    rw [hgroups]
    exact h.groups
  findings := by
    rw [hfindings]
    exact h.findings
  constraints := constraints_of_tables h.constraints hgroups hfindings
  own := by
    unfold OwnRows
    rw [hgroups, hfindings]
    exact h.own

end SaveRows

/-! ## When a save succeeds -/

section SaveSucceeds

variable {c : Coercions} {loc : Sql.Locale} {assetId : String} {store : Store}

theorem saveStatement_of_constraints {s : Store} {stmt : Findings.Statement}
    (h : (stmt.apply loc s).Constraints) :
    saveStatement loc s stmt = some (stmt.apply loc s) :=
  if_pos h

theorem all_rowFits_iff {entries : List GroupEntry} {base : Nat} :
    (groupRows c assetId base entries).all rowFits = true ↔
      ∀ entry ∈ entries, rowFits (groupRow c "" entry 0) = true := by
  have hrows : (groupRows c assetId base entries).map rowFits =
      entries.map fun entry => rowFits (groupRow c "" entry 0) := by
    unfold groupRows
    rw [List.map_map]
    exact map_zipIdx_fst entries base fun entry => rowFits (groupRow c "" entry 0)
  have hall : ∀ {α : Type} (p : α → Bool) (rows : List α),
      rows.all p = (rows.map p).all id := by
    intro α p rows
    rw [List.all_map]
    rfl
  rw [hall, hrows, ← hall, List.all_eq_true]

/-- A save of groups that fit and have distinct unique keys succeeds. -/
theorem exists_saveSnapshot (hstore : store.Constraints) (hown : OwnRows store)
    {snapshot : SnapshotDocument}
    (hfits : ∀ entry ∈ iterGroups c snapshot, rowFits (groupRow c "" entry 0) = true)
    (hkeys : ((iterGroups c snapshot).map GroupEntry.uniqueKey).Nodup) :
    ∃ saved, saveSnapshot c loc assetId snapshot store = some (saved, snapshot.strip) ∧
      Saved c loc assetId (iterGroups c snapshot) (nextId (store.groups.map GroupRow.id))
        saved := by
  have htables := @saved_savedTables c loc assetId _ hstore hown _ hkeys
  have hempty := @constraints_savedTables c loc assetId _ hstore hown [] List.nodup_nil
  have hwritten := @map_selectorSync c loc assetId store _ (nodup_key hkeys)
  generalize hgroups : groupRows c assetId (nextId (store.groups.map GroupRow.id))
    (iterGroups c snapshot) = groups at hwritten
  generalize hfindings : findingRows c assetId groups (nextId (store.findings.map FindingRow.id))
    (deduplicateFindings c (iterGroups c snapshot)) = findings at hwritten
  let s₁ := (Statement.deleteGroups fun g => decide (g.assetId = assetId)).apply loc store
  let s₂ := (Statement.insertGroups groups).apply loc s₁
  let s₃ := (Statement.insertFindings findings).apply loc s₂
  have hg₃ : s₃.groups = (savedTables c loc assetId store (iterGroups c snapshot)).groups := by
    show otherGroups assetId store ++ groups = otherGroups assetId store ++ groupRows ..
    rw [hgroups]
  have hf₃ : s₃.findings = (savedTables c loc assetId store (iterGroups c snapshot)).findings := by
    show otherFindings assetId store ++
      findings.map (selectorSync loc (otherGroups assetId store ++ groups)) = _
    rw [hwritten]
    rfl
  have hc₃ : s₃.Constraints := constraints_of_tables htables.constraints hg₃ hf₃
  have hc₁ : s₁.Constraints := by
    refine constraints_of_tables hempty ?_ ?_
    · exact (List.append_nil (otherGroups assetId store)).symm
    · exact (List.append_nil (otherFindings assetId store)).symm
  have hc₂ : s₂.Constraints :=
    { groupIds := hc₃.groupIds
      groupKeys := hc₃.groupKeys
      findingIds := hc₁.findingIds
      findingKeys := hc₁.findingKeys
      references := by
        intro f hf
        have hreference := hc₁.references f hf
        show f.groupId ∈ (s₁.groups ++ groups).map GroupRow.id
        rw [List.map_append]
        exact List.mem_append_left _ hreference }
  refine ⟨s₃, ?_, htables.congr hg₃ hf₃⟩
  unfold saveSnapshot
  dsimp only
  rw [hgroups, hfindings, if_pos (hgroups ▸ all_rowFits_iff.2 hfits)]
  unfold replaceAssetCardCache
  rw [List.foldlM_cons, saveStatement_of_constraints hc₁]
  show ([Statement.insertGroups groups, .insertFindings findings].foldlM (saveStatement loc) s₁).map
    _ = _
  rw [List.foldlM_cons, saveStatement_of_constraints hc₂]
  show ([Statement.insertFindings findings].foldlM (saveStatement loc) s₂).map _ = _
  rw [List.foldlM_cons, saveStatement_of_constraints hc₃]
  rfl

/-- The groups of a save that succeeds fit and have distinct unique keys. -/
theorem of_saveSnapshot {snapshot : SnapshotDocument} {result : Store × SnapshotDocument}
    (h : saveSnapshot c loc assetId snapshot store = some result) :
    (∀ entry ∈ iterGroups c snapshot, rowFits (groupRow c "" entry 0) = true) ∧
      ((iterGroups c snapshot).map GroupEntry.uniqueKey).Nodup := by
  unfold saveSnapshot at h
  dsimp only at h
  split at h
  · rename_i hfits
    refine ⟨all_rowFits_iff.1 hfits, ?_⟩
    obtain ⟨s, hfold, _⟩ := Option.map_eq_some_iff.1 h
    simp only [replaceAssetCardCache, List.foldlM_cons, List.foldlM_nil, Option.bind_eq_bind,
      Option.bind_eq_some_iff, Option.pure_def, Option.some.injEq] at hfold
    obtain ⟨s₁, _, s₂, hgroups, _⟩ := hfold
    obtain ⟨rfl, hconstraints⟩ := saveStatement_eq_some hgroups
    have hkeys := hconstraints.groupKeys
    change ((s₁.groups ++ groupRows c assetId _ (iterGroups c snapshot)).map
      GroupRow.uniqueKey).Nodup at hkeys
    rw [List.map_append, map_uniqueKey_groupRows] at hkeys
    exact (List.Nodup.of_append_right hkeys).of_map _
  · cases h

end SaveSucceeds

end SnapshotDocs
end AssetCard
end MpvmApp
