import MpvmApp.AssetCard.SnapshotTables
import MpvmApp.Findings.SummaryEquality
import MpvmApp.Lib.Numerals

/-!
# Round trip of a vulnerability snapshot

A snapshot that is saved and loaded has its groups and the first occurrences of its findings.
When the loaded document is saved again the stored groups and findings have the same columns
and the same documents.

Main definitions:

- `RoundTrip`: a snapshot is returned as it was saved, and its second save changes nothing.
- `Storable`: no two groups of a source have one id, the columns fit, and the last source
  of a kind has the collection type of its groups.

Main results:

- Theorem `Saved.returns`: a saved snapshot is returned.
- Theorem `roundTrip_iff_storable`: exactly the storable snapshots make the round trip.
-/

namespace MpvmApp
namespace AssetCard
namespace SnapshotDocs

open Sql Findings
open Passports (Collation Collated)

/-! ## What is loaded -/

section Loads

variable {c : Coercions} {loc : Collation} {cat : Catalogue} {assetId : String}

theorem mem_iterGroups {snapshot : SnapshotDocument} {entry : GroupEntry}
    (h : entry ∈ iterGroups c snapshot) :
    ∃ source ∈ snapshot.sources, cleanText source.source = some entry.source ∧
      cleanText source.collectionType = some entry.collectionType ∧
      ∃ group ∈ source.groups,
        groupEntry c entry.source entry.collectionType group = some entry := by
  obtain ⟨source, hsource, hmem⟩ := List.mem_flatMap.1 h
  unfold sourceEntries at hmem
  split at hmem
  · rename_i name collectionType hname htype
    obtain ⟨group, hgroup, hentry⟩ := List.mem_filterMap.1 hmem
    obtain ⟨collectionId, _, rfl⟩ := Option.map_eq_some_iff.1 hentry
    exact ⟨source, hsource, hname, htype, group, hgroup, hentry⟩
  · cases hmem

theorem cleanText_source {snapshot : SnapshotDocument} {entry : GroupEntry}
    (h : entry ∈ iterGroups c snapshot) :
    cleanText (some entry.source) = some entry.source := by
  obtain ⟨_, _, hname, _⟩ := mem_iterGroups h
  exact cleanText_cleanText hname

theorem cleanText_collectionId {snapshot : SnapshotDocument} {entry : GroupEntry}
    (h : entry ∈ iterGroups c snapshot) :
    cleanText (some entry.collectionId) = some entry.collectionId := by
  obtain ⟨_, _, _, _, group, _, hentry⟩ := mem_iterGroups h
  obtain ⟨collectionId, hid, heq⟩ := Option.map_eq_some_iff.1 hentry
  rw [← heq]
  exact cleanText_cleanValue hid

theorem rowKind_groupRow {snapshot : SnapshotDocument} {entry : GroupEntry}
    (h : entry ∈ iterGroups c snapshot) (id : Nat) :
    rowKind (groupRow c assetId entry id) = entry.source := by
  unfold rowKind
  show (cleanText (some entry.source)).getD "unknown" = entry.source
  rw [cleanText_source h]
  rfl

/-- What a load makes of rows whose kinds are among the sources. -/
theorem foldl_appendGroup (group : GroupRow → GroupDocument) (rows : List GroupRow)
    {sources : List SourceDocument}
    (hkinds : ∀ row ∈ rows, ∃ last, lastSource (rowKind row) sources = some last) :
    ((rows.foldl (fun sources row => appendGroup sources row (group row)) sources).flatMap
        SourceDocument.groups).Perm
      (sources.flatMap SourceDocument.groups ++ rows.map group) ∧
    ((rows.foldl (fun sources row => appendGroup sources row (group row)) sources).flatMap
        (sourceEntries c)).Perm
      (sources.flatMap (sourceEntries c) ++
        rows.flatMap fun row =>
          entryIn c (rowKind row) (lastType (rowKind row) sources) (group row)) := by
  induction rows generalizing sources with
  | nil =>
      rw [List.map_nil, List.flatMap_nil, List.append_nil, List.append_nil]
      exact ⟨.refl _, .refl _⟩
  | cons row rows ih =>
      obtain ⟨last, hlast⟩ := hkinds row List.mem_cons_self
      obtain ⟨sources', happend, hheaders, hgroups, hentries⟩ :=
        @appendToLast_spec c _ (group row) _ _ hlast
      have hstep : appendGroup sources row (group row) = sources' := by
        unfold appendGroup
        rw [happend]
      have hkinds' : ∀ row ∈ rows, ∃ last, lastSource (rowKind row) sources' = some last := by
        intro row' hrow'
        obtain ⟨last', hlast'⟩ := hkinds row' (List.mem_cons_of_mem row hrow')
        have hsame := map_header_lastSource (rowKind row') sources'
        rw [hheaders, ← map_header_lastSource, hlast'] at hsame
        obtain ⟨found, hfound, _⟩ := Option.map_eq_some_iff.1 hsame
        exact ⟨found, hfound⟩
      obtain ⟨hgroups', hentries'⟩ := ih hkinds'
      rw [List.foldl_cons, hstep]
      constructor
      · refine hgroups'.trans ((hgroups.append_right _).trans ?_)
        rw [List.append_assoc]
        exact .refl _
      · refine hentries'.trans ((hentries.append_right _).trans ?_)
        rw [List.append_assoc, List.flatMap_cons]
        have htypes : (fun row : GroupRow =>
            entryIn c (rowKind row) (lastType (rowKind row) sources') (group row)) =
            fun row => entryIn c (rowKind row) (lastType (rowKind row) sources) (group row) := by
          funext row'
          rw [lastType_congr hheaders]
        rw [htypes]

theorem map_header_cleared (snapshot : SnapshotDocument) :
    (clearedSources snapshot.strip).map SourceDocument.header =
      snapshot.sources.map SourceDocument.header := by
  unfold clearedSources SnapshotDocument.strip
  dsimp only
  rw [List.map_map, List.map_map, List.map_map]
  rfl

theorem flatMap_cleared (snapshot : SnapshotDocument) :
    (clearedSources snapshot).flatMap SourceDocument.groups = [] ∧
      (clearedSources snapshot).flatMap (sourceEntries c) = [] := by
  unfold clearedSources
  constructor
  · rw [List.flatMap_eq_nil_iff]
    intro source hsource
    obtain ⟨_, _, rfl⟩ := List.mem_map.1 hsource
    rfl
  · rw [List.flatMap_eq_nil_iff]
    intro source hsource
    obtain ⟨source', _, rfl⟩ := List.mem_map.1 hsource
    unfold sourceEntries
    dsimp only
    split
    · rfl
    · rfl

/-- The groups of a saved snapshot as they are loaded, and the groups that a save finds there. -/
theorem loaded_groups {snapshot : SnapshotDocument} {base : Nat} {saved : Store}
    (hsaved : Saved c loc.toLocale assetId (iterGroups c snapshot) base saved) :
    ((loadSnapshot c loc cat assetId saved snapshot.strip).sources.flatMap
        SourceDocument.groups).Perm
      ((iterGroups c snapshot).map fun entry =>
        loadGroup c loc cat saved
          (groupRow c assetId entry (groupNumber base (iterGroups c snapshot) entry))) ∧
    (iterGroups c (loadSnapshot c loc cat assetId saved snapshot.strip)).Perm
      ((iterGroups c snapshot).flatMap fun entry =>
        entryIn c entry.source (lastType entry.source snapshot.sources)
          (loadGroup c loc cat saved
            (groupRow c assetId entry (groupNumber base (iterGroups c snapshot) entry)))) := by
  have hrows : (orderGroups loc (ownGroups assetId saved)).Perm
      ((iterGroups c snapshot).map fun entry =>
        groupRow c assetId entry (groupNumber base (iterGroups c snapshot) entry)) := by
    rw [← hsaved.groups]
    exact perm_sortOn _ _
  have hkinds : ∀ row ∈ orderGroups loc (ownGroups assetId saved),
      ∃ last, lastSource (rowKind row) (clearedSources snapshot.strip) = some last := by
    intro row hrow
    obtain ⟨entry, hentry, rfl⟩ := List.mem_map.1 (hrows.mem_iff.1 hrow)
    obtain ⟨source, hsource, hname, _⟩ := mem_iterGroups hentry
    rw [rowKind_groupRow hentry]
    have hmem : source.header ∈ (clearedSources snapshot.strip).map SourceDocument.header := by
      rw [map_header_cleared]
      exact List.mem_map_of_mem hsource
    obtain ⟨source', hsource', hheader⟩ := List.mem_map.1 hmem
    exact exists_lastSource hsource' ((congrArg Prod.fst hheader).trans hname)
  obtain ⟨hgroups, hentries⟩ :=
    foldl_appendGroup (c := c) (loadGroup c loc cat saved) _ hkinds
  have hcleared := flatMap_cleared (c := c) snapshot.strip
  rw [hcleared.1, List.nil_append] at hgroups
  rw [hcleared.2, List.nil_append] at hentries
  refine ⟨hgroups.trans ?_, hentries.trans ((hrows.flatMap_right _).trans ?_)⟩
  · have h := hrows.map (loadGroup c loc cat saved)
    rwa [List.map_map] at h
  · rw [List.flatMap_map]
    refine List.Perm.flatMap_left _ fun entry hentry => ?_
    rw [rowKind_groupRow hentry, lastType_congr (map_header_cleared snapshot)]

end Loads

/-! ## The round trip -/

section RoundTrips

variable (c : Coercions) (loc : Collation) (cat : Catalogue) (assetId : String)

/-- The groups of a document. -/
def SnapshotDocument.groups (document : SnapshotDocument) : List GroupDocument :=
  document.sources.flatMap SourceDocument.groups

/-- The findings of a group, without those whose instance id occurred earlier. -/
def keptFindings (snapshot : SnapshotDocument) (entry : GroupEntry) : List Members :=
  ((firstOccurrences c (occurrences (iterGroups c snapshot))).filter fun x =>
    decide (x.1.key = entry.key)).map Prod.snd

/-- A document has the groups of a snapshot, and in each the first occurrences of its findings. -/
structure Returns (snapshot loaded : SnapshotDocument) : Prop where
  groups : (loaded.groups.map GroupDocument.members).Perm
    ((iterGroups c snapshot).map (loadedMembers c))
  findings : ∀ entry ∈ iterGroups c snapshot, ∃ group ∈ loaded.groups,
    group.members = loadedMembers c entry ∧
      group.items.Perm ((keptFindings c snapshot entry).map (loadedFinding c cat entry))

/-- Two stores have the same groups and findings of an asset, besides their ids. -/
structure SameContents (store store' : Store) : Prop where
  groups : (groupContents c assetId store').Perm (groupContents c assetId store)
  findings : (findingContents c cat assetId store').Perm (findingContents c cat assetId store)

/--
A snapshot is saved and loaded as it was, and when the loaded document is saved no stored group
or finding changes.
-/
def RoundTrip (store : Store) (snapshot : SnapshotDocument) : Prop :=
  ∃ saved stored, saveSnapshot c loc.toLocale assetId snapshot store = some (saved, stored) ∧
    Returns c cat snapshot (loadSnapshot c loc cat assetId saved stored) ∧
      ∃ saved' stored',
        saveSnapshot c loc.toLocale assetId (loadSnapshot c loc cat assetId saved stored) saved =
          some (saved', stored') ∧
        SameContents c cat assetId saved saved'

/-- A snapshot that the tables can hold, and whose sources say the types of their groups. -/
structure Storable (snapshot : SnapshotDocument) : Prop where
  fits : ∀ entry ∈ iterGroups c snapshot, rowFits (groupRow c "" entry 0) = true
  keys : ((iterGroups c snapshot).map GroupEntry.uniqueKey).Nodup
  types : ∀ entry ∈ iterGroups c snapshot,
    lastType entry.source snapshot.sources = some entry.collectionType

variable {c loc cat assetId} {snapshot : SnapshotDocument} {base : Nat} {saved : Store}

/-- The group of a saved entry as it is loaded. -/
def loadedGroup (c : Coercions) (loc : Collation) (cat : Catalogue) (assetId : String)
    (saved : Store) (base : Nat) (entries : List GroupEntry) (entry : GroupEntry) :
    GroupDocument :=
  loadGroup c loc cat saved (groupRow c assetId entry (groupNumber base entries entry))

/-- The findings of a loaded group. -/
theorem items_loadedGroup
    (hsaved : Saved c loc.toLocale assetId (iterGroups c snapshot) base saved)
    {entry : GroupEntry} (hentry : entry ∈ iterGroups c snapshot) :
    (loadedGroup c loc cat assetId saved base (iterGroups c snapshot) entry).items.Perm
      ((keptFindings c snapshot entry).map (loadedFinding c cat entry)) := by
  obtain ⟨numbered, hkept, hfindings⟩ := hsaved.findings entry hentry
  unfold loadedGroup loadGroup
  dsimp only
  have hperm := (perm_sortOn (fun r : FindingRow =>
    toLex (MpvmApp.nullsLast (r.cveName.map (collate loc)),
      toLex (MpvmApp.nullsLast (r.name.map (collate loc)), r.id)))
    (saved.findings.filter fun f =>
      decide (f.groupId = groupNumber base (iterGroups c snapshot) entry))).map
    (findingMembers c cat
      (groupRow c assetId entry (groupNumber base (iterGroups c snapshot) entry)))
  refine hperm.trans ?_
  rw [hfindings, List.map_map]
  unfold keptFindings
  rw [← deduplicateFindings_eq, ← hkept, List.map_map, List.map_map]
  exact .refl _

/-- A saved snapshot is returned. -/
theorem Saved.returns
    (hsaved : Saved c loc.toLocale assetId (iterGroups c snapshot) base saved) :
    Returns c cat snapshot (loadSnapshot c loc cat assetId saved snapshot.strip) where
  groups := by
    have h := (@loaded_groups _ _ cat _ _ _ _ hsaved).1.map GroupDocument.members
    rwa [List.map_map] at h
  findings := by
    intro entry hentry
    refine ⟨loadedGroup c loc cat assetId saved base (iterGroups c snapshot) entry, ?_, rfl,
      items_loadedGroup hsaved hentry⟩
    exact (@loaded_groups _ _ cat _ _ _ _ hsaved).1.mem_iff.2 (List.mem_map.2 ⟨entry, hentry, rfl⟩)

/-- The collection id of a loaded group is the one that was stored. -/
theorem groupEntry_loaded {entry : GroupEntry} (hentry : entry ∈ iterGroups c snapshot)
    {collectionType : String} {group : GroupDocument}
    (hmembers : group.members = loadedMembers c entry) :
    ∃ document, groupEntry c entry.source collectionType group =
      some
        { source := entry.source
          collectionType := collectionType
          collectionId := entry.collectionId
          document := document } ∧
      (collectionType = entry.collectionType → document = group) := by
  have hid : c.cleanValue (dictGet group.members "collection_id") = some entry.collectionId := by
    rw [hmembers]
    unfold loadedMembers
    rw [dictGet_groupMembers, map_fst_groupFields, if_pos (by decide)]
    exact cleanValue_str (cleanText_collectionId hentry)
  refine ⟨_, by unfold groupEntry; rw [hid]; rfl, ?_⟩
  rintro rfl
  have hself : overlay [("source", .str entry.source),
      ("collection_type", .str entry.collectionType),
      ("collection_id", .str entry.collectionId)] group.members = group.members := by
    rw [hmembers]
    have hfields : ∀ f ∈ [("source", Json.str entry.source),
        ("collection_type", Json.str entry.collectionType),
        ("collection_id", Json.str entry.collectionId)],
        f ∈ groupFields c (groupRow c "" entry 0) := by
      intro f hf
      unfold groupFields groupRow
      dsimp only
      simp only [List.mem_cons, List.not_mem_nil, or_false] at hf ⊢
      rcases hf with rfl | rfl | rfl
      · exact .inl rfl
      · exact .inr (.inl rfl)
      · exact .inr (.inr (.inl rfl))
    apply overlay_eq_self
    · exact fun f hf => mem_map_fst_overlay (hfields f hf)
    · intro m hm f hf hname
      have hfield := hfields f hf
      have hmem : m ∈ groupFields c (groupRow c "" entry 0) :=
        mem_of_mem_overlay hm (hname ▸ List.mem_map_of_mem hfield)
      rw [List.inj_on_of_nodup_map (nodup_groupFields _) hfield hmem hname]
  rw [hself]

/-- What a second save finds: the groups that were stored, with the types of their sources. -/
theorem iterGroups_loaded (hsaved : Saved c loc.toLocale assetId (iterGroups c snapshot) base saved)
    (htypes : ∀ entry ∈ iterGroups c snapshot,
      lastType entry.source snapshot.sources = some entry.collectionType) :
    (iterGroups c (loadSnapshot c loc cat assetId saved snapshot.strip)).Perm
      ((iterGroups c snapshot).map fun entry =>
        reload c (loadedGroup c loc cat assetId saved base (iterGroups c snapshot) entry).items
          entry) := by
  refine (loaded_groups hsaved).2.trans ?_
  rw [List.map_eq_flatMap]
  refine List.Perm.flatMap_left _ fun entry hentry => ?_
  rw [htypes entry hentry]
  obtain ⟨document, hgroup, hdocument⟩ := @groupEntry_loaded c snapshot _ hentry
    entry.collectionType
    (loadedGroup c loc cat assetId saved base (iterGroups c snapshot) entry) rfl
  unfold entryIn
  dsimp only
  change (groupEntry c entry.source entry.collectionType
    (loadedGroup c loc cat assetId saved base (iterGroups c snapshot) entry)).toList.Perm _
  rw [hgroup, hdocument rfl]
  exact .refl _

/-- A stored finding besides the ids, by the entry of its group. -/
def entryContent (c : Coercions) (cat : Catalogue) (loc : Sql.Locale) (assetId : String)
    (x : GroupEntry × Members) : (String × String × String) × FindingRow :=
  findingContent c cat (groupRow c assetId x.1 0) (storedFinding c loc assetId x.1 0 x.2 0)

/-- The contents of the stored findings are those of the findings that were kept. -/
theorem findingContents_saved {entries : List GroupEntry}
    (hkeys : (entries.map GroupEntry.key).Nodup)
    (hsaved : Saved c loc.toLocale assetId entries base saved) :
    (findingContents c cat assetId saved).Perm
      ((deduplicateFindings c entries).map (entryContent c cat loc.toLocale assetId)) := by
  have hgroup : ∀ entry ∈ entries,
      ((saved.findings.filter fun f =>
          decide (f.groupId = groupNumber base entries entry)).map
        (findingContent c cat (groupRow c assetId entry (groupNumber base entries entry)))) =
      ((deduplicateFindings c entries).filter fun x => decide (x.1.key = entry.key)).map
        (entryContent c cat loc.toLocale assetId) := by
    intro entry hentry
    obtain ⟨numbered, hkept, hfindings⟩ := hsaved.findings entry hentry
    rw [hfindings, ← hkept, List.map_map, List.map_map]
    refine List.map_congr_left fun n hn => ?_
    have hmem : n.1 ∈ (deduplicateFindings c entries).filter fun x =>
        decide (x.1.key = entry.key) := by
      rw [← hkept]
      exact List.mem_map_of_mem hn
    have hkey := List.mem_filter.1 hmem
    have hsame : n.1.1 = entry :=
      List.inj_on_of_nodup_map hkeys (mem_entries_of_mem_deduplicate hkey.1) hentry
        (of_decide_eq_true hkey.2)
    dsimp only [Function.comp]
    unfold entryContent
    rw [hsame]
    exact findingContent_ids ..
  have hflat : findingContents c cat assetId saved =
      (entries.map GroupEntry.key).flatMap fun key =>
        ((deduplicateFindings c entries).filter fun x => decide (x.1.key = key)).map
          (entryContent c cat loc.toLocale assetId) := by
    unfold findingContents
    rw [hsaved.groups, List.flatMap_map, List.flatMap_map]
    exact List.flatMap_congr fun entry hentry => hgroup entry hentry
  rw [hflat, ← List.map_flatMap]
  refine List.Perm.map _ (flatMap_filter_perm hkeys ?_)
  exact fun x hx => List.mem_map_of_mem (mem_entries_of_mem_deduplicate hx)

theorem groupContents_saved {entries : List GroupEntry}
    (hsaved : Saved c loc.toLocale assetId entries base saved) :
    groupContents c assetId saved =
      entries.map fun entry => groupContent c (groupRow c assetId entry 0) := by
  unfold groupContents
  rw [hsaved.groups, List.map_map]
  rfl

/-- The findings that are kept, group by group. -/
theorem flatMap_keptFindings (hkeys : ((iterGroups c snapshot).map GroupEntry.key).Nodup) :
    ((iterGroups c snapshot).flatMap fun entry =>
        (keptFindings c snapshot entry).map fun finding => (entry, finding)).Perm
      (deduplicateFindings c (iterGroups c snapshot)) := by
  have hgroup : ∀ entry ∈ iterGroups c snapshot,
      ((keptFindings c snapshot entry).map fun finding => (entry, finding)) =
        (deduplicateFindings c (iterGroups c snapshot)).filter fun x =>
          decide (x.1.key = entry.key) := by
    intro entry hentry
    unfold keptFindings
    rw [← deduplicateFindings_eq, List.map_map]
    refine (List.map_congr_left fun x hx => ?_).trans (List.map_id _)
    have hkey := List.mem_filter.1 hx
    have hsame : x.1 = entry :=
      List.inj_on_of_nodup_map hkeys (mem_entries_of_mem_deduplicate hkey.1) hentry
        (of_decide_eq_true hkey.2)
    exact Prod.ext hsame.symm rfl
  rw [List.flatMap_congr hgroup]
  have hperm := @flatMap_filter_perm _ _ _ (fun x : GroupEntry × Members => x.1.key) _
    (deduplicateFindings c (iterGroups c snapshot)) hkeys
    fun x hx => List.mem_map_of_mem (mem_entries_of_mem_deduplicate hx)
  rwa [List.flatMap_map] at hperm

/-- A second save keeps all findings: those that were kept before. -/
theorem deduplicate_loaded (hkeys : ((iterGroups c snapshot).map GroupEntry.key).Nodup)
    (hsaved : Saved c loc.toLocale assetId (iterGroups c snapshot) base saved)
    (htypes : ∀ entry ∈ iterGroups c snapshot,
      lastType entry.source snapshot.sources = some entry.collectionType) :
    (deduplicateFindings c
        (iterGroups c (loadSnapshot c loc cat assetId saved snapshot.strip))).Perm
      ((deduplicateFindings c (iterGroups c snapshot)).map fun x =>
        (reload c (loadedGroup c loc cat assetId saved base (iterGroups c snapshot) x.1).items x.1,
          loadedFinding c cat x.1 x.2)) := by
  have hoccurrences : (occurrences
      (iterGroups c (loadSnapshot c loc cat assetId saved snapshot.strip))).Perm
      ((deduplicateFindings c (iterGroups c snapshot)).map fun x =>
        (reload c (loadedGroup c loc cat assetId saved base (iterGroups c snapshot) x.1).items x.1,
          loadedFinding c cat x.1 x.2)) := by
    refine ((iterGroups_loaded hsaved htypes).flatMap_right _).trans ?_
    refine List.Perm.trans ?_ ((flatMap_keptFindings hkeys).map _)
    rw [List.flatMap_map, List.map_flatMap]
    refine List.Perm.flatMap_left _ fun entry hentry => ?_
    have hitems := (@items_loadedGroup _ _ cat _ _ _ _ hsaved _ hentry).map fun finding =>
      (reload c (loadedGroup c loc cat assetId saved base (iterGroups c snapshot) entry).items
        entry, finding)
    rw [List.map_map] at hitems ⊢
    exact hitems
  have hids : instanceIds c ((deduplicateFindings c (iterGroups c snapshot)).map fun x =>
      (reload c (loadedGroup c loc cat assetId saved base (iterGroups c snapshot) x.1).items x.1,
        loadedFinding c cat x.1 x.2)) =
      instanceIds c (deduplicateFindings c (iterGroups c snapshot)) := by
    unfold instanceIds
    rw [List.filterMap_map]
    exact List.filterMap_congr fun x _ => instanceId_loadedFinding x.1 x.2
  have hnodup : (instanceIds c (occurrences
      (iterGroups c (loadSnapshot c loc cat assetId saved snapshot.strip)))).Nodup := by
    have hperm := hoccurrences.filterMap fun x : GroupEntry × Members => instanceId c x.2
    refine hperm.nodup_iff.2 ?_
    have hkept := (nodup_instanceIds_keepUnseen (c := c) []
      (occurrences (iterGroups c snapshot))).1
    change (instanceIds c _).Nodup
    rw [hids]
    exact hkept
  have hall : deduplicateFindings c
      (iterGroups c (loadSnapshot c loc cat assetId saved snapshot.strip)) =
      occurrences (iterGroups c (loadSnapshot c loc cat assetId saved snapshot.strip)) :=
    keepUnseen_eq_self hnodup fun id _ => List.not_mem_nil
  rw [hall]
  exact hoccurrences

/-- A second save changes no stored group or finding. -/
theorem sameContents_of_types (hkeys : ((iterGroups c snapshot).map GroupEntry.key).Nodup)
    (hsaved : Saved c loc.toLocale assetId (iterGroups c snapshot) base saved)
    (htypes : ∀ entry ∈ iterGroups c snapshot,
      lastType entry.source snapshot.sources = some entry.collectionType)
    {base' : Nat} {saved' : Store}
    (hkeys' : ((iterGroups c (loadSnapshot c loc cat assetId saved snapshot.strip)).map
      GroupEntry.key).Nodup)
    (hsaved' : Saved c loc.toLocale assetId
      (iterGroups c (loadSnapshot c loc cat assetId saved snapshot.strip)) base' saved') :
    SameContents c cat assetId saved saved' where
  groups := by
    rw [groupContents_saved hsaved, groupContents_saved hsaved']
    refine ((iterGroups_loaded hsaved htypes).map _).trans ?_
    rw [List.map_map]
    refine .of_eq (List.map_congr_left fun entry _ => ?_)
    exact groupContent_reload assetId entry _ 0 0
  findings := by
    refine (findingContents_saved hkeys' hsaved').trans ?_
    refine List.Perm.trans ?_ (findingContents_saved hkeys hsaved).symm
    refine ((deduplicate_loaded hkeys hsaved htypes).map _).trans ?_
    rw [List.map_map]
    refine .of_eq (List.map_congr_left fun x _ => ?_)
    exact findingContent_reload loc.toLocale assetId x.1 _ x.2 0 0 0

/-- When nothing changes, the sources say the types of their groups. -/
theorem types_of_sameContents
    (hsaved : Saved c loc.toLocale assetId (iterGroups c snapshot) base saved)
    {base' : Nat} {saved' : Store}
    (hsaved' : Saved c loc.toLocale assetId
      (iterGroups c (loadSnapshot c loc cat assetId saved snapshot.strip)) base' saved')
    (hsame : SameContents c cat assetId saved saved') :
    ∀ entry ∈ iterGroups c snapshot,
      lastType entry.source snapshot.sources = some entry.collectionType := by
  intro entry hentry
  have hmem : groupContent c (groupRow c assetId entry 0) ∈ groupContents c assetId saved' := by
    rw [hsame.groups.mem_iff, groupContents_saved hsaved]
    exact List.mem_map.2 ⟨entry, hentry, rfl⟩
  rw [groupContents_saved hsaved'] at hmem
  obtain ⟨entry', hentry', hcontent⟩ := List.mem_map.1 hmem
  have hsource : entry'.source = entry.source := congrArg GroupRow.sourceType hcontent
  have htype : entry'.collectionType = entry.collectionType :=
    congrArg GroupRow.collectionType hcontent
  obtain ⟨first, hfirst, hin⟩ :=
    List.mem_flatMap.1 ((loaded_groups hsaved).2.mem_iff.1 hentry')
  unfold entryIn at hin
  split at hin
  · rename_i collectionType hlast
    obtain ⟨collectionId, _, heq⟩ := Option.map_eq_some_iff.1 (Option.mem_toList.1 hin)
    have hfirstSource : first.source = entry.source :=
      (congrArg GroupEntry.source heq).trans hsource
    have hfirstType : collectionType = entry.collectionType :=
      (congrArg GroupEntry.collectionType heq).trans htype
    rw [← hfirstSource, ← hfirstType]
    exact hlast
  · cases hin

theorem fits_loaded (hstorable : Storable c snapshot)
    (hsaved : Saved c loc.toLocale assetId (iterGroups c snapshot) base saved) :
    (∀ entry ∈ iterGroups c (loadSnapshot c loc cat assetId saved snapshot.strip),
        rowFits (groupRow c "" entry 0) = true) ∧
      ((iterGroups c (loadSnapshot c loc cat assetId saved snapshot.strip)).map
        GroupEntry.uniqueKey).Nodup := by
  have hentries := @iterGroups_loaded _ _ cat _ _ _ _ hsaved hstorable.types
  constructor
  · intro entry' hentry'
    obtain ⟨entry, hentry, rfl⟩ := List.mem_map.1 (hentries.mem_iff.1 hentry')
    rw [groupRow_reload]
    exact hstorable.fits entry hentry
  · rw [(hentries.map GroupEntry.uniqueKey).nodup_iff, List.map_map]
    exact hstorable.keys

end RoundTrips

/-! ## Exactly the storable snapshots -/

/-- The tables of the groups and findings: their constraints hold, and a finding belongs to the
asset of its group. -/
structure SnapshotStore extends Store where
  constraints : toStore.Constraints
  own : OwnRows toStore

/-- The snapshots that make the round trip are those that the tables can hold. -/
theorem roundTrip_iff_storable (c : Coercions) (loc : Collation) (cat : Catalogue)
    (assetId : String) (store : SnapshotStore) (snapshot : SnapshotDocument) :
    RoundTrip c loc cat assetId store.toStore snapshot ↔ Storable c snapshot := by
  constructor
  · rintro ⟨saved, stored, hsave, _, saved', stored', hsave', hsame⟩
    obtain ⟨hfits, hkeys⟩ := of_saveSnapshot hsave
    obtain ⟨first, hfirst, hsaved⟩ := @exists_saveSnapshot c loc.toLocale assetId _
      store.constraints store.own _ hfits hkeys
    rw [hsave] at hfirst
    cases hfirst
    obtain ⟨hfits', hkeys'⟩ := of_saveSnapshot hsave'
    obtain ⟨second, hsecond, hsaved'⟩ := @exists_saveSnapshot c loc.toLocale assetId _
      hsaved.constraints hsaved.own _ hfits' hkeys'
    rw [hsave'] at hsecond
    cases hsecond
    exact { fits := hfits, keys := hkeys, types := types_of_sameContents hsaved hsaved' hsame }
  · intro hstorable
    obtain ⟨saved, hsave, hsaved⟩ := @exists_saveSnapshot c loc.toLocale assetId _
      store.constraints store.own _ hstorable.fits hstorable.keys
    obtain ⟨hfits', hkeys'⟩ := @fits_loaded _ _ cat _ _ _ _ hstorable hsaved
    obtain ⟨saved', hsave', hsaved'⟩ := @exists_saveSnapshot c loc.toLocale assetId _
      hsaved.constraints hsaved.own _ hfits' hkeys'
    exact ⟨saved, _, hsave, hsaved.returns, saved', _, hsave',
      sameContents_of_types (nodup_key hstorable.keys) hsaved hstorable.types (nodup_key hkeys')
        hsaved'⟩

/-! ## A group that occurs twice -/

/-- The text of a value as it is printed. -/
def printedText : Json → String
  | .str text => text
  | value => value.render

/-- The integer that a number is. -/
def integerOf : Json → Option Int
  | .num text => readInteger text
  | _ => none

theorem integerOf_text (n : Int) :
    integerOf (.num (toString n)) = some n :=
  readInteger_text n

theorem integerOf_decimal (value : Json) (q : Rat)
    (h : (integerOf value).map (fun n : Int => (n : Rat)) = some q) :
    (integerOf (.num (toString q.num))).map (fun n : Int => (n : Rat)) = some q := by
  obtain ⟨n, _, rfl⟩ := Option.map_eq_some_iff.1 h
  rw [integerOf_text]
  rfl

/-- Values whose numbers are integers. -/
def plainCoercions : Coercions where
  text := printedText
  integer := integerOf
  decimal := fun value => (integerOf value).map fun n : Int => (n : Rat)
  decimalText := fun q => toString q.num
  nonzero := fun text => !decide (text = "0")
  text_str := fun _ => rfl
  integer_text := integerOf_text
  decimal_text := integerOf_decimal

/-- Tables without rows. -/
def emptyTables : Store where
  groups := []
  findings := []
  rollup := []
  hostRollup := []

theorem constraints_emptyTables : emptyTables.Constraints := by
  constructor <;> simp [emptyTables]

theorem ownRows_emptyTables : OwnRows emptyTables :=
  fun _ hf => absurd hf List.not_mem_nil

/-- The tables without rows. -/
def emptyStore : SnapshotStore where
  toStore := emptyTables
  constraints := constraints_emptyTables
  own := ownRows_emptyTables

/-- A source whose list of groups has one group twice. -/
def repeatedGroup : SnapshotDocument where
  members := []
  sources :=
    [{ source := some "os"
       collectionType := some "HostOSVulnerabilities"
       members := []
       groups :=
         [{ members := [("collection_id", .str "group-1")], items := [] },
           { members := [("collection_id", .str "group-1")], items := [] }] }]

theorem uniqueKeys_repeatedGroup :
    (iterGroups plainCoercions repeatedGroup).map GroupEntry.uniqueKey =
      [("os", "group-1"), ("os", "group-1")] := by
  decide +kernel

/-- A snapshot with one group twice is not stored. -/
theorem repeated_group_is_lost :
    ¬ RoundTrip plainCoercions asciiCollation ⟨fun _ _ _ _ => none⟩ "host-1" emptyStore.toStore
      repeatedGroup := by
  rintro ⟨saved, stored, hsave, _⟩
  have hkeys := (of_saveSnapshot hsave).2
  rw [uniqueKeys_repeatedGroup] at hkeys
  exact absurd hkeys (by decide)

end SnapshotDocs
end AssetCard
end MpvmApp
