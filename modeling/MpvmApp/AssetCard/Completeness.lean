import Mathlib.Data.Fintype.EquivFin
import MpvmApp.AssetCard.Save
import MpvmApp.Remediation.Lifecycle

/-!
# Resolution after a complete fetch

The reconciliation resolves a case whose finding is absent from a snapshot without
raised flags.  The flags notice some incomplete builds and miss others: a group list
that fails or leaves groups out, a load that raises, a failure before the first
Docker finding and a short collection without a reported count raise no flag.

Main definitions:

- `FetchedCompletely`: what the remote system holds was received.
- `Noticed`: some stored group shows that something is missing.
- `Refused`: the snapshot is not saved, or its reconciliation resolves nothing.

Main results:

- Theorem `flagged_iff_noticed`: the raised flags of a snapshot, from the answers.
- Theorem `resolves_only_complete_iff`: when a resolved case implies a complete fetch.
-/

namespace MpvmApp
namespace AssetCard

open Sql Findings Remediation

/-! ## Completeness of a build -/

/-- A vulnerability collection of the remote system. -/
structure RemoteCollection where
  collectionId : String
  findings : List Finding

/-- What the remote system holds about an asset. -/
structure RemoteCard where
  os : List RemoteCollection := []
  software : List RemoteCollection := []
  containers : List Finding := []

/-- Every finding of the collections of a widget was received under its collection. -/
def FetchedWidget (request : BuildRequest) (answers : Answers) (source : SourceType)
    (collections : List RemoteCollection) : Prop :=
  ∀ collection ∈ collections, ∀ finding ∈ collection.findings,
    ∃ entry ∈ listedGroups answers source, entry.1.collectionId = collection.collectionId ∧
      ∃ loaded, loadGroup request (answers.pages source entry.2) = .ok loaded ∧
        finding ∈ loaded.items

/-- Every finding of the asset was received. -/
structure FetchedCompletely (request : BuildRequest) (answers : Answers) (card : RemoteCard) :
    Prop where
  os : FetchedWidget request answers .os card.os
  software : FetchedWidget request answers .software card.software
  containers : ∀ finding ∈ card.containers, finding ∈ (dockerPdql request answers).primary

/-! ## Incomplete builds that are noticed -/

/--
A listed group with a collection id loads without an exception, and its items are
fewer than it reports, or as many as the limit admits when it reports none.
-/
def WidgetNoticed (request : BuildRequest) (answers : Answers) (source : SourceType)
    (keeps : List Finding → Prop) : Prop :=
  ∃ entry ∈ listedGroups answers source, entry.1.collectionId ≠ "" ∧
    ∃ loaded, loadGroup request (answers.pages source entry.2) = .ok loaded ∧
      cutShort request entry.1.vulnerabilitiesCount loaded.items.length = true ∧
      keeps loaded.items

/-- A software group is not emptied by the move of its container findings. -/
def NotEmptied (items : List Finding) : Prop :=
  items = [] ∨ ∃ finding ∈ items, namesImage finding = false

/-- The software findings that name an image. -/
def fallbackFindings (request : BuildRequest) (answers : Answers) : List Finding :=
  (extractDockerFallback (widgetGroups request answers .software)).2

/-- The Docker pages end with a raised flag, and a container with a key carries it. -/
def DockerNoticed (request : BuildRequest) (answers : Answers) : Prop :=
  (dockerPdql request answers).truncated = true ∧
    ∃ finding ∈ dockerFindings request (dockerPdql request answers)
        (fallbackFindings request answers),
      strip (dockerContainerKey finding) ≠ ""

/-- Some stored group shows that something is missing. -/
def Noticed (request : BuildRequest) (answers : Answers) : Prop :=
  WidgetNoticed request answers .os (fun _ => True) ∨
    WidgetNoticed request answers .software NotEmptied ∨ DockerNoticed request answers

/-! ## Builds that resolve nothing -/

/-- The groups that the save of a build stores. -/
def storedGroups (request : BuildRequest) (answers : Answers) : List (SourceType × Group) :=
  let software := widgetGroups request answers .software
  let (retained, containers) := buildDockerSource request answers software
  iterGroups [(.os, widgetGroups request answers .os), (.software, retained),
    (.docker, containers)]

/-- Neither an identifier nor a name: the selector of the finding is null. -/
def unidentified (finding : Finding) : Bool :=
  (cleanValue finding.vulnerabilityId).isNone && (cleanValue finding.cveName).isNone &&
    (cleanValue finding.name).isNone && (cleanValue finding.vulnerabilityInstanceId).isNone

/-- The snapshot is not saved, or its reconciliation resolves nothing whatever the cases are. -/
inductive Refused (ctx : RefreshContext) (request : BuildRequest) (answers : Answers) : Prop where
  | cancelled (h : answers.cancelled = true)
  /-- Two groups violate the unique key, and the save is rolled back. -/
  | repeatedGroup
      (h : ¬ ((storedGroups request answers).map fun g => (g.1, g.2.collectionId)).Nodup)
  /-- A case without a key cannot be inserted, and the reconciliation is rolled back. -/
  | unidentified (h : ∃ g ∈ storedGroups request answers, ∃ finding ∈ g.2.items,
      unidentified finding = true)
  /-- The card is stale when it is reconciled. -/
  | stale (h : ctx.settings.staleDays ≤ (ctx.reconciledAt - ctx.savedAt) / day)

/-! ## Flags of the stored groups -/

theorem strip_strip_eq_empty_iff {s : String} :
    strip (strip s) = "" ↔ strip s = "" := by
  constructor
  · intro h
    by_contra hne
    have hspaces := stripBy_eq_empty_iff.1 h
    have hlist : (s.toList.dropWhile isSpace).rdropWhile isSpace ≠ [] := by
      intro hnil
      exact hne (by rw [strip, stripBy, hnil])
    have hlast := List.rdropWhile_last_not isSpace (s.toList.dropWhile isSpace) hlist
    apply hlast
    apply hspaces
    rw [strip, stripBy, String.toList_ofList]
    exact List.getLast_mem hlist
  · intro h
    rw [h]
    decide

theorem cleanValue_eq_none_iff {s : String} :
    cleanValue s = none ↔ strip s = "" := by
  simp [cleanValue, nullIfEmpty, Option.filter]

theorem cleanValue_eq_some {s t : String} (h : cleanValue s = some t) :
    t = strip s ∧ strip s ≠ "" := by
  by_cases hempty : strip s = ""
  · rw [cleanValue_eq_none_iff.2 hempty] at h
    cases h
  · simp only [cleanValue, nullIfEmpty, Option.filter, hempty] at h
    exact ⟨by simpa using h.symm, hempty⟩

theorem mem_iterGroups {snapshot : Snapshot} {g : SourceType × Group} :
    g ∈ iterGroups snapshot ↔ ∃ entry ∈ snapshot, ∃ group ∈ entry.2,
      strip group.collectionId ≠ "" ∧
        g = (entry.1, { group with collectionId := strip group.collectionId }) := by
  simp only [iterGroups, List.mem_flatMap, List.mem_filterMap, Option.map_eq_some_iff]
  constructor
  · rintro ⟨entry, hentry, group, hgroup, identifier, hid, rfl⟩
    obtain ⟨rfl, hne⟩ := cleanValue_eq_some hid
    exact ⟨entry, hentry, group, hgroup, hne, rfl⟩
  · rintro ⟨entry, hentry, group, hgroup, hne, rfl⟩
    refine ⟨entry, hentry, group, hgroup, strip group.collectionId, ?_, rfl⟩
    cases hclean : cleanValue group.collectionId with
    | none => exact absurd (cleanValue_eq_none_iff.1 hclean) hne
    | some t => rw [(cleanValue_eq_some hclean).1]

theorem exists_flagged_widgetGroups_iff {request : BuildRequest} {answers : Answers}
    {source : SourceType} {keeps : List Finding → Prop} :
    (∃ group ∈ widgetGroups request answers source, strip group.collectionId ≠ "" ∧
        keeps group.items ∧ group.truncated = true) ↔
      WidgetNoticed request answers source keeps := by
  simp only [widgetGroups, List.mem_map, WidgetNoticed]
  constructor
  · rintro ⟨_, ⟨entry, hentry, rfl⟩, _, hkeeps, hflag⟩
    obtain ⟨hid, loaded, hload, hitems, hcut⟩ := truncated_buildGroup_iff.1 hflag
    exact ⟨entry, hentry, hid, loaded, hload, hcut, hitems ▸ hkeeps⟩
  · rintro ⟨entry, hentry, hid, loaded, hload, hcut, hkeeps⟩
    have hitems : (buildGroup request (answers.pages source entry.2) entry.1 entry.2).items =
        loaded.items := by
      simp [buildGroup, hid, hload]
    refine ⟨_, ⟨entry, hentry, rfl⟩, ?_, ?_, ?_⟩
    · rw [collectionId_buildGroup]
      intro hblank
      exact hid (strip_strip_eq_empty_iff.1 hblank)
    · rw [hitems]
      exact hkeeps
    · exact truncated_buildGroup_iff.2 ⟨hid, loaded, hload, hitems, hcut⟩

theorem keepsGroup_iff {group : Group} :
    keepsGroup group = true ↔ NotEmptied group.items := by
  unfold keepsGroup NotEmptied
  rw [Bool.or_eq_true, List.any_eq_true, List.isEmpty_iff, or_comm]
  simp only [Bool.not_eq_true']

/-- The raised flags of a snapshot, from the answers of the remote system. -/
theorem flagged_iff_noticed {request : BuildRequest} {answers : Answers} :
    (∃ g ∈ storedGroups request answers, g.2.truncated = true) ↔ Noticed request answers := by
  have hdocker : (∃ group ∈ dockerGroups (dockerPdql request answers).truncated
        (dockerFindings request (dockerPdql request answers) (fallbackFindings request answers)),
      strip group.collectionId ≠ "" ∧ group.truncated = true) ↔ DockerNoticed request answers := by
    have hof := containersOf_dockerGroups (dockerPdql request answers).truncated
      (dockerFindings request (dockerPdql request answers) (fallbackFindings request answers))
    constructor
    · rintro ⟨group, hgroup, hid, hflag⟩
      obtain ⟨_, finding, hfinding, hkey⟩ :=
        (hof.keys group.collectionId).1 (List.mem_map_of_mem hgroup)
      exact ⟨(hof.flags group hgroup).symm.trans hflag, finding, hfinding, hkey ▸ hid⟩
    · rintro ⟨hflag, finding, hfinding, hkey⟩
      have hne : dockerContainerKey finding ≠ "" := by
        intro hempty
        rw [hempty] at hkey
        exact hkey (by decide)
      obtain ⟨group, hgroup, hid⟩ := List.mem_map.1 ((hof.keys _).2 ⟨hne, finding, hfinding, rfl⟩)
      exact ⟨group, hgroup, hid ▸ hkey, (hof.flags group hgroup).trans hflag⟩
  have hsoftware : (∃ group ∈ ((widgetGroups request answers .software).filter keepsGroup).map
        retainGroup, strip group.collectionId ≠ "" ∧ group.truncated = true) ↔
      WidgetNoticed request answers .software NotEmptied := by
    rw [← exists_flagged_widgetGroups_iff]
    simp only [List.mem_map, List.mem_filter, keepsGroup_iff]
    constructor
    · rintro ⟨_, ⟨group, ⟨hgroup, hkeeps⟩, rfl⟩, hid, hflag⟩
      exact ⟨group, hgroup, hid, hkeeps, hflag⟩
    · rintro ⟨group, hgroup, hid, hkeeps, hflag⟩
      exact ⟨_, ⟨group, ⟨hgroup, hkeeps⟩, rfl⟩, hid, hflag⟩
  have hos : (∃ group ∈ widgetGroups request answers .os,
      strip group.collectionId ≠ "" ∧ group.truncated = true) ↔
      WidgetNoticed request answers .os (fun _ => True) := by
    rw [← exists_flagged_widgetGroups_iff]
    simp only [true_and]
  unfold Noticed
  rw [← hos, ← hsoftware, ← hdocker]
  simp only [storedGroups, buildDockerSource, extractDockerFallback, fallbackFindings,
    mem_iterGroups, List.mem_cons, List.not_mem_nil, or_false]
  constructor
  · rintro ⟨_, ⟨entry, rfl | rfl | rfl, group, hgroup, hid, rfl⟩, hflag⟩
    · exact .inl ⟨group, hgroup, hid, hflag⟩
    · exact .inr (.inl ⟨group, hgroup, hid, hflag⟩)
    · exact .inr (.inr ⟨group, hgroup, hid, hflag⟩)
  · rintro (⟨group, hgroup, hid, hflag⟩ | ⟨group, hgroup, hid, hflag⟩ |
      ⟨group, hgroup, hid, hflag⟩)
    · exact ⟨_, ⟨_, .inl rfl, group, hgroup, hid, rfl⟩, hflag⟩
    · exact ⟨_, ⟨_, .inr (.inl rfl), group, hgroup, hid, rfl⟩, hflag⟩
    · exact ⟨_, ⟨_, .inr (.inr rfl), group, hgroup, hid, rfl⟩, hflag⟩

/-! ## Selectors of the stored findings -/

/-- A stored text that is not null is not blank. -/
theorem nullIfBlank_cleanValue {s : String} :
    nullIfBlank (cleanValue s) = none ↔ cleanValue s = none := by
  constructor
  · intro h
    by_contra hne
    obtain ⟨t, ht⟩ := Option.ne_none_iff_exists'.1 hne
    obtain ⟨rfl, hstrip⟩ := cleanValue_eq_some ht
    rw [ht] at h
    have htrim : trim (strip s) = "" := by
      simpa [nullIfBlank, nullIfEmpty, Option.filter] using h
    apply hstrip
    apply strip_strip_eq_empty_iff.1
    rw [strip, stripBy_eq_empty_iff]
    intro c hc
    have hblank := stripBy_eq_empty_iff.1 htrim c hc
    rw [show c = ' ' by simpa using hblank]
    decide
  · intro h
    rw [h]
    rfl

/-- The selector of a stored finding is null exactly when nothing identifies it. -/
theorem selector_selectorSync_eq_none_iff {loc : Sql.Locale} {groups : List GroupRow}
    {assetId : String} {groupId id : Nat} {finding : Finding}
    (href : groupId ∈ groups.map GroupRow.id) :
    (selectorSync loc groups (findingRow assetId groupId finding id)).selector = none ↔
      unidentified finding = true := by
  obtain ⟨group, hgroup⟩ : ∃ group, groupOf? groups (findingRow assetId groupId finding id) =
      some group := by
    obtain ⟨g, hg, hid⟩ := List.mem_map.1 href
    apply Option.isSome_iff_exists.1
    exact List.find?_isSome.2 ⟨g, hg, decide_eq_true hid⟩
  constructor
  · intro hnone
    by_contra hne
    have hvalid : (findingRow assetId groupId finding id).valid = true := by
      by_contra hinvalid
      apply hne
      have hblank := Option.not_isSome_iff_eq_none.1 hinvalid
      simp only [coalesce_eq_none_iff, findingRow, nullIfBlank_cleanValue] at hblank
      simp [unidentified, hblank]
    have hsome : (findingRow assetId groupId finding id).selectorIn loc (some group) ≠ none :=
      selectorIn_ne_none loc hvalid
    rw [← hgroup] at hsome
    exact hsome hnone
  · intro hun
    simp only [unidentified, Bool.and_eq_true, Option.isNone_iff_eq_none] at hun
    obtain ⟨⟨⟨hid, hcve⟩, hname⟩, hinst⟩ := hun
    simp only [selectorSync, FindingRow.selectorIn, vulnerabilitySelector, findingRow, hid, hcve,
      hname, hinst]
    rfl

theorem mem_keepFirst_of_blank {α : Type} {seen : List String} {entries : List (α × Finding)}
    {entry : α × Finding} (hmem : entry ∈ entries)
    (hblank : cleanValue entry.2.vulnerabilityInstanceId = none) :
    entry ∈ keepFirst seen entries := by
  induction entries generalizing seen with
  | nil => cases hmem
  | cons first rest ih =>
      obtain ⟨stored, finding⟩ := first
      rw [keepFirst]
      rcases List.mem_cons.1 hmem with rfl | hrest
      · simp [hblank]
      · split
        · exact List.mem_cons_of_mem _ (ih hrest)
        · split
          · exact ih hrest
          · exact List.mem_cons_of_mem _ (ih hrest)

theorem keepFirst_sublist {α : Type} (seen : List String) (entries : List (α × Finding)) :
    (keepFirst seen entries).Sublist entries := by
  induction entries generalizing seen with
  | nil => exact .slnil
  | cons first rest ih =>
      obtain ⟨stored, finding⟩ := first
      rw [keepFirst]
      split
      · exact (ih _).cons_cons _
      · split
        · exact (ih _).cons _
        · exact (ih _).cons_cons _

/-- The instance ids of the kept findings are distinct and new. -/
theorem keepFirst_pairwise {α : Type} (seen : List String) (entries : List (α × Finding)) :
    ((keepFirst seen entries).Pairwise fun a b =>
        cleanValue a.2.vulnerabilityInstanceId = none ∨
          cleanValue a.2.vulnerabilityInstanceId ≠ cleanValue b.2.vulnerabilityInstanceId) ∧
      ∀ a ∈ keepFirst seen entries, ∀ i, cleanValue a.2.vulnerabilityInstanceId = some i →
        i ∉ seen := by
  induction entries generalizing seen with
  | nil => exact ⟨.nil, by simp [keepFirst]⟩
  | cons first rest ih =>
      obtain ⟨stored, finding⟩ := first
      rw [keepFirst]
      split
      · rename_i hblank
        refine ⟨List.pairwise_cons.2 ⟨fun b _ => .inl hblank, (ih seen).1⟩, ?_⟩
        intro a ha i hi
        rcases List.mem_cons.1 ha with rfl | ha
        · rw [hblank] at hi
          cases hi
        · exact (ih seen).2 a ha i hi
      · rename_i instanceId hsome
        split
        · exact ih seen
        · rename_i hnew
          obtain ⟨hpair, hseen⟩ := ih (instanceId :: seen)
          refine ⟨List.pairwise_cons.2 ⟨fun b hb => .inr ?_, hpair⟩, ?_⟩
          · intro heq
            exact hseen b hb instanceId (heq.symm.trans hsome) List.mem_cons_self
          · intro a ha i hi
            rcases List.mem_cons.1 ha with rfl | ha
            · rw [hsome] at hi
              cases hi
              exact hnew
            · exact fun hmem => hseen a ha i hi (List.mem_cons_of_mem _ hmem)

theorem mem_findingRows {assetId : String} {base findingBase : Nat} {snapshot : Snapshot}
    {row : FindingRow} (h : row ∈ findingRows assetId base findingBase snapshot) :
    ∃ stored ∈ numberedGroups base snapshot, ∃ finding ∈ stored.1.2.items, ∃ id,
      row = findingRow assetId stored.2 finding id := by
  obtain ⟨⟨⟨stored, finding⟩, id⟩, hentry, rfl⟩ := List.mem_map.1 h
  have hkept : (stored, finding) ∈ deduplicateFindings (numberedGroups base snapshot) :=
    List.fst_mem_of_mem_zipIdx hentry
  unfold deduplicateFindings at hkept
  have hall := (keepFirst_sublist [] _).subset hkept
  obtain ⟨stored', hstored, hmem⟩ := List.mem_flatMap.1 hall
  obtain ⟨finding', hfinding, heq⟩ := List.mem_map.1 hmem
  cases heq
  exact ⟨stored, hstored, finding, hfinding, id, rfl⟩

/-- A stored finding without an instance id has a row. -/
theorem exists_findingRow_of_blank {assetId : String} {base findingBase : Nat}
    {snapshot : Snapshot} {g : SourceType × Group} {finding : Finding}
    (hg : g ∈ iterGroups snapshot) (hfinding : finding ∈ g.2.items)
    (hblank : cleanValue finding.vulnerabilityInstanceId = none) :
    ∃ groupId id, findingRow assetId groupId finding id ∈
      findingRows assetId base findingBase snapshot := by
  have hg' : g ∈ ((iterGroups snapshot).zipIdx base).map Prod.fst := by
    rw [List.zipIdx_map_fst]
    exact hg
  obtain ⟨stored, hstored, rfl⟩ := List.mem_map.1 hg'
  have hall : (stored, finding) ∈ (numberedGroups base snapshot).flatMap fun stored =>
      stored.1.2.items.map fun finding => (stored, finding) :=
    List.mem_flatMap.2 ⟨stored, hstored, List.mem_map.2 ⟨finding, hfinding, rfl⟩⟩
  have hkept : (stored, finding) ∈ deduplicateFindings (numberedGroups base snapshot) :=
    mem_keepFirst_of_blank hall hblank
  have hkept' : (stored, finding) ∈
      ((deduplicateFindings (numberedGroups base snapshot)).zipIdx findingBase).map Prod.fst := by
    rw [List.zipIdx_map_fst]
    exact hkept
  obtain ⟨⟨entry, id⟩, hentry, heq⟩ := List.mem_map.1 hkept'
  cases heq
  exact ⟨stored.2, id, List.mem_map.2 ⟨_, hentry, rfl⟩⟩

/-! ## Current findings of a saved card -/

theorem distinctOnKey_subset (seen : List (Option String)) (rows : List CurrentFinding) :
    ∀ row ∈ distinctOnKey seen rows, row ∈ rows := by
  induction rows generalizing seen with
  | nil => exact fun _ h => h
  | cons first rows ih =>
      intro row hrow
      rw [distinctOnKey] at hrow
      split at hrow
      · exact List.mem_cons_of_mem _ (ih _ row hrow)
      · rcases List.mem_cons.1 hrow with rfl | hrest
        · exact List.mem_cons_self
        · exact List.mem_cons_of_mem _ (ih _ row hrest)

/-- Every key that was not seen keeps a row. -/
theorem exists_distinctOnKey {seen : List (Option String)} {rows : List CurrentFinding}
    {row : CurrentFinding} (hrow : row ∈ rows) (hnew : row.vulnerabilityKey ∉ seen) :
    ∃ kept ∈ distinctOnKey seen rows, kept.vulnerabilityKey = row.vulnerabilityKey := by
  induction rows generalizing seen with
  | nil => cases hrow
  | cons first rows ih =>
      rw [distinctOnKey]
      split
      · rename_i hseen
        rcases List.mem_cons.1 hrow with rfl | hrest
        · exact absurd hseen hnew
        · exact ih hrest hnew
      · by_cases hkey : row.vulnerabilityKey = first.vulnerabilityKey
        · exact ⟨first, List.mem_cons_self, hkey.symm⟩
        · rcases List.mem_cons.1 hrow with rfl | hrest
          · exact absurd rfl hkey
          · have hnew' : row.vulnerabilityKey ∉ first.vulnerabilityKey :: seen := by
              intro hmem
              rcases List.mem_cons.1 hmem with heq | hmem
              · exact hkey heq
              · exact hnew hmem
            obtain ⟨kept, hkept, heq⟩ := ih hrest hnew'
            exact ⟨kept, List.mem_cons_of_mem _ hkept, heq⟩

theorem key_of_mem_joinFinding {loc : Sql.Locale} {db : Remediation.Database} {f : FindingRow}
    {row : CurrentFinding} (h : row ∈ joinFinding loc db f) :
    row.vulnerabilityKey = f.selector := by
  unfold joinFinding at h
  split at h
  · dsimp only at h
    split at h
    · rw [List.mem_singleton.1 h]
    · obtain ⟨link, _, rfl⟩ := List.mem_map.1 h
      rfl
  · cases h

theorem joinFinding_ne_nil {loc : Sql.Locale} {db : Remediation.Database} {f : FindingRow}
    (href : f.groupId ∈ db.groups.map GroupRow.id) :
    joinFinding loc db f ≠ [] := by
  obtain ⟨g, hg, hid⟩ := List.mem_map.1 href
  have hany : (db.groups.any fun g => decide (g.id = f.groupId)) = true :=
    List.any_eq_true.2 ⟨g, hg, decide_eq_true hid⟩
  unfold joinFinding
  rw [if_pos hany]
  dsimp only
  split
  · simp
  · rename_i hne
    simpa using hne

theorem selector_of_mem_currentFindings {loc : Sql.Locale} {db : Remediation.Database}
    {assetId : String} {row : CurrentFinding} (h : row ∈ currentFindings loc db assetId) :
    ∃ f ∈ db.findings, row.vulnerabilityKey = f.selector := by
  have hrows := distinctOnKey_subset [] _ row h
  rw [List.mem_insertionSort, List.mem_flatMap] at hrows
  obtain ⟨f, hf, hjoin⟩ := hrows
  exact ⟨f, List.mem_of_mem_filter hf, key_of_mem_joinFinding hjoin⟩

theorem exists_currentFinding {loc : Sql.Locale} {db : Remediation.Database} {assetId : String}
    {f : FindingRow} (hf : f ∈ db.findings) (hasset : f.assetId = assetId)
    (href : f.groupId ∈ db.groups.map GroupRow.id) :
    ∃ row ∈ currentFindings loc db assetId, row.vulnerabilityKey = f.selector := by
  have hne : joinFinding loc db f ≠ [] := joinFinding_ne_nil href
  obtain ⟨row, hrow⟩ := List.exists_mem_of_ne_nil _ hne
  have hsorted : row ∈ ((db.findings.filter fun f => decide (f.assetId = assetId)).flatMap
      (joinFinding loc db)).insertionSort fun a b => a.before loc b = true := by
    rw [List.mem_insertionSort]
    exact List.mem_flatMap.2 ⟨f, List.mem_filter.2 ⟨hf, decide_eq_true hasset⟩, hrow⟩
  obtain ⟨kept, hkept, hkey⟩ := exists_distinctOnKey hsorted List.not_mem_nil
  exact ⟨kept, hkept, hkey.trans (key_of_mem_joinFinding hrow)⟩

/-! ## The reconciliation of a saved card -/

/-- A reconciliation that writes found a key for every current finding. -/
theorem keys_of_foldlM_insertMissing {md5 : String → String} {policy : SlaPolicy}
    {assetId : String} {existing : List CaseRow} {now : Instant} {found : List CurrentFinding}
    {db db' : Remediation.Database}
    (h : found.foldlM (insertMissing md5 policy assetId existing now) db = .ok db') :
    ∀ f ∈ found, f.vulnerabilityKey ≠ none := by
  induction found generalizing db with
  | nil =>
      intro f hf
      cases hf
  | cons first found ih =>
      obtain ⟨mid, hmid, hrest⟩ := bind_eq_ok h
      intro f hf hnone
      rcases List.mem_cons.1 hf with rfl | hf
      · unfold insertMissing at hmid
        split at hmid
        · rename_i c hc
          rw [(existingCase?_eq_some hc).2] at hnone
          cases hnone
        · rw [hnone] at hmid
          cases hmid
      · exact ih hrest f hf hnone

theorem foldlM_insertMissing_of_known {md5 : String → String} {policy : SlaPolicy}
    {assetId : String} {existing : List CaseRow} {now : Instant} {found : List CurrentFinding}
    {db : Remediation.Database} (h : ∀ f ∈ found, (existingCase? existing f).isSome) :
    found.foldlM (insertMissing md5 policy assetId existing now) db = .ok db := by
  induction found with
  | nil => rfl
  | cons first found ih =>
      obtain ⟨c, hc⟩ := Option.isSome_iff_exists.1 (h first List.mem_cons_self)
      have hfirst : insertMissing md5 policy assetId existing now db first = .ok db := by
        simp [insertMissing, hc]
      rw [List.foldlM_cons, hfirst]
      exact ih fun f hf => h f (List.mem_cons_of_mem _ hf)

theorem step_reconcile_of_null_key {cfg : Settings} {db : Remediation.Database}
    {assetId : String} {now : Instant} {f : CurrentFinding}
    (hf : f ∈ currentFindings cfg.locale db assetId) (hnull : f.vulnerabilityKey = none) :
    step cfg db (.reconcile assetId now) = db := by
  change (Remediation.reconcile cfg.locale cfg.md5 cfg.staleDays assetId now db).1 = db
  unfold Remediation.reconcile
  split
  · rename_i result hresult
    unfold reconcileAsset at hresult
    split at hresult
    · obtain ⟨inserted, hinserted, _⟩ := bind_eq_ok hresult
      exact absurd hnull (keys_of_foldlM_insertMissing hinserted f hf)
    · cases hresult
      rfl
  · rfl

/-- A case that a reconciliation resolves has a complete and fresh snapshot. -/
theorem resolves_of_step_reconcile {cfg : Settings} {db : Remediation.Database}
    {assetId k : String} {now : Instant} {c c' : CaseRow} (hc : db.case? k = some c)
    (hopen : c.status ≠ .resolved)
    (hc' : (step cfg db (.reconcile assetId now)).case? k = some c')
    (hresolved : c'.status = .resolved) :
    resolves cfg db assetId now c = true := by
  obtain ⟨es, _, hstep⟩ := step_case cfg db (.reconcile assetId now) k
  rw [hc'] at hstep
  generalize hr : some c' = r at hstep
  cases hstep with
  | idle =>
      rw [hc] at hr
      cases hr
      exact absurd hresolved hopen
  | created ch hfree =>
      rw [hc] at hfree
      cases hfree
  | refreshed hrow hstatus =>
      rw [hc] at hrow
      cases hrow
      cases hr
      simp only [refreshCase, if_neg hstatus] at hresolved
      exact absurd hresolved hstatus
  | reopened hrow hstatus =>
      rw [hc] at hrow
      cases hrow
      exact absurd hstatus hopen
  | resolved hrow hresolves =>
      rw [hc] at hrow
      cases hrow
      exact hresolves

/-! ## Refreshes that resolve a case -/

theorem refreshCard_eq_or (ctx : RefreshContext) (request : BuildRequest) (answers : Answers)
    (db : Remediation.Database) :
    refreshCard ctx request answers db = db ∨
      ∃ snapshot saved, answers.cancelled = false ∧
        iterGroups snapshot = storedGroups request answers ∧
        Saves ctx.settings.locale request.assetId ctx.savedAt snapshot db saved ∧
        refreshCard ctx request answers db =
          step ctx.settings saved (.reconcile request.assetId ctx.reconciledAt) := by
  unfold refreshCard buildSnapshot
  by_cases hcancelled : answers.cancelled = true
  · rw [if_pos hcancelled]
    exact .inl rfl
  · rw [if_neg hcancelled]
    dsimp only
    split
    · exact .inl rfl
    · rename_i saved hsave
      exact .inr ⟨_, saved, by simpa using hcancelled, rfl, saves_of_saveCard hsave, rfl⟩

theorem Saves.exists_group {loc : Sql.Locale} {assetId : String} {savedAt : Instant}
    {snapshot : Snapshot} {db saved : Remediation.Database}
    (h : Saves loc assetId savedAt snapshot db saved) {g : SourceType × Group}
    (hg : g ∈ iterGroups snapshot) :
    ∃ row ∈ saved.groups, row.assetId = assetId ∧ row.truncated = g.2.truncated := by
  obtain ⟨base, hgroups⟩ := h.groups
  have hg' : g ∈ ((iterGroups snapshot).zipIdx base).map Prod.fst := by
    rw [List.zipIdx_map_fst]
    exact hg
  obtain ⟨stored, hstored, rfl⟩ := List.mem_map.1 hg'
  refine ⟨groupRow assetId stored, ?_, rfl, rfl⟩
  rw [hgroups]
  exact List.mem_append_right _ (List.mem_map_of_mem hstored)

theorem Saves.nodup {loc : Sql.Locale} {assetId : String} {savedAt : Instant}
    {snapshot : Snapshot} {db saved : Remediation.Database}
    (h : Saves loc assetId savedAt snapshot db saved) :
    ((iterGroups snapshot).map fun g => (g.1, g.2.collectionId)).Nodup := by
  obtain ⟨base, hgroups⟩ := h.groups
  have hkeys := h.constraints.groupKeys
  rw [hgroups, List.map_append] at hkeys
  exact nodup_uniqueKey_groupRows_iff.1 (List.nodup_append.1 hkeys).2.1

/-- A stored finding without an identity is current without a key. -/
theorem Saves.exists_null_key {loc : Sql.Locale} {assetId : String} {savedAt : Instant}
    {snapshot : Snapshot} {db saved : Remediation.Database}
    (h : Saves loc assetId savedAt snapshot db saved) {g : SourceType × Group}
    (hg : g ∈ iterGroups snapshot) {finding : Finding} (hfinding : finding ∈ g.2.items)
    (hun : unidentified finding = true) :
    ∃ row ∈ currentFindings loc saved assetId, row.vulnerabilityKey = none := by
  obtain ⟨old, base, findingBase, _, hfindings⟩ := h.findings
  have hblank : cleanValue finding.vulnerabilityInstanceId = none := by
    unfold unidentified at hun
    simp only [Bool.and_eq_true, Option.isNone_iff_eq_none] at hun
    exact hun.2
  obtain ⟨groupId, id, hrow⟩ : ∃ groupId id, findingRow assetId groupId finding id ∈
      findingRows assetId base findingBase snapshot :=
    exists_findingRow_of_blank hg hfinding hblank
  have hmem : selectorSync loc saved.groups (findingRow assetId groupId finding id) ∈
      saved.findings := by
    rw [hfindings]
    exact List.mem_append_right _ (List.mem_map_of_mem hrow)
  have href := h.constraints.references _ hmem
  obtain ⟨row, hcurrent, hkey⟩ : ∃ row ∈ currentFindings loc saved assetId, row.vulnerabilityKey =
      (selectorSync loc saved.groups (findingRow assetId groupId finding id)).selector :=
    exists_currentFinding hmem rfl href
  exact ⟨row, hcurrent, hkey.trans ((selector_selectorSync_eq_none_iff href).2 hun)⟩

/-- A refresh that resolves a case found no flag and was not refused. -/
theorem not_noticed_of_resolved {ctx : RefreshContext} {request : BuildRequest}
    {answers : Answers} {db : Remediation.Database} {k : String} {c c' : CaseRow}
    (hc : db.case? k = some c) (hopen : c.status ≠ .resolved)
    (hc' : (refreshCard ctx request answers db).case? k = some c')
    (hresolved : c'.status = .resolved) :
    ¬ Noticed request answers ∧ ¬ Refused ctx request answers := by
  rcases refreshCard_eq_or ctx request answers db with hsame |
    ⟨snapshot, saved, hcancelled, hstored, hsaves, hstep⟩
  · rw [hsame, hc] at hc'
    cases hc'
    exact absurd hresolved hopen
  have hrow : saved.case? k = some c := by
    rw [Database.case?, hsaves.cases]
    exact hc
  rw [hstep] at hc'
  have hresolves := resolves_of_step_reconcile hrow hopen hc' hresolved
  obtain ⟨card, hcard, hlast⟩ := find?_touchCard request.assetId ctx.savedAt db.cards
  have hcomplete : snapshotComplete saved request.assetId ctx.settings.staleDays ctx.savedAt
      ctx.reconciledAt = true := by
    rw [resolves, hsaves.cards, hcard] at hresolves
    simp only [Option.any_some, hlast, Bool.and_eq_true] at hresolves
    exact hresolves.2
  rw [snapshotComplete, Bool.and_eq_true, Bool.not_eq_true', List.any_eq_false,
    decide_eq_true_eq] at hcomplete
  constructor
  · intro hnoticed
    obtain ⟨g, hg, hflag⟩ := flagged_iff_noticed.2 hnoticed
    obtain ⟨row, hmem, hasset, htruncated⟩ := hsaves.exists_group (hstored ▸ hg)
    apply hcomplete.1 row hmem
    simp [hasset, htruncated, hflag]
  · intro hrefused
    cases hrefused with
    | cancelled h =>
        rw [hcancelled] at h
        cases h
    | repeatedGroup h => exact h (hstored ▸ hsaves.nodup)
    | unidentified h =>
        obtain ⟨g, hg, finding, hfinding, hun⟩ := h
        obtain ⟨row, hcurrent, hnull⟩ := hsaves.exists_null_key (hstored ▸ hg) hfinding hun
        rw [step_reconcile_of_null_key hcurrent hnull, hrow] at hc'
        cases hc'
        exact hopen hresolved
    | stale h => exact absurd hcomplete.2 (Int.not_lt.2 h)

/-! ## A refresh without a flag -/

/-- An open case under a key. -/
def openCase (assetId key : String) : CaseRow where
  caseId := key
  assetId := assetId
  vulnerabilityKey := key
  title := none
  cve := none
  severity := .unknown
  cvssScore := none
  passportInternalId := none
  dueAt := none
  firstSeenAt := 0
  lastSeenAt := 0

/-- An open case for every key of a list. -/
def openCases (assetId : String) (keys : List String) (h : keys.Nodup) : CaseTable where
  rows := keys.map (openCase assetId)
  pkNodup := by
    rw [List.map_map]
    simpa [Function.comp_def, openCase] using h
  ukNodup := by
    rw [List.map_map]
    apply List.Nodup.map _ h
    intro a b hab
    simpa [openCase] using hab

/-- A deployment with a policy and open cases. -/
def casesOnly (cases : CaseTable) : Remediation.Database :=
  { emptyDatabase defaultPolicy with cases := cases }

/-- The finding rows of a card have distinct unique keys. -/
theorem nodup_uniqueKey_findingRows (assetId : String) (base findingBase : Nat)
    (snapshot : Snapshot) :
    ((findingRows assetId base findingBase snapshot).map FindingRow.uniqueKey).Nodup := by
  set entries := deduplicateFindings (numberedGroups base snapshot) with hentries
  have hids : (entries.zipIdx findingBase).Pairwise fun x y => x.2 ≠ y.2 := by
    rw [← List.pairwise_map, List.zipIdx_map_snd]
    exact List.nodup_range'
  have hinstances : (entries.zipIdx findingBase).Pairwise fun x y =>
      cleanValue x.1.2.vulnerabilityInstanceId = none ∨
        cleanValue x.1.2.vulnerabilityInstanceId ≠ cleanValue y.1.2.vulnerabilityInstanceId := by
    have hkept := (keepFirst_pairwise [] ((numberedGroups base snapshot).flatMap fun stored =>
      stored.1.2.items.map fun finding => (stored, finding))).1
    have hfst := List.zipIdx_map_fst findingBase entries
    rw [hentries, deduplicateFindings] at hfst
    rw [← hfst, List.pairwise_map] at hkept
    exact hkept
  unfold findingRows
  rw [List.map_map, List.Nodup, List.pairwise_map]
  refine (hids.and hinstances).imp ?_
  rintro ⟨⟨stored, finding⟩, id⟩ ⟨⟨stored', finding'⟩, id'⟩ ⟨hid, hinstance⟩ heq
  simp only [Function.comp_apply, FindingRow.uniqueKey, findingRow] at heq
  cases hx : cleanValue finding.vulnerabilityInstanceId with
  | none =>
      cases hy : cleanValue finding'.vulnerabilityInstanceId with
      | none => exact hid (by simpa [hx, hy] using heq)
      | some j => simp [hx, hy] at heq
  | some i =>
      cases hy : cleanValue finding'.vulnerabilityInstanceId with
      | none => simp [hx, hy] at heq
      | some j =>
          rcases hinstance with hnone | hne
          · rw [hx] at hnone
            cases hnone
          · exact hne (by simpa [hx, hy] using heq)

@[simp]
theorem uniqueKey_selectorSync (loc : Sql.Locale) (groups : List GroupRow) (f : FindingRow) :
    (selectorSync loc groups f).uniqueKey = f.uniqueKey :=
  rfl

/-- A card without repeated groups is saved where nothing is stored. -/
theorem exists_saveCard {loc : Sql.Locale} {passports : FindingRow → List String} {assetId : String}
    {savedAt : Instant} {snapshot : Snapshot} (cases : CaseTable)
    (h : ((iterGroups snapshot).map fun g => (g.1, g.2.collectionId)).Nodup) :
    ∃ saved, saveCard loc passports assetId savedAt snapshot (casesOnly cases) = some saved := by
  set rows := (numberedGroups (nextId []) snapshot).map (groupRow assetId) with hrows
  set findings := findingRows assetId (nextId []) (nextId []) snapshot with hfindings
  have hgroupIds : (rows.map GroupRow.id).Nodup := by
    have hids : rows.map GroupRow.id = (numberedGroups (nextId []) snapshot).map Prod.snd := by
      rw [hrows, List.map_map]
      rfl
    rw [hids, numberedGroups, List.zipIdx_map_snd]
    exact List.nodup_range'
  have hgroupKeys : (rows.map GroupRow.uniqueKey).Nodup := nodup_uniqueKey_groupRows_iff.2 h
  have hfindingIds : ((findings.map (selectorSync loc rows)).map FindingRow.id).Nodup := by
    have hids : (findings.map (selectorSync loc rows)).map FindingRow.id =
        ((deduplicateFindings (numberedGroups (nextId []) snapshot)).zipIdx (nextId [])).map
          Prod.snd := by
      rw [hfindings, findingRows, List.map_map, List.map_map]
      rfl
    rw [hids, List.zipIdx_map_snd]
    exact List.nodup_range'
  have hfindingKeys : ((findings.map (selectorSync loc rows)).map FindingRow.uniqueKey).Nodup := by
    rw [List.map_map]
    exact nodup_uniqueKey_findingRows assetId _ _ snapshot
  have hreferences : ∀ f ∈ findings.map (selectorSync loc rows),
      f.groupId ∈ rows.map GroupRow.id := by
    intro f hf
    obtain ⟨row, hrow, rfl⟩ := List.mem_map.1 hf
    obtain ⟨stored, hstored, finding, _, id, rfl⟩ := mem_findingRows hrow
    exact List.mem_map.2 ⟨_, List.mem_map_of_mem hstored, rfl⟩
  have hdelete : saveStatement loc ⟨[], [], [], []⟩
      (.deleteGroups fun g => decide (g.assetId = assetId)) = some _ :=
    if_pos ⟨.nil, .nil, .nil, .nil, by simp [Statement.apply, removeFindings]⟩
  have hgroups : saveStatement loc
      (Statement.apply loc (.deleteGroups fun g => decide (g.assetId = assetId))
        ⟨[], [], [], []⟩) (.insertGroups rows) = some _ :=
    if_pos ⟨hgroupIds, hgroupKeys, .nil, .nil, by simp [Statement.apply, removeFindings]⟩
  have hinsert : saveStatement loc
      (Statement.apply loc (.insertGroups rows)
        (Statement.apply loc (.deleteGroups fun g => decide (g.assetId = assetId))
          ⟨[], [], [], []⟩)) (.insertFindings findings) = some _ :=
    if_pos ⟨hgroupIds, hgroupKeys, hfindingIds, hfindingKeys, hreferences⟩
  have hfold : ∃ s, (replaceAssetCardCache assetId rows findings).foldlM (saveStatement loc)
      ⟨[], [], [], []⟩ = some s := by
    simp only [replaceAssetCardCache, List.foldlM_cons, List.foldlM_nil, hdelete, hgroups, hinsert,
      Option.bind_eq_bind, Option.bind_some, Option.pure_def]
    exact ⟨_, rfl⟩
  obtain ⟨s, hs⟩ := hfold
  cases hsave : saveCard loc passports assetId savedAt snapshot (casesOnly cases) with
  | some saved => exact ⟨saved, rfl⟩
  | none =>
      have hnone := Option.map_eq_none_iff.1 hsave
      rw [show (casesOnly cases).groups = [] from rfl,
        show (casesOnly cases).findings = [] from rfl] at hnone
      exact absurd (hnone.symm.trans hs) (by simp)

theorem saveCard_casesOnly (loc : Sql.Locale) (passports : FindingRow → List String)
    (assetId : String) (savedAt : Instant) (snapshot : Snapshot) (cases other : CaseTable) :
    saveCard loc passports assetId savedAt snapshot (casesOnly cases) =
      (saveCard loc passports assetId savedAt snapshot (casesOnly other)).map fun saved =>
        { saved with cases := cases } := by
  unfold saveCard
  rw [Option.map_map]
  rfl

theorem exists_fresh_key (keys : List String) :
    ∃ key, key ∉ keys := by
  have hinj : Function.Injective fun n : Nat => String.ofList (List.replicate n 'x') := by
    intro a b h
    have hlength := congrArg List.length (String.ofList_inj.1 h)
    simpa using hlength
  have : Infinite String := Infinite.of_injective _ hinj
  obtain ⟨key, hkey⟩ := Infinite.exists_notMem_finset keys.toFinset
  exact ⟨key, by simpa using hkey⟩

theorem Saves.keys_ne_none {loc : Sql.Locale} {assetId : String} {savedAt : Instant}
    {snapshot : Snapshot} {cases : CaseTable} {saved : Remediation.Database}
    (h : Saves loc assetId savedAt snapshot (casesOnly cases) saved)
    (hidentified : ∀ g ∈ iterGroups snapshot, ∀ finding ∈ g.2.items,
      unidentified finding ≠ true) :
    ∀ row ∈ currentFindings loc saved assetId, row.vulnerabilityKey ≠ none := by
  intro row hrow hnone
  obtain ⟨f, hf, hkey⟩ := selector_of_mem_currentFindings hrow
  obtain ⟨old, base, findingBase, hold, hfindings⟩ := h.findings
  have href := h.constraints.references f hf
  rw [hfindings, List.eq_nil_of_sublist_nil hold, List.nil_append] at hf
  obtain ⟨written, hwritten, rfl⟩ := List.mem_map.1 hf
  obtain ⟨stored, hstored, finding, hfinding, id, rfl⟩ := mem_findingRows hwritten
  have hun : unidentified finding = true :=
    (selector_selectorSync_eq_none_iff href).1 (hkey.symm.trans hnone)
  exact hidentified stored.1 (List.fst_mem_of_mem_zipIdx hstored) finding hfinding hun

theorem Saves.snapshotComplete {loc : Sql.Locale} {assetId : String} {savedAt now : Instant}
    {staleDays : Int} {snapshot : Snapshot} {cases : CaseTable} {saved : Remediation.Database}
    (h : Saves loc assetId savedAt snapshot (casesOnly cases) saved)
    (hflags : ∀ g ∈ iterGroups snapshot, g.2.truncated ≠ true)
    (hfresh : (now - savedAt) / day < staleDays) :
    snapshotComplete saved assetId staleDays savedAt now = true := by
  rw [Remediation.snapshotComplete, Bool.and_eq_true, Bool.not_eq_true', List.any_eq_false,
    decide_eq_true_eq]
  refine ⟨?_, hfresh⟩
  intro row hrow hflag
  obtain ⟨base, hgroups⟩ := h.groups
  rw [hgroups] at hrow
  rcases List.mem_append.1 hrow with hold | hnew
  · cases List.mem_of_mem_filter hold
  · obtain ⟨stored, hstored, rfl⟩ := List.mem_map.1 hnew
    rw [Bool.and_eq_true] at hflag
    exact hflags stored.1 (List.fst_mem_of_mem_zipIdx hstored) hflag.2

/--
A reconciliation over open cases, one for every current finding, resolves the other
open cases of a complete snapshot.
-/
theorem step_reconcile_openCases {cfg : Settings} {saved : Remediation.Database}
    {assetId fresh : String} {savedAt now : Instant} {card : AssetCard} {keys : List String}
    (hnodup : (fresh :: keys).Nodup) (hcases : saved.cases = openCases assetId (fresh :: keys) hnodup)
    (hpolicy : saved.policy = some defaultPolicy)
    (hcard : saved.cards.find? (fun card => decide (card.assetId = assetId)) = some card)
    (hlast : card.lastSeen = some savedAt)
    (hkeys : (currentFindings cfg.locale saved assetId).map CurrentFinding.vulnerabilityKey =
      keys.map some)
    (hcomplete : Remediation.snapshotComplete saved assetId cfg.staleDays savedAt now = true) :
    (step cfg saved (.reconcile assetId now)).case? fresh =
      some (resolveCase now (openCase assetId fresh)) := by
  set found := currentFindings cfg.locale saved assetId with hfound
  set existing := assetCases saved assetId with hexisting
  have hrows : existing = (fresh :: keys).map (openCase assetId) := by
    rw [hexisting, assetCases, hcases]
    apply List.filter_eq_self.2
    intro c hc
    obtain ⟨key, _, rfl⟩ := List.mem_map.1 hc
    exact decide_eq_true rfl
  have hknown : ∀ f ∈ found, (existingCase? existing f).isSome := by
    intro f hf
    have hkey : f.vulnerabilityKey ∈ keys.map some := hkeys ▸ List.mem_map_of_mem hf
    obtain ⟨key, hmem, hsome⟩ := List.mem_map.1 hkey
    refine List.find?_isSome.2 ⟨openCase assetId key, ?_, decide_eq_true hsome⟩
    rw [hrows]
    exact List.mem_map_of_mem (List.mem_cons_of_mem _ hmem)
  have hnone : findingOf? found (openCase assetId fresh) = none := by
    apply List.find?_eq_none.2
    intro f hf hkey
    have hmem : f.vulnerabilityKey ∈ keys.map some := hkeys ▸ List.mem_map_of_mem hf
    rw [show f.vulnerabilityKey = some fresh from of_decide_eq_true hkey] at hmem
    exact (List.nodup_cons.1 hnodup).1 (by simpa using hmem)
  have hmem : openCase assetId fresh ∈ existing := by
    rw [hrows]
    exact List.mem_map_of_mem List.mem_cons_self
  have hresult : reconcileAsset cfg.locale cfg.md5 cfg.staleDays assetId now saved =
      .ok (resolveCases now (absentCases existing found)
        (refreshExisting defaultPolicy now existing found saved),
        { created := (found.filter fun f => (existingCase? existing f).isNone).length
          reopened := (reopenedCases existing found).length
          resolved := (absentCases existing found).length }) := by
    unfold reconcileAsset
    rw [hpolicy, hcard]
    simp only [← hfound, ← hexisting, foldlM_insertMissing_of_known hknown, hlast]
    have hsame : Remediation.snapshotComplete (refreshExisting defaultPolicy now existing found saved)
        assetId cfg.staleDays savedAt now = true := hcomplete
    change Except.bind _ _ = _
    simp only [Except.bind, hsame, if_true]
  change (Remediation.reconcile cfg.locale cfg.md5 cfg.staleDays assetId now saved).1.case? fresh = _
  rw [Remediation.reconcile, hresult]
  have hcase : saved.case? fresh = some (openCase assetId fresh) := by
    rw [Database.case?, hcases]
    exact Table.find?_eq_some_iff.2 ⟨List.mem_cons_self, rfl⟩
  have habsent : openCase assetId fresh ∈ absentCases existing found :=
    mem_absentCases.2 ⟨hmem, by rw [hnone]; rfl, by simp [openCase], by simp [openCase]⟩
  simp only [case?_resolveCases, case?_refreshExisting, hcase, Option.map_some,
    refreshPresent_of_absent fun _ => hnone, resolveAbsent, if_pos habsent]

/-- Without a flag and without a refusal, a refresh resolves some open case. -/
theorem exists_resolved {ctx : RefreshContext} {request : BuildRequest} {answers : Answers}
    (hnoticed : ¬ Noticed request answers) (hrefused : ¬ Refused ctx request answers) :
    ∃ db k c c', db.case? k = some c ∧ c.status ≠ .resolved ∧
      (refreshCard ctx request answers db).case? k = some c' ∧ c'.status = .resolved := by
  have hcancelled : answers.cancelled ≠ true := fun h => hrefused (.cancelled h)
  have hnodup : ((storedGroups request answers).map fun g => (g.1, g.2.collectionId)).Nodup := by
    by_contra h
    exact hrefused (.repeatedGroup h)
  have hflags : ∀ g ∈ storedGroups request answers, g.2.truncated ≠ true :=
    fun g hg hflag => hnoticed (flagged_iff_noticed.1 ⟨g, hg, hflag⟩)
  have hidentified : ∀ g ∈ storedGroups request answers, ∀ finding ∈ g.2.items,
      unidentified finding ≠ true :=
    fun g hg finding hfinding hun => hrefused (.unidentified ⟨g, hg, finding, hfinding, hun⟩)
  have hfresh : (ctx.reconciledAt - ctx.savedAt) / day < ctx.settings.staleDays := by
    by_contra h
    exact hrefused (.stale (Int.not_lt.1 h))
  obtain ⟨snapshot, hsnapshot, hstored⟩ : ∃ snapshot, buildSnapshot request answers = .ok snapshot ∧
      iterGroups snapshot = storedGroups request answers := by
    unfold buildSnapshot
    rw [if_neg hcancelled]
    exact ⟨_, rfl, rfl⟩
  rw [← hstored] at hnodup hflags hidentified
  -- The findings that are current after the save do not depend on the cases.
  obtain ⟨base, hbase⟩ : ∃ base, saveCard ctx.settings.locale ctx.passports request.assetId
      ctx.savedAt snapshot (casesOnly Table.empty) = some base :=
    exists_saveCard Table.empty hnodup
  set found := currentFindings ctx.settings.locale base request.assetId with hfound
  have hkeys := (saves_of_saveCard hbase).keys_ne_none hidentified
  rw [← hfound] at hkeys
  obtain ⟨keys, hkeysEq⟩ : ∃ keys : List String,
      found.map CurrentFinding.vulnerabilityKey = keys.map some := by
    refine ⟨found.map fun row => row.vulnerabilityKey.getD "", ?_⟩
    rw [List.map_map]
    apply List.map_congr_left
    intro row hrow
    obtain ⟨key, hkey⟩ := Option.ne_none_iff_exists'.1 (hkeys row hrow)
    simp [hkey]
  obtain ⟨fresh, hfreshKey⟩ := exists_fresh_key keys
  have hkeysNodup : (fresh :: keys).Nodup := by
    have hdistinct : (found.map CurrentFinding.vulnerabilityKey).Nodup :=
      List.pairwise_map.2 (currentFindings_pairwise ctx.settings.locale base request.assetId)
    rw [hkeysEq] at hdistinct
    exact List.nodup_cons.2 ⟨hfreshKey, List.Nodup.of_map some hdistinct⟩
  set cases := openCases request.assetId (fresh :: keys) hkeysNodup with hcases
  have hsave := saveCard_casesOnly ctx.settings.locale ctx.passports request.assetId ctx.savedAt
    snapshot cases Table.empty
  rw [hbase, Option.map_some] at hsave
  have hsaves := saves_of_saveCard hsave
  obtain ⟨card, hcard, hlast⟩ := find?_touchCard request.assetId ctx.savedAt []
  have hcomplete := hsaves.snapshotComplete hflags hfresh
  have hresolved := step_reconcile_openCases hkeysNodup hsaves.cases hsaves.policy
    (hsaves.cards ▸ hcard) hlast hkeysEq hcomplete
  refine ⟨casesOnly cases, fresh, openCase request.assetId fresh,
    resolveCase ctx.reconciledAt (openCase request.assetId fresh), ?_, by simp [openCase], ?_, ?_⟩
  · exact Table.find?_eq_some_iff.2 ⟨List.mem_cons_self, rfl⟩
  · unfold refreshCard
    rw [hsnapshot]
    dsimp only
    rw [hsave]
    exact hresolved
  · rfl

/-! ## When a resolved case implies a complete fetch -/

/-- A case that a refresh of the asset resolves was absent from a complete fetch. -/
def ResolvesOnlyComplete (ctx : RefreshContext) (request : BuildRequest) (answers : Answers)
    (card : RemoteCard) : Prop :=
  ∀ db k c c', db.case? k = some c → c.status ≠ .resolved →
    (refreshCard ctx request answers db).case? k = some c' → c'.status = .resolved →
    FetchedCompletely request answers card

/--
A refresh resolves cases only after a complete fetch exactly when the fetch is
complete, or what is missing raises the flag of a stored group, or nothing is
resolved anyway.
-/
theorem resolves_only_complete_iff (ctx : RefreshContext) (request : BuildRequest)
    (answers : Answers) (card : RemoteCard) :
    ResolvesOnlyComplete ctx request answers card ↔
      FetchedCompletely request answers card ∨ Noticed request answers ∨
        Refused ctx request answers := by
  constructor
  · intro h
    by_contra hnone
    simp only [not_or] at hnone
    obtain ⟨hincomplete, hnoticed, hrefused⟩ := hnone
    obtain ⟨db, k, c, c', hc, hopen, hc', hresolved⟩ := exists_resolved hnoticed hrefused
    exact hincomplete (h db k c c' hc hopen hc' hresolved)
  · rintro h db k c c' hc hopen hc' hresolved
    obtain ⟨hnoticed, hrefused⟩ := not_noticed_of_resolved hc hopen hc' hresolved
    rcases h with hcomplete | h | h
    · exact hcomplete
    · exact absurd h hnoticed
    · exact absurd h hrefused

/-! ## A group list that fails -/

/-- The settings of a small deployment and a reconciliation right after the save. -/
def plainContext : RefreshContext where
  settings := plainSettings
  passports := fun _ => []
  savedAt := 0
  reconciledAt := 0

/-- A request for the vulnerabilities of one host. -/
def hostRequest : BuildRequest where
  assetId := "host"
  limitPerCollection := 1000
  maxItemsPerCollection := 50000
  uuid5 := id

/-- The group list of the operating system fails, and the other sources are empty. -/
def failedGroupList : Answers where
  groups
    | .os => .error "502 Bad Gateway"
    | _ => .ok (some [])
  pages := fun _ _ _ => .batch []
  dockerToken := .ok ()
  dockerHeader := .ok 0
  dockerPages := fun _ => .ok { rows := [], total := some 0 }

/-- An operating system with one collection and one finding. -/
def vulnerableHost : RemoteCard where
  os := [{ collectionId := "c1", findings := [{ vulnerabilityId := "v1" }] }]

/-- The failed group list raises no flag, and an open case is resolved. -/
theorem resolved_after_failed_group_list :
    ¬ ResolvesOnlyComplete plainContext hostRequest failedGroupList vulnerableHost := by
  intro h
  have hdb : (casesOnly (openCases "host" ["id:v1"] (by simp))).case? "id:v1" =
      some (openCase "host" "id:v1") := by
    rfl
  have hrefresh : (refreshCard plainContext hostRequest failedGroupList
      (casesOnly (openCases "host" ["id:v1"] (by simp)))).case? "id:v1" =
      some (resolveCase 0 (openCase "host" "id:v1")) := by
    decide +kernel
  have hcomplete := h _ _ _ _ hdb (by simp [openCase]) hrefresh rfl
  obtain ⟨entry, hentry, _⟩ :=
    hcomplete.os _ List.mem_cons_self _ List.mem_cons_self
  cases hentry

end AssetCard
end MpvmApp
