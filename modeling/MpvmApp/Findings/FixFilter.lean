import MpvmApp.Findings.SummaryEquality
import MpvmApp.Sql.Like

/-!
# The filter for vulnerabilities with a fix

The list shows for each vulnerability whether it has a fix: the greatest fix text of the
passports that are linked to its findings, unless it is blank.  The filter of the list
looks at one finding after the other, and a blank text counts for it.

Main definitions:

- `filteredFindingsBy`: the findings that pass the filters of the list.
- `listBy`: the list with its filters, in both ways to its rows.
- `FixFilterExact`: the filter divides the list as the shown flags do.
- `FixesAgree`: the findings of a vulnerability all have what its flag shows.

Main results:

- Theorem `exists_shows_iff`: the vulnerabilities on the pages of the list, and their
  flags.
- Theorem `fixFilterExact_iff`: the filter is exact when the findings agree with the
  flags, and only then.
-/

namespace MpvmApp
namespace Findings

open Sql
open Passports (Collation Collated)

/-! ## Filters -/

/-- The filters of the list besides `has_fix`. -/
structure ListFilters where
  q : Option String := none
  hostQ : Option String := none
  os : Option String := none
  assetType : Option String := none
  assetId : Option String := none
  severity : Option String := none
  source : Option String := none
  fixQ : Option String := none

/-- A filter that is missing or empty admits everything. -/
def ifGiven (filter : Option String) (test : String → Bool) : Bool :=
  match nullIfEmpty filter with
  | some text => test text
  | none => true

/-- `value ILIKE pattern`, false for a null value. -/
def ilike (loc : Sql.Locale) (pattern : String) (value : Option String) : Bool :=
  value.any fun text => like (loc.lower pattern) (loc.lower text)

/-- The pattern of a filter by text. -/
def containsPattern (text : String) : String :=
  "%" ++ strip text ++ "%"

/-- The severity that a filter asks for. -/
def severityFilter (severity : String) : Severity :=
  match (strip severity).toLower with
  | "critical" => .critical
  | "high" => .high
  | "medium" => .medium
  | "low" => .low
  | _ => .unknown

/-- The search finds the finding by one of its columns, or by the name of its group. -/
def searchFinds (loc : Sql.Locale) (s : Analytics) (q : String) (finding : FindingRow) : Bool :=
  s.findings.any fun m => decide (m.id = finding.id) &&
    (ilike loc (containsPattern q) m.vulnerabilityId || ilike loc (containsPattern q) m.cveName ||
      ilike loc (containsPattern q) m.name ||
      s.groups.any fun g => decide (g.id = m.groupId) && ilike loc (containsPattern q) g.name)

/-- The filters on the columns of a card. -/
def ListFilters.admitsCard (loc : Sql.Locale) (filters : ListFilters) (card : CardRow) : Bool :=
  (ifGiven filters.hostQ fun text =>
    ilike loc (containsPattern text) card.assetId ||
      ilike loc (containsPattern text) card.displayName ||
      ilike loc (containsPattern text) card.hostname ||
      ilike loc (containsPattern text) card.fqdn ||
      ilike loc (containsPattern text) card.ipAddress) &&
  (ifGiven filters.os fun text =>
    ilike loc (containsPattern text) card.osName ||
      ilike loc (containsPattern text) card.osVersion) &&
  (ifGiven filters.assetType fun text => ilike loc (containsPattern text) card.assetType) &&
  ifGiven filters.assetId fun text => decide (card.assetId = strip text)

/-- The filters on a finding, its group and its card. -/
def ListFilters.admits (loc : Sql.Locale) (s : Analytics) (filters : ListFilters)
    (finding : FindingRow) (group : GroupRow) (card : CardRow) : Bool :=
  (ifGiven filters.q fun text => searchFinds loc s text finding) &&
  filters.admitsCard loc card &&
  (ifGiven filters.severity fun text =>
    decide (severityOf loc finding.severity = severityFilter text)) &&
  ifGiven filters.source fun text => decide (group.sourceType = text)

/-- `_has_fix_exists_sql`: the finding has a passport with a fix text. -/
def hasFixExists (loc : Sql.Locale) (s : Analytics) (fixQ : Option String) (findingId : Nat) :
    Bool :=
  (linkedPassports s [findingId]).any fun x =>
    match passportFix x.1.rawDetailJson with
    | some text => ifGiven fixQ fun q => ilike loc (containsPattern q) text
    | none => false

/-- The values of `has_fix`; the value `any` asks for nothing. -/
inductive HasFixFilter where
  | any
  | yes
  | no
deriving DecidableEq, Repr

/-- The value of `has_fix`, or an error for another text. -/
def hasFixFilter (hasFix : Option String) : Except String HasFixFilter :=
  match nullIfEmpty hasFix with
  | none => .ok .any
  | some text =>
      match (strip text).toLower with
      | "yes" => .ok .yes
      | "no" => .ok .no
      | "any" => .ok .any
      | _ => .error ("Unsupported has_fix filter: " ++ text)

theorem hasFixFilter_yes :
    hasFixFilter (some "yes") = .ok .yes := by
  decide +kernel

theorem hasFixFilter_no :
    hasFixFilter (some "no") = .ok .no := by
  decide +kernel

/-- The filter `has_fix` on a finding. -/
def HasFixFilter.admits (loc : Sql.Locale) (s : Analytics) (fixQ : Option String)
    (findingId : Nat) : HasFixFilter → Bool
  | .any => true
  | .yes => hasFixExists loc s fixQ findingId
  | .no => !hasFixExists loc s fixQ findingId

/-- `_filtered_findings_cte`. -/
def filteredFindingsBy (loc : Sql.Locale) (s : Analytics) (filters : ListFilters)
    (hasFix : HasFixFilter) : List FilteredFinding :=
  (s.findings.filter FindingRow.valid).flatMap fun f =>
    (s.groups.filter fun g => decide (g.id = f.groupId)).flatMap fun g =>
      (s.cards.filter fun c => decide (c.assetId = f.assetId) && filters.admits loc s f g c &&
        hasFix.admits loc s filters.fixQ f.id).map (filterRow loc f g)

/-! ## The list with filters -/

/-- The sort keys of the list. -/
inductive ListSort where
  | column (column : SortColumn)
  | howToFix
  | hasFix
  | lastSeen
deriving DecidableEq, Repr

/-- The sort key of a request, if it is known. -/
def listSort? : Option String → Option ListSort
  | some "how_to_fix" => some .howToFix
  | some "has_fix" => some .hasFix
  | some "last_seen" => some .lastSeen
  | sortBy => (sortColumn? sortBy).map .column

/-- `sort_by_fix_columns`: the fix texts are read by the query itself. -/
def ListSort.readsFix : ListSort → Bool
  | .howToFix | .hasFix => true
  | _ => false

/-- `fix_rollup` of the selectors among the filtered findings. -/
def fixRollup (loc : Sql.Locale) (s : Analytics) (filtered : List (Option String))
    (selector : Option String) : Option String :=
  let group := (fixFindings s (fromKeys filtered.reduceOption)).filter fun x =>
    sqlEq x.1 selector
  maxOf loc.le (group.map Prod.snd)

/-- `CASE WHEN COALESCE(how_to_fix, '') = '' THEN 1 ELSE 0 END`. -/
def withoutFix (howToFix : Option String) : Nat :=
  if howToFix.getD "" = "" then 1 else 0

/-- `ORDER BY` of the list, for rows with a vulnerability. -/
def ListSort.order {α : Type} (loc : Collation) (direction : Direction)
    (fix : Option String → Option String) (vulnerability : α → VulnerabilityRow)
    (rows : List α) : ListSort → List α
  | .column served =>
      orderBy loc served direction (fun r => (vulnerability r).toVulnerabilityColumns) rows
  | .lastSeen =>
      orderByValue loc direction (fun r => (vulnerability r).lastSeen.map (collate loc))
        (fun r => (vulnerability r).selector) rows
  | .hasFix =>
      orderByValue loc direction (fun r => some (withoutFix (fix (vulnerability r).selector)))
        (fun r => (vulnerability r).selector) rows
  | .howToFix =>
      -- the first column of this order ascends in both directions
      sortOn (fun r => withoutFix (fix (vulnerability r).selector))
        (orderByValue loc direction
          (fun r => (fix (vulnerability r).selector).map fun text =>
            collate loc (String.ofList (text.toList.take 80)))
          (fun r => (vulnerability r).selector) rows)

/-- The live page of the filtered findings. -/
def liveRowsBy (loc : Collation) (s : Analytics) (sort : ListSort) (direction : Direction)
    (limit offset : Int) (findings : List FilteredFinding) :
    List (VulnerabilityRow × List PassportEntry) :=
  let fix := fixRollup loc.toLocale s (findings.map fun r => r.selector)
  let aggregated := (aggregatedView loc.toLocale).view findings
  let paged := page limit offset (sort.order loc direction fix id aggregated)
  let passports := passportRollup loc s (findings.map fun r => (r.selector, r.findingId))
  sort.order loc direction fix Prod.fst (paged.map fun r => (r, passports r.selector))

/-- The decoded rows of a page with their fix texts. -/
def decodeRows (loc : Collation) (s : Analytics) (sort : ListSort)
    (fix : Option String → Option String)
    (rows : List (VulnerabilityRow × List PassportEntry)) : List VulnerabilityItem :=
  if sort.readsFix then rows.map fun x => decodeVulnerability x.1 x.2 (fix x.1.selector)
  else
    let items := rows.map fun x => decodeVulnerability x.1 x.2 none
    items.map (attachFixText (fixMap loc s (items.map VulnerabilityItem.selector)))

/-- No filter is given. -/
def ListFilters.isEmpty (filters : ListFilters) : Bool :=
  [filters.q, filters.hostQ, filters.os, filters.assetType, filters.assetId, filters.severity,
    filters.source, filters.fixQ].all fun filter => (nullIfEmpty filter).isNone

/-- The column by which the stored aggregate serves a request, if `use_rollup` is true. -/
def rollupColumn (rollupEnabled : Bool) (filters : ListFilters) (hasFix : Option String) :
    ListSort → Option SortColumn
  | .column column =>
      if rollupEnabled && filters.isEmpty && (nullIfEmpty hasFix).isNone then some column else none
  | _ => none

/-- The rows and the total of the stored aggregate. -/
def rollupPage (loc : Collation) (s : Analytics) (query : ListQuery) (column : SortColumn)
    (direction : Direction) : ListPage where
  total := if query.includeTotal then s.rollup.length else 0
  rows :=
    decodeRows loc s (.column column) (fun _ => none)
      (rollupRows loc s column direction query.limit query.offset)
  limit := pageLimit query.limit
  offset := pageOffset query.offset

/-- The rows and the total of the filtered findings. -/
def livePage (loc : Collation) (s : Analytics) (query : ListQuery) (sort : ListSort)
    (direction : Direction) (findings : List FilteredFinding) : ListPage where
  total :=
    if query.includeTotal then countDistinct (findings.filterMap fun r => r.selector) else 0
  rows :=
    decodeRows loc s sort (fixRollup loc.toLocale s (findings.map fun r => r.selector))
      (liveRowsBy loc s sort direction query.limit query.offset findings)
  limit := pageLimit query.limit
  offset := pageOffset query.offset

/-- The list of an accepted request. -/
def acceptedList (loc : Collation) (rollupEnabled : Bool) (filters : ListFilters)
    (hasFix : Option String) (filter : HasFixFilter) (query : ListQuery) (sort : ListSort)
    (direction : Direction) (s : Analytics) : ListPage :=
  match rollupColumn rollupEnabled filters hasFix sort with
  | some column => rollupPage loc s query column direction
  | none =>
      livePage loc s query sort direction (filteredFindingsBy loc.toLocale s filters filter)

/-- The list: a request is refused for its sort key, its direction or its filter. -/
def listBy (loc : Collation) (rollupEnabled : Bool) (filters : ListFilters)
    (hasFix : Option String) (query : ListQuery) (s : Analytics) : Except String ListPage :=
  match listSort? query.sortBy with
  | none => .error ("Unsupported sort column: " ++ query.sortBy.getD "")
  | some sort =>
      match direction? query.sortDir with
      | none => .error "sort_dir must be 'asc' or 'desc'"
      | some direction =>
          match hasFixFilter hasFix with
          | .error message => .error message
          | .ok filter =>
              .ok (acceptedList loc rollupEnabled filters hasFix filter query sort direction s)

/-! ## Fix texts -/

/-- A passport of the finding has the fix text. -/
def FindingFix (s : Analytics) (findingId : Nat) (text : String) : Prop :=
  ∃ link ∈ s.links, link.assetVulnerabilityId = findingId ∧
    ∃ passport ∈ s.passports, passport.internalId = link.passportInternalId ∧
      passportFix passport.rawDetailJson = some text

/-- A finding of the vulnerability has the fix text. -/
def VulnerabilityFix (s : Analytics) (selector : Option String) (text : String) : Prop :=
  ∃ finding ∈ s.findings, finding.valid = true ∧ finding.selector = selector ∧
    FindingFix s finding.id text

/-- The finding has a fix text with the text that is searched for. -/
def FixKnown (loc : Sql.Locale) (s : Analytics) (fixQ : Option String) (findingId : Nat) : Prop :=
  ∃ text, FindingFix s findingId text ∧
    ifGiven fixQ (fun q => ilike loc (containsPattern q) (some text)) = true

/--
The greatest fix text of the vulnerability is not blank.  An empty selector is looked up
only by a query that reads the fix texts itself.
-/
def FixShown (loc : Sql.Locale) (s : Analytics) (sort : ListSort) (selector : Option String) :
    Prop :=
  ∃ key, selector = some key ∧ (key ≠ "" ∨ sort.readsFix = true) ∧
    ∃ text, VulnerabilityFix s selector text ∧
      (∀ other, VulnerabilityFix s selector other → loc.le other text = true) ∧
      isBlank (some text) = false

/-- The best value so far is the greatest of those seen. -/
def GreatestOf (loc : Collation) (texts : List String) : Option String → Prop
  | none => texts = []
  | some best => best ∈ texts ∧ ∀ other ∈ texts, loc.le other best = true

theorem greatestOf_maxOf (loc : Collation) (values : List (Option String)) :
    GreatestOf loc values.reduceOption (maxOf loc.le values) := by
  have hrefl : ∀ text, loc.le text text = true := fun text => (loc.le_total text text).elim id id
  unfold maxOf
  generalize values.reduceOption = texts
  induction texts using List.reverseRecOn with
  | nil => rfl
  | append_singleton texts last ih =>
      rw [List.foldl_append, List.foldl_cons, List.foldl_nil]
      generalize texts.foldl _ none = found at ih ⊢
      cases found with
      | none =>
          obtain rfl : texts = [] := ih
          exact ⟨by simp, by simpa using hrefl last⟩
      | some best =>
          obtain ⟨hmem, hgreatest⟩ := ih
          dsimp only
          by_cases hle : loc.le best last = true
          · rw [if_pos hle]
            refine ⟨by simp, ?_⟩
            intro other hother
            rcases List.mem_append.1 hother with hold | hnew
            · exact loc.le_trans _ _ _ (hgreatest other hold) hle
            · rw [List.mem_singleton.1 hnew]
              exact hrefl last
          · rw [if_neg hle]
            refine ⟨List.mem_append_left _ hmem, ?_⟩
            intro other hother
            rcases List.mem_append.1 hother with hold | hnew
            · exact hgreatest other hold
            · rw [List.mem_singleton.1 hnew]
              exact (loc.le_total last best).resolve_right hle

/-- The greatest of the values that are not null. -/
theorem maxOf_eq_some_iff {loc : Collation} {values : List (Option String)} {text : String} :
    maxOf loc.le values = some text ↔
      some text ∈ values ∧ ∀ other, some other ∈ values → loc.le other text = true := by
  have hmem : ∀ other, some other ∈ values ↔ other ∈ values.reduceOption := by
    intro other
    exact List.reduceOption_mem_iff.symm
  have hgreatest := greatestOf_maxOf loc values
  simp only [hmem]
  constructor
  · intro h
    rw [h] at hgreatest
    exact hgreatest
  · rintro ⟨htext, hall⟩
    cases hmax : maxOf loc.le values with
    | none =>
        rw [hmax] at hgreatest
        rw [show values.reduceOption = [] from hgreatest] at htext
        cases htext
    | some best =>
        rw [hmax] at hgreatest
        have hle : loc.le best text = true := hall best hgreatest.1
        have hge : loc.le text best = true := hgreatest.2 text htext
        rw [loc.le_antisymm _ _ hle hge]

section Texts

variable {s : Analytics}

theorem mem_linkedPassports {ids : List Nat} {x : PassportRow × MatchedLink} :
    x ∈ linkedPassports s ids ↔
      ∃ id ∈ ids, x.2 ∈ s.links ∧ x.2.assetVulnerabilityId = id ∧ x.1 ∈ s.passports ∧
        x.1.internalId = x.2.passportInternalId := by
  unfold linkedPassports
  simp only [List.mem_flatMap, List.mem_map, List.mem_filter, decide_eq_true_eq]
  constructor
  · rintro ⟨id, hid, link, ⟨hlink, hfinding⟩, passport, ⟨hpassport, hkey⟩, rfl⟩
    exact ⟨id, hid, hlink, hfinding, hpassport, hkey⟩
  · rintro ⟨id, hid, hlink, hfinding, hpassport, hkey⟩
    exact ⟨id, hid, x.2, ⟨hlink, hfinding⟩, x.1, ⟨hpassport, hkey⟩, rfl⟩

theorem exists_linkedPassports_iff {id : Nat} {text : String} :
    (∃ x ∈ linkedPassports s [id], passportFix x.1.rawDetailJson = some text) ↔
      FindingFix s id text := by
  simp only [mem_linkedPassports, List.mem_singleton, exists_eq_left]
  constructor
  · rintro ⟨x, ⟨hlink, hfinding, hpassport, hkey⟩, hfix⟩
    exact ⟨x.2, hlink, hfinding, x.1, hpassport, hkey, hfix⟩
  · rintro ⟨link, hlink, hfinding, passport, hpassport, hkey, hfix⟩
    exact ⟨(passport, link), ⟨hlink, hfinding, hpassport, hkey⟩, hfix⟩

theorem hasFixExists_iff {loc : Sql.Locale} {fixQ : Option String} {id : Nat} :
    hasFixExists loc s fixQ id = true ↔ FixKnown loc s fixQ id := by
  unfold hasFixExists FixKnown
  rw [List.any_eq_true]
  simp only [← exists_linkedPassports_iff]
  constructor
  · rintro ⟨x, hx, htest⟩
    split at htest
    · rename_i text htext
      exact ⟨text, ⟨x, hx, htext⟩, htest⟩
    · cases htest
  · rintro ⟨text, ⟨x, hx, htext⟩, htest⟩
    refine ⟨x, hx, ?_⟩
    rw [htext]
    exact htest

theorem some_mem_fixFindings (h : s.Constraints) {keys : List String}
    {selector : Option String} {text : String} :
    (selector, some text) ∈ fixFindings s keys ↔
      ∃ key ∈ keys, selector = some key ∧ VulnerabilityFix s selector text := by
  unfold fixFindings VulnerabilityFix
  simp only [List.mem_flatMap, List.mem_map, List.mem_filter, Bool.and_eq_true, List.any_eq_true,
    decide_eq_true_eq, Prod.mk.injEq]
  constructor
  · rintro ⟨f, ⟨hf, hvalid, key, hkey, hselector⟩, g, _, x, hx, rfl, htext⟩
    exact ⟨key, hkey, hselector, f, hf, hvalid, rfl,
      exists_linkedPassports_iff.1 ⟨x, hx, htext⟩⟩
  · rintro ⟨key, hkey, rfl, f, hf, hvalid, hselector, hfix⟩
    obtain ⟨g, hg, hid⟩ := List.mem_map.1 (h.store.references f hf)
    obtain ⟨x, hx, htext⟩ := exists_linkedPassports_iff.2 hfix
    exact ⟨f, ⟨hf, hvalid, key, hkey, hselector⟩, g, ⟨hg, hid⟩, x, hx, hselector, htext⟩

theorem isSome_cleanText_iff {value : Option String} :
    (cleanText value).isSome = true ↔ ∃ text, value = some text ∧ isBlank (some text) = false := by
  cases value with
  | none => simp [cleanText, nullIfEmpty]
  | some text => simp [cleanText, nullIfEmpty, isBlank]

/-- The flag of a vulnerability among the selectors for which the fix texts are read. -/
theorem isSome_maxOf_iff (h : s.Constraints) {loc : Collation} {keys : List String}
    {selector : Option String} :
    (cleanText (maxOf loc.le (((fixFindings s keys).filter fun x =>
        decide (x.1 = selector)).map Prod.snd))).isSome = true ↔
      ∃ key ∈ keys, selector = some key ∧ ∃ text, VulnerabilityFix s selector text ∧
        (∀ other, VulnerabilityFix s selector other → loc.le other text = true) ∧
        isBlank (some text) = false := by
  have hmem : ∀ text, some text ∈ ((fixFindings s keys).filter fun x =>
      decide (x.1 = selector)).map Prod.snd ↔ (selector, some text) ∈ fixFindings s keys := by
    intro text
    rw [List.mem_map]
    constructor
    · rintro ⟨⟨found, value⟩, hx, rfl⟩
      obtain ⟨hx, hselector⟩ := List.mem_filter.1 hx
      rw [← of_decide_eq_true hselector]
      exact hx
    · intro hx
      exact ⟨(selector, some text), List.mem_filter.2 ⟨hx, by simp⟩, rfl⟩
  rw [isSome_cleanText_iff]
  simp only [maxOf_eq_some_iff, hmem, some_mem_fixFindings h]
  constructor
  · rintro ⟨text, ⟨⟨key, hkey, hselector, hfix⟩, hgreatest⟩, hblank⟩
    exact ⟨key, hkey, hselector, text, hfix,
      fun other hother => hgreatest other ⟨key, hkey, hselector, hother⟩, hblank⟩
  · rintro ⟨key, hkey, hselector, text, hfix, hgreatest, hblank⟩
    refine ⟨text, ⟨⟨key, hkey, hselector, hfix⟩, ?_⟩, hblank⟩
    rintro other ⟨_, _, _, hother⟩
    exact hgreatest other hother

theorem isSome_fixMap_iff (h : s.Constraints) {loc : Collation} {sort : ListSort}
    (hsort : sort.readsFix = false) {shown : List (Option String)} {selector : Option String}
    (hmem : selector ∈ shown) :
    (cleanText (fixMap loc s shown selector)).isSome = true ↔
      FixShown loc.toLocale s sort selector := by
  unfold fixMap FixShown
  rw [isSome_maxOf_iff h]
  simp only [mem_fromKeys, List.mem_filter, List.reduceOption_mem_iff, decide_eq_true_eq, hsort,
    Bool.false_eq_true, or_false]
  constructor
  · rintro ⟨key, ⟨_, hne⟩, hselector, hrest⟩
    exact ⟨key, hselector, hne, hrest⟩
  · rintro ⟨key, hselector, hne, hrest⟩
    exact ⟨key, ⟨hselector ▸ hmem, hne⟩, hselector, hrest⟩

theorem fst_of_mem_fixFindings {keys : List String} {x : Option String × Option String}
    (hx : x ∈ fixFindings s keys) :
    ∃ key, x.1 = some key := by
  unfold fixFindings at hx
  simp only [List.mem_flatMap, List.mem_map, List.mem_filter, Bool.and_eq_true, List.any_eq_true,
    decide_eq_true_eq] at hx
  obtain ⟨f, ⟨_, _, key, _, hselector⟩, _, _, _, _, rfl⟩ := hx
  exact ⟨key, hselector⟩

/-- The flag of a row whose fix text the query reads itself. -/
theorem isSome_fixRollup_iff (h : s.Constraints) {loc : Collation} {sort : ListSort}
    (hsort : sort.readsFix = true) {filtered : List (Option String)} {selector : Option String}
    (hmem : selector ∈ filtered) :
    (cleanText (fixRollup loc.toLocale s filtered selector)).isSome = true ↔
      FixShown loc.toLocale s sort selector := by
  unfold fixRollup FixShown
  have hkeys : ((fixFindings s (fromKeys filtered.reduceOption)).filter fun x =>
      sqlEq x.1 selector) =
      (fixFindings s (fromKeys filtered.reduceOption)).filter fun x =>
        decide (x.1 = selector) := by
    refine List.filter_congr fun x hx => ?_
    obtain ⟨key, hkey⟩ := fst_of_mem_fixFindings hx
    rw [hkey, sqlEq_some_left]
  dsimp only
  rw [hkeys, isSome_maxOf_iff h]
  simp only [mem_fromKeys, List.reduceOption_mem_iff, hsort, or_true, true_and]
  constructor
  · rintro ⟨key, _, hselector, hrest⟩
    exact ⟨key, hselector, hrest⟩
  · rintro ⟨key, hselector, hrest⟩
    exact ⟨key, hselector ▸ hmem, hselector, hrest⟩

end Texts

/-! ## Pages of the list -/

section Pages

variable {s : Analytics}

/-- Every row is on some page. -/
theorem exists_mem_page_iff {α : Type} {limit : Int} {rows : List α} {a : α} :
    (∃ offset, a ∈ page limit offset rows) ↔ a ∈ rows := by
  unfold page
  constructor
  · rintro ⟨offset, ha⟩
    exact List.mem_of_mem_drop (List.mem_of_mem_take ha)
  · intro ha
    obtain ⟨i, hi, rfl⟩ := List.mem_iff_getElem.1 ha
    refine ⟨(i : Int), ?_⟩
    have hoffset : pageOffset (i : Int) = i := by
      unfold pageOffset
      omega
    have hlimit : 0 < pageLimit limit := by
      unfold pageLimit
      omega
    rw [hoffset, List.drop_eq_getElem_cons hi]
    obtain ⟨n, hn⟩ := Nat.exists_eq_succ_of_ne_zero (Nat.pos_iff_ne_zero.1 hlimit)
    rw [hn, List.take_succ_cons]
    exact List.mem_cons_self

theorem mem_orderByValue {α β : Type} [LinearOrder β] {loc : Collation} {direction : Direction}
    {value : α → Option β} {selector : α → Option String} {rows : List α} {a : α} :
    a ∈ orderByValue loc direction value selector rows ↔ a ∈ rows := by
  cases direction with
  | _ => exact mem_sortOn

theorem ListSort.mem_order {α : Type} {loc : Collation} {direction : Direction}
    {fix : Option String → Option String} {vulnerability : α → VulnerabilityRow} {rows : List α}
    {sort : ListSort} {a : α} :
    a ∈ sort.order loc direction fix vulnerability rows ↔ a ∈ rows := by
  cases sort with
  | column served =>
      cases served with
      | _ => exact mem_orderByValue
  | lastSeen => exact mem_orderByValue
  | hasFix => exact mem_orderByValue
  | howToFix => exact mem_sortOn.trans mem_orderByValue

/-- The selectors of the live pages are those of the findings. -/
theorem exists_mem_liveRowsBy_iff {loc : Collation} {sort : ListSort} {direction : Direction}
    {limit : Int} {findings : List FilteredFinding} {selector : Option String} :
    (∃ offset, ∃ x ∈ liveRowsBy loc s sort direction limit offset findings,
        x.1.selector = selector) ↔
      selector ∈ findings.map fun r => r.selector := by
  have hview : (∃ r ∈ (aggregatedView loc.toLocale).view findings, r.selector = selector) ↔
      selector ∈ findings.map fun r => r.selector := by
    rw [GroupedView.view_eq_map_keys]
    simp only [List.mem_map, GroupedView.mem_keys]
    constructor
    · rintro ⟨r, ⟨key, ⟨f, hf, rfl⟩, rfl⟩, rfl⟩
      exact ⟨f, hf, rfl⟩
    · rintro ⟨f, hf, rfl⟩
      exact ⟨_, ⟨f.selector, ⟨f, hf, rfl⟩, rfl⟩, rfl⟩
  rw [← hview]
  unfold liveRowsBy
  simp only [ListSort.mem_order, List.mem_map]
  constructor
  · rintro ⟨offset, x, ⟨r, hr, rfl⟩, hselector⟩
    have hmem := exists_mem_page_iff.1 ⟨offset, hr⟩
    exact ⟨r, ListSort.mem_order.1 hmem, hselector⟩
  · rintro ⟨r, hr, hselector⟩
    obtain ⟨offset, hpage⟩ := exists_mem_page_iff.2 ((@ListSort.mem_order _ loc direction
      (fixRollup loc.toLocale s (findings.map fun r => r.selector)) id _ sort r).2 hr)
    exact ⟨offset, _, ⟨r, hpage, rfl⟩, hselector⟩

theorem exists_mem_rollupRows_iff {loc : Collation} {column : SortColumn} {direction : Direction}
    {limit : Int} {selector : Option String} :
    (∃ offset, ∃ x ∈ rollupRows loc s column direction limit offset, x.1.selector = selector) ↔
      selector ∈ s.rollup.map VulnerabilityRollup.selector := by
  have horder {α : Type} {columns : α → VulnerabilityColumns} {rows : List α} {a : α} :
      a ∈ orderBy loc column direction columns rows ↔ a ∈ rows := by
    cases column with
    | _ => exact mem_orderByValue
  unfold rollupRows withPassports
  simp only [horder, List.mem_map]
  constructor
  · rintro ⟨offset, x, ⟨_, ⟨r, hr, rfl⟩, rfl⟩, hselector⟩
    exact ⟨r, horder.1 (exists_mem_page_iff.1 ⟨offset, hr⟩), hselector⟩
  · rintro ⟨r, hr, hselector⟩
    obtain ⟨offset, hpage⟩ := exists_mem_page_iff.2 (horder.2 hr)
    exact ⟨offset, _, ⟨_, ⟨r, hpage, rfl⟩, rfl⟩, hselector⟩

theorem exists_mem_decodeRows_iff {loc : Collation} {sort : ListSort}
    {fix : Option String → Option String} {rows : List (VulnerabilityRow × List PassportEntry)}
    {selector : Option String} :
    (∃ item ∈ decodeRows loc s sort fix rows, item.selector = selector) ↔
      ∃ x ∈ rows, x.1.selector = selector := by
  unfold decodeRows
  split
  · simp [decodeVulnerability]
  · simp [decodeVulnerability, attachFixText]

theorem hasFix_of_mem_decodeRows (h : s.Constraints) {loc : Collation} {sort : ListSort}
    {fix : Option String → Option String} {rows : List (VulnerabilityRow × List PassportEntry)}
    (hfix : sort.readsFix = true → ∀ x ∈ rows,
      ((cleanText (fix x.1.selector)).isSome = true ↔
        FixShown loc.toLocale s sort x.1.selector))
    {item : VulnerabilityItem} (hitem : item ∈ decodeRows loc s sort fix rows) :
    item.hasFix = true ↔ FixShown loc.toLocale s sort item.selector := by
  unfold decodeRows at hitem
  by_cases hsort : sort.readsFix = true
  · rw [if_pos hsort] at hitem
    obtain ⟨x, hx, rfl⟩ := List.mem_map.1 hitem
    exact hfix hsort x hx
  · rw [if_neg hsort] at hitem
    obtain ⟨found, hfound, rfl⟩ := List.mem_map.1 hitem
    refine isSome_fixMap_iff h (Bool.not_eq_true _ ▸ hsort) ?_
    exact List.mem_map_of_mem hfound

end Pages

/-! ## Exactness of the filter -/

/-- The item is on some page of the list. -/
def Shows (loc : Collation) (rollupEnabled : Bool) (filters : ListFilters)
    (hasFix : Option String) (query : ListQuery) (s : Analytics) (item : VulnerabilityItem) :
    Prop :=
  ∃ offset answer,
    listBy loc rollupEnabled filters hasFix { query with offset := offset } s = .ok answer ∧
      item ∈ answer.rows

/-- The vulnerabilities of the list: those of the stored aggregate, or of the findings. -/
def shownSelectors (loc : Sql.Locale) (s : Analytics) (rollupEnabled : Bool)
    (filters : ListFilters) (hasFix : Option String) (filter : HasFixFilter) (sort : ListSort) :
    List (Option String) :=
  if (rollupColumn rollupEnabled filters hasFix sort).isSome then
    s.rollup.map VulnerabilityRollup.selector
  else (filteredFindingsBy loc s filters filter).map fun r => r.selector

theorem listBy_eq_ok {s : Analytics} {loc : Collation} {rollupEnabled : Bool}
    {filters : ListFilters} {hasFix : Option String} {query : ListQuery} {sort : ListSort}
    {direction : Direction} {filter : HasFixFilter} (hsort : listSort? query.sortBy = some sort)
    (hdirection : direction? query.sortDir = some direction)
    (hfilter : hasFixFilter hasFix = .ok filter) :
    listBy loc rollupEnabled filters hasFix query s =
      .ok (acceptedList loc rollupEnabled filters hasFix filter query sort direction s) := by
  unfold listBy
  rw [hsort, hdirection, hfilter]

theorem accepted_of_listBy {s : Analytics} {loc : Collation} {rollupEnabled : Bool}
    {filters : ListFilters} {hasFix : Option String} {query : ListQuery} {answer : ListPage}
    (h : listBy loc rollupEnabled filters hasFix query s = .ok answer) :
    ∃ sort direction filter, listSort? query.sortBy = some sort ∧
      direction? query.sortDir = some direction ∧ hasFixFilter hasFix = .ok filter ∧
      answer = acceptedList loc rollupEnabled filters hasFix filter query sort direction s := by
  unfold listBy at h
  cases hsort : listSort? query.sortBy with
  | none => simp only [hsort, reduceCtorEq] at h
  | some sort =>
      cases hdirection : direction? query.sortDir with
      | none => simp only [hsort, hdirection, reduceCtorEq] at h
      | some direction =>
          cases hfilter : hasFixFilter hasFix with
          | error message => simp only [hsort, hdirection, hfilter, reduceCtorEq] at h
          | ok filter =>
              simp only [hsort, hdirection, hfilter, Except.ok.injEq] at h
              exact ⟨sort, direction, filter, rfl, rfl, rfl, h.symm⟩

theorem eq_of_rollupColumn {rollupEnabled : Bool} {filters : ListFilters}
    {hasFix : Option String} {sort : ListSort} {column : SortColumn}
    (h : rollupColumn rollupEnabled filters hasFix sort = some column) :
    sort = .column column := by
  unfold rollupColumn at h
  cases sort with
  | column served =>
      dsimp only at h
      split at h
      · rw [Option.some.inj h]
      · cases h
  | howToFix => cases h
  | hasFix => cases h
  | lastSeen => cases h

/-- The vulnerabilities on the pages of an accepted request. -/
theorem exists_shows_iff {s : Analytics} {loc : Collation} {rollupEnabled : Bool}
    {filters : ListFilters} {hasFix : Option String} {query : ListQuery} {sort : ListSort}
    {direction : Direction} {filter : HasFixFilter} (hsort : listSort? query.sortBy = some sort)
    (hdirection : direction? query.sortDir = some direction)
    (hfilter : hasFixFilter hasFix = .ok filter) {selector : Option String} :
    (∃ item, Shows loc rollupEnabled filters hasFix query s item ∧ item.selector = selector) ↔
      selector ∈ shownSelectors loc.toLocale s rollupEnabled filters hasFix filter sort := by
  have hpages : (∃ item, Shows loc rollupEnabled filters hasFix query s item ∧
      item.selector = selector) ↔
      ∃ offset, ∃ item ∈ (acceptedList loc rollupEnabled filters hasFix filter
        { query with offset := offset } sort direction s).rows, item.selector = selector := by
    have hlist (offset : Int) := @listBy_eq_ok s loc rollupEnabled filters hasFix
      { query with offset := offset } sort direction filter hsort hdirection hfilter
    unfold Shows
    constructor
    · rintro ⟨item, ⟨offset, answer, hanswer, hitem⟩, hselector⟩
      rw [hlist offset] at hanswer
      rw [← Except.ok.inj hanswer] at hitem
      exact ⟨offset, item, hitem, hselector⟩
    · rintro ⟨offset, item, hitem, hselector⟩
      exact ⟨item, ⟨offset, _, hlist offset, hitem⟩, hselector⟩
  rw [hpages]
  unfold acceptedList shownSelectors
  cases hcolumn : rollupColumn rollupEnabled filters hasFix sort with
  | some column =>
      rw [if_pos (by rfl)]
      simp only [rollupPage, exists_mem_decodeRows_iff]
      exact exists_mem_rollupRows_iff
  | none =>
      rw [if_neg (by simp)]
      simp only [livePage, exists_mem_decodeRows_iff]
      exact exists_mem_liveRowsBy_iff

/-- The flag of a vulnerability on a page. -/
theorem hasFix_of_shows {s : Analytics} (h : s.Constraints) {loc : Collation}
    {rollupEnabled : Bool} {filters : ListFilters} {hasFix : Option String} {query : ListQuery}
    {sort : ListSort} (hsort : listSort? query.sortBy = some sort) {item : VulnerabilityItem}
    (hitem : Shows loc rollupEnabled filters hasFix query s item) :
    item.hasFix = true ↔ FixShown loc.toLocale s sort item.selector := by
  obtain ⟨offset, answer, hlist, hmem⟩ := hitem
  obtain ⟨found, direction, filter, hfound, _, _, rfl⟩ := accepted_of_listBy hlist
  obtain rfl : found = sort := Option.some.inj (hfound.symm.trans hsort)
  unfold acceptedList at hmem
  cases hcolumn : rollupColumn rollupEnabled filters hasFix found with
  | some column =>
      rw [hcolumn] at hmem
      obtain rfl := eq_of_rollupColumn hcolumn
      have hrows : item ∈ decodeRows loc s (.column column) (fun _ => none)
          (rollupRows loc s column direction query.limit offset) := hmem
      refine hasFix_of_mem_decodeRows h ?_ hrows
      intro hreads
      cases hreads
  | none =>
      rw [hcolumn] at hmem
      refine hasFix_of_mem_decodeRows h ?_ hmem
      intro hreads x hx
      refine isSome_fixRollup_iff h hreads ?_
      exact exists_mem_liveRowsBy_iff.1 ⟨offset, x, hx, rfl⟩

theorem mem_filteredFindingsBy {loc : Sql.Locale} {s : Analytics} {filters : ListFilters}
    {hasFix : HasFixFilter} {r : FilteredFinding} :
    r ∈ filteredFindingsBy loc s filters hasFix ↔
      r ∈ filteredFindingsBy loc s filters .any ∧
        hasFix.admits loc s filters.fixQ r.findingId = true := by
  unfold filteredFindingsBy
  simp only [List.mem_flatMap, List.mem_map, List.mem_filter, Bool.and_eq_true,
    decide_eq_true_eq, HasFixFilter.admits, and_true]
  constructor
  · rintro ⟨f, hf, g, hg, c, ⟨hc, ⟨hid, hadmits⟩, hfix⟩, rfl⟩
    exact ⟨⟨f, hf, g, hg, c, ⟨hc, hid, hadmits⟩, rfl⟩, hfix⟩
  · rintro ⟨⟨f, hf, g, hg, c, ⟨hc, hid, hadmits⟩, rfl⟩, hfix⟩
    exact ⟨f, hf, g, hg, c, ⟨hc, ⟨hid, hadmits⟩, hfix⟩, rfl⟩

/--
The list filtered by `yes` has the vulnerabilities that the unfiltered list shows
with a fix, the list filtered by `no` has the others, and the totals add up.
-/
structure FixFilterExact (loc : Collation) (rollupEnabled : Bool) (filters : ListFilters)
    (query : ListQuery) (s : Analytics) : Prop where
  yes : ∀ selector,
    (∃ item, Shows loc rollupEnabled filters (some "yes") query s item ∧
      item.selector = selector) ↔
      ∃ item, Shows loc rollupEnabled filters none query s item ∧ item.selector = selector ∧
        item.hasFix = true
  no : ∀ selector,
    (∃ item, Shows loc rollupEnabled filters (some "no") query s item ∧
      item.selector = selector) ↔
      ∃ item, Shows loc rollupEnabled filters none query s item ∧ item.selector = selector ∧
        item.hasFix = false
  totals : ∀ all yes no,
    listBy loc rollupEnabled filters none query s = .ok all →
    listBy loc rollupEnabled filters (some "yes") query s = .ok yes →
    listBy loc rollupEnabled filters (some "no") query s = .ok no →
    query.includeTotal = true → yes.total + no.total = all.total

/--
Each finding that the other filters admit has a fix text exactly when the greatest fix
text of its vulnerability is not blank; and a stored aggregate that serves the request
has the vulnerabilities of these findings.
-/
structure FixesAgree (loc : Sql.Locale) (rollupEnabled : Bool) (filters : ListFilters)
    (sort : ListSort) (s : Analytics) : Prop where
  findings : ∀ r ∈ filteredFindingsBy loc s filters .any,
    FixKnown loc s filters.fixQ r.findingId ↔ FixShown loc s sort r.selector
  stored : (rollupColumn rollupEnabled filters none sort).isSome = true → ∀ selector,
    selector ∈ s.rollup.map VulnerabilityRollup.selector ↔
      selector ∈ (filteredFindingsBy loc s filters .any).map fun r => r.selector

theorem countDistinct_parts {all yes no : List String} {P : String → Prop}
    (hyes : ∀ key, key ∈ yes ↔ key ∈ all ∧ P key) (hno : ∀ key, key ∈ no ↔ key ∈ all ∧ ¬ P key) :
    countDistinct yes + countDistinct no = countDistinct all := by
  classical
  have hfirst : (fromKeys yes).Perm ((fromKeys all).filter fun key => decide (P key)) := by
    rw [List.perm_ext_iff_of_nodup (nodup_fromKeys _) ((nodup_fromKeys _).filter _)]
    intro key
    simp [hyes]
  have hsecond : (fromKeys no).Perm ((fromKeys all).filter fun key => !decide (P key)) := by
    rw [List.perm_ext_iff_of_nodup (nodup_fromKeys _) ((nodup_fromKeys _).filter _)]
    intro key
    simp [hno]
  unfold countDistinct
  rw [hfirst.length_eq, hsecond.length_eq, ← List.countP_eq_length_filter,
    ← List.countP_eq_length_filter]
  have hsum := @List.length_eq_countP_add_countP _ (fun key => decide (P key)) (fromKeys all)
  simp only [Bool.decide_eq_true, decide_not] at hsum
  rw [hsum]

/-- The total counts the vulnerabilities on the pages that have a selector. -/
theorem total_acceptedList {s : Analytics} (h : s.Constraints) {loc : Collation}
    {rollupEnabled : Bool} {filters : ListFilters} {hasFix : Option String} {query : ListQuery}
    {sort : ListSort} {direction : Direction} {filter : HasFixFilter}
    (htotal : query.includeTotal = true) :
    (acceptedList loc rollupEnabled filters hasFix filter query sort direction s).total =
      countDistinct (shownSelectors loc.toLocale s rollupEnabled filters hasFix filter
        sort).reduceOption := by
  unfold acceptedList shownSelectors
  cases hcolumn : rollupColumn rollupEnabled filters hasFix sort with
  | some column =>
      rw [if_pos (by rfl)]
      unfold rollupPage
      dsimp only
      rw [if_pos htotal]
      have hkeyed : ∀ x ∈ s.rollup.map VulnerabilityRollup.selector, x.isSome = true := by
        intro x hx
        obtain ⟨r, hr, rfl⟩ := List.mem_map.1 hx
        exact Option.isSome_iff_ne_none.2 (h.rollupKeyed r hr)
      have hlength := List.reduceOption_length_eq_iff.2 hkeyed
      have hnodup : (s.rollup.map VulnerabilityRollup.selector).reduceOption.Nodup :=
        h.rollupKeys.filterMap fun a b c ha hb => by
          rw [Option.mem_def] at ha hb
          exact ha.trans hb.symm
      have hperm : (fromKeys (s.rollup.map VulnerabilityRollup.selector).reduceOption).Perm
          (s.rollup.map VulnerabilityRollup.selector).reduceOption := by
        rw [List.perm_ext_iff_of_nodup (nodup_fromKeys _) hnodup]
        intro key
        exact mem_fromKeys
      unfold countDistinct
      rw [hperm.length_eq, hlength, List.length_map]
  | none =>
      rw [if_neg (by simp)]
      unfold livePage
      dsimp only
      rw [if_pos htotal, List.reduceOption, List.filterMap_map]
      rfl

theorem mem_shownSelectors_iff {loc : Sql.Locale} {s : Analytics} {rollupEnabled : Bool}
    {filters : ListFilters} {hasFix : String} {filter : HasFixFilter} {sort : ListSort}
    (hgiven : hasFix ≠ "") {selector : Option String} :
    selector ∈ shownSelectors loc s rollupEnabled filters (some hasFix) filter sort ↔
      ∃ r ∈ filteredFindingsBy loc s filters .any,
        filter.admits loc s filters.fixQ r.findingId = true ∧ r.selector = selector := by
  have hcolumn : rollupColumn rollupEnabled filters (some hasFix) sort = none := by
    cases sort <;> simp [rollupColumn, nullIfEmpty, hgiven]
  unfold shownSelectors
  rw [hcolumn, if_neg (by simp), List.mem_map]
  constructor
  · rintro ⟨r, hr, hselector⟩
    obtain ⟨hmem, hadmits⟩ := mem_filteredFindingsBy.1 hr
    exact ⟨r, hmem, hadmits, hselector⟩
  · rintro ⟨r, hmem, hadmits, hselector⟩
    exact ⟨r, mem_filteredFindingsBy.2 ⟨hmem, hadmits⟩, hselector⟩

/-- Findings that agree with the flags divide the vulnerabilities as the flags do. -/
theorem FixesAgree.mem_iff {loc : Sql.Locale} {s : Analytics} {rollupEnabled : Bool}
    {filters : ListFilters} {sort : ListSort} (h : FixesAgree loc rollupEnabled filters sort s)
    (selector : Option String) :
    (selector ∈ shownSelectors loc s rollupEnabled filters (some "yes") .yes sort ↔
      selector ∈ shownSelectors loc s rollupEnabled filters none .any sort ∧
        FixShown loc s sort selector) ∧
    (selector ∈ shownSelectors loc s rollupEnabled filters (some "no") .no sort ↔
      selector ∈ shownSelectors loc s rollupEnabled filters none .any sort ∧
        ¬ FixShown loc s sort selector) := by
  have hall : selector ∈ shownSelectors loc s rollupEnabled filters none .any sort ↔
      ∃ r ∈ filteredFindingsBy loc s filters .any, r.selector = selector := by
    unfold shownSelectors
    split
    · rename_i hstored
      rw [h.stored hstored, List.mem_map]
    · rw [List.mem_map]
  rw [mem_shownSelectors_iff (by decide), mem_shownSelectors_iff (by decide), hall]
  constructor
  · constructor
    · rintro ⟨r, hr, hadmits, rfl⟩
      exact ⟨⟨r, hr, rfl⟩, (h.findings r hr).1 (hasFixExists_iff.1 hadmits)⟩
    · rintro ⟨⟨r, hr, rfl⟩, hshown⟩
      exact ⟨r, hr, hasFixExists_iff.2 ((h.findings r hr).2 hshown), rfl⟩
  · constructor
    · rintro ⟨r, hr, hadmits, rfl⟩
      refine ⟨⟨r, hr, rfl⟩, ?_⟩
      intro hshown
      have hexists := hasFixExists_iff.2 ((h.findings r hr).2 hshown)
      simp [HasFixFilter.admits, hexists] at hadmits
    · rintro ⟨⟨r, hr, rfl⟩, hshown⟩
      refine ⟨r, hr, ?_, rfl⟩
      cases hexists : hasFixExists loc s filters.fixQ r.findingId with
      | false => simp [HasFixFilter.admits, hexists]
      | true => exact absurd ((h.findings r hr).1 (hasFixExists_iff.1 hexists)) hshown

/-- An accepted request: its sort key and its direction are known. -/
def ListQuery.AcceptedAs (query : ListQuery) (sort : ListSort) : Prop :=
  listSort? query.sortBy = some sort ∧ ∃ direction, direction? query.sortDir = some direction

/-- The vulnerabilities that the unfiltered list shows with a flag. -/
theorem exists_shows_flag_iff {s : Analytics} (hs : s.Constraints) {loc : Collation}
    {rollupEnabled : Bool} {filters : ListFilters} {query : ListQuery} {sort : ListSort}
    (h : query.AcceptedAs sort) {selector : Option String} :
    ((∃ item, Shows loc rollupEnabled filters none query s item ∧ item.selector = selector ∧
      item.hasFix = true) ↔
      selector ∈ shownSelectors loc.toLocale s rollupEnabled filters none .any sort ∧
        FixShown loc.toLocale s sort selector) ∧
    ((∃ item, Shows loc rollupEnabled filters none query s item ∧ item.selector = selector ∧
      item.hasFix = false) ↔
      selector ∈ shownSelectors loc.toLocale s rollupEnabled filters none .any sort ∧
        ¬ FixShown loc.toLocale s sort selector) := by
  obtain ⟨hsort, direction, hdirection⟩ := h
  have hshows := @exists_shows_iff s loc rollupEnabled filters none query sort direction .any
    hsort hdirection rfl selector
  have hflag {item : VulnerabilityItem}
      (hitem : Shows loc rollupEnabled filters none query s item) :
      item.hasFix = true ↔ FixShown loc.toLocale s sort item.selector :=
    hasFix_of_shows hs hsort hitem
  rw [← hshows]
  constructor
  · constructor
    · rintro ⟨item, hitem, rfl, htrue⟩
      exact ⟨⟨item, hitem, rfl⟩, (hflag hitem).1 htrue⟩
    · rintro ⟨⟨item, hitem, rfl⟩, hshown⟩
      exact ⟨item, hitem, rfl, (hflag hitem).2 hshown⟩
  · constructor
    · rintro ⟨item, hitem, rfl, hfalse⟩
      refine ⟨⟨item, hitem, rfl⟩, ?_⟩
      intro hshown
      rw [(hflag hitem).2 hshown] at hfalse
      cases hfalse
    · rintro ⟨⟨item, hitem, rfl⟩, hshown⟩
      exact ⟨item, hitem, rfl, Bool.eq_false_iff.2 fun htrue => hshown ((hflag hitem).1 htrue)⟩

/-- The filter is exact when the findings agree with the flags. -/
theorem fixFilterExact_of_agree {s : Analytics} (hs : s.Constraints) {loc : Collation}
    {rollupEnabled : Bool} {filters : ListFilters} {query : ListQuery}
    (h : ∀ sort, query.AcceptedAs sort → FixesAgree loc.toLocale rollupEnabled filters sort s) :
    FixFilterExact loc rollupEnabled filters query s := by
  have haccepted {hasFix : Option String} {item : VulnerabilityItem}
      (hitem : Shows loc rollupEnabled filters hasFix query s item) :
      ∃ sort, query.AcceptedAs sort := by
    obtain ⟨offset, answer, hlist, _⟩ := hitem
    obtain ⟨sort, direction, _, hsort, hdirection, _⟩ := accepted_of_listBy hlist
    exact ⟨sort, hsort, direction, hdirection⟩
  have hparts {sort : ListSort} (hsort : query.AcceptedAs sort) (selector : Option String) :
      ((∃ item, Shows loc rollupEnabled filters (some "yes") query s item ∧
        item.selector = selector) ↔
        ∃ item, Shows loc rollupEnabled filters none query s item ∧ item.selector = selector ∧
          item.hasFix = true) ∧
      ((∃ item, Shows loc rollupEnabled filters (some "no") query s item ∧
        item.selector = selector) ↔
        ∃ item, Shows loc rollupEnabled filters none query s item ∧ item.selector = selector ∧
          item.hasFix = false) := by
    obtain ⟨direction, hdirection⟩ := hsort.2
    rw [(exists_shows_flag_iff hs hsort).1, (exists_shows_flag_iff hs hsort).2,
      @exists_shows_iff s loc rollupEnabled filters (some "yes") query sort direction .yes hsort.1
        hdirection hasFixFilter_yes selector,
      @exists_shows_iff s loc rollupEnabled filters (some "no") query sort direction .no hsort.1
        hdirection hasFixFilter_no selector]
    exact (h sort hsort).mem_iff selector
  refine ⟨?_, ?_, ?_⟩
  · intro selector
    constructor
    · rintro ⟨item, hitem, hselector⟩
      obtain ⟨sort, hsort⟩ := haccepted hitem
      exact (hparts hsort selector).1.1 ⟨item, hitem, hselector⟩
    · rintro ⟨item, hitem, hselector⟩
      obtain ⟨sort, hsort⟩ := haccepted hitem
      exact (hparts hsort selector).1.2 ⟨item, hitem, hselector⟩
  · intro selector
    constructor
    · rintro ⟨item, hitem, hselector⟩
      obtain ⟨sort, hsort⟩ := haccepted hitem
      exact (hparts hsort selector).2.1 ⟨item, hitem, hselector⟩
    · rintro ⟨item, hitem, hselector⟩
      obtain ⟨sort, hsort⟩ := haccepted hitem
      exact (hparts hsort selector).2.2 ⟨item, hitem, hselector⟩
  · intro all yes no hall hyes hno htotal
    obtain ⟨sort, direction, filter, hsort, hdirection, hfilter, rfl⟩ := accepted_of_listBy hall
    have hagree := h sort ⟨hsort, direction, hdirection⟩
    rw [@listBy_eq_ok s loc rollupEnabled filters (some "yes") query sort direction .yes hsort
      hdirection hasFixFilter_yes] at hyes
    rw [@listBy_eq_ok s loc rollupEnabled filters (some "no") query sort direction .no hsort
      hdirection hasFixFilter_no] at hno
    obtain rfl : HasFixFilter.any = filter := Except.ok.inj hfilter
    rw [← Except.ok.inj hyes, ← Except.ok.inj hno, total_acceptedList hs htotal,
      total_acceptedList hs htotal, total_acceptedList hs htotal]
    apply @countDistinct_parts _ _ _ fun key => FixShown loc.toLocale s sort (some key)
    · intro key
      rw [List.reduceOption_mem_iff, List.reduceOption_mem_iff]
      exact (hagree.mem_iff (some key)).1
    · intro key
      rw [List.reduceOption_mem_iff, List.reduceOption_mem_iff]
      exact (hagree.mem_iff (some key)).2

/-- An exact filter needs findings that agree with the flags. -/
theorem FixFilterExact.agree {s : Analytics} (hs : s.Constraints) {loc : Collation}
    {rollupEnabled : Bool} {filters : ListFilters} {query : ListQuery}
    (h : FixFilterExact loc rollupEnabled filters query s) {sort : ListSort}
    (haccepted : query.AcceptedAs sort) :
    FixesAgree loc.toLocale rollupEnabled filters sort s := by
  obtain ⟨direction, hdirection⟩ := haccepted.2
  have hyes (selector : Option String) := h.yes selector
  have hno (selector : Option String) := h.no selector
  simp only [(exists_shows_flag_iff hs haccepted).1,
    @exists_shows_iff s loc rollupEnabled filters (some "yes") query sort direction .yes
      haccepted.1 hdirection hasFixFilter_yes,
    mem_shownSelectors_iff (show "yes" ≠ "" by decide)] at hyes
  simp only [(exists_shows_flag_iff hs haccepted).2,
    @exists_shows_iff s loc rollupEnabled filters (some "no") query sort direction .no
      haccepted.1 hdirection hasFixFilter_no,
    mem_shownSelectors_iff (show "no" ≠ "" by decide)] at hno
  have hlisted : ∀ r ∈ filteredFindingsBy loc.toLocale s filters .any,
      r.selector ∈ shownSelectors loc.toLocale s rollupEnabled filters none .any sort ∧
        (FixKnown loc.toLocale s filters.fixQ r.findingId ↔
          FixShown loc.toLocale s sort r.selector) := by
    intro r hr
    cases hexists : hasFixExists loc.toLocale s filters.fixQ r.findingId with
    | true =>
        obtain ⟨hmem, hshown⟩ := (hyes r.selector).1 ⟨r, hr, hexists, rfl⟩
        exact ⟨hmem, iff_of_true (hasFixExists_iff.1 hexists) hshown⟩
    | false =>
        have hadmits : HasFixFilter.no.admits loc.toLocale s filters.fixQ r.findingId = true := by
          simp [HasFixFilter.admits, hexists]
        obtain ⟨hmem, hshown⟩ := (hno r.selector).1 ⟨r, hr, hadmits, rfl⟩
        refine ⟨hmem, iff_of_false ?_ hshown⟩
        rw [← hasFixExists_iff, hexists]
        exact Bool.false_ne_true
  refine ⟨fun r hr => (hlisted r hr).2, ?_⟩
  intro hstored selector
  have hselectors : shownSelectors loc.toLocale s rollupEnabled filters none .any sort =
      s.rollup.map VulnerabilityRollup.selector := by
    unfold shownSelectors
    rw [if_pos hstored]
  rw [← hselectors, List.mem_map]
  constructor
  · intro hmem
    by_cases hshown : FixShown loc.toLocale s sort selector
    · obtain ⟨r, hr, _, hselector⟩ := (hyes selector).2 ⟨hmem, hshown⟩
      exact ⟨r, hr, hselector⟩
    · obtain ⟨r, hr, _, hselector⟩ := (hno selector).2 ⟨hmem, hshown⟩
      exact ⟨r, hr, hselector⟩
  · rintro ⟨r, hr, rfl⟩
    exact (hlisted r hr).1

/-- The filter is exact when the findings agree with the flags, and only then. -/
theorem fixFilterExact_iff (loc : Collation) (rollupEnabled : Bool) (filters : ListFilters)
    (query : ListQuery) (db : AnalyticsDatabase) :
    FixFilterExact loc rollupEnabled filters query db.toAnalytics ↔
      ∀ sort, query.AcceptedAs sort →
        FixesAgree loc.toLocale rollupEnabled filters sort db.toAnalytics :=
  ⟨fun h _ haccepted => h.agree db.constraints haccepted,
    fixFilterExact_of_agree db.constraints⟩

/-- A group of one host. -/
def fixGroup : GroupRow where
  id := 1
  assetId := "h"
  sourceType := "software"
  collectionType := "c"
  collectionId := "c"
  name := some "openssl"
  severity := none
  vulnerabilityCount := 2
  cvssScore := none
  groupOrder := 0
  truncated := false
  groupJson := .obj []

/-- A finding of the vulnerability in this group. -/
def fixFinding (id : Nat) (instanceId : String) : FindingRow where
  id := id
  assetId := "h"
  groupId := 1
  vulnerabilityInstanceId := some instanceId
  vulnerabilityId := none
  objectId := none
  cveName := some "C1"
  name := none
  severity := some "high"
  cvssScore := none
  descriptionKey := none
  vulnerabilityJson := .obj []
  selector := some "cve:C1"

/-- The card of the host. -/
def fixCard : CardRow where
  assetId := "h"
  lastSeen := "2026-01-01"

/-- Two findings of a vulnerability, one of them with a passport. -/
def linkedOnce : Analytics where
  groups := [fixGroup]
  findings := [fixFinding 1 "i1", fixFinding 2 "i2"]
  rollup := []
  hostRollup := []
  cards := [fixCard]
  passports :=
    [{ internalId := "p", rawDetailJson := some (.obj [("howToFix", .str "Update openssl")]) }]
  links := [{ assetVulnerabilityId := 1, passportInternalId := "p", matchMethod := "cve" }]

/-- The database with these findings. -/
def linkedOnceDatabase : AnalyticsDatabase where
  toAnalytics := linkedOnce
  constraints :=
    { store := by decide +kernel
      cardIds := by decide
      groupCards := by decide
      findingCards := by decide
      passportIds := by decide
      linkKeys := by decide
      linkFindings := by decide
      linkPassports := by decide
      rollupKeys := by decide
      rollupKeyed := nofun
      hostRollupKeys := by decide }

/-- The vulnerability is in both filtered lists. -/
theorem listed_with_and_without_fix :
    ¬ FixFilterExact asciiCollation false {} {} linkedOnceDatabase.toAnalytics := by
  intro h
  have haccepted : ListQuery.AcceptedAs {} (.column .affectedHosts) :=
    ⟨rfl, .desc, by decide +kernel⟩
  have hagree := h.agree linkedOnceDatabase.constraints haccepted
  have hrows : filteredFindingsBy asciiCollation.toLocale linkedOnceDatabase.toAnalytics {} .any =
      [filterRow asciiCollation.toLocale (fixFinding 1 "i1") fixGroup fixCard,
        filterRow asciiCollation.toLocale (fixFinding 2 "i2") fixGroup fixCard] := rfl
  have hlinked := hagree.findings
    (filterRow asciiCollation.toLocale (fixFinding 1 "i1") fixGroup fixCard) (by simp [hrows])
  have hunlinked := hagree.findings
    (filterRow asciiCollation.toLocale (fixFinding 2 "i2") fixGroup fixCard) (by simp [hrows])
  have hknown : FixKnown asciiCollation.toLocale linkedOnce none 1 :=
    hasFixExists_iff.1 (by decide +kernel)
  have hunknown : ¬ FixKnown asciiCollation.toLocale linkedOnce none 2 := by
    rw [← hasFixExists_iff]
    decide +kernel
  exact hunknown (hunlinked.2 (hlinked.1 hknown))

end Findings
end MpvmApp
