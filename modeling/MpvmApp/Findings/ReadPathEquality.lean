import MpvmApp.Findings.ReadPaths
import MpvmApp.Lib.GroupTotals

/-!
# Both ways to the list agree

Every finding has one group and one card, so the live join has one row for each valid finding.  The
stored aggregates have the rows of their views in any order, and the keys by which the queries
order their rows tell the rows apart.

Main results:

- Theorem `view_aggregated`: the live aggregate has the shown rows of the source view.
- Theorem `rollupRows_eq_liveRows`: a page is the same in both ways.
-/

namespace MpvmApp
namespace Findings

open Sql
open Passports (Collation Collated)

/-! ## One group and one card for each finding -/

theorem filter_key_eq_singleton {α κ : Type} [DecidableEq κ] {key : α → κ} {rows : List α}
    (hnodup : (rows.map key).Nodup) {a : α} (ha : a ∈ rows) :
    rows.filter (fun b => decide (key b = key a)) = [a] := by
  induction rows with
  | nil => cases ha
  | cons b rows ih =>
      rw [List.map_cons, List.nodup_cons] at hnodup
      rcases List.mem_cons.1 ha with rfl | hmem
      · have hrest : rows.filter (fun b => decide (key b = key a)) = [] := by
          rw [List.filter_eq_nil_iff]
          intro c hc hkey
          exact hnodup.1 (of_decide_eq_true hkey ▸ List.mem_map_of_mem hc)
        simp [hrest]
      · have hne : key b ≠ key a := fun hkey => hnodup.1 (hkey ▸ List.mem_map_of_mem hmem)
        rw [List.filter_cons_of_neg (by simpa using hne)]
        exact ih hnodup.2 hmem

/-- The group and the card of every finding. -/
structure Placed (s : Analytics) (groupOf : FindingRow → GroupRow)
    (cardOf : String → CardRow) : Prop where
  groups : ∀ f ∈ s.findings, s.groups.filter (fun g => decide (g.id = f.groupId)) = [groupOf f]
  cards : ∀ f ∈ s.findings,
    s.cards.filter (fun c => decide (c.assetId = f.assetId)) = [cardOf f.assetId]
  assetId : ∀ f ∈ s.findings, (cardOf f.assetId).assetId = f.assetId

/-- The foreign keys place every finding. -/
theorem Analytics.Constraints.placed {s : Analytics} (h : s.Constraints) :
    ∃ groupOf cardOf, Placed s groupOf cardOf := by
  have hgroup : ∀ f : FindingRow, ∃ g : GroupRow, f ∈ s.findings →
      s.groups.filter (fun g => decide (g.id = f.groupId)) = [g] := by
    intro f
    by_cases hf : f ∈ s.findings
    · obtain ⟨g, hg, hid⟩ := List.mem_map.1 (h.store.references f hf)
      refine ⟨g, fun _ => ?_⟩
      rw [← hid]
      exact filter_key_eq_singleton h.store.groupIds hg
    · exact ⟨⟨0, "", "", "", "", none, none, 0, none, 0, false, .null⟩, fun hf' => absurd hf' hf⟩
  have hcard : ∀ assetId : String, ∃ c : CardRow, assetId ∈ s.cards.map CardRow.assetId →
      s.cards.filter (fun c => decide (c.assetId = assetId)) = [c] ∧ c.assetId = assetId := by
    intro assetId
    by_cases hmem : assetId ∈ s.cards.map CardRow.assetId
    · obtain ⟨c, hc, hid⟩ := List.mem_map.1 hmem
      refine ⟨c, fun _ => ⟨?_, hid⟩⟩
      rw [← hid]
      exact filter_key_eq_singleton h.cardIds hc
    · exact ⟨{ assetId := "", lastSeen := "" }, fun hmem' => absurd hmem' hmem⟩
  choose groupOf hgroupOf using hgroup
  choose cardOf hcardOf using hcard
  exact ⟨groupOf, cardOf, hgroupOf, fun f hf => (hcardOf _ (h.findingCards f hf)).1,
    fun f hf => (hcardOf _ (h.findingCards f hf)).2⟩

section Placed

variable {s : Analytics} {groupOf : FindingRow → GroupRow} {cardOf : String → CardRow}

/-- The valid findings. -/
def Analytics.validFindings (s : Analytics) : List FindingRow :=
  s.findings.filter FindingRow.valid

theorem mem_of_mem_validFindings {f : FindingRow} (hf : f ∈ s.validFindings) :
    f ∈ s.findings :=
  List.mem_of_mem_filter hf

theorem flatMap_eq_map_of_singleton {α β : Type} {l : List α} {f : α → List β} {g : α → β}
    (h : ∀ a ∈ l, f a = [g a]) :
    l.flatMap f = l.map g := by
  induction l with
  | nil => rfl
  | cons a l ih =>
      rw [List.flatMap_cons, List.map_cons, h a List.mem_cons_self,
        ih fun b hb => h b (List.mem_cons_of_mem a hb), List.singleton_append]

theorem Placed.filteredFindings_eq (h : Placed s groupOf cardOf) (loc : Sql.Locale) :
    filteredFindings loc s =
      s.validFindings.map fun f => filterRow loc f (groupOf f) (cardOf f.assetId) := by
  refine flatMap_eq_map_of_singleton fun f hf => ?_
  have hfinding := mem_of_mem_validFindings hf
  simp [h.groups f hfinding, h.cards f hfinding]

theorem Placed.joined_eq (h : Placed s groupOf cardOf) (loc : Sql.Locale) :
    s.joined loc = s.validFindings.map fun f => joinRow loc f (groupOf f) := by
  refine flatMap_eq_map_of_singleton fun f hf => ?_
  have hfinding := mem_of_mem_validFindings hf
  simp [joinGroups, h.groups f hfinding]

theorem Placed.map_toJoinedFinding (h : Placed s groupOf cardOf) (loc : Sql.Locale) :
    (filteredFindings loc s).map FilteredFinding.toJoinedFinding = s.joined loc := by
  rw [h.filteredFindings_eq, h.joined_eq, List.map_map]
  refine List.map_congr_left fun f hf => ?_
  have hasset := h.assetId f (mem_of_mem_validFindings hf)
  simp [filterRow, joinRow, hasset]

theorem Placed.snapshotFindings_eq (h : Placed s groupOf cardOf) (loc : Sql.Locale) :
    snapshotFindings loc s = (filteredFindings loc s).map FilteredFinding.counted := by
  rw [h.filteredFindings_eq, List.map_map]
  refine flatMap_eq_map_of_singleton fun f hf => ?_
  have hfinding := mem_of_mem_validFindings hf
  simp [h.groups f hfinding, h.cards f hfinding, filterRow, FilteredFinding.counted,
    h.assetId f hfinding]

end Placed

/-! ## One vulnerability -/

theorem nullIfEmpty_nullIfEmpty (x : Option String) :
    nullIfEmpty (nullIfEmpty x) = nullIfEmpty x := by
  simp [nullIfEmpty]

theorem nullIfEmpty_coalesce (x y : Option String) :
    nullIfEmpty (coalesce (nullIfEmpty x) y) = coalesce (nullIfEmpty x) (nullIfEmpty y) := by
  cases hx : nullIfEmpty x with
  | none => simp
  | some text =>
      have htext := nullIfEmpty_nullIfEmpty x
      rw [hx] at htext
      simpa using htext

theorem nullIfEmpty_containerName (finding : FindingRow) (group : GroupRow) :
    nullIfEmpty (containerName finding group) = containerName finding group := by
  unfold containerName
  split
  · simp only [nullIfEmpty_coalesce, nullIfEmpty_nullIfEmpty]
  · rfl

theorem nullIfEmpty_imageName (finding : FindingRow) (group : GroupRow) :
    nullIfEmpty (imageName finding group) = imageName finding group := by
  unfold imageName
  split
  · simp only [nullIfEmpty_coalesce, nullIfEmpty_nullIfEmpty]
  · rfl

theorem aggregateLive_columns {loc : Sql.Locale} {rows : List FilteredFinding}
    (hcontainer : ∀ r ∈ rows, nullIfEmpty r.containerName = r.containerName)
    (himage : ∀ r ∈ rows, nullIfEmpty r.imageName = r.imageName) (selector : Option String) :
    (aggregateLive loc selector rows).toVulnerabilityColumns =
      (aggregateSelector loc selector
        (rows.map FilteredFinding.toJoinedFinding)).columns := by
  have hcontainers : (rows.map fun r => nullIfEmpty r.containerName) =
      rows.map fun r => r.containerName :=
    List.map_congr_left hcontainer
  have himages : (rows.map fun r => nullIfEmpty r.imageName) = rows.map fun r => r.imageName :=
    List.map_congr_left himage
  simp only [aggregateLive, aggregateSelector, VulnerabilityRollup.columns, List.map_map,
    Function.comp_def, List.length_map, hcontainers, himages]

section Vulnerabilities

variable {s : Analytics} {groupOf : FindingRow → GroupRow} {cardOf : String → CardRow}

theorem Placed.group_aggregated (h : Placed s groupOf cardOf) (loc : Sql.Locale)
    (selector : Option String) :
    (aggregatedView loc).group (filteredFindings loc s) selector =
      (s.validFindings.filter fun f => decide (f.selector = selector)).map fun f =>
        filterRow loc f (groupOf f) (cardOf f.assetId) := by
  unfold GroupedView.group
  rw [h.filteredFindings_eq, List.filter_map]
  rfl

/-- The cards that are read live are those of the aggregated findings. -/
theorem Placed.lastSeenOf_eq (h : Placed s groupOf cardOf) (loc : Sql.Locale) (selector : String) :
    lastSeenOf loc s (some selector) =
      maxOf loc.le (((aggregatedView loc).group (filteredFindings loc s) (some selector)).map
        fun r => some r.card.lastSeen) := by
  have hfindings : (s.findings.filter fun f => sqlEq f.selector (some selector) && f.valid) =
      s.validFindings.filter fun f => decide (f.selector = some selector) := by
    unfold Analytics.validFindings
    rw [List.filter_filter]
    refine List.filter_congr fun f _ => ?_
    cases f.selector <;> simp [sqlEq]
  have hcards : ((s.validFindings.filter fun f => decide (f.selector = some selector)).flatMap
      fun f => s.cards.filter fun c => decide (c.assetId = f.assetId)) =
      (s.validFindings.filter fun f => decide (f.selector = some selector)).map
        fun f => cardOf f.assetId := by
    refine flatMap_eq_map_of_singleton fun f hf => ?_
    exact h.cards f (mem_of_mem_validFindings (List.mem_of_mem_filter hf))
  unfold lastSeenOf
  dsimp only
  rw [hfindings, hcards, h.group_aggregated, List.map_map, List.map_map]
  rfl

/-- One selector: the live aggregate is the shown row of the source view. -/
theorem Placed.aggregateLive_eq (h : Placed s groupOf cardOf) (loc : Sql.Locale)
    (selector : String) :
    aggregateLive loc (some selector)
        ((aggregatedView loc).group (filteredFindings loc s) (some selector)) =
      shownRow loc s (aggregateSelector loc (some selector)
        ((vulnerabilityRollupSource loc).group (s.joined loc) (some selector))) := by
  have hgroup : (vulnerabilityRollupSource loc).group (s.joined loc) (some selector) =
      ((aggregatedView loc).group (filteredFindings loc s) (some selector)).map
        FilteredFinding.toJoinedFinding := by
    unfold GroupedView.group
    rw [← h.map_toJoinedFinding loc, List.filter_map]
    rfl
  have hcolumns : (aggregateLive loc (some selector)
      ((aggregatedView loc).group (filteredFindings loc s) (some selector))).toVulnerabilityColumns =
      (aggregateSelector loc (some selector)
        ((vulnerabilityRollupSource loc).group (s.joined loc) (some selector))).columns := by
    rw [hgroup]
    refine aggregateLive_columns ?_ ?_ _
    · intro r hr
      rw [h.group_aggregated] at hr
      obtain ⟨f, _, rfl⟩ := List.mem_map.1 hr
      exact nullIfEmpty_containerName f (groupOf f)
    · intro r hr
      rw [h.group_aggregated] at hr
      obtain ⟨f, _, rfl⟩ := List.mem_map.1 hr
      exact nullIfEmpty_imageName f (groupOf f)
  have hseen := (h.lastSeenOf_eq loc selector).symm
  have hshown : ∀ r : VulnerabilityRow,
      r.toVulnerabilityColumns = (aggregateSelector loc (some selector)
        ((vulnerabilityRollupSource loc).group (s.joined loc) (some selector))).columns →
      r.lastSeen = lastSeenOf loc s (some selector) →
      r = shownRow loc s (aggregateSelector loc (some selector)
        ((vulnerabilityRollupSource loc).group (s.joined loc) (some selector))) := by
    rintro ⟨columns, lastSeen⟩ rfl rfl
    rfl
  exact hshown _ hcolumns hseen

theorem Placed.keys_aggregated (h : Placed s groupOf cardOf) (loc : Sql.Locale) :
    (aggregatedView loc).keys (filteredFindings loc s) =
      (vulnerabilityRollupSource loc).keys (s.joined loc) := by
  unfold GroupedView.keys
  rw [← h.map_toJoinedFinding loc, List.map_map]
  rfl

/-- The live aggregate has the shown rows of the source view. -/
theorem view_aggregated (h : Placed s groupOf cardOf) (loc : Sql.Locale)
    (hkeyed : ∀ selector ∈ (vulnerabilityRollupSource loc).keys (s.joined loc),
      selector ≠ none) :
    (aggregatedView loc).view (filteredFindings loc s) =
      ((vulnerabilityRollupSource loc).view (s.joined loc)).map (shownRow loc s) := by
  rw [GroupedView.view_eq_map_keys, GroupedView.view_eq_map_keys, h.keys_aggregated, List.map_map]
  refine List.map_congr_left fun selector hselector => ?_
  cases selector with
  | none => exact absurd rfl (hkeyed none hselector)
  | some selector => exact h.aggregateLive_eq loc selector

end Vulnerabilities

/-! ## Order -/

section Order

variable {α β : Type}

theorem orderByValue_map {γ : Type} [LinearOrder γ] (loc : Collation) (direction : Direction)
    (value : β → Option γ) (selector : β → Option String) (f : α → β) (rows : List α) :
    orderByValue loc direction value selector (rows.map f) =
      (orderByValue loc direction (fun r => value (f r)) (fun r => selector (f r)) rows).map f := by
  cases direction with
  | asc => exact sortOn_map _ f rows
  | desc => exact sortOn_map _ f rows

theorem orderBy_map (loc : Collation) (column : SortColumn) (direction : Direction)
    (columns : β → VulnerabilityColumns) (f : α → β) (rows : List α) :
    orderBy loc column direction columns (rows.map f) =
      (orderBy loc column direction (fun r => columns (f r)) rows).map f := by
  cases column with
  | _ => exact orderByValue_map loc direction _ _ f rows

theorem selectorKey_injective (loc : Collation) :
    Function.Injective (selectorKey loc) := by
  intro x y h
  have hcollate : Function.Injective (collate loc) := fun a b hab => congrArg Collated.text hab
  exact Option.map_injective hcollate (nullsLast_injective h)

theorem orderByValue_eq_of_perm {γ : Type} [LinearOrder γ] (loc : Collation)
    (direction : Direction) (value : α → Option γ) {selector : α → Option String}
    {rows rows' : List α} (hperm : rows.Perm rows')
    (hkey : ∀ a ∈ rows, ∀ b ∈ rows, selector a = selector b → a = b) :
    orderByValue loc direction value selector rows =
      orderByValue loc direction value selector rows' := by
  cases direction with
  | asc =>
      refine sortOn_eq_of_perm hperm fun a ha b hb hsame => ?_
      exact hkey a ha b hb (selectorKey_injective loc (Prod.ext_iff.1 (toLex.injective hsame)).2)
  | desc =>
      refine sortOn_eq_of_perm hperm fun a ha b hb hsame => ?_
      exact hkey a ha b hb (selectorKey_injective loc (Prod.ext_iff.1 (toLex.injective hsame)).2)

theorem orderBy_eq_of_perm (loc : Collation) (column : SortColumn) (direction : Direction)
    {columns : α → VulnerabilityColumns} {rows rows' : List α} (hperm : rows.Perm rows')
    (hkey : ∀ a ∈ rows, ∀ b ∈ rows, (columns a).selector = (columns b).selector → a = b) :
    orderBy loc column direction columns rows = orderBy loc column direction columns rows' := by
  cases column with
  | _ => exact orderByValue_eq_of_perm loc direction _ hperm hkey

theorem page_map (limit offset : Int) (f : α → β) (rows : List α) :
    page limit offset (rows.map f) = (page limit offset rows).map f := by
  unfold page
  rw [← List.map_drop, ← List.map_take]

end Order

/-! ## The list -/

theorem sqlEq_comm (x y : Option String) :
    sqlEq x y = sqlEq y x := by
  cases x <;> cases y <;> simp [sqlEq, eq_comm]

section List

variable {s : Analytics} {groupOf : FindingRow → GroupRow} {cardOf : String → CardRow}

theorem Analytics.Constraints.rollup_eq (h : s.Constraints) {a b : VulnerabilityRollup}
    (ha : a ∈ s.rollup) (hb : b ∈ s.rollup) (hsame : a.selector = b.selector) :
    a = b :=
  List.inj_on_of_nodup_map h.rollupKeys ha hb hsame

theorem Analytics.Constraints.selector_ne_none (h : s.Constraints) {loc : Sql.Locale}
    (hexact : s.toStore.Exact loc) {selector : Option String}
    (hselector : selector ∈ (vulnerabilityRollupSource loc).keys (s.joined loc)) :
    selector ≠ none := by
  have hview : aggregateSelector loc selector
      ((vulnerabilityRollupSource loc).group (s.joined loc) selector) ∈
      (vulnerabilityRollupSource loc).view (s.joined loc) := by
    rw [GroupedView.view_eq_map_keys]
    exact List.mem_map_of_mem hselector
  exact h.rollupKeyed _ (hexact.rollup.mem_iff.2 hview)

/-- The passports of a shown row do not depend on the findings behind the other rows. -/
theorem Placed.passportRollup_eq (h : Placed s groupOf cardOf) (loc : Collation)
    {paged : List VulnerabilityRow} {r : VulnerabilityRow} (hr : r ∈ paged) :
    passportRollup loc s
        ((filteredFindings loc.toLocale s).map fun r => (r.selector, r.findingId)) r.selector =
      passportRollup loc s
        ((s.findings.filter fun f =>
          (paged.any fun r => sqlEq f.selector r.selector) && f.valid).map
            fun f => (f.selector, f.id)) r.selector := by
  have hsame : (s.validFindings.filter fun f => sqlEq r.selector f.selector) =
      (s.findings.filter fun f =>
        (paged.any fun r => sqlEq f.selector r.selector) && f.valid).filter
          fun f => sqlEq r.selector f.selector := by
    unfold Analytics.validFindings
    rw [List.filter_filter, List.filter_filter]
    refine List.filter_congr fun f _ => ?_
    cases hselector : sqlEq r.selector f.selector with
    | false => rfl
    | true =>
        have hany : (paged.any fun r => sqlEq f.selector r.selector) = true :=
          List.any_eq_true.2 ⟨r, hr, by rw [sqlEq_comm, hselector]⟩
        rw [hany]
        rfl
  have hids : (((filteredFindings loc.toLocale s).map fun r => (r.selector, r.findingId)).filter
      fun x => sqlEq r.selector x.1).map Prod.snd =
      (((s.findings.filter fun f =>
        (paged.any fun r => sqlEq f.selector r.selector) && f.valid).map
          fun f => (f.selector, f.id)).filter fun x => sqlEq r.selector x.1).map Prod.snd := by
    rw [h.filteredFindings_eq, List.map_map, List.filter_map, List.filter_map, List.map_map,
      List.map_map]
    exact congrArg (List.map FindingRow.id) hsame
  unfold passportRollup
  dsimp only
  rw [hids]

/-- A page of the list is the same in both ways. -/
theorem rollupRows_eq_liveRows (hconstraints : s.Constraints) (loc : Collation)
    (hexact : s.toStore.Exact loc.toLocale) (column : SortColumn) (direction : Direction)
    (limit offset : Int) :
    rollupRows loc s column direction limit offset =
      liveRows loc s column direction limit offset := by
  obtain ⟨groupOf, cardOf, hplaced⟩ := hconstraints.placed
  have haggregated := view_aggregated hplaced loc.toLocale fun selector hselector =>
    hconstraints.selector_ne_none hexact hselector
  have hordered : orderBy loc column direction VulnerabilityRollup.columns s.rollup =
      orderBy loc column direction VulnerabilityRollup.columns
        ((vulnerabilityRollupSource loc.toLocale).view (s.joined loc.toLocale)) :=
    orderBy_eq_of_perm loc column direction hexact.rollup fun a ha b hb hsame =>
      hconstraints.rollup_eq ha hb hsame
  have hpaged : page limit offset (orderBy loc column direction
      VulnerabilityRow.toVulnerabilityColumns
      ((aggregatedView loc.toLocale).view (filteredFindings loc.toLocale s))) =
      (page limit offset
        (orderBy loc column direction VulnerabilityRollup.columns s.rollup)).map
          (shownRow loc.toLocale s) := by
    rw [haggregated, orderBy_map, page_map, hordered]
    rfl
  unfold rollupRows liveRows withPassports
  dsimp only
  rw [hpaged]
  congr 1
  refine List.map_congr_left fun r hr => ?_
  rw [hplaced.passportRollup_eq loc hr]

end List

end Findings
end MpvmApp
