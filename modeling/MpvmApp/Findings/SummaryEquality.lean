import Mathlib.Data.List.ReduceOption
import MpvmApp.Findings.ReadPathEquality

/-!
# Both ways to the summary agree

The stored hosts and the stored vulnerabilities are the groups of the findings by host and by
selector.  Every counter of the summary is a sum over the groups, or a number of groups or of
distinct values, and it can be read off the findings as well.

Main results:

- Theorem `rollupTotals_eq`: the totals of the stored aggregates are those of the findings.
- Theorem `rollupSeverityCounts_eq`: so are the counters of a severity.
- Theorem `rollupSummaryRows_eq_liveSummaryRows`: the pieces of the summary agree.
- Theorem `read_paths_agree`: the list, the summary and the counters of a snapshot agree.
-/

namespace MpvmApp
namespace Findings

open Sql
open Passports (Collation Collated)

/-! ## Aggregates -/

theorem foldl_min_le_iff {ranks : List Nat} {start n : Nat} :
    ranks.foldl min start ≤ n ↔ start ≤ n ∨ ∃ rank ∈ ranks, rank ≤ n := by
  induction ranks generalizing start with
  | nil => simp
  | cons rank ranks ih =>
      rw [List.foldl_cons, ih, min_le_iff]
      simp [or_assoc]

theorem minRank_le_two_iff {ranks : List Nat} :
    minRank ranks ≤ 2 ↔ ∃ rank ∈ ranks, rank ≤ 2 := by
  unfold minRank
  rw [foldl_min_le_iff]
  simp

@[simp]
theorem mem_distinctSorted {α : Type} [DecidableEq α] {le : α → α → Bool} {values : List α}
    {a : α} :
    a ∈ distinctSorted le values ↔ a ∈ values := by
  simp [distinctSorted]

theorem mem_arrayAgg {le : String → String → Bool} {values : List (Option String)}
    {text : String} :
    text ∈ (arrayAgg le values).getD [] ↔ some text ∈ values := by
  have hmem : text ∈ values.reduceOption ↔ some text ∈ values := by simp [List.reduceOption]
  unfold arrayAgg
  cases htexts : values.reduceOption with
  | nil =>
      rw [htexts] at hmem
      simpa using hmem
  | cons first texts =>
      rw [htexts] at hmem
      simpa using hmem

theorem maxOf_replicate {α : Type} (le : α → α → Bool) (value : Option α) (n : Nat) :
    maxOf le (List.replicate (n + 1) value) = value := by
  cases value with
  | none =>
      unfold maxOf
      rw [List.reduceOption_replicate_none]
      rfl
  | some a =>
      have hstays : ∀ m, maxOf le (List.replicate (m + 1) (some a)) = some a →
          maxOf le (List.replicate (m + 2) (some a)) = some a := by
        intro m hm
        unfold maxOf at hm ⊢
        rw [List.replicate_succ', List.reduceOption_append, List.foldl_append, hm]
        simp [List.reduceOption]
      induction n with
      | zero => rfl
      | succ m ih => exact hstays m ih

theorem maxOf_map_const {α β : Type} {le : α → α → Bool} {rows : List β} (hrows : rows ≠ [])
    {f : β → Option α} {value : Option α} (h : ∀ r ∈ rows, f r = value) :
    maxOf le (rows.map f) = value := by
  have hconst : rows.map f = List.replicate rows.length value := by
    rw [List.map_congr_left h, List.map_const']
  obtain ⟨n, hn⟩ := Nat.exists_eq_succ_of_ne_zero (mt List.eq_nil_of_length_eq_zero hrows)
  rw [hconst, hn]
  exact maxOf_replicate le value n

/-! ## The totals -/

section Totals

variable {s : Analytics} {groupOf : FindingRow → GroupRow} {cardOf : String → CardRow}

theorem rank_injective :
    Function.Injective Severity.rank := by
  intro a b h
  cases a <;> cases b <;> first | rfl | cases h

/-- The stored vulnerability of the live findings with one selector. -/
def storedVulnerability (loc : Sql.Locale) (rows : List FilteredFinding)
    (selector : Option String) : VulnerabilityRollup :=
  aggregateSelector loc selector
    (((aggregatedView loc).group rows selector).map FilteredFinding.toJoinedFinding)

/-- The stored host of the live findings of one host. -/
def storedHost (loc : Sql.Locale) (rows : List FilteredFinding) (assetId : String) :
    VulnerabilityHostRollup :=
  aggregateHost loc assetId
    (((hostsView loc).group rows assetId).map FilteredFinding.toJoinedFinding)

theorem Placed.rollup_perm (h : Placed s groupOf cardOf) {loc : Sql.Locale}
    (hexact : s.toStore.Exact loc) :
    s.rollup.Perm (((aggregatedView loc).keys (filteredFindings loc s)).map
      (storedVulnerability loc (filteredFindings loc s))) := by
  have hview : (vulnerabilityRollupSource loc).view (s.joined loc) =
      ((aggregatedView loc).keys (filteredFindings loc s)).map
        (storedVulnerability loc (filteredFindings loc s)) := by
    rw [GroupedView.view_eq_map_keys, h.keys_aggregated]
    refine List.map_congr_left fun selector _ => ?_
    unfold storedVulnerability GroupedView.group
    rw [← h.map_toJoinedFinding loc, List.filter_map]
    rfl
  exact hview ▸ hexact.rollup

theorem Placed.hostRollup_perm (h : Placed s groupOf cardOf) {loc : Sql.Locale}
    (hexact : s.toStore.Exact loc) :
    s.hostRollup.Perm (((hostsView loc).keys (filteredFindings loc s)).map
      (storedHost loc (filteredFindings loc s))) := by
  have hview : (vulnerabilityHostRollupSource loc).view (s.joined loc) =
      ((hostsView loc).keys (filteredFindings loc s)).map
        (storedHost loc (filteredFindings loc s)) := by
    have hkeys : (hostsView loc).keys (filteredFindings loc s) =
        (vulnerabilityHostRollupSource loc).keys (s.joined loc) := by
      unfold GroupedView.keys
      rw [← h.map_toJoinedFinding loc, List.map_map]
      rfl
    rw [GroupedView.view_eq_map_keys, hkeys]
    refine List.map_congr_left fun assetId _ => ?_
    unfold storedHost GroupedView.group
    rw [← h.map_toJoinedFinding loc, List.filter_map]
    rfl
  exact hview ▸ hexact.hostRollup

theorem countDistinct_selectors {rows : List FilteredFinding}
    (hkeyed : ∀ r ∈ rows, r.selector ≠ none) :
    (fromKeys (rows.map fun r => r.selector)).length =
      countDistinct (rows.filterMap fun r => r.selector) := by
  have hsome : (rows.map fun r => r.selector) =
      (rows.filterMap fun r => r.selector).map some := by
    induction rows with
    | nil => rfl
    | cons r rows ih =>
        obtain ⟨selector, hselector⟩ :=
          Option.ne_none_iff_exists'.1 (hkeyed r List.mem_cons_self)
        rw [List.map_cons, List.filterMap_cons, hselector,
          ih fun r' hr' => hkeyed r' (List.mem_cons_of_mem r hr')]
        rfl
  rw [hsome, length_fromKeys_map (Option.some_injective String)]
  rfl

theorem decide_minRank_le_two (rows : List FilteredFinding) :
    decide (minRank (rows.map fun r => r.severityRank) ≤ 2) =
      rows.any fun r => decide (r.severityRank ≤ 2) := by
  rw [Bool.eq_iff_iff, decide_eq_true_iff, minRank_le_two_iff]
  simp

/-- The totals of the stored aggregates are those of the live findings. -/
theorem Placed.rollupTotals_eq (h : Placed s groupOf cardOf) {loc : Sql.Locale}
    (hexact : s.toStore.Exact loc)
    (hkeyed : ∀ r ∈ filteredFindings loc s, r.selector ≠ none) :
    rollupTotals s =
      totalCounts loc ((filteredFindings loc s).map FilteredFinding.counted) := by
  have hrollup := h.rollup_perm hexact
  have hhosts := h.hostRollup_perm hexact
  generalize filteredFindings loc s = rows at *
  have haffected : s.hostRollup.length = countDistinct (rows.map fun r => r.assetId) := by
    rw [hhosts.length_eq, List.length_map]
    rfl
  have hfindings : (s.hostRollup.map VulnerabilityHostRollup.findings).sum = rows.length := by
    have hsum := (hostsView loc).sum_length_group rows fun _ => true
    rw [(hhosts.map _).sum_eq, List.map_map]
    simpa [storedHost, aggregateHost, Function.comp_def] using hsum
  have hunique : s.rollup.length = countDistinct (rows.filterMap fun r => r.selector) := by
    rw [hrollup.length_eq, List.length_map, ← countDistinct_selectors hkeyed]
    rfl
  have hcves : countDistinct (s.rollup.flatMap fun r => r.cves.getD []) =
      countDistinct (rows.filterMap fun r => (nullIfBlank r.cveName).map loc.upper) := by
    refine length_fromKeys_congr fun cve => ?_
    rw [(hrollup.flatMap_right _).mem_iff]
    simp only [List.flatMap_map, List.mem_flatMap, storedVulnerability, aggregateSelector,
      mem_arrayAgg, List.map_map, List.mem_map, Function.comp_apply, List.mem_filterMap]
    constructor
    · rintro ⟨_, _, r, hr, hcve⟩
      exact ⟨r, (GroupedView.mem_group.1 hr).1, hcve⟩
    · rintro ⟨r, hr, hcve⟩
      exact ⟨r.selector, GroupedView.mem_keys.2 ⟨r, hr, rfl⟩, r,
        GroupedView.mem_group.2 ⟨hr, rfl⟩, hcve⟩
  have hrisk : (s.hostRollup.countP fun r => decide (r.severityRank ≤ 2)) =
      countDistinct ((rows.filter fun r => decide (r.severityRank ≤ 2)).map
        fun r => r.assetId) := by
    have hany := GroupedView.countP_any_group (G := hostsView loc) rows
      fun r => decide (r.severityRank ≤ 2)
    rw [hhosts.countP_eq, List.countP_map]
    refine Eq.trans (List.countP_congr fun assetId _ => ?_) hany
    simp only [Function.comp_apply, storedHost, aggregateHost, List.map_map]
    rw [← decide_minRank_le_two]
    rfl
  have hunrated : (s.rollup.countP fun r => decide (r.severityRank = 5)) =
      (fromKeys (rows.map fun r => r.selector)).countP fun k =>
        decide (minRank ((rows.filter fun r => decide (r.selector = k)).map
          fun r => r.severityRank) = 5) := by
    rw [hrollup.countP_eq, List.countP_map]
    refine List.countP_congr fun selector _ => ?_
    simp only [Function.comp_apply, storedVulnerability, aggregateSelector, List.map_map]
    rfl
  unfold rollupTotals totalCounts
  rw [haffected, hfindings, hunique, hcves, hrisk, hunrated]
  simp only [List.map_map, List.filterMap_map, List.filter_map, List.length_map]
  rfl

/-! ## The severities -/

theorem findingsOf_storedHost (loc : Sql.Locale) (rows : List FilteredFinding) (assetId : String)
    (severity : Severity) :
    (storedHost loc rows assetId).findingsOf severity =
      (((hostsView loc).group rows assetId).filter fun r =>
        decide (r.severityRank = severity.rank)).length := by
  have hcount : ∀ rank, countRank
      (((hostsView loc).group rows assetId).map FilteredFinding.toJoinedFinding) rank =
      (((hostsView loc).group rows assetId).filter fun r =>
        decide (r.severityRank = rank)).length := by
    intro rank
    unfold countRank
    rw [List.filter_map, List.length_map]
    rfl
  cases severity with
  | _ => exact hcount _

theorem decide_length_filter_pos {α : Type} (rows : List α) (p : α → Bool) :
    decide (0 < (rows.filter p).length) = rows.any p := by
  rw [Bool.eq_iff_iff, decide_eq_true_iff, List.length_filter_pos_iff, List.any_eq_true]

/-- The counters of a severity in the stored aggregates are those of the live findings. -/
theorem Placed.rollupSeverityCounts_eq (h : Placed s groupOf cardOf) {loc : Sql.Locale}
    (hexact : s.toStore.Exact loc)
    (hkeyed : ∀ r ∈ filteredFindings loc s, r.selector ≠ none) (severity : Severity) :
    rollupSeverityCounts s severity =
      severityCounts ((filteredFindings loc s).map FilteredFinding.counted) severity := by
  have hrank : ∀ r ∈ filteredFindings loc s, r.severityRank = r.severity.rank := by
    intro r hr
    rw [h.filteredFindings_eq] at hr
    obtain ⟨f, _, rfl⟩ := List.mem_map.1 hr
    rfl
  have hrollup := h.rollup_perm hexact
  have hhosts := h.hostRollup_perm hexact
  generalize filteredFindings loc s = rows at *
  have hsame : (rows.filter fun r => decide (r.severityRank = severity.rank)) =
      rows.filter fun r => decide (r.severity = severity) := by
    refine List.filter_congr fun r hr => ?_
    rw [hrank r hr, Bool.eq_iff_iff, decide_eq_true_iff, decide_eq_true_iff]
    exact rank_injective.eq_iff
  have hfindings : (s.hostRollup.map fun r => r.findingsOf severity).sum =
      (rows.filter fun r => decide (r.severity = severity)).length := by
    have hsum := GroupedView.sum_length_group (G := hostsView loc) rows
      fun r => decide (r.severityRank = severity.rank)
    rw [(hhosts.map _).sum_eq, List.map_map, ← hsame, ← hsum]
    refine congrArg List.sum (List.map_congr_left fun assetId _ => ?_)
    exact findingsOf_storedHost loc rows assetId severity
  have haffected : (s.hostRollup.countP fun r => decide (0 < r.findingsOf severity)) =
      countDistinct ((rows.filter fun r => decide (r.severity = severity)).map
        fun r => r.assetId) := by
    have hany := GroupedView.countP_any_group (G := hostsView loc) rows
      fun r => decide (r.severityRank = severity.rank)
    rw [hhosts.countP_eq, List.countP_map, ← hsame]
    refine Eq.trans (List.countP_congr fun assetId _ => ?_) hany
    rw [Function.comp_apply, findingsOf_storedHost, decide_length_filter_pos]
  have hunique : (s.rollup.countP fun r => decide (severity.rank ∈ r.severityRanks)) =
      countDistinct ((rows.filter fun r => decide (r.severity = severity)).filterMap
        fun r => r.selector) := by
    have hany := GroupedView.countP_any_group (G := aggregatedView loc) rows
      fun r => decide (r.severityRank = severity.rank)
    have hkeyed' : ∀ r ∈ rows.filter fun r => decide (r.severity = severity),
        r.selector ≠ none :=
      fun r hr => hkeyed r (List.mem_of_mem_filter hr)
    rw [hrollup.countP_eq, List.countP_map, ← countDistinct_selectors hkeyed', ← hsame]
    refine Eq.trans (List.countP_congr fun selector _ => ?_) hany
    rw [Function.comp_apply, decide_eq_true_iff, List.any_eq_true]
    simp [storedVulnerability, aggregateSelector]
  unfold rollupSeverityCounts severityCounts
  rw [hfindings, haffected, hunique]
  simp only [List.map_map, List.filterMap_map, List.filter_map, List.length_map]
  rfl

theorem severityCounts_eq_zero {rows : List CountedFinding} {severity : Severity}
    (h : (severityCounts rows severity).findings = 0) :
    severityCounts rows severity = .zero severity := by
  have hnil : rows.filter (fun r => decide (r.severity = severity)) = [] :=
    List.eq_nil_of_length_eq_zero h
  unfold severityCounts
  rw [hnil]
  rfl

theorem findings_severityCounts_pos {rows : List CountedFinding} {severity : Severity} :
    0 < (severityCounts rows severity).findings ↔
      severity ∈ rows.map CountedFinding.severity := by
  unfold severityCounts
  dsimp only
  rw [List.length_filter_pos_iff]
  simp

/-- The severities that have findings, in the order of their ranks. -/
theorem sortOn_severityGroups (rows : List CountedFinding) :
    sortOn (fun r => r.severity.rank) (severityGroups rows) =
      (vulnerabilitySeverities.map (severityCounts rows)).filter fun r =>
        decide (0 < r.findings) := by
  let present := vulnerabilitySeverities.filter fun severity =>
    decide (0 < (severityCounts rows severity).findings)
  have hranked : vulnerabilitySeverities.Pairwise fun a b => a.rank ≤ b.rank := by decide
  have hnodup : vulnerabilitySeverities.Nodup := by decide
  have hall : ∀ severity : Severity, severity ∈ vulnerabilitySeverities := by
    intro severity
    cases severity <;> decide
  have hperm : (fromKeys (rows.map CountedFinding.severity)).Perm present := by
    rw [List.perm_ext_iff_of_nodup (nodup_fromKeys _) (hnodup.filter _)]
    intro severity
    rw [mem_fromKeys, List.mem_filter, decide_eq_true_iff, findings_severityCounts_pos]
    exact (and_iff_right (hall severity)).symm
  have hsorted : sortOn Severity.rank (fromKeys (rows.map CountedFinding.severity)) = present := by
    rw [sortOn_eq_of_perm hperm fun a _ b _ hab => rank_injective hab]
    exact sortOn_eq_self (hranked.sublist List.filter_sublist)
  unfold severityGroups
  rw [sortOn_map, List.filter_map]
  exact congrArg (List.map (severityCounts rows)) hsorted

end Totals

/-! ## The tops -/

section Tops

variable {s : Analytics} {groupOf : FindingRow → GroupRow} {cardOf : String → CardRow}

theorem topKey_selector {loc : Collation} {a b : VulnerabilityColumns}
    (h : topKey loc a = topKey loc b) :
    a.selector = b.selector := by
  have hrest := (Prod.ext_iff.1 (toLex.injective h)).2
  exact selectorKey_injective loc (Prod.ext_iff.1 (toLex.injective hrest)).2

theorem HostRank.key_assetId {loc : Collation} {a b : HostRank} (h : a.key loc = b.key loc) :
    a.assetId = b.assetId := by
  have hrest := (Prod.ext_iff.1 (toLex.injective h)).2
  have hlast := (Prod.ext_iff.1 (toLex.injective hrest)).2
  exact congrArg Collated.text (Prod.ext_iff.1 (toLex.injective hlast)).2

/-- The top vulnerabilities are the same in both ways. -/
theorem Placed.topVulnerabilities_eq (h : Placed s groupOf cardOf) (hconstraints : s.Constraints)
    (loc : Collation) (hexact : s.toStore.Exact loc.toLocale) :
    (rollupSummaryRows loc s).topVulnerabilities =
      (liveSummaryRows loc s).topVulnerabilities := by
  have haggregated := view_aggregated h loc.toLocale fun selector hselector =>
    hconstraints.selector_ne_none hexact hselector
  have hordered : sortOn (fun r => topKey loc (VulnerabilityRollup.columns r)) s.rollup =
      sortOn (fun r => topKey loc (VulnerabilityRollup.columns r))
        ((vulnerabilityRollupSource loc.toLocale).view (s.joined loc.toLocale)) :=
    sortOn_eq_of_perm hexact.rollup fun a ha b hb hsame =>
      hconstraints.rollup_eq ha hb (topKey_selector hsame)
  have htop : (sortOn (fun r : VulnerabilityRow => topKey loc r.toVulnerabilityColumns)
      ((aggregatedView loc.toLocale).view (filteredFindings loc.toLocale s))).take 8 =
      ((sortOn (fun r => topKey loc (VulnerabilityRollup.columns r)) s.rollup).take 8).map
        (shownRow loc.toLocale s) := by
    rw [haggregated, sortOn_map, ← List.map_take, hordered]
    rfl
  unfold rollupSummaryRows liveSummaryRows
  dsimp only
  rw [htop]

/-- A stored host with its card is the live host. -/
theorem Placed.aggregateLiveHost_eq (h : Placed s groupOf cardOf) (loc : Sql.Locale)
    {assetId : String} (hassetId : assetId ∈ (hostsView loc).keys (filteredFindings loc s)) :
    aggregateLiveHost loc assetId ((hostsView loc).group (filteredFindings loc s) assetId) =
      (storedHost loc (filteredFindings loc s) assetId).item (cardOf assetId) := by
  have hcard : ∀ r ∈ (hostsView loc).group (filteredFindings loc s) assetId,
      r.card = cardOf assetId := by
    intro r hr
    obtain ⟨hrow, hkey⟩ := GroupedView.mem_group.1 hr
    rw [h.filteredFindings_eq] at hrow
    obtain ⟨f, hf, rfl⟩ := List.mem_map.1 hrow
    have hasset : f.assetId = assetId := (h.assetId f (mem_of_mem_validFindings hf)).symm.trans hkey
    rw [← hasset]
    rfl
  have hrows : (hostsView loc).group (filteredFindings loc s) assetId ≠ [] :=
    fun hnil => GroupedView.group_eq_nil_iff.1 hnil hassetId
  have hcolumn : ∀ column : CardRow → Option String,
      maxOf loc.le (((hostsView loc).group (filteredFindings loc s) assetId).map
        fun r => column r.card) = column (cardOf assetId) :=
    fun column => maxOf_map_const hrows fun r hr => congrArg column (hcard r hr)
  unfold aggregateLiveHost storedHost aggregateHost VulnerabilityHostRollup.item
  simp only [hcolumn, hcolumn fun card => some card.lastSeen, List.map_map, List.filterMap_map,
    List.filter_map, List.length_map]
  rfl

/-- The top hosts are the same in both ways. -/
theorem Placed.topHosts_eq (h : Placed s groupOf cardOf) (hconstraints : s.Constraints)
    (loc : Collation) (hexact : s.toStore.Exact loc.toLocale) :
    (rollupSummaryRows loc s).topHosts = (liveSummaryRows loc s).topHosts := by
  let hosts := ((hostsView loc.toLocale).keys (filteredFindings loc.toLocale s)).map
    (storedHost loc.toLocale (filteredFindings loc.toLocale s))
  let key := fun r : VulnerabilityHostRollup => r.rank.key loc
  let item := fun r : VulnerabilityHostRollup => r.item (cardOf r.assetId)
  have hperm : s.hostRollup.Perm hosts := h.hostRollup_perm hexact
  have hordered : sortOn key s.hostRollup = sortOn key hosts :=
    sortOn_eq_of_perm hperm fun a ha b hb hsame =>
      List.inj_on_of_nodup_map hconstraints.hostRollupKeys ha hb (HostRank.key_assetId hsame)
  -- every stored host has findings, and so it has a card
  have hcards : ∀ r ∈ (sortOn key s.hostRollup).take 8,
      (s.cards.filter fun c => decide (c.assetId = r.assetId)).map (fun c => (r, c)) =
        [(r, cardOf r.assetId)] := by
    intro r hr
    have hhost := hperm.mem_iff.1 (mem_sortOn.1 (List.mem_of_mem_take hr))
    obtain ⟨assetId, hassetId, rfl⟩ := List.mem_map.1 hhost
    obtain ⟨row, hrow, hkey⟩ := GroupedView.mem_keys.1 hassetId
    rw [h.filteredFindings_eq] at hrow
    obtain ⟨f, hf, rfl⟩ := List.mem_map.1 hrow
    have hfinding := mem_of_mem_validFindings hf
    have hasset : f.assetId = assetId := (h.assetId f hfinding).symm.trans hkey
    have hcard := h.cards f hfinding
    rw [hasset] at hcard
    change (s.cards.filter fun c => decide (c.assetId = assetId)).map _ = _
    rw [hcard]
    rfl
  have hsorted : sortOn (fun x : VulnerabilityHostRollup × CardRow => x.1.rank.key loc)
      (((sortOn key s.hostRollup).take 8).map fun r => (r, cardOf r.assetId)) =
      ((sortOn key s.hostRollup).take 8).map fun r => (r, cardOf r.assetId) := by
    refine sortOn_eq_self (List.pairwise_map.2 ?_)
    exact (pairwise_sortOn key s.hostRollup).sublist (List.take_sublist 8 _)
  have hview : (hostsView loc.toLocale).view (filteredFindings loc.toLocale s) =
      hosts.map item := by
    rw [GroupedView.view_eq_map_keys, List.map_map]
    exact List.map_congr_left fun assetId hassetId => h.aggregateLiveHost_eq loc.toLocale hassetId
  have hlive : (sortOn (fun r : HostItem => r.rank.key loc)
      ((hostsView loc.toLocale).view (filteredFindings loc.toLocale s))).take 8 =
      ((sortOn key s.hostRollup).take 8).map item := by
    rw [hview, sortOn_map, ← List.map_take, hordered]
    rfl
  unfold rollupSummaryRows liveSummaryRows
  dsimp only
  rw [hlive, flatMap_eq_map_of_singleton hcards, hsorted, List.map_map]
  rfl

theorem Placed.keyed (h : Placed s groupOf cardOf) (hconstraints : s.Constraints)
    {loc : Sql.Locale} (hexact : s.toStore.Exact loc) :
    ∀ r ∈ filteredFindings loc s, r.selector ≠ none := by
  intro r hr
  refine hconstraints.selector_ne_none hexact ?_
  rw [← h.keys_aggregated]
  exact GroupedView.mem_keys.2 ⟨r, hr, rfl⟩

theorem length_rollup_eq_liveTotal (hconstraints : s.Constraints) {loc : Sql.Locale}
    (hexact : s.toStore.Exact loc) :
    s.rollup.length = liveTotal loc s := by
  obtain ⟨groupOf, cardOf, hplaced⟩ := hconstraints.placed
  have htotals := hplaced.rollupTotals_eq hexact (hplaced.keyed hconstraints hexact)
  have hunique := congrArg TotalCounts.uniqueVulnerabilities htotals
  unfold totalCounts at hunique
  dsimp only at hunique
  rw [List.filterMap_map] at hunique
  exact hunique

/-- The pieces of the summary are the same in both ways. -/
theorem rollupSummaryRows_eq_liveSummaryRows (hconstraints : s.Constraints) (loc : Collation)
    (hexact : s.toStore.Exact loc.toLocale) :
    rollupSummaryRows loc s = liveSummaryRows loc s := by
  obtain ⟨groupOf, cardOf, hplaced⟩ := hconstraints.placed
  have hkeyed := hplaced.keyed hconstraints hexact
  have hseverities : (rollupSummaryRows loc s).severities =
      (liveSummaryRows loc s).severities := by
    unfold rollupSummaryRows liveSummaryRows
    dsimp only
    rw [sortOn_severityGroups]
    refine congrArg (List.filter _) (List.map_congr_left fun severity _ => ?_)
    exact hplaced.rollupSeverityCounts_eq hexact hkeyed severity
  exact SummaryRows.ext (hplaced.rollupTotals_eq hexact hkeyed) hseverities
    (hplaced.topVulnerabilities_eq hconstraints loc hexact)
    (hplaced.topHosts_eq hconstraints loc hexact)

end Tops

/-! ## The counters of a severity -/

theorem find?_severityCounts (rows : List CountedFinding) (severities : List Severity)
    (severity : Severity) :
    (severities.map (severityCounts rows)).find? (fun r => decide (r.severity = severity)) =
      if severity ∈ severities then some (severityCounts rows severity) else none := by
  induction severities with
  | nil => rfl
  | cons first severities ih =>
      have hfirst : (severityCounts rows first).severity = first := rfl
      rw [List.map_cons, List.find?_cons, ih, hfirst]
      by_cases hsame : first = severity
      · simp [hsame]
      · simp [hsame, Ne.symm hsame]

theorem getD_find?_severityCounts {rows : List CountedFinding} {severities : List Severity}
    {severity : Severity}
    (hleft : severity ∉ severities → (severityCounts rows severity).findings = 0) :
    ((severities.map (severityCounts rows)).find?
      (fun r => decide (r.severity = severity))).getD (.zero severity) =
        severityCounts rows severity := by
  rw [find?_severityCounts]
  by_cases hmem : severity ∈ severities
  · rw [if_pos hmem]
    rfl
  · rw [if_neg hmem, severityCounts_eq_zero (hleft hmem)]
    rfl

theorem findings_severityCounts_eq_zero {rows : List CountedFinding} {severity : Severity}
    (h : severity ∉ rows.map CountedFinding.severity) :
    (severityCounts rows severity).findings = 0 :=
  Nat.eq_zero_of_not_pos fun hpos => h (findings_severityCounts_pos.1 hpos)

theorem countsOf_liveSummary (loc : Collation) (s : Analytics) (severity : Severity) :
    (summary loc false s).countsOf severity =
      severityCounts ((filteredFindings loc.toLocale s).map FilteredFinding.counted) severity := by
  have hseverities : (summary loc false s).bySeverity =
      sortOn (fun r => r.severity.rank)
        (severityGroups ((filteredFindings loc.toLocale s).map FilteredFinding.counted)) := rfl
  unfold Summary.countsOf
  rw [hseverities, sortOn_severityGroups, List.filter_map]
  refine getD_find?_severityCounts fun hleft => Nat.eq_zero_of_not_pos fun hpos => hleft ?_
  refine List.mem_filter.2 ⟨?_, decide_eq_true hpos⟩
  cases severity <;> decide

theorem countsOf_captureSnapshot (loc : Collation) (s : Analytics) (severity : Severity) :
    (captureSnapshot loc s).countsOf severity =
      severityCounts (snapshotFindings loc.toLocale s) severity := by
  have hrows : (captureSnapshot loc s).bySeverity =
      vulnerabilitySeverities.map (severityCounts (snapshotFindings loc.toLocale s)) := by
    refine List.map_congr_left fun name _ => ?_
    refine getD_find?_severityCounts fun hleft => ?_
    exact findings_severityCounts_eq_zero fun hmem => hleft (mem_fromKeys.2 hmem)
  unfold Snapshot.countsOf
  rw [hrows]
  refine getD_find?_severityCounts fun hleft => absurd ?_ hleft
  cases severity <;> decide

/-- A snapshot counts every card once. -/
theorem hostsTotal_captureSnapshot (loc : Collation) {s : Analytics} (h : s.Constraints) :
    (captureSnapshot loc s).hostsTotal = s.cards.length := by
  have hmem : ∀ assetId, assetId ∈ (cardGroups s).map (fun x => x.1.assetId) ↔
      assetId ∈ s.cards.map CardRow.assetId := by
    intro assetId
    unfold cardGroups
    rw [List.mem_map, List.mem_map]
    constructor
    · rintro ⟨x, hx, rfl⟩
      obtain ⟨c, hc, hxc⟩ := List.mem_flatMap.1 hx
      refine ⟨c, hc, ?_⟩
      split at hxc
      · rw [List.mem_singleton.1 hxc]
      · obtain ⟨g, _, rfl⟩ := List.mem_map.1 hxc
        rfl
    · rintro ⟨c, hc, rfl⟩
      cases hgroups : s.groups.filter fun g => decide (g.assetId = c.assetId) with
      | nil => exact ⟨(c, none), List.mem_flatMap.2 ⟨c, hc, by simp [hgroups]⟩, rfl⟩
      | cons g groups => exact ⟨(c, some g), List.mem_flatMap.2 ⟨c, hc, by simp [hgroups]⟩, rfl⟩
  have hcount : countDistinct ((cardGroups s).map fun x => x.1.assetId) =
      countDistinct (s.cards.map CardRow.assetId) :=
    length_fromKeys_congr hmem
  have hnodup : countDistinct (s.cards.map CardRow.assetId) = s.cards.length := by
    unfold countDistinct fromKeys
    rw [(List.nodup_reverse.2 h.cardIds).dedup, List.reverse_reverse, List.length_map]
  exact hcount.trans hnodup

/-! ## The claim of the stored aggregates -/

/--
When the stored aggregates have the contents of their source views, the list and the summary are
the same whether they are read from the stored aggregates or from the findings, for every sort key
that the stored aggregate serves, every direction and every page, and a snapshot has the totals of
the summary and its counters for every severity.
-/
theorem read_paths_agree (loc : Collation) (db : AnalyticsDatabase)
    (hexact : db.toStore.Exact loc.toLocale) :
    (∀ query, list loc true query db.toAnalytics = list loc false query db.toAnalytics) ∧
      summary loc true db.toAnalytics = summary loc false db.toAnalytics ∧
      ∀ rollupEnabled,
        (captureSnapshot loc db.toAnalytics).hostsTotal =
            (summary loc rollupEnabled db.toAnalytics).hostsTotal ∧
          (captureSnapshot loc db.toAnalytics).totals =
            (summary loc rollupEnabled db.toAnalytics).totals ∧
          ∀ severity, (captureSnapshot loc db.toAnalytics).countsOf severity =
            (summary loc rollupEnabled db.toAnalytics).countsOf severity := by
  have hconstraints := db.constraints
  have hsummary : summary loc true db.toAnalytics = summary loc false db.toAnalytics := by
    unfold summary
    rw [if_pos rfl, if_neg (by simp), rollupSummaryRows_eq_liveSummaryRows hconstraints loc hexact]
  refine ⟨fun query => ?_, hsummary, fun rollupEnabled => ?_⟩
  · unfold list
    simp only [if_true, Bool.false_eq_true, if_false, rollupRows_eq_liveRows hconstraints loc hexact,
      length_rollup_eq_liveTotal hconstraints hexact]
  · have hlive : summary loc rollupEnabled db.toAnalytics =
        summary loc false db.toAnalytics := by
      cases rollupEnabled with
      | true => exact hsummary
      | false => rfl
    obtain ⟨groupOf, cardOf, hplaced⟩ := hconstraints.placed
    have hcounted := hplaced.snapshotFindings_eq loc.toLocale
    rw [hlive]
    refine ⟨hostsTotal_captureSnapshot loc hconstraints, ?_, fun severity => ?_⟩
    · exact congrArg (totalCounts loc.toLocale) hcounted
    · rw [countsOf_captureSnapshot, countsOf_liveSummary, hcounted]

/-! ## One database -/

/-- Texts without case mapping. -/
def asciiCollation : Collation where
  toLocale := plainLocale
  le_total := Passports.plainLocale_le_total
  le_trans := Passports.plainLocale_le_trans
  le_antisymm := Passports.plainLocale_le_antisymm

/-- Two findings of one host, one of them with a high severity. -/
def oneHost : Analytics where
  groups :=
    [{ id := 1, assetId := "h", sourceType := "software", collectionType := "c", collectionId := "c"
       name := some "openssl", severity := none, vulnerabilityCount := 2, cvssScore := none
       groupOrder := 0, truncated := false, groupJson := .obj [] }]
  findings :=
    [{ id := 1, assetId := "h", groupId := 1, vulnerabilityInstanceId := some "i1"
       vulnerabilityId := none, objectId := none, cveName := some "C1", name := none
       severity := some "high", cvssScore := none, descriptionKey := none
       vulnerabilityJson := .obj [], selector := some "cve:C1" },
      { id := 2, assetId := "h", groupId := 1, vulnerabilityInstanceId := some "i2"
        vulnerabilityId := none, objectId := none, cveName := some "C2", name := none
        severity := none, cvssScore := none, descriptionKey := none
        vulnerabilityJson := .obj [], selector := some "cve:C2" }]
  rollup :=
    [{ selector := some "cve:C2", vulnerabilityId := none, cve := some "C2", name := none
       severityRank := 5, cvssScore := none, affectedHosts := 1, findings := 1
       affectedObjects := 1, components := some ["openssl"], sources := ["software"]
       dockerContainers := none, dockerImages := none, severityRanks := [5]
       cves := some ["C2"] },
      { selector := some "cve:C1", vulnerabilityId := none, cve := some "C1", name := none
        severityRank := 2, cvssScore := none, affectedHosts := 1, findings := 1
        affectedObjects := 1, components := some ["openssl"], sources := ["software"]
        dockerContainers := none, dockerImages := none, severityRanks := [2]
        cves := some ["C1"] }]
  hostRollup :=
    [{ assetId := "h", findings := 2, uniqueVulnerabilities := 2, highRiskVulnerabilities := 1
       severityRank := 2, cvssScore := none, sources := ["software"], findingsCritical := 0
       findingsHigh := 1, findingsMedium := 0, findingsLow := 0, findingsUnknown := 1 }]
  cards := [{ assetId := "h", lastSeen := "2026-01-01" }]
  passports := []
  links := []

/-- The database of this host. -/
def oneHostDatabase : AnalyticsDatabase where
  toAnalytics := oneHost
  constraints :=
    { store := by decide +kernel
      cardIds := by decide
      groupCards := by decide
      findingCards := by decide
      passportIds := by decide
      linkKeys := by decide
      linkFindings := nofun
      linkPassports := nofun
      rollupKeys := by decide
      rollupKeyed := by decide
      hostRollupKeys := by decide }

/-- Its summary and its list do not depend on the way in which they are read. -/
theorem read_paths_agree_oneHost :
    (∀ query, list asciiCollation true query oneHost = list asciiCollation false query oneHost) ∧
      summary asciiCollation true oneHost = summary asciiCollation false oneHost :=
  have hagree := read_paths_agree asciiCollation oneHostDatabase (by decide +kernel)
  ⟨hagree.1, hagree.2.1⟩

end Findings
end MpvmApp
