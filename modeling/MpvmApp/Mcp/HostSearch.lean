import Mathlib.Data.Prod.Lex
import Mathlib.Data.Rat.Defs
import Mathlib.Data.String.Basic
import Mathlib.Order.OrderDual
import Mathlib.Algebra.Order.Ring.Unbundled.Rat
import MpvmApp.Lib.CharTables
import MpvmApp.Lib.KeyedMerge
import MpvmApp.Lib.Sorted
import MpvmApp.Lib.Table

/-!
# Hosts of a vulnerability

An assistant asks which hosts have a vulnerability.  The server lists the vulnerabilities whose
texts contain the query, keeps those that are exactly the query, reads the hosts of each of them in
pages and merges the rows of a host.

Main definitions:

- `Content`: the data of the application, as its endpoints answer.
- `searchHosts`: the search behind `find_hosts_by_vulnerability`.
- `HostsExact`: the hosts are the affected ones, each once, with the values of its rows.

Main results:

- Theorem `collectHosts_eq`: the rows of a selector, up to a limit.
- Theorem `mergedHosts_spec`: a merged host is made of its rows.
- Theorem `hostsExact_iff`: when the hosts of an exact answer are exact.
-/

namespace MpvmApp
namespace Mcp

open Sql

/-! ## Rows -/

/-- A vulnerability of the list; its selector is made of cleaned texts. -/
structure VulnerabilityRow where
  selector : String
  vulnerabilityId : Option String
  cve : Option String
  name : Option String
  clean : strip selector = selector ∧ selector ≠ ""

/-- A host of a vulnerability; the ids of cards are cleaned. -/
structure HostRow where
  assetId : String
  displayName : Option String
  severity : Option String
  cvssScore : Option Rat
  sources : List String
  lastSeen : Option String
  clean : strip assetId = assetId ∧ assetId ≠ ""

/-- `_text`. -/
def textOf (value : Option String) : String :=
  (value.map strip).getD ""

section Texts

variable (tables : CharTables)

/-- `str.lower`. -/
def lowerText (text : String) : String :=
  String.ofList (tables.lowerText text.toList)

/-- `severity_rank`. -/
def severityRank (severity : Option String) : Nat :=
  let text := lowerText tables (textOf severity)
  if text = "critical" then 0
  else if text = "high" then 1
  else if text = "medium" then 2
  else if text = "low" then 3
  else 4

/-- The tokens between commas, semicolons and white space. -/
def tokens (text : String) : List String :=
  ((text.toList.splitOnP fun c => c == ',' || c == ';' || isSpace c).map String.ofList).filter
    fun token => decide (token ≠ "")

/-- The texts by which a row is found exactly. -/
def candidates (row : VulnerabilityRow) : List String :=
  [lowerText tables (textOf row.vulnerabilityId), lowerText tables (textOf row.name)] ++
    tokens (lowerText tables (textOf row.cve))

/-- What is searched for. -/
def needle (query : String) : String :=
  lowerText tables (strip query)

/-- The id, the name or a CVE of the vulnerability equals the query; a missing text is empty. -/
def Named (row : VulnerabilityRow) (query : String) : Prop :=
  lowerText tables (textOf row.vulnerabilityId) = needle tables query ∨
    lowerText tables (textOf row.name) = needle tables query ∨
    needle tables query ∈ tokens (lowerText tables (textOf row.cve))

instance (row : VulnerabilityRow) (query : String) : Decidable (Named tables row query) :=
  inferInstanceAs (Decidable (_ ∨ _))

/-- How the vulnerabilities match the query. -/
inductive MatchKind where
  | none
  | exact
  | partialMatch
deriving DecidableEq, Repr

/-- `match_rows`. -/
def matchRows (rows : List VulnerabilityRow) (query : String) :
    List VulnerabilityRow × MatchKind :=
  if rows.isEmpty then ([], .none)
  else
    let found := rows.filter fun row => decide (needle tables query ∈ candidates tables row)
    if found.isEmpty then (rows, .partialMatch) else (found, .exact)

theorem mem_candidates_iff (row : VulnerabilityRow) (query : String) :
    needle tables query ∈ candidates tables row ↔ Named tables row query := by
  unfold candidates Named
  rw [List.mem_append, List.mem_cons, List.mem_singleton, or_assoc]
  exact or_congr eq_comm (or_congr eq_comm Iff.rfl)

end Texts

/-! ## The endpoints -/

/--
The data of the application under the filters of a search: the vulnerabilities in the order of the
list, the hosts of each selector in their order, and the vulnerabilities that the list finds for a
lowered query.  The filter of the list is a substring match without regard to case, so it finds
what is exactly the query.
-/
structure Content (tables : CharTables) where
  vulnerabilities : List VulnerabilityRow
  hosts : String → List HostRow
  listed : String → VulnerabilityRow → Bool
  finds : ∀ query, ∀ row ∈ vulnerabilities,
    Named tables row query → listed (needle tables query) row = true

/-- `PAGE_SIZE`. -/
def pageSize : Nat :=
  500

/-- `MAX_SELECTORS`. -/
def maxSelectors : Nat :=
  10

variable {tables : CharTables}

/-- The vulnerabilities that the list finds. -/
def Content.found (content : Content tables) (query : String) : List VulnerabilityRow :=
  content.vulnerabilities.filter (content.listed (needle tables query))

/-- A page of `/api/vulnerabilities`, with the total. -/
def Content.vulnerabilityPage (content : Content tables) (query : String) :
    List VulnerabilityRow × Nat :=
  ((content.found query).take pageSize, (content.found query).length)

/-- A page of `/api/vulnerabilities/hosts`, with the total. -/
def Content.hostPage (content : Content tables) (selector : String) (offset : Nat) :
    List HostRow × Nat :=
  (((content.hosts selector).drop offset).take pageSize, (content.hosts selector).length)

/-! ## The search -/

/-- `resolve_vulnerabilities`. -/
def resolveVulnerabilities (content : Content tables) (query : String) :
    List VulnerabilityRow × MatchKind × Nat :=
  let page := content.vulnerabilityPage query
  let matched := matchRows tables page.1 query
  (matched.1, matched.2, if page.2 = 0 then page.1.length else page.2)

/-- The loop of `collect_hosts`; `MAX_HOSTS_PER_SELECTOR` leaves it four requests. -/
def collectPages (content : Content tables) (selector : String) :
    Nat → Nat → List HostRow → Nat → List HostRow × Nat
  | 0, _, hosts, total => (hosts, total)
  | left + 1, offset, hosts, _ =>
      let page := content.hostPage selector offset
      if page.1.isEmpty || decide (page.2 ≤ offset + pageSize) then (hosts ++ page.1, page.2)
      else collectPages content selector left (offset + pageSize) (hosts ++ page.1) page.2

/-- `collect_hosts`: the rows, and whether there are more. -/
def collectHosts (content : Content tables) (selector : String) : List HostRow × Bool :=
  let collected := collectPages content selector 4 0 [] 0
  (collected.1, decide (collected.1.length < collected.2))

/-- A host of the answer; a list of sources that is empty is left out. -/
structure Host where
  assetId : String
  displayName : Option String
  severity : Option String
  cvssScore : Option Rat
  sources : Option (List String)
  lastSeen : Option String
  stale : Option Bool

/-- `host_staleness` of a text, at some time: a text that is no time is neither. -/
abbrev Staleness := String → Option Bool

/-- `slim_host`. -/
def slimHost (stale : Staleness) (row : HostRow) : Host where
  assetId := row.assetId
  displayName := nullIfEmpty row.displayName
  severity := nullIfEmpty row.severity
  cvssScore := row.cvssScore
  sources := if row.sources.isEmpty then none else some row.sources
  lastSeen := nullIfEmpty row.lastSeen
  stale := stale (textOf row.lastSeen)

/-- The host after another of its rows, or none for a `KeyError`. -/
def addRow (tables : CharTables) (stale : Staleness) (entry : Option Host) (row : HostRow) :
    Option Host :=
  match entry with
  | none => some (slimHost stale row)
  | some host =>
      host.sources.map fun sources =>
        { host with
          sources := some (sortOn id (fromKeys (sources ++ row.sources)))
          severity :=
            if severityRank tables row.severity < severityRank tables host.severity then
              row.severity
            else host.severity }

/-- The key of the order of the hosts. -/
def hostOrder (tables : CharTables) (host : Host) : Nat ×ₗ Ratᵒᵈ ×ₗ String :=
  toLex (severityRank tables host.severity,
    toLex (OrderDual.toDual (host.cvssScore.getD 0), lowerText tables (textOf host.displayName)))

/-- `_merge_hosts`, or none for a `KeyError`. -/
def mergeHosts (tables : CharTables) (stale : Staleness)
    (perSelector : List (String × List HostRow)) : Option (List Host) :=
  let rows := (perSelector.flatMap Prod.snd).filter fun row =>
    decide (textOf (some row.assetId) ≠ "")
  (mergeRows (fun row => textOf (some row.assetId)) (addRow tables stale) Dict.empty
    rows).map fun merged => sortOn (hostOrder tables) (merged.items.map Prod.snd)

/-- What a search finds. -/
structure Found where
  matched : List VulnerabilityRow
  matchKind : MatchKind
  hosts : List Host
  truncated : Bool

/-- `_search`, or none for a `KeyError`. -/
def searchHosts (stale : Staleness) (content : Content tables) (query : String) : Option Found :=
  let resolved := resolveVulnerabilities content query
  let matched := resolved.1.take maxSelectors
  let selectors := (matched.map fun row => textOf (some row.selector)).filter fun selector =>
    decide (selector ≠ "")
  let fetched := selectors.map fun selector => (selector, collectHosts content selector)
  (mergeHosts tables stale (fetched.map fun answer => (answer.1, answer.2.1))).map fun hosts =>
    { matched := matched
      matchKind := resolved.2.1
      hosts := hosts
      truncated :=
        decide (maxSelectors < resolved.1.length) || decide (pageSize < resolved.2.2) ||
          fetched.any fun answer => answer.2.2 }

/-! ## Rows of a selector -/

/-- The loop reads the rows up to the last request that it is left. -/
theorem collectPages_spec (content : Content tables) (selector : String) (left offset total : Nat)
    {hosts : List HostRow} (h : hosts = (content.hosts selector).take offset) :
    (collectPages content selector left offset hosts total).1 =
        (content.hosts selector).take (offset + pageSize * left) ∧
      (left ≠ 0 → (collectPages content selector left offset hosts total).2 =
        (content.hosts selector).length) := by
  induction left generalizing offset total hosts with
  | zero => exact ⟨h, fun hne => absurd rfl hne⟩
  | succ left ih =>
      have hpage : hosts ++ (content.hostPage selector offset).1 =
          (content.hosts selector).take (offset + pageSize) := by
        rw [h, List.take_add]
        rfl
      have hall : offset + pageSize * (left + 1) = offset + pageSize + pageSize * left := by
        rw [Nat.mul_succ]
        omega
      rw [collectPages]
      split
      · rename_i hlast
        refine ⟨?_, fun _ => rfl⟩
        have hle : (content.hosts selector).length ≤ offset + pageSize := by
          rcases Bool.or_eq_true_iff.1 hlast with hempty | htotal
          · have hnil : ((content.hosts selector).drop offset).take pageSize = [] :=
              List.isEmpty_iff.1 hempty
            have hlength := congrArg List.length hnil
            rw [List.length_take, List.length_drop, List.length_nil] at hlength
            unfold pageSize at hlength ⊢
            omega
          · exact of_decide_eq_true htotal
        rw [hpage, List.take_of_length_le hle, List.take_of_length_le (by omega)]
      · have hrest := ih (offset + pageSize) (content.hostPage selector offset).2 hpage
        rw [hall]
        refine ⟨hrest.1, fun _ => ?_⟩
        cases left with
        | zero => rfl
        | succ left => exact hrest.2 (Nat.succ_ne_zero left)

/-- `MAX_HOSTS_PER_SELECTOR`. -/
def maxHostsPerSelector : Nat :=
  2000

/-- The rows of a selector, up to a limit. -/
theorem collectHosts_eq (content : Content tables) (selector : String) :
    collectHosts content selector =
      ((content.hosts selector).take maxHostsPerSelector,
        decide (maxHostsPerSelector < (content.hosts selector).length)) := by
  obtain ⟨hrows, htotal⟩ := collectPages_spec content selector 4 0 0
    (List.take_zero (l := content.hosts selector)).symm
  have hlimit : 0 + pageSize * 4 = maxHostsPerSelector := rfl
  unfold collectHosts
  dsimp only
  rw [hrows, htotal (by decide), hlimit, List.length_take]
  congr 1
  rw [decide_eq_decide]
  omega

/-! ## Merged hosts -/

section Merge

variable {stale : Staleness}

theorem textOf_nullIfEmpty (text : Option String) :
    textOf (nullIfEmpty text) = textOf text := by
  cases text with
  | none => rfl
  | some text =>
      by_cases hempty : text = ""
      · rw [hempty]
        decide +kernel
      · unfold nullIfEmpty
        simp [Option.filter, hempty]

theorem severityRank_congr {severity severity' : Option String}
    (h : textOf severity = textOf severity') :
    severityRank tables severity = severityRank tables severity' := by
  unfold severityRank
  rw [h]

/-- A host is made of some of its rows, the first of them in front. -/
structure MadeOf (tables : CharTables) (stale : Staleness) (first : HostRow)
    (rows : List HostRow) (host : Host) : Prop where
  assetId : host.assetId = first.assetId
  cvssScore : host.cvssScore = first.cvssScore
  aged : host.stale = stale (textOf host.lastSeen)
  least : ∀ row ∈ rows, severityRank tables host.severity ≤ severityRank tables row.severity
  attained : ∃ row ∈ rows, textOf row.severity = textOf host.severity
  sources : ∀ source, source ∈ host.sources.getD [] ↔ ∃ row ∈ rows, source ∈ row.sources

theorem madeOf_slimHost (row : HostRow) :
    MadeOf tables stale row [row] (slimHost stale row) where
  assetId := rfl
  cvssScore := rfl
  aged := congrArg stale (textOf_nullIfEmpty row.lastSeen).symm
  least := by
    intro other hother
    rw [List.mem_singleton.1 hother]
    exact (severityRank_congr (textOf_nullIfEmpty row.severity)).le
  attained := ⟨row, List.mem_singleton_self row, (textOf_nullIfEmpty row.severity).symm⟩
  sources := by
    intro source
    have hsources : (slimHost stale row).sources.getD [] = row.sources := by
      unfold slimHost
      dsimp only
      split
      · rename_i hempty
        rw [List.isEmpty_iff.1 hempty]
        rfl
      · rfl
    rw [hsources]
    simp

/-- One more row. -/
theorem MadeOf.addRow {first : HostRow} {rows : List HostRow} {host host' : Host}
    (h : MadeOf tables stale first rows host) {row : HostRow}
    (hadd : Mcp.addRow tables stale (some host) row = some host') :
    MadeOf tables stale first (rows ++ [row]) host' := by
  obtain ⟨sources, hsources, rfl⟩ := Option.map_eq_some_iff.1 hadd
  constructor
  · exact h.assetId
  · exact h.cvssScore
  · exact h.aged
  · intro other hother
    have hmem := List.mem_append.1 hother
    rw [List.mem_singleton] at hmem
    dsimp only
    split
    · rename_i hless
      rcases hmem with hold | rfl
      · exact hless.le.trans (h.least other hold)
      · exact Nat.le_refl _
    · rename_i hnot
      rcases hmem with hold | rfl
      · exact h.least other hold
      · exact Nat.le_of_not_lt hnot
  · dsimp only
    split
    · exact ⟨row, List.mem_append_right _ (List.mem_singleton_self row), rfl⟩
    · obtain ⟨other, hother, htext⟩ := h.attained
      exact ⟨other, List.mem_append_left _ hother, htext⟩
  · intro source
    have hold := h.sources source
    rw [hsources, Option.getD_some] at hold
    dsimp only
    rw [Option.getD_some, mem_sortOn, mem_fromKeys, List.mem_append, hold]
    simp only [List.mem_append, List.mem_singleton, or_and_right, exists_or, exists_eq_left]

theorem madeOf_mergeEntry {first : HostRow} {rows rest : List HostRow} {host : Host}
    {entry : Option Host} (h : MadeOf tables stale first rows host)
    (hentry : mergeEntry (Mcp.addRow tables stale) (some host) rest = some entry) :
    ∃ host', entry = some host' ∧ MadeOf tables stale first (rows ++ rest) host' := by
  induction rest generalizing rows host with
  | nil =>
      cases hentry
      exact ⟨host, rfl, by rw [List.append_nil]; exact h⟩
  | cons row rest ih =>
      rw [mergeEntry_cons] at hentry
      obtain ⟨next, hnext, hrest⟩ := Option.bind_eq_some_iff.1 hentry
      obtain ⟨host', rfl, hmade⟩ := ih (h.addRow hnext) hrest
      exact ⟨host', rfl, by rw [List.append_assoc] at hmade; exact hmade⟩

/-- The rows of an asset. -/
def rowsOf (rows : List HostRow) (assetId : String) : List HostRow :=
  rows.filter fun row => decide (row.assetId = assetId)

theorem textOf_assetId (row : HostRow) :
    textOf (some row.assetId) = row.assetId :=
  row.clean.1

theorem filter_assetId (rows : List HostRow) :
    (rows.filter fun row => decide (textOf (some row.assetId) ≠ "")) = rows := by
  rw [List.filter_eq_self]
  intro row _
  rw [textOf_assetId]
  exact decide_eq_true row.clean.2

theorem filter_textOf (rows : List HostRow) (assetId : String) :
    (rows.filter fun row => decide (textOf (some row.assetId) = assetId)) =
      rowsOf rows assetId := by
  unfold rowsOf
  refine List.filter_congr fun row _ => ?_
  rw [textOf_assetId]

theorem entry_spec {rows : List HostRow} {merged : Dict String Host}
    (h : mergeRows (fun row => textOf (some row.assetId)) (Mcp.addRow tables stale)
      Dict.empty rows = some merged) (assetId : String) :
    (merged.get? assetId = none ∧ rowsOf rows assetId = []) ∨
      ∃ host first, merged.get? assetId = some host ∧
        (rowsOf rows assetId).head? = some first ∧
        MadeOf tables stale first (rowsOf rows assetId) host := by
  have hentry := get?_mergeRows h assetId
  rw [filter_textOf, Dict.get?_empty] at hentry
  cases hrows : rowsOf rows assetId with
  | nil =>
      rw [hrows, mergeEntry_nil] at hentry
      exact Or.inl ⟨(Option.some.inj hentry).symm, rfl⟩
  | cons first rest =>
      rw [hrows, mergeEntry_cons] at hentry
      obtain ⟨host, hhost, hmade⟩ := madeOf_mergeEntry (madeOf_slimHost first) hentry
      exact Or.inr ⟨host, first, hhost, rfl, hmade⟩

/-- A merged host is made of its rows. -/
theorem mergedHosts_spec {perSelector : List (String × List HostRow)} {hosts : List Host}
    (h : mergeHosts tables stale perSelector = some hosts) :
    (hosts.map Host.assetId).Nodup ∧
      (∀ assetId, assetId ∈ hosts.map Host.assetId ↔
        ∃ row ∈ perSelector.flatMap Prod.snd, row.assetId = assetId) ∧
      ∀ host ∈ hosts, ∃ first,
        (rowsOf (perSelector.flatMap Prod.snd) host.assetId).head? = some first ∧
          MadeOf tables stale first (rowsOf (perSelector.flatMap Prod.snd) host.assetId) host := by
  unfold mergeHosts at h
  dsimp only at h
  rw [filter_assetId] at h
  generalize perSelector.flatMap Prod.snd = rows at h ⊢
  obtain ⟨merged, hmerged, rfl⟩ := Option.map_eq_some_iff.1 h
  have hitem : ∀ item ∈ merged.items, ∃ first,
      (rowsOf rows item.1).head? = some first ∧
        MadeOf tables stale first (rowsOf rows item.1) item.2 ∧ item.2.assetId = item.1 := by
    intro item hmem
    have hget : merged.get? item.1 = some item.2 := Dict.mem_items_iff.1 hmem
    rcases entry_spec hmerged item.1 with ⟨hnone, _⟩ | ⟨host, first, hhost, hfirst, hmade⟩
    · rw [hnone] at hget
      cases hget
    · rw [hhost] at hget
      cases hget
      refine ⟨first, hfirst, hmade, hmade.assetId.trans ?_⟩
      exact of_decide_eq_true (List.mem_filter.1 (List.mem_of_mem_head? hfirst)).2
  have hkeys : (merged.items.map Prod.snd).map Host.assetId = merged.items.map Prod.fst := by
    rw [List.map_map]
    refine List.map_congr_left fun item hmem => ?_
    obtain ⟨_, _, _, hid⟩ := hitem item hmem
    exact hid
  have hperm := (perm_sortOn (hostOrder tables) (merged.items.map Prod.snd)).map
    Host.assetId
  rw [hkeys] at hperm
  refine ⟨hperm.nodup_iff.2 merged.nodup, fun assetId => ?_, fun host hhost => ?_⟩
  · rw [hperm.mem_iff]
    constructor
    · intro hmem
      obtain ⟨item, hitemmem, rfl⟩ := List.mem_map.1 hmem
      obtain ⟨first, hfirst, _⟩ := hitem item hitemmem
      obtain ⟨hrow, hid⟩ := List.mem_filter.1 (List.mem_of_mem_head? hfirst)
      exact ⟨first, hrow, of_decide_eq_true hid⟩
    · rintro ⟨row, hrow, rfl⟩
      rcases entry_spec hmerged row.assetId with ⟨_, hnil⟩ | ⟨host, _, hhost, _⟩
      · have hmem : row ∈ rowsOf rows row.assetId :=
          List.mem_filter.2 ⟨hrow, decide_eq_true rfl⟩
        rw [hnil] at hmem
        cases hmem
      · exact List.mem_map_of_mem (Dict.mem_items_iff.2 hhost)
  · obtain ⟨item, hmem, rfl⟩ := List.mem_map.1 (mem_sortOn.1 hhost)
    obtain ⟨first, hfirst, hmade, hid⟩ := hitem item hmem
    rw [hid]
    exact ⟨first, hfirst, hmade⟩

/-- The host without what the clock says. -/
def Host.unaged (host : Host) : Host :=
  { host with stale := none }

/-- A clock that says nothing. -/
def noClock : Staleness :=
  fun _ => none

theorem unaged_addRow (entry : Option Host) (row : HostRow) :
    (addRow tables stale entry row).map Host.unaged =
      addRow tables noClock (entry.map Host.unaged) row := by
  cases entry with
  | none => rfl
  | some host =>
      rw [Option.map_some]
      unfold addRow
      dsimp only
      rw [Option.map_map]
      rfl

theorem unaged_sortOn (merged : Dict String Host) :
    (sortOn (hostOrder tables) (merged.items.map Prod.snd)).map Host.unaged =
      sortOn (hostOrder tables) ((merged.mapValues Host.unaged).items.map Prod.snd) := by
  have hitems : (merged.mapValues Host.unaged).items.map Prod.snd =
      (merged.items.map Prod.snd).map Host.unaged := by
    unfold Dict.mapValues
    rw [List.map_map, List.map_map]
    exact List.map_congr_left fun _ _ => rfl
  rw [hitems, sortOn_map (hostOrder tables) Host.unaged]
  rfl

theorem unaged_mergeHosts (perSelector : List (String × List HostRow)) :
    (mergeHosts tables stale perSelector).map (List.map Host.unaged) =
      mergeHosts tables noClock perSelector := by
  have hempty : (Dict.empty : Dict String Host).mapValues Host.unaged = Dict.empty := rfl
  unfold mergeHosts
  dsimp only
  rw [Option.map_map, ← hempty, ← mergeRows_mapValues (@unaged_addRow tables stale),
    Option.map_map, hempty]
  exact Option.map_congr fun merged _ => unaged_sortOn merged

theorem sources_slimHost (row : HostRow) :
    (slimHost stale row).sources = none ↔ row.sources = [] := by
  unfold slimHost
  dsimp only
  rw [← List.isEmpty_iff]
  split <;> simp_all

theorem addRow_none (row : HostRow) :
    addRow tables stale none row = some (slimHost stale row) :=
  rfl

theorem isSome_mergeEntry (rows : List HostRow) {host : Host} (h : host.sources ≠ none) :
    (mergeEntry (addRow tables stale) (some host) rows).isSome = true := by
  induction rows generalizing host with
  | nil => rfl
  | cons row rows ih =>
      obtain ⟨sources, hsources⟩ := Option.ne_none_iff_exists'.1 h
      rw [mergeEntry_cons]
      unfold addRow
      dsimp only
      rw [hsources, Option.map_some, Option.bind_some]
      exact ih (Option.some_ne_none _)

/-- A host whose first row has no source cannot take a second one. -/
theorem mergeEntry_isSome_iff (rows : List HostRow) :
    (mergeEntry (addRow tables stale) none rows).isSome = true ↔
      ∀ first second rest, rows = first :: second :: rest → first.sources ≠ [] := by
  cases rows with
  | nil =>
      rw [mergeEntry_nil, Option.isSome_some]
      exact iff_of_true rfl fun _ _ _ h => nomatch h
  | cons first rows =>
      rw [mergeEntry_cons, addRow_none, Option.bind_some]
      cases rows with
      | nil =>
          rw [mergeEntry_nil, Option.isSome_some]
          exact iff_of_true rfl fun _ _ _ h => nomatch (List.cons.inj h).2
      | cons second rest =>
          constructor
          · intro hsome first' second' rest' heq hnil
            rw [← (List.cons.inj heq).1] at hnil
            rw [mergeEntry_cons] at hsome
            unfold addRow at hsome
            dsimp only at hsome
            rw [(sources_slimHost first).2 hnil, Option.map_none, Option.bind_none] at hsome
            exact absurd hsome Bool.false_ne_true
          · intro hne
            exact isSome_mergeEntry _ (mt (sources_slimHost first).1 (hne first second rest rfl))

theorem mergeHosts_isSome_iff {perSelector : List (String × List HostRow)} :
    (mergeHosts tables stale perSelector).isSome = true ↔
      ∀ assetId first second rest,
        rowsOf (perSelector.flatMap Prod.snd) assetId = first :: second :: rest →
          first.sources ≠ [] := by
  unfold mergeHosts
  dsimp only
  rw [Option.isSome_map, filter_assetId, mergeRows_isSome_iff]
  refine forall_congr' fun assetId => ?_
  rw [filter_textOf, Dict.get?_empty]
  exact mergeEntry_isSome_iff _

end Merge

/-! ## Searches that read everything -/

/-- The vulnerabilities that the query names, in the order of the list. -/
def Content.named (content : Content tables) (query : String) : List VulnerabilityRow :=
  content.vulnerabilities.filter fun row => decide (Named tables row query)

/-- The rows of their hosts, one vulnerability after another. -/
def Content.rows (content : Content tables) (query : String) : List HostRow :=
  (content.named query).flatMap fun row => content.hosts row.selector

/-- Everything that the search has to read is within its limits. -/
structure Complete (content : Content tables) (query : String) : Prop where
  listed : (content.found query).length ≤ pageSize
  named : content.named query ≠ []
  few : (content.named query).length ≤ maxSelectors
  read : ∀ row ∈ content.named query, (content.hosts row.selector).length ≤ maxHostsPerSelector

section Search

variable {stale : Staleness} {content : Content tables} {query : String}

theorem filter_found :
    ((content.found query).filter fun row =>
      decide (needle tables query ∈ candidates tables row)) = content.named query := by
  unfold Content.found Content.named
  rw [List.filter_filter]
  refine List.filter_congr fun row hrow => ?_
  rw [decide_eq_decide.2 (mem_candidates_iff tables row query)]
  by_cases hnamed : Named tables row query
  · rw [decide_eq_true hnamed, content.finds query row hrow hnamed]
    rfl
  · rw [decide_eq_false hnamed]
    rfl

theorem matchRows_eq_exact {rows : List VulnerabilityRow}
    (h : (rows.filter fun row => decide (needle tables query ∈ candidates tables row)) ≠ []) :
    matchRows tables rows query =
      (rows.filter fun row => decide (needle tables query ∈ candidates tables row), .exact) := by
  have hrows : rows ≠ [] := by
    rintro rfl
    exact h rfl
  unfold matchRows
  rw [if_neg (mt List.isEmpty_iff.1 hrows)]
  dsimp only
  rw [if_neg (mt List.isEmpty_iff.1 h)]

theorem ne_nil_of_matchRows {rows : List VulnerabilityRow}
    (h : (matchRows tables rows query).2 = .exact) :
    (rows.filter fun row => decide (needle tables query ∈ candidates tables row)) ≠ [] := by
  intro hnil
  unfold matchRows at h
  by_cases hrows : rows.isEmpty = true
  · rw [if_pos hrows] at h
    cases h
  · rw [if_neg hrows] at h
    dsimp only at h
    rw [hnil, if_pos List.isEmpty_nil] at h
    cases h

/-- A search that reads everything finds the hosts of what the query names. -/
theorem searchHosts_complete (h : Complete content query) :
    searchHosts stale content query =
      (mergeHosts tables stale
        ((content.named query).map fun row => (row.selector, content.hosts row.selector))).map
        fun hosts => ⟨content.named query, .exact, hosts, false⟩ := by
  have hpage : (content.found query).take pageSize = content.found query :=
    List.take_of_length_le h.listed
  have hnamed : matchRows tables (content.found query) query =
      (content.named query, .exact) := by
    rw [matchRows_eq_exact (by rw [filter_found]; exact h.named), filter_found]
  have htotal : (if (content.found query).length = 0 then (content.found query).length
      else (content.found query).length) = (content.found query).length := by
    split <;> rfl
  have hselectors : (((content.named query).map fun row => textOf (some row.selector)).filter
      fun selector => decide (selector ≠ "")) = (content.named query).map (·.selector) := by
    have hclean : ((content.named query).map fun row => textOf (some row.selector)) =
        (content.named query).map (·.selector) :=
      List.map_congr_left fun row _ => row.clean.1
    rw [hclean, List.filter_eq_self]
    intro selector hselector
    obtain ⟨row, _, rfl⟩ := List.mem_map.1 hselector
    exact decide_eq_true row.clean.2
  have hread : ∀ row ∈ content.named query, collectHosts content row.selector =
      (content.hosts row.selector, false) := by
    intro row hrow
    have hle := h.read row hrow
    rw [collectHosts_eq, List.take_of_length_le hle, decide_eq_false (Nat.not_lt.2 hle)]
  have hfetched : ((content.named query).map (·.selector)).map
      (fun selector => (selector, collectHosts content selector)) =
      (content.named query).map
        fun row => (row.selector, (content.hosts row.selector, false)) := by
    rw [List.map_map]
    refine List.map_congr_left fun row hrow => ?_
    rw [Function.comp_apply, hread row hrow]
  have hcut : ((content.named query).map
      fun row => (row.selector, (content.hosts row.selector, false))).any
        (fun answer => answer.2.2) = false := by
    rw [List.any_map, List.any_eq_false]
    exact fun _ _ => Bool.false_ne_true
  unfold searchHosts resolveVulnerabilities Content.vulnerabilityPage
  dsimp only
  rw [hpage, hnamed, htotal]
  dsimp only
  rw [List.take_of_length_le h.few, hselectors, hfetched, hcut, List.map_map,
    decide_eq_false (Nat.not_lt.2 h.few), decide_eq_false (Nat.not_lt.2 h.listed)]
  rfl

theorem searchHosts_congr {query' : String} (h : needle tables query = needle tables query') :
    searchHosts stale content query = searchHosts stale content query' := by
  have hmatch : ∀ rows, matchRows tables rows query = matchRows tables rows query' := by
    intro rows
    unfold matchRows
    rw [h]
  have hresolve : resolveVulnerabilities content query = resolveVulnerabilities content query' := by
    unfold resolveVulnerabilities Content.vulnerabilityPage Content.found
    dsimp only
    rw [h, hmatch]
  unfold searchHosts
  rw [hresolve]

theorem unaged_searchHosts :
    (searchHosts stale content query).map (fun found => found.hosts.map Host.unaged) =
      (searchHosts noClock content query).map Found.hosts := by
  unfold searchHosts
  dsimp only
  rw [Option.map_map, Option.map_map, ← @unaged_mergeHosts tables stale, Option.map_map]
  rfl

theorem aged_of_searchHosts {found : Found} (h : searchHosts stale content query = some found) :
    ∀ host ∈ found.hosts, host.stale = stale (textOf host.lastSeen) := by
  obtain ⟨hosts, hmerge, rfl⟩ := Option.map_eq_some_iff.1 h
  intro host hhost
  obtain ⟨_, _, hmade⟩ := (mergedHosts_spec hmerge).2.2 host hhost
  exact hmade.aged

/-- An exact answer that is not truncated comes from a search that read everything. -/
theorem complete_of_searchHosts {found : Found}
    (h : searchHosts stale content query = some found) (hexact : found.matchKind = .exact)
    (hwhole : found.truncated = false) :
    Complete content query := by
  obtain ⟨hosts, _, rfl⟩ := Option.map_eq_some_iff.1 h
  dsimp only at hexact hwhole
  rw [Bool.or_eq_false_iff, Bool.or_eq_false_iff, decide_eq_false_iff_not,
    decide_eq_false_iff_not] at hwhole
  obtain ⟨⟨hfew, htotal⟩, hread⟩ := hwhole
  have hlisted : (content.found query).length ≤ pageSize := by
    unfold resolveVulnerabilities Content.vulnerabilityPage at htotal
    dsimp only at htotal
    by_cases hzero : (content.found query).length = 0
    · rw [hzero]
      exact Nat.zero_le _
    · rw [if_neg hzero] at htotal
      exact Nat.not_lt.1 htotal
  have hpage : (content.vulnerabilityPage query).1 = content.found query :=
    List.take_of_length_le hlisted
  unfold resolveVulnerabilities at hexact hfew hread
  dsimp only at hexact hfew hread
  rw [hpage] at hexact hfew hread
  have hnamed := ne_nil_of_matchRows hexact
  rw [matchRows_eq_exact hnamed, filter_found] at hfew hread
  rw [filter_found] at hnamed
  refine ⟨hlisted, hnamed, Nat.not_lt.1 hfew, fun row hrow => ?_⟩
  rw [List.take_of_length_le (Nat.not_lt.1 hfew), List.any_map, List.any_eq_false] at hread
  have hselector : row.selector ∈ ((content.named query).map fun row =>
      textOf (some row.selector)).filter fun selector => decide (selector ≠ "") := by
    rw [List.mem_filter]
    exact ⟨List.mem_map.2 ⟨row, hrow, row.clean.1⟩, decide_eq_true row.clean.2⟩
  have hcut := hread row.selector hselector
  rw [Function.comp_apply, collectHosts_eq] at hcut
  exact Nat.not_lt.1 fun hlt => hcut (decide_eq_true hlt)

end Search

/-! ## Exact hosts -/

/-- A row of an asset under a vulnerability that the query names. -/
def Affected (content : Content tables) (query assetId : String) (row : HostRow) : Prop :=
  row.assetId = assetId ∧
    ∃ vulnerability ∈ content.vulnerabilities,
      Named tables vulnerability query ∧ row ∈ content.hosts vulnerability.selector

/-- A score is at most another; a row may have none. -/
def ScoreLe (score score' : Option Rat) : Prop :=
  ∀ value ∈ score, ∃ value' ∈ score', value ≤ value'

/--
The hosts are the affected ones, each once, with the most severe severity, the highest score and
the sources of its rows.
-/
structure HostsExact (content : Content tables) (query : String) (hosts : List Host) : Prop where
  once : (hosts.map Host.assetId).Nodup
  affected : ∀ assetId,
    assetId ∈ hosts.map Host.assetId ↔ ∃ row, Affected content query assetId row
  severest : ∀ host ∈ hosts,
    (∀ row, Affected content query host.assetId row →
      severityRank tables host.severity ≤ severityRank tables row.severity) ∧
    ∃ row, Affected content query host.assetId row ∧ textOf row.severity = textOf host.severity
  highest : ∀ host ∈ hosts,
    (∀ row, Affected content query host.assetId row → ScoreLe row.cvssScore host.cvssScore) ∧
    ∃ row, Affected content query host.assetId row ∧ row.cvssScore = host.cvssScore
  sources : ∀ host ∈ hosts, ∀ source,
    source ∈ host.sources.getD [] ↔
      ∃ row, Affected content query host.assetId row ∧ source ∈ row.sources

/-- The first row of an asset has its highest score. -/
def FirstHighest (content : Content tables) (query : String) : Prop :=
  ∀ assetId first, (rowsOf (content.rows query) assetId).head? = some first →
    ∀ row ∈ rowsOf (content.rows query) assetId, ScoreLe row.cvssScore first.cvssScore

/-- The first row of an asset with several rows has sources; without them the search fails. -/
def FirstSourced (content : Content tables) (query : String) : Prop :=
  ∀ assetId first second rest,
    rowsOf (content.rows query) assetId = first :: second :: rest → first.sources ≠ []

section Exact

variable {stale : Staleness} {content : Content tables} {query : String}

theorem mem_rowsOf_iff {assetId : String} {row : HostRow} :
    row ∈ rowsOf (content.rows query) assetId ↔ Affected content query assetId row := by
  unfold rowsOf Content.rows Content.named Affected
  rw [List.mem_filter, decide_eq_true_eq, and_comm, List.mem_flatMap]
  simp only [List.mem_filter, decide_eq_true_eq, and_assoc]

theorem flatMap_named :
    ((content.named query).map fun row => (row.selector, content.hosts row.selector)).flatMap
      Prod.snd = content.rows query := by
  unfold Content.rows
  rw [List.flatMap_map]

theorem searchHosts_isSome_iff (h : Complete content query) :
    (searchHosts stale content query).isSome = true ↔ FirstSourced content query := by
  rw [searchHosts_complete h, Option.isSome_map, mergeHosts_isSome_iff, flatMap_named]
  rfl

/-- The hosts are exact as soon as the first rows have the highest scores. -/
theorem hostsExact_iff {found : Found} (h : searchHosts stale content query = some found)
    (hcomplete : Complete content query) :
    HostsExact content query found.hosts ↔ FirstHighest content query := by
  rw [searchHosts_complete hcomplete] at h
  obtain ⟨hosts, hmerge, rfl⟩ := Option.map_eq_some_iff.1 h
  obtain ⟨honce, hmem, hmade⟩ := mergedHosts_spec hmerge
  rw [flatMap_named] at hmem hmade
  have haffected : ∀ assetId, assetId ∈ hosts.map Host.assetId ↔
      ∃ row, Affected content query assetId row := by
    intro assetId
    rw [hmem]
    refine exists_congr fun row => ?_
    rw [← mem_rowsOf_iff, rowsOf, List.mem_filter, decide_eq_true_eq]
  constructor
  · intro hexact assetId first hfirst row hrow
    have hfirstmem := mem_rowsOf_iff.1 (List.mem_of_mem_head? hfirst)
    obtain ⟨host, hhost, hid⟩ := List.mem_map.1 ((haffected assetId).2 ⟨first, hfirstmem⟩)
    obtain ⟨first', hfirst', hhostmade⟩ := hmade host hhost
    rw [hid, hfirst] at hfirst'
    have hscore := (hexact.highest host hhost).1 row (by rw [hid]; exact mem_rowsOf_iff.1 hrow)
    rwa [hhostmade.cvssScore, ← Option.some.inj hfirst'] at hscore
  · intro hhighest
    refine ⟨honce, haffected, fun host hhost => ?_, fun host hhost => ?_, fun host hhost => ?_⟩
    · obtain ⟨first, _, hhostmade⟩ := hmade host hhost
      obtain ⟨row, hrow, htext⟩ := hhostmade.attained
      exact ⟨fun row hrow => hhostmade.least row (mem_rowsOf_iff.2 hrow), row,
        mem_rowsOf_iff.1 hrow, htext⟩
    · obtain ⟨first, hfirst, hhostmade⟩ := hmade host hhost
      rw [hhostmade.cvssScore]
      exact ⟨fun row hrow => hhighest _ first hfirst row (mem_rowsOf_iff.2 hrow), first,
        mem_rowsOf_iff.1 (List.mem_of_mem_head? hfirst), rfl⟩
    · intro source
      obtain ⟨first, _, hhostmade⟩ := hmade host hhost
      rw [hhostmade.sources source]
      exact exists_congr fun row => and_congr_left' mem_rowsOf_iff

theorem hostsExact_unaged {hosts : List Host} :
    HostsExact content query (hosts.map Host.unaged) ↔ HostsExact content query hosts := by
  have hids : (hosts.map Host.unaged).map Host.assetId = hosts.map Host.assetId := by
    rw [List.map_map]
    rfl
  constructor
  · intro h
    refine ⟨hids ▸ h.once, hids ▸ h.affected, fun host hhost => ?_, fun host hhost => ?_,
      fun host hhost => ?_⟩
    · exact h.severest host.unaged (List.mem_map_of_mem hhost)
    · exact h.highest host.unaged (List.mem_map_of_mem hhost)
    · exact h.sources host.unaged (List.mem_map_of_mem hhost)
  · intro h
    refine ⟨hids.symm ▸ h.once, hids.symm ▸ h.affected, ?_, ?_, ?_⟩
    · exact List.forall_mem_map.2 h.severest
    · exact List.forall_mem_map.2 h.highest
    · exact List.forall_mem_map.2 h.sources

end Exact

end Mcp
end MpvmApp
