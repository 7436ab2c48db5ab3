import Mathlib.Logic.Function.Basic
import MpvmApp.Exports.Removal
import MpvmApp.Lib.Dict

/-!
# Importing findings from CSV

An import upserts the asset of each row, deletes the previous findings of the assets that the file
names, stores a finding for each row and drops the assets that have none.  All of it is one
transaction; the row of the import run is updated after it.

Main definitions:

- `importRows`: the transaction.
- `importCsvText`: the import, with the statement that fails, if one does.
- `Replaces`: the findings of the named hosts are replaced, and no others.

Main results:

- Theorem `replaces_iff`: when an import replaces the findings of the named hosts.
- Theorem `importRows_again`: a second import of the same rows changes nothing.
- Theorem `import_csv_text_iff`: the same with the imports that fail.
-/

namespace MpvmApp
namespace Exports

open Sql

/-! ## Rows -/

/-- `str.casefold`. -/
def casefoldText (rt : Runtime) (text : String) : String :=
  String.ofList (text.toList.flatMap (casefoldChar rt))

/-- `normalize_row`. -/
def normalizeRow (rt : Runtime) (row : Row) : Dict String String :=
  row.foldl
    (fun normalized column =>
      normalized.set (stripBy (fun c => c == Char.ofNat 0xFEFF) (column.1.getD ""))
        ((cleanText (column.2.str rt)).getD ""))
    Dict.empty

/-- `any(row.values())`. -/
def hasValue (row : Dict String String) : Bool :=
  row.items.any fun item => decide (item.2 ≠ "")

/-- `first_value`. -/
def firstValue (row : Dict String String) (keys : List String) : Option String :=
  keys.findSome? fun key => cleanText (row.get? key)

/-- The columns by which a row names its host. -/
structure HostIdentity where
  ipAddress : Option String
  fqdn : Option String
  mpAssetId : Option String
deriving DecidableEq, Repr

/-- The identity of a row. -/
def hostIdentity (row : Dict String String) : HostIdentity where
  ipAddress := firstValue row ["Host.IpAddress", "IpAddress", "IP"]
  fqdn := firstValue row ["Host.Fqdn", "Fqdn", "HostName", "Hostname"]
  mpAssetId := firstValue row ["AssetId", "Host.@Id", "@Host", "HostId", "Id"]

/-- The key of the asset of a row, or none for a row that names no host. -/
def HostIdentity.assetKey (rt : Runtime) (host : HostIdentity) : Option String :=
  match host.ipAddress, host.fqdn, host.mpAssetId with
  | none, none, none => none
  | _, _, some mpAssetId => some mpAssetId
  | ipAddress, fqdn, none =>
      some (ipAddress.getD "" ++ "|" ++ casefoldText rt (fqdn.getD ""))

/-! ## Tables -/

/-- The columns of an asset besides its key. -/
structure AssetColumns where
  mpAssetId : Option String
  ipAddress : Option String
  fqdn : Option String
deriving DecidableEq, Repr

/-- The columns of a finding; the software is given by its name and its version. -/
structure Finding where
  assetKey : String
  software : Option (String × String)
  kind : String
  vulnerabilityName : Option String
  cve : Option String
  severity : Option String
  rawRow : Row
deriving DecidableEq, Repr

/-- A finding under its id. -/
structure StoredFinding where
  id : Nat
  finding : Finding
deriving DecidableEq, Repr

/--
The assets, by their unique key, and the findings; an asset is named by its key.  The ids of the
findings come from a sequence.
-/
structure ImportTables where
  assets : String → Option AssetColumns
  findings : List StoredFinding
  nextId : Nat
  fresh : ∀ stored ∈ findings, stored.id < nextId

/-- The findings of an asset. -/
def ImportTables.findingsOf (tables : ImportTables) (key : String) : List StoredFinding :=
  tables.findings.filter fun stored => decide (stored.finding.assetKey = key)

/-! ## The import -/

/-- A row that names a host, with the key of its asset. -/
structure NamedRow where
  raw : Row
  row : Dict String String
  key : String

/-- The identity of the row. -/
def NamedRow.host (named : NamedRow) : HostIdentity :=
  hostIdentity named.row

/-- The rows that have a value. -/
def rowsWithValue (rt : Runtime) (rows : List Row) : List (Row × Dict String String) :=
  (rows.map fun row => (row, normalizeRow rt row)).filter fun row => hasValue row.2

/-- The rows that name a host. -/
def namedRows (rt : Runtime) (rows : List Row) : List NamedRow :=
  (rowsWithValue rt rows).filterMap fun row =>
    ((hostIdentity row.2).assetKey rt).map fun key => { raw := row.1, row := row.2, key := key }

/-- `INSERT INTO assets ... ON CONFLICT(asset_key) DO UPDATE`. -/
def upsertAsset (assets : String → Option AssetColumns) (named : NamedRow) :
    String → Option AssetColumns :=
  let old := assets named.key
  Function.update assets named.key (some
    { mpAssetId := coalesce named.host.mpAssetId (old.bind AssetColumns.mpAssetId)
      ipAddress := coalesce named.host.ipAddress (old.bind AssetColumns.ipAddress)
      fqdn := coalesce named.host.fqdn (old.bind AssetColumns.fqdn) })

/-- What `resolve_assets_for_replacement` selects by the columns of an asset. -/
def selected (rt : Runtime) (loc : Sql.Locale) (named : List NamedRow) (columns : AssetColumns) :
    Bool :=
  let fqdns : List String := named.filterMap fun row => row.host.fqdn.map (casefoldText rt)
  let mpAssetIds : List String := named.filterMap fun row => row.host.mpAssetId
  let ips : List String := named.filterMap fun row => row.host.ipAddress
  columns.fqdn.any (fun fqdn => decide (loc.lower fqdn ∈ fqdns)) ||
    columns.mpAssetId.any (fun mpAssetId => decide (mpAssetId ∈ mpAssetIds)) ||
    -- decided once for the file
    (fqdns.isEmpty && mpAssetIds.isEmpty && columns.ipAddress.any fun ip => decide (ip ∈ ips))

/-- The software of a row. -/
def rowSoftware (row : Dict String String) : Option (String × String) :=
  (firstValue row ["SoftName", "Host.Softs.Name", "SoftwareName"]).map fun name =>
    (name, (firstValue row ["SoftVersion", "Host.Softs.Version", "SoftwareVersion"]).getD "")

/-- `row.get(key) or ""` is not empty. -/
def hasText (row : Dict String String) (key : String) : Bool :=
  decide ((row.get? key).getD "" ≠ "")

/-- The finding of a row. -/
def NamedRow.finding (named : NamedRow) : Finding where
  assetKey := named.key
  software := rowSoftware named.row
  kind :=
    if hasText named.row "OsVulner" || hasText named.row "Host.OsName" then "os" else "software"
  vulnerabilityName :=
    firstValue named.row ["SoftVulner", "OsVulner", "Vulnerability", "Vulner"]
  cve := cleanText (named.row.get? "CVE")
  severity :=
    cleanText (some
      (if hasText named.row "SeverityRating" then (named.row.get? "SeverityRating").getD ""
      else (named.row.get? "Severity").getD ""))
  rawRow := named.raw

/-- The findings of the rows, under new ids. -/
def newFindings (nextId : Nat) (named : List NamedRow) : List StoredFinding :=
  named.zipIdx.map fun row => { id := nextId + row.2, finding := row.1.finding }

/-- The keys of the assets whose findings are replaced. -/
def replaced (rt : Runtime) (loc : Sql.Locale) (named : List NamedRow)
    (assets : String → Option AssetColumns) (key : String) : Bool :=
  decide (key ∈ named.map NamedRow.key) || (assets key).any (selected rt loc named)

/-- The findings after the rows are stored. -/
def importFindings (rt : Runtime) (loc : Sql.Locale) (tables : ImportTables)
    (named : List NamedRow) : List StoredFinding :=
  (tables.findings.filter fun stored =>
      !replaced rt loc named (named.foldl upsertAsset tables.assets) stored.finding.assetKey) ++
    newFindings tables.nextId named

theorem mem_newFindings {nextId : Nat} {named : List NamedRow} {stored : StoredFinding}
    (h : stored ∈ newFindings nextId named) :
    nextId ≤ stored.id ∧ stored.id < nextId + named.length ∧
      ∃ row ∈ named, stored.finding = row.finding := by
  obtain ⟨⟨row, i⟩, hrow, rfl⟩ := List.mem_map.1 h
  obtain ⟨hle, hlt, hget⟩ := List.mem_zipIdx hrow
  refine ⟨Nat.le_add_right _ _, ?_, row, ?_, rfl⟩
  · show nextId + i < nextId + named.length
    omega
  · rw [hget]
    exact List.getElem_mem _

/-- The transaction of `import_csv_text`. -/
def importRows (rt : Runtime) (loc : Sql.Locale) (tables : ImportTables) (rows : List Row) :
    ImportTables where
  -- the orphans are dropped
  assets := fun key =>
    if (importFindings rt loc tables (namedRows rt rows)).any
        fun stored => decide (stored.finding.assetKey = key) then
      (namedRows rt rows).foldl upsertAsset tables.assets key
    else none
  findings := importFindings rt loc tables (namedRows rt rows)
  nextId := tables.nextId + (namedRows rt rows).length
  fresh := by
    intro stored hstored
    rcases List.mem_append.1 hstored with hkept | hnew
    · exact Nat.lt_of_lt_of_le (tables.fresh stored (List.mem_of_mem_filter hkept))
        (Nat.le_add_right _ _)
    · exact (mem_newFindings hnew).2.1

/-- The statement of an import that fails. -/
inductive Fault where
  | none
  | inTransaction
  | atFinish
deriving DecidableEq, Repr

/-- What an import returns. -/
structure ImportResult where
  rowCount : Nat
  assetCount : Nat
  findingCount : Nat
deriving DecidableEq, Repr

/-- `import_csv_text`: the tables after it, and its result unless it raises. -/
def importCsvText (rt : Runtime) (loc : Sql.Locale) (tables : ImportTables) (csvText : String)
    (fault : Fault) : ImportTables × Option ImportResult :=
  match csvDictReader rt csvText, fault with
  | .error _, _ => (tables, none)
  | .ok _, .inTransaction => (tables, none)
  | .ok rows, .atFinish => (importRows rt loc tables rows, none)
  | .ok rows, .none =>
      (importRows rt loc tables rows,
        some
          { rowCount := (rowsWithValue rt rows).length
            assetCount := (fromKeys ((namedRows rt rows).map NamedRow.key)).length
            findingCount := (namedRows rt rows).length })

/-! ## The assets of the rows -/

/-- The last value that the rows of an asset have for a column. -/
def lastValue (field : HostIdentity → Option String) (key : String) :
    List NamedRow → Option String
  | [] => none
  | row :: rows =>
      if row.key = key then coalesce (lastValue field key rows) (field row.host)
      else lastValue field key rows

/-- The columns of an asset after the rows. -/
def columnsAfter (named : List NamedRow) (key : String) (old : Option AssetColumns) :
    AssetColumns where
  mpAssetId :=
    coalesce (lastValue HostIdentity.mpAssetId key named) (old.bind AssetColumns.mpAssetId)
  ipAddress :=
    coalesce (lastValue HostIdentity.ipAddress key named) (old.bind AssetColumns.ipAddress)
  fqdn := coalesce (lastValue HostIdentity.fqdn key named) (old.bind AssetColumns.fqdn)

theorem lastValue_eq_none {field : HostIdentity → Option String} {key : String}
    {named : List NamedRow} (h : key ∉ named.map NamedRow.key) :
    lastValue field key named = none := by
  induction named with
  | nil => rfl
  | cons row named ih =>
      rw [List.map_cons, List.mem_cons, not_or] at h
      rw [lastValue, if_neg (Ne.symm h.1), ih h.2]

theorem coalesce_assoc {α : Type} (x y z : Option α) :
    coalesce (coalesce x y) z = coalesce x (coalesce y z) := by
  cases x <;> rfl

theorem upsertAsset_same (assets : String → Option AssetColumns) (row : NamedRow) :
    upsertAsset assets row row.key =
      some (columnsAfter [row] row.key (assets row.key)) := by
  unfold upsertAsset columnsAfter lastValue lastValue
  simp

theorem upsertAsset_other {assets : String → Option AssetColumns} {row : NamedRow} {key : String}
    (h : key ≠ row.key) : upsertAsset assets row key = assets key :=
  Function.update_of_ne h _ _

/-- The asset of a key after the rows. -/
theorem foldl_upsertAsset (named : List NamedRow) (assets : String → Option AssetColumns)
    (key : String) :
    named.foldl upsertAsset assets key =
      if key ∈ named.map NamedRow.key then some (columnsAfter named key (assets key))
      else assets key := by
  induction named generalizing assets with
  | nil => rfl
  | cons row named ih =>
      rw [List.foldl_cons, ih, List.map_cons]
      by_cases hkey : key = row.key
      · subst hkey
        rw [if_pos List.mem_cons_self, upsertAsset_same]
        split
        · simp [columnsAfter, lastValue, coalesce_assoc]
        · rename_i hnot
          simp [columnsAfter, lastValue, lastValue_eq_none hnot]
      · rw [upsertAsset_other hkey]
        have hlast : columnsAfter (row :: named) key (assets key) =
            columnsAfter named key (assets key) := by
          have hne : row.key ≠ key := Ne.symm hkey
          simp [columnsAfter, lastValue, hne]
        rw [hlast]
        simp [hkey]

theorem columnsAfter_again (named : List NamedRow) (key : String) (old : Option AssetColumns) :
    columnsAfter named key (some (columnsAfter named key old)) = columnsAfter named key old := by
  have htwice : ∀ x y : Option String, coalesce x (coalesce x y) = coalesce x y := by
    intro x y
    cases x <;> rfl
  simp [columnsAfter, htwice]

/-! ## Findings of an asset -/

section Findings

variable {rt : Runtime} {loc : Sql.Locale} {tables : ImportTables} {rows : List Row}

theorem replaced_of_notMem {named : List NamedRow} {assets : String → Option AssetColumns}
    {key : String} (h : key ∉ named.map NamedRow.key) :
    replaced rt loc named (named.foldl upsertAsset assets) key =
      (assets key).any (selected rt loc named) := by
  unfold replaced
  rw [foldl_upsertAsset, if_neg h, decide_eq_false h, Bool.false_or]

theorem replaced_of_mem {named : List NamedRow} {assets : String → Option AssetColumns}
    {key : String} (h : key ∈ named.map NamedRow.key) :
    replaced rt loc named assets key = true := by
  unfold replaced
  rw [decide_eq_true h, Bool.true_or]

/-- The findings of an asset after an import. -/
theorem findingsOf_importRows (key : String) :
    (importRows rt loc tables rows).findingsOf key =
      (if replaced rt loc (namedRows rt rows)
          ((namedRows rt rows).foldl upsertAsset tables.assets) key then []
        else tables.findingsOf key) ++
        (newFindings tables.nextId (namedRows rt rows)).filter
          fun stored => decide (stored.finding.assetKey = key) := by
  unfold ImportTables.findingsOf importRows importFindings
  dsimp only
  rw [List.filter_append, List.filter_filter]
  congr 1
  split
  · rename_i hreplaced
    rw [List.filter_eq_nil_iff]
    intro stored _ hboth
    rw [Bool.and_eq_true, decide_eq_true_eq] at hboth
    rw [hboth.1, hreplaced] at hboth
    exact absurd hboth.2 (by decide)
  · rename_i hkept
    refine List.filter_congr fun stored _ => ?_
    by_cases hkey : stored.finding.assetKey = key
    · rw [hkey]
      simp [hkept]
    · simp [hkey]

theorem newFindings_filter_eq_nil_iff {nextId : Nat} {named : List NamedRow} {key : String} :
    ((newFindings nextId named).filter fun stored => decide (stored.finding.assetKey = key)) = [] ↔
      key ∉ named.map NamedRow.key := by
  rw [List.filter_eq_nil_iff]
  constructor
  · intro h hkey
    obtain ⟨row, hrow, rfl⟩ := List.mem_map.1 hkey
    obtain ⟨i, hi, hget⟩ := List.getElem_of_mem hrow
    have hmem : (⟨nextId + i, row.finding⟩ : StoredFinding) ∈ newFindings nextId named := by
      refine List.mem_map.2 ⟨(row, i), ?_, rfl⟩
      rw [List.mem_zipIdx_iff_getElem?, List.getElem?_eq_getElem hi, hget]
    exact h _ hmem (decide_eq_true rfl)
  · intro h stored hstored hkey
    obtain ⟨_, _, row, hrow, hfinding⟩ := mem_newFindings hstored
    rw [decide_eq_true_eq, hfinding] at hkey
    exact h (hkey ▸ List.mem_map_of_mem hrow)

theorem assets_importRows_of_mem {key : String}
    (h : key ∈ (namedRows rt rows).map NamedRow.key) :
    (importRows rt loc tables rows).assets key =
      some (columnsAfter (namedRows rt rows) key (tables.assets key)) := by
  have hany : ((importFindings rt loc tables (namedRows rt rows)).any
      fun stored => decide (stored.finding.assetKey = key)) = true := by
    rw [List.any_eq_true]
    have hne : ((newFindings tables.nextId (namedRows rt rows)).filter
        fun stored => decide (stored.finding.assetKey = key)) ≠ [] :=
      fun hnil => newFindings_filter_eq_nil_iff.1 hnil h
    obtain ⟨stored, hstored⟩ := List.exists_mem_of_ne_nil _ hne
    obtain ⟨hmem, hkey⟩ := List.mem_filter.1 hstored
    exact ⟨stored, List.mem_append_right _ hmem, hkey⟩
  unfold importRows
  dsimp only
  rw [if_pos hany, foldl_upsertAsset, if_pos h]

theorem assets_importRows_of_notMem {key : String}
    (h : key ∉ (namedRows rt rows).map NamedRow.key) :
    (importRows rt loc tables rows).assets key =
      if (importFindings rt loc tables (namedRows rt rows)).any
          fun stored => decide (stored.finding.assetKey = key) then tables.assets key
      else none := by
  unfold importRows
  dsimp only
  rw [foldl_upsertAsset, if_neg h]

theorem notMem_newFindings {stored : StoredFinding} (h : stored ∈ tables.findings)
    (named : List NamedRow) : stored ∉ newFindings tables.nextId named := by
  intro hnew
  have hlt := tables.fresh stored h
  have hle := (mem_newFindings hnew).1
  omega

end Findings

/-! ## Identities -/

/-- The row has no identity besides its address. -/
def HostIdentity.weak (host : HostIdentity) : Prop :=
  host.mpAssetId = none ∧ host.fqdn = none

instance (host : HostIdentity) : Decidable host.weak :=
  inferInstanceAs (Decidable (_ ∧ _))

/--
The asset has the identity of the row: its MP asset id, its FQDN up to the case of the letters, or
its address when the row has neither.
-/
def Identifies (loc : Sql.Locale) (host : HostIdentity) (columns : AssetColumns) : Prop :=
  (∃ id, host.mpAssetId = some id ∧ columns.mpAssetId = some id) ∨
    (∃ fqdn own, host.fqdn = some fqdn ∧ columns.fqdn = some own ∧
      loc.lower own = loc.lower fqdn) ∨
    (host.weak ∧ ∃ ip, host.ipAddress = some ip ∧ columns.ipAddress = some ip)

/-- A row of the file identifies the asset. -/
def SomeRowIdentifies (rt : Runtime) (loc : Sql.Locale) (rows : List Row) (columns : AssetColumns) :
    Prop :=
  ∃ row ∈ rows, Identifies loc (hostIdentity (normalizeRow rt row)) columns

section Identities

variable {rt : Runtime} {loc : Sql.Locale} {rows : List Row} {columns : AssetColumns}

theorem hasValue_of_firstValue {row : Dict String String} {keys : List String} {value : String}
    (h : firstValue row keys = some value) : hasValue row = true := by
  obtain ⟨key, _, hclean⟩ := List.exists_of_findSome?_eq_some h
  cases hget : row.get? key with
  | none =>
      rw [hget] at hclean
      cases hclean
  | some text =>
      rw [hget] at hclean
      refine List.any_eq_true.2 ⟨(key, text), Dict.mem_of_get? hget, decide_eq_true ?_⟩
      rintro rfl
      have hnone : cleanText (some "") = none := by decide
      rw [hnone] at hclean
      cases hclean

theorem hasValue_hostIdentity {row : Dict String String}
    (h : (hostIdentity row).mpAssetId ≠ none ∨ (hostIdentity row).fqdn ≠ none ∨
      (hostIdentity row).ipAddress ≠ none) :
    hasValue row = true ∧ (hostIdentity row).assetKey rt ≠ none := by
  constructor
  · rcases h with h | h | h <;> obtain ⟨value, hvalue⟩ := Option.ne_none_iff_exists'.1 h <;>
      exact hasValue_of_firstValue hvalue
  · generalize hostIdentity row = host at h
    obtain ⟨ip, fqdn, mpAssetId⟩ := host
    cases ip <;> cases fqdn <;> cases mpAssetId <;> simp_all [HostIdentity.assetKey]

theorem Identifies.named {host : HostIdentity} (h : Identifies loc host columns) :
    host.mpAssetId ≠ none ∨ host.fqdn ≠ none ∨ host.ipAddress ≠ none := by
  rcases h with ⟨id, hid, _⟩ | ⟨fqdn, _, hfqdn, _⟩ | ⟨_, ip, hip, _⟩
  · exact Or.inl (by rw [hid]; exact Option.some_ne_none id)
  · exact Or.inr (Or.inl (by rw [hfqdn]; exact Option.some_ne_none fqdn))
  · exact Or.inr (Or.inr (by rw [hip]; exact Option.some_ne_none ip))

theorem mem_namedRows {named : NamedRow} :
    named ∈ namedRows rt rows ↔
      named.raw ∈ rows ∧ named.row = normalizeRow rt named.raw ∧ hasValue named.row = true ∧
        named.host.assetKey rt = some named.key := by
  unfold namedRows rowsWithValue
  rw [List.mem_filterMap]
  constructor
  · rintro ⟨pair, hpair, hnamed⟩
    obtain ⟨hmap, hvalue⟩ := List.mem_filter.1 hpair
    obtain ⟨raw, hraw, rfl⟩ := List.mem_map.1 hmap
    obtain ⟨key, hkey, rfl⟩ := Option.map_eq_some_iff.1 hnamed
    exact ⟨hraw, rfl, hvalue, hkey⟩
  · rintro ⟨hraw, hrow, hvalue, hkey⟩
    refine ⟨(named.raw, named.row), ?_, ?_⟩
    · exact List.mem_filter.2 ⟨List.mem_map.2 ⟨named.raw, hraw, by rw [hrow]⟩, hvalue⟩
    · rw [NamedRow.host] at hkey
      simp only [hkey, Option.map_some]

theorem someRowIdentifies_iff :
    SomeRowIdentifies rt loc rows columns ↔
      ∃ named ∈ namedRows rt rows, Identifies loc named.host columns := by
  constructor
  · rintro ⟨row, hrow, hidentifies⟩
    obtain ⟨hvalue, hkey⟩ :=
      @hasValue_hostIdentity rt (normalizeRow rt row) hidentifies.named
    obtain ⟨key, hkey⟩ := Option.ne_none_iff_exists'.1 hkey
    exact ⟨⟨row, normalizeRow rt row, key⟩, mem_namedRows.2 ⟨hrow, rfl, hvalue, hkey⟩,
      hidentifies⟩
  · rintro ⟨named, hnamed, hidentifies⟩
    obtain ⟨hraw, hrow, _⟩ := mem_namedRows.1 hnamed
    exact ⟨named.raw, hraw, by rw [← hrow]; exact hidentifies⟩

/-- What the columns select, row by row. -/
theorem selected_iff {named : List NamedRow} :
    selected rt loc named columns = true ↔
      (∃ row ∈ named, ∃ fqdn own, row.host.fqdn = some fqdn ∧ columns.fqdn = some own ∧
        loc.lower own = casefoldText rt fqdn) ∨
      (∃ row ∈ named, ∃ id, row.host.mpAssetId = some id ∧ columns.mpAssetId = some id) ∨
      ((∀ row ∈ named, row.host.weak) ∧
        ∃ row ∈ named, ∃ ip, row.host.ipAddress = some ip ∧ columns.ipAddress = some ip) := by
  unfold selected HostIdentity.weak
  simp only [Bool.or_eq_true, Bool.and_eq_true, Option.any_eq_true, decide_eq_true_eq,
    List.mem_filterMap, Option.map_eq_some_iff, List.isEmpty_iff, List.filterMap_eq_nil_iff,
    Option.map_eq_none_iff, or_assoc]
  refine or_congr ?_ (or_congr ?_ (and_congr ?_ ?_))
  · constructor
    · rintro ⟨own, hown, row, hrow, fqdn, hfqdn, heq⟩
      exact ⟨row, hrow, fqdn, own, hfqdn, hown, heq.symm⟩
    · rintro ⟨row, hrow, fqdn, own, hfqdn, hown, heq⟩
      exact ⟨own, hown, row, hrow, fqdn, hfqdn, heq.symm⟩
  · constructor
    · rintro ⟨id, hid, row, hrow, heq⟩
      exact ⟨row, hrow, id, heq, hid⟩
    · rintro ⟨row, hrow, id, heq, hid⟩
      exact ⟨id, hid, row, hrow, heq⟩
  · constructor
    · exact fun h row hrow => ⟨h.2 row hrow, h.1 row hrow⟩
    · exact fun h => ⟨fun row hrow => (h row hrow).2, fun row hrow => (h row hrow).1⟩
  · constructor
    · rintro ⟨ip, hip, row, hrow, heq⟩
      exact ⟨row, hrow, ip, heq, hip⟩
    · rintro ⟨row, hrow, ip, heq, hip⟩
      exact ⟨ip, hip, row, hrow, heq⟩

end Identities

/-! ## Replacement -/

/-- The assets and the findings of an import of the rows into the tables. -/
structure Replaces (rt : Runtime) (loc : Sql.Locale) (rows : List Row)
    (tables after : ImportTables) : Prop where
  /-- The previous findings of an asset that a row identifies are gone. -/
  gone : ∀ key columns, tables.assets key = some columns →
    SomeRowIdentifies rt loc rows columns →
      ∀ stored ∈ tables.findingsOf key, stored ∉ after.findings
  /-- The findings of an asset that no row identifies are unchanged. -/
  unchanged : ∀ key columns, tables.assets key = some columns →
    ¬ SomeRowIdentifies rt loc rows columns → after.findingsOf key = tables.findingsOf key
  /-- The findings of the named hosts are those of the rows. -/
  exact : ∀ key, (key ∈ (namedRows rt rows).map NamedRow.key ∨
      ∃ columns, tables.assets key = some columns ∧ SomeRowIdentifies rt loc rows columns) →
    after.findingsOf key =
      (newFindings tables.nextId (namedRows rt rows)).filter
        fun stored => decide (stored.finding.assetKey = key)

/-- A row of the file has the FQDN or the MP asset id by which the asset is selected. -/
def StrongSelects (rt : Runtime) (loc : Sql.Locale) (named : List NamedRow)
    (columns : AssetColumns) : Prop :=
  ∃ row ∈ named,
    (∃ fqdn own, row.host.fqdn = some fqdn ∧ columns.fqdn = some own ∧
      loc.lower own = casefoldText rt fqdn) ∨
    ∃ id, row.host.mpAssetId = some id ∧ columns.mpAssetId = some id

/-- The rows and the assets for which one decision a file is a decision a row. -/
structure DecidedByRow (rt : Runtime) (loc : Sql.Locale) (tables : ImportTables)
    (named : List NamedRow) : Prop where
  /-- A row known by its address stands in a file without other identities. -/
  address : ∀ key columns, tables.assets key = some columns → tables.findingsOf key ≠ [] →
    ∀ row ∈ named, row.host.weak → (∃ ip, row.host.ipAddress = some ip ∧
      columns.ipAddress = some ip) →
        (∀ other ∈ named, other.host.weak) ∨ key ∈ named.map NamedRow.key ∨
          StrongSelects rt loc named columns
  /-- An FQDN that the database takes for that of a row is folded like it. -/
  folded : ∀ key columns, tables.assets key = some columns → tables.findingsOf key ≠ [] →
    ∀ row ∈ named, ∀ fqdn own, row.host.fqdn = some fqdn → columns.fqdn = some own →
      loc.lower own = loc.lower fqdn →
        key ∈ named.map NamedRow.key ∨ StrongSelects rt loc named columns
  /-- An FQDN that is folded like that of a row is that of a row. -/
  lowered : ∀ key columns, tables.assets key = some columns → tables.findingsOf key ≠ [] →
    ∀ row ∈ named, ∀ fqdn own, row.host.fqdn = some fqdn → columns.fqdn = some own →
      loc.lower own = casefoldText rt fqdn → ∃ other ∈ named, Identifies loc other.host columns
  /-- A key of a row is that of an asset with the identity of a row. -/
  keys : ∀ key columns, tables.assets key = some columns → key ∈ named.map NamedRow.key →
    ∃ row ∈ named, Identifies loc row.host columns

section Replacement

variable {rt : Runtime} {loc : Sql.Locale} {tables : ImportTables} {rows : List Row}

theorem selected_iff_strong {named : List NamedRow} {columns : AssetColumns} :
    selected rt loc named columns = true ↔
      StrongSelects rt loc named columns ∨
      ((∀ row ∈ named, row.host.weak) ∧
        ∃ row ∈ named, ∃ ip, row.host.ipAddress = some ip ∧ columns.ipAddress = some ip) := by
  rw [selected_iff]
  constructor
  · rintro (⟨row, hrow, hfqdn⟩ | ⟨row, hrow, hid⟩ | hweak)
    · exact Or.inl ⟨row, hrow, Or.inl hfqdn⟩
    · exact Or.inl ⟨row, hrow, Or.inr hid⟩
    · exact Or.inr hweak
  · rintro (⟨row, hrow, hfqdn | hid⟩ | hweak)
    · exact Or.inl ⟨row, hrow, hfqdn⟩
    · exact Or.inr (Or.inl ⟨row, hrow, hid⟩)
    · exact Or.inr (Or.inr hweak)

/-- The identified assets with findings are those that the import selects. -/
theorem decidedByRow_iff {named : List NamedRow} :
    DecidedByRow rt loc tables named ↔
      (∀ key columns, tables.assets key = some columns → tables.findingsOf key ≠ [] →
        (∃ row ∈ named, Identifies loc row.host columns) →
          key ∈ named.map NamedRow.key ∨ selected rt loc named columns = true) ∧
      (∀ key columns, tables.assets key = some columns →
        (key ∈ named.map NamedRow.key ∨
          tables.findingsOf key ≠ [] ∧ selected rt loc named columns = true) →
            ∃ row ∈ named, Identifies loc row.host columns) := by
  constructor
  · intro h
    constructor
    · rintro key columns hasset hfindings ⟨row, hrow, hid | hfqdn | ⟨hweak, hip⟩⟩
      · exact Or.inr (selected_iff_strong.2 (Or.inl ⟨row, hrow, Or.inr hid⟩))
      · obtain ⟨fqdn, own, hfqdn, hown, heq⟩ := hfqdn
        rcases h.folded key columns hasset hfindings row hrow fqdn own hfqdn hown heq with
          hkey | hstrong
        · exact Or.inl hkey
        · exact Or.inr (selected_iff_strong.2 (Or.inl hstrong))
      · rcases h.address key columns hasset hfindings row hrow hweak hip with
          hall | hkey | hstrong
        · exact Or.inr (selected_iff_strong.2 (Or.inr ⟨hall, row, hrow, hip⟩))
        · exact Or.inl hkey
        · exact Or.inr (selected_iff_strong.2 (Or.inl hstrong))
    · rintro key columns hasset (hkey | ⟨hfindings, hselected⟩)
      · exact h.keys key columns hasset hkey
      · rcases selected_iff_strong.1 hselected with
          ⟨row, hrow, ⟨fqdn, own, hfqdn, hown, heq⟩ | hid⟩ | ⟨hall, row, hrow, hip⟩
        · exact h.lowered key columns hasset hfindings row hrow fqdn own hfqdn hown heq
        · exact ⟨row, hrow, Or.inl hid⟩
        · exact ⟨row, hrow, Or.inr (Or.inr ⟨hall row hrow, hip⟩)⟩
  · rintro ⟨hfound, honly⟩
    -- an asset that a row identifies is selected by its address or more
    have hselects : ∀ key columns, tables.assets key = some columns →
        tables.findingsOf key ≠ [] → (∃ row ∈ named, Identifies loc row.host columns) →
          (∀ other ∈ named, other.host.weak) ∨ key ∈ named.map NamedRow.key ∨
            StrongSelects rt loc named columns := by
      intro key columns hasset hfindings hidentifies
      rcases hfound key columns hasset hfindings hidentifies with hkey | hselected
      · exact Or.inr (Or.inl hkey)
      · rcases selected_iff_strong.1 hselected with hstrong | ⟨hall, _⟩
        · exact Or.inr (Or.inr hstrong)
        · exact Or.inl hall
    constructor
    · intro key columns hasset hfindings row hrow hweak hip
      exact hselects key columns hasset hfindings ⟨row, hrow, Or.inr (Or.inr ⟨hweak, hip⟩)⟩
    · intro key columns hasset hfindings row hrow fqdn own hfqdn hown heq
      have hidentifies : Identifies loc row.host columns :=
        Or.inr (Or.inl ⟨fqdn, own, hfqdn, hown, heq⟩)
      rcases hselects key columns hasset hfindings ⟨row, hrow, hidentifies⟩ with hall | hrest
      · have hnone := (hall row hrow).2
        rw [hfqdn] at hnone
        exact absurd hnone (Option.some_ne_none fqdn)
      · exact hrest
    · intro key columns hasset hfindings row hrow fqdn own hfqdn hown heq
      refine honly key columns hasset (Or.inr ⟨hfindings, ?_⟩)
      exact selected_iff_strong.2 (Or.inl ⟨row, hrow, Or.inl ⟨fqdn, own, hfqdn, hown, heq⟩⟩)
    · intro key columns hasset hkey
      exact honly key columns hasset (Or.inl hkey)

theorem replaced_iff {key : String} {columns : AssetColumns}
    (hasset : tables.assets key = some columns) :
    replaced rt loc (namedRows rt rows)
        ((namedRows rt rows).foldl upsertAsset tables.assets) key = true ↔
      key ∈ (namedRows rt rows).map NamedRow.key ∨
        selected rt loc (namedRows rt rows) columns = true := by
  by_cases hkey : key ∈ (namedRows rt rows).map NamedRow.key
  · rw [replaced_of_mem hkey]
    exact iff_of_true rfl (Or.inl hkey)
  · rw [replaced_of_notMem hkey, hasset, Option.any_some, or_iff_right hkey]

theorem mem_importRows_findings {key : String} {stored : StoredFinding}
    (hstored : stored ∈ tables.findingsOf key)
    (hkept : replaced rt loc (namedRows rt rows)
      ((namedRows rt rows).foldl upsertAsset tables.assets) key ≠ true) :
    stored ∈ (importRows rt loc tables rows).findings := by
  obtain ⟨hmem, hkey⟩ := List.mem_filter.1 hstored
  rw [decide_eq_true_eq] at hkey
  refine List.mem_append_left _ (List.mem_filter.2 ⟨hmem, ?_⟩)
  rw [hkey, Bool.not_eq_true', ← Bool.not_eq_true]
  exact hkept

theorem notMem_importRows_findings {key : String} {stored : StoredFinding}
    (hstored : stored ∈ tables.findingsOf key)
    (hgone : replaced rt loc (namedRows rt rows)
      ((namedRows rt rows).foldl upsertAsset tables.assets) key = true) :
    stored ∉ (importRows rt loc tables rows).findings := by
  obtain ⟨hmem, hkey⟩ := List.mem_filter.1 hstored
  rw [decide_eq_true_eq] at hkey
  intro hafter
  rcases List.mem_append.1 hafter with hkept | hnew
  · have hnot := (List.mem_filter.1 hkept).2
    rw [hkey, hgone] at hnot
    exact absurd hnot (by decide)
  · exact notMem_newFindings hmem _ hnew

/-- An import replaces the findings of the named hosts when its one decision is one of the rows. -/
theorem replaces_iff :
    Replaces rt loc rows tables (importRows rt loc tables rows) ↔
      DecidedByRow rt loc tables (namedRows rt rows) := by
  rw [decidedByRow_iff]
  constructor
  · intro h
    constructor
    · intro key columns hasset hfindings hidentifies
      obtain ⟨stored, hstored⟩ := List.exists_mem_of_ne_nil _ hfindings
      rw [← replaced_iff hasset]
      by_contra hkept
      exact h.gone key columns hasset (someRowIdentifies_iff.2 hidentifies) stored hstored
        (mem_importRows_findings hstored hkept)
    · intro key columns hasset hreplaced
      rw [← someRowIdentifies_iff]
      by_contra hstranger
      have hsame := h.unchanged key columns hasset hstranger
      have hgone : replaced rt loc (namedRows rt rows)
          ((namedRows rt rows).foldl upsertAsset tables.assets) key = true :=
        (replaced_iff hasset).2 (hreplaced.imp_right And.right)
      -- its findings are not the previous ones
      have hnil : tables.findingsOf key = [] := by
        rw [List.eq_nil_iff_forall_not_mem]
        intro stored hstored
        refine notMem_importRows_findings hstored hgone ?_
        rw [← hsame] at hstored
        exact List.mem_of_mem_filter hstored
      rcases hreplaced with hkey | ⟨hfindings, _⟩
      · rw [findingsOf_importRows, if_pos hgone, List.nil_append, hnil,
          newFindings_filter_eq_nil_iff] at hsame
        exact hsame hkey
      · exact hfindings hnil
  · rintro ⟨hfound, honly⟩
    constructor
    · intro key columns hasset hidentifies stored hstored
      refine notMem_importRows_findings hstored ((replaced_iff hasset).2 ?_)
      exact hfound key columns hasset (List.ne_nil_of_mem hstored)
        (someRowIdentifies_iff.1 hidentifies)
    · intro key columns hasset hstranger
      rw [someRowIdentifies_iff] at hstranger
      have hkey : key ∉ (namedRows rt rows).map NamedRow.key :=
        fun hkey => hstranger (honly key columns hasset (Or.inl hkey))
      rw [findingsOf_importRows, newFindings_filter_eq_nil_iff.2 hkey, List.append_nil]
      split
      · rename_i hgone
        symm
        by_contra hfindings
        rcases (replaced_iff hasset).1 hgone with hin | hselected
        · exact hkey hin
        · exact hstranger (honly key columns hasset (Or.inr ⟨hfindings, hselected⟩))
      · rfl
    · intro key hnamed
      rw [findingsOf_importRows]
      split
      · rw [List.nil_append]
      · rename_i hkept
        have hnil : tables.findingsOf key = [] := by
          by_contra hfindings
          rcases hnamed with hkey | ⟨columns, hasset, hidentifies⟩
          · exact hkept (replaced_of_mem hkey)
          · refine hkept ((replaced_iff hasset).2 ?_)
            exact hfound key columns hasset hfindings (someRowIdentifies_iff.1 hidentifies)
        rw [hnil, List.nil_append]

/-! ## A second import -/

/-- The tables hold the same assets and the same findings up to the ids. -/
def SameContent (tables other : ImportTables) : Prop :=
  tables.assets = other.assets ∧
    tables.findings.map StoredFinding.finding = other.findings.map StoredFinding.finding

theorem newFindings_map (nextId : Nat) (named : List NamedRow) :
    (newFindings nextId named).map StoredFinding.finding = named.map NamedRow.finding := by
  unfold newFindings
  rw [List.map_map]
  calc
    named.zipIdx.map (StoredFinding.finding ∘ fun row =>
        { id := nextId + row.2, finding := row.1.finding }) =
      (named.zipIdx.map Prod.fst).map NamedRow.finding := by
        rw [List.map_map]
        rfl
    _ = named.map NamedRow.finding := by
        rw [List.zipIdx_map_fst]

theorem replaced_importRows {key : String}
    (hkept : replaced rt loc (namedRows rt rows)
      ((namedRows rt rows).foldl upsertAsset tables.assets) key ≠ true) :
    replaced rt loc (namedRows rt rows)
        ((namedRows rt rows).foldl upsertAsset (importRows rt loc tables rows).assets) key ≠
      true := by
  have hkey : key ∉ (namedRows rt rows).map NamedRow.key := fun hkey => hkept (replaced_of_mem hkey)
  rw [replaced_of_notMem hkey] at hkept ⊢
  rw [assets_importRows_of_notMem hkey]
  split
  · exact hkept
  · exact Bool.false_ne_true

/-- A second import of the rows keeps what the first one kept. -/
theorem importFindings_again :
    (importFindings rt loc (importRows rt loc tables rows) (namedRows rt rows)).map
        StoredFinding.finding =
      (importFindings rt loc tables (namedRows rt rows)).map StoredFinding.finding := by
  unfold importFindings
  rw [List.map_append, List.map_append, newFindings_map, newFindings_map]
  congr 2
  show ((tables.findings.filter _ ++ newFindings _ _).filter _) = _
  rw [List.filter_append]
  have hold : ∀ stored ∈ tables.findings.filter (fun stored => !replaced rt loc (namedRows rt rows)
      ((namedRows rt rows).foldl upsertAsset tables.assets) stored.finding.assetKey),
      (!replaced rt loc (namedRows rt rows)
        ((namedRows rt rows).foldl upsertAsset (importRows rt loc tables rows).assets)
          stored.finding.assetKey) = true := by
    intro stored hstored
    have hkept := (List.mem_filter.1 hstored).2
    rw [Bool.not_eq_true', ← Bool.not_eq_true] at hkept ⊢
    exact replaced_importRows hkept
  have hnew : ∀ stored ∈ newFindings tables.nextId (namedRows rt rows),
      ¬ (!replaced rt loc (namedRows rt rows)
        ((namedRows rt rows).foldl upsertAsset (importRows rt loc tables rows).assets)
          stored.finding.assetKey) = true := by
    intro stored hstored
    obtain ⟨_, _, row, hrow, hfinding⟩ := mem_newFindings hstored
    rw [hfinding]
    have hgone : replaced rt loc (namedRows rt rows)
        ((namedRows rt rows).foldl upsertAsset (importRows rt loc tables rows).assets)
          row.finding.assetKey = true := replaced_of_mem (List.mem_map_of_mem hrow)
    rw [hgone]
    exact Bool.false_ne_true
  rw [List.filter_eq_self.2 hold, List.filter_eq_nil_iff.2 hnew, List.append_nil]

theorem any_assetKey (findings : List StoredFinding) (key : String) :
    (findings.any fun stored => decide (stored.finding.assetKey = key)) =
      (findings.map StoredFinding.finding).any fun finding => decide (finding.assetKey = key) := by
  rw [List.any_map]
  rfl

/-- A second import of the rows changes nothing. -/
theorem importRows_again :
    SameContent (importRows rt loc (importRows rt loc tables rows) rows)
      (importRows rt loc tables rows) := by
  refine ⟨funext fun key => ?_, importFindings_again⟩
  by_cases hkey : key ∈ (namedRows rt rows).map NamedRow.key
  · rw [assets_importRows_of_mem hkey, assets_importRows_of_mem hkey, columnsAfter_again]
  · rw [assets_importRows_of_notMem hkey, any_assetKey, importFindings_again, ← any_assetKey,
      assets_importRows_of_notMem hkey]
    split <;> rfl

end Replacement

/-! ## Imports that fail -/

/-- What an import of a text leaves. -/
structure ImportMeets (rt : Runtime) (loc : Sql.Locale) (tables : ImportTables) (csvText : String)
    (fault : Fault) : Prop where
  /-- The findings of the named hosts are replaced, and no others. -/
  replaces : ∀ rows, csvDictReader rt csvText = .ok rows →
    (importCsvText rt loc tables csvText fault).2 ≠ none →
      Replaces rt loc rows tables (importCsvText rt loc tables csvText fault).1
  /-- A second import changes nothing. -/
  again : (importCsvText rt loc tables csvText fault).2 ≠ none →
    SameContent
      (importCsvText rt loc (importCsvText rt loc tables csvText fault).1 csvText fault).1
      (importCsvText rt loc tables csvText fault).1
  /-- An import that fails leaves the assets and the findings as they were. -/
  failed : (importCsvText rt loc tables csvText fault).2 = none →
    (importCsvText rt loc tables csvText fault).1.assets = tables.assets ∧
      (importCsvText rt loc tables csvText fault).1.findings = tables.findings

section Failing

variable {rt : Runtime} {loc : Sql.Locale} {tables : ImportTables} {rows : List Row}

/-- The transaction changes nothing when no row names a host and every asset has a finding. -/
theorem importRows_eq_self_iff :
    (importRows rt loc tables rows).assets = tables.assets ∧
        (importRows rt loc tables rows).findings = tables.findings ↔
      namedRows rt rows = [] ∧
        ∀ key columns, tables.assets key = some columns → tables.findingsOf key ≠ [] := by
  constructor
  · rintro ⟨hassets, hfindings⟩
    have hnamed : namedRows rt rows = [] := by
      by_contra hne
      obtain ⟨row, hrow⟩ := List.exists_mem_of_ne_nil _ hne
      have hkeys : row.key ∈ (namedRows rt rows).map NamedRow.key := List.mem_map_of_mem hrow
      have hnil : (newFindings tables.nextId (namedRows rt rows)).filter
          (fun stored => decide (stored.finding.assetKey = row.key)) ≠ [] :=
        fun hnil => newFindings_filter_eq_nil_iff.1 hnil hkeys
      obtain ⟨stored, hstored⟩ := List.exists_mem_of_ne_nil _ hnil
      have hnew := List.mem_of_mem_filter hstored
      have hold : stored ∈ tables.findings := by
        rw [← hfindings]
        exact List.mem_append_right _ hnew
      exact notMem_newFindings hold _ hnew
    refine ⟨hnamed, fun key columns hasset hnone => ?_⟩
    have hkey : key ∉ (namedRows rt rows).map NamedRow.key := by
      rw [hnamed]
      exact List.not_mem_nil
    have hsame := congrFun hassets key
    have hfind : importFindings rt loc tables (namedRows rt rows) = tables.findings := hfindings
    rw [assets_importRows_of_notMem hkey, hfind, hasset] at hsame
    split at hsame
    · rename_i hany
      obtain ⟨stored, hstored, hassetKey⟩ := List.any_eq_true.1 hany
      have hmem : stored ∈ tables.findingsOf key := List.mem_filter.2 ⟨hstored, hassetKey⟩
      rw [hnone] at hmem
      exact List.not_mem_nil hmem
    · cases hsame
  · rintro ⟨hnamed, hall⟩
    have hfind : importFindings rt loc tables (namedRows rt rows) = tables.findings := by
      rw [hnamed]
      unfold importFindings newFindings
      rw [List.zipIdx_nil, List.map_nil, List.append_nil, List.filter_eq_self]
      intro stored _
      unfold replaced selected
      simp
    refine ⟨funext fun key => ?_, hfind⟩
    have hkey : key ∉ (namedRows rt rows).map NamedRow.key := by
      rw [hnamed]
      exact List.not_mem_nil
    rw [assets_importRows_of_notMem hkey, hfind]
    split
    · rfl
    · rename_i hany
      cases hasset : tables.assets key with
      | none => rfl
      | some columns =>
          obtain ⟨stored, hstored⟩ := List.exists_mem_of_ne_nil _ (hall key columns hasset)
          obtain ⟨hmem, hassetKey⟩ := List.mem_filter.1 hstored
          exact absurd (List.any_eq_true.2 ⟨stored, hmem, hassetKey⟩) hany

/--
The imports that do what they should: an import that goes through decides row by row, and one that
fails after its transaction had nothing to change.
-/
def ImportFits (rt : Runtime) (loc : Sql.Locale) (tables : ImportTables) (csvText : String)
    (fault : Fault) : Prop :=
  ∀ rows, csvDictReader rt csvText = .ok rows →
    (fault = .none → DecidedByRow rt loc tables (namedRows rt rows)) ∧
    (fault = .atFinish → namedRows rt rows = [] ∧
      ∀ key columns, tables.assets key = some columns → tables.findingsOf key ≠ [])

theorem importCsvText_ok {csvText : String} (hrows : csvDictReader rt csvText = .ok rows) :
    (importCsvText rt loc tables csvText .none).1 = importRows rt loc tables rows ∧
      (importCsvText rt loc tables csvText .none).2 ≠ none ∧
      importCsvText rt loc tables csvText .inTransaction = (tables, none) ∧
      importCsvText rt loc tables csvText .atFinish = (importRows rt loc tables rows, none) := by
  unfold importCsvText
  rw [hrows]
  exact ⟨rfl, Option.some_ne_none _, rfl, rfl⟩

theorem importCsvText_error {csvText : String} {failure : Failure} (fault : Fault)
    (hrows : csvDictReader rt csvText = .error failure) :
    importCsvText rt loc tables csvText fault = (tables, none) := by
  unfold importCsvText
  rw [hrows]

theorem importMeets_of_unchanged {csvText : String} {fault : Fault}
    (h : importCsvText rt loc tables csvText fault = (tables, none)) :
    ImportMeets rt loc tables csvText fault := by
  constructor
  · intro rows _ hresult
    rw [h] at hresult
    exact absurd rfl hresult
  · intro hresult
    rw [h] at hresult
    exact absurd rfl hresult
  · intro _
    rw [h]
    exact ⟨rfl, rfl⟩

/--
An import replaces the findings of the hosts that it names, and no others, exactly when its one
decision about addresses is one of the rows and no failure follows its transaction.
-/
theorem import_csv_text_iff (rt : Runtime) (loc : Sql.Locale) (tables : ImportTables)
    (csvText : String) (fault : Fault) :
    ImportMeets rt loc tables csvText fault ↔ ImportFits rt loc tables csvText fault := by
  cases hread : csvDictReader rt csvText with
  | error failure =>
      refine iff_of_true (importMeets_of_unchanged (importCsvText_error fault hread)) ?_
      intro rows hrows
      rw [hread] at hrows
      cases hrows
  | ok rows =>
      obtain ⟨hafter, hresult, hrolledBack, hfinish⟩ := @importCsvText_ok rt loc tables _ _ hread
      have hread_eq : ∀ rows', csvDictReader rt csvText = .ok rows' → rows' = rows := by
        intro rows' hrows'
        rw [hread] at hrows'
        cases hrows'
        rfl
      cases fault with
      | none =>
          constructor
          · intro h rows' hrows'
            cases hread_eq rows' hrows'
            have hreplaces := h.replaces rows hread hresult
            rw [hafter, replaces_iff] at hreplaces
            exact ⟨fun _ => hreplaces, nofun⟩
          · intro h
            constructor
            · intro rows' hrows' _
              cases hread_eq rows' hrows'
              rw [hafter, replaces_iff]
              exact (h rows hread).1 rfl
            · intro _
              rw [(@importCsvText_ok rt loc _ _ _ hread).1, hafter]
              exact importRows_again
            · intro hnone
              exact absurd hnone hresult
      | inTransaction =>
          refine iff_of_true (importMeets_of_unchanged hrolledBack) ?_
          exact fun _ _ => ⟨nofun, nofun⟩
      | atFinish =>
          constructor
          · intro h rows' hrows'
            cases hread_eq rows' hrows'
            have hfailed := h.failed (by rw [hfinish])
            rw [hfinish, importRows_eq_self_iff] at hfailed
            exact ⟨nofun, fun _ => hfailed⟩
          · intro h
            constructor
            · intro rows' _ hsome
              rw [hfinish] at hsome
              exact absurd rfl hsome
            · intro hsome
              rw [hfinish] at hsome
              exact absurd rfl hsome
            · intro _
              rw [hfinish]
              exact importRows_eq_self_iff.2 ((h rows hread).2 rfl)

end Failing

/-- A host with a finding that is stored under its address and its name. -/
def storedHost : ImportTables where
  assets := fun key =>
    if key = "10.0.0.5|srv.local" then
      some { mpAssetId := none, ipAddress := some "10.0.0.5", fqdn := some "srv.local" }
    else none
  findings :=
    [{ id := 1,
       finding :=
         { assetKey := "10.0.0.5|srv.local", software := none, kind := "software",
           vulnerabilityName := none, cve := some "CVE-0", severity := none, rawRow := [] } }]
  nextId := 2
  fresh := by decide

/-- A row with the address of the stored host, and one with the name of another host. -/
def mixedCsv : String :=
  "IpAddress,Fqdn,CVE\n10.0.0.5,,CVE-1\n10.0.0.6,other.local,CVE-2\n"

/-- The name in another row keeps the previous finding of the host that is known by its address. -/
theorem stale_finding_survives :
    ¬ ImportMeets asciiRuntime plainLocale storedHost mixedCsv .none := by
  intro h
  have hread : csvDictReader asciiRuntime mixedCsv = .ok
      [[(some "IpAddress", .text "10.0.0.5"), (some "Fqdn", .text ""), (some "CVE", .text "CVE-1")],
        [(some "IpAddress", .text "10.0.0.6"), (some "Fqdn", .text "other.local"),
          (some "CVE", .text "CVE-2")]] := by
    decide +kernel
  obtain ⟨hafter, hresult, _⟩ := @importCsvText_ok asciiRuntime plainLocale storedHost _ _ hread
  have hgone := (h.replaces _ hread hresult).gone "10.0.0.5|srv.local"
    { mpAssetId := none, ipAddress := some "10.0.0.5", fqdn := some "srv.local" } rfl
    ⟨_, List.mem_cons_self, Or.inr (Or.inr ⟨by decide +kernel, "10.0.0.5", by decide +kernel,
      rfl⟩)⟩
  rw [hafter] at hgone
  obtain ⟨stored, hstored⟩ : ∃ stored, stored ∈ storedHost.findingsOf "10.0.0.5|srv.local" :=
    ⟨_, List.mem_cons_self⟩
  refine hgone stored hstored (mem_importRows_findings hstored ?_)
  decide +kernel

end Exports
end MpvmApp
