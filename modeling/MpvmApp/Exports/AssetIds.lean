import MpvmApp.Exports.Csv
import MpvmApp.Lib.Table

/-!
# Asset ids and addresses in exported rows

An asset id is a text of the form of a UUID that stands alone in a cell.  A row
names the id in one of its id columns, and only without one there the first id
in any of its columns.

Main results:

- Theorem `extractUuid_eq_some`, `extractUuid_eq_none_iff`: what the search in a
  cell finds, and when it finds nothing.
- Theorem `assetIdFromCsvRow_eq_some`: the id picked from a row is one that the row
  names.
- Theorem `extractAssetIdsFromCsv_eq_ok`: each id of a text is named by a row, and no
  row gives two.
-/

namespace MpvmApp
namespace Exports

open Sql

/-! ## Ids in cells -/

/-- A hexadecimal digit. -/
def isHexDigit (c : Char) : Bool :=
  ('0' ≤ c && c ≤ '9') || ('a' ≤ c && c ≤ 'f') || ('A' ≤ c && c ≤ 'F')

/-- A character of the class `\w`. -/
def isWordChar (rt : Runtime) (c : Char) : Bool :=
  if c.toNat < 128 then
    ('0' ≤ c && c ≤ '9') || ('a' ≤ c && c ≤ 'z') || ('A' ≤ c && c ≤ 'Z') || c == '_'
  else
    rt.alnum c

/-- The form of a UUID: groups of 8, 4, 4, 4 and 12 digits. -/
def isUuid (cs : List Char) : Bool :=
  decide (cs.length = 36) &&
    cs.zipIdx.all fun (c, i) => if i ∈ [8, 13, 18, 23] then c == '-' else isHexDigit c

/-- No word character is adjacent: the digit next to it is at a word boundary. -/
def noWordChar (rt : Runtime) (adjacent : Option Char) : Bool :=
  adjacent.all fun c => !isWordChar rt c

/-- The search for the first id, after the character `previous`. -/
def findUuid (rt : Runtime) (previous : Option Char) : List Char → Option (List Char)
  | [] => none
  | c :: cs =>
      if isUuid ((c :: cs).take 36) && noWordChar rt previous &&
          noWordChar rt ((c :: cs).drop 36).head? then
        some ((c :: cs).take 36)
      else
        findUuid rt (some c) cs

/-- The first id in a cell. -/
def extractUuid (rt : Runtime) (cell : Cell) : Option String :=
  (cell.str rt).bind fun text => (findUuid rt none text.toList).map String.ofList

/-- The text `id` stands in the characters as a UUID of its own. -/
def StandsIn (rt : Runtime) (id text : List Char) : Prop :=
  ∃ before after, text = before ++ id ++ after ∧ isUuid id = true ∧
    noWordChar rt before.getLast? = true ∧ noWordChar rt after.head? = true

/-- The text `id` stands in a cell as a UUID of its own. -/
def UuidIn (rt : Runtime) (id : String) (cell : Cell) : Prop :=
  ∃ text, cell.str rt = some text ∧ StandsIn rt id.toList text.toList

theorem length_of_isUuid {cs : List Char} (h : isUuid cs = true) :
    cs.length = 36 := by
  simp only [isUuid, Bool.and_eq_true, decide_eq_true_eq] at h
  exact h.1

theorem findUuid_eq_some {rt : Runtime} {passed cs found : List Char}
    (h : findUuid rt passed.getLast? cs = some found) :
    StandsIn rt found (passed ++ cs) := by
  induction cs generalizing passed with
  | nil => cases h
  | cons c cs ih =>
      unfold findUuid at h
      split at h
      · rename_i hmatch
        simp only [Bool.and_eq_true] at hmatch
        cases h
        refine ⟨passed, (c :: cs).drop 36, ?_, hmatch.1.1, hmatch.1.2, hmatch.2⟩
        rw [List.append_assoc, List.take_append_drop]
      · have hlast : (passed ++ [c]).getLast? = some c := by simp
        rw [← hlast] at h
        simpa using ih h

/-- A text in which an id stands is not passed over. -/
theorem findUuid_ne_none {rt : Runtime} {id before after : List Char} {previous : Option Char}
    (hid : isUuid id = true) (hafter : noWordChar rt after.head? = true)
    (hbefore : noWordChar rt (before.getLast?.or previous) = true) :
    findUuid rt previous (before ++ id ++ after) ≠ none := by
  have hlength := length_of_isUuid hid
  induction before generalizing previous with
  | nil =>
      have htake : (id ++ after).take 36 = id := by
        rw [← hlength, List.take_left]
      have hdrop : (id ++ after).drop 36 = after := by
        rw [← hlength, List.drop_left]
      simp only [List.getLast?_nil, Option.none_or] at hbefore
      cases id with
      | nil => simp at hlength
      | cons c cs =>
          rw [List.nil_append, List.cons_append, findUuid, ← List.cons_append, htake, hdrop]
          simp [hid, hbefore, hafter]
  | cons c cs ih =>
      rw [List.cons_append, List.cons_append, findUuid]
      split
      · simp
      · apply ih
        cases cs with
        | nil => simpa using hbefore
        | cons d ds =>
            have hlast := List.getLast?_eq_some_getLast (List.cons_ne_nil d ds)
            rw [List.getLast?_cons_cons, hlast] at hbefore
            rwa [hlast]

/-- The id found in a cell stands there. -/
theorem extractUuid_eq_some {rt : Runtime} {cell : Cell} {id : String}
    (h : extractUuid rt cell = some id) :
    UuidIn rt id cell := by
  obtain ⟨text, htext, hfind⟩ := Option.bind_eq_some_iff.1 h
  obtain ⟨found, hfound, rfl⟩ := Option.map_eq_some_iff.1 hfind
  refine ⟨text, htext, ?_⟩
  rw [String.toList_ofList]
  exact findUuid_eq_some (show findUuid rt [].getLast? text.toList = some found from hfound)

/-- Nothing is found in a cell exactly when no id stands there. -/
theorem extractUuid_eq_none_iff {rt : Runtime} {cell : Cell} :
    extractUuid rt cell = none ↔ ∀ id, ¬ UuidIn rt id cell := by
  constructor
  · rintro h id ⟨text, htext, before, after, heq, hid, hbefore, hafter⟩
    rw [extractUuid, htext, Option.bind_some, Option.map_eq_none_iff, heq] at h
    exact findUuid_ne_none hid hafter (by simpa using hbefore) h
  · intro h
    cases hfind : extractUuid rt cell with
    | none => rfl
    | some id => exact absurd (extractUuid_eq_some hfind) (h id)

/-! ## Ids of rows -/

/-- One character of `str.casefold`. -/
def casefoldChar (rt : Runtime) (c : Char) : List Char :=
  if c.toNat < 128 then
    if 'A' ≤ c && c ≤ 'Z' then [Char.ofNat (c.toNat + 32)] else [c]
  else
    rt.casefold c

/-- A character that `normalize_csv_key` keeps. -/
def isKeyChar (c : Char) : Bool :=
  ('a' ≤ c && c ≤ 'z') || ('0' ≤ c && c ≤ '9') || c == '@'

/-- The name of a column without byte order marks, case and punctuation. -/
def normalizeCsvKey (rt : Runtime) (name : Option String) : String :=
  let stripped := stripBy (fun c => c == Char.ofNat 0xFEFF) (name.getD "")
  String.ofList ((stripped.toList.flatMap (casefoldChar rt)).filter isKeyChar)

/-- The normalised names of id columns. -/
def preferredKeys : List String :=
  ["assetid", "@host", "hostid", "id"]

/-- The column holds ids of assets. -/
def isIdColumn (rt : Runtime) (column : Option String × Cell) : Bool :=
  decide (normalizeCsvKey rt column.1 ∈ preferredKeys)

/-- The id of a row: the first in an id column, or else the first in any column. -/
def assetIdFromCsvRow (rt : Runtime) (row : Row) : Option String :=
  ((row.filter (isIdColumn rt)).findSome? fun column => extractUuid rt column.2).or
    (row.findSome? fun column => extractUuid rt column.2)

/--
A row names an id that stands in one of its columns, and in an id column when an
id stands in one of these.
-/
def RowNames (rt : Runtime) (row : Row) (id : String) : Prop :=
  ∃ column ∈ row, UuidIn rt id column.2 ∧
    ((∃ c ∈ row, isIdColumn rt c = true ∧ ∃ other, UuidIn rt other c.2) →
      isIdColumn rt column = true)

/-- No id stands in any column of a row. -/
def NoUuid (rt : Runtime) (row : Row) : Prop :=
  ∀ column ∈ row, ∀ id, ¬ UuidIn rt id column.2

/-- The id picked from a row is one that the row names. -/
theorem assetIdFromCsvRow_eq_some {rt : Runtime} {row : Row} {id : String}
    (h : assetIdFromCsvRow rt row = some id) :
    RowNames rt row id := by
  unfold assetIdFromCsvRow at h
  rcases Option.or_eq_some_iff.1 h with hpreferred | ⟨hnone, hany⟩
  · obtain ⟨column, hmem, hfind⟩ := List.exists_of_findSome?_eq_some hpreferred
    obtain ⟨hrow, hkey⟩ := List.mem_filter.1 hmem
    exact ⟨column, hrow, extractUuid_eq_some hfind, fun _ => hkey⟩
  · obtain ⟨column, hmem, hfind⟩ := List.exists_of_findSome?_eq_some hany
    refine ⟨column, hmem, extractUuid_eq_some hfind, ?_⟩
    rintro ⟨c, hc, hkey, other, hother⟩
    have hempty := List.findSome?_eq_none_iff.1 hnone c (List.mem_filter.2 ⟨hc, hkey⟩)
    exact absurd hother (extractUuid_eq_none_iff.1 hempty other)

theorem assetIdFromCsvRow_eq_none_iff {rt : Runtime} {row : Row} :
    assetIdFromCsvRow rt row = none ↔ NoUuid rt row := by
  have hcell (column : Option String × Cell) := @extractUuid_eq_none_iff rt column.2
  simp only [assetIdFromCsvRow, Option.or_eq_none_iff, List.findSome?_eq_none_iff,
    List.mem_filter, and_imp, hcell]
  constructor
  · exact fun h => h.2
  · exact fun h => ⟨fun column hmem _ => h column hmem, h⟩

/-! ## Ids and addresses of texts -/

/-- The distinct ids picked from the rows of a text. -/
def extractAssetIdsFromCsv (rt : Runtime) (csvText : String) : Except Failure (List String) := do
  let rows ← csvDictReader rt csvText
  return fromKeys (rows.filterMap (assetIdFromCsvRow rt))

/-- The normalised names of address columns. -/
def addressKeys : List String :=
  ["hostipaddress", "ipaddress", "ip"]

/-- The address in a column, in its canonical text. -/
def columnAddress (rt : Runtime) (column : Option String × Cell) : Option String :=
  if normalizeCsvKey rt column.1 ∈ addressKeys then
    match column.2 with
    | .text value => if value = "" then none else rt.ipAddress (strip value)
    | _ => none
  else
    none

/-- The distinct addresses in the rows of a text. -/
def extractIpsFromCsv (rt : Runtime) (csvText : String) : Except Failure (List String) := do
  let rows ← csvDictReader rt csvText
  return fromKeys (rows.flatMap fun row => row.filterMap (columnAddress rt))

/-- The ids of a text are named by its rows, and no row gives two. -/
theorem extractAssetIdsFromCsv_eq_ok {rt : Runtime} {csvText : String} {ids : List String}
    (h : extractAssetIdsFromCsv rt csvText = .ok ids) :
    ∃ rows, csvDictReader rt csvText = .ok rows ∧
      (∀ id ∈ ids, ∃ row ∈ rows, RowNames rt row id) ∧ ids.length ≤ rows.length ∧
      (ids = [] → ∀ row ∈ rows, NoUuid rt row) := by
  unfold extractAssetIdsFromCsv at h
  cases hrows : csvDictReader rt csvText with
  | error e => rw [hrows] at h; cases h
  | ok rows =>
      rw [hrows] at h
      cases h
      refine ⟨rows, rfl, ?_, ?_, ?_⟩
      · intro id hid
        obtain ⟨row, hmem, hpick⟩ := List.mem_filterMap.1 (mem_fromKeys.1 hid)
        exact ⟨row, hmem, assetIdFromCsvRow_eq_some hpick⟩
      · exact (length_fromKeys_le _).trans (List.length_filterMap_le _ _)
      · intro hempty row hmem
        apply assetIdFromCsvRow_eq_none_iff.1
        by_contra hpick
        obtain ⟨id, hid⟩ := Option.ne_none_iff_exists'.1 hpick
        have hin : id ∈ fromKeys (rows.filterMap (assetIdFromCsvRow rt)) :=
          mem_fromKeys.2 (List.mem_filterMap.2 ⟨row, hmem, hid⟩)
        rw [hempty] at hin
        cases hin

end Exports
end MpvmApp
