import MpvmApp.AssetCard.SnapshotTables
import MpvmApp.Lib.CharTables
import MpvmApp.Lib.Table

/-!
# Search rows of a card

The search index holds a row for each value of a card: the summary, the data of the root, the data
of the nodes and the items of the collections are flattened down to a limited depth, without the
hidden members and the empty values.

Main definitions:

- `leafRows`: the rows of a value.
- `buildAssetCardSearchRows`: the rows of a card, unless a member that is iterated is no list.

Main result:

- Theorem `assetIdRow_mem`: a card with an id has the row of its id, whatever else it holds.
-/

namespace MpvmApp
namespace AssetCard
namespace SearchIndex

open Sql
open SnapshotDocs (Coercions textJson storedMembers)

/-! ## Rows -/

/-- The column `value_type`. -/
inductive ValueType where
  | text
  | number
  | boolean
deriving DecidableEq, Repr

/-- A row of `asset_card_search_fields`. -/
structure SearchRow where
  entityPath : String
  fieldPath : String
  fieldName : String
  valueType : ValueType
  valueText : Option String
  valueTextNormalized : Option String
  valueNumber : Option String
  valueBoolean : Option Bool
deriving DecidableEq, Repr

/-- `ASSET_SEARCH_HIDDEN_KEYS`. -/
def assetSearchHiddenKeys : List String :=
  ["raw", "rawcard", "rawrecord", "rawdetail", "rawvalue", "objectid", "type"]

section Rows

variable (c : Coercions) (tables : CharTables)

/-- `str.lower`. -/
def lowerOf (text : String) : String :=
  String.ofList (tables.lowerText text.toList)

/-- `is_hidden_asset_search_key`. -/
def isHiddenAssetSearchKey (key : String) : Bool :=
  let normalized :=
    lowerOf tables (String.ofList (key.toList.filter fun ch => ch != '_' && ch != '-'))
  decide (normalized ∈ assetSearchHiddenKeys) || "raw".toList.isPrefixOf normalized.toList

/-- The row of a truth value. -/
def booleanRow (entityPath fieldPath fieldName : String) (value : Bool) : SearchRow where
  entityPath := entityPath
  fieldPath := fieldPath
  fieldName := fieldName
  valueType := .boolean
  valueText := some (if value then "true" else "false")
  valueTextNormalized := some (if value then "true" else "false")
  valueNumber := none
  valueBoolean := some value

/-- The row of a number. -/
def numberRow (entityPath fieldPath fieldName value : String) : SearchRow where
  entityPath := entityPath
  fieldPath := fieldPath
  fieldName := fieldName
  valueType := .number
  valueText := some (c.text (.num value))
  valueTextNormalized := some (c.text (.num value))
  valueNumber := some value
  valueBoolean := none

/-- The row of a text that is not empty. -/
def textRow (entityPath fieldPath fieldName text : String) : SearchRow where
  entityPath := entityPath
  fieldPath := fieldPath
  fieldName := fieldName
  valueType := .text
  valueText := some text
  valueTextNormalized := some (lowerOf tables text)
  valueNumber := none
  valueBoolean := none

/-- The members below an object: those of its `data`, if that is an object. -/
def nestedMembers (members : Members) : Members :=
  match dictGet members "data" with
  | .obj data => data
  | _ => members

/-- The path of a member. -/
def childPath (fieldPath key : String) : String :=
  if fieldPath = "" then key else fieldPath ++ "." ++ key

/-- `asset_search_leaf_rows`, with the number of levels that are left. -/
def leafRows (entityPath : String) : Nat → String → String → Json → List SearchRow
  | 0, _, _, _ => []
  | _ + 1, _, _, .null => []
  | levels + 1, fieldPath, fieldName, .obj members =>
      match dictGet members "hasItems" with
      | .bool value => [booleanRow entityPath fieldPath fieldName value]
      | _ =>
          (nestedMembers members).flatMap fun m =>
            if isHiddenAssetSearchKey tables m.1 then []
            else leafRows entityPath levels (childPath fieldPath m.1) m.1 m.2
  | levels + 1, fieldPath, fieldName, .arr items =>
      items.flatMap fun item => leafRows entityPath levels fieldPath fieldName item
  | _ + 1, fieldPath, fieldName, .bool value => [booleanRow entityPath fieldPath fieldName value]
  | _ + 1, fieldPath, fieldName, .num value => [numberRow c entityPath fieldPath fieldName value]
  | _ + 1, fieldPath, fieldName, .str value =>
      ((cleanText (some value)).map (textRow tables entityPath fieldPath fieldName)).toList

/-- `asset_search_leaf_rows` from depth zero; a value below depth eight has no rows. -/
def assetSearchLeafRows (entityPath fieldPath fieldName : String) (value : Json) :
    List SearchRow :=
  leafRows c tables entityPath 9 fieldPath fieldName value

/-! ## Cards -/

/-- `first_non_empty` of two values. -/
def firstNonEmptyJson : Json → Json → Json
  | .null, .str "" => .null
  | .str "", .str "" => .null
  | .null, value | .str "", value => value
  | value, _ => value

/-- The elements of `value or []`, or none when it cannot be iterated. -/
def iterate (value : Json) : Option (List Json) :=
  if c.truthy value then
    match value with
    | .arr items => some items
    | .obj members => some (members.map fun m => .str m.1)
    | .str text => some (text.toList.map fun ch => .str (String.ofList [ch]))
    | _ => none
  else
    some []

/-- `asset_path_leaf`. -/
def assetPathLeaf (path : String) : String :=
  let last := ((path.toList.splitOnP fun ch => ch == '.' || ch == '[').getLast?).getD []
  let leaf := String.ofList (last.rdropWhile fun ch => ch == ']')
  if leaf = "" then path else leaf

/-- The summary of a card. -/
def summaryMembers (card root rootData : Members) : Members :=
  [("assetId", textJson (c.cleanValue (dictGet card "asset_id"))),
    ("displayName", firstNonEmptyJson (dictGet card "display_name") (dictGet root "displayName")),
    ("assetType", firstNonEmptyJson (dictGet card "asset_type") (dictGet root "type")),
    ("fqdn", firstNonEmptyJson (dictGet card "fqdn") (dictGet rootData "fqdn")),
    ("hostname", firstNonEmptyJson (dictGet card "hostname") (dictGet rootData "hostname")),
    ("ipAddress", firstNonEmptyJson (dictGet card "ip_address") (dictGet rootData "ipAddress")),
    ("osName", firstNonEmptyJson (dictGet card "os_name") (dictGet rootData "osName")),
    ("osVersion", firstNonEmptyJson (dictGet card "os_version") (dictGet rootData "osVersion")),
    ("vulnerabilityLevel",
      firstNonEmptyJson (dictGet card "vulnerability_level") (dictGet root "vulnerabilityLevel"))]

/-- The rows of a node; what is no object or has no path is skipped. -/
def nodeRows (node : Json) : List SearchRow :=
  match node with
  | .obj members =>
      match c.cleanValue (dictGet members "path") with
      | some path =>
          assetSearchLeafRows c tables path path (assetPathLeaf path)
            (.obj (storedMembers (dictGet members "data")))
      | none => []
  | _ => []

/-- The members of an item; what is no object is the value of one. -/
def itemDocument (item : Json) : Members :=
  match item with
  | .obj members => members
  | value => [("value", value)]

/-- The value of an item. -/
def itemValue (document : Members) : Json :=
  match dictGet document "data" with
  | .obj data => .obj data
  | _ =>
      if "value" ∈ document.map Prod.fst then dictGet document "value"
      else .obj (document.filter fun m => m.1 != "path" && m.1 != "node")

/-- The rows of an item of a collection. -/
def itemRows (collectionPath fieldName : String) (item : Json × Nat) : List SearchRow :=
  let document := itemDocument item.1
  let entityPath := (c.cleanValue (dictGet document "path")).getD
    (collectionPath ++ "[" ++ toString item.2 ++ "]")
  assetSearchLeafRows c tables entityPath collectionPath fieldName (itemValue document)

/-- The rows of a collection; what is no object or has no path is skipped. -/
def collectionRows (collection : Json) : Option (List SearchRow) :=
  match collection with
  | .obj members =>
      match c.cleanValue (dictGet members "path") with
      | some collectionPath =>
          (iterate c (dictGet members "items")).map fun items =>
            items.zipIdx.flatMap
              (itemRows c tables collectionPath
                ((c.cleanValue (dictGet members "name")).getD (assetPathLeaf collectionPath)))
      | none => some []
  | _ => some []

/-- The rows of the summary of a card and of the data of its root. -/
def rootRows (card : Members) : List SearchRow :=
  let root := storedMembers (dictGet card "root")
  let rootData := storedMembers (dictGet root "data")
  assetSearchLeafRows c tables "asset" "asset" "asset"
      (.obj (summaryMembers c card root rootData)) ++
    assetSearchLeafRows c tables "asset" "asset" "asset" (.obj rootData)

/-- `build_asset_card_search_rows`, or none for a `TypeError`. -/
def buildAssetCardSearchRows (card : Members) : Option (List SearchRow) := do
  let nodes ← iterate c (dictGet card "nodes")
  let collections ← iterate c (dictGet card "collections")
  let rows ← collections.mapM (collectionRows c tables)
  return fromKeys (rootRows c tables card ++ nodes.flatMap (nodeRows c tables) ++ rows.flatten)

/-! ## The row of the id -/

/-- The row of the id of a card. -/
def assetIdRow (assetId : String) : SearchRow :=
  textRow tables "asset" "asset.assetId" "assetId" assetId

/-- The id of a card is not hidden. -/
theorem assetId_not_hidden : isHiddenAssetSearchKey tables "assetId" = false := by
  have hlower : lowerOf tables
      (String.ofList ("assetId".toList.filter fun ch => ch != '_' && ch != '-')) = "assetid" := by
    have hkeep : ("assetId".toList.filter fun ch => ch != '_' && ch != '-') =
        ['a', 's', 's', 'e', 't', 'I', 'd'] := by decide
    rw [hkeep]
    unfold lowerOf CharTables.lowerText
    rw [String.toList_ofList]
    simp only [List.flatMap_cons, List.flatMap_nil]
    rw [tables.lower_ascii 'a' (by decide), tables.lower_ascii 's' (by decide),
      tables.lower_ascii 'e' (by decide), tables.lower_ascii 't' (by decide),
      tables.lower_ascii 'I' (by decide), tables.lower_ascii 'd' (by decide)]
    decide
  have hnot : "assetid" ∉ assetSearchHiddenKeys := by decide +kernel
  have hraw : "raw".toList.isPrefixOf "assetid".toList = false := by decide +kernel
  unfold isHiddenAssetSearchKey
  rw [hlower]
  dsimp only
  rw [decide_eq_false hnot, hraw]
  rfl

theorem leafRows_obj (entityPath : String) (levels : Nat) (fieldPath fieldName : String)
    {members : Members} (hitems : dictGet members "hasItems" = .null)
    (hdata : dictGet members "data" = .null) :
    leafRows c tables entityPath (levels + 1) fieldPath fieldName (.obj members) =
      members.flatMap fun m =>
        if isHiddenAssetSearchKey tables m.1 then []
        else leafRows c tables entityPath levels (childPath fieldPath m.1) m.1 m.2 := by
  have hnested : nestedMembers members = members := by
    unfold nestedMembers
    rw [hdata]
  rw [leafRows, hitems, hnested]

theorem leafRows_str (entityPath : String) (levels : Nat) (fieldPath fieldName : String)
    {text : String} (h : cleanText (some text) = some text) :
    leafRows c tables entityPath (levels + 1) fieldPath fieldName (.str text) =
      [textRow tables entityPath fieldPath fieldName text] := by
  rw [leafRows, h]
  rfl

theorem dictGet_summaryMembers (card root rootData : Members) :
    dictGet (summaryMembers c card root rootData) "hasItems" = .null ∧
      dictGet (summaryMembers c card root rootData) "data" = .null := by
  have hkeys : (summaryMembers c card root rootData).map Prod.fst =
      ["assetId", "displayName", "assetType", "fqdn", "hostname", "ipAddress", "osName",
        "osVersion", "vulnerabilityLevel"] := rfl
  constructor
  · apply dictGet_of_notMem
    rw [hkeys]
    decide +kernel
  · apply dictGet_of_notMem
    rw [hkeys]
    decide +kernel

/-- The summary of a card with an id has the row of the id. -/
theorem assetIdRow_mem_rootRows {card : Members} {assetId : String}
    (h : c.cleanValue (dictGet card "asset_id") = some assetId) :
    assetIdRow tables assetId ∈ rootRows c tables card := by
  have hclean : cleanText (some assetId) = some assetId := by
    have hsome := h
    cases hvalue : dictGet card "asset_id" with
    | null => rw [hvalue] at hsome; cases hsome
    | _ =>
        rw [hvalue] at hsome
        exact SnapshotDocs.cleanText_cleanText hsome
  unfold rootRows
  refine List.mem_append_left _ ?_
  generalize storedMembers (dictGet card "root") = root
  generalize storedMembers (dictGet root "data") = rootData
  obtain ⟨hitems, hdata⟩ := dictGet_summaryMembers c card root rootData
  unfold assetSearchLeafRows
  rw [leafRows_obj c tables "asset" 8 "asset" "asset" hitems hdata]
  refine List.mem_flatMap.2 ⟨("assetId", .str assetId), ?_, ?_⟩
  · unfold summaryMembers
    rw [h]
    exact List.mem_cons_self
  · dsimp only
    rw [assetId_not_hidden, if_neg Bool.false_ne_true, leafRows_str c tables "asset" 7 _ _ hclean]
    have hpath : childPath "asset" "assetId" = "asset.assetId" := by decide +kernel
    rw [hpath]
    exact List.mem_singleton.2 rfl

/-- A card with an id has the row of its id, whatever else it holds. -/
theorem assetIdRow_mem {card : Members} {assetId : String} {rows : List SearchRow}
    (h : c.cleanValue (dictGet card "asset_id") = some assetId)
    (hrows : buildAssetCardSearchRows c tables card = some rows) :
    assetIdRow tables assetId ∈ rows := by
  unfold buildAssetCardSearchRows at hrows
  obtain ⟨nodes, _, hrows⟩ := Option.bind_eq_some_iff.1 hrows
  obtain ⟨collections, _, hrows⟩ := Option.bind_eq_some_iff.1 hrows
  obtain ⟨below, _, hrows⟩ := Option.bind_eq_some_iff.1 hrows
  rw [← Option.some.inj hrows, mem_fromKeys]
  exact List.mem_append_left _ (List.mem_append_left _ (assetIdRow_mem_rootRows c tables h))

end Rows

end SearchIndex
end AssetCard
end MpvmApp
