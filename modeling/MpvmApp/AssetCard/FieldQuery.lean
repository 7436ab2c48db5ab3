import Mathlib.Data.Rat.Defs
import Mathlib.Algebra.Order.Ring.Unbundled.Rat
import Mathlib.Order.WithBot
import MpvmApp.AssetCard.SearchRows
import MpvmApp.Lib.IpNetwork
import MpvmApp.Sql.Like

/-!
# Queries by fields

Assets are selected by a tree of rules about the fields of the search index.  A rule selects
pairs of an asset and an entity of it; a group intersects or unites the pairs of its parts, or
their assets.  The tree is validated and compiled to a statement of the database.

Main definitions:

- `validateAssetQueryTree`: what is accepted.
- `compileAssetQueryRule`, `compileAssetQueryNode`: the statement of a rule and of a tree.
- `Select.selects`: what a statement selects, or none when it fails.
- `meaning`: the pairs that a tree stands for.
-/

namespace MpvmApp
namespace AssetCard
namespace FieldQuery

open Sql
open SnapshotDocs (Coercions)
open SearchIndex (SearchRow booleanRow numberRow textRow lowerOf)

/-! ## Values -/

/-- A floating point number; one that is a number is finite or infinite. -/
inductive Double where
  | nan
  | number (value : WithBot (WithTop Rat))
deriving DecidableEq

/-- What the standard library and the database read of values. -/
structure Runtime where
  coercions : Coercions
  tables : CharTables
  /-- `float(value)`, if it is a number. -/
  float : Json → Option Double
  /-- The column `value_number` as a floating point number. -/
  numeric : String → Double
  md5 : String → String
  /-- The values of the type `inet`. -/
  Inet : Type
  /-- `text::inet`, or none when the cast fails. -/
  inet : String → Option Inet
  /-- `value <<= network`. -/
  within : Inet → Ip.IpNetwork → Bool

variable (rt : Runtime)

/-- `str.lower`. -/
def Runtime.lower (text : String) : String :=
  lowerOf rt.tables text

/-- `str(value or "")`. -/
def Runtime.orEmpty (value : Json) : String :=
  if rt.coercions.truthy value then rt.coercions.text value else ""

/-- The text of a value; a missing value is empty. -/
def Runtime.spoken : Json → String
  | .null => ""
  | value => rt.coercions.text value

/--
A row of the index: one that `asset_search_leaf_rows` makes of a value.  Texts are not empty,
and that of a number has no capitals.
-/
inductive Indexed : SearchRow → Prop where
  | boolean (entityPath fieldPath fieldName : String) (value : Bool) :
      Indexed (booleanRow entityPath fieldPath fieldName value)
  | number (entityPath fieldPath fieldName value : String)
      (given : rt.coercions.text (.num value) ≠ "")
      (lowered : rt.lower (rt.coercions.text (.num value)) = rt.coercions.text (.num value)) :
      Indexed (numberRow rt.coercions entityPath fieldPath fieldName value)
  | text (entityPath fieldPath fieldName text : String) (given : text ≠ "") :
      Indexed (textRow rt.tables entityPath fieldPath fieldName text)

/-- The index: the rows of each card. -/
structure Index where
  cards : List String
  rows : List (String × SearchRow)
  known : ∀ row ∈ rows, row.1 ∈ cards
  indexed : ∀ row ∈ rows, Indexed rt row.2

/-! ## Trees -/

/-- The operators of rules. -/
inductive Operator where
  | exists
  | notExists
  | inCidr
  | isIn
  | equals
  | notEquals
  | contains
  | startsWith
  | gt
  | gte
  | lt
  | lte
  | isTrue
  | isFalse
deriving DecidableEq, Repr

/-- The operator of a lowered text. -/
def Operator.ofText : String → Option Operator
  | "exists" => some .exists
  | "not_exists" => some .notExists
  | "in_cidr" => some .inCidr
  | "in" => some .isIn
  | "equals" => some .equals
  | "not_equals" => some .notEquals
  | "contains" => some .contains
  | "starts_with" => some .startsWith
  | "gt" => some .gt
  | "gte" => some .gte
  | "lt" => some .lt
  | "lte" => some .lte
  | "is_true" => some .isTrue
  | "is_false" => some .isFalse
  | _ => none

/-- A rule: an object with a field path that is not empty. -/
structure Rule where
  fieldPath : String
  operator : String
  value : Json
  given : fieldPath ≠ ""

/-- A node of a tree; members that are missing are empty texts. -/
inductive Query where
  | notObject
  | rule (rule : Rule)
  | withoutRules (combinator matchScope : String)
  | group (combinator matchScope : String) (rules : List Query)

theorem Query.induct {motive : Query → Prop} (notObject : motive .notObject)
    (rule : ∀ rule, motive (.rule rule))
    (withoutRules : ∀ combinator matchScope, motive (.withoutRules combinator matchScope))
    (group : ∀ combinator matchScope rules, (∀ query ∈ rules, motive query) →
      motive (.group combinator matchScope rules)) :
    ∀ query, motive query
  | .notObject => notObject
  | .rule r => rule r
  | .withoutRules combinator matchScope => withoutRules combinator matchScope
  | .group combinator matchScope rules =>
      group combinator matchScope rules fun query _ =>
        Query.induct notObject rule withoutRules group query

mutual

/-- `collect_asset_query_rules`. -/
def collectRules : Query → List Rule
  | .notObject => []
  | .rule rule => [rule]
  | .withoutRules _ _ => []
  | .group _ _ rules => collectAll rules

def collectAll : List Query → List Rule
  | [] => []
  | query :: queries => collectRules query ++ collectAll queries

end

/-- The combinator of a group. -/
def Runtime.combinator (text : String) : String :=
  rt.lower (if text = "" then "and" else text)

/-- The scope of a group. -/
def Runtime.scope (text : String) : String :=
  rt.lower (if text = "" then "host" else text)

/-- What is checked of a group before its rules. -/
def checkGroup (depth : Nat) (parentScope combinator scope : String) : Except String Unit :=
  if 3 < depth then .error "Query groups may not be nested deeper than 3 levels."
  else if ¬ (combinator ∈ ["and", "or"] ∧ scope ∈ ["host", "same_entity"]) then
    .error "Unsupported query group combinator or match_scope."
  else if parentScope = "same_entity" ∧ scope = "host" then
    .error "A host-scoped group cannot be nested inside same_entity."
  else .ok ()

/-- What is checked of a group after its rules. -/
def checkRules (scope : String) (rules : List Query) (count : Nat) : Except String Nat :=
  if 20 < count then .error "A query may contain at most 20 field rules."
  else if scope = "same_entity" ∧
      (collectAll rules).any fun rule => decide (rule.operator = "not_exists") then
    .error "not_exists is only supported for host-scoped groups."
  else .ok count

mutual

/-- `validate_asset_query_tree`; a root has no parent scope. -/
def validateAssetQueryTree (depth : Nat) (parentScope : String) : Query → Except String Nat
  | .notObject => .error "Query node must be an object."
  | .rule rule =>
      if 3 < depth then .error "Query groups may not be nested deeper than 3 levels."
      else if rule.operator = "" then .error "Every field rule requires an operator."
      else .ok 1
  | .withoutRules combinator matchScope =>
      (checkGroup depth parentScope (rt.combinator combinator) (rt.scope matchScope)).bind
        fun _ => .error "Every query group must contain at least one rule."
  | .group combinator matchScope rules =>
      (checkGroup depth parentScope (rt.combinator combinator) (rt.scope matchScope)).bind fun _ =>
        if rules.isEmpty then .error "Every query group must contain at least one rule."
        else
          (validateAll (depth + 1) (rt.scope matchScope) rules).bind fun count =>
            checkRules (rt.scope matchScope) rules count

def validateAll (depth : Nat) (parentScope : String) : List Query → Except String Nat
  | [] => .ok 0
  | query :: queries =>
      (validateAssetQueryTree depth parentScope query).bind fun count =>
        (validateAll depth parentScope queries).bind fun rest => .ok (count + rest)

end

/-! ## Statements -/

/-- The comparisons of numbers. -/
inductive Comparison where
  | gt
  | gte
  | lt
  | lte
deriving DecidableEq, Repr

/-- A condition on a row. -/
inductive Condition where
  | all
  | inNetwork (network : Ip.IpNetwork)
  | isIn (values : List String)
  | equals (text : String)
  | notEquals (text : String)
  | like (pattern : String)
  | number (comparison : Comparison) (value : Double)
  | boolean (value : Bool)

/-- A statement that selects pairs. -/
inductive Select where
  | cardsWithout (fieldPath : String)
  | rows (fieldPath : String) (condition : Condition)
  | distinctAssets (select : Select)
  | combine (intersect : Bool) (parts : List Select)

/-- The values of `in`. -/
def inValues : Json → List String
  | .arr items => items.map rt.coercions.text
  | value =>
      (((rt.orEmpty value).toList.splitOn ',').map fun part => strip (String.ofList part)).filter
        fun item => decide (item ≠ "")

/-- The condition of a comparison with a number. -/
def compileNumber (operator : String) (comparison : Comparison) (value : Json) :
    Except String Condition :=
  match rt.float value with
  | some number => .ok (.number comparison number)
  | none => .error (operator ++ " requires a numeric value.")

/-- The condition of an operator on the rows of a field, besides `not_exists`. -/
def compileCondition (operator : Operator) (fieldPath : String) (value : Json) :
    Except String Condition :=
  match operator with
  | .exists | .notExists => .ok .all
  | .inCidr =>
      if fieldPath ≠ "asset.ipAddress" then
        .error "in_cidr is only supported for asset.ipAddress."
      else
        match Ip.ipNetwork (strip (rt.orEmpty value)).toList with
        | some network => .ok (.inNetwork network)
        | none => .error "in_cidr requires a valid IPv4 or IPv6 network."
  | .isIn =>
      if (inValues rt value).isEmpty then .error "in requires at least one value."
      else .ok (.isIn ((inValues rt value).map rt.lower))
  | .equals => .ok (.equals (rt.lower (rt.orEmpty value)))
  | .notEquals => .ok (.notEquals (rt.lower (rt.orEmpty value)))
  | .contains => .ok (.like ("%" ++ rt.lower (rt.orEmpty value) ++ "%"))
  | .startsWith => .ok (.like (rt.lower (rt.orEmpty value) ++ "%"))
  | .gt => compileNumber rt "gt" .gt value
  | .gte => compileNumber rt "gte" .gte value
  | .lt => compileNumber rt "lt" .lt value
  | .lte => compileNumber rt "lte" .lte value
  | .isTrue => .ok (.boolean true)
  | .isFalse => .ok (.boolean false)

/-- `compile_asset_query_rule`: the statement and its scope. -/
def compileAssetQueryRule (rule : Rule) : Except String (Select × String) :=
  let fieldPath := strip rule.fieldPath
  let operator := rt.lower rule.operator
  if fieldPath = "" then .error "field_path is required."
  else
    match Operator.ofText operator with
    | none => .error ("Unsupported asset query operator: " ++ operator)
    | some .notExists => .ok (.cardsWithout fieldPath, "host")
    | some op =>
        (compileCondition rt op fieldPath rule.value).map fun condition =>
          (.rows fieldPath condition, "entity")

/-- A part of a group, under the scope of the group. -/
def compilePart (scope : String) (child : Select × String) : Except String Select :=
  if scope = "host" then .ok (.distinctAssets child.1)
  else if child.2 = "host" then
    .error "Host-scoped rules cannot be correlated inside same_entity."
  else .ok child.1

mutual

/-- `compile_asset_query_node`; what is no object has no members to read. -/
def compileAssetQueryNode : Query → Except String (Select × String)
  | .notObject => .error "AttributeError"
  | .rule rule => compileAssetQueryRule rt rule
  | .withoutRules combinator matchScope =>
      .ok (.combine (decide (rt.combinator combinator = "and")) [], rt.scope matchScope)
  | .group combinator matchScope rules =>
      (compileParts (rt.scope matchScope) rules).map fun parts =>
        (.combine (decide (rt.combinator combinator = "and")) parts, rt.scope matchScope)

def compileParts (scope : String) : List Query → Except String (List Select)
  | [] => .ok []
  | child :: rest =>
      (compileAssetQueryNode child).bind fun compiled =>
        (compilePart scope compiled).bind fun part =>
          (compileParts scope rest).map fun parts => part :: parts

end

/-! ## What statements select -/

/-- An asset and an entity of it, or the asset alone. -/
abbrev Pair := String × Option String

/-- The order of the database, in which `NaN` is above all numbers. -/
def Double.key : Double → WithTop (WithBot (WithTop Rat))
  | .nan => ⊤
  | .number value => (value : WithBot (WithTop Rat))

/-- A comparison in an order. -/
def Comparison.compare {α : Type} [LinearOrder α] (left right : α) : Comparison → Bool
  | .gt => decide (right < left)
  | .gte => decide (right ≤ left)
  | .lt => decide (left < right)
  | .lte => decide (left ≤ right)

/-- Whether a condition holds of a row, or none when a cast fails; of null it does not hold. -/
def Condition.holds (row : SearchRow) : Condition → Option Bool
  | .all => some true
  | .inNetwork network =>
      match row.valueTextNormalized with
      | none => some false
      | some text => (rt.inet text).map fun address => rt.within address network
  | .isIn values =>
      some (row.valueTextNormalized.any fun text =>
        decide (rt.md5 text ∈ values.map rt.md5) && decide (text ∈ values))
  | .equals value =>
      some (row.valueTextNormalized.any fun text =>
        decide (rt.md5 text = rt.md5 value) && decide (text = value))
  | .notEquals value => some (row.valueTextNormalized.any fun text => decide (text ≠ value))
  | .like pattern => some (row.valueTextNormalized.any fun text => Sql.like pattern text)
  | .number comparison value =>
      some (row.valueNumber.any fun number =>
        comparison.compare (rt.numeric number).key value.key)
  | .boolean value => some (decide (row.valueBoolean = some value))

section Selects

variable {rt} (index : Index rt)

/-- The rows of a field. -/
def Index.field (fieldPath : String) : List (String × SearchRow) :=
  index.rows.filter fun row => decide (row.2.fieldPath = fieldPath)

/-- `INTERSECT` or `UNION`. -/
def combinePairs (intersect : Bool) : List (List Pair) → List Pair
  | [] => []
  | first :: rest =>
      if intersect then
        (fromKeys first).filter fun pair => rest.all fun pairs => decide (pair ∈ pairs)
      else fromKeys (first ++ rest.flatten)

mutual

/-- What a statement selects, or none when it fails. -/
def Select.selects : Select → Option (List Pair)
  | .cardsWithout fieldPath =>
      some ((index.cards.filter fun card =>
        !((index.field fieldPath).any fun row => decide (row.1 = card))).map fun card =>
          (card, none))
  | .rows fieldPath condition =>
      if (index.field fieldPath).all fun row => (condition.holds rt row.2).isSome then
        some (((index.field fieldPath).filter fun row =>
          decide (condition.holds rt row.2 = some true)).map fun row =>
            (row.1, some row.2.entityPath))
      else none
  | .distinctAssets select =>
      select.selects.map fun pairs => fromKeys (pairs.map fun pair => (pair.1, none))
  | .combine intersect parts => (selectsAll parts).map (combinePairs intersect)

def selectsAll : List Select → Option (List (List Pair))
  | [] => some []
  | select :: rest =>
      select.selects.bind fun pairs => (selectsAll rest).map fun results => pairs :: results

end

/-! ## What trees stand for -/

/-- A value is a number that a comparison admits. -/
def Compares (rt : Runtime) (comparison : Comparison) (row : SearchRow) (value : Json) : Prop :=
  ∃ number ∈ row.valueNumber, ∃ left right,
    rt.numeric number = .number left ∧ rt.float value = some (.number right) ∧
      comparison.compare left right = true

/-- The value of a row satisfies an operator. -/
def Satisfies (rt : Runtime) (value : Json) (row : SearchRow) : Operator → Prop
  | .exists | .notExists => True
  | .inCidr => ∃ network, Ip.ipNetwork (strip (rt.orEmpty value)).toList = some network ∧
      ∃ text ∈ row.valueTextNormalized, ∃ address, rt.inet text = some address ∧
        rt.within address network = true
  | .isIn => ∃ item ∈ inValues rt value, row.valueTextNormalized = some (rt.lower item)
  | .equals => row.valueTextNormalized = some (rt.lower (rt.spoken value))
  | .notEquals => row.valueTextNormalized ≠ some (rt.lower (rt.spoken value))
  | .contains => ∃ text ∈ row.valueTextNormalized,
      (rt.lower (rt.spoken value)).toList <:+: text.toList
  | .startsWith => ∃ text ∈ row.valueTextNormalized,
      (rt.lower (rt.spoken value)).toList <+: text.toList
  | .gt => Compares rt .gt row value
  | .gte => Compares rt .gte row value
  | .lt => Compares rt .lt row value
  | .lte => Compares rt .lte row value
  | .isTrue => row.valueBoolean = some true
  | .isFalse => row.valueBoolean = some false

/-- The pairs of a rule. -/
def ruleMeaning (rule : Rule) : Set Pair :=
  { pair | match Operator.ofText (rt.lower rule.operator) with
    | none => False
    | some .notExists => pair.1 ∈ index.cards ∧ pair.2 = none ∧
        ∀ row ∈ index.field (strip rule.fieldPath), row.1 ≠ pair.1
    | some operator => ∃ row ∈ index.field (strip rule.fieldPath),
        pair = (row.1, some row.2.entityPath) ∧ Satisfies rt rule.value row.2 operator }

/-- The assets of some pairs. -/
def assetsOf (pairs : Set Pair) : Set String :=
  { asset | ∃ entity, (asset, entity) ∈ pairs }

/-- The pairs of a group whose parts have some pairs. -/
def groupMeaning (combinator scope : String) (parts : List (Set Pair)) : Set Pair :=
  { pair |
    if scope = "host" then
      pair.2 = none ∧
        if combinator = "and" then ∀ part ∈ parts, pair.1 ∈ assetsOf part
        else ∃ part ∈ parts, pair.1 ∈ assetsOf part
    else if combinator = "and" then ∀ part ∈ parts, pair ∈ part
    else ∃ part ∈ parts, pair ∈ part }

mutual

/-- The pairs of a tree. -/
def meaning : Query → Set Pair
  | .notObject => ∅
  | .rule rule => ruleMeaning index rule
  | .withoutRules _ _ => ∅
  | .group combinator matchScope rules =>
      groupMeaning (rt.combinator combinator) (rt.scope matchScope) (meanings rules)

def meanings : List Query → List (Set Pair)
  | [] => []
  | query :: queries => meaning query :: meanings queries

end

end Selects

end FieldQuery
end AssetCard
end MpvmApp
