import MpvmApp.AssetCard.FieldQuery
import MpvmApp.AssetCard.SnapshotRoundTrip

/-!
# The meaning of queries by fields

What the statement of an accepted tree selects is compared with the pairs that the tree stands
for.  Groups are compiled as they are meant; a rule is when the values that are stored under its
field are read literally.

Main definitions:

- `Literal`: a stored value is read literally by a rule.
- `QueryExact`: a tree is compiled, and its statement selects the assets it stands for.

Main results:

- Theorem `holds_iff`: the condition of a rule holds of the rows that satisfy its operator
  exactly when these are read literally.
- Theorem `compileAssetQueryNode_spec`: the statement of a tree and its pairs.
- Theorem `queryExact_of_literal`: when the assets of a tree are selected.
-/

namespace MpvmApp
namespace AssetCard
namespace FieldQuery

open Sql
open SnapshotDocs (Coercions)
open SearchIndex (SearchRow booleanRow numberRow textRow lowerOf)

/-! ## Conditions -/

/-- `NaN` does not decide a comparison. -/
def NanFree (left right : Double) : Comparison → Prop
  | .gt => left = .nan → right = .nan
  | .gte => left ≠ .nan
  | .lt => right = .nan → left = .nan
  | .lte => right ≠ .nan

/-- A stored value is read literally by a rule with some operator and value. -/
def Literal (rt : Runtime) (value : Json) (row : SearchRow) : Operator → Prop
  | .exists | .notExists | .isIn | .isTrue | .isFalse => True
  | .inCidr => ∀ text ∈ row.valueTextNormalized, (rt.inet text).isSome = true
  | .equals | .notEquals =>
      (row.valueTextNormalized = some (rt.lower (rt.orEmpty value)) ↔
        row.valueTextNormalized = some (rt.lower (rt.spoken value)))
  | .contains => ∀ text ∈ row.valueTextNormalized,
      (like ("%" ++ rt.lower (rt.orEmpty value) ++ "%") text = true ↔
        (rt.lower (rt.spoken value)).toList <:+: text.toList)
  | .startsWith => ∀ text ∈ row.valueTextNormalized,
      (like (rt.lower (rt.orEmpty value) ++ "%") text = true ↔
        (rt.lower (rt.spoken value)).toList <+: text.toList)
  | .gt => ∀ number ∈ row.valueNumber, ∀ limit ∈ rt.float value,
      NanFree (rt.numeric number) limit .gt
  | .gte => ∀ number ∈ row.valueNumber, ∀ limit ∈ rt.float value,
      NanFree (rt.numeric number) limit .gte
  | .lt => ∀ number ∈ row.valueNumber, ∀ limit ∈ rt.float value,
      NanFree (rt.numeric number) limit .lt
  | .lte => ∀ number ∈ row.valueNumber, ∀ limit ∈ rt.float value,
      NanFree (rt.numeric number) limit .lte

variable {rt : Runtime}

theorem literal_contains_of_plain {value : Json} {row : SearchRow}
    (hkept : rt.orEmpty value = rt.spoken value)
    (hplain : ∀ c ∈ (rt.lower (rt.spoken value)).toList, isPlain c = true) :
    Literal rt value row .contains ∧ Literal rt value row .startsWith := by
  constructor
  · intro text _
    rw [hkept]
    exact like_percent_append_percent_iff hplain
  · intro text _
    rw [hkept]
    exact like_append_percent_iff hplain

theorem compare_key_iff (left right : Double) (comparison : Comparison) :
    (comparison.compare left.key right.key = true ↔
      ∃ a b, left = .number a ∧ right = .number b ∧ comparison.compare a b = true) ↔
      NanFree left right comparison := by
  cases left with
  | nan => cases right <;> cases comparison <;> simp [Double.key, Comparison.compare, NanFree]
  | number a => cases right <;> cases comparison <;> simp [Double.key, Comparison.compare, NanFree]

theorem Indexed.exists_text {row : SearchRow} (h : Indexed rt row) :
    ∃ text, row.valueTextNormalized = some text := by
  cases h with
  | boolean => exact ⟨_, rfl⟩
  | number => exact ⟨_, rfl⟩
  | text => exact ⟨_, rfl⟩

theorem digests_mem_iff {values : List String} {text : String} :
    (decide (rt.md5 text ∈ values.map rt.md5) && decide (text ∈ values)) = true ↔
      text ∈ values := by
  rw [Bool.and_eq_true, decide_eq_true_eq, decide_eq_true_eq]
  exact and_iff_right_of_imp List.mem_map_of_mem

/-- The condition of a comparison. -/
theorem holds_number_iff {operator : String} {comparison : Comparison} {value : Json}
    {condition : Condition} {row : SearchRow}
    (h : compileNumber rt operator comparison value = .ok condition) :
    ((condition.holds rt row).isSome = true ∧
        (condition.holds rt row = some true ↔ Compares rt comparison row value)) ↔
      ∀ number ∈ row.valueNumber, ∀ limit ∈ rt.float value,
        NanFree (rt.numeric number) limit comparison := by
  unfold compileNumber at h
  cases hvalue : rt.float value with
  | none =>
      rw [hvalue] at h
      cases h
  | some limit =>
      rw [hvalue] at h
      cases h
      unfold Compares Condition.holds
      rw [hvalue]
      cases row.valueNumber with
      | none => simp
      | some number =>
          simp only [Option.any_some, Option.some.injEq, Option.isSome_some, true_and,
            Option.mem_def, forall_eq', exists_eq_left', ← compare_key_iff]

/--
The condition of a rule holds of the rows that satisfy its operator exactly when these are read
literally.
-/
theorem holds_iff {operator : Operator} {fieldPath : String} {value : Json}
    {condition : Condition} {row : SearchRow} (hrow : Indexed rt row)
    (h : compileCondition rt operator fieldPath value = .ok condition) :
    ((condition.holds rt row).isSome = true ∧
        (condition.holds rt row = some true ↔ Satisfies rt value row operator)) ↔
      Literal rt value row operator := by
  obtain ⟨text, htext⟩ := hrow.exists_text
  cases operator with
  | «exists» =>
      cases h
      simp [Condition.holds, Satisfies, Literal]
  | notExists =>
      cases h
      simp [Condition.holds, Satisfies, Literal]
  | inCidr =>
      unfold compileCondition at h
      dsimp only at h
      split at h
      · cases h
      · split at h
        · rename_i network hnetwork
          cases h
          unfold Condition.holds Satisfies Literal
          rw [htext, hnetwork]
          cases rt.inet text <;> simp
        · cases h
  | isIn =>
      unfold compileCondition at h
      dsimp only at h
      split at h
      · cases h
      · cases h
        unfold Condition.holds Satisfies Literal
        rw [htext]
        dsimp only
        simp only [Option.any_some, Option.isSome_some, true_and, Option.some.injEq, iff_true]
        rw [digests_mem_iff, List.mem_map]
        simp only [eq_comm]
  | equals =>
      cases h
      have hdigest : (decide (rt.md5 text = rt.md5 (rt.lower (rt.orEmpty value))) &&
          decide (text = rt.lower (rt.orEmpty value))) = true ↔
            text = rt.lower (rt.orEmpty value) := by
        rw [Bool.and_eq_true, decide_eq_true_eq, decide_eq_true_eq]
        exact and_iff_right_of_imp (congrArg rt.md5)
      unfold Condition.holds Satisfies Literal
      rw [htext]
      dsimp only
      simp only [Option.any_some, Option.isSome_some, true_and, Option.some.injEq]
      rw [hdigest]
  | notEquals =>
      cases h
      unfold Condition.holds Satisfies Literal
      rw [htext]
      dsimp only
      simp only [Option.any_some, Option.isSome_some, true_and, Option.some.injEq, ne_eq,
        decide_eq_true_eq]
      exact not_iff_not
  | contains =>
      cases h
      unfold Condition.holds Satisfies Literal
      rw [htext]
      simp
  | startsWith =>
      cases h
      unfold Condition.holds Satisfies Literal
      rw [htext]
      simp
  | gt => exact holds_number_iff h
  | gte => exact holds_number_iff h
  | lt => exact holds_number_iff h
  | lte => exact holds_number_iff h
  | isTrue =>
      cases h
      simp [Condition.holds, Satisfies, Literal]
  | isFalse =>
      cases h
      simp [Condition.holds, Satisfies, Literal]

/-! ## Rules -/

/-- The values that are stored under the field of a rule are read literally by it. -/
def LiteralOn (index : Index rt) (rule : Rule) : Prop :=
  ∀ operator, Operator.ofText (rt.lower rule.operator) = some operator →
    ∀ row ∈ index.field (strip rule.fieldPath), Literal rt rule.value row.2 operator

section Rules

variable {index : Index rt} {rule : Rule}

theorem Operator.eq_of_ofText {text : String} (h : Operator.ofText text = some .notExists) :
    text = "not_exists" := by
  unfold Operator.ofText at h
  split at h <;> first | rfl | cases h

theorem compileAssetQueryRule_eq {operator : Operator} (hpath : strip rule.fieldPath ≠ "")
    (hoperator : Operator.ofText (rt.lower rule.operator) = some operator)
    (hne : operator ≠ .notExists) :
    compileAssetQueryRule rt rule =
      (compileCondition rt operator (strip rule.fieldPath) rule.value).map fun condition =>
        (.rows (strip rule.fieldPath) condition, "entity") := by
  unfold compileAssetQueryRule
  dsimp only
  rw [if_neg hpath, hoperator]
  cases operator <;> first | rfl | exact absurd rfl hne

theorem compileAssetQueryRule_notExists (hpath : strip rule.fieldPath ≠ "")
    (hoperator : Operator.ofText (rt.lower rule.operator) = some .notExists) :
    compileAssetQueryRule rt rule = .ok (.cardsWithout (strip rule.fieldPath), "host") := by
  unfold compileAssetQueryRule
  dsimp only
  rw [if_neg hpath, hoperator]

/-- What a rule is compiled to. -/
theorem compileAssetQueryRule_cases {select : Select} {scope : String}
    (h : compileAssetQueryRule rt rule = .ok (select, scope)) :
    strip rule.fieldPath ≠ "" ∧
      (Operator.ofText (rt.lower rule.operator) = some .notExists ∧
          select = .cardsWithout (strip rule.fieldPath) ∧ scope = "host" ∨
        ∃ operator condition, Operator.ofText (rt.lower rule.operator) = some operator ∧
          operator ≠ .notExists ∧
          compileCondition rt operator (strip rule.fieldPath) rule.value = .ok condition ∧
          select = .rows (strip rule.fieldPath) condition ∧ scope = "entity") := by
  by_cases hpath : strip rule.fieldPath = ""
  · unfold compileAssetQueryRule at h
    dsimp only at h
    rw [if_pos hpath] at h
    cases h
  · refine ⟨hpath, ?_⟩
    cases hoperator : Operator.ofText (rt.lower rule.operator) with
    | none =>
        unfold compileAssetQueryRule at h
        dsimp only at h
        rw [if_neg hpath, hoperator] at h
        cases h
    | some operator =>
        by_cases hne : operator = .notExists
        · subst hne
          rw [compileAssetQueryRule_notExists hpath hoperator] at h
          cases h
          exact .inl ⟨rfl, rfl, rfl⟩
        · rw [compileAssetQueryRule_eq hpath hoperator hne] at h
          cases hcondition : compileCondition rt operator (strip rule.fieldPath) rule.value with
          | error message =>
              rw [hcondition] at h
              cases h
          | ok condition =>
              rw [hcondition] at h
              cases h
              exact .inr ⟨operator, condition, rfl, hne, hcondition, rfl, rfl⟩

theorem mem_ruleMeaning {operator : Operator}
    (hoperator : Operator.ofText (rt.lower rule.operator) = some operator)
    (hne : operator ≠ .notExists) (pair : Pair) :
    pair ∈ ruleMeaning index rule ↔
      ∃ row ∈ index.field (strip rule.fieldPath),
        pair = (row.1, some row.2.entityPath) ∧ Satisfies rt rule.value row.2 operator := by
  unfold ruleMeaning
  rw [Set.mem_ofPred_eq, hoperator]
  cases operator <;> first | rfl | exact absurd rfl hne

theorem mem_ruleMeaning_notExists
    (hoperator : Operator.ofText (rt.lower rule.operator) = some .notExists) (pair : Pair) :
    pair ∈ ruleMeaning index rule ↔ pair.1 ∈ index.cards ∧ pair.2 = none ∧
      ∀ row ∈ index.field (strip rule.fieldPath), row.1 ≠ pair.1 := by
  unfold ruleMeaning
  rw [Set.mem_ofPred_eq, hoperator]

theorem indexed_of_mem_field {fieldPath : String} {row : String × SearchRow}
    (h : row ∈ index.field fieldPath) :
    Indexed rt row.2 :=
  index.indexed row (List.mem_of_mem_filter h)

theorem mem_selects_cardsWithout (fieldPath : String) (pair : Pair) :
    (∃ pairs, (Select.cardsWithout fieldPath).selects index = some pairs ∧ pair ∈ pairs) ↔
      pair.1 ∈ index.cards ∧ pair.2 = none ∧ ∀ row ∈ index.field fieldPath, row.1 ≠ pair.1 := by
  unfold Select.selects
  simp only [Option.some.injEq, exists_eq_left', List.mem_map, List.mem_filter,
    Bool.not_eq_true', List.any_eq_false, decide_eq_true_eq]
  constructor
  · rintro ⟨card, ⟨hcard, hrows⟩, rfl⟩
    exact ⟨hcard, rfl, hrows⟩
  · rintro ⟨hcard, hnone, hrows⟩
    exact ⟨pair.1, ⟨hcard, hrows⟩, Prod.ext rfl hnone.symm⟩

theorem selects_rows {fieldPath : String} {condition : Condition}
    (h : ∀ row ∈ index.field fieldPath, (condition.holds rt row.2).isSome = true) :
    ∃ pairs, (Select.rows fieldPath condition).selects index = some pairs ∧
      ∀ pair, pair ∈ pairs ↔ ∃ row ∈ index.field fieldPath,
        pair = (row.1, some row.2.entityPath) ∧ condition.holds rt row.2 = some true := by
  unfold Select.selects
  rw [if_pos (List.all_eq_true.2 h)]
  refine ⟨_, rfl, fun pair => ?_⟩
  simp only [List.mem_map, List.mem_filter, decide_eq_true_eq]
  constructor
  · rintro ⟨row, ⟨hrow, hholds⟩, rfl⟩
    exact ⟨row, hrow, rfl, hholds⟩
  · rintro ⟨row, hrow, rfl, hholds⟩
    exact ⟨row, ⟨hrow, hholds⟩, rfl⟩

/-- A rule that reads its field literally selects its pairs. -/
theorem compileAssetQueryRule_spec {select : Select} {scope : String}
    (h : compileAssetQueryRule rt rule = .ok (select, scope)) (hliteral : LiteralOn index rule) :
    ∃ pairs, select.selects index = some pairs ∧
      ∀ pair, pair ∈ pairs ↔ pair ∈ ruleMeaning index rule := by
  obtain ⟨_, ⟨hoperator, rfl, _⟩ | ⟨operator, condition, hoperator, hne, hcondition, rfl, _⟩⟩ :=
    compileAssetQueryRule_cases h
  · refine ⟨_, rfl, fun pair => ?_⟩
    rw [mem_ruleMeaning_notExists hoperator, ← mem_selects_cardsWithout]
    constructor
    · exact fun hpair => ⟨_, rfl, hpair⟩
    · rintro ⟨_, hsome, hpair⟩
      rw [Option.some.inj hsome]
      exact hpair
  · have hholds := fun row (hrow : row ∈ index.field (strip rule.fieldPath)) =>
      (holds_iff (indexed_of_mem_field hrow) hcondition).2 (hliteral operator hoperator row hrow)
    obtain ⟨pairs, hpairs, hmem⟩ := selects_rows fun row hrow => (hholds row hrow).1
    refine ⟨pairs, hpairs, fun pair => ?_⟩
    rw [hmem, mem_ruleMeaning hoperator hne]
    refine exists_congr fun row => and_congr_right fun hrow => and_congr_right fun _ => ?_
    exact (hholds row hrow).2

end Rules

/-! ## Groups -/

/-- The pairs of a part, under the scope of its group. -/
def partSet (scope : String) (pairs : Set Pair) : Set Pair :=
  { pair | if scope = "host" then pair.2 = none ∧ pair.1 ∈ assetsOf pairs else pair ∈ pairs }

/-- A list of pairs, as a set. -/
def pairSet (pairs : List Pair) : Set Pair :=
  { pair | pair ∈ pairs }

section Groups

variable {index : Index rt}

theorem meanings_eq (queries : List Query) :
    meanings index queries = queries.map (meaning index) := by
  induction queries with
  | nil => rfl
  | cons query queries ih => rw [meanings, ih, List.map_cons]

theorem mem_collectAll {rule : Rule} {queries : List Query} :
    rule ∈ collectAll queries ↔ ∃ query ∈ queries, rule ∈ collectRules query := by
  induction queries with
  | nil => simp [collectAll]
  | cons query queries ih =>
      rw [collectAll, List.mem_append, ih]
      simp

theorem mem_combinePairs {intersect : Bool} {results : List (List Pair)} (h : results ≠ [])
    (pair : Pair) :
    pair ∈ combinePairs intersect results ↔
      if intersect then ∀ pairs ∈ results, pair ∈ pairs else ∃ pairs ∈ results, pair ∈ pairs := by
  cases results with
  | nil => exact absurd rfl h
  | cons first rest =>
      unfold combinePairs
      dsimp only
      cases intersect with
      | true =>
          rw [if_pos rfl, if_pos rfl, List.mem_filter, mem_fromKeys, List.all_eq_true,
            List.forall_mem_cons]
          simp only [decide_eq_true_eq]
      | false =>
          rw [if_neg Bool.false_ne_true, if_neg Bool.false_ne_true, mem_fromKeys, List.mem_append,
            List.mem_flatten]
          simp

/-- The pairs of a group are those of its parts, combined. -/
theorem mem_groupMeaning {combinator scope : String} {parts : List (Set Pair)}
    (h : parts ≠ []) (pair : Pair) :
    pair ∈ groupMeaning combinator scope parts ↔
      if combinator = "and" then ∀ part ∈ parts, pair ∈ partSet scope part
      else ∃ part ∈ parts, pair ∈ partSet scope part := by
  unfold groupMeaning partSet
  simp only [Set.mem_ofPred_eq]
  obtain ⟨part, hpart⟩ := List.exists_mem_of_ne_nil parts h
  by_cases hscope : scope = "host"
  · simp only [if_pos hscope]
    by_cases hand : combinator = "and"
    · simp only [if_pos hand]
      constructor
      · intro hall part hpart
        exact ⟨hall.1, hall.2 part hpart⟩
      · intro hall
        exact ⟨(hall part hpart).1, fun other hother => (hall other hother).2⟩
    · simp only [if_neg hand]
      constructor
      · rintro ⟨hnone, other, hother, hasset⟩
        exact ⟨other, hother, hnone, hasset⟩
      · rintro ⟨other, hother, hnone, hasset⟩
        exact ⟨hnone, other, hother, hasset⟩
  · simp only [if_neg hscope]

/-- What is selected from a part, under the scope of its group. -/
theorem selects_compilePart {scope : String} {child : Select × String} {part : Select}
    (h : compilePart scope child = .ok part) {pairs : List Pair}
    (hpairs : child.1.selects index = some pairs) :
    ∃ results, part.selects index = some results ∧
      ∀ pair, pair ∈ results ↔ pair ∈ partSet scope (pairSet pairs) := by
  unfold compilePart at h
  unfold partSet pairSet assetsOf
  by_cases hscope : scope = "host"
  · rw [if_pos hscope] at h
    cases h
    unfold Select.selects
    rw [hpairs]
    refine ⟨_, rfl, fun pair => ?_⟩
    simp only [mem_fromKeys, List.mem_map, Set.mem_ofPred_eq, if_pos hscope]
    constructor
    · rintro ⟨source, hsource, rfl⟩
      exact ⟨rfl, source.2, hsource⟩
    · rintro ⟨hnone, entity, hmem⟩
      exact ⟨(pair.1, entity), hmem, Prod.ext rfl hnone.symm⟩
  · rw [if_neg hscope] at h
    split at h
    · cases h
    · cases h
      refine ⟨pairs, hpairs, fun pair => ?_⟩
      simp only [Set.mem_ofPred_eq, if_neg hscope]

/-- What is selected from the parts of a group. -/
theorem compileParts_spec {scope : String} {queries : List Query} {parts : List Select}
    (hqueries : ∀ query ∈ queries, ∀ select childScope,
      compileAssetQueryNode rt query = .ok (select, childScope) →
        ∃ pairs, select.selects index = some pairs ∧
          ∀ pair, pair ∈ pairs ↔ pair ∈ meaning index query)
    (h : compileParts rt scope queries = .ok parts) :
    ∃ results, selectsAll index parts = some results ∧
      results.map pairSet = queries.map fun query => partSet scope (meaning index query) := by
  induction queries generalizing parts with
  | nil =>
      cases h
      exact ⟨[], rfl, rfl⟩
  | cons query queries ih =>
      rw [compileParts] at h
      cases hchild : compileAssetQueryNode rt query with
      | error message =>
          rw [hchild] at h
          cases h
      | ok child =>
          rw [hchild, Except.bind] at h
          cases hpart : compilePart scope child with
          | error message =>
              rw [hpart] at h
              cases h
          | ok part =>
              rw [hpart, Except.bind] at h
              cases hrest : compileParts rt scope queries with
              | error message =>
                  rw [hrest] at h
                  cases h
              | ok rest =>
                  rw [hrest] at h
                  cases h
                  obtain ⟨pairs, hpairs, hmem⟩ :=
                    hqueries query List.mem_cons_self child.1 child.2 hchild
                  obtain ⟨result, hresult, hset⟩ := selects_compilePart hpart hpairs
                  obtain ⟨results, hresults, hsets⟩ :=
                    ih (fun other hother => hqueries other (List.mem_cons_of_mem _ hother)) hrest
                  have hsame : pairSet pairs = meaning index query := Set.ext hmem
                  refine ⟨result :: results, ?_, ?_⟩
                  · rw [selectsAll, hresult, hresults]
                    rfl
                  · rw [List.map_cons, List.map_cons, hsets, ← hsame]
                    exact congrArg (· :: _) (Set.ext hset)

theorem forall_mem_results_iff {scope : String} {results : List (List Pair)}
    {queries : List Query}
    (h : results.map pairSet = queries.map fun query => partSet scope (meaning index query))
    {pair : Pair} :
    (∀ pairs ∈ results, pair ∈ pairs) ↔
      ∀ part ∈ queries.map (meaning index), pair ∈ partSet scope part := by
  have hsets : (∀ pairs ∈ results, pair ∈ pairs) ↔
      ∀ part ∈ results.map pairSet, pair ∈ part := by
    rw [List.forall_mem_map]
    rfl
  rw [hsets, h, List.forall_mem_map, List.forall_mem_map]

theorem exists_mem_results_iff {scope : String} {results : List (List Pair)}
    {queries : List Query}
    (h : results.map pairSet = queries.map fun query => partSet scope (meaning index query))
    {pair : Pair} :
    (∃ pairs ∈ results, pair ∈ pairs) ↔
      ∃ part ∈ queries.map (meaning index), pair ∈ partSet scope part := by
  have hsets : (∃ pairs ∈ results, pair ∈ pairs) ↔
      ∃ part ∈ results.map pairSet, pair ∈ part := by
    simp only [List.mem_map, exists_exists_and_eq_and]
    rfl
  rw [hsets, h]
  simp only [List.mem_map, exists_exists_and_eq_and]

/-- The children of a group that is accepted are accepted. -/
theorem exists_of_validateAll {depth : Nat} {parentScope : String} {queries : List Query}
    {count : Nat} (h : validateAll rt depth parentScope queries = .ok count) {query : Query}
    (hquery : query ∈ queries) :
    ∃ n, validateAssetQueryTree rt depth parentScope query = .ok n := by
  induction queries generalizing count with
  | nil => cases hquery
  | cons first queries ih =>
      rw [validateAll] at h
      cases hfirst : validateAssetQueryTree rt depth parentScope first with
      | error message =>
          rw [hfirst] at h
          cases h
      | ok n =>
          rw [hfirst, Except.bind] at h
          cases hrest : validateAll rt depth parentScope queries with
          | error message =>
              rw [hrest] at h
              cases h
          | ok m =>
              rcases List.mem_cons.1 hquery with rfl | hmem
              · exact ⟨n, hfirst⟩
              · exact ih hrest hmem

/-- What is known of a group that is accepted. -/
structure AcceptedGroup (rt : Runtime) (depth : Nat) (parentScope combinator scope : String)
    (rules : List Query) : Prop where
  joined : combinator = "and" ∨ combinator = "or"
  placed : scope = "host" ∨ scope = "same_entity"
  nested : parentScope = "same_entity" → scope = "same_entity"
  ruled : rules ≠ []
  children : ∀ query ∈ rules,
    ∃ n, validateAssetQueryTree rt (depth + 1) scope query = .ok n

theorem acceptedGroup {depth : Nat} {parentScope combinator matchScope : String}
    {rules : List Query} {count : Nat}
    (h : validateAssetQueryTree rt depth parentScope (.group combinator matchScope rules) =
      .ok count) :
    AcceptedGroup rt depth parentScope (rt.combinator combinator) (rt.scope matchScope) rules := by
  rw [validateAssetQueryTree] at h
  generalize rt.combinator combinator = combinator at h ⊢
  generalize rt.scope matchScope = scope at h ⊢
  unfold checkGroup at h
  split at h
  · cases h
  · split at h
    · cases h
    · split at h
      · cases h
      · rename_i hallowed hparent
        push Not at hallowed
        rw [Except.bind] at h
        split at h
        · cases h
        · rename_i hempty
          cases hall : validateAll rt (depth + 1) scope rules with
          | error message =>
              rw [hall] at h
              cases h
          | ok n =>
              refine ⟨by simpa using hallowed.1, by simpa using hallowed.2, fun hentity => ?_,
                fun hnil => hempty (List.isEmpty_iff.2 hnil),
                fun query hquery => exists_of_validateAll hall hquery⟩
              rcases (by simpa using hallowed.2 : scope = "host" ∨ scope = "same_entity") with
                hhost | hsame
              · exact absurd ⟨hentity, hhost⟩ hparent
              · exact hsame

/-- A tree whose rules read their fields literally selects its pairs. -/
theorem compileAssetQueryNode_spec {query : Query} :
    ∀ {depth : Nat} {parentScope : String} {count : Nat} {select : Select} {scope : String},
      validateAssetQueryTree rt depth parentScope query = .ok count →
      (∀ rule ∈ collectRules query, LiteralOn index rule) →
      compileAssetQueryNode rt query = .ok (select, scope) →
      ∃ pairs, select.selects index = some pairs ∧
        ∀ pair, pair ∈ pairs ↔ pair ∈ meaning index query := by
  induction query using Query.induct with
  | notObject =>
      intro _ _ _ _ _ h
      cases h
  | rule rule =>
      intro _ _ _ _ _ _ hliteral hcompile
      rw [compileAssetQueryNode] at hcompile
      rw [meaning]
      exact compileAssetQueryRule_spec hcompile
        (hliteral rule (by rw [collectRules]; exact List.mem_singleton_self _))
  | withoutRules combinator matchScope =>
      intro depth parentScope count select scope h
      rw [validateAssetQueryTree] at h
      cases hcheck : checkGroup depth parentScope (rt.combinator combinator)
          (rt.scope matchScope) with
      | error message =>
          rw [hcheck] at h
          cases h
      | ok _ =>
          rw [hcheck] at h
          cases h
  | group combinator matchScope rules ih =>
      intro depth parentScope count select scope h hliteral hcompile
      have hgroup := acceptedGroup h
      rw [compileAssetQueryNode] at hcompile
      rw [collectRules] at hliteral
      cases hparts : compileParts rt (rt.scope matchScope) rules with
      | error message =>
          rw [hparts] at hcompile
          cases hcompile
      | ok parts =>
          rw [hparts] at hcompile
          cases hcompile
          obtain ⟨results, hresults, hsets⟩ := compileParts_spec
            (fun child hchild select childScope hselect => by
              obtain ⟨n, hn⟩ := hgroup.children child hchild
              exact ih child hchild hn (fun rule hrule =>
                hliteral rule (mem_collectAll.2 ⟨child, hchild, hrule⟩)) hselect) hparts
          have hne : results ≠ [] := by
            rintro rfl
            exact hgroup.ruled (List.map_eq_nil_iff.1 hsets.symm)
          have hparts' : rules.map (meaning index) ≠ [] :=
            mt List.map_eq_nil_iff.1 hgroup.ruled
          refine ⟨combinePairs (decide (rt.combinator combinator = "and")) results, ?_,
            fun pair => ?_⟩
          · rw [Select.selects, hresults]
            rfl
          · rw [mem_combinePairs hne, meaning, meanings_eq, mem_groupMeaning hparts']
            simp only [decide_eq_true_eq, forall_mem_results_iff hsets,
              exists_mem_results_iff hsets]

end Groups

/-! ## Compilation -/

/-- An operator takes the value of a rule. -/
def Takes (rt : Runtime) (fieldPath : String) (value : Json) : Operator → Prop
  | .inCidr => fieldPath = "asset.ipAddress" ∧
      (Ip.ipNetwork (strip (rt.orEmpty value)).toList).isSome = true
  | .isIn => inValues rt value ≠ []
  | .gt | .gte | .lt | .lte => (rt.float value).isSome = true
  | _ => True

/-- A rule has a field and a supported operator that takes its value. -/
def Supported (rt : Runtime) (rule : Rule) : Prop :=
  strip rule.fieldPath ≠ "" ∧
    ∃ operator, Operator.ofText (rt.lower rule.operator) = some operator ∧
      Takes rt (strip rule.fieldPath) rule.value operator

mutual

/-- The rules that stand in a group for one entity. -/
def entityRules (rt : Runtime) : Query → List Rule
  | .notObject => []
  | .rule _ => []
  | .withoutRules _ _ => []
  | .group _ matchScope rules =>
      if rt.scope matchScope = "same_entity" then collectAll rules else entityRulesAll rt rules

def entityRulesAll (rt : Runtime) : List Query → List Rule
  | [] => []
  | query :: queries => entityRules rt query ++ entityRulesAll rt queries

end

section Compilation

variable {index : Index rt}

theorem mem_entityRulesAll {rule : Rule} {queries : List Query} :
    rule ∈ entityRulesAll rt queries ↔ ∃ query ∈ queries, rule ∈ entityRules rt query := by
  induction queries with
  | nil => simp [entityRulesAll]
  | cons query queries ih =>
      rw [entityRulesAll, List.mem_append, ih]
      simp

theorem collectRules_of_entityRules {query : Query} :
    ∀ {rule : Rule}, rule ∈ entityRules rt query → rule ∈ collectRules query := by
  induction query using Query.induct with
  | notObject => exact fun h => nomatch h
  | rule rule => exact fun h => nomatch h
  | withoutRules combinator matchScope => exact fun h => nomatch h
  | group combinator matchScope rules ih =>
      intro rule h
      rw [entityRules] at h
      rw [collectRules]
      split at h
      · exact h
      · obtain ⟨query, hquery, hrule⟩ := mem_entityRulesAll.1 h
        exact mem_collectAll.2 ⟨query, hquery, ih query hquery hrule⟩

theorem exists_compileNumber {operator : String} {comparison : Comparison} {value : Json}
    (h : (rt.float value).isSome = true) :
    ∃ condition, compileNumber rt operator comparison value = .ok condition := by
  obtain ⟨number, hnumber⟩ := Option.isSome_iff_exists.1 h
  unfold compileNumber
  rw [hnumber]
  exact ⟨_, rfl⟩

theorem exists_compileCondition {operator : Operator} {fieldPath : String} {value : Json}
    (h : Takes rt fieldPath value operator) :
    ∃ condition, compileCondition rt operator fieldPath value = .ok condition := by
  cases operator with
  | inCidr =>
      obtain ⟨hpath, hnetwork⟩ := h
      obtain ⟨network, hnetwork⟩ := Option.isSome_iff_exists.1 hnetwork
      unfold compileCondition
      dsimp only
      rw [if_neg (not_not.2 hpath), hnetwork]
      exact ⟨_, rfl⟩
  | isIn =>
      unfold compileCondition
      dsimp only
      rw [if_neg (mt List.isEmpty_iff.1 h)]
      exact ⟨_, rfl⟩
  | gt => exact exists_compileNumber h
  | gte => exact exists_compileNumber h
  | lt => exact exists_compileNumber h
  | lte => exact exists_compileNumber h
  | _ => exact ⟨_, rfl⟩

theorem exists_compileAssetQueryRule {rule : Rule} (h : Supported rt rule) :
    ∃ select scope, compileAssetQueryRule rt rule = .ok (select, scope) ∧
      (rt.lower rule.operator ≠ "not_exists" → scope ≠ "host") := by
  obtain ⟨hpath, operator, hoperator, htakes⟩ := h
  by_cases hne : operator = .notExists
  · subst hne
    exact ⟨_, _, compileAssetQueryRule_notExists hpath hoperator,
      fun hnot => absurd (Operator.eq_of_ofText hoperator) hnot⟩
  · obtain ⟨condition, hcondition⟩ := exists_compileCondition htakes
    rw [compileAssetQueryRule_eq hpath hoperator hne, hcondition]
    exact ⟨_, _, rfl, fun _ => by decide⟩

theorem exists_compileParts {scope : String} {queries : List Query}
    (h : ∀ query ∈ queries, ∃ select childScope,
      compileAssetQueryNode rt query = .ok (select, childScope) ∧
        (scope ≠ "host" → childScope ≠ "host")) :
    ∃ parts, compileParts rt scope queries = .ok parts := by
  induction queries with
  | nil => exact ⟨[], rfl⟩
  | cons query queries ih =>
      obtain ⟨select, childScope, hchild, hscope⟩ := h query List.mem_cons_self
      obtain ⟨parts, hparts⟩ := ih fun other hother => h other (List.mem_cons_of_mem _ hother)
      obtain ⟨part, hpart⟩ : ∃ part, compilePart scope (select, childScope) = .ok part := by
        unfold compilePart
        by_cases hhost : scope = "host"
        · rw [if_pos hhost]
          exact ⟨_, rfl⟩
        · rw [if_neg hhost, if_neg (hscope hhost)]
          exact ⟨_, rfl⟩
      rw [compileParts, hchild, Except.bind, hpart, Except.bind, hparts]
      exact ⟨_, rfl⟩

/-- A tree of supported rules is compiled. -/
theorem exists_compileAssetQueryNode {query : Query} :
    ∀ {depth : Nat} {parentScope : String} {count : Nat},
      validateAssetQueryTree rt depth parentScope query = .ok count →
      (∀ rule ∈ collectRules query, Supported rt rule) →
      (∀ rule ∈ entityRules rt query, rt.lower rule.operator ≠ "not_exists") →
      ∃ select scope, compileAssetQueryNode rt query = .ok (select, scope) ∧
        (parentScope = "same_entity" →
          (∀ rule ∈ collectRules query, rt.lower rule.operator ≠ "not_exists") →
            scope ≠ "host") := by
  induction query using Query.induct with
  | notObject =>
      intro _ _ _ h
      cases h
  | rule rule =>
      intro _ _ _ _ hsupported _
      rw [compileAssetQueryNode]
      rw [collectRules] at hsupported ⊢
      obtain ⟨select, scope, hselect, hscope⟩ :=
        exists_compileAssetQueryRule (hsupported rule (List.mem_singleton_self _))
      exact ⟨select, scope, hselect, fun _ hnot => hscope (hnot rule (List.mem_singleton_self _))⟩
  | withoutRules combinator matchScope =>
      intro depth parentScope count h
      rw [validateAssetQueryTree] at h
      cases hcheck : checkGroup depth parentScope (rt.combinator combinator)
          (rt.scope matchScope) with
      | error message =>
          rw [hcheck] at h
          cases h
      | ok _ =>
          rw [hcheck] at h
          cases h
  | group combinator matchScope rules ih =>
      intro depth parentScope count h hsupported hentity
      have hgroup := acceptedGroup h
      rw [collectRules] at hsupported
      rw [entityRules] at hentity
      have hchildren : ∀ child ∈ rules, ∃ select childScope,
          compileAssetQueryNode rt child = .ok (select, childScope) ∧
            (rt.scope matchScope ≠ "host" → childScope ≠ "host") := by
        intro child hchild
        obtain ⟨n, hn⟩ := hgroup.children child hchild
        have hrules : ∀ rule ∈ collectRules child, rule ∈ collectAll rules :=
          fun rule hrule => mem_collectAll.2 ⟨child, hchild, hrule⟩
        by_cases hsame : rt.scope matchScope = "same_entity"
        · rw [if_pos hsame] at hentity
          obtain ⟨select, scope, hselect, hscope⟩ := ih child hchild hn
            (fun rule hrule => hsupported rule (hrules rule hrule))
            fun rule hrule => hentity rule (hrules rule (collectRules_of_entityRules hrule))
          exact ⟨select, scope, hselect, fun _ =>
            hscope hsame fun rule hrule => hentity rule (hrules rule hrule)⟩
        · rw [if_neg hsame] at hentity
          obtain ⟨select, scope, hselect, _⟩ := ih child hchild hn
            (fun rule hrule => hsupported rule (hrules rule hrule))
            fun rule hrule => hentity rule (mem_entityRulesAll.2 ⟨child, hchild, hrule⟩)
          refine ⟨select, scope, hselect, fun hhost => ?_⟩
          rcases hgroup.placed with hplaced | hplaced
          · exact absurd hplaced hhost
          · exact absurd hplaced hsame
      obtain ⟨parts, hparts⟩ := exists_compileParts hchildren
      rw [compileAssetQueryNode, hparts]
      refine ⟨_, _, rfl, fun hparent _ => ?_⟩
      rw [hgroup.nested hparent]
      decide

end Compilation

/-! ## Trees -/

/--
A tree whose rules are supported is compiled, and a compiled tree selects the assets that it stands
for.
-/
def QueryExact (index : Index rt) (query : Query) : Prop :=
  ((∀ rule ∈ collectRules query, Supported rt rule) →
    ∃ compiled, compileAssetQueryNode rt query = .ok compiled) ∧
  ∀ select scope, compileAssetQueryNode rt query = .ok (select, scope) →
    ∃ pairs, select.selects index = some pairs ∧
      ∀ asset, asset ∈ pairs.map Prod.fst ↔ asset ∈ assetsOf (meaning index query)

theorem mem_assetsOf_iff {pairs : List Pair} {set : Set Pair}
    (h : ∀ pair, pair ∈ pairs ↔ pair ∈ set) (asset : String) :
    asset ∈ pairs.map Prod.fst ↔ asset ∈ assetsOf set := by
  unfold assetsOf
  rw [List.mem_map, Set.mem_ofPred_eq]
  constructor
  · rintro ⟨pair, hpair, rfl⟩
    exact ⟨pair.2, (h pair).1 hpair⟩
  · rintro ⟨entity, hmem⟩
    exact ⟨(asset, entity), (h _).2 hmem, rfl⟩

theorem queryExact_of_literal {index : Index rt} {query : Query} {count : Nat}
    (haccepted : validateAssetQueryTree rt 0 "" query = .ok count)
    (hliteral : ∀ rule ∈ collectRules query, LiteralOn index rule)
    (hentity : ∀ rule ∈ entityRules rt query, rt.lower rule.operator ≠ "not_exists") :
    QueryExact index query := by
  refine ⟨fun hsupported => ?_, fun select scope hcompile => ?_⟩
  · obtain ⟨select, scope, hcompile, _⟩ :=
      exists_compileAssetQueryNode haccepted hsupported hentity
    exact ⟨(select, scope), hcompile⟩
  · obtain ⟨pairs, hpairs, hmem⟩ := compileAssetQueryNode_spec haccepted hliteral hcompile
    exact ⟨pairs, hpairs, mem_assetsOf_iff hmem⟩

/-- The index of one row. -/
def singleRow {row : SearchRow} (h : Indexed rt row) : Index rt where
  cards := ["asset"]
  rows := [("asset", row)]
  known := by
    intro other hother
    rw [List.mem_singleton.1 hother]
    exact List.mem_singleton_self _
  indexed := by
    intro other hother
    rw [List.mem_singleton.1 hother]
    exact h

/-- A rule that is exact whatever is stored reads whatever is stored literally. -/
theorem literal_of_queryExact {rule : Rule} {operator : Operator} {row : SearchRow}
    (h : ∀ index : Index rt, QueryExact index (.rule rule)) (hsupported : Supported rt rule)
    (hoperator : Operator.ofText (rt.lower rule.operator) = some operator)
    (hrow : Indexed rt row) (hfield : row.fieldPath = strip rule.fieldPath) :
    Literal rt rule.value row operator := by
  by_cases hne : operator = .notExists
  · subst hne
    trivial
  obtain ⟨hpath, operator', hoperator', htakes⟩ := hsupported
  rw [hoperator] at hoperator'
  cases hoperator'
  obtain ⟨condition, hcondition⟩ := exists_compileCondition htakes
  have hcompile : compileAssetQueryNode rt (.rule rule) =
      .ok (.rows (strip rule.fieldPath) condition, "entity") := by
    rw [compileAssetQueryNode, compileAssetQueryRule_eq hpath hoperator hne, hcondition]
    rfl
  obtain ⟨pairs, hpairs, hassets⟩ := (h (singleRow hrow)).2 _ _ hcompile
  have hfieldRows : (singleRow hrow).field (strip rule.fieldPath) = [("asset", row)] := by
    unfold Index.field
    exact List.filter_eq_self.2 fun other hother => by
      rw [List.mem_singleton.1 hother]
      exact decide_eq_true hfield
  rw [← holds_iff hrow hcondition]
  have hsome : (condition.holds rt row).isSome = true := by
    by_contra hnone
    rw [Select.selects, hfieldRows, if_neg (by simpa using hnone)] at hpairs
    cases hpairs
  refine ⟨hsome, ?_⟩
  obtain ⟨pairs', hpairs', hmem⟩ := @selects_rows rt (singleRow hrow) (strip rule.fieldPath)
    condition fun other hother => by
      rw [hfieldRows] at hother
      rw [List.mem_singleton.1 hother]
      exact hsome
  rw [hpairs] at hpairs'
  cases hpairs'
  have hselected : "asset" ∈ pairs.map Prod.fst ↔ condition.holds rt row = some true := by
    rw [List.mem_map]
    constructor
    · rintro ⟨pair, hpair, _⟩
      obtain ⟨other, hother, _, hholds⟩ := (hmem pair).1 hpair
      rw [hfieldRows] at hother
      rw [List.mem_singleton.1 hother] at hholds
      exact hholds
    · intro hholds
      exact ⟨_, (hmem _).2 ⟨("asset", row), hfieldRows ▸ List.mem_singleton_self _, rfl, hholds⟩,
        rfl⟩
  have hmeant : "asset" ∈ assetsOf (meaning (singleRow hrow) (.rule rule)) ↔
      Satisfies rt rule.value row operator := by
    rw [meaning]
    unfold assetsOf
    rw [Set.mem_ofPred_eq]
    constructor
    · rintro ⟨entity, hpair⟩
      obtain ⟨other, hother, _, hsatisfies⟩ := (mem_ruleMeaning hoperator hne _).1 hpair
      rw [hfieldRows] at hother
      rw [List.mem_singleton.1 hother] at hsatisfies
      exact hsatisfies
    · intro hsatisfies
      exact ⟨_, (mem_ruleMeaning hoperator hne _).2
        ⟨("asset", row), hfieldRows ▸ List.mem_singleton_self _, rfl, hsatisfies⟩⟩
  rw [← hselected, ← hmeant]
  exact hassets "asset"

/-- A runtime for texts in ASCII and whole numbers. -/
def asciiRuntime : Runtime where
  coercions := SnapshotDocs.plainCoercions
  tables := CharTables.ascii
  float := fun value => (SnapshotDocs.plainCoercions.decimal value).map fun q : Rat =>
    .number (q : WithTop Rat)
  numeric := fun text =>
    match SnapshotDocs.plainCoercions.decimal (.num text) with
    | some q => .number ((q : Rat) : WithTop Rat)
    | none => .nan
  md5 := id
  Inet := Ip.IpAddress
  inet := fun text => Ip.ipAddress text.toList
  within := fun address network =>
    decide (address.clearHost network.prefixlen = network.address)

theorem osName_given : "asset.osName" ≠ "" := by
  decide

/-- A rule that looks for a text in the name of the operating system. -/
def osNameContains (text : String) : Rule :=
  ⟨"asset.osName", "contains", .str text, osName_given⟩

theorem indexed_osName :
    Indexed asciiRuntime (textRow asciiRuntime.tables "asset" "asset.osName" "osName" "abc") :=
  .text "asset" "asset.osName" "osName" "abc" (by decide)

theorem supported_osNameContains (text : String) :
    Supported asciiRuntime (osNameContains text) := by
  have hpath : strip "asset.osName" ≠ "" := by
    decide +kernel
  have hoperator : Operator.ofText (asciiRuntime.lower "contains") = some .contains := by
    decide +kernel
  exact ⟨hpath, .contains, hoperator, trivial⟩

theorem literalOn_osNameContains (index : Index asciiRuntime) :
    LiteralOn index (osNameContains "ab") := by
  intro operator hoperator row _
  have hcontains : Operator.ofText (asciiRuntime.lower (osNameContains "ab").operator) =
      some .contains := by
    decide +kernel
  rw [hcontains] at hoperator
  cases hoperator
  refine (literal_contains_of_plain (by decide +kernel) ?_).1
  have hplain : (asciiRuntime.lower (asciiRuntime.spoken (.str "ab"))).toList.all isPlain =
      true := by
    decide +kernel
  exact List.all_eq_true.1 hplain

end FieldQuery
end AssetCard
end MpvmApp
