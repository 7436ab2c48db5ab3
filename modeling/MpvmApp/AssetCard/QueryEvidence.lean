import MpvmApp.AssetCard.FieldQueryMeaning

/-!
# Evidence of queries by fields

For each asset that a query selects, the stored values are shown that match one of its rules.  The
operators are read once more for this, in Python.

Main definitions:

- `evidenceMatches`: a stored value matches a rule, as it is shown.
- `matchesOf`: the values that are shown of an asset.
- `Shown`: the two readings of an operator agree on a stored value.

Main results:

- Theorem `holds_eq_evidence_iff`: the condition of a rule and the evidence agree on the rows
  on which the readings of the operator do.
- Theorem `exists_selected_row`: a selected asset has a row that a rule selects.
- Theorem `evidence_exact_iff`: when the evidence is what the statement selects.
-/

namespace MpvmApp
namespace AssetCard
namespace FieldQuery

open Sql
open SearchIndex (SearchRow booleanRow numberRow textRow lowerOf)

/-! ## Evidence -/

/-- `left == right` of floating point numbers. -/
def Double.same : Double → Double → Bool
  | .number left, .number right => decide (left = right)
  | _, _ => false

/-- A comparison of floating point numbers. -/
def Double.compares (comparison : Comparison) : Double → Double → Bool
  | .number left, .number right => comparison.compare left right
  | _, _ => false

/-- `address in network`. -/
def addressIn (network : Ip.IpNetwork) : Ip.IpAddress → Bool
  | .v4 ip =>
      match network.address with
      | .v4 base => decide (ip &&& Ip.netmask 32 network.prefixlen = base)
      | .v6 _ _ => false
  | .v6 ip _ =>
      match network.address with
      | .v4 _ => false
      | .v6 base _ => decide (ip &&& Ip.netmask 128 network.prefixlen = base)

variable (rt : Runtime)

/-- The values of `in`, with those that are blank. -/
def evidenceValues : Json → List String
  | .arr items => items.map rt.coercions.text
  | value => ((rt.orEmpty value).toList.splitOn ',').map fun part => strip (String.ofList part)

/-- The number of a row and that of a rule satisfy a test. -/
def numbersMatch (test : Double → Double → Bool) (row : SearchRow) (value : Json) : Bool :=
  row.valueNumber.any fun number =>
    (rt.float value).any fun limit => test (rt.numeric number) limit

/-- A row matches an operator with a value; the row has no normalized text. -/
def operatorEvidence (row : SearchRow) (value : Json) : Operator → Bool
  | .exists => true
  | .notExists => false
  | .isTrue => row.valueBoolean.getD false
  | .isFalse => !row.valueBoolean.getD false
  | .equals => numbersMatch rt Double.same row value
  | .notEquals => numbersMatch rt (fun left right => !left.same right) row value
  | .gt => numbersMatch rt (Double.compares .gt) row value
  | .gte => numbersMatch rt (Double.compares .gte) row value
  | .lt => numbersMatch rt (Double.compares .lt) row value
  | .lte => numbersMatch rt (Double.compares .lte) row value
  | .isIn =>
      decide (rt.lower (row.valueText.getD "") ∈ (evidenceValues rt value).map rt.lower)
  | .inCidr =>
      match Ip.ipAddress (rt.lower (row.valueText.getD "")).toList,
        Ip.ipNetwork (strip (rt.orEmpty value)).toList with
      | some address, some network => addressIn network address
      | _, _ => false
  | .contains =>
      decide ((rt.lower (rt.orEmpty value)).toList <:+:
        (rt.lower (row.valueText.getD "")).toList)
  | .startsWith =>
      decide ((rt.lower (rt.orEmpty value)).toList <+:
        (rt.lower (row.valueText.getD "")).toList)

/-- `asset_query_evidence_matches`. -/
def evidenceMatches (row : SearchRow) (rule : Rule) : Bool :=
  match Operator.ofText (rt.lower rule.operator) with
  | some operator => operatorEvidence rt row rule.value operator
  | none => false

section Shown

variable {rt}

/-- The values that are shown of an asset. -/
def matchesOf (index : Index rt) (query : Query) (asset : String) : List (String × SearchRow) :=
  let rules := collectRules query
  let fieldPaths := fromKeys ((rules.filter fun rule =>
    decide (rule.operator ≠ "not_exists")).map Rule.fieldPath)
  let rows := index.rows.filter fun row =>
    decide (row.1 = asset) && decide (row.2.fieldPath ∈ fieldPaths)
  (rows.filter fun row =>
    (rules.filter fun rule => decide (rule.fieldPath = row.2.fieldPath)).any fun rule =>
      evidenceMatches rt row.2 rule).take 50

/-- The condition of a compiled rule on a row; `not_exists` does not hold of an asset with a
row of its field. -/
def conditionOn (rt : Runtime) (row : SearchRow) : Select → Option Bool
  | .rows _ condition => condition.holds rt row
  | _ => some false

/-- The evidence of every rule is what its condition says of the rows of its field. -/
def EvidenceExact (index : Index rt) (query : Query) : Prop :=
  ∀ rule ∈ collectRules query, ∀ select scope,
    compileAssetQueryRule rt rule = .ok (select, scope) →
      ∀ row ∈ index.field (strip rule.fieldPath),
        conditionOn rt row.2 select = some (evidenceMatches rt row.2 rule)

/-- Every asset that a query without `not_exists` selects shows a value. -/
def EvidenceShown (index : Index rt) (query : Query) : Prop :=
  (∀ rule ∈ collectRules query, rt.lower rule.operator ≠ "not_exists") →
    ∀ select scope pairs, compileAssetQueryNode rt query = .ok (select, scope) →
      select.selects index = some pairs →
        ∀ asset ∈ pairs.map Prod.fst, matchesOf index query asset ≠ []

/-- The two readings of an operator agree on a stored value. -/
def Shown (rt : Runtime) (value : Json) (row : SearchRow) : Operator → Prop
  | .exists | .notExists | .isIn | .isTrue => True
  | .isFalse => row.valueBoolean ≠ none
  | .equals =>
      (row.valueTextNormalized = some (rt.lower (rt.orEmpty value)) ↔
        numbersMatch rt Double.same row value = true)
  | .notEquals =>
      (row.valueTextNormalized ≠ some (rt.lower (rt.orEmpty value)) ↔
        numbersMatch rt (fun left right => !left.same right) row value = true)
  | .contains => ∀ text ∈ row.valueTextNormalized,
      (like ("%" ++ rt.lower (rt.orEmpty value) ++ "%") text = true ↔
        (rt.lower (rt.orEmpty value)).toList <:+: text.toList)
  | .startsWith => ∀ text ∈ row.valueTextNormalized,
      (like (rt.lower (rt.orEmpty value) ++ "%") text = true ↔
        (rt.lower (rt.orEmpty value)).toList <+: text.toList)
  | .gt => ∀ number ∈ row.valueNumber, ∀ limit ∈ rt.float value,
      NanFree (rt.numeric number) limit .gt
  | .gte => ∀ number ∈ row.valueNumber, ∀ limit ∈ rt.float value,
      NanFree (rt.numeric number) limit .gte
  | .lt => ∀ number ∈ row.valueNumber, ∀ limit ∈ rt.float value,
      NanFree (rt.numeric number) limit .lt
  | .lte => ∀ number ∈ row.valueNumber, ∀ limit ∈ rt.float value,
      NanFree (rt.numeric number) limit .lte
  | .inCidr => ∀ text ∈ row.valueTextNormalized,
      ∀ network ∈ Ip.ipNetwork (strip (rt.orEmpty value)).toList,
        ∃ stored, rt.inet text = some stored ∧
          (rt.within stored network = true ↔
            ∃ address, Ip.ipAddress text.toList = some address ∧ addressIn network address = true)

/-! ## One rule -/

/-- The lower case of a text that is not empty is not empty. -/
theorem lower_ne_empty {text : String} (h : text ≠ "") :
    rt.lower text ≠ "" := by
  intro hlower
  have hnil : rt.tables.lowerText text.toList = [] := by
    have hlist := congrArg String.toList hlower
    unfold Runtime.lower lowerOf at hlist
    rw [String.toList_ofList] at hlist
    exact hlist
  unfold CharTables.lowerText at hnil
  rw [List.flatMap_eq_nil_iff] at hnil
  cases htext : text.toList with
  | nil => exact h (String.toList_eq_nil_iff.1 htext)
  | cons c rest =>
      have hc : rt.tables.lower c = [] := hnil c (by rw [htext]; exact List.mem_cons_self)
      have hnone : ∀ d ∈ rt.tables.lower c, d.toNat < 128 := by
        rw [hc]
        exact fun d hd => nomatch hd
      rcases rt.tables.lower_cases hnone with ⟨_, hascii⟩ | ⟨_, hkelvin⟩
      · rw [hc] at hascii
        cases hascii
      · rw [hc] at hkelvin
        cases hkelvin

/-- The normalized text of a row is the lower case of its text. -/
theorem Indexed.text_eq {row : SearchRow} (h : Indexed rt row) :
    row.valueTextNormalized = some (rt.lower (row.valueText.getD "")) ∧
      rt.lower (row.valueText.getD "") ≠ "" := by
  cases h with
  | boolean entityPath fieldPath fieldName value =>
      have hlower : rt.lower (if value then "true" else "false") =
          if value then "true" else "false" := by
        unfold Runtime.lower lowerOf
        cases value with
        | true =>
            have hplain : "true".toList.all (fun c => decide (c.toNat < 128 ∧ c.toLower = c)) =
                true := by
              decide +kernel
            have hkeep := rt.tables.lowerText_eq_self fun c hc =>
              of_decide_eq_true (List.all_eq_true.1 hplain c hc)
            exact (congrArg String.ofList hkeep).trans (by decide +kernel)
        | false =>
            have hplain : "false".toList.all (fun c => decide (c.toNat < 128 ∧ c.toLower = c)) =
                true := by
              decide +kernel
            have hkeep := rt.tables.lowerText_eq_self fun c hc =>
              of_decide_eq_true (List.all_eq_true.1 hplain c hc)
            exact (congrArg String.ofList hkeep).trans (by decide +kernel)
      refine ⟨congrArg some hlower.symm, lower_ne_empty ?_⟩
      cases value with
      | true => exact (by decide : "true" ≠ "")
      | false => exact (by decide : "false" ≠ "")
  | number entityPath fieldPath fieldName value given lowered =>
      exact ⟨congrArg some lowered.symm, lower_ne_empty given⟩
  | text entityPath fieldPath fieldName text given =>
      exact ⟨rfl, lower_ne_empty given⟩

/-- Blank values of `in` match no row. -/
theorem mem_inValues_iff {value : Json} {text : String} (h : text ≠ "") :
    text ∈ (inValues rt value).map rt.lower ↔ text ∈ (evidenceValues rt value).map rt.lower := by
  have hblank : ∀ items : List String,
      text ∈ (items.filter fun item => decide (item ≠ "")).map rt.lower ↔
        text ∈ items.map rt.lower := by
    intro items
    simp only [List.mem_map, List.mem_filter, decide_eq_true_eq]
    constructor
    · rintro ⟨item, ⟨hitem, _⟩, hlower⟩
      exact ⟨item, hitem, hlower⟩
    · rintro ⟨item, hitem, hlower⟩
      refine ⟨item, ⟨hitem, fun hempty => h ?_⟩, hlower⟩
      rw [← hlower, hempty]
      rfl
  cases value with
  | arr items => exact Iff.rfl
  | null => exact hblank _
  | bool b => exact hblank _
  | num text => exact hblank _
  | str text => exact hblank _
  | obj members => exact hblank _

theorem some_eq_some_iff {a b : Bool} : (some a = some b) ↔ (a = true ↔ b = true) := by
  cases a <;> cases b <;> decide

theorem numbersMatch_iff {test : Double → Double → Bool} {row : SearchRow} {value : Json} :
    numbersMatch rt test row value = true ↔ ∃ number ∈ row.valueNumber, ∃ limit ∈ rt.float value,
      test (rt.numeric number) limit = true := by
  unfold numbersMatch
  cases row.valueNumber <;> cases rt.float value <;> simp

theorem compares_iff {comparison : Comparison} {left right : Double} :
    left.compares comparison right = true ↔
      ∃ a b, left = .number a ∧ right = .number b ∧ comparison.compare a b = true := by
  cases left <;> cases right <;> simp [Double.compares]

/-- A comparison is the same for the statement and the evidence unless `NaN` decides. -/
theorem number_eq_evidence_iff {operator : String} {comparison : Comparison} {value : Json}
    {condition : Condition} {row : SearchRow}
    (h : compileNumber rt operator comparison value = .ok condition) :
    condition.holds rt row = some (numbersMatch rt (Double.compares comparison) row value) ↔
      ∀ number ∈ row.valueNumber, ∀ limit ∈ rt.float value,
        NanFree (rt.numeric number) limit comparison := by
  have hevidence : numbersMatch rt (Double.compares comparison) row value = true ↔
      Compares rt comparison row value := by
    rw [numbersMatch_iff]
    unfold Compares
    refine exists_congr fun number => and_congr_right fun _ => ?_
    constructor
    · rintro ⟨limit, hlimit, hcompares⟩
      obtain ⟨a, b, hleft, rfl, hab⟩ := compares_iff.1 hcompares
      exact ⟨a, b, hleft, hlimit, hab⟩
    · rintro ⟨a, b, hleft, hlimit, hab⟩
      exact ⟨.number b, hlimit, compares_iff.2 ⟨a, b, hleft, rfl, hab⟩⟩
  rw [← holds_number_iff h, ← hevidence]
  cases hholds : condition.holds rt row with
  | none => simp
  | some b =>
      rw [some_eq_some_iff]
      simp only [Option.isSome_some, true_and, Option.some.injEq]

/-- The condition of a rule and the evidence agree where the readings of its operator do. -/
theorem holds_eq_evidence_iff {operator : Operator} {fieldPath : String} {value : Json}
    {condition : Condition} {row : SearchRow} (hrow : Indexed rt row)
    (hne : operator ≠ .notExists)
    (h : compileCondition rt operator fieldPath value = .ok condition) :
    condition.holds rt row = some (operatorEvidence rt row value operator) ↔
      Shown rt value row operator := by
  obtain ⟨htext, hgiven⟩ := hrow.text_eq
  cases operator with
  | «exists» =>
      cases h
      exact iff_of_true rfl trivial
  | notExists => exact absurd rfl hne
  | isTrue =>
      cases h
      refine iff_of_true ?_ trivial
      unfold Condition.holds operatorEvidence
      cases row.valueBoolean with
      | none => rfl
      | some b => cases b <;> rfl
  | isFalse =>
      cases h
      unfold Condition.holds operatorEvidence Shown
      cases row.valueBoolean with
      | none => simp
      | some b => cases b <;> simp
  | equals =>
      cases h
      unfold Condition.holds operatorEvidence Shown
      dsimp only
      rw [htext, some_eq_some_iff, Option.any_some, Bool.and_eq_true, decide_eq_true_eq,
        decide_eq_true_eq, Option.some.injEq]
      exact iff_congr (and_iff_right_of_imp (congrArg rt.md5)) Iff.rfl
  | notEquals =>
      cases h
      unfold Condition.holds operatorEvidence Shown
      dsimp only
      rw [htext, some_eq_some_iff, Option.any_some, decide_eq_true_eq, ne_eq, ne_eq,
        Option.some.injEq]
  | contains =>
      cases h
      unfold Condition.holds operatorEvidence Shown
      dsimp only
      rw [htext, some_eq_some_iff, Option.any_some, decide_eq_true_eq]
      simp
  | startsWith =>
      cases h
      unfold Condition.holds operatorEvidence Shown
      dsimp only
      rw [htext, some_eq_some_iff, Option.any_some, decide_eq_true_eq]
      simp
  | gt => exact number_eq_evidence_iff h
  | gte => exact number_eq_evidence_iff h
  | lt => exact number_eq_evidence_iff h
  | lte => exact number_eq_evidence_iff h
  | isIn =>
      refine iff_of_true ?_ trivial
      unfold compileCondition at h
      dsimp only at h
      split at h
      · cases h
      · cases h
        unfold Condition.holds operatorEvidence
        dsimp only
        rw [htext, some_eq_some_iff, Option.any_some, digests_mem_iff, decide_eq_true_eq]
        exact mem_inValues_iff hgiven
  | inCidr =>
      unfold compileCondition at h
      dsimp only at h
      split at h
      · cases h
      · split at h
        · rename_i network hnetwork
          cases h
          unfold Condition.holds operatorEvidence Shown
          dsimp only
          rw [htext, hnetwork]
          simp only [Option.mem_def, Option.some.injEq, forall_eq']
          cases rt.inet (rt.lower (row.valueText.getD "")) with
          | none => simp
          | some stored =>
              rw [Option.map_some, some_eq_some_iff]
              cases Ip.ipAddress (rt.lower (row.valueText.getD "")).toList <;> simp
        · cases h

/-- The readings of a rule agree on the values that are stored under its field. -/
def ShownOn (index : Index rt) (rule : Rule) : Prop :=
  (∃ compiled, compileAssetQueryRule rt rule = .ok compiled) →
    ∀ operator, Operator.ofText (rt.lower rule.operator) = some operator →
      ∀ row ∈ index.field (strip rule.fieldPath), Shown rt rule.value row.2 operator

section Trees

variable {index : Index rt} {query : Query}

theorem evidenceMatches_eq {rule : Rule} {operator : Operator}
    (h : Operator.ofText (rt.lower rule.operator) = some operator) (row : SearchRow) :
    evidenceMatches rt row rule = operatorEvidence rt row rule.value operator := by
  unfold evidenceMatches
  rw [h]

theorem conditionOn_eq_evidence_iff {rule : Rule} {select : Select} {scope : String}
    (h : compileAssetQueryRule rt rule = .ok (select, scope)) {operator : Operator}
    (hoperator : Operator.ofText (rt.lower rule.operator) = some operator) {row : SearchRow}
    (hrow : Indexed rt row) :
    conditionOn rt row select = some (evidenceMatches rt row rule) ↔
      Shown rt rule.value row operator := by
  rw [evidenceMatches_eq hoperator]
  obtain ⟨_, ⟨hnot, rfl, _⟩ | ⟨operator', condition, hsome, hne, hcondition, rfl, _⟩⟩ :=
    compileAssetQueryRule_cases h
  · rw [hoperator] at hnot
    cases hnot
    exact iff_of_true rfl trivial
  · rw [hoperator] at hsome
    cases hsome
    exact holds_eq_evidence_iff hrow hne hcondition

theorem evidenceExact_iff :
    EvidenceExact index query ↔ ∀ rule ∈ collectRules query, ShownOn index rule := by
  refine forall_congr' fun rule => forall_congr' fun _ => ?_
  constructor
  · rintro h ⟨⟨select, scope⟩, hcompile⟩ operator hoperator row hrow
    rw [← conditionOn_eq_evidence_iff hcompile hoperator (indexed_of_mem_field hrow)]
    exact h select scope hcompile row hrow
  · intro h select scope hcompile row hrow
    obtain ⟨_, ⟨hoperator, _⟩ | ⟨operator, _, hoperator, _⟩⟩ :=
      compileAssetQueryRule_cases hcompile
    · rw [conditionOn_eq_evidence_iff hcompile hoperator (indexed_of_mem_field hrow)]
      trivial
    · rw [conditionOn_eq_evidence_iff hcompile hoperator (indexed_of_mem_field hrow)]
      exact h ⟨_, hcompile⟩ operator hoperator row hrow

theorem exists_mem_of_mem_combinePairs {intersect : Bool} {results : List (List Pair)}
    {pair : Pair} (h : pair ∈ combinePairs intersect results) :
    ∃ pairs ∈ results, pair ∈ pairs := by
  by_cases hnil : results = []
  · rw [hnil] at h
    cases h
  · rw [mem_combinePairs hnil] at h
    split at h
    · obtain ⟨pairs, hpairs⟩ := List.exists_mem_of_ne_nil results hnil
      exact ⟨pairs, hpairs, h pairs hpairs⟩
    · exact h

theorem exists_of_compilePart {scope : String} {child : Select × String} {part : Select}
    (h : compilePart scope child = .ok part) {pairs : List Pair}
    (hpairs : part.selects index = some pairs) :
    ∃ sources, child.1.selects index = some sources ∧
      ∀ pair ∈ pairs, ∃ source ∈ sources, source.1 = pair.1 := by
  unfold compilePart at h
  split at h
  · cases h
    rw [Select.selects] at hpairs
    obtain ⟨sources, hsources, rfl⟩ := Option.map_eq_some_iff.1 hpairs
    refine ⟨sources, hsources, fun pair hpair => ?_⟩
    rw [mem_fromKeys] at hpair
    obtain ⟨source, hsource, rfl⟩ := List.mem_map.1 hpair
    exact ⟨source, hsource, rfl⟩
  · split at h
    · cases h
    · cases h
      exact ⟨pairs, hpairs, fun pair hpair => ⟨pair, hpair, rfl⟩⟩

/-- What holds of the assets of all parts holds of those of a group. -/
theorem forall_mem_selectsAll {scope : String} {queries : List Query} {motive : String → Prop}
    (hqueries : ∀ query ∈ queries, ∀ select childScope pairs,
      compileAssetQueryNode rt query = .ok (select, childScope) →
        select.selects index = some pairs → ∀ pair ∈ pairs, motive pair.1)
    {parts : List Select} (h : compileParts rt scope queries = .ok parts)
    {results : List (List Pair)} (hresults : selectsAll index parts = some results) :
    ∀ pairs ∈ results, ∀ pair ∈ pairs, motive pair.1 := by
  induction queries generalizing parts results with
  | nil =>
      cases h
      cases hresults
      exact fun pairs hpairs => nomatch hpairs
  | cons query queries ih =>
      rw [compileParts] at h
      cases hchild : compileAssetQueryNode rt query with
      | error message =>
          rw [hchild] at h
          cases h
      | ok child =>
          rw [hchild, Except.bind] at h
          cases hpart : compilePart scope child with
          | error message =>
              rw [hpart] at h
              cases h
          | ok part =>
              rw [hpart, Except.bind] at h
              cases hrest : compileParts rt scope queries with
              | error message =>
                  rw [hrest] at h
                  cases h
              | ok rest =>
                  rw [hrest] at h
                  cases h
                  rw [selectsAll] at hresults
                  obtain ⟨first, hfirst, hrest'⟩ := Option.bind_eq_some_iff.1 hresults
                  obtain ⟨others, hothers, rfl⟩ := Option.map_eq_some_iff.1 hrest'
                  intro pairs hpairs pair hpair
                  rcases List.mem_cons.1 hpairs with rfl | hmem
                  · obtain ⟨sources, hsources, hassets⟩ := exists_of_compilePart hpart hfirst
                    obtain ⟨source, hsource, hid⟩ := hassets pair hpair
                    rw [← hid]
                    exact hqueries query List.mem_cons_self child.1 child.2 sources hchild hsources
                      source hsource
                  · exact ih (fun other hother =>
                      hqueries other (List.mem_cons_of_mem _ hother)) hrest hothers pairs hmem
                      pair hpair

/-- A selected asset has a row that a rule selects. -/
theorem exists_selected_row {query : Query} :
    ∀ {select : Select} {scope : String} {pairs : List Pair},
      (∀ rule ∈ collectRules query, rt.lower rule.operator ≠ "not_exists") →
      compileAssetQueryNode rt query = .ok (select, scope) →
      select.selects index = some pairs → ∀ pair ∈ pairs,
        ∃ rule ∈ collectRules query, ∃ condition,
          compileAssetQueryRule rt rule =
            .ok (.rows (strip rule.fieldPath) condition, "entity") ∧
          ∃ row ∈ index.field (strip rule.fieldPath), row.1 = pair.1 ∧
            condition.holds rt row.2 = some true := by
  induction query using Query.induct with
  | notObject =>
      intro _ _ _ _ h
      cases h
  | rule rule =>
      intro select scope pairs hpositive hcompile hselects pair hpair
      rw [compileAssetQueryNode] at hcompile
      rw [collectRules] at hpositive ⊢
      obtain ⟨_, ⟨hoperator, _⟩ | ⟨operator, condition, _, _, _, rfl, rfl⟩⟩ :=
        compileAssetQueryRule_cases hcompile
      · exact absurd (Operator.eq_of_ofText hoperator)
          (hpositive rule (List.mem_singleton_self _))
      · refine ⟨rule, List.mem_singleton_self _, condition, hcompile, ?_⟩
        rw [Select.selects] at hselects
        split at hselects
        · cases hselects
          obtain ⟨row, hrow, rfl⟩ := List.mem_map.1 hpair
          obtain ⟨hfield, hholds⟩ := List.mem_filter.1 hrow
          exact ⟨row, hfield, rfl, of_decide_eq_true hholds⟩
        · cases hselects
  | withoutRules combinator matchScope =>
      intro select scope pairs _ hcompile hselects pair hpair
      rw [compileAssetQueryNode] at hcompile
      cases hcompile
      rw [Select.selects, selectsAll] at hselects
      cases hselects
      cases hpair
  | group combinator matchScope rules ih =>
      intro select scope pairs hpositive hcompile hselects pair hpair
      rw [compileAssetQueryNode] at hcompile
      rw [collectRules] at hpositive
      cases hparts : compileParts rt (rt.scope matchScope) rules with
      | error message =>
          rw [hparts] at hcompile
          cases hcompile
      | ok parts =>
          rw [hparts] at hcompile
          cases hcompile
          rw [Select.selects] at hselects
          obtain ⟨results, hresults, rfl⟩ := Option.map_eq_some_iff.1 hselects
          obtain ⟨members, hmembers, hmem⟩ := exists_mem_of_mem_combinePairs hpair
          refine forall_mem_selectsAll (motive := fun asset =>
            ∃ rule ∈ collectRules (.group combinator matchScope rules), ∃ condition,
              compileAssetQueryRule rt rule =
                .ok (.rows (strip rule.fieldPath) condition, "entity") ∧
              ∃ row ∈ index.field (strip rule.fieldPath), row.1 = asset ∧
                condition.holds rt row.2 = some true)
            (fun child hchild select childScope pairs hselect hpairs pair hpair => ?_)
            hparts hresults members hmembers pair hmem
          obtain ⟨rule, hrule, hrest⟩ := ih child hchild
            (fun rule hrule => hpositive rule (mem_collectAll.2 ⟨child, hchild, hrule⟩))
            hselect hpairs pair hpair
          refine ⟨rule, ?_, hrest⟩
          rw [collectRules]
          exact mem_collectAll.2 ⟨child, hchild, hrule⟩

/-- A value that a rule selects under the path that it gives is shown. -/
theorem matchesOf_ne_nil {rule : Rule} (hrule : rule ∈ collectRules query)
    (hpositive : rt.lower rule.operator ≠ "not_exists") {row : String × SearchRow}
    (hrow : row ∈ index.rows) (hfield : row.2.fieldPath = rule.fieldPath)
    (hevidence : evidenceMatches rt row.2 rule = true) :
    matchesOf index query row.1 ≠ [] := by
  have hoperator : rule.operator ≠ "not_exists" := by
    intro heq
    refine hpositive ?_
    have hplain : "not_exists".toList.all
        (fun c => decide (c.toNat < 128 ∧ c.toLower = c)) = true := by
      decide +kernel
    have hkeep := rt.tables.lowerText_eq_self fun c hc =>
      of_decide_eq_true (List.all_eq_true.1 hplain c hc)
    unfold Runtime.lower lowerOf
    rw [heq, hkeep, String.ofList_toList]
  intro hnil
  unfold matchesOf at hnil
  rcases List.take_eq_nil_iff.1 hnil with hzero | hempty
  · cases hzero
  · have hmem : row ∈ ([] : List (String × SearchRow)) := by
      rw [← hempty, List.mem_filter, List.mem_filter, List.any_eq_true]
      refine ⟨⟨hrow, ?_⟩, rule, ?_, hevidence⟩
      · rw [Bool.and_eq_true, decide_eq_true_eq, decide_eq_true_eq, mem_fromKeys, List.mem_map]
        refine ⟨rfl, rule, ?_, hfield.symm⟩
        exact List.mem_filter.2 ⟨hrule, decide_eq_true hoperator⟩
      · exact List.mem_filter.2 ⟨hrule, decide_eq_true hfield.symm⟩
    cases hmem

theorem EvidenceExact.shown (h : EvidenceExact index query)
    (hpaths : ∀ rule ∈ collectRules query, strip rule.fieldPath = rule.fieldPath) :
    EvidenceShown index query := by
  intro hpositive select scope pairs hcompile hselects asset hasset
  obtain ⟨pair, hpair, rfl⟩ := List.mem_map.1 hasset
  obtain ⟨rule, hrule, condition, hcondition, row, hrow, hid, hholds⟩ :=
    exists_selected_row hpositive hcompile hselects pair hpair
  have hevidence := h rule hrule _ _ hcondition row hrow
  have hmatches : evidenceMatches rt row.2 rule = true := by
    rw [conditionOn, hholds] at hevidence
    exact (Option.some.inj hevidence).symm
  obtain ⟨hmem, hfield⟩ := List.mem_filter.1 hrow
  rw [← hid]
  refine matchesOf_ne_nil hrule (hpositive rule hrule) hmem ?_ hmatches
  rw [of_decide_eq_true hfield, hpaths rule hrule]

end Trees

end Shown

/-- The rule that looks for the operating system `abc`. -/
def osNameEquals : Rule :=
  ⟨"asset.osName", "equals", .str "abc", osName_given⟩

end FieldQuery
end AssetCard
end MpvmApp
