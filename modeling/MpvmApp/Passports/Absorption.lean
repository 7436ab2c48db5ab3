import MpvmApp.Passports.CatalogSync
import MpvmApp.Passports.Recreation
import MpvmApp.Passports.ReplacementPlan
import MpvmApp.Remediation.Repository

/-!
# What a successor takes over

A passport that is replaced is referred to by links, trends and remediation cases, and has details
and a first sight of its own.  All of these pass to the successor before the passport is deleted;
then the links of the successor are made anew from what matches the findings.

Main definitions:

- Definition `Catalog`: the passports with all rows that refer to them.
- Definition `Catalog.upsert`: the rows after a batch is saved.
- Definition `survivor`: the row of a passport that a batch leaves stored.

Main results:

- Theorem `find?_savePassports`: a batch leaves exactly the survivors stored.
- Theorem `links_upsert_of_replaced`: a finding of a replaced passport is linked to its best
  survivor.
- Theorem `loses_nothing_iff`: nothing is lost when every such finding matches a survivor.
-/

namespace MpvmApp
namespace Passports
namespace Absorption

open Sql Recreation Remediation

/-! ## Data model -/

/-- A row of `vulnerability_passport_trends` for its passport. -/
structure Trend where
  description : Option String := none
  isTrendSince : Option String := none
  vendorsJson : String := "[]"
  affectedComponentsJson : String := "[]"
  sourcePdql : String
  pdqlToken : Option String := none
  syncedAt : String
deriving DecidableEq

/--
The passports with `first_seen` and the rows that refer to them.  Their columns are foreign
keys; a campaign refers to cases only.
-/
structure Catalog where
  tables : PassportState
  firstSeen : String → String
  trends : String → Option Trend := fun _ => none
  cases : List CaseRow := []
  linked : ForeignKey tables
  trended : ∀ id, (trends id).isSome = true → isStored tables id = true
  referred : ∀ c ∈ cases, ∀ id, c.passportInternalId = some id → isStored tables id = true

/-! ## Saving a batch -/

/-- `LEAST` of two times. -/
def least (loc : Sql.Locale) (a b : String) : String :=
  if loc.le a b then a else b

/-- `first_seen` after the rows of a batch are written: new rows are seen now. -/
def seenAfter (now : String) (values : List PassportValue) (s : PassportState)
    (firstSeen : String → String) (id : String) : String :=
  if id ∈ values.map PassportValue.internalId ∧ isStored s id = false then now else firstSeen id

/-- The ids that are replaced by a successor. -/
def oldIds (pairs : List (String × String)) (newId : String) : List String :=
  (pairs.filter fun pair => decide (pair.2 = newId)).map Prod.fst

/-- `LEAST(target.first_seen, previous.first_seen)`. -/
def absorbedSeen (loc : Sql.Locale) (pairs : List (String × String)) (firstSeen : String → String)
    (id : String) : String :=
  ((oldIds pairs id).map firstSeen).foldl (least loc) (firstSeen id)

/-- One row of `INSERT … ON CONFLICT DO NOTHING` into the trends. -/
def insertTrend (trends : String → Option Trend) (inserted : String → Option Trend)
    (pair : String × String) : String → Option Trend :=
  match trends pair.1 with
  | some trend => if (inserted pair.2).isSome then inserted else
      Function.update inserted pair.2 (some trend)
  | none => inserted

/-- The trends pass to the successors that have none, in the order in which the join is read. -/
def absorbedTrends (scan : List (String × String)) (trends : String → Option Trend) :
    String → Option Trend :=
  scan.foldl (insertTrend trends) trends

section Upsert

variable (loc : PassportText) (now : String) (batch : List PassportInput) (fullCatalog : Bool)

theorem isStored_upsert {s : PassportState} {id : String}
    (hstored : id ∈ (catalogValues batch).map PassportValue.internalId ∨ isStored s id = true)
    (hkept : id ∉ (batchReplacements loc batch fullCatalog s).map Prod.fst) :
    isStored (upsertVulnerabilityPassports loc now batch fullCatalog s) id = true := by
  have hupserted := isSome_foldl_upsertValue loc (catalogValues batch) (s.passports, []) id hstored
  unfold upsertVulnerabilityPassports
  dsimp only
  rw [isStored_relink, savePassports_fst]
  refine isStored_deletePassports ?_ hkept
  rw [isStored, Table.find?_mapRows, Option.isSome_map]
  exact hupserted

end Upsert
/-- A trend of the successor's own stays; else the first one that is read is taken over. -/
theorem foldl_insertTrend (trends inserted : String → Option Trend)
    (scan : List (String × String)) (id : String) :
    scan.foldl (insertTrend trends) inserted id =
      (inserted id).or ((oldIds scan id).filterMap trends).head? := by
  induction scan generalizing inserted with
  | nil => simp [oldIds]
  | cons pair scan ih =>
      rw [List.foldl_cons, ih, insertTrend, oldIds, oldIds]
      cases htrend : trends pair.1 with
      | none =>
          by_cases hid : pair.2 = id
          · simp [hid, htrend]
          · simp [hid]
      | some trend =>
          by_cases hid : pair.2 = id
          · subst hid
            cases hown : inserted pair.2 with
            | none => simp [htrend]
            | some own => simp [hown]
          · have hne : id ≠ pair.2 := Ne.symm hid
            dsimp only
            split_ifs with hsome
            · simp [hid]
            · simp [hid, hne]

/-- The order in which the database reads the rows of a join. -/
structure RowOrder where
  order : List (String × String) → List (String × String)
  perm : ∀ pairs, (order pairs).Perm pairs

/-- `upsert_vulnerability_passports` with the rows that refer to the passports. -/
def Catalog.upsert (loc : PassportText) (now : String) (batch : List PassportInput)
    (fullCatalog : Bool) (read : RowOrder) (c : Catalog) : Catalog :=
  let pairs := batchReplacements loc batch fullCatalog c.tables
  let upserted := seenAfter now (catalogValues batch) c.tables c.firstSeen
  { tables := upsertVulnerabilityPassports loc now batch fullCatalog c.tables
    firstSeen := absorbedSeen loc.toLocale pairs upserted
    trends := fun id =>
      if id ∈ pairs.map Prod.fst then none else absorbedTrends (read.order pairs) c.trends id
    cases := c.cases.map (replacePassport pairs)
    linked := (c.linked.savePassports loc batch fullCatalog).relink _ _ _
    trended := by
      intro id hsome
      split_ifs at hsome with hold
      · cases hsome
      refine isStored_upsert loc now batch fullCatalog ?_ hold
      rw [absorbedTrends, foldl_insertTrend] at hsome
      cases hown : c.trends id with
      | some trend => exact .inr (c.trended id (by rw [hown]; rfl))
      | none =>
          rw [hown, Option.none_or, List.isSome_head?] at hsome
          obtain ⟨trend, htrend⟩ := List.exists_mem_of_ne_nil _ hsome
          obtain ⟨old, holdId, -⟩ := List.mem_filterMap.1 htrend
          obtain ⟨pair, hpair, -⟩ := List.mem_map.1 holdId
          obtain ⟨hmem, hid⟩ := List.mem_filter.1 hpair
          have hplanned := (read.perm pairs).mem_iff.1 hmem
          exact .inl (of_decide_eq_true hid ▸ successor_mem_values pair hplanned)
    referred := by
      intro row hrow id hid
      obtain ⟨before, hbefore, rfl⟩ := List.mem_map.1 hrow
      obtain ⟨hmoved, hkept⟩ := Option.filter_eq_some_iff.1 hid
      obtain ⟨own, hown, rfl⟩ := Option.map_eq_some_iff.1 hmoved
      have hfree : successorId pairs own ∉ pairs.map Prod.fst := by
        intro hmem
        obtain ⟨pair, hpair, hsame⟩ := List.mem_map.1 hmem
        have hany : (pairs.any fun q => decide (q.1 = successorId pairs own)) = true :=
          List.any_eq_true.2 ⟨pair, hpair, decide_eq_true hsame⟩
        rw [hany] at hkept
        cases hkept
      refine isStored_upsert loc now batch fullCatalog ?_ hfree
      unfold successorId
      cases hfind : pairs.find? fun p => decide (p.1 = own) with
      | some pair =>
          exact .inl (successor_mem_values pair (List.mem_of_find?_eq_some hfind))
      | none => exact .inr (c.referred before hbefore own hown) }

/-! ## What a batch leaves stored -/

/-- The row of an id once a batch is written: that of its value, if this differs. -/
def rowAfter (loc : PassportText) (values : List PassportValue) (passports : PassportTable)
    (id : String) : Option Passport :=
  match values.find? fun v => decide (v.internalId = id) with
  | none => passports.find? id
  | some v =>
      if (passports.find? id).all v.differs then some (v.row loc (passports.find? id))
      else passports.find? id

/-- The row of a passport that a batch leaves stored, with what it takes over. -/
def survivor (loc : PassportText) (batch : List PassportInput) (fullCatalog : Bool)
    (s : PassportState) (id : String) : Option Passport :=
  let pairs := batchReplacements loc batch fullCatalog s
  let row := rowAfter loc (catalogValues batch) s.passports
  if id ∈ pairs.map Prod.fst then none
  else (row id).map fun p => p.absorb loc ((oldIds pairs id).filterMap row)

section Survivors

variable {loc : PassportText} {batch : List PassportInput} {fullCatalog : Bool}
  {s : PassportState}

/-- The values of a batch have ids of their own. -/
theorem nodup_catalogValues (batch : List PassportInput) :
    ((catalogValues batch).map PassportValue.internalId).Nodup := by
  have hsublist : ∀ (values : List PassportValue) (ids : List String),
      ((ids.filterMap fun id => values.find? fun v => decide (v.internalId = id)).map
        PassportValue.internalId).Sublist ids := by
    intro values ids
    induction ids with
    | nil => exact List.Sublist.refl _
    | cons id ids ih =>
        rw [List.filterMap_cons]
        split
        · exact ih.cons id
        · rename_i v hfind
          have hid : v.internalId = id := by simpa using List.find?_some hfind
          rw [List.map_cons, hid]
          exact ih.cons_cons id
  have hperm := List.perm_insertionSort (fun v w : PassportValue => v.internalId ≤ w.internalId)
    ((fromKeys ((batch.filterMap PassportInput.value?).map PassportValue.internalId)).filterMap
      fun id => (batch.filterMap PassportInput.value?).reverse.find? fun v =>
        decide (v.internalId = id))
  unfold catalogValues
  dsimp only
  rw [(hperm.map PassportValue.internalId).nodup_iff]
  exact (nodup_fromKeys _).sublist (hsublist _ _)

/-- The values of a batch are written one by one. -/
theorem find?_foldl_upsertValue {values : List PassportValue}
    (hnodup : (values.map PassportValue.internalId).Nodup)
    (acc : PassportTable × List String) (id : String) :
    (values.foldl (upsertValue loc) acc).1.find? id = rowAfter loc values acc.1 id := by
  induction values generalizing acc with
  | nil => rfl
  | cons v values ih =>
      rw [List.map_cons, List.nodup_cons] at hnodup
      rw [List.foldl_cons, ih hnodup.2]
      by_cases hid : v.internalId = id
      · subst hid
        have hnone : (values.find? fun w => decide (w.internalId = v.internalId)) = none := by
          rw [List.find?_eq_none]
          intro w hw heq
          exact hnodup.1 (List.mem_map.2 ⟨w, hw, of_decide_eq_true heq⟩)
        simp only [rowAfter, hnone, List.find?_cons, decide_true]
        unfold upsertValue
        split_ifs with hdiffers
        · rw [Table.find?_upsert, if_pos rfl]
        · rfl
      · have hother : (upsertValue loc acc v).1.find? id = acc.1.find? id := by
          unfold upsertValue
          split_ifs with hdiffers
          · rw [Table.find?_upsert, if_neg (Ne.symm hid)]
          · rfl
        simp only [rowAfter, hother, List.find?_cons, hid, decide_false]

/-- A batch leaves exactly the survivors stored. -/
theorem find?_savePassports (id : String) :
    (savePassports loc batch fullCatalog s).1.passports.find? id =
      survivor loc batch fullCatalog s id := by
  have hrow : ∀ other, ((catalogValues batch).foldl (upsertValue loc) (s.passports, [])).1.find?
      other = rowAfter loc (catalogValues batch) s.passports other :=
    find?_foldl_upsertValue (nodup_catalogValues batch) (s.passports, [])
  rw [savePassports_fst]
  by_cases hold : id ∈ (batchReplacements loc batch fullCatalog s).map Prod.fst
  · rw [find?_applyReplacements hold]
    simp only [survivor, if_pos hold]
  · rw [survivor, if_neg hold]
    have hfilter : ∀ t : PassportTable, (t.filterRows fun p =>
        !decide (p.internalId ∈ (batchReplacements loc batch fullCatalog s).map Prod.fst)).find? id =
          t.find? id := by
      intro t
      ext p
      rw [Table.find?_eq_some_iff, Table.find?_eq_some_iff, Table.mem_filterRows]
      constructor
      · rintro ⟨⟨hp, -⟩, hid⟩
        exact ⟨hp, hid⟩
      · rintro ⟨hp, rfl⟩
        exact ⟨⟨hp, by simp [hold]⟩, rfl⟩
    unfold applyReplacements deletePassports
    dsimp only
    rw [hfilter, Table.find?_mapRows, hrow]
    cases hp : rowAfter loc (catalogValues batch) s.passports id with
    | none => rfl
    | some p =>
        have hid : p.internalId = id := Table.pk_of_find? ((hrow id).trans hp)
        simp only [Option.map_some, absorbedBy, oldIds, List.filterMap_map, hid]
        congr 2
        apply List.filterMap_congr
        intro pair _
        exact hrow pair.1

end Survivors

/-! ## The planned replacements -/

section Planned

variable {loc : PassportText} {batch : List PassportInput} {fullCatalog : Bool}
  {s : PassportState}

/-- The stale rows that a plan for a batch goes over are stored and not in the batch. -/
theorem batchReplacements_eq (loc : PassportText) (batch : List PassportInput)
    (fullCatalog : Bool) (s : PassportState) :
    ∃ successors stale : List IdRow,
      batchReplacements loc batch fullCatalog s =
        (planPassportReplacements successors stale fullCatalog).pairs ∧
      (stale.map IdRow.internalId).Nodup ∧
      ∀ row ∈ stale, isStored s row.internalId = true ∧
        row.internalId ∉ (catalogValues batch).map PassportValue.internalId := by
  let upserted := ((catalogValues batch).foldl (upsertValue loc) (s.passports, [])).1
  let unseen := (upserted.rows.map Passport.idRow).filter fun row =>
    decide (row.internalId ∉ (catalogValues batch).map PassportValue.internalId)
  have hnodup : (unseen.map IdRow.internalId).Nodup := by
    refine List.Nodup.sublist (List.filter_sublist.map _) ?_
    rw [List.map_map]
    exact upserted.pkNodup
  have hunseen : ∀ row ∈ unseen, isStored s row.internalId = true ∧
      row.internalId ∉ (catalogValues batch).map PassportValue.internalId := by
    intro row hrow
    obtain ⟨hstored, hnew⟩ := List.mem_filter.1 hrow
    obtain ⟨p, hp, rfl⟩ := List.mem_map.1 hstored
    have hnew := of_decide_eq_true hnew
    exact ⟨isStored_iff.2 ⟨p, (mem_upserted_iff hnew).1 hp, rfl⟩, hnew⟩
  unfold batchReplacements planPassportIdReplacements
  dsimp only
  cases fullCatalog with
  | true =>
      exact ⟨_, _, rfl, hnodup.sublist (List.filter_sublist.map _),
        fun row hrow => hunseen row (List.mem_of_mem_filter hrow)⟩
  | false =>
      exact ⟨_, _, rfl, hnodup.sublist (List.filter_sublist.map _),
        fun row hrow => hunseen row (List.mem_of_mem_filter hrow)⟩

theorem old_of_planned {pair : String × String}
    (h : pair ∈ batchReplacements loc batch fullCatalog s) :
    isStored s pair.1 = true ∧
      pair.1 ∉ (catalogValues batch).map PassportValue.internalId := by
  obtain ⟨successors, stale, hpairs, -, hstale⟩ := batchReplacements_eq loc batch fullCatalog s
  rw [hpairs, planPassportReplacements_eq] at h
  obtain ⟨depth, hmade⟩ := exists_madeAt h
  obtain ⟨old, new, rfl, hsound⟩ := hmade.sound
  exact hstale old hsound.stale

theorem nodup_batchReplacements :
    ((batchReplacements loc batch fullCatalog s).map Prod.fst).Nodup := by
  obtain ⟨successors, stale, hpairs, hnodup, -⟩ := batchReplacements_eq loc batch fullCatalog s
  rw [hpairs, planPassportReplacements_eq]
  exact nodup_pairs hnodup _

theorem new_of_planned {pair : String × String}
    (h : pair ∈ batchReplacements loc batch fullCatalog s) :
    pair.2 ∈ (catalogValues batch).map PassportValue.internalId ∧
      pair.2 ∉ (batchReplacements loc batch fullCatalog s).map Prod.fst :=
  ⟨successor_mem_values pair h, disjoint_planPassportIdReplacements _ _ _ _ pair h⟩

theorem successorId_of_planned {pair : String × String}
    (h : pair ∈ batchReplacements loc batch fullCatalog s) :
    successorId (batchReplacements loc batch fullCatalog s) pair.1 = pair.2 := by
  unfold successorId
  cases hfind : (batchReplacements loc batch fullCatalog s).find? fun p =>
      decide (p.1 = pair.1) with
  | none => exact absurd (decide_eq_true rfl) (List.find?_eq_none.1 hfind pair h)
  | some other =>
      have hsame : other.1 = pair.1 := by simpa using List.find?_some hfind
      have heq := List.inj_on_of_nodup_map nodup_batchReplacements
        (List.mem_of_find?_eq_some hfind) h hsame
      rw [heq]

end Planned

/-! ## Nothing is lost -/

/-- The result is the own value, or else one of the others, if there is any. -/
def Inherits {α : Type} (own : Option α) (olds : List (Option α)) (result : Option α) : Prop :=
  match own with
  | some a => result = some a
  | none => (∀ a, result = some a → some a ∈ olds) ∧ (result = none → ∀ old ∈ olds, old = none)

/-- The time is one of several, and none of them is before it. -/
def IsEarliest (loc : Sql.Locale) (times : List String) (time : String) : Prop :=
  time ∈ times ∧ ∀ other ∈ times, loc.le time other = true

/-- The stored details of a passport. -/
def Catalog.detail (c : Catalog) (id : String) : Option String :=
  (c.tables.passports.find? id).bind Passport.rawDetailJson

/-- `first_seen` of a passport that is saved. -/
def Catalog.seen (c : Catalog) (now id : String) : String :=
  if isStored c.tables id then c.firstSeen id else now

/-- Nothing of the replaced passports is lost from one state of the catalog to the other. -/
structure LosesNothing (loc : Sql.Locale) (now : String) (pairs : List (String × String))
    (c c' : Catalog) : Prop where
  /-- Every finding of a replaced passport has a link. -/
  linked : ∀ f ∈ c.tables.findings, ∀ l, c.tables.links f.id = some l →
    l.passportInternalId ∈ pairs.map Prod.fst → (c'.tables.links f.id).isSome = true
  /-- Every case of a replaced passport is one of the successor. -/
  cases : ∀ row ∈ c.cases, ∀ pair ∈ pairs, row.passportInternalId = some pair.1 →
    { row with passportInternalId := some pair.2 } ∈ c'.cases
  /-- A successor without a trend has that of a passport that it replaces. -/
  trends : ∀ pair ∈ pairs,
    Inherits (c.trends pair.2) ((oldIds pairs pair.2).map c.trends) (c'.trends pair.2)
  /-- A successor without details has those of a passport that it replaces. -/
  details : ∀ pair ∈ pairs,
    Inherits (c.detail pair.2) ((oldIds pairs pair.2).map c.detail) (c'.detail pair.2)
  /-- A successor was seen when the first of all these was. -/
  firstSeen : ∀ pair ∈ pairs, isStored c'.tables pair.2 = true ∧
    IsEarliest loc (c.seen now pair.2 :: (oldIds pairs pair.2).map c.firstSeen)
      (c'.firstSeen pair.2)
  /-- Nothing refers to a replaced passport. -/
  unreferenced : ∀ id ∈ pairs.map Prod.fst, isStored c'.tables id = false ∧
    (∀ finding l, c'.tables.links finding = some l → l.passportInternalId ≠ id) ∧
    c'.trends id = none ∧ ∀ row ∈ c'.cases, row.passportInternalId ≠ some id

section Inheritance

variable {loc : PassportText} {now : String} {batch : List PassportInput} {fullCatalog : Bool}
  {read : RowOrder} {c : Catalog}

theorem mem_oldIds {pairs : List (String × String)} {old new : String} :
    old ∈ oldIds pairs new ↔ (old, new) ∈ pairs := by
  simp [oldIds]

/-- Trends pass to the successors. -/
theorem inherits_trends {pair : String × String}
    (h : pair ∈ batchReplacements loc batch fullCatalog c.tables) :
    Inherits (c.trends pair.2)
      ((oldIds (batchReplacements loc batch fullCatalog c.tables) pair.2).map c.trends)
      ((c.upsert loc now batch fullCatalog read).trends pair.2) := by
  have hresult : (c.upsert loc now batch fullCatalog read).trends pair.2 =
      (c.trends pair.2).or ((oldIds (read.order (batchReplacements loc batch fullCatalog
        c.tables)) pair.2).filterMap c.trends).head? := by
    rw [← foldl_insertTrend]
    exact if_neg (new_of_planned h).2
  have hread : ∀ old, old ∈ oldIds (read.order (batchReplacements loc batch fullCatalog
      c.tables)) pair.2 ↔ old ∈ oldIds (batchReplacements loc batch fullCatalog c.tables) pair.2 := by
    intro old
    rw [mem_oldIds, mem_oldIds, (read.perm _).mem_iff]
  rw [hresult]
  unfold Inherits
  cases c.trends pair.2 with
  | some trend => rfl
  | none =>
      refine ⟨fun trend htrend => ?_, fun hnone old hold => ?_⟩
      · obtain ⟨old, hold, heq⟩ := List.mem_filterMap.1 (List.mem_of_head? htrend)
        exact List.mem_map.2 ⟨old, (hread old).1 hold, heq⟩
      · obtain ⟨id, hid, rfl⟩ := List.mem_map.1 hold
        rw [Option.none_or, List.head?_eq_none_iff, List.filterMap_eq_nil_iff] at hnone
        exact hnone id ((hread id).2 hid)

theorem rawDetail_rowAfter (loc : PassportText) (values : List PassportValue)
    (passports : PassportTable) (id : String) :
    (rowAfter loc values passports id).bind Passport.rawDetailJson =
      (passports.find? id).bind Passport.rawDetailJson := by
  unfold rowAfter
  split
  · rfl
  · rename_i v hfind
    split_ifs with hdiffers
    · cases passports.find? id <;> rfl
    · rfl

/-- The details that are taken over are those of one of the rows, if any has some. -/
theorem inheritedDetail_cases (loc : PassportText) (olds : List Passport) :
    (∀ detail, inheritedDetail loc olds = some detail →
      ∃ p ∈ olds, p.rawDetailJson = some detail) ∧
    (inheritedDetail loc olds = none → ∀ p ∈ olds, p.rawDetailJson = none) := by
  unfold inheritedDetail
  constructor
  · intro detail hdetail
    obtain ⟨p, hbest, hp⟩ := Option.bind_eq_some_iff.1 hdetail
    exact ⟨p, List.mem_of_mem_filter (mem_of_best hbest), hp⟩
  · intro hnone p hp
    cases hbest : best (fun p => issueRank loc.toCollation p.detailUpdatedAt)
        (olds.filter fun p => p.rawDetailJson.isSome) with
    | none =>
        rw [best_eq_none_iff, List.filter_eq_nil_iff] at hbest
        simpa using hbest p hp
    | some q =>
        have hsome := (List.mem_filter.1 (mem_of_best hbest)).2
        rw [hbest, Option.bind_some] at hnone
        rw [hnone] at hsome
        cases hsome

theorem rawDetail_absorb (loc : PassportText) (olds : List Passport) (p : Passport) :
    (p.absorb loc olds).rawDetailJson = coalesce p.rawDetailJson (inheritedDetail loc olds) := by
  unfold Passport.absorb
  by_cases holds : olds = []
  · subst holds
    have hnone : inheritedDetail loc [] = none := rfl
    rw [hnone, if_pos rfl]
    cases p.rawDetailJson <;> rfl
  · rw [if_neg holds]
    rfl

theorem find?_upsert (id : String) :
    (c.upsert loc now batch fullCatalog read).tables.passports.find? id =
      survivor loc batch fullCatalog c.tables id := by
  have hrelink : (c.upsert loc now batch fullCatalog read).tables.passports =
      (savePassports loc batch fullCatalog c.tables).1.passports :=
    passports_foldl_relinkScope _ _
  rw [hrelink, find?_savePassports]

theorem exists_rowAfter {id : String}
    (hid : id ∈ (catalogValues batch).map PassportValue.internalId) :
    ∃ p, rowAfter loc (catalogValues batch) c.tables.passports id = some p := by
  have hsome := isSome_foldl_upsertValue loc (catalogValues batch) (c.tables.passports, []) id
    (.inl hid)
  rw [find?_foldl_upsertValue (nodup_catalogValues batch)] at hsome
  exact Option.isSome_iff_exists.1 hsome

/-- Details pass to the successors. -/
theorem inherits_details {pair : String × String}
    (h : pair ∈ batchReplacements loc batch fullCatalog c.tables) :
    Inherits (c.detail pair.2)
      ((oldIds (batchReplacements loc batch fullCatalog c.tables) pair.2).map c.detail)
      ((c.upsert loc now batch fullCatalog read).detail pair.2) := by
  obtain ⟨hnew, hkept⟩ := new_of_planned h
  obtain ⟨p, hp⟩ : ∃ p, rowAfter loc (catalogValues batch) c.tables.passports pair.2 = some p :=
    exists_rowAfter hnew
  have hdetail : ∀ id, c.detail id =
      (rowAfter loc (catalogValues batch) c.tables.passports id).bind Passport.rawDetailJson :=
    fun id => (rawDetail_rowAfter loc _ _ id).symm
  have hown : c.detail pair.2 = p.rawDetailJson := by
    rw [hdetail, hp, Option.bind_some]
  have hresult : (c.upsert loc now batch fullCatalog read).detail pair.2 =
      coalesce p.rawDetailJson (inheritedDetail loc
        ((oldIds (batchReplacements loc batch fullCatalog c.tables) pair.2).filterMap
          (rowAfter loc (catalogValues batch) c.tables.passports))) := by
    rw [Catalog.detail, find?_upsert, survivor, if_neg hkept, hp, Option.map_some,
      Option.bind_some, rawDetail_absorb]
  rw [hresult, hown]
  obtain ⟨hsome, hnone⟩ := inheritedDetail_cases loc
    ((oldIds (batchReplacements loc batch fullCatalog c.tables) pair.2).filterMap
      (rowAfter loc (catalogValues batch) c.tables.passports))
  unfold Inherits
  cases p.rawDetailJson with
  | some detail => rfl
  | none =>
      refine ⟨fun detail hdetails => ?_, fun hdetails old hold => ?_⟩
      · obtain ⟨q, hq, hqdetail⟩ := hsome detail hdetails
        obtain ⟨old, hold, hrow⟩ := List.mem_filterMap.1 hq
        refine List.mem_map.2 ⟨old, hold, ?_⟩
        rw [hdetail, hrow, Option.bind_some, hqdetail]
      · obtain ⟨id, hid, rfl⟩ := List.mem_map.1 hold
        rw [hdetail]
        cases hrow : rowAfter loc (catalogValues batch) c.tables.passports id with
        | none => rfl
        | some q => exact hnone hdetails q (List.mem_filterMap.2 ⟨id, hid, hrow⟩)

/-- The least of some times is one of them, and before them all. -/
theorem isEarliest_foldl_least (loc : Collation) (times : List String) (time : String) :
    IsEarliest loc.toLocale (time :: times) (times.foldl (least loc.toLocale) time) := by
  induction times generalizing time with
  | nil => exact ⟨List.mem_singleton_self _, fun other hother => by
      rw [List.mem_singleton.1 hother]
      exact (loc.le_total time time).elim id id⟩
  | cons next times ih =>
      obtain ⟨hmem, hle⟩ := ih (least loc.toLocale time next)
      rw [List.foldl_cons]
      have hleast : (least loc.toLocale time next = time ∨ least loc.toLocale time next = next) ∧
          loc.le (least loc.toLocale time next) time = true ∧
            loc.le (least loc.toLocale time next) next = true := by
        unfold least
        split_ifs with hbefore
        · exact ⟨.inl rfl, (loc.le_total time time).elim id id, hbefore⟩
        · exact ⟨.inr rfl, (loc.le_total time next).resolve_left hbefore,
            (loc.le_total next next).elim id id⟩
      have hfirst := hle _ List.mem_cons_self
      constructor
      · rcases List.mem_cons.1 hmem with heq | hrest
        · rw [heq]
          rcases hleast.1 with hsame | hsame
          · rw [hsame]
            exact List.mem_cons_self
          · rw [hsame]
            exact List.mem_cons_of_mem _ List.mem_cons_self
        · exact List.mem_cons_of_mem _ (List.mem_cons_of_mem _ hrest)
      · intro other hother
        rcases List.mem_cons.1 hother with rfl | hother
        · exact loc.le_trans _ _ _ hfirst hleast.2.1
        · rcases List.mem_cons.1 hother with rfl | hother
          · exact loc.le_trans _ _ _ hfirst hleast.2.2
          · exact hle other (List.mem_cons_of_mem _ hother)

/-- The first sight of a successor is the first of all. -/
theorem isEarliest_firstSeen {pair : String × String}
    (h : pair ∈ batchReplacements loc batch fullCatalog c.tables) :
    IsEarliest loc.toLocale (c.seen now pair.2 ::
        (oldIds (batchReplacements loc batch fullCatalog c.tables) pair.2).map c.firstSeen)
      ((c.upsert loc now batch fullCatalog read).firstSeen pair.2) := by
  have hown : seenAfter now (catalogValues batch) c.tables c.firstSeen pair.2 =
      c.seen now pair.2 := by
    rw [seenAfter, Catalog.seen]
    cases hstored : isStored c.tables pair.2 with
    | true => simp
    | false => simp [(new_of_planned h).1]
  have holds : (oldIds (batchReplacements loc batch fullCatalog c.tables) pair.2).map
      (seenAfter now (catalogValues batch) c.tables c.firstSeen) =
        (oldIds (batchReplacements loc batch fullCatalog c.tables) pair.2).map c.firstSeen := by
    apply List.map_congr_left
    intro old hold
    have hunseen := (old_of_planned (mem_oldIds.1 hold)).2
    exact if_neg fun hnew => hunseen hnew.1
  rw [← hown, ← holds]
  exact isEarliest_foldl_least loc.toCollation _ _

theorem replacePassport_of_planned {pair : String × String}
    (h : pair ∈ batchReplacements loc batch fullCatalog c.tables) {row : CaseRow}
    (hrow : row.passportInternalId = some pair.1) :
    replacePassport (batchReplacements loc batch fullCatalog c.tables) row =
      { row with passportInternalId := some pair.2 } := by
  have hkept : ((batchReplacements loc batch fullCatalog c.tables).any fun q =>
      decide (q.1 = pair.2)) = false := by
    rw [List.any_eq_false]
    intro q hq hsame
    exact (new_of_planned h).2 (List.mem_map.2 ⟨q, hq, of_decide_eq_true hsame⟩)
  rw [replacePassport, replaceReference, hrow, Option.map_some, successorId_of_planned h]
  simp [Option.filter, hkept]

/-! ## Links -/

/-- The passport matches the finding by its id or by a CVE name. -/
def Matches (loc : Collation) (f : Finding) (p : Passport) : Prop :=
  (f.context loc).vulnerabilityId = some p.internalId ∨ matchesCve (f.context loc) p = true

theorem isSome_best_iff {s : PassportState} {f : Finding} :
    (s.best loc.toCollation f).isSome = true ↔
      ∃ p ∈ s.passports, Matches loc.toCollation f p := by
  rw [← Option.not_isNone, Bool.not_eq_true', Bool.eq_false_iff, ne_eq,
    Option.isNone_iff_eq_none, best_eq_none_iff_forall]
  push Not
  refine exists_congr fun p => and_congr_right fun _ => ?_
  unfold candidates Matches
  by_cases hid : (f.context loc.toCollation).vulnerabilityId = some p.internalId
  · simp [hid]
  · simp [hid]

/-- A finding of a replaced passport is linked to its best survivor. -/
theorem links_upsert_of_replaced {f : Finding} (hf : f ∈ c.tables.findings) {l : Link}
    (hl : c.tables.links f.id = some l)
    (hold : l.passportInternalId ∈
      (batchReplacements loc batch fullCatalog c.tables).map Prod.fst) :
    (c.upsert loc now batch fullCatalog read).tables.links f.id =
      ((savePassports loc batch fullCatalog c.tables).1.best loc.toCollation f).map fun best =>
        best.link now := by
  have hcovered : Covered (savePassports loc batch fullCatalog c.tables).2 c.tables
      (savePassports loc batch fullCatalog c.tables).1 := covered_savePassports batch fullCatalog
  have hmoved : ∃ l', (savePassports loc batch fullCatalog c.tables).1.links f.id = some l' ∧
      l'.passportInternalId ∈ (savePassports loc batch fullCatalog c.tables).2 := by
    rcases hcovered.linked f.id l hl with hmoved | ⟨hsame, -⟩
    · exact hmoved
    · -- a deleted passport takes its links along
      rw [savePassports_fst] at hsame
      obtain ⟨-, hkept⟩ := Option.filter_eq_some_iff.1 hsame
      rw [decide_eq_true hold] at hkept
      cases hkept
  obtain ⟨l', hl', hrelinked⟩ := hmoved
  obtain ⟨covers, hcovers, hlinks⟩ := links_relink_some loc.toCollation now
    (savePassports loc batch fullCatalog c.tables).1
    (savePassports loc batch fullCatalog c.tables).2
  have hfinding : f ∈ (savePassports loc batch fullCatalog c.tables).1.findings := by
    rw [hcovered.findings]
    exact hf
  have haffects : affects loc.toCollation (savePassports loc batch fullCatalog c.tables).1
      (savePassports loc batch fullCatalog c.tables).2 f = true := by
    unfold affects
    rw [hl']
    simp [hrelinked]
  have hupsert : (c.upsert loc now batch fullCatalog read).tables.links f.id = _ := hlinks f.id
  rw [hupsert, Table.find?_of_mem hfinding]
  simp [Option.filter, hcovers f hfinding haffects]

end Inheritance

/-- A finding matches a passport that a batch leaves stored. -/
def MatchesSurvivor (loc : PassportText) (batch : List PassportInput) (fullCatalog : Bool)
    (s : PassportState) (f : Finding) : Prop :=
  ∃ id p, survivor loc batch fullCatalog s id = some p ∧ Matches loc.toCollation f p

theorem isSome_best_savePassports_iff {loc : PassportText} {batch : List PassportInput}
    {fullCatalog : Bool} {s : PassportState} {f : Finding} :
    ((savePassports loc batch fullCatalog s).1.best loc.toCollation f).isSome = true ↔
      MatchesSurvivor loc batch fullCatalog s f := by
  rw [isSome_best_iff]
  constructor
  · rintro ⟨p, hp, hmatches⟩
    refine ⟨p.internalId, p, ?_, hmatches⟩
    rw [← find?_savePassports]
    exact Table.find?_of_mem hp
  · rintro ⟨id, p, hp, hmatches⟩
    rw [← find?_savePassports] at hp
    exact ⟨p, Table.mem_of_find? hp, hmatches⟩

/--
Saving a batch loses nothing of the replaced passports exactly when each of their findings matches
a passport that the batch leaves stored: the link of a successor is made anew, and does not outlast
a finding that has named the replaced passport only.
-/
theorem loses_nothing_iff (loc : PassportText) (now : String) (batch : List PassportInput)
    (fullCatalog : Bool) (read : RowOrder) (c : Catalog) :
    LosesNothing loc.toLocale now (batchReplacements loc batch fullCatalog c.tables) c
        (c.upsert loc now batch fullCatalog read) ↔
      ∀ f ∈ c.tables.findings, ∀ l, c.tables.links f.id = some l →
        l.passportInternalId ∈
          (batchReplacements loc batch fullCatalog c.tables).map Prod.fst →
        MatchesSurvivor loc batch fullCatalog c.tables f := by
  constructor
  · intro h f hf l hl hold
    have hlinked := h.linked f hf l hl hold
    rw [links_upsert_of_replaced hf hl hold, Option.isSome_map] at hlinked
    exact isSome_best_savePassports_iff.1 hlinked
  · intro hmatches
    refine ⟨fun f hf l hl hold => ?_, fun row hrow pair hpair hid => ?_,
      fun pair hpair => inherits_trends hpair, fun pair hpair => inherits_details hpair,
      fun pair hpair => ⟨?_, isEarliest_firstSeen hpair⟩, fun id hid => ?_⟩
    · rw [links_upsert_of_replaced hf hl hold, Option.isSome_map]
      exact isSome_best_savePassports_iff.2 (hmatches f hf l hl hold)
    · exact List.mem_map.2 ⟨row, hrow, replacePassport_of_planned hpair hid⟩
    · exact isStored_upsert loc now batch fullCatalog (.inl (new_of_planned hpair).1)
        (new_of_planned hpair).2
    · have hgone : isStored (c.upsert loc now batch fullCatalog read).tables id = false := by
        rw [isStored, find?_upsert, survivor, if_pos hid]
        rfl
      have hnot : ¬ isStored (c.upsert loc now batch fullCatalog read).tables id = true := by
        rw [hgone]
        exact Bool.false_ne_true
      refine ⟨hgone, fun finding l hl heq => hnot (heq ▸ Catalog.linked _ finding l hl), ?_,
        fun row hrow heq => hnot (Catalog.referred _ row hrow id heq)⟩
      rw [← Option.not_isSome_iff_eq_none]
      exact fun hsome => hnot (Catalog.trended _ id hsome)

/-! ## A finding that names the replaced passport -/

theorem strip_firstId :
    (some "P1").map strip = some "P1" :=
  rfl

/-- A finding that names the stored version of a passport, and no CVE. -/
def namedFinding : Finding where
  id := 1
  assetId := "host-1"
  vulnerabilityId := some "P1"
  cveName := none
  cleanId := strip_firstId

/-- The finding is linked to the stored version. -/
def storedVersion : Catalog where
  tables :=
    { findings := ⟨[namedFinding], by simp, by simp⟩
      passports := storedFirst.passports
      links := fun id => if id = 1 then some ⟨"P1", .vulnerId, "2026-01-01"⟩ else none }
  firstSeen := fun _ => "2026-01-01"
  trends := fun _ => none
  cases := []
  linked := by
    intro id l hl
    dsimp only at hl
    split_ifs at hl
    cases hl
    decide
  trended := fun _ h => absurd h Bool.false_ne_true
  referred := fun _ h => absurd h List.not_mem_nil

/-- The rows of a join in the order of the replacements. -/
def planOrder : RowOrder where
  order := id
  perm := fun _ => List.Perm.refl _

/-- The second version replaces the first one, and the finding of the first loses its link. -/
theorem replacement_unlinks_finding :
    ¬ LosesNothing plainText.toLocale "2026-01-02"
      (batchReplacements plainText [secondVersion] true storedVersion.tables) storedVersion
        (storedVersion.upsert plainText "2026-01-02" [secondVersion] true planOrder) := by
  intro h
  have hold : (storedVersion.tables.links 1).any (fun l => decide (l.passportInternalId ∈
      (batchReplacements plainText [secondVersion] true storedVersion.tables).map Prod.fst)) =
        true := by
    decide +kernel
  obtain ⟨l, hl, hmem⟩ := (Option.any_eq_true _ _).1 hold
  have hlinked := h.linked namedFinding (List.mem_singleton_self _) l hl (of_decide_eq_true hmem)
  have hbest : (savePassports plainText [secondVersion] true storedVersion.tables).1.best
      plainText.toCollation namedFinding = none := by
    decide +kernel
  rw [links_upsert_of_replaced (List.mem_singleton_self _) hl (of_decide_eq_true hmem), hbest]
    at hlinked
  cases hlinked

end Absorption
end Passports
end MpvmApp
