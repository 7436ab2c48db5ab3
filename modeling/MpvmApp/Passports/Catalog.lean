import Mathlib.Algebra.GroupWithZero.Nat
import MpvmApp.Passports.Relink

/-!
# Operations on passports

Passports are saved from the catalog, from the trend snapshot and with their details.
The catalog can show that stored passports are issued anew under other ids: their
successors absorb them.  After the rows are saved most operations relink findings.

Main definitions:

- `planPassportReplacements`: the pairs of old passports and their successors.
- `savePassports`, `saveTrends`, `saveDetails`: the rows before any relink.
- `PassportOperation.apply`: the operations with their relinks.

Main results:

- Theorem `Plan.Valid.planPassportReplacements`: a successor is never replaced itself.
- Theorem `covered_savePassports`: a catalog save is covered by its targeted relink.
-/

namespace MpvmApp
namespace Passports

open Sql

/-! ## The trigger -/

/-- The collation, and the elements of an array that is stored as a text, if it is one. -/
structure PassportText extends Collation where
  elements : String → Option (List Json)

/-- The CVE name of an element, in upper case. -/
def cveNameOf (loc : PassportText) (cve : Json) : String :=
  let members := ["display_name", "displayName", "cve", "name", "value"].map cve.getText
  let whole := match cve with
    | .str text => some text
    | _ => none
  loc.upper ((members.foldr coalesce whole).getD "")

/-- The CVE names of a document, or nothing when it is malformed. -/
def cveNamesOf (loc : PassportText) (cvesJson : String) : Option (List String) :=
  (loc.elements ((nullIfEmpty (some cvesJson)).getD "[]")).map fun cves =>
    fromKeys ((cves.map (cveNameOf loc)).filter fun name => decide (name ≠ ""))

/-- The text in which the trigger searches the family. -/
def Passport.searchText (loc : PassportText) (p : Passport) : String :=
  loc.lower (concatWs [p.name, p.externalId, p.packageId, p.packageVersion,
    some p.rawRecordJson, p.rawDetailJson])

/-- `vulnerability_passport_cves_sync` for a row that is written. -/
def Passport.synced (loc : PassportText) (p : Passport) : Passport :=
  { p with
    cveNames := (cveNamesOf loc p.cvesJson).getD p.cveNames
    osFamily := osFamilyOf (p.searchText loc) }

/-! ## The catalog -/

/-- A passport of the catalog as it is fetched. -/
structure PassportInput where
  internalId : Option String
  externalId : Option String := none
  name : Option String := none
  severity : Option String := none
  score : Option String := none
  issueTime : Option String := none
  packageId : Option String := none
  packageVersion : Option String := none
  cvesJson : String := "[]"
  metricsJson : String := "\x7b\x7d"
  rawRecordJson : String := "\x7b\x7d"

/-- The values that are saved for a passport. -/
structure PassportValue where
  internalId : String
  externalId : Option String
  name : Option String
  severity : Option String
  score : Option String
  issueTime : Option String
  packageId : Option String
  packageVersion : Option String
  cvesJson : String
  metricsJson : String
  rawRecordJson : String

/-- The cleaned values of a passport, which is skipped without an id. -/
def PassportInput.value? (input : PassportInput) : Option PassportValue :=
  (cleanText input.internalId).map fun internalId =>
    { internalId := internalId
      externalId := cleanText input.externalId
      name := cleanText input.name
      severity := cleanText input.severity
      score := cleanText input.score
      issueTime := cleanText input.issueTime
      packageId := cleanText input.packageId
      packageVersion := cleanText input.packageVersion
      cvesJson := input.cvesJson
      metricsJson := input.metricsJson
      rawRecordJson := input.rawRecordJson }

/-- The last value of each id, in the order of the ids. -/
def catalogValues (batch : List PassportInput) : List PassportValue :=
  let values := batch.filterMap PassportInput.value?
  ((fromKeys (values.map PassportValue.internalId)).filterMap fun id =>
    values.reverse.find? fun v => decide (v.internalId = id)).insertionSort
      fun v w => v.internalId ≤ w.internalId

/-- The stored row differs from the values. -/
def PassportValue.differs (v : PassportValue) (row : Passport) : Bool :=
  decide ((row.externalId, row.name, row.severity, row.score, row.issueTime) ≠
      (v.externalId, v.name, v.severity, v.score, v.issueTime)) ||
    decide ((row.packageId, row.packageVersion, row.cvesJson, row.metricsJson,
        row.rawRecordJson) ≠
      (v.packageId, v.packageVersion, v.cvesJson, v.metricsJson, v.rawRecordJson))

/-- The row with the values in place of those of the stored row, if there is one. -/
def PassportValue.row (loc : PassportText) (v : PassportValue) (old : Option Passport) :
    Passport :=
  { old.getD { internalId := v.internalId } with
    internalId := v.internalId
    externalId := v.externalId
    name := v.name
    severity := v.severity
    score := v.score
    issueTime := v.issueTime
    packageId := v.packageId
    packageVersion := v.packageVersion
    cvesJson := v.cvesJson
    metricsJson := v.metricsJson
    rawRecordJson := v.rawRecordJson : Passport }.synced loc

@[simp]
theorem valueRow_internalId (loc : PassportText) (v : PassportValue) (old : Option Passport) :
    (v.row loc old).internalId = v.internalId :=
  rfl

/-- The passports. -/
abbrev PassportTable := Table Passport Passport.internalId Passport.internalId

/-- The rows and the ids of the new and the changed ones, after one more value. -/
def upsertValue (loc : PassportText) (acc : PassportTable × List String) (v : PassportValue) :
    PassportTable × List String :=
  if (acc.1.find? v.internalId).all v.differs then
    (acc.1.upsert v.internalId (v.row loc) (valueRow_internalId loc v), acc.2 ++ [v.internalId])
  else acc

/-! ## Replacements -/

/-- The columns by which a passport and its successor are paired. -/
structure IdRow where
  internalId : String
  externalId : Option String
  packageId : Option String
  packageVersion : Option String
deriving DecidableEq

/-- How strict the pairing is. -/
inductive Depth where
  | exact
  | package
  | external
deriving DecidableEq, Repr

/-- The key of a row at a depth. -/
def IdRow.key (row : IdRow) (depth : Depth) : Option (List (Option String)) :=
  (nullIfEmpty row.externalId).bind fun externalId =>
    match depth with
    | .exact => some [some externalId, row.packageId, row.packageVersion]
    | .package => row.packageId.map fun packageId => [some externalId, some packageId]
    | .external => some [some externalId]

/-- `_passport_package_unknown`. -/
def passportPackageUnknown (successor : IdRow) (stale : List IdRow) : Bool :=
  successor.packageId.isNone || stale.all fun row => row.packageId.isNone

/-- The pairs so far, the successors that could not be told apart, and the open rows. -/
structure Plan where
  pairs : List (String × String) := []
  ambiguous : List String := []
  pending : List IdRow

/-- The rows of one key are paired with their successor, if it is the only one. -/
def pairKey (successors : List IdRow) (depth : Depth) (plan : Plan)
    (key : List (Option String)) : Plan :=
  let old := plan.pending.filter fun row => decide (row.key depth = some key)
  match successors.filter fun row => decide (row.key depth = some key) with
  | [] => plan
  | [new] =>
      if depth = .external && !passportPackageUnknown new old then plan
      else
        { plan with
          pairs := plan.pairs ++ old.map fun row => (row.internalId, new.internalId)
          pending := plan.pending.filter fun row => !decide (row.key depth = some key) }
  | new => { plan with ambiguous := plan.ambiguous ++ new.map IdRow.internalId }

/-- The pairs at one depth. -/
def pairDepth (successors : List IdRow) (plan : Plan) (depth : Depth) : Plan :=
  (fromKeys (plan.pending.filterMap fun row => row.key depth)).foldl
    (pairKey successors depth) plan

/-- `plan_passport_replacements`. -/
def planPassportReplacements (successors stale : List IdRow) (loose : Bool) : Plan :=
  let successors := successors.filter fun row => decide (row.internalId ≠ "")
  let pending := stale.filter fun row =>
    decide (row.internalId ≠ "") && decide (row.internalId ∉ successors.map IdRow.internalId)
  (if loose then [Depth.exact, .package, .external] else [.exact]).foldl
    (pairDepth successors) { pending := pending }

/-- The columns of the values of a passport. -/
def PassportValue.idRow (v : PassportValue) : IdRow where
  internalId := v.internalId
  externalId := v.externalId
  packageId := v.packageId
  packageVersion := v.packageVersion

/-- The columns of a stored passport. -/
def Passport.idRow (p : Passport) : IdRow where
  internalId := p.internalId
  externalId := p.externalId
  packageId := p.packageId
  packageVersion := p.packageVersion

/-- `_plan_passport_id_replacements`. -/
def planPassportIdReplacements (passports : PassportTable) (values : List PassportValue)
    (knownIds : List String) (fullCatalog : Bool) : List (String × String) :=
  let incoming := (values.map PassportValue.idRow).filter fun row =>
    (nullIfEmpty row.externalId).isSome
  let incomingIds := values.map PassportValue.internalId
  let unseen := (passports.rows.map Passport.idRow).filter fun row =>
    decide (row.internalId ∉ incomingIds)
  if fullCatalog then
    (planPassportReplacements incoming (unseen.filter fun row => row.externalId.isSome) true).pairs
  else
    let successors := incoming.filter fun row => decide (row.internalId ∉ knownIds)
    let externalIds := successors.map IdRow.externalId
    (planPassportReplacements successors
      (unseen.filter fun row => row.externalId.isSome && externalIds.contains row.externalId)
      false).pairs

/-- The details of the old rows of a passport: the one that was loaded last. -/
def inheritedDetail (loc : PassportText) (olds : List Passport) : Option String :=
  (best (fun p => issueRank loc.toCollation p.detailUpdatedAt)
    (olds.filter fun p => p.rawDetailJson.isSome)).bind Passport.rawDetailJson

/-- The stored rows that a passport absorbs. -/
def absorbedBy (passports : PassportTable) (pairs : List (String × String)) (newId : String) :
    List Passport :=
  (pairs.filter fun pair => decide (pair.2 = newId)).filterMap fun pair => passports.find? pair.1

/-- The row of a passport after it has absorbed others. -/
def Passport.absorb (loc : PassportText) (olds : List Passport) (p : Passport) : Passport :=
  if olds = [] then p
  else
    { p with
      rawDetailJson := coalesce p.rawDetailJson (inheritedDetail loc olds)
      detailUpdatedAt := if p.rawDetailJson.isNone then none else p.detailUpdatedAt : Passport
    }.synced loc

@[simp]
theorem absorb_internalId (loc : PassportText) (olds : List Passport) (p : Passport) :
    (p.absorb loc olds).internalId = p.internalId := by
  unfold Passport.absorb
  split <;> rfl

/-- The link of a replaced passport leads to its successor. -/
def Link.moved (pairs : List (String × String)) (l : Link) : Link :=
  match pairs.find? fun pair => decide (pair.1 = l.passportInternalId) with
  | some pair => { l with passportInternalId := pair.2 }
  | none => l

/-- `DELETE` of passports, whose links go with them. -/
def deletePassports (ids : List String) (s : PassportState) : PassportState :=
  { s with
    passports := s.passports.filterRows fun p => !decide (p.internalId ∈ ids)
    links := fun id => (s.links id).filter fun l => !decide (l.passportInternalId ∈ ids) }

/-- Old passports are merged into their successors. -/
def applyReplacements (loc : PassportText) (pairs : List (String × String))
    (s : PassportState) : PassportState :=
  deletePassports (pairs.map Prod.fst)
    { s with
      passports := s.passports.mapRows
        (fun p => p.absorb loc (absorbedBy s.passports pairs p.internalId))
        (fun _ => by simp) (fun _ => by simp)
      links := fun id => (s.links id).map (Link.moved pairs) }

/-- The tables and the ids to relink after the rows of the catalog are saved. -/
def savePassports (loc : PassportText) (batch : List PassportInput) (fullCatalog : Bool)
    (s : PassportState) : PassportState × List String :=
  let values := catalogValues batch
  let knownIds := (values.map PassportValue.internalId).filter fun id =>
    (s.passports.find? id).isSome
  let (passports, changed) := values.foldl (upsertValue loc) (s.passports, [])
  let pairs := planPassportIdReplacements passports values knownIds fullCatalog
  (applyReplacements loc pairs { s with passports := passports },
    fromKeys (changed ++ pairs.map Prod.snd))

/-- `upsert_vulnerability_passports`. -/
def upsertVulnerabilityPassports (loc : PassportText) (now : String)
    (batch : List PassportInput) (fullCatalog : Bool) (s : PassportState) : PassportState :=
  let (saved, relinkIds) := savePassports loc batch fullCatalog s
  relink loc.toCollation now (some relinkIds) saved

/-! ## Trends and details -/

/-- A passport of the trend snapshot as it is fetched. -/
structure TrendInput where
  internalId : Option String
  externalId : Option String := none
  name : Option String := none
  severity : Option String := none
  score : Option String := none
  issueTime : Option String := none
  cvesJson : String := "[]"
  rawRecordJson : String := "{}"

/-- The row with the values of the snapshot that are not missing. -/
def TrendInput.row (loc : PassportText) (input : TrendInput) (internalId : String)
    (old : Option Passport) : Passport :=
  match old with
  | none =>
      { internalId := internalId
        externalId := cleanText input.externalId
        name := cleanText input.name
        severity := cleanText input.severity
        score := cleanText input.score
        issueTime := cleanText input.issueTime
        cvesJson := input.cvesJson
        rawRecordJson := input.rawRecordJson : Passport }.synced loc
  | some row =>
      { row with
        internalId := internalId
        externalId := coalesce (cleanText input.externalId) row.externalId
        name := coalesce (cleanText input.name) row.name
        severity := coalesce (cleanText input.severity) row.severity
        score := coalesce (cleanText input.score) row.score
        issueTime := coalesce (cleanText input.issueTime) row.issueTime
        cvesJson := if input.cvesJson ≠ "[]" then input.cvesJson else row.cvesJson : Passport
      }.synced loc

@[simp]
theorem trendRow_internalId (loc : PassportText) (input : TrendInput) (internalId : String)
    (old : Option Passport) :
    (input.row loc internalId old).internalId = internalId := by
  cases old <;> rfl

/-- The passports of the snapshot with their ids; those without are skipped. -/
def trendValues (batch : List TrendInput) : List (String × TrendInput) :=
  (batch.filterMap fun input => (cleanText input.internalId).map fun id => (id, input)).insertionSort
    fun v w => v.1 ≤ w.1

/-- The tables after the rows of a trend snapshot are saved. -/
def saveTrends (loc : PassportText) (batch : List TrendInput) (s : PassportState) :
    PassportState :=
  { s with
    passports := (trendValues batch).foldl
      (fun t v => t.upsert v.1 (v.2.row loc v.1) (trendRow_internalId loc v.2 v.1)) s.passports }

/-- `replace_vulnerability_passport_trends`, which fails when the snapshot has an id twice. -/
def replaceVulnerabilityPassportTrends (loc : PassportText) (now : String)
    (batch : List TrendInput) (reconcileLinks : Bool) (s : PassportState) : PassportState :=
  let savedIds := (trendValues batch).map Prod.fst
  if savedIds.Nodup then
    if reconcileLinks then relink loc.toCollation now (some savedIds) (saveTrends loc batch s)
    else saveTrends loc batch s
  else s

/-- The details of a passport: the values that are read from them, and their text. -/
structure DetailInput where
  internalId : String
  name : Option String := none
  severity : Option String := none
  score : Option String := none
  issueTime : Option String := none
  packageId : Option String := none
  packageVersion : Option String := none
  rawDetailJson : String := "{}"

/-- The row with details that have been loaded at an instant. -/
def DetailInput.row (loc : PassportText) (now : String) (input : DetailInput)
    (old : Option Passport) : Passport :=
  let row := old.getD { internalId := input.internalId }
  { row with
    internalId := input.internalId
    name := coalesce (cleanText input.name) row.name
    severity := coalesce (cleanText input.severity) row.severity
    score := coalesce (cleanText input.score) row.score
    issueTime := coalesce (cleanText input.issueTime) row.issueTime
    packageId := coalesce (cleanText input.packageId) row.packageId
    packageVersion := coalesce (cleanText input.packageVersion) row.packageVersion
    rawDetailJson := some input.rawDetailJson
    detailUpdatedAt := some now : Passport }.synced loc

@[simp]
theorem detailRow_internalId (loc : PassportText) (now : String) (input : DetailInput)
    (old : Option Passport) :
    (input.row loc now old).internalId = input.internalId :=
  rfl

/-- `_upsert_vulnerability_passport_details` without its relink. -/
def saveDetails (loc : PassportText) (now : String) (details : List DetailInput)
    (s : PassportState) : PassportState :=
  { s with
    passports := (details.insertionSort fun v w => v.internalId ≤ w.internalId).foldl
      (fun t v => t.upsert v.internalId (v.row loc now) (detailRow_internalId loc now v))
      s.passports }

/-- How a detail job ends, and whether it has come to its relink before it fails or stops. -/
inductive JobEnd where
  | completed
  | completedWithErrors
  | cancelled
  | failed (afterRelink : Bool)
  | interrupted (afterRelink : Bool)
deriving DecidableEq, Repr

/-- The job has come to the relink after its batches. -/
def JobEnd.reachesRelink : JobEnd → Bool
  | .failed afterRelink => afterRelink
  | .interrupted afterRelink => afterRelink
  | _ => true

/-- `run_vulnerability_passport_detail_job` with the batches that it saves. -/
def runDetailJob (loc : PassportText) (now : String) (batches : List (List DetailInput))
    (ending : JobEnd) (s : PassportState) : PassportState :=
  let saved := batches.foldl (fun s details => saveDetails loc now details s) s
  let loadedCount := (batches.map List.length).sum
  if ending.reachesRelink && decide (loadedCount ≠ 0) then
    relink loc.toCollation now none saved
  else saved

/-! ## Operations -/

/-- An operation on passports. -/
inductive PassportOperation where
  | upsert (batch : List PassportInput) (fullCatalog : Bool)
  /-- A full sync has relinked before and passes no `reconcile_links`; a scoped one does. -/
  | trends (batch : List TrendInput) (fullSync : Bool)
  | details (batch : List DetailInput)
  | detailJob (batches : List (List DetailInput)) (ending : JobEnd)
  | delete (internalId : String)
  | relinkAll

/-- The tables after an operation. -/
def PassportOperation.apply (loc : PassportText) (now : String) (s : PassportState) :
    PassportOperation → PassportState
  | .upsert batch fullCatalog => upsertVulnerabilityPassports loc now batch fullCatalog s
  | .trends batch fullSync => replaceVulnerabilityPassportTrends loc now batch (!fullSync) s
  | .details batch =>
      relink loc.toCollation now (some (batch.map DetailInput.internalId))
        (saveDetails loc now batch s)
  | .detailJob batches ending => runDetailJob loc now batches ending s
  | .delete internalId => deletePassports [internalId] s
  | .relinkAll => relink loc.toCollation now none s

/-! ## Replacements are disjoint -/

/-- No successor is replaced itself. -/
structure Plan.Valid (successors : List IdRow) (plan : Plan) : Prop where
  pairs : ∀ pair ∈ plan.pairs, pair.1 ∉ successors.map IdRow.internalId ∧
    pair.2 ∈ successors.map IdRow.internalId
  pending : ∀ row ∈ plan.pending, row.internalId ∉ successors.map IdRow.internalId

section Replacements

variable {successors : List IdRow} {plan : Plan}

theorem Plan.Valid.pairKey (h : plan.Valid successors) (depth : Depth)
    (key : List (Option String)) :
    (Passports.pairKey successors depth plan key).Valid successors := by
  unfold Passports.pairKey
  split
  · exact h
  · rename_i new hnew
    have hmem : new.internalId ∈ successors.map IdRow.internalId := by
      have hfiltered : new ∈ successors.filter fun row => decide (row.key depth = some key) := by
        rw [hnew]
        exact List.mem_singleton_self new
      exact List.mem_map_of_mem (List.mem_of_mem_filter hfiltered)
    dsimp only
    split
    · exact h
    · constructor
      · intro pair hpair
        rcases List.mem_append.1 hpair with hold | hnew
        · exact h.pairs pair hold
        · obtain ⟨row, hrow, rfl⟩ := List.mem_map.1 hnew
          exact ⟨h.pending row (List.mem_of_mem_filter hrow), hmem⟩
      · intro row hrow
        exact h.pending row (List.mem_of_mem_filter hrow)
  · exact ⟨h.pairs, h.pending⟩

theorem Plan.Valid.pairDepth (h : plan.Valid successors) (depth : Depth) :
    (Passports.pairDepth successors plan depth).Valid successors :=
  List.foldlRecOn _ _ h fun _ hplan key _ => hplan.pairKey depth key

/-- A successor is never replaced itself. -/
theorem Plan.Valid.planPassportReplacements (successors stale : List IdRow) (loose : Bool) :
    (planPassportReplacements successors stale loose).Valid
      (successors.filter fun row => decide (row.internalId ≠ "")) := by
  refine List.foldlRecOn _ _ ?_ fun _ hplan depth _ => hplan.pairDepth depth
  constructor
  · intro pair hpair
    cases hpair
  · intro row hrow
    have hfresh := (List.mem_filter.1 hrow).2
    simp only [Bool.and_eq_true, decide_eq_true_eq] at hfresh
    exact hfresh.2

theorem Plan.Valid.disjoint (h : plan.Valid successors) :
    ∀ pair ∈ plan.pairs, pair.2 ∉ plan.pairs.map Prod.fst := by
  intro pair hpair hmem
  obtain ⟨other, hother, heq⟩ := List.mem_map.1 hmem
  apply (h.pairs other hother).1
  rw [heq]
  exact (h.pairs pair hpair).2

theorem disjoint_planPassportIdReplacements (passports : PassportTable)
    (values : List PassportValue) (knownIds : List String) (fullCatalog : Bool) :
    ∀ pair ∈ planPassportIdReplacements passports values knownIds fullCatalog,
      pair.2 ∉ (planPassportIdReplacements passports values knownIds fullCatalog).map Prod.fst := by
  unfold planPassportIdReplacements
  dsimp only
  split
  · exact (Plan.Valid.planPassportReplacements _ _ true).disjoint
  · exact (Plan.Valid.planPassportReplacements _ _ false).disjoint

end Replacements

/-! ## Covered changes -/

section Covered

variable {loc : PassportText} {s : PassportState}

/-- The values leave the rows alone whose ids they do not report as changed. -/
theorem mem_foldl_upsertValue (loc : PassportText) (values : List PassportValue)
    (acc : PassportTable × List String) :
    (∀ id ∈ acc.2, id ∈ (values.foldl (upsertValue loc) acc).2) ∧
      ∀ p : Passport, p.internalId ∉ (values.foldl (upsertValue loc) acc).2 →
        (p ∈ (values.foldl (upsertValue loc) acc).1 ↔ p ∈ acc.1) := by
  induction values generalizing acc with
  | nil => exact ⟨fun _ h => h, fun _ _ => Iff.rfl⟩
  | cons v values ih =>
      obtain ⟨hids, hrows⟩ := ih (upsertValue loc acc v)
      rw [List.foldl_cons]
      by_cases hwrite : (acc.1.find? v.internalId).all v.differs = true
      · have hstep : upsertValue loc acc v =
            (acc.1.upsert v.internalId (v.row loc) (valueRow_internalId loc v),
              acc.2 ++ [v.internalId]) := by
          rw [upsertValue, if_pos hwrite]
        refine ⟨fun id hid => hids id ?_, fun p hp => ?_⟩
        · rw [hstep]
          exact List.mem_append_left _ hid
        · have hne : p.internalId ≠ v.internalId := by
            intro heq
            apply hp
            apply hids
            rw [hstep, heq]
            exact List.mem_append_right _ (List.mem_singleton_self _)
          rw [hrows p hp, hstep, Table.mem_upsert]
          constructor
          · rintro (rfl | ⟨hmem, _⟩)
            · exact absurd rfl hne
            · exact hmem
          · exact fun hmem => .inr ⟨hmem, hne⟩
      · have hstep : upsertValue loc acc v = acc := by
          rw [upsertValue, if_neg hwrite]
        rw [hstep] at hids hrows ⊢
        exact ⟨hids, hrows⟩

theorem covered_of_rows {passports : PassportTable} {ids : List String}
    (hrows : ∀ p : Passport, p.internalId ∉ ids → (p ∈ passports ↔ p ∈ s.passports)) :
    Covered ids s { s with passports := passports } where
  findings := rfl
  kept := fun p hp hid => (hrows p hid).1 hp
  unlinked := fun _ h => h
  linked := by
    intro id l hl
    by_cases hid : l.passportInternalId ∈ ids
    · exact .inl ⟨l, hl, hid⟩
    · refine .inr ⟨hl, fun p hp heq => (hrows p ?_).2 hp⟩
      rw [heq]
      exact hid

theorem covered_saveTrends (batch : List TrendInput) :
    Covered ((trendValues batch).map Prod.fst) s (saveTrends loc batch s) := by
  apply covered_of_rows
  intro p hp
  exact Table.mem_foldl_upsert (f := fun v : String × TrendInput => v.2.row loc v.1)
    (fun v => trendRow_internalId loc v.2 v.1) _ _ hp

theorem covered_saveDetails (now : String) (details : List DetailInput) :
    Covered (details.map DetailInput.internalId) s (saveDetails loc now details s) := by
  apply covered_of_rows
  intro p hp
  refine Table.mem_foldl_upsert (f := fun v : DetailInput => v.row loc now)
    (detailRow_internalId loc now) _ _ ?_
  intro hmem
  apply hp
  obtain ⟨v, hv, hid⟩ := List.mem_map.1 hmem
  rw [List.mem_insertionSort] at hv
  exact List.mem_map.2 ⟨v, hv, hid⟩

theorem moved_cases (pairs : List (String × String)) (l : Link) :
    (∃ pair ∈ pairs, pair.1 = l.passportInternalId ∧
      (l.moved pairs).passportInternalId = pair.2) ∨
      l.passportInternalId ∉ pairs.map Prod.fst ∧ l.moved pairs = l := by
  unfold Link.moved
  cases hfind : pairs.find? fun pair => decide (pair.1 = l.passportInternalId) with
  | some pair =>
      have hid := List.find?_some hfind
      exact .inl ⟨pair, List.mem_of_find?_eq_some hfind, of_decide_eq_true hid, rfl⟩
  | none =>
      refine .inr ⟨fun hmem => ?_, rfl⟩
      obtain ⟨pair, hpair, hid⟩ := List.mem_map.1 hmem
      have hne := List.find?_eq_none.1 hfind pair hpair
      exact hne (decide_eq_true hid)

theorem absorb_of_not_mem {passports : PassportTable} {pairs : List (String × String)}
    {p : Passport} (hp : p.internalId ∉ pairs.map Prod.snd) :
    p.absorb loc (absorbedBy passports pairs p.internalId) = p := by
  have hnone : (pairs.filter fun pair => decide (pair.2 = p.internalId)) = [] := by
    rw [List.filter_eq_nil_iff]
    intro pair hpair hid
    exact hp (List.mem_map.2 ⟨pair, hpair, of_decide_eq_true hid⟩)
  unfold Passport.absorb absorbedBy
  rw [hnone]
  rfl

/-- The rows of the catalog are covered by a relink of the new, the changed and the successors. -/
theorem covered_savePassports (batch : List PassportInput) (fullCatalog : Bool) :
    Covered (savePassports loc batch fullCatalog s).2 s
      (savePassports loc batch fullCatalog s).1 := by
  unfold savePassports
  dsimp only
  generalize (catalogValues batch).map PassportValue.internalId = ids
  obtain ⟨_, hrows⟩ := mem_foldl_upsertValue loc (catalogValues batch) (s.passports, [])
  generalize (catalogValues batch).foldl (upsertValue loc) (s.passports, []) = acc at hrows
  obtain ⟨passports, changed⟩ := acc
  have hdisjoint := disjoint_planPassportIdReplacements passports (catalogValues batch)
    (ids.filter fun id => (s.passports.find? id).isSome) fullCatalog
  generalize planPassportIdReplacements passports _ _ fullCatalog = pairs at hdisjoint
  dsimp only at hrows ⊢
  -- a row under an id that is not relinked stays as it is
  have hsame : ∀ p : Passport, p.internalId ∉ fromKeys (changed ++ pairs.map Prod.snd) →
      p.internalId ∉ changed ∧ p.internalId ∉ pairs.map Prod.snd := by
    intro p hp
    rw [mem_fromKeys, List.mem_append, not_or] at hp
    exact hp
  refine ⟨rfl, ?_, ?_, ?_⟩
  · intro p hp hid
    obtain ⟨hchanged, hsuccessor⟩ := hsame p hid
    simp only [applyReplacements, deletePassports, Table.mem_def, Table.filterRows,
      List.mem_filter, Table.mapRows, List.mem_map] at hp
    obtain ⟨⟨old, hold, rfl⟩, _⟩ := hp
    rw [absorb_internalId] at hchanged hsuccessor
    rw [absorb_of_not_mem hsuccessor]
    exact (hrows old hchanged).1 hold
  · intro id hnone
    simp [applyReplacements, deletePassports, hnone]
  · intro id l hl
    rcases moved_cases pairs l with ⟨pair, hpair, _, hmoved⟩ | ⟨hold, hmoved⟩
    · left
      refine ⟨l.moved pairs, ?_, ?_⟩
      · have hsurvives := hdisjoint pair hpair
        rw [← hmoved] at hsurvives
        simp [applyReplacements, deletePassports, hl, Option.filter, hsurvives]
      · rw [hmoved, mem_fromKeys]
        exact List.mem_append_right _ (List.mem_map_of_mem hpair)
    · have hlink : (applyReplacements loc pairs { s with passports := passports }).links id =
          some l := by
        simp only [applyReplacements, deletePassports, hl, Option.map_some, hmoved, Option.filter,
          hold, decide_false, Bool.not_false, if_true]
      by_cases hid : l.passportInternalId ∈ fromKeys (changed ++ pairs.map Prod.snd)
      · exact .inl ⟨l, hlink, hid⟩
      · refine .inr ⟨hlink, fun p hp heq => ?_⟩
        rw [← heq] at hid hold
        obtain ⟨hchanged, hsuccessor⟩ := hsame p hid
        simp only [applyReplacements, deletePassports, Table.mem_def, Table.filterRows,
          List.mem_filter, Table.mapRows, List.mem_map]
        refine ⟨⟨p, (hrows p hchanged).2 hp, absorb_of_not_mem hsuccessor⟩, ?_⟩
        simpa using hold

end Covered

end Passports
end MpvmApp
