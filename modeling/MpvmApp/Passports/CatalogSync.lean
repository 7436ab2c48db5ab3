import Mathlib.Data.Set.Basic
import MpvmApp.Passports.Recreation
import MpvmApp.Passports.Replacements

/-!
# A sync of the catalog from its pages

A passport query reads the pages of its result until one is short or the reported total is
reached, and saves their passports.  Whether the catalog is taken for complete depends on the
request alone, and a complete catalog replaces the stored passports that it does not name.

Main definitions:

- Definition `fetchPages`: the pages with their retries.
- Definition `plannedReplacements`: the passports that a query replaces.
- Definition `EndsAfter`: the pages on which the loop goes on, and the one on which it ends.

Main results:

- Theorem `fetchPages_eq_fetched_iff`: the records are those of the pages up to the first stop.
- Theorem `retired_iff_planned`: a query takes away the passports that it replaces, and no others.
- Theorem `retires_only_gone_iff`: a full sync replaces only passports that are gone exactly
  when every other one that the pages leave out has no successor on them.
-/

namespace MpvmApp
namespace Passports

open Sql Recreation

/-! ## The pages -/

/-- `MpVmApiError`. -/
structure ApiError where
  message : String
  statusCode : Option Nat
deriving DecidableEq

/-- The page is asked for again. -/
def ApiError.isRetried (e : ApiError) : Bool :=
  decide (e.statusCode = some 404) &&
    decide ("non-JSON response".toList <:+: e.message.toList)

/-- The records of a response and the total that it reports. -/
structure Page where
  records : List PassportInput
  total : Option Int

/-- What a request is answered with. -/
inductive Answer where
  | page (page : Page)
  | failed (e : ApiError)

/-- What the loop has read so far. -/
structure Grid where
  records : List PassportInput := []
  expectedTotal : Option Int := none
  offset : Nat := 0

/-- How the loop ends, unless it goes on asking. -/
inductive Fetch where
  | fetched (records : List PassportInput) (reportedTotal : Option Int)
  | raised (e : ApiError)
  | asking

/-- The error after the last attempt. -/
def unavailablePage (offset currentLimit count : Nat) : ApiError where
  message := s!"MP VM вернул 404 при чтении assets_grid/data: offset={offset}, " ++
    s!"limit={currentLimit}, получено до ошибки {count} записей. " ++
    "Страница недоступна после 3 повторов; проверьте журнал MP VM " ++
    "или прокси для этого offset. Неполная выгрузка не сохранена."
  statusCode := some 404

/-- `limit is None or offset < limit`. -/
def Grid.goesOn (limit : Option Nat) (grid : Grid) : Bool :=
  limit.all fun limit => decide (grid.offset < limit)

/-- The size of the next page. -/
def Grid.currentLimit (limit : Option Nat) (batchSize : Nat) (grid : Grid) : Nat :=
  limit.elim batchSize fun limit => min batchSize (limit - grid.offset)

/-- What is read after one more page. -/
def Grid.extend (grid : Grid) (page : Page) (currentLimit : Nat) : Grid where
  records := grid.records ++ page.records
  expectedTotal := page.total.orElse fun _ => grid.expectedTotal
  offset := grid.offset + currentLimit

/-- The records reach the total, when there is one. -/
def Grid.reachesTotal (grid : Grid) : Bool :=
  grid.expectedTotal.any fun total => decide (total ≤ (grid.records.length : Int))

/-- The loop, with the attempt that the next answer is for. -/
def fetchPages (limit : Option Nat) (batchSize : Nat) (grid : Grid) (attempt : Nat) :
    List Answer → Fetch
  | [] => if grid.goesOn limit then .asking else .fetched grid.records grid.expectedTotal
  | .failed e :: answers =>
      if !grid.goesOn limit then .fetched grid.records grid.expectedTotal
      else if !e.isRetried then .raised e
      else if attempt = 3 then
        .raised (unavailablePage grid.offset (grid.currentLimit limit batchSize)
          grid.records.length)
      else fetchPages limit batchSize grid (attempt + 1) answers
  | .page page :: answers =>
      if !grid.goesOn limit then .fetched grid.records grid.expectedTotal
      else
        let currentLimit := grid.currentLimit limit batchSize
        let next := grid.extend page currentLimit
        if page.records.length < currentLimit || next.reachesTotal then
          .fetched next.records next.expectedTotal
        else fetchPages limit batchSize next 0 answers

/-- `fetch_asset_grid_records`. -/
def fetchAssetGridRecords (limit : Option Nat) (batchSize : Nat) (answers : List Answer) : Fetch :=
  fetchPages limit batchSize {} 0 answers

/-! ## The query -/

/-- The key under which a passport is kept once. -/
def PassportInput.dedupeKey (passport : PassportInput) : Option String :=
  (nullIfEmpty passport.internalId).orElse fun _ =>
    (nullIfEmpty passport.externalId).orElse fun _ => passport.name

/-- `dedupe_vulnerability_passports` after the keys that are seen. -/
def dedupePassports (seen : List String) : List PassportInput → List PassportInput
  | [] => []
  | passport :: passports =>
      match passport.dedupeKey with
      | none => passport :: dedupePassports seen passports
      | some key =>
          if key ∈ seen then dedupePassports seen passports
          else passport :: dedupePassports (key :: seen) passports

/-- `VULNER_PASSPORT_PDQL`. -/
def vulnerPassportPdql : String :=
  "select(@VulnerPassport, compact(VulnerPassport.CVEs),\n" ++
    "VulnerPassport.SeverityRating, VulnerPassport.Score,\n" ++
    "VulnerPassport.IssueTime, VulnerPassport.PackageId,\n" ++
    "VulnerPassport.PackageVersion, VulnerPassport.Metrics)\n" ++
    "| limit(0)"

/-- `VulnerabilityPassportQueryRequest`. -/
structure PassportQuery where
  pdql : String := vulnerPassportPdql
  groupIds : List String := []
  assetIds : List String := []
  limit : Option Nat := none
  batchSize : Nat := 5000
  saveToDb : Bool := true
  limit_ge : ∀ l ∈ limit, 1 ≤ l := by simp
  batchSize_ge : 1 ≤ batchSize := by decide
  batchSize_le : batchSize ≤ 10000 := by decide

/-- The words of a text with one space between them. -/
def joinedWords (text : String) : String :=
  trim (String.ofList (squeeze isSpace false text.toList))

/-- The query asks for the complete catalog. -/
def PassportQuery.fullCatalogSync (query : PassportQuery) : Bool :=
  decide (joinedWords query.pdql = joinedWords vulnerPassportPdql) && query.limit.isNone &&
    query.groupIds.isEmpty && query.assetIds.isEmpty

/-- The passports that the query saves, when it comes to that. -/
def PassportQuery.savedBatch (query : PassportQuery) (answers : List Answer) :
    Option (List PassportInput) :=
  match fetchAssetGridRecords query.limit query.batchSize answers with
  | .fetched records _ => if query.saveToDb then some (dedupePassports [] records) else none
  | _ => none

/-- The pairs of old and new ids for a batch. -/
def batchReplacements (loc : PassportText) (batch : List PassportInput) (fullCatalog : Bool)
    (s : PassportState) : List (String × String) :=
  planPassportIdReplacements ((catalogValues batch).foldl (upsertValue loc) (s.passports, [])).1
    (catalogValues batch)
    (((catalogValues batch).map PassportValue.internalId).filter fun id =>
      (s.passports.find? id).isSome) fullCatalog

/-- The old and new ids of the passports that a query replaces. -/
def plannedReplacements (loc : PassportText) (query : PassportQuery) (answers : List Answer)
    (s : PassportState) : List (String × String) :=
  match query.savedBatch answers with
  | some batch => batchReplacements loc batch query.fullCatalogSync s
  | none => []

/-- `_execute_vulnerability_passport_query` up to the trends. -/
def executeVulnerabilityPassportQuery (loc : PassportText) (now : String) (query : PassportQuery)
    (answers : List Answer) (s : PassportState) : PassportState :=
  match query.savedBatch answers with
  | some batch => upsertVulnerabilityPassports loc now batch query.fullCatalogSync s
  | none => s

/-! ## The pages that are read -/

/-- The pages that are answered until a request fails for good. -/
def deliveredPages : Nat → List Answer → List Page
  | _, [] => []
  | attempt, .failed e :: answers =>
      if e.isRetried && decide (attempt ≠ 3) then deliveredPages (attempt + 1) answers else []
  | _, .page page :: answers => page :: deliveredPages 0 answers

/-- The last total that the pages report. -/
def lastTotal (pages : List Page) : Option Int :=
  pages.foldl (fun total page => page.total.orElse fun _ => total) none

/-- The last of the pages is short, or their records reach the total. -/
def stops (batchSize : Nat) (pages : List Page) : Bool :=
  (pages.getLast?.any fun page => decide (page.records.length < batchSize)) ||
    (lastTotal pages).any fun total =>
      decide (total ≤ ((pages.flatMap Page.records).length : Int))

/-- After the first pages it takes just these to stop. -/
def EndsAfter (batchSize : Nat) (front pages : List Page) : Prop :=
  stops batchSize (front ++ pages) = true ∧
    ∀ first, first <+: pages → first ≠ pages → stops batchSize (front ++ first) = false

/-- The values of the pages. -/
def pageValues (pages : List Page) : List PassportValue :=
  catalogValues (dedupePassports [] (pages.flatMap Page.records))

/-- The values that can be successors. -/
def successorRows (values : List PassportValue) : List IdRow :=
  (values.map PassportValue.idRow).filter fun row => (nullIfEmpty row.externalId).isSome

/-- The stored passports of the catalog that the values do not name. -/
def missingRows (values : List PassportValue) (s : PassportState) : List IdRow :=
  (s.passports.rows.map Passport.idRow).filter fun row =>
    row.externalId.isSome &&
      decide (row.internalId ≠ "" ∧ row.internalId ∉ values.map PassportValue.internalId)

section Pages

variable {batchSize : Nat} {front pages : List Page}

@[simp]
theorem lastTotal_concat (front : List Page) (page : Page) :
    lastTotal (front ++ [page]) = page.total.orElse fun _ => lastTotal front := by
  simp [lastTotal]

@[simp]
theorem endsAfter_nil :
    EndsAfter batchSize front [] ↔ stops batchSize front = true := by
  simp [EndsAfter]

@[simp]
theorem endsAfter_cons {page : Page} :
    EndsAfter batchSize front (page :: pages) ↔
      stops batchSize front = false ∧ EndsAfter batchSize (front ++ [page]) pages := by
  unfold EndsAfter
  rw [List.append_assoc, List.singleton_append]
  constructor
  · rintro ⟨hstops, hbefore⟩
    refine ⟨?_, hstops, ?_⟩
    · simpa using hbefore [] List.nil_prefix (List.cons_ne_nil _ _).symm
    · intro first hfirst hne
      rw [List.append_assoc]
      exact hbefore (page :: first) (List.cons_prefix_cons.2 ⟨rfl, hfirst⟩) (by simpa using hne)
  · rintro ⟨hfront, hstops, hbefore⟩
    refine ⟨hstops, ?_⟩
    intro first hfirst hne
    rcases List.prefix_cons_iff.1 hfirst with rfl | ⟨rest, rfl, hrest⟩
    · simpa using hfront
    · have hnot := hbefore rest hrest (by simpa using hne)
      rw [List.append_assoc] at hnot
      exact hnot

/-- What the loop has read after the first pages. -/
def gridOf (batchSize : Nat) (front : List Page) : Grid where
  records := front.flatMap Page.records
  expectedTotal := lastTotal front
  offset := front.length * batchSize

theorem gridOf_nil :
    gridOf batchSize [] = {} := by
  simp [gridOf, lastTotal]

theorem gridOf_extend (front : List Page) (page : Page) :
    (gridOf batchSize front).extend page batchSize = gridOf batchSize (front ++ [page]) := by
  simp [gridOf, Grid.extend, Nat.add_mul]

theorem stops_concat_eq (front : List Page) (page : Page) :
    stops batchSize (front ++ [page]) =
      (decide (page.records.length < batchSize) ||
        (gridOf batchSize (front ++ [page])).reachesTotal) := by
  simp [stops, gridOf, Grid.reachesTotal]

theorem fetchPages_page (front : List Page) (attempt : Nat) (page : Page) (answers : List Answer) :
    fetchPages none batchSize (gridOf batchSize front) attempt (.page page :: answers) =
      if stops batchSize (front ++ [page]) then
        .fetched ((front ++ [page]).flatMap Page.records) (lastTotal (front ++ [page]))
      else fetchPages none batchSize (gridOf batchSize (front ++ [page])) 0 answers := by
  rw [stops_concat_eq, ← gridOf_extend]
  simp only [fetchPages, Grid.goesOn, Grid.currentLimit, Option.all_none, Option.elim_none,
    Bool.not_true, Bool.false_eq_true, if_false, gridOf_extend]
  rfl

theorem exists_endsAfter_cons (hfront : stops batchSize front = false) {page : Page}
    {delivered : List Page} {p : List Page → Prop} :
    (∃ pages, pages <+: page :: delivered ∧ EndsAfter batchSize front pages ∧ p (front ++ pages)) ↔
      ∃ pages, pages <+: delivered ∧ EndsAfter batchSize (front ++ [page]) pages ∧
        p (front ++ [page] ++ pages) := by
  constructor
  · rintro ⟨pages, hpages, hends, hread⟩
    rcases List.prefix_cons_iff.1 hpages with rfl | ⟨rest, rfl, hrest⟩
    · rw [endsAfter_nil, hfront] at hends
      cases hends
    · refine ⟨rest, hrest, (endsAfter_cons.1 hends).2, ?_⟩
      rwa [List.append_assoc, List.singleton_append]
  · rintro ⟨pages, hpages, hends, hread⟩
    refine ⟨page :: pages, List.cons_prefix_cons.2 ⟨rfl, hpages⟩,
      endsAfter_cons.2 ⟨hfront, hends⟩, ?_⟩
    rwa [List.append_assoc, List.singleton_append] at hread

/-- The loop reads the delivered pages up to the first stop. -/
theorem fetchPages_eq_fetched_iff {answers : List Answer} {attempt : Nat}
    {records : List PassportInput} {total : Option Int}
    (hfront : stops batchSize front = false) :
    fetchPages none batchSize (gridOf batchSize front) attempt answers =
        .fetched records total ↔
      ∃ pages, pages <+: deliveredPages attempt answers ∧ EndsAfter batchSize front pages ∧
        records = (front ++ pages).flatMap Page.records ∧ total = lastTotal (front ++ pages) := by
  have hnil : ∀ {pages : List Page}, pages <+: [] → ¬ EndsAfter batchSize front pages := by
    intro pages hpages hends
    rw [List.prefix_nil.1 hpages, endsAfter_nil, hfront] at hends
    cases hends
  induction answers generalizing attempt front with
  | nil =>
      rw [fetchPages, deliveredPages]
      refine iff_of_false (by simp [Grid.goesOn]) ?_
      rintro ⟨pages, hpages, hends, _⟩
      exact hnil hpages hends
  | cons answer answers ih =>
      cases answer with
      | failed e =>
          rw [fetchPages, deliveredPages]
          simp only [Grid.goesOn, Option.all_none, Bool.not_true, Bool.false_eq_true, if_false]
          by_cases hretried : e.isRetried = true ∧ attempt ≠ 3
          · obtain ⟨he, hattempt⟩ := hretried
            simp only [he, hattempt, Bool.not_true, Bool.false_eq_true, if_false, Bool.true_and,
              decide_true, ne_eq, not_false_eq_true, if_true]
            exact ih hfront hnil
          · -- the request fails for good
            have hlast : (e.isRetried && decide (attempt ≠ 3)) = false := by
              simpa using hretried
            rw [hlast, if_neg Bool.false_ne_true]
            refine iff_of_false ?_ ?_
            · split_ifs with he hattempt
              · nofun
              · nofun
              · exact absurd ⟨by simpa using he, hattempt⟩ hretried
            · rintro ⟨pages, hpages, hends, _⟩
              exact hnil hpages hends
      | page page =>
          rw [fetchPages_page, deliveredPages]
          refine Iff.trans ?_ (exists_endsAfter_cons hfront
            (p := fun read => records = read.flatMap Page.records ∧ total = lastTotal read)).symm
          cases hstops : stops batchSize (front ++ [page]) with
          | false =>
              rw [if_neg Bool.false_ne_true]
              refine ih hstops ?_
              intro pages hpages hends
              rw [List.prefix_nil.1 hpages, endsAfter_nil, hstops] at hends
              cases hends
          | true =>
              rw [if_pos rfl, Fetch.fetched.injEq]
              constructor
              · rintro ⟨rfl, rfl⟩
                exact ⟨[], List.nil_prefix, endsAfter_nil.2 hstops, by simp, by simp⟩
              · rintro ⟨pages, _, hends, hrecords, htotal⟩
                cases pages with
                | nil =>
                    rw [List.append_nil] at hrecords htotal
                    exact ⟨hrecords.symm, htotal.symm⟩
                | cons next pages =>
                    rw [(endsAfter_cons.1 hends).1] at hstops
                    cases hstops

end Pages

/-! ## The plan of a full catalog -/

section Plan

variable {loc : PassportText} {s : PassportState} {batch : List PassportInput}

theorem internalId_ne_of_mem_catalogValues {v : PassportValue} (hv : v ∈ catalogValues batch) :
    v.internalId ≠ "" := by
  unfold catalogValues at hv
  dsimp only at hv
  rw [List.mem_insertionSort] at hv
  obtain ⟨id, _, hfind⟩ := List.mem_filterMap.1 hv
  have hmem := List.mem_reverse.1 (List.mem_of_find?_eq_some hfind)
  obtain ⟨input, _, hvalue⟩ := List.mem_filterMap.1 hmem
  obtain ⟨internalId, hclean, rfl⟩ := Option.map_eq_some_iff.1 hvalue
  have hnonempty := (Option.filter_eq_some_iff.1 hclean).2
  simpa using hnonempty

theorem mem_changed_of_foldl (values : List PassportValue) (acc : PassportTable × List String)
    {id : String} (h : id ∈ (values.foldl (upsertValue loc) acc).2) :
    id ∈ acc.2 ∨ id ∈ values.map PassportValue.internalId := by
  induction values generalizing acc with
  | nil => exact .inl h
  | cons v values ih =>
      rw [List.map_cons, List.mem_cons]
      rcases ih (upsertValue loc acc v) h with hacc | hvalues
      · unfold upsertValue at hacc
        split at hacc
        · rcases List.mem_append.1 hacc with hold | hnew
          · exact .inl hold
          · exact .inr (.inl (List.mem_singleton.1 hnew))
        · exact .inl hacc
      · exact .inr (.inr hvalues)

theorem mem_upserted_iff {values : List PassportValue} {p : Passport}
    (hp : p.internalId ∉ values.map PassportValue.internalId) :
    p ∈ (values.foldl (upsertValue loc) (s.passports, [])).1 ↔ p ∈ s.passports := by
  refine (mem_foldl_upsertValue loc values (s.passports, [])).2 p fun hchanged => ?_
  rcases mem_changed_of_foldl values (s.passports, []) hchanged with hnil | hvalues
  · cases hnil
  · exact hp hvalues

theorem Superseded.congr {successors stale stale' : List IdRow}
    (h : ∀ row, row ∈ stale ↔ row ∈ stale') (row : IdRow) :
    Superseded successors stale row = Superseded successors stale' row := by
  have hunknown : ∀ (new : IdRow) (keep : IdRow → Bool),
      passportPackageUnknown new (stale.filter keep) =
        passportPackageUnknown new (stale'.filter keep) := by
    intro new keep
    rw [Bool.eq_iff_iff]
    simp [passportPackageUnknown, h]
  simp only [Superseded, hunknown]

/-- The rows that a catalog can replace are those that are missing from its values. -/
theorem mem_replaceable_iff (values : List PassportValue) (row : IdRow) :
    row ∈ replaceable (successorRows values)
        ((((values.foldl (upsertValue loc) (s.passports, [])).1.rows.map Passport.idRow).filter
          fun row => decide (row.internalId ∉ values.map PassportValue.internalId)).filter
            fun row => row.externalId.isSome) ↔
      row ∈ missingRows values s := by
  have hsuccessor : row.internalId ∈ (successorRows values).map IdRow.internalId →
      row.internalId ∈ values.map PassportValue.internalId := by
    intro hmem
    obtain ⟨new, hnew, hid⟩ := List.mem_map.1 hmem
    obtain ⟨v, hv, rfl⟩ := List.mem_map.1 (List.mem_of_mem_filter hnew)
    exact hid ▸ List.mem_map_of_mem hv
  simp only [replaceable, missingRows, List.mem_filter, Bool.and_eq_true, decide_eq_true_eq]
  constructor
  · rintro ⟨⟨⟨hrow, hnew⟩, hexternal⟩, hid, _⟩
    obtain ⟨p, hp, rfl⟩ := List.mem_map.1 hrow
    exact ⟨List.mem_map_of_mem ((mem_upserted_iff hnew).1 hp), hexternal, hid, hnew⟩
  · rintro ⟨hrow, hexternal, hid, hnew⟩
    obtain ⟨p, hp, rfl⟩ := List.mem_map.1 hrow
    exact ⟨⟨⟨List.mem_map_of_mem ((mem_upserted_iff hnew).2 hp), hnew⟩, hexternal⟩, hid,
      fun hmem => hnew (hsuccessor hmem)⟩

/-- A full catalog replaces exactly the missing rows that are superseded. -/
theorem mem_batchReplacements_iff {id : String} :
    id ∈ (batchReplacements loc batch true s).map Prod.fst ↔
      ∃ row ∈ missingRows (catalogValues batch) s,
        Superseded (successorRows (catalogValues batch)) (missingRows (catalogValues batch) s)
          row = true ∧ row.internalId = id := by
  have hids : ∀ row ∈ successorRows (catalogValues batch), row.internalId ≠ "" := by
    intro row hrow
    obtain ⟨v, hv, rfl⟩ := List.mem_map.1 (List.mem_of_mem_filter hrow)
    exact internalId_ne_of_mem_catalogValues hv
  have hrows : ∀ row, row ∈ replaceable (successorRows (catalogValues batch))
      (((((catalogValues batch).foldl (upsertValue loc) (s.passports, [])).1.rows.map
        Passport.idRow).filter fun row =>
          decide (row.internalId ∉ (catalogValues batch).map PassportValue.internalId)).filter
            fun row => row.externalId.isSome) ↔
      row ∈ missingRows (catalogValues batch) s :=
    mem_replaceable_iff (catalogValues batch)
  unfold batchReplacements planPassportIdReplacements
  refine (mem_planPassportReplacements_iff (successorRows (catalogValues batch)) _ hids id).trans ?_
  simp only [hrows, Superseded.congr hrows]

/-! ## Full syncs -/

/-- The batch of a full sync: the values of the pages up to the first stop. -/
theorem savedBatch_eq_some_iff {query : PassportQuery} (hlimit : query.limit = none)
    {answers : List Answer} :
    query.savedBatch answers = some batch ↔
      query.saveToDb = true ∧ ∃ pages, pages <+: deliveredPages 0 answers ∧
        EndsAfter query.batchSize [] pages ∧
          batch = dedupePassports [] (pages.flatMap Page.records) := by
  have hread : ∀ records total,
      fetchAssetGridRecords query.limit query.batchSize answers = .fetched records total ↔
        ∃ pages, pages <+: deliveredPages 0 answers ∧ EndsAfter query.batchSize [] pages ∧
          records = pages.flatMap Page.records ∧ total = lastTotal pages := by
    intro records total
    have hstart : stops query.batchSize [] = false := rfl
    rw [hlimit, fetchAssetGridRecords, ← gridOf_nil]
    exact fetchPages_eq_fetched_iff hstart
  unfold PassportQuery.savedBatch
  constructor
  · intro hbatch
    split at hbatch
    · rename_i records total hfetched
      split_ifs at hbatch with hsave
      obtain ⟨pages, hpages, hends, rfl, _⟩ := (hread records total).1 hfetched
      exact ⟨hsave, pages, hpages, hends, (Option.some.inj hbatch).symm⟩
    · cases hbatch
  · rintro ⟨hsave, pages, hpages, hends, rfl⟩
    rw [(hread _ _).2 ⟨pages, hpages, hends, rfl, rfl⟩]
    exact if_pos hsave

theorem savePassports_fst (fullCatalog : Bool) :
    (savePassports loc batch fullCatalog s).1 =
      applyReplacements loc (batchReplacements loc batch fullCatalog s)
        { s with
          passports := ((catalogValues batch).foldl (upsertValue loc) (s.passports, [])).1 } :=
  rfl

theorem find?_applyReplacements {pairs : List (String × String)} {id : String}
    (h : id ∈ pairs.map Prod.fst) :
    (applyReplacements loc pairs s).passports.find? id = none := by
  rw [Table.find?_eq_none_iff]
  intro p hp hid
  have hkept := (Table.mem_filterRows.1 hp).2
  rw [hid, decide_eq_true h] at hkept
  cases hkept

theorem isStored_applyReplacements {pairs : List (String × String)} {id : String}
    (h : isStored s id = true) (hother : id ∉ pairs.map Prod.fst) :
    isStored (applyReplacements loc pairs s) id = true := by
  apply isStored_deletePassports _ hother
  unfold isStored at h ⊢
  rw [Table.find?_mapRows, Option.isSome_map]
  exact h

/-- The passport is not stored, and no finding is linked to it. -/
def Retired (s : PassportState) (id : String) : Prop :=
  isStored s id = false ∧ ∀ finding, (s.links finding).map Link.passportInternalId ≠ some id

end Plan

/--
Of the stored passports a query retires those that it replaces, with their links, and no others.
-/
theorem retired_iff_planned (loc : PassportText) (now : String) (query : PassportQuery)
    (answers : List Answer) (stored : Stored)
    (old : {p : Passport // p ∈ stored.tables.passports}) :
    Retired (executeVulnerabilityPassportQuery loc now query answers stored.tables)
        old.1.internalId ↔
      old.1.internalId ∈ (plannedReplacements loc query answers stored.tables).map Prod.fst := by
  have hold : isStored stored.tables old.1.internalId = true :=
    isStored_iff.2 ⟨old.1, old.2, rfl⟩
  unfold executeVulnerabilityPassportQuery plannedReplacements
  cases query.savedBatch answers with
  | none =>
      refine iff_of_false ?_ (by simp)
      intro hretired
      rw [hretired.1] at hold
      cases hold
  | some batch =>
      dsimp only
      let upserted : PassportState :=
        { stored.tables with
          passports := ((catalogValues batch).foldl (upsertValue loc)
            (stored.tables.passports, [])).1 }
      have hkey : ForeignKey (upsertVulnerabilityPassports loc now batch query.fullCatalogSync
          stored.tables) :=
        stored.foreignKey.apply loc now (.upsert batch query.fullCatalogSync)
      have hafter : isStored (upsertVulnerabilityPassports loc now batch query.fullCatalogSync
          stored.tables) = isStored (applyReplacements loc
            (batchReplacements loc batch query.fullCatalogSync stored.tables) upserted) :=
        isStored_relink _ _ _ _
      constructor
      · intro hretired
        by_contra hother
        have hupserted : isStored upserted old.1.internalId = true :=
          isSome_foldl_upsertValue loc _ _ _ (.inr hold)
        have hkept := @isStored_applyReplacements loc upserted _ _ hupserted hother
        rw [← hafter, hretired.1] at hkept
        cases hkept
      · intro hplanned
        have hgone : isStored (upsertVulnerabilityPassports loc now batch query.fullCatalogSync
            stored.tables) old.1.internalId = false := by
          rw [hafter, isStored, find?_applyReplacements hplanned]
          rfl
        refine ⟨hgone, ?_⟩
        intro finding hlink
        obtain ⟨l, hl, hid⟩ := Option.map_eq_some_iff.1 hlink
        have hstored := hkey finding l hl
        rw [hid, hgone] at hstored
        cases hstored

/--
A full sync replaces only passports that are gone from the catalog of the server exactly when
the pages that it reads leave out no passport of that catalog that has a successor on them.
-/
theorem retires_only_gone_iff (loc : PassportText) (query : PassportQuery)
    (hfull : query.fullCatalogSync = true) (catalog : Set String) (answers : List Answer)
    (s : PassportState) :
    (∀ pair ∈ plannedReplacements loc query answers s, pair.1 ∉ catalog) ↔
      (query.saveToDb = true → ∀ pages, pages <+: deliveredPages 0 answers →
        EndsAfter query.batchSize [] pages →
          ∀ row ∈ missingRows (pageValues pages) s, row.internalId ∈ catalog →
            Superseded (successorRows (pageValues pages)) (missingRows (pageValues pages) s) row =
              false) := by
  have hlimit : query.limit = none := by
    simp only [PassportQuery.fullCatalogSync, Bool.and_eq_true, Option.isNone_iff_eq_none] at hfull
    exact hfull.1.1.2
  have hplanned : ∀ batch, query.savedBatch answers = some batch →
      plannedReplacements loc query answers s = batchReplacements loc batch true s := by
    intro batch hbatch
    rw [plannedReplacements, hbatch, hfull]
  constructor
  · intro hgone hsave pages hpages hends row hrow hcatalog
    have hbatch := (savedBatch_eq_some_iff hlimit).2 ⟨hsave, pages, hpages, hends, rfl⟩
    refine Bool.eq_false_iff.2 fun hsuperseded => ?_
    have hreplaced : row.internalId ∈
        (batchReplacements loc (dedupePassports [] (pages.flatMap Page.records)) true s).map
          Prod.fst :=
      mem_batchReplacements_iff.2 ⟨row, hrow, hsuperseded, rfl⟩
    obtain ⟨pair, hpair, hid⟩ := List.mem_map.1 hreplaced
    rw [← hplanned _ hbatch] at hpair
    exact hgone pair hpair (hid ▸ hcatalog)
  · intro hspared pair hpair hcatalog
    cases hbatch : query.savedBatch answers with
    | none =>
        rw [plannedReplacements, hbatch] at hpair
        cases hpair
    | some batch =>
        rw [hplanned batch hbatch] at hpair
        obtain ⟨hsave, pages, hpages, hends, rfl⟩ := (savedBatch_eq_some_iff hlimit).1 hbatch
        obtain ⟨row, hrow, hsuperseded, hid⟩ :=
          mem_batchReplacements_iff.1 (List.mem_map_of_mem hpair)
        have hnot := hspared hsave pages hpages hends row hrow (hid ▸ hcatalog)
        rw [pageValues, hsuperseded] at hnot
        cases hnot

/-! ## A short page -/

/-- Two versions of one package in the catalog. -/
def firstVersion : PassportInput where
  internalId := some "P1"
  externalId := some "E1"
  packageId := some "A"
  packageVersion := some "1"

/-- The second version. -/
def secondVersion : PassportInput where
  internalId := some "P2"
  externalId := some "E1"
  packageId := some "A"
  packageVersion := some "2"

/-- The first version is stored. -/
def storedFirst : PassportState where
  findings := ⟨[], by simp, by simp⟩
  passports :=
    ⟨[{ internalId := "P1", externalId := some "E1", packageId := some "A",
        packageVersion := some "1", cvesJson := "[]", cveNames := [] }], by simp, by simp⟩

/-- With both versions on the page no passport is replaced. -/
theorem retires_only_gone_bothVersions :
    ({} : PassportQuery).fullCatalogSync = true ∧
      ∀ pair ∈ plannedReplacements plainText {} [.page ⟨[firstVersion, secondVersion], some 2⟩]
        storedFirst, pair.1 ∉ ({"P1", "P2"} : Set String) := by
  have hfull : ({} : PassportQuery).fullCatalogSync = true := by
    simp [PassportQuery.fullCatalogSync]
  refine ⟨hfull, (retires_only_gone_iff plainText {} hfull {"P1", "P2"} _ storedFirst).2 ?_⟩
  intro _ pages hpages hends row hrow _
  rcases List.prefix_cons_iff.1 hpages with rfl | ⟨rest, rfl, hrest⟩
  · exact absurd (endsAfter_nil.1 hends) Bool.false_ne_true
  · have hnone : missingRows (pageValues [⟨[firstVersion, secondVersion], some 2⟩])
        storedFirst = [] := by
      decide +kernel
    rw [List.prefix_nil.1 hrest, hnone] at hrow
    cases hrow

/-- A page with one of two reported records ends the loop, and the other version is replaced. -/
theorem shortPage_retires_live :
    ({} : PassportQuery).fullCatalogSync = true ∧
      ¬ ∀ pair ∈ plannedReplacements plainText {} [.page ⟨[secondVersion], some 2⟩] storedFirst,
        pair.1 ∉ ({"P1", "P2"} : Set String) := by
  have hfull : ({} : PassportQuery).fullCatalogSync = true := by
    simp [PassportQuery.fullCatalogSync]
  have hbatch : batchReplacements plainText [secondVersion] true storedFirst = [("P1", "P2")] := by
    decide +kernel
  have hsaved : ({} : PassportQuery).savedBatch [.page ⟨[secondVersion], some 2⟩] =
      some [secondVersion] := rfl
  have hplanned : plannedReplacements plainText {} [.page ⟨[secondVersion], some 2⟩] storedFirst =
      [("P1", "P2")] := by
    rw [plannedReplacements, hsaved, hfull]
    exact hbatch
  refine ⟨hfull, ?_⟩
  rw [hplanned]
  intro h
  exact h ("P1", "P2") (List.mem_singleton_self _) (Set.mem_insert _ _)

end Passports
end MpvmApp
