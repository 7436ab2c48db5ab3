import MpvmApp.AssetCard.Identity
import MpvmApp.AssetCard.SearchRows
import MpvmApp.AssetCard.SnapshotRoundTrip
import MpvmApp.Findings.SummaryEquality
import MpvmApp.Lib.Loops
import MpvmApp.Lib.Sorted

/-!
# Backfill of the search index

The backfill indexes the cards that were saved before the indexes existed.  It reads how many cards
are indexed, picks some that are not, indexes the document of each as it is read from the database,
and goes on until the counts say that nothing is missing or a batch indexes nothing.  Cards are
saved and deleted meanwhile.

Main definitions:

- `backfillBatch`: a batch of either kind.
- `backfillStep`: an iteration of the loop, with what happens around it.
- `runAssetSearchBackfill`: the run.

Main results:

- Theorem `batch_indexes`: a batch indexes as many cards as it processes.
- Theorem `run_asset_search_backfill_ends`: when the changes end the run ends, every batch that
  does not end it indexes a card, and a completed run leaves every card indexed.
-/

namespace MpvmApp
namespace AssetCard
namespace SearchIndex

open Sql Remediation Runs Loops
open Passports (Collation)
open SnapshotDocs (Coercions textJson storedMembers)
open Identity (CardRow)

/-! ## Stored cards -/

/--
The columns of a card and its rows in other tables: the columns that `json_loads` reads, what
the tables of the structure hold once the card has been read, and the indexes.
-/
structure CardContent where
  displayName : Option String
  assetType : Option String
  osName : Option String
  osVersion : Option String
  vulnerabilityLevel : Option String
  rootJson : Json
  nodesJson : Json
  collectionsJson : Json
  cachedNodes : List Json
  cachedCollections : List Json
  searchRows : List SearchRow
  softwareInventoryUpdated : Bool

/-- The cards; the id of a card is the cleaned id of the document of its first save. -/
structure CardStore where
  store : Identity.Store CardContent
  clean : ∀ row ∈ store.cards, cleanText (some row.assetId) = some row.assetId

/-- The stored list of a document, as it is decoded. -/
def decodeList (cached : List Json) (column : Json) : Json :=
  match if cached.isEmpty then column else .arr cached with
  | .arr items => Json.stripRaw (.arr items)
  | _ => .arr []

/-- What `decode_asset_card` returns, as far as the indexes read it. -/
def decodeAssetCard (row : CardRow CardContent) : Members :=
  [("asset_id", .str row.assetId), ("display_name", textJson row.content.displayName),
    ("asset_type", textJson row.content.assetType), ("fqdn", textJson row.fqdn),
    ("hostname", textJson row.hostname), ("ip_address", textJson row.ipAddress),
    ("os_name", textJson row.content.osName), ("os_version", textJson row.content.osVersion),
    ("vulnerability_level", textJson row.content.vulnerabilityLevel),
    ("root", .obj (storedMembers row.content.rootJson)),
    ("nodes", decodeList row.content.cachedNodes row.content.nodesJson),
    ("collections", decodeList row.content.cachedCollections row.content.collectionsJson)]

/-! ## Batches -/

/-- The two kinds of batches. -/
inductive BatchKind where
  | search
  | software
deriving DecidableEq, Repr

/-- The condition of the query that picks the cards of a batch. -/
def missing : BatchKind → CardContent → Bool
  | .search, content => content.searchRows.isEmpty
  | .software, content => !content.softwareInventoryUpdated

section Model

variable (c : Coercions) (tables : CharTables) (loc : Collation)

/-- `replace_asset_card_search_index`. -/
def replaceAssetCardSearchIndex (card : Members) (content : CardContent) : Option CardContent :=
  (buildAssetCardSearchRows c tables card).map fun rows => { content with searchRows := rows }

/-- `replace_asset_card_software_inventory`: the mark, when the rows are built. -/
def replaceAssetCardSoftwareInventory (card : Members) (content : CardContent) :
    Option CardContent :=
  match c.cleanValue (dictGet card "asset_id") with
  | none => some { content with softwareInventoryUpdated := true }
  | some _ =>
      (buildAssetCardSearchRows c tables card).map fun _ =>
        { content with softwareInventoryUpdated := true }

/-- What a batch writes for a card. -/
def indexCard : BatchKind → Members → CardContent → Option CardContent
  | .search, card, content =>
      (replaceAssetCardSearchIndex c tables card content).bind
        (replaceAssetCardSoftwareInventory c tables card)
  | .software, card, content => replaceAssetCardSoftwareInventory c tables card content

/-- The content of a card is replaced. -/
def putContent (content : CardContent) (assetId : String) (row : CardRow CardContent) :
    CardRow CardContent :=
  if row.assetId = assetId then { row with content := content } else row

@[simp]
theorem assetId_putContent (content : CardContent) (assetId : String) (row : CardRow CardContent) :
    (putContent content assetId row).assetId = row.assetId := by
  unfold putContent
  split <;> rfl

/-- The cards after one of them has been indexed. -/
def CardStore.put (s : CardStore) (assetId : String) (content : CardContent) : CardStore where
  store :=
    { s.store with
      cards := s.store.cards.mapRows (putContent content assetId)
        (assetId_putContent content assetId) (assetId_putContent content assetId) }
  clean := by
    intro row hrow
    obtain ⟨old, hold, rfl⟩ := List.mem_map.1 hrow
    rw [assetId_putContent]
    exact s.clean old hold

/-- What a batch did; the cards before the one that raises stay indexed. -/
structure BatchResult where
  store : CardStore
  processed : Nat
  raised : Bool

/-- The loop of a batch; `faulty` holds the cards whose statements the database refuses. -/
def backfillCards (kind : BatchKind) (faulty : String → Bool) :
    List String → CardStore → BatchResult
  | [], s => { store := s, processed := 0, raised := false }
  | assetId :: assetIds, s =>
      match s.store.cards.find? assetId with
      | none => backfillCards kind faulty assetIds s
      | some row =>
          match if faulty assetId then none
            else indexCard c tables kind (decodeAssetCard row) row.content with
          | none => { store := s, processed := 0, raised := true }
          | some content =>
              let rest := backfillCards kind faulty assetIds (s.put assetId content)
              { rest with processed := rest.processed + 1 }

/-- The cards of a batch: `ORDER BY last_seen DESC, asset_id LIMIT`. -/
def pickMissing (kind : BatchKind) (limit : Nat) (s : CardStore) : List String :=
  ((sortOn (fun row => toLex (OrderDual.toDual row.lastSeen, Findings.collate loc row.assetId))
    (s.store.cards.rows.filter fun row => missing kind row.content)).take limit).map
      CardRow.assetId

/-- A batch with the limit that the loop passes. -/
def backfillBatch (kind : BatchKind) (faulty : String → Bool) (s : CardStore) : BatchResult :=
  backfillCards c tables kind faulty (pickMissing loc kind 20 s) s

/-- `backfill_asset_card_search_index_batch`. -/
def backfillAssetCardSearchIndexBatch (faulty : String → Bool) (s : CardStore) : BatchResult :=
  backfillBatch c tables loc .search faulty s

/-- `backfill_asset_card_software_inventory_batch`. -/
def backfillAssetCardSoftwareInventoryBatch (faulty : String → Bool) (s : CardStore) :
    BatchResult :=
  backfillBatch c tables loc .software faulty s

/-! ## The loop -/

/-- The cards that a kind of batch has nothing to do for. -/
def CardStore.indexed (kind : BatchKind) (s : CardStore) : Nat :=
  s.store.cards.rows.countP fun row => !missing kind row.content

/-- `asset_card_search_index_coverage`. -/
structure Coverage where
  totalCards : Nat
  indexedCards : Nat
  softwareInventoryTotalCards : Nat
  softwareInventoryIndexedCards : Nat
deriving DecidableEq, Repr

/-- The counts of one statement. -/
def assetCardSearchIndexCoverage (s : CardStore) : Coverage where
  totalCards := s.store.cards.rows.length
  indexedCards := s.indexed .search
  softwareInventoryTotalCards := s.store.cards.rows.length
  softwareInventoryIndexedCards := s.indexed .software

/-- `search_done`. -/
def Coverage.searchDone (coverage : Coverage) : Bool :=
  decide (coverage.totalCards ≤ coverage.indexedCards)

/-- `software_done`. -/
def Coverage.softwareDone (coverage : Coverage) : Bool :=
  decide (coverage.softwareInventoryTotalCards ≤ coverage.softwareInventoryIndexedCards)

/-- A save or a removal; a save can store any content, with or without index rows. -/
abbrev Change := Identity.Event CardContent

theorem clean_step {s : Identity.Store CardContent}
    (h : ∀ row ∈ s.cards, cleanText (some row.assetId) = some row.assetId) (change : Change) :
    ∀ row ∈ (Identity.step loc.toLocale s change).cards,
      cleanText (some row.assetId) = some row.assetId := by
  intro row hrow
  cases change with
  | save payload now =>
      cases hid : payload.remoteAssetId with
      | none =>
          have hsame : Identity.step loc.toLocale s (.save payload now) = s := by
            simp only [Identity.step, Identity.upsertAssetCard, hid]
          rw [hsame] at hrow
          exact h row hrow
      | some remoteAssetId =>
          rcases (Identity.mem_upsertAssetCard hid).1 hrow with rfl | ⟨hold, _⟩
          · rw [Identity.savedRow_assetId]
            unfold Identity.Payload.target Identity.canonicalAssetCardId
            cases hcanonical : Identity.canonicalRow loc.toLocale s.cards remoteAssetId
                (cleanText payload.fqdn) (cleanText payload.hostname)
                (cleanText payload.ipAddress) with
            | none => exact SnapshotDocs.cleanText_cleanText hid
            | some canonical =>
                have hmem := mem_of_best hcanonical
                exact h canonical (List.mem_of_mem_filter hmem)
          · exact h row hold
  | delete assetId =>
      exact h row (Table.mem_filterRows.1 hrow).1

/-- The cards after a change. -/
def CardStore.change (s : CardStore) (change : Change) : CardStore where
  store := Identity.step loc.toLocale s.store change
  clean := clean_step loc s.clean change

/--
What happens around a batch: the changes between the coverage and the batch, the cards that the
database refuses, the changes between the batch and the next coverage, and whether a statement
after the batch fails.
-/
structure Round where
  before : List Change
  faulty : String → Bool
  after : List Change
  lost : Bool

/-- No card is saved or deleted in the round. -/
def Round.Quiet (round : Round) : Prop :=
  round.before = [] ∧ round.after = []

/-- The status that a run ends with. -/
inductive Status where
  | completed
  | completedWithErrors
  | failed
deriving DecidableEq, Repr

/-- A batch of a run. -/
structure BatchRecord where
  kind : BatchKind
  before : CardStore
  result : BatchResult

/-- The batch does not end the loop. -/
def BatchRecord.GoesOn (batch : BatchRecord) : Prop :=
  batch.result.raised = false ∧ batch.result.processed ≠ 0

/-- How a run ends. -/
structure Outcome where
  status : Status
  store : CardStore
  batches : List BatchRecord

/-- The state of the loop. -/
structure LoopState where
  round : Nat
  store : CardStore
  batches : List BatchRecord

/-- What a run meets: its rounds, and statements that fail before and after the loop. -/
structure Environment where
  startFails : Bool
  rounds : Nat → Round
  finishFails : Bool

/-- `final_status`. -/
def Coverage.finalStatus (coverage : Coverage) : Status :=
  if coverage.searchDone && coverage.softwareDone then .completed else .completedWithErrors

/-- The end of the loop. -/
def finishBackfill (env : Environment) (coverage : Coverage) (store : CardStore)
    (batches : List BatchRecord) : Outcome where
  status := if env.finishFails then .failed else coverage.finalStatus
  store := store
  batches := batches

/-- The kind of the next batch. -/
def Coverage.nextKind (coverage : Coverage) : BatchKind :=
  if coverage.searchDone then .software else .search

/-- An iteration of the loop. -/
def backfillStep (env : Environment) (state : LoopState) : Outcome ⊕ LoopState :=
  let coverage := assetCardSearchIndexCoverage state.store
  let round := env.rounds state.round
  if coverage.searchDone && coverage.softwareDone then
    .inl (finishBackfill env coverage state.store state.batches)
  else
    let before := run (CardStore.change loc) state.store round.before
    let result := backfillBatch c tables loc coverage.nextKind round.faulty before
    let batches := state.batches ++
      [{ kind := coverage.nextKind, before := before, result := result }]
    if result.raised then
      .inl { status := .failed, store := result.store, batches := batches }
    else if result.processed = 0 then
      -- the counts are those read before the batch
      .inl (finishBackfill env coverage result.store batches)
    else
      let after := run (CardStore.change loc) result.store round.after
      if round.lost then
        .inl { status := .failed, store := after, batches := batches }
      else
        .inr { round := state.round + 1, store := after, batches := batches }

/-- `run_asset_search_backfill`, unless the fuel runs out. -/
def runAssetSearchBackfill (env : Environment) (fuel : Nat) (s : CardStore) : Option Outcome :=
  if env.startFails then some { status := .failed, store := s, batches := [] }
  else loop (backfillStep c tables loc env) fuel { round := 0, store := s, batches := [] }

/-! ## One card -/

section Cards

variable {c tables loc} {kind other : BatchKind} {s : CardStore} {row : CardRow CardContent}

theorem cleanValue_decodeAssetCard (hrow : row ∈ s.store.cards) :
    c.cleanValue (dictGet (decodeAssetCard row) "asset_id") = some row.assetId := by
  have hget : dictGet (decodeAssetCard row) "asset_id" = .str row.assetId := by
    unfold decodeAssetCard
    rw [dictGet_cons, if_pos rfl]
  rw [hget]
  show cleanText (some (c.text (.str row.assetId))) = some row.assetId
  rw [c.text_str]
  exact s.clean row hrow

/-- What is written for a card leaves nothing to do for the batch, and no more for the other. -/
theorem missing_indexCard (hrow : row ∈ s.store.cards) {content : CardContent}
    (h : indexCard c tables kind (decodeAssetCard row) row.content = some content) :
    missing kind content = false ∧ (missing other row.content = false →
      missing other content = false) := by
  have hid : c.cleanValue (dictGet (decodeAssetCard row) "asset_id") = some row.assetId :=
    cleanValue_decodeAssetCard hrow
  cases kind with
  | search =>
      obtain ⟨indexed, hindexed, hmarked⟩ := Option.bind_eq_some_iff.1 h
      obtain ⟨rows, hrows, rfl⟩ := Option.map_eq_some_iff.1 hindexed
      unfold replaceAssetCardSoftwareInventory at hmarked
      rw [hid] at hmarked
      dsimp only at hmarked
      rw [hrows, Option.map_some] at hmarked
      cases hmarked
      -- the rows of a document with an id are not empty
      have hsome : rows ≠ [] := List.ne_nil_of_mem (assetIdRow_mem c tables hid hrows)
      have hsearch : rows.isEmpty = false := by simpa using hsome
      exact ⟨hsearch, fun _ => by cases other <;> first | exact hsearch | rfl⟩
  | software =>
      have hmarked : replaceAssetCardSoftwareInventory c tables (decodeAssetCard row) row.content =
          some content := h
      unfold replaceAssetCardSoftwareInventory at hmarked
      rw [hid] at hmarked
      dsimp only at hmarked
      obtain ⟨rows, _, rfl⟩ := Option.map_eq_some_iff.1 hmarked
      exact ⟨rfl, fun hother => by cases other <;> first | exact hother | rfl⟩

theorem countP_putContent {rows : List (CardRow CardContent)}
    (hnodup : (rows.map CardRow.assetId).Nodup) (hrow : row ∈ rows) (content : CardContent)
    (p : CardContent → Bool) :
    (rows.map (putContent content row.assetId)).countP (fun r => p r.content) +
        (if p row.content then 1 else 0) =
      rows.countP (fun r => p r.content) + if p content then 1 else 0 := by
  induction rows with
  | nil => cases hrow
  | cons first rows ih =>
      rw [List.map_cons, List.nodup_cons] at hnodup
      rcases List.mem_cons.1 hrow with rfl | hmem
      · have hrest : rows.map (putContent content row.assetId) = rows := by
          refine (List.map_congr_left fun r hr => ?_).trans (List.map_id rows)
          have hne : r.assetId ≠ row.assetId :=
            fun heq => hnodup.1 (heq ▸ List.mem_map_of_mem hr)
          exact if_neg hne
        have hhead : (putContent content row.assetId row).content = content := by
          unfold putContent
          rw [if_pos rfl]
        rw [List.map_cons, hrest, List.countP_cons, List.countP_cons, hhead]
        omega
      · have hne : first.assetId ≠ row.assetId :=
          fun heq => hnodup.1 (heq ▸ List.mem_map_of_mem hmem)
        have hhead : putContent content row.assetId first = first := if_neg hne
        have hrest := ih hnodup.2 hmem
        rw [List.map_cons, hhead, List.countP_cons, List.countP_cons]
        omega

/-- The cards that a kind of batch has something to do for. -/
def CardStore.left (kind : BatchKind) (s : CardStore) : Nat :=
  s.store.cards.rows.countP fun row => missing kind row.content

theorem left_add_indexed (kind : BatchKind) (s : CardStore) :
    s.left kind + s.indexed kind = s.store.cards.rows.length := by
  unfold CardStore.left CardStore.indexed
  rw [@List.length_eq_countP_add_countP _ (fun row => missing kind row.content)]
  simp

/-- A card that is written is no longer left. -/
theorem left_put (hrow : row ∈ s.store.cards) (hmissing : missing kind row.content = true)
    {content : CardContent}
    (h : indexCard c tables kind (decodeAssetCard row) row.content = some content) :
    (s.put row.assetId content).left kind + 1 = s.left kind ∧
      (s.put row.assetId content).left other ≤ s.left other := by
  obtain ⟨hdone, hother⟩ := @missing_indexCard c tables kind other s row hrow content h
  have hcount := fun p => countP_putContent s.store.cards.pkNodup hrow content p
  constructor
  · have hkind := hcount (missing kind)
    rw [hmissing, hdone] at hkind
    exact hkind
  · have hkind := hcount (missing other)
    show (s.store.cards.rows.map (putContent content row.assetId)).countP
        (fun r => missing other r.content) ≤
      s.store.cards.rows.countP fun r => missing other r.content
    cases hbefore : missing other row.content with
    | false =>
        rw [hbefore, hother hbefore] at hkind
        omega
    | true =>
        rw [hbefore, if_pos rfl] at hkind
        have hle : (if missing other content = true then 1 else 0) ≤ 1 := by
          split <;> omega
        omega

end Cards

/-! ## One batch -/

section Batches

variable {c tables loc} {kind : BatchKind} {faulty : String → Bool}

theorem mem_put_of_ne {s : CardStore} {assetId : String} {content : CardContent}
    {row : CardRow CardContent} (hne : row.assetId ≠ assetId) :
    row ∈ (s.put assetId content).store.cards ↔ row ∈ s.store.cards := by
  show row ∈ s.store.cards.rows.map (putContent content assetId) ↔ row ∈ s.store.cards.rows
  rw [List.mem_map]
  constructor
  · rintro ⟨old, hold, rfl⟩
    rw [assetId_putContent] at hne
    have hsame : putContent content assetId old = old := if_neg hne
    rw [hsame]
    exact hold
  · intro hrow
    exact ⟨row, hrow, if_neg hne⟩

/-- A batch over different cards without an index indexes those that it processes. -/
theorem left_backfillCards (other : BatchKind) {assetIds : List String} {s : CardStore}
    (hnodup : assetIds.Nodup)
    (hmissing : ∀ row ∈ s.store.cards, row.assetId ∈ assetIds → missing kind row.content = true) :
    (backfillCards c tables kind faulty assetIds s).store.left kind +
          (backfillCards c tables kind faulty assetIds s).processed = s.left kind ∧
      (backfillCards c tables kind faulty assetIds s).store.left other ≤ s.left other ∧
      (backfillCards c tables kind faulty assetIds s).store.store.cards.rows.length =
        s.store.cards.rows.length := by
  induction assetIds generalizing s with
  | nil => exact ⟨rfl, Nat.le_refl _, rfl⟩
  | cons assetId assetIds ih =>
      rw [List.nodup_cons] at hnodup
      rw [backfillCards]
      split
      · exact ih hnodup.2 fun row hrow hmem => hmissing row hrow (List.mem_cons_of_mem _ hmem)
      · rename_i row hfind
        obtain ⟨hrow, rfl⟩ := Table.find?_eq_some_iff.1 hfind
        split
        · exact ⟨rfl, Nat.le_refl _, rfl⟩
        · rename_i content hwrite
          have hindex : indexCard c tables kind (decodeAssetCard row) row.content =
              some content := by
            split at hwrite
            · cases hwrite
            · exact hwrite
          have hput := fun k => @left_put c tables kind k s row hrow
            (hmissing row hrow List.mem_cons_self) content hindex
          have hrest : ∀ row' ∈ (s.put row.assetId content).store.cards,
              row'.assetId ∈ assetIds → missing kind row'.content = true := by
            intro row' hrow' hmem
            have hne : row'.assetId ≠ row.assetId := fun heq => hnodup.1 (heq ▸ hmem)
            exact hmissing row' ((mem_put_of_ne hne).1 hrow') (List.mem_cons_of_mem _ hmem)
          obtain ⟨hkind, hother, hlength⟩ := ih hnodup.2 hrest
          have hput_length : (s.put row.assetId content).store.cards.rows.length =
              s.store.cards.rows.length := List.length_map _
          refine ⟨?_, hother.trans (hput other).2, hlength.trans hput_length⟩
          have hfirst := (hput kind).1
          dsimp only
          omega

theorem nodup_pickMissing (limit : Nat) (s : CardStore) :
    (pickMissing loc kind limit s).Nodup := by
  have hrows : ((s.store.cards.rows.filter fun row => missing kind row.content).map
      CardRow.assetId).Nodup :=
    s.store.cards.pkNodup.sublist (List.filter_sublist.map _)
  have hsorted := ((perm_sortOn (fun row : CardRow CardContent =>
    toLex (OrderDual.toDual row.lastSeen, Findings.collate loc row.assetId)) _).map
      CardRow.assetId).nodup_iff.2 hrows
  exact hsorted.sublist ((List.take_sublist limit _).map CardRow.assetId)

theorem missing_of_mem_pickMissing {limit : Nat} {s : CardStore} {row : CardRow CardContent}
    (hrow : row ∈ s.store.cards) (h : row.assetId ∈ pickMissing loc kind limit s) :
    missing kind row.content = true := by
  obtain ⟨picked, hpicked, hid⟩ := List.mem_map.1 h
  have hmem := List.mem_filter.1 (mem_sortOn.1 (List.mem_of_mem_take hpicked))
  have hsame : picked = row := Table.eq_of_pk_eq hmem.1 hrow hid
  rw [← hsame]
  exact hmem.2

/-- A batch indexes as many cards as it processes, and takes no index away. -/
theorem batch_indexes (kind other : BatchKind) (faulty : String → Bool) (s : CardStore) :
    (backfillBatch c tables loc kind faulty s).store.left kind +
          (backfillBatch c tables loc kind faulty s).processed = s.left kind ∧
      (backfillBatch c tables loc kind faulty s).store.left other ≤ s.left other ∧
      (backfillBatch c tables loc kind faulty s).store.store.cards.rows.length =
        s.store.cards.rows.length :=
  left_backfillCards other (nodup_pickMissing 20 s)
    fun _ hrow hmem => missing_of_mem_pickMissing hrow hmem

end Batches

/-! ## The run -/

/-- The batch indexes cards, and takes no index away. -/
structure BatchRecord.IndexesMore (batch : BatchRecord) : Prop where
  more : batch.before.indexed batch.kind < batch.result.store.indexed batch.kind
  keeps : ∀ other, batch.before.indexed other ≤ batch.result.store.indexed other

/-- Every card has search rows and the mark of the software inventory. -/
def CardStore.Complete (s : CardStore) : Prop :=
  ∀ row ∈ s.store.cards,
    row.content.searchRows ≠ [] ∧ row.content.softwareInventoryUpdated = true

section Run

variable {c tables loc} {env : Environment} {state next : LoopState} {outcome : Outcome}

theorem indexesMore_backfillBatch {kind : BatchKind} {faulty : String → Bool} {s : CardStore}
    (h : (backfillBatch c tables loc kind faulty s).processed ≠ 0) :
    BatchRecord.IndexesMore
      { kind := kind, before := s, result := backfillBatch c tables loc kind faulty s } := by
  have hleft := fun other => @batch_indexes c tables loc kind other faulty s
  have htotal := fun other => left_add_indexed other s
  have htotal' := fun other =>
    left_add_indexed other (backfillBatch c tables loc kind faulty s).store
  constructor
  · have hkind := hleft kind
    have hbefore := htotal kind
    have hafter := htotal' kind
    dsimp only
    omega
  · intro other
    have hother := hleft other
    have hbefore := htotal other
    have hafter := htotal' other
    dsimp only
    omega

/-- The counts of a completed run leave no card out. -/
theorem complete_of_finalStatus {s : CardStore}
    (h : (assetCardSearchIndexCoverage s).finalStatus = .completed) :
    s.Complete := by
  have hdone : (assetCardSearchIndexCoverage s).searchDone = true ∧
      (assetCardSearchIndexCoverage s).softwareDone = true := by
    unfold Coverage.finalStatus at h
    split at h
    · rename_i hboth
      exact Bool.and_eq_true_iff.1 hboth
    · cases h
  have hnone : ∀ kind, s.store.cards.rows.length ≤ s.indexed kind →
      ∀ row ∈ s.store.cards, missing kind row.content = false := by
    intro kind hle row hrow
    have hall : s.indexed kind = s.store.cards.rows.length :=
      Nat.le_antisymm List.countP_le_length hle
    have hrow' := List.countP_eq_length.1 hall row hrow
    rwa [Bool.not_eq_true'] at hrow'
  intro row hrow
  have hsearch := hnone .search (of_decide_eq_true hdone.1) row hrow
  have hsoftware := hnone .software (of_decide_eq_true hdone.2) row hrow
  constructor
  · intro hnil
    have hempty : row.content.searchRows.isEmpty = false := hsearch
    rw [hnil] at hempty
    cases hempty
  · have hmark : (!row.content.softwareInventoryUpdated) = false := hsoftware
    rwa [Bool.not_eq_false'] at hmark

/-- What an iteration does when it ends the loop, and when it does not. -/
theorem backfillStep_cases (state : LoopState) :
    (∃ batches, backfillStep c tables loc env state =
        .inl (finishBackfill env (assetCardSearchIndexCoverage state.store) state.store batches) ∧
      batches = state.batches) ∨
    ∃ batch, batch.before = run (CardStore.change loc) state.store (env.rounds state.round).before ∧
      batch.result = backfillBatch c tables loc batch.kind (env.rounds state.round).faulty
        batch.before ∧
      ((∃ outcome, backfillStep c tables loc env state = .inl outcome ∧
          outcome.batches = state.batches ++ [batch] ∧ outcome.status ≠ .completed) ∨
        batch.GoesOn ∧ backfillStep c tables loc env state =
          .inr { round := state.round + 1
                 store := run (CardStore.change loc) batch.result.store
                   (env.rounds state.round).after
                 batches := state.batches ++ [batch] }) := by
  unfold backfillStep
  dsimp only
  split
  · exact Or.inl ⟨_, rfl, rfl⟩
  · rename_i hcounts
    refine Or.inr ⟨{ kind := (assetCardSearchIndexCoverage state.store).nextKind
                     before := run (CardStore.change loc) state.store
                       (env.rounds state.round).before
                     result := backfillBatch c tables loc
                       (assetCardSearchIndexCoverage state.store).nextKind
                       (env.rounds state.round).faulty
                       (run (CardStore.change loc) state.store
                         (env.rounds state.round).before) }, rfl, rfl, ?_⟩
    split
    · exact Or.inl ⟨_, rfl, rfl, nofun⟩
    · rename_i hraised
      split
      · refine Or.inl ⟨_, rfl, rfl, ?_⟩
        unfold finishBackfill Coverage.finalStatus
        dsimp only
        rw [if_neg hcounts]
        split <;> nofun
      · rename_i hprocessed
        split
        · exact Or.inl ⟨_, rfl, rfl, nofun⟩
        · exact Or.inr ⟨⟨Bool.eq_false_iff.2 hraised, hprocessed⟩, rfl⟩

theorem indexesMore_of_goesOn {batch : BatchRecord} {faulty : String → Bool}
    (hresult : batch.result = backfillBatch c tables loc batch.kind faulty batch.before)
    (h : batch.GoesOn) :
    batch.IndexesMore := by
  obtain ⟨kind, before, result⟩ := batch
  dsimp only at hresult
  subst hresult
  exact indexesMore_backfillBatch h.2

/-- The batches of a run that do not end it index cards, and a completed run is complete. -/
theorem loop_spec {fuel : Nat}
    (hbatches : ∀ batch ∈ state.batches, batch.GoesOn → batch.IndexesMore)
    (h : loop (backfillStep c tables loc env) fuel state = some outcome) :
    (∀ batch ∈ outcome.batches, batch.GoesOn → batch.IndexesMore) ∧
      (outcome.status = .completed → outcome.store.Complete) := by
  have happend : ∀ {batches : List BatchRecord} {batch : BatchRecord} {faulty : String → Bool},
      (∀ batch ∈ batches, batch.GoesOn → batch.IndexesMore) →
      batch.result = backfillBatch c tables loc batch.kind faulty batch.before →
        ∀ b ∈ batches ++ [batch], b.GoesOn → b.IndexesMore := by
    intro batches batch faulty hall hresult b hb hgoes
    rcases List.mem_append.1 hb with hold | hnew
    · exact hall b hold hgoes
    · rw [List.mem_singleton.1 hnew] at hgoes ⊢
      exact indexesMore_of_goesOn hresult hgoes
  refine @loop_invariant _ _ (backfillStep c tables loc env)
    (fun state => ∀ batch ∈ state.batches, batch.GoesOn → batch.IndexesMore)
    (fun outcome => (∀ batch ∈ outcome.batches, batch.GoesOn → batch.IndexesMore) ∧
      (outcome.status = .completed → outcome.store.Complete)) ?_ ?_ fuel state outcome hbatches h
  · intro s next hs hstep
    rcases @backfillStep_cases c tables loc env s with ⟨_, hend, _⟩ |
      ⟨batch, _, hresult, ⟨_, hend, _⟩ | ⟨_, hnext⟩⟩
    · rw [hend] at hstep
      cases hstep
    · rw [hend] at hstep
      cases hstep
    · rw [hnext] at hstep
      cases hstep
      exact happend hs hresult
  · intro s final hs hstep
    rcases @backfillStep_cases c tables loc env s with ⟨batches, hend, rfl⟩ |
      ⟨batch, _, hresult, ⟨ended, hend, hended, hstatus⟩ | ⟨_, hnext⟩⟩
    · rw [hend] at hstep
      cases hstep
      refine ⟨hs, fun hcompleted => complete_of_finalStatus ?_⟩
      unfold finishBackfill at hcompleted
      dsimp only at hcompleted
      split at hcompleted
      · cases hcompleted
      · exact hcompleted
    · rw [hend] at hstep
      cases hstep
      rw [hended]
      exact ⟨happend hs hresult, fun hcompleted => absurd hcompleted hstatus⟩
    · rw [hnext] at hstep
      cases hstep

/-- In a quiet round that does not end the loop fewer cards are left. -/
theorem left_backfillStep (hquiet : (env.rounds state.round).Quiet)
    (h : backfillStep c tables loc env state = .inr next) :
    next.store.left .search + next.store.left .software <
      state.store.left .search + state.store.left .software := by
  rcases @backfillStep_cases c tables loc env state with ⟨_, hend, _⟩ |
    ⟨batch, hbefore, hresult, ⟨_, hend, _⟩ | ⟨hgoes, hnext⟩⟩
  · rw [hend] at h
    cases h
  · rw [hend] at h
    cases h
  · rw [hnext] at h
    cases h
    rw [hquiet.1, run_nil] at hbefore
    have hsearch := @batch_indexes c tables loc batch.kind .search
      (env.rounds state.round).faulty batch.before
    have hsoftware := @batch_indexes c tables loc batch.kind .software
      (env.rounds state.round).faulty batch.before
    rw [← hresult, hbefore] at hsearch hsoftware
    have hprocessed := hgoes.2
    rw [hquiet.2, run_nil]
    dsimp only
    cases hkind : batch.kind with
    | search =>
        rw [hkind] at hsearch
        omega
    | software =>
        rw [hkind] at hsoftware
        omega

end Run

/--
When the changes of the cards end, the run ends; every batch that does not end it indexes a card,
and a run that ends completed leaves every card with search rows and the mark of the software
inventory.
-/
theorem run_asset_search_backfill_ends (env : Environment) (s : CardStore)
    (hfinite : ∃ bound, ∀ i, bound ≤ i → (env.rounds i).Quiet) :
    ∃ fuel outcome,
      (∀ more, runAssetSearchBackfill c tables loc env (fuel + more) s = some outcome) ∧
      (∀ batch ∈ outcome.batches, batch.GoesOn → batch.IndexesMore) ∧
      (outcome.status = .completed → outcome.store.Complete) := by
  obtain ⟨bound, hbound⟩ := hfinite
  by_cases hstart : env.startFails = true
  · refine ⟨0, _, fun more => if_pos hstart, ?_, nofun⟩
    intro batch hbatch
    cases hbatch
  · have hcount : ∀ state next, backfillStep c tables loc env state = .inr next →
        next.round = state.round + 1 := by
      intro state next hstep
      rcases @backfillStep_cases c tables loc env state with ⟨_, hend, _⟩ |
        ⟨_, _, _, ⟨_, hend, _⟩ | ⟨_, hnext⟩⟩
      · rw [hend] at hstep
        cases hstep
      · rw [hend] at hstep
        cases hstep
      · rw [hnext] at hstep
        cases hstep
        rfl
    obtain ⟨fuel, outcome, hloop⟩ := loop_ends LoopState.round
      (fun state => state.store.left .search + state.store.left .software) hcount bound
      (fun state next hle hstep => left_backfillStep (hbound state.round hle) hstep)
      { round := 0, store := s, batches := [] }
    refine ⟨fuel, outcome, fun more => ?_, ?_⟩
    · unfold runAssetSearchBackfill
      rw [if_neg hstart]
      exact loop_add hloop more
    · exact loop_spec (fun _ hbatch => by cases hbatch) hloop

end Model

/-- A card with an empty document that has no index. -/
def emptyCard : CardStore where
  store :=
    { cards :=
        { rows :=
            [{ id := 1, assetId := "a-1", fqdn := none, hostname := none, ipAddress := none,
               firstSeen := 0, lastSeen := 0,
               content :=
                 { displayName := none, assetType := none, osName := none, osVersion := none,
                   vulnerabilityLevel := none, rootJson := .obj [], nodesJson := .arr [],
                   collectionsJson := .arr [], cachedNodes := [], cachedCollections := [],
                   searchRows := [], softwareInventoryUpdated := false } }]
          pkNodup := by simp
          ukNodup := by simp }
      nextId := 2 }
  clean := by
    intro row hrow
    obtain rfl := List.mem_singleton.1 hrow
    decide +kernel

/-- A run without changes and failures. -/
def quietEnvironment : Environment where
  startFails := false
  rounds := fun _ => { before := [], faulty := fun _ => false, after := [], lost := false }
  finishFails := false

/-- The run over a card with an empty document ends. -/
theorem emptyCard_run_ends :
    ∃ fuel outcome,
      (∀ more, runAssetSearchBackfill SnapshotDocs.plainCoercions CharTables.ascii
        Findings.asciiCollation quietEnvironment (fuel + more) emptyCard = some outcome) ∧
      (∀ batch ∈ outcome.batches, batch.GoesOn → batch.IndexesMore) ∧
      (outcome.status = .completed → outcome.store.Complete) :=
  run_asset_search_backfill_ends SnapshotDocs.plainCoercions CharTables.ascii
    Findings.asciiCollation quietEnvironment emptyCard ⟨0, fun _ _ => ⟨rfl, rfl⟩⟩

example :
    (runAssetSearchBackfill SnapshotDocs.plainCoercions CharTables.ascii Findings.asciiCollation
      quietEnvironment 2 emptyCard).map Outcome.status = some .completed := by
  decide +kernel

end SearchIndex
end AssetCard
end MpvmApp
