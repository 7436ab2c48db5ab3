import MpvmApp.AssetCard.BuildJobs

/-!
# The items of a scan postprocessing run

A run has one item for each asset that a successful job of the scan has found, and one for each
target without assets.  The items are rows of one table, unique by their run and key.

Main definitions:

- `upsertScanPostprocessItem`: the item of a key is created, or gets what is known now.
- `updateScanPostprocessItem`: the update of an item by its id.
- `releaseItems`: what the start of the application does with unfinished items.

Main results:

- Theorem `find?_updateScanPostprocessItem`: an update changes the item of its id only.
- Theorem `upsertScanPostprocessItem_cases`: an upsert adds an item or keeps the status and
  the removal operation of the one that is there.
-/

namespace MpvmApp
namespace Services
namespace Scan

open Remediation

/-- The values of the column `status` of an item. -/
inductive ItemStatus where
  | queued
  | preparing
  | building
  | cardSaved
  | deleting
  | completed
  | resolutionFailed
  | buildFailed
  | removalFailed
  | cancelled
deriving DecidableEq, Repr

/-- The statuses of the items that a resumed run does not take up. -/
def ItemStatus.isFinished : ItemStatus → Bool
  | .completed => true
  | .resolutionFailed => true
  | .buildFailed => true
  | .removalFailed => true
  | _ => false

/-- `item_key`: the texts `asset:…` and `target:…`. -/
inductive ItemKey where
  | asset (assetId : String)
  | target (target : String)
deriving DecidableEq, Repr

/-- A row of `scan_postprocess_items`. -/
structure ItemRow where
  id : Nat
  runId : String
  itemKey : ItemKey
  mpJobId : Option String
  target : Option String
  assetId : Option String
  displayName : Option String
  status : ItemStatus
  stage : String
  buildJobId : Option String := none
  removalOperationId : Option String := none
  message : Option String := none
  error : Option String := none
  createdAt : Instant
  startedAt : Option Instant := none
  finishedAt : Option Instant := none
  updatedAt : Instant
deriving DecidableEq

/-- `UNIQUE(postprocess_run_id, item_key)`. -/
def ItemRow.uniqueKey (row : ItemRow) : String × ItemKey :=
  (row.runId, row.itemKey)

/-- The table of the items. -/
abbrev Items := Table ItemRow ItemRow.id ItemRow.uniqueKey

/-- The columns that `update_scan_postprocess_item` can set; the others are left out. -/
structure ItemValues where
  status : Option ItemStatus := none
  stage : Option String := none
  buildJobId : Option String := none
  removalOperationId : Option String := none
  message : Option (Option String) := none
  error : Option (Option String) := none
  startedAt : Option Instant := none
  finishedAt : Option Instant := none

/-- The assignments of an update. -/
def ItemValues.apply (values : ItemValues) (current : Instant) (row : ItemRow) : ItemRow :=
  { row with
    status := values.status.getD row.status
    stage := values.stage.getD row.stage
    buildJobId := Sql.coalesce values.buildJobId row.buildJobId
    removalOperationId := Sql.coalesce values.removalOperationId row.removalOperationId
    message := values.message.getD row.message
    error := values.error.getD row.error
    startedAt := Sql.coalesce values.startedAt row.startedAt
    finishedAt := Sql.coalesce values.finishedAt row.finishedAt
    updatedAt := current }

/-- `update_scan_postprocess_item`. -/
def updateScanPostprocessItem (items : Items) (itemId : Nat) (values : ItemValues)
    (current : Instant) : Items :=
  items.mapRows (fun row => if row.id = itemId then values.apply current row else row)
    (fun row => by split <;> rfl) (fun row => by split <;> rfl)

/-- The item that an upsert has under its key. -/
def findItem (items : Items) (runId : String) (itemKey : ItemKey) : Option ItemRow :=
  items.rows.find? fun row => decide (row.uniqueKey = (runId, itemKey))

/-- The `DO UPDATE` of an upsert: status, stage and what has been stored since stay. -/
def refreshItem (mpJobId target assetId displayName : Option String) (current : Instant)
    (row : ItemRow) : ItemRow :=
  { row with
    mpJobId := Sql.coalesce mpJobId row.mpJobId
    target := Sql.coalesce target row.target
    assetId := Sql.coalesce assetId row.assetId
    displayName := Sql.coalesce displayName row.displayName
    updatedAt := current }

/--
`upsert_scan_postprocess_item`, with the next id of the sequence; `none` is an error of
the database.
-/
def upsertScanPostprocessItem (items : Items) (runId : String) (itemKey : ItemKey)
    (mpJobId target assetId displayName : Option String) (status : ItemStatus) (stage : String)
    (nextId : Nat) (current : Instant) : Option (Items × ItemRow) :=
  match findItem items runId itemKey with
  | some old =>
      let row := refreshItem mpJobId target assetId displayName current old
      some (items.mapRows (fun other =>
          if other.id = old.id then refreshItem mpJobId target assetId displayName current other
          else other)
        (fun other => by split <;> rfl) (fun other => by split <;> rfl), row)
  | none =>
      let row : ItemRow :=
        { id := nextId, runId, itemKey, mpJobId, target, assetId, displayName, status, stage,
          createdAt := current, updatedAt := current }
      (items.insert? row).map fun items => (items, row)

/-- `list_scan_postprocess_items`. -/
def listScanPostprocessItems (items : Items) (runId : String) : List ItemRow :=
  items.rows.filter fun row => decide (row.runId = runId)

/-- The second statement of `release_scan_postprocess_leases`. -/
def releaseItems (items : Items) (current : Instant) : Items :=
  items.mapRows
    (fun row =>
      if row.status = .building ∨ row.status = .cardSaved then
        { row with status := .queued, stage := "queued", updatedAt := current }
      else row)
    (fun row => by split <;> rfl) (fun row => by split <;> rfl)

/-- The first statement of `rebind_scan_postprocess_asset`. -/
def rebindItems (items : Items) (buildJobId canonicalAssetId : String) (current : Instant) :
    Items :=
  items.mapRows
    (fun row =>
      if row.buildJobId = some buildJobId then
        { row with assetId := some canonicalAssetId, updatedAt := current }
      else row)
    (fun row => by split <;> rfl) (fun row => by split <;> rfl)

/-! ## What the statements keep -/

/-- An update changes the item of its id only. -/
theorem find?_updateScanPostprocessItem (items : Items) (itemId : Nat) (values : ItemValues)
    (current : Instant) (id : Nat) :
    (updateScanPostprocessItem items itemId values current).find? id =
      if id = itemId then (items.find? id).map (values.apply current) else items.find? id := by
  rw [updateScanPostprocessItem, Table.find?_mapRows]
  cases hfind : items.find? id with
  | none => simp
  | some row =>
      have hid := Table.pk_of_find? hfind
      by_cases h : id = itemId
      · simp [h, hid]
      · simp [h, hid]

/-- What no statement but an update of the item itself changes. -/
structure SameProgress (old new : ItemRow) : Prop where
  runId : new.runId = old.runId
  removalOperationId : new.removalOperationId = old.removalOperationId
  removalFailed : old.status = .removalFailed → new.status = .removalFailed

/-- The items after a statement: the same ones, with the same progress. -/
def KeepsProgress (items items' : Items) : Prop :=
  ∃ g : ItemRow → ItemRow, (∀ row, SameProgress row (g row)) ∧
    ∀ id, items'.find? id = (items.find? id).map g

theorem KeepsProgress.refl (items : Items) :
    KeepsProgress items items :=
  ⟨id, fun _ => ⟨rfl, rfl, fun hfailed => hfailed⟩, fun id => by simp⟩

theorem keepsProgress_releaseItems (items : Items) (current : Instant) :
    KeepsProgress items (releaseItems items current) := by
  refine ⟨_, fun row => ?_, fun id => Table.find?_mapRows items _ _ _ id⟩
  split
  · rename_i hstatus
    refine ⟨rfl, rfl, fun hfailed => ?_⟩
    rw [hfailed] at hstatus
    simp at hstatus
  · exact ⟨rfl, rfl, fun hfailed => hfailed⟩

theorem keepsProgress_rebindItems (items : Items) (buildJobId canonicalAssetId : String)
    (current : Instant) :
    KeepsProgress items (rebindItems items buildJobId canonicalAssetId current) := by
  refine ⟨_, fun row => ?_, fun id => Table.find?_mapRows items _ _ _ id⟩
  split <;> exact ⟨rfl, rfl, fun hfailed => hfailed⟩

/--
An upsert adds an item under a new id, or gives back the item of its key with its status and
removal operation.
-/
theorem upsertScanPostprocessItem_cases {items items' : Items} {runId : String}
    {itemKey : ItemKey} {mpJobId target assetId displayName : Option String} {status : ItemStatus}
    {stage : String} {nextId : Nat} {current : Instant} {row : ItemRow}
    (h : upsertScanPostprocessItem items runId itemKey mpJobId target assetId displayName status
      stage nextId current = some (items', row)) :
    row.uniqueKey = (runId, itemKey) ∧ items'.find? row.id = some row ∧
      (∀ id, id ≠ row.id → items'.find? id = items.find? id) ∧
      (findItem items runId itemKey = none ∧ items.find? row.id = none ∧
          row.removalOperationId = none ∧ row.status = status ∨
        ∃ old, findItem items runId itemKey = some old ∧ items.find? row.id = some old ∧
          row.runId = old.runId ∧ row.removalOperationId = old.removalOperationId ∧
          row.status = old.status) := by
  unfold upsertScanPostprocessItem at h
  cases hfind : findItem items runId itemKey with
  | some old =>
      simp only [hfind, Option.some.injEq, Prod.mk.injEq] at h
      obtain ⟨rfl, rfl⟩ := h
      have hkey : old.uniqueKey = (runId, itemKey) := by
        simpa [findItem] using List.find?_some hfind
      have hold : items.find? old.id = some old :=
        Table.find?_of_mem (List.mem_of_find?_eq_some hfind)
      refine ⟨hkey, ?_, fun id hid => ?_, .inr ⟨old, rfl, hold, rfl, rfl, rfl⟩⟩
      · rw [Table.find?_mapRows]
        simp [refreshItem, hold]
      · rw [Table.find?_mapRows]
        cases hother : items.find? id with
        | none => rfl
        | some other =>
            have hid' : other.id ≠ old.id := (Table.pk_of_find? hother).trans_ne hid
            simp [hid']
  | none =>
      simp only [hfind, Option.map_eq_some_iff, Prod.mk.injEq] at h
      obtain ⟨inserted, hinsert, rfl, rfl⟩ := h
      refine ⟨rfl, ?_, fun id hid => ?_, .inl ⟨rfl, ?_, rfl, rfl⟩⟩
      · rw [Table.find?_insert? hinsert, if_pos rfl]
      · rw [Table.find?_insert? hinsert, if_neg (Ne.symm hid)]
      · exact Table.find?_eq_none_of_insert? hinsert

end Scan
end Services
end MpvmApp
