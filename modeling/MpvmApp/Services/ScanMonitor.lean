import MpvmApp.Lib.Dict
import MpvmApp.Lib.Runs
import MpvmApp.Services.ScanItems

/-!
# The targets and assets of a scan

The monitor of a scan asks for the assets of each target of a successful job until it has some,
and stores an item for each asset.  A target is closed as soon as one of its assets has an item,
also when another one could not be stored; the targets that are left when the monitor stops get an
item that records their failure.

Main definitions:

- `resolveScannedTargetOnce`: the assets that a query finds for a target.
- `scheduleTarget`: the items for the assets of a target.
- `finishMonitor`: the items for the targets that are left.

Main results:

- Theorem `pollMonitor_eq_run`: a poll treats its targets one after the other.
- Theorem `conserved_iff`: which runs lose none of the assets that they have found.
-/

namespace MpvmApp
namespace Services
namespace Scan

open Remediation

/-! ## Jobs and targets -/

/-- A job of a scan: its id and targets. -/
structure ScanJob where
  id : Option String
  targets : List String

/-- The targets of one job that are not in the result yet. -/
def addTargets (jobId : Option String) :
    List String → Dict String (Option String) → Dict String (Option String)
  | [], result => result
  | target :: targets, result =>
      let value := Sql.strip target
      addTargets jobId targets
        (if value ≠ "" ∧ result.get? value = none then result.set value jobId else result)

/-- `successful_scan_target_jobs`: each target with the first job that has it. -/
def successfulScanTargetJobs (jobs : List ScanJob) : Dict String (Option String) :=
  jobs.foldl (fun result job => addTargets (Sql.orNone job.id) job.targets result) Dict.empty

/-! ## Resolution -/

/--
A record of the answer to the query for a target: the values that
`normalize_scanned_asset_record` takes from it, whether `scanned_asset_record_is_current`
holds, and the error with which its item cannot be stored in this poll, if there is one.
-/
structure ScannedRecord where
  assetId : Option String
  displayName : Option String := none
  isCurrent : Bool := true
  storeError : Option String := none

/-- A normalised asset. -/
structure ScannedAsset where
  assetId : String
  displayName : Option String
  target : String
  mpJobId : Option String
  storeError : Option String

/-- `normalize_scanned_asset_record`; records without an asset id are dropped afterwards. -/
def normalizeScannedAssetRecord (target : String) (mpJobId : Option String)
    (record : ScannedRecord) : Option ScannedAsset :=
  (Sql.orNone record.assetId).map fun assetId =>
    { assetId, displayName := record.displayName, target, mpJobId,
      storeError := record.storeError }

/-- `"/" in target`: the target is a network, whose records must be of this run. -/
def requireFreshness (target : String) : Bool :=
  target.toList.contains '/'

/-- `resolve_scanned_target_once`: the assets of a target, or why there are none. -/
def resolveScannedTargetOnce (records : List ScannedRecord) (target : String)
    (mpJobId : Option String) : List ScannedAsset × String :=
  let current := records.filter fun record => !requireFreshness target || record.isCurrent
  match current.filterMap (normalizeScannedAssetRecord target mpJobId) with
  | asset :: assets => (asset :: assets, "")
  | [] =>
      if records.isEmpty then
        ([], s!"PDQL returned no assets for successful job target {target}.")
      else if requireFreshness target then
        ([], s!"PDQL returned {records.length} asset(s) for {target}, " ++
          "but none has CreationTime/UpdateTime from this run.")
      else
        ([], s!"PDQL returned {records.length} record(s) for {target}, " ++
          "but none contains asset_id.")

/-- `resolve_target`: an error of the query leaves the target without assets. -/
def resolveTarget (answer : Except String (List ScannedRecord)) (target : String)
    (mpJobId : Option String) : List ScannedAsset × String :=
  match answer with
  | .ok records => resolveScannedTargetOnce records target mpJobId
  | .error error => ([], error)

/-! ## The monitor -/

/--
The variables of `monitor_successful_scan_jobs` and the items.  `known` are the asset ids
of the items at the start, `found` the assets that a target has been resolved to so far; the
program has no variables for them.
-/
structure Monitor where
  runId : String
  items : Items
  pendingTargets : Dict String (Option String)
  targetErrors : Dict String String
  seenAssetIds : List String
  resolvedJobTargets : List (String × String)
  known : List String
  found : List (String × String)

/-- The start of the monitor with the items that the run has. -/
def startMonitor (runId : String) (items : Items) : Monitor :=
  let existing := (listScanPostprocessItems items runId).filter fun row =>
    (Sql.orNone row.assetId).isSome
  let seen := existing.filterMap ItemRow.assetId
  { runId
    items
    pendingTargets := Dict.empty
    targetErrors := Dict.empty
    seenAssetIds := seen
    resolvedJobTargets := existing.map fun row => (row.mpJobId.getD "", row.target.getD "")
    known := seen
    found := [] }

/-- A target of a successful job becomes pending unless it has been resolved for this job. -/
def addPending (m : Monitor) (targetJob : String × Option String) : Monitor :=
  if m.resolvedJobTargets.contains (targetJob.2.getD "", targetJob.1) then m
  else { m with pendingTargets := m.pendingTargets.set targetJob.1 targetJob.2 }

/-- A number that no item has: the sequence gives greater ones. -/
def freshId (items : Items) : Nat :=
  (items.rows.map ItemRow.id).foldr max 0 + 1

/-- The item of one asset: the monitor, and whether the target counts as scheduled. -/
def scheduleOne (target : String) (current : Instant) (state : Monitor × Bool)
    (asset : ScannedAsset) : Monitor × Bool :=
  let m := state.1
  if asset.assetId ∈ m.seenAssetIds then (m, true)
  else
    match asset.storeError with
    | some error => ({ m with targetErrors := m.targetErrors.set target error }, state.2)
    | none =>
        match upsertScanPostprocessItem m.items m.runId (.asset asset.assetId) asset.mpJobId
            (some asset.target) (some asset.assetId) asset.displayName .queued "queued"
            (freshId m.items) current with
        | some (items, _) =>
            ({ m with items := items, seenAssetIds := m.seenAssetIds ++ [asset.assetId] }, true)
        | none => state

/-- The treatment of one resolution result. -/
def scheduleTarget (m : Monitor) (target : String) (jobId : Option String)
    (answer : Except String (List ScannedRecord)) (current : Instant) : Monitor :=
  let (assets, error) := resolveTarget answer target jobId
  if assets.isEmpty then { m with targetErrors := m.targetErrors.set target error }
  else
    let found := { m with found := assets.map (fun asset => (target, asset.assetId)) ++ m.found }
    let (m', targetScheduled) := assets.foldl (scheduleOne target current) (found, false)
    if targetScheduled then
      { m' with
        resolvedJobTargets := (jobId.getD "", target) :: m'.resolvedJobTargets
        pendingTargets := m'.pendingTargets.pop target
        targetErrors := m'.targetErrors.pop target }
    else m'

/-- One poll: the successful jobs, the answers for all pending targets, and their treatment. -/
def pollMonitor (m : Monitor) (jobs : List ScanJob)
    (answers : String → Except String (List ScannedRecord)) (current : Instant) : Monitor :=
  let m' := (successfulScanTargetJobs jobs).items.foldl addPending m
  m'.pendingTargets.items.foldl
    (fun m'' pending => scheduleTarget m'' pending.1 pending.2 (answers pending.1) current) m'

/-- The item of a target that is left at the end. -/
def recordTarget (m : Monitor) (current : Instant) (items : Items)
    (pending : String × Option String) : Items :=
  match upsertScanPostprocessItem items m.runId (.target pending.1) pending.2 (some pending.1) none
      none .resolutionFailed "resolution_failed" (freshId items) current with
  | some (items', row) =>
      updateScanPostprocessItem items' row.id
        { status := some .resolutionFailed
          stage := some "resolution_failed"
          error := some (some ((m.targetErrors.get? pending.1).getD "Asset resolution timed out."))
          finishedAt := some current } current
  | none => items

/-- The end of the monitor: the targets that are left get their items. -/
def finishMonitor (m : Monitor) (current : Instant) : Items :=
  m.pendingTargets.items.foldl (recordTarget m current) m.items

/-- The items that `refresh_scan_postprocess_counts` counts as failed. -/
def failedItems (items : Items) (runId : String) : List ItemRow :=
  items.rows.filter fun row => decide (row.runId = runId) &&
    (decide (row.status = .resolutionFailed) || decide (row.status = .buildFailed) ||
      decide (row.status = .removalFailed))

/-! ## The monitor among the workers -/

/-- What can happen while the monitor runs: its own steps, and what workers store. -/
inductive MonitorEvent where
  | jobs (jobs : List ScanJob)
  | target (target : String) (answer : Except String (List ScannedRecord)) (current : Instant)
  | update (itemId : Nat) (values : ItemValues) (current : Instant)
  | rebind (buildJobId canonicalAssetId : String) (current : Instant)

/-- One step of the monitor or of a worker. -/
def monitorStep (m : Monitor) : MonitorEvent → Monitor
  | .jobs jobs => (successfulScanTargetJobs jobs).items.foldl addPending m
  | .target target answer current =>
      match m.pendingTargets.get? target with
      | some jobId => scheduleTarget m target jobId answer current
      | none => m
  | .update itemId values current =>
      { m with items := updateScanPostprocessItem m.items itemId values current }
  | .rebind buildJobId canonicalAssetId current =>
      { m with items := rebindItems m.items buildJobId canonicalAssetId current }

/-- The run has an item with the key. -/
def HasItem (items : Items) (runId : String) (itemKey : ItemKey) : Prop :=
  ∃ row ∈ items.rows, row.uniqueKey = (runId, itemKey)

/-- The asset has an item: one that the run had at the start, or one under its own key. -/
def Scheduled (m : Monitor) (assetId : String) : Prop :=
  assetId ∈ m.known ∨ HasItem m.items m.runId (.asset assetId)

/-- Every asset that has been found is scheduled, or its target is pending. -/
def Conserved (m : Monitor) : Prop :=
  ∀ pair ∈ m.found, Scheduled m pair.2 ∨ (m.pendingTargets.get? pair.1).isSome = true

/--
The condition on a step: a target one of whose assets is seen or stored has all the assets that
have been found for it scheduled or stored.
-/
def Kept (m : Monitor) : MonitorEvent → Prop
  | .target target answer _ =>
      ∀ jobId ∈ m.pendingTargets.get? target,
        (∃ asset ∈ (resolveTarget answer target jobId).1,
          asset.assetId ∈ m.seenAssetIds ∨ asset.storeError = none) →
        ∀ assetId, ((target, assetId) ∈ m.found ∨
            ∃ asset ∈ (resolveTarget answer target jobId).1, asset.assetId = assetId) →
          Scheduled m assetId ∨ ∃ asset ∈ (resolveTarget answer target jobId).1,
            asset.assetId = assetId ∧ asset.storeError = none
  | _ => True

/-- Each asset id that the monitor has seen is scheduled, those at the start included. -/
structure SeenSound (m : Monitor) : Prop where
  seen : ∀ assetId ∈ m.seenAssetIds, Scheduled m assetId
  known : ∀ assetId ∈ m.known, assetId ∈ m.seenAssetIds

/-! ## Items keep their keys -/

theorem hasItem_of_find? {items : Items} {runId : String} {itemKey : ItemKey} {row : ItemRow}
    (h : items.find? row.id = some row) (hkey : row.uniqueKey = (runId, itemKey)) :
    HasItem items runId itemKey :=
  ⟨row, Table.mem_of_find? h, hkey⟩

theorem HasItem.mapRows {items : Items} {runId : String} {itemKey : ItemKey} {g : ItemRow → ItemRow}
    {hpk : ∀ row, (g row).id = row.id} {huk : ∀ row, (g row).uniqueKey = row.uniqueKey} :
    HasItem (items.mapRows g hpk huk) runId itemKey ↔ HasItem items runId itemKey := by
  constructor
  · rintro ⟨row', hrow', hkey⟩
    obtain ⟨row, hrow, rfl⟩ := List.mem_map.1 hrow'
    exact ⟨row, hrow, (huk row).symm.trans hkey⟩
  · rintro ⟨row, hrow, hkey⟩
    exact ⟨g row, List.mem_map_of_mem hrow, (huk row).trans hkey⟩

theorem find?_freshId (items : Items) :
    items.find? (freshId items) = none := by
  rw [Table.find?_eq_none_iff]
  intro row hrow hid
  have hle : ∀ (ids : List Nat), ∀ id ∈ ids, id ≤ ids.foldr max 0 := by
    intro ids
    induction ids with
    | nil => simp
    | cons i ids ih =>
        intro id hid
        rcases List.mem_cons.1 hid with rfl | hmem
        · exact le_max_left _ _
        · exact (ih id hmem).trans (le_max_right _ _)
  have hmax := hle (items.rows.map ItemRow.id) row.id (List.mem_map_of_mem hrow)
  rw [hid, freshId] at hmax
  omega

theorem exists_upsert (items : Items) (runId : String) (itemKey : ItemKey)
    (mpJobId target assetId displayName : Option String) (status : ItemStatus) (stage : String)
    (current : Instant) :
    ∃ items' row, upsertScanPostprocessItem items runId itemKey mpJobId target assetId displayName
      status stage (freshId items) current = some (items', row) := by
  unfold upsertScanPostprocessItem
  cases hfind : findItem items runId itemKey with
  | some old => exact ⟨_, _, rfl⟩
  | none =>
      have hfree : items.conflicts
          { id := freshId items, runId, itemKey, mpJobId, target, assetId, displayName, status, stage,
            createdAt := current, updatedAt := current } = false := by
        rw [Table.conflicts_eq_false_iff]
        intro row hrow
        refine ⟨Table.find?_eq_none_iff.1 (find?_freshId items) row hrow, ?_⟩
        simpa [ItemRow.uniqueKey] using List.find?_eq_none.1 hfind row hrow
      simp [Table.insert?, hfree]

/-- After an upsert the run has the items that it had, and that of the key. -/
theorem hasItem_upsert {items items' : Items} {runId : String} {itemKey : ItemKey}
    {mpJobId target assetId displayName : Option String} {status : ItemStatus} {stage : String}
    {nextId : Nat} {current : Instant} {row : ItemRow}
    (h : upsertScanPostprocessItem items runId itemKey mpJobId target assetId displayName status
      stage nextId current = some (items', row)) (runId' : String) (itemKey' : ItemKey) :
    HasItem items' runId' itemKey' ↔
      (runId', itemKey') = (runId, itemKey) ∨ HasItem items runId' itemKey' := by
  obtain ⟨hkey, hrow, hothers, hcase⟩ := upsertScanPostprocessItem_cases h
  constructor
  · rintro ⟨row', hrow', hkey'⟩
    have hfind := Table.find?_of_mem hrow'
    by_cases hid : row'.id = row.id
    · rw [hid, hrow, Option.some.injEq] at hfind
      exact .inl (hkey'.symm.trans (hfind ▸ hkey))
    · rw [hothers _ hid] at hfind
      exact .inr (hasItem_of_find? hfind hkey')
  · rintro (heq | ⟨row', hrow', hkey'⟩)
    · exact hasItem_of_find? hrow (hkey.trans heq.symm)
    · have hfind := Table.find?_of_mem hrow'
      by_cases hid : row'.id = row.id
      · rcases hcase with ⟨-, hnone, -⟩ | ⟨old, hold, hfindold, -⟩
        · rw [hid, hnone] at hfind
          cases hfind
        · have holdkey : old.uniqueKey = (runId, itemKey) := by
            simpa [findItem] using List.find?_some hold
          rw [hid, hfindold, Option.some.injEq] at hfind
          exact hasItem_of_find? hrow (hkey.trans (holdkey.symm.trans (hfind ▸ hkey')))
      · exact hasItem_of_find? ((hothers _ hid).trans hfind) hkey'

/-! ## The assets of one target -/

/-- What the treatment of assets leaves as it is. -/
structure SameRun (m m' : Monitor) : Prop where
  runId : m'.runId = m.runId
  pendingTargets : m'.pendingTargets = m.pendingTargets
  known : m'.known = m.known
  found : m'.found = m.found

/-- The assets that have been stored after the treatment of some. -/
structure ScheduledAll (m : Monitor) (flag : Bool) (assets : List ScannedAsset)
    (state : Monitor × Bool) : Prop where
  same : SameRun m state.1
  sound : SeenSound state.1
  seen : ∀ assetId, assetId ∈ state.1.seenAssetIds ↔ assetId ∈ m.seenAssetIds ∨
    ∃ asset ∈ assets, asset.assetId = assetId ∧ asset.storeError = none
  scheduled : ∀ assetId, Scheduled state.1 assetId ↔ Scheduled m assetId ∨
    ∃ asset ∈ assets, asset.assetId = assetId ∧ asset.storeError = none
  flag : state.2 = true ↔ flag = true ∨
    ∃ asset ∈ assets, asset.assetId ∈ m.seenAssetIds ∨ asset.storeError = none

/-- The treatment of one asset. -/
theorem scheduledAll_scheduleOne {m : Monitor} (hm : SeenSound m) (flag : Bool) (target : String)
    (current : Instant) (asset : ScannedAsset) :
    ScheduledAll m flag [asset] (scheduleOne target current (m, flag) asset) := by
  have hsame : SameRun m m := ⟨rfl, rfl, rfl, rfl⟩
  unfold scheduleOne
  dsimp only
  split_ifs with hseen
  · refine ⟨hsame, hm, fun assetId => ?_, fun assetId => ?_, by simp [hseen]⟩
    · refine ⟨.inl, fun h => h.elim id ?_⟩
      simpa using fun hid _ => hid ▸ hseen
    · refine ⟨.inl, fun h => h.elim id ?_⟩
      simpa using fun hid _ => hid ▸ hm.seen _ hseen
  · cases hstore : asset.storeError with
    | some error =>
        exact ⟨⟨rfl, rfl, rfl, rfl⟩, ⟨hm.seen, hm.known⟩, by simp [hstore], by simp [hstore, Scheduled],
          by simp [hstore, hseen]⟩
    | none =>
        obtain ⟨items', row, hupsert⟩ := exists_upsert m.items m.runId (.asset asset.assetId)
          asset.mpJobId (some asset.target) (some asset.assetId) asset.displayName .queued "queued"
          current
        have hscheduled : ∀ assetId,
            Scheduled { m with items := items', seenAssetIds := m.seenAssetIds ++ [asset.assetId] }
              assetId ↔ Scheduled m assetId ∨ asset.assetId = assetId := by
          intro assetId
          simp only [Scheduled, hasItem_upsert hupsert, Prod.mk.injEq, ItemKey.asset.injEq,
            true_and]
          constructor
          · rintro (hknown | rfl | hitem)
            · exact .inl (.inl hknown)
            · exact .inr rfl
            · exact .inl (.inr hitem)
          · rintro ((hknown | hitem) | rfl)
            · exact .inl hknown
            · exact .inr (.inr hitem)
            · exact .inr (.inl rfl)
        simp only [hupsert]
        refine ⟨⟨rfl, rfl, rfl, rfl⟩, ⟨fun assetId hmem => ?_, fun assetId hmem => ?_⟩, by
          simp [hstore, eq_comm], by simpa [hstore] using hscheduled, by simp [hstore]⟩
        · rw [hscheduled]
          rcases List.mem_append.1 hmem with hold | hnew
          · exact .inl (hm.seen _ hold)
          · exact .inr (List.mem_singleton.1 hnew).symm
        · exact List.mem_append_left _ (hm.known _ hmem)

/-- The treatment of one asset after the other. -/
theorem scheduledAll_foldl {m : Monitor} (hm : SeenSound m) (flag : Bool) (target : String)
    (current : Instant) (assets : List ScannedAsset) :
    ScheduledAll m flag assets (assets.foldl (scheduleOne target current) (m, flag)) := by
  induction assets generalizing m flag with
  | nil => exact ⟨⟨rfl, rfl, rfl, rfl⟩, hm, by simp, by simp, by simp⟩
  | cons asset assets ih =>
      have hone := scheduledAll_scheduleOne hm flag target current asset
      rw [List.foldl_cons]
      generalize scheduleOne target current (m, flag) asset = state at hone
      obtain ⟨m', flag'⟩ := state
      have hrest := ih hone.sound flag'
      have hsame := hone.same
      refine ⟨⟨hrest.same.runId.trans hsame.runId,
        hrest.same.pendingTargets.trans hsame.pendingTargets, hrest.same.known.trans hsame.known,
        hrest.same.found.trans hsame.found⟩, hrest.sound, fun assetId => ?_, fun assetId => ?_, ?_⟩
      · rw [hrest.seen, hone.seen]
        simp [or_assoc]
      · rw [hrest.scheduled, hone.scheduled]
        simp [or_assoc]
      · have hseen := hone.seen
        have hflag := hone.flag
        simp only [List.mem_singleton, exists_eq_left] at hseen hflag
        rw [hrest.flag, hflag]
        simp only [hseen, List.mem_cons, exists_eq_or_imp]
        -- An asset that the first one has stored makes the flag true already.
        constructor
        · rintro ((h | h) | ⟨other, hother, (h | ⟨-, h⟩) | h⟩)
          · exact .inl h
          · exact .inr (.inl h)
          · exact .inr (.inr ⟨other, hother, .inl h⟩)
          · exact .inr (.inl (.inr h))
          · exact .inr (.inr ⟨other, hother, .inr h⟩)
        · rintro (h | h | ⟨other, hother, h | h⟩)
          · exact .inl (.inl h)
          · exact .inl (.inr h)
          · exact .inr ⟨other, hother, .inl (.inl h)⟩
          · exact .inr ⟨other, hother, .inr h⟩

/-! ## The steps of the monitor -/

/-- Some asset of the target is seen or stored, so that the target is closed. -/
def Closes (m : Monitor) (assets : List ScannedAsset) : Prop :=
  ∃ asset ∈ assets, asset.assetId ∈ m.seenAssetIds ∨ asset.storeError = none

/-- What the treatment of one resolution result does. -/
structure TargetDone (m : Monitor) (target : String) (assets : List ScannedAsset)
    (m' : Monitor) : Prop where
  runId : m'.runId = m.runId
  sound : SeenSound m'
  found : ∀ pair, pair ∈ m'.found ↔ pair ∈ m.found ∨
    pair.1 = target ∧ ∃ asset ∈ assets, asset.assetId = pair.2
  scheduled : ∀ assetId, Scheduled m' assetId ↔ Scheduled m assetId ∨
    ∃ asset ∈ assets, asset.assetId = assetId ∧ asset.storeError = none
  closed : Closes m assets → m'.pendingTargets = m.pendingTargets.pop target
  kept : ¬ Closes m assets → m'.pendingTargets = m.pendingTargets

theorem targetDone_scheduleTarget {m : Monitor} (hm : SeenSound m) (target : String)
    (jobId : Option String) (answer : Except String (List ScannedRecord)) (current : Instant) :
    TargetDone m target (resolveTarget answer target jobId).1
      (scheduleTarget m target jobId answer current) := by
  unfold scheduleTarget
  obtain ⟨assets, error⟩ := resolveTarget answer target jobId
  dsimp only
  by_cases hempty : assets.isEmpty = true
  · rw [if_pos hempty]
    obtain rfl : assets = [] := by simpa using hempty
    exact ⟨rfl, ⟨hm.seen, hm.known⟩, by simp, by simp [Scheduled], by simp [Closes], by simp⟩
  · rw [if_neg hempty]
    have hall := scheduledAll_foldl (m := { m with
        found := assets.map (fun asset => (target, asset.assetId)) ++ m.found })
      ⟨hm.seen, hm.known⟩ false target current assets
    generalize assets.foldl (scheduleOne target current) _ = state at hall
    obtain ⟨m', scheduled⟩ := state
    have hfound : ∀ pair, pair ∈ m'.found ↔ pair ∈ m.found ∨
        pair.1 = target ∧ ∃ asset ∈ assets, asset.assetId = pair.2 := by
      rintro ⟨target', assetId⟩
      rw [hall.same.found, List.mem_append, List.mem_map, or_comm]
      simp only [Prod.mk.injEq]
      constructor
      · rintro (hold | ⟨asset, hasset, rfl, rfl⟩)
        · exact .inl hold
        · exact .inr ⟨rfl, asset, hasset, rfl⟩
      · rintro (hold | ⟨rfl, asset, hasset, rfl⟩)
        · exact .inl hold
        · exact .inr ⟨asset, hasset, rfl, rfl⟩
    have hflag : scheduled = true ↔ Closes m assets := by
      simpa [Closes] using hall.flag
    have hpending := hall.same.pendingTargets
    dsimp only
    split_ifs with hscheduled
    · refine ⟨hall.same.runId, ⟨hall.sound.seen, hall.sound.known⟩, hfound, hall.scheduled,
        fun _ => ?_, fun hnot => absurd (hflag.1 hscheduled) hnot⟩
      rw [← hpending]
    · exact ⟨hall.same.runId, hall.sound, hfound, hall.scheduled,
        fun hcloses => absurd (hflag.2 hcloses) hscheduled, fun _ => hpending⟩

/-- New jobs only add pending targets. -/
structure MorePending (m m' : Monitor) : Prop where
  runId : m'.runId = m.runId
  items : m'.items = m.items
  known : m'.known = m.known
  seen : m'.seenAssetIds = m.seenAssetIds
  found : m'.found = m.found
  pending : ∀ target, (m.pendingTargets.get? target).isSome = true →
    (m'.pendingTargets.get? target).isSome = true

theorem morePending_foldl (targetJobs : List (String × Option String)) (m : Monitor) :
    MorePending m (targetJobs.foldl addPending m) := by
  induction targetJobs generalizing m with
  | nil => exact ⟨rfl, rfl, rfl, rfl, rfl, fun _ h => h⟩
  | cons targetJob targetJobs ih =>
      have hone : MorePending m (addPending m targetJob) := by
        unfold addPending
        split_ifs
        · exact ⟨rfl, rfl, rfl, rfl, rfl, fun _ h => h⟩
        · refine ⟨rfl, rfl, rfl, rfl, rfl, fun target h => ?_⟩
          simp only [Dict.get?_set]
          split_ifs
          · rfl
          · exact h
      have hrest := ih (addPending m targetJob)
      rw [List.foldl_cons]
      exact ⟨hrest.runId.trans hone.runId, hrest.items.trans hone.items,
        hrest.known.trans hone.known, hrest.seen.trans hone.seen, hrest.found.trans hone.found,
        fun target h => hrest.pending target (hone.pending target h)⟩

theorem scheduled_congr {m m' : Monitor} (hrun : m'.runId = m.runId) (hknown : m'.known = m.known)
    (hitems : ∀ itemKey, HasItem m'.items m.runId itemKey ↔ HasItem m.items m.runId itemKey)
    (assetId : String) :
    Scheduled m' assetId ↔ Scheduled m assetId := by
  rw [Scheduled, Scheduled, hrun, hknown, hitems]

theorem seenSound_and_conserved_iff_of_items {m : Monitor} {items : Items} (hm : SeenSound m)
    (hitems : ∀ itemKey, HasItem items m.runId itemKey ↔ HasItem m.items m.runId itemKey) :
    SeenSound { m with items := items } ∧ (Conserved { m with items := items } ↔ Conserved m) := by
  have hscheduled : ∀ assetId, Scheduled { m with items := items } assetId ↔ Scheduled m assetId :=
    scheduled_congr rfl rfl hitems
  refine ⟨⟨fun assetId hseen => (hscheduled assetId).2 (hm.seen assetId hseen), hm.known⟩, ?_⟩
  simp only [Conserved, hscheduled]

theorem seenSound_step (m : Monitor) (e : MonitorEvent) (hm : SeenSound m) :
    SeenSound (monitorStep m e) := by
  cases e with
  | jobs jobs =>
      have hmore := morePending_foldl (successfulScanTargetJobs jobs).items m
      have hscheduled := scheduled_congr hmore.runId hmore.known (by simp [hmore.items])
      simp only [monitorStep]
      exact ⟨fun assetId hseen => (hscheduled assetId).2 (hm.seen assetId (hmore.seen ▸ hseen)),
        fun assetId hknown => hmore.seen ▸ hm.known assetId (hmore.known ▸ hknown)⟩
  | target target answer current =>
      simp only [monitorStep]
      split
      · exact (targetDone_scheduleTarget hm target _ answer current).sound
      · exact hm
  | update itemId values current =>
      exact (seenSound_and_conserved_iff_of_items hm fun _ => HasItem.mapRows).1
  | rebind buildJobId canonicalAssetId current =>
      exact (seenSound_and_conserved_iff_of_items hm fun _ => HasItem.mapRows).1

/-- Which steps lose no asset. -/
theorem conserved_step_iff (m : Monitor) (e : MonitorEvent) (h : SeenSound m ∧ Conserved m) :
    Conserved (monitorStep m e) ↔ Kept m e := by
  obtain ⟨hm, hconserved⟩ := h
  cases e with
  | jobs jobs =>
      have hmore := morePending_foldl (successfulScanTargetJobs jobs).items m
      have hscheduled := scheduled_congr hmore.runId hmore.known (by simp [hmore.items])
      refine iff_of_true (fun pair hpair => ?_) trivial
      rcases hconserved pair (hmore.found ▸ hpair) with hdone | hpending
      · exact .inl ((hscheduled _).2 hdone)
      · exact .inr (hmore.pending _ hpending)
  | target target answer current =>
      simp only [monitorStep, Kept]
      cases hpending : m.pendingTargets.get? target with
      | none => exact iff_of_true hconserved (by simp)
      | some jobId =>
          have hdone := targetDone_scheduleTarget hm target jobId answer current
          have hclosed := hdone.closed
          have hkept := hdone.kept
          simp only [Option.mem_def, Option.some.injEq, forall_eq']
          generalize (resolveTarget answer target jobId).1 = assets at hdone hclosed hkept ⊢
          constructor
          · intro hafter hcloses assetId hfound
            have hpair := hafter (target, assetId)
              ((hdone.found _).2 (hfound.imp_right fun h => ⟨rfl, h⟩))
            rw [hclosed hcloses, Dict.get?_pop, if_pos rfl] at hpair
            exact (hdone.scheduled assetId).1 (hpair.resolve_right (by simp))
          · intro hcover pair hpair
            rw [hdone.scheduled]
            by_cases hcloses : Closes m assets
            · by_cases htarget : pair.1 = target
              · left
                refine hcover hcloses pair.2 ?_
                rcases (hdone.found pair).1 hpair with hold | ⟨-, hnew⟩
                · exact .inl (htarget ▸ hold)
                · exact .inr hnew
              · rw [hclosed hcloses, Dict.get?_pop, if_neg htarget]
                rcases (hdone.found pair).1 hpair with hold | ⟨hnew, -⟩
                · exact (hconserved pair hold).imp_left .inl
                · exact absurd hnew htarget
            · rw [hkept hcloses]
              rcases (hdone.found pair).1 hpair with hold | ⟨hnew, -⟩
              · exact (hconserved pair hold).imp_left .inl
              · exact .inr (by rw [hnew, hpending]; rfl)
  | update itemId values current =>
      exact iff_of_true
        ((seenSound_and_conserved_iff_of_items hm fun _ => HasItem.mapRows).2.2 hconserved) trivial
  | rebind buildJobId canonicalAssetId current =>
      exact iff_of_true
        ((seenSound_and_conserved_iff_of_items hm fun _ => HasItem.mapRows).2.2 hconserved) trivial

/-! ## Polls -/

theorem pendingTargets_scheduleOne (target : String) (current : Instant) (state : Monitor × Bool)
    (asset : ScannedAsset) :
    (scheduleOne target current state asset).1.pendingTargets = state.1.pendingTargets := by
  unfold scheduleOne
  dsimp only
  split_ifs
  · rfl
  · split
    · rfl
    · split <;> rfl

theorem pendingTargets_foldl_scheduleOne (target : String) (current : Instant)
    (assets : List ScannedAsset) (state : Monitor × Bool) :
    (assets.foldl (scheduleOne target current) state).1.pendingTargets =
      state.1.pendingTargets := by
  induction assets generalizing state with
  | nil => rfl
  | cons asset assets ih =>
      exact (ih _).trans (pendingTargets_scheduleOne target current state asset)

theorem get?_pendingTargets_scheduleTarget {m : Monitor} {target other : String}
    (hother : other ≠ target) (jobId : Option String)
    (answer : Except String (List ScannedRecord)) (current : Instant) :
    (scheduleTarget m target jobId answer current).pendingTargets.get? other =
      m.pendingTargets.get? other := by
  unfold scheduleTarget
  obtain ⟨assets, error⟩ := resolveTarget answer target jobId
  dsimp only
  by_cases hempty : assets.isEmpty = true
  · rw [if_pos hempty]
  · rw [if_neg hempty]
    have hpending := pendingTargets_foldl_scheduleOne target current assets ({ m with
      found := assets.map (fun asset => (target, asset.assetId)) ++ m.found }, false)
    generalize assets.foldl (scheduleOne target current) _ = state at hpending
    split_ifs
    · dsimp only
      rw [Dict.get?_pop, if_neg hother, hpending]
    · rw [hpending]

theorem foldl_scheduleTarget_eq_run (answers : String → Except String (List ScannedRecord))
    (current : Instant) (pending : List (String × Option String)) (m : Monitor)
    (hnodup : (pending.map Prod.fst).Nodup)
    (hpending : ∀ p ∈ pending, m.pendingTargets.get? p.1 = some p.2) :
    pending.foldl (fun m' p => scheduleTarget m' p.1 p.2 (answers p.1) current) m =
      Runs.run monitorStep m (pending.map fun p => .target p.1 (answers p.1) current) := by
  induction pending generalizing m with
  | nil => rfl
  | cons p pending ih =>
      rw [List.map_cons, List.nodup_cons] at hnodup
      have hstep : monitorStep m (.target p.1 (answers p.1) current) =
          scheduleTarget m p.1 p.2 (answers p.1) current := by
        simp [monitorStep, hpending p List.mem_cons_self]
      rw [List.foldl_cons, List.map_cons, Runs.run_cons, hstep]
      refine ih _ hnodup.2 fun q hq => ?_
      have hne : q.1 ≠ p.1 := fun heq => hnodup.1 (List.mem_map.2 ⟨q, hq, heq⟩)
      rw [get?_pendingTargets_scheduleTarget hne]
      exact hpending q (List.mem_cons_of_mem _ hq)

theorem get?_of_mem_items {α : Type*} {d : Dict String α} {item : String × α} (h : item ∈ d.items) :
    d.get? item.1 = some item.2 := by
  cases hget : d.get? item.1 with
  | none => exact absurd (List.mem_map_of_mem h) ((Dict.get?_eq_none_iff d item.1).1 hget)
  | some value =>
      have heq := List.inj_on_of_nodup_map d.nodup (Dict.mem_of_get? hget) h rfl
      rw [← heq]

/-- A poll is a run: the jobs come first, and then the pending targets one after the other. -/
theorem pollMonitor_eq_run (m : Monitor) (jobs : List ScanJob)
    (answers : String → Except String (List ScannedRecord)) (current : Instant) :
    pollMonitor m jobs answers current =
      Runs.run monitorStep m (.jobs jobs ::
        (((successfulScanTargetJobs jobs).items.foldl addPending m).pendingTargets.items.map
          fun p => .target p.1 (answers p.1) current)) := by
  rw [Runs.run_cons]
  exact foldl_scheduleTarget_eq_run answers current _ _ (Dict.nodup _)
    fun p hp => get?_of_mem_items hp

/-! ## The end of the monitor -/

/-- The error with which a target that is left is recorded. -/
def finalError (m : Monitor) (target : String) : String :=
  (m.targetErrors.get? target).getD "Asset resolution timed out."

/-- The target has an item that counts as failed. -/
def RecordedFailure (m : Monitor) (items : Items) (target : String) : Prop :=
  ∃ row ∈ failedItems items m.runId, row.itemKey = .target target ∧
    row.error = some (finalError m target)

/-- Every asset that has been found is scheduled, or counted as a failure of its target. -/
def Accounted (m : Monitor) (current : Instant) : Prop :=
  ∀ pair ∈ m.found, (pair.2 ∈ m.known ∨
      HasItem (finishMonitor m current) m.runId (.asset pair.2)) ∨
    RecordedFailure m (finishMonitor m current) pair.1

/-- What the item of a target that is left changes, and what it keeps. -/
theorem recordTarget_spec (m : Monitor) (current : Instant) (items : Items)
    (pending : String × Option String) :
    RecordedFailure m (recordTarget m current items pending) pending.1 ∧
      (∀ target, RecordedFailure m items target →
        RecordedFailure m (recordTarget m current items pending) target) ∧
      ∀ itemKey, HasItem items m.runId itemKey →
        HasItem (recordTarget m current items pending) m.runId itemKey := by
  obtain ⟨items', row, hupsert⟩ := exists_upsert items m.runId (.target pending.1) pending.2
    (some pending.1) none none .resolutionFailed "resolution_failed" current
  obtain ⟨hkey, hrow, hothers, hcase⟩ := upsertScanPostprocessItem_cases hupsert
  simp only [recordTarget, hupsert]
  have hself : RecordedFailure m (updateScanPostprocessItem items' row.id
      { status := some .resolutionFailed
        stage := some "resolution_failed"
        error := some (some ((m.targetErrors.get? pending.1).getD "Asset resolution timed out."))
        finishedAt := some current } current) pending.1 := by
    have hfind := find?_updateScanPostprocessItem items' row.id
      { status := some .resolutionFailed
        stage := some "resolution_failed"
        error := some (some ((m.targetErrors.get? pending.1).getD "Asset resolution timed out."))
        finishedAt := some current } current row.id
    rw [if_pos rfl, hrow, Option.map_some] at hfind
    refine ⟨_, List.mem_filter.2 ⟨Table.mem_of_find? hfind, ?_⟩, congrArg Prod.snd hkey, rfl⟩
    have hrun : row.runId = m.runId := congrArg Prod.fst hkey
    simpa [ItemValues.apply] using hrun
  refine ⟨hself, fun target htarget => ?_, fun itemKey hitem => ?_⟩
  · by_cases heq : target = pending.1
    · exact heq ▸ hself
    · obtain ⟨failed, hfailed, hfailedKey, herror⟩ := htarget
      obtain ⟨hmem, hcounted⟩ := List.mem_filter.1 hfailed
      have hfind : items.find? failed.id = some failed := Table.find?_of_mem hmem
      -- The item of another target is not the one that is written.
      have hid : failed.id ≠ row.id := by
        intro hid
        rcases hcase with ⟨-, hnone, -⟩ | ⟨old, hold, hfindold, -⟩
        · rw [hid, hnone] at hfind
          cases hfind
        · have holdkey : old.uniqueKey = (m.runId, .target pending.1) := by
            simpa [findItem] using List.find?_some hold
          rw [hid, hfindold, Option.some.injEq] at hfind
          have hboth := (congrArg Prod.snd holdkey).symm.trans
            ((congrArg ItemRow.itemKey hfind).trans hfailedKey)
          exact heq (ItemKey.target.inj hboth).symm
      have hafter := find?_updateScanPostprocessItem items' row.id
        { status := some .resolutionFailed
          stage := some "resolution_failed"
          error := some (some ((m.targetErrors.get? pending.1).getD "Asset resolution timed out."))
          finishedAt := some current } current failed.id
      rw [if_neg hid, hothers _ hid, hfind] at hafter
      exact ⟨failed, List.mem_filter.2 ⟨Table.mem_of_find? hafter, hcounted⟩, hfailedKey, herror⟩
  · exact HasItem.mapRows.2 ((hasItem_upsert hupsert m.runId itemKey).2 (.inr hitem))

/-- At the end every target that is left is recorded, and no item is lost. -/
theorem finishMonitor_spec (m : Monitor) (current : Instant)
    (pending : List (String × Option String)) (items : Items) :
    (∀ target, (target ∈ pending.map Prod.fst ∨ RecordedFailure m items target) →
        RecordedFailure m (pending.foldl (recordTarget m current) items) target) ∧
      ∀ itemKey, HasItem items m.runId itemKey →
        HasItem (pending.foldl (recordTarget m current) items) m.runId itemKey := by
  induction pending generalizing items with
  | nil => exact ⟨by simp, fun _ h => h⟩
  | cons p pending ih =>
      obtain ⟨hself, hfailed, hitem⟩ := recordTarget_spec m current items p
      obtain ⟨hrecorded, hkept⟩ := ih (recordTarget m current items p)
      rw [List.foldl_cons]
      refine ⟨fun target htarget => ?_, fun itemKey h => hkept itemKey (hitem itemKey h)⟩
      refine hrecorded target ?_
      rw [List.map_cons, List.mem_cons] at htarget
      rcases htarget with (rfl | hmem) | hold
      · exact .inr hself
      · exact .inl hmem
      · exact .inr (hfailed target hold)

theorem accounted_of_conserved {m : Monitor} (h : Conserved m) (current : Instant) :
    Accounted m current := by
  obtain ⟨hrecorded, hkept⟩ := finishMonitor_spec m current m.pendingTargets.items m.items
  intro pair hpair
  rcases h pair hpair with (hknown | hitem) | hpending
  · exact .inl (.inl hknown)
  · exact .inl (.inr (hkept _ hitem))
  · obtain ⟨jobId, hget⟩ := Option.isSome_iff_exists.1 hpending
    exact .inr (hrecorded pair.1 (.inl (List.mem_map_of_mem (Dict.mem_of_get? hget))))

theorem seenSound_startMonitor (runId : String) (items : Items) :
    SeenSound (startMonitor runId items) :=
  ⟨fun _ hseen => .inl hseen, fun _ hknown => hknown⟩

/--
After every step of a run all assets that have been found are scheduled or their targets pending,
exactly when the steps meet the condition.  At the end of such a run every asset that has been
found is scheduled or counted as a failure of its target.
-/
theorem conserved_iff (runId : String) (items : Items) (es : List MonitorEvent)
    (current : Instant) :
    (Runs.Along monitorStep (fun m e => Conserved (monitorStep m e)) (startMonitor runId items) es ↔
        Runs.Along monitorStep Kept (startMonitor runId items) es) ∧
      (Runs.Along monitorStep Kept (startMonitor runId items) es →
        Accounted (Runs.run monitorStep (startMonitor runId items) es) current) := by
  have hstart : SeenSound (startMonitor runId items) ∧ Conserved (startMonitor runId items) :=
    ⟨seenSound_startMonitor runId items, by simp [Conserved, startMonitor]⟩
  constructor
  · exact Runs.along_congr
      (fun (m : Monitor) e (h : SeenSound m ∧ Conserved m) hok => ⟨seenSound_step m e h.1, hok⟩)
      conserved_step_iff hstart es
  · intro hrun
    have hend := hrun.invariant
      (fun m e (h : SeenSound m ∧ Conserved m) hok =>
        ⟨seenSound_step m e h.1, (conserved_step_iff m e h).2 hok⟩) hstart
    exact accounted_of_conserved hend.2 current

/--
A range is resolved to two assets, of which one cannot be stored: it gets no item, and no failure
of the range is recorded.
-/
theorem asset_disappears :
    ¬ Accounted (Runs.run monitorStep (startMonitor "run-1" Table.empty)
      [.jobs [{ id := some "job-1", targets := ["10.0.0.1-10.0.0.9"] }],
        .target "10.0.0.1-10.0.0.9" (.ok [{ assetId := some "a" },
          { assetId := some "b", storeError := some "OperationalError: connection lost" }]) 1]) 2 := by
  unfold Accounted HasItem RecordedFailure
  decide +kernel

end Scan
end Services
end MpvmApp
