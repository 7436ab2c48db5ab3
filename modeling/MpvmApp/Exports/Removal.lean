import MpvmApp.Exports.AssetIds

/-!
# Removal of assets after an export

An export fetches a CSV text, stores and imports it, and then removes assets from
the remote system.  The remote system and the local storage are parameters that
answer every call as they like; an exception of a call ends the request.

Main definitions:

- `exportPdql`: one export request, with the calls of `remove_assets` it makes.
- `RemovalScope`: where the removed ids may come from.

Main results:

- Theorem `removed_ids_in_scope`: the ids removed after an export are in this scope,
  and without rows they are those of the request.
- Theorem `removal_without_rows`: an export without rows removes what the request
  lists.
-/

namespace MpvmApp
namespace Exports

open Sql

/-! ## Requests and answers -/

/-- A query of the asset grid. -/
structure PdqlQuery where
  pdql : String
  utcOffset : Option String
  selectedGroupIds : List String
  includeNestedGroups : Bool
  assetIds : List String
deriving DecidableEq

/-- An export request. -/
structure PdqlExportRequest where
  pdql : String
  utcOffset : Option String := some "+05:00"
  groupIds : List String := []
  assetIds : List String := []
  includeNestedGroups : Bool := true
  importResults : Bool := true
  deleteAssetsAfterExport : Bool := true

/-- The query of an export request. -/
def PdqlExportRequest.query (payload : PdqlExportRequest) : PdqlQuery where
  pdql := payload.pdql
  utcOffset := payload.utcOffset
  selectedGroupIds := payload.groupIds
  includeNestedGroups := payload.includeNestedGroups
  assetIds := payload.assetIds

/-- A row of `asset_removal_operations`. -/
structure RemovalRecord where
  importRunId : Option Nat
  operationId : Option String
  assetIds : List String
  status : String
  message : Option String
deriving DecidableEq

/-- The answers of the remote system and of the local storage. -/
structure Environment where
  /-- The CSV text of a query: `create_pdql_token`, then `fetch_csv`. -/
  fetchExport : PdqlQuery → Except Failure String
  /-- The same for the query that resolves the chunk of addresses with this number. -/
  fetchResolution : Nat → PdqlQuery → Except Failure String
  removeAssets : List String → Except Failure String
  waitForAssetRemoval : String → Except Failure (Bool × String)
  writeExport : String → Except Failure Unit
  importCsvText : String → Except Failure Nat
  recordAssetRemoval : RemovalRecord → Except Failure Unit

/-- The outcome of the removal. -/
structure RemovalResult where
  status : String
  operationId : Option String
  assetCount : Nat
  resolutionSource : Option String
  message : String
deriving DecidableEq

/-- What the caller gets, and the arguments of the calls of `remove_assets`. -/
structure RemovalRun where
  removals : List (List String) := []
  result : Except Failure (Option RemovalResult)

/-! ## Resolution of addresses -/

/-- The query that lists asset ids. -/
def assetIdPdql : String :=
  "select(Host.@Id as AssetId, @Host as HostName, Host.IpAddress as IpAddress)"

/-- The query that lists the ids of the assets with some of the addresses. -/
def buildAssetIdPdqlForIps (rt : Runtime) (ips : List String) : String :=
  let normalized := ips.filterMap fun ip => rt.ipAddress (strip ip)
  if normalized = [] then assetIdPdql
  else
    "filter(Host.@IpAddresses intersect [" ++ String.intercalate ", " normalized ++ "]) | " ++
      assetIdPdql

/-- The sublists of at most `size` items. -/
def chunks (items : List String) (size : Nat) : List (List String) :=
  (List.range ((items.length + size - 1) / size)).map fun i => (items.drop (i * size)).take size

/-- The query that resolves a chunk of addresses within the groups of the request. -/
def resolutionQuery (rt : Runtime) (payload : PdqlExportRequest) (chunk : List String) :
    PdqlQuery where
  pdql := buildAssetIdPdqlForIps rt chunk
  utcOffset := payload.utcOffset
  selectedGroupIds := payload.groupIds
  includeNestedGroups := payload.includeNestedGroups
  assetIds := []

/-- The ids found for one chunk of addresses. -/
def resolveChunk (rt : Runtime) (env : Environment) (payload : PdqlExportRequest)
    (chunk : List String × Nat) : Except Failure (List String) := do
  let csvText ← env.fetchResolution chunk.2 (resolutionQuery rt payload chunk.1)
  extractAssetIdsFromCsv rt csvText

/-- The distinct ids found for the addresses, a hundred at a time. -/
def resolveAssetIdsByIps (rt : Runtime) (env : Environment) (payload : PdqlExportRequest)
    (ips : List String) : Except Failure (List String) := do
  let ids ← (chunks ips 100).zipIdx.mapM (resolveChunk rt env payload)
  return fromKeys ids.flatten

/-! ## Removal -/

/-- The ids to remove and where they come from. -/
def resolvedAssetIds (rt : Runtime) (env : Environment) (payload : PdqlExportRequest)
    (csvText : String) : Except Failure (List String × String) := do
  let exported ← extractAssetIdsFromCsv rt csvText
  if exported ≠ [] then
    return (exported, "export_csv")
  else if payload.assetIds ≠ [] then
    return (payload.assetIds, "request_asset_ids")
  else
    let ips ← extractIpsFromCsv rt csvText
    let resolved ← resolveAssetIdsByIps rt env payload ips
    return (resolved, "ip_resolution_pdql")

/-- Nothing is removed when no id is found. -/
def skipRemoval (env : Environment) (importRunId : Option Nat) :
    Except Failure (Option RemovalResult) := do
  env.recordAssetRemoval
    { importRunId := importRunId
      operationId := none
      assetIds := []
      status := "skipped"
      message := some "No asset IDs found in CSV or via IP resolution." }
  return some
    { status := "skipped"
      operationId := none
      assetCount := 0
      resolutionSource := none
      message := "No asset IDs found." }

/-- The removal of the ids, up to its recorded outcome. -/
def performRemoval (env : Environment) (importRunId : Option Nat) (ids : List String)
    (source : String) : Except Failure (Option RemovalResult) := do
  let operationId ← env.removeAssets ids
  let (ok, message) ← env.waitForAssetRemoval operationId
  let status := if ok then "completed" else "failed"
  env.recordAssetRemoval
    { importRunId := importRunId
      operationId := some operationId
      assetIds := ids
      status := status
      message := some message }
  return some
    { status := status
      operationId := some operationId
      assetCount := ids.length
      resolutionSource := some source
      message := message }

/-- Remove the assets of an exported text. -/
def removeAssetsAfterExport (rt : Runtime) (env : Environment) (payload : PdqlExportRequest)
    (csvText : String) (importRunId : Option Nat) : RemovalRun :=
  match resolvedAssetIds rt env payload csvText with
  | .error e => { result := .error e }
  | .ok (ids, source) =>
      if ids = [] then { result := skipRemoval env importRunId }
      else { removals := [ids], result := performRemoval env importRunId ids source }

/-- Store the exported text and import it when the request says so. -/
def saveExport (env : Environment) (payload : PdqlExportRequest) (csvText : String) :
    Except Failure (Option Nat) := do
  env.writeExport csvText
  if payload.importResults then
    let runId ← env.importCsvText csvText
    return some runId
  else
    return none

/-- The answer to an exception of the remote system; other exceptions pass through. -/
def httpError : Failure → Failure
  | .remote message => .http message
  | e => e

/-- One export request. -/
def exportPdql (rt : Runtime) (env : Environment) (payload : PdqlExportRequest) : RemovalRun :=
  match env.fetchExport payload.query with
  | .error e => { result := .error (httpError e) }
  | .ok csvText =>
      match saveExport env payload csvText with
      | .error e => { result := .error e }
      | .ok importRunId =>
          if payload.deleteAssetsAfterExport then
            removeAssetsAfterExport rt env payload csvText importRunId
          else
            { result := .ok none }

/-! ## Scope of the removal -/

/-- A row of an answer to a query for addresses of exported rows names the id. -/
def ResolvedFrom (rt : Runtime) (env : Environment) (payload : PdqlExportRequest)
    (rows : List Row) (id : String) : Prop :=
  ∃ chunk number answer answered, chunk ≠ [] ∧
    (∀ ip ∈ chunk, ∃ row ∈ rows, ∃ column ∈ row, columnAddress rt column = some ip) ∧
    env.fetchResolution number (resolutionQuery rt payload chunk) = .ok answer ∧
    csvDictReader rt answer = .ok answered ∧ ∃ row ∈ answered, RowNames rt row id

/-- Where the ids of a removal come from, given the exported rows. -/
inductive RemovalScope (rt : Runtime) (env : Environment) (payload : PdqlExportRequest)
    (rows : List Row) : List String → Prop where
  /-- Each id is named by an exported row, and no row gives two. -/
  | exported {ids : List String} (named : ∀ id ∈ ids, ∃ row ∈ rows, RowNames rt row id)
      (bound : ids.length ≤ rows.length) : RemovalScope rt env payload rows ids
  /-- No id stands in the exported rows: the ids are those of the request. -/
  | requested (absent : ∀ row ∈ rows, NoUuid rt row) :
      RemovalScope rt env payload rows payload.assetIds
  /-- Neither the rows nor the request have an id: the addresses of the rows are resolved. -/
  | resolved {ids : List String} (absent : ∀ row ∈ rows, NoUuid rt row)
      (unrequested : payload.assetIds = [])
      (named : ∀ id ∈ ids, ResolvedFrom rt env payload rows id) :
      RemovalScope rt env payload rows ids

/-- The results of a list of calls are those of its members. -/
theorem mem_of_mapM_eq_ok {α β ε : Type} {f : α → Except ε β} {l : List α} {results : List β}
    (h : l.mapM f = .ok results) {y : β} (hy : y ∈ results) :
    ∃ x ∈ l, f x = .ok y := by
  induction l generalizing results with
  | nil =>
      cases h
      cases hy
  | cons a l ih =>
      rw [List.mapM_cons] at h
      cases ha : f a with
      | error e => rw [ha] at h; cases h
      | ok b =>
          cases hl : l.mapM f with
          | error e => rw [ha, hl] at h; cases h
          | ok bs =>
              rw [ha, hl] at h
              cases h
              rcases List.mem_cons.1 hy with rfl | hmem
              · exact ⟨a, by simp, ha⟩
              · obtain ⟨x, hx, hfx⟩ := ih hl hmem
                exact ⟨x, List.mem_cons_of_mem a hx, hfx⟩

theorem chunk_spec {items chunk : List String} (h : chunk ∈ chunks items 100) :
    chunk ≠ [] ∧ ∀ item ∈ chunk, item ∈ items := by
  obtain ⟨i, hi, rfl⟩ := List.mem_map.1 h
  rw [List.mem_range] at hi
  constructor
  · have hlength : ((items.drop (i * 100)).take 100).length ≠ 0 := by
      simp only [List.length_take, List.length_drop]
      omega
    exact fun hnil => hlength (by rw [hnil]; rfl)
  · intro item hitem
    exact List.mem_of_mem_drop (List.mem_of_mem_take hitem)

theorem extractIpsFromCsv_eq_ok {rt : Runtime} {csvText : String} {ips : List String}
    {rows : List Row} (hrows : csvDictReader rt csvText = .ok rows)
    (h : extractIpsFromCsv rt csvText = .ok ips) :
    ∀ ip ∈ ips, ∃ row ∈ rows, ∃ column ∈ row, columnAddress rt column = some ip := by
  unfold extractIpsFromCsv at h
  rw [hrows] at h
  cases h
  intro ip hip
  obtain ⟨row, hrow, hcolumn⟩ := List.mem_flatMap.1 (mem_fromKeys.1 hip)
  obtain ⟨column, hmem, haddress⟩ := List.mem_filterMap.1 hcolumn
  exact ⟨row, hrow, column, hmem, haddress⟩

/-- Each resolved id is named by a row of the answer to one of the queries. -/
theorem resolveAssetIdsByIps_eq_ok {rt : Runtime} {env : Environment}
    {payload : PdqlExportRequest} {rows : List Row} {ips ids : List String}
    (hips : ∀ ip ∈ ips, ∃ row ∈ rows, ∃ column ∈ row, columnAddress rt column = some ip)
    (h : resolveAssetIdsByIps rt env payload ips = .ok ids) :
    ∀ id ∈ ids, ResolvedFrom rt env payload rows id := by
  unfold resolveAssetIdsByIps at h
  cases hmap : (chunks ips 100).zipIdx.mapM (resolveChunk rt env payload) with
  | error e => rw [hmap] at h; cases h
  | ok found =>
      rw [hmap] at h
      cases h
      intro id hid
      obtain ⟨part, hpart, hmem⟩ := List.mem_flatten.1 (mem_fromKeys.1 hid)
      obtain ⟨⟨chunk, number⟩, hchunk, hresolve⟩ := mem_of_mapM_eq_ok hmap hpart
      obtain ⟨hne, hsub⟩ := chunk_spec (List.fst_mem_of_mem_zipIdx hchunk)
      unfold resolveChunk at hresolve
      cases hanswer : env.fetchResolution number (resolutionQuery rt payload chunk) with
      | error e => rw [hanswer] at hresolve; cases hresolve
      | ok answer =>
          rw [hanswer] at hresolve
          obtain ⟨answered, hrows, hnamed, _⟩ := extractAssetIdsFromCsv_eq_ok hresolve
          exact ⟨chunk, number, answer, answered, hne, fun ip hip => hips ip (hsub ip hip),
            hanswer, hrows, hnamed id hmem⟩

/-- The ids to remove are in the scope of the exported rows. -/
theorem resolvedAssetIds_eq_ok {rt : Runtime} {env : Environment} {payload : PdqlExportRequest}
    {csvText source : String} {ids : List String}
    (h : resolvedAssetIds rt env payload csvText = .ok (ids, source)) :
    ∃ rows, csvDictReader rt csvText = .ok rows ∧ RemovalScope rt env payload rows ids := by
  unfold resolvedAssetIds at h
  cases hexported : extractAssetIdsFromCsv rt csvText with
  | error e => rw [hexported] at h; cases h
  | ok exported =>
      rw [hexported] at h
      obtain ⟨rows, hrows, hnamed, hbound, habsent⟩ := extractAssetIdsFromCsv_eq_ok hexported
      refine ⟨rows, hrows, ?_⟩
      change (if exported ≠ [] then _ else _) = _ at h
      split at h
      · cases h
        exact .exported hnamed hbound
      · rename_i hempty
        have hnone := habsent (not_not.1 hempty)
        split at h
        · cases h
          exact .requested hnone
        · rename_i hunrequested
          cases hips : extractIpsFromCsv rt csvText with
          | error e => rw [hips] at h; cases h
          | ok ips =>
              rw [hips] at h
              change (resolveAssetIdsByIps rt env payload ips >>= _) = _ at h
              cases hresolved : resolveAssetIdsByIps rt env payload ips with
              | error e => rw [hresolved] at h; cases h
              | ok resolved =>
                  rw [hresolved] at h
                  cases h
                  exact .resolved hnone (not_not.1 hunrequested)
                    (resolveAssetIdsByIps_eq_ok (extractIpsFromCsv_eq_ok hrows hips) hresolved)

theorem RemovalScope.eq_assetIds {rt : Runtime} {env : Environment}
    {payload : PdqlExportRequest} {ids : List String}
    (h : RemovalScope rt env payload [] ids) :
    ids = payload.assetIds ∨ ids = [] := by
  cases h with
  | exported named bound => exact .inr (List.length_eq_zero_iff.1 (Nat.le_zero.1 bound))
  | requested absent => exact .inl rfl
  | resolved absent unrequested named =>
      right
      rw [List.eq_nil_iff_forall_not_mem]
      intro id hid
      obtain ⟨chunk, _, _, _, hne, hips, _⟩ := named id hid
      obtain ⟨ip, hip⟩ := List.exists_mem_of_ne_nil chunk hne
      obtain ⟨row, hrow, _⟩ := hips ip hip
      cases hrow

/-! ## An export without rows -/

/-- A library that finds no dialect and knows no character outside ASCII. -/
def asciiRuntime : Runtime where
  sniff := fun _ => none
  alnum := fun _ => false
  casefold := fun c => [c]
  printable := fun _ => false
  ipAddress := fun _ => none

/-- A remote system that exports the text and carries out every removal. -/
def answering (csvText : String) : Environment where
  fetchExport := fun _ => .ok csvText
  fetchResolution := fun _ _ => .ok csvText
  removeAssets := fun _ => .ok "operation"
  waitForAssetRemoval := fun _ => .ok (true, "done")
  writeExport := fun _ => .ok ()
  importCsvText := fun _ => .ok 1
  recordAssetRemoval := fun _ => .ok ()

/-- A request that lists one asset. -/
def listedRequest : PdqlExportRequest where
  pdql := assetIdPdql
  assetIds := ["00000000-0000-0000-0000-000000000001"]

theorem listed_removal :
    ["00000000-0000-0000-0000-000000000001"] ∈
      (exportPdql asciiRuntime (answering "AssetId\r\n") listedRequest).removals := by
  decide +kernel

/-! ## Removed ids -/

/--
The ids removed after an export: the request asks for the removal, the ids are
in the scope of the exported rows, and without rows they are those of the
request.
-/
theorem removed_ids_in_scope {rt : Runtime} {env : Environment} {payload : PdqlExportRequest}
    {ids : List String} (h : ids ∈ (exportPdql rt env payload).removals) :
    payload.deleteAssetsAfterExport = true ∧ ids ≠ [] ∧
      ∃ csvText rows, env.fetchExport payload.query = .ok csvText ∧
        csvDictReader rt csvText = .ok rows ∧ RemovalScope rt env payload rows ids ∧
        (rows = [] → ids = payload.assetIds) := by
  unfold exportPdql at h
  cases hfetch : env.fetchExport payload.query with
  | error e => rw [hfetch] at h; cases h
  | ok csvText =>
      rw [hfetch] at h
      dsimp only at h
      cases hsave : saveExport env payload csvText with
      | error e => rw [hsave] at h; cases h
      | ok importRunId =>
          rw [hsave] at h
          dsimp only at h
          split at h
          · rename_i hdelete
            unfold removeAssetsAfterExport at h
            cases hids : resolvedAssetIds rt env payload csvText with
            | error e => rw [hids] at h; cases h
            | ok found =>
                obtain ⟨found, source⟩ := found
                rw [hids] at h
                dsimp only at h
                split at h
                · cases h
                · rename_i hne
                  obtain rfl := List.mem_singleton.1 h
                  obtain ⟨rows, hrows, hscope⟩ := resolvedAssetIds_eq_ok hids
                  refine ⟨hdelete, hne, csvText, rows, rfl, hrows, hscope, ?_⟩
                  rintro rfl
                  exact hscope.eq_assetIds.resolve_right hne
          · cases h

/-- The removal of a listed asset after an export without rows is in scope. -/
theorem listed_removal_in_scope :
    ∃ csvText rows, (answering "AssetId\r\n").fetchExport listedRequest.query = .ok csvText ∧
      csvDictReader asciiRuntime csvText = .ok rows ∧
      RemovalScope asciiRuntime (answering "AssetId\r\n") listedRequest rows
        listedRequest.assetIds := by
  obtain ⟨_, _, csvText, rows, hfetch, hrows, hscope, _⟩ := removed_ids_in_scope listed_removal
  exact ⟨csvText, rows, hfetch, hrows, hscope⟩

/-- An export without rows removes the asset that the request lists. -/
theorem removal_without_rows :
    ¬ ∀ ids ∈ (exportPdql asciiRuntime (answering "AssetId\r\n") listedRequest).removals,
      ∀ id ∈ ids, ∃ csvText rows,
        (answering "AssetId\r\n").fetchExport listedRequest.query = .ok csvText ∧
          csvDictReader asciiRuntime csvText = .ok rows ∧
          ∃ row ∈ rows, RowNames asciiRuntime row id := by
  intro h
  obtain ⟨csvText, rows, hfetch, hrows, row, hrow, _⟩ := h _ listed_removal _ List.mem_cons_self
  have hnone : csvDictReader asciiRuntime "AssetId\r\n" = .ok [] := rfl
  cases hfetch
  rw [hnone] at hrows
  cases hrows
  cases hrow

end Exports
end MpvmApp
