import Mathlib.Data.List.Perm.Basic
import Mathlib.Data.List.Sort
import MpvmApp.Workflow.Rows

/-!
# The reconciliation of a workflow

After its child operations a workflow reconciles each of its assets in a worker
pool and counts the assets whose call raises.  The remediation service absorbs
every exception of a reconciliation, so that no call of the pool ever raises.

Main results:

- Theorem `reconcileAssets_errors`: for every order of completion the pool records
  exactly the assets whose calls raise.
- Theorem `reconciliation_contract_iff`: the workflow meets its contract exactly
  when no reconciliation raises, or, where reconciliation is switched off, when
  it ends with errors or has no asset.
-/

namespace MpvmApp
namespace Workflow

open Remediation

/-- A reconciliation of one asset: the counts, or the text of the exception. -/
abbrev Reconciler := String → Except String ReconcileCounts

/-- `RemediationService.reconcile_asset`: every exception becomes zero counts. -/
def serviceReconcile (repository : Reconciler) : Reconciler := fun assetId =>
  match repository assetId with
  | .ok counts => .ok counts
  | .error _ => .ok {}

/-! ## The worker pool -/

/--
The order in which the pool finishes the assets: `pick` chooses which of the
pending calls completes next, and its worker takes the next asset of the queue.
-/
def completionOrder (pick : Nat → Nat) : Nat → List String → List String → List String
  | 0, _, _ => []
  | _, [], _ => []
  | fuel + 1, pending, queue =>
      let index := pick fuel % pending.length
      match pending[index]? with
      | none => []
      | some assetId =>
          let rest := pending.eraseIdx index
          match queue with
          | [] => assetId :: completionOrder pick fuel rest []
          | next :: queue => assetId :: completionOrder pick fuel (rest ++ [next]) queue

/-- `self.reconciliation_workers`. -/
def reconciliationWorkers (configured : Nat) : Nat :=
  min 4 (max 1 configured)

/-- The assets in the order in which the pool finishes them. -/
def poolOrder (pick : Nat → Nat) (configured : Nat) (assets : List String) : List String :=
  let count := min (reconciliationWorkers configured) assets.length
  completionOrder pick assets.length (assets.take count) (assets.drop count)

/-- The sum of two counts. -/
def addCounts (a b : ReconcileCounts) : ReconcileCounts where
  created := a.created + b.created
  reopened := a.reopened + b.reopened
  resolved := a.resolved + b.resolved

/-- The counts of the calls that return. -/
def totalCounts (call : Reconciler) (assets : List String) : ReconcileCounts :=
  assets.foldl (fun total assetId =>
    match call assetId with
    | .ok counts => addCounts total counts
    | .error _ => total) {}

/-- The error record of an asset whose call raises; the text is cut at 1000 characters. -/
def assetError? (call : Reconciler) (assetId : String) : Option AssetError :=
  match call assetId with
  | .ok _ => none
  | .error message =>
      some { assetId := assetId, message := String.ofList (message.toList.take 1000) }

/-- What the pool returns: the total counts and the errors sorted by asset. -/
def reconcileAssets (call : Reconciler) (pick : Nat → Nat) (configured : Nat)
    (assets : List String) : ReconcileCounts × List AssetError :=
  let order := poolOrder pick configured assets
  (totalCounts call order,
    (order.filterMap (assetError? call)).insertionSort fun a b => a.assetId ≤ b.assetId)

/-- The pool finishes each of the given assets once. -/
theorem completionOrder_perm (pick : Nat → Nat) (fuel : Nat) (pending queue : List String)
    (hfuel : pending.length + queue.length ≤ fuel) (hqueue : pending = [] → queue = []) :
    (completionOrder pick fuel pending queue).Perm (pending ++ queue) := by
  induction fuel generalizing pending queue with
  | zero =>
      have hp : pending = [] := List.eq_nil_of_length_eq_zero (by omega)
      have hq : queue = [] := List.eq_nil_of_length_eq_zero (by omega)
      simp [hp, hq, completionOrder]
  | succ fuel ih =>
      by_cases hp : pending = []
      · simp [hp, hqueue hp, completionOrder]
      · have hlength : 0 < pending.length := List.length_pos_of_ne_nil hp
        have hindex : pick fuel % pending.length < pending.length := Nat.mod_lt _ hlength
        have hsplit : (pending[pick fuel % pending.length] ::
            pending.eraseIdx (pick fuel % pending.length)).Perm pending :=
          (List.getElem_cons_eraseIdx_perm hindex)
        unfold completionOrder
        simp only [List.getElem?_eq_getElem hindex]
        cases queue with
        | nil =>
            have hrest := ih (pending.eraseIdx (pick fuel % pending.length)) []
              (by simp [List.length_eraseIdx, hindex] at *; omega) (fun _ => rfl)
            simpa using (hrest.cons _).trans (by simpa using hsplit)
        | cons next queue =>
            have hrest := ih (pending.eraseIdx (pick fuel % pending.length) ++ [next]) queue
              (by simp [List.length_eraseIdx, hindex] at *; omega) (by simp)
            refine (hrest.cons _).trans ?_
            simpa using hsplit.append_right (next :: queue)

theorem poolOrder_perm (pick : Nat → Nat) (configured : Nat) (assets : List String) :
    (poolOrder pick configured assets).Perm assets := by
  have hcount : min (reconciliationWorkers configured) assets.length = 0 → assets = [] := by
    unfold reconciliationWorkers
    intro hzero
    exact List.eq_nil_of_length_eq_zero (by omega)
  have horder := completionOrder_perm pick assets.length
    (assets.take (min (reconciliationWorkers configured) assets.length))
    (assets.drop (min (reconciliationWorkers configured) assets.length))
    (by simp)
    (fun htake => by
      rcases List.take_eq_nil_iff.1 htake with hzero | hnil
      · simp [hcount hzero]
      · simp [hnil])
  rw [List.take_append_drop] at horder
  exact horder

theorem filterMap_assetError?_map (call : Reconciler) (assets : List String) :
    (assets.filterMap (assetError? call)).map AssetError.assetId =
      assets.filter fun assetId => (call assetId).toOption.isNone := by
  induction assets with
  | nil => rfl
  | cons assetId assets ih =>
      cases hcall : call assetId with
      | ok counts => simp [assetError?, hcall, ih, Except.toOption]
      | error message => simp [assetError?, hcall, ih, Except.toOption]

/-- For every order of completion the pool records exactly the assets whose calls raise. -/
theorem reconcileAssets_errors (call : Reconciler) (pick : Nat → Nat) (configured : Nat)
    (assets : List String) :
    ((reconcileAssets call pick configured assets).2.map AssetError.assetId).Perm
      (assets.filter fun assetId => (call assetId).toOption.isNone) := by
  have hsort := List.perm_insertionSort (fun a b : AssetError => a.assetId ≤ b.assetId)
    ((poolOrder pick configured assets).filterMap (assetError? call))
  have hmap := hsort.map AssetError.assetId
  rw [filterMap_assetError?_map] at hmap
  exact hmap.trans ((poolOrder_perm pick configured assets).filter _)

theorem reconcileAssets_service (repository : Reconciler) (pick : Nat → Nat) (configured : Nat)
    (assets : List String) :
    (reconcileAssets (serviceReconcile repository) pick configured assets).2 = [] := by
  have hnone : (assets.filter fun assetId =>
      (serviceReconcile repository assetId).toOption.isNone) = [] := by
    refine List.filter_eq_nil_iff.2 fun assetId _ => ?_
    unfold serviceReconcile
    split <;> simp [Except.toOption]
  have herrors := reconcileAssets_errors (serviceReconcile repository) pick configured assets
  rw [hnone] at herrors
  exact List.map_eq_nil_iff.1 herrors.eq_nil

/-! ## The end of a workflow -/

/-- What the final phase of a workflow is called with. -/
structure FinalPhase where
  row : WorkflowRow
  operations : List ChildOperation
  /-- Every asset with a card, for a request that names none. -/
  catalog : List String
  configuredWorkers : Nat
  pick : Nat → Nat

/-- The assets that the workflow scanned. -/
def FinalPhase.assets (phase : FinalPhase) : List String :=
  if phase.row.request.assets.isEmpty then phase.catalog else phase.row.request.assets

/-- The counts and errors of the reconciliation of a workflow. -/
def reconcilePhase (call : Reconciler) (phase : FinalPhase) : ReconcileCounts × List AssetError :=
  if !phase.row.request.shouldReconcile then
    ({}, [])
  else if !phase.row.request.assets.isEmpty then
    reconcileAssets call phase.pick phase.configuredWorkers phase.row.request.assets
  else
    (totalCounts call phase.catalog, [])

/-- The failed assets that the campaign verification gets. -/
def failedAssets (phase : FinalPhase) (errors : List AssetError) : List String :=
  (((failedOperations phase.operations).map fun operation => operation.subjectId.getD "") ++
      phase.row.result.startErrors.map AssetError.assetId ++ errors.map AssetError.assetId).filter
    fun assetId => decide (assetId ≠ "")

/-- The status with which the workflow ends. -/
def finalStatus (phase : FinalPhase) (errors : List AssetError) : RunStatus :=
  if (failedOperations phase.operations).isEmpty ∧ phase.row.result.startErrors.isEmpty ∧
      errors.isEmpty then .completed
  else .completedWithErrors

/-- `_reconcile`: the row of the workflow after its final phase. -/
def finishWorkflow (call : Reconciler) (phase : FinalPhase) : WorkflowRow :=
  let outcome := reconcilePhase call phase
  let failed := failedOperations phase.operations
  let stepped :=
    (phase.row.updateStep .postprocess (if failed.isEmpty then .completed else .failed)).updateStep
      .reconcile
      (if !phase.row.request.shouldReconcile then .skipped
        else if outcome.2.isEmpty then .completed
        else .failed)
  { stepped with
    status := finalStatus phase outcome.2
    result :=
      { operationIds := phase.operations.map ChildOperation.operationId
        reconciliation := some outcome.1
        failedOperationIds := failed.map ChildOperation.operationId
        startErrors := phase.row.result.startErrors
        reconciliationErrors := outcome.2 } }

/-- The reconciliation of an asset succeeds. -/
def Succeeds (repository : Reconciler) (assetId : String) : Prop :=
  ∃ counts, repository assetId = .ok counts

/--
What a finished workflow promises about the reconciliations of its assets, given
the outcome `repository` of each: it is completed only after all of them succeeded,
and when some were tried and raised, it records these assets and can be resumed
at the reconciliation.
-/
structure ReconciliationContract (repository : Reconciler) (phase : FinalPhase)
    (finished : WorkflowRow) : Prop where
  completed : finished.status = .completed →
    ∀ assetId ∈ phase.assets,
      phase.row.request.shouldReconcile = true ∧ Succeeds repository assetId
  recorded : phase.row.request.shouldReconcile = true →
    (∃ assetId ∈ phase.assets, ¬Succeeds repository assetId) →
    (∀ assetId ∈ phase.assets, ¬Succeeds repository assetId →
      assetId ∈ finished.result.reconciliationErrors.map AssetError.assetId) ∧
    finished.resumable = true

theorem finishWorkflow_service_errors (repository : Reconciler) (phase : FinalPhase) :
    (finishWorkflow (serviceReconcile repository) phase).result.reconciliationErrors = [] := by
  simp only [finishWorkflow, reconcilePhase]
  split
  · rfl
  · split
    · exact reconcileAssets_service repository _ _ _
    · rfl

theorem finishWorkflow_service_status (repository : Reconciler) (phase : FinalPhase) :
    (finishWorkflow (serviceReconcile repository) phase).status = .completed ↔
      failedOperations phase.operations = [] ∧ phase.row.result.startErrors = [] := by
  have herrors := finishWorkflow_service_errors repository phase
  change (reconcilePhase (serviceReconcile repository) phase).2 = [] at herrors
  simp [finishWorkflow, finalStatus, herrors]

/--
A workflow that calls the remediation service meets its contract exactly when no
reconciliation raises, or, where reconciliation is switched off, when it has no
asset or ends with errors anyway.
-/
theorem reconciliation_contract_iff (repository : Reconciler) (phase : FinalPhase) :
    ReconciliationContract repository phase
        (finishWorkflow (serviceReconcile repository) phase) ↔
      (phase.row.request.shouldReconcile = true →
        ∀ assetId ∈ phase.assets, Succeeds repository assetId) ∧
      (phase.row.request.shouldReconcile = false →
        phase.assets = [] ∨ failedOperations phase.operations ≠ [] ∨
          phase.row.result.startErrors ≠ []) := by
  constructor
  · intro h
    refine ⟨fun hon => ?_, fun hoff => ?_⟩
    · -- A raised reconciliation would have to be recorded, and none ever is.
      by_contra hraise
      have hsome : ∃ assetId ∈ phase.assets, ¬Succeeds repository assetId := by
        simpa only [not_forall, exists_prop] using hraise
      obtain ⟨assetId, hmem, hfail⟩ := hsome
      have hrecorded := (h.recorded hon ⟨assetId, hmem, hfail⟩).1 assetId hmem hfail
      rw [finishWorkflow_service_errors] at hrecorded
      cases hrecorded
    · by_contra hnone
      simp only [not_or, not_not] at hnone
      obtain ⟨hassets, hfailed, hstart⟩ := hnone
      obtain ⟨assetId, hmem⟩ := List.exists_mem_of_ne_nil _ hassets
      have hcompleted := (finishWorkflow_service_status repository phase).2 ⟨hfailed, hstart⟩
      have hon := (h.completed hcompleted assetId hmem).1
      rw [hoff] at hon
      cases hon
  · rintro ⟨hon, hoff⟩
    refine ⟨fun hcompleted assetId hmem => ?_, fun hshould hsome => ?_⟩
    · obtain ⟨hfailed, hstart⟩ := (finishWorkflow_service_status repository phase).1 hcompleted
      cases hshould : phase.row.request.shouldReconcile with
      | true => exact ⟨rfl, hon hshould assetId hmem⟩
      | false =>
          rcases hoff hshould with hnil | hfail | herr
          · rw [hnil] at hmem
            cases hmem
          · exact absurd hfailed hfail
          · exact absurd hstart herr
    · obtain ⟨assetId, hmem, hfail⟩ := hsome
      exact absurd (hon hshould assetId hmem) hfail

/-- A verification of one asset whose scan completed. -/
def scannedHost : FinalPhase where
  row := newWorkflow "w1" .verification { assetIds := ["host"] } none
  operations := [{ operationId := "op1", status := "completed", subjectId := some "host" }]
  catalog := ["host"]
  configuredWorkers := 3
  pick := fun _ => 0

/-- The workflow is completed although the only reconciliation raises. -/
theorem reconciliation_contract_not_met :
    ¬∀ (repository : Reconciler) (phase : FinalPhase),
      ReconciliationContract repository phase
        (finishWorkflow (serviceReconcile repository) phase) := by
  intro h
  have hhost := h (fun _ => .error "connection lost") scannedHost
  have hcompleted := (finishWorkflow_service_status (fun _ => .error "connection lost")
    scannedHost).2 ⟨by decide, by decide⟩
  obtain ⟨_, counts, hcounts⟩ := hhost.completed hcompleted "host" (by decide)
  cases hcounts

end Workflow
end MpvmApp
