import Mathlib
import MpvmApp.Lib.Runs
import MpvmApp.Operations.System

/-!
# The synchronisation of the registry

The synchronisation copies a source row when its time stamp is later than the
stamp of the registry row.  Stamps have a resolution of one second, and an empty
error never overwrites a stored one, so an update that the registry row does not
show already has to come in a later second and must not clear an error.

Main results:

- Theorem `step_settles_iff`: after a step every source row settles exactly when the
  step is visible to the synchronisation.
- Theorem `sync_agrees_iff`: a synchronisation placed anywhere in a run makes the
  registry agree with the sources exactly when every step is visible.
-/

namespace MpvmApp
namespace Operations

open Remediation Replica Runs

/-- A synchronisation of the source row makes its registry row agree. -/
abbrev SettlesIn (operations : OperationTable) (c : OperationRow) : Prop :=
  Settles mergeOperation ShowsSame (operations.find? c.key) c

/-- Every source row has a registry row with its status, stage and error. -/
def InSync (s : State) : Prop :=
  Agrees ShowsSame s.sources s.operations

/-- Every source row settles, and every registry row has a source. -/
abbrev Inv (s : State) : Prop :=
  Tracked mergeOperation ShowsSame s.sources s.operations

/-! ## Visible updates -/

/--
The registry row shows the new source row already, or the source row is stamped
later and does not clear an error that the registry row holds.
-/
def visible (operations : OperationTable) (c : OperationRow) : Bool :=
  (operations.find? c.key).all fun r =>
    decide (ShowsSame r.value c.value) ||
      (decide (r.stamp < c.stamp) &&
        (decide (c.value.error ≠ .empty) || decide (r.value.error.reported = .empty)))

theorem visible_iff {operations : OperationTable} {c : OperationRow} :
    visible operations c = true ↔ SettlesIn operations c := by
  unfold visible SettlesIn
  cases operations.find? c.key with
  | none => simpa using settles_none showsSame_refl c
  | some r =>
      rw [settles_some_iff]
      simp only [Option.all_some, Bool.or_eq_true, Bool.and_eq_true, decide_eq_true_eq]
      by_cases hlater : r.stamp < c.stamp
      · rw [if_pos hlater, showsSame_merge_iff]
        constructor
        · rintro (hsame | ⟨_, hkeeps | hclean⟩) hempty
          · rw [hsame.2.2, hempty]
            rfl
          · exact absurd hempty hkeeps
          · exact hclean
        · intro h
          by_cases hempty : c.value.error = .empty
          · exact Or.inr ⟨hlater, Or.inr (h hempty)⟩
          · exact Or.inr ⟨hlater, Or.inl hempty⟩
      · simp [hlater]

/-- Every row that a statement takes is visible after it. -/
def visibleRows {α κ : Type} {pk : α → κ} (operations : OperationTable) (t : Table α pk pk)
    (operation : α → OperationRow) (takes : α → Bool) (set : α → α) : Bool :=
  t.rows.all fun r => !takes r || visible operations (operation (set r))

/-- The updates of source rows that the step makes are visible to the synchronisation. -/
def updatesVisibly (s : State) : Event → Bool
  | .buildJob write now =>
      visibleRows s.operations s.buildJobs BuildJob.operationRow write.takes (write.set now)
  | .detailJob write now =>
      visibleRows s.operations s.detailJobs DetailJob.operationRow write.takes (write.set now)
  | .postprocessRun write now =>
      visibleRows s.operations s.runs PostprocessRun.operationRow write.takes (write.set now)
  | .importRun write now =>
      visibleRows s.operations s.imports ImportRun.operationRow write.takes (write.set now)
  | _ => true

theorem updateRows_settles_iff {α κ : Type} {pk : α → κ} {operations : OperationTable}
    {t : Table α pk pk} {operation : α → OperationRow} {takes : α → Bool} {set : α → α}
    (hkey : ∀ r, pk (set r) = pk r)
    (h : ∀ c ∈ t.rows.map operation, SettlesIn operations c) :
    (∀ c ∈ (updateRows t takes set hkey).rows.map operation, SettlesIn operations c) ↔
      visibleRows operations t operation takes set = true := by
  simp only [updateRows, Table.mapRows, List.map_map, List.forall_mem_map, Function.comp_apply,
    visibleRows, List.all_eq_true, Bool.or_eq_true, Bool.not_eq_true', visible_iff] at h ⊢
  refine forall₂_congr fun r hr => ?_
  by_cases htakes : takes r = true
  · simp [htakes]
  · simpa [htakes] using h r hr

/-! ## The sources of a state -/

theorem nodup_map_key {α κ : Type} {pk : α → κ} (t : Table α pk pk) {f : κ → OperationKey}
    (hf : Function.Injective f) (operation : α → OperationRow)
    (hkey : ∀ r, (operation r).key = f (pk r)) :
    ((t.rows.map operation).map Copy.key).Nodup := by
  have hkeys : (t.rows.map operation).map Copy.key = (t.rows.map pk).map f := by
    simp [List.map_map, Function.comp_def, hkey]
  rw [hkeys]
  exact t.pkNodup.map hf

theorem sources_nodup (s : State) :
    (s.sources.map Copy.key).Nodup := by
  have hrepr : Function.Injective Nat.repr := fun _ _ => Nat.repr_injective
  unfold State.sources
  simp only [List.map_append]
  have hbuild := nodup_map_key s.buildJobs (f := fun id => (.assetCardBuild, id))
    (fun a b h => (Prod.mk.inj h).2) BuildJob.operationRow fun _ => rfl
  have hdetail := nodup_map_key s.detailJobs (f := fun id => (.passportDetailSync, id))
    (fun a b h => (Prod.mk.inj h).2) DetailJob.operationRow fun _ => rfl
  have hrun := nodup_map_key s.runs (f := fun id => (.scanPostprocess, id))
    (fun a b h => (Prod.mk.inj h).2) PostprocessRun.operationRow fun _ => rfl
  have himport := nodup_map_key s.imports (f := fun id => (.pdqlExport, Nat.repr id))
    (fun a b h => hrepr (Prod.mk.inj h).2) ImportRun.operationRow fun _ => rfl
  have hremoval := nodup_map_key s.removals (f := fun id => (.assetRemoval, Nat.repr id))
    (fun a b h => hrepr (Prod.mk.inj h).2) RemovalRun.operationRow fun _ => rfl
  refine List.nodup_append.2 ⟨hbuild, List.nodup_append.2 ⟨hdetail, List.nodup_append.2
    ⟨hrun, List.nodup_append.2 ⟨himport, hremoval, ?_⟩, ?_⟩, ?_⟩, ?_⟩
  all_goals
    -- The keys of different tables have different kinds.
    simp only [List.map_map, List.mem_append, List.mem_map, Function.comp_apply]
    rintro a ⟨r, _, rfl⟩ b hb hab
    subst hab
    simp [BuildJob.operationRow, DetailJob.operationRow, PostprocessRun.operationRow,
      ImportRun.operationRow, RemovalRun.operationRow, Operations.operationRow] at hb

theorem inSync_syncOperationsFromSources_iff (s : State) :
    InSync (syncOperationsFromSources s) ↔ ∀ c ∈ s.sources, SettlesIn s.operations c :=
  agrees_refreshAll_iff (sources_nodup s)

/-! ## New source rows -/

section Creation

variable {s s' : State} {c : OperationRow}

theorem sources_joined {l₁ l₂ : List OperationRow} (hold : s.sources = l₁ ++ l₂)
    (hnew : s'.sources = l₁ ++ c :: l₂) :
    (∀ x ∈ s.sources, x.key ≠ c.key) ∧ ∀ x, x ∈ s'.sources ↔ x ∈ s.sources ∨ x = c := by
  have hperm : s'.sources.Perm (c :: s.sources) := by
    rw [hold, hnew]
    exact List.perm_middle
  have hnodup := (hperm.map Copy.key).nodup_iff.1 (sources_nodup s')
  rw [List.map_cons, List.nodup_cons] at hnodup
  refine ⟨fun x hx hkey => hnodup.1 (hkey ▸ List.mem_map_of_mem hx), fun x => ?_⟩
  rw [hperm.mem_iff, List.mem_cons, or_comm]

theorem Inv.created (h : Inv s) (l₁ l₂ : List OperationRow) (c r : OperationRow)
    (hold : s.sources = l₁ ++ l₂) (hnew : s'.sources = l₁ ++ c :: l₂)
    (hkey : r.key = c.key)
    (hstamp : r.stamp = c.stamp) (hagree : ShowsSame r.value c.value)
    (hoperations : s'.operations = registerOperation s.operations r) :
    Inv s' := by
  unfold Inv
  rw [hoperations]
  exact h.create hkey hstamp hagree (sources_joined hold hnew).1 (sources_joined hold hnew).2

theorem Inv.inserted (h : Inv s) (l₁ l₂ : List OperationRow) (c : OperationRow)
    (hold : s.sources = l₁ ++ l₂) (hnew : s'.sources = l₁ ++ c :: l₂)
    (hoperations : s'.operations = s.operations) :
    Inv s' := by
  unfold Inv
  rw [hoperations]
  exact h.add showsSame_refl (sources_joined hold hnew).1 (sources_joined hold hnew).2

theorem createBuildJob_inv {job : BuildJob} (h : Inv s) (hcreate : createBuildJob s job = some s') :
    Inv s' := by
  obtain ⟨buildJobs, hinsert, rfl⟩ := Option.map_eq_some_iff.1 hcreate
  exact h.created (s.buildJobs.rows.map BuildJob.operationRow)
    (s.detailJobs.rows.map DetailJob.operationRow ++
      (s.runs.rows.map PostprocessRun.operationRow ++
        (s.imports.rows.map ImportRun.operationRow ++
          s.removals.rows.map RemovalRun.operationRow)))
    job.operationRow job.operationRow rfl (by simp [State.sources, Table.rows_of_insert? hinsert])
    rfl rfl (showsSame_refl _) rfl

theorem foldlM_createBuildJob_inv {jobs : List BuildJob} (h : Inv s)
    (hcreate : jobs.foldlM createBuildJob s = some s') :
    Inv s' := by
  induction jobs generalizing s with
  | nil =>
      cases hcreate
      exact h
  | cons job jobs ih =>
      rw [List.foldlM_cons] at hcreate
      obtain ⟨mid, hmid, hrest⟩ := Option.bind_eq_some_iff.1 hcreate
      exact ih (createBuildJob_inv h hmid) hrest

theorem createBuildJobs_inv {items : List BuildJobRequest} {now : Instant} (h : Inv s)
    (hcreate : createBuildJobs items now s = some s') :
    Inv s' := by
  unfold createBuildJobs at hcreate
  dsimp only at hcreate
  split at hcreate
  · exact foldlM_createBuildJob_inv h hcreate
  · cases hcreate

theorem createDetailJob_inv {jobId : String} {requested eligible skipped : Nat} {request : Json}
    {now : Instant} (h : Inv s)
    (hcreate : createDetailJob (newDetailJob jobId requested eligible skipped now) request s =
      some s') :
    Inv s' := by
  obtain ⟨detailJobs, hinsert, rfl⟩ := Option.map_eq_some_iff.1 hcreate
  -- A new job has no errors, which its registration writes as the empty document.
  exact h.created
    (s.buildJobs.rows.map BuildJob.operationRow ++ s.detailJobs.rows.map DetailJob.operationRow)
    (s.runs.rows.map PostprocessRun.operationRow ++
      (s.imports.rows.map ImportRun.operationRow ++ s.removals.rows.map RemovalRun.operationRow))
    (newDetailJob jobId requested eligible skipped now).operationRow
    ((newDetailJob jobId requested eligible skipped now).created request)
    (by simp [State.sources]) (by simp [State.sources, Table.rows_of_insert? hinsert])
    rfl rfl ⟨rfl, rfl, rfl⟩ rfl

theorem createPostprocessRun_inv {runId mpTaskId : String} {options : Json} {now : Instant}
    (h : Inv s) (hcreate : createPostprocessRun runId mpTaskId options now s = some s') :
    Inv s' := by
  obtain ⟨runs, hinsert, rfl⟩ := Option.map_eq_some_iff.1 hcreate
  exact h.created
    (s.buildJobs.rows.map BuildJob.operationRow ++
      (s.detailJobs.rows.map DetailJob.operationRow ++
        s.runs.rows.map PostprocessRun.operationRow))
    (s.imports.rows.map ImportRun.operationRow ++ s.removals.rows.map RemovalRun.operationRow)
    (newPostprocessRun runId mpTaskId options now).operationRow
    (newPostprocessRun runId mpTaskId options now).created
    (by simp [State.sources]) (by simp [State.sources, Table.rows_of_insert? hinsert])
    rfl rfl ⟨rfl, rfl, rfl⟩ rfl

theorem createImportRun_inv {run : ImportRun} (h : Inv s)
    (hcreate : createImportRun run s = some s') :
    Inv s' := by
  obtain ⟨imports, hinsert, rfl⟩ := Option.map_eq_some_iff.1 hcreate
  exact h.inserted
    (s.buildJobs.rows.map BuildJob.operationRow ++
      (s.detailJobs.rows.map DetailJob.operationRow ++
        (s.runs.rows.map PostprocessRun.operationRow ++
          s.imports.rows.map ImportRun.operationRow)))
    (s.removals.rows.map RemovalRun.operationRow) run.operationRow
    (by simp [State.sources]) (by simp [State.sources, Table.rows_of_insert? hinsert]) rfl

theorem recordAssetRemoval_inv {run : RemovalRun} (h : Inv s)
    (hcreate : recordAssetRemoval run s = some s') :
    Inv s' := by
  obtain ⟨removals, hinsert, rfl⟩ := Option.map_eq_some_iff.1 hcreate
  exact h.inserted s.sources [] run.operationRow (by simp)
    (by simp [State.sources, Table.rows_of_insert? hinsert]) rfl

theorem Inv.getD {created : Option State} (h : Inv s)
    (hcreated : ∀ s', created = some s' → Inv s') :
    Inv (created.getD s) := by
  cases created with
  | none => exact h
  | some s' => exact hcreated s' rfl

end Creation

/-! ## One step -/

/-- Hiding finished rows keeps the status, stage, error and stamp of every row. -/
theorem clearHistory_inv {s : State} (h : Inv s) (actor : Option String) (now : Instant) :
    Inv { s with operations := clearHistory actor now s.operations } := by
  have hfind : ∀ k, (clearHistory actor now s.operations).find? k =
      (s.operations.find? k).map fun row =>
        if row.value.clearedAt = none ∧ row.value.status ∈ clearableOperationStatuses then
          { row with value := { row.value with
              clearedAt := some (nowUtc now), clearedBy := actor } }
        else row :=
    fun k => Table.find?_mapRows _ _ _ _ k
  refine ⟨fun c hc => ?_, fun k r hr => ?_⟩
  · have hsettles := h.settles c hc
    rw [hfind]
    cases hheld : s.operations.find? c.key with
    | none => exact settles_none showsSame_refl c
    | some r =>
        rw [hheld, settles_some_iff] at hsettles
        rw [Option.map_some, settles_some_iff]
        split <;> exact hsettles
  · rw [hfind] at hr
    obtain ⟨row, hrow, _⟩ := Option.map_eq_some_iff.1 hr
    exact h.covered k row hrow

theorem updateRows_keys {α κ : Type} {pk : α → κ} {t : Table α pk pk} {takes : α → Bool}
    {set : α → α} {operation : α → OperationRow} (hkey : ∀ r, pk (set r) = pk r)
    (hop : ∀ r, (operation (set r)).key = (operation r).key) :
    ((updateRows t takes set hkey).rows.map operation).map Copy.key =
      (t.rows.map operation).map Copy.key := by
  simp only [updateRows, Table.mapRows, List.map_map]
  refine List.map_congr_left fun r _ => ?_
  by_cases htakes : takes r = true
  · simp [htakes, hop]
  · simp [htakes]

theorem Inv.of_settles {s s' : State} (h : Inv s)
    (hkeys : s'.sources.map Copy.key = s.sources.map Copy.key)
    (hoperations : s'.operations = s.operations)
    (hsettles : ∀ c ∈ s'.sources, SettlesIn s'.operations c) :
    Inv s' := by
  refine ⟨hsettles, fun k r hr => ?_⟩
  rw [hoperations] at hr
  obtain ⟨c, hc, hkey⟩ := h.covered k r hr
  have hmem : c.key ∈ s'.sources.map Copy.key := hkeys ▸ List.mem_map_of_mem hc
  obtain ⟨c', hc', hkey'⟩ := List.mem_map.1 hmem
  exact ⟨c', hc', hkey'.trans hkey⟩

/-- After a step every source row settles exactly when the step updates visibly. -/
theorem step_settles_iff {s : State} (ev : Event) (h : Inv s) :
    (∀ c ∈ (step s ev).sources, SettlesIn (step s ev).operations c) ↔
      updatesVisibly s ev = true := by
  have hold := h.settles
  unfold State.sources at hold
  simp only [List.forall_mem_append] at hold
  obtain ⟨hbuild, hdetail, hrun, himport, hremoval⟩ := hold
  cases ev with
  | buildJob write now =>
      simp only [step, State.sources, List.forall_mem_append, updatesVisibly,
        updateRows_settles_iff _ hbuild]
      exact and_iff_left ⟨hdetail, hrun, himport, hremoval⟩
  | detailJob write now =>
      simp only [step, State.sources, List.forall_mem_append, updatesVisibly,
        updateRows_settles_iff _ hdetail]
      exact (and_iff_right hbuild).trans (and_iff_left ⟨hrun, himport, hremoval⟩)
  | postprocessRun write now =>
      simp only [step, State.sources, List.forall_mem_append, updatesVisibly,
        updateRows_settles_iff _ hrun]
      exact (and_iff_right hbuild).trans
        ((and_iff_right hdetail).trans (and_iff_left ⟨himport, hremoval⟩))
  | importRun write now =>
      simp only [step, State.sources, List.forall_mem_append, updatesVisibly,
        updateRows_settles_iff _ himport]
      exact (and_iff_right hbuild).trans ((and_iff_right hdetail).trans
        ((and_iff_right hrun).trans (and_iff_left hremoval)))
  | createBuildJobs items now =>
      exact iff_of_true (h.getD fun _ hs => createBuildJobs_inv h hs).settles rfl
  | createDetailJob jobId requested eligible skipped request now =>
      exact iff_of_true (h.getD fun _ hs => createDetailJob_inv h hs).settles rfl
  | createPostprocessRun runId mpTaskId options now =>
      exact iff_of_true (h.getD fun _ hs => createPostprocessRun_inv h hs).settles rfl
  | createImportRun id source pdql csvFilename deleteAfterExport now =>
      exact iff_of_true (h.getD fun _ hs => createImportRun_inv h hs).settles rfl
  | recordAssetRemoval id operationId assetIds status message rawResponse now =>
      exact iff_of_true (h.getD fun _ hs => recordAssetRemoval_inv h hs).settles rfl
  | register key =>
      refine iff_of_true ?_ rfl
      simp only [step]
      split
      · rename_i c hc
        exact (h.register (fun _ _ => showsSame_merge) showsSame_refl (sources_nodup s)
          (List.mem_of_find?_eq_some hc)).settles
      · exact h.settles
  | sync => exact iff_of_true (h.refreshAll (sources_nodup s)).settles rfl
  | clearHistory actor now => exact iff_of_true (clearHistory_inv h actor now).settles rfl

/-- A step whose updates are visible keeps the invariant. -/
theorem step_inv {s : State} {ev : Event} (h : Inv s) (hok : updatesVisibly s ev = true) :
    Inv (step s ev) := by
  have hsettles := (step_settles_iff ev h).2 hok
  cases ev with
  | buildJob write now =>
      refine h.of_settles ?_ rfl hsettles
      simp only [step, State.sources, List.map_append]
      rw [updateRows_keys _ fun job => by simp [BuildJob.operationRow, write.set_jobId,
        Operations.operationRow]]
  | detailJob write now =>
      refine h.of_settles ?_ rfl hsettles
      simp only [step, State.sources, List.map_append]
      rw [updateRows_keys _ fun job => by simp [DetailJob.operationRow, write.set_jobId,
        Operations.operationRow]]
  | postprocessRun write now =>
      refine h.of_settles ?_ rfl hsettles
      simp only [step, State.sources, List.map_append]
      rw [updateRows_keys _ fun run => by simp [PostprocessRun.operationRow, write.set_runId,
        Operations.operationRow]]
  | importRun write now =>
      refine h.of_settles ?_ rfl hsettles
      simp only [step, State.sources, List.map_append]
      rw [updateRows_keys _ fun run => by simp [ImportRun.operationRow, write.set_id,
        Operations.operationRow]]
  | createBuildJobs items now => exact h.getD fun _ hs => createBuildJobs_inv h hs
  | createDetailJob jobId requested eligible skipped request now =>
      exact h.getD fun _ hs => createDetailJob_inv h hs
  | createPostprocessRun runId mpTaskId options now =>
      exact h.getD fun _ hs => createPostprocessRun_inv h hs
  | createImportRun id source pdql csvFilename deleteAfterExport now =>
      exact h.getD fun _ hs => createImportRun_inv h hs
  | recordAssetRemoval id operationId assetIds status message rawResponse now =>
      exact h.getD fun _ hs => recordAssetRemoval_inv h hs
  | register key =>
      simp only [step]
      split
      · rename_i c hc
        exact h.register (fun _ _ => showsSame_merge) showsSame_refl (sources_nodup s)
          (List.mem_of_find?_eq_some hc)
      · exact h
  | sync => exact h.refreshAll (sources_nodup s)
  | clearHistory actor now => exact clearHistory_inv h actor now

/-! ## Runs -/

/-- A registry without rows: nothing has been registered or synchronised. -/
def State.Initial (s : State) : Prop :=
  ∀ k, s.operations.find? k = none

theorem State.Initial.inv {s : State} (h : s.Initial) :
    Inv s where
  settles := fun c _ => by
    rw [h c.key]
    exact settles_none showsSame_refl c
  covered := fun k r hr => by
    rw [h k] at hr
    cases hr

/--
At every point of a run a synchronisation makes every registry row show the status,
stage and error of its source exactly when every update of the run is visible.
-/
theorem sync_agrees_iff {s : State} (hinit : s.Initial) (events : List Event) :
    Along step (fun s ev => InSync (syncOperationsFromSources (step s ev))) s events ↔
      Along step (fun s ev => updatesVisibly s ev = true) s events := by
  refine (along_congr (fun s ev h hok => step_inv h hok) (fun s ev h => ?_)
    hinit.inv events).symm
  rw [inSync_syncOperationsFromSources_iff, step_settles_iff ev h]

/-- A deployment without any source row. -/
def emptyState : State where
  buildJobs := .empty
  detailJobs := .empty
  runs := .empty
  imports := .empty
  removals := .empty
  operations := .empty

theorem emptyState_initial : emptyState.Initial := fun _ => rfl

/-- A run that fails two seconds after its creation, with a synchronisation in between. -/
def failedLater : List Event :=
  [.createPostprocessRun "r1" "t1" (.obj []) 0,
    .postprocessRun (.update "r1" { status := some "processing", stage := some "processing" })
      second,
    .sync,
    .postprocessRun (.finish "r1" "failed" "failed" none (some "boom")) (2 * second), .sync]

/-- The registry follows a run whose updates come in different seconds. -/
theorem sync_agrees_failedLater :
    Along step (fun s ev => InSync (syncOperationsFromSources (step s ev))) emptyState
      failedLater :=
  (sync_agrees_iff emptyState_initial failedLater).2 (by decide +kernel)

/-- A run that is finished in the second of its creation. -/
def finishedAtOnce : List Event :=
  [.createPostprocessRun "r1" "t1" (.obj []) 0,
    .postprocessRun (.finish "r1" "completed" "completed" none none) 500000, .sync]

/-- The registry row of a run that is finished at once stays as it was created. -/
theorem sync_misses_finishedAtOnce :
    ¬∀ (s : State) (events : List Event), s.Initial → InSync (run step s (events ++ [.sync])) := by
  intro h
  have hrun := h emptyState finishedAtOnce emptyState_initial
  have hsource : (run step emptyState (finishedAtOnce ++ [.sync])).sources.any
      (fun c => decide (c.key = (.scanPostprocess, "r1") ∧ c.value.status = "completed")) =
        true := by
    decide +kernel
  have hstale : ((run step emptyState (finishedAtOnce ++ [.sync])).operations.find?
      (.scanPostprocess, "r1")).all (fun r => decide (r.value.status = "monitoring")) = true := by
    decide +kernel
  obtain ⟨c, hc, hboth⟩ := List.any_eq_true.1 hsource
  obtain ⟨hkey, hstatus⟩ := of_decide_eq_true hboth
  obtain ⟨r, hr, hsame, _⟩ := hrun c hc
  rw [hkey] at hr
  rw [hr, Option.all_some, decide_eq_true_eq, hsame, hstatus] at hstale
  exact absurd hstale (by decide)

end Operations
end MpvmApp
