import MpvmApp.Lib.Dict
import MpvmApp.Services.ScanItems

/-!
# The workers of a scan postprocessing run

A worker takes one item through the card build, the removal of its asset from MP VM and the
wait for this removal.  Between two of its statements anything else can happen: other workers
and build jobs go on, cards are saved and deleted, and the process can stop.  What is in memory
is then lost, and the start of the application hands the stored items to new workers.

Main definitions:

- `advance`: the statements of `process_scanned_asset_item`, one at a time.
- `step`: the system of the items, the build jobs, the cards and the workers.
- `submission`: the removal that an event requests.

Main results:

- Theorem `move_advance`: what an action of a worker can do, removals apart from the rest.
- Theorem `removals_step`: the history of removals has exactly what the events request.
-/

namespace MpvmApp
namespace Services
namespace Scan

open Remediation AssetCard

/-! ## Workers -/

/-- A text of `uuid.uuid4`: there is nothing to strip. -/
structure Uuid where
  text : String
  strip_text : Sql.strip text = text

/-- The request of a build job: what the build and its rebinding read of it. -/
structure BuildRequest where
  assetId : String
  parentOperationId : Option String
deriving DecidableEq

/-- Where `process_scanned_asset_item` stands. -/
inductive Phase where
  /-- The item has been handed over. -/
  | starting
  /-- The Docker containers are probed. -/
  | probing
  /-- `build_scanned_asset_card` waits for a free build slot. -/
  | slot
  /-- The job has been created. -/
  | created (jobId : String)
  /-- The job runs. -/
  | building (jobId : String)
  /-- The job has returned. -/
  | ran (jobId : String)
  /-- `build_scanned_asset_card` has returned. -/
  | built (jobId : String)
  /-- The item has the status `card_saved`. -/
  | saved (jobId : String)
  /-- MP VM has accepted the removal. -/
  | requested (operationId : String)
  /-- The operation is stored, and its end is waited for. -/
  | waiting (operationId : String)
  /-- An exception has been raised; its handler is about to write. -/
  | failing (error : String)
  /-- The cancellation has been noticed; its handler is about to write. -/
  | cancelling
  /-- The worker is through. -/
  | ended
deriving DecidableEq

/--
A worker with its local variables.  `unrecorded` says that it has requested a removal of which
neither the operation nor the failure has been stored; the program has no such variable.
-/
structure Worker where
  itemId : Nat
  runId : String
  assetId : String
  removalOperationId : Option String
  cardSaved : Bool
  phase : Phase
  unrecorded : Bool := false
deriving DecidableEq

/-- The worker that gets an item. -/
def newWorker (row : ItemRow) (assetId : String) : Worker where
  itemId := row.id
  runId := row.runId
  assetId := assetId
  removalOperationId := row.removalOperationId
  cardSaved := row.removalOperationId.isSome
  phase := .starting

/-- A removal that has been requested, with the job whose card it relies on. -/
structure Removal where
  itemId : Nat
  runId : String
  assetId : String
  jobId : String
deriving DecidableEq

/--
The stored items, build jobs and cards, and what is in memory: the workers, and for each run that
is coordinated the asset ids that its coordinator has seen.  `removals` is the history of the
requested removals.
-/
structure System where
  items : Items
  build : BuildJobs.Store BuildRequest
  cards : List String
  workers : List Worker
  coordinators : Dict String (List String)
  removals : List Removal

/-- The system without items. -/
def initial : System where
  items := Table.empty
  build := BuildJobs.initial
  cards := []
  workers := []
  coordinators := Dict.empty
  removals := []

/-- The removal that a worker requests when its item has the status `card_saved`. -/
def Worker.removal (w : Worker) : Option Removal :=
  match w.phase with
  | .saved jobId => some { itemId := w.itemId, runId := w.runId, assetId := w.assetId, jobId }
  | _ => none

/-- What a worker does next. -/
inductive Action where
  | begin
  | probe (message : String) (current : Instant)
  | probed
  | create (jobId : Uuid) (current : Instant) (registered : Bool)
  | storeBuilding (current : Instant)
  | jobReturned
  | lookUp
  | storeCardSaved (current : Instant)
  | request (answer : Except String String)
  | storeOperation (current : Instant)
  | removed (ok : Bool) (message : String) (current : Instant)
  | fail (error : String)
  | cancel
  | record (current : Instant)
  | lose

/-- `str(job.get("asset_id") or asset_id)`: the id under which the card has been stored. -/
def canonicalAssetId (job : BuildJobs.JobRow BuildRequest) (assetId : String) : String :=
  if job.assetId = "" then assetId else job.assetId

/-- The outcome of `build_scanned_asset_card` once its job has returned. -/
def lookUpCard (s : System) (jobId assetId : String) : Except String Unit :=
  match s.build.jobs.find? jobId with
  | none => .error "Asset card build did not complete."
  | some job =>
      if job.status ≠ .completed then
        .error ((Sql.orNone job.message).getD "Asset card build did not complete.")
      else if canonicalAssetId job assetId ∈ s.cards then .ok ()
      else .error "Asset card build completed without a saved local card."

/-- The item from which `create_asset_card_build_job` is called. -/
def buildItem (s : System) (w : Worker) (jobId : Uuid) : BuildJobs.JobItem BuildRequest where
  jobId := some jobId.text
  assetId := some w.assetId
  operation := some (if w.assetId ∈ s.cards then "refresh" else "create")
  request := some { assetId := w.assetId, parentOperationId := some w.runId }

/-- The phases in which `raise_if_scan_postprocess_cancelled` is called. -/
def Phase.checksCancellation : Phase → Bool
  | .starting => true
  | .probing => true
  | .slot => true
  | .saved _ => true
  | .waiting _ => true
  | _ => false

/-- The phases in which the body of the function runs, not one of its handlers. -/
def Phase.isBody : Phase → Bool
  | .failing _ => false
  | .cancelling => false
  | .ended => false
  | _ => true

/-- What the handlers store. -/
def handlerValues (w : Worker) (current : Instant) : ItemValues :=
  match w.phase with
  | .failing error =>
      { status := some (if w.cardSaved then .removalFailed else .buildFailed)
        stage := some (if w.cardSaved then "removal_failed" else "build_failed")
        error := some (some (String.ofList (error.toList.take 4000)))
        finishedAt := some current }
  | _ =>
      { status := some .cancelled
        stage := some "cancelled"
        message := some (some "Processing cancelled by operator.")
        finishedAt := some current }

/-- The system after an update of the worker's item. -/
def store (s : System) (w : Worker) (values : ItemValues) (current : Instant) : System :=
  { s with items := updateScanPostprocessItem s.items w.itemId values current }

/--
One statement of `process_scanned_asset_item`; an action that does not belong to the phase of
the worker changes nothing.
-/
def advance (s : System) (w : Worker) : Action → System × Worker
  | .begin =>
      match w.phase, w.removalOperationId with
      | .starting, none => (s, { w with phase := .probing })
      | .starting, some operationId => (s, { w with phase := .waiting operationId })
      | _, _ => (s, w)
  | .probe message current =>
      match w.phase with
      | .probing =>
          (store s w
            { status := some .preparing
              stage := some "probing_docker_containers"
              message := some (some message)
              error := some none } current, w)
      | _ => (s, w)
  | .probed =>
      match w.phase with
      | .probing => (s, { w with phase := .slot })
      | _ => (s, w)
  | .create jobId current registered =>
      match w.phase with
      | .slot =>
          -- An active job of any asset keeps the slot busy.
          if BuildJobs.activeCount s.build.jobs = 0 then
            let created := BuildJobs.createAssetCardBuildJobs s.build [buildItem s w jobId] current
              registered
            ({ s with build := created.1 },
              if created.2 then { w with phase := .created jobId.text } else w)
          else (s, w)
      | _ => (s, w)
  | .storeBuilding current =>
      match w.phase with
      | .created jobId =>
          (store s w
            { status := some .building
              stage := some "building_card"
              buildJobId := some jobId
              startedAt := some current } current,
            { w with phase := .building jobId })
      | _ => (s, w)
  | .jobReturned =>
      match w.phase with
      | .building jobId => (s, { w with phase := .ran jobId })
      | _ => (s, w)
  | .lookUp =>
      match w.phase with
      | .ran jobId =>
          match lookUpCard s jobId w.assetId with
          | .ok () => (s, { w with phase := .built jobId })
          | .error error => (s, { w with phase := .failing error })
      | _ => (s, w)
  | .storeCardSaved current =>
      match w.phase with
      | .built jobId =>
          (store s w
            { status := some .cardSaved
              stage := some "card_saved"
              buildJobId := some jobId
              message := some (some "Asset card saved locally.")
              error := some none } current,
            { w with phase := .saved jobId, cardSaved := true })
      | _ => (s, w)
  | .request answer =>
      match w.removal with
      | some removal =>
          ({ s with removals := removal :: s.removals },
            { w with
              phase := match answer with
                | .ok operationId => .requested operationId
                | .error error => .failing error
              unrecorded := true })
      | none => (s, w)
  | .storeOperation current =>
      match w.phase with
      | .requested operationId =>
          (store s w
            { status := some .deleting
              stage := some "deleting_in_mpvm"
              removalOperationId := some operationId
              message := some (some "MP VM asset removal started.") } current,
            { w with phase := .waiting operationId, unrecorded := false })
      | _ => (s, w)
  | .removed ok message current =>
      match w.phase with
      | .waiting _ =>
          (store s w
            (if ok then
              { status := some .completed
                stage := some "completed"
                message := some (some message)
                error := some none
                finishedAt := some current }
            else
              { status := some .removalFailed
                stage := some "removal_failed"
                message := some (some message)
                error := some (some message)
                finishedAt := some current }) current,
            { w with phase := .ended })
      | _ => (s, w)
  | .fail error =>
      if w.phase.isBody then (s, { w with phase := .failing error }) else (s, w)
  | .cancel =>
      if w.phase.checksCancellation then (s, { w with phase := .cancelling }) else (s, w)
  | .record current =>
      if w.phase.isBody ∨ w.phase = .ended then (s, w)
      else
        (store s w (handlerValues w current) current, { w with phase := .ended, unrecorded := false })
  | .lose =>
      if w.phase.isBody ∨ w.phase = .ended then (s, w) else (s, { w with phase := .ended })

/-! ## The system -/

/--
What can happen.  `coordinate` is the start of `monitor_successful_scan_jobs` for a
claimed run, `schedule` its treatment of one resolved asset.  `jobs` is any statement on
build jobs: requests of others, and what the runners of the jobs do.
-/
inductive Event where
  | coordinate (runId : String)
  | schedule (runId assetId : String) (mpJobId target displayName : Option String) (nextId : Nat)
      (current : Instant)
  | worker (index : Nat) (action : Action)
  | jobs (event : BuildJobs.Event BuildRequest)
  | saveCard (assetId : String)
  | deleteCard (assetId : String)
  | restart (current : Instant)

/-- The items that the coordinator of a run hands over at its start. -/
def resumedWorkers (items : Items) (runId : String) : List Worker :=
  (listScanPostprocessItems items runId).filterMap fun row =>
    match Sql.orNone row.assetId with
    | some assetId => if row.status.isFinished then none else some (newWorker row assetId)
    | none => none

/--
A run is claimed and its unfinished items are handed over.  A run that has been claimed since the
start of the process is not claimed again.
-/
def coordinateRun (s : System) (runId : String) : System :=
  match s.coordinators.get? runId with
  | some _ => s
  | none =>
      { s with
        coordinators := s.coordinators.set runId
          ((listScanPostprocessItems s.items runId).filterMap fun row => Sql.orNone row.assetId)
        workers := s.workers ++ resumedWorkers s.items runId }

/-- A resolved asset that the coordinator has not seen gets an item, which is handed over. -/
def scheduleAsset (s : System) (runId assetId : String) (mpJobId target displayName : Option String)
    (nextId : Nat) (current : Instant) : System :=
  match s.coordinators.get? runId with
  | none => s
  | some seen =>
      if assetId ∈ seen then s
      else
        match upsertScanPostprocessItem s.items runId (.asset assetId) mpJobId target
            (some assetId) displayName .queued "queued" nextId current with
        | none => s
        | some (items, row) =>
            { s with
              items := items
              coordinators := s.coordinators.set runId (seen ++ [assetId])
              workers := s.workers ++ [newWorker row assetId] }

/-- The items after a statement on build jobs: a rebinding changes the item of the job, too. -/
def itemsAfterJobs (items : Items) : BuildJobs.Event BuildRequest → Items
  | .rebind jobId canonicalAssetId current => rebindItems items jobId canonicalAssetId current
  | _ => items

/--
The process stops and starts again: open transactions are rolled back, active jobs are interrupted
and the leases are released.
-/
def restartProcess (s : System) (current : Instant) : System :=
  { s with
    items := releaseItems s.items current
    build := BuildJobs.step (BuildJobs.step s.build .rollback) (.interrupt current)
    workers := []
    coordinators := Dict.empty }

/-- One step of the system. -/
def step (s : System) : Event → System
  | .coordinate runId => coordinateRun s runId
  | .schedule runId assetId mpJobId target displayName nextId current =>
      scheduleAsset s runId assetId mpJobId target displayName nextId current
  | .worker index action =>
      match s.workers[index]? with
      | none => s
      | some w =>
          let (s', w') := advance s w action
          { s' with workers := s.workers.set index w' }
  | .jobs event =>
      { s with build := BuildJobs.step s.build event, items := itemsAfterJobs s.items event }
  | .saveCard assetId => { s with cards := assetId :: s.cards }
  | .deleteCard assetId => { s with cards := s.cards.filter fun card => card ≠ assetId }
  | .restart current => restartProcess s current

/-- The removal that an action requests. -/
def Action.removal (w : Worker) : Action → Option Removal
  | .request _ => w.removal
  | _ => none

/-- The removal that an event requests from MP VM. -/
def submission (s : System) : Event → Option Removal
  | .worker index action => s.workers[index]?.bind fun w => action.removal w
  | _ => none

/-! ## What a worker does -/

/-- The worker is not through, or has left the outcome of a removal unrecorded. -/
def Worker.isActive (w : Worker) : Prop :=
  w.phase ≠ .ended ∨ w.unrecorded = true

/-- The worker may still request a removal. -/
def Worker.mayRequest (w : Worker) : Prop :=
  match w.phase with
  | .starting => w.removalOperationId = none
  | .probing => True
  | .slot => True
  | .created _ => True
  | .building _ => True
  | .ran _ => True
  | .built _ => True
  | .saved _ => True
  | _ => False

/-- A worker that requests a removal, or has left one unrecorded, has saved the card. -/
structure Worker.Consistent (w : Worker) : Prop where
  saved : ∀ jobId, w.phase = .saved jobId → w.cardSaved = true
  unrecorded : w.unrecorded = true → w.cardSaved = true ∧
    ((∃ operationId, w.phase = .requested operationId) ∨ (∃ error, w.phase = .failing error) ∨
      w.phase = .ended)

/-- A move that requests no removal and stores no outcome of one. -/
structure QuietMove (s : System) (w : Worker) (s' : System) (w' : Worker) : Prop where
  removals : s'.removals = s.removals
  items : s'.items = s.items ∨ w.phase ≠ .ended ∧ ∃ values current,
    values.removalOperationId = none ∧
      s'.items = updateScanPostprocessItem s.items w.itemId values current
  active : w'.isActive → w.isActive
  mayRequest : w'.mayRequest → w.mayRequest
  unrecorded : w'.unrecorded = w.unrecorded
  consistent : w.Consistent → w'.Consistent

theorem QuietMove.refl (s : System) (w : Worker) :
    QuietMove s w s w :=
  ⟨rfl, .inl rfl, id, id, rfl, id⟩

/-- The moves of a worker. -/
inductive Move (s : System) (w : Worker) : Option Removal → System → Worker → Prop where
  | quiet {s' : System} {w' : Worker} (h : QuietMove s w s' w') : Move s w none s' w'
  | request {removal : Removal} {w' : Worker} (hremoval : w.removal = some removal)
      (hunrecorded : w'.unrecorded = true) (hmay : ¬ w'.mayRequest)
      (hconsistent : w.Consistent → w'.Consistent) :
      Move s w (some removal) { s with removals := removal :: s.removals } w'
  | storeOperation (operationId : String) (values : ItemValues) (current : Instant)
      (hphase : w.phase = .requested operationId)
      (hvalues : values.removalOperationId = some operationId) :
      Move s w none (store s w values current)
        { w with phase := .waiting operationId, unrecorded := false }
  | record (current : Instant)
      (hphase : (∃ error, w.phase = .failing error) ∨ w.phase = .cancelling) :
      Move s w none (store s w (handlerValues w current) current)
        { w with phase := .ended, unrecorded := false }

theorem quietMove_body {s s' : System} {w w' : Worker} (hremovals : s'.removals = s.removals)
    (hitems : s'.items = s.items ∨ ∃ values current, values.removalOperationId = none ∧
      s'.items = updateScanPostprocessItem s.items w.itemId values current)
    (hended : w.phase ≠ .ended) (hmay : w'.mayRequest → w.mayRequest)
    (hunrecorded : w'.unrecorded = w.unrecorded)
    (hphase : (∀ operationId, w.phase ≠ .requested operationId) ∧
      ∀ error, w.phase ≠ .failing error)
    (hsaved : ∀ jobId, w'.phase = .saved jobId → w'.cardSaved = true) :
    QuietMove s w s' w' := by
  refine ⟨hremovals, hitems.imp_right fun h => ⟨hended, h⟩, fun _ => .inl hended, hmay,
    hunrecorded, fun h => ⟨hsaved, fun hw' => ?_⟩⟩
  obtain ⟨_, ⟨operationId, hrequested⟩ | ⟨error, hfailing⟩ | hw⟩ :=
    h.unrecorded (hunrecorded ▸ hw')
  · exact absurd hrequested (hphase.1 operationId)
  · exact absurd hfailing (hphase.2 error)
  · exact absurd hw hended

/-- Every action is one of the moves. -/
theorem move_advance (s : System) (w : Worker) (a : Action) :
    Move s w (a.removal w) (advance s w a).1 (advance s w a).2 := by
  cases a with
  | begin =>
      simp only [advance, Action.removal]
      split
      · rename_i hphase hnone
        exact .quiet (quietMove_body rfl (.inl rfl) (by simp [hphase])
          (by simp [Worker.mayRequest, hphase, hnone]) rfl (by simp [hphase]) (by simp))
      · rename_i hphase hsome
        exact .quiet (quietMove_body rfl (.inl rfl) (by simp [hphase])
          (by simp [Worker.mayRequest]) rfl (by simp [hphase]) (by simp))
      · exact .quiet (QuietMove.refl s w)
  | probe message current =>
      simp only [advance, Action.removal]
      split
      · rename_i hphase
        exact .quiet (quietMove_body rfl (.inr ⟨_, _, rfl, rfl⟩) (by simp [hphase]) id rfl
          (by simp [hphase]) (by simp [hphase]))
      · exact .quiet (QuietMove.refl s w)
  | probed =>
      simp only [advance, Action.removal]
      split
      · rename_i hphase
        exact .quiet (quietMove_body rfl (.inl rfl) (by simp [hphase])
          (by simp [Worker.mayRequest, hphase]) rfl (by simp [hphase]) (by simp))
      · exact .quiet (QuietMove.refl s w)
  | create jobId current registered =>
      simp only [advance, Action.removal]
      split
      · rename_i hphase
        split_ifs
        · exact .quiet (quietMove_body rfl (.inl rfl) (by simp [hphase])
            (by simp [Worker.mayRequest, hphase]) rfl (by simp [hphase]) (by simp))
        · exact .quiet (quietMove_body rfl (.inl rfl) (by simp [hphase]) id rfl
            (by simp [hphase]) (by simp [hphase]))
        · exact .quiet (QuietMove.refl s w)
      · exact .quiet (QuietMove.refl s w)
  | storeBuilding current =>
      simp only [advance, Action.removal]
      split
      · rename_i hphase
        exact .quiet (quietMove_body rfl (.inr ⟨_, _, rfl, rfl⟩) (by simp [hphase])
          (by simp [Worker.mayRequest, hphase]) rfl (by simp [hphase]) (by simp))
      · exact .quiet (QuietMove.refl s w)
  | jobReturned =>
      simp only [advance, Action.removal]
      split
      · rename_i hphase
        exact .quiet (quietMove_body rfl (.inl rfl) (by simp [hphase])
          (by simp [Worker.mayRequest, hphase]) rfl (by simp [hphase]) (by simp))
      · exact .quiet (QuietMove.refl s w)
  | lookUp =>
      simp only [advance, Action.removal]
      split
      · rename_i hphase
        split
        · exact .quiet (quietMove_body rfl (.inl rfl) (by simp [hphase])
            (by simp [Worker.mayRequest, hphase]) rfl (by simp [hphase]) (by simp))
        · exact .quiet (quietMove_body rfl (.inl rfl) (by simp [hphase])
            (by simp [Worker.mayRequest]) rfl (by simp [hphase]) (by simp))
      · exact .quiet (QuietMove.refl s w)
  | storeCardSaved current =>
      simp only [advance, Action.removal]
      split
      · rename_i hphase
        exact .quiet (quietMove_body rfl (.inr ⟨_, _, rfl, rfl⟩) (by simp [hphase])
          (by simp [Worker.mayRequest, hphase]) rfl (by simp [hphase]) (by simp))
      · exact .quiet (QuietMove.refl s w)
  | request answer =>
      simp only [advance, Action.removal]
      cases hremoval : w.removal with
      | none => exact .quiet (QuietMove.refl s w)
      | some removal =>
          refine .request hremoval rfl ?_ fun h => ?_
          · cases answer <;> simp [Worker.mayRequest]
          · unfold Worker.removal at hremoval
            split at hremoval
            · rename_i hphase
              refine ⟨fun jobId hsaved => h.saved _ hphase, fun _ => ⟨h.saved _ hphase, ?_⟩⟩
              cases answer <;> simp
            · cases hremoval
  | storeOperation current =>
      simp only [advance, Action.removal]
      split
      · rename_i operationId hphase
        exact .storeOperation operationId _ current hphase rfl
      · exact .quiet (QuietMove.refl s w)
  | removed ok message current =>
      simp only [advance, Action.removal]
      split
      · rename_i hphase
        refine .quiet (quietMove_body rfl (.inr ⟨_, _, ?_, rfl⟩) (by simp [hphase])
          (by simp [Worker.mayRequest]) rfl (by simp [hphase]) (by simp))
        split_ifs <;> rfl
      · exact .quiet (QuietMove.refl s w)
  | fail error =>
      simp only [advance, Action.removal]
      split_ifs with hbody
      · refine .quiet ⟨rfl, .inl rfl, fun _ => .inl ?_, by simp [Worker.mayRequest], rfl,
          fun h => ⟨by simp, fun hw => ⟨(h.unrecorded hw).1, .inr (.inl ⟨error, rfl⟩)⟩⟩⟩
        rintro hended
        simp [hended, Phase.isBody] at hbody
      · exact .quiet (QuietMove.refl s w)
  | cancel =>
      simp only [advance, Action.removal]
      split_ifs with hcheck
      · refine .quiet (quietMove_body rfl (.inl rfl) ?_ (by simp [Worker.mayRequest]) rfl ?_
          (by simp))
        · rintro hended
          simp [hended, Phase.checksCancellation] at hcheck
        · constructor <;> (intro _ hphase; simp [hphase, Phase.checksCancellation] at hcheck)
      · exact .quiet (QuietMove.refl s w)
  | record current =>
      simp only [advance, Action.removal]
      split_ifs with hbody
      · exact .quiet (QuietMove.refl s w)
      · refine .record current ?_
        cases hphase : w.phase <;> simp_all [Phase.isBody]
  | lose =>
      simp only [advance, Action.removal]
      split_ifs with hbody
      · exact .quiet (QuietMove.refl s w)
      · refine .quiet ⟨rfl, .inl rfl, fun _ => .inl fun h => hbody (.inr h),
          by simp [Worker.mayRequest], rfl, fun h => ⟨by simp, fun hw =>
            ⟨(h.unrecorded hw).1, .inr (.inr rfl)⟩⟩⟩

/-- A worker stays with its item, and changes what others have in memory in no way. -/
structure Frame (s : System) (w : Worker) (s' : System) (w' : Worker) : Prop where
  itemId : w'.itemId = w.itemId
  runId : w'.runId = w.runId
  assetId : w'.assetId = w.assetId
  workers : s'.workers = s.workers
  coordinators : s'.coordinators = s.coordinators
  cards : s'.cards = s.cards

theorem frame_advance (s : System) (w : Worker) (a : Action) :
    Frame s w (advance s w a).1 (advance s w a).2 := by
  cases a <;> simp only [advance] <;> repeat' split
  all_goals exact ⟨rfl, rfl, rfl, rfl, rfl, rfl⟩

theorem Move.removals {s s' : System} {w w' : Worker} {removal : Option Removal}
    (h : Move s w removal s' w') :
    s'.removals = removal.toList ++ s.removals := by
  cases h with
  | quiet hquiet => simpa using hquiet.removals
  | _ => rfl

/-- The history of removals grows by what an event requests. -/
theorem removals_step (s : System) (e : Event) :
    (step s e).removals = (submission s e).toList ++ s.removals := by
  cases e with
  | coordinate runId =>
      simp only [step, coordinateRun, submission]
      split <;> rfl
  | schedule runId assetId mpJobId target displayName nextId current =>
      simp only [step, scheduleAsset, submission]
      split
      · rfl
      · split_ifs
        · rfl
        · split <;> rfl
  | worker index action =>
      cases hw : s.workers[index]? with
      | none => simp [step, submission, hw]
      | some w =>
          simp only [step, submission, hw, Option.bind_some]
          exact (move_advance s w action).removals
  | _ => rfl

end Scan
end Services
end MpvmApp
