import MpvmApp.AssetCard.BuildJobs
import MpvmApp.AssetCard.Save

/-!
# Cancellation of a build job

The worker of a build job polls its cancellation event between the requests of the build and once
more before the save; from there on nothing asks for it.  A request to cancel marks the job and
sets the event in two steps, and may come at any moment.  Whatever else happens to the tables, by
other jobs and by users, comes in between.

Main definitions:

- Definition `work`: the next statement of the worker.
- Definition `otherWrites`: what the others alone have made of the stored data.

Main results:

- Theorem `Inv.step`: a job is cancelled by its worker only, and only without a save.
- Theorem `cancelled_build_changes_nothing`: a cancelled job has changed nothing.
-/

namespace MpvmApp
namespace AssetCard
namespace BuildCancellation

open Findings Remediation BuildJobs Runs

variable {R : Type*}

/-! ## The worker -/

/-- The job, and what its worker depends on. -/
structure Context where
  jobId : String
  request : BuildRequest
  hasParentOperation : Bool
  settings : Settings
  passports : FindingRow → List String

/-- How far the worker is; the phases are the statements that it goes on with. -/
inductive Phase where
  | waiting
  | starting
  | lookUp
  | check
  | stopping
  | building
  | built (snapshot : Snapshot)
  | saving (snapshot : Snapshot)
  | rebinding (canonicalAssetId : String)
  | reconciling (canonicalAssetId : String)
  | completing
  | capturing
  | cancelling (message : String)
  | failing (message : String)
  | ended

/--
What the statement of the worker meets: it goes through, the build polls the event or returns its
answers, the save stores a card under the id that it selects, or an exception is raised.
-/
inductive Work where
  | proceed (current : Instant)
  | poll
  | build (answers : Answers)
  | save (canonicalAssetId : String) (current : Instant)
  | fail (message : String)

/--
The build jobs, the stored data, the cancellation event and the worker of the job; `saved`
tells whether its save is committed.
-/
structure System (R : Type*) where
  store : BuildJobs.Store R
  db : Remediation.Database
  event : Bool
  phase : Phase
  saved : Bool

/-- A job that has not been taken up, whatever is stored and whether or not it is cancelled. -/
def System.initial (store : BuildJobs.Store R) (db : Remediation.Database) (event : Bool) :
    System R where
  store := store
  db := db
  event := event
  phase := .waiting
  saved := false

/-- The rows of the jobs change. -/
def System.withJobs (s : System R) (jobs : Jobs R) : System R :=
  { s with store := { s.store with jobs } }

/-- `finish_asset_card_build_job` for the job of the worker. -/
def System.finish (ctx : Context) (s : System R) (outcome : Outcome) (stage : String)
    (message : String) (current : Instant) : System R :=
  s.withJobs (finishAssetCardBuildJob s.store.jobs ctx.jobId outcome stage (some message) none
    current)

/-- `start_asset_card_build_job` returns a row: the job was queued. -/
def System.isQueued (ctx : Context) (s : System R) : Bool :=
  (s.store.jobs.find? ctx.jobId).any fun row => decide (row.status = .queued)

/-- The row of the job says that it is to be cancelled. -/
def System.cancelRequested (ctx : Context) (s : System R) : Bool :=
  (s.store.jobs.find? ctx.jobId).any JobRow.cancelRequested

/-- The statement of the worker goes through. -/
def proceed (ctx : Context) (s : System R) (current : Instant) : System R :=
  match s.phase with
  | .waiting => { s with phase := .starting }
  | .starting =>
      { s.withJobs (startAssetCardBuildJob s.store.jobs ctx.jobId current) with
        phase := if s.isQueued ctx then .check else .lookUp }
  | .lookUp =>
      if s.cancelRequested ctx then { s with event := true, phase := .check }
      else { s with phase := .ended }
  | .check => { s with phase := if s.event then .stopping else .building }
  | .stopping =>
      { s.finish ctx .cancelled "cancelled" "Cancelled before start." current with
        phase := .ended }
  | .built snapshot =>
      { s with
        phase := if s.event then .cancelling "Cancelled before saving." else .saving snapshot }
  | .rebinding canonicalAssetId =>
      if canonicalAssetId ≠ ctx.request.assetId ∧ ctx.hasParentOperation = true then
        { s.withJobs
            (rebindScanPostprocessAsset s.store.jobs ctx.jobId canonicalAssetId current) with
          phase := .reconciling canonicalAssetId }
      else { s with phase := .reconciling canonicalAssetId }
  | .reconciling canonicalAssetId =>
      { s with
        db := Remediation.step ctx.settings s.db (.reconcile canonicalAssetId current)
        phase := .completing }
  | .completing =>
      { s.finish ctx .completed "completed" "Asset card build completed." current with
        phase := .capturing }
  | .capturing => { s with phase := .ended }
  | .cancelling message =>
      { s.finish ctx .cancelled "cancelled" message current with phase := .ended }
  | .failing message =>
      { s.finish ctx .failed "failed" message current with phase := .ended }
  | .building => s
  | .saving _ => s
  | .ended => s

/-- The event is polled between two requests of the build. -/
def poll (s : System R) : System R :=
  match s.phase with
  | .building =>
      { s with
        phase := if s.event then .cancelling "Asset card build was cancelled." else .building }
  | _ => s

/-- The build returns what it has made of the answers. -/
def build (ctx : Context) (s : System R) (answers : Answers) : System R :=
  match s.phase with
  | .building =>
      match buildSnapshot ctx.request { answers with cancelled := false } with
      | .ok snapshot => { s with phase := .built snapshot }
      | .error message => { s with phase := .failing s!"Asset card build failed: {message}" }
  | _ => s

/-- `upsert_asset_card` stores the card, or is rolled back. -/
def save (ctx : Context) (s : System R) (canonicalAssetId : String) (current : Instant) :
    System R :=
  match s.phase with
  | .saving snapshot =>
      match saveCard ctx.settings.locale ctx.passports canonicalAssetId current snapshot s.db with
      | some db => { s with db, phase := .rebinding canonicalAssetId, saved := true }
      | none =>
          { s with phase := .failing "Asset card build failed: Asset card could not be saved." }
  | _ => s

/--
The statement raises an exception.  Outside of the `try` statement it ends the worker; in it
the job is going to be finished as failed.
-/
def fail (s : System R) (message : String) : System R :=
  match s.phase with
  | .waiting => { s with phase := .ended }
  | .cancelling _ => { s with phase := .ended }
  | .failing _ => { s with phase := .ended }
  | .ended => s
  | _ => { s with phase := .failing s!"Asset card build failed: {message}" }

/-- The next statement of the worker. -/
def work (ctx : Context) (s : System R) : Work → System R
  | .proceed current => proceed ctx s current
  | .poll => poll s
  | .build answers => build ctx s answers
  | .save canonicalAssetId current => save ctx s canonicalAssetId current
  | .fail message => fail s message

/-! ## The system -/

/-- What can happen next. -/
inductive Event (R : Type*) where
  | work (w : Work)
  | progress (stage : String) (progressPercent : Int) (counters : Counters) (stats : Option R)
      (current : Instant)
  | requestCancel (current : Instant)
  | setEvent
  | other (e : BuildJobs.Event R)
  | write (f : Remediation.Database → Remediation.Database)
  | restart (current : Instant)

/-- What others do to the build jobs: they do not start, finish or rebind this one. -/
def Foreign (jobId : String) : BuildJobs.Event R → Bool
  | .start id _ => decide (id ≠ jobId)
  | .finish id _ _ _ _ _ => decide (id ≠ jobId)
  | .rebind id _ _ => decide (id ≠ jobId)
  | .interrupt _ => false
  | _ => true

/-- One step of the system. -/
def step (ctx : Context) (s : System R) : Event R → System R
  | .work w => work ctx s w
  | .progress stage progressPercent counters stats current =>
      s.withJobs
        (updateAssetCardBuildJob s.store.jobs ctx.jobId stage progressPercent counters stats current)
  | .requestCancel current =>
      s.withJobs (requestAssetCardBuildJobCancel s.store.jobs ctx.jobId current)
  | .setEvent => { s with event := true }
  | .other e => if Foreign ctx.jobId e then { s with store := BuildJobs.step s.store e } else s
  | .write f => { s with db := f s.db }
  -- The application starts again: the worker is gone, and active jobs become interrupted.
  | .restart current =>
      { s.withJobs (interruptActiveAssetCardBuildJobs s.store.jobs current) with phase := .ended }

/-- What the writes of the others alone make of the stored data. -/
def otherWrites : List (Event R) → Remediation.Database → Remediation.Database
  | [], db => db
  | .write f :: es, db => otherWrites es (f db)
  | _ :: es, db => otherWrites es db

/-! ## Cancelled jobs -/

/-- The job is stored as cancelled. -/
def CancelledIn (jobs : Jobs R) (jobId : String) : Prop :=
  ∃ row ∈ jobs.rows, row.jobId = jobId ∧ row.status = .cancelled

theorem cancelledIn_of_updateJob {jobs : Jobs R} {jobId id : String} {selected : JobRow R → Bool}
    {f : JobRow R → JobRow R} {hf : ∀ row, (f row).jobId = row.jobId}
    (hkeeps : ∀ row, row.jobId = id → row.jobId = jobId → (f row).status = .cancelled →
      row.status = .cancelled)
    (h : CancelledIn (updateJob jobs id selected f hf) jobId) :
    CancelledIn jobs jobId := by
  obtain ⟨row', hrow', hid, hstatus⟩ := h
  obtain ⟨row, hrow, rfl⟩ := List.mem_map.1 hrow'
  split at hid
  · rename_i hselected
    rw [if_pos hselected] at hstatus
    rw [hf] at hid
    exact ⟨row, hrow, hid, hkeeps row hselected.1 hid hstatus⟩
  · rename_i hselected
    rw [if_neg hselected] at hstatus
    exact ⟨row, hrow, hid, hstatus⟩

theorem cancelledIn_of_start {jobs : Jobs R} {jobId id : String} {current : Instant}
    (h : CancelledIn (startAssetCardBuildJob jobs id current) jobId) :
    CancelledIn jobs jobId := by
  refine cancelledIn_of_updateJob (fun row _ _ hstatus => ?_) h
  dsimp only at hstatus
  split at hstatus <;> cases hstatus

theorem cancelledIn_of_update {jobs : Jobs R} {jobId id stage : String} {progressPercent : Int}
    {counters : Counters} {stats : Option R} {current : Instant}
    (h : CancelledIn (updateAssetCardBuildJob jobs id stage progressPercent counters stats current)
      jobId) :
    CancelledIn jobs jobId := by
  refine cancelledIn_of_updateJob (fun row _ _ hstatus => ?_) h
  exact hstatus

theorem cancelledIn_of_requestCancel {jobs : Jobs R} {jobId id : String} {current : Instant}
    (h : CancelledIn (requestAssetCardBuildJobCancel jobs id current) jobId) :
    CancelledIn jobs jobId :=
  cancelledIn_of_updateJob (fun _ _ _ hstatus => by cases hstatus) h

theorem cancelledIn_of_rebind {jobs : Jobs R} {jobId id canonicalAssetId : String}
    {current : Instant}
    (h : CancelledIn (rebindScanPostprocessAsset jobs id canonicalAssetId current) jobId) :
    CancelledIn jobs jobId := by
  refine cancelledIn_of_updateJob (fun row _ _ hstatus => ?_) h
  exact hstatus

theorem cancelledIn_of_finish {jobs : Jobs R} {jobId id stage : String} {outcome : Outcome}
    {message : Option String} {stats : Option R} {current : Instant}
    (hother : id ≠ jobId ∨ outcome ≠ .cancelled)
    (h : CancelledIn (finishAssetCardBuildJob jobs id outcome stage message stats current) jobId) :
    CancelledIn jobs jobId := by
  refine cancelledIn_of_updateJob (fun row hid hjob hstatus => ?_) h
  rcases hother with hne | hne
  · exact absurd (hid.symm.trans hjob) hne
  · cases outcome with
    | cancelled => exact absurd rfl hne
    | completed => cases hstatus
    | failed => cases hstatus

theorem cancelledIn_of_interrupt {jobs : Jobs R} {jobId : String} {current : Instant}
    (h : CancelledIn (interruptActiveAssetCardBuildJobs jobs current) jobId) :
    CancelledIn jobs jobId := by
  obtain ⟨row', hrow', hid, hstatus⟩ := h
  obtain ⟨row, hrow, rfl⟩ := List.mem_map.1 hrow'
  split at hstatus
  · cases hstatus
  · rename_i hactive
    rw [if_neg hactive] at hid
    exact ⟨row, hrow, hid, hstatus⟩

/-- What others do to the build jobs does not cancel this one. -/
theorem cancelledIn_of_foreign {store : BuildJobs.Store R} {jobId : String} {e : BuildJobs.Event R}
    (hforeign : Foreign jobId e = true) (h : CancelledIn (BuildJobs.step store e).jobs jobId) :
    CancelledIn store.jobs jobId := by
  cases e with
  | create items current =>
      rw [BuildJobs.step, beginBatch] at h
      split at h
      · exact h
      · split_ifs at h <;> exact h
  | commit registered =>
      rw [BuildJobs.step, commitBatch] at h
      split at h
      · exact h
      · split at h
        · rename_i jobs hinsert
          split_ifs at h
          · obtain ⟨row, hrow, hid, hstatus⟩ := h
            rw [rows_of_insertJobs hinsert] at hrow
            rcases List.mem_append.1 hrow with hold | hnew
            · exact ⟨row, hold, hid, hstatus⟩
            · obtain ⟨job, _, rfl⟩ := List.mem_map.1 hnew
              cases hstatus
          · exact h
        · exact h
  | rollback =>
      rw [BuildJobs.step, rollbackBatch] at h
      split at h <;> exact h
  | start id current => exact cancelledIn_of_start h
  | update id stage progressPercent counters stats current => exact cancelledIn_of_update h
  | requestCancel id current => exact cancelledIn_of_requestCancel h
  | finish id outcome stage message stats current =>
      exact cancelledIn_of_finish (.inl (of_decide_eq_true hforeign)) h
  | interrupt current => cases hforeign
  | rebind id canonicalAssetId current => exact cancelledIn_of_rebind h

/-! ## What holds in every run -/

/-- The worker has not come to the save, or is not going to. -/
def Phase.beforeSave : Phase → Bool
  | .rebinding _ => false
  | .reconciling _ => false
  | .completing => false
  | .capturing => false
  | .failing _ => false
  | .ended => false
  | _ => true

/-- The worker has written something since its save, or is going to. -/
def Phase.afterSave : Phase → Bool
  | .rebinding _ => true
  | .reconciling _ => true
  | _ => false

/-- Without a save the data is that of the others; only an ended worker leaves a cancelled job. -/
structure Inv (ctx : Context) (s : System R) (others : Remediation.Database) : Prop where
  clean : s.saved = false → s.db = others
  before : s.phase.beforeSave = true → s.saved = false
  after : s.phase.afterSave = true → s.saved = true
  status : CancelledIn s.store.jobs ctx.jobId → s.phase = .ended ∧ s.saved = false

section Invariant

variable {ctx : Context} {s : System R} {others : Remediation.Database}

theorem Inv.initial {store : BuildJobs.Store R} {db : Remediation.Database} {event : Bool}
    (hjob : ¬ CancelledIn store.jobs ctx.jobId) :
    Inv ctx (System.initial store db event) db where
  clean _ := rfl
  before _ := rfl
  after hphase := by cases hphase
  status hcancelled := absurd hcancelled hjob

theorem Inv.not_cancelled (h : Inv ctx s others) (hphase : s.phase ≠ .ended) :
    ¬ CancelledIn s.store.jobs ctx.jobId := fun hcancelled => hphase (h.status hcancelled).1

theorem Inv.goOnWith (h : Inv ctx s others) {now : Phase} (hphase : s.phase = now)
    (hrunning : now ≠ .ended) {jobs : Jobs R}
    (hjobs : CancelledIn jobs ctx.jobId → CancelledIn s.store.jobs ctx.jobId) (next : Phase)
    (hbefore : next.beforeSave = true → now.beforeSave = true)
    (hafter : next.afterSave = true → now.afterSave = true) :
    Inv ctx { s.withJobs jobs with phase := next } others := by
  subst hphase
  exact
    { clean := h.clean
      before := fun hnext => h.before (hbefore hnext)
      after := fun hnext => h.after (hafter hnext)
      status := fun hcancelled => absurd (hjobs hcancelled) (h.not_cancelled hrunning) }

theorem Inv.goOn (h : Inv ctx s others) {now : Phase} (hphase : s.phase = now)
    (hrunning : now ≠ .ended) (next : Phase)
    (hbefore : next.beforeSave = true → now.beforeSave = true)
    (hafter : next.afterSave = true → now.afterSave = true) :
    Inv ctx { s with phase := next } others :=
  h.goOnWith hphase hrunning id next hbefore hafter

theorem Inv.setEvent (h : Inv ctx s others) : Inv ctx { s with event := true } others where
  clean := h.clean
  before := h.before
  after := h.after
  status := h.status

theorem Inv.withStore (h : Inv ctx s others) {store : BuildJobs.Store R}
    (hjobs : CancelledIn store.jobs ctx.jobId → CancelledIn s.store.jobs ctx.jobId) :
    Inv ctx { s with store } others where
  clean := h.clean
  before := h.before
  after := h.after
  status hcancelled := h.status (hjobs hcancelled)

theorem Inv.cancel (h : Inv ctx s others) {now : Phase} (hphase : s.phase = now)
    (hbefore : now.beforeSave = true) (jobs : Jobs R) :
    Inv ctx { s.withJobs jobs with phase := .ended } others where
  clean := h.clean
  before hnext := by cases hnext
  after hnext := by cases hnext
  status _ := ⟨rfl, h.before (by rw [hphase, hbefore])⟩

theorem Inv.stop (h : Inv ctx s others)
    (hsaved : CancelledIn s.store.jobs ctx.jobId → s.saved = false) :
    Inv ctx { s with phase := .ended } others where
  clean := h.clean
  before hnext := by cases hnext
  after hnext := by cases hnext
  status hcancelled := ⟨rfl, hsaved hcancelled⟩

theorem Inv.reconcile (h : Inv ctx s others) {now : Phase} (hphase : s.phase = now)
    (hrunning : now ≠ .ended) (hafter : now.afterSave = true) (db : Remediation.Database) :
    Inv ctx { s with db, phase := .completing } others := by
  subst hphase
  exact
    { clean := fun hsaved => by rw [h.after hafter] at hsaved; cases hsaved
      before := fun hnext => by cases hnext
      after := fun hnext => by cases hnext
      status := fun hcancelled => absurd hcancelled (h.not_cancelled hrunning) }

/-- A statement that goes through keeps what holds. -/
theorem Inv.proceed (h : Inv ctx s others) (current : Instant) :
    Inv ctx (proceed ctx s current) others := by
  unfold BuildCancellation.proceed
  cases hphase : s.phase with
  | waiting => exact h.goOn hphase nofun .starting id id
  | starting =>
      refine h.goOnWith hphase nofun cancelledIn_of_start _ (fun _ => rfl) ?_
      split <;> exact nofun
  | lookUp =>
      dsimp only
      split_ifs
      · exact h.setEvent.goOn hphase nofun .check id id
      · exact h.goOn hphase nofun .ended nofun id
  | check =>
      refine h.goOn hphase nofun _ (fun _ => rfl) ?_
      split <;> exact nofun
  | stopping => exact h.cancel hphase rfl _
  | building => exact h
  | built snapshot =>
      refine h.goOn hphase nofun _ (fun _ => rfl) ?_
      split <;> exact nofun
  | saving snapshot => exact h
  | rebinding canonicalAssetId =>
      dsimp only
      split_ifs
      · exact h.goOnWith hphase nofun cancelledIn_of_rebind (.reconciling canonicalAssetId) nofun id
      · exact h.goOn hphase nofun (.reconciling canonicalAssetId) nofun id
  | reconciling canonicalAssetId => exact h.reconcile hphase nofun rfl _
  | completing =>
      refine h.goOnWith hphase nofun (fun hcancelled => ?_) .capturing nofun nofun
      exact cancelledIn_of_finish (.inr (nofun : Outcome.completed ≠ .cancelled)) hcancelled
  | capturing => exact h.goOn hphase nofun .ended nofun nofun
  | cancelling message => exact h.cancel hphase rfl _
  | failing message =>
      refine h.goOnWith hphase nofun (fun hcancelled => ?_) .ended nofun nofun
      exact cancelledIn_of_finish (.inr (nofun : Outcome.failed ≠ .cancelled)) hcancelled
  | ended => exact h

theorem Inv.poll (h : Inv ctx s others) : Inv ctx (poll s) others := by
  unfold BuildCancellation.poll
  cases hphase : s.phase with
  | building =>
      refine h.goOn hphase nofun _ (fun _ => rfl) ?_
      split <;> exact nofun
  | _ => exact h

theorem Inv.build (h : Inv ctx s others) (answers : Answers) :
    Inv ctx (build ctx s answers) others := by
  unfold BuildCancellation.build
  cases hphase : s.phase with
  | building =>
      dsimp only
      split
      · exact h.goOn hphase nofun _ id id
      · exact h.goOn hphase nofun _ nofun id
  | _ => exact h

theorem Inv.save (h : Inv ctx s others) (canonicalAssetId : String) (current : Instant) :
    Inv ctx (save ctx s canonicalAssetId current) others := by
  unfold BuildCancellation.save
  cases hphase : s.phase with
  | saving snapshot =>
      dsimp only
      split
      · have hrunning : ¬ CancelledIn s.store.jobs ctx.jobId :=
          h.not_cancelled (by rw [hphase]; exact nofun)
        exact
          { clean := nofun
            before := nofun
            after := fun _ => rfl
            status := fun hcancelled => absurd hcancelled hrunning }
      · exact h.goOn hphase nofun _ nofun id
  | _ => exact h

theorem Inv.fail (h : Inv ctx s others) (message : String) : Inv ctx (fail s message) others := by
  unfold BuildCancellation.fail
  cases hphase : s.phase with
  | ended => exact h
  | waiting => exact h.goOn hphase nofun _ nofun nofun
  | cancelling => exact h.goOn hphase nofun _ nofun nofun
  | failing => exact h.goOn hphase nofun _ nofun nofun
  | _ => exact h.goOn hphase nofun _ nofun nofun

theorem Inv.work (h : Inv ctx s others) (w : Work) : Inv ctx (work ctx s w) others := by
  cases w with
  | proceed current => exact h.proceed current
  | poll => exact h.poll
  | build answers => exact h.build answers
  | save canonicalAssetId current => exact h.save canonicalAssetId current
  | fail message => exact h.fail message

/--
A job is cancelled by its worker only, and only without a save; until then the stored data is what
the others make of it.
-/
theorem Inv.step (h : Inv ctx s others) (e : Event R) :
    Inv ctx (step ctx s e) (otherWrites [e] others) := by
  cases e with
  | work w => exact h.work w
  | progress stage progressPercent counters stats current =>
      exact h.withStore cancelledIn_of_update
  | requestCancel current => exact h.withStore cancelledIn_of_requestCancel
  | setEvent => exact h.setEvent
  | other e =>
      unfold BuildCancellation.step
      dsimp only
      split_ifs with hforeign
      · exact h.withStore (cancelledIn_of_foreign hforeign)
      · exact h
  | write f =>
      exact
        { clean := fun hsaved => congrArg f (h.clean hsaved)
          before := h.before
          after := h.after
          status := h.status }
  | restart current =>
      have hjobs : Inv ctx
          (s.withJobs (interruptActiveAssetCardBuildJobs s.store.jobs current)) others :=
        h.withStore cancelledIn_of_interrupt
      exact hjobs.stop fun hcancelled => (hjobs.status hcancelled).2

end Invariant

theorem otherWrites_cons (e : Event R) (es : List (Event R)) (db : Remediation.Database) :
    otherWrites (e :: es) db = otherWrites es (otherWrites [e] db) := by
  cases e <;> rfl

theorem Inv.run {ctx : Context} {es : List (Event R)} :
    ∀ {s : System R} {others : Remediation.Database}, Inv ctx s others →
      Inv ctx (es.foldl (BuildCancellation.step ctx) s) (otherWrites es others) := by
  induction es with
  | nil => exact id
  | cons e es ih =>
      intro s others h
      rw [otherWrites_cons]
      exact ih (h.step e)

/--
A job that was not cancelled from the start has, when it is stored as cancelled, changed nothing:
the cards, the groups, the findings and the passport links are what they were before the job, up
to what the other writers of the same time have made of them.
-/
theorem cancelled_build_changes_nothing {ctx : Context} {store : BuildJobs.Store R}
    {db : Remediation.Database} {event : Bool} (es : List (Event R))
    (hjob : ¬ CancelledIn store.jobs ctx.jobId)
    (hcancelled : CancelledIn
      (es.foldl (BuildCancellation.step ctx) (System.initial store db event)).store.jobs
      ctx.jobId) :
    (es.foldl (BuildCancellation.step ctx) (System.initial store db event)).db =
      otherWrites es db := by
  have hinitial : Inv ctx (System.initial store db event) db := Inv.initial hjob
  have h : Inv ctx (es.foldl (BuildCancellation.step ctx) (System.initial store db event))
      (otherWrites es db) := hinitial.run
  exact h.clean (h.status hcancelled).2

/-- The worker of the only job, on the asset a. -/
def oneJob : Context where
  jobId := "job-1"
  request :=
    { assetId := "a", limitPerCollection := 100, maxItemsPerCollection := 100, uuid5 := id }
  hasParentOperation := false
  settings := plainSettings
  passports := fun _ => []

/-- The job is admitted and taken up, and cancelled while the first answers are awaited. -/
def cancelledWhileBuilding : List (Event Unit) :=
  [.other (.create [{ jobId := some "job-1", assetId := some "a", operation := some "refresh",
                      request := some () }] 1),
    .other (.commit true), .work (.proceed 2), .work (.proceed 2), .work (.proceed 2),
    .requestCancel 3, .setEvent, .work .poll, .work (.proceed 4)]

/-- A job that is cancelled between two requests leaves the empty tables empty. -/
theorem cancelledWhileBuilding_changes_nothing :
    (cancelledWhileBuilding.foldl (BuildCancellation.step oneJob)
        (System.initial initial (emptyDatabase defaultPolicy) false)).db =
      otherWrites cancelledWhileBuilding (emptyDatabase defaultPolicy) := by
  refine cancelled_build_changes_nothing cancelledWhileBuilding ?_ ?_
  · rintro ⟨row, hrow, -⟩
    cases hrow
  · unfold CancelledIn
    decide +kernel

end BuildCancellation
end AssetCard
end MpvmApp
