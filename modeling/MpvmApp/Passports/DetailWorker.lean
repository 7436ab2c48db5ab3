import Mathlib.Data.List.Perm.Subperm
import MpvmApp.Lib.Runs
import MpvmApp.Passports.DetailJobs
import MpvmApp.Sql.Json

/-!
# The worker of a detail job

A detail job fetches the details of its passports with a window of futures.  The outcomes are
collected as the futures complete, in any order, and saved in batches; after each outcome the next
id is submitted.  The job can be cancelled at any moment, and every statement may fail.

Main definitions:

- Definition `refreshCandidates`: the passports whose details are fetched.
- Definition `step`: the worker, its futures and what others write into the row of the job.
- Definition `Inv`: where the ids and their outcomes are.

Main results:

- Theorem `inv_step`: every step keeps the ids and their outcomes.
- Theorem `detail_job_conserves`: after any run each id is fetched and saved at most once,
  and a job that completed has counted every id.
-/

namespace MpvmApp
namespace Passports
namespace DetailWorker

open Operations Remediation Runs Sql DetailJobs

/-! ## The passports of the job -/

/-- The age of the details of a stored passport, after `_parse_timestamp`. -/
structure PassportAge where
  internalId : String
  hasDetail : Bool
  detailUpdatedAt : Option Int

/-- The details of the passport are there and not older than the limit. -/
def PassportAge.isFresh (cutoff : Int) (row : PassportAge) : Bool :=
  row.hasDetail && row.detailUpdatedAt.any fun updatedAt => decide (cutoff ≤ updatedAt)

/-- `vulnerability_passport_detail_refresh_candidates`. -/
def refreshCandidates (internalIds : List (Option String)) (rows : List PassportAge)
    (cutoff : Int) : Candidates :=
  let ordered := fromKeys (internalIds.filterMap cleanText)
  let isFresh := fun internalId =>
    (rows.find? fun row => decide (row.internalId = internalId)).any (PassportAge.isFresh cutoff)
  { requested := ordered
    eligible := ordered.filter fun internalId => !isFresh internalId
    skippedFresh := ordered.filter isFresh }

theorem nodup_eligible (internalIds : List (Option String)) (rows : List PassportAge)
    (cutoff : Int) :
    (refreshCandidates internalIds rows cutoff).eligible.Nodup :=
  (nodup_fromKeys _).filter _

/-! ## The worker -/

/-- What `run_vulnerability_passport_detail_job` is called with, besides the ids. -/
structure Settings where
  jobId : String
  workers : Int
  batchSize : Int

/-- What a future has: the details of a passport, or the text of an exception. -/
inductive Fetch where
  | detail (raw : Json)
  | error (text : String)

/-- The text of an exception is cut off. -/
def Fetch.clip : Fetch → Fetch
  | .detail raw => .detail raw
  | .error text => .error (String.ofList (text.toList.take 1000))

/-- The passport was loaded. -/
def Fetch.isDetail : Fetch → Bool
  | .detail _ => true
  | .error _ => false

/-- An id with what its future has. -/
abbrev Outcome := String × Fetch

/-- How a call ends: it may also have been done although it raised. -/
inductive Reply where
  | done
  | raised (reason : String)
  | lost (reason : String)

/-- The next thing that the worker does. -/
inductive Phase where
  | starting
  | rereading
  | checking
  | filling (left : Nat)
  | waiting
  | collecting (completed : List Outcome)
  | flushing (completed : List Outcome)
  | refilling (completed : List Outcome)
  | lastFlush
  | reading
  | reconciling (failedCount : Nat)
  | concluding (failedCount : Nat)
  | finishing (status message : String)
  | failing (reason : String)
  | ended

/--
The row of the job, the cancellation event, and the worker: the ids that are left, the futures
that run and those that are done, the two batches and the phase.  The calls of
`fetch_detail`, what they ended with and the outcomes that were saved are recorded.
-/
structure State where
  job : DetailJob
  cancelEvent : Bool
  rest : List String
  inFlight : List String
  resolved : List Outcome
  details : List (String × Json)
  errors : List (String × String)
  phase : Phase
  fetched : List String
  outcomes : List Outcome
  saved : List Outcome

/-- Before the worker, for the candidates of a job. -/
def State.initial (settings : Settings) (candidates : Candidates) (now : Instant) : State where
  job := candidates.job settings.jobId now
  cancelEvent := false
  rest := candidates.eligible
  inFlight := []
  resolved := []
  details := []
  errors := []
  phase := .starting
  fetched := []
  outcomes := []
  saved := []

/-- The outcomes of the two batches. -/
def State.batch (s : State) : List Outcome :=
  (s.details.map fun detail => (detail.1, Fetch.detail detail.2)) ++
    s.errors.map fun error => (error.1, Fetch.error error.2)

/-- A statement on the row of the job. -/
def State.write (s : State) (write : DetailJobWrite) (now : Instant) : State :=
  { s with job := if write.takes s.job then write.set now s.job else s.job }

/-- `submit_next`. -/
def submitNext (s : State) (reply : Reply) (submitted exhausted : Phase) : State :=
  if s.cancelEvent then { s with phase := exhausted }
  else
    match s.rest with
    | [] => { s with phase := exhausted }
    | id :: rest =>
        match reply with
        | .done =>
            { s with
              rest := rest
              inFlight := s.inFlight ++ [id]
              fetched := s.fetched ++ [id]
              phase := submitted }
        | .raised reason => { s with rest := rest, phase := .failing reason }
        | .lost reason =>
            { s with
              rest := rest
              inFlight := s.inFlight ++ [id]
              fetched := s.fetched ++ [id]
              phase := .failing reason }

/-- `save_vulnerability_passport_detail_job_batch`. -/
def State.save (settings : Settings) (s : State) (now : Instant) : State :=
  { s.write (.saveBatch settings.jobId s.details.length
      (s.errors.map fun error => [("internal_id", error.1), ("error", error.2)])) now with
    saved := s.saved ++ s.batch }

/-- `flush_batch`. -/
def flushBatch (settings : Settings) (s : State) (reply : Reply) (now : Instant) (next : Phase) :
    State :=
  if s.details.isEmpty && s.errors.isEmpty then { s with phase := next }
  else
    match reply with
    | .done => { s.save settings now with details := [], errors := [], phase := next }
    | .raised reason => { s with phase := .failing reason }
    | .lost reason => { s.save settings now with phase := .failing reason }

/-- A statement of the worker on the row of the job, and how it goes on. -/
def statement (s : State) (write : DetailJobWrite) (reply : Reply) (now : Instant)
    (next : Phase) (onRaise : String → Phase) : State :=
  match reply with
  | .done => { s.write write now with phase := next }
  | .raised reason => { s with phase := onRaise reason }
  | .lost reason => { s.write write now with phase := onRaise reason }

/-- A call that does not change the row of the job. -/
def call (s : State) (reply : Reply) (next : State) : State :=
  match reply with
  | .done => next
  | .raised reason | .lost reason => { s with phase := .failing reason }

/-- One outcome is put into its batch. -/
def collect (s : State) (completed : List Outcome) : State :=
  match completed with
  | [] => { s with phase := .waiting }
  | (id, .detail raw) :: rest =>
      { s with details := s.details ++ [(id, raw)], phase := .flushing rest }
  | (id, .error text) :: rest =>
      { s with errors := s.errors ++ [(id, text)], phase := .flushing rest }

/-- The next thing that `run_vulnerability_passport_detail_job` does. -/
def advance (settings : Settings) (s : State) (reply : Reply) (now : Instant) : State :=
  match s.phase with
  | .starting =>
      statement s (.start settings.jobId) reply now
        (if (DetailJobWrite.start settings.jobId).takes s.job then .checking else .rereading)
        .failing
  | .rereading =>
      call s reply
        (if s.job.cancelRequested then { s with cancelEvent := true, phase := .checking }
        else { s with phase := .ended })
  | .checking =>
      { s with
        phase :=
          if s.cancelEvent then .finishing "cancelled" "Cancelled before start."
          else .filling (max 1 settings.workers).toNat }
  | .filling 0 => { s with phase := .waiting }
  | .filling (left + 1) => submitNext s reply (.filling left) .waiting
  | .waiting =>
      if s.inFlight.isEmpty && s.resolved.isEmpty then { s with phase := .lastFlush } else s
  | .collecting completed => collect s completed
  | .flushing completed =>
      if max 1 settings.batchSize ≤ ((s.details.length + s.errors.length : Nat) : Int) then
        flushBatch settings s reply now (.refilling completed)
      else { s with phase := .refilling completed }
  | .refilling completed => submitNext s reply (.collecting completed) (.collecting completed)
  | .lastFlush => flushBatch settings s reply now .reading
  | .reading =>
      call s reply
        { s with
          phase :=
            if s.job.loadedCount = 0 then .concluding s.job.failedCount
            else .reconciling s.job.failedCount }
  | .reconciling failedCount => call s reply { s with phase := .concluding failedCount }
  | .concluding failedCount =>
      { s with
        phase :=
          if s.cancelEvent then .finishing "cancelled" "Cancelled by operator."
          else if failedCount = 0 then .finishing "completed" "Detail sync completed."
          else .finishing "completed_with_errors"
            "Detail sync finished with individual passport errors." }
  | .finishing status message =>
      statement s (.finish settings.jobId status (some message)) reply now .ended .failing
  | .failing reason =>
      statement s (.finish settings.jobId "failed"
        (some (String.ofList (("Detail sync failed: " ++ reason).toList.take 2000)))) reply now
        .ended fun _ => .ended
  | .ended => s

/-- What can happen. -/
inductive Event where
  /-- The worker goes on, and a call that it makes ends so. -/
  | next (reply : Reply) (now : Instant)
  /-- `wait` returns futures that are done, in some order. -/
  | wake (ids : List String)
  /-- A future is done. -/
  | resolve (id : String) (fetch : Fetch)
  /-- `request_vulnerability_passport_detail_job_cancel`. -/
  | requestCancel (now : Instant)
  /-- `cancel_event.set`. -/
  | setEvent
  /-- `interrupt_active_vulnerability_passport_detail_jobs`. -/
  | interrupt (now : Instant)

/-- A future that runs is done. -/
def resolve (s : State) (id : String) (fetch : Fetch) : State :=
  if id ∈ s.inFlight then
    { s with
      inFlight := s.inFlight.erase id
      resolved := s.resolved ++ [(id, fetch.clip)]
      outcomes := s.outcomes ++ [(id, fetch.clip)] }
  else s

/-- The futures of these ids. -/
def futuresOf (resolved : List Outcome) (ids : List String) : List Outcome :=
  ids.filterMap fun id => resolved.find? fun outcome => decide (outcome.1 = id)

/-- `wait` returns some of the futures that are done, at least one, in the order of the ids. -/
def wake (s : State) (ids : List String) : State :=
  match s.phase with
  | .waiting =>
      if ids.Nodup ∧ ids ≠ [] ∧ ∀ id ∈ ids, id ∈ s.resolved.map Prod.fst then
        { s with
          resolved := s.resolved.filter fun outcome => !decide (outcome.1 ∈ ids)
          phase := .collecting (futuresOf s.resolved ids) }
      else s
  | _ => s

/-- What happens. -/
def step (settings : Settings) (s : State) : Event → State
  | .next reply now => advance settings s reply now
  | .wake ids => wake s ids
  | .resolve id fetch => resolve s id fetch
  | .requestCancel now => s.write (.requestCancel settings.jobId) now
  | .setEvent => { s with cancelEvent := true }
  | .interrupt now => s.write .interruptActive now

/-! ## Where the ids and their outcomes are -/

/-- The completed futures that are not collected yet. -/
def Phase.taken : Phase → List Outcome
  | .collecting completed | .flushing completed | .refilling completed => completed
  | _ => []

/-- The worker has not come to its end, and has met no exception. -/
def Phase.isOpen : Phase → Bool
  | .failing _ | .ended => false
  | _ => true

/-- The statuses of a job that has gone through its ids. -/
def doneStatuses : List String :=
  ["completed", "completed_with_errors"]

/-- The outcomes that the worker has and has not saved. -/
def State.held (s : State) : List Outcome :=
  s.resolved ++ s.phase.taken ++ s.batch

/-- The counters of the job agree with its status. -/
def CountsAll (eligible : List String) (job : DetailJob) (status : String) : Prop :=
  status ∈ doneStatuses →
    job.loadedCount + job.failedCount = eligible.length ∧
      (status = "completed" ↔ job.failedCount = 0)

/-- What holds before the next thing that the worker does. -/
def Ready (eligible : List String) (s : State) : Phase → Prop
  | .filling left =>
      s.cancelEvent = false → s.rest ≠ [] → 0 < left + s.inFlight.length + s.resolved.length
  | .waiting => s.cancelEvent = false → s.rest ≠ [] → 0 < s.inFlight.length + s.resolved.length
  | .collecting completed =>
      s.cancelEvent = false → s.rest ≠ [] →
        0 < s.inFlight.length + s.resolved.length + completed.length
  | .lastFlush => s.inFlight = [] ∧ s.resolved = [] ∧ (s.cancelEvent = false → s.rest = [])
  | .reading =>
      s.inFlight = [] ∧ s.resolved = [] ∧ s.batch = [] ∧ (s.cancelEvent = false → s.rest = [])
  | .reconciling failedCount | .concluding failedCount =>
      (s.cancelEvent = false → s.job.loadedCount + s.job.failedCount = eligible.length) ∧
        failedCount = s.job.failedCount
  | .finishing status _ => CountsAll eligible s.job status
  | _ => True

/-- Where the ids and their outcomes are. -/
structure Inv (settings : Settings) (eligible : List String) (s : State) : Prop where
  jobId : s.job.jobId = settings.jobId
  order : (s.fetched ++ s.rest).Sublist eligible
  full : s.phase.isOpen = true → s.fetched ++ s.rest = eligible
  flight : s.fetched.Perm (s.inFlight ++ s.outcomes.map Prod.fst)
  kept : s.phase.isOpen = true → s.outcomes.Perm (s.held ++ s.saved)
  savedOnce : s.saved.Subperm s.outcomes
  loaded : s.job.loadedCount = s.saved.countP fun outcome => outcome.2.isDetail
  failed : s.job.failedCount = s.saved.countP fun outcome => !outcome.2.isDetail
  processed : s.job.processedCount = s.job.loadedCount + s.job.failedCount
  ready : Ready eligible s s.phase
  counts : CountsAll eligible s.job s.job.status
  undone : s.job.status ∈ doneStatuses → s.phase.isOpen = true →
    (s.phase = .starting ∨ s.phase = .rereading) ∧ s.job.cancelRequested = false

section Inv

variable {settings : Settings} {eligible : List String} {s : State}

theorem Inv.notDone (h : Inv settings eligible s) (hopen : s.phase.isOpen = true)
    (hstarting : s.phase ≠ .starting) (hrereading : s.phase ≠ .rereading) :
    s.job.status ∉ doneStatuses := by
  intro hdone
  rcases (h.undone hdone hopen).1 with hphase | hphase
  · exact hstarting hphase
  · exact hrereading hphase

/-- The worker goes on without a change of the job. -/
theorem Inv.goTo (h : Inv settings eligible s) {next : Phase} (hopen : s.phase.isOpen = true)
    (hundone : s.job.status ∈ doneStatuses →
      (next = .starting ∨ next = .rereading) ∧ s.job.cancelRequested = false)
    (htaken : next.taken = s.phase.taken) (hready : Ready eligible s next) :
    Inv settings eligible { s with phase := next } where
  jobId := h.jobId
  order := h.order
  full := fun _ => h.full hopen
  flight := h.flight
  kept := fun _ => by
    have hkept := h.kept hopen
    unfold State.held at hkept ⊢
    rw [← htaken] at hkept
    exact hkept
  savedOnce := h.savedOnce
  loaded := h.loaded
  failed := h.failed
  processed := h.processed
  ready := by
    cases next <;> exact hready
  counts := h.counts
  undone := fun hstatus _ => hundone hstatus

theorem Inv.goOn (h : Inv settings eligible s) {next : Phase} (hopen : s.phase.isOpen = true)
    (hdone : s.job.status ∉ doneStatuses) (htaken : next.taken = s.phase.taken)
    (hready : Ready eligible s next) :
    Inv settings eligible { s with phase := next } :=
  h.goTo hopen (fun hstatus => absurd hstatus hdone) htaken hready

theorem Inv.stop (h : Inv settings eligible s) {next : Phase} (hnext : next.isOpen = false) :
    Inv settings eligible { s with phase := next } where
  jobId := h.jobId
  order := h.order
  full := fun hopen => absurd (hnext.symm.trans hopen) Bool.false_ne_true
  flight := h.flight
  kept := fun hopen => absurd (hnext.symm.trans hopen) Bool.false_ne_true
  savedOnce := h.savedOnce
  loaded := h.loaded
  failed := h.failed
  processed := h.processed
  ready := by
    cases next <;> first | exact trivial | cases hnext
  counts := h.counts
  undone := fun _ hopen => absurd (hnext.symm.trans hopen) Bool.false_ne_true

/-- The row of the job gets another status, while its counters stay. -/
theorem Inv.mark (h : Inv settings eligible s) {job : DetailJob}
    (hjobId : job.jobId = s.job.jobId) (hprocessed : job.processedCount = s.job.processedCount)
    (hloaded : job.loadedCount = s.job.loadedCount) (hfailed : job.failedCount = s.job.failedCount)
    (hcounts : CountsAll eligible job job.status)
    (hundone : job.status ∈ doneStatuses → s.phase.isOpen = true →
      (s.phase = .starting ∨ s.phase = .rereading) ∧ job.cancelRequested = false) :
    Inv settings eligible { s with job := job } where
  jobId := hjobId.trans h.jobId
  order := h.order
  full := h.full
  flight := h.flight
  kept := h.kept
  savedOnce := h.savedOnce
  loaded := hloaded.trans h.loaded
  failed := hfailed.trans h.failed
  processed := by rw [hprocessed, hloaded, hfailed, h.processed]
  ready := by
    have hready := h.ready
    unfold Ready CountsAll at hready ⊢
    dsimp only at hready ⊢
    rw [hloaded, hfailed]
    exact hready
  counts := hcounts
  undone := hundone

theorem Inv.writeOpen (h : Inv settings eligible s) {write : DetailJobWrite} {now : Instant}
    (hcounters : (write.set now s.job).jobId = s.job.jobId ∧
      (write.set now s.job).processedCount = s.job.processedCount ∧
      (write.set now s.job).loadedCount = s.job.loadedCount ∧
      (write.set now s.job).failedCount = s.job.failedCount)
    (hstatus : (write.set now s.job).status ∉ doneStatuses) :
    Inv settings eligible (s.write write now) := by
  unfold State.write
  split
  · obtain ⟨hjobId, hprocessed, hloaded, hfailed⟩ := hcounters
    exact h.mark hjobId hprocessed hloaded hfailed (fun hdone => absurd hdone hstatus)
      fun hdone => absurd hdone hstatus
  · exact h

theorem Inv.writeFinish (h : Inv settings eligible s) {id status : String}
    {message : Option String} {now : Instant} {next : Phase} (hnext : next.isOpen = false)
    (hcounts : CountsAll eligible s.job status) :
    Inv settings eligible { s.write (.finish id status message) now with phase := next } := by
  have hstop := h.stop hnext
  unfold State.write
  split
  · exact hstop.mark rfl rfl rfl rfl hcounts
      fun _ hopen => absurd (hnext.symm.trans hopen) Bool.false_ne_true
  · exact hstop

/-- An id is taken from those that are left, and given to a future. -/
theorem Inv.submitted (h : Inv settings eligible s) {id : String} {rest : List String}
    (hrest : s.rest = id :: rest) (hopen : s.phase.isOpen = true)
    (hdone : s.job.status ∉ doneStatuses) {next : Phase} (htaken : next.taken = s.phase.taken)
    (hready : Ready eligible
      { s with rest := rest, inFlight := s.inFlight ++ [id], fetched := s.fetched ++ [id] } next) :
    Inv settings eligible
      { s with
        rest := rest
        inFlight := s.inFlight ++ [id]
        fetched := s.fetched ++ [id]
        phase := next } where
  jobId := h.jobId
  order := by
    have horder := h.order
    rw [hrest] at horder
    simpa using horder
  full := fun _ => by
    have hfull := h.full hopen
    rw [hrest] at hfull
    simpa using hfull
  flight := by
    have hflight := h.flight.append_right [id]
    refine hflight.trans ?_
    rw [List.append_assoc, List.append_assoc]
    exact List.perm_append_comm.append_left _
  kept := fun _ => by
    have hkept := h.kept hopen
    unfold State.held at hkept ⊢
    rw [← htaken] at hkept
    exact hkept
  savedOnce := h.savedOnce
  loaded := h.loaded
  failed := h.failed
  processed := h.processed
  ready := by
    cases next <;> exact hready
  counts := h.counts
  undone := fun hstatus => absurd hstatus hdone

theorem Inv.dropped (h : Inv settings eligible s) {id : String} {rest : List String}
    (hrest : s.rest = id :: rest) (reason : String) :
    Inv settings eligible { s with rest := rest, phase := .failing reason } where
  jobId := h.jobId
  order := by
    have horder := h.order
    rw [hrest] at horder
    exact (List.Sublist.append_left (List.sublist_cons_self id rest) _).trans horder
  full := fun hopen => nomatch hopen
  flight := h.flight
  kept := fun hopen => nomatch hopen
  savedOnce := h.savedOnce
  loaded := h.loaded
  failed := h.failed
  processed := h.processed
  ready := trivial
  counts := h.counts
  undone := fun _ hopen => nomatch hopen

/-- The next id is submitted, unless the job is cancelled or there is none left. -/
theorem inv_submitNext (h : Inv settings eligible s) (hopen : s.phase.isOpen = true)
    (hdone : s.job.status ∉ doneStatuses) (reply : Reply) {submitted exhausted : Phase}
    (htaken : submitted.taken = s.phase.taken) (htaken' : exhausted.taken = s.phase.taken)
    (hexhausted : (s.cancelEvent = false → s.rest = []) → Ready eligible s exhausted)
    (hsubmitted : ∀ id rest, s.rest = id :: rest → Ready eligible
      { s with rest := rest, inFlight := s.inFlight ++ [id], fetched := s.fetched ++ [id] }
      submitted) :
    Inv settings eligible (submitNext s reply submitted exhausted) := by
  unfold submitNext
  split
  · rename_i hcancel
    exact h.goOn hopen hdone htaken' (hexhausted fun hnot => by rw [hcancel] at hnot; cases hnot)
  · split
    · rename_i hrest
      exact h.goOn hopen hdone htaken' (hexhausted fun _ => hrest)
    · rename_i id rest hrest
      have hnext := h.submitted hrest hopen hdone htaken (hsubmitted id rest hrest)
      cases reply with
      | done => exact hnext
      | raised reason => exact h.dropped hrest reason
      | lost reason =>
          have hstop : (Phase.failing reason).isOpen = false := rfl
          exact hnext.stop hstop

theorem batch_countP (s : State) :
    (s.batch.countP fun outcome => outcome.2.isDetail) = s.details.length ∧
      (s.batch.countP fun outcome => !outcome.2.isDetail) = s.errors.length := by
  unfold State.batch
  simp [List.countP_append, List.countP_map, Function.comp_def, Fetch.isDetail]

theorem save_counters (h : Inv settings eligible s) (now : Instant) :
    (s.save settings now).job.loadedCount = s.job.loadedCount + s.details.length ∧
      (s.save settings now).job.failedCount = s.job.failedCount + s.errors.length ∧
      (s.save settings now).job.processedCount =
        s.job.processedCount + (s.details.length + s.errors.length) ∧
      (s.save settings now).job.status = s.job.status ∧
      (s.save settings now).job.jobId = s.job.jobId := by
  have htakes : ∀ n errors, (DetailJobWrite.saveBatch settings.jobId n errors).takes s.job = true :=
    fun n errors => decide_eq_true h.jobId
  unfold State.save State.write
  rw [if_pos (htakes _ _)]
  simp [DetailJobWrite.set]

/-- What has been saved after a batch, whatever the worker does with its lists then. -/
theorem Inv.saved (h : Inv settings eligible s) (hopen : s.phase.isOpen = true)
    (hdone : s.job.status ∉ doneStatuses) (now : Instant) {details : List (String × Json)}
    {errors : List (String × String)} {next : Phase}
    (hkept : next.isOpen = true → details = [] ∧ errors = [] ∧ next.taken = s.phase.taken)
    (hready : Ready eligible
      { s.save settings now with details := details, errors := errors } next) :
    Inv settings eligible
      { s.save settings now with details := details, errors := errors, phase := next } := by
  obtain ⟨hloaded, hfailed, hprocessed, hstatus, hjobId⟩ := save_counters h now
  obtain ⟨hdetails, herrors⟩ := batch_countP s
  have hperm := h.kept hopen
  have hdone' : (s.save settings now).job.status ∉ doneStatuses := by
    rw [hstatus]
    exact hdone
  exact {
    jobId := hjobId.trans h.jobId
    order := h.order
    full := fun _ => h.full hopen
    flight := h.flight
    kept := fun hnext => by
      obtain ⟨rfl, rfl, htaken⟩ := hkept hnext
      refine hperm.trans ?_
      show (s.resolved ++ s.phase.taken ++ s.batch ++ s.saved).Perm
        (s.resolved ++ next.taken ++ [] ++ (s.saved ++ s.batch))
      rw [htaken, List.append_nil, List.append_assoc _ s.batch]
      exact List.perm_append_comm.append_left _
    savedOnce := by
      refine hperm.subperm_left.2 ?_
      show (s.saved ++ s.batch).Subperm (s.resolved ++ s.phase.taken ++ s.batch ++ s.saved)
      rw [List.append_assoc (s.resolved ++ s.phase.taken)]
      have hlast : (s.batch ++ s.saved).Subperm
          (s.resolved ++ s.phase.taken ++ (s.batch ++ s.saved)) :=
        (List.sublist_append_right _ _).subperm
      exact List.perm_append_comm.subperm_right.1 hlast
    loaded := by
      show (s.save settings now).job.loadedCount = (s.saved ++ s.batch).countP _
      rw [hloaded, List.countP_append, hdetails, h.loaded]
    failed := by
      show (s.save settings now).job.failedCount = (s.saved ++ s.batch).countP _
      rw [hfailed, List.countP_append, herrors, h.failed]
    processed := by
      show (s.save settings now).job.processedCount = (s.save settings now).job.loadedCount +
        (s.save settings now).job.failedCount
      rw [hprocessed, hloaded, hfailed, h.processed]
      omega
    ready := by
      cases next <;> exact hready
    counts := fun hstatus' => absurd hstatus' hdone'
    undone := fun hstatus' => absurd hstatus' hdone' }

/-- A batch is saved, or there is nothing to save. -/
theorem inv_flushBatch (h : Inv settings eligible s) (hopen : s.phase.isOpen = true)
    (hdone : s.job.status ∉ doneStatuses) (reply : Reply) (now : Instant) {next : Phase}
    (htaken : next.taken = s.phase.taken)
    (hempty : s.details = [] → s.errors = [] → Ready eligible s next)
    (hsaved : Ready eligible
      { s.save settings now with details := [], errors := [] } next) :
    Inv settings eligible (flushBatch settings s reply now next) := by
  unfold flushBatch
  split
  · rename_i hnothing
    rw [Bool.and_eq_true, List.isEmpty_iff, List.isEmpty_iff] at hnothing
    exact h.goOn hopen hdone htaken (hempty hnothing.1 hnothing.2)
  · cases reply with
    | done => exact h.saved hopen hdone now (fun _ => ⟨rfl, rfl, htaken⟩) hsaved
    | raised reason =>
        have hstop : (Phase.failing reason).isOpen = false := rfl
        exact h.stop hstop
    | lost reason =>
        have hnext : (Phase.failing reason).isOpen = true → s.details = [] ∧ s.errors = [] ∧
            (Phase.failing reason).taken = s.phase.taken := fun hopen' => nomatch hopen'
        exact h.saved hopen hdone now hnext trivial

/-- One outcome is put into its batch. -/
theorem Inv.collected (h : Inv settings eligible s) {outcome : Outcome} {rest : List Outcome}
    (hphase : s.phase = .collecting (outcome :: rest)) {details : List (String × Json)}
    {errors : List (String × String)}
    (hbatch : (State.batch { s with details := details, errors := errors }).Perm
      (outcome :: s.batch)) :
    Inv settings eligible
      { s with details := details, errors := errors, phase := .flushing rest } where
  jobId := h.jobId
  order := h.order
  full := fun _ => h.full (by rw [hphase]; rfl)
  flight := h.flight
  kept := fun _ => by
    have hkept := h.kept (by rw [hphase]; rfl)
    unfold State.held at hkept
    rw [hphase] at hkept
    refine hkept.trans (List.Perm.append_right _ ?_)
    show (s.resolved ++ outcome :: rest ++ s.batch).Perm
      (s.resolved ++ rest ++ State.batch { s with details := details, errors := errors })
    rw [List.append_assoc, List.append_assoc, List.cons_append]
    refine List.Perm.append_left _ ?_
    exact List.perm_middle.symm.trans (hbatch.symm.append_left rest)
  savedOnce := h.savedOnce
  loaded := h.loaded
  failed := h.failed
  processed := h.processed
  ready := trivial
  counts := h.counts
  undone := fun hstatus _ => by
    refine absurd hstatus (h.notDone ?_ ?_ ?_)
    · rw [hphase]
      rfl
    · rw [hphase]
      exact fun h => nomatch h
    · rw [hphase]
      exact fun h => nomatch h

theorem inv_collect (h : Inv settings eligible s) {completed : List Outcome}
    (hphase : s.phase = .collecting completed) :
    Inv settings eligible (collect s completed) := by
  have hready := h.ready
  rw [hphase] at hready
  match completed with
  | [] =>
      have hdone := h.notDone (by rw [hphase]; rfl) (by rw [hphase]; exact fun h => nomatch h)
        (by rw [hphase]; exact fun h => nomatch h)
      exact h.goOn (by rw [hphase]; rfl) hdone (by rw [hphase]; rfl) hready
  | (id, .detail raw) :: rest =>
      refine h.collected hphase ?_
      unfold State.batch
      rw [List.map_append, List.append_assoc]
      exact List.perm_middle
  | (id, .error text) :: rest =>
      refine h.collected hphase ?_
      unfold State.batch
      rw [List.map_append, ← List.append_assoc]
      exact List.perm_append_singleton _ _

/-- A future that is done still counts for the window. -/
theorem Ready.resolved {phase : Phase} (h : Ready eligible s phase) {id : String}
    {outcome : Outcome} {outcomes : List Outcome} (hid : id ∈ s.inFlight) :
    Ready eligible
      { s with
        inFlight := s.inFlight.erase id
        resolved := s.resolved ++ [outcome]
        outcomes := outcomes } phase := by
  have hlength : (s.inFlight.erase id).length + 1 = s.inFlight.length :=
    List.length_erase_add_one hid
  have hwindow : (s.inFlight.erase id).length + (s.resolved ++ [outcome]).length =
      s.inFlight.length + s.resolved.length := by
    rw [List.length_append, List.length_singleton]
    omega
  have hne : s.inFlight ≠ [] := List.ne_nil_of_mem hid
  cases phase with
  | filling left =>
      intro hcancel hrest
      have hlt : 0 < left + s.inFlight.length + s.resolved.length := h hcancel hrest
      rw [Nat.add_assoc, ← hwindow, ← Nat.add_assoc] at hlt
      exact hlt
  | waiting =>
      intro hcancel hrest
      have hlt : 0 < s.inFlight.length + s.resolved.length := h hcancel hrest
      rw [← hwindow] at hlt
      exact hlt
  | collecting completed =>
      intro hcancel hrest
      have hlt : 0 < s.inFlight.length + s.resolved.length + completed.length := h hcancel hrest
      rw [← hwindow] at hlt
      exact hlt
  | lastFlush => exact absurd h.1 hne
  | reading => exact absurd h.1 hne
  | starting | rereading | checking | flushing _ | refilling _ | failing _ | ended =>
      exact trivial
  | reconciling _ | concluding _ | finishing _ _ => exact h

/-- A future that is done is in flight no more. -/
theorem inv_resolve (h : Inv settings eligible s) (id : String) (fetch : Fetch) :
    Inv settings eligible (resolve s id fetch) := by
  unfold resolve
  split
  · rename_i hid
    exact {
      jobId := h.jobId
      order := h.order
      full := h.full
      flight := by
        refine h.flight.trans ?_
        rw [List.map_append, ← List.append_assoc]
        refine ((List.perm_cons_erase hid).append_right _).trans ?_
        exact (List.perm_append_singleton _ _).symm
      kept := fun hopen => by
        refine ((h.kept hopen).append_right _).trans ?_
        show (s.resolved ++ s.phase.taken ++ s.batch ++ s.saved ++ [(id, fetch.clip)]).Perm
          (s.resolved ++ [(id, fetch.clip)] ++ s.phase.taken ++ s.batch ++ s.saved)
        simp only [List.append_assoc]
        refine List.Perm.append_left _ ?_
        rw [← List.append_assoc, ← List.append_assoc, List.append_assoc s.phase.taken]
        exact List.perm_append_singleton _ _
      savedOnce := h.savedOnce.trans (List.sublist_append_left _ _).subperm
      loaded := h.loaded
      failed := h.failed
      processed := h.processed
      ready := h.ready.resolved hid
      counts := h.counts
      undone := h.undone }
  · exact h

theorem Inv.nodup_resolved (h : Inv settings eligible s) (hnodup : eligible.Nodup)
    (hopen : s.phase.isOpen = true) : (s.resolved.map Prod.fst).Nodup := by
  have hfetched : s.fetched.Nodup := (hnodup.sublist h.order).of_append_left
  have houtcomes : (s.outcomes.map Prod.fst).Nodup :=
    (h.flight.nodup_iff.1 hfetched).of_append_right
  have hheld := ((h.kept hopen).map Prod.fst).nodup_iff.1 houtcomes
  unfold State.held at hheld
  simp only [List.map_append, List.append_assoc] at hheld
  exact hheld.of_append_left

end Inv

theorem map_fst_futuresOf {resolved : List Outcome} {ids : List String}
    (h : ∀ id ∈ ids, id ∈ resolved.map Prod.fst) :
    (futuresOf resolved ids).map Prod.fst = ids := by
  unfold futuresOf
  induction ids with
  | nil => rfl
  | cons id ids ih =>
      obtain ⟨outcome, houtcome, hid⟩ := List.mem_map.1 (h id List.mem_cons_self)
      rw [List.filterMap_cons]
      cases hfind : resolved.find? fun outcome => decide (outcome.1 = id) with
      | none =>
          have hnone := List.find?_eq_none.1 hfind outcome houtcome
          exact absurd (decide_eq_true hid) hnone
      | some found =>
          have hfound := List.find?_some hfind
          rw [List.map_cons, of_decide_eq_true hfound,
            ih fun id' hid' => h id' (List.mem_cons_of_mem id hid')]

/-- The futures of some ids and the futures of the others. -/
theorem perm_futuresOf {resolved : List Outcome} {ids : List String}
    (hnodup : (resolved.map Prod.fst).Nodup) (hids : ids.Nodup)
    (h : ∀ id ∈ ids, id ∈ resolved.map Prod.fst) :
    resolved.Perm
      (futuresOf resolved ids ++ resolved.filter fun outcome => !decide (outcome.1 ∈ ids)) := by
  have hsplit :=
    List.filter_append_perm (fun outcome : Outcome => decide (outcome.1 ∈ ids)) resolved
  refine hsplit.symm.trans (List.Perm.append_right _ ?_)
  have hkeys := map_fst_futuresOf h
  have hfutures : (futuresOf resolved ids).Nodup := by
    refine List.Nodup.of_map Prod.fst ?_
    rw [hkeys]
    exact hids
  refine (List.perm_ext_iff_of_nodup ((List.Nodup.of_map Prod.fst hnodup).filter _) hfutures).2 ?_
  intro outcome
  rw [List.mem_filter, decide_eq_true_eq]
  constructor
  · rintro ⟨hmem, hid⟩
    rw [← hkeys] at hid
    obtain ⟨found, hfound, hsame⟩ := List.mem_map.1 hid
    have hresolved : found ∈ resolved := by
      obtain ⟨id, _, hfind⟩ := List.mem_filterMap.1 hfound
      exact List.mem_of_find?_eq_some hfind
    rwa [← List.inj_on_of_nodup_map hnodup hresolved hmem hsame]
  · intro hmem
    have hid := List.mem_map_of_mem (f := Prod.fst) hmem
    rw [hkeys] at hid
    obtain ⟨id, _, hfind⟩ := List.mem_filterMap.1 hmem
    exact ⟨List.mem_of_find?_eq_some hfind, hid⟩

section Step

variable {settings : Settings} {eligible : List String} {s : State}

theorem inv_wake (h : Inv settings eligible s) (hnodup : eligible.Nodup) (ids : List String) :
    Inv settings eligible (wake s ids) := by
  unfold wake
  split
  · rename_i hphase
    split
    · rename_i hvalid
      obtain ⟨hids, hne, hmem⟩ := hvalid
      have hopen : s.phase.isOpen = true := by
        rw [hphase]
        rfl
      have hdone := h.notDone hopen (by rw [hphase]; exact fun h => nomatch h)
        (by rw [hphase]; exact fun h => nomatch h)
      have hperm := perm_futuresOf (h.nodup_resolved hnodup hopen) hids hmem
      exact {
        jobId := h.jobId
        order := h.order
        full := fun _ => h.full hopen
        flight := h.flight
        kept := fun _ => by
          have hkept := h.kept hopen
          unfold State.held at hkept
          rw [hphase] at hkept
          refine hkept.trans (List.Perm.append_right _ (List.Perm.append_right _ ?_))
          show (s.resolved ++ []).Perm _
          rw [List.append_nil]
          exact hperm.trans List.perm_append_comm
        savedOnce := h.savedOnce
        loaded := h.loaded
        failed := h.failed
        processed := h.processed
        ready := by
          intro _ _
          have hlength : (futuresOf s.resolved ids).length = ids.length := by
            rw [← List.length_map (f := Prod.fst), map_fst_futuresOf hmem]
          have hpos : 0 < ids.length := List.length_pos_iff.2 hne
          show 0 < _ + _ + (futuresOf s.resolved ids).length
          omega
        counts := h.counts
        undone := fun hstatus => absurd hstatus hdone }
    · exact h
  · exact h

theorem inv_call (h : Inv settings eligible s) (reply : Reply) {next : State}
    (hnext : Inv settings eligible next) : Inv settings eligible (call s reply next) := by
  cases reply with
  | done => exact hnext
  | raised reason =>
      have hstop : (Phase.failing reason).isOpen = false := rfl
      exact h.stop hstop
  | lost reason =>
      have hstop : (Phase.failing reason).isOpen = false := rfl
      exact h.stop hstop

/-- The start of the job. -/
theorem inv_start (h : Inv settings eligible s) (hphase : s.phase = .starting) (reply : Reply)
    (now : Instant) :
    Inv settings eligible (statement s (.start settings.jobId) reply now
      (if (DetailJobWrite.start settings.jobId).takes s.job then .checking else .rereading)
      .failing) := by
  have hstatus : ((DetailJobWrite.start settings.jobId).set now s.job).status ∉ doneStatuses := by
    show (if s.job.cancelRequested then "cancelling" else "running") ∉ doneStatuses
    split <;> decide
  have hwrite : Inv settings eligible (s.write (.start settings.jobId) now) :=
    h.writeOpen ⟨rfl, rfl, rfl, rfl⟩ hstatus
  have hstop : ∀ reason, (Phase.failing reason).isOpen = false := fun _ => rfl
  cases reply with
  | raised reason => exact h.stop (hstop reason)
  | lost reason => exact hwrite.stop (hstop reason)
  | done =>
      have hopen : s.phase.isOpen = true := by
        rw [hphase]
        rfl
      by_cases htakes : (DetailJobWrite.start settings.jobId).takes s.job = true
      · have hdone : (s.write (.start settings.jobId) now).job.status ∉ doneStatuses := by
          unfold State.write
          rw [if_pos htakes]
          exact hstatus
        rw [if_pos htakes]
        exact hwrite.goOn hopen hdone (by rw [show (s.write _ now).phase = _ from hphase]; rfl)
          trivial
      · have hsame : s.write (.start settings.jobId) now = s := by
          unfold State.write
          rw [if_neg htakes]
        rw [if_neg htakes]
        unfold statement
        rw [hsame]
        exact h.goTo hopen (fun hdone => ⟨Or.inr rfl, (h.undone hdone hopen).2⟩)
          (by rw [hphase]; rfl) trivial

/-- A worker whose job could not be started reads the row once more. -/
theorem inv_reread (h : Inv settings eligible s) (hphase : s.phase = .rereading) :
    Inv settings eligible
      (if s.job.cancelRequested then { s with cancelEvent := true, phase := .checking }
      else { s with phase := .ended }) := by
  have hopen : s.phase.isOpen = true := by
    rw [hphase]
    rfl
  split
  · rename_i hcancel
    have hdone : s.job.status ∉ doneStatuses := by
      intro hstatus
      have hnot := (h.undone hstatus hopen).2
      rw [hcancel] at hnot
      cases hnot
    have hchecking : Inv settings eligible { s with phase := .checking } :=
      h.goOn hopen hdone (by rw [hphase]; rfl) trivial
    exact {
      jobId := h.jobId
      order := h.order
      full := hchecking.full
      flight := h.flight
      kept := hchecking.kept
      savedOnce := h.savedOnce
      loaded := h.loaded
      failed := h.failed
      processed := h.processed
      ready := trivial
      counts := h.counts
      undone := hchecking.undone }
  · have hstop : Phase.ended.isOpen = false := rfl
    exact h.stop hstop

/-- All outcomes are saved when the window is empty and no id is left. -/
theorem Inv.counted (h : Inv settings eligible s) (hphase : s.phase = .reading)
    (hcancel : s.cancelEvent = false) :
    s.job.loadedCount + s.job.failedCount = eligible.length := by
  have hopen : s.phase.isOpen = true := by
    rw [hphase]
    rfl
  have hready := h.ready
  rw [hphase] at hready
  obtain ⟨hinFlight, hresolved, hbatch, hrest⟩ := hready
  have hfetched : s.fetched = eligible := by
    have hfull := h.full hopen
    rwa [hrest hcancel, List.append_nil] at hfull
  have houtcomes : s.outcomes.length = eligible.length := by
    have hlength := h.flight.length_eq
    rw [hinFlight, List.nil_append, List.length_map, hfetched] at hlength
    exact hlength.symm
  have hsaved : s.outcomes.length = s.saved.length := by
    have hlength := (h.kept hopen).length_eq
    unfold State.held at hlength
    rw [hphase, hresolved, hbatch] at hlength
    exact hlength
  have hsplit :=
    @List.length_eq_countP_add_countP Outcome (fun outcome => outcome.2.isDetail) s.saved
  rw [h.loaded, h.failed, ← houtcomes, hsaved, hsplit]
  simp

theorem Inv.past (h : Inv settings eligible s) {phase : Phase} (hphase : s.phase = phase)
    (hopen : phase.isOpen = true) (hstarting : phase ≠ .starting)
    (hrereading : phase ≠ .rereading) :
    s.phase.isOpen = true ∧ s.job.status ∉ doneStatuses := by
  subst hphase
  exact ⟨hopen, h.notDone hopen hstarting hrereading⟩

theorem inv_finish (h : Inv settings eligible s) {status : String} {message : Option String}
    (hcounts : CountsAll eligible s.job status) (reply : Reply) (now : Instant)
    {onRaise : String → Phase} (hraise : ∀ reason, (onRaise reason).isOpen = false) :
    Inv settings eligible
      (statement s (.finish settings.jobId status message) reply now .ended onRaise) := by
  have hended : Phase.ended.isOpen = false := rfl
  cases reply with
  | done => exact h.writeFinish hended hcounts
  | raised reason => exact h.stop (hraise reason)
  | lost reason => exact h.writeFinish (hraise reason) hcounts

/-- The next thing that the worker does keeps the ids and their outcomes. -/
theorem inv_advance (h : Inv settings eligible s) (reply : Reply) (now : Instant) :
    Inv settings eligible (advance settings s reply now) := by
  have hready := h.ready
  unfold advance
  split
  · rename_i hphase
    exact inv_start h hphase reply now
  · rename_i hphase
    exact inv_call h reply (inv_reread h hphase)
  · rename_i hphase
    obtain ⟨hopen, hdone⟩ := h.past hphase rfl (fun h => nomatch h) (fun h => nomatch h)
    refine h.goOn hopen hdone ?_ ?_
    · rw [hphase]
      split <;> rfl
    · split
      · exact fun hcancelled => absurd hcancelled (by decide)
      · intro _ _
        omega
  · rename_i hphase
    obtain ⟨hopen, hdone⟩ := h.past hphase rfl (fun h => nomatch h) (fun h => nomatch h)
    rw [hphase] at hready
    refine h.goOn hopen hdone (by rw [hphase]; rfl) fun hcancel hrest => ?_
    have hlt : 0 < 0 + s.inFlight.length + s.resolved.length := hready hcancel hrest
    omega
  · rename_i left hphase
    obtain ⟨hopen, hdone⟩ := h.past hphase rfl (fun h => nomatch h) (fun h => nomatch h)
    refine inv_submitNext h hopen hdone reply (by rw [hphase]; rfl) (by rw [hphase]; rfl)
      (fun hnone hcancel hrest => absurd (hnone hcancel) hrest) fun id rest hrest _ _ => ?_
    show 0 < left + (s.inFlight ++ [id]).length + s.resolved.length
    rw [List.length_append, List.length_singleton]
    omega
  · rename_i hphase
    rw [hphase] at hready
    split
    · rename_i hempty
      obtain ⟨hopen, hdone⟩ := h.past hphase rfl (fun h => nomatch h) (fun h => nomatch h)
      rw [Bool.and_eq_true, List.isEmpty_iff, List.isEmpty_iff] at hempty
      refine h.goOn hopen hdone (by rw [hphase]; rfl) ⟨hempty.1, hempty.2, fun hcancel => ?_⟩
      by_contra hrest
      have hlt : 0 < s.inFlight.length + s.resolved.length := hready hcancel hrest
      rw [hempty.1, hempty.2] at hlt
      exact absurd hlt (Nat.lt_irrefl 0)
    · exact h
  · rename_i completed hphase
    exact inv_collect h hphase
  · rename_i completed hphase
    obtain ⟨hopen, hdone⟩ := h.past hphase rfl (fun h => nomatch h) (fun h => nomatch h)
    split
    · exact inv_flushBatch h hopen hdone reply now (by rw [hphase]; rfl) (fun _ _ => trivial)
        trivial
    · exact h.goOn hopen hdone (by rw [hphase]; rfl) trivial
  · rename_i completed hphase
    obtain ⟨hopen, hdone⟩ := h.past hphase rfl (fun h => nomatch h) (fun h => nomatch h)
    refine inv_submitNext h hopen hdone reply (by rw [hphase]; rfl) (by rw [hphase]; rfl)
      (fun hnone hcancel hrest => absurd (hnone hcancel) hrest) fun id rest hrest _ _ => ?_
    show 0 < (s.inFlight ++ [id]).length + s.resolved.length + completed.length
    rw [List.length_append, List.length_singleton]
    omega
  · rename_i hphase
    obtain ⟨hopen, hdone⟩ := h.past hphase rfl (fun h => nomatch h) (fun h => nomatch h)
    rw [hphase] at hready
    obtain ⟨hinFlight, hresolved, hrest⟩ := hready
    refine inv_flushBatch h hopen hdone reply now (by rw [hphase]; rfl) (fun hdetails herrors => ?_)
      ⟨hinFlight, hresolved, rfl, hrest⟩
    refine ⟨hinFlight, hresolved, ?_, hrest⟩
    unfold State.batch
    rw [hdetails, herrors]
    rfl
  · rename_i hphase
    obtain ⟨hopen, hdone⟩ := h.past hphase rfl (fun h => nomatch h) (fun h => nomatch h)
    have hcounted := h.counted hphase
    refine inv_call h reply (h.goOn hopen hdone ?_ ?_)
    · rw [hphase]
      split <;> rfl
    · split
      · exact ⟨hcounted, rfl⟩
      · exact ⟨hcounted, rfl⟩
  · rename_i failedCount hphase
    obtain ⟨hopen, hdone⟩ := h.past hphase rfl (fun h => nomatch h) (fun h => nomatch h)
    rw [hphase] at hready
    exact inv_call h reply (h.goOn hopen hdone (by rw [hphase]; rfl) hready)
  · rename_i failedCount hphase
    obtain ⟨hopen, hdone⟩ := h.past hphase rfl (fun h => nomatch h) (fun h => nomatch h)
    rw [hphase] at hready
    obtain ⟨hcounted, hfailed⟩ := hready
    refine h.goOn hopen hdone ?_ ?_
    · rw [hphase]
      split
      · rfl
      · split <;> rfl
    · split
      · exact fun hcancelled => absurd hcancelled (by decide)
      · rename_i hcancel
        rw [Bool.not_eq_true] at hcancel
        split
        · rename_i hzero
          exact fun _ => ⟨hcounted hcancel, iff_of_true rfl (hfailed ▸ hzero)⟩
        · rename_i hnonzero
          exact fun _ => ⟨hcounted hcancel, iff_of_false (by decide) (hfailed ▸ hnonzero)⟩
  · rename_i status message hphase
    rw [hphase] at hready
    exact inv_finish h hready reply now fun reason => rfl
  · rename_i reason hphase
    have hfailed : CountsAll eligible s.job "failed" := fun hdone => absurd hdone (by decide)
    exact inv_finish h hfailed reply now fun reason => rfl
  · exact h

/-- Every step keeps the ids and their outcomes. -/
theorem inv_step (h : Inv settings eligible s) (hnodup : eligible.Nodup) (e : Event) :
    Inv settings eligible (step settings s e) := by
  cases e with
  | next reply now => exact inv_advance h reply now
  | wake ids => exact inv_wake h hnodup ids
  | resolve id fetch => exact inv_resolve h id fetch
  | requestCancel now =>
      have hstatus : ((DetailJobWrite.requestCancel settings.jobId).set now s.job).status ∉
          doneStatuses := by
        show "cancelling" ∉ doneStatuses
        decide
      exact h.writeOpen ⟨rfl, rfl, rfl, rfl⟩ hstatus
  | setEvent =>
      have hready : Ready eligible { s with cancelEvent := true } s.phase := by
        have hphase := h.ready
        cases hcases : s.phase <;> rw [hcases] at hphase
        case lastFlush => exact ⟨hphase.1, hphase.2.1, fun hcancel => nomatch hcancel⟩
        case reading => exact ⟨hphase.1, hphase.2.1, hphase.2.2.1, fun hcancel => nomatch hcancel⟩
        case reconciling => exact ⟨(fun hcancel => nomatch hcancel), hphase.2⟩
        case concluding => exact ⟨(fun hcancel => nomatch hcancel), hphase.2⟩
        case finishing => exact hphase
        all_goals first | exact trivial | exact fun hcancel => nomatch hcancel
      exact {
        jobId := h.jobId
        order := h.order
        full := h.full
        flight := h.flight
        kept := h.kept
        savedOnce := h.savedOnce
        loaded := h.loaded
        failed := h.failed
        processed := h.processed
        ready := hready
        counts := h.counts
        undone := h.undone }
  | interrupt now =>
      have hstatus : (DetailJobWrite.interruptActive.set now s.job).status ∉ doneStatuses := by
        show "interrupted" ∉ doneStatuses
        decide
      exact h.writeOpen ⟨rfl, rfl, rfl, rfl⟩ hstatus

end Step

theorem inv_initial (settings : Settings) (candidates : Candidates) (now : Instant) :
    Inv settings candidates.eligible (.initial settings candidates now) where
  jobId := rfl
  order := List.Sublist.refl _
  full := fun _ => rfl
  flight := List.Perm.refl _
  kept := fun _ => List.Perm.refl _
  savedOnce := List.Subperm.refl _
  loaded := rfl
  failed := rfl
  processed := rfl
  ready := trivial
  counts := by
    intro hdone
    have hempty : candidates.eligible.length = 0 := by
      by_contra hne
      have hqueued : (candidates.job settings.jobId now).status = "queued" := if_neg hne
      have hstatus : (candidates.job settings.jobId now).status ∈ doneStatuses := hdone
      rw [hqueued] at hstatus
      exact absurd hstatus (by decide)
    exact ⟨hempty.symm, iff_of_true (if_pos hempty) rfl⟩
  undone := fun _ _ => ⟨Or.inl rfl, rfl⟩

/-- The worker of a job, after the events. -/
def runJob (settings : Settings) (candidates : Candidates) (now : Instant) (es : List Event) :
    State :=
  run (step settings) (.initial settings candidates now) es

/--
Whatever happens, each eligible id is fetched at most once, each outcome is saved at most once,
the counters agree, and a job that completed has counted every id.
-/
theorem detail_job_conserves (settings : Settings) (internalIds : List (Option String))
    (rows : List PassportAge) (cutoff : Int) (now : Instant) (es : List Event) :
    let eligible := (refreshCandidates internalIds rows cutoff).eligible
    let s := runJob settings (refreshCandidates internalIds rows cutoff) now es
    (∀ id, s.fetched.count id ≤ 1) ∧
      (∀ id ∈ s.fetched, id ∈ eligible) ∧
      (∀ id, (s.saved.map Prod.fst).count id ≤ 1) ∧
      (∀ outcome ∈ s.saved, outcome ∈ s.outcomes ∧ outcome.1 ∈ s.fetched) ∧
      s.job.processedCount = s.job.loadedCount + s.job.failedCount ∧
      (s.job.status = "completed" ∨ s.job.status = "completed_with_errors" →
        s.job.loadedCount + s.job.failedCount = eligible.length ∧
          (s.job.status = "completed" ↔ s.job.failedCount = 0)) := by
  intro eligible s
  have hnodup : eligible.Nodup := nodup_eligible internalIds rows cutoff
  have hrun : Along (step settings) (fun _ _ => True)
      (.initial settings (refreshCandidates internalIds rows cutoff) now) es :=
    along_of_forall (fun _ _ => trivial) _ es
  have hstep : ∀ s e, Inv settings eligible s → True → Inv settings eligible (step settings s e) :=
    fun s e hs _ => inv_step hs hnodup e
  have hinitial := inv_initial settings (refreshCandidates internalIds rows cutoff) now
  have h : Inv settings eligible s := hrun.invariant hstep hinitial
  have hfetched : s.fetched.Nodup := (hnodup.sublist h.order).of_append_left
  have houtcomes : (s.outcomes.map Prod.fst).Nodup :=
    (h.flight.nodup_iff.1 hfetched).of_append_right
  have hsaved : (s.saved.map Prod.fst).Nodup := by
    obtain ⟨saved, hperm, hsub⟩ := h.savedOnce
    exact (hperm.map Prod.fst).nodup_iff.1 (houtcomes.sublist (hsub.map Prod.fst))
  refine ⟨List.nodup_iff_count_le_one.1 hfetched, fun id hid => ?_,
    List.nodup_iff_count_le_one.1 hsaved, fun outcome hmem => ?_, h.processed, fun hdone => ?_⟩
  · exact h.order.subset (List.mem_append_left _ hid)
  · have houtcome := h.savedOnce.subset hmem
    exact ⟨houtcome, h.flight.mem_iff.2
      (List.mem_append_right _ (List.mem_map_of_mem houtcome))⟩
  · refine h.counts ?_
    rcases hdone with hstatus | hstatus
    · rw [hstatus]
      decide
    · rw [hstatus]
      decide

/-- One passport is loaded and the job completes. -/
example :
    (runJob { jobId := "job-1", workers := 2, batchSize := 10 }
      (refreshCandidates [some "p"] [] 0) 0
      [.next .done 1, .next .done 1, .next .done 1, .next .done 1, .resolve "p" (.detail .null),
        .wake ["p"], .next .done 2, .next .done 2, .next .done 2, .next .done 2, .next .done 2,
        .next .done 2, .next .done 3, .next .done 3, .next .done 3, .next .done 3]).job.status =
      "completed" := by
  decide +kernel

end DetailWorker
end Passports
end MpvmApp
