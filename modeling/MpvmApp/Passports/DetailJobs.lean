import MpvmApp.Lib.Runs
import MpvmApp.Operations.System

/-!
# Detail jobs of the passport queries

A passport query stores the catalog and creates a detail job in one go.  The row of the job is
there before its worker: between the two the response is made, and a catalog refresh asks for its
cancellation once more.  A request that ends there leaves a job that nobody works on, and as long
as a job is active no other query starts.

Main definitions:

- Definition `pass`: the next statement of a query, when it goes through.
- Definition `abandons`: the request ends while its job waits for a worker.

Main results:

- Theorem `inv_step`: a step that abandons no job keeps the bookkeeping of the created jobs.
- Theorem `no_orphans_iff`: a request leaves no job without a worker exactly when it abandons
  none.
-/

namespace MpvmApp
namespace Passports
namespace DetailJobs

open Operations Remediation Runs

/-! ## The jobs -/

/-- The table `vulnerability_passport_detail_jobs`. -/
abbrev Jobs := Table DetailJob DetailJob.jobId DetailJob.jobId

/-- The job is queued, running or cancelling. -/
def isActive (job : DetailJob) : Bool :=
  decide (job.status ∈ activeJobStatuses)

/-- `get_active_vulnerability_passport_detail_job` finds a job. -/
def hasActive (jobs : Jobs) : Bool :=
  jobs.rows.any isActive

/-- `INSERT` of a job under the index that admits one active job. -/
def createJob (jobs : Jobs) (job : DetailJob) : Option Jobs :=
  if isActive job && hasActive jobs then none else jobs.insert? job

/-- `vulnerability_passport_detail_refresh_candidates`. -/
structure Candidates where
  requested : List String
  eligible : List String
  skippedFresh : List String

/-- The job of the candidates. -/
def Candidates.job (candidates : Candidates) (jobId : String) (now : Instant) : DetailJob :=
  newDetailJob jobId candidates.requested.length candidates.eligible.length
    candidates.skippedFresh.length now

/-! ## A passport query -/

/--
A passport query: the id that it draws for its job, what its payload asks for, and whether it is
the catalog refresh in the background or the request of a client.
-/
structure Request where
  jobId : String
  saveToDb : Bool
  loadDetails : Bool
  inBackground : Bool

/-- How far the request is; the phases are the statements that it goes on with. -/
inductive Phase where
  | starting
  | checking
  | preparing
  | selecting
  | creating (candidates : Candidates)
  | registering (candidates : Candidates)
  | responding
  | returned
  | submitting
  | completing
  | ended

/--
The jobs, the cancellation event of the refresh, and the request with the jobs that it has
created, its background tasks and the jobs that are handed to a worker.
-/
structure System where
  jobs : Jobs
  event : Bool
  phase : Phase
  created : List String
  tasks : List String
  handed : List String

/-- Before the request, whatever jobs there are. -/
def System.initial (jobs : Jobs) : System where
  jobs := jobs
  event := false
  phase := .starting
  created := []
  tasks := []
  handed := []

/-- `progress`, and the check of a refresh after its query: only a refresh is cancelled. -/
def poll (r : Request) (s : System) (next : Phase) : System :=
  { s with phase := if r.inBackground && s.event then .ended else next }

/-- The statement of the request goes through. -/
def pass (r : Request) (s : System) (now : Instant) : System :=
  match s.phase with
  | .starting => poll r s .checking
  | .checking =>
      { s with
        phase := if r.saveToDb && r.loadDetails && hasActive s.jobs then .ended else .preparing }
  | .preparing => poll r s .preparing
  | .selecting => s
  | .creating candidates =>
      match createJob s.jobs (candidates.job r.jobId now) with
      | some jobs =>
          { s with jobs, created := s.created ++ [r.jobId], phase := .registering candidates }
      | none => { s with phase := .ended }
  | .registering candidates =>
      { s with
        tasks := if candidates.eligible = [] then s.tasks else s.tasks ++ [r.jobId]
        phase := .responding }
  | .responding => { s with phase := .returned }
  | .returned => poll r s .submitting
  | .submitting => { s with handed := s.handed ++ s.tasks, phase := .completing }
  | .completing => { s with phase := .ended }
  | .ended => s

/-- The passports and the trends are stored. -/
def prepared (r : Request) (s : System) : System :=
  match s.phase with
  | .preparing =>
      { s with phase := if r.saveToDb && r.loadDetails then .selecting else .responding }
  | _ => s

/-- The candidates of the job are selected, after one more poll. -/
def select (r : Request) (s : System) (candidates : Candidates) : System :=
  match s.phase with
  | .selecting => poll r s (.creating candidates)
  | _ => s

/-! ## The system -/

/-- What can happen next. -/
inductive Event where
  | pass (now : Instant)
  | prepared
  | select (candidates : Candidates)
  | raise
  | cancel
  | write (write : DetailJobWrite) (now : Instant)
  | create (job : DetailJob)
  | restart (now : Instant)

/-- Only a worker starts, saves and finishes a job, and only a restart interrupts the jobs. -/
def System.admits (s : System) : DetailJobWrite → Bool
  | .interruptActive => false
  | .requestCancel _ => true
  | .start jobId => decide (jobId ∉ s.created ∨ jobId ∈ s.handed)
  | .saveBatch jobId _ _ => decide (jobId ∉ s.created ∨ jobId ∈ s.handed)
  | .finish jobId _ _ => decide (jobId ∉ s.created ∨ jobId ∈ s.handed)

/-- `UPDATE` of the jobs. -/
def writeJobs (jobs : Jobs) (write : DetailJobWrite) (now : Instant) : Jobs :=
  updateRows jobs write.takes (write.set now) (write.set_jobId now)

/-- One step of the system: of the request, of a client or of somebody else. -/
def step (r : Request) (s : System) : Event → System
  | .pass now => pass r s now
  | .prepared => prepared r s
  | .select candidates => select r s candidates
  | .raise => { s with phase := .ended }
  | .cancel => { s with event := true }
  | .write write now =>
      if s.admits write then { s with jobs := writeJobs s.jobs write now } else s
  | .create job => { s with jobs := (createJob s.jobs job).getD s.jobs }
  -- The application starts again: the request is gone, and active jobs become interrupted.
  | .restart now => { s with jobs := writeJobs s.jobs .interruptActive now, phase := .ended }

/-- The request has created the job, no worker has it, and the job is active. -/
def System.unhanded (s : System) (id : String) : Bool :=
  decide (id ∈ s.created ∧ id ∉ s.handed) && (s.jobs.find? id).any isActive

/-- When the request has ended, every job that it has created has a worker or is finished. -/
def NoOrphans (s : System) : Prop :=
  s.phase = .ended → ∀ id, s.unhanded id = false

/-- The request ends while one of its jobs waits for a worker. -/
def abandons (r : Request) (s : System) (e : Event) : Bool :=
  s.created.any s.unhanded &&
    match e, s.phase with
    | .raise, _ => true
    | .pass _, .returned => r.inBackground && s.event
    | _, _ => false

/-! ## What holds in every run -/

/-- The created jobs without a worker, by how far the request is. -/
def Phase.Waits (r : Request) (s : System) : Phase → Prop
  | .registering candidates =>
      ∀ id, s.unhanded id = true → id = r.jobId ∧ candidates.eligible ≠ []
  | .responding => ∀ id, s.unhanded id = true → id ∈ s.tasks
  | .returned => ∀ id, s.unhanded id = true → id ∈ s.tasks
  | .submitting => ∀ id, s.unhanded id = true → id ∈ s.tasks
  | .completing => ∀ id, s.unhanded id = false
  | .ended => ∀ id, s.unhanded id = false
  | _ => s.created = []

/-- The created jobs are stored, and those without a worker are going to get one. -/
structure Inv (r : Request) (s : System) : Prop where
  stored : ∀ id ∈ s.created, (s.jobs.find? id).isSome = true
  waits : s.phase.Waits r s

section Invariant

variable {r : Request} {s s' : System}

theorem unhanded_iff {id : String} :
    s.unhanded id = true ↔
      id ∈ s.created ∧ id ∉ s.handed ∧
        ∃ job, s.jobs.find? id = some job ∧ isActive job = true := by
  simp only [System.unhanded, Bool.and_eq_true, decide_eq_true_eq, Option.any_eq_true, and_assoc]

theorem Inv.noOrphans (h : Inv r s) : NoOrphans s := by
  intro hphase
  have hwaits := h.waits
  rw [hphase] at hwaits
  exact hwaits

theorem Phase.Waits.mono {phase : Phase} (h : phase.Waits r s) (hcreated : s'.created = s.created)
    (htasks : s'.tasks = s.tasks)
    (hunhanded : ∀ id, s'.unhanded id = true → s.unhanded id = true) :
    phase.Waits r s' := by
  have hnone : (∀ id, s.unhanded id = false) → ∀ id, s'.unhanded id = false := by
    intro hs id
    refine Bool.eq_false_iff.2 fun hwaiting => ?_
    have hbefore := hunhanded id hwaiting
    rw [hs id] at hbefore
    cases hbefore
  cases phase with
  | registering candidates => exact fun id hwaiting => h id (hunhanded id hwaiting)
  | responding => exact fun id hwaiting => htasks ▸ h id (hunhanded id hwaiting)
  | returned => exact fun id hwaiting => htasks ▸ h id (hunhanded id hwaiting)
  | submitting => exact fun id hwaiting => htasks ▸ h id (hunhanded id hwaiting)
  | completing => exact hnone h
  | ended => exact hnone h
  | _ => exact hcreated.trans h

@[simp]
theorem find?_writeJobs (jobs : Jobs) (write : DetailJobWrite) (now : Instant) (id : String) :
    (writeJobs jobs write now).find? id =
      (jobs.find? id).map fun job => if write.takes job then write.set now job else job := by
  simp [writeJobs, updateRows]

theorem isActive_of_set {write : DetailJobWrite} {now : Instant} {job : DetailJob}
    (htakes : write.takes job = true)
    (hfinish : ∀ id status message, write ≠ .finish id status message)
    (h : isActive (write.set now job) = true) :
    isActive job = true := by
  cases write with
  | interruptActive => exact htakes
  | start id =>
      have hqueued := (of_decide_eq_true htakes).2
      simp [isActive, hqueued, activeJobStatuses]
  | requestCancel id => exact decide_eq_true (of_decide_eq_true htakes).2
  | saveBatch id loadedCount errors => exact h
  | finish id status message => exact absurd rfl (hfinish id status message)

theorem unhanded_of_write {write : DetailJobWrite} {now : Instant} {id : String}
    (hadmits : s.admits write = true)
    (h : { s with jobs := writeJobs s.jobs write now }.unhanded id = true) :
    s.unhanded id = true := by
  obtain ⟨hcreated, hhanded, job', hjob', hactive⟩ := unhanded_iff.1 h
  rw [find?_writeJobs] at hjob'
  obtain ⟨job, hjob, rfl⟩ := Option.map_eq_some_iff.1 hjob'
  refine unhanded_iff.2 ⟨hcreated, hhanded, job, hjob, ?_⟩
  split at hactive
  · rename_i htakes
    refine isActive_of_set htakes (fun id' status message heq => ?_) hactive
    -- only a worker finishes a job
    subst heq
    have hid : id = id' := (Table.pk_of_find? hjob).symm.trans (of_decide_eq_true htakes)
    rcases of_decide_eq_true hadmits with hforeign | hown
    · exact hforeign (hid ▸ hcreated)
    · exact hhanded (hid ▸ hown)
  · exact hactive

theorem find?_createJob {jobs : Jobs} {id : String} {job row : DetailJob}
    (hrow : jobs.find? id = some row) :
    ((createJob jobs job).getD jobs).find? id = some row := by
  unfold createJob
  split
  · exact hrow
  · cases hinsert : jobs.insert? job with
    | none => exact hrow
    | some jobs' =>
        have hnone := Table.find?_eq_none_of_insert? hinsert
        have hne : job.jobId ≠ id := by
          intro hid
          rw [hid, hrow] at hnone
          cases hnone
        rw [Option.getD_some, Table.find?_insert? hinsert, if_neg hne]
        exact hrow

theorem unhanded_of_create {job : DetailJob} {id : String}
    (hstored : ∀ id ∈ s.created, (s.jobs.find? id).isSome = true)
    (h : { s with jobs := (createJob s.jobs job).getD s.jobs }.unhanded id = true) :
    s.unhanded id = true := by
  obtain ⟨hcreated, hhanded, row', hrow', hactive⟩ := unhanded_iff.1 h
  obtain ⟨row, hrow⟩ := Option.isSome_iff_exists.1 (hstored id hcreated)
  cases (find?_createJob hrow).symm.trans hrow'
  exact unhanded_iff.2 ⟨hcreated, hhanded, _, hrow, hactive⟩

theorem unhanded_of_interrupt {now : Instant} {id : String} :
    { s with jobs := writeJobs s.jobs .interruptActive now }.unhanded id = false := by
  refine Bool.eq_false_iff.2 fun h => ?_
  obtain ⟨_, _, job', hjob', hactive⟩ := unhanded_iff.1 h
  rw [find?_writeJobs] at hjob'
  obtain ⟨job, _, rfl⟩ := Option.map_eq_some_iff.1 hjob'
  split at hactive
  · cases hactive
  · rename_i hnot
    exact hnot hactive

/-! ## One step -/

theorem Inv.goOn (h : Inv r s) {next : Phase} (hwaits : next.Waits r s) :
    Inv r { s with phase := next } where
  stored := h.stored
  waits := hwaits.mono rfl rfl fun _ => id

theorem Inv.poll (h : Inv r s) {next : Phase} (hwaits : next.Waits r s)
    (hcancel : r.inBackground = true → s.event = true → ∀ id, s.unhanded id = false) :
    Inv r (poll r s next) := by
  unfold DetailJobs.poll
  split
  · rename_i hcancelled
    obtain ⟨hbackground, hevent⟩ := Bool.and_eq_true_iff.1 hcancelled
    exact h.goOn (hcancel hbackground hevent)
  · exact h.goOn hwaits

theorem unhanded_of_any (h : s.created.any s.unhanded = false) (id : String) :
    s.unhanded id = false := by
  refine Bool.eq_false_iff.2 fun hwaiting => ?_
  have hany := List.any_eq_true.2 ⟨id, (unhanded_iff.1 hwaiting).1, hwaiting⟩
  rw [h] at hany
  cases hany

theorem unhanded_of_created_nil (h : s.created = []) (id : String) : s.unhanded id = false := by
  simp [System.unhanded, h]

theorem eligible_of_isActive {candidates : Candidates} {jobId : String} {now : Instant}
    (h : isActive (candidates.job jobId now) = true) :
    candidates.eligible ≠ [] := by
  rintro hempty
  simp [isActive, Candidates.job, newDetailJob, hempty, activeJobStatuses] at h

/-- The creation of the job: it is the only one that waits, and it does only with passports. -/
theorem inv_create {candidates : Candidates} (hcreated : s.created = [])
    {jobs : Jobs} {now : Instant}
    (hjobs : createJob s.jobs (candidates.job r.jobId now) = some jobs) :
    Inv r { s with
      jobs, created := s.created ++ [r.jobId], phase := .registering candidates } := by
  have hinsert : s.jobs.insert? (candidates.job r.jobId now) = some jobs := by
    unfold createJob at hjobs
    split at hjobs
    · cases hjobs
    · exact hjobs
  have hrow : jobs.find? r.jobId = some (candidates.job r.jobId now) := by
    rw [Table.find?_insert? hinsert]
    exact if_pos rfl
  constructor
  · intro id hid
    rw [hcreated, List.nil_append, List.mem_singleton] at hid
    rw [hid, hrow]
    rfl
  · intro id hwaiting
    obtain ⟨hid, _, job, hjob, hactive⟩ := unhanded_iff.1 hwaiting
    rw [hcreated, List.nil_append, List.mem_singleton] at hid
    rw [hid, hrow] at hjob
    cases hjob
    exact ⟨hid, eligible_of_isActive hactive⟩

/-- A statement that goes through keeps the bookkeeping, unless it abandons a job. -/
theorem Inv.pass (h : Inv r s) (now : Instant) (hok : abandons r s (.pass now) = false) :
    Inv r (pass r s now) := by
  have hwaits := h.waits
  unfold DetailJobs.pass
  cases hphase : s.phase with
  | starting =>
      rw [hphase] at hwaits
      exact h.poll hwaits fun _ _ => unhanded_of_created_nil hwaits
  | checking =>
      rw [hphase] at hwaits
      refine h.goOn ?_
      split
      · exact unhanded_of_created_nil hwaits
      · exact hwaits
  | preparing =>
      rw [hphase] at hwaits
      exact h.poll hwaits fun _ _ => unhanded_of_created_nil hwaits
  | selecting => exact h
  | creating candidates =>
      rw [hphase] at hwaits
      dsimp only
      split
      · rename_i jobs hjobs
        exact inv_create hwaits hjobs
      · exact h.goOn (unhanded_of_created_nil hwaits)
  | registering candidates =>
      rw [hphase] at hwaits
      exact
        { stored := h.stored
          waits := fun id hwaiting => by
            obtain ⟨hid, heligible⟩ := hwaits id hwaiting
            simp [hid, heligible] }
  | responding =>
      rw [hphase] at hwaits
      exact h.goOn hwaits
  | returned =>
      rw [hphase] at hwaits
      refine h.poll hwaits fun hbackground hevent => ?_
      refine unhanded_of_any ?_
      simpa [abandons, hphase, hbackground, hevent] using hok
  | submitting =>
      rw [hphase] at hwaits
      exact
        { stored := h.stored
          waits := fun id => by
            refine Bool.eq_false_iff.2 fun hwaiting => ?_
            obtain ⟨hcreated, hhanded, hjob⟩ := unhanded_iff.1 hwaiting
            rw [List.mem_append, not_or] at hhanded
            exact hhanded.2 (hwaits id (unhanded_iff.2 ⟨hcreated, hhanded.1, hjob⟩)) }
  | completing =>
      rw [hphase] at hwaits
      exact h.goOn hwaits
  | ended => exact h

/-- A step that abandons no job keeps the bookkeeping of the created jobs. -/
theorem inv_step (h : Inv r s) {e : Event} (hok : abandons r s e = false) :
    Inv r (step r s e) := by
  cases e with
  | pass now => exact h.pass now hok
  | prepared =>
      unfold DetailJobs.step DetailJobs.prepared
      have hwaits := h.waits
      cases hphase : s.phase with
      | preparing =>
          rw [hphase] at hwaits
          refine h.goOn ?_
          split
          · exact hwaits
          · exact fun id hwaiting => by
              rw [unhanded_of_created_nil hwaits] at hwaiting
              cases hwaiting
      | _ => exact h
  | select candidates =>
      unfold DetailJobs.step DetailJobs.select
      have hwaits := h.waits
      cases hphase : s.phase with
      | selecting =>
          rw [hphase] at hwaits
          exact h.poll hwaits fun _ _ => unhanded_of_created_nil hwaits
      | _ => exact h
  | raise =>
      refine h.goOn (unhanded_of_any ?_)
      simpa [abandons] using hok
  | cancel =>
      exact { stored := h.stored, waits := h.waits.mono rfl rfl fun _ => id }
  | write write now =>
      unfold DetailJobs.step
      dsimp only
      split
      · rename_i hadmits
        refine
          { stored := fun id hid => ?_
            waits := h.waits.mono rfl rfl fun _ => unhanded_of_write hadmits }
        rw [find?_writeJobs, Option.isSome_map]
        exact h.stored id hid
      · exact h
  | create job =>
      refine
        { stored := fun id hid => ?_
          waits := h.waits.mono rfl rfl fun _ => unhanded_of_create h.stored }
      obtain ⟨row, hrow⟩ := Option.isSome_iff_exists.1 (h.stored id hid)
      exact Option.isSome_of_eq_some (find?_createJob hrow)
  | restart now =>
      refine { stored := fun id hid => ?_, waits := fun _ => unhanded_of_interrupt }
      change ((writeJobs s.jobs .interruptActive now).find? id).isSome = true
      rw [find?_writeJobs, Option.isSome_map]
      exact h.stored id hid

/-- A step leaves no orphan exactly when it abandons no job. -/
theorem noOrphans_step_iff (h : Inv r s) (e : Event) :
    NoOrphans (step r s e) ↔ abandons r s e = false := by
  constructor
  · intro hnone
    refine Bool.eq_false_iff.2 fun habandons => ?_
    obtain ⟨hany, hends⟩ := Bool.and_eq_true_iff.1 habandons
    obtain ⟨id, _, hwaiting⟩ := List.any_eq_true.1 hany
    have hended : step r s e = { s with phase := .ended } := by
      cases e with
      | raise => rfl
      | pass now =>
          cases hphase : s.phase with
          | returned =>
              rw [hphase] at hends
              simp [DetailJobs.step, DetailJobs.pass, hphase, DetailJobs.poll, hends]
          | _ =>
              rw [hphase] at hends
              cases hends
      | _ => cases hends
    have hkept : s.unhanded id = false := by
      rw [hended] at hnone
      exact hnone rfl id
    rw [hwaiting] at hkept
    cases hkept
  · exact fun hok => (inv_step h hok).noOrphans

end Invariant

theorem inv_initial (r : Request) (jobs : Jobs) : Inv r (.initial jobs) where
  stored := by simp [System.initial]
  waits := rfl

/--
Whatever comes between the statements of a query or of a catalog refresh, and whatever jobs there
are before: when it ends, all its jobs are with a worker or finished, exactly in the runs in which
it does not end, by an exception or a late cancellation, while its job waits for a worker.
-/
theorem no_orphans_iff (r : Request) (jobs : Jobs) (es : List Event) :
    Along (DetailJobs.step r) (fun s e => NoOrphans (DetailJobs.step r s e)) (.initial jobs) es ↔
      Along (DetailJobs.step r) (fun s e => abandons r s e = false) (.initial jobs) es := by
  have hiff (s : System) (e : Event) (h : Inv r s) :
      NoOrphans (DetailJobs.step r s e) ↔ abandons r s e = false := noOrphans_step_iff h e
  have hstep (s : System) (e : Event) (h : Inv r s) (hnone : NoOrphans (DetailJobs.step r s e)) :
      Inv r (DetailJobs.step r s e) := inv_step h ((hiff s e h).1 hnone)
  exact along_congr hstep hiff (inv_initial r jobs) es

/-- The catalog refresh with the job 1. -/
def refresh : Request where
  jobId := "job-1"
  saveToDb := true
  loadDetails := true
  inBackground := true

/-- One passport is eligible. -/
def oneEligible : Candidates where
  requested := ["p"]
  eligible := ["p"]
  skippedFresh := []

/-- The refresh is cancelled when its job is created, while it makes its response. -/
def cancelledLate : List Event :=
  [.pass 1, .pass 1, .prepared, .select oneEligible, .pass 2, .pass 2, .cancel, .pass 3, .pass 3]

/-- The job of a refresh that is cancelled late is queued, and nobody works on it. -/
theorem cancelledLate_orphan :
    ¬ Along (DetailJobs.step refresh) (fun s e => NoOrphans (DetailJobs.step refresh s e))
      (.initial Table.empty) cancelledLate := by
  rintro ⟨-, -, -, -, -, -, -, -, hended, -⟩
  have horphan := hended rfl "job-1"
  revert horphan
  decide +kernel

end DetailJobs
end Passports
end MpvmApp
