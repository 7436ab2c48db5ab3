import MpvmApp.Lib.Runs
import MpvmApp.Services.ScanWorkers

/-!
# A removal follows the build of the card

A worker requests the removal of its asset from MP VM only after it has looked up the build job
that it created for the asset and the card of this job.  A look-up is a step of the run, so the
result speaks of an earlier state: between the look-up and the request the card can be deleted.

Main definitions:

- `Built`: what the look-up of a card finds.

Main results:

- Theorem `removals_follow_builds`: every removal of every run was preceded by a completed
  build of its asset with a stored card.
-/

namespace MpvmApp
namespace Services
namespace Scan

open Remediation AssetCard

/-! ## Jobs of workers -/

/-- The job that a worker has created. -/
def Phase.jobOf : Phase → Option String
  | .created jobId => some jobId
  | .building jobId => some jobId
  | .ran jobId => some jobId
  | .built jobId => some jobId
  | .saved jobId => some jobId
  | _ => none

/-- The job whose card a worker has looked up. -/
def Phase.lookedUp : Phase → Option String
  | .built jobId => some jobId
  | .saved jobId => some jobId
  | _ => none

/-- The job is stored, with the request of the worker. -/
def JobKnown (build : BuildJobs.Store BuildRequest) (w : Worker) (jobId : String) : Prop :=
  ∃ job ∈ build.jobs.rows, job.jobId = jobId ∧
    job.request = { assetId := w.assetId, parentOperationId := some w.runId }

theorem JobKnown.step {build : BuildJobs.Store BuildRequest} {w : Worker} {jobId : String}
    (h : JobKnown build w jobId) (e : BuildJobs.Event BuildRequest) :
    JobKnown (BuildJobs.step build e) w jobId := by
  obtain ⟨job, hjob, hid, hrequest⟩ := h
  obtain ⟨job', hjob', hid', hrequest'⟩ := BuildJobs.exists_job_step hjob e
  exact ⟨job', hjob', hid'.trans hid, hrequest'.trans hrequest⟩

theorem normalizeJob_spec {R : Type*} {item : BuildJobs.JobItem R} {job : BuildJobs.NewJob R}
    (h : BuildJobs.normalizeJob item = .ok job) :
    job.jobId = Sql.strip (item.jobId.getD "") ∧ item.request = some job.request := by
  simp only [BuildJobs.normalizeJob] at h
  split at h
  · rename_i request hrequest
    split_ifs at h
    cases h
    exact ⟨rfl, hrequest⟩
  · cases h

/-- What a worker does to the build jobs keeps those that are known. -/
theorem JobKnown.advance {s : System} {v : Worker} {jobId : String}
    (h : JobKnown s.build v jobId) (w : Worker) (a : Action) :
    JobKnown (advance s w a).1.build v jobId := by
  cases a with
  | create uuid current registered =>
      simp only [Scan.advance]
      split
      · split_ifs
        all_goals first
          | exact h
          | rcases BuildJobs.createAssetCardBuildJobs_eq s.build [buildItem s w uuid] current
              registered with heq | heq
            · simpa only [heq] using h
            · simpa only [heq] using (h.step _).step _
      · exact h
  | _ =>
      simp only [Scan.advance]
      repeat' split
      all_goals exact h

theorem jobKnown_create {s : System} {w : Worker} {uuid : Uuid} {current : Instant}
    {registered : Bool}
    (h : (BuildJobs.createAssetCardBuildJobs s.build [buildItem s w uuid] current registered).2 =
      true) :
    JobKnown
      (BuildJobs.createAssetCardBuildJobs s.build [buildItem s w uuid] current registered).1 w
      uuid.text := by
  obtain ⟨job, hjob, row, hrow, hid, hrequest⟩ := BuildJobs.exists_job_create h
  obtain ⟨hjobId, hitem⟩ := normalizeJob_spec hjob
  refine ⟨row, hrow, ?_, ?_⟩
  · rw [hid, hjobId]
    exact uuid.strip_text
  · rw [hrequest]
    exact (Option.some.inj hitem).symm

/-- A worker goes on with the job that it had, or has just created it. -/
theorem jobOf_advance {s : System} {w : Worker} {a : Action} {jobId : String}
    (h : (advance s w a).2.phase.jobOf = some jobId) :
    w.phase.jobOf = some jobId ∨ JobKnown (advance s w a).1.build w jobId := by
  cases a with
  | create uuid current registered =>
      simp only [advance] at h ⊢
      split at h
      · split_ifs at h ⊢ with hslot hcreated
        · cases h
          exact .inr (jobKnown_create hcreated)
        · exact .inl h
        · exact .inl h
      · exact .inl h
  | request answer =>
      simp only [advance] at h
      split at h
      · cases answer <;> cases h
      · exact .inl h
  | _ =>
      simp only [advance] at h
      left
      repeat' split at h
      all_goals first
        | exact h
        | (cases h; done)
        | simpa [Phase.jobOf, *] using h

/-- A worker has looked up the card of its job before, or does it now. -/
theorem lookedUp_advance {s : System} {w : Worker} {a : Action} {jobId : String}
    (h : (advance s w a).2.phase.lookedUp = some jobId) :
    w.phase.lookedUp = some jobId ∨
      w.phase = .ran jobId ∧ lookUpCard s jobId w.assetId = .ok () := by
  cases a with
  | lookUp =>
      simp only [advance] at h
      split at h
      · rename_i hphase
        split at h
        · rename_i hlookup
          cases h
          exact .inr ⟨hphase, hlookup⟩
        · cases h
      · exact .inl h
  | request answer =>
      simp only [advance] at h
      split at h
      · cases answer <;> cases h
      · exact .inl h
  | create uuid current registered =>
      simp only [advance] at h
      repeat' split at h
      all_goals first
        | exact .inl h
        | cases h
  | _ =>
      simp only [advance] at h
      left
      repeat' split at h
      all_goals first
        | exact h
        | (cases h; done)
        | simpa [Phase.lookedUp, *] using h

theorem lookUpCard_spec {s : System} {jobId assetId : String}
    (h : lookUpCard s jobId assetId = .ok ()) :
    ∃ job ∈ s.build.jobs.rows, job.jobId = jobId ∧ job.status = .completed ∧
      canonicalAssetId job assetId ∈ s.cards := by
  unfold lookUpCard at h
  split at h
  · cases h
  · rename_i job hfind
    split_ifs at h with hstatus hcard
    exact ⟨job, Table.mem_of_find? hfind, Table.pk_of_find? hfind, not_not.1 hstatus, hcard⟩

/-! ## Steps of the system -/

/-- A worker after a step: one from before, one that has moved, or a new one. -/
theorem workers_step {s : System} {e : Event} {w' : Worker} (h : w' ∈ (step s e).workers) :
    w' ∈ s.workers ∨
      (∃ index action w, e = .worker index action ∧ s.workers[index]? = some w ∧
        w' = (advance s w action).2) ∨
      w'.phase = .starting := by
  cases e with
  | coordinate runId =>
      simp only [step, coordinateRun] at h
      split at h
      · exact .inl h
      · rcases List.mem_append.1 h with hold | hnew
        · exact .inl hold
        · obtain ⟨row, -, hrow⟩ := List.mem_filterMap.1 hnew
          split at hrow
          · split_ifs at hrow
            cases hrow
            exact .inr (.inr rfl)
          · cases hrow
  | schedule runId assetId mpJobId target displayName nextId current =>
      simp only [step, scheduleAsset] at h
      split at h
      · exact .inl h
      · split_ifs at h
        · exact .inl h
        · split at h
          · exact .inl h
          · rcases List.mem_append.1 h with hold | hnew
            · exact .inl hold
            · rw [List.mem_singleton.1 hnew]
              exact .inr (.inr rfl)
  | worker index action =>
      simp only [step] at h
      split at h
      · exact .inl h
      · rename_i w hw
        rcases List.mem_or_eq_of_mem_set h with hold | hnew
        · exact .inl hold
        · exact .inr (.inl ⟨index, action, w, rfl, hw, hnew⟩)
  | restart current => cases h
  | _ => exact .inl h

/-- No step makes a known job unknown. -/
theorem JobKnown.systemStep {s : System} {v : Worker} {jobId : String}
    (h : JobKnown s.build v jobId) (e : Event) :
    JobKnown (Scan.step s e).build v jobId := by
  cases e with
  | coordinate runId =>
      simp only [Scan.step, coordinateRun]
      split <;> exact h
  | schedule runId assetId mpJobId target displayName nextId current =>
      simp only [Scan.step, scheduleAsset]
      repeat' split
      all_goals exact h
  | worker index action =>
      simp only [Scan.step]
      split
      · exact h
      · exact h.advance _ action
  | jobs event => exact h.step event
  | restart current => exact (h.step .rollback).step (.interrupt current)
  | _ => exact h

/-- Cards are deleted by deletions only. -/
theorem cards_step {s : System} {e : Event} {card : String} (h : card ∈ s.cards)
    (he : e ≠ .deleteCard card) :
    card ∈ (step s e).cards := by
  cases e with
  | coordinate runId =>
      simp only [step, coordinateRun]
      split <;> exact h
  | schedule runId assetId mpJobId target displayName nextId current =>
      simp only [step, scheduleAsset]
      repeat' split
      all_goals exact h
  | worker index action =>
      simp only [step]
      split
      · exact h
      · rename_i w hw
        simpa [(frame_advance s w action).cards] using h
  | saveCard assetId => exact List.mem_cons_of_mem _ h
  | deleteCard assetId =>
      refine List.mem_filter.2 ⟨h, ?_⟩
      simpa using fun hcard : card = assetId => he (hcard ▸ rfl)
  | _ => exact h

/-! ## Histories -/

/--
What a look-up of the card for a removal has found: the job that was created for its asset has
been completed, and its card is stored.
-/
def Built (s : System) (removal : Removal) (card : String) : Prop :=
  ∃ job ∈ s.build.jobs.rows, job.jobId = removal.jobId ∧
    job.request = { assetId := removal.assetId, parentOperationId := some removal.runId } ∧
    job.status = .completed ∧ card = canonicalAssetId job removal.assetId ∧ card ∈ s.cards

/-- The removal that a worker is about to request for a job. -/
def removalFor (w : Worker) (jobId : String) : Removal where
  itemId := w.itemId
  runId := w.runId
  assetId := w.assetId
  jobId := jobId

/-- The build has been found by a look-up after the first events; the rest came later. -/
def FoundIn (es : List Event) (removal : Removal) : Prop :=
  ∃ looked rest card, es = looked ++ rest ∧ Built (Runs.run step initial looked) removal card ∧
    (.deleteCard card ∉ rest → card ∈ (Runs.run step initial es).cards)

/-- What the phases of the workers say about the history of the run. -/
structure History (es : List Event) : Prop where
  known : ∀ w ∈ (Runs.run step initial es).workers, ∀ jobId, w.phase.jobOf = some jobId →
    JobKnown (Runs.run step initial es).build w jobId
  found : ∀ w ∈ (Runs.run step initial es).workers, ∀ jobId, w.phase.lookedUp = some jobId →
    FoundIn es (removalFor w jobId)

theorem FoundIn.snoc {es : List Event} {removal : Removal} (h : FoundIn es removal) (e : Event) :
    FoundIn (es ++ [e]) removal := by
  obtain ⟨looked, rest, card, rfl, hbuilt, hcard⟩ := h
  refine ⟨looked, rest ++ [e], card, by simp, hbuilt, fun hkept => ?_⟩
  rw [Runs.run_append]
  rw [List.mem_append, List.mem_singleton, not_or] at hkept
  exact cards_step (hcard hkept.1) (Ne.symm hkept.2)

theorem history_nil :
    History [] :=
  ⟨fun w hw => absurd hw (by simp [initial]), fun w hw => absurd hw (by simp [initial])⟩

theorem foundIn_of_lookUp {es : List Event} {w : Worker} {jobId : String}
    (hknown : JobKnown (Runs.run step initial es).build w jobId)
    (hlookup : lookUpCard (Runs.run step initial es) jobId w.assetId = .ok ()) :
    FoundIn es (removalFor w jobId) := by
  obtain ⟨job, hjob, hid, hstatus, hcard⟩ := lookUpCard_spec hlookup
  obtain ⟨known, hmem, hid', hrequest⟩ := hknown
  obtain rfl : known = job := Table.eq_of_pk_eq hmem hjob (hid'.trans hid.symm)
  exact ⟨es, [], _, by simp, ⟨known, hjob, hid, hrequest, hstatus, rfl, hcard⟩, fun _ => hcard⟩

/-- The phases of the workers keep saying this after every step. -/
theorem History.snoc {es : List Event} (h : History es) (e : Event) :
    History (es ++ [e]) := by
  have hrun : Runs.run step initial (es ++ [e]) = step (Runs.run step initial es) e := by simp
  constructor
  · intro w' hw' jobId hjob
    rw [hrun] at hw' ⊢
    rcases workers_step hw' with hold | ⟨index, action, w, rfl, hw, rfl⟩ | hnew
    · exact (h.known w' hold jobId hjob).systemStep e
    · have hframe := frame_advance (Runs.run step initial es) w action
      rcases jobOf_advance hjob with hbefore | hcreated
      · have hknown := (h.known w (List.mem_of_getElem? hw) jobId hbefore).systemStep
          (.worker index action)
        unfold JobKnown at hknown ⊢
        rw [hframe.assetId, hframe.runId]
        exact hknown
      · unfold JobKnown at hcreated ⊢
        simp only [step, hw, hframe.assetId, hframe.runId]
        exact hcreated
    · rw [hnew] at hjob
      cases hjob
  · intro w' hw' jobId hlooked
    rw [hrun] at hw'
    rcases workers_step hw' with hold | ⟨index, action, w, rfl, hw, rfl⟩ | hnew
    · exact (h.found w' hold jobId hlooked).snoc e
    · have hframe := frame_advance (Runs.run step initial es) w action
      have hsame : removalFor (advance (Runs.run step initial es) w action).2 jobId =
          removalFor w jobId := by
        simp [removalFor, hframe.itemId, hframe.runId, hframe.assetId]
      rw [hsame]
      rcases lookedUp_advance hlooked with hbefore | ⟨hran, hlookup⟩
      · exact (h.found w (List.mem_of_getElem? hw) jobId hbefore).snoc _
      · exact (foundIn_of_lookUp
          (h.known w (List.mem_of_getElem? hw) jobId (by rw [hran]; rfl)) hlookup).snoc _
    · rw [hnew] at hlooked
      cases hlooked

theorem history_run (es : List Event) :
    History es := by
  induction es using List.reverseRecOn with
  | nil => exact history_nil
  | append_singleton es e ih => exact ih.snoc e

/-- Every removal that the run requests follows a completed build with a stored card. -/
def RemovalsFollowBuilds (es : List Event) : Prop :=
  ∀ before e after, es = before ++ e :: after →
    ∀ removal, submission (Runs.run step initial before) e = some removal →
      FoundIn before removal

/--
In every run, whatever crashes, cancellations, other jobs and failures it has, a removal is
requested only after the job that was created for its asset has been completed and its card was
stored; the card is there at the request unless it has been deleted since it was looked up.
-/
theorem removals_follow_builds (es : List Event) :
    RemovalsFollowBuilds es := by
  rintro before e after - removal hremoval
  unfold submission at hremoval
  split at hremoval
  · rename_i index action
    obtain ⟨w, hw, hrequest⟩ := Option.bind_eq_some_iff.1 hremoval
    unfold Action.removal at hrequest
    split at hrequest
    · unfold Worker.removal at hrequest
      split at hrequest
      · rename_i jobId hphase
        cases hrequest
        exact (history_run before).found w (List.mem_of_getElem? hw) jobId (by rw [hphase]; rfl)
      · cases hrequest
    · cases hrequest
  · cases hremoval

end Scan
end Services
end MpvmApp
