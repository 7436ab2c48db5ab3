import MpvmApp.Workflow.Waiting

/-!
# The threads of the workflows

An invariant ties the phase of a thread to its workflow row and to the cases that
wait for the workflow.  Each step of a thread keeps it, except that a step which
stores a failure or a cancellation needs a workflow for which no case waits.

Main results:

- Theorem `advance_sound`: every step of a thread keeps its workflow sound.
- Theorem `advance_effect`: a step writes at most to the cases of the campaign that
  its workflow has stored.
-/

namespace MpvmApp
namespace Workflow

open Remediation

/-! ## The invariant of one workflow -/

/-- The campaign id of the request is not stored yet. -/
def Phase.isNew : Phase → Bool
  | .created => true
  | _ => false

/-- The thread has stored the outcome of the workflow. -/
def Phase.isEnd : Phase → Bool
  | .failed _ | .cancelled | .done => true
  | _ => false

/-- The cases have not been told of the workflow yet, or have got its outcome. -/
def Phase.isQuiet : Phase → Bool
  | .created | .linked | .finalized _ => true
  | _ => false

/-- What ties the state of a thread to its workflow row and to the cases. -/
structure Sound (db : Database) (w : String) (e : Entry) : Prop where
  campaign : e.row.campaignId = if e.phase.isNew then none else e.row.request.campaignId
  source : ∀ row, e.source = some row → row.campaignId = e.row.request.campaignId
  ended : e.row.status.isTerminal = true → e.phase.isEnd = true
  quiet : e.phase.isQuiet = true ∨ e.row.status.isTerminal = true → quiet db w = true

/-- Every case of the workflow belongs to its campaign. -/
def Owned (db : Database) (w : String) (e : Entry) : Prop :=
  ∀ k c, db.case? k = some c → c.verificationWorkflowId = some w →
    ∃ campaignId, e.row.campaignId = some campaignId ∧ db.inCampaign campaignId k = true

namespace Sound

variable {db db' : Database} {w : String} {e : Entry}

theorem notTerminal (h : Sound db w e) (hphase : e.phase.isEnd = false) :
    e.row.status.isTerminal = false := by
  by_contra hterminal
  rw [Bool.not_eq_false] at hterminal
  rw [h.ended hterminal] at hphase
  cases hphase

theorem campaign_of_stored (h : Sound db w e) {campaignId : String}
    (hstored : e.row.campaignId = some campaignId) :
    e.phase.isNew = false ∧ e.row.request.campaignId = some campaignId := by
  rw [h.campaign] at hstored
  cases hnew : e.phase.isNew with
  | true => simp [hnew] at hstored
  | false => exact ⟨rfl, by simpa [hnew] using hstored⟩

theorem moved (h : Sound db w e) (row : WorkflowRow) (phase : Phase)
    (hrequest : row.request = e.row.request) (hcampaign : row.campaignId = e.row.request.campaignId)
    (hstatus : row.status.isTerminal = false) (hnew : phase.isNew = false)
    (hquiet : phase.isQuiet = false) :
    Sound db' w { e with row := row, phase := phase } where
  campaign := by simp [hnew, hcampaign, hrequest]
  source := fun r hr => hrequest ▸ h.source r hr
  ended := fun hterminal => by simp [hstatus] at hterminal
  quiet := fun hq => by simp [hstatus, hquiet] at hq

theorem settled (h : Sound db w e) (row : WorkflowRow) (phase : Phase)
    (hrequest : row.request = e.row.request) (hcampaign : row.campaignId = e.row.request.campaignId)
    (hnew : phase.isNew = false) (hend : row.status.isTerminal = true → phase.isEnd = true)
    (hquiet : Workflow.quiet db' w = true) :
    Sound db' w { e with row := row, phase := phase } where
  campaign := by simp [hnew, hcampaign, hrequest]
  source := fun r hr => hrequest ▸ h.source r hr
  ended := hend
  quiet := fun _ => hquiet

end Sound

@[simp]
theorem updateStep_request (row : WorkflowRow) (key : StepKey) (status : StepStatus) :
    (row.updateStep key status).request = row.request :=
  rfl

@[simp]
theorem updateStep_campaignId (row : WorkflowRow) (key : StepKey) (status : StepStatus) :
    (row.updateStep key status).campaignId = row.campaignId :=
  rfl

@[simp]
theorem updateStep_status (row : WorkflowRow) (key : StepKey) (status : StepStatus) :
    (row.updateStep key status).status = row.status :=
  rfl

/-! ## One lemma for each step of a thread -/

section Steps

variable {db db' : Database} {w : String} {e e' : Entry}

theorem link_sound (h : Sound db w e) (hstep : link e = some e') : Sound db w e' := by
  unfold link at hstep
  split at hstep
  · rename_i campaignId hphase hcampaign
    cases hstep
    refine h.settled _ _ rfl hcampaign.symm rfl (fun hterminal => ?_)
      (h.quiet (Or.inl (by simp [hphase, Phase.isQuiet])))
    have hend := h.ended hterminal
    simp [hphase, Phase.isEnd] at hend
  · cases hstep

theorem completeEmpty_sound (h : Sound db w e) (hstep : completeEmpty e = some e') :
    Sound db w e' := by
  unfold completeEmpty at hstep
  dsimp only at hstep
  split at hstep
  · rename_i hphase
    split at hstep
    · cases hstep
      exact h.settled _ _ rfl (by simp [h.campaign, hphase, Phase.isNew]) rfl (fun _ => rfl)
        (h.quiet (Or.inl (by simp [hphase, Phase.isQuiet])))
    · cases hstep
  · rename_i hphase
    split at hstep
    · rename_i hempty
      have hnone := (Bool.and_eq_true_iff.1 hempty).2
      cases hstep
      exact h.settled _ _ rfl
        (by simpa [h.campaign, hphase, Phase.isNew] using (Option.isNone_iff_eq_none.1 hnone).symm)
        rfl (fun _ => rfl) (h.quiet (Or.inl (by simp [hphase, Phase.isQuiet])))
    · cases hstep
  · cases hstep

theorem announce_sound (h : Sound db w e) (hstep : announce w db e = some (db', e')) :
    Sound db' w e' := by
  unfold announce at hstep
  split at hstep
  · rename_i campaignId hphase hcampaign
    split at hstep
    · cases hstep
    · cases hstep
      exact h.moved _ _ rfl (by simp [h.campaign, hphase, Phase.isNew])
        (h.notTerminal (by simp [hphase, Phase.isEnd])) rfl rfl
  · cases hstep

theorem readyToRun_spec (h : Sound db w e) (hready : e.readyToRun = true) :
    e.phase.isEnd = false ∧ e.row.campaignId = e.row.request.campaignId := by
  unfold Entry.readyToRun at hready
  split at hready
  · rename_i hphase
    exact ⟨by simp [hphase, Phase.isEnd], by simp [h.campaign, hphase, Phase.isNew]⟩
  · rename_i hphase
    have hnone := Option.isNone_iff_eq_none.1 (Bool.and_eq_true_iff.1 hready).1
    exact ⟨by simp [hphase, Phase.isEnd], by simp [h.campaign, hphase, Phase.isNew, hnone]⟩
  · cases hready

theorem schedule_sound (h : Sound db w e) (hstep : schedule e = some e') : Sound db w e' := by
  unfold schedule at hstep
  split at hstep
  · rename_i hready
    obtain ⟨hend, hcampaign⟩ := readyToRun_spec h (Bool.and_eq_true_iff.1 hready).1
    cases hstep
    exact h.moved _ _ rfl hcampaign (h.notTerminal hend) rfl rfl
  · cases hstep

theorem track_sound {operationId : String} (h : Sound db w e)
    (hstep : track operationId e = some e') : Sound db w e' := by
  unfold track at hstep
  split at hstep
  · rename_i hphase hkind hcampaign
    cases hstep
    exact h.moved _ _ rfl (by simp [h.campaign, hphase, Phase.isNew, hcampaign]) rfl rfl rfl
  · cases hstep

theorem resumeReconciliation_sound (h : Sound db w e)
    (hstep : resumeReconciliation e = some e') : Sound db w e' := by
  unfold resumeReconciliation at hstep
  split at hstep
  · cases hstep
  · rename_i source hsource
    split at hstep
    · cases hstep
      exact h.moved _ _ rfl (h.source source hsource) rfl rfl rfl
    · cases hstep

theorem running_spec (h : Sound db w e) (hnew : e.phase.isNew = false)
    (hend : e.phase.isEnd = false) :
    e.row.campaignId = e.row.request.campaignId ∧ e.row.status.isTerminal = false :=
  ⟨by simp [h.campaign, hnew], h.notTerminal hend⟩

theorem begin_sound {sawCancel : Bool} (h : Sound db w e)
    (hstep : begin sawCancel e = some e') : Sound db w e' := by
  unfold begin at hstep
  split at hstep
  · rename_i monitorOnly hphase
    obtain ⟨hcampaign, hstatus⟩ := running_spec h (by simp [hphase, Phase.isNew])
      (by simp [hphase, Phase.isEnd])
    split at hstep
    · cases hstep
      exact h.moved _ _ rfl hcampaign hstatus rfl rfl
    · split at hstep
      · split at hstep
        · cases hstep
          exact h.moved _ _ rfl hcampaign hstatus rfl rfl
        · cases hstep
      · cases hstep
        exact h.moved _ _ rfl hcampaign rfl rfl rfl
  · cases hstep

theorem afterStart_isNew (row : WorkflowRow) (operationIds : List String) :
    (afterStart row operationIds).isNew = false ∧
      (afterStart row operationIds).isQuiet = false := by
  unfold afterStart
  split
  · exact ⟨rfl, rfl⟩
  · split <;> exact ⟨rfl, rfl⟩

theorem launch_sound (h : Sound db w e) (hstep : launch w db e = some (db', e')) :
    Sound db' w e' := by
  unfold launch at hstep
  split at hstep
  · rename_i monitorOnly hphase
    obtain ⟨hcampaign, hstatus⟩ := running_spec h (by simp [hphase, Phase.isNew])
      (by simp [hphase, Phase.isEnd])
    split at hstep
    · split at hstep
      · cases hstep
        exact h.moved _ _ rfl hcampaign hstatus rfl rfl
      · cases hstep
        exact h.moved _ _ rfl hcampaign hstatus rfl rfl
    · cases hstep
      exact h.moved _ _ rfl hcampaign hstatus (afterStart_isNew _ _).1 (afterStart_isNew _ _).2
  · cases hstep

theorem started_sound {operationIds : List String} {errors : List AssetError}
    (h : Sound db w e) (hstep : started operationIds errors e = some e') : Sound db w e' := by
  unfold started at hstep
  split at hstep
  · rename_i hphase
    obtain ⟨hcampaign, hstatus⟩ := running_spec h (by simp [hphase, Phase.isNew])
      (by simp [hphase, Phase.isEnd])
    cases hkind : e.row.kind with
    | scan =>
        simp only [hkind] at hstep
        cases hstep
        exact h.moved _ _ rfl hcampaign hstatus (afterStart_isNew _ _).1 (afterStart_isNew _ _).2
    | verification =>
        simp only [hkind] at hstep
        cases hstep
        exact h.moved _ _ rfl hcampaign hstatus (afterStart_isNew _ _).1 (afterStart_isNew _ _).2
  · cases hstep

theorem observeCancel_sound (h : Sound db w e) (hstep : observeCancel e = some e') :
    Sound db w e' := by
  unfold observeCancel at hstep
  split at hstep
  · rename_i hphase
    obtain ⟨hcampaign, hstatus⟩ := running_spec h (by simp [hphase, Phase.isNew])
      (by simp [hphase, Phase.isEnd])
    split at hstep
    · cases hstep
      exact h.moved _ _ rfl hcampaign hstatus rfl rfl
    · cases hstep
  · cases hstep

theorem childrenDone_sound {operations : List ChildOperation} (h : Sound db w e)
    (hstep : childrenDone operations e = some e') : Sound db w e' := by
  unfold childrenDone at hstep
  split at hstep
  · rename_i hphase
    obtain ⟨hcampaign, hstatus⟩ := running_spec h (by simp [hphase, Phase.isNew])
      (by simp [hphase, Phase.isEnd])
    split at hstep
    · cases hstep
      exact h.moved _ _ rfl hcampaign hstatus rfl rfl
    · cases hstep
  · cases hstep

theorem reconciled_sound {phase : List ChildOperation → FinalPhase} {repository : Reconciler}
    (h : Sound db w e) (hstep : reconciled phase repository e = some e') : Sound db w e' := by
  unfold reconciled at hstep
  split at hstep
  · rename_i operations hphase
    obtain ⟨hcampaign, hstatus⟩ := running_spec h (by simp [hphase, Phase.isNew])
      (by simp [hphase, Phase.isEnd])
    cases hstep
    exact h.moved _ _ rfl hcampaign hstatus rfl rfl
  · cases hstep

theorem quiet_finalize {campaignId : String} {failedAssets : List String}
    (howned : Owned db w e) (hcampaign : e.row.campaignId = some campaignId) :
    quiet (finalizeCampaignVerification campaignId w failedAssets db) w = true := by
  rw [quiet_iff]
  intro k c' hc'
  rcases case?_finalizeCampaignVerification hc' with ⟨hsame, hfree⟩ | ⟨c, _, _, _, hdone⟩
  · by_contra hwaits
    rw [Bool.not_eq_false] at hwaits
    have hown : c'.verificationWorkflowId = some w :=
      of_decide_eq_true (Bool.and_eq_true_iff.1 hwaits).1
    obtain ⟨campaignId', hstored, hmember⟩ := howned k c' hsame hown
    rw [hcampaign] at hstored
    cases hstored
    exact hfree hmember hown
  · simp [waitsFor, hdone]

theorem quiet_of_no_campaign (howned : Owned db w e) (hcampaign : e.row.campaignId = none) :
    quiet db w = true := by
  rw [quiet_iff]
  intro k c hc
  by_contra hwaits
  rw [Bool.not_eq_false] at hwaits
  obtain ⟨campaignId, hstored, _⟩ :=
    howned k c hc (of_decide_eq_true (Bool.and_eq_true_iff.1 hwaits).1)
  rw [hcampaign] at hstored
  cases hstored

theorem finalize_sound (h : Sound db w e) (howned : Owned db w e)
    (hstep : finalize w db e = some (db', e')) : Sound db' w e' := by
  unfold finalize at hstep
  split at hstep
  · rename_i finished failed hphase
    obtain ⟨hcampaign, hstatus⟩ := running_spec h (by simp [hphase, Phase.isNew])
      (by simp [hphase, Phase.isEnd])
    split at hstep
    · rename_i campaignId hstored
      cases hstep
      exact h.settled _ _ rfl hcampaign rfl (fun hterminal => by simp [hstatus] at hterminal)
        (quiet_finalize howned hstored)
    · rename_i hstored
      cases hstep
      exact h.settled _ _ rfl hcampaign rfl (fun hterminal => by simp [hstatus] at hterminal)
        (quiet_of_no_campaign howned hstored)
  · cases hstep

theorem finish_sound (h : Sound db w e) (hstep : finish e = some e') : Sound db w e' := by
  unfold finish at hstep
  split at hstep
  · rename_i finished hphase
    cases hstep
    exact h.settled _ _ rfl (by simp [h.campaign, hphase, Phase.isNew]) rfl (fun _ => rfl)
      (h.quiet (Or.inl (by simp [hphase, Phase.isQuiet])))
  · cases hstep

theorem raise_sound {message : String} (h : Sound db w e) (hstep : raise message e = some e') :
    Sound db w e' := by
  unfold raise at hstep
  split at hstep
  · rename_i hguarded
    have hcampaign : e.row.campaignId = e.row.request.campaignId := by
      rw [h.campaign]
      revert hguarded
      cases e.phase <;> simp [Phase.guarded, Phase.isNew]
    cases hstep
    by_cases hterminal : e.row.status.isTerminal = true
    · simp only [hterminal, if_true]
      exact h.settled _ _ rfl hcampaign rfl (fun _ => rfl) (h.quiet (Or.inr hterminal))
    · simp only [hterminal]
      exact h.moved _ _ rfl hcampaign (by simpa using hterminal) rfl rfl
  · cases hstep

theorem die_sound (h : Sound db w e) (hstep : die e = some e') : Sound db w e' := by
  unfold die at hstep
  split at hstep
  · rename_i message hphase
    obtain ⟨hcampaign, hstatus⟩ := running_spec h (by simp [hphase, Phase.isNew])
      (by simp [hphase, Phase.isEnd])
    cases hstep
    exact h.moved _ _ rfl hcampaign hstatus rfl rfl
  · rename_i message hphase
    have hcampaign : e.row.campaignId = e.row.request.campaignId := by
      simp [h.campaign, hphase, Phase.isNew]
    cases hstep
    by_cases hterminal : e.row.status.isTerminal = true
    · exact h.settled _ _ rfl hcampaign rfl (fun _ => rfl) (h.quiet (Or.inr hterminal))
    · exact h.moved _ _ rfl hcampaign (by simpa using hterminal) rfl rfl
  · cases hstep

theorem storeFailed_sound (h : Sound db w e) (hquiet : quiet db w = true)
    (hstep : storeFailed e = some e') : Sound db w e' := by
  unfold storeFailed at hstep
  split at hstep
  · rename_i message hphase
    obtain ⟨hcampaign, _⟩ := running_spec h (by simp [hphase, Phase.isNew])
      (by simp [hphase, Phase.isEnd])
    cases hstep
    by_cases hsome : e.row.campaignId.isSome = true
    · simp only [hsome, if_true]
      exact h.settled _ _ rfl hcampaign rfl (fun _ => rfl) hquiet
    · simp only [hsome]
      exact h.settled _ _ rfl hcampaign rfl (fun _ => rfl) hquiet
  · cases hstep

theorem storeCancelled_sound (h : Sound db w e) (hquiet : quiet db w = true)
    (hstep : storeCancelled e = some e') : Sound db w e' := by
  unfold storeCancelled at hstep
  split at hstep
  · rename_i hphase
    obtain ⟨hcampaign, _⟩ := running_spec h (by simp [hphase, Phase.isNew])
      (by simp [hphase, Phase.isEnd])
    cases hstep
    by_cases hsome : e.row.campaignId.isSome = true
    · simp only [hsome, if_true]
      exact h.settled _ _ rfl hcampaign rfl (fun _ => rfl) hquiet
    · simp only [hsome]
      exact h.settled _ _ rfl hcampaign rfl (fun _ => rfl) hquiet
  · cases hstep

theorem told_sound {campaignId : String} {message : Option String} (h : Sound db w e)
    (hnew : e.phase.isNew = false) :
    Sound (setCampaignVerification campaignId w .failed message db) w
      { e with phase := .done } := by
  have hcampaign : e.row.campaignId = e.row.request.campaignId := by simp [h.campaign, hnew]
  by_cases hterminal : e.row.status.isTerminal = true
  · exact h.settled _ _ rfl hcampaign rfl (fun _ => rfl)
      (quiet_setCampaignVerification (h.quiet (Or.inr hterminal)) rfl)
  · exact h.moved _ _ rfl hcampaign (by simpa using hterminal) rfl rfl

theorem tellFailed_sound (h : Sound db w e) (hstep : tellFailed w db e = some (db', e')) :
    Sound db' w e' := by
  unfold tellFailed at hstep
  split at hstep
  · rename_i message campaignId hphase hstored
    cases hstep
    exact told_sound h (by simp [hphase, Phase.isNew])
  · cases hstep

theorem tellCancelled_sound (h : Sound db w e) (hstep : tellCancelled w db e = some (db', e')) :
    Sound db' w e' := by
  unfold tellCancelled at hstep
  split at hstep
  · rename_i campaignId hphase hstored
    cases hstep
    exact told_sound h (by simp [hphase, Phase.isNew])
  · cases hstep

theorem requestCancel_sound (h : Sound db w e) (hstep : requestCancel e = some e') :
    Sound db w e' := by
  unfold requestCancel at hstep
  split at hstep
  · cases hstep
    refine ⟨h.campaign, h.source, fun hterminal => ?_, fun hquiet => h.quiet (hquiet.imp_right ?_)⟩
    · cases hterminal
    · intro hterminal
      cases hterminal
  · cases hstep

/-! ## The step of a thread -/

/-- The step stores a failure or a cancellation of the workflow. -/
def storesEnd (e : Entry) : Action → Bool
  | .storeFailed => (storeFailed e).isSome
  | .storeCancelled => (storeCancelled e).isSome
  | _ => false

theorem own_eq_some {next : Option Entry}
    (h : (next.map fun e' => (db, e')) = some (db', e')) :
    next = some e' ∧ db' = db := by
  obtain ⟨e'', hnext, heq⟩ := Option.map_eq_some_iff.1 h
  cases heq
  exact ⟨hnext, rfl⟩

/-- A step of a thread keeps its workflow sound, when it does not end it with waiting cases. -/
theorem advance_sound {action : Action} (h : Sound db w e) (howned : Owned db w e)
    (hend : storesEnd e action = true → quiet db w = true)
    (hstep : advance w action db e = some (db', e')) : Sound db' w e' := by
  cases action with
  | announce => exact announce_sound h hstep
  | launch => exact launch_sound h hstep
  | finalize => exact finalize_sound h howned hstep
  | tellFailed => exact tellFailed_sound h hstep
  | tellCancelled => exact tellCancelled_sound h hstep
  | link => obtain ⟨hnext, rfl⟩ := own_eq_some hstep; exact link_sound h hnext
  | completeEmpty => obtain ⟨hnext, rfl⟩ := own_eq_some hstep; exact completeEmpty_sound h hnext
  | schedule => obtain ⟨hnext, rfl⟩ := own_eq_some hstep; exact schedule_sound h hnext
  | track operationId => obtain ⟨hnext, rfl⟩ := own_eq_some hstep; exact track_sound h hnext
  | resumeReconciliation =>
      obtain ⟨hnext, rfl⟩ := own_eq_some hstep
      exact resumeReconciliation_sound h hnext
  | begin sawCancel => obtain ⟨hnext, rfl⟩ := own_eq_some hstep; exact begin_sound h hnext
  | started operationIds errors =>
      obtain ⟨hnext, rfl⟩ := own_eq_some hstep
      exact started_sound h hnext
  | observeCancel => obtain ⟨hnext, rfl⟩ := own_eq_some hstep; exact observeCancel_sound h hnext
  | childrenDone operations =>
      obtain ⟨hnext, rfl⟩ := own_eq_some hstep
      exact childrenDone_sound h hnext
  | reconciled repository catalog configuredWorkers pick =>
      obtain ⟨hnext, rfl⟩ := own_eq_some hstep
      exact reconciled_sound h hnext
  | finish => obtain ⟨hnext, rfl⟩ := own_eq_some hstep; exact finish_sound h hnext
  | raise message => obtain ⟨hnext, rfl⟩ := own_eq_some hstep; exact raise_sound h hnext
  | die => obtain ⟨hnext, rfl⟩ := own_eq_some hstep; exact die_sound h hnext
  | storeFailed =>
      obtain ⟨hnext, rfl⟩ := own_eq_some hstep
      exact storeFailed_sound h (hend (by simp [storesEnd, hnext])) hnext
  | storeCancelled =>
      obtain ⟨hnext, rfl⟩ := own_eq_some hstep
      exact storeCancelled_sound h (hend (by simp [storesEnd, hnext])) hnext
  | requestCancel => obtain ⟨hnext, rfl⟩ := own_eq_some hstep; exact requestCancel_sound h hnext

theorem advance_keeps {action : Action} (hstep : advance w action db e = some (db', e')) :
    e'.row.request = e.row.request ∧ (e'.phase = e.phase ∨ e'.phase.isNew = false) := by
  cases action <;>
    simp only [advance, Option.map_eq_some_iff, Prod.mk.injEq, exists_eq_right_right, link,
      completeEmpty, announce, schedule, track, resumeReconciliation, begin, launch, started,
      observeCancel, childrenDone, reconciled, finalize, finish, raise, die, storeFailed,
      tellFailed, storeCancelled, tellCancelled, requestCancel] at hstep <;>
    repeat' split at hstep
  all_goals simp only [Option.some.injEq, Prod.mk.injEq, reduceCtorEq, false_and] at hstep
  all_goals
    obtain ⟨rfl, rfl⟩ := hstep
    refine ⟨rfl, ?_⟩
    first
      | exact Or.inl rfl
      | exact Or.inr rfl
      | exact Or.inr (afterStart_isNew _ _).1

/-- A step writes to the tables at most for the campaign that the workflow has stored. -/
theorem advance_effect {action : Action} (hstep : advance w action db e = some (db', e'))
    (h : Sound db w e) :
    Effect w db e'.row.campaignId db' := by
  cases action with
  | announce =>
      simp only [advance, announce] at hstep
      split at hstep
      · rename_i campaignId hphase hasked
        have hstored : e.row.campaignId = some campaignId := by
          simp [h.campaign, hphase, Phase.isNew, hasked]
        split at hstep
        · cases hstep
        · cases hstep
          exact hstored ▸ .marks campaignId _ _
      · cases hstep
  | launch =>
      simp only [advance, launch] at hstep
      split at hstep
      · split at hstep
        · split at hstep
          · rename_i campaignId hkind hstored
            cases hstep
            exact hstored ▸ .marks campaignId _ _
          · cases hstep
            exact .idle
        · cases hstep
          exact .idle
      · cases hstep
  | finalize =>
      simp only [advance, finalize] at hstep
      split at hstep
      · split at hstep
        · rename_i campaignId hstored
          cases hstep
          exact hstored ▸ .reports campaignId _
        · cases hstep
          exact .idle
      · cases hstep
  | tellFailed =>
      simp only [advance, tellFailed] at hstep
      split at hstep
      · rename_i message campaignId hphase hstored
        cases hstep
        exact hstored ▸ .marks campaignId _ _
      · cases hstep
  | tellCancelled =>
      simp only [advance, tellCancelled] at hstep
      split at hstep
      · rename_i campaignId hphase hstored
        cases hstep
        exact hstored ▸ .marks campaignId _ _
      · cases hstep
  | _ =>
      obtain ⟨_, rfl⟩ := own_eq_some hstep
      exact .idle

end Steps

end Workflow
end MpvmApp
