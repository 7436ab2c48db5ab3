import MpvmApp.Lib.Runs
import MpvmApp.Workflow.Threads

/-!
# The verification of a campaign

A workflow that finishes its assets reports to the cases before it stores its
outcome; one that fails or is cancelled stores its outcome first and then tells
only the active cases.

Main results:

- Theorem `Inv.step`: the invariant that ties the cases to the threads of their
  workflows is kept by every step that ends a workflow quietly.
- Theorem `no_case_waits_iff`: no case ever waits for an ended workflow exactly when
  no step stores a failure or a cancellation while a case waits.
-/

namespace MpvmApp
namespace Workflow

open Remediation Runs

/-! ## The invariant of the system -/

/-- No case waits for a workflow that has ended. -/
def NoCaseWaits (s : State) : Prop :=
  ∀ w e, s.workflows w = some e → e.row.status.isTerminal = true →
    ∀ k c, s.db.case? k = some c → c.verificationWorkflowId = some w →
      c.verificationStatus.isPending = false

/-- Every workflow is sound and owns the cases that carry its id. -/
structure Inv (s : State) : Prop where
  sound : ∀ w e, s.workflows w = some e → Sound s.db w e
  owned : ∀ k c w, s.db.case? k = some c → c.verificationWorkflowId = some w →
    ∃ e campaignId, s.workflows w = some e ∧ e.row.campaignId = some campaignId ∧
      s.db.inCampaign campaignId k = true

/-- A state before any workflow: no case carries the id of one. -/
structure State.Initial (s : State) : Prop where
  workflows : ∀ w, s.workflows w = none
  cases : ∀ k c, s.db.case? k = some c → c.verificationWorkflowId = none

theorem State.Initial.inv {s : State} (h : s.Initial) :
    Inv s where
  sound := fun w e he => by simp [h.workflows w] at he
  owned := fun k c w hc hw => by simp [h.cases k c hc] at hw

namespace Inv

variable {s : State}

theorem ownedBy (h : Inv s) {w : String} {e : Entry} (he : s.workflows w = some e) :
    Owned s.db w e := by
  intro k c hc hw
  obtain ⟨e', campaignId, he', hstored, hmember⟩ := h.owned k c w hc hw
  rw [he] at he'
  cases he'
  exact ⟨campaignId, hstored, hmember⟩

theorem quiet_of_fresh (h : Inv s) {w : String} (hfresh : s.workflows w = none) :
    quiet s.db w = true := by
  rw [quiet_iff]
  intro k c hc
  by_contra hwaits
  rw [Bool.not_eq_false] at hwaits
  obtain ⟨e, _, he, _⟩ :=
    h.owned k c w hc (of_decide_eq_true (Bool.and_eq_true_iff.1 hwaits).1)
  rw [hfresh] at he
  cases he

/-- A new workflow is sound. -/
theorem create (h : Inv s) (w : String) (kind : Kind) (request : WorkflowRequest)
    (source : Option WorkflowRow)
    (hsource : ∀ row, source = some row → row.campaignId = request.campaignId) :
    Inv (s.create w kind request source) := by
  unfold State.create
  split
  · exact h
  · rename_i hfresh
    have hnew : Sound s.db w
        { row := newWorkflow w kind request (source.map WorkflowRow.workflowId)
          source := source } :=
      ⟨rfl, hsource, fun hterminal => (nomatch hterminal), fun _ => h.quiet_of_fresh hfresh⟩
    refine ⟨fun v e he => ?_, fun k c v hc hv => ?_⟩
    · by_cases hvw : v = w
      · subst hvw
        simp only [State.put, if_true] at he
        cases he
        exact hnew
      · simp only [State.put, hvw, if_false] at he
        exact h.sound v e he
    · obtain ⟨e, campaignId, he, hstored, hmember⟩ := h.owned k c v hc hv
      have hvw : v ≠ w := by
        intro heq
        rw [heq, hfresh] at he
        cases he
      exact ⟨e, campaignId, by simpa [State.put, hvw] using he, hstored, hmember⟩

/-- A step of one thread keeps the invariant when it ends its workflow quietly. -/
theorem act (h : Inv s) {w : String} {action : Action} {e e' : Entry} {db' : Database}
    (he : s.workflows w = some e) (hend : storesEnd e action = true → quiet s.db w = true)
    (hstep : advance w action s.db e = some (db', e')) :
    Inv (s.put w db' e') := by
  have hsound := h.sound w e he
  have heffect := advance_effect hstep hsound
  obtain ⟨hrequest, hphase⟩ := advance_keeps hstep
  have hnext := advance_sound hsound (h.ownedBy he) hend hstep
  have hmember : ∀ campaignId k, s.db.inCampaign campaignId k = true →
      db'.inCampaign campaignId k = true := by
    intro campaignId k hin
    rw [Database.inCampaign, heffect.campaignCases]
    exact hin
  have hstays : ∀ campaignId, e.row.campaignId = some campaignId →
      e'.row.campaignId = some campaignId := by
    intro campaignId hstored
    obtain ⟨hold, hasked⟩ := hsound.campaign_of_stored hstored
    have hnew : e'.phase.isNew = false := by
      rcases hphase with hsame | hnew
      · rw [hsame, hold]
      · exact hnew
    rw [hnext.campaign, hnew, hrequest]
    exact hasked
  refine ⟨fun v x hx => ?_, fun k c' v hc' hv => ?_⟩
  · by_cases hvw : v = w
    · subst hvw
      simp only [State.put, if_true] at hx
      cases hx
      exact hnext
    · simp only [State.put, hvw, if_false] at hx
      have hother := h.sound v x hx
      exact { hother with quiet := fun hq => heffect.quiet_other hvw (hother.quiet hq) }
  · rcases heffect.owner hc' hv with ⟨c, hc, hcv⟩ | ⟨rfl, campaignId, hstored, hin⟩
    · obtain ⟨x, campaignId, hx, hstored, hin⟩ := h.owned k c v hc hcv
      by_cases hvw : v = w
      · subst hvw
        rw [he] at hx
        cases hx
        exact ⟨e', campaignId, by simp [State.put], hstays campaignId hstored,
          hmember campaignId k hin⟩
      · exact ⟨x, campaignId, by simpa [State.put, hvw] using hx, hstored,
          hmember campaignId k hin⟩
    · exact ⟨e', campaignId, by simp [State.put], hstored, hmember campaignId k hin⟩

theorem remediation (h : Inv s) (cfg : Settings) {op : Operation}
    (hop : isVerification op = false) :
    Inv { s with db := Remediation.step cfg s.db op } := by
  have hquiet : ∀ w, quiet s.db w = true → quiet (Remediation.step cfg s.db op) w = true := by
    refine fun w hw => quiet_of_kept hw fun k c' hc' hwaits => ?_
    have hown := of_decide_eq_true (Bool.and_eq_true_iff.1 hwaits).1
    obtain ⟨c, hc, hid, hstatus⟩ := verification_kept cfg hop hc' (by simp [hown])
    exact ⟨c, hc, by simpa [waitsFor, hid, hstatus] using hwaits⟩
  refine ⟨fun w e he => ?_, fun k c' w hc' hw => ?_⟩
  · have hsound := h.sound w e he
    exact { hsound with quiet := fun hq => hquiet w (hsound.quiet hq) }
  · obtain ⟨c, hc, hid, _⟩ := verification_kept cfg hop hc' (by simp [hw])
    obtain ⟨e, campaignId, he, hstored, hmember⟩ := h.owned k c w hc (hid.symm.trans hw)
    refine ⟨e, campaignId, he, hstored, ?_⟩
    exact decide_eq_true (campaignCases_step cfg s.db op (of_decide_eq_true hmember))

end Inv

/-- The event does not end a workflow for which a case still waits. -/
def endsQuietly (s : State) : Event → Bool
  | .act w action =>
      (s.workflows w).all fun e => !storesEnd e action || quiet s.db w
  | _ => true

/-- Every step that ends no workflow with waiting cases keeps the invariant. -/
theorem Inv.step (cfg : Settings) {s : State} {ev : Event} (h : Inv s)
    (hok : endsQuietly s ev = true) :
    Inv (step cfg s ev) := by
  cases ev with
  | scan w taskId reconcile =>
      exact h.create _ _ _ _ fun _ hnone => by cases hnone
  | verification w campaignId targets reconcile =>
      exact h.create _ _ _ _ fun _ hnone => by cases hnone
  | assetGroup w assetGroupId assetIds reconcile =>
      exact h.create _ _ _ _ fun _ hnone => by cases hnone
  | retry w sourceId =>
      simp only [Workflow.step]
      split
      · exact h
      · rename_i source hsource
        split
        · rename_i hretry
          -- A workflow that can be retried has ended, so its campaign is stored.
          refine h.create _ _ _ _ fun row hrow => ?_
          cases hrow
          have hsound := h.sound sourceId source hsource
          have hterminal : source.row.status.isTerminal = true := by
            revert hretry
            cases source.row.status <;> simp [RunStatus.canRetry, RunStatus.isTerminal]
          have hend := hsound.ended hterminal
          have hnew : source.phase.isNew = false := by
            revert hend
            cases source.phase <;> simp [Phase.isEnd, Phase.isNew]
          simp [hsound.campaign, hnew]
        · exact h
  | act w action =>
      simp only [Workflow.step]
      split
      · exact h
      · rename_i e he
        split
        · rename_i db' e' hstep
          refine h.act he (fun hend => ?_) hstep
          simpa [endsQuietly, he, hend] using hok
        · exact h
  | remediation op =>
      simp only [Workflow.step]
      split
      · exact h
      · rename_i hop
        exact h.remediation cfg (by simpa using hop)

/-! ## Runs -/

theorem Inv.noCaseWaits {s : State} (h : Inv s) :
    NoCaseWaits s := by
  intro w e he hterminal k c hc hw
  have hwaits := quiet_iff.1 ((h.sound w e he).quiet (Or.inr hterminal)) k c hc
  simpa [waitsFor, hw] using hwaits

/-- A step that ends a workflow stores a terminal status and writes no case. -/
theorem storesEnd_spec (w : String) (db : Database) {e : Entry} {action : Action}
    (h : storesEnd e action = true) :
    ∃ e', advance w action db e = some (db, e') ∧ e'.row.status.isTerminal = true := by
  unfold storesEnd at h
  split at h
  · obtain ⟨e', he'⟩ := Option.isSome_iff_exists.1 h
    refine ⟨e', by simp [advance, he'], ?_⟩
    unfold storeFailed at he'
    split at he'
    · cases he'
      rfl
    · cases he'
  · obtain ⟨e', he'⟩ := Option.isSome_iff_exists.1 h
    refine ⟨e', by simp [advance, he'], ?_⟩
    unfold storeCancelled at he'
    split at he'
    · cases he'
      rfl
    · cases he'
  · cases h

/-- A step that ends a workflow with a waiting case leaves that case waiting. -/
theorem endsQuietly_of_noCaseWaits (cfg : Settings) {s : State} {ev : Event}
    (h : NoCaseWaits (step cfg s ev)) :
    endsQuietly s ev = true := by
  cases ev with
  | act w action =>
      simp only [endsQuietly, Option.all_eq_true, Bool.or_eq_true, Bool.not_eq_true']
      intro e he
      by_cases hend : storesEnd e action = true
      · obtain ⟨e', hstep, hterminal⟩ := storesEnd_spec w s.db hend
        refine Or.inr (quiet_iff.2 fun k c hc => ?_)
        by_contra hwaits
        rw [Bool.not_eq_false] at hwaits
        obtain ⟨hown, hpending⟩ := Bool.and_eq_true_iff.1 hwaits
        simp only [step, he, hstep] at h
        have hdone := h w e' (by simp [State.put]) hterminal k c hc (of_decide_eq_true hown)
        rw [hdone] at hpending
        cases hpending
      · exact Or.inl (by simpa using hend)
  | _ => rfl

/--
No case waits for an ended workflow in any state of a run exactly when no step of
the run stores a failure or a cancellation of a workflow for which a case waits.
-/
theorem no_case_waits_iff (cfg : Settings) {s : State} (hinit : s.Initial)
    (events : List Event) :
    Along (step cfg) (fun s ev => NoCaseWaits (step cfg s ev)) s events ↔
      Along (step cfg) (fun s ev => endsQuietly s ev = true) s events := by
  refine (along_congr (fun s ev (h : Inv s) hok => h.step cfg hok) (fun s ev h => ?_)
    hinit.inv events).symm
  exact ⟨fun hok => (h.step cfg hok).noCaseWaits, endsQuietly_of_noCaseWaits cfg⟩

/-- No workflow, and a database with a deadline policy and nothing else. -/
def emptyState : State where
  db := emptyDatabase defaultPolicy
  workflows := fun _ => none

theorem emptyState_initial : emptyState.Initial where
  workflows := fun _ => rfl
  cases := fun k c h => by simp [emptyState, Database.case?, emptyDatabase] at h

/-- A campaign with one case whose verification has started its child operation. -/
def verificationStarted : List Event :=
  [.remediation (.saveAssets (oneAsset [oneFinding])), .remediation (.reconcile "host" 10),
    .remediation (.campaign "c1" { caseIds := [oneCaseId], assignee := none, dueAt := none }),
    .verification "w1" "c1" ["host"] none, .act "w1" .link, .act "w1" .announce,
    .act "w1" .schedule, .act "w1" (.begin false), .act "w1" .launch,
    .act "w1" (.started ["op1"] [])]

/-- The verification goes on to its end while the operator works on the case. -/
def verificationFinished : List Event :=
  verificationStarted ++
    [.remediation (.patch oneCaseId { expectedVersion := 3, status := some (some .inProgress) } 20),
      .act "w1" (.childrenDone
        [{ operationId := "op1", status := "completed", subjectId := some "host" }]),
      .act "w1" (.reconciled (fun _ => .ok {}) ["host"] 3 fun _ => 0),
      .act "w1" .finalize, .act "w1" .finish]

/-- The verification finishes, and no case has ever waited for an ended workflow. -/
theorem no_case_waits_finished :
    Along (step plainSettings) (fun s ev => NoCaseWaits (step plainSettings s ev)) emptyState
      verificationFinished :=
  (no_case_waits_iff plainSettings emptyState_initial verificationFinished).2 (by decide +kernel)

/-- The operator accepts the risk of the case, then the verification fails. -/
def verificationFailed : List Event :=
  verificationStarted ++
    [.remediation (.patch oneCaseId (acceptRisk 3 100) 20),
      .act "w1" (.raise "connection lost"), .act "w1" .storeFailed, .act "w1" .tellFailed]

/-- The case of a failed workflow waits for it forever. -/
theorem cases_wait_for_failed_workflow :
    ¬∀ (cfg : Settings) (s : State) (events : List Event), s.Initial →
      NoCaseWaits (run (step cfg) s events) := by
  intro h
  have hrun := h plainSettings emptyState verificationFailed emptyState_initial
  have hended : ((run (step plainSettings) emptyState verificationFailed).workflows "w1").any
      (fun e => e.row.status.isTerminal) = true := by
    decide +kernel
  have hwaits : ((run (step plainSettings) emptyState verificationFailed).db.case?
      oneCaseId).any (fun c => waitsFor "w1" c) = true := by
    decide +kernel
  obtain ⟨e, he, hterminal⟩ := (Option.any_eq_true _ _).1 hended
  obtain ⟨c, hc, hwait⟩ := (Option.any_eq_true _ _).1 hwaits
  obtain ⟨hown, hpending⟩ := Bool.and_eq_true_iff.1 hwait
  rw [hrun "w1" e he hterminal oneCaseId c hc (of_decide_eq_true hown)] at hpending
  cases hpending

end Workflow
end MpvmApp
