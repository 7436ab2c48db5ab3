import MpvmApp.Remediation.Lifecycle
import MpvmApp.Workflow.Machine

/-!
# Cases that wait for a workflow

A case waits for a workflow while it carries the id of the workflow and a
verification status that is queued or running.  The lemmas say which cases the
writes of a thread, and of all other writers, leave waiting.

Main results:

- Theorem `Effect.quiet_other`: a thread makes no case wait for another workflow.
- Theorem `verification_kept`: the operations outside the workflows leave the
  verification of every case alone.
- Theorem `campaignCases_step`: no operation removes a case from a campaign.
-/

namespace MpvmApp
namespace Workflow

open Remediation

/-! ## Waiting cases -/

/-- The case waits for the outcome of the workflow. -/
def waitsFor (w : String) (c : CaseRow) : Bool :=
  decide (c.verificationWorkflowId = some w) && c.verificationStatus.isPending

/-- No case waits for the workflow. -/
def quiet (db : Database) (w : String) : Bool :=
  db.cases.rows.all fun c => !waitsFor w c

theorem quiet_iff {db : Database} {w : String} :
    quiet db w = true ↔ ∀ k c, db.case? k = some c → waitsFor w c = false := by
  simp only [quiet, List.all_eq_true, Bool.not_eq_true']
  constructor
  · intro h k c hc
    exact h c (Table.find?_eq_some_iff.1 hc).1
  · intro h c hc
    exact h c.caseId c (Table.find?_of_mem hc)

theorem quiet_of_kept {db db' : Database} {w : String} (h : quiet db w = true)
    (hkept : ∀ k c', db'.case? k = some c' → waitsFor w c' = true →
      ∃ c, db.case? k = some c ∧ waitsFor w c = true) :
    quiet db' w = true := by
  rw [quiet_iff] at h ⊢
  intro k c' hc'
  by_contra hwaits
  rw [Bool.not_eq_false] at hwaits
  obtain ⟨c, hc, hwait⟩ := hkept k c' hc' hwaits
  rw [h k c hc] at hwait
  cases hwait

/-! ## What a thread writes to the tables -/

/-- The writes of a thread to the remediation tables, for the campaign of its workflow. -/
inductive Effect (w : String) (db : Database) : Option String → Database → Prop
  | idle {campaign : Option String} : Effect w db campaign db
  | marks (campaignId : String) (status : VerificationStatus) (message : Option String) :
      Effect w db (some campaignId) (setCampaignVerification campaignId w status message db)
  | reports (campaignId : String) (failedAssets : List String) :
      Effect w db (some campaignId) (finalizeCampaignVerification campaignId w failedAssets db)

theorem case?_setCampaignVerification {db : Database} {campaignId w k : String}
    {status : VerificationStatus} {message : Option String} {c' : CaseRow}
    (h : (setCampaignVerification campaignId w status message db).case? k = some c') :
    db.case? k = some c' ∨
      (c'.verificationWorkflowId = some w ∧ c'.verificationStatus = status ∧
        db.inCampaign campaignId k = true) := by
  obtain ⟨c, hc, hwrite⟩ := Database.case?_of_updateWhere h
  split at hwrite
  · rename_i htaken
    have hmember := (Bool.and_eq_true_iff.1 htaken).1
    rw [Database.caseId_of_case? hc] at hmember
    exact Or.inr (hwrite ▸ ⟨rfl, rfl, hmember⟩)
  · exact Or.inl (hwrite ▸ hc)

/-- A reported case had the workflow and waits no more, every other case is as before. -/
theorem case?_finalizeCampaignVerification {db : Database} {campaignId w k : String}
    {failedAssets : List String} {c' : CaseRow}
    (h : (finalizeCampaignVerification campaignId w failedAssets db).case? k = some c') :
    (db.case? k = some c' ∧
        (db.inCampaign campaignId k = true → c'.verificationWorkflowId ≠ some w)) ∨
      (∃ c, db.case? k = some c ∧ c'.verificationWorkflowId = c.verificationWorkflowId ∧
        c.verificationWorkflowId = some w ∧ c'.verificationStatus.isPending = false) := by
  obtain ⟨c, hc, hwrite⟩ := Database.case?_of_updateWhere h
  split at hwrite
  · rename_i htaken
    have hown := (Bool.and_eq_true_iff.1 htaken).2
    refine Or.inr ⟨c, hc, hwrite ▸ rfl, of_decide_eq_true hown, ?_⟩
    rw [← hwrite]
    unfold finalizeCase
    dsimp only
    split
    · rfl
    · split <;> rfl
  · rename_i hfree
    refine Or.inl ⟨hwrite ▸ hc, fun hmember hown => hfree ?_⟩
    rw [← hwrite] at hown
    simp [Database.finalizable, Database.caseId_of_case? hc, hmember, hown]

theorem quiet_setCampaignVerification {db : Database} {campaignId w : String}
    {status : VerificationStatus} {message : Option String} (h : quiet db w = true)
    (hstatus : status.isPending = false) :
    quiet (setCampaignVerification campaignId w status message db) w = true := by
  refine quiet_of_kept h fun k c' hc' hwaits => ?_
  rcases case?_setCampaignVerification hc' with hsame | ⟨_, hmarked, _⟩
  · exact ⟨c', hsame, hwaits⟩
  · rw [waitsFor, hmarked, hstatus, Bool.and_false] at hwaits
    cases hwaits

/-- A thread does not make a case wait for another workflow. -/
theorem Effect.quiet_other {w v : String} {db db' : Database} {campaign : Option String}
    (h : Effect w db campaign db') (hne : v ≠ w) (hquiet : quiet db v = true) :
    quiet db' v = true := by
  have hnot : ∀ c : CaseRow, c.verificationWorkflowId = some w → waitsFor v c = false := by
    intro c hc
    simp [waitsFor, hc, Ne.symm hne]
  cases h with
  | idle => exact hquiet
  | marks campaignId status message =>
      refine quiet_of_kept hquiet fun k c' hc' hwaits => ?_
      rcases case?_setCampaignVerification hc' with hsame | ⟨hown, _⟩
      · exact ⟨c', hsame, hwaits⟩
      · rw [hnot c' hown] at hwaits
        cases hwaits
  | reports campaignId failedAssets =>
      refine quiet_of_kept hquiet fun k c' hc' hwaits => ?_
      rcases case?_finalizeCampaignVerification hc' with ⟨hsame, _⟩ | ⟨c, _, hkept, hown, _⟩
      · exact ⟨c', hsame, hwaits⟩
      · rw [hnot c' (hkept.trans hown)] at hwaits
        cases hwaits

theorem Effect.campaignCases {w : String} {db db' : Database} {campaign : Option String}
    (h : Effect w db campaign db') :
    db'.campaignCases = db.campaignCases := by
  cases h <;> rfl

theorem Effect.owner {w v k : String} {db db' : Database} {campaign : Option String}
    {c' : CaseRow} (h : Effect w db campaign db') (hc' : db'.case? k = some c')
    (hv : c'.verificationWorkflowId = some v) :
    (∃ c, db.case? k = some c ∧ c.verificationWorkflowId = some v) ∨
      (v = w ∧ ∃ campaignId, campaign = some campaignId ∧ db.inCampaign campaignId k = true) := by
  cases h with
  | idle => exact Or.inl ⟨c', hc', hv⟩
  | marks campaignId status message =>
      rcases case?_setCampaignVerification hc' with hsame | ⟨hown, _, hmember⟩
      · exact Or.inl ⟨c', hsame, hv⟩
      · rw [hown] at hv
        exact Or.inr ⟨(Option.some.inj hv).symm, campaignId, rfl, hmember⟩
  | reports campaignId failedAssets =>
      rcases case?_finalizeCampaignVerification hc' with ⟨hsame, _⟩ | ⟨c, hc, hkept, _⟩
      · exact Or.inl ⟨c', hsame, hv⟩
      · exact Or.inl ⟨c, hc, hkept.symm.trans hv⟩

/-! ## What the other writers keep -/

/-- The operations outside the workflows leave the verification of every case alone. -/
theorem verification_kept (cfg : Settings) {db : Database} {op : Operation}
    (hop : isVerification op = false) {k : String} {c' : CaseRow}
    (hc' : (Remediation.step cfg db op).case? k = some c')
    (hsome : c'.verificationWorkflowId ≠ none) :
    ∃ c, db.case? k = some c ∧ c'.verificationWorkflowId = c.verificationWorkflowId ∧
      c'.verificationStatus = c.verificationStatus := by
  obtain ⟨es, _, hcase⟩ := step_case cfg db op k
  rw [hc'] at hcase
  generalize hafter : some c' = after at hcase
  cases hcase with
  | idle => exact ⟨c', hafter.symm, rfl, rfl⟩
  | commented ch hrow hversion =>
      cases hafter
      exact ⟨_, hrow, rfl, rfl⟩
  | patched hrow hversion hvalid hstatus =>
      cases hafter
      exact ⟨_, hrow, rfl, rfl⟩
  | expired hrow hpolicy hexpired =>
      cases hafter
      exact ⟨_, hrow, rfl, rfl⟩
  | started hrow hasset hkey hfinding hresume =>
      cases hafter
      exact ⟨_, hrow, rfl, rfl⟩
  | createdStarted ch hrow hk =>
      cases hafter
      exact absurd rfl hsome
  | created ch hrow hk =>
      cases hafter
      exact absurd rfl hsome
  | refreshed hrow hstatus =>
      cases hafter
      exact ⟨_, hrow, rfl, rfl⟩
  | reopened hrow hstatus =>
      cases hafter
      exact ⟨_, hrow, rfl, rfl⟩
  | resolved hrow hresolves =>
      cases hafter
      exact ⟨_, hrow, rfl, rfl⟩
  | recalculated hrow htaken =>
      cases hafter
      exact ⟨_, hrow, rfl, rfl⟩
  | verified hrow htaken => cases hop
  | finalized hrow htaken => cases hop
  | assigned hrow =>
      cases hafter
      exact ⟨_, hrow, rfl, rfl⟩
  | rewritten hrow =>
      cases hafter
      exact ⟨_, hrow, rfl, rfl⟩

theorem patchCase_campaignCases {db db' : Database} {caseId : String} {p : CaseUpdate}
    {now : Instant} {r : Option CaseRow} (h : patchCase caseId p now db = .ok (db', r)) :
    db'.campaignCases = db.campaignCases := by
  unfold patchCase at h
  split at h
  · obtain ⟨ch, _, hupdate⟩ := bind_eq_ok h
    rcases update_eq_ok hupdate with rfl | ⟨_, _, _, ⟨_, rfl⟩ | ⟨_, _, rfl⟩⟩ <;> rfl
  · cases h

theorem startFinding_campaignCases {cfg : Settings} {db db' : Database}
    {request : StartRequest} {now : Instant} {r : CaseRow}
    (h : startFinding cfg.locale cfg.md5 request now db = .ok (db', r)) :
    db'.campaignCases = db.campaignCases := by
  unfold startFinding at h
  dsimp only at h
  split at h
  · cases h
  split at h
  · cases h
  unfold startForFinding at h
  dsimp only at h
  split at h
  · cases h
  split at h
  · obtain ⟨_, ⟨rfl, _⟩ | rfl⟩ := startExisting_eq_ok h <;> rfl
  · split at h
    · cases h
    · obtain ⟨_, ⟨rfl, _⟩ | rfl⟩ := startExisting_eq_ok h <;> rfl

theorem reconcile_campaignCases (cfg : Settings) (db : Database) (assetId : String)
    (now : Instant) :
    (Remediation.reconcile cfg.locale cfg.md5 cfg.staleDays assetId now db).1.campaignCases =
      db.campaignCases := by
  unfold Remediation.reconcile
  split
  · rename_i result hresult
    rcases reconcileAsset_eq_ok hresult with hsame | ⟨_, _, _, inserted, _, _, hins, hwrite⟩
    · rw [hsame]
    · rw [hwrite]
      exact hins.campaignCases
  · rfl

/-- No operation removes a case from a campaign. -/
theorem campaignCases_step (cfg : Settings) (db : Database) (op : Operation) :
    db.campaignCases ⊆ (Remediation.step cfg db op).campaignCases := by
  cases hperform : perform cfg op db with
  | error e =>
      rw [step_of_rejected hperform]
      exact List.Subset.refl _
  | ok db' =>
      rw [step_of_performed hperform]
      cases op with
      | patch caseId request now =>
          obtain ⟨_, hpatch, rfl⟩ := map_eq_ok hperform
          rw [patchCase_campaignCases hpatch]
          exact List.Subset.refl _
      | start request now =>
          obtain ⟨_, hstart, rfl⟩ := map_eq_ok hperform
          rw [startFinding_campaignCases hstart]
          exact List.Subset.refl _
      | expire now =>
          cases hperform
          unfold expireRiskAcceptances
          split <;> exact List.Subset.refl _
      | reconcile assetId now =>
          cases hperform
          rw [reconcile_campaignCases]
          exact List.Subset.refl _
      | policy values applyToOpen now =>
          simp only [perform, updatePolicy] at hperform
          repeat' split at hperform
          all_goals first | cases hperform; exact List.Subset.refl _ | cases hperform
      | campaign campaignId values =>
          simp only [perform, createCampaign] at hperform
          repeat' split at hperform
          all_goals first | cases hperform; exact List.subset_append_left _ _ | cases hperform
      | context assetId values v =>
          simp only [perform, setContext] at hperform
          repeat' split at hperform
          all_goals first | cases hperform; exact List.Subset.refl _ | cases hperform
      | passports plan =>
          simp only [perform, replacePassports] at hperform
          split at hperform
          all_goals first | cases hperform; exact List.Subset.refl _ | cases hperform
      | verification _ _ _ _ | finalize _ _ _ | saveAssets _ =>
          cases hperform
          exact List.Subset.refl _

end Workflow
end MpvmApp
