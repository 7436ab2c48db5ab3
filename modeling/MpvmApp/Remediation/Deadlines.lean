import MpvmApp.Remediation.Lifecycle

/-!
# Deadlines that an operator has set

The deadline of a case is counted by the policy until an operator sets it.  Five writers give a
case a deadline; the policy change passes over the manual ones, whereas the expiry of an exception
and the reopening of a resolved case start a new deadline.

Main definitions:

- Definition `orderedDue`: the deadline that an operation sets by order of an operator.
- Definition `renewsDeadline`: the operations that give a manual deadline up.

Main results:

- Theorem `deadline_of_ordered`: an order of an operator is carried out and marked.
- Theorem `manual_deadline_step`: one step leaves a manual deadline, or renews it.
- Theorem `manual_deadlines_kept`: a manual deadline stays until it is renewed, and a policy
  that is applied unchanged changes no manual and no closed case.
-/

namespace MpvmApp
namespace Remediation

open Sql Findings Runs

/-! ## Orders and renewals -/

/-- The case that a start request is about. -/
def startedCase (cfg : Settings) (db : Database) (request : StartRequest) : String :=
  match db.caseOf? (strip request.assetId) (strip request.vulnerabilityKey) with
  | some c => c.caseId
  | none => cfg.md5 (strip request.assetId ++ "\x1f" ++ strip request.vulnerabilityKey)

/-- The deadline, a date or none, that an operation sets for a case by order of an operator. -/
def orderedDue (cfg : Settings) (db : Database) (k : String) : Operation → Option (Option Instant)
  | .patch caseId p _ => if caseId = k then p.dueAt else none
  | .start request _ =>
      if startedCase cfg db request = k ∧ request.dueAt.isSome then some request.dueAt else none
  | .campaign _ values =>
      if k ∈ values.caseIds ∧ values.dueAt.isSome then some values.dueAt else none
  | _ => none

/-- An operator asks for the operation. -/
def Operation.ofOperator : Operation → Bool
  | .patch .. => true
  | .start .. => true
  | .campaign .. => true
  | _ => false

/-- The operation changes the case. -/
def changesCase (cfg : Settings) (db : Database) (k : String) (op : Operation) : Bool :=
  decide ((step cfg db op).case? k ≠ db.case? k)

/-- An operator sets the deadline of a case. -/
def SetsDeadline (cfg : Settings) (db : Database) (k : String) (op : Operation)
    (due : Option Instant) : Prop :=
  changesCase cfg db k op = true ∧ orderedDue cfg db k op = some due

instance {cfg : Settings} {db : Database} {k : String} {op : Operation} {due : Option Instant} :
    Decidable (SetsDeadline cfg db k op due) :=
  inferInstanceAs (Decidable (_ ∧ _))

/-- A reconciliation of the asset finds a resolved case of it present again. -/
def reappears (cfg : Settings) (db : Database) (assetId : String) (c : CaseRow) : Bool :=
  decide (c.status = .resolved ∧ c.assetId = assetId) &&
    (findingOf? (currentFindings cfg.locale db assetId) c).isSome

/-- The operation takes a case up again whose exception has run out or whose finding is back. -/
def resumesCase (cfg : Settings) (db : Database) (c : CaseRow) : Operation → Bool
  | .start request _ =>
      decide (startedCase cfg db request = c.caseId ∧ c.status = .resolved)
  | .expire now => c.expired now
  | .reconcile assetId _ => reappears cfg db assetId c
  | _ => false

/--
The operation may give the case another deadline: by order of an operator, or since the case is
taken up again.
-/
def renewsDeadline (cfg : Settings) (k : String) (db : Database) (op : Operation) : Bool :=
  changesCase cfg db k op &&
    ((orderedDue cfg db k op).isSome || (db.case? k).any fun c => resumesCase cfg db c op)

/-- The case has the deadline, and the mark of an operator's deadline. -/
def ManualDeadline (db : Database) (k : String) (due : Option Instant) : Prop :=
  ∃ c, db.case? k = some c ∧ c.dueAt = due ∧ c.manualDue = true

theorem manualDeadline_iff {db : Database} {k : String} {due : Option Instant} :
    ((db.case? k).any fun c => decide (c.dueAt = due ∧ c.manualDue = true)) = true ↔
      ManualDeadline db k due := by
  simp only [Option.any_eq_true, decide_eq_true_eq]
  exact Iff.rfl

instance {db : Database} {k : String} {due : Option Instant} :
    Decidable (ManualDeadline db k due) :=
  decidable_of_iff _ manualDeadline_iff

/-! ## The writes of a start, a campaign and a reconciliation -/

theorem startCase_dueAt_of_some {policy : Option SlaPolicy} {request : StartRequest}
    {finding : CurrentFinding} {now : Instant} {c : CaseRow} (h : request.dueAt.isSome = true) :
    (startCase policy request finding now c).dueAt = request.dueAt ∧
      (startCase policy request finding now c).manualDue = true := by
  have hne : request.dueAt ≠ none := Option.isSome_iff_ne_none.1 h
  simp [startCase, h, hne]

theorem startCase_dueAt_of_working (policy : Option SlaPolicy) {request : StartRequest}
    (finding : CurrentFinding) (now : Instant) {c : CaseRow} (h : request.dueAt = none)
    (hstatus : c.status ≠ .resolved) :
    (startCase policy request finding now c).dueAt = c.dueAt ∧
      (startCase policy request finding now c).manualDue = c.manualDue := by
  simp [startCase, h, hstatus]

theorem case?_updateOne_self {db : Database} {row : CaseRow} {g : CaseRow → CaseRow} {hid hpair}
    {es : List CaseEvent} (hrow : db.case? row.caseId = some row) :
    ((db.updateWhere (fun c => decide (c.caseId = row.caseId)) g hid hpair).log es).case?
      row.caseId = some (g row) := by
  rw [Database.case?_log, Database.case?_updateWhere, hrow]
  simp

theorem case?_updateOne_of_ne {db : Database} {id k : String} {g : CaseRow → CaseRow} {hid hpair}
    {es : List CaseEvent} (hk : k ≠ id) :
    ((db.updateWhere (fun c => decide (c.caseId = id)) g hid hpair).log es).case? k =
      db.case? k := by
  rw [Database.case?_log, Database.case?_updateWhere]
  cases hc : db.case? k with
  | none => rfl
  | some c =>
      have hne : c.caseId ≠ id := (Database.caseId_of_case? hc).trans_ne hk
      simp [hne]

/--
An accepted start leaves a case as it is, or it is about this case and writes the deadline of its
request to it.
-/
theorem case?_of_start {cfg : Settings} {db db' : Database} {request : StartRequest}
    {now : Instant} {r : CaseRow}
    (h : startFinding cfg.locale cfg.md5 request now db = .ok (db', r)) (k : String) :
    db'.case? k = db.case? k ∨
      startedCase cfg db request = k ∧ ∃ clean finding c, clean.dueAt = request.dueAt ∧
        (∀ c', db.case? k = some c' → c' = c) ∧
        db'.case? k = some (startCase db.policy clean finding now c) := by
  unfold startFinding at h
  dsimp only at h
  split at h
  · cases h
  split at h
  · cases h
  unfold startForFinding at h
  dsimp only at h
  split at h
  · cases h
  rename_i finding hfinding
  split at h
  · rename_i current hcurrent
    obtain ⟨hcase, _⟩ := caseOf?_eq_some hcurrent
    obtain ⟨_, ⟨rfl, _⟩ | rfl⟩ := startExisting_eq_ok h
    · exact .inl rfl
    · by_cases hk : k = current.caseId
      · subst hk
        refine .inr ⟨by rw [startedCase, hcurrent], _, finding, current, rfl, fun c' hc' => ?_,
          case?_updateOne_self hcase⟩
        exact Option.some.inj (hc'.symm.trans hcase)
      · exact .inl (case?_updateOne_of_ne hk)
  · rename_i hnew
    split at h
    · cases h
    · rename_i cases hinsert
      obtain ⟨_, ⟨_, hworking⟩ | rfl⟩ := startExisting_eq_ok h
      · cases hworking
      · have hfree := Table.find?_eq_none_of_insert? hinsert
        generalize hrow : newCase cfg.md5 (strip request.assetId) (strip request.vulnerabilityKey)
          finding (policyDue db.policy now finding.severity) now = row at hinsert hfree
        have hid : startedCase cfg db request = row.caseId := by
          rw [startedCase, hnew, ← hrow]
          rfl
        have hinserted := case?_of_insert? hinsert
        by_cases hk : k = row.caseId
        · subst hk
          refine .inr ⟨hid, _, finding, row, rfl, fun c' hc' => ?_,
            case?_updateOne_self ((hinserted _).trans (if_pos rfl))⟩
          rw [Database.case?, hfree] at hc'
          cases hc'
        · exact .inl ((case?_updateOne_of_ne hk).trans
            ((hinserted k).trans (if_neg (Ne.symm hk))))

theorem case?_updateWhere_or {db base : Database} {p : CaseRow → Bool} {g : CaseRow → CaseRow}
    {hid hpair} {k : String} (hbase : base.cases = db.cases) :
    (base.updateWhere p g hid hpair).case? k = db.case? k ∨
      ∃ c, db.case? k = some c ∧ p c = true ∧
        (base.updateWhere p g hid hpair).case? k = some (g c) := by
  have hcase : base.case? k = db.case? k := by rw [Database.case?, Database.case?, hbase]
  rw [Database.case?_updateWhere, hcase]
  cases db.case? k with
  | none => exact .inl rfl
  | some c =>
      by_cases hp : p c = true
      · exact .inr ⟨c, rfl, hp, by simp [hp]⟩
      · exact .inl (by simp [hp])

/-- A campaign leaves a case as it is, or the case is one of its own and gets its deadline. -/
theorem case?_of_campaign {db db' : Database} {campaignId : String} {values : CampaignValues}
    (h : createCampaign campaignId values db = .ok db') (k : String) :
    db'.case? k = db.case? k ∨
      k ∈ values.caseIds ∧ ∃ c, db.case? k = some c ∧
        db'.case? k = some (assignCampaign values c) := by
  unfold createCampaign at h
  split at h
  · cases h
  rename_i hfresh
  split at h
  · dsimp only at h
    split at h
    · cases h
      rcases case?_updateWhere_or rfl with hsame | ⟨c, hrow, hjoined, hwritten⟩
      · exact .inl hsame
      refine .inr ⟨?_, c, hrow, hwritten⟩
      have hmem := of_decide_eq_true hjoined
      rw [Database.caseId_of_case? hrow] at hmem
      rcases List.mem_append.1 hmem with hold | hnew
      · -- the campaign is new
        exact absurd (List.any_eq_true.2 ⟨_, hold, by simp⟩) hfresh
      · obtain ⟨id, hid, heq⟩ := List.mem_map.1 hnew
        cases heq
        exact mem_fromKeys.1 hid
    · cases h
      exact .inl rfl
  · cases h

@[simp]
theorem resolveAbsent_dueAt (now : Instant) (absent : List CaseRow) (c : CaseRow) :
    (resolveAbsent now absent c).dueAt = c.dueAt := by
  unfold resolveAbsent
  split <;> rfl

@[simp]
theorem resolveAbsent_manualDue (now : Instant) (absent : List CaseRow) (c : CaseRow) :
    (resolveAbsent now absent c).manualDue = c.manualDue := by
  unfold resolveAbsent
  split <;> rfl

@[simp]
theorem refreshPresent_manualDue (policy : SlaPolicy) (now : Instant) (existing : List CaseRow)
    (found : List CurrentFinding) (c : CaseRow) :
    (refreshPresent policy now existing found c).manualDue = c.manualDue := by
  unfold refreshPresent
  split
  · split <;> rfl
  · rfl

theorem refreshPresent_dueAt {cfg : Settings} {db : Database} {assetId : String} {c : CaseRow}
    (hkept : reappears cfg db assetId c = false) (policy : SlaPolicy) (now : Instant) :
    (refreshPresent policy now (assetCases db assetId) (currentFindings cfg.locale db assetId)
      c).dueAt = c.dueAt := by
  by_cases hmem : c ∈ assetCases db assetId
  · cases hfinding : findingOf? (currentFindings cfg.locale db assetId) c with
    | none => rw [refreshPresent_of_absent fun _ => hfinding]
    | some finding =>
        have hstatus : c.status ≠ .resolved := by
          intro hresolved
          simp [reappears, hresolved, (mem_assetCases.1 hmem).2, hfinding] at hkept
        rw [refreshPresent_of_present hmem hfinding]
        exact if_neg hstatus
  · rw [refreshPresent_of_absent fun h => absurd h hmem]

theorem deadline_of_reconcile {cfg : Settings} {db : Database} {assetId k : String}
    {now : Instant} {c : CaseRow} (hrow : db.case? k = some c)
    (hkept : reappears cfg db assetId c = false) :
    ∃ c', (Remediation.reconcile cfg.locale cfg.md5 cfg.staleDays assetId now db).1.case? k =
        some c' ∧ c'.dueAt = c.dueAt ∧ c'.manualDue = c.manualDue := by
  unfold Remediation.reconcile
  split
  · rename_i result hresult
    rcases reconcileAsset_eq_ok hresult with
      hsame | ⟨policy, card, lastSeen, inserted, _, _, hins, hwritten⟩
    · exact ⟨c, by rw [hsame]; exact hrow, rfl, rfl⟩
    · rw [hwritten, case?_resolveCases, case?_refreshExisting, (hins.case?_of_some hrow).1]
      exact ⟨_, rfl, by simp [refreshPresent_dueAt hkept], by simp⟩
  · exact ⟨c, hrow, rfl, rfl⟩

/-! ## One step -/

theorem dueAt_of_validate {p : CaseUpdate} {now : Instant} {ch : CaseChanges}
    (h : validate p now = .ok ch) :
    ch.dueAt = p.dueAt := by
  rcases validate_eq_ok h with ⟨_, rfl⟩ | ⟨status, _, _, _, _, _, _, rfl⟩ | ⟨status, _, _, rfl⟩ <;>
    rfl

theorem case?_step_start (cfg : Settings) (db : Database) (request : StartRequest) (now : Instant)
    (k : String) :
    (step cfg db (.start request now)).case? k = db.case? k ∨
      startedCase cfg db request = k ∧ ∃ clean finding c, clean.dueAt = request.dueAt ∧
        (∀ c', db.case? k = some c' → c' = c) ∧
        (step cfg db (.start request now)).case? k =
          some (startCase db.policy clean finding now c) := by
  cases hperform : perform cfg (.start request now) db with
  | error e =>
      rw [step_of_rejected hperform]
      exact .inl rfl
  | ok db' =>
      rw [step_of_performed hperform]
      obtain ⟨⟨db₁, r⟩, hstart, rfl⟩ := map_eq_ok hperform
      exact case?_of_start hstart k

theorem case?_step_campaign (cfg : Settings) (db : Database) (campaignId : String)
    (values : CampaignValues) (k : String) :
    (step cfg db (.campaign campaignId values)).case? k = db.case? k ∨
      k ∈ values.caseIds ∧ ∃ c, db.case? k = some c ∧
        (step cfg db (.campaign campaignId values)).case? k = some (assignCampaign values c) := by
  cases hperform : perform cfg (.campaign campaignId values) db with
  | error e =>
      rw [step_of_rejected hperform]
      exact .inl rfl
  | ok db' =>
      rw [step_of_performed hperform]
      exact case?_of_campaign hperform k

theorem case?_step_patch (cfg : Settings) (db : Database) (caseId : String) (p : CaseUpdate)
    (now : Instant) (k : String) :
    (step cfg db (.patch caseId p now)).case? k = db.case? k ∨
      caseId = k ∧ ∃ (ch : CaseChanges) (status : CaseStatus) (c : CaseRow),
        ch.dueAt = p.dueAt ∧ db.case? k = some c ∧
        (step cfg db (.patch caseId p now)).case? k = some (ch.assign status c) := by
  obtain ⟨es, _, hcase⟩ := step_case cfg db (.patch caseId p now) k
  generalize hafter : (step cfg db (.patch caseId p now)).case? k = after at hcase
  cases hcase with
  | idle => exact .inl rfl
  | commented ch hrow hversion => exact .inl hrow.symm
  | @patched _ _ c ch status hrow hversion hvalid hstatus =>
      exact .inr ⟨rfl, ch, status, c, dueAt_of_validate hvalid, hrow, rfl⟩

/-- An order that changes the case is carried out, and the deadline is marked as manual. -/
theorem deadline_of_ordered {cfg : Settings} {db : Database} {k : String} {op : Operation}
    {due : Option Instant} (h : SetsDeadline cfg db k op due) :
    ManualDeadline (step cfg db op) k due := by
  obtain ⟨hchanges, hordered⟩ := h
  have hchanged : (step cfg db op).case? k ≠ db.case? k := of_decide_eq_true hchanges
  cases op with
  | patch caseId p now =>
      obtain ⟨rfl, ch, status, c, hdue, _, hwritten⟩ :=
        (case?_step_patch cfg db caseId p now k).resolve_left hchanged
      rw [orderedDue, if_pos rfl, ← hdue] at hordered
      exact ⟨_, hwritten, by simp [CaseChanges.assign, hordered],
        by simp [CaseChanges.assign, hordered]⟩
  | start request now =>
      obtain ⟨_, clean, finding, c, hdue, _, hwritten⟩ :=
        (case?_step_start cfg db request now k).resolve_left hchanged
      rw [orderedDue] at hordered
      split_ifs at hordered with hgiven
      cases hordered
      rw [← hdue] at hgiven ⊢
      exact ⟨_, hwritten, startCase_dueAt_of_some hgiven.2⟩
  | campaign campaignId values =>
      obtain ⟨_, c, _, hwritten⟩ :=
        (case?_step_campaign cfg db campaignId values k).resolve_left hchanged
      rw [orderedDue] at hordered
      split_ifs at hordered with hgiven
      cases hordered
      obtain ⟨due, hdue⟩ := Option.isSome_iff_exists.1 hgiven.2
      exact ⟨_, hwritten, by simp [assignCampaign, hdue], by simp [assignCampaign, hdue]⟩
  | _ => cases hordered

/-- What the background work leaves of a manual deadline; the recalculation passes over it. -/
theorem deadline_of_background {cfg : Settings} {db : Database} {k : String} {op : Operation}
    {c : CaseRow} (hrow : db.case? k = some c) (hmanual : c.manualDue = true)
    (hbackground : op.ofOperator = false) (hother : ∀ assetId now, op ≠ .reconcile assetId now)
    (hresumed : resumesCase cfg db c op = false) :
    ManualDeadline (step cfg db op) k c.dueAt := by
  obtain ⟨es, _, hcase⟩ := step_case cfg db op k
  generalize hafter : (step cfg db op).case? k = after at hcase
  cases hcase with
  | idle => exact ⟨c, hafter.trans hrow, rfl, hmanual⟩
  | expired hrow' _ hexpired =>
      cases hrow.symm.trans hrow'
      exact absurd hexpired (by rw [show c.expired _ = false from hresumed]; exact nofun)
  | recalculated hrow' htaken =>
      cases hrow.symm.trans hrow'
      simp [CaseRow.recalculable, hmanual] at htaken
  | verified hrow' _ =>
      cases hrow.symm.trans hrow'
      exact ⟨_, hafter, rfl, hmanual⟩
  | finalized hrow' _ =>
      cases hrow.symm.trans hrow'
      exact ⟨_, hafter, rfl, hmanual⟩
  | rewritten hrow' =>
      cases hrow.symm.trans hrow'
      exact ⟨_, hafter, rfl, hmanual⟩
  | created | refreshed | reopened | resolved => exact absurd rfl (hother _ _)
  | commented | patched | started | createdStarted | assigned => cases hbackground

/-- One step leaves a manual deadline, or renews it. -/
theorem manual_deadline_step {cfg : Settings} {db : Database} {k : String} {op : Operation}
    {due : Option Instant} (h : ManualDeadline db k due)
    (hkept : renewsDeadline cfg k db op = false) :
    ManualDeadline (step cfg db op) k due := by
  by_cases hsame : (step cfg db op).case? k = db.case? k
  · rw [ManualDeadline, hsame]
    exact h
  obtain ⟨c, hrow, rfl, hmanual⟩ := h
  have hchanges : changesCase cfg db k op = true := decide_eq_true hsame
  rw [renewsDeadline, hchanges, Bool.true_and, hrow, Option.any_some, Bool.or_eq_false_iff] at hkept
  obtain ⟨hordered, hresumed⟩ := hkept
  cases op with
  | patch caseId p now =>
      obtain ⟨rfl, ch, status, c', hdue, hrow', hwritten⟩ :=
        (case?_step_patch cfg db caseId p now k).resolve_left hsame
      cases hrow.symm.trans hrow'
      have hnone : ch.dueAt = none := by
        rw [orderedDue, if_pos rfl] at hordered
        rw [hdue]
        exact Option.not_isSome_iff_eq_none.1 (by rw [hordered]; exact nofun)
      exact ⟨_, hwritten, by simp [CaseChanges.assign, hnone],
        by simp [CaseChanges.assign, hnone, hmanual]⟩
  | start request now =>
      obtain ⟨hstarted, clean, finding, c', hdue, hsole, hwritten⟩ :=
        (case?_step_start cfg db request now k).resolve_left hsame
      cases hsole c hrow
      have hnone : request.dueAt = none := by
        simpa [orderedDue, hstarted] using hordered
      have hstatus : c.status ≠ .resolved := by
        simpa [resumesCase, hstarted, Database.caseId_of_case? hrow] using hresumed
      obtain ⟨hkept, hmark⟩ :=
        startCase_dueAt_of_working db.policy finding now (hdue.trans hnone) hstatus
      exact ⟨_, hwritten, hkept, hmark.trans hmanual⟩
  | campaign campaignId values =>
      obtain ⟨hmember, c', hrow', hwritten⟩ :=
        (case?_step_campaign cfg db campaignId values k).resolve_left hsame
      cases hrow.symm.trans hrow'
      have hnone : values.dueAt = none := by
        simpa [orderedDue, hmember] using hordered
      exact ⟨_, hwritten, by simp [assignCampaign, hnone], by simp [assignCampaign, hmanual]⟩
  | reconcile assetId now =>
      obtain ⟨c', hwritten, hdue, hmark⟩ := deadline_of_reconcile hrow hresumed
      exact ⟨c', hwritten, hdue, hmark.trans hmanual⟩
  | _ => exact deadline_of_background hrow hmanual rfl (fun _ _ => nofun) hresumed

/-! ## An unchanged policy -/

/-- The policy is applied to the open cases, with values that leave it as it is. -/
structure AppliesUnchanged (db : Database) (values : PolicyValues) (p : SlaPolicy) : Prop where
  stored : db.policy = some p
  unchanged : values.merge p = p

theorem case?_step_policy {cfg : Settings} {db : Database} {values : PolicyValues} {p : SlaPolicy}
    (h : AppliesUnchanged db values p) (now : Instant) (k : String) :
    (step cfg db (.policy values true now)).case? k =
      (db.case? k).map fun c => if c.recalculable then recalculateCase p c else c := by
  have hperform : perform cfg (.policy values true now) db = updatePolicy values true now db := rfl
  rw [updatePolicy, h.stored] at hperform
  rw [step_of_performed hperform, Database.case?_log, h.unchanged]
  exact Database.case?_updateWhere _ _ _ _ _ k

theorem AppliesUnchanged.step {cfg : Settings} {db : Database} {values : PolicyValues}
    {p : SlaPolicy} (h : AppliesUnchanged db values p) (now : Instant) :
    AppliesUnchanged (step cfg db (.policy values true now)) values p where
  stored := by
    have hperform :
        perform cfg (.policy values true now) db = updatePolicy values true now db := rfl
    rw [updatePolicy, h.stored] at hperform
    rw [step_of_performed hperform, h.unchanged]
    rfl
  unchanged := h.unchanged

/--
What an application of an unchanged policy is limited to: the manual and the closed cases stay as
they are, of the other ones only the deadline and the version change, and a second application
changes no deadline any more.
-/
structure AppliedOnce (cfg : Settings) (db : Database) (values : PolicyValues) (p : SlaPolicy)
    (now : Instant) : Prop where
  kept : ∀ k c, db.case? k = some c → c.status.isActive = false ∨ c.manualDue = true →
    (step cfg db (.policy values true now)).case? k = some c
  counted : ∀ k c, db.case? k = some c → c.status.isActive = true → c.manualDue = false →
    (step cfg db (.policy values true now)).case? k =
      some { c with dueAt := p.due c.firstSeenAt c.severity, version := c.version + 1 }
  again : ∀ k later,
    ((step cfg (step cfg db (.policy values true now)) (.policy values true later)).case? k).map
        CaseRow.dueAt =
      ((step cfg db (.policy values true now)).case? k).map CaseRow.dueAt

theorem appliedOnce {cfg : Settings} {db : Database} {values : PolicyValues} {p : SlaPolicy}
    (h : AppliesUnchanged db values p) (now : Instant) :
    AppliedOnce cfg db values p now where
  kept k c hrow hout := by
    have htaken : c.recalculable = false := by
      rcases hout with hclosed | hmanual
      · simp [CaseRow.recalculable, hclosed]
      · simp [CaseRow.recalculable, hmanual]
    rw [case?_step_policy h, hrow]
    simp [htaken]
  counted k c hrow hactive hmanual := by
    have htaken : c.recalculable = true := by simp [CaseRow.recalculable, hactive, hmanual]
    rw [case?_step_policy h, hrow]
    simp [htaken, recalculateCase]
  again k later := by
    rw [case?_step_policy (h.step now), case?_step_policy h, Option.map_map, Option.map_map,
      Option.map_map]
    congr 1
    funext c
    by_cases htaken : c.recalculable = true
    · have hstill : (recalculateCase p c).recalculable = true := htaken
      simp only [Function.comp, if_pos htaken, if_pos hstill]
      rfl
    · simp [htaken]

/-! ## Runs -/

/--
In every run a deadline that an operator has set stays, with its mark, until it is renewed: by a
later order, by the expiry of the exception of the case or when the resolved case is taken up
again.  No policy change does so, and a policy that is applied unchanged to the open cases changes
no more than the deadlines that are not manual, and those only once.
-/
theorem manual_deadlines_kept (cfg : Settings) (db : Database) (before : List Operation) :
    (∀ k op due mid, SetsDeadline cfg (run (step cfg) db before) k op due →
      Along (step cfg) (fun s o => renewsDeadline cfg k s o = false)
        (step cfg (run (step cfg) db before) op) mid →
      ManualDeadline (run (step cfg) db (before ++ op :: mid)) k due) ∧
    ∀ values p now, AppliesUnchanged (run (step cfg) db before) values p →
      AppliedOnce cfg (run (step cfg) db before) values p now := by
  constructor
  · intro k op due mid hset hmid
    have hstep : ∀ s o, ManualDeadline s k due → renewsDeadline cfg k s o = false →
        ManualDeadline (step cfg s o) k due := fun s o h hkept => manual_deadline_step h hkept
    rw [run_append, run_cons]
    exact hmid.invariant hstep (deadline_of_ordered hset)
  · intro values p now h
    exact appliedOnce h now

/-- An operator gives the only case a deadline, and the policy is changed twice afterwards. -/
theorem manual_deadlines_kept_afterPolicies :
    ManualDeadline (run (step plainSettings) (emptyDatabase defaultPolicy)
      ([.saveAssets (oneAsset [oneFinding]), .reconcile "host" 10] ++
        .patch oneCaseId { expectedVersion := 1, dueAt := some (some 50) } 20 ::
          [.policy { highDays := some 1 } true 30, .policy {} true 40])) oneCaseId (some 50) ∧
    AppliedOnce plainSettings
      (run (step plainSettings) (emptyDatabase defaultPolicy)
        [.saveAssets (oneAsset [oneFinding]), .reconcile "host" 10]) {} defaultPolicy 20 := by
  have h := manual_deadlines_kept plainSettings (emptyDatabase defaultPolicy)
    [.saveAssets (oneAsset [oneFinding]), .reconcile "host" 10]
  refine ⟨h.1 _ _ _ _ (by decide +kernel) (by decide +kernel), h.2 _ _ _ ⟨?_, rfl⟩⟩
  decide +kernel

/--
A manual deadline is replaced when the exception of the case has run out, and a policy that is
applied unchanged writes to the case that it counts.
-/
theorem deadlines_not_always_kept :
    (¬∀ (cfg : Settings) (db : Database) (before mid : List Operation) (op o : Operation)
        (k : String) (due : Option Instant), db.Initial →
      SetsDeadline cfg (run (step cfg) db before) k op due →
      ManualDeadline (run (step cfg) db (before ++ op :: mid)) k due → o.ofOperator = false →
      ManualDeadline (run (step cfg) db (before ++ op :: mid ++ [o])) k due) ∧
    ¬∀ (cfg : Settings) (db : Database) (before : List Operation) (values : PolicyValues)
        (p : SlaPolicy) (now : Instant) (k : String), db.Initial →
      AppliesUnchanged (run (step cfg) db before) values p →
      (step cfg (run (step cfg) db before) (.policy values true now)).case? k =
        (run (step cfg) db before).case? k := by
  constructor
  · intro h
    have hrun := h plainSettings _ [.saveAssets (oneAsset [oneFinding]), .reconcile "host" 10]
      [.patch oneCaseId (acceptRisk 2 100) 30]
      (.patch oneCaseId { expectedVersion := 1, dueAt := some (some 50) } 20) (.expire 100)
      oneCaseId (some 50) (emptyDatabase_initial defaultPolicy) (by decide +kernel)
      (by decide +kernel) rfl
    revert hrun
    decide +kernel
  · intro h
    have hrun := h plainSettings _ [.saveAssets (oneAsset [oneFinding]), .reconcile "host" 10] {}
      defaultPolicy 20 oneCaseId (emptyDatabase_initial defaultPolicy) ⟨by decide +kernel, rfl⟩
    revert hrun
    decide +kernel

end Remediation
end MpvmApp
