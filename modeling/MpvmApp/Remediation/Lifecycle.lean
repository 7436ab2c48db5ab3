import MpvmApp.Remediation.Service

/-!
# The lifecycle of one case

What each operation does to one case and to its history.  The relation
`CaseStep` lists every possibility once, with the guards under which the
operation takes it; all invariants of cases are derived from it.

Main results:

- Theorem `step_case`: every step of the system is, for every case id, one of
  the case steps, and the history of the case only grows.
- Theorem `cases_persist`: no case is lost, and no status changes without an event.
-/

namespace MpvmApp
namespace Remediation

open Sql Findings

namespace Database

/-! ## Reading a case after a write -/

@[simp]
theorem case?_log (db : Database) (es : List CaseEvent) (k : String) :
    (db.log es).case? k = db.case? k :=
  rfl

@[simp]
theorem history_log (db : Database) (es : List CaseEvent) (k : String) :
    (db.log es).history k = db.history k ++ es.filter fun e => decide (e.caseId = k) := by
  simp [history, log]

@[simp]
theorem case?_updateWhere (db : Database) (p : CaseRow → Bool) (g : CaseRow → CaseRow)
    (hid hpair) (k : String) :
    (db.updateWhere p g hid hpair).case? k =
      (db.case? k).map fun c => if p c then g c else c := by
  simp [updateWhere, updateCases, case?]

theorem case?_of_updateWhere {db : Database} {p : CaseRow → Bool} {g : CaseRow → CaseRow}
    {hid hpair} {k : String} {c' : CaseRow}
    (h : (db.updateWhere p g hid hpair).case? k = some c') :
    ∃ c, db.case? k = some c ∧ (if p c then g c else c) = c' := by
  rw [case?_updateWhere] at h
  exact Option.map_eq_some_iff.1 h

@[simp]
theorem history_updateWhere (db : Database) (p : CaseRow → Bool) (g : CaseRow → CaseRow)
    (hid hpair) (k : String) :
    (db.updateWhere p g hid hpair).history k = db.history k :=
  rfl

theorem caseId_of_case? {db : Database} {k : String} {c : CaseRow} (h : db.case? k = some c) :
    c.caseId = k :=
  Table.pk_of_find? h

end Database

theorem filter_map_events {f : CaseRow → CaseEvent} (hf : ∀ c, (f c).caseId = c.caseId)
    (rows : List CaseRow) (k : String) :
    ((rows.map f).filter fun e => decide (e.caseId = k)) =
      (rows.filter fun c => decide (c.caseId = k)).map f := by
  rw [List.filter_map]
  congr 1
  refine List.filter_congr fun c _ => ?_
  simp [hf c]

theorem filter_selected_events {f : CaseRow → CaseEvent} (hf : ∀ c, (f c).caseId = c.caseId)
    (db : Database) (p : CaseRow → Bool) (k : String) :
    (((db.cases.rows.filter p).map f).filter fun e => decide (e.caseId = k)) =
      ((db.case? k).filter p).toList.map f := by
  rw [filter_map_events hf, Table.filter_filter_key]
  rfl

/-! ## Case steps -/

/-- A complete snapshot of an asset without the finding of a case resolves the case. -/
def resolves (cfg : Settings) (db : Database) (assetId : String) (now : Instant)
    (c : CaseRow) : Bool :=
  decide (c.assetId = assetId) &&
    (findingOf? (currentFindings cfg.locale db assetId) c).isNone &&
    decide (c.status ≠ .resolved ∧ c.status ≠ .falsePositive) &&
    (db.cards.find? fun card => decide (card.assetId = assetId)).any fun card =>
      card.lastSeen.any fun lastSeen =>
        snapshotComplete db assetId cfg.staleDays lastSeen now

/--
What an operation does to the case `k` of a database: the row afterwards and the
events that it writes for the case.
-/
inductive CaseStep (cfg : Settings) (db : Database) (k : String) :
    Operation → Option CaseRow → List CaseEvent → Prop
  /-- The operation does not touch the case. -/
  | idle {op : Operation} : CaseStep cfg db k op (db.case? k) []
  /-- An operator adds a comment. -/
  | commented {p : CaseUpdate} {now : Instant} {c : CaseRow} (ch : CaseChanges) :
      db.case? k = some c → c.version = p.expectedVersion →
      CaseStep cfg db k (.patch k p now) (some c)
        [operatorEvent k c.status c.status ch.toJson (p.comment.getD none) now]
  /-- An operator changes fields. -/
  | patched {p : CaseUpdate} {now : Instant} {c : CaseRow} {ch : CaseChanges}
      {status : CaseStatus} :
      db.case? k = some c → c.version = p.expectedVersion → validate p now = .ok ch →
      ch.status.getD (some c.status) = some status →
      CaseStep cfg db k (.patch k p now) (some (ch.assign status c))
        [operatorEvent k c.status status ch.toJson (p.comment.getD none) now]
  /-- The expiry pass ends an exception. -/
  | expired {now : Instant} {c : CaseRow} {policy : SlaPolicy} :
      db.case? k = some c → db.policy = some policy → c.expired now = true →
      CaseStep cfg db k (.expire now) (some (expireCase policy now c)) [expiredEvent k now]
  /-- The work on an existing case starts. -/
  | started {request clean : StartRequest} {now : Instant} {c : CaseRow}
      {finding : CurrentFinding} :
      db.case? k = some c → c.assetId = strip request.assetId →
      c.vulnerabilityKey = strip request.vulnerabilityKey →
      findingOf? (currentFindings cfg.locale db (strip request.assetId)) c = some finding →
      (c.status.isException = true → request.resumeException = true) →
      CaseStep cfg db k (.start request now) (some (startCase db.policy clean finding now c))
        (startEvents clean finding now c)
  /-- The work on a finding without a case starts. -/
  | createdStarted {request clean : StartRequest} {now : Instant} {assetId key : String}
      {finding : CurrentFinding} {due : Option Instant} (ch : List (String × ChangeValue)) :
      db.case? k = none → k = (newCase cfg.md5 assetId key finding due now).caseId →
      CaseStep cfg db k (.start request now)
        (some (startCase db.policy clean finding now (newCase cfg.md5 assetId key finding due now)))
        (createdEvent k ch now ::
          startEvents clean finding now (newCase cfg.md5 assetId key finding due now))
  /-- The reconciliation creates a case. -/
  | created {asset : String} {now : Instant} {assetId key : String} {finding : CurrentFinding}
      {due : Option Instant} (ch : List (String × ChangeValue)) :
      db.case? k = none → k = (newCase cfg.md5 assetId key finding due now).caseId →
      CaseStep cfg db k (.reconcile asset now) (some (newCase cfg.md5 assetId key finding due now))
        [createdEvent k ch now]
  /-- The reconciliation refreshes a case that is not resolved. -/
  | refreshed {assetId : String} {now : Instant} {c : CaseRow} {policy : SlaPolicy}
      {finding : CurrentFinding} :
      db.case? k = some c → c.status ≠ .resolved →
      CaseStep cfg db k (.reconcile assetId now) (some (refreshCase policy now finding c)) []
  /-- The reconciliation reopens a resolved case. -/
  | reopened {assetId : String} {now : Instant} {c : CaseRow} {policy : SlaPolicy}
      {finding : CurrentFinding} :
      db.case? k = some c → c.status = .resolved →
      CaseStep cfg db k (.reconcile assetId now) (some (refreshCase policy now finding c))
        [reappearedEvent k .opened [] now]
  /-- The reconciliation resolves a case whose finding is absent. -/
  | resolved {assetId : String} {now : Instant} {c : CaseRow} :
      db.case? k = some c → resolves cfg db assetId now c = true →
      CaseStep cfg db k (.reconcile assetId now) (some (resolveCase now c)) [absentEvent c now]
  /-- A policy change recalculates the deadline. -/
  | recalculated {values : PolicyValues} {now : Instant} {c : CaseRow} {policy : SlaPolicy} :
      db.case? k = some c → c.recalculable = true →
      CaseStep cfg db k (.policy values true now) (some (recalculateCase policy c))
        [recalculatedEvent c now]
  /-- A verification reaches the case. -/
  | verified {campaignId workflowId : String} {status : VerificationStatus}
      {message : Option String} {c : CaseRow} :
      db.case? k = some c → db.verifiable campaignId c = true →
      CaseStep cfg db k (.verification campaignId workflowId status message)
        (some (markVerification workflowId status message c)) []
  /-- A verification reports its outcome. -/
  | finalized {campaignId workflowId : String} {failedAssets : List String} {c : CaseRow} :
      db.case? k = some c → db.finalizable campaignId workflowId c = true →
      CaseStep cfg db k (.finalize campaignId workflowId failedAssets)
        (some (finalizeCase failedAssets c)) []
  /-- A campaign assigns the case. -/
  | assigned {campaignId : String} {values : CampaignValues} {c : CaseRow} :
      db.case? k = some c →
      CaseStep cfg db k (.campaign campaignId values) (some (assignCampaign values c)) []
  /-- A replacement of passport ids rewrites the reference of the case. -/
  | rewritten {plan : List (String × String)} {c : CaseRow} :
      db.case? k = some c →
      CaseStep cfg db k (.passports plan) (some (replacePassport plan c)) []

theorem CaseStep.idle_of_eq {cfg : Settings} {db : Database} {k : String} {op : Operation}
    {r : Option CaseRow} (h : db.case? k = r) :
    CaseStep cfg db k op r [] :=
  h ▸ .idle

/-- The step of the system shows for the case `k` as a case step. -/
def ShowsAs (cfg : Settings) (db db' : Database) (op : Operation) (k : String) : Prop :=
  ∃ es, db'.history k = db.history k ++ es ∧ CaseStep cfg db k op (db'.case? k) es

theorem ShowsAs.refl {cfg : Settings} {db : Database} {op : Operation} {k : String} :
    ShowsAs cfg db db op k :=
  ⟨[], by simp, .idle⟩

theorem ShowsAs.of_same {cfg : Settings} {db db' : Database} {op : Operation} {k : String}
    (hcases : db'.cases = db.cases) (hevents : db'.events = db.events) :
    ShowsAs cfg db db' op k :=
  ⟨[], by simp [Database.history, hevents],
    CaseStep.idle_of_eq (by simp [Database.case?, hcases])⟩

theorem ShowsAs.of_updateWhere {cfg : Settings} {db base : Database} {op : Operation}
    {k : String} {p : CaseRow → Bool} {g : CaseRow → CaseRow} {hid hpair}
    (hcases : base.cases = db.cases) (hevents : base.events = db.events)
    (hstep : ∀ c, db.case? k = some c → p c = true → CaseStep cfg db k op (some (g c)) []) :
    ShowsAs cfg db (base.updateWhere p g hid hpair) op k := by
  have hcase : base.case? k = db.case? k := by simp [Database.case?, hcases]
  have hhistory : base.history k = db.history k := by simp [Database.history, hevents]
  refine ⟨[], by simp [hhistory], ?_⟩
  rw [Database.case?_updateWhere, hcase]
  cases hc : db.case? k with
  | none => exact .idle_of_eq hc
  | some c =>
      by_cases hp : p c = true
      · simpa [hp] using hstep c hc hp
      · exact .idle_of_eq (by simp [hc, hp])

theorem ShowsAs.of_updateWhere_log {cfg : Settings} {db base : Database} {op : Operation}
    {k : String} {p : CaseRow → Bool} {g : CaseRow → CaseRow} {f : CaseRow → CaseEvent}
    {hid hpair} (hcases : base.cases = db.cases) (hevents : base.events = db.events)
    (hf : ∀ c, (f c).caseId = c.caseId)
    (hstep : ∀ c, db.case? k = some c → p c = true → CaseStep cfg db k op (some (g c)) [f c]) :
    ShowsAs cfg db ((base.updateWhere p g hid hpair).log ((db.cases.rows.filter p).map f))
      op k := by
  have hcase : base.case? k = db.case? k := by simp [Database.case?, hcases]
  have hhistory : base.history k = db.history k := by simp [Database.history, hevents]
  refine ⟨((db.case? k).filter p).toList.map f, ?_, ?_⟩
  · rw [Database.history_log, Database.history_updateWhere, hhistory, filter_selected_events hf]
  · rw [Database.case?_log, Database.case?_updateWhere, hcase]
    cases hc : db.case? k with
    | none => exact .idle_of_eq hc
    | some c =>
        by_cases hp : p c = true
        · simpa [hp, Option.filter] using hstep c hc hp
        · simpa [hp, Option.filter] using CaseStep.idle_of_eq hc

/-- The write of an operator update with its event, seen from one case. -/
theorem ShowsAs.of_updateOne {cfg : Settings} {db : Database} {op : Operation} {k caseId : String}
    {g : CaseRow → CaseRow} {es : List CaseEvent} {hid hpair}
    (hes : ∀ e ∈ es, e.caseId = caseId)
    (hstep : k = caseId → ∀ c, db.case? k = some c → CaseStep cfg db k op (some (g c)) es)
    (hfound : (db.case? caseId).isSome) :
    ShowsAs cfg db ((db.updateWhere (fun c => decide (c.caseId = caseId)) g hid hpair).log es)
      op k := by
  by_cases hk : k = caseId
  · obtain ⟨c, hc⟩ := Option.isSome_iff_exists.1 hfound
    rw [← hk] at hc
    refine ⟨es, ?_, ?_⟩
    · rw [Database.history_log, Database.history_updateWhere]
      congr 1
      exact List.filter_eq_self.2 fun e he => by simp [hes e he, hk]
    · rw [Database.case?_log, Database.case?_updateWhere, hc]
      simpa [(Database.caseId_of_case? hc).trans hk] using hstep hk c hc
  · refine ⟨[], ?_, ?_⟩
    · rw [Database.history_log, Database.history_updateWhere]
      congr 1
      exact List.filter_eq_nil_iff.2 fun e he => by simpa [hes e he] using Ne.symm hk
    · rw [Database.case?_log, Database.case?_updateWhere]
      cases hc : db.case? k with
      | none => exact .idle_of_eq hc
      | some c =>
          have hne : c.caseId ≠ caseId := (Database.caseId_of_case? hc).trans_ne hk
          exact .idle_of_eq (by simp [hc, hne])

/-! ## One lemma for each operation -/

theorem bind_eq_ok {α β : Type} {x : Except Failure α} {f : α → Except Failure β} {b : β}
    (h : (x >>= f) = .ok b) :
    ∃ a, x = .ok a ∧ f a = .ok b := by
  cases x with
  | error e => cases h
  | ok a => exact ⟨a, rfl, h⟩

/-- What an accepted operator update does. -/
theorem update_eq_ok {caseId : String} {ch : CaseChanges} {v : Nat} {comment : Option String}
    {now : Instant} {db db' : Database} {r : Option CaseRow}
    (h : update caseId ch v comment now db = .ok (db', r)) :
    db' = db ∨
      ∃ old, db.case? caseId = some old ∧ old.version = v ∧
        ((ch.isEmpty = true ∧
            db' = db.log [operatorEvent caseId old.status old.status ch.toJson comment now]) ∨
          ∃ status, ch.status.getD (some old.status) = some status ∧
            db' = (db.updateWhere (fun c => decide (c.caseId = caseId)) (ch.assign status)).log
              [operatorEvent caseId old.status status ch.toJson comment now]) := by
  unfold update at h
  split at h
  · cases h
    exact Or.inl rfl
  · split at h
    · cases h
      exact Or.inl rfl
    · rename_i old hold
      refine Or.inr ⟨old, hold, ?_⟩
      split at h
      · cases h
      · rename_i hversion
        refine ⟨not_not.1 hversion, ?_⟩
        split at h
        · rename_i hempty
          cases h
          exact Or.inl ⟨hempty, rfl⟩
        · split at h
          · cases h
          · rename_i status hstatus
            cases h
            exact Or.inr ⟨status, hstatus, rfl⟩

theorem map_eq_ok {α β : Type} {x : Except Failure α} {f : α → β} {b : β}
    (h : x.map f = .ok b) :
    ∃ a, x = .ok a ∧ f a = b := by
  cases x with
  | error e => cases h
  | ok a => exact ⟨a, rfl, Except.ok.inj h⟩

theorem patch_shows {cfg : Settings} {db db' : Database} {p : CaseUpdate} {now : Instant}
    {caseId : String} {r : Option CaseRow} (h : patchCase caseId p now db = .ok (db', r))
    (k : String) :
    ShowsAs cfg db db' (.patch caseId p now) k := by
  unfold patchCase at h
  split at h
  · obtain ⟨ch, hvalid, hupdate⟩ := bind_eq_ok h
    rcases update_eq_ok hupdate with rfl | ⟨old, hold, hversion, hwrite⟩
    · exact .refl
    · rcases hwrite with ⟨_, rfl⟩ | ⟨status, hstatus, rfl⟩
      · by_cases hk : k = caseId
        · subst hk
          refine ⟨_, Database.history_log _ _ _, ?_⟩
          simpa [operatorEvent, hold] using CaseStep.commented ch hold hversion
        · exact ⟨[], by simp [operatorEvent, Ne.symm hk], .idle⟩
      · refine ShowsAs.of_updateOne (by simp [operatorEvent]) ?_ (by simp [hold])
        intro hk c hc
        subst hk
        rw [hold] at hc
        cases hc
        exact .patched hold hversion hvalid hstatus
  · cases h

theorem expire_shows {cfg : Settings} {db : Database} (now : Instant) (k : String) :
    ShowsAs cfg db (expireRiskAcceptances now db) (.expire now) k := by
  unfold expireRiskAcceptances
  split
  · exact .refl
  · rename_i policy hpolicy
    refine ShowsAs.of_updateWhere_log rfl rfl (fun c => rfl) fun c hc hp => ?_
    rw [Database.caseId_of_case? hc]
    exact .expired hc hpolicy hp

theorem policy_shows {cfg : Settings} {db db' : Database} {values : PolicyValues}
    {applyToOpen : Bool} {now : Instant} (h : updatePolicy values applyToOpen now db = .ok db')
    (k : String) :
    ShowsAs cfg db db' (.policy values applyToOpen now) k := by
  unfold updatePolicy at h
  split at h
  · cases h
  · dsimp only at h
    split at h
    · rename_i happly
      cases h
      subst happly
      exact ShowsAs.of_updateWhere_log rfl rfl (fun c => rfl)
        fun c hc hp => .recalculated hc hp
    · cases h
      exact .of_same rfl rfl

theorem verification_shows {cfg : Settings} {db : Database} (campaignId workflowId : String)
    (status : VerificationStatus) (message : Option String) (k : String) :
    ShowsAs cfg db (setCampaignVerification campaignId workflowId status message db)
      (.verification campaignId workflowId status message) k :=
  ShowsAs.of_updateWhere rfl rfl fun _ hc hp => .verified hc hp

theorem finalize_shows {cfg : Settings} {db : Database} (campaignId workflowId : String)
    (failedAssets : List String) (k : String) :
    ShowsAs cfg db (finalizeCampaignVerification campaignId workflowId failedAssets db)
      (.finalize campaignId workflowId failedAssets) k :=
  ShowsAs.of_updateWhere rfl rfl fun _ hc hp => .finalized hc hp

theorem campaign_shows {cfg : Settings} {db db' : Database} {campaignId : String}
    {values : CampaignValues} (h : createCampaign campaignId values db = .ok db') (k : String) :
    ShowsAs cfg db db' (.campaign campaignId values) k := by
  unfold createCampaign at h
  split at h
  · cases h
  · split at h
    · dsimp only at h
      split at h
      · cases h
        exact ShowsAs.of_updateWhere rfl rfl fun _ hc _ => .assigned hc
      · cases h
        exact .of_same rfl rfl
    · cases h

theorem context_shows {cfg : Settings} {db db' : Database} {assetId : String}
    {values : ContextValues} {v : Nat} (h : setContext assetId values v db = .ok db')
    (k : String) :
    ShowsAs cfg db db' (.context assetId values v) k := by
  have hsame : db'.cases = db.cases ∧ db'.events = db.events := by
    unfold setContext at h
    dsimp only at h
    repeat' split at h
    all_goals first | cases h; exact ⟨rfl, rfl⟩ | cases h
  exact .of_same hsame.1 hsame.2

theorem passports_shows {cfg : Settings} {db db' : Database} {plan : List (String × String)}
    (h : replacePassports plan db = .ok db') (k : String) :
    ShowsAs cfg db db' (.passports plan) k := by
  unfold replacePassports at h
  split at h
  · cases h
    exact ShowsAs.of_updateWhere rfl rfl fun _ hc _ => .rewritten hc
  · cases h

/-! ## Start of a finding -/

theorem case?_of_insert? {db : Database} {row : CaseRow} {cases : CaseTable}
    (h : db.cases.insert? row = some cases) (k : String) :
    ({ db with cases := cases } : Database).case? k =
      if row.caseId = k then some row else db.case? k :=
  Table.find?_insert? h k

theorem caseOf?_eq_some {db : Database} {assetId key : String} {c : CaseRow}
    (h : db.caseOf? assetId key = some c) :
    db.case? c.caseId = some c ∧ c.assetId = assetId ∧ c.vulnerabilityKey = key := by
  have hkeys := List.find?_some h
  simp only [decide_eq_true_eq] at hkeys
  exact ⟨Table.find?_of_mem (List.mem_of_find?_eq_some h), hkeys.1, hkeys.2⟩

theorem startEvents_caseId {request : StartRequest} {finding : CurrentFinding} {now : Instant}
    {c : CaseRow} :
    ∀ e ∈ startEvents request finding now c, e.caseId = c.caseId := by
  intro e he
  unfold startEvents at he
  split at he <;> simp only [List.nil_append, List.cons_append, List.mem_cons,
    List.not_mem_nil, or_false] at he
  · rcases he with rfl | rfl <;> rfl
  · exact he ▸ rfl

theorem startExisting_eq_ok {request : StartRequest} {finding : CurrentFinding} {now : Instant}
    {db db' : Database} {c r : CaseRow}
    (h : startExisting request finding now db c = .ok (db', r)) :
    (c.status.isException = true → request.resumeException = true) ∧
      ((db' = db ∧ c.status = .inProgress) ∨
        db' = (db.updateWhere (fun x => decide (x.caseId = c.caseId))
          (startCase db.policy request finding now)).log (startEvents request finding now c)) := by
  unfold startExisting at h
  split at h
  · cases h
  · rename_i hresume
    refine ⟨fun hexc => by simpa [hexc] using hresume, ?_⟩
    split at h
    · rename_i hworking
      cases h
      exact Or.inl ⟨rfl, hworking.1⟩
    · cases h
      exact Or.inr rfl

/-- The insertion of a case followed by its start, seen from one case. -/
theorem createdStarted_shows {cfg : Settings} {db : Database} {request clean : StartRequest}
    {now : Instant} {assetId key : String} {finding : CurrentFinding} {due : Option Instant}
    {ch : List (String × ChangeValue)} {cases : CaseTable} {hid hpair}
    (hinsert : db.cases.insert? (newCase cfg.md5 assetId key finding due now) = some cases)
    (k : String) :
    let row := newCase cfg.md5 assetId key finding due now
    let inserted := ({ db with cases := cases } : Database).log [createdEvent row.caseId ch now]
    ShowsAs cfg db
      ((inserted.updateWhere (fun x => decide (x.caseId = row.caseId))
        (startCase db.policy clean finding now) hid hpair).log (startEvents clean finding now row))
      (.start request now) k := by
  intro row inserted
  have hcase := case?_of_insert? hinsert
  by_cases hk : row.caseId = k
  · refine ⟨createdEvent k ch now :: startEvents clean finding now row, ?_, ?_⟩
    · have hown : ((startEvents clean finding now row).filter fun e => decide (e.caseId = k)) =
          startEvents clean finding now row :=
        List.filter_eq_self.2 fun e he => by simp [startEvents_caseId e he, hk]
      have hcreated : inserted.history k = db.history k ++ [createdEvent k ch now] := by
        simp [inserted, createdEvent, hk, Database.history, Database.log]
      simp [hown, hcreated]
    · have hrow : inserted.case? k = some row := by
        rw [Database.case?_log, hcase, if_pos hk]
      have hfree : db.case? k = none := hk ▸ Table.find?_eq_none_of_insert? hinsert
      rw [Database.case?_log, Database.case?_updateWhere, hrow]
      simpa using CaseStep.createdStarted ch hfree hk.symm
  · refine ⟨[], ?_, ?_⟩
    · have hother : ((startEvents clean finding now row).filter fun e => decide (e.caseId = k)) =
          [] :=
        List.filter_eq_nil_iff.2 fun e he => by simpa [startEvents_caseId e he] using hk
      have hcreated : inserted.history k = db.history k := by
        simp [inserted, createdEvent, hk, Database.history, Database.log]
      simp [hother, hcreated]
    · have hrow : inserted.case? k = db.case? k := by
        rw [Database.case?_log, hcase, if_neg hk]
      rw [Database.case?_log, Database.case?_updateWhere, hrow]
      cases hc : db.case? k with
      | none => exact .idle_of_eq hc
      | some c =>
          have hne : c.caseId ≠ row.caseId := (Database.caseId_of_case? hc).trans_ne (Ne.symm hk)
          exact .idle_of_eq (by simp [hc, hne])

theorem start_shows {cfg : Settings} {db db' : Database} {request : StartRequest}
    {now : Instant} {r : CaseRow}
    (h : startFinding cfg.locale cfg.md5 request now db = .ok (db', r)) (k : String) :
    ShowsAs cfg db db' (.start request now) k := by
  unfold startFinding at h
  dsimp only at h
  split at h
  · cases h
  split at h
  · cases h
  unfold startForFinding at h
  dsimp only at h
  split at h
  · cases h
  rename_i finding hfinding
  split at h
  · rename_i current hcurrent
    obtain ⟨hcase, hasset, hkey⟩ := caseOf?_eq_some hcurrent
    obtain ⟨hresume, ⟨rfl, _⟩ | rfl⟩ := startExisting_eq_ok h
    · exact .refl
    · refine ShowsAs.of_updateOne startEvents_caseId ?_ (by simp [hcase])
      intro hk c hc
      subst hk
      rw [hcase] at hc
      cases hc
      refine .started hcase hasset hkey ?_ hresume
      unfold findingOf?
      rw [hkey]
      exact hfinding
  · rename_i hnew
    split at h
    · cases h
    · rename_i cases hinsert
      obtain ⟨_, ⟨_, hworking⟩ | rfl⟩ := startExisting_eq_ok h
      · cases hworking
      · exact createdStarted_shows hinsert k

/-! ## Reconciliation of an asset -/

theorem distinctOnKey_pairwise (seen : List (Option String)) (rows : List CurrentFinding) :
    (distinctOnKey seen rows).Pairwise (fun a b => a.vulnerabilityKey ≠ b.vulnerabilityKey) ∧
      ∀ f ∈ distinctOnKey seen rows, f.vulnerabilityKey ∉ seen := by
  induction rows generalizing seen with
  | nil => simp [distinctOnKey]
  | cons row rows ih =>
      unfold distinctOnKey
      split
      · exact ih seen
      · rename_i hnew
        obtain ⟨hpair, hseen⟩ := ih (row.vulnerabilityKey :: seen)
        refine ⟨List.pairwise_cons.2 ⟨fun f hf heq => ?_, hpair⟩, ?_⟩
        · exact hseen f hf (heq ▸ List.mem_cons_self)
        · intro f hf
          rcases List.mem_cons.1 hf with rfl | hf
          · exact hnew
          · exact fun hmem => hseen f hf (List.mem_cons_of_mem _ hmem)

theorem currentFindings_pairwise (loc : Sql.Locale) (db : Database) (assetId : String) :
    (currentFindings loc db assetId).Pairwise
      fun a b => a.vulnerabilityKey ≠ b.vulnerabilityKey :=
  (distinctOnKey_pairwise [] _).1

theorem existingCase?_eq_some {existing : List CaseRow} {finding : CurrentFinding} {c : CaseRow}
    (h : existingCase? existing finding = some c) :
    c ∈ existing ∧ finding.vulnerabilityKey = some c.vulnerabilityKey := by
  have hkey := List.find?_some h
  simp only [decide_eq_true_eq] at hkey
  exact ⟨List.mem_of_find?_eq_some h, hkey.symm⟩

theorem mem_assetCases {db : Database} {assetId : String} {c : CaseRow} :
    c ∈ assetCases db assetId ↔ db.case? c.caseId = some c ∧ c.assetId = assetId := by
  simp only [assetCases, List.mem_filter, decide_eq_true_eq, Database.case?,
    Table.find?_eq_some_iff, and_true]
  rfl

theorem eq_of_mem_assetCases {db : Database} {assetId : String} {c c' : CaseRow}
    (h : c ∈ assetCases db assetId) (h' : c' ∈ assetCases db assetId)
    (hid : c.caseId = c'.caseId) :
    c = c' := by
  have hc := (mem_assetCases.1 h).1
  have hc' := (mem_assetCases.1 h').1
  rw [hid, hc'] at hc
  exact (Option.some.inj hc).symm

theorem existingCase?_of_key {db : Database} {assetId : String} {finding : CurrentFinding}
    {c : CaseRow} (hc : c ∈ assetCases db assetId)
    (hkey : finding.vulnerabilityKey = some c.vulnerabilityKey) :
    existingCase? (assetCases db assetId) finding = some c := by
  cases hfind : existingCase? (assetCases db assetId) finding with
  | none =>
      have hnone := List.find?_eq_none.1 hfind c hc
      simp [hkey] at hnone
  | some c' =>
      obtain ⟨hmem, hkey'⟩ := existingCase?_eq_some hfind
      have hsame : c'.vulnerabilityKey = c.vulnerabilityKey :=
        Option.some.inj (hkey'.symm.trans hkey)
      have hasset := (mem_assetCases.1 hmem).2.trans (mem_assetCases.1 hc).2.symm
      have heq := List.inj_on_of_nodup_map db.cases.ukNodup
        (List.mem_of_mem_filter hmem) (List.mem_of_mem_filter hc)
        (by simp [hsame, hasset])
      rw [heq]

theorem reopenedCases_nodup (db : Database) (assetId : String) {found : List CurrentFinding}
    (hfound : found.Pairwise fun a b => a.vulnerabilityKey ≠ b.vulnerabilityKey) :
    ((reopenedCases (assetCases db assetId) found).map CaseRow.caseId).Nodup := by
  have hpair : (found.filterMap (existingCase? (assetCases db assetId))).Pairwise
      fun a b => a.caseId ≠ b.caseId := by
    refine List.Pairwise.filterMap _ (fun a a' hne b hb b' hb' hid => hne ?_) hfound
    obtain ⟨hmem, hkey⟩ := existingCase?_eq_some hb
    obtain ⟨hmem', hkey'⟩ := existingCase?_eq_some hb'
    rw [hkey, hkey', eq_of_mem_assetCases hmem hmem' hid]
  exact List.pairwise_map.2 (hpair.sublist List.filter_sublist)

theorem mem_reopenedCases {db : Database} {assetId : String} {found : List CurrentFinding}
    {c : CaseRow} :
    c ∈ reopenedCases (assetCases db assetId) found ↔
      c ∈ assetCases db assetId ∧ (findingOf? found c).isSome ∧ c.status = .resolved := by
  simp only [reopenedCases, List.mem_filter, List.mem_filterMap, decide_eq_true_eq]
  constructor
  · rintro ⟨⟨finding, hmem, hfind⟩, hstatus⟩
    obtain ⟨hc, hkey⟩ := existingCase?_eq_some hfind
    refine ⟨hc, ?_, hstatus⟩
    exact List.find?_isSome.2 ⟨finding, hmem, by simp [hkey]⟩
  · rintro ⟨hc, hsome, hstatus⟩
    obtain ⟨finding, hmem, hkey⟩ := List.find?_isSome.1 hsome
    exact ⟨⟨finding, hmem, existingCase?_of_key hc (by simpa using hkey)⟩, hstatus⟩

theorem mem_absentCases {existing : List CaseRow} {found : List CurrentFinding} {c : CaseRow} :
    c ∈ absentCases existing found ↔
      c ∈ existing ∧ (findingOf? found c).isNone = true ∧
        c.status ≠ .resolved ∧ c.status ≠ .falsePositive := by
  simp [absentCases, List.mem_filter]

/--
What the insertions of a reconciliation do: they write only cases and events,
and each case either stays as it was or is a new case of a current finding.
-/
structure InsertedFor (md5 : String → String) (assetId : String) (now : Instant)
    (db db' : Database) : Prop where
  groups : db'.groups = db.groups
  campaignCases : db'.campaignCases = db.campaignCases
  cases : ∀ k, (db'.case? k = db.case? k ∧ db'.history k = db.history k) ∨
    (db.case? k = none ∧ ∃ key finding due,
      k = (newCase md5 assetId key finding due now).caseId ∧
      db'.case? k = some (newCase md5 assetId key finding due now) ∧
      db'.history k = db.history k ++ [createdEvent k [] now])

theorem InsertedFor.refl {md5 : String → String} {assetId : String} {now : Instant}
    {db : Database} :
    InsertedFor md5 assetId now db db :=
  ⟨rfl, rfl, fun _ => Or.inl ⟨rfl, rfl⟩⟩

/-- One insertion writes at most the case of its finding. -/
theorem insertMissing_inserted {md5 : String → String} {policy : SlaPolicy} {assetId : String}
    {existing : List CaseRow} {now : Instant} {finding : CurrentFinding} {db db' : Database}
    (h : insertMissing md5 policy assetId existing now db finding = .ok db') :
    InsertedFor md5 assetId now db db' := by
  unfold insertMissing at h
  split at h
  · cases h
    exact .refl
  · split at h
    · cases h
    · rename_i key hkey
      dsimp only at h
      split at h
      · cases h
      · rename_i cases hinsert
        cases h
        refine ⟨rfl, rfl, fun k => ?_⟩
        have hcase := case?_of_insert? hinsert k
        by_cases hk : (newCase md5 assetId key finding
            (policy.due (dropMicroseconds now) finding.severity) now).caseId = k
        · refine Or.inr ⟨hk ▸ Table.find?_eq_none_of_insert? hinsert, key, finding, _, hk.symm, ?_, ?_⟩
          · rw [Database.case?_log, hcase, if_pos hk]
          · simp [hk, createdEvent, Database.history, Database.log]
        · refine Or.inl ⟨?_, ?_⟩
          · rw [Database.case?_log, hcase, if_neg hk]
          · simp [hk, createdEvent, Database.history, Database.log]

theorem InsertedFor.trans {md5 : String → String} {assetId : String} {now : Instant}
    {a b c : Database}
    (hab : InsertedFor md5 assetId now a b) (hbc : InsertedFor md5 assetId now b c) :
    InsertedFor md5 assetId now a c := by
  refine ⟨hbc.groups.trans hab.groups, hbc.campaignCases.trans hab.campaignCases,
    fun k => ?_⟩
  rcases hab.cases k with ⟨hrow, hhist⟩ | ⟨hfree, key, finding, due, hk, hrow, hhist⟩
  · have hnext := hbc.cases k
    rw [hrow, hhist] at hnext
    exact hnext
  · rcases hbc.cases k with ⟨hrow', hhist'⟩ | ⟨hfree', _⟩
    · exact Or.inr ⟨hfree, key, finding, due, hk, hrow'.trans hrow, hhist'.trans hhist⟩
    · rw [hrow] at hfree'
      cases hfree'

theorem foldlM_insertMissing {md5 : String → String} {policy : SlaPolicy} {assetId : String}
    {existing : List CaseRow} {now : Instant} {found : List CurrentFinding}
    {db db' : Database}
    (h : found.foldlM (insertMissing md5 policy assetId existing now) db = .ok db') :
    InsertedFor md5 assetId now db db' := by
  induction found generalizing db with
  | nil =>
      cases h
      exact .refl
  | cons finding found ih =>
      obtain ⟨mid, hmid, hrest⟩ := bind_eq_ok h
      exact (insertMissing_inserted hmid).trans (ih hrest)

@[simp]
theorem case?_refreshExisting (policy : SlaPolicy) (now : Instant) (existing : List CaseRow)
    (found : List CurrentFinding) (db : Database) (k : String) :
    (refreshExisting policy now existing found db).case? k =
      (db.case? k).map (refreshPresent policy now existing found) := by
  simp [refreshExisting, Database.updateCases, Database.case?, Database.log]

@[simp]
theorem history_refreshExisting (policy : SlaPolicy) (now : Instant) (existing : List CaseRow)
    (found : List CurrentFinding) (db : Database) (k : String) :
    (refreshExisting policy now existing found db).history k =
      db.history k ++
        ((reopenedCases existing found).filter fun c => decide (c.caseId = k)).map
          fun c => reappearedEvent c.caseId .opened [] now := by
  rw [refreshExisting, Database.history_log, filter_map_events fun _ => rfl]
  rfl

@[simp]
theorem case?_resolveCases (now : Instant) (absent : List CaseRow) (db : Database) (k : String) :
    (resolveCases now absent db).case? k = (db.case? k).map (resolveAbsent now absent) := by
  simp [resolveCases, Database.updateCases, Database.case?, Database.log]

@[simp]
theorem history_resolveCases (now : Instant) (absent : List CaseRow) (db : Database)
    (k : String) :
    (resolveCases now absent db).history k =
      db.history k ++
        (absent.filter fun c => decide (c.caseId = k)).map fun c => absentEvent c now := by
  rw [resolveCases, Database.history_log, filter_map_events fun _ => rfl]
  rfl

/-- What a reconciliation that does not raise does. -/
theorem reconcileAsset_eq_ok {cfg : Settings} {assetId : String} {now : Instant}
    {db db' : Database} {counts : ReconcileCounts}
    (h : reconcileAsset cfg.locale cfg.md5 cfg.staleDays assetId now db = .ok (db', counts)) :
    db' = db ∨ ∃ policy card lastSeen inserted,
      db.cards.find? (fun card => decide (card.assetId = assetId)) = some card ∧
      card.lastSeen = some lastSeen ∧ InsertedFor cfg.md5 assetId now db inserted ∧
      db' = resolveCases now
        (if snapshotComplete db assetId cfg.staleDays lastSeen now then
          absentCases (assetCases db assetId) (currentFindings cfg.locale db assetId)
        else [])
        (refreshExisting policy now (assetCases db assetId)
          (currentFindings cfg.locale db assetId) inserted) := by
  unfold reconcileAsset at h
  split at h
  · rename_i policy card hpolicy hcard
    obtain ⟨inserted, hinserted, hrest⟩ := bind_eq_ok h
    have hwrites := foldlM_insertMissing hinserted
    dsimp only at hrest
    split at hrest
    · cases hrest
    · rename_i lastSeen hlast
      have hgroups : snapshotComplete (refreshExisting policy now (assetCases db assetId)
            (currentFindings cfg.locale db assetId) inserted) assetId cfg.staleDays lastSeen now =
          snapshotComplete db assetId cfg.staleDays lastSeen now := by
        unfold snapshotComplete
        rw [show (refreshExisting policy now (assetCases db assetId)
          (currentFindings cfg.locale db assetId) inserted).groups = inserted.groups from rfl,
          hwrites.groups]
      rw [hgroups] at hrest
      cases hrest
      exact Or.inr ⟨policy, card, lastSeen, inserted, hcard, hlast, hwrites, rfl⟩
  · cases h
    exact Or.inl rfl

theorem filter_key_eq_nil (rows : List CaseRow) (k : String)
    (h : ∀ c ∈ rows, c.caseId ≠ k) :
    (rows.filter fun c => decide (c.caseId = k)) = [] :=
  List.filter_eq_nil_iff.2 fun c hc => by simpa using h c hc

theorem filter_key_eq_singleton {rows : List CaseRow} {c : CaseRow}
    (hnodup : (rows.map CaseRow.caseId).Nodup) (hc : c ∈ rows) :
    (rows.filter fun x => decide (x.caseId = c.caseId)) = [c] := by
  rw [Table.filter_key_eq_toList hnodup]
  cases hfind : rows.find? fun x => decide (x.caseId = c.caseId) with
  | none =>
      have hnone := List.find?_eq_none.1 hfind c hc
      simp at hnone
  | some c' =>
      have hid : c'.caseId = c.caseId := by simpa using List.find?_some hfind
      rw [List.inj_on_of_nodup_map hnodup (List.mem_of_find?_eq_some hfind) hc hid]
      rfl

theorem absentCases_nodup (db : Database) (assetId : String) (found : List CurrentFinding) :
    ((absentCases (assetCases db assetId) found).map CaseRow.caseId).Nodup :=
  db.cases.pkNodup.sublist
    ((List.filter_sublist.trans List.filter_sublist).map CaseRow.caseId)

theorem refreshPresent_of_present {policy : SlaPolicy} {now : Instant} {existing : List CaseRow}
    {found : List CurrentFinding} {finding : CurrentFinding} {c : CaseRow} (hc : c ∈ existing)
    (hf : findingOf? found c = some finding) :
    refreshPresent policy now existing found c = refreshCase policy now finding c := by
  simp [refreshPresent, hc, hf]

theorem refreshPresent_of_absent {policy : SlaPolicy} {now : Instant} {existing : List CaseRow}
    {found : List CurrentFinding} {c : CaseRow} (h : c ∈ existing → findingOf? found c = none) :
    refreshPresent policy now existing found c = c := by
  unfold refreshPresent
  split
  · rename_i hc
    simp [h hc]
  · rfl

theorem resolves_of_absent {cfg : Settings} {db : Database} {assetId : String} {now : Instant}
    {card : AssetCard} {lastSeen : Instant} {c : CaseRow}
    (hcard : db.cards.find? (fun card => decide (card.assetId = assetId)) = some card)
    (hlast : card.lastSeen = some lastSeen)
    (hcomplete : snapshotComplete db assetId cfg.staleDays lastSeen now = true)
    (hc : c ∈ absentCases (assetCases db assetId) (currentFindings cfg.locale db assetId)) :
    resolves cfg db assetId now c = true := by
  obtain ⟨hmem, hnone, hresolved, hfalse⟩ := mem_absentCases.1 hc
  simp [resolves, hcard, hlast, hcomplete, (mem_assetCases.1 hmem).2, hnone, hresolved, hfalse]

theorem InsertedFor.case?_of_some {md5 : String → String} {assetId : String} {now : Instant}
    {db inserted : Database} (h : InsertedFor md5 assetId now db inserted) {k : String}
    {c : CaseRow} (hrow : db.case? k = some c) :
    inserted.case? k = some c ∧ inserted.history k = db.history k := by
  rcases h.cases k with ⟨hcase, hhist⟩ | ⟨hfree, _⟩
  · exact ⟨hcase.trans hrow, hhist⟩
  · rw [hrow] at hfree
    cases hfree

theorem eq_of_mem_assetCases_of_case? {db : Database} {assetId k : String} {c x : CaseRow}
    (hrow : db.case? k = some c) (hx : x ∈ assetCases db assetId) (hid : x.caseId = k) :
    x = c := by
  have hxrow := (mem_assetCases.1 hx).1
  rw [hid, hrow] at hxrow
  exact (Option.some.inj hxrow).symm

/-- The tables after the existing cases are refreshed and the absent ones are resolved. -/
def reconciled (cfg : Settings) (policy : SlaPolicy) (assetId : String) (now : Instant)
    (absent : List CaseRow) (db inserted : Database) : Database :=
  resolveCases now absent
    (refreshExisting policy now (assetCases db assetId) (currentFindings cfg.locale db assetId)
      inserted)

section Reconciled

variable {cfg : Settings} {db inserted : Database} {assetId k : String} {now : Instant}
variable {policy : SlaPolicy} {absent : List CaseRow} {c : CaseRow}

/-- Where the database has no case, the reconciliation leaves it or creates one. -/
theorem reconciled_shows_of_none (hins : InsertedFor cfg.md5 assetId now db inserted)
    (hsub : ∀ c ∈ absent,
      c ∈ absentCases (assetCases db assetId) (currentFindings cfg.locale db assetId))
    (hrow : db.case? k = none) :
    ShowsAs cfg db (reconciled cfg policy assetId now absent db inserted)
      (.reconcile assetId now) k := by
  have hno : ∀ c ∈ assetCases db assetId, c.caseId ≠ k := by
    intro c hc hid
    rw [← hid, (mem_assetCases.1 hc).1] at hrow
    cases hrow
  have hreopened := filter_key_eq_nil
    (reopenedCases (assetCases db assetId) (currentFindings cfg.locale db assetId)) k
    fun c hc => hno c (mem_reopenedCases.1 hc).1
  have habs := filter_key_eq_nil absent k fun c hc => hno c (mem_absentCases.1 (hsub c hc)).1
  simp only [ShowsAs, reconciled, case?_resolveCases, history_resolveCases, case?_refreshExisting,
    history_refreshExisting, Option.map_map, hreopened, habs]
  rcases hins.cases k with ⟨hcase, hhist⟩ | ⟨_, key, finding, due, hk, hcase, hhist⟩
  · refine ⟨[], by simp [hhist], .idle_of_eq ?_⟩
    simp [hcase, hrow]
  · refine ⟨[createdEvent k [] now], by simp [hhist], ?_⟩
    rw [hcase]
    have hfresh : newCase cfg.md5 assetId key finding due now ∉ assetCases db assetId :=
      fun hmem => hno _ hmem hk.symm
    have hkeep : newCase cfg.md5 assetId key finding due now ∉ absent :=
      fun hmem => hfresh (mem_absentCases.1 (hsub _ hmem)).1
    simpa [refreshPresent, hfresh, resolveAbsent, hkeep] using CaseStep.created [] hrow hk

/-- A case with a finding is refreshed, and reopened when it was resolved. -/
theorem reconciled_shows_of_present (hins : InsertedFor cfg.md5 assetId now db inserted)
    (hsub : ∀ c ∈ absent,
      c ∈ absentCases (assetCases db assetId) (currentFindings cfg.locale db assetId))
    (hrow : db.case? k = some c) (hc : c ∈ assetCases db assetId) {finding : CurrentFinding}
    (hf : findingOf? (currentFindings cfg.locale db assetId) c = some finding) :
    ShowsAs cfg db (reconciled cfg policy assetId now absent db inserted)
      (.reconcile assetId now) k := by
  have hid := Database.caseId_of_case? hrow
  obtain ⟨hcase, hhist⟩ := hins.case?_of_some hrow
  have habs := filter_key_eq_nil absent k fun x hx hxid => by
    obtain ⟨hmem, hnone, _⟩ := mem_absentCases.1 (hsub x hx)
    rw [eq_of_mem_assetCases_of_case? hrow hmem hxid, hf] at hnone
    cases hnone
  have hkeep : refreshCase policy now finding c ∉ absent := fun hmem => by
    have hnone := (mem_absentCases.1 (hsub _ hmem)).2.1
    have hsame : findingOf? (currentFindings cfg.locale db assetId)
        (refreshCase policy now finding c) = some finding := hf
    rw [hsame] at hnone
    cases hnone
  have hwrite : resolveAbsent now absent (refreshPresent policy now (assetCases db assetId)
      (currentFindings cfg.locale db assetId) c) = refreshCase policy now finding c := by
    rw [refreshPresent_of_present hc hf, resolveAbsent, if_neg hkeep]
  simp only [ShowsAs, reconciled, case?_resolveCases, history_resolveCases, case?_refreshExisting,
    history_refreshExisting, Option.map_map, habs, hcase, hhist]
  by_cases hstatus : c.status = .resolved
  · have hreopened := filter_key_eq_singleton
      (reopenedCases_nodup db assetId (currentFindings_pairwise cfg.locale db assetId))
      (mem_reopenedCases.2 ⟨hc, by rw [hf]; rfl, hstatus⟩)
    rw [hid] at hreopened
    refine ⟨[reappearedEvent k .opened [] now], by simp [hreopened, hid], ?_⟩
    simpa [hwrite] using CaseStep.reopened hrow hstatus
  · have hreopened := filter_key_eq_nil
      (reopenedCases (assetCases db assetId) (currentFindings cfg.locale db assetId)) k
      fun x hx hxid => by
        obtain ⟨hmem, _, hres⟩ := mem_reopenedCases.1 hx
        exact hstatus (eq_of_mem_assetCases_of_case? hrow hmem hxid ▸ hres)
    refine ⟨[], by simp [hreopened], ?_⟩
    simpa [hwrite] using CaseStep.refreshed hrow hstatus

/-- A case of another asset or without a finding stays, or is resolved. -/
theorem reconciled_shows_of_absent (hins : InsertedFor cfg.md5 assetId now db inserted)
    (hsub : ∀ c ∈ absent,
      c ∈ absentCases (assetCases db assetId) (currentFindings cfg.locale db assetId))
    (hnodup : (absent.map CaseRow.caseId).Nodup)
    (hresolves : ∀ c ∈ absent, resolves cfg db assetId now c = true)
    (hrow : db.case? k = some c)
    (hnone : c ∈ assetCases db assetId →
      findingOf? (currentFindings cfg.locale db assetId) c = none) :
    ShowsAs cfg db (reconciled cfg policy assetId now absent db inserted)
      (.reconcile assetId now) k := by
  have hid := Database.caseId_of_case? hrow
  obtain ⟨hcase, hhist⟩ := hins.case?_of_some hrow
  have hreopened := filter_key_eq_nil
    (reopenedCases (assetCases db assetId) (currentFindings cfg.locale db assetId)) k
    fun x hx hxid => by
      obtain ⟨hmem, hsome, _⟩ := mem_reopenedCases.1 hx
      have heq := eq_of_mem_assetCases_of_case? hrow hmem hxid
      rw [heq, hnone (heq ▸ hmem)] at hsome
      cases hsome
  have hwrite : refreshPresent policy now (assetCases db assetId)
      (currentFindings cfg.locale db assetId) c = c := refreshPresent_of_absent hnone
  simp only [ShowsAs, reconciled, case?_resolveCases, history_resolveCases, case?_refreshExisting,
    history_refreshExisting, Option.map_map, hreopened, hcase, hhist]
  by_cases habsent : c ∈ absent
  · have habs := filter_key_eq_singleton hnodup habsent
    rw [hid] at habs
    refine ⟨[absentEvent c now], by simp [habs], ?_⟩
    simpa [hwrite, resolveAbsent, habsent] using CaseStep.resolved hrow (hresolves c habsent)
  · have habs := filter_key_eq_nil absent k fun x hx hxid => habsent
      (eq_of_mem_assetCases_of_case? hrow (mem_absentCases.1 (hsub x hx)).1 hxid ▸ hx)
    refine ⟨[], by simp [habs], .idle_of_eq ?_⟩
    simp [hrow, hwrite, resolveAbsent, habsent]

end Reconciled

theorem reconcileAsset_shows {cfg : Settings} {db db' : Database} {assetId : String}
    {now : Instant} {counts : ReconcileCounts}
    (h : reconcileAsset cfg.locale cfg.md5 cfg.staleDays assetId now db = .ok (db', counts))
    (k : String) :
    ShowsAs cfg db db' (.reconcile assetId now) k := by
  rcases reconcileAsset_eq_ok h with
    rfl | ⟨policy, card, lastSeen, inserted, hcard, hlast, hins, rfl⟩
  · exact .refl
  generalize habsent : (if snapshotComplete db assetId cfg.staleDays lastSeen now then
    absentCases (assetCases db assetId) (currentFindings cfg.locale db assetId) else []) = absent
  -- an incomplete snapshot resolves nothing
  have hsub : ∀ c ∈ absent,
      c ∈ absentCases (assetCases db assetId) (currentFindings cfg.locale db assetId) ∧
        resolves cfg db assetId now c = true := by
    intro c hc
    rw [← habsent] at hc
    split at hc
    · rename_i hcomplete
      exact ⟨hc, resolves_of_absent hcard hlast hcomplete hc⟩
    · cases hc
  have hnodup : (absent.map CaseRow.caseId).Nodup := by
    rw [← habsent]
    split
    · exact absentCases_nodup db assetId _
    · exact .nil
  cases hrow : db.case? k with
  | none => exact reconciled_shows_of_none hins (fun c hc => (hsub c hc).1) hrow
  | some c =>
      by_cases hc : c ∈ assetCases db assetId
      · cases hf : findingOf? (currentFindings cfg.locale db assetId) c with
        | some finding =>
            exact reconciled_shows_of_present hins (fun c hc => (hsub c hc).1) hrow hc hf
        | none =>
            exact reconciled_shows_of_absent hins (fun c hc => (hsub c hc).1) hnodup
              (fun c hc => (hsub c hc).2) hrow fun _ => hf
      · exact reconciled_shows_of_absent hins (fun c hc => (hsub c hc).1) hnodup
          (fun c hc => (hsub c hc).2) hrow fun hmem => absurd hmem hc

/-- Every step of the system is a case step of every case, and histories only grow. -/
theorem step_case (cfg : Settings) (db : Database) (op : Operation) (k : String) :
    ShowsAs cfg db (step cfg db op) op k := by
  cases hperform : perform cfg op db with
  | error e =>
      rw [step_of_rejected hperform]
      exact .refl
  | ok db' =>
      rw [step_of_performed hperform]
      cases op with
      | patch caseId request now =>
          obtain ⟨⟨db₁, r⟩, hpatch, rfl⟩ := map_eq_ok hperform
          exact patch_shows hpatch k
      | start request now =>
          obtain ⟨⟨db₁, r⟩, hstart, rfl⟩ := map_eq_ok hperform
          exact start_shows hstart k
      | expire now =>
          cases hperform
          exact expire_shows now k
      | reconcile assetId now =>
          cases hperform
          unfold Remediation.reconcile
          split
          · rename_i result hresult
            exact reconcileAsset_shows hresult k
          · exact .refl
      | policy values applyToOpen now => exact policy_shows hperform k
      | verification campaignId workflowId status message =>
          cases hperform
          exact verification_shows campaignId workflowId status message k
      | finalize campaignId workflowId failedAssets =>
          cases hperform
          exact finalize_shows campaignId workflowId failedAssets k
      | campaign campaignId values => exact campaign_shows hperform k
      | context assetId values v => exact context_shows hperform k
      | passports plan => exact passports_shows hperform k
      | saveAssets data =>
          cases hperform
          exact .of_same rfl rfl

/-! ## Cases persist -/

/--
The case is still stored, for the same finding and with no lower version, and its history has
grown if its status is another one.
-/
def KeptAs (k : String) (db db' : Database) : Prop :=
  db.history k <+: db'.history k ∧
    ∀ c, db.case? k = some c → ∃ c', db'.case? k = some c' ∧ c'.assetId = c.assetId ∧
      c'.vulnerabilityKey = c.vulnerabilityKey ∧ c'.firstSeenAt = c.firstSeenAt ∧
      c.version ≤ c'.version ∧
      (c'.status ≠ c.status → (db.history k).length < (db'.history k).length)

theorem KeptAs.trans {k : String} {a b d : Database} (h : KeptAs k a b) (h' : KeptAs k b d) :
    KeptAs k a d := by
  refine ⟨h.1.trans h'.1, fun c hc => ?_⟩
  obtain ⟨c', hc', hasset, hkey, hseen, hversion, hlogged⟩ := h.2 c hc
  obtain ⟨c'', hc'', hasset', hkey', hseen', hversion', hlogged'⟩ := h'.2 c' hc'
  refine ⟨c'', hc'', hasset'.trans hasset, hkey'.trans hkey, hseen'.trans hseen,
    hversion.trans hversion', fun hstatus => ?_⟩
  have hle := h.1.length_le
  have hle' := h'.1.length_le
  by_cases hsame : c'.status = c.status
  · have := hlogged' fun heq => hstatus (heq.trans hsame)
    omega
  · have := hlogged hsame
    omega

theorem keptAs_step (cfg : Settings) (db : Database) (op : Operation) (k : String) :
    KeptAs k db (step cfg db op) := by
  obtain ⟨es, hhistory, hcase⟩ := step_case cfg db op k
  generalize step cfg db op = db' at hhistory hcase
  refine ⟨⟨es, hhistory.symm⟩, fun c hc => ?_⟩
  have hlength := congrArg List.length hhistory
  rw [List.length_append] at hlength
  generalize hafter : db'.case? k = after at hcase
  cases hcase with
  | idle => exact ⟨c, hc, rfl, rfl, rfl, Nat.le_refl _, fun h => absurd rfl h⟩
  | createdStarted ch hrow hk => rw [hrow] at hc; cases hc
  | created ch hrow hk => rw [hrow] at hc; cases hc
  | commented ch hrow hversion =>
      rw [hrow] at hc
      cases hc
      exact ⟨_, rfl, rfl, rfl, rfl, Nat.le_refl _, fun h => absurd rfl h⟩
  | started hrow hasset hkey hfinding hresume =>
      rw [hrow] at hc
      cases hc
      refine ⟨_, rfl, rfl, rfl, rfl, Nat.le_succ _, fun _ => ?_⟩
      simp [startEvents] at hlength ⊢
      omega
  | refreshed hrow hstatus =>
      rw [hrow] at hc
      cases hc
      refine ⟨_, rfl, rfl, rfl, rfl, Nat.le_succ _, fun h => absurd ?_ h⟩
      simp [refreshCase, hstatus]
  | patched hrow | expired hrow | reopened hrow | resolved hrow | recalculated hrow
  | verified hrow | finalized hrow | assigned hrow | rewritten hrow =>
      rw [hrow] at hc
      cases hc
      first
        | exact ⟨_, rfl, rfl, rfl, rfl, Nat.le_succ _, fun _ => by simp at hlength; omega⟩
        | exact ⟨_, rfl, rfl, rfl, rfl, Nat.le_succ _, fun h => absurd rfl h⟩
        | exact ⟨_, rfl, rfl, rfl, rfl, Nat.le_refl _, fun h => absurd rfl h⟩

/--
Whatever is done with the cases, a case is never lost, stands for the same finding, and gets no
lower version; events are only appended, and no status changes without one.
-/
theorem cases_persist (cfg : Settings) (db : Database) (ops : List Operation) (k : String) :
    KeptAs k db (Runs.run (step cfg) db ops) := by
  induction ops generalizing db with
  | nil =>
      exact ⟨List.prefix_refl _, fun c hc =>
        ⟨c, hc, rfl, rfl, rfl, Nat.le_refl _, fun h => absurd rfl h⟩⟩
  | cons op ops ih => exact (keptAs_step cfg db op k).trans (ih _)

end Remediation
end MpvmApp
