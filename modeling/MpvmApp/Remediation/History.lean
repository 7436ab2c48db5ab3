import MpvmApp.Lib.Trail
import MpvmApp.Remediation.Lifecycle

/-!
# The status history of a case

Each event of a case stores the status before and after.  Read in write order,
the events lead from the creation to the current status, except where an
operation writes an old status that is not the previous new one.

Main results:

- Theorem `history_leads_to_status`: the history of a case leads to its status in
  every run in which no expiry pass takes the case and no start resumes it from
  a resolution.
- Theorem `history_not_always_leading`: an expiry pass writes the word
  `exception` as the old status.
-/

namespace MpvmApp
namespace Remediation

open Sql Findings Runs Trail

/-- The transitions of the events that carry a status. -/
def statusMoves (es : List CaseEvent) : List (Option EventStatus × Option EventStatus) :=
  es.filterMap fun e => e.newStatus.map fun new => (e.oldStatus, some (.status new))

@[simp]
theorem statusMoves_nil :
    statusMoves [] = [] :=
  rfl

@[simp]
theorem statusMoves_append (es fs : List CaseEvent) :
    statusMoves (es ++ fs) = statusMoves es ++ statusMoves fs := by
  simp [statusMoves]

theorem statusMoves_cons {e : CaseEvent} {new : CaseStatus} (h : e.newStatus = some new)
    (es : List CaseEvent) :
    statusMoves (e :: es) = (e.oldStatus, some (.status new)) :: statusMoves es := by
  simp [statusMoves, h]

/--
The history of a case leads from its creation, which has no status, to its
current status; an unknown case has no history.
-/
structure HistoryLeads (db : Database) (k : String) : Prop where
  known : ∀ c, db.case? k = some c →
    Leads none (statusMoves (db.history k)) (some (.status c.status))
  unknown : db.case? k = none → statusMoves (db.history k) = []

/-- The start finds the resolved case and its finding, so that it resumes the case. -/
def resumes (cfg : Settings) (db : Database) (request : StartRequest) (c : CaseRow) : Bool :=
  decide (c.status = .resolved ∧ c.assetId = strip request.assetId ∧
    c.vulnerabilityKey = strip request.vulnerabilityKey) &&
    (findingOf? (currentFindings cfg.locale db (strip request.assetId)) c).isSome

/-- No expiry pass takes the case and no start resumes it from a resolution. -/
def keepsHistory (cfg : Settings) (k : String) (db : Database) (op : Operation) : Bool :=
  match op with
  | .expire now => (db.case? k).all fun c => !(c.expired now && db.policy.isSome)
  | .start request _ => (db.case? k).all fun c => !resumes cfg db request c
  | _ => true

/-! ## One step -/

theorem HistoryLeads.of_known {db : Database} {k : String} {c : CaseRow}
    (hrow : db.case? k = some c)
    (hleads : Leads none (statusMoves (db.history k)) (some (.status c.status))) :
    HistoryLeads db k where
  known := fun c' hc' => by
    rw [hrow] at hc'
    cases hc'
    exact hleads
  unknown := fun hnone => by
    rw [hrow] at hnone
    cases hnone

theorem HistoryLeads.of_silent {db db' : Database} {k : String} {c c' : CaseRow}
    (h : HistoryLeads db k) (hrow : db.case? k = some c) (hrow' : db'.case? k = some c')
    (hhist : db'.history k = db.history k) (hstatus : c'.status = c.status) :
    HistoryLeads db' k :=
  .of_known hrow' (by rw [hhist, hstatus]; exact h.known c hrow)

theorem HistoryLeads.of_events {db db' : Database} {k : String} {c c' : CaseRow}
    {es : List CaseEvent} (h : HistoryLeads db k) (hrow : db.case? k = some c)
    (hrow' : db'.case? k = some c') (hhist : db'.history k = db.history k ++ es)
    (hmoves : Leads (some (.status c.status)) (statusMoves es) (some (.status c'.status))) :
    HistoryLeads db' k :=
  .of_known hrow' (by
    rw [hhist, statusMoves_append]
    exact (h.known c hrow).append hmoves)

theorem HistoryLeads.of_creation {db db' : Database} {k : String} {c' : CaseRow}
    {es : List CaseEvent} (h : HistoryLeads db k) (hrow : db.case? k = none)
    (hrow' : db'.case? k = some c') (hhist : db'.history k = db.history k ++ es)
    (hmoves : Leads none (statusMoves es) (some (.status c'.status))) :
    HistoryLeads db' k :=
  .of_known hrow' (by
    rw [hhist, statusMoves_append, h.unknown hrow]
    exact hmoves)

theorem startEvents_leads {request : StartRequest} {finding : CurrentFinding} {now : Instant}
    {c : CaseRow} (h : c.status ≠ .resolved) :
    Leads (some (.status c.status)) (statusMoves (startEvents request finding now c))
      (some (.status .inProgress)) := by
  simp [startEvents, h, statusMoves, operatorEvent]

/-- One permitted step keeps the history of the case. -/
theorem historyLeads_step (cfg : Settings) {k : String} {db : Database} {op : Operation}
    (h : HistoryLeads db k) (hok : keepsHistory cfg k db op = true) :
    HistoryLeads (step cfg db op) k := by
  obtain ⟨es, hhist, hcase⟩ := step_case cfg db op k
  generalize hafter : (step cfg db op).case? k = after at hcase
  cases hcase with
  | idle =>
      rw [List.append_nil] at hhist
      exact ⟨by rw [hafter, hhist]; exact h.known, by rw [hafter, hhist]; exact h.unknown⟩
  | commented ch hrow hversion =>
      exact h.of_events hrow hafter hhist (by simp [statusMoves, operatorEvent])
  | patched hrow hversion hvalid hstatus =>
      exact h.of_events hrow hafter hhist
        (by simp [statusMoves, operatorEvent, CaseChanges.assign])
  | expired hrow hpolicy hexpired => simp [keepsHistory, hrow, hexpired, hpolicy] at hok
  | @started request clean now c finding hrow hasset hkey hfinding hresume =>
      have hnot : c.status ≠ .resolved := by
        simpa [keepsHistory, hrow, resumes, hasset, hkey, hfinding] using hok
      exact h.of_events hrow hafter hhist (startEvents_leads hnot)
  | @createdStarted request clean now assetId key finding due ch hrow hk =>
      refine h.of_creation hrow hafter hhist ?_
      rw [statusMoves_cons rfl]
      refine ⟨rfl, startEvents_leads (c := newCase cfg.md5 assetId key finding due now) ?_⟩
      simp [newCase]
  | created ch hrow hk => exact h.of_creation hrow hafter hhist ⟨rfl, rfl⟩
  | refreshed hrow hstatus =>
      exact h.of_silent hrow hafter (by simpa using hhist) (by simp [refreshCase, hstatus])
  | reopened hrow hstatus =>
      exact h.of_events hrow hafter hhist
        (by simp [statusMoves, reappearedEvent, refreshCase, hstatus])
  | resolved hrow hresolves =>
      exact h.of_events hrow hafter hhist (by simp [statusMoves, absentEvent, resolveCase])
  | recalculated hrow htaken =>
      exact h.of_events hrow hafter hhist
        (by simp [statusMoves, recalculatedEvent, recalculateCase])
  | verified hrow htaken => exact h.of_silent hrow hafter (by simpa using hhist) rfl
  | finalized hrow htaken => exact h.of_silent hrow hafter (by simpa using hhist) rfl
  | assigned hrow => exact h.of_silent hrow hafter (by simpa using hhist) rfl
  | rewritten hrow => exact h.of_silent hrow hafter (by simpa using hhist) rfl

/-! ## Runs -/

/-- The history of a case leads to its status in every state of a permitted run. -/
theorem history_leads_to_status (cfg : Settings) (k : String) {db : Database}
    {ops : List Operation} (hinit : db.Initial)
    (hok : Along (step cfg) (fun s op => keepsHistory cfg k s op = true) db ops) :
    HistoryLeads (run (step cfg) db ops) k := by
  have hstep : ∀ s op, HistoryLeads s k → keepsHistory cfg k s op = true →
      HistoryLeads (step cfg s op) k := fun s op h hkeep => historyLeads_step cfg h hkeep
  refine hok.invariant hstep ⟨fun c hc => ?_, fun hc => by simp [hinit.silent k hc]⟩
  obtain ⟨e, hevents, hold, hnew⟩ := hinit.created k c hc
  rw [hevents, statusMoves_cons hnew, hold]
  simp [(hinit.fresh k c hc).1]

/-- A run that creates a case, works on it, resolves it and reopens it. -/
def workedAndReturned : List Operation :=
  [.saveAssets (oneAsset [oneFinding]), .reconcile "host" 10,
    .patch oneCaseId { expectedVersion := 1, status := some (some .inProgress) } 15,
    .saveAssets (oneAsset []), .reconcile "host" 20, .saveAssets (oneAsset [oneFinding]),
    .reconcile "host" 30]

theorem history_leads_worked :
    HistoryLeads (run (step plainSettings) (emptyDatabase defaultPolicy) workedAndReturned)
      oneCaseId :=
  history_leads_to_status plainSettings oneCaseId (emptyDatabase_initial defaultPolicy)
    (by decide +kernel)

/-- A run in which an accepted risk runs out. -/
def expiredRisk : List Operation :=
  [.saveAssets (oneAsset [oneFinding]), .reconcile "host" 10,
    .patch oneCaseId (acceptRisk 1 100) 20, .expire 200]

/-- The expiry pass writes an old status that no event has set. -/
theorem history_not_always_leading :
    ¬∀ (cfg : Settings) (k : String) (db : Database) (ops : List Operation), db.Initial →
      HistoryLeads (run (step cfg) db ops) k := by
  intro h
  have hrun := h plainSettings oneCaseId _ expiredRisk (emptyDatabase_initial defaultPolicy)
  have hcase : ((run (step plainSettings) (emptyDatabase defaultPolicy)
      expiredRisk).case? oneCaseId).any (fun c => !decide (Leads none
        (statusMoves ((run (step plainSettings) (emptyDatabase defaultPolicy)
          expiredRisk).history oneCaseId)) (some (.status c.status)))) = true := by
    decide +kernel
  obtain ⟨c, hc, hbroken⟩ := (Option.any_eq_true _ _).1 hcase
  simp [hrun.known c hc] at hbroken

end Remediation
end MpvmApp
