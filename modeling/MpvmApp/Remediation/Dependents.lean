import MpvmApp.Remediation.Lifecycle

/-!
# Columns that depend on the status

Reports and timers read `resolved_at` and the exception columns without looking at
the status again.  They agree with the status as long as every writer of the
status also writes the columns that depend on it.

Main results:

- Theorem `columns_match_status`: the columns agree with the status in every
  state of a run without a status request on a resolved case, without a
  resolution of an accepted risk that still has its columns, and without a
  request that gives exception columns to a case that is no exception.
- Theorem `columns_not_always_match`: a status request on a resolved case keeps
  its resolution time.
-/

namespace MpvmApp
namespace Remediation

open Sql Findings Runs

/-- The four exception columns of a case are null. -/
def CaseRow.noException (c : CaseRow) : Bool :=
  c.riskReason.isNone && c.riskExpiresAt.isNone && c.exceptionReason.isNone &&
    c.exceptionExpiresAt.isNone

/-- The columns of a case agree with its status. -/
structure MatchesStatus (c : CaseRow) : Prop where
  resolved : c.resolvedAt.isSome = true ↔ c.status = .resolved
  exception : c.status.isException = false → c.noException = true

/-- The columns of every case agree with its status. -/
def ColumnsMatchStatus (db : Database) : Prop :=
  ∀ k c, db.case? k = some c → MatchesStatus c

/-- A sent text is absent, null or empty: the update stores no text for it. -/
def storesNoText (x : Option (Option String)) : Bool :=
  x.all fun v => (orNone v).isNone

/-- A sent instant is absent or null. -/
def storesNoInstant (x : Option (Option Instant)) : Bool :=
  x.all fun v => v.isNone

/-- The request gives no exception column a value. -/
def CaseUpdate.givesNoException (p : CaseUpdate) : Bool :=
  storesNoText p.riskReason && storesNoInstant p.riskExpiresAt &&
    storesNoText p.exceptionReason && storesNoInstant p.exceptionExpiresAt

/-- The service accepts the request. -/
def accepts (p : CaseUpdate) (now : Instant) : Bool :=
  match validate p now with
  | .ok _ => true
  | .error _ => false

/--
A request that reaches the update sets no status on a resolved case, and without
a status it gives no exception column to a case that is no exception.
-/
def CaseUpdate.keepsColumns (p : CaseUpdate) (now : Instant) (c : CaseRow) : Bool :=
  !(accepts p now && decide (c.version = p.expectedVersion)) ||
    match p.status with
    | some _ => decide (c.status ≠ .resolved)
    | none => c.status.isException || p.givesNoException

/-- The operation keeps the dependent columns of every case. -/
def keepsColumns (cfg : Settings) (db : Database) (op : Operation) : Bool :=
  match op with
  | .patch k p now => (db.case? k).all fun c => p.keepsColumns now c
  | .reconcile assetId now => db.cases.rows.all fun c =>
      !(decide (c.status = .riskAccepted) && resolves cfg db assetId now c) || c.noException
  | _ => true

/-! ## One step -/

theorem MatchesStatus.of_same {c c' : CaseRow} (h : MatchesStatus c)
    (hstatus : c'.status = c.status) (hresolved : c'.resolvedAt = c.resolvedAt)
    (hnone : c'.noException = c.noException) :
    MatchesStatus c' where
  resolved := by rw [hresolved, hstatus]; exact h.resolved
  exception := by rw [hnone, hstatus]; exact h.exception

theorem MatchesStatus.of_clear {c : CaseRow} (hstatus : c.status ≠ .resolved)
    (hresolved : c.resolvedAt = none) (hnone : c.noException = true) :
    MatchesStatus c where
  resolved := by simp [hresolved, hstatus]
  exception := fun _ => hnone

theorem MatchesStatus.resolvedAt_eq_none {c : CaseRow} (h : MatchesStatus c)
    (hstatus : c.status ≠ .resolved) :
    c.resolvedAt = none := by
  cases hc : c.resolvedAt with
  | none => rfl
  | some t => exact absurd (h.resolved.1 (by simp [hc])) hstatus

/-- An update that is carried out keeps the agreement of its case. -/
theorem matchesStatus_of_patched {p : CaseUpdate} {now : Instant} {c : CaseRow}
    {ch : CaseChanges} {status : CaseStatus} (h : MatchesStatus c)
    (hvalid : validate p now = .ok ch) (hversion : c.version = p.expectedVersion)
    (hstatus : ch.status.getD (some c.status) = some status)
    (hkeeps : p.keepsColumns now c = true) :
    MatchesStatus (ch.assign status c) := by
  have haccepts : accepts p now = true := by simp [accepts, hvalid]
  simp only [CaseUpdate.keepsColumns, haccepts, hversion, decide_true, Bool.and_self,
    Bool.not_true, Bool.false_or] at hkeeps
  rcases validate_stores hvalid hstatus with ⟨habsent, rfl, rfl⟩ |
    ⟨expires, hgiven, hexc, _, _, _, rfl⟩ | ⟨hgiven, hactive, rfl⟩
  · -- Without a status, the case keeps its own and the sent columns are stored.
    refine ⟨h.resolved, fun hno => ?_⟩
    have hexc : c.status.isException = false := hno
    simp only [habsent, hexc, Bool.false_or] at hkeeps
    have hold := h.exception hexc
    simp only [CaseRow.noException, Bool.and_eq_true, Option.isNone_iff_eq_none] at hold ⊢
    simp only [CaseUpdate.givesNoException, storesNoText, storesNoInstant, Bool.and_eq_true]
      at hkeeps
    obtain ⟨⟨⟨h₁, h₂⟩, h₃⟩, h₄⟩ := hkeeps
    obtain ⟨⟨⟨o₁, o₂⟩, o₃⟩, o₄⟩ := hold
    refine ⟨⟨⟨?_, ?_⟩, ?_⟩, ?_⟩
    · cases hp : p.riskReason <;> simp_all [CaseChanges.assign, CaseUpdate.changes]
    · cases hp : p.riskExpiresAt <;> simp_all [CaseChanges.assign, CaseUpdate.changes]
    · cases hp : p.exceptionReason <;> simp_all [CaseChanges.assign, CaseUpdate.changes]
    · cases hp : p.exceptionExpiresAt <;> simp_all [CaseChanges.assign, CaseUpdate.changes]
  · -- An exception is granted: the case was not resolved.
    have hnot : c.status ≠ .resolved := by simpa [hgiven] using hkeeps
    refine ⟨?_, fun hno => ?_⟩
    · have hnone := h.resolvedAt_eq_none hnot
      cases status <;> simp_all [CaseChanges.assign, CaseStatus.isException]
    · rw [show ((p.exceptionChanges status).assign status c).status = status from rfl, hexc] at hno
      cases hno
  · -- Another status is set: the exception columns are cleared.
    have hnot : c.status ≠ .resolved := by simpa [hgiven] using hkeeps
    refine .of_clear ?_ (h.resolvedAt_eq_none hnot) rfl
    rintro rfl
    cases hactive

/-- One permitted step keeps the columns in agreement. -/
theorem columnsMatchStatus_step (cfg : Settings) {db : Database} {op : Operation}
    (h : ColumnsMatchStatus db) (hok : keepsColumns cfg db op = true) :
    ColumnsMatchStatus (step cfg db op) := by
  intro k c' hc'
  obtain ⟨es, _, hcase⟩ := step_case cfg db op k
  rw [hc'] at hcase
  generalize hafter : some c' = after at hcase
  cases hcase with
  | idle => exact h k c' hafter.symm
  | commented ch hrow hversion =>
      cases hafter
      exact h k c' hrow
  | patched hrow hversion hvalid hstatus =>
      cases hafter
      refine matchesStatus_of_patched (h k _ hrow) hvalid hversion hstatus ?_
      simpa [keepsColumns, hrow] using hok
  | expired hrow hpolicy hexpired =>
      cases hafter
      exact .of_clear (by simp [expireCase]) rfl rfl
  | started hrow hasset hkey hfinding hresume =>
      cases hafter
      exact .of_clear (by simp [startCase]) rfl rfl
  | createdStarted ch hrow hk =>
      cases hafter
      exact .of_clear (by simp [startCase]) rfl rfl
  | created ch hrow hk =>
      cases hafter
      exact .of_clear (by simp [newCase]) rfl rfl
  | refreshed hrow hstatus =>
      cases hafter
      exact (h k _ hrow).of_same (by simp [refreshCase, hstatus]) (by simp [refreshCase, hstatus])
        rfl
  | reopened hrow hstatus =>
      cases hafter
      have hnone := (h k _ hrow).exception (by rw [hstatus]; rfl)
      exact .of_clear (by simp [refreshCase, hstatus]) (by simp [refreshCase, hstatus]) hnone
  | @resolved assetId now c hrow hresolves =>
      cases hafter
      refine ⟨by simp [resolveCase], fun _ => ?_⟩
      change c.noException = true
      -- Only a case that is no exception, or an accepted risk without columns, gets here.
      by_cases haccepted : c.status = .riskAccepted
      · have hall := List.all_eq_true.1 hok c (Table.mem_of_find? hrow)
        simpa [haccepted, hresolves] using hall
      · refine (h k c hrow).exception ?_
        simp only [resolves, Bool.and_eq_true, decide_eq_true_eq] at hresolves
        cases hs : c.status <;> simp_all [CaseStatus.isException]
  | recalculated hrow htaken =>
      cases hafter
      exact (h k _ hrow).of_same rfl rfl rfl
  | verified hrow htaken =>
      cases hafter
      exact (h k _ hrow).of_same rfl rfl rfl
  | finalized hrow htaken =>
      cases hafter
      exact (h k _ hrow).of_same rfl rfl rfl
  | assigned hrow =>
      cases hafter
      exact (h k _ hrow).of_same rfl rfl rfl
  | rewritten hrow =>
      cases hafter
      exact (h k _ hrow).of_same rfl rfl rfl

/-! ## Runs -/

/-- The columns agree with the status in every state of a permitted run. -/
theorem columns_match_status (cfg : Settings) {db : Database} {ops : List Operation}
    (hinit : db.Initial)
    (hok : Along (step cfg) (fun s op => keepsColumns cfg s op = true) db ops) :
    ColumnsMatchStatus (run (step cfg) db ops) := by
  refine hok.invariant (fun s op h hstep => columnsMatchStatus_step cfg h hstep) ?_
  intro k c hc
  obtain ⟨hstatus, hresolved, hrisk, hriskAt, hreason, hreasonAt⟩ := hinit.fresh k c hc
  exact .of_clear (by simp [hstatus]) hresolved
    (by simp [CaseRow.noException, hrisk, hriskAt, hreason, hreasonAt])

/-- A run that creates a case, resolves it and reopens it when the finding returns. -/
def resolvedAndReopened : List Operation :=
  [.saveAssets (oneAsset [oneFinding]), .reconcile "host" 10, .saveAssets (oneAsset []),
    .reconcile "host" 20, .saveAssets (oneAsset [oneFinding]), .reconcile "host" 30]

theorem columns_match_status_reopened :
    ColumnsMatchStatus
      (run (step plainSettings) (emptyDatabase defaultPolicy) resolvedAndReopened) :=
  columns_match_status plainSettings (emptyDatabase_initial defaultPolicy) (by decide +kernel)

/-- A run in which an operator sets a resolved case back to open. -/
def reopenedByRequest : List Operation :=
  [.saveAssets (oneAsset [oneFinding]), .reconcile "host" 10, .saveAssets (oneAsset []),
    .reconcile "host" 20,
    .patch oneCaseId { expectedVersion := 2, status := some (some .opened) } 30]

/-- A reachable open case has a resolution time. -/
theorem columns_not_always_match :
    ¬∀ (cfg : Settings) (db : Database) (ops : List Operation), db.Initial →
      ColumnsMatchStatus (run (step cfg) db ops) := by
  intro h
  have hrun := h plainSettings _ reopenedByRequest (emptyDatabase_initial defaultPolicy)
  have hcase : ((run (step plainSettings) (emptyDatabase defaultPolicy)
      reopenedByRequest).case? oneCaseId).any
        (fun c => c.resolvedAt.isSome && decide (c.status = .opened)) = true := by
    decide +kernel
  obtain ⟨c, hc, hboth⟩ := (Option.any_eq_true _ _).1 hcase
  obtain ⟨hsome, hopened⟩ := Bool.and_eq_true_iff.1 hboth
  have hresolved := (hrun oneCaseId c hc).resolved.1 hsome
  rw [of_decide_eq_true hopened] at hresolved
  cases hresolved

end Remediation
end MpvmApp
