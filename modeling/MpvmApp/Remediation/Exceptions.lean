import MpvmApp.Remediation.Lifecycle

/-!
# Exceptions carry a reason and an expiry

A case with an exception status suspends the work on a finding.  The service
demands a reason and a future expiry when a request sets such a status, but a
request without a status reaches the same update unchecked.

Main results:

- Theorem `exceptions_justified`: when no request without a status takes the
  reason or the future expiry of an exception away, every exception of every
  reachable state has a reason, and an expiry that was in the future when it was
  set.
- Theorem `exceptions_not_always_justified`: a request that only clears the
  reasons leaves an exception without one.
-/

namespace MpvmApp
namespace Remediation

open Sql Findings Runs

/-- The reason of an exception as the case shows it. -/
def CaseRow.reason (c : CaseRow) : Option String :=
  match c.status with
  | .riskAccepted => coalesce (orNone c.exceptionReason) c.riskReason
  | _ => c.exceptionReason

/-! ## Watching when an expiry is set -/

/-- The database together with the instant at which each case last got an expiry. -/
structure Watched where
  db : Database
  expirySetAt : String → Option Instant

/-- The changes carry one of the two expiry fields. -/
def CaseChanges.writesExpiry (ch : CaseChanges) : Bool :=
  ch.riskExpiresAt.isSome || ch.exceptionExpiresAt.isSome

/-- The request carries a field that the update stores as an expiry. -/
def setsExpiry (p : CaseUpdate) (now : Instant) : Bool :=
  match validate p now with
  | .ok ch => ch.writesExpiry
  | .error _ => false

/-- The instant at which an operation sets the expiry of a case, if it does. -/
def expiryWrite (cfg : Settings) (db : Database) (op : Operation) (k : String) :
    Option Instant :=
  match op with
  | .patch caseId p now =>
      if caseId = k ∧ setsExpiry p now = true ∧ (step cfg db op).case? k ≠ db.case? k then
        some now
      else none
  | _ => none

/-- One step of the system with the watched instants. -/
def watch (cfg : Settings) (w : Watched) (op : Operation) : Watched where
  db := step cfg w.db op
  expirySetAt := fun k => coalesce (expiryWrite cfg w.db op k) (w.expirySetAt k)

/-- A case is no exception, or it has a reason and an expiry set in the future. -/
def Justified (c : CaseRow) (setAt : Option Instant) : Prop :=
  c.status.isException = true →
    isBlank c.reason = false ∧ ∃ expires t, c.expiry = some expires ∧ setAt = some t ∧ t < expires

/-- Every exception of a state is justified. -/
def ExceptionsJustified (w : Watched) : Prop :=
  ∀ k c, w.db.case? k = some c → Justified c (w.expirySetAt k)

/-! ## Requests without a status -/

/-- The reason that an exception has after a request without a status. -/
def CaseUpdate.reasonLeft (p : CaseUpdate) (c : CaseRow) : Option String :=
  let sent := (p.exceptionReason.map orNone).getD c.exceptionReason
  match c.status with
  | .riskAccepted => coalesce (orNone sent) ((p.riskReason.map orNone).getD c.riskReason)
  | _ => sent

/-- The expiry that an exception has after a request without a status. -/
def CaseUpdate.expiryLeft (p : CaseUpdate) (c : CaseRow) : Option Instant :=
  coalesce (p.exceptionExpiresAt.getD c.exceptionExpiresAt)
    (p.riskExpiresAt.getD c.riskExpiresAt)

/--
A request without a status on an exception leaves it a reason, and when it sends
an expiry, it leaves it one in the future.
-/
def CaseUpdate.keepsException (p : CaseUpdate) (now : Instant) (c : CaseRow) : Bool :=
  !isBlank (p.reasonLeft c) &&
    ((p.riskExpiresAt.isNone && p.exceptionExpiresAt.isNone) ||
      (p.expiryLeft c).any fun expires => decide (now < expires))

/-- The operation takes no exception its reason or its future expiry. -/
def keepsExceptions (w : Watched) (op : Operation) : Bool :=
  match op with
  | .patch k p now =>
      (w.db.case? k).all fun c =>
        !(c.status.isException && p.status.isNone && decide (c.version = p.expectedVersion)) ||
          p.keepsException now c
  | _ => true

/-! ## One step -/

theorem Justified.of_same {c c' : CaseRow} {setAt : Option Instant} (h : Justified c setAt)
    (hstatus : c'.status = c.status) (hrisk : c'.riskReason = c.riskReason)
    (hriskAt : c'.riskExpiresAt = c.riskExpiresAt)
    (hreason : c'.exceptionReason = c.exceptionReason)
    (hreasonAt : c'.exceptionExpiresAt = c.exceptionExpiresAt) :
    Justified c' setAt := by
  unfold Justified CaseRow.reason CaseRow.expiry at h ⊢
  rw [hstatus, hrisk, hriskAt, hreason, hreasonAt]
  exact h

theorem Justified.of_not_exception {c : CaseRow} {setAt : Option Instant}
    (h : c.status.isException = false) :
    Justified c setAt := by
  intro hexc
  rw [h] at hexc
  cases hexc

theorem justified_of_granted {p : CaseUpdate} {c : CaseRow} {status : CaseStatus}
    {now expires : Instant} (hreason : isBlank p.reason = false)
    (hexpires : p.expiration = some expires) (hfuture : now < expires) :
    Justified ((p.exceptionChanges status).assign status c) (some now) := by
  intro _
  refine ⟨?_, expires, now, ?_, rfl, hfuture⟩
  · have hsome : ∀ y, coalesce p.reason y = p.reason := by
      cases hp : p.reason with
      | none => simp [hp] at hreason
      | some s => simp
    unfold CaseRow.reason
    split
    · simpa [CaseChanges.assign, CaseUpdate.exceptionChanges, orNone_of_not_blank hreason, hsome]
        using hreason
    · simpa [CaseChanges.assign, CaseUpdate.exceptionChanges, orNone_of_not_blank hreason]
        using hreason
  · simp [CaseRow.expiry, CaseChanges.assign, CaseUpdate.exceptionChanges, hexpires]

theorem expiryWrite_of_same {cfg : Settings} {db : Database} {op : Operation} {k : String}
    (h : (step cfg db op).case? k = db.case? k) :
    expiryWrite cfg db op k = none := by
  cases op <;> simp [expiryWrite]
  simp [h]

theorem expiryWrite_of_patched {cfg : Settings} {db : Database} {k : String} {p : CaseUpdate}
    {now : Instant} {c : CaseRow} {ch : CaseChanges} {status : CaseStatus}
    (hrow : db.case? k = some c) (hvalid : validate p now = .ok ch)
    (hstep : (step cfg db (.patch k p now)).case? k = some (ch.assign status c)) :
    expiryWrite cfg db (.patch k p now) k = if ch.writesExpiry then some now else none := by
  have hchanged : (step cfg db (.patch k p now)).case? k ≠ db.case? k := by
    rw [hstep, hrow]
    intro h
    have hversion := congrArg CaseRow.version (Option.some.inj h)
    simp [CaseChanges.assign] at hversion
  simp [expiryWrite, setsExpiry, hvalid, hchanged]

/-- A request without a status keeps the justification when it leaves reason and expiry. -/
theorem Justified.of_fields {p : CaseUpdate} {c : CaseRow} {now : Instant}
    {setAt : Option Instant} (h : Justified c setAt)
    (hkeeps : c.status.isException = true → p.keepsException now c = true) :
    Justified (p.changes.assign c.status c)
      (coalesce (if p.changes.writesExpiry then some now else none) setAt) := by
  intro hexc
  have hkeep := hkeeps hexc
  simp only [CaseUpdate.keepsException, Bool.and_eq_true, Bool.not_eq_true', Bool.or_eq_true,
    Option.any_eq_true, decide_eq_true_eq] at hkeep
  have hreason : (p.changes.assign c.status c).reason = p.reasonLeft c := by
    simp only [CaseRow.reason, CaseUpdate.reasonLeft, CaseChanges.assign, CaseUpdate.changes]
  have hexpiry : (p.changes.assign c.status c).expiry = p.expiryLeft c := rfl
  refine ⟨hreason ▸ hkeep.1, ?_⟩
  rw [hexpiry]
  by_cases hwrites : p.changes.writesExpiry = true
  · -- The request sends an expiry: it is in the future now.
    rcases hkeep.2 with ⟨hrisk, hexception⟩ | ⟨expires, hleft, hfuture⟩
    · simp only [CaseChanges.writesExpiry, CaseUpdate.changes, Bool.or_eq_true,
        Option.isSome_iff_ne_none] at hwrites
      simp_all only [Option.isNone_iff_eq_none, ne_eq, not_true_eq_false, or_self]
    · exact ⟨expires, now, hleft, by simp [hwrites], hfuture⟩
  · -- The request sends none: the stored expiry stays.
    obtain ⟨_, expires, t, hstored, hset, hlt⟩ := h hexc
    refine ⟨expires, t, ?_, by simp [hwrites, hset], hlt⟩
    simp only [CaseChanges.writesExpiry, CaseUpdate.changes, Bool.or_eq_true, not_or,
      Option.not_isSome_iff_eq_none] at hwrites
    simpa [CaseUpdate.expiryLeft, hwrites.1, hwrites.2, CaseRow.expiry] using hstored

theorem justified_of_patched {p : CaseUpdate} {now : Instant} {c : CaseRow}
    {setAt : Option Instant} {ch : CaseChanges} {status : CaseStatus} (h : Justified c setAt)
    (hvalid : validate p now = .ok ch) (hstatus : ch.status.getD (some c.status) = some status)
    (hkeeps : p.status = none → c.status.isException = true → p.keepsException now c = true) :
    Justified (ch.assign status c)
      (coalesce (if ch.writesExpiry then some now else none) setAt) := by
  rcases validate_stores hvalid hstatus with ⟨habsent, rfl, rfl⟩ |
    ⟨expires, _, _, hreason, hexpires, hfuture, rfl⟩ | ⟨_, hactive, rfl⟩
  · exact h.of_fields (hkeeps habsent)
  · have hwrites : (p.exceptionChanges status).writesExpiry = true := by
      simp [CaseChanges.writesExpiry, CaseUpdate.exceptionChanges]
    simpa [hwrites] using justified_of_granted (c := c) hreason hexpires hfuture
  · refine Justified.of_not_exception ?_
    cases status <;> simp_all [CaseStatus.isActive, CaseStatus.isException, CaseChanges.assign]

/-- One permitted step keeps every exception justified. -/
theorem exceptionsJustified_watch (cfg : Settings) {w : Watched} {op : Operation}
    (h : ExceptionsJustified w) (hok : keepsExceptions w op = true) :
    ExceptionsJustified (watch cfg w op) := by
  intro k c' hc'
  change (step cfg w.db op).case? k = some c' at hc'
  obtain ⟨es, _, hcase⟩ := step_case cfg w.db op k
  generalize hafter : (step cfg w.db op).case? k = after at hcase
  rw [hafter] at hc'
  change Justified c' (coalesce (expiryWrite cfg w.db op k) (w.expirySetAt k))
  cases hcase with
  | idle =>
      rw [expiryWrite_of_same hafter, coalesce_none_left]
      exact h k c' hc'
  | commented ch hrow hversion =>
      cases hc'
      rw [expiryWrite_of_same (hafter.trans hrow.symm), coalesce_none_left]
      exact h k c' hrow
  | patched hrow hversion hvalid hstatus =>
      cases hc'
      rw [expiryWrite_of_patched hrow hvalid hafter]
      refine justified_of_patched (h k _ hrow) hvalid hstatus fun hnone hexc => ?_
      simpa [keepsExceptions, hrow, hexc, hnone, hversion] using hok
  | expired hrow hpolicy hexpired =>
      cases hc'
      exact .of_not_exception rfl
  | started hrow hasset hkey hfinding hresume =>
      cases hc'
      exact .of_not_exception rfl
  | createdStarted ch hrow hk =>
      cases hc'
      exact .of_not_exception rfl
  | created ch hrow hk =>
      cases hc'
      exact .of_not_exception rfl
  | refreshed hrow hstatus =>
      cases hc'
      exact (h k _ hrow).of_same (by simp [refreshCase, hstatus]) rfl rfl rfl rfl
  | reopened hrow hstatus =>
      cases hc'
      exact .of_not_exception (by simp [refreshCase, hstatus, CaseStatus.isException])
  | resolved hrow hresolves =>
      cases hc'
      exact .of_not_exception rfl
  | recalculated hrow htaken =>
      cases hc'
      exact (h k _ hrow).of_same rfl rfl rfl rfl rfl
  | verified hrow htaken =>
      cases hc'
      exact (h k _ hrow).of_same rfl rfl rfl rfl rfl
  | finalized hrow htaken =>
      cases hc'
      exact (h k _ hrow).of_same rfl rfl rfl rfl rfl
  | assigned hrow =>
      cases hc'
      exact (h k _ hrow).of_same rfl rfl rfl rfl rfl
  | rewritten hrow =>
      cases hc'
      exact (h k _ hrow).of_same rfl rfl rfl rfl rfl

/-! ## Runs -/

/-- An initial state in which no expiry has been set. -/
def Watched.start (db : Database) : Watched where
  db := db
  expirySetAt := fun _ => none

/--
In every run whose requests without a status leave the exceptions their reasons
and future expiries, every exception of the state reached is justified.
-/
theorem exceptions_justified (cfg : Settings) {db : Database} {ops : List Operation}
    (hinit : db.Initial)
    (hok : Along (watch cfg) (fun w op => keepsExceptions w op = true) (.start db) ops) :
    ExceptionsJustified (run (watch cfg) (.start db) ops) := by
  refine hok.invariant (fun w op h hstep => exceptionsJustified_watch cfg h hstep) ?_
  intro k c hc
  refine Justified.of_not_exception ?_
  rw [(hinit.fresh k c hc).1]
  rfl

/-- A run that creates a case, accepts its risk and gives the exception a new expiry. -/
def extendedException : List Operation :=
  [.saveAssets (oneAsset [oneFinding]), .reconcile "host" 10,
    .patch oneCaseId (acceptRisk 1 100) 20,
    .patch oneCaseId { expectedVersion := 2, exceptionExpiresAt := some (some 200) } 30]

/-- The justified run ends with an exception. -/
theorem exceptions_justified_extended :
    ExceptionsJustified
      (run (watch plainSettings) (.start (emptyDatabase defaultPolicy)) extendedException) :=
  exceptions_justified plainSettings (emptyDatabase_initial defaultPolicy) (by decide +kernel)

/-- A run in which a request without a status clears both reasons of an accepted risk. -/
def clearedReason : List Operation :=
  [.saveAssets (oneAsset [oneFinding]), .reconcile "host" 10,
    .patch oneCaseId (acceptRisk 1 100) 20,
    .patch oneCaseId
      { expectedVersion := 2, exceptionReason := some none, riskReason := some none } 30]

/-- A reachable exception has no reason. -/
theorem exceptions_not_always_justified :
    ¬∀ (cfg : Settings) (db : Database) (ops : List Operation), db.Initial →
      ExceptionsJustified (run (watch cfg) (.start db) ops) := by
  intro h
  have hrun := h plainSettings _ clearedReason (emptyDatabase_initial defaultPolicy)
  have hcase : ((run (watch plainSettings) (.start (emptyDatabase defaultPolicy))
      clearedReason).db.case? oneCaseId).any
        (fun c => c.status.isException && isBlank c.reason) = true := by
    decide +kernel
  obtain ⟨c, hc, hboth⟩ := (Option.any_eq_true _ _).1 hcase
  obtain ⟨hexc, hblank⟩ := Bool.and_eq_true_iff.1 hboth
  rw [(hrun oneCaseId c hc hexc).1] at hblank
  cases hblank

end Remediation
end MpvmApp
