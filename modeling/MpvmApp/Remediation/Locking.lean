import MpvmApp.Lib.Versioned
import MpvmApp.Remediation.Lifecycle

/-!
# Optimistic locking of cases

An operator update carries the version of the case that the operator has read.
It protects the operator from overwriting an unseen change when every writer
raises the version.

Main results:

- Theorem `no_lost_update`: as long as no replacement of passport ids rewrites the
  reference of the case, every change raises its version, and an acceptable
  update that names a field or a comment is carried out exactly when the case is
  still as it was read; a rejected update changes nothing.
- Theorem `lost_update_by_replacement`: a replacement changes the case without
  raising its version.
-/

namespace MpvmApp
namespace Remediation

open Sql Findings Runs Versioned

/-- A replacement of passport ids leaves the reference of the case alone. -/
def leavesReference (k : String) (db : Database) (op : Operation) : Bool :=
  match op with
  | .passports plan =>
      (db.case? k).all fun c => c.passportInternalId.all fun passport =>
        !plan.any fun p => decide (p.1 = passport)
  | _ => true

theorem replaceReference_eq_self {plan : List (String × String)} {passport : Option String}
    (h : passport.all (fun id => !plan.any fun p => decide (p.1 = id)) = true) :
    replaceReference plan passport = passport := by
  cases passport with
  | none => rfl
  | some id =>
      simp only [Option.all_some, Bool.not_eq_true', List.any_eq_false, decide_eq_true_eq] at h
      have hfind : (plan.find? fun p => decide (p.1 = id)) = none :=
        List.find?_eq_none.2 fun p hp => by simpa using h p hp
      have hkeep : (plan.any fun q => decide (q.1 = id)) = false :=
        List.any_eq_false.2 fun p hp => by simpa using h p hp
      simp [replaceReference, successorId, hfind, hkeep]

/-- A permitted step leaves the case as it is or raises its version. -/
theorem later_step (cfg : Settings) {k : String} {db : Database} {op : Operation}
    (hok : leavesReference k db op = true) :
    Later CaseRow.version (db.case? k) ((step cfg db op).case? k) := by
  obtain ⟨es, _, hcase⟩ := step_case cfg db op k
  generalize hafter : (step cfg db op).case? k = after at hcase
  cases hcase with
  | idle => exact .refl _
  | commented ch hrow hversion => rw [hrow]; exact .refl _
  | patched hrow hversion hvalid hstatus => rw [hrow]; exact .of_lt (Nat.lt_succ_self _)
  | expired hrow hpolicy hexpired => rw [hrow]; exact .of_lt (Nat.lt_succ_self _)
  | started hrow hasset hkey hfinding hresume => rw [hrow]; exact .of_lt (Nat.lt_succ_self _)
  | createdStarted ch hrow hk => rw [hrow]; exact .of_none _
  | created ch hrow hk => rw [hrow]; exact .of_none _
  | refreshed hrow hstatus => rw [hrow]; exact .of_lt (Nat.lt_succ_self _)
  | reopened hrow hstatus => rw [hrow]; exact .of_lt (Nat.lt_succ_self _)
  | resolved hrow hresolves => rw [hrow]; exact .of_lt (Nat.lt_succ_self _)
  | recalculated hrow htaken => rw [hrow]; exact .of_lt (Nat.lt_succ_self _)
  | verified hrow htaken => rw [hrow]; exact .of_lt (Nat.lt_succ_self _)
  | finalized hrow htaken => rw [hrow]; exact .of_lt (Nat.lt_succ_self _)
  | assigned hrow => rw [hrow]; exact .of_lt (Nat.lt_succ_self _)
  | rewritten hrow =>
      have hsame : replaceReference _ _ = _ :=
        replaceReference_eq_self (by simpa [leavesReference, hrow] using hok)
      rw [hrow, replacePassport, hsame]
      exact .refl _

theorem later_run (cfg : Settings) {k : String} {db : Database} {ops : List Operation}
    (hok : Along (step cfg) (fun s op => leavesReference k s op = true) db ops) :
    Later CaseRow.version (db.case? k) ((run (step cfg) db ops).case? k) := by
  induction ops generalizing db with
  | nil => exact .refl _
  | cons op ops ih => exact (later_step cfg hok.1).trans (ih hok.2)

/-! ## The operator update -/

/-- The request names a field or carries a comment, so that the update writes. -/
def CaseUpdate.writes (p : CaseUpdate) : Bool :=
  !p.changes.isEmpty || (orNone (p.comment.getD none)).isSome

/-- The checks before the version: well-formed, valid, and no null status. -/
def CaseUpdate.acceptable (p : CaseUpdate) (now : Instant) : Bool :=
  p.wellFormed && !decide (p.status = some none) &&
    match validate p now with
    | .ok _ => true
    | .error _ => false

theorem validate_isEmpty {p : CaseUpdate} {now : Instant} {ch : CaseChanges}
    (h : validate p now = .ok ch) (hempty : ch.isEmpty = true) :
    p.changes.isEmpty = true := by
  rcases validate_eq_ok h with ⟨_, rfl⟩ | ⟨_, _, _, _, _, _, _, rfl⟩ | ⟨_, _, _, rfl⟩
  · exact hempty
  · simp [CaseChanges.isEmpty, CaseUpdate.exceptionChanges] at hempty
  · simp [CaseChanges.isEmpty, CaseUpdate.clearingChanges] at hempty

theorem acceptable_stores {p : CaseUpdate} {now : Instant} {ch : CaseChanges} (old : CaseStatus)
    (h : validate p now = .ok ch) (hnull : p.status ≠ some none) :
    ∃ status, ch.status.getD (some old) = some status := by
  have hsame : ch.status = p.status := by
    rcases validate_eq_ok h with ⟨_, rfl⟩ | ⟨_, _, _, _, _, _, _, rfl⟩ | ⟨_, _, _, rfl⟩ <;> rfl
  rw [hsame]
  cases hp : p.status with
  | none => exact ⟨old, rfl⟩
  | some v =>
      cases v with
      | none => exact absurd hp hnull
      | some status => exact ⟨status, rfl⟩

/--
A request that writes is carried out on a case exactly when it is acceptable and
carries the version of the case.
-/
theorem patchCase_ok_iff {db : Database} {k : String} {p : CaseUpdate} {now : Instant}
    {c : CaseRow} (hrow : db.case? k = some c) (hwrites : p.writes = true) :
    (∃ r, patchCase k p now db = .ok r) ↔
      p.acceptable now = true ∧ c.version = p.expectedVersion := by
  unfold patchCase CaseUpdate.acceptable
  cases hwf : p.wellFormed with
  | false => simp
  | true =>
    cases hvalid : validate p now with
    | error e => simp [bind, Except.bind]
    | ok ch =>
      have hskip : (ch.isEmpty && (orNone (p.comment.getD none)).isNone) = false := by
        by_contra hboth
        simp only [Bool.not_eq_false, Bool.and_eq_true, Option.isNone_iff_eq_none] at hboth
        simp [CaseUpdate.writes, validate_isEmpty hvalid hboth.1, hboth.2] at hwrites
      simp only [bind, Except.bind, update, hskip, hrow, if_true, Bool.false_eq_true, if_false]
      by_cases hversion : c.version = p.expectedVersion
      · by_cases hnull : p.status = some none
        · have hch : ch = p.changes := by
            rcases validate_eq_ok hvalid with ⟨_, rfl⟩ | ⟨_, _, hgiven, _⟩ | ⟨_, hgiven, _⟩
            · rfl
            · rw [hnull] at hgiven; cases hgiven
            · rw [hnull] at hgiven; cases hgiven
          subst hch
          simp [hversion, hnull, CaseUpdate.changes, CaseChanges.isEmpty]
        · obtain ⟨status, hstatus⟩ := acceptable_stores c.status hvalid hnull
          by_cases hempty : ch.isEmpty = true
          · simp [hversion, hnull, hempty]
          · simp [hversion, hnull, hempty, hstatus]
      · simp [hversion]

/-! ## Runs -/

/-- No committed change has touched the case on the way. -/
def Untouched (cfg : Settings) (k : String) (db : Database) (ops : List Operation) : Prop :=
  ∀ before after, ops = before ++ after →
    (run (step cfg) db before).case? k = db.case? k

theorem untouched_iff (cfg : Settings) {k : String} {db : Database} {ops : List Operation}
    {c : CaseRow} (hrow : db.case? k = some c)
    (hok : Along (step cfg) (fun s op => leavesReference k s op = true) db ops) :
    Untouched cfg k db ops ↔ (run (step cfg) db ops).case? k = some c := by
  constructor
  · intro h
    rw [← hrow]
    exact h ops [] (by simp)
  · intro hend before after hsplit
    subst hsplit
    obtain ⟨hbefore, hafter⟩ := (along_append db before after).1 hok
    have hfirst := later_run cfg hbefore
    have hsecond := later_run cfg hafter
    rw [hrow] at hfirst
    rw [← run_append, hend] at hsecond
    rw [hrow]
    exact hfirst.between hsecond

/--
Lost-update freedom of the case `k`, read as `c` in the state `db`, over a run and
for a request that carries the version that was read.
-/
structure LostUpdateFree (cfg : Settings) (k : String) (db : Database) (ops : List Operation)
    (c : CaseRow) (p : CaseUpdate) (now : Instant) : Prop where
  /-- Every change of the case raises its version. -/
  raises : ∀ before op after, ops = before ++ op :: after → ∃ x y,
    (run (step cfg) db before).case? k = some x ∧
    (run (step cfg) db (before ++ [op])).case? k = some y ∧ (y ≠ x → x.version < y.version)
  /-- An acceptable request is carried out exactly when nothing changed since the read. -/
  succeeds : p.expectedVersion = c.version →
    ((∃ r, patchCase k p now (run (step cfg) db ops) = .ok r) ↔
      p.acceptable now = true ∧ Untouched cfg k db ops)
  /-- A rejected request leaves the case and its history as they were. -/
  rejected : ∀ e, patchCase k p now (run (step cfg) db ops) = .error e →
    step cfg (run (step cfg) db ops) (.patch k p now) = run (step cfg) db ops

/--
No update is lost over a run without a replacement that rewrites the reference of
the case, for requests that name a field or carry a comment.
-/
theorem no_lost_update (cfg : Settings) {k : String} {db : Database} {ops : List Operation}
    {c : CaseRow} {p : CaseUpdate} (now : Instant) (hrow : db.case? k = some c)
    (hok : Along (step cfg) (fun s op => leavesReference k s op = true) db ops)
    (hwrites : p.writes = true) :
    LostUpdateFree cfg k db ops c p now where
  raises := by
    intro before op after hsplit
    subst hsplit
    obtain ⟨hbefore, hrest⟩ := (along_append db before (op :: after)).1 hok
    obtain ⟨x, hx, _⟩ := later_run cfg hbefore c hrow
    obtain ⟨y, hy, hxy⟩ := later_step cfg hrest.1 x hx
    exact ⟨x, y, hx, by simpa using hy, fun hne => hxy.resolve_left hne⟩
  succeeds := by
    intro hread
    obtain ⟨y, hy, hcy⟩ := later_run cfg hok c hrow
    rw [patchCase_ok_iff hy hwrites, untouched_iff cfg hrow hok, hy, hread, Option.some.injEq]
    refine and_congr_right fun _ => ⟨fun hversion => ?_, fun heq => heq ▸ rfl⟩
    rcases hcy with heq | hlt
    · exact heq
    · exact absurd hversion (Nat.ne_of_gt hlt)
  rejected := by
    intro e herror
    exact step_of_rejected (e := e) (by simp [perform, herror, Except.map])

/-- The asset of the small deployment with a passport linked to its finding. -/
def linkedAsset : AssetData :=
  { oneAsset [oneFinding] with
    links := [{ assetVulnerabilityId := 1, passportInternalId := "old" }] }

/-- The state in which an operator reads the new case. -/
def readState : Database :=
  run (step plainSettings) (emptyDatabase defaultPolicy)
    [.saveAssets linkedAsset, .reconcile "host" 10]

/-- The case that the operator reads. -/
def readCase : CaseRow :=
  (readState.case? oneCaseId).get (by decide +kernel)

/-- A reconciliation refreshes the case that the operator has read. -/
theorem no_lost_update_refreshed :
    LostUpdateFree plainSettings oneCaseId readState [.reconcile "host" 20] readCase
      (acceptRisk 1 100) 30 :=
  no_lost_update plainSettings 30 (Option.some_get _).symm (by decide +kernel) (by decide)

/-- A replacement of passport ids changes the case that was read and keeps its version. -/
theorem lost_update_by_replacement :
    ¬∀ (cfg : Settings) (k : String) (start : Database) (setup ops : List Operation)
      (c : CaseRow) (p : CaseUpdate) (now : Instant), start.Initial →
      (run (step cfg) start setup).case? k = some c →
      LostUpdateFree cfg k (run (step cfg) start setup) ops c p now := by
  intro h
  have hfree := h plainSettings oneCaseId _ [.saveAssets linkedAsset, .reconcile "host" 10]
    [.passports [("old", "new")]] readCase (acceptRisk 1 100) 30
    (emptyDatabase_initial defaultPolicy) (Option.some_get _).symm
  obtain ⟨x, y, hx, hy, hraises⟩ := hfree.raises [] (.passports [("old", "new")]) [] rfl
  have hversions : (readState.case? oneCaseId).map CaseRow.version =
        ((run (step plainSettings) readState [.passports [("old", "new")]]).case?
          oneCaseId).map CaseRow.version ∧
      (readState.case? oneCaseId).map CaseRow.passportInternalId ≠
        ((run (step plainSettings) readState [.passports [("old", "new")]]).case?
          oneCaseId).map CaseRow.passportInternalId := by
    decide +kernel
  have hx' : readState.case? oneCaseId = some x := hx
  have hy' : (run (step plainSettings) readState [.passports [("old", "new")]]).case? oneCaseId =
      some y := hy
  rw [hx', hy'] at hversions
  simp only [Option.map_some, Option.some.injEq, ne_eq] at hversions
  have hlt := hraises fun heq => hversions.2 (heq ▸ rfl)
  exact absurd hversions.1 (Nat.ne_of_lt hlt)

end Remediation
end MpvmApp
