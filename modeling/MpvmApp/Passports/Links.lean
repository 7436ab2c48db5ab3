import Mathlib.Data.String.Basic
import MpvmApp.Passports.Catalog

/-!
# The link invariant under the operations on passports

Every finding that some passport matches is linked to the best one.  An operation that
ends with a relink keeps this.  A deletion, the trend snapshot of a full sync and a
detail job that stops before its relink change passports without one.

Main definitions:

- `writtenRows`: the rows that the values of an operation leave behind.
- `Undisturbed`: saved passports change no first rank.
- `PassportOperation.Harmless`: the operation relinks, or changes no first rank.

Main results:

- Theorem `targeted_relink_eq_full`: the targeted relink of a catalog save leaves the
  links of a full one.
- Theorem `linkInv_apply_iff`: when an operation keeps the link invariant.
-/

namespace MpvmApp
namespace Passports

open Sql

/-- A match of the first passport ranks before every match of the second one. -/
def Outranks (loc : Collation) (f : Finding) (p q : Passport) : Prop :=
  ∃ c ∈ candidates loc f p, ∀ c' ∈ candidates loc f q, c.rank loc < c'.rank loc

/-- The rows that values leave behind: those of an id are applied to its stored row in turn. -/
def writtenRows {β : Type} (key : β → String) (row : β → Option Passport → Passport)
    (values : List β) (passports : PassportTable) : List Passport :=
  (fromKeys (values.map key)).filterMap fun id =>
    (values.filter fun v => decide (key v = id)).foldl (fun old v => some (row v old))
      (passports.find? id)

/-- The passports after some are saved over those that are stored. -/
def overwritten (saved : List Passport) (s : PassportState) : List Passport :=
  saved ++ s.passports.rows.filter fun p =>
    !decide (p.internalId ∈ saved.map Passport.internalId)

/--
The saved passports match no finding without a link.  For every other finding the linked
passport still matches, no saved one outranks it, and if it is saved itself, none does.
-/
def Undisturbed (loc : Collation) (saved : List Passport) (s : PassportState) : Prop :=
  ∀ f ∈ s.findings,
    match s.links f.id with
    | none => ∀ p ∈ saved, candidates loc f p = []
    | some l =>
        ∃ q ∈ overwritten saved s, q.internalId = l.passportInternalId ∧
          candidates loc f q ≠ [] ∧
          ∀ p ∈ overwritten saved s, p ∈ saved ∨ q ∈ saved → p.internalId ≠ q.internalId →
            ¬ Outranks loc f p q

/-- No finding that is linked to the passport matches another one. -/
def NoOtherMatch (loc : Collation) (s : PassportState) (internalId : String) : Prop :=
  ∀ f ∈ s.findings, (s.links f.id).map Link.passportInternalId = some internalId →
    ∀ q ∈ s.passports, q.internalId ≠ internalId → candidates loc f q = []

/-- The details of all batches of a job in the order in which they are saved. -/
def jobDetails (batches : List (List DetailInput)) : List DetailInput :=
  batches.flatMap fun details => details.insertionSort fun v w => v.internalId ≤ w.internalId

/--
An operation that relinks is harmless.  So is one that does not, when the passports that it
writes leave the links undisturbed, or when no other passport matches the findings of one
that it deletes.
-/
def PassportOperation.Harmless (loc : PassportText) (now : String) (s : PassportState) :
    PassportOperation → Prop
  | .trends batch fullSync =>
      fullSync = true → ((trendValues batch).map Prod.fst).Nodup →
        Undisturbed loc.toCollation
          (writtenRows Prod.fst (fun v => v.2.row loc v.1) (trendValues batch) s.passports) s
  | .detailJob batches ending =>
      ending.reachesRelink = false →
        Undisturbed loc.toCollation
          (writtenRows DetailInput.internalId (fun v => v.row loc now) (jobDetails batches)
            s.passports) s
  | .delete internalId => NoOtherMatch loc.toCollation s internalId
  | _ => True

/-! ## The rows of an operation -/

section Written

variable {β : Type} {key : β → String} {row : β → Option Passport → Passport}

theorem exists_of_foldl_row (hrow : ∀ v o, (row v o).internalId = key v) {values : List β}
    (hne : values ≠ []) {id : String} (hkeys : ∀ v ∈ values, key v = id) (o : Option Passport) :
    ∃ p, values.foldl (fun old v => some (row v old)) o = some p ∧ p.internalId = id := by
  obtain ⟨init, last, rfl⟩ := (List.eq_nil_or_concat' values).resolve_left hne
  refine ⟨row last (init.foldl (fun old v => some (row v old)) o), ?_, ?_⟩
  · rw [List.foldl_append]
    rfl
  · rw [hrow]
    exact hkeys last (List.mem_append_right _ (List.mem_singleton_self last))

/-- The rows after upserts one after the other are the written ones and the others. -/
theorem mem_foldl_upsert_iff (hrow : ∀ v o, (row v o).internalId = key v) (values : List β)
    (s : PassportState) {p : Passport} :
    p ∈ values.foldl (fun t v => t.upsert (key v) (row v) (hrow v)) s.passports ↔
      p ∈ overwritten (writtenRows key row values s.passports) s := by
  have hwritten : ∀ q : Passport, q ∈ writtenRows key row values s.passports ↔
      q.internalId ∈ values.map key ∧
        q ∈ values.foldl (fun t v => t.upsert (key v) (row v) (hrow v)) s.passports := by
    intro q
    simp only [writtenRows, List.mem_filterMap, mem_fromKeys,
      ← Table.find?_foldl_upsert (t := s.passports) hrow values]
    constructor
    · rintro ⟨id, hid, hfind⟩
      obtain ⟨hmem, rfl⟩ := Table.find?_eq_some_iff.1 hfind
      exact ⟨hid, hmem⟩
    · rintro ⟨hid, hmem⟩
      exact ⟨q.internalId, hid, Table.find?_of_mem hmem⟩
  have hids : ∀ id, id ∈ (writtenRows key row values s.passports).map Passport.internalId ↔
      id ∈ values.map key := by
    intro id
    constructor
    · intro hid
      obtain ⟨q, hq, rfl⟩ := List.mem_map.1 hid
      exact ((hwritten q).1 hq).1
    · intro hid
      obtain ⟨v, hv, hkey⟩ := List.mem_map.1 hid
      have hne : (values.filter fun v => decide (key v = id)) ≠ [] :=
        List.ne_nil_of_mem (List.mem_filter.2 ⟨hv, decide_eq_true hkey⟩)
      obtain ⟨q, hfold, hq⟩ := exists_of_foldl_row hrow hne
        (fun v hv => of_decide_eq_true (List.mem_filter.1 hv).2) (s.passports.find? id)
      refine List.mem_map.2 ⟨q, List.mem_filterMap.2 ⟨id, ?_, hfold⟩, hq⟩
      rw [mem_fromKeys]
      exact hid
  simp only [overwritten, List.mem_append, List.mem_filter, Bool.not_eq_true',
    decide_eq_false_iff_not, hids, hwritten]
  by_cases hid : p.internalId ∈ values.map key
  · simp only [hid, true_and, not_true_eq_false, and_false, or_false]
  · simp only [hid, false_and, not_false_eq_true, and_true, false_or]
    exact Table.mem_foldl_upsert hrow values s.passports hid

end Written

section Operations

variable {loc : Collation} {s s' : PassportState}

theorem mem_of_mem_overwritten {saved : List Passport} {p : Passport}
    (hp : p ∈ overwritten saved s) (hsaved : p ∉ saved) :
    p ∈ s.passports := by
  rcases List.mem_append.1 hp with hmem | hold
  · exact absurd hmem hsaved
  · exact List.mem_of_mem_filter hold

theorem best_eq_none_iff_forall {f : Finding} :
    s.best loc f = none ↔ ∀ p ∈ s.passports, candidates loc f p = [] := by
  unfold PassportState.best bestPassport
  rw [best_eq_none_iff, List.flatMap_eq_nil_iff]
  rfl

theorem exists_of_best {f : Finding} {c : Candidate} (h : s.best loc f = some c) :
    ∃ p ∈ s.passports, p.internalId = c.internalId ∧ c ∈ candidates loc f p := by
  obtain ⟨p, hp, hmatch⟩ := List.mem_flatMap.1 (mem_of_best h)
  exact ⟨p, hp, (mem_candidates_cases hmatch).1.symm, hmatch⟩

/-- The linked passport of a finding still has the first rank. -/
theorem linked_iff_of_overwritten {saved : List Passport}
    (hrows : ∀ p : Passport, p ∈ s'.passports ↔ p ∈ overwritten saved s)
    {f : Finding} {l : Link} {c : Candidate} (hbest : s.best loc f = some c)
    (hid : c.internalId = l.passportInternalId) :
    some l.passportInternalId = (s'.best loc f).map Candidate.internalId ↔
      ∃ q ∈ overwritten saved s, q.internalId = l.passportInternalId ∧
        candidates loc f q ≠ [] ∧
        ∀ p ∈ overwritten saved s, p ∈ saved ∨ q ∈ saved → p.internalId ≠ q.internalId →
          ¬ Outranks loc f p q := by
  constructor
  · intro h
    obtain ⟨c', hbest', hid'⟩ := Option.map_eq_some_iff.1 h.symm
    obtain ⟨q, hq, hqid, hmatch⟩ := exists_of_best hbest'
    refine ⟨q, (hrows q).1 hq, hqid.trans hid', List.ne_nil_of_mem hmatch, ?_⟩
    rintro p hp _ _ ⟨a, ha, hbefore⟩
    have hle : c'.rank loc ≤ a.rank loc :=
      best_le hbest' (List.mem_flatMap.2 ⟨p, (hrows p).2 hp, ha⟩)
    exact absurd (hbefore c' hmatch) (not_lt.2 hle)
  · rintro ⟨q, hq, hqid, hmatches, hnot⟩
    obtain ⟨c₀, hc₀⟩ := List.exists_mem_of_ne_nil _ hmatches
    obtain ⟨c', hc'⟩ := exists_best (Candidate.rank loc) hc₀
    have hbest' : s'.best loc f = some c' := by
      refine (best_eq_some_iff (rank_injective loc)).2 ⟨?_, fun a ha => ?_⟩
      · exact List.mem_flatMap.2 ⟨q, (hrows q).2 hq, mem_of_best hc'⟩
      · obtain ⟨p, hp, hmatch⟩ := List.mem_flatMap.1 ha
        by_cases hsame : p.internalId = q.internalId
        · have heq : p = q := Table.eq_of_pk_eq hp ((hrows q).2 hq) hsame
          exact best_le hc' (heq ▸ hmatch)
        · by_cases hsaved : p ∈ saved ∨ q ∈ saved
          · have hranks := hnot p ((hrows p).1 hp) hsaved hsame
            unfold Outranks at hranks
            push Not at hranks
            obtain ⟨b, hb, hle⟩ := hranks a hmatch
            exact (best_le hc' hb).trans hle
          · -- neither is saved, so that they rank as before
            rw [not_or] at hsaved
            have hp' := mem_of_mem_overwritten ((hrows p).1 hp) hsaved.1
            have hq' := mem_of_mem_overwritten hq hsaved.2
            obtain ⟨r, hr, hrid, hrmatch⟩ := exists_of_best hbest
            have heq : r = q := Table.eq_of_pk_eq hr hq' (hrid.trans (hid.trans hqid.symm))
            have hle : c.rank loc ≤ a.rank loc :=
              best_le hbest (List.mem_flatMap.2 ⟨p, hp', hmatch⟩)
            exact (best_le hc' (heq ▸ hrmatch)).trans hle
    rw [hbest', Option.map_some, (mem_candidates_cases (mem_of_best hc')).1, hqid]

/-- Rows that are saved without a relink keep the invariant exactly when they disturb no link. -/
theorem linkInv_iff_undisturbed {saved : List Passport} (hinv : LinkInv loc s)
    (hfindings : s'.findings = s.findings) (hlinks : s'.links = s.links)
    (hrows : ∀ p : Passport, p ∈ s'.passports ↔ p ∈ overwritten saved s) :
    LinkInv loc s' ↔ Undisturbed loc saved s := by
  unfold LinkInv Undisturbed
  rw [hfindings, hlinks]
  refine forall₂_congr fun f hf => ?_
  have hold := hinv f hf
  cases hlink : s.links f.id with
  | none =>
      rw [hlink, Option.map_none, eq_comm, Option.map_eq_none_iff, best_eq_none_iff_forall] at hold
      rw [Option.map_none, eq_comm, Option.map_eq_none_iff, best_eq_none_iff_forall]
      constructor
      · intro h p hp
        exact h p ((hrows p).2 (List.mem_append_left _ hp))
      · intro h p hp
        by_cases hsaved : p ∈ saved
        · exact h p hsaved
        · exact hold p (mem_of_mem_overwritten ((hrows p).1 hp) hsaved)
  | some l =>
      rw [hlink, Option.map_some, eq_comm] at hold
      obtain ⟨c, hbest, hid⟩ := Option.map_eq_some_iff.1 hold
      exact linked_iff_of_overwritten hrows hbest hid

/-- A deletion keeps the invariant exactly when no finding has to be handed over. -/
theorem linkInv_deletePassports_iff (hinv : LinkInv loc s) (internalId : String) :
    LinkInv loc (deletePassports [internalId] s) ↔ NoOtherMatch loc s internalId := by
  have hmem : ∀ p : Passport, p ∈ (deletePassports [internalId] s).passports ↔
      p ∈ s.passports ∧ p.internalId ≠ internalId := by
    intro p
    simp [deletePassports, Table.mem_def, Table.filterRows]
  have hkept : ∀ f ∈ s.findings,
      (s.links f.id).map Link.passportInternalId ≠ some internalId →
      (deletePassports [internalId] s).links f.id = s.links f.id ∧
        (deletePassports [internalId] s).best loc f = s.best loc f := by
    intro f hf hne
    constructor
    · cases hlink : s.links f.id with
      | none => simp [deletePassports, hlink]
      | some l =>
          rw [hlink] at hne
          have hpassport : l.passportInternalId ≠ internalId := by simpa using hne
          simp [deletePassports, hlink, Option.filter, hpassport]
    · unfold PassportState.best bestPassport
      apply best_frame (rank_injective loc)
      · intro c hc
        obtain ⟨p, hp, hmatch⟩ := List.mem_flatMap.1 hc
        exact List.mem_flatMap.2 ⟨p, ((hmem p).1 hp).1, hmatch⟩
      · intro c hbest
        obtain ⟨p, hp, hid, hmatch⟩ := exists_of_best (s := s) hbest
        refine List.mem_flatMap.2 ⟨p, (hmem p).2 ⟨hp, ?_⟩, hmatch⟩
        rintro rfl
        apply hne
        have hbest' : s.best loc f = some c := hbest
        rw [hinv f hf, hbest', Option.map_some, hid]
  refine forall₂_congr fun f hf => ?_
  by_cases hlinked : (s.links f.id).map Link.passportInternalId = some internalId
  · have hgone : (deletePassports [internalId] s).links f.id = none := by
      obtain ⟨l, hl, hid⟩ := Option.map_eq_some_iff.1 hlinked
      simp [deletePassports, hl, Option.filter, hid]
    rw [hgone, Option.map_none, eq_comm, Option.map_eq_none_iff, best_eq_none_iff_forall]
    simp only [hmem, hlinked, true_implies, and_imp]
  · obtain ⟨hlinks, hbest⟩ := hkept f hf hlinked
    rw [hlinks, hbest]
    simp only [hlinked, false_implies, iff_true]
    exact hinv f hf

theorem foldl_saveDetails {loc : PassportText} (now : String) (batches : List (List DetailInput))
    (s : PassportState) :
    batches.foldl (fun s details => saveDetails loc now details s) s =
      { s with
        passports := (jobDetails batches).foldl
          (fun t v => t.upsert v.internalId (v.row loc now) (detailRow_internalId loc now v))
          s.passports } := by
  induction batches generalizing s with
  | nil => rfl
  | cons details batches ih =>
      have hsplit : jobDetails (details :: batches) =
          (details.insertionSort fun v w => v.internalId ≤ w.internalId) ++ jobDetails batches :=
        rfl
      rw [List.foldl_cons, ih, hsplit, List.foldl_append]
      rfl

theorem jobDetails_eq_nil {batches : List (List DetailInput)}
    (h : (batches.map List.length).sum = 0) :
    jobDetails batches = [] := by
  unfold jobDetails
  rw [List.flatMap_eq_nil_iff]
  intro details hdetails
  have hlength : details.length = 0 :=
    List.sum_eq_zero_iff_forall_eq_nat.1 h _ (List.mem_map_of_mem hdetails)
  rw [List.length_eq_zero_iff.1 hlength]
  rfl

theorem linkInv_trends_iff {loc : PassportText} (hinv : LinkInv loc.toCollation s) (now : String)
    (batch : List TrendInput) (fullSync : Bool) :
    LinkInv loc.toCollation (replaceVulnerabilityPassportTrends loc now batch (!fullSync) s) ↔
      PassportOperation.Harmless loc now s (.trends batch fullSync) := by
  simp only [replaceVulnerabilityPassportTrends, PassportOperation.Harmless]
  by_cases hnodup : ((trendValues batch).map Prod.fst).Nodup
  · cases fullSync with
    | true =>
        simp only [hnodup, if_true, true_implies, Bool.not_true, Bool.false_eq_true, if_false]
        refine linkInv_iff_undisturbed hinv rfl rfl fun p => ?_
        exact mem_foldl_upsert_iff (fun v => trendRow_internalId loc v.2 v.1) (trendValues batch) s
    | false =>
        simp only [hnodup, if_true, Bool.not_false, Bool.false_eq_true, false_implies, iff_true]
        exact (covered_saveTrends batch).linkInv_relink hinv
  · simp only [hnodup, if_false, false_implies, implies_true, iff_true]
    exact hinv

theorem linkInv_detailJob_iff {loc : PassportText} (hinv : LinkInv loc.toCollation s)
    (now : String) (batches : List (List DetailInput)) (ending : JobEnd) :
    LinkInv loc.toCollation (runDetailJob loc now batches ending s) ↔
      PassportOperation.Harmless loc now s (.detailJob batches ending) := by
  simp only [runDetailJob, PassportOperation.Harmless, foldl_saveDetails]
  cases hend : ending.reachesRelink with
  | false =>
      simp only [Bool.false_and, Bool.false_eq_true, if_false, true_implies]
      refine linkInv_iff_undisturbed hinv rfl rfl fun p => ?_
      exact mem_foldl_upsert_iff (detailRow_internalId loc now) (jobDetails batches) s
  | true =>
      simp only [Bool.true_and, decide_eq_true_eq, Bool.true_eq_false, false_implies, iff_true]
      split
      · exact linkInv_relink_none _ _ _
      · rename_i hzero
        rw [jobDetails_eq_nil (not_not.1 hzero)]
        exact hinv

end Operations

/-- An operation keeps the link invariant exactly when it is harmless. -/
theorem linkInv_apply_iff (loc : PassportText) (now : String) (s : PassportState)
    (op : PassportOperation) (hinv : LinkInv loc.toCollation s) :
    LinkInv loc.toCollation (op.apply loc now s) ↔ op.Harmless loc now s := by
  cases op with
  | upsert batch fullCatalog =>
      exact iff_of_true ((covered_savePassports batch fullCatalog).linkInv_relink hinv) trivial
  | trends batch fullSync => exact linkInv_trends_iff hinv now batch fullSync
  | details batch =>
      exact iff_of_true ((covered_saveDetails now batch).linkInv_relink hinv) trivial
  | detailJob batches ending => exact linkInv_detailJob_iff hinv now batches ending
  | delete internalId => exact linkInv_deletePassports_iff hinv internalId
  | relinkAll => exact iff_of_true (linkInv_relink_none _ _ s) trivial

/--
The targeted relink of a catalog save leaves every finding linked like a full relink does.
If the links had the time of the relink before, so have they afterwards in both cases.
-/
theorem targeted_relink_eq_full (loc : PassportText) (now : String) (s : PassportState)
    (batch : List PassportInput) (fullCatalog : Bool) (hfull : FullyLinked loc.toCollation s) :
    (∀ id,
      ((upsertVulnerabilityPassports loc now batch fullCatalog s).links id).map Link.target =
        ((relink loc.toCollation now none (savePassports loc batch fullCatalog s).1).links id).map
          Link.target) ∧
    ((∀ id, s.links id = (relink loc.toCollation now none s).links id) →
      ∀ id, (upsertVulnerabilityPassports loc now batch fullCatalog s).links id =
        (relink loc.toCollation now none (savePassports loc batch fullCatalog s).1).links id) := by
  have hcovered : Covered (savePassports loc batch fullCatalog s).2 s
      (savePassports loc batch fullCatalog s).1 := covered_savePassports batch fullCatalog
  exact ⟨hcovered.links_relink hfull, hcovered.links_relink_eq hfull⟩

/-! ## Two passports with one CVE name -/

/-- Texts without case mapping, and the arrays that the passports below are stored with. -/
def plainText : PassportText where
  toLocale := plainLocale
  le_total := plainLocale_le_total
  le_trans := plainLocale_le_trans
  le_antisymm := plainLocale_le_antisymm
  elements := fun text =>
    if text = "[]" then some []
    else if text = "[\"CVE-2024-1\"]" then some [.str "CVE-2024-1"]
    else none

/-- A finding with the id of the first passport, and the CVE name of both. -/
def sharedFinding : Finding where
  id := 1
  assetId := "host-1"
  vulnerabilityId := some "P1"
  cveName := some "CVE-2024-1"
  cleanId := rfl

/-- The finding is linked to the passport with its id. -/
def twoMatches : PassportState where
  findings := ⟨[sharedFinding], by simp, by simp⟩
  passports :=
    ⟨[{ internalId := "P1", externalId := some "E1", cvesJson := "[\"CVE-2024-1\"]",
        cveNames := ["CVE-2024-1"] },
      { internalId := "P2", cvesJson := "[\"CVE-2024-1\"]", cveNames := ["CVE-2024-1"] }],
      by simp, by simp⟩
  links := fun id => if id = 1 then some ⟨"P1", .vulnerId, "2026-01-01T00:00:00Z"⟩ else none

theorem fullyLinked_twoMatches :
    FullyLinked plainText.toCollation twoMatches := by
  rw [fullyLinked_iff]
  intro f hf
  obtain rfl : f = sharedFinding := List.mem_singleton.1 hf
  decide +kernel

/-- The second passport is linked to no finding, so that it can be deleted. -/
theorem linkInv_apply_iff_twoMatches :
    LinkInv plainText.toCollation
      ((PassportOperation.delete "P2").apply plainText "2026-01-02T00:00:00Z" twoMatches) := by
  refine (linkInv_apply_iff plainText _ twoMatches (.delete "P2")
    fullyLinked_twoMatches.linkInv).2 fun f hf hlinked => ?_
  obtain rfl : f = sharedFinding := List.mem_singleton.1 hf
  exact absurd hlinked (by decide)

/-- After the deletion of the first passport the finding is linked to none. -/
theorem finding_unlinked_by_deletion :
    LinkInv plainText.toCollation twoMatches ∧
      ¬ LinkInv plainText.toCollation
        ((PassportOperation.delete "P1").apply plainText "2026-01-02T00:00:00Z" twoMatches) := by
  refine ⟨fullyLinked_twoMatches.linkInv, fun h => ?_⟩
  have hlink := h sharedFinding (List.mem_singleton_self sharedFinding)
  revert hlink
  decide +kernel

/-- The catalog names the first passport under another id. -/
def reissued : List PassportInput :=
  [{ internalId := some "P3", externalId := some "E1", cvesJson := "[\"CVE-2024-1\"]" }]

theorem links_twoMatches (id : Nat) :
    twoMatches.links id =
      (relink plainText.toCollation "2026-01-01T00:00:00Z" none twoMatches).links id := by
  rw [links_relink_none]
  by_cases hid : id = 1
  · subst hid
    decide +kernel
  · have hnone : twoMatches.findings.find? id = none := by
      rw [Table.find?_eq_none_iff]
      intro f hf hsame
      obtain rfl : f = sharedFinding := List.mem_singleton.1 hf
      exact hid hsame.symm
    rw [hnone]

/-- The reissued passport takes over the finding, for which the second one now ranks first. -/
theorem targeted_relink_eq_full_twoMatches :
    (upsertVulnerabilityPassports plainText "2026-01-01T00:00:00Z" reissued true
      twoMatches).links 1 =
    (relink plainText.toCollation "2026-01-01T00:00:00Z" none
      (savePassports plainText reissued true twoMatches).1).links 1 :=
  (targeted_relink_eq_full plainText _ twoMatches reissued true fullyLinked_twoMatches).2
    links_twoMatches 1

end Passports
end MpvmApp
