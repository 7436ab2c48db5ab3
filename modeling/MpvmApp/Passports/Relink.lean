import Mathlib.Data.List.Sort
import MpvmApp.Passports.Matching

/-!
# Links between findings and passports

A relink goes through the findings in bounded chunks, and links each finding of a chunk
to the best of the passports that match it.  A targeted relink covers the findings that
a change of given passports can affect.

Main definitions:

- `passportLinkScopes`: the chunks of findings of a relink.
- `relink`: the links after a relink.
- `Covered`: a change of the passports that a targeted relink can follow.

Main results:

- Theorem `links_relink_none`: a full relink links every finding to its best passport.
- Theorem `Covered.unaffected`: the other findings keep their best passport.
- Theorem `Covered.links_relink`: a targeted relink does what a full relink does.
-/

namespace MpvmApp
namespace Passports

open Sql

/-! ## The tables -/

/-- A row of `asset_card_vulnerability_passports` for its finding. -/
structure Link where
  passportInternalId : String
  method : MatchMethod
  linkedAt : String
deriving DecidableEq, Repr

/-- The passport and the match method of a link. -/
def Link.target (l : Link) : String × MatchMethod :=
  (l.passportInternalId, l.method)

/-- The findings, the passports, and the link of each finding, which is unique. -/
structure PassportState where
  findings : Table Finding Finding.id Finding.id
  passports : Table Passport Passport.internalId Passport.internalId
  links : Nat → Option Link := fun _ => none

/-! ## Chunks of findings -/

/-- The condition of a chunk. -/
inductive Scope where
  | asset (assetId : String)
  | range (low : Nat) (high : Option Nat)
  | ids (findingIds : List Nat)

/-- The finding satisfies the condition of a chunk. -/
def Scope.covers : Scope → Finding → Bool
  | .asset assetId, f => decide (f.assetId = assetId)
  | .range low high, f => decide (low ≤ f.id) && !high.any fun h => decide (h ≤ f.id)
  | .ids findingIds, f => decide (f.id ∈ findingIds)

/-- `_RECONCILE_CHUNK_FINDINGS`. -/
def reconcileChunkFindings : Nat := 5000

/-- `_RECONCILE_FULL_CHUNK_FINDINGS`. -/
def reconcileFullChunkFindings : Nat := 10000

/-- `_RECONCILE_TARGETED_MAX_PASSPORTS`. -/
def reconcileTargetedMaxPassports : Nat := 20000

/-- The first element of every chunk of a list. -/
def chunkStarts (size : Nat) (l : List Nat) : List Nat :=
  (l.zipIdx.filter fun x => decide (x.2 % size = 0)).map Prod.fst

/-- The ranges between given starts, the last one without an end. -/
def rangesFrom : List Nat → List Scope
  | [] => []
  | [low] => [.range low none]
  | low :: high :: starts => .range low (some high) :: rangesFrom (high :: starts)

/-- The slices of a list. -/
def slices {α : Type} (size : Nat) (l : List α) : List (List α) :=
  (List.range ((l.length + size - 1) / size)).map fun i => (l.drop (i * size)).take size

/-- A change of one of the passports can affect the finding. -/
def affects (loc : Collation) (s : PassportState) (passportIds : List String) (f : Finding) :
    Bool :=
  f.vulnerabilityId.any (fun id => decide (id ∈ passportIds)) ||
    s.passports.rows.any (fun p => decide (p.internalId ∈ passportIds) &&
      (f.cveName.map fun cve => loc.upper (trim cve)).any fun cve => decide (cve ∈ p.cveNames)) ||
    (s.links f.id).any fun l => decide (l.passportInternalId ∈ passportIds)

/-- The ids of the affected findings in their order. -/
def affectedIds (loc : Collation) (s : PassportState) (passportIds : List String) : List Nat :=
  ((s.findings.rows.filter (affects loc s passportIds)).map Finding.id).insertionSort (· ≤ ·)

/-- The chunks of a full relink. -/
def fullScopes (s : PassportState) : List Scope :=
  rangesFrom (chunkStarts reconcileFullChunkFindings
    ((s.findings.rows.map Finding.id).insertionSort (· ≤ ·)))

/-- `_passport_link_scopes`. -/
def passportLinkScopes (loc : Collation) (s : PassportState) (passportIds : Option (List String))
    (assetId : Option String) : List Scope :=
  match assetId with
  | some assetId => [.asset assetId]
  | none =>
      match passportIds.filter fun ids => decide (ids.length ≤ reconcileTargetedMaxPassports) with
      | none => fullScopes s
      | some [] => []
      | some ids => (slices reconcileChunkFindings (affectedIds loc s ids)).map .ids

/-! ## Relinking -/

/-- `relevant_passport`. -/
def relevantPassports (loc : Collation) (ps : List Passport) (fs : List Finding) :
    List Passport :=
  ps.filter fun p => fs.any fun f =>
    decide ((f.context loc).vulnerabilityId = some p.internalId) ||
      (f.context loc).cveName.any fun cve => decide (cve ∈ p.cveNames)

/-- The link that is inserted for a candidate. -/
def Candidate.link (c : Candidate) (linkedAt : String) : Link where
  passportInternalId := c.internalId
  method := c.method
  linkedAt := linkedAt

/-- The links of a chunk are deleted, and its findings are linked to their best passports. -/
def relinkScope (loc : Collation) (linkedAt : String) (s : PassportState) (scope : Scope) :
    PassportState :=
  let fs := s.findings.rows.filter scope.covers
  let ps := relevantPassports loc s.passports.rows fs
  { s with
    links := fun id =>
      match (s.findings.find? id).filter scope.covers with
      | none => s.links id
      | some f => (bestPassport loc ps f).map fun c => c.link linkedAt }

/-- `reconcile_asset_card_vulnerability_passport_links`. -/
def relink (loc : Collation) (linkedAt : String) (passportIds : Option (List String))
    (s : PassportState) (assetId : Option String := none) : PassportState :=
  (passportLinkScopes loc s passportIds assetId).foldl (relinkScope loc linkedAt) s

/-- The best passport of a finding. -/
def PassportState.best (loc : Collation) (s : PassportState) (f : Finding) : Option Candidate :=
  bestPassport loc s.passports.rows f

section Relink

variable {loc : Collation} {linkedAt : String} {s : PassportState}

theorem bestPassport_relevant (ps : List Passport) {fs : List Finding} {f : Finding}
    (hf : f ∈ fs) :
    bestPassport loc (relevantPassports loc ps fs) f = bestPassport loc ps f := by
  unfold bestPassport
  apply best_congr (rank_injective loc)
  intro c
  simp only [List.mem_flatMap, relevantPassports, List.mem_filter]
  constructor
  · rintro ⟨p, ⟨hp, _⟩, hc⟩
    exact ⟨p, hp, hc⟩
  · rintro ⟨p, hp, hc⟩
    refine ⟨p, ⟨hp, ?_⟩, hc⟩
    rw [List.any_eq_true]
    refine ⟨f, hf, ?_⟩
    rcases (mem_candidates_cases hc).2 with hid | ⟨cve, hcve, hname⟩
    · simp [hid]
    · simp [hname, hcve]

theorem links_relinkScope (scope : Scope) (id : Nat) :
    (relinkScope loc linkedAt s scope).links id =
      match (s.findings.find? id).filter scope.covers with
      | none => s.links id
      | some f => (s.best loc f).map fun c => c.link linkedAt := by
  simp only [relinkScope]
  split
  · rfl
  · rename_i f hf
    obtain ⟨hfind, hcovers⟩ := Option.filter_eq_some_iff.1 hf
    have hmem : f ∈ s.findings.rows.filter scope.covers :=
      List.mem_filter.2 ⟨Table.mem_of_find? hfind, hcovers⟩
    rw [bestPassport_relevant s.passports.rows hmem]
    rfl

/-- The chunks change the links of their findings. -/
theorem links_foldl_relinkScope (scopes : List Scope) (s : PassportState) (id : Nat) :
    (scopes.foldl (relinkScope loc linkedAt) s).links id =
      match (s.findings.find? id).filter fun f => scopes.any fun scope => scope.covers f with
      | none => s.links id
      | some f => (s.best loc f).map fun c => c.link linkedAt := by
  induction scopes generalizing s with
  | nil => cases s.findings.find? id <;> rfl
  | cons scope scopes ih =>
      rw [List.foldl_cons, ih]
      have hfindings : (relinkScope loc linkedAt s scope).findings = s.findings := rfl
      have hbest : ∀ f, (relinkScope loc linkedAt s scope).best loc f = s.best loc f :=
        fun _ => rfl
      rw [hfindings]
      cases hfind : s.findings.find? id with
      | none => simp [links_relinkScope, hfind]
      | some f =>
          cases hscope : scope.covers f with
          | true =>
              cases hrest : scopes.any fun scope => scope.covers f with
              | true => simp [Option.filter, hrest, hbest]
              | false => simp [Option.filter, hrest, hscope, links_relinkScope, hfind]
          | false =>
              cases hrest : scopes.any fun scope => scope.covers f with
              | true => simp [Option.filter, hrest, hbest]
              | false => simp [Option.filter, hrest, hscope, links_relinkScope, hfind]

@[simp]
theorem findings_foldl_relinkScope (scopes : List Scope) (s : PassportState) :
    (scopes.foldl (relinkScope loc linkedAt) s).findings = s.findings := by
  induction scopes generalizing s with
  | nil => rfl
  | cons scope scopes ih =>
      rw [List.foldl_cons, ih]
      rfl

@[simp]
theorem passports_foldl_relinkScope (scopes : List Scope) (s : PassportState) :
    (scopes.foldl (relinkScope loc linkedAt) s).passports = s.passports := by
  induction scopes generalizing s with
  | nil => rfl
  | cons scope scopes ih =>
      rw [List.foldl_cons, ih]
      rfl

/-! ## The chunks of a relink -/

theorem exists_range_covers {starts : List Nat} {low : Nat} {f : Finding}
    (hhead : starts.head? = some low) (hlow : low ≤ f.id) :
    ∃ scope ∈ rangesFrom starts, scope.covers f = true := by
  induction starts generalizing low with
  | nil => cases hhead
  | cons start starts ih =>
      cases hhead
      cases starts with
      | nil => exact ⟨.range start none, by simp [rangesFrom], by simp [Scope.covers, hlow]⟩
      | cons high starts =>
          by_cases hhigh : high ≤ f.id
          · obtain ⟨scope, hscope, hcovers⟩ := ih rfl hhigh
            exact ⟨scope, List.mem_cons_of_mem _ hscope, hcovers⟩
          · refine ⟨.range start (some high), List.mem_cons_self, ?_⟩
            simp [Scope.covers, hlow, hhigh]

theorem head?_chunkStarts (size : Nat) (l : List Nat) :
    (chunkStarts size l).head? = l.head? := by
  cases l with
  | nil => rfl
  | cons x l => simp [chunkStarts]

theorem exists_fullScopes_covers {f : Finding} (hf : f ∈ s.findings) :
    ∃ scope ∈ fullScopes s, scope.covers f = true := by
  have hmem : f.id ∈ (s.findings.rows.map Finding.id).insertionSort (· ≤ ·) := by
    rw [List.mem_insertionSort]
    exact List.mem_map_of_mem hf
  have hsorted := List.pairwise_insertionSort (· ≤ ·) (s.findings.rows.map Finding.id)
  unfold fullScopes
  generalize (s.findings.rows.map Finding.id).insertionSort (· ≤ ·) = sorted at hmem hsorted
  cases sorted with
  | nil => cases hmem
  | cons low rest =>
      have hhead : (chunkStarts reconcileFullChunkFindings (low :: rest)).head? = some low :=
        head?_chunkStarts _ _
      apply exists_range_covers hhead
      · rcases List.mem_cons.1 hmem with heq | hrest
        · exact heq.ge
        · exact List.rel_of_pairwise_cons hsorted hrest

/-- Every element of a list is in one of its slices. -/
theorem exists_mem_slices {α : Type} {size : Nat} (hsize : 0 < size) {l : List α} {x : α} :
    (∃ slice ∈ slices size l, x ∈ slice) ↔ x ∈ l := by
  constructor
  · rintro ⟨slice, hslice, hx⟩
    obtain ⟨i, _, rfl⟩ := List.mem_map.1 hslice
    exact List.mem_of_mem_drop (List.mem_of_mem_take hx)
  · intro hx
    obtain ⟨j, hj, rfl⟩ := List.getElem_of_mem hx
    refine ⟨(l.drop (j / size * size)).take size, ?_, ?_⟩
    · refine List.mem_map.2 ⟨j / size, ?_, rfl⟩
      rw [List.mem_range]
      apply (Nat.div_lt_iff_lt_mul hsize).2
      calc j < l.length := hj
        _ ≤ (l.length + size - 1) / size * size := by
            have hmod := Nat.div_add_mod (l.length + size - 1) size
            have hlt := Nat.mod_lt (l.length + size - 1) hsize
            rw [Nat.mul_comm] at hmod
            omega
    · rw [List.mem_iff_getElem]
      have hdiv := Nat.div_add_mod j size
      have hlt := Nat.mod_lt j hsize
      rw [Nat.mul_comm] at hdiv
      refine ⟨j % size, by simp; omega, ?_⟩
      simp [hdiv]

theorem any_slices_covers {ids : List Nat} {f : Finding} :
    (((slices reconcileChunkFindings ids).map Scope.ids).any fun scope => scope.covers f) =
      decide (f.id ∈ ids) := by
  have hsize : 0 < reconcileChunkFindings := by decide
  rw [Bool.eq_iff_iff, decide_eq_true_eq, ← exists_mem_slices hsize]
  simp [Scope.covers]

/-- A full relink links every finding to its best passport. -/
theorem links_relink_none (s : PassportState) (id : Nat) :
    (relink loc linkedAt none s).links id =
      match s.findings.find? id with
      | none => s.links id
      | some f => (s.best loc f).map fun c => c.link linkedAt := by
  have hscopes : passportLinkScopes loc s none none = fullScopes s := rfl
  unfold relink
  rw [hscopes, links_foldl_relinkScope]
  cases hfind : s.findings.find? id with
  | none => rfl
  | some f =>
      obtain ⟨scope, hscope, hcovers⟩ := exists_fullScopes_covers (Table.mem_of_find? hfind)
      have hany : ((fullScopes s).any fun scope => scope.covers f) = true :=
        List.any_eq_true.2 ⟨scope, hscope, hcovers⟩
      simp [Option.filter, hany]

/-- A targeted relink links at least the affected findings to their best passports. -/
theorem links_relink_some (loc : Collation) (linkedAt : String) (s : PassportState)
    (ids : List String) :
    ∃ covers : Finding → Bool,
      (∀ f ∈ s.findings, affects loc s ids f = true → covers f = true) ∧
      ∀ id, (relink loc linkedAt (some ids) s).links id =
        match (s.findings.find? id).filter covers with
        | none => s.links id
        | some f => (s.best loc f).map fun c => c.link linkedAt := by
  refine ⟨fun f => (passportLinkScopes loc s (some ids) none).any fun scope => scope.covers f,
    fun f hf haffects => ?_, links_foldl_relinkScope _ s⟩
  by_cases hlength : ids.length ≤ reconcileTargetedMaxPassports
  · cases ids with
    | nil => simp [affects] at haffects
    | cons x ids =>
        have hscopes : passportLinkScopes loc s (some (x :: ids)) none =
            (slices reconcileChunkFindings (affectedIds loc s (x :: ids))).map .ids := by
          simp only [passportLinkScopes, Option.filter, hlength, decide_true, if_true]
        beta_reduce
        rw [hscopes, any_slices_covers, decide_eq_true_eq]
        unfold affectedIds
        rw [List.mem_insertionSort]
        exact List.mem_map_of_mem (List.mem_filter.2 ⟨hf, haffects⟩)
  · have hscopes : passportLinkScopes loc s (some ids) none = fullScopes s := by
      simp only [passportLinkScopes, Option.filter, hlength, decide_false, Bool.false_eq_true,
        if_false]
    beta_reduce
    rw [hscopes, List.any_eq_true]
    exact exists_fullScopes_covers hf

@[simp]
theorem findings_relink (ids : Option (List String)) (s : PassportState) :
    (relink loc linkedAt ids s).findings = s.findings :=
  findings_foldl_relinkScope _ s

@[simp]
theorem best_relink (ids : Option (List String)) (s : PassportState) (f : Finding) :
    (relink loc linkedAt ids s).best loc f = s.best loc f := by
  unfold PassportState.best relink
  rw [passports_foldl_relinkScope]

end Relink

/-! ## Targeted relinks -/

/--
A change of the passports that leaves all passports alone but the given ones and others
that no link is left with, and that links no further finding.
-/
structure Covered (ids : List String) (s s' : PassportState) : Prop where
  findings : s'.findings = s.findings
  kept : ∀ p ∈ s'.passports, p.internalId ∉ ids → p ∈ s.passports
  unlinked : ∀ id, s.links id = none → s'.links id = none
  linked : ∀ id l, s.links id = some l →
    (∃ l', s'.links id = some l' ∧ l'.passportInternalId ∈ ids) ∨
      s'.links id = some l ∧
        ∀ p ∈ s.passports, p.internalId = l.passportInternalId → p ∈ s'.passports

/-- Each finding is linked to the best of the passports that match it, if there is one. -/
def LinkInv (loc : Collation) (s : PassportState) : Prop :=
  ∀ f ∈ s.findings, (s.links f.id).map Link.passportInternalId =
    (s.best loc f).map Candidate.internalId

/-- The links are those that a full relink leaves, but for the times of the links. -/
def FullyLinked (loc : Collation) (s : PassportState) : Prop :=
  ∀ linkedAt id, (s.links id).map Link.target =
    ((relink loc linkedAt none s).links id).map Link.target

section Targeted

variable {loc : Collation} {linkedAt : String} {ids : List String} {s s' : PassportState}

theorem vulnerabilityId_of_context {f : Finding} {id : String}
    (h : (f.context loc).vulnerabilityId = some id) :
    f.vulnerabilityId = some id := by
  have hclean := f.cleanId
  simp only [Finding.context, nullIfBlank, nullIfEmpty] at h
  cases hid : f.vulnerabilityId with
  | none =>
      rw [hid] at h
      cases h
  | some text =>
      rw [hid, Option.map_some, Option.some.injEq] at hclean
      rw [hid, Option.map_some, trim_eq_self hclean, Option.filter_eq_some_iff] at h
      exact h.1

theorem cveName_of_context {f : Finding} {cve : String}
    (h : (f.context loc).cveName = some cve) :
    (f.cveName.map fun cve => loc.upper (trim cve)) = some cve := by
  simp only [Finding.context, nullIfBlank, nullIfEmpty] at h
  obtain ⟨text, htext, rfl⟩ := Option.map_eq_some_iff.1 h
  obtain ⟨name, hname, rfl⟩ := Option.map_eq_some_iff.1 (Option.filter_eq_some_iff.1 htext).1
  simp [hname]

theorem affects_of_match {f : Finding} {p : Passport} {c : Candidate} (hp : p ∈ s.passports)
    (hid : p.internalId ∈ ids) (hc : c ∈ candidates loc f p) :
    affects loc s ids f = true := by
  unfold affects
  rcases (mem_candidates_cases hc).2 with hsame | ⟨cve, hcve, hname⟩
  · simp [vulnerabilityId_of_context hsame, hid]
  · have hany : s.passports.rows.any (fun p => decide (p.internalId ∈ ids) &&
        (f.cveName.map fun cve => loc.upper (trim cve)).any fun cve =>
          decide (cve ∈ p.cveNames)) = true := by
      rw [List.any_eq_true]
      refine ⟨p, hp, ?_⟩
      rw [cveName_of_context hname]
      simp [hid, hcve]
    rw [hany]
    simp

/-- A finding that is not affected keeps its link, and its best passport if it is linked to it. -/
theorem Covered.unaffected (h : Covered ids s s') {f : Finding}
    (hnot : affects loc s' ids f = false)
    (hlink : (s.links f.id).map Link.passportInternalId = (s.best loc f).map Candidate.internalId) :
    s'.links f.id = s.links f.id ∧ s'.best loc f = s.best loc f := by
  have hlinks : s'.links f.id = s.links f.id ∧ ∀ l, s.links f.id = some l →
      ∀ p ∈ s.passports, p.internalId = l.passportInternalId → p ∈ s'.passports := by
    cases hold : s.links f.id with
    | none => exact ⟨h.unlinked _ hold, fun l hl => by cases hl⟩
    | some l =>
        rcases h.linked _ l hold with ⟨l', hl', hid⟩ | ⟨hsame, hkept⟩
        · simp [affects, hl', hid] at hnot
        · exact ⟨hsame, fun l' hl' => by rw [← Option.some.inj hl']; exact hkept⟩
  refine ⟨hlinks.1, ?_⟩
  unfold PassportState.best bestPassport
  apply best_frame (rank_injective loc)
  · intro c hc
    obtain ⟨p, hp, hmatch⟩ := List.mem_flatMap.1 hc
    refine List.mem_flatMap.2 ⟨p, h.kept p hp fun hid => ?_, hmatch⟩
    rw [affects_of_match hp hid hmatch] at hnot
    cases hnot
  · intro c hbest
    obtain ⟨p, hp, hmatch⟩ := List.mem_flatMap.1 (mem_of_best hbest)
    have hbest' : s.best loc f = some c := hbest
    rw [hbest', Option.map_some] at hlink
    obtain ⟨l, hl, hid⟩ := Option.map_eq_some_iff.1 hlink
    refine List.mem_flatMap.2 ⟨p, hlinks.2 l hl p hp ?_, hmatch⟩
    rw [hid]
    exact (mem_candidates_cases hmatch).1.symm

theorem map_passport_link (o : Option Candidate) (linkedAt : String) :
    (o.map fun c => c.link linkedAt).map Link.passportInternalId = o.map Candidate.internalId := by
  cases o <;> rfl

theorem map_target_link (o : Option Candidate) (linkedAt : String) :
    (o.map fun c => c.link linkedAt).map Link.target =
      o.map fun c => (c.internalId, c.method) := by
  cases o <;> rfl

theorem fullyLinked_iff :
    FullyLinked loc s ↔
      ∀ f ∈ s.findings, (s.links f.id).map Link.target =
        (s.best loc f).map fun c => (c.internalId, c.method) := by
  constructor
  · intro h f hf
    rw [h "" f.id, links_relink_none, Table.find?_of_mem hf]
    exact map_target_link _ ""
  · intro h linkedAt id
    rw [links_relink_none]
    cases hfind : s.findings.find? id with
    | none => rfl
    | some f =>
        have hid := Table.pk_of_find? hfind
        rw [← hid, h f (Table.mem_of_find? hfind)]
        exact (map_target_link _ linkedAt).symm

theorem FullyLinked.linkInv (h : FullyLinked loc s) :
    LinkInv loc s := by
  intro f hf
  have htarget := congrArg (Option.map Prod.fst) (fullyLinked_iff.1 h f hf)
  rw [Option.map_map, Option.map_map] at htarget
  exact htarget

theorem linkInv_relink_none (loc : Collation) (linkedAt : String) (s : PassportState) :
    LinkInv loc (relink loc linkedAt none s) := by
  intro f hf
  rw [findings_relink] at hf
  rw [best_relink, links_relink_none, Table.find?_of_mem hf]
  exact map_passport_link _ linkedAt

/--
After a covered change a targeted relink leaves each link as a full relink does, or it
leaves the link alone and a full relink gives the one of before the change.
-/
theorem Covered.links_relink_cases (h : Covered ids s s') (hinv : LinkInv loc s)
    (linkedAt : String) (id : Nat) :
    (relink loc linkedAt (some ids) s').links id = (relink loc linkedAt none s').links id ∨
      (relink loc linkedAt (some ids) s').links id = s.links id ∧
        (relink loc linkedAt none s').links id = (relink loc linkedAt none s).links id := by
  obtain ⟨covers, hcovers, hlinks⟩ := links_relink_some loc linkedAt s' ids
  rw [hlinks, links_relink_none, links_relink_none, h.findings]
  cases hfind : s.findings.find? id with
  | none => exact .inl rfl
  | some f =>
      cases hcovered : covers f with
      | true =>
          left
          simp only [Option.filter, hcovered, if_true]
      | false =>
          right
          have hf := Table.mem_of_find? hfind
          have hid := Table.pk_of_find? hfind
          have hnot : affects loc s' ids f = false := by
            rw [← Bool.not_eq_true]
            intro haffects
            rw [hcovers f (h.findings ▸ hf) haffects] at hcovered
            cases hcovered
          obtain ⟨hsame, hbest⟩ := h.unaffected hnot (hinv f hf)
          simp only [Option.filter, hcovered, Bool.false_eq_true, if_false]
          rw [← hid, hsame, hbest]
          exact ⟨rfl, rfl⟩

theorem Covered.linkInv_relink (h : Covered ids s s') (hinv : LinkInv loc s) :
    LinkInv loc (relink loc linkedAt (some ids) s') := by
  intro f hf
  rw [findings_relink] at hf
  have hmem := h.findings ▸ hf
  have hfull' := linkInv_relink_none loc linkedAt s' f (by simpa using hf)
  rw [best_relink] at hfull' ⊢
  rcases h.links_relink_cases hinv linkedAt f.id with heq | ⟨hkept, hfull⟩
  · rw [heq]
    exact hfull'
  · have hbest := linkInv_relink_none loc linkedAt s f (by simpa using hmem)
    rw [best_relink] at hbest
    rw [hkept, hinv f hmem, ← hbest, ← hfull]
    exact hfull'

/-- A targeted relink after a covered change leaves the links of a full relink. -/
theorem Covered.links_relink (h : Covered ids s s') (hfull : FullyLinked loc s) (id : Nat) :
    ((relink loc linkedAt (some ids) s').links id).map Link.target =
      ((relink loc linkedAt none s').links id).map Link.target := by
  rcases h.links_relink_cases hfull.linkInv linkedAt id with heq | ⟨hkept, hsame⟩
  · rw [heq]
  · rw [hkept, hsame]
    exact hfull linkedAt id

theorem Covered.links_relink_eq (h : Covered ids s s') (hfull : FullyLinked loc s)
    (htimes : ∀ id, s.links id = (relink loc linkedAt none s).links id) (id : Nat) :
    (relink loc linkedAt (some ids) s').links id = (relink loc linkedAt none s').links id := by
  rcases h.links_relink_cases hfull.linkInv linkedAt id with heq | ⟨hkept, hsame⟩
  · exact heq
  · rw [hkept, hsame]
    exact htimes id

end Targeted

end Passports
end MpvmApp
