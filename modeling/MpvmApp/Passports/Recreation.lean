import MpvmApp.Lib.Runs
import MpvmApp.Passports.Links

/-!
# Detail jobs and passports that are gone

A detail job chooses its passports when it starts and saves their details in batches, each one a
transaction of its own that inserts the passports that are not stored.  Catalog syncs and
deletions commit in between, and take passports away that the job has chosen.

Main definitions:

- Definition `System.gone`: the passports that a committed operation took away.
- Definition `SparesGone`: a batch has no details of a passport that is gone.

Main results:

- Theorem `links_never_dangle`: links lead to stored passports in every run.
- Theorem `sound_step_iff`: a step stores no passport that is gone exactly when it spares them.
- Theorem `gone_stays_gone_iff`: the same for whole runs.
-/

namespace MpvmApp
namespace Passports
namespace Recreation

open Sql Runs

/-! ## The foreign key of the links -/

/-- The passport is stored. -/
def isStored (s : PassportState) (id : String) : Bool :=
  (s.passports.find? id).isSome

/-- Every link leads to a stored passport. -/
def ForeignKey (s : PassportState) : Prop :=
  ∀ id l, s.links id = some l → isStored s l.passportInternalId = true

/-- The stored tables with the foreign key of the links. -/
structure Stored where
  tables : PassportState
  foreignKey : ForeignKey tables

section Keys

variable {s : PassportState}

theorem isStored_of_best {loc : Collation} {f : Finding} {c : Candidate}
    (h : s.best loc f = some c) :
    isStored s c.internalId = true := by
  obtain ⟨p, hp, hid, _⟩ := exists_of_best h
  rw [isStored, ← hid, Table.find?_of_mem hp]
  rfl

@[simp]
theorem isStored_relink (loc : Collation) (now : String) (ids : Option (List String))
    (s : PassportState) :
    isStored (relink loc now ids s) = isStored s := by
  unfold isStored relink
  rw [passports_foldl_relinkScope]

theorem ForeignKey.relink (h : ForeignKey s) (loc : Collation) (now : String)
    (ids : Option (List String)) :
    ForeignKey (relink loc now ids s) := by
  intro id l hl
  rw [isStored_relink]
  rw [Passports.relink, links_foldl_relinkScope] at hl
  split at hl
  · exact h id l hl
  · obtain ⟨c, hbest, rfl⟩ := Option.map_eq_some_iff.1 hl
    exact isStored_of_best hbest

theorem ForeignKey.of_stored (h : ForeignKey s) {passports : PassportTable}
    (hmore : ∀ id, isStored s id = true → isStored { s with passports } id = true) :
    ForeignKey { s with passports } :=
  fun id l hl => hmore _ (h id l hl)

theorem isSome_foldl_upsert {β : Type} {key : β → String} {row : β → Option Passport → Passport}
    (hrow : ∀ v o, (row v o).internalId = key v) (values : List β) (passports : PassportTable)
    (id : String) :
    ((values.foldl (fun t v => t.upsert (key v) (row v) (hrow v)) passports).find? id).isSome =
      (decide (id ∈ values.map key) || (passports.find? id).isSome) := by
  induction values generalizing passports with
  | nil => simp
  | cons v values ih =>
      rw [List.foldl_cons, ih, Table.find?_upsert]
      by_cases hid : id = key v
      · simp [hid]
      · simp [hid]

/-- A catalog value is stored, and the stored passports stay. -/
theorem isSome_foldl_upsertValue (loc : PassportText) (values : List PassportValue)
    (acc : PassportTable × List String) (id : String)
    (h : id ∈ values.map PassportValue.internalId ∨ (acc.1.find? id).isSome = true) :
    ((values.foldl (upsertValue loc) acc).1.find? id).isSome = true := by
  induction values generalizing acc with
  | nil => simpa using h
  | cons v values ih =>
      rw [List.foldl_cons]
      apply ih
      by_cases hin : id ∈ values.map PassportValue.internalId
      · exact .inl hin
      · right
        unfold upsertValue
        split
        · rw [Table.find?_upsert]
          split
          · rfl
          · rename_i hne
            exact h.resolve_left (by simpa [hne] using hin)
        · rename_i hsame
          rcases h with hmem | hstored
          · have hid : id = v.internalId := by
              rcases List.mem_cons.1 hmem with heq | hmem
              · exact heq
              · exact absurd hmem hin
            rw [hid]
            cases hfind : acc.1.find? v.internalId with
            | none => simp [hfind] at hsame
            | some p => rfl
          · exact hstored

theorem isStored_iff {id : String} :
    isStored s id = true ↔ ∃ p ∈ s.passports, p.internalId = id := by
  unfold isStored
  rw [Option.isSome_iff_exists]
  constructor
  · rintro ⟨p, hp⟩
    exact ⟨p, Table.find?_eq_some_iff.1 hp⟩
  · rintro ⟨p, hp⟩
    exact ⟨p, Table.find?_eq_some_iff.2 hp⟩

theorem isStored_deletePassports {ids : List String} {id : String} (h : isStored s id = true)
    (hother : id ∉ ids) :
    isStored (deletePassports ids s) id = true := by
  obtain ⟨p, hp, rfl⟩ := isStored_iff.1 h
  refine isStored_iff.2 ⟨p, ?_, rfl⟩
  exact Table.mem_filterRows.2 ⟨hp, by simpa using hother⟩

theorem ForeignKey.deletePassports (h : ForeignKey s) (ids : List String) :
    ForeignKey (deletePassports ids s) := by
  intro id l hl
  obtain ⟨hold, hother⟩ := Option.filter_eq_some_iff.1 hl
  exact isStored_deletePassports (h id l hold) (by simpa using hother)

theorem ForeignKey.applyReplacements (h : ForeignKey s) (loc : PassportText)
    {pairs : List (String × String)} (hpairs : ∀ pair ∈ pairs, isStored s pair.2 = true) :
    ForeignKey (applyReplacements loc pairs s) := by
  unfold Passports.applyReplacements
  apply ForeignKey.deletePassports
  intro id l hl
  obtain ⟨old, hold, rfl⟩ := Option.map_eq_some_iff.1 hl
  have hstored : isStored s (old.moved pairs).passportInternalId = true := by
    rcases moved_cases pairs old with ⟨pair, hpair, _, hmoved⟩ | ⟨_, hmoved⟩
    · rw [hmoved]
      exact hpairs pair hpair
    · rw [hmoved]
      exact h id old hold
  unfold isStored at hstored ⊢
  rw [Table.find?_mapRows, Option.isSome_map]
  exact hstored

/-- Every successor is one of the values of the catalog. -/
theorem successor_mem_values {passports : PassportTable} {values : List PassportValue}
    {knownIds : List String} {fullCatalog : Bool} :
    ∀ pair ∈ planPassportIdReplacements passports values knownIds fullCatalog,
      pair.2 ∈ values.map PassportValue.internalId := by
  have hvalues : ∀ {successors : List IdRow} {id : String},
      (∀ row ∈ successors, row ∈ values.map PassportValue.idRow) →
      id ∈ successors.map IdRow.internalId → id ∈ values.map PassportValue.internalId := by
    intro successors id hincoming hid
    obtain ⟨row, hrow, rfl⟩ := List.mem_map.1 hid
    obtain ⟨v, hv, rfl⟩ := List.mem_map.1 (hincoming row hrow)
    exact List.mem_map.2 ⟨v, hv, rfl⟩
  intro pair hpair
  unfold planPassportIdReplacements at hpair
  dsimp only at hpair
  split at hpair
  · refine hvalues ?_ ((Plan.Valid.planPassportReplacements _ _ true).pairs pair hpair).2
    intro row hrow
    exact List.mem_of_mem_filter (List.mem_of_mem_filter hrow)
  · refine hvalues ?_ ((Plan.Valid.planPassportReplacements _ _ false).pairs pair hpair).2
    intro row hrow
    exact List.mem_of_mem_filter (List.mem_of_mem_filter (List.mem_of_mem_filter hrow))

theorem ForeignKey.savePassports (h : ForeignKey s) (loc : PassportText)
    (batch : List PassportInput) (fullCatalog : Bool) :
    ForeignKey (savePassports loc batch fullCatalog s).1 := by
  unfold Passports.savePassports
  dsimp only
  have hstored := isSome_foldl_upsertValue loc (catalogValues batch) (s.passports, [])
  generalize (catalogValues batch).foldl (upsertValue loc) (s.passports, []) = acc at hstored ⊢
  obtain ⟨passports, changed⟩ := acc
  refine (h.of_stored fun id hid => hstored id (.inr hid)).applyReplacements loc ?_
  intro pair hpair
  exact hstored _ (.inl (successor_mem_values pair hpair))

theorem ForeignKey.foldl_upsert (h : ForeignKey s) {β : Type} {key : β → String}
    {row : β → Option Passport → Passport} (hrow : ∀ v o, (row v o).internalId = key v)
    (values : List β) :
    ForeignKey { s with
      passports := values.foldl (fun t v => t.upsert (key v) (row v) (hrow v)) s.passports } := by
  apply h.of_stored
  intro id hid
  have hmore := isSome_foldl_upsert hrow values s.passports id
  unfold isStored at hid ⊢
  rw [hmore, hid, Bool.or_true]

/-- Links lead to stored passports after every operation. -/
theorem ForeignKey.apply (h : ForeignKey s) (loc : PassportText) (now : String)
    (op : PassportOperation) :
    ForeignKey (op.apply loc now s) := by
  cases op with
  | upsert batch fullCatalog => exact (h.savePassports loc batch fullCatalog).relink _ _ _
  | trends batch fullSync =>
      have hrow : ∀ (v : String × TrendInput) (old : Option Passport),
          (v.2.row loc v.1 old).internalId = v.1 :=
        fun v => trendRow_internalId loc v.2 v.1
      have hsaved : ForeignKey (saveTrends loc batch s) := h.foldl_upsert hrow (trendValues batch)
      simp only [PassportOperation.apply, replaceVulnerabilityPassportTrends]
      split
      · split
        · exact hsaved.relink _ _ _
        · exact hsaved
      · exact h
  | details batch =>
      have hsaved : ForeignKey (saveDetails loc now batch s) :=
        h.foldl_upsert (detailRow_internalId loc now) _
      exact hsaved.relink _ _ _
  | detailJob batches ending =>
      have hsaved : ForeignKey (batches.foldl (fun s details => saveDetails loc now details s) s) := by
        rw [foldl_saveDetails]
        exact h.foldl_upsert (detailRow_internalId loc now) (jobDetails batches)
      simp only [PassportOperation.apply, runDetailJob]
      split
      · exact hsaved.relink _ _ _
      · exact hsaved
  | delete internalId => exact h.deletePassports [internalId]
  | relinkAll => exact h.relink _ _ _

end Keys

/-! ## Jobs among other operations -/

/-- A detail job with the passports that are chosen when it starts. -/
structure RunningJob where
  jobId : String
  chosen : List String

/-- The tables, the detail jobs, and the passports that an operation took away. -/
structure System where
  tables : PassportState
  jobs : List RunningJob
  gone : List String

/-- The tables before any of the jobs. -/
def System.initial (stored : Stored) : System where
  tables := stored.tables
  jobs := []
  gone := []

/-- What can happen next; an operation that is itself a detail job is taken step by step. -/
inductive Event where
  | start (job : RunningJob)
  | saveBatch (jobId : String) (details : List DetailInput) (now : String)
  | reconcileLinks (now : String)
  | operation (op : PassportOperation) (now : String)

/-- `save_vulnerability_passport_detail_job_batch` of a job with these passports. -/
def System.admits (s : System) (jobId : String) (details : List DetailInput) : Bool :=
  s.jobs.any fun job =>
    decide (job.jobId = jobId) &&
      details.all fun detail => decide (detail.internalId ∈ job.chosen)

/-- The passports that are gone after an operation: it has taken them away, or has not stored
them again. -/
def goneAfter (gone : List String) (before after : PassportState) : List String :=
  (gone ++ before.passports.rows.map Passport.internalId).filter fun id => !isStored after id

/-- One step of the system. -/
def step (loc : PassportText) (s : System) : Event → System
  | .start job => { s with jobs := s.jobs ++ [job] }
  | .saveBatch jobId details now =>
      if s.admits jobId details then { s with tables := saveDetails loc now details s.tables }
      else s
  | .reconcileLinks now => { s with tables := relink loc.toCollation now none s.tables }
  | .operation (.detailJob _ _) _ => s
  | .operation op now =>
      let tables := op.apply loc now s.tables
      { s with tables, gone := goneAfter s.gone s.tables tables }

/-- No passport that is gone is stored, and no finding is linked to one. -/
def Sound (s : System) : Prop :=
  ∀ id ∈ s.gone, isStored s.tables id = false ∧
    ∀ findingId l, s.tables.links findingId = some l → l.passportInternalId ≠ id

/-- A batch has no details of a passport that is gone. -/
def SparesGone (s : System) : Event → Prop
  | .saveBatch jobId details _ =>
      s.admits jobId details = true → ∀ detail ∈ details, detail.internalId ∉ s.gone
  | _ => True

instance (s : System) (e : Event) : Decidable (SparesGone s e) := by
  cases e <;> unfold SparesGone <;> infer_instance

section Runs

variable {loc : PassportText} {s : System}

theorem sound_iff (h : ForeignKey s.tables) :
    Sound s ↔ ∀ id ∈ s.gone, isStored s.tables id = false := by
  constructor
  · intro hsound id hid
    exact (hsound id hid).1
  · intro hgone id hid
    refine ⟨hgone id hid, ?_⟩
    rintro findingId l hl rfl
    have hstored := h findingId l hl
    rw [hgone _ hid] at hstored
    cases hstored

theorem foreignKey_step (h : ForeignKey s.tables) (e : Event) :
    ForeignKey (step loc s e).tables := by
  cases e with
  | start job => exact h
  | saveBatch jobId details now =>
      simp only [step]
      split
      · exact h.foldl_upsert (detailRow_internalId loc now) _
      · exact h
  | reconcileLinks now => exact h.relink _ _ _
  | operation op now =>
      have hkept := h.apply loc now op
      cases op with
      | detailJob batches ending => exact h
      | _ => exact hkept

theorem isStored_saveDetails (now : String) (details : List DetailInput) (tables : PassportState)
    (id : String) :
    isStored (saveDetails loc now details tables) id =
      (decide (id ∈ details.map DetailInput.internalId) || isStored tables id) := by
  have hsaved := isSome_foldl_upsert (detailRow_internalId loc now)
    (details.insertionSort fun v w => v.internalId ≤ w.internalId) tables.passports id
  simp only [List.mem_map, List.mem_insertionSort] at hsaved ⊢
  exact hsaved

theorem isStored_of_mem_goneAfter {gone : List String} {before after : PassportState}
    {id : String} (h : id ∈ goneAfter gone before after) :
    isStored after id = false := by
  simpa using (List.mem_filter.1 h).2

/-- A step stores no passport that is gone exactly when it spares them. -/
theorem sound_step_iff (hkey : ForeignKey s.tables) (hsound : Sound s) (e : Event) :
    Sound (step loc s e) ↔ SparesGone s e := by
  rw [sound_iff (foreignKey_step hkey e)]
  rw [sound_iff hkey] at hsound
  cases e with
  | start job => exact iff_of_true hsound trivial
  | saveBatch jobId details now =>
      simp only [step, SparesGone]
      split
      · rename_i hadmits
        simp only [hadmits, true_implies, isStored_saveDetails]
        constructor
        · intro hgone detail hdetail hid
          have hnot := hgone _ hid
          simp only [Bool.or_eq_false_iff, decide_eq_false_iff_not] at hnot
          exact hnot.1 (List.mem_map_of_mem hdetail)
        · intro hspares id hid
          rw [hsound id hid, Bool.or_false, decide_eq_false_iff_not]
          intro hmem
          obtain ⟨detail, hdetail, rfl⟩ := List.mem_map.1 hmem
          exact hspares detail hdetail hid
      · rename_i hrefused
        exact iff_of_true hsound fun hadmits => absurd hadmits hrefused
  | reconcileLinks now =>
      refine iff_of_true ?_ trivial
      intro id hid
      rw [step, isStored_relink]
      exact hsound id hid
  | operation op now =>
      refine iff_of_true ?_ trivial
      cases op with
      | detailJob batches ending => exact hsound
      | _ => exact fun id hid => isStored_of_mem_goneAfter hid

end Runs

/--
No passport that an operation took away is stored again by a batch, and no finding is linked to
one, exactly when every batch spares them.
-/
theorem gone_stays_gone_iff (loc : PassportText) (stored : Stored) (es : List Event) :
    Along (step loc) (fun s e => Sound (step loc s e)) (System.initial stored) es ↔
      Along (step loc) SparesGone (System.initial stored) es := by
  have hstep : ∀ s e, ForeignKey s.tables ∧ Sound s → Sound (step loc s e) →
      ForeignKey (step loc s e).tables ∧ Sound (step loc s e) :=
    fun s e hinv hsound => ⟨foreignKey_step hinv.1 e, hsound⟩
  have hiff : ∀ s e, ForeignKey s.tables ∧ Sound s → (Sound (step loc s e) ↔ SparesGone s e) :=
    fun s e hinv => sound_step_iff hinv.1 hinv.2 e
  have hinitial : ForeignKey (System.initial stored).tables ∧ Sound (System.initial stored) := by
    refine ⟨stored.foreignKey, ?_⟩
    intro id hid
    cases hid
  exact along_congr hstep hiff hinitial es

/--
Whatever detail jobs, catalog syncs, replacements, deletions and relinks do between each other, no
link leads to a passport that is not stored.
-/
theorem links_never_dangle (loc : PassportText) (stored : Stored) (es : List Event) :
    ForeignKey (run (step loc) (System.initial stored) es).tables := by
  have hall : Along (step loc) (fun _ _ => True) (System.initial stored) es :=
    along_of_forall (fun _ _ => trivial) _ es
  exact hall.invariant (fun (s : System) (e : Event) (h : ForeignKey s.tables) _ =>
    foreignKey_step h e) stored.foreignKey

/-! ## A replaced passport that a batch stores again -/

/-- The tables with two passports and a finding that is linked to the first. -/
def storedTwoMatches : Stored where
  tables := twoMatches
  foreignKey := by
    intro id l hl
    by_cases hid : id = 1
    · subst hid
      cases hl
      decide +kernel
    · simp [twoMatches, hid] at hl

/-- A job has chosen the first passport, which the catalog then replaces. -/
def replacedMeanwhile : List Event :=
  [.start ⟨"job", ["P1"]⟩,
    .operation (.upsert reissued true) "2026-01-02T00:00:00Z",
    .saveBatch "job" [{ internalId := "P1" }] "2026-01-03T00:00:00Z",
    .reconcileLinks "2026-01-04T00:00:00Z"]

/-- The replaced passport is stored again, and the finding is linked to it. -/
theorem replacedMeanwhile_recreates :
    ¬ Along (step plainText) (fun s e => Sound (step plainText s e))
        (System.initial storedTwoMatches) replacedMeanwhile ∧
      ((run (step plainText) (System.initial storedTwoMatches) replacedMeanwhile).gone = ["P1"] ∧
        ((run (step plainText) (System.initial storedTwoMatches) replacedMeanwhile).tables.links
          1).map Link.passportInternalId = some "P1") := by
  have hstored : isStored
      (run (step plainText) (System.initial storedTwoMatches)
        (replacedMeanwhile.take 3)).tables "P1" = true := by
    decide +kernel
  refine ⟨?_, by decide +kernel, by decide +kernel⟩
  rintro ⟨_, _, hsound, _⟩
  have hgone : isStored
      (run (step plainText) (System.initial storedTwoMatches)
        (replacedMeanwhile.take 3)).tables "P1" = false :=
    (hsound "P1" (by decide +kernel)).1
  rw [hstored] at hgone
  cases hgone

end Recreation
end Passports
end MpvmApp
