import MpvmApp.Passports.MatchTables

/-!
# Runs of the statements that write passports

A statement fires the trigger for the rows whose watched columns it sets.  The others keep
the data that their entries are derived from.

Main definitions:

- `Effect.Sound`: what a statement does to the rows of synchronized tables.

Main results:

- Theorem `Statement.sound`: every statement does no more than that.
- Theorem `synced_step`: a statement keeps the tables synchronized.
- Theorem `match_tables_exact_iff`: the runs in which the tables stay exact.
-/

namespace MpvmApp
namespace Passports

open Sql Runs

/-! ## What a statement does -/

/-- The two rows have the same id and the same data in the columns that the trigger watches. -/
structure SameData (row old : PassportRow) : Prop where
  internalId : row.internalId = old.internalId
  cvesJson : row.cvesJson = old.cvesJson
  texts : ∀ column ∈ familyColumns, row.texts column = old.texts column

theorem SameData.entries {loc : PassportText} {row old : PassportRow} (h : SameData row old) :
    row.entries loc = old.entries loc := by
  have htext : row.searchText loc = old.searchText loc := by
    unfold PassportRow.searchText
    rw [List.map_congr_left h.texts]
  unfold PassportRow.entries PassportRow.pairs
  rw [htext, h.internalId, h.cvesJson]

/-- What a statement does to the rows of synchronized tables. -/
structure Effect.Sound (s : MatchState) (e : Effect) : Prop where
  writtenRows : ∀ row ∈ e.written, row ∈ e.rows
  firedWritten : ∀ row ∈ e.fired, row ∈ e.written
  firedRows : e.fired.Sublist e.rows
  kept : ∀ row ∈ e.rows, row ∈ e.written ∨ row ∈ s.passports
  unfired : ∀ row ∈ e.rows, row ∈ e.fired ∨ ∃ old ∈ s.passports, SameData row old

section Statements

variable {loc : PassportText} {s : MatchState}

theorem Synced.refers (h : Synced loc s) {row : PassportRow} (hrow : row ∈ s.passports) :
    s.refers row.internalId = true := by
  have hfamily : s.families row.internalId = some (osFamilyOf (row.searchText loc)) := by
    rw [h.families, derivedFamilies, Table.find?_of_mem hrow]
    rfl
  rw [MatchState.refers, hfamily]
  rfl

theorem sameData_new {u : Update} (hfires : u.fires = false) {row : PassportRow}
    (hid : (u.new row).internalId = row.internalId) :
    SameData (u.new row) row := by
  have hcolumns : ∀ column ∈ triggerColumns, column ∉ u.columns := by
    intro column hwatched hset
    have hany : u.fires = true := List.any_eq_true.2 ⟨column, hset, decide_eq_true hwatched⟩
    rw [hfires] at hany
    cases hany
  refine ⟨hid, ?_, fun column hcolumn => ?_⟩
  · exact if_neg (hcolumns .cvesJson List.mem_cons_self)
  · exact if_neg (hcolumns _ (List.mem_cons_of_mem _ (List.mem_map_of_mem hcolumn)))

theorem map_filter_sublist {α : Type} (p : α → Bool) (f : α → α) (l : List α) :
    ((l.filter p).map f).Sublist (l.map fun a => if p a then f a else a) := by
  induction l with
  | nil => exact List.Sublist.slnil
  | cons a l ih =>
      rw [List.filter_cons, List.map_cons]
      by_cases hp : p a = true
      · rw [if_pos hp, if_pos hp, List.map_cons]
        exact ih.cons_cons _
      · rw [if_neg hp]
        exact ih.cons _

/-- What an update does. -/
theorem Update.sound {u : Update} (hs : Synced loc s) {e : Effect} (h : u.effect s = some e) :
    e.Sound s := by
  unfold Update.effect at h
  dsimp only at h
  split at h
  · cases h
  rename_i hkeys
  cases h
  -- no id changes, since every passport is referred to
  have hids : ∀ row ∈ s.passports, u.selects row = true →
      (u.new row).internalId = row.internalId := by
    intro row hrow hsel
    by_contra hne
    apply hkeys
    rw [List.any_eq_true]
    refine ⟨row, List.mem_filter.2 ⟨hrow, hsel⟩, ?_⟩
    simp [hne, hs.refers hrow]
  have hsub := map_filter_sublist u.selects u.new s.passports.rows
  have hrows : ∀ row ∈ s.passports.rows.map fun row => if u.selects row then u.new row else row,
      row ∈ (s.passports.rows.filter u.selects).map u.new ∨ row ∈ s.passports := by
    intro row hrow
    obtain ⟨old, hold, rfl⟩ := List.mem_map.1 hrow
    by_cases hsel : u.selects old = true
    · left
      rw [if_pos hsel]
      exact List.mem_map_of_mem (List.mem_filter.2 ⟨hold, hsel⟩)
    · right
      rw [if_neg hsel]
      exact hold
  refine ⟨fun row hrow => hsub.subset hrow, ?_, ?_, hrows, ?_⟩
  · intro row hrow
    by_cases hfires : u.fires = true
    · simpa [hfires] using hrow
    · simp [hfires] at hrow
  · by_cases hfires : u.fires = true
    · simpa [hfires] using hsub
    · simp [hfires]
  · intro row hrow
    by_cases hfires : u.fires = true
    · rcases hrows row hrow with hwritten | hold
      · left
        simpa [hfires] using hwritten
      · exact .inr ⟨row, hold, rfl, rfl, fun _ _ => rfl⟩
    · right
      obtain ⟨old, hold, rfl⟩ := List.mem_map.1 hrow
      refine ⟨old, hold, ?_⟩
      by_cases hsel : u.selects old = true
      · rw [if_pos hsel]
        exact sameData_new (Bool.not_eq_true _ ▸ hfires) (hids old hold hsel)
      · rw [if_neg hsel]
        exact ⟨rfl, rfl, fun _ _ => rfl⟩

/-- Rows that are inserted are written, and the trigger is fired for them. -/
theorem Effect.Sound.insert {e : Effect} (h : e.Sound s) (rows : List PassportRow) :
    (e.insert rows).Sound s where
  writtenRows row hrow := by
    rcases List.mem_append.1 hrow with hold | hnew
    · exact List.mem_append_left _ (h.writtenRows row hold)
    · exact List.mem_append_right _ hnew
  firedWritten row hrow := by
    rcases List.mem_append.1 hrow with hold | hnew
    · exact List.mem_append_left _ (h.firedWritten row hold)
    · exact List.mem_append_right _ hnew
  firedRows := h.firedRows.append (List.Sublist.refl rows)
  kept row hrow := by
    rcases List.mem_append.1 hrow with hold | hnew
    · exact (h.kept row hold).imp_left (List.mem_append_left _)
    · exact .inl (List.mem_append_right _ hnew)
  unfired row hrow := by
    rcases List.mem_append.1 hrow with hold | hnew
    · exact (h.unfired row hold).imp_left (List.mem_append_left _)
    · exact .inl (List.mem_append_right _ hnew)

theorem sound_of_subset {rows : List PassportRow} (h : ∀ row ∈ rows, row ∈ s.passports) :
    Effect.Sound s { rows := rows, written := [], fired := [] } where
  writtenRows := by simp
  firedWritten := by simp
  firedRows := List.nil_sublist rows
  kept row hrow := .inr (h row hrow)
  unfired row hrow := .inr ⟨row, h row hrow, rfl, rfl, fun _ _ => rfl⟩

/-- What a statement does. -/
theorem Statement.sound {statement : Statement} (hs : Synced loc s) {e : Effect}
    (h : statement.effect s = some e) :
    e.Sound s := by
  cases statement with
  | insert rows =>
      cases h
      exact (sound_of_subset fun _ hrow => hrow).insert rows
  | update u => exact Update.sound hs h
  | upsert u =>
      unfold Statement.effect at h
      dsimp only at h
      split at h
      · obtain ⟨e', he', rfl⟩ := Option.map_eq_some_iff.1 h
        exact (Update.sound hs he').insert _
      · cases h
  | delete selects =>
      cases h
      exact sound_of_subset fun _ hrow => List.mem_of_mem_filter hrow

theorem rows_of_tableOf {rows : List PassportRow} {passports : PassportRows}
    (h : tableOf rows = some passports) :
    passports.rows = rows := by
  unfold tableOf at h
  split at h
  · cases h
    rfl
  · cases h

/-- A statement that is accepted gives the tables its rows; another changes nothing. -/
theorem step_cases (hs : Synced loc s) (statement : Statement) :
    (∃ e passports, statement.accepted s = some (e, passports) ∧ e.Sound s ∧
      passports.rows = e.rows ∧ (s.step loc statement).passports = passports ∧
      s.step loc statement = e.fired.foldl (MatchState.sync loc) (s.cascade passports)) ∨
    (statement.accepted s = none ∧ s.step loc statement = s) := by
  cases haccepted : statement.accepted s with
  | none => exact .inr ⟨rfl, by rw [MatchState.step, haccepted]⟩
  | some a =>
      obtain ⟨e, passports⟩ := a
      have hstep : s.step loc statement =
          e.fired.foldl (MatchState.sync loc) (s.cascade passports) := by
        rw [MatchState.step, haccepted]
      unfold Statement.accepted at haccepted
      obtain ⟨e', he, hmap⟩ := Option.bind_eq_some_iff.1 haccepted
      obtain ⟨passports', htable, hpair⟩ := Option.map_eq_some_iff.1 hmap
      cases hpair
      refine .inl ⟨e, passports, rfl, Statement.sound hs he, rows_of_tableOf htable, ?_, hstep⟩
      rw [hstep, foldl_sync_passports]
      rfl

/-- A statement keeps the tables synchronized when the lists that it writes can be read. -/
theorem synced_step (hs : Synced loc s) {statement : Statement}
    (hread : ∀ row ∈ statement.written s, (row.cves? loc).isSome = true) :
    Synced loc (s.step loc statement) := by
  rcases step_cases hs statement with
    ⟨e, passports, haccepted, hsound, hrows, hpassports, hstep⟩ | ⟨_, hsame⟩
  · intro id
    rw [hpassports, hstep]
    have hmem : ∀ row, row ∈ passports ↔ row ∈ e.rows := by
      intro row
      rw [Table.mem_def, hrows]
    have hkeys : (e.fired.map PassportRow.internalId).Nodup := by
      have hnodup := passports.pkNodup
      rw [hrows] at hnodup
      exact hnodup.sublist (hsound.firedRows.map _)
    have hwritten : ∀ row ∈ e.fired, row ∈ statement.written s := by
      intro row hrow
      rw [Statement.written, haccepted]
      exact hsound.firedWritten row hrow
    refine derived_foldl (fun s row id h => entries_sync_of_ne s row id h)
      (fun row hrow s => entries_sync_self (hread row (hwritten row hrow)) s) hkeys
      (fun row hrow => Table.find?_of_mem ((hmem row).2 (hsound.firedRows.subset hrow))) ?_ id
    -- the trigger is not fired for a passport whose data stays
    intro id hid
    rw [entries_cascade]
    cases hfind : passports.find? id with
    | none => rfl
    | some row =>
        obtain rfl := Table.pk_of_find? hfind
        rcases hsound.unfired row ((hmem row).1 (Table.mem_of_find? hfind)) with
          hfired | ⟨old, hold, hdata⟩
        · exact absurd (List.mem_map_of_mem hfired) hid
        · rw [Option.isSome_some, if_pos rfl, Option.elim_some, hs, hdata.internalId,
            Table.find?_of_mem hold, Option.elim_some, hdata.entries]
  · rw [hsame]
    exact hs

/-- Tables stay exact in a statement that writes passports which are listed well. -/
theorem exact_step_iff (hupper : UpperLaws loc) (h : Exact loc s) (statement : Statement) :
    Exact loc (s.step loc statement) ↔
      ∀ row ∈ statement.written s, row.ListedWell loc := by
  constructor
  · intro hexact row hrow
    rcases step_cases h.synced statement with
      ⟨e, passports, haccepted, hsound, hrows, hpassports, _⟩ | ⟨hrefused, _⟩
    · rw [Statement.written, haccepted] at hrow
      apply hexact.listedWell hupper
      rw [hpassports, Table.mem_def, hrows]
      exact hsound.writtenRows row hrow
    · rw [Statement.written, hrefused] at hrow
      cases hrow
  · intro hlisted
    rw [exact_iff hupper (synced_step h.synced fun row hrow => (hlisted row hrow).1)]
    intro row hrow
    rcases step_cases h.synced statement with
      ⟨e, passports, haccepted, hsound, hrows, hpassports, _⟩ | ⟨_, hsame⟩
    · rw [hpassports, Table.mem_def, hrows] at hrow
      rcases hsound.kept row hrow with hwritten | hold
      · apply hlisted
        rw [Statement.written, haccepted]
        exact hwritten
      · exact h.listedWell hupper row hold
    · rw [hsame] at hrow
      exact h.listedWell hupper row hrow

end Statements

/-! ## Runs -/

/--
The tables are exact after the migration and after every statement of a run exactly when the
passports of the catalog and those that the statements write are listed well.
-/
theorem match_tables_exact_iff (loc : PassportText) (hupper : UpperLaws loc)
    (passports : PassportRows) (statements : List Statement) :
    StaysExact loc passports statements ↔
      (∀ row ∈ passports, row.ListedWell loc) ∧
        ∀ s, migrated loc passports = some s →
          Along (MatchState.step loc) (fun s e => ∀ row ∈ e.written s, row.ListedWell loc) s
            statements := by
  have hruns : ∀ s, Exact loc s →
      (Along (MatchState.step loc) (fun s e => ∀ row ∈ e.written s, row.ListedWell loc) s
          statements ↔
        Along (MatchState.step loc) (fun s e => Exact loc (s.step loc e)) s statements) := by
    intro s hs
    have hstep : ∀ s e, Exact loc s → (∀ row ∈ Statement.written s e, row.ListedWell loc) →
        Exact loc (s.step loc e) :=
      fun s e h hlisted => (exact_step_iff hupper h e).2 hlisted
    exact along_congr hstep (fun s e h => (exact_step_iff hupper h e).symm) hs statements
  constructor
  · rintro ⟨s, hmigrated, hexact, halong⟩
    refine ⟨?_, fun s' hs' => ?_⟩
    · rw [← (migrated_eq_some_iff.1 hmigrated).2.1]
      exact hexact.listedWell hupper
    · rw [hmigrated, Option.some.injEq] at hs'
      subst hs'
      exact (hruns s hexact).2 halong
  · rintro ⟨hlisted, halong⟩
    obtain ⟨s, hmigrated⟩ := exists_migrated fun row hrow => (hlisted row hrow).1
    obtain ⟨_, hpassports, hsynced⟩ := migrated_eq_some_iff.1 hmigrated
    have hexact : Exact loc s := by
      rw [exact_iff hupper hsynced, hpassports]
      exact hlisted
    exact ⟨s, hmigrated, hexact, (hruns s hexact).1 (halong s hmigrated)⟩

/-! ## Two passports -/

/-- Texts without case mapping, and the lists of the passports below. -/
def catalogText : PassportText where
  toLocale := plainLocale
  le_total := plainLocale_le_total
  le_trans := plainLocale_le_trans
  le_antisymm := plainLocale_le_antisymm
  elements := fun text =>
    if text = "[]" then some []
    else if text = "[\"CVE-2024-1\"]" then some [.str "CVE-2024-1"]
    else if text = "[\" CVE-2024-1\"]" then some [.str " CVE-2024-1"]
    else none

theorem upperLaws_catalogText :
    UpperLaws catalogText where
  trim_upper _ := rfl
  upper_eq_empty _ := Iff.rfl

/-- A passport with one CVE. -/
def onePassport : PassportRow where
  internalId := "P1"
  cvesJson := "[\"CVE-2024-1\"]"

/-- The catalog is empty. -/
def noPassports : PassportRows :=
  Table.empty

/-- The list of every passport becomes another text. -/
def setCves (cvesJson : String) : Statement :=
  .update {
    columns := [.cvesJson]
    selects := fun _ => true
    values := fun row => { row with cvesJson := cvesJson } }

/-- A list that is written well, a name that names a family, and a deletion. -/
theorem match_tables_exact_iff_onePassport :
    StaysExact catalogText noPassports
      [.insert [onePassport],
        .update {
          columns := [.text .name]
          selects := fun _ => true
          values := fun row => { row with texts := fun _ => some "ubuntu" } },
        .delete fun row => decide (row.internalId = "P1")] := by
  refine (match_tables_exact_iff catalogText upperLaws_catalogText _ _).2
    ⟨fun row hrow => absurd hrow (List.not_mem_nil), fun s hs => ?_⟩
  obtain rfl := Option.some.inj hs
  decide +kernel

/--
The CVE names of a passport stay when its list becomes one that cannot be read, and a label
with a space before it is not matched.
-/
theorem stale_names_and_unmatched_label :
    ¬ StaysExact catalogText noPassports [.insert [onePassport], setCves "not json"] ∧
      ¬ StaysExact catalogText noPassports
        [.insert [{ onePassport with cvesJson := "[\" CVE-2024-1\"]" }]] := by
  constructor
  · rintro ⟨s, hs, _, _, hexact, _⟩
    obtain rfl := Option.some.inj hs
    have hstale := (Set.ext_iff.1 hexact.cves ("P1", "CVE-2024-1")).1
      (Finset.mem_coe.2 (by decide +kernel))
    obtain ⟨row, hrow, _, label, hlabel, _⟩ := hstale
    obtain rfl := List.mem_singleton.1 hrow
    cases hlabel
  · rintro ⟨s, hs, _, hexact, _⟩
    obtain rfl := Option.some.inj hs
    have hmatched := (hexact.matched "CVE-2024-1" (by decide) "P1").2
      ⟨{ onePassport with cvesJson := "[\" CVE-2024-1\"]" }, List.mem_singleton_self _, rfl,
        " CVE-2024-1", by decide +kernel, by decide +kernel⟩
    revert hmatched
    decide +kernel

end Passports
end MpvmApp
