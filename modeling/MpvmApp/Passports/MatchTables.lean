import Mathlib.Data.Finset.Image
import MpvmApp.Lib.KeyedWrites
import MpvmApp.Lib.Runs
import MpvmApp.Passports.Links

/-!
# Match data of the passports

Two tables hold the CVE names and the family of every passport, so that the matcher can
index them.  A trigger maintains them as passports are written, and a migration fills them
for an existing catalog.

Main definitions:

- `MatchState.sync`: the trigger function for a row.
- `MatchState.step`: a statement with its triggers and its cascades.
- `migrated`: the tables that the migration fills.
- `Exact`: the tables are those that are derived from the passports, and they match a
  finding with the passports that list its CVE.

Main results:

- Theorem `migrated_eq_some_iff`: the migration synchronizes the tables, if it can.
- Theorem `exact_iff`: synchronized tables are exact when every passport is listed well.
-/

namespace MpvmApp
namespace Passports

open Sql Runs

/-! ## Rows -/

/-- The columns of a passport that may be null, or that the matching does not read. -/
inductive TextColumn where
  | externalId
  | name
  | severity
  | score
  | issueTime
  | packageId
  | packageVersion
  | metricsJson
  | rawRecordJson
  | rawDetailJson
  | sourcePdql
  | pdqlToken
  | firstSeen
  | lastSeen
  | detailUpdatedAt
  | evidence (column : String)
deriving DecidableEq

/-- The columns of `vulnerability_passports`. -/
inductive Column where
  | internalId
  | cvesJson
  | text (column : TextColumn)
deriving DecidableEq

/-- A row of `vulnerability_passports`. -/
structure PassportRow where
  internalId : String
  cvesJson : String := "[]"
  texts : TextColumn → Option String := fun _ => none

/-- The passports under their ids, which are unique. -/
abbrev PassportRows := Table PassportRow PassportRow.internalId PassportRow.internalId

/-- The columns of the old row that a statement sets have the new values. -/
def PassportRow.set (columns : List Column) (new old : PassportRow) : PassportRow where
  internalId := if .internalId ∈ columns then new.internalId else old.internalId
  cvesJson := if .cvesJson ∈ columns then new.cvesJson else old.cvesJson
  texts := fun column => if .text column ∈ columns then new.texts column else old.texts column

/-- The columns in which the family of a passport is searched. -/
def familyColumns : List TextColumn :=
  [.name, .externalId, .packageId, .packageVersion, .rawRecordJson, .rawDetailJson]

/-- The columns of `AFTER INSERT OR UPDATE OF`. -/
def triggerColumns : List Column :=
  .cvesJson :: familyColumns.map .text

/-- The text in which the family of a passport is searched. -/
def PassportRow.searchText (loc : PassportText) (row : PassportRow) : String :=
  loc.lower (concatWs (familyColumns.map row.texts))

/-- The CVE label of an element: its name as it is written. -/
def cveLabelOf (cve : Json) : String :=
  let members := ["display_name", "displayName", "cve", "name", "value"].map cve.getText
  let whole := match cve with
    | .str text => some text
    | _ => none
  (members.foldr coalesce whole).getD ""

/-- The elements of `cves_json`, if it can be read. -/
def PassportRow.cves? (loc : PassportText) (row : PassportRow) : Option (List Json) :=
  loc.elements ((nullIfEmpty (some row.cvesJson)).getD "[]")

/-- The CVE labels of a passport, none when they cannot be read. -/
def PassportRow.labels (loc : PassportText) (row : PassportRow) : List String :=
  ((row.cves? loc).getD []).map cveLabelOf

/-! ## The trigger -/

/-- The passports with `vulnerability_passport_cves` and `…_os_family`. -/
structure MatchState where
  passports : PassportRows
  cves : Finset (String × String)
  families : String → Option (Option String)

/-- `vulnerability_passport_cves_sync`. -/
def MatchState.sync (loc : PassportText) (s : MatchState) (new : PassportRow) : MatchState :=
  { s with
    cves := match cveNamesOf loc new.cvesJson with
      | some names =>
          s.cves.filter (fun r => r.1 ≠ new.internalId) ∪
            (names.map (Prod.mk new.internalId)).toFinset
      -- the block that handles the exception undoes the deletion, too
      | none => s.cves
    families := Function.update s.families new.internalId
      (some (osFamilyOf (new.searchText loc))) }

/-- Rows of passports that are gone are deleted by `ON DELETE CASCADE`. -/
def MatchState.cascade (s : MatchState) (passports : PassportRows) : MatchState where
  passports := passports
  cves := s.cves.filter fun r => (passports.find? r.1).isSome = true
  families := fun id => if (passports.find? id).isSome then s.families id else none

/-! ## The migration -/

/-- The pairs of a passport, none when its list cannot be read. -/
def PassportRow.pairs (loc : PassportText) (row : PassportRow) : List (String × String) :=
  ((cveNamesOf loc row.cvesJson).getD []).map (Prod.mk row.internalId)

/-- `BACKFILL_SQL`, which fails when some list cannot be read. -/
def MatchState.backfill (loc : PassportText) (s : MatchState) : Option MatchState :=
  if s.passports.rows.any fun row => (cveNamesOf loc row.cvesJson).isNone then none
  else
    some {
      passports := s.passports
      cves := s.cves ∪ (s.passports.rows.flatMap (PassportRow.pairs loc)).toFinset
      families := fun id => match s.passports.find? id with
        | some row => some (osFamilyOf (row.searchText loc))
        | none => s.families id }

/-- The tables of an existing catalog after the migration. -/
def migrated (loc : PassportText) (passports : PassportRows) : Option MatchState :=
  MatchState.backfill loc { passports := passports, cves := ∅, families := fun _ => none }

/-! ## Statements -/

/-- `UPDATE … SET`: the values of some columns for some rows. -/
structure Update where
  columns : List Column
  selects : PassportRow → Bool
  values : PassportRow → PassportRow

/-- `INSERT … ON CONFLICT (internal_id) DO UPDATE SET … WHERE`. -/
structure Upsert where
  rows : List PassportRow
  columns : List Column
  selects : PassportRow → PassportRow → Bool
  values : PassportRow → PassportRow → PassportRow

/-- A statement that writes passports. -/
inductive Statement where
  | insert (rows : List PassportRow)
  | update (u : Update)
  | upsert (u : Upsert)
  | delete (selects : PassportRow → Bool)

/-- The rows after a statement, those that it wrote, and those the trigger is fired for. -/
structure Effect where
  rows : List PassportRow
  written : List PassportRow
  fired : List PassportRow

/-- Some rows are inserted, too. -/
def Effect.insert (e : Effect) (rows : List PassportRow) : Effect where
  rows := e.rows ++ rows
  written := e.written ++ rows
  fired := e.fired ++ rows

/-- A row as the statement updates it. -/
def Update.new (u : Update) (row : PassportRow) : PassportRow :=
  (u.values row).set u.columns row

/-- The statement sets a column that the trigger watches. -/
def Update.fires (u : Update) : Bool :=
  u.columns.any fun column => decide (column ∈ triggerColumns)

/-- Some row of the match tables refers to the passport. -/
def MatchState.refers (s : MatchState) (id : String) : Bool :=
  (s.families id).isSome || decide (id ∈ s.cves.image Prod.fst)

/--
The effect of an update.  The foreign keys do not allow another id for a passport that is
referred to.
-/
def Update.effect (u : Update) (s : MatchState) : Option Effect :=
  let changed := s.passports.rows.filter u.selects
  if changed.any fun row => !decide ((u.new row).internalId = row.internalId) &&
      s.refers row.internalId then none
  else
    some {
      rows := s.passports.rows.map fun row => if u.selects row then u.new row else row
      written := changed.map u.new
      fired := if u.fires then changed.map u.new else [] }

/-- The row that is proposed for a stored one. -/
def Upsert.proposal (u : Upsert) (row : PassportRow) : Option PassportRow :=
  u.rows.find? fun new => decide (new.internalId = row.internalId)

/-- What an upsert does to the stored rows. -/
def Upsert.update (u : Upsert) : Update where
  columns := u.columns
  selects := fun row => (u.proposal row).any fun new => u.selects new row
  values := fun row => (u.proposal row).elim row fun new => u.values new row

/-- The proposed rows that are not stored. -/
def Upsert.inserted (u : Upsert) (s : MatchState) : List PassportRow :=
  u.rows.filter fun new => (s.passports.find? new.internalId).isNone

/-- The effect of a statement, unless it is refused. -/
def Statement.effect (s : MatchState) : Statement → Option Effect
  | .insert rows =>
      some (Effect.insert { rows := s.passports.rows, written := [], fired := [] } rows)
  | .update u => u.effect s
  | .upsert u =>
      if (u.rows.map PassportRow.internalId).Nodup then
        (u.update.effect s).map fun e => e.insert (u.inserted s)
      else none
  | .delete selects =>
      some { rows := s.passports.rows.filter fun row => !selects row, written := [], fired := [] }

/-- The rows as a table, unless two of them have one id. -/
def tableOf (rows : List PassportRow) : Option PassportRows :=
  if h : (rows.map PassportRow.internalId).Nodup then some ⟨rows, h, h⟩ else none

/-- The effect and the rows of a statement that is accepted. -/
def Statement.accepted (s : MatchState) (statement : Statement) :
    Option (Effect × PassportRows) :=
  (statement.effect s).bind fun e => (tableOf e.rows).map fun passports => (e, passports)

/-- A statement, with its triggers when it is accepted; else nothing is changed. -/
def MatchState.step (loc : PassportText) (s : MatchState) (statement : Statement) : MatchState :=
  match statement.accepted s with
  | some (e, passports) => e.fired.foldl (MatchState.sync loc) (s.cascade passports)
  | none => s

/-- The rows that a statement writes. -/
def Statement.written (s : MatchState) (statement : Statement) : List PassportRow :=
  (statement.accepted s).elim [] fun a => a.1.written

/-! ## Matching -/

/-- The passports that `relevant_passport` finds by the CVE name of a finding. -/
def MatchState.matched (loc : PassportText) (s : MatchState) (cveName : Option String) :
    Finset String :=
  match (nullIfBlank cveName).map loc.upper with
  | some wanted => (s.cves.filter fun r => r.2 = wanted).image Prod.fst
  | none => ∅

/-- The condition of `_passport_link_scopes` on the CVE name of a finding. -/
def MatchState.sharesCve (loc : PassportText) (s : MatchState) (passportIds : List String)
    (cveName : Option String) : Bool :=
  passportIds.any fun id =>
    cveName.any fun cve => decide ((id, loc.upper (trim cve)) ∈ s.cves)

/-! ## What the tables are for -/

/-- The upper case of a text is that of its characters, none of which it makes a space. -/
structure UpperLaws (loc : PassportText) : Prop where
  trim_upper : ∀ s, trim (loc.upper s) = loc.upper (trim s)
  upper_eq_empty : ∀ s, loc.upper s = "" ↔ s = ""

/-- The passport lists the label, up to case and the spaces around it. -/
def PassportRow.Lists (loc : PassportText) (row : PassportRow) (cve : String) : Prop :=
  ∃ label ∈ row.labels loc, loc.upper (trim label) = loc.upper (trim cve)

/-- The pairs of a passport and a CVE name, derived from the passports. -/
def derivedCves (loc : PassportText) (passports : PassportRows) : Set (String × String) :=
  {r | ∃ row ∈ passports, row.internalId = r.1 ∧
    ∃ label ∈ row.labels loc, loc.upper label = r.2 ∧ r.2 ≠ ""}

/-- The families, derived from the passports. -/
def derivedFamilies (loc : PassportText) (passports : PassportRows) :
    String → Option (Option String) :=
  fun id => (passports.find? id).map fun row => osFamilyOf (row.searchText loc)

/--
The tables hold what is derived from the passports, which is what the migration makes of
them, and a finding with a CVE is matched with the passports that list it.
-/
structure Exact (loc : PassportText) (s : MatchState) : Prop where
  cves : (s.cves : Set (String × String)) = derivedCves loc s.passports
  families : s.families = derivedFamilies loc s.passports
  migrated : migrated loc s.passports = some s
  matched : ∀ cve : String, trim cve ≠ "" → ∀ id,
    id ∈ s.matched loc (some cve) ↔
      ∃ row ∈ s.passports, row.internalId = id ∧ row.Lists loc cve

/--
The CVE list of the passport can be read, and every label in it that is not blank stands
there without spaces around it, too.
-/
def PassportRow.ListedWell (loc : PassportText) (row : PassportRow) : Prop :=
  (row.cves? loc).isSome = true ∧
    ∀ label ∈ row.labels loc, trim label ≠ "" →
      ∃ other ∈ row.labels loc, loc.upper other = loc.upper (trim label)

instance instDecidableListedWell (loc : PassportText) (row : PassportRow) :
    Decidable (row.ListedWell loc) :=
  inferInstanceAs (Decidable ((row.cves? loc).isSome = true ∧
    ∀ label ∈ row.labels loc, trim label ≠ "" →
      ∃ other ∈ row.labels loc, loc.upper other = loc.upper (trim label)))

/--
The migration of a catalog makes exact tables, and they stay exact after every statement.
-/
def StaysExact (loc : PassportText) (passports : PassportRows) (statements : List Statement) :
    Prop :=
  ∃ s, migrated loc passports = some s ∧ Exact loc s ∧
    Along (MatchState.step loc) (fun s e => Exact loc (s.step loc e)) s statements

/-! ## Entries -/

section Entries

variable {loc : PassportText} {s : MatchState} {row : PassportRow}

theorem cveNameOf_eq (cve : Json) :
    cveNameOf loc cve = loc.upper (cveLabelOf cve) :=
  rfl

theorem mem_cveNamesOf {names : List String} (h : cveNamesOf loc row.cvesJson = some names)
    {name : String} :
    name ∈ names ↔ ∃ label ∈ row.labels loc, loc.upper label = name ∧ name ≠ "" := by
  unfold cveNamesOf at h
  obtain ⟨cves, hcves, rfl⟩ := Option.map_eq_some_iff.1 h
  have hread : row.cves? loc = some cves := hcves
  rw [mem_fromKeys, List.mem_filter, decide_eq_true_eq, PassportRow.labels, hread]
  simp only [List.mem_map, Option.getD_some, cveNameOf_eq]
  constructor
  · rintro ⟨⟨cve, hcve, rfl⟩, hname⟩
    exact ⟨_, ⟨cve, hcve, rfl⟩, rfl, hname⟩
  · rintro ⟨_, ⟨cve, hcve, rfl⟩, rfl, hname⟩
    exact ⟨⟨cve, hcve, rfl⟩, hname⟩

theorem cveNamesOf_isSome :
    (cveNamesOf loc row.cvesJson).isSome = (row.cves? loc).isSome := by
  unfold cveNamesOf PassportRow.cves?
  rw [Option.isSome_map]

/-- What the tables hold under an id. -/
def MatchState.entries (s : MatchState) (id : String) :
    Finset (String × String) × Option (Option String) :=
  (s.cves.filter fun r => r.1 = id, s.families id)

/-- What is derived from a passport. -/
def PassportRow.entries (loc : PassportText) (row : PassportRow) :
    Finset (String × String) × Option (Option String) :=
  ((row.pairs loc).toFinset, some (osFamilyOf (row.searchText loc)))

/-- The tables hold for every id what is derived from its passport. -/
def Synced (loc : PassportText) (s : MatchState) : Prop :=
  ∀ id, s.entries id = (s.passports.find? id).elim (∅, none) (PassportRow.entries loc)

theorem entries_sync_of_ne (s : MatchState) (row : PassportRow) (id : String)
    (h : id ≠ row.internalId) :
    (s.sync loc row).entries id = s.entries id := by
  unfold MatchState.sync MatchState.entries
  dsimp only
  rw [Function.update_of_ne h]
  congr 1
  cases cveNamesOf loc row.cvesJson with
  | none => rfl
  | some names =>
      ext r
      simp only [Finset.mem_filter, Finset.mem_union, List.mem_toFinset, List.mem_map]
      constructor
      · rintro ⟨⟨hmem, _⟩ | ⟨name, _, rfl⟩, rfl⟩
        · exact ⟨hmem, rfl⟩
        · exact absurd rfl h
      · rintro ⟨hmem, rfl⟩
        exact ⟨.inl ⟨hmem, h⟩, rfl⟩

theorem entries_sync_self (h : (row.cves? loc).isSome = true) (s : MatchState) :
    (s.sync loc row).entries row.internalId = row.entries loc := by
  rw [← cveNamesOf_isSome] at h
  obtain ⟨names, hnames⟩ := Option.isSome_iff_exists.1 h
  unfold MatchState.sync MatchState.entries PassportRow.entries PassportRow.pairs
  dsimp only
  rw [Function.update_self, hnames]
  congr 1
  ext r
  simp only [Finset.mem_filter, Finset.mem_union, List.mem_toFinset, List.mem_map,
    Option.getD_some]
  constructor
  · rintro ⟨⟨_, hne⟩ | hmem, hid⟩
    · exact absurd hid hne
    · exact hmem
  · rintro ⟨name, hname, rfl⟩
    exact ⟨.inr ⟨name, hname, rfl⟩, rfl⟩

/-- The entries of the passports that stay are kept by the cascade. -/
theorem entries_cascade (s : MatchState) (passports : PassportRows) (id : String) :
    (s.cascade passports).entries id =
      if (passports.find? id).isSome then s.entries id else (∅, none) := by
  unfold MatchState.cascade MatchState.entries
  by_cases hid : (passports.find? id).isSome = true
  · rw [if_pos hid]
    congr 1
    · ext r
      simp only [Finset.mem_filter]
      constructor
      · rintro ⟨⟨hmem, _⟩, rfl⟩
        exact ⟨hmem, rfl⟩
      · rintro ⟨hmem, rfl⟩
        exact ⟨⟨hmem, hid⟩, rfl⟩
    · exact if_pos hid
  · rw [if_neg hid]
    congr 1
    · rw [Finset.filter_filter, Finset.filter_eq_empty_iff]
      rintro r _ ⟨hsome, rfl⟩
      exact hid hsome
    · exact if_neg hid

@[simp]
theorem foldl_sync_passports (rows : List PassportRow) (s : MatchState) :
    (rows.foldl (MatchState.sync loc) s).passports = s.passports := by
  induction rows generalizing s with
  | nil => rfl
  | cons row rows ih => exact ih _

theorem eq_of_entries {s t : MatchState} (hpassports : s.passports = t.passports)
    (h : ∀ id, s.entries id = t.entries id) :
    s = t := by
  have hcves : s.cves = t.cves := by
    ext r
    have hr := congrArg (fun e => r ∈ e.1) (h r.1)
    simpa [MatchState.entries] using hr
  have hfamilies : s.families = t.families := funext fun id => congrArg Prod.snd (h id)
  cases s
  cases t
  simp only [MatchState.mk.injEq]
  exact ⟨hpassports, hcves, hfamilies⟩

theorem fst_of_mem_pairs {r : String × String} (h : r ∈ row.pairs loc) :
    r.1 = row.internalId := by
  obtain ⟨name, _, rfl⟩ := List.mem_map.1 h
  rfl

/-- The pairs of a passport are its labels in upper case, without an empty one. -/
theorem mem_pairs_iff {r : String × String} :
    r ∈ row.pairs loc ↔ row.internalId = r.1 ∧
      ∃ label ∈ row.labels loc, loc.upper label = r.2 ∧ r.2 ≠ "" := by
  unfold PassportRow.pairs
  cases hnames : cveNamesOf loc row.cvesJson with
  | some names =>
      rw [Option.getD_some, List.mem_map]
      constructor
      · rintro ⟨name, hname, rfl⟩
        exact ⟨rfl, (mem_cveNamesOf hnames).1 hname⟩
      · rintro ⟨hid, hlabel⟩
        exact ⟨r.2, (mem_cveNamesOf hnames).2 hlabel, Prod.ext hid rfl⟩
  | none =>
      have hunread : (row.cves? loc).isSome = false := by
        rw [← cveNamesOf_isSome, hnames]
        rfl
      have hlabels : row.labels loc = [] := by
        unfold PassportRow.labels
        rw [Option.isSome_eq_false_iff, Option.isNone_iff_eq_none] at hunread
        rw [hunread]
        rfl
      simp [hlabels]

/-- The pairs in synchronized tables are those of the passports. -/
theorem Synced.mem_cves (h : Synced loc s) {r : String × String} :
    r ∈ s.cves ↔ ∃ row ∈ s.passports, r ∈ row.pairs loc := by
  have hr : r ∈ s.cves ↔
      r ∈ ((s.passports.find? r.1).elim (∅, none) (PassportRow.entries loc)).1 := by
    rw [← h r.1]
    simp [MatchState.entries]
  rw [hr]
  constructor
  · intro hmem
    cases hfind : s.passports.find? r.1 with
    | none =>
        rw [hfind] at hmem
        cases hmem
    | some row =>
        rw [hfind] at hmem
        exact ⟨row, Table.mem_of_find? hfind, List.mem_toFinset.1 hmem⟩
  · rintro ⟨row, hrow, hmem⟩
    rw [fst_of_mem_pairs hmem, Table.find?_of_mem hrow]
    exact List.mem_toFinset.2 hmem

theorem Synced.cves (h : Synced loc s) :
    (s.cves : Set (String × String)) = derivedCves loc s.passports := by
  ext r
  rw [Finset.mem_coe, h.mem_cves]
  simp only [mem_pairs_iff]
  exact Iff.rfl

theorem Synced.families (h : Synced loc s) :
    s.families = derivedFamilies loc s.passports := by
  funext id
  have hid := congrArg Prod.snd (h id)
  unfold derivedFamilies
  cases hfind : s.passports.find? id with
  | none =>
      rw [hfind] at hid
      exact hid
  | some row =>
      rw [hfind] at hid
      exact hid

theorem any_unread_iff {passports : PassportRows} :
    (passports.rows.any fun row => (cveNamesOf loc row.cvesJson).isNone) = true ↔
      ¬ ∀ row ∈ passports, (row.cves? loc).isSome = true := by
  simp only [List.any_eq_true, ← cveNamesOf_isSome]
  push Not
  simp [Table.mem_def]

theorem exists_migrated {passports : PassportRows}
    (h : ∀ row ∈ passports, (row.cves? loc).isSome = true) :
    ∃ s, migrated loc passports = some s := by
  unfold migrated MatchState.backfill
  rw [if_neg (fun hany => any_unread_iff.1 hany h)]
  exact ⟨_, rfl⟩

/-- The migration fills the tables exactly when every list can be read. -/
theorem migrated_eq_some_iff {passports : PassportRows} :
    migrated loc passports = some s ↔
      (∀ row ∈ passports, (row.cves? loc).isSome = true) ∧ s.passports = passports ∧
        Synced loc s := by
  unfold migrated MatchState.backfill
  by_cases hread : ∀ row ∈ passports, (row.cves? loc).isSome = true
  · rw [if_neg (fun h => any_unread_iff.1 h hread), Option.some.injEq]
    generalize hfilled : MatchState.mk _ _ _ = t
    have hsynced : Synced loc t := by
      intro id
      subst hfilled
      unfold MatchState.entries
      dsimp only
      rw [Finset.empty_union]
      cases hfind : passports.find? id with
      | none =>
          congr 1
          rw [Finset.filter_eq_empty_iff]
          rintro r hr rfl
          rw [List.mem_toFinset, List.mem_flatMap] at hr
          obtain ⟨row, hrow, hpair⟩ := hr
          exact Table.find?_eq_none_iff.1 hfind row hrow (fst_of_mem_pairs hpair).symm
      | some row =>
          congr 1
          ext r
          simp only [Finset.mem_filter, List.mem_toFinset, List.mem_flatMap]
          constructor
          · rintro ⟨⟨other, hother, hpair⟩, rfl⟩
            have hsame : other = row := Table.eq_of_pk_eq hother (Table.mem_of_find? hfind)
              ((fst_of_mem_pairs hpair).symm.trans (Table.pk_of_find? hfind).symm)
            rw [← hsame]
            exact hpair
          · intro hpair
            exact ⟨⟨row, Table.mem_of_find? hfind, hpair⟩,
              (fst_of_mem_pairs hpair).trans (Table.pk_of_find? hfind)⟩
    have hpassports : t.passports = passports := by
      subst hfilled
      rfl
    constructor
    · rintro rfl
      exact ⟨hread, hpassports, hsynced⟩
    · rintro ⟨_, hsame, hs⟩
      apply eq_of_entries (hpassports.trans hsame.symm)
      intro id
      rw [hsynced id, hs id, hpassports, hsame]
  · rw [if_pos (any_unread_iff.2 hread)]
    constructor
    · intro h
      cases h
    · rintro ⟨h, _⟩
      exact absurd h hread

end Entries

/-! ## Exact tables -/

section ExactTables

variable {loc : PassportText} {s : MatchState}

/-- A finding with a CVE is matched with the passports that have a label with its name. -/
theorem mem_matched_iff (hupper : UpperLaws loc) (h : Synced loc s) {cve : String}
    (hcve : trim cve ≠ "") {id : String} :
    id ∈ s.matched loc (some cve) ↔
      ∃ row ∈ s.passports, row.internalId = id ∧
        ∃ label ∈ row.labels loc, loc.upper label = loc.upper (trim cve) := by
  have hname : loc.upper (trim cve) ≠ "" := by
    rw [Ne, hupper.upper_eq_empty]
    exact hcve
  have hblank : nullIfBlank (some cve) = some (trim cve) := by
    simp [nullIfBlank, nullIfEmpty, Option.filter, hcve]
  unfold MatchState.matched
  rw [hblank, Option.map_some]
  dsimp only
  simp only [Finset.mem_image, Finset.mem_filter, h.mem_cves, mem_pairs_iff]
  constructor
  · rintro ⟨r, ⟨⟨row, hrow, hid, label, hlabel, hsame, _⟩, hr⟩, rfl⟩
    exact ⟨row, hrow, hid, label, hlabel, hsame.trans hr⟩
  · rintro ⟨row, hrow, rfl, label, hlabel, hsame⟩
    exact ⟨(row.internalId, loc.upper (trim cve)),
      ⟨⟨row, hrow, rfl, label, hlabel, hsame, hname⟩, rfl⟩, rfl⟩

theorem PassportRow.ListedWell.lists_iff (hupper : UpperLaws loc) {row : PassportRow}
    (h : row.ListedWell loc) {cve : String} (hcve : trim cve ≠ "") :
    row.Lists loc cve ↔ ∃ label ∈ row.labels loc, loc.upper label = loc.upper (trim cve) := by
  constructor
  · rintro ⟨label, hlabel, hsame⟩
    have hlisted : trim label ≠ "" := by
      intro hblank
      rw [hblank, (hupper.upper_eq_empty "").2 rfl] at hsame
      exact hcve ((hupper.upper_eq_empty _).1 hsame.symm)
    obtain ⟨other, hother, heq⟩ := h.2 label hlabel hlisted
    exact ⟨other, hother, heq.trans hsame⟩
  · rintro ⟨label, hlabel, hsame⟩
    refine ⟨label, hlabel, ?_⟩
    calc loc.upper (trim label) = trim (loc.upper label) := (hupper.trim_upper label).symm
      _ = trim (loc.upper (trim cve)) := by rw [hsame]
      _ = loc.upper (trim (trim cve)) := hupper.trim_upper _
      _ = loc.upper (trim cve) := by rw [trim_trim]

/-- Synchronized tables are exact when the list of every passport is. -/
theorem exact_iff (hupper : UpperLaws loc) (hs : Synced loc s) :
    Exact loc s ↔ ∀ row ∈ s.passports, row.ListedWell loc := by
  constructor
  · intro h row hrow
    refine ⟨(migrated_eq_some_iff.1 h.migrated).1 row hrow, fun label hlabel hlisted => ?_⟩
    have hmatched := (h.matched label hlisted row.internalId).2
      ⟨row, hrow, rfl, label, hlabel, rfl⟩
    obtain ⟨same, hsame, hid, other, hother, heq⟩ := (mem_matched_iff hupper hs hlisted).1 hmatched
    obtain rfl := Table.eq_of_pk_eq hsame hrow hid
    exact ⟨other, hother, heq⟩
  · intro h
    refine ⟨hs.cves, hs.families, ?_, fun cve hcve id => ?_⟩
    · exact migrated_eq_some_iff.2 ⟨fun row hrow => (h row hrow).1, rfl, hs⟩
    · rw [mem_matched_iff hupper hs hcve]
      constructor
      · rintro ⟨row, hrow, hid, hlabel⟩
        exact ⟨row, hrow, hid, ((h row hrow).lists_iff hupper hcve).2 hlabel⟩
      · rintro ⟨row, hrow, hid, hlists⟩
        exact ⟨row, hrow, hid, ((h row hrow).lists_iff hupper hcve).1 hlists⟩

theorem Exact.synced (h : Exact loc s) :
    Synced loc s :=
  (migrated_eq_some_iff.1 h.migrated).2.2

theorem Exact.listedWell (hupper : UpperLaws loc) (h : Exact loc s) :
    ∀ row ∈ s.passports, row.ListedWell loc :=
  (exact_iff hupper h.synced).1 h

theorem Exact.sharesCve_iff (hupper : UpperLaws loc) (h : Exact loc s)
    (passportIds : List String) {cve : String} (hcve : trim cve ≠ "") :
    s.sharesCve loc passportIds (some cve) = true ↔
      ∃ row ∈ s.passports, row.internalId ∈ passportIds ∧ row.Lists loc cve := by
  have hname : loc.upper (trim cve) ≠ "" := by
    rw [Ne, hupper.upper_eq_empty]
    exact hcve
  simp only [MatchState.sharesCve, List.any_eq_true, Option.any_some, decide_eq_true_eq,
    h.synced.mem_cves, mem_pairs_iff]
  constructor
  · rintro ⟨id, hid, row, hrow, rfl, label, hlabel, hsame, _⟩
    exact ⟨row, hrow, hid,
      ((h.listedWell hupper row hrow).lists_iff hupper hcve).2 ⟨label, hlabel, hsame⟩⟩
  · rintro ⟨row, hrow, hid, hlists⟩
    obtain ⟨label, hlabel, hsame⟩ :=
      ((h.listedWell hupper row hrow).lists_iff hupper hcve).1 hlists
    exact ⟨_, hid, row, hrow, rfl, label, hlabel, hsame, hname⟩

end ExactTables

end Passports
end MpvmApp
