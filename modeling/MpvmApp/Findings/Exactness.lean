import MpvmApp.Findings.Statements
import MpvmApp.Lib.Runs

/-!
# Exactness of the stored aggregates

While a statement and its triggers run, the stored aggregates may differ from
their source views at the selectors and hosts that are still to be refreshed.
The invariant names these keys as dirty: a change of the groups makes the keys
of their findings dirty, and each firing of the statement trigger on the findings
cleans the keys of its transition tables.

Main results:

- Theorem `Store.CurrentOutside.sync`: the statement trigger after a change of the
  findings.
- Theorem `Statement.current_apply`: a statement that propagates its changes keeps
  the aggregates current.
- Theorem `rollups_exact_along`: in a run of such statements the aggregates are
  exact after every statement.
- Theorem `card_writes_stay_exact`: whatever cards are saved and deleted, the aggregates
  are exact.
- Theorem `rollup_stale_after_groupJson`: an update of `group_json` leaves a stale
  image name.
-/

namespace MpvmApp
namespace Findings

open Sql Runs

/-- Every valid finding has a selector. -/
def HasSelector (finding : FindingRow) : Prop :=
  finding.valid = true → finding.selector ≠ none

instance (finding : FindingRow) : Decidable (HasSelector finding) :=
  inferInstanceAs (Decidable (finding.valid = true → finding.selector ≠ none))

/-- The aggregates are exact except at dirty selectors and hosts. -/
structure Store.CurrentOutside (loc : Sql.Locale) (dirtySelector : Option String → Prop)
    (dirtyAsset : String → Prop) (s : Store) : Prop where
  selectors : ∀ f ∈ s.findings, HasSelector f
  rollup : (vulnerabilityRollupSource loc).ExactOutside dirtySelector s.rollup (s.joined loc)
  hostRollup :
    (vulnerabilityHostRollupSource loc).ExactOutside dirtyAsset s.hostRollup (s.joined loc)

/-- Every valid finding has a selector and the aggregates are exact. -/
structure Store.Current (loc : Sql.Locale) (s : Store) : Prop where
  selectors : ∀ f ∈ s.findings, HasSelector f
  exact : s.Exact loc

theorem Store.current_iff {loc : Sql.Locale} {s : Store} :
    s.Current loc ↔ s.CurrentOutside loc (fun _ => False) (fun _ => False) := by
  constructor
  · rintro ⟨hsel, hrollup, hhost⟩
    exact ⟨hsel, GroupedView.perm_view_iff.1 hrollup, GroupedView.perm_view_iff.1 hhost⟩
  · rintro ⟨hsel, hrollup, hhost⟩
    exact ⟨hsel, GroupedView.perm_view_iff.2 hrollup, GroupedView.perm_view_iff.2 hhost⟩

/-! ## The statement trigger -/

theorem selector_mem_affected {changed : List FindingRow} {f : FindingRow} (hmem : f ∈ changed)
    (hsel : f.selector ≠ none) :
    f.selector ∈ affectedSelectors changed := by
  simp only [affectedSelectors, mem_fromKeys, List.mem_filter, List.mem_map]
  exact ⟨⟨f, hmem, rfl⟩, Option.isSome_iff_ne_none.2 hsel⟩

theorem assetId_mem_affected {changed : List FindingRow} {f : FindingRow} (hmem : f ∈ changed) :
    f.assetId ∈ affectedAssets changed := by
  simp only [affectedAssets, mem_fromKeys, List.mem_map]
  exact ⟨f, hmem, rfl⟩

theorem group_joined_of_changedOnly {κ ν : Type} [DecidableEq κ]
    {G : GroupedView JoinedFinding κ ν} {loc : Sql.Locale} (key : FindingRow → κ)
    (hkey : ∀ f g, G.key (joinRow loc f g) = key f) {groups : List GroupRow}
    {old new changed : List FindingRow} (hchange : ChangedOnly old new changed) {k : κ}
    (hk : ∀ f ∈ changed, f.valid = true → key f ≠ k) :
    G.group (joinedFindings loc groups new) k = G.group (joinedFindings loc groups old) k := by
  have hframe := hchange (FindingRow.validAt key k) (by
    intro f hf
    by_cases hvalid : f.valid = true
    · simp [FindingRow.validAt, hk f hf hvalid]
    · simp [FindingRow.validAt, hvalid])
  rw [group_joinedFindings hkey, group_joinedFindings hkey, hframe]

/--
The statement trigger after a change of the findings: the keys of the changed rows
become clean, and every other key keeps its state.
-/
theorem Store.CurrentOutside.sync {loc : Sql.Locale}
    {dirtySelector dirtySelector' : Option String → Prop}
    {dirtyAsset dirtyAsset' : String → Prop} {s : Store} {new changed : List FindingRow}
    (hs : s.CurrentOutside loc dirtySelector dirtyAsset)
    (hchange : ChangedOnly s.findings new changed)
    (hnew : ∀ f ∈ new, HasSelector f) (hchanged : ∀ f ∈ changed, HasSelector f)
    (hselector : ∀ k, ¬ dirtySelector' k → k ∉ affectedSelectors changed → ¬ dirtySelector k)
    (hasset : ∀ k, ¬ dirtyAsset' k → k ∉ affectedAssets changed → ¬ dirtyAsset k) :
    (vulnerabilityRollupSync loc changed { s with findings := new }).CurrentOutside loc
      dirtySelector' dirtyAsset' where
  selectors := hnew
  rollup := by
    apply hs.rollup.refresh
    intro k hclean hk
    refine ⟨hselector k hclean hk, ?_⟩
    apply group_joined_of_changedOnly FindingRow.selector (fun _ _ => rfl) hchange
    rintro f hf hvalid rfl
    exact hk (selector_mem_affected hf (hchanged f hf hvalid))
  hostRollup := by
    apply hs.hostRollup.refresh
    intro k hclean hk
    refine ⟨hasset k hclean hk, ?_⟩
    apply group_joined_of_changedOnly FindingRow.assetId (fun _ _ => rfl) hchange
    rintro f hf _ rfl
    exact hk (assetId_mem_affected hf)

/-! ## Changes of the groups -/

theorem group_joined_of_regroup {κ ν : Type} [DecidableEq κ] {G : GroupedView JoinedFinding κ ν}
    {loc : Sql.Locale} (key : FindingRow → κ) (hkey : ∀ f g, G.key (joinRow loc f g) = key f)
    {groups groups' : List GroupRow} {findings : List FindingRow} {k : κ}
    (h : ∀ f ∈ findings, f.valid = true → key f = k →
      joinGroups loc groups' f = joinGroups loc groups f) :
    G.group (joinedFindings loc groups' findings) k =
      G.group (joinedFindings loc groups findings) k := by
  rw [group_joinedFindings hkey, group_joinedFindings hkey]
  apply List.flatMap_congr
  intro f hf
  simp only [FindingRow.validAt, List.mem_filter, Bool.and_eq_true, decide_eq_true_eq] at hf
  exact h f hf.1 hf.2.1 hf.2.2

theorem Store.Current.regroup {loc : Sql.Locale} {dirtySelector : Option String → Prop}
    {dirtyAsset : String → Prop} {s : Store} (hs : s.Current loc) (groups : List GroupRow)
    (hdirty : ∀ f ∈ s.findings, f.valid = true →
      joinGroups loc groups f = joinGroups loc s.groups f ∨
        dirtySelector f.selector ∧ dirtyAsset f.assetId) :
    ({ s with groups := groups } : Store).CurrentOutside loc dirtySelector dirtyAsset := by
  obtain ⟨hsel, hrollup, hhost⟩ := Store.current_iff.1 hs
  refine ⟨hsel, hrollup.congr ?_, hhost.congr ?_⟩
  · intro k hk
    refine ⟨not_false, ?_⟩
    apply group_joined_of_regroup FindingRow.selector fun _ _ => rfl
    rintro f hf hvalid rfl
    exact (hdirty f hf hvalid).resolve_right fun h => hk h.1
  · intro k hk
    refine ⟨not_false, ?_⟩
    apply group_joined_of_regroup FindingRow.assetId fun _ _ => rfl
    rintro f hf hvalid rfl
    exact (hdirty f hf hvalid).resolve_right fun h => hk h.2

/-- The keys of the valid findings that satisfy `q`. -/
def Store.keysWhere {κ : Type} (s : Store) (key : FindingRow → κ) (q : FindingRow → Prop)
    (k : κ) : Prop :=
  ∃ f ∈ s.findings, f.valid = true ∧ q f ∧ key f = k

/-- The finding names one of the groups. -/
def InGroups (groups : List GroupRow) (finding : FindingRow) : Prop :=
  finding.groupId ∈ groups.map GroupRow.id

/-- The trigger of a group cleans the keys of its findings and leaves those of the others. -/
theorem groupSelectorSync_current {loc : Sql.Locale} {g : GroupRow} {gs : List GroupRow} {s : Store}
    (hs : s.CurrentOutside loc (s.keysWhere FindingRow.selector (InGroups (g :: gs)))
      (s.keysWhere FindingRow.assetId (InGroups (g :: gs)))) :
    (groupSelectorSync loc s g).CurrentOutside loc
      ((groupSelectorSync loc s g).keysWhere FindingRow.selector (InGroups gs))
      ((groupSelectorSync loc s g).keysWhere FindingRow.assetId (InGroups gs)) := by
  have hwrite (f : FindingRow) :
      HasSelector { f with selector := f.selectorIn loc (some g) } := by
    intro hvalid
    exact selectorIn_ne_none loc hvalid
  -- A finding of another group is not written, so its key is dirty before and after.
  have hkeep {κ : Type} (key : FindingRow → κ) (f : FindingRow) (hf : f ∈ s.findings)
      (hvalid : f.valid = true) (hother : f.groupId ≠ g.id)
      (hmem : InGroups (g :: gs) f) :
      (groupSelectorSync loc s g).keysWhere key (InGroups gs) (key f) := by
    refine ⟨f, ?_, hvalid, ?_, rfl⟩
    · exact List.mem_map.2 ⟨f, hf, by simp [hother]⟩
    · exact (List.mem_cons.1 hmem).resolve_left hother
  apply hs.sync (ChangedOnly.update s.findings _ _)
  · intro f hf
    obtain ⟨f₀, hf₀, rfl⟩ := List.mem_map.1 hf
    split
    · exact hwrite f₀
    · exact hs.selectors f₀ hf₀
  · intro f hf
    rcases List.mem_append.1 hf with hold | hnew
    · exact hs.selectors f (List.mem_of_mem_filter hold)
    · obtain ⟨f₀, _, rfl⟩ := List.mem_map.1 hnew
      exact hwrite f₀
  · rintro k hclean hk ⟨f, hf, hvalid, hmem, rfl⟩
    by_cases hgroup : f.groupId = g.id
    · apply hk
      apply selector_mem_affected _ (hs.selectors f hf hvalid)
      exact List.mem_append_left _ (List.mem_filter.2 ⟨hf, by simpa using hgroup⟩)
    · exact hclean (hkeep FindingRow.selector f hf hvalid hgroup hmem)
  · rintro k hclean hk ⟨f, hf, hvalid, hmem, rfl⟩
    by_cases hgroup : f.groupId = g.id
    · apply hk
      apply assetId_mem_affected
      exact List.mem_append_left _ (List.mem_filter.2 ⟨hf, by simpa using hgroup⟩)
    · exact hclean (hkeep FindingRow.assetId f hf hvalid hgroup hmem)

theorem foldl_groupSelectorSync_current {loc : Sql.Locale} (gs : List GroupRow) {s : Store}
    (hs : s.CurrentOutside loc (s.keysWhere FindingRow.selector (InGroups gs))
      (s.keysWhere FindingRow.assetId (InGroups gs))) :
    (gs.foldl (groupSelectorSync loc) s).Current loc := by
  induction gs generalizing s with
  | nil =>
      have hnone {κ : Type} (key : FindingRow → κ) (k : κ) : ¬ s.keysWhere key (InGroups []) k := by
        rintro ⟨f, _, _, hmem, _⟩
        exact absurd hmem (by simp [InGroups])
      refine Store.current_iff.2 ⟨hs.selectors, fun k _ => ?_, fun k _ => ?_⟩
      · exact hs.rollup k (hnone FindingRow.selector k)
      · exact hs.hostRollup k (hnone FindingRow.assetId k)
  | cons g gs ih => exact ih (groupSelectorSync_current hs)

/-! ## Statements that propagate their changes -/

/--
The statement propagates what it changes.  An update of groups does when every
valid finding keeps its joined rows, unless the trigger of its group fires.  An
update of findings does when it leaves no valid finding without a selector, which
it can do only by assigning the selector itself.
-/
def Statement.Propagates (loc : Sql.Locale) (s : Store) : Statement → Prop
  | .updateGroups p set =>
      ∀ f ∈ s.findings, f.valid = true →
        InGroups (firedGroups p set s.groups) f ∨
          joinGroups loc (updatedGroups p set s.groups) f = joinGroups loc s.groups f
  | .updateFindings p set =>
      set.firesSelector = true ∨ ∀ f ∈ s.findings, p f = true → HasSelector (set.apply f)
  | _ => True

/-- An accepted statement propagates what it changes. -/
def Database.Propagates (loc : Sql.Locale) (db : Database) (stmt : Statement) : Prop :=
  (stmt.apply loc db.toStore).Constraints → stmt.Propagates loc db.toStore

theorem hasSelector_selectorSync (loc : Sql.Locale) {groups : List GroupRow} {f : FindingRow}
    (hgroup : f.groupId ∈ groups.map GroupRow.id) :
    HasSelector (selectorSync loc groups f) := by
  intro hvalid
  obtain ⟨g, hg, hid⟩ := List.mem_map.1 hgroup
  cases hfind : groupOf? groups f with
  | none =>
      have hno := List.find?_eq_none.1 hfind g hg
      exact absurd hid (by simpa using hno)
  | some found =>
      rw [selectorSync, hfind]
      exact selectorIn_ne_none loc hvalid

theorem removeFindings_current {loc : Sql.Locale} {s : Store} {p : FindingRow → Bool}
    (hs : s.CurrentOutside loc (s.keysWhere FindingRow.selector fun f => p f = true)
      (s.keysWhere FindingRow.assetId fun f => p f = true)) :
    (removeFindings loc p s).Current loc := by
  apply Store.current_iff.2
  apply hs.sync (ChangedOnly.delete s.findings p)
  · intro f hf
    exact hs.selectors f (List.mem_of_mem_filter hf)
  · intro f hf
    exact hs.selectors f (List.mem_of_mem_filter hf)
  · rintro k _ hk ⟨f, hf, hvalid, hp, rfl⟩
    exact hk (selector_mem_affected (List.mem_filter.2 ⟨hf, hp⟩) (hs.selectors f hf hvalid))
  · rintro k _ hk ⟨f, hf, _, hp, rfl⟩
    exact hk (assetId_mem_affected (List.mem_filter.2 ⟨hf, hp⟩))

theorem joinGroups_append {loc : Sql.Locale} {groups rows : List GroupRow} {f : FindingRow}
    (hids : ((groups ++ rows).map GroupRow.id).Nodup)
    (hgroup : f.groupId ∈ groups.map GroupRow.id) :
    joinGroups loc (groups ++ rows) f = joinGroups loc groups f := by
  have hfresh : rows.filter (fun g => decide (g.id = f.groupId)) = [] := by
    rw [List.filter_eq_nil_iff]
    intro g hg hid
    rw [List.map_append] at hids
    apply (List.nodup_append.1 hids).2.2 f.groupId hgroup g.id (List.mem_map_of_mem hg)
    simpa using (of_decide_eq_true hid).symm
  simp [joinGroups, hfresh]

theorem joinGroups_delete {loc : Sql.Locale} {p : GroupRow → Bool} {groups : List GroupRow}
    {f : FindingRow} (hstay : cascades p groups f = false) :
    joinGroups loc (groups.filter fun g => !p g) f = joinGroups loc groups f := by
  unfold joinGroups
  rw [List.filter_filter]
  congr 1
  apply List.filter_congr
  intro g hg
  simp only [cascades, List.any_eq_false, Bool.and_eq_true, decide_eq_true_eq, not_and] at hstay
  by_cases hid : g.id = f.groupId
  · have hp : p g = false := by
      by_contra hp
      exact hstay g hg (by simpa using hp) hid
    simp [hid, hp]
  · simp [hid]

/-- A statement that keeps the constraints and propagates its changes keeps the aggregates. -/
theorem Statement.current_apply {loc : Sql.Locale} {s : Store} (hs : s.Current loc)
    (hcons : s.Constraints) {stmt : Statement} (hprop : stmt.Propagates loc s)
    (hafter : (stmt.apply loc s).Constraints) :
    (stmt.apply loc s).Current loc := by
  have houtside := Store.current_iff.1 hs
  cases stmt with
  | insertGroups rows =>
      apply Store.current_iff.2
      apply hs.regroup
      intro f hf _
      exact .inl (joinGroups_append hafter.groupIds (hcons.references f hf))
  | updateGroups p set =>
      apply foldl_groupSelectorSync_current
      apply hs.regroup
      intro f hf hvalid
      rcases hprop f hf hvalid with hfired | hsame
      · exact .inr ⟨⟨f, hf, hvalid, hfired, rfl⟩, ⟨f, hf, hvalid, hfired, rfl⟩⟩
      · exact .inl hsame
  | deleteGroups p =>
      apply removeFindings_current
      apply hs.regroup
      intro f hf hvalid
      by_cases hcascade : cascades p s.groups f = true
      · exact .inr ⟨⟨f, hf, hvalid, hcascade, rfl⟩, ⟨f, hf, hvalid, hcascade, rfl⟩⟩
      · exact .inl (joinGroups_delete (by simpa using hcascade))
  | insertFindings rows =>
      have hnew : ∀ f ∈ rows.map (selectorSync loc s.groups), HasSelector f := by
        intro f hf
        have hgroup := hafter.references f (List.mem_append_right _ hf)
        obtain ⟨f₀, _, rfl⟩ := List.mem_map.1 hf
        exact hasSelector_selectorSync loc hgroup
      apply Store.current_iff.2
      apply houtside.sync (ChangedOnly.append s.findings _)
      · intro f hf
        rcases List.mem_append.1 hf with hold | hadded
        · exact hs.selectors f hold
        · exact hnew f hadded
      · exact hnew
      · exact fun _ _ _ => not_false
      · exact fun _ _ _ => not_false
  | updateFindings p set =>
      have hwrite : ∀ f ∈ s.findings, p f = true → HasSelector (set.write loc s.groups f) := by
        intro f hf hp
        unfold FindingSet.write
        by_cases hfires : set.firesSelector = true
        · have hgroup := hafter.references (set.write loc s.groups f)
            (List.mem_map.2 ⟨f, hf, by simp [hp]⟩)
          rw [if_pos hfires]
          rw [FindingSet.write, if_pos hfires] at hgroup
          exact hasSelector_selectorSync loc hgroup
        · rw [if_neg hfires]
          exact hprop.resolve_left hfires f hf hp
      apply Store.current_iff.2
      apply houtside.sync (ChangedOnly.update s.findings p _)
      · intro f hf
        obtain ⟨f₀, hf₀, rfl⟩ := List.mem_map.1 hf
        split
        · rename_i hp
          exact hwrite f₀ hf₀ hp
        · exact hs.selectors f₀ hf₀
      · intro f hf
        rcases List.mem_append.1 hf with hold | hnew
        · exact hs.selectors f (List.mem_of_mem_filter hold)
        · obtain ⟨f₀, hf₀, rfl⟩ := List.mem_map.1 hnew
          obtain ⟨hmem, hp⟩ := List.mem_filter.1 hf₀
          exact hwrite f₀ hmem hp
      · exact fun _ _ _ => not_false
      · exact fun _ _ _ => not_false
  | deleteFindings p =>
      apply removeFindings_current
      apply hs.regroup
      intro f _ _
      exact .inl rfl

/-! ## Runs of statements -/

theorem Database.current_execute {loc : Sql.Locale} (db : Database) (stmt : Statement)
    (hdb : db.Current loc) (hprop : db.Propagates loc stmt) :
    (db.execute loc stmt).Current loc := by
  unfold Database.execute
  split
  · rename_i hafter
    exact Statement.current_apply hdb db.constraints (hprop hafter) hafter
  · exact hdb

/--
From current aggregates, both aggregates have the contents of their source views
after every statement of a run whose statements propagate their changes.
-/
theorem rollups_exact_along {loc : Sql.Locale} {db : Database} (hdb : db.Current loc)
    {stmts : List Statement}
    (hrun : Along (Database.execute loc) (Database.Propagates loc) db stmts) :
    Along (Database.execute loc) (fun db stmt => (db.execute loc stmt).Exact loc) db stmts := by
  have hcurrent : Along (Database.execute loc)
      (fun db stmt => (db.execute loc stmt).Current loc) db stmts :=
    hrun.throughout (fun db stmt => db.current_execute stmt) hdb
  exact hcurrent.mono fun _ _ h => h.exact

theorem replaceAssetCardCache_propagates (loc : Sql.Locale) (db : Database) (assetId : String)
    (groups : List GroupRow) (findings : List FindingRow) :
    Along (Database.execute loc) (Database.Propagates loc) db
      (replaceAssetCardCache assetId groups findings) :=
  ⟨fun _ => trivial, fun _ => trivial, fun _ => trivial, trivial⟩

/-! ## Saves and deletions of cards -/

/-- A transaction that writes the findings of a card. -/
inductive CardWrite where
  | save (assetId : String) (groups : List GroupRow) (findings : List FindingRow)
  | delete (assetId : String)

/-- Its statements: `replace_asset_card_cache`, or the cascades of `delete_asset_card`. -/
def CardWrite.statements : CardWrite → List Statement
  | .save assetId groups findings => replaceAssetCardCache assetId groups findings
  | .delete assetId =>
      [.deleteFindings fun f => decide (f.assetId = assetId),
        .deleteGroups fun g => decide (g.assetId = assetId)]

/-- One statement of a transaction, if no constraint refuses it. -/
def Database.attempt (loc : Sql.Locale) (db : Database) (stmt : Statement) : Option Database :=
  if h : (stmt.apply loc db.toStore).Constraints then some ⟨stmt.apply loc db.toStore, h⟩ else none

/-- One transaction: a statement that is refused takes back those before it. -/
def Database.transact (loc : Sql.Locale) (db : Database) (write : CardWrite) : Database :=
  (write.statements.foldlM (Database.attempt loc) db).getD db

theorem CardWrite.propagates (loc : Sql.Locale) (write : CardWrite) {stmt : Statement}
    (hstmt : stmt ∈ write.statements) (db : Database) :
    db.Propagates loc stmt := by
  intro _
  cases write with
  | save assetId groups findings =>
      simp only [statements, replaceAssetCardCache, List.mem_cons, List.not_mem_nil,
        or_false] at hstmt
      rcases hstmt with rfl | rfl | rfl <;> trivial
  | delete assetId =>
      simp only [statements, List.mem_cons, List.not_mem_nil, or_false] at hstmt
      rcases hstmt with rfl | rfl <;> trivial

theorem Database.current_attempt {loc : Sql.Locale} {db db' : Database} {stmt : Statement}
    (hdb : db.Current loc) (hprop : db.Propagates loc stmt)
    (h : db.attempt loc stmt = some db') :
    db'.Current loc := by
  have hexecute := db.current_execute stmt hdb hprop
  unfold Database.attempt at h
  unfold Database.execute at hexecute
  split at h
  · rename_i hafter
    rw [dif_pos hafter] at hexecute
    cases h
    exact hexecute
  · cases h

theorem Database.current_foldlM {loc : Sql.Locale} {stmts : List Statement}
    (hprop : ∀ stmt ∈ stmts, ∀ db : Database, db.Propagates loc stmt) {db db' : Database}
    (hdb : db.Current loc) (h : stmts.foldlM (Database.attempt loc) db = some db') :
    db'.Current loc := by
  induction stmts generalizing db with
  | nil =>
      cases h
      exact hdb
  | cons stmt stmts ih =>
      rw [List.foldlM_cons] at h
      obtain ⟨db₁, hfirst, hrest⟩ := Option.bind_eq_some_iff.1 h
      have hstmt := hprop stmt List.mem_cons_self db
      exact ih (fun other hother => hprop other (List.mem_cons_of_mem stmt hother))
        (current_attempt hdb hstmt hfirst) hrest

theorem Database.current_transact {loc : Sql.Locale} {db : Database} (hdb : db.Current loc)
    (write : CardWrite) :
    (db.transact loc write).Current loc := by
  unfold Database.transact
  cases h : write.statements.foldlM (Database.attempt loc) db with
  | none => exact hdb
  | some db' => exact Database.current_foldlM (fun _ => write.propagates loc) hdb h

theorem Database.current_empty (loc : Sql.Locale) :
    Database.empty.Current loc :=
  ⟨by simp [Database.empty], ⟨.nil, .nil⟩⟩

/-- Whatever cards are saved and deleted, both aggregates stay exact. -/
theorem card_writes_stay_exact (loc : Sql.Locale) (writes : List CardWrite) :
    (run (Database.transact loc) Database.empty writes).Exact loc := by
  have hall : Along (Database.transact loc) (fun _ _ => True) Database.empty writes :=
    along_of_forall (fun _ _ => trivial) _ writes
  have hcurrent := hall.invariant
    (fun (db : Database) (write : CardWrite) (h : db.Current loc) _ =>
      Database.current_transact h write) (Database.current_empty loc)
  exact hcurrent.exact

/-! ## A container whose image is renamed -/

/-- A group of the findings of one container. -/
def containerGroup : GroupRow where
  id := 1
  assetId := "host"
  sourceType := "docker"
  collectionType := "docker"
  collectionId := "c1"
  name := some "web"
  severity := some "high"
  vulnerabilityCount := 1
  cvssScore := none
  groupOrder := 0
  truncated := false
  groupJson := .obj [("image_name", .str "nginx:1")]

/-- A finding of the container. -/
def containerFinding : FindingRow where
  id := 1
  assetId := "host"
  groupId := 1
  vulnerabilityInstanceId := some "f1"
  vulnerabilityId := some "P-1"
  objectId := none
  cveName := none
  name := none
  severity := some "high"
  cvssScore := some 7
  descriptionKey := none
  vulnerabilityJson := .obj []
  selector := none

/-- Rename the image of every container in `group_json`. -/
def renameImage (image : String) : Statement :=
  .updateGroups (fun _ => true) { groupJson := some fun _ => .obj [("image_name", .str image)] }

/-- Rename every container. -/
def renameContainer (name : String) : Statement :=
  .updateGroups (fun _ => true) { name := some fun _ => some name }

/-- A run with a card save and a renamed container keeps the aggregates exact. -/
theorem rollups_exact_renameContainer :
    Along (Database.execute plainLocale)
      (fun db stmt => (db.execute plainLocale stmt).Exact plainLocale) Database.empty
      (replaceAssetCardCache "host" [containerGroup] [containerFinding] ++
        [renameContainer "api"]) := by
  apply rollups_exact_along (Database.current_empty plainLocale)
  rw [along_append]
  refine ⟨replaceAssetCardCache_propagates .., fun _ => ?_, trivial⟩
  have hfired : ∀ f ∈ (run (Database.execute plainLocale) Database.empty
      (replaceAssetCardCache "host" [containerGroup] [containerFinding])).findings,
      f.groupId = 1 := by
    decide +kernel
  intro f hf _
  left
  rw [InGroups, hfired f hf]
  decide +kernel

/-- The new image name reaches the view but not the stored aggregate. -/
theorem rollup_stale_after_groupJson :
    Database.empty.Current plainLocale ∧
      ¬ Along (Database.execute plainLocale)
        (fun db stmt => (db.execute plainLocale stmt).Exact plainLocale) Database.empty
        (replaceAssetCardCache "host" [containerGroup] [containerFinding] ++
          [renameImage "nginx:2"]) :=
  ⟨Database.current_empty plainLocale, by decide +kernel⟩

end Findings
end MpvmApp
