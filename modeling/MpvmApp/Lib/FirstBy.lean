import Mathlib.Data.List.Induction
import Mathlib.Data.List.Lattice
import Mathlib.Order.Defs.LinearOrder
import MpvmApp.Lib.Table

/-!
# First occurrences

A table that is filled row by row keeps the first row of each key.  When the rows of a key are
alike, it does not matter how often a key occurs, also if a row may be refused.

Main definitions:

- `firstBy`: the first row of each key, in the order of the keys.

Main results:

- Theorem `map_firstBy`: the keys of the first rows are the distinct keys.
- Theorem `firstBy_mapM`: the first of some computed rows are the rows that are computed for
  the distinct keys.
- Theorem `fromKeys_eq_of_sorted`: sorted keys with the same members have the same first
  occurrences.
-/

namespace MpvmApp

universe u v w

variable {α ε : Type u} {κ : Type v}

/-! ## Lists of calls -/

/-- A list of calls that all succeed. -/
theorem mapM_eq_ok_of_forall {f : κ → Except ε α} {row : κ → α} {ks : List κ}
    (h : ∀ k ∈ ks, f k = .ok (row k)) :
    ks.mapM f = .ok (ks.map row) := by
  induction ks with
  | nil => rfl
  | cons k ks ih =>
      rw [List.mapM_cons, h k List.mem_cons_self, ih fun k' hk' => h k' (List.mem_cons_of_mem k hk')]
      rfl

theorem mapM_congr {f g : κ → Except ε α} {ks : List κ} (h : ∀ k ∈ ks, f k = g k) :
    ks.mapM f = ks.mapM g := by
  induction ks with
  | nil => rfl
  | cons k ks ih =>
      rw [List.mapM_cons, List.mapM_cons, h k List.mem_cons_self,
        ih fun k' hk' => h k' (List.mem_cons_of_mem k hk')]

/-- In a list of calls that succeeds each one does. -/
theorem forall_of_mapM_eq_ok {f : κ → Except ε α} {ks : List κ} {rows : List α}
    (h : ks.mapM f = .ok rows) :
    ∀ k ∈ ks, ∃ r ∈ rows, f k = .ok r := by
  induction ks generalizing rows with
  | nil => exact fun k hk => nomatch hk
  | cons k ks ih =>
      rw [List.mapM_cons] at h
      cases hk : f k with
      | error e => rw [hk] at h; cases h
      | ok r =>
          cases hks : ks.mapM f with
          | error e => rw [hk, hks] at h; cases h
          | ok rest =>
              rw [hk, hks] at h
              cases h
              intro k' hk'
              rcases List.mem_cons.1 hk' with rfl | hmem
              · exact ⟨r, List.mem_cons_self, hk⟩
              · obtain ⟨r', hr', hf⟩ := ih hks k' hmem
                exact ⟨r', List.mem_cons_of_mem r hr', hf⟩

/-- The results of calls that succeed are those of their arguments. -/
theorem exists_of_mem_mapM {f : κ → Except ε α} {ks : List κ} {rows : List α}
    (h : ks.mapM f = .ok rows) {r : α} (hr : r ∈ rows) :
    ∃ k ∈ ks, f k = .ok r := by
  induction ks generalizing rows with
  | nil =>
      cases h
      cases hr
  | cons k ks ih =>
      rw [List.mapM_cons] at h
      cases hk : f k with
      | error e => rw [hk] at h; cases h
      | ok first =>
          cases hks : ks.mapM f with
          | error e => rw [hk, hks] at h; cases h
          | ok rest =>
              rw [hk, hks] at h
              cases h
              rcases List.mem_cons.1 hr with rfl | hmem
              · exact ⟨k, List.mem_cons_self, hk⟩
              · obtain ⟨k', hk', hf⟩ := ih hks hmem
                exact ⟨k', List.mem_cons_of_mem k hk', hf⟩

/-- The keys of the results of calls that succeed are their arguments. -/
theorem map_of_mapM_eq_ok {f : κ → Except ε α} {key : α → κ}
    (hkey : ∀ k r, f k = .ok r → key r = k) {ks : List κ} {rows : List α}
    (h : ks.mapM f = .ok rows) :
    rows.map key = ks := by
  induction ks generalizing rows with
  | nil =>
      cases h
      rfl
  | cons k ks ih =>
      rw [List.mapM_cons] at h
      cases hk : f k with
      | error e => rw [hk] at h; cases h
      | ok first =>
          cases hks : ks.mapM f with
          | error e => rw [hk, hks] at h; cases h
          | ok rest =>
              rw [hk, hks] at h
              cases h
              exact List.cons_eq_cons.2 ⟨hkey k first hk, ih hks⟩

variable [DecidableEq κ]

/-! ## Distinct keys -/

theorem fromKeys_concat (ks : List κ) (k : κ) :
    fromKeys (ks ++ [k]) = if k ∈ ks then fromKeys ks else fromKeys ks ++ [k] := by
  unfold fromKeys
  rw [List.reverse_append, List.reverse_singleton, List.singleton_append]
  by_cases hmem : k ∈ ks
  · rw [if_pos hmem, List.dedup_cons_of_mem (List.mem_reverse.2 hmem)]
  · rw [if_neg hmem, List.dedup_cons_of_notMem (mt List.mem_reverse.1 hmem), List.reverse_cons]

theorem fromKeys_sublist (ks : List κ) :
    (fromKeys ks).Sublist ks := by
  have h := (List.dedup_sublist ks.reverse).reverse
  rwa [List.reverse_reverse] at h

/-- Sorted keys with the same members have the same first occurrences. -/
theorem fromKeys_eq_of_sorted {r : κ → κ → Prop}
    (hantisymm : ∀ a b, r a b → r b a → a = b) {ks ks' : List κ} (h : ks.Pairwise r)
    (h' : ks'.Pairwise r) (hmem : ∀ k, k ∈ ks ↔ k ∈ ks') :
    fromKeys ks = fromKeys ks' := by
  have hperm : (fromKeys ks).Perm (fromKeys ks') := by
    rw [List.perm_ext_iff_of_nodup (nodup_fromKeys _) (nodup_fromKeys _)]
    intro k
    rw [mem_fromKeys, mem_fromKeys, hmem]
  exact hperm.eq_of_pairwise (fun a b _ _ => hantisymm a b) (h.sublist (fromKeys_sublist ks))
    (h'.sublist (fromKeys_sublist ks'))

/-! ## First rows -/

/-- The first row of each key, in the order of the keys. -/
def firstBy (key : α → κ) (rows : List α) : List α :=
  (fromKeys (rows.map key)).filterMap fun k => rows.find? fun r => decide (key r = k)

/-- A key of some row has a first row, with this key. -/
theorem exists_find?_key {key : α → κ} {rows : List α} {k : κ} (h : k ∈ rows.map key) :
    ∃ r, rows.find? (fun r => decide (key r = k)) = some r ∧ r ∈ rows ∧ key r = k := by
  obtain ⟨r, hr, hk⟩ := List.mem_map.1 h
  cases hfind : rows.find? fun r => decide (key r = k) with
  | none => exact absurd (List.find?_eq_none.1 hfind r hr) (by simp [hk])
  | some found =>
      refine ⟨found, rfl, List.mem_of_find?_eq_some hfind, ?_⟩
      simpa using List.find?_some hfind

/-- The keys of the first rows are the distinct keys. -/
theorem map_firstBy (key : α → κ) (rows : List α) :
    (firstBy key rows).map key = fromKeys (rows.map key) := by
  have hkeys : ∀ ks : List κ, (∀ k ∈ ks, k ∈ rows.map key) →
      (ks.filterMap fun k => rows.find? fun r => decide (key r = k)).map key = ks := by
    intro ks
    induction ks with
    | nil => exact fun _ => rfl
    | cons k ks ih =>
        intro h
        obtain ⟨r, hfind, _, hk⟩ := exists_find?_key (h k List.mem_cons_self)
        rw [List.filterMap_cons, hfind]
        dsimp only
        rw [List.map_cons, hk, ih fun k' hk' => h k' (List.mem_cons_of_mem k hk')]
  exact hkeys _ fun k hk => mem_fromKeys.1 hk

/-- The first of rows that their keys determine. -/
theorem firstBy_map {key : α → κ} {row : κ → α} {ks : List κ} (h : ∀ k ∈ ks, key (row k) = k) :
    firstBy key (ks.map row) = (fromKeys ks).map row := by
  have hkeys : (ks.map row).map key = ks := by
    rw [List.map_map]
    exact (List.map_congr_left h).trans (List.map_id ks)
  unfold firstBy
  rw [hkeys]
  have hrows : ∀ part : List κ, (∀ k ∈ part, k ∈ ks) →
      (part.filterMap fun k => (ks.map row).find? fun r => decide (key r = k)) =
        part.map row := by
    intro part
    induction part with
    | nil => exact fun _ => rfl
    | cons k part ih =>
        intro hpart
        have hk : k ∈ (ks.map row).map key := by
          rw [hkeys]
          exact hpart k List.mem_cons_self
        obtain ⟨r, hfind, hr, hkey⟩ := exists_find?_key hk
        obtain ⟨k', hk', rfl⟩ := List.mem_map.1 hr
        have hsame : k' = k := (h k' hk').symm.trans hkey
        rw [List.filterMap_cons, hfind]
        dsimp only
        rw [List.map_cons, hsame, ih fun k' hk' => hpart k' (List.mem_cons_of_mem k hk')]
  exact hrows _ fun k hk => mem_fromKeys.1 hk

/-! ## Rows that may be refused -/

/-- A repeated call that has succeeded succeeds again. -/
theorem mapM_fromKeys (f : κ → Except ε α) (ks : List κ) :
    (∃ rows, ks.mapM f = .ok rows ∧ ∃ distinct, (fromKeys ks).mapM f = .ok distinct) ∨
      ∃ e, ks.mapM f = .error e ∧ (fromKeys ks).mapM f = .error e := by
  induction ks using List.reverseRecOn with
  | nil => exact .inl ⟨[], rfl, [], rfl⟩
  | append_singleton ks k ih =>
      rw [List.mapM_append, fromKeys_concat]
      rcases ih with ⟨rows, hrows, distinct, hdistinct⟩ | ⟨e, he, hdistinct⟩
      · rw [hrows]
        by_cases hmem : k ∈ ks
        · obtain ⟨r, _, hk⟩ := forall_of_mapM_eq_ok hrows k hmem
          rw [if_pos hmem]
          refine .inl ⟨rows ++ [r], ?_, distinct, hdistinct⟩
          rw [List.mapM_cons, hk]
          rfl
        · rw [if_neg hmem, List.mapM_append, hdistinct]
          cases hk : f k with
          | ok r =>
              rw [List.mapM_cons, hk]
              exact .inl ⟨rows ++ [r], rfl, distinct ++ [r], rfl⟩
          | error e =>
              rw [List.mapM_cons, hk]
              exact .inr ⟨e, rfl, rfl⟩
      · rw [he]
        refine .inr ⟨e, rfl, ?_⟩
        split
        · exact hdistinct
        · rw [List.mapM_append, hdistinct]
          rfl

/-- The first of some computed rows are the rows that are computed for the distinct keys. -/
theorem firstBy_mapM {key : α → κ} {f : κ → Except ε α}
    (hkey : ∀ k r, f k = .ok r → key r = k) (ks : List κ) :
    (ks.mapM f).map (firstBy key) = (fromKeys ks).mapM f := by
  rcases mapM_fromKeys f ks with ⟨rows, hrows, _⟩ | ⟨e, he, hdistinct⟩
  · have hcalls := forall_of_mapM_eq_ok hrows
    by_cases hne : ks = []
    · subst hne
      rfl
    · obtain ⟨k₀, hk₀⟩ := List.exists_mem_of_ne_nil ks hne
      obtain ⟨r₀, _, _⟩ := hcalls k₀ hk₀
      have hchoice : ∀ k, ∃ r, k ∈ ks → f k = .ok r := by
        intro k
        by_cases hk : k ∈ ks
        · obtain ⟨r, _, hf⟩ := hcalls k hk
          exact ⟨r, fun _ => hf⟩
        · exact ⟨r₀, fun h => absurd h hk⟩
      choose row hrow using hchoice
      rw [mapM_eq_ok_of_forall hrow,
        mapM_eq_ok_of_forall fun k hk => hrow k (mem_fromKeys.1 hk)]
      exact congrArg Except.ok (firstBy_map fun k hk => hkey k (row k) (hrow k hk))
  · rw [he, hdistinct]
    rfl

end MpvmApp
