import Mathlib.Data.List.Nodup
import Mathlib.Data.List.Dedup

/-!
# Tables with a primary key and a unique key

A table is a list of rows that carries the proofs of its two uniqueness
constraints.  Every operation either keeps both or reports that a constraint is
violated, so that a table with two rows of one key cannot be built.

Main results:

- Theorem `Table.find?_mapRows`: updating the rows in place updates the row
  found under every key.
- Theorem `Table.find?_insert?`: an accepted insertion is found under its own
  key and changes no other.
- Theorem `Table.find?_eq_some_iff`: the row found under a key is the only row
  with that key.
-/

namespace MpvmApp

universe u v w

/-- The distinct elements of a list in the order of their first occurrence. -/
def fromKeys {α : Type u} [DecidableEq α] (l : List α) : List α :=
  l.reverse.dedup.reverse

theorem nodup_fromKeys {α : Type u} [DecidableEq α] (l : List α) :
    (fromKeys l).Nodup :=
  List.nodup_reverse.2 (List.nodup_dedup _)

@[simp]
theorem mem_fromKeys {α : Type u} [DecidableEq α] {l : List α} {a : α} :
    a ∈ fromKeys l ↔ a ∈ l := by
  simp [fromKeys]

theorem length_fromKeys_le {α : Type u} [DecidableEq α] (l : List α) :
    (fromKeys l).length ≤ l.length := by
  simpa [fromKeys] using (List.dedup_sublist l.reverse).length_le

/-- Rows with a primary key `pk` and a second unique key `uk`. -/
structure Table (α : Type u) {κ : Type v} {μ : Type w} (pk : α → κ) (uk : α → μ) where
  rows : List α
  pkNodup : (rows.map pk).Nodup
  ukNodup : (rows.map uk).Nodup

namespace Table

variable {α : Type u} {κ : Type v} {μ : Type w} {pk : α → κ} {uk : α → μ}

@[ext]
theorem ext {s t : Table α pk uk} (h : s.rows = t.rows) :
    s = t := by
  cases s
  cases t
  cases h
  rfl

instance [DecidableEq α] : DecidableEq (Table α pk uk) := fun s t =>
  decidable_of_iff (s.rows = t.rows) ⟨ext, fun h => h ▸ rfl⟩

/-- The table without rows. -/
def empty : Table α pk uk where
  rows := []
  pkNodup := by simp
  ukNodup := by simp

instance : Membership α (Table α pk uk) where
  mem t r := r ∈ t.rows

theorem mem_def {t : Table α pk uk} {r : α} :
    r ∈ t ↔ r ∈ t.rows :=
  Iff.rfl

/-- `UPDATE` of every row by a function that keeps both keys. -/
def mapRows (t : Table α pk uk) (g : α → α)
    (hpk : ∀ r, pk (g r) = pk r) (huk : ∀ r, uk (g r) = uk r) : Table α pk uk where
  rows := t.rows.map g
  pkNodup := by
    have h : pk ∘ g = pk := funext hpk
    simpa [List.map_map, h] using t.pkNodup
  ukNodup := by
    have h : uk ∘ g = uk := funext huk
    simpa [List.map_map, h] using t.ukNodup

/-- `DELETE` of every row that does not satisfy `p`. -/
def filterRows (t : Table α pk uk) (p : α → Bool) : Table α pk uk where
  rows := t.rows.filter p
  pkNodup := t.pkNodup.sublist ((List.filter_sublist).map pk)
  ukNodup := t.ukNodup.sublist ((List.filter_sublist).map uk)

/-- Two rows of a table with one primary key are the same row. -/
theorem eq_of_pk_eq {t : Table α pk uk} {r r' : α} (h : r ∈ t) (h' : r' ∈ t)
    (hk : pk r = pk r') :
    r = r' :=
  List.inj_on_of_nodup_map t.pkNodup h h' hk

@[simp]
theorem mem_mapRows {t : Table α pk uk} {g : α → α} {hpk huk} {r : α} :
    r ∈ t.mapRows g hpk huk ↔ ∃ r' ∈ t, g r' = r := by
  simp [mapRows, mem_def]

theorem mem_filterRows {t : Table α pk uk} {p : α → Bool} {r : α} :
    r ∈ t.filterRows p ↔ r ∈ t ∧ p r = true :=
  List.mem_filter

section Lookup

variable [DecidableEq κ]

/-- The row under a primary key. -/
def find? (t : Table α pk uk) (k : κ) : Option α :=
  t.rows.find? fun r => decide (pk r = k)

theorem pk_of_find? {t : Table α pk uk} {k : κ} {r : α} (h : t.find? k = some r) :
    pk r = k := by
  simpa using List.find?_some h

theorem mem_of_find? {t : Table α pk uk} {k : κ} {r : α} (h : t.find? k = some r) :
    r ∈ t :=
  List.mem_of_find?_eq_some h

/-- The row under a key is the row of the table that has this key. -/
theorem find?_eq_some_iff {t : Table α pk uk} {k : κ} {r : α} :
    t.find? k = some r ↔ r ∈ t ∧ pk r = k := by
  constructor
  · intro h
    exact ⟨mem_of_find? h, pk_of_find? h⟩
  · rintro ⟨hmem, hk⟩
    cases hfind : t.find? k with
    | none =>
        have hnone := List.find?_eq_none.1 hfind r hmem
        exact absurd hk (by simpa using hnone)
    | some r' =>
        have heq := eq_of_pk_eq (mem_of_find? hfind) hmem ((pk_of_find? hfind).trans hk.symm)
        rw [heq]

theorem find?_eq_none_iff {t : Table α pk uk} {k : κ} :
    t.find? k = none ↔ ∀ r ∈ t, pk r ≠ k := by
  simp [find?, List.find?_eq_none, mem_def]

/-- A row is found under its own key. -/
theorem find?_of_mem {t : Table α pk uk} {r : α} (h : r ∈ t) :
    t.find? (pk r) = some r :=
  find?_eq_some_iff.2 ⟨h, rfl⟩

/-- A row is in the table when it is found under its own key. -/
theorem mem_iff_find? {t : Table α pk uk} {r : α} :
    r ∈ t ↔ t.find? (pk r) = some r := by
  rw [find?_eq_some_iff, and_iff_left rfl]

@[simp]
theorem find?_empty (k : κ) :
    (empty : Table α pk uk).find? k = none :=
  rfl

/-- Updating the rows in place updates the row found under every key. -/
@[simp]
theorem find?_mapRows (t : Table α pk uk) (g : α → α) (hpk huk) (k : κ) :
    (t.mapRows g hpk huk).find? k = (t.find? k).map g := by
  have h : ((fun r => decide (pk r = k)) ∘ g) = fun r => decide (pk r = k) := by
    funext r
    simp [hpk r]
  simp only [find?, mapRows, List.find?_map]
  rw [h]

/-- Among rows with distinct keys, those with one key are the row found under it. -/
theorem filter_key_eq_toList {l : List α} (h : (l.map pk).Nodup) (k : κ) :
    (l.filter fun r => decide (pk r = k)) = (l.find? fun r => decide (pk r = k)).toList := by
  induction l with
  | nil => rfl
  | cons r rs ih =>
      simp only [List.map_cons, List.nodup_cons, List.mem_map, not_exists, not_and] at h
      by_cases hk : pk r = k
      · have hrest : (rs.filter fun r => decide (pk r = k)) = [] := by
          simp only [List.filter_eq_nil_iff, decide_eq_true_eq]
          intro r' hr' hk'
          exact h.1 r' hr' (hk'.trans hk.symm)
        simp [hk, hrest]
      · simp [hk, ih h.2]

/-- The selected rows with one key are the row found under it, if it is selected. -/
theorem filter_filter_key (t : Table α pk uk) (p : α → Bool) (k : κ) :
    ((t.rows.filter p).filter fun r => decide (pk r = k)) = ((t.find? k).filter p).toList := by
  rw [List.filter_comm, filter_key_eq_toList t.pkNodup]
  unfold find?
  cases t.rows.find? fun r => decide (pk r = k) with
  | none => rfl
  | some r => cases hp : p r <;> simp [hp, Option.filter]

end Lookup

section Insertion

variable [DecidableEq κ] [DecidableEq μ]

/-- Some row already has a key of `r`. -/
def conflicts (t : Table α pk uk) (r : α) : Bool :=
  t.rows.any fun r' => decide (pk r' = pk r) || decide (uk r' = uk r)

theorem conflicts_eq_false_iff {t : Table α pk uk} {r : α} :
    t.conflicts r = false ↔ ∀ r' ∈ t.rows, pk r' ≠ pk r ∧ uk r' ≠ uk r := by
  simp [conflicts]

/-- `INSERT` of one row; `none` is a violated uniqueness constraint. -/
def insert? (t : Table α pk uk) (r : α) : Option (Table α pk uk) :=
  if h : t.conflicts r = false then
    some {
      rows := t.rows ++ [r]
      pkNodup := by
        have hfree := conflicts_eq_false_iff.1 h
        simp only [List.map_append, List.map_cons, List.map_nil]
        refine List.nodup_append.2 ⟨t.pkNodup, by simp, ?_⟩
        intro a ha b hb
        obtain ⟨r', hr', rfl⟩ := List.mem_map.1 ha
        rw [List.mem_singleton.1 hb]
        exact (hfree r' hr').1
      ukNodup := by
        have hfree := conflicts_eq_false_iff.1 h
        simp only [List.map_append, List.map_cons, List.map_nil]
        refine List.nodup_append.2 ⟨t.ukNodup, by simp, ?_⟩
        intro a ha b hb
        obtain ⟨r', hr', rfl⟩ := List.mem_map.1 ha
        rw [List.mem_singleton.1 hb]
        exact (hfree r' hr').2 }
  else
    none

theorem rows_of_insert? {t t' : Table α pk uk} {r : α} (h : t.insert? r = some t') :
    t'.rows = t.rows ++ [r] := by
  unfold insert? at h
  split at h
  · cases h
    rfl
  · cases h

/-- An accepted insertion adds one row. -/
theorem mem_insert? {t t' : Table α pk uk} {r r' : α} (h : t.insert? r = some t') :
    r' ∈ t' ↔ r' ∈ t ∨ r' = r := by
  simp [mem_def, rows_of_insert? h]

/-- An accepted insertion had its primary key free. -/
theorem find?_eq_none_of_insert? {t t' : Table α pk uk} {r : α} (h : t.insert? r = some t') :
    t.find? (pk r) = none := by
  unfold insert? at h
  split at h
  · rename_i hfree
    exact find?_eq_none_iff.2 fun r' hr' => (conflicts_eq_false_iff.1 hfree r' hr').1
  · cases h

/-- An accepted insertion is found under its own key and changes no other. -/
theorem find?_insert? {t t' : Table α pk uk} {r : α} (h : t.insert? r = some t') (k : κ) :
    t'.find? k = if pk r = k then some r else t.find? k := by
  have hnone := find?_eq_none_of_insert? h
  unfold find? at hnone ⊢
  rw [rows_of_insert? h, List.find?_append]
  by_cases hk : pk r = k
  · subst hk
    simp [hnone]
  · simp [hk]

end Insertion

/-! ## Upserts -/

section Upsert

variable [DecidableEq κ]

/-- The rows after an upsert under a key. -/
def upsertRows (pk : α → κ) (rows : List α) (k : κ) (f : Option α → α) : List α :=
  if k ∈ rows.map pk then rows.map fun r => if pk r = k then f (some r) else r
  else rows ++ [f none]

theorem nodup_upsertRows {rows : List α} (h : (rows.map pk).Nodup) {k : κ} {f : Option α → α}
    (hf : ∀ o, pk (f o) = k) :
    ((upsertRows pk rows k f).map pk).Nodup := by
  unfold upsertRows
  split
  · have hkeys : (rows.map fun r => if pk r = k then f (some r) else r).map pk = rows.map pk := by
      rw [List.map_map]
      refine List.map_congr_left fun r _ => ?_
      by_cases hk : pk r = k
      · simp [hk, hf]
      · simp [hk]
    rw [hkeys]
    exact h
  · rename_i hfree
    rw [List.map_append, List.map_singleton, hf]
    exact h.append (List.nodup_singleton k) (by simpa using hfree)

/--
`INSERT … ON CONFLICT DO UPDATE`: the row under the key becomes another one with that
key, or is inserted.
-/
def upsert (t : Table α pk pk) (k : κ) (f : Option α → α) (hf : ∀ o, pk (f o) = k) :
    Table α pk pk where
  rows := upsertRows pk t.rows k f
  pkNodup := nodup_upsertRows t.pkNodup hf
  ukNodup := nodup_upsertRows t.ukNodup hf

theorem mem_upsert {t : Table α pk pk} {k : κ} {f : Option α → α} {hf : ∀ o, pk (f o) = k}
    {r : α} :
    r ∈ t.upsert k f hf ↔ r = f (t.find? k) ∨ r ∈ t ∧ pk r ≠ k := by
  simp only [mem_def, upsert, upsertRows]
  split
  · rename_i hused
    obtain ⟨old, hold, hk⟩ := List.mem_map.1 hused
    rw [(find?_eq_some_iff (t := t)).2 ⟨hold, hk⟩, List.mem_map]
    constructor
    · rintro ⟨r', hr', rfl⟩
      by_cases hk' : pk r' = k
      · rw [if_pos hk', eq_of_pk_eq (t := t) hr' hold (hk'.trans hk.symm)]
        exact .inl rfl
      · rw [if_neg hk']
        exact .inr ⟨hr', hk'⟩
    · rintro (rfl | ⟨hr, hne⟩)
      · exact ⟨old, hold, if_pos hk⟩
      · exact ⟨r, hr, if_neg hne⟩
  · rename_i hfree
    have hnone : t.find? k = none := by
      rw [find?_eq_none_iff]
      intro r hr hk
      exact hfree (List.mem_map.2 ⟨r, hr, hk⟩)
    rw [hnone, List.mem_append, List.mem_singleton]
    constructor
    · rintro (hr | rfl)
      · exact .inr ⟨hr, fun hk => hfree (List.mem_map.2 ⟨r, hr, hk⟩)⟩
      · exact .inl rfl
    · rintro (rfl | ⟨hr, _⟩)
      · exact .inr rfl
      · exact .inl hr

/-- An upsert changes what is found under its key. -/
theorem find?_upsert {t : Table α pk pk} {k : κ} {f : Option α → α} {hf : ∀ o, pk (f o) = k}
    (k' : κ) :
    (t.upsert k f hf).find? k' = if k' = k then some (f (t.find? k)) else t.find? k' := by
  ext r
  rw [find?_eq_some_iff, mem_upsert]
  by_cases hk : k' = k
  · rw [if_pos hk, Option.some.injEq]
    constructor
    · rintro ⟨rfl | ⟨_, hne⟩, hr⟩
      · rfl
      · exact absurd (hr.trans hk) hne
    · rintro rfl
      exact ⟨.inl rfl, (hf _).trans hk.symm⟩
  · rw [if_neg hk, find?_eq_some_iff]
    constructor
    · rintro ⟨rfl | ⟨hr, _⟩, hr'⟩
      · exact absurd (hr'.symm.trans (hf _)) hk
      · exact ⟨hr, hr'⟩
    · rintro ⟨hr, rfl⟩
      exact ⟨.inr ⟨hr, hk⟩, rfl⟩

section Fold

variable {β : Type*} {key : β → κ} {f : β → Option α → α}

/-- After upserts one after the other a row results from those with its key. -/
theorem find?_foldl_upsert (hf : ∀ b o, pk (f b o) = key b) (bs : List β) (t : Table α pk pk)
    (k : κ) :
    (bs.foldl (fun t b => t.upsert (key b) (f b) (hf b)) t).find? k =
      (bs.filter fun b => decide (key b = k)).foldl (fun o b => some (f b o)) (t.find? k) := by
  induction bs generalizing t with
  | nil => rfl
  | cons b bs ih =>
      rw [List.foldl_cons, ih, find?_upsert]
      by_cases hk : key b = k
      · simp [hk]
      · simp [hk, Ne.symm hk]

/-- Upserts one after the other leave the rows with other keys alone. -/
theorem mem_foldl_upsert (hf : ∀ b o, pk (f b o) = key b) (bs : List β) (t : Table α pk pk)
    {r : α} (hr : pk r ∉ bs.map key) :
    r ∈ bs.foldl (fun t b => t.upsert (key b) (f b) (hf b)) t ↔ r ∈ t := by
  have hnone : (bs.filter fun b => decide (key b = pk r)) = [] := by
    rw [List.filter_eq_nil_iff]
    intro b hb hk
    exact hr (List.mem_map.2 ⟨b, hb, of_decide_eq_true hk⟩)
  rw [mem_iff_find?, mem_iff_find?, find?_foldl_upsert, hnone]
  rfl

end Fold

end Upsert

end Table
end MpvmApp
