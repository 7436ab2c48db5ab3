import Mathlib.Data.List.Count
import Mathlib.Data.List.Perm.Basic
import MpvmApp.Lib.Table

/-!
# Grouped views and their incremental refresh

A grouped view turns rows into one output row for each key.  A stored copy of
the view is kept up to date by recomputing the output rows of given keys only.
Exactness is local to a key, so that a statement has to care for the keys of the
rows it changes and for no others.

Main results:

- Theorem `GroupedView.perm_view_iff`: a stored copy has the contents of the view
  exactly when it is exact at every key.
- Theorem `GroupedView.ExactOutside.refresh`: a refresh makes its keys exact and
  keeps every key whose rows did not change.
- Theorems `ChangedOnly.append`, `ChangedOnly.delete` and
  `ChangedOnly.update`: what an insertion, a deletion and an update change.
-/

namespace MpvmApp

universe u v w

/-! ## Changed rows -/

/-- The two lists agree on every selection that leaves out the rows of `changed`. -/
def ChangedOnly {α : Type u} (old new changed : List α) : Prop :=
  ∀ q : α → Bool, (∀ r ∈ changed, q r = false) → new.filter q = old.filter q

namespace ChangedOnly

variable {α : Type u}

/-- An insertion changes the rows it adds. -/
theorem append (l added : List α) :
    ChangedOnly l (l ++ added) added := by
  intro q hq
  have hadded : added.filter q = [] := by
    rw [List.filter_eq_nil_iff]
    intro r hr
    simp [hq r hr]
  simp [hadded]

/-- A deletion changes the rows it removes. -/
theorem delete (l : List α) (p : α → Bool) :
    ChangedOnly l (l.filter fun r => !p r) (l.filter p) := by
  intro q hq
  rw [List.filter_filter]
  apply List.filter_congr
  intro r hr
  by_cases hp : p r = true
  · have hqr := hq r (List.mem_filter.2 ⟨hr, hp⟩)
    simp [hqr]
  · simp [hp]

/-- An update in place changes the old and the new versions of the rows it selects. -/
theorem update (l : List α) (p : α → Bool) (g : α → α) :
    ChangedOnly l (l.map fun r => if p r then g r else r) (l.filter p ++ (l.filter p).map g) := by
  intro q hq
  induction l with
  | nil => rfl
  | cons r rs ih =>
      have hrest : ∀ r' ∈ rs.filter p ++ (rs.filter p).map g, q r' = false := by
        intro r' hr'
        apply hq r'
        by_cases hp : p r = true <;> simp only [List.mem_append, List.mem_map] at hr' ⊢
        · rcases hr' with hmem | ⟨r₀, hmem, heq⟩
          · exact .inl (by simp [hp, hmem])
          · exact .inr ⟨r₀, by simp [hp, hmem], heq⟩
        · simpa [hp] using hr'
      by_cases hp : p r = true
      · have hold : q r = false := hq r (by simp [hp])
        have hnew : q (g r) = false := hq (g r) (by simp [hp])
        simp [hp, hold, hnew, ih hrest]
      · by_cases hqr : q r = true <;> simp [hp, hqr, ih hrest]

end ChangedOnly

/-! ## Grouped views -/

/-- A grouped query: the key of a row and the output row of the rows of one key. -/
structure GroupedView (ρ : Type u) (κ : Type v) (ν : Type w) where
  key : ρ → κ
  keyOf : ν → κ
  aggregate : κ → List ρ → ν
  keyOf_aggregate : ∀ k rows, keyOf (aggregate k rows) = k

namespace GroupedView

variable {ρ : Type u} {κ : Type v} {ν : Type w} [DecidableEq κ] (G : GroupedView ρ κ ν)

/-- The rows of one key. -/
def group (rows : List ρ) (k : κ) : List ρ :=
  rows.filter fun r => decide (G.key r = k)

/-- The view: one output row for each key. -/
def view (rows : List ρ) : List ν :=
  (fromKeys (rows.map G.key)).map fun k => G.aggregate k (G.group rows k)

/-- Replace the stored output rows of the given keys by those of the view. -/
def refresh (keys : List κ) (rows : List ρ) (stored : List ν) : List ν :=
  (stored.filter fun v => !decide (G.keyOf v ∈ keys)) ++
    (G.view rows).filter fun v => decide (G.keyOf v ∈ keys)

/-- The output rows with one key. -/
def entries (stored : List ν) (k : κ) : List ν :=
  stored.filter fun v => decide (G.keyOf v = k)

/-- A stored copy has exactly the output row that the view has at a key. -/
def ExactAt (stored : List ν) (rows : List ρ) (k : κ) : Prop :=
  G.entries stored k = G.entries (G.view rows) k

/-- A stored copy is exact at every key that is not dirty. -/
def ExactOutside (dirty : κ → Prop) (stored : List ν) (rows : List ρ) : Prop :=
  ∀ k, ¬ dirty k → G.ExactAt stored rows k

variable {G}

theorem group_eq_nil_iff {rows : List ρ} {k : κ} :
    G.group rows k = [] ↔ k ∉ fromKeys (rows.map G.key) := by
  simp [group, List.filter_eq_nil_iff]

/-- The view has one output row at a key with rows, and none at any other. -/
theorem entries_view (rows : List ρ) (k : κ) :
    G.entries (G.view rows) k =
      if G.group rows k = [] then [] else [G.aggregate k (G.group rows k)] := by
  have hkey : ((fun v => decide (G.keyOf v = k)) ∘ fun k' => G.aggregate k' (G.group rows k')) =
      fun k' => k' == k := by
    funext k'
    simp [G.keyOf_aggregate, beq_eq_decide]
  have hcount : (fromKeys (rows.map G.key)).count k =
      if k ∈ fromKeys (rows.map G.key) then 1 else 0 :=
    (nodup_fromKeys (rows.map G.key)).count
  rw [entries, view, List.filter_map, hkey, List.filter_beq, hcount]
  by_cases hmem : k ∈ fromKeys (rows.map G.key)
  · have hgroup : G.group rows k ≠ [] := fun h => group_eq_nil_iff.1 h hmem
    simp only [if_pos hmem, if_neg hgroup]
    rfl
  · rw [if_neg hmem, if_pos (group_eq_nil_iff.2 hmem)]
    rfl

/-- The view at a key depends on the rows of that key only. -/
theorem entries_view_congr {rows rows' : List ρ} {k : κ} (h : G.group rows' k = G.group rows k) :
    G.entries (G.view rows') k = G.entries (G.view rows) k := by
  rw [entries_view, entries_view, h]

/-- Two copies with the same output rows at every key have the same contents. -/
theorem perm_of_entries {stored stored' : List ν}
    (h : ∀ k, G.entries stored k = G.entries stored' k) :
    stored.Perm stored' := by
  classical
  rw [List.perm_iff_count]
  intro v
  have hv := congrArg (List.count v) (h (G.keyOf v))
  unfold entries at hv
  rwa [List.count_filter (by simp), List.count_filter (by simp)] at hv

/-- A stored copy has the contents of the view exactly when it is exact at every key. -/
theorem perm_view_iff {stored : List ν} {rows : List ρ} :
    stored.Perm (G.view rows) ↔ G.ExactOutside (fun _ => False) stored rows := by
  constructor
  · intro hperm k _
    have hentries : (G.entries stored k).Perm (G.entries (G.view rows) k) := hperm.filter _
    unfold ExactAt
    rw [entries_view] at hentries ⊢
    split at hentries
    · rename_i hnil
      rw [if_pos hnil]
      exact hentries.eq_nil
    · rename_i hnil
      rw [if_neg hnil]
      exact List.perm_singleton.1 hentries
  · intro hexact
    exact perm_of_entries fun k => hexact k not_false

/-- A refresh takes its keys from the view and leaves the other output rows. -/
theorem entries_refresh (keys : List κ) (rows : List ρ) (stored : List ν) (k : κ) :
    G.entries (G.refresh keys rows stored) k =
      if k ∈ keys then G.entries (G.view rows) k else G.entries stored k := by
  have hselect (l : List ν) (p : ν → Bool) (b : Bool) (hp : ∀ v, G.keyOf v = k → p v = b) :
      (l.filter p).filter (fun v => decide (G.keyOf v = k)) =
        if b then l.filter (fun v => decide (G.keyOf v = k)) else [] := by
    rw [List.filter_filter]
    cases b with
    | true =>
        apply List.filter_congr
        intro v _
        by_cases hv : G.keyOf v = k <;> simp [hv, hp]
    | false =>
        simp only [Bool.false_eq_true, if_false, List.filter_eq_nil_iff]
        intro v _
        by_cases hv : G.keyOf v = k <;> simp [hv, hp]
  unfold entries refresh
  by_cases hk : k ∈ keys
  · rw [List.filter_append, hselect stored _ false (by rintro v rfl; simp [hk]),
      hselect (G.view rows) _ true (by rintro v rfl; simp [hk])]
    simp [hk]
  · rw [List.filter_append, hselect stored _ true (by rintro v rfl; simp [hk]),
      hselect (G.view rows) _ false (by rintro v rfl; simp [hk])]
    simp [hk]

/-- A copy stays exact at a key whose rows do not change. -/
theorem ExactOutside.congr {dirty dirty' : κ → Prop} {stored : List ν} {rows rows' : List ρ}
    (h : G.ExactOutside dirty stored rows)
    (hframe : ∀ k, ¬ dirty' k → ¬ dirty k ∧ G.group rows' k = G.group rows k) :
    G.ExactOutside dirty' stored rows' := by
  intro k hk
  obtain ⟨hclean, hgroup⟩ := hframe k hk
  unfold ExactAt
  rw [entries_view_congr hgroup]
  exact h k hclean

/--
A refresh after a change of the rows: its keys become exact, and every other key
that was exact stays so when its rows did not change.
-/
theorem ExactOutside.refresh {dirty dirty' : κ → Prop} {stored : List ν} {rows rows' : List ρ}
    {keys : List κ} (h : G.ExactOutside dirty stored rows)
    (hframe : ∀ k, ¬ dirty' k → k ∉ keys → ¬ dirty k ∧ G.group rows' k = G.group rows k) :
    G.ExactOutside dirty' (G.refresh keys rows' stored) rows' := by
  intro k hk
  unfold ExactAt
  rw [entries_refresh]
  split
  · rfl
  · rename_i hkey
    obtain ⟨hclean, hgroup⟩ := hframe k hk hkey
    rw [entries_view_congr hgroup]
    exact h k hclean

end GroupedView
end MpvmApp
