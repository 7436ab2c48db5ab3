import MpvmApp.Lib.Dict

/-!
# Rows merged under a key

Rows are merged one after another into a dictionary: the first row of a key makes an entry, and
each later one changes it or fails.

Main results:

- Theorem `get?_mergeRows`: the entry of a key is made of the rows with this key.
- Theorem `mergeRows_isSome_iff`: the merge fails when that of the rows of some key does.
- Theorem `mergeRows_mapValues`: entries can be changed before or after the merge.
-/

namespace MpvmApp

variable {κ α β : Type*} [DecidableEq κ]

/-- The dictionary after a row. -/
def mergeRow (key : β → κ) (add : Option α → β → Option α) (d : Dict κ α) (row : β) :
    Option (Dict κ α) :=
  (add (d.get? (key row)) row).map fun value => d.set (key row) value

/-- The dictionary after some rows. -/
def mergeRows (key : β → κ) (add : Option α → β → Option α) (d : Dict κ α) (rows : List β) :
    Option (Dict κ α) :=
  rows.foldlM (mergeRow key add) d

/-- The entry after some rows of one key. -/
def mergeEntry (add : Option α → β → Option α) (entry : Option α) (rows : List β) :
    Option (Option α) :=
  rows.foldlM (fun entry row => (add entry row).map some) entry

variable {key : β → κ} {add : Option α → β → Option α}

theorem mergeEntry_nil (entry : Option α) :
    mergeEntry add entry [] = some entry :=
  rfl

theorem mergeEntry_cons (entry : Option α) (row : β) (rows : List β) :
    mergeEntry add entry (row :: rows) =
      (add entry row).bind fun value => mergeEntry add (some value) rows := by
  unfold mergeEntry
  rw [List.foldlM_cons]
  cases add entry row <;> rfl

/-- The entry of a key is made of the rows with this key. -/
theorem get?_mergeRows {rows : List β} {d d' : Dict κ α} (h : mergeRows key add d rows = some d')
    (k : κ) :
    mergeEntry add (d.get? k) (rows.filter fun row => decide (key row = k)) = some (d'.get? k) := by
  induction rows generalizing d with
  | nil =>
      cases h
      rfl
  | cons row rows ih =>
      unfold mergeRows at h
      rw [List.foldlM_cons] at h
      obtain ⟨next, hnext, hrest⟩ := Option.bind_eq_some_iff.1 h
      obtain ⟨value, hvalue, rfl⟩ := Option.map_eq_some_iff.1 hnext
      have hget := ih hrest
      rw [Dict.get?_set] at hget
      rw [List.filter_cons]
      by_cases hk : key row = k
      · subst hk
        rw [if_pos rfl] at hget
        rw [if_pos (decide_eq_true rfl), mergeEntry_cons, hvalue]
        exact hget
      · rw [if_neg (Ne.symm hk)] at hget
        rw [if_neg (by rw [decide_eq_true_eq]; exact hk)]
        exact hget

/-- The merge fails when that of the rows of some key does. -/
theorem mergeRows_isSome_iff {rows : List β} {d : Dict κ α} :
    (mergeRows key add d rows).isSome = true ↔
      ∀ k, (mergeEntry add (d.get? k) (rows.filter fun row => decide (key row = k))).isSome =
        true := by
  constructor
  · intro h k
    obtain ⟨d', hd'⟩ := Option.isSome_iff_exists.1 h
    rw [get?_mergeRows hd' k]
    rfl
  · induction rows generalizing d with
    | nil => exact fun _ => rfl
    | cons row rows ih =>
        intro h
        have hrow := h (key row)
        rw [List.filter_cons, if_pos (decide_eq_true rfl), mergeEntry_cons] at hrow
        unfold mergeRows
        rw [List.foldlM_cons]
        cases hvalue : add (d.get? (key row)) row with
        | none =>
            rw [hvalue] at hrow
            cases hrow
        | some value =>
            have hnext : mergeRow key add d row = some (d.set (key row) value) := by
              unfold mergeRow
              rw [hvalue, Option.map_some]
            rw [hnext]
            refine ih fun k => ?_
            rw [Dict.get?_set]
            by_cases hk : k = key row
            · rw [if_pos hk]
              rw [hvalue] at hrow
              rw [hk]
              exact hrow
            · rw [if_neg hk]
              have hk' := h k
              rw [List.filter_cons, if_neg (by rw [decide_eq_true_eq]; exact Ne.symm hk)] at hk'
              exact hk'

/-- A value can be changed before or after it is stored. -/
theorem mapValues_set (d : Dict κ α) (f : α → α) (k : κ) (v : α) :
    (d.set k v).mapValues f = (d.mapValues f).set k (f v) := by
  have hkeys : (d.mapValues f).items.map Prod.fst = d.items.map Prod.fst := by
    unfold Dict.mapValues
    rw [List.map_map]
    exact List.map_congr_left fun _ _ => rfl
  ext1
  unfold Dict.set
  dsimp only
  rw [hkeys]
  unfold Dict.mapValues
  dsimp only
  by_cases hk : k ∈ d.items.map Prod.fst
  · rw [if_pos hk, if_pos hk, List.map_map, List.map_map]
    refine List.map_congr_left fun item _ => ?_
    by_cases hitem : item.1 = k
    · simp [hitem]
    · simp [hitem]
  · rw [if_neg hk, if_neg hk, List.map_append]
    rfl

/-- Entries can be changed before or after the merge. -/
theorem mergeRows_mapValues {add' : Option α → β → Option α} {f : α → α}
    (h : ∀ entry row, (add entry row).map f = add' (entry.map f) row) (d : Dict κ α)
    (rows : List β) :
    (mergeRows key add d rows).map (fun merged => merged.mapValues f) =
      mergeRows key add' (d.mapValues f) rows := by
  induction rows generalizing d with
  | nil => rfl
  | cons row rows ih =>
      have hrow := h (d.get? (key row)) row
      rw [← Dict.get?_mapValues] at hrow
      unfold mergeRows at ih ⊢
      rw [List.foldlM_cons, List.foldlM_cons]
      unfold mergeRow at ih ⊢
      rw [← hrow]
      cases add (d.get? (key row)) row with
      | none => rfl
      | some value =>
          have hnext := ih (d.set (key row) value)
          rw [mapValues_set] at hnext
          exact hnext

end MpvmApp
