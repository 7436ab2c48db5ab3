import Mathlib.Data.List.Enum
import Mathlib.Data.List.Perm.Basic
import Mathlib.Data.List.Nodup

/-!
# Numbered rows

Rows get successive numbers when they are stored, and other rows refer to them by number.

Main results:

- Theorem `zipIdx_eq_map`: the number of a row is a function of its key.
- Theorem `map_filter_zipIdx`: a choice that does not read the numbers.
- Theorem `nodup_keyOrNumber`: rows that have distinct keys, or none.
- Theorem `flatMap_filter_perm`: rows that refer to distinct keys, key by key.
-/

namespace MpvmApp

universe u v w

variable {α : Type u} {κ : Type v} {β : Type w}

/-- The number of a row is a function of its key, when the keys are distinct. -/
theorem zipIdx_eq_map [BEq κ] [LawfulBEq κ] {key : α → κ} {rows : List α}
    (h : (rows.map key).Nodup) (base : Nat) :
    rows.zipIdx base = rows.map fun a => (a, base + (rows.map key).idxOf (key a)) := by
  induction rows generalizing base with
  | nil => rfl
  | cons a rows ih =>
      rw [List.map_cons, List.nodup_cons] at h
      rw [List.zipIdx_cons, ih h.2, List.map_cons, List.map_cons]
      congr 1
      · rw [List.idxOf_cons_self, Nat.add_zero]
      · refine List.map_congr_left fun b hb => ?_
        have hne : key a ≠ key b := by
          intro heq
          exact h.1 (List.mem_map.2 ⟨b, hb, heq.symm⟩)
        rw [List.idxOf_cons_ne _ hne]
        congr 1
        omega

/-- A choice that does not read the numbers. -/
theorem map_filter_zipIdx (rows : List α) (base : Nat) (p : α → Bool) (f : α → β) :
    ((rows.zipIdx base).filter fun numbered => p numbered.1).map (fun numbered => f numbered.1) =
      (rows.filter p).map f := by
  have hmap : ((rows.zipIdx base).filter fun numbered => p numbered.1).map Prod.fst =
      rows.filter p := by
    have h := List.filter_map (f := Prod.fst) (p := p) (l := rows.zipIdx base)
    rw [List.zipIdx_map_fst] at h
    exact h.symm
  rw [← hmap, List.map_map]
  rfl

theorem map_zipIdx_fst (rows : List α) (base : Nat) (f : α → β) :
    (rows.zipIdx base).map (fun numbered => f numbered.1) = rows.map f := by
  have h := map_filter_zipIdx rows base (fun _ => true) f
  rwa [List.filter_eq_self.2 fun _ _ => rfl, List.filter_eq_self.2 fun _ _ => rfl] at h

/-- The key that a row has, or else its number. -/
def keyOrNumber (key : α → Option β) (numbered : α × Nat) : β ⊕ Nat :=
  match key numbered.1 with
  | some b => .inl b
  | none => .inr numbered.2

/-- Rows with distinct keys, some of them without one, are told apart by key or number. -/
theorem nodup_keyOrNumber {key : α → Option β} {rows : List α} (h : (rows.filterMap key).Nodup)
    (base : Nat) :
    ((rows.zipIdx base).map (keyOrNumber key)).Nodup := by
  induction rows generalizing base with
  | nil => exact List.nodup_nil
  | cons a rows ih =>
      rw [List.zipIdx_cons, List.map_cons, List.nodup_cons]
      cases hkey : key a with
      | none =>
          rw [List.filterMap_cons_none hkey] at h
          refine ⟨?_, ih h (base + 1)⟩
          intro hmem
          obtain ⟨numbered, hnumbered, heq⟩ := List.mem_map.1 hmem
          have hle := List.le_snd_of_mem_zipIdx hnumbered
          unfold keyOrNumber at heq
          rw [hkey] at heq
          split at heq
          · cases heq
          · have hsame : numbered.2 = base := Sum.inr.inj heq
            omega
      | some b =>
          rw [List.filterMap_cons_some hkey, List.nodup_cons] at h
          refine ⟨?_, ih h.2 (base + 1)⟩
          intro hmem
          obtain ⟨numbered, hnumbered, heq⟩ := List.mem_map.1 hmem
          have hrow := List.fst_mem_of_mem_zipIdx hnumbered
          unfold keyOrNumber at heq
          rw [hkey] at heq
          split at heq
          · rename_i b' hb'
            have hsame : b' = b := Sum.inl.inj heq
            exact h.1 (List.mem_filterMap.2 ⟨numbered.1, hrow, hb'.trans (congrArg some hsame)⟩)
          · cases heq

/-- Rows that refer to distinct keys, key by key. -/
theorem flatMap_filter_perm [DecidableEq κ] {key : α → κ} {keys : List κ} {rows : List α}
    (hnodup : keys.Nodup) (hcover : ∀ a ∈ rows, key a ∈ keys) :
    (keys.flatMap fun k => rows.filter fun a => decide (key a = k)).Perm rows := by
  induction keys generalizing rows with
  | nil =>
      cases rows with
      | nil => exact .refl _
      | cons a rows => exact absurd (hcover a List.mem_cons_self) List.not_mem_nil
  | cons k keys ih =>
      rw [List.nodup_cons] at hnodup
      rw [List.flatMap_cons]
      have hrest : (keys.flatMap fun k' => rows.filter fun a => decide (key a = k')) =
          keys.flatMap fun k' =>
            (rows.filter fun a => !decide (key a = k)).filter fun a => decide (key a = k') := by
        refine List.flatMap_congr fun k' hk' => ?_
        rw [List.filter_filter]
        refine List.filter_congr fun a _ => ?_
        by_cases ha : key a = k'
        · have hne : key a ≠ k := by
            rintro rfl
            exact hnodup.1 (ha ▸ hk')
          simp [ha, ha ▸ hne]
        · simp [ha]
      have hkeys : ∀ a ∈ rows.filter fun a => !decide (key a = k), key a ∈ keys := by
        intro a ha
        have hmem := List.mem_filter.1 ha
        refine (List.mem_cons.1 (hcover a hmem.1)).resolve_left ?_
        simpa using hmem.2
      rw [hrest]
      exact ((ih hnodup.2 hkeys).append_left _).trans (List.filter_append_perm _ _)

end MpvmApp
