import Mathlib.Data.List.Infix

/-!
# Keeping elements apart

A list is read once; an element is kept unless it meets one kept before it.  The relation
need not be transitive, so what is kept depends on the order.

Main definitions:

- `sift`: the kept elements and the ones left out.

Main results:

- Theorem `pairwise_kept`: no kept element meets an earlier kept one.
- Theorem `mem_leftOut_iff`: what is left out met an element kept before it.
- Theorem `length_kept_eq_iff`: all elements are kept exactly when none meets an earlier one.
-/

namespace MpvmApp
namespace Greedy

universe u

variable {α : Type u}

/-- One element is kept, unless it meets a kept one. -/
def siftStep (meets : α → α → Bool) (state : List α × List α) (x : α) : List α × List α :=
  if state.1.any (meets x) then (state.1, state.2 ++ [x]) else (state.1 ++ [x], state.2)

/-- The kept elements and the ones left out. -/
def sift (meets : α → α → Bool) (xs : List α) : List α × List α :=
  xs.foldl (siftStep meets) ([], [])

/-- The kept elements. -/
def kept (meets : α → α → Bool) (xs : List α) : List α :=
  (sift meets xs).1

/-- The elements left out. -/
def leftOut (meets : α → α → Bool) (xs : List α) : List α :=
  (sift meets xs).2

variable {meets : α → α → Bool}

@[simp]
theorem kept_nil :
    kept meets [] = [] :=
  rfl

@[simp]
theorem leftOut_nil :
    leftOut meets [] = [] :=
  rfl

/-- The last element is kept unless it meets a kept one. -/
theorem kept_concat (xs : List α) (x : α) :
    kept meets (xs ++ [x]) =
      if (kept meets xs).any (meets x) then kept meets xs else kept meets xs ++ [x] := by
  unfold kept sift
  rw [List.foldl_append, List.foldl_cons, List.foldl_nil, siftStep]
  split <;> rfl

/-- The last element is left out when it meets a kept one. -/
theorem leftOut_concat (xs : List α) (x : α) :
    leftOut meets (xs ++ [x]) =
      if (kept meets xs).any (meets x) then leftOut meets xs ++ [x] else leftOut meets xs := by
  unfold leftOut kept sift
  rw [List.foldl_append, List.foldl_cons, List.foldl_nil, siftStep]
  split <;> rfl

/-- The kept elements stand in their order. -/
theorem kept_sublist (xs : List α) :
    (kept meets xs).Sublist xs := by
  induction xs using List.reverseRecOn with
  | nil => exact List.Sublist.refl []
  | append_singleton xs x ih =>
      rw [kept_concat]
      by_cases hmeets : (kept meets xs).any (meets x) = true
      · rw [if_pos hmeets]
        exact ih.trans (List.sublist_append_left xs [x])
      · rw [if_neg hmeets]
        exact ih.append_right [x]

/-- No kept element meets an earlier kept one. -/
theorem pairwise_kept (xs : List α) :
    (kept meets xs).Pairwise fun y x => meets x y = false := by
  induction xs using List.reverseRecOn with
  | nil => exact List.Pairwise.nil
  | append_singleton xs x ih =>
      rw [kept_concat]
      by_cases hmeets : (kept meets xs).any (meets x) = true
      · rw [if_pos hmeets]
        exact ih
      · rw [if_neg hmeets, List.pairwise_append]
        refine ⟨ih, List.pairwise_singleton _ x, ?_⟩
        intro y hy z hz
        rw [List.mem_singleton.1 hz]
        by_contra hne
        rw [Bool.not_eq_false] at hne
        exact hmeets (List.any_eq_true.2 ⟨y, hy, hne⟩)

/-- What is kept stays kept when more elements follow. -/
theorem mem_kept_append {xs ys : List α} {x : α} (h : x ∈ kept meets xs) :
    x ∈ kept meets (xs ++ ys) := by
  induction ys using List.reverseRecOn with
  | nil => rwa [List.append_nil]
  | append_singleton ys y ih =>
      rw [← List.append_assoc, kept_concat]
      split
      · exact ih
      · exact List.mem_append_left _ ih

/-- What is left out met an element kept before it. -/
theorem mem_leftOut_iff {xs : List α} {x : α} :
    x ∈ leftOut meets xs ↔
      ∃ front back, xs = front ++ x :: back ∧ ∃ y ∈ kept meets front, meets x y = true := by
  induction xs using List.reverseRecOn with
  | nil => simp
  | append_singleton xs z ih =>
      rw [leftOut_concat]
      constructor
      · intro hx
        have hcases : x ∈ leftOut meets xs ∨ (x = z ∧ (kept meets xs).any (meets x) = true) := by
          split at hx
          · rename_i hmeets
            rcases List.mem_append.1 hx with hold | hnew
            · exact .inl hold
            · have hxz := List.mem_singleton.1 hnew
              exact .inr ⟨hxz, hxz ▸ hmeets⟩
          · exact .inl hx
        rcases hcases with hold | ⟨rfl, hmeets⟩
        · obtain ⟨front, back, rfl, hy⟩ := ih.1 hold
          exact ⟨front, back ++ [z], by simp, hy⟩
        · exact ⟨xs, [], rfl, List.any_eq_true.1 hmeets⟩
      · rintro ⟨front, back, hxs, y, hy, hmeets⟩
        rcases List.eq_nil_or_concat back with rfl | ⟨back, last, rfl⟩
        · obtain ⟨rfl, hlast⟩ := List.append_inj' hxs rfl
          obtain rfl : z = x := by simpa using hlast
          rw [if_pos (List.any_eq_true.2 ⟨y, hy, hmeets⟩)]
          simp
        · rw [List.concat_eq_append, ← List.cons_append, ← List.append_assoc] at hxs
          have hfront := (List.append_inj' hxs rfl).1
          have hold := ih.2 ⟨front, back, hfront, y, hy, hmeets⟩
          split
          · exact List.mem_append_left _ hold
          · exact hold

/-- A list whose elements do not meet is kept whole. -/
theorem kept_eq_self {xs : List α} (h : xs.Pairwise fun y x => meets x y = false) :
    kept meets xs = xs := by
  induction xs using List.reverseRecOn with
  | nil => rfl
  | append_singleton xs x ih =>
      rw [List.pairwise_append] at h
      have hfree : ¬ (xs.any (meets x) = true) := by
        intro hany
        obtain ⟨y, hy, hmeets⟩ := List.any_eq_true.1 hany
        rw [h.2.2 y hy x (List.mem_singleton.2 rfl)] at hmeets
        exact Bool.false_ne_true hmeets
      rw [kept_concat, ih h.1, if_neg hfree]

/-- All elements are kept exactly when none meets an earlier one. -/
theorem length_kept_eq_iff {xs : List α} :
    (kept meets xs).length = xs.length ↔ xs.Pairwise fun y x => meets x y = false := by
  constructor
  · intro hlength
    have hkept := List.Sublist.eq_of_length (kept_sublist xs) hlength
    rw [← hkept]
    exact pairwise_kept xs
  · intro hapart
    rw [kept_eq_self hapart]

end Greedy
end MpvmApp
