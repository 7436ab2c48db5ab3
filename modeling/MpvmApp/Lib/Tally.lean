import Mathlib.Algebra.BigOperators.Group.List.Basic
import Mathlib.Algebra.GroupWithZero.Nat

/-!
# Tallies over parties

Each party of a list counts for a number, and the tally is their sum.  A step of one party changes
the tally by what this party counts for; a tally of at most one is a lock, and while one party has
it the others count for nothing under it.

Main results:

- Theorem `sum_map_set`: the tally when one party goes on.
- Theorem `sum_map_eq_zero_of_holder`: what only the holder of a lock could count for.
-/

namespace MpvmApp

universe u

variable {α : Type u} {l : List α} {i : Nat} {a b : α}

/-- A sum over a list when one item is replaced. -/
theorem sum_map_set (w : α → Nat) (h : l[i]? = some a) :
    ((l.set i b).map w).sum + w a = (l.map w).sum + w b := by
  induction l generalizing i with
  | nil => cases h
  | cons c l ih =>
      cases i with
      | zero =>
          rw [List.getElem?_cons_zero, Option.some.injEq] at h
          subst h
          rw [List.set_cons_zero, List.map_cons, List.map_cons, List.sum_cons, List.sum_cons]
          omega
      | succ i =>
          have hrest := ih (List.getElem?_cons_succ ▸ h : l[i]? = some a)
          rw [List.set_cons_succ, List.map_cons, List.map_cons, List.sum_cons, List.sum_cons]
          omega

/-- A sum over a list without one item. -/
theorem sum_map_eraseIdx (w : α → Nat) (h : l[i]? = some a) :
    ((l.eraseIdx i).map w).sum + w a = (l.map w).sum := by
  induction l generalizing i with
  | nil => cases h
  | cons c l ih =>
      cases i with
      | zero =>
          rw [List.getElem?_cons_zero, Option.some.injEq] at h
          subst h
          rw [List.eraseIdx_cons_zero, List.map_cons, List.sum_cons]
          omega
      | succ i =>
          have hrest := ih (List.getElem?_cons_succ ▸ h : l[i]? = some a)
          rw [List.eraseIdx_cons_succ, List.map_cons, List.map_cons, List.sum_cons, List.sum_cons]
          omega

/-- A sum over a list with one more item. -/
theorem sum_map_concat (w : α → Nat) (l : List α) (a : α) :
    ((l ++ [a]).map w).sum = (l.map w).sum + w a := by
  simp

/-- A sum grows with its terms. -/
theorem sum_map_le {w w' : α → Nat} (h : ∀ a, w a ≤ w' a) :
    (l.map w).sum ≤ (l.map w').sum := by
  induction l with
  | nil => exact Nat.le_refl _
  | cons a l ih =>
      have ha := h a
      rw [List.map_cons, List.map_cons, List.sum_cons, List.sum_cons]
      omega

/-- A sum is zero when no item counts. -/
theorem sum_map_eq_zero {w : α → Nat} (h : ∀ a ∈ l, w a = 0) :
    (l.map w).sum = 0 := by
  apply List.sum_eq_zero
  intro n hn
  obtain ⟨a, ha, rfl⟩ := List.mem_map.1 hn
  exact h a ha

/--
While one party has a lock, what only the holder could count for is zero if it does not count
for it.
-/
theorem sum_map_eq_zero_of_holder {w lock : α → Nat} (hle : ∀ a, w a ≤ lock a)
    (hlock : (l.map lock).sum ≤ 1) (h : l[i]? = some a) (hholds : lock a = 1) (hnot : w a = 0) :
    (l.map w).sum = 0 := by
  have hsum := sum_map_eraseIdx w h
  have hlocks := sum_map_eraseIdx lock h
  have hothers : ((l.eraseIdx i).map w).sum ≤ ((l.eraseIdx i).map lock).sum := sum_map_le hle
  omega

end MpvmApp
