import Mathlib.Data.List.Sort
import Mathlib.Data.Prod.Lex
import Mathlib.Order.OrderDual
import Mathlib.Order.WithBot

/-!
# Rows sorted by a key

A query orders its rows by a key from a linear order.  When the key tells the rows apart, the
order does not depend on the order in which the rows are found.

Main definitions:

- Definition `sortOn`: the rows in the order of their keys.
- Definition `nullsLast`: a key that may be missing, with the missing ones last.

Main results:

- Theorem `sortOn_map`: rows can be changed before or after they are sorted.
- Theorem `sortOn_eq_of_perm`: two lists of the same rows are sorted into the same list.
-/

namespace MpvmApp

universe u v w

/-- `NULLS LAST`. -/
def nullsLast {κ : Type v} (key : Option κ) : WithTop κ :=
  key

theorem nullsLast_injective {κ : Type v} :
    Function.Injective (nullsLast : Option κ → WithTop κ) :=
  fun _ _ h => h

variable {α : Type u} {β : Type w} {κ : Type v} [LinearOrder κ]

/-- `ORDER BY key`. -/
def sortOn (key : α → κ) (rows : List α) : List α :=
  rows.insertionSort fun a b => key a ≤ key b

theorem perm_sortOn (key : α → κ) (rows : List α) :
    (sortOn key rows).Perm rows :=
  List.perm_insertionSort _ rows

@[simp]
theorem mem_sortOn {key : α → κ} {rows : List α} {a : α} :
    a ∈ sortOn key rows ↔ a ∈ rows :=
  (perm_sortOn key rows).mem_iff

@[simp]
theorem length_sortOn (key : α → κ) (rows : List α) :
    (sortOn key rows).length = rows.length :=
  (perm_sortOn key rows).length_eq

/-- The keys of sorted rows ascend. -/
theorem pairwise_sortOn (key : α → κ) (rows : List α) :
    (sortOn key rows).Pairwise fun a b => key a ≤ key b := by
  have htotal : Std.Total fun a b : α => key a ≤ key b := ⟨fun a b => le_total (key a) (key b)⟩
  have htrans : IsTrans α fun a b => key a ≤ key b := ⟨fun _ _ _ => le_trans⟩
  exact List.pairwise_insertionSort _ rows

/-- Rows can be changed before or after they are sorted. -/
theorem sortOn_map (key : β → κ) (f : α → β) (rows : List α) :
    sortOn key (rows.map f) = (sortOn (fun a => key (f a)) rows).map f :=
  (List.map_insertionSort _ _ f rows fun _ _ _ _ => Iff.rfl).symm

/-- Rows whose keys ascend are left as they are. -/
theorem sortOn_eq_self {key : α → κ} {rows : List α}
    (h : rows.Pairwise fun a b => key a ≤ key b) :
    sortOn key rows = rows :=
  h.insertionSort_eq

/-- Two lists of the same rows are sorted into the same list when the key tells the rows apart. -/
theorem sortOn_eq_of_perm {key : α → κ} {rows rows' : List α} (hperm : rows.Perm rows')
    (hkey : ∀ a ∈ rows, ∀ b ∈ rows, key a = key b → a = b) :
    sortOn key rows = sortOn key rows' := by
  refine List.Perm.eq_of_pairwise ?_ (pairwise_sortOn key rows) (pairwise_sortOn key rows') ?_
  · intro a b ha hb hab hba
    have hb' : b ∈ rows := hperm.mem_iff.2 (mem_sortOn.1 hb)
    exact hkey a (mem_sortOn.1 ha) b hb' (le_antisymm hab hba)
  · exact (perm_sortOn key rows).trans (hperm.trans (perm_sortOn key rows').symm)

/-- Selecting rows before or after one of them is inserted. -/
theorem filter_orderedInsert (key : α → κ) (p : α → Bool) (a : α) {rows : List α}
    (h : rows.Pairwise fun a b => key a ≤ key b) :
    (rows.orderedInsert (fun a b => key a ≤ key b) a).filter p =
      if p a then (rows.filter p).orderedInsert (fun a b => key a ≤ key b) a
      else rows.filter p := by
  induction rows with
  | nil => by_cases ha : p a = true <;> simp [ha]
  | cons b rows ih =>
      rw [List.pairwise_cons] at h
      rw [List.orderedInsert_cons]
      by_cases hab : key a ≤ key b
      · rw [if_pos hab]
        have hfirst : ∀ c ∈ (b :: rows).filter p, key a ≤ key c := by
          intro c hc
          rcases List.mem_cons.1 (List.mem_filter.1 hc).1 with rfl | hrest
          · exact hab
          · exact le_trans hab (h.1 c hrest)
        have hinsert : ((b :: rows).filter p).orderedInsert (fun a b => key a ≤ key b) a =
            a :: (b :: rows).filter p := by
          cases hrows : (b :: rows).filter p with
          | nil => rfl
          | cons c rest =>
              have hac : key a ≤ key c := hfirst c (hrows ▸ List.mem_cons_self)
              rw [List.orderedInsert_cons, if_pos hac]
        rw [List.filter_cons, hinsert]
      · rw [if_neg hab, List.filter_cons, ih h.2]
        by_cases ha : p a = true
        · by_cases hb : p b = true
          · simp [ha, hb, List.orderedInsert_cons, hab]
          · simp [ha, hb]
        · simp [ha, List.filter_cons]

/-- Rows can be selected before or after they are sorted. -/
theorem filter_sortOn (key : α → κ) (p : α → Bool) (rows : List α) :
    (sortOn key rows).filter p = sortOn key (rows.filter p) := by
  induction rows with
  | nil => rfl
  | cons a rows ih =>
      have hsorted := pairwise_sortOn key rows
      unfold sortOn at hsorted ih ⊢
      rw [List.insertionSort_cons, filter_orderedInsert key p a hsorted, ih, List.filter_cons]
      split
      · rw [List.insertionSort_cons]
      · rfl

end MpvmApp
