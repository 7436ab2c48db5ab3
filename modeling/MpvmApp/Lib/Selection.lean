import Mathlib.Data.List.MinMax

/-!
# Selections of the best candidate

Every item has a list of candidates, and the one that ranks first is selected.  Ranks
are linearly ordered and tell the candidates apart, so that a selection depends on the
candidates and not on their order.

Main definitions:

- `best`: the candidate that ranks first.

Main results:

- Theorem `best_eq_some_iff`: the selected candidate is the least one.
- Theorem `best_frame`: a selection stays when candidates are lost, but for the
  selected one, and none is gained.
-/

namespace MpvmApp

universe u v

variable {α : Type u} {β : Type v} [LinearOrder β] {rank : α → β} {l l' : List α} {a c : α}

/-- The candidate that ranks first. -/
def best (rank : α → β) (l : List α) : Option α :=
  l.argmin rank

@[simp]
theorem best_eq_none_iff :
    best rank l = none ↔ l = [] :=
  List.argmin_eq_none

theorem mem_of_best (h : best rank l = some c) :
    c ∈ l :=
  List.argmin_mem h

theorem best_le (h : best rank l = some c) (ha : a ∈ l) :
    rank c ≤ rank a :=
  List.le_of_mem_argmin ha h

theorem exists_best (rank : α → β) (ha : a ∈ l) :
    ∃ c, best rank l = some c := by
  apply Option.ne_none_iff_exists'.1
  rw [ne_eq, best_eq_none_iff]
  exact List.ne_nil_of_mem ha

/-- The selected candidate is the one that ranks before all others. -/
theorem best_eq_some_iff (hrank : Function.Injective rank) :
    best rank l = some c ↔ c ∈ l ∧ ∀ a ∈ l, rank c ≤ rank a := by
  constructor
  · intro h
    exact ⟨mem_of_best h, fun a ha => best_le h ha⟩
  · rintro ⟨hc, hle⟩
    obtain ⟨c', hc'⟩ := exists_best rank hc
    have heq : rank c' = rank c := le_antisymm (best_le hc' hc) (hle c' (mem_of_best hc'))
    rw [hc', hrank heq]

/-- A selection depends on the set of the candidates. -/
theorem best_congr (hrank : Function.Injective rank) (h : ∀ a, a ∈ l ↔ a ∈ l') :
    best rank l = best rank l' := by
  cases hbest : best rank l' with
  | none =>
      rw [best_eq_none_iff] at hbest ⊢
      subst hbest
      exact List.eq_nil_iff_forall_not_mem.2 fun a ha => by simpa using (h a).1 ha
  | some c =>
      rw [best_eq_some_iff hrank] at hbest ⊢
      exact ⟨(h c).2 hbest.1, fun a ha => hbest.2 a ((h a).1 ha)⟩

/-- A selection stays when only candidates other than the selected one are lost. -/
theorem best_frame (hrank : Function.Injective rank) (hfewer : ∀ a ∈ l', a ∈ l)
    (hkept : ∀ c, best rank l = some c → c ∈ l') :
    best rank l' = best rank l := by
  cases hbest : best rank l with
  | none =>
      rw [best_eq_none_iff] at hbest ⊢
      subst hbest
      exact List.eq_nil_iff_forall_not_mem.2 fun a ha => by simpa using hfewer a ha
  | some c =>
      rw [best_eq_some_iff hrank]
      exact ⟨hkept c hbest, fun a ha => best_le hbest (hfewer a ha)⟩

end MpvmApp
