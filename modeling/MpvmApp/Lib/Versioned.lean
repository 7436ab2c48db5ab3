import Mathlib.Order.Basic

/-!
# Rows with a version

Optimistic locking compares the version that a writer has read with the stored
one.  It protects the writer when every write either leaves the row as it is or
raises its version.

Main results:

- Theorem `Later.between`: a row that is found again was the same in between.
-/

namespace MpvmApp
namespace Versioned

variable {α β : Type*} [Preorder β] {version : α → β}

/-- A stored row stays, and it stays the same or its version rises. -/
def Later (version : α → β) (a b : Option α) : Prop :=
  ∀ x, a = some x → ∃ y, b = some y ∧ (y = x ∨ version x < version y)

theorem Later.refl (a : Option α) :
    Later version a a :=
  fun x hx => ⟨x, hx, Or.inl rfl⟩

theorem Later.trans {a b c : Option α} (hab : Later version a b) (hbc : Later version b c) :
    Later version a c := by
  intro x hx
  obtain ⟨y, hy, hxy⟩ := hab x hx
  obtain ⟨z, hz, hyz⟩ := hbc y hy
  refine ⟨z, hz, ?_⟩
  rcases hxy with rfl | hlt
  · exact hyz
  · rcases hyz with rfl | hlt'
    · exact Or.inr hlt
    · exact Or.inr (hlt.trans hlt')

/-- A row appears where there was none. -/
theorem Later.of_none (b : Option α) :
    Later version none b := by
  intro x hx
  cases hx

theorem Later.of_lt {x y : α} (h : version x < version y) :
    Later version (some x) (some y) := by
  intro x' hx
  cases hx
  exact ⟨y, rfl, Or.inr h⟩

/-- A row that is found again was the same in between. -/
theorem Later.between {x : α} {b : Option α} (h : Later version (some x) b)
    (h' : Later version b (some x)) :
    b = some x := by
  obtain ⟨y, hy, hxy⟩ := h x rfl
  obtain ⟨z, hz, hyz⟩ := h' y hy
  cases hz
  rcases hxy with rfl | hlt
  · exact hy
  · rcases hyz with rfl | hlt'
    · exact hy
    · exact absurd (hlt.trans hlt') (lt_irrefl _)

end Versioned
end MpvmApp
