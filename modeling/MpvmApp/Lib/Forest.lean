import Mathlib.Logic.Relation
import Mathlib.Logic.Function.Basic

/-!
# Parent relations without cycles

A hierarchy is given by the parent of each node, if it has one.  A node may be moved
under another one without a cycle exactly when it is not among the ancestors of its new
parent.

Main results:

- Theorem `acyclic_update_some_iff`: which moves keep a hierarchy free of cycles.
- Theorem `acyclic_update_none`: a node may always become a root.
-/

namespace MpvmApp
namespace Forest

open Relation

variable {α : Type*}

/-- The second node is the parent of the first. -/
def Edge (parent : α → Option α) (a b : α) : Prop :=
  parent a = some b

/-- No node is an ancestor of itself. -/
def Acyclic (parent : α → Option α) : Prop :=
  ∀ a, ¬ TransGen (Edge parent) a a

section Update

variable [DecidableEq α] {parent : α → Option α} {g p : α}

/-- The parents after a node has got another one. -/
theorem edge_update_iff (next : Option α) (a b : α) :
    Edge (Function.update parent g next) a b ↔
      (a = g ∧ next = some b) ∨ (a ≠ g ∧ Edge parent a b) := by
  by_cases h : a = g
  · simp [Edge, h]
  · simp [Edge, h]

/-- A path to the moved node is still there after the move. -/
theorem reflTransGen_update (next : Option α) {a : α} (h : ReflTransGen (Edge parent) a g) :
    ReflTransGen (Edge (Function.update parent g next)) a g := by
  induction h using ReflTransGen.head_induction_on with
  | refl => exact ReflTransGen.refl
  | @head a c hedge _ ih =>
      by_cases ha : a = g
      · rw [ha]
      · exact ih.head ((edge_update_iff next a c).2 (Or.inr ⟨ha, hedge⟩))

/-- A path after a move is an old path, or it leads to the moved node and on from its parent. -/
theorem transGen_update {a b : α}
    (h : TransGen (Edge (Function.update parent g (some p))) a b) :
    TransGen (Edge parent) a b ∨
      (ReflTransGen (Edge parent) a g ∧ ReflTransGen (Edge parent) p b) := by
  induction h with
  | single hedge =>
      rcases (edge_update_iff _ _ _).1 hedge with ⟨rfl, hp⟩ | ⟨-, hold⟩
      · cases hp
        exact Or.inr ⟨ReflTransGen.refl, ReflTransGen.refl⟩
      · exact Or.inl (TransGen.single hold)
  | tail _ hedge ih =>
      rcases (edge_update_iff _ _ _).1 hedge with ⟨rfl, hp⟩ | ⟨-, hold⟩
      · cases hp
        rcases ih with hpath | ⟨hto, -⟩
        · exact Or.inr ⟨hpath.to_reflTransGen, ReflTransGen.refl⟩
        · exact Or.inr ⟨hto, ReflTransGen.refl⟩
      · rcases ih with hpath | ⟨hto, hfrom⟩
        · exact Or.inl (hpath.tail hold)
        · exact Or.inr ⟨hto, hfrom.tail hold⟩

/-- Which moves keep a hierarchy free of cycles. -/
theorem acyclic_update_some_iff (h : Acyclic parent) :
    Acyclic (Function.update parent g (some p)) ↔ ¬ ReflTransGen (Edge parent) p g := by
  constructor
  · intro hacyclic hpath
    have hedge : Edge (Function.update parent g (some p)) g p :=
      (edge_update_iff _ _ _).2 (Or.inl ⟨rfl, rfl⟩)
    exact hacyclic g ((TransGen.single hedge).trans_left (reflTransGen_update _ hpath))
  · intro hpath a hcycle
    rcases transGen_update hcycle with hold | ⟨hto, hfrom⟩
    · exact h a hold
    · exact hpath (hfrom.trans hto)

/-- A node may always become a root. -/
theorem acyclic_update_none (h : Acyclic parent) :
    Acyclic (Function.update parent g none) := by
  intro a hcycle
  refine h a (TransGen.mono (fun x y hedge => ?_) a a hcycle)
  rcases (edge_update_iff _ _ _).1 hedge with ⟨-, hnone⟩ | ⟨-, hold⟩
  · cases hnone
  · exact hold

end Update

end Forest
end MpvmApp
