import Mathlib.Data.List.Basic

/-!
# Trails of transitions

A trail is a list of transitions, each from one place to another.  It leads from
a start to an end when every transition begins where the previous one ended.

Main results:

- Theorem `leads_append`: a trail leads through the end of its first part.
- Theorem `Leads.append`: two trails that meet are one trail.
-/

namespace MpvmApp
namespace Trail

variable {α : Type*}

/-- The transitions lead from `s` to `t`. -/
def Leads : α → List (α × α) → α → Prop
  | s, [], t => s = t
  | s, move :: moves, t => move.1 = s ∧ Leads move.2 moves t

instance [DecidableEq α] : (s : α) → (moves : List (α × α)) → (t : α) →
    Decidable (Leads s moves t)
  | s, [], t => inferInstanceAs (Decidable (s = t))
  | s, move :: moves, t =>
      have : Decidable (Leads move.2 moves t) := instDecidableLeadsOfDecidableEq move.2 moves t
      inferInstanceAs (Decidable (move.1 = s ∧ Leads move.2 moves t))

@[simp]
theorem leads_nil {s t : α} :
    Leads s [] t ↔ s = t :=
  Iff.rfl

@[simp]
theorem leads_cons {s t : α} {move : α × α} {moves : List (α × α)} :
    Leads s (move :: moves) t ↔ move.1 = s ∧ Leads move.2 moves t :=
  Iff.rfl

/-- A trail leads through the end of its first part. -/
theorem leads_append {s u : α} {moves rest : List (α × α)} :
    Leads s (moves ++ rest) u ↔ ∃ t, Leads s moves t ∧ Leads t rest u := by
  induction moves generalizing s with
  | nil => simp
  | cons move moves ih => simp [ih, and_assoc]

/-- Two trails that meet are one trail. -/
theorem Leads.append {s t u : α} {moves rest : List (α × α)} (h : Leads s moves t)
    (h' : Leads t rest u) :
    Leads s (moves ++ rest) u :=
  leads_append.2 ⟨t, h, h'⟩

end Trail
end MpvmApp
