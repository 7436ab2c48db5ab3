import Mathlib.Data.Nat.Basic
import Mathlib.Tactic.Common

/-!
# Loops with fuel

A loop repeats a step that either ends it with a result or goes on in another state.  With fuel it
is a total function; the rules below say what it keeps and when enough fuel gives a result.

Main results:

- Theorem `loop_add`: more fuel gives the same result.
- Theorem `loop_invariant`: what every step keeps holds when the loop ends.
- Theorem `loop_ends`: a loop ends when a measure decreases from some iteration on.
-/

namespace MpvmApp
namespace Loops

universe u v

variable {σ : Type u} {ρ : Type v}

/-- The result of a loop, unless the fuel runs out. -/
def loop (step : σ → ρ ⊕ σ) : Nat → σ → Option ρ
  | 0, _ => none
  | fuel + 1, s =>
      match step s with
      | .inl result => some result
      | .inr next => loop step fuel next

variable {step : σ → ρ ⊕ σ}

theorem loop_done {s : σ} {result : ρ} (h : step s = .inl result) (fuel : Nat) :
    loop step (fuel + 1) s = some result := by
  rw [loop, h]

theorem loop_next {s next : σ} (h : step s = .inr next) (fuel : Nat) :
    loop step (fuel + 1) s = loop step fuel next := by
  rw [loop, h]

/-- More fuel gives the same result. -/
theorem loop_add {fuel : Nat} {s : σ} {result : ρ} (h : loop step fuel s = some result)
    (more : Nat) :
    loop step (fuel + more) s = some result := by
  induction fuel generalizing s with
  | zero => cases h
  | succ fuel ih =>
      rw [Nat.add_right_comm]
      cases hstep : step s with
      | inl final =>
          rw [loop_done hstep] at h ⊢
          exact h
      | inr next =>
          rw [loop_next hstep] at h ⊢
          exact ih h

/-- What every step keeps holds when the loop ends. -/
theorem loop_invariant {inv : σ → Prop} {post : ρ → Prop}
    (hnext : ∀ s next, inv s → step s = .inr next → inv next)
    (hdone : ∀ s result, inv s → step s = .inl result → post result)
    {fuel : Nat} {s : σ} {result : ρ} (hs : inv s) (h : loop step fuel s = some result) :
    post result := by
  induction fuel generalizing s with
  | zero => cases h
  | succ fuel ih =>
      cases hstep : step s with
      | inl final =>
          rw [loop_done hstep] at h
          cases h
          exact hdone s result hs hstep
      | inr next =>
          rw [loop_next hstep] at h
          exact ih (hnext s next hs hstep) h

/-- A loop ends when a measure decreases in every step of its states. -/
theorem loop_ends_of_measure {inv : σ → Prop} (measure : σ → Nat)
    (hnext : ∀ s next, inv s → step s = .inr next → inv next ∧ measure next < measure s)
    {s : σ} (hs : inv s) :
    ∃ fuel result, loop step fuel s = some result := by
  induction hm : measure s using Nat.strong_induction_on generalizing s with
  | _ m ih =>
      cases hstep : step s with
      | inl result => exact ⟨1, result, loop_done hstep 0⟩
      | inr next =>
          obtain ⟨hinv, hless⟩ := hnext s next hs hstep
          obtain ⟨fuel, result, hloop⟩ := ih (measure next) (hm ▸ hless) hinv rfl
          exact ⟨fuel + 1, result, (loop_next hstep fuel).trans hloop⟩

/-- A loop ends when a measure decreases from some iteration on. -/
theorem loop_ends (iteration measure : σ → Nat)
    (hcount : ∀ s next, step s = .inr next → iteration next = iteration s + 1) (bound : Nat)
    (hless : ∀ s next, bound ≤ iteration s → step s = .inr next → measure next < measure s)
    (s : σ) :
    ∃ fuel result, loop step fuel s = some result := by
  induction hleft : bound - iteration s generalizing s with
  | zero =>
      have hbound : bound ≤ iteration s := Nat.sub_eq_zero_iff_le.1 hleft
      refine @loop_ends_of_measure _ _ step (fun s => bound ≤ iteration s) measure ?_ s hbound
      intro s next hs hstep
      rw [hcount s next hstep]
      exact ⟨Nat.le_succ_of_le hs, hless s next hs hstep⟩
  | succ left ih =>
      cases hstep : step s with
      | inl result => exact ⟨1, result, loop_done hstep 0⟩
      | inr next =>
          have hnext : bound - iteration next = left := by
            rw [hcount s next hstep]
            omega
          obtain ⟨fuel, result, hloop⟩ := ih next hnext
          exact ⟨fuel + 1, result, (loop_next hstep fuel).trans hloop⟩

end Loops
end MpvmApp
