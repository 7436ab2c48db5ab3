import Mathlib.Data.List.Basic

/-!
# Runs of a system whose steps are functions

A system is a step function of a state and an event.  A run takes the events of
a list one by one.  The rules below turn a fact about one step into a fact
about every state of a run.

Main results:

- Theorem `Along.invariant`: a property that every permitted step keeps
  holds after every permitted run.
- Theorem `Along.relation`: a reflexive and transitive relation that every
  permitted step respects relates the two ends of a permitted run.
- Theorem `Along.ensures`: what an invariant ensures of the permitted steps holds
  of every step of a permitted run.
-/

namespace MpvmApp
namespace Runs

variable {σ ε : Type*}

/-- The state in which a run of the events `es` from `s` ends. -/
def run (step : σ → ε → σ) (s : σ) (es : List ε) : σ :=
  es.foldl step s

/-- Every event of the run meets `ok` in the state in which it is taken. -/
def Along (step : σ → ε → σ) (ok : σ → ε → Prop) : σ → List ε → Prop
  | _, [] => True
  | s, e :: es => ok s e ∧ Along step ok (step s e) es

instance instDecidableAlong {ok : σ → ε → Prop} [∀ s e, Decidable (ok s e)] (step : σ → ε → σ) :
    (s : σ) → (es : List ε) → Decidable (Along step ok s es)
  | _, [] => isTrue trivial
  | s, e :: es =>
      have : Decidable (Along step ok (step s e) es) := instDecidableAlong step (step s e) es
      inferInstanceAs (Decidable (ok s e ∧ Along step ok (step s e) es))

section Run

variable {step : σ → ε → σ} {ok ok' : σ → ε → Prop}

@[simp]
theorem run_nil (s : σ) :
    run step s [] = s :=
  rfl

@[simp]
theorem run_cons (s : σ) (e : ε) (es : List ε) :
    run step s (e :: es) = run step (step s e) es :=
  rfl

@[simp]
theorem run_append (s : σ) (es fs : List ε) :
    run step s (es ++ fs) = run step (run step s es) fs := by
  simp [run]

@[simp]
theorem along_nil (s : σ) :
    Along step ok s [] :=
  trivial

@[simp]
theorem along_cons (s : σ) (e : ε) (es : List ε) :
    Along step ok s (e :: es) ↔ ok s e ∧ Along step ok (step s e) es :=
  Iff.rfl

/-- A run is permitted exactly when its first part is, and its rest from there. -/
theorem along_append (s : σ) (es fs : List ε) :
    Along step ok s (es ++ fs) ↔
      Along step ok s es ∧ Along step ok (run step s es) fs := by
  induction es generalizing s with
  | nil => simp
  | cons e es ih => simp [ih, and_assoc]

/-- A condition that holds everywhere permits every run. -/
theorem along_of_forall (h : ∀ s e, ok s e) (s : σ) (es : List ε) :
    Along step ok s es := by
  induction es generalizing s with
  | nil => trivial
  | cons e es ih => exact ⟨h s e, ih _⟩

/-- Permitted runs stay permitted under a weaker condition. -/
theorem Along.mono (h : ∀ s e, ok s e → ok' s e) {s : σ} {es : List ε}
    (hrun : Along step ok s es) :
    Along step ok' s es := by
  induction es generalizing s with
  | nil => trivial
  | cons e es ih => exact ⟨h _ _ hrun.1, ih hrun.2⟩

/--
Two conditions that agree wherever an invariant holds permit the same runs, when
the invariant survives the permitted steps.
-/
theorem along_congr {inv : σ → Prop} (hstep : ∀ s e, inv s → ok s e → inv (step s e))
    (hiff : ∀ s e, inv s → (ok s e ↔ ok' s e)) {s : σ} (hs : inv s) (es : List ε) :
    Along step ok s es ↔ Along step ok' s es := by
  induction es generalizing s with
  | nil => exact Iff.rfl
  | cons e es ih =>
      rw [along_cons, along_cons, ← hiff s e hs]
      exact and_congr_right fun hok => ih (hstep s e hs hok)

/-- The invariant rule: what every permitted step keeps, a permitted run keeps. -/
theorem Along.invariant {inv : σ → Prop}
    (hstep : ∀ s e, inv s → ok s e → inv (step s e))
    {s : σ} {es : List ε} (hrun : Along step ok s es) (hs : inv s) :
    inv (run step s es) := by
  induction es generalizing s with
  | nil => exact hs
  | cons e es ih => exact ih hrun.2 (hstep s e hs hrun.1)

/-- The invariant rule for steps: what an invariant ensures of the permitted steps. -/
theorem Along.ensures {inv : σ → Prop}
    (hstep : ∀ s e, inv s → ok s e → inv (step s e))
    (hgood : ∀ s e, inv s → ok s e → ok' s e)
    {s : σ} {es : List ε} (hrun : Along step ok s es) (hs : inv s) :
    Along step ok' s es := by
  induction es generalizing s with
  | nil => trivial
  | cons e es ih => exact ⟨hgood s e hs hrun.1, ih hrun.2 (hstep s e hs hrun.1)⟩

/-- The invariant rule, after every step: what every permitted step keeps holds throughout. -/
theorem Along.throughout {inv : σ → Prop}
    (hstep : ∀ s e, inv s → ok s e → inv (step s e))
    {s : σ} {es : List ε} (hrun : Along step ok s es) (hs : inv s) :
    Along step (fun s e => inv (step s e)) s es :=
  hrun.ensures hstep hstep hs

/-- The relation rule: a preorder respected by steps relates the ends of a run. -/
theorem Along.relation {r : σ → σ → Prop} (hrefl : ∀ s, r s s)
    (htrans : ∀ {a b c}, r a b → r b c → r a c)
    (hstep : ∀ s e, ok s e → r s (step s e))
    {s : σ} {es : List ε} (hrun : Along step ok s es) :
    r s (run step s es) := by
  induction es generalizing s with
  | nil => exact hrefl s
  | cons e es ih => exact htrans (hstep s e hrun.1) (ih hrun.2)

end Run

end Runs
end MpvmApp
