import Mathlib.Data.List.Basic
import Mathlib.Logic.Basic

/-!
# Patterns that cover things

A list of patterns covers what one of them covers.  When some patterns are taken out of a list,
what is left and what was taken out split the things that were covered, unless a thing is covered
by patterns of both kinds.

Main definitions:

- `Covered`: a pattern of the list covers the thing.
- `Splits`: each thing that is covered by the first list is covered by one of the others, and
  not by both.

Main results:

- Theorem `splits_filter_iff`: when the patterns that are not found split off the others.
- Theorem `Splits.filter_iff`: when more of them can be taken out.
-/

namespace MpvmApp

variable {τ η : Type*} (covers : τ → η → Prop)

/-- A pattern of the list covers the thing. -/
def Covered (patterns : List τ) (thing : η) : Prop :=
  ∃ pattern ∈ patterns, covers pattern thing

/-- What `requested` covers is covered by exactly one of the other lists. -/
def Splits (requested kept left : List τ) : Prop :=
  ∀ thing, Covered covers requested thing →
    Xor (Covered covers kept thing) (Covered covers left thing)

variable {covers}

theorem Covered.mono {patterns others : List τ} (hsub : ∀ pattern ∈ patterns, pattern ∈ others)
    {thing : η} (h : Covered covers patterns thing) : Covered covers others thing := by
  obtain ⟨pattern, hpattern, hcovers⟩ := h
  exact ⟨pattern, hsub pattern hpattern, hcovers⟩

/-- Lists that cover the same things split alike. -/
theorem splits_congr {requested kept left left' : List τ}
    (h : ∀ thing, Covered covers left thing ↔ Covered covers left' thing) :
    Splits covers requested kept left ↔ Splits covers requested kept left' := by
  unfold Splits
  exact forall_congr' fun thing => by rw [h thing]

/-- Nothing is kept, and everything is left. -/
theorem splits_nil (requested : List τ) : Splits covers requested [] requested := by
  intro thing hthing
  exact Or.inr ⟨hthing, fun hnone => by simp [Covered] at hnone⟩

variable [DecidableEq τ]

/--
The patterns that are not found are split from those that are found exactly when none of them
covers a thing of a found one.
-/
theorem splits_filter_iff {requested found : List τ} :
    Splits covers requested found (requested.filter fun pattern => decide (pattern ∉ found)) ↔
      ∀ pattern ∈ requested, pattern ∉ found → ∀ other ∈ found, ∀ thing,
        covers pattern thing → ¬ covers other thing := by
  constructor
  · intro h pattern hpattern hnot other hother thing hthing hboth
    have hleft : Covered covers
        (requested.filter fun pattern => decide (pattern ∉ found)) thing :=
      ⟨pattern, List.mem_filter.2 ⟨hpattern, decide_eq_true hnot⟩, hthing⟩
    rcases h thing ⟨pattern, hpattern, hthing⟩ with hxor | hxor
    · exact hxor.2 hleft
    · exact hxor.2 ⟨other, hother, hboth⟩
  · intro h thing hthing
    by_cases hfound : Covered covers found thing
    · refine Or.inl ⟨hfound, ?_⟩
      rintro ⟨pattern, hpattern, hcovers⟩
      obtain ⟨hmem, hnot⟩ := List.mem_filter.1 hpattern
      obtain ⟨other, hother, hboth⟩ := hfound
      exact h pattern hmem (of_decide_eq_true hnot) other hother thing hcovers hboth
    · refine Or.inr ⟨?_, hfound⟩
      obtain ⟨pattern, hpattern, hcovers⟩ := hthing
      have hnot : pattern ∉ found := fun hmem => hfound ⟨pattern, hmem, hcovers⟩
      exact ⟨pattern, List.mem_filter.2 ⟨hpattern, decide_eq_true hnot⟩, hcovers⟩

/--
More patterns can be taken out of what is left exactly when what they cover is still covered by
those that remain.
-/
theorem Splits.filter_iff {requested kept left found : List τ}
    (h : Splits covers requested kept left) (hsub : ∀ pattern ∈ left, pattern ∈ requested) :
    Splits covers requested kept (left.filter fun pattern => decide (pattern ∉ found)) ↔
      ∀ pattern ∈ left, pattern ∈ found → ∀ thing, covers pattern thing →
        Covered covers (left.filter fun pattern => decide (pattern ∉ found)) thing := by
  constructor
  · intro hsplit pattern hpattern _ thing hthing
    have hrequested : Covered covers requested thing := ⟨pattern, hsub pattern hpattern, hthing⟩
    have hnot : ¬ Covered covers kept thing := by
      rcases h thing hrequested with hxor | hxor
      · exact absurd ⟨pattern, hpattern, hthing⟩ hxor.2
      · exact hxor.2
    rcases hsplit thing hrequested with hxor | hxor
    · exact absurd hxor.1 hnot
    · exact hxor.1
  · intro hremain thing hthing
    rcases h thing hthing with hxor | hxor
    · refine Or.inl ⟨hxor.1, fun hleft => hxor.2 ?_⟩
      exact hleft.mono fun pattern hpattern => List.mem_of_mem_filter hpattern
    · refine Or.inr ⟨?_, hxor.2⟩
      obtain ⟨pattern, hpattern, hcovers⟩ := hxor.1
      by_cases hfound : pattern ∈ found
      · exact hremain pattern hpattern hfound thing hcovers
      · exact ⟨pattern, List.mem_filter.2 ⟨hpattern, decide_eq_true hfound⟩, hcovers⟩

end MpvmApp
