import Mathlib.Data.List.Infix
import Mathlib.Data.String.Basic

/-!
# Patterns of the database

A `LIKE` pattern is read into parts: `%` stands for any text, `_` for any
character, and a backslash takes the special meaning from the next character.

Main definitions:

- `patternParts`: the parts of a pattern.
- `like`: `text LIKE pattern`.

Main results:

- Theorem `like_append_percent_iff`: a plain text before `%` matches its extensions.
- Theorem `like_percent_append_percent_iff`: a plain text between two `%` matches the
  texts that contain it.
-/

namespace MpvmApp
namespace Sql

/-- A part of a pattern. -/
inductive PatternPart where
  | anyText
  | anyChar
  | char (c : Char)
deriving DecidableEq, Repr

/--
The parts of a pattern.  The database refuses a pattern that ends in a single backslash; here it
stands for itself.
-/
def patternParts : List Char → List PatternPart
  | [] => []
  | c :: cs =>
      if c = '%' then .anyText :: patternParts cs
      else if c = '_' then .anyChar :: patternParts cs
      else if c = '\\' then
        match cs with
        | [] => [.char c]
        | d :: rest => .char d :: patternParts rest
      else .char c :: patternParts cs

/-- A text matches the parts of a pattern. -/
def matchesParts : List PatternPart → List Char → Bool
  | [], text => text.isEmpty
  | .anyText :: parts, text => text.tails.any fun rest => matchesParts parts rest
  | .anyChar :: _, [] => false
  | .anyChar :: parts, _ :: text => matchesParts parts text
  | .char _ :: _, [] => false
  | .char c :: parts, d :: text => decide (c = d) && matchesParts parts text

/-- `text LIKE pattern`. -/
def like (pattern text : String) : Bool :=
  matchesParts (patternParts pattern.toList) text.toList

/-- A character that stands for itself in a pattern. -/
def isPlain (c : Char) : Bool :=
  !decide (c = '%') && !decide (c = '_') && !decide (c = '\\')

/-- The first character of a pattern that is no backslash. -/
theorem patternParts_cons_of_ne {c : Char} (h : c ≠ '\\') (cs : List Char) :
    patternParts (c :: cs) =
      (if c = '%' then .anyText else if c = '_' then .anyChar else .char c) :: patternParts cs := by
  rw [patternParts.eq_def]
  dsimp only
  by_cases hpercent : c = '%'
  · rw [if_pos hpercent, if_pos hpercent]
  · by_cases hunderscore : c = '_'
    · rw [if_neg hpercent, if_pos hunderscore, if_neg hpercent, if_pos hunderscore]
    · rw [if_neg hpercent, if_neg hunderscore, if_neg h, if_neg hpercent, if_neg hunderscore]

theorem patternParts_cons_of_plain {c : Char} (h : isPlain c = true) (cs : List Char) :
    patternParts (c :: cs) = .char c :: patternParts cs := by
  simp only [isPlain, Bool.and_eq_true, Bool.not_eq_true', decide_eq_false_iff_not] at h
  rw [patternParts_cons_of_ne h.2, if_neg h.1.1, if_neg h.1.2]

@[simp]
theorem patternParts_percent (cs : List Char) :
    patternParts ('%' :: cs) = .anyText :: patternParts cs := by
  rw [patternParts_cons_of_ne (by decide), if_pos rfl]

/-- A plain text is read character by character. -/
theorem patternParts_append_of_plain {plain : List Char} (h : ∀ c ∈ plain, isPlain c = true)
    (cs : List Char) :
    patternParts (plain ++ cs) = plain.map .char ++ patternParts cs := by
  induction plain with
  | nil => rfl
  | cons c plain ih =>
      have hrest : ∀ d ∈ plain, isPlain d = true := fun d hd => h d (List.mem_cons_of_mem _ hd)
      rw [List.cons_append, patternParts_cons_of_plain (h c List.mem_cons_self), ih hrest]
      rfl

@[simp]
theorem matchesParts_anyText_iff (parts : List PatternPart) (text : List Char) :
    matchesParts (.anyText :: parts) text = true ↔
      ∃ rest, rest <:+ text ∧ matchesParts parts rest = true := by
  rw [matchesParts, List.any_eq_true]
  simp only [List.mem_tails]

/-- `%` at the end of a pattern matches every rest. -/
@[simp]
theorem matchesParts_anyText (text : List Char) :
    matchesParts [.anyText] text = true :=
  (matchesParts_anyText_iff [] text).2 ⟨[], List.nil_suffix, rfl⟩

/-- Characters of a pattern match themselves. -/
theorem matchesParts_chars_iff (plain : List Char) (parts : List PatternPart)
    (text : List Char) :
    matchesParts (plain.map .char ++ parts) text = true ↔
      ∃ rest, text = plain ++ rest ∧ matchesParts parts rest = true := by
  induction plain generalizing text with
  | nil => simp
  | cons c plain ih =>
      cases text with
      | nil => simp [matchesParts]
      | cons d text =>
          rw [List.map_cons, List.cons_append, matchesParts, Bool.and_eq_true, ih,
            decide_eq_true_eq]
          constructor
          · rintro ⟨rfl, rest, rfl, hrest⟩
            exact ⟨rest, rfl, hrest⟩
          · rintro ⟨rest, htext, hrest⟩
            rw [List.cons_append, List.cons.injEq] at htext
            exact ⟨htext.1.symm, rest, htext.2, hrest⟩

/-- A plain text before `%` matches its extensions. -/
theorem like_append_percent_iff {plain text : String} (h : ∀ c ∈ plain.toList, isPlain c = true) :
    like (plain ++ "%") text = true ↔ plain.toList <+: text.toList := by
  have hparts : patternParts (plain ++ "%").toList = plain.toList.map .char ++ [.anyText] := by
    rw [String.toList_append, patternParts_append_of_plain h]
    rfl
  rw [like, hparts, matchesParts_chars_iff]
  constructor
  · rintro ⟨rest, htext, _⟩
    exact ⟨rest, htext.symm⟩
  · rintro ⟨rest, htext⟩
    exact ⟨rest, htext.symm, matchesParts_anyText rest⟩

/-- A plain text between two `%` matches the texts that contain it. -/
theorem like_percent_append_percent_iff {plain text : String}
    (h : ∀ c ∈ plain.toList, isPlain c = true) :
    like ("%" ++ plain ++ "%") text = true ↔ plain.toList <:+: text.toList := by
  have hparts : patternParts ("%" ++ plain ++ "%").toList =
      .anyText :: (plain.toList.map .char ++ [.anyText]) := by
    have hlist : ("%" ++ plain ++ "%").toList = '%' :: (plain.toList ++ ['%']) := by
      simp [String.toList_append]
    rw [hlist, patternParts_percent, patternParts_append_of_plain h]
    rfl
  rw [like, hparts, matchesParts_anyText_iff]
  simp only [matchesParts_chars_iff]
  constructor
  · rintro ⟨rest, ⟨front, hfront⟩, back, hback, _⟩
    exact ⟨front, back, by rw [List.append_assoc, ← hback, hfront]⟩
  · rintro ⟨front, back, htext⟩
    refine ⟨plain.toList ++ back, ⟨front, by rw [← List.append_assoc, htext]⟩, back, rfl, ?_⟩
    exact matchesParts_anyText back

/-! ## Texts as patterns -/

end Sql
end MpvmApp
