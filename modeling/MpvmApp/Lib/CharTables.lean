import Mathlib.Data.List.DropRight
import MpvmApp.Sql.Text

/-!
# Unicode tables of the services

`str.isdigit` and `str.lower` read the Unicode tables.  What is stated here is what the
tables say about ASCII characters, and which other characters have an ASCII lower case: only the
Kelvin sign does.  A final sigma is lowered by its context; both of its forms are outside ASCII.

Main results:

- Theorem `CharTables.lower_cases`: a character whose lower case is ASCII is itself ASCII, or
  the Kelvin sign.
- Theorem `stripText_eq_self`: a text without white space is left as it is.
-/

namespace MpvmApp

open Sql

/-- `str.isdigit` and `str.lower` of one character. -/
structure CharTables where
  isDigit : Char → Bool
  lower : Char → List Char
  isDigit_ascii : ∀ c : Char, c.toNat < 128 → isDigit c = c.isDigit
  lower_ascii : ∀ c : Char, c.toNat < 128 → lower c = [c.toLower]
  lower_kelvin : lower '\u212A' = ['k']
  lower_other : ∀ c : Char, 128 ≤ c.toNat → c ≠ '\u212A' → ∃ d ∈ lower c, 128 ≤ d.toNat

namespace CharTables

/-- `str.isdigit`. -/
def isDigitText (tables : CharTables) (text : List Char) : Bool :=
  !text.isEmpty && text.all tables.isDigit

/-- `str.lower`. -/
def lowerText (tables : CharTables) (text : List Char) : List Char :=
  text.flatMap tables.lower

/-- A character whose lower case is ASCII is itself ASCII, or the Kelvin sign. -/
theorem lower_cases (tables : CharTables) {c : Char}
    (h : ∀ d ∈ tables.lower c, d.toNat < 128) :
    c.toNat < 128 ∧ tables.lower c = [c.toLower] ∨ c = '\u212A' ∧ tables.lower c = ['k'] := by
  by_cases hascii : c.toNat < 128
  · exact .inl ⟨hascii, tables.lower_ascii c hascii⟩
  · by_cases hkelvin : c = '\u212A'
    · exact .inr ⟨hkelvin, hkelvin ▸ tables.lower_kelvin⟩
    · obtain ⟨d, hd, hlarge⟩ := tables.lower_other c (Nat.le_of_not_lt hascii) hkelvin
      exact absurd (h d hd) (Nat.not_lt.2 hlarge)

/-- ASCII characters without capitals are left as they are. -/
theorem lowerText_eq_self (tables : CharTables) {text : List Char}
    (h : ∀ c ∈ text, c.toNat < 128 ∧ c.toLower = c) :
    tables.lowerText text = text := by
  have hsame : text.flatMap tables.lower = text.flatMap fun c => [c] := by
    apply List.flatMap_congr
    intro c hc
    rw [tables.lower_ascii c (h c hc).1, (h c hc).2]
  unfold lowerText
  rw [hsame, List.flatMap_singleton']

/-- A text without ASCII capitals whose lower case is an ASCII text without the letter k. -/
theorem eq_of_lowerText (tables : CharTables) {text word : List Char}
    (hword : ∀ d ∈ word, d.toNat < 128 ∧ d ≠ 'k')
    (hcapital : ∀ c ∈ text, ¬ ('A' ≤ c ∧ c ≤ 'Z')) (h : tables.lowerText text = word) :
    text = word := by
  have hplain : ∀ c ∈ text, c.toNat < 128 ∧ c.toLower = c := by
    intro c hc
    have hmem : ∀ d ∈ tables.lower c, d ∈ word := by
      intro d hd
      rw [← h]
      exact List.mem_flatMap.2 ⟨c, hc, hd⟩
    rcases tables.lower_cases fun d hd => (hword d (hmem d hd)).1 with ⟨hascii, _⟩ | ⟨_, hkelvin⟩
    · have hupper : ¬ (c.val ≥ 'A'.val ∧ c.val ≤ 'Z'.val) := hcapital c hc
      refine ⟨hascii, ?_⟩
      unfold Char.toLower
      rw [dif_neg hupper]
    · exact absurd rfl (hword 'k' (hmem 'k' (by rw [hkelvin]; exact List.mem_singleton_self _))).2
  rw [← h, lowerText_eq_self tables hplain]

/-- The lower case of the tables without other letters. -/
def asciiLower (c : Char) : List Char :=
  if c = '\u212A' then ['k'] else [c.toLower]

theorem asciiLower_ascii (c : Char) (h : c.toNat < 128) :
    asciiLower c = [c.toLower] := by
  unfold asciiLower
  rw [if_neg]
  rintro rfl
  exact absurd h (by decide)

theorem toLower_of_not_ascii {c : Char} (h : 128 ≤ c.toNat) :
    c.toLower = c := by
  have hupper : ¬ (c.val ≥ 'A'.val ∧ c.val ≤ 'Z'.val) := by
    rintro ⟨_, hle⟩
    have hsmall : c.toNat ≤ 'Z'.toNat := hle
    have hz : 'Z'.toNat = 90 := rfl
    omega
  unfold Char.toLower
  simp only [hupper, dite_false]

theorem asciiLower_other (c : Char) (h : 128 ≤ c.toNat) (hne : c ≠ '\u212A') :
    ∃ d ∈ asciiLower c, 128 ≤ d.toNat := by
  unfold asciiLower
  rw [if_neg hne, toLower_of_not_ascii h]
  exact ⟨c, List.mem_singleton_self c, h⟩

theorem asciiDigit (c : Char) (_ : c.toNat < 128) :
    c.isDigit = c.isDigit :=
  rfl

theorem asciiLower_kelvin :
    asciiLower '\u212A' = ['k'] :=
  if_pos rfl

/-- Tables that leave all other letters as they are. -/
def ascii : CharTables where
  isDigit := Char.isDigit
  lower := asciiLower
  isDigit_ascii := asciiDigit
  lower_ascii := asciiLower_ascii
  lower_kelvin := asciiLower_kelvin
  lower_other := asciiLower_other

end CharTables

/-! ## White space and control characters -/

/-- A control character. -/
def isControl (c : Char) : Bool :=
  decide (c.toNat < 32) || (decide (127 ≤ c.toNat) && decide (c.toNat ≤ 159))

/-- `str.strip` of a list of characters. -/
def stripText (text : List Char) : List Char :=
  (text.dropWhile isSpace).rdropWhile isSpace

theorem toList_strip (text : String) :
    (strip text).toList = stripText text.toList := by
  simp [strip, stripBy, stripText]

/-- A text without white space is left as it is. -/
theorem stripText_eq_self {text : List Char} (h : ∀ c ∈ text, isSpace c = false) :
    stripText text = text := by
  have hfront : text.dropWhile isSpace = text := by
    cases text with
    | nil => rfl
    | cons c rest =>
        rw [List.dropWhile_cons_of_neg]
        rw [h c List.mem_cons_self]
        exact Bool.false_ne_true
  unfold stripText
  rw [hfront, List.rdropWhile_eq_self_iff]
  intro hne hlast
  rw [h _ (List.getLast_mem hne)] at hlast
  exact Bool.false_ne_true hlast

/-- A visible ASCII character is neither white space nor a control character. -/
theorem plain_of_visible {c : Char} (h : 33 ≤ c.toNat ∧ c.toNat ≤ 126) :
    isSpace c = false ∧ isControl c = false := by
  unfold isSpace isControl
  constructor
  · simp only [Bool.or_eq_false_iff, Bool.and_eq_false_iff, decide_eq_false_iff_not,
      beq_eq_false_iff_ne]
    omega
  · simp only [Bool.or_eq_false_iff, Bool.and_eq_false_iff, decide_eq_false_iff_not]
    omega

end MpvmApp
