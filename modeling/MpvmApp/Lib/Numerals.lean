import Mathlib.Algebra.GroupWithZero.Nat
import Mathlib.Data.List.Basic
import Mathlib.Data.Nat.Basic

/-!
# Numbers as digits and as texts

A number below `base ^ count` is a list of `count` digits.  A numeral is a text of
digits: decimal or hexadecimal, without leading zeros when it is written.

Main definitions:

- `digits`: the last digits of a number, the most significant first.
- `ofDigits`: the number of some digits.
- `ofHex`: the number of a hexadecimal numeral.
- `readInteger`: the integer of a decimal numeral with an optional sign.

Main results:

- Theorem `ofDigits_digits`: the digits determine the number.
- Theorem `ofHex_toDigits`, `readInteger_text`: a written numeral is read back.
-/

namespace MpvmApp
namespace Numerals

/-! ## Digits -/

/-- The last `count` digits of a number, the most significant first. -/
def digits (base : Nat) : Nat → Nat → List Nat
  | 0, _ => []
  | count + 1, n => digits base count (n / base) ++ [n % base]

/-- The number of some digits. -/
def ofDigits (base : Nat) (ds : List Nat) : Nat :=
  ds.foldl (fun n d => n * base + d) 0

@[simp]
theorem length_digits (base count n : Nat) :
    (digits base count n).length = count := by
  induction count generalizing n with
  | zero => rfl
  | succ count ih => rw [digits, List.length_append, ih, List.length_singleton]

theorem lt_of_mem_digits {base count n d : Nat} (hbase : 0 < base)
    (h : d ∈ digits base count n) :
    d < base := by
  induction count generalizing n with
  | zero => cases h
  | succ count ih =>
      rcases List.mem_append.1 h with hrest | hlast
      · exact ih hrest
      · rw [List.mem_singleton.1 hlast]
        exact Nat.mod_lt n hbase

theorem ofDigits_append_singleton (base : Nat) (ds : List Nat) (d : Nat) :
    ofDigits base (ds ++ [d]) = ofDigits base ds * base + d := by
  unfold ofDigits
  rw [List.foldl_append]
  rfl

/-- The digits determine the number. -/
theorem ofDigits_digits (base count n : Nat) :
    ofDigits base (digits base count n) = n % base ^ count := by
  induction count generalizing n with
  | zero => simp [digits, ofDigits, Nat.mod_one]
  | succ count ih =>
      rw [digits, ofDigits_append_singleton, ih, Nat.pow_succ', Nat.mod_mul]
      rw [Nat.mul_comm, Nat.add_comm]

/-! ## Hexadecimal numerals -/

/-- A digit of a hexadecimal numeral. -/
def isHexDigit (c : Char) : Bool :=
  c.isDigit || (decide ('a' ≤ c) && decide (c ≤ 'f')) || (decide ('A' ≤ c) && decide (c ≤ 'F'))

/-- The value of a digit. -/
def hexValue (c : Char) : Nat :=
  if c.isDigit then c.toNat - '0'.toNat
  else if 'a' ≤ c then c.toNat - 'a'.toNat + 10
  else c.toNat - 'A'.toNat + 10

/-- `int(text, 16)` of a text of hexadecimal digits. -/
def ofHex (text : List Char) : Nat :=
  text.foldl (fun n c => n * 16 + hexValue c) 0

/-- The written digits are those of lower-case hexadecimal numerals. -/
theorem digitChar_facts {d : Nat} (h : d < 16) :
    isHexDigit d.digitChar = true ∧ hexValue d.digitChar = d := by
  have hall : ∀ d : Fin 16,
      isHexDigit (Nat.digitChar d) = true ∧ hexValue (Nat.digitChar d) = d := by
    decide
  exact hall ⟨d, h⟩

/-- A numeral is written from the front. -/
theorem toDigits_of_not_lt {base n : Nat} (hbase : 1 < base) (h : ¬ n < base) :
    Nat.toDigits base n = Nat.toDigits base (n / base) ++ [(n % base).digitChar] := by
  rw [Nat.toDigits_of_base_le hbase (Nat.le_of_not_lt h)]

/-- The characters of a written hexadecimal numeral are its digits. -/
theorem isHexDigit_of_mem_toDigits {n : Nat} {c : Char} (h : c ∈ Nat.toDigits 16 n) :
    isHexDigit c = true := by
  induction n using Nat.strongRecOn with
  | ind n ih =>
      by_cases hsmall : n < 16
      · rw [Nat.toDigits_of_lt_base hsmall, List.mem_singleton] at h
        rw [h]
        exact (digitChar_facts hsmall).1
      · rw [toDigits_of_not_lt (by decide) hsmall] at h
        rcases List.mem_append.1 h with hfront | hlast
        · exact ih (n / 16) (Nat.div_lt_self (by omega) (by decide)) hfront
        · rw [List.mem_singleton.1 hlast]
          exact (digitChar_facts (Nat.mod_lt n (by decide))).1

/-- A written hexadecimal numeral is read back. -/
theorem ofHex_toDigits (n : Nat) :
    ofHex (Nat.toDigits 16 n) = n := by
  induction n using Nat.strongRecOn with
  | ind n ih =>
      by_cases hsmall : n < 16
      · rw [Nat.toDigits_of_lt_base hsmall]
        simp [ofHex, (digitChar_facts hsmall).2]
      · have hfront := ih (n / 16) (Nat.div_lt_self (by omega) (by decide))
        have hlast := (digitChar_facts (Nat.mod_lt n (by decide : 0 < 16))).2
        unfold ofHex at hfront ⊢
        rw [toDigits_of_not_lt (by decide) hsmall, List.foldl_append, hfront]
        simp only [List.foldl_cons, List.foldl_nil, hlast]
        omega

end Numerals
/-! ## Integers -/

/-- `int` of the text of an integer. -/
def readInteger (text : String) : Option Int :=
  match text.toList with
  | '-' :: digits =>
      if digits.all Char.isDigit then some (-(Nat.ofDigitChars 10 digits 0 : Int)) else none
  | digits => if digits.all Char.isDigit then some (Nat.ofDigitChars 10 digits 0 : Int) else none

theorem all_isDigit_toDigits (n : Nat) :
    (Nat.toDigits 10 n).all Char.isDigit = true :=
  List.all_eq_true.2 fun _ hc => Nat.isDigit_of_mem_toDigits (by decide) (by decide) hc

theorem readInteger_natural (n : Nat) :
    readInteger n.repr = some (n : Int) := by
  have hdigits := all_isDigit_toDigits n
  have hvalue : Nat.ofDigitChars 10 (Nat.toDigits 10 n) 0 = n := Nat.ofDigitChars_ten_toDigits
  unfold readInteger
  rw [Nat.toList_repr]
  split
  · rename_i digits hlist
    rw [hlist] at hdigits
    cases hdigits
  · rw [if_pos hdigits, hvalue]

theorem readInteger_text (n : Int) :
    readInteger (toString n) = some n := by
  show readInteger n.repr = some n
  rw [Int.repr_eq_if]
  split
  · rename_i hnonneg
    rw [readInteger_natural, Int.toNat_of_nonneg hnonneg]
  · rename_i hneg
    have hvalue : Nat.ofDigitChars 10 (Nat.toDigits 10 (-n).toNat) 0 = (-n).toNat :=
      Nat.ofDigitChars_ten_toDigits
    have hlist : ("-" ++ (-n).toNat.repr).toList = '-' :: Nat.toDigits 10 (-n).toNat := by
      rw [String.toList_append, Nat.toList_repr]
      rfl
    unfold readInteger
    rw [hlist]
    show (if (Nat.toDigits 10 (-n).toNat).all Char.isDigit then
      some (-(Nat.ofDigitChars 10 (Nat.toDigits 10 (-n).toNat) 0 : Int)) else none) = some n
    rw [if_pos (all_isDigit_toDigits _), hvalue, Int.toNat_of_nonneg (by omega), Int.neg_neg]

end MpvmApp
