import Mathlib.Data.List.DropRight
import Mathlib.Data.List.TakeWhile
import Mathlib.Data.String.Basic

/-!
# Text operations of the database and of the services

Text columns are nullable, so a column value is an `Option String`.  Case
mapping and collation depend on the locale of the database and are a parameter;
blank trimming does not.

Main results:

- Theorem `coalesce_eq_none_iff`: a chain of `COALESCE` is null exactly when
  both of its arguments are.
-/

namespace MpvmApp
namespace Sql

/-- The locale of the database: case mapping, collation and the class `[[:space:]]`. -/
structure Locale where
  lower : String → String
  upper : String → String
  le : String → String → Bool
  space : Char → Bool := fun c => c == ' ' || (9 ≤ c.toNat && c.toNat ≤ 13)

/-- A locale without case mapping. -/
def plainLocale : Locale where
  lower := id
  upper := id
  le := fun a b => decide (a ≤ b)

/-- Drop the characters satisfying `p` from both ends. -/
def stripBy (p : Char → Bool) (s : String) : String :=
  String.ofList ((s.toList.dropWhile p).rdropWhile p)

/-- `TRIM`: only the space character is removed. -/
def trim (s : String) : String :=
  stripBy (fun c => c == ' ') s

/-- `NULLIF(x, '')`. -/
def nullIfEmpty (x : Option String) : Option String :=
  x.filter fun s => !decide (s = "")

/-- `NULLIF(TRIM(x), '')`. -/
def nullIfBlank (x : Option String) : Option String :=
  nullIfEmpty (x.map trim)

/-- Replace every run of characters satisfying `p` by one space. -/
def squeeze (p : Char → Bool) : Bool → List Char → List Char
  | _, [] => []
  | inRun, c :: cs =>
      if p c then (if inRun then squeeze p true cs else ' ' :: squeeze p true cs)
      else c :: squeeze p false cs

/-- `REGEXP_REPLACE(x, '\s+', ' ', 'g')`. -/
def collapseSpaces (loc : Locale) (s : String) : String :=
  String.ofList (squeeze loc.space false s.toList)

/-- `COALESCE(x, y)`. -/
def coalesce {α : Type*} (x y : Option α) : Option α :=
  x.orElse fun _ => y

/-- The white-space characters of `str.isspace`. -/
def isSpace (c : Char) : Bool :=
  let n := c.toNat
  (9 ≤ n && n ≤ 13) || (28 ≤ n && n ≤ 32) || n == 0x85 || n == 0xA0 || n == 0x1680 ||
    (0x2000 ≤ n && n ≤ 0x200A) || n == 0x2028 || n == 0x2029 || n == 0x202F ||
    n == 0x205F || n == 0x3000

/-- `str.strip` without arguments. -/
def strip (s : String) : String :=
  stripBy isSpace s

/-- `not str(x or "").strip()`: the value is missing or only white space. -/
def isBlank (x : Option String) : Bool :=
  decide (strip (x.getD "") = "")

/-- `x or None` for a text: the empty text becomes null. -/
def orNone (x : Option String) : Option String :=
  nullIfEmpty x

/-- `clean_value` of a text that may be missing. -/
def cleanText (x : Option String) : Option String :=
  nullIfEmpty (x.map strip)

@[simp]
theorem coalesce_none_left {α : Type*} (y : Option α) :
    coalesce none y = y := by
  cases y <;> rfl

@[simp]
theorem coalesce_some {α : Type*} (a : α) (y : Option α) :
    coalesce (some a) y = some a :=
  rfl

theorem coalesce_eq_none_iff {α : Type*} {x y : Option α} :
    coalesce x y = none ↔ x = none ∧ y = none := by
  cases x <;> simp

@[simp]
theorem isBlank_none :
    isBlank none = true := by
  decide

/-- Stripping leaves nothing exactly when every character is stripped. -/
theorem stripBy_eq_empty_iff {p : Char → Bool} {s : String} :
    stripBy p s = "" ↔ ∀ c ∈ s.toList, p c = true := by
  have hlist : stripBy p s = "" ↔ (s.toList.dropWhile p).rdropWhile p = [] := by
    rw [stripBy, show ("" : String) = String.ofList [] from rfl, String.ofList_inj]
  rw [hlist, List.rdropWhile_eq_nil_iff]
  constructor
  · intro hall
    by_contra hne
    have hdrop : s.toList.dropWhile p ≠ [] := fun h => hne (List.dropWhile_eq_nil_iff.1 h)
    have hhead := hall _ (List.head_mem hdrop)
    rw [List.head_dropWhile_not p hdrop] at hhead
    cases hhead
  · intro hall c hc
    exact hall c (List.dropWhile_subset p hc)

/-- A text that starts and ends with other characters stays when fewer are stripped. -/
theorem stripBy_eq_self_of_imp {p q : Char → Bool} (hpq : ∀ c, q c = true → p c = true)
    {s : String} (h : stripBy p s = s) :
    stripBy q s = s := by
  have hlist : (s.toList.dropWhile p).rdropWhile p = s.toList := by
    have := congrArg String.toList h
    simpa [stripBy] using this
  have hdropped : s.toList.dropWhile p = s.toList := by
    apply (List.dropWhile_suffix p).eq_of_length_le
    calc s.toList.length = ((s.toList.dropWhile p).rdropWhile p).length := by rw [hlist]
      _ ≤ (s.toList.dropWhile p).length := (List.rdropWhile_prefix p _).length_le
  rw [hdropped] at hlist
  have hfront : s.toList.dropWhile q = s.toList := by
    rw [List.dropWhile_eq_self_iff] at hdropped ⊢
    exact fun hl hq => hdropped hl (hpq _ hq)
  have hback : s.toList.rdropWhile q = s.toList := by
    rw [List.rdropWhile_eq_self_iff] at hlist ⊢
    exact fun hl hq => hlist hl (hpq _ hq)
  rw [stripBy, hfront, hback, String.ofList_toList]

/-- A stripped text has no spaces to trim. -/
theorem trim_eq_self {s : String} (h : strip s = s) :
    trim s = s := by
  refine stripBy_eq_self_of_imp (fun c hc => ?_) h
  rw [beq_iff_eq] at hc
  subst hc
  decide

/-- Stripping a stripped text again leaves it. -/
theorem stripBy_stripBy (p : Char → Bool) (s : String) :
    stripBy p (stripBy p s) = stripBy p s := by
  unfold stripBy
  rw [String.toList_ofList]
  have hfront : ((s.toList.dropWhile p).rdropWhile p).dropWhile p =
      (s.toList.dropWhile p).rdropWhile p := by
    rw [List.dropWhile_eq_self_iff]
    intro hl
    have hshort := List.rdropWhile_prefix p (l := s.toList.dropWhile p)
    have hdropped := List.dropWhile_eq_self_iff.1
      (List.dropWhile_idempotent (p := p) (l := s.toList)) (hl.trans_le hshort.length_le)
    rwa [hshort.getElem hl]
  rw [hfront, List.rdropWhile_idempotent]

/-- A stripped text is not stripped any further. -/
theorem strip_strip (s : String) :
    strip (strip s) = strip s :=
  stripBy_stripBy isSpace s

/-- A trimmed text is not trimmed any further. -/
theorem trim_trim (s : String) :
    trim (trim s) = trim s :=
  stripBy_stripBy _ s

/-- What `clean_value` stores is not null for the database unless it is null. -/
theorem nullIfBlank_cleanText (x : Option String) :
    nullIfBlank (cleanText x) = cleanText x := by
  cases x with
  | none => rfl
  | some s =>
      by_cases hempty : strip s = ""
      · simp [cleanText, nullIfBlank, nullIfEmpty, Option.filter, hempty]
      · have htrim : trim (strip s) = strip s := trim_eq_self (strip_strip s)
        simp [cleanText, nullIfBlank, nullIfEmpty, Option.filter, hempty, htrim]

/-- A text that is not blank survives `x or None`. -/
theorem orNone_of_not_blank {x : Option String} (h : isBlank x = false) :
    orNone x = x := by
  cases x with
  | none => rfl
  | some s =>
      by_cases hs : s = ""
      · subst hs
        exact absurd h (by decide)
      · simp [orNone, nullIfEmpty, hs]

end Sql
end MpvmApp
