import Mathlib.Data.List.Infix
import Mathlib.Data.Prod.Lex
import Mathlib.Order.WithBot
import Mathlib.Order.OrderDual
import MpvmApp.Lib.Selection
import MpvmApp.Lib.Table
import MpvmApp.Sql.Json
import MpvmApp.Sql.Text

/-!
# Passports that match a finding

A passport matches a finding by its id, or by a CVE name that both have when the
passport is for the family of the operating system of the host, or for none.  Among the
matching passports one ranks first.

Main definitions:

- `Finding.context`: what the matching reads of a finding, its group and its card.
- `candidates`: the matches of a passport.
- `bestPassport`: the match that ranks first.

Main results:

- Theorem `rank_injective`: the ranks tell the candidates apart.
- Theorem `mem_candidates_cases`: a match is by the id or by a shared CVE name.
-/

namespace MpvmApp
namespace Passports

open Sql

/-! ## Collations -/

/-- A locale whose collation is a linear order. -/
structure Collation extends Sql.Locale where
  le_total : ∀ a b, le a b = true ∨ le b a = true
  le_trans : ∀ a b c, le a b = true → le b c = true → le a c = true
  le_antisymm : ∀ a b, le a b = true → le b a = true → a = b

theorem plainLocale_le_total (a b : String) :
    plainLocale.le a b = true ∨ plainLocale.le b a = true :=
  (String.le_total a b).imp decide_eq_true decide_eq_true

theorem plainLocale_le_trans (a b c : String) (hab : plainLocale.le a b = true)
    (hbc : plainLocale.le b c = true) : plainLocale.le a c = true :=
  decide_eq_true (String.le_trans (of_decide_eq_true hab) (of_decide_eq_true hbc))

theorem plainLocale_le_antisymm (a b : String) (hab : plainLocale.le a b = true)
    (hba : plainLocale.le b a = true) : a = b :=
  String.le_antisymm (of_decide_eq_true hab) (of_decide_eq_true hba)

/-- A text under a collation. -/
@[ext]
structure Collated (loc : Collation) where
  text : String
deriving DecidableEq

instance instLinearOrderCollated (loc : Collation) : LinearOrder (Collated loc) where
  le a b := loc.le a.text b.text = true
  le_refl a := (loc.le_total a.text a.text).elim id id
  le_trans a b c := loc.le_trans a.text b.text c.text
  le_antisymm a b h h' := Collated.ext (loc.le_antisymm a.text b.text h h')
  le_total a b := loc.le_total a.text b.text
  toDecidableLE := fun a b => inferInstanceAs (Decidable (loc.le a.text b.text = true))
  toDecidableEq := inferInstance

/-! ## Rows -/

/--
A row of `asset_card_vulnerabilities` with the columns that its group and its card
add.  A card is stored with cleaned ids of its findings.
-/
structure Finding where
  id : Nat
  assetId : String
  vulnerabilityId : Option String
  cveName : Option String
  imageOsName : Option String := none
  imageOsVersion : Option String := none
  cardOsName : Option String := none
  cardOsVersion : Option String := none
  cleanId : vulnerabilityId.map strip = vulnerabilityId

/--
A row of `vulnerability_passports` with its rows of `vulnerability_passport_cves`
and `vulnerability_passport_os_family`.  Documents are stored as texts.
-/
structure Passport where
  internalId : String
  externalId : Option String := none
  name : Option String := none
  severity : Option String := none
  score : Option String := none
  issueTime : Option String := none
  packageId : Option String := none
  packageVersion : Option String := none
  cvesJson : String := "[]"
  metricsJson : String := "\x7b\x7d"
  rawRecordJson : String := "\x7b\x7d"
  rawDetailJson : Option String := none
  detailUpdatedAt : Option String := none
  cveNames : List String := []
  osFamily : Option String := none
deriving DecidableEq

/-! ## Operating systems -/

/-- `POSITION(word IN text) > 0`, or `text ~ 'word'` for a word of letters. -/
def contains (text word : String) : Bool :=
  decide (word.toList <:+: text.toList)

/-- `text ~ 'first.*second'`. -/
def containsThen (text first second : String) : Bool :=
  text.toList.tails.any fun rest =>
    first.toList.isPrefixOf rest && decide (second.toList <:+: rest.drop first.length)

/-- The class `[a-z]`. -/
def isLetter (c : Char) : Bool :=
  'a' ≤ c && c ≤ 'z'

/-- The word stands in the text without a letter before it, given one, or after it. -/
def standsAlone (word : List Char) : Bool → List Char → Bool
  | _, [] => false
  | letterBefore, c :: cs =>
      (!letterBefore && word.isPrefixOf (c :: cs) &&
          !((c :: cs).drop word.length).head?.any isLetter) ||
        standsAlone word (isLetter c) cs

/-- The families of operating systems and their patterns, in the order of the query. -/
def osFamilies : List (String × (String → Bool)) :=
  [("windows", fun text => contains text "windows"),
    ("ubuntu", fun text => contains text "ubuntu"),
    ("debian", fun text => contains text "debian"),
    ("rhel", fun text =>
      contains text "red hat" || contains text "redhat" || contains text "rhel"),
    ("centos", fun text => contains text "centos"),
    ("rocky", fun text => contains text "rocky"),
    ("almalinux", fun text => contains text "alma"),
    ("oraclelinux", fun text => containsThen text "oracle" "linux"),
    ("astra", fun text => contains text "astra"),
    ("altlinux", fun text => standsAlone "alt".toList false text.toList),
    ("suse", fun text =>
      contains text "suse" || contains text "sles" || contains text "opensuse")]

/-- The family that a text in lower case names. -/
def osFamilyOf (text : String) : Option String :=
  (osFamilies.find? fun family => family.2 text).map Prod.fst

/-- At most so many numbers with dots between them, at the start of a text. -/
def leadingNumbers : Nat → List Char → List Char
  | 0, _ => []
  | n + 1, cs =>
      let digits := cs.takeWhile Char.isDigit
      match cs.dropWhile Char.isDigit with
      | '.' :: rest =>
          if rest.head?.any Char.isDigit && decide (n ≠ 0) then
            digits ++ '.' :: leadingNumbers n rest
          else digits
      | _ => digits

/-- The first version number of one to three parts. -/
def osVersionToken (version : String) : Option String :=
  let rest := version.toList.dropWhile fun c => !c.isDigit
  if rest = [] then none else some (String.ofList (leadingNumbers 3 rest))

/-! ## Matches -/

/-- The columns of `finding_context`. -/
structure FindingContext where
  vulnerabilityId : Option String
  cveName : Option String
  osVersionToken : Option String
  osFamily : Option String

/-- What the matching reads of a finding. -/
def Finding.context (loc : Collation) (f : Finding) : FindingContext where
  vulnerabilityId := nullIfBlank f.vulnerabilityId
  cveName := (nullIfBlank f.cveName).map loc.upper
  osVersionToken := osVersionToken
    (loc.lower ((coalesce (nullIfEmpty f.imageOsVersion) f.cardOsVersion).getD ""))
  osFamily := osFamilyOf
    (loc.lower ((coalesce (nullIfEmpty f.imageOsName) f.cardOsName).getD ""))

/-- `match_method`. -/
inductive MatchMethod where
  | vulnerId
  | cveOsVersion
  | cveOs
  | cveGeneric
deriving DecidableEq, Repr

/-- `match_score`: a shared CVE name counts 100, the family 50 and the version 20. -/
def MatchMethod.score : MatchMethod → Nat
  | .vulnerId => 1000
  | .cveOsVersion => 100 + 50 + 20
  | .cveOs => 100 + 50
  | .cveGeneric => 100

/-- A passport that matches a finding. -/
structure Candidate where
  internalId : String
  method : MatchMethod
  hasDetail : Bool
  issueTime : Option String
deriving DecidableEq, Repr

/-- `CONCAT_WS(' ', …)`. -/
def concatWs (parts : List (Option String)) : String :=
  String.intercalate " " (parts.filterMap id)

/-- `label_text`. -/
def Passport.labelText (loc : Collation) (p : Passport) : String :=
  loc.lower (concatWs [p.name, p.packageId, p.packageVersion])

/-- The passport as a candidate. -/
def Passport.candidate (p : Passport) (method : MatchMethod) : Candidate where
  internalId := p.internalId
  method := method
  hasDetail := p.rawDetailJson.isSome
  issueTime := p.issueTime

/-- `passport.os_family = finding.os_family`. -/
def sameFamily (ctx : FindingContext) (p : Passport) : Bool :=
  p.osFamily.isSome && decide (p.osFamily = ctx.osFamily)

/-- The match method of a shared CVE name. -/
def cveMethod (loc : Collation) (ctx : FindingContext) (p : Passport) : MatchMethod :=
  if sameFamily ctx p then
    if ctx.osVersionToken.any fun token => contains (p.labelText loc) token then .cveOsVersion
    else .cveOs
  else .cveGeneric

/-- The two have a CVE name in common, and the family does not speak against it. -/
def matchesCve (ctx : FindingContext) (p : Passport) : Bool :=
  ctx.cveName.any (fun cve => decide (cve ∈ p.cveNames) && decide (cve ≠ "")) &&
    (p.osFamily.isNone || sameFamily ctx p)

/-- The candidates of a passport for a finding. -/
def candidates (loc : Collation) (f : Finding) (p : Passport) : List Candidate :=
  let ctx := f.context loc
  (if ctx.vulnerabilityId = some p.internalId then [p.candidate .vulnerId] else []) ++
    if matchesCve ctx p then [p.candidate (cveMethod loc ctx p)] else []

/-- The rank of a candidate: its score, its detail, its issue time with none last, its id. -/
abbrev Rank (loc : Collation) :=
  Lex (Natᵒᵈ × Lex (Boolᵒᵈ × Lex (WithTop (Collated loc)ᵒᵈ × Collated loc)))

/-- `issue_time DESC NULLS LAST`. -/
def issueRank (loc : Collation) : Option String → WithTop (Collated loc)ᵒᵈ
  | none => ⊤
  | some time => ((OrderDual.toDual ⟨time⟩ : (Collated loc)ᵒᵈ) : WithTop (Collated loc)ᵒᵈ)

/-- `ORDER BY match_score DESC, has_detail DESC, issue_time DESC NULLS LAST, internal_id`. -/
def Candidate.rank (loc : Collation) (c : Candidate) : Rank loc :=
  toLex (OrderDual.toDual c.method.score, toLex (OrderDual.toDual c.hasDetail,
    toLex (issueRank loc c.issueTime, ⟨c.internalId⟩)))

/-- The candidate with `candidate_rank = 1` among those of some passports. -/
def bestPassport (loc : Collation) (ps : List Passport) (f : Finding) : Option Candidate :=
  best (Candidate.rank loc) (ps.flatMap (candidates loc f))

theorem score_injective :
    Function.Injective MatchMethod.score := by
  intro m m' h
  cases m <;> cases m' <;> first | rfl | cases h

theorem issueRank_injective (loc : Collation) :
    Function.Injective (issueRank loc) := by
  intro time time' h
  cases time with
  | none =>
      cases time' with
      | none => rfl
      | some time' => exact absurd h (WithTop.top_ne_coe)
  | some time =>
      cases time' with
      | none => exact absurd h (WithTop.coe_ne_top)
      | some time' =>
          have htext : (⟨time⟩ : Collated loc) = ⟨time'⟩ :=
            OrderDual.toDual.injective (WithTop.coe_injective h)
          exact congrArg some (congrArg Collated.text htext)

/-- The ranks tell the candidates apart. -/
theorem rank_injective (loc : Collation) :
    Function.Injective (Candidate.rank loc) := by
  intro c c' h
  simp only [Candidate.rank, EmbeddingLike.apply_eq_iff_eq, Prod.mk.injEq] at h
  obtain ⟨hscore, hdetail, htime, hid⟩ := h
  have hmethods := score_injective hscore
  have htimes := issueRank_injective loc htime
  have hids := congrArg Collated.text hid
  cases c
  cases c'
  dsimp only at *
  rw [hmethods, hdetail, htimes, hids]

/-- A match is by the id or by a shared CVE name. -/
theorem mem_candidates_cases {loc : Collation} {f : Finding} {p : Passport} {c : Candidate}
    (h : c ∈ candidates loc f p) :
    c.internalId = p.internalId ∧
      ((f.context loc).vulnerabilityId = some p.internalId ∨
        ∃ cve ∈ p.cveNames, (f.context loc).cveName = some cve) := by
  unfold candidates at h
  rcases List.mem_append.1 h with hid | hcve
  · split at hid
    · rename_i hsame
      rw [List.mem_singleton.1 hid]
      exact ⟨rfl, .inl hsame⟩
    · cases hid
  · split at hcve
    · rename_i hmatches
      rw [List.mem_singleton.1 hcve]
      refine ⟨rfl, .inr ?_⟩
      simp only [matchesCve, Bool.and_eq_true, Option.any_eq_true, decide_eq_true_eq] at hmatches
      obtain ⟨⟨cve, hfinding, hpassport, _⟩, _⟩ := hmatches
      exact ⟨cve, hpassport, hfinding⟩
    · cases hcve

end Passports
end MpvmApp
