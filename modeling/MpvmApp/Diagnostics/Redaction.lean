import Mathlib.Data.List.Infix
import MpvmApp.Lib.CharTables
import MpvmApp.Sql.Json

/-!
# Redacted payloads

What the services write to their logs is redacted: the values of sensitive keys are masked, the
texts are sanitized, and below a depth nothing is written.  The results hold of every way to
sanitize a text.

Main definitions:

- `redact`: a payload as it is logged.
- `SameOutside`: two payloads that differ in hidden values only.

Main results:

- Theorem `redact_eq_iff`: the log tells two payloads apart exactly when they differ outside
  their hidden values.
-/

namespace MpvmApp
namespace Diagnostics

/-- `SENSITIVE_KEY_PARTS`. -/
def sensitiveKeyParts : List String :=
  ["access_token", "accesstoken", "authorization", "api_key", "apikey", "client_secret",
    "clientsecret", "cookie", "password", "pdqltoken", "refresh_token", "refreshtoken", "secret",
    "sessionid", "timeline_token", "token"]

/-- `re.sub(r"[^a-z0-9]", "", text)`. -/
def alphanumeric (text : List Char) : List Char :=
  text.filter fun c => decide ('a' ≤ c ∧ c ≤ 'z') || decide ('0' ≤ c ∧ c ≤ '9')

/-- `_sensitive_key`. -/
def sensitiveKey (tables : CharTables) (key : String) : Bool :=
  let normalized := alphanumeric (tables.lowerText key.toList)
  sensitiveKeyParts.any fun part => decide (alphanumeric part.toList <:+: normalized)

/-- A value, unless it is too deep. -/
def atDepth (depth : Nat) (value : Json) : Json :=
  if 10 < depth then .str "[MAX_DEPTH]" else value

section Payloads

variable (tables : CharTables) (sanitize : String → String)

mutual

/-- `redact` at a depth. -/
def redact (depth : Nat) : Json → Json
  | .str text => atDepth depth (.str (sanitize text))
  | .arr items => atDepth depth (.arr (redactItems (depth + 1) items))
  | .obj members => atDepth depth (.obj (redactMembers (depth + 1) members))
  | value => atDepth depth value

/-- The elements of a redacted array. -/
def redactItems (depth : Nat) : List Json → List Json
  | [] => []
  | item :: items => redact depth item :: redactItems depth items

/-- The members of a redacted object. -/
def redactMembers (depth : Nat) : List (String × Json) → List (String × Json)
  | [] => []
  | (key, value) :: members =>
      (key, if sensitiveKey tables key then .str "[REDACTED]" else redact depth value) ::
        redactMembers depth members

end

mutual

/-- The payloads differ under sensitive keys or too deep only. -/
def SameOutside (depth : Nat) : Json → Json → Prop
  | .arr items, other =>
      10 < depth ∨ ∃ others, other = .arr others ∧ SameItems (depth + 1) items others
  | .obj members, other =>
      10 < depth ∨ ∃ others, other = .obj others ∧ SameMembers (depth + 1) members others
  | value, other => 10 < depth ∨ value = other

/-- The elements differ in hidden values only. -/
def SameItems (depth : Nat) : List Json → List Json → Prop
  | [], others => others = []
  | item :: items, others =>
      ∃ other rest, others = other :: rest ∧ SameOutside depth item other ∧
        SameItems depth items rest

/-- The members have the same keys and differ in hidden values only. -/
def SameMembers (depth : Nat) : List (String × Json) → List (String × Json) → Prop
  | [], others => others = []
  | (key, value) :: members, others =>
      ∃ other rest, others = (key, other) :: rest ∧
        (sensitiveKey tables key = true ∨ SameOutside depth value other) ∧
        SameMembers depth members rest

end

variable {tables} {sanitize}

theorem redact_of_lt {depth : Nat} (h : 10 < depth) (value : Json) :
    redact tables sanitize depth value = .str "[MAX_DEPTH]" := by
  cases value <;> simp [redact, atDepth, h]

theorem redact_eq_of_leaf {depth : Nat} {value other : Json} (h : 10 < depth ∨ value = other) :
    redact tables sanitize depth value = redact tables sanitize depth other := by
  rcases h with hdeep | rfl
  · rw [redact_of_lt hdeep, redact_of_lt hdeep]
  · rfl

mutual

theorem redact_eq_of_same {depth : Nat} : ∀ {value other : Json},
    SameOutside tables depth value other →
      redact tables sanitize depth value = redact tables sanitize depth other
  | .null, _, h | .bool _, _, h | .num _, _, h | .str _, _, h => redact_eq_of_leaf h
  | .arr items, _, h => by
      rcases h with hdeep | ⟨others, rfl, hitems⟩
      · exact redact_eq_of_leaf (.inl hdeep)
      · rw [redact, redact, redactItems_eq_of_same hitems]
  | .obj members, _, h => by
      rcases h with hdeep | ⟨others, rfl, hmembers⟩
      · exact redact_eq_of_leaf (.inl hdeep)
      · rw [redact, redact, redactMembers_eq_of_same hmembers]

theorem redactItems_eq_of_same {depth : Nat} : ∀ {items others : List Json},
    SameItems tables depth items others →
      redactItems tables sanitize depth items = redactItems tables sanitize depth others
  | [], _, h => by
      cases h
      rfl
  | item :: items, _, h => by
      obtain ⟨other, rest, rfl, hitem, hitems⟩ := h
      rw [redactItems, redactItems, redact_eq_of_same hitem, redactItems_eq_of_same hitems]

theorem redactMembers_eq_of_same {depth : Nat} : ∀ {members others : List (String × Json)},
    SameMembers tables depth members others →
      redactMembers tables sanitize depth members = redactMembers tables sanitize depth others
  | [], _, h => by
      cases h
      rfl
  | (key, value) :: members, _, h => by
      obtain ⟨other, rest, rfl, hvalue, hmembers⟩ := h
      rw [redactMembers, redactMembers, redactMembers_eq_of_same hmembers]
      rcases hvalue with hkey | hvalue
      · rw [if_pos hkey, if_pos hkey]
      · rw [redact_eq_of_same hvalue]

end

mutual

/-- What is logged of unsanitized texts shows all that is not hidden. -/
theorem same_of_redact_eq {depth : Nat} : ∀ {value other : Json},
    redact tables id depth value = redact tables id depth other →
      SameOutside tables depth value other
  | .null, other, h | .bool _, other, h | .num _, other, h | .str _, other, h => by
      by_cases hdeep : 10 < depth
      · exact .inl hdeep
      · right
        cases other <;> simp [redact, atDepth, hdeep] at h ⊢ <;> exact h
  | .arr items, other, h => by
      by_cases hdeep : 10 < depth
      · exact .inl hdeep
      · right
        cases other with
        | arr others =>
            simp only [redact, atDepth, if_neg hdeep, Json.arr.injEq] at h
            exact ⟨others, rfl, sameItems_of_redact_eq h⟩
        | _ => simp [redact, atDepth, hdeep] at h
  | .obj members, other, h => by
      by_cases hdeep : 10 < depth
      · exact .inl hdeep
      · right
        cases other with
        | obj others =>
            simp only [redact, atDepth, if_neg hdeep, Json.obj.injEq] at h
            exact ⟨others, rfl, sameMembers_of_redact_eq h⟩
        | _ => simp [redact, atDepth, hdeep] at h

theorem sameItems_of_redact_eq {depth : Nat} : ∀ {items others : List Json},
    redactItems tables id depth items = redactItems tables id depth others →
      SameItems tables depth items others
  | [], others, h => by
      cases others with
      | nil => rfl
      | cons other rest => cases h
  | item :: items, others, h => by
      cases others with
      | nil => cases h
      | cons other rest =>
          obtain ⟨hitem, hitems⟩ := List.cons_eq_cons.1 h
          exact ⟨other, rest, rfl, same_of_redact_eq hitem, sameItems_of_redact_eq hitems⟩

theorem sameMembers_of_redact_eq {depth : Nat} : ∀ {members others : List (String × Json)},
    redactMembers tables id depth members = redactMembers tables id depth others →
      SameMembers tables depth members others
  | [], others, h => by
      cases others with
      | nil => rfl
      | cons other rest => cases h
  | (key, value) :: members, others, h => by
      cases others with
      | nil => cases h
      | cons other rest =>
          obtain ⟨key', value'⟩ := other
          obtain ⟨hmember, hmembers⟩ := List.cons_eq_cons.1 h
          obtain ⟨rfl, hvalue⟩ := Prod.mk.inj hmember
          refine ⟨value', rest, rfl, ?_, sameMembers_of_redact_eq hmembers⟩
          by_cases hkey : sensitiveKey tables key = true
          · exact .inl hkey
          · rw [if_neg hkey, if_neg hkey] at hvalue
            exact .inr (same_of_redact_eq hvalue)

end

/--
However texts are sanitized, two payloads are logged alike exactly when they differ under sensitive
keys or below the depth limit only.
-/
theorem redact_eq_iff (tables : CharTables) (value other : Json) :
    (∀ sanitize, redact tables sanitize 0 value = redact tables sanitize 0 other) ↔
      SameOutside tables 0 value other :=
  ⟨fun h => same_of_redact_eq (h id), fun h _ => redact_eq_of_same h⟩

end Payloads

end Diagnostics
end MpvmApp
