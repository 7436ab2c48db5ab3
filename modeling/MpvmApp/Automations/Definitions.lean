import Mathlib.Data.List.Sort
import MpvmApp.Automations.Runbook
import MpvmApp.Sql.Text

/-!
# The validation of runbook definitions

A draft comes from a client or from the stored draft of another runbook.  Before it is
stored, and again before it is published, `validate_definition` checks its steps and
normalises their configurations: a PDQL export that does not say whether the assets are
deleted does not delete them.

Main definitions:

- `normalizeStepConfig`: the defaults of a configuration.
- `validateDefinition`: the definition that a draft stands for, or the error.
- `isDestructive`: the definitions whose publication has to be confirmed.
- `deletesAssets`: the configurations with which an export deletes assets.

Main results:

- Theorem `normalizeStepConfig_self`: a normalised configuration is its own.
- Theorem `validateDefinition_self`: a valid definition is validated to itself.
- Theorem `truthy_of_deletesAssets`: with a normalised configuration an export
  deletes assets only when it says so.
-/

namespace MpvmApp
namespace Automations

/-! ## Configurations -/

/-- `config.get(key)`. -/
def Output.value? (config : Output) (key : String) : Option Value :=
  (config.find? fun m => decide (m.1 = key)).map Prod.snd

/-- `config.setdefault(key, value)`. -/
def Output.setDefault (config : Output) (key : String) (value : Value) : Output :=
  if (config.value? key).isSome then config else config ++ [(key, value)]

/-- `config[key] = value`. -/
def Output.assign (config : Output) (key : String) (value : Value) : Output :=
  if (config.value? key).isSome then config.map fun m => if m.1 = key then (key, value) else m
  else config ++ [(key, value)]

section Configurations

variable (config : Output) (key : String) (value : Value)

@[simp]
theorem value?_nil :
    Output.value? [] key = none :=
  rfl

theorem value?_cons (m : String × Value) :
    Output.value? (m :: config) key = if m.1 = key then some m.2 else config.value? key := by
  by_cases hkey : m.1 = key <;> simp [Output.value?, hkey]

theorem value?_append_singleton (k : String) :
    Output.value? (config ++ [(key, value)]) k =
      (config.value? k).or (if key = k then some value else none) := by
  induction config with
  | nil => simp [value?_cons]
  | cons m config ih =>
      rw [List.cons_append, value?_cons, value?_cons, ih]
      by_cases hkey : m.1 = k <;> simp [hkey]

theorem value?_setDefault_self :
    (config.setDefault key value).value? key = some ((config.value? key).getD value) := by
  unfold Output.setDefault
  cases hfound : config.value? key with
  | some old => simp [hfound]
  | none => simp [value?_append_singleton, hfound]

theorem setDefault_of_isSome {config : Output} {key : String}
    (h : (config.value? key).isSome = true) :
    config.setDefault key value = config :=
  if_pos h

theorem value?_replace (k : String) :
    Output.value? (config.map fun m => if m.1 = key then (key, value) else m) k =
      if key = k then (config.value? k).map fun _ => value else config.value? k := by
  induction config with
  | nil => simp
  | cons m config ih =>
      rw [List.map_cons, value?_cons, value?_cons, ih]
      by_cases hkey : m.1 = key
      · by_cases hk : key = k
        · simp [hkey, hk]
        · simp [hkey, hk]
      · by_cases hk : key = k
        · subst hk
          simp [hkey]
        · simp [hkey, hk]

theorem value?_assign (k : String) :
    (config.assign key value).value? k = if key = k then some value else config.value? k := by
  unfold Output.assign
  cases hfound : config.value? key with
  | some old =>
      rw [if_pos Option.isSome_some, value?_replace]
      by_cases hk : key = k
      · rw [if_pos hk, if_pos hk, ← hk, hfound]
        rfl
      · rw [if_neg hk, if_neg hk]
  | none =>
      rw [if_neg (by simp), value?_append_singleton]
      by_cases hk : key = k
      · rw [if_pos hk, if_pos hk, ← hk, hfound]
        rfl
      · rw [if_neg hk, if_neg hk, Option.or_none]

/-- An assignment that is repeated changes nothing more. -/
theorem assign_assign :
    (config.assign key value).assign key value = config.assign key value := by
  have hsome : ((config.assign key value).value? key).isSome = true := by
    simp [value?_assign]
  conv_lhs => rw [Output.assign, if_pos hsome]
  have hfixed : ∀ m ∈ config.assign key value,
      (if m.1 = key then (key, value) else m) = m := by
    intro m hm
    split
    · rename_i hkey
      unfold Output.assign at hm
      split at hm
      · obtain ⟨m', _, rfl⟩ := List.mem_map.1 hm
        by_cases hkey' : m'.1 = key
        · rw [if_pos hkey']
        · rw [if_neg hkey'] at hkey
          exact absurd hkey hkey'
      · rename_i hnone
        rcases List.mem_append.1 hm with hold | hnew
        · refine absurd ?_ hnone
          rw [Output.value?, Option.isSome_map, List.find?_isSome]
          exact ⟨m, hold, decide_eq_true hkey⟩
        · exact (List.mem_singleton.1 hnew).symm
    · rfl
  exact (List.map_congr_left hfixed).trans (List.map_id' _)

end Configurations

/-! ## Defaults -/

/-- How a validation ends when a draft is refused. -/
inductive Refusal where
  /-- A `ValueError` of the service with its text. -/
  | valueError (message : String)
  /-- An exception of the language, such as the `TypeError` of `int([1])`. -/
  | builtin
deriving DecidableEq, Repr

/-- The tables of the characters on which the operations on texts depend. -/
structure CharTables where
  lower : String → String
  decimal : Char → Option Nat

/-- The digits of a number; there may be one underscore between any two of them. -/
def digitsValue (t : CharTables) : Bool → Nat → List Char → Option Nat
  | afterDigit, n, [] => if afterDigit then some n else none
  | afterDigit, n, c :: cs =>
      if c = '_' then (if afterDigit then digitsValue t false n cs else none)
      else (t.decimal c).bind fun d => digitsValue t true (10 * n + d) cs

/-- `int(text)`. -/
def parseInt (t : CharTables) (s : String) : Option Int :=
  let blank := fun c => Sql.isSpace c && !(28 ≤ c.toNat && c.toNat ≤ 31)
  match (Sql.stripBy blank s).toList with
  | '-' :: cs => (digitsValue t false 0 cs).map fun n => -(n : Int)
  | '+' :: cs => (digitsValue t false 0 cs).map fun n => (n : Int)
  | cs => (digitsValue t false 0 cs).map fun n => (n : Int)

/-- `int(value)`; nothing is an exception. -/
def intValue (t : CharTables) : Value → Option Int
  | .bool b => some (if b then 1 else 0)
  | .number q => some (q.num.tdiv q.den)
  | .text s => parseInt t s
  | .none | .list _ | .dict _ => none

/--
`config.get("selection")` is one of `"all"` and `"stale"`; only hashable values
can be looked up.
-/
def selectsMany (config : Output) : Except Refusal Bool :=
  match config.value? "selection" with
  | some (.text s) => .ok (decide (s = "all" ∨ s = "stale"))
  | some (.list _) | some (.dict _) => .error .builtin
  | _ => .ok false

/-- `normalize_step_config`. -/
def normalizeStepConfig (t : CharTables) (type : StepType) (config : Output) :
    Except Refusal Output :=
  match type with
  | .pdqlExport => .ok (config.setDefault "delete_assets_after_export" (.bool false))
  | .assetCardBuild =>
      match selectsMany config with
      | .error e => .error e
      | .ok false => .ok config
      | .ok true =>
          let requested := ((config.value? "parallelism").filter Value.truthy).getD (.number 10)
          match intValue t requested with
          | none => .error .builtin
          | some parallelism =>
              if parallelism < 1 ∨ 10 < parallelism then
                .error (.valueError "asset_card_build parallelism must be between 1 and 10.")
              else .ok (config.assign "parallelism" (.number parallelism))
  | _ => .ok config

/-- A normalised configuration is its own. -/
theorem normalizeStepConfig_self {t : CharTables} {type : StepType} {config normalized : Output}
    (h : normalizeStepConfig t type config = .ok normalized) :
    normalizeStepConfig t type normalized = .ok normalized := by
  cases type with
  | pdqlExport =>
      obtain rfl : config.setDefault "delete_assets_after_export" (.bool false) = normalized :=
        Except.ok.inj h
      refine congrArg Except.ok (setDefault_of_isSome _ ?_)
      rw [value?_setDefault_self]
      rfl
  | assetCardBuild =>
      simp only [normalizeStepConfig] at h
      split at h
      · cases h
      · rename_i hone
        obtain rfl := Except.ok.inj h
        simp only [normalizeStepConfig, hone]
      · rename_i hmany
        split at h
        · cases h
        · rename_i parallelism _
          split at h
          · cases h
          · rename_i hrange
            obtain rfl := Except.ok.inj h
            have hselects : selectsMany
                (config.assign "parallelism" (.number parallelism)) = .ok true := by
              rw [← hmany]
              unfold selectsMany
              rw [value?_assign, if_neg (by decide)]
            have htruthy : (Value.number parallelism).truthy = true := by
              have hne : parallelism ≠ 0 := by
                omega
              simp [Value.truthy, hne]
            have hvalue : intValue t
                ((((config.assign "parallelism" (.number parallelism)).value? "parallelism").filter
                  Value.truthy).getD (.number 10)) = some parallelism := by
              rw [value?_assign, if_pos rfl, Option.filter_some, if_pos htruthy]
              simp [intValue]
            simp only [normalizeStepConfig, hselects, hvalue, assign_assign]
            rw [if_neg hrange]
  | scannerTaskStart | passportSync | assetQuery | notification => rfl

/-! ## Validation -/

/-- `forbidden_names`. -/
def forbiddenNames : List String :=
  ["password", "secret", "client_secret", "access_token", "authorization", "cookie"]

mutual

/-- `_forbidden_config_keys`: the paths of the keys that name credentials. -/
def forbiddenConfigKeys (t : CharTables) (path : String) : Value → List String
  | .dict members => forbiddenMembers t path members
  | .list items => forbiddenItems t path 0 items
  | _ => []

/-- The forbidden keys of the members of a dictionary. -/
def forbiddenMembers (t : CharTables) (path : String) : List (String × Value) → List String
  | [] => []
  | (key, nested) :: members =>
      let current := if path = "" then key else path ++ "." ++ key
      (if t.lower key ∈ forbiddenNames then [current] else []) ++
        forbiddenConfigKeys t current nested ++ forbiddenMembers t path members

/-- The forbidden keys of the elements of a list from an index on. -/
def forbiddenItems (t : CharTables) (path : String) (index : Nat) : List Value → List String
  | [] => []
  | nested :: items =>
      forbiddenConfigKeys t s!"{path}[{index}]" nested ++ forbiddenItems t path (index + 1) items

end

/-- One step of a draft; a client sends texts, numbers and dictionaries of these types. -/
structure StepRequest where
  stepId : String
  type : StepType
  config : Output := []
  condition : Option Condition := none
  onError : OnError := .stop
  maxRetries : Int := 0

/-- The id of the step at an index; without one it is named after its position. -/
def StepRequest.identifier (raw : StepRequest) (index : Nat) : String :=
  Sql.strip (if raw.stepId = "" then s!"step-{index + 1}" else raw.stepId)

/-- The turn of the loop of `validate_definition` for the step at an index. -/
def validateStep (t : CharTables) (index : Nat) (seen : List String) (raw : StepRequest) :
    Except Refusal StepDefinition :=
  let stepId := raw.identifier index
  if stepId = "" ∨ stepId ∈ seen then .error (.valueError s!"Step ID must be unique: {stepId}")
  else if raw.maxRetries < 0 ∨ 3 < raw.maxRetries then
    .error (.valueError "max_retries must be between 0 and 3.")
  else
    match normalizeStepConfig t raw.type raw.config with
    | .error e => .error e
    | .ok config =>
        let forbidden := forbiddenConfigKeys t "" (.dict config)
        if forbidden ≠ [] then
          .error (.valueError ("Runbook config cannot store credentials or secrets: " ++
            ", ".intercalate (forbidden.dedup.insertionSort (· ≤ ·))))
        else
          .ok
            { stepId := stepId
              type := raw.type
              config := config
              condition := raw.condition
              onError := raw.onError
              maxRetries := raw.maxRetries.toNat }

/-- The loop of `validate_definition` from an index on. -/
def validateSteps (t : CharTables) :
    Nat → List String → List StepRequest → Except Refusal (List StepDefinition)
  | _, _, [] => .ok []
  | index, seen, raw :: rest =>
      match validateStep t index seen raw with
      | .error e => .error e
      | .ok step =>
          match validateSteps t (index + 1) (step.stepId :: seen) rest with
          | .error e => .error e
          | .ok steps => .ok (step :: steps)

/-- What the validation of a step ensures. -/
structure StepDefinition.Valid (t : CharTables) (step : StepDefinition) : Prop where
  named : step.stepId ≠ ""
  stripped : Sql.strip step.stepId = step.stepId
  retries : step.maxRetries ≤ 3
  normal : normalizeStepConfig t step.type step.config = .ok step.config
  allowed : forbiddenConfigKeys t "" (.dict step.config) = []

/-- The step as it is validated again. -/
def StepDefinition.request (step : StepDefinition) : StepRequest where
  stepId := step.stepId
  type := step.type
  config := step.config
  condition := step.condition
  onError := step.onError
  maxRetries := step.maxRetries

section Steps

variable {t : CharTables} {index : Nat} {seen : List String} {raw : StepRequest}
  {step : StepDefinition}

theorem strip_identifier (raw : StepRequest) (index : Nat) :
    Sql.strip (raw.identifier index) = raw.identifier index :=
  Sql.strip_strip _

/-- A step that is accepted is valid, and its id is new. -/
theorem validateStep_ok (h : validateStep t index seen raw = .ok step) :
    step.Valid t ∧ step.stepId ∉ seen := by
  unfold validateStep at h
  dsimp only at h
  split at h
  · simp only [reduceCtorEq] at h
  · rename_i hid
    push Not at hid
    split at h
    · simp only [reduceCtorEq] at h
    · rename_i hretries
      split at h
      · simp only [reduceCtorEq] at h
      · rename_i config hconfig
        split at h
        · simp only [reduceCtorEq] at h
        · rename_i hallowed
          obtain rfl := Except.ok.inj h
          refine ⟨⟨hid.1, strip_identifier raw index, ?_, normalizeStepConfig_self hconfig,
            not_not.1 hallowed⟩, hid.2⟩
          push Not at hretries
          dsimp only
          omega

theorem validateStep_request (h : step.Valid t) (hnew : step.stepId ∉ seen) :
    validateStep t index seen step.request = .ok step := by
  have hid : ¬(step.stepId = "" ∨ step.stepId ∈ seen) := not_or.2 ⟨h.named, hnew⟩
  have hretries : ¬(step.request.maxRetries < 0 ∨ 3 < step.request.maxRetries) := by
    have := h.retries
    simp only [StepDefinition.request]
    omega
  have hidentifier : step.request.identifier index = step.stepId := by
    unfold StepRequest.identifier StepDefinition.request
    rw [if_neg h.named, h.stripped]
  unfold validateStep
  dsimp only
  rw [hidentifier, if_neg hid, if_neg hretries]
  simp [StepDefinition.request, h.normal, h.allowed]

/-- The accepted steps are valid, and their ids are new and distinct. -/
theorem validateSteps_ok {raws : List StepRequest} {steps : List StepDefinition}
    (h : validateSteps t index seen raws = .ok steps) :
    steps.length = raws.length ∧ (∀ step ∈ steps, step.Valid t ∧ step.stepId ∉ seen) ∧
      (steps.map StepDefinition.stepId).Nodup := by
  induction raws generalizing index seen steps with
  | nil =>
      obtain rfl : [] = steps := Except.ok.inj h
      simp
  | cons raw raws ih =>
      rw [validateSteps] at h
      split at h
      · simp only [reduceCtorEq] at h
      · rename_i step hstep
        split at h
        · simp only [reduceCtorEq] at h
        · rename_i rest hrest
          obtain rfl := Except.ok.inj h
          obtain ⟨hvalid, hnew⟩ := validateStep_ok hstep
          obtain ⟨hlength, hall, hdistinct⟩ := ih hrest
          refine ⟨by simp [hlength], ?_, ?_⟩
          · intro other hother
            rcases List.mem_cons.1 hother with rfl | hlater
            · exact ⟨hvalid, hnew⟩
            · have hlater' := hall other hlater
              exact ⟨hlater'.1, fun hmem => hlater'.2 (List.mem_cons_of_mem _ hmem)⟩
          · rw [List.map_cons, List.nodup_cons]
            refine ⟨fun hmem => ?_, hdistinct⟩
            obtain ⟨other, hother, hid⟩ := List.mem_map.1 hmem
            exact (hall other hother).2 (hid ▸ List.mem_cons_self)

theorem validateSteps_request {steps : List StepDefinition}
    (hvalid : ∀ step ∈ steps, step.Valid t ∧ step.stepId ∉ seen)
    (hdistinct : (steps.map StepDefinition.stepId).Nodup) :
    validateSteps t index seen (steps.map StepDefinition.request) = .ok steps := by
  induction steps generalizing index seen with
  | nil => rfl
  | cons step steps ih =>
      rw [List.map_cons, List.nodup_cons] at hdistinct
      obtain ⟨hstep, hnew⟩ := hvalid step List.mem_cons_self
      rw [List.map_cons, validateSteps, validateStep_request hstep hnew]
      have hrest : ∀ other ∈ steps, other.Valid t ∧ other.stepId ∉ step.stepId :: seen := by
        intro other hother
        obtain ⟨hother', hnew'⟩ := hvalid other (List.mem_cons_of_mem _ hother)
        refine ⟨hother', ?_⟩
        rw [List.mem_cons, not_or]
        exact ⟨fun hid => hdistinct.1 (hid ▸ List.mem_map_of_mem hother), hnew'⟩
      dsimp only
      rw [ih hrest hdistinct.2]

end Steps

/-- `validate_definition`. -/
def validateDefinition (t : CharTables) (raws : List StepRequest) : Except Refusal Definition :=
  if hempty : raws = [] then .error (.valueError "Runbook must contain at least one step.")
  else if 50 < raws.length then
    .error (.valueError "Runbook cannot contain more than 50 steps.")
  else
    match hsteps : validateSteps t 0 [] raws with
    | .error e => .error e
    | .ok steps =>
        .ok
          { steps := steps
            nonempty := fun hnone => hempty <| List.length_eq_zero_iff.1 <| by
              rw [← (validateSteps_ok hsteps).1, hnone, List.length_nil]
            distinct := (validateSteps_ok hsteps).2.2 }

/-- The definition as it is stored in a draft and validated again. -/
def Definition.requests (definition : Definition) : List StepRequest :=
  definition.steps.map StepDefinition.request

/-- A definition that `validate_definition` returns. -/
structure Definition.Valid (t : CharTables) (definition : Definition) : Prop where
  short : definition.steps.length ≤ 50
  steps : ∀ step ∈ definition.steps, step.Valid t

section Definitions

variable {t : CharTables} {definition : Definition}

theorem validateDefinition_ok {raws : List StepRequest}
    (h : validateDefinition t raws = .ok definition) :
    definition.Valid t := by
  unfold validateDefinition at h
  split at h
  · simp only [reduceCtorEq] at h
  · split at h
    · simp only [reduceCtorEq] at h
    · rename_i hshort
      split at h
      · simp only [reduceCtorEq] at h
      · rename_i steps hsteps
        obtain rfl := Except.ok.inj h
        obtain ⟨hlength, hall, _⟩ := validateSteps_ok hsteps
        exact ⟨by dsimp only; omega, fun step hstep => (hall step hstep).1⟩

/-- A valid definition is validated to itself. -/
theorem validateDefinition_self (h : definition.Valid t) :
    validateDefinition t definition.requests = .ok definition := by
  have hsteps : validateSteps t 0 [] definition.requests = .ok definition.steps :=
    validateSteps_request (fun step hstep => ⟨h.steps step hstep, List.not_mem_nil⟩)
      definition.distinct
  have hnonempty : definition.requests ≠ [] := by
    simpa [Definition.requests] using definition.nonempty
  have hshort : ¬50 < definition.requests.length := by
    simpa [Definition.requests] using h.short
  unfold validateDefinition
  rw [dif_neg hnonempty, if_neg hshort]
  split
  · rename_i e herror
    rw [hsteps] at herror
    simp only [reduceCtorEq] at herror
  · rename_i steps hok
    rw [hsteps] at hok
    cases hok
    rfl

end Definitions

/-! ## Deletion of assets -/

/-- `is_destructive`. -/
def isDestructive (definition : Definition) : Bool :=
  definition.steps.any fun step =>
    decide (step.type = .pdqlExport) &&
      (step.config.value? "delete_assets_after_export").any Value.truthy

section Deletion

variable (boolField : Value → Option Bool)

/--
`delete_assets_after_export` of `PdqlExportRequest(**config)`, where the schema
reads a value of a truth field with `boolField`: the field is true by default.
-/
def deletesAssets (config : Output) : Bool :=
  match config.value? "delete_assets_after_export" with
  | none => true
  | some value => decide (boolField value = some true)

variable {boolField} (hbool : ∀ value, boolField value = some true → value.truthy = true)
include hbool

/-- With a normalised configuration an export deletes assets only when it says so. -/
theorem truthy_of_deletesAssets {t : CharTables} {config : Output}
    (hnormal : normalizeStepConfig t .pdqlExport config = .ok config)
    (h : deletesAssets boolField config = true) :
    (config.value? "delete_assets_after_export").any Value.truthy = true := by
  have hdefault : config.setDefault "delete_assets_after_export" (.bool false) = config :=
    Except.ok.inj hnormal
  have hfound := value?_setDefault_self config "delete_assets_after_export" (.bool false)
  rw [hdefault] at hfound
  unfold deletesAssets at h
  rw [hfound] at h ⊢
  exact hbool _ (of_decide_eq_true h)

theorem isDestructive_of_deletesAssets {t : CharTables} {definition : Definition}
    {step : StepDefinition} (hvalid : definition.Valid t) (hstep : step ∈ definition.steps)
    (htype : step.type = .pdqlExport) (h : deletesAssets boolField step.config = true) :
    isDestructive definition = true := by
  have hnormal := (hvalid.steps step hstep).normal
  rw [htype] at hnormal
  refine List.any_eq_true.2 ⟨step, hstep, ?_⟩
  rw [Bool.and_eq_true]
  exact ⟨decide_eq_true htype, truthy_of_deletesAssets hbool hnormal h⟩

end Deletion

end Automations
end MpvmApp
