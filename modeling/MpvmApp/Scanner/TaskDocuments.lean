import MpvmApp.Lib.FirstBy
import MpvmApp.Lib.Numerals
import MpvmApp.Sql.Members

/-!
# Schedules and denied periods of a task

The schedule of a task and the periods in which it must not scan are validated documents.  A
document is dumped with its missing members as null, or without them.

Main definitions:

- `dumpFields`: the dump of a document.
- `TaskTriggerParameters`, `DeniedScanSettings`: the validated documents.
- `validateTrigger`, `validateDenied`: their validation.

Main results:

- Theorem `validateTrigger_dump`, `validateDenied_dump`: a dump is validated as the
  document that was dumped.
- Theorem `dumpFields_eq_iff`: both dumps are the same exactly when no member is missing.
-/

namespace MpvmApp
namespace Scanner

/-! ## Dumps -/

/-- What a dump has for a value: one that is `None` is null, or left out. -/
def dumpValue (excludeNone : Bool) : Option Json → Option Json
  | some value => some value
  | none => if excludeNone then none else some .null

/-- `model_dump(exclude_none=...)`. -/
def dumpFields (excludeNone : Bool) (fields : List (String × Option Json)) : Members :=
  fields.filterMap fun field =>
    (dumpValue excludeNone field.2).map fun value => (field.1, value)

theorem mem_map_fst_dumpFields {b : Bool} {fields : List (String × Option Json)} {key : String}
    (h : key ∈ (dumpFields b fields).map Prod.fst) :
    key ∈ fields.map Prod.fst := by
  obtain ⟨member, hmember, rfl⟩ := List.mem_map.1 h
  obtain ⟨field, hfield, hvalue⟩ := List.mem_filterMap.1 hmember
  obtain ⟨value, _, rfl⟩ := Option.map_eq_some_iff.1 hvalue
  exact List.mem_map_of_mem hfield

/-- What a dump has for a member. -/
theorem member?_dumpFields {b : Bool} {fields : List (String × Option Json)}
    (hnodup : (fields.map Prod.fst).Nodup) {key : String} {value : Option Json}
    (h : (key, value) ∈ fields) :
    Json.member? key (.obj (dumpFields b fields)) = dumpValue b value := by
  induction fields with
  | nil => cases h
  | cons field fields ih =>
      rw [List.map_cons, List.nodup_cons] at hnodup
      unfold Json.member? dumpFields at ih ⊢
      dsimp only at ih ⊢
      rw [List.filterMap_cons]
      rcases List.mem_cons.1 h with rfl | hrest
      · cases hdump : dumpValue b value with
        | some json => simp
        | none =>
            have habsent : (dumpFields b fields).find? (fun m => decide (m.1 = key)) = none := by
              rw [List.find?_eq_none]
              intro m hm hkey
              have hname := mem_map_fst_dumpFields (List.mem_map_of_mem (f := Prod.fst) hm)
              rw [of_decide_eq_true hkey] at hname
              exact hnodup.1 hname
            unfold dumpFields at habsent
            simp [habsent]
      · have hne : field.1 ≠ key := by
          intro heq
          exact hnodup.1 (heq ▸ List.mem_map_of_mem (f := Prod.fst) hrest)
        cases hdump : dumpValue b field.2 with
        | some json => simpa [hne] using ih hnodup.2 hrest
        | none => simpa using ih hnodup.2 hrest

/-- Both dumps are the same exactly when no member is missing. -/
theorem dumpFields_eq_iff {fields : List (String × Option Json)} :
    dumpFields false fields = dumpFields true fields ↔ ∀ field ∈ fields, field.2.isSome := by
  have hlength : ∀ rest : List (String × Option Json),
      (dumpFields true rest).length ≤ (dumpFields false rest).length := by
    intro rest
    unfold dumpFields
    induction rest with
    | nil => exact le_rfl
    | cons field rest ih =>
        rw [List.filterMap_cons, List.filterMap_cons]
        cases field.2 with
        | some value => exact Nat.succ_le_succ ih
        | none => exact Nat.le_succ_of_le ih
  induction fields with
  | nil => simp [dumpFields]
  | cons field fields ih =>
      have hrest := hlength fields
      unfold dumpFields at ih hrest ⊢
      rw [List.filterMap_cons, List.filterMap_cons, List.forall_mem_cons]
      cases hfield : field.2 with
      | some value => simpa [dumpValue] using ih
      | none =>
          constructor
          · intro h
            have heq : (dumpFields false fields).length + 1 = (dumpFields true fields).length :=
              congrArg List.length h
            unfold dumpFields at heq
            omega
          · intro h
            simp at h

/-- A dump has no null exactly when it is the dump without the missing members. -/
theorem membersNullFree_dumpFields {b : Bool} {fields : List (String × Option Json)}
    (h : ∀ field ∈ fields, ∀ value ∈ field.2, value.nullFree = true) :
    membersNullFree (dumpFields b fields) = true ↔
      dumpFields b fields = dumpFields true fields := by
  cases b with
  | true =>
      refine iff_of_true ((membersNullFree_iff _).2 fun m hm => ?_) rfl
      obtain ⟨field, hfield, hvalue⟩ := List.mem_filterMap.1 hm
      obtain ⟨value, hdump, rfl⟩ := Option.map_eq_some_iff.1 hvalue
      cases hfound : field.2 with
      | none =>
          rw [hfound] at hdump
          cases hdump
      | some json =>
          rw [hfound] at hdump
          cases hdump
          exact h field hfield value hfound
  | false =>
      rw [dumpFields_eq_iff, membersNullFree_iff]
      constructor
      · intro hfree field hfield
        cases hfound : field.2 with
        | some value => rfl
        | none =>
            have hmem : (field.1, Json.null) ∈ dumpFields false fields :=
              List.mem_filterMap.2 ⟨field, hfield, by rw [hfound]; rfl⟩
            exact absurd (hfree _ hmem) Bool.false_ne_true
      · intro hsome m hm
        obtain ⟨field, hfield, hvalue⟩ := List.mem_filterMap.1 hm
        obtain ⟨json, hfound⟩ := Option.isSome_iff_exists.1 (hsome field hfield)
        rw [hfound] at hvalue
        cases hvalue
        exact h field hfield json hfound

/-! ## Validation of values -/

/-- What pydantic makes of values that do not have the type of their member. -/
structure Conversions where
  bool : Json → Option Bool
  integer : Json → Option Int
  /-- `str(value)` of a value that is no text. -/
  text : Json → String
  /-- A number is not zero. -/
  nonzero : String → Bool

/-- `bool(value)`. -/
def Conversions.truthy (conv : Conversions) : Json → Bool
  | .null => false
  | .bool b => b
  | .num text => conv.nonzero text
  | .str text => !decide (text = "")
  | .arr items => !items.isEmpty
  | .obj members => !members.isEmpty

/-- `value or other`. -/
def Conversions.orElse (conv : Conversions) (value other : Json) : Json :=
  if conv.truthy value then value else other

/-- A text. -/
def readText : Json → Except String String
  | .str text => .ok text
  | _ => .error "Input should be a valid string"

/-- A truth value. -/
def readBool (conv : Conversions) : Json → Except String Bool
  | .bool b => .ok b
  | value =>
      match conv.bool value with
      | some b => .ok b
      | none => .error "Input should be a valid boolean"

/-- An integer. -/
def readInt (conv : Conversions) (value : Json) : Except String Int :=
  let converted :=
    match value with
    | .num text => (readInteger text).or (conv.integer value)
    | value => conv.integer value
  match converted with
  | some n => .ok n
  | none => .error "Input should be a valid integer"

/-- A value that may be missing. -/
def readOption {α : Type} (read : Json → Except String α) : Json → Except String (Option α)
  | .null => .ok none
  | value => (read value).map some

/-- A list of values. -/
def readList {α : Type} (read : Json → Except String α) : Json → Except String (List α)
  | .arr items => items.mapM read
  | _ => .error "Input should be a valid list"

/-- One of some names. -/
def readName {α : Type} (all : List α) (name : α → String) : Json → Except String α
  | .str text =>
      match all.find? fun a => decide (name a = text) with
      | some a => .ok a
      | none => .error "Input should be one of the expected names"
  | _ => .error "Input should be one of the expected names"

/-- The value of a member, or its default when the document does not have it. -/
def readField {α : Type} (read : Json → Except String α) (absent : Except String α)
    (members : Members) (key : String) : Except String α :=
  match Json.member? key (.obj members) with
  | some value => read value
  | none => absent

/-- `extra = "forbid"`. -/
def forbidExtra (names : List String) (members : Members) : Except String Unit :=
  if members.all fun m => decide (m.1 ∈ names) then .ok ()
  else .error "Extra inputs are not permitted"

/-- The checks of a document after its fields have been read. -/
def checked {α : Type} (problem : α → Option String) (fields : α) :
    Except String { fields : α // problem fields = none } :=
  match h : problem fields with
  | some message => .error message
  | none => .ok ⟨fields, h⟩

theorem checked_val {α : Type} {problem : α → Option String}
    (fields : { fields : α // problem fields = none }) :
    checked problem fields.1 = .ok fields := by
  unfold checked
  split
  · rename_i message hmessage
    rw [fields.2] at hmessage
    cases hmessage
  · rfl

theorem readField_dumpFields {α : Type} {read : Json → Except String α}
    {absent : Except String α} {b : Bool} {fields : List (String × Option Json)}
    (hnodup : (fields.map Prod.fst).Nodup) {key : String} {json : Json}
    (h : (key, some json) ∈ fields) :
    readField read absent (dumpFields b fields) key = read json := by
  unfold readField
  rw [member?_dumpFields hnodup h]
  rfl

theorem readField_option {α : Type} {read : Json → Except String α} {b : Bool}
    {fields : List (String × Option Json)} (hnodup : (fields.map Prod.fst).Nodup) {key : String}
    {value : Option α} {write : α → Json} (h : (key, value.map write) ∈ fields)
    (hread : ∀ a, readOption read (write a) = .ok (some a)) :
    readField (readOption read) (.ok none) (dumpFields b fields) key = .ok value := by
  unfold readField
  rw [member?_dumpFields hnodup h]
  cases value with
  | some a => exact hread a
  | none => cases b <;> rfl

theorem forbidExtra_dumpFields {b : Bool} {fields : List (String × Option Json)} :
    forbidExtra (fields.map Prod.fst) (dumpFields b fields) = .ok () := by
  unfold forbidExtra
  rw [if_pos]
  rw [List.all_eq_true]
  exact fun m hm => decide_eq_true (mem_map_fst_dumpFields (List.mem_map_of_mem hm))

theorem readList_map {α : Type} {read : Json → Except String α} {write : α → Json}
    (hread : ∀ a, read (write a) = .ok a) (values : List α) :
    readList read (.arr (values.map write)) = .ok values := by
  have hmap : values.mapM (read ∘ write) = .ok (values.map id) :=
    mapM_eq_ok_of_forall fun a _ => hread a
  show (values.map write).mapM read = .ok values
  rw [List.mapM_map, hmap, List.map_id]

theorem readInt_text (conv : Conversions) (n : Int) :
    readInt conv (.num (toString n)) = .ok n := by
  unfold readInt
  dsimp only
  rw [readInteger_text]
  rfl

theorem readName_name {α : Type} {all : List α} {name : α → String}
    (hname : ∀ a b, name a = name b → a = b) {a : α} (hmem : a ∈ all) :
    readName all name (.str (name a)) = .ok a := by
  unfold readName
  dsimp only
  cases hfind : all.find? fun b => decide (name b = name a) with
  | some b =>
      have hnamed := List.find?_some hfind
      rw [hname b a (of_decide_eq_true hnamed)]
  | none =>
      have hnone := List.find?_eq_none.1 hfind a hmem
      simp at hnone

/-! ## Schedules -/

/-- `Weekday`. -/
inductive Weekday where
  | monday | tuesday | wednesday | thursday | friday | saturday | sunday
deriving DecidableEq, Repr

namespace Weekday

def name : Weekday → String
  | .monday => "monday"
  | .tuesday => "tuesday"
  | .wednesday => "wednesday"
  | .thursday => "thursday"
  | .friday => "friday"
  | .saturday => "saturday"
  | .sunday => "sunday"

def all : List Weekday :=
  [.monday, .tuesday, .wednesday, .thursday, .friday, .saturday, .sunday]

theorem name_inj (a b : Weekday) (h : a.name = b.name) : a = b := by
  cases a <;> cases b <;> simp_all [name]

/-- The list of the days of a document. -/
def json (days : List Weekday) : Json :=
  .arr (days.map fun day => .str day.name)

def readDays : Json → Except String (List Weekday) :=
  readList (readName all name)

theorem readDays_json (days : List Weekday) : readDays (json days) = .ok days :=
  readList_map (fun day => readName_name name_inj (by cases day <;> simp [all])) days

theorem nullFree_json (days : List Weekday) : (json days).nullFree = true := by
  refine (itemsNullFree_iff _).2 fun item hitem => ?_
  obtain ⟨day, _, rfl⟩ := List.mem_map.1 hitem
  rfl

end Weekday

/-- `ScheduleType`. -/
inductive ScheduleType where
  | daily | periodic | repeatableDaily | weekly | fortnightly | monthly | cronScheduler
deriving DecidableEq, Repr

namespace ScheduleType

def name : ScheduleType → String
  | .daily => "Daily"
  | .periodic => "Periodic"
  | .repeatableDaily => "RepeatableDaily"
  | .weekly => "Weekly"
  | .fortnightly => "Fortnightly"
  | .monthly => "Monthly"
  | .cronScheduler => "CronScheduler"

def all : List ScheduleType :=
  [.daily, .periodic, .repeatableDaily, .weekly, .fortnightly, .monthly, .cronScheduler]

theorem name_inj (a b : ScheduleType) (h : a.name = b.name) : a = b := by
  cases a <;> cases b <;> simp_all [name]

end ScheduleType

/-- The units of an interval. -/
inductive IntervalUnit where
  | minutes | hours | days
deriving DecidableEq, Repr

namespace IntervalUnit

def name : IntervalUnit → String
  | .minutes => "Minutes"
  | .hours => "Hours"
  | .days => "Days"

def all : List IntervalUnit :=
  [.minutes, .hours, .days]

theorem name_inj (a b : IntervalUnit) (h : a.name = b.name) : a = b := by
  cases a <;> cases b <;> simp_all [name]

end IntervalUnit

/-- The fields of `TaskTriggerParameters`. -/
structure TriggerFields where
  isEnabled : Bool
  fromDate : Option String
  toDate : Option String
  timeZone : String
  type : ScheduleType
  atTime : Option String
  daysOfWeek : Option (List Weekday)
  interval : Option Int
  intervalUnit : Option IntervalUnit
  startTime : Option String
  endTime : Option String
  dayOfMonth : Option Int
  cronExpression : Option String

namespace TriggerFields

/-- `value is None or value == ""`. -/
def noText (value : Option String) : Bool :=
  value.all fun text => decide (text = "")

/-- `require_schedule_fields`: whether a field that the schedule needs is missing. -/
def lacksFields (trigger : TriggerFields) : Bool :=
  match trigger.type with
  | .daily => noText trigger.atTime
  | .periodic => trigger.interval.isNone || trigger.intervalUnit.isNone
  | .repeatableDaily =>
      trigger.interval.isNone || noText trigger.startTime || noText trigger.endTime
  | .weekly | .fortnightly =>
      noText trigger.atTime || trigger.daysOfWeek.all List.isEmpty
  | .monthly => noText trigger.atTime || trigger.dayOfMonth.isNone
  | .cronScheduler => noText trigger.cronExpression

/-- What is wrong with the values of the fields. -/
def problem (trigger : TriggerFields) : Option String :=
  if trigger.interval.any fun n => decide (n < 1) then
    some "Input should be greater than or equal to 1"
  else if trigger.dayOfMonth.any fun n => decide (n < 1) then
    some "Input should be greater than or equal to 1"
  else if trigger.dayOfMonth.any fun n => decide (31 < n) then
    some "Input should be less than or equal to 31"
  else if trigger.cronExpression.any fun text => decide (255 < text.length) then
    some "String should have at most 255 characters"
  else if trigger.isEnabled && trigger.lacksFields then
    some ("Schedule type " ++ trigger.type.name ++ " is missing required fields.")
  else none

/-- The members of the document, in the order of the fields. -/
def members (trigger : TriggerFields) : List (String × Option Json) :=
  [("isEnabled", some (.bool trigger.isEnabled)),
    ("fromDate", trigger.fromDate.map Json.str),
    ("toDate", trigger.toDate.map Json.str),
    ("timeZone", some (.str trigger.timeZone)),
    ("type", some (.str trigger.type.name)),
    ("atTime", trigger.atTime.map Json.str),
    ("daysOfWeek", trigger.daysOfWeek.map Weekday.json),
    ("interval", trigger.interval.map fun n => .num (toString n)),
    ("intervalUnit", trigger.intervalUnit.map fun unit => .str unit.name),
    ("startTime", trigger.startTime.map Json.str),
    ("endTime", trigger.endTime.map Json.str),
    ("dayOfMonth", trigger.dayOfMonth.map fun n => .num (toString n)),
    ("cronExpression", trigger.cronExpression.map Json.str)]

/-- The names of the fields. -/
def names : List String :=
  ["isEnabled", "fromDate", "toDate", "timeZone", "type", "atTime", "daysOfWeek", "interval",
    "intervalUnit", "startTime", "endTime", "dayOfMonth", "cronExpression"]

theorem map_fst_members (trigger : TriggerFields) : trigger.members.map Prod.fst = names :=
  rfl

theorem nodup_members (trigger : TriggerFields) : (trigger.members.map Prod.fst).Nodup := by
  rw [map_fst_members]
  decide +kernel

end TriggerFields

/-- `TaskTriggerParameters`. -/
structure TaskTriggerParameters extends TriggerFields where
  valid : toTriggerFields.problem = none

/-- `trigger_parameters.model_dump(exclude_none=...)`. -/
def TaskTriggerParameters.dump (trigger : TaskTriggerParameters) (excludeNone : Bool) : Members :=
  dumpFields excludeNone trigger.members

/-- The fields of a trigger document, with the defaults of those that it does not have. -/
def readTrigger (conv : Conversions) (document : Members) : Except String TriggerFields := do
  let text key := readField (readOption readText) (.ok none) document key
  let integer key := readField (readOption (readInt conv)) (.ok none) document key
  let isEnabled ← readField (readBool conv) (.ok false) document "isEnabled"
  let fromDate ← text "fromDate"
  let toDate ← text "toDate"
  let timeZone ← readField readText (.ok "+00:00") document "timeZone"
  let type ← readField (readName ScheduleType.all ScheduleType.name) (.ok .daily) document "type"
  let atTime ← text "atTime"
  let daysOfWeek ← readField (readOption Weekday.readDays) (.ok none) document "daysOfWeek"
  let interval ← integer "interval"
  let intervalUnit ← readField (readOption (readName IntervalUnit.all IntervalUnit.name))
    (.ok none) document "intervalUnit"
  let startTime ← text "startTime"
  let endTime ← text "endTime"
  let dayOfMonth ← integer "dayOfMonth"
  let cronExpression ← text "cronExpression"
  return {
    isEnabled, fromDate, toDate, timeZone, type, atTime, daysOfWeek, interval, intervalUnit,
    startTime, endTime, dayOfMonth, cronExpression }

/-- `TaskTriggerParameters.model_validate`. -/
def validateTrigger (conv : Conversions) (document : Members) :
    Except String TaskTriggerParameters := do
  forbidExtra TriggerFields.names document
  let trigger ← readTrigger conv document
  (checked TriggerFields.problem trigger).map fun fields => ⟨fields.1, fields.2⟩

theorem readTrigger_dumpFields (conv : Conversions) (trigger : TriggerFields) (b : Bool) :
    readTrigger conv (dumpFields b trigger.members) = .ok trigger := by
  have hnodup := trigger.nodup_members
  have htext : ∀ {key : String} {value : Option String},
      (key, value.map Json.str) ∈ trigger.members →
        readField (readOption readText) (.ok none) (dumpFields b trigger.members) key =
          .ok value :=
    fun h => readField_option hnodup h fun text => rfl
  have hinteger : ∀ {key : String} {value : Option Int},
      (key, value.map fun n => Json.num (toString n)) ∈ trigger.members →
        readField (readOption (readInt conv)) (.ok none) (dumpFields b trigger.members) key =
          .ok value := by
    intro key value h
    refine readField_option hnodup h fun n => ?_
    show (readInt conv (.num (toString n))).map some = .ok (some n)
    rw [readInt_text]
    rfl
  have hunit : ∀ unit : IntervalUnit,
      readOption (readName IntervalUnit.all IntervalUnit.name) (.str unit.name) =
        .ok (some unit) := by
    intro unit
    show (readName IntervalUnit.all IntervalUnit.name (.str unit.name)).map some = _
    rw [readName_name IntervalUnit.name_inj (by cases unit <;> simp [IntervalUnit.all])]
    rfl
  have hdays : ∀ days : List Weekday,
      readOption Weekday.readDays (Weekday.json days) = .ok (some days) := by
    intro days
    show (Weekday.readDays (Weekday.json days)).map some = _
    rw [Weekday.readDays_json]
    rfl
  have hisEnabled := @readField_dumpFields _ (readBool conv) (.ok false) b _ hnodup "isEnabled"
    (.bool trigger.isEnabled) (by simp [TriggerFields.members])
  have htimeZone := @readField_dumpFields _ readText (.ok "+00:00") b _ hnodup "timeZone"
    (.str trigger.timeZone) (by simp [TriggerFields.members])
  have htype := @readField_dumpFields _ (readName ScheduleType.all ScheduleType.name)
    (.ok .daily) b _ hnodup "type" (.str trigger.type.name) (by simp [TriggerFields.members])
  rw [readName_name ScheduleType.name_inj
    (by cases trigger.type <;> simp [ScheduleType.all])] at htype
  have hdaysOfWeek := @readField_option _ Weekday.readDays b _ hnodup "daysOfWeek"
    trigger.daysOfWeek Weekday.json (by simp [TriggerFields.members]) hdays
  have hintervalUnit := @readField_option _
    (readName IntervalUnit.all IntervalUnit.name) b _ hnodup "intervalUnit"
    trigger.intervalUnit (fun unit => .str unit.name) (by simp [TriggerFields.members]) hunit
  unfold readTrigger
  dsimp only
  rw [hisEnabled, @htext "fromDate" trigger.fromDate (by simp [TriggerFields.members]),
    @htext "toDate" trigger.toDate (by simp [TriggerFields.members]), htimeZone, htype,
    @htext "atTime" trigger.atTime (by simp [TriggerFields.members]),
    hdaysOfWeek,
    @hinteger "interval" trigger.interval (by simp [TriggerFields.members]),
    hintervalUnit,
    @htext "startTime" trigger.startTime (by simp [TriggerFields.members]),
    @htext "endTime" trigger.endTime (by simp [TriggerFields.members]),
    @hinteger "dayOfMonth" trigger.dayOfMonth (by simp [TriggerFields.members]),
    @htext "cronExpression" trigger.cronExpression (by simp [TriggerFields.members])]
  rfl

theorem TaskTriggerParameters.nullFree_dump (trigger : TaskTriggerParameters) (b : Bool) :
    membersNullFree (trigger.dump b) = true ↔ trigger.dump b = trigger.dump true := by
  refine membersNullFree_dumpFields fun field hfield value hvalue => ?_
  simp only [TriggerFields.members, List.mem_cons, List.not_mem_nil, or_false] at hfield
  rcases hfield with rfl | rfl | rfl | rfl | rfl | rfl | rfl | rfl | rfl | rfl | rfl | rfl | rfl
  all_goals simp only [Option.mem_def, Option.map_eq_some_iff, Option.some.injEq] at hvalue
  all_goals first | (subst hvalue; rfl) | (obtain ⟨value, _, rfl⟩ := hvalue)
  all_goals first | rfl | exact Weekday.nullFree_json _

/-- A dump of a trigger is validated as the trigger that was dumped. -/
theorem validateTrigger_dump (conv : Conversions) (trigger : TaskTriggerParameters) (b : Bool) :
    validateTrigger conv (trigger.dump b) = .ok trigger := by
  unfold validateTrigger TaskTriggerParameters.dump
  have hextra : forbidExtra TriggerFields.names (dumpFields b trigger.members) = .ok () :=
    forbidExtra_dumpFields
  rw [hextra, readTrigger_dumpFields]
  exact congrArg (Except.map _) (checked_val ⟨trigger.toTriggerFields, trigger.valid⟩)

/-! ## Denied periods -/

/-- The fields of `DeniedScanPeriod`. -/
structure PeriodFields where
  daysOfWeek : List Weekday
  timeZone : String
  isAllDay : Bool
  fromTime : Option String
  toTime : Option String

namespace PeriodFields

/-- What is wrong with the values of the fields. -/
def problem (period : PeriodFields) : Option String :=
  if period.daysOfWeek.isEmpty then
    some "List should have at least 1 item after validation, not 0"
  else if !period.isAllDay &&
      (TriggerFields.noText period.fromTime || TriggerFields.noText period.toTime) then
    some "A denied scan period requires both fromTime and toTime unless it is all day."
  else none

/-- The members of the document, in the order of the fields. -/
def members (period : PeriodFields) : List (String × Option Json) :=
  [("daysOfWeek", some (Weekday.json period.daysOfWeek)),
    ("timeZone", some (.str period.timeZone)),
    ("isAllDay", some (.bool period.isAllDay)),
    ("fromTime", period.fromTime.map Json.str),
    ("toTime", period.toTime.map Json.str)]

/-- The names of the fields. -/
def names : List String :=
  ["daysOfWeek", "timeZone", "isAllDay", "fromTime", "toTime"]

theorem map_fst_members (period : PeriodFields) : period.members.map Prod.fst = names :=
  rfl

theorem nodup_members (period : PeriodFields) : (period.members.map Prod.fst).Nodup := by
  rw [map_fst_members]
  decide +kernel

end PeriodFields

/-- `DeniedScanPeriod`. -/
structure DeniedScanPeriod extends PeriodFields where
  valid : toPeriodFields.problem = none

/-- The dump of a period. -/
def DeniedScanPeriod.dump (excludeNone : Bool) (period : DeniedScanPeriod) : Members :=
  dumpFields excludeNone period.members

/-- The fields of a period, with the defaults of those that the document does not have. -/
def readPeriod (conv : Conversions) (document : Members) : Except String PeriodFields := do
  let daysOfWeek ← readField Weekday.readDays (.error "Field required") document "daysOfWeek"
  let timeZone ← readField readText (.ok "+00:00") document "timeZone"
  let isAllDay ← readField (readBool conv) (.ok false) document "isAllDay"
  let fromTime ← readField (readOption readText) (.ok none) document "fromTime"
  let toTime ← readField (readOption readText) (.ok none) document "toTime"
  return { daysOfWeek, timeZone, isAllDay, fromTime, toTime }

/-- `DeniedScanPeriod.model_validate`. -/
def validatePeriod (conv : Conversions) : Json → Except String DeniedScanPeriod
  | .obj document => do
      forbidExtra PeriodFields.names document
      let period ← readPeriod conv document
      (checked PeriodFields.problem period).map fun fields => ⟨fields.1, fields.2⟩
  | _ => .error "Input should be a valid dictionary or instance of DeniedScanPeriod"

/-- The fields of `DeniedScanSettings`. -/
structure SettingsFields where
  isEnabled : Bool
  periods : List DeniedScanPeriod

namespace SettingsFields

/-- What is wrong with the values of the fields. -/
def problem (settings : SettingsFields) : Option String :=
  if 100 < settings.periods.length then
    some ("List should have at most 100 items after validation, not " ++
      toString settings.periods.length)
  else if settings.isEnabled && settings.periods.isEmpty then
    some "At least one denied scan period is required when settings are enabled."
  else none

/-- The members of the document, in the order of the fields. -/
def members (settings : SettingsFields) (excludeNone : Bool) : List (String × Option Json) :=
  [("isEnabled", some (.bool settings.isEnabled)),
    ("periods", some (.arr (settings.periods.map fun period => .obj (period.dump excludeNone))))]

/-- The names of the fields. -/
def names : List String :=
  ["isEnabled", "periods"]

theorem map_fst_members (settings : SettingsFields) (b : Bool) :
    (settings.members b).map Prod.fst = names :=
  rfl

theorem nodup_members (settings : SettingsFields) (b : Bool) :
    ((settings.members b).map Prod.fst).Nodup := by
  rw [map_fst_members]
  decide +kernel

end SettingsFields

/-- `DeniedScanSettings`. -/
structure DeniedScanSettings extends SettingsFields where
  valid : toSettingsFields.problem = none

/-- `denied_scan_settings.model_dump(exclude_none=...)`. -/
def DeniedScanSettings.dump (settings : DeniedScanSettings) (excludeNone : Bool) : Members :=
  dumpFields excludeNone (settings.members excludeNone)

/-- The fields of the settings, with the defaults of those that the document does not have. -/
def readSettings (conv : Conversions) (document : Members) : Except String SettingsFields := do
  let isEnabled ← readField (readBool conv) (.ok false) document "isEnabled"
  let periods ← readField (readList (validatePeriod conv)) (.ok []) document "periods"
  return { isEnabled, periods }

/-- `DeniedScanSettings.model_validate`. -/
def validateDenied (conv : Conversions) (document : Members) :
    Except String DeniedScanSettings := do
  forbidExtra SettingsFields.names document
  let settings ← readSettings conv document
  (checked SettingsFields.problem settings).map fun fields => ⟨fields.1, fields.2⟩

theorem readPeriod_dumpFields (conv : Conversions) (period : PeriodFields) (b : Bool) :
    readPeriod conv (dumpFields b period.members) = .ok period := by
  have hnodup := period.nodup_members
  have htext : ∀ {key : String} {value : Option String},
      (key, value.map Json.str) ∈ period.members →
        readField (readOption readText) (.ok none) (dumpFields b period.members) key =
          .ok value :=
    fun h => readField_option hnodup h fun text => rfl
  have hdays := @readField_dumpFields _ Weekday.readDays (.error "Field required") b _ hnodup
    "daysOfWeek" (Weekday.json period.daysOfWeek) (by simp [PeriodFields.members])
  rw [Weekday.readDays_json] at hdays
  have htimeZone := @readField_dumpFields _ readText (.ok "+00:00") b _ hnodup "timeZone"
    (.str period.timeZone) (by simp [PeriodFields.members])
  have hisAllDay := @readField_dumpFields _ (readBool conv) (.ok false) b _ hnodup "isAllDay"
    (.bool period.isAllDay) (by simp [PeriodFields.members])
  unfold readPeriod
  rw [hdays, htimeZone, hisAllDay,
    @htext "fromTime" period.fromTime (by simp [PeriodFields.members]),
    @htext "toTime" period.toTime (by simp [PeriodFields.members])]
  rfl

theorem validatePeriod_dump (conv : Conversions) (b : Bool) (period : DeniedScanPeriod) :
    validatePeriod conv (.obj (period.dump b)) = .ok period := by
  unfold validatePeriod DeniedScanPeriod.dump
  have hextra : forbidExtra PeriodFields.names (dumpFields b period.members) = .ok () :=
    forbidExtra_dumpFields
  dsimp only
  rw [hextra, readPeriod_dumpFields]
  exact congrArg (Except.map _) (checked_val ⟨period.toPeriodFields, period.valid⟩)

theorem readSettings_dumpFields (conv : Conversions) (settings : SettingsFields) (b : Bool) :
    readSettings conv (dumpFields b (settings.members b)) = .ok settings := by
  have hnodup := settings.nodup_members b
  have hisEnabled := @readField_dumpFields _ (readBool conv) (.ok false) b _ hnodup "isEnabled"
    (.bool settings.isEnabled) (by simp [SettingsFields.members])
  have hperiods := @readField_dumpFields _ (readList (validatePeriod conv)) (.ok []) b _ hnodup
    "periods" (.arr (settings.periods.map fun period => .obj (period.dump b)))
    (by simp [SettingsFields.members])
  rw [readList_map (validatePeriod_dump conv b)] at hperiods
  unfold readSettings
  rw [hisEnabled, hperiods]
  rfl

/-- A dump of the denied periods is validated as the settings that were dumped. -/
theorem validateDenied_dump (conv : Conversions) (settings : DeniedScanSettings) (b : Bool) :
    validateDenied conv (settings.dump b) = .ok settings := by
  unfold validateDenied DeniedScanSettings.dump
  have hextra : forbidExtra SettingsFields.names (dumpFields b (settings.members b)) = .ok () :=
    forbidExtra_dumpFields
  rw [hextra, readSettings_dumpFields]
  exact congrArg (Except.map _) (checked_val ⟨settings.toSettingsFields, settings.valid⟩)

theorem DeniedScanPeriod.nullFree_dump (period : DeniedScanPeriod) (b : Bool) :
    membersNullFree (period.dump b) = true ↔ period.dump b = period.dump true := by
  refine membersNullFree_dumpFields fun field hfield value hvalue => ?_
  simp only [PeriodFields.members, List.mem_cons, List.not_mem_nil, or_false] at hfield
  rcases hfield with rfl | rfl | rfl | rfl | rfl
  all_goals simp only [Option.mem_def, Option.map_eq_some_iff, Option.some.injEq] at hvalue
  all_goals first
    | (subst hvalue; exact Weekday.nullFree_json period.daysOfWeek)
    | (subst hvalue; rfl)
    | (obtain ⟨value, _, rfl⟩ := hvalue; rfl)

theorem DeniedScanSettings.nullFree_dump (settings : DeniedScanSettings) (b : Bool) :
    membersNullFree (settings.dump b) = true ↔ settings.dump b = settings.dump true := by
  have hdump : ∀ b, settings.dump b =
      [("isEnabled", .bool settings.isEnabled),
        ("periods", .arr (settings.periods.map fun period => .obj (period.dump b)))] :=
    fun b => rfl
  rw [hdump b, hdump true]
  simp only [membersNullFree, Json.nullFree, itemsNullFree_iff, List.forall_mem_map,
    DeniedScanPeriod.nullFree_dump, Bool.true_and, Bool.and_true, List.cons.injEq, Prod.mk.injEq,
    true_and, and_true, Json.arr.injEq, List.map_inj_left, Json.obj.injEq]

end Scanner
end MpvmApp
