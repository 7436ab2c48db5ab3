import Mathlib.Data.List.Infix
import MpvmApp.Scanner.Presets
import MpvmApp.Scanner.TaskDocuments

/-!
# Payloads of scanner tasks

The document of a task is built from a request of an administrator or from the preset of a team.
A stored document is read back in two places: as the raw payload of another request, and as the
draft of a preset.

Main definitions:

- `buildScannerTaskPayload`: the document of a task.
- `scannerTaskPayload`: the document of a request, which may have another document to follow.
- `draftFromTask`: the draft of a preset for the document of a task.

Main results:

- Theorem `reencoded_iff`: a document that follows itself is the same exactly when its
  arguments have what the request can say.
- Theorem `draft_recovers`: the draft has the settings of the arguments.
-/

namespace MpvmApp
namespace Scanner

open Sql

/-! ## The document of a task -/

/-- `credential_transport`. -/
inductive Transport where
  | windows | ssh
deriving DecidableEq, Repr

namespace Transport

def name : Transport → String
  | .windows => "windows"
  | .ssh => "ssh"

def all : List Transport :=
  [.windows, .ssh]

theorem name_inj (a b : Transport) (h : a.name = b.name) : a = b := by
  cases a <;> cases b <;> simp_all [name]

end Transport

/-- The arguments of `build_scanner_task_payload`. -/
structure TaskArguments where
  name : String
  description : Option String
  scopeId : String
  profileId : String
  includeTargets : List String
  excludeTargets : List String
  agentIds : List String
  credentialId : Option String
  credentialTransport : Transport
  hostDiscoveryEnabled : Bool
  hostDiscoveryProfileId : Option String
  timeZone : String
  isFqdnPriority : Bool
  triggerParameters : Option Members
  deniedScanSettings : Option Members
  includeAssetGroupIds : List String

/-- A list of texts. -/
def textItems (texts : List String) : Json :=
  .arr (texts.map Json.str)

/-- The reference to a credential. -/
def credentialAuth (credentialId : String) : Json :=
  .obj [("ref_value", .str credentialId), ("ref_type", .str "credential")]

/-- `build_credential_overrides`; another transport is refused by the requests. -/
def buildCredentialOverrides (credentialId : Option String) (transport : Transport) : Members :=
  match orNone credentialId, transport with
  | none, _ => []
  | some credentialId, .ssh =>
      [("transports", .obj [("terminal", .obj [("ssh", .obj [("connection", .obj
        [("auth", credentialAuth credentialId),
          ("privilege_elevation", .obj [("sudo", .obj [])])])])])])]
  | some credentialId, .windows =>
      [("transports", .obj [("windows", .obj [("wmi_and_rpc_and_re", .obj [("connection", .obj
        [("auth", credentialAuth credentialId)])])])])]

/-- The fields of `build_disabled_daily_trigger`. -/
def disabledDailyFields (now timeZone : String) : TriggerFields where
  isEnabled := false
  fromDate := some now
  toDate := none
  timeZone := timeZone
  type := .daily
  atTime := some "09:00:00"
  daysOfWeek := some Weekday.all
  interval := none
  intervalUnit := none
  startTime := none
  endTime := none
  dayOfMonth := none
  cronExpression := none

/-- `build_disabled_daily_trigger`. -/
def buildDisabledDailyTrigger (now timeZone : String) : Members :=
  [("isEnabled", .bool false), ("fromDate", .str now), ("timeZone", .str timeZone),
    ("type", .str "Daily"), ("atTime", .str "09:00:00"),
    ("daysOfWeek", textItems
      ["monday", "tuesday", "wednesday", "thursday", "friday", "saturday", "sunday"])]

/-- The denied periods of a task without settings. -/
def noDeniedPeriods : Members :=
  [("isEnabled", .bool false), ("periods", .arr [])]

/-- `value or default` for a dictionary. -/
def membersOr (value : Option Members) (default : Members) : Members :=
  match value with
  | none | some [] => default
  | some members => members

/-- `hostDiscovery` of a task. -/
def hostDiscovery (enabled : Bool) (profileId : Option String) : Members :=
  ("enabled", .bool enabled) ::
    match orNone profileId with
    | some profileId => [("profile", .str profileId)]
    | none => []

/-- `build_scanner_task_payload`. -/
def buildScannerTaskPayload (now : String) (args : TaskArguments) : Members :=
  [("name", .str args.name),
    ("description", .str (args.description.getD "")),
    ("scope", .str args.scopeId),
    ("profile", .str args.profileId),
    ("overrides", .obj (buildCredentialOverrides args.credentialId args.credentialTransport)),
    ("include", .obj
      [("assets", .arr []),
        ("targets", textItems args.includeTargets),
        -- a group is an object, not an id
        ("assetsGroups", .arr (args.includeAssetGroupIds.map fun groupId =>
          .obj [("id", .str groupId)]))]),
    ("exclude", .obj
      [("assets", .arr []),
        ("targets", textItems args.excludeTargets),
        ("assetsGroups", .arr [])]),
    ("hostDiscovery",
      .obj (hostDiscovery args.hostDiscoveryEnabled args.hostDiscoveryProfileId)),
    ("triggerParameters", .obj
      (membersOr args.triggerParameters (buildDisabledDailyTrigger now args.timeZone))),
    ("deniedScanSettings", .obj (membersOr args.deniedScanSettings noDeniedPeriods)),
    ("isFqdnPriority", .bool args.isFqdnPriority),
    ("groups", .arr [])] ++
  if args.agentIds.isEmpty then []
  else [("agents", .obj [("agentIds", textItems args.agentIds)])]

/-! ## Requests -/

/-- `ScannerTaskRequest`. -/
structure ScannerTaskRequest where
  name : String
  description : Option String
  scopeId : String
  profileId : String
  includeTargets : List String
  excludeTargets : List String
  agentIds : List String
  credentialId : Option String
  credentialTransport : Transport
  hostDiscoveryEnabled : Bool
  hostDiscoveryProfileId : Option String
  timeZone : String
  isFqdnPriority : Bool
  triggerParameters : Option TaskTriggerParameters
  deniedScanSettings : Option DeniedScanSettings
  rawPayload : Option Members

/-- A request that names what is required and leaves the other fields to their defaults. -/
def ScannerTaskRequest.ofNames (name scopeId profileId : String) : ScannerTaskRequest where
  name := name
  description := some ""
  scopeId := scopeId
  profileId := profileId
  includeTargets := []
  excludeTargets := []
  agentIds := []
  credentialId := none
  credentialTransport := .windows
  hostDiscoveryEnabled := false
  hostDiscoveryProfileId := none
  timeZone := "+05:00"
  isFqdnPriority := true
  triggerParameters := none
  deniedScanSettings := none
  rawPayload := none

/-- `[item.strip() for item in items if item.strip()]`. -/
def strippedTexts (items : List String) : List String :=
  (items.map strip).filter fun item => decide (item ≠ "")

/-- The arguments of a request that follows no other document. -/
def ScannerTaskRequest.arguments (payload : ScannerTaskRequest) : TaskArguments where
  name := payload.name
  description := payload.description
  scopeId := payload.scopeId
  profileId := payload.profileId
  includeTargets := strippedTexts payload.includeTargets
  excludeTargets := strippedTexts payload.excludeTargets
  agentIds := strippedTexts payload.agentIds
  credentialId := payload.credentialId
  credentialTransport := payload.credentialTransport
  hostDiscoveryEnabled :=
    payload.hostDiscoveryEnabled || (orNone payload.hostDiscoveryProfileId).isSome
  hostDiscoveryProfileId := payload.hostDiscoveryProfileId
  timeZone := payload.timeZone
  isFqdnPriority := payload.isFqdnPriority
  triggerParameters := payload.triggerParameters.map fun trigger => trigger.dump true
  deniedScanSettings := payload.deniedScanSettings.map fun settings => settings.dump true
  includeAssetGroupIds := []

/-- `as_dict`. -/
def asDict : Json → Members
  | .obj members => members
  | _ => []

@[simp]
theorem asDict_obj (members : Members) : asDict (.obj members) = members :=
  rfl

/-- A path through dictionaries. -/
def pathValue : List String → Json → Option Json
  | [], value => some value
  | key :: path, value => (value.member? key).bind (pathValue path)

/-- The paths of `_credential_id_from_payload`. -/
def credentialPaths : List (List String) :=
  [["windows", "wmi_and_rpc_and_re", "connection", "auth", "ref_value"],
    ["terminal", "ssh", "connection", "auth", "ref_value"]]

/-- `_credential_id_from_payload`. -/
def credentialIdFromPayload (payload : Members) : Except String Json :=
  match Json.member? "overrides" (.obj payload) with
  | none => .ok .null
  | some (.obj overrides) =>
      .ok ((credentialPaths.findSome? fun path =>
        (Json.member? "transports" (.obj overrides)).bind (pathValue path)).getD .null)
  | some _ => .error "object has no attribute 'get'"

/-- A list of texts, or null as it stands for a text that is missing. -/
def textOrNull : Option String → Json
  | some text => .str text
  | none => .null

/-- A document that may be missing. -/
def readDocument {α : Type} (validate : Members → Except String α) : Json → Except String α
  | .obj document => validate document
  | _ => .error "Input should be a valid dictionary"

/-- The request that a document to follow stands for. -/
def followRaw (conv : Conversions) (payload : ScannerTaskRequest) (raw : Members) :
    Except String ScannerTaskRequest := do
  let includes := asDict (dictGet raw "include")
  let excludes := asDict (dictGet raw "exclude")
  let agents := asDict (dictGet raw "agents")
  let discovery := asDict (dictGet raw "hostDiscovery")
  let overrides := asDict (dictGet raw "overrides")
  let transports := asDict (dictGet overrides "transports")
  let trigger := asDict (dictGet raw "triggerParameters")
  let credential ← credentialIdFromPayload raw
  let name ← readText (conv.orElse (dictGet raw "name") (.str payload.name))
  let description ← readOption readText
    (conv.orElse (dictGet raw "description") (textOrNull payload.description))
  let scopeId ← readText (conv.orElse (dictGet raw "scope") (.str payload.scopeId))
  let profileId ← readText (conv.orElse (dictGet raw "profile") (.str payload.profileId))
  let includeTargets ← readList readText
    (conv.orElse (dictGet includes "targets") (textItems payload.includeTargets))
  let excludeTargets ← readList readText
    (conv.orElse (dictGet excludes "targets") (textItems payload.excludeTargets))
  let agentIds ← readList readText
    (conv.orElse (dictGet agents "agentIds") (textItems payload.agentIds))
  let credentialId ← readOption readText
    (conv.orElse credential (textOrNull payload.credentialId))
  let hostDiscoveryEnabled ← readField (readBool conv) (.ok payload.hostDiscoveryEnabled)
    discovery "enabled"
  let hostDiscoveryProfileId ← readOption readText
    (conv.orElse (dictGet discovery "profile") (textOrNull payload.hostDiscoveryProfileId))
  let timeZone ← readText (conv.orElse (dictGet trigger "timeZone") (.str payload.timeZone))
  let isFqdnPriority ← readField (readBool conv) (.ok payload.isFqdnPriority)
    raw "isFqdnPriority"
  let triggerParameters ← readOption (readDocument (validateTrigger conv))
    (dictGet raw "triggerParameters")
  let deniedScanSettings ← readOption (readDocument (validateDenied conv))
    (dictGet raw "deniedScanSettings")
  return {
    name, description, scopeId, profileId, includeTargets, excludeTargets, agentIds, credentialId
    credentialTransport :=
      match dictGet transports "terminal" with
      | .obj _ => .ssh
      | _ => payload.credentialTransport
    hostDiscoveryEnabled, hostDiscoveryProfileId, timeZone, isFqdnPriority, triggerParameters
    deniedScanSettings
    rawPayload := none }

/-- The document of a request that follows no other document. -/
def encodeRequest (now : String) (payload : ScannerTaskRequest) : Except String Members :=
  if payload.arguments.includeTargets.isEmpty then .error "include_targets is required"
  else .ok (buildScannerTaskPayload now payload.arguments)

/-- `scanner_task_payload`. -/
def scannerTaskPayload (conv : Conversions) (now : String) (payload : ScannerTaskRequest) :
    Except String Members :=
  match payload.rawPayload with
  | none | some [] => encodeRequest now payload
  | some raw => (followRaw conv payload raw).bind (encodeRequest now)

/-! ## Presets of teams -/

/-- The columns of a preset that the document of a task depends on. -/
structure TaskPreset extends Preset where
  scopeId : String
  profileId : String
  agentIds : List String
  credentialId : Option String
  credentialTransport : Option Transport
  isFqdnPriority : Bool
  timeZone : Option String
  triggerParameters : Option TaskTriggerParameters
  deniedScanSettings : Option DeniedScanSettings

/-- The arguments of `TeamTasksService._payload`. -/
def teamArguments (preset : TaskPreset) (name description : String)
    (groupIds targets : List String) : TaskArguments where
  name := name
  description := some description
  scopeId := preset.scopeId
  profileId := preset.profileId
  includeTargets := targets
  excludeTargets := []
  agentIds := preset.agentIds.filter fun agent => decide (agent ≠ "")
  credentialId := preset.credentialId
  credentialTransport := preset.credentialTransport.getD .windows
  hostDiscoveryEnabled := preset.hostDiscoveryEnabled
  hostDiscoveryProfileId := preset.hostDiscoveryProfileId
  timeZone := (orNone preset.timeZone).getD "+05:00"
  isFqdnPriority := preset.isFqdnPriority
  -- a preset stores the missing members of its documents
  triggerParameters := preset.triggerParameters.map fun trigger => trigger.dump false
  deniedScanSettings := preset.deniedScanSettings.map fun settings => settings.dump false
  includeAssetGroupIds := groupIds

/-- `TeamTasksService._payload`. -/
def teamPayload (now : String) (preset : TaskPreset) (name description : String)
    (groupIds targets : List String) : Except TeamError Members :=
  match payloadCheck preset.toPreset with
  | .error e => .error e
  | .ok _ =>
      .ok (buildScannerTaskPayload now
        (teamArguments preset name description groupIds targets))

/-- The arguments with which `build_scanner_task_payload` is called. -/
inductive Admitted : TaskArguments → Prop where
  | request (payload : ScannerTaskRequest) : Admitted payload.arguments
  | team (preset : TaskPreset) (name description : String) (groupIds targets : List String)
      (h : payloadCheck preset.toPreset = .ok ()) :
      Admitted (teamArguments preset name description groupIds targets)

/-! ## Stored tasks and drafts -/

/-- The columns of `scan_tasks` that a draft reads. -/
structure ScanTask where
  mpTaskId : String
  name : Json
  scopeId : Json
  profileId : Json
  credentialId : Json
  payload : Json

/-- `record_scan_task`. -/
def recordScanTask (mpTaskId : String) (payload : Members) : Except String ScanTask :=
  (credentialIdFromPayload payload).map fun credentialId =>
    { mpTaskId := mpTaskId
      name := (Json.member? "name" (.obj payload)).getD (.str mpTaskId)
      scopeId := dictGet payload "scope"
      profileId := dictGet payload "profile"
      credentialId := credentialId
      payload := .obj payload }

/-- What `draft_from_task` returns. -/
structure PresetDraft where
  name : String
  description : String
  osFamily : String
  scopeId : Json
  profileId : Json
  credentialId : Json
  credentialTransport : Transport
  agentIds : List Json
  hostDiscoveryEnabled : Bool
  hostDiscoveryProfileId : Json
  isFqdnPriority : Bool
  timeZone : Json
  triggerParameters : Option Members
  deniedScanSettings : Option Members
  allowedAssetGroups : List String
  sourceTaskId : String

/-- `(value or \x7b\x7d).get(key)`. -/
def getMember (conv : Conversions) (value : Json) (key : String) : Except String Json :=
  if !conv.truthy value then .ok .null
  else
    match value with
    | .obj members => .ok (dictGet members key)
    | _ => .error "object has no attribute 'get'"

/-- `"terminal" in transports`. -/
def hasTerminal : Json → Except String Bool
  | .obj members => .ok (decide ("terminal" ∈ members.map Prod.fst))
  | .arr items =>
      .ok (items.any fun item =>
        match item with
        | .str text => decide (text = "terminal")
        | _ => false)
  | .str text => .ok (decide ("terminal".toList <:+: text.toList))
  | _ => .error "argument is not iterable"

/-- `list(value)`. -/
def listItems : Json → Except String (List Json)
  | .arr items => .ok items
  | .obj members => .ok (members.map fun m => .str m.1)
  | .str text => .ok (text.toList.map fun c => .str c.toString)
  | _ => .error "object is not iterable"

/-- `str(value)`. -/
def Conversions.textOf (conv : Conversions) : Json → String
  | .str text => text
  | value => conv.text value

/-- The document, when it is enabled. -/
def enabledDocument (conv : Conversions) : Json → Option Members
  | .obj members => if conv.truthy (dictGet members "isEnabled") then some members else none
  | _ => none

/-- `draft_from_task`. -/
def draftFromTask (conv : Conversions) (task : ScanTask) : Except String PresetDraft := do
  let payload := asDict task.payload
  let found ← getMember conv (dictGet payload "overrides") "transports"
  let terminal ← hasTerminal (conv.orElse found (.obj []))
  let transport := if terminal then Transport.ssh else Transport.windows
  let discovery := asDict (dictGet payload "hostDiscovery")
  let agents ← getMember conv (dictGet payload "agents") "agentIds"
  let agentIds ← listItems (conv.orElse agents (.arr []))
  return {
    name := String.ofList ((conv.textOf (conv.orElse (dictGet payload "name")
      (conv.orElse task.name (.str "")))).toList.take 120)
    description := conv.textOf (conv.orElse (dictGet payload "description") (.str ""))
    osFamily := if transport = .ssh then "linux" else "windows"
    scopeId := conv.orElse (dictGet payload "scope") task.scopeId
    profileId := conv.orElse (dictGet payload "profile") task.profileId
    credentialId := task.credentialId
    credentialTransport := transport
    agentIds := agentIds
    hostDiscoveryEnabled := conv.truthy (dictGet discovery "enabled")
    hostDiscoveryProfileId := dictGet discovery "profile"
    isFqdnPriority :=
      conv.truthy ((Json.member? "isFqdnPriority" (.obj payload)).getD (.bool true))
    timeZone := conv.orElse (dictGet (asDict (dictGet payload "triggerParameters")) "timeZone")
      (.str "+05:00")
    triggerParameters := enabledDocument conv (dictGet payload "triggerParameters")
    deniedScanSettings := enabledDocument conv (dictGet payload "deniedScanSettings")
    allowedAssetGroups := []
    sourceTaskId := task.mpTaskId }

/-- The settings of a task that its draft has. -/
structure Recovers (conv : Conversions) (args : TaskArguments) (draft : PresetDraft) : Prop where
  scopeId : draft.scopeId = .str args.scopeId
  profileId : draft.profileId = .str args.profileId
  agentIds : draft.agentIds = args.agentIds.map Json.str
  hostDiscoveryEnabled : draft.hostDiscoveryEnabled = args.hostDiscoveryEnabled
  hostDiscoveryProfileId :
    draft.hostDiscoveryProfileId = textOrNull (orNone args.hostDiscoveryProfileId)
  isFqdnPriority : draft.isFqdnPriority = args.isFqdnPriority
  triggerParameters : draft.triggerParameters =
    args.triggerParameters.bind fun trigger => enabledDocument conv (.obj trigger)
  deniedScanSettings : draft.deniedScanSettings =
    args.deniedScanSettings.bind fun settings => enabledDocument conv (.obj settings)
  credential : ∀ credentialId, orNone args.credentialId = some credentialId →
    draft.credentialId = .str credentialId ∧
      draft.credentialTransport = args.credentialTransport

/-! ## Reading a document back -/

section Members

variable (now : String) (args : TaskArguments)

@[simp]
theorem dictGet_name : dictGet (buildScannerTaskPayload now args) "name" = .str args.name := by
  simp [buildScannerTaskPayload, dictGet_cons]

@[simp]
theorem dictGet_description :
    dictGet (buildScannerTaskPayload now args) "description" =
      .str (args.description.getD "") := by
  simp [buildScannerTaskPayload, dictGet_cons]

@[simp]
theorem dictGet_scope : dictGet (buildScannerTaskPayload now args) "scope" = .str args.scopeId := by
  simp [buildScannerTaskPayload, dictGet_cons]

@[simp]
theorem dictGet_profile :
    dictGet (buildScannerTaskPayload now args) "profile" = .str args.profileId := by
  simp [buildScannerTaskPayload, dictGet_cons]

@[simp]
theorem dictGet_overrides :
    dictGet (buildScannerTaskPayload now args) "overrides" =
      .obj (buildCredentialOverrides args.credentialId args.credentialTransport) := by
  simp [buildScannerTaskPayload, dictGet_cons]

@[simp]
theorem dictGet_include_targets :
    dictGet (asDict (dictGet (buildScannerTaskPayload now args) "include")) "targets" =
      textItems args.includeTargets := by
  simp [buildScannerTaskPayload, dictGet_cons, asDict]

@[simp]
theorem dictGet_exclude_targets :
    dictGet (asDict (dictGet (buildScannerTaskPayload now args) "exclude")) "targets" =
      textItems args.excludeTargets := by
  simp [buildScannerTaskPayload, dictGet_cons, asDict]

@[simp]
theorem dictGet_hostDiscovery :
    dictGet (buildScannerTaskPayload now args) "hostDiscovery" =
      .obj (hostDiscovery args.hostDiscoveryEnabled args.hostDiscoveryProfileId) := by
  simp [buildScannerTaskPayload, dictGet_cons]

@[simp]
theorem dictGet_triggerParameters :
    dictGet (buildScannerTaskPayload now args) "triggerParameters" =
      .obj (membersOr args.triggerParameters (buildDisabledDailyTrigger now args.timeZone)) := by
  simp [buildScannerTaskPayload, dictGet_cons]

@[simp]
theorem dictGet_deniedScanSettings :
    dictGet (buildScannerTaskPayload now args) "deniedScanSettings" =
      .obj (membersOr args.deniedScanSettings noDeniedPeriods) := by
  simp [buildScannerTaskPayload, dictGet_cons]

@[simp]
theorem dictGet_agents :
    dictGet (buildScannerTaskPayload now args) "agents" =
      if args.agentIds.isEmpty then .null else .obj [("agentIds", textItems args.agentIds)] := by
  by_cases h : args.agentIds.isEmpty
  · simp [buildScannerTaskPayload, dictGet_cons, h]
  · simp [buildScannerTaskPayload, dictGet_cons, h]

@[simp]
theorem member?_isFqdnPriority :
    Json.member? "isFqdnPriority" (.obj (buildScannerTaskPayload now args)) =
      some (.bool args.isFqdnPriority) := by
  simp [buildScannerTaskPayload, Json.member?]

@[simp]
theorem dictGet_enabled (enabled : Bool) (profileId : Option String) :
    dictGet (hostDiscovery enabled profileId) "enabled" = .bool enabled := by
  simp [hostDiscovery, dictGet_cons]

@[simp]
theorem dictGet_discovery_profile (enabled : Bool) (profileId : Option String) :
    dictGet (hostDiscovery enabled profileId) "profile" = textOrNull (orNone profileId) := by
  unfold hostDiscovery
  cases orNone profileId with
  | none => simp [dictGet_cons, textOrNull]
  | some profile => simp [dictGet_cons, textOrNull]

/-- The credential of a document is the one of its arguments. -/
@[simp]
theorem credentialIdFromPayload_build :
    credentialIdFromPayload (buildScannerTaskPayload now args) =
      .ok (textOrNull (orNone args.credentialId)) := by
  have hoverrides :
      Json.member? "overrides" (.obj (buildScannerTaskPayload now args)) =
        some (.obj (buildCredentialOverrides args.credentialId args.credentialTransport)) := by
    simp [buildScannerTaskPayload, Json.member?]
  unfold credentialIdFromPayload
  rw [hoverrides]
  dsimp only
  unfold buildCredentialOverrides
  cases orNone args.credentialId with
  | none => simp [credentialPaths, Json.member?, textOrNull]
  | some credentialId =>
      cases args.credentialTransport with
      | windows =>
          simp [credentialPaths, pathValue, Json.member?, textOrNull, credentialAuth]
      | ssh =>
          simp [credentialPaths, pathValue, Json.member?, textOrNull, credentialAuth]

end Members

@[simp]
theorem ok_bind {α β : Type} (a : α) (f : α → Except String β) :
    (Except.ok a >>= f) = f a :=
  rfl

section Values

variable (conv : Conversions)

@[simp]
theorem orElse_str (text other : String) :
    conv.orElse (.str text) (.str other) = .str (if text = "" then other else text) := by
  by_cases h : text = "" <;> simp [Conversions.orElse, Conversions.truthy, h]

@[simp]
theorem orElse_textItems (texts : List String) :
    conv.orElse (textItems texts) (textItems []) = textItems texts := by
  cases texts <;> rfl

@[simp]
theorem orElse_textOrNull (text : Option String) :
    conv.orElse (textOrNull (orNone text)) (textOrNull none) = textOrNull (orNone text) := by
  unfold Conversions.orElse
  cases horNone : orNone text with
  | none => rfl
  | some clean =>
      have hclean : clean ≠ "" := by
        have hfilter := (Option.filter_eq_some_iff.1 horNone).2
        simpa using hfilter
      simp [textOrNull, Conversions.truthy, hclean]

@[simp]
theorem readText_str (text : String) : readText (.str text) = .ok text :=
  rfl

@[simp]
theorem readOption_textOrNull (text : Option String) :
    readOption readText (textOrNull text) = .ok text := by
  cases text <;> rfl

@[simp]
theorem readList_textItems (texts : List String) :
    readList readText (textItems texts) = .ok texts :=
  @readList_map String readText Json.str (fun _ => rfl) texts

end Values

/-- The request for which a document is read back. -/
def resumed (name scopeId profileId : String) (args : TaskArguments)
    (trigger : TaskTriggerParameters) (settings : DeniedScanSettings) : ScannerTaskRequest where
  name := if args.name = "" then name else args.name
  description := some (args.description.getD "")
  scopeId := if args.scopeId = "" then scopeId else args.scopeId
  profileId := if args.profileId = "" then profileId else args.profileId
  includeTargets := args.includeTargets
  excludeTargets := args.excludeTargets
  agentIds := args.agentIds
  credentialId := orNone args.credentialId
  credentialTransport :=
    if (orNone args.credentialId).isSome then args.credentialTransport else .windows
  hostDiscoveryEnabled := args.hostDiscoveryEnabled
  hostDiscoveryProfileId := orNone args.hostDiscoveryProfileId
  timeZone := if trigger.timeZone = "" then "+05:00" else trigger.timeZone
  isFqdnPriority := args.isFqdnPriority
  triggerParameters := some trigger
  deniedScanSettings := some settings
  rawPayload := none

theorem dictGet_timeZone (trigger : TaskTriggerParameters) (b : Bool) :
    dictGet (trigger.dump b) "timeZone" = .str trigger.timeZone := by
  have h := @member?_dumpFields b trigger.members trigger.nodup_members "timeZone"
    (some (.str trigger.timeZone)) (by simp [TriggerFields.members])
  exact congrArg (fun found : Option Json => found.getD .null) h

/-- What a document is read back as. -/
theorem followRaw_build {conv : Conversions} {now : String} {args : TaskArguments}
    {trigger : TaskTriggerParameters} {settings : DeniedScanSettings} {b b' : Bool}
    (htrigger : membersOr args.triggerParameters (buildDisabledDailyTrigger now args.timeZone) =
      trigger.dump b)
    (hsettings : membersOr args.deniedScanSettings noDeniedPeriods = settings.dump b')
    (name scopeId profileId : String) :
    followRaw conv (.ofNames name scopeId profileId) (buildScannerTaskPayload now args) =
      .ok (resumed name scopeId profileId args trigger settings) := by
  have hagents : conv.orElse
      (dictGet (asDict (dictGet (buildScannerTaskPayload now args) "agents")) "agentIds")
        (textItems []) = textItems args.agentIds := by
    rw [dictGet_agents]
    cases args.agentIds with
    | nil => rfl
    | cons agent agents => simp [asDict, dictGet_cons]
  have henabled : readField (readBool conv) (.ok false)
      (hostDiscovery args.hostDiscoveryEnabled args.hostDiscoveryProfileId) "enabled" =
        .ok args.hostDiscoveryEnabled := by
    simp [readField, hostDiscovery, Json.member?, readBool]
  have hfqdn : readField (readBool conv) (.ok true) (buildScannerTaskPayload now args)
      "isFqdnPriority" = .ok args.isFqdnPriority := by
    simp [readField, readBool]
  have hdescription : readOption readText (conv.orElse (.str (args.description.getD ""))
      (textOrNull (some ""))) = .ok (some (args.description.getD "")) := by
    rw [textOrNull, orElse_str]
    split
    · rename_i hempty
      rw [hempty]
      rfl
    · rfl
  have hreadTrigger : readOption (readDocument (validateTrigger conv)) (.obj (trigger.dump b)) =
      .ok (some trigger) :=
    congrArg (Except.map some) (validateTrigger_dump conv trigger b)
  have hreadSettings :
      readOption (readDocument (validateDenied conv)) (.obj (settings.dump b')) =
        .ok (some settings) :=
    congrArg (Except.map some) (validateDenied_dump conv settings b')
  have htransport : (match dictGet (asDict (dictGet
        (buildCredentialOverrides args.credentialId args.credentialTransport) "transports"))
          "terminal" with
      | .obj _ => Transport.ssh
      | _ => Transport.windows) =
      if (orNone args.credentialId).isSome then args.credentialTransport else .windows := by
    unfold buildCredentialOverrides
    cases orNone args.credentialId with
    | none => rfl
    | some credentialId => cases args.credentialTransport <;> simp [asDict, dictGet_cons]
  unfold followRaw ScannerTaskRequest.ofNames
  simp only [credentialIdFromPayload_build, dictGet_name, dictGet_description, dictGet_scope,
    dictGet_profile, dictGet_include_targets, dictGet_exclude_targets, dictGet_hostDiscovery,
    dictGet_overrides, dictGet_triggerParameters, dictGet_deniedScanSettings, htrigger, hsettings,
    hagents, henabled, hfqdn, hreadTrigger, hreadSettings, asDict_obj, dictGet_discovery_profile,
    dictGet_timeZone, orElse_str, orElse_textItems, orElse_textOrNull, readText_str,
    readOption_textOrNull, readList_textItems, hdescription, ok_bind]
  unfold resumed
  rw [← htransport]
  rfl

/-! ## Encoding what has been read -/

theorem strippedTexts_eq_self_iff {texts : List String} :
    strippedTexts texts = texts ↔ ∀ text ∈ texts, strip text = text ∧ text ≠ "" := by
  unfold strippedTexts
  constructor
  · intro h text htext
    rw [← h] at htext
    obtain ⟨hmem, hne⟩ := List.mem_filter.1 htext
    obtain ⟨before, _, rfl⟩ := List.mem_map.1 hmem
    exact ⟨strip_strip before, of_decide_eq_true hne⟩
  · intro h
    have hmap : texts.map strip = texts.map id :=
      List.map_congr_left fun text htext => (h text htext).1
    rw [hmap, List.map_id, List.filter_eq_self]
    exact fun text htext => decide_eq_true (h text htext).2

theorem textItems_inj {texts others : List String} :
    textItems texts = textItems others ↔ texts = others := by
  unfold textItems
  rw [Json.arr.injEq]
  exact (List.map_injective_iff.2 fun a b h => Json.str.inj h).eq_iff

/-- Two documents are the same when their members are. -/
theorem build_eq_iff {now now' : String} {args args' : TaskArguments} :
    buildScannerTaskPayload now' args' = buildScannerTaskPayload now args ↔
      args'.name = args.name ∧
        args'.description.getD "" = args.description.getD "" ∧
        args'.scopeId = args.scopeId ∧
        args'.profileId = args.profileId ∧
        buildCredentialOverrides args'.credentialId args'.credentialTransport =
          buildCredentialOverrides args.credentialId args.credentialTransport ∧
        (args'.includeTargets = args.includeTargets ∧
          args'.includeAssetGroupIds = args.includeAssetGroupIds) ∧
        args'.excludeTargets = args.excludeTargets ∧
        hostDiscovery args'.hostDiscoveryEnabled args'.hostDiscoveryProfileId =
          hostDiscovery args.hostDiscoveryEnabled args.hostDiscoveryProfileId ∧
        membersOr args'.triggerParameters (buildDisabledDailyTrigger now' args'.timeZone) =
          membersOr args.triggerParameters (buildDisabledDailyTrigger now args.timeZone) ∧
        membersOr args'.deniedScanSettings noDeniedPeriods =
          membersOr args.deniedScanSettings noDeniedPeriods ∧
        args'.isFqdnPriority = args.isFqdnPriority ∧
        args'.agentIds = args.agentIds := by
  have hgroups : ∀ groups others : List String,
      groups.map (fun groupId => Json.obj [("id", .str groupId)]) =
        others.map (fun groupId => Json.obj [("id", .str groupId)]) ↔ groups = others := by
    intro groups others
    refine (List.map_injective_iff.2 fun a b h => ?_).eq_iff
    simpa using h
  have hagents : ((if args'.agentIds.isEmpty then [] else
        [("agents", Json.obj [("agentIds", textItems args'.agentIds)])]) =
      if args.agentIds.isEmpty then [] else
        [("agents", Json.obj [("agentIds", textItems args.agentIds)])]) ↔
      args'.agentIds = args.agentIds := by
    cases hnew : args'.agentIds with
    | nil => cases args.agentIds <;> simp
    | cons agent agents =>
        cases hold : args.agentIds with
        | nil => simp
        | cons first rest => simp [textItems_inj]
  unfold buildScannerTaskPayload
  simp only [List.cons_append, List.nil_append, List.cons.injEq, Prod.mk.injEq, true_and,
    Json.str.injEq, Json.obj.injEq, Json.arr.injEq, Json.bool.injEq, and_true, textItems_inj,
    hgroups, hagents]

/-- The schedule of a task is the dump of a schedule, and of which one. -/
theorem exists_trigger (now : String) {args : TaskArguments} (hadm : Admitted args) :
    ∃ (trigger : TaskTriggerParameters) (b : Bool),
      membersOr args.triggerParameters (buildDisabledDailyTrigger now args.timeZone) =
          trigger.dump b ∧
        (args.triggerParameters = none ∧ trigger.isEnabled = false ∧ b = true ∨
          args.triggerParameters = some (trigger.dump b)) := by
  have hcases : ∀ (b : Bool) (trigger : Option TaskTriggerParameters) (timeZone : String),
      ∃ (found : TaskTriggerParameters) (b' : Bool),
        membersOr (trigger.map fun t => t.dump b) (buildDisabledDailyTrigger now timeZone) =
            found.dump b' ∧
          (trigger.map (fun t => t.dump b) = none ∧ found.isEnabled = false ∧ b' = true ∨
            trigger.map (fun t => t.dump b) = some (found.dump b')) := by
    intro b trigger timeZone
    cases trigger with
    | some trigger => exact ⟨trigger, b, rfl, Or.inr rfl⟩
    | none =>
        exact ⟨⟨disabledDailyFields now timeZone, rfl⟩, true, rfl, Or.inl ⟨rfl, rfl, rfl⟩⟩
  cases hadm with
  | request payload => exact hcases true payload.triggerParameters payload.timeZone
  | team preset => exact hcases false preset.triggerParameters _

theorem exists_settings {args : TaskArguments} (hadm : Admitted args) :
    ∃ (settings : DeniedScanSettings) (b : Bool),
      membersOr args.deniedScanSettings noDeniedPeriods = settings.dump b ∧
        (args.deniedScanSettings = none ∧ settings.isEnabled = false ∧ b = true ∨
          args.deniedScanSettings = some (settings.dump b)) := by
  have hcases : ∀ (b : Bool) (settings : Option DeniedScanSettings),
      ∃ (found : DeniedScanSettings) (b' : Bool),
        membersOr (settings.map fun d => d.dump b) noDeniedPeriods = found.dump b' ∧
          (settings.map (fun d => d.dump b) = none ∧ found.isEnabled = false ∧ b' = true ∨
            settings.map (fun d => d.dump b) = some (found.dump b')) := by
    intro b settings
    cases settings with
    | some settings => exact ⟨settings, b, rfl, Or.inr rfl⟩
    | none => exact ⟨⟨⟨false, []⟩, rfl⟩, true, rfl, Or.inl ⟨rfl, rfl, rfl⟩⟩
  cases hadm with
  | request payload => exact hcases true payload.deniedScanSettings
  | team preset => exact hcases false preset.deniedScanSettings

/-- What a request can say about a task. -/
structure Expressible (args : TaskArguments) : Prop where
  name : args.name ≠ ""
  scopeId : args.scopeId ≠ ""
  profileId : args.profileId ≠ ""
  includeTargets : ∀ text ∈ args.includeTargets, strip text = text ∧ text ≠ ""
  excludeTargets : ∀ text ∈ args.excludeTargets, strip text = text ∧ text ≠ ""
  agentIds : ∀ text ∈ args.agentIds, strip text = text ∧ text ≠ ""
  hostDiscovery : args.hostDiscoveryEnabled = true ∨ orNone args.hostDiscoveryProfileId = none
  assetGroups : args.includeAssetGroupIds = []
  triggerParameters : ∀ trigger ∈ args.triggerParameters, membersNullFree trigger = true
  deniedScanSettings : ∀ settings ∈ args.deniedScanSettings, membersNullFree settings = true

theorem hostDiscovery_resumed_iff {enabled : Bool} {profileId : Option String} :
    hostDiscovery (enabled || (orNone (orNone profileId)).isSome) (orNone profileId) =
        hostDiscovery enabled profileId ↔
      enabled = true ∨ orNone profileId = none := by
  have htwice : orNone (orNone profileId) = orNone profileId := by
    simp [orNone, nullIfEmpty, Option.filter_filter]
  unfold hostDiscovery
  rw [htwice]
  cases enabled <;> cases orNone profileId <;> simp

theorem overrides_resumed {credentialId : Option String} {transport : Transport} :
    buildCredentialOverrides (orNone credentialId)
        (if (orNone credentialId).isSome then transport else .windows) =
      buildCredentialOverrides credentialId transport := by
  have htwice : orNone (orNone credentialId) = orNone credentialId := by
    simp [orNone, nullIfEmpty, Option.filter_filter]
  unfold buildCredentialOverrides
  rw [htwice]
  cases orNone credentialId <;> simp

theorem encodeRequest_eq_ok_iff {now now' : String} {args : TaskArguments}
    {payload : ScannerTaskRequest} (htargets : args.includeTargets ≠ []) :
    encodeRequest now' payload = .ok (buildScannerTaskPayload now args) ↔
      buildScannerTaskPayload now' payload.arguments = buildScannerTaskPayload now args := by
  unfold encodeRequest
  split
  · rename_i hempty
    refine iff_of_false (fun h => nomatch h) fun h => htargets ?_
    rw [← (build_eq_iff.1 h).2.2.2.2.2.1.1]
    exact List.isEmpty_iff.1 hempty
  · rw [Except.ok.injEq]

/-- A document that follows itself is the same when its arguments are what a request can say. -/
theorem reencoded_iff {conv : Conversions} {now : String} {args : TaskArguments}
    (hadm : Admitted args) (htargets : args.includeTargets ≠ []) :
    (∀ now' name scopeId profileId,
      scannerTaskPayload conv now'
          { ScannerTaskRequest.ofNames name scopeId profileId with
            rawPayload := some (buildScannerTaskPayload now args) } =
        .ok (buildScannerTaskPayload now args)) ↔ Expressible args := by
  obtain ⟨trigger, b, htrigger, hwhich⟩ := exists_trigger now hadm
  obtain ⟨settings, b', hsettings, hwhich'⟩ := exists_settings hadm
  have hrequest : ∀ now' name scopeId profileId,
      scannerTaskPayload conv now'
          { ScannerTaskRequest.ofNames name scopeId profileId with
            rawPayload := some (buildScannerTaskPayload now args) } =
        encodeRequest now' (resumed name scopeId profileId args trigger settings) := by
    intro now' name scopeId profileId
    have hfollow := @followRaw_build conv _ _ _ _ _ _ htrigger hsettings name scopeId profileId
    exact congrArg (fun found => found.bind (encodeRequest now')) hfollow
  have hschedule : trigger.dump true = trigger.dump b ↔
      ∀ document ∈ args.triggerParameters, membersNullFree document = true := by
    rcases hwhich with ⟨hnone, _, rfl⟩ | hsome
    · simp [hnone]
    · rw [eq_comm, ← trigger.nullFree_dump b, hsome]
      simp
  have hperiods : settings.dump true = settings.dump b' ↔
      ∀ document ∈ args.deniedScanSettings, membersNullFree document = true := by
    rcases hwhich' with ⟨hnone, _, rfl⟩ | hsome
    · simp [hnone]
    · rw [eq_comm, ← settings.nullFree_dump b', hsome]
      simp
  have hsame : ∀ now' name scopeId profileId,
      scannerTaskPayload conv now'
          { ScannerTaskRequest.ofNames name scopeId profileId with
            rawPayload := some (buildScannerTaskPayload now args) } =
        .ok (buildScannerTaskPayload now args) ↔
      (if args.name = "" then name else args.name) = args.name ∧
        (if args.scopeId = "" then scopeId else args.scopeId) = args.scopeId ∧
        (if args.profileId = "" then profileId else args.profileId) = args.profileId ∧
        (strippedTexts args.includeTargets = args.includeTargets ∧
          [] = args.includeAssetGroupIds) ∧
        strippedTexts args.excludeTargets = args.excludeTargets ∧
        (args.hostDiscoveryEnabled = true ∨ orNone args.hostDiscoveryProfileId = none) ∧
        trigger.dump true = trigger.dump b ∧
        settings.dump true = settings.dump b' ∧
        strippedTexts args.agentIds = args.agentIds := by
    intro now' name scopeId profileId
    have htrigger' : membersOr (resumed name scopeId profileId args trigger
        settings).arguments.triggerParameters (buildDisabledDailyTrigger now'
          (resumed name scopeId profileId args trigger settings).arguments.timeZone) =
        trigger.dump true :=
      rfl
    have hsettings' : membersOr (resumed name scopeId profileId args trigger
        settings).arguments.deniedScanSettings noDeniedPeriods = settings.dump true :=
      rfl
    rw [hrequest, encodeRequest_eq_ok_iff htargets, build_eq_iff, htrigger, hsettings, htrigger',
      hsettings']
    simp only [resumed, ScannerTaskRequest.arguments, Option.getD_some, overrides_resumed,
      hostDiscovery_resumed_iff, true_and]
  constructor
  · intro h
    obtain ⟨hname, hscope, hprofile, ⟨hinclude, hgroups⟩, hexclude, hdiscovery, hdump, hdump',
      hagents⟩ := (hsame "" "a" "a" "a").1 (h "" "a" "a" "a")
    have hne : ∀ text : String, (if text = "" then "a" else text) = text → text ≠ "" := by
      intro text htext hempty
      rw [if_pos hempty, hempty] at htext
      exact absurd htext (by decide)
    exact ⟨hne _ hname, hne _ hscope, hne _ hprofile, strippedTexts_eq_self_iff.1 hinclude,
      strippedTexts_eq_self_iff.1 hexclude, strippedTexts_eq_self_iff.1 hagents, hdiscovery,
      hgroups.symm, hschedule.1 hdump, hperiods.1 hdump'⟩
  · intro h now' name scopeId profileId
    exact (hsame now' name scopeId profileId).2 ⟨if_neg h.name, if_neg h.scopeId,
      if_neg h.profileId, ⟨strippedTexts_eq_self_iff.2 h.includeTargets, h.assetGroups.symm⟩,
      strippedTexts_eq_self_iff.2 h.excludeTargets, h.hostDiscovery,
      hschedule.2 h.triggerParameters, hperiods.2 h.deniedScanSettings,
      strippedTexts_eq_self_iff.2 h.agentIds⟩

/-! ## Drafts -/

theorem enabledDocument_eq_none {conv : Conversions} {document : Members}
    (h : dictGet document "isEnabled" = .bool false) :
    enabledDocument conv (.obj document) = none := by
  unfold enabledDocument
  dsimp only
  rw [h]
  rfl

theorem enabledDocument_trigger {conv : Conversions} {now : String} {args : TaskArguments}
    (hadm : Admitted args) :
    enabledDocument conv (.obj
        (membersOr args.triggerParameters (buildDisabledDailyTrigger now args.timeZone))) =
      args.triggerParameters.bind fun trigger => enabledDocument conv (.obj trigger) := by
  obtain ⟨trigger, b, htrigger, ⟨hnone, henabled, _⟩ | hsome⟩ := exists_trigger now hadm
  · have hdisabled : dictGet (trigger.dump b) "isEnabled" = .bool trigger.isEnabled := rfl
    rw [henabled] at hdisabled
    rw [htrigger, hnone, enabledDocument_eq_none hdisabled]
    rfl
  · rw [htrigger, hsome]
    rfl

theorem enabledDocument_settings {conv : Conversions} {args : TaskArguments}
    (hadm : Admitted args) :
    enabledDocument conv (.obj (membersOr args.deniedScanSettings noDeniedPeriods)) =
      args.deniedScanSettings.bind fun settings => enabledDocument conv (.obj settings) := by
  obtain ⟨settings, b, hsettings, ⟨hnone, henabled, _⟩ | hsome⟩ := exists_settings hadm
  · have hdisabled : dictGet (settings.dump b) "isEnabled" = .bool settings.isEnabled := rfl
    rw [henabled] at hdisabled
    rw [hsettings, hnone, enabledDocument_eq_none hdisabled]
    rfl
  · rw [hsettings, hsome]
    rfl

theorem exists_transports (conv : Conversions) (credentialId : Option String)
    (transport : Transport) :
    ∃ found,
      getMember conv (.obj (buildCredentialOverrides credentialId transport)) "transports" =
          .ok found ∧
        hasTerminal (conv.orElse found (.obj [])) =
          .ok (decide ((orNone credentialId).isSome ∧ transport = .ssh)) := by
  unfold buildCredentialOverrides
  cases orNone credentialId with
  | none => exact ⟨.null, rfl, rfl⟩
  | some credentialId =>
      cases transport with
      | windows => exact ⟨_, rfl, by simp [Conversions.orElse, Conversions.truthy,
          dictGet_cons, hasTerminal]⟩
      | ssh => exact ⟨_, rfl, by simp [Conversions.orElse, Conversions.truthy,
          dictGet_cons, hasTerminal]⟩

theorem exists_agents (conv : Conversions) (now : String) (args : TaskArguments) :
    ∃ found,
      getMember conv (dictGet (buildScannerTaskPayload now args) "agents") "agentIds" =
          .ok found ∧
        listItems (conv.orElse found (.arr [])) = .ok (args.agentIds.map Json.str) := by
  rw [dictGet_agents]
  cases args.agentIds with
  | nil => exact ⟨.null, rfl, rfl⟩
  | cons agent agents =>
      exact ⟨textItems (agent :: agents), by simp [getMember, Conversions.truthy, dictGet_cons],
        rfl⟩

/-- The draft of a stored task has the settings of its arguments. -/
theorem draft_recovers (conv : Conversions) (now mpTaskId : String) {args : TaskArguments}
    (hadm : Admitted args) :
    ∃ task, recordScanTask mpTaskId (buildScannerTaskPayload now args) = .ok task ∧
      ∃ draft, draftFromTask conv task = .ok draft ∧ Recovers conv args draft := by
  obtain ⟨found, hfound, hterminal⟩ :=
    exists_transports conv args.credentialId args.credentialTransport
  obtain ⟨agents, hagents, hitems⟩ := exists_agents conv now args
  have hrecord : recordScanTask mpTaskId (buildScannerTaskPayload now args) =
      .ok {
        mpTaskId := mpTaskId
        name := (Json.member? "name" (.obj (buildScannerTaskPayload now args))).getD
          (.str mpTaskId)
        scopeId := .str args.scopeId
        profileId := .str args.profileId
        credentialId := textOrNull (orNone args.credentialId)
        payload := .obj (buildScannerTaskPayload now args) } := by
    unfold recordScanTask
    rw [credentialIdFromPayload_build, dictGet_scope, dictGet_profile]
    rfl
  refine ⟨_, hrecord, ?_⟩
  unfold draftFromTask
  simp only [asDict_obj, dictGet_overrides, hfound, ok_bind, hterminal, hagents, hitems]
  refine ⟨_, rfl, ?_⟩
  constructor
  · simp
  · simp
  · rfl
  · simp [Conversions.truthy]
  · simp
  · simp [Conversions.truthy]
  · simpa using enabledDocument_trigger hadm
  · simpa using enabledDocument_settings hadm
  · intro credentialId hcredential
    rw [hcredential]
    refine ⟨rfl, ?_⟩
    cases args.credentialTransport <;> rfl

/-! ## Documents that survive -/

/--
The document of a task is returned when it is the one to follow, and the draft of the stored
task has the settings.
-/
def Survives (conv : Conversions) (now : String) (args : TaskArguments) : Prop :=
  (∀ now' name scopeId profileId,
    scannerTaskPayload conv now'
        { ScannerTaskRequest.ofNames name scopeId profileId with
          rawPayload := some (buildScannerTaskPayload now args) } =
      .ok (buildScannerTaskPayload now args)) ∧
  ∀ mpTaskId, ∃ task, recordScanTask mpTaskId (buildScannerTaskPayload now args) = .ok task ∧
    ∃ draft, draftFromTask conv task = .ok draft ∧ Recovers conv args draft

/-- The document of a task survives exactly when its arguments are what a request can say. -/
theorem survives_iff (conv : Conversions) (now : String) {args : TaskArguments}
    (hadm : Admitted args) (htargets : args.includeTargets ≠ []) :
    Survives conv now args ↔ Expressible args := by
  unfold Survives
  rw [reencoded_iff hadm htargets]
  exact and_iff_left fun mpTaskId => draft_recovers conv now mpTaskId hadm

/-- Conversions that refuse a value of another type. -/
def strictConversions : Conversions where
  bool := fun _ => none
  integer := fun _ => none
  text := Json.render
  nonzero := fun text => decide (text ≠ "0")

/-- The arguments of a request with a credential and a schedule. -/
def sshArguments : TaskArguments :=
  ScannerTaskRequest.arguments
    { ScannerTaskRequest.ofNames "Audit" "s-1" "p-1" with
      includeTargets := ["10.0.0.1"]
      credentialId := some "c-1"
      credentialTransport := .ssh }

theorem survives_iff_sshArguments :
    Admitted sshArguments ∧ sshArguments.includeTargets ≠ [] ∧
      Survives strictConversions "2026-03-01T00:00:00.000Z" sshArguments := by
  have hadm : Admitted sshArguments := Admitted.request _
  have htargets : sshArguments.includeTargets ≠ [] := by decide +kernel
  refine ⟨hadm, htargets, (survives_iff _ _ hadm htargets).2 ?_⟩
  constructor
  · decide +kernel
  · decide +kernel
  · decide +kernel
  · decide +kernel
  · decide +kernel
  · decide +kernel
  · exact Or.inr rfl
  · rfl
  · exact fun trigger htrigger => nomatch htrigger
  · exact fun settings hsettings => nomatch hsettings

/-- A preset that has a profile for the discovery, which is off. -/
def quietPreset : TaskPreset where
  presetId := "preset-1"
  roleIds := [1]
  isActive := true
  version := 1
  namePrefix := ""
  hostDiscoveryEnabled := false
  hostDiscoveryProfileId := some "p-2"
  maxActiveTasks := none
  scopeId := "s-1"
  profileId := "p-1"
  agentIds := []
  credentialId := none
  credentialTransport := some .windows
  isFqdnPriority := true
  timeZone := some "+05:00"
  triggerParameters := none
  deniedScanSettings := none

/-- The arguments of a task of that preset. -/
def quietArguments : TaskArguments :=
  teamArguments quietPreset "Audit" "" [] ["10.0.0.1"]

/-- The discovery that a preset has turned off is on when the document is followed. -/
theorem discovery_is_turned_on :
    Admitted quietArguments ∧ quietArguments.includeTargets ≠ [] ∧
      ¬ Survives strictConversions "2026-03-01T00:00:00.000Z" quietArguments := by
  have hadm : Admitted quietArguments := Admitted.team quietPreset "Audit" "" [] _ rfl
  have htargets : quietArguments.includeTargets ≠ [] := by decide +kernel
  refine ⟨hadm, htargets, fun h => ?_⟩
  have hdiscovery := ((reencoded_iff hadm htargets).1 h.1).hostDiscovery
  revert hdiscovery
  decide +kernel

end Scanner
end MpvmApp
