import MpvmApp.Sql.Text

/-!
# Presets of scanner tasks

The tasks of a team are built from presets.  A preset is seen by the users of its roles, can be
archived, and may allow only so many of its tasks at a time.

Main definitions:

- Definition `activePreset`: the preset that a request may use.
- Definition `selection`: the targets that a request names.
-/

namespace MpvmApp
namespace Scanner

open Sql

/-! ## Rows and errors -/

/--
A row of `scan_task_presets` with its roles, as far as the tasks of a team depend on it; the
limit is not zero.
-/
structure Preset where
  presetId : String
  roleIds : List Int
  isActive : Bool
  version : Nat
  namePrefix : String
  hostDiscoveryEnabled : Bool
  hostDiscoveryProfileId : Option String
  maxActiveTasks : Option Nat
deriving DecidableEq, Repr

/-- What `TeamTasksService` raises. -/
inductive TeamError where
  | presetNotFound
  | presetInactive (presetId : String)
  | hostDiscoveryProfileMissing (presetId : String)
  | taskNotFound
  | groupsUnavailable
  | targetsMissing
  | invalidTarget (message : String)
  | selectionMissing (taskId : String)
  | concurrencyLimit (presetId : String) (active limit : Nat)
  | notPersisted (mpTaskId : String)
  /-- Any other exception, with its text. -/
  | other (message : String)
deriving DecidableEq, Repr

/-- The code of a `DomainError`; the others are mapped by the endpoint. -/
def TeamError.code : TeamError → Option String
  | .presetInactive _ => some "PRESET_INACTIVE"
  | .hostDiscoveryProfileMissing _ => some "PRESET_HOST_DISCOVERY_PROFILE_MISSING"
  | .selectionMissing _ => some "TEAM_TASK_GROUPS_MISSING"
  | .concurrencyLimit _ _ _ => some "PRESET_CONCURRENCY_LIMIT"
  | _ => none

/-- The text of the exception. -/
def TeamError.message : TeamError → String
  | .presetNotFound => "Task preset not found."
  | .presetInactive _ => "Пресет в архиве: создание и запуск задач по нему недоступны."
  | .hostDiscoveryProfileMissing _ =>
      "В пресете включён HostDiscovery без профиля. Администратору нужно выбрать профиль в пресете."
  | .taskNotFound => "Team scanner task not found."
  | .groupsUnavailable =>
      "Группы активов пока недоступны: укажите IP-адреса, подсети или FQDN."
  | .targetsMissing => "Укажите хотя бы один IP-адрес, подсеть или FQDN."
  | .invalidTarget message => message
  | .selectionMissing _ => "У задачи не сохранены группы активов и цели. Измените задачу."
  | .concurrencyLimit _ active _ =>
      s!"По пресету уже выполняется задач: {active}. Дождитесь завершения одной из них."
  | .notPersisted mpTaskId =>
      "Scanner task " ++ mpTaskId ++ " was created in MP VM but not saved locally"
  | .other message => message

/-! ## Checks -/

/-- `_active_preset`; without restrictions there are no roles to compare. -/
def activePreset (presetId : String) (roleIds : Option (List Int)) :
    Option Preset → Except TeamError Preset
  | none => .error .presetNotFound
  | some preset =>
      if roleIds.any fun ids => ids.all fun id => decide (id ∉ preset.roleIds) then
        .error .presetNotFound
      else if !preset.isActive then .error (.presetInactive presetId)
      else .ok preset

/-- `_selection`: the groups, of which none can be chosen for now, and the targets. -/
def selection (normalizeScanTargets : List String → Except String (List String))
    (assetGroupIds targets : List String) : Except TeamError (List String) :=
  if assetGroupIds.any fun value => decide (strip value ≠ "") then .error .groupsUnavailable
  else
    match normalizeScanTargets (targets.filter fun value => decide (strip value ≠ "")) with
    | .error message => .error (.invalidTarget message)
    | .ok [] => .error .targetsMissing
    | .ok (target :: rest) => .ok (target :: rest)

/-- The check of `_payload`. -/
def payloadCheck (preset : Preset) : Except TeamError Unit :=
  if preset.hostDiscoveryEnabled && (orNone preset.hostDiscoveryProfileId).isNone then
    .error (.hostDiscoveryProfileMissing preset.presetId)
  else .ok ()

end Scanner
end MpvmApp
