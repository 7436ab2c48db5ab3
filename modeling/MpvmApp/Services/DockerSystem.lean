import MpvmApp.Lib.Runs
import MpvmApp.Services.DockerGroups

/-!
# The system of the managed Docker groups

The runs of a deployment, their parties and the asset groups of MP VM, in any interleaving.  Any
party can take its next statement, a write can fail, others change the groups of MP VM, and the
process can die.

Main definitions:

- `step`: the system.
- `removal`: the group whose removal an event requests.
- `RemovalAllowed`: when a managed group may be removed.
- `Orderly`: no worker claims a run whose scan is being started, and what a cleanup has read is
  not outdated by late writes and answers.
-/

namespace MpvmApp
namespace Services
namespace DockerGroups

/-! ## The system -/

/-- What one of the parties of a run does, or what is done to its row. -/
inductive Action where
  | launch (a : LaunchAction)
  /-- `run_scan_postprocess` starts, for a new run or after a login. -/
  | claim
  | work (a : WorkAction)
  /-- `cancel_scan_postprocess_run`. -/
  | cancel
  /-- `release_scan_postprocess_leases`. -/
  | release
  /-- `resume_scan_postprocess_runs` lists the run among the pending cleanups. -/
  | resume
  /-- The next statement of the call at this place of `resumed`. -/
  | schedule (place : Nat) (w : Write)
  | clean (a : CleanAction)
deriving DecidableEq

/-- The runs by their ids, the asset groups of MP VM, and the clock. -/
structure System where
  now : Int
  runs : Dict RunId Run
  groups : List RemoteGroup

/-- The system without runs. -/
def initial (now : Int) : System where
  now := now
  runs := Dict.empty
  groups := []

/--
What can happen.  `create` inserts the row of a start request; `lost` says that the request
fails there, with the row stored.  `addGroup` and `dropGroup` are what others do in MP VM.
-/
inductive Event where
  | tick (time : Nat)
  | addGroup (id : GroupId) (name : String)
  | dropGroup (id : GroupId)
  | create (r : RunId) (mpTaskId : String) (iterations : Int) (lost : Bool)
  | act (r : RunId) (a : Action)
  /-- The process dies with everything in memory. -/
  | crash
deriving DecidableEq

/-- `create_scan_postprocess_run` for a start request. -/
def newRun (r : RunId) (mpTaskId : String) (iterations now : Int) (lost : Bool) : Run where
  row :=
    { mpTaskId := mpTaskId
      startedFrom := now
      status := .monitoring
      group := if iterations > 0 then some { name := r.groupName, state := .planned } else none }
  launch := if lost then none else some .preparing

namespace Run

/-- A worker can claim the run: it is active, and has none. -/
def claimable (x : Run) : Bool :=
  x.worker.isNone && !x.row.leased && x.row.status.isActive

/-- `claim_scan_postprocess_run`, unless the run has a worker in this process. -/
def claim (x : Run) : Run :=
  if x.claimable then
    { x with
      row := { x.row with leased := true }
      worker := some
        { phase := if x.row.cancelRequested then .ending else .polling
          options := dockerDynamicGroupFromOptions x.row.group
          handling := x.row.cancelRequested } }
  else x

/-- `request_scan_postprocess_cancel`. -/
def cancel (x : Run) : Run :=
  if x.row.status.isActive then
    { x with row := { x.row with status := .cancelling, cancelRequested := true } }
  else x

/-- The row is one of `list_pending_docker_group_cleanups`. -/
def pendingCleanup (x : Run) : Option DockerGroup :=
  x.row.group.filter fun g =>
    !x.row.status.isActive && !decide (g.name = "") && g.cleanupAfter.isSome && g.removedAt.isNone

/-- What an action does to its run. -/
def advance (retention now : Int) (groups : List RemoteGroup) (r : RunId) (x : Run) :
    Action → Run
  | .launch a => x.launchStep retention now groups r a
  | .claim => x.claim
  | .work a =>
      match x.worker with
      | some worker => x.workStep retention now worker a
      | none => x
  | .cancel => x.cancel
  | .release =>
      if x.row.status.isActive then { x with row := { x.row with leased := false } } else x
  | .resume =>
      match x.pendingCleanup with
      | some g => { x with resumed := x.resumed ++ [.reading g none] }
      | none => x
  | .schedule place w =>
      match x.resumed[place]? with
      | some phase =>
          match x.scheduleStep retention now w phase with
          | (x', .next phase') => { x' with resumed := x.resumed.set place phase' }
          | (x', _) => { x' with resumed := x.resumed.eraseIdx place }
      | none => x
  | .clean a =>
      match x.cleanup with
      | some phase => x.cleanStep retention now groups phase a
      | none => x

/-- What is left of a run when the process dies. -/
def crash (x : Run) : Run :=
  { x with launch := none, worker := none, cleanup := none, resumed := [] }

/-- The group whose removal an action requests. -/
def removal (now : Int) (groups : List RemoteGroup) (x : Run) : Action → Option RemoteGroup
  | .clean a => x.cleanup.bind fun phase => removalOf now groups phase a
  | _ => none

end Run

/-- The groups after the one with this id has been removed. -/
def markRemoved (groups : List RemoteGroup) (id : GroupId) : List RemoteGroup :=
  groups.map fun rg => if rg.id = id then { rg with removed := true } else rg

/-- The groups after one has been created, unless its id has been given before. -/
def addRemoteGroup (groups : List RemoteGroup) (id : GroupId) (name : String) :
    List RemoteGroup :=
  if groups.any fun rg => decide (rg.id = id) then groups else { id, name } :: groups

/-- What an action does to the asset groups of MP VM. -/
def groupsAfter (now : Int) (groups : List RemoteGroup) (r : RunId) (x : Run) :
    Action → List RemoteGroup
  | .launch (.create id _) =>
      if x.launch = some .creating then addRemoteGroup groups id r.groupName else groups
  | .clean (.remove applied returned) =>
      match x.removal now groups (.clean (.remove applied returned)) with
      | some rg => if applied then markRemoved groups rg.id else groups
      | none => groups
  | _ => groups

/-- One event. -/
def step (retention : Int) (s : System) : Event → System
  | .tick time => { s with now := s.now + time }
  | .addGroup id name => { s with groups := addRemoteGroup s.groups id name }
  | .dropGroup id => { s with groups := markRemoved s.groups id }
  | .create r mpTaskId iterations lost =>
      match s.runs.get? r with
      | some _ => s
      | none => { s with runs := s.runs.set r (newRun r mpTaskId iterations s.now lost) }
  | .act r a =>
      match s.runs.get? r with
      | some x =>
          { s with
            runs := s.runs.set r (x.advance retention s.now s.groups r a)
            groups := groupsAfter s.now s.groups r x a }
      | none => s
  | .crash => { s with runs := s.runs.mapValues Run.crash }

/-- The group whose removal an event requests from MP VM. -/
def removal (s : System) : Event → Option RemoteGroup
  | .act r a => (s.runs.get? r).bind fun x => x.removal s.now s.groups a
  | _ => none

/-! ## When a group may be removed -/

/-- The options of the run name the group. -/
def Run.RefersTo (x : Run) (rg : RemoteGroup) : Prop :=
  ∃ g ∈ dockerDynamicGroupFromOptions x.row.group, g.id = rg.id.text ∨ g.name = rg.name

instance (x : Run) (rg : RemoteGroup) : Decidable (x.RefersTo rg) := by
  unfold Run.RefersTo
  infer_instance

/-- The cleanup time of the group has passed. -/
def DockerGroup.due (g : DockerGroup) (now : Int) : Bool :=
  g.cleanupAfter.any fun time => decide (time ≤ now)

/--
The run is not active, and its scan has been confirmed to be over and the cleanup time has passed,
or the start of the scan was never requested, or it failed, no run was observed and the cleanup
time has passed.
-/
def Run.MayLose (x : Run) (now : Int) : Prop :=
  x.row.status.isActive = false ∧
    ((x.ended = true ∧
        ∃ g ∈ x.row.group, g.scanTerminalConfirmed = true ∧ g.due now = true) ∨
      x.sent = false ∨
      (x.observed = false ∧ ∃ g ∈ x.row.group, g.state = .startFailed ∧ g.due now = true))

instance (x : Run) (now : Int) : Decidable (x.MayLose now) := by
  unfold Run.MayLose
  infer_instance

/-- A removal is requested only for a group that every run with it may lose. -/
def RemovalAllowed (s : System) (e : Event) : Prop :=
  ∀ rg ∈ removal s e, ∀ item ∈ s.runs.items, item.2.RefersTo rg → item.2.MayLose s.now

instance (s : System) (e : Event) : Decidable (RemovalAllowed s e) := by
  unfold RemovalAllowed
  infer_instance

/-! ## Orderly runs -/

/-- The cleanup of the run has read the row and not removed the group yet. -/
def Run.isCleaning (x : Run) : Bool :=
  x.cleanup.any CleanupPhase.isPast

/--
A call of `schedule_scan_docker_group_cleanup` does not store a later cleanup time than the
group has by now, while the cleanup relies on the one that it has read.
-/
def Run.Punctual (x : Run) : SchedulePhase → Prop
  | .writing _ cleanupAfter =>
      x.isCleaning = true → ∀ g ∈ x.row.group, ∀ time ∈ g.cleanupAfter, cleanupAfter ≤ time
  | _ => True

instance (x : Run) (phase : SchedulePhase) : Decidable (x.Punctual phase) := by
  cases phase <;> unfold Run.Punctual <;> infer_instance

/-- The call in which a coordinator is. -/
def Worker.scheduling (worker : Worker) : Option SchedulePhase :=
  match worker.phase with
  | .scheduling phase => some phase
  | _ => none

/-- The call in which a start request is. -/
def LaunchPhase.schedulePhase : LaunchPhase → Option SchedulePhase
  | .scheduling phase => some phase
  | _ => none

/-- The cleanup is about to ask for the runs of a scan whose start has failed. -/
def CleanupPhase.asksAfterFailure : CleanupPhase → Bool
  | .checking _ group => group.needsTerminalCheck && decide (group.state = .startFailed)
  | _ => false

/--
An action is in order: a worker claims the run only when its scan is not being started; calls to
schedule the cleanup are punctual; and MP VM does not list no run of a scan whose start has failed
after it has listed one.
-/
def Run.Orderly (x : Run) : Action → Prop
  | .claim => x.claimable = true → ∀ phase ∈ x.launch, phase.isEarly = false
  | .launch (.store _) => ∀ phase ∈ x.launch.bind LaunchPhase.schedulePhase, x.Punctual phase
  | .work (.store _) => ∀ phase ∈ x.worker.bind Worker.scheduling, x.Punctual phase
  | .schedule place _ => ∀ phase ∈ x.resumed[place]?, x.Punctual phase
  | .clean (.confirm []) =>
      (∃ phase ∈ x.cleanup, phase.asksAfterFailure = true) → x.observed = false
  | _ => True

instance (x : Run) (a : Action) : Decidable (x.Orderly a) := by
  unfold Run.Orderly
  split <;> infer_instance

/-- An event is in order. -/
def Orderly (s : System) : Event → Prop
  | .act r a => ∀ x ∈ s.runs.get? r, x.Orderly a
  | _ => True

instance (s : System) (e : Event) : Decidable (Orderly s e) := by
  unfold Orderly
  split <;> infer_instance

end DockerGroups
end Services
end MpvmApp
