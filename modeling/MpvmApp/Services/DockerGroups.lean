import MpvmApp.Lib.Dict
import MpvmApp.Sql.Text

/-!
# Managed Docker groups of scans

A scan run gets an asset group of its own in MP VM before its scan starts.  Three parties share
the row of the run and the group that its options describe: the request that launches the scan,
the worker that coordinates its postprocessing, and the cleanup that removes the group.  Each is
given here as its next statement; every write to the database is a statement of its own and can
fail with or without being stored.

Main definitions:

- `Run.launchStep`: a start request, from the preparation of the group to its failure path.
- `Run.workStep`: the coordinator, as far as it touches the row.
- `Run.cleanStep`: `run_scan_docker_group_cleanup`.
- `confirmDockerScanTerminalForCleanup`: what an answer of MP VM says about the cleanup.

Main results:

- Theorem `dockerScanGroupName_inj`: runs have groups with different names.
-/

namespace MpvmApp
namespace Services
namespace DockerGroups

/-! ## Ids and names -/

/-- The characters that `docker_scan_group_name` keeps. -/
def isKeyChar (c : Char) : Bool :=
  c.isAlphanum || c == '-'

/-- A text of `uuid.uuid4`. -/
structure RunId where
  text : String
  chars : ∀ c ∈ text.toList, isKeyChar c = true
  length : text.toList.length ≤ 80
  nonempty : text ≠ ""
deriving DecidableEq

/-- The id of an asset group in MP VM: it is not empty, and there is nothing to strip. -/
structure GroupId where
  text : String
  nonempty : text ≠ ""
  strip_text : Sql.strip text = text
deriving DecidableEq

/-- What the names of managed groups start with. -/
def groupNamePrefix : String :=
  "docker containers [mpvm scan] "

/-- `docker_scan_group_name`; `fresh` is the id for a run without a usable one. -/
def dockerScanGroupName (runId fresh : String) : String :=
  let runKey := runId.toList.filter isKeyChar
  groupNamePrefix ++ String.ofList ((if runKey = [] then fresh.toList else runKey).take 80)

/-- The name of the group of a run. -/
def RunId.groupName (r : RunId) : String :=
  groupNamePrefix ++ r.text

/-- Runs have groups with different names. -/
theorem dockerScanGroupName_inj {r r' : RunId} (h : r.groupName = r'.groupName) :
    r = r' := by
  have hlist := congrArg String.toList h
  simp only [RunId.groupName, String.toList_append, List.append_cancel_left_eq] at hlist
  have htext := String.toList_inj.1 hlist
  cases r
  cases r'
  cases htext
  rfl

theorem isSpace_of_isKeyChar {c : Char} (h : isKeyChar c = true) :
    Sql.isSpace c = false := by
  have hrange : c.toNat = 45 ∨ (48 ≤ c.toNat ∧ c.toNat ≤ 122) := by
    have hparts : isKeyChar c = (((decide (c.val ≥ 'A'.val ∧ c.val ≤ 'Z'.val) ||
        (decide (c.val ≥ 'a'.val) && decide (c.val ≤ 'z'.val))) ||
        (decide (c.val ≥ '0'.val) && decide (c.val ≤ '9'.val))) || c == '-') := rfl
    simp only [hparts, Bool.or_eq_true, Bool.and_eq_true, decide_eq_true_eq, beq_iff_eq,
      ge_iff_le, UInt32.le_iff_toNat_le] at h
    rcases h with ((⟨h, h'⟩ | ⟨h, h'⟩) | ⟨h, h'⟩) | rfl
    · exact .inr ⟨le_trans (by decide) h, le_trans h' (by decide)⟩
    · exact .inr ⟨le_trans (by decide) h, le_trans h' (by decide)⟩
    · exact .inr ⟨le_trans (by decide) h, le_trans h' (by decide)⟩
    · exact .inl (by decide)
  simp only [Sql.isSpace, Bool.or_eq_false_iff, Bool.and_eq_false_iff, decide_eq_false_iff_not,
    beq_eq_false_iff_ne]
  omega

theorem strip_groupName (r : RunId) :
    Sql.strip r.groupName = r.groupName := by
  have hne : r.text.toList ≠ [] := fun h => r.nonempty (String.toList_inj.1 h)
  have hlist : r.groupName.toList = groupNamePrefix.toList ++ r.text.toList := by
    rw [RunId.groupName, String.toList_append]
  have hfirst : groupNamePrefix.toList =
      'd' :: "ocker containers [mpvm scan] ".toList := by
    decide +kernel
  have hfront : r.groupName.toList.dropWhile Sql.isSpace = r.groupName.toList := by
    rw [hlist, hfirst, List.cons_append, List.dropWhile_cons_of_neg (by decide)]
  have hback : r.groupName.toList.rdropWhile Sql.isSpace = r.groupName.toList := by
    rw [List.rdropWhile_eq_self_iff]
    intro hl
    have hlast : r.groupName.toList.getLast hl = r.text.toList.getLast hne := by
      simp only [hlist, List.getLast_append_of_ne_nil _ hne]
    rw [hlast, isSpace_of_isKeyChar (r.chars _ (List.getLast_mem hne))]
    decide
  rw [Sql.strip, Sql.stripBy, hfront, hback, String.ofList_toList]

/-! ## Rows -/

/-- `state` of a managed group. -/
inductive GroupState where
  | planned
  | creating
  | createFailed
  | ready
  | starting
  | startFailed
  | active
deriving DecidableEq

/--
`options.docker_dynamic_group`.  A time text is what `parse_mpvm_datetime` reads in it, in
microseconds; `scanFinishedAt` comes from MP VM and may have none.
-/
structure DockerGroup where
  id : String := ""
  name : String
  state : GroupState
  scannerStartRequestedAt : Option Int := none
  scannerStartedAt : Option Int := none
  scanFinishedAt : Option (Option Int) := none
  scanTerminalConfirmed : Bool := false
  cleanupAfter : Option Int := none
  removedAt : Option Int := none
deriving DecidableEq

/-- The status of a postprocessing run. -/
inductive RunStatus where
  | monitoring
  | resolving
  | processing
  | waiting
  | cancelling
  | completed
  | completedWithErrors
  | cancelled
  | failed
deriving DecidableEq

/-- `SCAN_POSTPROCESS_ACTIVE_STATUSES`. -/
def RunStatus.isActive : RunStatus → Bool
  | .monitoring | .resolving | .processing | .waiting | .cancelling => true
  | .completed | .completedWithErrors | .cancelled | .failed => false

/-- The statuses with which the coordinator finishes a run. -/
inductive FinalStatus where
  | completed
  | completedWithErrors
  | cancelled
  | failed
deriving DecidableEq

/-- A final status as a status. -/
def FinalStatus.toStatus : FinalStatus → RunStatus
  | .completed => .completed
  | .completedWithErrors => .completedWithErrors
  | .cancelled => .cancelled
  | .failed => .failed

@[simp]
theorem isActive_toStatus (status : FinalStatus) :
    status.toStatus.isActive = false := by
  cases status <;> rfl

/-- A row of `scan_postprocess_runs`; `leased` says that `worker_id` is set. -/
structure RunRow where
  mpTaskId : String
  startedFrom : Int
  mpRunId : String := ""
  status : RunStatus
  leased : Bool := false
  cancelRequested : Bool := false
  group : Option DockerGroup
deriving DecidableEq

/-- `docker_dynamic_group_from_options`. -/
def dockerDynamicGroupFromOptions (group : Option DockerGroup) : Option DockerGroup :=
  group.filter fun g => !decide (g.id = "" ∧ g.name = "")

/-- `isoformat(timespec="seconds")`. -/
def seconds (time : Int) : Int :=
  time - time % 1000000

/-- `docker_group_cleanup_after`; `retention` is the retention in microseconds. -/
def dockerGroupCleanupAfter (retention : Int) (scanFinishedAt : Option Int) (now : Int) : Int :=
  seconds (scanFinishedAt.getD now + retention)

/-! ## The answers of MP VM -/

/-- A run of a scanner task: `status_strings` of its status, and the text of its end. -/
structure TaskRun where
  id : String
  statuses : List String
  finishedAt : Option (Option Int) := none
deriving DecidableEq

/-- `_IN_PROGRESS_STATUSES`. -/
def inProgressStatuses : List String :=
  ["inprogress", "running", "started", "assigned", "scheduled", "pending", "queued"]

/-- `is_finished`. -/
def TaskRun.isFinished (run : TaskRun) : Bool :=
  if run.statuses.any fun status => decide (status ∈ inProgressStatuses) then false
  else
    run.finishedAt.isSome || run.statuses.any fun status =>
      decide (status ∈ ["finished", "completed", "failed", "stopped", "suspended"])

/-- The newest of the listed runs, `runs[0]`, is finished. -/
def newestFinished (runs : List TaskRun) : Bool :=
  runs.head?.any TaskRun.isFinished

/-- `run.get("finishedAt") or db.now_utc()`. -/
def TaskRun.terminalAt (run : TaskRun) (now : Int) : Option Int :=
  run.finishedAt.getD (some (seconds now))

/-- An asset group of MP VM.  Removed groups are kept, because ids are not given twice. -/
structure RemoteGroup where
  id : GroupId
  name : String
  removed : Bool := false
deriving DecidableEq

/-- `find_asset_group`, with the hierarchy in the order of the search. -/
def findAssetGroup (groups : List RemoteGroup) (groupId name : String) : Option RemoteGroup :=
  groups.find? fun rg =>
    !rg.removed &&
      (decide (groupId ≠ "" ∧ rg.id.text = groupId) || decide (name ≠ "" ∧ rg.name = name))

/-- The group whose removal `remove_docker_dynamic_group` requests. -/
def groupToRemove (groups : List RemoteGroup) (group : DockerGroup) : Option RemoteGroup :=
  (findAssetGroup groups (Sql.strip group.id) "").or
    (findAssetGroup groups "" (Sql.strip group.name))

/-- The start of the scan was requested, `start_was_requested`. -/
def DockerGroup.startWasRequested (group : DockerGroup) : Bool :=
  group.scannerStartRequestedAt.isSome || group.scannerStartedAt.isSome

/-- `needs_terminal_check`. -/
def DockerGroup.needsTerminalCheck (group : DockerGroup) : Bool :=
  group.startWasRequested && !group.scanTerminalConfirmed

/-- What `confirm_docker_scan_terminal_for_cleanup` finds out. -/
inductive Confirmation where
  /-- The group can be cleaned up; no run was observed if `unobserved` is set. -/
  | ready (group : DockerGroup) (unobserved : Bool)
  /-- `None`: the scan may still be active. -/
  | notYet
  /-- The scan has ended at this time, which is still to be stored. -/
  | terminal (terminalAt : Option Int)
deriving DecidableEq

/--
`confirm_docker_scan_terminal_for_cleanup` without its write; `runs` is the answer to
`get_task_runs`, which is asked only if a check is needed.
-/
def confirmDockerScanTerminalForCleanup (now : Int) (row : RunRow) (group : DockerGroup)
    (runs : List TaskRun) : Except String Confirmation :=
  if !group.needsTerminalCheck then .ok (.ready group false)
  else if Sql.strip row.mpTaskId = "" then
    .error "Cannot confirm scanner termination: task id or start timestamp is missing."
  else
    match runs with
    | [] =>
        if group.state = .startFailed ∧ group.cleanupAfter.any (fun time => decide (time ≤ now)) then
          .ok (.ready group true)
        else .ok .notYet
    | latest :: _ =>
        let expected := Sql.strip row.mpRunId
        let actual := Sql.strip latest.id
        if expected ≠ "" ∧ actual ≠ "" ∧ actual ≠ expected then .ok .notYet
        else if latest.isFinished then .ok (.terminal (latest.terminalAt now))
        else .ok .notYet

/-! ## The parties -/

/-- How a write to the database ends: it is stored or not, and returns or raises. -/
inductive Write where
  | done
  | lost
  | unsure
deriving DecidableEq

/-- The values have been stored. -/
def Write.stored : Write → Bool
  | .lost => false
  | _ => true

/-- The call has returned. -/
def Write.returned : Write → Bool
  | .done => true
  | _ => false

/-- Where `schedule_scan_docker_group_cleanup` stands. -/
inductive SchedulePhase where
  /-- The row is about to be read; `supplied` and `finishedAt` are the arguments. -/
  | reading (supplied : DockerGroup) (finishedAt : Option (Option Int))
  /-- These values are about to be stored. -/
  | writing (scanFinishedAt : Option Int) (cleanupAfter : Int)
  /-- The cleanup is about to be submitted. -/
  | submitting
deriving DecidableEq

/-- Where a start request stands once it has inserted the row. -/
inductive LaunchPhase where
  | preparing
  | lookingUp
  | reusing (id : GroupId)
  | creating
  | storing (id : GroupId)
  | createFailing
  | ready
  | requested
  | starting
  | startFailing
  /-- `start_scanner_task_with_retry` has returned. -/
  | started
  /-- An exception has been raised; `finish_provisional_scan_start_failure` is called. -/
  | failing
  | scheduling (phase : SchedulePhase)
  | finishing
deriving DecidableEq

/-- The phases before `start_scanner_task_with_retry` has returned, and the failure path. -/
def LaunchPhase.isEarly : LaunchPhase → Bool
  | .started => false
  | _ => true

/-- Where the coordinator of a run stands. -/
inductive WorkPhase where
  | polling
  | remembering (run : TaskRun)
  | recording (run : TaskRun)
  /-- The loop has been left without a finished run. -/
  | unconfirmed
  | ending
  | scheduling (phase : SchedulePhase)
  | finishing
  /-- The row has its final status. -/
  | closing
deriving DecidableEq

/-- The phases in which `monitor_successful_scan_jobs` runs. -/
def WorkPhase.monitors : WorkPhase → Bool
  | .polling | .remembering _ | .recording _ | .unconfirmed => true
  | _ => false

/--
The coordinator: `options` is the group in the options that it has claimed, `monitored` the
`scan_finished_at` of the monitor and `scanFinishedAt` that of the coordinator, and
`handling` says that an exception is handled.
-/
structure Worker where
  phase : WorkPhase
  options : Option DockerGroup
  latestSeen : Bool := false
  monitored : Option (Option Int) := none
  scanFinishedAt : Option (Option Int) := none
  handling : Bool := false
deriving DecidableEq

/-- Where `run_scan_docker_group_cleanup` stands. -/
inductive CleanupPhase where
  | reading
  /-- The row was terminal and its group not removed when it was read. -/
  | checking (row : RunRow) (group : DockerGroup)
  /-- The confirmation is about to be stored. -/
  | confirming (row : RunRow) (group : DockerGroup) (terminalAt : Option Int)
  /-- The group can be cleaned up; the deadline is waited for. -/
  | waiting (group : DockerGroup) (unobserved : Bool)
  /-- `removed_at` is about to be stored. -/
  | recording
deriving DecidableEq

/-- The row has been read, and the group is not removed yet. -/
def CleanupPhase.isPast : CleanupPhase → Bool
  | .checking _ _ | .confirming _ _ _ | .waiting _ _ => true
  | _ => false

/--
A run: its row, and the parties that work on it in memory.  `resumed` are the calls of
`schedule_scan_docker_group_cleanup` from `resume_scan_postprocess_runs`.  The last three
fields are its history, for which the program has no variables: the start of the scan has been
requested from MP VM; an answer has listed a run of the task; an answer since the request has
listed a finished run as the newest.
-/
structure Run where
  row : RunRow
  launch : Option LaunchPhase := none
  worker : Option Worker := none
  cleanup : Option CleanupPhase := none
  resumed : List SchedulePhase := []
  sent : Bool := false
  observed : Bool := false
  ended : Bool := false
deriving DecidableEq

namespace Run

/-- `update_scan_postprocess_docker_group`; every caller has found a group in the options. -/
def updateGroup (x : Run) (w : Write) (f : DockerGroup → DockerGroup) : Run :=
  if w.stored then { x with row := { x.row with group := x.row.group.map f } } else x

/-- `finish_scan_postprocess_run`. -/
def finish (x : Run) (w : Write) (status : RunStatus) : Run :=
  if w.stored then { x with row := { x.row with status := status, leased := false } } else x

/-- An answer to `get_task_runs` enters the history. -/
def observe (x : Run) (runs : List TaskRun) : Run :=
  { x with
    observed := x.observed || !runs.isEmpty
    ended := x.ended || (x.sent && newestFinished runs) }

end Run

/-- How a call goes on. -/
inductive Progress (π : Type) where
  | next (phase : π)
  | returned
  | raised

/-- The next statement of `schedule_scan_docker_group_cleanup`. -/
def Run.scheduleStep (retention now : Int) (w : Write) (x : Run) :
    SchedulePhase → Run × Progress SchedulePhase
  | .reading supplied finishedAt =>
      if !w.returned then (x, .raised)
      else
        let group := (dockerDynamicGroupFromOptions x.row.group).getD supplied
        if group.removedAt.isSome then (x, .returned)
        else
          let terminalAt := group.scanFinishedAt.getD (finishedAt.getD (some (seconds now)))
          (x, .next (.writing terminalAt
            (group.cleanupAfter.getD (dockerGroupCleanupAfter retention terminalAt now))))
  | .writing scanFinishedAt cleanupAfter =>
      (x.updateGroup w fun g =>
        { g with scanFinishedAt := some scanFinishedAt, cleanupAfter := some cleanupAfter },
        if w.returned then .next .submitting else .raised)
  | .submitting =>
      -- A cleanup that is not done is not submitted again.
      ({ x with cleanup := some (x.cleanup.getD .reading) }, .returned)

/-- What a start request does next. -/
inductive LaunchAction where
  | store (w : Write)
  | lookUp
  | create (id : GroupId) (returned : Bool)
  | start
  | answer (returned : Bool)
  | read
  | raise
deriving DecidableEq

/-- The phase after a write. -/
def Write.next {π : Type} (w : Write) (returned raised : π) : π :=
  if w.returned then returned else raised

/-- The group is ready: its id and name are stored. -/
def readyGroup (r : RunId) (id : GroupId) (g : DockerGroup) : DockerGroup :=
  { g with id := id.text, name := r.groupName, state := .ready }

/--
The next statement of a start request: `prepare_docker_dynamic_group_for_scan`, the start in
`start_scanner_task_impl`, and `finish_provisional_scan_start_failure`.  The run has a
group exactly when `DOCKER_DYNAMIC_GROUP_ITERATIONS` is positive.
-/
def Run.launchStep (retention now : Int) (groups : List RemoteGroup) (r : RunId) (x : Run) :
    LaunchAction → Run
  | .store w =>
      match x.launch with
      | some .preparing =>
          if x.row.group.isNone then { x with launch := some .ready }
          else
            { x.updateGroup w fun g => { g with name := r.groupName, state := .creating } with
              launch := some (w.next .lookingUp .failing) }
      | some (.reusing id) =>
          { x.updateGroup w (readyGroup r id) with launch := some (w.next .ready .failing) }
      | some (.storing id) =>
          { x.updateGroup w (readyGroup r id) with launch := some (w.next .ready .failing) }
      | some .createFailing =>
          { x.updateGroup w fun g =>
              { g with state := .createFailed, cleanupAfter := some (seconds now) } with
            launch := some .failing }
      | some .ready =>
          if x.row.group.isNone then { x with launch := some .requested }
          else
            { x.updateGroup w fun g =>
                { g with state := .starting, scannerStartRequestedAt := some (seconds now) } with
              launch := some (w.next .requested .startFailing) }
      | some .startFailing =>
          { x.updateGroup w fun g => { g with state := .startFailed } with
            launch := some .failing }
      | some .started =>
          { x.updateGroup w fun g =>
              { g with state := .active, scannerStartedAt := some x.row.startedFrom } with
            launch := none }
      | some (.scheduling phase) =>
          match x.scheduleStep retention now w phase with
          | (x', .next phase') => { x' with launch := some (.scheduling phase') }
          | (x', .returned) => { x' with launch := some .finishing }
          | (x', .raised) => { x' with launch := none }
      | some .finishing => { x.finish w .failed with launch := none }
      | _ => x
  | .lookUp =>
      match x.launch with
      | some .lookingUp =>
          match findAssetGroup groups "" r.groupName with
          | some rg => { x with launch := some (.reusing rg.id) }
          | none => { x with launch := some .creating }
      | _ => x
  | .create id returned =>
      match x.launch with
      | some .creating =>
          -- MP VM gives no id twice.
          if groups.any fun rg => decide (rg.id = id) then x
          else { x with launch := some (if returned then .storing id else .createFailing) }
      | _ => x
  | .start =>
      match x.launch with
      | some .requested => { x with launch := some .starting, sent := true }
      | _ => x
  | .answer returned =>
      match x.launch with
      | some .starting =>
          { x with launch := some (if returned then .started else .startFailing) }
      | _ => x
  | .read =>
      match x.launch with
      | some .failing =>
          if x.row.status.isActive then
            { x with
              launch := some (match dockerDynamicGroupFromOptions x.row.group with
                | some g => .scheduling (.reading g (some (some (seconds now))))
                | none => .finishing) }
          else { x with launch := none }
      | _ => x
  | .raise =>
      match x.launch with
      | some .lookingUp => { x with launch := some .createFailing }
      | some .creating => { x with launch := some .createFailing }
      | some .failing => { x with launch := none }
      | _ => x

/-- What a coordinator does next. -/
inductive WorkAction where
  | poll (runs : List TaskRun)
  | store (w : Write)
  /-- The progress is stored; `seen` says that there are assets. -/
  | progress (seen : Bool) (w : Write)
  | skip
  | leave
  | begin
  | finish (status : FinalStatus) (w : Write)
  | close
  | raise
deriving DecidableEq

/-- An exception goes to the handler, or ends the coordinator when the handler has raised it. -/
def Worker.fail (worker : Worker) : Option Worker :=
  if worker.handling then none else some { worker with phase := .ending, handling := true }

/-- The next statement of `run_scan_postprocess` that concerns the row or its group. -/
def Run.workStep (retention now : Int) (x : Run) (worker : Worker) : WorkAction → Run
  | .poll runs =>
      match worker.phase, runs with
      | .polling, [] => x.observe []
      | .polling, latest :: older =>
          { x.observe (latest :: older) with
            worker := some { worker with
              latestSeen := true
              phase :=
                if latest.id = "" then .polling
                else if latest.isFinished && worker.monitored.isNone then .remembering latest
                else .recording latest } }
      | _, _ => x
  | .store w =>
      match worker.phase with
      | .remembering latest =>
          let worker := { worker with monitored := some (latest.terminalAt now) }
          if worker.options.isSome && (dockerDynamicGroupFromOptions x.row.group).isSome then
            { x.updateGroup w fun g =>
                { g with
                  scanFinishedAt := some (latest.terminalAt now)
                  scanTerminalConfirmed := true } with
              worker :=
                if w.returned then some { worker with phase := .recording latest }
                else worker.fail }
          else { x with worker := some { worker with phase := .recording latest } }
      | .unconfirmed =>
          let finishedAt := some (seconds now)
          if worker.options.isSome && (dockerDynamicGroupFromOptions x.row.group).isSome then
            { x.updateGroup w fun g =>
                { g with scanFinishedAt := some finishedAt, scanTerminalConfirmed := false } with
              worker :=
                if w.returned then
                  some { worker with scanFinishedAt := some finishedAt, phase := .ending }
                else worker.fail }
          else
            { x with
              worker := some { worker with scanFinishedAt := some finishedAt, phase := .ending } }
      | .scheduling phase =>
          match x.scheduleStep retention now w phase with
          | (x', .next phase') =>
              { x' with worker := some { worker with phase := .scheduling phase' } }
          | (x', .returned) => { x' with worker := some { worker with phase := .finishing } }
          | (x', .raised) => { x' with worker := worker.fail }
      | _ => x
  | .progress seen w =>
      match worker.phase with
      | .recording latest =>
          -- The status is overwritten whatever it is.
          { x with
            row :=
              if w.stored then
                { x.row with
                  mpRunId := latest.id
                  status := if seen then .processing else .monitoring }
              else x.row
            worker := if w.returned then some { worker with phase := .polling } else worker.fail }
      | _ => x
  | .skip =>
      match worker.phase with
      | .recording _ => { x with worker := some { worker with phase := .polling } }
      | _ => x
  | .leave =>
      match worker.phase with
      | .polling =>
          if !worker.latestSeen then { x with worker := worker.fail }
          else if worker.monitored.isNone then
            { x with worker := some { worker with phase := .unconfirmed } }
          else
            { x with
              worker := some
                { worker with scanFinishedAt := worker.monitored, phase := .ending } }
      | _ => x
  | .begin =>
      match worker.phase with
      | .ending =>
          { x with
            worker := some { worker with
              phase := match worker.options with
                | some g => .scheduling (.reading g worker.scanFinishedAt)
                | none => .finishing } }
      | _ => x
  | .finish status w =>
      match worker.phase with
      | .finishing =>
          { x.finish w status.toStatus with
            worker :=
              if !w.returned then worker.fail
              else if worker.handling then none
              else some { worker with phase := .closing } }
      | _ => x
  | .close =>
      match worker.phase with
      | .closing => { x with worker := none }
      | _ => x
  | .raise => { x with worker := worker.fail }

/-- What a cleanup does next. -/
inductive CleanAction where
  | read
  | confirm (runs : List TaskRun)
  | store (w : Write)
  /-- The removal is requested; MP VM carries it out if `applied` is set. -/
  | remove (applied returned : Bool)
  | raise
  | stop
deriving DecidableEq

/-- The removal that an action of a cleanup requests, if there is a group to remove. -/
def removalOf (now : Int) (groups : List RemoteGroup) :
    CleanupPhase → CleanAction → Option RemoteGroup
  | .waiting group _, .remove _ _ =>
      if group.cleanupAfter.any fun time => decide (time ≤ now) then groupToRemove groups group
      else none
  | _, _ => none

/-- The next statement of `run_scan_docker_group_cleanup`. -/
def Run.cleanStep (retention now : Int) (groups : List RemoteGroup) (x : Run)
    (phase : CleanupPhase) : CleanAction → Run
  | .read =>
      match phase with
      | .reading =>
          match dockerDynamicGroupFromOptions x.row.group with
          | none => { x with cleanup := none }
          | some group =>
              if group.removedAt.isSome then { x with cleanup := none }
              else if x.row.status.isActive then x
              else { x with cleanup := some (.checking x.row group) }
      | _ => x
  | .confirm runs =>
      match phase with
      | .checking row group =>
          { (if group.needsTerminalCheck then x.observe runs else x) with
            cleanup := some (match confirmDockerScanTerminalForCleanup now row group runs with
              | .ok (.ready group unobserved) => .waiting group unobserved
              | .ok (.terminal terminalAt) => .confirming row group terminalAt
              | .ok .notYet => .reading
              | .error _ => .reading) }
      | _ => x
  | .store w =>
      match phase with
      | .confirming _ group terminalAt =>
          let confirmed (g : DockerGroup) : DockerGroup :=
            { g with
              scanFinishedAt := some terminalAt
              scanTerminalConfirmed := true
              cleanupAfter := some (dockerGroupCleanupAfter retention terminalAt now) }
          { x.updateGroup w confirmed with
            cleanup := some (w.next (.waiting (confirmed group) false) .reading) }
      | .recording =>
          { x.updateGroup w fun g => { g with removedAt := some (seconds now) } with
            cleanup := if w.returned then none else some .reading }
      | _ => x
  | .remove _ returned =>
      match phase with
      | .waiting group _ =>
          match group.cleanupAfter with
          | none => { x with cleanup := some .reading }
          | some time =>
              if now < time then x
              else if (groupToRemove groups group).isNone || returned then
                { x with cleanup := some .recording }
              else { x with cleanup := some .reading }
      | _ => x
  | .raise => { x with cleanup := some .reading }
  | .stop => { x with cleanup := none }

end DockerGroups
end Services
end MpvmApp
