import Mathlib.Data.List.Sort
import MpvmApp.Automations.Runbook
import MpvmApp.Lib.Runs
import MpvmApp.Lib.Table

/-!
# The scheduler

A tick of the scheduler reads the schedules that are due and handles one after the
other: it starts a run under a key for the slot, or records that the slot is skipped,
and then advances the schedule in another transaction.  An exception ends the tick.

Main definitions:

- `attempt`: what a tick does for one schedule before it advances it.
- `tickLoop`: the loop of a tick, up to the point where the process dies.
- `schedulerStep`: one step of the deployment.

Main results:

- Theorem `consistent_schedulerStep`: the runs of a slot have the key of the slot.
-/

namespace MpvmApp
namespace Automations

/-! ## Stored rows -/

/-- Instants are seconds since the epoch. -/
abbrev Instant := Int

/-- `trigger_type`. -/
inductive Trigger where
  | manual
  | schedule
  | retry
deriving DecidableEq, Repr

/--
An idempotency key: `schedule:ID:SLOT` of a slot, or the text that a client sends,
which names no slot.
-/
inductive RunKey where
  | slot (scheduleId : String) (slot : Instant)
  | client (text : String)
deriving DecidableEq, Repr

/-- A row of `automation_schedules`. -/
structure Schedule where
  scheduleId : String
  runbookId : String
  cron : String
  timezone : String
  enabled : Bool := true
  nextRunAt : Instant
  lastScheduledAt : Option Instant := none
  lastStatus : Option String := none
deriving DecidableEq, Repr

/-- The latest published version of a runbook. -/
structure Version where
  version : Nat
  destructive : Bool := false
  destructiveApproved : Bool := false
deriving DecidableEq, Repr

/-- The arguments of `start_run`. -/
structure RunRequest where
  runbookId : String
  dryRun : Bool := false
  trigger : Trigger := .manual
  scheduleId : Option String := none
  scheduledFor : Option Instant := none
  key : Option RunKey := none
deriving DecidableEq, Repr

/-- A row of `automation_runs`. -/
structure RunRecord extends RunRequest where
  version : Nat
  status : RunStatus
deriving DecidableEq, Repr

/-- The tables of the scheduler. -/
structure SchedulerState where
  schedules : Table Schedule Schedule.scheduleId Schedule.scheduleId
  versions : String → Option Version
  runs : List RunRecord := []

/-- What the deployment fixes: the poll interval and the next slot of a cron expression. -/
structure SchedulerSettings where
  pollSeconds : Int
  next : String → String → Instant → Option Instant

/-- How `start_run` raises apart from its own checks. -/
inductive Fault where
  /-- Before the run is created. -/
  | early
  /-- After the run is created. -/
  | late
deriving DecidableEq, Repr

/-- What a tick finds outside of the tables. -/
structure TickEnv where
  now : Instant
  ready : String → Bool
  fault : String → Option Fault

namespace SchedulerState

/-- `get_run_by_idempotency_key`. -/
def byKey? (s : SchedulerState) (key : RunKey) : Option RunRecord :=
  s.runs.find? fun r => decide (r.key = some key)

/-- `has_active_run`. -/
def hasActiveRun (s : SchedulerState) (runbookId : String) : Bool :=
  s.runs.any fun r => decide (r.runbookId = runbookId) && r.status.isActive

/-- The runs of a slot of a schedule. -/
def slotRuns (s : SchedulerState) (scheduleId : String) (slot : Instant) : List RunRecord :=
  s.runs.filter fun r => decide (r.scheduleId = some scheduleId ∧ r.scheduledFor = some slot)

/-- `create_run`, unless its key is used. -/
def createRun? (s : SchedulerState) (request : RunRequest) (version : Version)
    (status : RunStatus) : Option SchedulerState :=
  if (request.key.bind s.byKey?).isSome then none
  else
    some
      { s with
        runs := { toRunRequest := request, version := version.version, status := status } :: s.runs }

/-- `due_schedules` without its limit: rows of one instant come in any stored order. -/
def dueSchedules (s : SchedulerState) (now : Instant) : List Schedule :=
  (s.schedules.rows.filter fun x => x.enabled && decide (x.nextRunAt ≤ now)).insertionSort
    fun x y => x.nextRunAt ≤ y.nextRunAt

/-- The row of a schedule changes. -/
def updateSchedule (s : SchedulerState) (scheduleId : String) (f : Schedule → Schedule)
    (hf : ∀ x, (f x).scheduleId = x.scheduleId) : SchedulerState :=
  { s with
    schedules := s.schedules.mapRows
      (fun x => if x.scheduleId = scheduleId then f x else x)
      (fun x => by split <;> simp [hf]) (fun x => by split <;> simp [hf]) }

end SchedulerState

/-- The fields of a replay that `start_run` compares. -/
def RunRecord.sameRequest (replay : RunRecord) (request : RunRequest) : Bool :=
  decide (replay.runbookId = request.runbookId) && decide (replay.dryRun = request.dryRun) &&
    decide (replay.trigger = request.trigger) &&
    decide (replay.scheduleId = request.scheduleId) &&
    decide (replay.scheduledFor = request.scheduledFor)

/-- The key that is looked up; an empty text is no key. -/
def RunKey.lookup? : RunKey → Option RunKey
  | .client text => if text = "" then none else some (.client text)
  | key => some key

/-- `start_run`; the truth value tells whether it returns. -/
def startRun (late : Bool) (s : SchedulerState) (request : RunRequest) : SchedulerState × Bool :=
  match (request.key.bind RunKey.lookup?).bind s.byKey? with
  | some replay => (s, replay.sameRequest request)
  | none =>
      match s.versions request.runbookId with
      | none => (s, false)
      | some version =>
          if version.destructive && !version.destructiveApproved then (s, false)
          else
            match s.createRun? request version .queued with
            | some s' => (s', !late)
            | none => (s, false)

/-! ## Ticks -/

/-- The run of the slot at which a schedule is due. -/
def Schedule.request (x : Schedule) : RunRequest where
  runbookId := x.runbookId
  trigger := .schedule
  scheduleId := some x.scheduleId
  scheduledFor := some x.nextRunAt
  key := some (.slot x.scheduleId x.nextRunAt)

/-- The reason for which a slot is skipped. -/
def skipReason (cfg : SchedulerSettings) (env : TickEnv) (s : SchedulerState) (x : Schedule) :
    Option String :=
  if env.now - x.nextRunAt > cfg.pollSeconds * 2 then some "missed"
  else if s.hasActiveRun x.runbookId then some "overlap"
  else if env.ready x.scheduleId then none
  else some "service_account_unavailable"

/-- The run that records a skipped slot. -/
def skipRun (s : SchedulerState) (x : Schedule) : SchedulerState :=
  match s.versions x.runbookId with
  | none => s
  | some version => (s.createRun? x.request version .skipped).getD s

/--
What a tick does for a schedule before it advances it: the next slot and the status
for the advance, or nothing when an exception is raised.
-/
def attempt (cfg : SchedulerSettings) (env : TickEnv) (s : SchedulerState) (x : Schedule) :
    SchedulerState × Option (Instant × String) :=
  match cfg.next x.cron x.timezone env.now with
  | none => (s, none)
  | some nextAt =>
      match skipReason cfg env s x with
      | some reason => (skipRun s x, some (nextAt, "skipped:" ++ reason))
      | none =>
          if env.fault x.scheduleId = some .early then (s, none)
          else
            let started := startRun (decide (env.fault x.scheduleId = some .late)) s x.request
            (started.1, if started.2 then some (nextAt, "queued") else none)

/-- The row of a schedule that is advanced from a slot. -/
def Schedule.advanced (x : Schedule) (slot nextAt : Instant) (status : String) : Schedule :=
  { x with
    nextRunAt := nextAt
    lastScheduledAt := some slot
    lastStatus := some status }

/-- `advance_schedule`. -/
def advance (s : SchedulerState) (x : Schedule) (nextAt : Instant) (status : String) :
    SchedulerState :=
  s.updateSchedule x.scheduleId (fun row => row.advanced x.nextRunAt nextAt status) fun _ => rfl

/--
The loop of a tick over the schedules that it has read.  The process dies after a
number of transactions: a schedule takes two of them.
-/
def tickLoop (cfg : SchedulerSettings) (env : TickEnv) :
    Nat → SchedulerState → List Schedule → SchedulerState
  | 0, s, _ => s
  | _, s, [] => s
  | 1, s, x :: _ => (attempt cfg env s x).1
  | n + 2, s, x :: xs =>
      match (attempt cfg env s x).2 with
      | none => (attempt cfg env s x).1
      | some (nextAt, status) =>
          tickLoop cfg env n (advance (attempt cfg env s x).1 x nextAt status) xs

/-- The schedules that one tick reads at most. -/
def dueLimit : Nat := 20

/-- `scheduler_tick` in a process that dies after a number of transactions. -/
def schedulerTick (cfg : SchedulerSettings) (env : TickEnv) (transactions : Nat)
    (s : SchedulerState) : SchedulerState :=
  tickLoop cfg env transactions s ((s.dueSchedules env.now).take dueLimit)

/-! ## The deployment -/

/-- What happens in the deployment. -/
inductive SchedulerEvent where
  | tick (env : TickEnv) (transactions : Nat)
  /-- `start_run` for a client. -/
  | start (runbookId : String) (dryRun : Bool) (trigger : Trigger) (key : Option String)
  | publish (runbookId : String) (version : Version)
  /-- A worker, an operator or the recovery stores a status of a run. -/
  | setStatus (i : Nat) (status : RunStatus)
  | create (scheduleId runbookId cron timezone : String) (enabled : Bool) (now : Instant)
  | edit (scheduleId cron timezone : String) (enabled : Bool) (now : Instant)

/-- `create_schedule` under a fresh id. -/
def createSchedule (cfg : SchedulerSettings) (s : SchedulerState)
    (scheduleId runbookId cron timezone : String) (enabled : Bool) (now : Instant) :
    SchedulerState :=
  match s.versions runbookId, cfg.next cron timezone now with
  | some _, some nextAt =>
      { s with
        schedules := (s.schedules.insert?
          { scheduleId := scheduleId
            runbookId := runbookId
            cron := cron
            timezone := timezone
            enabled := enabled
            nextRunAt := nextAt }).getD s.schedules }
  | _, _ => s

/-- `update_schedule`. -/
def editSchedule (cfg : SchedulerSettings) (s : SchedulerState)
    (scheduleId cron timezone : String) (enabled : Bool) (now : Instant) : SchedulerState :=
  match cfg.next cron timezone now with
  | none => s
  | some nextAt =>
      s.updateSchedule scheduleId
        (fun row =>
          { row with
            cron := cron
            timezone := timezone
            enabled := enabled
            nextRunAt := nextAt })
        fun _ => rfl

/-- One step of the deployment. -/
def schedulerStep (cfg : SchedulerSettings) (s : SchedulerState) :
    SchedulerEvent → SchedulerState
  | .tick env transactions => schedulerTick cfg env transactions s
  | .start runbookId dryRun trigger key =>
      (startRun false s
        { runbookId := runbookId
          dryRun := dryRun
          trigger := trigger
          key := key.map .client }).1
  | .publish runbookId version =>
      { s with versions := fun id => if id = runbookId then some version else s.versions id }
  | .setStatus i status =>
      { s with runs := s.runs.modify i fun r => { r with status := status } }
  | .create scheduleId runbookId cron timezone enabled now =>
      createSchedule cfg s scheduleId runbookId cron timezone enabled now
  | .edit scheduleId cron timezone enabled now =>
      editSchedule cfg s scheduleId cron timezone enabled now

/-- A deployment without runbooks. -/
def noSchedules : SchedulerState where
  schedules := .empty
  versions := fun _ => none

/-! ## Consistent tables -/

/--
A key names one run, the runs of a slot are those with its key, and they were
requested for a schedule as it is.
-/
structure Consistent (s : SchedulerState) : Prop where
  keys : s.runs.Pairwise fun r r' => ∀ key, r.key = some key → r'.key ≠ some key
  slots : ∀ r ∈ s.runs, ∀ id slot,
    r.scheduleId = some id ∧ r.scheduledFor = some slot ↔ r.key = some (.slot id slot)
  requests : ∀ r ∈ s.runs, ∀ id slot, r.key = some (.slot id slot) →
    ∃ x ∈ s.schedules, x.scheduleId = id ∧
      r.sameRequest { x with nextRunAt := slot : Schedule }.request = true

section Consistent

variable {s s' : SchedulerState}

theorem byKey?_eq_none_iff {key : RunKey} :
    s.byKey? key = none ↔ ∀ r ∈ s.runs, r.key ≠ some key := by
  simp [SchedulerState.byKey?, List.find?_eq_none]

/-- A slot has one run when its key is used, and none otherwise. -/
theorem length_slotRuns (h : Consistent s) (scheduleId : String) (slot : Instant) :
    (s.slotRuns scheduleId slot).length =
      if (s.byKey? (.slot scheduleId slot)).isSome then 1 else 0 := by
  have hsame : s.slotRuns scheduleId slot =
      s.runs.filter fun r => decide (r.key = some (.slot scheduleId slot)) := by
    refine List.filter_congr fun r hr => ?_
    rw [decide_eq_decide]
    exact h.slots r hr scheduleId slot
  rw [hsame]
  unfold SchedulerState.byKey?
  have hkeys := h.keys
  clear hsame h
  generalize s.runs = runs at hkeys ⊢
  induction runs with
  | nil => rfl
  | cons r runs ih =>
      rw [List.pairwise_cons] at hkeys
      by_cases hkey : r.key = some (.slot scheduleId slot)
      · have hrest : (runs.filter fun r => decide (r.key = some (.slot scheduleId slot))) = [] := by
          rw [List.filter_eq_nil_iff]
          intro r' hr'
          simpa using hkeys.1 r' hr' _ hkey
        simp [hkey, hrest]
      · simpa [hkey] using ih hkeys.2

theorem length_slotRuns_le (h : Consistent s) (scheduleId : String) (slot : Instant) :
    (s.slotRuns scheduleId slot).length ≤ 1 := by
  rw [length_slotRuns h]
  split <;> omega

/-- The schedules keep their ids and runbooks. -/
def SameSchedules (s s' : SchedulerState) : Prop :=
  ∀ x ∈ s.schedules, ∃ x' ∈ s'.schedules,
    x'.scheduleId = x.scheduleId ∧ x'.runbookId = x.runbookId

/-- The tables stay consistent when the requests of the runs stay as they are. -/
theorem Consistent.of_requests (h : Consistent s)
    (hruns : s'.runs.map RunRecord.toRunRequest = s.runs.map RunRecord.toRunRequest)
    (hschedules : SameSchedules s s') :
    Consistent s' := by
  have hmem : ∀ r' ∈ s'.runs, ∃ r ∈ s.runs, r.toRunRequest = r'.toRunRequest := by
    intro r' hr'
    have hrequest := List.mem_map_of_mem (f := RunRecord.toRunRequest) hr'
    rw [hruns] at hrequest
    exact List.mem_map.1 hrequest
  refine ⟨?_, ?_, ?_⟩
  · have hkeys := (List.pairwise_map (f := RunRecord.toRunRequest)
      (R := fun q q' => ∀ key, q.key = some key → q'.key ≠ some key)).2 h.keys
    rw [← hruns] at hkeys
    exact List.pairwise_map.1 hkeys
  · intro r' hr' id slot
    obtain ⟨r, hr, hsame⟩ := hmem r' hr'
    rw [← hsame]
    exact h.slots r hr id slot
  · intro r' hr' id slot hkey
    obtain ⟨r, hr, hsame⟩ := hmem r' hr'
    rw [← hsame] at hkey
    obtain ⟨x, hx, hid, hrequest⟩ := h.requests r hr id slot hkey
    obtain ⟨x', hx', hid', hrunbook⟩ := hschedules x hx
    have hrequests : { x' with nextRunAt := slot : Schedule }.request =
        { x with nextRunAt := slot : Schedule }.request := by
      simp [Schedule.request, hid', hrunbook]
    refine ⟨x', hx', hid'.trans hid, ?_⟩
    rw [hrequests]
    unfold RunRecord.sameRequest at hrequest ⊢
    rw [← hsame]
    exact hrequest

/-- A new run keeps the tables consistent when its slot is that of its key. -/
theorem Consistent.createRun (h : Consistent s) {request : RunRequest} {version : Version}
    {status : RunStatus} (hcreate : s.createRun? request version status = some s')
    (hrequest : (request.scheduleId = none ∧ ∀ id slot, request.key ≠ some (.slot id slot)) ∨
      ∃ x ∈ s.schedules, ∃ slot, request = { x with nextRunAt := slot : Schedule }.request) :
    Consistent s' := by
  unfold SchedulerState.createRun? at hcreate
  split at hcreate
  · cases hcreate
  · rename_i hfree
    cases hcreate
    refine ⟨List.pairwise_cons.2 ⟨?_, h.keys⟩, ?_, ?_⟩
    · intro r hr key hkey
      dsimp only at hkey
      rw [hkey, Option.bind_some, Option.not_isSome_iff_eq_none, byKey?_eq_none_iff] at hfree
      exact hfree r hr
    · intro r hr id slot
      rcases List.mem_cons.1 hr with rfl | hr
      · rcases hrequest with ⟨hnone, hkey⟩ | ⟨x, _, slot', rfl⟩
        · simp [hnone, hkey]
        · simp [Schedule.request]
      · exact h.slots r hr id slot
    · intro r hr id slot hkey
      rcases List.mem_cons.1 hr with rfl | hr
      · rcases hrequest with ⟨_, hnot⟩ | ⟨x, hx, slot', rfl⟩
        · exact absurd hkey (hnot id slot)
        · simp only [Schedule.request, Option.some.injEq, RunKey.slot.injEq] at hkey
          refine ⟨x, hx, hkey.1, ?_⟩
          simp [RunRecord.sameRequest, Schedule.request, hkey.2]
      · exact h.requests r hr id slot hkey

theorem Consistent.startRun (h : Consistent s) {late : Bool} {request : RunRequest}
    (hrequest : (request.scheduleId = none ∧ ∀ id slot, request.key ≠ some (.slot id slot)) ∨
      ∃ x ∈ s.schedules, ∃ slot, request = { x with nextRunAt := slot : Schedule }.request) :
    Consistent (startRun late s request).1 := by
  unfold Automations.startRun
  split
  · exact h
  · split
    · exact h
    · split
      · exact h
      · split
        · rename_i hcreate
          exact h.createRun hcreate hrequest
        · exact h

theorem sameSchedules_updateSchedule {scheduleId : String} {f : Schedule → Schedule}
    (hf : ∀ x, (f x).scheduleId = x.scheduleId)
    (hrunbook : ∀ x, (f x).runbookId = x.runbookId) :
    SameSchedules s (s.updateSchedule scheduleId f hf) := by
  intro x hx
  refine ⟨if x.scheduleId = scheduleId then f x else x, ?_, ?_, ?_⟩
  · simp only [SchedulerState.updateSchedule, Table.mem_mapRows]
    exact ⟨x, hx, rfl⟩
  · split
    · exact hf x
    · rfl
  · split
    · exact hrunbook x
    · rfl

theorem mem_dueSchedules {now : Instant} {x : Schedule} :
    x ∈ s.dueSchedules now ↔ x ∈ s.schedules ∧ x.enabled = true ∧ x.nextRunAt ≤ now := by
  simp [SchedulerState.dueSchedules, Table.mem_def]

theorem Consistent.attempt {cfg : SchedulerSettings} {env : TickEnv} {x : Schedule}
    (h : Consistent s) (hx : ∃ x' ∈ s.schedules, ∃ slot,
      x.request = { x' with nextRunAt := slot : Schedule }.request) :
    Consistent (attempt cfg env s x).1 := by
  unfold Automations.attempt
  split
  · exact h
  · split
    · unfold skipRun
      split
      · exact h
      · cases hcreate : s.createRun? x.request _ .skipped with
        | none => exact h
        | some s' => exact h.createRun hcreate (.inr hx)
    · split
      · exact h
      · exact h.startRun (.inr hx)

@[simp]
theorem schedules_startRun (late : Bool) (s : SchedulerState) (request : RunRequest) :
    (startRun late s request).1.schedules = s.schedules := by
  unfold startRun SchedulerState.createRun?
  split
  · rfl
  · split
    · rfl
    · split
      · rfl
      · split
        · rename_i hcreate
          split at hcreate <;> cases hcreate
          rfl
        · rfl

@[simp]
theorem schedules_attempt (cfg : SchedulerSettings) (env : TickEnv) (s : SchedulerState)
    (x : Schedule) :
    (attempt cfg env s x).1.schedules = s.schedules := by
  unfold attempt
  split
  · rfl
  · split
    · unfold skipRun SchedulerState.createRun?
      split
      · rfl
      · split <;> rfl
    · split
      · rfl
      · exact schedules_startRun _ s x.request

/-- An attempt that returns has computed the next slot after the time of the tick. -/
theorem next_of_attempt {cfg : SchedulerSettings} {env : TickEnv} {x : Schedule}
    {nextAt : Instant} {status : String} (h : (attempt cfg env s x).2 = some (nextAt, status)) :
    cfg.next x.cron x.timezone env.now = some nextAt := by
  unfold attempt at h
  cases hnext : cfg.next x.cron x.timezone env.now with
  | none =>
      rw [hnext] at h
      cases h
  | some slot =>
      rw [hnext] at h
      dsimp only at h
      split at h
      · cases h
        rfl
      · split at h
        · cases h
        · dsimp only at h
          split at h <;> cases h
          rfl

theorem find?_advance (s : SchedulerState) (x : Schedule) (nextAt : Instant) (status : String)
    (id : String) :
    (advance s x nextAt status).schedules.find? id =
      if id = x.scheduleId then
        (s.schedules.find? id).map fun row => row.advanced x.nextRunAt nextAt status
      else s.schedules.find? id := by
  unfold advance SchedulerState.updateSchedule
  rw [Table.find?_mapRows]
  cases hfind : s.schedules.find? id with
  | none => simp
  | some row =>
      have hid := Table.pk_of_find? hfind
      by_cases heq : id = x.scheduleId
      · simp [heq, hid]
      · simp [heq, hid]

end Consistent

/-! ## Consistent runs of the deployment -/

section Deployment

variable {s s' : SchedulerState} {cfg : SchedulerSettings}

theorem SameSchedules.refl (s : SchedulerState) :
    SameSchedules s s :=
  fun x hx => ⟨x, hx, rfl, rfl⟩

theorem sameSchedules_advance (s : SchedulerState) (x : Schedule) (nextAt : Instant)
    (status : String) :
    SameSchedules s (advance s x nextAt status) := by
  unfold advance
  apply sameSchedules_updateSchedule
  exact fun _ => rfl

theorem Consistent.advance (h : Consistent s) (x : Schedule) (nextAt : Instant)
    (status : String) :
    Consistent (advance s x nextAt status) :=
  h.of_requests rfl (sameSchedules_advance s x nextAt status)

/-- The schedule is stored with its id and its runbook. -/
def Known (s : SchedulerState) (x : Schedule) : Prop :=
  ∃ x' ∈ s.schedules, x'.scheduleId = x.scheduleId ∧ x'.runbookId = x.runbookId

theorem Known.request {x : Schedule} (h : Known s x) :
    ∃ x' ∈ s.schedules, ∃ slot,
      x.request = { x' with nextRunAt := slot : Schedule }.request := by
  obtain ⟨x', hx', hid, hrunbook⟩ := h
  exact ⟨x', hx', x.nextRunAt, by simp [Schedule.request, hid, hrunbook]⟩

theorem Known.mono {x : Schedule} (h : Known s x) (hsame : SameSchedules s s') :
    Known s' x := by
  obtain ⟨x', hx', hid, hrunbook⟩ := h
  obtain ⟨x'', hx'', hid', hrunbook'⟩ := hsame x' hx'
  exact ⟨x'', hx'', hid'.trans hid, hrunbook'.trans hrunbook⟩

theorem sameSchedules_attempt (env : TickEnv) (s : SchedulerState) (x : Schedule) :
    SameSchedules s (attempt cfg env s x).1 := by
  intro x' hx'
  rw [schedules_attempt]
  exact ⟨x', hx', rfl, rfl⟩

/-- A tick keeps the tables consistent, wherever the process dies. -/
theorem Consistent.tickLoop {env : TickEnv} {xs : List Schedule} (h : Consistent s)
    (hknown : ∀ x ∈ xs, Known s x) (n : Nat) :
    Consistent (tickLoop cfg env n s xs) := by
  induction n, s, xs using Automations.tickLoop.induct cfg env with
  | case1 s xs => exact h
  | case2 n s hn => simpa [Automations.tickLoop] using h
  | case3 s x xs =>
      exact h.attempt (hknown x List.mem_cons_self).request
  | case4 n s x xs hraises =>
      simp only [Automations.tickLoop, hraises]
      exact h.attempt (hknown x List.mem_cons_self).request
  | case5 n s x xs nextAt status hstatus ih =>
      simp only [Automations.tickLoop, hstatus]
      apply ih
      · exact (h.attempt (hknown x List.mem_cons_self).request).advance x nextAt status
      · intro y hy
        refine ((hknown y (List.mem_cons_of_mem x hy)).mono ?_).mono
          (sameSchedules_advance _ x nextAt status)
        exact sameSchedules_attempt env s x

/-- Every step of the deployment keeps the tables consistent. -/
theorem consistent_schedulerStep (h : Consistent s) (ev : SchedulerEvent) :
    Consistent (schedulerStep cfg s ev) := by
  cases ev with
  | tick env transactions =>
      refine h.tickLoop (fun x hx => ?_) transactions
      exact ⟨x, (mem_dueSchedules.1 (List.mem_of_mem_take hx)).1, rfl, rfl⟩
  | start runbookId dryRun trigger key =>
      refine h.startRun (.inl ⟨rfl, fun id slot => ?_⟩)
      cases key <;> simp
  | publish runbookId version => exact h.of_requests rfl (.refl s)
  | setStatus i status =>
      refine h.of_requests ?_ (.refl s)
      apply List.ext_getElem?
      intro j
      simp only [schedulerStep, List.getElem?_map, List.getElem?_modify]
      cases s.runs[j]? with
      | none => rfl
      | some r => by_cases hij : i = j <;> simp [hij]
  | create scheduleId runbookId cron timezone enabled now =>
      simp only [schedulerStep, createSchedule]
      split
      · refine h.of_requests rfl ?_
        intro x hx
        refine ⟨x, ?_, rfl, rfl⟩
        cases hinsert : s.schedules.insert?
          { scheduleId := scheduleId
            runbookId := runbookId
            cron := cron
            timezone := timezone
            enabled := enabled
            nextRunAt := _ } with
        | none => exact hx
        | some schedules =>
            rw [Option.getD_some, Table.mem_def, Table.rows_of_insert? hinsert]
            exact List.mem_append_left _ hx
      · exact h
  | edit scheduleId cron timezone enabled now =>
      simp only [schedulerStep, editSchedule]
      split
      · exact h
      · refine h.of_requests rfl ?_
        apply sameSchedules_updateSchedule
        exact fun _ => rfl

theorem consistent_noSchedules :
    Consistent noSchedules where
  keys := .nil
  slots := fun r hr => by cases hr
  requests := fun r hr => by cases hr

end Deployment

end Automations
end MpvmApp
