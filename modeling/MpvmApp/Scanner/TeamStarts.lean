import Mathlib.Data.List.Dedup
import Mathlib.Data.List.Perm.Subperm
import MpvmApp.Lib.Dict
import MpvmApp.Lib.Runs
import MpvmApp.Lib.Tally
import MpvmApp.Scanner.Launch
import MpvmApp.Scanner.Presets

/-!
# Starts of team tasks

A preset may allow only so many of its tasks at a time.  A start takes a slot of its preset: under
a lock it counts the other tasks of the preset that have an active run, adds the starts that have a
slot, and is let in when there are fewer than the limit.  The run of the task is inserted while the
start has its slot, so that the task is counted in one way or the other.

A run ends with a status that is not active.  The update of its progress sets a status whatever the
run has, and so it can make a run active again that has ended; then there can be more tasks than
the preset allows.

Every statement of a start is one step, and every status that a run is given.

Main definitions:

- Definition `step`: one statement of a start, or a write of somebody else.
- Definition `Bounded`: a preset has no more tasks at a time than its last start was allowed.
- Definition `Counted`: the counter of a preset is the number of its starts that have a slot.
- Definition `Settled`: a run that has ended stays so, and a start is let in by no higher limit
  than its preset has.

Main results:

- Theorem `next_moves`: what the next statement of a start does.
- Theorem `counters_right`: in every run the counters are the numbers of slots.
- Theorem `Capped.step`: a settled step keeps the limits.
- Theorem `limit_respected`: every settled run keeps the limits and the counters.
-/

namespace MpvmApp
namespace Scanner
namespace TeamStarts

open Runs

/-! ## Data model -/

/-- A row of `scan_postprocess_runs`, as far as it is counted. -/
structure PostprocessRun where
  runId : String
  taskId : String
  status : String
deriving DecidableEq

/-- The run has one of `SCAN_POSTPROCESS_ACTIVE_STATUSES`. -/
def PostprocessRun.isActive (run : PostprocessRun) : Bool :=
  decide (run.status ∈ scanPostprocessActiveStatuses)

/--
The statement at which a start stands.  `entered` and `counted` have the lock, and from
`starting` to `leaving` the start has a slot; `counted` knows the tasks that the
query has counted.
-/
inductive Start where
  | begun (taskId : String) (roleIds : Option (List Int))
  | found (taskId presetId : String)
  | prepared (taskId presetId : String) (limit : Option Nat)
  | entered (taskId presetId : String) (limit : Option Nat)
  | counted (taskId presetId : String) (limit : Nat) (tasks : List String)
  | starting (taskId presetId : String)
  | running (taskId presetId runId : String)
  | leaving (taskId presetId : String)
  | ended (error : Option TeamError)
deriving DecidableEq

/--
The presets, the presets of the tasks that are not deleted, the runs, the counters of starts with
their lock, and the starts.  `lastLimit` is the limit that a preset had when a start was let
in last.
-/
structure System where
  presets : String → Option Preset := fun _ => none
  tasks : String → Option String := fun _ => none
  runs : List PostprocessRun := []
  inflight : Dict String Nat := .empty
  lockedBy : Option Nat := none
  starts : List Start := []
  lastLimit : String → Option Nat := fun _ => none

/--
What the statement of a start meets with: it does what it should, or raises; `inserts` is the
insertion of the run before the remote start, and `breaks` a remote start that raises when the
failure of the run cannot be stored either.
-/
inductive Answer where
  | proceeds
  | raises
  | inserts (runId : String)
  | breaks
deriving DecidableEq

/-- What can happen next. -/
inductive Event where
  | start (taskId : String) (roleIds : Option (List Int))
  | advance (i : Nat) (answer : Answer)
  | setStatus (runId status : String)
  | savePreset (preset : Preset)
  | saveTask (taskId presetId : String)

/-! ## The statements -/

/-- An exception that is not one of the service's own. -/
def raised : TeamError :=
  .other "request failed"

/-- `if self._limit`: the limit of a preset, if it has one. -/
def limitOf (preset : Preset) : Option Nat :=
  preset.maxActiveTasks.filter fun limit => decide (limit ≠ 0)

/-- The tasks that `count_active_tasks` counts. -/
def activeTasks (s : System) (presetId excludeTaskId : String) : List String :=
  (((s.runs.filter PostprocessRun.isActive).map PostprocessRun.taskId).dedup).filter fun taskId =>
    decide (s.tasks taskId = some presetId) && decide (taskId ≠ excludeTaskId)

/-- The counter of a preset. -/
def counter (inflight : Dict String Nat) (presetId : String) : Nat :=
  (inflight.get? presetId).getD 0

/-- The slot is given back: the rest of `_Slot.__exit__` under the lock. -/
def giveBack (inflight : Dict String Nat) (presetId : String) : Dict String Nat :=
  let remaining := (inflight.get? presetId).getD 1 - 1
  if 0 < remaining then inflight.set presetId remaining else inflight.pop presetId

/-- The start at a position stands at another statement. -/
def System.moveTo (s : System) (i : Nat) (x : Start) : System :=
  { s with starts := s.starts.set i x }

/-- The end of `_Slot.__enter__`: the start is let in, and the lock is released. -/
def System.letIn (s : System) (taskId presetId : String) : System × Start :=
  ({ s with
      inflight := s.inflight.set presetId (counter s.inflight presetId + 1)
      lockedBy := none
      lastLimit := Function.update s.lastLimit presetId ((s.presets presetId).bind limitOf) },
    .starting taskId presetId)

/-- `finish_provisional_scan_start_failure`: an active run is finished as failed. -/
def finishProvisional (runId : String) (run : PostprocessRun) : PostprocessRun :=
  if run.runId = runId ∧ run.isActive = true then { run with status := "failed" } else run

/-- The insertion of a run; its id has not been used. -/
def System.insertRun (s : System) (taskId presetId runId : String) : System × Start :=
  if s.runs.any fun run => decide (run.runId = runId) then (s, .leaving taskId presetId)
  else
    ({ s with runs := s.runs ++ [{ runId, taskId, status := "monitoring" }] },
      .running taskId presetId runId)

/-- The next statement of the start at a position, and where it stands then. -/
def System.next (s : System) (i : Nat) (answer : Answer) : Start → System × Start
  | .begun taskId roleIds =>
      match s.tasks taskId, answer with
      | some presetId, .proceeds =>
          if roleIds.any fun ids => ids.all fun id =>
              (s.presets presetId).all fun preset => decide (id ∉ preset.roleIds) then
            (s, .ended (some .taskNotFound))
          else (s, .found taskId presetId)
      | none, .proceeds => (s, .ended (some .taskNotFound))
      | _, _ => (s, .ended (some raised))
  | .found taskId presetId =>
      match activePreset presetId none (s.presets presetId), answer with
      | .ok preset, .proceeds => (s, .prepared taskId presetId (limitOf preset))
      | .error e, .proceeds => (s, .ended (some e))
      | _, _ => (s, .ended (some raised))
  | .prepared taskId presetId limit =>
      -- the payload is built and the task saved before the slot is asked for
      if answer ≠ .proceeds then (s, .ended (some raised))
      else if s.lockedBy.isSome then (s, .prepared taskId presetId limit)
      else ({ s with lockedBy := some i }, .entered taskId presetId limit)
  | .entered taskId presetId none => s.letIn taskId presetId
  | .entered taskId presetId (some limit) =>
      if answer ≠ .proceeds then ({ s with lockedBy := none }, .ended (some raised))
      else (s, .counted taskId presetId limit (activeTasks s presetId taskId))
  | .counted taskId presetId limit tasks =>
      let active := tasks.length + counter s.inflight presetId
      if limit ≤ active then
        ({ s with lockedBy := none }, .ended (some (.concurrencyLimit presetId active limit)))
      else
        s.letIn taskId presetId
  | .starting taskId presetId =>
      match answer with
      | .inserts runId => s.insertRun taskId presetId runId
      | _ => (s, .leaving taskId presetId)
  | .running taskId presetId runId =>
      match answer with
      | .raises =>
          ({ s with runs := s.runs.map (finishProvisional runId) }, .leaving taskId presetId)
      | _ => (s, .leaving taskId presetId)
  | .leaving taskId presetId =>
      if s.lockedBy.isSome then (s, .leaving taskId presetId)
      else ({ s with inflight := giveBack s.inflight presetId }, .ended none)
  | .ended error => (s, .ended error)

/-- One step of the system. -/
def step (s : System) : Event → System
  | .start taskId roleIds => { s with starts := s.starts ++ [.begun taskId roleIds] }
  | .advance i answer =>
      match s.starts[i]? with
      | none => s
      | some x => (s.next i answer x).1.moveTo i (s.next i answer x).2
  | .setStatus runId status =>
      { s with
        runs := s.runs.map fun run => if run.runId = runId then { run with status } else run }
  | .savePreset preset =>
      { s with presets := Function.update s.presets preset.presetId (some preset) }
  | .saveTask taskId presetId =>
      if (s.tasks taskId).isSome then s
      else { s with tasks := Function.update s.tasks taskId (some presetId) }

/-! ## The limit -/

/-- The task of a start that has a slot. -/
def Start.slot : Start → Option (String × String)
  | .starting taskId presetId | .running taskId presetId _ | .leaving taskId presetId =>
      some (taskId, presetId)
  | _ => none

/-- A start has a slot of a preset. -/
def Start.slots (presetId : String) (x : Start) : Nat :=
  if x.slot.any fun slot => decide (slot.2 = presetId) then 1 else 0

/-- The tasks of a preset that have an active run or a start with a slot. -/
def busyTasks (s : System) (presetId : String) : List String :=
  (((s.runs.filter PostprocessRun.isActive).map PostprocessRun.taskId ++
    s.starts.filterMap fun x => x.slot.map Prod.fst).dedup).filter fun taskId =>
      decide (s.tasks taskId = some presetId)

/-- A preset has no more tasks at a time than its last start was allowed. -/
def Bounded (s : System) : Prop :=
  ∀ presetId, ∀ limit ∈ s.lastLimit presetId, (busyTasks s presetId).length ≤ limit

/-- The counter of a preset is the number of its starts with a slot, and there is none at zero. -/
def Counted (s : System) : Prop :=
  ∀ presetId, let slots := (s.starts.map (Start.slots presetId)).sum
    s.inflight.get? presetId = if slots = 0 then none else some slots

/-- The limit of a preset as it is stored. -/
def System.limit (s : System) (presetId : String) : Option Nat :=
  (s.presets presetId).bind limitOf

/-- A start that is let in now has not read a higher limit than its preset has. -/
def KnowsLimit (s : System) : Start → Prop
  | .entered _ presetId none => s.limit presetId = none
  | .counted _ presetId limit tasks =>
      tasks.length + counter s.inflight presetId < limit →
        ∀ stored ∈ s.limit presetId, limit ≤ stored
  | _ => True

instance (s : System) (x : Start) : Decidable (KnowsLimit s x) :=
  match x with
  | .entered _ presetId none => inferInstanceAs (Decidable (s.limit presetId = none))
  | .counted _ presetId limit tasks =>
      inferInstanceAs (Decidable (tasks.length + counter s.inflight presetId < limit →
        ∀ stored ∈ s.limit presetId, limit ≤ stored))
  | .entered _ _ (some _) | .begun _ _ | .found _ _ | .prepared _ _ _ | .starting _ _
  | .running _ _ _ | .leaving _ _ | .ended _ => inferInstanceAs (Decidable True)

/-- A run that has ended is not given an active status. -/
def StaysEnded (s : System) (runId status : String) : Prop :=
  status ∈ scanPostprocessActiveStatuses → ∀ run ∈ s.runs, run.runId = runId → run.isActive = true

/--
A run that has ended is not given an active status, and a start is let in by a limit that is not
above the one that its preset has.
-/
def Settled (s : System) : Event → Prop
  | .advance i _ => ∀ x ∈ s.starts[i]?, KnowsLimit s x
  | .setStatus runId status => StaysEnded s runId status
  | _ => True

instance (s : System) (e : Event) : Decidable (Settled s e) :=
  match e with
  | .advance i _ => inferInstanceAs (Decidable (∀ x ∈ s.starts[i]?, KnowsLimit s x))
  | .setStatus runId status =>
      inferInstanceAs (Decidable (status ∈ scanPostprocessActiveStatuses →
        ∀ run ∈ s.runs, run.runId = runId → run.isActive = true))
  | .start _ _ | .savePreset _ | .saveTask _ _ => inferInstanceAs (Decidable True)

/-! ## What a statement does -/

/-- The task of a start, with its preset. -/
def Start.task : Start → Option (String × String)
  | .found taskId presetId | .prepared taskId presetId _ | .entered taskId presetId _
  | .counted taskId presetId _ _ | .starting taskId presetId | .running taskId presetId _
  | .leaving taskId presetId => some (taskId, presetId)
  | .begun _ _ | .ended _ => none

/-- A start has the lock. -/
def Start.holds : Start → Bool
  | .entered _ _ _ | .counted _ _ _ _ => true
  | _ => false

/-- The task has an active run. -/
def HasRun (s : System) (taskId : String) : Prop :=
  ∃ run ∈ s.runs, run.isActive = true ∧ run.taskId = taskId

/-- The task has a start with a slot. -/
def HasSlot (s : System) (taskId : String) : Prop :=
  ∃ x ∈ s.starts, ∃ presetId, x.slot = some (taskId, presetId)

theorem mem_busyTasks {s : System} {presetId taskId : String} :
    taskId ∈ busyTasks s presetId ↔
      s.tasks taskId = some presetId ∧ (HasRun s taskId ∨ HasSlot s taskId) := by
  simp only [busyTasks, List.mem_filter, List.mem_dedup, List.mem_append, List.mem_map,
    List.mem_filterMap, Option.map_eq_some_iff, Prod.exists, decide_eq_true_eq, HasRun, HasSlot]
  constructor
  · rintro ⟨hbusy, hpreset⟩
    refine ⟨hpreset, ?_⟩
    rcases hbusy with ⟨run, ⟨hrun, hactive⟩, htask⟩ | ⟨x, hx, taskId', presetId', hslot, rfl⟩
    · exact .inl ⟨run, hrun, hactive, htask⟩
    · exact .inr ⟨x, hx, presetId', hslot⟩
  · rintro ⟨hpreset, hbusy⟩
    refine ⟨?_, hpreset⟩
    rcases hbusy with ⟨run, hrun, hactive, htask⟩ | ⟨x, hx, presetId', hslot⟩
    · exact .inl ⟨run, ⟨hrun, hactive⟩, htask⟩
    · exact .inr ⟨x, hx, taskId, presetId', hslot, rfl⟩

theorem mem_activeTasks {s : System} {presetId excludeTaskId taskId : String} :
    taskId ∈ activeTasks s presetId excludeTaskId ↔
      s.tasks taskId = some presetId ∧ HasRun s taskId ∧ taskId ≠ excludeTaskId := by
  simp only [activeTasks, List.mem_filter, List.mem_dedup, List.mem_map, Bool.and_eq_true,
    decide_eq_true_eq, HasRun]
  constructor
  · rintro ⟨⟨run, ⟨hrun, hactive⟩, htask⟩, hpreset, hother⟩
    exact ⟨hpreset, ⟨run, hrun, hactive, htask⟩, hother⟩
  · rintro ⟨hpreset, ⟨run, hrun, hactive, htask⟩, hother⟩
    exact ⟨⟨run, ⟨hrun, hactive⟩, htask⟩, hpreset, hother⟩

theorem nodup_busyTasks (s : System) (presetId : String) :
    (busyTasks s presetId).Nodup :=
  (List.nodup_dedup _).filter _

/-- The runs of a task are others, but none has become active. -/
def Fades (runs runs' : List PostprocessRun) : Prop :=
  ∀ run ∈ runs', ∃ old ∈ runs, old.taskId = run.taskId ∧ (run.isActive = true → old.isActive = true)

/--
What the next statement of a start can do: it goes on without the lock, its slot the same; it
inserts its run; it takes the lock, counts, is refused or is let in; or it gives its slot back.
-/
inductive Moves (s : System) (i : Nat) : Start → System → Start → Prop where
  | goes {x x' : Start} {runs : List PostprocessRun} (hslot : x'.slot = x.slot)
      (hfree : x.holds = false) (hfree' : x'.holds = false)
      (htask : ∀ task ∈ x'.task, task ∈ x.task ∨ s.tasks task.1 = some task.2)
      (hruns : Fades s.runs runs) : Moves s i x { s with runs } x'
  | inserts (taskId presetId runId : String) :
      Moves s i (.starting taskId presetId)
        { s with runs := s.runs ++ [{ runId, taskId, status := "monitoring" }] }
        (.running taskId presetId runId)
  | takes (taskId presetId : String) (limit : Option Nat) (hlock : s.lockedBy = none) :
      Moves s i (.prepared taskId presetId limit) { s with lockedBy := some i }
        (.entered taskId presetId limit)
  | counts (taskId presetId : String) (limit : Nat) :
      Moves s i (.entered taskId presetId (some limit)) s
        (.counted taskId presetId limit (activeTasks s presetId taskId))
  | refuses {x : Start} (hheld : x.holds = true) (error : TeamError) :
      Moves s i x { s with lockedBy := none } (.ended (some error))
  | letsIn {x : Start} (taskId presetId : String) (htask : x.task = some (taskId, presetId))
      (hheld : x.holds = true)
      (hroom : x = .entered taskId presetId none ∨ ∃ limit tasks,
        x = .counted taskId presetId limit tasks ∧
          tasks.length + counter s.inflight presetId < limit) :
      Moves s i x (s.letIn taskId presetId).1 (.starting taskId presetId)
  | leaves (taskId presetId : String) (hlock : s.lockedBy = none) :
      Moves s i (.leaving taskId presetId)
        { s with inflight := giveBack s.inflight presetId } (.ended none)

theorem Fades.refl (runs : List PostprocessRun) :
    Fades runs runs :=
  fun run hrun => ⟨run, hrun, rfl, id⟩

theorem Fades.map {runs : List PostprocessRun} {f : PostprocessRun → PostprocessRun}
    (htask : ∀ run, (f run).taskId = run.taskId)
    (hactive : ∀ run ∈ runs, (f run).isActive = true → run.isActive = true) :
    Fades runs (runs.map f) := by
  intro run hrun
  obtain ⟨old, hold, rfl⟩ := List.mem_map.1 hrun
  exact ⟨old, hold, (htask old).symm, hactive old hold⟩

theorem fades_finishProvisional (runs : List PostprocessRun) (runId : String) :
    Fades runs (runs.map (finishProvisional runId)) := by
  refine Fades.map (fun run => ?_) fun run _ h => ?_
  · unfold finishProvisional
    split_ifs <;> rfl
  · unfold finishProvisional at h
    split_ifs at h with hrun
    · exact hrun.2
    · exact h

theorem fades_setStatus {s : System} {runId status : String} (h : StaysEnded s runId status) :
    Fades s.runs
      (s.runs.map fun run => if run.runId = runId then { run with status } else run) := by
  refine Fades.map (fun run => ?_) fun run hrun hactive => ?_
  · split_ifs <;> rfl
  · split_ifs at hactive with hid
    · exact h (of_decide_eq_true hactive) run hrun hid
    · exact hactive

theorem Moves.stays {s : System} {i : Nat} {x x' : Start} (hslot : x'.slot = x.slot)
    (hfree : x.holds = false) (hfree' : x'.holds = false)
    (htask : ∀ task ∈ x'.task, task ∈ x.task ∨ s.tasks task.1 = some task.2) :
    Moves s i x s x' :=
  .goes hslot hfree hfree' htask (Fades.refl _)

/-- What the next statement of a start does. -/
theorem next_moves (s : System) (i : Nat) (answer : Answer) (x : Start) :
    Moves s i x (s.next i answer x).1 (s.next i answer x).2 := by
  cases x with
  | begun taskId roleIds =>
      have hended : ∀ error, Moves s i (.begun taskId roleIds) s (.ended error) := fun _ =>
        .stays rfl rfl rfl nofun
      cases htask : s.tasks taskId with
      | none =>
          cases answer <;> simpa only [System.next, htask] using hended _
      | some presetId =>
          cases answer with
          | proceeds =>
              simp only [System.next, htask]
              split_ifs
              · exact hended _
              · refine .stays rfl rfl rfl fun task ht => .inr ?_
                cases ht
                exact htask
          | raises => simpa only [System.next, htask] using hended _
          | inserts runId => simpa only [System.next, htask] using hended _
          | breaks => simpa only [System.next, htask] using hended _
  | found taskId presetId =>
      have hended : ∀ error, Moves s i (.found taskId presetId) s (.ended error) := fun _ =>
        .stays rfl rfl rfl nofun
      cases hpreset : activePreset presetId none (s.presets presetId) with
      | error e => cases answer <;> simpa only [System.next, hpreset] using hended _
      | ok preset =>
          cases answer with
          | proceeds =>
              simp only [System.next, hpreset]
              exact .stays rfl rfl rfl fun task ht => .inl ht
          | raises => simpa only [System.next, hpreset] using hended _
          | inserts runId => simpa only [System.next, hpreset] using hended _
          | breaks => simpa only [System.next, hpreset] using hended _
  | prepared taskId presetId limit =>
      simp only [System.next]
      split_ifs with hanswer hlocked
      · exact .stays rfl rfl rfl nofun
      · exact .stays rfl rfl rfl fun task ht => .inl ht
      · exact .takes taskId presetId limit (Option.not_isSome_iff_eq_none.1 hlocked)
  | entered taskId presetId limit =>
      cases limit with
      | none => exact .letsIn taskId presetId rfl rfl (.inl rfl)
      | some limit =>
          simp only [System.next]
          split_ifs
          · exact .refuses rfl _
          · exact .counts taskId presetId limit
  | counted taskId presetId limit tasks =>
      simp only [System.next]
      split_ifs with hfull
      · exact .refuses rfl _
      · exact .letsIn taskId presetId rfl rfl (.inr ⟨limit, tasks, rfl, not_le.1 hfull⟩)
  | starting taskId presetId =>
      have hleaving : Moves s i (.starting taskId presetId) s (.leaving taskId presetId) :=
        .stays rfl rfl rfl fun task ht => .inl ht
      cases answer with
      | inserts runId =>
          simp only [System.next, System.insertRun]
          split_ifs
          · exact hleaving
          · exact .inserts taskId presetId runId
      | proceeds => exact hleaving
      | raises => exact hleaving
      | breaks => exact hleaving
  | running taskId presetId runId =>
      have hleaving : Moves s i (.running taskId presetId runId) s (.leaving taskId presetId) :=
        .stays rfl rfl rfl fun task ht => .inl ht
      cases answer with
      | raises =>
          exact .goes rfl rfl rfl (fun task ht => .inl ht) (fades_finishProvisional _ _)
      | proceeds => exact hleaving
      | inserts runId' => exact hleaving
      | breaks => exact hleaving
  | leaving taskId presetId =>
      simp only [System.next]
      split_ifs with hlocked
      · exact .stays rfl rfl rfl fun task ht => .inl ht
      · exact .leaves taskId presetId (Option.not_isSome_iff_eq_none.1 hlocked)
  | ended error => exact .stays rfl rfl rfl nofun

/-! ## The lock and the tasks -/

/-- The task of a start is the preset's, and a start that has the lock is the one that took it. -/
structure Fits (s : System) (i : Nat) (x : Start) : Prop where
  task : ∀ task ∈ x.task, s.tasks task.1 = some task.2
  lock : x.holds = true → s.lockedBy = some i

/-- Every start fits, and the tasks of the runs are known. -/
structure Fitting (s : System) : Prop where
  starts : ∀ (i : Nat) (x : Start), s.starts[i]? = some x → Fits s i x
  runs : ∀ run ∈ s.runs, (s.tasks run.taskId).isSome = true

theorem Start.task_of_slot {x : Start} {slot : String × String} (h : x.slot = some slot) :
    x.task = some slot := by
  cases x <;> first | exact h | cases h

theorem Start.slot_of_holds {x : Start} (h : x.holds = true) :
    x.slot = none := by
  cases x <;> first | rfl | cases h

theorem getElem?_moveTo {s : System} {i j : Nat} {x y : Start}
    (h : (s.moveTo i x).starts[j]? = some y) :
    j = i ∧ y = x ∨ j ≠ i ∧ s.starts[j]? = some y := by
  change (s.starts.set i x)[j]? = some y at h
  by_cases hij : i = j
  · subst hij
    rw [List.getElem?_set_self'] at h
    obtain ⟨_, _, rfl⟩ := Option.map_eq_some_iff.1 h
    exact .inl ⟨rfl, rfl⟩
  · rw [List.getElem?_set_ne hij] at h
    exact .inr ⟨Ne.symm hij, h⟩

theorem Moves.starts {s s' : System} {i : Nat} {x x' : Start} (h : Moves s i x s' x') :
    s'.starts = s.starts ∧ s'.tasks = s.tasks := by
  cases h <;> exact ⟨rfl, rfl⟩

/-- The tasks of the runs stay known. -/
theorem Moves.runs {s s' : System} {i : Nat} {x x' : Start} (h : Moves s i x s' x')
    (hs : Fitting s) (hx : s.starts[i]? = some x) :
    ∀ run ∈ s'.runs, (s.tasks run.taskId).isSome = true := by
  cases h with
  | goes hslot hfree hfree' htask hruns =>
      intro run hrun
      obtain ⟨old, hold, heq, -⟩ := hruns run hrun
      exact heq ▸ hs.runs old hold
  | inserts taskId presetId runId =>
      intro run hrun
      rcases List.mem_append.1 hrun with hold | hnew
      · exact hs.runs run hold
      · rw [List.mem_singleton.1 hnew, (hs.starts i _ hx).task _ rfl]
        rfl
  | takes => exact hs.runs
  | counts => exact hs.runs
  | refuses => exact hs.runs
  | letsIn => exact hs.runs
  | leaves => exact hs.runs

theorem Moves.fits {s s' : System} {i : Nat} {x x' : Start} (h : Moves s i x s' x')
    (hx : Fits s i x) :
    Fits s' i x' := by
  cases h with
  | goes hslot hfree hfree' htask hruns =>
      exact ⟨fun task ht => (htask task ht).elim (hx.task task) id,
        fun hheld => absurd hheld (by rw [hfree']; exact Bool.false_ne_true)⟩
  | inserts taskId presetId runId => exact ⟨hx.task, nofun⟩
  | takes taskId presetId limit hlock => exact ⟨hx.task, fun _ => rfl⟩
  | counts taskId presetId limit => exact ⟨hx.task, fun _ => hx.lock rfl⟩
  | refuses hheld error => exact ⟨nofun, nofun⟩
  | letsIn taskId presetId htask hheld hroom =>
      refine ⟨fun task ht => hx.task task ?_, nofun⟩
      rw [htask]
      exact ht
  | leaves taskId presetId hlock => exact ⟨nofun, nofun⟩

theorem Moves.lock {s s' : System} {i j : Nat} {x x' : Start} (h : Moves s i x s' x')
    (hx : Fits s i x) (hj : j ≠ i) (hlock : s.lockedBy = some j) :
    s'.lockedBy = some j := by
  have hnot : x.holds = true → False := fun hheld =>
    hj (Option.some.inj (hlock.symm.trans (hx.lock hheld)))
  cases h with
  | goes hslot hfree hfree' htask hruns => exact hlock
  | inserts taskId presetId runId => exact hlock
  | takes taskId presetId limit hfree => exact absurd hlock (by rw [hfree]; nofun)
  | counts taskId presetId limit => exact hlock
  | refuses hheld error => exact (hnot hheld).elim
  | letsIn taskId presetId htask hheld hroom => exact (hnot hheld).elim
  | leaves taskId presetId hfree => exact absurd hlock (by rw [hfree]; nofun)

theorem Fitting.moveTo {s s' : System} {i : Nat} {x x' : Start} (h : Fitting s)
    (hx : s.starts[i]? = some x) (hmoves : Moves s i x s' x') :
    Fitting (s'.moveTo i x') := by
  obtain ⟨hstarts, htasks⟩ := hmoves.starts
  have hfits := h.starts i x hx
  refine ⟨fun j y hy => ?_, fun run hrun => ?_⟩
  · rcases getElem?_moveTo hy with ⟨rfl, rfl⟩ | ⟨hj, hy⟩
    · exact ⟨(hmoves.fits hfits).task, (hmoves.fits hfits).lock⟩
    · rw [hstarts] at hy
      have hother := h.starts j y hy
      refine ⟨fun task ht => ?_, fun hheld => hmoves.lock hfits hj (hother.lock hheld)⟩
      have htask := hother.task task ht
      rw [← htasks] at htask
      exact htask
  · have hknown := hmoves.runs h hx run hrun
    rw [← htasks] at hknown
    exact hknown

/-! ## The counters -/

theorem Start.slots_of_none {x : Start} (h : x.slot = none) (presetId : String) :
    x.slots presetId = 0 := by
  unfold Start.slots
  rw [h]
  rfl

theorem Start.slots_of_some {x : Start} {taskId presetId : String}
    (h : x.slot = some (taskId, presetId)) (other : String) :
    x.slots other = if presetId = other then 1 else 0 := by
  unfold Start.slots
  rw [h, Option.any_some]
  by_cases heq : presetId = other
  · rw [decide_eq_true heq, if_pos rfl, if_pos heq]
  · rw [decide_eq_false heq, if_neg Bool.false_ne_true, if_neg heq]

/-- The starts of a preset that have a slot. -/
def System.slots (s : System) (presetId : String) : Nat :=
  (s.starts.map (Start.slots presetId)).sum

theorem Counted.get? {s : System} (h : Counted s) (presetId : String) :
    s.inflight.get? presetId =
      if s.slots presetId = 0 then none else some (s.slots presetId) :=
  h presetId

theorem Counted.counter {s : System} (h : Counted s) (presetId : String) :
    counter s.inflight presetId = s.slots presetId := by
  unfold TeamStarts.counter
  rw [h.get? presetId]
  split_ifs with hzero
  · exact hzero.symm
  · rfl

theorem slots_moveTo {s s' : System} {i : Nat} {x : Start} (x' : Start)
    (hstarts : s'.starts = s.starts) (hx : s.starts[i]? = some x) (presetId : String) :
    (s'.moveTo i x').slots presetId + x.slots presetId =
      s.slots presetId + x'.slots presetId := by
  change ((s'.starts.set i x').map (Start.slots presetId)).sum + _ = _
  rw [hstarts]
  exact sum_map_set (Start.slots presetId) hx

theorem slots_same {s s' : System} {i : Nat} {x x' : Start} (hstarts : s'.starts = s.starts)
    (hx : s.starts[i]? = some x) (hslot : x'.slot = x.slot) (presetId : String) :
    (s'.moveTo i x').slots presetId = s.slots presetId := by
  have hsum := slots_moveTo x' hstarts hx presetId
  have heq : x'.slots presetId = x.slots presetId := by
    unfold Start.slots
    rw [hslot]
  omega

theorem Counted.same {s s' : System} (h : Counted s) (hinflight : s'.inflight = s.inflight)
    (hslots : ∀ presetId, s'.slots presetId = s.slots presetId) :
    Counted s' := by
  intro presetId
  have hget := h.get? presetId
  rw [← hinflight, ← hslots] at hget
  exact hget

theorem get?_giveBack (inflight : Dict String Nat) (presetId other : String) :
    (giveBack inflight presetId).get? other =
      if other = presetId then
        if 0 < (inflight.get? presetId).getD 1 - 1 then
          some ((inflight.get? presetId).getD 1 - 1)
        else none
      else inflight.get? other := by
  simp only [giveBack]
  by_cases hleft : 0 < (inflight.get? presetId).getD 1 - 1
  · rw [if_pos hleft, if_pos hleft, Dict.get?_set]
  · rw [if_neg hleft, if_neg hleft, Dict.get?_pop]

/-- A start that is let in is counted. -/
theorem Counted.letIn {s : System} {i : Nat} {x : Start} {taskId presetId : String}
    (h : Counted s) (hx : s.starts[i]? = some x) (hnone : x.slot = none) :
    Counted ((s.letIn taskId presetId).1.moveTo i (.starting taskId presetId)) := by
  intro other
  have hstarts : (s.letIn taskId presetId).1.starts = s.starts := rfl
  have hsum := slots_moveTo (.starting taskId presetId) hstarts hx other
  have hone : (Start.starting taskId presetId).slots other = if presetId = other then 1 else 0 :=
    Start.slots_of_some rfl other
  rw [Start.slots_of_none hnone, hone] at hsum
  change (s.inflight.set presetId (TeamStarts.counter s.inflight presetId + 1)).get? other =
    if System.slots _ other = 0 then none else some (System.slots _ other)
  rw [Dict.get?_set, h.counter presetId, h.get? other]
  by_cases heq : presetId = other
  · subst heq
    rw [if_pos rfl] at hsum
    rw [if_pos rfl, if_neg (by omega), ← hsum]
    rfl
  · rw [if_neg heq] at hsum
    rw [if_neg (Ne.symm heq)]
    have hsame : System.slots _ other = s.slots other := hsum
    rw [hsame]

/-- A slot that is given back is not counted. -/
theorem Counted.giveBack {s : System} {i : Nat} {taskId presetId : String} (h : Counted s)
    (hx : s.starts[i]? = some (.leaving taskId presetId)) :
    Counted ({ s with inflight := giveBack s.inflight presetId }.moveTo i (.ended none)) := by
  intro other
  let left : System := { s with inflight := TeamStarts.giveBack s.inflight presetId }
  have hstarts : left.starts = s.starts := rfl
  have hsum := slots_moveTo (.ended none) hstarts hx other
  have hnone : (Start.ended none).slots other = 0 := Start.slots_of_none rfl other
  have hone : (Start.leaving taskId presetId).slots other = if presetId = other then 1 else 0 :=
    Start.slots_of_some rfl other
  rw [hnone, hone] at hsum
  change (TeamStarts.giveBack s.inflight presetId).get? other =
    if System.slots _ other = 0 then none else some (System.slots _ other)
  rw [get?_giveBack, h.get? other]
  by_cases heq : presetId = other
  · subst heq
    rw [if_pos rfl] at hsum
    have hmine : s.inflight.get? presetId = some (s.slots presetId) :=
      (h.get? presetId).trans (if_neg (by omega))
    rw [if_pos rfl, hmine, Option.getD_some, ← Nat.add_zero (s.slots presetId), ← hsum]
    simp only [Nat.add_sub_cancel, Nat.pos_iff_ne_zero, ite_not]
    rfl
  · rw [if_neg heq] at hsum
    rw [if_neg (Ne.symm heq)]
    have hsame : System.slots _ other = s.slots other := hsum
    rw [hsame]

theorem Counted.moveTo {s s' : System} {i : Nat} {x x' : Start} (h : Counted s)
    (hx : s.starts[i]? = some x) (hmoves : Moves s i x s' x') :
    Counted (s'.moveTo i x') := by
  cases hmoves with
  | goes hslot hfree hfree' htask hruns => exact h.same rfl (slots_same rfl hx hslot)
  | inserts taskId presetId runId => exact h.same rfl (slots_same rfl hx rfl)
  | takes taskId presetId limit hlock => exact h.same rfl (slots_same rfl hx rfl)
  | counts taskId presetId limit => exact h.same rfl (slots_same rfl hx rfl)
  | refuses hheld error =>
      exact h.same rfl (slots_same rfl hx (Start.slot_of_holds hheld).symm)
  | letsIn taskId presetId htask hheld hroom => exact h.letIn hx (Start.slot_of_holds hheld)
  | leaves taskId presetId hlock => exact h.giveBack hx

/-! ## The limits -/

/-- The tasks of the starts that have a slot of a preset. -/
def slotTasks (s : System) (presetId : String) : List String :=
  s.starts.filterMap fun x => (x.slot.filter fun slot => decide (slot.2 = presetId)).map Prod.fst

/-- There are as many tasks with a slot as there are slots. -/
theorem length_slotTasks (s : System) (presetId : String) :
    (slotTasks s presetId).length = s.slots presetId := by
  unfold slotTasks System.slots
  induction s.starts with
  | nil => rfl
  | cons x xs ih =>
      rw [List.map_cons, List.sum_cons, ← ih, List.filterMap_cons]
      cases hslot : x.slot with
      | none =>
          rw [Start.slots_of_none hslot, Nat.zero_add]
          rfl
      | some slot =>
          have hone : x.slots presetId = if slot.2 = presetId then 1 else 0 :=
            Start.slots_of_some hslot presetId
          rw [hone, Option.filter_some]
          by_cases heq : slot.2 = presetId
          · rw [decide_eq_true heq, if_pos rfl, if_pos heq]
            exact Nat.add_comm _ _
          · rw [decide_eq_false heq, if_neg Bool.false_ne_true, if_neg heq, Nat.zero_add]
            rfl

theorem Fitting.mem_slotTasks {s : System} (h : Fitting s) {presetId taskId : String}
    (htask : s.tasks taskId = some presetId) (hslot : HasSlot s taskId) :
    taskId ∈ slotTasks s presetId := by
  obtain ⟨x, hx, other, hother⟩ := hslot
  obtain ⟨i, hi⟩ := List.mem_iff_getElem?.1 hx
  have hfits : s.tasks taskId = some other := (h.starts i x hi).task _ (Start.task_of_slot hother)
  have heq : other = presetId := Option.some.inj (hfits.symm.trans htask)
  refine List.mem_filterMap.2 ⟨x, hx, ?_⟩
  rw [hother, Option.filter_some, heq, decide_eq_true rfl, if_pos rfl]
  rfl

theorem length_busyTasks_le {s : System} {presetId : String} {l : List String}
    (h : ∀ taskId ∈ busyTasks s presetId, taskId ∈ l) :
    (busyTasks s presetId).length ≤ l.length :=
  (List.subperm_of_subset (nodup_busyTasks s presetId) h).length_le

/-- The tasks that a start has counted are all the others that are busy without a slot. -/
def Covers (s : System) : Start → Prop
  | .counted taskId presetId _ tasks =>
      ∀ u ∈ busyTasks s presetId, u ≠ taskId → u ∈ tasks ∨ HasSlot s u
  | _ => True

/-- The presets have no more tasks than they may, and a start that has counted knows the others. -/
structure Capped (s : System) : Prop where
  bounded : Bounded s
  covers : ∀ x ∈ s.starts, Covers s x

/-- A system in which no task is busy that was not before, of a preset that had the same limit. -/
structure Calmer (s s' : System) : Prop where
  lastLimit : s'.lastLimit = s.lastLimit
  busy : ∀ presetId, ∀ taskId ∈ busyTasks s' presetId, taskId ∈ busyTasks s presetId

theorem Bounded.calmer {s s' : System} (h : Bounded s) (hcalmer : Calmer s s') :
    Bounded s' := by
  intro presetId limit hlimit
  rw [hcalmer.lastLimit] at hlimit
  exact (length_busyTasks_le (hcalmer.busy presetId)).trans (h presetId limit hlimit)

theorem Covers.calmer {s s' : System} {x : Start} (h : Covers s x) (hcalmer : Calmer s s')
    (hslots : ∀ taskId, HasSlot s taskId → HasSlot s' taskId) :
    Covers s' x := by
  cases x with
  | counted taskId presetId limit tasks =>
      intro u hu hne
      exact (h u (hcalmer.busy presetId u hu) hne).imp_right (hslots u)
  | begun | found | prepared | entered | starting | running | leaving | ended => trivial

theorem hasSlot_moveTo {s s' : System} {i : Nat} {x' : Start} {taskId : String}
    (hstarts : s'.starts = s.starts) (h : HasSlot (s'.moveTo i x') taskId) :
    HasSlot s taskId ∨ ∃ presetId, x'.slot = some (taskId, presetId) := by
  obtain ⟨y, hy, presetId, hslot⟩ := h
  rcases List.mem_or_eq_of_mem_set (hstarts ▸ hy : y ∈ s.starts.set i x') with hold | rfl
  · exact .inl ⟨y, hold, presetId, hslot⟩
  · exact .inr ⟨presetId, hslot⟩

/-- A slot is kept while the start that has it keeps it. -/
theorem HasSlot.moveTo {s s' : System} {i : Nat} {x x' : Start} {taskId : String}
    (h : HasSlot s taskId) (hstarts : s'.starts = s.starts) (hx : s.starts[i]? = some x)
    (hslot : x.slot = none ∨ x'.slot = x.slot) :
    HasSlot (s'.moveTo i x') taskId := by
  obtain ⟨y, hy, presetId, hy'⟩ := h
  obtain ⟨j, hj⟩ := List.mem_iff_getElem?.1 hy
  have hlt : i < s.starts.length := (List.getElem?_eq_some_iff.1 hx).1
  by_cases hij : i = j
  · subst hij
    rw [hx, Option.some.injEq] at hj
    subst hj
    have hsame : x'.slot = x.slot := hslot.resolve_left (by rw [hy']; nofun)
    refine ⟨x', ?_, presetId, hsame.trans hy'⟩
    change x' ∈ s'.starts.set i x'
    rw [hstarts]
    exact List.mem_set hlt x'
  · refine ⟨y, ?_, presetId, hy'⟩
    change y ∈ s'.starts.set i x'
    rw [hstarts]
    exact List.mem_iff_getElem?.2 ⟨j, by rw [List.getElem?_set_ne hij, hj]⟩

/-- No other task becomes busy when a start goes on with the slot that it has, or loses it. -/
theorem calmer_moveTo {s s' : System} {i : Nat} {x x' : Start} (hx : s.starts[i]? = some x)
    (hmoves : Moves s i x s' x') (hlast : s'.lastLimit = s.lastLimit)
    (hslot : x'.slot = none ∨ x'.slot = x.slot)
    (hruns : ∀ taskId, HasRun s' taskId → HasRun s taskId ∨ HasSlot s taskId) :
    Calmer s (s'.moveTo i x') := by
  obtain ⟨hstarts, htasks⟩ := hmoves.starts
  refine ⟨hlast, fun presetId taskId hbusy => ?_⟩
  obtain ⟨htask, hwhy⟩ := mem_busyTasks.1 hbusy
  refine mem_busyTasks.2 ⟨?_, ?_⟩
  · rw [← htasks]
    exact htask
  · rcases hwhy with hrun | hslotted
    · exact hruns taskId hrun
    · rcases hasSlot_moveTo hstarts hslotted with hold | ⟨other, hnew⟩
      · exact .inr hold
      · have hsame : x.slot = some (taskId, other) := by
          rcases hslot with hnone | hsame
          · rw [hnone] at hnew
            cases hnew
          · rw [← hsame]
            exact hnew
        exact .inr ⟨x, List.mem_of_getElem? hx, other, hsame⟩

theorem covers_counted (s : System) (taskId presetId : String) (limit : Nat) :
    Covers s (.counted taskId presetId limit (activeTasks s presetId taskId)) := by
  intro u hu hne
  obtain ⟨htask, hrun | hslot⟩ := mem_busyTasks.1 hu
  · exact .inl (mem_activeTasks.2 ⟨htask, hrun, hne⟩)
  · exact .inr hslot

theorem covers_of_free {s : System} {x : Start} (h : x.holds = false) :
    Covers s x := by
  cases x with
  | counted taskId presetId limit tasks => cases h
  | begun | found | prepared | entered | starting | running | leaving | ended => trivial

theorem hasRun_inserts {s : System} {taskId presetId runId u : String}
    (hx : .starting taskId presetId ∈ s.starts)
    (h : HasRun { s with runs := s.runs ++ [{ runId, taskId, status := "monitoring" }] } u) :
    HasRun s u ∨ HasSlot s u := by
  obtain ⟨run, hrun, hactive, htask⟩ := h
  rcases List.mem_append.1 hrun with hold | hnew
  · exact .inl ⟨run, hold, hactive, htask⟩
  · rw [List.mem_singleton.1 hnew] at htask
    exact .inr ⟨_, hx, presetId, by rw [← htask]; rfl⟩

theorem Fades.hasRun {s : System} {runs : List PostprocessRun} (h : Fades s.runs runs)
    {taskId : String} (hrun : HasRun { s with runs } taskId) :
    HasRun s taskId := by
  obtain ⟨run, hmem, hactive, htask⟩ := hrun
  obtain ⟨old, hold, heq, hback⟩ := h run hmem
  exact ⟨old, hold, hback hactive, heq.trans htask⟩

/-- The start that is let in and the tasks that it has counted are all that are busy then. -/
theorem busy_letIn {s : System} {i : Nat} {x : Start} {taskId presetId : String}
    (hfit : Fitting s) {tasks : List String} {limit : Nat}
    (hx : s.starts[i]? = some x) (heq : x = .counted taskId presetId limit tasks)
    (hcovers : Covers s x) :
    ∀ u ∈ busyTasks ((s.letIn taskId presetId).1.moveTo i (.starting taskId presetId)) presetId,
      u ∈ taskId :: (tasks ++ slotTasks s presetId) := by
  subst heq
  intro u hu
  obtain ⟨htask, hwhy⟩ := mem_busyTasks.1 hu
  by_cases hne : u = taskId
  · exact List.mem_cons.2 (.inl hne)
  · refine List.mem_cons.2 (.inr (List.mem_append.2 ?_))
    have hbusy : u ∈ busyTasks s presetId := by
      refine mem_busyTasks.2 ⟨htask, hwhy.imp_right fun hslot => ?_⟩
      rcases hasSlot_moveTo rfl hslot with hold | ⟨other, hnew⟩
      · exact hold
      · cases hnew
        exact absurd rfl hne
    exact (hcovers u hbusy hne).imp_right (hfit.mem_slotTasks htask)

theorem busy_letIn_other {s : System} {i : Nat} {x : Start} {taskId presetId other : String}
    (hfit : Fitting s) (hx : s.starts[i]? = some x) (htask : x.task = some (taskId, presetId))
    (hother : other ≠ presetId) :
    ∀ u ∈ busyTasks ((s.letIn taskId presetId).1.moveTo i (.starting taskId presetId)) other,
      u ∈ busyTasks s other := by
  intro u hu
  obtain ⟨hu', hwhy⟩ := mem_busyTasks.1 hu
  refine mem_busyTasks.2 ⟨hu', hwhy.imp_right fun hslot => ?_⟩
  rcases hasSlot_moveTo rfl hslot with hold | ⟨presetId', hnew⟩
  · exact hold
  · cases hnew
    have hmine : s.tasks taskId = some presetId := (hfit.starts i x hx).task _ htask
    exact absurd (Option.some.inj (Eq.trans (Eq.symm hu') hmine)) hother

/-- A start that is let in by no more than the limit that is stored keeps the limits. -/
theorem Capped.letIn {s : System} {i : Nat} {x : Start} {taskId presetId : String}
    (h : Capped s) (hfit : Fitting s) (hcounted : Counted s) (hx : s.starts[i]? = some x)
    (htask : x.task = some (taskId, presetId))
    (hroom : x = .entered taskId presetId none ∨ ∃ limit tasks,
      x = .counted taskId presetId limit tasks ∧ tasks.length + counter s.inflight presetId < limit)
    (hknows : KnowsLimit s x) :
    Bounded ((s.letIn taskId presetId).1.moveTo i (.starting taskId presetId)) := by
  intro other limit hlimit
  change limit ∈ Function.update s.lastLimit presetId (s.limit presetId) other at hlimit
  by_cases hother : other = presetId
  · subst hother
    rw [Function.update_self] at hlimit
    rcases hroom with rfl | ⟨read, tasks, rfl, hfree⟩
    · have hnone : s.limit other = none := hknows
      rw [hnone] at hlimit
      cases hlimit
    · have hle : read ≤ limit := hknows hfree limit hlimit
      have hlength := length_busyTasks_le
        (busy_letIn hfit hx rfl (h.covers _ (List.mem_of_getElem? hx)))
      rw [hcounted.counter] at hfree
      rw [List.length_cons, List.length_append, length_slotTasks] at hlength
      omega
  · rw [Function.update_of_ne hother] at hlimit
    exact (length_busyTasks_le (busy_letIn_other hfit hx htask hother)).trans
      (h.bounded other limit hlimit)

theorem Fitting.covers_of_other {s s' : System} {i j : Nat} {x y : Start} (h : Fitting s)
    (hx : s.starts[i]? = some x) (hlock : x.holds = true ∨ s.lockedBy = none)
    (hy : s.starts[j]? = some y) (hj : j ≠ i) :
    Covers s' y := by
  apply covers_of_free
  rw [← Bool.not_eq_true]
  intro hheld
  have hmine := (h.starts j y hy).lock hheld
  rcases hlock with hholds | hfree
  · exact hj (Option.some.inj (hmine.symm.trans ((h.starts i x hx).lock hholds)))
  · rw [hfree] at hmine
    cases hmine

theorem covers_moveTo {s s' : System} {i : Nat} {x x' : Start} (hmoves : Moves s i x s' x')
    (hmine : Covers (s'.moveTo i x') x')
    (hothers : ∀ (j : Nat) (y : Start), s.starts[j]? = some y → j ≠ i → Covers (s'.moveTo i x') y) :
    ∀ y ∈ (s'.moveTo i x').starts, Covers (s'.moveTo i x') y := by
  intro y hy
  obtain ⟨j, hj⟩ := List.mem_iff_getElem?.1 hy
  rcases getElem?_moveTo hj with ⟨-, rfl⟩ | ⟨hne, hold⟩
  · exact hmine
  · rw [hmoves.starts.1] at hold
    exact hothers j y hold hne

theorem Capped.calm {s s' : System} {i : Nat} {x x' : Start} (h : Capped s)
    (hx : s.starts[i]? = some x) (hmoves : Moves s i x s' x')
    (hlast : s'.lastLimit = s.lastLimit) (hslot : x'.slot = x.slot)
    (hruns : ∀ taskId, HasRun s' taskId → HasRun s taskId ∨ HasSlot s taskId)
    (hcovers : Covers s x') :
    Capped (s'.moveTo i x') := by
  have hcalmer := calmer_moveTo hx hmoves hlast (.inr hslot) hruns
  have hkept : ∀ taskId, HasSlot s taskId → HasSlot (s'.moveTo i x') taskId := fun _ hhas =>
    hhas.moveTo hmoves.starts.1 hx (.inr hslot)
  refine ⟨h.bounded.calmer hcalmer, covers_moveTo hmoves (hcovers.calmer hcalmer hkept) ?_⟩
  intro j y hy hj
  exact (h.covers y (List.mem_of_getElem? hy)).calmer hcalmer hkept

/-- A statement of a start that is let in by the limit that is stored keeps the limits. -/
theorem Capped.moveTo {s s' : System} {i : Nat} {x x' : Start} (h : Capped s)
    (hfit : Fitting s) (hcounted : Counted s) (hx : s.starts[i]? = some x)
    (hknows : KnowsLimit s x) (hmoves : Moves s i x s' x') :
    Capped (s'.moveTo i x') := by
  cases hmoves with
  | goes hslot hfree hfree' htask hruns =>
      exact h.calm hx (.goes hslot hfree hfree' htask hruns) rfl hslot
        (fun taskId hrun => .inl (hruns.hasRun hrun)) (covers_of_free hfree')
  | inserts taskId presetId runId =>
      exact h.calm hx (.inserts taskId presetId runId) rfl rfl
        (fun u hrun => hasRun_inserts (List.mem_of_getElem? hx) hrun) (covers_of_free rfl)
  | takes taskId presetId limit hlock =>
      exact h.calm hx (.takes taskId presetId limit hlock) rfl rfl (fun _ => .inl) trivial
  | counts taskId presetId limit =>
      exact h.calm hx (.counts taskId presetId limit) rfl rfl (fun _ => .inl)
        (covers_counted s taskId presetId limit)
  | refuses hheld error =>
      exact h.calm hx (.refuses hheld error) rfl (Start.slot_of_holds hheld).symm (fun _ => .inl)
        trivial
  | letsIn taskId presetId htask hheld hroom =>
      refine ⟨h.letIn hfit hcounted hx htask hroom hknows, ?_⟩
      exact covers_moveTo (.letsIn taskId presetId htask hheld hroom) trivial fun j y hy hj =>
        hfit.covers_of_other hx (.inl hheld) hy hj
  | leaves taskId presetId hlock =>
      have hmoves := Moves.leaves (s := s) (i := i) taskId presetId hlock
      refine ⟨h.bounded.calmer (calmer_moveTo hx hmoves rfl (.inl rfl) fun _ => .inl), ?_⟩
      exact covers_moveTo hmoves trivial fun j y hy hj =>
        hfit.covers_of_other hx (.inr hlock) hy hj

/-! ## Runs of the system -/

/-- What holds in every state that is reached: the starts fit and are counted. -/
structure Inv (s : System) : Prop where
  fits : Fitting s
  counted : Counted s

theorem inv_initial :
    Inv {} :=
  ⟨⟨fun _ _ h => (nomatch h), nofun⟩, fun presetId => Dict.get?_empty presetId⟩

theorem capped_initial :
    Capped {} :=
  ⟨fun _ _ h => (nomatch h), nofun⟩

theorem getElem?_concat {s : System} {i : Nat} {x y : Start}
    (h : (s.starts ++ [x])[i]? = some y) :
    s.starts[i]? = some y ∨ y = x := by
  rw [List.getElem?_append] at h
  split_ifs at h with hlt
  · exact .inl h
  · exact .inr (List.mem_singleton.1 (List.mem_of_getElem? h))

theorem Fitting.saveTask {s : System} (h : Fitting s) {taskId presetId : String}
    (hnew : s.tasks taskId = none) :
    Fitting { s with tasks := Function.update s.tasks taskId (some presetId) } := by
  have hne : ∀ u, (s.tasks u).isSome = true → u ≠ taskId := by
    intro u hu heq
    rw [heq, hnew] at hu
    cases hu
  refine ⟨fun j y hy => ⟨fun task ht => ?_, (h.starts j y hy).lock⟩, fun run hrun => ?_⟩
  · have hold := (h.starts j y hy).task task ht
    exact (Function.update_of_ne (hne task.1 (by rw [hold]; rfl)) _ _).trans hold
  · have hold := h.runs run hrun
    exact (congrArg Option.isSome (Function.update_of_ne (hne run.taskId hold) _ _)).trans hold

theorem Fitting.setStatus {s : System} (h : Fitting s) (runId status : String) :
    ∀ run ∈ s.runs.map fun run => if run.runId = runId then { run with status } else run,
      (s.tasks run.taskId).isSome = true := by
  intro run hrun
  obtain ⟨old, hold, rfl⟩ := List.mem_map.1 hrun
  split_ifs <;> exact h.runs old hold

/-- A step keeps the starts as they fit, and the counters right. -/
theorem Inv.step {s : System} (h : Inv s) (e : Event) :
    Inv (TeamStarts.step s e) := by
  cases e with
  | start taskId roleIds =>
      refine ⟨⟨fun j y hy => ?_, h.fits.runs⟩, h.counted.same rfl fun presetId => ?_⟩
      · rcases getElem?_concat hy with hold | rfl
        · exact ⟨(h.fits.starts j y hold).task, (h.fits.starts j y hold).lock⟩
        · exact ⟨nofun, nofun⟩
      · exact sum_map_concat (Start.slots presetId) s.starts _
  | advance i answer =>
      cases hx : s.starts[i]? with
      | none => simpa only [TeamStarts.step, hx] using h
      | some x =>
          have hmoves := next_moves s i answer x
          simp only [TeamStarts.step, hx]
          exact ⟨h.fits.moveTo hx hmoves, h.counted.moveTo hx hmoves⟩
  | setStatus runId status =>
      refine ⟨⟨fun j y hy => ?_, h.fits.setStatus runId status⟩, h.counted.same rfl fun _ => rfl⟩
      exact ⟨(h.fits.starts j y hy).task, (h.fits.starts j y hy).lock⟩
  | savePreset preset =>
      refine ⟨⟨fun j y hy => ?_, h.fits.runs⟩, h.counted.same rfl fun _ => rfl⟩
      exact ⟨(h.fits.starts j y hy).task, (h.fits.starts j y hy).lock⟩
  | saveTask taskId presetId =>
      cases htask : s.tasks taskId with
      | some known => simpa [TeamStarts.step, htask] using h
      | none =>
          have hstep : TeamStarts.step s (.saveTask taskId presetId) =
              { s with tasks := Function.update s.tasks taskId (some presetId) } := by
            simp [TeamStarts.step, htask]
          rw [hstep]
          exact ⟨h.fits.saveTask htask, h.counted.same rfl fun _ => rfl⟩

theorem Capped.calmer {s s' : System} (h : Capped s) (hcalmer : Calmer s s')
    (hslots : ∀ taskId, HasSlot s taskId → HasSlot s' taskId)
    (hstarts : ∀ x ∈ s'.starts, x ∈ s.starts ∨ x.holds = false) :
    Capped s' := by
  refine ⟨h.bounded.calmer hcalmer, fun x hx => ?_⟩
  rcases hstarts x hx with hold | hfree
  · exact (h.covers x hold).calmer hcalmer hslots
  · exact covers_of_free hfree

/-- A settled step keeps the limits. -/
theorem Capped.step {s : System} (h : Capped s) (hinv : Inv s) {e : Event}
    (hsettled : Settled s e) :
    Capped (TeamStarts.step s e) := by
  cases e with
  | start taskId roleIds =>
      refine h.calmer ⟨rfl, fun presetId u hu => ?_⟩ (fun u hu => ?_) fun x hx => ?_
      · obtain ⟨htask, hwhy⟩ := mem_busyTasks.1 hu
        refine mem_busyTasks.2 ⟨htask, hwhy.imp_right fun hslot => ?_⟩
        obtain ⟨x, hx, slot⟩ := hslot
        rcases List.mem_append.1 hx with hold | hnew
        · exact ⟨x, hold, slot⟩
        · obtain ⟨other, hother⟩ := slot
          rw [List.mem_singleton.1 hnew] at hother
          cases hother
      · obtain ⟨x, hx, slot⟩ := hu
        exact ⟨x, List.mem_append_left _ hx, slot⟩
      · rcases List.mem_append.1 hx with hold | hnew
        · exact .inl hold
        · rw [List.mem_singleton.1 hnew]
          exact .inr rfl
  | advance i answer =>
      cases hx : s.starts[i]? with
      | none => simpa only [TeamStarts.step, hx] using h
      | some x =>
          simp only [TeamStarts.step, hx]
          exact h.moveTo hinv.fits hinv.counted hx (hsettled x hx) (next_moves s i answer x)
  | setStatus runId status =>
      refine h.calmer ⟨rfl, fun presetId u hu => ?_⟩ (fun _ => id) fun x hx => .inl hx
      obtain ⟨htask, hwhy⟩ := mem_busyTasks.1 hu
      exact mem_busyTasks.2 ⟨htask, hwhy.imp_left (fades_setStatus hsettled).hasRun⟩
  | savePreset preset =>
      exact h.calmer ⟨rfl, fun _ _ => id⟩ (fun _ => id) fun x hx => .inl hx
  | saveTask taskId presetId =>
      cases htask : s.tasks taskId with
      | some known => simpa [TeamStarts.step, htask] using h
      | none =>
          have hstep : TeamStarts.step s (.saveTask taskId presetId) =
              { s with tasks := Function.update s.tasks taskId (some presetId) } := by
            simp [TeamStarts.step, htask]
          rw [hstep]
          refine h.calmer ⟨rfl, fun other u hu => ?_⟩ (fun _ => id) fun x hx => .inl hx
          obtain ⟨hu', hwhy⟩ := mem_busyTasks.1 hu
          refine mem_busyTasks.2 ⟨?_, hwhy⟩
          have hknown : (s.tasks u).isSome = true := by
            rcases hwhy with ⟨run, hrun, -, rfl⟩ | ⟨x, hx, presetId', hslot⟩
            · exact hinv.fits.runs run hrun
            · obtain ⟨j, hj⟩ := List.mem_iff_getElem?.1 hx
              rw [(hinv.fits.starts j x hj).task _ (Start.task_of_slot hslot)]
              rfl
          have hne : u ≠ taskId := by
            rintro rfl
            rw [htask] at hknown
            cases hknown
          exact (Function.update_of_ne hne _ _).symm.trans hu'

/-- The counter of every preset is the number of its starts that have a slot, in every run. -/
theorem counters_right (es : List Event) :
    Counted (run step {} es) :=
  have hall : Along step (fun _ _ => True) {} es := along_of_forall (fun _ _ => trivial) _ es
  have hinv : Inv (run step {} es) := hall.invariant (fun _ e h _ => h.step e) inv_initial
  hinv.counted

/--
In every settled run, a preset never has more tasks with an active run or a start in progress than
it allowed when a start was let in last, and its counter is the number of its starts with a slot.
-/
theorem limit_respected {es : List Event} (h : Along step Settled {} es) :
    Bounded (run step {} es) ∧ Counted (run step {} es) := by
  let Kept (s : System) : Prop := Inv s ∧ Capped s
  have hstep : ∀ s e, Kept s → Settled s e → Kept (step s e) := fun s e hs hok =>
    ⟨hs.1.step e, hs.2.step hs.1 hok⟩
  have hrun : Kept (run step {} es) := h.invariant hstep ⟨inv_initial, capped_initial⟩
  exact ⟨hrun.2.bounded, hrun.1.counted⟩

/-- A preset that allows one task, two tasks of it, and a start of the first. -/
def oneAllowed : List Event :=
  [.savePreset
      { presetId := "windows", roleIds := [1], isActive := true, version := 1, namePrefix := ""
        hostDiscoveryEnabled := false, hostDiscoveryProfileId := none, maxActiveTasks := some 1 },
    .saveTask "first" "windows", .saveTask "second" "windows", .start "first" none,
    .advance 0 .proceeds, .advance 0 .proceeds, .advance 0 .proceeds, .advance 0 .proceeds,
    .advance 0 .proceeds, .advance 0 (.inserts "run-1")]

/-- While the first task is started, the start of the second is refused. -/
def secondRefused : List Event :=
  oneAllowed ++
    [.start "second" (some [1]), .advance 1 .proceeds, .advance 1 .proceeds, .advance 1 .proceeds,
      .advance 1 .proceeds, .advance 1 .proceeds]

theorem limit_respected_second :
    (run step {} secondRefused).starts =
        [.running "first" "windows" "run-1", .ended (some (.concurrencyLimit "windows" 2 1))] ∧
      Bounded (run step {} secondRefused) ∧ Counted (run step {} secondRefused) :=
  ⟨by decide +kernel, limit_respected (by decide +kernel)⟩

/--
The start of the first task fails after its run has been inserted, the second task is started, and
then a worker of the first run reports its progress.
-/
def failedRunReports : List Event :=
  oneAllowed ++
    [.advance 0 .raises, .advance 0 .proceeds,
      .start "second" none, .advance 1 .proceeds, .advance 1 .proceeds, .advance 1 .proceeds,
      .advance 1 .proceeds, .advance 1 .proceeds, .advance 1 (.inserts "run-2"),
      .setStatus "run-1" "processing"]

theorem failed_run_exceeds_limit :
    ¬ ∀ es : List Event, Bounded (run step {} es) ∧ Counted (run step {} es) := by
  intro h
  have hone : (run step {} failedRunReports).lastLimit "windows" = some 1 := by decide +kernel
  have htwo : (busyTasks (run step {} failedRunReports) "windows").length = 2 := by decide +kernel
  have hle := (h failedRunReports).1 "windows" 1 hone
  omega

end TeamStarts
end Scanner
end MpvmApp
