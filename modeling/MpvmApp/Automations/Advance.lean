import MpvmApp.Automations.Scheduler

/-!
# Ticks that are interleaved with edits

A tick computes the next slot of a schedule from the row that it has read when it
began, and stores it later, in another transaction, whatever the row has become by
then.  Between the two a client can edit the schedule.

Main definitions:

- `TickProgress`: a tick between two of its transactions.
- `interleavedStep`: a transaction of the tick or a step of anybody else.
- `KeepsEdits`: stored slots belong to their schedules, and edits are kept.

Main results:

- Theorem `tables_run_work`: without interference the transactions are a tick.
- Theorem `edits_kept_iff`: when the advances of a run keep the edits.
-/

namespace MpvmApp
namespace Automations

open Runs

/-! ## A tick in progress -/

/--
A tick between two transactions: the schedules that it has read and not handled, the
advance that is outstanding, and the schedules that clients have edited since it read.
-/
structure TickProgress where
  env : TickEnv
  pending : List Schedule
  outstanding : Option (Schedule × Instant × String) := none
  edited : List String := []

/-- The tables and the tick of the scheduler. -/
structure InterleavedState where
  tables : SchedulerState
  tick : Option TickProgress := none

/-- A transaction of the tick, or a step of anybody else. -/
inductive InterleavedEvent where
  /-- `due_schedules`; what is left of an earlier tick is lost with its process. -/
  | read (env : TickEnv)
  | work
  | other (ev : SchedulerEvent)

/-- The schedule that an event edits. -/
def SchedulerEvent.edits? (cfg : SchedulerSettings) : SchedulerEvent → Option String
  | .edit scheduleId cron timezone _ now =>
      (cfg.next cron timezone now).map fun _ => scheduleId
  | _ => none

/-- The next transaction of a tick: an outstanding advance, or the next attempt. -/
def tickWork (cfg : SchedulerSettings) (s : SchedulerState) (t : TickProgress) : InterleavedState :=
  match t.outstanding, t.pending with
  | some (x, nextAt, status), _ =>
      { tables := advance s x nextAt status
        tick := some { t with outstanding := none } }
  | none, [] => { tables := s, tick := some t }
  | none, x :: xs =>
      { tables := (attempt cfg t.env s x).1
        tick := (attempt cfg t.env s x).2.map fun next =>
          { t with pending := xs, outstanding := some (x, next) } }

/-- One step of the scheduler and its clients. -/
def interleavedStep (cfg : SchedulerSettings) (s : InterleavedState) :
    InterleavedEvent → InterleavedState
  | .read env =>
      { s with
        tick := some { env := env, pending := (s.tables.dueSchedules env.now).take dueLimit } }
  | .work =>
      match s.tick with
      | none => s
      | some t => tickWork cfg s.tables t
  | .other ev =>
      { tables := schedulerStep cfg s.tables ev
        tick := s.tick.map fun t => { t with edited := (ev.edits? cfg).toList ++ t.edited } }

/-! ## Without interference -/

section Refinement

variable {cfg : SchedulerSettings}

theorem run_work_none (s : SchedulerState) (n : Nat) :
    run (interleavedStep cfg) { tables := s } (.replicate n .work) = { tables := s } := by
  induction n with
  | zero => rfl
  | succ n ih => simpa [List.replicate_succ, interleavedStep] using ih

/-- The transactions of a tick in progress are the loop over what it has read. -/
theorem tables_run_work_progress (env : TickEnv) (edited : List String) (n : Nat)
    (s : SchedulerState) (xs : List Schedule) :
    (run (interleavedStep cfg)
        { tables := s, tick := some { env := env, pending := xs, edited := edited } }
        (.replicate n .work)).tables =
      tickLoop cfg env n s xs := by
  induction n, s, xs using tickLoop.induct cfg env with
  | case1 s xs => rfl
  | case2 n s hn =>
      have hloop : tickLoop cfg env n s [] = s := by cases n <;> simp [tickLoop]
      rw [hloop]
      clear hn hloop
      induction n with
      | zero => rfl
      | succ n ih =>
          rw [List.replicate_succ, run_cons]
          exact ih
  | case3 s x xs => rfl
  | case4 n s x xs hraises =>
      simp only [tickLoop, hraises]
      have hstep : interleavedStep cfg
          { tables := s, tick := some { env := env, pending := x :: xs, edited := edited } }
          .work = { tables := (attempt cfg env s x).1 } := by
        simp [interleavedStep, tickWork, hraises]
      rw [List.replicate_succ, run_cons, hstep, run_work_none]
  | case5 n s x xs nextAt status hstatus ih =>
      simp only [tickLoop, hstatus]
      have hattempt : interleavedStep cfg
          { tables := s, tick := some { env := env, pending := x :: xs, edited := edited } }
          .work =
          { tables := (attempt cfg env s x).1
            tick := some
              { env := env
                pending := xs
                outstanding := some (x, nextAt, status)
                edited := edited } } := by
        simp [interleavedStep, tickWork, hstatus]
      rw [List.replicate_succ, run_cons, hattempt, List.replicate_succ, run_cons]
      exact ih

/-- A tick is its read and the transactions after it, when nobody else comes between. -/
theorem tables_run_work (s : InterleavedState) (env : TickEnv) (n : Nat) :
    (run (interleavedStep cfg) s (.read env :: .replicate n .work)).tables =
      schedulerTick cfg env n s.tables :=
  tables_run_work_progress env [] n s.tables _

end Refinement

/-! ## Slots of schedules -/

/-- The stored slot is one of the cron expression of the schedule in its timezone. -/
def IsSlot (cfg : SchedulerSettings) (row : Schedule) : Prop :=
  ∃ after, cfg.next row.cron row.timezone after = some row.nextRunAt

/-- The row still has the cron expression and the timezone that were read. -/
def SameCron (s : SchedulerState) (x : Schedule) : Prop :=
  ∃ row, s.schedules.find? x.scheduleId = some row ∧ row.cron = x.cron ∧ row.timezone = x.timezone

/-- Every schedule stores one of its slots. -/
def AllSlots (cfg : SchedulerSettings) (s : SchedulerState) : Prop :=
  ∀ row ∈ s.schedules, IsSlot cfg row

/--
After a step every schedule stores one of its own slots, and an advance leaves the slot
of a schedule alone that was edited after the tick read it.
-/
def KeepsEdits (cfg : SchedulerSettings) (s : InterleavedState) (ev : InterleavedEvent) : Prop :=
  AllSlots cfg (interleavedStep cfg s ev).tables ∧
  (ev = .work → ∀ t, s.tick = some t → ∀ x next, t.outstanding = some (x, next) →
    x.scheduleId ∈ t.edited → ∀ row, s.tables.schedules.find? x.scheduleId = some row →
      ((interleavedStep cfg s ev).tables.schedules.find? x.scheduleId).map Schedule.nextRunAt =
        some row.nextRunAt)

/--
A schedule that is advanced has not been edited since the tick read it, or the edit
stored the slot that comes next for the schedule as the tick read it.
-/
def NothingLost (cfg : SchedulerSettings) (s : InterleavedState) (ev : InterleavedEvent) : Prop :=
  ev = .work → ∀ t, s.tick = some t → ∀ x next, t.outstanding = some (x, next) →
    x.scheduleId ∈ t.edited → ∀ row, s.tables.schedules.find? x.scheduleId = some row →
      cfg.next x.cron x.timezone t.env.now = some row.nextRunAt

/-- What a tick in progress knows of the schedules that nobody has edited. -/
structure TickProgress.Current (cfg : SchedulerSettings) (s : SchedulerState)
    (t : TickProgress) : Prop where
  pending : ∀ x ∈ t.pending, x.scheduleId ∉ t.edited → SameCron s x
  outstanding : ∀ x nextAt status, t.outstanding = some (x, nextAt, status) →
    cfg.next x.cron x.timezone t.env.now = some nextAt ∧
      (x.scheduleId ∉ t.edited → SameCron s x)

/-- Every stored slot is one of its schedule, and the tick in progress is current. -/
structure InterleavedInv (cfg : SchedulerSettings) (s : InterleavedState) : Prop where
  slots : AllSlots cfg s.tables
  current : ∀ t, s.tick = some t → t.Current cfg s.tables

section Slots

variable {cfg : SchedulerSettings} {s s' : SchedulerState}

/-- A schedule keeps its cron expression and its timezone from one state to another. -/
def CronKept (s s' : SchedulerState) (scheduleId : String) : Prop :=
  ∀ row, s.schedules.find? scheduleId = some row →
    ∃ row', s'.schedules.find? scheduleId = some row' ∧
      row'.cron = row.cron ∧ row'.timezone = row.timezone

theorem CronKept.of_schedules_eq {scheduleId : String} (h : s'.schedules = s.schedules) :
    CronKept s s' scheduleId := by
  intro row hrow
  exact ⟨row, h ▸ hrow, rfl, rfl⟩

theorem CronKept.trans {s'' : SchedulerState} {scheduleId : String}
    (h : CronKept s s' scheduleId) (h' : CronKept s' s'' scheduleId) :
    CronKept s s'' scheduleId := by
  intro row hrow
  obtain ⟨row', hrow', hcron, htimezone⟩ := h row hrow
  obtain ⟨row'', hrow'', hcron', htimezone'⟩ := h' row' hrow'
  exact ⟨row'', hrow'', hcron'.trans hcron, htimezone'.trans htimezone⟩

theorem SameCron.mono {x : Schedule} (h : SameCron s x) (hkept : CronKept s s' x.scheduleId) :
    SameCron s' x := by
  obtain ⟨row, hrow, hcron, htimezone⟩ := h
  obtain ⟨row', hrow', hcron', htimezone'⟩ := hkept row hrow
  exact ⟨row', hrow', hcron'.trans hcron, htimezone'.trans htimezone⟩

theorem cronKept_advance (s : SchedulerState) (x : Schedule) (nextAt : Instant)
    (status scheduleId : String) :
    CronKept s (advance s x nextAt status) scheduleId := by
  intro row hrow
  rw [find?_advance]
  by_cases hid : scheduleId = x.scheduleId
  · exact ⟨row.advanced x.nextRunAt nextAt status, by rw [if_pos hid, hrow]; rfl, rfl, rfl⟩
  · exact ⟨row, by rw [if_neg hid, hrow], rfl, rfl⟩

theorem mem_advance {x row : Schedule} {nextAt : Instant} {status : String}
    (h : row ∈ (advance s x nextAt status).schedules) :
    row ∈ s.schedules ∨
      ∃ row', s.schedules.find? x.scheduleId = some row' ∧
        row = row'.advanced x.nextRunAt nextAt status := by
  unfold advance SchedulerState.updateSchedule at h
  rw [Table.mem_mapRows] at h
  obtain ⟨row', hmem, rfl⟩ := h
  by_cases hid : row'.scheduleId = x.scheduleId
  · right
    rw [if_pos hid]
    exact ⟨row', hid ▸ Table.find?_of_mem hmem, rfl⟩
  · left
    rw [if_neg hid]
    exact hmem

theorem AllSlots.advance {x : Schedule} {nextAt now : Instant} (h : AllSlots cfg s)
    (hsame : SameCron s x) (hnext : cfg.next x.cron x.timezone now = some nextAt)
    (status : String) :
    AllSlots cfg (advance s x nextAt status) := by
  intro row hrow
  rcases mem_advance hrow with hmem | ⟨row', hfind, rfl⟩
  · exact h row hmem
  · obtain ⟨row'', hfind', hcron, htimezone⟩ := hsame
    rw [hfind, Option.some.injEq] at hfind'
    subst hfind'
    refine ⟨now, ?_⟩
    simp only [Schedule.advanced, hcron, htimezone]
    exact hnext

/-- The loop of a tick stores slots when it has read the schedules as they are. -/
theorem AllSlots.tickLoop {env : TickEnv} {xs : List Schedule} (h : AllSlots cfg s)
    (hsame : ∀ x ∈ xs, SameCron s x) (n : Nat) :
    AllSlots cfg (tickLoop cfg env n s xs) := by
  have hattempt : ∀ {s : SchedulerState} {x : Schedule}, AllSlots cfg s →
      AllSlots cfg (attempt cfg env s x).1 := by
    intro s x h row hrow
    rw [schedules_attempt] at hrow
    exact h row hrow
  induction n, s, xs using Automations.tickLoop.induct cfg env with
  | case1 s xs => exact h
  | case2 n s hn => simpa [Automations.tickLoop] using h
  | case3 s x xs => exact hattempt h
  | case4 n s x xs hraises =>
      simp only [Automations.tickLoop, hraises]
      exact hattempt h
  | case5 n s x xs nextAt status hstatus ih =>
      simp only [Automations.tickLoop, hstatus]
      have hkept : ∀ scheduleId, CronKept s (attempt cfg env s x).1 scheduleId :=
        fun _ => .of_schedules_eq (schedules_attempt cfg env s x)
      have hx : SameCron (attempt cfg env s x).1 x := (hsame x List.mem_cons_self).mono (hkept _)
      refine ih ((hattempt h).advance hx (next_of_attempt hstatus) status) fun y hy => ?_
      exact (hsame y (List.mem_cons_of_mem x hy)).mono
        ((hkept _).trans (cronKept_advance _ x nextAt status _))

theorem cronKept_tickLoop (env : TickEnv) (n : Nat) (s : SchedulerState) (xs : List Schedule)
    (scheduleId : String) :
    CronKept s (tickLoop cfg env n s xs) scheduleId := by
  induction n, s, xs using Automations.tickLoop.induct cfg env with
  | case1 s xs => exact .of_schedules_eq rfl
  | case2 n s hn => exact .of_schedules_eq (by simp [tickLoop])
  | case3 s x xs => exact .of_schedules_eq (schedules_attempt cfg env s x)
  | case4 n s x xs hraises =>
      simp only [tickLoop, hraises]
      exact .of_schedules_eq (schedules_attempt cfg env s x)
  | case5 n s x xs nextAt status hstatus ih =>
      simp only [tickLoop, hstatus]
      refine CronKept.trans (.of_schedules_eq (schedules_attempt cfg env s x)) ?_
      exact (cronKept_advance _ x nextAt status scheduleId).trans ih

theorem sameCron_of_mem_dueSchedules {now : Instant} {x : Schedule}
    (h : x ∈ (s.dueSchedules now).take dueLimit) :
    SameCron s x :=
  ⟨x, Table.find?_of_mem (mem_dueSchedules.1 (List.mem_of_mem_take h)).1, rfl, rfl⟩

/-- Whatever anybody else does, every schedule stores one of its slots. -/
theorem AllSlots.schedulerStep (h : AllSlots cfg s) (ev : SchedulerEvent) :
    AllSlots cfg (schedulerStep cfg s ev) := by
  cases ev with
  | tick env transactions =>
      exact h.tickLoop (fun x hx => sameCron_of_mem_dueSchedules hx) transactions
  | start runbookId dryRun trigger key =>
      intro row hrow
      simp only [Automations.schedulerStep, schedules_startRun] at hrow
      exact h row hrow
  | publish runbookId version => exact h
  | setStatus i status => exact h
  | create scheduleId runbookId cron timezone enabled now =>
      intro row hrow
      simp only [Automations.schedulerStep, createSchedule] at hrow
      split at hrow
      · rename_i nextAt _ hnext
        dsimp only at hrow
        cases hinsert : s.schedules.insert?
          { scheduleId := scheduleId
            runbookId := runbookId
            cron := cron
            timezone := timezone
            enabled := enabled
            nextRunAt := nextAt } with
        | none =>
            rw [hinsert, Option.getD_none] at hrow
            exact h row hrow
        | some schedules =>
            rw [hinsert, Option.getD_some, Table.mem_def, Table.rows_of_insert? hinsert] at hrow
            rcases List.mem_append.1 hrow with hold | hnew
            · exact h row hold
            · rw [List.mem_singleton.1 hnew]
              exact ⟨now, hnext⟩
      · exact h row hrow
  | edit scheduleId cron timezone enabled now =>
      intro row hrow
      simp only [Automations.schedulerStep, editSchedule] at hrow
      split at hrow
      · exact h row hrow
      · rename_i nextAt hnext
        simp only [SchedulerState.updateSchedule, Table.mem_mapRows] at hrow
        obtain ⟨row', hmem, rfl⟩ := hrow
        by_cases hid : row'.scheduleId = scheduleId
        · rw [if_pos hid]
          exact ⟨now, hnext⟩
        · rw [if_neg hid]
          exact h row' hmem

/-- Only an edit changes the cron expression of a schedule. -/
theorem cronKept_schedulerStep {ev : SchedulerEvent} {scheduleId : String}
    (h : ev.edits? cfg ≠ some scheduleId) :
    CronKept s (Automations.schedulerStep cfg s ev) scheduleId := by
  cases ev with
  | tick env transactions => exact cronKept_tickLoop env transactions s _ scheduleId
  | start runbookId dryRun trigger key => exact .of_schedules_eq (schedules_startRun _ s _)
  | publish runbookId version => exact .of_schedules_eq rfl
  | setStatus i status => exact .of_schedules_eq rfl
  | create scheduleId' runbookId cron timezone enabled now =>
      intro row hrow
      simp only [Automations.schedulerStep, createSchedule]
      split
      · rename_i nextAt _ _
        dsimp only
        cases hinsert : s.schedules.insert?
          { scheduleId := scheduleId'
            runbookId := runbookId
            cron := cron
            timezone := timezone
            enabled := enabled
            nextRunAt := nextAt } with
        | none => exact ⟨row, hrow, rfl, rfl⟩
        | some schedules =>
            refine ⟨row, ?_, rfl, rfl⟩
            have hmem : row ∈ schedules := by
              rw [Table.mem_def, Table.rows_of_insert? hinsert]
              exact List.mem_append_left _ (Table.mem_of_find? hrow)
            rw [← Table.pk_of_find? hrow]
            exact Table.find?_of_mem hmem
      · exact ⟨row, hrow, rfl, rfl⟩
  | edit scheduleId' cron timezone enabled now =>
      simp only [SchedulerEvent.edits?, ne_eq, Option.map_eq_some_iff, not_exists, not_and] at h
      simp only [Automations.schedulerStep, editSchedule]
      split
      · exact .of_schedules_eq rfl
      · rename_i nextAt hnext
        intro row hrow
        refine ⟨row, ?_, rfl, rfl⟩
        have hid := Table.pk_of_find? hrow
        have hne : row.scheduleId ≠ scheduleId' := by
          rw [hid]
          exact Ne.symm (h nextAt hnext)
        simp [SchedulerState.updateSchedule, Table.find?_mapRows, hrow, hne]

end Slots

/-! ## Runs with edits -/

section Runs

variable {cfg : SchedulerSettings} {s : InterleavedState}

theorem TickProgress.Current.mono {tables tables' : SchedulerState} {t : TickProgress}
    (h : t.Current cfg tables) (edited : List String)
    (hkept : ∀ scheduleId, scheduleId ∉ edited → CronKept tables tables' scheduleId) :
    TickProgress.Current cfg tables' { t with edited := edited ++ t.edited } := by
  constructor
  · intro x hx hedited
    rw [List.mem_append, not_or] at hedited
    exact (h.pending x hx hedited.2).mono (hkept _ hedited.1)
  · intro x nextAt status hx
    obtain ⟨hnext, hsame⟩ := h.outstanding x nextAt status hx
    refine ⟨hnext, fun hedited => ?_⟩
    rw [List.mem_append, not_or] at hedited
    exact (hsame hedited.2).mono (hkept _ hedited.1)

/-- An attempt keeps what the tick knows, and computes the next slot of the schedule. -/
theorem InterleavedInv.attempt {t : TickProgress} {x : Schedule} {xs : List Schedule}
    (h : InterleavedInv cfg s) (ht : s.tick = some t) (hout : t.outstanding = none)
    (hpending : t.pending = x :: xs) :
    InterleavedInv cfg (tickWork cfg s.tables t) := by
  have hkept : ∀ scheduleId,
      CronKept s.tables (Automations.attempt cfg t.env s.tables x).1 scheduleId :=
    fun _ => .of_schedules_eq (schedules_attempt cfg t.env s.tables x)
  unfold tickWork
  rw [hout, hpending]
  constructor
  · intro row hrow
    dsimp only at hrow
    rw [schedules_attempt] at hrow
    exact h.slots row hrow
  · intro t' ht'
    obtain ⟨⟨nextAt, status⟩, hresult, rfl⟩ := Option.map_eq_some_iff.1 ht'
    obtain ⟨hcurrent, _⟩ := h.current t ht
    rw [hpending] at hcurrent
    constructor
    · intro y hy hedited
      exact (hcurrent y (List.mem_cons_of_mem x hy) hedited).mono (hkept _)
    · intro y nextAt' status' hy
      cases hy
      exact ⟨next_of_attempt hresult, fun hedited =>
        (hcurrent x List.mem_cons_self hedited).mono (hkept _)⟩

/-- The slots after an advance that overwrites no edit. -/
theorem InterleavedInv.allSlots_advance {t : TickProgress} {x : Schedule} {nextAt : Instant}
    {status : String} (h : InterleavedInv cfg s) (ht : s.tick = some t)
    (hout : t.outstanding = some (x, nextAt, status))
    (hlost : x.scheduleId ∈ t.edited → ∀ row,
      s.tables.schedules.find? x.scheduleId = some row →
        cfg.next x.cron x.timezone t.env.now = some row.nextRunAt) :
    AllSlots cfg (advance s.tables x nextAt status) := by
  obtain ⟨hnext, hsame⟩ := (h.current t ht).outstanding x nextAt status hout
  by_cases hedited : x.scheduleId ∈ t.edited
  · -- the edit has stored the slot that the tick stores
    intro row hrow
    rcases mem_advance hrow with hmem | ⟨row', hfind, rfl⟩
    · exact h.slots row hmem
    · have hslot := hlost hedited row' hfind
      rw [hnext, Option.some.injEq] at hslot
      obtain ⟨after, hafter⟩ := h.slots row' (Table.mem_of_find? hfind)
      refine ⟨after, ?_⟩
      simp only [Schedule.advanced, hslot]
      exact hafter
  · exact h.slots.advance (hsame hedited) hnext status

theorem nextRunAt_advance {x row : Schedule} {nextAt : Instant} {status : String}
    {tables : SchedulerState} (hrow : tables.schedules.find? x.scheduleId = some row) :
    ((advance tables x nextAt status).schedules.find? x.scheduleId).map Schedule.nextRunAt =
      some nextAt := by
  rw [find?_advance, if_pos rfl, hrow]
  rfl

/-- A step keeps the edits exactly when it loses nothing. -/
theorem keepsEdits_iff (h : InterleavedInv cfg s) (ev : InterleavedEvent) :
    KeepsEdits cfg s ev ↔ NothingLost cfg s ev := by
  constructor
  · rintro ⟨_, hkept⟩ hwork t ht x ⟨nextAt, status⟩ hout hedited row hrow
    have hslot := hkept hwork t ht x (nextAt, status) hout hedited row hrow
    subst hwork
    have hstep : (interleavedStep cfg s .work).tables = advance s.tables x nextAt status := by
      simp [interleavedStep, tickWork, ht, hout]
    rw [hstep, nextRunAt_advance hrow, Option.some.injEq] at hslot
    rw [← hslot]
    exact ((h.current t ht).outstanding x nextAt status hout).1
  · intro hlost
    refine ⟨?_, ?_⟩
    · cases ev with
      | read env => exact h.slots
      | other ev => exact h.slots.schedulerStep ev
      | work =>
          cases ht : s.tick with
          | none =>
              simp only [interleavedStep, ht]
              exact h.slots
          | some t =>
              simp only [interleavedStep, ht]
              cases hout : t.outstanding with
              | some out =>
                  obtain ⟨x, nextAt, status⟩ := out
                  simp only [tickWork, hout]
                  exact h.allSlots_advance ht hout (hlost rfl t ht x (nextAt, status) hout)
              | none =>
                  cases hpending : t.pending with
                  | nil =>
                      simp only [tickWork, hout, hpending]
                      exact h.slots
                  | cons x xs => exact (h.attempt ht hout hpending).slots
    · rintro rfl t ht x ⟨nextAt, status⟩ hout hedited row hrow
      have hstep : (interleavedStep cfg s .work).tables = advance s.tables x nextAt status := by
        simp [interleavedStep, tickWork, ht, hout]
      have hslot := hlost rfl t ht x (nextAt, status) hout hedited row hrow
      rw [((h.current t ht).outstanding x nextAt status hout).1] at hslot
      rw [hstep, nextRunAt_advance hrow, hslot]

/-- A step that stores slots keeps the invariant. -/
theorem InterleavedInv.step {ev : InterleavedEvent} (h : InterleavedInv cfg s)
    (hslots : AllSlots cfg (interleavedStep cfg s ev).tables) :
    InterleavedInv cfg (interleavedStep cfg s ev) := by
  refine ⟨hslots, ?_⟩
  cases ev with
  | read env =>
      intro t ht
      cases ht
      refine ⟨fun x hx _ => sameCron_of_mem_dueSchedules hx, fun x nextAt status hout => ?_⟩
      cases hout
  | other ev =>
      intro t' ht'
      obtain ⟨t, ht, rfl⟩ := Option.map_eq_some_iff.1 ht'
      refine (h.current t ht).mono _ fun scheduleId hedited => ?_
      apply cronKept_schedulerStep
      simpa using hedited
  | work =>
      cases ht : s.tick with
      | none =>
          intro t ht'
          simp only [interleavedStep, ht] at ht'
          cases ht'
      | some t =>
          simp only [interleavedStep, ht]
          cases hout : t.outstanding with
          | some out =>
              obtain ⟨x, nextAt, status⟩ := out
              intro t' ht'
              simp only [tickWork, hout, Option.some.injEq] at ht'
              subst ht'
              simp only [tickWork, hout]
              refine ⟨fun y hy hedited => ?_, fun y nextAt' status' hy => by cases hy⟩
              exact ((h.current t ht).pending y hy hedited).mono
                (cronKept_advance s.tables x nextAt status _)
          | none =>
              cases hpending : t.pending with
              | nil =>
                  intro t' ht'
                  simp only [tickWork, hout, hpending, Option.some.injEq] at ht'
                  subst ht'
                  simpa only [tickWork, hout, hpending] using h.current t ht
              | cons x xs => exact (h.attempt ht hout hpending).current

/-- Nothing is scheduled, and no tick is in progress. -/
def noTick : InterleavedState where
  tables := noSchedules

theorem interleavedInv_noTick :
    InterleavedInv cfg noTick where
  slots := fun row hrow => by cases hrow
  current := fun t ht => by cases ht

/--
In every run, all steps store slots of the schedules as they are and overwrite no edit
exactly when no advance meets an edited schedule, unless the edit has stored the slot
that comes next for the schedule as it was.
-/
theorem edits_kept_iff (cfg : SchedulerSettings) (es : List InterleavedEvent) :
    Along (interleavedStep cfg) (KeepsEdits cfg) noTick es ↔
      Along (interleavedStep cfg) (NothingLost cfg) noTick es := by
  apply along_congr
  · intro s ev (h : InterleavedInv cfg s) hkept
    exact h.step hkept.1
  · intro s ev h
    exact keepsEdits_iff h ev
  · exact interleavedInv_noTick

end Runs

/-- An hourly expression, and others that run every minute. -/
def hourlySettings : SchedulerSettings where
  pollSeconds := 30
  next := fun cron _ after =>
    if cron = "0 * * * *" then some ((after / 3600 + 1) * 3600)
    else some ((after / 60 + 1) * 60)

/-- The scheduler runs without failures. -/
def calmEnv : TickEnv where
  now := 60
  ready := fun _ => true
  fault := fun _ => none

/-- A client edits the cron expression of a schedule between the read and the advance. -/
def editBeforeAdvance : List InterleavedEvent :=
  [.other (.publish "r1" { version := 1 }), .other (.create "a" "r1" "* * * * *" "UTC" true 0),
    .read calmEnv, .work, .other (.edit "a" "0 * * * *" "UTC" true 61), .work]

/-- The schedule is left with a slot of the expression that the client has replaced. -/
theorem edit_overwritten_by_advance :
    ¬ ∀ (cfg : SchedulerSettings) (es : List InterleavedEvent),
      Along (interleavedStep cfg) (KeepsEdits cfg) noTick es := by
  intro h
  have hrun := h hourlySettings editBeforeAdvance
  have hslots := hrun.2.2.2.2.2.1.1
  have hstored : { scheduleId := "a", runbookId := "r1", cron := "0 * * * *", timezone := "UTC",
                   nextRunAt := 120, lastScheduledAt := some 60,
                   lastStatus := some "queued" } ∈
      (run (interleavedStep hourlySettings) noTick editBeforeAdvance).tables.schedules.rows := by
    decide +kernel
  obtain ⟨after, hafter⟩ := hslots _ hstored
  simp only [hourlySettings, if_true, Option.some.injEq] at hafter
  have hhours : ∀ k : Int, (k / 3600 + 1) * 3600 ≠ 120 := by
    intro k
    omega
  exact hhours after hafter

end Automations
end MpvmApp
