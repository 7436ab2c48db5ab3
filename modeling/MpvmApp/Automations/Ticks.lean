import MpvmApp.Automations.Scheduler

/-!
# Complete ticks

A tick that is not cut short serves a due schedule when it creates the run of the slot
and advances the schedule.  The loop has no handler around one schedule, so that an
exception leaves all later schedules as they are, and a tick reads no more than a fixed
number of them.

Main definitions:

- `startFails`: the attempt to start the run of a schedule raises.
- `Served`: a schedule is advanced, and its slot has one run.
- `Unblocked`: no schedule that could be served stands behind one that fails.

Main results:

- Theorem `tickLoop_serves_iff`: when the loop of a tick serves all schedules.
- Theorem `ticks_serve_iff`: when every tick of a run of the deployment does.
-/

namespace MpvmApp
namespace Automations

open Runs

/-! ## Schedules that fail -/

/-- The attempt to start the run of a schedule raises. -/
def startFails (cfg : SchedulerSettings) (env : TickEnv) (s : SchedulerState) (x : Schedule) :
    Bool :=
  (cfg.next x.cron x.timezone env.now).isNone ||
    decide (env.fault x.scheduleId = some .early) ||
    match s.byKey? (.slot x.scheduleId x.nextRunAt) with
    | some replay => !replay.sameRequest x.request
    | none =>
        match s.versions x.runbookId with
        | none => true
        | some version =>
            (version.destructive && !version.destructiveApproved) ||
              decide (env.fault x.scheduleId = some .late)

/-- The tick ends with an exception at the schedule. -/
def blocks (cfg : SchedulerSettings) (env : TickEnv) (s : SchedulerState) (x : Schedule) : Bool :=
  (cfg.next x.cron x.timezone env.now).isNone ||
    (skipReason cfg env s x).isNone && startFails cfg env s x

/-- The tables after a schedule is handled. -/
def handled (cfg : SchedulerSettings) (env : TickEnv) (s : SchedulerState) (x : Schedule) :
    SchedulerState :=
  match (attempt cfg env s x).2 with
  | none => (attempt cfg env s x).1
  | some (nextAt, status) => advance (attempt cfg env s x).1 x nextAt status

/-- The schedule is advanced, and its slot has exactly one run. -/
def Served (cfg : SchedulerSettings) (env : TickEnv) (s : SchedulerState) (x : Schedule) : Prop :=
  (∃ nextAt status, cfg.next x.cron x.timezone env.now = some nextAt ∧
    s.schedules.find? x.scheduleId = some (x.advanced x.nextRunAt nextAt status)) ∧
  (s.slotRuns x.scheduleId x.nextRunAt).length = 1

/--
Among the due schedules, no schedule that does not fail stands behind one at which the
tick ends, or behind as many as a tick reads.
-/
def Unblocked (cfg : SchedulerSettings) (env : TickEnv) :
    Nat → SchedulerState → List Schedule → Prop
  | _, _, [] => True
  | 0, s, xs => ∀ y ∈ xs, startFails cfg env s y = true
  | n + 1, s, x :: xs =>
      if blocks cfg env s x then ∀ y ∈ xs, startFails cfg env s y = true
      else Unblocked cfg env n (handled cfg env s x) xs

section Attempt

variable {cfg : SchedulerSettings} {env : TickEnv} {s : SchedulerState}

theorem byKey?_createRun {s' : SchedulerState} {request : RunRequest} {version : Version}
    {status : RunStatus} (h : s.createRun? request version status = some s') (key : RunKey) :
    (s'.byKey? key).isSome = ((s.byKey? key).isSome || decide (request.key = some key)) := by
  unfold SchedulerState.createRun? at h
  split at h
  · cases h
  · cases h
    unfold SchedulerState.byKey?
    rw [List.find?_cons]
    by_cases hkey : request.key = some key
    · simp [hkey]
    · simp [hkey]

theorem versions_createRun {s' : SchedulerState} {request : RunRequest} {version : Version}
    {status : RunStatus} (h : s.createRun? request version status = some s') :
    s'.versions = s.versions := by
  unfold SchedulerState.createRun? at h
  split at h <;> cases h
  rfl

theorem exists_createRun {x : Schedule} (version : Version) (status : RunStatus)
    (h : s.byKey? (.slot x.scheduleId x.nextRunAt) = none) :
    ∃ s', s.createRun? x.request version status = some s' := by
  simp [SchedulerState.createRun?, Schedule.request, h]

theorem createRun?_eq_none {x : Schedule} (version : Version) (status : RunStatus)
    (h : (s.byKey? (.slot x.scheduleId x.nextRunAt)).isSome) :
    s.createRun? x.request version status = none := by
  simp [SchedulerState.createRun?, Schedule.request, h]

/-- What `start_run` does for a slot. -/
theorem startRun_request (late : Bool) (s : SchedulerState) (x : Schedule) :
    (∃ replay, s.byKey? (.slot x.scheduleId x.nextRunAt) = some replay ∧
      startRun late s x.request = (s, replay.sameRequest x.request)) ∨
    (s.byKey? (.slot x.scheduleId x.nextRunAt) = none ∧ s.versions x.runbookId = none ∧
      startRun late s x.request = (s, false)) ∨
    ∃ version, s.byKey? (.slot x.scheduleId x.nextRunAt) = none ∧
      s.versions x.runbookId = some version ∧
      ((version.destructive && !version.destructiveApproved) = true ∧
          startRun late s x.request = (s, false) ∨
        (version.destructive && !version.destructiveApproved) = false ∧
          ∃ s', s.createRun? x.request version .queued = some s' ∧
            startRun late s x.request = (s', !late)) := by
  have hkey : (x.request.key.bind RunKey.lookup?).bind s.byKey? =
      s.byKey? (.slot x.scheduleId x.nextRunAt) := rfl
  have hrunbook : x.request.runbookId = x.runbookId := rfl
  unfold startRun
  rw [hkey, hrunbook]
  cases hreplay : s.byKey? (.slot x.scheduleId x.nextRunAt) with
  | some replay => exact .inl ⟨replay, rfl, rfl⟩
  | none =>
      right
      cases hversion : s.versions x.runbookId with
      | none => exact .inl ⟨rfl, rfl, rfl⟩
      | some version =>
          refine .inr ⟨version, rfl, rfl, ?_⟩
          cases happroved : version.destructive && !version.destructiveApproved with
          | true => exact .inl ⟨rfl, by simp [happroved]⟩
          | false =>
              obtain ⟨s', hcreate⟩ := exists_createRun version .queued hreplay
              exact .inr ⟨rfl, s', hcreate, by simp [happroved, hcreate]⟩

/-- A tick ends with an exception exactly at the schedules that block it. -/
theorem attempt_eq_none_iff (s : SchedulerState) (x : Schedule) :
    (attempt cfg env s x).2 = none ↔ blocks cfg env s x = true := by
  unfold attempt blocks
  cases hnext : cfg.next x.cron x.timezone env.now with
  | none => simp
  | some nextAt =>
      dsimp only
      cases hreason : skipReason cfg env s x with
      | some reason => simp
      | none =>
          simp only [Option.isNone_some, Option.isNone_none, Bool.false_or, Bool.true_and,
            startFails, hnext]
          by_cases hearly : env.fault x.scheduleId = some .early
          · simp [hearly]
          · simp only [hearly, if_false, decide_false, Bool.false_or]
            rcases startRun_request (decide (env.fault x.scheduleId = some .late)) s x with
              ⟨replay, hreplay, hstart⟩ | ⟨hfree, hversion, hstart⟩ |
                ⟨version, hfree, hversion, ⟨happroved, hstart⟩ | ⟨happroved, s', _, hstart⟩⟩
            · rw [hstart, hreplay]
              simp
            · simp [hstart, hfree, hversion]
            · simp [hstart, hfree, hversion, happroved]
            · rw [hstart, hfree, hversion]
              dsimp only
              rw [happroved]
              cases decide (env.fault x.scheduleId = some .late) <;> simp

/-- An attempt adds the run of the slot, or no run. -/
theorem attempt_fst (cfg : SchedulerSettings) (env : TickEnv) (s : SchedulerState)
    (x : Schedule) :
    (attempt cfg env s x).1 = s ∨
      ∃ version status, s.createRun? x.request version status = some (attempt cfg env s x).1 := by
  unfold attempt
  cases cfg.next x.cron x.timezone env.now with
  | none => exact .inl rfl
  | some nextAt =>
      dsimp only
      cases skipReason cfg env s x with
      | some reason =>
          unfold skipRun
          cases s.versions x.runbookId with
          | none => exact .inl rfl
          | some version =>
              dsimp only
              cases hcreate : s.createRun? x.request version .skipped with
              | none => exact .inl rfl
              | some s' => exact .inr ⟨version, .skipped, hcreate⟩
      | none =>
          dsimp only
          split
          · exact .inl rfl
          · rcases startRun_request (decide (env.fault x.scheduleId = some .late)) s x with
              ⟨replay, _, hstart⟩ | ⟨_, _, hstart⟩ |
                ⟨version, _, _, ⟨_, hstart⟩ | ⟨_, s', hcreate, hstart⟩⟩
            · exact .inl (by rw [hstart])
            · exact .inl (by rw [hstart])
            · exact .inl (by rw [hstart])
            · exact .inr ⟨version, .queued, by rw [hstart]; exact hcreate⟩

@[simp]
theorem versions_attempt (cfg : SchedulerSettings) (env : TickEnv) (s : SchedulerState)
    (x : Schedule) :
    (attempt cfg env s x).1.versions = s.versions := by
  rcases attempt_fst cfg env s x with hsame | ⟨version, status, hcreate⟩
  · rw [hsame]
  · exact versions_createRun hcreate

theorem byKey?_attempt_of_ne {x : Schedule} {key : RunKey}
    (hne : key ≠ .slot x.scheduleId x.nextRunAt) :
    (attempt cfg env s x).1.byKey? key = s.byKey? key := by
  rcases attempt_fst cfg env s x with hsame | ⟨version, status, hcreate⟩
  · rw [hsame]
  · unfold SchedulerState.createRun? at hcreate
    split at hcreate
    · cases hcreate
    · have hruns := congrArg SchedulerState.runs (Option.some.inj hcreate)
      unfold SchedulerState.byKey?
      rw [← hruns, List.find?_cons_of_neg]
      simpa [Schedule.request] using Ne.symm hne

/-- A schedule that does not fail has the run of its slot after an attempt. -/
theorem byKey?_attempt_self {x : Schedule} (hfails : startFails cfg env s x = false) :
    ((attempt cfg env s x).1.byKey? (.slot x.scheduleId x.nextRunAt)).isSome := by
  unfold startFails at hfails
  simp only [Bool.or_eq_false_iff, decide_eq_false_iff_not] at hfails
  obtain ⟨⟨hnext, hearly⟩, hstart⟩ := hfails
  cases hused : (s.byKey? (.slot x.scheduleId x.nextRunAt)).isSome with
  | true =>
      rcases attempt_fst cfg env s x with hsame | ⟨version, status, hcreate⟩
      · rw [hsame, hused]
      · rw [createRun?_eq_none version status hused] at hcreate
        cases hcreate
  | false =>
      have hfree : s.byKey? (.slot x.scheduleId x.nextRunAt) = none := by simpa using hused
      rw [hfree] at hstart
      dsimp only at hstart
      cases hversion : s.versions x.runbookId with
      | none =>
          rw [hversion] at hstart
          cases hstart
      | some version =>
          rw [hversion] at hstart
          simp only [Bool.or_eq_false_iff] at hstart
          have hcreated : ∀ {s' : SchedulerState} {status : RunStatus},
              s.createRun? x.request version status = some s' →
              (s'.byKey? (.slot x.scheduleId x.nextRunAt)).isSome := by
            intro s' status hcreate
            rw [byKey?_createRun hcreate]
            simp [Schedule.request]
          unfold attempt
          cases hslot : cfg.next x.cron x.timezone env.now with
          | none =>
              rw [hslot] at hnext
              cases hnext
          | some nextAt =>
              dsimp only
              cases skipReason cfg env s x with
              | some reason =>
                  obtain ⟨s', hcreate⟩ := exists_createRun version .skipped hfree
                  simp only [skipRun, hversion, hcreate, Option.getD_some]
                  exact hcreated hcreate
              | none =>
                  obtain ⟨s', hcreate⟩ := exists_createRun version .queued hfree
                  have hkey : (x.request.key.bind RunKey.lookup?).bind s.byKey? = none := hfree
                  have hrunbook : s.versions x.request.runbookId = some version := hversion
                  simp only [if_neg hearly, startRun, hkey, hrunbook, hstart.1, hcreate]
                  exact hcreated hcreate

end Attempt

/-! ## The loop of a tick -/

section Loop

variable {cfg : SchedulerSettings} {env : TickEnv} {s : SchedulerState}

theorem handled_eq_advance {x : Schedule} (hblocks : blocks cfg env s x = false) :
    ∃ nextAt status, cfg.next x.cron x.timezone env.now = some nextAt ∧
      (attempt cfg env s x).2 = some (nextAt, status) ∧
      handled cfg env s x = advance (attempt cfg env s x).1 x nextAt status := by
  have hsome : (attempt cfg env s x).2 ≠ none := by
    rw [ne_eq, attempt_eq_none_iff, hblocks]
    simp
  obtain ⟨⟨nextAt, status⟩, hresult⟩ := Option.ne_none_iff_exists'.1 hsome
  refine ⟨nextAt, status, ?_, hresult, ?_⟩
  · exact next_of_attempt hresult
  · simp only [handled, hresult]

theorem handled_eq_attempt {x : Schedule} (hblocks : blocks cfg env s x = true) :
    handled cfg env s x = (attempt cfg env s x).1 := by
  simp only [handled, (attempt_eq_none_iff s x).2 hblocks]

theorem find?_handled_of_ne {x : Schedule} {id : String} (hne : id ≠ x.scheduleId) :
    (handled cfg env s x).schedules.find? id = s.schedules.find? id := by
  cases hblocks : blocks cfg env s x with
  | true => rw [handled_eq_attempt hblocks, schedules_attempt]
  | false =>
      obtain ⟨nextAt, status, _, _, hhandled⟩ := handled_eq_advance hblocks
      rw [hhandled, find?_advance, if_neg hne, schedules_attempt]

theorem byKey?_handled (s : SchedulerState) (x : Schedule) (key : RunKey) :
    (handled cfg env s x).byKey? key = (attempt cfg env s x).1.byKey? key := by
  unfold handled
  split <;> rfl

theorem versions_handled (s : SchedulerState) (x : Schedule) :
    (handled cfg env s x).versions = s.versions := by
  have hsame := versions_attempt cfg env s x
  unfold handled
  split
  · exact hsame
  · exact hsame

theorem startFails_handled_of_ne {x y : Schedule} (hne : y.scheduleId ≠ x.scheduleId) :
    startFails cfg env (handled cfg env s x) y = startFails cfg env s y := by
  have hkey : (handled cfg env s x).byKey? (.slot y.scheduleId y.nextRunAt) =
      s.byKey? (.slot y.scheduleId y.nextRunAt) := by
    rw [byKey?_handled]
    apply byKey?_attempt_of_ne
    intro heq
    exact hne (RunKey.slot.inj heq).1
  unfold startFails
  rw [hkey, versions_handled]

theorem Consistent.handled {x : Schedule} (h : Consistent s) (hknown : Known s x) :
    Consistent (handled cfg env s x) ∧ SameSchedules s (handled cfg env s x) := by
  have hattempt : Consistent (Automations.attempt cfg env s x).1 := h.attempt hknown.request
  have hsame : SameSchedules s (Automations.attempt cfg env s x).1 :=
    sameSchedules_attempt env s x
  unfold Automations.handled
  split
  · exact ⟨hattempt, hsame⟩
  · refine ⟨hattempt.advance x _ _, fun x' hx' => ?_⟩
    obtain ⟨y, hy, hid, hrunbook⟩ := hsame x' hx'
    obtain ⟨z, hz, hid', hrunbook'⟩ := sameSchedules_advance _ x _ _ y hy
    exact ⟨z, hz, hid'.trans hid, hrunbook'.trans hrunbook⟩

theorem tickLoop_cons (n : Nat) (s : SchedulerState) (x : Schedule) (xs : List Schedule) :
    tickLoop cfg env (n + 2) s (x :: xs) =
      if blocks cfg env s x then handled cfg env s x
      else tickLoop cfg env n (handled cfg env s x) xs := by
  cases hblocks : blocks cfg env s x with
  | true =>
      have hnone := (attempt_eq_none_iff s x).2 hblocks
      simp only [tickLoop, hnone, handled_eq_attempt hblocks, if_true]
  | false =>
      obtain ⟨nextAt, status, _, hsome, hhandled⟩ := handled_eq_advance hblocks
      simp only [tickLoop, hsome, hhandled, Bool.false_eq_true, if_false]

/-- The loop leaves the row and the runs of a schedule alone that it does not handle. -/
theorem tickLoop_frame {xs : List Schedule} {id : String} (hnot : id ∉ xs.map Schedule.scheduleId)
    (n : Nat) :
    (tickLoop cfg env n s xs).schedules.find? id = s.schedules.find? id ∧
      ∀ slot, (tickLoop cfg env n s xs).byKey? (.slot id slot) = s.byKey? (.slot id slot) := by
  have hkey : ∀ {s : SchedulerState} {x : Schedule}, id ≠ x.scheduleId → ∀ slot,
      (attempt cfg env s x).1.byKey? (.slot id slot) = s.byKey? (.slot id slot) := by
    intro s x hne slot
    apply byKey?_attempt_of_ne
    intro heq
    exact hne (RunKey.slot.inj heq).1
  induction n, s, xs using Automations.tickLoop.induct cfg env with
  | case1 s xs => exact ⟨rfl, fun _ => rfl⟩
  | case2 n s hn => simp [tickLoop]
  | case3 s x xs =>
      simp only [List.map_cons, List.mem_cons, not_or] at hnot
      exact ⟨by simp [tickLoop], hkey hnot.1⟩
  | case4 n s x xs hraises =>
      simp only [List.map_cons, List.mem_cons, not_or] at hnot
      simp only [tickLoop, hraises, schedules_attempt]
      exact ⟨trivial, hkey hnot.1⟩
  | case5 n s x xs nextAt status hstatus ih =>
      simp only [List.map_cons, List.mem_cons, not_or] at hnot
      obtain ⟨hrow, hruns⟩ := ih hnot.2
      simp only [tickLoop, hstatus]
      refine ⟨?_, fun slot => ?_⟩
      · rw [hrow, find?_advance, if_neg hnot.1, schedules_attempt]
      · rw [hruns slot]
        exact hkey hnot.1 slot

/-- The next slot of a cron expression is later. -/
def NextIsLater (cfg : SchedulerSettings) : Prop :=
  ∀ cron timezone after next, cfg.next cron timezone after = some next → after < next

theorem not_served_of_unchanged (hnext : NextIsLater cfg) {x : Schedule}
    (hdue : x.nextRunAt ≤ env.now) (hrow : s.schedules.find? x.scheduleId = some x) :
    ¬ Served cfg env s x := by
  rintro ⟨⟨nextAt, status, hslot, hadvanced⟩, _⟩
  rw [hrow, Option.some.injEq] at hadvanced
  have hsame : x.nextRunAt = nextAt := congrArg Schedule.nextRunAt hadvanced
  have hlater := hnext _ _ _ _ hslot
  rw [← hsame] at hlater
  exact absurd hdue (not_le.2 hlater)

theorem served_iff_of_unchanged (hnext : NextIsLater cfg) (s : SchedulerState)
    {s' : SchedulerState} {xs : List Schedule}
    (hrows : ∀ x ∈ xs, s'.schedules.find? x.scheduleId = some x ∧ x.nextRunAt ≤ env.now) :
    (∀ x ∈ xs, startFails cfg env s x = false → Served cfg env s' x) ↔
      ∀ x ∈ xs, startFails cfg env s x = true := by
  refine forall₂_congr fun x hx => ?_
  have hnot : ¬ Served cfg env s' x :=
    not_served_of_unchanged hnext (hrows x hx).2 (hrows x hx).1
  cases startFails cfg env s x <;> simp [hnot]

/-- A schedule that does not fail is served by its turn, and stays so. -/
theorem served_of_handled {x : Schedule} {xs : List Schedule} (hconsistent : Consistent s)
    (hrow : s.schedules.find? x.scheduleId = some x) (hknown : ∀ y ∈ x :: xs, Known s y)
    (hnot : x.scheduleId ∉ xs.map Schedule.scheduleId) (hblocks : blocks cfg env s x = false)
    (hfails : startFails cfg env s x = false) (n : Nat) :
    Served cfg env (tickLoop cfg env n (handled cfg env s x) xs) x := by
  have hhandled : Consistent (handled cfg env s x) ∧ SameSchedules s (handled cfg env s x) :=
    hconsistent.handled (hknown x List.mem_cons_self)
  have hafter : Consistent (tickLoop cfg env n (handled cfg env s x) xs) :=
    hhandled.1.tickLoop
      (fun y hy => (hknown y (List.mem_cons_of_mem x hy)).mono hhandled.2) n
  have hframe : (tickLoop cfg env n (handled cfg env s x) xs).schedules.find? x.scheduleId =
      (handled cfg env s x).schedules.find? x.scheduleId ∧
      ∀ slot, (tickLoop cfg env n (handled cfg env s x) xs).byKey? (.slot x.scheduleId slot) =
        (handled cfg env s x).byKey? (.slot x.scheduleId slot) :=
    tickLoop_frame hnot n
  obtain ⟨nextAt, status, hslot, _, hadvance⟩ := handled_eq_advance hblocks
  refine ⟨⟨nextAt, status, hslot, ?_⟩, ?_⟩
  · rw [hframe.1, hadvance, find?_advance, if_pos rfl, schedules_attempt, hrow]
    rfl
  · rw [length_slotRuns hafter, hframe.2, byKey?_handled, if_pos (byKey?_attempt_self hfails)]

/--
The loop of a tick serves all due schedules that do not fail exactly when none of them
stands behind one at which the tick ends, or behind as many as a tick reads.
-/
theorem tickLoop_serves_iff (hnext : NextIsLater cfg) {xs : List Schedule} {n m : Nat}
    (hm : 2 * n ≤ m) (hconsistent : Consistent s)
    (hids : (xs.map Schedule.scheduleId).Nodup)
    (hrows : ∀ x ∈ xs, s.schedules.find? x.scheduleId = some x ∧ x.nextRunAt ≤ env.now) :
    (∀ x ∈ xs, startFails cfg env s x = false →
        Served cfg env (tickLoop cfg env m s (xs.take n)) x) ↔
      Unblocked cfg env n s xs := by
  induction xs generalizing n m s with
  | nil => cases n <;> simp [Unblocked]
  | cons x xs ih =>
      cases n with
      | zero =>
          have hloop : tickLoop cfg env m s ((x :: xs).take 0) = s := by
            cases m <;> simp [tickLoop]
          rw [hloop]
          exact served_iff_of_unchanged hnext s hrows
      | succ n =>
          obtain ⟨m, rfl⟩ : ∃ k, m = k + 2 := ⟨m - 2, by omega⟩
          rw [List.take_succ_cons, tickLoop_cons]
          simp only [Unblocked]
          obtain ⟨hrow, hdue⟩ := hrows x List.mem_cons_self
          have hknown : ∀ y ∈ x :: xs, Known s y := fun y hy =>
            ⟨y, Table.mem_of_find? (hrows y hy).1, rfl, rfl⟩
          rw [List.map_cons, List.nodup_cons] at hids
          obtain ⟨hnot, hids⟩ := hids
          cases hblocks : blocks cfg env s x with
          | true =>
              rw [if_pos rfl, if_pos rfl]
              have hunchanged : ∀ y ∈ x :: xs,
                  (handled cfg env s x).schedules.find? y.scheduleId = some y ∧
                    y.nextRunAt ≤ env.now := by
                intro y hy
                rw [handled_eq_attempt hblocks, schedules_attempt]
                exact hrows y hy
              rw [served_iff_of_unchanged hnext s hunchanged]
              have hself : startFails cfg env s x = true := by
                unfold blocks at hblocks
                rcases Bool.or_eq_true_iff.1 hblocks with hnone | hboth
                · simp [startFails, hnone]
                · exact (Bool.and_eq_true_iff.1 hboth).2
              simp [hself]
          | false =>
              rw [if_neg (by simp), if_neg (by simp)]
              have hhandled : Consistent (handled cfg env s x) ∧
                  SameSchedules s (handled cfg env s x) :=
                hconsistent.handled (hknown x List.mem_cons_self)
              have hne : ∀ y ∈ xs, y.scheduleId ≠ x.scheduleId := by
                intro y hy heq
                exact hnot (heq ▸ List.mem_map_of_mem hy)
              have hnext' : ∀ y ∈ xs,
                  (handled cfg env s x).schedules.find? y.scheduleId = some y ∧
                    y.nextRunAt ≤ env.now := by
                intro y hy
                rw [find?_handled_of_ne (hne y hy)]
                exact hrows y (List.mem_cons_of_mem x hy)
              rw [← ih (n := n) (m := m) (by omega) hhandled.1 hids hnext', List.forall_mem_cons]
              constructor
              · rintro ⟨_, hrest⟩ y hy hfails
                rw [startFails_handled_of_ne (hne y hy)] at hfails
                exact hrest y hy hfails
              · intro hrest
                refine ⟨fun hfails => ?_, fun y hy hfails => ?_⟩
                · refine served_of_handled hconsistent hrow ?_ ?_ hblocks hfails m
                  · intro y hy
                    rcases List.mem_cons.1 hy with rfl | hy
                    · exact hknown y List.mem_cons_self
                    · exact hknown y (List.mem_cons_of_mem x (List.mem_of_mem_take hy))
                  · intro hmem
                    obtain ⟨y, hy, hid⟩ := List.mem_map.1 hmem
                    exact hne y (List.mem_of_mem_take hy) hid
                · exact hrest y hy (by rw [startFails_handled_of_ne (hne y hy)]; exact hfails)

end Loop

/-! ## Runs of the deployment -/

/-- A tick that is not cut short serves every due schedule whose start does not fail. -/
def ServesDue (cfg : SchedulerSettings) (s : SchedulerState) : SchedulerEvent → Prop
  | .tick env transactions => 2 * dueLimit ≤ transactions →
      ∀ x ∈ s.dueSchedules env.now, startFails cfg env s x = false →
        Served cfg env (schedulerTick cfg env transactions s) x
  | _ => True

/-- In a tick that is not cut short no schedule stands behind a failing one, or too many. -/
def NothingBehind (cfg : SchedulerSettings) (s : SchedulerState) : SchedulerEvent → Prop
  | .tick env transactions => 2 * dueLimit ≤ transactions →
      Unblocked cfg env dueLimit s (s.dueSchedules env.now)
  | _ => True

section Runs

variable {cfg : SchedulerSettings}

theorem nodup_dueSchedules (s : SchedulerState) (now : Instant) :
    ((s.dueSchedules now).map Schedule.scheduleId).Nodup := by
  have hsorted := List.perm_insertionSort (fun x y : Schedule => x.nextRunAt ≤ y.nextRunAt)
    (s.schedules.rows.filter fun x => x.enabled && decide (x.nextRunAt ≤ now))
  refine (hsorted.map Schedule.scheduleId).nodup_iff.2 ?_
  exact s.schedules.pkNodup.sublist ((List.filter_sublist).map Schedule.scheduleId)

theorem servesDue_iff (hnext : NextIsLater cfg) {s : SchedulerState} (h : Consistent s)
    (ev : SchedulerEvent) :
    ServesDue cfg s ev ↔ NothingBehind cfg s ev := by
  cases ev with
  | tick env transactions =>
      refine forall_congr' fun hcomplete => ?_
      refine tickLoop_serves_iff hnext hcomplete h (nodup_dueSchedules s env.now) ?_
      intro x hx
      obtain ⟨hmem, _, hdue⟩ := mem_dueSchedules.1 hx
      exact ⟨Table.find?_of_mem hmem, hdue⟩
  | start | publish | setStatus | create | edit => exact Iff.rfl

end Runs

/-- Every schedule runs once a minute. -/
def minuteSettings : SchedulerSettings where
  pollSeconds := 30
  next := fun _ _ after => some (after + 60)

theorem minuteSettings_nextIsLater :
    NextIsLater minuteSettings := by
  intro cron timezone after next hnext
  rw [← Option.some.inj hnext]
  exact Int.lt_add_of_pos_right after (by decide)

/-- Two schedules are due at once, and the start of the first one raises. -/
def firstRaises : TickEnv where
  now := 60
  ready := fun _ => true
  fault := fun scheduleId => if scheduleId = "a" then some .early else none

/-- Two runbooks are published and scheduled. -/
def twoSchedules : List SchedulerEvent :=
  [.publish "r1" { version := 1 }, .publish "r2" { version := 1 },
    .create "a" "r1" "* * * * *" "UTC" true 0, .create "b" "r2" "* * * * *" "UTC" true 0]

end Automations
end MpvmApp
