import MpvmApp.Lib.Runs

/-!
# Recovery of the startup steps

The startup steps of the process run one after the other once the database answers.  Threads call
`configure` and `check` at any time, a tick of the monitor is one more call of
`check`; one lock lets a single thread write, and a check that finds it taken answers with the
last stored result.

Every statement of `DatabaseRecovery` that another thread can come between is one step of the
system, and every step writes down what it has done.  The record of a run is read back by a
summary, which knows nothing of the threads and of the lock.

Main definitions:

- Definition `step`: one call or one statement of a thread.
- Definition `Summary.Allowed`: what may be recorded next, given what has been recorded.

Main results:

- Theorem `Inv.step`: every step keeps the stored state in agreement with its record.
- Theorem `recovery_sound`: every entry of the record of a run was allowed when it was made.
-/

namespace MpvmApp
namespace Services
namespace Recovery

/-! ## Data model -/

/-- The answer of `check`. -/
structure Answer where
  ready : Bool := false
  databaseReady : Bool := false
  schemaCurrent : Bool := false
  recoveryComplete : Bool := false
  reason : Option String := none
deriving DecidableEq

/-- The answer of a check that finds another one running and no finished result. -/
def inProgress : Answer where
  reason := some "recovery_in_progress"

/-- A thread, by its number. -/
abbrev Thread := Nat

/-- What a probe or a step that is called does: the name of its error, or what it returns. -/
abbrev Outcome := Except String Bool

/-- The statement at which a thread stands. -/
inductive Phase where
  | idle
  | toConfigure (steps : List String)
  | setSteps (steps : List String)
  | setConfigured (steps : List String)
  | clearCompleted (steps : List String)
  | clearLast (steps : List String)
  | toCheck
  | refused
  | probing
  | looping (result : Answer) (rest : List String)
  | running (result : Answer) (name : String) (rest : List String)
  | reprobing (result : Answer)
  | storing (result : Answer)
  | answering
  | releasing
deriving DecidableEq

/-- What is recorded of a run. -/
inductive Entry where
  | configured (steps : List String)
  | began (thread : Thread)
  | probed (outcome : Outcome)
  | started (name : String)
  | completed (name : String)
  | failed (name : String)
  | finished (answer : Answer)
  | answered (thread : Thread) (answer : Answer)

/-- The configured steps and those that have completed.  A step is known by its name. -/
structure Checkpoints where
  steps : List String := []
  isConfigured : Bool := false
  completed : List String := []

/-- The state of `DatabaseRecovery` with the threads that use it, and what is recorded. -/
structure DatabaseRecovery extends Checkpoints where
  last : Option Answer := none
  lock : Option Thread := none
  phase : Thread → Phase := fun _ => .idle
  trail : List Entry := []

/-- `DatabaseRecovery.__init__`, with or without steps. -/
def initial : Option (List String) → DatabaseRecovery
  | none => {}
  | some steps => { steps := steps, isConfigured := true, trail := [.configured steps] }

/-- A call of a thread that has nothing to do, or the next statement of a thread. -/
inductive Event where
  | configure (thread : Thread) (steps : List String)
  | check (thread : Thread)
  | advance (thread : Thread) (outcome : Outcome)

/-! ## The statements -/

namespace DatabaseRecovery

/-- The thread stands at another statement. -/
def moveTo (s : DatabaseRecovery) (t : Thread) (phase : Phase) : DatabaseRecovery :=
  { s with phase := Function.update s.phase t phase }

/-- One more entry in the record. -/
def note (s : DatabaseRecovery) (e : Entry) : DatabaseRecovery :=
  { s with trail := s.trail ++ [e] }

/-- The first probe of `_run`. -/
def probe (s : DatabaseRecovery) (t : Thread) : Outcome → DatabaseRecovery
  | .error reason => (s.note (.probed (.error reason))).moveTo t (.storing { reason := some reason })
  | .ok current =>
      let result : Answer := { schemaCurrent := current, databaseReady := true }
      if s.isConfigured then (s.note (.probed (.ok current))).moveTo t (.looping result s.steps)
      else
        (s.note (.probed (.ok current))).moveTo t
          (.storing { result with reason := some "startup_pending" })

/-- The head of the loop of `_run`. -/
def loop (s : DatabaseRecovery) (t : Thread) (result : Answer) : List String → DatabaseRecovery
  | [] =>
      s.moveTo t (.reprobing
        { result with recoveryComplete := true, databaseReady := false, schemaCurrent := false })
  | name :: rest =>
      if name ∈ s.completed then s.moveTo t (.looping result rest)
      else (s.note (.started name)).moveTo t (.running result name rest)

/-- The end of a step of `_run`. -/
def finishStep (s : DatabaseRecovery) (t : Thread) (result : Answer) (name : String)
    (rest : List String) : Outcome → DatabaseRecovery
  | .ok _ =>
      ({ s with completed := name :: s.completed }.note (.completed name)).moveTo t
        (.looping result rest)
  | .error reason =>
      (s.note (.failed name)).moveTo t
        (.storing { result with ready := false, reason := some reason })

/-- The second probe of `_run`. -/
def reprobe (s : DatabaseRecovery) (t : Thread) (result : Answer) : Outcome → DatabaseRecovery
  | .error reason =>
      (s.note (.probed (.error reason))).moveTo t
        (.storing { result with ready := false, reason := some reason })
  | .ok current =>
      (s.note (.probed (.ok current))).moveTo t
        (.storing
          { result with
            schemaCurrent := current
            databaseReady := true
            ready := current
            reason := if current then result.reason else some "schema_mismatch" })

/--
The next statement of a thread in `configure` or in `check`.  The first waits for the
lock, the second does not.
-/
def advance (s : DatabaseRecovery) (t : Thread) (outcome : Outcome) : Phase → DatabaseRecovery
  | .idle => s
  | .toConfigure steps =>
      if s.lock = none then { s with lock := some t }.moveTo t (.setSteps steps) else s
  | .setSteps steps => { s with steps := steps }.moveTo t (.setConfigured steps)
  | .setConfigured steps => { s with isConfigured := true }.moveTo t (.clearCompleted steps)
  | .clearCompleted steps => { s with completed := [] }.moveTo t (.clearLast steps)
  | .clearLast steps => ({ s with last := none }.note (.configured steps)).moveTo t .releasing
  | .toCheck =>
      if s.lock = none then ({ s with lock := some t }.note (.began t)).moveTo t .probing
      else s.moveTo t .refused
  | .refused => (s.note (.answered t (s.last.getD inProgress))).moveTo t .idle
  | .probing => s.probe t outcome
  | .looping result rest => s.loop t result rest
  | .running result name rest => s.finishStep t result name rest outcome
  | .reprobing result => s.reprobe t result outcome
  | .storing result => ({ s with last := some result }.note (.finished result)).moveTo t .answering
  | .answering => (s.note (.answered t (s.last.getD inProgress))).moveTo t .releasing
  | .releasing => { s with lock := none }.moveTo t .idle

end DatabaseRecovery

/-- One call or one statement of a thread. -/
def step (s : DatabaseRecovery) : Event → DatabaseRecovery
  | .configure t steps => if s.phase t = .idle then s.moveTo t (.toConfigure steps) else s
  | .check t => if s.phase t = .idle then s.moveTo t .toCheck else s
  | .advance t outcome => s.advance t outcome (s.phase t)

/-! ## What the record says -/

/--
What a record says, read from its first entry on.  A configuration is in force from the last
write of its `configure` to the last write of the next one.
-/
structure Summary where
  configuration : Option (List String) := none
  /-- The steps that have completed under the configuration. -/
  completed : List String := []
  /-- The step that has started and not ended. -/
  running : Option String := none
  /-- The step that has failed in the run of the last thread that began one. -/
  failed : Option String := none
  /-- The probes of that run. -/
  probes : List Outcome := []
  /-- The last finished run under the configuration: its answer and its probes. -/
  last : Option (Answer × List Outcome) := none

namespace Summary

/-- The record goes on. -/
def note (m : Summary) : Entry → Summary
  | .configured steps => { configuration := some steps }
  | .began _ => { m with failed := none, probes := [] }
  | .probed outcome => { m with probes := m.probes ++ [outcome] }
  | .started name => { m with running := some name }
  | .completed name => { m with running := none, completed := name :: m.completed }
  | .failed name => { m with running := none, failed := some name }
  | .finished answer => { m with last := some (answer, m.probes) }
  | .answered _ _ => m

/-- The summary of a record. -/
def ofTrail (trail : List Entry) : Summary :=
  Runs.run note {} trail

/-- All steps of the configuration have completed. -/
def AllCompleted (m : Summary) : Prop :=
  ∃ steps, m.configuration = some steps ∧ ∀ name ∈ steps, name ∈ m.completed

/-- The step is the first of the configuration that has not completed. -/
def FirstOpen (m : Summary) (name : String) : Prop :=
  name ∉ m.completed ∧ ∃ before after, m.configuration = some (before ++ name :: after) ∧
    ∀ other ∈ before, other ∈ m.completed

/--
Both probes have reached the database, and the second has found the schema current.  The first one
stands before the migrations, where an older schema is no failure.
-/
def Succeeded (probes : List Outcome) : Prop :=
  ∃ current, probes = [.ok current, .ok true]

/-- The run got as far as it could: to the end of the steps, or to the first one open, which failed. -/
def Resumed (m : Summary) : Prop :=
  m.AllCompleted ∨ ∃ name, m.failed = some name ∧ m.FirstOpen name

/-- What may be recorded next. -/
def Allowed (m : Summary) : Entry → Prop
  | .configured _ => m.running = none
  | .began _ => m.running = none
  | .probed _ => m.running = none
  | .started name => m.running = none ∧ m.FirstOpen name
  | .completed name => m.running = some name ∧ m.FirstOpen name
  | .failed name => m.running = some name ∧ m.FirstOpen name
  | .finished answer =>
      m.running = none ∧
        (answer.ready = true → m.AllCompleted ∧ Succeeded m.probes) ∧
        (∀ current, m.probes.head? = some (.ok current) → m.configuration ≠ none → m.Resumed)
  | .answered _ answer =>
      answer.ready = true →
        m.AllCompleted ∧ ∃ probes, m.last = some (answer, probes) ∧ Succeeded probes

section Reading

variable {m : Summary}

@[simp]
theorem ofTrail_append (trail : List Entry) (e : Entry) :
    ofTrail (trail ++ [e]) = (ofTrail trail).note e := by
  simp [ofTrail]

theorem along_append_entry (trail : List Entry) (e : Entry) :
    Runs.Along note Allowed {} (trail ++ [e]) ↔
      Runs.Along note Allowed {} trail ∧ (ofTrail trail).Allowed e := by
  rw [Runs.along_append]
  simp [ofTrail]

theorem AllCompleted.note_completed (h : m.AllCompleted) (name : String) :
    (m.note (.completed name)).AllCompleted := by
  obtain ⟨steps, hsteps, hall⟩ := h
  exact ⟨steps, hsteps, fun other hother => List.mem_cons_of_mem _ (hall other hother)⟩

/-- A finished run that is remembered as ready has completed all steps and both its probes. -/
def LastSound (m : Summary) : Prop :=
  ∀ answer probes, m.last = some (answer, probes) → answer.ready = true →
    m.AllCompleted ∧ Succeeded probes

theorem LastSound.note (h : m.LastSound) {e : Entry} (he : m.Allowed e) :
    (m.note e).LastSound := by
  intro answer probes hlast hready
  cases e with
  | configured steps => cases hlast
  | finished finished =>
      cases hlast
      exact he.2.1 hready
  | completed name =>
      obtain ⟨hall, hprobes⟩ := h answer probes hlast hready
      exact ⟨hall.note_completed name, hprobes⟩
  | began | probed | started | failed | answered => exact h answer probes hlast hready

theorem lastSound_ofTrail {trail : List Entry} (h : Runs.Along note Allowed {} trail) :
    (ofTrail trail).LastSound := by
  have hstep : ∀ m e, LastSound m → m.Allowed e → (m.note e).LastSound :=
    fun _ _ hsound hallowed => hsound.note hallowed
  have hempty : LastSound {} := fun _ _ hlast => nomatch hlast
  exact h.invariant hstep hempty

end Reading

end Summary

/-! ## The invariant -/

/-- The thread holds the lock. -/
def Phase.holds : Phase → Bool
  | .idle | .toConfigure _ | .toCheck | .refused => false
  | _ => true

/-- The statement is a step that has been called and has not returned. -/
def Phase.runsStep : Phase → Bool
  | .running _ _ _ => true
  | _ => false

theorem Phase.holds_of_runsStep {phase : Phase} (h : phase.runsStep = true) :
    phase.holds = true := by
  cases phase <;> first | rfl | cases h

namespace DatabaseRecovery

/-- The summary of what has been recorded. -/
def summary (s : DatabaseRecovery) : Summary :=
  .ofTrail s.trail

@[simp]
theorem lock_moveTo (s : DatabaseRecovery) (t : Thread) (phase : Phase) :
    (s.moveTo t phase).lock = s.lock :=
  rfl

@[simp]
theorem phase_moveTo_self (s : DatabaseRecovery) (t : Thread) (phase : Phase) :
    (s.moveTo t phase).phase t = phase := by
  simp [moveTo]

@[simp]
theorem phase_moveTo_of_ne {t u : Thread} (hu : u ≠ t) (s : DatabaseRecovery) (phase : Phase) :
    (s.moveTo t phase).phase u = s.phase u := by
  simp [moveTo, hu]

@[simp]
theorem summary_note (s : DatabaseRecovery) (e : Entry) :
    (s.note e).summary = s.summary.note e :=
  Summary.ofTrail_append s.trail e

end DatabaseRecovery

section Agreement

variable (c : Checkpoints) (m : Summary)

/-- The stored steps and checkpoints are those of the record. -/
structure Agrees : Prop where
  configuration : m.configuration = if c.isConfigured then some c.steps else none
  completed : m.completed = c.completed

/-- The run in progress has reached the database, and stands before these steps. -/
structure Passed (rest : List String) : Prop where
  configured : c.isConfigured = true
  probed : ∃ current, m.probes = [.ok current]
  steps : ∃ done, c.steps = done ++ rest ∧ ∀ name ∈ done, name ∈ c.completed

/-- What holds while the thread with the lock stands at a statement. -/
def Within : Phase → Prop
  | .setSteps _ => m.running = none
  | .setConfigured steps => m.running = none ∧ c.steps = steps
  | .clearCompleted steps => m.running = none ∧ c.steps = steps ∧ c.isConfigured = true
  | .clearLast steps =>
      m.running = none ∧ c.steps = steps ∧ c.isConfigured = true ∧ c.completed = []
  | .probing => Agrees c m ∧ m.running = none ∧ m.probes = []
  | .looping _ rest => Agrees c m ∧ m.running = none ∧ Passed c m rest
  | .running _ name rest =>
      Agrees c m ∧ m.running = some name ∧ Passed c m (name :: rest) ∧ name ∉ c.completed
  | .reprobing _ => Agrees c m ∧ m.running = none ∧ Passed c m []
  | .storing answer => Agrees c m ∧ m.Allowed (.finished answer)
  | _ => Agrees c m ∧ m.running = none

variable {c : Checkpoints} {m : Summary} {name : String} {rest : List String}

theorem Agrees.allCompleted (h : Agrees c m) (hpassed : Passed c m []) : m.AllCompleted := by
  obtain ⟨done, hsteps, hdone⟩ := hpassed.steps
  rw [List.append_nil] at hsteps
  refine ⟨c.steps, ?_, fun name hname => ?_⟩
  · rw [h.configuration, if_pos hpassed.configured]
  · rw [h.completed]
    exact hdone name (hsteps ▸ hname)

theorem Agrees.firstOpen (h : Agrees c m) (hpassed : Passed c m (name :: rest))
    (hname : name ∉ c.completed) : m.FirstOpen name := by
  obtain ⟨done, hsteps, hdone⟩ := hpassed.steps
  refine ⟨?_, done, rest, ?_, ?_⟩
  · rw [h.completed]
    exact hname
  · rw [h.configuration, if_pos hpassed.configured, hsteps]
  · rw [h.completed]
    exact hdone

theorem Passed.next (h : Passed c m (name :: rest)) (hname : name ∈ c.completed) :
    Passed c m rest where
  configured := h.configured
  probed := h.probed
  steps := by
    obtain ⟨done, hsteps, hdone⟩ := h.steps
    refine ⟨done ++ [name], by simp [hsteps], fun other hother => ?_⟩
    rcases List.mem_append.1 hother with hother | hother
    · exact hdone other hother
    · rw [List.mem_singleton.1 hother]
      exact hname

end Agreement

namespace DatabaseRecovery

/-- What every step of the system keeps. -/
structure Inv (s : DatabaseRecovery) : Prop where
  lock : ∀ t, s.lock = some t ↔ (s.phase t).holds = true
  last : s.last = s.summary.last.map Prod.fst
  held : ∀ t, s.lock = some t → Within s.toCheckpoints s.summary (s.phase t)
  free : s.lock = none → Agrees s.toCheckpoints s.summary ∧ s.summary.running = none
  lawful : Runs.Along Summary.note Summary.Allowed {} s.trail

variable {s : DatabaseRecovery} {t : Thread} {phase : Phase}

theorem inv_initial (steps : Option (List String)) : Inv (initial steps) := by
  cases steps with
  | none =>
      refine ⟨fun t => ?_, rfl, nofun, fun _ => ⟨⟨rfl, rfl⟩, rfl⟩, trivial⟩
      simp [initial, Phase.holds]
  | some steps =>
      refine ⟨fun t => ?_, rfl, nofun, fun _ => ⟨⟨rfl, rfl⟩, rfl⟩, rfl, trivial⟩
      simp [initial, Phase.holds]

/-- A thread without the lock goes on to a statement before it has the lock. -/
theorem Inv.wait (h : Inv s) (hbefore : (s.phase t).holds = false)
    (hafter : phase.holds = false) :
    Inv (s.moveTo t phase) where
  lock u := by
    by_cases hu : u = t
    · subst hu
      rw [phase_moveTo_self, hafter, ← hbefore]
      exact h.lock u
    · rw [phase_moveTo_of_ne hu]
      exact h.lock u
  last := h.last
  held u hu := by
    have hother : u ≠ t := by
      rintro rfl
      rw [(h.lock u).1 hu] at hbefore
      cases hbefore
    rw [phase_moveTo_of_ne hother]
    exact h.held u hu
  free := h.free
  lawful := h.lawful

/-- An answer is recorded, and nothing else changes. -/
theorem Inv.answer (h : Inv s) (t : Thread) :
    Inv (s.note (.answered t (s.last.getD inProgress))) where
  lock := h.lock
  last := by
    rw [summary_note]
    exact h.last
  held := by
    rw [summary_note]
    exact h.held
  free := by
    rw [summary_note]
    exact h.free
  lawful := by
    refine (Summary.along_append_entry _ _).2 ⟨h.lawful, fun hready => ?_⟩
    have hlast := h.last
    cases hremembered : s.summary.last with
    | none =>
        rw [hlast, hremembered] at hready
        cases hready
    | some finished =>
        rw [hlast, hremembered] at hready ⊢
        obtain ⟨hall, hprobes⟩ :=
          Summary.lastSound_ofTrail h.lawful finished.1 finished.2 hremembered hready
        exact ⟨hall, finished.2, hremembered, hprobes⟩

/-- The thread that has the lock, or takes it, goes on to a statement with the lock. -/
theorem Inv.proceed (h : Inv s) (hmine : s.lock = none ∨ s.lock = some t)
    {s' : DatabaseRecovery} (hphases : s'.phase = s.phase) (hlock : s'.lock = some t)
    (hholds : phase.holds = true) (hlast : s'.last = s'.summary.last.map Prod.fst)
    (hwithin : Within s'.toCheckpoints s'.summary phase)
    (hlawful : Runs.Along Summary.note Summary.Allowed {} s'.trail) :
    Inv (s'.moveTo t phase) where
  lock u := by
    by_cases hu : u = t
    · subst hu
      rw [phase_moveTo_self, hholds]
      simp [hlock]
    · have hfree : s.lock ≠ some u := by
        rcases hmine with hmine | hmine <;> rw [hmine]
        · nofun
        · exact fun heq => hu (Option.some.inj heq).symm
      rw [phase_moveTo_of_ne hu, hphases, ← h.lock u, lock_moveTo, hlock]
      simp [hfree, Ne.symm hu]
  last := hlast
  held u hu := by
    obtain rfl : t = u := Option.some.inj (hlock.symm.trans hu)
    rw [phase_moveTo_self]
    exact hwithin
  free hfree := by
    rw [lock_moveTo, hlock] at hfree
    cases hfree
  lawful := hlawful

theorem Inv.mine (h : Inv s) (hphase : s.phase t = phase) (hholds : phase.holds = true) :
    s.lock = some t ∧ Within s.toCheckpoints s.summary phase := by
  subst hphase
  have hlock : s.lock = some t := (h.lock t).2 hholds
  exact ⟨hlock, h.held t hlock⟩

/-- The first probe keeps the invariant. -/
theorem Inv.probe (h : Inv s) (hphase : s.phase t = .probing) (outcome : Outcome) :
    Inv (s.probe t outcome) := by
  obtain ⟨hlock, hagrees, hrunning, hprobes⟩ := h.mine hphase rfl
  have hlawful : ∀ o, Runs.Along Summary.note Summary.Allowed {} (s.note (.probed o)).trail :=
    fun o => (Summary.along_append_entry _ _).2 ⟨h.lawful, hrunning⟩
  have hprobed : ∀ o, (s.summary.note (.probed o)).probes = [o] := by
    intro o
    simp [Summary.note, hprobes]
  cases outcome with
  | error reason =>
      refine h.proceed (.inr hlock) rfl hlock rfl ?_ ?_ (hlawful _)
      · rw [summary_note]
        exact h.last
      · rw [summary_note]
        refine ⟨⟨hagrees.configuration, hagrees.completed⟩, hrunning, nofun, ?_⟩
        intro current hhead
        rw [hprobed] at hhead
        cases hhead
  | ok current =>
      unfold DatabaseRecovery.probe
      dsimp only
      split_ifs with hconfigured
      · refine h.proceed (.inr hlock) rfl hlock rfl ?_ ?_ (hlawful _)
        · rw [summary_note]
          exact h.last
        · rw [summary_note]
          refine ⟨⟨hagrees.configuration, hagrees.completed⟩, hrunning, hconfigured,
            ⟨current, hprobed _⟩, [], rfl, nofun⟩
      · refine h.proceed (.inr hlock) rfl hlock rfl ?_ ?_ (hlawful _)
        · rw [summary_note]
          exact h.last
        · rw [summary_note]
          refine ⟨⟨hagrees.configuration, hagrees.completed⟩, hrunning, nofun, ?_⟩
          intro _ _ hsome
          exact absurd (hagrees.configuration.trans (if_neg hconfigured)) hsome

theorem Inv.loop (h : Inv s) {result : Answer} {rest : List String}
    (hphase : s.phase t = .looping result rest) : Inv (s.loop t result rest) := by
  obtain ⟨hlock, hagrees, hrunning, hpassed⟩ := h.mine hphase rfl
  cases rest with
  | nil => exact h.proceed (.inr hlock) rfl hlock rfl h.last ⟨hagrees, hrunning, hpassed⟩ h.lawful
  | cons name rest =>
      unfold DatabaseRecovery.loop
      dsimp only
      split_ifs with hname
      · exact h.proceed (.inr hlock) rfl hlock rfl h.last
          ⟨hagrees, hrunning, hpassed.next hname⟩ h.lawful
      · refine h.proceed (.inr hlock) rfl hlock rfl ?_ ?_
          ((Summary.along_append_entry _ _).2 ⟨h.lawful, hrunning, hagrees.firstOpen hpassed hname⟩)
        · rw [summary_note]
          exact h.last
        · rw [summary_note]
          exact ⟨⟨hagrees.configuration, hagrees.completed⟩, rfl,
            ⟨hpassed.configured, hpassed.probed, hpassed.steps⟩, hname⟩

/-- The end of a step keeps the invariant. -/
theorem Inv.finishStep (h : Inv s) {result : Answer} {name : String} {rest : List String}
    (hphase : s.phase t = .running result name rest) (outcome : Outcome) :
    Inv (s.finishStep t result name rest outcome) := by
  obtain ⟨hlock, hagrees, hrunning, hpassed, hname⟩ := h.mine hphase rfl
  have hopen := hagrees.firstOpen hpassed hname
  cases outcome with
  | error reason =>
      refine h.proceed (.inr hlock) rfl hlock rfl ?_ ?_
        ((Summary.along_append_entry _ _).2 ⟨h.lawful, hrunning, hopen⟩)
      · rw [summary_note]
        exact h.last
      · rw [summary_note]
        exact ⟨⟨hagrees.configuration, hagrees.completed⟩, rfl, nofun,
          fun _ _ _ => .inr ⟨name, rfl, hopen⟩⟩
  | ok =>
      refine h.proceed (.inr hlock) rfl hlock rfl ?_ ?_
        ((Summary.along_append_entry _ _).2 ⟨h.lawful, hrunning, hopen⟩)
      · rw [summary_note]
        exact h.last
      · rw [summary_note]
        refine ⟨⟨hagrees.configuration, congrArg (name :: ·) hagrees.completed⟩, rfl, ?_⟩
        obtain ⟨done, hsteps, hdone⟩ := hpassed.steps
        have hpassed' : Passed { s.toCheckpoints with completed := name :: s.completed }
            (s.summary.note (.completed name)) (name :: rest) :=
          ⟨hpassed.configured, hpassed.probed, done, hsteps,
            fun other hother => List.mem_cons_of_mem _ (hdone other hother)⟩
        exact hpassed'.next List.mem_cons_self

/-- The second probe keeps the invariant. -/
theorem Inv.reprobe (h : Inv s) {result : Answer} (hphase : s.phase t = .reprobing result)
    (outcome : Outcome) : Inv (s.reprobe t result outcome) := by
  obtain ⟨hlock, hagrees, hrunning, hpassed⟩ := h.mine hphase rfl
  have hall := hagrees.allCompleted hpassed
  obtain ⟨first, hprobes⟩ := hpassed.probed
  cases outcome with
  | error reason =>
      refine h.proceed (.inr hlock) rfl hlock rfl ?_ ?_
        ((Summary.along_append_entry _ _).2 ⟨h.lawful, hrunning⟩)
      · rw [summary_note]
        exact h.last
      · rw [summary_note]
        exact ⟨⟨hagrees.configuration, hagrees.completed⟩, hrunning, nofun,
          fun _ _ _ => .inl hall⟩
  | ok current =>
      refine h.proceed (.inr hlock) rfl hlock rfl ?_ ?_
        ((Summary.along_append_entry _ _).2 ⟨h.lawful, hrunning⟩)
      · rw [summary_note]
        exact h.last
      · rw [summary_note]
        refine ⟨⟨hagrees.configuration, hagrees.completed⟩, hrunning, fun hready => ⟨hall, first, ?_⟩,
          fun _ _ _ => .inl hall⟩
        dsimp only at hready
        subst hready
        simp [Summary.note, hprobes]

/-- Every statement keeps the invariant. -/
theorem Inv.advance (h : Inv s) (t : Thread) (outcome : Outcome) :
    Inv (s.advance t outcome (s.phase t)) := by
  cases hphase : s.phase t with
  | idle => exact h
  | toConfigure steps =>
      unfold DatabaseRecovery.advance
      dsimp only
      split_ifs with hfree
      · obtain ⟨_, hrunning⟩ := h.free hfree
        exact h.proceed (.inl hfree) rfl rfl rfl h.last hrunning h.lawful
      · exact h
  | setSteps steps =>
      obtain ⟨hlock, hrunning⟩ := h.mine hphase rfl
      exact h.proceed (.inr hlock) rfl hlock rfl h.last ⟨hrunning, rfl⟩ h.lawful
  | setConfigured steps =>
      obtain ⟨hlock, hrunning, hsteps⟩ := h.mine hphase rfl
      exact h.proceed (.inr hlock) rfl hlock rfl h.last ⟨hrunning, hsteps, rfl⟩ h.lawful
  | clearCompleted steps =>
      obtain ⟨hlock, hrunning, hsteps, hconfigured⟩ := h.mine hphase rfl
      exact h.proceed (.inr hlock) rfl hlock rfl h.last ⟨hrunning, hsteps, hconfigured, rfl⟩
        h.lawful
  | clearLast steps =>
      obtain ⟨hlock, hrunning, hsteps, hconfigured, hcompleted⟩ := h.mine hphase rfl
      refine h.proceed (.inr hlock) rfl hlock rfl ?_ ?_
        ((Summary.along_append_entry _ _).2 ⟨h.lawful, hrunning⟩)
      · rw [summary_note]
        rfl
      · rw [summary_note]
        refine ⟨⟨?_, hcompleted.symm⟩, rfl⟩
        exact (congrArg some hsteps.symm).trans (if_pos hconfigured).symm
  | toCheck =>
      unfold DatabaseRecovery.advance
      dsimp only
      split_ifs with hfree
      · obtain ⟨hagrees, hrunning⟩ := h.free hfree
        refine h.proceed (.inl hfree) rfl rfl rfl ?_ ?_
          ((Summary.along_append_entry _ _).2 ⟨h.lawful, hrunning⟩)
        · rw [summary_note]
          exact h.last
        · rw [summary_note]
          exact ⟨⟨hagrees.configuration, hagrees.completed⟩, hrunning, rfl⟩
      · exact h.wait (by rw [hphase]; rfl) rfl
  | refused =>
      refine (h.answer t).wait ?_ rfl
      exact (congrArg Phase.holds hphase).trans rfl
  | probing => exact h.probe hphase outcome
  | looping result rest => exact h.loop hphase
  | running result name rest => exact h.finishStep hphase outcome
  | reprobing result => exact h.reprobe hphase outcome
  | storing result =>
      obtain ⟨hlock, hagrees, hallowed⟩ := h.mine hphase rfl
      refine h.proceed (.inr hlock) rfl hlock rfl ?_ ?_
        ((Summary.along_append_entry _ _).2 ⟨h.lawful, hallowed⟩)
      · rw [summary_note]
        rfl
      · rw [summary_note]
        exact ⟨⟨hagrees.configuration, hagrees.completed⟩, hallowed.1⟩
  | answering =>
      obtain ⟨hlock, hsettled⟩ := h.mine hphase rfl
      have hanswer := h.answer t
      exact hanswer.proceed (.inr hlock) rfl hlock rfl hanswer.last
        (by rw [summary_note]; exact hsettled) hanswer.lawful
  | releasing =>
      obtain ⟨hlock, hsettled⟩ := h.mine hphase rfl
      refine ⟨fun u => ?_, h.last, nofun, fun _ => hsettled, h.lawful⟩
      by_cases hu : u = t
      · subst hu
        simp [DatabaseRecovery.advance, moveTo, Phase.holds]
      · have hother : (s.phase u).holds = false := by
          rw [Bool.eq_false_iff, ne_eq, ← h.lock, hlock]
          simp [Ne.symm hu]
        simp [DatabaseRecovery.advance, moveTo, hu, hother]

end DatabaseRecovery

theorem DatabaseRecovery.Inv.step {s : DatabaseRecovery} (h : s.Inv) (e : Event) :
    (step s e).Inv := by
  cases e with
  | configure t steps =>
      unfold Recovery.step
      dsimp only
      split_ifs with hidle
      · exact h.wait (by rw [hidle]; rfl) rfl
      · exact h
  | check t =>
      unfold Recovery.step
      dsimp only
      split_ifs with hidle
      · exact h.wait (by rw [hidle]; rfl) rfl
      · exact h
  | advance t outcome => exact h.advance t outcome

theorem inv_run (steps : Option (List String)) (es : List Event) :
    (Runs.run step (initial steps) es).Inv := by
  have hstep : ∀ s e, s.Inv → True → (step s e).Inv := fun _ e h _ => h.step e
  exact (Runs.along_of_forall (fun _ _ => trivial) _ es).invariant hstep
    (DatabaseRecovery.inv_initial steps)

/-! ## Sound recovery -/

/--
In every interleaving of configurations and checks, with every outcome of the probes and of the
steps: whatever is recorded was allowed by the record before it, and no two threads are in a step.
-/
theorem recovery_sound (steps : Option (List String)) (es : List Event) :
    Runs.Along Summary.note Summary.Allowed {} (Runs.run step (initial steps) es).trail ∧
      ∀ t u, ((Runs.run step (initial steps) es).phase t).runsStep = true →
        ((Runs.run step (initial steps) es).phase u).runsStep = true → t = u := by
  have h := inv_run steps es
  refine ⟨h.lawful, fun t u ht hu => ?_⟩
  have htlock := (h.lock t).2 (Phase.holds_of_runsStep ht)
  have hulock := (h.lock u).2 (Phase.holds_of_runsStep hu)
  exact Option.some.inj (htlock.symm.trans hulock)

/-- The events of a check of the first thread, whose calls do this. -/
def checkOf (outcomes : List Outcome) : List Event :=
  .check 0 :: outcomes.map (.advance 0)

/-- An outage between two steps: the second check goes on with the step that was left open. -/
example :
    (Runs.run step (initial (some ["rbac", "scheduler"]))
      (checkOf [.ok true, .ok true, .ok true, .ok true, .ok true, .error "OperationalError",
        .ok true, .ok true, .ok true] ++
      checkOf (List.replicate 12 (.ok true)))).trail.filterMap (fun
        | .started name => some name
        | .answered _ answer => some (toString answer.ready)
        | _ => none) =
      ["rbac", "scheduler", "false", "scheduler", "true"] := by
  decide +kernel

end Recovery
end Services
end MpvmApp
