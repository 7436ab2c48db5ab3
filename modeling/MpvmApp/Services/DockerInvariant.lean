import MpvmApp.Services.DockerSystem

/-!
# Finished runs are left alone

The cleanup of a run reads its row once, and waits out the retention before it removes the group
without another look.  As long as no worker claims a run whose scan is being started, a run is
either active, and its cleanup has not gone past the row, or finished, and what the cleanup relies
on stays.

Main definitions:

- `Follows`: what a cleanup has read still holds of the stored group.
- `RunInv`: the invariant of a run.

Main results:

- Theorem `RunInv.launchStep`: a start request keeps it.
- Theorem `RunInv.workStep`: a coordinator keeps it.
- Theorem `RunInv.cleanStep`: a cleanup keeps it.
- Theorem `RunInv.advance`: every orderly action keeps it.
-/

namespace MpvmApp
namespace Services
namespace DockerGroups

/-! ## The invariant of a run -/

/-- The phases of a start request before the start of the scan can have failed. -/
def LaunchPhase.untried : LaunchPhase → Bool
  | .startFailing | .failing | .scheduling _ | .finishing => false
  | _ => true

/-- What holds of a run whether it is active or not. -/
structure Facts (x : Run) : Prop where
  alone : ∀ p, x.launch = some p → p.isEarly = true → x.worker = none
  unconfirmed : ∀ p, x.launch = some p → p.isEarly = true →
    ∀ g, x.row.group = some g → g.scanTerminalConfirmed = false
  requested : x.sent = true ∨ x.launch = some .requested →
    ∀ g, x.row.group = some g → g.scannerStartRequestedAt.isSome = true
  unfailed : ∀ p, x.launch = some p → p.untried = true →
    ∀ g, x.row.group = some g → g.state ≠ .startFailed
  confirmed : ∀ g, x.row.group = some g → g.scanTerminalConfirmed = true →
    x.sent = true → x.ended = true
  remembering : ∀ worker run, x.worker = some worker → worker.phase = .remembering run →
    x.sent = true → x.ended = true

/-- The cleanup time has not been put off. -/
def NotLater (g g' : DockerGroup) : Prop :=
  ∀ time ∈ g.cleanupAfter, ∃ time' ∈ g'.cleanupAfter, time' ≤ time

/-- What a cleanup relies on in the group that it has read still holds of the stored one. -/
structure Follows (g g' : DockerGroup) : Prop where
  unrequested : g.scannerStartRequestedAt = none → g'.scannerStartRequestedAt = none
  confirmed : g.scanTerminalConfirmed = true → g'.scanTerminalConfirmed = true
  failed : g.state = .startFailed → g'.state = .startFailed
  notLater : NotLater g g'

/-- The group can be cleaned up. -/
def Cleanable (x : Run) (g : DockerGroup) : Prop :=
  g.scannerStartRequestedAt = none ∨ g.scanTerminalConfirmed = true ∨
    g.state = .startFailed ∧ x.observed = false

/-- What a cleanup has read or found out still holds. -/
def CleanupOk (x : Run) : CleanupPhase → Prop
  | .reading => True
  | .checking _ g => ∃ g', x.row.group = some g' ∧ Follows g g'
  | .confirming _ g _ =>
      (∃ g', x.row.group = some g' ∧ Follows g g') ∧ (x.sent = true → x.ended = true)
  | .waiting g _ => ∃ g', x.row.group = some g' ∧ NotLater g g' ∧ Cleanable x g'
  | .recording => True

/-- A run is active and its cleanup has not read it, or it is finished and left alone. -/
inductive RunInv (x : Run) : Prop where
  | active (facts : Facts x) (status : x.row.status.isActive = true)
      (cleanup : ∀ c, x.cleanup = some c → c.isPast = false)
  | finished (facts : Facts x) (status : x.row.status.isActive = false)
      (launch : ∀ p, x.launch = some p → p.isEarly = false)
      (worker : ∀ worker, x.worker = some worker → worker.phase.monitors = false)
      (cleanup : ∀ c, x.cleanup = some c → CleanupOk x c)

section Invariant

variable {x : Run} {g g' g'' : DockerGroup}

theorem RunInv.facts (h : RunInv x) :
    Facts x := by
  cases h with
  | active facts => exact facts
  | finished facts => exact facts

theorem RunInv.active_of_isEarly (h : RunInv x) {p : LaunchPhase} (hp : x.launch = some p)
    (hearly : p.isEarly = true) :
    x.row.status.isActive = true ∧ ∀ c, x.cleanup = some c → c.isPast = false := by
  cases h with
  | active _ status cleanup => exact ⟨status, cleanup⟩
  | finished _ _ launch =>
      rw [launch p hp] at hearly
      cases hearly

theorem RunInv.active_of_monitors (h : RunInv x) {worker : Worker} (hw : x.worker = some worker)
    (hmonitors : worker.phase.monitors = true) :
    x.row.status.isActive = true ∧ ∀ c, x.cleanup = some c → c.isPast = false := by
  cases h with
  | active _ status cleanup => exact ⟨status, cleanup⟩
  | finished _ _ _ hworker =>
      rw [hworker worker hw] at hmonitors
      cases hmonitors

theorem cleanupOk_of_not_isPast {c : CleanupPhase} (h : c.isPast = false) :
    CleanupOk x c := by
  cases c with
  | reading => trivial
  | recording => trivial
  | checking => cases h
  | confirming => cases h
  | waiting => cases h

@[refl]
theorem NotLater.refl (g : DockerGroup) :
    NotLater g g :=
  fun time htime => ⟨time, htime, le_refl time⟩

theorem NotLater.trans (h : NotLater g g') (h' : NotLater g' g'') :
    NotLater g g'' := by
  intro time htime
  obtain ⟨time', htime', hle⟩ := h time htime
  obtain ⟨time'', htime'', hle'⟩ := h' time' htime'
  exact ⟨time'', htime'', hle'.trans hle⟩

@[refl]
theorem Follows.refl (g : DockerGroup) :
    Follows g g :=
  ⟨id, id, id, .refl g⟩

theorem Follows.trans (h : Follows g g') (h' : Follows g' g'') :
    Follows g g'' where
  unrequested := h'.unrequested ∘ h.unrequested
  confirmed := h'.confirmed ∘ h.confirmed
  failed := h'.failed ∘ h.failed
  notLater := h.notLater.trans h'.notLater

theorem Cleanable.follows {y : Run} (h : Cleanable x g) (hobserved : y.observed = x.observed)
    (hfollows : Follows g g') :
    Cleanable y g' := by
  rcases h with h | h | ⟨h, h'⟩
  · exact .inl (hfollows.unrequested h)
  · exact .inr (.inl (hfollows.confirmed h))
  · exact .inr (.inr ⟨hfollows.failed h, hobserved.trans h'⟩)

/-- What a cleanup relies on survives changes that follow the stored group. -/
theorem CleanupOk.follows {y : Run} {c : CleanupPhase} (h : CleanupOk x c)
    (hgroup : ∀ g, x.row.group = some g → ∃ g', y.row.group = some g' ∧ Follows g g')
    (hsent : y.sent = x.sent) (hobserved : y.observed = x.observed)
    (hended : x.ended = true → y.ended = true) :
    CleanupOk y c := by
  have hread : ∀ {g}, (∃ g', x.row.group = some g' ∧ Follows g g') →
      ∃ g', y.row.group = some g' ∧ Follows g g' := by
    rintro g ⟨g', hg', hfollows⟩
    obtain ⟨g'', hg'', hfollows'⟩ := hgroup g' hg'
    exact ⟨g'', hg'', hfollows.trans hfollows'⟩
  cases c with
  | reading => trivial
  | recording => trivial
  | checking row g => exact hread h
  | confirming row g terminalAt =>
      exact ⟨hread h.1, fun hs => hended (h.2 (hsent ▸ hs))⟩
  | waiting g unobserved =>
      obtain ⟨g', hg', hlater, hclean⟩ := h
      obtain ⟨g'', hg'', hfollows⟩ := hgroup g' hg'
      exact ⟨g'', hg'', hlater.trans hfollows.notLater, hclean.follows hobserved hfollows⟩

end Invariant

/-! ## Changes that keep the invariant -/

section Changes

variable {x y : Run}

/-- The invariant reads nothing else of a run. -/
theorem RunInv.congr (h : RunInv x) (hlaunch : y.launch = x.launch) (hworker : y.worker = x.worker)
    (hcleanup : y.cleanup = x.cleanup) (hgroup : y.row.group = x.row.group)
    (hstatus : y.row.status.isActive = x.row.status.isActive) (hsent : y.sent = x.sent)
    (hobserved : y.observed = x.observed) (hended : y.ended = x.ended) :
    RunInv y := by
  have hfacts : Facts y := by
    have hx := h.facts
    constructor
    · rw [hlaunch, hworker]
      exact hx.alone
    · rw [hlaunch, hgroup]
      exact hx.unconfirmed
    · rw [hsent, hlaunch, hgroup]
      exact hx.requested
    · rw [hlaunch, hgroup]
      exact hx.unfailed
    · rw [hgroup, hsent, hended]
      exact hx.confirmed
    · rw [hworker, hsent, hended]
      exact hx.remembering
  cases h with
  | active _ status cleanup =>
      exact .active hfacts (hstatus.trans status) (by rwa [hcleanup])
  | finished _ status launch worker cleanup =>
      refine .finished hfacts (hstatus.trans status) (by rwa [hlaunch]) (by rwa [hworker]) ?_
      rw [hcleanup]
      exact fun c hc => (cleanup c hc).follows
        (fun g hg => ⟨g, hgroup.trans hg, .refl g⟩) hsent hobserved (hended ▸ id)

theorem RunInv.dropLaunch (h : RunInv x) :
    RunInv { x with launch := none } := by
  have hfacts : Facts { x with launch := none } := by
    refine ⟨?_, ?_, ?_, ?_, h.facts.confirmed, h.facts.remembering⟩
    · rintro p ⟨⟩
    · rintro p ⟨⟩
    · rintro (hsent | ⟨⟨⟩⟩)
      exact h.facts.requested (.inl hsent)
    · rintro p ⟨⟩
  cases h with
  | active _ status cleanup => exact .active hfacts status cleanup
  | finished _ status _ worker cleanup =>
      refine .finished hfacts status (by rintro p ⟨⟩) worker fun c hc => ?_
      exact (cleanup c hc).follows (fun g hg => ⟨g, hg, .refl g⟩) rfl rfl id

theorem RunInv.moveLaunch (h : RunInv x) {p q : LaunchPhase} (hp : x.launch = some p)
    (hearly : p.isEarly = true) (huntried : q.untried = true → p.untried = true)
    (hrequested : q = .requested → ∀ g, x.row.group = some g →
      g.scannerStartRequestedAt.isSome = true) :
    RunInv { x with launch := some q } := by
  obtain ⟨hactive, hcleanup⟩ := h.active_of_isEarly hp hearly
  refine .active ?_ hactive hcleanup
  refine ⟨?_, ?_, ?_, ?_, h.facts.confirmed, h.facts.remembering⟩
  · exact fun _ _ _ => h.facts.alone p hp hearly
  · exact fun _ _ _ => h.facts.unconfirmed p hp hearly
  · rintro (hsent | hq)
    · exact h.facts.requested (.inl hsent)
    · exact hrequested (Option.some.inj hq)
  · rintro q' hq hq'
    cases hq
    exact h.facts.unfailed p hp (huntried hq')

/-- A write of a start request. -/
theorem RunInv.updateEarly (h : RunInv x) {p : LaunchPhase} (hp : x.launch = some p)
    (hearly : p.isEarly = true) (w : Write) {f : DockerGroup → DockerGroup}
    (hconfirmed : ∀ g, (f g).scanTerminalConfirmed = g.scanTerminalConfirmed)
    (hrequested : ∀ g, g.scannerStartRequestedAt.isSome = true →
      (f g).scannerStartRequestedAt.isSome = true)
    (hstate : p.untried = true → ∀ g, (f g).state ≠ .startFailed) :
    RunInv (x.updateGroup w f) := by
  obtain ⟨hactive, hcleanup⟩ := h.active_of_isEarly hp hearly
  unfold Run.updateGroup
  split
  swap
  · exact h
  refine .active ⟨h.facts.alone, ?_, ?_, ?_, ?_, h.facts.remembering⟩ hactive hcleanup
  · rintro q hq hq' g' hg'
    obtain ⟨g, hg, rfl⟩ := Option.map_eq_some_iff.1 hg'
    exact (hconfirmed g).trans (h.facts.unconfirmed q hq hq' g hg)
  · rintro hreq g' hg'
    obtain ⟨g, hg, rfl⟩ := Option.map_eq_some_iff.1 hg'
    exact hrequested g (h.facts.requested hreq g hg)
  · rintro q hq hq' g' hg'
    obtain ⟨g, _, rfl⟩ := Option.map_eq_some_iff.1 hg'
    have hsame : q = p := Option.some.inj (hq.symm.trans hp)
    exact hstate (hsame ▸ hq') g
  · rintro g' hg' hconf
    obtain ⟨g, hg, rfl⟩ := Option.map_eq_some_iff.1 hg'
    exact h.facts.confirmed g hg ((hconfirmed g).symm.trans hconf)

/-- A write that follows what is stored, as far as a cleanup relies on it. -/
theorem RunInv.update (h : RunInv x) (w : Write) {f : DockerGroup → DockerGroup}
    (hunconfirmed : ∀ p, x.launch = some p → p.isEarly = true → ∀ g, x.row.group = some g →
      (f g).scanTerminalConfirmed = false)
    (hconfirmed : ∀ g, x.row.group = some g → (f g).scanTerminalConfirmed = true →
      x.sent = true → x.ended = true)
    (hrequested : ∀ g, (f g).scannerStartRequestedAt = g.scannerStartRequestedAt)
    (hstate : ∀ g, (f g).state = .startFailed → g.state = .startFailed)
    (hfollows : x.isCleaning = true → ∀ g, x.row.group = some g → Follows g (f g)) :
    RunInv (x.updateGroup w f) := by
  unfold Run.updateGroup
  split
  swap
  · exact h
  have hfacts : Facts { x with row := { x.row with group := x.row.group.map f } } := by
    refine ⟨h.facts.alone, ?_, ?_, ?_, ?_, h.facts.remembering⟩
    · rintro q hq hq' g' hg'
      obtain ⟨g, hg, rfl⟩ := Option.map_eq_some_iff.1 hg'
      exact hunconfirmed q hq hq' g hg
    · rintro hreq g' hg'
      obtain ⟨g, hg, rfl⟩ := Option.map_eq_some_iff.1 hg'
      rw [hrequested g]
      exact h.facts.requested hreq g hg
    · rintro q hq hq' g' hg' hfailed
      obtain ⟨g, hg, rfl⟩ := Option.map_eq_some_iff.1 hg'
      exact h.facts.unfailed q hq hq' g hg (hstate g hfailed)
    · rintro g' hg' hconf
      obtain ⟨g, hg, rfl⟩ := Option.map_eq_some_iff.1 hg'
      exact hconfirmed g hg hconf
  cases h with
  | active _ status cleanup => exact .active hfacts status cleanup
  | finished _ status launch worker cleanup =>
      refine .finished hfacts status launch worker fun c hc => ?_
      by_cases hpast : c.isPast = true
      · have hcleaning : x.isCleaning = true := by
          unfold Run.isCleaning
          rw [hc]
          exact hpast
        refine (cleanup c hc).follows (fun g hg => ?_) rfl rfl id
        exact ⟨f g, congrArg (Option.map f) hg, hfollows hcleaning g hg⟩
      · exact cleanupOk_of_not_isPast (Bool.eq_false_of_not_eq_true hpast)

theorem RunInv.updateFollows (h : RunInv x) (w : Write) {f : DockerGroup → DockerGroup}
    (hconfirmed : ∀ g, (f g).scanTerminalConfirmed = g.scanTerminalConfirmed)
    (hrequested : ∀ g, (f g).scannerStartRequestedAt = g.scannerStartRequestedAt)
    (hstate : ∀ g, (f g).state = .startFailed → g.state = .startFailed)
    (hfollows : x.isCleaning = true → ∀ g, x.row.group = some g → Follows g (f g)) :
    RunInv (x.updateGroup w f) :=
  h.update w (fun p hp hearly g hg => (hconfirmed g).trans (h.facts.unconfirmed p hp hearly g hg))
    (fun g hg hconf => h.facts.confirmed g hg ((hconfirmed g).symm.trans hconf)) hrequested hstate
    hfollows

/-- A coordinator goes on, or ends. -/
theorem RunInv.setWorker (h : RunInv x) {worker : Worker} (hw : x.worker = some worker)
    {next : Option Worker}
    (hmonitors : ∀ worker', next = some worker' → worker'.phase.monitors = true →
      worker.phase.monitors = true)
    (hremembering : ∀ worker' run, next = some worker' → worker'.phase = .remembering run →
      x.sent = true → x.ended = true) :
    RunInv { x with worker := next } := by
  have hfacts : Facts { x with worker := next } := by
    refine ⟨?_, h.facts.unconfirmed, h.facts.requested, h.facts.unfailed, h.facts.confirmed,
      hremembering⟩
    intro p hp hearly
    rw [h.facts.alone p hp hearly] at hw
    cases hw
  cases h with
  | active _ status cleanup => exact .active hfacts status cleanup
  | finished _ status launch hworker cleanup =>
      refine .finished hfacts status launch ?_ fun c hc => ?_
      · intro worker' hnext
        by_contra hmonitor
        have hold := hmonitors worker' hnext (Bool.eq_true_of_not_eq_false hmonitor)
        rw [hworker worker hw] at hold
        cases hold
      · exact (cleanup c hc).follows (fun g hg => ⟨g, hg, .refl g⟩) rfl rfl id

theorem RunInv.updateConfirmed (h : RunInv x) (w : Write) {f : DockerGroup → DockerGroup}
    (hlaunch : ∀ p, x.launch = some p → p.isEarly = false) (hclean : x.isCleaning = false)
    (hconfirmed : ∀ g, (f g).scanTerminalConfirmed = true → x.sent = true → x.ended = true)
    (hrequested : ∀ g, (f g).scannerStartRequestedAt = g.scannerStartRequestedAt)
    (hstate : ∀ g, (f g).state = g.state) :
    RunInv (x.updateGroup w f) := by
  refine h.update w (fun p hp hearly => ?_) (fun g _ => hconfirmed g) hrequested
    (fun g hfailed => (hstate g).symm.trans hfailed) fun hcleaning => ?_
  · rw [hlaunch p hp] at hearly
    cases hearly
  · rw [hclean] at hcleaning
    cases hcleaning

theorem RunInv.not_isEarly_of_worker (h : RunInv x) {worker : Worker}
    (hw : x.worker = some worker) {p : LaunchPhase} (hp : x.launch = some p) :
    p.isEarly = false := by
  by_contra hearly
  rw [h.facts.alone p hp (Bool.eq_true_of_not_eq_false hearly)] at hw
  cases hw

theorem RunInv.updateMonitored (h : RunInv x) {worker : Worker} (hw : x.worker = some worker)
    (hmonitors : worker.phase.monitors = true) (w : Write) {f : DockerGroup → DockerGroup}
    (hconfirmed : ∀ g, (f g).scanTerminalConfirmed = true → x.sent = true → x.ended = true)
    (hrequested : ∀ g, (f g).scannerStartRequestedAt = g.scannerStartRequestedAt)
    (hstate : ∀ g, (f g).state = g.state) :
    RunInv (x.updateGroup w f) := by
  obtain ⟨_, hcleanup⟩ := h.active_of_monitors hw hmonitors
  refine h.updateConfirmed w (fun _ => h.not_isEarly_of_worker hw) ?_ hconfirmed hrequested hstate
  unfold Run.isCleaning
  cases hc : x.cleanup with
  | none => rfl
  | some c => exact hcleanup c hc

theorem RunInv.observe (h : RunInv x) (hactive : x.row.status.isActive = true)
    (hcleanup : ∀ c, x.cleanup = some c → c.isPast = false) (runs : List TaskRun) :
    RunInv (x.observe runs) := by
  refine .active ?_ hactive hcleanup
  have hended : x.ended = true → (x.observe runs).ended = true := by
    intro hx
    simp [Run.observe, hx]
  exact ⟨h.facts.alone, h.facts.unconfirmed, h.facts.requested, h.facts.unfailed,
    fun g hg hconf hs => hended (h.facts.confirmed g hg hconf hs),
    fun worker run hw hphase hs => hended (h.facts.remembering worker run hw hphase hs)⟩

/-- The row gets a status; a final one only when the run is no longer started or monitored. -/
theorem RunInv.setStatus (h : RunInv x) {status : RunStatus}
    (hactive : status.isActive = true → x.row.status.isActive = true)
    (hlaunch : status.isActive = false → ∀ p, x.launch = some p → p.isEarly = false)
    (hworker : status.isActive = false →
      ∀ worker, x.worker = some worker → worker.phase.monitors = false) (leased : Bool) :
    RunInv { x with row := { x.row with status := status, leased := leased } } := by
  have hfacts : Facts { x with row := { x.row with status := status, leased := leased } } :=
    ⟨h.facts.alone, h.facts.unconfirmed, h.facts.requested, h.facts.unfailed,
      h.facts.confirmed, h.facts.remembering⟩
  cases hstatus : status.isActive with
  | true =>
      cases h with
      | active _ _ cleanup => exact .active hfacts hstatus cleanup
      | finished _ hold =>
          rw [hactive hstatus] at hold
          cases hold
  | false =>
      refine .finished hfacts hstatus (hlaunch hstatus) (hworker hstatus) fun c hc => ?_
      cases h with
      | active _ _ cleanup => exact cleanupOk_of_not_isPast (cleanup c hc)
      | finished _ _ _ _ cleanup =>
          exact (cleanup c hc).follows (fun g hg => ⟨g, hg, .refl g⟩) rfl rfl id

theorem RunInv.setCleanup (h : RunInv x) {next : Option CleanupPhase}
    (hnext : ∀ c, next = some c → c.isPast = false ∨
      x.row.status.isActive = false ∧ CleanupOk { x with cleanup := next } c) :
    RunInv { x with cleanup := next } := by
  have hfacts : Facts { x with cleanup := next } :=
    ⟨h.facts.alone, h.facts.unconfirmed, h.facts.requested, h.facts.unfailed,
      h.facts.confirmed, h.facts.remembering⟩
  cases h with
  | active _ status _ =>
      refine .active hfacts status fun c hc => (hnext c hc).resolve_right fun hinactive => ?_
      rw [hinactive.1] at status
      cases status
  | finished _ status launch worker _ =>
      exact .finished hfacts status launch worker fun c hc =>
        (hnext c hc).elim cleanupOk_of_not_isPast And.right

end Changes

/-! ## The steps of the parties -/

section Parties

variable {x : Run} {retention now : Int} {groups : List RemoteGroup} {r : RunId}

@[simp]
theorem updateGroup_launch (w : Write) (f : DockerGroup → DockerGroup) :
    (x.updateGroup w f).launch = x.launch := by
  unfold Run.updateGroup
  split <;> rfl

@[simp]
theorem updateGroup_worker (w : Write) (f : DockerGroup → DockerGroup) :
    (x.updateGroup w f).worker = x.worker := by
  unfold Run.updateGroup
  split <;> rfl

@[simp]
theorem updateGroup_sent (w : Write) (f : DockerGroup → DockerGroup) :
    (x.updateGroup w f).sent = x.sent := by
  unfold Run.updateGroup
  split <;> rfl

@[simp]
theorem updateGroup_ended (w : Write) (f : DockerGroup → DockerGroup) :
    (x.updateGroup w f).ended = x.ended := by
  unfold Run.updateGroup
  split <;> rfl

theorem scheduleStep_frame (x : Run) (retention now : Int) (w : Write) (phase : SchedulePhase) :
    (x.scheduleStep retention now w phase).1.launch = x.launch ∧
      (x.scheduleStep retention now w phase).1.worker = x.worker ∧
      (x.scheduleStep retention now w phase).1.sent = x.sent ∧
      (x.scheduleStep retention now w phase).1.ended = x.ended := by
  cases phase with
  | reading supplied finishedAt =>
      unfold Run.scheduleStep
      dsimp only
      split_ifs <;> exact ⟨rfl, rfl, rfl, rfl⟩
  | writing scanFinishedAt cleanupAfter => simp [Run.scheduleStep]
  | submitting => exact ⟨rfl, rfl, rfl, rfl⟩

/-- A punctual call to schedule the cleanup keeps the invariant. -/
theorem RunInv.scheduleStep (h : RunInv x) (retention now : Int) (w : Write)
    {phase : SchedulePhase} (hpunctual : x.Punctual phase) :
    RunInv (x.scheduleStep retention now w phase).1 := by
  cases phase with
  | reading supplied finishedAt =>
      unfold Run.scheduleStep
      dsimp only
      split_ifs <;> exact h
  | writing scanFinishedAt cleanupAfter =>
      refine h.updateFollows w (fun _ => rfl) (fun _ => rfl) (fun _ => id) fun hclean g hg => ?_
      refine ⟨id, id, id, fun time htime => ⟨cleanupAfter, rfl, ?_⟩⟩
      exact hpunctual hclean g hg time htime
  | submitting =>
      refine h.setCleanup fun c hc => ?_
      cases hcleanup : x.cleanup with
      | none =>
          rw [hcleanup] at hc
          cases hc
          exact .inl rfl
      | some c' =>
          rw [hcleanup] at hc
          cases hc
          cases h with
          | active _ _ cleanup => exact .inl (cleanup c' hcleanup)
          | finished _ status _ _ cleanup =>
              exact .inr ⟨status, (cleanup c' hcleanup).follows
                (fun g hg => ⟨g, hg, .refl g⟩) rfl rfl id⟩

theorem RunInv.launchWrite (h : RunInv x) {p q : LaunchPhase} (hp : x.launch = some p)
    (hearly : p.isEarly = true) (w : Write) {f : DockerGroup → DockerGroup}
    (hconfirmed : ∀ g, (f g).scanTerminalConfirmed = g.scanTerminalConfirmed)
    (hrequested : ∀ g, g.scannerStartRequestedAt.isSome = true →
      (f g).scannerStartRequestedAt.isSome = true)
    (hstate : p.untried = true → ∀ g, (f g).state ≠ .startFailed)
    (huntried : q.untried = true → p.untried = true)
    (hq : q = .requested → ∀ g, (x.updateGroup w f).row.group = some g →
      g.scannerStartRequestedAt.isSome = true) :
    RunInv { x.updateGroup w f with launch := some q } :=
  (h.updateEarly hp hearly w hconfirmed hrequested hstate).moveLaunch
    ((updateGroup_launch w f).trans hp) hearly huntried hq

/-- What a start request stores keeps the invariant. -/
theorem RunInv.launchStore (h : RunInv x) {w : Write}
    (hpunctual : ∀ phase ∈ x.launch.bind LaunchPhase.schedulePhase, x.Punctual phase) :
    RunInv (x.launchStep retention now groups r (.store w)) := by
  unfold Run.launchStep
  dsimp only
  split
  case h_1 hp =>
    split
    · exact h.moveLaunch hp rfl (fun _ => rfl) (by rintro ⟨⟩)
    · refine h.launchWrite hp rfl w (fun _ => rfl) (fun _ hx => hx) (fun _ _ => by simp)
        (fun _ => rfl) fun hq => ?_
      cases w <;> cases hq
  case h_2 groupId hp =>
    refine h.launchWrite hp rfl w (fun _ => rfl) (fun _ hx => hx)
      (fun _ _ => by simp [readyGroup]) (fun _ => rfl) fun hq => ?_
    cases w <;> cases hq
  case h_3 groupId hp =>
    refine h.launchWrite hp rfl w (fun _ => rfl) (fun _ hx => hx)
      (fun _ _ => by simp [readyGroup]) (fun _ => rfl) fun hq => ?_
    cases w <;> cases hq
  case h_4 hp =>
    exact h.launchWrite hp rfl w (fun _ => rfl) (fun _ hx => hx) (fun _ _ => by simp)
      (fun _ => rfl) (by rintro ⟨⟩)
  case h_5 hp =>
    split
    · rename_i hgroup
      refine h.moveLaunch hp rfl (fun _ => rfl) fun _ g hg => ?_
      rw [hg] at hgroup
      cases hgroup
    · refine h.launchWrite hp rfl w (fun _ => rfl) (fun _ _ => rfl) (fun _ _ => by simp)
        (fun _ => rfl) fun hq g' hg' => ?_
      -- The scan is started only after the request has been stored.
      cases w with
      | done =>
          obtain ⟨g, _, rfl⟩ := Option.map_eq_some_iff.1 hg'
          rfl
      | lost => cases hq
      | unsure => cases hq
  case h_6 hp =>
    exact h.launchWrite hp rfl w (fun _ => rfl) (fun _ hx => hx) (by rintro ⟨⟩)
      (fun hq => hq) (by rintro ⟨⟩)
  case h_7 hp =>
    have hwritten : RunInv (x.updateGroup w fun g =>
        { g with state := .active, scannerStartedAt := some x.row.startedFrom }) := by
      refine h.updateFollows w (fun _ => rfl) (fun _ => rfl) (by rintro _ ⟨⟩) fun _ g hg => ?_
      exact ⟨id, id, fun hfailed => absurd hfailed (h.facts.unfailed _ hp rfl g hg), .refl g⟩
    exact hwritten.dropLaunch
  case h_8 phase hp =>
    have hkept := h.scheduleStep retention now w
      (hpunctual phase (by rw [hp]; rfl))
    have hlaunch := (scheduleStep_frame x retention now w phase).1.trans hp
    split
    · rename_i hstep
      rw [hstep] at hkept hlaunch
      exact hkept.moveLaunch hlaunch rfl (fun hq => hq) (by rintro ⟨⟩)
    · rename_i hstep
      rw [hstep] at hkept hlaunch
      exact hkept.moveLaunch hlaunch rfl (fun hq => hq) (by rintro ⟨⟩)
    · rename_i hstep
      rw [hstep] at hkept
      exact hkept.dropLaunch
  case h_9 hp =>
    have hworker := h.facts.alone _ hp rfl
    have hswap : { x.finish w .failed with launch := none } =
        ({ x with launch := none } : Run).finish w .failed := by
      cases w <;> rfl
    rw [hswap]
    unfold Run.finish
    split
    · refine h.dropLaunch.setStatus (by rintro ⟨⟩) (by rintro _ _ ⟨⟩) ?_ false
      rintro _ worker hw
      rw [hworker] at hw
      cases hw
    · exact h.dropLaunch
  case h_10 => exact h

/-- A start request keeps the invariant. -/
theorem RunInv.launchStep (h : RunInv x) {a : LaunchAction}
    (horderly : x.Orderly (.launch a)) :
    RunInv (x.launchStep retention now groups r a) := by
  cases a with
  | store w => exact h.launchStore horderly
  | lookUp =>
      unfold Run.launchStep
      dsimp only
      split
      · rename_i hp
        split
        · exact h.moveLaunch hp rfl (fun _ => rfl) (by rintro ⟨⟩)
        · exact h.moveLaunch hp rfl (fun _ => rfl) (by rintro ⟨⟩)
      · exact h
  | create groupId returned =>
      unfold Run.launchStep
      dsimp only
      split
      · rename_i hp
        split
        · exact h
        · exact h.moveLaunch hp rfl (fun _ => rfl) (by cases returned <;> rintro ⟨⟩)
      · exact h
  | start =>
      unfold Run.launchStep
      dsimp only
      split
      · rename_i hp
        obtain ⟨hactive, hcleanup⟩ := h.active_of_isEarly hp rfl
        refine .active ⟨?_, ?_, ?_, ?_, ?_, ?_⟩ hactive hcleanup
        · exact fun _ _ _ => h.facts.alone _ hp rfl
        · exact fun _ _ _ => h.facts.unconfirmed _ hp rfl
        · exact fun _ => h.facts.requested (.inr hp)
        · exact fun _ _ _ => h.facts.unfailed _ hp rfl
        · intro g hg hconf
          rw [h.facts.unconfirmed _ hp rfl g hg] at hconf
          cases hconf
        · intro worker run hw
          rw [h.facts.alone _ hp rfl] at hw
          cases hw
      · exact h
  | answer returned =>
      unfold Run.launchStep
      dsimp only
      split
      · rename_i hp
        exact h.moveLaunch hp rfl (fun _ => rfl) (by cases returned <;> rintro ⟨⟩)
      · exact h
  | read =>
      unfold Run.launchStep
      dsimp only
      split
      · rename_i hp
        split
        · refine h.moveLaunch hp rfl ?_ ?_
          · cases dockerDynamicGroupFromOptions x.row.group <;> exact fun hq => hq
          · cases dockerDynamicGroupFromOptions x.row.group <;> rintro ⟨⟩
        · exact h.dropLaunch
      · exact h
  | raise =>
      unfold Run.launchStep
      dsimp only
      split
      · rename_i hp
        exact h.moveLaunch hp rfl (fun _ => rfl) (by rintro ⟨⟩)
      · rename_i hp
        exact h.moveLaunch hp rfl (fun _ => rfl) (by rintro ⟨⟩)
      · exact h.dropLaunch
      · exact h

theorem RunInv.failWorker (h : RunInv x) {worker other : Worker} (hw : x.worker = some worker) :
    RunInv { x with worker := other.fail } := by
  have hending : ∀ worker', other.fail = some worker' → worker'.phase = .ending := by
    intro worker' hfail
    unfold Worker.fail at hfail
    split at hfail <;> cases hfail
    rfl
  refine h.setWorker hw (fun worker' hnext hmon => ?_) fun worker' run hnext hphase => ?_
  · rw [hending worker' hnext] at hmon
    cases hmon
  · rw [hending worker' hnext] at hphase
    cases hphase

theorem RunInv.moveWorker (h : RunInv x) {worker next : Worker} (hw : x.worker = some worker)
    (hmonitors : next.phase.monitors = true → worker.phase.monitors = true)
    (hremembering : ∀ run, next.phase ≠ .remembering run) :
    RunInv { x with worker := some next } :=
  h.setWorker hw (fun _ hnext => Option.some.inj hnext ▸ hmonitors)
    fun _ run hnext hphase => absurd (Option.some.inj hnext ▸ hphase) (hremembering run)

/-- What a coordinator stores keeps the invariant. -/
theorem RunInv.workStore (h : RunInv x) {worker : Worker} (hw : x.worker = some worker)
    {w : Write} (hpunctual : ∀ phase ∈ x.worker.bind Worker.scheduling, x.Punctual phase) :
    RunInv (x.workStep retention now worker (.store w)) := by
  unfold Run.workStep
  dsimp only
  split
  case h_1 latest hphase =>
    split
    · have hwritten : RunInv (x.updateGroup w fun g =>
          { g with
            scanFinishedAt := some (latest.terminalAt now)
            scanTerminalConfirmed := true }) :=
        h.updateMonitored hw (by rw [hphase]; rfl) w
          (fun _ _ => h.facts.remembering worker latest hw hphase) (fun _ => rfl) fun _ => rfl
      split
      · exact hwritten.moveWorker ((updateGroup_worker w _).trans hw)
          (fun _ => by rw [hphase]; rfl) (by rintro _ ⟨⟩)
      · exact hwritten.failWorker ((updateGroup_worker w _).trans hw)
    · exact h.moveWorker hw (fun _ => by rw [hphase]; rfl) (by rintro _ ⟨⟩)
  case h_2 hphase =>
    split
    · have hwritten : RunInv (x.updateGroup w fun g =>
          { g with
            scanFinishedAt := some (some (seconds now))
            scanTerminalConfirmed := false }) :=
        h.updateMonitored hw (by rw [hphase]; rfl) w (by rintro _ ⟨⟩) (fun _ => rfl)
          fun _ => rfl
      split
      · exact hwritten.moveWorker ((updateGroup_worker w _).trans hw) (by rintro ⟨⟩)
          (by rintro _ ⟨⟩)
      · exact hwritten.failWorker ((updateGroup_worker w _).trans hw)
    · exact h.moveWorker hw (by rintro ⟨⟩) (by rintro _ ⟨⟩)
  case h_3 phase hphase =>
    have hkept := h.scheduleStep retention now w
      (hpunctual phase (by rw [hw]; simp [Worker.scheduling, hphase]))
    have hworker := (scheduleStep_frame x retention now w phase).2.1.trans hw
    split
    · rename_i hstep
      rw [hstep] at hkept hworker
      exact hkept.moveWorker hworker (by rintro ⟨⟩) (by rintro _ ⟨⟩)
    · rename_i hstep
      rw [hstep] at hkept hworker
      exact hkept.moveWorker hworker (by rintro ⟨⟩) (by rintro _ ⟨⟩)
    · rename_i hstep
      rw [hstep] at hkept hworker
      exact hkept.failWorker hworker
  case h_4 => exact h

/-- A poll of a coordinator keeps the invariant. -/
theorem RunInv.workPoll (h : RunInv x) {worker : Worker} (hw : x.worker = some worker)
    (runs : List TaskRun) :
    RunInv (x.workStep retention now worker (.poll runs)) := by
  unfold Run.workStep
  dsimp only
  split
  case h_1 hphase =>
    obtain ⟨hactive, hcleanup⟩ := h.active_of_monitors hw (by rw [hphase]; rfl)
    exact h.observe hactive hcleanup []
  case h_2 latest older hphase =>
    obtain ⟨hactive, hcleanup⟩ := h.active_of_monitors hw (by rw [hphase]; rfl)
    refine (h.observe hactive hcleanup (latest :: older)).setWorker hw
      (fun _ _ _ => by rw [hphase]; rfl) ?_
    rintro worker' run hnext hrun hsent
    cases hnext
    -- The run whose end is to be stored is the newest one, and it is finished.
    have hfinished : latest.isFinished = true := by
      by_contra hrunning
      have hrunning := Bool.eq_false_of_not_eq_true hrunning
      simp only [hrunning, Bool.false_and, Bool.false_eq_true, if_false] at hrun
      split at hrun <;> cases hrun
    have hsent' : x.sent = true := hsent
    simp [Run.observe, newestFinished, hsent', hfinished]
  case h_3 => exact h

/-- A coordinator keeps the invariant. -/
theorem RunInv.workStep (h : RunInv x) {worker : Worker} (hw : x.worker = some worker)
    {a : WorkAction} (horderly : x.Orderly (.work a)) :
    RunInv (x.workStep retention now worker a) := by
  cases a with
  | poll runs => exact h.workPoll hw runs
  | store w => exact h.workStore hw horderly
  | progress seen w =>
      unfold Run.workStep
      dsimp only
      split
      · rename_i latest hphase
        obtain ⟨hactive, _⟩ := h.active_of_monitors hw (by rw [hphase]; rfl)
        have hstatus : (if seen then RunStatus.processing else .monitoring).isActive = true := by
          cases seen <;> rfl
        have hrow : RunInv { x with
            row :=
              if w.stored then
                { x.row with
                  mpRunId := latest.id
                  status := if seen then .processing else .monitoring }
              else x.row } := by
          split
          · exact (h.setStatus (fun _ => hactive) (fun hne => by simp [hstatus] at hne)
              (fun hne => by simp [hstatus] at hne) x.row.leased).congr
              rfl rfl rfl rfl rfl rfl rfl rfl
          · exact h
        by_cases hreturned : w.returned = true
        · rw [if_pos hreturned]
          exact hrow.moveWorker hw (fun _ => by rw [hphase]; rfl) (by rintro _ ⟨⟩)
        · rw [if_neg hreturned]
          exact hrow.failWorker hw
      · exact h
  | skip =>
      unfold Run.workStep
      dsimp only
      split
      · rename_i hphase
        exact h.moveWorker hw (fun _ => by rw [hphase]; rfl) (by rintro _ ⟨⟩)
      · exact h
  | leave =>
      unfold Run.workStep
      dsimp only
      split
      · rename_i hphase
        split_ifs
        · exact h.failWorker hw
        · exact h.moveWorker hw (fun _ => by rw [hphase]; rfl) (by rintro _ ⟨⟩)
        · exact h.moveWorker hw (by rintro ⟨⟩) (by rintro _ ⟨⟩)
      · exact h
  | begin =>
      unfold Run.workStep
      dsimp only
      split
      · refine h.moveWorker hw ?_ ?_
        · cases worker.options <;> rintro ⟨⟩
        · cases worker.options <;> rintro _ ⟨⟩
      · exact h
  | finish status w =>
      unfold Run.workStep
      dsimp only
      split
      · rename_i hphase
        have hrow : RunInv (x.finish w status.toStatus) := by
          unfold Run.finish
          split
          · refine h.setStatus (by simp) (fun _ _ => h.not_isEarly_of_worker hw)
              (fun _ worker' hw' => ?_) false
            rw [hw] at hw'
            cases hw'
            rw [hphase]
            rfl
          · exact h
        have hworker : (x.finish w status.toStatus).worker = some worker := by
          rw [← hw]
          unfold Run.finish
          split <;> rfl
        split_ifs
        · exact hrow.failWorker hworker
        · exact hrow.setWorker hworker (by rintro _ ⟨⟩) (by rintro _ _ ⟨⟩)
        · exact hrow.moveWorker hworker (by rintro ⟨⟩) (by rintro _ ⟨⟩)
      · exact h
  | close =>
      unfold Run.workStep
      dsimp only
      split
      · exact h.setWorker hw (by rintro _ ⟨⟩) (by rintro _ _ ⟨⟩)
      · exact h
  | raise => exact h.failWorker hw

theorem RunInv.finished_of_isPast (h : RunInv x) {c : CleanupPhase} (hc : x.cleanup = some c)
    (hpast : c.isPast = true) :
    x.row.status.isActive = false ∧ (∀ p, x.launch = some p → p.isEarly = false) ∧
      CleanupOk x c := by
  cases h with
  | active _ _ cleanup =>
      rw [cleanup c hc] at hpast
      cases hpast
  | finished _ status launch _ cleanup => exact ⟨status, launch, cleanup c hc⟩

/-- A cleanup is ready without a check, or when no run of a failed start is listed. -/
theorem confirm_ready {row : RunRow} {group group' : DockerGroup} {runs : List TaskRun}
    {unobserved : Bool}
    (h : confirmDockerScanTerminalForCleanup now row group runs = .ok (.ready group' unobserved)) :
    group' = group ∧ (group.needsTerminalCheck = false ∨
      group.needsTerminalCheck = true ∧ runs = [] ∧ group.state = .startFailed) := by
  unfold confirmDockerScanTerminalForCleanup at h
  by_cases hcheck : group.needsTerminalCheck = true
  · simp only [hcheck, Bool.not_true, Bool.false_eq_true, if_false] at h
    split at h
    · cases h
    · split at h
      · split at h
        · rename_i hfailed
          cases h
          exact ⟨rfl, .inr ⟨hcheck, rfl, hfailed.1⟩⟩
        · cases h
      · split_ifs at h <;> cases h
  · simp only [Bool.eq_false_of_not_eq_true hcheck, Bool.not_false, if_true] at h
    cases h
    exact ⟨rfl, .inl (Bool.eq_false_of_not_eq_true hcheck)⟩

theorem confirm_terminal {row : RunRow} {group : DockerGroup} {runs : List TaskRun}
    {terminalAt : Option Int}
    (h : confirmDockerScanTerminalForCleanup now row group runs = .ok (.terminal terminalAt)) :
    group.needsTerminalCheck = true ∧ newestFinished runs = true := by
  unfold confirmDockerScanTerminalForCleanup at h
  by_cases hcheck : group.needsTerminalCheck = true
  · simp only [hcheck, Bool.not_true, Bool.false_eq_true, if_false] at h
    split at h
    · cases h
    · split at h
      · split at h <;> cases h
      · split_ifs at h with _ hfinished
        · cases h
        · exact ⟨hcheck, hfinished⟩
        · cases h
  · simp only [Bool.eq_false_of_not_eq_true hcheck, Bool.not_false, if_true] at h
    cases h

/-- The cleanup goes on after an answer about its run. -/
theorem RunInv.observeCleanup (h : RunInv x) {c : CleanupPhase} (hc : x.cleanup = some c)
    (hpast : c.isPast = true) {runs : List TaskRun} {next : CleanupPhase}
    (hnext : CleanupOk (x.observe runs) next) :
    RunInv { x.observe runs with cleanup := some next } := by
  have hended : x.ended = true → (x.observe runs).ended = true := by
    intro hx
    simp [Run.observe, hx]
  have hfacts : Facts { x.observe runs with cleanup := some next } :=
    ⟨h.facts.alone, h.facts.unconfirmed, h.facts.requested, h.facts.unfailed,
      fun g hg hconf hs => hended (h.facts.confirmed g hg hconf hs),
      fun worker run hw hphase hs => hended (h.facts.remembering worker run hw hphase hs)⟩
  cases h with
  | active _ _ cleanup =>
      rw [cleanup c hc] at hpast
      cases hpast
  | finished _ status launch worker _ =>
      refine .finished hfacts status launch worker ?_
      rintro c' ⟨⟩
      exact hnext.follows (fun g hg => ⟨g, hg, .refl g⟩) rfl rfl fun hx => hx

/-- What a cleanup concludes from an answer keeps the invariant. -/
theorem RunInv.cleanConfirm (h : RunInv x) {phase : CleanupPhase} (hc : x.cleanup = some phase)
    {runs : List TaskRun} (horderly : x.Orderly (.clean (.confirm runs))) :
    RunInv (x.cleanStep retention now groups phase (.confirm runs)) := by
  unfold Run.cleanStep
  dsimp only
  split
  swap
  · exact h
  rename_i row group
  obtain ⟨hinactive, _, g', hg', hfollows⟩ := h.finished_of_isPast hc rfl
  by_cases hcheck : group.needsTerminalCheck = true
  · rw [if_pos hcheck]
    refine h.observeCleanup hc rfl ?_
    split
    · rename_i hready
      obtain ⟨rfl, hno | ⟨_, rfl, hfailed⟩⟩ := confirm_ready hready
      · rw [hno] at hcheck
        cases hcheck
      · have hunobserved : x.observed = false := by
          refine horderly ⟨_, hc, ?_⟩
          simp [CleanupPhase.asksAfterFailure, hcheck, hfailed]
        refine ⟨g', hg', hfollows.notLater, .inr (.inr ⟨hfollows.failed hfailed, ?_⟩)⟩
        simp [Run.observe, hunobserved]
    · rename_i hterminal
      have hfinished := (confirm_terminal hterminal).2
      refine ⟨⟨g', hg', hfollows⟩, fun hsent => ?_⟩
      have hsent' : x.sent = true := hsent
      simp [Run.observe, hsent', hfinished]
    · trivial
    · trivial
  · rw [if_neg hcheck]
    refine h.setCleanup fun c hnext => ?_
    cases hnext
    split
    · rename_i hready
      obtain ⟨rfl, _⟩ := confirm_ready hready
      refine .inr ⟨hinactive, g', hg', hfollows.notLater, ?_⟩
      have hskipped := Bool.eq_false_of_not_eq_true hcheck
      simp only [DockerGroup.needsTerminalCheck, DockerGroup.startWasRequested,
        Bool.and_eq_false_iff, Bool.or_eq_false_iff, Option.isSome_eq_false_iff,
        Option.isNone_iff_eq_none, Bool.not_eq_eq_eq_not, Bool.not_false] at hskipped
      rcases hskipped with ⟨hnone, _⟩ | hconf
      · exact .inl (hfollows.unrequested hnone)
      · exact .inr (.inl (hfollows.confirmed hconf))
    · rename_i hterminal
      exact absurd (confirm_terminal hterminal).1 hcheck
    · exact .inl rfl
    · exact .inl rfl

/-- What a cleanup stores keeps the invariant. -/
theorem RunInv.cleanStore (h : RunInv x) {phase : CleanupPhase} (hc : x.cleanup = some phase)
    {w : Write} :
    RunInv (x.cleanStep retention now groups phase (.store w)) := by
  unfold Run.cleanStep
  dsimp only
  split
  · rename_i row group terminalAt
    obtain ⟨hinactive, hlaunch, ⟨g', hg', _⟩, hended⟩ := h.finished_of_isPast hc rfl
    -- What the cleanup has read is given up before the confirmation is stored.
    have hread : RunInv { x with cleanup := some .reading } :=
      h.setCleanup (by rintro _ ⟨⟩; exact .inl rfl)
    have hwritten := hread.updateConfirmed w
      (f := fun g => { g with
        scanFinishedAt := some terminalAt
        scanTerminalConfirmed := true
        cleanupAfter := some (dockerGroupCleanupAfter retention terminalAt now) })
      hlaunch rfl (fun _ _ => hended) (fun _ => rfl) fun _ => rfl
    cases w with
    | done =>
        refine hwritten.setCleanup fun c hnext => ?_
        cases hnext
        refine .inr ⟨hinactive, _, congrArg (Option.map _) hg', ?_, .inr (.inl rfl)⟩
        exact fun time htime => ⟨time, htime, le_refl time⟩
    | lost => exact hwritten.setCleanup (by rintro _ ⟨⟩; exact .inl rfl)
    | unsure => exact hwritten.setCleanup (by rintro _ ⟨⟩; exact .inl rfl)
  · have hwritten : RunInv (x.updateGroup w fun g => { g with removedAt := some (seconds now) }) :=
      h.updateFollows w (fun _ => rfl) (fun _ => rfl) (fun _ hx => hx)
        fun _ g _ => ⟨id, id, id, .refl g⟩
    split
    · exact hwritten.setCleanup (by rintro _ ⟨⟩)
    · exact hwritten.setCleanup (by rintro _ ⟨⟩; exact .inl rfl)
  · exact h

/-- A cleanup keeps the invariant. -/
theorem RunInv.cleanStep (h : RunInv x) {phase : CleanupPhase} (hc : x.cleanup = some phase)
    {a : CleanAction} (horderly : x.Orderly (.clean a)) :
    RunInv (x.cleanStep retention now groups phase a) := by
  cases a with
  | read =>
      unfold Run.cleanStep
      dsimp only
      split
      · split
        · exact h.setCleanup (by rintro _ ⟨⟩)
        · rename_i group hgroup
          split_ifs with hremoved hactive
          · exact h.setCleanup (by rintro _ ⟨⟩)
          · exact h
          · refine h.setCleanup fun c hnext => ?_
            cases hnext
            have hstored : x.row.group = some group :=
              (Option.filter_eq_some_iff.1 hgroup).1
            exact .inr ⟨Bool.eq_false_of_not_eq_true hactive, group, hstored, .refl group⟩
      · exact h
  | confirm runs => exact h.cleanConfirm hc horderly
  | store w => exact h.cleanStore hc
  | remove applied returned =>
      unfold Run.cleanStep
      dsimp only
      split
      · split
        · exact h.setCleanup (by rintro _ ⟨⟩; exact .inl rfl)
        · split_ifs
          · exact h
          · exact h.setCleanup (by rintro _ ⟨⟩; exact .inl rfl)
          · exact h.setCleanup (by rintro _ ⟨⟩; exact .inl rfl)
      · exact h
  | raise => exact h.setCleanup (by rintro _ ⟨⟩; exact .inl rfl)
  | stop => exact h.setCleanup (by rintro _ ⟨⟩)

/-- A claim keeps the invariant when the scan of the run is not being started. -/
theorem RunInv.claim (h : RunInv x) (horderly : x.Orderly .claim) :
    RunInv x.claim := by
  unfold Run.claim
  split
  swap
  · exact h
  rename_i hclaimable
  have hlate := horderly hclaimable
  simp only [Run.claimable, Bool.and_eq_true] at hclaimable
  cases h with
  | active facts status cleanup =>
      refine .active ⟨?_, facts.unconfirmed, facts.requested, facts.unfailed, facts.confirmed, ?_⟩
        status cleanup
      · intro p hp hearly
        rw [hlate p hp] at hearly
        cases hearly
      · rintro worker run ⟨⟩ hphase
        dsimp only at hphase
        split at hphase <;> cases hphase
  | finished _ status =>
      rw [status] at hclaimable
      exact absurd hclaimable.2 (by simp)

/-- What every action keeps of a run. -/
theorem RunInv.advance (h : RunInv x) {a : Action} (horderly : x.Orderly a) :
    RunInv (x.advance retention now groups r a) := by
  cases a with
  | launch a => exact h.launchStep horderly
  | claim => exact h.claim horderly
  | work a =>
      unfold Run.advance
      dsimp only
      split
      · rename_i worker hw
        exact h.workStep hw horderly
      · exact h
  | cancel =>
      unfold Run.advance Run.cancel
      dsimp only
      split
      · rename_i hactive
        exact h.congr rfl rfl rfl rfl hactive.symm rfl rfl rfl
      · exact h
  | release =>
      unfold Run.advance
      dsimp only
      split
      · exact h.congr rfl rfl rfl rfl rfl rfl rfl rfl
      · exact h
  | resume =>
      unfold Run.advance
      dsimp only
      split
      · exact h.congr rfl rfl rfl rfl rfl rfl rfl rfl
      · exact h
  | schedule place w =>
      unfold Run.advance
      dsimp only
      split
      · rename_i phase hphase
        have hkept := h.scheduleStep retention now w (horderly phase hphase)
        split
        · rename_i hstep
          rw [hstep] at hkept
          exact hkept.congr rfl rfl rfl rfl rfl rfl rfl rfl
        · rename_i hstep
          rw [hstep] at hkept
          exact hkept.congr rfl rfl rfl rfl rfl rfl rfl rfl
      · exact h
  | clean a =>
      unfold Run.advance
      dsimp only
      split
      · rename_i phase hc
        exact h.cleanStep hc horderly
      · exact h

theorem runInv_newRun (mpTaskId : String) (iterations : Int) (lost : Bool) :
    RunInv (newRun r mpTaskId iterations now lost) := by
  have hgroup : ∀ g, (newRun r mpTaskId iterations now lost).row.group = some g →
      g = { name := r.groupName, state := .planned } := by
    intro g hg
    simp only [newRun] at hg
    split at hg <;> cases hg
    rfl
  refine .active ⟨fun _ _ _ => rfl, fun _ _ _ g hg => ?_, ?_, fun _ _ _ g hg => ?_,
    fun g hg hconf => ?_, by rintro _ _ ⟨⟩⟩ rfl (by rintro _ ⟨⟩)
  · rw [hgroup g hg]
  · rintro (⟨⟨⟩⟩ | hlaunch)
    cases lost <;> cases hlaunch
  · rw [hgroup g hg]
    rintro ⟨⟩
  · rw [hgroup g hg] at hconf
    cases hconf

theorem RunInv.crash (h : RunInv x) :
    RunInv x.crash := by
  have hfacts : Facts x.crash := by
    refine ⟨by rintro _ ⟨⟩, by rintro _ ⟨⟩, ?_, by rintro _ ⟨⟩, h.facts.confirmed,
      by rintro _ _ ⟨⟩⟩
    rintro (hsent | ⟨⟨⟩⟩)
    exact h.facts.requested (.inl hsent)
  cases hstatus : x.row.status.isActive with
  | true => exact .active hfacts hstatus (by rintro _ ⟨⟩)
  | false => exact .finished hfacts hstatus (by rintro _ ⟨⟩) (by rintro _ ⟨⟩) (by rintro _ ⟨⟩)

end Parties

end DockerGroups
end Services
end MpvmApp
