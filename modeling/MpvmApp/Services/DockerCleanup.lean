import MpvmApp.Services.DockerLinks

/-!
# Removals of managed Docker groups

A group is removed by the cleanup of its run, which looks it up by the id or the name that it has
read.  In orderly runs this is the group of a finished run whose scan is over, or was never
started.  A worker that claims a run whose scan is still being started finishes it too early: the
cleanup then sees no start request, and removes the group under the scan.

Main results:

- Theorem `SystemInv.step`: every orderly event keeps the invariant of the system.
- Theorem `removals_allowed`: in orderly runs groups are removed only when they may be.
- Theorem `removals_own`: in all runs no run has the group of another one removed.
-/

namespace MpvmApp
namespace Services
namespace DockerGroups

open Runs

/-! ## Removals -/

/-- The invariant of the system. -/
structure SystemInv (s : System) : Prop where
  ids : (s.groups.map RemoteGroup.id).Nodup
  runs : ∀ r x, s.runs.get? r = some x → RunInv x
  linked : ∀ r x, s.runs.get? r = some x → Linked s.groups r x.held

theorem nodup_markRemoved {groups : List RemoteGroup} (h : (groups.map RemoteGroup.id).Nodup)
    (id : GroupId) :
    ((markRemoved groups id).map RemoteGroup.id).Nodup := by
  have hsame : (markRemoved groups id).map RemoteGroup.id = groups.map RemoteGroup.id := by
    unfold markRemoved
    rw [List.map_map]
    refine List.map_congr_left fun rg _ => ?_
    rw [Function.comp_apply]
    split <;> rfl
  rw [hsame]
  exact h

theorem nodup_addRemoteGroup {groups : List RemoteGroup} (h : (groups.map RemoteGroup.id).Nodup)
    (id : GroupId) (name : String) :
    ((addRemoteGroup groups id name).map RemoteGroup.id).Nodup := by
  unfold addRemoteGroup
  split
  · exact h
  · rename_i hfree
    rw [List.map_cons, List.nodup_cons]
    refine ⟨fun hmem => hfree ?_, h⟩
    obtain ⟨rg, hrg, hid⟩ := List.mem_map.1 hmem
    exact List.any_eq_true.2 ⟨rg, hrg, decide_eq_true hid⟩

theorem nodup_groupsAfter {now : Int} {groups : List RemoteGroup} {r : RunId} {x : Run}
    (h : (groups.map RemoteGroup.id).Nodup) (a : Action) :
    ((groupsAfter now groups r x a).map RemoteGroup.id).Nodup := by
  unfold groupsAfter
  split
  · split
    · exact nodup_addRemoteGroup h _ _
    · exact h
  · split
    · split
      · exact nodup_markRemoved h _
      · exact h
    · exact h
  · exact h

theorem systemInv_initial (now : Int) :
    SystemInv (initial now) where
  ids := List.nodup_nil
  runs _ _ h := by cases h
  linked _ _ h := by cases h

/-- Every orderly event keeps the invariant. -/
theorem SystemInv.step {retention : Int} {s : System} (h : SystemInv s) {e : Event}
    (horderly : Orderly s e) :
    SystemInv (DockerGroups.step retention s e) := by
  cases e with
  | tick time => exact ⟨h.ids, h.runs, h.linked⟩
  | addGroup id name =>
      exact ⟨nodup_addRemoteGroup h.ids id name, h.runs,
        fun r x hx => (h.linked r x hx).mono (addRemoteGroup_mono s.groups id name)⟩
  | dropGroup id =>
      exact ⟨nodup_markRemoved h.ids id, h.runs,
        fun r x hx => (h.linked r x hx).mono (markRemoved_mono s.groups id)⟩
  | create r mpTaskId iterations lost =>
      unfold DockerGroups.step
      dsimp only
      split
      · exact h
      · refine ⟨h.ids, fun r' x hx => ?_, fun r' x hx => ?_⟩
        · dsimp only at hx
          rw [Dict.get?_set] at hx
          split at hx
          · cases hx
            exact runInv_newRun mpTaskId iterations lost
          · exact h.runs r' x hx
        · dsimp only at hx
          rw [Dict.get?_set] at hx
          split at hx
          · rename_i hr
            cases hx
            cases hr
            refine ⟨fun key hkey => ?_, by rintro _ ⟨⟩, fun id hid => ?_⟩
            · obtain ⟨g, hg, rfl⟩ := Option.map_eq_some_iff.1 hkey
              simp only [newRun] at hg
              split at hg <;> cases hg
              exact ⟨rfl, fun hne => absurd rfl hne⟩
            · cases lost <;> cases hid
          · exact h.linked r' x hx
  | act r a =>
      unfold DockerGroups.step
      dsimp only
      split
      · rename_i x hx
        refine ⟨nodup_groupsAfter h.ids a, fun r' x' hx' => ?_, fun r' x' hx' => ?_⟩
        · dsimp only at hx'
          rw [Dict.get?_set] at hx'
          split at hx'
          · cases hx'
            exact (h.runs r x hx).advance (horderly x hx)
          · exact h.runs r' x' hx'
        · dsimp only at hx'
          rw [Dict.get?_set] at hx'
          split at hx'
          · rename_i hr
            cases hx'
            cases hr
            exact (h.linked r x hx).advance a
          · exact (h.linked r' x' hx').mono (groupsAfter_mono a)
      · exact h
  | crash =>
      refine ⟨h.ids, fun r x hx => ?_, fun r x hx => ?_⟩
      · obtain ⟨old, hold, rfl⟩ := Option.map_eq_some_iff.1
          ((Dict.get?_mapValues s.runs Run.crash r).symm.trans hx)
        exact (h.runs r old hold).crash
      · obtain ⟨old, hold, rfl⟩ := Option.map_eq_some_iff.1
          ((Dict.get?_mapValues s.runs Run.crash r).symm.trans hx)
        exact ⟨(h.linked r old hold).row, by rintro _ ⟨⟩, by rintro _ ⟨⟩⟩

section Removal

variable {s : System}

theorem SystemInv.eq_of_id (h : SystemInv s) {rg rg' : RemoteGroup} (hrg : rg ∈ s.groups)
    (hrg' : rg' ∈ s.groups) (hid : rg.id.text = rg'.id.text) :
    rg = rg' := by
  refine List.inj_on_of_nodup_map h.ids hrg hrg' ?_
  generalize rg.id = i at hid ⊢
  generalize rg'.id = i' at hid ⊢
  cases i
  cases i'
  cases hid
  rfl

theorem SystemInv.name_of_given (h : SystemInv s) {r : RunId} {rg : RemoteGroup}
    (hrg : rg ∈ s.groups) (hgiven : Given s.groups r rg.id.text) :
    rg.name = r.groupName := by
  obtain ⟨rg', hrg', hid, hname⟩ := hgiven
  rw [← h.eq_of_id hrg' hrg hid]
  exact hname

/-- What is looked up for a known group has the name of the group of the run. -/
theorem SystemInv.name_of_groupToRemove (h : SystemInv s) {r : RunId} {g : DockerGroup}
    (hknown : Known s.groups r g.key) {rg : RemoteGroup}
    (hfound : groupToRemove s.groups g = some rg) :
    rg ∈ s.groups ∧ rg.name = r.groupName := by
  have hname : Sql.strip g.name = r.groupName := by
    have hname : g.name = r.groupName := hknown.1
    rw [hname, strip_groupName]
  rcases Option.or_eq_some_iff.1 hfound with hid | ⟨_, hfound⟩
  · obtain ⟨hmem, ⟨hne, hid⟩ | ⟨hne, _⟩⟩ := findAssetGroup_name hid
    · have hgroup : g.id ≠ "" := by
        intro hempty
        rw [hempty] at hne
        exact hne (by decide)
      have hgiven := hknown.2 hgroup
      have hstrip : Sql.strip g.id = g.id := by
        obtain ⟨rg', _, hid', _⟩ := hgiven
        have hsame : rg'.id.text = g.id := hid'
        rw [← hsame]
        exact rg'.id.strip_text
      rw [hstrip] at hid
      refine ⟨hmem, h.name_of_given hmem ?_⟩
      rw [hid]
      exact hgiven
    · exact absurd rfl hne
  · obtain ⟨hmem, ⟨hne, _⟩ | ⟨_, hsame⟩⟩ := findAssetGroup_name hfound
    · exact absurd rfl hne
    · exact ⟨hmem, hsame.trans hname⟩

theorem SystemInv.eq_of_refersTo (h : SystemInv s) {r r' : RunId} {x : Run}
    (hx : s.runs.get? r' = some x) {rg : RemoteGroup} (hrg : rg ∈ s.groups)
    (hname : rg.name = r.groupName) (hrefers : x.RefersTo rg) :
    r' = r := by
  obtain ⟨g, hg, hkey⟩ := hrefers
  have hknown := (h.linked r' x hx).known_row (Option.filter_eq_some_iff.1 hg).1
  have hown : g.name = r'.groupName := hknown.1
  rcases hkey with hid | hsame
  · have hgiven : Given s.groups r' g.id := hknown.2 (by
      intro hempty
      exact rg.id.nonempty (hid.symm.trans hempty))
    rw [hid] at hgiven
    exact dockerScanGroupName_inj ((h.name_of_given hrg hgiven).symm.trans hname)
  · exact dockerScanGroupName_inj (hown.symm.trans (hsame.trans hname))

/-- A group whose cleanup waits is one that its run may lose when the time has come. -/
theorem RunInv.mayLose {x : Run} {now : Int} (h : RunInv x) {g : DockerGroup} {unobserved : Bool}
    (hc : x.cleanup = some (.waiting g unobserved)) (hdue : g.due now = true) :
    x.MayLose now := by
  obtain ⟨hinactive, _, g', hg', hlater, hclean⟩ := h.finished_of_isPast hc rfl
  have hdue' : g'.due now = true := by
    obtain ⟨time, htime, hle⟩ : ∃ time ∈ g.cleanupAfter, time ≤ now := by
      unfold DockerGroup.due at hdue
      cases htime : g.cleanupAfter with
      | none =>
          rw [htime] at hdue
          cases hdue
      | some time =>
          rw [htime] at hdue
          exact ⟨time, rfl, of_decide_eq_true hdue⟩
    obtain ⟨time', htime', hle'⟩ := hlater time htime
    unfold DockerGroup.due
    rw [Option.mem_def.1 htime']
    exact decide_eq_true (hle'.trans hle)
  refine ⟨hinactive, ?_⟩
  cases hsent : x.sent with
  | false => exact .inr (.inl rfl)
  | true =>
      rcases hclean with hnone | hconf | ⟨hfailed, hunobserved⟩
      · have hrequested := h.facts.requested (.inl hsent) g' hg'
        rw [hnone] at hrequested
        cases hrequested
      · exact .inl ⟨h.facts.confirmed g' hg' hconf hsent, g', hg', hconf, hdue'⟩
      · exact .inr (.inr ⟨hunobserved, g', hg', hfailed, hdue'⟩)

/-- While the invariant holds, groups are removed only when they may be. -/
theorem SystemInv.removalAllowed (h : SystemInv s) (e : Event) :
    RemovalAllowed s e := by
  rintro rg hremoval ⟨r', x'⟩ hitem hrefers
  cases e with
  | act r a =>
      obtain ⟨x, hx, hrun⟩ := Option.bind_eq_some_iff.1 hremoval
      have hx' := Dict.mem_items_iff.1 hitem
      cases a with
      | clean a =>
          obtain ⟨phase, hc, hof⟩ := Option.bind_eq_some_iff.1 hrun
          unfold removalOf at hof
          split at hof
          · rename_i g unobserved _ _
            split at hof
            · rename_i hdue
              have hknown := (h.linked r x hx).known_read hc rfl
              obtain ⟨hrg, hname⟩ := h.name_of_groupToRemove hknown hof
              have hr := h.eq_of_refersTo hx' hrg hname hrefers
              rw [hr, hx] at hx'
              cases hx'
              exact (h.runs r x' hx).mayLose hc hdue
            · cases hof
          · cases hof
      | _ => cases hrun
  | _ => cases hremoval

end Removal

/--
In a run whose events are all in order, a managed group is removed only when no active run has it,
and its scan is confirmed to be over and the cleanup time has passed, or its start was never
requested, or its start failed, no run was observed and the cleanup time has passed.
-/
theorem removals_allowed (retention now : Int) (es : List Event)
    (h : Along (step retention) Orderly (initial now) es) :
    Along (step retention) RemovalAllowed (initial now) es :=
  h.ensures (fun _ _ hinv hok => hinv.step hok) (fun _ e hinv _ => hinv.removalAllowed e)
    (systemInv_initial now)

/-! ## Groups of others -/

/-- What the parties of every run know about its group is about no group of others. -/
structure OwnGroups (s : System) : Prop where
  ids : (s.groups.map RemoteGroup.id).Nodup
  linked : ∀ r x, s.runs.get? r = some x → Linked s.groups r x.held

/-- No run has any other one's group removed: the group has the name of the run that asks. -/
def RemovesOwn (s : System) (e : Event) : Prop :=
  ∀ r a rg, e = .act r a → removal s e = some rg → rg ∈ s.groups ∧ rg.name = r.groupName

theorem OwnGroups.step (retention : Int) {s : System} (h : OwnGroups s) (e : Event) :
    OwnGroups (DockerGroups.step retention s e) := by
  cases e with
  | tick time => exact ⟨h.ids, h.linked⟩
  | addGroup id name =>
      exact ⟨nodup_addRemoteGroup h.ids id name,
        fun r x hx => (h.linked r x hx).mono (addRemoteGroup_mono s.groups id name)⟩
  | dropGroup id =>
      exact ⟨nodup_markRemoved h.ids id,
        fun r x hx => (h.linked r x hx).mono (markRemoved_mono s.groups id)⟩
  | create r mpTaskId iterations lost =>
      cases hr : s.runs.get? r with
      | some x => simpa [DockerGroups.step, hr] using h
      | none =>
          simp only [DockerGroups.step, hr]
          refine ⟨h.ids, fun r' x hx => ?_⟩
          rw [Dict.get?_set] at hx
          by_cases hsame : r' = r
          · rw [if_pos hsame] at hx
            cases hx
            subst hsame
            refine ⟨fun key hkey => ?_, by rintro _ ⟨⟩, by cases lost <;> rintro _ ⟨⟩⟩
            obtain ⟨g, hg, rfl⟩ := Option.map_eq_some_iff.1 hkey
            simp only [newRun] at hg
            split at hg <;> cases hg
            exact ⟨rfl, fun hne => absurd rfl hne⟩
          · rw [if_neg hsame] at hx
            exact h.linked r' x hx
  | act r a =>
      cases hr : s.runs.get? r with
      | none => simpa [DockerGroups.step, hr] using h
      | some x =>
          simp only [DockerGroups.step, hr]
          refine ⟨nodup_groupsAfter h.ids a, fun r' x' hx' => ?_⟩
          rw [Dict.get?_set] at hx'
          by_cases hsame : r' = r
          · rw [if_pos hsame] at hx'
            cases hx'
            subst hsame
            exact (h.linked r' x hr).advance a
          · rw [if_neg hsame] at hx'
            exact (h.linked r' x' hx').mono (groupsAfter_mono a)
  | crash =>
      refine ⟨h.ids, fun r x hx => ?_⟩
      obtain ⟨old, hold, rfl⟩ := Option.map_eq_some_iff.1
        ((Dict.get?_mapValues s.runs Run.crash r).symm.trans hx)
      exact ⟨(h.linked r old hold).row, by rintro _ ⟨⟩, by rintro _ ⟨⟩⟩

theorem OwnGroups.removesOwn {s : System} (h : OwnGroups s) (e : Event) :
    RemovesOwn s e := by
  rintro r a rg rfl hremoval
  obtain ⟨x, hx, hrun⟩ := Option.bind_eq_some_iff.1 hremoval
  cases a with
  | clean a =>
      obtain ⟨phase, hc, hof⟩ := Option.bind_eq_some_iff.1 hrun
      unfold removalOf at hof
      split at hof
      · split at hof
        · -- The names of the groups do not depend on the runs.
          have hnoRuns : SystemInv { s with runs := Dict.empty } :=
            ⟨h.ids, fun _ _ hx => (by cases hx), fun _ _ hx => (by cases hx)⟩
          exact hnoRuns.name_of_groupToRemove ((h.linked r x hx).known_read hc rfl) hof
        · cases hof
      · cases hof
  | _ => cases hrun

/--
In every run, whatever is claimed, fails, comes late or is lost in a crash, the removal that a
scan run requests is one of the group that bears the name of this run.
-/
theorem removals_own (retention now : Int) (es : List Event) :
    Along (step retention) RemovesOwn (initial now) es := by
  have hall : Along (step retention) (fun _ _ => True) (initial now) es :=
    along_of_forall (fun _ _ => trivial) _ es
  refine hall.ensures (fun _ e (h : OwnGroups _) _ => h.step retention e)
    (fun _ e h _ => h.removesOwn e) ⟨List.nodup_nil, fun _ _ h => (by cases h)⟩

/-- A run id. -/
def firstRun : RunId where
  text := "11111111-2222-4333-8444-555555555555"
  chars := by simp; decide
  length := by simp
  nonempty := by decide

/-- A group id. -/
def firstGroup : GroupId where
  text := "group-1"
  nonempty := by decide
  strip_text := by decide +kernel

/-- The group of a new run is created, but not stored yet. -/
def groupCreation : List Event :=
  [.create firstRun "task-1" 1 false, .act firstRun (.launch (.store .done)),
    .act firstRun (.launch .lookUp), .act firstRun (.launch (.create firstGroup true))]

/-- A worker is told to stop, schedules the cleanup and finishes the run. -/
def cancelledWork : List Event :=
  [.act firstRun (.work (.poll [])), .act firstRun .cancel, .act firstRun (.work .raise),
    .act firstRun (.work .begin), .act firstRun (.work (.store .done)),
    .act firstRun (.work (.store .done)), .act firstRun (.work (.store .done)),
    .act firstRun (.work (.finish .cancelled .done))]

/-- The group is stored and the scan is started. -/
def scanStart : List Event :=
  [.act firstRun (.launch (.store .done)), .act firstRun (.launch (.store .done)),
    .act firstRun (.launch .start), .act firstRun (.launch (.answer true))]

/--
A login during the creation of the group lets a worker claim the run; the worker is cancelled, the
cleanup finds that the start was not requested, the scan is started, and after the retention its
group is removed.
-/
theorem removal_during_scan :
    ¬ Along (step 600000000) RemovalAllowed (initial 0)
      (groupCreation ++ [.act firstRun .claim] ++ cancelledWork ++
        [.act firstRun (.clean .read), .act firstRun (.clean (.confirm []))] ++ scanStart ++
        [.tick 600000000, .act firstRun (.clean (.remove true true))]) := by
  decide +kernel

/-- The same with the claim after the start: the cleanup waits for the end of the scan. -/
theorem removal_after_scan :
    Along (step 600000000) RemovalAllowed (initial 0)
      (groupCreation ++ scanStart ++
        [.act firstRun (.launch (.store .done)), .act firstRun .claim] ++ cancelledWork ++
        [.act firstRun (.clean .read), .act firstRun (.clean (.confirm
          [{ id := "run-1", statuses := ["stopped"], finishedAt := some (some 1000000) }])),
          .act firstRun (.clean (.store .done)), .tick 700000000,
          .act firstRun (.clean (.remove true true)), .act firstRun (.clean (.store .done))]) :=
  removals_allowed 600000000 0 _ (by decide +kernel)

end DockerGroups
end Services
end MpvmApp
