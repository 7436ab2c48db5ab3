import MpvmApp.Services.DockerInvariant

/-!
# The groups that runs refer to

MP VM gives no id twice, and the name of a managed group contains the id of its run.  What the
parties of a run know about its group, the name and the id if there is one, is therefore about no
other run.

Main definitions:

- `Run.held`: what the parties of a run know about the group.
- `Linked`: it belongs to the run.

Main results:

- Theorem `Linked.advance`: every action keeps to the group of its run.
- Theorem `groupsAfter_mono`: MP VM takes no id or name back.
-/

namespace MpvmApp
namespace Services
namespace DockerGroups

/-! ## Groups and their runs -/

/-- The group that a cleanup has read. -/
def CleanupPhase.group : CleanupPhase → Option DockerGroup
  | .checking _ group | .confirming _ group _ | .waiting group _ => some group
  | _ => none

/-- The id that a start request is about to store. -/
def LaunchPhase.groupId : LaunchPhase → Option GroupId
  | .reusing id | .storing id => some id
  | _ => none

/-- By what a group is looked up in MP VM. -/
def DockerGroup.key (g : DockerGroup) : String × String :=
  (g.id, g.name)

/-- What the parties of a run know about the group in MP VM. -/
def Run.held (x : Run) : Option (String × String) × Option (String × String) × Option GroupId :=
  (x.row.group.map DockerGroup.key, (x.cleanup.bind CleanupPhase.group).map DockerGroup.key,
    x.launch.bind LaunchPhase.groupId)

/-- The group of this id has been given the name of the group of the run. -/
def Given (groups : List RemoteGroup) (r : RunId) (id : String) : Prop :=
  ∃ rg ∈ groups, rg.id.text = id ∧ rg.name = r.groupName

/-- The id, if there is one, and the name are those of the run. -/
def Known (groups : List RemoteGroup) (r : RunId) (key : String × String) : Prop :=
  key.2 = r.groupName ∧ (key.1 ≠ "" → Given groups r key.1)

/-- The parties of a run know the group of this run only. -/
structure Linked (groups : List RemoteGroup) (r : RunId)
    (held : Option (String × String) × Option (String × String) × Option GroupId) : Prop where
  row : ∀ key ∈ held.1, Known groups r key
  read : ∀ key ∈ held.2.1, Known groups r key
  launch : ∀ id ∈ held.2.2, Given groups r id.text

section Links

variable {x : Run} {retention now : Int} {groups groups' : List RemoteGroup} {r : RunId}

theorem updateGroup_held (w : Write) {f : DockerGroup → DockerGroup}
    (hf : ∀ g, (f g).key = g.key) :
    (x.updateGroup w f).held = x.held := by
  unfold Run.updateGroup
  split
  · have hkey : DockerGroup.key ∘ f = DockerGroup.key := funext hf
    simp only [Run.held, Option.map_map, hkey]
  · rfl

theorem finish_held (w : Write) (status : RunStatus) :
    (x.finish w status).held = x.held := by
  unfold Run.finish
  split <;> rfl

theorem scheduleStep_held (x : Run) (retention now : Int) (w : Write) (phase : SchedulePhase) :
    (x.scheduleStep retention now w phase).1.held = x.held := by
  cases phase with
  | reading supplied finishedAt =>
      unfold Run.scheduleStep
      dsimp only
      split_ifs <;> rfl
  | writing scanFinishedAt cleanupAfter => exact updateGroup_held w fun _ => rfl
  | submitting =>
      simp only [Run.scheduleStep, Run.held]
      cases x.cleanup <;> rfl

/-- A coordinator knows no group itself. -/
theorem workStep_held (worker : Worker) (a : WorkAction) :
    (x.workStep retention now worker a).held = x.held := by
  cases a with
  | poll runs =>
      unfold Run.workStep
      dsimp only
      split <;> rfl
  | store w =>
      unfold Run.workStep
      dsimp only
      split
      · split
        · exact updateGroup_held (x := x) w fun _ => rfl
        · rfl
      · split
        · exact updateGroup_held (x := x) w fun _ => rfl
        · rfl
      · rename_i phase _
        have hheld := scheduleStep_held x retention now w phase
        split <;> rename_i hstep <;> rw [hstep] at hheld <;> exact hheld
      · rfl
  | progress seen w =>
      unfold Run.workStep
      dsimp only
      split
      · cases w <;> rfl
      · rfl
  | skip =>
      unfold Run.workStep
      dsimp only
      split <;> rfl
  | leave =>
      unfold Run.workStep
      dsimp only
      split
      · split_ifs <;> rfl
      · rfl
  | begin =>
      unfold Run.workStep
      dsimp only
      split <;> rfl
  | finish status w =>
      unfold Run.workStep
      dsimp only
      split
      · exact finish_held (x := x) w status.toStatus
      · rfl
  | close =>
      unfold Run.workStep
      dsimp only
      split <;> rfl
  | raise => rfl

theorem Given.mono {id : String} (h : Given groups r id)
    (hgroups : ∀ rg ∈ groups, ∃ rg' ∈ groups', rg'.id = rg.id ∧ rg'.name = rg.name) :
    Given groups' r id := by
  obtain ⟨rg, hrg, hid, hname⟩ := h
  obtain ⟨rg', hrg', hid', hname'⟩ := hgroups rg hrg
  exact ⟨rg', hrg', (congrArg GroupId.text hid').trans hid, hname'.trans hname⟩

theorem Linked.mono {held : Option (String × String) × Option (String × String) × Option GroupId}
    (h : Linked groups r held)
    (hgroups : ∀ rg ∈ groups, ∃ rg' ∈ groups', rg'.id = rg.id ∧ rg'.name = rg.name) :
    Linked groups' r held where
  row key hkey := ⟨(h.row key hkey).1, fun hne => ((h.row key hkey).2 hne).mono hgroups⟩
  read key hkey := ⟨(h.read key hkey).1, fun hne => ((h.read key hkey).2 hne).mono hgroups⟩
  launch id hid := (h.launch id hid).mono hgroups

theorem markRemoved_mono (groups : List RemoteGroup) (id : GroupId) :
    ∀ rg ∈ groups, ∃ rg' ∈ markRemoved groups id, rg'.id = rg.id ∧ rg'.name = rg.name := by
  intro rg hrg
  refine ⟨_, List.mem_map.2 ⟨rg, hrg, rfl⟩, ?_⟩
  split <;> exact ⟨rfl, rfl⟩

theorem addRemoteGroup_mono (groups : List RemoteGroup) (id : GroupId) (name : String) :
    ∀ rg ∈ groups, ∃ rg' ∈ addRemoteGroup groups id name, rg'.id = rg.id ∧ rg'.name = rg.name := by
  intro rg hrg
  refine ⟨rg, ?_, rfl, rfl⟩
  unfold addRemoteGroup
  split
  · exact hrg
  · exact List.mem_cons_of_mem _ hrg

/-- What an action does to the groups takes no id or name back. -/
theorem groupsAfter_mono (a : Action) :
    ∀ rg ∈ groups, ∃ rg' ∈ groupsAfter now groups r x a, rg'.id = rg.id ∧ rg'.name = rg.name := by
  unfold groupsAfter
  split
  · split
    · exact addRemoteGroup_mono groups _ _
    · exact fun rg hrg => ⟨rg, hrg, rfl, rfl⟩
  · split
    · split
      · exact markRemoved_mono groups _
      · exact fun rg hrg => ⟨rg, hrg, rfl, rfl⟩
    · exact fun rg hrg => ⟨rg, hrg, rfl, rfl⟩
  · exact fun rg hrg => ⟨rg, hrg, rfl, rfl⟩

theorem Linked.setLaunch (h : Linked groups r x.held) {q : Option LaunchPhase}
    (hq : ∀ id, q.bind LaunchPhase.groupId = some id → Given groups r id.text) :
    Linked groups r { x with launch := q }.held :=
  ⟨h.row, h.read, hq⟩

theorem Linked.setCleanup (h : Linked groups r x.held) {c : Option CleanupPhase}
    (hc : ∀ g, c.bind CleanupPhase.group = some g → Known groups r g.key) :
    Linked groups r { x with cleanup := c }.held := by
  refine ⟨h.row, fun key hkey => ?_, h.launch⟩
  obtain ⟨g, hg, rfl⟩ := Option.map_eq_some_iff.1 hkey
  exact hc g hg

theorem Linked.known_row (h : Linked groups r x.held) {g : DockerGroup}
    (hg : x.row.group = some g) :
    Known groups r g.key :=
  h.row _ (congrArg (Option.map DockerGroup.key) hg)

theorem Linked.known_read (h : Linked groups r x.held) {c : CleanupPhase} {g : DockerGroup}
    (hc : x.cleanup = some c) (hg : c.group = some g) :
    Known groups r g.key := by
  refine h.read _ ?_
  simp [Run.held, hc, hg]

theorem Linked.updateGroup (h : Linked groups r x.held) (w : Write) {f : DockerGroup → DockerGroup}
    (hf : ∀ g, x.row.group = some g → Known groups r (f g).key) :
    Linked groups r (x.updateGroup w f).held := by
  unfold Run.updateGroup
  split
  · refine ⟨fun key hkey => ?_, h.read, h.launch⟩
    obtain ⟨g', hg', rfl⟩ := Option.map_eq_some_iff.1 hkey
    obtain ⟨g, hg, rfl⟩ := Option.map_eq_some_iff.1 hg'
    exact hf g hg
  · exact h

theorem Linked.updateSame (h : Linked groups r x.held) (w : Write) {f : DockerGroup → DockerGroup}
    (hf : ∀ g, (f g).key = g.key) :
    Linked groups r (x.updateGroup w f).held := by
  rw [updateGroup_held w hf]
  exact h

theorem known_readyGroup {id : GroupId} (h : Given groups r id.text) (g : DockerGroup) :
    Known groups r (readyGroup r id g).key :=
  ⟨rfl, fun _ => h⟩

theorem findAssetGroup_name {id name : String} {rg : RemoteGroup}
    (h : findAssetGroup groups id name = some rg) :
    rg ∈ groups ∧ (id ≠ "" ∧ rg.id.text = id ∨ name ≠ "" ∧ rg.name = name) := by
  have hmem := List.mem_of_find?_eq_some h
  have hfound := List.find?_some h
  simp only [Bool.and_eq_true, Bool.or_eq_true, decide_eq_true_eq] at hfound
  exact ⟨hmem, hfound.2⟩

/-- A start request keeps to the group of its run. -/
theorem Linked.launchStep (h : Linked groups r x.held) (a : LaunchAction) :
    Linked (groupsAfter now groups r x (.launch a)) r
      (x.launchStep retention now groups r a).held := by
  cases a with
  | store w =>
      unfold Run.launchStep
      dsimp only
      split
      · split
        · exact h.setLaunch (by rintro _ ⟨⟩)
        · refine (h.updateGroup w fun g hg => ?_).setLaunch (by cases w <;> rintro _ ⟨⟩)
          exact ⟨rfl, (h.known_row hg).2⟩
      · rename_i id hp
        refine (h.updateGroup w fun g _ => ?_).setLaunch (by cases w <;> rintro _ ⟨⟩)
        exact known_readyGroup (h.launch id (by simp [Run.held, hp, LaunchPhase.groupId])) g
      · rename_i id hp
        refine (h.updateGroup w fun g _ => ?_).setLaunch (by cases w <;> rintro _ ⟨⟩)
        exact known_readyGroup (h.launch id (by simp [Run.held, hp, LaunchPhase.groupId])) g
      · refine (h.updateSame w fun g => ?_).setLaunch (by rintro _ ⟨⟩)
        rfl
      · split
        · exact h.setLaunch (by rintro _ ⟨⟩)
        · refine (h.updateSame w fun g => ?_).setLaunch (by cases w <;> rintro _ ⟨⟩)
          rfl
      · refine (h.updateSame w fun g => ?_).setLaunch (by rintro _ ⟨⟩)
        rfl
      · refine (h.updateSame w fun g => ?_).setLaunch (by rintro _ ⟨⟩)
        rfl
      · rename_i phase _
        have hheld := scheduleStep_held x retention now w phase
        split <;> rename_i hstep <;> rw [hstep] at hheld <;>
          exact (hheld ▸ h).setLaunch (by rintro _ ⟨⟩)
      · have hheld := finish_held (x := x) w .failed
        exact (hheld ▸ h).setLaunch (by rintro _ ⟨⟩)
      · exact h
  | lookUp =>
      unfold Run.launchStep
      dsimp only
      split
      · split
        · rename_i rg hfound
          refine h.setLaunch fun id hid => ?_
          cases hid
          obtain ⟨hmem, ⟨hne, _⟩ | ⟨_, hname⟩⟩ := findAssetGroup_name hfound
          · exact absurd rfl hne
          · exact ⟨rg, hmem, rfl, hname⟩
        · exact h.setLaunch (by rintro _ ⟨⟩)
      · exact h
  | create id returned =>
      by_cases hp : x.launch = some .creating
      · simp only [Run.launchStep, groupsAfter, addRemoteGroup, hp, if_true]
        split
        · exact h
        · have hmore : ∀ rg ∈ groups, ∃ rg' ∈ ({ id := id, name := r.groupName } :: groups :
              List RemoteGroup), rg'.id = rg.id ∧ rg'.name = rg.name :=
            fun rg hrg => ⟨rg, List.mem_cons_of_mem _ hrg, rfl, rfl⟩
          refine (h.mono hmore).setLaunch fun id' hid' => ?_
          cases returned with
          | false => cases hid'
          | true =>
              cases hid'
              exact ⟨_, List.mem_cons_self, rfl, rfl⟩
      · have hsame : x.launchStep retention now groups r (.create id returned) = x := by
          unfold Run.launchStep
          dsimp only
          split
          · rename_i hcreating
            exact absurd hcreating hp
          · rfl
        rw [hsame, groupsAfter, if_neg hp]
        exact h
  | start =>
      unfold Run.launchStep
      dsimp only
      split
      · exact ⟨h.row, h.read, by rintro _ ⟨⟩⟩
      · exact h
  | answer returned =>
      unfold Run.launchStep
      dsimp only
      split
      · exact h.setLaunch (by cases returned <;> rintro _ ⟨⟩)
      · exact h
  | read =>
      unfold Run.launchStep
      dsimp only
      split
      · split
        · exact h.setLaunch (by cases dockerDynamicGroupFromOptions x.row.group <;> rintro _ ⟨⟩)
        · exact h.setLaunch (by rintro _ ⟨⟩)
      · exact h
  | raise =>
      unfold Run.launchStep
      dsimp only
      split
      · exact h.setLaunch (by rintro _ ⟨⟩)
      · exact h.setLaunch (by rintro _ ⟨⟩)
      · exact h.setLaunch (by rintro _ ⟨⟩)
      · exact h

/-- A cleanup keeps to the group of its run. -/
theorem Linked.cleanStep (h : Linked groups r x.held) {phase : CleanupPhase}
    (hc : x.cleanup = some phase) (a : CleanAction) :
    Linked groups r (x.cleanStep retention now groups phase a).held := by
  cases a with
  | read =>
      unfold Run.cleanStep
      dsimp only
      split
      · split
        · exact h.setCleanup (by rintro _ ⟨⟩)
        · rename_i group hgroup
          split_ifs
          · exact h.setCleanup (by rintro _ ⟨⟩)
          · exact h
          · refine h.setCleanup fun g hg => ?_
            cases hg
            exact h.known_row (Option.filter_eq_some_iff.1 hgroup).1
      · exact h
  | confirm runs =>
      unfold Run.cleanStep
      dsimp only
      split
      · rename_i row group
        have hknown := h.known_read hc rfl
        have hobserved : Linked groups r
            (if group.needsTerminalCheck = true then x.observe runs else x).held := by
          split <;> exact h
        refine hobserved.setCleanup fun g hg => ?_
        rw [Option.bind_some] at hg
        split at hg
        · rename_i hready
          cases hg
          rw [(confirm_ready hready).1]
          exact hknown
        · cases hg
          exact hknown
        · cases hg
        · cases hg
      · exact h
  | store w =>
      unfold Run.cleanStep
      dsimp only
      split
      · rename_i row group terminalAt
        have hknown := h.known_read hc rfl
        refine (h.updateSame w fun g => ?_).setCleanup fun g hg => ?_
        · rfl
        · cases w with
          | done =>
              cases hg
              exact hknown
          | lost => cases hg
          | unsure => cases hg
      · refine (h.updateSame w fun g => ?_).setCleanup (by cases w <;> rintro _ ⟨⟩)
        rfl
      · exact h
  | remove applied returned =>
      unfold Run.cleanStep
      dsimp only
      split
      · split
        · exact h.setCleanup (by rintro _ ⟨⟩)
        · split_ifs
          · exact h
          · exact h.setCleanup (by rintro _ ⟨⟩)
          · exact h.setCleanup (by rintro _ ⟨⟩)
      · exact h
  | raise => exact h.setCleanup (by rintro _ ⟨⟩)
  | stop => exact h.setCleanup (by rintro _ ⟨⟩)

/-- Every action keeps to the group of its run. -/
theorem Linked.advance (h : Linked groups r x.held) (a : Action) :
    Linked (groupsAfter now groups r x a) r (x.advance retention now groups r a).held := by
  cases a with
  | launch a => exact h.launchStep a
  | claim =>
      unfold Run.advance Run.claim
      dsimp only
      split <;> exact h
  | work a =>
      unfold Run.advance
      dsimp only
      split
      · rename_i worker _
        rw [workStep_held worker a]
        exact h
      · exact h
  | cancel =>
      unfold Run.advance Run.cancel
      dsimp only
      split <;> exact h
  | release =>
      unfold Run.advance
      dsimp only
      split <;> exact h
  | resume =>
      unfold Run.advance
      dsimp only
      split <;> exact h
  | schedule place w =>
      unfold Run.advance
      dsimp only
      split
      · rename_i phase _
        have hheld := scheduleStep_held x retention now w phase
        split <;> rename_i hstep <;> rw [hstep] at hheld <;> exact (hheld ▸ h :)
      · exact h
  | clean a =>
      refine Linked.mono ?_ (groupsAfter_mono (.clean a))
      unfold Run.advance
      dsimp only
      split
      · rename_i phase hc
        exact h.cleanStep hc a
      · exact h

end Links

end DockerGroups
end Services
end MpvmApp
