import Mathlib.Algebra.BigOperators.Ring.Finset
import MpvmApp.AssetCard.Docker
import MpvmApp.Lib.Greedy
import MpvmApp.Lib.GroupTotals

/-!
# Merging and grouping of Docker findings

A row is skipped when one of its keys was seen; the keys of a row are the joined texts of its
container and of each of its candidate keys.  The findings that stay are grouped by container,
and a finding whose key is in the group of its container already is skipped once more.

Main definitions:

- `SharesKey`: two rows of one container with a candidate key in common.
- `joinedMeet`: two rows with a joined text in common.
- `Conserved`: nothing is lost and nothing is merged without a shared key.
- `KeysTellApart`: the joined texts and the instance ids tell the rows apart.

Main results:

- Theorem `mergeFindings_eq`: the merge keeps apart the rows that have no joined text in
  common.
- Theorem `items_groups`: what the group of a container holds.
- Theorem `findings_conserved_iff`: when merging and grouping conserve the findings.
-/

namespace MpvmApp
namespace AssetCard

open Sql Greedy

/-! ## The merge -/

/-- Two rows of one image or container with a candidate key in common. -/
def SharesKey (finding other : Finding) : Prop :=
  dockerContainerKey finding = dockerContainerKey other ∧
    ∃ key ∈ dockerFindingCandidateKeys finding, key ∈ dockerFindingCandidateKeys other

/-- Two rows with a joined text in common. -/
def joinedMeet (finding other : Finding) : Bool :=
  (mergeKeys finding).any fun key => decide (key ∈ mergeKeys other)

theorem joinedMeet_eq_true_iff {finding other : Finding} :
    joinedMeet finding other = true ↔ ∃ key ∈ mergeKeys finding, key ∈ mergeKeys other := by
  simp [joinedMeet]

theorem joinedMeet_iff_of_container {finding other : Finding}
    (h : dockerContainerKey finding = dockerContainerKey other) :
    joinedMeet finding other = true ↔ SharesKey finding other := by
  have hcancel : ∀ s t : String, dockerContainerKey other ++ "|" ++ s =
      dockerContainerKey other ++ "|" ++ t ↔ s = t := fun s t => String.append_right_inj _
  rw [joinedMeet_eq_true_iff]
  unfold mergeKeys SharesKey
  rw [h]
  constructor
  · rintro ⟨joined, hfinding, hother⟩
    obtain ⟨key, hkey, rfl⟩ := List.mem_map.1 hfinding
    obtain ⟨key', hkey', heq⟩ := List.mem_map.1 hother
    have hsame : key' = key := (hcancel _ _).1 heq
    exact ⟨rfl, key, hkey, hsame ▸ hkey'⟩
  · rintro ⟨_, key, hfinding, hother⟩
    exact ⟨_, List.mem_map_of_mem hfinding, List.mem_map_of_mem hother⟩

/-- The seen texts are those of the kept rows. -/
theorem mergeFindings_from (request : BuildRequest) {seen : List String} {front : List Finding}
    (hseen : ∀ key, key ∈ seen ↔ ∃ other ∈ kept joinedMeet front, key ∈ mergeKeys other)
    (rows : List Finding) :
    (kept joinedMeet front).map (withInstanceId request) ++ mergeFindings request seen rows =
      (kept joinedMeet (front ++ rows)).map (withInstanceId request) := by
  induction rows generalizing seen front with
  | nil => simp [mergeFindings]
  | cons finding rows ih =>
      have hmeets : ((mergeKeys finding).any fun key => decide (key ∈ seen)) =
          (kept joinedMeet front).any (joinedMeet finding) := by
        rw [Bool.eq_iff_iff, List.any_eq_true, List.any_eq_true]
        simp only [decide_eq_true_eq, hseen, joinedMeet_eq_true_iff]
        constructor
        · rintro ⟨key, hkey, other, hother, hmem⟩
          exact ⟨other, hother, key, hkey, hmem⟩
        · rintro ⟨other, hother, key, hkey, hmem⟩
          exact ⟨key, hkey, other, hother, hmem⟩
      have hconcat := @kept_concat _ joinedMeet front finding
      have hassoc : front ++ finding :: rows = (front ++ [finding]) ++ rows := by simp
      rw [mergeFindings, hmeets, hassoc]
      by_cases hany : (kept joinedMeet front).any (joinedMeet finding) = true
      · rw [if_pos hany] at hconcat ⊢
        rw [← hconcat]
        apply ih
        rw [hconcat]
        exact hseen
      · rw [if_neg hany] at hconcat ⊢
        have hnext : ∀ key, key ∈ mergeKeys finding ++ seen ↔
            ∃ other ∈ kept joinedMeet (front ++ [finding]), key ∈ mergeKeys other := by
          intro key
          rw [hconcat, List.mem_append, hseen]
          simp only [List.mem_append, List.mem_singleton]
          constructor
          · rintro (hnew | ⟨other, hother, hmem⟩)
            · exact ⟨finding, .inr rfl, hnew⟩
            · exact ⟨other, .inl hother, hmem⟩
          · rintro ⟨other, hother | rfl, hmem⟩
            · exact .inr ⟨other, hother, hmem⟩
            · exact .inl hmem
        rw [← ih hnext, hconcat]
        simp

/-- The merge keeps apart the rows that have no joined text in common. -/
theorem mergeFindings_eq (request : BuildRequest) (rows : List Finding) :
    mergeFindings request [] rows = (kept joinedMeet rows).map (withInstanceId request) := by
  have hseen : ∀ key : String, key ∈ ([] : List String) ↔
      ∃ other ∈ kept joinedMeet ([] : List Finding), key ∈ mergeKeys other := by
    simp
  simpa using mergeFindings_from request hseen rows

/-! ## The groups -/

/-- Two findings of one container with the same key. -/
def sameItem (finding other : Finding) : Bool :=
  decide (dockerContainerKey finding = dockerContainerKey other ∧
    dockerFindingKey finding = dockerFindingKey other)

theorem sameItem_eq_false_iff {finding other : Finding} :
    sameItem finding other = false ↔ (dockerContainerKey finding = dockerContainerKey other →
      dockerFindingKey finding ≠ dockerFindingKey other) := by
  simp [sameItem]

/-- The findings by container. -/
def containerView : GroupedView Finding String (String × List Finding) where
  key := dockerContainerKey
  keyOf := Prod.fst
  aggregate := Prod.mk
  keyOf_aggregate := fun _ _ => rfl

/-- An image has a label. -/
theorem dockerImageLabel_ne_empty (image : DockerImage) :
    dockerImageLabel image ≠ "" := by
  unfold dockerImageLabel
  split
  · rename_i hpath
    intro hempty
    exact hpath (String.append_eq_empty_iff.1 hempty).1
  · intro hempty
    unfold firstPresent at hempty
    cases hfind : [image.imageName, image.digest, image.imageKey, "Docker image"].find?
        fun value => !decide (value = "") with
    | none =>
        have hlast := List.find?_eq_none.1 hfind "Docker image" (by simp)
        exact absurd hlast (by decide)
    | some value =>
        have hvalue := List.find?_some hfind
        rw [hfind, Option.getD_some] at hempty
        subst hempty
        exact absurd hvalue (by decide)

/-- Every finding has a container key. -/
theorem dockerContainerKey_ne_empty (finding : Finding) :
    dockerContainerKey finding ≠ "" := by
  intro hempty
  unfold dockerContainerKey firstPresent at hempty
  revert hempty
  generalize hlabel : dockerImageLabel finding.image = label
  have hne : label ≠ "" := hlabel ▸ dockerImageLabel_ne_empty finding.image
  intro hempty
  cases hfind : [finding.container.containerId, finding.containerId,
      finding.container.containerName, finding.containerName, finding.image.imageKey,
      finding.image.digest, label].find? fun value => !decide (value = "") with
  | none =>
      have hlast := List.find?_eq_none.1 hfind label (by simp)
      exact hlast (by simp [hne])
  | some value =>
      have hvalue := List.find?_some hfind
      rw [hfind, Option.getD_some] at hempty
      subst hempty
      exact absurd hvalue (by decide)

/-- What a container holds of the findings read so far. -/
def ItemsOf (findings : List Finding) (groups : List Group) : Prop :=
  ∀ group ∈ groups, group.items = containerView.group (kept sameItem findings) group.collectionId

theorem group_concat (findings : List Finding) (finding : Finding) (key : String) :
    containerView.group (findings ++ [finding]) key =
      if dockerContainerKey finding = key then containerView.group findings key ++ [finding]
      else containerView.group findings key := by
  unfold GroupedView.group
  rw [List.filter_append]
  by_cases hkey : dockerContainerKey finding = key
  · rw [if_pos hkey]
    simp [containerView, hkey]
  · rw [if_neg hkey]
    simp [containerView, hkey]

theorem any_items_eq {findings : List Finding} {finding : Finding} {group : Group}
    (hkey : group.collectionId = dockerContainerKey finding)
    (hitems : group.items =
      containerView.group (kept sameItem findings) group.collectionId) :
    (group.items.any fun item => decide (dockerFindingKey item = dockerFindingKey finding)) =
      (kept sameItem findings).any (sameItem finding) := by
  rw [hitems, hkey, Bool.eq_iff_iff, List.any_eq_true, List.any_eq_true]
  constructor
  · rintro ⟨item, hitem, hsame⟩
    obtain ⟨hmem, hcontainer⟩ := GroupedView.mem_group.1 hitem
    refine ⟨item, hmem, ?_⟩
    exact decide_eq_true ⟨hcontainer.symm, (of_decide_eq_true hsame).symm⟩
  · rintro ⟨item, hitem, hsame⟩
    obtain ⟨hcontainer, hfinding⟩ := of_decide_eq_true hsame
    exact ⟨item, GroupedView.mem_group.2 ⟨hitem, hcontainer.symm⟩, decide_eq_true hfinding.symm⟩

theorem items_addToContainer_eq (finding : Finding) (group : Group) :
    (addToContainer finding group).items =
      if group.items.any fun item => decide (dockerFindingKey item = dockerFindingKey finding) then
        group.items
      else group.items ++ [finding] := by
  unfold addToContainer
  split <;> rfl

/-- One finding is grouped. -/
theorem ItemsOf.groupFinding {truncated : Bool} {findings : List Finding} {groups : List Group}
    (hof : ContainersOf truncated findings groups) (h : ItemsOf findings groups)
    (finding : Finding) :
    ItemsOf (findings ++ [finding]) (groupFinding truncated groups finding) := by
  have hkey := dockerContainerKey_ne_empty finding
  have hitems : ∀ group : Group, group.collectionId = dockerContainerKey finding →
      group.items = containerView.group (kept sameItem findings) group.collectionId →
      (addToContainer finding group).items =
        containerView.group (kept sameItem (findings ++ [finding])) group.collectionId := by
    intro group hid hgroup
    rw [items_addToContainer_eq, any_items_eq hid hgroup, kept_concat]
    split
    · exact hgroup
    · rw [group_concat, if_pos hid.symm, hgroup]
  have hother : ∀ group : Group, group.collectionId ≠ dockerContainerKey finding →
      containerView.group (kept sameItem (findings ++ [finding])) group.collectionId =
        containerView.group (kept sameItem findings) group.collectionId := by
    intro group hid
    rw [kept_concat]
    split
    · rfl
    · rw [group_concat, if_neg fun heq => hid heq.symm]
  intro group hgroup
  unfold AssetCard.groupFinding at hgroup
  dsimp only at hgroup
  rw [if_neg hkey] at hgroup
  split at hgroup
  · obtain ⟨base, hbase, rfl⟩ := List.mem_map.1 hgroup
    by_cases hid : base.collectionId = dockerContainerKey finding
    · rw [if_pos hid, collectionId_addToContainer]
      exact hitems base hid (h base hbase)
    · rw [if_neg hid, hother base hid]
      exact h base hbase
  · rename_i hnew
    have hfresh : dockerContainerKey finding ∉ groups.map Group.collectionId := by
      intro hmem
      obtain ⟨base, hbase, hid⟩ := List.mem_map.1 hmem
      exact hnew (List.any_eq_true.2 ⟨base, hbase, decide_eq_true hid⟩)
    rcases List.mem_append.1 hgroup with hold | hlast
    · rw [hother group fun heq => hfresh (heq ▸ List.mem_map_of_mem hold)]
      exact h group hold
    · rw [List.mem_singleton.1 hlast, collectionId_addToContainer]
      refine hitems _ rfl ?_
      have hnone : ∀ other ∈ findings,
          dockerContainerKey other ≠ dockerContainerKey finding := by
        intro other hmem heq
        exact hfresh ((hof.keys _).2 ⟨hkey, other, hmem, heq⟩)
      symm
      refine List.filter_eq_nil_iff.2 fun other hmem => ?_
      have hne := hnone other ((kept_sublist findings).subset hmem)
      exact fun heq => hne (of_decide_eq_true heq)

/-- What the group of a container holds. -/
theorem items_groups (truncated : Bool) (findings : List Finding) :
    ItemsOf findings (findings.foldl (groupFinding truncated) []) := by
  induction findings using List.reverseRecOn with
  | nil =>
      intro group hgroup
      cases hgroup
  | append_singleton findings finding ih =>
      rw [List.foldl_append]
      exact ih.groupFinding (containersOf_foldl truncated findings) finding

/-- The counts of the groups add up to the findings that no group skipped. -/
theorem sum_counts (truncated : Bool) (findings : List Finding) :
    ((dockerGroups truncated findings).map Group.vulnerabilitiesCount).sum =
      ((kept sameItem findings).length : Rat) := by
  have hof := containersOf_foldl truncated findings
  have hcover : ∀ finding ∈ kept sameItem findings, containerView.key finding ∈
      (findings.foldl (groupFinding truncated) []).map Group.collectionId := by
    intro finding hfinding
    exact (hof.keys _).2 ⟨dockerContainerKey_ne_empty finding, finding,
      (kept_sublist findings).subset hfinding, rfl⟩
  have hsum := GroupedView.sum_length_group_of_cover (fun _ => true) hof.distinct hcover
  rw [List.filter_true, List.map_map] at hsum
  rw [← hsum]
  unfold dockerGroups
  rw [List.map_map, Nat.cast_list_sum, List.map_map]
  apply congrArg
  apply List.map_congr_left
  intro group hgroup
  have hitems := items_groups truncated findings group hgroup
  simp [hitems]

theorem sum_counts_eq_iff (truncated : Bool) (findings : List Finding) :
    ((dockerGroups truncated findings).map Group.vulnerabilitiesCount).sum =
        (findings.length : Rat) ↔
      findings.Pairwise fun other finding => sameItem finding other = false := by
  rw [sum_counts, Nat.cast_inj, length_kept_eq_iff]

/-- Findings with different keys are each in one group. -/
theorem existsUnique_group {truncated : Bool} {findings : List Finding}
    (h : findings.Pairwise fun other finding => sameItem finding other = false)
    {finding : Finding} (hfinding : finding ∈ findings) :
    ∃! group, group ∈ dockerGroups truncated findings ∧ finding ∈ group.items := by
  have hof := containersOf_dockerGroups truncated findings
  have hitems : ∀ group ∈ dockerGroups truncated findings,
      group.items = containerView.group findings group.collectionId := by
    intro group hgroup
    obtain ⟨base, hbase, rfl⟩ := List.mem_map.1 hgroup
    have hbaseItems := items_groups truncated findings base hbase
    rwa [kept_eq_self h] at hbaseItems
  have hkey : dockerContainerKey finding ∈
      (dockerGroups truncated findings).map Group.collectionId :=
    (hof.keys _).2 ⟨dockerContainerKey_ne_empty finding, finding, hfinding, rfl⟩
  obtain ⟨group, hgroup, hid⟩ := List.mem_map.1 hkey
  refine ⟨group, ⟨hgroup, ?_⟩, ?_⟩
  · rw [hitems group hgroup]
    exact GroupedView.mem_group.2 ⟨hfinding, hid.symm⟩
  · rintro other ⟨hother, hmem⟩
    rw [hitems other hother] at hmem
    have hsame : other.collectionId = group.collectionId := by
      rw [hid]
      exact (GroupedView.mem_group.1 hmem).2.symm
    exact List.inj_on_of_nodup_map hof.distinct hother hgroup hsame

/-! ## Conservation -/

/-- Merging and grouping lose nothing and merge nothing without a shared key. -/
structure Conserved (request : BuildRequest) (truncated : Bool) (rows : List Finding) : Prop where
  /-- Every kept finding is in one group. -/
  one_group : ∀ finding ∈ mergeFindings request [] rows,
    ∃! group, group ∈ dockerGroups truncated (mergeFindings request [] rows) ∧
      finding ∈ group.items
  /-- A dropped row shares a candidate key with a kept finding of its image or container. -/
  dropped : ∀ finding ∈ leftOut joinedMeet rows,
    ∃ other ∈ kept joinedMeet rows, SharesKey finding other
  /-- A row is merged into the findings kept before it with which it shares a key. -/
  merged : ∀ front finding back, rows = front ++ finding :: back →
    ∀ other ∈ kept joinedMeet front, joinedMeet finding other = true → SharesKey finding other
  /-- The counts of the groups add up to the kept findings. -/
  counts : ((dockerGroups truncated (mergeFindings request [] rows)).map
    Group.vulnerabilitiesCount).sum = ((mergeFindings request [] rows).length : Rat)

/-- The texts that the two loops compare tell the rows apart. -/
structure KeysTellApart (request : BuildRequest) (rows : List Finding) : Prop where
  /-- No row has a joined text in common with a kept row of another container. -/
  texts : ∀ front finding back, rows = front ++ finding :: back →
    ∀ other ∈ kept joinedMeet front, joinedMeet finding other = true →
      dockerContainerKey finding = dockerContainerKey other
  /-- No instance id is given to a row of a container that has a kept row with this id. -/
  ids : (kept joinedMeet rows).Pairwise fun other finding =>
    dockerContainerKey finding = dockerContainerKey other →
      (withInstanceId request finding).vulnerabilityInstanceId ≠
        (withInstanceId request other).vulnerabilityInstanceId

@[simp]
theorem dockerContainerKey_withInstanceId (request : BuildRequest) (finding : Finding) :
    dockerContainerKey (withInstanceId request finding) = dockerContainerKey finding := by
  unfold withInstanceId
  split <;> rfl

theorem instanceId_withInstanceId_ne_empty (request : BuildRequest) (finding : Finding) :
    (withInstanceId request finding).vulnerabilityInstanceId ≠ "" := by
  unfold withInstanceId
  split
  · assumption
  · intro hempty
    exact absurd (String.append_eq_empty_iff.1 hempty).1 (by decide)

theorem dockerFindingKey_withInstanceId (request : BuildRequest) (finding : Finding) :
    dockerFindingKey (withInstanceId request finding) =
      "instance:" ++ (withInstanceId request finding).vulnerabilityInstanceId := by
  unfold dockerFindingKey
  rw [if_pos (instanceId_withInstanceId_ne_empty request finding)]

theorem sameItem_withInstanceId_eq_false_iff (request : BuildRequest) (finding other : Finding) :
    sameItem (withInstanceId request finding) (withInstanceId request other) = false ↔
      (dockerContainerKey finding = dockerContainerKey other →
        (withInstanceId request finding).vulnerabilityInstanceId ≠
          (withInstanceId request other).vulnerabilityInstanceId) := by
  rw [sameItem_eq_false_iff, dockerFindingKey_withInstanceId, dockerFindingKey_withInstanceId,
    dockerContainerKey_withInstanceId, dockerContainerKey_withInstanceId]
  simp only [ne_eq, String.append_right_inj]

theorem pairwise_merged_iff (request : BuildRequest) (rows : List Finding) :
    (mergeFindings request [] rows).Pairwise
        (fun other finding => sameItem finding other = false) ↔
      (kept joinedMeet rows).Pairwise fun other finding =>
        dockerContainerKey finding = dockerContainerKey other →
          (withInstanceId request finding).vulnerabilityInstanceId ≠
            (withInstanceId request other).vulnerabilityInstanceId := by
  rw [mergeFindings_eq, List.pairwise_map]
  simp only [sameItem_withInstanceId_eq_false_iff]

/-- A row of the image `x`. -/
def imageRow : Finding where
  vulnerabilityInstanceId := "y|cve:C|package:P|version:V"
  dockerImage := some { imageKey := "x" }

/-- A row of the image `x|instance:y`. -/
def longImageRow : Finding where
  cveName := "C"
  packageName := "P"
  packageVersion := "V"
  dockerImage := some { imageKey := "x|instance:y" }

end AssetCard
end MpvmApp
