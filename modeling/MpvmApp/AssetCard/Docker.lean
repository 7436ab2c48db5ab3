import MpvmApp.AssetCard.Snapshot

/-!
# Docker findings of an asset card

The Docker source of a card comes from the pages of a query, or, when these give no
finding, from the software findings that name an image.  The findings are grouped
by container.

Main definitions:

- `extractDockerFallback`: the software findings that name an image are moved.
- `dockerPdql`: the pages of the Docker query.
- `dockerGroups`: the findings by container.

Main results:

- Theorem `containersOf_dockerGroups`: every container gets the flag of the query and
  stands for a finding.
-/

namespace MpvmApp
namespace AssetCard

open Sql

/-! ## Keys of findings -/

/-- `clean_text(first_present(..))` of texts. -/
def firstPresent (values : List String) : String :=
  (values.find? fun value => !decide (value = "")).getD ""

/-- `as_dict(finding.get("docker_image"))`. -/
def Finding.image (finding : Finding) : DockerImage :=
  finding.dockerImage.getD {}

/-- `as_dict(finding.get("docker_container"))`. -/
def Finding.container (finding : Finding) : DockerContainer :=
  finding.dockerContainer.getD {}

/-- The parts that are not empty, joined by slashes. -/
def DockerImage.path (image : DockerImage) : String :=
  String.intercalate "/" ([image.registry, image.repository].filter fun part => !decide (part = ""))

/-- `_docker_image_label`. -/
def dockerImageLabel (image : DockerImage) : String :=
  if image.path ≠ "" then
    image.path ++ (if image.tag ≠ "" then ":" ++ image.tag else "")
  else
    firstPresent [image.imageName, image.digest, image.imageKey, "Docker image"]

/-- `_docker_container_key`. -/
def dockerContainerKey (finding : Finding) : String :=
  firstPresent
    [finding.container.containerId, finding.containerId, finding.container.containerName,
      finding.containerName, finding.image.imageKey, finding.image.digest,
      dockerImageLabel finding.image]

/-- `_docker_container_label`. -/
def dockerContainerLabel (finding : Finding) : String :=
  firstPresent
    [finding.container.containerName, finding.containerName, finding.container.containerId,
      finding.containerId, dockerImageLabel finding.image, "Docker container"]

/-- The key of a finding by an identifier and its package. -/
def packageKey (mark identifier : String) (finding : Finding) : String :=
  mark ++ identifier ++ "|package:" ++ finding.packageName ++ "|version:" ++
    finding.packageVersion

/-- `_docker_finding_key`. -/
def dockerFindingKey (finding : Finding) : String :=
  if finding.vulnerabilityInstanceId ≠ "" then "instance:" ++ finding.vulnerabilityInstanceId
  else if finding.vulnerabilityId ≠ "" then
    packageKey "vulnerability:" finding.vulnerabilityId finding
  else packageKey "cve:" finding.cveName finding

/-- `_docker_finding_candidate_keys`. -/
def dockerFindingCandidateKeys (finding : Finding) : List String :=
  let keys :=
    (if finding.vulnerabilityInstanceId ≠ "" then
      ["instance:" ++ finding.vulnerabilityInstanceId] else []) ++
    (if finding.vulnerabilityId ≠ "" then
      [packageKey "vulnerability:" finding.vulnerabilityId finding] else []) ++
    (if finding.cveName ≠ "" then [packageKey "cve:" finding.cveName finding] else [])
  if keys = [] then [dockerFindingKey finding] else keys

/-! ## Findings moved from the software source -/

/-- The finding names an image. -/
def namesImage (finding : Finding) : Bool :=
  finding.dockerImage.any fun image =>
    !decide (image.imageKey = "") || !decide (image.digest = "") || !decide (image.repository = "")

/-- A software group without the findings that name an image. -/
def retainGroup (group : Group) : Group :=
  let retained := group.items.filter fun finding => !namesImage finding
  { group with
    items := retained
    vulnerabilitiesCount :=
      if group.items ≠ [] then (retained.length : Rat) else group.vulnerabilitiesCount }

/-- A software group is kept unless all of its findings were moved. -/
def keepsGroup (group : Group) : Bool :=
  group.items.any (fun finding => !namesImage finding) || group.items.isEmpty

/-- `_extract_docker_fallback`: the software groups that stay and the moved findings. -/
def extractDockerFallback (software : List Group) : List Group × List Finding :=
  ((software.filter keepsGroup).map retainGroup,
    software.flatMap fun group => group.items.filter namesImage)

/-! ## Pages of the Docker query -/

/-- What the pages of the Docker query gave. -/
structure DockerOutcome where
  primary : List Finding
  truncated : Bool := false
  warning : Option String := none
deriving DecidableEq

/-- A row is kept when it names a vulnerability. -/
def DockerRow.keeps (row : DockerRow) : Bool :=
  row.rawVulnerability || !decide (row.finding.vulnerabilityId = "") ||
    !decide (row.finding.cveName = "")

/-- The handler of the exceptions of the query. -/
def dockerFailure (primary : List Finding) (message : String) : DockerOutcome where
  primary := primary
  truncated := !primary.isEmpty
  warning := some ("Docker container PDQL is unavailable: " ++ message)

/-- The page loop of the Docker query; `fuel` bounds its rounds. -/
def dockerPageLoop (maxItems : Nat) (pages : Nat → Except String DockerPage) :
    Nat → Nat → Nat → Option Int → List Finding → DockerOutcome
  | 0, _, _, _, primary => { primary := primary }
  | fuel + 1, number, offset, reported, primary =>
      if offset < maxItems then
        match pages number with
        | .error message => dockerFailure primary message
        | .ok page =>
            let primary := primary ++ (page.rows.filter DockerRow.keeps).map DockerRow.finding
            let reported := page.total.or reported
            let next := offset + page.rows.length
            if page.rows = [] then
              { primary := primary
                truncated := reported.any fun total => decide ((offset : Int) < total) }
            else
              match reported with
              | some total =>
                  if total ≤ next then { primary := primary }
                  else if maxItems ≤ next then
                    { primary := primary, truncated := decide ((maxItems : Int) < total) }
                  else dockerPageLoop maxItems pages fuel (number + 1) next reported primary
              | none =>
                  if page.rows.length < min 1001 (maxItems - offset) then { primary := primary }
                  else if maxItems ≤ next then { primary := primary, truncated := true }
                  else dockerPageLoop maxItems pages fuel (number + 1) next reported primary
      else
        { primary := primary }

/-- The Docker query: its token, its header and its pages. -/
def dockerPdql (request : BuildRequest) (answers : Answers) : DockerOutcome :=
  match answers.dockerToken, answers.dockerHeader with
  | .error message, _ => dockerFailure [] message
  | .ok _, .error message => dockerFailure [] message
  | .ok _, .ok _ =>
      dockerPageLoop request.maxItems answers.dockerPages request.maxItems 0 0 none []

/-- The page loop ends before its bound is used up. -/
theorem dockerPageLoop_fuel (maxItems : Nat) (pages : Nat → Except String DockerPage)
    {fuel number offset : Nat} {reported : Option Int} {primary : List Finding}
    (h : maxItems ≤ offset + fuel) :
    dockerPageLoop maxItems pages (fuel + 1) number offset reported primary =
      dockerPageLoop maxItems pages fuel number offset reported primary := by
  induction fuel generalizing number offset reported primary with
  | zero =>
      have hfull : ¬ offset < maxItems := by omega
      simp [dockerPageLoop, hfull]
  | succ fuel ih =>
      rw [dockerPageLoop, dockerPageLoop.eq_def maxItems pages (fuel + 1)]
      by_cases hroom : offset < maxItems
      · simp only [if_pos hroom]
        cases pages number with
        | error message => rfl
        | ok page =>
            dsimp only
            by_cases hempty : page.rows = []
            · simp only [if_pos hempty]
            · have hlength : page.rows.length ≠ 0 := fun hzero =>
                hempty (List.length_eq_zero_iff.1 hzero)
              have hnext : maxItems ≤ offset + page.rows.length + fuel := by omega
              simp only [if_neg hempty, ih hnext]
      · simp only [if_neg hroom]

/-! ## Groups of containers -/

/-- Give a finding without an instance id one of its own. -/
def withInstanceId (request : BuildRequest) (finding : Finding) : Finding :=
  if finding.vulnerabilityInstanceId ≠ "" then finding
  else
    { finding with
      vulnerabilityInstanceId :=
        "docker:" ++ request.uuid5 (dockerContainerKey finding ++ "|" ++ dockerFindingKey finding) }

/-- The keys under which a finding is compared with the earlier ones. -/
def mergeKeys (finding : Finding) : List String :=
  (dockerFindingCandidateKeys finding).map fun key => dockerContainerKey finding ++ "|" ++ key

/-- Skip the findings that share a key with an earlier one. -/
def mergeFindings (request : BuildRequest) : List String → List Finding → List Finding
  | _, [] => []
  | seen, finding :: findings =>
      if (mergeKeys finding).any fun key => decide (key ∈ seen) then
        mergeFindings request seen findings
      else
        withInstanceId request finding ::
          mergeFindings request (mergeKeys finding ++ seen) findings

/-- The order of severities in a group of a container. -/
def severityRank (level : String) : Nat :=
  if level = "critical" then 4
  else if level = "high" then 3
  else if level = "medium" then 2
  else if level = "low" then 1
  else 0

/-- The level of a finding in lower case; the ranks compare ASCII words only. -/
def lowerLevel (level : Option String) : String :=
  String.ofList ((level.getD "").toList.map Char.toLower)

/-- A container without findings. -/
def emptyContainer (truncated : Bool) (key : String) (finding : Finding) (order : Nat) : Group where
  collectionId := key
  name := dockerContainerLabel finding
  level := none
  vulnerabilitiesCount := 0
  cvssScore := none
  order := order
  items := []
  truncated := truncated
  image := finding.dockerImage
  container := finding.dockerContainer

/-- Add a finding to its container; a repeated finding is skipped. -/
def addToContainer (finding : Finding) (group : Group) : Group :=
  if group.items.any fun item => decide (dockerFindingKey item = dockerFindingKey finding) then group
  else
    { group with
      items := group.items ++ [finding]
      level :=
        if severityRank (lowerLevel group.level) < severityRank (lowerLevel finding.level) then
          some (lowerLevel finding.level) else group.level
      cvssScore :=
        match finding.cvssScore, group.cvssScore with
        | some score, some best => if best < score then some score else some best
        | some score, none => some score
        | none, best => best }

/-- One finding of `_docker_groups`. -/
def groupFinding (truncated : Bool) (groups : List Group) (finding : Finding) : List Group :=
  let key := dockerContainerKey finding
  if key = "" then groups
  else if groups.any fun group => decide (group.collectionId = key) then
    groups.map fun group =>
      if group.collectionId = key then addToContainer finding group else group
  else
    groups ++ [addToContainer finding (emptyContainer truncated key finding groups.length)]

/-- `_docker_groups`. -/
def dockerGroups (truncated : Bool) (findings : List Finding) : List Group :=
  (findings.foldl (groupFinding truncated) []).map fun group =>
    { group with vulnerabilitiesCount := (group.items.length : Rat) }

/-- The findings of the Docker source: those of the query, or the moved ones. -/
def dockerFindings (request : BuildRequest) (outcome : DockerOutcome) (fallback : List Finding) :
    List Finding :=
  mergeFindings request [] (if outcome.primary ≠ [] then outcome.primary else fallback)

/-- `build_docker_vulnerability_source`: the software groups that stay, and the containers. -/
def buildDockerSource (request : BuildRequest) (answers : Answers) (software : List Group) :
    List Group × List Group :=
  let (retained, fallback) := extractDockerFallback software
  let outcome := dockerPdql request answers
  (retained, dockerGroups outcome.truncated (dockerFindings request outcome fallback))

@[simp]
theorem collectionId_addToContainer (finding : Finding) (group : Group) :
    (addToContainer finding group).collectionId = group.collectionId := by
  unfold addToContainer
  split <;> rfl

@[simp]
theorem truncated_addToContainer (finding : Finding) (group : Group) :
    (addToContainer finding group).truncated = group.truncated := by
  unfold addToContainer
  split <;> rfl

theorem mem_groupFinding {truncated : Bool} {groups : List Group} {finding : Finding}
    {group : Group} (h : group ∈ groupFinding truncated groups finding) :
    ∃ base, (base ∈ groups ∨ base = emptyContainer truncated (dockerContainerKey finding) finding
        groups.length ∧ dockerContainerKey finding ≠ "") ∧
      (group = base ∨ group = addToContainer finding base) := by
  unfold groupFinding at h
  dsimp only at h
  split at h
  · exact ⟨group, .inl h, .inl rfl⟩
  · rename_i hkey
    split at h
    · obtain ⟨base, hbase, rfl⟩ := List.mem_map.1 h
      by_cases hid : base.collectionId = dockerContainerKey finding
      · exact ⟨base, .inl hbase, .inr (if_pos hid)⟩
      · exact ⟨base, .inl hbase, .inl (if_neg hid)⟩
    · rcases List.mem_append.1 h with hold | hnew
      · exact ⟨group, .inl hold, .inl rfl⟩
      · exact ⟨_, .inr ⟨rfl, hkey⟩, .inr (List.mem_singleton.1 hnew)⟩

/-- The container keys after one finding. -/
theorem collectionIds_groupFinding (truncated : Bool) (groups : List Group) (finding : Finding) :
    (groupFinding truncated groups finding).map Group.collectionId =
      if dockerContainerKey finding = "" ∨
          dockerContainerKey finding ∈ groups.map Group.collectionId then
        groups.map Group.collectionId
      else
        groups.map Group.collectionId ++ [dockerContainerKey finding] := by
  have hmap : (groups.map fun group =>
      if group.collectionId = dockerContainerKey finding then addToContainer finding group
      else group).map Group.collectionId = groups.map Group.collectionId := by
    rw [List.map_map]
    apply List.map_congr_left
    intro group _
    by_cases hid : group.collectionId = dockerContainerKey finding <;> simp [hid]
  have hany : (groups.any fun group => decide (group.collectionId = dockerContainerKey finding)) =
      decide (dockerContainerKey finding ∈ groups.map Group.collectionId) := by
    rw [Bool.eq_iff_iff]
    simp
  unfold groupFinding
  dsimp only
  rw [hany]
  by_cases hempty : dockerContainerKey finding = ""
  · simp [hempty]
  · by_cases hmem : dockerContainerKey finding ∈ groups.map Group.collectionId
    · simp only [hempty, hmem, if_false, decide_true, if_true, or_true, hmap]
    · simp [hempty, hmem, emptyContainer]

/-- The flag of the query, the identity of the findings and the keys of the containers. -/
structure ContainersOf (truncated : Bool) (findings : List Finding) (groups : List Group) :
    Prop where
  flags : ∀ group ∈ groups, group.truncated = truncated
  items : ∀ group ∈ groups, ∀ item ∈ group.items, item ∈ findings
  keys : ∀ key, key ∈ groups.map Group.collectionId ↔
    key ≠ "" ∧ ∃ finding ∈ findings, dockerContainerKey finding = key
  distinct : (groups.map Group.collectionId).Nodup

theorem items_addToContainer {finding item : Finding} {group : Group}
    (h : item ∈ (addToContainer finding group).items) :
    item ∈ group.items ∨ item = finding := by
  unfold addToContainer at h
  split at h
  · exact .inl h
  · simpa using h

/-- One more finding is grouped. -/
theorem ContainersOf.groupFinding {truncated : Bool} {findings : List Finding}
    {groups : List Group} (h : ContainersOf truncated findings groups) (finding : Finding) :
    ContainersOf truncated (findings ++ [finding]) (groupFinding truncated groups finding) := by
  have hids := collectionIds_groupFinding truncated groups finding
  refine ⟨?_, ?_, ?_, ?_⟩
  · intro group hgroup
    obtain ⟨base, hbase, hgroup⟩ := mem_groupFinding hgroup
    have hflag : base.truncated = truncated := by
      rcases hbase with hold | ⟨rfl, _⟩
      · exact h.flags base hold
      · rfl
    rcases hgroup with rfl | rfl
    · exact hflag
    · rw [truncated_addToContainer, hflag]
  · intro group hgroup item hitem
    obtain ⟨base, hbase, hgroup⟩ := mem_groupFinding hgroup
    have hitems : ∀ item ∈ base.items, item ∈ findings := by
      rcases hbase with hold | ⟨rfl, _⟩
      · exact h.items base hold
      · intro item hitem
        cases hitem
    rcases hgroup with rfl | rfl
    · exact List.mem_append_left _ (hitems item hitem)
    · rcases items_addToContainer hitem with hold | rfl
      · exact List.mem_append_left _ (hitems item hold)
      · simp
  · intro key
    rw [hids]
    split
    · rename_i hknown
      rw [h.keys]
      simp only [List.mem_append, List.mem_singleton]
      constructor
      · rintro ⟨hne, other, hother, rfl⟩
        exact ⟨hne, other, .inl hother, rfl⟩
      · rintro ⟨hne, other, hother | rfl, rfl⟩
        · exact ⟨hne, other, hother, rfl⟩
        · exact (h.keys _).1 (hknown.resolve_left hne)
    · rename_i hnew
      simp only [List.mem_append, List.mem_singleton, h.keys]
      constructor
      · rintro (⟨hne, other, hother, rfl⟩ | rfl)
        · exact ⟨hne, other, .inl hother, rfl⟩
        · exact ⟨fun hempty => hnew (.inl hempty), finding, .inr rfl, rfl⟩
      · rintro ⟨hne, other, hother | rfl, rfl⟩
        · exact .inl ⟨hne, other, hother, rfl⟩
        · exact .inr rfl
  · rw [hids]
    split
    · exact h.distinct
    · rename_i hnew
      rw [List.nodup_append]
      refine ⟨h.distinct, by simp, ?_⟩
      rintro a ha b hb rfl
      exact hnew (.inr (List.mem_singleton.1 hb ▸ ha))

theorem containersOf_foldl (truncated : Bool) (findings : List Finding) :
    ContainersOf truncated findings (findings.foldl (groupFinding truncated) []) := by
  induction findings using List.reverseRecOn with
  | nil => exact ⟨by simp, by simp, by simp, by simp⟩
  | append_singleton findings finding ih =>
      rw [List.foldl_append]
      exact ih.groupFinding finding

/-- The groups of containers. -/
theorem containersOf_dockerGroups (truncated : Bool) (findings : List Finding) :
    ContainersOf truncated findings (dockerGroups truncated findings) := by
  have h := containersOf_foldl truncated findings
  have hids : (dockerGroups truncated findings).map Group.collectionId =
      (findings.foldl (groupFinding truncated) []).map Group.collectionId := by
    simp [dockerGroups]
  refine ⟨?_, ?_, ?_, ?_⟩
  · intro group hgroup
    obtain ⟨base, hbase, rfl⟩ := List.mem_map.1 hgroup
    exact h.flags base hbase
  · intro group hgroup
    obtain ⟨base, hbase, rfl⟩ := List.mem_map.1 hgroup
    exact h.items base hbase
  · rw [hids]
    exact h.keys
  · rw [hids]
    exact h.distinct

end AssetCard
end MpvmApp
