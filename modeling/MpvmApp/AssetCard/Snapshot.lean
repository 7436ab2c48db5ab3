import Mathlib.Data.Rat.Defs
import Mathlib.Algebra.Order.Ring.Rat
import MpvmApp.Sql.Text

/-!
# Vulnerability widgets of an asset card

The build of a card asks the remote system for the collections of the two
vulnerability widgets and loads each collection page by page.  The answers of
the remote system are decoded: an answer holds the values that the normalisers
give to the fields, and every request may fail or be answered with anything.

Main definitions:

- `loadGroup`: the pages of one collection.
- `widgetGroups`: the groups of one widget with their `truncated` flags.

Main results:

- Theorem `loadGroup_fuel`: the page loop ends before its bound is used up.
- Theorem `truncated_buildGroup_iff`: when the flag of a group is raised.
-/

namespace MpvmApp
namespace AssetCard

open Sql

/-! ## Findings and groups -/

/-- The image of a finding; a missing field is empty. -/
structure DockerImage where
  imageKey : String := ""
  imageName : String := ""
  registry : String := ""
  repository : String := ""
  tag : String := ""
  digest : String := ""
deriving DecidableEq

/-- The container of a finding. -/
structure DockerContainer where
  containerId : String := ""
  containerName : String := ""
deriving DecidableEq

/-- A finding of a collection or of a container; a missing text is empty. -/
structure Finding where
  vulnerabilityInstanceId : String := ""
  vulnerabilityId : String := ""
  objectId : String := ""
  cveName : String := ""
  name : String := ""
  level : Option String := none
  cvssScore : Option Rat := none
  descriptionKey : String := ""
  packageName : String := ""
  packageVersion : String := ""
  containerId : String := ""
  containerName : String := ""
  imageId : String := ""
  dockerImage : Option DockerImage := none
  dockerContainer : Option DockerContainer := none
deriving DecidableEq

/-- The sources of a snapshot. -/
inductive SourceType where
  | os
  | software
  | docker
deriving DecidableEq, Repr

/-- The stored name of a source. -/
def SourceType.name : SourceType → String
  | .os => "os"
  | .software => "software"
  | .docker => "docker"

/-- The collection type of a source. -/
def SourceType.collectionType : SourceType → String
  | .os => "HostOSVulnerabilities"
  | .software => "HostSoftVulnerabilities"
  | .docker => "DockerContainerVulnerabilities"

/-- A group of a snapshot; groups of containers carry an image and a container. -/
structure Group where
  collectionId : String
  name : String
  level : Option String
  vulnerabilitiesCount : Rat
  cvssScore : Option Rat
  order : Nat
  items : List Finding
  truncated : Bool
  image : Option DockerImage := none
  container : Option DockerContainer := none
deriving DecidableEq

/-! ## Answers of the remote system -/

/-- An object of the group list of a widget. -/
structure ListedGroup where
  key : String
  name : String := ""
  level : Option String := none
  vulnerabilitiesCount : Rat := 0
  cvssScore : Option Rat := none
deriving DecidableEq

/-- The answer to the request for one page of a collection. -/
inductive PageAnswer where
  | batch (items : List Finding)
  /-- An `MpVmApiError` or a `RequestException`. -/
  | apiError (message : String)
  /-- Any other exception, of the request or of the normaliser. -/
  | otherError (message : String)
deriving DecidableEq

/-- A row of a Docker page: its finding, and whether it has the field `Q.Vulner`. -/
structure DockerRow where
  finding : Finding
  rawVulnerability : Bool
deriving DecidableEq

/-- A page of Docker rows with the total it reports. -/
structure DockerPage where
  rows : List DockerRow
  total : Option Int := none
deriving DecidableEq

/-- The answers to the requests of one build. -/
structure Answers where
  /-- The group list of a widget; `none` is an answer that is not an object. -/
  groups : SourceType → Except String (Option (List (Option ListedGroup)))
  /-- The page with a number, of the group at a position of the list. -/
  pages : SourceType → Nat → Nat → PageAnswer
  /-- The rendered Docker query and its token. -/
  dockerToken : Except String Unit
  /-- The container groups of the Docker query. -/
  dockerHeader : Except String Nat
  dockerPages : Nat → Except String DockerPage
  /-- The build is cancelled before the save. -/
  cancelled : Bool := false

/-- The limits of a build and the parts of its findings' identities. -/
structure BuildRequest where
  assetId : String
  limitPerCollection : Int
  maxItemsPerCollection : Int
  /-- `uuid.uuid5(uuid.NAMESPACE_URL, x).hex`. -/
  uuid5 : String → String

/-- `max(1, min(limit_per_collection, 1000))`. -/
def BuildRequest.pageSize (request : BuildRequest) : Nat :=
  (max 1 (min request.limitPerCollection 1000)).toNat

/-- `max(1, max_items_per_collection)`. -/
def BuildRequest.maxItems (request : BuildRequest) : Nat :=
  (max 1 request.maxItemsPerCollection).toNat

/-! ## Pages of a collection -/

/-- What the pages of a collection gave, and the error that ended them. -/
structure Loaded where
  items : List Finding
  error : Option String := none
deriving DecidableEq

/--
The page loop of a collection, from the page with the number `page` on.  Every
page that does not end the loop adds items, so `fuel` bounds its rounds.
-/
def loadPages (pageSize maxItems : Nat) (pages : Nat → PageAnswer) :
    Nat → Nat → List Finding → Except String Loaded
  | 0, _, items => .ok { items := items }
  | fuel + 1, page, items =>
      if items.length < maxItems then
        match pages page with
        | .apiError message => .ok { items := items, error := some message }
        | .otherError message => .error message
        | .batch batch =>
            if batch = [] ∨ batch.length < min pageSize (maxItems - items.length) then
              .ok { items := items ++ batch }
            else
              loadPages pageSize maxItems pages fuel (page + 1) (items ++ batch)
      else
        .ok { items := items }

/-- The pages of one collection. -/
def loadGroup (request : BuildRequest) (pages : Nat → PageAnswer) : Except String Loaded :=
  loadPages request.pageSize request.maxItems pages request.maxItems 0 []

/-- The page loop ends before its bound is used up. -/
theorem loadPages_fuel (pageSize maxItems : Nat) (pages : Nat → PageAnswer)
    {fuel page : Nat} {items : List Finding} (h : maxItems ≤ items.length + fuel) :
    loadPages pageSize maxItems pages (fuel + 1) page items =
      loadPages pageSize maxItems pages fuel page items := by
  induction fuel generalizing page items with
  | zero =>
      have hfull : ¬ items.length < maxItems := by omega
      simp [loadPages, hfull]
  | succ fuel ih =>
      rw [loadPages, loadPages.eq_def pageSize maxItems pages (fuel + 1)]
      by_cases hroom : items.length < maxItems
      · simp only [if_pos hroom]
        cases pages page with
        | apiError message => rfl
        | otherError message => rfl
        | batch batch =>
            by_cases hend : batch = [] ∨ batch.length < min pageSize (maxItems - items.length)
            · simp only [if_pos hend]
            · simp only [if_neg hend]
              apply ih
              have hne : batch.length ≠ 0 := fun hzero =>
                hend (.inl (List.length_eq_zero_iff.1 hzero))
              rw [List.length_append]
              omega
      · simp only [if_neg hroom]

/-- A larger bound gives the same pages. -/
theorem loadGroup_fuel (request : BuildRequest) (pages : Nat → PageAnswer) (extra : Nat) :
    loadPages request.pageSize request.maxItems pages (request.maxItems + extra) 0 [] =
      loadGroup request pages := by
  induction extra with
  | zero => rfl
  | succ extra ih =>
      rw [← ih, ← Nat.add_assoc]
      apply loadPages_fuel
      simp only [List.length_nil]
      omega

/-! ## Groups of a widget -/

/-- The collection has fewer items than it reports, or as many as the limit admits. -/
def cutShort (request : BuildRequest) (reportedCount : Rat) (loaded : Nat) : Bool :=
  if reportedCount ≠ 0 then decide ((loaded : Rat) < reportedCount)
  else decide (request.maxItems ≤ loaded)

/-- `vulnerability_collection_id`. -/
def ListedGroup.collectionId (listed : ListedGroup) : String :=
  strip listed.key

/-- A group of a widget before its items are loaded. -/
def ListedGroup.toGroup (listed : ListedGroup) (order : Nat) : Group where
  collectionId := listed.collectionId
  name := listed.name
  level := listed.level
  vulnerabilitiesCount := listed.vulnerabilitiesCount
  cvssScore := listed.cvssScore
  order := order
  items := []
  truncated := false

/--
A group of a widget.  Without a collection id, and when the load raises, it stays
without items and its flag is not raised.
-/
def buildGroup (request : BuildRequest) (pages : Nat → PageAnswer) (listed : ListedGroup)
    (order : Nat) : Group :=
  let group := listed.toGroup order
  if listed.collectionId = "" then group
  else
    match loadGroup request pages with
    | .error _ => group
    | .ok loaded =>
        { group with
          items := loaded.items
          truncated := cutShort request listed.vulnerabilitiesCount loaded.items.length }

/-- The listed groups of a widget with their positions; a list that fails has none. -/
def listedGroups (answers : Answers) (source : SourceType) : List (ListedGroup × Nat) :=
  match answers.groups source with
  | .ok (some listing) => listing.zipIdx.filterMap fun (item, i) => item.map fun g => (g, i)
  | _ => []

/-- The groups of a widget. -/
def widgetGroups (request : BuildRequest) (answers : Answers) (source : SourceType) :
    List Group :=
  (listedGroups answers source).map fun (listed, i) =>
    buildGroup request (answers.pages source i) listed i

@[simp]
theorem collectionId_buildGroup (request : BuildRequest) (pages : Nat → PageAnswer)
    (listed : ListedGroup) (order : Nat) :
    (buildGroup request pages listed order).collectionId = listed.collectionId := by
  unfold buildGroup
  dsimp only
  split
  · rfl
  · split <;> rfl

/-- The flag of a group is raised exactly when its loaded items are cut short. -/
theorem truncated_buildGroup_iff {request : BuildRequest} {pages : Nat → PageAnswer}
    {listed : ListedGroup} {order : Nat} :
    (buildGroup request pages listed order).truncated = true ↔
      listed.collectionId ≠ "" ∧ ∃ loaded, loadGroup request pages = .ok loaded ∧
        (buildGroup request pages listed order).items = loaded.items ∧
        cutShort request listed.vulnerabilitiesCount loaded.items.length = true := by
  unfold buildGroup
  dsimp only
  by_cases hid : listed.collectionId = ""
  · simp [hid, ListedGroup.toGroup]
  · cases hload : loadGroup request pages with
    | error message => simp [hid, ListedGroup.toGroup]
    | ok loaded => simp [hid]

end AssetCard
end MpvmApp
