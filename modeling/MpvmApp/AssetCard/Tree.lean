import MpvmApp.AssetCard.CollectionPages

/-!
# The tree of an asset card

The tree is read level by level from its root.  A node names others in its fields and through its
collections; a level first loads the collections and the nodes of its fields, then the nodes that
the items of the collections name.  A node is told from others by its type and object id, a
collection by the type and object id of its parent and by its name.

The answers of the remote system are decoded: a node holds its fields and collections as they are
read with the metadata of its type, and every request may fail.

Main definitions:

- Definition `TreeGraph`: what the remote system answers.
- Definition `treeLevel`: one level of the traversal.
- Definition `traverseTree`: the levels.
-/

namespace MpvmApp
namespace AssetCard

open Pages

/-! ## Nodes and answers -/

/-- What a field of a node is: a collection, a reference to a node, or a value. -/
inductive FieldKind where
  | collection (name : String)
  | ref (type objectId : String)
  | value
deriving DecidableEq

/-- A field of a node's data; `excluded` marks the branches left out for Windows. -/
structure Field where
  name : String
  kind : FieldKind
  excluded : Bool := false
deriving DecidableEq

/-- A collection that the metadata of a type names; `inData` marks those that are fields. -/
structure MetadataCollection where
  name : String
  inData : Bool := false
  excluded : Bool := false
deriving DecidableEq

/-- A node; a missing type or object id is empty. -/
structure TreeNode where
  type : String
  objectId : String
  fields : List Field := []
  collections : List MetadataCollection := []
deriving DecidableEq

/-- An item of a collection: the node that it refers to, with empty texts for none. -/
structure TreeItem where
  type : String := ""
  objectId : String := ""
deriving DecidableEq

/-- The answer to the request for a node. -/
inductive NodeAnswer where
  | failed
  /-- An object without fields. -/
  | empty
  | node (node : TreeNode)
deriving DecidableEq

/-- What a collection is asked for by. -/
structure CollectionKey where
  parentType : String
  objectId : String
  name : String
deriving DecidableEq

/-- The remote system: its root, its nodes, and its collections with the answers for their
pages. -/
structure TreeGraph where
  root : TreeNode
  node : (type objectId : String) → NodeAnswer
  server : CollectionKey → List TreeItem
  script : CollectionKey → CollectionScript

/-- The limits of a traversal and the asset that is asked for. -/
structure TreeBuild where
  assetId : String
  limits : CollectionLimits
  maxDepth : Nat

/-- `root_asset_id`. -/
def rootAssetId (build : TreeBuild) (graph : TreeGraph) : String :=
  if graph.root.objectId ≠ "" then graph.root.objectId else build.assetId

/-! ## What is read from a node -/

/-- The key of a node. -/
def nodeKey (type objectId : String) : String :=
  type ++ "|" ++ objectId

/-- The key of a node. -/
def TreeNode.key (node : TreeNode) : String :=
  nodeKey node.type node.objectId

/-- The key of a collection. -/
def CollectionKey.text (key : CollectionKey) : String :=
  key.parentType ++ "|" ++ key.objectId ++ "|" ++ key.name

/-- The key of a collection that is to be loaded. -/
def CollectionSpec.key (spec : CollectionSpec) : CollectionKey where
  parentType := spec.parentType
  objectId := spec.objectId
  name := spec.name

/-- A node that is to be read, or has been, with its path and depth. -/
structure TreeEntry where
  node : TreeNode
  path : String
  depth : Nat
deriving DecidableEq

/-- A reference to a node, with its path and depth. -/
structure TreeRef where
  type : String
  objectId : String
  path : String
  depth : Nat
deriving DecidableEq

/-- The key of the node that a reference names. -/
def TreeRef.key (ref : TreeRef) : String :=
  nodeKey ref.type ref.objectId

/-- The collections that a node names, with the last parts of their paths. -/
def TreeNode.namedCollections (node : TreeNode) : List (String × String) :=
  (node.fields.filterMap fun field =>
    match field.excluded, field.kind with
    | false, .collection name => some (field.name, name)
    | _, _ => none) ++
  (node.collections.filterMap fun collection =>
    if collection.name = "" ∨ collection.inData = true ∨ collection.excluded = true then none
    else some (collection.name, collection.name))

/-- A node that a field names, with the name of the field. -/
structure NamedNode where
  field : String
  type : String
  objectId : String
deriving DecidableEq

/-- The nodes that the fields of a node name. -/
def TreeNode.namedNodes (node : TreeNode) : List NamedNode :=
  node.fields.filterMap fun field =>
    match field.excluded, field.kind with
    | false, .ref type objectId =>
        if type ≠ "" ∧ objectId ≠ "" then
          some { field := field.name, type := type, objectId := objectId }
        else none
    | _, _ => none

/-- What a collection of a node is asked for by. -/
def TreeNode.collectionKey (build : TreeBuild) (graph : TreeGraph) (node : TreeNode)
    (name : String) : CollectionKey where
  parentType := node.type
  objectId := if node.objectId ≠ "" then node.objectId else rootAssetId build graph
  name := name

/-- A collection of a node. -/
def TreeEntry.collectionSpec (build : TreeBuild) (graph : TreeGraph) (entry : TreeEntry)
    (field name : String) : CollectionSpec where
  parentType := (entry.node.collectionKey build graph name).parentType
  objectId := (entry.node.collectionKey build graph name).objectId
  name := name
  path := entry.path ++ "." ++ field

/-- The collections that a node names above the depth limit. -/
def TreeEntry.collectionSpecs (build : TreeBuild) (graph : TreeGraph) (entry : TreeEntry) :
    List CollectionSpec :=
  if build.maxDepth ≤ entry.depth then []
  else
    entry.node.namedCollections.map fun named => entry.collectionSpec build graph named.1 named.2

/-- The nodes that the fields of a node name above the depth limit. -/
def TreeEntry.directRefs (build : TreeBuild) (entry : TreeEntry) : List TreeRef :=
  if build.maxDepth ≤ entry.depth then []
  else
    entry.node.namedNodes.map fun named =>
      { type := named.type, objectId := named.objectId, path := entry.path ++ "." ++ named.field,
        depth := entry.depth + 1 }

/-- The nodes that the items of a collection name. -/
def itemRefs (build : TreeBuild) (depth : Nat) (loaded : CollectionSpec × List TreeItem) :
    List TreeRef :=
  loaded.2.zipIdx.filterMap fun item =>
    if depth ≤ build.maxDepth ∧ item.1.type ≠ "" ∧ item.1.objectId ≠ "" then
      some { type := item.1.type, objectId := item.1.objectId,
             path := loaded.1.path ++ "[" ++ toString item.2 ++ "]", depth := depth }
    else none

/-! ## The levels -/

/-- What the traversal has read. -/
structure TreeState where
  seenNodes : List String := []
  nodeCache : Dict String (Option TreeNode) := Dict.empty
  seenCollections : List String := []
  expanded : List TreeEntry := []
  collections : List (CollectionSpec × List TreeItem) := []

/-- A pending node: it is read unless one with its key has been. -/
def enterNode (acc : TreeState × List TreeEntry) (entry : TreeEntry) :
    TreeState × List TreeEntry :=
  if entry.node.objectId = "" then
    ({ acc.1 with expanded := acc.1.expanded ++ [entry] }, acc.2 ++ [entry])
  else if entry.node.key ∈ acc.1.seenNodes then acc
  else
    ({ acc.1 with
        seenNodes := entry.node.key :: acc.1.seenNodes
        nodeCache := acc.1.nodeCache.set entry.node.key (some entry.node)
        expanded := acc.1.expanded ++ [entry] },
      acc.2 ++ [entry])

/-- The collections that have not been loaded, with what has been seen after them. -/
def uniqueCollections (seen : List String) :
    List CollectionSpec → List String × List CollectionSpec
  | [] => (seen, [])
  | spec :: specs =>
      if spec.parentType = "" ∨ spec.objectId = "" ∨ spec.key.text ∈ seen then
        uniqueCollections seen specs
      else
        let rest := uniqueCollections (spec.key.text :: seen) specs
        (rest.1, spec :: rest.2)

/-- The items of collections after their page loops. -/
def loadCollections (build : TreeBuild) (graph : TreeGraph) (specs : List CollectionSpec) :
    List (CollectionSpec × List TreeItem) :=
  match fetchCollectionSpecs build.limits
      (serveCollections (fun spec => graph.server spec.key) fun spec => graph.script spec.key)
      specs (build.limits.maxItems + 2) with
  | some result => result.map fun entry => (entry.1, (entry.2.items build.limits).map Prod.fst)
  | none => []

/-- The references that are asked for: those whose key is neither cached nor asked for before. -/
def scheduleRefs (cache : Dict String (Option TreeNode)) (scheduled : List String) :
    List TreeRef → List TreeRef
  | [] => []
  | ref :: refs =>
      if (cache.get? ref.key).isSome ∨ ref.key ∈ scheduled then scheduleRefs cache scheduled refs
      else ref :: scheduleRefs cache (ref.key :: scheduled) refs

/-- The answer for a reference is stored unless its request failed. -/
def storeAnswer (graph : TreeGraph) (cache : Dict String (Option TreeNode)) (ref : TreeRef) :
    Dict String (Option TreeNode) :=
  match graph.node ref.type ref.objectId with
  | .failed => cache
  | .empty => cache.set ref.key none
  | .node node => cache.set ref.key (some node)

/-- `fetch_node_specs`. -/
def fetchNodeSpecs (graph : TreeGraph) (cache : Dict String (Option TreeNode))
    (refs : List TreeRef) : Dict String (Option TreeNode) :=
  (scheduleRefs cache [] refs).foldl (storeAnswer graph) cache

/-- The nodes of references that are cached. -/
def pendingNodes (cache : Dict String (Option TreeNode)) (refs : List TreeRef) : List TreeEntry :=
  (sortOn TreeRef.path refs).filterMap fun ref =>
    (cache.get? ref.key).join.map fun node =>
      { node := node, path := ref.path, depth := ref.depth }

/-- The collections and references of the nodes of a level. -/
def expandNodes (build : TreeBuild) (graph : TreeGraph) (s : TreeState) (depth : Nat)
    (current : List TreeEntry) : TreeState × List TreeEntry :=
  let unique := uniqueCollections s.seenCollections
    (sortOn CollectionSpec.path (current.flatMap (TreeEntry.collectionSpecs build graph)))
  let direct := current.flatMap (TreeEntry.directRefs build)
  let loaded := loadCollections build graph unique.2
  let children := direct ++ loaded.flatMap (itemRefs build (depth + 1))
  let cache := fetchNodeSpecs graph (fetchNodeSpecs graph s.nodeCache direct) children
  ({ s with
      seenCollections := unique.1
      nodeCache := cache
      collections := s.collections ++ loaded },
    pendingNodes cache children)

/-- One level: the pending nodes in the order of their paths, and the nodes that they lead to. -/
def treeLevel (build : TreeBuild) (graph : TreeGraph) (s : TreeState) (depth : Nat)
    (pending : List TreeEntry) : TreeState × List TreeEntry :=
  let entered := (sortOn TreeEntry.path pending).foldl enterNode (s, [])
  if entered.2 = [] then (entered.1, [])
  else expandNodes build graph entered.1 depth entered.2

/-- The levels, unless the bound is used up. -/
def treeLevels (build : TreeBuild) (graph : TreeGraph) :
    Nat → Nat → TreeState → List TreeEntry → Option TreeState
  | 0, _, _, _ => none
  | fuel + 1, depth, s, pending =>
      if pending = [] then some s
      else
        let next := treeLevel build graph s depth pending
        treeLevels build graph fuel (depth + 1) next.1 next.2

/-- `traverse_tree`. -/
def traverseTree (build : TreeBuild) (graph : TreeGraph) (fuel : Nat) : Option TreeState :=
  treeLevels build graph fuel 0 {} [{ node := graph.root, path := "asset", depth := 0 }]

/-- The nodes of the card: those that have been read besides the root. -/
def TreeState.nodes (s : TreeState) : List TreeEntry :=
  s.expanded.filter fun entry => !decide (entry.path = "asset")

end AssetCard
end MpvmApp
