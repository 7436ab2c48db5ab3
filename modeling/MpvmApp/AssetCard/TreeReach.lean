import MpvmApp.AssetCard.Tree

/-!
# What the traversal of the tree reaches

A node is reached from the root through the nodes that fields and loaded items name, as long as
their requests are answered.  The traversal reads each node once, at its level, and nothing below
the depth limit; when keys tell nodes and collections apart, it reads just the nodes that are
reached.

Main definitions:

- Definition `Reached`: the nodes within the depth limit.
- Definition `TreeGraph.KeysApart`: keys tell the nodes and collections of a graph apart.
- Definition `Read`: what is known at the start of a level.
- Definition `Explored`: the nodes named so far have been read or are pending.

Main results:

- Theorem `Explored.level`: what one level preserves.
- Theorem `traverse_tree_complete`: the traversal ends, reads each node once and reads the
  nodes that are reached.
-/

namespace MpvmApp
namespace AssetCard

open Pages

/-! ## Nodes within the depth limit -/

/-- The items of a collection that its page loop keeps. -/
def TreeGraph.loadedItems (build : TreeBuild) (graph : TreeGraph) (key : CollectionKey) :
    List TreeItem :=
  (cuts ((repliesOf build.limits (graph.script key) (graph.server key).length).map
    (CollectionReply.span (graph.server key).length)) (graph.server key)).take
      build.limits.maxItems

/-- A node names another: by a field, or by an item of one of its collections. -/
inductive TreeEdge (build : TreeBuild) (graph : TreeGraph) (items : CollectionKey → List TreeItem)
    (node : TreeNode) : String → String → Prop where
  | field {named : NamedNode} (h : named ∈ node.namedNodes) :
      TreeEdge build graph items node named.type named.objectId
  | item {field name : String} {item : TreeItem} (h : (field, name) ∈ node.namedCollections)
      (htype : (node.collectionKey build graph name).parentType ≠ "")
      (hid : (node.collectionKey build graph name).objectId ≠ "")
      (hitem : item ∈ items (node.collectionKey build graph name))
      (hitemType : item.type ≠ "") (hitemId : item.objectId ≠ "") :
      TreeEdge build graph items node item.type item.objectId

/-- The nodes that can be reached at a depth, with the items that collections have. -/
inductive Reached (build : TreeBuild) (graph : TreeGraph)
    (items : CollectionKey → List TreeItem) : Nat → TreeNode → Prop where
  | root : Reached build graph items 0 graph.root
  | step {depth : Nat} {node child : TreeNode} {type objectId : String}
      (h : Reached build graph items depth node) (hdepth : depth < build.maxDepth)
      (hedge : TreeEdge build graph items node type objectId)
      (hanswer : graph.node type objectId = .node child) :
      Reached build graph items (depth + 1) child

/-- The type and object id of the root, or of a node that a reached one names. -/
def Mentioned (build : TreeBuild) (graph : TreeGraph) (type objectId : String) : Prop :=
  (type = graph.root.type ∧ objectId = graph.root.objectId) ∨
    ∃ depth node, Reached build graph (graph.loadedItems build) depth node ∧
      TreeEdge build graph (graph.loadedItems build) node type objectId

/-- A collection of a reached node. -/
def NamedCollection (build : TreeBuild) (graph : TreeGraph) (key : CollectionKey) : Prop :=
  ∃ depth node field name, Reached build graph (graph.loadedItems build) depth node ∧
    (field, name) ∈ node.namedCollections ∧ key = node.collectionKey build graph name

/-- Nodes are answered under their own type and object id, and keys tell the nodes and the
collections that are asked for apart. -/
structure TreeGraph.KeysApart (build : TreeBuild) (graph : TreeGraph) : Prop where
  self : ∀ type objectId node, graph.node type objectId = .node node →
    node.type = type ∧ node.objectId = objectId
  root : ∀ node, graph.node graph.root.type graph.root.objectId = .node node → node = graph.root
  nodes : ∀ type objectId type' objectId', Mentioned build graph type objectId →
    Mentioned build graph type' objectId' → nodeKey type objectId = nodeKey type' objectId' →
    type = type' ∧ objectId = objectId'
  collections : ∀ key key', NamedCollection build graph key → NamedCollection build graph key' →
    key.text = key'.text → key = key'

/-! ## Loading -/

section Loading

variable {build : TreeBuild} {graph : TreeGraph}

theorem loadCollections_eq (specs : List CollectionSpec) :
    loadCollections build graph specs =
      specs.map fun spec => (spec, graph.loadedItems build spec.key) := by
  obtain ⟨result, hfetched⟩ := exists_fetched build.limits
    (fun spec => graph.server spec.key) (fun spec => graph.script spec.key) specs
  obtain ⟨hspecs, hcollected⟩ := collected_of_fetched hfetched
  rw [loadCollections, hfetched, ← hspecs, List.map_map]
  refine List.map_congr_left fun entry hentry => ?_
  have hitems := items_of_collected build.limits (hcollected entry hentry) pairwise_requestsOf.2
  rw [hitems, List.map_take, map_cuts, length_placed, placed, List.zipIdx_map_fst]
  rfl

theorem mem_pendingNodes {cache : Dict String (Option TreeNode)} {refs : List TreeRef}
    {entry : TreeEntry} :
    entry ∈ pendingNodes cache refs ↔
      ∃ ref ∈ refs, cache.get? ref.key = some (some entry.node) ∧ entry.path = ref.path ∧
        entry.depth = ref.depth := by
  rw [pendingNodes, List.mem_filterMap]
  constructor
  · rintro ⟨ref, href, hentry⟩
    obtain ⟨node, hnode, rfl⟩ := Option.map_eq_some_iff.1 hentry
    refine ⟨ref, mem_sortOn.1 href, ?_, rfl, rfl⟩
    exact Option.join_eq_some_iff.1 hnode
  · rintro ⟨ref, href, hnode, hpath, hdepth⟩
    refine ⟨ref, mem_sortOn.2 href, ?_⟩
    rw [hnode]
    obtain ⟨node, path, depth⟩ := entry
    simp only at hpath hdepth
    rw [hpath, hdepth]
    rfl

theorem mem_itemRefs {depth : Nat} {loaded : CollectionSpec × List TreeItem} {ref : TreeRef}
    (h : ref ∈ itemRefs build depth loaded) :
    ref.depth = depth ∧ loaded.1.path.length ≤ ref.path.length ∧ ∃ item ∈ loaded.2,
      item.type ≠ "" ∧ item.objectId ≠ "" ∧ ref.type = item.type ∧
        ref.objectId = item.objectId := by
  obtain ⟨item, hitem, href⟩ := List.mem_filterMap.1 h
  split at href
  · rename_i hnamed
    obtain rfl := Option.some.inj href
    refine ⟨rfl, ?_, item.1, List.fst_mem_of_mem_zipIdx hitem, hnamed.2.1, hnamed.2.2, rfl, rfl⟩
    simp only [String.length_append]
    omega
  · cases href

theorem exists_itemRef {depth : Nat} (hdepth : depth ≤ build.maxDepth)
    {loaded : CollectionSpec × List TreeItem} {item : TreeItem} (hitem : item ∈ loaded.2)
    (htype : item.type ≠ "") (hid : item.objectId ≠ "") :
    ∃ ref ∈ itemRefs build depth loaded,
      ref.type = item.type ∧ ref.objectId = item.objectId := by
  obtain ⟨i, hi⟩ := List.mem_iff_getElem?.1 hitem
  have hmem : (item, i) ∈ loaded.2.zipIdx := List.mk_mem_zipIdx_iff_getElem?.2 hi
  exact ⟨_, List.mem_filterMap.2 ⟨(item, i), hmem, if_pos ⟨hdepth, htype, hid⟩⟩, rfl, rfl⟩

/-- Which collections of a level are loaded. -/
theorem mem_uniqueCollections {seen : List String} {specs : List CollectionSpec} :
    (∀ spec ∈ (uniqueCollections seen specs).2,
      spec ∈ specs ∧ spec.parentType ≠ "" ∧ spec.objectId ≠ "") ∧
    (∀ text, text ∈ (uniqueCollections seen specs).1 ↔
      text ∈ seen ∨ ∃ spec ∈ (uniqueCollections seen specs).2, spec.key.text = text) ∧
    ∀ spec ∈ specs, spec.parentType ≠ "" → spec.objectId ≠ "" →
      spec.key.text ∈ (uniqueCollections seen specs).1 := by
  induction specs generalizing seen with
  | nil =>
      refine ⟨nofun, ?_, nofun⟩
      intro text
      simp [uniqueCollections]
  | cons spec specs ih =>
      rw [uniqueCollections]
      split
      · rename_i hskip
        obtain ⟨hmem, htexts, hall⟩ := @ih seen
        refine ⟨?_, htexts, ?_⟩
        · intro spec' hspec'
          obtain ⟨hin, hne⟩ := hmem spec' hspec'
          exact ⟨List.mem_cons_of_mem _ hin, hne⟩
        · intro spec' hspec' htype hid
          rcases List.mem_cons.1 hspec' with rfl | hlater
          · rcases hskip with hempty | hempty | hseen
            · exact absurd hempty htype
            · exact absurd hempty hid
            · exact (htexts _).2 (.inl hseen)
          · exact hall spec' hlater htype hid
      · rename_i hload
        push Not at hload
        obtain ⟨hmem, htexts, hall⟩ := @ih (spec.key.text :: seen)
        refine ⟨?_, ?_, ?_⟩
        · intro spec' hspec'
          rcases List.mem_cons.1 hspec' with rfl | hlater
          · exact ⟨List.mem_cons_self, hload.1, hload.2.1⟩
          · obtain ⟨hin, hne⟩ := hmem spec' hlater
            exact ⟨List.mem_cons_of_mem _ hin, hne⟩
        · intro text
          dsimp only
          rw [htexts, List.mem_cons]
          constructor
          · rintro ((rfl | hseen) | ⟨spec', hspec', htext⟩)
            · exact .inr ⟨spec, List.mem_cons_self, rfl⟩
            · exact .inl hseen
            · exact .inr ⟨spec', List.mem_cons_of_mem _ hspec', htext⟩
          · rintro (hseen | ⟨spec', hspec', htext⟩)
            · exact .inl (.inr hseen)
            · rcases List.mem_cons.1 hspec' with rfl | hlater
              · exact .inl (.inl htext.symm)
              · exact .inr ⟨spec', hlater, htext⟩
        · intro spec' hspec' htype hid
          rcases List.mem_cons.1 hspec' with rfl | hlater
          · exact (htexts _).2 (.inl List.mem_cons_self)
          · exact hall spec' hlater htype hid

/-! ## Requests for nodes -/

/-- Every reference is cached, asked for before, or asked for under its key. -/
theorem scheduleRefs_spec {cache : Dict String (Option TreeNode)} {scheduled : List String}
    {refs : List TreeRef} :
    (∀ ref ∈ scheduleRefs cache scheduled refs, ref ∈ refs) ∧
      ∀ ref ∈ refs, (cache.get? ref.key).isSome ∨ ref.key ∈ scheduled ∨
        ∃ ref' ∈ scheduleRefs cache scheduled refs, ref'.key = ref.key := by
  induction refs generalizing scheduled with
  | nil => exact ⟨nofun, nofun⟩
  | cons ref refs ih =>
      rw [scheduleRefs]
      split
      · rename_i hskip
        obtain ⟨hsub, hall⟩ := @ih scheduled
        refine ⟨fun ref' href' => List.mem_cons_of_mem _ (hsub ref' href'), ?_⟩
        intro ref' href'
        rcases List.mem_cons.1 href' with rfl | hlater
        · exact hskip.imp_right .inl
        · exact hall ref' hlater
      · obtain ⟨hsub, hall⟩ := @ih (ref.key :: scheduled)
        refine ⟨?_, ?_⟩
        · intro ref' href'
          rcases List.mem_cons.1 href' with rfl | hlater
          · exact List.mem_cons_self
          · exact List.mem_cons_of_mem _ (hsub ref' hlater)
        · intro ref' href'
          rcases List.mem_cons.1 href' with rfl | hlater
          · exact .inr (.inr ⟨ref', List.mem_cons_self, rfl⟩)
          · rcases hall ref' hlater with hcached | hscheduled | ⟨other, hother, hkey⟩
            · exact .inl hcached
            · rcases List.mem_cons.1 hscheduled with hkey | hbefore
              · exact .inr (.inr ⟨ref, List.mem_cons_self, hkey.symm⟩)
              · exact .inr (.inl hbefore)
            · exact .inr (.inr ⟨other, List.mem_cons_of_mem _ hother, hkey⟩)

/-- What a cached value says about the remote system. -/
def CacheSound (build : TreeBuild) (graph : TreeGraph) (cache : Dict String (Option TreeNode)) :
    Prop :=
  ∀ key value, cache.get? key = some value → ∃ type objectId,
    Mentioned build graph type objectId ∧ nodeKey type objectId = key ∧
      match value with
      | none => graph.node type objectId = .empty
      | some node => graph.node type objectId = .node node ∨
          (node = graph.root ∧ type = graph.root.type ∧ objectId = graph.root.objectId)

/-- A stored answer keeps the cache sound, and what is cached stays cached. -/
theorem storeAnswer_spec {cache : Dict String (Option TreeNode)} {ref : TreeRef}
    (hsound : CacheSound build graph cache) (href : Mentioned build graph ref.type ref.objectId) :
    CacheSound build graph (storeAnswer graph cache ref) ∧
      (∀ key, (cache.get? key).isSome → ((storeAnswer graph cache ref).get? key).isSome) ∧
      (∀ node, graph.node ref.type ref.objectId = .node node →
        ((storeAnswer graph cache ref).get? ref.key).isSome) := by
  unfold storeAnswer
  cases hanswer : graph.node ref.type ref.objectId with
  | failed => exact ⟨hsound, fun _ h => h, nofun⟩
  | empty =>
      refine ⟨?_, ?_, nofun⟩
      · intro key value hvalue
        dsimp only at hvalue
        rw [Dict.get?_set] at hvalue
        split at hvalue
        · rename_i hkey
          obtain rfl := Option.some.inj hvalue
          exact ⟨ref.type, ref.objectId, href, hkey.symm, hanswer⟩
        · exact hsound key value hvalue
      · intro key hcached
        dsimp only
        rw [Dict.get?_set]
        split
        · rfl
        · exact hcached
  | node node =>
      refine ⟨?_, ?_, ?_⟩
      · intro key value hvalue
        dsimp only at hvalue
        rw [Dict.get?_set] at hvalue
        split at hvalue
        · rename_i hkey
          obtain rfl := Option.some.inj hvalue
          exact ⟨ref.type, ref.objectId, href, hkey.symm, .inl hanswer⟩
        · exact hsound key value hvalue
      · intro key hcached
        dsimp only
        rw [Dict.get?_set]
        split
        · rfl
        · exact hcached
      · intro _ _
        dsimp only
        rw [Dict.get?_set, if_pos rfl]
        rfl

end Loading

section Caching

variable {build : TreeBuild} {graph : TreeGraph}

/-- Stored answers keep the cache sound, and their references are cached. -/
theorem foldl_storeAnswer_spec {refs : List TreeRef} {cache : Dict String (Option TreeNode)}
    (hsound : CacheSound build graph cache)
    (hrefs : ∀ ref ∈ refs, Mentioned build graph ref.type ref.objectId) :
    CacheSound build graph (refs.foldl (storeAnswer graph) cache) ∧
      (∀ key, (cache.get? key).isSome →
        ((refs.foldl (storeAnswer graph) cache).get? key).isSome) ∧
      ∀ ref ∈ refs, ∀ node, graph.node ref.type ref.objectId = .node node →
        ((refs.foldl (storeAnswer graph) cache).get? ref.key).isSome := by
  induction refs generalizing cache with
  | nil => exact ⟨hsound, fun _ h => h, nofun⟩
  | cons ref refs ih =>
      obtain ⟨hsound', hkeep, hstored⟩ :=
        storeAnswer_spec hsound (hrefs ref List.mem_cons_self)
      obtain ⟨hsound'', hkeep', hstored'⟩ :=
        ih hsound' fun ref' href' => hrefs ref' (List.mem_cons_of_mem _ href')
      refine ⟨hsound'', fun key hkey => hkeep' key (hkeep key hkey), ?_⟩
      intro ref' href' node hanswer
      rcases List.mem_cons.1 href' with rfl | hlater
      · exact hkeep' _ (hstored node hanswer)
      · exact hstored' ref' hlater node hanswer

/-- A cached reference whose request is answered is cached with the answer. -/
theorem CacheSound.get?_eq {cache : Dict String (Option TreeNode)}
    (hsound : CacheSound build graph cache) (hkeys : graph.KeysApart build)
    {type objectId : String} (hmentioned : Mentioned build graph type objectId) {node : TreeNode}
    (hanswer : graph.node type objectId = .node node)
    (hcached : (cache.get? (nodeKey type objectId)).isSome) :
    cache.get? (nodeKey type objectId) = some (some node) := by
  obtain ⟨value, hvalue⟩ := Option.isSome_iff_exists.1 hcached
  obtain ⟨type', objectId', hmentioned', hkey, hsays⟩ := hsound _ value hvalue
  obtain ⟨rfl, rfl⟩ := hkeys.nodes _ _ _ _ hmentioned' hmentioned hkey
  cases value with
  | none =>
      rw [hanswer] at hsays
      cases hsays
  | some node' =>
      rcases hsays with hnode | ⟨rfl, rfl, rfl⟩
      · rw [hanswer] at hnode
        cases hnode
        exact hvalue
      · rw [hkeys.root node hanswer]
        exact hvalue

/-- After the requests for references, those that are answered are cached. -/
theorem fetchNodeSpecs_spec (hkeys : graph.KeysApart build) {refs : List TreeRef}
    {cache : Dict String (Option TreeNode)} (hsound : CacheSound build graph cache)
    (hrefs : ∀ ref ∈ refs, Mentioned build graph ref.type ref.objectId) :
    CacheSound build graph (fetchNodeSpecs graph cache refs) ∧
      ∀ ref ∈ refs, ∀ node, graph.node ref.type ref.objectId = .node node →
        (fetchNodeSpecs graph cache refs).get? ref.key = some (some node) := by
  obtain ⟨hsub, hall⟩ := @scheduleRefs_spec cache [] refs
  obtain ⟨hsound', hkeep, hstored⟩ :=
    foldl_storeAnswer_spec hsound fun ref href => hrefs ref (hsub ref href)
  refine ⟨hsound', ?_⟩
  intro ref href node hanswer
  refine hsound'.get?_eq hkeys (hrefs ref href) hanswer ?_
  rcases hall ref href with hcached | hscheduled | ⟨other, hother, hkey⟩
  · exact hkeep _ hcached
  · cases hscheduled
  · -- the reference that is asked for under this key names the same node
    obtain ⟨htype, hid⟩ := hkeys.nodes _ _ _ _ (hrefs other (hsub other hother)) (hrefs ref href)
      hkey
    rw [← htype, ← hid] at hanswer
    have hset := hstored other hother node hanswer
    rw [hkey] at hset
    exact hset

theorem Reached.eq_root_or_answer (hkeys : graph.KeysApart build) {depth : Nat} {node : TreeNode}
    (h : Reached build graph (graph.loadedItems build) depth node) :
    Mentioned build graph node.type node.objectId ∧
      (node = graph.root ∨ graph.node node.type node.objectId = .node node) := by
  cases h with
  | root => exact ⟨.inl ⟨rfl, rfl⟩, .inl rfl⟩
  | step h hdepth hedge hanswer =>
      obtain ⟨rfl, rfl⟩ := hkeys.self _ _ _ hanswer
      exact ⟨.inr ⟨_, _, h, hedge⟩, .inr hanswer⟩

theorem Reached.eq_of_key (hkeys : graph.KeysApart build) {depth depth' : Nat}
    {node node' : TreeNode} (h : Reached build graph (graph.loadedItems build) depth node)
    (h' : Reached build graph (graph.loadedItems build) depth' node')
    (hkey : node.key = node'.key) :
    node = node' := by
  obtain ⟨hmentioned, hanswer⟩ := h.eq_root_or_answer hkeys
  obtain ⟨hmentioned', hanswer'⟩ := h'.eq_root_or_answer hkeys
  obtain ⟨htype, hid⟩ := hkeys.nodes _ _ _ _ hmentioned hmentioned' hkey
  rcases hanswer with rfl | hanswer
  · rcases hanswer' with rfl | hanswer'
    · rfl
    · rw [← htype, ← hid] at hanswer'
      exact (hkeys.root _ hanswer').symm
  · rcases hanswer' with rfl | hanswer'
    · rw [htype, hid] at hanswer
      exact hkeys.root _ hanswer
    · rw [htype, hid, hanswer'] at hanswer
      exact (NodeAnswer.node.inj hanswer).symm

end Caching

/-! ## Nodes that are read at a level -/

section Entering

/-- What the pending nodes of a level do to what has been read. -/
structure Entered (s : TreeState) (pending : List TreeEntry) (next : TreeState)
    (added : List TreeEntry) : Prop where
  expanded : next.expanded = s.expanded ++ added
  seenCollections : next.seenCollections = s.seenCollections
  subset : ∀ entry ∈ added, entry ∈ pending
  seen : ∀ key, key ∈ next.seenNodes ↔
    key ∈ s.seenNodes ∨ ∃ entry ∈ added, entry.node.objectId ≠ "" ∧ entry.node.key = key
  fresh : ∀ entry ∈ added, entry.node.objectId ≠ "" → entry.node.key ∉ s.seenNodes
  nodup : ((added.filter fun entry => decide (entry.node.objectId ≠ "")).map
    fun entry => entry.node.key).Nodup
  cache : ∀ key value, next.nodeCache.get? key = some value → s.nodeCache.get? key = some value ∨
    ∃ entry ∈ added, entry.node.key = key ∧ value = some entry.node
  covered : ∀ entry ∈ pending, entry ∈ added ∨
    entry.node.objectId ≠ "" ∧ entry.node.key ∈ next.seenNodes

/-- The pending nodes are read one after another. -/
theorem exists_entered (s : TreeState) (current : List TreeEntry) (pending : List TreeEntry) :
    ∃ added, (pending.foldl enterNode (s, current)).2 = current ++ added ∧
      Entered s pending (pending.foldl enterNode (s, current)).1 added := by
  induction pending generalizing s current with
  | nil =>
      refine ⟨[], by simp, ?_⟩
      exact
        { expanded := by simp
          seenCollections := rfl
          subset := nofun
          seen := by simp
          fresh := nofun
          nodup := List.nodup_nil
          cache := fun key value h => .inl h
          covered := nofun }
  | cons entry pending ih =>
      rw [List.foldl_cons, enterNode]
      by_cases hid : entry.node.objectId = ""
      · -- a node without an object id is read each time
        rw [if_pos hid]
        dsimp only
        obtain ⟨added, hcurrent, hentered⟩ :=
          ih { s with expanded := s.expanded ++ [entry] } (current ++ [entry])
        refine ⟨entry :: added, ?_, ?_⟩
        · rw [hcurrent, List.append_assoc, List.singleton_append]
        · refine
            { expanded := ?_
              seenCollections := hentered.seenCollections
              subset := ?_
              seen := ?_
              fresh := ?_
              nodup := ?_
              cache := ?_
              covered := ?_ }
          · rw [hentered.expanded, List.append_assoc, List.singleton_append]
          · intro other hother
            rcases List.mem_cons.1 hother with rfl | hlater
            · exact List.mem_cons_self
            · exact List.mem_cons_of_mem _ (hentered.subset other hlater)
          · intro key
            rw [hentered.seen]
            simp [hid]
          · intro other hother hne
            rcases List.mem_cons.1 hother with rfl | hlater
            · exact absurd hid hne
            · exact hentered.fresh other hlater hne
          · rw [List.filter_cons_of_neg (by simp [hid])]
            exact hentered.nodup
          · intro key value hvalue
            rcases hentered.cache key value hvalue with hold | ⟨other, hother, heq⟩
            · exact .inl hold
            · exact .inr ⟨other, List.mem_cons_of_mem _ hother, heq⟩
          · intro other hother
            rcases List.mem_cons.1 hother with rfl | hlater
            · exact .inl List.mem_cons_self
            · exact (hentered.covered other hlater).imp_left (List.mem_cons_of_mem _)
      · rw [if_neg hid]
        by_cases hseen : entry.node.key ∈ s.seenNodes
        · -- a node with this key has been read
          rw [if_pos hseen]
          obtain ⟨added, hcurrent, hentered⟩ := ih s current
          refine ⟨added, hcurrent, { hentered with subset := ?_, covered := ?_ }⟩
          · intro other hother
            exact List.mem_cons_of_mem _ (hentered.subset other hother)
          · intro other hother
            rcases List.mem_cons.1 hother with rfl | hlater
            · exact .inr ⟨hid, (hentered.seen _).2 (.inl hseen)⟩
            · exact hentered.covered other hlater
        · rw [if_neg hseen]
          dsimp only
          obtain ⟨added, hcurrent, hentered⟩ :=
            ih { s with
              seenNodes := entry.node.key :: s.seenNodes
              nodeCache := s.nodeCache.set entry.node.key (some entry.node)
              expanded := s.expanded ++ [entry] } (current ++ [entry])
          refine ⟨entry :: added, ?_, ?_⟩
          · rw [hcurrent, List.append_assoc, List.singleton_append]
          · refine
              { expanded := ?_
                seenCollections := hentered.seenCollections
                subset := ?_
                seen := ?_
                fresh := ?_
                nodup := ?_
                cache := ?_
                covered := ?_ }
            · rw [hentered.expanded, List.append_assoc, List.singleton_append]
            · intro other hother
              rcases List.mem_cons.1 hother with rfl | hlater
              · exact List.mem_cons_self
              · exact List.mem_cons_of_mem _ (hentered.subset other hlater)
            · intro key
              rw [hentered.seen]
              dsimp only
              rw [List.mem_cons]
              constructor
              · rintro ((rfl | hold) | ⟨other, hother, heq⟩)
                · exact .inr ⟨entry, List.mem_cons_self, hid, rfl⟩
                · exact .inl hold
                · exact .inr ⟨other, List.mem_cons_of_mem _ hother, heq⟩
              · rintro (hold | ⟨other, hother, hne, heq⟩)
                · exact .inl (.inr hold)
                · rcases List.mem_cons.1 hother with rfl | hlater
                  · exact .inl (.inl heq.symm)
                  · exact .inr ⟨other, hlater, hne, heq⟩
            · intro other hother hne
              rcases List.mem_cons.1 hother with rfl | hlater
              · exact hseen
              · exact fun hmem => hentered.fresh other hlater hne (List.mem_cons_of_mem _ hmem)
            · rw [List.filter_cons_of_pos (by simp [hid]), List.map_cons, List.nodup_cons]
              refine ⟨?_, hentered.nodup⟩
              intro hmem
              obtain ⟨other, hother, heq⟩ := List.mem_map.1 hmem
              obtain ⟨hlater, hne⟩ := List.mem_filter.1 hother
              refine hentered.fresh other hlater (of_decide_eq_true hne) ?_
              rw [heq]
              exact List.mem_cons_self
            · intro key value hvalue
              rcases hentered.cache key value hvalue with hold | ⟨other, hother, heq⟩
              · dsimp only at hold
                rw [Dict.get?_set] at hold
                split at hold
                · rename_i hkey
                  exact .inr ⟨entry, List.mem_cons_self, hkey.symm, (Option.some.inj hold).symm⟩
                · exact .inl hold
              · exact .inr ⟨other, List.mem_cons_of_mem _ hother, heq⟩
            · intro other hother
              rcases List.mem_cons.1 hother with rfl | hlater
              · exact .inl List.mem_cons_self
              · exact (hentered.covered other hlater).imp_left (List.mem_cons_of_mem _)

end Entering

/-! ## The nodes that a level leads to -/

section Children

variable {build : TreeBuild} {graph : TreeGraph} {s : TreeState} {depth : Nat}
  {current : List TreeEntry}

/-- The collections that a level loads, with what has been seen after them. -/
def levelCollections (build : TreeBuild) (graph : TreeGraph) (s : TreeState)
    (current : List TreeEntry) : List String × List CollectionSpec :=
  uniqueCollections s.seenCollections
    (sortOn CollectionSpec.path (current.flatMap (TreeEntry.collectionSpecs build graph)))

/-- The references of a level. -/
def levelChildren (build : TreeBuild) (graph : TreeGraph) (s : TreeState) (depth : Nat)
    (current : List TreeEntry) : List TreeRef :=
  current.flatMap (TreeEntry.directRefs build) ++
    (loadCollections build graph (levelCollections build graph s current).2).flatMap
      (itemRefs build (depth + 1))

/-- What is cached after a level. -/
def levelCache (build : TreeBuild) (graph : TreeGraph) (s : TreeState) (depth : Nat)
    (current : List TreeEntry) : Dict String (Option TreeNode) :=
  fetchNodeSpecs graph
    (fetchNodeSpecs graph s.nodeCache (current.flatMap (TreeEntry.directRefs build)))
    (levelChildren build graph s depth current)

theorem expandNodes_eq :
    expandNodes build graph s depth current =
      ({ s with
          seenCollections := (levelCollections build graph s current).1
          nodeCache := levelCache build graph s depth current
          collections := s.collections ++
            loadCollections build graph (levelCollections build graph s current).2 },
        pendingNodes (levelCache build graph s depth current)
          (levelChildren build graph s depth current)) := rfl

theorem mem_collectionSpecs {entry : TreeEntry} {spec : CollectionSpec}
    (h : spec ∈ entry.collectionSpecs build graph) :
    entry.depth < build.maxDepth ∧ entry.path.length < spec.path.length ∧
      ∃ field name, (field, name) ∈ entry.node.namedCollections ∧
        spec.key = entry.node.collectionKey build graph name := by
  unfold TreeEntry.collectionSpecs at h
  split at h
  · cases h
  · rename_i hdepth
    obtain ⟨named, hnamed, rfl⟩ := List.mem_map.1 h
    refine ⟨Nat.not_le.1 hdepth, ?_, named.1, named.2, hnamed, rfl⟩
    have hdot : ".".length = 1 := rfl
    simp only [TreeEntry.collectionSpec, String.length_append, hdot]
    omega

theorem mem_directRefs {entry : TreeEntry} {ref : TreeRef} (h : ref ∈ entry.directRefs build) :
    entry.depth < build.maxDepth ∧ entry.path.length < ref.path.length ∧
      ref.depth = entry.depth + 1 ∧ ∃ named ∈ entry.node.namedNodes,
        ref.type = named.type ∧ ref.objectId = named.objectId := by
  unfold TreeEntry.directRefs at h
  split at h
  · cases h
  · rename_i hdepth
    obtain ⟨named, hnamed, rfl⟩ := List.mem_map.1 h
    refine ⟨Nat.not_le.1 hdepth, ?_, rfl, named, hnamed, rfl, rfl⟩
    have hdot : ".".length = 1 := rfl
    simp only [String.length_append, hdot]
    omega

/-- A reference of a level comes from one of its nodes. -/
theorem mem_levelChildren (hcurrent : ∀ entry ∈ current, entry.depth = depth) {ref : TreeRef}
    (h : ref ∈ levelChildren build graph s depth current) :
    ref.depth = depth + 1 ∧ ∃ entry ∈ current, depth < build.maxDepth ∧
      entry.path.length < ref.path.length ∧
      TreeEdge build graph (graph.loadedItems build) entry.node ref.type ref.objectId := by
  unfold levelChildren at h
  rcases List.mem_append.1 h with hdirect | hitem
  · obtain ⟨entry, hentry, href⟩ := List.mem_flatMap.1 hdirect
    obtain ⟨hdepth, hpath, href, named, hnamed, htype, hid⟩ := mem_directRefs href
    rw [hcurrent entry hentry] at hdepth href
    refine ⟨href, entry, hentry, hdepth, hpath, ?_⟩
    rw [htype, hid]
    exact .field hnamed
  · obtain ⟨loaded, hloaded, href⟩ := List.mem_flatMap.1 hitem
    obtain ⟨hdepth, hpath, item, hitem, htype, hid, hrefType, hrefId⟩ := mem_itemRefs href
    rw [loadCollections_eq] at hloaded
    obtain ⟨spec, hspec, rfl⟩ := List.mem_map.1 hloaded
    obtain ⟨hin, hspecType, hspecId⟩ := mem_uniqueCollections.1 spec hspec
    obtain ⟨entry, hentry, hspec'⟩ := List.mem_flatMap.1 (mem_sortOn.1 hin)
    obtain ⟨hlt, hspecPath, field, name, hnamed, hkey⟩ := mem_collectionSpecs hspec'
    rw [hcurrent entry hentry] at hlt
    refine ⟨hdepth, entry, hentry, hlt, Nat.lt_of_lt_of_le hspecPath hpath, ?_⟩
    have hedge : TreeEdge build graph (graph.loadedItems build) entry.node item.type
        item.objectId := by
      refine .item hnamed ?_ ?_ ?_ htype hid
      · rw [← hkey]
        exact hspecType
      · rw [← hkey]
        exact hspecId
      · rw [← hkey]
        exact hitem
    rw [hrefType, hrefId]
    exact hedge

/-- What a node of a level names is a reference of the level, or an item of a collection that
an earlier level has loaded. -/
theorem exists_levelChild (hkeys : graph.KeysApart build)
    (hreached : ∀ entry ∈ current, ∃ d,
      Reached build graph (graph.loadedItems build) d entry.node)
    {entry : TreeEntry} (hentry : entry ∈ current) (hdepth : entry.depth < build.maxDepth)
    (hlevel : depth + 1 ≤ build.maxDepth) {type objectId : String}
    (hedge : TreeEdge build graph (graph.loadedItems build) entry.node type objectId) :
    (∃ ref ∈ levelChildren build graph s depth current,
        ref.type = type ∧ ref.objectId = objectId) ∨
      ∃ key item, key.text ∈ s.seenCollections ∧ NamedCollection build graph key ∧
        item ∈ graph.loadedItems build key ∧ item.type ≠ "" ∧ item.objectId ≠ "" ∧
        item.type = type ∧ item.objectId = objectId := by
  cases hedge with
  | @field named hnamed =>
      let ref : TreeRef :=
        { type := named.type, objectId := named.objectId,
          path := entry.path ++ "." ++ named.field, depth := entry.depth + 1 }
      refine .inl ⟨ref, ?_, rfl, rfl⟩
      refine List.mem_append_left _ (List.mem_flatMap.2 ⟨entry, hentry, ?_⟩)
      rw [TreeEntry.directRefs, if_neg (Nat.not_le.2 hdepth)]
      exact List.mem_map.2 ⟨named, hnamed, rfl⟩
  | @item field name item hnamed htype hid hitem hitemType hitemId =>
      obtain ⟨d, hnode⟩ := hreached entry hentry
      have hcollection : NamedCollection build graph (entry.node.collectionKey build graph name) :=
        ⟨d, entry.node, field, name, hnode, hnamed, rfl⟩
      have hspec : entry.collectionSpec build graph field name ∈
          sortOn CollectionSpec.path
            (current.flatMap (TreeEntry.collectionSpecs build graph)) := by
        refine mem_sortOn.2 (List.mem_flatMap.2 ⟨entry, hentry, ?_⟩)
        rw [TreeEntry.collectionSpecs, if_neg (Nat.not_le.2 hdepth)]
        exact List.mem_map.2 ⟨(field, name), hnamed, rfl⟩
      obtain ⟨hmem, htexts, hall⟩ := @mem_uniqueCollections s.seenCollections
        (sortOn CollectionSpec.path (current.flatMap (TreeEntry.collectionSpecs build graph)))
      rcases (htexts _).1 (hall _ hspec htype hid) with hbefore | ⟨other, hother, htext⟩
      · exact .inr ⟨_, item, hbefore, hcollection, hitem, hitemType, hitemId, rfl, rfl⟩
      · -- the collection is loaded at this level, perhaps for another node with its key
        obtain ⟨hin, _, _⟩ := hmem other hother
        obtain ⟨owner, howner, hspec'⟩ := List.mem_flatMap.1 (mem_sortOn.1 hin)
        obtain ⟨_, _, field', name', hnamed', hkey'⟩ := mem_collectionSpecs hspec'
        obtain ⟨d', howner'⟩ := hreached owner howner
        have hsame : other.key = entry.node.collectionKey build graph name :=
          hkeys.collections _ _ ⟨d', owner.node, field', name', howner', hnamed', hkey'⟩
            hcollection htext
        have hitem' : item ∈ (other, graph.loadedItems build other.key).2 := by
          rw [hsame]
          exact hitem
        obtain ⟨ref, href, hrefType, hrefId⟩ :=
          exists_itemRef hlevel hitem' hitemType hitemId
        refine .inl ⟨ref, ?_, hrefType, hrefId⟩
        refine List.mem_append_right _ (List.mem_flatMap.2 ⟨_, ?_, href⟩)
        rw [loadCollections_eq]
        exact List.mem_map.2 ⟨other, hother, rfl⟩

theorem mem_levelCollections {text : String}
    (h : text ∈ (levelCollections build graph s current).1) :
    text ∈ s.seenCollections ∨ ∃ spec ∈ (levelCollections build graph s current).2,
      spec.key.text = text ∧ ∃ entry ∈ current, entry.depth < build.maxDepth ∧ ∃ field name,
        (field, name) ∈ entry.node.namedCollections ∧
          spec.key = entry.node.collectionKey build graph name := by
  obtain ⟨hmem, htexts, _⟩ := @mem_uniqueCollections s.seenCollections
    (sortOn CollectionSpec.path (current.flatMap (TreeEntry.collectionSpecs build graph)))
  rcases (htexts text).1 h with hbefore | ⟨spec, hspec, htext⟩
  · exact .inl hbefore
  · obtain ⟨hin, _, _⟩ := hmem spec hspec
    obtain ⟨entry, hentry, hspec'⟩ := List.mem_flatMap.1 (mem_sortOn.1 hin)
    obtain ⟨hdepth, _, field, name, hnamed, hkey⟩ := mem_collectionSpecs hspec'
    exact .inr ⟨spec, hspec, htext, entry, hentry, hdepth, field, name, hnamed, hkey⟩

end Children

/-! ## The start of a level -/

section Levels

variable {build : TreeBuild} {graph : TreeGraph} {s : TreeState} {depth : Nat}
  {pending : List TreeEntry}

/-- What is known at the start of a level of every graph. -/
structure Read (build : TreeBuild) (graph : TreeGraph) (depth : Nat) (s : TreeState)
    (pending : List TreeEntry) : Prop where
  pending_depth : ∀ entry ∈ pending, entry.depth = depth
  depth_le : pending ≠ [] → depth ≤ build.maxDepth
  expanded_depth : ∀ entry ∈ s.expanded, entry.depth ≤ depth ∧ entry.depth ≤ build.maxDepth
  seen : ∀ key, key ∈ s.seenNodes ↔
    ∃ entry ∈ s.expanded, entry.node.objectId ≠ "" ∧ entry.node.key = key
  nodup : ((s.expanded.filter fun entry => decide (entry.node.objectId ≠ "")).map
    fun entry => entry.node.key).Nodup
  paths : ∀ entry ∈ s.expanded ++ pending, 5 ≤ entry.path.length ∧
    (entry.path = "asset" → entry.node = graph.root)

theorem read_start :
    Read build graph 0 {} [{ node := graph.root, path := "asset", depth := 0 }] where
  pending_depth entry hentry := by rw [List.mem_singleton.1 hentry]
  depth_le _ := Nat.zero_le _
  expanded_depth := nofun
  seen key := by simp
  nodup := List.nodup_nil
  paths entry hentry := by
    rw [List.nil_append] at hentry
    rw [List.mem_singleton.1 hentry]
    exact ⟨(by decide : 5 ≤ "asset".length), fun _ => rfl⟩

/-- The nodes that are read at a level keep what is known. -/
theorem Read.entered (h : Read build graph depth s pending) {next : TreeState}
    {added : List TreeEntry} (hentered : Entered s (sortOn TreeEntry.path pending) next added) :
    Read build graph depth next [] ∧ ∀ entry ∈ added, entry ∈ pending := by
  have hadded : ∀ entry ∈ added, entry ∈ pending :=
    fun entry hentry => mem_sortOn.1 (hentered.subset entry hentry)
  refine ⟨?_, hadded⟩
  refine
    { pending_depth := nofun
      depth_le := fun hne => absurd rfl hne
      expanded_depth := ?_
      seen := ?_
      nodup := ?_
      paths := ?_ }
  · intro entry hentry
    rw [hentered.expanded] at hentry
    rcases List.mem_append.1 hentry with hold | hnew
    · exact h.expanded_depth entry hold
    · have hpending := hadded entry hnew
      rw [h.pending_depth entry hpending]
      exact ⟨Nat.le_refl _, h.depth_le (List.ne_nil_of_mem hpending)⟩
  · intro key
    rw [hentered.seen, h.seen, hentered.expanded]
    constructor
    · rintro (⟨entry, hentry, hkey⟩ | ⟨entry, hentry, hkey⟩)
      · exact ⟨entry, List.mem_append_left _ hentry, hkey⟩
      · exact ⟨entry, List.mem_append_right _ hentry, hkey⟩
    · rintro ⟨entry, hentry, hkey⟩
      rcases List.mem_append.1 hentry with hold | hnew
      · exact .inl ⟨entry, hold, hkey⟩
      · exact .inr ⟨entry, hnew, hkey⟩
  · rw [hentered.expanded, List.filter_append, List.map_append, List.nodup_append']
    refine ⟨h.nodup, hentered.nodup, ?_⟩
    intro key hold hnew
    obtain ⟨entry, hentry, rfl⟩ := List.mem_map.1 hnew
    obtain ⟨hmem, hne⟩ := List.mem_filter.1 hentry
    refine hentered.fresh entry hmem (of_decide_eq_true hne) ?_
    obtain ⟨other, hother, hkey⟩ := List.mem_map.1 hold
    obtain ⟨hmem', hne'⟩ := List.mem_filter.1 hother
    exact (h.seen _).2 ⟨other, hmem', of_decide_eq_true hne', hkey⟩
  · intro entry hentry
    rw [List.append_nil, hentered.expanded] at hentry
    rcases List.mem_append.1 hentry with hold | hnew
    · exact h.paths entry (List.mem_append_left _ hold)
    · exact h.paths entry (List.mem_append_right _ (hadded entry hnew))

/-- One level keeps what is known. -/
theorem Read.level (h : Read build graph depth s pending) :
    Read build graph (depth + 1) (treeLevel build graph s depth pending).1
      (treeLevel build graph s depth pending).2 := by
  obtain ⟨added, hcurrent, hentered⟩ :=
    exists_entered s [] (sortOn TreeEntry.path pending)
  obtain ⟨hread, hadded⟩ := h.entered hentered
  rw [List.nil_append] at hcurrent
  rw [treeLevel, hcurrent]
  generalize ((sortOn TreeEntry.path pending).foldl enterNode (s, [])).1 = next at hentered hread
  split
  · refine { hread with
      pending_depth := nofun, depth_le := fun hne => absurd rfl hne, expanded_depth := ?_ }
    intro entry hentry
    obtain ⟨hle, hmax⟩ := hread.expanded_depth entry hentry
    exact ⟨Nat.le_succ_of_le hle, hmax⟩
  · have hdepths : ∀ entry ∈ added, entry.depth = depth :=
      fun entry hentry => h.pending_depth entry (hadded entry hentry)
    rw [expandNodes_eq]
    refine
      { pending_depth := ?_
        depth_le := ?_
        expanded_depth := ?_
        seen := hread.seen
        nodup := hread.nodup
        paths := ?_ }
    · intro entry hentry
      obtain ⟨ref, href, _, _, hdepth⟩ := mem_pendingNodes.1 hentry
      rw [hdepth]
      exact (mem_levelChildren hdepths href).1
    · intro hne
      obtain ⟨entry, hentry⟩ := List.exists_mem_of_ne_nil _ hne
      obtain ⟨ref, href, _⟩ := mem_pendingNodes.1 hentry
      obtain ⟨_, _, _, hlt, _⟩ := mem_levelChildren hdepths href
      exact hlt
    · intro entry hentry
      obtain ⟨hle, hmax⟩ := hread.expanded_depth entry hentry
      exact ⟨Nat.le_succ_of_le hle, hmax⟩
    · intro entry hentry
      rcases List.mem_append.1 hentry with hold | hnew
      · exact hread.paths entry (List.mem_append_left _ hold)
      · obtain ⟨ref, href, _, hpath, _⟩ := mem_pendingNodes.1 hnew
        obtain ⟨_, owner, howner, _, hlonger, _⟩ := mem_levelChildren hdepths href
        have hlong := (h.paths owner (List.mem_append_right _ (hadded owner howner))).1
        rw [hpath]
        refine ⟨by omega, fun hasset => ?_⟩
        rw [hasset] at hlonger
        have hfive : "asset".length = 5 := rfl
        omega

theorem exists_treeLevels {fuel : Nat} (h : Read build graph depth s pending)
    (hfuel : build.maxDepth + 2 ≤ depth + fuel) (hdepth : depth ≤ build.maxDepth + 1) :
    ∃ final last, treeLevels build graph fuel depth s pending = some final ∧
      Read build graph last final [] := by
  induction fuel generalizing depth s pending with
  | zero => omega
  | succ fuel ih =>
      rw [treeLevels]
      by_cases hnone : pending = []
      · rw [if_pos hnone]
        subst hnone
        exact ⟨s, depth, rfl, h⟩
      · rw [if_neg hnone]
        have hle := h.depth_le hnone
        exact ih h.level (by omega) (by omega)

end Levels

/-! ## Nodes that have been read or are pending -/

section Exploring

variable {build : TreeBuild} {graph : TreeGraph} {s : TreeState} {depth : Nat}
  {pending : List TreeEntry}

/-- A node is among some entries, at a depth at most. -/
def Known (entries : List TreeEntry) (node : TreeNode) (depth : Nat) : Prop :=
  ∃ entry ∈ entries, entry.node = node ∧ entry.depth ≤ depth

/-- What is read or pending at the start of a level is reached, and what it leads to is read or
pending. -/
structure Explored (build : TreeBuild) (graph : TreeGraph) (depth : Nat) (s : TreeState)
    (pending : List TreeEntry) : Prop where
  sound : ∀ entry ∈ s.expanded ++ pending, ∃ d ≤ entry.depth,
    Reached build graph (graph.loadedItems build) d entry.node
  cache : CacheSound build graph s.nodeCache
  root : Known (s.expanded ++ pending) graph.root 0
  closed : ∀ entry ∈ s.expanded, entry.depth < build.maxDepth → ∀ type objectId child,
    TreeEdge build graph (graph.loadedItems build) entry.node type objectId →
    graph.node type objectId = .node child →
    Known (s.expanded ++ pending) child (entry.depth + 1)
  loaded : ∀ text ∈ s.seenCollections, ∃ key, key.text = text ∧
    NamedCollection build graph key ∧ ∀ item ∈ graph.loadedItems build key, item.type ≠ "" →
      item.objectId ≠ "" → ∀ child, graph.node item.type item.objectId = .node child →
      Known (s.expanded ++ pending) child depth

theorem explored_start :
    Explored build graph 0 {} [{ node := graph.root, path := "asset", depth := 0 }] where
  sound entry hentry := by
    rw [List.nil_append] at hentry
    rw [List.mem_singleton.1 hentry]
    exact ⟨0, Nat.le_refl 0, .root⟩
  cache key value h := by
    cases h
  root := ⟨_, List.mem_append_right _ (List.mem_singleton_self _), rfl, Nat.le_refl 0⟩
  closed := nofun
  loaded := nofun

theorem Known.mono {entries entries' : List TreeEntry} {node : TreeNode} {d d' : Nat}
    (h : Known entries node d) (hsub : ∀ entry ∈ entries, entry ∈ entries') (hle : d ≤ d') :
    Known entries' node d' := by
  obtain ⟨entry, hentry, hnode, hdepth⟩ := h
  exact ⟨entry, hsub entry hentry, hnode, Nat.le_trans hdepth hle⟩

/-- What was read or pending has been read after the pending nodes of a level. -/
theorem Explored.known_entered (h : Explored build graph depth s pending)
    (hkeys : graph.KeysApart build) (hread : Read build graph depth s pending)
    {next : TreeState} {added : List TreeEntry}
    (hentered : Entered s (sortOn TreeEntry.path pending) next added) {node : TreeNode} {d : Nat}
    (hknown : Known (s.expanded ++ pending) node d) :
    Known next.expanded node d := by
  obtain ⟨hread', hadded⟩ := hread.entered hentered
  obtain ⟨entry, hentry, rfl, hd⟩ := hknown
  rcases List.mem_append.1 hentry with hold | hpending
  · refine ⟨entry, ?_, rfl, hd⟩
    rw [hentered.expanded]
    exact List.mem_append_left _ hold
  · rcases hentered.covered entry (mem_sortOn.2 hpending) with hnew | ⟨_, hseen⟩
    · refine ⟨entry, ?_, rfl, hd⟩
      rw [hentered.expanded]
      exact List.mem_append_right _ hnew
    · -- a node with the same key has been read, no deeper than this level
      obtain ⟨other, hother, _, hkey⟩ := (hread'.seen _).1 hseen
      have hother' : other ∈ s.expanded ++ pending := by
        rw [hentered.expanded] at hother
        rcases List.mem_append.1 hother with hbefore | hnow
        · exact List.mem_append_left _ hbefore
        · exact List.mem_append_right _ (hadded other hnow)
      obtain ⟨_, _, hreached⟩ := h.sound entry hentry
      obtain ⟨_, _, hreached'⟩ := h.sound other hother'
      refine ⟨other, hother, hreached'.eq_of_key hkeys hreached hkey, ?_⟩
      have hle := (hread'.expanded_depth other hother).1
      rw [hread.pending_depth entry hpending] at hd
      exact Nat.le_trans hle hd

theorem Explored.cacheSound_entered (h : Explored build graph depth s pending)
    (hkeys : graph.KeysApart build) (hread : Read build graph depth s pending)
    {next : TreeState} {added : List TreeEntry}
    (hentered : Entered s (sortOn TreeEntry.path pending) next added) :
    CacheSound build graph next.nodeCache := by
  intro key value hvalue
  rcases hentered.cache key value hvalue with hold | ⟨entry, hentry, hkey, rfl⟩
  · exact h.cache key value hold
  · have hpending := (hread.entered hentered).2 entry hentry
    obtain ⟨_, _, hreached⟩ := h.sound entry (List.mem_append_right _ hpending)
    obtain ⟨hmentioned, hanswer⟩ := hreached.eq_root_or_answer hkeys
    refine ⟨_, _, hmentioned, hkey, ?_⟩
    rcases hanswer with hroot | hanswer
    · refine .inr ⟨hroot, ?_, ?_⟩
      · rw [hroot]
      · rw [hroot]
    · exact .inl hanswer

/-- One level keeps what has been explored. -/
theorem Explored.level (h : Explored build graph depth s pending)
    (hkeys : graph.KeysApart build) (hread : Read build graph depth s pending) :
    Explored build graph (depth + 1) (treeLevel build graph s depth pending).1
      (treeLevel build graph s depth pending).2 := by
  obtain ⟨added, hcurrent, hentered⟩ :=
    exists_entered s [] (sortOn TreeEntry.path pending)
  obtain ⟨hread', hadded⟩ := hread.entered hentered
  rw [List.nil_append] at hcurrent
  rw [treeLevel, hcurrent]
  generalize ((sortOn TreeEntry.path pending).foldl enterNode (s, [])).1 = next
    at hentered hread'
  have hknown : ∀ {node : TreeNode} {d : Nat}, Known (s.expanded ++ pending) node d →
      Known next.expanded node d := h.known_entered hkeys hread hentered
  have hcache := h.cacheSound_entered hkeys hread hentered
  have hsound : ∀ entry ∈ next.expanded, ∃ d ≤ entry.depth,
      Reached build graph (graph.loadedItems build) d entry.node := by
    intro entry hentry
    rw [hentered.expanded] at hentry
    rcases List.mem_append.1 hentry with hold | hnew
    · exact h.sound entry (List.mem_append_left _ hold)
    · exact h.sound entry (List.mem_append_right _ (hadded entry hnew))
  split
  · -- nothing new has been read
    rename_i hnone
    have hsame : next.expanded = s.expanded := by
      rw [hentered.expanded, hnone, List.append_nil]
    refine
      { sound := ?_
        cache := hcache
        root := ?_
        closed := ?_
        loaded := ?_ }
    · intro entry hentry
      rw [List.append_nil] at hentry
      exact hsound entry hentry
    · rw [List.append_nil]
      exact hknown h.root
    · intro entry hentry hdepth type objectId child hedge hanswer
      rw [List.append_nil]
      rw [hsame] at hentry
      exact hknown (h.closed entry hentry hdepth type objectId child hedge hanswer)
    · intro text htext
      rw [hentered.seenCollections] at htext
      obtain ⟨key, hkey, hnamed, hitems⟩ := h.loaded text htext
      refine ⟨key, hkey, hnamed, fun item hitem htype hid child hanswer => ?_⟩
      rw [List.append_nil]
      exact (hknown (hitems item hitem htype hid child hanswer)).mono (fun _ hmem => hmem)
        (Nat.le_succ depth)
  · have hdepths : ∀ entry ∈ added, entry.depth = depth :=
      fun entry hentry => hread.pending_depth entry (hadded entry hentry)
    have hnext : ∀ entry ∈ added, entry ∈ next.expanded := by
      intro entry hentry
      rw [hentered.expanded]
      exact List.mem_append_right _ hentry
    have hreached : ∀ entry ∈ added, ∃ d,
        Reached build graph (graph.loadedItems build) d entry.node := by
      intro entry hentry
      obtain ⟨d, _, hd⟩ := hsound entry (hnext entry hentry)
      exact ⟨d, hd⟩
    have hmentioned : ∀ ref ∈ levelChildren build graph next depth added,
        Mentioned build graph ref.type ref.objectId := by
      intro ref href
      obtain ⟨_, entry, hentry, _, _, hedge⟩ := mem_levelChildren hdepths href
      obtain ⟨d, hd⟩ := hreached entry hentry
      exact .inr ⟨d, entry.node, hd, hedge⟩
    have hdirect : CacheSound build graph (fetchNodeSpecs graph next.nodeCache
        (added.flatMap (TreeEntry.directRefs build))) :=
      (fetchNodeSpecs_spec hkeys hcache fun ref href =>
        hmentioned ref (List.mem_append_left _ href)).1
    obtain ⟨hcache', hcached⟩ := fetchNodeSpecs_spec hkeys hdirect hmentioned
    rw [expandNodes_eq]
    -- a reference whose request is answered is pending at the next level
    have hpend : ∀ ref ∈ levelChildren build graph next depth added, ∀ child,
        graph.node ref.type ref.objectId = .node child →
        Known (next.expanded ++ pendingNodes (levelCache build graph next depth added)
          (levelChildren build graph next depth added)) child (depth + 1) := by
      intro ref href child hanswer
      refine ⟨{ node := child, path := ref.path, depth := ref.depth }, ?_, rfl, ?_⟩
      · refine List.mem_append_right _ (mem_pendingNodes.2 ⟨ref, href, ?_, rfl, rfl⟩)
        exact hcached ref href child hanswer
      · exact Nat.le_of_eq (mem_levelChildren hdepths href).1
    have hold : ∀ {node : TreeNode} {d d' : Nat}, Known (s.expanded ++ pending) node d → d ≤ d' →
        Known (next.expanded ++ pendingNodes (levelCache build graph next depth added)
          (levelChildren build graph next depth added)) node d' :=
      fun hk hle => (hknown hk).mono (fun _ hmem => List.mem_append_left _ hmem) hle
    refine
      { sound := ?_
        cache := hcache'
        root := hold h.root (Nat.le_refl 0)
        closed := ?_
        loaded := ?_ }
    · intro entry hentry
      rcases List.mem_append.1 hentry with hread | hpending
      · exact hsound entry hread
      · obtain ⟨ref, href, hvalue, _, hdepth⟩ := mem_pendingNodes.1 hpending
        obtain ⟨hrefDepth, owner, howner, hlt, _, hedge⟩ := mem_levelChildren hdepths href
        obtain ⟨type, objectId, hmentioned', hkey, hsays⟩ := hcache' _ _ hvalue
        obtain ⟨rfl, rfl⟩ := hkeys.nodes _ _ _ _ hmentioned' (hmentioned ref href) hkey
        rcases hsays with hanswer | ⟨hroot, _, _⟩
        · obtain ⟨d, hd, hnode⟩ := hsound owner (hnext owner howner)
          rw [hdepths owner howner] at hd
          refine ⟨d + 1, by omega, .step hnode (Nat.lt_of_le_of_lt hd hlt) hedge hanswer⟩
        · rw [hroot]
          exact ⟨0, Nat.zero_le _, .root⟩
    · intro entry hentry hdepth type objectId child hedge hanswer
      dsimp only at hentry
      rw [hentered.expanded] at hentry
      rcases List.mem_append.1 hentry with hbefore | hnew
      · exact hold (h.closed entry hbefore hdepth type objectId child hedge hanswer)
          (Nat.le_refl _)
      · have hlevel : depth + 1 ≤ build.maxDepth := by
          rw [hdepths entry hnew] at hdepth
          exact hdepth
        rw [hdepths entry hnew]
        rcases exists_levelChild hkeys hreached hnew hdepth hlevel hedge with
          ⟨ref, href, rfl, rfl⟩ | ⟨key, item, hseen, hnamed, hitem, htype, hid, rfl, rfl⟩
        · exact hpend ref href child hanswer
        · -- an earlier level has loaded the collection
          rw [hentered.seenCollections] at hseen
          obtain ⟨key', hkey', hnamed', hitems⟩ := h.loaded _ hseen
          obtain rfl := hkeys.collections _ _ hnamed' hnamed hkey'
          exact hold (hitems item hitem htype hid child hanswer) (Nat.le_succ depth)
    · intro text htext
      rcases mem_levelCollections htext with hbefore | ⟨spec, hspec, htext', entry, hentry, hlt,
        field, name, hnamed, hkey⟩
      · rw [hentered.seenCollections] at hbefore
        obtain ⟨key, hkey, hnamed, hitems⟩ := h.loaded text hbefore
        refine ⟨key, hkey, hnamed, fun item hitem htype hid child hanswer => ?_⟩
        exact hold (hitems item hitem htype hid child hanswer) (Nat.le_succ depth)
      · obtain ⟨d, hd⟩ := hreached entry hentry
        refine ⟨spec.key, htext', ⟨d, entry.node, field, name, hd, hnamed, hkey⟩, ?_⟩
        intro item hitem htype hid child hanswer
        rw [hdepths entry hentry] at hlt
        have hloaded : (spec, graph.loadedItems build spec.key) ∈
            loadCollections build graph (levelCollections build graph next added).2 := by
          rw [loadCollections_eq]
          exact List.mem_map.2 ⟨spec, hspec, rfl⟩
        obtain ⟨ref, href, hrefType, hrefId⟩ := exists_itemRef
          (show depth + 1 ≤ build.maxDepth from hlt)
          (show item ∈ (spec, graph.loadedItems build spec.key).2 from hitem) htype hid
        refine hpend ref ?_ child ?_
        · exact List.mem_append_right _ (List.mem_flatMap.2 ⟨_, hloaded, href⟩)
        · rw [hrefType, hrefId]
          exact hanswer

theorem Explored.levels {fuel : Nat} (h : Explored build graph depth s pending)
    (hkeys : graph.KeysApart build) (hread : Read build graph depth s pending)
    {final : TreeState} (hfinal : treeLevels build graph fuel depth s pending = some final) :
    ∃ last, Explored build graph last final [] := by
  induction fuel generalizing depth s pending with
  | zero => cases hfinal
  | succ fuel ih =>
      rw [treeLevels] at hfinal
      by_cases hnone : pending = []
      · rw [if_pos hnone] at hfinal
        subst hnone
        obtain rfl := Option.some.inj hfinal
        exact ⟨depth, h⟩
      · rw [if_neg hnone] at hfinal
        exact ih (h.level hkeys hread) hread.level hfinal

theorem Explored.known_of_reached (h : Explored build graph depth s []) {d : Nat}
    {node : TreeNode} (hreached : Reached build graph (graph.loadedItems build) d node) :
    Known s.expanded node d := by
  have hall := h.closed
  have hroot := h.root
  rw [List.append_nil] at hall hroot
  induction hreached with
  | root => exact hroot
  | @step d node child type objectId _ hlt hedge hanswer ih =>
      obtain ⟨entry, hentry, rfl, hdepth⟩ := ih
      have hchild := hall entry hentry (Nat.lt_of_le_of_lt hdepth hlt) type objectId child hedge
        hanswer
      exact hchild.mono (fun _ hmem => hmem) (Nat.succ_le_succ hdepth)

theorem treeLevels_add {fuel : Nat} (more : Nat) {final : TreeState}
    (h : treeLevels build graph fuel depth s pending = some final) :
    treeLevels build graph (fuel + more) depth s pending = some final := by
  induction fuel generalizing depth s pending with
  | zero => cases h
  | succ fuel ih =>
      rw [Nat.succ_add]
      rw [treeLevels] at h ⊢
      split at h
      · rename_i hnone
        rw [if_pos hnone]
        exact h
      · rename_i hsome
        rw [if_neg hsome]
        exact ih h

theorem traverseTree_unique {fuel fuel' : Nat} {s s' : TreeState}
    (h : traverseTree build graph fuel = some s) (h' : traverseTree build graph fuel' = some s') :
    s = s' := by
  have hmore := treeLevels_add fuel' h
  have hmore' := treeLevels_add fuel h'
  rw [Nat.add_comm] at hmore'
  exact Option.some.inj (hmore.symm.trans hmore')

/-- A host that names another host. -/
def hostNaming (objectId peer : String) : TreeNode where
  type := "Host"
  objectId := objectId
  fields := [{ name := "Peer", kind := .ref "Host" peer }]

/-- Two hosts that name each other. -/
def peers : TreeGraph where
  root := hostNaming "a" "b"
  node type objectId :=
    if type = "Host" ∧ objectId = "b" then .node (hostNaming "b" "a") else .failed
  server _ := []
  script _ _ _ := .error "not found"

theorem peers_node_eq {type objectId : String} {node : TreeNode}
    (h : peers.node type objectId = .node node) :
    (type = "Host" ∧ objectId = "b") ∧ node = hostNaming "b" "a" := by
  have hif : peers.node type objectId =
      if type = "Host" ∧ objectId = "b" then .node (hostNaming "b" "a") else .failed := rfl
  rw [hif] at h
  split at h
  · rename_i hname
    exact ⟨hname, (NodeAnswer.node.inj h).symm⟩
  · cases h

theorem mentioned_peers {build : TreeBuild} {type objectId : String}
    (h : Mentioned build peers type objectId) :
    type = "Host" ∧ (objectId = "a" ∨ objectId = "b") := by
  rcases h with ⟨rfl, rfl⟩ | ⟨depth, node, hreached, hedge⟩
  · exact ⟨rfl, .inl rfl⟩
  · obtain ⟨name, peer, rfl, hpeer⟩ : ∃ name peer, node = hostNaming name peer ∧
        (peer = "a" ∨ peer = "b") := by
      cases hreached with
      | root => exact ⟨"a", "b", rfl, .inr rfl⟩
      | step _ _ _ hanswer => exact ⟨"b", "a", (peers_node_eq hanswer).2, .inl rfl⟩
    cases hedge with
    | @field named hnamed =>
        rcases hpeer with rfl | rfl
        · obtain rfl := List.mem_singleton.1 hnamed
          exact ⟨rfl, .inl rfl⟩
        · obtain rfl := List.mem_singleton.1 hnamed
          exact ⟨rfl, .inr rfl⟩
    | item hnamed => cases hnamed

theorem keysApart_peers (build : TreeBuild) :
    peers.KeysApart build where
  self type objectId node h := by
    obtain ⟨⟨rfl, rfl⟩, rfl⟩ := peers_node_eq h
    exact ⟨rfl, rfl⟩
  root node h := absurd (peers_node_eq h).1.2 (by decide)
  nodes type objectId type' objectId' h h' hkey := by
    obtain ⟨rfl, hid⟩ := mentioned_peers h
    obtain ⟨rfl, hid'⟩ := mentioned_peers h'
    refine ⟨rfl, ?_⟩
    rcases hid with rfl | rfl <;> rcases hid' with rfl | rfl
    · rfl
    · exact absurd hkey (by decide)
    · exact absurd hkey (by decide)
    · rfl
  collections key key' h _ _ := by
    obtain ⟨depth, node, field, name, hreached, hnamed, _⟩ := h
    cases hreached with
    | root => cases hnamed
    | step _ _ _ hanswer =>
        rw [(peers_node_eq hanswer).2] at hnamed
        cases hnamed

/-- A build that keeps one item of a collection. -/
def oneItemBuild : TreeBuild where
  assetId := "a"
  maxDepth := 3
  limits :=
    { limitPerCollection := 1, maxItems := 1
      limit_pos := Nat.one_pos, maxItems_pos := Nat.one_pos }

/-- A host whose collection has two items. -/
def softwareHost : TreeGraph where
  root := { type := "Host", objectId := "a", collections := [{ name := "Softs" }] }
  node type objectId :=
    if type = "Soft" then .node { type := type, objectId := objectId } else .failed
  server _ := [{ type := "Soft", objectId := "1" }, { type := "Soft", objectId := "2" }]
  script _ offset limit := .ok { start := offset, length := limit, count := some 2 }

end Exploring

end AssetCard
end MpvmApp
