import MpvmApp.AssetGroups.Groups
import MpvmApp.Lib.Forest

/-!
# The hierarchy of the asset groups

A request reads the ancestors of a parent one by one and writes afterwards, and nothing
keeps the hierarchy as it was read.  An archived group keeps its children.  The hierarchy
stays sound exactly as long as no write meets a hierarchy that its check would refuse,
and no group is archived that has children.

Main results:

- Theorem `step_sound_iff`: which steps keep the hierarchy sound.
- Theorem `hierarchy_sound_iff`: the hierarchy stays sound throughout a run exactly
  when every step of the run meets the condition.
- Theorem `move_alone_keeps_sound`: a move that nothing interrupts keeps the hierarchy sound.
-/

namespace MpvmApp
namespace AssetGroups

open Relation (ReflTransGen)

variable {U Q E : Type*} [DecidableEq U]

/-! ## What a sound hierarchy is -/

/-- The parent of a group. -/
def parentOf (s : State U Q E) (groupId : U) : Option U :=
  (s.groups.get? groupId).bind Group.parentId

/-- The group is there and not archived. -/
def isLive (s : State U Q E) (groupId : U) : Bool :=
  (s.live? groupId).isSome

/-- No group is its own ancestor, and the parent of a live group is live. -/
structure Sound (s : State U Q E) : Prop where
  acyclic : Forest.Acyclic (parentOf s)
  parentsLive : ∀ g p, isLive s g = true → parentOf s g = some p → isLive s p = true

theorem sound_initial :
    Sound (initial : State U Q E) where
  acyclic := by
    intro g hcycle
    obtain ⟨p, hedge, -⟩ := Relation.TransGen.head'_iff.1 hcycle
    simp [Forest.Edge, parentOf, initial] at hedge
  parentsLive := by simp [parentOf, initial]

/-- The part of a row that the hierarchy consists of: the parent and the archive mark. -/
def shape (s : State U Q E) (groupId : U) : Option (Option U × Bool) :=
  (s.groups.get? groupId).map fun group => (group.parentId, group.archived)

theorem parentOf_eq_shape (s : State U Q E) (groupId : U) :
    parentOf s groupId = (shape s groupId).bind Prod.fst := by
  unfold parentOf shape
  cases s.groups.get? groupId <;> rfl

theorem isLive_eq_shape (s : State U Q E) (groupId : U) :
    isLive s groupId = (shape s groupId).any fun row => !row.2 := by
  unfold isLive State.live? shape
  cases s.groups.get? groupId with
  | none => rfl
  | some group => cases hgroup : group.archived <;> simp [hgroup]

theorem sound_congr {s s' : State U Q E} (h : ∀ g, shape s' g = shape s g) :
    Sound s' ↔ Sound s := by
  have hparent : parentOf s' = parentOf s := by
    funext g
    rw [parentOf_eq_shape, parentOf_eq_shape, h]
  have hlive : isLive s' = isLive s := by
    funext g
    rw [isLive_eq_shape, isLive_eq_shape, h]
  constructor
  · intro hsound
    exact ⟨hparent ▸ hsound.acyclic, hparent ▸ hlive ▸ hsound.parentsLive⟩
  · intro hsound
    exact ⟨hparent.symm ▸ hsound.acyclic, hparent.symm ▸ hlive.symm ▸ hsound.parentsLive⟩

/-! ## Writes and archived groups -/

/-- A stored row keeps the hierarchy sound exactly when its parent is a live group below it. -/
theorem sound_write_iff {s s' : State U Q E} (h : Sound s) {g : U} {parent : Option U}
    (hshape : ∀ x, shape s' x = if x = g then some (parent, false) else shape s x) :
    Sound s' ↔ ∀ p, parent = some p →
      isLive s p = true ∧ ¬ ReflTransGen (Forest.Edge (parentOf s)) p g := by
  have hparent : parentOf s' = Function.update (parentOf s) g parent := by
    funext x
    rw [parentOf_eq_shape, hshape, Function.update_apply]
    split
    · rfl
    · rw [parentOf_eq_shape]
  have hlive : ∀ x, isLive s' x = if x = g then true else isLive s x := by
    intro x
    rw [isLive_eq_shape, hshape]
    split
    · rfl
    · rw [isLive_eq_shape]
  constructor
  · rintro hsound p rfl
    have hpath : ¬ ReflTransGen (Forest.Edge (parentOf s)) p g := by
      have hacyclic := hsound.acyclic
      rw [hparent] at hacyclic
      exact (Forest.acyclic_update_some_iff h.acyclic).1 hacyclic
    have hne : p ≠ g := by
      rintro rfl
      exact hpath ReflTransGen.refl
    have hp := hsound.parentsLive g p (by rw [hlive, if_pos rfl]) (by rw [hparent]; simp)
    rw [hlive, if_neg hne] at hp
    exact ⟨hp, hpath⟩
  · intro hok
    refine ⟨?_, fun x y hx hy => ?_⟩
    · rw [hparent]
      cases parent with
      | none => exact Forest.acyclic_update_none h.acyclic
      | some p => exact (Forest.acyclic_update_some_iff h.acyclic).2 (hok p rfl).2
    · rw [hparent, Function.update_apply] at hy
      rw [hlive] at hx ⊢
      split
      · rfl
      · split at hy
        · exact (hok y hy).1
        · rename_i hxg
          rw [if_neg hxg] at hx
          exact h.parentsLive x y hx hy

/-- A live group may be archived exactly when it has no live children. -/
theorem sound_archive_iff {s s' : State U Q E} (h : Sound s) {g : U} (hg : isLive s g = true)
    (hshape : ∀ x, shape s' x = if x = g then some (parentOf s g, true) else shape s x) :
    Sound s' ↔ ∀ child, isLive s child = true → parentOf s child ≠ some g := by
  have hparent : parentOf s' = parentOf s := by
    funext x
    rw [parentOf_eq_shape, hshape]
    split
    · rename_i hx
      rw [hx]
      rfl
    · rw [parentOf_eq_shape]
  have hlive : ∀ x, isLive s' x = if x = g then false else isLive s x := by
    intro x
    rw [isLive_eq_shape, hshape]
    split
    · rfl
    · rw [isLive_eq_shape]
  constructor
  · intro hsound child hchild hedge
    have hne : child ≠ g := by
      rintro rfl
      exact h.acyclic child (Relation.TransGen.single hedge)
    have hp := hsound.parentsLive child g (by rw [hlive, if_neg hne, hchild]) (by rw [hparent, hedge])
    rw [hlive, if_pos rfl] at hp
    cases hp
  · intro hok
    refine ⟨by rw [hparent]; exact h.acyclic, fun x y hx hy => ?_⟩
    rw [hlive] at hx ⊢
    split at hx
    · cases hx
    · rw [hparent] at hy
      have hne : y ≠ g := by
        rintro rfl
        exact hok x hx hy
      rw [if_neg hne]
      exact h.parentsLive x y hx hy

/-! ## Steps -/

/-- The row that a step of a request stores. -/
def storedRow (ctx : Context U Q) (s : State U Q E) : Event U Q E → Option (U × Group U Q)
  | .write i =>
      match s.tasks[i]? with
      | some (.walking request _ none) => s.rowToWrite ctx request
      | _ => none
  | _ => none

/--
A row that is stored has a live parent, and its group is not this parent or one of its
ancestors; a live group that is archived has no live children.
-/
structure HierarchyOk (ctx : Context U Q) (s : State U Q E) (event : Event U Q E) : Prop where
  stored : ∀ g row p, storedRow ctx s event = some (g, row) → row.parentId = some p →
    isLive s p = true ∧ ¬ ReflTransGen (Forest.Edge (parentOf s)) p g
  archived : ∀ g, event = .archive g → isLive s g = true →
    ∀ child, isLive s child = true → parentOf s child ≠ some g

theorem live?_eq_some_iff (s : State U Q E) (g : U) (group : Group U Q) :
    s.live? g = some group ↔ s.groups.get? g = some group ∧ group.archived = false := by
  simp [State.live?, Option.filter_eq_some_iff]

theorem rowToWrite_live {ctx : Context U Q} {s : State U Q E} {request : Request U Q} {g : U}
    {row : Group U Q} (h : s.rowToWrite ctx request = some (g, row)) :
    row.archived = false := by
  cases request with
  | create groupId parentId name description query =>
      simp only [State.rowToWrite] at h
      split at h
      · cases h
      · cases h
        rfl
  | update groupText changes =>
      simp only [State.rowToWrite, Option.bind_eq_some_iff] at h
      obtain ⟨groupId, -, old, hold, h⟩ := h
      split at h
      · cases h
      · cases h
        exact ((live?_eq_some_iff s g old).1 hold).2

theorem shape_updateGroup (s : State U Q E) (groupId : U) {f : Group U Q → Group U Q}
    (hf : ∀ group, (f group).parentId = group.parentId ∧ (f group).archived = group.archived)
    (g : U) :
    shape (s.updateGroup groupId f) g = shape s g := by
  unfold State.updateGroup
  split
  · rename_i group hgroup
    simp only [shape, Dict.get?_set]
    split
    · rename_i hg
      rw [hg, hgroup, Option.map_some, Option.map_some, (hf group).1, (hf group).2]
    · rfl
  · rfl

theorem shape_updateEvaluation (s : State U Q E) (evaluationId : Nat)
    (f : EvaluationRow U → EvaluationRow U) (g : U) :
    shape (s.updateEvaluation evaluationId f) g = shape s g := by
  unfold State.updateEvaluation
  split <;> rfl

theorem shape_markStale (s : State U Q E) (groupId g : U) :
    shape (s.markStale groupId) g = shape s g :=
  shape_updateGroup s groupId (by intro group; exact ⟨rfl, rfl⟩) g

theorem shape_openEvaluation (s : State U Q E) (groupId : U) (evaluationId version : Nat)
    (g : U) :
    shape (s.openEvaluation groupId evaluationId version) g = shape s g := by
  unfold State.openEvaluation
  exact shape_updateGroup _ groupId (by intro group; exact ⟨rfl, rfl⟩) g

theorem shape_recordFailure (s : State U Q E) (groupId : U) (evaluationId : Nat)
    (error : String) (g : U) :
    shape (s.recordFailure groupId evaluationId error) g = shape s g := by
  unfold State.recordFailure
  rw [shape_updateGroup _ groupId (by intro group; exact ⟨rfl, rfl⟩) g]
  exact shape_updateEvaluation s evaluationId _ g

variable [DecidableEq E]

theorem shape_complete (s : State U Q E) (groupId : U) (evaluationId : Nat) (basis : Basis Q E)
    (rows : Dict String (RuleRow E)) (seen : List (String × Member E)) (g : U) :
    shape (s.complete groupId evaluationId basis rows seen) g = shape s g := by
  unfold State.complete
  dsimp only
  rw [shape_updateGroup _ groupId (by intro group; exact ⟨rfl, rfl⟩) g]
  exact shape_updateEvaluation _ evaluationId _ g

/-- An evaluation keeps the hierarchy. -/
theorem shape_evaluate (s : State U Q E) (i : Nat) (groupId : U) (evaluationId : Nat)
    (phase : Phase Q E) (event : Event U Q E) (g : U) :
    shape (s.evaluate i groupId evaluationId phase event) g = shape s g := by
  unfold State.evaluate
  dsimp only
  split
  · exact shape_openEvaluation s groupId evaluationId _ g
  · rfl
  · rfl
  · rfl
  · rfl
  · rfl
  · split
    · rfl
    · exact shape_complete s groupId evaluationId _ _ _ g
  · exact shape_recordFailure s groupId evaluationId _ g
  · rfl
  · rfl
  · rfl

/-- A step that stores no row and archives no group keeps the hierarchy. -/
theorem shape_step (ctx : Context U Q) (s : State U Q E) (event : Event U Q E)
    (hwrite : ∀ i, event ≠ .write i) (harchive : ∀ g, event ≠ .archive g) (g : U) :
    shape (step ctx s event) g = shape s g := by
  cases event with
  | beginCreate groupId parentId name description query =>
      simp only [step, State.beginCreate]
      split <;> rfl
  | beginUpdate groupId changes =>
      simp only [step, State.beginUpdate]
      split
      · rfl
      · split
        · rfl
        · split <;> rfl
  | readParent i =>
      simp only [step]
      split
      · unfold State.readParent
        split
        · rfl
        · split <;> rfl
      · rfl
  | write i => exact absurd rfl (hwrite i)
  | archive groupId => exact absurd rfl (harchive groupId)
  | setOverride groupId assetId action cardFound =>
      simp only [step, State.setOverride]
      split
      · exact shape_markStale _ groupId g
      · rfl
  | deleteOverride groupId assetId =>
      exact shape_markStale _ groupId g
  | beginEvaluation groupId =>
      simp only [step, State.beginEvaluation]
      split <;> rfl
  | crash i => rfl
  | _ =>
      simp only [step]
      split
      · exact shape_evaluate s _ _ _ _ _ g
      · rfl

/-- Which steps keep the hierarchy sound. -/
theorem step_sound_iff (ctx : Context U Q) (s : State U Q E) (event : Event U Q E)
    (h : Sound s) :
    Sound (step ctx s event) ↔ HierarchyOk ctx s event := by
  by_cases hwrite : ∃ i, event = .write i
  · obtain ⟨i, rfl⟩ := hwrite
    cases hrow : storedRow ctx s (.write i) with
    | none =>
        have hshape : ∀ g, shape (step ctx s (.write i)) g = shape s g := by
          intro g
          simp only [step]
          split
          · rename_i request visited htask
            rw [storedRow, htask] at hrow
            dsimp only at hrow
            rw [State.write, hrow]
            rfl
          · rfl
        refine iff_of_true ((sound_congr hshape).2 h) ⟨?_, ?_⟩
        · intro g row p hstored
          rw [hrow] at hstored
          cases hstored
        · intro g hevent
          cases hevent
    | some stored =>
        obtain ⟨g, row⟩ := stored
        have hshape : ∀ x, shape (step ctx s (.write i)) x =
            if x = g then some (row.parentId, false) else shape s x := by
          intro x
          simp only [storedRow] at hrow
          split at hrow
          · rename_i request visited htask
            simp only [step, htask, State.write, hrow, shape, State.put, Dict.get?_set]
            split
            · rw [Option.map_some, rowToWrite_live hrow]
            · rfl
          · cases hrow
        rw [sound_write_iff h hshape]
        constructor
        · intro hok
          refine ⟨?_, fun g' hevent => by cases hevent⟩
          intro g' row' p hstored hp
          rw [hrow] at hstored
          cases hstored
          exact hok p hp
        · intro hok p hp
          exact hok.stored g row p hrow hp
  · by_cases harchive : ∃ g, event = .archive g
    · obtain ⟨g, rfl⟩ := harchive
      cases hlive : s.live? g with
      | none =>
          have hsame : step ctx s (.archive g) = s := by
            simp [step, State.archive, hlive]
          rw [hsame]
          refine iff_of_true h ⟨by simp [storedRow], ?_⟩
          intro g' hevent hg'
          cases hevent
          simp [isLive, hlive] at hg'
      | some group =>
          have hg : isLive s g = true := by simp [isLive, hlive]
          have hshape : ∀ x, shape (step ctx s (.archive g)) x =
              if x = g then some (parentOf s g, true) else shape s x := by
            intro x
            have hget := ((live?_eq_some_iff s g group).1 hlive).1
            simp only [step, State.archive, hlive, shape, Dict.get?_set]
            split
            · simp [parentOf, hget]
            · rfl
          rw [sound_archive_iff h hg hshape]
          constructor
          · intro hok
            refine ⟨by simp [storedRow], ?_⟩
            intro g' hevent _
            cases hevent
            exact hok
          · intro hok
            exact hok.archived g rfl hg
    · have hshape := shape_step ctx s event (fun i hi => hwrite ⟨i, hi⟩)
        fun g hg => harchive ⟨g, hg⟩
      refine iff_of_true ((sound_congr hshape).2 h) ⟨?_, fun g hg => absurd ⟨g, hg⟩ harchive⟩
      intro g row p hstored
      cases event with
      | write i => exact absurd ⟨i, rfl⟩ hwrite
      | _ => cases hstored

/--
The hierarchy is sound after every step of a run exactly when every step of the run meets
the condition.
-/
theorem hierarchy_sound_iff (ctx : Context U Q) (es : List (Event U Q E)) :
    Runs.Along (step ctx) (fun s event => Sound (step ctx s event)) initial es ↔
      Runs.Along (step ctx) (HierarchyOk ctx) initial es :=
  Runs.along_congr (fun s _ (_ : Sound s) hsound => hsound) (step_sound_iff ctx)
    sound_initial es

/-- The ids of two groups. -/
def twoIds : Context Bool String where
  parseUuid := fun text =>
    if text = "00000000-0000-0000-0000-00000000000a" then some false
    else if text = "00000000-0000-0000-0000-00000000000b" then some true
    else none
  uuidText := fun b =>
    if b then "00000000-0000-0000-0000-00000000000b" else "00000000-0000-0000-0000-00000000000a"
  parse_text := by decide
  lower := id
  validQuery := fun _ => true

/--
Two groups are moved under each other at the same time, and a group that has a child is
archived.
-/
theorem hierarchy_unsound :
    ¬ Forest.Acyclic (parentOf (Runs.run (step twoIds) (initial : State Bool String Unit)
      [.beginCreate false none "A" "" "q", .write 0, .beginCreate true none "B" "" "q", .write 1,
        .beginUpdate (twoIds.uuidText false) { parentId := some (some (twoIds.uuidText true)) },
        .beginUpdate (twoIds.uuidText true) { parentId := some (some (twoIds.uuidText false)) },
        .readParent 2, .readParent 3, .write 2, .write 3])) ∧
    ¬ Sound (Runs.run (step twoIds) (initial : State Bool String Unit)
      [.beginCreate false none "A" "" "q", .write 0,
        .beginCreate true (some (twoIds.uuidText false)) "B" "" "q", .readParent 1, .write 1,
        .archive false]) := by
  constructor
  · intro hacyclic
    refine hacyclic false (Relation.TransGen.tail (.single (b := true) ?_) ?_)
    · change parentOf _ false = some true
      decide +kernel
    · change parentOf _ true = some false
      decide +kernel
  · intro hsound
    have hlive := hsound.parentsLive true false (by decide +kernel) (by decide +kernel)
    revert hlive
    decide +kernel

/-! ## A request that is not interrupted -/

/-- What the loop over the ancestors has found out about a hierarchy that does not change. -/
structure Walked (ctx : Context U Q) (s : State U Q E) (g p : U) (visited : List String)
    (candidateParent : Option String) : Prop where
  unseen : ∃ rest, visited = ctx.uuidText g :: rest ∧ ctx.uuidText g ∉ rest ∧
    ∀ x, ReflTransGen (Forest.Edge (parentOf s)) p x → ctx.uuidText x ∈ rest ∨
      ∃ y, candidateParent = some (ctx.uuidText y) ∧
        ReflTransGen (Forest.Edge (parentOf s)) y x
  text : ∀ c, candidateParent = some c → ∃ y, c = ctx.uuidText y
  live : candidateParent = some (ctx.uuidText p) ∨ isLive s p = true

omit [DecidableEq E] in
/-- One round of the loop. -/
theorem Walked.next {ctx : Context U Q} {s : State U Q E} {g p : U} {visited : List String}
    {c : String} (h : Walked ctx s g p visited (some c)) (hc : c ∉ visited) {parent : Group U Q}
    (hparent : (ctx.parseUuid c).bind s.live? = some parent) :
    Walked ctx s g p (visited ++ [c]) (parent.parentId.map ctx.uuidText) := by
  obtain ⟨rest, rfl, hrest, hcover⟩ := h.unseen
  obtain ⟨y, rfl⟩ := h.text c rfl
  rw [ctx.parse_text, Option.bind_some] at hparent
  have hlive : isLive s y = true := by rw [isLive, hparent]; rfl
  have hedge : parentOf s y = parent.parentId := by
    rw [parentOf, ((live?_eq_some_iff s y parent).1 hparent).1]
    rfl
  have hinj : ∀ a b, ctx.uuidText a = ctx.uuidText b → a = b := by
    intro a b hab
    have hparse := congrArg ctx.parseUuid hab
    rwa [ctx.parse_text, ctx.parse_text, Option.some.injEq] at hparse
  refine ⟨⟨rest ++ [ctx.uuidText y], rfl, ?_, ?_⟩, ?_, ?_⟩
  · rw [List.mem_append, List.mem_singleton]
    rintro (hmem | heq)
    · exact hrest hmem
    · exact hc (by rw [← heq]; exact List.mem_cons_self)
  · intro x hx
    rcases hcover x hx with hmem | ⟨z, hz, hpath⟩
    · exact Or.inl (List.mem_append_left _ hmem)
    · obtain rfl := hinj _ _ (Option.some.inj hz)
      rcases hpath.cases_head with rfl | ⟨w, hyw, hwx⟩
      · exact Or.inl (by simp)
      · refine Or.inr ⟨w, ?_, hwx⟩
        rw [← hedge, show parentOf s y = some w from hyw]
        rfl
  · intro c hnext
    obtain ⟨z, -, rfl⟩ := Option.map_eq_some_iff.1 hnext
    exact ⟨z, rfl⟩
  · rcases h.live with heq | hp
    · obtain rfl := hinj _ _ (Option.some.inj heq)
      exact Or.inr hlive
    · exact Or.inr hp

/-- A request whose loop has ended, or that an error has ended. -/
def WalkState (ctx : Context U Q) (s : State U Q E) (i : Nat) (request : Request U Q) (g p : U)
    (s' : State U Q E) : Prop :=
  s'.groups = s.groups ∧
    (s'.tasks[i]? = some .ended ∨ ∃ visited candidateParent,
      s'.tasks[i]? = some (.walking request visited candidateParent) ∧
        Walked ctx s g p visited candidateParent)

theorem walkState_readParent {ctx : Context U Q} {s s' : State U Q E} {i : Nat}
    {request : Request U Q} {g p : U} (h : WalkState ctx s i request g p s') :
    WalkState ctx s i request g p (step ctx s' (.readParent i)) := by
  obtain ⟨hgroups, hended | ⟨visited, candidateParent, htask, hwalked⟩⟩ := h
  · simp only [step, hended]
    exact ⟨hgroups, Or.inl hended⟩
  · have hlt : i < s'.tasks.length := by
      obtain ⟨hlt, -⟩ := List.getElem?_eq_some_iff.1 htask
      exact hlt
    simp only [step, htask]
    cases candidateParent with
    | none => exact ⟨hgroups, Or.inr ⟨visited, none, htask, hwalked⟩⟩
    | some c =>
        have hlive : s'.live? = s.live? := by
          funext x
          rw [State.live?, State.live?, hgroups]
        simp only [State.readParent]
        split
        · exact ⟨hgroups, Or.inl (by simp [State.put, hlt])⟩
        · rename_i hc
          split
          · rename_i parent hparent
            rw [hlive] at hparent
            exact ⟨hgroups, Or.inr ⟨_, _, by simp [State.put, hlt], hwalked.next hc hparent⟩⟩
          · exact ⟨hgroups, Or.inl (by simp [State.put, hlt])⟩

/--
An update with ids in the form in which the database prints them meets the condition when
nothing comes between its reads and its write.
-/
theorem checked_alone (ctx : Context U Q) (s : State U Q E) (i n : Nat) (g p : U)
    (changes : Changes Q) (hparent : changes.parentId = some (some (ctx.uuidText p)))
    (hbegun : s.tasks[i]? = some (.walking (.update (ctx.uuidText g) changes) [ctx.uuidText g]
      (some (ctx.uuidText p)))) :
    HierarchyOk ctx (Runs.run (step ctx) s (List.replicate n (.readParent i))) (.write i) := by
  have hstart : WalkState ctx s i (.update (ctx.uuidText g) changes) g p s := by
    refine ⟨rfl, Or.inr ⟨_, _, hbegun, ⟨⟨[], rfl, by simp, ?_⟩, ?_, Or.inl rfl⟩⟩⟩
    · intro x hx
      exact Or.inr ⟨p, rfl, hx⟩
    · intro c hc
      exact ⟨p, (Option.some.inj hc).symm⟩
  have hwalk : WalkState ctx s i (.update (ctx.uuidText g) changes) g p
      (Runs.run (step ctx) s (List.replicate n (.readParent i))) := by
    induction n with
    | zero => exact hstart
    | succ n ih =>
        rw [List.replicate_succ', Runs.run_append]
        exact walkState_readParent ih
  generalize Runs.run (step ctx) s (List.replicate n (.readParent i)) = s' at hwalk
  obtain ⟨hgroups, hwalk⟩ := hwalk
  refine ⟨?_, fun g' hevent => by cases hevent⟩
  intro g' row p' hstored hp'
  have hparentOf : parentOf s' = parentOf s := by
    funext x
    rw [parentOf, parentOf, hgroups]
  have hlive : isLive s' = isLive s := by
    funext x
    rw [isLive, isLive, State.live?, State.live?, hgroups]
  rcases hwalk with hended | ⟨visited, candidateParent, htask, hwalked⟩
  · simp [storedRow, hended] at hstored
  · cases candidateParent with
    | some c => simp [storedRow, htask] at hstored
    | none =>
        simp only [storedRow, htask, State.rowToWrite, ctx.parse_text, Option.bind_some,
          Option.bind_eq_some_iff] at hstored
        obtain ⟨old, -, hstored⟩ := hstored
        split at hstored
        · cases hstored
        · cases hstored
          simp only [State.applyChanges, hparent, Option.bind_some, ctx.parse_text,
            Option.some.injEq] at hp'
          subst hp'
          rw [hparentOf, hlive]
          obtain ⟨rest, -, hrest, hcover⟩ := hwalked.unseen
          constructor
          · rcases hwalked.live with hnone | hp
            · cases hnone
            · exact hp
          · intro hpath
            rcases hcover g hpath with hmem | ⟨y, hnone, -⟩
            · exact hrest hmem
            · cases hnone

theorem Sound.step_of_no_write {ctx : Context U Q} {s : State U Q E} (h : Sound s)
    {event : Event U Q E} (hrow : storedRow ctx s event = none)
    (harchive : ∀ g, event ≠ .archive g) :
    Sound (step ctx s event) := by
  refine (step_sound_iff ctx s event h).2 ⟨fun g row p hstored => ?_, fun g hevent => ?_⟩
  · rw [hrow] at hstored
    cases hstored
  · exact absurd hevent (harchive g)

end AssetGroups
end MpvmApp
