import MpvmApp.AssetGroups.Hierarchy

/-!
# The members of a ready group

An evaluation reads the definition of its group, then the overrides, and in the end it
marks the group ready, whatever has been written in between.  Where the definition and
the overrides stay as the evaluation has read them, and no members of another evaluation
are left beside its own, a ready group has the members and the counts of its definition.

Main results:

- Theorem `step_inv`: every undisturbed step keeps the invariant of the evaluations.
- Theorem `ready_groups_sound`: in an undisturbed run every ready group is evaluated.
-/

namespace MpvmApp
namespace AssetGroups

variable {U Q E : Type*} [DecidableEq U]

/-! ## What a ready group shows -/

/--
A ready group has the members and the counts of an evaluation that has read its definition
and its overrides as they are.
-/
def ReadyOk (group : Group U Q) (basis : Option (Basis Q E)) (overrides : Dict String Action)
    (members : List (String × Member E)) : Prop :=
  group.status = .ready → ∃ b evaluationId, basis = some b ∧
    b.definitionVersion = group.definitionVersion ∧ b.query = group.query ∧
    b.applied.map Prod.fst = overrides.items ∧
    members = memberRows evaluationId b.rows ∧ group.memberCount = members.length ∧
    group.indexedCards = b.result.indexedCards ∧ group.totalCards = b.result.totalCards

/-- Every ready group is evaluated. -/
def Evaluated (s : State U Q E) : Prop :=
  ∀ g group, s.groups.get? g = some group →
    ReadyOk group (s.basis g) (s.overrides g) (s.members g)

/-! ## Undisturbed steps -/

/-- The task evaluates the group and has not failed. -/
def Task.evaluates (g : U) : Task U Q E → Bool
  | .evaluating _ _ (.failing _) => false
  | .evaluating groupId _ _ => groupId = g
  | _ => false

/-- The task evaluates the group and has read its overrides. -/
def Task.hasOverrides (g : U) : Task U Q E → Bool
  | .evaluating groupId _ phase => groupId = g ∧ phase.hasOverrides
  | _ => false

/-! ## The invariant -/

/-- The group has the definition that an evaluation has read. -/
def Defined (s : State U Q E) (g : U) (version : Nat) (query : Q) : Prop :=
  ∃ group, s.groups.get? g = some group ∧ group.definitionVersion = version ∧ group.query = query

/-- What ties an evaluation to the tables. -/
def PhaseOk (s : State U Q E) (g : U) : Phase Q E → Prop
  | .started version query => Defined s g version query
  | .opened version query => Defined s g version query
  | .searched version query _ => Defined s g version query
  | .applying b rest rows => Defined s g b.definitionVersion b.query ∧
      b.applied.map Prod.fst ++ rest = (s.overrides g).items ∧ rows = b.rows
  | .deleted b rows _ => Defined s g b.definitionVersion b.query ∧
      b.applied.map Prod.fst = (s.overrides g).items ∧ rows = b.rows
  | .failing _ => True

/-- What ties a request to the tables. -/
def TaskOk (s : State U Q E) : Task U Q E → Prop
  | .evaluating g _ phase => PhaseOk s g phase
  | _ => True

/-- The invariant of the evaluations. -/
structure Inv (s : State U Q E) : Prop where
  evaluated : Evaluated s
  tasks : ∀ task ∈ s.tasks, TaskOk s task

/-- An evaluation that reads the same definition and overrides goes on. -/
theorem TaskOk.mono {s s' : State U Q E} {task : Task U Q E} (h : TaskOk s task)
    (hdefined : ∀ g version query, task.evaluates g = true → Defined s g version query →
      Defined s' g version query)
    (hoverrides : ∀ g, task.hasOverrides g = true → s'.overrides g = s.overrides g) :
    TaskOk s' task := by
  cases task with
  | evaluating g evaluationId phase =>
      cases phase with
      | applying b rest rows =>
          obtain ⟨hdef, hrest, hrows⟩ := h
          refine ⟨hdefined g _ _ (by simp [Task.evaluates]) hdef, ?_, hrows⟩
          rw [hoverrides g (by simp [Task.hasOverrides, Phase.hasOverrides]), hrest]
      | deleted b rows seen =>
          obtain ⟨hdef, hrest, hrows⟩ := h
          refine ⟨hdefined g _ _ (by simp [Task.evaluates]) hdef, ?_, hrows⟩
          rw [hoverrides g (by simp [Task.hasOverrides, Phase.hasOverrides]), hrest]
      | failing error => trivial
      | _ => exact hdefined g _ _ (by simp [Task.evaluates]) h
  | walking request visited candidateParent => trivial
  | ended => trivial

/-- A step that moves one request on, or begins one, and leaves the tables alone. -/
theorem Inv.of_tasks {s s' : State U Q E} (h : Inv s) (hgroups : s'.groups = s.groups)
    (hoverrides : s'.overrides = s.overrides) (hmembers : s'.members = s.members)
    (hbasis : s'.basis = s.basis)
    (htasks : ∀ task ∈ s'.tasks, task ∈ s.tasks ∨ TaskOk s task) :
    Inv s' where
  evaluated := by
    intro g group hgroup
    rw [hgroups] at hgroup
    rw [hoverrides, hmembers, hbasis]
    exact h.evaluated g group hgroup
  tasks := by
    intro task htask
    have hok : TaskOk s task := by
      rcases htasks task htask with hold | hnew
      · exact h.tasks task hold
      · exact hnew
    refine hok.mono (fun g version query _ hdef => ?_) fun g _ => by rw [hoverrides]
    unfold Defined
    rwa [hgroups]

theorem Inv.put {s : State U Q E} (h : Inv s) (i : Nat) {task : Task U Q E}
    (hok : TaskOk s task) :
    Inv (s.put i task) := by
  refine h.of_tasks rfl rfl rfl rfl fun other hother => ?_
  rcases List.mem_or_eq_of_mem_set hother with hold | rfl
  · exact Or.inl hold
  · exact Or.inr hok

theorem Inv.spawn {s : State U Q E} (h : Inv s) {task : Task U Q E} (hok : TaskOk s task) :
    Inv (s.spawn task) := by
  refine h.of_tasks rfl rfl rfl rfl fun other hother => ?_
  rcases List.mem_append.1 hother with hold | hnew
  · exact Or.inl hold
  · rw [List.mem_singleton] at hnew
    exact Or.inr (hnew ▸ hok)

/-- A row is stored whose status, if it is ready, still stands for its definition. -/
theorem Inv.setGroup {s : State U Q E} (h : Inv s) (g : U) (row : Group U Q)
    (hready : ReadyOk row (s.basis g) (s.overrides g) (s.members g))
    (hdefinition : ∀ old, s.groups.get? g = some old →
      (row.definitionVersion = old.definitionVersion ∧ row.query = old.query) ∨
        ∀ task ∈ s.tasks, task.evaluates g = false) :
    Inv { s with groups := s.groups.set g row } where
  evaluated := by
    intro x group hgroup
    simp only [Dict.get?_set] at hgroup
    split at hgroup
    · rename_i hx
      subst hx
      cases hgroup
      exact hready
    · exact h.evaluated x group hgroup
  tasks := by
    intro task htask
    refine (h.tasks task htask).mono (fun x version query hevaluates hdef => ?_) fun _ _ => rfl
    obtain ⟨old, hold, hversion, hquery⟩ := hdef
    by_cases hx : x = g
    · subst hx
      rcases hdefinition old hold with ⟨hv, hq⟩ | hidle
      · exact ⟨row, by simp [Dict.get?_set], hv.trans hversion, hq.trans hquery⟩
      · rw [hidle task htask] at hevaluates
        cases hevaluates
    · exact ⟨old, by simp [Dict.get?_set, hx, hold], hversion, hquery⟩

theorem Inv.updateGroup {s : State U Q E} (h : Inv s) (g : U) {f : Group U Q → Group U Q}
    (hstatus : ∀ group, (f group).status ≠ .ready)
    (hdefinition : ∀ group, (f group).definitionVersion = group.definitionVersion ∧
      (f group).query = group.query) :
    Inv (s.updateGroup g f) := by
  unfold State.updateGroup
  split
  · rename_i group hgroup
    refine h.setGroup g (f group) (fun hready => absurd hready (hstatus group)) fun old hold => ?_
    rw [hgroup] at hold
    cases hold
    exact Or.inl (hdefinition group)
  · exact h

theorem inv_initial :
    Inv (initial : State U Q E) where
  evaluated := by simp [Evaluated, initial]
  tasks := by simp [initial]

/-! ## Tables that a step leaves alone -/

section Frames

variable (s : State U Q E) (g : U) (evaluationId : Nat)

theorem get?_updateGroup (f : Group U Q → Group U Q) (x : U) :
    (s.updateGroup g f).groups.get? x =
      if x = g then (s.groups.get? g).map f else s.groups.get? x := by
  unfold State.updateGroup
  split
  · rename_i group hgroup
    rw [Dict.get?_set, hgroup]
    rfl
  · rename_i hnone
    split
    · rename_i hx
      rw [hx, hnone]
      rfl
    · rfl

@[simp]
theorem updateGroup_overrides (f : Group U Q → Group U Q) :
    (s.updateGroup g f).overrides = s.overrides := by
  unfold State.updateGroup
  split <;> rfl

@[simp]
theorem updateGroup_members (f : Group U Q → Group U Q) :
    (s.updateGroup g f).members = s.members := by
  unfold State.updateGroup
  split <;> rfl

@[simp]
theorem updateGroup_basis (f : Group U Q → Group U Q) :
    (s.updateGroup g f).basis = s.basis := by
  unfold State.updateGroup
  split <;> rfl

@[simp]
theorem updateGroup_tasks (f : Group U Q → Group U Q) :
    (s.updateGroup g f).tasks = s.tasks := by
  unfold State.updateGroup
  split <;> rfl

omit [DecidableEq U] in
@[simp]
theorem updateEvaluation_groups (f : EvaluationRow U → EvaluationRow U) :
    (s.updateEvaluation evaluationId f).groups = s.groups := by
  unfold State.updateEvaluation
  split <;> rfl

omit [DecidableEq U] in
@[simp]
theorem updateEvaluation_overrides (f : EvaluationRow U → EvaluationRow U) :
    (s.updateEvaluation evaluationId f).overrides = s.overrides := by
  unfold State.updateEvaluation
  split <;> rfl

omit [DecidableEq U] in
@[simp]
theorem updateEvaluation_members (f : EvaluationRow U → EvaluationRow U) :
    (s.updateEvaluation evaluationId f).members = s.members := by
  unfold State.updateEvaluation
  split <;> rfl

omit [DecidableEq U] in
@[simp]
theorem updateEvaluation_basis (f : EvaluationRow U → EvaluationRow U) :
    (s.updateEvaluation evaluationId f).basis = s.basis := by
  unfold State.updateEvaluation
  split <;> rfl

omit [DecidableEq U] in
@[simp]
theorem updateEvaluation_tasks (f : EvaluationRow U → EvaluationRow U) :
    (s.updateEvaluation evaluationId f).tasks = s.tasks := by
  unfold State.updateEvaluation
  split <;> rfl

end Frames

/-! ## Definitions and overrides -/

/-- What a request stores: a new stale row, a stale row of another version, or the old one. -/
theorem rowToWrite_spec {ctx : Context U Q} {s : State U Q E} {request : Request U Q} {g : U}
    {row : Group U Q} (h : s.rowToWrite ctx request = some (g, row)) :
    (s.groups.get? g = none ∧ row.status = .stale) ∨
      ∃ old, s.groups.get? g = some old ∧
        ((row.status = .stale ∧ row.definitionVersion ≠ old.definitionVersion) ∨
          (row.status = old.status ∧ row.definitionVersion = old.definitionVersion ∧
            row.query = old.query ∧ row.memberCount = old.memberCount ∧
            row.indexedCards = old.indexedCards ∧ row.totalCards = old.totalCards)) := by
  cases request with
  | create groupId parentId name description query =>
      simp only [State.rowToWrite] at h
      split at h
      · cases h
      · rename_i hfree
        cases h
        rw [not_or, Bool.not_eq_true, Option.isSome_eq_false_iff, Option.isNone_iff_eq_none] at hfree
        exact Or.inl ⟨hfree.1, rfl⟩
  | update groupText changes =>
      simp only [State.rowToWrite, Option.bind_eq_some_iff] at h
      obtain ⟨groupId, -, old, hold, h⟩ := h
      split at h
      · cases h
      · cases h
        refine Or.inr ⟨old, ((live?_eq_some_iff s g old).1 hold).1, ?_⟩
        cases hquery : changes.query with
        | none => exact Or.inr (by simp [State.applyChanges, hquery])
        | some query => exact Or.inl (by simp [State.applyChanges, hquery])

omit [DecidableEq U] in
theorem ReadyOk.congr {old row : Group U Q} {basis : Option (Basis Q E)}
    {overrides : Dict String Action} {members : List (String × Member E)}
    (h : ReadyOk old basis overrides members) (hstatus : row.status = old.status)
    (hversion : row.definitionVersion = old.definitionVersion) (hquery : row.query = old.query)
    (hcount : row.memberCount = old.memberCount) (hindexed : row.indexedCards = old.indexedCards)
    (htotal : row.totalCards = old.totalCards) :
    ReadyOk row basis overrides members := by
  intro hready
  rw [hstatus] at hready
  rw [hversion, hquery, hcount, hindexed, htotal]
  exact h hready

/-- The overrides of a group are replaced and the group is left stale. -/
theorem Inv.putOverrides {s : State U Q E} (h : Inv s) (g : U) (overrides : Dict String Action)
    (hidle : overrides = s.overrides g ∨ ∀ task ∈ s.tasks, task.hasOverrides g = false) :
    Inv ((s.putOverrides g overrides).markStale g) where
  evaluated := by
    intro x group hgroup
    simp only [State.markStale, get?_updateGroup, updateGroup_basis, updateGroup_overrides,
      updateGroup_members, State.putOverrides] at hgroup ⊢
    split at hgroup
    · obtain ⟨old, -, rfl⟩ := Option.map_eq_some_iff.1 hgroup
      intro hready
      cases hready
    · rename_i hx
      rw [if_neg hx]
      exact h.evaluated x group hgroup
  tasks := by
    intro task htask
    simp only [State.markStale, updateGroup_tasks] at htask
    refine (h.tasks task htask).mono (fun x version query _ hdef => ?_) fun x hx => ?_
    · obtain ⟨old, hold, hversion, hquery⟩ := hdef
      simp only [Defined, State.markStale, get?_updateGroup, State.putOverrides]
      split
      · rename_i hxg
        rw [hxg] at hold
        exact ⟨{ old with status := .stale }, by rw [hold]; rfl, hversion, hquery⟩
      · exact ⟨old, hold, hversion, hquery⟩
    · simp only [State.markStale, updateGroup_overrides, State.putOverrides]
      split
      · rename_i hxg
        subst hxg
        rcases hidle with heq | hidle
        · exact heq
        · rw [hidle task htask] at hx
          cases hx
      · rfl

variable [DecidableEq E]

/-- An evaluation stores its members beside none that its deletion has not seen, or is refused. -/
def Task.storesAlone (s : State U Q E) : Task U Q E → Bool
  | .evaluating g _ (.deleted _ rows seen) =>
      s.conflicts g rows seen || (s.remaining g seen).isEmpty
  | _ => true

/--
No definition is changed while the group is evaluated, no override while an evaluation that
has read the overrides goes on, and an evaluation that stores its members finds no members
that were not there when it deleted the old ones, or is refused.
-/
def Undisturbed (ctx : Context U Q) (s : State U Q E) : Event U Q E → Prop
  | .write i => ∀ stored ∈ storedRow ctx s (.write i : Event U Q E),
      ∀ old ∈ s.groups.get? stored.1, stored.2.definitionVersion ≠ old.definitionVersion →
        ∀ task ∈ s.tasks, task.evaluates stored.1 = false
  | .setOverride g assetId action cardFound =>
      (s.groups.get? g).isSome = true ∧ cardFound = true ∧
        (s.overrides g).get? assetId ≠ some action → ∀ task ∈ s.tasks, task.hasOverrides g = false
  | .deleteOverride g assetId =>
      ((s.overrides g).get? assetId).isSome = true → ∀ task ∈ s.tasks, task.hasOverrides g = false
  | .commit i => ∀ task ∈ s.tasks[i]?, task.storesAlone s = true
  | _ => True

instance (ctx : Context U Q) (s : State U Q E) (event : Event U Q E) :
    Decidable (Undisturbed ctx s event) := by
  cases event <;> unfold Undisturbed <;> infer_instance

theorem setOverride_inv {ctx : Context U Q} {s : State U Q E} (h : Inv s) {g : U}
    {assetId : String} {action : Action} {cardFound : Bool}
    (hok : Undisturbed ctx s (.setOverride g assetId action cardFound)) :
    Inv (s.setOverride g assetId action cardFound) := by
  unfold State.setOverride
  split
  · rename_i hfound
    refine h.putOverrides g _ ?_
    by_cases hsame : (s.overrides g).get? assetId = some action
    · exact Or.inl (Dict.set_eq_self hsame)
    · exact Or.inr (hok ⟨hfound.1, hfound.2, hsame⟩)
  · exact h

theorem deleteOverride_inv {ctx : Context U Q} {s : State U Q E} (h : Inv s) {g : U}
    {assetId : String} (hok : Undisturbed ctx s (.deleteOverride g assetId)) :
    Inv (s.deleteOverride g assetId) := by
  refine h.putOverrides g _ ?_
  cases hfound : (s.overrides g).get? assetId with
  | none => exact Or.inl (Dict.pop_eq_self hfound)
  | some action => exact Or.inr (hok (by rw [hfound]; rfl))

theorem write_inv {ctx : Context U Q} {s : State U Q E} (h : Inv s) {i : Nat}
    {request : Request U Q} {visited : List String}
    (hi : s.tasks[i]? = some (.walking request visited none))
    (hok : Undisturbed ctx s (.write i)) :
    Inv (s.write ctx i request) := by
  unfold State.write
  split
  · rename_i g row hrow
    refine Inv.put (h.setGroup g row ?_ fun old hold => ?_) i trivial
    · rcases rowToWrite_spec hrow with ⟨-, hstale⟩ | ⟨old, hold, ⟨hstale, -⟩ | hsame⟩
      · intro hready
        rw [hstale] at hready
        cases hready
      · intro hready
        rw [hstale] at hready
        cases hready
      · obtain ⟨hstatus, hversion, hquery, hcount, hindexed, htotal⟩ := hsame
        exact (h.evaluated g old hold).congr hstatus hversion hquery hcount hindexed htotal
    · have hstored : storedRow ctx s (.write i : Event U Q E) = some (g, row) := by
        rw [storedRow, hi]
        exact hrow
      rcases rowToWrite_spec hrow with ⟨hnone, -⟩ | ⟨old', hold', ⟨-, hversion⟩ | hsame⟩
      · rw [hnone] at hold
        cases hold
      · rw [hold'] at hold
        cases hold
        exact Or.inr (hok (g, row) hstored _ hold' hversion)
      · rw [hold'] at hold
        cases hold
        exact Or.inl ⟨hsame.2.1, hsame.2.2.1⟩
  · exact h.put i trivial

omit [DecidableEq E] in
theorem archive_inv {s : State U Q E} (h : Inv s) (g : U) :
    Inv (s.archive g) := by
  unfold State.archive
  split
  · rename_i group hlive
    have hgroup := ((live?_eq_some_iff s g group).1 hlive).1
    refine h.setGroup g _ ((h.evaluated g group hgroup).congr rfl rfl rfl rfl rfl rfl) fun old hold => ?_
    rw [hgroup] at hold
    cases hold
    exact Or.inl ⟨rfl, rfl⟩
  · exact h

/-! ## Evaluations -/

omit [DecidableEq E] in
theorem length_memberRows (evaluationId : Nat) (rows : Dict String (RuleRow E)) :
    (memberRows evaluationId rows).length = rows.items.length :=
  List.length_map _

omit [DecidableEq U] [DecidableEq E] in
theorem rows_append (b : Basis Q E) (o : (String × Action) × Bool) :
    ({ b with applied := b.applied ++ [o] } : Basis Q E).rows =
      applyOverride b.rows o.1.1 o.1.2 o.2 := by
  simp [Basis.rows]

/-- An evaluation that is alone with its members marks its group ready. -/
theorem Inv.complete {s : State U Q E} (h : Inv s) {i : Nat} {g : U} {evaluationId : Nat}
    {basis : Basis Q E} {rows : Dict String (RuleRow E)} {seen : List (String × Member E)}
    (hi : s.tasks[i]? = some (.evaluating g evaluationId (.deleted basis rows seen)))
    (halone : s.remaining g seen = []) :
    Inv ((s.complete g evaluationId basis rows seen).put i .ended) := by
  obtain ⟨⟨old, hold, hversion, hquery⟩, happlied, hrows⟩ :=
    h.tasks _ (List.mem_of_getElem? hi)
  have hcomplete : Inv (s.complete g evaluationId basis rows seen) := by
    constructor
    · intro x group hgroup
      simp only [State.complete, get?_updateGroup, updateGroup_basis, updateGroup_overrides,
        updateGroup_members, updateEvaluation_groups, updateEvaluation_basis,
        updateEvaluation_overrides, updateEvaluation_members, halone, List.nil_append] at hgroup ⊢
      by_cases hx : x = g
      · subst hx
        rw [if_pos rfl, hold, Option.map_some, Option.some.injEq] at hgroup
        subst hgroup
        intro _
        refine ⟨basis, evaluationId, by rw [if_pos rfl], hversion.symm, hquery.symm, happlied,
          by rw [if_pos rfl, hrows], ?_, rfl, rfl⟩
        rw [if_pos rfl, length_memberRows]
      · rw [if_neg hx] at hgroup ⊢
        rw [if_neg hx]
        exact h.evaluated x group hgroup
    · intro task htask
      simp only [State.complete, updateGroup_tasks, updateEvaluation_tasks] at htask
      refine (h.tasks task htask).mono (fun x version query _ hdef => ?_) fun x _ => ?_
      · obtain ⟨group, hgroup, hv, hq⟩ := hdef
        simp only [Defined, State.complete, get?_updateGroup, updateEvaluation_groups]
        split
        · rename_i hx
          rw [hx] at hgroup
          rw [hgroup]
          exact ⟨_, rfl, hv, hq⟩
        · exact ⟨group, hgroup, hv, hq⟩
      · simp only [State.complete, updateGroup_overrides, updateEvaluation_overrides]
  exact hcomplete.put i trivial

omit [DecidableEq E] in
theorem openEvaluation_inv {s : State U Q E} (h : Inv s) (g : U) (evaluationId version : Nat) :
    Inv (s.openEvaluation g evaluationId version) := by
  unfold State.openEvaluation
  refine Inv.updateGroup ?_ g (by simp) (by simp)
  exact h.of_tasks rfl rfl rfl rfl fun _ htask => Or.inl htask

omit [DecidableEq E] in
theorem recordFailure_inv {s : State U Q E} (h : Inv s) (g : U) (evaluationId : Nat)
    (error : String) :
    Inv (s.recordFailure g evaluationId error) := by
  unfold State.recordFailure
  refine Inv.updateGroup ?_ g (by simp) (by simp)
  exact h.of_tasks (by simp) (by simp) (by simp) (by simp)
    fun _ htask => Or.inl (by simpa using htask)

theorem evaluate_inv {ctx : Context U Q} {s : State U Q E} (h : Inv s) {i : Nat} {g : U}
    {evaluationId : Nat} {phase : Phase Q E} {event : Event U Q E}
    (hi : s.tasks[i]? = some (.evaluating g evaluationId phase))
    (hcommit : ∀ j, event = .commit j → j = i) (hok : Undisturbed ctx s event) :
    Inv (s.evaluate i g evaluationId phase event) := by
  have hphase := h.tasks _ (List.mem_of_getElem? hi)
  unfold State.evaluate
  dsimp only
  split
  · rename_i version query j
    have hopen := openEvaluation_inv h g evaluationId version
    have hi' : (s.openEvaluation g evaluationId version).tasks[i]? =
        some (.evaluating g evaluationId (.started version query)) := by
      simpa [State.openEvaluation] using hi
    have hdefined := hopen.tasks _ (List.mem_of_getElem? hi')
    exact hopen.put i hdefined
  · exact h.put i trivial
  · exact h.put i hphase
  · exact h.put i ⟨hphase, rfl, rfl⟩
  · rename_i basis o rest rows j cardFound
    obtain ⟨hdefined, hrest, hrows⟩ := hphase
    refine h.put i ⟨hdefined, ?_, ?_⟩
    · rw [← hrest, List.map_append, List.append_assoc]
      rfl
    · rw [rows_append, hrows]
  · rename_i basis rows j
    obtain ⟨hdefined, hrest, hrows⟩ := hphase
    rw [List.append_nil] at hrest
    exact h.put i ⟨hdefined, hrest, hrows⟩
  · rename_i basis rows seen j
    obtain rfl := hcommit j rfl
    split
    · exact h.put j trivial
    · rename_i hconflicts
      refine h.complete hi ?_
      have hstores := hok _ hi
      simpa [Task.storesAlone, hconflicts] using hstores
  · exact (recordFailure_inv h g evaluationId _).put i trivial
  · exact h
  · exact h.put i trivial
  · exact h

/-- Every undisturbed step keeps the invariant. -/
theorem step_inv (ctx : Context U Q) (s : State U Q E) (event : Event U Q E) (h : Inv s)
    (hok : Undisturbed ctx s event) :
    Inv (step ctx s event) := by
  cases event with
  | beginCreate groupId parentId name description query =>
      simp only [step, State.beginCreate]
      split
      · exact h.spawn trivial
      · exact h
  | beginUpdate groupId changes =>
      simp only [step, State.beginUpdate]
      split
      · exact h
      · split
        · exact h
        · split
          · exact h
          · exact h.spawn trivial
  | readParent i =>
      simp only [step]
      split
      · unfold State.readParent
        split
        · exact h.put i trivial
        · split
          · exact h.put i trivial
          · exact h.put i trivial
      · exact h
  | write i =>
      simp only [step]
      split
      · rename_i request visited htask
        exact write_inv h htask hok
      · exact h
  | archive groupId => exact archive_inv h groupId
  | setOverride groupId assetId action cardFound => exact setOverride_inv h hok
  | deleteOverride groupId assetId => exact deleteOverride_inv h hok
  | beginEvaluation groupId =>
      simp only [step, State.beginEvaluation]
      split
      · rename_i group hlive
        have hgroup := ((live?_eq_some_iff s groupId group).1 hlive).1
        have hcounted : Inv { s with nextEvaluation := s.nextEvaluation + 1 } :=
          h.of_tasks rfl rfl rfl rfl fun _ htask => Or.inl htask
        exact hcounted.spawn ⟨group, hgroup, rfl, rfl⟩
      · exact h
  | crash i => exact h.put i trivial
  | commit i =>
      simp only [step]
      split
      · rename_i g evaluationId phase htask
        exact evaluate_inv h htask (fun j hj => by cases hj; rfl) hok
      · exact h
  | _ =>
      simp only [step]
      split
      · rename_i g evaluationId phase htask
        exact evaluate_inv h htask (fun j hj => by cases hj) hok
      · exact h

/--
In a run whose steps are all undisturbed every ready group has the members and the counts
of its current definition with its current overrides.
-/
theorem ready_groups_sound (ctx : Context U Q) (es : List (Event U Q E))
    (hrun : Runs.Along (step ctx) (Undisturbed ctx) initial es) :
    Evaluated (Runs.run (step ctx) initial es) :=
  (hrun.invariant (step_inv ctx) inv_initial).evaluated

/-- A group is created and evaluated, changed, and evaluated again with an excluded asset. -/
theorem ready_groups_sound_twice :
    Evaluated (Runs.run (step twoIds) (initial : State Bool String Unit)
      [.beginCreate false none "A" "" "old", .write 0, .beginEvaluation false, .openEvaluation 1,
        .search 1 { rows := [("host-1", [()])], indexedCards := 2, totalCards := 2 },
        .readOverrides 1, .deleteMembers 1, .commit 1,
        .beginUpdate (twoIds.uuidText false) { query := some "new" }, .write 2,
        .setOverride false "host-1" .exclude true, .beginEvaluation false, .openEvaluation 3,
        .search 3 { rows := [("host-1", [()]), ("host-2", [])], indexedCards := 2, totalCards := 2 },
        .readOverrides 3, .lookUp 3 false, .deleteMembers 3, .commit 3]) :=
  ready_groups_sound twoIds _ (by decide +kernel)

/--
An evaluation marks its group ready after the query of the group has been changed, and
after an asset has been excluded.
-/
theorem ready_groups_unsound :
    ¬ Evaluated (Runs.run (step twoIds) (initial : State Bool String Unit)
      [.beginCreate false none "A" "" "old", .write 0, .beginEvaluation false, .openEvaluation 1,
        .search 1 { rows := [("host-1", [()])], indexedCards := 1, totalCards := 1 },
        .beginUpdate (twoIds.uuidText false) { query := some "new" }, .write 2,
        .readOverrides 1, .deleteMembers 1, .commit 1]) ∧
    ¬ Evaluated (Runs.run (step twoIds) (initial : State Bool String Unit)
      [.beginCreate false none "A" "" "old", .write 0, .beginEvaluation false, .openEvaluation 1,
        .search 1 { rows := [("host-1", [()])], indexedCards := 1, totalCards := 1 },
        .readOverrides 1, .setOverride false "host-1" .exclude true, .deleteMembers 1,
        .commit 1]) := by
  constructor
  · intro hevaluated
    have hget : ((Runs.run (step twoIds) (initial : State Bool String Unit)
        [.beginCreate false none "A" "" "old", .write 0, .beginEvaluation false, .openEvaluation 1,
          .search 1 { rows := [("host-1", [()])], indexedCards := 1, totalCards := 1 },
          .beginUpdate (twoIds.uuidText false) { query := some "new" }, .write 2,
          .readOverrides 1, .deleteMembers 1, .commit 1]).groups.get? false).map
        (fun group => (group.status, group.definitionVersion)) = some (.ready, 2) := by
      decide +kernel
    obtain ⟨group, hgroup, hfields⟩ := Option.map_eq_some_iff.1 hget
    rw [Prod.mk.injEq] at hfields
    obtain ⟨b, evaluationId, hbasis, hversion, -⟩ := hevaluated false group hgroup hfields.1
    have hread := congrArg (Option.map Basis.definitionVersion) hbasis
    rw [Option.map_some, hversion, hfields.2] at hread
    revert hread
    decide +kernel
  · intro hevaluated
    have hget : ((Runs.run (step twoIds) (initial : State Bool String Unit)
        [.beginCreate false none "A" "" "old", .write 0, .beginEvaluation false, .openEvaluation 1,
          .search 1 { rows := [("host-1", [()])], indexedCards := 1, totalCards := 1 },
          .readOverrides 1, .setOverride false "host-1" .exclude true, .deleteMembers 1,
          .commit 1]).groups.get? false).map Group.status = some .ready := by
      decide +kernel
    obtain ⟨group, hgroup, hstatus⟩ := Option.map_eq_some_iff.1 hget
    obtain ⟨b, evaluationId, hbasis, -, -, happlied, -⟩ := hevaluated false group hgroup hstatus
    have hread := congrArg (Option.map fun b => b.applied.map Prod.fst) hbasis
    rw [Option.map_some, happlied] at hread
    revert hread
    decide +kernel

end AssetGroups
end MpvmApp
