import MpvmApp.Automations.Definitions
import MpvmApp.Lib.Table

/-!
# The publication of runbooks

A runbook has a draft and published versions.  `publish` reads the runbook and checks
its draft in one transaction and stores the version in another, and in between the runbook
may be edited, published or deleted.  What is published is what was checked.

Main definitions:

- `Registry`: the stored runbooks and versions with the publications that are under
  way and those that have been made.
- `registryStep`: one transaction on the runbooks.

Main results:

- Theorem `RegistryInv.step`: every version was published under its number once, and
  a destructive one was confirmed with the name of its runbook.
-/

namespace MpvmApp
namespace Automations
namespace Publication

/-! ## Stored rows -/

/-- A row of `automation_runbooks`. -/
structure Runbook where
  runbookId : String
  name : String
  draft : List StepRequest
  publishedVersion : Option Nat := none

/-- A row of `automation_runbook_versions`. -/
structure VersionRow where
  runbookId : String
  version : Nat
  definition : Definition
  destructiveApproved : Bool

/-- The primary key of a version. -/
def VersionRow.key (row : VersionRow) : String × Nat :=
  (row.runbookId, row.version)

/-- What `publish` remembers of its request and of the runbook that it has read. -/
structure Publishing where
  runbookId : String
  name : String
  confirmName : Option String
  definition : Definition

/-- A version that was published, with the name that was read and the confirmation. -/
structure Published extends VersionRow where
  name : String
  confirmName : Option String

/-- The destructive definitions are confirmed with the exact name. -/
def Publishing.Confirmed (p : Publishing) : Prop :=
  isDestructive p.definition = true → p.confirmName = some p.name

/-- The runbooks, the publications under way, and the history of ids and publications. -/
structure Registry where
  runbooks : Table Runbook Runbook.runbookId Runbook.name := .empty
  versions : Table VersionRow VersionRow.key VersionRow.key := .empty
  publishing : List Publishing := []
  drawn : List String := []
  log : List Published := []

namespace Registry

/-- `get_version` without a number. -/
def latest? (r : Registry) (runbookId : String) : Option VersionRow :=
  ((r.versions.rows.filter fun row => decide (row.runbookId = runbookId)).insertionSort
    fun row row' => row'.version ≤ row.version).head?

theorem mem_of_latest? {r : Registry} {runbookId : String} {row : VersionRow}
    (h : r.latest? runbookId = some row) :
    row ∈ r.versions ∧ row.runbookId = runbookId := by
  have hmem := (List.mem_insertionSort _).1 (List.mem_of_head? h)
  rw [List.mem_filter] at hmem
  exact ⟨hmem.1, of_decide_eq_true hmem.2⟩

/-- `create_runbook` of the repository, under an id that was never drawn before. -/
def create (t : CharTables) (r : Registry) (runbookId name : String) (draft : List StepRequest) :
    Registry :=
  if runbookId ∈ r.drawn then r
  else
    match validateDefinition t draft with
    | .error _ => r
    | .ok definition =>
        match r.runbooks.insert?
            { runbookId := runbookId
              name := Sql.strip name
              draft := definition.requests } with
        | none => r
        | some runbooks => { r with runbooks := runbooks, drawn := runbookId :: r.drawn }

/-- `update_runbook`; the name of another runbook is refused. -/
def edit (t : CharTables) (r : Registry) (runbookId name : String) (draft : List StepRequest) :
    Registry :=
  match validateDefinition t draft, r.runbooks.find? runbookId with
  | .ok definition, some runbook =>
      let others := r.runbooks.filterRows fun row => decide (row.runbookId ≠ runbookId)
      { r with
        runbooks := (others.insert?
          { runbook with
            name := Sql.strip name
            draft := definition.requests }).getD r.runbooks }
  | _, _ => r

/-- `delete_runbook`; the versions of the runbook are deleted with it. -/
def delete (r : Registry) (runbookId : String) : Registry :=
  { r with
    runbooks := r.runbooks.filterRows fun row => decide (row.runbookId ≠ runbookId)
    versions := r.versions.filterRows fun row => decide (row.runbookId ≠ runbookId) }

/-- `publish` up to its call of `publish_runbook`. -/
def publish (t : CharTables) (r : Registry) (runbookId : String) (confirmName : Option String) :
    Registry :=
  match r.runbooks.find? runbookId with
  | none => r
  | some runbook =>
      match validateDefinition t runbook.draft with
      | .error _ => r
      | .ok definition =>
          if isDestructive definition && decide (confirmName ≠ some runbook.name) then r
          else
            { r with
              publishing := r.publishing ++
                [{ runbookId := runbookId
                   name := runbook.name
                   confirmName := confirmName
                   definition := definition }] }

/-- The number of the published version is stored with the runbook. -/
def setPublished (runbooks : Table Runbook Runbook.runbookId Runbook.name) (runbookId : String)
    (version : Nat) : Table Runbook Runbook.runbookId Runbook.name :=
  runbooks.mapRows
    (fun x => if x.runbookId = runbookId then { x with publishedVersion := some version } else x)
    (fun x => by split <;> rfl) (fun x => by split <;> rfl)

/-- `publish_runbook`; nothing is stored for a runbook that is gone. -/
def publishRunbook (r : Registry) (p : Publishing) : Registry :=
  match r.runbooks.find? p.runbookId with
  | none => r
  | some current =>
      let row : VersionRow :=
        { runbookId := p.runbookId
          version := current.publishedVersion.getD 0 + 1
          definition := p.definition
          destructiveApproved := isDestructive p.definition }
      match r.versions.insert? row with
      | none => r
      | some versions =>
          { r with
            versions := versions
            runbooks := setPublished r.runbooks p.runbookId row.version
            log := { row with name := p.name, confirmName := p.confirmName } :: r.log }

end Registry

/-- A transaction on the runbooks. -/
inductive RegistryEvent where
  /-- A runbook is created, or cloned from a draft that was read. -/
  | create (runbookId name : String) (draft : List StepRequest)
  | edit (runbookId name : String) (draft : List StepRequest)
  | delete (runbookId : String)
  /-- A publication reads the runbook and checks the draft. -/
  | publish (runbookId : String) (confirmName : Option String)
  /-- The publication at a position stores its version. -/
  | store (j : Nat)
  /-- The process dies. -/
  | crash

/-- One transaction on the runbooks. -/
def registryStep (t : CharTables) (r : Registry) : RegistryEvent → Registry
  | .create runbookId name draft => r.create t runbookId name draft
  | .edit runbookId name draft => r.edit t runbookId name draft
  | .delete runbookId => r.delete runbookId
  | .publish runbookId confirmName => r.publish t runbookId confirmName
  | .store j =>
      match r.publishing[j]? with
      | none => r
      | some p => { r with publishing := r.publishing.eraseIdx j }.publishRunbook p
  | .crash => { r with publishing := [] }

/-! ## Every version was confirmed -/

/-- The row of a version is that of a publication. -/
def Logged (log : List Published) (row : VersionRow) : Prop :=
  ∃ p ∈ log, p.toVersionRow = row

theorem Logged.mono {log log' : List Published} {row : VersionRow} (h : Logged log row)
    (hsub : log ⊆ log') :
    Logged log' row := by
  obtain ⟨p, hp, hrow⟩ := h
  exact ⟨p, hsub hp, hrow⟩

/-- The draft is a definition that `validate_definition` has returned. -/
def DraftValid (t : CharTables) (draft : List StepRequest) : Prop :=
  ∃ definition : Definition, definition.Valid t ∧ draft = definition.requests

/-- What holds of the runbooks and of their publications at any time. -/
structure RegistryInv (t : CharTables) (r : Registry) : Prop where
  drafts : ∀ x ∈ r.runbooks, DraftValid t x.draft
  publishing : ∀ p ∈ r.publishing, p.definition.Valid t ∧ p.Confirmed
  valid : ∀ p ∈ r.log, p.definition.Valid t
  confirmed : ∀ p ∈ r.log, isDestructive p.definition = true → p.confirmName = some p.name
  logged : ∀ row ∈ r.versions, Logged r.log row
  distinct : r.log.Pairwise fun p q => p.key ≠ q.key
  drawnLog : ∀ p ∈ r.log, p.runbookId ∈ r.drawn
  drawn : ∀ x ∈ r.runbooks, x.runbookId ∈ r.drawn
  counted : ∀ x ∈ r.runbooks, ∀ p ∈ r.log, p.runbookId = x.runbookId →
    p.version ≤ x.publishedVersion.getD 0

section Steps

variable {t : CharTables} {r : Registry}

theorem RegistryInv.create (h : RegistryInv t r) (runbookId name : String)
    (draft : List StepRequest) :
    RegistryInv t (r.create t runbookId name draft) := by
  unfold Registry.create
  split
  · exact h
  · rename_i hfresh
    split
    · exact h
    · rename_i definition hvalid
      split
      · exact h
      · rename_i runbooks hinsert
        refine { h with
          drafts := fun x hx => ?_
          drawnLog := fun p hp => List.mem_cons_of_mem _ (h.drawnLog p hp)
          drawn := fun x hx => ?_
          counted := fun x hx p hp hid => ?_ }
        · rcases (Table.mem_insert? hinsert).1 hx with hold | rfl
          · exact h.drafts x hold
          · exact ⟨definition, validateDefinition_ok hvalid, rfl⟩
        · rcases (Table.mem_insert? hinsert).1 hx with hold | rfl
          · exact List.mem_cons_of_mem _ (h.drawn x hold)
          · exact List.mem_cons_self
        · rcases (Table.mem_insert? hinsert).1 hx with hold | rfl
          · exact h.counted x hold p hp hid
          · have hdrawn := h.drawnLog p hp
            rw [hid] at hdrawn
            exact absurd hdrawn hfresh

/-- An edited row has the id and the version of the row that it replaces. -/
theorem kept_of_edit {runbook x : Runbook} {runbookId name : String} {draft : List StepRequest}
    (hfind : r.runbooks.find? runbookId = some runbook)
    (hx : x ∈ (((r.runbooks.filterRows fun row => decide (row.runbookId ≠ runbookId)).insert?
      { runbook with
        name := name
        draft := draft }).getD r.runbooks)) :
    ∃ x' ∈ r.runbooks, x'.runbookId = x.runbookId ∧ x'.publishedVersion = x.publishedVersion ∧
      (x.draft = x'.draft ∨ x.draft = draft) := by
  cases hinsert : (r.runbooks.filterRows fun row => decide (row.runbookId ≠ runbookId)).insert?
      { runbook with
        name := name
        draft := draft } with
  | none =>
      rw [hinsert, Option.getD_none] at hx
      exact ⟨x, hx, rfl, rfl, .inl rfl⟩
  | some runbooks =>
      rw [hinsert, Option.getD_some, Table.mem_insert? hinsert, Table.mem_filterRows] at hx
      rcases hx with ⟨hx, _⟩ | rfl
      · exact ⟨x, hx, rfl, rfl, .inl rfl⟩
      · exact ⟨runbook, Table.mem_of_find? hfind, rfl, rfl, .inr rfl⟩

theorem RegistryInv.edit (h : RegistryInv t r) (runbookId name : String)
    (draft : List StepRequest) :
    RegistryInv t (r.edit t runbookId name draft) := by
  unfold Registry.edit
  split
  · rename_i definition runbook hvalid hfind
    dsimp only
    -- The new row counts the same publications as the row that it replaces.
    refine { h with
      drafts := fun x hx => ?_
      drawn := fun x hx => ?_
      counted := fun x hx => ?_ }
    all_goals
      obtain ⟨x', hx', hid, hversion, hdraft⟩ := kept_of_edit hfind hx
    · rcases hdraft with hold | hnew
      · exact hold ▸ h.drafts x' hx'
      · exact ⟨definition, validateDefinition_ok hvalid, hnew⟩
    · exact hid ▸ h.drawn x' hx'
    · exact hid ▸ hversion ▸ h.counted x' hx'
  · exact h

theorem RegistryInv.delete (h : RegistryInv t r) (runbookId : String) :
    RegistryInv t (r.delete runbookId) :=
  { h with
    drafts := fun x hx => h.drafts x (Table.mem_filterRows.1 hx).1
    logged := fun row hrow => h.logged row (Table.mem_filterRows.1 hrow).1
    drawn := fun x hx => h.drawn x (Table.mem_filterRows.1 hx).1
    counted := fun x hx => h.counted x (Table.mem_filterRows.1 hx).1 }

/-- The checks of `publish` admit only valid definitions that are confirmed. -/
theorem RegistryInv.publish (h : RegistryInv t r) (runbookId : String)
    (confirmName : Option String) :
    RegistryInv t (r.publish t runbookId confirmName) := by
  unfold Registry.publish
  split
  · exact h
  · rename_i runbook _
    split
    · exact h
    · rename_i definition hvalid
      split
      · exact h
      · rename_i hchecked
        refine { h with publishing := fun p hp => ?_ }
        rcases List.mem_append.1 hp with hold | hnew
        · exact h.publishing p hold
        · obtain rfl := List.mem_singleton.1 hnew
          refine ⟨validateDefinition_ok hvalid, fun hdestructive => ?_⟩
          by_contra hname
          refine hchecked ?_
          rw [hdestructive, Bool.true_and]
          exact decide_eq_true hname

theorem exists_of_mem_setPublished {runbooks : Table Runbook Runbook.runbookId Runbook.name}
    {runbookId : String} {version : Nat} {x : Runbook}
    (hx : x ∈ Registry.setPublished runbooks runbookId version) :
    ∃ x' ∈ runbooks, x.runbookId = x'.runbookId ∧ x.draft = x'.draft ∧ x.publishedVersion =
        if x'.runbookId = runbookId then some version else x'.publishedVersion := by
  obtain ⟨x', hx', rfl⟩ := Table.mem_mapRows.1 hx
  refine ⟨x', hx', ?_⟩
  split <;> exact ⟨rfl, rfl, rfl⟩

/-- The version that `publish_runbook` stores has a number of its own. -/
theorem RegistryInv.publishRunbook (h : RegistryInv t r) {p : Publishing}
    (hvalid : p.definition.Valid t) (hconfirmed : p.Confirmed) :
    RegistryInv t (r.publishRunbook p) := by
  unfold Registry.publishRunbook
  split
  · exact h
  · rename_i current hfind
    dsimp only
    split
    · exact h
    · rename_i versions hinsert
      have hcurrent := Table.mem_of_find? hfind
      have hid := Table.pk_of_find? hfind
      have hnew : ∀ q ∈ r.log, q.runbookId = p.runbookId →
          q.version ≤ current.publishedVersion.getD 0 :=
        fun q hq hsame => h.counted current hcurrent q hq (hsame.trans hid.symm)
      have hdrawn : p.runbookId ∈ r.drawn := by
        rw [← hid]
        exact h.drawn current hcurrent
      refine
        { drafts := fun x hx => ?_
          publishing := h.publishing
          valid := List.forall_mem_cons.2 ⟨hvalid, h.valid⟩
          confirmed := List.forall_mem_cons.2 ⟨hconfirmed, h.confirmed⟩
          logged := fun row hrow => ?_
          distinct := List.pairwise_cons.2 ⟨fun q hq hkey => ?_, h.distinct⟩
          drawnLog := List.forall_mem_cons.2 ⟨hdrawn, h.drawnLog⟩
          drawn := fun x hx => ?_
          counted := fun x hx => ?_ }
      · obtain ⟨x', hx', _, hdraft, _⟩ := exists_of_mem_setPublished hx
        exact hdraft ▸ h.drafts x' hx'
      · rcases (Table.mem_insert? hinsert).1 hrow with hold | rfl
        · exact (h.logged row hold).mono (List.subset_cons_self _ _)
        · exact ⟨_, List.mem_cons_self, rfl⟩
      · obtain ⟨hsame, hversion⟩ := Prod.ext_iff.1 hkey
        have hle := hnew q hq hsame.symm
        simp only [VersionRow.key] at hversion
        omega
      · obtain ⟨x', hx', hsame, _, _⟩ := exists_of_mem_setPublished hx
        exact hsame ▸ h.drawn x' hx'
      · obtain ⟨x', hx', hsame, _, hversion⟩ := exists_of_mem_setPublished hx
        rw [hsame, hversion]
        by_cases hx'id : x'.runbookId = p.runbookId
        · rw [if_pos hx'id]
          refine List.forall_mem_cons.2 ⟨fun _ => le_rfl, fun q hq hq' => ?_⟩
          exact (hnew q hq (hq'.trans hx'id)).trans (Nat.le_succ _)
        · rw [if_neg hx'id]
          exact List.forall_mem_cons.2
            ⟨fun hq => absurd hq.symm hx'id, h.counted x' hx'⟩

theorem registryInv_empty (t : CharTables) :
    RegistryInv t {} where
  drafts := fun _ hx => absurd hx List.not_mem_nil
  publishing := fun _ hp => absurd hp List.not_mem_nil
  valid := fun _ hp => absurd hp List.not_mem_nil
  confirmed := fun _ hp => absurd hp List.not_mem_nil
  logged := fun _ hrow => absurd hrow List.not_mem_nil
  distinct := List.Pairwise.nil
  drawnLog := fun _ hp => absurd hp List.not_mem_nil
  drawn := fun _ hx => absurd hx List.not_mem_nil
  counted := fun _ hx => absurd hx List.not_mem_nil

/-- One transaction on the runbooks keeps what holds of them. -/
theorem RegistryInv.step (h : RegistryInv t r) (ev : RegistryEvent) :
    RegistryInv t (registryStep t r ev) := by
  cases ev with
  | create runbookId name draft => exact h.create runbookId name draft
  | edit runbookId name draft => exact h.edit runbookId name draft
  | delete runbookId => exact h.delete runbookId
  | publish runbookId confirmName => exact h.publish runbookId confirmName
  | store j =>
      simp only [registryStep]
      split
      · exact h
      · rename_i p hp
        obtain ⟨hvalid, hconfirmed⟩ := h.publishing p (List.mem_of_getElem? hp)
        have hrest : RegistryInv t { r with publishing := r.publishing.eraseIdx j } :=
          { h with publishing := fun q hq => h.publishing q (List.mem_of_mem_eraseIdx hq) }
        exact hrest.publishRunbook hvalid hconfirmed
  | crash => exact { h with publishing := fun p hp => absurd hp List.not_mem_nil }

theorem publish_draft (h : RegistryInv t r) {runbookId : String} {runbook : Runbook}
    (hfind : r.runbooks.find? runbookId = some runbook) (confirmName : Option String) :
    ∃ definition : Definition, runbook.draft = definition.requests ∧
      (r.publish t runbookId confirmName).publishing =
        if isDestructive definition = true ∧ confirmName ≠ some runbook.name then r.publishing
        else r.publishing ++
          [{ runbookId := runbookId
             name := runbook.name
             confirmName := confirmName
             definition := definition }] := by
  obtain ⟨definition, hvalid, hdraft⟩ := h.drafts runbook (Table.mem_of_find? hfind)
  refine ⟨definition, hdraft, ?_⟩
  unfold Registry.publish
  simp only [hfind, hdraft, validateDefinition_self hvalid, Bool.and_eq_true, decide_eq_true_eq]
  split <;> rfl

end Steps

end Publication
end Automations
end MpvmApp
