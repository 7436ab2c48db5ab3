import MpvmApp.Lib.Dict
import MpvmApp.Lib.Runs
import MpvmApp.Sql.Text

/-!
# Local asset groups

An asset group has a parent, a query that defines it, and the members that its last
evaluation has stored.  The operations run in transactions of the isolation level read
committed: every statement reads what is committed when it starts.  A request is
therefore a thread that takes one step for each statement that reads, and one for the
writes that its transaction commits.

Main definitions:

- `State`: the tables of the groups with the requests that are being served.
- `step`: one step of a request.
-/

namespace MpvmApp
namespace AssetGroups

/-! ## Tables -/

/-- The status of a group. -/
inductive GroupStatus where
  | stale
  | evaluating
  | ready
  | error
deriving DecidableEq

/-- A row of `asset_groups`. -/
structure Group (U Q : Type*) where
  parentId : Option U
  name : String
  description : String
  query : Q
  definitionVersion : Nat := 1
  status : GroupStatus := .stale
  memberCount : Nat := 0
  indexedCards : Nat := 0
  totalCards : Nat := 0
  lastError : Option String := none
  archived : Bool := false
deriving DecidableEq

/-- The action of a row of `asset_group_overrides`. -/
inductive Action where
  | include
  | exclude
deriving DecidableEq

/-- A row of `asset_group_members`; `evaluationId` is the evaluation that stored it. -/
structure Member (E : Type*) where
  evaluationId : Nat
  membershipSource : String
  evidence : List E
deriving DecidableEq

/-- The status of an evaluation. -/
inductive EvaluationStatus where
  | running
  | completed
  | failed
deriving DecidableEq

/-- A row of `asset_group_evaluations`. -/
structure EvaluationRow (U : Type*) where
  groupId : U
  definitionVersion : Nat
  status : EvaluationStatus := .running
  matchedCount : Nat := 0
  indexedCards : Nat := 0
  totalCards : Nat := 0
  error : Option String := none
deriving DecidableEq

/-! ## Evaluations -/

/-- What an evaluation keeps of a card: its source, if it names one, and the matches. -/
structure RuleRow (E : Type*) where
  membershipSource : Option String := none
  «matches» : List E := []
deriving DecidableEq

/-- The answer of `query_asset_cards_by_fields`. -/
structure SearchResult (E : Type*) where
  rows : List (String × List E)
  indexedCards : Nat
  totalCards : Nat
deriving DecidableEq

/-- The rows of the search by asset. -/
def ruleRows {E : Type*} (result : SearchResult E) : Dict String (RuleRow E) :=
  result.rows.foldl (fun rows row => rows.set row.1 { «matches» := row.2 }) Dict.empty

/-- One override: `found` tells whether a card that has to be looked up is there. -/
def applyOverride {E : Type*} (rows : Dict String (RuleRow E)) (assetId : String)
    (action : Action) (found : Bool) : Dict String (RuleRow E) :=
  match action with
  | .exclude => rows.pop assetId
  | .include =>
      if (rows.get? assetId).isNone ∧ found then
        rows.set assetId { membershipSource := some "manual_include" }
      else rows

/-- The members that an evaluation stores. -/
def memberRows {E : Type*} (evaluationId : Nat) (rows : Dict String (RuleRow E)) :
    List (String × Member E) :=
  rows.items.map fun item =>
    (item.1, { evaluationId := evaluationId,
               membershipSource := item.2.membershipSource.getD "rule",
               evidence := item.2.matches })

/-- What an evaluation has read: the overrides come with the outcome of their look-ups. -/
structure Basis (Q E : Type*) where
  definitionVersion : Nat
  query : Q
  result : SearchResult E
  applied : List ((String × Action) × Bool)
deriving DecidableEq

/-- The rows of an evaluation: those of the search, changed by the overrides. -/
def Basis.rows {Q E : Type*} (b : Basis Q E) : Dict String (RuleRow E) :=
  b.applied.foldl (fun rows o => applyOverride rows o.1.1 o.1.2 o.2) (ruleRows b.result)

/-- How far an evaluation has come. -/
inductive Phase (Q E : Type*) where
  | started (definitionVersion : Nat) (query : Q)
  | opened (definitionVersion : Nat) (query : Q)
  | searched (definitionVersion : Nat) (query : Q) (result : SearchResult E)
  | applying (basis : Basis Q E) (rest : List (String × Action)) (rows : Dict String (RuleRow E))
  | deleted (basis : Basis Q E) (rows : Dict String (RuleRow E)) (seen : List (String × Member E))
  | failing (error : String)
deriving DecidableEq

/-- The evaluation has read the overrides of its group. -/
def Phase.hasOverrides {Q E : Type*} : Phase Q E → Bool
  | .applying _ _ _ | .deleted _ _ _ => true
  | _ => false

/-! ## Requests -/

/-- The fields of `AssetGroupUpdateRequest` that are set. -/
structure Changes (Q : Type*) where
  name : Option String := none
  description : Option String := none
  parentId : Option (Option String) := none
  query : Option Q := none
deriving DecidableEq

/-- A request that checks the ancestors of a parent before it writes. -/
inductive Request (U Q : Type*) where
  | create (groupId : U) (parentId : Option String) (name description : String) (query : Q)
  | update (groupId : String) (changes : Changes Q)
deriving DecidableEq

/-- A request that is being served. -/
inductive Task (U Q E : Type*) where
  | walking (request : Request U Q) (visited : List String) (candidateParent : Option String)
  | evaluating (groupId : U) (evaluationId : Nat) (phase : Phase Q E)
  | ended
deriving DecidableEq

/-- The tables, with the evaluation that marked each group ready. -/
structure State (U Q E : Type*) where
  groups : Dict U (Group U Q)
  overrides : U → Dict String Action
  members : U → List (String × Member E)
  evaluations : Dict Nat (EvaluationRow U)
  nextEvaluation : Nat
  basis : U → Option (Basis Q E)
  tasks : List (Task U Q E)

/--
What the requests take from the database and from Python: the type `uuid` reads what
it prints, the unique index compares names in one case, and queries are validated.
-/
structure Context (U Q : Type*) where
  parseUuid : String → Option U
  uuidText : U → String
  parse_text : ∀ u, parseUuid (uuidText u) = some u
  lower : String → String
  validQuery : Q → Bool

/-- A step of the system; a request is named by its place in the list of tasks. -/
inductive Event (U Q E : Type*) where
  | beginCreate (groupId : U) (parentId : Option String) (name description : String) (query : Q)
  | beginUpdate (groupId : String) (changes : Changes Q)
  | readParent (task : Nat)
  | write (task : Nat)
  | archive (groupId : U)
  | setOverride (groupId : U) (assetId : String) (action : Action) (cardFound : Bool)
  | deleteOverride (groupId : U) (assetId : String)
  | beginEvaluation (groupId : U)
  | openEvaluation (task : Nat)
  | search (task : Nat) (result : SearchResult E)
  | readOverrides (task : Nat)
  | lookUp (task : Nat) (cardFound : Bool)
  | deleteMembers (task : Nat)
  | commit (task : Nat)
  | raise (task : Nat) (error : String)
  | fail (task : Nat)
  | crash (task : Nat)

variable {U Q E : Type*} [DecidableEq U] [DecidableEq E]

/-- A database without groups. -/
def initial : State U Q E where
  groups := Dict.empty
  overrides := fun _ => Dict.empty
  members := fun _ => []
  evaluations := Dict.empty
  nextEvaluation := 0
  basis := fun _ => none
  tasks := []

namespace State

/-- A new request. -/
def spawn (s : State U Q E) (task : Task U Q E) : State U Q E :=
  { s with tasks := s.tasks ++ [task] }

/-- A request moves on. -/
def put (s : State U Q E) (i : Nat) (task : Task U Q E) : State U Q E :=
  { s with tasks := s.tasks.set i task }

/-- The row of a group that is not archived. -/
def live? (s : State U Q E) (groupId : U) : Option (Group U Q) :=
  (s.groups.get? groupId).filter fun group => !group.archived

/-- `UPDATE asset_groups ... WHERE group_id = %s`. -/
def updateGroup (s : State U Q E) (groupId : U) (f : Group U Q → Group U Q) : State U Q E :=
  match s.groups.get? groupId with
  | some group => { s with groups := s.groups.set groupId (f group) }
  | none => s

/-- `idx_asset_groups_parent_name`: another live group has the name at this level. -/
def nameTaken (ctx : Context U Q) (s : State U Q E) (groupId : U) (parentId : Option U)
    (name : String) : Bool :=
  s.groups.items.any fun item =>
    item.1 ≠ groupId ∧ item.2.archived = false ∧ item.2.parentId = parentId ∧
      ctx.lower item.2.name = ctx.lower name

/-! ## Changes of the hierarchy -/

/-- `create_local_asset_group`, before its first statement. -/
def beginCreate (ctx : Context U Q) (s : State U Q E) (groupId : U) (parentId : Option String)
    (name description : String) (query : Q) : State U Q E :=
  if ctx.validQuery query then
    s.spawn (.walking (.create groupId parentId name description query)
      [ctx.uuidText groupId] parentId)
  else s

/-- `update_local_asset_group`, before its first statement. -/
def beginUpdate (ctx : Context U Q) (s : State U Q E) (groupId : String) (changes : Changes Q) :
    State U Q E :=
  if changes.parentId = some (some groupId) then s
  else if changes.query.any (fun query => !ctx.validQuery query) then s
  else if changes.name.isNone ∧ changes.description.isNone ∧ changes.parentId.isNone ∧
      changes.query.isNone then s
  else s.spawn (.walking (.update groupId changes) [groupId] (changes.parentId.getD none))

/-- One round of the loop over the ancestors; an error ends the request. -/
def readParent (ctx : Context U Q) (s : State U Q E) (i : Nat) (request : Request U Q)
    (visited : List String) (candidateParent : String) : State U Q E :=
  if candidateParent ∈ visited then s.put i .ended
  else
    match (ctx.parseUuid candidateParent).bind s.live? with
    | some parent =>
        s.put i (.walking request (visited ++ [candidateParent])
          (parent.parentId.map ctx.uuidText))
    | none => s.put i .ended

/-- The row that `create_local_asset_group` inserts. -/
def newGroup (ctx : Context U Q) (parentId : Option String) (name description : String)
    (query : Q) : Group U Q where
  parentId := parentId.bind ctx.parseUuid
  name := Sql.strip name
  description := Sql.strip description
  query := query

/-- The assignments of `update_local_asset_group`. -/
def applyChanges (ctx : Context U Q) (changes : Changes Q) (group : Group U Q) : Group U Q :=
  { group with
    name := (changes.name.map Sql.strip).getD group.name
    description := (changes.description.map Sql.strip).getD group.description
    parentId :=
      match changes.parentId with
      | some parentId => parentId.bind ctx.parseUuid
      | none => group.parentId
    query := changes.query.getD group.query
    definitionVersion :=
      if changes.query.isSome then group.definitionVersion + 1 else group.definitionVersion
    status := if changes.query.isSome then .stale else group.status }

/-- The row that a request stores, unless a constraint or its `WHERE` refuses it. -/
def rowToWrite (ctx : Context U Q) (s : State U Q E) : Request U Q → Option (U × Group U Q)
  | .create groupId parentId name description query =>
      let group := newGroup ctx parentId name description query
      if (s.groups.get? groupId).isSome ∨ s.nameTaken ctx groupId group.parentId group.name then
        none
      else some (groupId, group)
  | .update groupText changes =>
      (ctx.parseUuid groupText).bind fun groupId =>
        (s.live? groupId).bind fun old =>
          let group := applyChanges ctx changes old
          if s.nameTaken ctx groupId group.parentId group.name then none
          else some (groupId, group)

/-- The write of a request whose loop over the ancestors has ended. -/
def write (ctx : Context U Q) (s : State U Q E) (i : Nat) (request : Request U Q) :
    State U Q E :=
  match s.rowToWrite ctx request with
  | some (groupId, group) => { s with groups := s.groups.set groupId group }.put i .ended
  | none => s.put i .ended

/-- `archive_local_asset_group`. -/
def archive (s : State U Q E) (groupId : U) : State U Q E :=
  match s.live? groupId with
  | some group => { s with groups := s.groups.set groupId { group with archived := true } }
  | none => s

/-! ## Overrides -/

/-- Both changes of the overrides leave the group stale. -/
def markStale (s : State U Q E) (groupId : U) : State U Q E :=
  s.updateGroup groupId fun group => { group with status := .stale }

/-- Replace the overrides of a group. -/
def putOverrides (s : State U Q E) (groupId : U) (overrides : Dict String Action) :
    State U Q E :=
  { s with overrides := fun g => if g = groupId then overrides else s.overrides g }

/-- `set_local_asset_group_override` on a group and a card that are there. -/
def setOverride (s : State U Q E) (groupId : U) (assetId : String) (action : Action)
    (cardFound : Bool) : State U Q E :=
  if (s.groups.get? groupId).isSome ∧ cardFound then
    (s.putOverrides groupId ((s.overrides groupId).set assetId action)).markStale groupId
  else s

/-- `delete_local_asset_group_override`. -/
def deleteOverride (s : State U Q E) (groupId : U) (assetId : String) : State U Q E :=
  (s.putOverrides groupId ((s.overrides groupId).pop assetId)).markStale groupId

/-! ## Evaluations -/

/-- `evaluate_local_asset_group` reads the group; the id of the evaluation is new. -/
def beginEvaluation (s : State U Q E) (groupId : U) : State U Q E :=
  match s.live? groupId with
  | some group =>
      { s with nextEvaluation := s.nextEvaluation + 1 }.spawn
        (.evaluating groupId s.nextEvaluation (.started group.definitionVersion group.query))
  | none => s

/-- Change the row of an evaluation. -/
def updateEvaluation (s : State U Q E) (evaluationId : Nat)
    (f : EvaluationRow U → EvaluationRow U) : State U Q E :=
  match s.evaluations.get? evaluationId with
  | some row => { s with evaluations := s.evaluations.set evaluationId (f row) }
  | none => s

/-- The transaction that opens an evaluation. -/
def openEvaluation (s : State U Q E) (groupId : U) (evaluationId version : Nat) :
    State U Q E :=
  let row : EvaluationRow U := { groupId := groupId, definitionVersion := version }
  { s with evaluations := s.evaluations.set evaluationId row }.updateGroup groupId
    fun group => { group with status := .evaluating, lastError := none }

/-- The members that are there when an evaluation inserts its own. -/
def remaining (s : State U Q E) (groupId : U) (seen : List (String × Member E)) :
    List (String × Member E) :=
  (s.members groupId).filter fun member => member ∉ seen

/-- The primary key refuses a member that is still there. -/
def conflicts (s : State U Q E) (groupId : U) (rows : Dict String (RuleRow E))
    (seen : List (String × Member E)) : Bool :=
  rows.items.any fun item => item.1 ∈ (s.remaining groupId seen).map Prod.fst

/-- The writes of the last transaction of an evaluation. -/
def complete (s : State U Q E) (groupId : U) (evaluationId : Nat) (basis : Basis Q E)
    (rows : Dict String (RuleRow E)) (seen : List (String × Member E)) : State U Q E :=
  let stored : State U Q E :=
    { s with
      members := fun g =>
        if g = groupId then s.remaining groupId seen ++ memberRows evaluationId rows
        else s.members g
      basis := fun g => if g = groupId then some basis else s.basis g }
  (stored.updateEvaluation evaluationId fun row =>
    { row with
      status := .completed
      matchedCount := rows.items.length
      indexedCards := basis.result.indexedCards
      totalCards := basis.result.totalCards }).updateGroup groupId fun group =>
    { group with
      status := .ready
      memberCount := rows.items.length
      indexedCards := basis.result.indexedCards
      totalCards := basis.result.totalCards
      lastError := none }

/-- The transaction with which an evaluation stores its failure. -/
def recordFailure (s : State U Q E) (groupId : U) (evaluationId : Nat) (error : String) :
    State U Q E :=
  (s.updateEvaluation evaluationId fun row =>
    { row with status := .failed, error := some error }).updateGroup groupId fun group =>
    { group with status := .error, lastError := some error }

/--
The statements of an evaluation.  What is raised before the evaluation is open is not
recorded; afterwards the transaction is rolled back and the failure is stored.
-/
def evaluate (s : State U Q E) (i : Nat) (groupId : U) (evaluationId : Nat) (phase : Phase Q E)
    (event : Event U Q E) : State U Q E :=
  let move (s : State U Q E) (phase : Phase Q E) :=
    s.put i (.evaluating groupId evaluationId phase)
  match phase, event with
  | .started version query, .openEvaluation _ =>
      move (s.openEvaluation groupId evaluationId version) (.opened version query)
  | .started _ _, .raise _ _ => s.put i .ended
  | .opened version query, .search _ result => move s (.searched version query result)
  | .searched version query result, .readOverrides _ =>
      move s (.applying
        { definitionVersion := version, query := query, result := result, applied := [] }
        (s.overrides groupId).items (ruleRows result))
  | .applying basis (o :: rest) rows, .lookUp _ cardFound =>
      move s (.applying { basis with applied := basis.applied ++ [(o, cardFound)] } rest
        (applyOverride rows o.1 o.2 cardFound))
  | .applying basis [] rows, .deleteMembers _ =>
      move s (.deleted basis rows (s.members groupId))
  | .deleted basis rows seen, .commit _ =>
      if s.conflicts groupId rows seen then move s (.failing "UniqueViolation")
      else (s.complete groupId evaluationId basis rows seen).put i .ended
  | .failing error, .fail _ => (s.recordFailure groupId evaluationId error).put i .ended
  | .failing _, .raise _ _ => s
  | _, .raise _ error => move s (.failing error)
  | _, _ => s

end State

/-- One step of the system. -/
def step (ctx : Context U Q) (s : State U Q E) (event : Event U Q E) : State U Q E :=
  match event with
  | .beginCreate groupId parentId name description query =>
      s.beginCreate ctx groupId parentId name description query
  | .beginUpdate groupId changes => s.beginUpdate ctx groupId changes
  | .readParent i =>
      match s.tasks[i]? with
      | some (.walking request visited (some candidateParent)) =>
          s.readParent ctx i request visited candidateParent
      | _ => s
  | .write i =>
      match s.tasks[i]? with
      | some (.walking request _ none) => s.write ctx i request
      | _ => s
  | .archive groupId => s.archive groupId
  | .setOverride groupId assetId action cardFound => s.setOverride groupId assetId action cardFound
  | .deleteOverride groupId assetId => s.deleteOverride groupId assetId
  | .beginEvaluation groupId => s.beginEvaluation groupId
  | .crash i => s.put i .ended
  | .openEvaluation i | .search i _ | .readOverrides i | .lookUp i _ | .deleteMembers i
  | .commit i | .raise i _ | .fail i =>
      match s.tasks[i]? with
      | some (.evaluating groupId evaluationId phase) =>
          s.evaluate i groupId evaluationId phase event
      | _ => s

end AssetGroups
end MpvmApp
