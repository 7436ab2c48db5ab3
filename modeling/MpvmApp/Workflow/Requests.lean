import MpvmApp.Workflow.Machine

/-!
# Requests for workflows

A request for a scan, for the verification of a campaign or for a retry is handled in
several transactions: a look at the idempotency key, the checks of its entry point,
and the insertion of the row under the unique constraint of the key.  Between two of
them any other handler, and any thread of a workflow, may take a step.

Main definitions:

- `nextStage`: what a handler reads and decides.
- `insert`: the insertion of a workflow row.
- `requestStep`: one step of the handlers and of the workflow machine.
-/

namespace MpvmApp
namespace Workflow

open Sql Remediation

variable {ω : Type} [DecidableEq ω]

/-! ## Stored requests -/

/-- `request_json` of a workflow; the options of a request are of any type. -/
structure Body (ω : Type) where
  taskId : Option String := none
  campaignId : Option String := none
  assetIds : Option (List String) := none
  options : ω
deriving DecidableEq

/-- The part of a request that the run of its workflow reads. -/
def Body.toRequest (reconcile : ω → Option Json) (body : Body ω) : WorkflowRequest where
  campaignId := body.campaignId
  taskId := body.taskId
  assetIds := body.assetIds.getD []
  reconcile := reconcile body.options

/-- The columns of a workflow row that never change. -/
structure Stored (ω : Type) where
  workflowId : String
  kind : Kind
  body : Body ω
  idempotencyKey : Option String := none
  retryOf : Option String := none
deriving DecidableEq

/-- What a client asks for. -/
inductive Ask (ω : Type) where
  | scan (taskId : String) (options : ω)
  | verification (campaignId : String) (options : ω)
  | retry (sourceId : String)
deriving DecidableEq

/-- The arguments of `create`, and the row that a retry has read. -/
structure Draft (ω : Type) where
  kind : Kind
  body : Body ω
  retryOf : Option String := none
  source : Option WorkflowRow := none

/-- What a handler answers. -/
inductive Answer where
  | returned (workflowId : String) (replay : Bool)
  /-- A `ValueError`. -/
  | rejected (message : String)
  /-- The campaign is unknown, or the workflow cannot be retried. -/
  | absent
  /-- A `VmPreflightBlocked`. -/
  | blocked
  /-- The `UniqueViolation` itself. -/
  | raised
deriving DecidableEq, Repr

/-- The answer hands out no workflow. -/
def Answer.refuses : Answer → Bool
  | .returned _ _ => false
  | _ => true

/-- How far the handler of a request has come. -/
inductive Stage (ω : Type) where
  | arrived
  /-- A scan whose key is unused. -/
  | preflighting
  /-- A verification with the targets of its campaign. -/
  | targeted (targets : List String)
  /-- `create` is called. -/
  | creating (draft : Draft ω)
  /-- `create` has found no row under the key. -/
  | inserting (draft : Draft ω)
  /-- The insertion has violated the unique key. -/
  | rereading (draft : Draft ω)
  | answered (answer : Answer)

/-- The handler of one request. -/
structure Handler (ω : Type) where
  ask : Ask ω
  key : Option String
  stage : Stage ω := .arrived

/-- The workflows, their unchanging columns with the newest first, and the handlers. -/
structure Requests (ω : Type) where
  base : State
  campaigns : List String := []
  stored : List (Stored ω) := []
  handlers : List (Handler ω) := []

namespace Requests

/-- The unchanging columns of a workflow. -/
def row? (s : Requests ω) (workflowId : String) : Option (Stored ω) :=
  s.stored.find? fun row => decide (row.workflowId = workflowId)

/-- `by_idempotency_key`. -/
def byKey? (s : Requests ω) (key : String) : Option (Stored ω) :=
  s.stored.find? fun row => decide (row.idempotencyKey = some key)

/-- The row under the key of a request, when it has one. -/
def keyed? (s : Requests ω) (key : Option String) : Option (Stored ω) :=
  key.bind s.byKey?

/-- The workflow is stored with an active status and a campaign. -/
def activeIn (s : Requests ω) (campaignId workflowId : String) : Bool :=
  (s.base.workflows workflowId).any fun e =>
    decide (e.row.campaignId = some campaignId) && e.row.status.isActive

/-- `active_for_campaign`: the newest active workflow of a campaign. -/
def activeForCampaign (s : Requests ω) (campaignId : String) : Option String :=
  (s.stored.map Stored.workflowId).find? (s.activeIn campaignId)

end Requests

/-- `campaign_targets` of a campaign that exists. -/
def campaignTargets (loc : Sql.Locale) (db : Database) (campaignId : String) : List String :=
  (fromKeys ((db.cases.rows.filter (db.verifiable campaignId)).map CaseRow.assetId)).insertionSort
    fun a b => loc.le a b = true

/-! ## Replays -/

/-- The replay branch of `start_scan`. -/
def replayScan (existing : Stored ω) (taskId : String) (options : ω) : Answer :=
  if existing.kind ≠ .scan then
    .rejected "Idempotency key belongs to another workflow kind."
  else if existing.retryOf ≠ none then
    .rejected "Idempotency key belongs to another workflow operation."
  else if existing.body.taskId.getD "" ≠ taskId ∨ existing.body.options ≠ options then
    .rejected "Idempotency key was already used with a different scan request."
  else
    .returned existing.workflowId true

/-- `_validate_idempotency_replay`, and the replay that follows it. -/
def replayDraft (replay : Stored ω) (draft : Draft ω) : Answer :=
  if replay.kind ≠ draft.kind then
    .rejected "Idempotency key belongs to another workflow kind."
  else if replay.retryOf ≠ draft.retryOf then
    .rejected "Idempotency key belongs to another workflow operation."
  else if replay.body ≠ draft.body then
    .rejected (if draft.kind = .scan then
      "Idempotency key was already used with a different scan request."
    else "Idempotency key was already used with a different workflow request.")
  else
    .returned replay.workflowId true

/-! ## Handlers -/

/-- The draft of a new scan. -/
def scanDraft (taskId : String) (options : ω) : Draft ω where
  kind := .scan
  body := { taskId := some taskId, options := options }

/-- The draft of a verification of a campaign. -/
def verificationDraft (campaignId : String) (targets : List String) (options : ω) : Draft ω where
  kind := .verification
  body := { campaignId := some campaignId, assetIds := some targets, options := options }

/-- The first read of a handler. -/
def receive (loc : Sql.Locale) (s : Requests ω) (h : Handler ω) : Stage ω :=
  match h.ask with
  | .scan taskId options =>
      match s.keyed? (orNone h.key) with
      | some existing => .answered (replayScan existing taskId options)
      | none => .preflighting
  | .verification campaignId _ =>
      if campaignId ∈ s.campaigns then .targeted (campaignTargets loc s.base.db campaignId)
      else .answered .absent
  | .retry sourceId =>
      match s.base.workflows sourceId, s.row? sourceId with
      | some source, some stored =>
          if source.row.status.canRetry then
            .creating
              { kind := stored.kind
                body := stored.body
                retryOf := some sourceId
                source := some source.row }
          else .answered .absent
      | _, _ => .answered .absent

/-- The replay of a draft, when its key is used. -/
def replayOr (s : Requests ω) (h : Handler ω) (draft : Draft ω) (next : Stage ω) : Stage ω :=
  match s.keyed? (orNone h.key) with
  | some replay => .answered (replayDraft replay draft)
  | none => next

/--
What a handler reads and decides, up to the insertion; `ready` is the outcome of
the preflight of a scan.
-/
def nextStage (loc : Sql.Locale) (ready : Bool) (s : Requests ω) (h : Handler ω) :
    Option (Stage ω) :=
  match h.stage with
  | .arrived => some (receive loc s h)
  | .preflighting =>
      match h.ask with
      | .scan taskId options =>
          some (if ready then .creating (scanDraft taskId options) else .answered .blocked)
      | _ => none
  | .targeted targets =>
      match h.ask with
      | .verification campaignId options =>
          match s.activeForCampaign campaignId with
          | some active => some (.answered (.returned active true))
          | none => some (.creating (verificationDraft campaignId targets options))
      | _ => none
  | .creating draft => some (replayOr s h draft (.inserting draft))
  | .rereading draft => some (replayOr s h draft (.answered .raised))
  | .inserting _ | .answered _ => none

/-- The row that an insertion adds. -/
def newRow (h : Handler ω) (draft : Draft ω) (workflowId : String) : Stored ω where
  workflowId := workflowId
  kind := draft.kind
  body := draft.body
  idempotencyKey := h.key
  retryOf := draft.retryOf

/-- The row of a handler moves to a stage. -/
def Requests.setStage (s : Requests ω) (i : Nat) (h : Handler ω) (stage : Stage ω) : Requests ω :=
  { s with handlers := s.handlers.set i { h with stage := stage } }

/-- The insertion of a workflow row under a fresh id. -/
def insert (reconcile : ω → Option Json) (s : Requests ω) (i : Nat) (h : Handler ω)
    (draft : Draft ω) (workflowId : String) : Requests ω :=
  if (s.keyed? h.key).isSome then
    s.setStage i h (if (orNone h.key).isSome then .rereading draft else .answered .raised)
  else if (s.base.workflows workflowId).isSome then s
  else
    { s.setStage i h (.answered (.returned workflowId false)) with
      base := s.base.create workflowId draft.kind (draft.body.toRequest reconcile) draft.source
      stored := newRow h draft workflowId :: s.stored }

/-! ## The system -/

/-- What happens to the requests and to the workflows. -/
inductive RequestEvent (ω : Type) where
  | arrive (ask : Ask ω) (key : Option String)
  /-- The handler at a position takes a step. -/
  | handle (i : Nat) (ready : Bool) (workflowId : String)
  /-- The thread of a workflow takes a step. -/
  | act (workflowId : String) (action : Action)
  | remediation (op : Operation)

/-- The campaigns after an operation on the remediation tables. -/
def campaignsAfter (cfg : Settings) (s : Requests ω) (op : Operation) : List String :=
  match op, perform cfg op s.base.db with
  | .campaign campaignId _, .ok _ => campaignId :: s.campaigns
  | _, _ => s.campaigns

/-- What the deployment fixes, with the reading of the option `reconcile`. -/
structure RequestSettings (ω : Type) extends Settings where
  reconcile : ω → Option Json

/-- One step of the system. -/
def requestStep (cfg : RequestSettings ω) (s : Requests ω) : RequestEvent ω → Requests ω
  | .arrive ask key => { s with handlers := s.handlers ++ [{ ask := ask, key := key }] }
  | .handle i ready workflowId =>
      match s.handlers[i]? with
      | none => s
      | some h =>
          match h.stage with
          | .inserting draft => insert cfg.reconcile s i h draft workflowId
          | _ =>
              match nextStage cfg.locale ready s h with
              | some stage => s.setStage i h stage
              | none => s
  | .act workflowId action =>
      { s with base := step cfg.toSettings s.base (.act workflowId action) }
  | .remediation op =>
      { s with
        base := step cfg.toSettings s.base (.remediation op)
        campaigns := campaignsAfter cfg.toSettings s op }

/-- A deployment without workflows and requests. -/
def noRequests (db : Database) : Requests ω where
  base := { db := db, workflows := fun _ => none }

end Workflow
end MpvmApp
