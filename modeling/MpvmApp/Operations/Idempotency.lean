import MpvmApp.Lib.Runs
import MpvmApp.Operations.Registry
import MpvmApp.Scanner.Presets

/-!
# Idempotency keys of operations

A request that deletes a scanner task, retries an operation or creates the task of a team may carry
an idempotency key.  Each of the three endpoints first looks for an operation with this key.  If
there is one, it answers with what the operation records, after checks of its own: a deletion wants
the operation to be a deletion, a creation wants it to be a creation that has been completed, and a
retry wants nothing.  If there is none, a deletion and a creation register their operation with the
key before they act; a retry first creates its job, and stores the key with the job afterwards.

The key of an operation is unique, so at most one request can register it.  What is recorded is not
compared with what is asked for, and a retry acts before it has the key.

Every statement of a request is one step, and every write of somebody else.

Main definitions:

- Definition `step`: one statement of a request, or a write of somebody else.
- Definition `AtMostOnce`: no key has had two remote effects.
- Definition `Honest`: a replay answers with a record of the same request, which succeeded.
- Definition `Exclusive`: no two requests with one key have been accepted.
- Definition `Careful`: a request uses a key again only as the endpoints rely on.

Main results:

- Theorem `next_moves`: what the next statement of a request does.
-/

namespace MpvmApp
namespace Operations
namespace Idempotency

open Sql Runs Scanner

/-! ## Data model -/

/-- The id of an operation: one that a request has made, or one of somebody else. -/
inductive OperationId where
  | ofAttempt (i : Nat)
  | given (id : String)
deriving DecidableEq

/-- The kinds of operations that the three endpoints tell apart. -/
inductive Kind where
  | taskDelete
  | teamTaskCreate
  | assetCardBuild
  | passportDetailSync
  | automationRun
  | other (name : String)
deriving DecidableEq

/-- The modes of a deletion. -/
inductive Mode where
  | deleteV3
  | putV4
  | localOnly
  | auto
deriving DecidableEq

/-- What `request_json` records: of a deletion, of a creation, of a query of passports. -/
inductive RequestData where
  | deletion (mode : Mode)
  | selection (presetId : String) (targets : List String)
  | query (pdql : Option String)
  | other
deriving DecidableEq

/-- A row of `operations`; the id of the source is the id of the operation. -/
structure Row where
  operationId : OperationId
  kind : Kind
  status : String
  subjectId : Option String := none
  request : RequestData := .other
  result : Option String := none
  retryOf : Option OperationId := none
  key : Option String := none
deriving DecidableEq

/-- A row of `automation_runs`, with the key as it was given. -/
structure AutomationRun where
  runId : OperationId
  runbookId : String
  triggerType : String
  dryRun : Bool := false
  scheduleId : Option String := none
  scheduledFor : Option String := none
  key : Option String := none
deriving DecidableEq

/-- What a request asks for. -/
inductive Request where
  | delete (taskId : String) (mode : Mode)
  | retry (operationId : OperationId)
  | create (presetId : String) (assetGroupIds targets : List String) (roleIds : Option (List Int))
deriving DecidableEq

/-- Why a request is refused; `raised` is any other exception. -/
inductive Refusal where
  | keyConflict
  | keyOfOtherOperation
  | keyNotCompleted (operationId : OperationId)
  | operationNotFound
  | operationNotRetryable
  | contextMissing
  | automationKeyUsed
  | team (error : TeamError)
  | raised
deriving DecidableEq

/-- The code of a refusal. -/
def Refusal.code : Refusal → Option String
  | .keyConflict | .keyOfOtherOperation | .keyNotCompleted _ => some "IDEMPOTENCY_KEY_CONFLICT"
  | .operationNotFound => some "OPERATION_NOT_FOUND"
  | .operationNotRetryable => some "OPERATION_NOT_RETRYABLE"
  | .contextMissing => some "RETRY_CONTEXT_MISSING"
  | .team error => error.code
  | .automationKeyUsed | .raised => none

/-- How a request is answered. -/
inductive Outcome where
  | accepted (operationId : OperationId)
  | replayed (row : Row)
  | refused (refusal : Refusal)
deriving DecidableEq

/-- The statement at which a request stands, with what it has read and made so far. -/
inductive Phase where
  | looking
  | reading
  | creating (source : Row)
  | syncing (jobId : OperationId)
  | storing (jobId : OperationId)
  | preparing
  | registering (row : Row)
  | acting
  | recording (mpTaskId : String)
  | finishing (status : String) (result : Option String) (refusal : Option Refusal)
  | ended (outcome : Outcome)
deriving DecidableEq

/-- A request with its key as it was given. -/
structure Attempt where
  request : Request
  key : Option String
  phase : Phase := .looking
deriving DecidableEq

/--
The operations, the automation runs, the presets, the requests, and the remote effects that there
have been: the request, and its key.
-/
structure System where
  rows : List Row := []
  runs : List AutomationRun := []
  presets : String → Option Preset := fun _ => none
  attempts : List Attempt := []
  effects : List (Nat × String) := []

/--
What the statement of a request meets with: it does what it should, or raises; `breaks` is a
remote effect after which something is raised.
-/
inductive Answer where
  | proceeds (result : String)
  | raises
  | breaks
deriving DecidableEq

/-- What can happen next. -/
inductive Event where
  | begin (request : Request) (key : Option String)
  | advance (i : Nat) (answer : Answer)
  | register (id : String) (kind : Kind) (status : String) (request : RequestData)
      (key : Option String)
  | startRun (id : String) (run : AutomationRun)
  | deleteRunbook (runbookId : String)
  | setStatus (operationId : OperationId) (status : String)
  | interrupt (operationId : OperationId)
  | savePreset (preset : Preset)

/-! ## The statements -/

/-- `clean_value` of the key. -/
def Attempt.cleanKey (a : Attempt) : Option String :=
  cleanText a.key

/-- `get_operation_by_idempotency_key`. -/
def System.byKey (s : System) (key : Option String) : Option Row :=
  key.bind fun k => s.rows.find? fun row => decide (row.key = some k)

/-- Another operation has the key: the unique index does not admit it. -/
def System.keyTaken (s : System) (operationId : OperationId) (key : Option String) : Bool :=
  s.rows.any fun row =>
    decide (row.operationId ≠ operationId) && key.isSome && decide (row.key = key)

/-- `RETRYABLE_OPERATION_KINDS`. -/
def retryableKinds : List Kind :=
  [.assetCardBuild, .passportDetailSync, .automationRun]

/-- `can_retry` of an operation. -/
def Row.canRetry (row : Row) : Bool :=
  decide (row.status ∉ activeOperationStatuses) && decide (row.kind ∈ retryableKinds)

/-- The checks that an endpoint makes of the operation that it has found. -/
def checkReplay (row : Row) : Request → Option Refusal
  | .delete _ _ => if row.kind ≠ .taskDelete then some .keyConflict else none
  | .retry _ => none
  | .create _ _ _ _ =>
      if row.kind ≠ .teamTaskCreate then some .keyOfOtherOperation
      else if row.status ≠ "completed" ∨ orNone row.result = none then
        some (.keyNotCompleted row.operationId)
      else none

/-- The operation that a deletion or a creation registers before it acts. -/
def newOperation (i : Nat) (key : Option String) (kind : Kind) (subjectId : String)
    (request : RequestData) : Row where
  operationId := .ofAttempt i
  kind := kind
  status := "running"
  subjectId := some subjectId
  request := request
  key := key

/-- A request has its remote effect; what has no key is not counted. -/
def System.act (s : System) (i : Nat) (a : Attempt) : System :=
  { s with effects := s.effects ++ (a.cleanKey.map fun key => (i, key)).toList }

/-- The job of a retry is created and registered, or not. -/
def System.createJob (s : System) (i : Nat) (a : Attempt) (source : Row) (answer : Answer) :
    System × Phase :=
  let created : System :=
    { s.act i a with
      rows := s.rows ++ [{ operationId := .ofAttempt i, kind := source.kind, status := "queued",
                           request := source.request }] }
  match answer with
  | .proceeds _ => (created, .syncing (.ofAttempt i))
  | .breaks => (created, .ended (.refused .raised))
  | .raises => (s, .ended (.refused .raised))

/-- The request of a retry to start a run is the one that the run was started for. -/
def AutomationRun.isRetryOf (run : AutomationRun) (runbookId : String) : Bool :=
  decide (run.runbookId = runbookId) && !run.dryRun && decide (run.triggerType = "retry") &&
    run.scheduleId.isNone && run.scheduledFor.isNone

/-- `get_run_by_idempotency_key`. -/
def System.runByKey (s : System) (key : Option String) : Option AutomationRun :=
  (orNone key).bind fun k => s.runs.find? fun run => decide (run.key = some k)

/-- Another run has the key. -/
def System.runKeyTaken (s : System) (key : Option String) : Bool :=
  s.runs.any fun run => key.isSome && decide (run.key = key)

/-- `start_run` of a retry: the run with this key, or a new one. -/
def System.startRetry (s : System) (i : Nat) (a : Attempt) (source : Row) (runbookId : String)
    (answer : Answer) : System × Phase :=
  let started : System :=
    { s.act i a with
      runs := s.runs ++
        [{ runId := .ofAttempt i, runbookId, triggerType := "retry", key := a.key }] }
  match s.runByKey a.key, answer with
  | some run, .proceeds _ =>
      if run.isRetryOf runbookId then (s, .syncing run.runId)
      else (s, .ended (.refused .automationKeyUsed))
  | none, .proceeds _ =>
      if s.runKeyTaken a.key then (s, .ended (.refused .raised))
      else
        ({ started with
            rows := s.rows ++
              [{ operationId := .ofAttempt i, kind := source.kind, status := "queued",
                 subjectId := some runbookId }] },
          .syncing (.ofAttempt i))
  | none, .breaks =>
      -- the run is there, and its operation has not been registered
      if s.runKeyTaken a.key then (s, .ended (.refused .raised))
      else (started, .ended (.refused .raised))
  | _, _ => (s, .ended (.refused .raised))

/-- `set_operation_retry`. -/
def setOperationRetry (retryOf jobId : OperationId) (key : Option String) (row : Row) : Row :=
  if row.operationId = jobId then
    { row with retryOf := some retryOf, key := coalesce key row.key }
  else row

/-- The registration that ends a deletion or a creation. -/
def finishOperation (operationId : OperationId) (status : String) (result : Option String)
    (row : Row) : Row :=
  if row.operationId = operationId then { row with status, result := coalesce result row.result }
  else row

section Steps

variable (normalizeScanTargets : List String → Except String (List String))

/-- The checks that a creation makes before it registers its operation. -/
def System.prepare (s : System) (presetId : String) (assetGroupIds targets : List String)
    (roleIds : Option (List Int)) : Except TeamError (List String) :=
  match activePreset presetId roleIds (s.presets presetId) with
  | .error e => .error e
  | .ok preset =>
      match selection normalizeScanTargets assetGroupIds targets with
      | .error e => .error e
      | .ok selected =>
          match payloadCheck preset with
          | .error e => .error e
          | .ok _ => .ok selected

/-- An exception that is not one of the endpoint's own ends the request. -/
def raised : Phase :=
  .ended (.refused .raised)

/-- The lookup of the key: the request is answered with what is found, or sets to work. -/
def System.lookUp (s : System) (i : Nat) (a : Attempt) : Phase :=
  match s.byKey a.cleanKey with
  | some row =>
      match checkReplay row a.request with
      | some refusal => .ended (.refused refusal)
      | none => .ended (.replayed row)
  | none =>
      match a.request with
      | .delete taskId mode =>
          .registering (newOperation i a.cleanKey .taskDelete taskId (.deletion mode))
      | .retry _ => .reading
      | .create _ _ _ _ => .preparing

/-- A retry reads the operation that it is to repeat. -/
def System.read (s : System) : Request → Phase
  | .retry operationId =>
      match s.rows.find? fun row => decide (row.operationId = operationId) with
      | none => .ended (.refused .operationNotFound)
      | some row =>
          if row.canRetry then .creating row else .ended (.refused .operationNotRetryable)
  | _ => raised

/-- A retry creates its job. -/
def System.create (s : System) (i : Nat) (a : Attempt) (source : Row) (answer : Answer) :
    System × Phase :=
  match source.kind with
  | .assetCardBuild => s.createJob i a source answer
  | .passportDetailSync =>
      match source.request with
      | .query (some pdql) =>
          if pdql = "" then (s, .ended (.refused .contextMissing))
          else s.createJob i a source answer
      | _ => (s, .ended (.refused .contextMissing))
  | .automationRun =>
      match s.runs.find? fun run => decide (run.runId = source.operationId) with
      | none => (s, .ended (.refused .contextMissing))
      | some run => s.startRetry i a source run.runbookId answer
  | _ => (s, .ended (.refused .operationNotRetryable))

/-- A retry stores what it has retried with its job, and the key. -/
def System.store (s : System) (a : Attempt) (jobId : OperationId) : System × Phase :=
  match a.request with
  | .retry operationId =>
      if (s.rows.any fun row => decide (row.operationId = jobId)) &&
          s.keyTaken jobId a.cleanKey then
        (s, raised)
      else
        ({ s with rows := s.rows.map (setOperationRetry operationId jobId a.cleanKey) },
          .ended (.accepted jobId))
  | _ => (s, raised)

/-- A creation checks what it has been asked for. -/
def System.check (s : System) (i : Nat) (a : Attempt) : Phase :=
  match a.request with
  | .create presetId assetGroupIds targets roleIds =>
      match s.prepare normalizeScanTargets presetId assetGroupIds targets roleIds with
      | .error error => .ended (.refused (.team error))
      | .ok selected =>
          .registering (newOperation i a.cleanKey .teamTaskCreate presetId
            (.selection presetId selected))
  | _ => raised

/-- A deletion or a creation does what it has been asked for. -/
def System.perform (s : System) (i : Nat) (a : Attempt) : Answer → System × Phase
  | .proceeds result =>
      match a.request with
      | .delete _ _ => (s.act i a, .finishing "completed" (some result) none)
      | _ => (s.act i a, .recording result)
  | .breaks => (s.act i a, .finishing "failed" none (some .raised))
  | .raises => (s, .finishing "failed" none (some .raised))

/-- A deletion or a creation registers how it has ended, and is answered. -/
def System.finish (s : System) (i : Nat) (status : String) (result : Option String)
    (refusal : Option Refusal) (answer : Answer) : System × Phase :=
  let finished : System :=
    { s with rows := s.rows.map (finishOperation (.ofAttempt i) status result) }
  match answer, refusal with
  | .raises, _ => (s, raised)
  | .proceeds _, none => (finished, .ended (.accepted (.ofAttempt i)))
  -- the task that has been created cannot be read
  | .breaks, none => (finished, raised)
  | _, some refusal => (finished, .ended (.refused refusal))

/-- The next statement of the request with a number, and where it stands then. -/
def System.next (s : System) (i : Nat) (a : Attempt) (answer : Answer) : System × Phase :=
  let goesOn (phase : Phase) : Phase :=
    match answer with
    | .proceeds _ => phase
    | _ => raised
  match a.phase with
  | .looking => (s, goesOn (s.lookUp i a))
  | .reading => (s, goesOn (s.read a.request))
  | .creating source => s.create i a source answer
  | .syncing jobId => (s, goesOn (.storing jobId))
  | .storing jobId =>
      match answer with
      | .proceeds _ => s.store a jobId
      | _ => (s, raised)
  | .preparing => (s, goesOn (s.check normalizeScanTargets i a))
  | .registering row =>
      match answer with
      | .proceeds _ =>
          if s.keyTaken row.operationId row.key then (s, raised)
          else ({ s with rows := s.rows ++ [row] }, .acting)
      | _ => (s, raised)
  | .acting => s.perform i a answer
  | .recording mpTaskId =>
      match answer with
      | .proceeds _ => (s, .finishing "completed" (some mpTaskId) none)
      | _ => (s, .finishing "needs_attention" none (some (.team (.notPersisted mpTaskId))))
  | .finishing status result refusal => s.finish i status result refusal answer
  | .ended outcome => (s, .ended outcome)

/-- The request with a number stands at another statement. -/
def System.moveTo (s : System) (i : Nat) (a : Attempt) : System :=
  { s with attempts := s.attempts.set i a }

/-- One step of the system. -/
def step (s : System) : Event → System
  | .begin request key => { s with attempts := s.attempts ++ [{ request, key }] }
  | .advance i answer =>
      match s.attempts[i]? with
      | none => s
      | some a =>
          let next := s.next normalizeScanTargets i a answer
          next.1.moveTo i { a with phase := next.2 }
  | .register id kind status request key =>
      -- the two kinds are registered by their own endpoints
      if kind = .taskDelete ∨ kind = .teamTaskCreate ∨
          (s.rows.any fun row => decide (row.operationId = .given id)) ∨
          s.keyTaken (.given id) (cleanText key) then s
      else
        { s with
          rows := s.rows ++
            [{ operationId := .given id, kind, status, request, key := cleanText key }] }
  | .startRun id run =>
      -- only the retry of an operation starts a retry with a key
      if run.triggerType = "retry" ∧ run.key.isSome ∨
          (s.runs.any fun other => decide (other.runId = .given id)) ∨ s.runKeyTaken run.key then s
      else { s with runs := s.runs ++ [{ run with runId := .given id }] }
  | .deleteRunbook runbookId =>
      { s with runs := s.runs.filter fun run => decide (run.runbookId ≠ runbookId) }
  | .setStatus operationId status =>
      { s with
        rows := s.rows.map fun row =>
          if row.operationId = operationId ∧ row.kind ≠ .taskDelete ∧
              row.kind ≠ .teamTaskCreate then
            { row with status }
          else row }
  | .interrupt operationId =>
      { s with
        rows := s.rows.map fun row =>
          if row.operationId = operationId ∧ row.status ∈ activeOperationStatuses then
            { row with status := "interrupted" }
          else row }
  | .savePreset preset =>
      { s with presets := Function.update s.presets preset.presetId (some preset) }

/-! ## The laws -/

/-- No key has had two remote effects. -/
def AtMostOnce (s : System) : Prop :=
  (s.effects.map Prod.snd).Nodup

/-- The operation is the one of this request: the task and the mode, the selection, or the retry. -/
def Describes (row : Row) : Request → Prop
  | .delete taskId mode =>
      row.kind = .taskDelete ∧ row.subjectId = some taskId ∧ row.request = .deletion mode
  | .retry operationId => row.retryOf = some operationId
  | .create presetId assetGroupIds targets _ =>
      row.kind = .teamTaskCreate ∧ row.subjectId = some presetId ∧ ∃ selected,
        selection normalizeScanTargets assetGroupIds targets = .ok selected ∧
          row.request = .selection presetId selected

/-- The request is a retry. -/
def Request.isRetry : Request → Bool
  | .retry _ => true
  | _ => false

/-- The operation is the one of this request, and has succeeded: the job of a retry is there. -/
def Records (row : Row) (request : Request) : Prop :=
  Describes normalizeScanTargets row request ∧
    (request.isRetry = true ∨ row.status = "completed")

/-- A replay answers with a record of the same request, which has succeeded. -/
def Honest (s : System) : Prop :=
  ∀ a ∈ s.attempts, ∀ row, a.phase = .ended (.replayed row) →
    Records normalizeScanTargets row a.request

/-- The request has been accepted. -/
def Attempt.accepted (a : Attempt) : Bool :=
  match a.phase with
  | .ended (.accepted _) => true
  | _ => false

/-- No two requests with one key have been accepted. -/
def Exclusive (s : System) : Prop :=
  ∀ (i j : Nat) (a b : Attempt) (key : String), s.attempts[i]? = some a → s.attempts[j]? = some b →
    a.cleanKey = some key → b.cleanKey = some key → a.accepted = true → b.accepted = true → i = j

/-! ## The condition -/

/-- The two requests are the same: the task and the mode, the operation, or the selection. -/
def Same : Request → Request → Prop
  | .delete taskId mode, .delete taskId' mode' => taskId = taskId' ∧ mode = mode'
  | .retry operationId, .retry operationId' => operationId = operationId'
  | .create presetId assetGroupIds targets _, .create presetId' assetGroupIds' targets' _ =>
      presetId = presetId' ∧ selection normalizeScanTargets assetGroupIds targets =
        selection normalizeScanTargets assetGroupIds' targets'
  | _, _ => False

instance (request request' : Request) :
    Decidable (Same normalizeScanTargets request request') :=
  match request, request' with
  | .delete taskId mode, .delete taskId' mode' =>
      inferInstanceAs (Decidable (taskId = taskId' ∧ mode = mode'))
  | .retry operationId, .retry operationId' =>
      inferInstanceAs (Decidable (operationId = operationId'))
  | .create presetId assetGroupIds targets _, .create presetId' assetGroupIds' targets' _ =>
      inferInstanceAs (Decidable (presetId = presetId' ∧
        selection normalizeScanTargets assetGroupIds targets =
          selection normalizeScanTargets assetGroupIds' targets'))
  | .delete _ _, .retry _ | .delete _ _, .create _ _ _ _ | .retry _, .delete _ _
  | .retry _, .create _ _ _ _ | .create _ _ _ _, .delete _ _ | .create _ _ _ _, .retry _ =>
      inferInstanceAs (Decidable False)

/-- The request has not found its key, and has not been answered yet. -/
def Phase.isOpen : Phase → Bool
  | .looking | .ended _ => false
  | _ => true

/-- The request with this number is at work, has been accepted, or has had its effect. -/
def System.engaged (s : System) (i : Nat) (a : Attempt) : Bool :=
  a.phase.isOpen || a.accepted || s.effects.any fun effect => decide (effect.1 = i)

/--
A key is looked up as the endpoints rely on.  An operation that is found, and not rejected, is the
one of an earlier request that was the same and has been accepted.  When none is found, no other
request with the key is at work or has had its effect, or neither is a retry.
-/
def Reusable (s : System) (request : Request) (key : String) : Prop :=
  (∀ row ∈ s.byKey (some key), (checkReplay row request).isSome = true ∨
    ∃ b ∈ s.attempts, b.cleanKey = some key ∧ b.accepted = true ∧
      Same normalizeScanTargets b.request request) ∧
  (s.byKey (some key) = none → ∀ j < s.attempts.length, ∀ b ∈ s.attempts[j]?,
    b.cleanKey = some key → s.engaged j b = true →
      b.request.isRetry = false ∧ request.isRetry = false)

instance (s : System) (request : Request) (key : String) :
    Decidable (Reusable normalizeScanTargets s request key) :=
  inferInstanceAs (Decidable (_ ∧ _))

/-- A request that looks its key up may use it. -/
def Careful (s : System) : Event → Prop
  | .advance i _ => ∀ a ∈ s.attempts[i]?, a.phase = .looking → ∀ key ∈ a.cleanKey,
      Reusable normalizeScanTargets s a.request key
  | _ => True

instance (s : System) (e : Event) : Decidable (Careful normalizeScanTargets s e) :=
  match e with
  | .advance i _ =>
      inferInstanceAs (Decidable (∀ a ∈ s.attempts[i]?, a.phase = .looking → ∀ key ∈ a.cleanKey,
        Reusable normalizeScanTargets s a.request key))
  | .begin _ _ | .register _ _ _ _ _ | .startRun _ _ | .deleteRunbook _ | .setStatus _ _
  | .interrupt _ | .savePreset _ => inferInstanceAs (Decidable True)

/-! ## What a statement does -/

/-- The operation of a deletion or a creation has been registered, or the job of a retry created. -/
def Phase.isActed : Phase → Bool
  | .syncing _ | .storing _ | .recording _ | .finishing _ _ _ | .ended _ => true
  | _ => false

/-- The request has been answered. -/
def Phase.isEnded : Phase → Bool
  | .ended _ => true
  | _ => false

/-- The request has had the time to make an operation. -/
def Phase.isBorn (phase : Phase) : Bool :=
  phase.isActed || decide (phase = .acting)

/-- A request stands at a statement of its own kind, and registers its own operation. -/
def Suits (i : Nat) (a : Attempt) : Phase → Prop
  | .reading | .creating _ | .syncing _ | .storing _ => a.request.isRetry = true
  | .preparing | .acting | .recording _ => a.request.isRetry = false
  | .registering row => a.request.isRetry = false ∧ row.operationId = .ofAttempt i ∧
      row.key = a.cleanKey ∧ Describes normalizeScanTargets row a.request
  | .finishing status _ refusal =>
      a.request.isRetry = false ∧ (refusal = none → status = "completed")
  | .looking | .ended _ => True

/-- The job of a retry that has been created, with its operation. -/
def jobRow (i : Nat) (row : Row) : Prop :=
  row.operationId = .ofAttempt i ∧ row.key = none ∧ row.retryOf = none

/--
What the next statement of a request can do: it is refused, or has been answered; it finds an
operation and is answered with it, or finds none and sets to work; it goes on, registers its
operation, or acts; it creates a job, shares one, or stores it; or it finishes its operation.
-/
inductive Moves (s : System) (i : Nat) (a : Attempt) : System → Phase → Prop where
  | refuses (refusal : Refusal) (hphase : a.phase.isEnded = false) :
      Moves s i a s (.ended (.refused refusal))
  | stays (outcome : Outcome) (hphase : a.phase = .ended outcome) : Moves s i a s (.ended outcome)
  | replays (row : Row) (hphase : a.phase = .looking) (hrow : s.byKey a.cleanKey = some row)
      (hcheck : checkReplay row a.request = none) : Moves s i a s (.ended (.replayed row))
  | opens (phase : Phase) (hphase : a.phase = .looking) (hnone : s.byKey a.cleanKey = none)
      (hborn : phase.isBorn = false) (hsuits : Suits normalizeScanTargets i a phase) :
      Moves s i a s phase
  | goes (phase : Phase) (hopen : a.phase.isOpen = true) (hfresh : a.phase.isBorn = false)
      (hborn : phase.isBorn = false) (hsuits : Suits normalizeScanTargets i a phase) :
      Moves s i a s phase
  | syncs (jobId : OperationId) (hphase : a.phase = .syncing jobId) :
      Moves s i a s (.storing jobId)
  | registers (row : Row) (hphase : a.phase = .registering row)
      (hfree : s.keyTaken row.operationId row.key = false) :
      Moves s i a { s with rows := s.rows ++ [row] } .acting
  | acts (phase : Phase) (hphase : a.phase = .acting) (hacted : phase.isActed = true)
      (hopen : phase.isOpen = true) (hsuits : Suits normalizeScanTargets i a phase) :
      Moves s i a (s.act i a) phase
  | fails (phase : Phase) (hphase : a.phase = .acting ∨ ∃ mpTaskId, a.phase = .recording mpTaskId)
      (hopen : phase.isOpen = true) (hacted : phase.isActed = true)
      (hsuits : Suits normalizeScanTargets i a phase) : Moves s i a s phase
  | creates (source row : Row) (runs : List AutomationRun) (phase : Phase)
      (hphase : a.phase = .creating source) (hrow : jobRow i row)
      (hended : phase = .syncing (.ofAttempt i) ∨ phase = .ended (.refused .raised))
      (hruns : ∀ run ∈ runs, run.runId = .ofAttempt i ∧ run.key = a.key) :
      Moves s i a { s.act i a with rows := s.rows ++ [row], runs := s.runs ++ runs } phase
  | starts (source : Row) (run : AutomationRun) (hphase : a.phase = .creating source)
      (hrun : run.runId = .ofAttempt i ∧ run.key = a.key) :
      Moves s i a { s.act i a with runs := s.runs ++ [run] } (.ended (.refused .raised))
  | shares (source : Row) (run : AutomationRun) (key : String) (hphase : a.phase = .creating source)
      (hrun : run ∈ s.runs) (hretry : run.triggerType = "retry") (hkey : a.key = some key)
      (hsame : run.key = some key) : Moves s i a s (.syncing run.runId)
  | stores (operationId jobId : OperationId) (hphase : a.phase = .storing jobId)
      (hrequest : a.request = .retry operationId)
      (hfree : (∃ row ∈ s.rows, row.operationId = jobId) → s.keyTaken jobId a.cleanKey = false) :
      Moves s i a { s with rows := s.rows.map (setOperationRetry operationId jobId a.cleanKey) }
        (.ended (.accepted jobId))
  | finishes (status : String) (result : Option String) (refusal : Option Refusal)
      (outcome : Outcome) (hphase : a.phase = .finishing status result refusal)
      (houtcome : (outcome = .accepted (.ofAttempt i) ∧ refusal = none) ∨
        ∃ refusal, outcome = .refused refusal) :
      Moves s i a { s with rows := s.rows.map (finishOperation (.ofAttempt i) status result) }
        (.ended outcome)

variable {normalizeScanTargets}

theorem selection_of_prepare {s : System} {presetId : String} {assetGroupIds targets : List String}
    {roleIds : Option (List Int)} {selected : List String}
    (h : s.prepare normalizeScanTargets presetId assetGroupIds targets roleIds = .ok selected) :
    selection normalizeScanTargets assetGroupIds targets = .ok selected := by
  unfold System.prepare at h
  split at h
  · cases h
  · split at h
    · cases h
    · split at h
      · cases h
      · rename_i hselected _ _ _
        rw [hselected, Except.ok.inj h]

/-- What the lookup of a key does. -/
theorem moves_lookUp {s : System} {i : Nat} {a : Attempt} (hphase : a.phase = .looking) :
    Moves normalizeScanTargets s i a s (s.lookUp i a) := by
  have hnot : a.phase.isEnded = false := by rw [hphase]; rfl
  cases hrow : s.byKey a.cleanKey with
  | some row =>
      cases hcheck : checkReplay row a.request with
      | some refusal => simpa only [System.lookUp, hrow, hcheck] using .refuses _ hnot
      | none => simpa only [System.lookUp, hrow, hcheck] using .replays row hphase hrow hcheck
  | none =>
      cases hrequest : a.request with
      | delete taskId mode =>
          simp only [System.lookUp, hrow, hrequest]
          refine .opens _ hphase hrow rfl ⟨by rw [hrequest]; rfl, rfl, rfl, ?_⟩
          rw [hrequest]
          exact ⟨rfl, rfl, rfl⟩
      | retry operationId =>
          simp only [System.lookUp, hrow, hrequest]
          exact .opens _ hphase hrow rfl (congrArg Request.isRetry hrequest)
      | create presetId assetGroupIds targets roleIds =>
          simp only [System.lookUp, hrow, hrequest]
          exact .opens _ hphase hrow rfl (congrArg Request.isRetry hrequest)

theorem moves_read {s : System} {i : Nat} {a : Attempt} (hphase : a.phase = .reading) :
    Moves normalizeScanTargets s i a s (s.read a.request) := by
  have hnot : a.phase.isEnded = false := by rw [hphase]; rfl
  have hopen : a.phase.isOpen = true := by rw [hphase]; rfl
  cases hrequest : a.request with
  | delete taskId mode => exact .refuses _ hnot
  | create presetId assetGroupIds targets roleIds => exact .refuses _ hnot
  | retry operationId =>
      cases hfound : s.rows.find? fun row => decide (row.operationId = operationId) with
      | none => simpa only [System.read, hfound] using .refuses _ hnot
      | some row =>
          simp only [System.read, hfound]
          split_ifs
          · exact .goes _ hopen (by rw [hphase]; rfl) rfl (congrArg Request.isRetry hrequest)
          · exact .refuses _ hnot

/-- What the creation of a job does. -/
theorem moves_createJob {s : System} {i : Nat} {a : Attempt} {source : Row}
    (hphase : a.phase = .creating source) (answer : Answer) :
    Moves normalizeScanTargets s i a (s.createJob i a source answer).1
      (s.createJob i a source answer).2 := by
  have hnot : a.phase.isEnded = false := by rw [hphase]; rfl
  have hcreates : ∀ phase, phase = .syncing (.ofAttempt i) ∨ phase = .ended (.refused .raised) →
      Moves normalizeScanTargets s i a
        { s.act i a with
          rows := s.rows ++ [{ operationId := .ofAttempt i, kind := source.kind, status := "queued",
                               request := source.request }] } phase := by
    intro phase hended
    have hruns : (s.act i a).runs = s.runs ++ [] := (List.append_nil s.runs).symm
    dsimp only
    rw [hruns]
    exact .creates source _ [] phase hphase ⟨rfl, rfl, rfl⟩ hended nofun
  cases answer with
  | proceeds result => exact hcreates _ (.inl rfl)
  | breaks => exact hcreates _ (.inr rfl)
  | raises => exact .refuses _ hnot

theorem mem_of_runByKey {s : System} {key : Option String} {run : AutomationRun}
    (h : s.runByKey key = some run) :
    run ∈ s.runs ∧ ∃ k, key = some k ∧ run.key = some k := by
  obtain ⟨k, hk, hfind⟩ := Option.bind_eq_some_iff.1 h
  have hkey := List.find?_some hfind
  refine ⟨List.mem_of_find?_eq_some hfind, k, ?_, of_decide_eq_true hkey⟩
  cases key with
  | none => cases hk
  | some key =>
      unfold orNone nullIfEmpty at hk
      exact congrArg some (Option.some.inj (Option.filter_eq_some_iff.1 hk).1)

/-- What the start of a run does. -/
theorem moves_startRetry {s : System} {i : Nat} {a : Attempt} {source : Row} {runbookId : String}
    (hphase : a.phase = .creating source) (answer : Answer) :
    Moves normalizeScanTargets s i a (s.startRetry i a source runbookId answer).1
      (s.startRetry i a source runbookId answer).2 := by
  have hnot : a.phase.isEnded = false := by rw [hphase]; rfl
  unfold System.startRetry
  cases hrun : s.runByKey a.key with
  | some run =>
      cases answer with
      | raises => exact .refuses _ hnot
      | breaks => exact .refuses _ hnot
      | proceeds result =>
          dsimp only
          split_ifs with hsame
          · obtain ⟨hmem, key, hkey, hrunKey⟩ := mem_of_runByKey hrun
            simp only [AutomationRun.isRetryOf, Bool.and_eq_true, decide_eq_true_eq] at hsame
            exact .shares source run key hphase hmem hsame.1.1.2 hkey hrunKey
          · exact .refuses _ hnot
  | none =>
      cases answer with
      | raises => exact .refuses _ hnot
      | breaks =>
          dsimp only
          split_ifs
          · exact .refuses _ hnot
          · exact .starts source _ hphase ⟨rfl, rfl⟩
      | proceeds result =>
          dsimp only
          split_ifs
          · exact .refuses _ hnot
          · exact .creates source _ _ _ hphase ⟨rfl, rfl, rfl⟩ (.inl rfl) fun run hmem => by
              rw [List.mem_singleton.1 hmem]
              exact ⟨rfl, rfl⟩

/-- What the creation of the job of a retry does. -/
theorem moves_create {s : System} {i : Nat} {a : Attempt} {source : Row}
    (hphase : a.phase = .creating source) (answer : Answer) :
    Moves normalizeScanTargets s i a (s.create i a source answer).1
      (s.create i a source answer).2 := by
  have hnot : a.phase.isEnded = false := by rw [hphase]; rfl
  unfold System.create
  cases source.kind with
  | assetCardBuild => exact moves_createJob hphase answer
  | passportDetailSync =>
      cases source.request with
      | query pdql =>
          cases pdql with
          | none => exact .refuses _ hnot
          | some pdql =>
              dsimp only
              split_ifs
              · exact .refuses _ hnot
              · exact moves_createJob hphase answer
      | deletion | selection | other => exact .refuses _ hnot
  | automationRun =>
      cases s.runs.find? fun run => decide (run.runId = source.operationId) with
      | none => exact .refuses _ hnot
      | some run => exact moves_startRetry hphase answer
  | taskDelete | teamTaskCreate | other => exact .refuses _ hnot

theorem moves_store {s : System} {i : Nat} {a : Attempt} {jobId : OperationId}
    (hphase : a.phase = .storing jobId) :
    Moves normalizeScanTargets s i a (s.store a jobId).1 (s.store a jobId).2 := by
  have hnot : a.phase.isEnded = false := by rw [hphase]; rfl
  cases hrequest : a.request with
  | delete | create => simpa only [System.store, hrequest] using .refuses _ hnot
  | retry operationId =>
      simp only [System.store, hrequest]
      split_ifs with htaken
      · exact .refuses _ hnot
      · refine .stores operationId jobId hphase hrequest fun ⟨row, hrow, hid⟩ => ?_
        rw [Bool.and_eq_true, not_and, Bool.not_eq_true] at htaken
        exact htaken (List.any_eq_true.2 ⟨row, hrow, decide_eq_true hid⟩)

theorem moves_check {s : System} {i : Nat} {a : Attempt} (hphase : a.phase = .preparing) :
    Moves normalizeScanTargets s i a s (s.check normalizeScanTargets i a) := by
  have hnot : a.phase.isEnded = false := by rw [hphase]; rfl
  cases hrequest : a.request with
  | delete | retry => simpa only [System.check, hrequest] using .refuses _ hnot
  | create presetId assetGroupIds targets roleIds =>
      cases hprepare : s.prepare normalizeScanTargets presetId assetGroupIds targets roleIds with
      | error e => simpa only [System.check, hrequest, hprepare] using .refuses _ hnot
      | ok selected =>
          simp only [System.check, hrequest, hprepare]
          refine .goes _ (by rw [hphase]; rfl) (by rw [hphase]; rfl) rfl
            ⟨by rw [hrequest]; rfl, rfl, rfl, ?_⟩
          rw [hrequest]
          exact ⟨rfl, rfl, selected, selection_of_prepare hprepare, rfl⟩

theorem moves_perform {s : System} {i : Nat} {a : Attempt} (hphase : a.phase = .acting)
    (hretry : a.request.isRetry = false) (answer : Answer) :
    Moves normalizeScanTargets s i a (s.perform i a answer).1 (s.perform i a answer).2 := by
  cases answer with
  | raises => exact .fails _ (.inl hphase) rfl rfl ⟨hretry, nofun⟩
  | breaks => exact .acts _ hphase rfl rfl ⟨hretry, nofun⟩
  | proceeds result =>
      cases hrequest : a.request with
      | delete taskId mode =>
          simp only [System.perform, hrequest]
          exact .acts _ hphase rfl rfl ⟨hretry, fun _ => rfl⟩
      | retry operationId =>
          rw [hrequest] at hretry
          cases hretry
      | create presetId assetGroupIds targets roleIds =>
          simp only [System.perform, hrequest]
          exact .acts _ hphase rfl rfl hretry

theorem moves_finish {s : System} {i : Nat} {a : Attempt} {status : String}
    {result : Option String} {refusal : Option Refusal}
    (hphase : a.phase = .finishing status result refusal) (answer : Answer) :
    Moves normalizeScanTargets s i a (s.finish i status result refusal answer).1
      (s.finish i status result refusal answer).2 := by
  have hnot : a.phase.isEnded = false := by rw [hphase]; rfl
  cases answer with
  | raises => cases refusal <;> exact .refuses _ hnot
  | proceeds result' =>
      cases refusal with
      | none => exact .finishes status result none _ hphase (.inl ⟨rfl, rfl⟩)
      | some refusal => exact .finishes status result (some refusal) _ hphase (.inr ⟨refusal, rfl⟩)
  | breaks =>
      cases refusal with
      | none => exact .finishes status result none _ hphase (.inr ⟨.raised, rfl⟩)
      | some refusal => exact .finishes status result (some refusal) _ hphase (.inr ⟨refusal, rfl⟩)

/-- What the next statement of a request does. -/
theorem next_moves {s : System} {i : Nat} {a : Attempt}
    (hsuits : Suits normalizeScanTargets i a a.phase) (answer : Answer) :
    Moves normalizeScanTargets s i a (s.next normalizeScanTargets i a answer).1
      (s.next normalizeScanTargets i a answer).2 := by
  cases hphase : a.phase with
  | looking =>
      cases answer with
      | proceeds result => simpa only [System.next, hphase] using moves_lookUp hphase
      | raises | breaks => simpa only [System.next, hphase] using .refuses _ (by rw [hphase]; rfl)
  | reading =>
      cases answer with
      | proceeds result => simpa only [System.next, hphase] using moves_read hphase
      | raises | breaks => simpa only [System.next, hphase] using .refuses _ (by rw [hphase]; rfl)
  | creating source => simpa only [System.next, hphase] using moves_create hphase answer
  | syncing jobId =>
      cases answer with
      | proceeds result => simpa only [System.next, hphase] using .syncs jobId hphase
      | raises | breaks => simpa only [System.next, hphase] using .refuses _ (by rw [hphase]; rfl)
  | storing jobId =>
      cases answer with
      | proceeds result => simpa only [System.next, hphase] using moves_store hphase
      | raises | breaks => simpa only [System.next, hphase] using .refuses _ (by rw [hphase]; rfl)
  | preparing =>
      cases answer with
      | proceeds result => simpa only [System.next, hphase] using moves_check hphase
      | raises | breaks => simpa only [System.next, hphase] using .refuses _ (by rw [hphase]; rfl)
  | registering row =>
      cases answer with
      | proceeds result =>
          simp only [System.next, hphase]
          split_ifs with htaken
          · exact .refuses _ (by rw [hphase]; rfl)
          · exact .registers row hphase (Bool.eq_false_iff.2 htaken)
      | raises | breaks => simpa only [System.next, hphase] using .refuses _ (by rw [hphase]; rfl)
  | acting =>
      rw [hphase] at hsuits
      simpa only [System.next, hphase] using moves_perform hphase hsuits answer
  | recording mpTaskId =>
      rw [hphase] at hsuits
      cases answer with
      | proceeds result =>
          simpa only [System.next, hphase] using
            .fails _ (.inr ⟨mpTaskId, hphase⟩) rfl rfl ⟨hsuits, fun _ => rfl⟩
      | raises | breaks =>
          simpa only [System.next, hphase] using
            .fails _ (.inr ⟨mpTaskId, hphase⟩) rfl rfl ⟨hsuits, nofun⟩
  | finishing status result refusal =>
      simpa only [System.next, hphase] using moves_finish hphase answer
  | ended outcome => simpa only [System.next, hphase] using .stays outcome hphase

end Steps

end Idempotency
end Operations
end MpvmApp
