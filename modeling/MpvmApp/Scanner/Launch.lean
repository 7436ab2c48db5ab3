import MpvmApp.Lib.Runs
import MpvmApp.Sql.Text

/-!
# Start requests of scanner tasks

A start request looks its idempotency key up, prepares the remote task, claims the key
by the insertion of a run and an operation, and then starts the task in the remote
system.  Every handler can stop between two of these steps, and the process can die.

Main definitions:

- `startStep`: one step of a handler, or of anybody else.
- `startAnswer`: the answer that a step gives to its request.
- `KeyAnswered`: a used key is answered with what it was used for.

Main results:

- Theorem `StartInv.step`: a run posts only while it holds its key, and once.
- Theorem `start_requests_iff`: when the requests of a run are answered by their keys.
-/

namespace MpvmApp
namespace Scanner

open Sql Runs

variable {ω : Type}

/-! ## Requests and rows -/

/-- `SCAN_POSTPROCESS_ACTIVE_STATUSES`. -/
def scanPostprocessActiveStatuses : List String :=
  ["monitoring", "resolving", "processing", "waiting", "cancelling"]

/-- The task and the start options that a request names. -/
structure StartAsk (ω : Type) where
  taskId : String
  options : ω
deriving DecidableEq

/--
A row of `operations`, with the status and the stage of its run.  The request is
stored with the run of a scanner task that a start request has created.
-/
structure StartRecord (ω : Type) where
  operationId : String
  key : Option String
  /-- The kind is `scan_postprocess`. -/
  scan : Bool
  ask : Option (StartAsk ω)
  status : String
  stage : String
deriving DecidableEq

/-- How the remote system answers the start of a task. -/
inductive Reply where
  | started
  /-- The text of the error says that the task is not found. -/
  | notFound
  /-- An error, or no answer at all. -/
  | failed
deriving DecidableEq, Repr

/-- A remote start that has been sent. -/
structure Post where
  runId : String
  key : Option String
  reply : Reply
deriving DecidableEq, Repr

/-- The remote system has started the task, or may have done so. -/
def Post.mayStart (p : Post) : Bool :=
  decide (p.reply ≠ .notFound)

/-- The handler of a request under its run id. -/
structure InFlight (ω : Type) where
  ask : StartAsk ω
  key : Option String
  claimed : Bool := false

/-- The rows, the handlers by their run ids, and the remote starts, the newest first. -/
structure StartState (ω : Type) where
  records : List (StartRecord ω) := []
  requests : String → Option (InFlight ω) := fun _ => none
  posts : List Post := []

/-- What a client gets. -/
inductive StartAnswer (ω : Type) where
  /-- `idempotent_replay`: the status `started` with the run of a row. -/
  | replayed (record : StartRecord ω)
  | started (runId : String)
  /-- `validation_failed` or `precheck_failed`. -/
  | notStarted
  | raised

/-- What happens in the deployment. -/
inductive StartEvent (ω : Type) where
  /-- A request arrives, and its key is looked up. -/
  | arrive (runId : String) (ask : StartAsk ω) (key : Option String)
  /-- The session, the configuration, the validation or the precheck of a request fails. -/
  | stop (runId : String) (raises : Bool)
  /-- `create_scan_postprocess_run`. -/
  | claim (runId : String)
  /-- The preparation of the group fails; its failure is recorded, or that fails as well. -/
  | prepareFails (runId : String) (saved : Bool)
  /-- The task is started; the time for further tries may be up. -/
  | post (runId : String) (reply : Reply) (expired saved scheduled : Bool)
  /-- A process dies with its handlers. -/
  | crash (lost : List String)
  /-- Another handler records an operation, the refresh of an asset card for instance. -/
  | register (operationId : String) (key : Option String) (scan : Bool) (status stage : String)
  /-- The postprocessing of a run goes on. -/
  | setStatus (operationId status stage : String)

/-! ## Steps -/

namespace StartState

/-- `get_operation_by_idempotency_key`. -/
def byKey? (s : StartState ω) (key : Option String) : Option (StartRecord ω) :=
  key.bind fun text => s.records.find? fun r => decide (r.key = some text)

/-- The id is that of a row or of a handler. -/
def usedId (s : StartState ω) (id : String) : Bool :=
  s.records.any (fun r => decide (r.operationId = id)) || (s.requests id).isSome

/-- The handler of a request goes on, or ends. -/
def setRequest (s : StartState ω) (runId : String) (q : Option (InFlight ω)) : StartState ω :=
  { s with requests := fun id => if id = runId then q else s.requests id }

/-- `finish_provisional_scan_start_failure`, unless it fails itself. -/
def finishStartFailure (s : StartState ω) (runId : String) (saved : Bool) : StartState ω :=
  { s with
    records := s.records.map fun r =>
      if r.operationId = runId ∧ r.status ∈ scanPostprocessActiveStatuses ∧ saved then
        { r with
          status := "failed"
          stage := "scanner_start_failed" }
      else r }

/-- A request that has claimed its key fails. -/
def failStart (s : StartState ω) (runId : String) (saved : Bool) : StartState ω :=
  (s.finishStartFailure runId saved).setRequest runId none

end StartState

/-- The row that claims the key of a request. -/
def InFlight.record (q : InFlight ω) (runId : String) : StartRecord ω where
  operationId := runId
  key := q.key
  scan := true
  ask := some q.ask
  status := "monitoring"
  stage := "waiting_for_run"

/-- The run that the key of a request replays. -/
def replay? (s : StartState ω) (key : Option String) : Option (StartRecord ω) :=
  (s.byKey? (cleanText key)).filter StartRecord.scan

/-- The handler of a request that has claimed its key, or has not. -/
def handler? (s : StartState ω) (runId : String) (claimed : Bool) : Option (InFlight ω) :=
  (s.requests runId).filter fun q => decide (q.claimed = claimed)

/-- One step of the deployment. -/
def startStep (s : StartState ω) : StartEvent ω → StartState ω
  | .arrive runId ask key =>
      if s.usedId runId || (replay? s key).isSome then s
      else s.setRequest runId (some { ask := ask, key := cleanText key })
  | .stop runId _ =>
      match handler? s runId false with
      | none => s
      | some _ => s.setRequest runId none
  | .claim runId =>
      match handler? s runId false with
      | none => s
      | some q =>
          if (s.byKey? q.key).isSome then s.setRequest runId none
          else
            { s.setRequest runId (some { q with claimed := true }) with
              records := q.record runId :: s.records }
  | .prepareFails runId saved =>
      match handler? s runId true with
      | none => s
      | some _ => s.failStart runId saved
  | .post runId reply expired saved _ =>
      match handler? s runId true with
      | none => s
      | some q =>
          let s := { s with posts := { runId := runId, key := q.key, reply := reply } :: s.posts }
          match reply with
          | .started => s.setRequest runId none
          | .notFound => if expired then s.failStart runId saved else s
          | .failed => s.failStart runId saved
  | .crash lost => { s with requests := fun id => if id ∈ lost then none else s.requests id }
  | .register operationId key scan status stage =>
      if s.usedId operationId || (s.byKey? (cleanText key)).isSome then s
      else
        { s with
          records :=
            { operationId := operationId
              key := cleanText key
              scan := scan
              ask := none
              status := status
              stage := stage } :: s.records }
  | .setStatus operationId status stage =>
      { s with
        records := s.records.map fun r =>
          if r.operationId = operationId then { r with status := status, stage := stage } else r }

/-- The answer that a step gives to its request, if it ends it. -/
def startAnswer (s : StartState ω) : StartEvent ω → Option (StartAnswer ω)
  | .arrive _ _ key => (replay? s key).map .replayed
  | .stop runId raises =>
      (handler? s runId false).map fun _ => if raises then .raised else .notStarted
  | .claim runId =>
      (handler? s runId false).bind fun q =>
        if (s.byKey? q.key).isSome then some .raised else none
  | .prepareFails runId _ => (handler? s runId true).map fun _ => .raised
  | .post runId reply expired _ scheduled =>
      (handler? s runId true).bind fun _ =>
        match reply with
        | .started => some (if scheduled then .started runId else .raised)
        | .notFound => if expired then some .raised else none
        | .failed => some .raised
  | _ => none

/-- Nothing has been requested. -/
def noStarts : StartState ω where

/-! ## Remote starts -/

/-- The rows have their own ids and keys, and the posts are those of the runs in the rows. -/
structure StartInv (s : StartState ω) : Prop where
  ids : (s.records.map StartRecord.operationId).Nodup
  keys : ∀ r ∈ s.records, ∀ r' ∈ s.records, ∀ key,
    r.key = some key → r'.key = some key → r = r'
  fresh : ∀ runId q, s.requests runId = some q → q.claimed = false →
    ∀ r ∈ s.records, r.operationId ≠ runId
  claimed : ∀ runId q, s.requests runId = some q → q.claimed = true →
    ∃ r ∈ s.records, r.operationId = runId ∧ r.key = q.key
  posts : ∀ p ∈ s.posts, ∃ r ∈ s.records, r.operationId = p.runId ∧ r.key = p.key
  /-- A handler that has still to start its task has only been told that it is not found. -/
  pending : ∀ runId q, s.requests runId = some q →
    ∀ p ∈ s.posts, p.runId = runId → p.mayStart = false
  once : ((s.posts.filter Post.mayStart).map Post.runId).Nodup

/-- The remote starts of a key that may have started a task. -/
def StartState.issued (s : StartState ω) (key : String) : List Post :=
  s.posts.filter fun p => p.mayStart && decide (p.key = some key)

section Invariant

variable {s : StartState ω}

/-- A key has at most one remote start that may have started a task. -/
theorem StartInv.length_issued_le (h : StartInv s) (key : String) :
    (s.issued key).length ≤ 1 := by
  have hsub : ((s.issued key).map Post.runId).Nodup := by
    refine h.once.sublist (List.Sublist.map Post.runId ?_)
    unfold StartState.issued
    rw [← List.filter_filter]
    exact List.Sublist.filter _ List.filter_sublist
  have hrow : ∀ p ∈ s.issued key, ∃ r ∈ s.records, r.operationId = p.runId ∧
      r.key = some key := by
    intro p hp
    simp only [StartState.issued, List.mem_filter, Bool.and_eq_true, decide_eq_true_eq] at hp
    obtain ⟨r, hr, hid, hkey⟩ := h.posts p hp.1
    exact ⟨r, hr, hid, hkey.trans hp.2.2⟩
  match hissued : s.issued key with
  | [] => simp
  | [p] => simp
  | p :: p' :: ps =>
      exfalso
      rw [hissued] at hsub hrow
      obtain ⟨r, hr, hid, hkey⟩ := hrow p (by simp)
      obtain ⟨r', hr', hid', hkey'⟩ := hrow p' (by simp)
      have hsame := h.keys r hr r' hr' key hkey hkey'
      rw [List.map_cons, List.map_cons, List.nodup_cons] at hsub
      apply hsub.1
      rw [← hid, hsame, hid']
      exact List.mem_cons_self

theorem byKey?_eq_none_iff {key : Option String} :
    s.byKey? key = none ↔ ∀ text, key = some text → ∀ r ∈ s.records, r.key ≠ some text := by
  cases key <;> simp [StartState.byKey?, List.find?_eq_none]

theorem usedId_eq_false_iff {id : String} :
    s.usedId id = false ↔ (∀ r ∈ s.records, r.operationId ≠ id) ∧ s.requests id = none := by
  simp [StartState.usedId]

theorem handler?_eq_some {runId : String} {claimed : Bool} {q : InFlight ω}
    (h : handler? s runId claimed = some q) :
    s.requests runId = some q ∧ q.claimed = claimed := by
  simpa [handler?, Option.filter_eq_some_iff] using h

/-- The updates of rows in place. -/
theorem StartInv.mapRecords (h : StartInv s) {f : StartRecord ω → StartRecord ω}
    (hf : ∀ r, (f r).operationId = r.operationId ∧ (f r).key = r.key) :
    StartInv { s with records := s.records.map f } := by
  have hmem : ∀ {runId : String} {key : Option String},
      (∃ r ∈ s.records, r.operationId = runId ∧ r.key = key) →
      ∃ r ∈ s.records.map f, r.operationId = runId ∧ r.key = key := by
    rintro runId key ⟨r, hr, rfl, rfl⟩
    exact ⟨f r, List.mem_map_of_mem hr, hf r⟩
  refine
    { ids := ?_
      keys := ?_
      fresh := ?_
      claimed := fun runId q hq hclaimed => hmem (h.claimed runId q hq hclaimed)
      posts := fun p hp => hmem (h.posts p hp)
      pending := h.pending
      once := h.once }
  · have hids : (s.records.map f).map StartRecord.operationId =
        s.records.map StartRecord.operationId := by
      rw [List.map_map]
      exact List.map_congr_left fun r _ => (hf r).1
    rw [hids]
    exact h.ids
  · intro r hr r' hr' key hkey hkey'
    obtain ⟨a, ha, rfl⟩ := List.mem_map.1 hr
    obtain ⟨b, hb, rfl⟩ := List.mem_map.1 hr'
    rw [h.keys a ha b hb key ((hf a).2 ▸ hkey) ((hf b).2 ▸ hkey')]
  · intro runId q hq hclaimed r hr
    obtain ⟨a, ha, rfl⟩ := List.mem_map.1 hr
    rw [(hf a).1]
    exact h.fresh runId q hq hclaimed a ha

theorem StartInv.ofFewer (h : StartInv s) {requests : String → Option (InFlight ω)}
    (hfewer : ∀ id q, requests id = some q → s.requests id = some q) :
    StartInv { s with requests := requests } where
  ids := h.ids
  keys := h.keys
  fresh := fun runId q hq => h.fresh runId q (hfewer runId q hq)
  claimed := fun runId q hq => h.claimed runId q (hfewer runId q hq)
  posts := h.posts
  pending := fun runId q hq => h.pending runId q (hfewer runId q hq)
  once := h.once

theorem StartInv.end (h : StartInv s) (runId : String) :
    StartInv (s.setRequest runId none) := by
  refine h.ofFewer fun id q hq => ?_
  split at hq
  · cases hq
  · exact hq

theorem StartInv.finishStartFailure (h : StartInv s) (runId : String) (saved : Bool) :
    StartInv (s.finishStartFailure runId saved) := by
  refine h.mapRecords fun r => ?_
  split <;> exact ⟨rfl, rfl⟩

theorem StartInv.failStart (h : StartInv s) (runId : String) (saved : Bool) :
    StartInv (s.failStart runId saved) :=
  (h.finishStartFailure runId saved).end runId

/-- A row is inserted under a fresh id and a key that is not used. -/
theorem StartInv.insert (h : StartInv s) {r : StartRecord ω}
    (hid : ∀ r' ∈ s.records, r'.operationId ≠ r.operationId)
    (hkey : s.byKey? r.key = none) (hrequest : s.requests r.operationId = none) :
    StartInv { s with records := r :: s.records } := by
  rw [byKey?_eq_none_iff] at hkey
  have hmem : ∀ {runId : String} {key : Option String},
      (∃ r' ∈ s.records, r'.operationId = runId ∧ r'.key = key) →
      ∃ r' ∈ r :: s.records, r'.operationId = runId ∧ r'.key = key := by
    rintro runId key ⟨r', hr', hsame⟩
    exact ⟨r', List.mem_cons_of_mem r hr', hsame⟩
  refine
    { ids := ?_
      keys := ?_
      fresh := ?_
      claimed := fun runId q hq hclaimed => hmem (h.claimed runId q hq hclaimed)
      posts := fun p hp => hmem (h.posts p hp)
      pending := h.pending
      once := h.once }
  · rw [List.map_cons, List.nodup_cons]
    refine ⟨fun hmem' => ?_, h.ids⟩
    obtain ⟨r', hr', hsame⟩ := List.mem_map.1 hmem'
    exact hid r' hr' hsame
  · intro a ha b hb key hka hkb
    rcases List.mem_cons.1 ha with rfl | hold
    · rcases List.mem_cons.1 hb with rfl | hold'
      · rfl
      · exact absurd hkb (hkey key hka b hold')
    · rcases List.mem_cons.1 hb with rfl | hold'
      · exact absurd hka (hkey key hkb a hold)
      · exact h.keys a hold b hold' key hka hkb
  · intro runId q hq hclaimed r' hr'
    rcases List.mem_cons.1 hr' with rfl | hr'
    · rintro rfl
      rw [hrequest] at hq
      cases hq
    · exact h.fresh runId q hq hclaimed r' hr'

theorem requests_setRequest_cases {runId id : String} {q q' : InFlight ω}
    (h : (s.setRequest runId (some q)).requests id = some q') :
    (id = runId ∧ q' = q) ∨ s.requests id = some q' := by
  simp only [StartState.setRequest] at h
  split at h
  · rename_i hid
    exact .inl ⟨hid, (Option.some.inj h).symm⟩
  · exact .inr h

/-- A handler is stored with the rows and the posts that its claim asks for. -/
theorem StartInv.store (h : StartInv s) {runId : String} {q : InFlight ω}
    (hfresh : q.claimed = false → ∀ r ∈ s.records, r.operationId ≠ runId)
    (hclaimed : q.claimed = true → ∃ r ∈ s.records, r.operationId = runId ∧ r.key = q.key)
    (hpending : ∀ p ∈ s.posts, p.runId = runId → p.mayStart = false) :
    StartInv (s.setRequest runId (some q)) := by
  refine
    { ids := h.ids
      keys := h.keys
      fresh := ?_
      claimed := ?_
      posts := h.posts
      pending := ?_
      once := h.once }
  · intro id q' hq' hunclaimed
    rcases requests_setRequest_cases hq' with ⟨rfl, rfl⟩ | hold
    · exact hfresh hunclaimed
    · exact h.fresh id q' hold hunclaimed
  · intro id q' hq' hclaimed'
    rcases requests_setRequest_cases hq' with ⟨rfl, rfl⟩ | hold
    · exact hclaimed hclaimed'
    · exact h.claimed id q' hold hclaimed'
  · intro id q' hq' p hp hid
    rcases requests_setRequest_cases hq' with ⟨rfl, rfl⟩ | hold
    · exact hpending p hp hid
    · exact h.pending id q' hold p hp hid

theorem StartInv.begin (h : StartInv s) {runId : String} {q : InFlight ω}
    (hfresh : ∀ r ∈ s.records, r.operationId ≠ runId) (hq : q.claimed = false) :
    StartInv (s.setRequest runId (some q)) := by
  apply h.store
  · intro _
    exact hfresh
  · intro hclaimed
    rw [hq] at hclaimed
    cases hclaimed
  · intro p hp hid
    obtain ⟨r, hr, hpost, _⟩ := h.posts p hp
    exact absurd (hpost.trans hid) (hfresh r hr)

theorem StartInv.goOn (h : StartInv s) {runId : String} {q : InFlight ω}
    (hclaimed : ∃ r ∈ s.records, r.operationId = runId ∧ r.key = q.key)
    (hq : q.claimed = true)
    (hpending : ∀ p ∈ s.posts, p.runId = runId → p.mayStart = false) :
    StartInv (s.setRequest runId (some q)) := by
  apply h.store
  · intro hunclaimed
    rw [hq] at hunclaimed
    cases hunclaimed
  · intro _
    exact hclaimed
  · exact hpending

/-- A start is sent by the handler that holds the key, and that ends if it may succeed. -/
theorem StartInv.send (h : StartInv s) {runId : String} {q : InFlight ω}
    (hq : s.requests runId = some q) (hclaimed : q.claimed = true) (reply : Reply) :
    StartInv
      { s.setRequest runId none with
        posts := { runId := runId, key := q.key, reply := reply } :: s.posts } := by
  have hended := h.end runId
  refine
    { ids := h.ids
      keys := h.keys
      fresh := hended.fresh
      claimed := hended.claimed
      posts := ?_
      pending := ?_
      once := ?_ }
  · intro p hp
    rcases List.mem_cons.1 hp with rfl | hp
    · exact h.claimed runId q hq hclaimed
    · exact h.posts p hp
  · intro id q' hq' p hp hid
    rcases List.mem_cons.1 hp with rfl | hp
    · simp only [StartState.setRequest, ← hid, if_true] at hq'
      cases hq'
    · exact hended.pending id q' hq' p hp hid
  · rw [List.filter_cons]
    split
    · rw [List.map_cons, List.nodup_cons]
      refine ⟨fun hmem => ?_, h.once⟩
      obtain ⟨p, hp, hid⟩ := List.mem_map.1 hmem
      rw [List.mem_filter] at hp
      rw [h.pending runId q hq p hp.1 hid] at hp
      cases hp.2
    · exact h.once

@[simp]
theorem setRequest_setRequest (s : StartState ω) (runId : String) (q q' : Option (InFlight ω)) :
    (s.setRequest runId q).setRequest runId q' = s.setRequest runId q' := by
  unfold StartState.setRequest
  congr 1
  funext id
  by_cases hid : id = runId <;> simp [hid]

/-- The claim of a key inserts the row of the run. -/
theorem StartInv.claim (h : StartInv s) {runId : String} {q : InFlight ω}
    (hq : handler? s runId false = some q) (hfree : s.byKey? q.key = none) :
    StartInv
      { s.setRequest runId (some { q with claimed := true }) with
        records := q.record runId :: s.records } := by
  obtain ⟨hrequest, hclaimed⟩ := handler?_eq_some hq
  have hfresh := h.fresh runId q hrequest hclaimed
  have hinserted : StartInv
      { s.setRequest runId none with records := q.record runId :: s.records } := by
    refine (h.end runId).insert hfresh hfree ?_
    simp [StartState.setRequest, InFlight.record]
  have hgoes := hinserted.goOn (q := { q with claimed := true })
    ⟨q.record runId, List.mem_cons_self, rfl, rfl⟩ rfl fun p hp hid => ?_
  · have hsame : StartState.setRequest
        { s.setRequest runId none with records := q.record runId :: s.records } runId
        (some { q with claimed := true }) =
        { s.setRequest runId (some { q with claimed := true }) with
          records := q.record runId :: s.records } :=
      congrArg (fun t : StartState ω => { t with records := q.record runId :: s.records })
        (setRequest_setRequest s runId none (some { q with claimed := true }))
    rw [← hsame]
    exact hgoes
  · exact h.pending runId q hrequest p hp hid

theorem setRequest_self {runId : String} {q : InFlight ω} (hq : s.requests runId = some q) :
    s.setRequest runId (some q) = s := by
  unfold StartState.setRequest
  have hsame : (fun id => if id = runId then some q else s.requests id) = s.requests := by
    funext id
    by_cases hid : id = runId
    · simp [hid, hq]
    · simp [hid]
  rw [hsame]

/-- After an answer that the task is not found the handler waits, and tries again. -/
theorem StartInv.wait (h : StartInv s) {runId : String} {q : InFlight ω}
    (hq : s.requests runId = some q) (hclaimed : q.claimed = true) :
    StartInv
      { s with posts := { runId := runId, key := q.key, reply := .notFound } :: s.posts } := by
  have hsent := h.send hq hclaimed .notFound
  have hgoes := hsent.goOn (h.claimed runId q hq hclaimed) hclaimed ?_
  · have hrestored : StartState.setRequest
        { s.setRequest runId none with
          posts := { runId := runId, key := q.key, reply := .notFound } :: s.posts }
        runId (some q) =
        { s.setRequest runId (some q) with
          posts := { runId := runId, key := q.key, reply := .notFound } :: s.posts } :=
      congrArg
        (fun t : StartState ω =>
          { t with posts := { runId := runId, key := q.key, reply := .notFound } :: s.posts })
        (setRequest_setRequest s runId none (some q))
    rw [hrestored, setRequest_self hq] at hgoes
    exact hgoes
  · intro p hp hid
    rcases List.mem_cons.1 hp with rfl | hold
    · rfl
    · exact h.pending runId q hq p hold hid

/-- A step keeps the rows apart, and starts a task only for the holder of a key, and once. -/
theorem StartInv.step (h : StartInv s) (ev : StartEvent ω) :
    StartInv (startStep s ev) := by
  cases ev with
  | arrive runId ask key =>
      simp only [startStep]
      split
      · exact h
      · rename_i hnew
        rw [Bool.or_eq_true, not_or, Bool.not_eq_true, usedId_eq_false_iff] at hnew
        exact h.begin hnew.1.1 rfl
  | stop runId raises =>
      simp only [startStep]
      split
      · exact h
      · exact h.end runId
  | claim runId =>
      simp only [startStep]
      split
      · exact h
      · rename_i q hq
        split
        · exact h.end runId
        · rename_i hfree
          exact h.claim hq (Option.not_isSome_iff_eq_none.1 hfree)
  | prepareFails runId saved =>
      simp only [startStep]
      split
      · exact h
      · exact h.failStart runId saved
  | post runId reply expired saved scheduled =>
      simp only [startStep]
      split
      · exact h
      · rename_i q hq
        obtain ⟨hrequest, hclaimed⟩ := handler?_eq_some hq
        have hsent := h.send hrequest hclaimed reply
        cases reply with
        | started => exact hsent
        | failed => exact hsent.finishStartFailure runId saved
        | notFound =>
            dsimp only
            split
            · exact hsent.finishStartFailure runId saved
            · exact h.wait hrequest hclaimed
  | crash lost =>
      refine h.ofFewer fun id q hq => ?_
      split at hq
      · cases hq
      · exact hq
  | register operationId key scan status stage =>
      simp only [startStep]
      split
      · exact h
      · rename_i hnew
        rw [Bool.or_eq_true, not_or, Bool.not_eq_true, usedId_eq_false_iff,
          Option.not_isSome_iff_eq_none] at hnew
        exact h.insert hnew.1.1 hnew.2 hnew.1.2
  | setStatus operationId status stage =>
      refine h.mapRecords fun r => ?_
      split <;> exact ⟨rfl, rfl⟩

theorem startInv_noStarts :
    StartInv (noStarts : StartState ω) where
  ids := .nil
  keys := fun r hr => by cases hr
  fresh := fun runId q hq => by cases hq
  claimed := fun runId q hq => by cases hq
  posts := fun p hp => by cases hp
  pending := fun runId q hq => by cases hq
  once := .nil

/-- The row of a key is still that of the same run and the same request. -/
def KeyKept (s s' : StartState ω) : Prop :=
  ∀ key r, s.byKey? key = some r →
    ∃ r', s'.byKey? key = some r' ∧ r'.operationId = r.operationId ∧ r'.scan = r.scan ∧
      r'.ask = r.ask

theorem KeyKept.of_records_eq {s' : StartState ω} (h : s'.records = s.records) :
    KeyKept s s' := by
  intro key r hr
  refine ⟨r, ?_, rfl, rfl, rfl⟩
  unfold StartState.byKey? at hr ⊢
  rw [h]
  exact hr

theorem KeyKept.mapRecords {s' : StartState ω} {f : StartRecord ω → StartRecord ω}
    (hf : ∀ r, (f r).operationId = r.operationId ∧ (f r).key = r.key ∧ (f r).scan = r.scan ∧
      (f r).ask = r.ask)
    (h : s'.records = s.records.map f) :
    KeyKept s s' := by
  intro key r hr
  cases key with
  | none => cases hr
  | some text =>
      refine ⟨f r, ?_, (hf r).1, (hf r).2.2⟩
      have hsame : ((fun a => decide (a.key = some text)) ∘ f) =
          fun a => decide (a.key = some text) := by
        funext a
        rw [Function.comp_apply, (hf a).2.1]
      simp only [StartState.byKey?, Option.bind_some] at hr ⊢
      rw [h, List.find?_map, hsame, hr]
      rfl

theorem KeyKept.insert {s' : StartState ω} (row : StartRecord ω) (hfree : s.byKey? row.key = none)
    (h : s'.records = row :: s.records) :
    KeyKept s s' := by
  intro key r hr
  refine ⟨r, ?_, rfl, rfl, rfl⟩
  cases key with
  | none => cases hr
  | some text =>
      have hne : row.key ≠ some text := by
        rintro heq
        rw [heq, hr] at hfree
        cases hfree
      simp only [StartState.byKey?, Option.bind_some] at hr ⊢
      rw [h, List.find?_cons_of_neg (by simpa using hne)]
      exact hr

/-- No step takes a key from the row that has used it first. -/
theorem keyKept_startStep (s : StartState ω) (ev : StartEvent ω) :
    KeyKept s (startStep s ev) := by
  have hfail : ∀ (s : StartState ω) runId saved, KeyKept s (s.failStart runId saved) := by
    intro s runId saved
    refine .mapRecords (fun r => ?_) rfl
    split <;> exact ⟨rfl, rfl, rfl, rfl⟩
  cases ev with
  | arrive runId ask key =>
      simp only [startStep]
      split <;> exact .of_records_eq rfl
  | stop runId raises =>
      simp only [startStep]
      split <;> exact .of_records_eq rfl
  | claim runId =>
      simp only [startStep]
      split
      · exact .of_records_eq rfl
      · rename_i q hq
        split
        · exact .of_records_eq rfl
        · rename_i hfree
          exact .insert (q.record runId) (Option.not_isSome_iff_eq_none.1 hfree) rfl
  | prepareFails runId saved =>
      simp only [startStep]
      split
      · exact .of_records_eq rfl
      · exact hfail s runId saved
  | post runId reply expired saved scheduled =>
      simp only [startStep]
      split
      · exact .of_records_eq rfl
      · rename_i q hq
        cases reply with
        | started => exact .of_records_eq rfl
        | failed => exact hfail { s with posts := _ } runId saved
        | notFound =>
            dsimp only
            split
            · exact hfail { s with posts := _ } runId saved
            · exact .of_records_eq rfl
  | crash lost => exact .of_records_eq rfl
  | register operationId key scan status stage =>
      simp only [startStep]
      split
      · exact .of_records_eq rfl
      · rename_i hnew
        rw [Bool.or_eq_true, not_or, Option.not_isSome_iff_eq_none] at hnew
        exact .insert ⟨operationId, cleanText key, scan, none, status, stage⟩ hnew.2 rfl
  | setStatus operationId status stage =>
      refine .mapRecords (fun r => ?_) rfl
      split <;> exact ⟨rfl, rfl, rfl, rfl⟩

theorem KeyKept.trans {s' s'' : StartState ω} (h : KeyKept s s') (h' : KeyKept s' s'') :
    KeyKept s s'' := by
  intro key r hr
  obtain ⟨r', hr', hid, hscan, hask⟩ := h key r hr
  obtain ⟨r'', hr'', hid', hscan', hask'⟩ := h' key r' hr'
  exact ⟨r'', hr'', hid'.trans hid, hscan'.trans hscan, hask'.trans hask⟩

theorem keyKept_run (s : StartState ω) (es : List (StartEvent ω)) :
    KeyKept s (run startStep s es) := by
  have hall : Along startStep (fun _ _ => True) s es := along_of_forall (fun _ _ => trivial) s es
  apply hall.relation (r := KeyKept)
  · exact fun s => .of_records_eq rfl
  · exact KeyKept.trans
  · exact fun s ev _ => keyKept_startStep s ev

end Invariant

/-! ## Answers to used keys -/

section Answers

variable [DecidableEq ω]

/-- The row was created for the request. -/
def StartRecord.asksFor (r : StartRecord ω) (ask : StartAsk ω) : Bool :=
  r.scan && decide (r.ask = some ask)

/-- The remote start of the run has failed. -/
def StartRecord.startFailed (r : StartRecord ω) : Bool :=
  decide (r.stage = "scanner_start_failed")

/-- The answer names no run. -/
def StartAnswer.refuses : StartAnswer ω → Bool
  | .replayed _ => false
  | .started _ => false
  | .notStarted => true
  | .raised => true

/--
A request for what a row was created for is told of the run as it is recorded, and not
that it is started when its start has failed; any other request is told of no run.
-/
def AnswersFor (r : StartRecord ω) (ask : StartAsk ω) (answer : Option (StartAnswer ω)) : Prop :=
  if r.asksFor ask then answer = some (.replayed r) ∧ r.startFailed = false
  else ∀ a, answer = some a → a.refuses = true

/-- A request that meets a row under its key is answered for that row. -/
def KeyAnswered (s : StartState ω) (ev : StartEvent ω) : Prop :=
  match ev with
  | .arrive _ ask key =>
      ∀ r, s.byKey? (cleanText key) = some r → AnswersFor r ask (startAnswer s ev)
  | .claim runId =>
      ∀ q, handler? s runId false = some q → ∀ r, s.byKey? q.key = some r →
        AnswersFor r q.ask (startAnswer s ev)
  | _ => True

/--
A request that arrives with a key of a run asks for that run, whose start has not failed;
and no handler meets, when it claims its key, a run that it asks for.
-/
def KeysApart (s : StartState ω) : StartEvent ω → Prop
  | .arrive _ ask key =>
      ∀ r, s.byKey? (cleanText key) = some r → r.scan = true →
        r.asksFor ask = true ∧ r.startFailed = false
  | .claim runId =>
      ∀ q, handler? s runId false = some q → ∀ r, s.byKey? q.key = some r →
        r.asksFor q.ask = false
  | _ => True

/-- A step answers its request by the key exactly when the keys are kept apart. -/
theorem keyAnswered_iff (s : StartState ω) (ev : StartEvent ω) :
    KeyAnswered s ev ↔ KeysApart s ev := by
  cases ev with
  | arrive runId ask key =>
      refine forall₂_congr fun r hr => ?_
      cases hscan : r.scan with
      | true =>
          have hanswer : startAnswer s (.arrive runId ask key) = some (.replayed r) := by
            simp [startAnswer, replay?, hr, hscan, Option.filter]
          unfold AnswersFor
          rw [hanswer]
          cases hasks : r.asksFor ask with
          | true => simp
          | false => simp [StartAnswer.refuses]
      | false =>
          have hanswer : startAnswer s (.arrive runId ask key) = none := by
            simp [startAnswer, replay?, hr, hscan, Option.filter]
          have hasks : r.asksFor ask = false := by simp [StartRecord.asksFor, hscan]
          unfold AnswersFor
          rw [hanswer, hasks]
          simp
  | claim runId =>
      refine forall₂_congr fun q hq => forall₂_congr fun r hr => ?_
      have hanswer : startAnswer s (.claim runId) = some .raised := by
        simp [startAnswer, hq, hr]
      unfold AnswersFor
      rw [hanswer]
      cases hasks : r.asksFor q.ask with
      | true => simp
      | false => simp [StartAnswer.refuses]
  | stop | prepareFails | post | crash | register | setStatus => exact Iff.rfl

/--
In every run, all requests that meet a used key are answered for what it was used for
exactly when the keys are kept apart; and whatever fails and whenever a process dies, a
key has at most one remote start that may have started a task, and stays with the run
and the request that have used it first.
-/
theorem start_requests_iff (es : List (StartEvent ω)) :
    (Along startStep KeyAnswered (noStarts : StartState ω) es ↔
      Along startStep KeysApart noStarts es) ∧
    (∀ key, ((run startStep noStarts es).issued key).length ≤ 1) ∧
    ∀ fs, KeyKept (run startStep (noStarts : StartState ω) es)
      (run startStep noStarts (es ++ fs)) := by
  refine ⟨?_, fun key => ?_, fun fs => ?_⟩
  · apply along_congr
    · intro s ev (_ : True) _
      trivial
    · intro s ev _
      exact keyAnswered_iff s ev
    · trivial
  · have hall : Along startStep (fun _ _ => True) (noStarts : StartState ω) es :=
      along_of_forall (fun _ _ => trivial) noStarts es
    have hinv : StartInv (run startStep noStarts es) :=
      hall.invariant (fun s ev (h : StartInv s) _ => h.step ev) startInv_noStarts
    exact hinv.length_issued_le key
  · rw [run_append]
    exact keyKept_run _ fs

end Answers

/-- A second task is requested under the key of a task that has been started. -/
def keyReused : List (StartEvent Unit) :=
  [.arrive "run-1" ⟨"task-1", ()⟩ (some "k"), .claim "run-1",
    .post "run-1" .started false true true, .arrive "run-2" ⟨"task-2", ()⟩ (some "k")]

/-- The client that asks for the second task is told of the run of the first one. -/
theorem other_task_replayed :
    ¬ ∀ es : List (StartEvent Unit), Along startStep KeyAnswered noStarts es := by
  intro h
  have hanswered := (h keyReused).2.2.2.1
  have hwrong := hanswered
    { operationId := "run-1"
      key := some "k"
      scan := true
      ask := some ⟨"task-1", ()⟩
      status := "monitoring"
      stage := "waiting_for_run" }
    (by decide +kernel)
  have hrefuses := hwrong (.replayed
    { operationId := "run-1"
      key := some "k"
      scan := true
      ask := some ⟨"task-1", ()⟩
      status := "monitoring"
      stage := "waiting_for_run" }) rfl
  cases hrefuses

end Scanner
end MpvmApp
