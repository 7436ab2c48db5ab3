import MpvmApp.Lib.Covering
import MpvmApp.Lib.Runs
import MpvmApp.Scanner.Targets
import MpvmApp.Scanner.TaskPayloads

/-!
# Connection checks before a scan

A precheck runs the targets of an audit task as a connection check.  The targets of the successful
jobs are written to the task, and the requested targets that are not among them are recorded as
false.  The false targets of a run can be checked again, as often as one likes.

Main definitions:

- Definition `waitForConnectionCheckTargets`: the targets of the successful jobs.
- Definition `runPrecheck`, `runFalseTargetsPrecheck`: the two kinds of checks.
- Definition `Accounted`: each covered host is in the task or in the recorded false targets.

Main results:

- Theorem `accounted_runPrecheck_iff`: when a precheck accounts for the hosts.
- Theorem `always_accounted_iff`: when it does, and all the checks after it.
-/

namespace MpvmApp
namespace Scanner

open Sql Runs Ip

/-! ## The jobs of a connection check -/

section Jobs

variable (conv : Conversions) (casefold : String → String)

/-- `re.sub(r"[^a-z0-9]+", "", value.casefold())`. -/
def plainStatus (value : String) : String :=
  String.ofList ((casefold value).toList.filter fun c =>
    (decide ('a' ≤ c) && decide (c ≤ 'z')) || (decide ('0' ≤ c) && decide (c ≤ '9')))

mutual

/-- `status_strings`. -/
def statusStrings : Json → List String
  | .str text => [plainStatus casefold text]
  | .arr items => statusItems items
  | .obj members => statusMembers members
  | _ => []

/-- The statuses of the elements of a list. -/
def statusItems : List Json → List String
  | [] => []
  | item :: items => statusStrings item ++ statusItems items

/-- The statuses of the values of a dictionary. -/
def statusMembers : List (String × Json) → List String
  | [] => []
  | (_, value) :: members => statusStrings value ++ statusMembers members

end

/-- `_IN_PROGRESS_STATUSES`. -/
def inProgressStatuses : List String :=
  ["inprogress", "running", "started", "assigned", "scheduled", "pending", "queued"]

/-- `is_finished`. -/
def isFinished (data : Members) : Bool :=
  let statuses := statusStrings casefold (dictGet data "status")
  if statuses.any fun status => decide (status ∈ inProgressStatuses) then false
  else if conv.truthy (dictGet data "finishedAt") then true
  else
    statuses.any fun status =>
      decide (status ∈ ["finished", "completed", "failed", "stopped", "suspended"])

/-- `is_successful_connection_check_result`. -/
def isSuccessfulResult : Json → Bool
  | .obj result =>
      decide ("success" ∈ statusStrings casefold (dictGet result "status")) &&
        !conv.truthy (dictGet result "errors")
  | _ => false

/-- `is_successful_connection_check_job`. -/
def isSuccessfulConnectionCheckJob (job : Members) : Bool :=
  if "connectioncheck" ∉ statusStrings casefold (dictGet job "runMode") then false
  -- the aggregate status of the job is not asked for
  else if !isFinished conv casefold job then false
  else
    match dictGet job "connectionCheckResults" with
    | .arr [] => false
    | .arr results => results.all (isSuccessfulResult conv casefold)
    | _ => false

/-- The target of a job, when it is a text that is not empty. -/
def jobTarget : Json → Option String
  | .str text => orNone (some text)
  | _ => none

/-- `extract_successful_connection_targets`. -/
def extractSuccessfulConnectionTargets (jobs : List Members) : List String :=
  fromKeys ((jobs.filter (isSuccessfulConnectionCheckJob conv casefold)).flatMap fun job =>
    match dictGet job "targets" with
    | .arr targets => targets.filterMap jobTarget
    | _ => [])

/--
One round of `wait_for_connection_check_targets`: what MP VM answers, and whether the run is
to be stopped by then.
-/
structure Poll where
  runs : List Members
  jobs : List Members
  stopsWithoutRun : Bool
  stopsAfterJobs : Bool

/-- `wait_for_connection_check_targets`, whose rounds end at the deadline. -/
def waitLoop (successful : List String) : List Poll → List String
  | [] => successful
  | poll :: polls =>
      match poll.runs with
      | [] => if poll.stopsWithoutRun then [] else waitLoop successful polls
      | run :: _ =>
          if conv.textOf ((Json.member? "id" (.obj run)).getD (.str "")) = "" then []
          else
            let found :=
              if poll.jobs.isEmpty then successful
              else fromKeys (successful ++
                extractSuccessfulConnectionTargets conv casefold poll.jobs)
            if isFinished conv casefold run || poll.stopsAfterJobs then found
            else waitLoop found polls

/-- `wait_for_connection_check_targets`. -/
def waitForConnectionCheckTargets (polls : List Poll) : List String :=
  waitLoop conv casefold [] polls

end Jobs

/-! ## Prechecks -/

/-- The result of a check, as it is recorded for its task. -/
structure PrecheckRecord where
  taskId : String
  auditTaskId : String
  successfulTargets : List String
  falseTargets : List Json

/--
The document of the audit task, the targets that the precheck was asked for, the successful
targets that it wrote to the task, and the results of the checks.
-/
structure PrecheckState where
  auditPayload : Members
  requested : List String
  written : List String
  records : List PrecheckRecord

section Prechecks

variable (conv : Conversions) (casefold : String → String)

/-- `[str(value).strip() for value in values if str(value).strip()]`. -/
def targetTexts (values : List Json) : List String :=
  strippedTexts (values.map conv.textOf)

/-- The targets of a task; they are always a list. -/
def includeTargets (payload : Members) : List Json :=
  match dictGet (asDict (dictGet payload "include")) "targets" with
  | .arr targets => targets
  | _ => []

/-- The document of the task with the successful targets. -/
def narrowPayload (payload : Members) (targets : List String) : Members :=
  let includes := asDict (dictGet payload "include")
  let narrowed := overlay [("targets", textItems targets)] includes
  -- a task of asset groups is narrowed to the members that were reached
  let narrowed :=
    if conv.truthy (dictGet narrowed "assetsGroups") then
      overlay [("assetsGroups", .arr [])] narrowed
    else narrowed
  overlay [("include", .obj narrowed)] payload

/-- `run_precheck_for_scanner_task`; `valid` says whether MP VM accepts the task. -/
def runPrecheck (payload : Members) (auditTaskId precheckTaskId : String) (valid : Bool)
    (polls : List Poll) : PrecheckState :=
  let requested := targetTexts conv (includeTargets payload)
  if !valid then
    { auditPayload := payload
      requested := requested
      written := []
      records :=
        [{ taskId := precheckTaskId
           auditTaskId := auditTaskId
           successfulTargets := []
           falseTargets := includeTargets payload }] }
  else
    let targets := waitForConnectionCheckTargets conv casefold polls
    { auditPayload := if targets.isEmpty then payload else narrowPayload conv payload targets
      requested := requested
      written := targets
      records :=
        [{ taskId := precheckTaskId
           auditTaskId := auditTaskId
           successfulTargets := targets
           falseTargets :=
            (requested.filter fun value => decide (value ∉ targets)).map Json.str }] }

/-- A request to check the false targets of a run again. -/
structure Retry where
  sourceTaskId : String
  retryTaskId : String
  valid : Bool
  polls : List Poll

/-- `run_false_targets_precheck`. -/
def runFalseTargetsPrecheck (s : PrecheckState) (retry : Retry) : PrecheckState :=
  match s.records.find? fun record => decide (record.taskId = retry.sourceTaskId) with
  | none => s
  | some source =>
      if source.falseTargets.isEmpty || decide (source.auditTaskId = "") then s
      else
        let targets := targetTexts conv source.falseTargets
        let successful :=
          if retry.valid then waitForConnectionCheckTargets conv casefold retry.polls else []
        { s with
          records := s.records ++
            [{ taskId := retry.retryTaskId
               auditTaskId := source.auditTaskId
               successfulTargets := successful
               falseTargets :=
                (targets.filter fun value => decide (value ∉ successful)).map Json.str }] }

end Prechecks

/-! ## The hosts of a target -/

/-- A host: an address, or a name. -/
inductive ScanHost where
  | address (version value : Nat)
  | name (text : List Char)
deriving DecidableEq

/-- The hosts of a target. -/
def Target.Names : Target → ScanHost → Prop
  | .network net, .address version value =>
      version = net.address.version ∧ net.address.toNat ≤ value ∧
        value < net.address.toNat + 2 ^ (net.address.width - net.prefixlen)
  | .range first last, .address version value =>
      version = first.version ∧ first.toNat ≤ value ∧ value ≤ last.toNat
  | .address ip, .address version value => version = ip.version ∧ value = ip.toNat
  | .host known, .name text => text = known
  | _, _ => False

/-- A text covers the hosts of the target that it is read as. -/
def covers (tables : CharTables) (value : String) (host : ScanHost) : Prop :=
  ∃ target, readTarget tables value = .ok target ∧ target.Names host

theorem stripText_strip (value : String) :
    stripText (strip value).toList = stripText value.toList := by
  rw [← toList_strip, strip_strip, toList_strip]

theorem covers_strip {tables : CharTables} {value : String} {host : ScanHost} :
    covers tables (strip value) host ↔ covers tables value host := by
  unfold covers readTarget
  rw [stripText_strip]

theorem not_covers_empty {tables : CharTables} {host : ScanHost} : ¬ covers tables "" host := by
  rintro ⟨target, hread, _⟩
  exact nomatch hread

theorem covered_strippedTexts {tables : CharTables} {values : List String} {host : ScanHost} :
    Covered (covers tables) (strippedTexts values) host ↔ Covered (covers tables) values host := by
  unfold strippedTexts
  constructor
  · rintro ⟨text, htext, hcovers⟩
    obtain ⟨value, hvalue, rfl⟩ := List.mem_map.1 (List.mem_of_mem_filter htext)
    exact ⟨value, hvalue, covers_strip.1 hcovers⟩
  · rintro ⟨value, hvalue, hcovers⟩
    have hstripped := covers_strip.2 hcovers
    have hne : strip value ≠ "" := by
      intro hempty
      rw [hempty] at hstripped
      exact not_covers_empty hstripped
    exact ⟨strip value, List.mem_filter.2 ⟨List.mem_map_of_mem hvalue, decide_eq_true hne⟩,
      hstripped⟩

theorem strippedTexts_strippedTexts (values : List String) :
    strippedTexts (strippedTexts values) = strippedTexts values := by
  rw [strippedTexts_eq_self_iff]
  intro text htext
  obtain ⟨hmem, hne⟩ := List.mem_filter.1 htext
  obtain ⟨value, _, rfl⟩ := List.mem_map.1 hmem
  exact ⟨strip_strip value, of_decide_eq_true hne⟩

theorem targetTexts_filter (conv : Conversions) (values : List String) (p : String → Bool) :
    targetTexts conv (((strippedTexts values).filter p).map Json.str) =
      (strippedTexts values).filter p := by
  have htexts : (((strippedTexts values).filter p).map Json.str).map conv.textOf =
      ((strippedTexts values).filter p).map id := by
    rw [List.map_map]
    rfl
  unfold targetTexts
  rw [htexts, List.map_id, strippedTexts_eq_self_iff]
  intro text htext
  have hself := strippedTexts_eq_self_iff.1 (strippedTexts_strippedTexts values)
  exact hself text (List.mem_of_mem_filter htext)

/-! ## Hosts that are accounted for -/

section Accounts

variable {conv : Conversions} {casefold : String → String} {tables : CharTables}

/--
Each host of a requested target is a host of the successful targets in the task, or of the false
targets of a check, and not of both; this is said of all checks that are recorded.
-/
def Accounted (conv : Conversions) (tables : CharTables) (s : PrecheckState) : Prop :=
  ∀ record ∈ s.records,
    Splits (covers tables) s.requested s.written (record.falseTargets.map conv.textOf)

/-- The false targets of the checks are among the requested ones. -/
def FromRequested (conv : Conversions) (s : PrecheckState) : Prop :=
  (∃ values, s.requested = strippedTexts values) ∧
    ∀ record ∈ s.records, ∀ text ∈ targetTexts conv record.falseTargets, text ∈ s.requested

/--
No requested target that is not among the successful ones, in the same spelling, covers a host of
a successful one.
-/
def FoundApart (conv : Conversions) (casefold : String → String) (tables : CharTables)
    (payload : Members) (valid : Bool) (polls : List Poll) : Prop :=
  valid = true → ∀ value ∈ targetTexts conv (includeTargets payload),
    value ∉ waitForConnectionCheckTargets conv casefold polls →
      ∀ found ∈ waitForConnectionCheckTargets conv casefold polls, ∀ host,
        covers tables value host → ¬ covers tables found host

/--
The hosts of each false target that a retry finds are covered by false targets that it does not
find.
-/
def FindsNoHost (conv : Conversions) (casefold : String → String) (tables : CharTables)
    (s : PrecheckState) (retry : Retry) : Prop :=
  retry.valid = true →
    ∀ source ∈ s.records.find? fun record => decide (record.taskId = retry.sourceTaskId),
      source.auditTaskId ≠ "" → ∀ value ∈ targetTexts conv source.falseTargets,
        value ∈ waitForConnectionCheckTargets conv casefold retry.polls → ∀ host,
          covers tables value host →
            ∃ other ∈ targetTexts conv source.falseTargets,
              other ∉ waitForConnectionCheckTargets conv casefold retry.polls ∧
                covers tables other host

theorem splits_targetTexts {requested written : List String} {values : List Json} :
    Splits (covers tables) requested written (targetTexts conv values) ↔
      Splits (covers tables) requested written (values.map conv.textOf) :=
  splits_congr fun _ => covered_strippedTexts

/-- When a precheck accounts for the hosts. -/
theorem accounted_runPrecheck_iff (payload : Members) (auditTaskId precheckTaskId : String)
    (valid : Bool) (polls : List Poll) :
    Accounted conv tables
        (runPrecheck conv casefold payload auditTaskId precheckTaskId valid polls) ↔
      FoundApart conv casefold tables payload valid polls := by
  unfold Accounted runPrecheck FoundApart
  cases valid with
  | false =>
      refine iff_of_true ?_ fun hvalid => nomatch hvalid
      intro record hrecord
      rw [List.mem_singleton.1 hrecord]
      exact splits_targetTexts.1 (splits_nil _)
  | true =>
      simp only [Bool.not_true, Bool.false_eq_true, if_false, List.forall_mem_singleton,
        true_imp_iff]
      have htexts := targetTexts_filter conv ((includeTargets payload).map conv.textOf)
        fun value => decide (value ∉ waitForConnectionCheckTargets conv casefold polls)
      rw [← splits_targetTexts]
      refine Iff.trans ?_ splits_filter_iff
      exact iff_of_eq (congrArg _ htexts)

theorem fromRequested_runPrecheck (payload : Members) (auditTaskId precheckTaskId : String)
    (valid : Bool) (polls : List Poll) :
    FromRequested conv
      (runPrecheck conv casefold payload auditTaskId precheckTaskId valid polls) := by
  unfold runPrecheck
  cases valid with
  | false =>
      refine ⟨⟨_, rfl⟩, fun record hrecord text htext => ?_⟩
      rw [List.mem_singleton.1 hrecord] at htext
      exact htext
  | true =>
      refine ⟨⟨_, rfl⟩, fun record hrecord text htext => ?_⟩
      rw [List.mem_singleton.1 hrecord] at htext
      have htexts := targetTexts_filter conv ((includeTargets payload).map conv.textOf)
        fun value => decide (value ∉ waitForConnectionCheckTargets conv casefold polls)
      have hmem := (iff_of_eq (congrArg (fun texts => text ∈ texts) htexts)).1 htext
      exact List.mem_of_mem_filter hmem

/-- What a retry records. -/
theorem runFalseTargetsPrecheck_cases (s : PrecheckState) (retry : Retry) :
    (runFalseTargetsPrecheck conv casefold s retry = s ∧
        ∀ source ∈ s.records.find? fun record => decide (record.taskId = retry.sourceTaskId),
          source.auditTaskId ≠ "" → source.falseTargets = []) ∨
      ∃ source successful, source ∈ s.records ∧
        (s.records.find? fun record => decide (record.taskId = retry.sourceTaskId)) =
          some source ∧
        source.auditTaskId ≠ "" ∧
        successful =
          (if retry.valid then waitForConnectionCheckTargets conv casefold retry.polls else []) ∧
        runFalseTargetsPrecheck conv casefold s retry =
          { s with
            records := s.records ++
              [{ taskId := retry.retryTaskId
                 auditTaskId := source.auditTaskId
                 successfulTargets := successful
                 falseTargets := ((targetTexts conv source.falseTargets).filter fun value =>
                  decide (value ∉ successful)).map Json.str }] } := by
  unfold runFalseTargetsPrecheck
  cases hfind : s.records.find? fun record => decide (record.taskId = retry.sourceTaskId) with
  | none => exact Or.inl ⟨rfl, fun source hsource => nomatch hsource⟩
  | some source =>
      dsimp only
      split
      · rename_i hrefused
        refine Or.inl ⟨rfl, fun found hfound haudit => ?_⟩
        cases hfound
        rw [Bool.or_eq_true, decide_eq_true_eq, List.isEmpty_iff] at hrefused
        exact hrefused.resolve_right haudit
      · rename_i hrefused
        rw [Bool.or_eq_true, decide_eq_true_eq, not_or] at hrefused
        exact Or.inr ⟨source, _, List.mem_of_find?_eq_some hfind, rfl, hrefused.2, rfl, rfl⟩

theorem targetTexts_retry
    (source : PrecheckRecord) (successful : List String) :
    targetTexts conv (((targetTexts conv source.falseTargets).filter fun value =>
        decide (value ∉ successful)).map Json.str) =
      (targetTexts conv source.falseTargets).filter fun value => decide (value ∉ successful) :=
  targetTexts_filter conv _ _

theorem fromRequested_retry {s : PrecheckState} (hfrom : FromRequested conv s) (retry : Retry) :
    FromRequested conv (runFalseTargetsPrecheck conv casefold s retry) := by
  rcases @runFalseTargetsPrecheck_cases conv casefold s retry with
    ⟨hsame, _⟩ | ⟨source, successful, hsource, _, _, _, hnext⟩
  · rw [hsame]
    exact hfrom
  · rw [hnext]
    refine ⟨hfrom.1, fun record hrecord text htext => ?_⟩
    rcases List.mem_append.1 hrecord with hold | hnew
    · exact hfrom.2 record hold text htext
    · rw [List.mem_singleton.1 hnew] at htext
      have htexts := @targetTexts_retry conv source successful
      have hmem := (iff_of_eq (congrArg (fun texts => text ∈ texts) htexts)).1 htext
      exact hfrom.2 source hsource text (List.mem_of_mem_filter hmem)

/-- When a retry keeps the hosts accounted for. -/
theorem accounted_retry_iff {s : PrecheckState} (hfrom : FromRequested conv s)
    (h : Accounted conv tables s) (retry : Retry) :
    Accounted conv tables (runFalseTargetsPrecheck conv casefold s retry) ↔
      FindsNoHost conv casefold tables s retry := by
  rcases @runFalseTargetsPrecheck_cases conv casefold s retry with
    ⟨hsame, hnone⟩ | ⟨source, successful, hsource, hfind, haudit, hsuccessful, hnext⟩
  · rw [hsame]
    refine iff_of_true h fun _ source hfound haudit value hvalue => ?_
    rw [hnone source hfound haudit] at hvalue
    exact nomatch hvalue
  · have hsplits := splits_targetTexts.2 (h source hsource)
    have hnew : Accounted conv tables (runFalseTargetsPrecheck conv casefold s retry) ↔
        Splits (covers tables) s.requested s.written
          ((targetTexts conv source.falseTargets).filter fun value =>
            decide (value ∉ successful)) := by
      rw [← targetTexts_retry, splits_targetTexts, hnext]
      unfold Accounted
      simp only [List.forall_mem_append, List.forall_mem_singleton]
      exact and_iff_right h
    rw [hnew, hsplits.filter_iff (hfrom.2 source hsource)]
    unfold FindsNoHost
    rw [hfind]
    cases hvalid : retry.valid with
    | false =>
        rw [hvalid] at hsuccessful
        refine iff_of_true (fun pattern _ hmem => ?_) fun hnot => nomatch hnot
        rw [hsuccessful] at hmem
        exact nomatch hmem
    | true =>
        rw [hvalid] at hsuccessful
        have hfound : successful =
            waitForConnectionCheckTargets conv casefold retry.polls := hsuccessful
        rw [hfound]
        simp only [Option.mem_def, Option.some.injEq, forall_eq', true_imp_iff, Covered,
          List.mem_filter, decide_eq_true_eq, and_assoc]
        exact ⟨fun hfinds _ => hfinds, fun hfinds => hfinds haudit⟩

/-- A precheck and the checks that follow it account for the hosts at each of their ends. -/
def AlwaysAccounted (conv : Conversions) (casefold : String → String) (tables : CharTables)
    (s : PrecheckState) (retries : List Retry) : Prop :=
  Accounted conv tables s ∧
    Along (runFalseTargetsPrecheck conv casefold)
      (fun s retry => Accounted conv tables (runFalseTargetsPrecheck conv casefold s retry))
      s retries

/--
A precheck and the checks that follow it account for each host of a requested target exactly when
the precheck finds its hosts apart from the false targets, and each retry finds no host.
-/
theorem always_accounted_iff (conv : Conversions) (casefold : String → String)
    (tables : CharTables) (payload : Members) (auditTaskId precheckTaskId : String) (valid : Bool)
    (polls : List Poll) (retries : List Retry) :
    AlwaysAccounted conv casefold tables
        (runPrecheck conv casefold payload auditTaskId precheckTaskId valid polls) retries ↔
      FoundApart conv casefold tables payload valid polls ∧
        Along (runFalseTargetsPrecheck conv casefold) (FindsNoHost conv casefold tables)
          (runPrecheck conv casefold payload auditTaskId precheckTaskId valid polls) retries := by
  unfold AlwaysAccounted
  rw [accounted_runPrecheck_iff]
  refine and_congr_right fun hapart => ?_
  have hfrom := @fromRequested_runPrecheck conv casefold payload auditTaskId precheckTaskId valid
    polls
  have haccounted := (accounted_runPrecheck_iff payload auditTaskId precheckTaskId valid
    polls).2 hapart
  have hstep : ∀ s retry, FromRequested conv s ∧ Accounted conv tables s →
      Accounted conv tables (runFalseTargetsPrecheck conv casefold s retry) →
        FromRequested conv (runFalseTargetsPrecheck conv casefold s retry) ∧
          Accounted conv tables (runFalseTargetsPrecheck conv casefold s retry) :=
    fun s retry hs hnext => ⟨fromRequested_retry hs.1 retry, hnext⟩
  have hiff : ∀ s retry, FromRequested conv s ∧ Accounted conv tables s →
      (Accounted conv tables (runFalseTargetsPrecheck conv casefold s retry) ↔
        FindsNoHost conv casefold tables s retry) :=
    fun s retry hs => accounted_retry_iff hs.1 hs.2 retry
  exact along_congr hstep hiff ⟨hfrom, haccounted⟩ retries

end Accounts

/-- A task for a network. -/
def networkPayload : Members :=
  [("name", .str "Audit"), ("include", .obj [("assets", .arr []),
    ("targets", .arr [.str "10.0.0.0/24"]), ("assetsGroups", .arr [])])]

/-- The finished run of a connection check with one successful job. -/
def oneReached : Poll where
  runs := [[("id", .str "run-1"), ("status", .str "finished")]]
  jobs := [[("runMode", .str "connectionCheck"), ("status", .str "finished"),
    ("targets", .arr [.str "10.0.0.5"]),
    ("connectionCheckResults", .arr [.obj [("status", .str "success"), ("errors", .arr [])]])]]
  stopsWithoutRun := false
  stopsAfterJobs := false

/-- A host that was reached in a network is also among the false targets. -/
theorem reached_host_is_false :
    ¬ AlwaysAccounted strictConversions String.toLower CharTables.ascii
      (runPrecheck strictConversions String.toLower networkPayload "task-1" "task-2" true
        [oneReached]) [] := by
  intro h
  have hapart := (accounted_runPrecheck_iff networkPayload "task-1" "task-2" true
    [oneReached]).1 h.1 rfl
  have hrequested : targetTexts strictConversions (includeTargets networkPayload) =
      ["10.0.0.0/24"] := by decide +kernel
  have hfound : waitForConnectionCheckTargets strictConversions String.toLower [oneReached] =
      ["10.0.0.5"] := by decide +kernel
  rw [hrequested, hfound] at hapart
  have hnetwork : covers CharTables.ascii "10.0.0.0/24" (.address 4 167772165) :=
    ⟨.network (IpAddress.network (.v4 167772160#32) 24 (by decide)), by decide +kernel, rfl,
      by decide +kernel, by decide +kernel⟩
  have haddress : covers CharTables.ascii "10.0.0.5" (.address 4 167772165) :=
    ⟨.address (.v4 167772165#32), by decide +kernel, rfl, rfl⟩
  exact hapart "10.0.0.0/24" (by decide) (by decide) "10.0.0.5" (by decide) _ hnetwork haddress

end Scanner
end MpvmApp
