import MpvmApp.Lib.Pages
import MpvmApp.Lib.Runs
import MpvmApp.Mcp.HostSearch

/-!
# Cached searches

Searches for hosts are cached for a short time, and searches that are asked for at the same time
share one run.  The key of an entry has the scope of the caller, since callers differ in what the
application lets them read.

Main definitions:

- `SearchCache`: the finished searches and those that run.
- `step`: a call, the end of a search, or a caller who gives up.
- `AnswersExact`: what is answered over all pages is exact, in every run.

Main results:

- Theorem `served_of_mem_answers`: every answer shows a search for the scope of its caller.
- Theorem `find_hosts_exact_iff`: when the answers to a query are exact.
-/

namespace MpvmApp
namespace Mcp

open Sql

/-! ## Calls -/

/-- The principal of a token. -/
structure Principal where
  key : Int
  clientIp : Option String

/-- `caller_scope`. -/
def callerScope (principal : Option Principal) : Option Int :=
  principal.map Principal.key

/-- What a search depends on besides the query. -/
structure Filters where
  severity : Option String
  source : Option String
  hostQ : Option String
  staleDays : Int
deriving DecidableEq

/-- A call of `find_hosts_by_vulnerability`. -/
structure Call where
  principal : Option Principal
  query : String
  filters : Filters
  limit : Nat
  offset : Nat

/-- The key of a search in the cache. -/
structure Key where
  scope : Option Int
  query : String
  filters : Filters
deriving DecidableEq

def keyOf (tables : CharTables) (call : Call) : Key where
  scope := callerScope call.principal
  query := needle tables call.query
  filters := call.filters

/-- The application: what it lets a scope read, and how long ago a text is at some time. -/
structure Application (tables : CharTables) where
  content : Option Int → Filters → Content tables
  staleness : Rat → Int → Staleness

/-! ## Answers -/

/-- A finished search: who read the data, when, and what was found. -/
structure Search where
  principal : Option Principal
  clock : Rat
  found : Found

/-- `Counter`. -/
def counter (texts : List String) : Dict String Nat :=
  texts.foldl (fun counts text => counts.set text ((counts.get? text).getD 0 + 1)) Dict.empty

/-- The severity under which a host is counted. -/
def severityOf (host : Host) : String :=
  if textOf host.severity = "" then "unknown" else textOf host.severity

/-- An answer, with the call and the search that it shows. -/
structure Answer where
  call : Call
  principal : Option Principal
  clock : Rat
  vulnerabilities : List VulnerabilityRow
  matchKind : MatchKind
  totalHosts : Nat
  staleHosts : Nat
  hostsBySeverity : Dict String Nat
  returned : Nat
  truncated : Bool
  hosts : List Host

/-- The answer of a call that a search gives. -/
def answerOf (call : Call) (search : Search) : Answer :=
  let merged := search.found.hosts
  let page := (merged.drop call.offset).take call.limit
  { call := call
    principal := search.principal
    clock := search.clock
    vulnerabilities := search.found.matched
    matchKind := search.found.matchKind
    totalHosts := merged.length
    staleHosts := merged.countP fun host => decide (host.stale = some true)
    hostsBySeverity := counter (merged.map severityOf)
    returned := page.length
    truncated := search.found.truncated
    hosts := page }

/-! ## The cache -/

/-- A search that runs, and the calls that wait for it. -/
structure Task where
  principal : Option Principal
  query : String
  filters : Filters
  waiting : List Call

/-- `SearchCache`, and the answers that have been given. -/
structure SearchCache where
  done : Dict Key (Rat × Search)
  pending : Dict Key Task
  answers : List Answer

def SearchCache.initial : SearchCache where
  done := Dict.empty
  pending := Dict.empty
  answers := []

/-- `SEARCH_CACHE_TTL_SECONDS`. -/
def searchCacheTtl : Rat :=
  120

/-- `SEARCH_CACHE_MAX_ENTRIES`. -/
def searchCacheMaxEntries : Nat :=
  64

/-- The call waits for the search that runs, or starts one as its principal. -/
def SearchCache.join (cache : SearchCache) (key : Key) (call : Call) : SearchCache :=
  let task := (cache.pending.get? key).getD
    { principal := call.principal, query := strip call.query, filters := call.filters,
      waiting := [] }
  { cache with pending := cache.pending.set key { task with waiting := task.waiting ++ [call] } }

/-- `get_or_compute`. -/
def SearchCache.ask (tables : CharTables) (cache : SearchCache) (call : Call) (now : Rat) :
    SearchCache :=
  match cache.done.get? (keyOf tables call) with
  | some hit =>
      if now - hit.1 < searchCacheTtl then
        { cache with answers := cache.answers ++ [answerOf call hit.2] }
      else cache.join (keyOf tables call) call
  | none => cache.join (keyOf tables call) call

/-- The oldest entries go while there are too many. -/
def evict : Nat → Dict Key (Rat × Search) → Dict Key (Rat × Search)
  | 0, done => done
  | left + 1, done =>
      if searchCacheMaxEntries < done.items.length then
        match (sortOn (fun item : Key × Rat × Search => item.2.1) done.items).head? with
        | some oldest => evict left (done.pop oldest.1)
        | none => done
      else done

/-- What a task finds when it merges the hosts at some time, or none for an error. -/
def Task.compute {tables : CharTables} (app : Application tables) (task : Task)
    (clock : Rat) : Option Search :=
  (searchHosts (app.staleness clock task.filters.staleDays)
    (app.content (callerScope task.principal) task.filters) task.query).map
      fun found => { principal := task.principal, clock := clock, found := found }

/-- `_finish`: what was found is kept and given to all who wait; errors are not kept. -/
def SearchCache.finish (cache : SearchCache) (key : Key) (task : Task) (now : Rat)
    (result : Option Search) : SearchCache :=
  let pending := cache.pending.pop key
  match result with
  | none => { cache with pending := pending }
  | some search =>
      let done := cache.done.set key (now, search)
      { done := evict done.items.length done
        pending := pending
        answers := cache.answers ++ task.waiting.map fun call => answerOf call search }

/-- What happens to the cache. -/
inductive Event where
  | call (call : Call) (now : Rat)
  | finished (key : Key) (clock now : Rat) (failed : Bool)
  | gaveUp (key : Key) (i : Nat)

/-- A caller who gives up does not cancel the search, since others may wait for it. -/
def SearchCache.giveUp (cache : SearchCache) (key : Key) (i : Nat) : SearchCache :=
  match cache.pending.get? key with
  | none => cache
  | some task =>
      { cache with
        pending := cache.pending.set key { task with waiting := task.waiting.eraseIdx i } }

section System

variable {tables : CharTables} (app : Application tables)

/-- One event. -/
def step (cache : SearchCache) : Event → SearchCache
  | .call call now => cache.ask tables call now
  | .finished key clock now failed =>
      match cache.pending.get? key with
      | none => cache
      | some task =>
          cache.finish key task now (if failed then none else task.compute app clock)
  | .gaveUp key i => cache.giveUp key i

/-- The answers of a run. -/
def answers (events : List Event) : List Answer :=
  (Runs.run (step app) SearchCache.initial events).answers

/-! ## What is answered -/

/-- A search reads what the scope of a key may read, and finds what its query names. -/
def Comes (key : Key) (search : Search) : Prop :=
  callerScope search.principal = key.scope ∧
    ∀ query, needle tables query = key.query →
      searchHosts (app.staleness search.clock key.filters.staleDays)
        (app.content key.scope key.filters) query = some search.found

/-- An answer shows a search for the key of its call. -/
def Served (answer : Answer) : Prop :=
  ∃ search, Comes app (keyOf tables answer.call) search ∧ answer = answerOf answer.call search

/-- A task searches for a key, and only calls with this key wait for it. -/
structure TaskFor (tables : CharTables) (key : Key) (task : Task) : Prop where
  scope : callerScope task.principal = key.scope
  query : needle tables task.query = key.query
  filters : task.filters = key.filters
  waiting : ∀ call ∈ task.waiting, keyOf tables call = key

/-- All that is kept under a key is for this key. -/
structure Inv (cache : SearchCache) : Prop where
  done : ∀ key entry, cache.done.get? key = some entry → Comes app key entry.2
  pending : ∀ key task, cache.pending.get? key = some task → TaskFor tables key task
  answers : ∀ answer ∈ cache.answers, Served app answer

theorem inv_initial : Inv app SearchCache.initial where
  done := fun _ _ h => nomatch h
  pending := fun _ _ h => nomatch h
  answers := fun _ h => nomatch h

variable {app} {cache : SearchCache}

theorem comes_of_compute {key : Key} {task : Task} (h : TaskFor tables key task) {clock : Rat}
    {search : Search} (hcompute : task.compute app clock = some search) :
    Comes app key search := by
  obtain ⟨found, hfound, rfl⟩ := Option.map_eq_some_iff.1 hcompute
  refine ⟨h.scope, fun query hquery => ?_⟩
  rw [h.filters, h.scope] at hfound
  rw [searchHosts_congr (hquery.trans h.query.symm)]
  exact hfound

theorem served_answerOf {call : Call} {search : Search}
    (h : Comes app (keyOf tables call) search) :
    Served app (answerOf call search) :=
  ⟨search, h, rfl⟩

theorem Inv.set_pending (h : Inv app cache) {key : Key} {task : Task}
    (htask : TaskFor tables key task) :
    Inv app { cache with pending := cache.pending.set key task } where
  done := h.done
  pending := by
    intro key' task' hget
    rw [Dict.get?_set] at hget
    by_cases hkey : key' = key
    · rw [if_pos hkey] at hget
      rw [hkey, ← Option.some.inj hget]
      exact htask
    · rw [if_neg hkey] at hget
      exact h.pending key' task' hget
  answers := h.answers

theorem needle_strip (query : String) :
    needle tables (strip query) = needle tables query := by
  unfold needle
  rw [strip_strip]

theorem Inv.join (h : Inv app cache) (call : Call) :
    Inv app (cache.join (keyOf tables call) call) := by
  unfold SearchCache.join
  refine h.set_pending ?_
  cases hget : cache.pending.get? (keyOf tables call) with
  | none =>
      refine ⟨rfl, needle_strip call.query, rfl, fun other hother => ?_⟩
      rw [List.mem_singleton.1 hother]
  | some task =>
      have htask := h.pending _ task hget
      refine ⟨htask.scope, htask.query, htask.filters, fun other hother => ?_⟩
      rcases List.mem_append.1 hother with hold | hnew
      · exact htask.waiting other hold
      · rw [List.mem_singleton.1 hnew]

theorem Inv.ask (h : Inv app cache) (call : Call) (now : Rat) :
    Inv app (cache.ask tables call now) := by
  unfold SearchCache.ask
  split
  · rename_i hit hget
    split
    · refine ⟨h.done, h.pending, fun answer hanswer => ?_⟩
      rcases List.mem_append.1 hanswer with hold | hnew
      · exact h.answers answer hold
      · rw [List.mem_singleton.1 hnew]
        exact served_answerOf (h.done _ hit hget)
    · exact h.join call
  · exact h.join call

theorem get?_evict {left : Nat} {done : Dict Key (Rat × Search)} {key : Key}
    {entry : Rat × Search} (h : (evict left done).get? key = some entry) :
    done.get? key = some entry := by
  induction left generalizing done with
  | zero => exact h
  | succ left ih =>
      unfold evict at h
      split at h
      · split at h
        · have hpop := ih h
          rw [Dict.get?_pop] at hpop
          split at hpop
          · cases hpop
          · exact hpop
        · exact h
      · exact h

theorem Inv.finish (h : Inv app cache) {key : Key} {task : Task}
    (hget : cache.pending.get? key = some task) (now : Rat) {result : Option Search}
    (hresult : ∀ search, result = some search → Comes app key search) :
    Inv app (cache.finish key task now result) := by
  have hpending : ∀ key' task', (cache.pending.pop key).get? key' = some task' →
      TaskFor tables key' task' := by
    intro key' task' hget'
    rw [Dict.get?_pop] at hget'
    split at hget'
    · cases hget'
    · exact h.pending key' task' hget'
  cases result with
  | none => exact ⟨h.done, hpending, h.answers⟩
  | some search =>
      have hcomes := hresult search rfl
      refine ⟨fun key' entry hentry => ?_, hpending, fun answer hanswer => ?_⟩
      · have hset := get?_evict hentry
        rw [Dict.get?_set] at hset
        by_cases hkey : key' = key
        · rw [if_pos hkey] at hset
          rw [hkey, ← Option.some.inj hset]
          exact hcomes
        · rw [if_neg hkey] at hset
          exact h.done key' entry hset
      · rcases List.mem_append.1 hanswer with hold | hnew
        · exact h.answers answer hold
        · obtain ⟨call, hcall, rfl⟩ := List.mem_map.1 hnew
          refine served_answerOf ?_
          rw [(h.pending key task hget).waiting call hcall]
          exact hcomes

theorem Inv.giveUp (h : Inv app cache) (key : Key) (i : Nat) :
    Inv app (cache.giveUp key i) := by
  unfold SearchCache.giveUp
  split
  · exact h
  · rename_i task hget
    have htask := h.pending key task hget
    exact h.set_pending ⟨htask.scope, htask.query, htask.filters, fun call hcall =>
      htask.waiting call (List.mem_of_mem_eraseIdx hcall)⟩

theorem Inv.step (h : Inv app cache) (event : Event) :
    Inv app (Mcp.step app cache event) := by
  cases event with
  | call call now => exact h.ask call now
  | finished key clock now failed =>
      unfold Mcp.step
      dsimp only
      split
      · exact h
      · rename_i task hget
        refine h.finish hget now fun search hsearch => ?_
        split at hsearch
        · cases hsearch
        · exact comes_of_compute (h.pending key task hget) hsearch
  | gaveUp key i => exact h.giveUp key i

/-- Every answer of a run shows a search for the scope of its caller. -/
theorem served_of_mem_answers {events : List Event} {answer : Answer}
    (h : answer ∈ Mcp.answers app events) :
    Served app answer := by
  have halong : Runs.Along (Mcp.step app) (fun _ _ => True) SearchCache.initial events :=
    Runs.along_of_forall (fun _ _ => trivial) _ _
  have hinv : Inv app (Runs.run (Mcp.step app) SearchCache.initial events) :=
    halong.invariant (fun _ event hinv _ => hinv.step event) (inv_initial app)
  exact hinv.answers answer h

/-! ## Answers over all pages -/

theorem get?_counter (texts : List String) (text : String) :
    (counter texts).get? text =
      if texts.count text = 0 then none else some (texts.count text) := by
  induction texts using List.reverseRecOn with
  | nil => rfl
  | append_singleton texts last ih =>
      have hlast : counter (texts ++ [last]) =
          (counter texts).set last (((counter texts).get? last).getD 0 + 1) := by
        unfold counter
        rw [List.foldl_append]
        rfl
      rw [hlast, Dict.get?_set, List.count_append, List.count_singleton]
      by_cases htext : text = last
      · subst htext
        rw [if_pos rfl, ih]
        by_cases hzero : texts.count text = 0 <;> simp [hzero]
      · rw [if_neg htext, ih]
        simp [Ne.symm htext]

/-- The hosts of some answers. -/
def overPages (pages : List Answer) : List Host :=
  pages.flatMap Answer.hosts

/-- The answers are to calls for pages of one length, one behind another, up to the last host. -/
structure AllPages (limit : Nat) (pages : List Answer) : Prop where
  asked : pages ≠ []
  limits : ∀ i answer, pages[i]? = some answer →
    answer.call.limit = limit ∧ answer.call.offset = i * limit
  total : ∀ answer ∈ pages, answer.totalHosts ≤ pages.length * limit

/-- The hosts over all pages are exact, and the numbers of every answer count them. -/
structure PagesExact (app : Application tables) (principal : Option Principal)
    (filters : Filters) (query : String) (pages : List Answer) : Prop where
  hosts : HostsExact (app.content (callerScope principal) filters) query (overPages pages)
  total : ∀ answer ∈ pages, answer.totalHosts = (overPages pages).length
  stale : ∀ answer ∈ pages, answer.staleHosts = (overPages pages).countP fun host =>
    decide (app.staleness answer.clock filters.staleDays (textOf host.lastSeen) = some true)
  severities : ∀ answer ∈ pages, ∀ severity,
    answer.hostsBySeverity.get? severity =
      if ((overPages pages).map severityOf).count severity = 0 then none
      else some (((overPages pages).map severityOf).count severity)

/-- An answer to the query, matched exactly and not truncated. -/
structure ExactAnswer (tables : CharTables) (principal : Option Principal) (filters : Filters)
    (query : String) (answer : Answer) : Prop where
  scope : callerScope answer.call.principal = callerScope principal
  filters : answer.call.filters = filters
  query : needle tables answer.call.query = needle tables query
  matchKind : answer.matchKind = .exact
  truncated : answer.truncated = false

/--
In every run, an answer was computed for the scope of its caller, and exact answers that are not
truncated show over all pages exactly the hosts of what the query names.
-/
def AnswersExact (app : Application tables) (principal : Option Principal) (filters : Filters)
    (query : String) : Prop :=
  ∀ events,
    (∀ answer ∈ Mcp.answers app events,
      callerScope answer.principal = callerScope answer.call.principal) ∧
    ∀ limit pages,
      (∀ answer ∈ pages, answer ∈ Mcp.answers app events ∧
        ExactAnswer tables principal filters query answer) →
      AllPages limit pages → PagesExact app principal filters query pages

/-- What an answer shows of hosts, whatever the clock says of them. -/
structure Shows (stale : Staleness) (whole : List Host) (answer : Answer) : Prop where
  hosts : answer.hosts.map Host.unaged =
    (whole.drop answer.call.offset).take answer.call.limit
  total : answer.totalHosts = whole.length
  stale : answer.staleHosts =
    whole.countP fun host => decide (stale (textOf host.lastSeen) = some true)
  severities : answer.hostsBySeverity = counter (whole.map severityOf)

section Query

variable {principal : Option Principal} {filters : Filters} {query : String}

/-- An exact answer comes from a search that read everything. -/
theorem ExactAnswer.shows {answer : Answer} (h : Served app answer)
    (hexact : ExactAnswer tables principal filters query answer) :
    Complete (app.content (callerScope principal) filters) query ∧
      FirstSourced (app.content (callerScope principal) filters) query ∧
      ∃ whole,
        searchHosts noClock (app.content (callerScope principal) filters) query = some whole ∧
        Shows (app.staleness answer.clock filters.staleDays) whole.hosts answer := by
  obtain ⟨search, ⟨_, hsearch⟩, hanswer⟩ := h
  have hfound := hsearch query hexact.query.symm
  unfold keyOf at hfound
  dsimp only at hfound
  rw [hexact.scope, hexact.filters] at hfound
  have hkind : search.found.matchKind = .exact := by
    have hkind := hexact.matchKind
    rw [hanswer] at hkind
    exact hkind
  have hwhole : search.found.truncated = false := by
    have hwhole := hexact.truncated
    rw [hanswer] at hwhole
    exact hwhole
  have hcomplete := complete_of_searchHosts hfound hkind hwhole
  have hunaged := @unaged_searchHosts tables
    (app.staleness search.clock filters.staleDays)
    (app.content (callerScope principal) filters) query
  rw [hfound, Option.map_some] at hunaged
  obtain ⟨whole, hsome, hhosts⟩ := Option.map_eq_some_iff.1 hunaged.symm
  have haged := aged_of_searchHosts hfound
  have hclock : answer.clock = search.clock := by rw [hanswer]; rfl
  refine ⟨hcomplete, ?_, whole, hsome, ?_⟩
  · rw [← searchHosts_isSome_iff hcomplete, hfound]
    rfl
  · rw [hclock, hhosts]
    constructor
    · rw [hanswer]
      unfold answerOf
      dsimp only
      rw [List.map_take, List.map_drop]
    · rw [hanswer, List.length_map]
      rfl
    · rw [hanswer, List.countP_map]
      refine List.countP_congr fun host hhost => ?_
      rw [Function.comp_apply, haged host hhost]
      exact Iff.rfl
    · rw [hanswer, List.map_map]
      rfl

/-- All pages together are what each of them is cut from. -/
theorem AllPages.hosts {limit : Nat} {pages : List Answer} (h : AllPages limit pages)
    {whole : List Host}
    (hshows : ∀ answer ∈ pages, ∃ stale, Shows stale whole answer) :
    (overPages pages).map Host.unaged = whole := by
  have hpages : (pages.map fun answer => answer.hosts.map Host.unaged).flatten =
      whole.take ((pages.map fun answer => answer.hosts.map Host.unaged).length * limit) := by
    refine Pages.flatten_pages fun i page hpage => ?_
    rw [List.getElem?_map] at hpage
    obtain ⟨answer, hanswer, rfl⟩ := Option.map_eq_some_iff.1 hpage
    obtain ⟨stale, hshow⟩ := hshows answer (List.mem_of_getElem? hanswer)
    obtain ⟨hlimit, hoffset⟩ := h.limits i answer hanswer
    rw [hshow.hosts, hlimit, hoffset]
  obtain ⟨answer, hanswer⟩ := List.exists_mem_of_ne_nil pages h.asked
  obtain ⟨stale, hshow⟩ := hshows answer hanswer
  have htotal := h.total answer hanswer
  rw [hshow.total] at htotal
  unfold overPages
  rw [List.map_flatMap, List.flatMap_def, hpages, List.length_map,
    List.take_of_length_le htotal]

/-- Pages are exact as soon as the hosts are that they are cut from. -/
theorem AllPages.exact {limit : Nat} {pages : List Answer} (h : AllPages limit pages)
    {whole : List Host}
    (hshows : ∀ answer ∈ pages,
      Shows (app.staleness answer.clock filters.staleDays) whole answer)
    (hwhole : HostsExact (app.content (callerScope principal) filters) query whole) :
    PagesExact app principal filters query pages := by
  have hhosts := h.hosts fun answer hanswer => ⟨_, hshows answer hanswer⟩
  subst hhosts
  constructor
  · exact hostsExact_unaged.1 hwhole
  · intro answer hanswer
    rw [(hshows answer hanswer).total, List.length_map]
  · intro answer hanswer
    rw [(hshows answer hanswer).stale, List.countP_map]
    rfl
  · intro answer hanswer severity
    have hmap : ((overPages pages).map Host.unaged).map severityOf =
        (overPages pages).map severityOf := by
      rw [List.map_map]
      rfl
    rw [(hshows answer hanswer).severities, get?_counter, hmap]

/-- When the first row of every asset has its highest score, the answers are exact. -/
theorem answersExact_of_firstHighest
    (h : Complete (app.content (callerScope principal) filters) query →
      FirstSourced (app.content (callerScope principal) filters) query →
        FirstHighest (app.content (callerScope principal) filters) query) :
    AnswersExact app principal filters query := by
  refine fun events => ⟨fun answer hanswer => ?_, fun limit pages hpages hall => ?_⟩
  · obtain ⟨search, ⟨hscope, _⟩, heq⟩ := served_of_mem_answers hanswer
    rw [heq]
    rw [heq] at hscope
    exact hscope
  · obtain ⟨answer, hanswer⟩ := List.exists_mem_of_ne_nil pages hall.asked
    have hserved := fun answer hanswer => served_of_mem_answers (hpages answer hanswer).1
    obtain ⟨hcomplete, hsourced, whole, hwhole, _⟩ :=
      (hpages answer hanswer).2.shows (hserved answer hanswer)
    refine hall.exact (fun other hother => ?_)
      ((hostsExact_iff hwhole hcomplete).2 (h hcomplete hsourced))
    obtain ⟨_, _, whole', hwhole', hshow⟩ := (hpages other hother).2.shows (hserved other hother)
    rw [hwhole] at hwhole'
    rw [Option.some.inj hwhole']
    exact hshow

/-- One call and the end of its search. -/
theorem answers_one {call : Call} {found : Found}
    (h : searchHosts (app.staleness 0 call.filters.staleDays)
      (app.content (callerScope call.principal) call.filters) (strip call.query) = some found) :
    Mcp.answers app [.call call 0, .finished (keyOf tables call) 0 0 false] =
      [answerOf call ⟨call.principal, 0, found⟩] := by
  let task : Task := ⟨call.principal, strip call.query, call.filters, [call]⟩
  have hget : (SearchCache.initial.join (keyOf tables call) call).pending.get?
      (keyOf tables call) = some task := by
    unfold SearchCache.join
    rw [Dict.get?_set, if_pos rfl]
    rfl
  have hcompute : task.compute app 0 = some ⟨call.principal, 0, found⟩ := by
    unfold Task.compute
    rw [h]
    rfl
  have hfinished : Mcp.step app (SearchCache.initial.join (keyOf tables call) call)
      (.finished (keyOf tables call) 0 0 false) =
        (SearchCache.initial.join (keyOf tables call) call).finish (keyOf tables call) task 0
          (some ⟨call.principal, 0, found⟩) := by
    unfold Mcp.step
    dsimp only
    rw [hget]
    dsimp only
    rw [hcompute, if_neg Bool.false_ne_true]
  have hcall : Mcp.step app SearchCache.initial (.call call 0) =
      SearchCache.initial.join (keyOf tables call) call := rfl
  unfold Mcp.answers
  rw [Runs.run_cons, Runs.run_cons, Runs.run_nil, hcall, hfinished]
  rfl

/-- Answers are exact only when the first row of every asset has its highest score. -/
theorem firstHighest_of_answersExact (h : AnswersExact app principal filters query)
    (hcomplete : Complete (app.content (callerScope principal) filters) query)
    (hsourced : FirstSourced (app.content (callerScope principal) filters) query) :
    FirstHighest (app.content (callerScope principal) filters) query := by
  obtain ⟨found, hfound⟩ : ∃ found, searchHosts (app.staleness 0 filters.staleDays)
      (app.content (callerScope principal) filters) query = some found :=
    Option.isSome_iff_exists.1 ((searchHosts_isSome_iff hcomplete).2 hsourced)
  let call : Call := ⟨principal, query, filters, found.hosts.length, 0⟩
  have hone : Mcp.answers app [.call call 0, .finished (keyOf tables call) 0 0 false] =
      [answerOf call ⟨principal, 0, found⟩] :=
    answers_one ((searchHosts_congr (needle_strip query)).trans hfound)
  have hexact : ExactAnswer tables principal filters query
      (answerOf call ⟨principal, 0, found⟩) := by
    rw [searchHosts_complete hcomplete] at hfound
    obtain ⟨hosts, _, rfl⟩ := Option.map_eq_some_iff.1 hfound
    exact ⟨rfl, rfl, rfl, rfl, rfl⟩
  have hall : AllPages found.hosts.length [answerOf call ⟨principal, 0, found⟩] := by
    refine ⟨List.cons_ne_nil _ _, fun i answer hanswer => ?_, fun answer hanswer => ?_⟩
    · cases i with
      | zero =>
          cases hanswer
          exact ⟨rfl, (Nat.zero_mul _).symm⟩
      | succ i => cases hanswer
    · rw [List.mem_singleton.1 hanswer, List.length_singleton, Nat.one_mul]
      exact Nat.le_refl _
  have hpages := (h _).2 _ _ (fun answer hanswer => ⟨hone ▸ hanswer, by
    rw [List.mem_singleton.1 hanswer]
    exact hexact⟩) hall
  have hhosts : overPages [answerOf call ⟨principal, 0, found⟩] = found.hosts := by
    unfold overPages
    rw [List.flatMap_singleton]
    exact List.take_of_length_le (Nat.le_refl _)
  rw [← hostsExact_iff hfound hcomplete, ← hhosts]
  exact hpages.hosts

/--
The answers to a query are exact if and only if the first row of every asset has its highest score,
under limits that are not reached and as far as the search does not fail.
-/
theorem find_hosts_exact_iff (app : Application tables) (principal : Option Principal)
    (filters : Filters) (query : String) :
    AnswersExact app principal filters query ↔
      (Complete (app.content (callerScope principal) filters) query →
        FirstSourced (app.content (callerScope principal) filters) query →
          FirstHighest (app.content (callerScope principal) filters) query) :=
  ⟨firstHighest_of_answersExact, answersExact_of_firstHighest⟩

end Query

end System

theorem clean_web : strip "web" = "web" ∧ "web" ≠ "" := by
  decide +kernel

theorem clean_first : strip "id:V-1" = "id:V-1" ∧ "id:V-1" ≠ "" := by
  decide +kernel

theorem clean_second : strip "id:V-2" = "id:V-2" ∧ "id:V-2" ≠ "" := by
  decide +kernel

/-- The host `web` with some score. -/
def scoredHost (score : Rat) : HostRow where
  assetId := "web"
  displayName := some "web"
  severity := some "high"
  cvssScore := some score
  sources := ["os"]
  lastSeen := none
  clean := clean_web

/-- Two vulnerabilities of one CVE on one host: the second has the higher score there. -/
def twoScores : Content CharTables.ascii where
  vulnerabilities :=
    [⟨"id:V-1", some "V-1", some "CVE-2024-1", none, clean_first⟩,
      ⟨"id:V-2", some "V-2", some "CVE-2024-1", none, clean_second⟩]
  hosts := fun selector => if selector = "id:V-1" then [scoredHost 5] else [scoredHost 9]
  listed := fun _ _ => true
  finds := fun _ _ _ _ => rfl

theorem named_twoScores :
    twoScores.named "CVE-2024-1" = twoScores.vulnerabilities := by
  have hall : twoScores.vulnerabilities.all
      (fun row => decide (Named CharTables.ascii row "CVE-2024-1")) = true := by
    decide +kernel
  exact List.filter_eq_self.2 (List.all_eq_true.1 hall)

theorem rows_twoScores :
    twoScores.rows "CVE-2024-1" = [scoredHost 5, scoredHost 9] := by
  unfold Content.rows
  rw [named_twoScores]
  rfl

/-- The host keeps the score of the vulnerability that is listed first. -/
theorem first_score_stays :
    ¬ AnswersExact ⟨fun _ _ => twoScores, fun _ _ _ => none⟩ (some ⟨1, none⟩)
      ⟨none, none, none, 14⟩ "CVE-2024-1" := by
  intro h
  have hcomplete : Complete twoScores "CVE-2024-1" := by
    refine ⟨by decide +kernel, ?_, ?_, ?_⟩
    · rw [named_twoScores]
      exact List.cons_ne_nil _ _
    · rw [named_twoScores]
      decide
    · rw [named_twoScores]
      decide +kernel
  have hsourced : FirstSourced twoScores "CVE-2024-1" := by
    intro assetId first second rest hrows hnil
    have hfirst : first ∈ twoScores.rows "CVE-2024-1" :=
      List.mem_of_mem_filter (hrows ▸ List.mem_cons_self)
    rw [rows_twoScores] at hfirst
    rcases List.mem_pair.1 hfirst with rfl | rfl
    · cases hnil
    · cases hnil
  have hrows : rowsOf (twoScores.rows "CVE-2024-1") "web" = [scoredHost 5, scoredHost 9] := by
    rw [rows_twoScores]
    rfl
  have hhighest := firstHighest_of_answersExact h hcomplete hsourced "web" (scoredHost 5)
    (by rw [hrows]; rfl) (scoredHost 9) (by rw [hrows]; exact List.mem_cons_of_mem _ (by simp))
  obtain ⟨value, hvalue, hle⟩ := hhighest 9 rfl
  cases hvalue
  exact absurd hle (by decide +kernel)

end Mcp
end MpvmApp
