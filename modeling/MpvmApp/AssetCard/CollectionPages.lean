import Mathlib.Logic.Function.Iterate
import MpvmApp.Lib.Dict
import MpvmApp.Lib.Pages
import MpvmApp.Lib.Sorted
import MpvmApp.Sql.Text

/-!
# The pages of tree collections

The collections of a level of the card tree are loaded together.  The first pages are asked for
at once; as long as a collection has no reported count its next page is asked for after the one
before, and as soon as it has one all of its pages that are left are asked for.  A page that fails
or is short ends its collection.

Main definitions:

- Definition `fetchCollectionSpecs`: the rounds of requests for some collections.
- Definition `CollectionState.truncated`: the flag of a collection.
- Definition `requestsOf`: the requests for one collection, by the answers to them.

Main results:

- Theorem `exists_fetched`: the rounds end, with the answers to these requests.
- Theorem `untruncated_exact_iff`: when collections without the flag are exact.
-/

namespace MpvmApp
namespace AssetCard

open Pages

/-! ## Requests and answers -/

/-- A collection that is to be loaded. -/
structure CollectionSpec where
  parentType : String
  objectId : String
  name : String
  path : String
deriving DecidableEq

/-- The limits of a build; the request schemas have them positive. -/
structure CollectionLimits where
  limitPerCollection : Nat
  maxItems : Nat
  limit_pos : 0 < limitPerCollection
  maxItems_pos : 0 < maxItems

/-- The items of a page and the count that it reports. -/
structure CollectionPage (ι : Type) where
  items : List ι
  count : Option Int

/-- The API: the page of a collection at an offset, of at most a size. -/
abbrev CollectionRemote (ι : Type) :=
  CollectionSpec → (offset limit : Nat) → Except String (CollectionPage ι)

/-- What is known of a collection while it is loaded. -/
structure CollectionState (ι : Type) where
  pages : Dict Nat (List ι) := Dict.empty
  reportedCount : Option Int := none
  nextOffset : Nat := 0
  done : Bool := true

/-- `page_size`. -/
def CollectionLimits.pageSize (limits : CollectionLimits) : Nat :=
  max 1 (min limits.limitPerCollection limits.maxItems)

/-- The first page of a collection. -/
def openCollection {ι : Type} (limits : CollectionLimits) :
    Except String (CollectionPage ι) → CollectionState ι
  | .error _ => {}
  | .ok page =>
      { pages := Dict.empty.set 0 page.items
        reportedCount := page.count
        nextOffset := page.items.length
        done := page.items.isEmpty || decide (page.items.length < limits.pageSize) }

/-- `target`. -/
def CollectionLimits.target (limits : CollectionLimits) : Option Int → Nat
  | some count => min limits.maxItems count.toNat
  | none => limits.maxItems

/-- The requests for all pages from an offset up to a target; `fuel` bounds their number. -/
def requestsUpTo (limit target : Nat) : Nat → Nat → List (Nat × Nat)
  | 0, _ => []
  | fuel + 1, offset =>
      if offset < target then
        (offset, min limit (target - offset)) ::
          requestsUpTo limit target fuel (offset + min limit (target - offset))
      else []

/-- The requests of a round for a collection. -/
def CollectionState.requests {ι : Type} (limits : CollectionLimits) (s : CollectionState ι) :
    List (Nat × Nat) :=
  let target := limits.target s.reportedCount
  if s.done || decide (target ≤ s.nextOffset) then []
  else if s.reportedCount.isSome then
    requestsUpTo limits.limitPerCollection target target s.nextOffset
  else [(s.nextOffset, min limits.limitPerCollection (target - s.nextOffset))]

/-- The requests of a round end a collection with a known count, or one that is at its target. -/
def CollectionState.scheduled {ι : Type} (limits : CollectionLimits) (s : CollectionState ι) :
    CollectionState ι :=
  { s with
    done := s.done || decide (limits.target s.reportedCount ≤ s.nextOffset) ||
      s.reportedCount.isSome }

/-- The answer to a request. -/
def CollectionState.receive {ι : Type} (answer : Nat → Nat → Except String (CollectionPage ι))
    (s : CollectionState ι) (request : Nat × Nat) : CollectionState ι :=
  match answer request.1 request.2 with
  | .error _ => { s with done := true }
  | .ok page =>
      { pages := s.pages.set request.1 page.items
        reportedCount := page.count.orElse fun _ => s.reportedCount
        nextOffset := request.1 + page.items.length
        done := s.done || page.items.isEmpty || decide (page.items.length < request.2) }

/-- A round for one collection. -/
def CollectionState.round {ι : Type} (limits : CollectionLimits)
    (answer : Nat → Nat → Except String (CollectionPage ι)) (s : CollectionState ι) :
    CollectionState ι :=
  (s.requests limits).foldl (CollectionState.receive answer) (s.scheduled limits)

/-- The rounds for some collections, unless the bound is used up. -/
def collectionRounds {ι : Type} (limits : CollectionLimits) (remote : CollectionRemote ι) :
    Nat → List (CollectionSpec × CollectionState ι) →
      Option (List (CollectionSpec × CollectionState ι))
  | 0, _ => none
  | fuel + 1, states =>
      if states.all fun entry => (entry.2.requests limits).isEmpty then some states
      else
        collectionRounds limits remote fuel
          (states.map fun entry => (entry.1, entry.2.round limits (remote entry.1)))

/-- `fetch_collection_specs`. -/
def fetchCollectionSpecs {ι : Type} (limits : CollectionLimits) (remote : CollectionRemote ι)
    (specs : List CollectionSpec) (fuel : Nat) :
    Option (List (CollectionSpec × CollectionState ι)) :=
  collectionRounds limits remote fuel
    (specs.map fun spec => (spec, openCollection limits (remote spec 0 limits.pageSize)))

/-- The items of a collection: its pages by their offsets, up to the limit. -/
def CollectionState.items {ι : Type} (limits : CollectionLimits) (s : CollectionState ι) :
    List ι :=
  ((sortOn Prod.fst s.pages.items).flatMap Prod.snd).take limits.maxItems

/-- `spec["truncated"]`. -/
def CollectionState.truncated {ι : Type} (limits : CollectionLimits) (s : CollectionState ι) :
    Bool :=
  match s.reportedCount with
  | some count => decide (((s.items limits).length : Int) < count)
  | none => decide (limits.maxItems ≤ (s.items limits).length)

/-! ## Servers -/

/-- A page of a server: where in the collection it starts, how many items it asks for, and the
count that it reports. -/
structure CollectionReply where
  start : Nat
  length : Nat
  count : Option Int
deriving DecidableEq

/-- The answers of a server for one collection. -/
abbrev CollectionScript := (offset limit : Nat) → Except String CollectionReply

/-- The part of a collection with `n` items that a reply holds. -/
def CollectionReply.span (n : Nat) (reply : CollectionReply) : Span where
  start := reply.start
  count := min reply.length (n - reply.start)

/-- The items of a collection, with their places in it. -/
def placed {ι : Type} (server : CollectionSpec → List ι) (spec : CollectionSpec) :
    List (ι × Nat) :=
  (server spec).zipIdx

/-- The pages of a server: each is some part of the collection. -/
def serveCollections {ι : Type} (server : CollectionSpec → List ι)
    (script : CollectionSpec → CollectionScript) : CollectionRemote (ι × Nat) :=
  fun spec offset limit =>
    (script spec offset limit).map fun reply =>
      { items := (reply.span (server spec).length).cut (placed server spec)
        count := reply.count }

/-! ## The requests for one collection -/

/-- The requests for a collection with `n` items from one on.  A failed, empty or short page
is the last; behind another one all pages up to the target are asked for when it reports a count,
else the next one. -/
def requestsOf (limits : CollectionLimits) (script : CollectionScript) (n : Nat) :
    Nat → Nat → Nat → List (Nat × Nat)
  | 0, _, _ => []
  | fuel + 1, offset, limit =>
      (offset, limit) ::
        match script offset limit with
        | .error _ => []
        | .ok reply =>
            let rows := (reply.span n).count
            if rows = 0 ∨ rows < limit then []
            else
              match reply.count with
              | some count =>
                  requestsUpTo limits.limitPerCollection (limits.target (some count))
                    (limits.target (some count)) (offset + rows)
              | none =>
                  if offset + rows < limits.maxItems then
                    requestsOf limits script n fuel (offset + rows)
                      (min limits.limitPerCollection (limits.maxItems - (offset + rows)))
                  else []

/-- The pages that are answered. -/
def answered (script : CollectionScript) (requests : List (Nat × Nat)) : List CollectionReply :=
  requests.filterMap fun request => (script request.1 request.2).toOption

/-- The pages that a collection with `n` items is given. -/
def repliesOf (limits : CollectionLimits) (script : CollectionScript) (n : Nat) :
    List CollectionReply :=
  answered script (requestsOf limits script n (limits.maxItems + 1) 0 limits.pageSize)

/-- The last count that replies report. -/
def lastCount (replies : List CollectionReply) : Option Int :=
  replies.foldl (fun count reply => reply.count.orElse fun _ => count) none

/-- The replies fall short of the last reported count, or reach the limit when there is none. -/
def FallsShort (limits : CollectionLimits) (n : Nat) (replies : List CollectionReply) : Prop :=
  match lastCount replies with
  | some count =>
      (min limits.maxItems (counted (replies.map (CollectionReply.span n))) : Nat) < count
  | none => limits.maxItems ≤ counted (replies.map (CollectionReply.span n))

/-- The replies up to the limit lie one behind another, from the start of the collection to its
end. -/
def CoversInOrder (limits : CollectionLimits) (n : Nat) (replies : List CollectionReply) : Prop :=
  Tiles n 0 (clip limits.maxItems (replies.map (CollectionReply.span n)))

/-! ## The answers to requests -/

section Collecting

variable {ι : Type} {limits : CollectionLimits} {script : CollectionScript} {xs : List ι}

/-- The answers of one collection. -/
def answersOf (script : CollectionScript) (xs : List ι) (offset limit : Nat) :
    Except String (CollectionPage ι) :=
  (script offset limit).map fun reply =>
    { items := (reply.span xs.length).cut xs, count := reply.count }

/-- The pages that requests give. -/
def pagesOf (script : CollectionScript) (xs : List ι) (requests : List (Nat × Nat)) :
    List (Nat × List ι) :=
  requests.filterMap fun request =>
    (script request.1 request.2).toOption.map fun reply =>
      (request.1, (reply.span xs.length).cut xs)

/-- A collection that has been given the answers to some requests. -/
structure Collected (script : CollectionScript) (xs : List ι) (requests : List (Nat × Nat))
    (s : CollectionState ι) : Prop where
  pages : s.pages.items = pagesOf script xs requests
  count : s.reportedCount = lastCount (answered script requests)

theorem fst_mem_of_mem_pagesOf {requests : List (Nat × Nat)} {offset : Nat}
    (h : offset ∈ (pagesOf script xs requests).map Prod.fst) :
    ∃ request ∈ requests, request.1 = offset := by
  obtain ⟨page, hpage, rfl⟩ := List.mem_map.1 h
  obtain ⟨request, hrequest, hmap⟩ := List.mem_filterMap.1 hpage
  obtain ⟨reply, _, rfl⟩ := Option.map_eq_some_iff.1 hmap
  exact ⟨request, hrequest, rfl⟩

@[simp]
theorem pagesOf_append (front back : List (Nat × Nat)) :
    pagesOf script xs (front ++ back) = pagesOf script xs front ++ pagesOf script xs back :=
  List.filterMap_append

@[simp]
theorem answered_append (front back : List (Nat × Nat)) :
    answered script (front ++ back) = answered script front ++ answered script back :=
  List.filterMap_append

theorem pagesOf_singleton_error {request : Nat × Nat} {message : String}
    (h : script request.1 request.2 = .error message) :
    pagesOf script xs [request] = [] := by
  rw [pagesOf, List.filterMap_cons_none, List.filterMap_nil]
  rw [h]
  rfl

theorem pagesOf_singleton_ok {request : Nat × Nat} {reply : CollectionReply}
    (h : script request.1 request.2 = .ok reply) :
    pagesOf script xs [request] = [(request.1, (reply.span xs.length).cut xs)] := by
  rw [pagesOf, List.filterMap_cons_some, List.filterMap_nil]
  rw [h]
  rfl

theorem answered_singleton_error {request : Nat × Nat} {message : String}
    (h : script request.1 request.2 = .error message) :
    answered script [request] = [] := by
  rw [answered, List.filterMap_cons_none, List.filterMap_nil]
  rw [h]
  rfl

theorem answered_singleton_ok {request : Nat × Nat} {reply : CollectionReply}
    (h : script request.1 request.2 = .ok reply) :
    answered script [request] = [reply] := by
  rw [answered, List.filterMap_cons_some, List.filterMap_nil]
  rw [h]
  rfl

/-- The answer to one more request. -/
theorem Collected.receive {requests : List (Nat × Nat)} {s : CollectionState ι}
    (h : Collected script xs requests s) {request : Nat × Nat}
    (hnew : ∀ earlier ∈ requests, earlier.1 < request.1) :
    Collected script xs (requests ++ [request]) (s.receive (answersOf script xs) request) := by
  unfold CollectionState.receive answersOf
  cases hreply : script request.1 request.2 with
  | error message =>
      refine ⟨?_, ?_⟩
      · rw [pagesOf_append, pagesOf_singleton_error hreply, List.append_nil]
        exact h.pages
      · rw [answered_append, answered_singleton_error hreply, List.append_nil]
        exact h.count
  | ok reply =>
      have hkey : request.1 ∉ s.pages.items.map Prod.fst := by
        rw [h.pages]
        intro hmem
        obtain ⟨earlier, hearlier, heq⟩ := fst_mem_of_mem_pagesOf hmem
        exact absurd heq (Nat.ne_of_lt (hnew earlier hearlier))
      refine ⟨?_, ?_⟩
      · rw [pagesOf_append, pagesOf_singleton_ok hreply, ← h.pages]
        exact Dict.items_set_of_notMem hkey _
      · rw [answered_append, answered_singleton_ok hreply, lastCount, List.foldl_append,
          ← lastCount, ← h.count]
        rfl

/-- The answers to more requests. -/
theorem Collected.foldl_receive {requests more : List (Nat × Nat)} {s : CollectionState ι}
    (h : Collected script xs requests s)
    (hnew : ∀ earlier ∈ requests, ∀ request ∈ more, earlier.1 < request.1)
    (hascend : more.Pairwise fun a b => a.1 < b.1) :
    Collected script xs (requests ++ more)
      (more.foldl (CollectionState.receive (answersOf script xs)) s) := by
  induction more generalizing requests s with
  | nil => simpa using h
  | cons request more ih =>
      have hfirst := h.receive fun earlier hearlier =>
        hnew earlier hearlier request List.mem_cons_self
      rw [List.pairwise_cons] at hascend
      rw [List.foldl_cons, List.append_cons]
      refine ih hfirst ?_ hascend.2
      intro earlier hearlier later hlater
      rcases List.mem_append.1 hearlier with hold | hnow
      · exact hnew earlier hold later (List.mem_cons_of_mem _ hlater)
      · rw [List.mem_singleton.1 hnow]
        exact hascend.1 later hlater

theorem Collected.scheduled {requests : List (Nat × Nat)} {s : CollectionState ι}
    (h : Collected script xs requests s) :
    Collected script xs requests (s.scheduled limits) :=
  ⟨h.pages, h.count⟩

/-! ## Requests up to a target -/

theorem le_of_mem_requestsUpTo {limit target fuel offset : Nat} {request : Nat × Nat}
    (h : request ∈ requestsUpTo limit target fuel offset) :
    offset ≤ request.1 := by
  induction fuel generalizing offset with
  | zero => cases h
  | succ fuel ih =>
      rw [requestsUpTo] at h
      split at h
      · rcases List.mem_cons.1 h with rfl | hlater
        · exact Nat.le_refl _
        · exact Nat.le_trans (Nat.le_add_right _ _) (ih hlater)
      · cases h

theorem pairwise_requestsUpTo {limit : Nat} (hlimit : 0 < limit) (target fuel offset : Nat) :
    (requestsUpTo limit target fuel offset).Pairwise fun a b => a.1 < b.1 := by
  induction fuel generalizing offset with
  | zero => exact List.Pairwise.nil
  | succ fuel ih =>
      rw [requestsUpTo]
      split
      · rename_i hroom
        refine List.pairwise_cons.2 ⟨?_, ih _⟩
        intro request hrequest
        have hle := le_of_mem_requestsUpTo hrequest
        have hstep : 0 < min limit (target - offset) := Nat.lt_min.2 ⟨hlimit, by omega⟩
        omega
      · exact List.Pairwise.nil

theorem requestsUpTo_eq_nil_iff {limit target offset : Nat} :
    requestsUpTo limit target target offset = [] ↔ target ≤ offset := by
  cases target with
  | zero => simp [requestsUpTo]
  | succ target =>
      rw [requestsUpTo]
      split
      · rename_i hroom
        simp only [reduceCtorEq, false_iff]
        omega
      · rename_i hroom
        simp only [true_iff]
        omega

/-! ## Collections that ask for nothing more -/

theorem requests_eq_nil_iff {s : CollectionState ι} :
    s.requests limits = [] ↔ s.done = true ∨ limits.target s.reportedCount ≤ s.nextOffset := by
  unfold CollectionState.requests
  dsimp only
  split
  · rename_i hidle
    simpa using hidle
  · rename_i hbusy
    rw [Bool.or_eq_true, decide_eq_true_iff] at hbusy
    refine iff_of_false ?_ hbusy
    split
    · rw [requestsUpTo_eq_nil_iff]
      exact fun hle => hbusy (.inr hle)
    · exact List.cons_ne_nil _ _

theorem round_of_requests_eq_nil (answer : Nat → Nat → Except String (CollectionPage ι))
    {s : CollectionState ι} (h : s.requests limits = []) :
    (s.round limits answer).pages = s.pages ∧
      (s.round limits answer).reportedCount = s.reportedCount ∧
      (s.round limits answer).requests limits = [] := by
  have hround : s.round limits answer = s.scheduled limits := by
    rw [CollectionState.round, h]
    rfl
  rw [hround]
  refine ⟨rfl, rfl, requests_eq_nil_iff.2 (.inl ?_)⟩
  rcases requests_eq_nil_iff.1 h with hdone | htarget
  · simp [CollectionState.scheduled, hdone]
  · simp [CollectionState.scheduled, htarget]

theorem iterate_round_of_requests_eq_nil
    (answer : Nat → Nat → Except String (CollectionPage ι)) {s : CollectionState ι}
    (h : s.requests limits = []) (more : Nat) :
    ((CollectionState.round limits answer)^[more] s).pages = s.pages ∧
      ((CollectionState.round limits answer)^[more] s).reportedCount = s.reportedCount ∧
      ((CollectionState.round limits answer)^[more] s).requests limits = [] := by
  induction more with
  | zero => exact ⟨rfl, rfl, h⟩
  | succ more ih =>
      obtain ⟨hpages, hcount, hrequests⟩ := ih
      rw [Function.iterate_succ_apply']
      obtain ⟨hpages', hcount', hrequests'⟩ :=
        round_of_requests_eq_nil answer hrequests
      exact ⟨hpages'.trans hpages, hcount'.trans hcount, hrequests'⟩

end Collecting

/-! ## The rounds of one collection -/

section Rounds

variable {ι : Type} {limits : CollectionLimits} {script : CollectionScript} {xs : List ι}

theorem done_foldl_receive {answer : Nat → Nat → Except String (CollectionPage ι)}
    {requests : List (Nat × Nat)} {s : CollectionState ι} (h : s.done = true) :
    (requests.foldl (CollectionState.receive answer) s).done = true := by
  induction requests generalizing s with
  | nil => exact h
  | cons request requests ih =>
      refine ih ?_
      unfold CollectionState.receive
      split
      · rfl
      · simp [h]

theorem round_of_unknown (answer : Nat → Nat → Except String (CollectionPage ι))
    {s : CollectionState ι} (hdone : s.done = false) (hcount : s.reportedCount = none)
    (hroom : s.nextOffset < limits.maxItems) :
    s.round limits answer =
      s.receive answer
        (s.nextOffset, min limits.limitPerCollection (limits.maxItems - s.nextOffset)) := by
  have hbefore : decide (limits.maxItems ≤ s.nextOffset) = false :=
    decide_eq_false (Nat.not_le.2 hroom)
  have hscheduled : s.scheduled limits = s := by
    obtain ⟨pages, reportedCount, nextOffset, done⟩ := s
    simp only at hdone hcount hbefore
    simp [CollectionState.scheduled, hdone, hcount, CollectionLimits.target, hbefore]
  have hrequests : s.requests limits =
      [(s.nextOffset, min limits.limitPerCollection (limits.maxItems - s.nextOffset))] := by
    simp [CollectionState.requests, hdone, hcount, CollectionLimits.target, hbefore]
  rw [CollectionState.round, hrequests, hscheduled]
  rfl

theorem round_of_known (answer : Nat → Nat → Except String (CollectionPage ι))
    {s : CollectionState ι} {count : Int} (hdone : s.done = false)
    (hcount : s.reportedCount = some count) (hroom : s.nextOffset < limits.target (some count)) :
    s.round limits answer =
      (requestsUpTo limits.limitPerCollection (limits.target (some count))
        (limits.target (some count)) s.nextOffset).foldl (CollectionState.receive answer)
        (s.scheduled limits) := by
  have hbefore : decide (limits.target (some count) ≤ s.nextOffset) = false :=
    decide_eq_false (Nat.not_le.2 hroom)
  have hrequests : s.requests limits =
      requestsUpTo limits.limitPerCollection (limits.target (some count))
        (limits.target (some count)) s.nextOffset := by
    simp [CollectionState.requests, hdone, hcount, hbefore]
  rw [CollectionState.round, hrequests]

/-- The rounds of a collection without a count end with the answers to its requests. -/
theorem exists_idle_of_unknown {fuel : Nat} {s : CollectionState ι} {requests : List (Nat × Nat)}
    (hcollected : Collected script xs requests s)
    (hearlier : ∀ request ∈ requests, request.1 < s.nextOffset) (hdone : s.done = false)
    (hcount : s.reportedCount = none) (hroom : s.nextOffset < limits.maxItems)
    (hfuel : limits.maxItems ≤ s.nextOffset + fuel) :
    ∃ rounds ≤ fuel + 1,
      Collected script xs
          (requests ++ requestsOf limits script xs.length fuel s.nextOffset
            (min limits.limitPerCollection (limits.maxItems - s.nextOffset)))
          ((CollectionState.round limits (answersOf script xs))^[rounds] s) ∧
        ((CollectionState.round limits (answersOf script xs))^[rounds] s).requests limits = [] := by
  induction fuel generalizing s requests with
  | zero => omega
  | succ fuel ih =>
      have hround := round_of_unknown (answersOf script xs) hdone hcount hroom
      generalize hlimit : min limits.limitPerCollection (limits.maxItems - s.nextOffset) = limit
        at hround ⊢
      have hreceived : Collected script xs (requests ++ [(s.nextOffset, limit)])
          (s.receive (answersOf script xs) (s.nextOffset, limit)) :=
        hcollected.receive hearlier
      rw [← hround] at hreceived
      rw [requestsOf]
      cases hreply : script s.nextOffset limit with
      | error message =>
          refine ⟨1, by omega, hreceived, requests_eq_nil_iff.2 (.inl ?_)⟩
          rw [Function.iterate_one, hround, CollectionState.receive, answersOf, hreply]
          rfl
      | ok reply =>
          dsimp only
          have hlength : ((reply.span xs.length).cut xs).length = (reply.span xs.length).count :=
            Span.length_cut (Nat.min_le_right _ _)
          have hempty : ((reply.span xs.length).cut xs).isEmpty =
              decide ((reply.span xs.length).count = 0) := by
            rw [← hlength, Bool.eq_iff_iff, List.isEmpty_iff, decide_eq_true_iff,
              List.length_eq_zero_iff]
          have hafter : s.round limits (answersOf script xs) =
              { pages := s.pages.set s.nextOffset ((reply.span xs.length).cut xs)
                reportedCount := reply.count.orElse fun _ => s.reportedCount
                nextOffset := s.nextOffset + (reply.span xs.length).count
                done := s.done || decide ((reply.span xs.length).count = 0) ||
                  decide ((reply.span xs.length).count < limit) } := by
            rw [hround, CollectionState.receive, answersOf, hreply]
            dsimp only [Except.map]
            rw [hempty, hlength]
          by_cases hshort : (reply.span xs.length).count = 0 ∨ (reply.span xs.length).count < limit
          · -- an empty or short page
            rw [if_pos hshort]
            refine ⟨1, by omega, hreceived, requests_eq_nil_iff.2 (.inl ?_)⟩
            rw [Function.iterate_one, hafter]
            rcases hshort with hzero | hlt
            · simp [hzero]
            · simp [hlt]
          · rw [if_neg hshort]
            push Not at hshort
            obtain ⟨hrows, hfull⟩ := hshort
            have hopen : (s.round limits (answersOf script xs)).done = false := by
              rw [hafter]
              simp [hdone, hrows, hfull]
            have hnext : (s.round limits (answersOf script xs)).nextOffset =
                s.nextOffset + (reply.span xs.length).count := by
              rw [hafter]
            have hearlier' : ∀ request ∈ requests ++ [(s.nextOffset, limit)],
                request.1 < s.nextOffset + (reply.span xs.length).count := by
              intro request hrequest
              rcases List.mem_append.1 hrequest with hold | hnow
              · have := hearlier request hold
                omega
              · rw [List.mem_singleton.1 hnow]
                dsimp only
                omega
            cases hknown : reply.count with
            | some count =>
                -- the rest is asked for at once
                have hcount' : (s.round limits (answersOf script xs)).reportedCount =
                    some count := by
                  rw [hafter, hknown]
                  rfl
                dsimp only
                by_cases htarget : limits.target (some count) ≤
                    s.nextOffset + (reply.span xs.length).count
                · rw [requestsUpTo_eq_nil_iff.2 htarget]
                  refine ⟨1, by omega, hreceived, requests_eq_nil_iff.2 (.inr ?_)⟩
                  rw [Function.iterate_one, hcount', hnext]
                  exact htarget
                · have hroom' : (s.round limits (answersOf script xs)).nextOffset <
                      limits.target (some count) := by
                    rw [hnext]
                    exact Nat.not_le.1 htarget
                  have hround' :=
                    round_of_known (answersOf script xs) hopen hcount' hroom'
                  have hlater : ∀ earlier ∈ requests ++ [(s.nextOffset, limit)],
                      ∀ request ∈ requestsUpTo limits.limitPerCollection
                        (limits.target (some count)) (limits.target (some count))
                        (s.round limits (answersOf script xs)).nextOffset,
                      earlier.1 < request.1 := by
                    intro earlier hmem request hrequest
                    have hle := le_of_mem_requestsUpTo hrequest
                    rw [hnext] at hle
                    exact Nat.lt_of_lt_of_le (hearlier' earlier hmem) hle
                  have hscheduled : Collected script xs (requests ++ [(s.nextOffset, limit)])
                      ((s.round limits (answersOf script xs)).scheduled limits) :=
                    hreceived.scheduled
                  have hrest := hscheduled.foldl_receive hlater
                    (pairwise_requestsUpTo limits.limit_pos _ _ _)
                  rw [← hround', hnext, List.append_assoc] at hrest
                  refine ⟨2, by omega, hrest, requests_eq_nil_iff.2 (.inl ?_)⟩
                  have htwo : (CollectionState.round limits (answersOf script xs))^[2] s =
                      (s.round limits (answersOf script xs)).round limits (answersOf script xs) :=
                    rfl
                  rw [htwo, hround']
                  refine done_foldl_receive ?_
                  simp [CollectionState.scheduled, hcount']
            | none =>
                have hcount' : (s.round limits (answersOf script xs)).reportedCount = none := by
                  rw [hafter, hknown]
                  exact hcount
                dsimp only
                by_cases hroom' : s.nextOffset + (reply.span xs.length).count < limits.maxItems
                · -- the next page is asked for
                  rw [if_pos hroom']
                  obtain ⟨rounds, hle, hfinal, hidle⟩ := ih hreceived
                    (by rw [hnext]; exact hearlier') hopen hcount' (by rw [hnext]; exact hroom')
                    (by rw [hnext]; omega)
                  rw [hnext, List.append_assoc] at hfinal
                  exact ⟨rounds + 1, by omega, hfinal, hidle⟩
                · rw [if_neg hroom']
                  refine ⟨1, by omega, hreceived, requests_eq_nil_iff.2 (.inr ?_)⟩
                  rw [Function.iterate_one, hcount', hnext]
                  exact Nat.not_lt.1 hroom'

theorem openCollection_eq_round (answer : Nat → Nat → Except String (CollectionPage ι)) :
    openCollection limits (answer 0 limits.pageSize) =
      ({ done := false } : CollectionState ι).round limits answer := by
  have hsize : min limits.limitPerCollection (limits.maxItems - 0) = limits.pageSize := by
    have hlimit := limits.limit_pos
    have hmax := limits.maxItems_pos
    unfold CollectionLimits.pageSize
    omega
  rw [round_of_unknown answer rfl rfl limits.maxItems_pos]
  dsimp only
  rw [hsize, CollectionState.receive]
  cases answer 0 limits.pageSize with
  | error message => rfl
  | ok page =>
      rw [openCollection]
      simp

/-- The rounds of a collection end with the answers to its requests. -/
theorem exists_idle (limits : CollectionLimits) (script : CollectionScript) (xs : List ι) :
    ∃ rounds ≤ limits.maxItems + 1,
      Collected script xs
          (requestsOf limits script xs.length (limits.maxItems + 1) 0 limits.pageSize)
          ((CollectionState.round limits (answersOf script xs))^[rounds]
            (openCollection limits (answersOf script xs 0 limits.pageSize))) ∧
        ((CollectionState.round limits (answersOf script xs))^[rounds]
            (openCollection limits (answersOf script xs 0 limits.pageSize))).requests limits =
          [] := by
  have hsize : min limits.limitPerCollection (limits.maxItems - 0) = limits.pageSize := by
    have hlimit := limits.limit_pos
    have hmax := limits.maxItems_pos
    unfold CollectionLimits.pageSize
    omega
  have hstart : Collected script xs [] ({ done := false } : CollectionState ι) := ⟨rfl, rfl⟩
  have hroom : ({ done := false } : CollectionState ι).nextOffset < limits.maxItems :=
    limits.maxItems_pos
  have hfuel : limits.maxItems ≤
      ({ done := false } : CollectionState ι).nextOffset + (limits.maxItems + 1) := by
    dsimp only
    omega
  obtain ⟨rounds, hle, hfinal, hidle⟩ :=
    exists_idle_of_unknown hstart nofun rfl rfl hroom hfuel
  rw [hsize, List.nil_append] at hfinal
  cases rounds with
  | zero =>
      -- the first page is still to be asked for
      rw [requests_eq_nil_iff] at hidle
      rcases hidle with hdone | htarget
      · cases hdone
      · exact absurd limits.maxItems_pos (Nat.not_lt.2 htarget)
  | succ rounds =>
      rw [Function.iterate_succ_apply, ← openCollection_eq_round] at hfinal hidle
      exact ⟨rounds, by omega, hfinal, hidle⟩

end Rounds

/-! ## All collections -/

section All

variable {ι : Type} {limits : CollectionLimits} {remote : CollectionRemote ι}

/-- Rounds that end have gone on until no collection asks for more. -/
theorem exists_rounds_of_collectionRounds {fuel : Nat}
    {states result : List (CollectionSpec × CollectionState ι)}
    (h : collectionRounds limits remote fuel states = some result) :
    ∃ rounds,
      result = states.map (fun entry =>
        (entry.1, (CollectionState.round limits (remote entry.1))^[rounds] entry.2)) ∧
      ∀ entry ∈ result, entry.2.requests limits = [] := by
  induction fuel generalizing states with
  | zero => cases h
  | succ fuel ih =>
      rw [collectionRounds] at h
      split at h
      · rename_i hidle
        obtain rfl := Option.some.inj h
        refine ⟨0, ?_, ?_⟩
        · simp
        · intro entry hentry
          exact List.isEmpty_iff.1 (List.all_eq_true.1 hidle entry hentry)
      · obtain ⟨rounds, hresult, hidle⟩ := ih h
        refine ⟨rounds + 1, ?_, hidle⟩
        rw [hresult, List.map_map]
        rfl

/-- The rounds end when all collections come to ask for nothing more. -/
theorem exists_collectionRounds {rounds : Nat}
    {states : List (CollectionSpec × CollectionState ι)}
    (h : ∀ entry ∈ states,
      ((CollectionState.round limits (remote entry.1))^[rounds] entry.2).requests limits = []) :
    ∃ result, collectionRounds limits remote (rounds + 1) states = some result := by
  induction rounds generalizing states with
  | zero =>
      refine ⟨states, ?_⟩
      rw [collectionRounds, if_pos]
      rw [List.all_eq_true]
      exact fun entry hentry => List.isEmpty_iff.2 (h entry hentry)
  | succ rounds ih =>
      rw [collectionRounds]
      split
      · exact ⟨states, rfl⟩
      · refine ih ?_
        intro entry hentry
        obtain ⟨before, hbefore, rfl⟩ := List.mem_map.1 hentry
        exact h before hbefore

end All

section Servers

variable {ι : Type} {limits : CollectionLimits} {server : CollectionSpec → List ι}
  {script : CollectionSpec → CollectionScript}

theorem length_placed (spec : CollectionSpec) :
    (placed server spec).length = (server spec).length :=
  List.length_zipIdx

theorem serveCollections_eq (spec : CollectionSpec) :
    serveCollections server script spec = answersOf (script spec) (placed server spec) := by
  funext offset limit
  rw [serveCollections, answersOf, length_placed]

/-- The requests for one collection. -/
def requestsFor (limits : CollectionLimits) (script : CollectionScript) (n : Nat) :
    List (Nat × Nat) :=
  requestsOf limits script n (limits.maxItems + 1) 0 limits.pageSize

/-- The rounds end. -/
theorem exists_fetched (limits : CollectionLimits) (server : CollectionSpec → List ι)
    (script : CollectionSpec → CollectionScript) (specs : List CollectionSpec) :
    ∃ result, fetchCollectionSpecs limits (serveCollections server script) specs
      (limits.maxItems + 2) = some result := by
  refine exists_collectionRounds ?_
  intro entry hentry
  obtain ⟨spec, _, rfl⟩ := List.mem_map.1 hentry
  obtain ⟨rounds, hle, _, hidle⟩ := exists_idle limits (script spec) (placed server spec)
  rw [← serveCollections_eq] at hidle
  obtain ⟨more, hmore⟩ := Nat.exists_eq_add_of_le' hle
  rw [hmore, Function.iterate_add_apply]
  exact (iterate_round_of_requests_eq_nil _ hidle more).2.2

/-- Each collection is given the answers to its requests. -/
theorem collected_of_fetched {specs : List CollectionSpec} {fuel : Nat}
    {result : List (CollectionSpec × CollectionState (ι × Nat))}
    (h : fetchCollectionSpecs limits (serveCollections server script) specs fuel = some result) :
    result.map Prod.fst = specs ∧
      ∀ entry ∈ result, Collected (script entry.1) (placed server entry.1)
        (requestsFor limits (script entry.1) (server entry.1).length) entry.2 := by
  obtain ⟨rounds, hresult, hidle⟩ := exists_rounds_of_collectionRounds h
  rw [List.map_map] at hresult
  constructor
  · rw [hresult, List.map_map]
    exact (List.map_congr_left fun spec _ => rfl).trans (List.map_id specs)
  · intro entry hentry
    have hnone := hidle entry hentry
    rw [hresult] at hentry
    obtain ⟨spec, _, rfl⟩ := List.mem_map.1 hentry
    dsimp only [Function.comp] at hnone ⊢
    obtain ⟨enough, _, hfinal, hdone⟩ := exists_idle limits (script spec) (placed server spec)
    rw [← serveCollections_eq, length_placed] at hfinal
    rw [← serveCollections_eq] at hdone
    -- both numbers of rounds are enough
    have hpages := iterate_round_of_requests_eq_nil
      (serveCollections server script spec) hnone enough
    have hpages' := iterate_round_of_requests_eq_nil
      (serveCollections server script spec) hdone rounds
    rw [← Function.iterate_add_apply] at hpages hpages'
    rw [Nat.add_comm] at hpages
    exact ⟨(hpages.1.symm.trans hpages'.1 ▸ hfinal.pages), hpages.2.1.symm.trans
      (hpages'.2.1.trans hfinal.count)⟩

/-- The requests for a collection go up. -/
theorem pairwise_requestsOf {collection : CollectionScript} {n fuel offset limit : Nat} :
    (∀ request ∈ requestsOf limits collection n fuel offset limit, offset ≤ request.1) ∧
      (requestsOf limits collection n fuel offset limit).Pairwise fun a b => a.1 < b.1 := by
  induction fuel generalizing offset limit with
  | zero => exact ⟨nofun, List.Pairwise.nil⟩
  | succ fuel ih =>
      rw [requestsOf]
      have hone : (∀ request ∈ [(offset, limit)], offset ≤ request.1) ∧
          [(offset, limit)].Pairwise fun a b => a.1 < b.1 := by
        refine ⟨?_, List.pairwise_singleton _ _⟩
        intro request hrequest
        rw [List.mem_singleton.1 hrequest]
      have hcons : ∀ {later : Nat} {rest : List (Nat × Nat)}, offset < later →
          (∀ request ∈ rest, later ≤ request.1) → (rest.Pairwise fun a b => a.1 < b.1) →
          (∀ request ∈ (offset, limit) :: rest, offset ≤ request.1) ∧
            ((offset, limit) :: rest).Pairwise fun a b => a.1 < b.1 := by
        intro later rest hlater hle hrest
        refine ⟨?_, List.pairwise_cons.2 ⟨?_, hrest⟩⟩
        · intro request hrequest
          rcases List.mem_cons.1 hrequest with rfl | hmem
          · exact Nat.le_refl _
          · exact Nat.le_trans (Nat.le_of_lt hlater) (hle request hmem)
        · intro request hrequest
          exact Nat.lt_of_lt_of_le hlater (hle request hrequest)
      cases collection offset limit with
      | error message => exact hone
      | ok reply =>
          dsimp only
          by_cases hshort : (reply.span n).count = 0 ∨ (reply.span n).count < limit
          · rw [if_pos hshort]
            exact hone
          · rw [if_neg hshort]
            have hlater : offset < offset + (reply.span n).count := by
              push Not at hshort
              omega
            cases reply.count with
            | some count =>
                exact hcons hlater (fun request => le_of_mem_requestsUpTo)
                  (pairwise_requestsUpTo limits.limit_pos _ _ _)
            | none =>
                dsimp only
                split
                · exact hcons hlater ih.1 ih.2
                · exact hone

/-- The items of a collection are the parts that its replies hold, up to the limit. -/
theorem items_of_collected (limits : CollectionLimits) {collection : CollectionScript} {xs : List ι}
    {requests : List (Nat × Nat)} {s : CollectionState ι}
    (h : Collected collection xs requests s)
    (hascend : requests.Pairwise fun a b => a.1 < b.1) :
    s.items limits =
      (cuts ((answered collection requests).map (CollectionReply.span xs.length)) xs).take
        limits.maxItems := by
  have hsorted : (pagesOf collection xs requests).Pairwise fun a b => a.1 ≤ b.1 := by
    refine List.Pairwise.filterMap _ ?_ hascend
    intro a b hab page hpage page' hpage'
    obtain ⟨reply, _, rfl⟩ := Option.map_eq_some_iff.1 hpage
    obtain ⟨reply', _, rfl⟩ := Option.map_eq_some_iff.1 hpage'
    exact Nat.le_of_lt hab
  rw [CollectionState.items, h.pages, sortOn_eq_self hsorted]
  congr 1
  clear h hascend hsorted
  induction requests with
  | nil => rfl
  | cons request requests ih =>
      rw [← List.singleton_append, pagesOf_append, answered_append, List.flatMap_append, ih,
        List.map_append, cuts_append]
      congr 1
      cases hreply : collection request.1 request.2 with
      | error message =>
          rw [pagesOf_singleton_error hreply, answered_singleton_error hreply]
          rfl
      | ok reply =>
          rw [pagesOf_singleton_ok hreply, answered_singleton_ok hreply]
          simp

theorem span_count_le (n : Nat) (replies : List CollectionReply) :
    ∀ span ∈ replies.map (CollectionReply.span n), span.count ≤ n - span.start := by
  intro span hspan
  obtain ⟨reply, _, rfl⟩ := List.mem_map.1 hspan
  exact Nat.min_le_right _ _

/-- The page loop ends, and every collection that is not reported as truncated has exactly the
items of the server, each at its place, exactly when the replies of each one fall short of their
count or the limit, or cover it in order. -/
theorem untruncated_exact_iff (limits : CollectionLimits) (server : CollectionSpec → List ι)
    (script : CollectionSpec → CollectionScript) (specs : List CollectionSpec) :
    (∃ fuel result,
        fetchCollectionSpecs limits (serveCollections server script) specs fuel = some result ∧
        result.map Prod.fst = specs ∧
        ∀ entry ∈ result, entry.2.truncated limits = false →
          entry.2.items limits = placed server entry.1) ↔
      ∀ spec ∈ specs,
        FallsShort limits (server spec).length
            (repliesOf limits (script spec) (server spec).length) ∨
          CoversInOrder limits (server spec).length
            (repliesOf limits (script spec) (server spec).length) := by
  have hentries : ∀ {fuel result},
      fetchCollectionSpecs limits (serveCollections server script) specs fuel = some result →
      ∀ entry ∈ result,
        ((entry.2.truncated limits = false → entry.2.items limits = placed server entry.1) ↔
          FallsShort limits (server entry.1).length
              (repliesOf limits (script entry.1) (server entry.1).length) ∨
            CoversInOrder limits (server entry.1).length
              (repliesOf limits (script entry.1) (server entry.1).length)) := by
    intro fuel result hfetched entry hentry
    have hcollected := (collected_of_fetched hfetched).2 entry hentry
    have hitems := items_of_collected limits hcollected pairwise_requestsOf.2
    rw [length_placed] at hitems
    have hinside := span_count_le (server entry.1).length
      (repliesOf limits (script entry.1) (server entry.1).length)
    have hlength : (entry.2.items limits).length = min limits.maxItems
        (counted ((repliesOf limits (script entry.1) (server entry.1).length).map
          (CollectionReply.span (server entry.1).length))) := by
      rw [hitems, List.length_take, length_cuts]
      · rfl
      · rw [length_placed]
        exact hinside
    have hshort : entry.2.truncated limits = true ↔
        FallsShort limits (server entry.1).length
          (repliesOf limits (script entry.1) (server entry.1).length) := by
      rw [CollectionState.truncated, FallsShort, hcollected.count]
      have hcount : lastCount (answered (script entry.1)
          (requestsFor limits (script entry.1) (server entry.1).length)) =
        lastCount (repliesOf limits (script entry.1) (server entry.1).length) := rfl
      rw [hcount]
      cases lastCount (repliesOf limits (script entry.1) (server entry.1).length) with
      | some count =>
          dsimp only
          rw [hlength, decide_eq_true_iff]
      | none =>
          dsimp only
          rw [hlength, decide_eq_true_iff]
          omega
    have hcovers : entry.2.items limits = placed server entry.1 ↔
        CoversInOrder limits (server entry.1).length
          (repliesOf limits (script entry.1) (server entry.1).length) := by
      rw [hitems, CoversInOrder]
      refine (take_cuts_zipIdx_eq_iff hinside).trans ?_
      rw [← positions_clip, List.range_eq_range', positions_eq_range'_iff, Nat.zero_add]
    rw [hcovers, ← hshort]
    cases entry.2.truncated limits <;> simp
  constructor
  · rintro ⟨fuel, result, hfetched, hspecs, hexact⟩ spec hspec
    rw [← hspecs] at hspec
    obtain ⟨entry, hentry, rfl⟩ := List.mem_map.1 hspec
    exact (hentries hfetched entry hentry).1 (hexact entry hentry)
  · intro h
    obtain ⟨result, hfetched⟩ := exists_fetched limits server script specs
    have hspecs := (collected_of_fetched hfetched).1
    refine ⟨_, result, hfetched, hspecs, fun entry hentry => ?_⟩
    refine (hentries hfetched entry hentry).2 (h entry.1 ?_)
    rw [← hspecs]
    exact List.mem_map_of_mem hentry

/-- A first page that fails leaves a collection empty, and it is not reported as truncated. -/
theorem failed_page_not_truncated :
    ¬ ∀ (limits : CollectionLimits) (server : CollectionSpec → List String)
      (script : CollectionSpec → CollectionScript) (specs : List CollectionSpec),
      ∃ fuel result,
        fetchCollectionSpecs limits (serveCollections server script) specs fuel = some result ∧
        result.map Prod.fst = specs ∧
        ∀ entry ∈ result, entry.2.truncated limits = false →
          entry.2.items limits = placed server entry.1 := by
  intro h
  obtain ⟨fuel, result, hfetched, _, hexact⟩ := h
    { limitPerCollection := 5000, maxItems := 5000, limit_pos := by decide,
      maxItems_pos := by decide }
    (fun _ => ["openssl"]) (fun _ _ _ => .error "timeout")
    [{ parentType := "Host", objectId := "1", name := "Softs", path := "asset.Softs" }]
  cases fuel with
  | zero => cases hfetched
  | succ fuel =>
      obtain rfl := Option.some.inj hfetched
      have hlost := hexact _ List.mem_cons_self rfl
      exact List.cons_ne_nil _ _ hlost.symm

end Servers

end AssetCard
end MpvmApp
