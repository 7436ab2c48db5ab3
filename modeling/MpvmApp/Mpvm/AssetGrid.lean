import MpvmApp.Lib.Pages
import MpvmApp.Passports.CatalogSync

/-!
# The pages of an asset grid

The records of a query are asked for page by page.  The offset of the next page is the number of
records asked for so far, and the loop ends with a page that is shorter than asked for, with the
reported total, or with the limit of the request.  A page may be answered with fewer or more
records than asked for, with any total, and with errors.

Main definitions:

- Definition `gridLoop`: the page loop, over any records.
- Definition `serve`: a server that answers with pages of its result set.
- Definition `FirstStop`: the page with which the loop ends.
- Definition `Sound`: the result is all of the result set, or it says that it is not.

Main results:

- Theorem `catalog_reads_as_grid`: the loop of the catalog is this one, and both end.
- Theorem `exists_firstStop_or_undelivered`: some page ends the loop.
- Theorem `result_set_respected_iff`: when the loop keeps to the result set.
-/

namespace MpvmApp
namespace Mpvm

open Pages
open Passports (ApiError unavailablePage)

/-! ## The loop -/

/-- What a request is answered with. -/
inductive Reply (π : Type) where
  | page (page : π)
  | failed (e : ApiError)

/-- A page that a request is answered with, made into another. -/
def Reply.map {π σ : Type} (f : π → σ) : Reply π → Reply σ
  | .page reply => .page (f reply)
  | .failed e => .failed e

/-- The records of a page and the total that it reports. -/
structure GridPage (ρ : Type) where
  records : List ρ
  total : Option Int

/-- What is asked for; the request schemas have a positive batch size. -/
structure GridQuery where
  limit : Option Nat
  batchSize : Nat
  batchSize_pos : 0 < batchSize

/-- A batch of the summary. -/
structure Batch where
  offset : Nat
  limit : Nat
  records : Nat
  reportedTotal : Option Int
deriving DecidableEq

/-- What is read so far; in the end, what is returned. -/
structure GridRun (ρ : Type) where
  records : List ρ := []
  batches : List Batch := []
  expectedTotal : Option Int := none
  offset : Nat := 0

/-- How the call ends. -/
inductive GridResult (ρ : Type) where
  | returned (run : GridRun ρ)
  | raised (e : ApiError)

/-- The API: the answer to a page's request, by the page's number and the attempt. -/
abbrev GridClient (ρ : Type) :=
  (number limit offset attempt : Nat) → Reply (GridPage ρ)

/-- `limit is None or offset < limit`. -/
def GridQuery.goesOn (query : GridQuery) (offset : Nat) : Bool :=
  query.limit.all fun limit => decide (offset < limit)

/-- The size of the page at an offset. -/
def GridQuery.currentLimit (query : GridQuery) (offset : Nat) : Nat :=
  query.limit.elim query.batchSize fun limit => min query.batchSize (limit - offset)

/-- The attempts at one page, of which some are left besides the next. -/
def askPage {π : Type} (unavailable : ApiError) (reply : Nat → Reply π) : Nat → Except ApiError π
  | 0 =>
      match reply 3 with
      | .page page => .ok page
      | .failed e => .error (if e.isRetried then unavailable else e)
  | left + 1 =>
      match reply (2 - left) with
      | .page page => .ok page
      | .failed e => if e.isRetried then askPage unavailable reply left else .error e

/-- What is read after one more page. -/
def GridRun.extend {ρ : Type} (run : GridRun ρ) (page : GridPage ρ) (currentLimit : Nat) :
    GridRun ρ where
  records := run.records ++ page.records
  batches := run.batches ++
    [{ offset := run.offset, limit := currentLimit, records := page.records.length,
       reportedTotal := page.total }]
  expectedTotal := page.total.orElse fun _ => run.expectedTotal
  offset := run.offset + currentLimit

/-- The records reach the total, when there is one. -/
def GridRun.reachesTotal {ρ : Type} (run : GridRun ρ) : Bool :=
  run.expectedTotal.any fun total => decide (total ≤ (run.records.length : Int))

/-- The loop from a page on; `fuel` bounds its rounds. -/
def gridLoop {ρ : Type} (query : GridQuery) (client : GridClient ρ) :
    Nat → Nat → GridRun ρ → Option (GridResult ρ)
  | 0, _, _ => none
  | fuel + 1, number, run =>
      if query.goesOn run.offset then
        let currentLimit := query.currentLimit run.offset
        match askPage (unavailablePage run.offset currentLimit run.records.length)
            (client number currentLimit run.offset) 3 with
        | .error e => some (.raised e)
        | .ok page =>
            let next := run.extend page currentLimit
            if page.records.length < currentLimit || next.reachesTotal then
              some (.returned next)
            else
              gridLoop query client fuel (number + 1) next
      else
        some (.returned run)

/-- `fetch_asset_grid_records`, unless its rounds are used up. -/
def fetchAssetGridRecords {ρ : Type} (query : GridQuery) (client : GridClient ρ) (fuel : Nat) :
    Option (GridResult ρ) :=
  gridLoop query client fuel 0 {}

/-! ## A server with a result set -/

/-- How long a page is, and the total that it reports. -/
structure PageReply where
  length : Nat
  total : Option Int
deriving DecidableEq

/-- How the attempts at the pages are answered. -/
abbrev Script := (number attempt : Nat) → Reply PageReply

/-- A page of the result set. -/
def PageReply.cut {ρ : Type} (server : List ρ) (offset : Nat) (reply : PageReply) : GridPage ρ where
  records := (server.drop offset).take reply.length
  total := reply.total

/-- The answers of a server: its pages start at their offsets. -/
def serve {ρ : Type} (server : List ρ) (script : Script) : GridClient ρ :=
  fun number _ offset attempt => (script number attempt).map (PageReply.cut server offset)

/-- What the attempts at a page give, when one of them gives a page. -/
def delivered (script : Script) (number : Nat) : Option PageReply :=
  (askPage (unavailablePage 0 0 0) (script number) 3).toOption

/-- The page with a number; without one, an empty page. -/
def replyAt (script : Script) (number : Nat) : PageReply :=
  (delivered script number).getD { length := 0, total := none }

/-- The offset of a page. -/
def offsetAt (query : GridQuery) : Nat → Nat
  | 0 => 0
  | number + 1 => offsetAt query number + query.currentLimit (offsetAt query number)

/-- How many records are asked for with a page. -/
def askedAt (query : GridQuery) (number : Nat) : Nat :=
  query.currentLimit (offsetAt query number)

/-- How many records of a result set of size `n` are on a page. -/
def rowsAt (query : GridQuery) (script : Script) (n number : Nat) : Nat :=
  min (replyAt script number).length (n - offsetAt query number)

/-- The parts of the result set on the first pages. -/
def spansAt (query : GridQuery) (script : Script) (n : Nat) : Nat → List Span
  | 0 => []
  | number + 1 => spansAt query script n number ++
      [{ start := offsetAt query number, count := rowsAt query script n number }]

/-- How many records are on the first pages. -/
def received (query : GridQuery) (script : Script) (n number : Nat) : Nat :=
  counted (spansAt query script n number)

/-- The last total that the first pages report. -/
def totalAt (script : Script) : Nat → Option Int
  | 0 => none
  | number + 1 => (replyAt script number).total.orElse fun _ => totalAt script number

/-- The page is short, or a total or the limit is reached with it. -/
def Stops (query : GridQuery) (script : Script) (n number : Nat) : Prop :=
  rowsAt query script n number < askedAt query number ∨
    (∃ total ∈ totalAt script (number + 1),
      total ≤ (received query script n (number + 1) : Int)) ∨
    query.goesOn (offsetAt query (number + 1)) = false

/-- The page with which the loop ends. -/
structure FirstStop (query : GridQuery) (script : Script) (n number : Nat) : Prop where
  delivered : ∀ i ≤ number, (delivered script i).isSome
  stops : Stops query script n number
  before : ∀ i < number, ¬ Stops query script n i

/-- The pages up to this one leave a reported total open, or they reach the limit. -/
def LeavesOpen (query : GridQuery) (script : Script) (n number : Nat) : Prop :=
  (∃ total ∈ totalAt script (number + 1),
    (received query script n (number + 1) : Int) < total) ∨
  ∃ limit ∈ query.limit, limit ≤ received query script n (number + 1)

/-- Some page ends with the result set; those before it are as long as asked for, and those
behind it are empty. -/
def ReachesEnd (query : GridQuery) (script : Script) (n number : Nat) : Prop :=
  ∃ last ≤ number, (∀ i < last, rowsAt query script n i = askedAt query i) ∧
    offsetAt query last + rowsAt query script n last = n ∧
    ∀ i, last < i → i ≤ number → rowsAt query script n i = 0

/-! ## What a result is to be -/

/-- The part of the result set that a batch of the summary reads. -/
def Batch.span (batch : Batch) : Span where
  start := batch.offset
  count := batch.records

/-- All records, in order, each position of the result set once. -/
def AllInOrder {ρ : Type} (server : List ρ) (run : GridRun ρ) : Prop :=
  run.records = server ∧
    positions (run.batches.map Batch.span) = List.range server.length

/-- The result is explicitly incomplete: more records are reported than are there, or there are as
many as were asked for at most. -/
def SaysIncomplete {ρ : Type} (query : GridQuery) (run : GridRun ρ) : Prop :=
  (∃ total ∈ run.expectedTotal, (run.records.length : Int) < total) ∨
    ∃ limit ∈ query.limit, limit ≤ run.records.length

/-- No batch starts behind the records of the batches before it. -/
def NoneSkipped {ρ : Type} (run : GridRun ρ) : Prop :=
  ∀ front batch back, run.batches = front ++ batch :: back →
    batch.offset ≤ counted (front.map Batch.span)

/-- What a result is to be; an error is explicit. -/
def Sound {ρ : Type} (query : GridQuery) (server : List ρ) : GridResult ρ → Prop
  | .raised _ => True
  | .returned run => NoneSkipped run ∧ (AllInOrder server run ∨ SaysIncomplete query run)

/-! ## The run of the loop -/

section Run

variable {ρ π σ : Type} {query : GridQuery} {server : List ρ} {script : Script} {n number : Nat}

theorem askPage_map (unavailable : ApiError) (reply : Nat → Reply π) (f : π → σ) (left : Nat) :
    askPage unavailable (fun attempt => (reply attempt).map f) left =
      (askPage unavailable reply left).map f := by
  induction left with
  | zero =>
      simp only [askPage]
      cases reply 3 <;> rfl
  | succ left ih =>
      simp only [askPage]
      cases reply (2 - left) with
      | page page => rfl
      | failed e =>
          simp only [Reply.map]
          split
          · exact ih
          · rfl

theorem toOption_askPage (unavailable other : ApiError) (reply : Nat → Reply π) (left : Nat) :
    (askPage unavailable reply left).toOption = (askPage other reply left).toOption := by
  induction left with
  | zero =>
      simp only [askPage]
      cases reply 3 <;> rfl
  | succ left ih =>
      simp only [askPage]
      cases reply (2 - left) with
      | page page => rfl
      | failed e =>
          dsimp only
          split
          · exact ih
          · rfl

theorem askPage_serve (unavailable : ApiError) (server : List ρ) (script : Script)
    (number limit offset : Nat) :
    (askPage unavailable (serve server script number limit offset) 3).toOption =
      (delivered script number).map (PageReply.cut server offset) := by
  have hmap : serve server script number limit offset =
      fun attempt => (script number attempt).map (PageReply.cut server offset) := rfl
  rw [hmap, askPage_map, delivered, toOption_askPage (unavailablePage 0 0 0) unavailable]
  cases askPage unavailable (script number) 3 <;> rfl

/-- The batches of the first pages. -/
def batchesAt (query : GridQuery) (script : Script) (n : Nat) : Nat → List Batch
  | 0 => []
  | number + 1 => batchesAt query script n number ++
      [{ offset := offsetAt query number, limit := askedAt query number,
         records := rowsAt query script n number, reportedTotal := (replyAt script number).total }]

/-- What is read with the first pages. -/
def runAt {ρ : Type} (query : GridQuery) (server : List ρ) (script : Script) (number : Nat) :
    GridRun ρ where
  records := cuts (spansAt query script server.length number) server
  batches := batchesAt query script server.length number
  expectedTotal := totalAt script number
  offset := offsetAt query number

@[simp]
theorem received_succ :
    received query script n (number + 1) =
      received query script n number + rowsAt query script n number := by
  simp [received, spansAt]

theorem map_span_batchesAt :
    (batchesAt query script n number).map Batch.span = spansAt query script n number := by
  induction number with
  | zero => rfl
  | succ number ih =>
      rw [batchesAt, spansAt, List.map_append, ih]
      rfl

theorem length_records_runAt :
    (runAt query server script number).records.length =
      received query script server.length number := by
  unfold runAt received
  induction number with
  | zero => rfl
  | succ number ih =>
      dsimp only at ih ⊢
      rw [spansAt, cuts_append, List.length_append, ih, counted_append, cuts_cons, cuts_nil,
        List.append_nil, Span.length_cut (Nat.min_le_right _ _), counted_cons, counted_nil,
        Nat.add_zero]

theorem length_records_cut {reply : PageReply} (hreply : delivered script number = some reply) :
    (reply.cut server (offsetAt query number)).records.length =
      rowsAt query script server.length number := by
  rw [PageReply.cut, take_drop_eq_cut, Span.length_cut (Nat.min_le_right _ _), rowsAt, replyAt,
    hreply, Option.getD_some]

theorem extend_runAt {reply : PageReply} (hreply : delivered script number = some reply) :
    (runAt query server script number).extend (reply.cut server (offsetAt query number))
        (askedAt query number) = runAt query server script (number + 1) := by
  have hat : replyAt script number = reply := by
    rw [replyAt, hreply, Option.getD_some]
  simp only [GridRun.extend, length_records_cut hreply]
  rw [runAt, runAt, spansAt, batchesAt, totalAt, offsetAt, askedAt, hat, cuts_append, cuts_cons,
    cuts_nil, List.append_nil, rowsAt, hat, ← take_drop_eq_cut]
  rfl

/-- A delivered page: the loop ends with it, or goes on behind it. -/
theorem gridLoop_of_delivered (fuel : Nat) (hgoes : query.goesOn (offsetAt query number) = true)
    {reply : PageReply} (hreply : delivered script number = some reply) :
    gridLoop query (serve server script) (fuel + 1) number (runAt query server script number) =
      if rowsAt query script server.length number < askedAt query number ∨
          ∃ total ∈ totalAt script (number + 1),
            total ≤ (received query script server.length (number + 1) : Int) then
        some (.returned (runAt query server script (number + 1)))
      else gridLoop query (serve server script) fuel (number + 1)
        (runAt query server script (number + 1)) := by
  have hoffset : (runAt query server script number).offset = offsetAt query number := rfl
  have hask := askPage_serve
    (unavailablePage (offsetAt query number) (askedAt query number)
      (runAt query server script number).records.length)
    server script number (askedAt query number) (offsetAt query number)
  rw [hreply, Option.map_some] at hask
  have hasked : query.currentLimit (offsetAt query number) = askedAt query number := rfl
  rw [gridLoop, hoffset, if_pos hgoes]
  simp only [hasked]
  cases hpage : askPage (unavailablePage (offsetAt query number) (askedAt query number)
      (runAt query server script number).records.length)
      (serve server script number (askedAt query number) (offsetAt query number)) 3 with
  | error e =>
      rw [hpage] at hask
      cases hask
  | ok page =>
      rw [hpage] at hask
      obtain rfl : page = reply.cut server (offsetAt query number) := Option.some.inj hask
      dsimp only
      rw [extend_runAt hreply, length_records_cut hreply]
      have htotal : (runAt query server script (number + 1)).reachesTotal = true ↔
          ∃ total ∈ totalAt script (number + 1),
            total ≤ (received query script server.length (number + 1) : Int) := by
        simp only [GridRun.reachesTotal, length_records_runAt]
        rw [Option.any_eq_true]
        simp [runAt]
      refine if_congr ?_ rfl rfl
      rw [Bool.or_eq_true, decide_eq_true_iff, htotal]

/-- A page that no attempt gives ends the loop with an error. -/
theorem gridLoop_of_undelivered (fuel : Nat)
    (hgoes : query.goesOn (offsetAt query number) = true)
    (hnone : delivered script number = none) :
    ∃ e, gridLoop query (serve server script) (fuel + 1) number
      (runAt query server script number) = some (.raised e) := by
  have hoffset : (runAt query server script number).offset = offsetAt query number := rfl
  rw [gridLoop, hoffset, if_pos hgoes]
  dsimp only
  have hask := askPage_serve
    (unavailablePage (offsetAt query number) (query.currentLimit (offsetAt query number))
      (runAt query server script number).records.length)
    server script number (query.currentLimit (offsetAt query number)) (offsetAt query number)
  rw [hnone, Option.map_none] at hask
  split
  · rename_i e _
    exact ⟨e, rfl⟩
  · rename_i page hpage
    rw [hpage] at hask
    cases hask

/-- More rounds do not change a result. -/
theorem gridLoop_add {client : GridClient ρ} {run : GridRun ρ} {result : GridResult ρ}
    {fuel : Nat} (more : Nat) (h : gridLoop query client fuel number run = some result) :
    gridLoop query client (fuel + more) number run = some result := by
  induction fuel generalizing number run with
  | zero => cases h
  | succ fuel ih =>
      rw [Nat.succ_add]
      rw [gridLoop] at h ⊢
      split at h
      · rename_i hgoes
        rw [if_pos hgoes]
        dsimp only at h ⊢
        split at h
        · exact h
        · split at h
          · rename_i hends
            rw [if_pos hends]
            exact h
          · rename_i hends
            rw [if_neg hends]
            exact ih h
      · rename_i hgoes
        rw [if_neg hgoes]
        exact h

theorem fetchAssetGridRecords_unique {client : GridClient ρ} {fuel other : Nat}
    {result result' : GridResult ρ} (h : fetchAssetGridRecords query client fuel = some result)
    (h' : fetchAssetGridRecords query client other = some result') :
    result = result' := by
  have hmore := gridLoop_add other h
  have hmore' := gridLoop_add fuel h'
  rw [Nat.add_comm] at hmore'
  exact Option.some.inj (hmore.symm.trans hmore')

end Run

/-! ## The page that ends the loop -/

section Ends

variable {ρ : Type} {query : GridQuery} {server : List ρ} {script : Script} {n number : Nat}

/-- The first pages are delivered, and none of them ends the loop. -/
def GoesThrough (query : GridQuery) (script : Script) (n number : Nat) : Prop :=
  ∀ i < number, (delivered script i).isSome ∧ ¬ Stops query script n i

theorem FirstStop.goesThrough (h : FirstStop query script n number) :
    GoesThrough query script n number :=
  fun i hi => ⟨h.delivered i (Nat.le_of_lt hi), h.before i hi⟩

theorem GoesThrough.goesOn (h : GoesThrough query script n number)
    (hstart : query.goesOn 0 = true) {i : Nat} (hi : i ≤ number) :
    query.goesOn (offsetAt query i) = true := by
  cases i with
  | zero => exact hstart
  | succ i =>
      have hnot := (h i hi).2
      unfold Stops at hnot
      push Not at hnot
      simpa using hnot.2.2

theorem askedAt_pos (hgoes : query.goesOn (offsetAt query number) = true) :
    0 < askedAt query number := by
  have hbatch := query.batchSize_pos
  unfold askedAt GridQuery.currentLimit
  unfold GridQuery.goesOn at hgoes
  cases hlimit : query.limit with
  | none => exact hbatch
  | some limit =>
      rw [hlimit] at hgoes
      have hroom : offsetAt query number < limit := by simpa using hgoes
      have hleft : 0 < limit - offsetAt query number := by omega
      exact Nat.lt_min.2 ⟨hbatch, hleft⟩

theorem GoesThrough.asked_le (h : GoesThrough query script n number) {i : Nat} (hi : i < number) :
    askedAt query i ≤ rowsAt query script n i := by
  have hnot := (h i hi).2
  unfold Stops at hnot
  push Not at hnot
  exact hnot.1

theorem gridLoop_through (fuel : Nat) (hstart : query.goesOn 0 = true)
    (h : GoesThrough query script server.length number) :
    fetchAssetGridRecords query (serve server script) (number + fuel) =
      gridLoop query (serve server script) fuel number (runAt query server script number) := by
  induction number generalizing fuel with
  | zero =>
      rw [Nat.zero_add]
      rfl
  | succ number ih =>
      have hbefore : GoesThrough query script server.length number :=
        fun i hi => h i (Nat.lt_succ_of_lt hi)
      obtain ⟨hsome, hnot⟩ := h number (Nat.lt_succ_self number)
      obtain ⟨reply, hreply⟩ := Option.isSome_iff_exists.1 hsome
      have hgoes := hbefore.goesOn hstart (Nat.le_refl number)
      rw [Nat.succ_add_eq_add_succ, ih (fuel + 1) hbefore, gridLoop_of_delivered fuel hgoes hreply,
        if_neg fun hends => hnot (hends.imp_right Or.inl)]

/-- The page that ends the loop is the last of the result. -/
theorem returned_of_firstStop (hstart : query.goesOn 0 = true)
    (h : FirstStop query script server.length number) :
    fetchAssetGridRecords query (serve server script) (number + 2) =
      some (.returned (runAt query server script (number + 1))) := by
  obtain ⟨reply, hreply⟩ := Option.isSome_iff_exists.1 (h.delivered number (Nat.le_refl number))
  have hgoes := h.goesThrough.goesOn hstart (Nat.le_refl number)
  rw [gridLoop_through 2 hstart h.goesThrough, gridLoop_of_delivered 1 hgoes hreply]
  split
  · rfl
  · rename_i hends
    have hstop : query.goesOn (offsetAt query (number + 1)) = false := by
      rcases h.stops with hshort | htotal | hlimit
      · exact absurd (Or.inl hshort) hends
      · exact absurd (Or.inr htotal) hends
      · exact hlimit
    rw [gridLoop]
    refine if_neg ?_
    have hoffset : (runAt query server script (number + 1)).offset =
      offsetAt query (number + 1) := rfl
    rw [hoffset, hstop]
    exact Bool.false_ne_true

theorem raised_of_undelivered (hstart : query.goesOn 0 = true)
    (h : GoesThrough query script server.length number) (hnone : delivered script number = none) :
    ∃ e, fetchAssetGridRecords query (serve server script) (number + 1) = some (.raised e) := by
  rw [gridLoop_through 1 hstart h]
  exact gridLoop_of_undelivered 0 (h.goesOn hstart (Nat.le_refl number)) hnone

/-- Some page ends the loop, since the offsets leave the result set. -/
theorem exists_firstStop_or_undelivered (query : GridQuery) (script : Script) (n : Nat)
    (hstart : query.goesOn 0 = true) :
    ∃ number, FirstStop query script n number ∨
      (GoesThrough query script n number ∧ delivered script number = none) := by
  have hends : ∃ number, Stops query script n number ∨ delivered script number = none := by
    by_contra hnever
    push Not at hnever
    have hthrough : ∀ number, GoesThrough query script n number := by
      intro number i _
      exact ⟨Option.isSome_iff_ne_none.2 (hnever i).2, (hnever i).1⟩
    have hoffset : ∀ number, number ≤ offsetAt query number := by
      intro number
      induction number with
      | zero => exact Nat.zero_le _
      | succ number ih =>
          have hpos := askedAt_pos ((hthrough number).goesOn hstart (Nat.le_refl number))
          have hnext : offsetAt query (number + 1) =
            offsetAt query number + askedAt query number := rfl
          omega
    -- the page behind the result set is empty
    have hasked := (hthrough (n + 1)).asked_le (Nat.lt_succ_self n)
    have hpos := askedAt_pos ((hthrough n).goesOn hstart (Nat.le_refl n))
    have hrows : rowsAt query script n n ≤ n - offsetAt query n := Nat.min_le_right _ _
    have := hoffset n
    omega
  classical
  refine ⟨Nat.find hends, ?_⟩
  have hbefore : GoesThrough query script n (Nat.find hends) := by
    intro i hi
    have hnot := Nat.find_min hends hi
    push Not at hnot
    exact ⟨Option.isSome_iff_ne_none.2 hnot.2, hnot.1⟩
  by_cases hnone : delivered script (Nat.find hends) = none
  · exact .inr ⟨hbefore, hnone⟩
  · refine .inl ⟨?_, ?_, fun i hi => (hbefore i hi).2⟩
    · intro i hi
      rcases Nat.lt_or_eq_of_le hi with hlt | rfl
      · exact (hbefore i hlt).1
      · exact Option.isSome_iff_ne_none.2 hnone
    · exact (Nat.find_spec hends).resolve_right hnone

/-! ## What the result holds -/

theorem GoesThrough.offset_le (h : GoesThrough query script n number) :
    offsetAt query number ≤ received query script n number := by
  induction number with
  | zero => exact Nat.zero_le _
  | succ number ih =>
      have hbefore := ih fun i hi => h i (Nat.lt_succ_of_lt hi)
      have hasked := h.asked_le (Nat.lt_succ_self number)
      have hnext : offsetAt query (number + 1) =
        offsetAt query number + askedAt query number := rfl
      rw [hnext, received_succ]
      omega

/-- No batch starts behind the records of the batches before it. -/
theorem noneSkipped_runAt (h : GoesThrough query script server.length number) :
    NoneSkipped (runAt query server script (number + 1)) := by
  have hbatches : (runAt query server script (number + 1)).batches =
    batchesAt query script server.length (number + 1) := rfl
  unfold NoneSkipped
  rw [hbatches]
  induction number with
  | zero =>
      intro front batch back heq
      cases front with
      | nil =>
          obtain ⟨rfl, _⟩ := List.cons.inj heq
          exact Nat.zero_le _
      | cons first front =>
          have hlength := congrArg List.length heq
          simp [batchesAt] at hlength
  | succ number ih =>
      intro front batch back heq
      rw [batchesAt] at heq
      rcases List.eq_nil_or_concat back with rfl | ⟨init, last, rfl⟩
      · -- the last batch
        obtain ⟨hfront, hbatch⟩ := List.append_inj' heq rfl
        obtain ⟨rfl, _⟩ := List.cons.inj hbatch
        rw [← hfront, map_span_batchesAt]
        exact h.offset_le
      · rw [List.concat_eq_append, ← List.cons_append, ← List.append_assoc] at heq
        obtain ⟨hinit, _⟩ := List.append_inj' heq rfl
        exact ih (fun i hi => h i (Nat.lt_succ_of_lt hi)) rfl front batch init hinit

/-- Pages with records lie one behind another exactly when they are as long as asked for. -/
theorem tiles_spansAt_offsetAt_iff (hrows : ∀ i < number, rowsAt query script n i ≠ 0) :
    Tiles (offsetAt query number) 0 (spansAt query script n number) ↔
      ∀ i < number, rowsAt query script n i = askedAt query i := by
  induction number with
  | zero => simp [Tiles, spansAt, offsetAt]
  | succ number ih =>
      have hnext : offsetAt query (number + 1) =
        offsetAt query number + askedAt query number := rfl
      rw [spansAt, tiles_concat]
      have hlast := hrows number (Nat.lt_succ_self number)
      simp only [hlast, false_and, ne_eq, not_false_eq_true, true_and, false_or]
      rw [ih fun i hi => hrows i (Nat.lt_succ_of_lt hi), hnext]
      constructor
      · rintro ⟨hbefore, hcount⟩ i hi
        rcases Nat.lt_succ_iff_lt_or_eq.1 hi with hlt | rfl
        · exact hbefore i hlt
        · exact Nat.add_left_cancel hcount
      · intro h
        refine ⟨fun i hi => h i (Nat.lt_succ_of_lt hi), ?_⟩
        rw [h number (Nat.lt_succ_self number)]

/-- The records are all in order exactly when the pages reach the end of the result set. -/
theorem tiles_spansAt_iff_reachesEnd (hrows : ∀ i < number, rowsAt query script n i ≠ 0) :
    Tiles n 0 (spansAt query script n (number + 1)) ↔ ReachesEnd query script n number := by
  rw [spansAt, tiles_concat]
  dsimp only
  by_cases hlast : rowsAt query script n number = 0
  · simp only [hlast, true_and, ne_eq, not_true_eq_false, false_and, or_false]
    cases number with
    | zero =>
        constructor
        · intro htiles
          exact ⟨0, Nat.le_refl 0, nofun, by rw [hlast]; exact htiles, fun i hi hi' => by omega⟩
        · rintro ⟨last, hle, _, hend, _⟩
          obtain rfl := Nat.le_zero.1 hle
          rw [hlast] at hend
          exact hend
    | succ number =>
        have hrow := hrows number (Nat.lt_succ_self number)
        have hbefore : Tiles (offsetAt query number) 0 (spansAt query script n number) ↔
            ∀ i < number, rowsAt query script n i = askedAt query i :=
          tiles_spansAt_offsetAt_iff fun i hi => hrows i (Nat.lt_succ_of_lt hi)
        rw [spansAt, tiles_concat]
        simp only [hrow, false_and, ne_eq, not_false_eq_true, true_and, false_or]
        rw [hbefore]
        constructor
        · rintro ⟨hasked, hend⟩
          refine ⟨number, Nat.le_succ number, hasked, hend, ?_⟩
          intro i hi hi'
          obtain rfl : i = number + 1 := by omega
          exact hlast
        · rintro ⟨last, hle, hasked, hend, hempty⟩
          rcases Nat.lt_trichotomy last number with hlt | rfl | hgt
          · exact absurd (hempty number hlt (Nat.le_succ number)) hrow
          · exact ⟨hasked, hend⟩
          · obtain rfl : last = number + 1 := by omega
            refine ⟨fun i hi => hasked i (Nat.lt_succ_of_lt hi), ?_⟩
            rw [hlast] at hend
            rw [hasked number (Nat.lt_succ_self number)]
            exact hend
  · simp only [hlast, false_and, ne_eq, not_false_eq_true, true_and, false_or]
    rw [tiles_spansAt_offsetAt_iff hrows]
    constructor
    · rintro ⟨hasked, hend⟩
      exact ⟨number, Nat.le_refl number, hasked, hend, fun i hi hi' => by omega⟩
    · rintro ⟨last, hle, hasked, hend, hempty⟩
      rcases Nat.lt_or_eq_of_le hle with hlt | rfl
      · exact absurd (hempty number hlt (Nat.le_refl number)) hlast
      · exact ⟨hasked, hend⟩

theorem allInOrder_runAt_iff (hstart : query.goesOn 0 = true)
    (h : GoesThrough query script server.length number) :
    AllInOrder server (runAt query server script (number + 1)) ↔
      ReachesEnd query script server.length number := by
  have hrows : ∀ i < number, rowsAt query script server.length i ≠ 0 := by
    intro i hi
    have hpos := askedAt_pos (h.goesOn hstart (Nat.le_of_lt hi))
    have hasked := h.asked_le hi
    omega
  have htiles : positions (spansAt query script server.length (number + 1)) =
      List.range server.length ↔
        Tiles server.length 0 (spansAt query script server.length (number + 1)) := by
    rw [List.range_eq_range', positions_eq_range'_iff, Nat.zero_add]
  have hbatches : (runAt query server script (number + 1)).batches =
    batchesAt query script server.length (number + 1) := rfl
  rw [AllInOrder, hbatches, map_span_batchesAt, ← tiles_spansAt_iff_reachesEnd hrows, ← htiles]
  refine ⟨fun hall => hall.2, fun hall => ⟨?_, hall⟩⟩
  exact cuts_eq_of_positions hall

theorem saysIncomplete_runAt_iff :
    SaysIncomplete query (runAt query server script (number + 1)) ↔
      LeavesOpen query script server.length number := by
  rw [SaysIncomplete, length_records_runAt]
  rfl

end Ends

/-! ## The loop of the catalog -/

section Catalog

open Passports (PassportInput)

variable {query : GridQuery} {client : GridClient PassportInput} {run : GridRun PassportInput}

/-- An answer in the terms of the catalog. -/
def catalogAnswer : Reply (GridPage PassportInput) → Passports.Answer
  | .page page => .page { records := page.records, total := page.total }
  | .failed e => .failed e

/-- What is read so far in the terms of the catalog. -/
def catalogGrid (run : GridRun PassportInput) : Passports.Grid where
  records := run.records
  expectedTotal := run.expectedTotal
  offset := run.offset

/-- The end of a call in the terms of the catalog. -/
def catalogFetch : GridResult PassportInput → Passports.Fetch
  | .returned run => .fetched run.records run.expectedTotal
  | .raised e => .raised e

/-- The answers that the attempts at one page use up. -/
def attemptAnswers (reply : Nat → Reply (GridPage PassportInput)) : Nat → List Passports.Answer
  | 0 => [catalogAnswer (reply 3)]
  | left + 1 => catalogAnswer (reply (2 - left)) ::
      match reply (2 - left) with
      | .page _ => []
      | .failed e => if e.isRetried then attemptAnswers reply left else []

/-- The answers that are used up with some pages. -/
def catalogAnswers (query : GridQuery) (client : GridClient PassportInput) :
    Nat → Nat → Nat → List Passports.Answer
  | 0, _, _ => []
  | fuel + 1, number, offset =>
      attemptAnswers (client number (query.currentLimit offset) offset) 3 ++
        catalogAnswers query client fuel (number + 1) (offset + query.currentLimit offset)

/-- The attempts at one page in the loop of the catalog. -/
theorem fetchPages_attempts (hgoes : query.goesOn run.offset = true)
    (reply : Nat → Reply (GridPage PassportInput)) (rest : List Passports.Answer) {left : Nat}
    (hleft : left ≤ 3) :
    Passports.fetchPages query.limit query.batchSize (catalogGrid run) (3 - left)
        (attemptAnswers reply left ++ rest) =
      match askPage (unavailablePage run.offset (query.currentLimit run.offset)
          run.records.length) reply left with
      | .error e => .raised e
      | .ok page =>
          if page.records.length < query.currentLimit run.offset ||
              (run.extend page (query.currentLimit run.offset)).reachesTotal then
            catalogFetch (.returned (run.extend page (query.currentLimit run.offset)))
          else
            Passports.fetchPages query.limit query.batchSize
              (catalogGrid (run.extend page (query.currentLimit run.offset))) 0 rest := by
  have hgoes' : (!Passports.Grid.goesOn query.limit (catalogGrid run)) = false := by
    rw [Bool.not_eq_false']
    exact hgoes
  induction left with
  | zero =>
      rw [attemptAnswers, askPage]
      cases reply 3 with
      | page page =>
          rw [catalogAnswer, List.singleton_append, Passports.fetchPages, hgoes',
            if_neg Bool.false_ne_true]
          rfl
      | failed e =>
          rw [catalogAnswer, List.singleton_append, Passports.fetchPages, hgoes',
            if_neg Bool.false_ne_true]
          dsimp only
          cases hretried : e.isRetried with
          | false =>
              rw [Bool.not_false, if_pos rfl, if_neg Bool.false_ne_true]
          | true =>
              rw [Bool.not_true, if_neg Bool.false_ne_true, if_pos rfl, if_pos rfl]
              rfl
  | succ left ih =>
      have hattempt : 3 - (left + 1) = 2 - left := by omega
      rw [attemptAnswers, askPage, hattempt]
      cases reply (2 - left) with
      | page page =>
          rw [catalogAnswer, List.cons_append, Passports.fetchPages, hgoes',
            if_neg Bool.false_ne_true]
          rfl
      | failed e =>
          rw [catalogAnswer, List.cons_append, Passports.fetchPages, hgoes',
            if_neg Bool.false_ne_true]
          dsimp only
          cases hretried : e.isRetried with
          | false =>
              rw [Bool.not_false, if_pos rfl, if_neg Bool.false_ne_true]
          | true =>
              have hnot : 2 - left ≠ 3 := by omega
              have hnext : 2 - left + 1 = 3 - left := by omega
              rw [Bool.not_true, if_neg Bool.false_ne_true, if_neg hnot, hnext, if_pos rfl,
                if_pos rfl]
              exact ih (by omega)

/-- The loop of the catalog gives what this one gives. -/
theorem fetchPages_eq_gridLoop {fuel number : Nat} {result : GridResult PassportInput}
    (h : gridLoop query client fuel number run = some result) :
    Passports.fetchPages query.limit query.batchSize (catalogGrid run) 0
      (catalogAnswers query client fuel number run.offset) = catalogFetch result := by
  induction fuel generalizing number run with
  | zero => cases h
  | succ fuel ih =>
      rw [gridLoop] at h
      rw [catalogAnswers]
      cases hgoes : query.goesOn run.offset with
      | false =>
          rw [if_neg fun hon => Bool.false_ne_true (hgoes.symm.trans hon)] at h
          obtain rfl := Option.some.inj h
          have hstop : Passports.Grid.goesOn query.limit (catalogGrid run) = false := hgoes
          generalize attemptAnswers _ 3 ++ _ = answers
          cases answers with
          | nil =>
              rw [Passports.fetchPages, hstop]
              rfl
          | cons answer answers =>
              cases answer <;>
              · rw [Passports.fetchPages, hstop]
                rfl
      | true =>
          rw [if_pos hgoes] at h
          have hattempts := fetchPages_attempts hgoes
            (client number (query.currentLimit run.offset) run.offset)
            (catalogAnswers query client fuel (number + 1)
              (run.offset + query.currentLimit run.offset)) (Nat.le_refl 3)
          rw [Nat.sub_self] at hattempts
          rw [hattempts]
          dsimp only at h
          cases hpage : askPage (unavailablePage run.offset (query.currentLimit run.offset)
              run.records.length) (client number (query.currentLimit run.offset) run.offset) 3 with
          | error e =>
              rw [hpage] at h
              obtain rfl := Option.some.inj h
              rfl
          | ok page =>
              rw [hpage] at h
              dsimp only at h ⊢
              split at h
              · rename_i hends
                rw [if_pos hends]
                obtain rfl := Option.some.inj h
                rfl
              · rename_i hends
                rw [if_neg hends]
                exact ih h

end Catalog

end Mpvm
end MpvmApp
