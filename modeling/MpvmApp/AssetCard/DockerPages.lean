import Mathlib.Data.Nat.Find
import MpvmApp.AssetCard.Docker
import MpvmApp.Lib.Pages

/-!
# The pages of the Docker query

The rows of the Docker query are asked for page by page, from the number of rows received on.
The loop ends with an empty page, with the reported total, with a page that is shorter than asked
for when no total is known, with the limit of the build or with an error.  Only some of these
ends raise the `truncated` flag of the source.

Main definitions:

- Definition `dockerRound`: one round of the page loop.
- Definition `Answers.fromServer`: a server that answers with pages of its rows.
- Definition `LossFlagged`: the ends without the flag leave no row behind.

Main results:

- Theorem `dockerRounds_eq`: the page loop ends with the page at which it stops.
- Theorem `untruncated_complete_iff`: when a source without the flag has every row.
-/

namespace MpvmApp
namespace AssetCard

/-! ## Rounds of the page loop -/

/-- Where the page loop is, and what it has found. -/
structure DockerCursor where
  number : Nat := 0
  offset : Nat := 0
  reportedTotal : Option Int := none
  primary : List Finding := []

/-- `min(1001, max_items - offset)`. -/
def dockerPageLimit (maxItems offset : Nat) : Nat :=
  min 1001 (maxItems - offset)

/-- One round of the page loop: it ends with an outcome or goes on. -/
def dockerRound (maxItems : Nat) (pages : Nat → Except String DockerPage) (cursor : DockerCursor) :
    DockerOutcome ⊕ DockerCursor :=
  if cursor.offset < maxItems then
    match pages cursor.number with
    | .error message => .inl (dockerFailure cursor.primary message)
    | .ok page =>
        let next : DockerCursor :=
          { number := cursor.number + 1
            offset := cursor.offset + page.rows.length
            reportedTotal := page.total.or cursor.reportedTotal
            primary := cursor.primary ++
              (page.rows.filter DockerRow.keeps).map DockerRow.finding }
        if page.rows = [] then
          .inl
            { primary := next.primary
              truncated := next.reportedTotal.any fun total =>
                decide ((cursor.offset : Int) < total) }
        else
          match next.reportedTotal with
          | some total =>
              if total ≤ next.offset then .inl { primary := next.primary }
              else if maxItems ≤ next.offset then
                .inl { primary := next.primary, truncated := decide ((maxItems : Int) < total) }
              else .inr next
          | none =>
              if page.rows.length < dockerPageLimit maxItems cursor.offset then
                .inl { primary := next.primary }
              else if maxItems ≤ next.offset then
                .inl { primary := next.primary, truncated := true }
              else .inr next
  else
    .inl { primary := cursor.primary }

/-- The rounds of the page loop, unless the bound is used up. -/
def dockerRounds (maxItems : Nat) (pages : Nat → Except String DockerPage) :
    Nat → DockerCursor → Option DockerOutcome
  | 0, _ => none
  | fuel + 1, cursor =>
      match dockerRound maxItems pages cursor with
      | .inl outcome => some outcome
      | .inr next => dockerRounds maxItems pages fuel next

/-- Rounds that end give the outcome of the page loop. -/
theorem dockerPageLoop_of_dockerRounds {maxItems : Nat} {pages : Nat → Except String DockerPage}
    {fuel : Nat} {cursor : DockerCursor} {outcome : DockerOutcome}
    (h : dockerRounds maxItems pages fuel cursor = some outcome) :
    dockerPageLoop maxItems pages fuel cursor.number cursor.offset cursor.reportedTotal
      cursor.primary = outcome := by
  induction fuel generalizing cursor with
  | zero => cases h
  | succ fuel ih =>
      rw [dockerRounds, dockerRound] at h
      rw [dockerPageLoop]
      by_cases hroom : cursor.offset < maxItems
      · rw [if_pos hroom] at h ⊢
        cases hpage : pages cursor.number with
        | error message =>
            rw [hpage] at h
            exact Option.some.inj h
        | ok page =>
            rw [hpage] at h
            dsimp only at h ⊢
            by_cases hempty : page.rows = []
            · rw [if_pos hempty] at h ⊢
              exact Option.some.inj h
            · rw [if_neg hempty] at h ⊢
              cases htotal : page.total.or cursor.reportedTotal with
              | some total =>
                  rw [htotal] at h
                  dsimp only at h ⊢
                  by_cases hreached : total ≤ ((cursor.offset + page.rows.length : Nat) : Int)
                  · rw [if_pos hreached] at h ⊢
                    exact Option.some.inj h
                  · rw [if_neg hreached] at h ⊢
                    by_cases hfull : maxItems ≤ cursor.offset + page.rows.length
                    · rw [if_pos hfull] at h ⊢
                      exact Option.some.inj h
                    · rw [if_neg hfull] at h ⊢
                      exact ih h
              | none =>
                  rw [htotal] at h
                  dsimp only at h ⊢
                  by_cases hshort : page.rows.length < min 1001 (maxItems - cursor.offset)
                  · rw [dockerPageLimit, if_pos hshort] at h
                    rw [if_pos hshort]
                    exact Option.some.inj h
                  · rw [dockerPageLimit, if_neg hshort] at h
                    rw [if_neg hshort]
                    by_cases hfull : maxItems ≤ cursor.offset + page.rows.length
                    · rw [if_pos hfull] at h ⊢
                      exact Option.some.inj h
                    · rw [if_neg hfull] at h ⊢
                      exact ih h
      · rw [if_neg hroom] at h ⊢
        exact Option.some.inj h

/-! ## A server with rows -/

/-- How long a page is, and the total that it reports. -/
structure DockerReply where
  length : Nat
  total : Option Int := none
deriving DecidableEq

/-- How the requests for the pages are answered. -/
abbrev DockerScript := Nat → Except String DockerReply

/-- The answer to the request for the page at an offset. -/
def servePage (server : List DockerRow) (offset : Nat) (reply : DockerReply) : DockerPage where
  rows := (server.drop offset).take reply.length
  total := reply.total

/-- How many rows of a server with `n` rows are on a page from an offset on. -/
def pageRows (n offset : Nat) : Except String DockerReply → Nat
  | .error _ => 0
  | .ok reply => min reply.length (n - offset)

/-- The offset of a page: the number of rows received before. -/
def dockerOffset (script : DockerScript) (n : Nat) : Nat → Nat
  | 0 => 0
  | number + 1 => dockerOffset script n number +
      pageRows n (dockerOffset script n number) (script number)

/-- The last total that the first pages report. -/
def dockerTotal (script : DockerScript) : Nat → Option Int
  | 0 => none
  | number + 1 =>
      match script number with
      | .error _ => dockerTotal script number
      | .ok reply => reply.total.or (dockerTotal script number)

/-- The pages of a server start at their offsets. -/
def dockerPagesOf (server : List DockerRow) (script : DockerScript) (number : Nat) :
    Except String DockerPage :=
  (script number).map (servePage server (dockerOffset script server.length number))

/-- The answers of a build whose Docker rows are those of a server. -/
def Answers.fromServer (answers : Answers) (server : List DockerRow) (script : DockerScript) :
    Answers :=
  { answers with dockerPages := dockerPagesOf server script }

/-- The findings of the rows that name a vulnerability. -/
def keptFindings (rows : List DockerRow) : List Finding :=
  (rows.filter DockerRow.keeps).map DockerRow.finding

/-- None of the rows names a vulnerability. -/
def NoneKept (rows : List DockerRow) : Prop :=
  ∀ row ∈ rows, row.keeps = false

section Pages

variable {maxItems : Nat} {server : List DockerRow} {script : DockerScript} {n number : Nat}

/-- The request fails, the page is empty, the total is reached, the page is short without a
total, or the limit of the build is reached. -/
def DockerStops (maxItems : Nat) (script : DockerScript) (n number : Nat) : Prop :=
  pageRows n (dockerOffset script n number) (script number) = 0 ∨
    (∃ total ∈ dockerTotal script (number + 1),
      total ≤ (dockerOffset script n (number + 1) : Int)) ∨
    (dockerTotal script (number + 1) = none ∧
      pageRows n (dockerOffset script n number) (script number) <
        dockerPageLimit maxItems (dockerOffset script n number)) ∨
    maxItems ≤ dockerOffset script n (number + 1)

/-- The page with which the loop ends. -/
def FirstDockerStop (maxItems : Nat) (script : DockerScript) (n number : Nat) : Prop :=
  DockerStops maxItems script n number ∧ ∀ i < number, ¬ DockerStops maxItems script n i

/-- The end of the loop raises the flag: an error behind a row that names a vulnerability, a
total that is not reached, or a full page at the limit when no total is known. -/
def FlaggedStop (maxItems : Nat) (server : List DockerRow) (script : DockerScript) (number : Nat) :
    Prop :=
  match script number with
  | .error _ => ¬ NoneKept (server.take (dockerOffset script server.length number))
  | .ok _ =>
      match dockerTotal script (number + 1) with
      | some total => (dockerOffset script server.length (number + 1) : Int) < total
      | none =>
          dockerPageLimit maxItems (dockerOffset script server.length number) ≤
            pageRows server.length (dockerOffset script server.length number) (script number)

/-- Where the loop is before a page. -/
def cursorAt (server : List DockerRow) (script : DockerScript) (number : Nat) : DockerCursor where
  number := number
  offset := dockerOffset script server.length number
  reportedTotal := dockerTotal script number
  primary := keptFindings (server.take (dockerOffset script server.length number))

end Pages

/-! ## The rounds over a server -/

section Rounds

variable {maxItems : Nat} {server : List DockerRow} {script : DockerScript} {number : Nat}

@[simp]
theorem keptFindings_append (front back : List DockerRow) :
    keptFindings (front ++ back) = keptFindings front ++ keptFindings back := by
  simp [keptFindings]

theorem keptFindings_eq_nil_iff (rows : List DockerRow) :
    keptFindings rows = [] ↔ NoneKept rows := by
  rw [keptFindings, List.map_eq_nil_iff, List.filter_eq_nil_iff, NoneKept]
  simp

theorem keptFindings_take_succ (server : List DockerRow) {reply : DockerReply}
    (hreply : script number = .ok reply) :
    keptFindings (server.take (dockerOffset script server.length (number + 1))) =
      keptFindings (server.take (dockerOffset script server.length number)) ++
        keptFindings (servePage server (dockerOffset script server.length number) reply).rows := by
  rw [dockerOffset, hreply, pageRows, List.take_add, keptFindings_append]
  congr 2
  exact (Pages.take_drop_eq_cut server _ reply.length).symm

theorem length_rows_servePage (reply : DockerReply) (offset : Nat) :
    (servePage server offset reply).rows.length = pageRows server.length offset (.ok reply) := by
  rw [servePage, pageRows, List.length_take, List.length_drop]

theorem rows_servePage_eq_nil_iff (reply : DockerReply) (offset : Nat) :
    (servePage server offset reply).rows = [] ↔ pageRows server.length offset (.ok reply) = 0 := by
  rw [← List.length_eq_zero_iff, length_rows_servePage]

/-- A page that does not end the loop brings it to the next one. -/
theorem dockerRound_of_not_stops (hroom : dockerOffset script server.length number < maxItems)
    (h : ¬ DockerStops maxItems script server.length number) :
    dockerRound maxItems (dockerPagesOf server script) (cursorAt server script number) =
      .inr (cursorAt server script (number + 1)) := by
  unfold DockerStops at h
  push Not at h
  obtain ⟨hrows, htotal, hshort, hfull⟩ := h
  cases hreply : script number with
  | error message =>
      rw [hreply] at hrows
      exact absurd rfl hrows
  | ok reply =>
      have hpage : dockerPagesOf server script number =
          .ok (servePage server (dockerOffset script server.length number) reply) := by
        rw [dockerPagesOf, hreply]
        rfl
      have hnext : dockerOffset script server.length (number + 1) =
          dockerOffset script server.length number +
            (servePage server (dockerOffset script server.length number) reply).rows.length := by
        rw [dockerOffset, hreply, length_rows_servePage]
      have htotals : dockerTotal script (number + 1) =
          reply.total.or (dockerTotal script number) := by
        rw [dockerTotal, hreply]
      have hempty :
          ¬ (servePage server (dockerOffset script server.length number) reply).rows = [] := by
        rw [rows_servePage_eq_nil_iff, ← hreply]
        exact hrows
      rw [hreply, ← length_rows_servePage] at hshort
      have hcursor : cursorAt server script (number + 1) =
          { number := number + 1
            offset := dockerOffset script server.length number +
              (servePage server (dockerOffset script server.length number) reply).rows.length
            reportedTotal := reply.total.or (dockerTotal script number)
            primary := keptFindings (server.take (dockerOffset script server.length number)) ++
              keptFindings
                (servePage server (dockerOffset script server.length number) reply).rows } := by
        rw [cursorAt, keptFindings_take_succ server hreply, hnext, htotals]
      rw [hcursor]
      rw [hnext] at htotal hfull
      rw [htotals] at htotal hshort
      unfold dockerRound cursorAt
      dsimp only
      rw [if_pos hroom, hpage]
      dsimp only
      rw [if_neg hempty]
      have htotal' : (servePage server (dockerOffset script server.length number) reply).total =
        reply.total := rfl
      rw [htotal']
      cases hknown : reply.total.or (dockerTotal script number) with
      | some total =>
          have hnot := htotal total hknown
          dsimp only
          rw [if_neg (Int.not_le.2 hnot), if_neg (Nat.not_le.2 hfull)]
          rfl
      | none =>
          have hnot := hshort hknown
          dsimp only
          rw [if_neg (Nat.not_lt.2 hnot), if_neg (Nat.not_le.2 hfull)]
          rfl

/-- A page that ends the loop: what has been found, and the flag. -/
theorem dockerRound_of_stops (hroom : dockerOffset script server.length number < maxItems)
    (h : DockerStops maxItems script server.length number) :
    ∃ outcome, dockerRound maxItems (dockerPagesOf server script) (cursorAt server script number) =
        .inl outcome ∧
      outcome.primary =
        keptFindings (server.take (dockerOffset script server.length (number + 1))) ∧
      (outcome.truncated = true ↔ FlaggedStop maxItems server script number) := by
  have hlimit : 0 < dockerPageLimit maxItems (dockerOffset script server.length number) := by
    unfold dockerPageLimit
    omega
  unfold dockerRound
  have hoffset : (cursorAt server script number).offset =
    dockerOffset script server.length number := rfl
  have hprimary : (cursorAt server script number).primary =
    keptFindings (server.take (dockerOffset script server.length number)) := rfl
  have hnumber : (cursorAt server script number).number = number := rfl
  have hbefore : (cursorAt server script number).reportedTotal = dockerTotal script number := rfl
  rw [hoffset, if_pos hroom, hnumber]
  cases hreply : script number with
  | error message =>
      have hpage : dockerPagesOf server script number = .error message := by
        rw [dockerPagesOf, hreply]
        rfl
      rw [hpage]
      refine ⟨_, rfl, ?_, ?_⟩
      · rw [dockerOffset, hreply, pageRows, Nat.add_zero, dockerFailure, hprimary]
      · rw [dockerFailure, FlaggedStop, hreply, hprimary]
        rw [← keptFindings_eq_nil_iff]
        simp
  | ok reply =>
      have hpage : dockerPagesOf server script number =
          .ok (servePage server (dockerOffset script server.length number) reply) := by
        rw [dockerPagesOf, hreply]
        rfl
      have hnext : dockerOffset script server.length (number + 1) =
          dockerOffset script server.length number +
            (servePage server (dockerOffset script server.length number) reply).rows.length := by
        rw [dockerOffset, hreply, length_rows_servePage]
      have htotals : dockerTotal script (number + 1) =
          reply.total.or (dockerTotal script number) := by
        rw [dockerTotal, hreply]
      have hfound := keptFindings_take_succ server hreply
      have htotal' : (servePage server (dockerOffset script server.length number) reply).total =
        reply.total := rfl
      rw [hpage]
      dsimp only
      rw [htotal', hbefore, hprimary, ← htotals, ← hnext]
      unfold keptFindings at hfound
      unfold FlaggedStop
      rw [hreply, ← length_rows_servePage]
      dsimp only
      unfold DockerStops at h
      rw [hreply, ← length_rows_servePage] at h
      by_cases hempty :
          (servePage server (dockerOffset script server.length number) reply).rows = []
      · -- an empty page
        rw [if_pos hempty]
        refine ⟨_, rfl, hfound.symm, ?_⟩
        have hsame : dockerOffset script server.length (number + 1) =
            dockerOffset script server.length number := by
          rw [hnext, hempty]
          rfl
        rw [hempty, hsame]
        cases dockerTotal script (number + 1) with
        | none =>
            simp only [Option.any_none, Bool.false_eq_true, false_iff, List.length_nil]
            omega
        | some total => simp
      · rw [if_neg hempty]
        have hsome : (servePage server (dockerOffset script server.length number)
            reply).rows.length ≠ 0 := by
          rw [ne_eq, List.length_eq_zero_iff]
          exact hempty
        cases hknown : dockerTotal script (number + 1) with
        | some total =>
            rw [hknown] at h
            dsimp only
            by_cases hreached : total ≤ (dockerOffset script server.length (number + 1) : Int)
            · rw [if_pos hreached]
              refine ⟨_, rfl, hfound.symm, ?_⟩
              simp only [Bool.false_eq_true, false_iff]
              omega
            · have hfull : maxItems ≤ dockerOffset script server.length (number + 1) := by
                rcases h with hzero | ⟨total', htotal', hle⟩ | ⟨hnone, _⟩ | hfull
                · exact absurd hzero hsome
                · obtain rfl := Option.some.inj htotal'
                  exact absurd hle hreached
                · cases hnone
                · exact hfull
              rw [if_neg hreached, if_pos hfull]
              refine ⟨_, rfl, hfound.symm, ?_⟩
              rw [decide_eq_true_iff]
              omega
        | none =>
            rw [hknown] at h
            dsimp only
            by_cases hshort :
                (servePage server (dockerOffset script server.length number) reply).rows.length <
                  dockerPageLimit maxItems (dockerOffset script server.length number)
            · rw [if_pos hshort]
              refine ⟨_, rfl, hfound.symm, ?_⟩
              simp only [Bool.false_eq_true, false_iff]
              omega
            · have hfull : maxItems ≤ dockerOffset script server.length (number + 1) := by
                rcases h with hzero | ⟨total', htotal', _⟩ | ⟨_, hlt⟩ | hfull
                · exact absurd hzero hsome
                · cases htotal'
                · exact absurd hlt hshort
                · exact hfull
              rw [if_neg hshort, if_pos hfull]
              refine ⟨_, rfl, hfound.symm, ?_⟩
              simp only [true_iff]
              omega

end Rounds

/-! ## The end of the loop -/

section Ends

variable {maxItems : Nat} {server : List DockerRow} {script : DockerScript} {number : Nat}

theorem dockerOffset_lt (hmax : 0 < maxItems)
    (h : ∀ i < number, ¬ DockerStops maxItems script server.length i) :
    dockerOffset script server.length number < maxItems := by
  cases number with
  | zero => exact hmax
  | succ number =>
      have hnot := h number (Nat.lt_succ_self number)
      unfold DockerStops at hnot
      push Not at hnot
      exact hnot.2.2.2

theorem dockerRounds_through (hmax : 0 < maxItems) (fuel : Nat)
    (h : ∀ i < number, ¬ DockerStops maxItems script server.length i) :
    dockerRounds maxItems (dockerPagesOf server script) (number + fuel)
        (cursorAt server script 0) =
      dockerRounds maxItems (dockerPagesOf server script) fuel (cursorAt server script number) := by
  induction number generalizing fuel with
  | zero => rw [Nat.zero_add]
  | succ number ih =>
      have hbefore : ∀ i < number, ¬ DockerStops maxItems script server.length i :=
        fun i hi => h i (Nat.lt_succ_of_lt hi)
      rw [Nat.succ_add_eq_add_succ, ih (fuel + 1) hbefore, dockerRounds,
        dockerRound_of_not_stops (dockerOffset_lt hmax hbefore)
          (h number (Nat.lt_succ_self number))]

/-- The page loop ends with the page at which it stops. -/
theorem dockerRounds_eq (hmax : 0 < maxItems)
    (h : FirstDockerStop maxItems script server.length number) (fuel : Nat) :
    ∃ outcome, dockerRounds maxItems (dockerPagesOf server script) (number + (fuel + 1)) {} =
        some outcome ∧
      outcome.primary =
        keptFindings (server.take (dockerOffset script server.length (number + 1))) ∧
      (outcome.truncated = true ↔ FlaggedStop maxItems server script number) := by
  obtain ⟨outcome, hround, hprimary, hflag⟩ :=
    dockerRound_of_stops (dockerOffset_lt hmax h.2) h.1
  refine ⟨outcome, ?_, hprimary, hflag⟩
  have hstart : cursorAt server script 0 = {} := rfl
  rw [← hstart, dockerRounds_through hmax (fuel + 1) h.2, dockerRounds, hround]

theorem le_dockerOffset {n : Nat} (h : ∀ i < number, ¬ DockerStops maxItems script n i) :
    number ≤ dockerOffset script n number := by
  induction number with
  | zero => exact Nat.zero_le _
  | succ number ih =>
      have hbefore := ih fun i hi => h i (Nat.lt_succ_of_lt hi)
      have hnot := h number (Nat.lt_succ_self number)
      unfold DockerStops at hnot
      push Not at hnot
      have hrows := Nat.pos_of_ne_zero hnot.1
      rw [dockerOffset]
      omega

theorem exists_firstDockerStop (maxItems : Nat) (script : DockerScript) (n : Nat) :
    ∃ number, FirstDockerStop maxItems script n number := by
  have hends : ∃ number, DockerStops maxItems script n number := by
    by_contra hnever
    push Not at hnever
    have hreached : maxItems ≤ dockerOffset script n maxItems :=
      le_dockerOffset fun i _ => hnever i
    have hlast := hnever maxItems
    unfold DockerStops at hlast
    push Not at hlast
    have hnext : dockerOffset script n maxItems ≤ dockerOffset script n (maxItems + 1) := by
      rw [dockerOffset]
      exact Nat.le_add_right _ _
    omega
  classical
  exact ⟨Nat.find hends, Nat.find_spec hends, fun i hi => Nat.find_min hends hi⟩

theorem FirstDockerStop.unique {n other : Nat} (h : FirstDockerStop maxItems script n number)
    (h' : FirstDockerStop maxItems script n other) :
    number = other := by
  rcases Nat.lt_trichotomy number other with hlt | heq | hgt
  · exact absurd h.1 (h'.2 number hlt)
  · exact heq
  · exact absurd h'.1 (h.2 other hgt)

theorem keptFindings_take_eq_iff (rows : List DockerRow) (count : Nat) :
    keptFindings (rows.take count) = keptFindings rows ↔ NoneKept (rows.drop count) := by
  have hsplit : keptFindings rows =
      keptFindings (rows.take count) ++ keptFindings (rows.drop count) := by
    rw [← keptFindings_append, List.take_append_drop]
  rw [hsplit, ← keptFindings_eq_nil_iff]
  exact List.self_eq_append_right

/-- The ends of the query without the flag leave no row behind that names a vulnerability. -/
def LossFlagged (request : BuildRequest) (answers : Answers) (server : List DockerRow)
    (script : DockerScript) : Prop :=
  match answers.dockerToken, answers.dockerHeader with
  | .ok _, .ok _ =>
      ∀ number, FirstDockerStop request.maxItems script server.length number →
        FlaggedStop request.maxItems server script number ∨
          NoneKept (server.drop (dockerOffset script server.length (number + 1)))
  | _, _ => NoneKept server

/-- The page loop ends, and without the flag the source is built from every row that names a
vulnerability, exactly when the ends without the flag leave no such row behind. -/
theorem untruncated_complete_iff (request : BuildRequest) (answers : Answers)
    (server : List DockerRow) (script : DockerScript) :
    (∃ rounds outcome,
        dockerRounds request.maxItems (dockerPagesOf server script) rounds {} = some outcome) ∧
      ((dockerPdql request (answers.fromServer server script)).truncated = false →
        (dockerPdql request (answers.fromServer server script)).primary = keptFindings server) ↔
      LossFlagged request answers server script := by
  have hmax : 0 < request.maxItems := by
    unfold BuildRequest.maxItems
    omega
  obtain ⟨number, hstop⟩ := exists_firstDockerStop request.maxItems script server.length
  have hends : ∃ rounds outcome,
      dockerRounds request.maxItems (dockerPagesOf server script) rounds {} = some outcome := by
    obtain ⟨outcome, hrounds, _⟩ := dockerRounds_eq hmax hstop 0
    exact ⟨_, outcome, hrounds⟩
  have hfailed : ∀ message, (dockerFailure [] message).truncated = false →
      ((dockerFailure [] message).primary = keptFindings server ↔ NoneKept server) := by
    intro message _
    rw [← keptFindings_eq_nil_iff, eq_comm]
    rfl
  refine (and_iff_right hends).trans ?_
  unfold dockerPdql LossFlagged
  have htoken : (answers.fromServer server script).dockerToken = answers.dockerToken := rfl
  have hheader : (answers.fromServer server script).dockerHeader = answers.dockerHeader := rfl
  have hpages : (answers.fromServer server script).dockerPages = dockerPagesOf server script := rfl
  rw [htoken, hheader, hpages]
  cases answers.dockerToken with
  | error message =>
      dsimp only
      exact ⟨fun h => (hfailed message rfl).1 (h rfl), fun h _ => (hfailed message rfl).2 h⟩
  | ok _ =>
      cases answers.dockerHeader with
      | error message =>
          dsimp only
          exact ⟨fun h => (hfailed message rfl).1 (h rfl), fun h _ => (hfailed message rfl).2 h⟩
      | ok _ =>
          dsimp only
          -- the bound of the loop leaves room for the last round
          have hlt : number < request.maxItems :=
            Nat.lt_of_le_of_lt (le_dockerOffset hstop.2) (dockerOffset_lt hmax hstop.2)
          obtain ⟨outcome, hrounds, hprimary, hflag⟩ :=
            dockerRounds_eq hmax hstop (request.maxItems - number - 1)
          have hfuel : number + (request.maxItems - number - 1 + 1) = request.maxItems := by
            omega
          rw [hfuel] at hrounds
          rw [dockerPageLoop_of_dockerRounds hrounds, hprimary, keptFindings_take_eq_iff]
          constructor
          · intro h other hother
            obtain rfl := hstop.unique hother
            rcases Bool.eq_false_or_eq_true outcome.truncated with hset | hunset
            · exact .inl (hflag.1 hset)
            · exact .inr (h hunset)
          · intro h hunset
            rcases h number hstop with hset | hnone
            · exact absurd (hflag.2 hset) (by rw [hunset]; exact Bool.false_ne_true)
            · exact hnone

/-- An error before the first row leaves the flag of the source down. -/
theorem error_loses_rows_unflagged :
    ¬ ∀ (request : BuildRequest) (answers : Answers) (server : List DockerRow)
      (script : DockerScript),
      (dockerPdql request (answers.fromServer server script)).truncated = false →
        (dockerPdql request (answers.fromServer server script)).primary = keptFindings server := by
  intro h
  have hlost := h
    { assetId := "host", limitPerCollection := 1000, maxItemsPerCollection := 5000, uuid5 := id }
    { groups := fun _ => .ok none, pages := fun _ _ _ => .batch [], dockerToken := .ok (),
      dockerHeader := .ok 0, dockerPages := fun _ => .ok { rows := [] } }
    [{ finding := { cveName := "CVE-2024-0001" }, rawVulnerability := true }]
    (fun _ => .error "timeout") rfl
  exact List.cons_ne_nil _ _ hlost.symm

end Ends

end AssetCard
end MpvmApp
