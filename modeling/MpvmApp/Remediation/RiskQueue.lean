import Mathlib.Algebra.Order.Floor.Ring
import Mathlib.Data.Rat.Floor
import Mathlib.Tactic.Linarith
import MpvmApp.Findings.Analytics
import MpvmApp.Remediation.Case
import MpvmApp.Sql.Like

/-!
# The risk queue

The open cases are scored by one expression.  The queue shows the cases by descending score, or
those of one level; the summary counts the cases of every level.  The level of a case is found
three times: from the score of a row, by the bounds of the filter, and by the bounds of the
summary.

Main definitions:

- `riskScore`: the score expression.
- `queue`: a page of the queue with its total.
- `summary`: the counts by level.

Main results:

- Theorem `inBounds_iff`: the bounds of the filter select the scores of their level.
- Theorem `queueRows_level`: the queue of a level is a selection of the whole queue, in its
  order.
- Theorem `queue_pages`: the pages show every row once.
- Theorem `risk_queue_partitions`: the queue, its totals and the summary agree on the levels.
-/

namespace MpvmApp
namespace Remediation

open Sql Findings
open Passports (Collation Collated)

/-! ## Tables of the queue -/

/-- The columns of `asset_cards` that the queue shows. -/
structure RiskCard where
  assetId : String
  displayName : Option String := none
  ipAddress : Option String := none
  fqdn : Option String := none
deriving DecidableEq

/-- The columns of `vulnerability_passports` that the queue reads. -/
structure EvidencePassport where
  internalId : String
  exploitationEvidence : Option Bool := none
  exploitationEvidenceSource : Option String := none
  detailUpdatedAt : Option String := none
  lastSeen : String
deriving DecidableEq

/-- The tables that the queue reads. -/
structure RiskDatabase where
  cases : CaseTable
  cards : List RiskCard
  contexts : List AssetContext
  passports : List EvidencePassport
  cardsNodup : (cards.map RiskCard.assetId).Nodup
  contextsNodup : (contexts.map AssetContext.assetId).Nodup
  passportsNodup : (passports.map EvidencePassport.internalId).Nodup

/-- The matching rows of a `LEFT JOIN`. -/
def leftJoin {α : Type*} (rows : List α) : List (Option α) :=
  if rows.isEmpty then [none] else rows.map some

/-- `SELECT vulnerability_key, COUNT(*) n .. GROUP BY vulnerability_key`. -/
def spreadRows (cases : List CaseRow) : List (String × Nat) :=
  (fromKeys (cases.map CaseRow.vulnerabilityKey)).map fun key =>
    (key, cases.countP fun c => decide (c.vulnerabilityKey = key))

/-- A row of `_QUEUE_SOURCE_SQL`. -/
structure QueueSource where
  caseRow : CaseRow
  card : RiskCard
  context : Option AssetContext
  spread : Option Nat

/-- `_QUEUE_SOURCE_SQL`. -/
def queueSource (db : RiskDatabase) : List QueueSource :=
  db.cases.rows.flatMap fun c =>
    (db.cards.filter fun card => decide (card.assetId = c.assetId)).flatMap fun card =>
      (leftJoin (db.contexts.filter fun x => decide (x.assetId = c.assetId))).flatMap fun context =>
        (leftJoin ((spreadRows db.cases.rows).filter fun s =>
          decide (s.1 = c.vulnerabilityKey))).map fun spread =>
            ⟨c, card, context, spread.map Prod.snd⟩

/-! ## Scores -/

/-- A number cast to `integer`: halves are rounded away from zero. -/
def toInteger (x : Rat) : Int :=
  if 0 ≤ x then ⌊x + 1 / 2⌋ else -⌊-x + 1 / 2⌋

/-- The points of a severity. -/
def severityPoints : Severity → Rat
  | .critical => 40
  | .high => 30
  | .medium => 20
  | .low => 10
  | .unknown => 5

/-- The points of the criticality of a host. -/
def criticalityPoints (criticality : String) : Rat :=
  if criticality = "critical" then 20
  else if criticality = "high" then 14
  else if criticality = "medium" then 8
  else 3

/-- The points of the exposure of a host. -/
def exposurePoints (exposure : String) : Rat :=
  if exposure = "external" then 15
  else if exposure = "internal" then 7
  else 2

/-- `COALESCE(x.criticality,'medium')`. -/
def QueueSource.criticality (row : QueueSource) : String :=
  (row.context.map AssetContext.criticality).getD "medium"

/-- `COALESCE(x.exposure,'internal')`. -/
def QueueSource.exposure (row : QueueSource) : String :=
  (row.context.map AssetContext.exposure).getD "internal"

/-- The case is worked on and its deadline is over. -/
def CaseRow.overdue (c : CaseRow) (now : Instant) : Bool :=
  c.status.isActive && c.dueAt.any fun due => decide (due < now)

/-- The points of the age of a case. -/
def agePoints (now firstSeenAt : Instant) : Rat :=
  if firstSeenAt < now - 90 * day then 5
  else if firstSeenAt < now - 30 * day then 3
  else 0

/-- `EXISTS(SELECT 1 FROM vulnerability_passports ..)`. -/
def hasEvidence (db : RiskDatabase) (c : CaseRow) : Bool :=
  db.passports.any fun p =>
    decide (some p.internalId = c.passportInternalId) && decide (p.exploitationEvidence = some true)

/-- `_risk_sql`. -/
def riskScore (db : RiskDatabase) (now : Instant) (row : QueueSource) : Int :=
  toInteger (min 100 (max 0
    (severityPoints row.caseRow.severity
      + min 10 (row.caseRow.cvssScore.getD 0)
      + criticalityPoints row.criticality
      + exposurePoints row.exposure
      + (if row.caseRow.overdue now then 10 else 0)
      + agePoints now row.caseRow.firstSeenAt
      + (if hasEvidence db row.caseRow then 5 else 0)
      + min 5 ((row.spread.getD 0 : Rat) - 1))))

theorem le_toInteger {n : Int} (hn : 0 ≤ n) {x : Rat} (h : (n : Rat) ≤ x) :
    n ≤ toInteger x := by
  have hzero : (0 : Rat) ≤ n := by exact_mod_cast hn
  have hx : 0 ≤ x := le_trans hzero h
  rw [toInteger, if_pos hx, Int.le_floor]
  linarith

theorem toInteger_le {n : Int} (hn : 0 ≤ n) {x : Rat} (h : x ≤ n) :
    toInteger x ≤ n := by
  unfold toInteger
  split
  · have hlt : ⌊x + 1 / 2⌋ < n + 1 := by
      rw [Int.floor_lt]
      push_cast
      linarith
    omega
  · rename_i hneg
    have hfloor : 0 ≤ ⌊-x + 1 / 2⌋ := by
      rw [Int.floor_nonneg]
      linarith
    omega

theorem riskScore_bounds (db : RiskDatabase) (now : Instant) (row : QueueSource) :
    0 ≤ riskScore db now row ∧ riskScore db now row ≤ 100 := by
  unfold riskScore
  constructor
  · apply le_toInteger (le_refl 0)
    exact le_min (by norm_num) (le_max_left _ _)
  · apply toInteger_le (by norm_num)
    exact_mod_cast min_le_left _ _

/-! ## Levels -/

/-- The levels of a score. -/
inductive RiskLevel where
  | urgent
  | high
  | medium
  | low
deriving DecidableEq, Repr

/-- The level that a row shows. -/
def riskLevel (score : Int) : RiskLevel :=
  if 80 ≤ score then .urgent
  else if 60 ≤ score then .high
  else if 35 ≤ score then .medium
  else .low

/-- The bounds of the level filter. -/
def RiskLevel.bounds : RiskLevel → Int × Int
  | .urgent => (80, 101)
  | .high => (60, 80)
  | .medium => (35, 60)
  | .low => (0, 35)

/-- `(score) >= %s AND (score) < %s`. -/
def inBounds (level : RiskLevel) (score : Int) : Bool :=
  decide (level.bounds.1 ≤ score) && decide (score < level.bounds.2)

/-- The `FILTER` of a level in the summary. -/
def inBucket : RiskLevel → Int → Bool
  | .urgent, score => decide (80 ≤ score)
  | .high, score => decide (60 ≤ score) && decide (score < 80)
  | .medium, score => decide (35 ≤ score) && decide (score < 60)
  | .low, score => decide (score < 35)

/-- The bounds of the filter select the scores of their level. -/
theorem inBounds_iff {score : Int} (h : 0 ≤ score ∧ score ≤ 100) (level : RiskLevel) :
    inBounds level score = true ↔ riskLevel score = level := by
  unfold inBounds riskLevel
  rw [Bool.and_eq_true, decide_eq_true_eq, decide_eq_true_eq]
  cases level <;> split_ifs <;> simp only [RiskLevel.bounds, iff_true, iff_false] <;>
    omega

theorem inBucket_iff (level : RiskLevel) (score : Int) :
    inBucket level score = true ↔ riskLevel score = level := by
  unfold riskLevel
  cases level <;> simp only [inBucket, Bool.and_eq_true, decide_eq_true_eq] <;>
    split_ifs <;> simp only [iff_true, iff_false] <;> omega

/-! ## The queue -/

/-- The filters of the queue and its page. -/
structure QueueFilters where
  owner : Option String := none
  environment : Option String := none
  criticality : Option String := none
  exposure : Option String := none
  tag : Option String := none
  level : Option RiskLevel := none
  limit : Int := 50
  offset : Int := 0

/-- `COALESCE(x.key, fallback) = value`, when the filter has a value. -/
def passesFilter (filter column : Option String) (fallback : String) : Bool :=
  match nullIfEmpty filter with
  | none => true
  | some value => decide (column.getD fallback = value)

/-- `COALESCE(x.tags, '[]') ? value`, when the filter has a value. -/
def passesTag (filter : Option String) (context : Option AssetContext) : Bool :=
  match nullIfEmpty filter with
  | none => true
  | some value => decide (value ∈ (context.map AssetContext.tags).getD [])

/-- The conditions of the queue on a row besides the level. -/
def QueueFilters.selects (filters : QueueFilters) (row : QueueSource) : Bool :=
  !decide (row.caseRow.status = .resolved) &&
    passesFilter filters.owner (row.context.bind AssetContext.owner) "" &&
    passesFilter filters.environment (row.context.map AssetContext.environment) "production" &&
    passesFilter filters.criticality (row.context.map AssetContext.criticality) "medium" &&
    passesFilter filters.exposure (row.context.map AssetContext.exposure) "internal" &&
    passesTag filters.tag row.context

/-- The condition of the queue on a score. -/
def QueueFilters.selectsScore (filters : QueueFilters) (score : Int) : Bool :=
  filters.level.all fun level => inBounds level score

/-- The rows of the source that the queue selects. -/
def selectedRows (db : RiskDatabase) (now : Instant) (filters : QueueFilters) :
    List QueueSource :=
  (queueSource db).filter fun row =>
    filters.selects row && filters.selectsScore (riskScore db now row)

/-- The passports of a case. -/
def passportsOf (db : RiskDatabase) (c : CaseRow) : List EvidencePassport :=
  db.passports.filter fun p => decide (some p.internalId = c.passportInternalId)

/-- The columns of a row of the queue. -/
structure QueueColumns where
  caseRow : CaseRow
  displayName : Option String
  ipAddress : Option String
  fqdn : Option String
  criticality : String
  environment : String
  exposure : String
  owner : Option String
  tags : List String
  riskScore : Int
  contextVersion : Nat
  exploitationEvidence : Option Bool
  exploitationEvidenceSource : Option String
  exploitationEvidenceUpdatedAt : Option String
  affectedHosts : Nat
deriving DecidableEq

/-- When the evidence of a passport was updated. -/
def evidenceUpdatedAt (p : EvidencePassport) : Option String :=
  if p.exploitationEvidence.isSome then
    if p.exploitationEvidenceSource.any fun source => like "raw_detail_json:%" source then
      some (p.detailUpdatedAt.getD p.lastSeen)
    else some p.lastSeen
  else none

/-- The columns of a row and of its passport. -/
def queueColumns (db : RiskDatabase) (now : Instant) (row : QueueSource)
    (passport : Option EvidencePassport) : QueueColumns where
  caseRow := row.caseRow
  displayName := row.card.displayName
  ipAddress := row.card.ipAddress
  fqdn := row.card.fqdn
  criticality := row.criticality
  environment := (row.context.map AssetContext.environment).getD "production"
  exposure := row.exposure
  owner := row.context.bind AssetContext.owner
  tags := (row.context.map AssetContext.tags).getD []
  riskScore := riskScore db now row
  contextVersion := (row.context.map AssetContext.version).getD 0
  exploitationEvidence := passport.bind EvidencePassport.exploitationEvidence
  exploitationEvidenceSource := passport.bind EvidencePassport.exploitationEvidenceSource
  exploitationEvidenceUpdatedAt := passport.bind evidenceUpdatedAt
  affectedHosts := row.spread.getD 0

/-- `ORDER BY risk_score DESC, c.due_at NULLS LAST, c.case_id`. -/
def queueKey (loc : Collation) (row : QueueColumns) :
    Lex (OrderDual Int × Lex (WithTop Instant × Collated loc)) :=
  toLex (OrderDual.toDual row.riskScore,
    toLex (MpvmApp.nullsLast row.caseRow.dueAt, collate loc row.caseRow.caseId))

/-- The rows of the queue before they are paged. -/
def queueRows (loc : Collation) (db : RiskDatabase) (now : Instant) (filters : QueueFilters) :
    List QueueColumns :=
  sortOn (queueKey loc) ((selectedRows db now filters).flatMap fun row =>
    (leftJoin (passportsOf db row.caseRow)).map (queueColumns db now row))

/-- A row as the queue returns it. -/
structure QueueRow extends QueueColumns where
  riskLevel : RiskLevel
  riskFactors : List String
  riskExplanation : String
deriving DecidableEq

/-- The factors that explain a score. -/
def riskFactors (row : QueueColumns) : List String :=
  ["criticality:" ++ row.criticality, "exposure:" ++ row.exposure,
    "severity:" ++ row.caseRow.severity.name] ++
  (if row.exploitationEvidence = some true then ["exploitation:local-passport"] else []) ++
  (if 1 < row.affectedHosts then ["affected_hosts:" ++ toString row.affectedHosts] else []) ++
  (if row.caseRow.dueAt.isSome && row.caseRow.status.isActive then ["sla:tracked"] else [])

/-- The level and the explanation of a row. -/
def decorate (row : QueueColumns) : QueueRow where
  toQueueColumns := row
  riskLevel := riskLevel row.riskScore
  riskFactors := riskFactors row
  riskExplanation := ", ".intercalate (riskFactors row)

/-- `MODEL_VERSION`. -/
def modelVersion : String :=
  "local-risk-v2"

/-- A page of the queue. -/
structure QueuePage where
  rows : List QueueRow
  total : Nat
  limit : Nat
  offset : Nat
  riskModelVersion : String

/-- `RiskRepository.queue`. -/
def queue (loc : Collation) (db : RiskDatabase) (now : Instant) (filters : QueueFilters) :
    QueuePage where
  rows := (page filters.limit filters.offset (queueRows loc db now filters)).map decorate
  total := (selectedRows db now filters).length
  limit := pageLimit filters.limit
  offset := pageOffset filters.offset
  riskModelVersion := modelVersion

/-! ## The summary -/

/-- The counts by level. -/
structure RiskSummary where
  urgent : Nat
  high : Nat
  medium : Nat
  low : Nat
  total : Nat
  riskModelVersion : String

/-- The count of a level. -/
def RiskSummary.count (s : RiskSummary) : RiskLevel → Nat
  | .urgent => s.urgent
  | .high => s.high
  | .medium => s.medium
  | .low => s.low

/-- The scores of the cases that are not resolved. -/
def summaryScores (db : RiskDatabase) (now : Instant) : List Int :=
  ((queueSource db).filter fun row => !decide (row.caseRow.status = .resolved)).map
    (riskScore db now)

/-- `RiskRepository.summary`. -/
def summary (db : RiskDatabase) (now : Instant) : RiskSummary :=
  let scored := summaryScores db now
  let urgent := scored.countP (inBucket .urgent)
  let high := scored.countP (inBucket .high)
  let medium := scored.countP (inBucket .medium)
  let low := scored.countP (inBucket .low)
  { urgent := urgent
    high := high
    medium := medium
    low := low
    total := urgent + high + medium + low
    riskModelVersion := modelVersion }

/-! ## Agreement of the levels -/

theorem selectedRows_level (db : RiskDatabase) (now : Instant) (filters : QueueFilters)
    (level : RiskLevel) :
    selectedRows db now { filters with level := some level } =
      (selectedRows db now { filters with level := none }).filter fun row =>
        decide (riskLevel (riskScore db now row) = level) := by
  unfold selectedRows
  rw [List.filter_filter]
  apply List.filter_congr
  intro row _
  have hlevel : inBounds level (riskScore db now row) =
      decide (riskLevel (riskScore db now row) = level) := by
    rw [Bool.eq_iff_iff, inBounds_iff (riskScore_bounds db now row), decide_eq_true_eq]
  have hselects : ∀ l : Option RiskLevel,
      QueueFilters.selects { filters with level := l } row = filters.selects row := fun _ => rfl
  rw [hselects, hselects]
  simp only [QueueFilters.selectsScore, Option.all_some, Option.all_none, Bool.and_true, hlevel]
  exact Bool.and_comm _ _

/-- The queue of a level is a selection of the whole queue, in its order. -/
theorem queueRows_level (loc : Collation) (db : RiskDatabase) (now : Instant)
    (filters : QueueFilters) (level : RiskLevel) :
    queueRows loc db now { filters with level := some level } =
      (queueRows loc db now { filters with level := none }).filter fun row =>
        decide (riskLevel row.riskScore = level) := by
  unfold queueRows
  rw [filter_sortOn, selectedRows_level]
  congr 1
  induction selectedRows db now { filters with level := none } with
  | nil => rfl
  | cons row rows ih =>
      have hcolumns : ((leftJoin (passportsOf db row.caseRow)).map (queueColumns db now row)).filter
          (fun r => decide (riskLevel r.riskScore = level)) =
          if riskLevel (riskScore db now row) = level then
            (leftJoin (passportsOf db row.caseRow)).map (queueColumns db now row)
          else [] := by
        split
        · rename_i hlevel
          apply List.filter_eq_self.2
          intro r hr
          obtain ⟨passport, _, rfl⟩ := List.mem_map.1 hr
          exact decide_eq_true hlevel
        · rename_i hlevel
          apply List.filter_eq_nil_iff.2
          intro r hr
          obtain ⟨passport, _, rfl⟩ := List.mem_map.1 hr
          exact fun h => hlevel (of_decide_eq_true h)
      rw [List.flatMap_cons, List.filter_append, hcolumns, ← ih, List.filter_cons]
      by_cases hlevel : riskLevel (riskScore db now row) = level
      · simp [hlevel]
      · simp [hlevel]

/-- Every case has one passport at most, so that the total counts the rows. -/
theorem length_queueRows (loc : Collation) (db : RiskDatabase) (now : Instant)
    (filters : QueueFilters) :
    (queueRows loc db now filters).length = (queue loc db now filters).total := by
  have hone : ∀ c : CaseRow, (leftJoin (passportsOf db c)).length = 1 := by
    intro c
    have hle : (passportsOf db c).length ≤ 1 := by
      by_contra hmore
      obtain ⟨p, q, rest, hpq⟩ : ∃ p q rest, passportsOf db c = p :: q :: rest := by
        match hrows : passportsOf db c with
        | [] => simp [hrows] at hmore
        | [_] => simp [hrows] at hmore
        | p :: q :: rest => exact ⟨p, q, rest, rfl⟩
      have hnodup : ((passportsOf db c).map EvidencePassport.internalId).Nodup :=
        db.passportsNodup.sublist (List.filter_sublist.map _)
      have hsame : ∀ x ∈ passportsOf db c, some x.internalId = c.passportInternalId :=
        fun x hx => of_decide_eq_true (List.mem_filter.1 hx).2
      have heq : p.internalId = q.internalId := by
        have hp := hsame p (by simp [hpq])
        have hq := hsame q (by simp [hpq])
        exact Option.some.inj (hp.trans hq.symm)
      rw [hpq, List.map_cons, List.map_cons, List.nodup_cons] at hnodup
      exact hnodup.1 (by simp [heq])
    unfold leftJoin
    split
    · rfl
    · rename_i hne
      have hpos : (passportsOf db c).length ≠ 0 := fun hzero =>
        hne (List.isEmpty_iff.2 (List.length_eq_zero_iff.1 hzero))
      rw [List.length_map]
      omega
  unfold queueRows queue
  rw [length_sortOn, List.length_flatMap]
  simp [hone]

/--
The pages of the queue, one behind another, show every row once and in its order, and the total
counts the rows.
-/
theorem queue_pages (loc : Collation) (db : RiskDatabase) (now : Instant)
    (filters : QueueFilters) :
    (queueRows loc db now filters).length = (queue loc db now filters).total ∧
      ((List.range (queue loc db now filters).total).flatMap fun i => (queue loc db now
          { filters with offset := (i * pageLimit filters.limit : Nat) }).rows) =
        (queueRows loc db now filters).map decorate := by
  have hlimit : 0 < pageLimit filters.limit := by
    unfold pageLimit
    omega
  have hoffset : ∀ n : Nat, pageOffset (n : Int) = n := by
    intro n
    unfold pageOffset
    omega
  have hlength := length_queueRows loc db now filters
  refine ⟨hlength, ?_⟩
  have hpages : ∀ n : Nat, ((List.range n).flatMap fun i => (queue loc db now
      { filters with offset := (i * pageLimit filters.limit : Nat) }).rows) =
        ((queueRows loc db now filters).map decorate).take (n * pageLimit filters.limit) := by
    intro n
    induction n with
    | zero => simp
    | succ n ih =>
        rw [List.range_succ, List.flatMap_append, ih, List.flatMap_singleton, Nat.succ_mul,
          List.take_add]
        simp only [queue, page, hoffset, List.map_take, List.map_drop]
        rfl
  rw [hpages, List.take_of_length_le]
  rw [List.length_map, hlength]
  exact Nat.le_mul_of_pos_right _ hlimit

/-- A row is on some page of the queue. -/
def Appears (loc : Collation) (db : RiskDatabase) (now : Instant) (filters : QueueFilters)
    (row : QueueRow) : Prop :=
  ∃ offset, row ∈ (queue loc db now { filters with offset := offset }).rows

/-- The pages of the queue show its rows. -/
theorem appears_iff (loc : Collation) (db : RiskDatabase) (now : Instant) (filters : QueueFilters)
    (row : QueueRow) :
    Appears loc db now filters row ↔ ∃ columns ∈ queueRows loc db now filters,
      decorate columns = row := by
  constructor
  · rintro ⟨offset, hrow⟩
    obtain ⟨columns, hcolumns, rfl⟩ := List.mem_map.1 hrow
    exact ⟨columns, List.mem_of_mem_drop (List.mem_of_mem_take hcolumns), rfl⟩
  · rintro ⟨columns, hcolumns, rfl⟩
    obtain ⟨i, hi, rfl⟩ := List.getElem_of_mem hcolumns
    refine ⟨i, List.mem_map_of_mem ?_⟩
    have hlimit : 0 < pageLimit filters.limit := by
      unfold pageLimit
      omega
    have hoffset : pageOffset (i : Int) = i := by
      unfold pageOffset
      omega
    unfold page
    rw [List.mem_iff_getElem]
    refine ⟨0, ?_, ?_⟩
    · rw [List.length_take, List.length_drop, hoffset]
      exact Nat.lt_min.2 ⟨hlimit, Nat.sub_pos_of_lt hi⟩
    · simp only [List.getElem_take, List.getElem_drop, hoffset, Nat.add_zero]
      rfl

theorem sum_levels {α : Type*} (score : α → Int) (rows : List α) :
    (rows.filter fun row => decide (riskLevel (score row) = .urgent)).length +
        (rows.filter fun row => decide (riskLevel (score row) = .high)).length +
        (rows.filter fun row => decide (riskLevel (score row) = .medium)).length +
        (rows.filter fun row => decide (riskLevel (score row) = .low)).length =
      rows.length := by
  induction rows with
  | nil => rfl
  | cons row rows ih =>
      simp only [List.filter_cons, List.length_cons]
      cases riskLevel (score row) <;>
        simp only [decide_true, reduceCtorEq, decide_false, if_true, if_false, List.length_cons,
          Bool.false_eq_true] <;> omega

theorem summary_count (loc : Collation) (db : RiskDatabase) (now : Instant) (level : RiskLevel) :
    (summary db now).count level = (queue loc db now { level := some level }).total := by
  have hcount : (summary db now).count level =
      (summaryScores db now).countP (inBucket level) := by
    cases level <;> rfl
  have hrows : (queueSource db).filter (fun row => !decide (row.caseRow.status = .resolved)) =
      selectedRows db now {} := by
    apply List.filter_congr
    intro row _
    simp [QueueFilters.selects, QueueFilters.selectsScore, passesFilter, passesTag, nullIfEmpty]
  have hlevel := selectedRows_level db now {} level
  rw [hcount, summaryScores, hrows, List.countP_map, List.countP_eq_length_filter]
  show _ = (selectedRows db now { level := some level }).length
  rw [hlevel]
  apply congrArg
  apply List.filter_congr
  intro row _
  rw [Bool.eq_iff_iff, Function.comp_apply, inBucket_iff, decide_eq_true_eq]

theorem sum_totals (loc : Collation) (db : RiskDatabase) (now : Instant)
    (filters : QueueFilters) :
    (queue loc db now { filters with level := some .urgent }).total +
        (queue loc db now { filters with level := some .high }).total +
        (queue loc db now { filters with level := some .medium }).total +
        (queue loc db now { filters with level := some .low }).total =
      (queue loc db now { filters with level := none }).total := by
  unfold queue
  simp only [selectedRows_level]
  exact sum_levels _ _

/-- The queue, its totals and the summary agree on the levels. -/
theorem risk_queue_partitions (loc : Collation) (db : RiskDatabase) (now : Instant) :
    (∀ (filters : QueueFilters) (level : RiskLevel) (row : QueueRow),
      Appears loc db now { filters with level := some level } row ↔
        Appears loc db now { filters with level := none } row ∧ row.riskLevel = level) ∧
    (∀ filters : QueueFilters,
      (queue loc db now { filters with level := some .urgent }).total +
          (queue loc db now { filters with level := some .high }).total +
          (queue loc db now { filters with level := some .medium }).total +
          (queue loc db now { filters with level := some .low }).total =
        (queue loc db now { filters with level := none }).total) ∧
    (∀ level, (summary db now).count level =
      (queue loc db now { level := some level }).total) ∧
    (summary db now).total = (queue loc db now {}).total := by
  refine ⟨?_, sum_totals loc db now, summary_count loc db now, ?_⟩
  · intro filters level row
    rw [appears_iff, appears_iff, queueRows_level]
    constructor
    · rintro ⟨columns, hcolumns, rfl⟩
      obtain ⟨hmem, hlevel⟩ := List.mem_filter.1 hcolumns
      exact ⟨⟨columns, hmem, rfl⟩, of_decide_eq_true hlevel⟩
    · rintro ⟨⟨columns, hmem, rfl⟩, hlevel⟩
      exact ⟨columns, List.mem_filter.2 ⟨hmem, decide_eq_true hlevel⟩, rfl⟩
  · rw [← sum_totals loc db now {}]
    show (summary db now).count .urgent + (summary db now).count .high +
      (summary db now).count .medium + (summary db now).count .low = _
    simp only [summary_count loc db now]

end Remediation
end MpvmApp
