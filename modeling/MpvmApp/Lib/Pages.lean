import Mathlib.Algebra.BigOperators.Group.List.Basic
import Mathlib.Algebra.GroupWithZero.Nat
import Mathlib.Data.List.Basic
import Mathlib.Data.List.Induction

/-!
# Pages of a list

A reader gets a list in pages.  Each page is a span of the list, and the spans say which
positions are read, in which order and how often.

Main definitions:

- Definition `positions`: the positions that some spans read.
- Definition `cuts`: what they cut out of a list.
- Definition `Tiles`: the spans lie one behind another, up to a position.

Main results:

- Theorem `positions_eq_range'_iff`: the positions are consecutive exactly when the spans
  lie one behind another.
- Theorem `cuts_eq_of_positions`: spans that read every position once give the list.
- Theorem `take_cuts_zipIdx_eq_iff`: elements that carry their positions are all read in order
  exactly when their positions are.
- Theorem `flatten_pages`: pages of one length are a first part of the list.
-/

namespace MpvmApp
namespace Pages

/-- A part of a list: where it starts, and how many elements it has. -/
structure Span where
  start : Nat
  count : Nat
deriving DecidableEq

/-- The positions of a span. -/
def Span.positions (span : Span) : List Nat :=
  List.range' span.start span.count

/-- The elements of a span. -/
def Span.cut {α : Type} (span : Span) (xs : List α) : List α :=
  (xs.drop span.start).take span.count

/-- The positions of spans, in the order in which they are read. -/
def positions (spans : List Span) : List Nat :=
  spans.flatMap Span.positions

/-- The elements of spans, in the order in which they are read. -/
def cuts {α : Type} (spans : List Span) (xs : List α) : List α :=
  spans.flatMap fun span => span.cut xs

/-- How many elements spans have. -/
def counted (spans : List Span) : Nat :=
  (spans.map Span.count).sum

/-- The spans up to a number of elements. -/
def clip : Nat → List Span → List Span
  | _, [] => []
  | limit, span :: spans =>
      { start := span.start, count := min limit span.count } :: clip (limit - span.count) spans

/-- The spans that are not empty lie one behind another, from one position up to another. -/
def Tiles (stop : Nat) : Nat → List Span → Prop
  | start, [] => start = stop
  | start, span :: spans =>
      (span.count = 0 ∧ Tiles stop start spans) ∨
        (span.count ≠ 0 ∧ span.start = start ∧ Tiles stop (start + span.count) spans)

section Spans

variable {α : Type} {spans : List Span}

@[simp]
theorem positions_nil :
    positions [] = [] := rfl

@[simp]
theorem positions_cons (span : Span) (spans : List Span) :
    positions (span :: spans) = span.positions ++ positions spans := by
  simp [positions]

@[simp]
theorem cuts_nil (xs : List α) :
    cuts [] xs = [] := rfl

@[simp]
theorem cuts_cons (span : Span) (spans : List Span) (xs : List α) :
    cuts (span :: spans) xs = span.cut xs ++ cuts spans xs := by
  simp [cuts]

@[simp]
theorem cuts_append (front back : List Span) (xs : List α) :
    cuts (front ++ back) xs = cuts front xs ++ cuts back xs := by
  simp [cuts]

/-- Elements can be changed before or after they are cut out. -/
theorem map_cuts {β : Type} (f : α → β) (spans : List Span) (xs : List α) :
    (cuts spans xs).map f = cuts spans (xs.map f) := by
  induction spans with
  | nil => rfl
  | cons span spans ih =>
      rw [cuts_cons, cuts_cons, List.map_append, ih, Span.cut, Span.cut, List.map_take,
        List.map_drop]

@[simp]
theorem counted_nil :
    counted [] = 0 := rfl

@[simp]
theorem counted_cons (span : Span) (spans : List Span) :
    counted (span :: spans) = span.count + counted spans := by
  simp [counted]

@[simp]
theorem counted_append (front back : List Span) :
    counted (front ++ back) = counted front + counted back := by
  simp [counted]

/-- A span with no more elements than there are from its start on cuts them. -/
theorem Span.length_cut {span : Span} {xs : List α} (h : span.count ≤ xs.length - span.start) :
    (span.cut xs).length = span.count := by
  rw [Span.cut, List.length_take, List.length_drop, Nat.min_eq_left h]

/-- Spans inside a list cut as many elements as they have. -/
theorem length_cuts {xs : List α} (h : ∀ span ∈ spans, span.count ≤ xs.length - span.start) :
    (cuts spans xs).length = counted spans := by
  induction spans with
  | nil => rfl
  | cons span spans ih =>
      rw [cuts_cons, counted_cons, List.length_append,
        Span.length_cut (h span List.mem_cons_self),
        ih fun span hspan => h span (List.mem_cons_of_mem _ hspan)]

/-- A page that asks for more elements than there are gets those that there are. -/
theorem take_drop_eq_cut (xs : List α) (start length : Nat) :
    (xs.drop start).take length = (Span.mk start (min length (xs.length - start))).cut xs := by
  rw [Span.cut]
  by_cases h : length ≤ xs.length - start
  · rw [Nat.min_eq_left h]
  · have hall : (xs.drop start).length ≤ length := by
      rw [List.length_drop]
      omega
    rw [List.take_of_length_le hall, Nat.min_eq_right (by omega), List.take_of_length_le]
    exact Nat.le_of_eq List.length_drop

/-! ## Consecutive positions -/

/-- Spans lie behind the position at which they start. -/
theorem Tiles.le {stop start : Nat} (h : Tiles stop start spans) :
    start ≤ stop := by
  induction spans generalizing start with
  | nil => exact Nat.le_of_eq h
  | cons span spans ih =>
      rcases h with ⟨_, h⟩ | ⟨_, _, h⟩
      · exact ih h
      · exact Nat.le_trans (Nat.le_add_right _ _) (ih h)

/-- Spans lie one behind another when the first ones do, and the others from where they end. -/
theorem tiles_append {stop start : Nat} {front back : List Span} :
    Tiles stop start (front ++ back) ↔
      ∃ middle, Tiles middle start front ∧ Tiles stop middle back := by
  induction front generalizing start with
  | nil => simp [Tiles]
  | cons span front ih =>
      rw [List.cons_append, Tiles, ih, ih]
      constructor
      · rintro (⟨hcount, middle, hfront, hback⟩ | ⟨hcount, hstart, middle, hfront, hback⟩)
        · exact ⟨middle, .inl ⟨hcount, hfront⟩, hback⟩
        · exact ⟨middle, .inr ⟨hcount, hstart, hfront⟩, hback⟩
      · rintro ⟨middle, ⟨hcount, hfront⟩ | ⟨hcount, hstart, hfront⟩, hback⟩
        · exact .inl ⟨hcount, middle, hfront, hback⟩
        · exact .inr ⟨hcount, hstart, middle, hfront, hback⟩

/-- One more span: it is empty, or it starts where the others end. -/
theorem tiles_concat {stop start : Nat} {span : Span} :
    Tiles stop start (spans ++ [span]) ↔
      (span.count = 0 ∧ Tiles stop start spans) ∨
        (span.count ≠ 0 ∧ Tiles span.start start spans ∧ span.start + span.count = stop) := by
  rw [tiles_append]
  constructor
  · rintro ⟨middle, hspans, ⟨hcount, hstop⟩ | ⟨hcount, rfl, hstop⟩⟩
    · exact .inl ⟨hcount, hstop ▸ hspans⟩
    · exact .inr ⟨hcount, hspans, hstop⟩
  · rintro (⟨hcount, hspans⟩ | ⟨hcount, hspans, hstop⟩)
    · exact ⟨stop, hspans, .inl ⟨hcount, rfl⟩⟩
    · exact ⟨span.start, hspans, .inr ⟨hcount, rfl, hstop⟩⟩

/-- The positions of spans are consecutive exactly when the spans lie one behind another. -/
theorem positions_eq_range'_iff (start n : Nat) :
    positions spans = List.range' start n ↔ Tiles (start + n) start spans := by
  induction spans generalizing start n with
  | nil =>
      rw [positions_nil, Tiles, eq_comm, List.range'_eq_nil_iff]
      omega
  | cons span spans ih =>
      rw [positions_cons, Tiles, Span.positions]
      by_cases hcount : span.count = 0
      · simp [hcount, ih]
      · simp only [hcount, false_and, ne_eq, not_false_eq_true, true_and, false_or]
        constructor
        · intro h
          have hlength := congrArg List.length h
          rw [List.length_append, List.length_range', List.length_range'] at hlength
          obtain ⟨m, hm⟩ : ∃ m, n = span.count + m := ⟨n - span.count, by omega⟩
          subst hm
          rw [← List.range'_append_1] at h
          obtain ⟨hhead, htail⟩ := List.append_inj h (by simp)
          have hstart : span.start = start := by
            obtain ⟨c, hc⟩ := Nat.exists_eq_succ_of_ne_zero hcount
            rw [hc, List.range'_succ, List.range'_succ] at hhead
            exact (List.cons.inj hhead).1
          refine ⟨hstart, ?_⟩
          rw [← Nat.add_assoc]
          exact (ih _ _).1 htail
        · rintro ⟨rfl, htiles⟩
          have hn := htiles.le
          obtain ⟨m, hm⟩ : ∃ m, n = span.count + m := ⟨n - span.count, by omega⟩
          subst hm
          rw [← List.range'_append_1, (ih _ m).2 (by rwa [Nat.add_assoc])]

/-- The elements of a span are those at its positions. -/
theorem Span.cut_eq_filterMap (span : Span) (xs : List α) :
    span.cut xs = span.positions.filterMap fun i => xs[i]? := by
  rw [Span.cut, Span.positions]
  generalize span.start = start
  induction span.count generalizing start with
  | zero => simp
  | succ n ih =>
      rw [List.range'_succ, List.filterMap_cons, ← ih]
      cases h : xs[start]? with
      | none =>
          have hle := List.getElem?_eq_none_iff.1 h
          rw [List.drop_eq_nil_of_le hle, List.drop_eq_nil_of_le (by omega), List.take_nil,
            List.take_nil]
      | some x =>
          obtain ⟨hlt, rfl⟩ := List.getElem?_eq_some_iff.1 h
          rw [List.drop_eq_getElem_cons hlt, List.take_succ_cons]

/-- The elements of spans are those at their positions. -/
theorem cuts_eq_filterMap (spans : List Span) (xs : List α) :
    cuts spans xs = (positions spans).filterMap fun i => xs[i]? := by
  induction spans with
  | nil => rfl
  | cons span spans ih =>
      rw [cuts_cons, positions_cons, List.filterMap_append, ih, span.cut_eq_filterMap]

/-- Spans that read every position once and in order give the list. -/
theorem cuts_eq_of_positions {xs : List α} (h : positions spans = List.range xs.length) :
    cuts spans xs = xs := by
  have hall : (Span.mk 0 xs.length).positions = List.range xs.length :=
    List.range_eq_range'.symm
  rw [cuts_eq_filterMap, h, ← hall, ← Span.cut_eq_filterMap, Span.cut, List.drop_zero,
    List.take_length]

/-- The positions of spans up to a number of elements. -/
theorem positions_clip (limit : Nat) (spans : List Span) :
    positions (clip limit spans) = (positions spans).take limit := by
  induction spans generalizing limit with
  | nil => simp [clip]
  | cons span spans ih =>
      rw [clip, positions_cons, positions_cons, ih, List.take_append, Span.positions,
        Span.positions, List.length_range']
      congr 1
      by_cases hle : limit ≤ span.count
      · rw [Nat.min_eq_left hle]
        obtain ⟨rest, hrest⟩ := Nat.exists_eq_add_of_le hle
        rw [hrest, ← List.range'_append_1, List.take_left']
        exact List.length_range'
      · have hge : span.count ≤ limit := by omega
        rw [Nat.min_eq_right hge, List.take_of_length_le]
        rw [List.length_range']
        exact hge

/-- Nothing is left out of the first elements when nothing is left out at all. -/
theorem take_filterMap_of_isSome {β : Type} {f : α → Option β} {xs : List α} {limit : Nat}
    (h : ∀ x ∈ xs, (f x).isSome) :
    (xs.filterMap f).take limit = (xs.take limit).filterMap f := by
  induction xs generalizing limit with
  | nil => simp
  | cons x xs ih =>
      obtain ⟨y, hy⟩ := Option.isSome_iff_exists.1 (h x List.mem_cons_self)
      cases limit with
      | zero => rfl
      | succ limit =>
          rw [List.filterMap_cons_some hy, List.take_succ_cons, List.take_succ_cons,
            List.filterMap_cons_some hy, ih fun x hx => h x (List.mem_cons_of_mem _ hx)]

/-- The elements of spans with their positions in the list: they are all of them in order exactly
when the positions are. -/
theorem take_cuts_zipIdx_eq_iff {xs : List α} {limit : Nat}
    (hinside : ∀ span ∈ spans, span.count ≤ xs.length - span.start) :
    (cuts spans xs.zipIdx).take limit = xs.zipIdx ↔
      (positions spans).take limit = List.range xs.length := by
  have hpositions : ∀ i ∈ positions spans, i < xs.length := by
    intro i hi
    obtain ⟨span, hspan, hmem⟩ := List.mem_flatMap.1 hi
    have hcount := hinside span hspan
    have hrange := List.mem_range'_1.1 hmem
    omega
  have hindices : (cuts spans xs.zipIdx).map Prod.snd = positions spans := by
    rw [cuts_eq_filterMap, List.map_filterMap]
    have hself : ∀ i ∈ positions spans, (xs.zipIdx[i]?).map Prod.snd = some i := by
      intro i hi
      rw [List.getElem?_zipIdx, List.getElem?_eq_getElem (hpositions i hi)]
      simp
    exact (List.filterMap_congr hself).trans List.filterMap_some
  constructor
  · intro h
    rw [← hindices, ← List.map_take, h, List.zipIdx_map_snd, List.range_eq_range']
  · intro h
    have hsome : ∀ i ∈ positions spans, (xs.zipIdx[i]?).isSome := by
      intro i hi
      rw [isSome_getElem?, List.length_zipIdx]
      exact hpositions i hi
    have hall : (Span.mk 0 xs.zipIdx.length).positions = List.range xs.length := by
      rw [List.length_zipIdx, List.range_eq_range']
      rfl
    rw [cuts_eq_filterMap, take_filterMap_of_isSome hsome, h, ← hall, ← Span.cut_eq_filterMap,
      Span.cut, List.drop_zero, List.take_length]

/-- Pages of one length, one behind another, are a first part of the list. -/
theorem flatten_pages {pages : List (List α)} {xs : List α} {length : Nat}
    (h : ∀ i page, pages[i]? = some page → page = (xs.drop (i * length)).take length) :
    pages.flatten = xs.take (pages.length * length) := by
  induction pages using List.reverseRecOn with
  | nil => simp
  | append_singleton pages page ih =>
      have hfront : pages.flatten = xs.take (pages.length * length) := by
        refine ih fun i page' hpage' => h i page' ?_
        rw [List.getElem?_append_left (List.getElem?_eq_some_iff.1 hpage').1]
        exact hpage'
      have hlast : page = (xs.drop (pages.length * length)).take length :=
        h pages.length page List.getElem?_concat_length
      rw [List.flatten_append, hfront, List.flatten_singleton, hlast, List.length_append,
        List.length_singleton, Nat.succ_mul, List.take_add]

end Spans

end Pages
end MpvmApp
