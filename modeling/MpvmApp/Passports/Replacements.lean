import MpvmApp.Passports.Catalog

/-!
# Which passports are replaced

The plan of a full catalog pairs passports that the catalog does not name with those that it
names, from the strictest key to the loosest one.  A row leaves the plan when it is paired, so
that what happens at a depth depends on what the depths before it have left.

Main definitions:

- Definition `IdRow.hasSole`: one successor has the key of the row.
- Definition `Superseded`: the row has a successor that it can be told to belong to.

Main results:

- Theorem `Paired.pairDepth`: one depth pairs the open rows with one successor.
- Theorem `mem_planPassportReplacements_iff`: the plan replaces exactly the superseded rows.
-/

namespace MpvmApp
namespace Passports

open Sql

/-- The successors with the key of a row. -/
def IdRow.successors (row : IdRow) (successors : List IdRow) (depth : Depth) : List IdRow :=
  successors.filter fun new => (row.key depth).isSome && decide (new.key depth = row.key depth)

/-- One successor has the key of the row. -/
def IdRow.hasSole (row : IdRow) (successors : List IdRow) (depth : Depth) : Bool :=
  decide ((row.successors successors depth).length = 1)

/-- The keys with the package tell the successor of the row. -/
def IdRow.byPackage (row : IdRow) (successors : List IdRow) : Bool :=
  row.hasSole successors .exact || row.hasSole successors .package

/--
The row has one successor by its package, or one by the external id alone, when the package of
the successor or of all the rows without one by the package is unknown.
-/
def Superseded (successors stale : List IdRow) (row : IdRow) : Bool :=
  row.byPackage successors ||
    row.hasSole successors .external &&
      (row.successors successors .external).all fun new =>
        passportPackageUnknown new (stale.filter fun other =>
          decide (other.key .external = row.key .external) && !other.byPackage successors)

/-- The pairs of a plan so far are those of the rows, and the open rows are the others. -/
structure Paired (rows : List IdRow) (paired : IdRow → Bool) (plan : Plan) : Prop where
  pending : plan.pending = rows.filter fun row => !paired row
  pairs : ∀ id, id ∈ plan.pairs.map Prod.fst ↔ ∃ row ∈ rows, paired row = true ∧ row.internalId = id

/-- A depth pairs the open rows with this key. -/
def takes (successors : List IdRow) (depth : Depth) (pending : List IdRow)
    (key : List (Option String)) : Bool :=
  match successors.filter fun row => decide (row.key depth = some key) with
  | [new] =>
      !(depth = .external &&
        !passportPackageUnknown new
          (pending.filter fun row => decide (row.key depth = some key)))
  | _ => false

section Pairing

variable {successors rows : List IdRow} {paired : IdRow → Bool} {plan : Plan} {depth : Depth}

theorem pairKey_of_takes {key : List (Option String)}
    (h : takes successors depth plan.pending key = true) :
    (pairKey successors depth plan key).pending =
        (plan.pending.filter fun row => !decide (row.key depth = some key)) ∧
      (pairKey successors depth plan key).pairs.map Prod.fst =
        plan.pairs.map Prod.fst ++
          (plan.pending.filter fun row => decide (row.key depth = some key)).map
            IdRow.internalId := by
  unfold takes at h
  unfold pairKey
  split at h
  · rename_i new hnew
    rw [hnew]
    dsimp only
    rw [if_neg fun hnot => by rw [hnot] at h; cases h]
    simp [Function.comp_def]
  · cases h

theorem pairKey_of_not_takes {key : List (Option String)}
    (h : takes successors depth plan.pending key = false) :
    (pairKey successors depth plan key).pending = plan.pending ∧
      (pairKey successors depth plan key).pairs = plan.pairs := by
  unfold takes at h
  unfold pairKey
  split
  · exact ⟨rfl, rfl⟩
  · rename_i new hnew
    rw [hnew] at h
    dsimp only at h ⊢
    rw [if_pos (by simpa using h)]
    exact ⟨rfl, rfl⟩
  · exact ⟨rfl, rfl⟩

theorem takes_pairKey {key other : List (Option String)} (hne : other ≠ key) :
    takes successors depth (pairKey successors depth plan key).pending other =
      takes successors depth plan.pending other := by
  have hopen : (pairKey successors depth plan key).pending.filter
      (fun row => decide (row.key depth = some other)) =
        plan.pending.filter fun row => decide (row.key depth = some other) := by
    cases htakes : takes successors depth plan.pending key with
    | false => rw [(pairKey_of_not_takes htakes).1]
    | true =>
        rw [(pairKey_of_takes htakes).1, List.filter_filter]
        apply List.filter_congr
        intro row _
        by_cases hkey : row.key depth = some other
        · simp [hkey, hne]
        · simp [hkey]
  unfold takes
  rw [hopen]

theorem Paired.congr (h : Paired rows paired plan) {paired' : IdRow → Bool}
    (heq : ∀ row ∈ rows, paired' row = paired row) :
    Paired rows paired' plan where
  pending := by
    rw [h.pending]
    apply List.filter_congr
    intro row hrow
    rw [heq row hrow]
  pairs := by
    intro id
    rw [h.pairs]
    refine exists_congr fun row => and_congr_right fun hrow => ?_
    rw [heq row hrow]

/-- One key pairs its open rows, when it is taken. -/
theorem Paired.pairKey (h : Paired rows paired plan) (key : List (Option String)) :
    Paired rows
      (fun row => paired row ||
        (decide (row.key depth = some key) && takes successors depth plan.pending key))
      (pairKey successors depth plan key) := by
  cases htakes : takes successors depth plan.pending key with
  | false =>
      obtain ⟨hpending, hpairs⟩ := pairKey_of_not_takes htakes
      simp only [Bool.and_false, Bool.or_false]
      constructor
      · rw [hpending, h.pending]
      · rw [hpairs]
        exact h.pairs
  | true =>
      obtain ⟨hpending, hpairs⟩ := pairKey_of_takes htakes
      simp only [Bool.and_true]
      constructor
      · rw [hpending, h.pending, List.filter_filter]
        apply List.filter_congr
        intro row _
        rw [Bool.not_or, Bool.and_comm]
      · intro id
        rw [hpairs, List.mem_append, h.pairs, h.pending]
        simp only [List.mem_map, List.mem_filter, Bool.not_eq_true', decide_eq_true_eq,
          Bool.or_eq_true]
        constructor
        · rintro (⟨row, hrow, hpaired, hid⟩ | ⟨row, ⟨⟨hrow, _⟩, hkey⟩, hid⟩)
          · exact ⟨row, hrow, .inl hpaired, hid⟩
          · exact ⟨row, hrow, .inr hkey, hid⟩
        · rintro ⟨row, hrow, hnow, hid⟩
          by_cases hpaired : paired row = true
          · exact .inl ⟨row, hrow, hpaired, hid⟩
          · have hkey := hnow.resolve_left hpaired
            exact .inr ⟨row, ⟨⟨hrow, Bool.eq_false_iff.2 hpaired⟩, hkey⟩, hid⟩

/-- The keys of a depth one after the other, each against the open rows before the first. -/
theorem Paired.foldl_pairKey (h : Paired rows paired plan) {keys : List (List (Option String))}
    (hkeys : keys.Nodup) :
    Paired rows
      (fun row => paired row ||
        (row.key depth).any fun key =>
          decide (key ∈ keys) && takes successors depth plan.pending key)
      (keys.foldl (Passports.pairKey successors depth) plan) := by
  induction keys generalizing plan paired with
  | nil => simpa using h
  | cons key keys ih =>
      obtain ⟨hfresh, hkeys⟩ := List.nodup_cons.1 hkeys
      have hhead : Paired rows
          (fun row => paired row ||
            (decide (row.key depth = some key) && takes successors depth plan.pending key))
          (Passports.pairKey successors depth plan key) := h.pairKey key
      have hrest := ih hhead hkeys
      rw [List.foldl_cons]
      refine hrest.congr fun row _ => ?_
      cases hkey : row.key depth with
      | none => simp
      | some own =>
          by_cases hown : own = key
          · subst hown
            simp [hfresh]
          · simp [hown, takes_pairKey hown]

/-- One depth pairs the open rows whose key is taken. -/
theorem Paired.pairDepth (h : Paired rows paired plan) :
    Paired rows
      (fun row => paired row || (row.key depth).any (takes successors depth plan.pending))
      (pairDepth successors plan depth) := by
  refine (h.foldl_pairKey (nodup_fromKeys _)).congr fun row hrow => ?_
  cases hpaired : paired row with
  | true => rfl
  | false =>
      have hopen : row ∈ plan.pending := by
        rw [h.pending]
        exact List.mem_filter.2 ⟨hrow, by simp [hpaired]⟩
      cases hkey : row.key depth with
      | none => rfl
      | some key =>
          have hmem : key ∈ fromKeys (plan.pending.filterMap fun row => row.key depth) := by
            rw [mem_fromKeys]
            exact List.mem_filterMap.2 ⟨row, hopen, hkey⟩
          rw [Option.any_some, Option.any_some, decide_eq_true hmem, Bool.true_and]

/-! ## The three depths -/

theorem successors_of_key {row : IdRow} {key : List (Option String)}
    (hkey : row.key depth = some key) :
    row.successors successors depth =
      successors.filter fun new => decide (new.key depth = some key) := by
  simp [IdRow.successors, hkey]

theorem any_takes_of_package (hdepth : depth ≠ .external) (pending : List IdRow) (row : IdRow) :
    (row.key depth).any (takes successors depth pending) = row.hasSole successors depth := by
  cases hkey : row.key depth with
  | none => simp [IdRow.hasSole, IdRow.successors, hkey]
  | some key =>
      rw [Option.any_some, IdRow.hasSole, successors_of_key hkey, takes]
      split
      · rename_i new hnew
        simp [hnew, hdepth]
      · rename_i hnot
        refine (decide_eq_false fun hlength => ?_).symm
        obtain ⟨new, hnew⟩ := List.length_eq_one_iff.1 hlength
        exact hnot new hnew

theorem any_takes_external (pending : List IdRow) (row : IdRow) :
    (row.key .external).any (takes successors .external pending) =
      (row.hasSole successors .external &&
        (row.successors successors .external).all fun new =>
          passportPackageUnknown new
            (pending.filter fun other => decide (other.key .external = row.key .external))) := by
  cases hkey : row.key .external with
  | none => simp [IdRow.hasSole, IdRow.successors, hkey]
  | some key =>
      rw [Option.any_some, IdRow.hasSole, successors_of_key hkey, takes]
      split
      · rename_i new hnew
        simp [hnew]
      · rename_i hnot
        refine (Bool.and_eq_false_imp.2 fun hlength => ?_).symm
        obtain ⟨new, hnew⟩ := List.length_eq_one_iff.1 (of_decide_eq_true hlength)
        exact absurd hnew (hnot new)

/-- The rows that a catalog can replace: those with an id that is not one of the successors. -/
def replaceable (successors stale : List IdRow) : List IdRow :=
  stale.filter fun row =>
    decide (row.internalId ≠ "") && decide (row.internalId ∉ successors.map IdRow.internalId)

/-- The plan of a full catalog replaces exactly the superseded rows. -/
theorem mem_planPassportReplacements_iff (successors stale : List IdRow)
    (hids : ∀ row ∈ successors, row.internalId ≠ "") (id : String) :
    id ∈ (planPassportReplacements successors stale true).pairs.map Prod.fst ↔
      ∃ row ∈ replaceable successors stale,
        Superseded successors (replaceable successors stale) row = true ∧
          row.internalId = id := by
  have hkept : (successors.filter fun row => decide (row.internalId ≠ "")) = successors :=
    List.filter_eq_self.2 fun row hrow => decide_eq_true (hids row hrow)
  unfold planPassportReplacements
  simp only [hkept, if_true, List.foldl_cons, List.foldl_nil]
  have hstart : Paired (replaceable successors stale) (fun _ => false)
      { pending := replaceable successors stale } := by
    constructor
    · simp
    · simp
  have hexact : Paired (replaceable successors stale) (fun row => row.hasSole successors .exact)
      (pairDepth successors { pending := replaceable successors stale } .exact) := by
    refine Paired.congr hstart.pairDepth fun row _ => ?_
    rw [Bool.false_or, any_takes_of_package (by decide : Depth.exact ≠ .external)]
  have hpackage : Paired (replaceable successors stale) (fun row => row.byPackage successors)
      (pairDepth successors
        (pairDepth successors { pending := replaceable successors stale } .exact) .package) := by
    refine Paired.congr hexact.pairDepth fun row _ => ?_
    rw [any_takes_of_package (by decide : Depth.package ≠ .external), IdRow.byPackage]
  have hlast : Paired (replaceable successors stale) _
      (pairDepth successors (pairDepth successors
        (pairDepth successors { pending := replaceable successors stale } .exact) .package)
        .external) := hpackage.pairDepth
  have hexternal := hlast.pairs id
  simp only [hpackage.pending, any_takes_external, List.filter_filter] at hexternal
  exact hexternal

end Pairing

end Passports
end MpvmApp
