import MpvmApp.Lib.GroupTotals
import MpvmApp.Passports.Replacements

/-!
# The plan of replacements

The plan depends on which rows are stored and which are issued, not on their order, and every pair
of it is told by a key that one successor has.  One depth is described by what it makes of the open
rows: the rows with a key that is taken are paired, the others stay open, and the successors of an
open row that share its key are ambiguous.

Main definitions:

- Definition `planAfter`: the plan after some of the depths.
- Definition `PairedAt`: the row and its successor are paired at a depth.

Main results:

- Theorem `mem_pairs_pairDepth`: the pairs of one depth.
- Theorem `SamePlan.pairDepth`: a depth does not depend on the order of the rows.
- Theorem `plan_sound`: what holds of every pair, and that no order matters.
-/

namespace MpvmApp
namespace Passports

/-- The successors that could not be told apart and have replaced nothing. -/
def Plan.ambiguousCount (plan : Plan) : Nat :=
  (fromKeys (plan.ambiguous.filter fun id => decide (id ∉ plan.pairs.map Prod.snd))).length

/-- The rows of a catalog that can succeed others. -/
def successorsOf (successors : List IdRow) : List IdRow :=
  successors.filter fun row => decide (row.internalId ≠ "")

/-- The plan after some of the depths. -/
def planAfter (successors stale : List IdRow) (depths : List Depth) : Plan :=
  depths.foldl (pairDepth (successorsOf successors))
    { pending := replaceable (successorsOf successors) stale }

/-- The depths of a plan, from the strictest one on. -/
def depthsOf (loose : Bool) : List Depth :=
  if loose then [.exact, .package, .external] else [.exact]

theorem planPassportReplacements_eq (successors stale : List IdRow) (loose : Bool) :
    planPassportReplacements successors stale loose =
      planAfter successors stale (depthsOf loose) :=
  rfl

@[simp]
theorem planAfter_append (successors stale : List IdRow) (depths : List Depth) (depth : Depth) :
    planAfter successors stale (depths ++ [depth]) =
      pairDepth (successorsOf successors) (planAfter successors stale depths) depth := by
  simp [planAfter]

/-! ## One key -/

section Keys

variable {successors : List IdRow} {depth : Depth} {plan : Plan}

/-- The rows that have the key. -/
def rowsWith (depth : Depth) (key : List (Option String)) (rows : List IdRow) : List IdRow :=
  rows.filter fun row => decide (row.key depth = some key)

theorem mem_rowsWith {key : List (Option String)} {rows : List IdRow} {row : IdRow} :
    row ∈ rowsWith depth key rows ↔ row ∈ rows ∧ row.key depth = some key := by
  simp [rowsWith]

theorem takes_iff {pending : List IdRow} {key : List (Option String)} :
    takes successors depth pending key = true ↔
      ∃ new, rowsWith depth key successors = [new] ∧
        (depth = .external →
          passportPackageUnknown new (rowsWith depth key pending) = true) := by
  unfold takes
  rw [← rowsWith, ← rowsWith]
  split
  · rename_i new hnew
    rw [hnew]
    by_cases hdepth : depth = .external
    · simp [hdepth]
    · simp [hdepth]
  · rename_i hnot
    constructor
    · nofun
    · rintro ⟨new, hnew, -⟩
      exact absurd hnew (hnot new)

/-- The pairs that a key makes. -/
def keyPairs (successors : List IdRow) (depth : Depth) (pending : List IdRow)
    (key : List (Option String)) : List (String × String) :=
  if takes successors depth pending key then
    (rowsWith depth key successors).flatMap fun new =>
      (rowsWith depth key pending).map fun row => (row.internalId, new.internalId)
  else []

/-- The successors that a key does not tell apart. -/
def keyAmbiguous (successors : List IdRow) (depth : Depth) (key : List (Option String)) :
    List String :=
  if 1 < (rowsWith depth key successors).length then
    (rowsWith depth key successors).map IdRow.internalId
  else []

/-- What one key adds to the plan. -/
theorem pairKey_eq (successors : List IdRow) (depth : Depth) (plan : Plan)
    (key : List (Option String)) :
    pairKey successors depth plan key =
      { pairs := plan.pairs ++ keyPairs successors depth plan.pending key
        ambiguous := plan.ambiguous ++ keyAmbiguous successors depth key
        pending := plan.pending.filter fun row =>
          !(decide (row.key depth = some key) &&
            takes successors depth plan.pending key) } := by
  cases htakes : takes successors depth plan.pending key with
  | true =>
      obtain ⟨new, hnew, hpackage⟩ := takes_iff.1 htakes
      unfold pairKey
      rw [← rowsWith, ← rowsWith, hnew]
      dsimp only
      rw [if_neg (by simpa using hpackage)]
      simp [keyPairs, keyAmbiguous, htakes, hnew]
  | false =>
      have hopen : (plan.pending.filter fun row =>
          !(decide (row.key depth = some key) && false)) = plan.pending := by
        simp
      rw [hopen]
      unfold pairKey
      rw [← rowsWith, ← rowsWith]
      split
      · rename_i hnone
        simp [keyPairs, keyAmbiguous, htakes, hnone]
      · rename_i new hnew
        have hknown : (decide (depth = .external) &&
            !passportPackageUnknown new (rowsWith depth key plan.pending)) = true := by
          rw [Bool.eq_false_iff, ne_eq, takes_iff] at htakes
          push Not at htakes
          simpa using htakes new hnew
        rw [if_pos hknown]
        simp [keyPairs, keyAmbiguous, htakes, hnew]
      · rename_i hempty hmany
        have hlength : 1 < (rowsWith depth key successors).length := by
          match hrows : rowsWith depth key successors with
          | [] => exact absurd hrows hempty
          | [new] => exact absurd hrows (hmany new)
          | _ :: _ :: _ => simp
        simp [keyPairs, keyAmbiguous, htakes, hlength]

/-- The keys of a depth, each against the rows that are open before the first. -/
theorem foldl_pairKey {keys : List (List (Option String))} (hkeys : keys.Nodup) (plan : Plan) :
    keys.foldl (pairKey successors depth) plan =
      { pairs := plan.pairs ++ keys.flatMap (keyPairs successors depth plan.pending)
        ambiguous := plan.ambiguous ++ keys.flatMap (keyAmbiguous successors depth)
        pending := plan.pending.filter fun row =>
          !(row.key depth).any fun key =>
            decide (key ∈ keys) && takes successors depth plan.pending key } := by
  induction keys generalizing plan with
  | nil => simp
  | cons key keys ih =>
      obtain ⟨hfresh, hkeys⟩ := List.nodup_cons.1 hkeys
      have hrows : ∀ other ∈ keys,
          rowsWith depth other (pairKey successors depth plan key).pending =
            rowsWith depth other plan.pending := by
        intro other hother
        rw [pairKey_eq, rowsWith, rowsWith, List.filter_filter]
        apply List.filter_congr
        intro row _
        by_cases hkey : row.key depth = some other
        · have hne : other ≠ key := fun heq => hfresh (heq ▸ hother)
          simp [hkey, hne]
        · simp [hkey]
      have htakes : ∀ other ∈ keys,
          takes successors depth (pairKey successors depth plan key).pending other =
            takes successors depth plan.pending other := by
        intro other hother
        rw [Bool.eq_iff_iff, takes_iff, takes_iff, hrows other hother]
      have hpairs : keys.flatMap (keyPairs successors depth
          (pairKey successors depth plan key).pending) =
            keys.flatMap (keyPairs successors depth plan.pending) := by
        apply List.flatMap_congr
        intro other hother
        rw [keyPairs, keyPairs, htakes other hother, hrows other hother]
      rw [List.foldl_cons, ih hkeys, hpairs]
      have hpending : ((pairKey successors depth plan key).pending.filter fun row =>
          !(row.key depth).any fun other => decide (other ∈ keys) &&
            takes successors depth (pairKey successors depth plan key).pending other) =
          plan.pending.filter fun row =>
            !(row.key depth).any fun other => decide (other ∈ key :: keys) &&
              takes successors depth plan.pending other := by
        have hkept : ∀ row : IdRow, ((row.key depth).any fun other => decide (other ∈ keys) &&
              takes successors depth (pairKey successors depth plan key).pending other) =
            (row.key depth).any fun other => decide (other ∈ keys) &&
              takes successors depth plan.pending other := by
          intro row
          cases row.key depth with
          | none => rfl
          | some other =>
              by_cases hother : other ∈ keys
              · rw [Option.any_some, Option.any_some, htakes other hother]
              · simp [hother]
        simp only [hkept]
        rw [pairKey_eq, List.filter_filter]
        apply List.filter_congr
        intro row _
        cases hkey : row.key depth with
        | none => simp
        | some other =>
            by_cases heq : other = key
            · subst heq
              simp [hfresh]
            · simp [heq]
      rw [hpending, pairKey_eq]
      simp

end Keys
/-! ## One depth -/

/-- The row and its successor are paired at a depth, while these rows are open. -/
def PairedAt (successors pending : List IdRow) (depth : Depth) (row new : IdRow) : Prop :=
  ∃ key, row.key depth = some key ∧ rowsWith depth key successors = [new] ∧
    (depth = .external → passportPackageUnknown new (rowsWith depth key pending) = true)

/-- The successor shares the key of the row with others. -/
def AmbiguousAt (successors : List IdRow) (depth : Depth) (row new : IdRow) : Prop :=
  ∃ key, row.key depth = some key ∧ new ∈ rowsWith depth key successors ∧
    1 < (rowsWith depth key successors).length

section Depths

variable {successors : List IdRow} {plan : Plan} {depth : Depth}

/-- What one depth makes of a plan. -/
theorem pairDepth_eq (successors : List IdRow) (plan : Plan) (depth : Depth) :
    pairDepth successors plan depth =
      { pairs := plan.pairs ++
          (fromKeys (plan.pending.filterMap fun row => row.key depth)).flatMap
            (keyPairs successors depth plan.pending)
        ambiguous := plan.ambiguous ++
          (fromKeys (plan.pending.filterMap fun row => row.key depth)).flatMap
            (keyAmbiguous successors depth)
        pending := plan.pending.filter fun row =>
          !(row.key depth).any (takes successors depth plan.pending) } := by
  have hpending : (plan.pending.filter fun row => !(row.key depth).any fun key =>
        decide (key ∈ fromKeys (plan.pending.filterMap fun row => row.key depth)) &&
          takes successors depth plan.pending key) =
      plan.pending.filter fun row =>
        !(row.key depth).any (takes successors depth plan.pending) := by
    apply List.filter_congr
    intro row hrow
    cases hkey : row.key depth with
    | none => rfl
    | some key =>
        have hmem : key ∈ fromKeys (plan.pending.filterMap fun row => row.key depth) :=
          mem_fromKeys.2 (List.mem_filterMap.2 ⟨row, hrow, hkey⟩)
        rw [Option.any_some, Option.any_some, decide_eq_true hmem, Bool.true_and]
  unfold pairDepth
  rw [foldl_pairKey (nodup_fromKeys _), hpending]

theorem mem_keys_iff {rows : List IdRow} {key : List (Option String)} :
    key ∈ fromKeys (rows.filterMap fun row => row.key depth) ↔
      ∃ row ∈ rows, row.key depth = some key := by
  rw [mem_fromKeys, List.mem_filterMap]

/-- The pairs of one depth. -/
theorem mem_pairs_pairDepth {pair : String × String} :
    pair ∈ (pairDepth successors plan depth).pairs ↔
      pair ∈ plan.pairs ∨ ∃ row ∈ plan.pending, ∃ new,
        PairedAt successors plan.pending depth row new ∧
          pair = (row.internalId, new.internalId) := by
  rw [pairDepth_eq, List.mem_append, List.mem_flatMap]
  refine or_congr_right ⟨?_, ?_⟩
  · rintro ⟨key, -, hpair⟩
    unfold keyPairs at hpair
    split_ifs at hpair with htakes
    · obtain ⟨new, hnew, hpackage⟩ := takes_iff.1 htakes
      rw [hnew, List.flatMap_singleton] at hpair
      obtain ⟨row, hrow, rfl⟩ := List.mem_map.1 hpair
      obtain ⟨hopen, hkey⟩ := mem_rowsWith.1 hrow
      exact ⟨row, hopen, new, ⟨key, hkey, hnew, hpackage⟩, rfl⟩
    · cases hpair
  · rintro ⟨row, hopen, new, ⟨key, hkey, hnew, hpackage⟩, rfl⟩
    refine ⟨key, mem_keys_iff.2 ⟨row, hopen, hkey⟩, ?_⟩
    rw [keyPairs, if_pos (takes_iff.2 ⟨new, hnew, hpackage⟩), hnew, List.flatMap_singleton]
    exact List.mem_map.2 ⟨row, mem_rowsWith.2 ⟨hopen, hkey⟩, rfl⟩

theorem mem_ambiguous_pairDepth {id : String} :
    id ∈ (pairDepth successors plan depth).ambiguous ↔
      id ∈ plan.ambiguous ∨ ∃ row ∈ plan.pending, ∃ new,
        AmbiguousAt successors depth row new ∧ id = new.internalId := by
  rw [pairDepth_eq, List.mem_append, List.mem_flatMap]
  refine or_congr_right ⟨?_, ?_⟩
  · rintro ⟨key, hkey, hid⟩
    obtain ⟨row, hopen, hrow⟩ := mem_keys_iff.1 hkey
    unfold keyAmbiguous at hid
    split_ifs at hid with hmany
    · obtain ⟨new, hnew, rfl⟩ := List.mem_map.1 hid
      exact ⟨row, hopen, new, ⟨key, hrow, hnew, hmany⟩, rfl⟩
    · cases hid
  · rintro ⟨row, hopen, new, ⟨key, hkey, hnew, hmany⟩, rfl⟩
    refine ⟨key, mem_keys_iff.2 ⟨row, hopen, hkey⟩, ?_⟩
    rw [keyAmbiguous, if_pos hmany]
    exact List.mem_map_of_mem hnew

/-- The rows that stay open at one depth. -/
theorem mem_pending_pairDepth {row : IdRow} :
    row ∈ (pairDepth successors plan depth).pending ↔
      row ∈ plan.pending ∧ ∀ new, ¬ PairedAt successors plan.pending depth row new := by
  rw [pairDepth_eq, List.mem_filter]
  refine and_congr_right fun _ => ?_
  cases hkey : row.key depth with
  | none =>
      simp only [Option.any_none, Bool.not_false, true_iff]
      rintro new ⟨key, hkey', -⟩
      rw [hkey] at hkey'
      cases hkey'
  | some key =>
      rw [Option.any_some, Bool.not_eq_true', Bool.eq_false_iff, ne_eq, takes_iff]
      push Not
      constructor
      · rintro hnot new ⟨key', hkey', hnew, hpackage⟩
        obtain rfl : key = key' := Option.some.inj (hkey.symm.trans hkey')
        obtain ⟨hdepth, hknown⟩ := hnot new hnew
        exact hknown (hpackage hdepth)
      · intro hnot new hnew
        have hpaired := hnot new
        unfold PairedAt at hpaired
        push Not at hpaired
        exact hpaired key hkey hnew

end Depths

/-! ## The order of the rows -/

/-- Two plans with the same pairs, ambiguous successors and open rows, in any order. -/
structure SamePlan (plan plan' : Plan) : Prop where
  pairs : ∀ pair, pair ∈ plan.pairs ↔ pair ∈ plan'.pairs
  ambiguous : ∀ id, id ∈ plan.ambiguous ↔ id ∈ plan'.ambiguous
  pending : ∀ row, row ∈ plan.pending ↔ row ∈ plan'.pending

section Order

variable {successors successors' pending pending' : List IdRow} {plan plan' : Plan}
  {depth : Depth} {row new : IdRow}

theorem rowsWith_perm (h : successors.Perm successors') (key : List (Option String)) :
    (rowsWith depth key successors).Perm (rowsWith depth key successors') :=
  h.filter _

theorem passportPackageUnknown_congr (h : ∀ row, row ∈ pending ↔ row ∈ pending') :
    passportPackageUnknown new pending = passportPackageUnknown new pending' := by
  rw [Bool.eq_iff_iff]
  simp only [passportPackageUnknown, Bool.or_eq_true, List.all_eq_true, h]

theorem PairedAt.congr (h : PairedAt successors pending depth row new)
    (hsuccessors : successors.Perm successors') (hpending : ∀ row, row ∈ pending ↔ row ∈ pending') :
    PairedAt successors' pending' depth row new := by
  obtain ⟨key, hkey, hnew, hpackage⟩ := h
  refine ⟨key, hkey, ?_, fun hdepth => ?_⟩
  · have hperm : (rowsWith depth key successors).Perm (rowsWith depth key successors') :=
      rowsWith_perm hsuccessors key
    rw [hnew] at hperm
    exact List.perm_singleton.1 hperm.symm
  · rw [← hpackage hdepth]
    apply passportPackageUnknown_congr
    intro other
    rw [mem_rowsWith, mem_rowsWith, hpending]

theorem AmbiguousAt.congr (h : AmbiguousAt successors depth row new)
    (hsuccessors : successors.Perm successors') : AmbiguousAt successors' depth row new := by
  obtain ⟨key, hkey, hnew, hmany⟩ := h
  have hperm : (rowsWith depth key successors).Perm (rowsWith depth key successors') :=
    rowsWith_perm hsuccessors key
  exact ⟨key, hkey, hperm.mem_iff.1 hnew, hperm.length_eq ▸ hmany⟩

/-- A depth does not depend on the order of the rows. -/
theorem SamePlan.pairDepth (h : SamePlan plan plan') (hsuccessors : successors.Perm successors')
    (depth : Depth) :
    SamePlan (pairDepth successors plan depth) (pairDepth successors' plan' depth) := by
  have hpaired : ∀ row new, PairedAt successors plan.pending depth row new ↔
      PairedAt successors' plan'.pending depth row new := fun row new =>
    ⟨fun hrow => hrow.congr hsuccessors h.pending,
      fun hrow => hrow.congr hsuccessors.symm fun other => (h.pending other).symm⟩
  have hambiguous : ∀ row new, AmbiguousAt successors depth row new ↔
      AmbiguousAt successors' depth row new := fun row new =>
    ⟨fun hrow => hrow.congr hsuccessors, fun hrow => hrow.congr hsuccessors.symm⟩
  constructor
  · intro pair
    simp only [mem_pairs_pairDepth, h.pairs, h.pending, hpaired]
  · intro id
    simp only [mem_ambiguous_pairDepth, h.ambiguous, h.pending, hambiguous]
  · intro row
    simp only [mem_pending_pairDepth, h.pending, hpaired]

theorem samePlan_planAfter {stale stale' : List IdRow} (hsuccessors : successors.Perm successors')
    (hstale : stale.Perm stale') (depths : List Depth) :
    SamePlan (planAfter successors stale depths) (planAfter successors' stale' depths) := by
  have hsucceeding : (successorsOf successors).Perm (successorsOf successors') :=
    hsuccessors.filter _
  induction depths using List.reverseRecOn with
  | nil =>
      refine ⟨fun _ => Iff.rfl, fun _ => Iff.rfl, fun row => ?_⟩
      simp [planAfter, replaceable, hstale.mem_iff, hsucceeding.mem_iff]
  | append_singleton depths depth ih =>
      rw [planAfter_append, planAfter_append]
      exact ih.pairDepth hsucceeding depth

theorem SamePlan.ambiguousCount_eq (h : SamePlan plan plan') :
    plan.ambiguousCount = plan'.ambiguousCount := by
  unfold Plan.ambiguousCount
  apply length_fromKeys_congr
  intro id
  simp [h.ambiguous, h.pairs]

end Order

/-! ## What a plan pairs -/

/-- The packages are not two different known ones. -/
def CompatiblePackages (old new : IdRow) : Prop :=
  ∀ p q, old.packageId = some p → new.packageId = some q → p = q

section Pairs

variable {successors stale pending : List IdRow} {depth : Depth} {old new : IdRow}

theorem head?_of_key {row : IdRow} {key : List (Option String)} (h : row.key depth = some key) :
    key.head? = some row.externalId := by
  obtain ⟨e, he, hkey⟩ := Option.bind_eq_some_iff.1 h
  obtain ⟨hexternal, -⟩ := Option.filter_eq_some_iff.1 he
  rw [hexternal]
  cases depth with
  | exact =>
      cases hkey
      rfl
  | package =>
      obtain ⟨_, -, rfl⟩ := Option.map_eq_some_iff.1 hkey
      rfl
  | external =>
      cases hkey
      rfl

theorem package_of_exact {key : List (Option String)} (hold : old.key .exact = some key)
    (hnew : new.key .exact = some key) :
    old.packageId = new.packageId ∧ old.packageVersion = new.packageVersion := by
  obtain ⟨e, -, hkey⟩ := Option.bind_eq_some_iff.1 hold
  obtain ⟨e', -, hkey'⟩ := Option.bind_eq_some_iff.1 hnew
  have hsame := Option.some.inj (hkey.trans hkey'.symm)
  simp only [List.cons.injEq, and_true] at hsame
  exact hsame.2

theorem package_of_package {key : List (Option String)} (hold : old.key .package = some key)
    (hnew : new.key .package = some key) : old.packageId = new.packageId := by
  obtain ⟨e, -, hkey⟩ := Option.bind_eq_some_iff.1 hold
  obtain ⟨e', -, hkey'⟩ := Option.bind_eq_some_iff.1 hnew
  obtain ⟨p, hp, rfl⟩ := Option.map_eq_some_iff.1 hkey
  obtain ⟨q, hq, hsame⟩ := Option.map_eq_some_iff.1 hkey'
  simp only [List.cons.injEq, and_true] at hsame
  rw [hp, hq, hsame.2]

theorem PairedAt.sole (h : PairedAt successors pending depth old new) :
    ∃ key, old.key depth = some key ∧ new ∈ successors ∧ new.key depth = some key ∧
      ∀ other ∈ successors, other.key depth = some key → other = new := by
  obtain ⟨key, hkey, hnew, -⟩ := h
  obtain ⟨hmem, hnewkey⟩ := mem_rowsWith.1 (hnew ▸ List.mem_singleton_self new)
  refine ⟨key, hkey, hmem, hnewkey, fun other hother hotherkey => ?_⟩
  have hrow : other ∈ rowsWith depth key successors := mem_rowsWith.2 ⟨hother, hotherkey⟩
  rw [hnew] at hrow
  exact List.mem_singleton.1 hrow

/-- A row is never paired across two known packages. -/
theorem PairedAt.compatible (h : PairedAt successors pending depth old new)
    (hopen : old ∈ pending) : CompatiblePackages old new := by
  intro p q hp hq
  obtain ⟨key, hkey, hnew, hpackage⟩ := h
  have hnewkey : new.key depth = some key :=
    (mem_rowsWith.1 (hnew ▸ List.mem_singleton_self new)).2
  cases depth with
  | exact =>
      have hsame := (package_of_exact hkey hnewkey).1
      exact Option.some.inj (hp.symm.trans (hsame.trans hq))
  | package =>
      have hsame := package_of_package hkey hnewkey
      exact Option.some.inj (hp.symm.trans (hsame.trans hq))
  | external =>
      have hunknown := hpackage rfl
      have hold : old ∈ rowsWith .external key pending := mem_rowsWith.2 ⟨hopen, hkey⟩
      simp only [passportPackageUnknown, Bool.or_eq_true, List.all_eq_true,
        Option.isNone_iff_eq_none] at hunknown
      rcases hunknown with hnone | hnone
      · rw [hnone] at hq
        cases hq
      · rw [hnone old hold] at hp
        cases hp

/-- What holds of a row and its successor that are paired at a depth. -/
structure SoundPair (successors stale : List IdRow) (depth : Depth) (old new : IdRow) : Prop where
  stale : old ∈ stale
  successor : new ∈ successors
  notSuccessor : old.internalId ∉ successors.map IdRow.internalId
  externalId : old.externalId = new.externalId
  packages : CompatiblePackages old new
  exact : depth = .exact →
    old.packageId = new.packageId ∧ old.packageVersion = new.packageVersion
  sole : ∃ key, old.key depth = some key ∧ new.key depth = some key ∧
    ∀ other ∈ successors, other.internalId ≠ "" → other.key depth = some key → other = new

theorem pending_planAfter {depths : List Depth} {row : IdRow}
    (h : row ∈ (planAfter successors stale depths).pending) :
    row ∈ stale ∧ row.internalId ∉ successors.map IdRow.internalId := by
  induction depths using List.reverseRecOn with
  | nil =>
      have hrow : row ∈ replaceable (successorsOf successors) stale := h
      simp only [replaceable, List.mem_filter, Bool.and_eq_true, decide_eq_true_eq] at hrow
      obtain ⟨hstale, hid, hnot⟩ := hrow
      refine ⟨hstale, fun hmem => hnot ?_⟩
      obtain ⟨new, hnew, hsame⟩ := List.mem_map.1 hmem
      refine List.mem_map.2 ⟨new, List.mem_filter.2 ⟨hnew, ?_⟩, hsame⟩
      exact decide_eq_true (hsame.symm ▸ hid)
  | append_singleton depths depth ih =>
      rw [planAfter_append] at h
      exact ih (mem_pending_pairDepth.1 h).1

/-- The pair is made at this depth of the plan. -/
def MadeAt (successors stale : List IdRow) (depths : List Depth) (depth : Depth)
    (pair : String × String) : Prop :=
  ∃ before after, depths = before ++ depth :: after ∧
    pair ∈ (planAfter successors stale (before ++ [depth])).pairs ∧
    pair ∉ (planAfter successors stale before).pairs

theorem exists_madeAt {depths : List Depth} {pair : String × String}
    (h : pair ∈ (planAfter successors stale depths).pairs) :
    ∃ depth, MadeAt successors stale depths depth pair := by
  induction depths using List.reverseRecOn with
  | nil => cases h
  | append_singleton depths depth ih =>
      by_cases hbefore : pair ∈ (planAfter successors stale depths).pairs
      · obtain ⟨earlier, before, after, hdepths, hmade⟩ := ih hbefore
        exact ⟨earlier, before, after ++ [depth], by simp [hdepths], hmade⟩
      · exact ⟨depth, depths, [], rfl, h, hbefore⟩

theorem MadeAt.sound {depths : List Depth} {pair : String × String}
    (h : MadeAt successors stale depths depth pair) :
    ∃ old new, pair = (old.internalId, new.internalId) ∧
      SoundPair successors stale depth old new := by
  obtain ⟨before, after, -, hmade, hfresh⟩ := h
  rw [planAfter_append] at hmade
  obtain ⟨old, hopen, new, hpaired, rfl⟩ := (mem_pairs_pairDepth.1 hmade).resolve_left hfresh
  obtain ⟨hstale, hnot⟩ := pending_planAfter hopen
  obtain ⟨key, hold, hnewmem, hnew, hsole⟩ := hpaired.sole
  refine ⟨old, new, rfl, hstale, List.mem_of_mem_filter hnewmem, hnot, ?_,
    hpaired.compatible hopen, ?_, key, hold, hnew, fun other hother hid hkey => ?_⟩
  · exact Option.some.inj ((head?_of_key hold).symm.trans (head?_of_key hnew))
  · rintro rfl
    exact package_of_exact hold hnew
  · exact hsole other (List.mem_filter.2 ⟨hother, decide_eq_true hid⟩) hkey

/-! ## Every row once -/

theorem ids_pairKey (plan : Plan) (key : List (Option String)) :
    ((pairKey successors depth plan key).pairs.map Prod.fst ++
      (pairKey successors depth plan key).pending.map IdRow.internalId).Perm
        (plan.pairs.map Prod.fst ++ plan.pending.map IdRow.internalId) := by
  cases htakes : takes successors depth plan.pending key with
  | false =>
      obtain ⟨hpending, hpairs⟩ := pairKey_of_not_takes htakes
      rw [hpending, hpairs]
  | true =>
      obtain ⟨hpending, hpairs⟩ := pairKey_of_takes htakes
      rw [hpending, hpairs, List.append_assoc, ← List.map_append]
      exact ((List.filter_append_perm _ _).map _).append_left _

theorem ids_pairDepth (plan : Plan) (depth : Depth) :
    ((pairDepth successors plan depth).pairs.map Prod.fst ++
      (pairDepth successors plan depth).pending.map IdRow.internalId).Perm
        (plan.pairs.map Prod.fst ++ plan.pending.map IdRow.internalId) := by
  have hkeys : ∀ (keys : List (List (Option String))) (plan : Plan),
      ((keys.foldl (pairKey successors depth) plan).pairs.map Prod.fst ++
        (keys.foldl (pairKey successors depth) plan).pending.map IdRow.internalId).Perm
          (plan.pairs.map Prod.fst ++ plan.pending.map IdRow.internalId) := by
    intro keys
    induction keys with
    | nil => exact fun _ => List.Perm.refl _
    | cons key keys ih => exact fun plan => (ih _).trans (ids_pairKey plan key)
  exact hkeys _ plan

theorem ids_planAfter (successors stale : List IdRow) (depths : List Depth) :
    ((planAfter successors stale depths).pairs.map Prod.fst ++
      (planAfter successors stale depths).pending.map IdRow.internalId).Perm
        ((replaceable (successorsOf successors) stale).map IdRow.internalId) := by
  induction depths using List.reverseRecOn with
  | nil => exact List.Perm.refl _
  | append_singleton depths depth ih =>
      rw [planAfter_append]
      exact (ids_pairDepth _ depth).trans ih

theorem nodup_pairs (hstale : (stale.map IdRow.internalId).Nodup) (depths : List Depth) :
    ((planAfter successors stale depths).pairs.map Prod.fst).Nodup := by
  have hids : ((replaceable (successorsOf successors) stale).map IdRow.internalId).Nodup :=
    hstale.sublist (List.filter_sublist.map _)
  exact ((ids_planAfter successors stale depths).nodup_iff.2 hids).of_append_left

end Pairs

/--
A plan pairs a stale row, which is no successor and is replaced once, with the only successor that
has the key at which it is paired; their external ids agree and their packages do not differ, and
without `loose` nothing of the three columns differs.  The order of the rows changes neither
the pairs nor the number of ambiguous successors.
-/
theorem plan_sound (successors stale : List IdRow) (loose : Bool)
    (_hsuccessors : (successors.map IdRow.internalId).Nodup)
    (hstale : (stale.map IdRow.internalId).Nodup) :
    (∀ pair ∈ (planPassportReplacements successors stale loose).pairs,
      ∃ depth old new, MadeAt successors stale (depthsOf loose) depth pair ∧
        pair = (old.internalId, new.internalId) ∧ SoundPair successors stale depth old new ∧
          (loose = false → old.packageId = new.packageId ∧
            old.packageVersion = new.packageVersion)) ∧
    ((planPassportReplacements successors stale loose).pairs.map Prod.fst).Nodup ∧
    ∀ successors' stale', successors.Perm successors' → stale.Perm stale' →
      (∀ pair, pair ∈ (planPassportReplacements successors stale loose).pairs ↔
        pair ∈ (planPassportReplacements successors' stale' loose).pairs) ∧
      (planPassportReplacements successors stale loose).ambiguousCount =
        (planPassportReplacements successors' stale' loose).ambiguousCount := by
  refine ⟨fun pair hpair => ?_, nodup_pairs hstale _, fun successors' stale' hnew hold => ?_⟩
  · rw [planPassportReplacements_eq] at hpair
    obtain ⟨depth, hmade⟩ := exists_madeAt hpair
    obtain ⟨old, new, hids, hsound⟩ := hmade.sound
    refine ⟨depth, old, new, hmade, hids, hsound, fun hstrict => hsound.exact ?_⟩
    obtain ⟨before, after, hdepths, -⟩ := hmade
    have hmem : depth ∈ depthsOf loose := hdepths ▸ by simp
    subst hstrict
    exact List.mem_singleton.1 hmem
  · have hsame := samePlan_planAfter hnew hold (depthsOf loose)
    exact ⟨hsame.pairs, hsame.ambiguousCount_eq⟩

/-- A passport that is issued anew, next to another passport of the same CVE. -/
theorem plan_sound_newVersion :
    ∃ depth old new,
      MadeAt
        [⟨"P2", some "CVE-1", some "ssl", some "3.1"⟩, ⟨"P3", some "CVE-1", some "gnutls", none⟩]
        [⟨"P1", some "CVE-1", some "ssl", some "3.0"⟩] (depthsOf true) depth ("P1", "P2") ∧
      ("P1", "P2") = (old.internalId, new.internalId) ∧
      SoundPair
        [⟨"P2", some "CVE-1", some "ssl", some "3.1"⟩, ⟨"P3", some "CVE-1", some "gnutls", none⟩]
        [⟨"P1", some "CVE-1", some "ssl", some "3.0"⟩] depth old new ∧
      (true = false → old.packageId = new.packageId ∧
        old.packageVersion = new.packageVersion) :=
  (plan_sound
    [⟨"P2", some "CVE-1", some "ssl", some "3.1"⟩, ⟨"P3", some "CVE-1", some "gnutls", none⟩]
    [⟨"P1", some "CVE-1", some "ssl", some "3.0"⟩] true (by decide) (by decide)).1 ("P1", "P2")
    (by decide +kernel)

end Passports
end MpvmApp
