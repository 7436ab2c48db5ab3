import Mathlib.Algebra.BigOperators.Group.List.Basic
import Mathlib.Algebra.GroupWithZero.Nat
import MpvmApp.Lib.GroupedView

/-!
# Totals of grouped rows

A total over all rows can be read off the groups: sums of counts, numbers of groups with some
row, and numbers of distinct values.

Main results:

- Theorem `GroupedView.sum_length_group`: the counts of the groups add up.
- Theorem `GroupedView.countP_any_group`: the groups with some row are as many as the keys
  of these rows.
- Theorem `length_fromKeys_congr`: the number of distinct values depends on the values only.
-/

namespace MpvmApp

universe u v w

/-- The number of distinct values depends on the values only. -/
theorem length_fromKeys_congr {α : Type u} [DecidableEq α] {l l' : List α}
    (h : ∀ a, a ∈ l ↔ a ∈ l') :
    (fromKeys l).length = (fromKeys l').length := by
  have hperm : (fromKeys l).Perm (fromKeys l') := by
    rw [List.perm_ext_iff_of_nodup (nodup_fromKeys l) (nodup_fromKeys l')]
    intro a
    rw [mem_fromKeys, mem_fromKeys, h]
  exact hperm.length_eq

/-- An injective change of the values keeps the number of distinct ones. -/
theorem length_fromKeys_map {α : Type u} {β : Type v} [DecidableEq α] [DecidableEq β] {f : α → β}
    (hf : Function.Injective f) (l : List α) :
    (fromKeys (l.map f)).length = (fromKeys l).length := by
  unfold fromKeys
  rw [← List.map_reverse, List.dedup_map_of_injective hf, List.length_reverse, List.length_reverse,
    List.length_map]

/-- One of several distinct values is found once. -/
theorem sum_map_ite_eq {α : Type u} [DecidableEq α] {l : List α} (hnodup : l.Nodup) {a : α}
    (ha : a ∈ l) (n : Nat) :
    (l.map fun b => if a = b then n else 0).sum = n := by
  induction l with
  | nil => cases ha
  | cons b l ih =>
      rw [List.nodup_cons] at hnodup
      rw [List.map_cons, List.sum_cons]
      by_cases hb : a = b
      · have hrest : (l.map fun c => if a = c then n else 0).sum = 0 := by
          apply List.sum_eq_zero
          intro m hm
          obtain ⟨c, hc, rfl⟩ := List.mem_map.1 hm
          have hne : a ≠ c := by
            rintro rfl
            exact hnodup.1 (hb ▸ hc)
          rw [if_neg hne]
        rw [if_pos hb, hrest]
        omega
      · have hmem : a ∈ l := (List.mem_cons.1 ha).resolve_left hb
        rw [if_neg hb, ih hnodup.2 hmem]
        omega

namespace GroupedView

variable {ρ : Type u} {κ : Type v} {ν : Type w} [DecidableEq κ] (G : GroupedView ρ κ ν)

/-- The keys of the view. -/
def keys (rows : List ρ) : List κ :=
  fromKeys (rows.map G.key)

variable {G}

theorem nodup_keys (rows : List ρ) :
    (G.keys rows).Nodup :=
  nodup_fromKeys _

theorem mem_keys {rows : List ρ} {k : κ} :
    k ∈ G.keys rows ↔ ∃ r ∈ rows, G.key r = k := by
  simp [keys]

theorem view_eq_map_keys (rows : List ρ) :
    G.view rows = (G.keys rows).map fun k => G.aggregate k (G.group rows k) :=
  rfl

theorem mem_group {rows : List ρ} {k : κ} {r : ρ} :
    r ∈ G.group rows k ↔ r ∈ rows ∧ G.key r = k := by
  simp [group]

/-- The counts of the groups add up, over any distinct keys that cover the rows. -/
theorem sum_length_group_of_cover {rows : List ρ} (p : ρ → Bool) {ks : List κ}
    (hnodup : ks.Nodup) (hcover : ∀ r ∈ rows, G.key r ∈ ks) :
    (ks.map fun k => ((G.group rows k).filter p).length).sum = (rows.filter p).length := by
  induction rows with
  | nil => simp [group]
  | cons r rows ih =>
      have hstep : ∀ k, ((G.group (r :: rows) k).filter p).length =
          (if G.key r = k then (if p r then 1 else 0) else 0) +
            ((G.group rows k).filter p).length := by
        intro k
        unfold group
        by_cases hk : G.key r = k
        · by_cases hp : p r = true
          · simp [hk, hp, Nat.add_comm]
          · simp [hk, hp]
        · simp [hk]
      simp only [hstep]
      rw [List.sum_map_add, ih fun r' hr' => hcover r' (List.mem_cons_of_mem _ hr'),
        sum_map_ite_eq hnodup (hcover r List.mem_cons_self)]
      by_cases hp : p r = true
      · simp [hp, Nat.add_comm]
      · simp [hp]

/-- The counts of the groups add up. -/
theorem sum_length_group (rows : List ρ) (p : ρ → Bool) :
    ((G.keys rows).map fun k => ((G.group rows k).filter p).length).sum =
      (rows.filter p).length :=
  sum_length_group_of_cover p (nodup_keys rows) fun r hr => mem_keys.2 ⟨r, hr, rfl⟩

/-- The groups with some row are as many as the keys of these rows. -/
theorem countP_any_group (rows : List ρ) (p : ρ → Bool) :
    (G.keys rows).countP (fun k => (G.group rows k).any p) =
      (fromKeys ((rows.filter p).map G.key)).length := by
  have hperm : ((G.keys rows).filter fun k => (G.group rows k).any p).Perm
      (fromKeys ((rows.filter p).map G.key)) := by
    rw [List.perm_ext_iff_of_nodup ((nodup_keys rows).filter _) (nodup_fromKeys _)]
    intro k
    rw [List.mem_filter, mem_fromKeys, List.mem_map, List.any_eq_true]
    constructor
    · rintro ⟨_, r, hr, hp⟩
      obtain ⟨hrows, hkey⟩ := mem_group.1 hr
      exact ⟨r, List.mem_filter.2 ⟨hrows, hp⟩, hkey⟩
    · rintro ⟨r, hr, hkey⟩
      obtain ⟨hrows, hp⟩ := List.mem_filter.1 hr
      exact ⟨mem_keys.2 ⟨r, hrows, hkey⟩, r, mem_group.2 ⟨hrows, hkey⟩, hp⟩
  rw [List.countP_eq_length_filter]
  exact hperm.length_eq

end GroupedView
end MpvmApp
