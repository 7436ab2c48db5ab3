import MpvmApp.Lib.Table

/-!
# Replicas that are refreshed by time stamps

A replica holds a copy of every row of some sources.  A refresh copies the rows
whose stamp is later than the stamp of the copy, and a merge function says what a
copy keeps of its old value.  The rules below tell when a refresh leaves copies
that agree with their sources.

Main results:

- Theorem `Replica.find?_refreshAll`: a refresh works on each key on its own.
- Theorem `settles_some_iff`: a refresh leaves an agreeing copy exactly when it
  copies a value that merges well, or the copy agrees already.
- Theorem `agrees_refreshAll_iff`: after a refresh all copies agree exactly when every
  source row settles.
-/

namespace MpvmApp

universe u v

/-- A value under a key, with the instant of its last change. -/
structure Copy (κ : Type u) (ν : Type v) where
  key : κ
  value : ν
  stamp : Int

/-- One copy for each key. -/
abbrev Replica (κ : Type u) (ν : Type v) :=
  Table (Copy κ ν) Copy.key Copy.key

namespace Replica

variable {κ : Type u} {ν : Type v} (merge : ν → ν → ν)

/-! ## One key -/

/-- What a replica holds after it has taken a copy on top of what it held. -/
def absorb (held : Option (Copy κ ν)) (c : Copy κ ν) : Copy κ ν :=
  match held with
  | none => c
  | some r => { c with value := merge r.value c.value }

/-- The copy is missing, or older than its source. -/
def outdated (held : Option (Copy κ ν)) (c : Copy κ ν) : Bool :=
  held.all fun r => decide (r.stamp < c.stamp)

/-- What a refresh leaves under the key of a source. -/
def refresh (held : Option (Copy κ ν)) (c : Copy κ ν) : Copy κ ν :=
  if outdated held c then absorb merge held c else held.getD c

/-- A refresh would leave a copy that agrees with the source. -/
def Settles (agree : ν → ν → Prop) (held : Option (Copy κ ν)) (c : Copy κ ν) : Prop :=
  agree (refresh merge held c).value c.value

variable {merge} {agree : ν → ν → Prop}

@[simp]
theorem absorb_stamp (held : Option (Copy κ ν)) (c : Copy κ ν) :
    (absorb merge held c).stamp = c.stamp := by
  cases held <;> rfl

/-- A source without a copy settles. -/
theorem settles_none (hrefl : ∀ x, agree x x) (c : Copy κ ν) :
    Settles merge agree none c :=
  hrefl c.value

/-- A source settles when it is copied well, or when its copy agrees already. -/
theorem settles_some_iff {r c : Copy κ ν} :
    Settles merge agree (some r) c ↔
      if r.stamp < c.stamp then agree (merge r.value c.value) c.value
      else agree r.value c.value := by
  unfold Settles refresh outdated
  by_cases h : r.stamp < c.stamp
  · simp [h, absorb]
  · simp [h]

/-- A copy that is not older settles exactly when it agrees. -/
theorem settles_of_not_lt {r c : Copy κ ν} (h : ¬r.stamp < c.stamp) :
    Settles merge agree (some r) c ↔ agree r.value c.value := by
  rw [settles_some_iff, if_neg h]

/-- A refresh leaves no copy that is older than its source. -/
theorem not_lt_refresh (held : Option (Copy κ ν)) (c : Copy κ ν) :
    ¬(refresh merge held c).stamp < c.stamp := by
  unfold refresh
  split
  · simp
  · rename_i hcurrent
    cases held with
    | none => simp [outdated] at hcurrent
    | some r => simpa [outdated] using hcurrent

/-- What settles stays settled by a refresh. -/
theorem Settles.refresh {held : Option (Copy κ ν)} {c : Copy κ ν}
    (h : Settles merge agree held c) :
    Settles merge agree (some (Replica.refresh merge held c)) c :=
  (settles_of_not_lt (not_lt_refresh held c)).2 h

/-- What settles stays settled when the source is taken once more. -/
theorem Settles.absorb {held : Option (Copy κ ν)} {c : Copy κ ν}
    (hmerge : ∀ x y, agree x y → agree (merge x y) y) (hrefl : ∀ x, agree x x)
    (h : Settles merge agree held c) :
    Settles merge agree (some (Replica.absorb merge held c)) c := by
  refine (settles_of_not_lt (by simp)).2 ?_
  cases held with
  | none => exact hrefl c.value
  | some r =>
      rw [settles_some_iff] at h
      split at h
      · exact h
      · exact hmerge _ _ h

/-! ## All keys -/

variable [DecidableEq κ] (merge)

/-- Take one copy. -/
def register (t : Replica κ ν) (c : Copy κ ν) : Replica κ ν :=
  match t.find? c.key with
  | none => (t.insert? c).getD t
  | some _ =>
      t.mapRows (fun r => if r.key = c.key then { c with value := merge r.value c.value } else r)
        (fun r => by split <;> simp [*]) (fun r => by split <;> simp [*])

/-- Take every source whose copy is outdated at the start. -/
def refreshAll (t : Replica κ ν) (sources : List (Copy κ ν)) : Replica κ ν :=
  (sources.filter fun c => outdated (t.find? c.key) c).foldl (register merge) t

variable {merge}

/-- A free key accepts an insertion. -/
theorem insert?_of_free {t : Replica κ ν} {c : Copy κ ν} (h : t.find? c.key = none) :
    ∃ t', t.insert? c = some t' := by
  have hfree : t.conflicts c = false :=
    Table.conflicts_eq_false_iff.2 fun r hr =>
      ⟨Table.find?_eq_none_iff.1 h r hr, Table.find?_eq_none_iff.1 h r hr⟩
  exact ⟨_, by unfold Table.insert?; rw [dif_pos hfree]⟩

theorem find?_register (t : Replica κ ν) (c : Copy κ ν) (k : κ) :
    (register merge t c).find? k =
      if c.key = k then some (absorb merge (t.find? k) c) else t.find? k := by
  unfold register
  split
  · rename_i hnone
    obtain ⟨t', ht'⟩ := insert?_of_free hnone
    rw [ht', Option.getD_some, Table.find?_insert? ht']
    by_cases hk : c.key = k
    · rw [if_pos hk, if_pos hk, ← hk, hnone]
      rfl
    · rw [if_neg hk, if_neg hk]
  · rename_i r hr
    rw [Table.find?_mapRows]
    by_cases hk : c.key = k
    · have hkey := Table.pk_of_find? hr
      rw [if_pos hk, ← hk, hr, Option.map_some, if_pos hkey]
      rfl
    · rw [if_neg hk]
      cases hfind : t.find? k with
      | none => rfl
      | some r' =>
          have hne : r'.key ≠ c.key := by
            rw [Table.pk_of_find? hfind]
            exact Ne.symm hk
          rw [Option.map_some, if_neg hne]

/-- Copies of other keys leave a key alone. -/
theorem find?_foldl_register_of_not_mem {t : Replica κ ν} {l : List (Copy κ ν)} {k : κ}
    (h : ∀ c ∈ l, c.key ≠ k) :
    (l.foldl (register merge) t).find? k = t.find? k := by
  induction l generalizing t with
  | nil => rfl
  | cons c l ih =>
      rw [List.foldl_cons, ih fun c' hc' => h c' (List.mem_cons_of_mem _ hc'), find?_register,
        if_neg (h c List.mem_cons_self)]

/-- Among copies with distinct keys, each key takes its own copy. -/
theorem find?_foldl_register {t : Replica κ ν} {l : List (Copy κ ν)} {c : Copy κ ν}
    (hnodup : (l.map Copy.key).Nodup) (hc : c ∈ l) :
    (l.foldl (register merge) t).find? c.key = some (absorb merge (t.find? c.key) c) := by
  induction l generalizing t with
  | nil => cases hc
  | cons c₁ l ih =>
      rw [List.map_cons, List.nodup_cons] at hnodup
      rw [List.foldl_cons]
      rcases List.mem_cons.1 hc with rfl | hmem
      · have hfree : ∀ c' ∈ l, c'.key ≠ c.key := fun c' hc' hkey =>
          hnodup.1 (hkey ▸ List.mem_map_of_mem hc')
        rw [find?_foldl_register_of_not_mem hfree, find?_register, if_pos rfl]
      · have hne : c₁.key ≠ c.key := fun hkey => hnodup.1 (hkey ▸ List.mem_map_of_mem hmem)
        rw [ih hnodup.2 hmem, find?_register, if_neg hne]

/-- A refresh works on each key on its own. -/
theorem find?_refreshAll {t : Replica κ ν} {sources : List (Copy κ ν)} {c : Copy κ ν}
    (hnodup : (sources.map Copy.key).Nodup) (hc : c ∈ sources) :
    (refreshAll merge t sources).find? c.key = some (refresh merge (t.find? c.key) c) := by
  unfold refreshAll refresh
  by_cases hout : outdated (t.find? c.key) c = true
  · rw [if_pos hout]
    exact find?_foldl_register (hnodup.sublist (List.filter_sublist.map Copy.key))
      (List.mem_filter.2 ⟨hc, hout⟩)
  · rw [if_neg hout, find?_foldl_register_of_not_mem]
    · cases hheld : t.find? c.key with
      | none => simp [outdated, hheld] at hout
      | some r => rfl
    · intro c' hc' hkey
      obtain ⟨hmem, hout'⟩ := List.mem_filter.1 hc'
      rw [List.inj_on_of_nodup_map hnodup hmem hc hkey] at hout'
      exact hout hout'

/-- A key without a source is left alone. -/
theorem find?_refreshAll_of_not_mem {t : Replica κ ν} {sources : List (Copy κ ν)} {k : κ}
    (h : ∀ c ∈ sources, c.key ≠ k) :
    (refreshAll merge t sources).find? k = t.find? k :=
  find?_foldl_register_of_not_mem fun c hc => h c (List.mem_of_mem_filter hc)

/-! ## Replicas that track their sources -/

/-- Every source settles, and every copy has a source. -/
structure Tracked (merge : ν → ν → ν) (agree : ν → ν → Prop) (sources : List (Copy κ ν))
    (t : Replica κ ν) : Prop where
  settles : ∀ c ∈ sources, Settles merge agree (t.find? c.key) c
  covered : ∀ k r, t.find? k = some r → ∃ c ∈ sources, c.key = k

/-- Every source has a copy that agrees with it. -/
def Agrees (agree : ν → ν → Prop) (sources : List (Copy κ ν)) (t : Replica κ ν) : Prop :=
  ∀ c ∈ sources, ∃ r, t.find? c.key = some r ∧ agree r.value c.value

/-- After a refresh all copies agree exactly when every source settles. -/
theorem agrees_refreshAll_iff {t : Replica κ ν} {sources : List (Copy κ ν)}
    (hnodup : (sources.map Copy.key).Nodup) :
    Agrees agree sources (refreshAll merge t sources) ↔
      ∀ c ∈ sources, Settles merge agree (t.find? c.key) c := by
  unfold Agrees
  refine forall₂_congr fun c hc => ?_
  rw [find?_refreshAll hnodup hc]
  constructor
  · rintro ⟨r, hr, hagree⟩
    cases hr
    exact hagree
  · exact fun h => ⟨_, rfl, h⟩

namespace Tracked

variable {t : Replica κ ν} {sources sources' : List (Copy κ ν)} {c : Copy κ ν}

/-- A new source has no copy. -/
theorem free (h : Tracked merge agree sources t) (hnew : ∀ x ∈ sources, x.key ≠ c.key) :
    t.find? c.key = none := by
  cases hfind : t.find? c.key with
  | none => rfl
  | some r =>
      obtain ⟨x, hx, hkey⟩ := h.covered _ _ hfind
      exact absurd hkey (hnew x hx)

/-- A refresh keeps the tracking. -/
theorem refreshAll (h : Tracked merge agree sources t)
    (hnodup : (sources.map Copy.key).Nodup) :
    Tracked merge agree sources (Replica.refreshAll merge t sources) := by
  refine ⟨fun c hc => ?_, fun k r hr => ?_⟩
  · rw [find?_refreshAll hnodup hc]
    exact (h.settles c hc).refresh
  · by_contra hnone
    have hnot : ∀ c ∈ sources, c.key ≠ k := fun c hc hkey => hnone ⟨c, hc, hkey⟩
    rw [find?_refreshAll_of_not_mem hnot] at hr
    exact hnone (h.covered k r hr)

/-- Taking one source keeps the tracking. -/
theorem register (h : Tracked merge agree sources t)
    (hmerge : ∀ x y, agree x y → agree (merge x y) y) (hrefl : ∀ x, agree x x)
    (hnodup : (sources.map Copy.key).Nodup) (hc : c ∈ sources) :
    Tracked merge agree sources (Replica.register merge t c) := by
  refine ⟨fun x hx => ?_, fun k r hr => ?_⟩
  · rw [find?_register]
    by_cases hkey : c.key = x.key
    · have heq := List.inj_on_of_nodup_map hnodup hc hx hkey
      rw [if_pos hkey, ← heq]
      exact (h.settles c hc).absorb hmerge hrefl
    · rw [if_neg hkey]
      exact h.settles x hx
  · rw [find?_register] at hr
    by_cases hkey : c.key = k
    · exact ⟨c, hc, hkey⟩
    · rw [if_neg hkey] at hr
      exact h.covered k r hr

/-- A new source without a copy keeps the tracking. -/
theorem add (h : Tracked merge agree sources t) (hrefl : ∀ x, agree x x)
    (hnew : ∀ x ∈ sources, x.key ≠ c.key)
    (hsources : ∀ x, x ∈ sources' ↔ x ∈ sources ∨ x = c) :
    Tracked merge agree sources' t := by
  refine ⟨fun x hx => ?_, fun k r hr => ?_⟩
  · rcases (hsources x).1 hx with hold | rfl
    · exact h.settles x hold
    · rw [h.free hnew]
      exact settles_none hrefl x
  · obtain ⟨x, hx, hkey⟩ := h.covered k r hr
    exact ⟨x, (hsources x).2 (Or.inl hx), hkey⟩

/-- A new source that is registered at once keeps the tracking. -/
theorem create (h : Tracked merge agree sources t) {r : Copy κ ν} (hkey : r.key = c.key)
    (hstamp : r.stamp = c.stamp)
    (hagree : agree r.value c.value) (hnew : ∀ x ∈ sources, x.key ≠ c.key)
    (hsources : ∀ x, x ∈ sources' ↔ x ∈ sources ∨ x = c) :
    Tracked merge agree sources' (Replica.register merge t r) := by
  refine ⟨fun x hx => ?_, fun k y hy => ?_⟩
  · rw [find?_register]
    rcases (hsources x).1 hx with hold | rfl
    · rw [if_neg fun heq => hnew x hold (heq.symm.trans hkey)]
      exact h.settles x hold
    · rw [if_pos hkey, h.free hnew]
      exact (settles_of_not_lt (by simp [absorb, hstamp])).2 hagree
  · rw [find?_register] at hy
    by_cases hk : r.key = k
    · exact ⟨c, (hsources c).2 (Or.inr rfl), hkey.symm.trans hk⟩
    · rw [if_neg hk] at hy
      obtain ⟨x, hx, hxk⟩ := h.covered k y hy
      exact ⟨x, (hsources x).2 (Or.inl hx), hxk⟩

end Tracked

end Replica
end MpvmApp
