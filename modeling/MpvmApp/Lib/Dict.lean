import Mathlib.Data.List.Nodup

/-!
# Dictionaries that keep the order of insertion

A dictionary is a list of items with distinct keys.  A new key goes to the end, and a
key that is there keeps its place when its value is replaced.

Main results:

- Theorem `get?_set`: what is read after a value has been stored.
- Theorem `get?_pop`: what is read after a key has been removed.
- Theorem `get?_mapValues`: what is read after all values have been changed.
- Theorem `get?_filter`: what is read after some items have been dropped.
-/

namespace MpvmApp

/-- A dictionary, in the order in which its keys were inserted. -/
@[ext]
structure Dict (κ α : Type*) where
  items : List (κ × α)
  nodup : (items.map Prod.fst).Nodup
deriving DecidableEq

namespace Dict

variable {κ α : Type*} [DecidableEq κ]

/-- The dictionary without keys. -/
def empty : Dict κ α where
  items := []
  nodup := List.nodup_nil

/-- The value of a key. -/
def get? (d : Dict κ α) (k : κ) : Option α :=
  (d.items.find? fun item => item.1 = k).map Prod.snd

/-- Store a value: in the place of the key, or at the end. -/
def set (d : Dict κ α) (k : κ) (v : α) : Dict κ α where
  items :=
    if k ∈ d.items.map Prod.fst then
      d.items.map fun item => if item.1 = k then (k, v) else item
    else d.items ++ [(k, v)]
  nodup := by
    split
    · have hkeys : (d.items.map fun item => if item.1 = k then (k, v) else item).map Prod.fst =
          d.items.map Prod.fst := by
        rw [List.map_map]
        refine List.map_congr_left fun item _ => ?_
        by_cases hitem : item.1 = k <;> simp [hitem]
      rw [hkeys]
      exact d.nodup
    · rename_i hk
      rw [List.map_append, List.nodup_append']
      refine ⟨d.nodup, by simp, ?_⟩
      simpa using hk

/-- Change every value. -/
def mapValues (d : Dict κ α) (f : α → α) : Dict κ α where
  items := d.items.map fun item => (item.1, f item.2)
  nodup := by
    have hkeys : (d.items.map fun item => (item.1, f item.2)).map Prod.fst =
        d.items.map Prod.fst := by
      rw [List.map_map]
      exact List.map_congr_left fun item _ => rfl
    rw [hkeys]
    exact d.nodup

/-- Remove a key. -/
def pop (d : Dict κ α) (k : κ) : Dict κ α where
  items := d.items.filter fun item => item.1 ≠ k
  nodup := d.nodup.sublist (List.filter_sublist.map Prod.fst)

/-- Keep the items that satisfy a condition. -/
def filter (d : Dict κ α) (p : κ → α → Bool) : Dict κ α where
  items := d.items.filter fun item => p item.1 item.2
  nodup := d.nodup.sublist (List.filter_sublist.map Prod.fst)

/-- A new key goes to the end. -/
theorem items_set_of_notMem {d : Dict κ α} {k : κ} (h : k ∉ d.items.map Prod.fst) (v : α) :
    (d.set k v).items = d.items ++ [(k, v)] :=
  if_neg h

@[simp]
theorem get?_empty (k : κ) :
    (empty : Dict κ α).get? k = none :=
  rfl

/-- A key is absent exactly when no item has it. -/
theorem get?_eq_none_iff (d : Dict κ α) (k : κ) :
    d.get? k = none ↔ k ∉ d.items.map Prod.fst := by
  simp only [get?, Option.map_eq_none_iff, List.find?_eq_none, List.mem_map, decide_eq_true_eq,
    not_exists, not_and]

/-- A value that is read is one of the items. -/
theorem mem_of_get? {d : Dict κ α} {k : κ} {v : α} (h : d.get? k = some v) :
    (k, v) ∈ d.items := by
  obtain ⟨item, hitem, rfl⟩ := Option.map_eq_some_iff.1 h
  have hkey : item.1 = k := by simpa using List.find?_some hitem
  have hmem := List.mem_of_find?_eq_some hitem
  rwa [← hkey]

/-- The items are the keys with their values. -/
theorem mem_items_iff {d : Dict κ α} {k : κ} {v : α} :
    (k, v) ∈ d.items ↔ d.get? k = some v := by
  refine ⟨fun h => ?_, mem_of_get?⟩
  cases hfound : d.get? k with
  | none => exact absurd (List.mem_map.2 ⟨_, h, rfl⟩) ((get?_eq_none_iff d k).1 hfound)
  | some v' =>
      have hsame := List.inj_on_of_nodup_map d.nodup h (mem_of_get? hfound) rfl
      exact congrArg some (Prod.mk.inj hsame).2.symm

/-- What is read after all values have been changed. -/
theorem get?_mapValues (d : Dict κ α) (f : α → α) (k : κ) :
    (d.mapValues f).get? k = (d.get? k).map f := by
  simp only [get?, mapValues, List.find?_map, Option.map_map]
  rfl

/-- What is read after the items of a key have been replaced. -/
theorem find?_replace (items : List (κ × α)) (k k' : κ) (v : α) :
    ((items.map fun item => if item.1 = k then (k, v) else item).find?
      fun item => item.1 = k').map Prod.snd =
      (items.find? fun item => item.1 = k').map fun item => if k' = k then v else item.2 := by
  induction items with
  | nil => rfl
  | cons item items ih =>
      rw [List.map_cons, List.find?_cons, List.find?_cons]
      by_cases hitem : item.1 = k
      · by_cases heq : k' = k
        · simp [hitem, heq]
        · simpa [hitem, heq, Ne.symm heq] using ih
      · by_cases heq : item.1 = k'
        · simp [heq, show k' ≠ k from fun h => hitem (heq.trans h)]
        · simpa [hitem, heq] using ih

/-- What is read after a value has been stored. -/
theorem get?_set (d : Dict κ α) (k k' : κ) (v : α) :
    (d.set k v).get? k' = if k' = k then some v else d.get? k' := by
  by_cases hk : k ∈ d.items.map Prod.fst
  · have hset : (d.set k v).get? k' =
        (d.items.find? fun item => item.1 = k').map fun item => if k' = k then v else item.2 := by
      simp only [get?, set]
      rw [if_pos hk, find?_replace]
    rw [hset]
    by_cases heq : k' = k
    · subst heq
      have hfound : d.get? k' ≠ none := fun h => (get?_eq_none_iff d k').1 h hk
      obtain ⟨item, hitem⟩ := Option.ne_none_iff_exists'.1
        (fun h => hfound (by rw [get?, h]; rfl) : (d.items.find? fun item => item.1 = k') ≠ none)
      simp [hitem]
    · simp [heq, get?]
  · have hmiss := (get?_eq_none_iff d k).2 hk
    simp only [get?, set, if_neg hk, List.find?_append] at hmiss ⊢
    by_cases heq : k' = k
    · subst heq
      rw [Option.map_eq_none_iff] at hmiss
      simp [hmiss]
    · simp [heq, Ne.symm heq]

/-- What is read after a key has been removed. -/
theorem get?_pop (d : Dict κ α) (k k' : κ) :
    (d.pop k).get? k' = if k' = k then none else d.get? k' := by
  simp only [pop, get?]
  induction d.items with
  | nil => simp
  | cons item items ih =>
      by_cases hitem : item.1 = k
      · by_cases heq : k' = k
        · simp_all
        · simpa [hitem, heq, Ne.symm heq] using ih
      · by_cases heq : item.1 = k'
        · simp [heq, show k' ≠ k from fun h => hitem (heq.trans h)]
        · simpa [hitem, heq] using ih

/-- What is read after some items have been dropped. -/
theorem get?_filter (d : Dict κ α) (p : κ → α → Bool) (k : κ) :
    (d.filter p).get? k = (d.get? k).filter (p k) := by
  ext v
  rw [← mem_items_iff, Option.filter_eq_some_iff, ← mem_items_iff]
  exact List.mem_filter

/-- Storing the value that is there changes nothing. -/
theorem set_eq_self {d : Dict κ α} {k : κ} {v : α} (h : d.get? k = some v) :
    d.set k v = d := by
  have hmem := mem_of_get? h
  have hk : k ∈ d.items.map Prod.fst := List.mem_map.2 ⟨_, hmem, rfl⟩
  ext1
  simp only [set, if_pos hk]
  refine (List.map_congr_left fun item hitem => ?_).trans (List.map_id _)
  split
  · rename_i hkey
    exact (List.inj_on_of_nodup_map d.nodup hmem hitem hkey.symm)
  · rfl

/-- Removing a key that is absent changes nothing. -/
theorem pop_eq_self {d : Dict κ α} {k : κ} (h : d.get? k = none) :
    d.pop k = d := by
  have hk := (get?_eq_none_iff d k).1 h
  ext1
  refine List.filter_eq_self.2 fun item hitem => ?_
  have hne : item.1 ≠ k := by
    rintro rfl
    exact hk (List.mem_map.2 ⟨item, hitem, rfl⟩)
  simpa using hne

end Dict
end MpvmApp
