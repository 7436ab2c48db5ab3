import Mathlib.Data.List.Nodup
import Mathlib.Data.Option.Basic

/-!
# Writes under keys

A store is read under keys, and every write changes what is read under its own key alone.
A row that is written under its key leaves a value that is derived from it, so that a store
which is written for the changed rows only holds what is derived from all rows.

Main results:

- Theorem `get_foldl_of_not_mem`: what is read under the other keys stays.
- Theorem `get_foldl_of_mem`: what is read under a key that is written once.
- Theorem `derived_foldl`: the store holds the values that are derived from the rows.
-/

namespace MpvmApp

section KeyedWrites

variable {σ α κ β : Type*} {write : σ → α → σ} {get : σ → κ → β} {key : α → κ}

/-- Writes leave alone what is read under the other keys. -/
theorem get_foldl_of_not_mem (hother : ∀ s a k, k ≠ key a → get (write s a) k = get s k)
    {l : List α} {k : κ} (hk : k ∉ l.map key) (s : σ) :
    get (l.foldl write s) k = get s k := by
  induction l generalizing s with
  | nil => rfl
  | cons a l ih =>
      rw [List.map_cons, List.mem_cons, not_or] at hk
      rw [List.foldl_cons, ih hk.2, hother s a k hk.1]

/-- Under a key that is written once the value of this write is read afterwards. -/
theorem get_foldl_of_mem (hother : ∀ s a k, k ≠ key a → get (write s a) k = get s k)
    {value : α → β} {l : List α} (hsame : ∀ a ∈ l, ∀ s, get (write s a) (key a) = value a)
    (hkeys : (l.map key).Nodup) {a : α} (ha : a ∈ l) (s : σ) :
    get (l.foldl write s) (key a) = value a := by
  induction l generalizing s with
  | nil => cases ha
  | cons b l ih =>
      rw [List.map_cons, List.nodup_cons] at hkeys
      rw [List.foldl_cons]
      rcases List.mem_cons.1 ha with rfl | hrest
      · rw [get_foldl_of_not_mem hother hkeys.1]
        exact hsame a List.mem_cons_self s
      · exact ih (fun a ha => hsame a (List.mem_cons_of_mem _ ha)) hkeys.2 hrest _

/--
After the rows that changed are written, every key holds what is derived from its row, if
the other keys held this before.
-/
theorem derived_foldl (hother : ∀ s a k, k ≠ key a → get (write s a) k = get s k)
    {derive : α → β} {gone : β} {rows : κ → Option α} {l : List α}
    (hsame : ∀ a ∈ l, ∀ s, get (write s a) (key a) = derive a)
    (hkeys : (l.map key).Nodup) (hrows : ∀ a ∈ l, rows (key a) = some a) {s : σ}
    (hrest : ∀ k, k ∉ l.map key → get s k = (rows k).elim gone derive) (k : κ) :
    get (l.foldl write s) k = (rows k).elim gone derive := by
  by_cases hk : k ∈ l.map key
  · obtain ⟨a, ha, rfl⟩ := List.mem_map.1 hk
    rw [get_foldl_of_mem hother hsame hkeys ha, hrows a ha]
    rfl
  · rw [get_foldl_of_not_mem hother hk]
    exact hrest k hk

end KeyedWrites

end MpvmApp
