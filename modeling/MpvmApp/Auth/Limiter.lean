import MpvmApp.Lib.Dict

/-!
# The limiter of failed attempts

A limiter keeps the times of the failures of each key.  A check drops those that have left the
window, and refuses a key with too many that are left; when there are too many keys, a failure
sweeps out those whose last failure has left the window.

Main results:

- Theorem `stamps_check`: a check drops what has left the window, of its own key only.
- Theorem `stamps_fail`: a failure is added, and a key whose last failure is old is dropped.
- Theorem `countP_fail`: while the times of a key are in order, the sweep drops no failure
  inside the window.
-/

namespace MpvmApp
namespace Auth
namespace Limiter

/--
The arguments of `LoginLimiter`, with its defaults.  Readings of `time.monotonic` are
integers, in any unit.
-/
structure Settings where
  attempts : Nat := 8
  windowSeconds : Int := 300
  maxKeys : Nat := 10000

/-- The failures of the keys, each with the last one at the end. -/
abbrev Entries := Dict String (List Int)

/-- The failures of a key. -/
def stamps (entries : Entries) (key : String) : List Int :=
  (entries.get? key).getD []

/-- What is left once the failures before the window are popped from the left. -/
def unexpired (settings : Settings) (now : Int) (times : List Int) : List Int :=
  times.dropWhile fun t => decide (settings.windowSeconds < now - t)

/-- `LoginLimiter.check`, and whether the key is let through. -/
def check (settings : Settings) (now : Int) (key : String) (entries : Entries) :
    Entries × Bool :=
  match entries.get? key with
  | none => (entries, true)
  | some times =>
      let kept := unexpired settings now times
      if kept = [] then (entries.pop key, true)
      else (entries.set key kept, decide (kept.length < settings.attempts))

/-- The last failure of a key has left the window. -/
def isStale (settings : Settings) (now : Int) (times : List Int) : Bool :=
  times.getLast?.all fun last => decide (settings.windowSeconds < now - last)

/-- `LoginLimiter.fail`. -/
def fail (settings : Settings) (now : Int) (key : String) (entries : Entries) : Entries :=
  let entries := entries.set key (stamps entries key ++ [now])
  if settings.maxKeys < entries.items.length then
    entries.filter fun _ times => !isStale settings now times
  else entries

/-- `LoginLimiter.clear`. -/
def clear (key : String) (entries : Entries) : Entries :=
  entries.pop key

section Specs

variable {settings : Settings} {now : Int} {key k : String} {entries : Entries}

/-- A check drops what has left the window, of its own key only. -/
theorem stamps_check :
    stamps (check settings now key entries).1 k =
      if k = key then unexpired settings now (stamps entries key) else stamps entries k := by
  unfold check
  split
  · rename_i hnone
    split_ifs with hk
    · subst hk
      simp [stamps, hnone, unexpired]
    · rfl
  · rename_i times htimes
    have hstamps : stamps entries key = times := by rw [stamps, htimes, Option.getD_some]
    rw [hstamps]
    dsimp only
    split_ifs with hempty hk hk
    · subst hk
      rw [stamps, Dict.get?_pop, if_pos rfl, hempty]
      rfl
    · rw [stamps, Dict.get?_pop, if_neg hk]
      rfl
    · rw [stamps, Dict.get?_set, if_pos hk]
      rfl
    · rw [stamps, Dict.get?_set, if_neg hk]
      rfl

/-- A failure is added, and a key whose last failure is old is dropped. -/
theorem stamps_fail :
    stamps (fail settings now key entries) k =
        (if k = key then stamps entries key ++ [now] else stamps entries k) ∨
      stamps (fail settings now key entries) k = [] ∧
        isStale settings now
          (if k = key then stamps entries key ++ [now] else stamps entries k) = true := by
  have hset : ((entries.set key (stamps entries key ++ [now])).get? k).getD [] =
      if k = key then stamps entries key ++ [now] else stamps entries k := by
    rw [Dict.get?_set]
    split_ifs
    · rfl
    · rfl
  rw [← hset]
  unfold fail
  dsimp only
  by_cases hswept : settings.maxKeys <
      (entries.set key (stamps entries key ++ [now])).items.length
  · rw [if_pos hswept, stamps, Dict.get?_filter]
    cases (entries.set key (stamps entries key ++ [now])).get? k with
    | none => exact .inl rfl
    | some times =>
        cases hstale : isStale settings now times with
        | true => exact .inr ⟨by simp [Option.filter, hstale], hstale⟩
        | false => exact .inl (by simp [Option.filter, hstale])
  · rw [if_neg hswept]
    exact .inl rfl

theorem stamps_clear :
    stamps (clear key entries) k = if k = key then [] else stamps entries k := by
  rw [stamps, clear, Dict.get?_pop]
  split_ifs
  · rfl
  · rfl

theorem countP_unexpired {since : Int} (hsince : now - settings.windowSeconds ≤ since)
    (times : List Int) :
    (unexpired settings now times).countP (fun t => decide (since ≤ t)) =
      times.countP fun t => decide (since ≤ t) := by
  induction times with
  | nil => rfl
  | cons t times ih =>
      unfold unexpired at ih ⊢
      rw [List.dropWhile_cons]
      split_ifs with hexpired
      · have hold : ¬ since ≤ t := by
          have hwindow := of_decide_eq_true hexpired
          omega
        rw [ih, List.countP_cons]
        simp [hold]
      · rfl

/-- In a list in order, a stale last failure means that all have left the window. -/
theorem countP_of_isStale {since : Int} (hsince : now - settings.windowSeconds ≤ since)
    {times : List Int} (hsorted : times.Pairwise (· ≤ ·))
    (hstale : isStale settings now times = true) :
    times.countP (fun t => decide (since ≤ t)) = 0 := by
  rw [List.countP_eq_zero]
  intro t ht hrecent
  have hne : times ≠ [] := List.ne_nil_of_mem ht
  have hlast : times.getLast? = some (times.getLast hne) := List.getLast?_eq_some_getLast hne
  have hold : settings.windowSeconds < now - times.getLast hne := by
    simpa [isStale, hlast] using hstale
  have hle : t ≤ times.getLast hne := by
    have happend := List.dropLast_append_getLast hne
    rw [← happend, List.pairwise_append] at hsorted
    rw [← happend, List.mem_append, List.mem_singleton] at ht
    rcases ht with ht | rfl
    · exact hsorted.2.2 t ht _ (List.mem_singleton_self _)
    · exact Int.le_refl _
  have hrecent := of_decide_eq_true hrecent
  omega

/-- While the times of a key are in order, no failure inside the window is dropped. -/
theorem countP_fail {since : Int} (hsince : now - settings.windowSeconds ≤ since)
    (hsorted : (if k = key then stamps entries key ++ [now] else stamps entries k).Pairwise
      (· ≤ ·)) :
    (stamps (fail settings now key entries) k).countP (fun t => decide (since ≤ t)) =
      (if k = key then stamps entries key ++ [now] else stamps entries k).countP
        fun t => decide (since ≤ t) := by
  rcases @stamps_fail settings now key k entries with hkept | ⟨hdropped, hstale⟩
  · rw [hkept]
  · rw [hdropped, countP_of_isStale hsince hsorted hstale]
    rfl

end Specs

end Limiter
end Auth
end MpvmApp
