import MpvmApp.Auth.Limiter
import MpvmApp.Lib.Runs
import MpvmApp.Lib.Tally

/-!
# Attempts to log in

A login and a request with a token verify a credential between the check of their limiters and the
failure or the success that they report to them.  Attempts run at the same time; every statement
that takes the lock of a limiter, or reads the clock for it, is one step.

A limiter counts what has been reported.  An attempt that has passed its check and not reported its
outcome is not counted, so that further attempts for its key pass as well.

Main definitions:

- Definition `step`: one statement of an attempt.
- Definition `Bounded`: no window has more failed verifications of a key than it may.
- Definition `Remembers`: no failure inside the window is forgotten.
- Definition `Orderly`: no more attempts are under way than may still fail, and failures are
  reported in the order of their times.

Main results:

- Theorem `Inv.step`: an orderly step keeps the invariant.
- Theorem `limit_kept`: every orderly run keeps the limit and remembers the failures.
-/

namespace MpvmApp
namespace Auth
namespace LoginAttempts

open Limiter
open Runs

/-! ## Data model -/

/-- The limiters of the process: `LOGIN_LIMITER`, `_IP_LIMITER`, `_TOKEN_LIMITER`. -/
inductive LimiterName where
  | login
  | ip
  | token
deriving DecidableEq, Repr

/-- The arguments with which the limiters are made. -/
def settingsOf : LimiterName → Settings
  | .login => {}
  | .ip => { attempts := 60 }
  | .token => { attempts := 8 }

/-- A key of one of the limiters. -/
structure Key where
  limiter : LimiterName
  text : String
deriving DecidableEq, Repr

/-- A `login` from an address under a name, or an `authenticate` with a token. -/
inductive Attempt where
  | login (host username : String)
  | token (ip publicId : String)
deriving DecidableEq

/-- The keys that an attempt checks, and under which it reports a failure. -/
def Attempt.keys : Attempt → List Key
  | .login host username => [⟨.login, s!"{host}:{username}"⟩]
  | .token ip publicId => [⟨.ip, ip⟩, ⟨.token, s!"{ip}:{publicId}"⟩]

/-- The keys that a success clears. -/
def Attempt.clears : Attempt → List Key
  | .login host username => [⟨.login, s!"{host}:{username}"⟩]
  | .token ip publicId => [⟨.token, s!"{ip}:{publicId}"⟩]

theorem nodup_keys (a : Attempt) :
    a.keys.Nodup := by
  cases a <;> simp [Attempt.keys]

/--
The statement at which an attempt stands.  Before the lock of a limiter is taken its method has
read the clock; a failure keeps the time of the verification.
-/
inductive Phase where
  | checking (a : Attempt) (passed rest : List Key)
  | atCheck (a : Attempt) (passed : List Key) (now : Int) (key : Key) (rest : List Key)
  | failing (verifiedAt : Int) (rest : List Key)
  | atFail (verifiedAt now : Int) (key : Key) (rest : List Key)
  | clearing (rest : List Key)
  | ended
deriving DecidableEq

/-- The clock, the limiters, the attempts, and the failed verifications since the last success. -/
structure System where
  clock : Int := 0
  entries : LimiterName → Entries := fun _ => .empty
  attempts : List Phase := []
  failures : Key → List Int := fun _ => []

/-- Time passes, an attempt begins, or an attempt goes on; its credential is right or not. -/
inductive Event where
  | tick (seconds : Nat)
  | start (a : Attempt)
  | advance (i : Nat) (valid : Bool)

/-! ## The statements -/

/-- The failures that a limiter has of a key. -/
def System.stampsOf (s : System) (k : Key) : List Int :=
  stamps (s.entries k.limiter) k.text

/-- A limiter is given other entries. -/
def System.setEntries (s : System) (limiter : LimiterName) (entries : Entries) : System :=
  { s with entries := Function.update s.entries limiter entries }

section Steps

variable (settings : LimiterName → Settings)

/-- The check of a key, and whether it is passed. -/
def System.check (s : System) (now : Int) (key : Key) : System × Bool :=
  let answer := Limiter.check (settings key.limiter) now key.text (s.entries key.limiter)
  (s.setEntries key.limiter answer.1, answer.2)

/-- The next statement of an attempt, and where it stands then. -/
def System.next (s : System) (valid : Bool) : Phase → System × Phase
  | .checking a passed (key :: rest) => (s, .atCheck a passed s.clock key rest)
  | .atCheck a passed now key rest =>
      let answer := s.check settings now key
      (answer.1, if answer.2 then .checking a (passed ++ [key]) rest else .ended)
  | .checking a _ [] =>
      if valid then (s, .clearing a.clears)
      else
        -- the credential is verified here, and is not the right one
        ({ s with
            failures := fun k => if k ∈ a.keys then s.clock :: s.failures k else s.failures k },
          .failing s.clock a.keys)
  | .failing verifiedAt (key :: rest) => (s, .atFail verifiedAt s.clock key rest)
  | .failing _ [] => (s, .ended)
  | .atFail verifiedAt now key rest =>
      (s.setEntries key.limiter
        (Limiter.fail (settings key.limiter) now key.text (s.entries key.limiter)),
        .failing verifiedAt rest)
  | .clearing (key :: rest) =>
      ({ s.setEntries key.limiter (Limiter.clear key.text (s.entries key.limiter)) with
          failures := Function.update s.failures key [] },
        .clearing rest)
  | .clearing [] => (s, .ended)
  | .ended => (s, .ended)

/-- The attempt with this number stands at another statement. -/
def System.moveTo (s : System) (i : Nat) (phase : Phase) : System :=
  { s with attempts := s.attempts.set i phase }

/-- One statement of an attempt. -/
def step (s : System) : Event → System
  | .tick seconds => { s with clock := s.clock + seconds }
  | .start a => { s with attempts := s.attempts ++ [.checking a [] a.keys] }
  | .advance i valid =>
      match s.attempts[i]? with
      | some phase => (s.next settings valid phase).1.moveTo i (s.next settings valid phase).2
      | none => s

/-! ## The limit -/

/-- How often an attempt has passed the check of a key without having verified its credential. -/
def unverified (k : Key) : Phase → Nat
  | .checking _ passed _ => passed.count k
  | .atCheck _ passed _ _ _ => passed.count k
  | _ => 0

/-- How often an attempt that has failed has still to report it for a key. -/
def unreported (k : Key) : Phase → Nat
  | .failing _ rest => rest.count k
  | .atFail _ _ key rest => (key :: rest).count k
  | _ => 0

/-- The attempts that may still report a failure of a key that they have passed. -/
def System.underWay (s : System) (k : Key) : Nat :=
  (s.attempts.map (unverified k)).sum + (s.attempts.map (unreported k)).sum

/-- No window has more failed verifications of a key than its limiter allows. -/
def Bounded (s : System) : Prop :=
  ∀ k t, (s.failures k).countP (fun τ =>
    decide (t - (settings k.limiter).windowSeconds ≤ τ ∧ τ ≤ t)) ≤ (settings k.limiter).attempts

/-- The step is the success of a key. -/
def Clears (s : System) (k : Key) : Event → Prop
  | .advance i _ => ∃ rest, s.attempts[i]? = some (.clearing (k :: rest))
  | _ => False

/-- A step forgets no failure of a key that is inside the window, but for a success of the key. -/
def Remembers (s : System) (e : Event) : Prop :=
  ∀ k, ¬ Clears s k e → ∀ since, s.clock - (settings k.limiter).windowSeconds ≤ since →
    (s.stampsOf k).countP (fun t => decide (since ≤ t)) ≤
      ((step settings s e).stampsOf k).countP fun t => decide (since ≤ t)

/-- A statement that leaves room for the attempts under way, and the failures in order. -/
def OrderlyAt (s : System) : Phase → Prop
  | .atCheck _ _ now key _ =>
      (s.check settings now key).2 = true →
        (unexpired (settings key.limiter) now (s.stampsOf key)).length + s.underWay key <
          (settings key.limiter).attempts
  | .atFail _ now key _ => ∀ t ∈ s.stampsOf key, t ≤ now
  | _ => True

/--
A check is passed while the failures inside the window and the attempts under way leave room for
one more, and a failure is reported with a time that is not before the last one of its key.
-/
def Orderly (s : System) : Event → Prop
  | .advance i _ => ∀ phase ∈ s.attempts[i]?, OrderlyAt settings s phase
  | _ => True

instance instDecidableOrderlyAt (s : System) :
    (phase : Phase) → Decidable (OrderlyAt settings s phase)
  | .atCheck _ _ now key _ =>
      inferInstanceAs (Decidable ((s.check settings now key).2 = true → _ < _))
  | .atFail _ now key _ => inferInstanceAs (Decidable (∀ t ∈ s.stampsOf key, t ≤ now))
  | .checking _ _ _ | .failing _ _ | .clearing _ | .ended => isTrue trivial

instance instDecidableOrderly (s : System) : (e : Event) → Decidable (Orderly settings s e)
  | .advance i _ => inferInstanceAs (Decidable (∀ phase ∈ s.attempts[i]?, _))
  | .tick _ | .start _ => isTrue trivial

end Steps

/-! ## What the limiters keep -/

section Stamps

variable {settings : LimiterName → Settings} {s : System} {now : Int} {key k : Key}

theorem Key.eq_iff {k k' : Key} :
    k = k' ↔ k.limiter = k'.limiter ∧ k.text = k'.text := by
  cases k
  cases k'
  simp

theorem stampsOf_setEntries (limiter : LimiterName) (entries : Entries) :
    (s.setEntries limiter entries).stampsOf k =
      if k.limiter = limiter then stamps entries k.text else s.stampsOf k := by
  unfold System.stampsOf System.setEntries
  by_cases hk : k.limiter = limiter
  · simp [hk]
  · simp [hk]

theorem stampsOf_check :
    (s.check settings now key).1.stampsOf k =
      if k = key then unexpired (settings key.limiter) now (s.stampsOf key)
      else s.stampsOf k := by
  unfold System.check
  rw [stampsOf_setEntries, stamps_check]
  by_cases hlimiter : k.limiter = key.limiter
  · by_cases htext : k.text = key.text
    · have hk : k = key := Key.eq_iff.2 ⟨hlimiter, htext⟩
      simp [hk, System.stampsOf]
    · have hk : k ≠ key := fun heq => htext (Key.eq_iff.1 heq).2
      simp [hlimiter, htext, hk, System.stampsOf]
  · have hk : k ≠ key := fun heq => hlimiter (Key.eq_iff.1 heq).1
    simp [hlimiter, hk]

theorem stampsOf_clear :
    (s.setEntries key.limiter (Limiter.clear key.text (s.entries key.limiter))).stampsOf k =
      if k = key then [] else s.stampsOf k := by
  rw [stampsOf_setEntries, stamps_clear]
  by_cases hlimiter : k.limiter = key.limiter
  · by_cases htext : k.text = key.text
    · have hk : k = key := Key.eq_iff.2 ⟨hlimiter, htext⟩
      simp [hk]
    · have hk : k ≠ key := fun heq => htext (Key.eq_iff.1 heq).2
      simp [hlimiter, htext, hk, System.stampsOf]
  · have hk : k ≠ key := fun heq => hlimiter (Key.eq_iff.1 heq).1
    simp [hlimiter, hk]

/-- The entries after a failure. -/
abbrev System.report (settings : LimiterName → Settings) (s : System) (now : Int) (key : Key) :
    System :=
  s.setEntries key.limiter
    (Limiter.fail (settings key.limiter) now key.text (s.entries key.limiter))

/-- The times of a key with a failure that is reported now. -/
def System.reported (s : System) (now : Int) (key k : Key) : List Int :=
  if k = key then s.stampsOf key ++ [now] else s.stampsOf k

theorem reported_eq (hlimiter : k.limiter = key.limiter) :
    (if k.text = key.text then stamps (s.entries key.limiter) key.text ++ [now]
      else stamps (s.entries key.limiter) k.text) = s.reported now key k := by
  rw [System.reported]
  by_cases htext : k.text = key.text
  · have hk : k = key := Key.eq_iff.2 ⟨hlimiter, htext⟩
    simp [hk, System.stampsOf]
  · have hk : k ≠ key := fun heq => htext (Key.eq_iff.1 heq).2
    simp [htext, hk, System.stampsOf, hlimiter]

theorem stampsOf_report_of_ne (hlimiter : k.limiter ≠ key.limiter) :
    (s.report settings now key).stampsOf k = s.reported now key k := by
  have hk : k ≠ key := fun heq => hlimiter (Key.eq_iff.1 heq).1
  rw [stampsOf_setEntries, if_neg hlimiter, System.reported, if_neg hk]

theorem stampsOf_report :
    (s.report settings now key).stampsOf k = s.reported now key k ∨
      (s.report settings now key).stampsOf k = [] := by
  by_cases hlimiter : k.limiter = key.limiter
  · rw [stampsOf_setEntries, if_pos hlimiter, ← reported_eq hlimiter]
    exact (@stamps_fail (settings key.limiter) now key.text k.text (s.entries key.limiter)).imp
      id And.left
  · exact .inl (stampsOf_report_of_ne hlimiter)

theorem countP_report {since : Int}
    (hsince : now - (settings k.limiter).windowSeconds ≤ since)
    (hsorted : (s.reported now key k).Pairwise (· ≤ ·)) :
    ((s.report settings now key).stampsOf k).countP (fun t => decide (since ≤ t)) =
      (s.reported now key k).countP fun t => decide (since ≤ t) := by
  by_cases hlimiter : k.limiter = key.limiter
  · rw [← reported_eq hlimiter] at hsorted ⊢
    rw [stampsOf_setEntries, if_pos hlimiter]
    exact countP_fail (hlimiter ▸ hsince) hsorted
  · rw [stampsOf_report_of_ne hlimiter]

end Stamps

/-! ## The invariant -/

/-- How often a failure since a time has still to be reported for a key. -/
def unreportedSince (since : Int) (k : Key) : Phase → Nat
  | .failing verifiedAt rest => if since ≤ verifiedAt then rest.count k else 0
  | .atFail verifiedAt _ key rest => if since ≤ verifiedAt then (key :: rest).count k else 0
  | _ => 0

theorem unreportedSince_le (since : Int) (k : Key) (phase : Phase) :
    unreportedSince since k phase ≤ unreported k phase := by
  cases phase with
  | failing | atFail =>
      simp only [unreportedSince, unreported]
      split_ifs <;> omega
  | checking | atCheck | clearing | ended => exact Nat.le_refl _

/-- The keys that have been passed and the others are those of the attempt, and no time is ahead. -/
def Shaped (clock : Int) : Phase → Prop
  | .checking a passed rest => passed ++ rest = a.keys
  | .atCheck a passed now key rest => passed ++ key :: rest = a.keys ∧ now ≤ clock
  | .failing verifiedAt _ => verifiedAt ≤ clock
  | .atFail verifiedAt now _ _ => verifiedAt ≤ now ∧ now ≤ clock
  | _ => True

/-- The failures of a key since a time. -/
def System.failedSince (s : System) (k : Key) (since : Int) : Nat :=
  (s.failures k).countP fun τ => decide (since ≤ τ)

/-- The reported failures of a key since a time. -/
def System.reportedSince (s : System) (k : Key) (since : Int) : Nat :=
  (s.stampsOf k).countP fun t => decide (since ≤ t)

/-- What every orderly step keeps. -/
structure Inv (settings : LimiterName → Settings) (s : System) : Prop where
  shaped : ∀ phase ∈ s.attempts, Shaped s.clock phase
  sorted : ∀ k, (s.stampsOf k).Pairwise (· ≤ ·)
  past : ∀ k, ∀ τ ∈ s.failures k, τ ≤ s.clock
  /-- Every failure inside the window has been reported, or is going to be. -/
  counted : ∀ k since, s.clock - (settings k.limiter).windowSeconds ≤ since →
    s.failedSince k since ≤
      s.reportedSince k since + (s.attempts.map (unreportedSince since k)).sum
  /-- The limit has room for every attempt that has passed its check. -/
  room : ∀ k since, s.clock - (settings k.limiter).windowSeconds ≤ since →
    s.failedSince k since + (s.attempts.map (unverified k)).sum ≤ (settings k.limiter).attempts
  bounded : Bounded settings s

section Invariant

variable {settings : LimiterName → Settings} {s s' : System} {i : Nat} {phase phase' : Phase}

theorem mem_of_getElem? (h : s.attempts[i]? = some phase) :
    phase ∈ s.attempts :=
  List.mem_of_getElem? h

theorem Inv.initial (settings : LimiterName → Settings) :
    Inv settings {} where
  shaped := nofun
  sorted _ := List.Pairwise.nil
  past := nofun
  counted _ _ _ := Nat.zero_le _
  room _ _ _ := Nat.zero_le _
  bounded _ _ := Nat.zero_le _

/-- Time takes failures out of the window. -/
theorem Inv.tick (h : Inv settings s) (seconds : Nat) :
    Inv settings { s with clock := s.clock + seconds } where
  shaped phase hphase := by
    have hshaped := h.shaped phase hphase
    cases phase with
    | checking | clearing | ended => exact hshaped
    | atCheck => exact ⟨hshaped.1, by have := hshaped.2; dsimp only; omega⟩
    | failing =>
        unfold Shaped at hshaped ⊢
        dsimp only
        omega
    | atFail => exact ⟨hshaped.1, by have := hshaped.2; dsimp only; omega⟩
  sorted := h.sorted
  past k τ hτ := by
    have hpast := h.past k τ hτ
    dsimp only
    omega
  counted k since hsince := h.counted k since (by dsimp only at hsince; omega)
  room k since hsince := h.room k since (by dsimp only at hsince; omega)
  bounded := h.bounded

theorem Inv.start (h : Inv settings s) (a : Attempt) :
    Inv settings { s with attempts := s.attempts ++ [.checking a [] a.keys] } where
  shaped phase hphase := by
    rcases List.mem_append.1 hphase with hphase | hphase
    · exact h.shaped phase hphase
    · rw [List.mem_singleton.1 hphase]
      rfl
  sorted := h.sorted
  past := h.past
  counted k since hsince := by
    rw [List.map_append, List.sum_append]
    exact h.counted k since hsince
  room k since hsince := by
    rw [List.map_append, List.sum_append]
    exact h.room k since hsince
  bounded := h.bounded

/-- An attempt goes on without a failed verification, and leaves room for those under way. -/
theorem Inv.moveTo (h : Inv settings s) (hi : s.attempts[i]? = some phase)
    (hattempts : s'.attempts = s.attempts) (hclock : s'.clock = s.clock)
    (hshaped : Shaped s.clock phase') (hsorted : ∀ k, (s'.stampsOf k).Pairwise (· ≤ ·))
    (hfailures : ∀ k, s'.failures k = [] ∨ s'.failures k = s.failures k ∧
      ∀ since, s.clock - (settings k.limiter).windowSeconds ≤ since →
        s.reportedSince k since + unreportedSince since k phase ≤
          s'.reportedSince k since + unreportedSince since k phase')
    (hroom : ∀ k since, s.clock - (settings k.limiter).windowSeconds ≤ since →
      s.failedSince k since + (s.attempts.map (unverified k)).sum + unverified k phase' ≤
        (settings k.limiter).attempts + unverified k phase) :
    Inv settings (s'.moveTo i phase') where
  shaped other hother := by
    rw [System.moveTo, hclock]
    rcases List.mem_or_eq_of_mem_set hother with hother | rfl
    · exact h.shaped other (hattempts ▸ hother)
    · exact hshaped
  sorted := hsorted
  past k τ hτ := by
    rw [System.moveTo, hclock]
    have hτ : τ ∈ s'.failures k := hτ
    rcases hfailures k with hnone | ⟨hsame, -⟩
    · rw [hnone] at hτ
      cases hτ
    · exact h.past k τ (hsame ▸ hτ)
  counted k since hsince := by
    rw [System.moveTo, hclock] at hsince
    have hsum := sum_map_set (b := phase') (unreportedSince since k) hi
    have hcounted := h.counted k since hsince
    rw [← hattempts] at hsum hcounted
    change s'.failedSince k since ≤ s'.reportedSince k since +
      ((s'.attempts.set i phase').map (unreportedSince since k)).sum
    rcases hfailures k with hnone | ⟨hsame, hreported⟩
    · rw [System.failedSince, hnone]
      exact Nat.zero_le _
    · have hle := hreported since hsince
      rw [System.failedSince, hsame]
      rw [System.failedSince] at hcounted
      omega
  room k since hsince := by
    rw [System.moveTo, hclock] at hsince
    have hsum := sum_map_set (b := phase') (unverified k) hi
    have hle := hroom k since hsince
    rw [← hattempts] at hsum hle
    change s'.failedSince k since + ((s'.attempts.set i phase').map (unverified k)).sum ≤ _
    have hfewer : s'.failedSince k since ≤ s.failedSince k since := by
      rcases hfailures k with hnone | ⟨hsame, -⟩
      · rw [System.failedSince, hnone]
        exact Nat.zero_le _
      · apply Nat.le_of_eq
        rw [System.failedSince, System.failedSince, hsame]
    omega
  bounded k t := by
    change (s'.failures k).countP _ ≤ _
    rcases hfailures k with hnone | ⟨hsame, -⟩
    · rw [hnone]
      exact Nat.zero_le _
    · rw [hsame]
      exact h.bounded k t

theorem Inv.goOn (h : Inv settings s) (hi : s.attempts[i]? = some phase)
    (hshaped : Shaped s.clock phase')
    (hunreported : ∀ since k, unreportedSince since k phase ≤ unreportedSince since k phase')
    (hunverified : ∀ k, unverified k phase' ≤ unverified k phase) :
    Inv settings (s.moveTo i phase') := by
  refine h.moveTo hi rfl rfl hshaped h.sorted (fun k => .inr ⟨rfl, fun since _ => ?_⟩)
    fun k since hsince => ?_
  · have hle := hunreported since k
    omega
  · have hle := hunverified k
    have hroom := h.room k since hsince
    omega

/-- A check that is passed in order keeps the invariant, and so does one that refuses. -/
theorem Inv.check (h : Inv settings s) {a : Attempt} {passed rest : List Key} {now : Int}
    {key : Key} (hi : s.attempts[i]? = some (.atCheck a passed now key rest))
    (horderly : (s.check settings now key).2 = true →
      (unexpired (settings key.limiter) now (s.stampsOf key)).length + s.underWay key <
        (settings key.limiter).attempts) :
    Inv settings ((s.check settings now key).1.moveTo i
      (if (s.check settings now key).2 then .checking a (passed ++ [key]) rest else .ended)) := by
  obtain ⟨hkeys, hnow⟩ : passed ++ key :: rest = a.keys ∧ now ≤ s.clock :=
    h.shaped _ (mem_of_getElem? hi)
  have hreported : ∀ k since, s.clock - (settings k.limiter).windowSeconds ≤ since →
      (s.check settings now key).1.reportedSince k since = s.reportedSince k since := by
    intro k since hsince
    rw [System.reportedSince, System.reportedSince, stampsOf_check]
    split_ifs with hk
    · subst hk
      exact countP_unexpired (by omega) _
    · rfl
  have hsorted : ∀ k, ((s.check settings now key).1.stampsOf k).Pairwise (· ≤ ·) := by
    intro k
    rw [stampsOf_check]
    split_ifs with hk
    · exact (h.sorted key).sublist (List.dropWhile_sublist _)
    · exact h.sorted k
  cases hpassed : (s.check settings now key).2 with
  | false =>
      refine h.moveTo hi rfl rfl trivial hsorted (fun k => .inr ⟨rfl, fun since hsince => ?_⟩)
        fun k since hsince => ?_
      · rw [hreported k since hsince]
        exact Nat.le_refl _
      · have hroom := h.room k since hsince
        have hzero : unverified k .ended = 0 := rfl
        rw [if_neg Bool.false_ne_true]
        omega
  | true =>
      rw [if_pos rfl]
      refine h.moveTo hi rfl rfl (by simpa [Shaped] using hkeys) hsorted
        (fun k => .inr ⟨rfl, fun since hsince => ?_⟩) fun k since hsince => ?_
      · rw [hreported k since hsince]
        exact Nat.le_refl _
      · have hroom := h.room k since hsince
        simp only [unverified, List.count_append, List.count_singleton]
        by_cases hk : key = k
        · -- the failures inside the window are kept by the limiter or still to be reported
          subst hk
          have hfree := horderly hpassed
          have hcounted := h.counted key since hsince
          have hunreported := sum_map_le (l := s.attempts) fun phase =>
            unreportedSince_le since key phase
          have hkept : s.reportedSince key since ≤
              (unexpired (settings key.limiter) now (s.stampsOf key)).length := by
            have hle : now - (settings key.limiter).windowSeconds ≤ since := by omega
            rw [System.reportedSince, ← countP_unexpired hle]
            exact List.countP_le_length
          rw [System.underWay] at hfree
          simp only [beq_self_eq_true, if_true]
          omega
        · have hbeq : (key == k) = false := by simpa using hk
          simp only [hbeq, Bool.false_eq_true, if_false]
          omega

/-- The failures after a credential was found wrong. -/
def System.fail (s : System) (a : Attempt) : System :=
  { s with failures := fun k => if k ∈ a.keys then s.clock :: s.failures k else s.failures k }

theorem failures_fail (s : System) (a : Attempt) (k : Key) :
    (s.fail a).failures k = if a.keys.count k = 0 then s.failures k
      else s.clock :: s.failures k := by
  rw [System.fail]
  by_cases hk : k ∈ a.keys
  · have hcount : a.keys.count k ≠ 0 := fun hzero => List.count_eq_zero.1 hzero hk
    simp [hk, hcount]
  · have hcount : a.keys.count k = 0 := List.count_eq_zero.2 hk
    simp [hk, hcount]

theorem failedSince_fail (s : System) (a : Attempt) (k : Key) (since : Int) :
    (s.fail a).failedSince k since =
      s.failedSince k since + unreportedSince since k (.failing s.clock a.keys) := by
  have hcount : a.keys.count k ≤ 1 := List.nodup_iff_count_le_one.1 (nodup_keys a) k
  rw [System.failedSince, System.failedSince, failures_fail, unreportedSince]
  by_cases hzero : a.keys.count k = 0
  · rw [if_pos hzero, hzero]
    split_ifs <;> rfl
  · have hone : a.keys.count k = 1 := by omega
    rw [if_neg hzero, List.countP_cons, hone]
    by_cases hrecent : since ≤ s.clock
    · simp [hrecent]
    · simp [hrecent]

/-- A failed verification takes the room that its attempt had when it passed its check. -/
theorem Inv.fail (h : Inv settings s) {a : Attempt} {passed : List Key}
    (hi : s.attempts[i]? = some (.checking a passed [])) :
    Inv settings ((s.fail a).moveTo i (.failing s.clock a.keys)) := by
  have hkeys : passed ++ [] = a.keys := h.shaped _ (mem_of_getElem? hi)
  rw [List.append_nil] at hkeys
  have hroom : ∀ k since, s.clock - (settings k.limiter).windowSeconds ≤ since →
      (s.fail a).failedSince k since +
          ((s.attempts.set i (.failing s.clock a.keys)).map (unverified k)).sum ≤
        (settings k.limiter).attempts := by
    intro k since hsince
    have hsum := sum_map_set (b := .failing s.clock a.keys) (unverified k) hi
    have hle := h.room k since hsince
    have hnone : unverified k (.failing s.clock a.keys) = 0 := rfl
    have hpassed : unverified k (.checking a passed []) = a.keys.count k := by
      rw [unverified, hkeys]
    have hmore : unreportedSince since k (.failing s.clock a.keys) ≤ a.keys.count k :=
      unreportedSince_le since k _
    rw [failedSince_fail]
    omega
  exact {
    shaped := by
      intro other hother
      rcases List.mem_or_eq_of_mem_set hother with hother | rfl
      · exact h.shaped other hother
      · exact Int.le_refl _
    sorted := h.sorted
    past := by
      intro k τ hτ
      change τ ∈ (s.fail a).failures k at hτ
      rw [failures_fail] at hτ
      split_ifs at hτ with hzero
      · exact h.past k τ hτ
      · rcases List.mem_cons.1 hτ with rfl | hτ
        · exact Int.le_refl _
        · exact h.past k τ hτ
    counted := by
      intro k since hsince
      have hsum := sum_map_set (b := .failing s.clock a.keys) (unreportedSince since k) hi
      have hcounted := h.counted k since hsince
      have hnone : unreportedSince since k (.checking a passed []) = 0 := rfl
      change (s.fail a).failedSince k since ≤ s.reportedSince k since +
        ((s.attempts.set i (.failing s.clock a.keys)).map (unreportedSince since k)).sum
      rw [failedSince_fail]
      omega
    room := hroom
    bounded := by
      intro k t
      have hbounded := h.bounded k t
      change ((s.fail a).failures k).countP _ ≤ _
      by_cases hinside : t - (settings k.limiter).windowSeconds ≤ s.clock ∧ s.clock ≤ t
      · -- a window with the present failure has the room of the present one
        have hsince : s.clock - (settings k.limiter).windowSeconds ≤
            t - (settings k.limiter).windowSeconds := by omega
        have hle := hroom k _ hsince
        have hsub : ((s.fail a).failures k).countP (fun τ =>
            decide (t - (settings k.limiter).windowSeconds ≤ τ ∧ τ ≤ t)) ≤
            (s.fail a).failedSince k (t - (settings k.limiter).windowSeconds) :=
          List.countP_mono_left fun τ _ hτ =>
            decide_eq_true (of_decide_eq_true hτ).1
        omega
      · rw [failures_fail]
        split_ifs with hzero
        · exact hbounded
        · rw [List.countP_cons, if_neg (by simpa using hinside)]
          exact hbounded }

theorem countP_reported (s : System) (now : Int) (key k : Key) (since : Int) :
    (s.reported now key k).countP (fun t => decide (since ≤ t)) =
      s.reportedSince k since + (if k = key ∧ since ≤ now then 1 else 0) := by
  rw [System.reported, System.reportedSince]
  by_cases hk : k = key
  · subst hk
    by_cases hinside : since ≤ now <;> simp [List.countP_append, hinside]
  · simp [hk]

theorem Inv.reported (h : Inv settings s) {now : Int} {key : Key}
    (horderly : ∀ t ∈ s.stampsOf key, t ≤ now) (k : Key) :
    (s.reported now key k).Pairwise (· ≤ ·) := by
  rw [System.reported]
  split_ifs with hk
  · rw [List.pairwise_append]
    refine ⟨h.sorted key, List.pairwise_singleton _ _, fun t ht u hu => ?_⟩
    rw [List.mem_singleton.1 hu]
    exact horderly t ht
  · exact h.sorted k

/-- A failure that is reported in order keeps the invariant. -/
theorem Inv.report (h : Inv settings s) {verifiedAt now : Int} {key : Key} {rest : List Key}
    (hi : s.attempts[i]? = some (.atFail verifiedAt now key rest))
    (horderly : ∀ t ∈ s.stampsOf key, t ≤ now) :
    Inv settings ((s.report settings now key).moveTo i (.failing verifiedAt rest)) := by
  obtain ⟨hverified, hnow⟩ : verifiedAt ≤ now ∧ now ≤ s.clock :=
    h.shaped _ (mem_of_getElem? hi)
  have hreported := h.reported horderly
  refine h.moveTo hi rfl rfl (Int.le_trans hverified hnow) (fun k => ?_)
    (fun k => .inr ⟨rfl, fun since hsince => ?_⟩) fun k since hsince => h.room k since hsince
  · rcases @stampsOf_report settings s now key k with heq | heq
    · rw [heq]
      exact hreported k
    · rw [heq]
      exact List.Pairwise.nil
  · have hwindow : now - (settings k.limiter).windowSeconds ≤ since := by omega
    have hreport : (s.report settings now key).reportedSince k since =
        s.reportedSince k since + (if k = key ∧ since ≤ now then 1 else 0) := by
      rw [System.reportedSince, countP_report hwindow (hreported k), countP_reported]
    rw [hreport]
    simp only [unreportedSince, List.count_cons, beq_iff_eq]
    by_cases hrecent : since ≤ verifiedAt
    · have hinside : since ≤ now := Int.le_trans hrecent hverified
      by_cases hk : key = k
      · simp only [hrecent, hinside, hk, and_self, if_true]
        omega
      · simp only [hrecent, hk, if_true, if_false]
        omega
    · simp only [hrecent, if_false]
      omega

/-- The system after the success of a key. -/
def System.clear (s : System) (key : Key) : System :=
  { s.setEntries key.limiter (Limiter.clear key.text (s.entries key.limiter)) with
    failures := Function.update s.failures key [] }

theorem stampsOf_systemClear (s : System) (key k : Key) :
    (s.clear key).stampsOf k = if k = key then [] else s.stampsOf k :=
  stampsOf_clear

theorem Inv.clear (h : Inv settings s) {key : Key} {rest : List Key}
    (hi : s.attempts[i]? = some (.clearing (key :: rest))) :
    Inv settings ((s.clear key).moveTo i (.clearing rest)) := by
  refine h.moveTo hi rfl rfl trivial (fun k => ?_) (fun k => ?_)
    fun k since hsince => h.room k since hsince
  · rw [stampsOf_systemClear]
    split_ifs
    · exact List.Pairwise.nil
    · exact h.sorted k
  · have hfailures : (s.clear key).failures = Function.update s.failures key [] := rfl
    rw [hfailures]
    by_cases hk : k = key
    · exact .inl (by rw [hk, Function.update_self])
    · refine .inr ⟨Function.update_of_ne hk _ _, fun since _ => ?_⟩
      rw [System.reportedSince, System.reportedSince, stampsOf_systemClear, if_neg hk]
      exact Nat.le_refl _

/-- Every orderly step keeps the invariant. -/
theorem Inv.step {e : Event} (h : Inv settings s) (horderly : Orderly settings s e) :
    Inv settings (step settings s e) := by
  cases e with
  | tick seconds => exact h.tick seconds
  | start a => exact h.start a
  | advance i valid =>
      cases hi : s.attempts[i]? with
      | none => simpa only [LoginAttempts.step, hi] using h
      | some phase =>
          have horderly : OrderlyAt settings s phase := horderly phase hi
          simp only [LoginAttempts.step, hi]
          cases phase with
          | checking a passed rest =>
              cases rest with
              | nil =>
                  cases valid with
                  | true =>
                      have hshaped : Shaped s.clock (.clearing a.clears) := trivial
                      exact h.goOn hi hshaped (fun _ _ => Nat.le_refl _) fun _ => Nat.zero_le _
                  | false => exact h.fail hi
              | cons key rest =>
                  exact h.goOn hi ⟨h.shaped _ (mem_of_getElem? hi), Int.le_refl _⟩
                    (fun _ _ => Nat.le_refl _) fun _ => Nat.le_refl _
          | atCheck a passed now key rest => exact h.check hi horderly
          | failing verifiedAt rest =>
              cases rest with
              | nil =>
                  refine h.goOn hi trivial (fun since k => ?_) fun _ => Nat.le_refl _
                  simp [unreportedSince]
              | cons key rest =>
                  exact h.goOn hi ⟨h.shaped _ (mem_of_getElem? hi), Int.le_refl _⟩
                    (fun _ _ => Nat.le_refl _) fun _ => Nat.le_refl _
          | atFail verifiedAt now key rest => exact h.report hi horderly
          | clearing rest =>
              cases rest with
              | nil => exact h.goOn hi trivial (fun _ _ => Nat.le_refl _) fun _ => Nat.le_refl _
              | cons key rest => exact h.clear hi
          | ended => exact h.goOn hi trivial (fun _ _ => Nat.le_refl _) fun _ => Nat.le_refl _

theorem remembers_of_entries {e : Event}
    (hentries : (LoginAttempts.step settings s e).entries = s.entries) :
    Remembers settings s e := by
  intro k _ since _
  apply Nat.le_of_eq
  rw [System.stampsOf, System.stampsOf, hentries]

/-- An orderly step forgets no failure inside the window. -/
theorem Inv.remembers {e : Event} (h : Inv settings s) (horderly : Orderly settings s e) :
    Remembers settings s e := by
  cases e with
  | tick seconds => exact remembers_of_entries rfl
  | start a => exact remembers_of_entries rfl
  | advance i valid =>
      cases hi : s.attempts[i]? with
      | none => exact remembers_of_entries (by simp only [LoginAttempts.step, hi])
      | some phase =>
          have horderly : OrderlyAt settings s phase := horderly phase hi
          have hstep : LoginAttempts.step settings s (.advance i valid) =
              (s.next settings valid phase).1.moveTo i (s.next settings valid phase).2 := by
            simp only [LoginAttempts.step, hi]
          have hshaped := h.shaped _ (mem_of_getElem? hi)
          cases phase with
          | checking a passed rest =>
              refine remembers_of_entries ?_
              rw [hstep]
              cases rest <;> cases valid <;> rfl
          | atCheck a passed now key rest =>
              intro k _ since hsince
              rw [hstep]
              change _ ≤ ((s.check settings now key).1.stampsOf k).countP _
              have hnow : now ≤ s.clock := hshaped.2
              rw [stampsOf_check]
              split_ifs with hk
              · subst hk
                have hwindow : now - (settings k.limiter).windowSeconds ≤ since := by omega
                exact Nat.le_of_eq (countP_unexpired hwindow _).symm
              · exact Nat.le_refl _
          | failing verifiedAt rest =>
              refine remembers_of_entries ?_
              rw [hstep]
              cases rest <;> rfl
          | atFail verifiedAt now key rest =>
              intro k _ since hsince
              rw [hstep]
              change _ ≤ ((s.report settings now key).stampsOf k).countP _
              have hnow : now ≤ s.clock := hshaped.2
              have hwindow : now - (settings k.limiter).windowSeconds ≤ since := by omega
              rw [countP_report hwindow (h.reported horderly k), countP_reported]
              exact Nat.le_add_right _ _
          | clearing rest =>
              cases rest with
              | nil => exact remembers_of_entries (by rw [hstep]; rfl)
              | cons key rest =>
                  intro k hclears since _
                  have hk : k ≠ key := by
                    rintro rfl
                    exact hclears ⟨rest, hi⟩
                  rw [hstep]
                  change _ ≤ ((s.clear key).stampsOf k).countP _
                  apply Nat.le_of_eq
                  rw [stampsOf_systemClear, if_neg hk]
          | ended => exact remembers_of_entries (by rw [hstep]; rfl)

end Invariant

/-! ## Runs -/

/--
From a start without failures, a run whose checks are passed while there is room and whose
failures are reported in order keeps the limit, and no step of it forgets a failure.
-/
theorem limit_kept (settings : LimiterName → Settings) (es : List Event)
    (h : Along (step settings) (Orderly settings) {} es) :
    Bounded settings (run (step settings) {} es) ∧
      Along (step settings) (Remembers settings) {} es :=
  ⟨(h.invariant (fun _ _ hs ho => hs.step ho) (Inv.initial settings)).bounded,
    h.ensures (fun _ _ hs ho => hs.step ho) (fun _ _ hs ho => hs.remembers ho)
      (Inv.initial settings)⟩

/-- Two logins one after another, the first with a wrong password. -/
theorem limit_kept_sequence :
    Bounded settingsOf (run (step settingsOf) {}
        [.start (.login "10.0.0.1" "admin"), .advance 0 false, .advance 0 false, .advance 0 false,
          .advance 0 false, .advance 0 false, .tick 30, .start (.login "10.0.0.1" "admin"),
          .advance 1 true, .advance 1 true, .advance 1 true, .advance 1 true]) ∧
      Along (step settingsOf) (Remembers settingsOf) {}
        [.start (.login "10.0.0.1" "admin"), .advance 0 false, .advance 0 false, .advance 0 false,
          .advance 0 false, .advance 0 false, .tick 30, .start (.login "10.0.0.1" "admin"),
          .advance 1 true, .advance 1 true, .advance 1 true, .advance 1 true] :=
  limit_kept settingsOf _ (by decide +kernel)

/-- Nine logins with wrong passwords, all of which are checked before one has failed. -/
def overlapping : List Event :=
  List.replicate 9 (.start (.login "10.0.0.1" "admin")) ++
    (List.range 9).flatMap fun i => [.advance i false, .advance i false, .advance i false]

/-- Nine failed verifications of one name in one window, where eight are allowed. -/
theorem overlapping_logins_exceed_limit :
    ¬ ∀ es, Bounded settingsOf (run (step settingsOf) {} es) := by
  intro h
  have hlimit := h overlapping ⟨.login, "10.0.0.1:admin"⟩ 0
  revert hlimit
  decide +kernel

end LoginAttempts
end Auth
end MpvmApp
