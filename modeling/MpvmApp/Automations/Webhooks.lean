import MpvmApp.Automations.Scheduler
import MpvmApp.Lib.Runs
import MpvmApp.Lib.Sorted

/-!
# Deliveries of webhooks

A notification is queued for the webhook, and a tick of the scheduler sends the deliveries that are
due one after the other.  A request without success is repeated after a delay, up to four attempts.
Its result is stored after the answer: when the process dies in between, or the database fails, the
loop ends and the next tick sends the request again.  What is queued during a tick waits for the
next one.

Main definitions:

- Definition `webhookTick`: the requests of one tick.
- Definition `Attempts`: what the row of a delivery says about its requests.

Main results:

- Theorem `deliveries_attempted`: in every run, each delivery has at most four attempts, each with
  one stored result, and a repetition waits for its delay.
- Theorem `settled_deliveries_last`: what was delivered or has failed is not sent again.
-/

namespace MpvmApp
namespace Automations
namespace Webhooks

open Runs

/-! ## The deliveries -/

/-- `webhook_deliveries.status`. -/
inductive DeliveryStatus where
  | pending
  | delivered
  | failed
deriving DecidableEq, Repr

/-- A row of `webhook_deliveries`. -/
structure Delivery where
  deliveryId : String
  notificationId : String
  attempt : Nat := 0
  status : DeliveryStatus := .pending
  nextAttemptAt : Option Instant
  responseStatus : Option Nat := none
  error : Option String := none

/-- The answer to a request: a status code, or the text of the exception. -/
inductive Answer where
  | response (statusCode : Nat)
  | exception (text : String)

/-- A request that was sent for a delivery, and whether its result was stored. -/
structure Post where
  deliveryId : String
  attempt : Nat
  sentAt : Instant
  stored : Bool

/-- The stored deliveries and the requests, the last one first. -/
structure System where
  deliveries : Table Delivery Delivery.deliveryId Delivery.deliveryId := .empty
  posts : List Post := []

/-- The seconds to wait after an attempt. -/
def retryDelay (attempt : Nat) : Int :=
  [60, 300, 1800].getD (attempt - 1) 0

/-- What is stored after a request without success. -/
def Delivery.repeatOrFail (now : Instant) (responseStatus : Option Nat) (error : String)
    (d : Delivery) : Delivery :=
  let attempt := d.attempt + 1
  if 4 ≤ attempt then
    { d with attempt, status := .failed, nextAttemptAt := none, responseStatus, error }
  else
    { d with
      attempt, status := .pending, nextAttemptAt := some (now + retryDelay attempt),
      responseStatus, error }

/-- What `finish_webhook_attempt` stores after an answer. -/
def Delivery.finish (now : Instant) (answer : Answer) (d : Delivery) : Delivery :=
  match answer with
  | .response code =>
      if 200 ≤ code ∧ code < 300 then
        { d with
          attempt := d.attempt + 1, status := .delivered, nextAttemptAt := none,
          responseStatus := some code, error := none }
      else
        d.repeatOrFail now (some code) ("HTTP " ++ toString code)
  | .exception text => d.repeatOrFail now none (text.take 1000).toString

@[simp]
theorem Delivery.finish_deliveryId (now : Instant) (answer : Answer) (d : Delivery) :
    (d.finish now answer).deliveryId = d.deliveryId := by
  cases answer <;> simp only [finish, repeatOrFail] <;> split_ifs <;> rfl

@[simp]
theorem Delivery.finish_attempt (now : Instant) (answer : Answer) (d : Delivery) :
    (d.finish now answer).attempt = d.attempt + 1 := by
  cases answer <;> simp only [finish, repeatOrFail] <;> split_ifs <;> rfl

/-- The delivery is pending and its next attempt is not later than now. -/
def Delivery.isDue (now : Instant) (d : Delivery) : Bool :=
  decide (d.status = .pending) && d.nextAttemptAt.any fun t => decide (t ≤ now)

/-- `due_webhooks`. -/
def dueWebhooks (now : Instant) (s : System) : List Delivery :=
  (sortOn (fun d => nullsLast d.nextAttemptAt) (s.deliveries.rows.filter (Delivery.isDue now))).take
    20

/-- `queue_webhook`. -/
def queueWebhook (deliveryId notificationId : String) (now : Instant) (s : System) : System :=
  match s.deliveries.insert? { deliveryId, notificationId, nextAttemptAt := some now } with
  | some deliveries => { s with deliveries }
  | none => s

/-- One request, and its result if it gets stored. -/
def System.send (s : System) (now : Instant) (d : Delivery) (answer : Answer) (stored : Bool) :
    System where
  deliveries := s.deliveries.mapRows
    (fun row => if stored = true ∧ row.deliveryId = d.deliveryId then d.finish now answer else row)
    (fun row => by split_ifs with h <;> simp [h]) (fun row => by split_ifs with h <;> simp [h])
  posts := ⟨d.deliveryId, d.attempt + 1, now, stored⟩ :: s.posts

/-- The loop over the due deliveries.  It ends when a result is not stored. -/
def serve (now : Instant) : List Delivery → List (Answer × Bool) → System → System
  | d :: ds, (answer, stored) :: answers, s =>
      if stored then serve now ds answers (s.send now d answer true)
      else s.send now d answer false
  | _, _, s => s

/-- `webhook_tick`, with the answers to its requests as long as the process runs. -/
def webhookTick (now : Instant) (answers : List (Answer × Bool)) (s : System) : System :=
  serve now (dueWebhooks now s) answers s

/-- A notification is queued, or the scheduler ticks. -/
inductive Event where
  | queue (deliveryId notificationId : String) (now : Instant)
  | tick (now : Instant) (answers : List (Answer × Bool))

/-- One event. -/
def step (s : System) : Event → System
  | .queue deliveryId notificationId now => queueWebhook deliveryId notificationId now s
  | .tick now answers => webhookTick now answers s

/-! ## The attempts of a delivery -/

/-- A later request of a delivery: it repeats a stored attempt after its delay only. -/
def Spaced (later earlier : Post) : Prop :=
  earlier.attempt ≤ later.attempt ∧
    (earlier.stored = true → earlier.attempt < later.attempt ∧
      (later.attempt = earlier.attempt + 1 →
        earlier.sentAt + retryDelay earlier.attempt ≤ later.sentAt))

/-- The row of a delivery agrees with the requests that were sent for it, the last one first. -/
structure Attempts (d : Delivery) (ps : List Post) : Prop where
  counted : (ps.filter Post.stored).length = d.attempt
  limit : d.attempt ≤ 4 ∧ ∀ p ∈ ps, p.attempt ≤ 4
  pending : d.status = .pending → d.attempt ≤ 3
  failed : d.status = .failed → d.attempt = 4
  reached : ∀ p ∈ ps, p.attempt ≤ d.attempt + 1 ∧ (p.stored = true → p.attempt ≤ d.attempt)
  scheduled : d.status = .pending → ∀ p ∈ ps, p.stored = true → p.attempt = d.attempt →
    d.nextAttemptAt = some (p.sentAt + retryDelay p.attempt)
  spaced : ps.Pairwise Spaced

/-- The requests of a delivery. -/
def System.postsOf (s : System) (deliveryId : String) : List Post :=
  s.posts.filter fun p => decide (p.deliveryId = deliveryId)

/-- Every stored delivery agrees with its requests. -/
def Attempted (s : System) : Prop :=
  ∀ d ∈ s.deliveries, Attempts d (s.postsOf d.deliveryId)

theorem isDue_iff {now : Instant} {d : Delivery} :
    d.isDue now = true ↔ d.status = .pending ∧ ∃ t, d.nextAttemptAt = some t ∧ t ≤ now := by
  simp [Delivery.isDue, Option.any_eq_true]

/-- A delivery that is still pending after a result is sent again after the delay. -/
theorem pending_finish {now : Instant} {answer : Answer} {d : Delivery}
    (h : (d.finish now answer).status = .pending) :
    d.attempt + 1 < 4 ∧
      (d.finish now answer).nextAttemptAt = some (now + retryDelay (d.attempt + 1)) := by
  have hrepeat : ∀ code error, (d.repeatOrFail now code error).status = .pending →
      d.attempt + 1 < 4 ∧ (d.repeatOrFail now code error).nextAttemptAt =
        some (now + retryDelay (d.attempt + 1)) := by
    intro code error hpending
    unfold Delivery.repeatOrFail at hpending ⊢
    by_cases hlast : 4 ≤ d.attempt + 1
    · rw [if_pos hlast] at hpending
      cases hpending
    · rw [if_neg hlast]
      exact ⟨Nat.lt_of_not_le hlast, rfl⟩
  cases answer with
  | response code =>
      simp only [Delivery.finish] at h ⊢
      by_cases hsuccess : 200 ≤ code ∧ code < 300
      · rw [if_pos hsuccess] at h
        cases h
      · rw [if_neg hsuccess] at h ⊢
        exact hrepeat _ _ h
  | exception text => exact hrepeat _ _ h

/-- A delivery fails with its fourth attempt at the earliest. -/
theorem failed_finish {now : Instant} {answer : Answer} {d : Delivery}
    (h : (d.finish now answer).status = .failed) : 4 ≤ d.attempt + 1 := by
  by_contra hfew
  cases answer with
  | response code =>
      simp only [Delivery.finish, Delivery.repeatOrFail, if_neg hfew] at h
      split_ifs at h
  | exception text => simp [Delivery.finish, Delivery.repeatOrFail, hfew] at h

/-- A request of a due delivery is spaced from the earlier ones, and within the limit. -/
theorem Attempts.due {d : Delivery} {ps : List Post} (h : Attempts d ps) {now : Instant}
    (hdue : d.isDue now = true) (stored : Bool) :
    d.attempt < 4 ∧ (∀ p ∈ ps, Spaced ⟨d.deliveryId, d.attempt + 1, now, stored⟩ p) ∧
      ∀ p ∈ (⟨d.deliveryId, d.attempt + 1, now, stored⟩ :: ps : List Post), p.attempt ≤ 4 := by
  obtain ⟨hpending, t, hnext, hnow⟩ := isDue_iff.1 hdue
  have hopen := h.pending hpending
  refine ⟨Nat.lt_succ_of_le hopen, fun p hp => ⟨(h.reached p hp).1, fun hstored => ?_⟩, ?_⟩
  · refine ⟨Nat.lt_succ_of_le ((h.reached p hp).2 hstored), fun hlast => ?_⟩
    have hscheduled := h.scheduled hpending p hp hstored (Nat.succ.inj hlast).symm
    rw [hnext] at hscheduled
    cases hscheduled
    exact hnow
  · intro p hp
    rcases List.mem_cons.1 hp with rfl | hp
    · exact Nat.succ_le_succ hopen
    · exact h.limit.2 p hp

/-- A request of a due delivery agrees with the row, whether its result is stored or not. -/
theorem Attempts.sent {d : Delivery} {ps : List Post} (h : Attempts d ps) {now : Instant}
    (hdue : d.isDue now = true) (answer : Answer) (stored : Bool) :
    Attempts (if stored then d.finish now answer else d)
      (⟨d.deliveryId, d.attempt + 1, now, stored⟩ :: ps) := by
  obtain ⟨hopen, hlater, hlimit⟩ := h.due hdue stored
  have hspaced := List.pairwise_cons.2 ⟨hlater, h.spaced⟩
  cases stored with
  | false =>
      refine ⟨by simpa using h.counted, ⟨h.limit.1, hlimit⟩, h.pending, h.failed, ?_, ?_, hspaced⟩
      · intro p hp
        rcases List.mem_cons.1 hp with rfl | hp
        · exact ⟨Nat.le_refl _, nofun⟩
        · exact h.reached p hp
      · intro hpending p hp hstored
        rcases List.mem_cons.1 hp with rfl | hp
        · cases hstored
        · exact h.scheduled hpending p hp hstored
  | true =>
      rw [if_pos rfl]
      refine ⟨?_, ⟨?_, hlimit⟩, fun hpending => ?_, fun hfailed => ?_, ?_, ?_, hspaced⟩
      · simp [← h.counted]
      · rw [Delivery.finish_attempt]
        exact hopen
      · rw [Delivery.finish_attempt]
        exact Nat.le_of_lt_succ (pending_finish hpending).1
      · rw [Delivery.finish_attempt]
        exact Nat.le_antisymm hopen (failed_finish hfailed)
      · intro p hp
        rw [Delivery.finish_attempt]
        rcases List.mem_cons.1 hp with rfl | hp
        · exact ⟨Nat.le_succ _, fun _ => Nat.le_refl _⟩
        · exact ⟨Nat.le_succ_of_le (h.reached p hp).1,
            fun hstored => Nat.le_succ_of_le ((h.reached p hp).2 hstored)⟩
      · intro hpending p hp hstored hlast
        rcases List.mem_cons.1 hp with rfl | hp
        · exact (pending_finish hpending).2
        · rw [Delivery.finish_attempt] at hlast
          have hearlier := (h.reached p hp).2 hstored
          omega

/-! ## Runs -/

theorem mem_send_iff {s : System} {now : Instant} {d row : Delivery} {answer : Answer}
    {stored : Bool} :
    row ∈ (s.send now d answer stored).deliveries ↔
      ∃ old ∈ s.deliveries,
        (if stored = true ∧ old.deliveryId = d.deliveryId then d.finish now answer else old) =
          row := by
  simp only [System.send, Table.mem_mapRows]

theorem mem_send {s : System} {now : Instant} {d row : Delivery} {answer : Answer} {stored : Bool}
    (h : row ∈ s.deliveries) (hne : row.deliveryId ≠ d.deliveryId) :
    row ∈ (s.send now d answer stored).deliveries :=
  mem_send_iff.2 ⟨row, h, if_neg fun hsame => hne hsame.2⟩

theorem postsOf_send (s : System) (now : Instant) (d : Delivery) (answer : Answer)
    (stored : Bool) (deliveryId : String) :
    (s.send now d answer stored).postsOf deliveryId =
      if d.deliveryId = deliveryId then
        ⟨d.deliveryId, d.attempt + 1, now, stored⟩ :: s.postsOf deliveryId
      else s.postsOf deliveryId := by
  simp only [System.postsOf, System.send, List.filter_cons, decide_eq_true_eq]

/-- What every request of a due delivery keeps, a tick keeps. -/
theorem webhookTick_rule {P : System → Prop} {now : Instant}
    (hsend : ∀ s, P s → ∀ d ∈ s.deliveries, d.isDue now = true → ∀ answer stored,
      P (s.send now d answer stored))
    (answers : List (Answer × Bool)) {s : System} (hs : P s) :
    P (webhookTick now answers s) := by
  have hserve : ∀ ds : List Delivery, (ds.map Delivery.deliveryId).Nodup → ∀ answers s, P s →
      (∀ d ∈ ds, d ∈ s.deliveries ∧ d.isDue now = true) → P (serve now ds answers s) := by
    intro ds
    induction ds with
    | nil => exact fun _ answers s hs _ => by simpa only [serve] using hs
    | cons d ds ih =>
        intro hnodup answers s hs hds
        obtain ⟨hd, hdue⟩ := hds d List.mem_cons_self
        obtain ⟨hnew, hrest⟩ := List.nodup_cons.1 hnodup
        cases answers with
        | nil => simpa only [serve] using hs
        | cons head answers =>
            obtain ⟨answer, stored⟩ := head
            cases stored with
            | false => simpa [serve] using hsend s hs d hd hdue answer false
            | true =>
                have hafter := ih hrest answers _ (hsend s hs d hd hdue answer true) ?_
                · simpa [serve] using hafter
                · intro d' hd'
                  obtain ⟨hstored, hdue'⟩ := hds d' (List.mem_cons_of_mem d hd')
                  refine ⟨mem_send hstored fun hsame => hnew ?_, hdue'⟩
                  exact hsame ▸ List.mem_map_of_mem hd'
  have hmem : ∀ d ∈ dueWebhooks now s, d ∈ s.deliveries ∧ d.isDue now = true := by
    intro d hd
    exact List.mem_filter.1 (mem_sortOn.1 (List.mem_of_mem_take hd))
  refine hserve _ ?_ answers s hs hmem
  refine List.Nodup.sublist ((List.take_sublist _ _).map _) ?_
  refine ((perm_sortOn _ _).map _).nodup_iff.2 ?_
  exact s.deliveries.pkNodup.sublist (List.filter_sublist.map _)

/-- Every stored delivery agrees with its requests, and every request is of a stored delivery. -/
structure Inv (s : System) : Prop where
  attempted : Attempted s
  known : ∀ p ∈ s.posts, ∃ d ∈ s.deliveries, d.deliveryId = p.deliveryId

theorem Inv.send {s : System} (h : Inv s) {now : Instant} {d : Delivery} (hd : d ∈ s.deliveries)
    (hdue : d.isDue now = true) (answer : Answer) (stored : Bool) :
    Inv (s.send now d answer stored) := by
  constructor
  · intro row hrow
    obtain ⟨old, hold, rfl⟩ := mem_send_iff.1 hrow
    rw [postsOf_send]
    by_cases hsame : old.deliveryId = d.deliveryId
    · obtain rfl := Table.eq_of_pk_eq hold hd hsame
      have hsent := (h.attempted old hold).sent hdue answer stored
      cases stored <;> simpa using hsent
    · rw [if_neg fun hboth => hsame hboth.2, if_neg (Ne.symm hsame)]
      exact h.attempted old hold
  · intro p hp
    have hkept : ∀ row ∈ s.deliveries, ∃ row' ∈ (s.send now d answer stored).deliveries,
        row'.deliveryId = row.deliveryId := by
      intro row hrow
      refine ⟨_, mem_send_iff.2 ⟨row, hrow, rfl⟩, ?_⟩
      split_ifs with hboth
      · rw [Delivery.finish_deliveryId, hboth.2]
      · rfl
    rcases List.mem_cons.1 hp with rfl | hp
    · exact hkept d hd
    · obtain ⟨row, hrow, hid⟩ := h.known p hp
      obtain ⟨row', hrow', hid'⟩ := hkept row hrow
      exact ⟨row', hrow', hid'.trans hid⟩

theorem Inv.step {s : System} (h : Inv s) (e : Event) :
    Inv (step s e) := by
  cases e with
  | queue deliveryId notificationId now =>
      simp only [Webhooks.step, queueWebhook]
      split
      · rename_i deliveries hinsert
        have hfree := Table.find?_eq_none_iff.1 (Table.find?_eq_none_of_insert? hinsert)
        constructor
        · intro row hrow
          rcases (Table.mem_insert? hinsert).1 hrow with hold | rfl
          · exact h.attempted row hold
          · have hnone : s.postsOf deliveryId = [] := by
              refine List.filter_eq_nil_iff.2 fun p hp hid => ?_
              obtain ⟨old, hold, hsame⟩ := h.known p hp
              exact hfree old hold (hsame.trans (of_decide_eq_true hid))
            change Attempts _ (s.postsOf deliveryId)
            rw [hnone]
            constructor <;> simp
        · intro p hp
          obtain ⟨row, hrow, hid⟩ := h.known p hp
          exact ⟨row, (Table.mem_insert? hinsert).2 (.inl hrow), hid⟩
      · exact h
  | tick now answers =>
      exact webhookTick_rule (fun s hs d hd hdue answer stored => hs.send hd hdue answer stored)
        answers h

/--
In every run each stored delivery agrees with its requests: as many results are stored as it has
attempts, these are at most four, and an attempt follows the one before it after its delay.
-/
theorem deliveries_attempted (es : List Event) :
    Attempted (run step {} es) := by
  have hall : Along step (fun _ _ => True) {} es := along_of_forall (fun _ _ => trivial) _ es
  have hinitial : Inv {} := ⟨fun d hd => (by cases hd), fun p hp => (by cases hp)⟩
  exact (hall.invariant (fun (s : System) (e : Event) (h : Inv s) _ => h.step e) hinitial).attempted

/-- A delivery with an outcome is stored as before, and no request was sent for it. -/
def SettledLast (s s' : System) : Prop :=
  ∀ d ∈ s.deliveries, d.status ≠ .pending →
    d ∈ s'.deliveries ∧ s'.postsOf d.deliveryId = s.postsOf d.deliveryId

theorem SettledLast.step {s s' : System} (h : SettledLast s s') (e : Event) :
    SettledLast s (step s' e) := by
  cases e with
  | queue deliveryId notificationId now =>
      simp only [Webhooks.step, queueWebhook]
      split
      · rename_i deliveries hinsert
        exact fun d hd hsettled =>
          ⟨(Table.mem_insert? hinsert).2 (.inl (h d hd hsettled).1), (h d hd hsettled).2⟩
      · exact h
  | tick now answers =>
      refine webhookTick_rule (P := SettledLast s) ?_ answers h
      intro t ht sent hsent hdue answer stored d hd hsettled
      obtain ⟨hmem, hposts⟩ := ht d hd hsettled
      have hne : d.deliveryId ≠ sent.deliveryId := by
        intro hsame
        obtain rfl := Table.eq_of_pk_eq hmem hsent hsame
        exact hsettled (isDue_iff.1 hdue).1
      refine ⟨mem_send hmem hne, ?_⟩
      rw [postsOf_send, if_neg (Ne.symm hne)]
      exact hposts

/-- In every run a delivery that was delivered or has failed is never sent or changed again. -/
theorem settled_deliveries_last (es fs : List Event) :
    SettledLast (run step {} es) (run step {} (es ++ fs)) := by
  rw [run_append]
  have hall : Along step (fun _ _ => True) (run step {} es) fs :=
    along_of_forall (fun _ _ => trivial) _ fs
  refine hall.invariant (fun (s : System) (e : Event)
    (h : SettledLast (run step {} es) s) _ => h.step e) ?_
  exact fun d hd _ => ⟨hd, rfl⟩

end Webhooks
end Automations
end MpvmApp
