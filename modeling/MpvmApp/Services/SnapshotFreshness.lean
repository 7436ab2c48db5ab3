import MpvmApp.Services.SnapshotCache

/-!
# What a snapshot cache may serve

A loader that has started before an invalidation may store its result after it, and
hand it to the callers that have joined its flight since.  A refresh may go on after its
entry has been removed or has grown too old, and the next caller then starts a second
loader.  Where neither happens the cache keeps what its callers rely on.

Main results:

- Theorem `step_inv`: every undisturbed step keeps the invariant of the cache.
- Theorem `undisturbed_sound`: an undisturbed run serves no value from before an
  invalidation and runs one loader for a key at a time.
-/

namespace MpvmApp
namespace SnapshotCache

variable {K V : Type*} [DecidableEq K]

/-! ## Undisturbed steps -/

/-- The key is invalidated with the target: one key, or all. -/
def Affects (target : Option K) (key : K) : Prop :=
  target = none ∨ target = some key

instance (target : Option K) (key : K) : Decidable (Affects target key) :=
  inferInstanceAs (Decidable (target = none ∨ target = some key))

namespace Task

/-- The task holds a result for an affected key, or its loader is about to give one. -/
def carries (target : Option K) (task : Task K V) : Bool :=
  match task.loader? with
  | some (key, stage) => Affects target key ∧ stage.epoch?.isSome
  | none => false

end Task

namespace State

/-- A flight for an affected key is registered with its result. -/
def offers (s : State K V) (target : Option K) : Bool :=
  s.flights.items.any fun item =>
    Affects target item.1 ∧ ((s.flightObjects item.2).bind Flight.value).isSome

/-- A call of `get` becomes the leader of a new flight. -/
def leads (s : State K V) (key : K) : Bool :=
  (match s.entries.get? key with
    | none => true
    | some entry => decide (s.settings.staleLimit ≤ s.clock - entry.computedAt)) &&
  (s.flights.get? key).isNone

end State

/--
An invalidation does not meet a result that is on its way into the cache, and no call
becomes a leader while its key is refreshed in the background.
-/
def Undisturbed (s : State K V) : Event K V → Prop
  | .invalidate target =>
      (∀ task ∈ s.tasks, task.carries target = false) ∧ s.offers target = false
  | .get key => s.leads key = true → ∀ task ∈ s.tasks, task.isRefresher key = false
  | _ => True

instance (s : State K V) (e : Event K V) : Decidable (Undisturbed s e) := by
  cases e <;> unfold Undisturbed <;> infer_instance

/-! ## The invariant -/

/-- A flight of the key whose value, if it has one, is from the epoch `n` or a later one. -/
def FlightOk (s : State K V) (key : K) (n flight : Nat) : Prop :=
  ∃ f, s.flightObjects flight = some f ∧ f.key = key ∧ ∀ e, f.value = some e → n ≤ e.epoch

/-- The key has no entry that a call may still be given. -/
def Expired (s : State K V) (key : K) : Prop :=
  ∀ e, s.entries.get? key = some e → s.settings.staleLimit ≤ s.clock - e.computedAt

/-- The entry of the key, if there is one, is marked. -/
def Marked (s : State K V) (key : K) : Prop :=
  ∀ e, s.entries.get? key = some e → e.refreshing = true

/-- The loader of the stage, if it has started, has seen the epoch `n`. -/
def Stage.FreshFor (n : Nat) (stage : Stage V) : Prop :=
  ∀ epoch, stage.epoch? = some epoch → n ≤ epoch

/-- What ties a thread to the dictionaries of the cache. -/
def Ok (s : State K V) : Task K V → Prop
  | .leader key asked flight stage =>
      asked ≤ s.epochs key ∧ FlightOk s key asked flight ∧
        s.flights.get? key = some flight ∧ Expired s key ∧ stage.FreshFor (s.epochs key)
  | .leaving key asked flight =>
      asked ≤ s.epochs key ∧ FlightOk s key asked flight ∧ s.flights.get? key = some flight
  | .released key asked flight => asked ≤ s.epochs key ∧ FlightOk s key asked flight
  | .waiting key asked flight => asked ≤ s.epochs key ∧ FlightOk s key asked flight
  | .refresher key stage => Marked s key ∧ stage.FreshFor (s.epochs key)
  | .returned _ asked epoch _ => asked ≤ epoch
  | .raised _ _ | .ended => True

/-- The invariant of a cache with its threads. -/
structure Inv (s : State K V) : Prop where
  tasks : ∀ task ∈ s.tasks, Ok s task
  underWay : ∀ key, s.tasks.countP (Task.isUnderWay key) ≤ 1
  registered : ∀ key, s.tasks.countP (Task.isRegistered key) ≤ 1
  entries : ∀ key e, s.entries.get? key = some e → s.epochs key ≤ e.epoch
  flights : ∀ key flight, s.flights.get? key = some flight → FlightOk s key (s.epochs key) flight
  objects : ∀ n f, s.flightObjects n = some f → n < s.nextFlight

theorem inv_initial (settings : Settings) :
    Inv (initial settings : State K V) where
  tasks := by simp [initial]
  underWay := by simp [initial]
  registered := by simp [initial]
  entries := by simp [initial]
  flights := by simp [initial]
  objects := by simp [initial]

/-! ## Threads that move on -/

omit [DecidableEq K] in
theorem countP_set_add {tasks : List (Task K V)} {i : Nat} {task : Task K V}
    (hi : tasks[i]? = some task) (p : Task K V → Bool) (task' : Task K V) :
    (tasks.set i task').countP p + (if p task then 1 else 0) =
      tasks.countP p + if p task' then 1 else 0 := by
  obtain ⟨hlt, heq⟩ := List.getElem?_eq_some_iff.1 hi
  rw [List.countP_set hlt, heq]
  have hpos : p task = true → 0 < tasks.countP p := fun hp =>
    List.countP_pos_iff.2 ⟨task, List.mem_of_getElem? hi, hp⟩
  split <;> rename_i hp
  · have hcount := hpos hp
    omega
  · omega

/-- What a thread in flight may rely on after the cache has changed. -/
theorem Ok.mono {s s' : State K V} {task : Task K V} (h : Ok s task)
    (hepochs : s'.epochs = s.epochs) (hsettings : s'.settings = s.settings)
    (hclock : s.clock ≤ s'.clock)
    (hobjects : ∀ key n flight, n ≤ s.epochs key → FlightOk s key n flight →
      FlightOk s' key n flight)
    (hflights : ∀ key, task.isRegistered key = true →
      s'.flights.get? key = s.flights.get? key)
    (hentries : ∀ key, task.isUnderWay key = true → ∀ e', s'.entries.get? key = some e' →
      ∃ e, s.entries.get? key = some e ∧ e'.computedAt = e.computedAt ∧
        (e.refreshing = true → e'.refreshing = true)) :
    Ok s' task := by
  cases task with
  | leader key asked flight stage =>
      obtain ⟨hasked, hflight, hregistered, hexpired, hfresh⟩ := h
      refine ⟨by rwa [hepochs], hobjects _ _ _ hasked hflight, ?_, ?_, by rwa [hepochs]⟩
      · rw [hflights key (by simp [Task.isRegistered]), hregistered]
      · intro e' he'
        obtain ⟨e, he, hcomputed, -⟩ :=
          hentries key (by simp [Task.isUnderWay, Task.loader?]) e' he'
        have hage := hexpired e he
        rw [hsettings, hcomputed]
        exact le_trans hage (by linarith)
  | leaving key asked flight =>
      obtain ⟨hasked, hflight, hregistered⟩ := h
      refine ⟨by rwa [hepochs], hobjects _ _ _ hasked hflight, ?_⟩
      rw [hflights key (by simp [Task.isRegistered]), hregistered]
  | released key asked flight =>
      exact ⟨by rw [hepochs]; exact h.1, hobjects _ _ _ h.1 h.2⟩
  | waiting key asked flight =>
      exact ⟨by rw [hepochs]; exact h.1, hobjects _ _ _ h.1 h.2⟩
  | refresher key stage =>
      refine ⟨?_, by rw [hepochs]; exact h.2⟩
      intro e' he'
      obtain ⟨e, he, -, hmarked⟩ :=
        hentries key (by simp [Task.isUnderWay, Task.loader?]) e' he'
      exact hmarked (h.1 e he)
  | returned key asked epoch result => exact h
  | raised key error => trivial
  | ended => trivial

/-- A thread moves on, with what it changes in the cache. -/
theorem Inv.of_move {s s' : State K V} {i : Nat} {task u : Task K V} (h : Inv s)
    (hi : s.tasks[i]? = some task) (htasks : s'.tasks = s.tasks.set i u)
    (hok : Ok s' u)
    (hunderWay : ∀ key, u.isUnderWay key = true → task.isUnderWay key = true)
    (hregistered : ∀ key, u.isRegistered key = true → task.isRegistered key = true)
    (hframe : ∀ other ∈ s.tasks.set i u, Ok s other → Ok s' other)
    (hentries : ∀ key e, s'.entries.get? key = some e → s'.epochs key ≤ e.epoch)
    (hflights : ∀ key flight, s'.flights.get? key = some flight →
      FlightOk s' key (s'.epochs key) flight)
    (hobjects : ∀ n f, s'.flightObjects n = some f → n < s'.nextFlight) :
    Inv s' where
  tasks := by
    intro other hother
    rw [htasks] at hother
    rcases List.mem_or_eq_of_mem_set hother with hold | rfl
    · exact hframe other hother (h.tasks other hold)
    · exact hok
  underWay := by
    intro key
    have hcount := countP_set_add hi (Task.isUnderWay key) u
    have hle := h.underWay key
    have himp := hunderWay key
    rw [htasks]
    split at hcount <;> split at hcount <;> first | omega | simp_all
  registered := by
    intro key
    have hcount := countP_set_add hi (Task.isRegistered key) u
    have hle := h.registered key
    have himp := hregistered key
    rw [htasks]
    split at hcount <;> split at hcount <;> first | omega | simp_all
  entries := hentries
  flights := hflights
  objects := hobjects

theorem Inv.put {s : State K V} {i : Nat} {task u : Task K V} (h : Inv s)
    (hi : s.tasks[i]? = some task) (hok : Ok s u)
    (hunderWay : ∀ key, u.isUnderWay key = true → task.isUnderWay key = true)
    (hregistered : ∀ key, u.isRegistered key = true → task.isRegistered key = true) :
    Inv (s.put i u) :=
  h.of_move hi rfl hok hunderWay hregistered (fun _ _ hother => hother) h.entries h.flights
    h.objects

/-- A new thread, with what its start changes in the cache. -/
theorem Inv.of_spawn {s s' : State K V} {task : Task K V} (h : Inv s)
    (htasks : s'.tasks = s.tasks ++ [task]) (hok : Ok s' task)
    (hunderWay : ∀ key, task.isUnderWay key = true →
      s.tasks.countP (Task.isUnderWay key) = 0)
    (hregistered : ∀ key, task.isRegistered key = true →
      s.tasks.countP (Task.isRegistered key) = 0)
    (hframe : ∀ other ∈ s.tasks, Ok s other → Ok s' other)
    (hentries : ∀ key e, s'.entries.get? key = some e → s'.epochs key ≤ e.epoch)
    (hflights : ∀ key flight, s'.flights.get? key = some flight →
      FlightOk s' key (s'.epochs key) flight)
    (hobjects : ∀ n f, s'.flightObjects n = some f → n < s'.nextFlight) :
    Inv s' where
  tasks := by
    intro other hother
    rw [htasks, List.mem_append, List.mem_singleton] at hother
    rcases hother with hold | rfl
    · exact hframe other hold (h.tasks other hold)
    · exact hok
  underWay := by
    intro key
    have hle := h.underWay key
    rw [htasks, List.countP_append, List.countP_singleton]
    split
    · rw [hunderWay key ‹_›]
    · exact hle
  registered := by
    intro key
    have hle := h.registered key
    rw [htasks, List.countP_append, List.countP_singleton]
    split
    · rw [hregistered key ‹_›]
    · exact hle
  entries := hentries
  flights := hflights
  objects := hobjects

theorem Inv.spawn_returned {s : State K V} (h : Inv s) (key : K) (asked epoch : Nat)
    (result : Rendered V) (hfresh : asked ≤ epoch) :
    Inv (s.spawn (.returned key asked epoch result)) :=
  h.of_spawn rfl hfresh (by simp [Task.isUnderWay, Task.loader?]) (by simp [Task.isRegistered])
    (fun _ _ hother => hother) h.entries h.flights h.objects

/-! ## Calls -/

theorem Inv.countP_eq_zero {s : State K V} (h : Inv s) {p : Task K V → Bool}
    (hp : ∀ task ∈ s.tasks, Ok s task → p task = false) :
    s.tasks.countP p = 0 := by
  rw [List.countP_eq_zero]
  intro task htask
  simp [hp task htask (h.tasks task htask)]

omit [DecidableEq K] in
theorem FlightOk.congr {s s' : State K V} {key : K} {n flight : Nat} (h : FlightOk s key n flight)
    (hobject : s'.flightObjects flight = s.flightObjects flight) :
    FlightOk s' key n flight := by
  obtain ⟨f, hf, hkey, hvalue⟩ := h
  exact ⟨f, by rw [hobject, hf], hkey, hvalue⟩

theorem join_inv {s : State K V} (h : Inv s) {key : K} (hexpired : Expired s key)
    (hrefresh : s.flights.get? key = none → ∀ task ∈ s.tasks, task.isRefresher key = false) :
    Inv (s.join key) := by
  unfold State.join
  split
  · rename_i flight hflight
    exact h.of_spawn rfl ⟨le_refl _, h.flights key flight hflight⟩
      (by simp [Task.isUnderWay, Task.loader?]) (by simp [Task.isRegistered])
      (fun _ _ hother => hother) h.entries h.flights h.objects
  · rename_i hnone
    have hold : ∀ k n flight, FlightOk s k n flight → flight ≠ s.nextFlight := by
      rintro k n flight ⟨f, hf, -⟩ rfl
      exact lt_irrefl _ (h.objects _ _ hf)
    have hunregistered : ∀ task ∈ s.tasks, Ok s task → task.isRegistered key = false := by
      intro task _ hok
      cases task with
      | leader k asked flight stage =>
          have hflight := hok.2.2.1
          have hne : k ≠ key := by
            rintro rfl
            simp [hnone] at hflight
          simp [Task.isRegistered, hne]
      | leaving k asked flight =>
          have hflight := hok.2.2
          have hne : k ≠ key := by
            rintro rfl
            simp [hnone] at hflight
          simp [Task.isRegistered, hne]
      | _ => rfl
    refine h.of_spawn rfl ?_ ?_ ?_ ?_ h.entries ?_ ?_
    · exact ⟨le_refl _, ⟨{ key := key }, by simp [State.spawn], rfl, by simp⟩,
        by simp [State.spawn, Dict.get?_set], hexpired, by simp [Stage.FreshFor, Stage.epoch?]⟩
    · intro k hk
      obtain rfl : key = k := by simpa [Task.isUnderWay, Task.loader?] using hk
      refine h.countP_eq_zero fun task htask hok => ?_
      have hidle := hunregistered task htask hok
      have hquiet := hrefresh hnone task htask
      cases task <;> simp_all [Task.isUnderWay, Task.loader?, Task.isRegistered, Task.isRefresher]
    · intro k hk
      obtain rfl : key = k := by simpa [Task.isRegistered] using hk
      exact h.countP_eq_zero hunregistered
    · intro other hother hok
      refine hok.mono rfl rfl le_rfl ?_ ?_ fun _ _ e' he' => ⟨e', he', rfl, id⟩
      · intro k n flight _ hflight
        exact hflight.congr (by simp [State.spawn, hold k n flight hflight])
      · intro k hk
        have hne : k ≠ key := by
          rintro rfl
          rw [hunregistered other hother hok] at hk
          cases hk
        simp [State.spawn, Dict.get?_set, hne]
    · intro k flight hflight
      simp only [State.spawn, Dict.get?_set] at hflight
      split at hflight
      · cases hflight
        exact ⟨{ key := key }, by simp [State.spawn], Eq.symm ‹_›, by simp⟩
      · have hflightOk := h.flights k flight hflight
        exact hflightOk.congr (by simp [State.spawn, hold _ _ _ hflightOk])
    · intro n f hf
      simp only [State.spawn] at hf ⊢
      split at hf
      · omega
      · have hlt := h.objects n f hf
        omega

theorem refreshInBackground_inv {s : State K V} (h : Inv s) {key : K} {entry : Entry V}
    (hentry : s.entries.get? key = some entry)
    (hage : s.clock - entry.computedAt < s.settings.staleLimit)
    (hmark : entry.refreshing = false) :
    Inv (s.refreshInBackground key entry) := by
  unfold State.refreshInBackground
  refine h.of_spawn rfl ?_ ?_ (by simp [Task.isRegistered]) ?_ ?_ h.flights h.objects
  · refine ⟨?_, by simp [Stage.FreshFor, Stage.epoch?]⟩
    intro e he
    simp only [State.spawn, Dict.get?_set, if_pos, Option.some.injEq] at he
    rw [← he]
  · intro k hk
    obtain rfl : key = k := by simpa [Task.isUnderWay, Task.loader?] using hk
    refine h.countP_eq_zero fun task _ hok => ?_
    cases task with
    | leader k asked flight stage =>
        have hne : k ≠ key := by
          rintro rfl
          exact absurd (hok.2.2.2.1 entry hentry) (not_le.2 hage)
        simp [Task.isUnderWay, Task.loader?, hne]
    | refresher k stage =>
        have hne : k ≠ key := by
          rintro rfl
          have hmarked := hok.1 entry hentry
          rw [hmark] at hmarked
          cases hmarked
        simp [Task.isUnderWay, Task.loader?, hne]
    | _ => rfl
  · intro other _ hok
    refine hok.mono rfl rfl le_rfl (fun _ _ _ _ hflight => hflight) (fun _ _ => rfl) ?_
    intro k _ e' he'
    simp only [State.spawn, Dict.get?_set] at he'
    split at he'
    · rename_i hk
      subst hk
      cases he'
      exact ⟨entry, hentry, rfl, fun _ => rfl⟩
    · exact ⟨e', he', rfl, id⟩
  · intro k e he
    simp only [State.spawn, Dict.get?_set] at he
    split at he
    · rename_i hk
      subst hk
      cases he
      exact h.entries _ entry hentry
    · exact h.entries k e he

theorem get_inv {s : State K V} (h : Inv s) {key : K} (hok : Undisturbed s (.get key)) :
    Inv (s.get key) := by
  unfold State.get
  split
  · rename_i hnone
    refine join_inv h (fun e he => ?_) fun hflight => hok ?_
    · rw [hnone] at he
      cases he
    · simp [State.leads, hnone, hflight]
  · rename_i entry hentry
    dsimp only
    split
    · exact h.spawn_returned key _ _ _ (h.entries key entry hentry)
    · split
      · rename_i hage
        split
        · exact h.spawn_returned key _ _ _ (h.entries key entry hentry)
        · rename_i hmark
          have hrefresh := refreshInBackground_inv h hentry hage (by simpa using hmark)
          exact hrefresh.spawn_returned key _ _ _ (h.entries key entry hentry)
      · rename_i hage
        rw [not_lt] at hage
        refine join_inv h (fun e he => ?_) fun hflight => hok ?_
        · rw [hentry] at he
          cases he
          exact hage
        · simp [State.leads, hentry, hflight, hage]

/-! ## Loaders -/

@[simp]
theorem isUnderWay_atStage (key : K) (stage : Stage V) (task : Task K V) :
    (task.atStage stage).isUnderWay key = task.isUnderWay key := by
  cases task <;> rfl

@[simp]
theorem isRegistered_atStage (key : K) (stage : Stage V) (task : Task K V) :
    (task.atStage stage).isRegistered key = task.isRegistered key := by
  cases task <;> rfl

theorem Inv.atStage {s : State K V} (h : Inv s) {i : Nat} {task : Task K V}
    (hi : s.tasks[i]? = some task) {key : K} {stage : Stage V}
    (hloader : task.loader? = some (key, stage)) {stage' : Stage V}
    (hfresh : stage'.FreshFor (s.epochs key)) :
    Inv (s.put i (task.atStage stage')) := by
  have hok := h.tasks task (List.mem_of_getElem? hi)
  refine h.put hi ?_ (by simp) (by simp)
  cases task with
  | leader k asked flight old =>
      obtain ⟨rfl, rfl⟩ : k = key ∧ old = stage := by simpa [Task.loader?] using hloader
      exact ⟨hok.1, hok.2.1, hok.2.2.1, hok.2.2.2.1, hfresh⟩
  | refresher k old =>
      obtain ⟨rfl, rfl⟩ : k = key ∧ old = stage := by simpa [Task.loader?] using hloader
      exact ⟨hok.1, hfresh⟩
  | _ => simp [Task.loader?] at hloader

theorem Inv.loader_fresh {s : State K V} (h : Inv s) {i : Nat} {task : Task K V}
    (hi : s.tasks[i]? = some task) {key : K} {stage : Stage V}
    (hloader : task.loader? = some (key, stage)) :
    stage.FreshFor (s.epochs key) := by
  have hok := h.tasks task (List.mem_of_getElem? hi)
  cases task with
  | leader k asked flight old =>
      obtain ⟨rfl, rfl⟩ : k = key ∧ old = stage := by simpa [Task.loader?] using hloader
      exact hok.2.2.2.2
  | refresher k old =>
      obtain ⟨rfl, rfl⟩ : k = key ∧ old = stage := by simpa [Task.loader?] using hloader
      exact hok.2
  | _ => simp [Task.loader?] at hloader

theorem startLoader_inv {s : State K V} (h : Inv s) {i : Nat} {task : Task K V}
    (hi : s.tasks[i]? = some task) :
    Inv (s.startLoader i task) := by
  unfold State.startLoader
  split
  · rename_i key hloader
    exact h.atStage hi hloader (by simp [Stage.FreshFor, Stage.epoch?])
  · exact h

theorem loaderReturned_inv {s : State K V} (h : Inv s) {i : Nat} {task : Task K V}
    (hi : s.tasks[i]? = some task) (value : V) :
    Inv (s.loaderReturned i task value) := by
  unfold State.loaderReturned
  split
  · rename_i key epoch hloader
    exact h.atStage hi hloader
      (by simpa [Stage.FreshFor, Stage.epoch?] using h.loader_fresh hi hloader)
  · exact h

theorem stamp_inv {s : State K V} (h : Inv s) {i : Nat} {task : Task K V}
    (hi : s.tasks[i]? = some task) (generatedAt : String) :
    Inv (s.stamp i task generatedAt) := by
  unfold State.stamp
  split
  · rename_i key value epoch hloader
    exact h.atStage hi hloader
      (by simpa [Stage.FreshFor, Stage.epoch?] using h.loader_fresh hi hloader)
  · exact h

/-! ## Outcomes of a flight -/

omit [DecidableEq K] in
theorem FlightOk.updateFlight {s : State K V} {key : K} {n flight : Nat}
    (h : FlightOk s key n flight) (target : Nat) (g : Flight K V → Flight K V)
    (hkey : ∀ f, (g f).key = f.key)
    (hvalue : ∀ f, s.flightObjects target = some f → f.key = key → target = flight →
      ∀ e, (g f).value = some e → f.value = some e ∨ n ≤ e.epoch) :
    FlightOk (s.updateFlight target g) key n flight := by
  obtain ⟨f, hf, hfkey, hfvalue⟩ := h
  by_cases heq : flight = target
  · subst heq
    refine ⟨g f, by simp [State.updateFlight, hf], by rw [hkey, hfkey], fun e he => ?_⟩
    rcases hvalue f hf hfkey rfl e he with hold | hnew
    · exact hfvalue e hold
    · exact hnew
  · exact ⟨f, by simp [State.updateFlight, heq, hf], hfkey, hfvalue⟩

omit [DecidableEq K] in
theorem objects_updateFlight {s : State K V}
    (h : ∀ n f, s.flightObjects n = some f → n < s.nextFlight) (target : Nat)
    (g : Flight K V → Flight K V) :
    ∀ n f, (s.updateFlight target g).flightObjects n = some f → n < s.nextFlight := by
  intro n f hf
  simp only [State.updateFlight] at hf
  split at hf
  · obtain ⟨f', hf', -⟩ := Option.map_eq_some_iff.1 hf
    exact h n f' hf'
  · exact h n f hf

/-- A flight may get a result that is fresh for its key. -/
theorem Inv.updateFlight {s : State K V} (h : Inv s) (flight : Nat) (g : Flight K V → Flight K V)
    (hkey : ∀ f, (g f).key = f.key)
    (hvalue : ∀ f, s.flightObjects flight = some f → ∀ e, (g f).value = some e →
      f.value = some e ∨ s.epochs f.key ≤ e.epoch) :
    Inv (s.updateFlight flight g) := by
  have hflight : ∀ key n fl, n ≤ s.epochs key → FlightOk s key n fl →
      FlightOk (s.updateFlight flight g) key n fl := by
    intro key n fl hn hfl
    refine hfl.updateFlight flight g hkey fun f hf hfkey _ e he => ?_
    rcases hvalue f hf e he with hold | hnew
    · exact Or.inl hold
    · rw [hfkey] at hnew
      exact Or.inr (hn.trans hnew)
  exact {
    tasks := fun other hother => (h.tasks other hother).mono rfl rfl le_rfl hflight
      (fun _ _ => rfl) fun _ _ e' he' => ⟨e', he', rfl, id⟩
    underWay := h.underWay
    registered := h.registered
    entries := h.entries
    flights := fun key fl hfl => hflight key _ fl le_rfl (h.flights key fl hfl)
    objects := objects_updateFlight h.objects flight g }

theorem loaderRaised_inv {s : State K V} (h : Inv s) {i : Nat} {task : Task K V}
    (hi : s.tasks[i]? = some task) (error : LoadError) :
    Inv (s.loaderRaised i task error) := by
  have hok := h.tasks task (List.mem_of_getElem? hi)
  unfold State.loaderRaised
  split
  · rename_i key asked flight epoch
    have hrecorded := h.updateFlight flight (fun f => { f with error := some error })
      (fun _ => rfl) fun _ _ _ he => Or.inl he
    obtain ⟨hasked, hflight, hregistered, -⟩ := hrecorded.tasks _ (List.mem_of_getElem? hi)
    exact hrecorded.put (u := .leaving key asked flight) hi ⟨hasked, hflight, hregistered⟩
      (by simp [Task.isUnderWay, Task.loader?]) (by simp [Task.isRegistered])
  · split
    · exact h.put hi ⟨hok.1, by simp [Stage.FreshFor, Stage.epoch?]⟩
        (by simp [Task.isUnderWay, Task.loader?]) (by simp [Task.isRegistered])
    · exact h.put hi trivial (by simp [Task.isUnderWay, Task.loader?]) (by simp [Task.isRegistered])
  · exact h

theorem setDone_inv {s : State K V} (h : Inv s) {i : Nat} {task : Task K V}
    (hi : s.tasks[i]? = some task) :
    Inv (s.setDone i task) := by
  unfold State.setDone
  split
  · rename_i key asked flight
    have hdone := h.updateFlight flight (fun f => { f with done := true })
      (fun _ => rfl) fun _ _ _ he => Or.inl he
    have hok := hdone.tasks _ (List.mem_of_getElem? hi)
    exact hdone.put (u := .waiting key asked flight) hi hok
      (by simp [Task.isUnderWay, Task.loader?]) (by simp [Task.isRegistered])
  · exact h

theorem wake_inv {s : State K V} (h : Inv s) {i : Nat} {task : Task K V}
    (hi : s.tasks[i]? = some task) :
    Inv (s.wake i task) := by
  have hok := h.tasks task (List.mem_of_getElem? hi)
  unfold State.wake
  split
  · split
    · exact h.put hi trivial (by simp [Task.isUnderWay, Task.loader?]) (by simp [Task.isRegistered])
    · rename_i entry hobject
      obtain ⟨-, f, hf, -, hvalue⟩ := hok
      rw [hobject, Option.some.injEq] at hf
      have hfresh := hvalue entry (by rw [← hf])
      exact h.put hi hfresh (by simp [Task.isUnderWay, Task.loader?]) (by simp [Task.isRegistered])
    · exact h.put hi trivial (by simp [Task.isUnderWay, Task.loader?]) (by simp [Task.isRegistered])
    · exact h
  · exact h

omit [DecidableEq K] in
theorem countP_after {s : State K V} {i : Nat} {task u : Task K V} {p : Task K V → Bool}
    (hi : s.tasks[i]? = some task) (hle : s.tasks.countP p ≤ 1) (hp : p task = true)
    (hp' : p u = false) :
    ∀ other ∈ s.tasks.set i u, p other = false := by
  have hcount := countP_set_add hi p u
  rw [if_pos hp, if_neg (by simp [hp'])] at hcount
  have hzero : (s.tasks.set i u).countP p = 0 := by omega
  intro other hother
  simpa using (List.countP_eq_zero.1 hzero) other hother

theorem release_inv {s : State K V} (h : Inv s) {i : Nat} {task : Task K V}
    (hi : s.tasks[i]? = some task) :
    Inv (s.release i task) := by
  have hok := h.tasks task (List.mem_of_getElem? hi)
  unfold State.release
  split
  · rename_i key asked flight
    have halone := countP_after (u := .released key asked flight) hi (h.registered key)
      (by simp [Task.isRegistered]) rfl
    refine h.of_move (u := .released key asked flight) hi rfl ⟨hok.1, hok.2.1⟩
      (by simp [Task.isUnderWay, Task.loader?]) (by simp [Task.isRegistered]) ?_ h.entries ?_
      h.objects
    · intro other hother hold
      refine hold.mono rfl rfl le_rfl (fun _ _ _ _ hflight => hflight) ?_
        fun _ _ e' he' => ⟨e', he', rfl, id⟩
      intro k hk
      have hne : k ≠ key := by
        rintro rfl
        rw [halone other hother] at hk
        cases hk
      simp [State.put, Dict.get?_pop, hne]
    · intro k fl hfl
      simp only [State.put, Dict.get?_pop] at hfl
      split at hfl
      · cases hfl
      · exact h.flights k fl hfl
  · exact h

/-! ## Stored entries -/

/-- A stored entry is read back, and every other key has its old entry or none. -/
theorem storeEntry_spec {settings : Settings} {entries entries' : Dict K (Entry V)} {key : K}
    {entry : Entry V} (h : storeEntry settings entries key entry = some entries') (k : K)
    (e : Entry V) (he : entries'.get? k = some e) :
    if k = key then e = entry else entries.get? k = some e := by
  unfold storeEntry at h
  split at h
  · obtain ⟨oldest, -, rfl⟩ := Option.map_eq_some_iff.1 h
    rw [Dict.get?_set] at he
    split
    · rw [if_pos ‹_›] at he
      exact (Option.some.inj he).symm
    · rw [if_neg ‹_›, Dict.get?_pop] at he
      split at he
      · cases he
      · exact he
  · cases h
    rw [Dict.get?_set] at he
    split
    · rw [if_pos ‹_›] at he
      exact (Option.some.inj he).symm
    · rwa [if_neg ‹_›] at he

theorem clearRefreshing_spec {entries : Dict K (Entry V)} {key k : K} {e' : Entry V}
    (h : (clearRefreshing entries key).get? k = some e') :
    ∃ e, entries.get? k = some e ∧ e'.computedAt = e.computedAt ∧ e'.epoch = e.epoch ∧
      (k ≠ key → e' = e) := by
  unfold clearRefreshing at h
  split at h
  · rename_i current hcurrent
    rw [Dict.get?_set] at h
    split at h
    · rename_i hk
      subst hk
      cases h
      exact ⟨current, hcurrent, rfl, rfl, fun hne => absurd rfl hne⟩
    · exact ⟨e', h, rfl, rfl, fun _ => rfl⟩
  · exact ⟨e', h, rfl, rfl, fun _ => rfl⟩

/-- A fresh entry is stored by the only thread that calls a loader for its key. -/
theorem Inv.store_put {s : State K V} (h : Inv s) {i : Nat} {task u : Task K V}
    (hi : s.tasks[i]? = some task) {key : K} {entry : Entry V} {entries : Dict K (Entry V)}
    (hstore : storeEntry s.settings s.entries key entry = some entries)
    (hfresh : s.epochs key ≤ entry.epoch) (hunderWay : task.isUnderWay key = true)
    (hunderWay' : ∀ k, u.isUnderWay k = false)
    (hregistered : ∀ k, u.isRegistered k = true → task.isRegistered k = true)
    (hok : Ok { s with entries := entries } u) :
    Inv ({ s with entries := entries }.put i u) := by
  have halone := countP_after (u := u) hi (h.underWay key) hunderWay (hunderWay' key)
  refine h.of_move hi rfl hok (by simp [hunderWay']) hregistered ?_ ?_ h.flights h.objects
  · intro other hother hold
    refine hold.mono rfl rfl le_rfl (fun _ _ _ _ hflight => hflight) (fun _ _ => rfl) ?_
    intro k hk e' he'
    have hne : k ≠ key := by
      rintro rfl
      rw [halone other hother] at hk
      cases hk
    have hspec := storeEntry_spec hstore k e' he'
    rw [if_neg hne] at hspec
    exact ⟨e', hspec, rfl, id⟩
  · intro k e he
    have hspec := storeEntry_spec hstore k e he
    split at hspec
    · rename_i hk
      subst hk
      rw [hspec]
      exact hfresh
    · exact h.entries k e hspec

theorem store_inv {s : State K V} (h : Inv s) {i : Nat} {task : Task K V}
    (hi : s.tasks[i]? = some task) :
    Inv (s.store i task) := by
  have hok := h.tasks task (List.mem_of_getElem? hi)
  unfold State.store
  split
  · rename_i key asked flight entry
    have hfresh : s.epochs key ≤ entry.epoch := hok.2.2.2.2 _ rfl
    obtain ⟨f, hf, hkey, -⟩ := hok.2.1
    split
    · rename_i entries hstore
      have hvalue := h.updateFlight flight (fun f => { f with value := some entry })
        (fun _ => rfl) fun f' hf' e he => by
          rw [hf, Option.some.injEq] at hf'
          cases he
          rw [← hf', hkey]
          exact Or.inr hfresh
      obtain ⟨hasked, hflight, hregistered, -⟩ := hvalue.tasks _ (List.mem_of_getElem? hi)
      exact hvalue.store_put (u := .leaving key asked flight) hi hstore hfresh
        (by simp [Task.isUnderWay, Task.loader?]) (by simp [Task.isUnderWay, Task.loader?])
        (by simp [Task.isRegistered]) ⟨hasked, hflight, hregistered⟩
    · have hrecorded := h.updateFlight flight (fun f => { f with error := some emptyMin })
        (fun _ => rfl) fun _ _ _ he => Or.inl he
      obtain ⟨hasked, hflight, hregistered, -⟩ := hrecorded.tasks _ (List.mem_of_getElem? hi)
      exact hrecorded.put (u := .leaving key asked flight) hi ⟨hasked, hflight, hregistered⟩
        (by simp [Task.isUnderWay, Task.loader?]) (by simp [Task.isRegistered])
  · rename_i key entry
    split
    · rename_i entries hstore
      exact h.store_put (u := .ended) hi hstore (hok.2 _ rfl)
        (by simp [Task.isUnderWay, Task.loader?]) (by simp [Task.isUnderWay, Task.loader?])
        (by simp [Task.isRegistered]) trivial
    · exact h.put hi ⟨hok.1, by simp [Stage.FreshFor, Stage.epoch?]⟩
        (by simp [Task.isUnderWay, Task.loader?]) (by simp [Task.isRegistered])
  · rename_i key error
    have halone := countP_after (u := .ended) hi (h.underWay key)
      (by simp [Task.isUnderWay, Task.loader?]) rfl
    refine h.of_move (u := .ended) hi rfl trivial (by simp [Task.isUnderWay, Task.loader?])
      (by simp [Task.isRegistered]) ?_ ?_ h.flights h.objects
    · intro other hother hold
      refine hold.mono rfl rfl le_rfl (fun _ _ _ _ hflight => hflight) (fun _ _ => rfl) ?_
      intro k hk e' he'
      obtain ⟨e, he, hcomputed, -, hsame⟩ := clearRefreshing_spec he'
      have hne : k ≠ key := by
        rintro rfl
        rw [halone other hother] at hk
        cases hk
      exact ⟨e, he, hcomputed, fun hmarked => by rwa [hsame hne]⟩
    · intro k e' he'
      obtain ⟨e, he, -, hepoch, -⟩ := clearRefreshing_spec he'
      rw [hepoch]
      exact h.entries k e he
  · exact h

/-! ## Invalidations -/

section Invalidate

variable (s : State K V) (target : Option K)

@[simp]
theorem invalidate_epochs (key : K) :
    (s.invalidate target).epochs key =
      if Affects target key then s.epochs key + 1 else s.epochs key := by
  cases target with
  | none => simp [State.invalidate, Affects]
  | some k => simp [State.invalidate, Affects, eq_comm]

@[simp]
theorem invalidate_entries (key : K) :
    (s.invalidate target).entries.get? key =
      if Affects target key then none else s.entries.get? key := by
  cases target with
  | none => simp [State.invalidate, Affects]
  | some k => simp [State.invalidate, Affects, Dict.get?_pop, eq_comm]

@[simp]
theorem invalidate_flights :
    (s.invalidate target).flights = s.flights := by
  cases target <;> rfl

@[simp]
theorem invalidate_flightObjects :
    (s.invalidate target).flightObjects = s.flightObjects := by
  cases target <;> rfl

@[simp]
theorem invalidate_nextFlight :
    (s.invalidate target).nextFlight = s.nextFlight := by
  cases target <;> rfl

@[simp]
theorem invalidate_tasks :
    (s.invalidate target).tasks = s.tasks := by
  cases target <;> rfl

@[simp]
theorem invalidate_settings :
    (s.invalidate target).settings = s.settings := by
  cases target <;> rfl

@[simp]
theorem invalidate_clock :
    (s.invalidate target).clock = s.clock := by
  cases target <;> rfl

theorem le_invalidate_epochs (key : K) :
    s.epochs key ≤ (s.invalidate target).epochs key := by
  rw [invalidate_epochs]
  split <;> omega

end Invalidate

theorem freshFor_invalidate {s : State K V} {target : Option K} {key : K} {stage : Stage V}
    (h : stage.FreshFor (s.epochs key))
    (hcarries : ¬ (Affects target key ∧ stage.epoch?.isSome = true)) :
    stage.FreshFor ((s.invalidate target).epochs key) := by
  intro epoch hepoch
  have hold := h epoch hepoch
  rw [invalidate_epochs]
  split
  · exact absurd ⟨‹_›, by simp [hepoch]⟩ hcarries
  · exact hold

/-- An invalidation leaves a thread sound that carries no result for the target. -/
theorem Ok.invalidate {s : State K V} {task : Task K V} (h : Ok s task) {target : Option K}
    (hcarries : task.carries target = false) :
    Ok (s.invalidate target) task := by
  have hflight : ∀ key n fl, FlightOk s key n fl → FlightOk (s.invalidate target) key n fl :=
    fun key n fl hfl => hfl.congr (by simp)
  cases task with
  | leader key asked flight stage =>
      obtain ⟨hasked, hfl, hregistered, hexpired, hfresh⟩ := h
      refine ⟨hasked.trans (le_invalidate_epochs s target key), hflight _ _ _ hfl, by simpa, ?_,
        freshFor_invalidate hfresh (by simpa [Task.carries, Task.loader?] using hcarries)⟩
      intro e he
      rw [invalidate_entries] at he
      split at he
      · cases he
      · simpa using hexpired e he
  | leaving key asked flight =>
      exact ⟨h.1.trans (le_invalidate_epochs s target key), hflight _ _ _ h.2.1, by simpa using h.2.2⟩
  | released key asked flight =>
      exact ⟨h.1.trans (le_invalidate_epochs s target key), hflight _ _ _ h.2⟩
  | waiting key asked flight =>
      exact ⟨h.1.trans (le_invalidate_epochs s target key), hflight _ _ _ h.2⟩
  | refresher key stage =>
      refine ⟨fun e he => ?_,
        freshFor_invalidate h.2 (by simpa [Task.carries, Task.loader?] using hcarries)⟩
      rw [invalidate_entries] at he
      split at he
      · cases he
      · exact h.1 e he
  | returned key asked epoch result => exact h
  | raised key error => trivial
  | ended => trivial

theorem invalidate_inv {s : State K V} (h : Inv s) {target : Option K}
    (hok : Undisturbed s (.invalidate target)) :
    Inv (s.invalidate target) where
  tasks := by
    intro task htask
    rw [invalidate_tasks] at htask
    exact (h.tasks task htask).invalidate (hok.1 task htask)
  underWay := by simpa using h.underWay
  registered := by simpa using h.registered
  entries := by
    intro key e he
    rw [invalidate_entries] at he
    rw [invalidate_epochs]
    split at he
    · cases he
    · rename_i haffects
      rw [if_neg haffects]
      exact h.entries key e he
  flights := by
    intro key flight hflight
    rw [invalidate_flights] at hflight
    obtain ⟨f, hf, hkey, hvalue⟩ := h.flights key flight hflight
    refine ⟨f, by simpa using hf, hkey, fun e he => ?_⟩
    rw [invalidate_epochs]
    split
    · rename_i haffects
      have hoffers := hok.2
      simp only [State.offers, List.any_eq_false, decide_eq_true_eq] at hoffers
      exact absurd ⟨haffects, by simp [hf, he]⟩ (hoffers (key, flight) (Dict.mem_of_get? hflight))
    · exact hvalue e he
  objects := by simpa using h.objects

/-! ## Runs -/

theorem tick_inv {s : State K V} (h : Inv s) (now : Rat) :
    Inv { s with clock := max s.clock now } where
  tasks := fun task htask => (h.tasks task htask).mono rfl rfl (le_max_left _ _)
    (fun _ _ _ _ hflight => hflight) (fun _ _ => rfl) fun _ _ e' he' => ⟨e', he', rfl, id⟩
  underWay := h.underWay
  registered := h.registered
  entries := h.entries
  flights := h.flights
  objects := h.objects

theorem onTask_inv {s : State K V} (h : Inv s) {i : Nat} {f : Task K V → State K V}
    (hf : ∀ task, s.tasks[i]? = some task → Inv (f task)) :
    Inv (s.onTask i f) := by
  unfold State.onTask
  split
  · exact hf _ ‹_›
  · exact h

/-- Every undisturbed step keeps the invariant. -/
theorem step_inv (s : State K V) (e : Event K V) (h : Inv s) (hok : Undisturbed s e) :
    Inv (step s e) := by
  cases e with
  | get key => exact get_inv h hok
  | startLoader i => exact onTask_inv h fun _ hi => startLoader_inv h hi
  | loaderReturned i value => exact onTask_inv h fun _ hi => loaderReturned_inv h hi value
  | loaderRaised i error => exact onTask_inv h fun _ hi => loaderRaised_inv h hi error
  | stamp i generatedAt => exact onTask_inv h fun _ hi => stamp_inv h hi generatedAt
  | store i => exact onTask_inv h fun _ hi => store_inv h hi
  | release i => exact onTask_inv h fun _ hi => release_inv h hi
  | setDone i => exact onTask_inv h fun _ hi => setDone_inv h hi
  | wake i => exact onTask_inv h fun _ hi => wake_inv h hi
  | invalidate target => exact invalidate_inv h hok
  | tick now => exact tick_inv h now

theorem isUnderWay_of_isLoading {key : K} {task : Task K V} (h : task.isLoading key = true) :
    task.isUnderWay key = true := by
  unfold Task.isLoading at h
  unfold Task.isUnderWay
  split at h
  · rename_i k epoch hloader
    simpa [hloader] using h
  · cases h

theorem Inv.sound {s : State K V} (h : Inv s) :
    Fresh s ∧ OneLoader s := by
  constructor
  · intro key asked epoch result htask
    exact h.tasks _ htask
  · intro key
    exact (List.countP_mono_left fun _ _ => isUnderWay_of_isLoading).trans (h.underWay key)

/--
In a run whose steps are all undisturbed no call returns a value from before an
invalidation that was over when it started, and one loader at most runs for a key.
-/
theorem undisturbed_sound (settings : Settings) (es : List (Event K V))
    (hrun : Runs.Along step Undisturbed (initial settings) es) :
    Fresh (Runs.run step (initial settings) es) ∧
      OneLoader (Runs.run step (initial settings) es) :=
  (hrun.invariant step_inv (inv_initial settings)).sound

/-- A miss that two callers share, a refresh in the background and an invalidation after it. -/
theorem undisturbed_sound_refreshed :
    Fresh (Runs.run step (initial {} : State String Nat)
      [.get "k", .startLoader 0, .get "k", .loaderReturned 0 1, .stamp 0 "12:00", .store 0,
        .release 0, .setDone 0, .wake 0, .wake 1, .tick 31, .get "k", .startLoader 2,
        .loaderReturned 2 2, .stamp 2 "12:01", .store 2, .invalidate none, .get "k"]) ∧
    OneLoader (Runs.run step (initial {} : State String Nat)
      [.get "k", .startLoader 0, .get "k", .loaderReturned 0 1, .stamp 0 "12:00", .store 0,
        .release 0, .setDone 0, .wake 0, .wake 1, .tick 31, .get "k", .startLoader 2,
        .loaderReturned 2 2, .stamp 2 "12:01", .store 2, .invalidate none, .get "k"]) :=
  undisturbed_sound {} _ (by decide +kernel)

/--
A loader that has started before an invalidation stores its result after it, and the next
call is given this result; a refresh is still under way when its entry has become too old,
and the next caller starts a second loader.
-/
theorem disturbed_unsound :
    ¬ Fresh (Runs.run step (initial {} : State String Nat)
      [.get "k", .startLoader 0, .invalidate (some "k"), .loaderReturned 0 1, .stamp 0 "12:00",
        .store 0, .get "k"]) ∧
    ¬ OneLoader (Runs.run step (initial {} : State String Nat)
      [.get "k", .startLoader 0, .loaderReturned 0 1, .stamp 0 "12:00", .store 0, .release 0,
        .setDone 0, .wake 0, .tick 31, .get "k", .startLoader 1, .tick 1000, .get "k",
        .startLoader 3]) := by
  constructor
  · intro hfresh
    have hold := hfresh "k" 1 0 { value := 1, generatedAt := "12:00", ageSeconds := 0, stale := false }
      (by decide +kernel)
    omega
  · intro hone
    have hboth := hone "k"
    revert hboth
    decide +kernel

end SnapshotCache
end MpvmApp
