import MpvmApp.Lib.Dict
import MpvmApp.Lib.Runs
import MpvmApp.Operations.Registry
import Mathlib.Data.List.MinMax

/-!
# The snapshot cache

A snapshot cache answers from an entry that a loader has computed.  Several threads
call it: a caller is the leader of a flight, it waits for the flight of another caller,
or it reads an entry; an entry past its time to live is refreshed by a thread of its
own.  The dictionaries change only under the lock of the cache, so that a step of the
system is one locked section, or one action of a thread between two of them.

Main definitions:

- `State`: the cache with the threads that call it.
- `step`: one step of a thread, of the clock or of an invalidation.
- `Fresh`, `OneLoader`: what the callers of a cache rely on.
-/

namespace MpvmApp
namespace SnapshotCache

open Operations (roundHalfEven)

/-! ## The cache -/

/-- `_Entry`; `epoch` is the number of invalidations of its key that its loader has seen. -/
structure Entry (V : Type*) where
  value : V
  computedAt : Rat
  generatedAt : String
  refreshing : Bool := false
  epoch : Nat
deriving DecidableEq

/-- What a loader raises: an `Exception`, or another `BaseException`. -/
inductive LoadError where
  | exception (text : String)
  | interrupt (text : String)
deriving DecidableEq

/-- `_Flight`; `key` is the key for which it was registered. -/
structure Flight (K V : Type*) where
  key : K
  done : Bool := false
  value : Option (Entry V) := none
  error : Option LoadError := none
deriving DecidableEq

/-- The arguments of the constructor of a cache. -/
structure Settings where
  ttlSeconds : Rat := 30
  maxStaleSeconds : Rat := 900
  maxEntries : Int := 64

/-- `self.max_stale_seconds`. -/
def Settings.staleLimit (c : Settings) : Rat :=
  max c.maxStaleSeconds c.ttlSeconds

/-- What a call returns: the value with its snapshot metadata. -/
structure Rendered (V : Type*) where
  value : V
  generatedAt : String
  ageSeconds : Int
  stale : Bool
deriving DecidableEq

/-! ## The threads -/

/-- How far a thread that calls a loader has come. -/
inductive Stage (V : Type*) where
  | pending
  | loading (epoch : Nat)
  | loaded (value : V) (epoch : Nat)
  | stamped (entry : Entry V)
  | failed (error : LoadError)
deriving DecidableEq

/-- The epoch in which the loader of a result that is not stored yet was started. -/
def Stage.epoch? {V : Type*} : Stage V → Option Nat
  | .loading epoch => some epoch
  | .loaded _ epoch => some epoch
  | .stamped entry => some entry.epoch
  | .pending | .failed _ => none

/--
A call of `get` or a background refresh.  A call remembers in `asked` the epoch of
its key at its start.
-/
inductive Task (K V : Type*) where
  | leader (key : K) (asked flight : Nat) (stage : Stage V)
  | leaving (key : K) (asked flight : Nat)
  | released (key : K) (asked flight : Nat)
  | waiting (key : K) (asked flight : Nat)
  | refresher (key : K) (stage : Stage V)
  | returned (key : K) (asked epoch : Nat) (result : Rendered V)
  | raised (key : K) (error : LoadError)
  | ended
deriving DecidableEq

namespace Task

variable {K V : Type*}

/-- The key and the stage of a task that calls a loader. -/
def loader? : Task K V → Option (K × Stage V)
  | .leader key _ _ stage => some (key, stage)
  | .refresher key stage => some (key, stage)
  | _ => none

/-- The task at another stage of its call of the loader. -/
def atStage (stage : Stage V) : Task K V → Task K V
  | .leader key asked flight _ => .leader key asked flight stage
  | .refresher key _ => .refresher key stage
  | task => task

variable [DecidableEq K]

/-- The task calls a loader for the key, or has still to store or discard what it gave. -/
def isUnderWay (key : K) (task : Task K V) : Bool :=
  match task.loader? with
  | some (k, _) => k = key
  | none => false

/-- A loader for the key runs in this task. -/
def isLoading (key : K) (task : Task K V) : Bool :=
  match task.loader? with
  | some (k, .loading _) => k = key
  | _ => false

/-- The flight of the task is registered for the key. -/
def isRegistered (key : K) : Task K V → Bool
  | .leader k _ _ _ => k = key
  | .leaving k _ _ => k = key
  | _ => false

/-- The task refreshes the entry of the key in the background. -/
def isRefresher (key : K) : Task K V → Bool
  | .refresher k _ => k = key
  | _ => false

end Task

/-! ## The steps -/

/-- A cache with its threads; a flight is named by the number of flights before it. -/
structure State (K V : Type*) where
  settings : Settings
  clock : Rat
  entries : Dict K (Entry V)
  flights : Dict K Nat
  flightObjects : Nat → Option (Flight K V)
  nextFlight : Nat
  tasks : List (Task K V)
  epochs : K → Nat

/-- A step of the system; a thread is named by its place in the list of tasks. -/
inductive Event (K V : Type*) where
  | get (key : K)
  | startLoader (task : Nat)
  | loaderReturned (task : Nat) (value : V)
  | loaderRaised (task : Nat) (error : LoadError)
  | stamp (task : Nat) (generatedAt : String)
  | store (task : Nat)
  | release (task : Nat)
  | setDone (task : Nat)
  | wake (task : Nat)
  | invalidate (key : Option K)
  | tick (now : Rat)

variable {K V : Type*} [DecidableEq K]

/-- A cache that has just been built. -/
def initial (settings : Settings) : State K V where
  settings := settings
  clock := 0
  entries := Dict.empty
  flights := Dict.empty
  flightObjects := fun _ => none
  nextFlight := 0
  tasks := []
  epochs := fun _ => 0

/--
The locked section of `_store`: the oldest key makes room for a new one.  There is no
oldest key when a cache that may keep no entries is empty.
-/
def storeEntry (settings : Settings) (entries : Dict K (Entry V)) (key : K) (entry : Entry V) :
    Option (Dict K (Entry V)) :=
  if settings.maxEntries ≤ entries.items.length ∧ (entries.get? key).isNone then
    (entries.items.argmin fun item => item.2.computedAt).map fun oldest =>
      (entries.pop oldest.1).set key entry
  else some (entries.set key entry)

/-- The handler of a failed refresh clears the mark of the current entry. -/
def clearRefreshing (entries : Dict K (Entry V)) (key : K) : Dict K (Entry V) :=
  match entries.get? key with
  | some current => entries.set key { current with refreshing := false }
  | none => entries

/-- What `min` raises on an empty dictionary. -/
def emptyMin : LoadError :=
  .exception "ValueError"

namespace State

/-- A new thread. -/
def spawn (s : State K V) (task : Task K V) : State K V :=
  { s with tasks := s.tasks ++ [task] }

/-- A thread moves on. -/
def put (s : State K V) (i : Nat) (task : Task K V) : State K V :=
  { s with tasks := s.tasks.set i task }

/-- Change a flight object. -/
def updateFlight (s : State K V) (flight : Nat) (f : Flight K V → Flight K V) : State K V :=
  { s with flightObjects := fun n =>
      if n = flight then (s.flightObjects n).map f else s.flightObjects n }

/-- `_render`. -/
def render (s : State K V) (entry : Entry V) (stale : Bool) : Rendered V where
  value := entry.value
  generatedAt := entry.generatedAt
  ageSeconds := max 0 (roundHalfEven (s.clock - entry.computedAt))
  stale := stale

/-- The second half of the locked section of `get`: join a flight, or register one. -/
def join (s : State K V) (key : K) : State K V :=
  match s.flights.get? key with
  | some flight => s.spawn (.waiting key (s.epochs key) flight)
  | none =>
      { s with
        flights := s.flights.set key s.nextFlight
        flightObjects := fun n =>
          if n = s.nextFlight then some { key := key } else s.flightObjects n
        nextFlight := s.nextFlight + 1 }.spawn (.leader key (s.epochs key) s.nextFlight .pending)

/-- Mark an entry and start the thread of `_refresh_in_background`. -/
def refreshInBackground (s : State K V) (key : K) (entry : Entry V) : State K V :=
  { s with entries := s.entries.set key { entry with refreshing := true } }.spawn
    (.refresher key .pending)

/-- The locked section of `get`. -/
def get (s : State K V) (key : K) : State K V :=
  match s.entries.get? key with
  | none => s.join key
  | some entry =>
      let age := s.clock - entry.computedAt
      if age < s.settings.ttlSeconds then
        s.spawn (.returned key (s.epochs key) entry.epoch (s.render entry false))
      else if age < s.settings.staleLimit then
        (if entry.refreshing then s else s.refreshInBackground key entry).spawn
          (.returned key (s.epochs key) entry.epoch (s.render entry true))
      else s.join key

/-- The loader of a thread starts. -/
def startLoader (s : State K V) (i : Nat) (task : Task K V) : State K V :=
  match task.loader? with
  | some (key, .pending) => s.put i (task.atStage (.loading (s.epochs key)))
  | _ => s

/-- The loader of a thread returns. -/
def loaderReturned (s : State K V) (i : Nat) (task : Task K V) (value : V) : State K V :=
  match task.loader? with
  | some (_, .loading epoch) => s.put i (task.atStage (.loaded value epoch))
  | _ => s

/-- The loader of a thread raises; a refresh handles only an `Exception`. -/
def loaderRaised (s : State K V) (i : Nat) (task : Task K V) (error : LoadError) : State K V :=
  match task with
  | .leader key asked flight (.loading _) =>
      (s.updateFlight flight fun f => { f with error := some error }).put i
        (.leaving key asked flight)
  | .refresher key (.loading _) =>
      match error with
      | .exception _ => s.put i (.refresher key (.failed error))
      | .interrupt _ => s.put i .ended
  | _ => s

/-- `_store` builds the entry before it takes the lock. -/
def stamp (s : State K V) (i : Nat) (task : Task K V) (generatedAt : String) : State K V :=
  match task.loader? with
  | some (_, .loaded value epoch) =>
      s.put i (task.atStage (.stamped
        { value := value, computedAt := s.clock, generatedAt := generatedAt, epoch := epoch }))
  | _ => s

/-- The locked section with which a thread ends its call of the loader. -/
def store (s : State K V) (i : Nat) (task : Task K V) : State K V :=
  match task with
  | .leader key asked flight (.stamped entry) =>
      match storeEntry s.settings s.entries key entry with
      | some entries =>
          ({ s with entries := entries }.updateFlight flight fun f =>
            { f with value := some entry }).put i (.leaving key asked flight)
      | none =>
          (s.updateFlight flight fun f => { f with error := some emptyMin }).put i
            (.leaving key asked flight)
  | .refresher key (.stamped entry) =>
      match storeEntry s.settings s.entries key entry with
      | some entries => { s with entries := entries }.put i .ended
      | none => s.put i (.refresher key (.failed emptyMin))
  | .refresher key (.failed _) =>
      { s with entries := clearRefreshing s.entries key }.put i .ended
  | _ => s

/-- The locked section in which a leader takes its flight from the registry. -/
def release (s : State K V) (i : Nat) (task : Task K V) : State K V :=
  match task with
  | .leaving key asked flight =>
      { s with flights := s.flights.pop key }.put i (.released key asked flight)
  | _ => s

/-- `flight.done.set()`; the leader goes on with the outcome, as the waiting callers do. -/
def setDone (s : State K V) (i : Nat) (task : Task K V) : State K V :=
  match task with
  | .released key asked flight =>
      (s.updateFlight flight fun f => { f with done := true }).put i (.waiting key asked flight)
  | _ => s

/-- A caller returns or raises the outcome of a flight that is done. -/
def wake (s : State K V) (i : Nat) (task : Task K V) : State K V :=
  match task with
  | .waiting key asked flight =>
      match s.flightObjects flight with
      | some { done := true, error := some error, .. } => s.put i (.raised key error)
      | some { done := true, error := none, value := some entry, .. } =>
          s.put i (.returned key asked entry.epoch (s.render entry false))
      | some { done := true, error := none, value := none, .. } =>
          s.put i (.raised key (.exception "AssertionError"))
      | _ => s
  | _ => s

/-- `invalidate`: of one key, or of all. -/
def invalidate (s : State K V) : Option K → State K V
  | none => { s with entries := Dict.empty, epochs := fun k => s.epochs k + 1 }
  | some key =>
      { s with
        entries := s.entries.pop key
        epochs := fun k => if k = key then s.epochs k + 1 else s.epochs k }

/-- A step of the thread in place `i`, if there is one. -/
def onTask (s : State K V) (i : Nat) (f : Task K V → State K V) : State K V :=
  match s.tasks[i]? with
  | some task => f task
  | none => s

end State

/-- One step of the system. -/
def step (s : State K V) : Event K V → State K V
  | .get key => s.get key
  | .startLoader i => s.onTask i (s.startLoader i)
  | .loaderReturned i value => s.onTask i fun task => s.loaderReturned i task value
  | .loaderRaised i error => s.onTask i fun task => s.loaderRaised i task error
  | .stamp i generatedAt => s.onTask i fun task => s.stamp i task generatedAt
  | .store i => s.onTask i (s.store i)
  | .release i => s.onTask i (s.release i)
  | .setDone i => s.onTask i (s.setDone i)
  | .wake i => s.onTask i (s.wake i)
  | .invalidate target => s.invalidate target
  | .tick now => { s with clock := max s.clock now }

/-! ## What the callers rely on -/

/--
No call has returned a value whose loader was started before an invalidation of the key
that was over when the call started.
-/
def Fresh (s : State K V) : Prop :=
  ∀ key asked epoch result, Task.returned key asked epoch result ∈ s.tasks → asked ≤ epoch

/-- At most one loader runs for a key. -/
def OneLoader (s : State K V) : Prop :=
  ∀ key, s.tasks.countP (Task.isLoading key) ≤ 1

end SnapshotCache
end MpvmApp
