import Informer.Bus
import Informer.Config
import Informer.Error
import Informer.Reflector
import Informer.Resource.Basic
import Informer.Subscribers

/-!
# The object cache

One entry per kind, created the first time the kind is asked for and kept for ever; a bus for
runtime events, which the forwarder hands to the subscribers; and the shutdown.

Every operation is one step between two places where its task may have to wait, or is made of such
steps. It returns the cache with the effects it had, and the events among the effects are on the bus
already.

Two operations have more than one step. A call that asks for an entry looks for the stop signal,
then for the entry, and then for both again before it creates the entry, because other calls may
have been there in between. The first call that shuts down gives the stop signal, collects the tasks
of the entries one entry after another, waits for them until the grace period is over, and then
waits for the forwarder, which first hands on what is on the bus and lets the subscribers finish.

The forwarder looks at the bus and, if there is nothing, whether it may end. It does not wait
between the two looks, so they make one step where tasks take turns (`forward`). On a thread of its
own it may be overtaken between them, and each look is a step (`readBus?`, `endReading?`).
-/

namespace Informer

/-- Where the loop that hands runtime events to the subscribers stands. -/
inductive Forwarder where
  | forwarding
  /-- The queues of the subscribers are closed; their workers may still have events to handle. -/
  | draining
  | ended
deriving DecidableEq

/-- Where a call that asks for an entry stands. -/
inductive Lookup where
  | arriving
  /-- It looks for the entry. -/
  | searching
  /-- It found none and may create it. -/
  | creating
  | answered (result : Except CacheError Unit)

/-- Where the shutdown stands. -/
inductive Shutdown where
  | notBegun
  /-- The stop signal was given. -/
  | requested
  /-- It collects the tasks of every kind; it has still to ask the entries of `left`. -/
  | collecting (left : List Kind) (tasks : List (Kind × List Task))
  /-- It waits for the tasks of every kind. -/
  | joining (tasks : List (Kind × List Task))
  /-- It knows its result and waits for the forwarder. -/
  | settling (result : Except ShutdownError Unit)
  | finished (result : Except ShutdownError Unit)

/-- Entries by kind, the bus and its subscribers. -/
structure Cache where
  config : Config
  bus : Bus RuntimeEvent
  entries : Std.ExtTreeMap Kind Entry := ∅
  subscribers : Subscribers
  forwarder : Forwarder := .forwarding
  /-- Whether the forwarder may end when it has found nothing on the bus. -/
  released : Bool := false
  shutdown : Shutdown := .notBegun
  /-- The number of the next callback. -/
  nextCallback : Nat := 1

namespace Cache

/-- The number of the forwarder's receiver. -/
def forwarderReceiver : Nat := 0

/-- A cache without entries, whose forwarder receives from the start. -/
def new (config : Config) (subscribers : Subscribers) : Cache where
  config := config
  bus := (Bus.ofCapacity config.busCapacity).subscribe
  subscribers := subscribers

variable (c : Cache)

/-- Whether the stop signal was given. -/
def stopped : Bool :=
  match c.shutdown with
  | .notBegun => false
  | _ => true

/-- Puts the events among effects on the bus. -/
def emit (effects : List Effect) : Cache × List Effect :=
  ({ c with bus := (Effect.events effects).foldl .publish c.bus }, effects)

/-- Changes the entry of a kind, if there is one. -/
def onEntry (kind : Kind) (step : Entry → Entry × List Effect) : Cache × List Effect :=
  match c.entries[kind]? with
  | none => (c, [])
  | some e => { c with entries := c.entries.insert kind (step e).1 }.emit (step e).2

/-! ### Entries -/

/-- Creates the entry of a kind and starts its loop. -/
def openEntry (kind : Kind) : Cache × List Effect :=
  { c with entries := c.entries.insert kind (Entry.empty kind c.config.backlog?) }.emit
    [.wake (.reflector kind), .publish (.watchStarted kind)]

/-- One step of a call that asks for the entry of a kind. -/
def lookup (kind : Kind) : Lookup → (Cache × List Effect) × Lookup
  | .arriving => ((c, []), if c.stopped then .answered (.error .stopped) else .searching)
  | .searching => ((c, []), if c.entries.contains kind then .answered (.ok ()) else .creating)
  | .creating =>
    if c.entries.contains kind then ((c, []), .answered (.ok ()))
    else if c.stopped then ((c, []), .answered (.error .stopped))
    else (c.openEntry kind, .answered (.ok ()))
  | .answered result => ((c, []), .answered result)

/-- Provides the entry of a kind, creating it on first use: a call that nothing comes between. -/
def getOrCreate (kind : Kind) : (Cache × List Effect) × Except CacheError Unit :=
  if c.stopped then ((c, []), .error .stopped)
  else if c.entries.contains kind then ((c, []), .ok ())
  else (c.openEntry kind, .ok ())

/-- Three steps are enough for an answer. -/
theorem lookup_getOrCreate (kind : Kind) :
    let first := c.lookup kind .arriving
    let second := first.1.1.lookup kind first.2
    let third := second.1.1.lookup kind second.2
    third.2 = .answered (c.getOrCreate kind).2 ∧ third.1.1 = (c.getOrCreate kind).1.1 := by
  by_cases hs : c.stopped = true <;> by_cases hk : kind ∈ c.entries <;>
    simp [lookup, getOrCreate, hs, hk]

/-- Registers a callback on the entry of a kind; its number is `c.nextCallback`. -/
def register (kind : Kind) (name : String) : Cache × List Effect :=
  { c with nextCallback := c.nextCallback + 1 }.onEntry kind (·.register c.nextCallback name)

/-- The kinds that are watched, in order. -/
def kinds : List Kind := c.entries.keys

/-- One held object as a type of resources, if it is held. -/
def get (α : Type) [Resource α] (key : Key) : Except ObjectError (Option α) :=
  match c.entries[Resource.kind α]? with
  | none => .ok none
  | some e => match e.store.get? key with
    | none => .ok none
    | some o => (o.decode α).map some

/-- Every held object of a type of resources, by ascending key; the first that does not decode is
the error. -/
def list (α : Type) [Resource α] : Except ObjectError (List α) :=
  match c.entries[Resource.kind α]? with
  | none => .ok []
  | some e => e.store.toList.mapM (·.decode α)

/-- Whether the first listing of a kind has been applied. -/
def isSynced (kind : Kind) : Bool := (c.entries[kind]?.map (·.synced)).getD false

/-- What a caller that waits for the first listings of some kinds is told now, one kind after
another: that they have all been applied, or that one has not and never will be since the cache has
stopped. -/
def syncAnswer? : List Kind → Option Bool
  | [] => some true
  | kind :: rest =>
    if c.isSynced kind then syncAnswer? rest else if c.stopped then some false else none

/-- How a debug text shows a cache. -/
def debug : String :=
  "ObjectCache \x7b cfg: " ++ c.config.debug ++ ", stopped: " ++ toString c.stopped ++ ", .. \x7d"

/-! ### Tasks -/

/-- The delays of the list-and-watch loops. -/
def pace : Pace := ⟨c.config.rewatchDelay, c.config.resync?⟩

/-- One step of the loop of a kind. -/
def react (kind : Kind) (now : Nat) (signal : Signal) : Cache × List Effect :=
  c.onEntry kind (·.react c.pace now signal)

/-- Runs the worker of a callback while it is idle. -/
def advanceWorker (kind : Kind) (id : Nat) : Cache × Fanout.WorkerStep :=
  match c.entries[kind]? with
  | none => (c, .ended)
  | some e =>
    let (callbacks, step) := e.callbacks.advance c.stopped id
    ({ c with entries := c.entries.insert kind { e with callbacks } }, step)

/-- Ends the handling of a notification by a callback. -/
def completeWorker (kind : Kind) (id : Nat) (outcome : Outcome) : Cache × List Effect :=
  c.onEntry kind fun e ↦ e.withCallbacks (e.callbacks.complete id outcome)

/-- Runs the worker of a subscriber while it is idle. -/
def advanceSubscriber (i : Nat) : Cache × Subscribers.WorkerStep :=
  let (subscribers, step) := c.subscribers.advance i
  ({ c with subscribers }, step)

/-- Changes the subscribers. -/
def onSubscribers (result : Subscribers × List Effect) : Cache × List Effect :=
  { c with subscribers := result.1 }.emit result.2

/-- Ends the handling of an event by a subscriber. -/
def completeSubscriber (i : Nat) (outcome : Outcome) : Cache × List Effect :=
  c.onSubscribers (c.subscribers.complete i outcome)

/-- The forwarder looks at the bus, and hands on what it finds there or learns what it missed. The
bus is not closed as long as there is a forwarder. -/
def readBus? : Option (Cache × List Effect) :=
  match c.bus.recv forwarderReceiver with
  | (bus, .event e) => some ({ c with bus }.onSubscribers (c.subscribers.emit e))
  | (bus, .lagged _) => some ({ c with bus }, [])
  | (_, .empty) | (_, .closed) => none

/-- The forwarder looks whether it may end, and closes the queues of the subscribers if it may. -/
def endReading? : Option (Cache × List Effect) :=
  if c.released then
    some ({ c with forwarder := .draining }.onSubscribers c.subscribers.close)
  else none

/-- One turn of the forwarder, and whether it goes on at once. It looks at the bus, and whether it
may end only when it finds nothing there. -/
def forward : Cache × List Effect × Bool :=
  match c.forwarder with
  | .ended => (c, [], false)
  | .draining =>
    if c.subscribers.allEnded then ({ c with forwarder := .ended }, [.wake .guards], false)
    else (c, [], false)
  | .forwarding => match c.readBus?.or c.endReading? with
    | some (c, effects) => (c, effects, true)
    | none => (c, [], false)

/-! ### Shutdown -/

/-- The tasks of an entry: its loop and the workers of its callbacks. -/
def entryTasks (e : Entry) : List Task :=
  .reflector e.kind :: e.callbacks.channels.map e.callbacks.task

/-- Whether a task of an entry has ended. -/
def hasEnded : Task → Bool
  | .reflector kind => match c.entries[kind]? with
    | some e => e.reflector = .ended
    | none => true
  | .worker kind id => match c.entries[kind]? with
    | some e => match e.callbacks.channel? id with
      | some channel => channel.worker.isEnded
      | none => true
    | none => true
  | _ => true

/-- The tasks of an entry that wait for something which may be the stop signal. -/
def waitingTasks (e : Entry) : List Task :=
  .reflector e.kind ::
    (e.callbacks.channels.filter (·.worker.isIdle)).map e.callbacks.task

/-- Begins a call that shuts down. The first call gives the stop signal and waits for its result;
any other has its result at once. -/
def callShutdown : (Cache × List Effect) × Option (Except ShutdownError Unit) :=
  match c.shutdown with
  | .notBegun =>
    let waiting := (c.entries.toList.map (·.2)).flatMap waitingTasks
    (emit { c with shutdown := .requested }
      (.publish .shutdownRequested :: waiting.map .wake ++ [.wake .guards]), none)
  | _ => ((c, []), some (.ok ()))

/-- The kinds with a task that has not ended. -/
def stuckKinds (tasks : List (Kind × List Task)) : List Kind :=
  (tasks.filter fun (_, tasks) ↦ !tasks.all c.hasEnded).map (·.1)

/-- Ends a task of an entry whatever it is doing. -/
def abort (task : Task) : Cache × List Effect :=
  match task with
  | .reflector kind => c.onEntry kind (·.endReflector)
  | .worker kind id => c.onEntry kind fun e ↦ e.withCallbacks (e.callbacks.abort id, [])
  | _ => (c, [])

/-- Ends tasks of entries whatever they are doing. -/
def abortAll (c : Cache) : List Task → Cache × List Effect
  | [] => (c, [])
  | task :: rest =>
    let (c, first) := c.abort task
    let (c, later) := c.abortAll rest
    (c, first ++ later)

/-- Ends the waiting for tasks and lets the forwarder end. -/
def settle (result : Except ShutdownError Unit) (report : RuntimeEvent) : Cache × List Effect :=
  { c with shutdown := .settling result, released := true }.emit
    [.publish report, .wake .forwarder]

/-- One step of the first shutdown: it asks the next entry for its tasks; or these have all ended,
or the grace period is over; or the forwarder has ended. It does not wait between the end of the
grace period and naming the kinds with tasks that have not ended; they are a set, whose names are
listed in order here. -/
def continueShutdown (graceOver : Bool) : Cache × List Effect :=
  match c.shutdown with
  | .requested => ({ c with shutdown := .collecting c.kinds [] }, [])
  | .collecting [] tasks => ({ c with shutdown := .joining tasks }, [])
  | .collecting (kind :: left) tasks =>
    let found := (c.entries[kind]?.map fun e ↦ (kind, entryTasks e)).toList
    ({ c with shutdown := .collecting left (tasks ++ found) }, [])
  | .joining tasks =>
    let left := (tasks.flatMap (·.2)).filter fun task ↦ !c.hasEnded task
    if left.isEmpty then c.settle (.ok ()) .allStoppedWithin
    else if graceOver then
      let stuck := ((c.stuckKinds tasks).map Kind.display).mergeSort
      let (c, released) := c.abortAll left
      let (c, effects) := c.settle (.error (.graceExceeded c.config.grace stuck)) .graceExceeded
      (c, released ++ effects)
    else (c, [])
  | .settling result =>
    if c.forwarder = .ended then ({ c with shutdown := .finished result }, []) else (c, [])
  | _ => (c, [])

/-- The result of the first shutdown, once it has returned. -/
def shutdownResult? : Option (Except ShutdownError Unit) :=
  match c.shutdown with
  | .finished result => some result
  | _ => none

end Cache

end Informer
