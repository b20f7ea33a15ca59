import Informer.LogRecord
import Informer.Simulation.Clock

/-!
# Calls on a run

What a caller can do in a run: work on the remote side, register and start consumers, let time pass,
and shut down. After every call everything that may run runs. `collect` takes out what was recorded
since the last time.
-/

namespace Informer.Simulation

/-- How long a caller waits for something that may never happen: an hour. -/
def longest : Nat := 3600000

/-- The number of the receiver that records the bus. -/
def recorder : Nat := 1

/-- A run of a new cache with these subscribers, at rest. -/
def start (config : Config) (remote : Remote) (subscribers : List ObservedSubscriber) :
    Simulation :=
  let cache := Cache.new config (.ofList (subscribers.map fun o ↦ (o.name, o.capacity)))
  rest { cache := { cache with bus := cache.bus.subscribe }, remote, subscribers }

/-- A run of subscribers alone: there is no forwarder, and the bus is only recorded. -/
def startSubscribers (busCapacity : Nat) (subscribers : List ObservedSubscriber) : Simulation :=
  let s := start { busCapacity } (.registry {}) subscribers
  { s with cache := { s.cache with forwarder := .ended } }

variable (s : Simulation)

/-! ### The remote side -/

/-- Lets the loop of a kind look at its stream, if there is something to see. -/
def wakeReader (kind : Kind) : Simulation :=
  match (s.cache.entries[kind]?).bind (·.reflector.stream?) with
  | some stream => if (s.remote.streams.get stream).isReadable then s.wake (.reflector kind) else s
  | none => s

/-- Does something to the registry that concerns one kind. -/
def onRegistry {α : Type} (kind : Kind) (f : Registry → Registry × α) (absent : α) :
    Simulation × α :=
  match s.remote with
  | .registry r => ({ s with remote := .registry (f r).1 }.wakeReader kind, (f r).2)
  | .script _ => (s, absent)

/-- Does something to the script that concerns one kind. -/
def onScript {α : Type} (kind : Kind) (f : Script → Script × α) (absent : α) : Simulation × α :=
  match s.remote with
  | .script r => ({ s with remote := .script (f r).1 }.wakeReader kind, (f r).2)
  | .registry _ => (s, absent)

/-! ### Consumers -/

/-- Provides the entry of a kind. -/
def getOrCreate (kind : Kind) : Simulation × Except CacheError Unit :=
  let (result, answer) := s.cache.getOrCreate kind
  (s.take result, answer)

/-- Registers an observed callback on the entry of a kind; answers with its number. -/
def register (kind : Kind) (name : String) (o : ObservedCallback) : Simulation × Nat :=
  let id := s.cache.nextCallback
  ({ s with callbacks := s.callbacks.insert id o }.take (s.cache.register kind name), id)

/-- Starts a source with an observed handler. -/
def startSource (source : Source) (o : ObservedCallback) :
    Simulation × Except SourceError Source :=
  let (result, answer) := source.start s.cache
  match answer with
  | .error cause => (s, .error cause)
  | .ok started =>
    match started.callback? with
    | some id => ({ s with callbacks := s.callbacks.insert id o }.take result, .ok started)
    | none => (s.take result, .ok started)

/-- Emits events to the subscribers directly. -/
def emitAll (events : List RuntimeEvent) : Simulation :=
  events.foldl (fun s e ↦ s.take (s.cache.onSubscribers (s.cache.subscribers.emit e))) s

/-- Closes the queues of the subscribers; answers whether all of them have finished. -/
def closeSubscribers : Simulation × Bool :=
  let s := (s.take (s.cache.onSubscribers s.cache.subscribers.close)).rest
  (s, s.cache.subscribers.allEnded)

/-! ### Time and shutdown -/

/-- Lets time pass. -/
def advance (ms : Nat) : Simulation :=
  let till := s.now + ms
  (s.wait (fun s ↦ (s, if till ≤ s.now then some () else none)) till).1

/-- Waits until the first listings of some kinds have been applied, at most so long; there is no
answer when that time is over. -/
def waitSync (kinds : List Kind) (ms : Nat) : Simulation × Option Bool :=
  s.wait (fun s ↦ (s, s.cache.syncAnswer? kinds)) (s.now + ms)

/-- Shuts down; there is no answer when that takes longer than a caller waits. Permits are added as
`permits` says: for a label, so much later, so many. -/
def shutdown (permits : List (String × Nat × Nat)) :
    Simulation × Option (Except ShutdownError Unit) :=
  let s := permits.foldl (fun s (label, after, count) ↦
    s.setAlarm (s.now + after) (.permits label count)) s
  match s.callShutdown .caller with
  | (s, some result) => (s, some result)
  | (s, none) =>
    s.wait (fun s ↦ let s := s.stepShutdown; (s, s.cache.shutdownResult?)) (s.now + longest)

/-- Starts a call that waits for a signal to stop. -/
def startGuard : Simulation :=
  { s with guards := s.guards ++ [Guard.watching false] }.wake .guards

/-- Delivers a signal to stop. Nothing notices it but the calls that wait for one. -/
def signal : Simulation :=
  { s with guards := s.guards.map Guard.notice }.wake .guards

/-- Waits for the last call that was started to wait for a signal; there is no answer when that
takes longer than a caller waits. -/
def join : Simulation × Option (Except ShutdownError Unit) :=
  s.wait (fun s ↦ (s, match s.guards.getLast? with
    | some (.done result) => some result
    | _ => none)) (s.now + longest)

/-! ### What was recorded -/

/-- What happened since the last collection, each list in the order in which it happened. -/
structure Collected where
  /-- What callbacks recorded, by label. -/
  recordings : List (String × Recording)
  /-- What the recorder found on the bus. -/
  events : List (Received RuntimeEvent)
  /-- What subscribers recorded, by name. -/
  seen : List (String × RuntimeEvent)
  logs : List LogRecord

/-- Takes out what was recorded. -/
def collect : Simulation × Collected :=
  let (bus, events) := s.cache.bus.drain recorder
  ({ s with cache := { s.cache with bus }, recordings := [], seen := [], logged := [] },
    { recordings := s.recordings.reverse
      events
      seen := s.seen.reverse
      logs := s.logged.reverse.map LogRecord.ofEvent })

/-- Sorts by two texts and keeps the order among equals. -/
def sortBy {α : Type} (key : α → Option String × Option String) (xs : List α) : List α :=
  let texts (x : α) : String × String := ((key x).1.getD "", (key x).2.getD "")
  xs.mergeSort fun a b ↦
    (compareLex (compareOn Prod.fst) (compareOn Prod.snd) (texts a) (texts b)).isLE

/-- The events of a collection by kind and source, since events of different kinds and callbacks are
not ordered against each other. -/
def Collected.bySource (c : Collected) : Collected where
  recordings := c.recordings
  events := sortBy (fun
    | .event e => (e.kind?, e.source?)
    | _ => (none, none)) c.events
  seen := sortBy (fun x ↦ (x.2.kind?, x.2.source?)) c.seen
  logs := sortBy (fun r ↦ (r.text? "gvk", r.text? "source")) c.logs

end Informer.Simulation
