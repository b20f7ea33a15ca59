import Informer.Simulation.Double
import Informer.Transport.Registry
import Informer.Transport.Script

/-!
# Simulated runs

A cache with a transport, a clock that moves only when told to, and consumers under observation. One
task runs at a time, until it has to wait; the others that may run stand in a queue in the order in
which they were woken.

This module holds the state of a run and what effects do to it.
-/

namespace Informer.Simulation

/-- The remote side of a run. -/
inductive Remote where
  | registry (r : Registry)
  | script (s : Script)

namespace Remote

/-- The streams of the remote side. -/
def streams : Remote → Streams
  | registry r => r.streams
  | script s => s.streams

/-- Changes the streams of the remote side. -/
def setStreams (streams : Streams) : Remote → Remote
  | registry r => registry { r with streams }
  | script s => script { s with streams }

/-- Makes a call. The answer is a signal for the loop that made it, if there ever is one. -/
def call (kind : Kind) : Call → Remote → Remote × Option Signal
  | .list, registry r =>
    let (r, result) := r.list kind
    (registry r, some (.listed result))
  | .watch version?, registry r =>
    let (r, result) := r.watch kind version?
    (registry r, some (.opened result))
  | .list, script s => match s.list kind with
    | (s, .reply result) => (script s, some (.listed result))
    | (s, .silence) => (script s, none)
  | .watch version?, script s => match s.watch kind version? with
    | (s, .reply result) => (script s, some (.opened result))
    | (s, .silence) => (script s, none)

end Remote

/-- What happens when a time comes. -/
inductive Alarm where
  /-- A task goes on. -/
  | task (t : Task)
  /-- Permits are added. -/
  | permits (label : String) (count : Nat)
  /-- The caller of the run looks again. -/
  | caller
deriving DecidableEq

/-- A call that waits for a signal to stop. -/
inductive Guard where
  | watching (signalled : Bool)
  /-- It has begun the shutdown. -/
  | stopping
  | done (result : Except ShutdownError Unit)

/-- What a signal to stop makes of such a call. -/
def Guard.notice : Guard → Guard
  | watching _ => watching true
  | g => g

end Simulation

/-- A run of a cache. -/
structure Simulation where
  cache : Cache
  remote : Simulation.Remote
  /-- The time, in milliseconds. -/
  now : Nat := 0
  /-- The tasks that may run, in the order in which they were woken. -/
  ready : List Task := []
  /-- The task that is running. -/
  running : Option Task := none
  /-- What is due when, in the order in which it was asked for. -/
  alarms : List (Nat × Simulation.Alarm) := []
  /-- Answers of the remote side that the loop of a kind has not yet taken. -/
  answers : Std.ExtTreeMap Kind Signal := ∅
  callbacks : Std.ExtTreeMap Nat Simulation.ObservedCallback := ∅
  subscribers : List Simulation.ObservedSubscriber := []
  /-- The permits that are left, by label. -/
  permits : Std.ExtTreeMap String Nat := ∅
  /-- The calls that wait for a signal to stop, oldest first. -/
  guards : List Simulation.Guard := []
  /-- When the grace period of the shutdown is over. -/
  graceEnd : Nat := 0
  /-- What callbacks recorded, newest first. -/
  recordings : List (String × Simulation.Recording) := []
  /-- What subscribers recorded, newest first. -/
  seen : List (String × RuntimeEvent) := []
  /-- The events that were logged, newest first. -/
  logged : List RuntimeEvent := []

namespace Simulation

variable (s : Simulation)

/-- Lets a task run after those that may run already; nothing changes for a task that is running or
may run already. -/
def wake (t : Task) : Simulation :=
  if s.running = some t || s.ready.contains t then s else { s with ready := s.ready ++ [t] }

/-- Carries out one effect of a step of the cache. -/
def perform (effect : Effect) : Simulation :=
  match effect with
  | .publish _ => if s.cache.forwarder = .forwarding then s.wake .forwarder else s
  | .wake t => s.wake t
  | .call kind call =>
    let (remote, answer?) := s.remote.call kind call
    match answer? with
    | some answer => { s with remote, answers := s.answers.insert kind answer }
    | none => { s with remote }
  | .release stream => { s with remote := s.remote.setStreams (s.remote.streams.drop stream) }

/-- Takes over a step of the cache. -/
def take (result : Cache × List Effect) : Simulation :=
  result.2.foldl perform { s with cache := result.1 }

/-- Asks for an alarm. -/
def setAlarm (due : Nat) (alarm : Alarm) : Simulation :=
  { s with alarms := s.alarms ++ [(due, alarm)] }

/-- Makes sure that a task is woken when it is due, and at no other time. -/
def setDue (t : Task) (due? : Option Nat) : Simulation :=
  let current? := (s.alarms.find? (·.2 = .task t)).map (·.1)
  if current? = due? then s
  else
    { s with
      alarms := s.alarms.filter (·.2 ≠ .task t) ++ (due?.map fun due ↦ (due, .task t)).toList }

/-- Adds permits and lets those who may wait for them run. -/
def addPermits (label : String) (count : Nat) : Simulation :=
  let s := { s with permits := s.permits.insert label (s.permits[label]?.getD 0 + count) }
  let workers := s.cache.entries.toList.flatMap fun (kind, e) ↦
    (e.callbacks.channels.filter fun c ↦
      (s.callbacks[c.id]?.map (·.label)) = some label && !c.worker.isIdle).map
      fun c ↦ Task.worker kind c.id
  let subscribers := (s.subscribers.zipIdx.filter (·.1.name = label)).map
    fun (_, i) ↦ Task.subscriber i
  (workers ++ subscribers).foldl wake s

/-- Takes a permit, if one is left. -/
def takePermit? (label : String) : Option Simulation :=
  match s.permits[label]? with
  | some (n + 1) => some { s with permits := s.permits.insert label n }
  | _ => none

/-- Keeps what a callback recorded. -/
def record (label : String) (recordings : List Recording) : Simulation :=
  { s with recordings := recordings.reverse.map (label, ·) ++ s.recordings }

end Simulation

end Informer
