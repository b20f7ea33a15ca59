import Informer.RuntimeEvent
import Informer.Transport.Basic

/-!
# Tasks and effects

The parts of a cache are state machines: a step takes a state and returns the next one with the
effects that the step has on other parts, in their order. Nothing else passes between the parts, so
what a part does is all in its steps.

A task is a part that runs by itself until it has to wait. Which task runs when is not decided here.
-/

namespace Informer

/-- What runs by itself. -/
inductive Task where
  /-- The list-and-watch loop of a kind. -/
  | reflector (kind : Kind)
  /-- The worker of a callback. -/
  | worker (kind : Kind) (callback : Nat)
  /-- The worker of a subscriber. -/
  | subscriber (index : Nat)
  /-- The loop that hands runtime events to the subscribers. -/
  | forwarder
  /-- The calls that wait for a signal to stop. -/
  | guards
deriving DecidableEq

/-- What a step does to other parts. -/
inductive Effect where
  /-- Puts a runtime event on the bus. -/
  | publish (event : RuntimeEvent)
  /-- Lets a task run that may be waiting. -/
  | wake (task : Task)
  /-- Makes a call on the remote side. -/
  | call (kind : Kind) (call : Call)
  /-- Lets go of a watch stream. -/
  | release (stream : Nat)
deriving DecidableEq

namespace Effect

/-- The event that an effect publishes. -/
def event? : Effect → Option RuntimeEvent
  | publish e => some e
  | _ => none

/-- The events that a list of effects publishes, in their order. -/
def events (effects : List Effect) : List RuntimeEvent := effects.filterMap event?

@[simp] theorem events_nil : events [] = [] := rfl

@[simp] theorem events_append (as bs : List Effect) : events (as ++ bs) = events as ++ events bs :=
  List.filterMap_append

end Effect

/-- What a worker is doing: waiting for something to handle, handling it, or nothing any more. -/
inductive Worker (α : Type) where
  | idle
  | busy (item : α)
  | ended
deriving DecidableEq

namespace Worker

variable {α : Type}

/-- Whether the worker has ended. -/
def isEnded : Worker α → Bool
  | ended => true
  | _ => false

/-- Whether the worker waits for something to handle. -/
def isIdle : Worker α → Bool
  | idle => true
  | _ => false

end Worker

/-- How the handling of one item ends, when it ends. -/
inductive Outcome where
  | returned
  | panicked (reason : String)
deriving DecidableEq

end Informer
