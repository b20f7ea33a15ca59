import Informer.Fanout
import Informer.Store

/-!
# Cache entries

The entry of a kind: its store, its callbacks, whether its first listing has been applied, and where
its list-and-watch loop stands. Every change of the store goes to all callbacks in the same step, so
each of them sees the changes in the order in which the store made them; a callback that is
registered later first receives what the store holds.
-/

namespace Informer

/-- Where the list-and-watch loop of a kind stands. -/
inductive Reflector where
  /-- It has not run yet. -/
  | fresh
  /-- It waits for the answer to a list call. -/
  | listing
  /-- It waits for the answer to a watch call. -/
  | opening
  /-- It reads a watch stream, and delivers everything again when the tick is due. -/
  | following (stream : Nat) (tick? : Option Nat)
  /-- It pauses before it lists again. -/
  | pausing (till : Nat)
  | ended
deriving DecidableEq

namespace Reflector

/-- The time at which the loop goes on by itself. -/
def due? : Reflector → Option Nat
  | following _ tick? => tick?
  | pausing till => some till
  | _ => none

/-- The stream that the loop reads. -/
def stream? : Reflector → Option Nat
  | following stream _ => some stream
  | _ => none

end Reflector

/-- The shared state of one kind. -/
structure Entry where
  kind : Kind
  store : Store := {}
  callbacks : Fanout
  /-- Whether the first listing has been applied. -/
  synced : Bool := false
  reflector : Reflector := .fresh

namespace Entry

/-- The entry of a kind of which nothing is known yet. -/
def empty (kind : Kind) (backlog? : Option Nat) : Entry where
  kind := kind
  callbacks := { kind, backlog? }

variable (e : Entry)

/-- Changes the callbacks. -/
def withCallbacks (result : Fanout × List Effect) : Entry × List Effect :=
  ({ e with callbacks := result.1 }, result.2)

/-- Sets the store and passes on what it reported. -/
def report (store : Store) (notifications : List Notification) : Entry × List Effect :=
  { e with store }.withCallbacks (e.callbacks.dispatchAll notifications)

/-- Registers a callback, which first receives what the store holds. -/
def register (id : Nat) (name : String) : Entry × List Effect :=
  e.withCallbacks (e.callbacks.register id name e.store.replay)

/-- Applies one change. -/
def apply (change : Change) : Entry × List Effect :=
  e.report (e.store.apply change).1 [(e.store.apply change).2]

/-- Applies a full listing. -/
def replace (listed : List Object) : Entry × List Effect :=
  e.report (e.store.replace listed).1 (e.store.replace listed).2

/-- Delivers every held object again. -/
def resync : Entry × List Effect := e.report e.store e.store.resync

/-- How a debug text shows an entry. -/
def debug : String :=
  "CacheEntry \x7b gvk: " ++ e.kind.debug ++ ", synced: " ++ toString e.synced ++ ", .. \x7d"

end Entry

end Informer
