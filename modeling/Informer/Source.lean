import Informer.Cache
import Informer.ObjectEvent
import Informer.Resource.Known

/-!
# Sources

A source delivers the changes of one type of resources to one consumer. It is bound to a cache once
and then started once: starting obtains the entry of its kind and registers a callback there. A call
that is refused changes nothing. Caches are told apart by number.

The callback translates each notification into a typed event or reports that it was dropped, one of
the two (`interpret`).
-/

namespace Informer

/-- The phase of a source. -/
inductive SourcePhase where
  | unbound
  /-- It has this cache. -/
  | bound (cache : Nat)
  /-- It runs on this cache, through this callback. -/
  | started (cache callback : Nat)
deriving DecidableEq

/-- The name of a phase. -/
def SourcePhase.name : SourcePhase → String
  | unbound => "Unbound"
  | bound _ => "Bound"
  | started _ _ => "Started"

/-- A source of typed events. -/
structure Source where
  resource : Known
  name : String
  phase : SourcePhase := .unbound

namespace Source

/-- The name of the `n`th source, unless it is given one. -/
def defaultName (resource : Known) (n : Nat) : String := resource.kind.name ++ "#" ++ toString n

variable (s : Source)

/-- The kind whose changes the source delivers. -/
def kind : Kind := s.resource.kind

/-- The cache that the source has. -/
def cache? : Option Nat :=
  match s.phase with
  | .unbound => none
  | .bound cache => some cache
  | .started cache _ => some cache

/-- The callback of a started source. -/
def callback? : Option Nat :=
  match s.phase with
  | .started _ callback => some callback
  | _ => none

/-- Attaches the source to a cache. -/
def bind (cache : Nat) : Except SourceError Source :=
  match s.phase with
  | .unbound => .ok { s with phase := .bound cache }
  | _ => .error (.alreadyBound s.kind)

/-- Starts the source on `c`, the cache that it is bound to. -/
def start (c : Cache) : (Cache × List Effect) × Except SourceError Source :=
  match s.phase with
  | .unbound => ((c, []), .error (.notBound s.kind))
  | .started _ _ => ((c, []), .error (.alreadyStarted s.kind))
  | .bound cache => match c.getOrCreate s.kind with
    | (_, .error cause) => ((c, []), .error (.cache cause))
    | ((c, created), .ok ()) =>
      let callback := c.nextCallback
      let (c, registered) := c.register s.kind s.name
      let (c, announced) := c.emit [.publish (.sourceStarted s.kind s.name)]
      ((c, created ++ registered ++ announced), .ok { s with phase := .started cache callback })

/-- How a debug text shows a source. -/
def debug : String :=
  "KindSource \x7b gvk: " ++ s.kind.debug ++ ", name: " ++ Text.quote s.name ++ ", phase: "
    ++ s.phase.name ++ " \x7d"

/-- What the callback of a source named `name` makes of a notification: the event for its handler,
or the report that the notification was dropped. -/
def interpret (α : Type) [Resource α] (name : String) (n : Notification) :
    Except RuntimeEvent (ObjectEvent α) :=
  match ObjectEvent.ofNotification n with
  | .ok event => .ok event
  | .error cause => .error (.notificationDropped (Resource.kind α) name n.key cause.message)

end Source

end Informer
