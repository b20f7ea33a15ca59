import Informer.Kind
import Informer.Key

/-!
# Runtime events

Diagnostics about the machinery itself: watches, dropped notifications, handlers, subscribers and
shutdown. What an event refers to is rendered when the event is made.
-/

namespace Informer

/-- What a runtime event is about. -/
inductive Topic where
  /-- An entry was created and its listener started. -/
  | watchStarted
  /-- The first listing of an entry was applied. -/
  | cacheSynced
  /-- A watch failed or was refused. -/
  | watchFailed
  /-- A watch ended without an error. -/
  | watchClosed
  /-- A list call failed. -/
  | listFailed
  /-- Every held object was delivered again. -/
  | resynced
  /-- A notification could not be interpreted and was dropped. -/
  | notificationDropped
  /-- A source registered its callback. -/
  | sourceStarted
  /-- As many notifications as the threshold wait for one callback. -/
  | callbackBacklog
  /-- A callback panicked; its worker goes on. -/
  | callbackPanicked
  /-- A subscriber missed an event. -/
  | subscriberOverflow
  /-- A subscriber panicked; its worker goes on. -/
  | subscriberPanicked
  /-- The stop signal was given. -/
  | shutdownRequested
  /-- Everything stopped within the grace period. -/
  | allStoppedWithin
  /-- Something was still running when the grace period ended. -/
  | graceExceeded
deriving DecidableEq

namespace Topic

/-- All topics. -/
def all : List Topic := [watchStarted, cacheSynced, watchFailed, watchClosed, listFailed, resynced,
  notificationDropped, sourceStarted, callbackBacklog, callbackPanicked, subscriberOverflow,
  subscriberPanicked, shutdownRequested, allStoppedWithin, graceExceeded]

/-- The name of a topic. -/
def name : Topic → String
  | watchStarted => "WatchStarted"
  | cacheSynced => "CacheSynced"
  | watchFailed => "WatchFailed"
  | watchClosed => "WatchClosed"
  | listFailed => "ListFailed"
  | resynced => "Resynced"
  | notificationDropped => "TranslationFailed"
  | sourceStarted => "SourceStarted"
  | callbackBacklog => "CallbackBacklog"
  | callbackPanicked => "CallbackPanicked"
  | subscriberOverflow => "SubscriberOverflow"
  | subscriberPanicked => "SubscriberPanicked"
  | shutdownRequested => "ShutdownRequested"
  | allStoppedWithin => "AllStoppedWithin"
  | graceExceeded => "GraceExceeded"

/-- The topic with a name. -/
def ofName? (name : String) : Option Topic := all.find? (·.name = name)

end Topic

/-- One diagnostic. -/
structure RuntimeEvent where
  topic : Topic
  /-- The kind that the event refers to. -/
  kind? : Option String := none
  /-- The key of the object that the event refers to. -/
  object? : Option String := none
  /-- The source, callback or subscriber involved. -/
  source? : Option String := none
  reason? : Option String := none
  /-- A number of objects or notifications. -/
  count? : Option Nat := none
deriving DecidableEq

namespace RuntimeEvent

/-- Whether the event reports a missed event; such an event is never reported as missed itself. -/
def isOverflow (e : RuntimeEvent) : Bool := e.topic = .subscriberOverflow

/-! ### The events of a watch -/

/-- A watch on a kind has started. -/
def watchStarted (kind : Kind) : RuntimeEvent := { topic := .watchStarted, kind? := kind.display }

/-- The first listing, of `count` objects, was applied. -/
def cacheSynced (kind : Kind) (count : Nat) : RuntimeEvent :=
  { topic := .cacheSynced, kind? := kind.display, count? := count }

/-- A watch failed. -/
def watchFailed (kind : Kind) (reason : String) : RuntimeEvent :=
  { topic := .watchFailed, kind? := kind.display, reason? := reason }

/-- A watch ended. -/
def watchClosed (kind : Kind) : RuntimeEvent := { topic := .watchClosed, kind? := kind.display }

/-- A list call failed. -/
def listFailed (kind : Kind) (reason : String) : RuntimeEvent :=
  { topic := .listFailed, kind? := kind.display, reason? := reason }

/-- All `count` held objects were delivered again. -/
def resynced (kind : Kind) (count : Nat) : RuntimeEvent :=
  { topic := .resynced, kind? := kind.display, count? := count }

/-- A payload has no identity and was dropped. -/
def payloadDropped (kind : Kind) (reason : String) : RuntimeEvent :=
  { topic := .notificationDropped, kind? := kind.display, reason? := reason }

/-! ### The events of callbacks and sources -/

/-- A source started. -/
def sourceStarted (kind : Kind) (source : String) : RuntimeEvent :=
  { topic := .sourceStarted, kind? := kind.display, source? := source }

/-- A notification does not translate for a source. -/
def notificationDropped (kind : Kind) (source : String) (key : Key) (reason : String) :
    RuntimeEvent :=
  { topic := .notificationDropped, kind? := kind.display, object? := key.display, source? := source,
    reason? := reason }

/-- As many as `count` notifications wait for a callback. -/
def callbackBacklog (kind : Kind) (callback : String) (count : Nat) : RuntimeEvent :=
  { topic := .callbackBacklog, kind? := kind.display, source? := callback, count? := count }

/-- A callback panicked on an object. -/
def callbackPanicked (kind : Kind) (callback : String) (key : Key) (reason : String) :
    RuntimeEvent :=
  { topic := .callbackPanicked, kind? := kind.display, object? := key.display, source? := callback,
    reason? := reason }

/-! ### The events of subscribers and shutdown -/

/-- A subscriber missed an event. -/
def subscriberOverflow (subscriber reason : String) : RuntimeEvent :=
  { topic := .subscriberOverflow, source? := subscriber, reason? := reason }

/-- A subscriber panicked. -/
def subscriberPanicked (subscriber reason : String) : RuntimeEvent :=
  { topic := .subscriberPanicked, source? := subscriber, reason? := reason }

/-- The stop signal was given. -/
def shutdownRequested : RuntimeEvent := { topic := .shutdownRequested }

/-- Everything stopped in time. -/
def allStoppedWithin : RuntimeEvent := { topic := .allStoppedWithin }

/-- Something did not stop in time. -/
def graceExceeded : RuntimeEvent := { topic := .graceExceeded }

end RuntimeEvent

end Informer
