import Informer.Notification
import Informer.Resource.Basic

/-!
# Typed object events

What a consumer of one type of resources sees of a notification. Only the current state decides
whether there is an event: an update from a state that does not decode is a creation, since the
consumer never saw the earlier object, and a deletion always gives an event, if need be from the
metadata that the deletion itself carried.
-/

namespace Informer

/-- A change of one typed object. Each state comes with its metadata. -/
inductive ObjectEvent (α : Type) where
  | create (metadata : Metadata) (object : α)
  | update (oldMetadata : Metadata) (old : α) (newMetadata : Metadata) (new : α)
  /-- The object is gone; there is no object when no state of it decodes. -/
  | delete (metadata : Metadata) (object? : Option α)

namespace ObjectEvent

variable {α : Type}

/-- The current metadata. -/
def metadata : ObjectEvent α → Metadata
  | create m _ => m
  | update _ _ m _ => m
  | delete m _ => m

/-- The key of the object. -/
def key (e : ObjectEvent α) : Key := e.metadata.key

/-- The label of the change. -/
def operation : ObjectEvent α → String
  | create _ _ => "create"
  | update _ _ _ _ => "update"
  | delete _ _ => "delete"

variable [Resource α]

/-- The creation of an object. -/
def ofCreated (x : α) : ObjectEvent α := create (Resource.metadata x) x

/-- The deletion of an object whose last state is known. -/
def ofLastKnown (x : α) : ObjectEvent α :=
  delete (Resource.metadata (tombstone x)) (some (tombstone x))

/-- The deletion of an object of which only the deletion itself is known. -/
def ofObserved (observed : Object) : ObjectEvent α :=
  delete observed.metadata.clearVolatile ((observed.decode α).toOption.map tombstone)

/-- The typed event that a notification stands for. -/
def ofNotification : Notification → Except ObjectError (ObjectEvent α)
  | .added o => (o.decode α).map ofCreated
  | .updated old new => do
    let after ← new.decode α
    match old.decode α with
    | .ok before =>
      return update (Resource.metadata before) before (Resource.metadata after) after
    | .error _ => return ofCreated after
  | .deleted (some lastKnown) observed =>
    match lastKnown.decode α with
    | .ok x => .ok (ofLastKnown x)
    | .error _ => .ok (ofObserved observed)
  | .deleted none observed => .ok (ofObserved observed)

end ObjectEvent

end Informer
