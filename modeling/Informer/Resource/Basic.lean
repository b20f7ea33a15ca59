import Informer.Object

/-!
# Typed resources

A `Resource` is a type of objects of one kind: it can be decoded from a payload and written, and it
carries metadata.
-/

namespace Informer

/-- A type of remote objects of a fixed kind. -/
class Resource (α : Type) where
  /-- The kind that the type describes. -/
  kind : Kind
  decode : Json → Except DecodeError α
  encode : α → Json
  metadata : α → Metadata
  setMetadata : Metadata → α → α

/-- Decodes the payload of an object as a type of resources. -/
def Object.decode (α : Type) [Resource α] (o : Object) : Except ObjectError α :=
  match Resource.decode o.payload with
  | .ok x => .ok x
  | .error cause => .error (.malformed (Resource.kind α) cause)

/-- The last state of a resource that is gone: its version no longer counts. -/
def tombstone {α : Type} [Resource α] (x : α) : α :=
  Resource.setMetadata (Resource.metadata x).clearVolatile x

end Informer
