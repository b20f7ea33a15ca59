import Informer.Kind
import Informer.Metadata

/-!
# Untyped objects

An `Object` is a payload together with the metadata that it carries. A payload is an object when its
`metadata` member decodes and holds a name; the rest of the payload is not looked at until a
consumer asks for its own type.

The type keeps that metadata and payload belong together: `Object.identified` is a proof field, and
`Object.ofPayload` is the only way in.
-/

namespace Informer

/-- Why a payload cannot be interpreted. -/
inductive ObjectError where
  /-- There is no metadata that decodes. -/
  | missingMetadata (reason : String)
  /-- The metadata holds no name. -/
  | missingName
  /-- The payload does not have the shape of the expected kind. -/
  | malformed (kind : Kind) (cause : DecodeError)
deriving DecidableEq

namespace ObjectError

/-- The wording of an error. -/
def message : ObjectError → String
  | missingMetadata reason => "object has no valid metadata: " ++ reason
  | missingName => "object metadata has no name"
  | malformed kind cause => "object does not decode as " ++ kind.display ++ ": " ++ cause.message

/-- The stable label of an error. -/
def label : ObjectError → String
  | missingMetadata _ => "translate_missing_metadata"
  | missingName => "translate_missing_name"
  | malformed _ _ => "translate_decode"

end ObjectError

/-- The metadata of a payload, which must decode and hold a name. -/
def payloadMetadata (payload : Json) : Except ObjectError Metadata :=
  match payload.get? "metadata" with
  | none => .error (.missingMetadata "field `metadata` is absent")
  | some v => match Metadata.decode v with
    | .error cause => .error (.missingMetadata cause.message)
    | .ok metadata => if metadata.name = "" then .error .missingName else .ok metadata

/-- A payload with the metadata that it carries. -/
structure Object where
  payload : Json
  metadata : Metadata
  identified : payloadMetadata payload = .ok metadata
deriving DecidableEq

namespace Object

/-- Reads the identity of a payload. -/
def ofPayload (payload : Json) : Except ObjectError Object :=
  match h : payloadMetadata payload with
  | .ok metadata => .ok ⟨payload, metadata, h⟩
  | .error e => .error e

/-- The key under which the object is held. -/
def key (o : Object) : Key := o.metadata.key

/-- The version that the store gave the object, if it gave one. -/
def version? (o : Object) : Option String := o.metadata.version?

/-- Metadata is a function of the payload, so objects with one payload are equal. -/
theorem ext_payload {a b : Object} (h : a.payload = b.payload) : a = b := by
  obtain ⟨p, m, hp⟩ := a
  obtain ⟨q, n, hq⟩ := b
  cases h
  obtain rfl : m = n := Except.ok.inj (hp.symm.trans hq)
  rfl

/-- A payload is read as an object exactly when the object holds that payload. -/
theorem ofPayload_eq_ok_iff {payload : Json} {o : Object} :
    ofPayload payload = .ok o ↔ o.payload = payload := by
  unfold ofPayload
  constructor
  · intro h
    split at h
    · cases h; rfl
    · cases h
  · rintro rfl
    split
    · exact congrArg _ (ext_payload rfl)
    · rename_i e h
      rw [o.identified] at h
      cases h

end Object

end Informer
