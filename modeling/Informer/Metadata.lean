import Informer.Decode
import Informer.Key

/-!
# Object metadata

The block of metadata that every remote object carries: its identity, the version that the store
gives it with every write, and labels. Every field of a written block may be missing; null stands
for an absent optional field and for nothing else.

The version is the only volatile field: it stops being authoritative once the object is gone.
-/

namespace Informer

/-- Identity and versioning of a remote object. -/
structure Metadata where
  name : String := ""
  /-- Absent for cluster-scoped objects. -/
  ns? : Option String := none
  /-- The identifier that the store assigned. -/
  uid? : Option String := none
  /-- Opaque; changed by the store with every write. -/
  version? : Option String := none
  generation? : Option Int64 := none
  labels : Decode.TextMap := ∅
  annotations : Decode.TextMap := ∅
deriving DecidableEq, Inhabited

namespace Metadata

/-- The key under which the object is held. -/
def key (m : Metadata) : Key := ⟨m.ns?, m.name⟩

/-- The metadata of an object that is gone. -/
def clearVolatile (m : Metadata) : Metadata := { m with version? := none }

/-- The metadata, moved to a namespace. -/
def inNamespace (ns : String) (m : Metadata) : Metadata := { m with ns? := some ns }

@[simp] theorem key_clearVolatile (m : Metadata) : m.clearVolatile.key = m.key := rfl

@[simp] theorem version?_clearVolatile (m : Metadata) : m.clearVolatile.version? = none := rfl

/-! ### Written form -/

/-- The fields of written metadata, in declaration order. -/
def fields : List (Decode.Field Metadata) := [
  ⟨"name", false, fun v m ↦ do return { m with name := ← Decode.text v }⟩,
  ⟨"namespace", false, fun v m ↦ do return { m with ns? := ← Decode.nullable Decode.text v }⟩,
  ⟨"uid", false, fun v m ↦ do return { m with uid? := ← Decode.nullable Decode.text v }⟩,
  ⟨"resourceVersion", false, fun v m ↦ do
    return { m with version? := ← Decode.nullable Decode.text v }⟩,
  ⟨"generation", false, fun v m ↦ do
    return { m with generation? := ← Decode.nullable Decode.int64 v }⟩,
  ⟨"labels", false, fun v m ↦ do return { m with labels := ← Decode.textMap v }⟩,
  ⟨"annotations", false, fun v m ↦ do return { m with annotations := ← Decode.textMap v }⟩]

/-- Decodes metadata. -/
def decode : Json → Except DecodeError Metadata := Decode.record "ObjectMeta" fields {}

/-- The written form of a map of texts. -/
def encodeTexts (texts : Decode.TextMap) : Json :=
  .object (texts.toList.map fun (name, text) ↦ (name, .string text))

/-- A member that is written only when it is set. -/
def member (name : String) : Option Json → List (String × Json)
  | some v => [(name, v)]
  | none => []

/-- The written form of metadata: the name always, optional fields when set, maps when not empty. -/
def encode (m : Metadata) : Json :=
  .object (
    member "annotations" (if m.annotations.isEmpty then none else some (encodeTexts m.annotations))
    ++ member "generation" (m.generation?.map fun n ↦ .integer n.toInt)
    ++ member "labels" (if m.labels.isEmpty then none else some (encodeTexts m.labels))
    ++ [("name", .string m.name)]
    ++ member "namespace" (m.ns?.map .string)
    ++ member "resourceVersion" (m.version?.map .string)
    ++ member "uid" (m.uid?.map .string))

end Metadata

end Informer
