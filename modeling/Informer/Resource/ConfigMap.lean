import Informer.Resource.Basic

/-!
# Config maps

A resource of the core group that holds texts under names.
-/

namespace Informer

/-- A config map. -/
structure ConfigMap where
  metadata : Metadata
  data : Decode.TextMap := ∅
deriving DecidableEq, Inhabited

namespace ConfigMap

/-- The fields of a written config map. -/
def fields : List (Decode.Field ConfigMap) := [
  ⟨"metadata", true, fun v c ↦ do return { c with metadata := ← Metadata.decode v }⟩,
  ⟨"data", false, fun v c ↦ do return { c with data := ← Decode.textMap v }⟩]

/-- The written form of a config map; its data is written also when empty. -/
def encode (c : ConfigMap) : Json :=
  .object [("data", Metadata.encodeTexts c.data), ("metadata", c.metadata.encode)]

instance : Resource ConfigMap where
  kind := ⟨"", "v1", "ConfigMap"⟩
  decode := Decode.record "ConfigMap" fields { metadata := {} }
  encode := encode
  metadata := ConfigMap.metadata
  setMetadata m c := { c with metadata := m }

end ConfigMap

end Informer
