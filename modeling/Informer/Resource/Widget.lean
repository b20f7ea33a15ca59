import Informer.Resource.Basic

/-!
# Widgets

A resource with a size, which may be left out, as may the whole specification.
-/

namespace Informer

/-- The specification of a widget. -/
structure WidgetSpec where
  size : UInt32 := 0
deriving DecidableEq, Inhabited

/-- A widget. -/
structure Widget where
  metadata : Metadata
  spec : WidgetSpec := {}
deriving DecidableEq, Inhabited

/-- Decodes the specification of a widget. -/
def WidgetSpec.decode : Json → Except DecodeError WidgetSpec :=
  Decode.record "WidgetSpec" [⟨"size", false, fun v _ ↦ do return { size := ← Decode.word32 v }⟩] {}

namespace Widget

/-- The fields of a written widget. -/
def fields : List (Decode.Field Widget) := [
  ⟨"metadata", true, fun v w ↦ do return { w with metadata := ← Metadata.decode v }⟩,
  ⟨"spec", false, fun v w ↦ do return { w with spec := ← WidgetSpec.decode v }⟩]

/-- The written form of a widget. -/
def encode (w : Widget) : Json :=
  .object [("metadata", w.metadata.encode),
    ("spec", .object [("size", .integer w.spec.size.toNat)])]

instance : Resource Widget where
  kind := ⟨"test.example.com", "v1", "Widget"⟩
  decode := Decode.record "Widget" fields { metadata := {} }
  encode := encode
  metadata := Widget.metadata
  setMetadata m w := { w with metadata := m }

end Widget

end Informer
