import Informer.Resource.Basic

/-!
# Deployments

A resource with a number of replicas and an image, both required.
-/

namespace Informer

/-- The specification of a deployment. -/
structure DeploymentSpec where
  replicas : UInt32
  image : String
deriving DecidableEq, Inhabited

/-- A deployment. -/
structure Deployment where
  metadata : Metadata
  spec : DeploymentSpec
deriving DecidableEq, Inhabited

/-- Decodes the specification of a deployment. -/
def DeploymentSpec.decode : Json → Except DecodeError DeploymentSpec :=
  Decode.record "DeploymentSpec" [
    ⟨"replicas", true, fun v s ↦ do return { s with replicas := ← Decode.word32 v }⟩,
    ⟨"image", true, fun v s ↦ do return { s with image := ← Decode.text v }⟩] ⟨0, ""⟩

namespace Deployment

/-- The fields of a written deployment. -/
def fields : List (Decode.Field Deployment) := [
  ⟨"metadata", true, fun v d ↦ do return { d with metadata := ← Metadata.decode v }⟩,
  ⟨"spec", true, fun v d ↦ do return { d with spec := ← DeploymentSpec.decode v }⟩]

/-- The written form of a deployment. -/
def encode (d : Deployment) : Json :=
  .object [("metadata", d.metadata.encode),
    ("spec", .object [("image", .string d.spec.image),
      ("replicas", .integer d.spec.replicas.toNat)])]

instance : Resource Deployment where
  kind := ⟨"apps", "v1", "Deployment"⟩
  decode := Decode.record "Deployment" fields ⟨{}, 0, ""⟩
  encode := encode
  metadata := Deployment.metadata
  setMetadata m d := { d with metadata := m }

end Deployment

end Informer
