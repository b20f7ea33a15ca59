import Informer.Proofs.Parts
import Informer.Source

/-!
# Typed and untyped identity

The metadata of an object is decoded twice, once for the object and once inside the typed resource.
Both read the same member of the payload, so they agree (`Object.metadata_of_decode`); a resource is
lawful when that is so and when its metadata can be replaced. The known types of resources are
lawful, since each of them is a record with the metadata as a part (`part_metadata`).
-/

namespace Informer

/-! ### Payloads and their metadata -/

/-- A payload has metadata when it has a member of that name which decodes and holds a name. -/
theorem payloadMetadata_eq_ok_iff {payload : Json} {m : Metadata} :
    payloadMetadata payload = .ok m ↔
      ∃ v, payload.get? "metadata" = some v ∧ Metadata.decode v = .ok m ∧ m.name ≠ "" := by
  rw [payloadMetadata]
  rcases payload.get? "metadata" with - | v
  · simp
  · rcases hd : Metadata.decode v with e | n
    · simp [hd]
    · by_cases hn : n.name = ""
      · simp only [hd, hn, if_true, reduceCtorEq, Option.some.injEq, exists_eq_left', false_iff,
          Except.ok.injEq, not_and]
        rintro rfl
        exact fun h ↦ h hn
      · simp only [hd, hn, if_false, Option.some.injEq, exists_eq_left', Except.ok.injEq]
        exact ⟨fun h ↦ ⟨h, h ▸ hn⟩, fun h ↦ h.1⟩

/-! ### Lawful resources -/

/-- A type of resources whose metadata is that of its payload, and can be replaced. -/
class LawfulResource (α : Type) [Resource α] : Prop where
  metadata_of_decode : ∀ {payload v : Json} {x : α}, Resource.decode payload = .ok x →
    payload.get? "metadata" = some v → Metadata.decode v = .ok (Resource.metadata x)
  metadata_setMetadata : ∀ (m : Metadata) (x : α), Resource.metadata (Resource.setMetadata m x) = m

/-- A record whose metadata is a part of it carries the metadata of its payload. -/
theorem metadata_of_record {α : Type} {record : String} {fields : List (Decode.Field α)}
    {blank x : α} {get : α → Metadata} {set : Metadata → α → α}
    (h : Decode.Part fields "metadata" Metadata.decode get set) {payload v : Json}
    (hx : Decode.record record fields blank payload = .ok x)
    (hv : payload.get? "metadata" = some v) : Metadata.decode v = .ok (get x) := by
  cases payload with
  | object members =>
    have hpart := h.of_readMembers (Decode.readMembers_of_record hx)
    rw [Json.get?_object] at hv
    rw [hv] at hpart
    exact hpart
  | _ => cases hv

/-- In a record of two fields, the metadata and a part that does not touch it, the metadata is a
part. -/
theorem part_metadata {α β : Type} {name : String} {required : Bool}
    (decode : Json → Except DecodeError β) (get : α → Metadata) (set : Metadata → α → α)
    (put : β → α → α) (hname : name ≠ "metadata") (get_set : ∀ m x, get (set m x) = m)
    (set_get : ∀ x, set (get x) x = x) (set_set : ∀ m n x, set m (set n x) = set m x)
    (put_set : ∀ b m x, put b (set m x) = set m (put b x)) :
    Decode.Part [⟨"metadata", true, fun v x ↦ do return set (← Metadata.decode v) x⟩,
      ⟨name, required, fun v x ↦ do return put (← decode v) x⟩]
      "metadata" Metadata.decode get set where
  get_set := get_set
  set_get := set_get
  set_set := set_set
  present := ⟨_, List.mem_cons_self, rfl⟩
  own field hf hn v x := by
    simp only [List.mem_cons, List.not_mem_nil, or_false] at hf
    rcases hf with rfl | rfl
    · rfl
    · exact absurd hn hname
  other field hf hn v b x := by
    simp only [List.mem_cons, List.not_mem_nil, or_false] at hf
    rcases hf with rfl | rfl
    · exact absurd rfl hn
    · exact Decode.read_comm (fun c ↦ put_set c b x) (decode v)

theorem Widget.part_metadata : Decode.Part Widget.fields "metadata" Metadata.decode
    Widget.metadata (fun m w ↦ { w with metadata := m }) :=
  Informer.part_metadata WidgetSpec.decode Widget.metadata _ (fun spec w ↦ { w with spec })
    (by decide) (fun _ _ ↦ rfl) (fun _ ↦ rfl) (fun _ _ _ ↦ rfl) (fun _ _ _ ↦ rfl)

theorem Deployment.part_metadata : Decode.Part Deployment.fields "metadata" Metadata.decode
    Deployment.metadata (fun m d ↦ { d with metadata := m }) :=
  Informer.part_metadata DeploymentSpec.decode Deployment.metadata _
    (fun spec d ↦ { d with spec }) (by decide) (fun _ _ ↦ rfl) (fun _ ↦ rfl) (fun _ _ _ ↦ rfl)
    (fun _ _ _ ↦ rfl)

theorem ConfigMap.part_metadata : Decode.Part ConfigMap.fields "metadata" Metadata.decode
    ConfigMap.metadata (fun m c ↦ { c with metadata := m }) :=
  Informer.part_metadata Decode.textMap ConfigMap.metadata _ (fun data c ↦ { c with data })
    (by decide) (fun _ _ ↦ rfl) (fun _ ↦ rfl) (fun _ _ _ ↦ rfl) (fun _ _ _ ↦ rfl)

instance : LawfulResource Widget where
  metadata_of_decode hx hv := metadata_of_record Widget.part_metadata hx hv
  metadata_setMetadata _ _ := rfl

instance : LawfulResource Deployment where
  metadata_of_decode hx hv := metadata_of_record Deployment.part_metadata hx hv
  metadata_setMetadata _ _ := rfl

instance : LawfulResource ConfigMap where
  metadata_of_decode hx hv := metadata_of_record ConfigMap.part_metadata hx hv
  metadata_setMetadata _ _ := rfl

instance : (k : Known) → LawfulResource k.Carrier
  | .widget => inferInstanceAs (LawfulResource Widget)
  | .deployment => inferInstanceAs (LawfulResource Deployment)
  | .configMap => inferInstanceAs (LawfulResource ConfigMap)

variable {α : Type} [Resource α] [LawfulResource α]

/-- A resource that an object decodes as carries the metadata of the object. -/
theorem Object.metadata_of_decode {o : Object} {x : α} (h : o.decode α = .ok x) :
    Resource.metadata x = o.metadata := by
  obtain ⟨v, hv, hm, -⟩ := payloadMetadata_eq_ok_iff.1 o.identified
  have hx : Resource.decode o.payload = .ok x := by
    unfold decode at h
    split at h
    · next y hy => rw [hy, Except.ok.inj h]
    · cases h
  exact Except.ok.inj ((LawfulResource.metadata_of_decode hx hv).symm.trans hm)

theorem metadata_tombstone (x : α) :
    Resource.metadata (tombstone x) = (Resource.metadata x).clearVolatile :=
  LawfulResource.metadata_setMetadata _ x

end Informer
