import Informer.Proofs.Stamping
import Informer.Resource.Known

/-!
# Written forms decode

What is written decodes as what was written, for metadata (`Metadata.decode_encode`) and for every
known type of resources. Writer and reader are given apart: the writer leaves out what is unset or
empty and puts members in the order of their names, the reader takes members in any order and starts
from a blank record. So one lemma for each way to write a member says that it sets its part, and
that a member which was left out would have set the part to what it is already
(`Part.readMembers_member`).

A member may also be written over a payload. In a record this sets the part and no required field
goes missing (`Part.record_putMember`). With that the known types of resources are written
(`WrittenResource`), which is all that the rest of the library uses of their written forms.
-/

namespace Informer

namespace Decode

/-! ### Values -/

theorem word32_integer (n : UInt32) : word32 (.integer n.toNat) = .ok n := by
  have hrange : (0 : Int) ≤ n.toNat ∧ (n.toNat : Int) < UInt32.size :=
    ⟨Int.natCast_nonneg _, Int.ofNat_lt.2 n.toNat_lt_size⟩
  rw [word32, if_pos hrange, Int.toNat_natCast, UInt32.ofNat_toNat]

theorem int64_integer (n : Int64) : int64 (.integer n.toInt) = .ok n := by
  have hrange : Int64.minValue.toInt ≤ n.toInt ∧ n.toInt ≤ Int64.maxValue.toInt :=
    ⟨n.minValue_le_toInt, n.toInt_le⟩
  rw [int64, if_pos hrange, Int64.ofInt_toInt]

/-- Texts are added in turn. -/
theorem addTexts_map (t : TextMap) (entries : List (String × String)) :
    addTexts t (entries.map fun (name, text) ↦ (name, .string text)) =
      .ok (t.insertMany entries) := by
  induction entries generalizing t with
  | nil => exact congrArg Except.ok Std.ExtTreeMap.insertMany_nil.symm
  | cons entry entries ih =>
    rw [Std.ExtTreeMap.insertMany_cons]
    exact ih (t.insert entry.1 entry.2)

/-- A written map of texts decodes as the map. -/
theorem textMap_encodeTexts (t : TextMap) : textMap (Metadata.encodeTexts t) = .ok t := by
  rw [Metadata.encodeTexts, textMap, addTexts_map, insertMany_toList]

/-! ### Members that may be left out -/

section

variable {α β : Type} {fields : List (Field α)} {name : String}

/-- A member that is written only when it is set: it decodes into its part, and is left out only if
the part holds that already. -/
theorem Part.readMembers_member {decode : Json → Except DecodeError β} {get : α → β}
    {set : β → α → α} (h : Part fields name decode get set) {v? : Option Json} {b : β} {x : α}
    (hset : ∀ v, v? = some v → decode v = .ok b) (hunset : v? = none → get x = b)
    (ms : List (String × Json)) :
    readMembers fields (Metadata.member name v? ++ ms) x = readMembers fields ms (set b x) := by
  rcases v? with - | v
  · rw [Metadata.member, List.nil_append, ← hunset rfl, h.set_get]
  · rw [Metadata.member, List.singleton_append, h.readMembers_cons_self, hset v rfl]
    rfl

/-- A member for an optional part. -/
theorem Part.readMembers_option {decode : Json → Except DecodeError β} {encode : β → Json}
    {get : α → Option β} {set : Option β → α → α} (h : Part fields name (nullable decode) get set)
    (hencode : ∀ b, nullable decode (encode b) = .ok (some b)) {x : α} (hblank : get x = none)
    (b? : Option β) (ms : List (String × Json)) :
    readMembers fields (Metadata.member name (b?.map encode) ++ ms) x =
      readMembers fields ms (set b? x) := by
  refine h.readMembers_member (fun v hv ↦ ?_) (fun hnone ↦ ?_) ms
  · obtain ⟨b, rfl, rfl⟩ := Option.map_eq_some_iff.1 hv
    exact hencode b
  · rw [hblank, Option.map_eq_none_iff.1 hnone]

/-- A member for a map of texts. -/
theorem Part.readMembers_texts {get : α → TextMap} {set : TextMap → α → α}
    (h : Part fields name textMap get set) {x : α} (hblank : get x = ∅) (t : TextMap)
    (ms : List (String × Json)) :
    readMembers fields
        (Metadata.member name (if t.isEmpty then none else some (Metadata.encodeTexts t)) ++ ms) x =
      readMembers fields ms (set t x) := by
  refine h.readMembers_member (fun v hv ↦ ?_) (fun hnone ↦ ?_) ms
  · obtain ⟨-, ⟨⟩⟩ := Option.ite_none_left_eq_some.1 hv
    exact textMap_encodeTexts t
  · have hempty : t = ∅ := by simpa using hnone
    rw [hblank, hempty]

end

end Decode

namespace Metadata

open Decode (Part nullable)

/-- The generation is a part of written metadata. -/
theorem part_generation : Part fields "generation" (nullable Decode.int64) generation?
    (fun generation? m ↦ { m with generation? }) := by
  refine .of_fields (fun _ _ ↦ rfl) (fun _ ↦ rfl) (fun _ _ _ ↦ rfl) (by simp [fields]) ?_
  simp only [fields, List.forall_mem_cons]
  refine ⟨?_, ?_, ?_, ?_, .inl ⟨trivial, fun _ _ ↦ rfl⟩, ?_, ?_, List.forall_mem_nil _⟩
  all_goals exact .inr ⟨by decide, fun _ _ _ ↦ Decode.read_comm (by exact fun _ ↦ rfl) _⟩

/-- The labels are a part of written metadata. -/
theorem part_labels : Part fields "labels" Decode.textMap labels
    (fun labels m ↦ { m with labels }) := by
  refine .of_fields (fun _ _ ↦ rfl) (fun _ ↦ rfl) (fun _ _ _ ↦ rfl) (by simp [fields]) ?_
  simp only [fields, List.forall_mem_cons]
  refine ⟨?_, ?_, ?_, ?_, ?_, .inl ⟨trivial, fun _ _ ↦ rfl⟩, ?_, List.forall_mem_nil _⟩
  all_goals exact .inr ⟨by decide, fun _ _ _ ↦ Decode.read_comm (by exact fun _ ↦ rfl) _⟩

/-- The annotations are a part of written metadata. -/
theorem part_annotations : Part fields "annotations" Decode.textMap annotations
    (fun annotations m ↦ { m with annotations }) := by
  refine .of_fields (fun _ _ ↦ rfl) (fun _ ↦ rfl) (fun _ _ _ ↦ rfl) (by simp [fields]) ?_
  simp only [fields, List.forall_mem_cons]
  refine ⟨?_, ?_, ?_, ?_, ?_, ?_, .inl ⟨trivial, fun _ _ ↦ rfl⟩, List.forall_mem_nil _⟩
  all_goals exact .inr ⟨by decide, fun _ _ _ ↦ Decode.read_comm (by exact fun _ ↦ rfl) _⟩

theorem nullable_text (s : String) : nullable Decode.text (.string s) = .ok (some s) := rfl

theorem nullable_int64 (n : Int64) : nullable Decode.int64 (.integer n.toInt) = .ok (some n) :=
  congrArg (Except.map some) (Decode.int64_integer n)

/-- **Written metadata decode as what was written.** -/
theorem decode_encode (m : Metadata) : decode m.encode = .ok m := by
  rw [encode, decode_object]
  simp only [List.append_assoc]
  rw [part_annotations.readMembers_texts rfl, part_generation.readMembers_option nullable_int64 rfl,
    part_labels.readMembers_texts rfl, List.singleton_append, part_name.readMembers_cons_self,
    Decode.text]
  show Decode.readMembers fields (_ ++ (_ ++ _)) _ = _
  rw [part_ns.readMembers_option nullable_text rfl,
    part_version.readMembers_option nullable_text rfl, ← List.append_nil (member "uid" _),
    part_uid.readMembers_option nullable_text rfl]
  rfl

end Metadata

namespace Decode

variable {α β : Type} {record : String} {fields : List (Field α)} {blank x : α}
  {members : List (String × Json)}

@[simp] theorem ok_bind {a : α} {f : α → Except DecodeError β} : (Except.ok a >>= f) = f a := rfl

/-- A record decodes from members that can be read and name its required fields. -/
theorem record_of_readMembers (hr : readMembers fields members blank = .ok x)
    (hrequired : ∀ field ∈ fields, field.required = true →
      Json.member? field.name members ≠ none) :
    Decode.record record fields blank (.object members) = .ok x := by
  have hnone : fields.find? (fun field ↦ field.required &&
      (Json.member? field.name members).isNone) = none := by
    refine List.find?_eq_none.2 fun field hf ↦ ?_
    cases hreq : field.required with
    | false => simp
    | true => simpa using hrequired field hf hreq
  rw [Decode.record, hr, hnone]
  rfl

/-- The members that a record decoded from name its required fields. -/
theorem member?_ne_none_of_record (h : Decode.record record fields blank (.object members) = .ok x)
    {field : Field α} (hf : field ∈ fields) (hrequired : field.required = true) :
    Json.member? field.name members ≠ none := by
  have hr := readMembers_of_record h
  rw [Decode.record, hr] at h
  rcases hfind : fields.find? (fun field ↦ field.required &&
      (Json.member? field.name members).isNone) with - | missing
  · simpa [hrequired] using List.find?_eq_none.1 hfind field hf
  · rw [hfind] at h
    cases h

/-- **Writing a member of a record sets its part and changes nothing else.** -/
theorem Part.record_putMember {name : String} {decode : Json → Except DecodeError β} {get : α → β}
    {set : β → α → α} (hpart : Part fields name decode get set)
    (h : Decode.record record fields blank (.object members) = .ok x) {v : Json} {b : β}
    (hv : decode v = .ok b) :
    Decode.record record fields blank (.object (Json.putMember name v members)) =
      .ok (set b x) := by
  refine record_of_readMembers (hpart.readMembers_putMember hv (readMembers_of_record h)) ?_
  intro field hf hrequired
  by_cases hname : field.name = name
  · rw [hname, Json.member?_putMember_self]
    exact Option.some_ne_none v
  · rw [Json.member?_putMember_of_ne hname]
    exact member?_ne_none_of_record h hf hrequired

end Decode

/-! ### Resources -/

theorem WidgetSpec.decode_encode (n : UInt32) :
    WidgetSpec.decode (.object [("size", .integer n.toNat)]) = .ok ⟨n⟩ :=
  Decode.record_of_readMembers (by simp [Decode.readMembers, Decode.word32_integer]) (by simp)

theorem DeploymentSpec.decode_encode (s : DeploymentSpec) :
    DeploymentSpec.decode (.object [("image", .string s.image),
      ("replicas", .integer s.replicas.toNat)]) = .ok s :=
  Decode.record_of_readMembers
    (by simp [Decode.readMembers, Decode.text, Decode.word32_integer]) (by simp [Json.member?])

theorem Widget.decode_encode (w : Widget) : Resource.decode w.encode = .ok w :=
  Decode.record_of_readMembers
    (by simp [Decode.readMembers, fields, Metadata.decode_encode, WidgetSpec.decode_encode])
    (by simp [fields, Json.member?])

theorem Deployment.decode_encode (d : Deployment) : Resource.decode d.encode = .ok d :=
  Decode.record_of_readMembers
    (by simp [Decode.readMembers, fields, Metadata.decode_encode, DeploymentSpec.decode_encode])
    (by simp [fields, Json.member?])

theorem ConfigMap.decode_encode (c : ConfigMap) : Resource.decode c.encode = .ok c :=
  Decode.record_of_readMembers
    (by simp [Decode.readMembers, fields, Metadata.decode_encode, Decode.textMap_encodeTexts])
    (by simp [fields, Json.member?])

/-- A type of resources whose written form stands for the resource: it decodes as what was written
and carries its metadata as they are written, and metadata that are written over those of a payload
become those of the resource. -/
class WrittenResource (α : Type) [Resource α] : Prop extends LawfulResource α where
  decode_encode : ∀ x : α, Resource.decode (Resource.encode x) = .ok x
  get?_encode : ∀ x : α,
    (Resource.encode x).get? "metadata" = some (Resource.metadata x).encode
  decode_putMember : ∀ {members : List (String × Json)} {x : α} {v : Json} {m : Metadata},
    Resource.decode (.object members) = .ok x → Metadata.decode v = .ok m →
      Resource.decode (.object (Json.putMember "metadata" v members)) =
        .ok (Resource.setMetadata m x)
  setMetadata_setMetadata : ∀ (m n : Metadata) (x : α),
    Resource.setMetadata m (Resource.setMetadata n x) = Resource.setMetadata m x

instance : WrittenResource Widget where
  decode_encode := Widget.decode_encode
  get?_encode _ := rfl
  decode_putMember hx hv := Widget.part_metadata.record_putMember hx hv
  setMetadata_setMetadata _ _ _ := rfl

instance : WrittenResource Deployment where
  decode_encode := Deployment.decode_encode
  get?_encode _ := rfl
  decode_putMember hx hv := Deployment.part_metadata.record_putMember hx hv
  setMetadata_setMetadata _ _ _ := rfl

instance : WrittenResource ConfigMap where
  decode_encode := ConfigMap.decode_encode
  get?_encode _ := rfl
  decode_putMember hx hv := ConfigMap.part_metadata.record_putMember hx hv
  setMetadata_setMetadata _ _ _ := rfl

instance : (k : Known) → WrittenResource k.Carrier
  | .widget => inferInstanceAs (WrittenResource Widget)
  | .deployment => inferInstanceAs (WrittenResource Deployment)
  | .configMap => inferInstanceAs (WrittenResource ConfigMap)

end Informer
