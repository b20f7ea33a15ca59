import Informer.Proofs.Identity
import Informer.Transport.Registry
import Std.Data.String.ToNat

/-!
# Stamped payloads

What the registry writes into a payload before it stores it. When the metadata of a payload is an
object, stamping sets the identifier and the version of the metadata that the payload decodes with,
and nothing else: so the payload remains an object under the same key (`exists_object_stamp`), and
its version is the decimal form of the version that it was stored under. Two versions with one
decimal form are the same, and so is the version that a decimal form is read as
(`parseVersion?_toString`).
-/

namespace Informer

namespace Metadata

open Decode (Part nullable text)

/-- The name is a part of written metadata. -/
theorem part_name : Part fields "name" text name (fun name m ↦ { m with name }) := by
  refine .of_fields (fun _ _ ↦ rfl) (fun _ ↦ rfl) (fun _ _ _ ↦ rfl) (by simp [fields]) ?_
  simp only [fields, List.forall_mem_cons]
  refine ⟨.inl ⟨trivial, fun _ _ ↦ rfl⟩, ?_, ?_, ?_, ?_, ?_, ?_, nofun⟩
  all_goals exact .inr ⟨by decide, fun _ _ _ ↦ Decode.read_comm (by exact fun _ ↦ rfl) _⟩

/-- The namespace is a part of written metadata. -/
theorem part_ns : Part fields "namespace" (nullable text) ns? (fun ns? m ↦ { m with ns? }) := by
  refine .of_fields (fun _ _ ↦ rfl) (fun _ ↦ rfl) (fun _ _ _ ↦ rfl) (by simp [fields]) ?_
  simp only [fields, List.forall_mem_cons]
  refine ⟨?_, .inl ⟨trivial, fun _ _ ↦ rfl⟩, ?_, ?_, ?_, ?_, ?_, nofun⟩
  all_goals exact .inr ⟨by decide, fun _ _ _ ↦ Decode.read_comm (by exact fun _ ↦ rfl) _⟩

/-- The identifier is a part of written metadata. -/
theorem part_uid : Part fields "uid" (nullable text) uid? (fun uid? m ↦ { m with uid? }) := by
  refine .of_fields (fun _ _ ↦ rfl) (fun _ ↦ rfl) (fun _ _ _ ↦ rfl) (by simp [fields]) ?_
  simp only [fields, List.forall_mem_cons]
  refine ⟨?_, ?_, .inl ⟨trivial, fun _ _ ↦ rfl⟩, ?_, ?_, ?_, ?_, nofun⟩
  all_goals exact .inr ⟨by decide, fun _ _ _ ↦ Decode.read_comm (by exact fun _ ↦ rfl) _⟩

/-- The version is a part of written metadata. -/
theorem part_version : Part fields "resourceVersion" (nullable text) version?
    (fun version? m ↦ { m with version? }) := by
  refine .of_fields (fun _ _ ↦ rfl) (fun _ ↦ rfl) (fun _ _ _ ↦ rfl) (by simp [fields]) ?_
  simp only [fields, List.forall_mem_cons]
  refine ⟨?_, ?_, ?_, .inl ⟨trivial, fun _ _ ↦ rfl⟩, ?_, ?_, ?_, nofun⟩
  all_goals exact .inr ⟨by decide, fun _ _ _ ↦ Decode.read_comm (by exact fun _ ↦ rfl) _⟩

/-- No field of metadata is required, so an object decodes by reading its members. -/
theorem decode_object (block : List (String × Json)) :
    decode (.object block) = Decode.readMembers fields block {} := by
  have hrequired : ∀ field ∈ fields, field.required = false := by simp [fields]
  exact Decode.record_object {} hrequired block

/-- An optional part of metadata is what its last member decodes as; no member is as good as a
null. -/
theorem nullable_of_decode {name : String} {get : Metadata → Option String}
    {set : Option String → Metadata → Metadata} (h : Part fields name (nullable text) get set)
    (hblank : get {} = none) {block : List (String × Json)} {m : Metadata}
    (hm : decode (.object block) = .ok m) :
    nullable text ((Json.member? name block).getD .null) = .ok (get m) := by
  rw [decode_object] at hm
  have hpart := h.of_readMembers hm
  rcases hv : Json.member? name block with - | v
  · rw [hv] at hpart
    exact congrArg Except.ok (hpart.trans hblank).symm
  · rw [hv] at hpart
    exact hpart

end Metadata

namespace Registry

open Decode (Part nullable text)

/-- The metadata of a payload is an object, as every resource writes it. -/
def Standard (payload : Json) : Prop :=
  ∃ block, payload.get? "metadata" = some (.object block)

theorem get?_setMetadata {payload : Json} {block : List (String × Json)}
    (h : payload.get? "metadata" = some (.object block)) (name : String) (v : Json) :
    (setMetadata name v payload).get? "metadata" =
      some (.object (Json.putMember name v block)) := by
  cases payload with
  | object members =>
    rw [Json.get?_object] at h
    rw [setMetadata, h]
    exact Json.member?_putMember_self _ _ _
  | _ => cases h

theorem Standard.setMetadata {payload : Json} (h : Standard payload) (name : String) (v : Json) :
    Standard (setMetadata name v payload) := by
  obtain ⟨block, hblock⟩ := h
  exact ⟨_, get?_setMetadata hblock name v⟩

theorem Standard.stamp {payload : Json} (h : Standard payload) (uid : Json) (version : Nat) :
    Standard (stamp uid version payload) :=
  (h.setMetadata _ _).setMetadata _ _

/-- Writing a part of the metadata that is not its name leaves an object with that part set. -/
theorem exists_object_setMetadata {β : Type} {name : String} {decode : Json → Except DecodeError β}
    {get : Metadata → β} {set : β → Metadata → Metadata}
    (h : Part Metadata.fields name decode get set) (hname : ∀ b m, (set b m).name = m.name)
    {o : Object} (ho : Standard o.payload) {v : Json} {b : β} (hv : decode v = .ok b) :
    ∃ s : Object, s.payload = setMetadata name v o.payload ∧ s.metadata = set b o.metadata := by
  obtain ⟨block, hblock⟩ := ho
  obtain ⟨w, hw, hm, hnamed⟩ := payloadMetadata_eq_ok_iff.1 o.identified
  obtain rfl : w = .object block := Option.some.inj (hw.symm.trans hblock)
  rw [Metadata.decode_object] at hm
  have hset : Metadata.decode (.object (Json.putMember name v block)) = .ok (set b o.metadata) := by
    rw [Metadata.decode_object, h.readMembers_putMember hv hm]
  exact ⟨⟨_, _, payloadMetadata_eq_ok_iff.2 ⟨_, get?_setMetadata hblock name v, hset,
    (hname b o.metadata).symm ▸ hnamed⟩⟩, rfl, rfl⟩

/-- A new version changes nothing else about an object. -/
theorem exists_object_setVersion {o : Object} (ho : Standard o.payload) (version : Nat) :
    ∃ s : Object,
      s.payload = setMetadata "resourceVersion" (.string (toString version)) o.payload ∧
        s.metadata = { o.metadata with version? := some (toString version) } :=
  exists_object_setMetadata Metadata.part_version (fun _ _ ↦ rfl) ho rfl

/-- **A stamped payload is the object that it was, with its identifier and its version.** -/
theorem exists_object_stamp {o : Object} (ho : Standard o.payload) {uid : Json}
    {uid? : Option String} (huid : nullable text uid = .ok uid?) (version : Nat) :
    ∃ s : Object, s.payload = stamp uid version o.payload ∧
      s.metadata = { o.metadata with uid?, version? := some (toString version) } := by
  obtain ⟨u, hu, hum⟩ := exists_object_setMetadata Metadata.part_uid (fun _ _ ↦ rfl) ho huid
  have hstandard : Standard u.payload := hu ▸ ho.setMetadata _ _
  obtain ⟨s, hs, hsm⟩ := exists_object_setVersion hstandard version
  exact ⟨s, by rw [hs, hu, stamp], by rw [hsm, hum]⟩

/-- The identifier that an object hands on decodes. -/
theorem nullable_uid {o : Object} (ho : Standard o.payload) :
    nullable text (((metadataOf o.payload).get? "uid").getD .null) = .ok o.metadata.uid? := by
  obtain ⟨block, hblock⟩ := ho
  obtain ⟨w, hw, hm, -⟩ := payloadMetadata_eq_ok_iff.1 o.identified
  obtain rfl : w = .object block := Option.some.inj (hw.symm.trans hblock)
  rw [metadataOf, hblock, Option.getD_some, Json.get?_object]
  exact Metadata.nullable_of_decode Metadata.part_uid rfl hm

/-! ### Versions as texts -/

/-- A decimal form has no sign. -/
theorem toList_toString (n : Nat) :
    (toString n).toList = Nat.toDigits 10 n ∧ ∀ rest, Nat.toDigits 10 n ≠ '+' :: rest := by
  refine ⟨Nat.toList_repr, fun rest h ↦ ?_⟩
  have hdigit : ('+').isDigit :=
    Nat.isDigit_of_mem_toDigits (n := n) (by decide) (Nat.le_refl 10) (h ▸ List.mem_cons_self)
  exact absurd hdigit (by decide)

/-- A version is read back from its decimal form, if that fits. -/
theorem parseVersion?_toString {n v : Nat} (h : parseVersion? (toString n) = some v) : v = n := by
  obtain ⟨hlist, hsign⟩ := toList_toString n
  have hvalue : (Nat.toDigits 10 n).foldl (fun n c ↦ n * 10 + (c.toNat - '0'.toNat)) 0 = n := by
    simpa only [Nat.ofDigitChars_eq_foldl, Nat.mul_comm 10] using
      @Nat.ofDigitChars_ten_toDigits n
  -- the sign is looked for and not found, by `hsign`
  simp only [parseVersion?, hlist, hvalue, Option.ite_none_right_eq_some, Option.some.injEq] at h
  exact h.2.symm

end Registry

end Informer
