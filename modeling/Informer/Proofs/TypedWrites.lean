import Informer.Proofs.PayloadIdentity
import Informer.Proofs.Renumbering
import Informer.Proofs.RoundTrip

/-!
# Typed writes

A resource is written, and the registry stamps what was written and answers with it. The stamps are
metadata that are written over those of the payload, so the answer decodes as the resource with its
identifier and its version replaced, and nothing else (`decode_stamp`).

A client may decode the answer, change the copy and write it back. The copy carries the version of
the answer as a text, and so does what is held as long as nobody touched the key; hence the update
passes the version check (`update_of_revises`), and the identifier is handed on.
-/

namespace Informer.Registry

open Decode (Part nullable text)

variable {α : Type} [Resource α] [WrittenResource α] {r : Registry} {req : Request} {p : Json}
  {x copy : α}

/-! ### Stamped resources -/

/-- A resource is written with an object for its metadata. -/
theorem standard_encode (x : α) : Standard (Resource.encode x) :=
  ⟨_, WrittenResource.get?_encode x⟩

/-- A resource with a name is written as an object with its metadata. -/
theorem exists_object_encode (hname : (Resource.metadata x).name ≠ "") :
    ∃ o : Object, o.payload = Resource.encode x ∧ o.metadata = Resource.metadata x :=
  ⟨⟨_, _, payloadMetadata_eq_ok_iff.2
    ⟨_, WrittenResource.get?_encode x, Metadata.decode_encode _, hname⟩⟩, rfl, rfl⟩

/-- Writing a part of the metadata sets that part of the resource. -/
theorem decode_setMetadata {β : Type} {name : String} {decode : Json → Except DecodeError β}
    {get : Metadata → β} {set : β → Metadata → Metadata}
    (h : Part Metadata.fields name decode get set) (hp : Standard p)
    (hx : Resource.decode p = .ok x) {v : Json} {b : β} (hv : decode v = .ok b) :
    Resource.decode (setMetadata name v p) =
      .ok (Resource.setMetadata (set b (Resource.metadata x)) x) := by
  obtain ⟨block, hblock⟩ := hp
  have hm : Metadata.decode (.object block) = .ok (Resource.metadata x) :=
    LawfulResource.metadata_of_decode hx hblock
  rw [Metadata.decode_object] at hm
  cases p with
  | object members =>
    rw [setMetadata_object hblock]
    refine WrittenResource.decode_putMember hx ?_
    rw [Metadata.decode_object, h.readMembers_putMember hv hm]
  | _ => cases hblock

/-- **A stamped payload decodes as the resource that it was**, with its identifier and its
version. -/
theorem decode_stamp (hp : Standard p) (hx : Resource.decode p = .ok x) {uid : Json}
    {uid? : Option String} (huid : nullable text uid = .ok uid?) (version : Nat) :
    Resource.decode (stamp uid version p) = .ok (Resource.setMetadata
      { Resource.metadata x with uid?, version? := some (toString version) } x) := by
  have hidentified := decode_setMetadata Metadata.part_uid hp hx huid
  have hstamped := decode_setMetadata Metadata.part_version (hp.setMetadata _ _) hidentified
    (Metadata.nullable_text (toString version))
  rw [LawfulResource.metadata_setMetadata, WrittenResource.setMetadata_setMetadata] at hstamped
  exact hstamped

/-! ### Accepted writes of resources -/

/-- A request that writes a resource is accepted, and the payload that it is answered with decodes
as `x`. -/
structure TypedWrite (r : Registry) (req : Request) (p : Json) (x : α) : Prop where
  written : ∃ given : α, req.written? = some (Resource.kind α, Resource.encode given)
  answered : r.respond req = .stored (.ok p)
  decodes : Resource.decode p = .ok x

section TypedWrite

variable (h : TypedWrite r req p x)

include h

omit [WrittenResource α] in
theorem TypedWrite.stored? : r.stored? req = some p := by
  have hanswered := h.answered
  cases req with
  | create kind payload | update kind payload =>
    rw [Registry.stored?, Response.stored.inj hanswered]
    rfl
  | _ => cases hanswered

omit [WrittenResource α] in
/-- The answer is recorded, as a change to the object in it. -/
theorem TypedWrite.recorded {o : Object} (ho : o.payload = p) :
    ∃ m, r.recorded? req = some (Resource.kind α, m) ∧ m.payload = p ∧
      Entry.changeOf m = .ok (.upsert o) := by
  obtain ⟨given, hwritten⟩ := h.written
  have hanswered := h.answered
  have hchange : (Object.ofPayload p).map Change.upsert = .ok (.upsert o) :=
    congrArg (Except.map Change.upsert) (Object.ofPayload_eq_ok_iff.2 ho)
  cases req with
  | create kind payload =>
    cases hwritten
    exact ⟨.added p, by rw [recorded?, Response.stored.inj hanswered]; rfl, rfl, hchange⟩
  | update kind payload =>
    cases hwritten
    exact ⟨.modified p, by rw [recorded?, Response.stored.inj hanswered]; rfl, rfl, hchange⟩
  | _ => cases hwritten

/-- **The answer is an object for its metadata**, and is held under the key of the resource. -/
theorem TypedWrite.exists_object (hk : Keyed r (Resource.kind α)) :
    ∃ o : Object, o.payload = p ∧ o.key = (Resource.metadata x).key ∧ o.decode α = .ok x ∧
      Standard p ∧ (r.perform req).get? (Resource.kind α) o.key = some p := by
  obtain ⟨given, hwritten⟩ := h.written
  obtain ⟨e, uid, last, m, hpayload, rfl, hw⟩ := wrote_of_stored? hwritten h.stored?
  obtain ⟨⟨o, hread, hkey⟩, hheld⟩ := hw.readsAs hk
  have ho := Object.ofPayload_eq_ok_iff.1 hread
  have hdecode : o.decode α = .ok x := by rw [Object.decode, ho, h.decodes]
  have hstandard : Standard m.payload := by
    rw [hw.stamped, hpayload]
    exact (standard_encode given).stamp uid _
  exact ⟨o, ho, congrArg Metadata.key (Object.metadata_of_decode hdecode).symm, hdecode,
    hstandard, hkey ▸ hheld⟩

end TypedWrite

/-! ### Creations -/

/-- The resource that a creation stores. -/
def created (r : Registry) (x : α) : α :=
  Resource.setMetadata { Resource.metadata x with
    uid? := some (uidText (r.lastUid + 1)), version? := some (toString (r.lastVersion + 1)) } x

/-- A named resource whose key is free is created. -/
theorem create_of_free (hname : (Resource.metadata x).name ≠ "")
    (hfree : r.get? (Resource.kind α) (Resource.metadata x).key = none) :
    ∃ p, r.TypedWrite (.create (Resource.kind α) (Resource.encode x)) p (r.created x) := by
  obtain ⟨o, hpayload, hmeta⟩ := exists_object_encode hname
  have habsent : r.get? (Resource.kind α) o.key = none := by rw [Object.key, hmeta, hfree]
  have hcreate := r.create_of_absent _ habsent
  rw [hpayload] at hcreate
  exact ⟨_, ⟨x, rfl⟩, by rw [respond, hcreate],
    decode_stamp (standard_encode x) (WrittenResource.decode_encode x) rfl _⟩

/-! ### Updates of a decoded copy -/

/-- One resource is another one, changed in its labels, its annotations, its generation and the
fields of its kind only. -/
def Revises (copy x : α) : Prop :=
  ∃ generation? labels annotations, Resource.metadata x =
    { Resource.metadata copy with generation?, labels, annotations }

/-- The resource that an update stores. -/
def updated (r : Registry) (x : α) : α :=
  Resource.setMetadata
    { Resource.metadata x with version? := some (toString (r.lastVersion + 1)) } x

/-- A payload with the version of what is held carries it as what is held does. -/
theorem carriedVersion?_eq_of_held {kind : Kind} {o current : Object} {key : Key} (hv : r.Versioned)
    (hheld : r.get? kind key = some current.payload) (hcurrent : Standard current.payload)
    (ho : Standard o.payload) (hsame : o.version? = current.version?) :
    carriedVersion? o.payload = carriedVersion? current.payload := by
  obtain ⟨v, hcarried, hversion⟩ := hv.carries hheld hcurrent
  rw [hversion] at hsame
  obtain ⟨-, hnone⟩ | ⟨-, hnone⟩ | ⟨w, hw, hsome⟩ := carriedVersion?_cases ho
  · cases hnone.symm.trans hsame
  · cases hnone.symm.trans hsame
  · obtain rfl : w = v := Option.some.inj (hsome.symm.trans hsame)
    rw [hw, hcarried]

/-- A copy of what is held passes the version check, and keeps the identifier. -/
theorem update_of_revises {o : Object} (hp : Standard o.payload)
    (hheld : r.get? (Resource.kind α) o.key = some o.payload) (hv : r.Versioned)
    (hcopy : o.decode α = .ok copy) (hx : Revises copy x) :
    ∃ q, r.TypedWrite (.update (Resource.kind α) (Resource.encode x)) q (r.updated x) := by
  have hmeta : Resource.metadata copy = o.metadata := Object.metadata_of_decode hcopy
  obtain ⟨generation?, labels, annotations, hx⟩ := hx
  rw [hmeta] at hx
  have hname : (Resource.metadata x).name ≠ "" := by
    obtain ⟨-, -, -, hname⟩ := payloadMetadata_eq_ok_iff.1 o.identified
    rwa [hx]
  obtain ⟨y, hpayload, hy⟩ := exists_object_encode hname
  have hkey : y.key = o.key := by rw [Object.key, Object.key, hy, hx]; rfl
  have hstandard : Standard y.payload := hpayload ▸ standard_encode x
  have hversion : y.version? = o.version? := by rw [Object.version?, Object.version?, hy, hx]
  have hcarried : ¬ (carriedVersion? y.payload ≠ none ∧
      carriedVersion? y.payload ≠ carriedVersion? o.payload) :=
    fun h ↦ h.2 (carriedVersion?_eq_of_held hv hheld hp hstandard hversion)
  have hupdate := update_of_held (hkey.symm ▸ hheld)
  rw [if_neg hcarried, hpayload] at hupdate
  refine ⟨_, ⟨x, rfl⟩, by rw [respond, hupdate], ?_⟩
  have hstamped := decode_stamp (standard_encode x) (WrittenResource.decode_encode x)
    (nullable_uid hp) (r.lastVersion + 1)
  have huid : o.metadata.uid? = (Resource.metadata x).uid? := by rw [hx]
  rw [huid] at hstamped
  exact hstamped

/-- **A revised copy of an answer is accepted** as long as nobody else touched its key. -/
theorem TypedWrite.update {before between : List Request}
    (h : (performAll {} before).TypedWrite req p copy)
    (hbetween : (performAll {} (before ++ [req])).Untouched (Resource.kind α)
      (Resource.metadata copy).key between) (hx : Revises copy x) :
    let r := performAll {} (before ++ req :: between)
    ∃ q, r.TypedWrite (.update (Resource.kind α) (Resource.encode x)) q (r.updated x) := by
  intro r
  obtain ⟨o, rfl, hkey, hdecode, hstandard, hheld⟩ :=
    h.exists_object (keyed_performAll (keyed_empty _) before)
  have hsplit : r = (performAll {} (before ++ [req])).performAll between := by
    rw [← performAll_append, List.append_assoc]
    rfl
  have hnow : r.get? (Resource.kind α) o.key = some o.payload := by
    rw [← hkey] at hbetween
    rw [hsplit, hbetween.get?_performAll, performAll_append]
    exact hheld
  exact update_of_revises hstandard hnow (versioned_empty.performAll _) hdecode hx

end Informer.Registry
