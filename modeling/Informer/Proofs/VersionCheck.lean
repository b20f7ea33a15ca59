import Informer.Proofs.VersionedUpdates

/-!
# The version check of an update

An update is refused when its payload carries a version that is not the one that is held. The check
compares members of the metadata as they are written, while everyone else reads the metadata
decoded. This module says what the check amounts to in decoded versions.

* A payload whose metadata are an object carries its version as text, or as a null that decodes as
  no version, or not at all (`carriedVersion?_cases`). What is held is always stamped, so the
  version that it carries is a text (`Versioned`).
* Metadata written as an array of their fields carry nothing that the check looks at.

Where the metadata of both are objects and no null stands for a version, the check is that of the
decoded versions, and this is the main result, `version_check`. The theorem says as well what
becomes of the other forms: a null is refused like a stale version, an array is never checked and
overwrites with any version, and against an array that is held every version is refused.
-/

namespace Informer

namespace Registry

variable {r : Registry} {kind : Kind}

/-! ### Versions as written and as decoded -/

/-- Metadata that are not an object carry no version that the check looks at. -/
theorem carriedVersion?_of_not_standard {o : Object} (h : ¬ Standard o.payload) :
    carriedVersion? o.payload = none := by
  obtain ⟨v, hv, -, -⟩ := payloadMetadata_eq_ok_iff.1 o.identified
  rw [carriedVersion?, metadataOf, hv, Option.getD_some]
  cases v with
  | object block => exact absurd ⟨block, hv⟩ h
  | _ => rfl

/-- **How an object for the metadata carries a version**: not at all, as a null, or as a text. -/
theorem carriedVersion?_cases {o : Object} (h : Standard o.payload) :
    (carriedVersion? o.payload = none ∧ o.version? = none) ∨
    (carriedVersion? o.payload = some .null ∧ o.version? = none) ∨
    ∃ v, carriedVersion? o.payload = some (.string v) ∧ o.version? = some v := by
  obtain ⟨block, hblock⟩ := h
  obtain ⟨w, hw, hm, -⟩ := payloadMetadata_eq_ok_iff.1 o.identified
  obtain rfl : w = .object block := Option.some.inj (hw.symm.trans hblock)
  have hdecoded := Metadata.nullable_of_decode Metadata.part_version rfl hm
  have hcarried : carriedVersion? o.payload = Json.member? "resourceVersion" block := by
    rw [carriedVersion?, metadataOf, hblock]
    rfl
  rw [hcarried]
  rcases hv : Json.member? "resourceVersion" block with - | v
  · rw [hv] at hdecoded
    exact .inl ⟨rfl, (Except.ok.inj hdecoded).symm⟩
  · rw [hv] at hdecoded
    cases v with
    | null => exact .inr (.inl ⟨rfl, (Except.ok.inj hdecoded).symm⟩)
    | string text => exact .inr (.inr ⟨text, rfl, (Except.ok.inj hdecoded).symm⟩)
    | _ => cases hdecoded

/-- A null that is carried for a version decodes as none. -/
theorem version?_of_null {o : Object} (h : carriedVersion? o.payload = some .null) :
    o.version? = none := by
  have ho : Standard o.payload := by
    by_contra ho
    cases (carriedVersion?_of_not_standard ho).symm.trans h
  obtain ⟨hnone, -⟩ | ⟨-, habsent⟩ | ⟨v, hv, -⟩ := carriedVersion?_cases ho
  · cases hnone.symm.trans h
  · exact habsent
  · cases hv.symm.trans h

/-! ### What is held is stamped -/

/-- A payload that is held carries a version that was given out, if its metadata are an object. -/
def Versioned (r : Registry) : Prop :=
  ∀ kind key p, r.get? kind key = some p → Standard p → ∃ n, carriedVersion? p = some (versionJson n)

theorem versioned_empty : Versioned {} := by
  intro kind key p h
  simp [Registry.get?, record] at h

theorem Versioned.perform (h : Versioned r) (req : Request) : Versioned (r.perform req) := by
  intro kind key p hget hstandard
  obtain ⟨k, o, uid, last, m, hw⟩ | ⟨k, key', -, -, -, hdelete⟩ | ⟨-, hsame⟩ := r.touch?_cases req
  · rw [hw.get?] at hget
    split at hget
    · obtain rfl := Option.some.inj hget
      rw [hw.stamped] at hstandard ⊢
      exact ⟨_, carriedVersion?_stamp (standard_stamp_iff.1 hstandard) uid _⟩
    · exact h kind key p hget hstandard
  · rw [hdelete] at hget
    split at hget
    · cases hget
    · exact h kind key p hget hstandard
  · exact h kind key p (hsame kind key ▸ hget) hstandard

theorem Versioned.performAll (h : Versioned r) (reqs : List Request) :
    Versioned (r.performAll reqs) := by
  induction reqs generalizing r with
  | nil => exact h
  | cons req reqs ih => exact ih (h.perform req)

/-- The version that is held is carried as a text. -/
theorem Versioned.carries (h : Versioned r) {c : Object} {key : Key}
    (hget : r.get? kind key = some c.payload) (hc : Standard c.payload) :
    ∃ v, carriedVersion? c.payload = some (.string v) ∧ c.version? = some v := by
  obtain ⟨n, hn⟩ := h kind key c.payload hget hc
  obtain ⟨hnone, -⟩ | ⟨hnull, -⟩ | htext := carriedVersion?_cases hc
  · cases hnone.symm.trans hn
  · cases hnull.symm.trans hn
  · exact htext

/-! ### The check -/

/-- An update is refused because of the version that its payload carries. -/
def Conflicts (r : Registry) (kind : Kind) (o : Object) : Prop :=
  r.update kind o.payload =
    (r, .error (.conflict (describe kind o.key ++ " was modified concurrently")))

/-- An update is accepted: it answers with the stamped payload, which is held from now on. -/
def Applies (r : Registry) (kind : Kind) (o : Object) : Prop :=
  ∃ uid, (r.update kind o.payload).2 = .ok (stamp uid (r.lastVersion + 1) o.payload) ∧
    (r.update kind o.payload).1.get? kind o.key = some (stamp uid (r.lastVersion + 1) o.payload)

/-- An update of an object that is held, in terms of the versions that the payloads carry. -/
theorem update_of_held {o : Object} {current : Json} (h : r.get? kind o.key = some current) :
    r.update kind o.payload =
      if carriedVersion? o.payload ≠ none ∧ carriedVersion? o.payload ≠ carriedVersion? current then
        (r, .error (.conflict (describe kind o.key ++ " was modified concurrently")))
      else
        let stored := stamp (((metadataOf current).get? "uid").getD .null) (r.lastVersion + 1)
          o.payload
        ((r.putObject kind o.key stored).commit kind (.modified stored), .ok stored) := by
  have hheld : (r.record kind).objects[o.key]? = some current := h
  rw [update]
  simp only [Object.ofPayload_eq_ok_iff.2 rfl, hheld, Bool.and_eq_true, Option.isSome_iff_ne_none,
    decide_eq_true_eq]
  rfl

theorem conflicts_of_held {o : Object} {current : Json} (h : r.get? kind o.key = some current)
    (hcarried : carriedVersion? o.payload ≠ none)
    (hne : carriedVersion? o.payload ≠ carriedVersion? current) : r.Conflicts kind o :=
  (update_of_held h).trans (if_pos ⟨hcarried, hne⟩)

theorem applies_of_held {o : Object} {current : Json} (h : r.get? kind o.key = some current)
    (hsame : carriedVersion? o.payload = none ∨
      carriedVersion? o.payload = carriedVersion? current) : r.Applies kind o := by
  have hupdate := (update_of_held h).trans (if_neg fun hboth ↦ hsame.elim hboth.1 hboth.2)
  refine ⟨((metadataOf current).get? "uid").getD .null, by rw [hupdate], ?_⟩
  rw [hupdate, Registry.get?, record_commit, if_pos rfl]
  exact (congrArg (·[o.key]?) (objects_putObject r kind o.key _ kind)).trans (by simp)

theorem Applies.not_conflicts {o : Object} (h : r.Applies kind o) : ¬ r.Conflicts kind o := by
  obtain ⟨uid, hanswer, -⟩ := h
  intro hconflicts
  rw [hconflicts] at hanswer
  cases hanswer

/-- An update of an object that is held is refused because of its version, or it is accepted. -/
theorem conflicts_iff_not_applies {o : Object} {current : Json}
    (h : r.get? kind o.key = some current) : r.Conflicts kind o ↔ ¬ r.Applies kind o := by
  refine ⟨fun hconflicts happlies ↦ happlies.not_conflicts hconflicts, fun happlies ↦ ?_⟩
  by_cases hcarried : carriedVersion? o.payload = none
  · exact absurd (applies_of_held h (.inl hcarried)) happlies
  · by_cases hsame : carriedVersion? o.payload = carriedVersion? current
    · exact absurd (applies_of_held h (.inr hsame)) happlies
    · exact conflicts_of_held h hcarried hsame

/-! ### The check in decoded versions -/

/-- An object brings a version, and it is not the one of the object that is held. -/
def Stale (o held : Object) : Prop := ∃ v, o.version? = some v ∧ held.version? ≠ some v

section Held

variable {o c : Object} (hget : r.get? kind o.key = some c.payload) (h : Versioned r)

include hget

/-- Metadata that are not an object are never checked. -/
theorem applies_of_not_standard (ho : ¬ Standard o.payload) : r.Applies kind o :=
  applies_of_held hget (.inl (carriedVersion?_of_not_standard ho))

/-- Nothing that is carried is the same as what an array carries. -/
theorem conflicts_of_held_not_standard (hc : ¬ Standard c.payload)
    (hcarried : carriedVersion? o.payload ≠ none) : r.Conflicts kind o :=
  conflicts_of_held hget hcarried (carriedVersion?_of_not_standard hc ▸ hcarried)

include h

/-- No version that is held is a null. -/
theorem conflicts_of_null (hnull : carriedVersion? o.payload = some .null) :
    r.Conflicts kind o := by
  refine conflicts_of_held hget (by simp [hnull]) ?_
  by_cases hc : Standard c.payload
  · obtain ⟨v, hv, -⟩ := h.carries hget hc
    simp [hnull, hv]
  · simp [hnull, carriedVersion?_of_not_standard hc]

/-- Between objects for the metadata the check is the one of the decoded versions. -/
theorem stale_cases (ho : Standard o.payload) (hc : Standard c.payload)
    (hnull : carriedVersion? o.payload ≠ some .null) :
    (Stale o c ∧ r.Conflicts kind o) ∨ (¬ Stale o c ∧ r.Applies kind o) := by
  obtain ⟨w, hw, hversion⟩ := h.carries hget hc
  obtain ⟨hnone, habsent⟩ | ⟨hsome, -⟩ | ⟨v, hv, hbrought⟩ := carriedVersion?_cases ho
  · refine .inr ⟨?_, applies_of_held hget (.inl hnone)⟩
    rintro ⟨v, hv, -⟩
    cases habsent.symm.trans hv
  · exact absurd hsome hnull
  · by_cases hvw : v = w
    · subst hvw
      refine .inr ⟨?_, applies_of_held hget (.inr (hv.trans hw.symm))⟩
      rintro ⟨v', hv', hne⟩
      exact hne (hversion.trans (hbrought.symm.trans hv'))
    · refine .inl ⟨⟨v, hbrought, ?_⟩, conflicts_of_held hget (by simp [hv]) ?_⟩
      · rw [hversion]
        exact fun he ↦ hvw (Option.some.inj he).symm
      · rw [hv, hw]
        simpa using hvw

end Held

/-- **What the version check sees.** After any run of any number of clients, an update of an object
that is held, in whatever form its metadata are written, is either refused because of its version,
and then changes nothing, or it is accepted.

Where the metadata of the payload and of what is held are objects and no null stands for a version,
the check is that of the decoded versions: the update is refused exactly when the payload brings a
version that is not the one of the object that is held, and it is accepted when it brings none.

In the other forms the check does not see what decoding sees. A null, which decodes as no version,
is always refused. Metadata written as an array are never checked. When the metadata that are held
are an array, everything that is carried is refused. -/
theorem version_check (before : List Request) (kind : Kind) (o : Object) (current : Json)
    (hheld : (performAll {} before).get? kind o.key = some current) :
    let r := performAll {} before
    ∃ c : Object, c.payload = current ∧ c.key = o.key ∧
      (r.Conflicts kind o ↔ ¬ r.Applies kind o) ∧
      (Standard o.payload → Standard c.payload → carriedVersion? o.payload ≠ some .null →
        (r.Conflicts kind o ↔ Stale o c) ∧ (o.version? = none → r.Applies kind o)) ∧
      (carriedVersion? o.payload = some .null → o.version? = none ∧ r.Conflicts kind o) ∧
      (¬ Standard o.payload → r.Applies kind o) ∧
      (¬ Standard c.payload → (r.Conflicts kind o ↔ carriedVersion? o.payload ≠ none)) := by
  intro r
  have hversioned : Versioned r := versioned_empty.performAll before
  obtain ⟨c, rfl, hkey⟩ := keyed_performAll (keyed_empty kind) before o.key current hheld
  refine ⟨c, rfl, hkey, conflicts_iff_not_applies hheld, fun ho hc hnull ↦ ?_,
    fun hnull ↦ ⟨version?_of_null hnull, conflicts_of_null hheld hversioned hnull⟩,
    applies_of_not_standard hheld, fun hc ↦ ⟨fun h hnone ↦ ?_,
      conflicts_of_held_not_standard hheld hc⟩⟩
  · obtain ⟨hstale, hconflicts⟩ | ⟨hfresh, happlies⟩ := stale_cases hheld hversioned ho hc hnull
    · refine ⟨iff_of_true hconflicts hstale, fun hnone ↦ ?_⟩
      obtain ⟨v, hv, -⟩ := hstale
      cases hnone.symm.trans hv
    · exact ⟨iff_of_false happlies.not_conflicts hfresh, fun _ ↦ happlies⟩
  · exact (applies_of_held hheld (.inl hnone)).not_conflicts h

/-- An object with two writes: an update that brings the first version is refused, one that brings
the second is accepted. -/
theorem version_check_of_second_write :
    let r := performAll {} [.create nodeKind (namedPayload "a"), .update nodeKind (namedPayload "a")]
    ∃ stale fresh : Object, stale.payload = versionedPayload "a" 1 ∧
      fresh.payload = versionedPayload "a" 2 ∧ r.Conflicts nodeKind stale ∧
      r.Applies nodeKind fresh := by
  intro r
  have hstandard : ∀ n, Standard (versionedPayload "a" n) := fun n ↦ ⟨_, rfl⟩
  have hheld : r.get? nodeKind ⟨none, "a"⟩ = some (stamp (.string "uid-1") 2 (namedPayload "a")) := by
    decide
  have hc : Standard (stamp (.string "uid-1") 2 (namedPayload "a")) := ⟨_, rfl⟩
  let stale : Object :=
    ⟨versionedPayload "a" 1, { name := "a", version? := some "1" }, by decide⟩
  let fresh : Object :=
    ⟨versionedPayload "a" 2, { name := "a", version? := some "2" }, by decide⟩
  let c : Object := ⟨stamp (.string "uid-1") 2 (namedPayload "a"),
    { name := "a", uid? := some "uid-1", version? := some "2" }, by decide⟩
  obtain ⟨c₁, hc₁, -, -, hstale, -⟩ := version_check _ nodeKind stale _ hheld
  obtain ⟨c₂, hc₂, -, hboth, hfresh, -⟩ := version_check _ nodeKind fresh _ hheld
  obtain rfl : c₁ = c := Object.ext_payload hc₁
  obtain rfl : c₂ = c := Object.ext_payload hc₂
  refine ⟨stale, fresh, rfl, rfl, ?_, ?_⟩
  · exact (hstale (hstandard 1) hc (by decide)).1.2 ⟨"1", rfl, by decide⟩
  · by_contra hrefused
    obtain ⟨v, hv, hne⟩ := (hfresh (hstandard 2) hc (by decide)).1.1 (hboth.2 hrefused)
    exact hne hv

/-- Metadata written as an array of their first four fields, with the first version. -/
def versionedArray : Json :=
  .object [("metadata", .array [.string "a", .null, .null, .string "1"])]

/-- An update that brings a stale version overwrites what is held, when its metadata are written as
an array: so the check is not that of the decoded versions. -/
theorem not_conflicts_iff_stale :
    ¬ ∀ (before : List Request) (kind : Kind) (o c : Object),
      (performAll {} before).get? kind o.key = some c.payload →
      ((performAll {} before).Conflicts kind o ↔ Stale o c) := by
  intro h
  let o : Object := ⟨versionedArray, { name := "a", version? := some "1" }, by decide⟩
  let c : Object := ⟨stamp (.string "uid-1") 2 (namedPayload "a"),
    { name := "a", uid? := some "uid-1", version? := some "2" }, by decide⟩
  have hheld : (performAll {} [.create nodeKind (namedPayload "a"),
      .update nodeKind (namedPayload "a")]).get? nodeKind o.key = some c.payload := by decide
  have hconflicts := (h _ nodeKind o c hheld).2 ⟨"1", rfl, by decide⟩
  refine (applies_of_not_standard hheld ?_).not_conflicts hconflicts
  rintro ⟨block, hblock⟩
  cases hblock

end Registry

end Informer
