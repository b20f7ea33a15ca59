import Informer.Proofs.RegistryHistory

/-!
# What requests record

A write that is not refused, and an injection, records one mutation of its kind under the next
version; nothing else records anything (`history_perform_eq`). So the recorded mutations of every
kind ascend in their versions, whatever is asked of the registry (`Ordered`).

What is recorded accounts for the objects, too. A payload is stored as an object under the key that
it decodes with (`Keyed`), whatever form its metadata have: stamping changes the metadata that are
an object and leaves all others alone, and neither touches the key. Hence the objects of a kind
after a request that injects nothing there are those before it with the recorded mutation carried
out (`Keyed.perform`).
-/

namespace Informer.Registry

variable {r : Registry} {kind : Kind}

/-! ### Stamped payloads of every form -/

/-- Metadata that are not an object are left alone. -/
theorem setMetadata_of_not_standard {payload : Json} (h : ¬ Standard payload) (name : String)
    (v : Json) : setMetadata name v payload = payload := by
  cases payload with
  | object members =>
    rw [setMetadata]
    split
    · next block hblock => exact absurd ⟨block, hblock⟩ h
    · rfl
  | _ => rfl

/-- A new version leaves an object with the key that it had. -/
theorem exists_key_setVersion (o : Object) (version : Nat) :
    ∃ s : Object, s.payload = setMetadata "resourceVersion" (.string (toString version)) o.payload ∧
      s.key = o.key := by
  by_cases ho : Standard o.payload
  · obtain ⟨s, hs, hmeta⟩ := exists_object_setVersion ho version
    exact ⟨s, hs, by rw [Object.key, hmeta]; rfl⟩
  · exact ⟨o, (setMetadata_of_not_standard ho _ _).symm, rfl⟩

/-- A stamped payload is an object with the key that it had. -/
theorem exists_key_stamp (o : Object) {uid : Json} {uid? : Option String}
    (huid : Decode.nullable Decode.text uid = .ok uid?) (version : Nat) :
    ∃ s : Object, s.payload = stamp uid version o.payload ∧ s.key = o.key := by
  by_cases ho : Standard o.payload
  · obtain ⟨s, hs, hmeta⟩ := exists_object_stamp ho huid version
    exact ⟨s, hs, by rw [Object.key, hmeta]; rfl⟩
  · refine ⟨o, ?_, rfl⟩
    rw [stamp, setMetadata_of_not_standard ho, setMetadata_of_not_standard ho]

/-- An object whose metadata are not an object hands on no identifier. -/
theorem nullable_uid_of_not_standard {o : Object} (ho : ¬ Standard o.payload) :
    Decode.nullable Decode.text (((metadataOf o.payload).get? "uid").getD .null) = .ok none := by
  obtain ⟨v, hv, -, -⟩ := payloadMetadata_eq_ok_iff.1 o.identified
  rw [metadataOf, hv, Option.getD_some]
  cases v with
  | object block => exact absurd ⟨block, hv⟩ ho
  | _ => rfl

/-- The identifier that an object hands on decodes. -/
theorem exists_nullable_uid (o : Object) : ∃ uid?,
    Decode.nullable Decode.text (((metadataOf o.payload).get? "uid").getD .null) = .ok uid? := by
  by_cases ho : Standard o.payload
  · exact ⟨_, nullable_uid ho⟩
  · exact ⟨none, nullable_uid_of_not_standard ho⟩

/-- A version that fits is read from its decimal form. -/
theorem parseVersion?_toString_of_lt {n : Nat} (h : n < UInt64.size) :
    parseVersion? (toString n) = some n := by
  obtain ⟨hlist, hsign⟩ := toList_toString n
  have hvalue : (Nat.toDigits 10 n).foldl (fun n c ↦ n * 10 + (c.toNat - '0'.toNat)) 0 = n := by
    simpa only [Nat.ofDigitChars_eq_foldl, Nat.mul_comm 10] using
      @Nat.ofDigitChars_ten_toDigits n
  have hdigits : ∀ c ∈ Nat.toDigits 10 n, c.isDigit := fun c hc ↦
    Nat.isDigit_of_mem_toDigits (by decide) (Nat.le_refl 10) hc
  simp only [parseVersion?, hlist, hvalue]
  simpa [h] using hdigits

/-! ### What a request records -/

/-- The mutation that a request records, and the kind that it records it for. -/
def recorded? (r : Registry) : Request → Option (Kind × Mutation)
  | .create kind payload => (r.create kind payload).2.toOption.map fun p ↦ (kind, .added p)
  | .update kind payload => (r.update kind payload).2.toOption.map fun p ↦ (kind, .modified p)
  | .delete kind key => (r.get? kind key).map fun p ↦
    (kind, .deleted (setMetadata "resourceVersion" (.string (toString (r.lastVersion + 1))) p))
  | .inject kind m => some (kind, m)
  | _ => none

/-- What a request adds to the recorded mutations of a kind: under the next version, what it records
for that kind. -/
def additions (r : Registry) (kind : Kind) (req : Request) : List (Nat × Mutation) :=
  (((r.recorded? req).filter (·.1 = kind)).map fun x ↦ (r.lastVersion + 1, x.2)).toList

theorem additions_of_none {req : Request} (h : r.recorded? req = none) (kind : Kind) :
    r.additions kind req = [] := by
  rw [additions, h]
  rfl

theorem additions_of_some {req : Request} {other : Kind} {m : Mutation}
    (h : r.recorded? req = some (other, m)) (kind : Kind) :
    r.additions kind req = if other = kind then [(r.lastVersion + 1, m)] else [] := by
  rw [additions, h]
  by_cases he : other = kind <;> simp [he]

/-- A request records nothing, and then commits nothing, or it commits what it records. -/
theorem recorded?_cases (r : Registry) (req : Request) :
    (r.recorded? req = none ∧ (r.perform req).lastVersion = r.lastVersion ∧
      ∀ kind, ((r.perform req).record kind).history = (r.record kind).history ∧
        ((r.perform req).record kind).objects = (r.record kind).objects) ∨
    ∃ r₀ other m, r.recorded? req = some (other, m) ∧ Alike r r₀ ∧
      r.perform req = r₀.commit other m := by
  cases req with
  | create kind payload =>
    obtain ⟨e, n, -, h⟩ | ⟨o, uid, stored, -, -, -, -, h⟩ := r.create_cases kind payload
    · refine .inl ⟨by simp [recorded?, h, Except.toOption], ?_⟩
      rw [perform, h]
      exact ⟨rfl, fun _ ↦ ⟨rfl, rfl⟩⟩
    · exact .inr ⟨_, kind, .added stored, by simp [recorded?, h, Except.toOption],
        (r.alike_lastUid _).trans (alike_putObject _ kind o.key stored), by rw [perform, h]⟩
  | update kind payload =>
    obtain ⟨e, h⟩ | ⟨o, current, stored, -, -, -, h⟩ := r.update_cases kind payload
    · refine .inl ⟨by simp [recorded?, h, Except.toOption], ?_⟩
      rw [perform, h]
      exact ⟨rfl, fun _ ↦ ⟨rfl, rfl⟩⟩
    · exact .inr ⟨_, kind, .modified stored, by simp [recorded?, h, Except.toOption],
        r.alike_putObject kind o.key stored, by rw [perform, h]⟩
  | delete kind key =>
    rcases hp : (r.record kind).objects[key]? with - | p
    · have h : r.perform (.delete kind key) = r := by simp [perform, delete, hp]
      exact .inl ⟨by simp [recorded?, get?, hp], by rw [h], fun _ ↦ by rw [h]; exact ⟨rfl, rfl⟩⟩
    · obtain ⟨e, h⟩ | ⟨current, last, hcurrent, hlast, h⟩ := r.delete_cases kind key
      · simp [delete, hp] at h
      · obtain rfl : p = current := Option.some.inj (hp.symm.trans hcurrent)
        exact .inr ⟨_, kind, .deleted last, by simp [recorded?, get?, hp, hlast],
          r.alike_eraseObject kind key, by rw [perform, h]⟩
  | inject kind m => exact .inr ⟨r, kind, m, rfl, .refl r, rfl⟩
  | breakWatches kind e =>
    exact .inl ⟨rfl, rfl, fun other ↦ (r.kept_breakWatches kind e other).symm⟩
  | failLists kind n =>
    refine .inl ⟨rfl, rfl, fun other ↦ ⟨?_, ?_⟩⟩
    · exact (alike_modify r kind (by exact fun _ ↦ ⟨rfl, rfl⟩)).history other
    · exact objects_modify r kind (by exact fun _ ↦ rfl) other
  | list kind =>
    obtain ⟨ha, hobjects, -⟩ := r.list_spec kind
    exact .inl ⟨rfl, ha.lastVersion, fun other ↦ ⟨ha.history other, hobjects other⟩⟩
  | watch kind version? =>
    rw [perform]
    obtain ⟨e, h⟩ | ⟨missed, h, -⟩ := r.watch_cases kind version?
    · rw [h]
      exact .inl ⟨rfl, rfl, fun _ ↦ ⟨rfl, rfl⟩⟩
    · rw [h]
      exact .inl ⟨rfl, rfl, fun other ↦ (r.kept_openWatch kind missed other).symm⟩
  | read n => exact .inl ⟨rfl, rfl, fun _ ↦ ⟨rfl, rfl⟩⟩
  | drop n => exact .inl ⟨rfl, rfl, fun _ ↦ ⟨rfl, rfl⟩⟩

/-- **Every write that is not refused, and every injection, is recorded once**, under the next
version, and nothing else is. -/
theorem history_perform_eq (r : Registry) (req : Request) (kind : Kind) :
    ((r.perform req).record kind).history = (r.record kind).history ++ r.additions kind req ∧
      (r.perform req).lastVersion = r.lastVersion + (r.recorded? req).toList.length := by
  obtain ⟨hnone, hlast, hkept⟩ | ⟨r₀, other, m, hsome, ha, hr⟩ := r.recorded?_cases req
  · rw [additions_of_none hnone, hnone, (hkept kind).1, List.append_nil]
    exact ⟨rfl, hlast⟩
  · rw [additions_of_some hsome, hsome, hr, lastVersion_commit, record_commit, ha.lastVersion]
    refine ⟨?_, rfl⟩
    by_cases he : other = kind
    · rw [if_pos he.symm, if_pos he, he, ha.history]
    · rw [if_neg (Ne.symm he), if_neg he, ha.history, List.append_nil]

/-! ### Versions ascend -/

/-- The recorded mutations of a kind ascend in their versions, which were all given out. -/
structure Ordered (r : Registry) (kind : Kind) : Prop where
  ascending : (r.record kind).history.Pairwise (·.1 < ·.1)
  bounded : ∀ x ∈ (r.record kind).history, x.1 ≤ r.lastVersion

theorem ordered_empty (kind : Kind) : Ordered {} kind where
  ascending := by simp [record]
  bounded x h := by simp [record] at h

theorem Ordered.perform (h : Ordered r kind) (req : Request) : Ordered (r.perform req) kind := by
  obtain ⟨hhistory, hlast⟩ := r.history_perform_eq req kind
  have hle : r.lastVersion ≤ (r.perform req).lastVersion := hlast ▸ Nat.le_add_right _ _
  rcases hrec : r.recorded? req with - | ⟨other, m⟩
  · rw [additions_of_none hrec, List.append_nil] at hhistory
    exact ⟨hhistory ▸ h.ascending, fun x hx ↦ Nat.le_trans (h.bounded x (hhistory ▸ hx)) hle⟩
  · -- the one new version is above all that were given out
    rw [hrec] at hlast
    have hnew : ∀ x ∈ r.additions kind req, x.1 = r.lastVersion + 1 := by
      intro x hx
      rw [additions_of_some hrec] at hx
      split at hx
      · rw [List.mem_singleton.1 hx]
      · cases hx
    have hone : (r.additions kind req).Pairwise (·.1 < ·.1) := by
      rw [additions_of_some hrec]
      split
      · exact List.pairwise_singleton _ _
      · exact List.Pairwise.nil
    constructor
    · rw [hhistory]
      refine List.pairwise_append.2 ⟨h.ascending, hone, fun x hx y hy ↦ ?_⟩
      rw [hnew y hy]
      exact Nat.lt_succ_of_le (h.bounded x hx)
    · intro x hx
      rw [hhistory] at hx
      rcases List.mem_append.1 hx with hx | hx
      · exact Nat.le_trans (h.bounded x hx) hle
      · rw [hnew x hx, hlast]
        exact Nat.le_refl _

/-! ### Objects under their own keys -/

/-- Every payload of a kind is an object under the key that it decodes with. -/
def Keyed (r : Registry) (kind : Kind) : Prop :=
  ∀ key p, (r.record kind).objects[key]? = some p → ∃ o : Object, o.payload = p ∧ o.key = key

theorem keyed_empty (kind : Kind) : Keyed {} kind := by
  intro key p h
  simp [record] at h

/-- The objects that a kind has when it had `held` and some mutations were recorded. -/
def carried (held : Std.ExtTreeMap Key Json) (new : List (Nat × Mutation)) :
    Std.ExtTreeMap Key Json :=
  new.foldl (fun held x ↦ x.2.carry held) held

/-- The registries `r` and, later, `r'` account for a kind: every payload is an object under its own
key, and the objects changed as some mutations say. -/
structure Accounts (r r' : Registry) (kind : Kind) (new : List (Nat × Mutation)) : Prop where
  keyed : Keyed r' kind
  objects : (r'.record kind).objects = carried (r.record kind).objects new

/-- The objects of the kind were left alone. -/
theorem Keyed.frame (h : Keyed r kind) {r' : Registry}
    (ho : (r'.record kind).objects = (r.record kind).objects) : Accounts r r' kind [] where
  keyed key p hp := h key p (ho ▸ hp)
  objects := ho

/-- A commit of a mutation that accounts for what was done to the objects of its kind. -/
theorem Keyed.commit {r₀ : Registry} {m : Mutation} {v : Nat}
    (hkeyed : ∀ key p, (r₀.record kind).objects[key]? = some p →
      ∃ o : Object, o.payload = p ∧ o.key = key)
    (hobjects : (r₀.record kind).objects = m.carry (r.record kind).objects) :
    Accounts r (r₀.commit kind m) kind [(v, m)] := by
  have hsame : ((r₀.commit kind m).record kind).objects = (r₀.record kind).objects := by
    rw [record_commit, if_pos rfl]
  refine ⟨fun key p hp ↦ hkeyed key p (hsame ▸ hp), ?_⟩
  rw [hsame, hobjects]
  rfl

/-- Storing a payload under its own key. -/
theorem Keyed.put (h : Keyed r kind) {r₀ : Registry}
    (hsame : (r₀.record kind).objects = (r.record kind).objects) {s : Object} {m : Mutation}
    (hm : m = .added s.payload ∨ m = .modified s.payload) {v : Nat} :
    Accounts r ((r₀.putObject kind s.key s.payload).commit kind m) kind [(v, m)] := by
  have hobjects : ((r₀.putObject kind s.key s.payload).record kind).objects =
      (r.record kind).objects.insert s.key s.payload := by
    rw [objects_putObject, if_pos rfl, hsame]
  refine Keyed.commit (fun key p hp ↦ ?_) ?_
  · rw [hobjects, Key.getElem?_insert] at hp
    split at hp
    · next hkey => exact ⟨s, Option.some.inj hp, hkey⟩
    · exact h key p hp
  · rw [hobjects]
    rcases hm with rfl | rfl
    · rw [Mutation.carry_added]
    · rw [Mutation.carry_modified]

/-- A commit on another kind. -/
theorem Keyed.commit_of_ne (h : Keyed r kind) {r₀ : Registry} {other : Kind} (hne : kind ≠ other)
    (ho : (r₀.record kind).objects = (r.record kind).objects) (m : Mutation) :
    Accounts r (r₀.commit other m) kind [] := by
  refine h.frame ?_
  rw [record_commit, if_neg hne, ho]

theorem Keyed.create (h : Keyed r kind) (other : Kind) (payload : Json) :
    Accounts r (r.create other payload).1 kind (r.additions kind (.create other payload)) := by
  obtain ⟨e, n, -, hr⟩ | ⟨o, uid, stored, rfl, -, hs, -, hr⟩ := r.create_cases other payload
  · rw [additions_of_none (by simp [recorded?, hr, Except.toOption]), hr]
    exact h.frame rfl
  · have hrec : r.recorded? (.create other o.payload) = some (other, .added stored) := by
      simp [recorded?, hr, Except.toOption]
    rw [additions_of_some hrec, hr]
    by_cases he : other = kind
    · subst he
      have huid : Decode.nullable Decode.text (.string uid) = .ok (some uid) := rfl
      obtain ⟨s, hspayload, hkey⟩ := exists_key_stamp o huid (r.lastVersion + 1)
      obtain rfl : s.payload = stored := hspayload.trans hs.symm
      have hsame : (record { r with lastUid := r.lastUid + 1 } other).objects =
          (r.record other).objects := rfl
      rw [if_pos rfl, ← hkey]
      exact h.put hsame (.inl rfl)
    · rw [if_neg he]
      refine h.commit_of_ne (Ne.symm he) ?_ _
      rw [objects_putObject, if_neg (Ne.symm he)]
      rfl

theorem Keyed.update (h : Keyed r kind) (other : Kind) (payload : Json) :
    Accounts r (r.update other payload).1 kind (r.additions kind (.update other payload)) := by
  obtain ⟨e, hr⟩ | ⟨o, current, stored, rfl, hcurrent, hs, hr⟩ := r.update_cases other payload
  · rw [additions_of_none (by simp [recorded?, hr, Except.toOption]), hr]
    exact h.frame rfl
  · have hrec : r.recorded? (.update other o.payload) = some (other, .modified stored) := by
      simp [recorded?, hr, Except.toOption]
    rw [additions_of_some hrec, hr]
    by_cases he : other = kind
    · subst he
      obtain ⟨c, rfl, -⟩ := h o.key current hcurrent
      obtain ⟨uid?, huid⟩ := exists_nullable_uid c
      obtain ⟨s, hspayload, hkey⟩ := exists_key_stamp o huid (r.lastVersion + 1)
      obtain rfl : s.payload = stored := hspayload.trans hs.symm
      rw [if_pos rfl, ← hkey]
      exact h.put rfl (.inr rfl)
    · rw [if_neg he]
      refine h.commit_of_ne (Ne.symm he) ?_ _
      rw [objects_putObject, if_neg (Ne.symm he)]

theorem Keyed.delete (h : Keyed r kind) (other : Kind) (key : Key) :
    Accounts r (r.delete other key).1 kind (r.additions kind (.delete other key)) := by
  rcases hp : (r.record other).objects[key]? with - | p
  · rw [additions_of_none (by simp [recorded?, get?, hp])]
    exact h.frame (by simp [Registry.delete, hp])
  · obtain ⟨e, hr⟩ | ⟨current, last, hcurrent, hlast, hr⟩ := r.delete_cases other key
    · simp [Registry.delete, hp] at hr
    · obtain rfl : p = current := Option.some.inj (hp.symm.trans hcurrent)
      have hrec : r.recorded? (.delete other key) = some (other, .deleted last) := by
        simp [recorded?, get?, hp, hlast]
      rw [additions_of_some hrec, hr]
      by_cases he : other = kind
      · subst he
        obtain ⟨o, rfl, rfl⟩ := h key p hp
        -- the final state has the key under which the object was held
        obtain ⟨s, hs, hkey⟩ := exists_key_setVersion o (r.lastVersion + 1)
        obtain rfl : s.payload = last := hs.trans hlast.symm
        have hobjects : ((r.eraseObject other o.key).record other).objects =
            (r.record other).objects.erase o.key := by
          rw [objects_eraseObject, if_pos rfl]
        rw [if_pos rfl]
        refine Keyed.commit (fun k q hq ↦ ?_) ?_
        · rw [hobjects, Key.getElem?_erase] at hq
          split at hq
          · cases hq
          · exact h k q hq
        · rw [hobjects, Mutation.carry_deleted, hkey]
      · rw [if_neg he]
        refine h.commit_of_ne (Ne.symm he) ?_ _
        rw [objects_eraseObject, if_neg (Ne.symm he)]

/-- **A request that injects nothing into a kind changes its objects as it records.** -/
theorem Keyed.perform (h : Keyed r kind) {req : Request} (hreq : ∀ m, req ≠ .inject kind m) :
    Accounts r (r.perform req) kind (r.additions kind req) := by
  cases req with
  | create other payload => exact h.create other payload
  | update other payload => exact h.update other payload
  | delete other key => exact h.delete other key
  | inject other m =>
    have hne : other ≠ kind := fun he ↦ hreq m (by rw [he])
    rw [additions_of_some (m := m) rfl, if_neg hne]
    exact h.commit_of_ne (Ne.symm hne) rfl m
  | _ =>
    obtain ⟨-, -, hkept⟩ | ⟨r₀, other, m, hsome, -⟩ := r.recorded?_cases _
    · rw [additions_of_none rfl]
      exact h.frame (hkept kind).2
    · cases hsome

/-- Every request keeps objects under their own keys: an injection touches no object. -/
theorem keyed_perform (h : Keyed r kind) (req : Request) : Keyed (r.perform req) kind := by
  cases req with
  | inject other m =>
    intro key p hp
    have hsame : ((r.inject other m).record kind).objects = (r.record kind).objects := by
      rw [inject, record_commit]
      split
      · next he => rw [he]
      · rfl
    exact h key p (hsame ▸ hp)
  | _ =>
    refine (h.perform fun m hm ↦ ?_).keyed
    cases hm

end Informer.Registry
