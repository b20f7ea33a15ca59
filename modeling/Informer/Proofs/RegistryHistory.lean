import Informer.Proofs.History
import Informer.Proofs.RegistryRun
import Informer.Proofs.Stamping
import Informer.Reflector
import Mathlib.Data.List.Induction

/-!
# The registry and its history

What the recorded mutations of a kind say about its objects. As long as every payload that is
written has an object for its metadata and nothing is injected, the objects of a kind are what its
recorded mutations lead to, versions ascend, and every recorded payload carries its version
(`Sound`, which every such request keeps: `Sound.perform`). So two recorded payloads with one
version are one payload (`Sound.payload_eq`).
-/

namespace Informer

/-! ### What mutations lead to -/

/-- The object that a change is about. -/
def Change.object : Change → Object
  | upsert o => o
  | remove o => o

/-- The change that a mutation stands for is about the object in its payload. -/
theorem Entry.payload_changeOf {m : Mutation} {change : Change} (h : changeOf m = .ok change) :
    change.object.payload = m.payload := by
  cases m with
  | _ p =>
    rcases ho : Object.ofPayload p with e | o
    · simp only [changeOf, ho] at h
      cases h
    · simp only [changeOf, ho] at h
      cases h
      exact Object.ofPayload_eq_ok_iff.1 ho

/-- The payloads by key after a mutation. -/
def Mutation.carry (held : Std.ExtTreeMap Key Json) (m : Mutation) : Std.ExtTreeMap Key Json :=
  match Entry.changeOf m with
  | .ok (.upsert o) => held.insert o.key o.payload
  | .ok (.remove o) => held.erase o.key
  | .error _ => held

/-- The payloads by key that recorded mutations lead to. -/
def contents (entries : List (Nat × Mutation)) : Std.ExtTreeMap Key Json :=
  entries.foldl (fun held x ↦ x.2.carry held) ∅

theorem contents_append (entries later : List (Nat × Mutation)) :
    contents (entries ++ later) = later.foldl (fun held x ↦ x.2.carry held) (contents entries) :=
  List.foldl_append

theorem contents_concat (entries : List (Nat × Mutation)) (x : Nat × Mutation) :
    contents (entries ++ [x]) = x.2.carry (contents entries) :=
  contents_append entries [x]

theorem Mutation.carry_added (held : Std.ExtTreeMap Key Json) (o : Object) :
    (Mutation.added o.payload).carry held = held.insert o.key o.payload := by
  rw [carry, Entry.changeOf, Object.ofPayload_eq_ok_iff.2 rfl]
  rfl

theorem Mutation.carry_modified (held : Std.ExtTreeMap Key Json) (o : Object) :
    (Mutation.modified o.payload).carry held = held.insert o.key o.payload := by
  rw [carry, Entry.changeOf, Object.ofPayload_eq_ok_iff.2 rfl]
  rfl

theorem Mutation.carry_deleted (held : Std.ExtTreeMap Key Json) (o : Object) :
    (Mutation.deleted o.payload).carry held = held.erase o.key := by
  rw [carry, Entry.changeOf, Object.ofPayload_eq_ok_iff.2 rfl]
  rfl

/-- What is held came with a recorded mutation, and is an object under its own key. -/
theorem of_getElem?_contents {entries : List (Nat × Mutation)} {key : Key} {p : Json}
    (h : (contents entries)[key]? = some p) :
    ∃ o : Object, o.payload = p ∧ o.key = key ∧ ∃ x ∈ entries, x.2.payload = p := by
  induction entries using List.reverseRecOn with
  | nil => simp [contents] at h
  | append_singleton entries x ih =>
    -- what the last mutation did not put there was held before it
    have hold : (contents entries)[key]? = some p →
        ∃ o : Object, o.payload = p ∧ o.key = key ∧ ∃ y ∈ entries ++ [x], y.2.payload = p := by
      intro hp
      obtain ⟨o, ho, hkey, y, hy, hpayload⟩ := ih hp
      exact ⟨o, ho, hkey, y, List.mem_append_left _ hy, hpayload⟩
    rw [contents_concat, Mutation.carry] at h
    split at h
    · next o hchange =>
      rw [Key.getElem?_insert] at h
      split at h
      · next hkey =>
        refine ⟨o, Option.some.inj h, hkey, x, List.mem_append_right _ List.mem_cons_self, ?_⟩
        rw [← Option.some.inj h, ← Entry.payload_changeOf hchange]
        rfl
      · exact hold h
    · rw [Key.getElem?_erase] at h
      split at h
      · cases h
      · exact hold h
    · exact hold h

/-! ### Histories that tell the truth -/

namespace Registry

variable {r : Registry} {kind : Kind}

/-- A request that leaves the history of a kind true: what it writes there has an object for its
metadata, and it injects nothing there. -/
def Request.Honest (kind : Kind) : Request → Prop
  | .create k payload => k = kind → Standard payload
  | .update k payload => k = kind → Standard payload
  | .inject k _ => k ≠ kind
  | _ => True

/-- The recorded mutations of a kind account for its objects, and versions for payloads. -/
structure Sound (r : Registry) (kind : Kind) : Prop where
  ascending : (r.record kind).history.Pairwise (·.1 < ·.1)
  bounded : ∀ x ∈ (r.record kind).history, x.1 ≤ r.lastVersion
  objects : (r.record kind).objects = contents (r.record kind).history
  standard : ∀ x ∈ (r.record kind).history, Standard x.2.payload
  stamped : ∀ x ∈ (r.record kind).history, ∀ o : Object, o.payload = x.2.payload →
    o.version? = some (toString x.1)

theorem sound_empty (kind : Kind) : Sound {} kind where
  ascending := by simp [record]
  bounded x h := by simp [record] at h
  objects := by simp [record, contents]
  standard x h := by simp [record] at h
  stamped x h := by simp [record] at h

/-- Nothing was written to the kind. -/
theorem Sound.frame (h : Sound r kind) {r' : Registry}
    (hh : (r'.record kind).history = (r.record kind).history)
    (ho : (r'.record kind).objects = (r.record kind).objects)
    (hv : r.lastVersion ≤ r'.lastVersion) : Sound r' kind where
  ascending := hh ▸ h.ascending
  bounded x hx := Nat.le_trans (h.bounded x (hh ▸ hx)) hv
  objects := by rw [ho, hh, h.objects]
  standard x hx := h.standard x (hh ▸ hx)
  stamped x hx := h.stamped x (hh ▸ hx)

/-- A commit on another kind. -/
theorem Sound.commit_of_ne (h : Sound r kind) {r₀ : Registry} (ha : Alike r r₀) {other : Kind}
    (hne : other ≠ kind) (ho : (r₀.record kind).objects = (r.record kind).objects) (m : Mutation) :
    Sound (r₀.commit other m) kind := by
  have hrecord : (r₀.commit other m).record kind = r₀.record kind := by
    rw [record_commit, if_neg hne.symm]
  refine h.frame (by rw [hrecord, ha.history]) (by rw [hrecord, ho]) ?_
  rw [lastVersion_commit, ha.lastVersion]
  exact Nat.le_succ _

/-- A commit on the kind, of a mutation that carries its version and accounts for the objects. -/
theorem Sound.commit (h : Sound r kind) {r₀ : Registry} (ha : Alike r r₀) {m : Mutation}
    (hs : Standard m.payload) {o : Object} (ho : o.payload = m.payload)
    (hv : o.version? = some (toString (r.lastVersion + 1)))
    (hobjects : (r₀.record kind).objects = m.carry (r.record kind).objects) :
    Sound (r₀.commit kind m) kind := by
  have hrecord : (r₀.commit kind m).record kind = { r₀.record kind with
      history := (r.record kind).history ++ [(r.lastVersion + 1, m)]
      watchers := r₀.live kind } := by
    rw [record_commit, if_pos rfl, ha.history, ha.lastVersion]
  have hlast : (r₀.commit kind m).lastVersion = r.lastVersion + 1 := by
    rw [lastVersion_commit, ha.lastVersion]
  have hmem : ∀ {p : Nat × Mutation → Prop}, (∀ x ∈ (r.record kind).history, p x) →
      p (r.lastVersion + 1, m) →
        ∀ x ∈ (r.record kind).history ++ [(r.lastVersion + 1, m)], p x := by
    intro p hold hnew x hx
    rcases List.mem_append.1 hx with hx | hx
    · exact hold x hx
    · exact List.mem_singleton.1 hx ▸ hnew
  constructor
  · rw [hrecord]
    refine List.pairwise_append.2 ⟨h.ascending, List.pairwise_singleton _ _, fun x hx y hy ↦ ?_⟩
    rw [List.mem_singleton.1 hy]
    exact Nat.lt_succ_of_le (h.bounded x hx)
  · rw [hrecord, hlast]
    exact hmem (fun x hx ↦ Nat.le_succ_of_le (h.bounded x hx)) (Nat.le_refl _)
  · rw [hrecord, contents_concat, ← h.objects]
    exact hobjects
  · rw [hrecord]
    exact hmem h.standard hs
  · rw [hrecord]
    exact hmem h.stamped fun o' ho' ↦ Object.ext_payload (ho'.trans ho.symm) ▸ hv

/-- What a kind holds under a key is an object with that key, whose metadata is an object. -/
theorem Sound.exists_object (h : Sound r kind) {key : Key} {p : Json}
    (hp : (r.record kind).objects[key]? = some p) :
    ∃ o : Object, o.payload = p ∧ o.key = key ∧ Standard o.payload := by
  rw [h.objects] at hp
  obtain ⟨o, ho, hkey, x, hx, hpayload⟩ := of_getElem?_contents hp
  exact ⟨o, ho, hkey, ho ▸ hpayload ▸ h.standard x hx⟩

theorem objects_putObject (r : Registry) (kind : Kind) (key : Key) (p : Json) (other : Kind) :
    ((r.putObject kind key p).record other).objects =
      if other = kind then (r.record kind).objects.insert key p else (r.record other).objects := by
  rw [putObject, record_modify]
  split <;> rfl

theorem objects_eraseObject (r : Registry) (kind : Kind) (key : Key) (other : Kind) :
    ((r.eraseObject kind key).record other).objects =
      if other = kind then (r.record kind).objects.erase key else (r.record other).objects := by
  rw [eraseObject, record_modify]
  split <;> rfl

/-- Putting a stamped payload under its key and committing it. -/
theorem Sound.put (h : Sound r kind) {r₀ : Registry} (ha : Alike r r₀)
    (hobjects : (r₀.record kind).objects = (r.record kind).objects) {o : Object}
    (ho : Standard o.payload) {uid : Json} {uid? : Option String}
    (huid : Decode.nullable Decode.text uid = .ok uid?) {m : Mutation}
    (hm : m = .added (stamp uid (r.lastVersion + 1) o.payload) ∨
      m = .modified (stamp uid (r.lastVersion + 1) o.payload)) :
    Sound ((r₀.putObject kind o.key m.payload).commit kind m) kind := by
  obtain ⟨s, hs, hmeta⟩ := exists_object_stamp ho huid (r.lastVersion + 1)
  have hkey : s.key = o.key := by rw [Object.key, hmeta]; rfl
  have hversion : s.version? = some (toString (r.lastVersion + 1)) := by rw [Object.version?, hmeta]
  have hpayload : m.payload = s.payload := by rcases hm with rfl | rfl <;> exact hs.symm
  refine h.commit (ha.trans (r₀.alike_putObject kind o.key m.payload)) ?_ hpayload.symm hversion ?_
  · rw [hpayload, hs]
    exact ho.stamp uid _
  · rw [objects_putObject, if_pos rfl, hobjects, hpayload, ← hkey]
    rcases hm with rfl | rfl
    · rw [← hs, Mutation.carry_added]
    · rw [← hs, Mutation.carry_modified]

theorem Sound.create (h : Sound r kind) {other : Kind} {payload : Json}
    (hp : other = kind → Standard payload) : Sound (r.create other payload).1 kind := by
  obtain ⟨e, n, -, hr⟩ | ⟨o, uid, stored, rfl, -, hs, -, hr⟩ := r.create_cases other payload
  · rw [hr]
    exact h.frame rfl rfl (Nat.le_refl _)
  · rw [hr]
    by_cases he : other = kind
    · subst he
      have huid : Decode.nullable Decode.text (.string uid) = .ok (some uid) := rfl
      exact h.put (r.alike_lastUid (r.lastUid + 1)) rfl (hp rfl) huid (m := .added stored)
        (.inl (hs ▸ rfl))
    · refine h.commit_of_ne ((r.alike_lastUid _).trans (alike_putObject _ _ _ _)) he ?_ _
      rw [objects_putObject, if_neg (Ne.symm he)]
      rfl

theorem Sound.update (h : Sound r kind) {other : Kind} {payload : Json}
    (hp : other = kind → Standard payload) : Sound (r.update other payload).1 kind := by
  obtain ⟨e, hr⟩ | ⟨o, current, stored, rfl, hcurrent, hs, hr⟩ := r.update_cases other payload
  · rw [hr]
    exact h
  · rw [hr]
    by_cases he : other = kind
    · subst he
      obtain ⟨c, rfl, -, hc⟩ := h.exists_object hcurrent
      exact h.put (.refl r) rfl (hp rfl) (nullable_uid hc) (m := .modified stored) (.inr (hs ▸ rfl))
    · refine h.commit_of_ne (r.alike_putObject _ _ _) he ?_ _
      rw [objects_putObject, if_neg (Ne.symm he)]

theorem Sound.delete (h : Sound r kind) (other : Kind) (key : Key) :
    Sound (r.delete other key).1 kind := by
  obtain ⟨e, hr⟩ | ⟨current, last, hcurrent, rfl, hr⟩ := r.delete_cases other key
  · rw [hr]
    exact h
  · rw [hr]
    by_cases he : other = kind
    · subst he
      obtain ⟨c, rfl, rfl, hc⟩ := h.exists_object hcurrent
      obtain ⟨s, hs, hmeta⟩ := exists_object_setVersion hc (r.lastVersion + 1)
      have hkey : s.key = c.key := by rw [Object.key, hmeta]; rfl
      have hversion : s.version? = some (toString (r.lastVersion + 1)) := by
        rw [Object.version?, hmeta]
      rw [← hs]
      refine h.commit (r.alike_eraseObject other c.key) ?_ rfl hversion ?_
      · exact hs ▸ hc.setMetadata _ _
      · rw [objects_eraseObject, if_pos rfl, Mutation.carry_deleted, hkey]
    · refine h.commit_of_ne (r.alike_eraseObject _ _) he ?_ _
      rw [objects_eraseObject, if_neg (Ne.symm he)]

/-- **Honest requests keep the history of a kind true.** -/
theorem Sound.perform (h : Sound r kind) {req : Request} (hreq : req.Honest kind) :
    Sound (r.perform req) kind := by
  cases req with
  | create other payload => exact h.create hreq
  | update other payload => exact h.update hreq
  | delete other key => exact h.delete other key
  | inject other m => exact h.commit_of_ne (.refl r) hreq rfl m
  | breakWatches other e =>
    obtain ⟨hobjects, hhistory⟩ := r.kept_breakWatches other e kind
    exact h.frame hhistory hobjects (Nat.le_refl _)
  | failLists other n =>
    exact h.frame ((alike_modify r other (by exact fun _ ↦ ⟨rfl, rfl⟩)).history kind)
      (objects_modify r other (by exact fun _ ↦ rfl) kind) (Nat.le_refl _)
  | list other =>
    obtain ⟨ha, hobjects, -⟩ := r.list_spec other
    exact h.frame (ha.history kind) (hobjects kind) (Nat.le_of_eq ha.lastVersion.symm)
  | watch other version? =>
    rw [Registry.perform]
    obtain ⟨e, hr⟩ | ⟨missed, hr, -⟩ := r.watch_cases other version?
    · rw [hr]
      exact h
    · rw [hr]
      obtain ⟨hobjects, hhistory⟩ := r.kept_openWatch other missed kind
      exact h.frame hhistory hobjects (Nat.le_refl _)
  | read n => exact h.frame rfl rfl (Nat.le_refl _)
  | drop n => exact h.frame rfl rfl (Nat.le_refl _)

/-- **Versions determine payloads**: of the payloads that were recorded for a kind, two with one
version are one. -/
theorem Sound.payload_eq (h : Sound r kind) {x y : Nat × Mutation}
    (hx : x ∈ (r.record kind).history) (hy : y ∈ (r.record kind).history) {a b : Object}
    (ha : a.payload = x.2.payload) (hb : b.payload = y.2.payload) (hv : a.version? = b.version?) :
    a = b := by
  rw [h.stamped x hx a ha, h.stamped y hy b hb] at hv
  -- versions ascend, so the history has one entry for a version
  have hxy : x.1 = y.1 := Nat.repr_injective (Option.some.inj hv)
  have hone : ∀ u ∈ (r.record kind).history, ∀ v ∈ (r.record kind).history, u.1 = v.1 → u = v :=
    List.Pairwise.forall_of_forall_of_flip (fun _ _ _ ↦ rfl)
      (h.ascending.imp fun hlt he ↦ absurd he (Nat.ne_of_lt hlt))
      (h.ascending.imp fun hlt he ↦ absurd he (Nat.ne_of_gt hlt))
  exact Object.ext_payload (by rw [ha, hb, hone x hx y hy hxy])

end Registry

end Informer
