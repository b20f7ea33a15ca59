import Informer.Proofs.RegistryWrites

/-!
# No lost update

A client reads an object, changes it and writes it back with the version that it read. Whatever
other clients ask meanwhile, the update is accepted only if nothing was done to the key since that
version was given out. A call holds the registry from its first step to its last, so the calls of
any number of clients are one sequence of requests.

This rests on two things. The version that a held payload carries is the one that the last accepted
write of its key took (`held_performAll`), and versions are never given out twice: they ascend over
all kinds and keys, so a version that was read is below every version that is given out later, also
to an object that was removed and created again (`heldVersion?_performAll`). The main result is
`no_lost_update`.

All payloads that are written to the kind must have an object for their metadata. An injection may
be of anything, for it takes a version and touches no object.
-/

namespace Informer.Registry

variable {r : Registry} {kind : Kind} {key : Key}

/-! ### Versions in payloads -/

/-- The version that a payload carries in its metadata. -/
def carriedVersion? (payload : Json) : Option Json := (metadataOf payload).get? "resourceVersion"

/-- How a version is written into a payload. -/
def versionJson (version : Nat) : Json := .string (toString version)

theorem versionJson_injective : Function.Injective versionJson := by
  intro a b h
  exact Nat.repr_injective (Json.string.inj h)

theorem carriedVersion?_stamp {payload : Json} (h : Standard payload) (uid : Json) (version : Nat) :
    carriedVersion? (stamp uid version payload) = some (versionJson version) := by
  obtain ⟨block, hblock⟩ := h.setMetadata "uid" uid
  rw [carriedVersion?, stamp, metadataOf, get?_setMetadata hblock]
  exact Json.member?_putMember_self "resourceVersion" _ block

/-- The version that the payload under a key carries. -/
def heldVersion? (r : Registry) (kind : Kind) (key : Key) : Option Json :=
  (r.get? kind key).bind carriedVersion?

/-- A request that writes to a kind writes an object for the metadata. -/
def Request.Tidy (kind : Kind) (req : Request) : Prop :=
  ∀ payload, req.written? = some (kind, payload) → Standard payload

/-! ### Requests and one key -/

/-- The request is accepted, and writes or removes the object under a key. -/
def Touches (r : Registry) (kind : Kind) (key : Key) (req : Request) : Prop :=
  ∃ left?, r.touch? req = some ⟨kind, key, left?⟩

/-- The request is an accepted write of the object under a key. -/
def Writes (r : Registry) (kind : Kind) (key : Key) (req : Request) : Prop :=
  ∃ stored, r.touch? req = some ⟨kind, key, some stored⟩

/-- The request is an accepted update of the object under a key, whose payload carries a version. -/
def UpdatesFrom (r : Registry) (kind : Kind) (key : Key) (v : Json) (req : Request) : Prop :=
  Writes r kind key req ∧ ∃ payload, req = .update kind payload ∧ carriedVersion? payload = some v

/-- None of some requests touches a key, when they are performed one after another. -/
def Untouched (r : Registry) (kind : Kind) (key : Key) : List Request → Prop
  | [] => True
  | req :: reqs => ¬ r.Touches kind key req ∧ (r.perform req).Untouched kind key reqs

/-- What a request that does not touch a key leaves there. -/
theorem get?_perform_of_not_touches {req : Request} (h : ¬ r.Touches kind key req) :
    (r.perform req).get? kind key = r.get? kind key := by
  obtain ⟨k, o, uid, last, m, hw⟩ | ⟨k, key', -, htouch, -, hdelete⟩ | ⟨-, hsame⟩ :=
    r.touch?_cases req
  · rw [hw.get?]
    refine if_neg ?_
    rintro ⟨rfl, rfl⟩
    exact h ⟨_, hw.touch?_eq⟩
  · rw [hdelete]
    refine if_neg ?_
    rintro ⟨rfl, rfl⟩
    exact h ⟨_, htouch⟩
  · exact hsame kind key

/-- An accepted write leaves the next version under its key. -/
theorem Writes.perform {req : Request} (h : r.Writes kind key req) (hreq : req.Tidy kind) :
    (r.perform req).lastVersion = r.lastVersion + 1 ∧
      (r.perform req).heldVersion? kind key = some (versionJson (r.lastVersion + 1)) := by
  obtain ⟨stored, htouch⟩ := h
  obtain ⟨k, o, uid, last, m, hw⟩ | ⟨k, key', -, hremoved, -⟩ | ⟨hnone, -⟩ := r.touch?_cases req
  · cases hw.touch?_eq.symm.trans htouch
    refine ⟨hw.lastVersion, ?_⟩
    rw [heldVersion?, hw.get?, if_pos ⟨rfl, rfl⟩, hw.stamped]
    exact carriedVersion?_stamp (hreq _ hw.written) uid _
  · cases hremoved.symm.trans htouch
  · cases hnone.symm.trans htouch

/-- A request that touches a key writes the object there, or removes it. -/
theorem touches_cases {req : Request} (h : r.Touches kind key req) :
    r.Writes kind key req ∨ (r.perform req).get? kind key = none := by
  obtain ⟨left?, htouch⟩ := h
  obtain ⟨k, o, uid, last, m, hw⟩ | ⟨k, key', -, hremoved, -, hdelete⟩ | ⟨hnone, -⟩ :=
    r.touch?_cases req
  · cases hw.touch?_eq.symm.trans htouch
    exact .inl ⟨_, hw.touch?_eq⟩
  · cases hremoved.symm.trans htouch
    exact .inr ((hdelete kind key).trans (if_pos ⟨rfl, rfl⟩))
  · cases hnone.symm.trans htouch

/-- A key is not touched in a run, or there is a last request that touches it. -/
theorem untouched_or_last_touch (r : Registry) (kind : Kind) (key : Key) (reqs : List Request) :
    r.Untouched kind key reqs ∨ ∃ first req later, reqs = first ++ req :: later ∧
      (r.performAll first).Touches kind key req ∧
      (r.performAll (first ++ [req])).Untouched kind key later := by
  induction reqs generalizing r with
  | nil => exact .inl trivial
  | cons req reqs ih =>
    obtain hun | ⟨first, touch, later, rfl, htouch, hlater⟩ := ih (r.perform req)
    · by_cases h : r.Touches kind key req
      · exact .inr ⟨[], req, reqs, rfl, h, hun⟩
      · exact .inl ⟨h, hun⟩
    · exact .inr ⟨req :: first, touch, later, rfl, htouch, hlater⟩

theorem Untouched.get?_performAll {reqs : List Request} (h : r.Untouched kind key reqs) :
    (r.performAll reqs).get? kind key = r.get? kind key := by
  induction reqs generalizing r with
  | nil => rfl
  | cons req reqs ih => exact (ih h.2).trans (get?_perform_of_not_touches h.1)

/-! ### Versions along a run -/

/-- **The version that is held was given by the last write.** When a payload is held under a key
after some requests, either none of them touched the key, or the last one that did wrote it and gave
the version that the payload carries. -/
theorem held_performAll {reqs : List Request} (hreqs : ∀ req ∈ reqs, req.Tidy kind)
    (hheld : (r.performAll reqs).get? kind key ≠ none) :
    (r.Untouched kind key reqs ∧
      (r.performAll reqs).heldVersion? kind key = r.heldVersion? kind key) ∨
    ∃ first write later, reqs = first ++ write :: later ∧
      (r.performAll first).Writes kind key write ∧
      (r.performAll (first ++ [write])).Untouched kind key later ∧
      (r.performAll (first ++ [write])).lastVersion = (r.performAll first).lastVersion + 1 ∧
      (r.performAll reqs).heldVersion? kind key =
        some (versionJson ((r.performAll first).lastVersion + 1)) := by
  obtain hun | ⟨first, write, later, rfl, htouch, hlater⟩ :=
    r.untouched_or_last_touch kind key reqs
  · exact .inl ⟨hun, by rw [heldVersion?, hun.get?_performAll]; rfl⟩
  · have hsame : (r.performAll (first ++ write :: later)).get? kind key =
        (r.performAll (first ++ [write])).get? kind key := by
      rw [← hlater.get?_performAll, ← performAll_append, List.append_assoc]
      rfl
    have hstep : r.performAll (first ++ [write]) = (r.performAll first).perform write := by
      rw [performAll_append]
      rfl
    obtain hwrites | hremoved := touches_cases htouch
    · obtain ⟨hlast, hversion⟩ := hwrites.perform (hreqs write (by simp))
      refine .inr ⟨first, write, later, rfl, hwrites, hlater, hstep ▸ hlast, ?_⟩
      rw [heldVersion?, hsame, hstep]
      exact hversion
    · rw [hsame, hstep, hremoved] at hheld
      exact absurd rfl hheld

/-- A version that is held after some requests was held before them, or was given out since. -/
theorem heldVersion?_performAll {reqs : List Request} (hreqs : ∀ req ∈ reqs, req.Tidy kind)
    {v : Json} (hv : (r.performAll reqs).heldVersion? kind key = some v) :
    r.heldVersion? kind key = some v ∨
      ∃ n, v = versionJson n ∧ r.lastVersion < n ∧ n ≤ (r.performAll reqs).lastVersion := by
  have hheld : (r.performAll reqs).get? kind key ≠ none := by
    intro hnone
    rw [heldVersion?, hnone] at hv
    cases hv
  obtain ⟨-, hsame⟩ | ⟨first, write, later, rfl, -, -, hlast, hversion⟩ :=
    held_performAll hreqs hheld
  · exact .inl (hsame ▸ hv)
  · have hle : (r.performAll (first ++ [write])).lastVersion ≤
        (r.performAll (first ++ write :: later)).lastVersion := by
      have := lastVersion_le_performAll (r.performAll (first ++ [write])) later
      rwa [← performAll_append, List.append_assoc] at this
    refine .inr ⟨_, Option.some.inj (hv.symm.trans hversion), ?_, hlast ▸ hle⟩
    exact Nat.lt_succ_of_le (lastVersion_le_performAll r first)

/-- Every version that is held was given out. -/
theorem heldVersion?_given {reqs : List Request} (hreqs : ∀ req ∈ reqs, req.Tidy kind) {v : Json}
    (hv : (performAll {} reqs).heldVersion? kind key = some v) :
    ∃ n, v = versionJson n ∧ n ≤ (performAll {} reqs).lastVersion := by
  obtain hnow | ⟨n, hn, -, hle⟩ := heldVersion?_performAll hreqs hv
  · simp [heldVersion?, get?, record] at hnow
  · exact ⟨n, hn, hle⟩

/-! ### Updates from a version that was read -/

/-- An update whose payload carries a version is accepted only if that version is held. -/
theorem heldVersion?_of_update {o : Object} {stored v : Json}
    (h : r.stored? (.update kind o.payload) = some stored)
    (hv : carriedVersion? o.payload = some v) : r.heldVersion? kind o.key = some v := by
  rw [stored?, update, Object.ofPayload_eq_ok_iff.2 rfl] at h
  rcases hcurrent : (r.record kind).objects[o.key]? with - | current
  · simp [hcurrent, Except.toOption] at h
  · have hexpected : (metadataOf o.payload).get? "resourceVersion" = some v := hv
    simp only [hcurrent, hexpected, Option.isSome_some, Bool.true_and] at h
    split at h
    · cases h
    · next hsame =>
      have heq : some v = (metadataOf current).get? "resourceVersion" := by simpa using hsame
      rw [heldVersion?, get?, hcurrent]
      exact heq.symm

theorem UpdatesFrom.held {v : Json} {req : Request} (h : r.UpdatesFrom kind key v req) :
    r.heldVersion? kind key = some v := by
  obtain ⟨⟨stored, htouch⟩, payload, rfl, hv⟩ := h
  obtain ⟨k, o, uid, last, m, hw⟩ | ⟨k, key', hreq, -⟩ | ⟨hnone, -⟩ := r.touch?_cases _
  · cases hw.touch?_eq.symm.trans htouch
    cases hw.written
    exact heldVersion?_of_update hw.stored hv
  · cases hreq
  · rw [hnone] at htouch
    cases htouch

/-- A client that asks now is told that the object under a key has a version. -/
inductive Tells (r : Registry) (kind : Kind) (key : Key) (v : Json) : Prop
  | get {p : Json} (held : r.get? kind key = some p) (version : carriedVersion? p = some v)
  | list {l : Listing} {e : Object} (answered : (r.list kind).2 = .ok l)
    (mem : e.payload ∈ l.payloads) (named : e.key = key)
    (version : carriedVersion? e.payload = some v)

theorem Tells.held {v : Json} (hk : Keyed r kind) (h : r.Tells kind key v) :
    r.heldVersion? kind key = some v := by
  cases h with
  | get hheld hv => rw [heldVersion?, hheld, ← hv]; rfl
  | @list l e hanswered hmem hnamed hv =>
    obtain ⟨key', hget⟩ := (mem_payloads_iff hanswered).1 hmem
    obtain ⟨e', he', rfl⟩ := hk key' e.payload hget
    obtain rfl : e' = e := Object.ext_payload he'
    rw [heldVersion?, ← hnamed, hget, ← hv]
    rfl

/-- Nothing is held under a key after a request to remove it, accepted or not. -/
theorem heldVersion?_perform_delete (r : Registry) (kind : Kind) (key : Key) :
    (r.perform (.delete kind key)).heldVersion? kind key = none := by
  have hgone : (r.perform (.delete kind key)).get? kind key = none := by
    obtain ⟨k, o, uid, last, m, hw⟩ | ⟨k, key', hreq, -, -, hdelete⟩ | ⟨hnone, hsame⟩ :=
      r.touch?_cases (.delete kind key)
    · cases hw.written
    · cases hreq
      exact (hdelete kind key).trans (if_pos ⟨rfl, rfl⟩)
    · rw [hsame]
      rcases hcurrent : (r.record kind).objects[key]? with - | current
      · exact hcurrent
      · simp [touch?, delete, hcurrent, Except.toOption] at hnone
  rw [heldVersion?, hgone]
  rfl

/-- A version that was held is neither held nor given out again once it is no longer held: an update
that carries it is refused. -/
theorem not_updatesFrom_performAll (reqs : List Request) (hreqs : ∀ req ∈ reqs, req.Tidy kind)
    {n : Nat} (hn : n ≤ r.lastVersion) (hgone : r.heldVersion? kind key ≠ some (versionJson n))
    (req : Request) : ¬ (r.performAll reqs).UpdatesFrom kind key (versionJson n) req := by
  intro h
  obtain hheld | ⟨m, hm, hlt, -⟩ := heldVersion?_performAll hreqs h.held
  · exact hgone hheld
  · have heq : n = m := versionJson_injective hm
    omega

/-- **No update is lost.** Any number of clients ask for anything, in any order, and every payload
that is written to the kind has an object for its metadata.

* An accepted update whose payload carries a version carries the one that the last accepted write of
  the key took, and between that write and the update no request touched the key.
* Of two updates of a key that carry the same version one at most is accepted.
* An update that carries a version that was read before the object was removed is refused, whether
  or not the object has been created again. -/
theorem no_lost_update (kind : Kind) (key : Key) (reqs : List Request)
    (hreqs : ∀ req ∈ reqs, req.Tidy kind) :
    (∀ before u rest v, reqs = before ++ u :: rest →
      (performAll {} before).UpdatesFrom kind key v u →
      ∃ first write later, before = first ++ write :: later ∧
        (performAll {} first).Writes kind key write ∧
        (performAll {} (first ++ [write])).Untouched kind key later ∧
        v = versionJson (performAll {} (first ++ [write])).lastVersion) ∧
    (∀ before u middle u' rest v, reqs = before ++ u :: (middle ++ u' :: rest) →
      (performAll {} before).UpdatesFrom kind key v u →
      ¬ (performAll {} (before ++ u :: middle)).UpdatesFrom kind key v u') ∧
    (∀ before middle later u rest v,
      reqs = before ++ (middle ++ .delete kind key :: (later ++ u :: rest)) →
      (performAll {} before).Tells kind key v →
      ¬ (performAll {} (before ++ (middle ++ .delete kind key :: later))).UpdatesFrom kind key v
        u) := by
  refine ⟨?_, ?_, ?_⟩
  · rintro before u rest v rfl hu
    have htidy : ∀ req ∈ before, req.Tidy kind :=
      fun req h ↦ hreqs req (List.mem_append_left _ h)
    have hheld : (performAll {} before).get? kind key ≠ none := by
      intro hnone
      have hv := hu.held
      rw [heldVersion?, hnone] at hv
      cases hv
    obtain ⟨-, hempty⟩ | ⟨first, write, later, rfl, hwrites, hlater, hlast, hversion⟩ :=
      held_performAll htidy hheld
    · have hv := hempty.symm.trans hu.held
      simp [heldVersion?, get?, record] at hv
    · refine ⟨first, write, later, rfl, hwrites, hlater, ?_⟩
      rw [hlast]
      exact Option.some.inj (hu.held.symm.trans hversion)
  · rintro before u middle u' rest v rfl hu
    obtain ⟨n, rfl, hn⟩ := heldVersion?_given
      (fun req h ↦ hreqs req (List.mem_append_left _ h)) hu.held
    -- the first of the two takes a new version
    obtain ⟨hlast, hversion⟩ := hu.1.perform (hreqs u (by simp))
    have hgone : ((performAll {} before).perform u).heldVersion? kind key ≠
        some (versionJson n) := by
      intro hheld
      have heq := versionJson_injective (Option.some.inj (hversion.symm.trans hheld))
      omega
    have hrefused := not_updatesFrom_performAll middle
      (fun req h ↦ hreqs req (by simp [h])) (hlast ▸ Nat.le_succ_of_le hn) hgone u'
    rwa [← performAll_cons, ← performAll_append] at hrefused
  · rintro before middle later u rest v rfl htells
    obtain ⟨n, rfl, hn⟩ := heldVersion?_given
      (fun req h ↦ hreqs req (List.mem_append_left _ h))
      (htells.held (keyed_performAll (keyed_empty kind) before))
    have hle : n ≤ ((performAll {} (before ++ middle)).perform (.delete kind key)).lastVersion := by
      have hgrown := lastVersion_le_performAll (performAll {} before) (middle ++ [.delete kind key])
      rw [performAll_append, ← performAll_append {} before] at hgrown
      exact Nat.le_trans hn hgrown
    have hgone : ((performAll {} (before ++ middle)).perform (.delete kind key)).heldVersion? kind
        key ≠ some (versionJson n) := by
      rw [heldVersion?_perform_delete]
      exact (Option.some_ne_none _).symm
    have hrefused := not_updatesFrom_performAll later
      (fun req h ↦ hreqs req (by simp [h])) hle hgone u
    rwa [← performAll_cons, ← performAll_append, List.append_assoc] at hrefused

/-- A payload with a name and a version. -/
def versionedPayload (name : String) (version : Nat) : Json :=
  .object [("metadata", .object [("name", .string name), ("resourceVersion", versionJson version)])]

/-- Two clients update the first version of an object: the second is refused, and it is refused
again after the object was removed and created anew. -/
theorem no_lost_update_of_race :
    let key : Key := ⟨none, "a"⟩
    let created : Request := .create nodeKind (namedPayload "a")
    let u : Request := .update nodeKind (versionedPayload "a" 1)
    (performAll {} [created]).UpdatesFrom nodeKind key (versionJson 1) u ∧
    ¬ (performAll {} [created, u]).UpdatesFrom nodeKind key (versionJson 1) u ∧
    ¬ (performAll {} [created, u, u, .delete nodeKind key, created]).UpdatesFrom nodeKind key
      (versionJson 1) u := by
  intro key created u
  have hupdate : (performAll {} [created]).UpdatesFrom nodeKind key (versionJson 1) u :=
    ⟨⟨stamp (.string "uid-1") 2 (versionedPayload "a" 1), by decide⟩, _, rfl, by decide⟩
  have hnamed : created.Tidy nodeKind := by
    rintro _ ⟨⟩
    exact ⟨_, rfl⟩
  have hversioned : u.Tidy nodeKind := by
    rintro _ ⟨⟩
    exact ⟨_, rfl⟩
  have hdelete : (Request.delete nodeKind key).Tidy nodeKind := by
    rintro _ ⟨⟩
  have htidy : ∀ req ∈ [created, u, u, .delete nodeKind key, created, u], req.Tidy nodeKind := by
    simp [hnamed, hversioned, hdelete]
  obtain ⟨-, hsecond, hremoved⟩ := no_lost_update nodeKind key _ htidy
  refine ⟨hupdate, hsecond [created] u [] u [.delete nodeKind key, created, u] _ rfl hupdate, ?_⟩
  refine hremoved [created] [u, u] [created] u [] _ rfl ?_
  exact .get (p := stamp (.string "uid-1") 1 (namedPayload "a")) (by decide) (by decide)

end Informer.Registry
