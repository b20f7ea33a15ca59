import Informer.Proofs.WatchRun

/-!
# Accepted writes

A creation or an update that is accepted takes the next version, and stores, records and answers
with one payload (`Wrote`). Under its key a request that is accepted leaves a payload or nothing,
and no request does anything to any other key (`get?_perform_of_touch?`, `get?_perform_of_none`).

Identifiers are drawn from a counter that never goes back. Every object that was stored with an
object for its metadata has an identifier that was drawn before, or none (`Drawn`); so the one that
a creation draws is new (`Numbered.ne_next`).

Metadata may also be written as an array of its fields. Such metadata decode and are accepted, and
stamping leaves them alone: what is stored then is the payload as it was given, with the identifier
and the version that the writer chose, or with none. The main result, `accepted_write_stamped`, says
what holds of both forms, and what holds of the one that is stamped.
-/

namespace Informer

namespace Registry

variable {r : Registry} {kind : Kind}

/-! ### What stamping leaves alone -/

/-- The metadata of a payload, after a field of them was set. -/
theorem metadataOf_setMetadata {payload : Json} (h : Standard payload) {name other : String}
    (hne : other ≠ name) (v : Json) :
    (metadataOf (setMetadata name v payload)).get? other = (metadataOf payload).get? other := by
  obtain ⟨block, hblock⟩ := h
  rw [metadataOf, get?_setMetadata hblock, metadataOf, hblock]
  exact Json.member?_putMember_of_ne hne v block

/-- Setting a field of the metadata changes no other member of the payload. -/
theorem get?_setMetadata_of_ne {other : String} (hne : other ≠ "metadata") (name : String)
    (v payload : Json) : (setMetadata name v payload).get? other = payload.get? other := by
  cases payload with
  | object members =>
    rw [setMetadata]
    split
    · exact Json.member?_putMember_of_ne hne _ members
    · rfl
  | _ => rfl

/-- A stored payload is the payload that was given, but for the identifier and the version in its
metadata. -/
structure AsGiven (payload stored : Json) : Prop where
  members : ∀ name, name ≠ "metadata" → stored.get? name = payload.get? name
  metadata : ∀ name, name ≠ "uid" → name ≠ "resourceVersion" →
    (metadataOf stored).get? name = (metadataOf payload).get? name
  unstamped : ¬ Standard payload → stored = payload

theorem asGiven_stamp (uid : Json) (version : Nat) (payload : Json) :
    AsGiven payload (stamp uid version payload) where
  members name hname := by
    rw [stamp, get?_setMetadata_of_ne hname, get?_setMetadata_of_ne hname]
  metadata name huid hversion := by
    by_cases h : Standard payload
    · rw [stamp, metadataOf_setMetadata (h.setMetadata _ _) hversion,
        metadataOf_setMetadata h huid]
    · rw [stamp, setMetadata_of_not_standard h, setMetadata_of_not_standard h]
  unstamped h := by
    rw [stamp, setMetadata_of_not_standard h, setMetadata_of_not_standard h]

/-! ### What a write does -/

/-- The kind and the payload of a request to write. -/
def Request.written? : Request → Option (Kind × Json)
  | .create kind payload | .update kind payload => some (kind, payload)
  | _ => none

/-- The payload that an accepted write stores and answers with. -/
def stored? (r : Registry) : Request → Option Json
  | .create kind payload => (r.create kind payload).2.toOption
  | .update kind payload => (r.update kind payload).2.toOption
  | _ => none

/-- The identifier with a number. -/
def uidText (n : Nat) : String := "uid-" ++ toString n

theorem uidText_injective : Function.Injective uidText := by
  intro a b h
  exact Nat.repr_injective ((String.append_right_inj "uid-").1 h)

/-- Where a write takes the identifier from, and the number of the identifier drawn last: a creation
draws the next one, an update hands on the one that is held. -/
inductive Identifies (r : Registry) (kind : Kind) (key : Key) : Request → Json → Nat → Prop
  | drawn (payload : Json) (absent : r.get? kind key = none) :
    Identifies r kind key (.create kind payload) (.string (uidText (r.lastUid + 1))) (r.lastUid + 1)
  | inherited (payload : Json) {current : Json} (held : r.get? kind key = some current) :
    Identifies r kind key (.update kind payload) (((metadataOf current).get? "uid").getD .null)
      r.lastUid

/-- A write of an object was accepted: its payload is stamped, put under its key and committed with
the mutation `m`. -/
structure Wrote (r : Registry) (req : Request) (kind : Kind) (o : Object) (uid : Json) (last : Nat)
    (m : Mutation) : Prop where
  written : req.written? = some (kind, o.payload)
  identifies : Identifies r kind o.key req uid last
  stamped : m.payload = stamp uid (r.lastVersion + 1) o.payload
  stored : r.stored? req = some m.payload
  recorded : r.recorded? req = some (kind, m)
  perform : r.perform req =
    (putObject { r with lastUid := last } kind o.key m.payload).commit kind m

/-- **What an accepted write does.** -/
theorem wrote_of_stored? {req : Request} {payload stored : Json}
    (hreq : req.written? = some (kind, payload)) (h : r.stored? req = some stored) :
    ∃ o uid last m, o.payload = payload ∧ m.payload = stored ∧ Wrote r req kind o uid last m := by
  cases req with
  | create k p =>
    cases hreq
    obtain ⟨e, n, -, hr⟩ | ⟨o, uid, s, rfl, huid, hs, habsent, hr⟩ := r.create_cases kind payload
    · rw [stored?, hr] at h
      cases h
    · have hstored : r.stored? (.create kind o.payload) = some s := by
        rw [stored?, hr]
        rfl
      obtain rfl : s = stored := Option.some.inj (hstored.symm.trans h)
      refine ⟨o, .string uid, r.lastUid + 1, .added s, rfl, rfl, rfl, ?_, hs, hstored, ?_, ?_⟩
      · exact huid ▸ .drawn o.payload habsent
      · rw [recorded?, hr]
        rfl
      · rw [Registry.perform, hr]
        rfl
  | update k p =>
    cases hreq
    obtain ⟨e, hr⟩ | ⟨o, current, s, rfl, hcurrent, hs, hr⟩ := r.update_cases kind payload
    · rw [stored?, hr] at h
      cases h
    · have hstored : r.stored? (.update kind o.payload) = some s := by
        rw [stored?, hr]
        rfl
      obtain rfl : s = stored := Option.some.inj (hstored.symm.trans h)
      refine ⟨o, _, r.lastUid, .modified s, rfl, rfl, rfl, .inherited o.payload hcurrent, hs,
        hstored, ?_, ?_⟩
      · rw [recorded?, hr]
        rfl
      · rw [Registry.perform, hr]
        rfl
  | _ => cases hreq

/-- Only requests to write store anything. -/
theorem written?_of_stored? {req : Request} {stored : Json} (h : r.stored? req = some stored) :
    ∃ kind payload, req.written? = some (kind, payload) := by
  cases req with
  | create kind payload | update kind payload => exact ⟨kind, payload, rfl⟩
  | _ => cases h

section Wrote

variable {req : Request} {o : Object} {uid : Json} {last : Nat} {m : Mutation}

theorem Wrote.lastVersion (h : Wrote r req kind o uid last m) :
    (r.perform req).lastVersion = r.lastVersion + 1 := by
  rw [h.perform]
  rfl

theorem Wrote.lastUid (h : Wrote r req kind o uid last m) : (r.perform req).lastUid = last := by
  rw [h.perform]
  rfl

/-- Under its key a write leaves what it stores, and under other keys what was there. -/
theorem Wrote.get? (h : Wrote r req kind o uid last m) (other : Kind) (key : Key) :
    (r.perform req).get? other key =
      if other = kind ∧ o.key = key then some m.payload else r.get? other key := by
  have hobjects : ((r.perform req).record other).objects =
      if other = kind then (r.record kind).objects.insert o.key m.payload
      else (r.record other).objects := by
    rw [h.perform, record_commit]
    split
    · next he => exact (objects_putObject _ kind o.key m.payload kind).trans (if_pos rfl)
    · next he => exact (objects_putObject _ kind o.key m.payload other).trans (if_neg he)
  rw [Registry.get?, hobjects]
  by_cases he : other = kind
  · subst he
    simp only [if_pos, Key.getElem?_insert, true_and]
    rfl
  · rw [if_neg he, if_neg fun hk ↦ he hk.1]
    rfl

/-- What is stored is held, listed, recorded under the new version and sent to the open watches. No
other payload with its key is listed, and the list call is answered unless it was to be refused. -/
structure Told (r r' : Registry) (kind : Kind) (key : Key) (m : Mutation) : Prop where
  held : r'.get? kind key = some m.payload
  listed : ∀ l, (r'.list kind).2 = .ok l → m.payload ∈ l.payloads ∧
    ∀ e : Object, e.payload ∈ l.payloads → e.key = key → e.payload = m.payload
  answered : (r'.record kind).failingLists = 0 → ∃ l, (r'.list kind).2 = .ok l
  recorded : (r'.record kind).history = (r.record kind).history ++ [(r'.lastVersion, m)]
  sent : ∀ n ∈ r.live kind, r'.waiting n = r.waiting n ++ [.mutation m]

/-- A list call holds what is held under some key. -/
theorem mem_payloads_iff {l : Listing} (hl : (r.list kind).2 = .ok l) {p : Json} :
    p ∈ l.payloads ↔ ∃ key, r.get? kind key = some p := by
  rw [(r.list_spec kind).2.2 l hl]
  simp [Registry.get?, List.mem_map, Std.ExtTreeMap.mem_toList_iff_getElem?_eq_some]

theorem exists_list (h : (r.record kind).failingLists = 0) : ∃ l, (r.list kind).2 = .ok l := by
  rw [list, record_modify, if_pos rfl]
  simp [h]

theorem Wrote.told (h : Wrote r req kind o uid last m) (hw : Wired r) (hk : Keyed r kind) :
    Told r (r.perform req) kind o.key m := by
  have hheld : (r.perform req).get? kind o.key = some m.payload := by
    rw [h.get?, if_pos ⟨rfl, rfl⟩]
  refine ⟨hheld, fun l hl ↦ ⟨(mem_payloads_iff hl).2 ⟨o.key, hheld⟩, fun e he hkey ↦ ?_⟩,
    exists_list, ?_, fun n hn ↦ ?_⟩
  · -- what is held under a key is an object with that key
    obtain ⟨key, hget⟩ := (mem_payloads_iff hl).1 he
    obtain ⟨e', he', rfl⟩ := keyed_perform hk req key e.payload hget
    obtain rfl : e' = e := Object.ext_payload he'
    rw [hkey, hheld] at hget
    exact (Option.some.inj hget).symm
  · rw [(r.history_perform_eq req kind).1, additions_of_some h.recorded, if_pos rfl, h.lastVersion]
  · -- the live watches of the kind have streams of their own, and the commit sends once to each
    have hlive : (putObject { r with lastUid := last } kind o.key m.payload).live kind =
        r.live kind := by
      rw [Registry.live, (alike_putObject _ kind o.key m.payload).watchers]
      rfl
    rw [waiting, h.perform, streams_commit, hlive, Streams.get_sendAll (hw.nodup_live kind),
      if_pos hn]
    show ((r.streams.get n).send (.mutation m)).queue = _
    rw [Stream.send, if_pos (mem_live.1 hn).2]
    rfl

/-- The object that a write stores: it has the key that was written, and when its metadata are an
object, the new version and the identifier. -/
theorem Wrote.object (h : Wrote r req kind o uid last m) {uid? : Option String}
    (huid : Decode.nullable Decode.text uid = .ok uid?) :
    ∃ s : Object, s.payload = m.payload ∧ s.key = o.key ∧
      (Standard o.payload → s.metadata =
        { o.metadata with uid?, version? := some (toString (r.perform req).lastVersion) }) := by
  obtain ⟨s, hs, hkey⟩ := exists_key_stamp o huid (r.lastVersion + 1)
  refine ⟨s, hs.trans h.stamped.symm, hkey, fun ho ↦ ?_⟩
  obtain ⟨s', hs', hmeta⟩ := exists_object_stamp ho huid (r.lastVersion + 1)
  rw [h.lastVersion, Object.ext_payload (hs.trans hs'.symm), hmeta]

end Wrote

/-! ### One key at a time -/

/-- What an accepted request leaves under a key: a payload, or nothing. -/
structure Touch where
  kind : Kind
  key : Key
  left? : Option Json
deriving DecidableEq

/-- What a request does to the objects, if it is accepted. -/
def touch? (r : Registry) : Request → Option Touch
  | .delete kind key => (r.delete kind key).2.toOption.map fun _ ↦ ⟨kind, key, none⟩
  | req => do
    let stored ← r.stored? req
    let (kind, payload) ← req.written?
    let o ← (Object.ofPayload payload).toOption
    return ⟨kind, o.key, some stored⟩

theorem Wrote.touch?_eq {req : Request} {o : Object} {uid : Json} {last : Nat} {m : Mutation}
    (h : Wrote r req kind o uid last m) : r.touch? req = some ⟨kind, o.key, some m.payload⟩ := by
  have hobject : (Object.ofPayload o.payload).toOption = some o := by
    rw [Object.ofPayload_eq_ok_iff.2 rfl]
    rfl
  have hstored := h.stored
  have hwritten := h.written
  cases req with
  | create k p | update k p =>
    cases hwritten
    simp [touch?, hstored, Request.written?, hobject]
  | _ => cases hwritten

/-- **A request touches one key at most.** It is an accepted write, an accepted deletion, or it is
neither and changes no object. -/
theorem touch?_cases (r : Registry) (req : Request) :
    (∃ kind o uid last m, Wrote r req kind o uid last m) ∨
    (∃ kind key, req = .delete kind key ∧ r.touch? req = some ⟨kind, key, none⟩ ∧
      r.get? kind key ≠ none ∧ ∀ other k, (r.perform req).get? other k =
        if other = kind ∧ key = k then none else r.get? other k) ∨
    (r.touch? req = none ∧ ∀ kind key, (r.perform req).get? kind key = r.get? kind key) := by
  have hsame : r.recorded? req = none →
      ∀ kind key, (r.perform req).get? kind key = r.get? kind key := by
    intro hnone kind key
    obtain ⟨-, -, hkept⟩ | ⟨r₀, other, m, hsome, -⟩ := r.recorded?_cases req
    · rw [Registry.get?, (hkept kind).2]
      rfl
    · rw [hnone] at hsome
      cases hsome
  rcases hstored : r.stored? req with - | stored
  case some =>
    obtain ⟨kind, payload, hreq⟩ := written?_of_stored? hstored
    obtain ⟨o, uid, last, m, -, -, h⟩ := wrote_of_stored? hreq hstored
    exact .inl ⟨kind, o, uid, last, m, h⟩
  cases req with
  | create kind payload | update kind payload =>
    refine .inr (.inr ⟨by simp [touch?, hstored], hsame ?_⟩)
    rw [stored?] at hstored
    rw [recorded?, hstored]
    rfl
  | delete kind key =>
    obtain ⟨e, hr⟩ | ⟨current, last, hcurrent, hlast, hr⟩ := r.delete_cases kind key
    · exact .inr (.inr ⟨by simp [touch?, hr, Except.toOption], fun _ _ ↦ by rw [perform, hr]⟩)
    · refine .inr (.inl ⟨kind, key, rfl, by simp [touch?, hr, Except.toOption], ?_,
        fun other k ↦ ?_⟩)
      · rw [Registry.get?, hcurrent]
        exact Option.some_ne_none _
      · have hobjects : ((r.perform (.delete kind key)).record other).objects =
            if other = kind then (r.record kind).objects.erase key
            else (r.record other).objects := by
          rw [perform, hr, record_commit]
          split
          · next he => exact (objects_eraseObject r kind key kind).trans (if_pos rfl)
          · next he => exact (objects_eraseObject r kind key other).trans (if_neg he)
        rw [Registry.get?, hobjects]
        by_cases he : other = kind
        · subst he
          simp only [if_pos, Key.getElem?_erase, true_and]
          rfl
        · rw [if_neg he, if_neg fun hk ↦ he hk.1]
          rfl
  | inject kind m =>
    refine .inr (.inr ⟨rfl, fun other key ↦ ?_⟩)
    rw [Registry.get?, perform, inject, record_commit]
    split
    · next he => rw [he]; rfl
    · rfl
  | _ => exact .inr (.inr ⟨rfl, hsame rfl⟩)

/-! ### Identifiers -/

/-- The identifier of an object is among the first `n` that were drawn, if it has one. -/
def Drawn (n : Nat) (o : Object) : Prop :=
  ∀ uid, o.metadata.uid? = some uid → ∃ m ≤ n, uid = uidText m

theorem Drawn.mono {n m : Nat} {o : Object} (h : Drawn n o) (hle : n ≤ m) : Drawn m o := by
  intro uid huid
  obtain ⟨k, hk, rfl⟩ := h uid huid
  exact ⟨k, Nat.le_trans hk hle, rfl⟩

/-- The next identifier is not among those that were drawn. -/
theorem Drawn.ne_next {n : Nat} {o : Object} (h : Drawn n o) :
    o.metadata.uid? ≠ some (uidText (n + 1)) := by
  intro huid
  obtain ⟨m, hm, heq⟩ := h _ huid
  have hnext : n + 1 = m := uidText_injective heq
  omega

/-- The identifier that an accepted write gives: a creation gives the next one; an update gives that
of the object it replaces, and none when the metadata of that object were not stamped. -/
inductive Gives (r : Registry) (kind : Kind) (key : Key) : Request → Option String → Prop
  | drawn (payload : Json) (absent : r.get? kind key = none) :
    Gives r kind key (.create kind payload) (some (uidText (r.lastUid + 1)))
  | inherited (payload : Json) (c : Object) (held : r.get? kind key = some c.payload)
    (stamped : Standard c.payload) : Gives r kind key (.update kind payload) c.metadata.uid?
  | vacant (payload : Json) (c : Object) (held : r.get? kind key = some c.payload)
    (unstamped : ¬ Standard c.payload) : Gives r kind key (.update kind payload) none

/-- Every object is held under its own key, with an identifier that was drawn unless its metadata
were not stamped. -/
structure Numbered (r : Registry) : Prop where
  keyed : ∀ kind, Keyed r kind
  drawn : ∀ kind key (o : Object), r.get? kind key = some o.payload → Standard o.payload →
    Drawn r.lastUid o

theorem numbered_empty : Numbered {} where
  keyed := keyed_empty
  drawn kind key o h := by simp [Registry.get?, record] at h

theorem standard_stamp_iff {uid : Json} {version : Nat} {payload : Json} :
    Standard (stamp uid version payload) ↔ Standard payload := by
  by_cases h : Standard payload
  · exact iff_of_true (h.stamp uid version) h
  · rw [(asGiven_stamp uid version payload).unstamped h]

/-- Identifiers are never given back. -/
theorem lastUid_le_perform (r : Registry) (req : Request) :
    r.lastUid ≤ (r.perform req).lastUid := by
  cases req with
  | create kind payload =>
    rw [perform]
    obtain ⟨e, n, hle, hr⟩ | ⟨o, uid, s, -, -, -, -, hr⟩ := r.create_cases kind payload
    · exact hr ▸ hle
    · exact hr ▸ Nat.le_succ _
  | update kind payload =>
    rw [perform]
    obtain ⟨e, hr⟩ | ⟨o, current, s, -, -, -, hr⟩ := r.update_cases kind payload
    · exact hr ▸ Nat.le_refl _
    · exact hr ▸ Nat.le_refl _
  | delete kind key =>
    rw [perform]
    obtain ⟨e, hr⟩ | ⟨current, last, -, -, hr⟩ := r.delete_cases kind key
    · exact hr ▸ Nat.le_refl _
    · exact hr ▸ Nat.le_refl _
  | list kind =>
    rw [perform, list]
    split <;> exact Nat.le_refl _
  | watch kind version? =>
    rw [perform]
    obtain ⟨e, hr⟩ | ⟨missed, hr, -⟩ := r.watch_cases kind version?
    · exact hr ▸ Nat.le_refl _
    · exact hr ▸ Nat.le_refl _
  | _ => exact Nat.le_refl _

section Wrote

variable {req : Request} {o : Object} {uid : Json} {last : Nat} {m : Mutation}

/-- The identifier that a write stamps decodes as the one that it gives. -/
theorem Wrote.gives (h : Wrote r req kind o uid last m) (hk : Keyed r kind) :
    ∃ uid?, Gives r kind o.key req uid? ∧ Decode.nullable Decode.text uid = .ok uid? := by
  cases h.identifies with
  | drawn payload absent => exact ⟨_, .drawn payload absent, rfl⟩
  | @inherited payload current held =>
    obtain ⟨c, rfl, -⟩ := hk o.key current held
    by_cases hc : Standard c.payload
    · exact ⟨_, .inherited payload c held hc, nullable_uid hc⟩
    · exact ⟨_, .vacant payload c held hc, nullable_uid_of_not_standard hc⟩

/-- What a write stores has an identifier that was drawn, or none. -/
theorem Wrote.drawn (h : Wrote r req kind o uid last m) (hn : Numbered r) {s : Object}
    (hs : s.payload = m.payload) (hstamped : Standard s.payload) :
    Drawn (r.perform req).lastUid s := by
  obtain ⟨uid?, hgives, huid⟩ := h.gives (hn.keyed kind)
  obtain ⟨s', hs', -, hmeta⟩ := h.object huid
  obtain rfl : s = s' := Object.ext_payload (hs.trans hs'.symm)
  rw [hs, h.stamped, standard_stamp_iff] at hstamped
  have huid? : s.metadata.uid? = uid? := by rw [hmeta hstamped]
  intro u hu
  rw [huid?] at hu
  cases hgives with
  | drawn payload absent =>
    cases h.identifies
    exact ⟨r.lastUid + 1, Nat.le_of_eq h.lastUid.symm, (Option.some.inj hu).symm⟩
  | inherited payload c held hc =>
    exact (hn.drawn kind o.key c held hc).mono (r.lastUid_le_perform _) u hu
  | vacant => cases hu

end Wrote

theorem Numbered.perform (h : Numbered r) (req : Request) : Numbered (r.perform req) := by
  refine ⟨fun kind ↦ keyed_perform (h.keyed kind) req, fun kind key o hget ho ↦ ?_⟩
  have hold : r.get? kind key = some o.payload → Drawn (r.perform req).lastUid o :=
    fun hheld ↦ (h.drawn kind key o hheld ho).mono (r.lastUid_le_perform req)
  obtain ⟨k, w, uid, last, m, hw⟩ | ⟨k, key', -, -, -, hdelete⟩ | ⟨-, hsame⟩ := r.touch?_cases req
  · rw [hw.get?] at hget
    split at hget
    · exact hw.drawn h (Option.some.inj hget).symm ho
    · exact hold hget
  · rw [hdelete] at hget
    split at hget
    · cases hget
    · exact hold hget
  · exact hold (hsame kind key ▸ hget)

/-! ### Runs -/

/-- The payloads that some requests store. -/
def storedAll (r : Registry) : List Request → List Json
  | [] => []
  | req :: reqs => (r.stored? req).toList ++ (r.perform req).storedAll reqs

theorem Numbered.performAll (h : Numbered r) (reqs : List Request) :
    Numbered (r.performAll reqs) := by
  induction reqs generalizing r with
  | nil => exact h
  | cons req reqs ih => exact ih (h.perform req)

theorem lastUid_le_performAll (r : Registry) (reqs : List Request) :
    r.lastUid ≤ (r.performAll reqs).lastUid := by
  induction reqs generalizing r with
  | nil => exact Nat.le_refl _
  | cons req reqs ih => exact Nat.le_trans (r.lastUid_le_perform req) (ih _)

theorem lastVersion_le_performAll (r : Registry) (reqs : List Request) :
    r.lastVersion ≤ (r.performAll reqs).lastVersion := by
  induction reqs generalizing r with
  | nil => exact Nat.le_refl _
  | cons req reqs ih =>
    have hreq : r.lastVersion ≤ (r.perform req).lastVersion := by
      rw [(r.history_perform_eq req ⟨"", "", ""⟩).2]
      exact Nat.le_add_right _ _
    exact Nat.le_trans hreq (ih _)

/-- Whatever was stored in the course of a run, held still or not, has an identifier that was drawn,
or none. -/
theorem Numbered.drawn_storedAll (h : Numbered r) {reqs : List Request} {e : Object}
    (he : e.payload ∈ r.storedAll reqs) (hstamped : Standard e.payload) :
    Drawn (r.performAll reqs).lastUid e := by
  induction reqs generalizing r with
  | nil => cases he
  | cons req reqs ih =>
    rcases List.mem_append.1 he with hnow | hlater
    · have hstored : r.stored? req = some e.payload := by simpa using hnow
      obtain ⟨kind, payload, hreq⟩ := written?_of_stored? hstored
      obtain ⟨o, uid, last, m, -, hm, hw⟩ := wrote_of_stored? hreq hstored
      exact (hw.drawn h hm.symm hstamped).mono (lastUid_le_performAll _ reqs)
    · exact ih (h.perform req) hlater

/-- **Accepted writes are stamped**, after any run of any number of clients. A creation or an update
that is accepted takes the next version, which is above every version that was given out before.
What it stores is an object under the key of the payload, and everything but the identifier and the
version is as given. It is what the registry holds, lists, records under the new version and sends
to the open watches.

When the metadata of the payload are an object, the stored object has the new version, and the
identifier that the write gives: a creation gives one that no stamped object ever had, an update the
one of the object that it replaces. -/
theorem accepted_write_stamped (before : List Request) (req : Request) (kind : Kind)
    (payload stored : Json) (hreq : req.written? = some (kind, payload))
    (hstored : (performAll {} before).stored? req = some stored) :
    let r := performAll {} before
    let r' := r.perform req
    r'.lastVersion = r.lastVersion + 1 ∧
    (∀ earlier, earlier <+: before → (performAll {} earlier).lastVersion < r'.lastVersion) ∧
    (∀ other, ∀ x ∈ (r.record other).history, x.1 < r'.lastVersion) ∧
    AsGiven payload stored ∧
    ∃ (o s : Object) (uid? : Option String) (m : Mutation), o.payload = payload ∧
      s.payload = stored ∧ s.key = o.key ∧ Gives r kind o.key req uid? ∧
      r.recorded? req = some (kind, m) ∧ m.payload = stored ∧ Told r r' kind o.key m ∧
      (Standard payload → s.metadata =
        { o.metadata with uid?, version? := some (toString r'.lastVersion) }) ∧
      (req = .create kind payload → ∀ e : Object, e.payload ∈ storedAll {} before →
        Standard e.payload → e.metadata.uid? ≠ uid?) := by
  intro r r'
  have hnumbered : Numbered r := numbered_empty.performAll before
  obtain ⟨o, uid, last, m, rfl, rfl, hw⟩ := wrote_of_stored? hreq hstored
  obtain ⟨uid?, hgives, huid⟩ := hw.gives (hnumbered.keyed kind)
  obtain ⟨s, hs, hkey, hmeta⟩ := hw.object huid
  have hversion : r'.lastVersion = r.lastVersion + 1 := hw.lastVersion
  refine ⟨hversion, ?_, fun other x hx ↦ ?_, hw.stamped ▸ asGiven_stamp uid _ _, o, s, uid?, m, rfl,
    hs, hkey, hgives, hw.recorded, rfl, hw.told (wired_empty.performAll before)
    (hnumbered.keyed kind), hmeta, ?_⟩
  · rintro earlier ⟨rest, rfl⟩
    rw [hversion]
    refine Nat.lt_succ_of_le ?_
    simp only [r, performAll_append]
    exact lastVersion_le_performAll _ rest
  · rw [hversion]
    exact Nat.lt_succ_of_le (((ordered_empty other).performAll before).bounded x hx)
  · rintro rfl e he hstamped
    cases hgives
    exact (numbered_empty.drawn_storedAll he hstamped).ne_next

/-- An object that was deleted and is created again has the third version, and not the identifier
that it had. -/
theorem accepted_write_stamped_of_recreation :
    let before : List Request := [.create nodeKind (namedPayload "a"), .delete nodeKind ⟨none, "a"⟩]
    let stored := stamp (.string "uid-2") 3 (namedPayload "a")
    (performAll {} before).stored? (.create nodeKind (namedPayload "a")) = some stored ∧
    ∃ s : Object, s.payload = stored ∧ s.version? = some "3" ∧
      ∀ e : Object, e.payload = stamp (.string "uid-1") 1 (namedPayload "a") →
        e.metadata.uid? ≠ s.metadata.uid? := by
  intro before stored
  have hstored : (performAll {} before).stored? (.create nodeKind (namedPayload "a")) =
      some stored := by decide
  have hstandard : Standard (namedPayload "a") := ⟨[("name", .string "a")], rfl⟩
  obtain ⟨-, -, -, -, o, s, uid?, m, -, hs, -, -, -, -, -, hmeta, hfresh⟩ :=
    accepted_write_stamped before (.create nodeKind (namedPayload "a")) nodeKind (namedPayload "a")
      stored rfl hstored
  refine ⟨hstored, s, hs, ?_, fun e he ↦ ?_⟩
  · have hlast : ((performAll {} before).perform
        (.create nodeKind (namedPayload "a"))).lastVersion = 3 := by decide
    rw [Object.version?, hmeta hstandard, hlast]
    rfl
  · rw [hmeta hstandard]
    refine hfresh rfl e ?_ (he ▸ hstandard.stamp _ _)
    rw [he]
    decide

/-- Metadata written as an array of the first two fields. -/
def arrayPayload : Json := .object [("metadata", .array [.string "w", .string "d"])]

/-- Metadata written as an array are accepted and not stamped: what is stored is not an object with
the new version. -/
theorem not_stamped_of_array :
    ¬ ∀ (before : List Request) (req : Request) (kind : Kind) (payload stored : Json),
      req.written? = some (kind, payload) → (performAll {} before).stored? req = some stored →
      ∀ s : Object, s.payload = stored →
        s.version? = some (toString ((performAll {} before).perform req).lastVersion) := by
  intro h
  have hversion : ∃ s : Object, s.payload = arrayPayload ∧ s.version? = none :=
    ⟨⟨arrayPayload, { name := "w", ns? := some "d" }, by decide⟩, rfl, rfl⟩
  obtain ⟨s, hs, hnone⟩ := hversion
  have hsome := h [] (.create nodeKind arrayPayload) nodeKind arrayPayload arrayPayload rfl
    (by decide) s hs
  rw [hnone] at hsome
  cases hsome

end Registry

end Informer
