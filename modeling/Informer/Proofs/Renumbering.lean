import Mathlib.Data.List.Forall2
import Informer.Proofs.VersionCheck

/-!
# Answers up to the numbers of identifiers

Two registries that differ in the number of the last identifier only are asked the same things. What
they answer then is the same, except that identifiers drawn from there on have other numbers: greater
by the same `d` every time (`Json.Renumbered`).

Nothing that the registry does depends on an identifier. It only hands them on, and so the relation
between the two goes through a run step by step (`Twin.step`, `Twin.performAll`): the same versions,
the same watches, and objects, recorded mutations and deliveries that correspond one by one.

Registries may also differ in how many list calls of some kinds are still to be refused. Then the
answers to these list calls can differ, and nothing else does.
-/

namespace Informer

open Registry (stamp setMetadata metadataOf uidText)

/-! ### Payloads and what carries them -/

section

variable (n d : Nat)

/-- The payloads are the same, or they were stamped alike but for the number of the identifier: it
is none of the first `n`, and greater by `d`. -/
inductive Json.Renumbered : Json → Json → Prop
  | same (p : Json) : Renumbered p p
  | shifted (payload : Json) (version : Nat) {m : Nat} (h : n < m) :
    Renumbered (stamp (.string (uidText m)) version payload)
      (stamp (.string (uidText (m + d))) version payload)

/-- Mutations of the same form with payloads that correspond. -/
inductive Mutation.Renumbered : Mutation → Mutation → Prop
  | added {p q : Json} (h : p.Renumbered n d q) : Renumbered (.added p) (.added q)
  | modified {p q : Json} (h : p.Renumbered n d q) : Renumbered (.modified p) (.modified q)
  | deleted {p q : Json} (h : p.Renumbered n d q) : Renumbered (.deleted p) (.deleted q)

inductive Delivery.Renumbered : Delivery → Delivery → Prop
  | mutation {m m' : Mutation} (h : m.Renumbered n d m') : Renumbered (.mutation m) (.mutation m')
  | failure (e : TransportError) : Renumbered (.failure e) (.failure e)

inductive Reading.Renumbered : Reading → Reading → Prop
  | delivery {x y : Delivery} (h : x.Renumbered n d y) : Renumbered (.delivery x) (.delivery y)
  | pending : Renumbered .pending .pending
  | ended : Renumbered .ended .ended

/-- Streams that hold deliveries which correspond one by one, and are held by the same sides. -/
structure Stream.Renumbered (s s' : Stream) : Prop where
  queue : List.Forall₂ (Delivery.Renumbered n d) s.queue s'.queue
  sending : s'.sending = s.sending
  reading : s'.reading = s.reading

structure Streams.Renumbered (s s' : Streams) : Prop where
  opened : s'.opened = s.opened
  get : ∀ number, (s.get number).Renumbered n d (s'.get number)

/-- Records of a kind that correspond. The second one refuses as many list calls as the first one,
or fewer if the kind is spared. -/
structure KindRecord.Renumbered (spared : Prop) (k k' : KindRecord) : Prop where
  objects : ∀ key : Key, Option.Rel (Json.Renumbered n d) k.objects[key]? k'.objects[key]?
  history : List.Forall₂ (fun x x' ↦ x'.1 = x.1 ∧ x.2.Renumbered n d x'.2) k.history k'.history
  watchers : k'.watchers = k.watchers
  failing : k'.failingLists ≤ k.failingLists
  unspared : ¬ spared → k'.failingLists = k.failingLists

end

variable {n d : Nat}

theorem Mutation.Renumbered.refl (m : Mutation) : m.Renumbered n d m := by
  cases m with
  | added p => exact .added (.same p)
  | modified p => exact .modified (.same p)
  | deleted p => exact .deleted (.same p)

theorem Delivery.Renumbered.refl : (x : Delivery) → x.Renumbered n d x
  | .mutation m => .mutation (.refl m)
  | .failure e => .failure e

theorem Stream.Renumbered.refl (s : Stream) : s.Renumbered n d s :=
  ⟨List.forall₂_same.2 fun x _ ↦ .refl x, rfl, rfl⟩

theorem KindRecord.Renumbered.refl {spared : Prop} (k : KindRecord) :
    k.Renumbered n d spared k where
  objects key := by
    cases k.objects[key]? with
    | none => exact .none
    | some p => exact .some (.same p)
  history := List.forall₂_same.2 fun x _ ↦ ⟨rfl, .refl x.2⟩
  watchers := rfl
  failing := Nat.le_refl _
  unspared _ := rfl

/-! ### Stamping payloads that correspond -/

/-- Of two members of one name the one that was put last counts. -/
theorem Json.putMember_putMember (name : String) (v w : Json) (members : List (String × Json)) :
    putMember name v (putMember name w members) = putMember name v members := by
  have hinserted : ∀ ms : List (String × Json),
      (insertMember name w ms).filter (fun m ↦ m.1 != name) = ms.filter fun m ↦ m.1 != name := by
    intro ms
    induction ms with
    | nil => simp [insertMember]
    | cons m ms ih =>
      rw [insertMember]
      split
      · simp
      · rw [List.filter_cons, List.filter_cons, ih]
  rw [putMember, putMember, putMember, hinserted, List.filter_filter]
  simp

namespace Registry

theorem setMetadata_object {members block : List (String × Json)}
    (h : Json.member? "metadata" members = some (.object block)) (name : String) (v : Json) :
    setMetadata name v (.object members) =
      .object (Json.putMember "metadata" (.object (Json.putMember name v block)) members) := by
  rw [setMetadata, h]

/-- What is set last is what counts. -/
theorem setMetadata_setMetadata (name : String) (v w payload : Json) :
    setMetadata name v (setMetadata name w payload) = setMetadata name v payload := by
  by_cases h : Standard payload
  · obtain ⟨block, hblock⟩ := h
    cases payload with
    | object members =>
      rw [setMetadata_object hblock, setMetadata_object hblock,
        setMetadata_object (Json.member?_putMember_self _ _ _), Json.putMember_putMember,
        Json.putMember_putMember]
    | _ => cases hblock
  · rw [setMetadata_of_not_standard h]

/-- The identifier that a stamped payload carries. -/
theorem get?_uid_stamp {payload : Json} (h : Standard payload) (uid : Json) (version : Nat) :
    (metadataOf (stamp uid version payload)).get? "uid" = some uid := by
  have hset : ("uid" : String) ≠ "resourceVersion" := by decide
  obtain ⟨block, hblock⟩ := h
  rw [stamp, metadataOf_setMetadata (Standard.setMetadata ⟨block, hblock⟩ _ _) hset, metadataOf,
    get?_setMetadata hblock]
  exact Json.member?_putMember_self _ _ _

end Registry

namespace Json.Renumbered

open Registry (Standard carriedVersion? setMetadata_setMetadata get?_uid_stamp)

variable {p p' : Json} (h : p.Renumbered n d p')

include h

theorem carriedVersion?_eq : carriedVersion? p' = carriedVersion? p := by
  cases h with
  | same => rfl
  | shifted payload version hm =>
    by_cases hs : Standard payload
    · rw [Registry.carriedVersion?_stamp hs, Registry.carriedVersion?_stamp hs]
    · rw [(Registry.asGiven_stamp _ version payload).unstamped hs,
        (Registry.asGiven_stamp _ version payload).unstamped hs]

/-- A payload that is stamped with the identifiers of payloads that correspond. -/
theorem stamp_inherited (version : Nat) (payload : Json) :
    Renumbered n d (stamp (((metadataOf p).get? "uid").getD .null) version payload)
      (stamp (((metadataOf p').get? "uid").getD .null) version payload) := by
  cases h with
  | same => exact .same _
  | shifted given v hm =>
    by_cases hs : Standard given
    · rw [get?_uid_stamp hs, get?_uid_stamp hs]
      exact .shifted payload version hm
    · rw [(Registry.asGiven_stamp _ v given).unstamped hs,
        (Registry.asGiven_stamp _ v given).unstamped hs]
      exact .same _

/-- A new version for payloads that correspond. -/
theorem setVersion (version : Nat) :
    Renumbered n d (setMetadata "resourceVersion" (.string (toString version)) p)
      (setMetadata "resourceVersion" (.string (toString version)) p') := by
  cases h with
  | same => exact .same _
  | shifted payload v hm =>
    rw [stamp, stamp, setMetadata_setMetadata, setMetadata_setMetadata]
    exact .shifted payload version hm

end Json.Renumbered

/-! ### Streams that correspond -/

namespace Stream.Renumbered

variable {s s' : Stream} (h : s.Renumbered n d s')

include h

theorem send {x y : Delivery} (hxy : x.Renumbered n d y) :
    (s.send x).Renumbered n d (s'.send y) := by
  unfold Stream.send
  rw [h.reading]
  split
  · exact ⟨List.rel_append h.queue (.cons hxy .nil), h.sending, rfl⟩
  · exact h

theorem read : s.read.1.Renumbered n d s'.read.1 ∧ s.read.2.Renumbered n d s'.read.2 := by
  obtain ⟨queue, sends, reads⟩ := s
  obtain ⟨queue', sends', reads'⟩ := s'
  obtain ⟨hqueue, rfl, rfl⟩ := h
  cases hqueue with
  | nil =>
    refine ⟨⟨.nil, rfl, rfl⟩, ?_⟩
    cases sends'
    · exact .ended
    · exact .pending
  | cons hxy hrest => exact ⟨⟨hrest, rfl, rfl⟩, .delivery hxy⟩

end Stream.Renumbered

namespace Streams.Renumbered

variable {s s' : Streams} (h : s.Renumbered n d s')

include h

theorem modify {f g : Stream → Stream}
    (hfg : ∀ x y : Stream, x.Renumbered n d y → (f x).Renumbered n d (g y)) (number : Nat) :
    (s.modify number f).Renumbered n d (s'.modify number g) where
  opened := h.opened
  get k := by
    by_cases hk : k = number
    · subst hk
      rw [get_modify_self, get_modify_self]
      exact hfg _ _ (h.get k)
    · rw [get_modify_of_ne hk, get_modify_of_ne hk]
      exact h.get k

theorem foldl_modify {f g : Stream → Stream}
    (hfg : ∀ x y : Stream, x.Renumbered n d y → (f x).Renumbered n d (g y)) (numbers : List Nat) :
    (numbers.foldl (fun s number ↦ s.modify number f) s).Renumbered n d
      (numbers.foldl (fun s number ↦ s.modify number g) s') := by
  induction numbers generalizing s s' with
  | nil => exact h
  | cons number numbers ih => exact ih (h.modify hfg number)

theorem sendAll {x y : Delivery} (hxy : x.Renumbered n d y) (numbers : List Nat) :
    (s.sendAll numbers x).Renumbered n d (s'.sendAll numbers y) :=
  h.foldl_modify (fun _ _ hst ↦ hst.send hxy) numbers

theorem closeAll (numbers : List Nat) :
    (s.closeAll numbers).Renumbered n d (s'.closeAll numbers) :=
  h.foldl_modify (by exact fun _ _ hst ↦ ⟨hst.queue, rfl, hst.reading⟩) numbers

theorem drop (number : Nat) : (s.drop number).Renumbered n d (s'.drop number) :=
  h.modify (by exact fun _ _ hst ↦ ⟨.nil, hst.sending, rfl⟩) number

theorem openWith {queue queue' : List Delivery}
    (hqueue : List.Forall₂ (Delivery.Renumbered n d) queue queue') :
    (s.openWith queue).Renumbered n d (s'.openWith queue') where
  opened := congrArg (· + 1) h.opened
  get k := by
    by_cases hk : k = s.opened
    · rw [hk, get_openWith_self, ← h.opened, get_openWith_self]
      exact ⟨hqueue, rfl, rfl⟩
    · rw [get_openWith_of_ne hk, get_openWith_of_ne (h.opened ▸ hk)]
      exact h.get k

theorem live (numbers : List Nat) : s'.live numbers = s.live numbers :=
  List.filter_congr fun number _ ↦ (h.get number).reading

end Streams.Renumbered

/-! ### Answers -/

/-- What the registry answers to a request. -/
inductive Response where
  | stored (result : Except TransportError Json)
  | removed (result : Except TransportError Unit)
  | listed (result : Except TransportError Listing)
  | opened (result : Except TransportError Nat)
  | found (reading : Reading)
  /-- Nothing is answered. -/
  | done

namespace Response

/-- The error that a request is refused with. -/
def error? : Response → Option TransportError
  | stored (.error e) | removed (.error e) | listed (.error e) | opened (.error e) => some e
  | _ => none

/-- Answers that are the same, or hold payloads that correspond one by one. -/
inductive Renumbered (n d : Nat) : Response → Response → Prop
  | same (x : Response) : Renumbered n d x x
  | stored {p q : Json} (h : p.Renumbered n d q) : Renumbered n d (.stored (.ok p)) (.stored (.ok q))
  | listed {ps qs : List Json} (h : List.Forall₂ (Json.Renumbered n d) ps qs)
    (version? : Option String) :
    Renumbered n d (.listed (.ok ⟨ps, version?⟩)) (.listed (.ok ⟨qs, version?⟩))
  | found {x y : Reading} (h : x.Renumbered n d y) : Renumbered n d (.found x) (.found y)

end Response

namespace Registry

/-- The answer to a request. -/
def respond (r : Registry) : Request → Response
  | .create kind payload => .stored (r.create kind payload).2
  | .update kind payload => .stored (r.update kind payload).2
  | .delete kind key => .removed (r.delete kind key).2
  | .list kind => .listed (r.list kind).2
  | .watch kind version? => .opened (r.watch kind version?).2
  | .read stream => .found (r.read stream).2
  | .inject _ _ | .breakWatches _ _ | .failLists _ _ | .drop _ => .done

/-! ### Each call as one equation -/

section Calls

variable (r : Registry) (kind : Kind)

theorem create_of_error {payload : Json} {e : ObjectError}
    (h : Object.ofPayload payload = .error e) :
    r.create kind payload = (r, .error (.invalid e.message)) := by
  simp only [create, h]

theorem create_of_held {o : Object} {held : Json} (h : r.get? kind o.key = some held) :
    r.create kind o.payload = ({ r with lastUid := r.lastUid + 1 },
      .error (.conflict (describe kind o.key ++ " already exists"))) := by
  have hread : Object.ofPayload o.payload = .ok o := Object.ofPayload_eq_ok_iff.2 rfl
  have hcontains : (r.record kind).objects.contains o.key = true := by
    rw [← Std.ExtTreeMap.isSome_getElem?_eq_contains]
    exact congrArg Option.isSome h
  rw [create, hread]
  exact if_pos hcontains

theorem create_of_absent {o : Object} (h : r.get? kind o.key = none) :
    r.create kind o.payload =
      ((putObject { r with lastUid := r.lastUid + 1 } kind o.key
        (stamp (.string (uidText (r.lastUid + 1))) (r.lastVersion + 1) o.payload)).commit kind
        (.added (stamp (.string (uidText (r.lastUid + 1))) (r.lastVersion + 1) o.payload)),
        .ok (stamp (.string (uidText (r.lastUid + 1))) (r.lastVersion + 1) o.payload)) := by
  have hread : Object.ofPayload o.payload = .ok o := Object.ofPayload_eq_ok_iff.2 rfl
  have hcontains : ¬ (r.record kind).objects.contains o.key = true := by
    rw [← Std.ExtTreeMap.isSome_getElem?_eq_contains]
    exact fun hsome ↦ Bool.false_ne_true ((congrArg Option.isSome h).symm.trans hsome)
  rw [create, hread]
  exact if_neg hcontains

theorem update_of_error {payload : Json} {e : ObjectError}
    (h : Object.ofPayload payload = .error e) :
    r.update kind payload = (r, .error (.invalid e.message)) := by
  simp only [update, h]

theorem update_of_absent {o : Object} (h : r.get? kind o.key = none) :
    r.update kind o.payload = (r, .error (.notFound (describe kind o.key))) := by
  have hread : Object.ofPayload o.payload = .ok o := Object.ofPayload_eq_ok_iff.2 rfl
  have habsent : (r.record kind).objects[o.key]? = none := h
  simp only [update, hread, habsent]

theorem delete_of_absent {key : Key} (h : r.get? kind key = none) :
    r.delete kind key = (r, .error (.notFound (describe kind key))) := by
  have habsent : (r.record kind).objects[key]? = none := h
  simp only [delete, habsent]

theorem delete_of_held {key : Key} {current : Json} (h : r.get? kind key = some current) :
    r.delete kind key =
      ((r.eraseObject kind key).commit kind (.deleted
        (setMetadata "resourceVersion" (.string (toString (r.lastVersion + 1))) current)),
        .ok ()) := by
  have hheld : (r.record kind).objects[key]? = some current := h
  simp only [delete, hheld]
  rfl

/-- A list call counts itself, and one of the refusals that are still to come if there is one. -/
def countList (k : KindRecord) : KindRecord :=
  { k with listCalls := k.listCalls + 1, failingLists := k.failingLists - 1 }

theorem modify_modify (f g : KindRecord → KindRecord) :
    (r.modify kind f).modify kind g = r.modify kind (g ∘ f) := by
  have hrecord : (r.modify kind f).record kind = f (r.record kind) :=
    (record_modify r kind f kind).trans (if_pos rfl)
  have hinsert : ∀ (kinds : Std.ExtTreeMap Kind KindRecord) (k k' : KindRecord),
      (kinds.insert kind k).insert kind k' = kinds.insert kind k' := by
    intro kinds k k'
    ext1 other
    simp only [Std.ExtTreeMap.getElem?_insert]
    split <;> rfl
  rw [modify, hrecord, modify, modify, hinsert]
  rfl

theorem modify_congr {f g : KindRecord → KindRecord} (h : f (r.record kind) = g (r.record kind)) :
    r.modify kind f = r.modify kind g := by
  rw [modify, modify, h]

theorem list_of_failing (h : 0 < (r.record kind).failingLists) :
    r.list kind = (r.modify kind countList,
      .error (.unavailable ("list " ++ kind.display ++ " refused"))) := by
  have hrecord := record_modify r kind (fun k ↦ { k with listCalls := k.listCalls + 1 }) kind
  rw [if_pos rfl] at hrecord
  rw [list, hrecord, if_pos h, modify_modify]
  exact congrArg (·, _) (r.modify_congr kind rfl)

theorem list_of_answered (h : (r.record kind).failingLists = 0) :
    r.list kind = (r.modify kind countList,
      .ok ⟨(r.record kind).objects.toList.map (·.2), some (toString r.lastVersion)⟩) := by
  have hrecord := record_modify r kind (fun k ↦ { k with listCalls := k.listCalls + 1 }) kind
  rw [if_pos rfl] at hrecord
  have hcount : { r.record kind with listCalls := (r.record kind).listCalls + 1 } =
      countList (r.record kind) := by
    simp only [countList, h, Nat.zero_sub]
  rw [list, hrecord, if_neg (by simp [h])]
  exact congrArg (·, _) (r.modify_congr kind hcount)

theorem watch_of_none :
    r.watch kind none = (r.openWatch kind [], .ok r.streams.opened) :=
  rfl

theorem watch_of_version {text : String} {version : Nat} (h : parseVersion? text = some version) :
    r.watch kind (some text) = (r.openWatch kind (r.since kind version), .ok r.streams.opened) := by
  simp only [watch, h]
  rfl

theorem watch_of_invalid {text : String} (h : parseVersion? text = none) :
    r.watch kind (some text) = (r, .error (.invalid ("resource version " ++ Text.quote text))) := by
  simp only [watch, h]

end Calls

/-! ### Registries that correspond -/

/-- The registry `r'` is as `r` is, up to the numbers of identifiers drawn after the first `n`, and
to how many list calls of the kinds that are spared are still to be refused. -/
structure Twin (n d : Nat) (spared : Kind → Prop) (r r' : Registry) : Prop where
  version : r'.lastVersion = r.lastVersion
  drawn : r'.lastUid = r.lastUid + d
  begun : n ≤ r.lastUid
  records : ∀ kind, (r.record kind).Renumbered n d (spared kind) (r'.record kind)
  streams : r.streams.Renumbered n d r'.streams

/-- The values of maps that correspond key by key correspond one by one. -/
theorem forall₂_values {R : Json → Json → Prop} {held held' : Std.ExtTreeMap Key Json}
    (h : ∀ key : Key, Option.Rel R held[key]? held'[key]?) :
    List.Forall₂ R (held.toList.map (·.2)) (held'.toList.map (·.2)) := by
  have hkeys : held.keys = held'.keys := by
    have hsame : held.map (fun _ _ ↦ ()) = held'.map fun _ _ ↦ () := by
      ext key
      have hkey := h key
      rw [Std.ExtTreeMap.getElem?_map, Std.ExtTreeMap.getElem?_map]
      generalize held[key]? = x, held'[key]? = y at hkey ⊢
      cases hkey <;> rfl
    rw [← Std.ExtTreeMap.keys_map (f := fun _ _ ↦ ()), hsame, Std.ExtTreeMap.keys_map]
  have hvalues : ∀ m : Std.ExtTreeMap Key Json,
      m.toList.map (·.2) = m.keys.filterMap (m[·]?) := by
    intro m
    rw [← Std.ExtTreeMap.map_fst_toList_eq_keys, List.filterMap_map, ← List.filterMap_eq_map]
    refine List.filterMap_congr fun x hx ↦ ?_
    exact (Std.ExtTreeMap.mem_toList_iff_getElem?_eq_some.1 hx).symm
  rw [hvalues, hvalues, ← hkeys]
  induction held.keys with
  | nil => exact .nil
  | cons key keys ih =>
    have hkey := h key
    rw [List.filterMap_cons, List.filterMap_cons]
    generalize held[key]? = x, held'[key]? = y at hkey ⊢
    cases hkey with
    | none => exact ih
    | some hxy => exact .cons hxy ih

namespace Twin

variable {spared : Kind → Prop} {r r' : Registry} (h : Twin n d spared r r')

include h

theorem get? (kind : Kind) (key : Key) :
    Option.Rel (Json.Renumbered n d) (r.get? kind key) (r'.get? kind key) :=
  (h.records kind).objects key

/-- A key is free on both sides, or it is taken by payloads that correspond. -/
theorem get?_cases (kind : Kind) (key : Key) :
    (r.get? kind key = none ∧ r'.get? kind key = none) ∨
      ∃ p p', r.get? kind key = some p ∧ r'.get? kind key = some p' ∧ p.Renumbered n d p' := by
  have hkey := h.get? kind key
  rcases hx : r.get? kind key with - | p <;> rcases hy : r'.get? kind key with - | p' <;>
    rw [hx, hy] at hkey <;> cases hkey
  · exact .inl ⟨rfl, rfl⟩
  · next hp => exact .inr ⟨p, p', rfl, rfl, hp⟩

theorem live_eq (kind : Kind) : r'.live kind = r.live kind := by
  rw [Registry.live, (h.records kind).watchers]
  exact h.streams.live _

theorem openWatches_eq (kind : Kind) : r'.openWatches kind = r.openWatches kind :=
  congrArg List.length (h.live_eq kind)

/-- The mutations after a version correspond one by one. -/
theorem forall₂_since (kind : Kind) (version : Nat) :
    List.Forall₂ (Mutation.Renumbered n d) (r.since kind version) (r'.since kind version) := by
  have hhistory := (h.records kind).history
  unfold since
  generalize (r.record kind).history = entries, (r'.record kind).history = entries' at hhistory ⊢
  induction hhistory with
  | nil => exact .nil
  | @cons x x' xs xs' hx hxs ih =>
    by_cases hlt : version < x.1
    · have hlt' : version < x'.1 := hx.1 ▸ hlt
      rw [List.filter_cons_of_pos (by simpa using hlt),
        List.filter_cons_of_pos (by simpa using hlt')]
      exact .cons hx.2 ih
    · have hlt' : ¬ version < x'.1 := hx.1 ▸ hlt
      rw [List.filter_cons_of_neg (by simpa using hlt),
        List.filter_cons_of_neg (by simpa using hlt')]
      exact ih

/-- Changes of the record of a kind that keep records corresponding. -/
theorem modify {kind : Kind} {f g : KindRecord → KindRecord}
    (hfg : ∀ k k' : KindRecord, k.Renumbered n d (spared kind) k' →
      (f k).Renumbered n d (spared kind) (g k')) :
    Twin n d spared (r.modify kind f) (r'.modify kind g) where
  version := h.version
  drawn := h.drawn
  begun := h.begun
  records other := by
    rw [record_modify, record_modify]
    split
    · next he => exact he ▸ hfg _ _ (h.records kind)
    · exact h.records other
  streams := h.streams

theorem draw : Twin n d spared { r with lastUid := r.lastUid + 1 }
    { r' with lastUid := r'.lastUid + 1 } where
  version := h.version
  drawn := by
    show r'.lastUid + 1 = r.lastUid + 1 + d
    rw [h.drawn, Nat.add_right_comm]
  begun := Nat.le_succ_of_le h.begun
  records := h.records
  streams := h.streams

theorem putObject (kind : Kind) (key : Key) {p p' : Json} (hp : p.Renumbered n d p') :
    Twin n d spared (r.putObject kind key p) (r'.putObject kind key p') :=
  h.modify fun k k' hk ↦
    { hk with
      objects := fun other ↦ by
        rw [Key.getElem?_insert, Key.getElem?_insert]
        split
        · exact .some hp
        · exact hk.objects other }

theorem eraseObject (kind : Kind) (key : Key) :
    Twin n d spared (r.eraseObject kind key) (r'.eraseObject kind key) :=
  h.modify fun k k' hk ↦
    { hk with
      objects := fun other ↦ by
        rw [Key.getElem?_erase, Key.getElem?_erase]
        split
        · exact .none
        · exact hk.objects other }

theorem commit (kind : Kind) {m m' : Mutation} (hm : m.Renumbered n d m') :
    Twin n d spared (r.commit kind m) (r'.commit kind m') where
  version := congrArg (· + 1) h.version
  drawn := h.drawn
  begun := h.begun
  records other := by
    rw [record_commit, record_commit, h.live_eq, h.version]
    split
    · next he =>
      subst he
      exact { h.records other with
        history := List.rel_append (h.records other).history (.cons ⟨rfl, hm⟩ .nil)
        watchers := rfl }
    · exact h.records other
  streams := by
    rw [streams_commit, streams_commit, h.live_eq]
    exact h.streams.sendAll (.mutation hm) _

theorem breakWatches (kind : Kind) (e : TransportError) :
    Twin n d spared (r.breakWatches kind e) (r'.breakWatches kind e) where
  version := h.version
  drawn := h.drawn
  begun := h.begun
  records other := by
    rw [record_breakWatches, record_breakWatches]
    split
    · next he =>
      subst he
      exact { h.records other with watchers := rfl }
    · exact h.records other
  streams := by
    rw [streams_breakWatches, streams_breakWatches, h.live_eq]
    exact (h.streams.sendAll (.failure e) _).closeAll _

theorem openWatch (kind : Kind) {missed missed' : List Mutation}
    (hmissed : List.Forall₂ (Mutation.Renumbered n d) missed missed') :
    Twin n d spared (r.openWatch kind missed) (r'.openWatch kind missed') where
  version := h.version
  drawn := h.drawn
  begun := h.begun
  records other := by
    rw [record_openWatch, record_openWatch, h.streams.opened]
    split
    · next he =>
      subst he
      exact { h.records other with
        watchers := congrArg (· ++ [r.streams.opened]) (h.records other).watchers }
    · exact h.records other
  streams := h.streams.openWith
    (List.rel_map (fun _ _ hm ↦ .mutation hm) hmissed)

/-! ### One request -/

/-- The answers to a request correspond, and so do the registries after it. Only a list call of a
kind that is spared can be refused on the one side and answered on the other. -/
def Steps (n d : Nat) (spared : Kind → Prop) (r r' : Registry) (req : Request) : Prop :=
  Twin n d spared (r.perform req) (r'.perform req) ∧
    ((r.respond req).Renumbered n d (r'.respond req) ∨
      ∃ kind, spared kind ∧ req = .list kind ∧ (r.respond req).error?.isSome ∧
        (r'.respond req).error? = none)

theorem create (kind : Kind) (payload : Json) : Steps n d spared r r' (.create kind payload) := by
  rw [Steps, perform, perform, respond, respond]
  rcases hread : Object.ofPayload payload with e | o
  · rw [r.create_of_error kind hread, r'.create_of_error kind hread]
    exact ⟨h, .inl (.same _)⟩
  obtain rfl := Object.ofPayload_eq_ok_iff.1 hread
  obtain ⟨hfree, hfree'⟩ | ⟨p, p', hheld, hheld', -⟩ := h.get?_cases kind o.key
  · have hstored : (stamp (.string (uidText (r.lastUid + 1))) (r.lastVersion + 1)
        o.payload).Renumbered n d
        (stamp (.string (uidText (r'.lastUid + 1))) (r'.lastVersion + 1) o.payload) := by
      rw [h.version, h.drawn, Nat.add_right_comm]
      exact .shifted o.payload _ (Nat.lt_succ_of_le h.begun)
    rw [r.create_of_absent kind hfree, r'.create_of_absent kind hfree']
    exact ⟨(h.draw.putObject kind o.key hstored).commit kind (.added hstored),
      .inl (.stored hstored)⟩
  · rw [r.create_of_held kind hheld, r'.create_of_held kind hheld']
    exact ⟨h.draw, .inl (.same _)⟩

theorem update (kind : Kind) (payload : Json) : Steps n d spared r r' (.update kind payload) := by
  rw [Steps, perform, perform, respond, respond]
  rcases hread : Object.ofPayload payload with e | o
  · rw [r.update_of_error kind hread, r'.update_of_error kind hread]
    exact ⟨h, .inl (.same _)⟩
  obtain rfl := Object.ofPayload_eq_ok_iff.1 hread
  obtain ⟨hfree, hfree'⟩ | ⟨p, p', hheld, hheld', hp⟩ := h.get?_cases kind o.key
  · rw [r.update_of_absent kind hfree, r'.update_of_absent kind hfree']
    exact ⟨h, .inl (.same _)⟩
  · rw [update_of_held hheld, update_of_held hheld', hp.carriedVersion?_eq, h.version]
    split
    · exact ⟨h, .inl (.same _)⟩
    · have hstored := hp.stamp_inherited (r.lastVersion + 1) o.payload
      exact ⟨(h.putObject kind o.key hstored).commit kind (.modified hstored),
        .inl (.stored hstored)⟩

theorem delete (kind : Kind) (key : Key) : Steps n d spared r r' (.delete kind key) := by
  rw [Steps, perform, perform, respond, respond]
  obtain ⟨hfree, hfree'⟩ | ⟨p, p', hheld, hheld', hp⟩ := h.get?_cases kind key
  · rw [r.delete_of_absent kind hfree, r'.delete_of_absent kind hfree']
    exact ⟨h, .inl (.same _)⟩
  · rw [r.delete_of_held kind hheld, r'.delete_of_held kind hheld', h.version]
    have hlast := hp.setVersion (r.lastVersion + 1)
    exact ⟨(h.eraseObject kind key).commit kind (.deleted hlast), .inl (.same _)⟩

theorem list (kind : Kind) : Steps n d spared r r' (.list kind) := by
  have hk := h.records kind
  have hcounted : Twin n d spared (r.modify kind countList) (r'.modify kind countList) :=
    h.modify fun _ _ hk ↦ { hk with
      failing := Nat.sub_le_sub_right hk.failing 1
      unspared := fun hspared ↦ congrArg (· - 1) (hk.unspared hspared) }
  rw [Steps, perform, perform, respond, respond]
  rcases Nat.eq_zero_or_pos (r.record kind).failingLists with hr | hr <;>
    rcases Nat.eq_zero_or_pos (r'.record kind).failingLists with hr' | hr'
  · rw [r.list_of_answered kind hr, r'.list_of_answered kind hr', h.version]
    exact ⟨hcounted, .inl (.listed (forall₂_values hk.objects) _)⟩
  · exact absurd (hr ▸ hk.failing) (Nat.not_le_of_lt hr')
  · -- refused on the one side only, so the kind is spared
    rw [r.list_of_failing kind hr, r'.list_of_answered kind hr']
    refine ⟨hcounted, .inr ⟨kind, ?_, rfl, rfl, rfl⟩⟩
    by_contra hspared
    exact Nat.ne_of_lt hr ((hk.unspared hspared).symm.trans hr').symm
  · rw [r.list_of_failing kind hr, r'.list_of_failing kind hr']
    exact ⟨hcounted, .inl (.same _)⟩

theorem watch (kind : Kind) (version? : Option String) :
    Steps n d spared r r' (.watch kind version?) := by
  rw [Steps, perform, perform, respond, respond]
  rcases version? with - | text
  · rw [watch_of_none, watch_of_none, h.streams.opened]
    exact ⟨h.openWatch kind .nil, .inl (.same _)⟩
  · rcases hparse : parseVersion? text with - | version
    · rw [r.watch_of_invalid kind hparse, r'.watch_of_invalid kind hparse]
      exact ⟨h, .inl (.same _)⟩
    · rw [r.watch_of_version kind hparse, r'.watch_of_version kind hparse, h.streams.opened]
      exact ⟨h.openWatch kind (h.forall₂_since kind version), .inl (.same _)⟩

theorem read (stream : Nat) : Steps n d spared r r' (.read stream) := by
  obtain ⟨hread, hfound⟩ := (h.streams.get stream).read
  refine ⟨{ h with streams := h.streams.modify (fun _ _ hst ↦ hst.read.1) stream }, .inl ?_⟩
  exact .found hfound

/-- **One request to registries that correspond.** -/
theorem step (req : Request) : Steps n d spared r r' req := by
  cases req with
  | create kind payload => exact h.create kind payload
  | update kind payload => exact h.update kind payload
  | delete kind key => exact h.delete kind key
  | inject kind m => exact ⟨h.commit kind (.refl m), .inl (.same _)⟩
  | breakWatches kind e => exact ⟨h.breakWatches kind e, .inl (.same _)⟩
  | failLists kind count =>
    have hfailing : Twin n d spared (r.failLists kind count) (r'.failLists kind count) := by
      rw [failLists, failLists]
      exact h.modify (by exact fun _ _ hk ↦
        { hk with failing := Nat.le_refl _, unspared := fun _ ↦ rfl })
    exact ⟨hfailing, .inl (.same _)⟩
  | list kind => exact h.list kind
  | watch kind version? => exact h.watch kind version?
  | read stream => exact h.read stream
  | drop stream => exact ⟨{ h with streams := h.streams.drop stream }, .inl (.same _)⟩

/-- **A run of registries that correspond.** -/
theorem performAll (reqs : List Request) :
    Twin n d spared (r.performAll reqs) (r'.performAll reqs) := by
  induction reqs generalizing r r' with
  | nil => exact h
  | cons req reqs ih => exact ih (h.step req).1

end Twin

end Registry

end Informer
