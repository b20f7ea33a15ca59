import Informer.Proofs.ListingDiff
import Informer.Proofs.TypedView

/-!
# Typed events and the objects they tell of

An event carries metadata beside every object, and the notification that it stands for carries
untyped objects with metadata of their own. Events are routed by the one and notifications by the
other, so they must be the same. The rule is that an event tells of untyped objects of its
notification, with their metadata and what they decode as:

* a creation and an update tell of the current state, an update also of the state before;
* a deletion tells of one state, the one that was held if it decodes and otherwise the one that was
  observed (`remains`), without its version. The two ways in which a deletion comes about are one
  (`ofLastKnown_eq_ofObserved`).

It is used that the states of a notification share one key. All that a store reports is of that kind
(`Notification.coherent_of_fits`).
-/

namespace Informer

namespace Notification

/-- The states of a notification are states of one object. -/
def Coherent : Notification → Prop
  | added _ => True
  | updated old new => old.key = new.key
  | deleted last? observed => ∀ last ∈ last?, last.key = observed.key

/-- What says the truth about some contents is about one object. -/
theorem coherent_of_fits {held : Contents} {n : Notification} (h : n.Fits held) : n.Coherent := by
  cases n with
  | added o => trivial
  | updated old new => exact h.2
  | deleted last? observed =>
    rintro last hlast
    cases hlast
    exact h.2

theorem coherent_of_history {held : Contents} {ns : List Notification} (h : History held ns) :
    ∀ n ∈ ns, n.Coherent := by
  induction ns generalizing held with
  | nil => simp
  | cons n ns ih => exact List.forall_mem_cons.2 ⟨coherent_of_fits h.1, ih h.2⟩

end Notification

namespace ObjectEvent

variable {α : Type} [Resource α]

/-- The state that a deletion tells of: the one that was held, if it decodes, and otherwise the one
that was observed. -/
def remains (α : Type) [Resource α] (last? : Option Object) (observed : Object) : Object :=
  match last? with
  | none => observed
  | some last => match last.decode α with
    | .ok _ => last
    | .error _ => observed

/-- No metadata of an event differs from that of the object beside it. -/
def Consistent : ObjectEvent α → Prop
  | create m x => m = Resource.metadata x
  | update mOld old mNew new => mOld = Resource.metadata old ∧ mNew = Resource.metadata new
  | delete m x? => ∀ x ∈ x?, m = Resource.metadata x

/-- Metadata and an object tell of a state that is gone: all is as in the state but the version,
which is absent, and there is an object if the state decodes. -/
structure Buries (o : Object) (m : Metadata) (x? : Option α) : Prop where
  metadata_eq : m = { o.metadata with version? := none }
  object_eq : ∀ x, o.decode α = .ok x → ∃ y, x? = some y ∧
    Resource.metadata y = { Resource.metadata x with version? := none } ∧
    Resource.setMetadata (Resource.metadata x) y = x
  none_of_error : ∀ cause, o.decode α = .error cause → x? = none

/-- The states of a notification that an event tells of, and how. -/
def TellsOf (n : Notification) : ObjectEvent α → Prop
  | create m x => ∃ o, n.current? = some o ∧ m = o.metadata ∧ o.decode α = .ok x
  | update mOld old mNew new => ∃ before after, n = .updated before after ∧
      mOld = before.metadata ∧ before.decode α = .ok old ∧
      mNew = after.metadata ∧ after.decode α = .ok new
  | delete m x? => ∃ last? observed, n = .deleted last? observed ∧
      Buries (remains α last? observed) m x? ∧
      (x? = none ↔ ∀ o, o ∈ last? ∨ o = observed → ∃ cause, o.decode α = .error cause)

/-! ### Deletions -/

theorem remains_of_ok {last observed : Object} {x : α} (h : last.decode α = .ok x) :
    remains α (some last) observed = last := by
  rw [remains, h]

theorem remains_of_error {last observed : Object} {cause : ObjectError}
    (h : last.decode α = .error cause) : remains α (some last) observed = observed := by
  rw [remains, h]

/-- What is told of has the key of the notification. -/
theorem key_remains {last? : Option Object} {observed : Object}
    (h : (Notification.deleted last? observed).Coherent) :
    (remains α last? observed).key = observed.key := by
  rcases last? with - | last
  · rfl
  · rcases hx : last.decode α with cause | x
    · rw [remains_of_error hx]
    · rw [remains_of_ok hx]
      exact h last rfl

/-- What is told of fails to decode only if every state does. -/
theorem remains_error_iff {last? : Option Object} {observed : Object} :
    (∃ cause, (remains α last? observed).decode α = .error cause) ↔
      ∀ o, o ∈ last? ∨ o = observed → ∃ cause, o.decode α = .error cause := by
  rcases last? with - | last
  · simp [remains]
  · rcases hx : last.decode α with cause | x
    · rw [remains_of_error hx]
      refine ⟨?_, fun h ↦ h observed (.inr rfl)⟩
      rintro hobserved o (hlast | rfl)
      · cases hlast
        exact ⟨cause, hx⟩
      · exact hobserved
    · rw [remains_of_ok hx]
      exact ⟨fun herror ↦ absurd herror (by simp [hx]), fun h ↦ h last (.inl rfl)⟩

section Lawful

variable [LawfulResource α]

/-- A deletion is told from a state that decodes as from the observed one. -/
theorem ofLastKnown_eq_ofObserved {o : Object} {x : α} (h : o.decode α = .ok x) :
    ofLastKnown x = ofObserved o := by
  rw [ofLastKnown, ofObserved, metadata_tombstone, Object.metadata_of_decode h, h]
  rfl

/-- A deletion always gives an event. -/
theorem ofNotification_deleted_eq (last? : Option Object) (observed : Object) :
    (ofNotification (.deleted last? observed) : Except ObjectError (ObjectEvent α)) =
      .ok (ofObserved (remains α last? observed)) := by
  rcases last? with - | last
  · rfl
  · rcases hx : last.decode α with cause | x
    · rw [ofNotification, remains_of_error hx, hx]
    · rw [ofNotification, remains_of_ok hx, hx]
      exact congrArg Except.ok (ofLastKnown_eq_ofObserved hx)

theorem consistent_ofObserved (o : Object) : (ofObserved o : ObjectEvent α).Consistent := by
  intro y hy
  obtain ⟨x, hx, rfl⟩ := Option.map_eq_some_iff.1 hy
  rcases hdecode : o.decode α with cause | z
  · rw [hdecode] at hx
    cases hx
  · rw [hdecode] at hx
    cases hx
    rw [metadata_tombstone, Object.metadata_of_decode hdecode]

/-- What the event of a deletion has in it. -/
theorem buries_ofObserved (hset : ∀ x : α, Resource.setMetadata (Resource.metadata x)
    (tombstone x) = x) (o : Object) :
    Buries o o.metadata.clearVolatile ((o.decode α).toOption.map tombstone) where
  metadata_eq := rfl
  object_eq x hx := ⟨tombstone x, by rw [hx]; rfl, metadata_tombstone x, hset x⟩
  none_of_error cause hx := by
    rw [hx]
    rfl

/-- The event of a deletion. -/
theorem tellsOf_ofObserved (hset : ∀ x : α, Resource.setMetadata (Resource.metadata x)
    (tombstone x) = x) (last? : Option Object) (observed : Object) :
    (ofObserved (remains α last? observed) : ObjectEvent α).TellsOf (.deleted last? observed) := by
  have hburies := buries_ofObserved hset (remains α last? observed)
  refine ⟨last?, observed, rfl, hburies, ?_⟩
  rw [← remains_error_iff]
  constructor
  · intro hnone
    rcases hx : (remains α last? observed).decode α with cause | x
    · exact ⟨cause, rfl⟩
    · obtain ⟨y, hy, -⟩ := hburies.object_eq x hx
      rw [hnone] at hy
      cases hy
  · rintro ⟨cause, hx⟩
    exact hburies.none_of_error cause hx

/-! ### All notifications -/

/-- Only an addition or an update can fail to give an event, by its current state. -/
theorem ofNotification_eq_error_iff {n : Notification} {cause : ObjectError} :
    (ofNotification n : Except ObjectError (ObjectEvent α)) = .error cause ↔
      ∃ o, n.current? = some o ∧ o.decode α = .error cause := by
  constructor
  · intro h
    rcases hcurrent : n.current? with - | o
    · cases n with
      | deleted last? observed =>
        rw [ofNotification_deleted_eq] at h
        cases h
      | _ => cases hcurrent
    · refine ⟨o, rfl, ?_⟩
      rcases hx : o.decode α with cause' | x
      · rw [ofNotification_of_malformed hcurrent hx] at h
        cases h
        rfl
      · obtain ⟨e, he, -⟩ := ofNotification_of_decode hcurrent hx
        rw [he] at h
        cases h
  · rintro ⟨o, hcurrent, hx⟩
    exact ofNotification_of_malformed hcurrent hx

/-- The event of a state that decodes. -/
theorem tellsOf_of_decode {n : Notification} {o : Object} {x : α} (hn : n.current? = some o)
    (hx : o.decode α = .ok x) {e : ObjectEvent α} (he : ofNotification n = .ok e) :
    e.Consistent ∧ e.TellsOf n := by
  have hm := Object.metadata_of_decode hx
  cases n with
  | added o =>
    cases hn
    rw [ofNotification, hx] at he
    cases he
    exact ⟨rfl, o, rfl, hm, hx⟩
  | updated old new =>
    cases hn
    rcases hold : old.decode α with cause | before
    · -- the object is told of for the first time
      simp only [ofNotification, hx, hold] at he
      cases he
      exact ⟨rfl, o, rfl, hm, hx⟩
    · simp only [ofNotification, hx, hold] at he
      cases he
      exact ⟨⟨rfl, rfl⟩, old, o, rfl, Object.metadata_of_decode hold, hold, hm, hx⟩
  | deleted last? observed => cases hn

/-- The event of a notification has its key. -/
theorem key_of_ofNotification {n : Notification} (h : n.Coherent) {e : ObjectEvent α}
    (he : ofNotification n = .ok e) : e.key = n.key := by
  rcases hcurrent : n.current? with - | o
  · cases n with
    | deleted last? observed =>
      rw [ofNotification_deleted_eq] at he
      cases he
      exact key_remains h
    | _ => cases hcurrent
  · rcases hx : o.decode α with cause | x
    · rw [ofNotification_of_malformed hcurrent hx] at he
      cases he
    · obtain ⟨e', he', hkey, -⟩ := ofNotification_of_decode hcurrent hx
      rw [he'] at he
      cases he
      exact hkey

end Lawful

/-! ### Known resources -/

/-- In a known resource the metadata can be put back. -/
theorem setMetadata_tombstone (k : Known) (x : k.Carrier) :
    Resource.setMetadata (Resource.metadata x) (tombstone x) = x := by
  cases k <;> rfl

/-- **Typed and untyped identity agree**, for every known resource and every notification whose
states share one key.

* There is no event exactly when an addition or an update has a current state that does not decode,
  and the error is that of the decoding; so a deletion always gives an event, which is a deletion.
* An event has the key of its notification. All metadata in it is that of the object beside it, and,
  in a creation and an update, that of the untyped object.
* A deletion tells of the state that was held, if that decodes, and otherwise of the observed one:
  metadata and object are those of that state but for the version, which both lack, and there is no
  object exactly when no state decodes.

All notifications of a store are of this kind, whatever was written to it: those of one change, of a
listing, of a replay and of a resync. -/
theorem typed_identity (k : Known) :
    (∀ n : Notification, n.Coherent →
      let event : Except ObjectError (ObjectEvent k.Carrier) := ofNotification n
      (∀ cause, event = .error cause ↔
        ∃ o, n.current? = some o ∧ o.decode k.Carrier = .error cause) ∧
      ∀ e, event = .ok e → e.key = n.key ∧ e.Consistent ∧ e.TellsOf n) ∧
    (∀ last? observed, ∃ m x?, (ofNotification (.deleted last? observed) :
      Except ObjectError (ObjectEvent k.Carrier)) = .ok (.delete m x?) ∧ m.version? = none ∧
        ∀ x ∈ x?, (Resource.metadata x).version? = none) ∧
    ∀ writes, let s := Store.afterAll writes
      (∀ change, (s.apply change).2.Coherent) ∧ (∀ listed, ∀ n ∈ (s.replace listed).2, n.Coherent) ∧
        (∀ n ∈ s.replay, n.Coherent) ∧ ∀ n ∈ s.resync, n.Coherent := by
  refine ⟨fun n hn ↦ ⟨fun cause ↦ ofNotification_eq_error_iff, fun e he ↦
    ⟨key_of_ofNotification hn he, ?_⟩⟩, fun last? observed ↦ ?_, fun writes ↦ ?_⟩
  · rcases hcurrent : n.current? with - | o
    · cases n with
      | deleted last? observed =>
        rw [ofNotification_deleted_eq] at he
        cases he
        exact ⟨consistent_ofObserved _,
          tellsOf_ofObserved (setMetadata_tombstone k) last? observed⟩
      | _ => cases hcurrent
    · rcases hx : o.decode k.Carrier with cause | x
      · rw [ofNotification_of_malformed hcurrent hx] at he
        cases he
      · exact tellsOf_of_decode hcurrent hx he
  · refine ⟨_, _, ofNotification_deleted_eq last? observed, rfl, fun x hx ↦ ?_⟩
    rw [← consistent_ofObserved (remains k.Carrier last? observed) x hx,
      Metadata.version?_clearVolatile]
  · have hs := Store.keyed_afterAll writes
    exact ⟨fun change ↦ Notification.coherent_of_fits (Store.fits_apply hs change),
      fun listed ↦ Notification.coherent_of_history (Store.leads_replace hs listed).history,
      Notification.coherent_of_history (Store.leads_replay hs).history,
      Notification.coherent_of_history (Store.leads_resync hs).history⟩

/-- A widget whose last state does not decode is deleted. What was observed has its metadata as an
array, and decodes. -/
theorem typed_identity_of_deletion :
    let last : Object := ⟨.object [("metadata", .object [("name", .string "w"),
      ("namespace", .string "d")]), ("spec", .string "large")],
      { name := "w", ns? := some "d" }, rfl⟩
    let observed : Object := ⟨.object [("metadata", .array [.string "w", .string "d", .null,
      .string "7"])], { name := "w", ns? := some "d", version? := some "7" }, rfl⟩
    let e : ObjectEvent Widget := .delete { name := "w", ns? := some "d" }
      (some ⟨{ name := "w", ns? := some "d" }, {}⟩)
    ofNotification (.deleted (some last) observed) = .ok e ∧ e.key = observed.key ∧
      e.Consistent ∧ e.TellsOf (.deleted (some last) observed) := by
  intro last observed e
  have hcoherent : (Notification.deleted (some last) observed).Coherent := by
    rintro _ ⟨⟩
    decide
  have he : ofNotification (.deleted (some last) observed) = .ok e := rfl
  obtain ⟨hkey, hconsistent, htells⟩ := ((typed_identity .widget).1 _ hcoherent).2 e he
  exact ⟨he, hkey, hconsistent, htells⟩

end ObjectEvent

end Informer
