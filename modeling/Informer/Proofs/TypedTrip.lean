import Informer.Proofs.Convergence
import Informer.Proofs.TypedReads
import Informer.Proofs.TypedWrites

/-!
# Resources survive the trip through a store

A resource is written, stamped by the registry, recorded, taken in by a cache and decoded again by a
typed read. The written form and the stamps are dealt with elsewhere. Here the answer of the
registry is followed to the reader.

The registry records what it answers as a change to the object in the payload. A cache that has
taken this change in, or a listing that has the object, holds the object until a later write of its
store is about the same key (`Store.get?_afterAll_of_brings`). Beside a registry whose clients are
honest, what is held there and does not wait in the stream of the loop has been taken in
(`Mirror.Faithful.exists_get?`). A point read decodes the payload that was answered in either case.
The main result is `resources_survive`.
-/

namespace Informer

/-! ### One object in a store -/

namespace Store

/-- A write brings an object into a store: a change to that object, or a listing that has it and no
other object with its key, and that does not pass over it. -/
inductive Brings (s : Store) (o : Object) : Write → Prop
  | change : Brings s o (.apply (.upsert o))
  | listing {listed : List Object} (mem : o ∈ listed)
    (only : ∀ other ∈ listed, other.key = o.key → other = o) (new : ¬ Repeats (s.get? o.key) o) :
    Brings s o (.replace listed)

/-- A write leaves an object that is held: it is about another key, or it has the object again. -/
inductive Spares (o : Object) : Write → Prop
  | again : Spares o (.apply (.upsert o))
  | change {change : Change} (other : change.key ≠ o.key) : Spares o (.apply change)
  | listing {listed : List Object} (mem : o ∈ listed)
    (only : ∀ other ∈ listed, other.key = o.key → other = o) : Spares o (.replace listed)

variable {s : Store} {o : Object}

/-- Taking in one object several times leaves it, if it is there already or is not passed over. -/
theorem foldl_takeIn {held? : Option Object} {listed : List Object} (honly : ∀ l ∈ listed, l = o)
    (h : held? = some o ∨ (listed ≠ [] ∧ ¬ Repeats held? o)) :
    listed.foldl takeIn held? = some o := by
  induction listed generalizing held? with
  | nil => exact h.resolve_right fun hne ↦ hne.1 rfl
  | cons l listed ih =>
    obtain ⟨rfl, hrest⟩ := List.forall_mem_cons.1 honly
    refine ih hrest (.inl ?_)
    obtain rfl | ⟨-, hnew⟩ := h
    · exact ite_self _
    · exact if_neg hnew

/-- A listing with an object leaves it, if it is there already or is not passed over. -/
theorem get?_replace_of_only {listed : List Object} (hmem : o ∈ listed)
    (honly : ∀ other ∈ listed, other.key = o.key → other = o)
    (h : s.get? o.key = some o ∨ ¬ Repeats (s.get? o.key) o) :
    (s.replace listed).1.get? o.key = some o := by
  rw [get?_replace, if_pos (List.mem_map_of_mem hmem)]
  refine foldl_takeIn (fun l hl ↦ ?_) (h.imp_right fun hnew ↦ ⟨?_, hnew⟩)
  · obtain ⟨hl, hkey⟩ := List.mem_filter.1 hl
    exact honly l hl (of_decide_eq_true hkey)
  · exact List.ne_nil_of_mem (List.mem_filter.2 ⟨hmem, decide_eq_true rfl⟩)

theorem get?_write_of_brings {w : Write} (h : Brings s o w) :
    (s.write w).get? o.key = some o := by
  cases h with
  | change => exact (getElem?_apply_upsert s o o.key).trans (if_pos rfl)
  | listing mem only new => exact get?_replace_of_only mem only (.inr new)

theorem get?_write_of_spares {w : Write} (hw : Spares o w) (h : s.get? o.key = some o) :
    (s.write w).get? o.key = some o := by
  cases hw with
  | again => exact get?_write_of_brings .change
  | @change change other =>
    cases change with
    | upsert e => exact (getElem?_apply_upsert s e o.key).trans ((if_neg other).trans h)
    | remove e =>
      show (s.erase e.key).objects[o.key]? = some o
      rw [objects_erase, Key.getElem?_erase]
      exact (if_neg other).trans h
  | listing mem only => exact get?_replace_of_only mem only (.inl h)

/-- **An object that was brought in stays** as long as every later write spares it. -/
theorem get?_afterAll_of_brings {writes later : List Write} {w : Write}
    (hw : Brings (afterAll writes) o w) (hlater : ∀ v ∈ later, Spares o v) :
    (afterAll (writes ++ w :: later)).get? o.key = some o := by
  have hkept : ∀ t : Store, t.get? o.key = some o → (later.foldl write t).get? o.key = some o := by
    induction later with
    | nil => exact fun _ h ↦ h
    | cons v later ih =>
      obtain ⟨hv, hrest⟩ := List.forall_mem_cons.1 hlater
      exact fun t h ↦ ih hrest (t.write v) (get?_write_of_spares hv h)
  rw [afterAll, List.foldl_append, List.foldl_cons]
  exact hkept _ (get?_write_of_brings hw)

end Store

/-! ### What a loop has not left waiting -/

/-- A payload that is held after some recorded mutations, and came with none of the last ones, was
held before these. -/
theorem getElem?_contents_of_append {entries later : List (Nat × Mutation)} {key : Key} {p : Json}
    (h : (contents (entries ++ later))[key]? = some p) (hlater : ∀ x ∈ later, x.2.payload ≠ p) :
    (contents entries)[key]? = some p := by
  induction later using List.reverseRecOn with
  | nil => rwa [List.append_nil] at h
  | append_singleton later x ih =>
    obtain ⟨hrest, hx⟩ := List.forall_mem_append.1 hlater
    refine ih ?_ hrest
    rw [← List.append_assoc, contents_concat, Mutation.carry] at h
    split at h
    · next o hchange =>
      rw [Key.getElem?_insert] at h
      split at h
      · -- then the payload came with this mutation
        refine absurd ?_ (hx x List.mem_cons_self)
        rw [← Entry.payload_changeOf hchange]
        exact Option.some.inj h
      · exact h
    · rw [Key.getElem?_erase] at h
      split at h
      · cases h
      · exact h
    · exact h

namespace Mirror

variable {w : Mirror} {kind : Kind}

/-- **What the registry holds and does not wait to be read, the loop has taken in**, if the remote
side of its stream is there. -/
theorem Faithful.exists_get? (h : Faithful kind w) {n : Nat} (hn : w.stream? = some n)
    (hsending : (w.remote.streams.get n).sending) {key : Key} {p : Json}
    (hheld : w.remote.get? kind key = some p)
    (hread : ∀ m, .mutation m ∈ (w.remote.streams.get n).queue → m.payload ≠ p) :
    ∃ o, w.entry.store.get? key = some o ∧ o.payload = p := by
  obtain ⟨seen, reads⟩ := h.phase.reads hn
  have hcontents : (contents (w.remote.record kind).history)[key]? = some p := by
    rw [← h.sound.objects]
    exact hheld
  have hseen : (contents seen)[key]? = some p := by
    cases reads.feed with
    | live later history hstream watched =>
      rw [history] at hcontents
      refine getElem?_contents_of_append hcontents fun x hx ↦ hread x.2 ?_
      rw [hstream]
      exact List.mem_map_of_mem hx
    | broken later missed e history hstream unwatched =>
      rw [hstream] at hsending
      cases hsending
  rw [← reads.held, Store.getElem?_payloads] at hseen
  exact Option.map_eq_some_iff.1 hseen

end Mirror

/-! ### The whole trip -/

open Registry (Request performAll Revises)

/-- **Resources survive the trip through a store**, whatever their fields hold.

* Written metadata decode as what was written, and so do the resources of every known type.
* A creation of a resource with a name is accepted if the key is free, and is answered with the
  resource with its identifier and version replaced by those that the registry gives next.
* An update is accepted that writes the answer of a write back, changed in nothing but its labels,
  annotations, generation and the fields of its kind, unless somebody touched the key in between. It
  is answered with what was written with the version replaced.
* What is answered is held and recorded. A cache that takes the recorded change in, or a listing
  that has the object and does not pass over it, returns what was answered from a typed read of the
  key until a later write of its store is about that key.
* A loop beside a registry with honest clients has taken in what the registry holds if that does not
  wait in its stream, and a typed read returns it. -/
theorem resources_survive (k : Known) :
    (∀ m : Metadata, Metadata.decode m.encode = .ok m) ∧
    (∀ x : k.Carrier, Resource.decode (Resource.encode x) = .ok x) ∧
    (∀ (r : Registry) (x : k.Carrier), (Resource.metadata x).name ≠ "" →
      r.get? k.kind (Resource.metadata x).key = none →
        ∃ p, r.TypedWrite (.create k.kind (Resource.encode x)) p (r.created x)) ∧
    (∀ (before between : List Request) (req : Request) (p : Json) (copy x : k.Carrier),
      (performAll {} before).TypedWrite req p copy →
      (performAll {} (before ++ [req])).Untouched k.kind (Resource.metadata copy).key between →
      Revises copy x → let r := performAll {} (before ++ req :: between)
        ∃ q, r.TypedWrite (.update k.kind (Resource.encode x)) q (r.updated x)) ∧
    (∀ (before : List Request) (req : Request) (p : Json) (x : k.Carrier),
      (performAll {} before).TypedWrite req p x →
      ∃ o m, o.payload = p ∧ o.key = (Resource.metadata x).key ∧
        (performAll {} (before ++ [req])).get? k.kind o.key = some p ∧
        (performAll {} before).recorded? req = some (k.kind, m) ∧
        Entry.changeOf m = .ok (.upsert o) ∧
        ∀ (c : Cache) (writes later : List Store.Write) (w : Store.Write),
          (Store.afterAll writes).Brings o w → (∀ v ∈ later, Store.Spares o v) →
          c.storeOf k.kind = Store.afterAll (writes ++ w :: later) →
            c.get k.Carrier o.key = .ok (some x)) ∧
    ∀ (backlog? : Option Nat) (actions : List Mirror.Action), (∀ a ∈ actions, a.Honest k.kind) →
      let w := Mirror.actAll (Mirror.blank k.kind backlog?) actions
      ∀ n key p (x : k.Carrier), w.stream? = some n → (w.remote.streams.get n).sending →
        w.remote.get? k.kind key = some p → Resource.decode p = .ok x →
        (∀ m, .mutation m ∈ (w.remote.streams.get n).queue → m.payload ≠ p) →
        ∀ c : Cache, c.storeOf k.kind = w.entry.store → c.get k.Carrier key = .ok (some x) := by
  refine ⟨Metadata.decode_encode, WrittenResource.decode_encode,
    fun r x hname hfree ↦ Registry.create_of_free hname hfree,
    fun before between req p copy x h hbetween hx ↦ h.update hbetween hx, ?_, ?_⟩
  · intro before req p x h
    obtain ⟨o, rfl, hkey, hdecode, -, hheld⟩ :=
      h.exists_object (Registry.keyed_performAll (Registry.keyed_empty _) before)
    obtain ⟨m, hrecorded, -, hchange⟩ := h.recorded rfl
    refine ⟨o, m, rfl, hkey, ?_, hrecorded, hchange, fun c writes later w hw hlater hc ↦ ?_⟩
    · rw [Registry.performAll_append]
      exact hheld
    · rw [c.get_of_held hc (Store.get?_afterAll_of_brings hw hlater), hdecode]
      rfl
  · intro backlog? actions ha w n key p x hn hsending hheld hx hread c hc
    obtain ⟨o, ho, rfl⟩ :=
      ((Mirror.faithful_blank k.kind backlog?).actAll ha).exists_get? hn hsending hheld hread
    have hdecode : o.decode k.Carrier = .ok x := by rw [Object.decode, hx]
    rw [c.get_of_held hc ho, hdecode]
    rfl

/-- A widget as it is first written. -/
def firstWidget : Known.widget.Carrier :=
  ⟨{ name := "a", ns? := some "d", generation? := some 1 }, ⟨3⟩⟩

/-- What an empty registry answers when the widget is created. -/
def createdWidget : Known.widget.Carrier :=
  ⟨{ name := "a", ns? := some "d", uid? := some "uid-1", version? := some "1",
     generation? := some 1 }, ⟨3⟩⟩

/-- The answer with another size, a label and the next generation. -/
def revisedWidget : Known.widget.Carrier :=
  ⟨{ name := "a", ns? := some "d", uid? := some "uid-1", version? := some "1",
     generation? := some 2, labels := (∅ : Decode.TextMap).insert "app" "web" }, ⟨5⟩⟩

/-- The revised widget as it is stored by the third write. -/
def storedWidget : Known.widget.Carrier :=
  ⟨{ revisedWidget.metadata with version? := some "3" }, revisedWidget.spec⟩

/-- A client creates the widget. -/
def creation : Request := .create Known.widget.kind (Resource.encode firstWidget)

/-- Another client creates an object of another kind. -/
def unrelated : Request := .create Known.configMap.kind (Registry.namedPayload "b")

/-- The first client writes its revised copy back. -/
def revision : Request := .update Known.widget.kind (Resource.encode revisedWidget)

/-- The loop of the kind lists an empty registry and reads both writes of the widget. -/
def widgetRun : List Mirror.Action :=
  let pace : Pace := ⟨1, none⟩
  [.prompt pace 0 .start, .answer, .hear pace 0, .answer, .hear pace 0, .request creation,
    .request unrelated, .request revision, .read pace 0, .read pace 0]

theorem honest_widgetRun : ∀ a ∈ widgetRun, a.Honest Known.widget.kind := by
  have hnamed : Registry.Standard (Registry.namedPayload "b") := ⟨_, rfl⟩
  simp [widgetRun, creation, unrelated, revision, Mirror.Action.Honest, Request.Honest, hnamed,
    Registry.standard_encode]

/-- The widget is created, a client revises the answer, and the cache reads what the client was
answered last. -/
theorem resources_survive_revision :
    let w := Mirror.actAll (Mirror.blank Known.widget.kind none) widgetRun
    ∃ p q, ({} : Registry).TypedWrite creation p createdWidget ∧
      (performAll {} [creation, unrelated]).TypedWrite revision q storedWidget ∧
      (∃ o : Object, o.payload = p ∧ ∀ c : Cache,
        c.storeOf Known.widget.kind = Store.afterAll [.replace [o], .replace [o]] →
          c.get Known.widget.Carrier ⟨some "d", "a"⟩ = .ok (some createdWidget)) ∧
      ∀ c : Cache, c.storeOf Known.widget.kind = w.entry.store →
        c.get Known.widget.Carrier ⟨some "d", "a"⟩ = .ok (some storedWidget) := by
  intro w
  obtain ⟨-, -, hcreate, hupdate, hcache, hrun⟩ := resources_survive .widget
  obtain ⟨p, hp⟩ := hcreate {} firstWidget (by decide) (by decide)
  have hcreated : ({} : Registry).created firstWidget = createdWidget := by decide
  rw [hcreated] at hp
  have huntouched : (performAll {} [creation]).Untouched Known.widget.kind
      (Resource.metadata createdWidget).key [unrelated] := by
    refine ⟨fun ⟨left?, htouch⟩ ↦ ?_, trivial⟩
    have hkind : ((performAll {} [creation]).touch? unrelated).map (·.kind) =
        some Known.configMap.kind := by decide
    have hne : some Known.widget.kind ≠ some Known.configMap.kind := by decide
    rw [htouch] at hkind
    exact hne hkind
  have hrevises : Revises createdWidget revisedWidget := ⟨_, _, _, rfl⟩
  obtain ⟨q, hq⟩ := hupdate [] [unrelated] creation p createdWidget revisedWidget hp huntouched
    hrevises
  have hstored : (performAll {} [creation, unrelated]).updated revisedWidget = storedWidget := by
    decide
  refine ⟨p, q, hp, hstored ▸ hq, ?_, fun c ↦ ?_⟩
  · obtain ⟨o, m, ho, hkey, -, -, -, hread⟩ := hcache [] creation p createdWidget hp
    refine ⟨o, ho, fun c hc ↦ ?_⟩
    have honly : ∀ other ∈ [o], other.key = o.key → other = o := by simp
    have hnew : ¬ Store.Repeats ((Store.afterAll []).get? o.key) o := by
      simp [Store.Repeats, Store.afterAll, Store.get?]
    have hget := hread c [] [.replace [o]] (.replace [o]) (.listing List.mem_cons_self honly hnew)
      (List.forall_mem_singleton.2 (.listing List.mem_cons_self honly)) hc
    rwa [hkey] at hget
  · have hqueue : (w.remote.streams.get 0).queue = [] := by decide
    exact hrun none widgetRun honest_widgetRun 0 ⟨some "d", "a"⟩
      (Registry.stamp (.string "uid-1") 3 (Resource.encode revisedWidget)) storedWidget (by decide)
      (by decide) (by decide) (by decide) (by rw [hqueue]; simp) c

end Informer
