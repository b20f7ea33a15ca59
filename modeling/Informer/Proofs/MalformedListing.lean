import Informer.Proofs.ListingDiff
import Informer.Proofs.ReflectorLog
import Informer.Proofs.Stamping

/-!
# Listed payloads without identity

What a loop makes of payloads that are no objects. From a watch such a payload is reported and
changes nothing. In a listing it is reported too and then left out, and what is left out of a
listing is missing from it: the object that is held under the key that the payload names is deleted,
although the remote side still has it (`not_deletes_only_unnamed`).

So the deletions of a re-listing are those of the held objects whose keys no object of the reply has
(`relisting_deletes`). For a key whose payloads are objects these are the right ones, since a
payload which is an object and names a key is held under it (`key_of_names`); nothing is asked of
payloads that name other keys.
-/

namespace Informer

/-! ### Naming a key -/

/-- A payload names a key: its metadata is an object with the name and the namespace of the key. For
a cluster-scoped key the namespace is absent or null. Nothing is said of other members. -/
def Names (payload : Json) (key : Key) : Prop :=
  ∃ block, payload.get? "metadata" = some (.object block) ∧
    Json.member? "name" block = some (.string key.name) ∧
    (Json.member? "namespace" block).getD .null = (key.ns?.map Json.string).getD .null

/-- An object is held under the key that its payload names. -/
theorem key_of_names {p : Json} {o : Object} {key : Key} (ho : Object.ofPayload p = .ok o)
    (h : Names p key) : o.key = key := by
  obtain rfl := Object.ofPayload_eq_ok_iff.1 ho
  obtain ⟨block, hblock, hname, hns⟩ := h
  obtain ⟨v, hv, hm, -⟩ := payloadMetadata_eq_ok_iff.1 o.identified
  obtain rfl : v = .object block := Option.some.inj (hv.symm.trans hblock)
  have hscope : o.metadata.ns? = key.ns? := by
    have hread := Metadata.nullable_of_decode Metadata.part_ns rfl hm
    rw [hns] at hread
    cases hkey : key.ns? <;> rw [hkey] at hread <;> exact (Except.ok.inj hread).symm
  have hlocal : o.metadata.name = key.name := by
    rw [Metadata.decode_object] at hm
    have hread := Metadata.part_name.of_readMembers hm
    rw [hname] at hread
    exact (Except.ok.inj hread).symm
  show (⟨o.metadata.ns?, o.metadata.name⟩ : Key) = key
  rw [hscope, hlocal]

theorem mem_map_key_objects {payloads : List Json} {key : Key} :
    key ∈ (Signal.objects payloads).map Object.key ↔
      ∃ p ∈ payloads, ∃ o, Object.ofPayload p = .ok o ∧ o.key = key := by
  simp only [Signal.objects, List.mem_map, List.mem_filterMap]
  constructor
  · rintro ⟨o, ⟨p, hp, ho⟩, hkey⟩
    refine ⟨p, hp, o, ?_, hkey⟩
    rcases hread : Object.ofPayload p with cause | x
    · rw [hread] at ho
      cases ho
    · rw [hread] at ho
      exact congrArg Except.ok (Option.some.inj ho)
  · rintro ⟨p, hp, o, ho, hkey⟩
    exact ⟨o, ⟨p, hp, by rw [ho]; rfl⟩, hkey⟩

/-! ### Deletions -/

namespace Store

theorem deleted_notMem_changes (s : Store) (listed : List Object) (last? : Option Object)
    (observed : Object) : .deleted last? observed ∉ s.changes listed := by
  intro hmem
  obtain ⟨x, -, hx⟩ := List.mem_filterMap.1 hmem
  unfold notice? at hx
  split at hx
  · cases hx
  · have hreport := Option.some.inj hx
    unfold report at hreport
    split at hreport <;> cases hreport

/-- A re-listing deletes the held objects whose keys are not listed, in the state that was held. -/
theorem deleted_mem_replace {s : Store} (hs : s.Keyed) {listed : List Object}
    {last? : Option Object} {observed : Object} :
    .deleted last? observed ∈ (s.replace listed).2 ↔ last? = some observed ∧
      s.get? observed.key = some observed ∧ observed.key ∉ listed.map Object.key := by
  rw [replace_report hs, List.mem_append, or_iff_right (deleted_notMem_changes s listed _ _),
    removals, List.mem_map]
  constructor
  · rintro ⟨o, ho, heq⟩
    obtain ⟨rfl, rfl⟩ := Notification.deleted.inj heq
    obtain ⟨hmem, hunlisted⟩ := List.mem_filter.1 ho
    refine ⟨rfl, (mem_toList hs).1 hmem, fun hlisted ↦ ?_⟩
    rw [any_key_iff.2 hlisted] at hunlisted
    cases hunlisted
  · rintro ⟨rfl, hheld, hunlisted⟩
    refine ⟨observed, List.mem_filter.2 ⟨(mem_toList hs).2 hheld, ?_⟩, rfl⟩
    rw [Bool.not_eq_true', ← Bool.not_eq_true, any_key_iff]
    exact hunlisted

/-- A re-listing with the objects among some payloads deletes the held objects whose keys none of
these has. -/
theorem deleted_mem_replace_objects {s : Store} (hs : s.Keyed) {payloads : List Json}
    {last? : Option Object} {observed : Object} :
    .deleted last? observed ∈ (s.replace (Signal.objects payloads)).2 ↔
      last? = some observed ∧ s.get? observed.key = some observed ∧
        ∀ p ∈ payloads, ∀ o, Object.ofPayload p = .ok o → o.key ≠ observed.key := by
  rw [deleted_mem_replace hs, mem_map_key_objects]
  push Not
  rfl

/-- If all payloads that name a key are objects, it is deleted only if there is none, and stays held
if there is one. -/
theorem replace_of_readable {s : Store} (hs : s.Keyed) {payloads : List Json} {key : Key}
    (hread : ∀ p ∈ payloads, Names p key → ∃ o, Object.ofPayload p = .ok o) :
    (∀ last? observed, .deleted last? observed ∈ (s.replace (Signal.objects payloads)).2 →
      observed.key = key → ∀ p ∈ payloads, ¬ Names p key) ∧
    ((∃ p ∈ payloads, Names p key) →
      ((s.replace (Signal.objects payloads)).1.get? key).isSome) := by
  constructor
  · rintro last? observed hmem rfl p hp hnames
    obtain ⟨o, ho⟩ := hread p hp hnames
    obtain ⟨-, -, hunlisted⟩ := (deleted_mem_replace_objects hs).1 hmem
    exact hunlisted p hp o ho (key_of_names ho hnames)
  · rintro ⟨p, hp, hnames⟩
    obtain ⟨o, ho⟩ := hread p hp hnames
    rw [isSome_get?_replace]
    exact mem_map_key_objects.2 ⟨p, hp, o, ho, key_of_names ho hnames⟩

end Store

/-! ### The store of a loop -/

theorem Signal.keyed_absorb {s : Store} (h : s.Keyed) (signal : Signal) :
    (signal.absorb s).Keyed := by
  unfold Signal.absorb
  split
  · exact h.replace _
  · split
    · exact h.apply _
    · exact h
  · exact h

theorem Entry.keyed_react {e : Entry} (h : e.store.Keyed) (pace : Pace) (now : Nat)
    (signal : Signal) : (e.react pace now signal).1.store.Keyed := by
  by_cases hawaits : e.reflector.Awaits signal
  · rw [(Entry.taken_react hawaits).store]
    exact signal.keyed_absorb h
  · by_cases hstop : signal = .stopped
    · subst hstop
      unfold Entry.react
      cases e.reflector <;> exact h
    · rw [Entry.react_of_not_awaits hstop hawaits]
      exact h

/-- What is no object leaves the entry as it is when it comes from a watch. -/
theorem Entry.react_of_ofPayload_error {e : Entry} {pace : Pace} {now : Nat} {m : Mutation}
    {cause : ObjectError} (h : Object.ofPayload m.payload = .error cause) :
    (e.react pace now (.delivered (.mutation m))).1 = e := by
  have hchange : changeOf m = .error cause := by
    cases m <;> exact congrArg (Except.map _) h
  have htake : (e.takeMutation m).1 = e := by
    rw [takeMutation, hchange]
  unfold react
  cases e.reflector <;> first | rfl | exact htake

namespace Conversation

variable {pace : Pace} {kind : Kind} {backlog? : Option Nat}

theorem keyed_actAll (actions : List Action) :
    ((start kind backlog?).actAll pace actions).entry.store.Keyed := by
  have hfold : ∀ s : Conversation, s.entry.store.Keyed →
      (actions.foldl (act pace) s).entry.store.Keyed := by
    induction actions with
    | nil => exact fun _ h ↦ h
    | cons a actions ih =>
      intro s h
      refine ih (s.act pace a) ?_
      cases a with
      | take now signal => exact Entry.keyed_react h pace now signal
      | others callbacks => exact h
  exact hfold _ Store.keyed_empty

/-- **A re-listing deletes what no object of the reply stands for.** Whatever the remote side said
before, take a list reply of any payloads. The callbacks get what the store reports of the objects
among them, and every other payload is reported as dropped. Deleted are the held objects, each in
its held state, whose keys no object among the payloads has. So if all payloads that name some key
are objects, a deletion under this key means that none names it, and if one does then the key stays
held. What is no object and comes from a watch leaves all as it is. -/
theorem relisting_deletes (pace : Pace) (kind : Kind) (backlog? : Option Nat)
    (actions : List Action) (now : Nat) (l : Listing)
    (hlisting : ((start kind backlog?).actAll pace actions).entry.reflector = .listing) :
    let s := (start kind backlog?).actAll pace actions
    let t := s.act pace (.take now (.listed (.ok l)))
    let reports := (s.entry.store.replace (Signal.objects l.payloads)).2
    t.entry.callbacks = (s.entry.callbacks.dispatchAll reports).1 ∧
    t.effects.filter (·.isTold) = s.effects.filter (·.isTold) ++
      ((Signal.drops s.entry.kind l.payloads).map .publish ++
        [.call s.entry.kind (.watch l.version?)]) ∧
    (∀ last? observed, .deleted last? observed ∈ reports ↔
      last? = some observed ∧ s.entry.store.get? observed.key = some observed ∧
        ∀ p ∈ l.payloads, ∀ o, Object.ofPayload p = .ok o → o.key ≠ observed.key) ∧
    (∀ key, (∀ p ∈ l.payloads, Names p key → ∃ o, Object.ofPayload p = .ok o) →
      (∀ last? observed, .deleted last? observed ∈ reports → observed.key = key →
        ∀ p ∈ l.payloads, ¬ Names p key) ∧
      ((∃ p ∈ l.payloads, Names p key) → (t.entry.store.get? key).isSome)) ∧
    (∀ (e : Entry) (m : Mutation) (cause : ObjectError), Object.ofPayload m.payload = .error cause →
      (e.react pace now (.delivered (.mutation m))).1 = e) := by
  intro s t reports
  have hkeyed : s.entry.store.Keyed := keyed_actAll actions
  have hwaits : s.entry.reflector = .listing := hlisting
  have hreact : s.entry.react pace now (.listed (.ok l)) = s.entry.takeListing l := by
    simp [Entry.react, hwaits]
  have htaken := Entry.taken_takeListing hwaits l
  have hstore : t.entry.store = (s.entry.store.replace (Signal.objects l.payloads)).1 :=
    (congrArg (·.1.store) hreact).trans htaken.store
  refine ⟨?_, ?_, fun _ _ ↦ Store.deleted_mem_replace_objects hkeyed, fun key hread ↦ ?_,
    fun e m cause hcause ↦ Entry.react_of_ofPayload_error hcause⟩
  · show (s.entry.react pace now (.listed (.ok l))).1.callbacks = _
    rw [hreact, Entry.takeListing, Entry.readPayloads_eq]
    rfl
  · show (s.effects ++ (s.entry.react pace now (.listed (.ok l))).2).filter (·.isTold) = _
    rw [hreact, List.filter_append, htaken.told]
    rfl
  · rw [hstore]
    exact Store.replace_of_readable hkeyed hread

/-- A loop that took in a listing and lists again after the end of its watch. -/
def listsAgain (payloads : List Json) : List Action :=
  [.take 0 .started, .take 0 (.listed (.ok ⟨payloads, none⟩)), .take 0 (.opened (.ok 0)),
    .take 0 .closed, .take 5 .rested]

/-- A payload with a name, a version and a label. -/
def labelled (name version : String) (label : Json) : Json :=
  .object [("metadata", .object [("labels", .object [("app", label)]), ("name", .string name),
    ("resourceVersion", .string version)])]

/-- Of two held objects one is listed again, among a payload that names nothing: it stays, and the
other one is deleted. -/
theorem relisting_deletes_of_missing :
    let label : Json := .string "web"
    let s := (start ⟨"", "v1", "Node"⟩ none).actAll ⟨5, none⟩
      (listsAgain [labelled "a" "1" label, labelled "b" "1" label])
    let l : Listing := ⟨[.null, labelled "a" "2" label], none⟩
    let b : Object := ⟨labelled "b" "1" label,
      { name := "b", version? := some "1", labels := (∅ : Decode.TextMap).insert "app" "web" }, rfl⟩
    s.entry.reflector = .listing ∧
      .deleted (some b) b ∈ (s.entry.store.replace (Signal.objects l.payloads)).2 ∧
      ((s.act ⟨5, none⟩ (.take 5 (.listed (.ok l)))).entry.store.get? ⟨none, "a"⟩).isSome := by
  intro label s l b
  have hlisting : s.entry.reflector = .listing := rfl
  let a : Object := ⟨labelled "a" "2" label,
    { name := "a", version? := some "2", labels := (∅ : Decode.TextMap).insert "app" "web" }, rfl⟩
  have hread : Object.ofPayload (labelled "a" "2" label) = .ok a :=
    Object.ofPayload_eq_ok_iff.2 rfl
  obtain ⟨-, -, hdeleted, hkept, -⟩ := relisting_deletes _ _ _ _ 5 l hlisting
  refine ⟨hlisting, (hdeleted (some b) b).2 ⟨rfl, by decide, ?_⟩, (hkept ⟨none, "a"⟩ ?_).2 ?_⟩
  · rintro p hp o ho
    rcases List.mem_cons.1 hp with rfl | hp
    · cases ho
    · obtain rfl := List.mem_singleton.1 hp
      obtain rfl : a = o := Except.ok.inj (hread.symm.trans ho)
      decide
  · rintro p hp ⟨block, hblock, -⟩
    rcases List.mem_cons.1 hp with rfl | hp
    · cases hblock
    · obtain rfl := List.mem_singleton.1 hp
      exact ⟨a, hread⟩
  · exact ⟨labelled "a" "2" label, by simp [l], _, rfl, rfl, rfl⟩

/-- **The deletions are not only those of keys that no payload of the reply names.** A held object
is listed again with a label that is no text. The payload names its key, but is no object, and so
the held object is deleted. -/
theorem not_deletes_only_unnamed :
    ¬ ∀ (pace : Pace) (kind : Kind) (backlog? : Option Nat) (actions : List Action) (l : Listing),
      ((start kind backlog?).actAll pace actions).entry.reflector = .listing →
      ∀ last? observed, .deleted last? observed ∈
          (((start kind backlog?).actAll pace actions).entry.store.replace
            (Signal.objects l.payloads)).2 →
        ∀ p ∈ l.payloads, ¬ Names p observed.key := by
  intro h
  let held : Object := ⟨labelled "a" "1" (.string "web"),
    { name := "a", version? := some "1", labels := (∅ : Decode.TextMap).insert "app" "web" }, rfl⟩
  let relisted : Json := labelled "a" "2" (.integer 3)
  refine h ⟨5, none⟩ ⟨"", "v1", "Node"⟩ none (listsAgain [held.payload]) ⟨[relisted], none⟩ rfl
    (some held) held ?_ relisted List.mem_cons_self ⟨_, rfl, rfl, rfl⟩
  decide

end Conversation

end Informer
