import Informer.Proofs.EntryRun
import Informer.Proofs.Identity

/-!
# Typed events follow the store

What a handler can build from the typed events of a source: under each key the object of the last
event, unless that event was a deletion. An event has the key of its notification and tells of the
current state with the metadata of the untyped object (`ofNotification_of_decode`,
`ofNotification_deleted`).

A state that does not decode gives no event, so what a handler knows falls behind the store for that
key alone, until a state that decodes or a deletion comes. The link between the two is `Mirrors`,
which speaks about every key on its own. A notification that fits the store keeps it
(`Mirrors.step`), hence a history does (`Mirrors.history`), and what the callback of a source is
given is a history (`Entry.leads_sequence`). The main result is `Source.events_follow_store`.
-/

namespace Informer

namespace Notification

/-- The state that a notification leaves under its key. -/
def current? : Notification → Option Object
  | added o => some o
  | updated _ new => some new
  | deleted _ _ => none

/-- A notification concerns its own key only. -/
theorem getElem?_carry (held : Contents) (n : Notification) (key : Key) :
    (n.carry held)[key]? = if n.key = key then n.current? else held[key]? := by
  cases n with
  | deleted last? observed => exact Key.getElem?_erase held observed.key key
  | _ => exact Key.getElem?_insert held _ _ key

end Notification

/-! ### The event for a notification -/

namespace ObjectEvent

variable {α : Type}

/-- The state that an event leaves its object in, which is none when the object is gone. -/
def state? : ObjectEvent α → Option (Metadata × α)
  | create m x => some (m, x)
  | update _ _ m x => some (m, x)
  | delete _ _ => none

variable [Resource α] [LawfulResource α]

/-- A state that decodes gives an event, which tells of that state. -/
theorem ofNotification_of_decode {n : Notification} {o : Object} {x : α} (hn : n.current? = some o)
    (hx : o.decode α = .ok x) :
    ∃ e : ObjectEvent α, ofNotification n = .ok e ∧ e.key = n.key ∧
      e.state? = some (o.metadata, x) := by
  have hm : Resource.metadata x = o.metadata := Object.metadata_of_decode hx
  cases n with
  | added o =>
    cases hn
    refine ⟨ofCreated x, by rw [ofNotification, hx]; rfl, congrArg Metadata.key hm, ?_⟩
    rw [ofCreated, state?, hm]
  | updated old new =>
    cases hn
    rcases hold : old.decode α with cause | before
    · refine ⟨ofCreated x, ?_, congrArg Metadata.key hm, by rw [ofCreated, state?, hm]⟩
      simp only [ofNotification, hx, hold]
      rfl
    · refine ⟨update (Resource.metadata before) before (Resource.metadata x) x, ?_,
        congrArg Metadata.key hm, by rw [state?, hm]⟩
      simp only [ofNotification, hx, hold]
      rfl
  | deleted last? observed => cases hn

omit [LawfulResource α] in
/-- A state that does not decode gives no event. -/
theorem ofNotification_of_malformed {n : Notification} {o : Object} {cause : ObjectError}
    (hn : n.current? = some o) (hx : o.decode α = .error cause) :
    (ofNotification n : Except ObjectError (ObjectEvent α)) = .error cause := by
  cases n with
  | deleted last? observed => cases hn
  | _ =>
    cases hn
    rw [ofNotification, hx]
    rfl

/-- A deletion gives an event, whether any state of the object decodes or not. -/
theorem ofNotification_deleted {held : Contents} {last? : Option Object} {observed : Object}
    (hf : (Notification.deleted last? observed).Fits held) :
    ∃ e : ObjectEvent α, ofNotification (.deleted last? observed) = .ok e ∧ e.key = observed.key ∧
      e.state? = none := by
  rcases last? with - | last
  · exact ⟨ofObserved observed, rfl, rfl, rfl⟩
  · rcases hx : last.decode α with cause | x
    · exact ⟨ofObserved observed, by rw [ofNotification, hx], rfl, rfl⟩
    · refine ⟨ofLastKnown x, by rw [ofNotification, hx], ?_, rfl⟩
      show (Resource.metadata (tombstone x)).key = observed.key
      rw [metadata_tombstone, Metadata.key_clearVolatile, Object.metadata_of_decode hx]
      exact hf.2

/-- An update event tells of two states that both decode. -/
theorem update_of_ofNotification {n : Notification} {mOld mNew : Metadata} {old new : α}
    (h : ofNotification n = .ok (.update mOld old mNew new)) :
    ∃ before after : Object, n = .updated before after ∧ before.decode α = .ok old ∧
      mOld = before.metadata ∧ mNew = after.metadata := by
  cases n with
  | added o =>
    rw [ofNotification] at h
    rcases hx : o.decode α with cause | x
    · rw [hx] at h
      cases h
    · rw [hx] at h
      cases h
  | updated before after =>
    rcases hx : after.decode α with cause | x
    · rw [ofNotification_of_malformed rfl hx] at h
      cases h
    · rcases hy : before.decode α with cause | y
      · simp only [ofNotification, hx, hy] at h
        cases h
      · simp only [ofNotification, hx, hy] at h
        cases h
        exact ⟨before, after, rfl, hy, Object.metadata_of_decode hy, Object.metadata_of_decode hx⟩
  | deleted last? observed =>
    rcases last? with - | last
    · cases h
    · rw [ofNotification] at h
      split at h <;> cases h

/-! ### What a handler can build from events -/

omit [Resource α] [LawfulResource α]

/-- What the last event about a key told of its object, if there was one and it was not a
deletion. -/
def latest? (events : List (ObjectEvent α)) (key : Key) : Option (Metadata × α) :=
  ((events.filter (·.key = key)).getLast?).bind state?

/-- Enters an event into the objects by key: a deletion removes, every other event sets. -/
def enter (view : Std.ExtTreeMap Key α) : ObjectEvent α → Std.ExtTreeMap Key α
  | create m x => view.insert m.key x
  | update _ _ m x => view.insert m.key x
  | delete m _ => view.erase m.key

/-- The objects by key that a handler builds from its events. -/
def viewOf (events : List (ObjectEvent α)) : Std.ExtTreeMap Key α := events.foldl enter ∅

theorem latest?_nil (key : Key) : latest? ([] : List (ObjectEvent α)) key = none := rfl

theorem latest?_concat (events : List (ObjectEvent α)) (e : ObjectEvent α) (key : Key) :
    latest? (events ++ [e]) key = if e.key = key then e.state? else latest? events key := by
  rw [latest?, List.filter_append]
  split
  · next h => simp [h]
  · next h => simp [h, latest?]

theorem getElem?_enter (view : Std.ExtTreeMap Key α) (e : ObjectEvent α) (key : Key) :
    (enter view e)[key]? = if e.key = key then e.state?.map (·.2) else view[key]? := by
  cases e with
  | delete m x? => exact Key.getElem?_erase view m.key key
  | _ => exact Key.getElem?_insert view _ _ key

/-- The last event about a key decides what a handler has under it. -/
theorem getElem?_viewOf (events : List (ObjectEvent α)) (key : Key) :
    (viewOf events)[key]? = (latest? events key).map (·.2) := by
  induction events using List.reverseRecOn with
  | nil => simp [viewOf, latest?_nil]
  | append_singleton events e ih =>
    rw [viewOf, List.foldl_append, ← viewOf, List.foldl_cons, List.foldl_nil, getElem?_enter,
      latest?_concat, ih]
    split <;> rfl

end ObjectEvent

/-! ### The events of a source -/

/-- A call that provides the entry of a kind leaves the numbers of callbacks alone. -/
theorem Cache.getOrCreate_ok {c c' : Cache} {kind : Kind} {effects : List Effect}
    (h : c.getOrCreate kind = ((c', effects), .ok ())) :
    c'.nextCallback = c.nextCallback ∧ ∃ e, c'.entries[kind]? = some e := by
  unfold getOrCreate at h
  split at h
  · cases h
  · split at h
    · next hk =>
      cases h
      exact ⟨rfl, Option.isSome_iff_exists.1 (by simpa using hk)⟩
    · cases h
      refine ⟨rfl, Entry.empty kind c.config.backlog?, ?_⟩
      simp

namespace Source

open ObjectEvent (latest? viewOf)

/-- A source that starts registers one callback, under its own name, on the entry of its kind. -/
theorem start_ok {s s' : Source} {c c' : Cache} {effects : List Effect}
    (h : s.start c = ((c', effects), .ok s')) :
    ∃ e, (c.getOrCreate s.kind).1.1.entries[s.kind]? = some e ∧
      s'.callback? = some c.nextCallback ∧
      c'.entries[s.kind]? = some (e.register c.nextCallback s.name).1 := by
  unfold start at h
  split at h
  · cases h
  · cases h
  · next cache hphase =>
    rcases hget : c.getOrCreate s.kind with ⟨⟨provided, created⟩, cause | ⟨⟩⟩
    · rw [hget] at h
      cases h
    · obtain ⟨hnext, e, he⟩ := Cache.getOrCreate_ok hget
      rw [hget] at h
      cases h
      refine ⟨e, he, congrArg some hnext, ?_⟩
      simp [Cache.emit, he, hnext]

variable {α : Type} [Resource α]

/-- The calls of a source's handler for some notifications. -/
def calls (α : Type) [Resource α] (name : String) (ns : List Notification) : List (ObjectEvent α) :=
  ns.filterMap fun n ↦ (interpret α name n).toOption

/-- The reports that a source publishes about some notifications. -/
def reports (α : Type) [Resource α] (name : String) (ns : List Notification) : List RuntimeEvent :=
  ns.filterMap fun n ↦ match interpret α name n with
    | .error report => some report
    | .ok _ => none

theorem interpret_eq_ok_iff {name : String} {n : Notification} {e : ObjectEvent α} :
    interpret α name n = .ok e ↔ ObjectEvent.ofNotification n = .ok e := by
  rw [interpret]
  split
  · next h => rw [h, Except.ok.injEq, Except.ok.injEq]
  · next h => rw [h]; simp

theorem calls_append (name : String) (ns ms : List Notification) :
    calls α name (ns ++ ms) = calls α name ns ++ calls α name ms :=
  List.filterMap_append

theorem calls_of_ok {name : String} {n : Notification} {e : ObjectEvent α}
    (h : ObjectEvent.ofNotification n = .ok e) : calls α name [n] = [e] := by
  simp [calls, interpret_eq_ok_iff.2 h, Except.toOption]

theorem calls_of_error {name : String} {n : Notification} {cause : ObjectError}
    (h : (ObjectEvent.ofNotification n : Except _ (ObjectEvent α)) = .error cause) :
    calls α name [n] = [] := by
  simp [calls, interpret, h, Except.toOption]

/-- A notification gives one call and no report, or no call and one report that names the source. -/
theorem calls_reports (name : String) (n : Notification) :
    (∃ e, calls α name [n] = [e] ∧ reports α name [n] = []) ∨
      ∃ cause, calls α name [n] = [] ∧
        reports α name [n] = [.notificationDropped (Resource.kind α) name n.key cause] := by
  rcases h : (ObjectEvent.ofNotification n : Except _ (ObjectEvent α)) with cause | e
  · exact .inr ⟨cause.message, calls_of_error h, by simp [reports, interpret, h]⟩
  · exact .inl ⟨e, calls_of_ok h, by simp [reports, interpret, h]⟩

/-! ### Events mirror the store -/

/-- Of every key the last event told the truth: of an absent one that it is gone, of one that holds
an object what the object decodes as. Of an object that does not decode nothing is said. -/
structure Mirrors (held : Contents) (events : List (ObjectEvent α)) : Prop where
  gone : ∀ key, held[key]? = none → latest? events key = none
  current : ∀ key o x, held[key]? = some o → o.decode α = .ok x →
    latest? events key = some (o.metadata, x)

variable (α) in
theorem mirrors_empty : Mirrors ∅ ([] : List (ObjectEvent α)) where
  gone _ _ := rfl
  current key o x h := by simp at h

variable [LawfulResource α]

variable (α) in
/-- A notification that fits gives an event about the state that it leaves, unless it leaves a state
that does not decode. -/
theorem calls_cases {held : Contents} {n : Notification} (hn : n.Fits held) (name : String) :
    (∃ e, calls α name [n] = [e] ∧ e.key = n.key ∧
      e.state? = n.current?.bind fun o ↦ (o.decode α).toOption.map (o.metadata, ·)) ∨
    (calls α name [n] = [] ∧ ∃ o cause, n.current? = some o ∧ o.decode α = .error cause) := by
  rcases hcurrent : n.current? with - | o
  · cases n with
    | deleted last? observed =>
      obtain ⟨e, he, hkey, hstate⟩ := @ObjectEvent.ofNotification_deleted α _ _ _ _ _ hn
      exact .inl ⟨e, calls_of_ok he, hkey, hstate⟩
    | _ => cases hcurrent
  · rcases hx : o.decode α with cause | x
    · have herror := ObjectEvent.ofNotification_of_malformed hcurrent hx
      exact .inr ⟨calls_of_error herror, o, cause, rfl, hx⟩
    · obtain ⟨e, he, hkey, hstate⟩ := ObjectEvent.ofNotification_of_decode hcurrent hx
      exact .inl ⟨e, calls_of_ok he, hkey, by simp [hstate, hx, Except.toOption]⟩

/-- **A notification that fits the contents keeps the events in step with them.** -/
theorem Mirrors.step {held : Contents} {events : List (ObjectEvent α)} (h : Mirrors held events)
    {n : Notification} (hn : n.Fits held) (name : String) :
    Mirrors (n.carry held) (events ++ calls α name [n]) := by
  rcases calls_cases α hn name with ⟨e, hcalls, hkey, hstate⟩ | ⟨hcalls, bad, cause, hbad, hx⟩
  · rw [hcalls]
    constructor
    · intro key hk
      rw [Notification.getElem?_carry] at hk
      rw [ObjectEvent.latest?_concat, hkey]
      split at hk
      · next he => rw [if_pos he, hstate, hk, Option.bind_none]
      · next he => rw [if_neg he, h.gone key hk]
    · intro key o x hk ho
      rw [Notification.getElem?_carry] at hk
      rw [ObjectEvent.latest?_concat, hkey]
      split at hk
      · next he => simp [if_pos he, hstate, hk, ho, Except.toOption]
      · next he => rw [if_neg he, h.current key o x hk ho]
  · -- no event, and nothing is asked about the key: its state does not decode
    rw [hcalls, List.append_nil]
    constructor
    · intro key hk
      rw [Notification.getElem?_carry, hbad] at hk
      split at hk
      · cases hk
      · exact h.gone key hk
    · intro key o x hk ho
      rw [Notification.getElem?_carry, hbad] at hk
      split at hk
      · obtain rfl : bad = o := Option.some.inj hk
        rw [hx] at ho
        cases ho
      · exact h.current key o x hk ho

/-- The events for a history are in step with the contents that it leads to. -/
theorem Mirrors.history {held : Contents} {events : List (ObjectEvent α)} (h : Mirrors held events)
    {ns : List Notification} (hns : Notification.History held ns) (name : String) :
    Mirrors (Notification.carryAll held ns) (events ++ calls α name ns) := by
  induction ns generalizing held events with
  | nil => simpa [calls] using h
  | cons n ns ih =>
    have hrest := ih (h.step hns.1 name) hns.2
    rwa [List.append_assoc, ← calls_append] at hrest

/-- The old state of an update event is the state that the last event about its key told of. -/
theorem latest?_of_update {ns : List Notification} (hns : Notification.History ∅ ns) {name : String}
    {seen rest : List (ObjectEvent α)} {mOld mNew : Metadata} {old new : α}
    (h : calls α name ns = seen ++ .update mOld old mNew new :: rest) :
    latest? seen mNew.key = some (mOld, old) := by
  obtain ⟨before, later, rfl, hseen, hlater⟩ := List.filterMap_eq_append_iff.1 h
  obtain ⟨dropped, n, after, rfl, hdropped, hn, -⟩ := List.filterMap_eq_cons_iff.1 hlater
  -- the calls before the update are those for the notifications before its own
  have hcalls : calls α name (before ++ dropped) = seen := by
    rw [calls_append, ← hseen, calls, calls, List.filterMap_eq_nil_iff.2 hdropped, List.append_nil]
  have hof : interpret α name n = .ok (.update mOld old mNew new) := by
    rcases hi : interpret α name n with report | e
    · rw [hi] at hn
      cases hn
    · rw [hi] at hn
      exact congrArg Except.ok (Option.some.inj hn)
  obtain ⟨was, is, rfl, hwas, rfl, rfl⟩ :=
    ObjectEvent.update_of_ofNotification (interpret_eq_ok_iff.1 hof)
  rw [← List.append_assoc] at hns
  obtain ⟨hbefore, ⟨hheld, -⟩, -⟩ := Notification.history_append.1 hns
  have hmirrors := (mirrors_empty α).history hbefore name
  rw [List.nil_append, hcalls] at hmirrors
  exact hmirrors.current is.key was old hheld hwas

/-- **Typed events follow the store, through states that do not decode too.** Over every run of the
entry of a known kind before the stop signal, and for every source started at any point of it:

* each notification that its callback is given makes one call of the handler and no report, or no
  call and one report with the name of the source;
* an update event carries as old state what the last event about its key told of, which was no
  deletion;
* when nothing waits for the callback, the objects by key that the handler builds have no key that
  the store lacks, and under each key whose state decodes they hold just the decoded object. -/
theorem events_follow_store (k : Known) (backlog? : Option Nat) (before after : List Entry.Action)
    (name : String) :
    let id := (Entry.actAll (Entry.blank k.kind backlog?) before).nextCallback
    let s := Entry.actAll (Entry.blank k.kind backlog?) (before ++ .register name :: after)
    let events := calls k.Carrier name (s.handedTo id)
    (∀ n ∈ s.handedTo id,
      (∃ e, calls k.Carrier name [n] = [e] ∧ reports k.Carrier name [n] = []) ∨
        ∃ cause, calls k.Carrier name [n] = [] ∧
          reports k.Carrier name [n] = [.notificationDropped k.kind name n.key cause]) ∧
    (∀ seen mOld old mNew new rest, events = seen ++ .update mOld old mNew new :: rest →
      latest? seen mNew.key = some (mOld, old)) ∧
    (s.state.callbacks.queueOf id = [] → ∀ key,
      (s.state.store.get? key = none → (viewOf events)[key]? = none) ∧
        ∀ o x, s.state.store.get? key = some o → o.decode k.Carrier = .ok x →
          (viewOf events)[key]? = some x) := by
  intro id s events
  have hleads : Notification.Leads ∅ (s.handedTo id ++ s.state.callbacks.queueOf id)
      s.state.store.objects := Entry.leads_sequence k.kind backlog? before after name
  have hhistory : Notification.History ∅ (s.handedTo id) :=
    (Notification.history_append.1 hleads.history).1
  refine ⟨fun n _ ↦ calls_reports name n, ?_, ?_⟩
  · intro seen mOld old mNew new rest hevents
    exact latest?_of_update hhistory hevents
  · intro hdrained key
    have hmirrors := (mirrors_empty k.Carrier).history hhistory name
    rw [hdrained, List.append_nil] at hleads
    rw [hleads.carryAll_eq, List.nil_append] at hmirrors
    rw [ObjectEvent.getElem?_viewOf]
    constructor
    · intro hgone
      rw [hmirrors.gone key hgone, Option.map_none]
    · intro o x ho hx
      rw [hmirrors.current key o x ho hx, Option.map_some]

/-- A widget whose specification does not decode. -/
def malformedWidget : Object where
  payload := .object [("metadata", .object [("name", .string "a")]), ("spec", .string "large")]
  metadata := { name := "a" }
  identified := rfl

/-- The same widget with a specification that does. -/
def repairedWidget : Object where
  payload := .object [("metadata", .object [("name", .string "a")]),
    ("spec", .object [("size", .integer 2)])]
  metadata := { name := "a" }
  identified := rfl

/-- A widget that appears in a state that does not decode and is then repaired: the first state is
reported, and the handler has the second in the end. -/
theorem events_follow_repair :
    let s := Entry.actAll (Entry.blank Known.widget.kind none) [.register "view",
      .apply (.upsert malformedWidget), .advance 1, .complete 1 .returned,
      .apply (.upsert repairedWidget), .advance 1]
    s.state.callbacks.queueOf 1 = [] ∧ reports Widget "view" (s.handedTo 1) ≠ [] ∧
      (viewOf (calls Known.widget.Carrier "view" (s.handedTo 1)))[repairedWidget.key]? =
        some ⟨{ name := "a" }, ⟨2⟩⟩ :=
  ⟨rfl, by decide,
    ((events_follow_store .widget none [] _ "view").2.2 rfl _).2 repairedWidget _ rfl rfl⟩

end Source

end Informer
