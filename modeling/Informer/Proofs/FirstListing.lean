import Mathlib.Data.List.Nodup
import Informer.Proofs.LookupRun
import Informer.Proofs.ReflectorLog

/-!
# The first listing of an entry

An entry has a flag that tells whether its first listing has been applied. Most steps leave it as
it is; a step in which the loop takes in a listing replaces the store and sets the flag, and reports
that if the flag was not set before (`Entry.Hears`, `Entry.news_react`). Before that nothing is
held, since a loop opens no watch before it has listed (`Entry.Primed`).

`entryStep_act` says what an action does to the entry of a kind, and `published_act` what is
reported of first listings. `Announced` is what follows for a run, by the listings that its loops
took in: the flag of a kind is set when there is one of them for the kind, and each kind is reported
once, with its first one.
-/

namespace Informer

open Effect (Publishes)

/-- The report of the first listing of a kind, by the number of its payloads that are objects. -/
def RuntimeEvent.firstListing (kind : Kind) (l : Listing) : RuntimeEvent :=
  .cacheSynced kind (Signal.objects l.payloads).length

/-! ### Entries -/

namespace Entry

/-- Before the first listing nothing is held, and no watch is opened. -/
def Primed (e : Entry) : Prop :=
  e.synced = false → e.store = {} ∧ e.reflector ≠ .opening ∧ e.reflector.stream? = none

theorem primed_empty (kind : Kind) (backlog? : Option Nat) : (empty kind backlog?).Primed :=
  fun _ ↦ ⟨rfl, nofun, rfl⟩

/-- A step of an entry, in which its loop takes in the listing that there is. -/
structure Hears (listing? : Option Listing) (e e' : Entry) : Prop where
  kind : e'.kind = e.kind
  synced : e'.synced = (e.synced || listing?.isSome)
  store : ∀ l, listing? = some l → e'.store = (e.store.replace (Signal.objects l.payloads)).1
  primed : e.Primed → e'.Primed

variable {e e' : Entry}

/-- A step that leaves the store and the flag as they are and opens no watch. -/
theorem hears_none (hkind : e'.kind = e.kind) (hstore : e'.store = e.store)
    (hsynced : e'.synced = e.synced) (hreflector : e'.reflector = e.reflector ∨
      e'.reflector ≠ .opening ∧ e'.reflector.stream? = none) : Hears none e e' where
  kind := hkind
  synced := by rw [hsynced, Option.isSome_none, Bool.or_false]
  store := nofun
  primed h hs := by
    obtain ⟨hempty, hwatch⟩ := h (hsynced ▸ hs)
    refine ⟨hstore.trans hempty, ?_⟩
    obtain hr | hr := hreflector
    · rw [hr]
      exact hwatch
    · exact hr

/-- A step of a loop that opens or reads a watch, and so has taken in a listing before. -/
theorem hears_of_watching (hwatch : e.reflector = .opening ∨ e.reflector.stream? ≠ none)
    (hkind : e'.kind = e.kind) (hsynced : e'.synced = e.synced) : Hears none e e' where
  kind := hkind
  synced := by rw [hsynced, Option.isSome_none, Bool.or_false]
  store := nofun
  primed h hs := by
    obtain ⟨-, hopening, hstream⟩ := h (hsynced ▸ hs)
    obtain hr | hr := hwatch
    · exact absurd hr hopening
    · exact absurd hstream hr

theorem hears_refl (e : Entry) : Hears none e e := hears_none rfl rfl rfl (.inl rfl)

theorem Hears.trans {e'' : Entry} (h : Hears none e e') (k : Hears none e' e'') :
    Hears none e e'' where
  kind := k.kind.trans h.kind
  synced := by simp [k.synced, h.synced]
  store := nofun
  primed hp := k.primed (h.primed hp)

theorem hears_endReflector (e : Entry) : Hears none e e.endReflector.1 :=
  hears_none rfl rfl rfl (.inr ⟨nofun, rfl⟩)

theorem hears_takeListing (e : Entry) (l : Listing) : Hears (some l) e (e.takeListing l).1 where
  kind := rfl
  synced := (Bool.or_true _).symm
  store l' h := by
    cases h
    rw [takeListing, readPayloads_eq]
    rfl
  primed _ hs := by cases hs

theorem hears_takeMutation (hwatch : e.reflector.stream? ≠ none) (m : Mutation) :
    Hears none e (e.takeMutation m).1 := by
  rw [takeMutation]
  split
  · exact hears_of_watching (.inr hwatch) rfl rfl
  · exact hears_refl e

/-- **What a step of the loop means for the flag and the store.** -/
theorem hears_react (e : Entry) (pace : Pace) (now : Nat) (signal : Signal) :
    Hears (e.listed? signal) e (e.react pace now signal).1 := by
  rcases hl : e.listed? signal with - | l
  · have hcall : ∀ reflector : Reflector, reflector ≠ .opening → reflector.stream? = none →
        Hears none e { e with reflector } :=
      fun _ hopening hstream ↦ hears_none rfl rfl rfl (.inr ⟨hopening, hstream⟩)
    unfold react
    split
    · exact hears_refl e
    · exact e.hears_endReflector
    · exact hcall _ (by simp) rfl
    · exact hcall _ (by simp) rfl
    · next hr => simp [listed?, hr] at hl
    · exact hcall _ (by simp) rfl
    · next hr => exact hears_of_watching (.inl hr) rfl rfl
    · exact hcall _ (by simp) rfl
    · next hr => exact hears_takeMutation (by simp [hr, Reflector.stream?]) _
    · exact hcall _ (by simp) rfl
    · exact hcall _ (by simp) rfl
    · next hr =>
      split
      · exact hears_of_watching (.inr (by simp [hr, Reflector.stream?])) rfl rfl
      · exact hears_refl e
    · exact hears_refl e
  · rw [(e.react_of_listed hl pace now).2.2]
    exact e.hears_takeListing l

/-- **What a step of the loop reports of the first listing**: that it was this one, if it was. -/
theorem news_react (e : Entry) (pace : Pace) (now : Nat) (signal : Signal) :
    (Effect.events (e.react pace now signal).2).filter ([Topic.cacheSynced].contains ·.topic) =
      if e.synced then [] else ((e.listed? signal).map (.firstListing e.kind)).toList := by
  rcases hl : e.listed? signal with - | l
  · rw [(e.publishes_react_of_not_listed hl pace now).filter_contains_eq_nil _ (by decide)]
    split <;> rfl
  · have hevents : (e.takeListing l).2 = (readPayloads e.kind l.payloads).2 ++
        (e.replace (Signal.objects l.payloads)).2 ++
        (if e.synced then [] else [.publish (.firstListing e.kind l)]) ++
        [.call e.kind (.watch l.version?)] := by
      rw [takeListing, readPayloads_eq]
      rfl
    have hdrops := (publishes_readPayloads e.kind l.payloads).filter_contains_eq_nil
      [.cacheSynced] (by decide)
    have hqueued : (Effect.events (e.replace (Signal.objects l.payloads)).2).filter
        ([Topic.cacheSynced].contains ·.topic) = [] :=
      (e.publishes_report _ _).filter_contains_eq_nil _ (by decide)
    rw [(e.react_of_listed hl pace now).2.2, hevents]
    simp only [Effect.events_append, List.filter_append, hdrops, hqueued, List.nil_append]
    cases e.synced <;> rfl

end Entry

/-! ### Caches -/

namespace Cache

variable {c c' : Cache}

/-- A step of a cache in which no loop takes in a listing. -/
def Rests (c c' : Cache) : Prop :=
  ∀ kind : Kind, Option.Rel (Entry.Hears none) c.entries[kind]? c'.entries[kind]?

theorem rests_of_entries_eq (h : c'.entries = c.entries) : c.Rests c' := fun kind ↦ by
  rw [h]
  cases c.entries[kind]? with
  | none => exact .none
  | some e => exact .some e.hears_refl

theorem Rests.trans {c'' : Cache} (h : c.Rests c') (k : c'.Rests c'') : c.Rests c'' :=
  fun kind ↦ by
    have hfirst := h kind
    have hsecond := k kind
    generalize c.entries[kind]? = e?, c'.entries[kind]? = e'?, c''.entries[kind]? = e''?
      at hfirst hsecond
    cases hfirst with
    | none => exact hsecond
    | some hears =>
      cases hsecond with
      | some hears' => exact .some (hears.trans hears')

theorem getElem?_onEntry (c : Cache) (kind : Kind) (step : Entry → Entry × List Effect)
    (k : Kind) : (c.onEntry kind step).1.entries[k]? =
      (c.entries[k]?).map fun e ↦ if kind = k then (step e).1 else e := by
  rw [onEntry]
  rcases he : c.entries[kind]? with - | e
  · by_cases hk : kind = k
    · subst hk
      simp [he]
    · simp [hk]
  · show (c.entries.insert kind (step e).1)[k]? = _
    rw [Kind.getElem?_insert]
    by_cases hk : kind = k
    · subst hk
      simp [he]
    · simp [hk]

theorem rests_onEntry (c : Cache) (kind : Kind) {step : Entry → Entry × List Effect}
    (h : ∀ e : Entry, Entry.Hears none e (step e).1) : c.Rests (c.onEntry kind step).1 :=
  fun k ↦ by
    rw [getElem?_onEntry]
    cases c.entries[k]? with
    | none => exact .none
    | some e =>
      refine .some ?_
      split
      · exact h e
      · exact e.hears_refl

theorem rests_register (c : Cache) (kind : Kind) (name : String) :
    c.Rests (c.register kind name).1 :=
  rests_onEntry { c with nextCallback := c.nextCallback + 1 } kind
    fun _ ↦ Entry.hears_none rfl rfl rfl (.inl rfl)

theorem rests_advanceWorker (c : Cache) (kind : Kind) (id : Nat) :
    c.Rests (c.advanceWorker kind id).1 := by
  rw [advanceWorker_eq]
  exact c.rests_onEntry kind fun _ ↦ Entry.hears_none rfl rfl rfl (.inl rfl)

theorem rests_completeWorker (c : Cache) (kind : Kind) (id : Nat) (outcome : Outcome) :
    c.Rests (c.completeWorker kind id outcome).1 :=
  c.rests_onEntry kind fun _ ↦ Entry.hears_none rfl rfl rfl (.inl rfl)

theorem rests_abort (c : Cache) (task : Task) : c.Rests (c.abort task).1 := by
  cases task with
  | reflector kind => exact c.rests_onEntry kind Entry.hears_endReflector
  | worker kind id =>
    exact c.rests_onEntry kind fun _ ↦ Entry.hears_none rfl rfl rfl (.inl rfl)
  | _ => exact rests_of_entries_eq rfl

theorem rests_abortAll (c : Cache) (tasks : List Task) : c.Rests (c.abortAll tasks).1 := by
  induction tasks generalizing c with
  | nil => exact rests_of_entries_eq rfl
  | cons task rest ih => exact (c.rests_abort task).trans (ih (c.abort task).1)

theorem rests_callShutdown (c : Cache) : c.Rests c.callShutdown.1.1 := by
  obtain ⟨bus, shutdown, h⟩ := c.callShutdown_frame
  rw [h]
  exact rests_of_entries_eq rfl

theorem rests_continueShutdown (c : Cache) (graceOver : Bool) :
    c.Rests (c.continueShutdown graceOver).1 := by
  obtain ⟨tasks, bus, shutdown, released, h⟩ := c.continueShutdown_frame graceOver
  rw [h]
  exact (c.rests_abortAll tasks).trans (rests_of_entries_eq rfl)

end Cache

/-! ### Actions -/

namespace Traffic

variable {w w' : Traffic} {kind : Kind}

/-- The entry of a kind, in the map or on its way there. -/
def entryOf? (w : Traffic) (kind : Kind) : Option Entry :=
  match w.draft? with
  | some d => if d.kind = kind then some d.entry else w.cache.entries[kind]?
  | none => w.cache.entries[kind]?

theorem entryOf?_of_none (hd : w.draft? = none) (kind : Kind) :
    w.entryOf? kind = w.cache.entries[kind]? := by
  rw [entryOf?, hd]

theorem entryOf?_of_draft {d : Draft} (hd : w.draft? = some d) (kind : Kind) :
    w.entryOf? kind = if d.kind = kind then some d.entry else w.cache.entries[kind]? := by
  rw [entryOf?, hd]

/-- Whether the first listing of a kind has been applied. -/
def synced (w : Traffic) (kind : Kind) : Bool := (w.entryOf? kind).any (·.synced)

/-- The listing that a loop takes in with an action. -/
def listed? (w : Traffic) : Action → Option (Kind × Listing)
  | .react kind _ signal => (w.entryOf? kind).bind fun e ↦ (e.listed? signal).map (kind, ·)
  | _ => none

/-- The listing that the loop of a kind takes in with an action. -/
def listing? (w : Traffic) (a : Action) (kind : Kind) : Option Listing :=
  ((w.listed? a).filter (·.1 = kind)).map (·.2)

theorem listing?_eq_some {a : Action} {l : Listing} :
    w.listing? a kind = some l ↔ w.listed? a = some (kind, l) := by
  rw [listing?, Option.map_eq_some_iff]
  constructor
  · rintro ⟨⟨k, l'⟩, hx, rfl⟩
    obtain ⟨hlisted, hk⟩ := Option.filter_eq_some_iff.1 hx
    obtain rfl : k = kind := of_decide_eq_true hk
    exact hlisted
  · intro h
    exact ⟨(kind, l), Option.filter_eq_some_iff.2 ⟨h, decide_eq_true rfl⟩, rfl⟩

/-- Only the answer to a list call is one. -/
theorem react_of_listed {a : Action} {x : Kind × Listing} (h : w.listed? a = some x) :
    ∃ now, a = .react x.1 now (.listed (.ok x.2)) := by
  cases a with
  | react k now signal =>
    obtain ⟨e, -, hx⟩ := Option.bind_eq_some_iff.1 h
    obtain ⟨l, hl, rfl⟩ := Option.map_eq_some_iff.1 hx
    exact ⟨now, by rw [(e.react_of_listed hl ⟨0, none⟩ now).1]⟩
  | _ => cases h

/-- What becomes of the entry of a kind in a step, in which its loop takes in the listing that there
is. -/
inductive EntryStep (kind : Kind) : Option Listing → Option Entry → Option Entry → Prop where
  | absent : EntryStep kind none none none
  | opens (backlog? : Option Nat) : EntryStep kind none none (some (.empty kind backlog?))
  | goesOn {listing? : Option Listing} {e e' : Entry} (h : Entry.Hears listing? e e') :
    EntryStep kind listing? (some e) (some e')

theorem entryStep_refl (kind : Kind) (e? : Option Entry) : EntryStep kind none e? e? := by
  cases e? with
  | none => exact .absent
  | some e => exact .goesOn e.hears_refl

/-- A step in which no loop takes in a listing. -/
structure Rests (w w' : Traffic) : Prop where
  entries : ∀ kind, EntryStep kind none (w.entryOf? kind) (w'.entryOf? kind)
  published : w'.published [.cacheSynced] = w.published [.cacheSynced]

theorem rests_of_cache {effects : List Effect} {topics : List Topic}
    (hdraft : w'.draft? = w.draft?) (hcache : w.cache.Rests w'.cache)
    (hevents : w'.events = w.events ++ Effect.events effects) (hp : Publishes topics effects)
    (ht : .cacheSynced ∉ topics) : w.Rests w' where
  entries kind := by
    have hmap : EntryStep kind none w.cache.entries[kind]? w'.cache.entries[kind]? := by
      have hrel := hcache kind
      generalize w.cache.entries[kind]? = e?, w'.cache.entries[kind]? = e'? at hrel
      cases hrel with
      | none => exact .absent
      | some h => exact .goesOn h
    rcases hd : w.draft? with - | d
    · rw [entryOf?_of_none hd, entryOf?_of_none (hdraft.trans hd)]
      exact hmap
    · rw [entryOf?_of_draft hd, entryOf?_of_draft (hdraft.trans hd)]
      split
      · exact entryStep_refl kind _
      · exact hmap
  published := by
    rw [published_append hevents, hp.filter_contains_eq_nil _ (by simpa using ht), List.append_nil]

/-- A step that publishes nothing. -/
theorem rests_of_silent (hdraft : w'.draft? = w.draft?) (hcache : w.cache.Rests w'.cache)
    (hevents : w'.events = w.events) : w.Rests w' :=
  have hnone : Publishes [] [] := Effect.publishes_nil
  rests_of_cache hdraft hcache (hevents.trans (List.append_nil _).symm) hnone List.not_mem_nil

theorem rests_of_eq (hdraft : w'.draft? = w.draft?) (hcache : w'.cache = w.cache)
    (hevents : w'.events = w.events) : w.Rests w' :=
  rests_of_silent hdraft (hcache ▸ Cache.rests_of_entries_eq rfl) hevents

theorem rests_take {result : Cache × List Effect} {topics : List Topic}
    (h : w.cache.Rests result.1) (hp : Publishes topics result.2) (ht : .cacheSynced ∉ topics) :
    w.Rests (w.take result) :=
  rests_of_cache rfl h rfl hp ht

/-- A call creates an entry. -/
theorem rests_create (w : Traffic) (i : Nat) {q : Inquiry} (hd : w.draft? = none)
    (hk : q.kind ∉ w.cache.entries) : w.Rests (w.create i q) where
  entries kind := by
    rw [entryOf?_of_none hd, entryOf?_of_draft (w := w.create i q) rfl]
    split
    · next h =>
      subst h
      rw [Std.ExtTreeMap.getElem?_eq_none hk]
      exact .opens _
    · exact entryStep_refl kind _
  published := rfl

/-- A call puts the entry that it created into the map. -/
theorem rests_enter (w : Traffic) {d : Draft} (q : Inquiry) (hd : w.draft? = some d) :
    w.Rests (w.enter d q) where
  entries kind := by
    have hmap : (w.enter d q).cache.entries[kind]? = w.entryOf? kind :=
      (Kind.getElem?_insert _ _ _ kind).trans (entryOf?_of_draft hd kind).symm
    rw [entryOf?_of_none (w := w.enter d q) rfl, hmap]
    exact entryStep_refl kind _
  published := by
    have hevents : (w.enter d q).events = w.events ++ [.watchStarted d.kind] := rfl
    rw [published_append hevents]
    exact List.append_nil _

theorem rests_proceed (w : Traffic) (i : Nat) (q : Inquiry) : w.Rests (w.proceed i q) := by
  obtain h | ⟨d, hd, -, h⟩ | ⟨-, hd, hk, -, h⟩ | ⟨-, hmay, h⟩ := w.proceed_cases i q
  · rw [h]
    exact rests_of_eq rfl rfl rfl
  · rw [h]
    exact w.rests_enter q hd
  · rw [h]
    exact w.rests_create i hd hk
  · rw [h, w.look_of_may i hmay]
    exact rests_of_eq rfl rfl rfl

/-- Whether a loop takes something in. -/
def Action.isReact : Action → Bool
  | .react _ _ _ => true
  | _ => false

theorem rests_act {a : Action} (ha : a.isReact = false) : w.Rests (w.act a) := by
  cases a with
  | react kind now signal => cases ha
  | inquire kind => exact rests_of_eq rfl rfl rfl
  | proceed i =>
    rw [act]
    split
    · exact w.rests_proceed i _
    · exact rests_of_eq rfl rfl rfl
  | register kind name =>
    exact rests_take (w.cache.rests_register kind name) (w.cache.publishes_register kind name)
      (by decide)
  | advance kind id =>
    exact rests_of_silent rfl (w.cache.rests_advanceWorker kind id) rfl
  | complete kind id outcome =>
    exact rests_take (w.cache.rests_completeWorker kind id outcome)
      (w.cache.publishes_completeWorker kind id outcome) (by decide)
  | announce kind source =>
    have hp : Publishes [.sourceStarted] [.publish (.sourceStarted kind source)] :=
      Effect.publishes_publish.2 ⟨List.mem_singleton_self _, Effect.publishes_nil⟩
    exact rests_take (Cache.rests_of_entries_eq rfl) hp (by decide)
  | drop kind source key reason =>
    have hp : Publishes [.notificationDropped]
        [.publish (.notificationDropped kind source key reason)] :=
      Effect.publishes_publish.2 ⟨List.mem_singleton_self _, Effect.publishes_nil⟩
    exact rests_take (Cache.rests_of_entries_eq rfl) hp (by decide)
  | forward =>
    obtain ⟨result, asking, h, ⟨bus, subscribers, forwarder, hresult⟩, hp⟩ := w.forward_cases
    have hcache : w.cache.Rests result.1 := by
      rw [hresult]
      exact Cache.rests_of_entries_eq rfl
    show w.Rests w.forward
    rw [h]
    exact rests_of_cache rfl hcache rfl hp (by decide)
  | advanceSubscriber i =>
    exact rests_of_silent rfl (Cache.rests_of_entries_eq rfl) rfl
  | completeSubscriber i outcome =>
    exact rests_take (Cache.rests_of_entries_eq rfl)
      (w.cache.subscribers.publishes_complete i outcome) (by decide)
  | shutdown =>
    exact rests_of_cache rfl w.cache.rests_callShutdown rfl w.cache.publishes_callShutdown
      (by decide)
  | goOn graceOver =>
    simp only [act, goOn]
    split
    · exact rests_of_eq rfl rfl rfl
    · exact rests_take (w.cache.rests_continueShutdown graceOver)
        (w.cache.publishes_continueShutdown graceOver) (by decide)

theorem entryOf?_react (w : Traffic) (kind : Kind) (now : Nat) (signal : Signal) (k : Kind) :
    (w.react kind now signal).entryOf? k = (w.entryOf? k).map fun e ↦
      if kind = k then (e.react w.cache.pace now signal).1 else e := by
  have hmap := w.cache.getElem?_onEntry kind (·.react w.cache.pace now signal) k
  obtain ⟨hother, h⟩ | ⟨d, hd, rfl, h⟩ := w.react_cases kind now signal
  · rw [h]
    rcases hd : w.draft? with - | d
    · rw [entryOf?_of_none hd, entryOf?_of_none (w := w.take _) hd]
      exact hmap
    · rw [entryOf?_of_draft hd, entryOf?_of_draft (w := w.take _) hd]
      split
      · next hk => simp [show kind ≠ k from fun hkind ↦ hother d hd (hk.trans hkind.symm)]
      · exact hmap
  · rw [h, entryOf?_of_draft hd, entryOf?_of_draft rfl]
    dsimp only
    split
    · simp
    · show w.cache.entries[k]? = _
      simp

theorem events_react (w : Traffic) (kind : Kind) (now : Nat) (signal : Signal) :
    (w.react kind now signal).events = w.events ++ (w.entryOf? kind).elim []
      fun e ↦ Effect.events (e.react w.cache.pace now signal).2 := by
  obtain ⟨hother, h⟩ | ⟨d, hd, rfl, h⟩ := w.react_cases kind now signal
  · have hentry : w.entryOf? kind = w.cache.entries[kind]? := by
      rcases hd : w.draft? with - | d
      · exact entryOf?_of_none hd kind
      · rw [entryOf?_of_draft hd, if_neg (hother d hd)]
    rw [h, hentry]
    show w.events ++ Effect.events (w.cache.react kind now signal).2 = _
    rw [Cache.react, Cache.onEntry]
    cases w.cache.entries[kind]? <;> rfl
  · rw [h, entryOf?_of_draft hd, if_pos rfl]
    rfl

/-- **What becomes of the entry of a kind with an action.** -/
theorem entryStep_act (w : Traffic) (a : Action) (kind : Kind) :
    EntryStep kind (w.listing? a kind) (w.entryOf? kind) ((w.act a).entryOf? kind) := by
  cases ha : a.isReact with
  | false =>
    have hnone : w.listed? a = none := by
      cases a <;> first | rfl | cases ha
    rw [listing?, hnone]
    exact (rests_act ha).entries kind
  | true =>
    cases a with
    | react k now signal =>
      have hentry : (w.act (.react k now signal)).entryOf? kind = _ :=
        w.entryOf?_react k now signal kind
      rw [hentry]
      by_cases hk : k = kind
      · subst hk
        rcases he : w.entryOf? k with - | e
        · simp only [listing?, listed?, he]
          exact .absent
        · have hlisting : (((e.listed? signal).map (k, ·)).filter (·.1 = k)).map (·.2) =
              e.listed? signal := by
            cases e.listed? signal <;> simp
          simp only [listing?, listed?, he, Option.bind_some, Option.map_some, if_true, hlisting]
          exact .goesOn (e.hears_react _ _ _)
      · have hnone : w.listing? (.react k now signal) kind = none := by
          refine Option.eq_none_iff_forall_ne_some.2 fun l hl ↦ hk ?_
          obtain ⟨_, heq⟩ := react_of_listed (listing?_eq_some.1 hl)
          cases heq
          rfl
        rw [hnone]
        simp only [if_neg hk, Option.map_id']
        exact entryStep_refl kind _
    | _ => cases ha

/-! ### The flag and the reports -/

theorem EntryStep.synced {listing? : Option Listing} {e? e'? : Option Entry}
    (h : EntryStep kind listing? e? e'?) :
    e'?.any (·.synced) = (e?.any (·.synced) || listing?.isSome) := by
  cases h with
  | absent => rfl
  | opens backlog? => rfl
  | goesOn hears => exact hears.synced

/-- The flag is set by the listings that the loop takes in, and by nothing else. -/
theorem synced_act (w : Traffic) (a : Action) (kind : Kind) :
    (w.act a).synced kind = (w.synced kind || (w.listing? a kind).isSome) :=
  (w.entryStep_act a kind).synced

/-- Every entry is the entry of its kind, and holds nothing before its first listing. -/
def Primed (w : Traffic) : Prop :=
  ∀ kind e, w.entryOf? kind = some e → e.kind = kind ∧ e.Primed

theorem Primed.act (h : w.Primed) (a : Action) : (w.act a).Primed := by
  intro kind e' he'
  have hstep := w.entryStep_act a kind
  have hold := h kind
  rw [he'] at hstep
  generalize w.entryOf? kind = e?, w.listing? a kind = listing? at hstep hold
  cases hstep with
  | opens backlog? => exact ⟨rfl, Entry.primed_empty kind backlog?⟩
  | goesOn hears =>
    obtain ⟨hkind, hprimed⟩ := hold _ rfl
    exact ⟨hears.kind.trans hkind, hears.primed hprimed⟩

/-- After the first listing an entry holds what was listed. -/
theorem entryOf?_of_listing (h : w.Primed) {a : Action} {l : Listing} (hs : w.synced kind = false)
    (hl : w.listing? a kind = some l) : ∃ e, (w.act a).entryOf? kind = some e ∧ e.synced = true ∧
      e.store = (Store.replace {} (Signal.objects l.payloads)).1 := by
  have hstep := w.entryStep_act a kind
  have hprimed := h kind
  rw [synced] at hs
  rw [hl] at hstep
  generalize w.entryOf? kind = e?, (w.act a).entryOf? kind = e'? at hstep hprimed hs ⊢
  cases hstep with
  | @goesOn _ e e' hears =>
    refine ⟨e', rfl, by simp [hears.synced], ?_⟩
    rw [hears.store l rfl, ((hprimed e rfl).2 hs).1]

/-- **What an action reports of first listings**: the listing that a loop takes in with it, if there
was none before. -/
theorem published_act (h : w.Primed) (a : Action) :
    (w.act a).published [.cacheSynced] = w.published [.cacheSynced] ++
      ((w.listed? a).filter (!w.synced ·.1)).toList.map fun x ↦ .firstListing x.1 x.2 := by
  cases ha : a.isReact with
  | false =>
    have hnone : w.listed? a = none := by
      cases a <;> first | rfl | cases ha
    rw [hnone, (rests_act ha).published]
    exact (List.append_nil _).symm
  | true =>
    cases a with
    | react kind now signal =>
      have hreact : w.act (.react kind now signal) = w.react kind now signal := rfl
      rw [hreact, published_append (w.events_react kind now signal), listed?]
      congr 1
      rcases he : w.entryOf? kind with - | e
      · rfl
      · have hsynced : w.synced kind = e.synced := by rw [synced, he, Option.any_some]
        rw [Option.elim_some, e.news_react, (h kind e he).1, Option.bind_some]
        cases e.listed? signal <;> cases hs : e.synced <;>
          simp [Option.filter_some, hsynced, hs]
    | _ => cases ha

end Traffic

/-! ### Runs -/

/-- Of each kind the first listing, in their order. -/
def firstOfEach (listings : List (Kind × Listing)) : List (Kind × Listing) :=
  listings.foldl (fun firsts x ↦ if x.1 ∈ firsts.map (·.1) then firsts else firsts ++ [x]) []

theorem firstOfEach_concat (listings : List (Kind × Listing)) (x : Kind × Listing) :
    firstOfEach (listings ++ [x]) = if x.1 ∈ (firstOfEach listings).map (·.1) then
      firstOfEach listings else firstOfEach listings ++ [x] := by
  rw [firstOfEach, List.foldl_append]
  rfl

/-- Later listings change nothing. -/
theorem firstOfEach_append (listings more : List (Kind × Listing)) :
    firstOfEach listings <+: firstOfEach (listings ++ more) := by
  induction more using List.reverseRecOn with
  | nil => simp
  | append_singleton more x ih =>
    rw [← List.append_assoc, firstOfEach_concat]
    split
    · exact ih
    · exact ih.trans (List.prefix_append _ _)

theorem mem_firstOfEach {listings : List (Kind × Listing)} {kind : Kind} :
    kind ∈ (firstOfEach listings).map (·.1) ↔ kind ∈ listings.map (·.1) := by
  induction listings using List.reverseRecOn generalizing kind with
  | nil => rfl
  | append_singleton listings x ih =>
    rw [firstOfEach_concat]
    split
    · next hx =>
      rw [ih] at hx ⊢
      simp only [List.map_append, List.mem_append, List.map_singleton, List.mem_singleton]
      exact ⟨.inl, fun h ↦ h.elim id fun heq ↦ heq ▸ hx⟩
    · simp only [List.map_append, List.mem_append, ih]

theorem nodup_firstOfEach (listings : List (Kind × Listing)) :
    ((firstOfEach listings).map (·.1)).Nodup := by
  induction listings using List.reverseRecOn with
  | nil => exact List.nodup_nil
  | append_singleton listings x ih =>
    rw [firstOfEach_concat]
    split
    · exact ih
    · next hx =>
      rw [List.map_append, List.map_singleton, ← List.concat_eq_append]
      exact List.Nodup.concat hx ih

namespace Traffic

variable {w : Traffic} {listings : List (Kind × Listing)}

/-- What the flags and the reports have to do with the listings that were taken in. -/
structure Announced (w : Traffic) (listings : List (Kind × Listing)) : Prop where
  primed : w.Primed
  synced : ∀ kind, w.synced kind = true ↔ kind ∈ listings.map (·.1)
  published : w.published [.cacheSynced] =
    (firstOfEach listings).map fun x ↦ .firstListing x.1 x.2

theorem announced_start (config : Config) (subscribers : Subscribers) :
    (start config subscribers).Announced [] where
  primed kind e he := by
    rw [entryOf?_of_none rfl] at he
    simp [start, Cache.new] at he
  synced kind := by
    have hnone : (start config subscribers).entryOf? kind = none := by
      rw [entryOf?_of_none rfl]
      simp [start, Cache.new]
    simp [Traffic.synced, hnone]
  published := rfl

/-- **A step keeps that**, with the listing that a loop takes in. -/
theorem Announced.act (h : w.Announced listings) (a : Action) :
    (w.act a).Announced (listings ++ (w.listed? a).toList) where
  primed := h.primed.act a
  synced kind := by
    rw [synced_act, Bool.or_eq_true, h.synced, List.map_append, List.mem_append,
      Option.isSome_iff_exists]
    simp only [listing?_eq_some]
    rcases w.listed? a with - | x
    · simp
    · simp [Prod.ext_iff, eq_comm]
  published := by
    rw [published_act h.primed, h.published]
    rcases w.listed? a with - | x
    · simp
    · have hmem := h.synced x.1
      rw [← mem_firstOfEach] at hmem
      rw [Option.toList_some, firstOfEach_concat]
      by_cases hx : w.synced x.1 = true
      · rw [if_pos (hmem.1 hx)]
        simp [Option.filter_some, hx]
      · rw [if_neg (mt hmem.2 hx)]
        simp [Option.filter_some, hx]

end Traffic

end Informer
