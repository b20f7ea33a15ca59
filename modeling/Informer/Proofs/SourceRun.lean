import Mathlib.Data.List.Basic
import Mathlib.Data.List.Nodup
import Mathlib.Data.List.Perm.Basic
import Informer.Source
import Informer.Proofs.Registrations

/-!
# Sources on shared caches

Any number of sources and of caches, with everything that can happen to them in any order: sources
are bound and started, callbacks are registered directly, and the caches make all their other steps,
the calls that shut down among them. Callbacks are numbered across all caches.

The ledger of a run has a line for each registration. `Sound` ties it to the caches, where every
entry holds the callbacks that the ledger says, to the sources, of which each has one line if it is
started and none before, and to the events. Two lemmas say what a call of a source can do
(`bind_cases`, `launch_cases`), and `registers_once` collects what follows.
-/

namespace Informer

/-- What a call that starts a source does: it succeeds just if the source is bound and the cache is
not stopped, and then registers one callback and announces the source. -/
theorem Source.start_cases (s : Source) (c : Cache) :
    (∃ k c' effects, s.phase = .bound k ∧ c.stopped = false ∧
      s.start c = ((c', effects), .ok { s with phase := .started k c.nextCallback }) ∧
      (∀ kind, c'.callbackIds kind =
        if s.kind = kind then c.callbackIds s.kind ++ [c.nextCallback] else c.callbackIds kind) ∧
      c'.nextCallback = c.nextCallback + 1 ∧
      (Effect.events effects).filter (·.topic = .sourceStarted) = [.sourceStarted s.kind s.name]) ∨
    ((∀ k, s.phase = .bound k → c.stopped = true) ∧
      ∃ cause, s.start c = ((c, []), .error cause)) := by
  rcases hphase : s.phase with - | k | ⟨k, id⟩
  · exact .inr ⟨fun _ h ↦ (by cases h), .notBound s.kind, by simp [start, hphase]⟩
  · cases hs : c.stopped with
    | true =>
      refine .inr ⟨fun _ _ ↦ rfl, .cache .stopped, ?_⟩
      simp [start, hphase, Cache.getOrCreate, hs]
    | false =>
      obtain ⟨hanswer, hmem⟩ : (c.getOrCreate s.kind).2 = .ok () ∧
          s.kind ∈ (c.getOrCreate s.kind).1.1.entries := by
        by_cases hk : s.kind ∈ c.entries
        · simp [Cache.getOrCreate, hs, hk]
        · simp [Cache.getOrCreate, hs, hk, Cache.openEntry, Cache.emit]
      have hmute := c.mute_getOrCreate s.kind
      have hcreated := c.publishes_getOrCreate s.kind
      rcases hget : c.getOrCreate s.kind with ⟨⟨c₁, created⟩, answer⟩
      rw [hget] at hanswer hmem hmute hcreated
      obtain rfl : answer = .ok () := hanswer
      have hnumber : c₁.nextCallback = c.nextCallback := hmute.next
      obtain ⟨hids, hnext⟩ := Cache.callbackIds_register hmem s.name
      have hstart : s.start c =
          ((((c₁.register s.kind s.name).1.emit [.publish (.sourceStarted s.kind s.name)]).1,
            created ++ (c₁.register s.kind s.name).2 ++ [.publish (.sourceStarted s.kind s.name)]),
          .ok { s with phase := .started k c.nextCallback }) := by
        simp only [start, hphase, hget, hnumber]
        rfl
      refine .inl ⟨k, _, _, rfl, rfl, hstart, fun kind ↦ ?_, ?_, ?_⟩
      · have hemit : ∀ c' : Cache, (c'.emit [.publish (.sourceStarted s.kind s.name)]).1.callbackIds
            kind = c'.callbackIds kind := fun _ ↦ rfl
        rw [hemit, hids, hnumber, hmute.ids, hmute.ids]
      · rw [← hnumber, ← hnext]
        rfl
      · have hbefore : (Effect.events (created ++ (c₁.register s.kind s.name).2)).filter
            (·.topic = .sourceStarted) = [] := by
          rw [Effect.events_append, List.filter_append, hcreated.filter_eq_nil (by decide),
            (c₁.publishes_register s.kind s.name).filter_eq_nil (by decide), List.append_nil]
        rw [Effect.events_append, List.filter_append, hbefore]
        rfl
  · exact .inr ⟨fun _ h ↦ (by cases h), .alreadyStarted s.kind, by simp [start, hphase]⟩

/-! ### Worlds -/

/-- The registration of a callback: on which entry, under which number, and by which source, if it
was not registered directly. -/
structure Registration where
  cache : Nat
  kind : Kind
  callback : Nat
  source? : Option Nat := none
deriving DecidableEq

/-- Sources with the caches that they share, and the record of what came of driving them. -/
structure World where
  caches : List Cache
  sources : List Source
  /-- The number of the next callback on any cache. -/
  nextCallback : Nat := 1
  registrations : List Registration := []
  /-- The runtime events that were published, each with the number of the cache. -/
  events : List (Nat × RuntimeEvent) := []

namespace World

variable (w : World)

/-- New caches and new sources. -/
def start (settings : List (Config × List (String × Nat))) (sources : List (Known × String)) :
    World where
  caches := settings.map fun (config, subscribers) ↦ .new config (.ofList subscribers)
  sources := sources.map fun (resource, name) ↦ { resource, name }

/-- A cache, as it is for whoever registers next. -/
def cacheOf (k : Nat) : Cache :=
  { w.caches.getD k (.new {} {}) with nextCallback := w.nextCallback }

/-- Takes over a step of a cache and the events that it publishes. -/
def update (k : Nat) (result : Cache × List Effect) : World :=
  { w with
    caches := w.caches.set k result.1
    nextCallback := result.1.nextCallback
    events := w.events ++ (Effect.events result.2).map (k, ·) }

/-- A call that binds a source to a cache, if there are such. -/
def bind (i k : Nat) : World × Option (Except SourceError Unit) :=
  match w.sources[i]?, w.caches[k]? with
  | some s, some _ => match s.bind k with
    | .ok s => ({ w with sources := w.sources.set i s }, some (.ok ()))
    | .error cause => (w, some (.error cause))
  | _, _ => (w, none)

/-- A call that starts a source, if there is such. One without a cache is refused, so it does not
matter which cache stands in. -/
def launch (i : Nat) : World × Option (Except SourceError Unit) :=
  match w.sources[i]? with
  | none => (w, none)
  | some s =>
    let k := s.cache?.getD 0
    match s.start (w.cacheOf k) with
    | (result, .ok s) =>
      ({ w.update k result with
          sources := w.sources.set i s
          registrations := w.registrations ++
            [{ cache := k, kind := s.kind, callback := w.nextCallback, source? := some i }] },
        some (.ok ()))
    | (result, .error cause) => (w.update k result, some (.error cause))

/-- Registers a callback on the entry of a kind, if there is one. -/
def register (k : Nat) (kind : Kind) (name : String) : World :=
  if k < w.caches.length ∧ kind ∈ (w.cacheOf k).entries then
    { w.update k ((w.cacheOf k).register kind name) with
      registrations := w.registrations ++ [{ cache := k, kind, callback := w.nextCallback }] }
  else w

/-- What can happen. -/
inductive Action where
  | bind (source cache : Nat)
  | launch (source : Nat)
  | register (cache : Nat) (kind : Kind) (name : String)
  /-- A cache makes any other step. -/
  | perform (cache : Nat) (step : Cache.Step)

/-- One action. -/
def act : Action → World
  | .bind i k => (w.bind i k).1
  | .launch i => (w.launch i).1
  | .register k kind name => w.register k kind name
  | .perform k step =>
    if k < w.caches.length then w.update k ((w.cacheOf k).perform step) else w

/-- Some actions, one after another. -/
def actAll (actions : List Action) : World := actions.foldl act w

/-- The events that were published on a cache and announce sources. -/
def announcements (k : Nat) : List RuntimeEvent :=
  ((w.events.filter (·.1 = k)).map (·.2)).filter (·.topic = .sourceStarted)

/-- What announces the source that registered a callback. -/
def announcement? (r : Registration) : Option RuntimeEvent :=
  r.source?.bind fun i ↦ (w.sources[i]?).map fun s ↦ .sourceStarted s.kind s.name

/-- The registrations on the entry of a kind. -/
def registeredOn (k : Nat) (kind : Kind) : List Registration :=
  w.registrations.filter fun r ↦ r.cache = k ∧ r.kind = kind

/-! ### What holds at any time -/

/-- The registrations by a source. -/
def registeredBy (i : Nat) : List Registration := w.registrations.filter (·.source? = some i)

/-- What the ledger, the caches, the sources and the events have to do with each other. -/
structure Sound : Prop where
  bound : ∀ (i : Nat) (s : Source) (k : Nat), w.sources[i]? = some s → s.cache? = some k →
    k < w.caches.length
  placed : ∀ r ∈ w.registrations, r.cache < w.caches.length
  fresh : ∀ r ∈ w.registrations, r.callback < w.nextCallback
  distinct : (w.registrations.map (·.callback)).Nodup
  known : ∀ r ∈ w.registrations, ∀ i, r.source? = some i → i < w.sources.length
  /-- An entry holds the callbacks that were registered on it. -/
  held : ∀ k kind, (w.cacheOf k).callbackIds kind = (w.registeredOn k kind).map (·.callback)
  /-- A source that is started has registered once, and no other source has. -/
  owned : ∀ (i : Nat) (s : Source), w.sources[i]? = some s → w.registeredBy i = match s.phase with
    | .started k id => [{ cache := k, kind := s.kind, callback := id, source? := some i }]
    | _ => []
  /-- Sources are announced in the order in which they registered. -/
  announced : ∀ k, w.announcements k =
    (w.registrations.filter (·.cache = k)).filterMap w.announcement?

variable {w} {w' : World}

/-! ### Steps of one cache -/

@[simp] theorem nextCallback_cacheOf (k : Nat) : (w.cacheOf k).nextCallback = w.nextCallback := rfl

theorem cacheOf_update {k : Nat} (hk : k < w.caches.length) (result : Cache × List Effect)
    (other : Nat) : (w.update k result).cacheOf other =
      if k = other then result.1
      else { w.cacheOf other with nextCallback := result.1.nextCallback } := by
  by_cases h : k = other
  · subst h
    simp [cacheOf, update, hk]
  · simp [cacheOf, update, h]

theorem announcements_update (k : Nat) (result : Cache × List Effect) (other : Nat) :
    (w.update k result).announcements other = w.announcements other ++
      if k = other then (Effect.events result.2).filter (·.topic = .sourceStarted) else [] := by
  by_cases h : k = other
  · simp [announcements, update, List.filter_append, List.filter_map, Function.comp_def, h]
  · simp [announcements, update, List.filter_append, List.filter_map, Function.comp_def, h]

/-- Whether nothing has changed. -/
structure Same (w w' : World) : Prop where
  sources : w'.sources = w.sources
  caches : ∀ k, w'.cacheOf k = w.cacheOf k
  size : w'.caches.length = w.caches.length
  nextCallback : w'.nextCallback = w.nextCallback
  registrations : w'.registrations = w.registrations
  events : w'.events = w.events

theorem Same.refl (w : World) : w.Same w := ⟨rfl, fun _ ↦ rfl, rfl, rfl, rfl, rfl⟩

theorem same_update (w : World) (k : Nat) : w.Same (w.update k (w.cacheOf k, [])) := by
  refine ⟨rfl, fun other ↦ ?_, List.length_set, rfl, rfl, List.append_nil _⟩
  by_cases hk : k < w.caches.length
  · rw [cacheOf_update hk]
    split
    · next h => rw [h]
    · rfl
  · have hsame : w.caches.set k (w.cacheOf k) = w.caches :=
      List.set_eq_of_length_le (Nat.le_of_not_lt hk)
    simp only [cacheOf, update] at hsame ⊢
    rw [hsame]

theorem Sound.of_same (h : w.Sound) (hs : w.Same w') : w'.Sound where
  bound i s k hi hk := by
    rw [hs.size]
    exact h.bound i s k (hs.sources ▸ hi) hk
  placed := by rw [hs.registrations, hs.size]; exact h.placed
  fresh := by rw [hs.registrations, hs.nextCallback]; exact h.fresh
  distinct := by rw [hs.registrations]; exact h.distinct
  known := by rw [hs.registrations, hs.sources]; exact h.known
  held k kind := by rw [hs.caches, registeredOn, hs.registrations]; exact h.held k kind
  owned i s hi := by
    rw [registeredBy, hs.registrations]
    exact h.owned i s (hs.sources ▸ hi)
  announced k := by
    have hsources : w'.announcement? = w.announcement? := by
      funext r
      rw [announcement?, announcement?, hs.sources]
    rw [announcements, hs.events, hs.registrations, hsources]
    exact h.announced k

/-- A step that registers nothing. -/
theorem Sound.update (h : w.Sound) {k : Nat} (hk : k < w.caches.length)
    {result : Cache × List Effect} (hmute : (w.cacheOf k).Mute result.1)
    (hquiet : (Effect.events result.2).filter (·.topic = .sourceStarted) = []) :
    (w.update k result).Sound where
  bound i s j hi hj := by
    rw [World.update, List.length_set]
    exact h.bound i s j hi hj
  placed r hr := by
    rw [World.update, List.length_set]
    exact h.placed r hr
  fresh r hr := by
    have hnext : (w.update k result).nextCallback = w.nextCallback := hmute.next
    rw [hnext]
    exact h.fresh r hr
  distinct := h.distinct
  known := h.known
  held other kind := by
    rw [cacheOf_update hk]
    split
    · next heq =>
      subst heq
      exact (hmute.ids kind).trans (h.held k kind)
    · exact h.held other kind
  owned := h.owned
  announced other := by
    rw [announcements_update, hquiet, ite_self, List.append_nil]
    exact h.announced other

/-- An announcement does not depend on the phase of a source. -/
theorem announcement?_congr (h : ∀ i : Nat, (w'.sources[i]?).map (fun s ↦ (s.resource, s.name)) =
    (w.sources[i]?).map fun s ↦ (s.resource, s.name)) : w'.announcement? = w.announcement? := by
  funext r
  cases hr : r.source? with
  | none => simp [announcement?, hr]
  | some i =>
    have hsame := h i
    cases hi : w'.sources[i]? <;> cases hi' : w.sources[i]? <;>
      simp_all [announcement?, Source.kind]

/-- A step that registers one callback, and a line of the ledger for it. -/
theorem Sound.enroll (h : w.Sound) {k : Nat} (hk : k < w.caches.length) {kind : Kind}
    {result : Cache × List Effect} {source? : Option Nat} {sources : List Source}
    (hids : ∀ other, result.1.callbackIds other =
      if kind = other then (w.cacheOf k).callbackIds kind ++ [w.nextCallback]
      else (w.cacheOf k).callbackIds other)
    (hnext : result.1.nextCallback = w.nextCallback + 1)
    (hlength : sources.length = w.sources.length)
    (hnames : ∀ i : Nat, (sources[i]?).map (fun s ↦ (s.resource, s.name)) =
      (w.sources[i]?).map fun s ↦ (s.resource, s.name))
    (hbound : ∀ (i : Nat) (s : Source) (j : Nat), sources[i]? = some s → s.cache? = some j →
      j < w.caches.length)
    (hknown : ∀ i, source? = some i → i < w.sources.length)
    (howned : ∀ (i : Nat) (s : Source), sources[i]? = some s →
      (w.registeredBy i ++ if source? = some i then
        [{ cache := k, kind, callback := w.nextCallback, source? }] else []) =
      match s.phase with
      | .started k id => [{ cache := k, kind := s.kind, callback := id, source? := some i }]
      | _ => [])
    (hevents : (Effect.events result.2).filter (·.topic = .sourceStarted) =
      (w.announcement? { cache := k, kind, callback := w.nextCallback, source? }).toList) :
    { w.update k result with
      sources
      registrations := w.registrations ++
        [{ cache := k, kind, callback := w.nextCallback, source? }] : World }.Sound := by
  obtain ⟨r, hr⟩ : ∃ r : Registration,
      r = { cache := k, kind, callback := w.nextCallback, source? } := ⟨_, rfl⟩
  rw [← hr] at hevents howned ⊢
  have hcache : r.cache = k := by rw [hr]
  have hkind : r.kind = kind := by rw [hr]
  have hcallback : r.callback = w.nextCallback := by rw [hr]
  have hsource : r.source? = source? := by rw [hr]
  have hannounced : { w.update k result with
      sources, registrations := w.registrations ++ [r] : World }.announcement? =
      w.announcement? :=
    announcement?_congr hnames
  refine ⟨fun i s j hi hj ↦ ?_, fun x hx ↦ ?_, fun x hx ↦ ?_, ?_, fun x hx i hi ↦ ?_,
    fun other kind' ↦ ?_, fun i s hi ↦ ?_, fun other ↦ ?_⟩
  · simp only [World.update, List.length_set]
    exact hbound i s j hi hj
  · simp only [World.update, List.length_set]
    rcases List.mem_append.1 hx with hx | hx
    · exact h.placed x hx
    · rwa [List.mem_singleton.1 hx, hcache]
  · show x.callback < result.1.nextCallback
    rw [hnext]
    rcases List.mem_append.1 hx with hx | hx
    · exact Nat.lt_succ_of_lt (h.fresh x hx)
    · rw [List.mem_singleton.1 hx, hcallback]
      exact Nat.lt_succ_self _
  · simp only [List.map_append, List.map_cons, List.map_nil]
    refine List.nodup_append.2 ⟨h.distinct, List.nodup_singleton _, fun id hid id' hid' heq ↦ ?_⟩
    obtain ⟨x, hx, rfl⟩ := List.mem_map.1 hid
    rw [List.mem_singleton.1 hid', hcallback] at heq
    exact Nat.ne_of_lt (h.fresh x hx) heq
  · show i < sources.length
    rw [hlength]
    rcases List.mem_append.1 hx with hx | hx
    · exact h.known x hx i hi
    · rw [List.mem_singleton.1 hx, hsource] at hi
      exact hknown i hi
  · have hledger : { w.update k result with sources, registrations := w.registrations ++ [r] : World
        }.registeredOn other kind' =
        w.registeredOn other kind' ++ if k = other ∧ kind = kind' then [r] else [] := by
      by_cases hon : k = other ∧ kind = kind' <;>
        simp [registeredOn, List.filter_append, hcache, hkind, hon]
    have hcaches : { w.update k result with sources, registrations := w.registrations ++ [r] : World
        }.cacheOf other = (w.update k result).cacheOf other := rfl
    rw [hledger, hcaches, cacheOf_update hk, List.map_append, ← h.held other kind']
    by_cases hother : k = other
    · subst hother
      rw [if_pos rfl, hids]
      by_cases hsame : kind = kind'
      · subst hsame
        simp [hcallback]
      · simp [hsame]
    · rw [if_neg hother, if_neg fun hon ↦ hother hon.1]
      exact (List.append_nil _).symm
  · have hledger : { w.update k result with sources, registrations := w.registrations ++ [r] : World
        }.registeredBy i = w.registeredBy i ++ if source? = some i then [r] else [] := by
      by_cases hby : source? = some i <;>
        simp [registeredBy, List.filter_append, hsource, hby]
    rw [hledger]
    exact howned i s hi
  · have hledger : (w.registrations ++ [r]).filter (·.cache = other) =
        w.registrations.filter (·.cache = other) ++ if k = other then [r] else [] := by
      by_cases hother : k = other <;> simp [List.filter_append, hcache, hother]
    have hevents' : ({ w.update k result with
        sources, registrations := w.registrations ++ [r] } : World).announcements other =
          (w.update k result).announcements other := rfl
    rw [hevents', announcements_update, h.announced other, hevents, hledger, hannounced,
      List.filterMap_append]
    by_cases hother : k = other
    · cases hr' : w.announcement? r <;> simp [hother, hr']
    · simp [hother]

/-! ### Calls and other actions -/

/-- What a call that binds a source does: it succeeds just if the source is not bound yet. -/
theorem bind_cases (w : World) {i k : Nat} {s : Source} (hi : w.sources[i]? = some s)
    (hk : k < w.caches.length) :
    (s.phase = .unbound ∧ w.bind i k =
      ({ w with sources := w.sources.set i { s with phase := .bound k } }, some (.ok ()))) ∨
    (s.phase ≠ .unbound ∧ ∃ cause, w.bind i k = (w, some (.error cause))) := by
  obtain ⟨c, hc⟩ : ∃ c, w.caches[k]? = some c := ⟨_, List.getElem?_eq_getElem hk⟩
  cases hphase : s.phase with
  | unbound => exact .inl ⟨rfl, by simp [bind, hi, hc, Source.bind, hphase]⟩
  | _ => exact .inr ⟨nofun, _, by simp only [bind, hi, hc, Source.bind, hphase]; rfl⟩

/-- What a call that starts a source does: it succeeds just if the source is bound to a cache that
is not stopped. -/
theorem launch_cases (w : World) {i : Nat} {s : Source} (hi : w.sources[i]? = some s) :
    (∃ k, s.phase = .bound k ∧ (w.cacheOf k).stopped = false ∧
      (w.launch i).2 = some (.ok ()) ∧ ∃ c' effects, (w.launch i).1 =
        { w.update k (c', effects) with
          sources := w.sources.set i { s with phase := .started k w.nextCallback }
          registrations := w.registrations ++
            [{ cache := k, kind := s.kind, callback := w.nextCallback, source? := some i }] } ∧
      (∀ kind, c'.callbackIds kind = if s.kind = kind then
        (w.cacheOf k).callbackIds s.kind ++ [w.nextCallback] else (w.cacheOf k).callbackIds kind) ∧
      c'.nextCallback = w.nextCallback + 1 ∧
      (Effect.events effects).filter (·.topic = .sourceStarted) = [.sourceStarted s.kind s.name]) ∨
    ((∀ k, s.phase = .bound k → (w.cacheOf k).stopped = true) ∧
      (∃ cause, (w.launch i).2 = some (.error cause)) ∧ w.Same (w.launch i).1) := by
  rcases s.start_cases (w.cacheOf (s.cache?.getD 0)) with
    ⟨k, c', effects, hphase, hs, hstart, hids, hnext, hevents⟩ | ⟨hstop, cause, hstart⟩
  · have hcache : s.cache?.getD 0 = k := by simp [Source.cache?, hphase]
    rw [hcache] at hstart hs hids hnext
    refine .inl ⟨k, hphase, hs, by simp [launch, hi, hcache, hstart], c', effects, ?_, hids, hnext,
      hevents⟩
    simp [launch, hi, hcache, hstart, Source.kind]
  · refine .inr ⟨fun k hphase ↦ ?_, ⟨cause, by simp [launch, hi, hstart]⟩, ?_⟩
    · have hcache : s.cache?.getD 0 = k := by simp [Source.cache?, hphase]
      exact hcache ▸ hstop k hphase
    · have hlaunch :
          (w.launch i).1 = w.update (s.cache?.getD 0) (w.cacheOf (s.cache?.getD 0), []) := by
        simp [launch, hi, hstart]
      exact hlaunch ▸ same_update w _

/-- A change of the phase of one source. -/
theorem names_set {sources : List Source} {i : Nat} {s : Source} (hi : sources[i]? = some s)
    (phase : SourcePhase) (j : Nat) :
    ((sources.set i { s with phase })[j]?).map (fun s ↦ (s.resource, s.name)) =
      (sources[j]?).map fun s ↦ (s.resource, s.name) := by
  have hlt := (List.getElem?_eq_some_iff.1 hi).1
  by_cases h : i = j
  · subst h
    rw [List.getElem?_set_self hlt, hi]
    rfl
  · rw [List.getElem?_set_ne h]

theorem Sound.bind (h : w.Sound) (i k : Nat) : (w.bind i k).1.Sound := by
  by_cases hk : k < w.caches.length
  · rcases hi : w.sources[i]? with - | s
    · have hsame : w.bind i k = (w, none) := by simp [World.bind, hi]
      rwa [hsame]
    · rcases w.bind_cases hi hk with ⟨hphase, hbind⟩ | ⟨-, cause, hbind⟩ <;> rw [hbind]
      · have hlt := (List.getElem?_eq_some_iff.1 hi).1
        refine { h with
          bound := fun j t k' hj hk' ↦ ?_
          known := fun r hr j hj ↦ by
            rw [List.length_set]
            exact h.known r hr j hj
          owned := fun j t hj ↦ ?_
          announced := fun other ↦ ?_ }
        · by_cases hij : i = j
          · subst hij
            obtain rfl : { s with phase := .bound k } = t := by simpa [hlt] using hj
            obtain rfl : k = k' := by simpa [Source.cache?] using hk'
            exact hk
          · rw [List.getElem?_set_ne hij] at hj
            exact h.bound j t k' hj hk'
        · by_cases hij : i = j
          · subst hij
            obtain rfl : { s with phase := .bound k } = t := by simpa [hlt] using hj
            have hnone := h.owned i s hi
            rw [hphase] at hnone
            exact hnone
          · rw [List.getElem?_set_ne hij] at hj
            exact h.owned j t hj
        · rw [announcement?_congr (names_set hi (.bound k))]
          exact h.announced other
      · exact h
  · have hsame : w.bind i k = (w, none) := by
      have hnone : w.caches[k]? = none := List.getElem?_eq_none (Nat.le_of_not_lt hk)
      cases hi : w.sources[i]? <;> simp [World.bind, hi, hnone]
    rwa [hsame]

theorem Sound.launch (h : w.Sound) (i : Nat) : (w.launch i).1.Sound := by
  rcases hi : w.sources[i]? with - | s
  · have hsame : w.launch i = (w, none) := by simp [World.launch, hi]
    rwa [hsame]
  · rcases w.launch_cases hi with
      ⟨k, hphase, -, -, c', effects, hlaunch, hids, hnext, hevents⟩ | ⟨-, -, hsame⟩
    · have hlt := (List.getElem?_eq_some_iff.1 hi).1
      have hk : k < w.caches.length := h.bound i s k hi (by simp [Source.cache?, hphase])
      have hnone : w.registeredBy i = [] := by
        have howned := h.owned i s hi
        rwa [hphase] at howned
      rw [hlaunch]
      refine h.enroll hk hids hnext List.length_set (names_set hi _) (fun j t k' hj hk' ↦ ?_)
        (fun j hj ↦ Option.some.inj hj ▸ hlt) (fun j t hj ↦ ?_) ?_
      · by_cases hij : i = j
        · subst hij
          obtain rfl := Option.some.inj ((List.getElem?_set_self hlt).symm.trans hj)
          obtain rfl : k = k' := by simpa [Source.cache?] using hk'
          exact hk
        · rw [List.getElem?_set_ne hij] at hj
          exact h.bound j t k' hj hk'
      · by_cases hij : i = j
        · subst hij
          obtain rfl := Option.some.inj ((List.getElem?_set_self hlt).symm.trans hj)
          rw [hnone, if_pos rfl]
          rfl
        · rw [List.getElem?_set_ne hij] at hj
          rw [if_neg fun heq ↦ hij (Option.some.inj heq), List.append_nil]
          exact h.owned j t hj
      · rw [hevents]
        simp [announcement?, hi]
    · exact h.of_same hsame

theorem Sound.register (h : w.Sound) (k : Nat) (kind : Kind) (name : String) :
    (w.register k kind name).Sound := by
  rw [World.register]
  split
  · next hon =>
    obtain ⟨hids, hnext⟩ := Cache.callbackIds_register hon.2 name
    refine h.enroll hon.1 hids hnext rfl (fun _ ↦ rfl) h.bound nofun (fun i s hi ↦ ?_) ?_
    · rw [if_neg nofun, List.append_nil]
      exact h.owned i s hi
    · exact ((w.cacheOf k).publishes_register kind name).filter_eq_nil (by decide)
  · exact h

theorem Sound.act (h : w.Sound) (a : Action) : (w.act a).Sound := by
  cases a with
  | bind i k => exact h.bind i k
  | launch i => exact h.launch i
  | register k kind name => exact h.register k kind name
  | perform k step =>
    rw [World.act]
    split
    · next hk =>
      exact h.update hk ((w.cacheOf k).mute_perform step)
        (((w.cacheOf k).publishes_perform step).filter_eq_nil step.sourceStarted_not_mem_topics)
    · exact h

theorem Sound.actAll (h : w.Sound) (actions : List Action) : (w.actAll actions).Sound := by
  induction actions generalizing w with
  | nil => exact h
  | cons a actions ih => exact ih (h.act a)

theorem sound_start (settings : List (Config × List (String × Nat)))
    (sources : List (Known × String)) : (start settings sources).Sound := by
  have hunbound : ∀ (i : Nat) (s : Source), (start settings sources).sources[i]? = some s →
      s.phase = .unbound := by
    intro i s hi
    obtain ⟨x, -, rfl⟩ := Option.map_eq_some_iff.1 (List.getElem?_map.symm.trans hi)
    rfl
  refine ⟨fun i s k hi hk ↦ ?_, nofun, nofun, List.nodup_nil, nofun, fun k kind ↦ ?_,
    fun i s hi ↦ ?_, fun k ↦ rfl⟩
  · rw [Source.cache?, hunbound i s hi] at hk
    cases hk
  · have hempty : ∀ c ∈ (start settings sources).caches, c.callbackIds kind = [] := by
      intro c hc
      obtain ⟨x, -, rfl⟩ := List.mem_map.1 hc
      simp [Cache.callbackIds, Cache.new]
    show ((start settings sources).caches.getD k (.new {} {})).callbackIds kind = []
    rw [List.getD_eq_getElem?_getD]
    cases hk : (start settings sources).caches[k]? with
    | none => simp [Cache.callbackIds, Cache.new]
    | some c => exact hempty c (List.mem_of_getElem? hk)
  · rw [hunbound i s hi]
    rfl

/-! ### Phases -/

end World

/-- Whether a source has gone on by at most one phase. -/
def Source.Advances (s s' : Source) : Prop :=
  s' = s ∨ (s.phase = .unbound ∧ ∃ k, s' = { s with phase := .bound k }) ∨
    ∃ k id, s.phase = .bound k ∧ s' = { s with phase := .started k id }

/-- Whether a source is started on the entry of a kind. -/
def Source.startedOn (k : Nat) (kind : Kind) (s : Source) : Bool :=
  match s.phase with
  | .started j _ => j = k && s.kind = kind
  | _ => false

namespace World

variable {w : World}

theorem advances_act (a : Action) {i : Nat} {s : Source}
    (hi : w.sources[i]? = some s) : ∃ s', (w.act a).sources[i]? = some s' ∧ s.Advances s' := by
  have hset : ∀ {j : Nat} {t t' : Source}, w.sources[j]? = some t → t.Advances t' →
      ∃ s', (w.sources.set j t')[i]? = some s' ∧ s.Advances s' := by
    intro j t t' hj hadvances
    by_cases hij : j = i
    · subst hij
      obtain rfl := Option.some.inj (hi.symm.trans hj)
      exact ⟨t', List.getElem?_set_self (List.getElem?_eq_some_iff.1 hi).1, hadvances⟩
    · exact ⟨s, (List.getElem?_set_ne hij).trans hi, .inl rfl⟩
  have hstays : ∀ {w' : World}, w'.sources = w.sources →
      ∃ s', w'.sources[i]? = some s' ∧ s.Advances s' := fun hsame ↦ ⟨s, hsame ▸ hi, .inl rfl⟩
  cases a with
  | bind j k =>
    rcases hj : w.sources[j]? with - | t
    · exact hstays (by simp [act, bind, hj])
    · by_cases hk : k < w.caches.length
      · rcases w.bind_cases hj hk with ⟨hphase, hbind⟩ | ⟨-, cause, hbind⟩
        · simp only [act, hbind]
          exact hset hj (.inr (.inl ⟨hphase, k, rfl⟩))
        · exact hstays (by simp [act, hbind])
      · have hnone : w.caches[k]? = none := List.getElem?_eq_none (Nat.le_of_not_lt hk)
        exact hstays (by simp [act, bind, hj, hnone])
  | launch j =>
    rcases hj : w.sources[j]? with - | t
    · exact hstays (by simp [act, launch, hj])
    · rcases w.launch_cases hj with
        ⟨k, hphase, -, -, c', effects, hlaunch, -⟩ | ⟨-, -, hsame⟩
      · simp only [act, hlaunch]
        exact hset hj (.inr (.inr ⟨k, w.nextCallback, hphase, rfl⟩))
      · exact hstays hsame.sources
  | register k kind name =>
    refine hstays ?_
    simp only [act, register]
    split <;> rfl
  | perform k step =>
    refine hstays ?_
    simp only [act]
    split <;> rfl

/-! ### What the ledger says -/

/-- The sources that registered, in the order in which they did. -/
theorem Sound.nodup_sources (h : w.Sound) : (w.registrations.filterMap (·.source?)).Nodup := by
  refine List.nodup_iff_count_le_one.2 fun i ↦ ?_
  have hcount : (w.registrations.filterMap (·.source?)).count i = (w.registeredBy i).length := by
    rw [List.count_filterMap, registeredBy, List.countP_eq_length_filter]
    congr 1
    refine List.filter_congr fun r _ ↦ ?_
    exact Bool.beq_eq_decide_eq _ _
  rw [hcount]
  cases hi : w.sources[i]? with
  | some s =>
    rw [h.owned i s hi]
    split
    · exact Nat.le_refl 1
    · exact Nat.zero_le 1
  | none =>
    have hnone : w.registeredBy i = [] := by
      refine List.filter_eq_nil_iff.2 fun r hr hby ↦ ?_
      have hlt := h.known r hr i (by simpa using hby)
      rw [List.getElem?_eq_getElem hlt] at hi
      cases hi
    rw [hnone]
    exact Nat.zero_le _

/-- A line of the ledger by a source is the one of that source. -/
theorem Sound.mem_by (h : w.Sound) {i : Nat} {r : Registration} :
    (r ∈ w.registrations ∧ r.source? = some i) ↔ ∃ s id, w.sources[i]? = some s ∧
      s.phase = .started r.cache id ∧
      r = { cache := r.cache, kind := s.kind, callback := id, source? := some i } := by
  have hmem : (r ∈ w.registrations ∧ r.source? = some i) ↔ r ∈ w.registeredBy i := by
    simp [registeredBy]
  rw [hmem]
  constructor
  · intro hr
    have hlt := h.known r (List.mem_filter.1 hr).1 i (by simpa using (List.mem_filter.1 hr).2)
    obtain ⟨s, hs⟩ : ∃ s, w.sources[i]? = some s := ⟨_, List.getElem?_eq_getElem hlt⟩
    rw [h.owned i s hs] at hr
    split at hr
    · next k id hphase =>
      obtain rfl := List.mem_singleton.1 hr
      exact ⟨s, id, hs, hphase, rfl⟩
    · cases hr
  · rintro ⟨s, id, hs, hphase, hr⟩
    have howned := h.owned i s hs
    rw [hphase] at howned
    rw [howned, List.mem_singleton]
    exact hr

theorem Sound.mem_sources_of_cache (h : w.Sound) {k i : Nat} :
    i ∈ (w.registrations.filter (·.cache = k)).filterMap (·.source?) ↔
      ∃ s id, w.sources[i]? = some s ∧ s.phase = .started k id := by
  simp only [List.mem_filterMap, List.mem_filter, decide_eq_true_eq]
  constructor
  · rintro ⟨r, ⟨hr, rfl⟩, hi⟩
    obtain ⟨s, id, hs, hphase, -⟩ := h.mem_by.1 ⟨hr, hi⟩
    exact ⟨s, id, hs, hphase⟩
  · rintro ⟨s, id, hs, hphase⟩
    obtain ⟨hr, hi⟩ := (h.mem_by (r := ⟨k, s.kind, id, some i⟩)).2 ⟨s, id, hs, hphase, rfl⟩
    exact ⟨_, ⟨hr, rfl⟩, hi⟩

theorem Sound.mem_sources_of_entry (h : w.Sound) {k i : Nat} {kind : Kind} :
    i ∈ (w.registeredOn k kind).filterMap (·.source?) ↔
      ∃ s, w.sources[i]? = some s ∧ s.startedOn k kind = true := by
  simp only [registeredOn, List.mem_filterMap, List.mem_filter, decide_eq_true_eq]
  constructor
  · rintro ⟨r, ⟨hr, rfl, rfl⟩, hi⟩
    obtain ⟨s, id, hs, hphase, hline⟩ := h.mem_by.1 ⟨hr, hi⟩
    have hkind : s.kind = r.kind := by rw [hline]
    exact ⟨s, hs, by simp [Source.startedOn, hphase, hkind]⟩
  · rintro ⟨s, hs, hon⟩
    cases hphase : s.phase with
    | started j id =>
      obtain ⟨rfl, rfl⟩ : j = k ∧ s.kind = kind := by
        simpa [Source.startedOn, hphase] using hon
      obtain ⟨hr, hi⟩ := (h.mem_by (r := ⟨j, s.kind, id, some i⟩)).2 ⟨s, id, hs, hphase, rfl⟩
      exact ⟨_, ⟨hr, rfl, rfl⟩, hi⟩
    | _ => simp [Source.startedOn, hphase] at hon

/-- Counting sources by number. -/
theorem countP_sources (sources : List Source) (p : Source → Bool) {order : List Nat}
    (hnodup : order.Nodup)
    (hmem : ∀ i : Nat, i ∈ order ↔ ∃ s, sources[i]? = some s ∧ p s = true) :
    order.length = sources.countP p := by
  have hnumbers : ((sources.zipIdx.filter fun x ↦ p x.1).map (·.2)).Nodup := by
    refine List.Sublist.nodup (List.filter_sublist.map _) ?_
    rw [List.zipIdx_map_snd]
    exact List.nodup_range'
  have hperm : order.Perm ((sources.zipIdx.filter fun x ↦ p x.1).map (·.2)) := by
    refine (List.perm_ext_iff_of_nodup hnodup hnumbers).2 fun i ↦ ?_
    rw [hmem]
    simp [List.mem_map, List.mem_filter, List.mk_mem_zipIdx_iff_getElem?]
  rw [hperm.length_eq, List.length_map, ← List.countP_eq_length_filter]
  conv_rhs => rw [← List.zipIdx_map_fst 0 sources, List.countP_map]
  rfl

/-- **An entry has as many callbacks as sources are started on it**, and those that were registered
directly. -/
theorem Sound.length_callbackIds (h : w.Sound) (k : Nat) (kind : Kind) :
    ((w.cacheOf k).callbackIds kind).length = w.sources.countP (·.startedOn k kind) +
      (w.registeredOn k kind).countP (·.source? = none) := by
  have hnodup : ((w.registeredOn k kind).filterMap (·.source?)).Nodup :=
    h.nodup_sources.sublist (List.filter_sublist.filterMap _)
  have hsplit : ∀ rs : List Registration,
      rs.length = (rs.filterMap (·.source?)).length + rs.countP (·.source? = none) := by
    intro rs
    induction rs with
    | nil => rfl
    | cons r rs ih =>
      cases hr : r.source? <;> simp [hr, ih] <;> omega
  rw [h.held, List.length_map, hsplit,
    countP_sources w.sources _ hnodup fun i ↦ h.mem_sources_of_entry]

/-- Callbacks are numbered across all entries of all caches. -/
theorem Sound.nodup_callbackIds (h : w.Sound) (k : Nat) (kind : Kind) :
    ((w.cacheOf k).callbackIds kind).Nodup := by
  rw [h.held]
  exact h.distinct.sublist (List.filter_sublist.map _)

/-- **A started source has one callback**, on the entry of its kind in its cache, and nowhere
else. -/
theorem Sound.mem_callbackIds (h : w.Sound) {i k id : Nat} {s : Source}
    (hi : w.sources[i]? = some s) (hphase : s.phase = .started k id) (k' : Nat) (kind : Kind) :
    id ∈ (w.cacheOf k').callbackIds kind ↔ k' = k ∧ kind = s.kind := by
  obtain ⟨hline, -⟩ := (h.mem_by (r := ⟨k, s.kind, id, some i⟩)).2 ⟨s, id, hi, hphase, rfl⟩
  simp only [h.held, registeredOn, List.mem_map, List.mem_filter, decide_eq_true_eq]
  constructor
  · rintro ⟨r, ⟨hr, rfl, rfl⟩, hid⟩
    -- the number is on one line of the ledger
    obtain rfl : r = ⟨k, s.kind, id, some i⟩ :=
      List.inj_on_of_nodup_map h.distinct hr hline hid
    exact ⟨rfl, rfl⟩
  · rintro ⟨rfl, rfl⟩
    exact ⟨_, ⟨hline, rfl, rfl⟩, rfl⟩

/-- The events that announce sources on a cache, by the sources. -/
theorem Sound.announcements_eq (h : w.Sound) (k : Nat) : ∃ order : List Nat, order.Nodup ∧
    (∀ i, i ∈ order ↔ ∃ s id, w.sources[i]? = some s ∧ s.phase = .started k id) ∧
    w.announcements k =
      order.filterMap fun i ↦ (w.sources[i]?).map fun s ↦ .sourceStarted s.kind s.name := by
  refine ⟨(w.registrations.filter (·.cache = k)).filterMap (·.source?),
    h.nodup_sources.sublist (List.filter_sublist.filterMap _), fun i ↦ h.mem_sources_of_cache, ?_⟩
  rw [h.announced, List.filterMap_filterMap]
  rfl

/-! ### The law of a run -/

/-- **A source registers at most once.** Whatever is called on sources and caches, in any order, and
whatever else goes on in the caches: a source only goes on from one phase to the next. Binding
succeeds just if the source is not bound, and starting just if it is bound to a cache that has not
stopped; a call that fails changes nothing. A started source has registered one callback, which is
on the entry of its kind in its cache and nowhere else; any other source has registered none. So an
entry has as many callbacks as sources are started on it, and those registered directly, with
different numbers, and every started source is announced once. -/
theorem registers_once (settings : List (Config × List (String × Nat)))
    (sources : List (Known × String)) (actions : List Action) :
    let w := (start settings sources).actAll actions
    (∀ (a : Action) (i : Nat) (s : Source), w.sources[i]? = some s →
      ∃ s', (w.act a).sources[i]? = some s' ∧ s.Advances s') ∧
    (∀ (i k : Nat) (s : Source), w.sources[i]? = some s → k < w.caches.length →
      ((w.bind i k).2 = some (.ok ()) ↔ s.phase = .unbound) ∧
      ((w.bind i k).2 ≠ some (.ok ()) → w.Same (w.bind i k).1)) ∧
    (∀ (i : Nat) (s : Source), w.sources[i]? = some s →
      ((w.launch i).2 = some (.ok ()) ↔
        ∃ k, s.phase = .bound k ∧ (w.cacheOf k).stopped = false) ∧
      ((w.launch i).2 ≠ some (.ok ()) → w.Same (w.launch i).1)) ∧
    (∀ (i : Nat) (s : Source), w.sources[i]? = some s → match s.phase with
      | .started k id =>
        w.registeredBy i = [{ cache := k, kind := s.kind, callback := id, source? := some i }] ∧
        ((w.cacheOf k).callbackIds s.kind).count id = 1 ∧
        ∀ k' kind, id ∈ (w.cacheOf k').callbackIds kind ↔ k' = k ∧ kind = s.kind
      | _ => w.registeredBy i = []) ∧
    (∀ (k : Nat) (kind : Kind),
      (w.cacheOf k).callbackIds kind = (w.registeredOn k kind).map (·.callback) ∧
      ((w.cacheOf k).callbackIds kind).Nodup ∧
      ((w.cacheOf k).callbackIds kind).length = w.sources.countP (·.startedOn k kind) +
        (w.registeredOn k kind).countP (·.source? = none)) ∧
    ∀ k : Nat, ∃ order : List Nat, order.Nodup ∧
      (∀ i, i ∈ order ↔ ∃ s id, w.sources[i]? = some s ∧ s.phase = .started k id) ∧
      w.announcements k =
        order.filterMap fun i ↦ (w.sources[i]?).map fun s ↦ .sourceStarted s.kind s.name := by
  intro w
  have h : w.Sound := (sound_start settings sources).actAll actions
  refine ⟨fun a i s hi ↦ advances_act a hi, fun i k s hi hk ↦ ?_, fun i s hi ↦ ?_,
    fun i s hi ↦ ?_, fun k kind ↦
      ⟨h.held k kind, h.nodup_callbackIds k kind, h.length_callbackIds k kind⟩, h.announcements_eq⟩
  · rcases w.bind_cases hi hk with ⟨hphase, hbind⟩ | ⟨hphase, cause, hbind⟩ <;> rw [hbind]
    · exact ⟨iff_of_true rfl hphase, fun hfail ↦ absurd rfl hfail⟩
    · exact ⟨iff_of_false nofun hphase, fun _ ↦ .refl w⟩
  · rcases w.launch_cases hi with ⟨k, hphase, hs, hok, -⟩ | ⟨hstop, ⟨cause, hfail⟩, hsame⟩
    · exact ⟨iff_of_true hok ⟨k, hphase, hs⟩, fun hne ↦ absurd hok hne⟩
    · refine ⟨iff_of_false (by rw [hfail]; exact nofun) ?_, fun _ ↦ hsame⟩
      rintro ⟨k, hphase, hs⟩
      rw [hstop k hphase] at hs
      cases hs
  · have howned := h.owned i s hi
    cases hphase : s.phase with
    | started k id =>
      rw [hphase] at howned
      exact ⟨howned, List.count_eq_one_of_mem (h.nodup_callbackIds k s.kind)
        ((h.mem_callbackIds hi hphase k s.kind).2 ⟨rfl, rfl⟩), h.mem_callbackIds hi hphase⟩
    | _ =>
      rw [hphase] at howned
      exact howned

/-- Two sources on one cache: the first is started too early, in time and once more, the second only
after the stop signal. -/
theorem registers_once_of_failures :
    let w := (start [({}, [])] [(.widget, "a"), (.widget, "b")]).actAll
      [.launch 0, .bind 0 0, .launch 0, .launch 0, .bind 1 0, .perform 0 .shutdown, .launch 1]
    ((w.cacheOf 0).callbackIds Known.widget.kind).length = 1 ∧
      w.sources.map (·.phase) = [.started 0 1, .bound 0] := by
  intro w
  obtain ⟨-, -, -, -, hentries, -⟩ := registers_once [({}, [])] [(.widget, "a"), (.widget, "b")]
    [.launch 0, .bind 0 0, .launch 0, .launch 0, .bind 1 0, .perform 0 .shutdown, .launch 1]
  exact ⟨(hentries 0 Known.widget.kind).2.2.trans (by decide +kernel), by decide +kernel⟩

end World

end Informer
