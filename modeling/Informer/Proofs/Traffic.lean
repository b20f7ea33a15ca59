import Informer.Proofs.CacheStep

/-!
# Calls on a cache

A cache with everything that goes on around it at once: calls that ask for entries, calls that shut
down, loops, workers, sources, the forwarder and the subscribers. What comes next is chosen freely,
so a list of actions is one interleaving, and all lists are all of them.

The steps are those of `Cache`, between places where a task may have to wait, with two more places
where something may come in between. A call that creates an entry has started the loop of the entry
before it puts the entry into the map, and it may have to wait in between (`Draft`). All that time
it holds the map: no call looks for an entry, no other entry is created and the shutdown does not
learn which entries there are. The loop, however, may run, and the stop signal may be given. With
nothing in between the two halves are the one step of `Cache.lookup` (`proceed_proceed`).

The forwarder does not wait between its look at the bus and its look whether it may end, but a
thread may be overtaken there, so each look is an action. With nothing in between the two are the
one step of `Cache.forward` (`forward_turn`).

`step_act` says once what an action can be (`Step`); runs are derived from it.
-/

namespace Informer

/-- What does not hold at first and holds after some steps comes to hold with one of them. -/
theorem exists_turn {σ α : Type} {step : σ → α → σ} {P : σ → Prop} {s : σ} {steps : List α}
    (hbefore : ¬ P s) (hafter : P (steps.foldl step s)) :
    ∃ before a after, steps = before ++ a :: after ∧ ¬ P (before.foldl step s) ∧
      P ((before ++ [a]).foldl step s) := by
  induction steps generalizing s with
  | nil => exact absurd hafter hbefore
  | cons a steps ih =>
    by_cases hnow : P (step s a)
    · exact ⟨[], a, steps, rfl, hbefore, hnow⟩
    · obtain ⟨before, b, after, rfl, hnot, hthen⟩ := ih hnow hafter
      exact ⟨a :: before, b, after, rfl, hnot, hthen⟩

/-- An entry that was created, with its loop, and is not yet in the map. -/
structure Draft where
  /-- The number of the call that created it. -/
  call : Nat
  kind : Kind
  entry : Entry

/-- A call that asks for the entry of a kind. -/
structure Inquiry where
  kind : Kind
  place : Lookup := .arriving
  /-- The entry that the call was answered with, by the number of the call that created it. -/
  answer? : Option Nat := none

/-- A cache with the calls that are on their way, and the record of what came of them. -/
structure Traffic where
  cache : Cache
  draft? : Option Draft := none
  /-- The forwarder has found nothing on the bus, and looks next whether it may end. -/
  asking : Bool := false
  /-- The calls that ask for entries, in the order in which they began. -/
  inquiries : List Inquiry := []
  /-- By kind, the number of the call that created the entry in the map. -/
  creators : Std.ExtTreeMap Kind Nat := ∅
  /-- The entries that were created, each with its loop: the number of the call and the kind. -/
  opened : List (Nat × Kind) := []
  /-- Those of them that were put into the map. -/
  entered : List (Nat × Kind) := []
  /-- What was given to callbacks, in the order in which the handling began. -/
  handed : List (Kind × Nat × Notification) := []
  /-- The answers of the calls that shut down, but for the first one's. -/
  answers : List (Except ShutdownError Unit) := []
  /-- The runtime events that were published. -/
  events : List RuntimeEvent := []

namespace Traffic

variable (w : Traffic)

/-- A new cache, before anything happened. -/
def start (config : Config) (subscribers : Subscribers) : Traffic where
  cache := .new config subscribers

/-- What can happen. -/
inductive Action where
  /-- A call that asks for the entry of a kind begins. -/
  | inquire (kind : Kind)
  /-- Such a call goes on to the next place where it may have to wait. -/
  | proceed (call : Nat)
  | register (kind : Kind) (name : String)
  /-- The loop of a kind takes in what it was waiting for. -/
  | react (kind : Kind) (now : Nat) (signal : Signal)
  /-- The worker of a callback runs while it is idle. -/
  | advance (kind : Kind) (id : Nat)
  /-- The handling that a callback is busy with ends. -/
  | complete (kind : Kind) (id : Nat) (outcome : Outcome)
  /-- A source reports that it started. -/
  | announce (kind : Kind) (source : String)
  /-- A source reports that a notification does not translate. -/
  | drop (kind : Kind) (source : String) (key : Key) (reason : String)
  /-- The forwarder goes on to its next look. -/
  | forward
  | advanceSubscriber (i : Nat)
  | completeSubscriber (i : Nat) (outcome : Outcome)
  /-- A call that shuts down begins. -/
  | shutdown
  /-- The first such call goes on to the next place where it may have to wait. -/
  | goOn (graceOver : Bool)

/-- Takes over a step of the cache and the events that it publishes. -/
def take (result : Cache × List Effect) : Traffic :=
  { w with cache := result.1, events := w.events ++ Effect.events result.2 }

theorem take_nil : w.take (w.cache, []) = w := by
  rw [take, Effect.events_nil, List.append_nil]

/-! ### Calls that ask for entries -/

/-- A call looks around as `Cache.lookup` says. An entry that it finds is the one in the map. -/
def look (i : Nat) (q : Inquiry) : Traffic :=
  let (result, place) := w.cache.lookup q.kind q.place
  let answer? := match place with
    | .answered (.ok ()) => w.creators[q.kind]?
    | _ => none
  { w.take result with inquiries := w.inquiries.set i { q with place, answer? } }

/-- A call creates an entry and starts its loop. -/
def create (i : Nat) (q : Inquiry) : Traffic :=
  { w with
    draft? := some ⟨i, q.kind, Entry.empty q.kind w.cache.config.backlog?⟩
    opened := w.opened ++ [(i, q.kind)] }

/-- A call puts the entry that it created into the map, and is answered with it. -/
def enter (d : Draft) (q : Inquiry) : Traffic :=
  let result := { w.cache with entries := w.cache.entries.insert d.kind d.entry }.emit
    [.publish (.watchStarted d.kind)]
  { w.take result with
    draft? := none
    creators := w.creators.insert d.kind d.call
    entered := w.entered ++ [(d.call, d.kind)]
    inquiries := w.inquiries.set d.call
      { q with place := .answered (.ok ()), answer? := some d.call } }

/-- A call goes on. It waits while the map is held by another one. -/
def proceed (i : Nat) (q : Inquiry) : Traffic :=
  match q.place, w.draft? with
  | .searching, some _ => w
  | .creating, some d => if d.call = i then w.enter d q else w
  | .creating, none =>
    if w.cache.entries.contains q.kind || w.cache.stopped then w.look i q else w.create i q
  | _, _ => w.look i q

/-! ### Actions -/

/-- The loop of a kind takes something in; the entry may not be in the map yet. -/
def react (kind : Kind) (now : Nat) (signal : Signal) : Traffic :=
  match w.draft? with
  | some d =>
    if d.kind = kind then
      let (entry, effects) := d.entry.react w.cache.pace now signal
      { w.take (w.cache.emit effects) with draft? := some { d with entry } }
    else w.take (w.cache.react kind now signal)
  | none => w.take (w.cache.react kind now signal)

/-- The first call that shuts down goes on. It waits for the map before it reads the kinds. -/
def goOn (graceOver : Bool) : Traffic :=
  match w.cache.shutdown, w.draft? with
  | .requested, some _ => w
  | _, _ => w.take (w.cache.continueShutdown graceOver)

/-- The forwarder looks at the bus, and when it has found nothing there, whether it may end. -/
def forward : Traffic :=
  match w.cache.forwarder, w.asking with
  | .forwarding, false => match w.cache.readBus? with
    | some result => w.take result
    | none => { w with asking := true }
  | .forwarding, true =>
    { w.take (w.cache.endReading?.getD (w.cache, [])) with asking := false }
  | _, _ => w.take (w.cache.forward.1, w.cache.forward.2.1)

/-- One action. -/
def act : Action → Traffic
  | .inquire kind => { w with inquiries := w.inquiries ++ [{ kind }] }
  | .proceed call => match w.inquiries[call]? with
    | some q => w.proceed call q
    | none => w
  | .register kind name => w.take (w.cache.register kind name)
  | .react kind now signal => w.react kind now signal
  | .advance kind id =>
    { w with
      cache := (w.cache.advanceWorker kind id).1
      handed := w.handed ++ w.cache.handedBy kind id }
  | .complete kind id outcome => w.take (w.cache.completeWorker kind id outcome)
  | .announce kind source => w.take (w.cache.emit [.publish (.sourceStarted kind source)])
  | .drop kind source key reason =>
    w.take (w.cache.emit [.publish (.notificationDropped kind source key reason)])
  | .forward => w.forward
  | .advanceSubscriber i => { w with cache := (w.cache.advanceSubscriber i).1 }
  | .completeSubscriber i outcome => w.take (w.cache.completeSubscriber i outcome)
  | .shutdown =>
    { w.take w.cache.callShutdown.1 with answers := w.answers ++ w.cache.callShutdown.2.toList }
  | .goOn graceOver => w.goOn graceOver

/-- Some actions, one after another. -/
def actAll (actions : List Action) : Traffic := actions.foldl act w

@[simp] theorem actAll_nil : w.actAll [] = w := rfl

@[simp] theorem actAll_cons (a : Action) (actions : List Action) :
    w.actAll (a :: actions) = (w.act a).actAll actions :=
  rfl

@[simp] theorem actAll_append (before after : List Action) :
    w.actAll (before ++ after) = (w.actAll before).actAll after :=
  List.foldl_append

/-- **The two halves of a creation make one step of the cache**, when nothing comes in between. -/
theorem proceed_proceed {i : Nat} {q : Inquiry} (hi : w.inquiries[i]? = some q)
    (hq : q.place = .creating) (hd : w.draft? = none) (hk : q.kind ∉ w.cache.entries)
    (hs : w.cache.stopped = false) :
    let w' := (w.act (.proceed i)).act (.proceed i)
    let step := w.cache.lookup q.kind .creating
    w'.cache = step.1.1 ∧ w'.events = w.events ++ Effect.events step.1.2 ∧
      w'.inquiries[i]? = some { q with place := step.2, answer? := some i } := by
  have hlt : i < w.inquiries.length := (List.getElem?_eq_some_iff.1 hi).1
  have hcreate : w.act (.proceed i) = w.create i q := by
    simp [act, hi, proceed, hq, hd, hk, hs]
  have henter : (w.create i q).act (.proceed i) = (w.create i q).enter
      ⟨i, q.kind, Entry.empty q.kind w.cache.config.backlog?⟩ q := by
    simp [act, create, hi, proceed, hq]
  have hstep : w.cache.lookup q.kind .creating =
      (w.cache.openEntry q.kind, .answered (.ok ())) := by
    simp [Cache.lookup, hk, hs]
  simp only [hcreate, henter, hstep]
  exact ⟨rfl, rfl, by simp [enter, create, hlt]⟩

/-- What the forwarder does is a step of the cache, and it may ask next. -/
theorem forward_cases : ∃ result asking, w.forward = { w.take result with asking } ∧
    (∃ bus subscribers forwarder,
      result.1 = { w.cache with bus, subscribers, forwarder }) ∧
    Effect.Publishes [.subscriberOverflow] result.2 := by
  unfold forward
  split
  · split
    · next result h =>
      obtain ⟨_, _, hresult⟩ := w.cache.readBus?_frame h
      exact ⟨result, _, rfl, ⟨_, _, _, hresult⟩, w.cache.publishes_readBus? h⟩
    · exact ⟨(w.cache, []), true, by rw [take_nil], ⟨_, _, _, rfl⟩, Effect.publishes_nil⟩
  · rcases h : w.cache.endReading? with - | result
    · exact ⟨(w.cache, []), false, rfl, ⟨_, _, _, rfl⟩, Effect.publishes_nil⟩
    · exact ⟨result, false, rfl, w.cache.endReading?_frame h, w.cache.publishes_endReading? h⟩
  · exact ⟨(w.cache.forward.1, w.cache.forward.2.1), w.asking, rfl, w.cache.forward_frame,
      w.cache.publishes_forward⟩

/-- **The two looks of the forwarder make one step of the cache**, when nothing comes in between. -/
theorem forward_turn (h : w.asking = false) :
    let step := w.take (w.cache.forward.1, w.cache.forward.2.1)
    if w.cache.forwarder = .forwarding ∧ w.cache.readBus? = none then
      (w.act .forward).act .forward = step
    else w.act .forward = step := by
  intro step
  split
  · next hnothing =>
    have hfirst : w.act .forward = { w with asking := true } := by
      simp [act, forward, hnothing, h]
    have hstep : (w.cache.forward.1, w.cache.forward.2.1) =
        w.cache.endReading?.getD (w.cache, []) := by
      rw [Cache.forward, hnothing.1, hnothing.2, Option.none_or]
      cases w.cache.endReading? <;> rfl
    rw [hfirst]
    show forward _ = w.take _
    rw [hstep]
    simp [forward, hnothing.1, take, h]
  · next hsomething =>
    show forward w = w.take _
    rcases hforwarder : w.cache.forwarder with - | - | -
    · rcases hread : w.cache.readBus? with - | result
      · exact absurd ⟨hforwarder, hread⟩ hsomething
      · simp [forward, Cache.forward, hforwarder, h, hread]
    · simp [forward, hforwarder]
    · simp [forward, hforwarder]

/-! ### Routine actions -/

end Traffic

/-- A routine step of the loop of an entry that is not in the map yet. -/
structure Draft.Moves (d d' : Draft) : Prop where
  call : d'.call = d.call
  kind : d'.kind = d.kind
  entry : d.entry.Moves d'.entry []

namespace Traffic

/-- A routine step of the cache, or of the entry that is not in the map yet, which may give
callbacks what `given` says. -/
structure Moves (w w' : Traffic) (given : List (Kind × Nat × Notification)) : Prop where
  cache : w.cache.Moves w'.cache given
  draft : Option.Rel Draft.Moves w.draft? w'.draft?
  inquiries : w'.inquiries = w.inquiries
  creators : w'.creators = w.creators
  opened : w'.opened = w.opened
  entered : w'.entered = w.entered
  handed : w'.handed = w.handed ++ given
  answers : w'.answers = w.answers
  events : ∃ effects, Effect.Routine effects ∧ w'.events = w.events ++ Effect.events effects
  /-- After the stop signal nothing is given to a callback. -/
  quiet : w.cache.stopped = true → given = []

theorem rel_draft_refl (draft? : Option Draft) : Option.Rel Draft.Moves draft? draft? := by
  cases draft? with
  | none => exact .none
  | some d => exact .some ⟨rfl, rfl, .refl _⟩

variable {w : Traffic}

theorem Moves.draft_cases {w' : Traffic} {given : List (Kind × Nat × Notification)}
    (h : w.Moves w' given) :
    (w.draft? = none ∧ w'.draft? = none) ∨
      ∃ d d', w.draft? = some d ∧ w'.draft? = some d' ∧ d.Moves d' := by
  have hrel := h.draft
  generalize w.draft? = draft?, w'.draft? = draft'? at hrel
  cases hrel with
  | some hmoves => exact .inr ⟨_, _, rfl, rfl, hmoves⟩
  | none => exact .inl ⟨rfl, rfl⟩

theorem moves_refl (w : Traffic) : w.Moves w [] where
  cache := .refl _
  draft := rel_draft_refl _
  inquiries := rfl
  creators := rfl
  opened := rfl
  entered := rfl
  handed := (List.append_nil _).symm
  answers := rfl
  events := ⟨[], Effect.routine_nil, (List.append_nil _).symm⟩
  quiet _ := rfl

theorem moves_take {result : Cache × List Effect}
    (h : w.cache.Moves result.1 [] ∧ Effect.Routine result.2) : w.Moves (w.take result) [] :=
  { moves_refl w with
    cache := h.1
    events := ⟨_, h.2, rfl⟩ }

theorem moves_emit {effects : List Effect} (h : Effect.Routine effects) :
    w.Moves (w.take (w.cache.emit effects)) [] :=
  moves_take ⟨.of_entries_eq rfl rfl rfl, h⟩

/-- A loop takes something in, and its entry is in the map or not there yet. -/
theorem react_cases (w : Traffic) (kind : Kind) (now : Nat) (signal : Signal) :
    ((∀ d, w.draft? = some d → d.kind ≠ kind) ∧
      w.react kind now signal = w.take (w.cache.react kind now signal)) ∨
    ∃ d, w.draft? = some d ∧ d.kind = kind ∧ w.react kind now signal =
      { w.take (w.cache.emit (d.entry.react w.cache.pace now signal).2) with
        draft? := some { d with entry := (d.entry.react w.cache.pace now signal).1 } } := by
  rcases hd : w.draft? with - | d
  · exact .inl ⟨nofun, by simp only [react, hd]⟩
  · by_cases hk : d.kind = kind
    · exact .inr ⟨d, rfl, hk, by simp only [react, hd, if_pos hk]⟩
    · refine .inl ⟨fun d' hd' ↦ ?_, by simp only [react, hd, if_neg hk]⟩
      cases hd'
      exact hk

theorem moves_react (w : Traffic) (kind : Kind) (now : Nat) (signal : Signal) :
    w.Moves (w.react kind now signal) [] := by
  obtain ⟨-, h⟩ | ⟨d, hd, -, h⟩ := w.react_cases kind now signal
  · rw [h]
    exact moves_take (w.cache.moves_react kind now signal)
  · rw [h]
    obtain ⟨hentry, hroutine⟩ := d.entry.quiet_react w.cache.pace now signal
    have hemit := w.moves_emit hroutine
    exact { hemit with draft := hd ▸ .some ⟨rfl, rfl, hentry⟩ }

theorem moves_advance (w : Traffic) (kind : Kind) (id : Nat) :
    w.Moves (w.act (.advance kind id)) (w.cache.handedBy kind id) :=
  { moves_refl w with
    cache := w.cache.moves_advanceWorker kind id
    handed := rfl
    quiet := fun hs ↦ Cache.handedBy_of_stopped hs kind id }

theorem moves_forward (w : Traffic) : w.Moves w.forward [] := by
  obtain ⟨result, asking, h, ⟨bus, subscribers, forwarder, hresult⟩, hpublishes⟩ := w.forward_cases
  have hcache : w.cache.Moves result.1 [] := by
    rw [hresult]
    exact .of_entries_eq rfl rfl rfl
  rw [h]
  exact { moves_take ⟨hcache, hpublishes.routine (by decide)⟩ with }

/-! ### What an action can be -/

/-- What an action does, as far as runs depend on it. -/
inductive Step (w : Traffic) : Action → Traffic → Prop where
  /-- An action of the loops, the workers, the sources, the forwarder and the subscribers, or one
  that has to wait. -/
  | moves {a : Action} {w' : Traffic} {given : List (Kind × Nat × Notification)}
    (h : w.Moves w' given) : Step w a w'
  | inquire (kind : Kind) : Step w (.inquire kind) { w with inquiries := w.inquiries ++ [{ kind }] }
  /-- A call looks around. One that holds the map does so no more. -/
  | look {i : Nat} {q : Inquiry} {place : Lookup} {answer? : Option Nat}
    (hi : w.inquiries[i]? = some q)
    (hdraft : ∀ d, w.draft? = some d → d.call = i → q.place ≠ .creating)
    (hfound : place = .answered (.ok ()) → answer? = w.creators[q.kind]? ∧
      (q.kind ∈ w.cache.entries ∨ q.place = .answered (.ok ())))
    (hrefused : w.cache.stopped = true →
      q.place = .arriving ∨ q.place = .answered (.error .stopped) →
      place = .answered (.error .stopped) ∧ answer? = none) :
    Step w (.proceed i) { w with inquiries := w.inquiries.set i { q with place, answer? } }
  | create {i : Nat} {q : Inquiry} (hi : w.inquiries[i]? = some q) (hq : q.place = .creating)
    (hd : w.draft? = none) (hk : q.kind ∉ w.cache.entries) (hs : w.cache.stopped = false) :
    Step w (.proceed i) (w.create i q)
  | enter {d : Draft} {q : Inquiry} (hi : w.inquiries[d.call]? = some q) (hd : w.draft? = some d) :
    Step w (.proceed d.call) (w.enter d q)
  /-- The call that gives the stop signal. -/
  | request {result : Cache × List Effect} (hnone : w.cache.shutdown = .notBegun)
    (hkeeps : w.cache.Keeps result.1 []) (hrequested : result.1.shutdown = .requested)
    (hevents : Effect.events result.2 = [.shutdownRequested]) : Step w .shutdown (w.take result)
  /-- Any other call that shuts down. -/
  | refuse (h : w.cache.stopped = true) :
    Step w .shutdown { w with answers := w.answers ++ [.ok ()] }
  /-- The first call that shuts down goes on. -/
  | goOn {graceOver : Bool} {result : Cache × List Effect} {shutdown : Shutdown}
    {routine : List Effect} {milestones : List RuntimeEvent}
    (hfree : w.cache.shutdown = .requested → w.draft? = none) (hkeeps : w.cache.Keeps result.1 [])
    (hshutdown : result.1.shutdown = shutdown)
    (hstage : w.cache.Stage graceOver shutdown milestones) (hroutine : Effect.Routine routine)
    (hevents : Effect.events result.2 = Effect.events routine ++ milestones) :
    Step w (.goOn graceOver) (w.take result)

/-- A call that looks around and may not create an entry changes nothing but what it knows. -/
theorem look_of_may {q : Inquiry} (w : Traffic) (i : Nat)
    (hmay : q.place = .creating → q.kind ∈ w.cache.entries ∨ w.cache.stopped = true) :
    w.look i q = { w with
      inquiries := w.inquiries.set i { q with
        place := (w.cache.lookup q.kind q.place).2
        answer? := match (w.cache.lookup q.kind q.place).2 with
          | .answered (.ok ()) => w.creators[q.kind]?
          | _ => none } } := by
  have hcache : (w.cache.lookup q.kind q.place).1 = (w.cache, []) := by
    unfold Cache.lookup
    split
    · rfl
    · rfl
    · next hq =>
      split
      · rfl
      · next hk =>
        obtain hk' | hs := hmay hq
        · exact absurd (Std.ExtTreeMap.contains_iff_mem.2 hk') hk
        · rw [if_pos hs]
    · rfl
  simp only [look, hcache, take_nil]

/-- A call waits, puts the entry that it created into the map, creates one, or looks around and may
not create one. -/
theorem proceed_cases (w : Traffic) (i : Nat) (q : Inquiry) :
    w.proceed i q = w ∨
    (∃ d, w.draft? = some d ∧ d.call = i ∧ w.proceed i q = w.enter d q) ∨
    (q.place = .creating ∧ w.draft? = none ∧ q.kind ∉ w.cache.entries ∧
      w.cache.stopped = false ∧ w.proceed i q = w.create i q) ∨
    ((∀ d, w.draft? = some d → d.call = i → q.place ≠ .creating) ∧
      (q.place = .creating → q.kind ∈ w.cache.entries ∨ w.cache.stopped = true) ∧
      w.proceed i q = w.look i q) := by
  unfold proceed
  split
  · exact .inl rfl
  · next d hq hd =>
    split
    · next hcall => exact .inr (.inl ⟨d, hd, hcall, rfl⟩)
    · exact .inl rfl
  · next hq hd =>
    refine .inr (.inr ?_)
    split
    · next h => exact .inr ⟨by simp [hd], fun _ ↦ by simpa using h, rfl⟩
    · next h =>
      have hnone : q.kind ∉ w.cache.entries ∧ w.cache.stopped = false := by simpa using h
      exact .inl ⟨hq, hd, hnone.1, hnone.2, rfl⟩
  · next hsearching hheld hfree =>
    have hq : q.place ≠ .creating := by
      intro hq
      rcases hd : w.draft? with - | d
      · exact hfree hq hd
      · exact hheld d hq hd
    exact .inr (.inr (.inr ⟨fun _ _ _ ↦ hq, fun h ↦ absurd h hq, rfl⟩))

theorem step_look {i : Nat} {q : Inquiry} (hi : w.inquiries[i]? = some q)
    (hdraft : ∀ d, w.draft? = some d → d.call = i → q.place ≠ .creating)
    (hmay : q.place = .creating → q.kind ∈ w.cache.entries ∨ w.cache.stopped = true) :
    Step w (.proceed i) (w.look i q) := by
  have hfound (h : (w.cache.lookup q.kind q.place).2 = .answered (.ok ())) :
      q.kind ∈ w.cache.entries ∨ q.place = .answered (.ok ()) := by
    by_cases hk : q.kind ∈ w.cache.entries
    · exact .inl hk
    · refine .inr ?_
      rcases hq : q.place with - | - | - | result
      · by_cases hs : w.cache.stopped = true <;> simp [Cache.lookup, hq, hs] at h
      · simp [Cache.lookup, hq, hk] at h
      · simp [Cache.lookup, hq, hk, (hmay hq).resolve_left hk] at h
      · simpa [Cache.lookup, hq] using h
  have hrefused (hs : w.cache.stopped = true)
      (hq : q.place = .arriving ∨ q.place = .answered (.error .stopped)) :
      (w.cache.lookup q.kind q.place).2 = .answered (.error .stopped) := by
    obtain hq | hq := hq <;> simp [Cache.lookup, hq, hs]
  rw [w.look_of_may i hmay]
  refine .look hi hdraft (fun h ↦ ⟨by rw [h], hfound h⟩) fun hs hq ↦ ?_
  rw [hrefused hs hq]
  exact ⟨rfl, rfl⟩

theorem step_proceed {i : Nat} {q : Inquiry} (hi : w.inquiries[i]? = some q) :
    Step w (.proceed i) (w.proceed i q) := by
  obtain h | ⟨d, hd, rfl, h⟩ | ⟨hq, hd, hk, hs, h⟩ | ⟨hdraft, hmay, h⟩ := w.proceed_cases i q
  · rw [h]
    exact .moves w.moves_refl
  · rw [h]
    exact .enter hi hd
  · rw [h]
    exact .create hi hq hd hk hs
  · rw [h]
    exact step_look hi hdraft hmay

theorem step_goOn (w : Traffic) (graceOver : Bool) :
    Step w (.goOn graceOver) (w.goOn graceOver) := by
  unfold goOn
  split
  · exact .moves w.moves_refl
  · next hfree =>
    obtain ⟨shutdown, routine, milestones, hkeeps, hshutdown, hstage, hroutine, hevents⟩ :=
      w.cache.stages_continueShutdown graceOver
    refine .goOn (fun hs ↦ ?_) hkeeps hshutdown hstage hroutine hevents
    rcases hd : w.draft? with - | d
    · rfl
    · exact absurd hd (hfree d hs)

/-- **What an action can be.** -/
theorem step_act (w : Traffic) (a : Action) : Step w a (w.act a) := by
  cases a with
  | inquire kind => exact .inquire kind
  | proceed i =>
    rcases hi : w.inquiries[i]? with - | q
    · simp only [act, hi]
      exact .moves w.moves_refl
    · simp only [act, hi]
      exact step_proceed hi
  | register kind name => exact .moves (moves_take (w.cache.moves_register kind name))
  | react kind now signal => exact .moves (w.moves_react kind now signal)
  | advance kind id => exact .moves (w.moves_advance kind id)
  | complete kind id outcome =>
    exact .moves (moves_take (w.cache.moves_completeWorker kind id outcome))
  | announce kind source =>
    have hroutine : Topic.sourceStarted ∉ Topic.milestones := by decide
    exact .moves (moves_emit (Effect.routine_publish.2 ⟨hroutine, Effect.routine_nil⟩))
  | drop kind source key reason =>
    have hroutine : Topic.notificationDropped ∉ Topic.milestones := by decide
    exact .moves (moves_emit (Effect.routine_publish.2 ⟨hroutine, Effect.routine_nil⟩))
  | forward => exact .moves w.moves_forward
  | advanceSubscriber i => exact .moves { moves_refl w with cache := .of_entries_eq rfl rfl rfl }
  | completeSubscriber i outcome =>
    exact .moves (moves_take (w.cache.moves_completeSubscriber i outcome))
  | shutdown =>
    cases hs : w.cache.stopped with
    | false =>
      have hnone : w.cache.shutdown = .notBegun := Cache.stopped_eq_false.1 hs
      obtain ⟨hkeeps, hrequested, hevents, hanswer⟩ := Cache.callShutdown_of_notBegun hnone
      simp only [act, hanswer, Option.toList_none, List.append_nil]
      exact .request hnone hkeeps hrequested hevents
    | true =>
      simp only [act, Cache.callShutdown_of_stopped hs, take_nil]
      exact .refuse hs
  | goOn graceOver => exact w.step_goOn graceOver

/-- What every action keeps holds after any actions. -/
theorem actAll_of_step {P : Traffic → Prop} (hstep : ∀ w a w', Step w a w' → P w → P w') (h : P w)
    (actions : List Action) : P (w.actAll actions) := by
  induction actions generalizing w with
  | nil => exact h
  | cons a actions ih => exact ih (hstep w a _ (step_act w a) h)

/-- The stop signal stays given, no entry is created, and nothing is given to a callback. -/
theorem Step.of_stopped {a : Action} {w' : Traffic} (hstep : Step w a w')
    (hs : w.cache.stopped = true) :
    w'.cache.stopped = true ∧ w'.opened = w.opened ∧ w'.handed = w.handed := by
  cases hstep with
  | moves h =>
    exact ⟨h.cache.stopped.trans hs, h.opened, by rw [h.handed, h.quiet hs, List.append_nil]⟩
  | create _ _ _ _ hrun => exact absurd hs (by simp [hrun])
  | request hnone => exact absurd hs (by simp [Cache.stopped_eq_false.2 hnone])
  | goOn _ _ hshutdown hstage => exact ⟨(hstage.stopped_eq hshutdown).trans hs, rfl, rfl⟩
  | _ => exact ⟨hs, rfl, rfl⟩

theorem actAll_of_stopped (hs : w.cache.stopped = true) (actions : List Action) :
    (w.actAll actions).cache.stopped = true ∧ (w.actAll actions).opened = w.opened ∧
      (w.actAll actions).handed = w.handed := by
  refine actAll_of_step (P := fun w' ↦ w'.cache.stopped = true ∧ w'.opened = w.opened ∧
    w'.handed = w.handed) (fun w₁ a w₂ hstep h ↦ ?_) ⟨hs, rfl, rfl⟩ actions
  obtain ⟨hs', hopened, hhanded⟩ := hstep.of_stopped h.1
  exact ⟨hs', hopened.trans h.2.1, hhanded.trans h.2.2⟩

end Traffic

end Informer
