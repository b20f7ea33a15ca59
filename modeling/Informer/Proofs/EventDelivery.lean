import Informer.Proofs.BusTraffic
import Informer.Proofs.BusView
import Informer.Proofs.SubscriberLog

/-!
# Runtime events reach the subscribers

The forwarder reads the bus and hands every event on to the queues of the subscribers. When it finds
nothing on the bus it looks whether the shutdown has released it; only then does it close the
queues, and it waits until the workers have handled what is queued.

`Attended` ties a cache to the run that its subscribers make: what was published is what was handed
on and what the forwarder has still to read. A subscriber that misses nothing is handed all that is
handed on (`Served.of_ended`). What that is depends on the last look at the bus, the one after which
the forwarder closes the queues (`exists_lastLook`): all that was published before it, and nothing
that came later (`events_reach_subscribers`). So a subscriber learns of everything up to the release
just when the release came before that look, as it does where tasks take turns. On a thread of its
own the forwarder may be overtaken after the look, and what is published then is lost; the final
report may be among it (`not_informed_of_overtaking`).
-/

namespace Informer

/-- When there is a result there is a report of it. -/
theorem Shutdown.exists_report {s : Shutdown} (h : s.result?.isSome = true) :
    ∃ e, e ∈ s.report := by
  obtain ⟨result, hresult⟩ := Option.isSome_iff_exists.1 h
  rw [report, hresult]
  cases result <;> exact ⟨_, List.mem_singleton_self _⟩

/-! ### Subscribers whose workers have ended -/

namespace Subscribers

variable {s : Subscribers}

theorem isEnded_of_allEnded (h : s.allEnded = true) {i : Nat} {c : Subscriber}
    (hc : s.channels[i]? = some c) : c.worker = .ended := by
  have hended : c.worker.isEnded = true := List.all_eq_true.1 h c (List.mem_of_getElem? hc)
  cases hw : c.worker <;> simp_all [Worker.isEnded]

/-- Workers that have ended do nothing any more. -/
theorem advance_of_allEnded (h : s.allEnded = true) (i : Nat) : (s.advance i).1 = s := by
  obtain ⟨c, -, -, hc, hw, -⟩ | ⟨c, hc, hw, -⟩ | ⟨-, step, ha, -⟩ := s.advance_cases i
  · rw [isEnded_of_allEnded h hc] at hw
    cases hw
  · rw [isEnded_of_allEnded h hc] at hw
    cases hw
  · rw [ha]

theorem complete_of_allEnded (h : s.allEnded = true) (i : Nat) (outcome : Outcome) :
    (s.complete i outcome).1 = s := by
  obtain ⟨c, e, hc, hw, -⟩ | ⟨-, ha⟩ := s.complete_cases i outcome
  · rw [isEnded_of_allEnded h hc] at hw
    cases hw
  · rw [ha]

theorem closed_advance (s : Subscribers) (i : Nat) : (s.advance i).1.closed = s.closed := by
  obtain ⟨c, e, rest, -, -, -, ha⟩ | ⟨c, -, -, -, -, ha⟩ | ⟨-, step, ha, -⟩ := s.advance_cases i
  · rw [ha, closed_modify]
  · rw [ha, closed_modify]
  · rw [ha]

theorem closed_complete (s : Subscribers) (i : Nat) (outcome : Outcome) :
    (s.complete i outcome).1.closed = s.closed := by
  obtain ⟨c, e, -, -, ha, -⟩ | ⟨-, ha⟩ := s.complete_cases i outcome
  · rw [ha, closed_modify]
  · rw [ha]

/-- What a run records when a worker runs. -/
theorem Run.act_advance (s : Run) (j : Nat) :
    s.act (.advance j) = { s with
      state := (s.state.advance j).1
      handed := s.handed ++ match (s.state.advance j).2 with
        | .took e => [(j, e)]
        | _ => [] } := by
  rcases h : s.state.advance j with ⟨state, e | - | -⟩ <;> simp [Run.act, h]

/-- What was handed to a subscriber. -/
def Run.handedTo (s : Run) (i : Nat) : List RuntimeEvent :=
  (s.handed.filter (·.1 = i)).map (·.2)

theorem without_nil (events : List RuntimeEvent) : without [] events = events := by
  simp [without, List.zipIdx_map_fst]

end Subscribers

namespace Traffic

variable {w w' : Traffic}

/-! ### What the subscribers are told -/

/-- What the forwarder finds on the bus when it runs, if it looks there. -/
def finds? (w : Traffic) : Option (Received RuntimeEvent) :=
  if w.cache.forwarder = .forwarding ∧ w.asking = false then
    some (w.cache.bus.recv Cache.forwarderReceiver).2
  else none

/-- Whether the forwarder closes the queues when it runs. -/
def closes (w : Traffic) : Bool :=
  w.cache.forwarder = .forwarding && w.asking && w.cache.released

/-- What an action does to the subscribers. -/
def driven (w : Traffic) : Action → List Subscribers.Action
  | .forward => match w.finds? with
    | some (.event e) => [.emit e]
    | _ => if w.closes then [.close] else []
  | .advanceSubscriber i => [.advance i]
  | .completeSubscriber i outcome => [.complete i outcome]
  | _ => []

/-- What some actions do to the subscribers. -/
def drivenAll (w : Traffic) : List Action → List Subscribers.Action
  | [] => []
  | a :: actions => w.driven a ++ (w.act a).drivenAll actions

/-- The forwarder has not fallen behind on the bus, and there is room in the queue of a subscriber
for what it finds there. -/
@[mk_iff smooth_iff]
structure Smooth (w : Traffic) (i : Nat) : Prop where
  keepsUp : ∀ count, w.finds? ≠ some (.lagged count)
  roomy : ∀ e, w.finds? = some (.event e) →
    ∀ c, w.cache.subscribers.channels[i]? = some c → c.queue.length < c.capacity

/-- Whether that is so can be seen from the bus and the queue. -/
instance decidableSmooth (w : Traffic) (i : Nat) : Decidable (w.Smooth i) :=
  decidable_of_iff ((match w.finds? with
    | some (.lagged _) => false
    | some (.event _) => w.cache.subscribers.channels[i]?.all fun c ↦ c.queue.length < c.capacity
    | _ => true) = true) <| by
    rcases hfinds : w.finds? with - | (e | count | - | -)
    · simp [smooth_iff, hfinds]
    · simp [smooth_iff, hfinds, Option.all_eq_true]
    · simp [smooth_iff, hfinds]
    · simp [smooth_iff, hfinds]
    · simp [smooth_iff, hfinds]

/-- The forwarder never falls behind in a run, and the queue of a subscriber is never full when the
forwarder hands an event on. -/
def Undisturbed (w : Traffic) (i : Nat) : List Action → Prop
  | [] => True
  | a :: actions => (a.isForward → w.Smooth i) ∧ (w.act a).Undisturbed i actions

instance decidableUndisturbed (w : Traffic) (i : Nat) :
    (actions : List Action) → Decidable (w.Undisturbed i actions)
  | [] => isTrue trivial
  | a :: actions =>
    have := decidableUndisturbed (w.act a) i actions
    inferInstanceAs (Decidable (_ ∧ _))

/-- What a subscriber takes from its queue to handle it. -/
def takenBy (w : Traffic) (i : Nat) : Action → List RuntimeEvent
  | .advanceSubscriber j => match (w.cache.advanceSubscriber j).2 with
    | .took e => if j = i then [e] else []
    | _ => []
  | _ => []

/-- What a subscriber takes in the course of some actions. -/
def taken (w : Traffic) (i : Nat) : List Action → List RuntimeEvent
  | [] => []
  | a :: actions => w.takenBy i a ++ (w.act a).taken i actions

/-- The subscribers of a cache, with the record of the run of theirs that the forwarder and the
workers make. -/
structure Attended (w : Traffic) (s : Subscribers.Run) : Prop where
  state : s.state = w.cache.subscribers
  sound : s.Sound
  settled : w.cache.Settled
  /-- What was published is what was handed on and what the forwarder has still to read. -/
  owed : w.cache.forwarder = .forwarding → s.state.closed = false ∧
    ∃ ahead, w.events = s.emitted ++ ahead ∧ w.cache.bus.Owes Cache.forwarderReceiver ahead
  ended : w.cache.forwarder = .ended → w.cache.subscribers.allEnded = true

variable {s : Subscribers.Run} {i : Nat}

theorem attended_start (config : Config) (subscribers : List (String × Nat)) :
    (start config (.ofList subscribers)).Attended (.start subscribers) where
  state := rfl
  sound := Subscribers.Run.sound_start subscribers
  settled := Cache.settled_new config _
  owed _ := ⟨rfl, [], rfl, Bus.owes_subscribe (Bus.wellFormed_ofCapacity config.busCapacity)⟩
  ended := nofun

/-- What is put on the bus is owed to the forwarder. -/
theorem Attended.tells (h : w.Attended s) (ht : w.Tells w') : w'.Attended s := by
  obtain ⟨effects, hcache, hevents⟩ := ht
  exact
    { state := h.state.trans hcache.subscribers.symm
      sound := h.sound
      settled := hcache.settled h.settled
      owed := fun hforwarding ↦ by
        obtain ⟨hopen, ahead, hahead, howes⟩ := h.owed (hcache.forwarder ▸ hforwarding)
        refine ⟨hopen, ahead ++ Effect.events effects, ?_, ?_⟩
        · rw [hevents, hahead, List.append_assoc]
        · have hbus : w'.cache.bus = (Effect.events effects).foldl .publish w.cache.bus :=
            hcache.bus
          rw [hbus]
          exact howes.publishAll _
      ended := fun hended ↦ by
        have hsubscribers : w'.cache.subscribers = w.cache.subscribers := hcache.subscribers
        rw [hsubscribers]
        exact h.ended (hcache.forwarder ▸ hended) }

/-- A step of the subscribers that emits nothing and leaves the queues open or closed. -/
theorem Attended.serve (h : w.Attended s) {s' : Subscribers.Run} (effects : List Effect)
    (hsound : s'.Sound) (hstate : s'.state = w'.cache.subscribers)
    (hbus : w'.cache.bus = (Effect.events effects).foldl .publish w.cache.bus)
    (hevents : w'.events = w.events ++ Effect.events effects)
    (hforwarder : w'.cache.forwarder = w.cache.forwarder) (hsettled : w'.cache.Settled)
    (hclosed : s'.state.closed = s.state.closed) (hemitted : s'.emitted = s.emitted)
    (hended : s.state.allEnded = true → s'.state = s.state) : w'.Attended s' where
  state := hstate
  sound := hsound
  settled := hsettled
  owed hforwarding := by
    obtain ⟨hopen, ahead, hahead, howes⟩ := h.owed (hforwarder ▸ hforwarding)
    refine ⟨hclosed.trans hopen, ahead ++ Effect.events effects, ?_, hbus ▸ howes.publishAll _⟩
    rw [hevents, hahead, hemitted, List.append_assoc]
  ended he := by
    have hall := h.ended (hforwarder ▸ he)
    rw [← h.state] at hall
    rw [← hstate, hended hall]
    exact hall

theorem Attended.advanceSubscriber (h : w.Attended s) (j : Nat) :
    (w.act (.advanceSubscriber j)).Attended (s.act (.advance j)) := by
  refine h.serve [] (h.sound.act _) ?_ rfl (List.append_nil _).symm rfl
    ⟨h.settled.released, h.settled.reading, h.settled.finished⟩ ?_ ?_ fun hall ↦ ?_
  · rw [Subscribers.Run.act_advance, h.state]
    rfl
  · rw [Subscribers.Run.act_advance]
    exact s.state.closed_advance j
  · rw [Subscribers.Run.act_advance]
  · rw [Subscribers.Run.act_advance]
    exact Subscribers.advance_of_allEnded hall j

theorem Attended.completeSubscriber (h : w.Attended s) (j : Nat) (outcome : Outcome) :
    (w.act (.completeSubscriber j outcome)).Attended (s.act (.complete j outcome)) := by
  refine h.serve (s.state.complete j outcome).2 (h.sound.act _) ?_ ?_ ?_ rfl
    ⟨h.settled.released, h.settled.reading, h.settled.finished⟩ (s.state.closed_complete j outcome)
    rfl fun hall ↦ Subscribers.complete_of_allEnded hall j outcome
  · exact congrArg (fun subscribers ↦ (subscribers.complete j outcome).1) h.state
  · rw [h.state]
    rfl
  · rw [h.state]
    rfl

/-- The forwarder hands on what it finds. -/
theorem Attended.handOn (h : w.Attended s) (hforwarder : w.cache.forwarder = .forwarding)
    (hasking : w.asking = false) {e : RuntimeEvent} {bus : Bus RuntimeEvent}
    {rest : List RuntimeEvent}
    (hrecv : w.cache.bus.recv Cache.forwarderReceiver = (bus, .event e))
    (hevents : w.events = s.emitted ++ e :: rest) (howes : bus.Owes Cache.forwarderReceiver rest) :
    (w.act .forward).Attended (s.act (.emit e)) := by
  have hopen : s.state.closed = false := (h.owed hforwarder).1
  have hact : w.act .forward =
      w.take ({ w.cache with bus }.onSubscribers (w.cache.subscribers.emit e)) := by
    simp only [act, forward, hforwarder, hasking, Cache.readBus?, hrecv]
  have hemit : (s.act (.emit e)).state = (s.state.emit e).1 ∧
      (s.act (.emit e)).emitted = s.emitted ++ [e] := by
    simp [Subscribers.Run.act, hopen, Subscribers.Run.record]
  have hsame : (w.act .forward).events =
      (s.emitted ++ [e]) ++ (rest ++ Effect.events (w.cache.subscribers.emit e).2) := by
    rw [hact]
    show w.events ++ Effect.events (w.cache.subscribers.emit e).2 = _
    rw [hevents]
    simp
  exact
    { state := by rw [hemit.1, h.state, hact]; rfl
      sound := h.sound.act _
      settled := by
        rw [hact]
        exact ⟨h.settled.released, h.settled.reading, h.settled.finished⟩
      owed := fun _ ↦ by
        refine ⟨?_, _, hemit.2 ▸ hsame, hact ▸ howes.publishAll _⟩
        rw [hemit.1]
        exact hopen
      ended := fun hended ↦ by
        rw [hact] at hended
        exact absurd (hforwarder.symm.trans hended) (by decide) }

/-- The forwarder was released, and closes the queues. -/
theorem Attended.close (h : w.Attended s) (hforwarder : w.cache.forwarder = .forwarding)
    (hasking : w.asking = true) (hreleased : w.cache.released = true) :
    (w.act .forward).Attended (s.act .close) := by
  have hact : w.act .forward = { w.take
      ({ w.cache with forwarder := .draining }.onSubscribers w.cache.subscribers.close) with
      asking := false } := by
    simp [act, forward, hforwarder, hasking, Cache.endReading?, hreleased]
  rw [hact]
  exact
    { state := congrArg (fun subscribers ↦ (subscribers.close).1) h.state
      sound := h.sound.act _
      settled := by
        refine ⟨h.settled.released, fun _ ↦ hreleased, fun result hresult ↦ ?_⟩
        rw [h.settled.finished result hresult] at hforwarder
        cases hforwarder
      owed := fun hforwarding ↦ by cases hforwarding
      ended := fun hended ↦ by cases hended }

/-- The forwarder waits for the workers of the subscribers. -/
theorem Attended.drain (h : w.Attended s) (hforwarder : w.cache.forwarder = .draining) :
    (w.act .forward).Attended s := by
  cases hall : w.cache.subscribers.allEnded with
  | true =>
    have hact : w.act .forward =
        w.take ({ w.cache with forwarder := .ended }, [.wake .guards]) := by
      simp only [act, forward, Cache.forward, hforwarder, hall, if_true]
    have hreleased : w.cache.released = true := h.settled.reading (by rw [hforwarder]; decide)
    rw [hact]
    exact
      { state := h.state
        sound := h.sound
        settled := ⟨h.settled.released, fun _ ↦ hreleased, fun _ _ ↦ rfl⟩
        owed := fun hforwarding ↦ by cases hforwarding
        ended := fun _ ↦ hall }
  | false =>
    have hsame : w.act .forward = w := by
      simp [act, forward, Cache.forward, hforwarder, hall, take_nil]
    rw [hsame]
    exact h

/-- **The forwarder runs**, and has not fallen behind. -/
theorem Attended.forward (h : w.Attended s) (hw : ∀ count, w.finds? ≠ some (.lagged count)) :
    (w.act .forward).Attended (s.actAll (w.driven .forward)) := by
  rcases hforwarder : w.cache.forwarder with - | - | -
  · cases hasking : w.asking with
    | false =>
      obtain ⟨-, ahead, hahead, howes⟩ := h.owed hforwarder
      rcases hrecv : w.cache.bus.recv Cache.forwarderReceiver with ⟨bus, found⟩
      have hfinds : w.finds? = some found := by rw [finds?, if_pos ⟨hforwarder, hasking⟩, hrecv]
      obtain ⟨count, hlagged⟩ | ⟨e, rest, rfl, hevent, hrest⟩ | ⟨rfl, -, hnone⟩ := howes.recv
      · rw [hrecv] at hlagged
        exact absurd (hfinds.trans (congrArg some hlagged)) (hw count)
      · rw [hrecv] at hevent hrest
        obtain rfl : found = .event e := hevent
        have hdriven : w.driven .forward = [.emit e] := by simp only [driven, hfinds]
        rw [hdriven]
        exact h.handOn hforwarder hasking hrecv hahead hrest
      · -- the first of two looks
        rw [hrecv] at hnone
        have hdriven : w.driven .forward = [] := by
          rcases hnone with rfl | rfl <;> simp [driven, hfinds, closes, hasking]
        have hact : w.act .forward = { w with asking := true } := by
          rcases hnone with rfl | rfl <;>
            simp [act, Traffic.forward, hforwarder, hasking, Cache.readBus?, hrecv]
        rw [hdriven, hact]
        exact { h with }
    | true =>
      have hfinds : w.finds? = none := by simp [finds?, hasking]
      cases hreleased : w.cache.released with
      | true =>
        have hdriven : w.driven .forward = [.close] := by
          simp [driven, hfinds, closes, hforwarder, hasking, hreleased]
        rw [hdriven]
        exact h.close hforwarder hasking hreleased
      | false =>
        have hdriven : w.driven .forward = [] := by simp [driven, hfinds, closes, hreleased]
        have hact : w.act .forward = { w with asking := false } := by
          simp [act, Traffic.forward, hforwarder, hasking, Cache.endReading?, hreleased, take_nil]
        rw [hdriven, hact]
        exact { h with }
  · have hdriven : w.driven .forward = [] := by simp [driven, finds?, closes, hforwarder]
    rw [hdriven]
    exact h.drain hforwarder
  · have hdriven : w.driven .forward = [] := by simp [driven, finds?, closes, hforwarder]
    have hsame : w.act .forward = w := by
      simp [act, Traffic.forward, Cache.forward, hforwarder, take_nil]
    rw [hdriven, hsame]
    exact h

theorem Attended.act (h : w.Attended s) {a : Action}
    (ha : a.isForward → ∀ count, w.finds? ≠ some (.lagged count)) :
    (w.act a).Attended (s.actAll (w.driven a)) := by
  cases a with
  | forward => exact h.forward (ha rfl)
  | advanceSubscriber j => exact h.advanceSubscriber j
  | completeSubscriber j outcome => exact h.completeSubscriber j outcome
  | _ => exact h.tells (tells_act rfl)

/-! ### One subscriber -/

/-- A subscriber that missed nothing so far and was handed the events `given`. -/
structure Served (w : Traffic) (s : Subscribers.Run) (i : Nat) (given : List RuntimeEvent) :
    Prop extends Attended w s where
  present : (s.share? i).isSome
  unmissed : ∀ x ∈ s.dropped, x.1 ≠ i
  given_eq : s.handedTo i = given

variable {given : List RuntimeEvent}

/-- An event is emitted just when the forwarder finds it. -/
theorem driven_emit {a : Action} {before after : List Subscribers.Action} {e : RuntimeEvent}
    (h : w.driven a = before ++ .emit e :: after) :
    a = .forward ∧ w.finds? = some (.event e) ∧ before = [] := by
  cases a with
  | forward =>
    rw [driven] at h
    split at h
    · next e' hfinds =>
      rcases before with - | ⟨b, before⟩
      · cases h
        exact ⟨rfl, hfinds, rfl⟩
      · simp at h
    · split at h <;> rcases before with - | ⟨b, before⟩ <;> simp at h
  | _ => rcases before with - | ⟨b, before⟩ <;> simp [driven] at h

theorem handedTo_act (h : s.state = w.cache.subscribers) (a : Action) (i : Nat) :
    (s.actAll (w.driven a)).handedTo i = s.handedTo i ++ w.takenBy i a := by
  have hemit : ∀ e, (s.act (.emit e)).handed = s.handed := by
    intro e
    rw [Subscribers.Run.act]
    split <;> rfl
  cases a with
  | forward =>
    have hnone : w.takenBy i .forward = [] := rfl
    rw [hnone, List.append_nil, driven]
    split
    · rw [Subscribers.Run.actAll_cons, Subscribers.Run.actAll_nil, Subscribers.Run.handedTo, hemit,
        Subscribers.Run.handedTo]
    · split <;> rfl
  | advanceSubscriber j =>
    have hstep : (w.cache.advanceSubscriber j).2 = (s.state.advance j).2 := by
      rw [h]
      rfl
    rw [driven, Subscribers.Run.actAll_cons, Subscribers.Run.actAll_nil,
      Subscribers.Run.handedTo, Subscribers.Run.act_advance, List.filter_append, List.map_append,
      Subscribers.Run.handedTo, takenBy, hstep]
    congr 1
    rcases (s.state.advance j).2 with e | - | -
    · by_cases hj : j = i <;> simp [hj]
    · rfl
    · rfl
  | completeSubscriber j outcome => exact (List.append_nil _).symm
  | _ => exact (List.append_nil _).symm

theorem Served.act (h : w.Served s i given) {a : Action} (ha : a.isForward → w.Smooth i) :
    (w.act a).Served (s.actAll (w.driven a)) i (given ++ w.takenBy i a) where
  toAttended := h.toAttended.act fun hforward ↦ (ha hforward).keepsUp
  present := by
    rw [Subscribers.Run.share?_actAll, Option.isSome_map]
    exact h.present
  unmissed x hx := by
    obtain hold | ⟨before, e, after, hdriven, -, -, c, hc, hfull⟩ :=
      (Subscribers.Run.mem_dropped_actAll h.sound _ x).1 hx
    · exact h.unmissed x hold
    · -- there was room for what the forwarder found
      rintro rfl
      obtain ⟨rfl, hfinds, rfl⟩ := driven_emit hdriven
      rw [Subscribers.Run.actAll_nil, h.state] at hc
      have hroom := (ha rfl).roomy e hfinds c hc
      omega
  given_eq := by rw [handedTo_act h.state, h.given_eq]

theorem Served.actAll (h : w.Served s i given) {actions : List Action}
    (hu : w.Undisturbed i actions) :
    (w.actAll actions).Served (s.actAll (w.drivenAll actions)) i (given ++ w.taken i actions) := by
  induction actions generalizing w s given with
  | nil => simpa [drivenAll, taken] using h
  | cons a actions ih =>
    have hrest := ih (h.act hu.1) hu.2
    rw [List.append_assoc] at hrest
    rw [actAll_cons, drivenAll, Subscribers.Run.actAll, List.foldl_append]
    exact hrest

/-- When the forwarder has ended, the subscriber has handled all that was handed on. -/
theorem Served.of_ended (h : w.Served s i given) (hended : w.cache.forwarder = .ended) :
    given = s.emitted ∧
      ∃ c, w.cache.subscribers.channels[i]? = some c ∧ c.worker = .ended ∧ c.queue = [] := by
  obtain ⟨p, hp⟩ := Option.isSome_iff_exists.1 h.present
  have hall := h.ended hended
  have hdone := (Subscribers.Run.kept_of_allEnded hp (h.sound i p hp) (h.state ▸ hall)).1
  obtain ⟨c, hc, rfl⟩ := Option.map_eq_some_iff.1 hp
  have hnone : (s.dropped.filter (·.1 = i)).map (·.2) = [] := by
    rw [List.map_eq_nil_iff, List.filter_eq_nil_iff]
    exact fun x hx ↦ by simpa using h.unmissed x hx
  refine ⟨?_, c, h.state ▸ hc, Subscribers.isEnded_of_allEnded hall (h.state ▸ hc), ?_⟩
  · rw [← h.given_eq]
    refine hdone.trans ?_
    rw [Subscribers.Share.kept, hnone, Subscribers.without_nil]
  · have hworker := Subscribers.isEnded_of_allEnded hall (h.state ▸ hc)
    exact ((h.sound i _ hp).ended (by rw [hworker]; rfl)).2

/-! ### Runs in two parts -/

theorem undisturbed_append {before after : List Action} :
    w.Undisturbed i (before ++ after) ↔
      w.Undisturbed i before ∧ (w.actAll before).Undisturbed i after := by
  induction before generalizing w with
  | nil => exact (and_iff_right trivial).symm
  | cons a before ih => rw [List.cons_append, Undisturbed, ih, Undisturbed, and_assoc]; rfl

theorem drivenAll_append (w : Traffic) (before after : List Action) :
    w.drivenAll (before ++ after) = w.drivenAll before ++ (w.actAll before).drivenAll after := by
  induction before generalizing w with
  | nil => rfl
  | cons a before ih => rw [List.cons_append, drivenAll, ih, drivenAll, List.append_assoc]; rfl

/-- What was published stays so. -/
theorem events_actAll (w : Traffic) (actions : List Action) :
    w.events <+: (w.actAll actions).events := by
  refine actAll_of_step (P := fun w' ↦ w.events <+: w'.events) (fun w₁ _ w₂ hs h ↦ h.trans ?_)
    List.prefix_rfl actions
  cases hs with
  | moves hm =>
    obtain ⟨effects, -, hevents⟩ := hm.events
    exact hevents ▸ List.prefix_append _ _
  | enter => exact List.prefix_append _ _
  | request => exact List.prefix_append _ _
  | goOn => exact List.prefix_append _ _
  | _ => exact List.prefix_rfl

/-! ### The last look at the bus -/

/-- The forwarder, still reading, finds nothing on the bus. -/
structure LooksInVain (w : Traffic) : Prop where
  forwarder : w.cache.forwarder = .forwarding
  asking : w.asking = false
  nothing : w.cache.readBus? = none

theorem LooksInVain.act (h : w.LooksInVain) : w.act .forward = { w with asking := true } := by
  simp [Traffic.act, forward, h.forwarder, h.asking, h.nothing]

/-- That is how it comes to look next whether it may end. -/
theorem looksInVain_of_asking (hreads : w.cache.forwarder = .forwarding)
    (hasking : (w.act .forward).asking = true) : w.LooksInVain := by
  have hforward : w.forward.asking = true := hasking
  cases hbefore : w.asking with
  | true => simp [forward, hreads, hbefore] at hforward
  | false =>
    rcases hfound : w.cache.readBus? with - | result
    · exact ⟨hreads, hbefore, hfound⟩
    · simp [forward, hreads, hbefore, hfound, take] at hforward

/-- Then it has handed on all that was published. -/
theorem LooksInVain.emitted_eq (hv : w.LooksInVain) (h : w.Attended s) : s.emitted = w.events := by
  obtain ⟨-, ahead, hahead, howes⟩ := h.owed hv.forwarder
  have hnothing := hv.nothing
  have hrecv := howes.recv
  rw [Cache.readBus?] at hnothing
  generalize w.cache.bus.recv Cache.forwarderReceiver = received at hnothing hrecv
  obtain ⟨bus, found⟩ := received
  obtain ⟨count, hfound⟩ | ⟨e, rest, -, hfound, -⟩ | ⟨rfl, -, -⟩ := hrecv
  · obtain rfl : found = .lagged count := hfound
    cases hnothing
  · obtain rfl : found = .event e := hfound
    cases hnothing
  · rw [hahead, List.append_nil]

theorem LooksInVain.not_event (hv : w.LooksInVain) (e : RuntimeEvent) :
    w.finds? ≠ some (.event e) := by
  intro hfinds
  have hnothing := hv.nothing
  rw [finds?, if_pos ⟨hv.forwarder, hv.asking⟩, Option.some.injEq] at hfinds
  rw [Cache.readBus?] at hnothing
  generalize w.cache.bus.recv Cache.forwarderReceiver = received at hnothing hfinds
  obtain ⟨bus, found⟩ := received
  obtain rfl : found = .event e := hfinds
  cases hnothing

/-- No other action than its own changes where the forwarder stands. -/
theorem forwarder_act {a : Action} (ha : a ≠ .forward) :
    (w.act a).cache.forwarder = w.cache.forwarder := by
  cases haudience : a.isAudience with
  | false =>
    obtain ⟨effects, htells, -⟩ := tells_act (w := w) haudience
    exact htells.forwarder
  | true =>
    cases a with
    | forward => exact absurd rfl ha
    | advanceSubscriber j => rfl
    | completeSubscriber j outcome => rfl
    | _ => cases haudience

theorem asking_act {a : Action} (ha : a ≠ .forward) : (w.act a).asking = w.asking := by
  cases a with
  | forward => exact absurd rfl ha
  | proceed i =>
    rw [Traffic.act]
    split
    · next q _ =>
      obtain h | ⟨d, -, -, h⟩ | ⟨-, -, -, -, h⟩ | ⟨-, -, h⟩ := w.proceed_cases i q <;>
        rw [h] <;> rfl
    · rfl
  | react kind now signal =>
    show (w.react kind now signal).asking = _
    obtain ⟨-, h⟩ | ⟨d, -, -, h⟩ := w.react_cases kind now signal <;> rw [h] <;> rfl
  | goOn graceOver =>
    show (w.goOn graceOver).asking = _
    unfold goOn
    split <;> rfl
  | _ => rfl

/-- A forwarder that has stopped reading does not read again. -/
theorem forwarding_of_act {a : Action} (h : (w.act a).cache.forwarder = .forwarding) :
    w.cache.forwarder = .forwarding := by
  by_cases ha : a = .forward
  · subst ha
    rcases hforwarder : w.cache.forwarder with - | - | -
    · rfl
    · simp only [Traffic.act, forward, Cache.forward, hforwarder] at h
      split at h
      · cases h
      · exact absurd (hforwarder.symm.trans h) (by decide)
    · simp only [Traffic.act, forward, Cache.forward, hforwarder] at h
      exact absurd (hforwarder.symm.trans h) (by decide)
  · exact (forwarder_act ha).symm.trans h

/-- It stops reading when it looks whether it may end, and was released. -/
theorem closes_of_act {a : Action} (h : w.cache.forwarder = .forwarding)
    (hthen : (w.act a).cache.forwarder ≠ .forwarding) :
    a = .forward ∧ w.asking = true ∧ w.cache.released = true := by
  by_cases ha : a = .forward
  · subst ha
    refine ⟨rfl, ?_⟩
    simp only [Traffic.act, forward, h] at hthen
    cases hasking : w.asking with
    | false =>
      simp only [hasking] at hthen
      split at hthen
      · next result hread =>
        obtain ⟨bus, subscribers, hresult⟩ := w.cache.readBus?_frame hread
        exact absurd ((congrArg Cache.forwarder hresult).trans h) hthen
      · exact absurd h hthen
    | true =>
      refine ⟨rfl, ?_⟩
      by_contra hnot
      simp only [hasking, Cache.endReading?, if_neg hnot] at hthen
      exact hthen h
  · exact absurd ((forwarder_act ha).trans h) hthen

/-- A forwarder that is to look whether it may end has looked at the bus in vain before. -/
theorem exists_look {actions : List Action} (hstart : w.asking = false)
    (hreads : (w.actAll actions).cache.forwarder = .forwarding)
    (hasking : (w.actAll actions).asking = true) :
    ∃ polled between, actions = polled ++ .forward :: between ∧ .forward ∉ between ∧
      (w.actAll polled).LooksInVain := by
  induction actions using List.reverseRecOn with
  | nil => exact absurd hasking (by simp [hstart])
  | append_singleton actions a ih =>
    rw [actAll_append] at hreads hasking
    have hread := forwarding_of_act hreads
    by_cases ha : a = .forward
    · subst ha
      exact ⟨actions, [], rfl, List.not_mem_nil, looksInVain_of_asking hread hasking⟩
    · have hsame : (w.actAll actions).asking = true := (asking_act ha).symm.trans hasking
      obtain ⟨polled, between, rfl, hbetween, hvain⟩ := ih hread hsame
      refine ⟨polled, between ++ [a], by simp, ?_, hvain⟩
      simpa [hbetween] using Ne.symm ha

/-- **The last look at the bus.** A forwarder that has stopped reading looked at the bus in vain,
and at its next look it was released. -/
theorem exists_lastLook {actions : List Action} (hstart : w.asking = false)
    (hreads : w.cache.forwarder = .forwarding)
    (hclosed : (w.actAll actions).cache.forwarder ≠ .forwarding) :
    ∃ polled between after, actions = polled ++ .forward :: (between ++ .forward :: after) ∧
      .forward ∉ between ∧ (w.actAll polled).LooksInVain ∧
      (w.actAll (polled ++ .forward :: between)).cache.released = true ∧
      (w.actAll (polled ++ .forward :: (between ++ [.forward]))).cache.forwarder ≠ .forwarding := by
  obtain ⟨before, a, after, rfl, hbefore, hthen⟩ :=
    exists_turn (P := fun w : Traffic ↦ w.cache.forwarder ≠ .forwarding) (not_not.2 hreads) hclosed
  have hlast : ((w.actAll before).act a).cache.forwarder ≠ .forwarding := by
    rw [List.foldl_append] at hthen
    exact hthen
  obtain ⟨rfl, hasking, hreleased⟩ := closes_of_act (not_not.1 hbefore) hlast
  obtain ⟨polled, between, rfl, hbetween, hvain⟩ := exists_look hstart (not_not.1 hbefore) hasking
  have hsplit : polled ++ .forward :: (between ++ [.forward]) =
      (polled ++ .forward :: between) ++ [.forward] := by simp
  refine ⟨polled, between, after, by simp, hbetween, hvain, hreleased, ?_⟩
  rw [hsplit]
  exact hthen

/-! ### What is handed on after it -/

/-- An action hands nothing on if the forwarder finds no event. -/
theorem emitted_act {a : Action} (h : ∀ e, a = .forward → w.finds? ≠ some (.event e)) :
    (s.actAll (w.driven a)).emitted = s.emitted := by
  cases a with
  | forward =>
    rw [driven]
    split
    · next e hfinds => exact absurd hfinds (h e rfl)
    · split <;> rfl
  | advanceSubscriber j =>
    show (s.act (.advance j)).emitted = _
    rw [Subscribers.Run.act_advance]
  | _ => rfl

theorem asking_actAll {actions : List Action} (h : .forward ∉ actions) :
    (w.actAll actions).asking = w.asking := by
  induction actions generalizing w with
  | nil => rfl
  | cons a actions ih =>
    rw [List.mem_cons, not_or] at h
    exact (ih h.2).trans (asking_act (Ne.symm h.1))

theorem emitted_of_not_mem {actions : List Action} (h : .forward ∉ actions) :
    (s.actAll (w.drivenAll actions)).emitted = s.emitted := by
  induction actions generalizing w s with
  | nil => rfl
  | cons a actions ih =>
    rw [List.mem_cons, not_or] at h
    rw [drivenAll, Subscribers.Run.actAll, List.foldl_append]
    exact (ih h.2).trans (emitted_act fun _ ha ↦ absurd ha.symm h.1)

theorem emitted_of_closed (h : w.cache.forwarder ≠ .forwarding) (actions : List Action) :
    (s.actAll (w.drivenAll actions)).emitted = s.emitted := by
  induction actions generalizing w s with
  | nil => rfl
  | cons a actions ih =>
    have hnone : w.finds? = none := if_neg fun hreads ↦ h hreads.1
    rw [drivenAll, Subscribers.Run.actAll, List.foldl_append]
    exact (ih (mt forwarding_of_act h)).trans (emitted_act fun _ _ ↦ by rw [hnone]; exact nofun)

/-- Nothing is handed on after the last look at the bus. -/
theorem emitted_of_lastLook (hv : w.LooksInVain) {between : List Action}
    (hbetween : .forward ∉ between)
    (hclosed : (w.actAll (.forward :: (between ++ [.forward]))).cache.forwarder ≠ .forwarding)
    (after : List Action) :
    (s.actAll (w.drivenAll (.forward :: (between ++ .forward :: after)))).emitted = s.emitted := by
  have hasking : ((w.act .forward).actAll between).asking = true := by
    rw [hv.act]
    exact asking_actAll hbetween
  have hsecond : ((w.act .forward).actAll between).finds? = none := by
    rw [finds?, hasking]
    exact if_neg (by simp)
  rw [actAll_cons, actAll_append, actAll_cons, actAll_nil] at hclosed
  simp only [drivenAll, drivenAll_append, Subscribers.Run.actAll_append]
  rw [emitted_of_closed hclosed, emitted_act (by simp [hsecond]), emitted_of_not_mem hbetween,
    emitted_act fun e _ ↦ hv.not_event e]

/-! ### The moment of release -/

/-- Only the first call that shuts down brings a result. -/
theorem goOn_of_result {a : Action} (hnone : w.cache.shutdown.result?.isSome = false)
    (hsome : (w.act a).cache.shutdown.result?.isSome = true) :
    ∃ graceOver, a = .goOn graceOver := by
  have hs := step_act w a
  generalize w.act a = w' at hs hsome
  cases hs with
  | moves hm =>
    rw [hm.cache.shutdown, hnone] at hsome
    cases hsome
  | @request result _ _ hrequested =>
    have hnot : result.1.shutdown.result?.isSome = false := by rw [hrequested]; rfl
    cases hnot.symm.trans hsome
  | goOn => exact ⟨_, rfl⟩
  | _ => cases hnone.symm.trans hsome

/-- **The moment at which the forwarder is released** is a step of the shutdown. -/
theorem Served.exists_release (h : w.Served s i given) {actions : List Action}
    (hu : w.Undisturbed i actions) (hnot : w.cache.released = false)
    (hreleased : (w.actAll actions).cache.released = true) :
    ∃ before graceOver after, actions = before ++ .goOn graceOver :: after ∧
      (w.actAll before).cache.released = false ∧
      (w.actAll (before ++ [.goOn graceOver])).cache.released = true := by
  obtain ⟨before, a, after, rfl, hbefore, hthen⟩ :=
    exists_turn (P := fun w : Traffic ↦ w.cache.released = true) (by simp [hnot]) hreleased
  have hsplit : before ++ a :: after = (before ++ [a]) ++ after := by simp
  rw [hsplit] at hu
  have hu' := (undisturbed_append.1 hu).1
  have hsettled := (h.actAll (undisturbed_append.1 hu').1).settled
  have hfalse : (w.actAll before).cache.released = false := eq_false_of_ne_true hbefore
  obtain ⟨graceOver, rfl⟩ : ∃ graceOver, a = .goOn graceOver := by
    refine goOn_of_result (hsettled.released.symm.trans hfalse) ?_
    have hlast := (h.actAll hu').settled.released.symm.trans hthen
    rwa [actAll_append] at hlast
  exact ⟨before, graceOver, after, rfl, hfalse, hthen⟩

/-- As soon as the shutdown has a result, the request and the result have been reported. -/
theorem mem_events_of_result {config : Config} {subscribers : Subscribers}
    {actions more : List Action}
    (h : ((start config subscribers).actAll actions).cache.shutdown.result?.isSome = true)
    {e : RuntimeEvent} (he : e ∈ .shutdownRequested ::
      ((start config subscribers).actAll (actions ++ more)).cache.shutdown.report) :
    e ∈ ((start config subscribers).actAll actions).events := by
  have hreported := reported_actAll config subscribers actions
  rw [actAll_append] at he
  generalize (start config subscribers).actAll actions = w at h he hreported
  rcases List.mem_cons.1 he with rfl | he
  · have hstopped : w.cache.stopped = true := Cache.stopped_of_ne fun hs ↦ by
      rw [hs] at h
      cases h
    have hmem : .shutdownRequested ∈ w.published [.shutdownRequested] := by
      rw [hreported.requested, if_pos hstopped]
      exact List.mem_singleton_self _
    exact (List.mem_filter.1 hmem).1
  · obtain ⟨result, hresult⟩ := Option.isSome_iff_exists.1 h
    rw [Shutdown.report, result?_actAll hresult, ← hresult, ← Shutdown.report,
      ← hreported.outcome] at he
    exact (List.mem_filter.1 he).1

/-- A report of the result is among the events only if there is one. -/
theorem result_of_mem_events {config : Config} {subscribers : Subscribers} {actions : List Action}
    {shutdown : Shutdown} {e : RuntimeEvent} (he : e ∈ shutdown.report)
    (hmem : e ∈ ((start config subscribers).actAll actions).events) :
    ((start config subscribers).actAll actions).cache.shutdown.result?.isSome = true := by
  have htopic : [Topic.allStoppedWithin, .graceExceeded].contains e.topic = true := by
    rw [Shutdown.report] at he
    split at he
    · cases he
    · exact List.mem_singleton.1 he ▸ rfl
    · exact List.mem_singleton.1 he ▸ rfl
  have hpublished : e ∈ ((start config subscribers).actAll actions).published
      [.allStoppedWithin, .graceExceeded] := List.mem_filter.2 ⟨hmem, htopic⟩
  rw [(reported_actAll config subscribers actions).outcome, Shutdown.report] at hpublished
  split at hpublished
  · cases hpublished
  · next hresult => rw [hresult]; rfl
  · next hresult => rw [hresult]; rfl

/-- A subscriber is informed of a shutdown when it is handed, first and in their order, all events
that were published up to and in the step in which the forwarder is released, and the request to
shut down and the report of how it ended are among what it is handed. -/
def Informed (w : Traffic) (i : Nat) (actions : List Action) : Prop :=
  ∃ before graceOver after, actions = before ++ .goOn graceOver :: after ∧
    let released := w.actAll (before ++ [.goOn graceOver])
    (w.actAll before).cache.released = false ∧ released.cache.released = true ∧
    released.events <+: w.taken i actions ∧
    ∀ e ∈ .shutdownRequested :: (w.actAll actions).cache.shutdown.report, e ∈ w.taken i actions

/-- A subscriber is informed if what it is handed is all that was published up to some moment after
the release. -/
theorem Served.informed {config : Config} {subscribers : Subscribers}
    (h : (start config subscribers).Served s i given) {actions more : List Action}
    (hu : (start config subscribers).Undisturbed i actions)
    (hreleased : ((start config subscribers).actAll actions).cache.released = true)
    (htaken : (start config subscribers).taken i (actions ++ more) =
      ((start config subscribers).actAll actions).events) :
    (start config subscribers).Informed i (actions ++ more) := by
  have hsome := (h.actAll hu).settled.released.symm.trans hreleased
  obtain ⟨before, graceOver, after, rfl, hnot, hthen⟩ := h.exists_release hu rfl hreleased
  refine ⟨before, graceOver, after ++ more, by simp, hnot, hthen, ?_, fun e he ↦ ?_⟩
  · have hsplit : before ++ .goOn graceOver :: after = (before ++ [.goOn graceOver]) ++ after := by
      simp
    rw [htaken, hsplit, actAll_append _ (before ++ _)]
    exact events_actAll _ after
  · rw [htaken]
    exact mem_events_of_result hsome he

/-- **What reaches a subscriber across the shutdown.** Take any run of a cache in which the
forwarder never falls behind on the bus and the queue of a subscriber is never full when the
forwarder hands an event on. When the first call that shuts down has returned, there was a last look
of the forwarder at the bus, which found nothing, and

* the subscriber was handed all events that were published before that look, in their order and each
  once, and no other;
* at its next look the forwarder was released;
* the subscriber is informed of the shutdown just when the forwarder was released before the last
  look at the bus, and so if nothing comes between the two looks; otherwise it does not learn how
  the shutdown ended;
* it has handled what it was handed, and its worker has ended. -/
theorem events_reach_subscribers (config : Config) (subscribers : List (String × Nat))
    (actions : List Action) (i : Nat) (hi : i < subscribers.length)
    (hu : (start config (.ofList subscribers)).Undisturbed i actions)
    (hdone : ((start config (.ofList subscribers)).actAll actions).cache.shutdownResult?.isSome) :
    let w₀ := start config (.ofList subscribers)
    let w := w₀.actAll actions
    ∃ polled between after, actions = polled ++ .forward :: (between ++ .forward :: after) ∧
      .forward ∉ between ∧
      w₀.taken i actions = (w₀.actAll polled).events ∧ w₀.taken i actions <+: w.events ∧
      (w₀.actAll (polled ++ .forward :: between)).cache.released = true ∧
      (w₀.Informed i actions ↔ (w₀.actAll polled).cache.released = true) ∧
      (between = [] → w₀.Informed i actions) ∧
      (∀ e ∈ w.cache.shutdown.report,
        e ∈ w₀.taken i actions ↔ (w₀.actAll polled).cache.released = true) ∧
      ∃ c, w.cache.subscribers.channels[i]? = some c ∧ c.worker = .ended ∧ c.queue = [] := by
  intro w₀ w
  have hstart : w₀.Served (.start subscribers) i [] :=
    { attended_start config subscribers with
      present := by
        rw [Subscribers.Run.share?_start, List.getElem?_eq_getElem hi]
        rfl
      unmissed := nofun
      given_eq := rfl }
  obtain ⟨result, hresult⟩ : ∃ result, w.cache.shutdown = .finished result := by
    cases hs : w.cache.shutdown with
    | finished result => exact ⟨result, rfl⟩
    | _ =>
      rw [Cache.shutdownResult?, hs] at hdone
      cases hdone
  have hend := hstart.actAll hu
  have hended : w.cache.forwarder = .ended := hend.settled.finished result hresult
  obtain ⟨hgiven, hworker⟩ := hend.of_ended hended
  obtain ⟨polled, between, after, rfl, hbetween, hvain, hreleased, hclosed⟩ :=
    exists_lastLook (w := w₀) rfl rfl (show w.cache.forwarder ≠ .forwarding by rw [hended]; decide)
  have hu' := (undisturbed_append.1 hu).1
  have hpolled := hstart.actAll hu'
  have htaken : w₀.taken i (polled ++ .forward :: (between ++ .forward :: after)) =
      (w₀.actAll polled).events := by
    rw [actAll_append] at hclosed
    rw [← hvain.emitted_eq hpolled.toAttended, ← emitted_of_lastLook hvain hbetween hclosed after,
      ← Subscribers.Run.actAll_append, ← drivenAll_append, ← hgiven, List.nil_append]
  have hreport : ∀ e ∈ w.cache.shutdown.report,
      (e ∈ w₀.taken i (polled ++ .forward :: (between ++ .forward :: after)) ↔
        (w₀.actAll polled).cache.released = true) := by
    intro e he
    rw [htaken, hpolled.settled.released]
    exact ⟨result_of_mem_events he, fun hsome ↦ mem_events_of_result hsome (.tail _ he)⟩
  have hinformed : w₀.Informed i (polled ++ .forward :: (between ++ .forward :: after)) ↔
      (w₀.actAll polled).cache.released = true := by
    constructor
    · rintro ⟨-, -, -, -, -, -, -, hall⟩
      obtain ⟨e, he⟩ := Shutdown.exists_report (s := w.cache.shutdown) (by rw [hresult]; rfl)
      exact (hreport e he).1 (hall e (.tail _ he))
    · exact fun hbefore ↦ hstart.informed hu' hbefore htaken
  refine ⟨polled, between, after, rfl, hbetween, htaken, ?_, hreleased, hinformed, ?_, hreport,
    hworker⟩
  · have hrun : w = (w₀.actAll polled).actAll (.forward :: (between ++ .forward :: after)) :=
      actAll_append ..
    rw [htaken, hrun]
    exact events_actAll _ _
  · rintro rfl
    rw [actAll_append, actAll_cons, hvain.act] at hreleased
    exact hinformed.2 hreleased

/-- A cache with one subscriber, which has room for three events. -/
def logged : Traffic := start {} (.ofList [("log", 3)])

/-- A source reports, and the subscriber handles that while the cache shuts down. -/
def loggedShutdown : List Action :=
  [.announce (Resource.kind ConfigMap) "s", .forward, .advanceSubscriber 0, .shutdown, .goOn false,
    .goOn false, .goOn false, .completeSubscriber 0 .returned, .forward, .forward, .forward,
    .forward, .advanceSubscriber 0, .completeSubscriber 0 .returned, .advanceSubscriber 0,
    .completeSubscriber 0 .returned, .advanceSubscriber 0, .forward, .goOn false]

/-- The three events that there are reach the subscriber, and it is informed of the shutdown. -/
theorem events_reach_subscribers_of_shutdown :
    (logged.actAll loggedShutdown).cache.shutdownResult?.isSome ∧
      logged.Informed 0 loggedShutdown ∧ (logged.taken 0 loggedShutdown).length = 3 := by
  have hdone : (logged.actAll loggedShutdown).cache.shutdownResult?.isSome ∧
      (logged.actAll loggedShutdown).cache.shutdown.report = [.allStoppedWithin] ∧
      .allStoppedWithin ∈ logged.taken 0 loggedShutdown ∧
      (logged.taken 0 loggedShutdown).length = 3 := by decide +kernel
  obtain ⟨polled, between, after, -, -, -, -, -, hinformed, -, hreport, -⟩ :=
    events_reach_subscribers {} [("log", 3)] loggedShutdown 0 (by decide) (by decide +kernel)
      hdone.1
  have hreleased := (hreport .allStoppedWithin (hdone.2.1 ▸ List.mem_singleton_self _)).1
    hdone.2.2.1
  exact ⟨hdone.1, hinformed.2 hreleased, hdone.2.2.2⟩

/-- The forwarder has found nothing on the bus when the shutdown reports its result and releases it,
and closes the queues at its next look. -/
def overtakenShutdown : List Action :=
  [.shutdown, .goOn false, .goOn false, .forward, .forward, .goOn false, .forward,
    .advanceSubscriber 0, .completeSubscriber 0 .returned, .advanceSubscriber 0, .forward,
    .goOn false]

/-- **The subscriber is not informed of every shutdown**, though the forwarder never falls behind
and there is always room in the queue. -/
theorem not_informed_of_overtaking :
    ¬ ∀ (config : Config) (subscribers : List (String × Nat)) (actions : List Action) (i : Nat),
      i < subscribers.length → (start config (.ofList subscribers)).Undisturbed i actions →
      ((start config (.ofList subscribers)).actAll actions).cache.shutdownResult?.isSome →
      (start config (.ofList subscribers)).Informed i actions := by
  intro h
  have hdone : (logged.actAll overtakenShutdown).cache.shutdownResult?.isSome ∧
      (logged.actAll overtakenShutdown).cache.shutdown.report = [.allStoppedWithin] ∧
      logged.taken 0 overtakenShutdown = [.shutdownRequested] := by decide +kernel
  obtain ⟨-, -, -, -, -, -, -, hall⟩ :=
    h {} [("log", 3)] overtakenShutdown 0 (by decide) (by decide +kernel) hdone.1
  have hmem : .allStoppedWithin ∈ logged.taken 0 overtakenShutdown :=
    hall _ (.tail _ (hdone.2.1 ▸ List.mem_singleton_self _))
  rw [hdone.2.2] at hmem
  cases List.mem_singleton.1 hmem

end Traffic

end Informer
