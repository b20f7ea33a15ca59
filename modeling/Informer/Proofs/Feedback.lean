import Mathlib.Algebra.BigOperators.Group.List.Basic
import Mathlib.Algebra.GroupWithZero.Nat
import Informer.Cache
import Informer.Proofs.BusView
import Informer.Proofs.SubscriberRun

/-!
# What subscribers do to the bus they are fed from

Overflows and panics of subscribers are reported on the bus, and the forwarder hands the reports to
the same subscribers. `Loop` is that loop under any schedule, with events that come from outside at
any time. How the handling of an event ends is a function of the subscriber and of the event.

A missed report of a missed event is not reported again. There is no such rule for panics: a
subscriber that panics on reports of panics answers each of its own reports with another one
(`panics_without_end`), and one with a full queue that panics on reports of missed events goes on
with its own panics and what it misses of them (`overflows_without_end`). Without panics on reports
of either kind the loop comes to rest (`comes_to_rest`): every event has a load, which bounds all
that can still happen on its account, and no step of the loop raises the load that is left together
with the number of steps made.
-/

namespace Informer

/-- Whether an event reports what a subscriber missed or that it panicked. -/
def RuntimeEvent.isReport (e : RuntimeEvent) : Bool :=
  e.topic = .subscriberOverflow || e.topic = .subscriberPanicked

/-- The loop from the bus through the forwarder and the subscribers to the bus. -/
structure Loop where
  cache : Cache
  /-- What was published from outside. -/
  outside : List RuntimeEvent := []
  /-- What was published in response, by the forwarder and the workers. -/
  responses : List RuntimeEvent := []
  /-- The number of steps in which something was read, taken or finished. -/
  turns : Nat := 0

namespace Loop

/-- What can happen in the loop. -/
inductive Action where
  /-- An event comes from outside. -/
  | publish (e : RuntimeEvent)
  /-- The forwarder runs. -/
  | forward
  /-- The worker of a subscriber runs while it is idle. -/
  | advance (i : Nat)
  /-- The handling that a subscriber is busy with ends. -/
  | complete (i : Nat)

/-- The event that an action brings from outside. -/
def Action.event? : Action → Option RuntimeEvent
  | .publish e => some e
  | _ => none

section Steps

variable (ends : Nat → RuntimeEvent → Outcome) (s : Loop)

/-- One action. -/
def act : Action → Loop
  | .publish e =>
    { s with cache := (s.cache.emit [.publish e]).1, outside := s.outside ++ [e] }
  | .forward => match s.cache.forward with
    | (cache, effects, goesOn) =>
      { s with
        cache
        responses := s.responses ++ Effect.events effects
        turns := if goesOn then s.turns + 1 else s.turns }
  | .advance i => match s.cache.advanceSubscriber i with
    | (cache, .took _) => { s with cache, turns := s.turns + 1 }
    | (cache, _) => { s with cache }
  | .complete i => match s.cache.subscribers.handling? i with
    | none => s
    | some e => match s.cache.completeSubscriber i (ends i e) with
      | (cache, effects) =>
        { s with
          cache
          responses := s.responses ++ Effect.events effects
          turns := s.turns + 1 }

/-- Some actions, one after another. -/
def actAll (actions : List Action) : Loop := actions.foldl (act ends) s

@[simp] theorem actAll_nil : s.actAll ends [] = s := rfl

@[simp] theorem actAll_cons (a : Action) (actions : List Action) :
    s.actAll ends (a :: actions) = (s.act ends a).actAll ends actions :=
  rfl

@[simp] theorem actAll_append (before after : List Action) :
    s.actAll ends (before ++ after) = (s.actAll ends before).actAll ends after :=
  List.foldl_append

end Steps

/-- A cache with these subscribers, before anything happened. -/
def start (config : Config) (subscribers : List (String × Nat)) : Loop where
  cache := .new config (.ofList subscribers)

/-- The subscribers. -/
def channels (s : Loop) : List Subscriber := s.cache.subscribers.channels

/-- What is on the bus for the forwarder. -/
def Sees (s : Loop) (v : Bus.View RuntimeEvent) : Prop :=
  s.cache.bus.view? Cache.forwarderReceiver = some v

/-- There is nothing to do in the loop. -/
def Resting (s : Loop) : Prop :=
  s.Sees {} ∧ ∀ c ∈ s.channels, c.queue = [] ∧ c.worker.item? = none

/-! ### What single steps do -/

/-- The forwarder works, and it will. -/
structure Open (s : Loop) : Prop where
  forwarding : s.cache.forwarder = .forwarding
  held : s.cache.released = false
  fed : s.cache.subscribers.closed = false
  running : ∀ c ∈ s.channels, c.worker.isEnded = false
  wellFormed : s.cache.bus.WellFormed
  receives : ∃ v, s.Sees v

/-- A step that makes something of the bus and the subscribers, and publishes events in response. -/
def turn (s : Loop) (bus : Bus RuntimeEvent) (subscribers : Subscribers)
    (reports : List RuntimeEvent) : Loop :=
  { s with
    cache := { s.cache with bus := reports.foldl .publish bus, subscribers }
    responses := s.responses ++ reports
    turns := s.turns + 1 }

variable {ends : Nat → RuntimeEvent → Outcome} {s : Loop} {v : Bus.View RuntimeEvent}

variable (ends) in
/-- The forwarder is told what it missed, or it hands on the first event on the bus, or there is
nothing for it. -/
theorem forward_cases (h : s.Open) (hv : s.Sees v) :
    (∃ bus : Bus RuntimeEvent, 0 < v.lost ∧ bus.WellFormed ∧
      bus.view? Cache.forwarderReceiver = some { pending := v.pending } ∧
      s.act ends .forward = s.turn bus s.cache.subscribers []) ∨
    (∃ (bus : Bus RuntimeEvent) (e : RuntimeEvent) (rest : List RuntimeEvent),
      v.lost = 0 ∧ v.pending = e :: rest ∧ bus.WellFormed ∧
      bus.view? Cache.forwarderReceiver = some { pending := rest } ∧
      s.act ends .forward = s.turn bus (s.cache.subscribers.emit e).1
        (s.channels.filterMap (Subscribers.overflowReport? e))) ∨
    (v = {} ∧ s.act ends .forward = s) := by
  rcases Bus.recv_cases h.wellFormed hv with
    ⟨position, hlost, hle, hrecv, hview⟩ | ⟨position, e, rest, hlost, hpending, hle, hrecv, hview⟩ |
    ⟨hlost, hpending, hrecv⟩
  · refine .inl ⟨_, hlost, h.wellFormed.moveTo _ hle, hview, ?_⟩
    simp [act, Cache.forward, h.forwarding, Cache.readBus?, hrecv, turn]
  · refine .inr (.inl ⟨_, e, rest, hlost, hpending, h.wellFormed.moveTo _ hle, hview, ?_⟩)
    simp [act, Cache.forward, h.forwarding, Cache.readBus?, hrecv, turn, Cache.onSubscribers,
      Cache.emit, Subscribers.events_emit, channels]
  · refine .inr (.inr ⟨?_, ?_⟩)
    · cases v
      simp_all
    · cases hclosed : s.cache.bus.closed <;>
        simp [act, Cache.forward, h.forwarding, Cache.readBus?, Cache.endReading?, hrecv, hclosed,
          h.held]

variable (ends) in
/-- A worker takes the next event, or there is nothing for it. -/
theorem advance_cases (h : s.Open) (i : Nat) :
    (∃ c e rest, s.channels[i]? = some c ∧ c.worker = .idle ∧ c.queue = e :: rest ∧
      s.act ends (.advance i) = s.turn s.cache.bus (s.cache.subscribers.modify i .take) []) ∨
    ((∀ c, s.channels[i]? = some c → c.worker = .idle → c.queue = []) ∧
      s.act ends (.advance i) = s) := by
  rcases Subscribers.advance_cases s.cache.subscribers i with
    ⟨c, e, rest, hc, hw, hq, ha⟩ | ⟨c, -, -, -, hclosed, -⟩ | ⟨hidle, step, ha, hstep⟩
  · refine .inl ⟨c, e, rest, hc, hw, hq, ?_⟩
    simp [act, Cache.advanceSubscriber, ha, turn]
  · rw [h.fed] at hclosed
    cases hclosed
  · refine .inr ⟨fun c hc hw ↦ (hidle c hc hw).1, ?_⟩
    simp only [act, Cache.advanceSubscriber, ha]

/-- What is published when a handling ends. -/
def panicReports (name : String) : Outcome → List RuntimeEvent
  | .panicked reason => [.subscriberPanicked name reason]
  | .returned => []

variable (ends s) in
/-- The handling that a subscriber is busy with ends, or it is not busy. -/
theorem complete_cases (i : Nat) :
    (∃ c e, s.channels[i]? = some c ∧ c.worker = .busy e ∧
      s.act ends (.complete i) = s.turn s.cache.bus (s.cache.subscribers.modify i .rest)
        (panicReports c.name (ends i e))) ∨
    ((∀ c, s.channels[i]? = some c → c.worker.item? = none) ∧ s.act ends (.complete i) = s) := by
  rcases hhandling : s.cache.subscribers.handling? i with - | e
  · refine .inr ⟨fun c hc ↦ ?_, by simp [act, hhandling]⟩
    rw [Subscribers.handling?] at hhandling
    exact Option.bind_eq_none_iff.1 hhandling c hc
  · obtain ⟨c, hc, hitem⟩ := Option.bind_eq_some_iff.1 hhandling
    have hw : c.worker = .busy e := by
      cases hw : c.worker <;> simp_all [Worker.item?]
    refine .inl ⟨c, e, hc, hw, ?_⟩
    cases houtcome : ends i e <;>
      simp [act, hhandling, Cache.completeSubscriber, Cache.onSubscribers, Cache.emit,
        Subscribers.complete, hc, hw, houtcome, turn, panicReports, Effect.events, Effect.event?]

/-- Publishing keeps a bus well-formed, and a receiver on it. -/
theorem foldl_publish {bus : Bus RuntimeEvent} (h : bus.WellFormed)
    (hv : bus.view? Cache.forwarderReceiver = some v) (events : List RuntimeEvent) :
    (events.foldl .publish bus).WellFormed ∧
      ∃ v', (events.foldl .publish bus).view? Cache.forwarderReceiver = some v' := by
  induction events generalizing bus v with
  | nil => exact ⟨h, v, hv⟩
  | cons e events ih => exact ih (h.publish e) (Bus.view?_publish h hv e)

/-- What a change of one subscriber leaves of all. -/
theorem running_modify {cs : List Subscriber} (h : ∀ c ∈ cs, c.worker.isEnded = false) {i : Nat}
    {c : Subscriber} {g : Subscriber → Subscriber} (hc : cs[i]? = some c)
    (hg : (g c).worker.isEnded = false) : ∀ d ∈ cs.modify i g, d.worker.isEnded = false := by
  intro d hd
  obtain ⟨j, hj⟩ := List.getElem?_of_mem hd
  rw [List.getElem?_modify] at hj
  obtain ⟨x, hx, rfl⟩ := Option.map_eq_some_iff.1 hj
  by_cases hij : i = j
  · subst hij
    obtain rfl : x = c := Option.some.inj (hx.symm.trans hc)
    simpa using hg
  · simpa [hij] using h x (List.mem_of_getElem? hx)

theorem Open.turn (h : s.Open) {bus : Bus RuntimeEvent} {subscribers : Subscribers}
    (hbus : bus.WellFormed) (hv : bus.view? Cache.forwarderReceiver = some v)
    (hfed : subscribers.closed = s.cache.subscribers.closed)
    (hrun : ∀ c ∈ subscribers.channels, c.worker.isEnded = false) (reports : List RuntimeEvent) :
    (s.turn bus subscribers reports).Open where
  forwarding := h.forwarding
  held := h.held
  fed := hfed.trans h.fed
  running := hrun
  wellFormed := (foldl_publish hbus hv reports).1
  receives := (foldl_publish hbus hv reports).2

theorem Open.act (h : s.Open) (a : Action) : (s.act ends a).Open := by
  obtain ⟨v, hv⟩ := h.receives
  cases a with
  | publish e =>
    exact { h with
      wellFormed := h.wellFormed.publish e
      receives := ⟨_, Bus.view?_publish h.wellFormed hv e⟩ }
  | forward =>
    rcases forward_cases ends h hv with
      ⟨bus, -, hbus, hview, ha⟩ | ⟨bus, e, rest, -, -, hbus, hview, ha⟩ | ⟨-, ha⟩
    · rw [ha]
      exact h.turn hbus hview rfl h.running []
    · rw [ha]
      refine h.turn hbus hview ?_ (fun c hc ↦ ?_) _
      · rfl
      · obtain ⟨d, hd, rfl⟩ := List.mem_map.1 hc
        rw [Subscribers.offer_worker]
        exact h.running d hd
    · rwa [ha]
  | advance i =>
    rcases advance_cases ends h i with ⟨c, e, rest, hc, hw, hq, ha⟩ | ⟨-, ha⟩
    · rw [ha]
      refine h.turn h.wellFormed hv ?_ (running_modify h.running hc ?_) []
      · rfl
      · simp [Subscriber.take, hw, hq, Worker.isEnded]
    · rwa [ha]
  | complete i =>
    rcases complete_cases ends s i with ⟨c, e, hc, hw, ha⟩ | ⟨-, ha⟩
    · rw [ha]
      refine h.turn h.wellFormed hv ?_ (running_modify h.running hc ?_) _
      · rfl
      · simp [Subscriber.rest, hw, Worker.isEnded]
    · rwa [ha]

theorem sees_start (config : Config) (subscribers : List (String × Nat)) :
    (start config subscribers).Sees {} :=
  Bus.view?_subscribe (Bus.wellFormed_ofCapacity _)

theorem open_start (config : Config) (subscribers : List (String × Nat)) :
    (start config subscribers).Open where
  forwarding := rfl
  held := rfl
  fed := rfl
  running c hc := by
    obtain ⟨x, -, rfl⟩ := List.mem_map.1 hc
    rfl
  wellFormed := (Bus.wellFormed_ofCapacity _).subscribe
  receives := ⟨{}, sees_start config subscribers⟩

theorem Open.actAll (h : s.Open) (actions : List Action) : (s.actAll ends actions).Open := by
  induction actions generalizing s with
  | nil => exact h
  | cons a actions ih => exact ih (h.act a)

/-! ### Loads

With `n` subscribers: how many steps and responses an event can still lead to, as it gets on. -/

/-- The load of a report of a missed event that is on the bus: every subscriber may take and handle
it. -/
def overflowReach (n : Nat) : Nat := 1 + n * 2

/-- The load of a report of a panic that is on the bus: every subscriber may miss it. -/
def panicReach (n : Nat) : Nat := 1 + n * (1 + overflowReach n)

/-- The load of an event that is on the bus: every subscriber may panic on it. -/
def reach (n : Nat) : Nat := 1 + n * (3 + panicReach n)

/-- The load of an event that a subscriber is handling. -/
def handling (n : Nat) (e : RuntimeEvent) : Nat := if e.isReport then 1 else 2 + panicReach n

/-- The load of an event that waits for a subscriber. -/
def waiting (n : Nat) (e : RuntimeEvent) : Nat := 1 + handling n e

/-- What the load of an event can become for one subscriber. -/
def offering (n : Nat) (e : RuntimeEvent) : Nat :=
  match e.topic with
  | .subscriberOverflow => 2
  | .subscriberPanicked => 1 + overflowReach n
  | _ => 3 + panicReach n

/-- The load of an event that is on the bus. -/
def arriving (n : Nat) (e : RuntimeEvent) : Nat := 1 + n * offering n e

/-- The load of what is on the bus: to be told of what was lost is a step. -/
def busLoad (n : Nat) (v : Bus.View RuntimeEvent) : Nat := v.lost + (v.pending.map (arriving n)).sum

/-- The load of what a subscriber has. -/
def channelLoad (n : Nat) (c : Subscriber) : Nat :=
  (c.queue.map (waiting n)).sum + (c.worker.item?.toList.map (handling n)).sum

/-- The load of all that is in the loop. -/
def load (n : Nat) (s : Loop) : Nat :=
  busLoad n ((s.cache.bus.view? Cache.forwarderReceiver).getD {}) +
    (s.channels.map (channelLoad n)).sum

/-- What was done, and what may still be. -/
def cost (n : Nat) (s : Loop) : Nat := s.responses.length + s.turns + load n s

theorem offering_le (n : Nat) (e : RuntimeEvent) : offering n e ≤ 3 + panicReach n := by
  have hle : overflowReach n ≤ panicReach n :=
    Nat.add_le_add_left (Nat.mul_le_mul_left n (by simp only [overflowReach]; omega)) 1
  unfold offering
  split <;> omega

theorem arriving_le (n : Nat) (e : RuntimeEvent) : arriving n e ≤ reach n :=
  Nat.add_le_add_left (Nat.mul_le_mul_left n (offering_le n e)) 1

/-- Losing an event makes no load. -/
theorem busLoad_drop (n k lost : Nat) (events : List RuntimeEvent) (hk : k ≤ events.length) :
    busLoad n { lost := lost + k, pending := events.drop k } ≤
      busLoad n { lost, pending := events } := by
  induction k generalizing lost events with
  | zero => exact Nat.le_refl _
  | succ k ih =>
    rcases events with - | ⟨e, events⟩
    · cases hk
    · have hrest := ih (lost + 1) events (Nat.le_of_succ_le_succ hk)
      have hone : 1 ≤ arriving n e := Nat.le_add_right 1 _
      have hshift : lost + (k + 1) = lost + 1 + k := by omega
      simp only [busLoad, List.drop_succ_cons, List.map_cons, List.sum_cons, hshift] at hrest ⊢
      omega

theorem busLoad_publish (n : Nat) {bus : Bus RuntimeEvent} (h : bus.WellFormed)
    (hv : bus.view? Cache.forwarderReceiver = some v) (events : List RuntimeEvent) :
    busLoad n (((events.foldl .publish bus).view? Cache.forwarderReceiver).getD {}) ≤
      busLoad n v + (events.map (arriving n)).sum := by
  induction events generalizing bus v with
  | nil => simp [hv]
  | cons e events ih =>
    have hroomy := h.roomy
    have hdrop := busLoad_drop n (v.pending.length + 1 - bus.capacity) v.lost (v.pending ++ [e])
      (by simp)
    have hconcat : busLoad n { lost := v.lost, pending := v.pending ++ [e] } =
        busLoad n v + arriving n e := by
      simp [busLoad, Nat.add_assoc]
    have hrest := ih (h.publish e) (Bus.view?_publish h hv e)
    rw [List.foldl_cons, List.map_cons, List.sum_cons]
    omega

/-- Offering an event to a subscriber, with the report if it is missed. -/
theorem channelLoad_offer (n : Nat) (e : RuntimeEvent) (c : Subscriber) :
    channelLoad n (c.offer e) +
        ((Subscribers.overflowReport? e c).toList.map fun r ↦ 1 + arriving n r).sum ≤
      channelLoad n c + offering n e := by
  have hreport : ∀ reason, 1 + arriving n (.subscriberOverflow c.name reason) =
      1 + overflowReach n :=
    fun _ ↦ rfl
  rcases hr : c.refusal? with - | reason
  · have hqueued : c.offer e = { c with queue := c.queue ++ [e] } := by simp [Subscriber.offer, hr]
    have hnone : Subscribers.overflowReport? e c = none := by simp [Subscribers.overflowReport?, hr]
    have hle : waiting n e ≤ offering n e := by
      unfold waiting handling offering
      cases htopic : e.topic <;> simp [RuntimeEvent.isReport, htopic, overflowReach] <;> omega
    rw [hqueued, hnone]
    simp only [channelLoad, List.map_append, List.sum_append, List.map_cons, List.map_nil,
      List.sum_cons, List.sum_nil, Option.toList_none]
    omega
  · have hsame : c.offer e = c := by simp [Subscriber.offer, hr]
    rw [hsame]
    by_cases ho : e.isOverflow = true
    · simp [Subscribers.overflowReport?, hr, ho]
    · have hle : 1 + overflowReach n ≤ offering n e := by
        have hle := Nat.mul_le_mul_left n (show 2 ≤ 1 + overflowReach n by
          simp only [overflowReach]; omega)
        unfold offering
        split
        · next htopic => simp [RuntimeEvent.isOverflow, htopic] at ho
        · exact Nat.le_refl _
        · simp only [panicReach, overflowReach] at hle ⊢
          omega
      simp only [Subscribers.overflowReport?, hr, Option.bind_some, ho, Bool.false_eq_true,
        if_false, Option.toList_some, List.map_cons, List.map_nil, List.sum_cons, List.sum_nil,
        hreport]
      omega

theorem sum_channelLoad_emit (n : Nat) (e : RuntimeEvent) (cs : List Subscriber) :
    ((cs.map (·.offer e)).map (channelLoad n)).sum +
        ((cs.filterMap (Subscribers.overflowReport? e)).map fun r ↦ 1 + arriving n r).sum ≤
      (cs.map (channelLoad n)).sum + cs.length * offering n e := by
  induction cs with
  | nil => simp
  | cons c cs ih =>
    have hone := channelLoad_offer n e c
    have hsplit : (c :: cs).filterMap (Subscribers.overflowReport? e) =
        (Subscribers.overflowReport? e c).toList ++
          cs.filterMap (Subscribers.overflowReport? e) := by
      cases hr : Subscribers.overflowReport? e c <;> simp [hr]
    rw [hsplit]
    simp only [List.map_cons, List.sum_cons, List.map_append, List.sum_append, List.length_cons,
      Nat.succ_mul]
    omega

theorem sum_map_modify {α : Type} (f : α → Nat) (g : α → α) {xs : List α} {i : Nat} {x : α}
    (h : xs[i]? = some x) :
    ((xs.modify i g).map f).sum + f x = (xs.map f).sum + f (g x) := by
  induction xs generalizing i with
  | nil => cases h
  | cons y ys ih =>
    rcases i with - | i
    · obtain rfl := Option.some.inj h
      simp only [List.modify_zero_cons, List.map_cons, List.sum_cons]
      omega
    · have hrest := ih h
      simp only [List.modify_succ_cons, List.map_cons, List.sum_cons]
      omega

/-! ### The cost of a step -/

variable {n : Nat}

/-- A step that lowers the load by what it publishes and by one does not raise the cost. -/
theorem cost_turn (hv : s.Sees v) {bus : Bus RuntimeEvent} {v' : Bus.View RuntimeEvent}
    {subscribers : Subscribers} {reports : List RuntimeEvent} (hbus : bus.WellFormed)
    (hview : bus.view? Cache.forwarderReceiver = some v')
    (hload : busLoad n v' + (subscribers.channels.map (channelLoad n)).sum +
        (reports.map fun r ↦ 1 + arriving n r).sum + 1 ≤
      busLoad n v + (s.channels.map (channelLoad n)).sum) :
    cost n (s.turn bus subscribers reports) ≤ cost n s := by
  have hpublish := busLoad_publish n hbus hview reports
  have hsum : (reports.map fun r ↦ 1 + arriving n r).sum =
      reports.length + (reports.map (arriving n)).sum := by
    simp [List.sum_map_add]
  have hnow : load n s = busLoad n v + (s.channels.map (channelLoad n)).sum := by
    rw [load, hv, Option.getD_some]
  have hnext : load n (s.turn bus subscribers reports) =
      busLoad n (((reports.foldl .publish bus).view? Cache.forwarderReceiver).getD {}) +
        (subscribers.channels.map (channelLoad n)).sum :=
    rfl
  simp only [cost, hnow, hnext]
  simp only [turn, List.length_append]
  omega

/-- No subscriber panics on reports. -/
def Calm (ends : Nat → RuntimeEvent → Outcome) : Prop :=
  ∀ i e, e.isReport = true → ends i e = .returned

theorem cost_forward (h : s.Open) (hn : s.channels.length = n) :
    cost n (s.act ends .forward) ≤ cost n s := by
  obtain ⟨v, hv⟩ := h.receives
  rcases forward_cases ends h hv with
    ⟨bus, hlost, hbus, hview, ha⟩ | ⟨bus, e, rest, hlost, hpending, hbus, hview, ha⟩ | ⟨-, ha⟩
  · rw [ha]
    refine cost_turn hv hbus hview ?_
    simp only [busLoad, channels, List.map_nil, List.sum_nil]
    omega
  · have hemit := sum_channelLoad_emit n e s.channels
    have harriving : arriving n e = 1 + n * offering n e := rfl
    rw [hn] at hemit
    rw [ha]
    refine cost_turn hv hbus hview ?_
    simp only [busLoad, hpending, List.map_cons, List.sum_cons]
    simp only [Subscribers.emit, channels] at hemit ⊢
    omega
  · exact Nat.le_of_eq (congrArg (cost n) ha)

theorem cost_advance (h : s.Open) (i : Nat) : cost n (s.act ends (.advance i)) ≤ cost n s := by
  obtain ⟨v, hv⟩ := h.receives
  rcases advance_cases ends h i with ⟨c, e, rest, hc, hw, hq, ha⟩ | ⟨-, ha⟩
  · have hmodify := sum_map_modify (channelLoad n) .take hc
    have htake : channelLoad n c.take + 1 = channelLoad n c := by
      simp [channelLoad, Subscriber.take, hw, hq, Worker.item?, waiting]
      omega
    rw [ha]
    refine cost_turn hv h.wellFormed hv ?_
    simp only [Subscribers.modify, channels, List.map_nil, List.sum_nil] at hmodify ⊢
    omega
  · exact Nat.le_of_eq (congrArg (cost n) ha)

/-- The load of an event that is being handled covers the report of a panic on it. -/
theorem cost_complete (h : s.Open) (hcalm : Calm ends) (i : Nat) :
    cost n (s.act ends (.complete i)) ≤ cost n s := by
  obtain ⟨v, hv⟩ := h.receives
  rcases complete_cases ends s i with ⟨c, e, hc, hw, ha⟩ | ⟨-, ha⟩
  · have hmodify := sum_map_modify (channelLoad n) .rest hc
    have hrest : channelLoad n c.rest + handling n e = channelLoad n c := by
      simp [channelLoad, Subscriber.rest, hw, Worker.item?]
    have hreports : ((panicReports c.name (ends i e)).map fun r ↦ 1 + arriving n r).sum + 1 ≤
        handling n e := by
      cases hreport : e.isReport with
      | true => simp [hcalm i e hreport, panicReports, handling, hreport]
      | false =>
        have hpanic : ∀ reason, arriving n (.subscriberPanicked c.name reason) = panicReach n :=
          fun _ ↦ rfl
        cases ends i e with
        | returned =>
          simp only [panicReports, handling, hreport, List.map_nil, List.sum_nil,
            Bool.false_eq_true, if_false]
          omega
        | panicked reason =>
          simp only [panicReports, handling, hreport, hpanic, List.map_cons, List.map_nil,
            List.sum_cons, List.sum_nil, Bool.false_eq_true, if_false]
          omega
    rw [ha]
    refine cost_turn hv h.wellFormed hv ?_
    simp only [Subscribers.modify, channels] at hmodify ⊢
    omega
  · exact Nat.le_of_eq (congrArg (cost n) ha)

/-- An event from outside brings its load. -/
theorem cost_publish (h : s.Open) (e : RuntimeEvent) :
    cost n (s.act ends (.publish e)) ≤ cost n s + reach n := by
  obtain ⟨v, hv⟩ := h.receives
  have hpublish := busLoad_publish n h.wellFormed hv [e]
  have hle := arriving_le n e
  have hnow : load n s = busLoad n v + (s.channels.map (channelLoad n)).sum := by
    rw [load, hv, Option.getD_some]
  have hnext : load n (s.act ends (.publish e)) =
      busLoad n ((([e].foldl .publish s.cache.bus).view? Cache.forwarderReceiver).getD {}) +
        (s.channels.map (channelLoad n)).sum :=
    rfl
  have hsame : (s.act ends (.publish e)).responses = s.responses ∧
      (s.act ends (.publish e)).turns = s.turns := ⟨rfl, rfl⟩
  simp only [cost, hnow, hnext, hsame.1, hsame.2]
  simp only [List.map_cons, List.map_nil, List.sum_cons, List.sum_nil] at hpublish
  omega

/-! ### Runs -/

theorem length_channels_act (h : s.Open) (a : Action) :
    (s.act ends a).channels.length = s.channels.length := by
  obtain ⟨v, hv⟩ := h.receives
  cases a with
  | publish e => rfl
  | forward =>
    rcases forward_cases ends h hv with
      ⟨bus, -, -, -, ha⟩ | ⟨bus, e, rest, -, -, -, -, ha⟩ | ⟨-, ha⟩ <;> rw [ha]
    · rfl
    · exact List.length_map _
  | advance i =>
    rcases advance_cases ends h i with ⟨c, e, rest, -, -, -, ha⟩ | ⟨-, ha⟩ <;> rw [ha]
    exact List.length_modify ..
  | complete i =>
    rcases complete_cases ends s i with ⟨c, e, -, -, ha⟩ | ⟨-, ha⟩ <;> rw [ha]
    exact List.length_modify ..

/-- **No step of the loop raises the cost**, and an event from outside raises it by what it can
reach. -/
theorem cost_act (h : s.Open) (hcalm : Calm ends) (hn : s.channels.length = n) (a : Action) :
    cost n (s.act ends a) ≤ cost n s + a.event?.toList.length * reach n := by
  cases a with
  | publish e =>
    simp only [Action.event?, Option.toList_some, List.length_singleton, Nat.one_mul]
    exact cost_publish h e
  | forward => exact Nat.le_add_right_of_le (cost_forward h hn)
  | advance i => exact Nat.le_add_right_of_le (cost_advance h i)
  | complete i => exact Nat.le_add_right_of_le (cost_complete h hcalm i)

theorem cost_actAll (h : s.Open) (hcalm : Calm ends) (hn : s.channels.length = n)
    (actions : List Action) :
    cost n (s.actAll ends actions) ≤
      cost n s + (actions.filterMap (·.event?)).length * reach n := by
  induction actions generalizing s with
  | nil => exact Nat.le_add_right _ _
  | cons a actions ih =>
    have hfirst := cost_act h hcalm hn a
    have hlength : (s.act ends a).channels.length = n := (length_channels_act h a).trans hn
    have hrest := ih (h.act a) hlength
    have hsplit : ((a :: actions).filterMap (·.event?)).length =
        a.event?.toList.length + (actions.filterMap (·.event?)).length := by
      cases ha : a.event? <;> simp [ha, Nat.add_comm]
    rw [actAll_cons, hsplit, Nat.add_mul]
    omega

theorem outside_actAll (actions : List Action) :
    (s.actAll ends actions).outside = s.outside ++ actions.filterMap (·.event?) := by
  induction actions generalizing s with
  | nil => simp
  | cons a actions ih =>
    have hone : (s.act ends a).outside = s.outside ++ a.event?.toList := by
      cases a with
      | publish e => rfl
      | forward => exact (List.append_nil _).symm
      | advance i =>
        simp only [act]
        split <;> exact (List.append_nil _).symm
      | complete i =>
        simp only [act]
        split <;> exact (List.append_nil _).symm
    rw [actAll_cons, ih, hone, List.append_assoc]
    cases a <;> rfl

variable (ends) in
/-- A step of the loop does something, or it leaves everything as it is. -/
theorem act_inner (h : s.Open) {a : Action} (ha : a.event? = none) :
    (s.act ends a).turns = s.turns + 1 ∨ s.act ends a = s := by
  obtain ⟨v, hv⟩ := h.receives
  cases a with
  | publish e => cases ha
  | forward =>
    rcases forward_cases ends h hv with
      ⟨bus, -, -, -, hact⟩ | ⟨bus, e, rest, -, -, -, -, hact⟩ | ⟨-, hact⟩
    · exact .inl (hact ▸ rfl)
    · exact .inl (hact ▸ rfl)
    · exact .inr hact
  | advance i =>
    rcases advance_cases ends h i with ⟨c, e, rest, -, -, -, hact⟩ | ⟨-, hact⟩
    · exact .inl (hact ▸ rfl)
    · exact .inr hact
  | complete i =>
    rcases complete_cases ends s i with ⟨c, e, -, -, hact⟩ | ⟨-, hact⟩
    · exact .inl (hact ▸ rfl)
    · exact .inr hact

variable (ends) in
/-- **There is nothing to do just if no step of the loop does anything.** -/
theorem resting_iff (h : s.Open) :
    s.Resting ↔ ∀ a : Action, a.event? = none → s.act ends a = s := by
  obtain ⟨v, hv⟩ := h.receives
  have hturn : ∀ bus subscribers reports, s.turn bus subscribers reports ≠ s :=
    fun _ _ _ heq ↦ Nat.succ_ne_self s.turns (congrArg turns heq)
  constructor
  · rintro ⟨hempty, hidle⟩ a ha
    obtain rfl : v = {} := Option.some.inj (hv.symm.trans hempty)
    cases a with
    | publish e => cases ha
    | forward =>
      rcases forward_cases ends h hv with
        ⟨bus, hlost, -⟩ | ⟨bus, e, rest, -, hpending, -⟩ | ⟨-, hact⟩
      · cases hlost
      · cases hpending
      · exact hact
    | advance i =>
      rcases advance_cases ends h i with ⟨c, e, rest, hc, -, hq, -⟩ | ⟨-, hact⟩
      · rw [(hidle c (List.mem_of_getElem? hc)).1] at hq
        cases hq
      · exact hact
    | complete i =>
      rcases complete_cases ends s i with ⟨c, e, hc, hw, -⟩ | ⟨-, hact⟩
      · have hnone := (hidle c (List.mem_of_getElem? hc)).2
        rw [hw] at hnone
        cases hnone
      · exact hact
  · intro hstill
    have hempty : v = {} := by
      rcases forward_cases ends h hv with
        ⟨bus, -, -, -, hact⟩ | ⟨bus, e, rest, -, -, -, -, hact⟩ | ⟨hempty, -⟩
      · exact absurd (hact.symm.trans (hstill _ rfl)) (hturn _ _ _)
      · exact absurd (hact.symm.trans (hstill _ rfl)) (hturn _ _ _)
      · exact hempty
    refine ⟨hempty ▸ hv, fun c hmem ↦ ?_⟩
    obtain ⟨i, hc⟩ := List.getElem?_of_mem hmem
    have hitem : c.worker.item? = none := by
      rcases complete_cases ends s i with ⟨d, e, -, -, hact⟩ | ⟨hnone, -⟩
      · exact absurd (hact.symm.trans (hstill _ rfl)) (hturn _ _ _)
      · exact hnone c hc
    refine ⟨?_, hitem⟩
    rcases advance_cases ends h i with ⟨d, e, rest, -, -, -, hact⟩ | ⟨hnone, -⟩
    · exact absurd (hact.symm.trans (hstill _ rfl)) (hturn _ _ _)
    · refine hnone c hc ?_
      have hrun := h.running c hmem
      cases hw : c.worker <;> simp_all [Worker.item?, Worker.isEnded]

/-- The loop after the first steps of a schedule. -/
def follow (ends : Nat → RuntimeEvent → Outcome) (s : Loop) (schedule : Nat → Action) (m : Nat) :
    Loop :=
  s.actAll ends ((List.range m).map schedule)

theorem follow_succ (schedule : Nat → Action) (m : Nat) :
    s.follow ends schedule (m + 1) = (s.follow ends schedule m).act ends (schedule m) := by
  simp [follow, List.range_succ]

/-- The responses are reports of missed events and of panics. -/
theorem isReport_of_mem_responses (h : s.Open) (hs : ∀ e ∈ s.responses, e.isReport = true)
    (a : Action) : ∀ e ∈ (s.act ends a).responses, e.isReport = true := by
  obtain ⟨v, hv⟩ := h.receives
  have hturn : ∀ bus subscribers reports, (∀ e ∈ reports, e.isReport = true) →
      ∀ e ∈ (s.turn bus subscribers reports).responses, e.isReport = true :=
    fun _ _ _ hreports e he ↦ (List.mem_append.1 he).elim (hs e) (hreports e)
  cases a with
  | publish e => exact hs
  | forward =>
    rcases forward_cases ends h hv with
      ⟨bus, -, -, -, ha⟩ | ⟨bus, e, rest, -, -, -, -, ha⟩ | ⟨-, ha⟩ <;> rw [ha]
    · exact hturn _ _ _ (List.forall_mem_nil _)
    · refine hturn _ _ _ fun report hreport ↦ ?_
      simp [RuntimeEvent.isReport, Subscribers.topic_of_overflowReport? hreport]
    · exact hs
  | advance i =>
    rcases advance_cases ends h i with ⟨c, e, rest, -, -, -, ha⟩ | ⟨-, ha⟩ <;> rw [ha]
    · exact hturn _ _ _ (List.forall_mem_nil _)
    · exact hs
  | complete i =>
    rcases complete_cases ends s i with ⟨c, e, -, -, ha⟩ | ⟨-, ha⟩ <;> rw [ha]
    · refine hturn _ _ _ fun report hreport ↦ ?_
      cases houtcome : ends i e with
      | returned => simp [panicReports, houtcome] at hreport
      | panicked reason =>
        obtain rfl : report = .subscriberPanicked c.name reason := by
          simpa [panicReports, houtcome] using hreport
        rfl
    · exact hs

theorem isReport_actAll (h : s.Open) (hs : ∀ e ∈ s.responses, e.isReport = true)
    (actions : List Action) : ∀ e ∈ (s.actAll ends actions).responses, e.isReport = true := by
  induction actions generalizing s with
  | nil => exact hs
  | cons a actions ih => exact ih (h.act a) (isReport_of_mem_responses h hs a)

/-! ### Rest -/

/-- A sequence of numbers with a bound has a greatest one. -/
theorem exists_max (f : Nat → Nat) {bound : Nat} (h : ∀ m, f m ≤ bound) : ∃ m, ∀ k, f k ≤ f m := by
  induction bound with
  | zero => exact ⟨0, fun k ↦ Nat.le_trans (h k) (Nat.zero_le _)⟩
  | succ bound ih =>
    by_cases hreached : ∃ m, f m = bound + 1
    · obtain ⟨m, hm⟩ := hreached
      exact ⟨m, fun k ↦ hm ▸ h k⟩
    · exact ih fun m ↦ Nat.le_of_lt_succ (Nat.lt_of_le_of_ne (h m) fun hm ↦ hreached ⟨m, hm⟩)

/-- **Every schedule of the loop comes to a state that does not change any more**, in which there is
nothing to do if the schedule gives every step its turn again and again. -/
theorem follow_stabilizes (h : s.Open) (hcalm : Calm ends) {schedule : Nat → Action}
    (hinner : ∀ k, (schedule k).event? = none) :
    ∃ m, (∀ k, m ≤ k → s.follow ends schedule k = s.follow ends schedule m) ∧
      ((∀ a : Action, a.event? = none → ∀ k, ∃ l, k ≤ l ∧ schedule l = a) →
        (s.follow ends schedule m).Resting) := by
  have hopen : ∀ k, (s.follow ends schedule k).Open := fun k ↦ h.actAll _
  have hbound : ∀ k, (s.follow ends schedule k).turns ≤ cost s.channels.length s := by
    intro k
    have hnone : ((List.range k).map schedule).filterMap (·.event?) = [] := by
      rw [List.filterMap_map]
      exact List.filterMap_eq_nil_iff.2 fun l _ ↦ hinner l
    have hcost := cost_actAll h hcalm rfl ((List.range k).map schedule)
    rw [hnone, List.length_nil, Nat.zero_mul, Nat.add_zero] at hcost
    have hle : (s.follow ends schedule k).turns ≤
        cost s.channels.length (s.follow ends schedule k) := by
      simp only [cost]
      omega
    exact Nat.le_trans hle hcost
  -- after the step with the most turns no step does anything
  obtain ⟨m, hm⟩ := exists_max (fun k ↦ (s.follow ends schedule k).turns) hbound
  have hstill : ∀ k, m ≤ k → s.follow ends schedule k = s.follow ends schedule m := by
    intro k hk
    induction hk with
    | refl => rfl
    | @step k _ ih =>
      rcases act_inner ends (hopen k) (hinner k) with hturn | hsame
      · have hmax := hm (k + 1)
        simp only [follow_succ] at hmax
        rw [hturn, ih] at hmax
        exact absurd hmax (Nat.not_succ_le_self _)
      · rw [follow_succ, hsame, ih]
  refine ⟨m, hstill, fun hfair ↦ (resting_iff ends (hopen m)).2 fun a ha ↦ ?_⟩
  obtain ⟨l, hl, rfl⟩ := hfair a ha m
  have hnext := hstill (l + 1) (Nat.le_succ_of_le hl)
  rwa [follow_succ, hstill l hl] at hnext

theorem cost_start (config : Config) (subscribers : List (String × Nat)) (n : Nat) :
    cost n (start config subscribers) = 0 := by
  have hchannels : ((start config subscribers).channels.map (channelLoad n)).sum = 0 := by
    rw [List.sum_eq_zero]
    intro x hx
    obtain ⟨c, hc, rfl⟩ := List.mem_map.1 hx
    obtain ⟨y, -, rfl⟩ := List.mem_map.1 hc
    rfl
  rw [cost, load, sees_start config subscribers, hchannels]
  rfl

/-- **Without panics on reports diagnostics do not feed themselves.** Whatever comes from outside,
and whatever panics on that, the number of reports and of steps of the loop has a bound for each
event from outside. Once nothing more comes from outside, every schedule ends in a state that does
not change any more; if it lets the forwarder and all workers run again and again, that state is one
with nothing on the bus, nothing queued and nothing being handled. -/
theorem comes_to_rest (config : Config) (subscribers : List (String × Nat))
    {ends : Nat → RuntimeEvent → Outcome} (hcalm : Calm ends) (actions : List Action) :
    let s := (start config subscribers).actAll ends actions
    s.outside = actions.filterMap (·.event?) ∧ (∀ e ∈ s.responses, e.isReport = true) ∧
    s.responses.length + s.turns ≤ s.outside.length * reach subscribers.length ∧
    ∀ schedule : Nat → Action, (∀ k, (schedule k).event? = none) →
      ∃ m, (∀ k, m ≤ k → s.follow ends schedule k = s.follow ends schedule m) ∧
        ((∀ a : Action, a.event? = none → ∀ k, ∃ l, k ≤ l ∧ schedule l = a) →
          (s.follow ends schedule m).Resting) := by
  intro s
  have hopen := open_start config subscribers
  have houtside : s.outside = actions.filterMap (·.event?) :=
    (outside_actAll actions).trans (List.nil_append _)
  refine ⟨houtside, isReport_actAll hopen (List.forall_mem_nil _) actions, ?_,
    fun schedule hinner ↦ follow_stabilizes (hopen.actAll actions) hcalm hinner⟩
  have hlength : (start config subscribers).channels.length = subscribers.length :=
    List.length_map _
  have hcost := cost_actAll hopen hcalm hlength actions
  rw [cost_start, Nat.zero_add, ← houtside] at hcost
  exact Nat.le_trans (Nat.le_add_right _ _) hcost

/-- A subscriber that panics on starts of watches, and one whose queue is short. -/
theorem comes_to_rest_of_panic :
    let ends : Nat → RuntimeEvent → Outcome := fun _ e ↦
      if e.topic = .watchStarted then .panicked "boom" else .returned
    Calm ends ∧
      let s := (start {} [("p", 1), ("q", 8)]).actAll ends
        [.publish { topic := .watchStarted }, .publish .shutdownRequested, .forward, .advance 0,
          .complete 0, .forward]
      s.responses.length + s.turns ≤ s.outside.length * reach 2 := by
  intro ends
  have hcalm : Calm ends := by
    intro i e he
    refine if_neg fun hwatch ↦ ?_
    simp [RuntimeEvent.isReport, hwatch] at he
  exact ⟨hcalm, (comes_to_rest {} [("p", 1), ("q", 8)] hcalm _).2.2.1⟩

/-! ### Panics on reports -/

/-- The loop of one subscriber, with these events on the bus and none of them lost. -/
structure Alone (s : Loop) (c : Subscriber) (events : List RuntimeEvent) : Prop where
  works : s.Open
  only : s.channels = [c]
  sees : s.Sees { pending := events }

variable {c : Subscriber} {d e : RuntimeEvent} {name reason : String} {capacity : Nat}

variable (ends) in
/-- The forwarder hands on the only event on the bus. -/
theorem Alone.forward (h : s.Alone c [e]) :
    (s.act ends .forward).Alone (c.offer e) (Subscribers.overflowReport? e c).toList ∧
      (s.act ends .forward).responses =
        s.responses ++ (Subscribers.overflowReport? e c).toList := by
  have hreports : s.channels.filterMap (Subscribers.overflowReport? e) =
      (Subscribers.overflowReport? e c).toList := by
    cases hreport : Subscribers.overflowReport? e c <;> simp [h.only, hreport]
  have hopen : (s.act ends .forward).Open := h.works.act .forward
  rcases forward_cases ends h.works h.sees with
    ⟨bus, hlost, -⟩ | ⟨bus, e', rest, -, hpending, hbus, hview, ha⟩ | ⟨hempty, -⟩
  · cases hlost
  · obtain ⟨rfl, rfl⟩ := List.cons.inj hpending
    have honly : (s.cache.subscribers.emit e).1.channels = [c.offer e] :=
      congrArg (List.map fun x : Subscriber ↦ x.offer e) h.only
    rw [ha] at hopen
    rw [ha, hreports] at *
    refine ⟨⟨hopen, honly, ?_⟩, rfl⟩
    cases Subscribers.overflowReport? e c with
    | none => exact hview
    | some report => exact Bus.view?_publish_empty hbus hview report
  · cases hempty

variable (ends) in
/-- The worker takes an event. -/
theorem Alone.advance {events rest : List RuntimeEvent} (h : s.Alone c events)
    (hw : c.worker = .idle) (hq : c.queue = e :: rest) :
    (s.act ends (.advance 0)).Alone c.take events ∧
      (s.act ends (.advance 0)).responses = s.responses := by
  have hc : s.channels[0]? = some c := by rw [h.only]; rfl
  have hopen : (s.act ends (.advance 0)).Open := h.works.act (.advance 0)
  rcases advance_cases ends h.works 0 with ⟨_, _, _, -, -, -, ha⟩ | ⟨hempty, -⟩
  · have honly : (s.cache.subscribers.modify 0 .take).channels = [c.take] :=
      congrArg (fun cs : List Subscriber ↦ cs.modify 0 .take) h.only
    rw [ha] at hopen ⊢
    exact ⟨⟨hopen, honly, h.sees⟩, List.append_nil _⟩
  · rw [hempty c hc hw] at hq
    cases hq

/-- The subscriber panics on an event, with nothing on the bus. -/
theorem Alone.complete (h : s.Alone c []) (hw : c.worker = .busy e)
    (hends : ends 0 e = .panicked reason) :
    (s.act ends (.complete 0)).Alone c.rest [.subscriberPanicked c.name reason] ∧
      (s.act ends (.complete 0)).responses =
        s.responses ++ [.subscriberPanicked c.name reason] := by
  have hc : s.channels[0]? = some c := by rw [h.only]; rfl
  have hopen : (s.act ends (.complete 0)).Open := h.works.act (.complete 0)
  rcases complete_cases ends s 0 with ⟨c', e', hc', hw', ha⟩ | ⟨hnone, -⟩
  · obtain rfl : c = c' := Option.some.inj (hc.symm.trans hc')
    obtain rfl : e = e' := Worker.busy.inj (hw.symm.trans hw')
    have honly : (s.cache.subscribers.modify 0 .rest).channels = [c.rest] :=
      congrArg (fun cs : List Subscriber ↦ cs.modify 0 .rest) h.only
    rw [ha, hends] at hopen
    rw [ha, hends]
    exact ⟨⟨hopen, honly, Bus.view?_publish_empty h.works.wellFormed h.sees _⟩, rfl⟩
  · have hitem := hnone c hc
    rw [hw] at hitem
    cases hitem

theorem Alone.not_resting {rest : List RuntimeEvent} (h : s.Alone c (e :: rest)) :
    ¬ s.Resting := by
  intro hrest
  cases Option.some.inj (h.sees.symm.trans hrest.1)

/-- Some actions, again and again. -/
def again (round : List Action) (k : Nat) : List Action := (List.replicate k round).flatten

/-- Rounds of steps of the loop bring nothing from outside. -/
theorem event?_again {round : List Action} (h : ∀ a ∈ round, a.event? = none) (k : Nat) :
    (again round k).filterMap (·.event?) = [] := by
  refine List.filterMap_eq_nil_iff.2 fun a ha ↦ ?_
  obtain ⟨actions, hactions, hmem⟩ := List.mem_flatten.1 ha
  rw [(List.mem_replicate.1 hactions).2] at hmem
  exact h a hmem

/-- A round that can be made again publishes the same reports each time. -/
theorem actAll_again {Ready : Loop → Prop} {round : List Action} {reports : List RuntimeEvent}
    (hround : ∀ s, Ready s → Ready (s.actAll ends round) ∧
      (s.actAll ends round).responses = s.responses ++ reports) (h : Ready s) (k : Nat) :
    Ready (s.actAll ends (again round k)) ∧
      (s.actAll ends (again round k)).responses =
        s.responses ++ (List.replicate k reports).flatten := by
  induction k generalizing s with
  | zero => exact ⟨h, (List.append_nil _).symm⟩
  | succ k ih =>
    obtain ⟨hready, hresponses⟩ := hround s h
    obtain ⟨hlast, hrest⟩ := ih hready
    have hsplit : s.actAll ends (again round (k + 1)) =
        (s.actAll ends round).actAll ends (again round k) := by
      rw [← actAll_append]
      rfl
    rw [hsplit]
    refine ⟨hlast, hrest.trans ?_⟩
    rw [hresponses, List.append_assoc]
    rfl

/-- An event for which there is room is queued, and no report is due. -/
theorem offer_of_room (hw : c.worker.isEnded = false) (hroom : c.queue.length < c.capacity)
    (e : RuntimeEvent) :
    c.offer e = { c with queue := c.queue ++ [e] } ∧ Subscribers.overflowReport? e c = none := by
  have hrefusal : c.refusal? = none := by simp [Subscriber.refusal?, hw, hroom]
  simp [Subscriber.offer, Subscribers.overflowReport?, hrefusal]

/-- An event for which there is no room is dropped, and that is reported of any event that is not
itself such a report. -/
theorem offer_of_full (hw : c.worker.isEnded = false) (hfull : c.capacity ≤ c.queue.length)
    (he : e.isOverflow = false) :
    c.offer e = c ∧
      Subscribers.overflowReport? e c = some (.subscriberOverflow c.name "full") := by
  have hrefusal : c.refusal? = some "full" := by simp [Subscriber.refusal?, hw, hfull]
  simp [Subscriber.offer, Subscribers.overflowReport?, hrefusal, he]

/-- The forwarder, the worker of the first subscriber and its handling. -/
def panicRound : List Action := [.forward, .advance 0, .complete 0]

/-- A subscriber that panics on the only event on the bus leaves the report of that on the bus, and
nothing else. -/
theorem actAll_panicRound (h : s.Alone { name, capacity } [e]) (hroom : 0 < capacity)
    (hends : ends 0 e = .panicked reason) :
    (s.actAll ends panicRound).Alone { name, capacity } [.subscriberPanicked name reason] ∧
      (s.actAll ends panicRound).responses =
        s.responses ++ [.subscriberPanicked name reason] := by
  obtain ⟨hoffer, hreport⟩ := offer_of_room (c := { name, capacity }) rfl hroom e
  obtain ⟨hforward, hone⟩ := h.forward ends
  rw [hoffer, hreport] at hforward
  obtain ⟨hadvance, htwo⟩ := hforward.advance ends rfl rfl
  obtain ⟨hcomplete, hthree⟩ := hadvance.complete rfl hends
  refine ⟨hcomplete, hthree.trans ?_⟩
  rw [htwo, hone, hreport, Option.toList_none, List.append_nil]
  rfl

/-- **A subscriber that panics on reports of panics feeds itself**: each report of its panics leads
to the next, as often as the loop goes round. -/
theorem panics_without_end (h : s.Alone { name, capacity } [e]) (hroom : 0 < capacity)
    (hfirst : ends 0 e = .panicked reason)
    (hreport : ends 0 (.subscriberPanicked name reason) = .panicked reason) (k : Nat) :
    (s.actAll ends (again panicRound k)).responses =
        s.responses ++ List.replicate k (.subscriberPanicked name reason) ∧
      ¬ (s.actAll ends (again panicRound k)).Resting := by
  have hround : ∀ s : Loop, (∃ e, ends 0 e = .panicked reason ∧ s.Alone { name, capacity } [e]) →
      (∃ e, ends 0 e = .panicked reason ∧
        (s.actAll ends panicRound).Alone { name, capacity } [e]) ∧
        (s.actAll ends panicRound).responses =
          s.responses ++ [.subscriberPanicked name reason] := by
    rintro s ⟨e, hends, halone⟩
    obtain ⟨hnext, hresponses⟩ := actAll_panicRound halone hroom hends
    exact ⟨⟨_, hreport, hnext⟩, hresponses⟩
  obtain ⟨⟨e', -, hlast⟩, hresponses⟩ := actAll_again hround ⟨e, hfirst, h⟩ k
  rw [List.flatten_replicate_singleton] at hresponses
  exact ⟨hresponses, hlast.not_resting⟩

/-- The forwarder finds the queue full, and hands on the report of that once the worker took what is
queued. -/
def overflowRound : List Action := [.forward, .advance 0, .forward, .complete 0]

/-- A subscriber with a queue of one that panics on what is queued, and misses the event on the bus:
the report of what it missed gets into its queue, and the report of its panic on the bus. -/
theorem actAll_overflowRound (h : s.Alone { name, capacity := 1, queue := [e] } [d])
    (hd : d.isOverflow = false) (hends : ends 0 e = .panicked reason) :
    (s.actAll ends overflowRound).Alone
        { name, capacity := 1, queue := [.subscriberOverflow name "full"] }
        [.subscriberPanicked name reason] ∧
      (s.actAll ends overflowRound).responses = s.responses ++
        [.subscriberOverflow name "full", .subscriberPanicked name reason] := by
  obtain ⟨hkept, hmissed⟩ := offer_of_full (c := { name, capacity := 1, queue := [e] }) rfl
    (Nat.le_refl 1) hd
  obtain ⟨hforward, hone⟩ := h.forward ends
  rw [hkept, hmissed] at hforward
  obtain ⟨hadvance, htwo⟩ := hforward.advance ends rfl rfl
  obtain ⟨hoffer, hreport⟩ := offer_of_room
    (c := { name, capacity := 1, worker := .busy e }) rfl Nat.one_pos
    (.subscriberOverflow name "full")
  obtain ⟨hforward', hthree⟩ := Alone.forward ends
    (c := { name, capacity := 1, worker := .busy e }) hadvance
  rw [hoffer, hreport] at hforward'
  obtain ⟨hcomplete, hfour⟩ := hforward'.complete rfl hends
  refine ⟨hcomplete, hfour.trans ?_⟩
  rw [hthree, htwo, hone, hmissed, hreport, Option.toList_some, Option.toList_none,
    List.append_nil, List.append_assoc]
  rfl

/-- **A subscriber that panics on reports of missed events feeds itself** while its queue is full:
the report that it missed the report of its panic is what it panics on next. -/
theorem overflows_without_end (h : s.Alone { name, capacity := 1, queue := [e] } [d])
    (hd : d.isOverflow = false) (hfirst : ends 0 e = .panicked reason)
    (hreport : ends 0 (.subscriberOverflow name "full") = .panicked reason) (k : Nat) :
    (s.actAll ends (again overflowRound k)).responses = s.responses ++ (List.replicate k
        [.subscriberOverflow name "full", .subscriberPanicked name reason]).flatten ∧
      ¬ (s.actAll ends (again overflowRound k)).Resting := by
  have hround : ∀ s : Loop, (∃ e d, ends 0 e = .panicked reason ∧ d.isOverflow = false ∧
      s.Alone { name, capacity := 1, queue := [e] } [d]) →
      (∃ e d, ends 0 e = .panicked reason ∧ d.isOverflow = false ∧
        (s.actAll ends overflowRound).Alone { name, capacity := 1, queue := [e] } [d]) ∧
        (s.actAll ends overflowRound).responses = s.responses ++
          [.subscriberOverflow name "full", .subscriberPanicked name reason] := by
    rintro s ⟨e, d, hends, hd, halone⟩
    obtain ⟨hnext, hresponses⟩ := actAll_overflowRound halone hd hends
    exact ⟨⟨_, _, hreport, rfl, hnext⟩, hresponses⟩
  obtain ⟨⟨e', d', -, -, hlast⟩, hresponses⟩ := actAll_again hround ⟨e, d, hfirst, hd, h⟩ k
  exact ⟨hresponses, hlast.not_resting⟩

/-- A subscriber that panics on starts of watches and on reports of panics: one event from outside
has no bound on the responses to it. -/
theorem not_bounded_of_panics :
    let ends : Nat → RuntimeEvent → Outcome := fun _ e ↦
      if e.topic = .watchStarted ∨ e.topic = .subscriberPanicked then .panicked "boom"
      else .returned
    ¬ ∃ bound, ∀ actions : List Action, (actions.filterMap (·.event?)).length ≤ 1 →
      ((start {} [("p", 8)]).actAll ends actions).responses.length ≤ bound := by
  rintro ends ⟨bound, hbound⟩
  obtain ⟨e, he⟩ : ∃ e : RuntimeEvent, e.topic = .watchStarted := ⟨{ topic := .watchStarted }, rfl⟩
  have hopen := open_start {} [("p", 8)]
  have hview : ((start {} [("p", 8)]).act ends (.publish e)).Sees { pending := [e] } :=
    Bus.view?_publish_empty hopen.wellFormed (sees_start _ _) e
  have hfirst : ends 0 e = .panicked "boom" := if_pos (.inl he)
  have halone : ((start {} [("p", 8)]).act ends (.publish e)).Alone
      { name := "p", capacity := 8 } [e] :=
    ⟨hopen.act (.publish e), rfl, hview⟩
  obtain ⟨hresponses, -⟩ := panics_without_end halone (by decide) hfirst (if_pos (.inr rfl))
    (bound + 1)
  have hinner : (again panicRound (bound + 1)).filterMap (·.event?) = [] :=
    event?_again (by simp [panicRound, Action.event?]) _
  have hcount :
      ((Action.publish e :: again panicRound (bound + 1)).filterMap (·.event?)).length ≤ 1 := by
    have hsplit : (Action.publish e :: again panicRound (bound + 1)).filterMap (·.event?) =
        e :: (again panicRound (bound + 1)).filterMap (·.event?) :=
      rfl
    rw [hsplit, hinner]
    exact Nat.le_refl 1
  have hle := hbound _ hcount
  rw [actAll_cons, hresponses] at hle
  simp only [List.length_append, List.length_replicate] at hle
  omega

end Loop

end Informer
