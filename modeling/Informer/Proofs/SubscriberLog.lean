import Informer.Proofs.SubscriberRun

/-!
# What a fan-out to subscribers reports

A run of the fan-out publishes a report for every event that it drops, unless the event is such a
report, and a report for every panic. `Reported` says so of the events of a run, and
`mem_dropped_actAll` says which events are dropped: those that found a queue full when they were
emitted. With what is known of the shares of the subscribers, `every_event_accounted` is the whole
account of a run.
-/

namespace Informer

namespace Subscribers

/-- The event that an action emits. -/
def Action.event? : Action → Option RuntimeEvent
  | .emit e => some e
  | _ => none

namespace Run

variable {s : Run}

/-! ### What is published -/

/-- The report that a subscriber missed an event: there is none if the event is such a report. -/
def dropReport? (s : Run) (x : Nat × Nat) : Option RuntimeEvent :=
  (s.roster[x.1]?).bind fun subscriber ↦ (s.emitted[x.2]?).bind fun e ↦
    if e.isOverflow then none else some (.subscriberOverflow subscriber.1 "full")

/-- The report of the end of a handling: there is one if it ended in a panic. -/
def panicReport? (s : Run) (x : Nat × RuntimeEvent × Outcome) : Option RuntimeEvent :=
  match x.2.2 with
  | .panicked reason =>
    (s.roster[x.1]?).map fun subscriber ↦ .subscriberPanicked subscriber.1 reason
  | .returned => none

/-- The events with a topic that were published. -/
def published (s : Run) (topic : Topic) : List RuntimeEvent := s.events.filter (·.topic = topic)

/-- What was published is what has to be reported. -/
structure Reported (s : Run) : Prop where
  overflows : s.published .subscriberOverflow = s.dropped.filterMap s.dropReport?
  panics : s.published .subscriberPanicked = s.finished.filterMap s.panicReport?
  /-- Nothing else is published. -/
  topics : ∀ e ∈ s.events, e.topic = .subscriberOverflow ∨ e.topic = .subscriberPanicked
  numbered : ∀ x ∈ s.dropped, x.2 < s.emitted.length

theorem reported_start (subscribers : List (String × Nat)) : (start subscribers).Reported :=
  ⟨rfl, rfl, List.forall_mem_nil _, List.forall_mem_nil _⟩

theorem panicReport?_congr {s t : Run} (h : t.roster = s.roster) :
    t.panicReport? = s.panicReport? := by
  funext x
  rw [panicReport?.eq_def, panicReport?.eq_def, h]

/-- A report refers to an event by its number, so later ones do not change it. -/
theorem dropReport?_congr {s t : Run} {more : List RuntimeEvent} (h : t.roster = s.roster)
    (he : t.emitted = s.emitted ++ more) {x : Nat × Nat} (hx : x.2 < s.emitted.length) :
    t.dropReport? x = s.dropReport? x := by
  rw [dropReport?, dropReport?, h, he, List.getElem?_append_left hx]

theorem mem_refusing {s : Subscribers} {i : Nat} :
    i ∈ s.refusing ↔ ∃ c, s.channels[i]? = some c ∧ c.refusal?.isSome := by
  simp only [refusing, List.mem_filterMap, Prod.exists, List.mk_mem_zipIdx_iff_getElem?]
  constructor
  · rintro ⟨c, j, hc, hr⟩
    obtain ⟨reason, hreason, rfl⟩ := Option.map_eq_some_iff.1 hr
    exact ⟨c, hc, by rw [hreason]; rfl⟩
  · rintro ⟨c, hc, hr⟩
    obtain ⟨reason, hreason⟩ := Option.isSome_iff_exists.1 hr
    exact ⟨c, i, hc, by rw [hreason]; rfl⟩

/-- Until the queues are closed an event is refused because a queue is full, and for no other
reason. -/
theorem Sound.refusal? (h : s.Sound) (hopen : s.state.closed = false) {i : Nat} {c : Subscriber}
    (hc : s.state.channels[i]? = some c) :
    c.refusal? = if c.queue.length = c.capacity then some "full" else none := by
  have hsound := h i _ (by rw [share?, hc]; rfl)
  have hrun : c.worker.isEnded = false := by
    by_contra hended
    have hclosed := (hsound.ended (by simpa using hended)).1
    simp [hopen] at hclosed
  have hle : c.queue.length ≤ c.capacity := hsound.fits
  have hiff : c.capacity ≤ c.queue.length ↔ c.queue.length = c.capacity := by omega
  simp [Subscriber.refusal?, hrun, hiff]

/-- What is dropped by an emission is what it reports. -/
theorem filterMap_dropReport? (h : s.Sound) (hopen : s.state.closed = false) (e : RuntimeEvent) :
    (s.state.refusing.map fun i ↦ (i, s.emitted.length)).filterMap
        (s.act (.emit e)).dropReport? =
      s.state.channels.filterMap (overflowReport? e) := by
  have hroster := s.roster_act (.emit e)
  have hemitted : (s.act (.emit e)).emitted = s.emitted ++ [e] := by simp [act, hopen]
  conv_rhs => rw [← List.zipIdx_map_fst 0 s.state.channels, List.filterMap_map]
  rw [refusing, List.map_filterMap, List.filterMap_filterMap]
  refine List.filterMap_congr ?_
  rintro ⟨c, i⟩ hx
  have hc : s.state.channels[i]? = some c := List.mk_mem_zipIdx_iff_getElem?.1 hx
  have hrefusal := h.refusal? hopen hc
  by_cases hfull : c.queue.length = c.capacity
  · rw [if_pos hfull] at hrefusal
    have hsubscriber : (s.act (.emit e)).roster[i]? = some (c.name, c.capacity) := by
      rw [hroster, roster, List.getElem?_map, hc]
      rfl
    simp [hrefusal, dropReport?, overflowReport?, hemitted, hsubscriber]
  · rw [if_neg hfull] at hrefusal
    simp [hrefusal, overflowReport?]

theorem Reported.emit (h : s.Reported) (hs : s.Sound) (e : RuntimeEvent) :
    (s.act (.emit e)).Reported := by
  cases hopen : s.state.closed with
  | true =>
    have hsame : s.act (.emit e) = s := by simp [act, hopen]
    rwa [hsame]
  | false =>
    have hroster := s.roster_act (.emit e)
    have hemitted : (s.act (.emit e)).emitted = s.emitted ++ [e] := by simp [act, hopen]
    have hfinished : (s.act (.emit e)).finished = s.finished := by simp [act, hopen, record]
    have hdropped : (s.act (.emit e)).dropped =
        s.dropped ++ s.state.refusing.map fun i ↦ (i, s.emitted.length) := by simp [act, hopen]
    have hevents : (s.act (.emit e)).events =
        s.events ++ s.state.channels.filterMap (overflowReport? e) := by
      simp [act, hopen, record, events_emit]
    refine ⟨?_, ?_, fun report hreport ↦ ?_, fun x hx ↦ ?_⟩
    · have hold : s.dropped.filterMap (s.act (.emit e)).dropReport? =
          s.dropped.filterMap s.dropReport? :=
        List.filterMap_congr fun x hx ↦ dropReport?_congr hroster hemitted (h.numbered x hx)
      rw [published, hevents, List.filter_append, ← published, h.overflows, hdropped,
        List.filterMap_append, hold, filterMap_dropReport? hs hopen,
        List.filter_eq_self.2 fun report hreport ↦ by simp [topic_of_overflowReport? hreport]]
    · rw [published, hevents, List.filter_append, ← published, h.panics, hfinished,
        panicReport?_congr hroster, List.filter_eq_nil_iff.2 fun report hreport ↦ by
          simp [topic_of_overflowReport? hreport], List.append_nil]
    · rw [hevents, List.mem_append] at hreport
      exact hreport.elim (h.topics report) fun hreport ↦ .inl (topic_of_overflowReport? hreport)
    · rw [hdropped, List.mem_append] at hx
      rw [hemitted, List.length_append]
      rcases hx with hx | hx
      · exact Nat.lt_add_right _ (h.numbered x hx)
      · obtain ⟨i, -, rfl⟩ := List.mem_map.1 hx
        exact Nat.lt_succ_self _

/-- An action that drops nothing publishes the reports of the panics that it brings. -/
theorem Reported.quiet (h : s.Reported) {t : Run}
    (more : List (Nat × RuntimeEvent × Outcome)) (hroster : t.roster = s.roster)
    (hemitted : t.emitted = s.emitted) (hdropped : t.dropped = s.dropped)
    (hfinished : t.finished = s.finished ++ more)
    (hevents : t.events = s.events ++ more.filterMap s.panicReport?) : t.Reported := by
  have htopic : ∀ report ∈ more.filterMap s.panicReport?, report.topic = .subscriberPanicked := by
    intro report hreport
    obtain ⟨⟨i, e, outcome⟩, -, hx⟩ := List.mem_filterMap.1 hreport
    cases outcome with
    | returned => cases hx
    | panicked reason =>
      obtain ⟨subscriber, -, rfl⟩ := Option.map_eq_some_iff.1 hx
      rfl
  have hdrop : t.dropReport? = s.dropReport? := by
    funext x
    rw [dropReport?, dropReport?, hroster, hemitted]
  refine ⟨?_, ?_, fun report hreport ↦ ?_, fun x hx ↦ ?_⟩
  · rw [published, hevents, List.filter_append, ← published, h.overflows, hdropped, hdrop,
      List.filter_eq_nil_iff.2 fun report hreport ↦ by simp [htopic report hreport],
      List.append_nil]
  · rw [published, hevents, List.filter_append, ← published, h.panics, hfinished,
      List.filterMap_append, panicReport?_congr hroster,
      List.filter_eq_self.2 fun report hreport ↦ by simp [htopic report hreport]]
  · rw [hevents, List.mem_append] at hreport
    exact hreport.elim (h.topics report) fun hreport ↦ .inr (htopic report hreport)
  · rw [hdropped] at hx
    rw [hemitted]
    exact h.numbered x hx

theorem Reported.complete (h : s.Reported) (i : Nat) (outcome : Outcome) :
    (s.act (.complete i outcome)).Reported := by
  refine h.quiet _ (s.roster_act _) rfl rfl rfl ?_
  rcases complete_cases s.state i outcome with ⟨c, e, hc, hw, ha, hpublished⟩ | ⟨hnone, ha⟩
  · have hhandling : s.state.handling? i = some e := by simp [handling?, hc, hw, Worker.item?]
    have hsubscriber : s.roster[i]? = some (c.name, c.capacity) := by simp [roster, hc]
    cases outcome <;> simp [act, record, hpublished, hhandling, panicReport?, hsubscriber]
  · simp [act, record, ha, hnone]

theorem Reported.act (h : s.Reported) (hs : s.Sound) (a : Action) : (s.act a).Reported := by
  have hroster := s.roster_act a
  cases a with
  | emit e => exact h.emit hs e
  | advance i =>
    have hrest : (s.act (.advance i)).emitted = s.emitted ∧
        (s.act (.advance i)).dropped = s.dropped ∧
        (s.act (.advance i)).finished = s.finished ∧ (s.act (.advance i)).events = s.events := by
      simp only [Run.act]
      split <;> exact ⟨rfl, rfl, rfl, rfl⟩
    obtain ⟨hemitted, hdropped, hfinished, hevents⟩ := hrest
    exact h.quiet [] hroster hemitted hdropped (by simpa using hfinished)
      (by simpa using hevents)
  | complete i outcome => exact h.complete i outcome
  | close =>
    exact h.quiet [] hroster rfl rfl (by simp [Run.act, record])
      (by simp [Run.act, record, events_close])

theorem Reported.actAll (h : s.Reported) (hs : s.Sound) (actions : List Action) :
    (s.actAll actions).Reported := by
  induction actions generalizing s with
  | nil => exact h
  | cons a actions ih => exact ih (h.act hs a) (hs.act a)

/-! ### What is dropped -/

/-- Whether a subscriber misses the next event, by their numbers: its queue is full. -/
def MissesNext (s : Run) (x : Nat × Nat) : Prop :=
  s.state.closed = false ∧ s.emitted.length = x.2 ∧
    ∃ c, s.state.channels[x.1]? = some c ∧ c.queue.length = c.capacity

theorem mem_dropped_act (h : s.Sound) (a : Action) (x : Nat × Nat) :
    x ∈ (s.act a).dropped ↔ x ∈ s.dropped ∨ (∃ e, a = .emit e) ∧ s.MissesNext x := by
  cases a with
  | emit e =>
    cases hopen : s.state.closed with
    | true => simp [act, hopen, MissesNext]
    | false =>
      have hfull : x.1 ∈ s.state.refusing ↔
          ∃ c, s.state.channels[x.1]? = some c ∧ c.queue.length = c.capacity := by
        rw [mem_refusing]
        refine exists_congr fun c ↦ and_congr_right fun hc ↦ ?_
        rw [h.refusal? hopen hc]
        split <;> simp [*]
      have hnew : x ∈ s.state.refusing.map (fun i ↦ (i, s.emitted.length)) ↔
          x.1 ∈ s.state.refusing ∧ s.emitted.length = x.2 := by
        rw [List.mem_map]
        constructor
        · rintro ⟨i, hi, rfl⟩
          exact ⟨hi, rfl⟩
        · rintro ⟨hi, hk⟩
          exact ⟨x.1, hi, Prod.ext rfl hk⟩
      simp only [act, hopen, Bool.false_eq_true, if_false, List.mem_append, hnew, hfull,
        MissesNext, Action.emit.injEq, exists_eq', true_and]
      rw [and_comm (a := ∃ c, _)]
  | advance i =>
    have hsame : (s.act (.advance i)).dropped = s.dropped := by
      simp only [act]
      split <;> rfl
    simp [hsame]
  | complete i outcome => simp [act, record]
  | close => simp [act, record]

/-- **An event is dropped for a subscriber just if the queue was full when it was emitted.** -/
theorem mem_dropped_actAll (h : s.Sound) (actions : List Action) (x : Nat × Nat) :
    x ∈ (s.actAll actions).dropped ↔ x ∈ s.dropped ∨
      ∃ before e after, actions = before ++ .emit e :: after ∧
        (s.actAll before).MissesNext x := by
  induction actions generalizing s with
  | nil => simp
  | cons a actions ih =>
    rw [actAll_cons, ih (h.act a), mem_dropped_act h, or_assoc]
    refine or_congr_right ⟨?_, ?_⟩
    · rintro (⟨⟨e, rfl⟩, hx⟩ | ⟨before, e, after, rfl, hx⟩)
      · exact ⟨[], e, actions, rfl, hx⟩
      · exact ⟨a :: before, e, after, rfl, hx⟩
    · rintro ⟨before, e, after, hsplit, hx⟩
      rcases before with - | ⟨b, before⟩
      · exact .inl ⟨⟨e, (List.cons.inj hsplit).1⟩, hx⟩
      · obtain ⟨rfl, rfl⟩ := List.cons.inj hsplit
        exact .inr ⟨before, e, after, rfl, hx⟩

theorem nodup_refusing (s : Subscribers) : s.refusing.Nodup := by
  have hsub : s.refusing.Sublist (s.channels.zipIdx.map (·.2)) := by
    have hfilter : s.refusing = (s.channels.zipIdx.filter (·.1.refusal?.isSome)).map (·.2) := by
      rw [refusing, ← List.filterMap_eq_map, List.filterMap_filter]
      refine List.filterMap_congr fun x _ ↦ ?_
      cases hr : x.1.refusal? <;> simp [hr]
    rw [hfilter]
    exact List.filter_sublist.map _
  refine hsub.nodup ?_
  rw [List.zipIdx_map_snd]
  exact List.nodup_range'

/-- Nothing is recorded as dropped twice, since later events have higher numbers. -/
theorem nodup_dropped_act (h : s.dropped.Nodup) (hn : ∀ x ∈ s.dropped, x.2 < s.emitted.length)
    (a : Action) : (s.act a).dropped.Nodup := by
  cases a with
  | emit e =>
    simp only [act]
    split
    · exact h
    · refine List.nodup_append.2 ⟨h, ?_, fun x hx y hy hxy ↦ ?_⟩
      · exact List.pairwise_map.2 <| List.Pairwise.imp (fun hij heq ↦ hij (Prod.mk.inj heq).1)
          (nodup_refusing s.state)
      obtain ⟨i, -, rfl⟩ := List.mem_map.1 hy
      have hlt := hn x hx
      rw [hxy] at hlt
      exact Nat.lt_irrefl _ hlt
  | advance i =>
    simp only [act]
    split <;> exact h
  | complete i outcome => exact h
  | close => exact h

theorem nodup_dropped_actAll (h : s.dropped.Nodup) (hr : s.Reported) (hs : s.Sound)
    (actions : List Action) : (s.actAll actions).dropped.Nodup := by
  induction actions generalizing s with
  | nil => exact h
  | cons a actions ih =>
    exact ih (nodup_dropped_act h hr.numbered a) (hr.act hs a) (hs.act a)

/-- Until the queues are closed every event is emitted. -/
theorem emitted_actAll (h : s.state.closed = false) {actions : List Action}
    (hopen : .close ∉ actions) :
    (s.actAll actions).emitted = s.emitted ++ actions.filterMap (·.event?) := by
  induction actions generalizing s with
  | nil => simp
  | cons a actions ih =>
    have hrest : .close ∉ actions := fun hmem ↦ hopen (List.mem_cons_of_mem _ hmem)
    have hstep : (s.act a).state.closed = false ∧
        (s.act a).emitted = s.emitted ++ a.event?.toList := by
      cases a with
      | emit e =>
        simp only [act, h, Bool.false_eq_true, if_false]
        exact ⟨h, rfl⟩
      | advance i =>
        rcases advance_cases s.state i with
          ⟨c, e, rest, -, -, -, ha⟩ | ⟨c, -, -, -, hs, ha⟩ | ⟨-, step, ha, hstep⟩
        · simp [act, ha, h, Action.event?]
        · simp [hs] at h
        · have hsame : s.act (.advance i) = s := by simp only [act, ha]
          rw [hsame]
          exact ⟨h, (List.append_nil _).symm⟩
      | complete i outcome =>
        rcases complete_cases s.state i outcome with ⟨c, e, -, -, ha, -⟩ | ⟨-, ha⟩ <;>
          simp [act, record, ha, h, Action.event?]
      | close => exact absurd List.mem_cons_self hopen
    rw [actAll_cons, ih hstep.1 hrest, hstep.2, List.append_assoc]
    cases a <;> rfl

/-! ### The account of a run -/

/-- The share of a subscriber in a run from the start. -/
theorem exists_share? {subscribers : List (String × Nat)} {i : Nat} {name : String} {capacity : Nat}
    (hi : subscribers[i]? = some (name, capacity)) (actions : List Action) :
    ∃ p, ((start subscribers).actAll actions).share? i = some p ∧ p.Sound ∧
      p.subscriber.name = name ∧ p.subscriber.capacity = max capacity 1 ∧
      ((start [(name, capacity)]).actAll (actions.filterMap (·.alone i))).share? 0 = some p := by
  have hstart : (start subscribers).share? i =
      some { subscriber := { name, capacity := max capacity 1 } } := by
    rw [share?_start, hi]
    rfl
  have hrun : ((start subscribers).actAll actions).share? i =
      some (actions.foldl (·.act i ·) { subscriber := { name, capacity := max capacity 1 } }) := by
    rw [share?_actAll, hstart]
    rfl
  obtain ⟨hname, hcapacity⟩ := Share.foldl_subscriber
    { subscriber := { name, capacity := max capacity 1 } } i actions
  refine ⟨_, hrun, (sound_start subscribers).actAll actions i _ hrun, hname, hcapacity, ?_⟩
  rw [share?_alone ((share?_start [(name, capacity)] 0).trans hstart.symm), hrun]

/-- When the queues are closed and all workers have ended, all that was not dropped for a subscriber
was given to it and handled. -/
theorem kept_of_allEnded {i : Nat} {p : Share} (hp : s.share? i = some p) (h : p.Sound)
    (hall : s.state.allEnded = true) : p.handed = p.kept ∧ p.finished.map (·.1) = p.kept := by
  obtain ⟨c, hc, rfl⟩ := Option.map_eq_some_iff.1 hp
  have hended : c.worker.isEnded = true := List.all_eq_true.1 hall c (List.mem_of_getElem? hc)
  have hitem : c.worker.item? = none := by
    cases hw : c.worker with
    | busy e => simp [hw, Worker.isEnded] at hended
    | _ => rfl
  have hhanded := h.accounted
  rw [(h.ended hended).2, List.append_nil] at hhanded
  have hserial := h.serial
  rw [hitem, Option.toList_none, List.append_nil] at hserial
  exact ⟨hhanded, hserial.symm.trans hhanded⟩

/-- **Fan-out accounts for every event.** Whatever is emitted and however the workers run: a queue
holds at most its capacity, what a subscriber was handed and what waits for it is all that was not
dropped for it, in order, and it is as if it were the only subscriber. What is dropped is dropped
since a queue was full, and is reported once unless it is such a report; every panic is reported
once, nothing else is published, and a worker goes on after it. When the queues are closed and the
workers have ended, everything that was accepted has been handled. -/
theorem every_event_accounted (subscribers : List (String × Nat)) (actions : List Action) :
    let s := (start subscribers).actAll actions
    (∀ i name capacity, subscribers[i]? = some (name, capacity) → ∃ p, s.share? i = some p ∧
      p.subscriber.name = name ∧ p.subscriber.capacity = max capacity 1 ∧
      p.subscriber.queue.length ≤ max capacity 1 ∧
      p.handed ++ p.subscriber.queue = p.kept ∧
      p.handed = p.finished.map (·.1) ++ p.subscriber.worker.item?.toList ∧
      (∀ e next rest outcome, p.subscriber.worker = .busy e → p.subscriber.queue = next :: rest →
        (((s.act (.complete i outcome)).act (.advance i)).share? i).map (·.handed) =
          some (p.handed ++ [next])) ∧
      (p.subscriber.worker.isEnded → p.closed ∧ p.subscriber.queue = []) ∧
      (s.state.allEnded → p.handed = p.kept ∧ p.finished.map (·.1) = p.kept) ∧
      ((start [(name, capacity)]).actAll (actions.filterMap (·.alone i))).share? 0 = some p) ∧
    s.dropped.Nodup ∧
    (∀ x, x ∈ s.dropped ↔ ∃ before e after, actions = before ++ .emit e :: after ∧
      ((start subscribers).actAll before).MissesNext x) ∧
    s.published .subscriberOverflow = s.dropped.filterMap s.dropReport? ∧
    s.published .subscriberPanicked = s.finished.filterMap s.panicReport? ∧
    (∀ e ∈ s.events, e.topic = .subscriberOverflow ∨ e.topic = .subscriberPanicked) ∧
    (.close ∉ actions → s.emitted = actions.filterMap (·.event?)) := by
  intro s
  have hreported : s.Reported := (reported_start subscribers).actAll (sound_start _) actions
  refine ⟨fun i name capacity hi ↦ ?_,
    nodup_dropped_actAll List.nodup_nil (reported_start _) (sound_start _) actions, fun x ↦ ?_,
    hreported.overflows, hreported.panics, hreported.topics, emitted_actAll rfl⟩
  · obtain ⟨p, hp, h, hname, hcapacity, halone⟩ := exists_share? hi actions
    exact ⟨p, hp, hname, hcapacity, hcapacity ▸ h.fits, h.accounted, h.serial,
      fun e next rest outcome hw hq ↦ handed_complete_advance hp hw hq outcome, h.ended,
      kept_of_allEnded hp h, halone⟩
  · rw [mem_dropped_actAll (sound_start subscribers)]
    exact or_iff_right List.not_mem_nil

/-- Two subscribers for one event each: both miss the second event, one panics, and when all is over
both have handled the first. -/
theorem every_event_accounted_of_overflow :
    let s := (start [("a", 1), ("b", 0)]).actAll
      [.emit .shutdownRequested, .emit .graceExceeded, .advance 0, .complete 0 (.panicked "boom"),
        .close, .advance 1, .advance 0, .complete 1 .returned, .advance 1]
    s.dropped.Nodup ∧
      s.published .subscriberOverflow = [.subscriberOverflow "a" "full",
        .subscriberOverflow "b" "full"] ∧
      s.published .subscriberPanicked = [.subscriberPanicked "a" "boom"] ∧
      ∃ p, s.share? 1 = some p ∧ p.handed = p.kept ∧ p.kept = [.shutdownRequested] := by
  obtain ⟨hshares, hnodup, -, hoverflows, hpanics, -, -⟩ := every_event_accounted
    [("a", 1), ("b", 0)] [.emit .shutdownRequested, .emit .graceExceeded, .advance 0,
      .complete 0 (.panicked "boom"), .close, .advance 1, .advance 0, .complete 1 .returned,
      .advance 1]
  obtain ⟨p, hp, -, -, -, -, -, -, -, hdone, -⟩ := hshares 1 "b" 0 rfl
  have hkept := (hdone (by decide)).1
  refine ⟨hnodup, hoverflows.trans (by decide), hpanics.trans (by decide), p, hp, hkept, ?_⟩
  obtain rfl := Option.some.inj hp
  decide

end Run

end Subscribers

end Informer
