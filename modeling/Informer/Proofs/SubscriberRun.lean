import Mathlib.Data.List.Basic
import Informer.Subscribers
import Informer.Proofs.Session

/-!
# Runs of the fan-out to subscribers

Everything that can happen to a set of subscribers, in any order: events that are emitted, steps of
the workers, ends of handlings, and the closing of the queues, after which nothing is emitted any
more. A subscriber that is blocked is one whose handling no action of the list ends.

The record of a run says which event was dropped for whom: events are numbered in the order in which
they are emitted. `Share` is what such a run holds of one subscriber. `share?_act` says that an
action changes a share in a way that depends on the share alone, so a subscriber fares as if it were
the only one (`share?_alone`), and everything that concerns one subscriber is shown of shares
(`Share.Sound`).
-/

namespace Informer

namespace Subscribers

/-! ### What single steps do -/

@[simp] theorem offer_name (c : Subscriber) (e : RuntimeEvent) : (c.offer e).name = c.name := by
  unfold Subscriber.offer
  split <;> rfl

@[simp] theorem offer_capacity (c : Subscriber) (e : RuntimeEvent) :
    (c.offer e).capacity = c.capacity := by
  unfold Subscriber.offer
  split <;> rfl

@[simp] theorem offer_worker (c : Subscriber) (e : RuntimeEvent) :
    (c.offer e).worker = c.worker := by
  unfold Subscriber.offer
  split <;> rfl

/-- The report that an event is dropped for a subscriber, if it is and that is to be reported. -/
def overflowReport? (e : RuntimeEvent) (c : Subscriber) : Option RuntimeEvent :=
  c.refusal?.bind fun reason ↦
    if e.isOverflow then none else some (.subscriberOverflow c.name reason)

/-- What is published when an event is emitted. -/
theorem events_emit (s : Subscribers) (e : RuntimeEvent) :
    Effect.events (s.emit e).2 = s.channels.filterMap (overflowReport? e) := by
  have hone : ∀ x : Subscriber × Nat, Effect.events (offerEffects e x.1 x.2) =
      (overflowReport? e x.1).toList := by
    rintro ⟨c, i⟩
    rcases hr : c.refusal? with - | reason
    · by_cases hidle : c.worker.isIdle = true <;>
        simp [offerEffects, overflowReport?, hr, hidle, Effect.events, Effect.event?]
    · by_cases ho : e.isOverflow = true <;>
        simp [offerEffects, overflowReport?, hr, ho, Effect.events, Effect.event?]
  have hlist : Effect.events (s.emit e).2 =
      s.channels.zipIdx.flatMap fun x ↦ (overflowReport? e x.1).toList := by
    simp only [emit, Effect.events, List.filterMap_flatMap]
    exact List.flatMap_congr fun x _ ↦ hone x
  rw [hlist, ← List.filterMap_eq_flatMap_toList]
  conv_rhs => rw [← List.zipIdx_map_fst 0 s.channels, List.filterMap_map]
  rfl

/-- What an emission reports are missed events. -/
theorem topic_of_overflowReport? {e report : RuntimeEvent} {cs : List Subscriber}
    (h : report ∈ cs.filterMap (overflowReport? e)) : report.topic = .subscriberOverflow := by
  obtain ⟨c, -, hc⟩ := List.mem_filterMap.1 h
  obtain ⟨reason, -, hreason⟩ := Option.bind_eq_some_iff.1 hc
  obtain ⟨-, hreport⟩ := Option.ite_none_left_eq_some.1 hreason
  rw [← Option.some.inj hreport]
  rfl

/-- What the worker of a subscriber does when it runs: it takes the next event, or it ends because
the queues are closed and there is none, or it does nothing. -/
theorem advance_cases (s : Subscribers) (i : Nat) :
    (∃ c e rest, s.channels[i]? = some c ∧ c.worker = .idle ∧ c.queue = e :: rest ∧
      s.advance i = (s.modify i .take, .took e)) ∨
    (∃ c, s.channels[i]? = some c ∧ c.worker = .idle ∧ c.queue = [] ∧ s.closed = true ∧
      s.advance i = (s.modify i .finish, .ended)) ∨
    ((∀ c, s.channels[i]? = some c → c.worker = .idle → c.queue = [] ∧ s.closed = false) ∧
      ∃ step, s.advance i = (s, step) ∧ ∀ e, step ≠ .took e) := by
  have hended : ∀ e : RuntimeEvent, WorkerStep.ended ≠ .took e := fun _ ↦ nofun
  have hwaits : ∀ e : RuntimeEvent, WorkerStep.waits ≠ .took e := fun _ ↦ nofun
  rcases hc : s.channels[i]? with - | c
  · exact .inr (.inr ⟨fun _ ↦ nofun, .ended, by simp [advance, hc], hended⟩)
  · rcases hw : c.worker with - | e | -
    · rcases hq : c.queue with - | ⟨e, rest⟩
      · cases hs : s.closed with
        | true => exact .inr (.inl ⟨c, rfl, hw, hq, rfl, by simp [advance, hc, hw, hq, hs]⟩)
        | false =>
          refine .inr (.inr ⟨fun c' hc' _ ↦ ?_, .waits, by simp [advance, hc, hw, hq, hs], hwaits⟩)
          cases hc'
          exact ⟨hq, rfl⟩
      · exact .inl ⟨c, e, rest, rfl, hw, hq, by simp [advance, hc, hw, hq]⟩
    · refine .inr (.inr ⟨fun c' hc' hw' ↦ ?_, .waits, by simp [advance, hc, hw], hwaits⟩)
      cases hc'
      simp [hw] at hw'
    · refine .inr (.inr ⟨fun c' hc' hw' ↦ ?_, .ended, by simp [advance, hc, hw], hended⟩)
      cases hc'
      simp [hw] at hw'

/-- What a subscriber is handling. -/
def handling? (s : Subscribers) (i : Nat) : Option RuntimeEvent :=
  (s.channels[i]?).bind (·.worker.item?)

/-- What the end of a handling does: nothing, unless the subscriber is handling something. -/
theorem complete_cases (s : Subscribers) (i : Nat) (outcome : Outcome) :
    (∃ c e, s.channels[i]? = some c ∧ c.worker = .busy e ∧
      (s.complete i outcome).1 = s.modify i .rest ∧
      Effect.events (s.complete i outcome).2 = match outcome with
        | .panicked reason => [.subscriberPanicked c.name reason]
        | .returned => []) ∨
    (s.handling? i = none ∧ s.complete i outcome = (s, [])) := by
  rcases hc : s.channels[i]? with - | c
  · exact .inr ⟨by simp [handling?, hc], by simp [complete, hc]⟩
  · rcases hw : c.worker with - | e | -
    · exact .inr ⟨by simp [handling?, hc, hw, Worker.item?], by simp [complete, hc, hw]⟩
    · refine .inl ⟨c, e, rfl, hw, ?_⟩
      cases outcome <;> simp [complete, hc, hw, Effect.events, Effect.event?]
    · exact .inr ⟨by simp [handling?, hc, hw, Worker.item?], by simp [complete, hc, hw]⟩

theorem channels_modify (s : Subscribers) (i j : Nat) (g : Subscriber → Subscriber) :
    (s.modify i g).channels[j]? = (s.channels[j]?).map fun c ↦ if i = j then g c else c :=
  List.getElem?_modify g i s.channels j

@[simp] theorem closed_modify (s : Subscribers) (i : Nat) (g : Subscriber → Subscriber) :
    (s.modify i g).closed = s.closed :=
  rfl

/-- Closing the queues publishes nothing. -/
theorem events_close (s : Subscribers) : Effect.events s.close.2 = [] := by
  refine List.eq_nil_iff_forall_not_mem.2 fun e he ↦ ?_
  obtain ⟨effect, heffect, hevent⟩ := List.mem_filterMap.1 he
  obtain ⟨x, -, hx⟩ := List.mem_filterMap.1 heffect
  obtain ⟨-, hwake⟩ := Option.ite_none_right_eq_some.1 hx
  rw [← Option.some.inj hwake] at hevent
  cases hevent

/-! ### Runs -/

/-- What can happen to the subscribers. -/
inductive Action where
  | emit (e : RuntimeEvent)
  /-- The worker of a subscriber runs while it is idle. -/
  | advance (i : Nat)
  /-- The handling that a subscriber is busy with ends. -/
  | complete (i : Nat) (outcome : Outcome)
  /-- The queues are closed, by the one who emits. -/
  | close
deriving DecidableEq

/-- Subscribers with the record of what came of driving them. -/
structure Run where
  state : Subscribers
  /-- The events that were emitted. -/
  emitted : List RuntimeEvent := []
  /-- Which subscriber missed which event, by their numbers. -/
  dropped : List (Nat × Nat) := []
  /-- What was given to subscribers, in the order in which the handling began. -/
  handed : List (Nat × RuntimeEvent) := []
  /-- What subscribers are done with, in the order in which the handling ended, and how it ended. -/
  finished : List (Nat × RuntimeEvent × Outcome) := []
  /-- The runtime events that were published. -/
  events : List RuntimeEvent := []

/-- The numbers of the subscribers that cannot queue an event now. -/
def refusing (s : Subscribers) : List Nat :=
  s.channels.zipIdx.filterMap fun (c, i) ↦ c.refusal?.map fun _ ↦ i

namespace Run

variable (s : Run)

/-- Takes over a step of the subscribers and the events that it publishes. -/
def record (result : Subscribers × List Effect) : Run :=
  { s with state := result.1, events := s.events ++ Effect.events result.2 }

/-- One action. -/
def act : Action → Run
  | .emit e =>
    if s.state.closed then s
    else
      { s.record (s.state.emit e) with
        emitted := s.emitted ++ [e]
        dropped := s.dropped ++ s.state.refusing.map fun i ↦ (i, s.emitted.length) }
  | .advance i => match s.state.advance i with
    | (state, .took e) => { s with state, handed := s.handed ++ [(i, e)] }
    | (state, _) => { s with state }
  | .complete i outcome =>
    { s.record (s.state.complete i outcome) with
      finished := s.finished ++ ((s.state.handling? i).map fun e ↦ (i, e, outcome)).toList }
  | .close => s.record s.state.close

/-- Some actions, one after another. -/
def actAll (actions : List Action) : Run := actions.foldl act s

@[simp] theorem actAll_nil : s.actAll [] = s := rfl

@[simp] theorem actAll_cons (a : Action) (actions : List Action) :
    s.actAll (a :: actions) = (s.act a).actAll actions :=
  rfl

theorem actAll_append (before after : List Action) :
    s.actAll (before ++ after) = (s.actAll before).actAll after :=
  List.foldl_append

/-- Subscribers with these names and capacities, before anything happened. -/
def start (subscribers : List (String × Nat)) : Run where
  state := .ofList subscribers

end Run

/-! ### The share of one subscriber -/

/-- Events but for those with some numbers. -/
def without (numbers : List Nat) (events : List RuntimeEvent) : List RuntimeEvent :=
  (events.zipIdx.filter (·.2 ∉ numbers)).map (·.1)

theorem without_concat {numbers : List Nat} {events : List RuntimeEvent}
    (h : ∀ k ∈ numbers, k < events.length) (e : RuntimeEvent) :
    without numbers (events ++ [e]) = without numbers events ++ [e] := by
  have hlast : events.length ∉ numbers := fun hmem ↦ Nat.lt_irrefl _ (h _ hmem)
  simp [without, List.zipIdx_append, hlast]

theorem without_concat_self (numbers : List Nat) (events : List RuntimeEvent) (e : RuntimeEvent) :
    without (numbers ++ [events.length]) (events ++ [e]) = without numbers events := by
  have hold : events.zipIdx.filter (·.2 ∉ numbers ++ [events.length]) =
      events.zipIdx.filter (·.2 ∉ numbers) := by
    refine List.filter_congr fun x hx ↦ ?_
    have hlt : x.2 < events.length := by simpa using List.snd_lt_of_mem_zipIdx hx
    simp [Nat.ne_of_lt hlt]
  rw [without, List.zipIdx_append, List.filter_append, hold]
  simp [without]

/-- One subscriber with what the record of a run says of it. -/
structure Share where
  subscriber : Subscriber
  closed : Bool := false
  emitted : List RuntimeEvent := []
  /-- The numbers of the events that were dropped for it. -/
  dropped : List Nat := []
  handed : List RuntimeEvent := []
  finished : List (RuntimeEvent × Outcome) := []

namespace Share

variable (p : Share)

/-- An event is offered. -/
def offer (e : RuntimeEvent) : Share :=
  if p.closed then p
  else
    { p with
      subscriber := p.subscriber.offer e
      emitted := p.emitted ++ [e]
      dropped := p.dropped ++ (p.subscriber.refusal?.map fun _ ↦ p.emitted.length).toList }

/-- The worker runs while it is idle. -/
def advance : Share :=
  match p.subscriber.worker, p.subscriber.queue with
  | .idle, e :: _ => { p with subscriber := p.subscriber.take, handed := p.handed ++ [e] }
  | .idle, [] => if p.closed then { p with subscriber := p.subscriber.finish } else p
  | _, _ => p

/-- The handling of an event ends. -/
def complete (outcome : Outcome) : Share :=
  match p.subscriber.worker with
  | .busy e => { p with subscriber := p.subscriber.rest, finished := p.finished ++ [(e, outcome)] }
  | _ => p

/-- What an action does to the share of the subscriber with number `i`. -/
def act (i : Nat) : Action → Share
  | .emit e => p.offer e
  | .advance j => if j = i then p.advance else p
  | .complete j outcome => if j = i then p.complete outcome else p
  | .close => { p with closed := true }

/-- The emitted events but for the dropped ones. -/
def kept : List RuntimeEvent := without p.dropped p.emitted

end Share

namespace Run

variable (s : Run)

/-- The share of a subscriber. -/
def share? (i : Nat) : Option Share :=
  (s.state.channels[i]?).map fun c ↦
    { subscriber := c
      closed := s.state.closed
      emitted := s.emitted
      dropped := (s.dropped.filter (·.1 = i)).map (·.2)
      handed := (s.handed.filter (·.1 = i)).map (·.2)
      finished := (s.finished.filter (·.1 = i)).map (·.2) }

theorem filter_zipIdx {α : Type} (xs : List α) (i start : Nat) :
    (xs.zipIdx start).filter (·.2 = start + i) = (xs[i]?.map fun x ↦ (x, start + i)).toList := by
  induction xs generalizing i start with
  | nil => rfl
  | cons x xs ih =>
    rw [List.zipIdx_cons, List.filter_cons]
    rcases i with - | i
    · have hrest : (xs.zipIdx (start + 1)).filter (·.2 = start + 0) = [] := by
        refine List.filter_eq_nil_iff.2 fun y hy ↦ ?_
        have hle := List.le_snd_of_mem_zipIdx hy
        simp only [decide_eq_true_eq]
        omega
      rw [hrest]
      simp
    · have hshift : start + (i + 1) = start + 1 + i := by omega
      rw [if_neg (by simp), hshift, ih, List.getElem?_cons_succ]

/-- An event is dropped for a subscriber if it cannot be queued there. -/
theorem filter_refusing (s : Subscribers) (i k : Nat) :
    ((s.refusing.map fun j ↦ (j, k)).filter (·.1 = i)).map (·.2) =
      ((s.channels[i]?).bind fun c ↦ c.refusal?.map fun _ ↦ k).toList := by
  have hself : s.channels.zipIdx.filter (·.2 = i) =
      (s.channels[i]?.map fun c ↦ (c, i)).toList := by
    have h := filter_zipIdx s.channels i 0
    rwa [Nat.zero_add] at h
  have hfilter : ((s.refusing.map fun j ↦ (j, k)).filter (·.1 = i)).map (·.2) =
      (s.channels.zipIdx.filter (·.2 = i)).filterMap fun x ↦ x.1.refusal?.map fun _ ↦ k := by
    rw [refusing, List.map_filterMap, List.filter_filterMap, List.map_filterMap,
      List.filterMap_filter]
    refine List.filterMap_congr fun x _ ↦ ?_
    by_cases h : x.2 = i <;> cases hr : x.1.refusal? <;> simp [h, hr]
  rw [hfilter, hself]
  cases s.channels[i]? with
  | none => rfl
  | some c => cases h : c.refusal? <;> simp [h]

theorem share?_emit (e : RuntimeEvent) (i : Nat) :
    (s.act (.emit e)).share? i = (s.share? i).map (·.offer e) := by
  cases hs : s.state.closed with
  | true => cases hc : s.state.channels[i]? <;> simp [act, share?, Share.offer, hs, hc]
  | false =>
    have hchannels : (s.state.emit e).1.channels[i]? = (s.state.channels[i]?).map (·.offer e) :=
      List.getElem?_map
    have hclosed : (s.state.emit e).1.closed = s.state.closed := rfl
    cases hc : s.state.channels[i]? with
    | none => simp [act, share?, record, hs, hchannels, hc]
    | some c =>
      simp [act, share?, record, Share.offer, hs, hchannels, hclosed, hc, filter_refusing]

theorem share?_advance_self (i : Nat) :
    (s.act (.advance i)).share? i = (s.share? i).map (·.advance) := by
  rcases advance_cases s.state i with
    ⟨c, e, rest, hc, hw, hq, ha⟩ | ⟨c, hc, hw, hq, hs, ha⟩ | ⟨hidle, step, ha, hstep⟩
  · simp [act, ha, share?, channels_modify, hc, Share.advance, hw, hq]
  · simp [act, ha, share?, channels_modify, hc, Share.advance, hw, hq, hs]
  · have hsame : s.act (.advance i) = s := by simp only [act, ha]
    rw [hsame]
    cases hc : s.state.channels[i]? with
    | none => simp [share?, hc]
    | some c =>
      cases hw : c.worker with
      | idle =>
        obtain ⟨hq, hs⟩ := hidle c hc hw
        simp [share?, hc, Share.advance, hw, hq, hs]
      | _ => simp [share?, hc, Share.advance, hw]

theorem share?_complete_self (i : Nat) (outcome : Outcome) :
    (s.act (.complete i outcome)).share? i = (s.share? i).map (·.complete outcome) := by
  rcases complete_cases s.state i outcome with ⟨c, e, hc, hw, ha, -⟩ | ⟨hnone, ha⟩
  · have hhandling : s.state.handling? i = some e := by simp [handling?, hc, hw, Worker.item?]
    simp [act, ha, record, share?, channels_modify, hc, Share.complete, hw, hhandling]
  · cases hc : s.state.channels[i]? with
    | none => simp [act, ha, record, share?, hc, hnone]
    | some c =>
      cases hw : c.worker with
      | busy e => simp [handling?, hc, hw, Worker.item?] at hnone
      | _ => simp [act, ha, record, share?, hc, hnone, Share.complete, hw]

/-- A step of another worker. -/
theorem share?_of_ne {i j : Nat} (h : j ≠ i) :
    (s.act (.advance j)).share? i = s.share? i ∧
      ∀ outcome, (s.act (.complete j outcome)).share? i = s.share? i := by
  constructor
  · rcases advance_cases s.state j with
      ⟨c, e, rest, hc, hw, hq, ha⟩ | ⟨c, hc, hw, hq, hs, ha⟩ | ⟨-, step, ha, hstep⟩
    · simp [act, ha, share?, channels_modify, h]
    · simp [act, ha, share?, channels_modify, h]
    · simp only [act, ha]
  · intro outcome
    rcases complete_cases s.state j outcome with ⟨c, e, hc, hw, ha, -⟩ | ⟨hnone, ha⟩
    · have hhandling : s.state.handling? j = some e := by simp [handling?, hc, hw, Worker.item?]
      simp [act, ha, record, share?, channels_modify, h, hhandling]
    · simp [act, ha, record, share?, hnone]

/-- **An action changes the share of a subscriber in a way that depends on that share alone.** -/
theorem share?_act (a : Action) (i : Nat) : (s.act a).share? i = (s.share? i).map (·.act i a) := by
  cases a with
  | emit e => exact s.share?_emit e i
  | advance j =>
    by_cases hj : j = i
    · subst hj
      simpa only [Share.act, if_pos] using s.share?_advance_self j
    · simpa only [Share.act, if_neg hj, Option.map_id'] using (s.share?_of_ne hj).1
  | complete j outcome =>
    by_cases hj : j = i
    · subst hj
      simpa only [Share.act, if_pos] using s.share?_complete_self j outcome
    · simpa only [Share.act, if_neg hj, Option.map_id'] using (s.share?_of_ne hj).2 outcome
  | close =>
    have hclosed : s.state.close.1.closed = true := rfl
    have hchannels : s.state.close.1.channels = s.state.channels := rfl
    simp only [act, record, share?, hclosed, hchannels, Option.map_map]
    rfl

/-- Some actions change the share of a subscriber one after another. -/
theorem share?_actAll (actions : List Action) (i : Nat) :
    (s.actAll actions).share? i = (s.share? i).map fun p ↦ actions.foldl (·.act i ·) p := by
  induction actions generalizing s with
  | nil => simp
  | cons a actions ih => rw [actAll_cons, ih, share?_act, Option.map_map]; rfl

end Run

/-! ### What holds of a share at any time -/

namespace Share

/-- What is the same at any time of any run. -/
structure Sound (p : Share) : Prop where
  /-- A queue holds at most its capacity. -/
  fits : p.subscriber.queue.length ≤ p.subscriber.capacity
  /-- What was handed over, and after it what waits, is what was not dropped. -/
  accounted : p.handed ++ p.subscriber.queue = p.kept
  /-- Events are handled one by one, in the order in which they were handed over. -/
  serial : p.handed = p.finished.map (·.1) ++ p.subscriber.worker.item?.toList
  /-- A worker goes on until the queues are closed and nothing waits. -/
  ended : p.subscriber.worker.isEnded = true → p.closed = true ∧ p.subscriber.queue = []
  numbered : ∀ k ∈ p.dropped, k < p.emitted.length

variable {p : Share}

theorem Sound.offer (h : p.Sound) (e : RuntimeEvent) : (p.offer e).Sound := by
  unfold Share.offer
  split
  · exact h
  · next hopen =>
    have hrun : p.subscriber.worker.isEnded = false := by
      by_contra hended
      exact hopen (h.ended (by simpa using hended)).1
    by_cases hfull : p.subscriber.capacity ≤ p.subscriber.queue.length
    · have hr : p.subscriber.refusal? = some "full" := by simp [Subscriber.refusal?, hrun, hfull]
      have hsame : p.subscriber.offer e = p.subscriber := by simp [Subscriber.offer, hr]
      simp only [hr, hsame, Option.map_some, Option.toList_some]
      exact
        { h with
          accounted := h.accounted.trans (without_concat_self _ _ _).symm
          numbered := fun k hk ↦ by
            rw [List.length_append]
            rcases List.mem_append.1 hk with hk | hk
            · exact Nat.lt_add_right _ (h.numbered k hk)
            · rw [List.mem_singleton.1 hk]
              exact Nat.lt_succ_self _ }
    · have hr : p.subscriber.refusal? = none := by simp [Subscriber.refusal?, hrun, hfull]
      have hqueued : p.subscriber.offer e =
          { p.subscriber with queue := p.subscriber.queue ++ [e] } := by
        simp [Subscriber.offer, hr]
      simp only [hr, hqueued, Option.map_none, Option.toList_none, List.append_nil]
      exact
        { fits := by
            rw [List.length_append, List.length_singleton]
            exact Nat.lt_of_not_le hfull
          accounted := by
            rw [kept, without_concat h.numbered, ← kept, ← h.accounted, List.append_assoc]
          serial := h.serial
          ended := fun hended ↦ absurd hended (by simp [hrun])
          numbered := fun k hk ↦ by
            rw [List.length_append]
            exact Nat.lt_add_right _ (h.numbered k hk) }

theorem Sound.advance (h : p.Sound) : p.advance.Sound := by
  unfold Share.advance
  split
  · next e rest hw hq =>
    have htake : p.subscriber.take = { p.subscriber with queue := rest, worker := .busy e } := by
      simp [Subscriber.take, hw, hq]
    simp only [htake]
    exact
      { fits := by
          have hfits := h.fits
          rw [hq, List.length_cons] at hfits
          exact Nat.le_of_succ_le hfits
        accounted := by
          have haccounted := h.accounted
          rw [hq] at haccounted
          rw [List.append_assoc]
          exact haccounted
        serial := by simp [h.serial, hw, Worker.item?]
        ended := nofun
        numbered := h.numbered }
  · next hw hq =>
    split
    · next hclosed =>
      exact
        { h with
          serial := by
            rw [h.serial, hw]
            rfl
          ended := fun _ ↦ ⟨hclosed, hq⟩ }
    · exact h
  · exact h

theorem Sound.complete (h : p.Sound) (outcome : Outcome) : (p.complete outcome).Sound := by
  unfold Share.complete
  split
  · next e hw =>
    have hrest : p.subscriber.rest = { p.subscriber with worker := .idle } := by
      simp [Subscriber.rest, hw]
    simp only [hrest]
    exact
      { h with
        serial := by
          rw [h.serial, hw, List.map_append]
          exact (List.append_nil _).symm
        ended := nofun }
  · exact h

theorem Sound.act (h : p.Sound) (i : Nat) (a : Action) : (p.act i a).Sound := by
  cases a with
  | emit e => exact h.offer e
  | advance j =>
    simp only [Share.act]
    split
    · exact h.advance
    · exact h
  | complete j outcome =>
    simp only [Share.act]
    split
    · exact h.complete outcome
    · exact h
  | close => exact { h with ended := fun hended ↦ ⟨rfl, (h.ended hended).2⟩ }

/-- Names and capacities stay as they are. -/
theorem act_subscriber (p : Share) (i : Nat) (a : Action) :
    (p.act i a).subscriber.name = p.subscriber.name ∧
      (p.act i a).subscriber.capacity = p.subscriber.capacity := by
  cases a with
  | emit e =>
    simp only [Share.act, Share.offer]
    split <;> simp
  | advance j =>
    simp only [Share.act, Share.advance]
    split
    · split
      · simp only [Subscriber.take]
        split <;> simp
      · split <;> simp [Subscriber.finish]
      · simp
    · simp
  | complete j outcome =>
    simp only [Share.act, Share.complete]
    split
    · split
      · simp only [Subscriber.rest]
        split <;> simp
      · simp
    · simp
  | close => exact ⟨rfl, rfl⟩

theorem foldl_subscriber (p : Share) (i : Nat) (actions : List Action) :
    (actions.foldl (·.act i ·) p).subscriber.name = p.subscriber.name ∧
      (actions.foldl (·.act i ·) p).subscriber.capacity = p.subscriber.capacity := by
  induction actions generalizing p with
  | nil => exact ⟨rfl, rfl⟩
  | cons a actions ih =>
    obtain ⟨hname, hcapacity⟩ := p.act_subscriber i a
    exact ⟨(ih _).1.trans hname, (ih _).2.trans hcapacity⟩

end Share

namespace Run

/-- The subscribers by name and capacity. -/
def roster (s : Run) : List (String × Nat) := s.state.channels.map fun c ↦ (c.name, c.capacity)

/-- What holds of every share. -/
def Sound (s : Run) : Prop := ∀ i p, s.share? i = some p → p.Sound

variable {s : Run}

theorem Sound.act (h : s.Sound) (a : Action) : (s.act a).Sound := by
  intro i p hp
  rw [share?_act, Option.map_eq_some_iff] at hp
  obtain ⟨q, hq, rfl⟩ := hp
  exact (h i q hq).act i a

theorem sound_start (subscribers : List (String × Nat)) : (start subscribers).Sound := by
  intro i p hp
  obtain ⟨c, hc, rfl⟩ := Option.map_eq_some_iff.1 hp
  obtain ⟨x, -, rfl⟩ := List.getElem?_map ▸ hc |> Option.map_eq_some_iff.1
  exact ⟨Nat.zero_le _, rfl, rfl, nofun, nofun⟩

theorem Sound.actAll (h : s.Sound) (actions : List Action) : (s.actAll actions).Sound := by
  induction actions generalizing s with
  | nil => exact h
  | cons a actions ih => exact ih (h.act a)

theorem roster_act (s : Run) (a : Action) : (s.act a).roster = s.roster := by
  have hlook : ∀ (t : Run) (i : Nat), t.roster[i]? =
      (t.share? i).map fun p ↦ (p.subscriber.name, p.subscriber.capacity) := by
    intro t i
    simp [roster, share?, Function.comp_def]
  refine List.ext_getElem? fun i ↦ ?_
  rw [hlook, hlook, share?_act, Option.map_map]
  congr 1
  funext p
  exact Prod.ext (p.act_subscriber i a).1 (p.act_subscriber i a).2

/-- A worker goes on: whatever the end of a handling, the worker that runs then takes the event that
waits longest. -/
theorem handed_complete_advance {i : Nat} {p : Share} {e next : RuntimeEvent}
    {rest : List RuntimeEvent} (hp : s.share? i = some p) (hw : p.subscriber.worker = .busy e)
    (hq : p.subscriber.queue = next :: rest) (outcome : Outcome) :
    (((s.act (.complete i outcome)).act (.advance i)).share? i).map (·.handed) =
      some (p.handed ++ [next]) := by
  rw [share?_act, share?_act, hp]
  simp [Share.act, Share.complete, Share.advance, hw, hq, Subscriber.rest]

theorem share?_start (subscribers : List (String × Nat)) (i : Nat) :
    (start subscribers).share? i = (subscribers[i]?).map fun subscriber ↦
      { subscriber := { name := subscriber.1, capacity := max subscriber.2 1 } } := by
  have hchannels : (start subscribers).state.channels[i]? = (subscribers[i]?).map _ :=
    List.getElem?_map
  rw [share?, hchannels, Option.map_map]
  rfl

end Run

/-! ### One subscriber among others -/

namespace Action

/-- What is left of an action for a set of one subscriber, which has the number `i` here. -/
def alone (i : Nat) : Action → Option Action
  | .emit e => some (.emit e)
  | .advance j => if j = i then some (.advance 0) else none
  | .complete j outcome => if j = i then some (.complete 0 outcome) else none
  | .close => some .close

end Action

namespace Run

variable {s t : Run}

/-- **A subscriber fares among others as it would fare alone.** -/
theorem share?_alone {i : Nat} (h : t.share? 0 = s.share? i) (actions : List Action) :
    (t.actAll (actions.filterMap (·.alone i))).share? 0 = (s.actAll actions).share? i := by
  rw [share?_actAll, share?_actAll, h]
  congr 1
  funext p
  rw [List.foldl_filterMap]
  congr 1
  funext q a
  cases a with
  | emit e => rfl
  | advance j => by_cases hj : j = i <;> simp [Action.alone, Share.act, hj]
  | complete j outcome => by_cases hj : j = i <;> simp [Action.alone, Share.act, hj]
  | close => rfl

end Run

end Subscribers

end Informer
