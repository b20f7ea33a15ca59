import Informer.Fanout

/-!
# Sessions of a fan-out

A part of the cache that is driven from outside, with a record of what came of it: which
notifications were given to which callback, how their handling ended, and which runtime events were
published. What comes next is chosen freely, so a list of actions is one interleaving, and all lists
are all of them. A callback that never returns is one whose handling no action of the list
completes.

The worker of a callback has no action before its own: it takes a notification when it *advances*,
and handles it until the handling is *completed*. `advance_cases` and `complete_cases` say once what
these two steps can do; everything about runs is derived from them.
-/

namespace Informer

/-- A part of the cache with the record of what came of driving it. -/
structure Session (σ : Type) where
  state : σ
  /-- The number of the next callback. -/
  nextCallback : Nat := 1
  /-- Whether the stop signal was given. -/
  stopped : Bool := false
  /-- What was given to callbacks, in the order in which the handling began. -/
  handed : List (Nat × Notification) := []
  /-- What callbacks are done with, in the order in which the handling ended, and how it ended. -/
  finished : List (Nat × Notification × Outcome) := []
  /-- The runtime events that were published. -/
  events : List RuntimeEvent := []

namespace Session

variable {σ τ : Type} (s : Session σ)

/-- Takes over a step of the state and the events that it publishes. -/
def record (result : σ × List Effect) : Session σ :=
  { s with state := result.1, events := s.events ++ Effect.events result.2 }

/-- The same session of a part of the state, or of something that the state is a part of. -/
def map (f : σ → τ) : Session τ where
  state := f s.state
  nextCallback := s.nextCallback
  stopped := s.stopped
  handed := s.handed
  finished := s.finished
  events := s.events

/-- What was given to a callback. -/
def handedTo (id : Nat) : List Notification := (s.handed.filter (·.1 = id)).map (·.2)

/-- What a callback is done with. -/
def finishedBy (id : Nat) : List Notification := (s.finished.filter (·.1 = id)).map (·.2.1)

variable {s} in
theorem handedTo_of_append {t : Session τ} {new : List (Nat × Notification)}
    (h : t.handed = s.handed ++ new) (id : Nat) :
    t.handedTo id = s.handedTo id ++ (new.filter (·.1 = id)).map (·.2) := by
  rw [handedTo, h, List.filter_append, List.map_append, handedTo]

variable {s} in
theorem finishedBy_of_append {t : Session τ} {new : List (Nat × Notification × Outcome)}
    (h : t.finished = s.finished ++ new) (id : Nat) :
    t.finishedBy id = s.finishedBy id ++ (new.filter (·.1 = id)).map (·.2.1) := by
  rw [finishedBy, h, List.filter_append, List.map_append, finishedBy]

end Session

/-- What a worker is handling. -/
def Worker.item? {α : Type} : Worker α → Option α
  | busy item => some item
  | _ => none

namespace Fanout

/-! ### Looking up callbacks -/

/-- What waits for a callback. -/
def queueOf (f : Fanout) (id : Nat) : List Notification := ((f.channel? id).map (·.queue)).getD []

/-- What a callback is handling. -/
def handling? (f : Fanout) (id : Nat) : Option Notification := (f.channel? id).bind (·.worker.item?)

/-- The worker of a callback. -/
def worker? (f : Fanout) (id : Nat) : Option (Worker Notification) := (f.channel? id).map (·.worker)

/-- The name of a callback in runtime events. -/
def nameOf (f : Fanout) (id : Nat) : String := ((f.channel? id).map (·.name)).getD ""

@[simp] theorem push_id (c : Channel) (n : Notification) : (c.push n).id = c.id := by
  unfold Channel.push
  split <;> rfl

@[simp] theorem push_name (c : Channel) (n : Notification) : (c.push n).name = c.name := by
  unfold Channel.push
  split <;> rfl

@[simp] theorem push_worker (c : Channel) (n : Notification) : (c.push n).worker = c.worker := by
  unfold Channel.push
  split <;> rfl

@[simp] theorem take_id (c : Channel) : c.take.id = c.id := by
  unfold Channel.take
  split <;> rfl

@[simp] theorem rest_id (c : Channel) : c.rest.id = c.id := by
  unfold Channel.rest
  split <;> rfl

@[simp] theorem finish_id (c : Channel) : c.finish.id = c.id := rfl

theorem take_name (c : Channel) : c.take.name = c.name := by
  unfold Channel.take
  split <;> rfl

theorem rest_name (c : Channel) : c.rest.name = c.name := by
  unfold Channel.rest
  split <;> rfl

theorem rest_item? (c : Channel) : c.rest.worker.item? = none := by
  unfold Channel.rest
  split
  · rfl
  · next hne =>
    cases hw : c.worker with
    | idle => rfl
    | busy n => exact absurd hw (hne n)
    | ended => rfl

theorem rest_queue (c : Channel) : c.rest.queue = c.queue := by
  unfold Channel.rest
  split <;> rfl

theorem take_queue {c : Channel} {n : Notification} {rest : List Notification}
    (hw : c.worker = .idle) (hq : c.queue = n :: rest) : c.take.queue = rest := by
  unfold Channel.take
  split
  · next he =>
    rw [hq] at he
    exact (List.cons.inj he).2.symm
  · next hne => exact absurd hq (hne n rest hw)

theorem push_ended {c : Channel} (h : c.worker = .ended) (n : Notification) :
    (c.push n).worker = .ended := by
  rw [push_worker, h]

theorem take_ended {c : Channel} (h : c.worker = .ended) : c.take.worker = .ended := by
  simp [Channel.take, h]

theorem rest_ended {c : Channel} (h : c.worker = .ended) : c.rest.worker = .ended := by
  simp [Channel.rest, h]

theorem take_isEnded (c : Channel) : c.take.worker.isEnded = c.worker.isEnded := by
  unfold Channel.take
  split
  · next hw _ => simp [hw, Worker.isEnded]
  · rfl

theorem rest_isEnded (c : Channel) : c.rest.worker.isEnded = c.worker.isEnded := by
  unfold Channel.rest
  split
  · next hw => simp [hw, Worker.isEnded]
  · rfl

theorem push_queue {c : Channel} (h : c.worker.isEnded = false) (n : Notification) :
    (c.push n).queue = c.queue ++ [n] := by
  rw [Channel.push, if_neg (by simp [h])]

theorem id_of_channel? {f : Fanout} {id : Nat} {c : Channel} (h : f.channel? id = some c) :
    c.id = id := by
  simpa using List.find?_some h

theorem channel?_dispatch (f : Fanout) (n : Notification) (id : Nat) :
    (f.dispatch n).1.channel? id = (f.channel? id).map (·.push n) := by
  rw [channel?, channels_dispatch, List.find?_map]
  congr 2
  funext c
  simp

theorem channel?_modify {g : Channel → Channel} (hg : ∀ c, (g c).id = c.id) (f : Fanout)
    (id other : Nat) :
    (f.modify id g).channel? other = if other = id then (f.channel? other).map g
      else f.channel? other := by
  have hid : ∀ c : Channel, (if c.id = id then g c else c).id = c.id := by
    intro c
    split
    · exact hg c
    · rfl
  rw [channel?, modify, List.find?_map]
  have hcomp : (fun c : Channel ↦ decide (c.id = other)) ∘
      (fun c ↦ if c.id = id then g c else c) = fun c ↦ decide (c.id = other) := by
    funext c
    simp only [Function.comp_apply, hid]
  rw [hcomp, ← channel?]
  rcases hc : f.channel? other with - | c
  · simp
  · rw [Option.map_some, id_of_channel? hc]
    split <;> simp

theorem channel?_modify_self {g : Channel → Channel} (hg : ∀ c, (g c).id = c.id) (f : Fanout)
    (id : Nat) : (f.modify id g).channel? id = (f.channel? id).map g := by
  rw [channel?_modify hg, if_pos rfl]

theorem channel?_modify_of_ne {g : Channel → Channel} (hg : ∀ c, (g c).id = c.id) {id other : Nat}
    (h : other ≠ id) (f : Fanout) : (f.modify id g).channel? other = f.channel? other := by
  rw [channel?_modify hg, if_neg h]

/-- A channel that nothing was taken from: it holds what was pushed. -/
theorem foldl_push (replay : List Notification) (c : Channel) (h : c.worker.isEnded = false) :
    (replay.foldl (·.push) c).id = c.id ∧ (replay.foldl (·.push) c).name = c.name ∧
      (replay.foldl (·.push) c).worker = c.worker ∧
      (replay.foldl (·.push) c).queue = c.queue ++ replay := by
  induction replay generalizing c with
  | nil => simp
  | cons n rest ih =>
    obtain ⟨hid, hname, hworker, hqueue⟩ := ih (c.push n) (by simpa using h)
    simp only [List.foldl_cons, hid, hname, hworker, hqueue, push_id, push_name, push_worker,
      push_queue h, List.append_assoc, List.singleton_append, and_self]

theorem channel?_register (f : Fanout) (id : Nat) (name : String) (replay : List Notification)
    (other : Nat) :
    (f.register id name replay).1.channel? other = (f.channel? other).or
      (if other = id then some (replay.foldl (·.push) { id, name }) else none) := by
  have hid := (foldl_push replay { id, name } rfl).1
  rw [channel?, register, List.find?_append, ← channel?, List.find?_singleton]
  congr 1
  by_cases h : other = id
  · simp [hid, h]
  · simp [hid, h, Ne.symm h]

/-! ### What workers do -/

/-- What the worker of a callback does when it runs: it takes the next notification, or it ends
because of the stop signal, or it does nothing. -/
theorem advance_cases (f : Fanout) (stopped : Bool) (id : Nat) :
    (∃ c n rest, f.channel? id = some c ∧ c.worker = .idle ∧ c.queue = n :: rest ∧
      stopped = false ∧ f.advance stopped id = (f.modify id .take, .took n)) ∨
    (stopped = true ∧ f.advance stopped id = (f.modify id .finish, .ended) ∧
      f.handling? id = none) ∨
    (∃ step, f.advance stopped id = (f, step) ∧ ∀ n, step ≠ .took n) := by
  rcases hc : f.channel? id with - | c
  · exact .inr (.inr ⟨.ended, by simp [advance, hc], by simp⟩)
  · rcases hw : c.worker with - | n | -
    · cases stopped with
      | true => exact .inr (.inl ⟨rfl, by simp [advance, hc, hw], by simp [handling?, hc, hw,
          Worker.item?]⟩)
      | false =>
        rcases hq : c.queue with - | ⟨n, rest⟩
        · exact .inr (.inr ⟨.waits, by simp [advance, hc, hw, hq], by simp⟩)
        · exact .inl ⟨c, n, rest, rfl, hw, hq, rfl, by simp [advance, hc, hw, hq]⟩
    · exact .inr (.inr ⟨.waits, by simp [advance, hc, hw], by simp⟩)
    · exact .inr (.inr ⟨.ended, by simp [advance, hc, hw], by simp⟩)

/-- The report of the end of a handling: there is one if it ended in a panic. -/
def panicReport? (f : Fanout) (id : Nat) (n : Notification) : Outcome → Option RuntimeEvent
  | .panicked reason => some (.callbackPanicked f.kind (f.nameOf id) n.key reason)
  | .returned => none

/-- What the end of a handling does: nothing, unless the callback is handling something. -/
theorem complete_cases (f : Fanout) (id : Nat) (outcome : Outcome) :
    (∃ n, f.handling? id = some n ∧ (f.complete id outcome).1 = f.modify id .rest ∧
      Effect.events (f.complete id outcome).2 = (f.panicReport? id n outcome).toList) ∨
    (f.handling? id = none ∧ f.complete id outcome = (f, [])) := by
  rcases hc : f.channel? id with - | c
  · exact .inr ⟨by simp [handling?, hc], by simp [complete, hc]⟩
  · rcases hw : c.worker with - | n | -
    · exact .inr ⟨by simp [handling?, hc, hw, Worker.item?], by simp [complete, hc, hw]⟩
    · refine .inl ⟨n, by simp [handling?, hc, hw, Worker.item?], ?_⟩
      cases outcome <;>
        simp [complete, hc, hw, panicReport?, nameOf, Effect.events, Effect.event?]
    · exact .inr ⟨by simp [handling?, hc, hw, Worker.item?], by simp [complete, hc, hw]⟩

theorem handling?_modify {g : Channel → Channel} (hg : ∀ c, (g c).id = c.id) (f : Fanout)
    (id other : Nat) :
    (f.modify id g).handling? other =
      if other = id then (f.channel? id).bind fun c ↦ (g c).worker.item?
        else f.handling? other := by
  rw [handling?, channel?_modify hg]
  split
  · next ho => rw [ho, Option.bind_map]; rfl
  · rfl

/-! ### What queueing publishes -/

theorem topic_of_mem_warning {f : Fanout} {c : Channel} {e : RuntimeEvent}
    (h : e ∈ Effect.events (f.warning c)) : e.topic = .callbackBacklog := by
  unfold warning at h
  split at h
  · cases h
  · split at h
    · obtain rfl := List.mem_singleton.1 h
      rfl
    · cases h

/-- Queueing a notification publishes reports of backlogs only. -/
theorem topic_of_mem_dispatch {f : Fanout} {n : Notification} {e : RuntimeEvent}
    (h : e ∈ Effect.events (f.dispatch n).2) : e.topic = .callbackBacklog := by
  obtain ⟨effect, heffect, he⟩ := List.mem_filterMap.1 h
  obtain ⟨c, -, hc⟩ := List.mem_flatMap.1 heffect
  rcases List.mem_append.1 hc with hwake | hwarning
  · split at hwake
    · obtain rfl := List.mem_singleton.1 hwake
      cases he
    · cases hwake
  · exact topic_of_mem_warning (List.mem_filterMap.2 ⟨effect, hwarning, he⟩)

theorem topic_of_mem_warnings {f : Fanout} {c : Channel} {replay : List Notification}
    {e : RuntimeEvent} (h : e ∈ Effect.events (f.warnings c replay)) :
    e.topic = .callbackBacklog := by
  induction replay generalizing c with
  | nil => cases h
  | cons n rest ih =>
    rw [warnings, Effect.events_append, List.mem_append] at h
    rcases h with h | h
    · exact topic_of_mem_warning h
    · exact ih h

/-- Registering a callback publishes reports of backlogs only. -/
theorem topic_of_mem_register {f : Fanout} {id : Nat} {name : String} {replay : List Notification}
    {e : RuntimeEvent} (h : e ∈ Effect.events (f.register id name replay).2) :
    e.topic = .callbackBacklog := by
  rw [register, Effect.events_append, List.mem_append] at h
  rcases h with h | h
  · exact topic_of_mem_warnings h
  · cases h

end Fanout

end Informer
