import Informer.Cache
import Informer.Proofs.SubscriberRun

/-!
# What the steps of a cache publish

Each step publishes events of a few topics only, whatever state it starts from, and this is said
once for each function (`Effect.Publishes`). That a step does not publish some event is then a
matter of its list of topics: `Cache.publishes_react` covers the loop with all that it calls, and
the other functions of a cache have one or two topics each.
-/

namespace Informer

namespace Effect

/-- Whether every event that some effects publish has one of these topics. -/
def Publishes (topics : List Topic) (effects : List Effect) : Prop :=
  ∀ e ∈ events effects, e.topic ∈ topics

variable {topics : List Topic} {effects : List Effect}

theorem publishes_nil : Publishes topics [] := fun _ he ↦ absurd he List.not_mem_nil

theorem publishes_append {as bs : List Effect} :
    Publishes topics (as ++ bs) ↔ Publishes topics as ∧ Publishes topics bs := by
  simp only [Publishes, events_append, List.mem_append, or_imp, forall_and]

theorem publishes_publish {e : RuntimeEvent} :
    Publishes topics (.publish e :: effects) ↔ e.topic ∈ topics ∧ Publishes topics effects := by
  simp [Publishes, events, event?]

theorem publishes_of_events (h : events effects = []) : Publishes topics effects := by
  rw [Publishes, h]
  exact List.forall_mem_nil _

theorem Publishes.mono {more : List Topic} (h : Publishes topics effects) (hsub : topics ⊆ more) :
    Publishes more effects :=
  fun e he ↦ hsub (h e he)

/-- Events of any other topic are not among what is published. -/
theorem Publishes.filter_eq_nil {topic : Topic} (h : Publishes topics effects)
    (hother : topic ∉ topics) : (events effects).filter (·.topic = topic) = [] := by
  refine List.filter_eq_nil_iff.2 fun e he htopic ↦ hother ?_
  rw [← of_decide_eq_true htopic]
  exact h e he

theorem Publishes.filter_contains_eq_nil (h : Publishes topics effects) (others : List Topic)
    (hother : ∀ topic ∈ others, topic ∉ topics) :
    (events effects).filter (others.contains ·.topic) = [] := by
  refine List.filter_eq_nil_iff.2 fun e he hmem ↦ hother e.topic ?_ (h e he)
  simpa using hmem

/-- Waking tasks publishes nothing. -/
theorem events_wakes (tasks : List Task) : events (tasks.map .wake) = [] := by
  induction tasks with
  | nil => rfl
  | cons task rest ih => exact ih

/-- Letting go of streams publishes nothing. -/
theorem events_releases (stream? : Option Nat) : events (stream?.map release).toList = [] := by
  cases stream? <;> rfl

end Effect

open Effect (Publishes)

/-! ### Callbacks -/

namespace Fanout

theorem publishes_dispatchAll (f : Fanout) (ns : List Notification) :
    Publishes [.callbackBacklog] (f.dispatchAll ns).2 := by
  induction ns generalizing f with
  | nil => exact Effect.publishes_nil
  | cons n ns ih =>
    exact Effect.publishes_append.2
      ⟨fun e he ↦ List.mem_singleton.2 (topic_of_mem_dispatch (n := n) he), ih (f.dispatch n).1⟩

theorem publishes_register (f : Fanout) (id : Nat) (name : String) (replay : List Notification) :
    Publishes [.callbackBacklog] (f.register id name replay).2 :=
  fun _ he ↦ List.mem_singleton.2 (topic_of_mem_register he)

theorem publishes_complete (f : Fanout) (id : Nat) (outcome : Outcome) :
    Publishes [.callbackPanicked] (f.complete id outcome).2 := by
  rw [complete]
  split
  · exact Effect.publishes_nil
  · split
    · exact Effect.publishes_publish.2 ⟨List.mem_singleton_self _, Effect.publishes_nil⟩
    · exact Effect.publishes_nil
    · exact Effect.publishes_nil

end Fanout

/-! ### Entries -/

/-- The topics of what the loop of a kind reports. -/
def Topic.ofLoop : List Topic :=
  [.callbackBacklog, .notificationDropped, .cacheSynced, .resynced, .listFailed, .watchFailed,
    .watchClosed]

/-- The topics of what it reports apart from its first listing. -/
def Topic.ofCycle : List Topic :=
  [.callbackBacklog, .notificationDropped, .resynced, .listFailed, .watchFailed, .watchClosed]

namespace Entry

variable (e : Entry)

theorem publishes_report (store : Store) (ns : List Notification) :
    Publishes Topic.ofCycle (e.report store ns).2 :=
  (e.callbacks.publishes_dispatchAll ns).mono (by decide)

theorem publishes_readPayloads (kind : Kind) (payloads : List Json) :
    Publishes Topic.ofCycle (readPayloads kind payloads).2 := by
  have hdropped : Topic.notificationDropped ∈ Topic.ofCycle := by decide
  induction payloads with
  | nil => exact Effect.publishes_nil
  | cons payload rest ih =>
    rcases ho : Object.ofPayload payload with cause | o
    · simp only [readPayloads, ho]
      exact Effect.publishes_publish.2 ⟨hdropped, ih⟩
    · simp only [readPayloads, ho]
      exact ih

theorem publishes_pause (pace : Pace) (now : Nat) {report : RuntimeEvent}
    (h : report.topic ∈ Topic.ofCycle) : Publishes Topic.ofCycle (e.pause pace now report).2 :=
  Effect.publishes_append.2 ⟨Effect.publishes_of_events (Effect.events_releases _),
    Effect.publishes_publish.2 ⟨h, Effect.publishes_nil⟩⟩

theorem publishes_takeListing (l : Listing) : Publishes Topic.ofLoop (e.takeListing l).2 := by
  have hsynced : Topic.cacheSynced ∈ Topic.ofLoop := by decide
  have hsub : Topic.ofCycle ⊆ Topic.ofLoop := by decide
  simp only [takeListing, Effect.publishes_append]
  refine ⟨⟨⟨(publishes_readPayloads _ _).mono hsub, (e.publishes_report _ _).mono hsub⟩, ?_⟩,
    Effect.publishes_nil⟩
  split
  · exact Effect.publishes_nil
  · exact Effect.publishes_publish.2 ⟨hsynced, Effect.publishes_nil⟩

theorem publishes_takeMutation (m : Mutation) : Publishes Topic.ofCycle (e.takeMutation m).2 := by
  have hdropped : Topic.notificationDropped ∈ Topic.ofCycle := by decide
  rw [takeMutation]
  split
  · exact e.publishes_report _ _
  · exact Effect.publishes_publish.2 ⟨hdropped, Effect.publishes_nil⟩

theorem publishes_takeTick (stream tick period : Nat) :
    Publishes Topic.ofCycle (e.takeTick stream tick period).2 := by
  have hresynced : Topic.resynced ∈ Topic.ofCycle := by decide
  exact Effect.publishes_append.2 ⟨e.publishes_report e.store e.store.resync,
    Effect.publishes_publish.2 ⟨hresynced, Effect.publishes_nil⟩⟩

theorem publishes_endReflector {topics : List Topic} : Publishes topics e.endReflector.2 :=
  Effect.publishes_of_events (Effect.events_releases _)

/-- The listing that the loop takes in with a signal. -/
def listed? : Signal → Option Listing
  | .listed (.ok l) => if e.reflector = .listing then some l else none
  | _ => none

theorem react_of_listed {signal : Signal} {l : Listing} (h : e.listed? signal = some l)
    (pace : Pace) (now : Nat) :
    signal = .listed (.ok l) ∧ e.reflector = .listing ∧
      e.react pace now signal = e.takeListing l := by
  unfold listed? at h
  split at h
  · next l' =>
    split at h
    · next hr =>
      cases h
      exact ⟨rfl, hr, by simp only [react, hr]⟩
    · cases h
  · cases h

/-- What the loop reports when it takes in anything but a listing. -/
theorem publishes_react_of_not_listed {signal : Signal} (h : e.listed? signal = none)
    (pace : Pace) (now : Nat) : Publishes Topic.ofCycle (e.react pace now signal).2 := by
  have hlist : ∀ reason, (RuntimeEvent.listFailed e.kind reason).topic ∈ Topic.ofCycle :=
    fun _ ↦ (by decide : Topic.listFailed ∈ Topic.ofCycle)
  have hwatch : ∀ reason, (RuntimeEvent.watchFailed e.kind reason).topic ∈ Topic.ofCycle :=
    fun _ ↦ (by decide : Topic.watchFailed ∈ Topic.ofCycle)
  have hclosed : Topic.watchClosed ∈ Topic.ofCycle := by decide
  unfold react
  split
  · exact Effect.publishes_nil
  · exact e.publishes_endReflector
  · exact Effect.publishes_nil
  · exact Effect.publishes_nil
  · next hr => simp [listed?, hr] at h
  · exact e.publishes_pause pace now (hlist _)
  · exact Effect.publishes_nil
  · exact e.publishes_pause pace now (hwatch _)
  · exact e.publishes_takeMutation _
  · exact e.publishes_pause pace now (hwatch _)
  · exact e.publishes_pause pace now hclosed
  · split
    · exact e.publishes_takeTick _ _ _
    · exact Effect.publishes_nil
  · exact Effect.publishes_nil

/-- **What the loop reports**, whatever it takes in. -/
theorem publishes_react (pace : Pace) (now : Nat) (signal : Signal) :
    Publishes Topic.ofLoop (e.react pace now signal).2 := by
  rcases hl : e.listed? signal with - | l
  · exact (e.publishes_react_of_not_listed hl pace now).mono (by decide)
  · rw [(e.react_of_listed hl pace now).2.2]
    exact e.publishes_takeListing l

end Entry

/-! ### Subscribers -/

namespace Subscribers

theorem publishes_emit (s : Subscribers) (e : RuntimeEvent) :
    Publishes [.subscriberOverflow] (s.emit e).2 := by
  intro report hreport
  rw [events_emit] at hreport
  exact List.mem_singleton.2 (topic_of_overflowReport? hreport)

theorem publishes_complete (s : Subscribers) (i : Nat) (outcome : Outcome) :
    Publishes [.subscriberPanicked] (s.complete i outcome).2 := by
  rw [complete]
  split
  · exact Effect.publishes_nil
  · split
    · exact Effect.publishes_publish.2 ⟨List.mem_singleton_self _, Effect.publishes_nil⟩
    · exact Effect.publishes_nil
    · exact Effect.publishes_nil

end Subscribers

/-! ### Caches -/

namespace Cache

variable (c : Cache) {topics : List Topic}

theorem publishes_onEntry (kind : Kind) {step : Entry → Entry × List Effect}
    (h : ∀ e : Entry, Publishes topics (step e).2) : Publishes topics (c.onEntry kind step).2 := by
  rw [onEntry]
  split
  · exact Effect.publishes_nil
  · exact h _

theorem publishes_register (kind : Kind) (name : String) :
    Publishes [.callbackBacklog] (c.register kind name).2 :=
  publishes_onEntry _ kind fun e ↦ e.callbacks.publishes_register _ _ _

theorem publishes_react (kind : Kind) (now : Nat) (signal : Signal) :
    Publishes Topic.ofLoop (c.react kind now signal).2 :=
  c.publishes_onEntry kind fun e ↦ e.publishes_react _ _ _

theorem publishes_completeWorker (kind : Kind) (id : Nat) (outcome : Outcome) :
    Publishes [.callbackPanicked] (c.completeWorker kind id outcome).2 :=
  c.publishes_onEntry kind fun e ↦ e.callbacks.publishes_complete _ _

/-- Ending tasks publishes nothing. -/
theorem publishes_abort (task : Task) : Publishes topics (c.abort task).2 := by
  cases task with
  | reflector kind => exact c.publishes_onEntry kind fun e ↦ e.publishes_endReflector
  | worker kind id => exact c.publishes_onEntry kind fun _ ↦ Effect.publishes_nil
  | _ => exact Effect.publishes_nil

theorem publishes_abortAll (tasks : List Task) : Publishes topics (c.abortAll tasks).2 := by
  induction tasks generalizing c with
  | nil => exact Effect.publishes_nil
  | cons task rest ih =>
    exact Effect.publishes_append.2 ⟨c.publishes_abort task, ih (c.abort task).1⟩

theorem publishes_getOrCreate (kind : Kind) :
    Publishes [.watchStarted] (c.getOrCreate kind).1.2 := by
  rw [getOrCreate]
  split
  · exact Effect.publishes_nil
  · split
    · exact Effect.publishes_nil
    · exact Effect.publishes_publish.2 ⟨List.mem_singleton_self _, Effect.publishes_nil⟩

theorem publishes_readBus? {result : Cache × List Effect} (h : c.readBus? = some result) :
    Publishes [.subscriberOverflow] result.2 := by
  rw [readBus?] at h
  split at h
  · cases h
    exact Subscribers.publishes_emit _ _
  · cases h
    exact Effect.publishes_nil
  · cases h
  · cases h

theorem publishes_endReading? {result : Cache × List Effect} (h : c.endReading? = some result) :
    Publishes [.subscriberOverflow] result.2 := by
  rw [endReading?] at h
  split at h <;> cases h
  exact Effect.publishes_of_events c.subscribers.events_close

theorem publishes_forward : Publishes [.subscriberOverflow] c.forward.2.1 := by
  rw [forward]
  split
  · exact Effect.publishes_nil
  · split <;> exact Effect.publishes_nil
  · split
    · next found hfound =>
      rcases Option.or_eq_some_iff.1 hfound with hfound | ⟨-, hfound⟩
      · exact c.publishes_readBus? hfound
      · exact c.publishes_endReading? hfound
    · exact Effect.publishes_nil

theorem publishes_callShutdown : Publishes [.shutdownRequested] c.callShutdown.1.2 := by
  rw [callShutdown]
  split
  · refine Effect.publishes_publish.2 ⟨List.mem_singleton_self _, ?_⟩
    refine Effect.publishes_append.2 ⟨?_, Effect.publishes_nil⟩
    exact Effect.publishes_of_events (Effect.events_wakes _)
  · exact Effect.publishes_nil

theorem publishes_continueShutdown (graceOver : Bool) :
    Publishes [.allStoppedWithin, .graceExceeded] (c.continueShutdown graceOver).2 := by
  have hstopped : Topic.allStoppedWithin ∈ [Topic.allStoppedWithin, .graceExceeded] := by decide
  have hexceeded : Topic.graceExceeded ∈ [Topic.allStoppedWithin, .graceExceeded] := by decide
  rw [continueShutdown]
  split
  · exact Effect.publishes_nil
  · exact Effect.publishes_nil
  · exact Effect.publishes_nil
  · dsimp only
    split
    · exact Effect.publishes_publish.2 ⟨hstopped, Effect.publishes_nil⟩
    · split
      · exact Effect.publishes_append.2 ⟨c.publishes_abortAll _,
          Effect.publishes_publish.2 ⟨hexceeded, Effect.publishes_nil⟩⟩
      · exact Effect.publishes_nil
  · split <;> exact Effect.publishes_nil
  · exact Effect.publishes_nil

end Cache

end Informer
