import Informer.Proofs.CacheStep

/-!
# Which steps of a cache register callbacks

Only a registration adds a callback to an entry, and nothing ever takes one away: every other step
leaves the numbers of the callbacks of every kind as they are, and the number of the next one
(`Cache.Mute`). That covers the loops, the workers, the forwarder, the subscribers, the calls that
ask for entries and those that shut down (`mute_perform`). What they publish is `publishes_perform`:
no step of a cache announces a source. What a registration does is `callbackIds_register`.
-/

namespace Informer

open Effect (Publishes)

/-! ### Callbacks of one kind -/

namespace Fanout

/-- The numbers of the callbacks, in the order in which they were registered. -/
def ids (f : Fanout) : List Nat := f.channels.map (·.id)

theorem ids_modify (f : Fanout) (id : Nat) {g : Channel → Channel} (hg : ∀ c, (g c).id = c.id) :
    (f.modify id g).ids = f.ids := by
  simp only [ids, modify, List.map_map]
  refine List.map_congr_left fun c _ ↦ ?_
  simp only [Function.comp_apply]
  split
  · exact hg c
  · rfl

theorem ids_dispatchAll (f : Fanout) (ns : List Notification) :
    (f.dispatchAll ns).1.ids = f.ids := by
  induction ns generalizing f with
  | nil => rfl
  | cons n ns ih =>
    have hone : (f.dispatch n).1.ids = f.ids := by simp [ids]
    exact (ih (f.dispatch n).1).trans hone

theorem ids_advance (f : Fanout) (stopped : Bool) (id : Nat) :
    (f.advance stopped id).1.ids = f.ids := by
  rw [advance]
  repeat' split
  all_goals first | rfl | exact ids_modify f id finish_id | exact ids_modify f id take_id

theorem ids_complete (f : Fanout) (id : Nat) (outcome : Outcome) :
    (f.complete id outcome).1.ids = f.ids := by
  rw [complete]
  split
  · rfl
  · split
    · exact ids_modify f id rest_id
    · exact ids_modify f id rest_id
    · rfl

theorem ids_register (f : Fanout) (id : Nat) (name : String) (replay : List Notification) :
    (f.register id name replay).1.ids = f.ids ++ [id] := by
  have hpush : ∀ c : Channel, (replay.foldl (·.push) c).id = c.id := by
    induction replay with
    | nil => exact fun _ ↦ rfl
    | cons n replay ih => exact fun c ↦ (ih (c.push n)).trans (push_id c n)
  simp [ids, register, hpush]

end Fanout

/-! ### Entries -/

namespace Entry

theorem ids_takeMutation (e : Entry) (m : Mutation) :
    (e.takeMutation m).1.callbacks.ids = e.callbacks.ids := by
  rw [takeMutation]
  split
  · exact e.callbacks.ids_dispatchAll _
  · rfl

/-- The loop passes on what it takes in, and registers nothing. -/
theorem ids_react (e : Entry) (pace : Pace) (now : Nat) (signal : Signal) :
    (e.react pace now signal).1.callbacks.ids = e.callbacks.ids := by
  unfold react
  -- but for these three the step leaves the callbacks alone
  split <;> try rfl
  · exact e.callbacks.ids_dispatchAll _
  · exact e.ids_takeMutation _
  · split
    · exact e.callbacks.ids_dispatchAll _
    · rfl

end Entry

/-! ### Caches -/

namespace Cache

/-- The numbers of the callbacks on the entry of a kind, in the order in which they were
registered. -/
def callbackIds (c : Cache) (kind : Kind) : List Nat :=
  ((c.entries[kind]?).map (·.callbacks.ids)).getD []

/-- What holds between caches if no callback was registered. -/
structure Mute (c c' : Cache) : Prop where
  ids : ∀ kind, c'.callbackIds kind = c.callbackIds kind
  next : c'.nextCallback = c.nextCallback

variable {c c' : Cache}

theorem Mute.of_entries_eq (hentries : c'.entries = c.entries)
    (hnext : c'.nextCallback = c.nextCallback) : c.Mute c' :=
  ⟨fun kind ↦ by rw [callbackIds, hentries, callbackIds], hnext⟩

theorem Mute.refl (c : Cache) : c.Mute c := .of_entries_eq rfl rfl

theorem Mute.trans {c'' : Cache} (h : c.Mute c') (k : c'.Mute c'') : c.Mute c'' :=
  ⟨fun kind ↦ (k.ids kind).trans (h.ids kind), k.next.trans h.next⟩

theorem callbackIds_insert {entries : Std.ExtTreeMap Kind Entry} {kind : Kind} {e : Entry}
    (hentries : c'.entries = entries.insert kind e) (other : Kind) :
    c'.callbackIds other = if kind = other then e.callbacks.ids else
      ((entries[other]? : Option Entry).map (·.callbacks.ids)).getD [] := by
  rw [callbackIds, hentries, Kind.getElem?_insert]
  split <;> rfl

theorem Mute.of_insert {kind : Kind} {e e' : Entry} (he : c.entries[kind]? = some e)
    (hids : e'.callbacks.ids = e.callbacks.ids) (hentries : c'.entries = c.entries.insert kind e')
    (hnext : c'.nextCallback = c.nextCallback) : c.Mute c' := by
  refine ⟨fun other ↦ ?_, hnext⟩
  rw [callbackIds_insert hentries]
  split
  · next heq =>
    subst heq
    rw [hids, callbackIds, he]
    rfl
  · rfl

theorem mute_onEntry (c : Cache) (kind : Kind) {step : Entry → Entry × List Effect}
    (h : ∀ e : Entry, (step e).1.callbacks.ids = e.callbacks.ids) :
    c.Mute (c.onEntry kind step).1 := by
  rw [onEntry]
  rcases he : c.entries[kind]? with - | e
  · exact .refl c
  · exact .of_insert he (h e) rfl rfl

theorem mute_advanceWorker (c : Cache) (kind : Kind) (id : Nat) :
    c.Mute (c.advanceWorker kind id).1 := by
  rw [advanceWorker_eq]
  exact c.mute_onEntry kind fun e ↦ e.callbacks.ids_advance c.stopped id

theorem mute_abort (c : Cache) (task : Task) : c.Mute (c.abort task).1 := by
  cases task with
  | reflector kind => exact c.mute_onEntry kind fun _ ↦ rfl
  | worker kind id => exact c.mute_onEntry kind fun e ↦ e.callbacks.ids_modify id Fanout.finish_id
  | _ => exact .refl c

theorem mute_abortAll (c : Cache) (tasks : List Task) : c.Mute (c.abortAll tasks).1 := by
  induction tasks generalizing c with
  | nil => exact .refl c
  | cons task rest ih => exact (c.mute_abort task).trans (ih (c.abort task).1)

theorem mute_forward (c : Cache) : c.Mute c.forward.1 := by
  obtain ⟨bus, subscribers, forwarder, h⟩ := c.forward_frame
  rw [h]
  exact .of_entries_eq rfl rfl

theorem mute_callShutdown (c : Cache) : c.Mute c.callShutdown.1.1 := by
  obtain ⟨bus, shutdown, h⟩ := c.callShutdown_frame
  rw [h]
  exact .of_entries_eq rfl rfl

theorem mute_continueShutdown (c : Cache) (graceOver : Bool) :
    c.Mute (c.continueShutdown graceOver).1 := by
  obtain ⟨tasks, bus, shutdown, released, h⟩ := c.continueShutdown_frame graceOver
  rw [h]
  exact (c.mute_abortAll tasks).trans (.of_entries_eq rfl rfl)

theorem mute_openEntry (c : Cache) (kind : Kind) (h : kind ∉ c.entries) :
    c.Mute (c.openEntry kind).1 := by
  have hnone : c.entries[kind]? = none := by simpa using h
  have hentries : (c.openEntry kind).1.entries =
      c.entries.insert kind (Entry.empty kind c.config.backlog?) := rfl
  refine ⟨fun other ↦ ?_, rfl⟩
  rw [callbackIds_insert hentries]
  split
  · next heq =>
    subst heq
    rw [callbackIds, hnone]
    rfl
  · rfl

/-- A call that asks for an entry finds it or creates it, and registers nothing on it. -/
theorem mute_getOrCreate (c : Cache) (kind : Kind) : c.Mute (c.getOrCreate kind).1.1 := by
  rw [getOrCreate]
  split
  · exact .refl c
  · split
    · exact .refl c
    · next hk => exact c.mute_openEntry kind (by simpa using hk)

/-- The steps of a cache but for registrations. -/
inductive Step where
  /-- A call asks for the entry of a kind. -/
  | ask (kind : Kind)
  /-- The loop of a kind takes in what it was waiting for. -/
  | react (kind : Kind) (now : Nat) (signal : Signal)
  /-- The worker of a callback runs while it is idle. -/
  | advance (kind : Kind) (id : Nat)
  /-- The handling that a callback is busy with ends. -/
  | complete (kind : Kind) (id : Nat) (outcome : Outcome)
  /-- A source reports that a notification does not translate. -/
  | drop (kind : Kind) (source : String) (key : Key) (reason : String)
  /-- The forwarder runs. -/
  | forward
  | advanceSubscriber (i : Nat)
  | completeSubscriber (i : Nat) (outcome : Outcome)
  /-- A call that shuts down begins. -/
  | shutdown
  /-- The first such call goes on. -/
  | goOn (graceOver : Bool)

/-- Makes a step. -/
def perform (c : Cache) : Step → Cache × List Effect
  | .ask kind => (c.getOrCreate kind).1
  | .react kind now signal => c.react kind now signal
  | .advance kind id => ((c.advanceWorker kind id).1, [])
  | .complete kind id outcome => c.completeWorker kind id outcome
  | .drop kind source key reason =>
    c.emit [.publish (.notificationDropped kind source key reason)]
  | .forward => (c.forward.1, c.forward.2.1)
  | .advanceSubscriber i => ((c.advanceSubscriber i).1, [])
  | .completeSubscriber i outcome => c.completeSubscriber i outcome
  | .shutdown => c.callShutdown.1
  | .goOn graceOver => c.continueShutdown graceOver

/-- **No other step registers a callback**, and none takes one away. -/
theorem mute_perform (c : Cache) (step : Step) : c.Mute (c.perform step).1 := by
  cases step with
  | ask kind => exact c.mute_getOrCreate kind
  | react kind now signal => exact c.mute_onEntry kind fun e ↦ e.ids_react c.pace now signal
  | advance kind id => exact c.mute_advanceWorker kind id
  | complete kind id outcome =>
    exact c.mute_onEntry kind fun e ↦ e.callbacks.ids_complete id outcome
  | drop kind source key reason => exact .of_entries_eq rfl rfl
  | forward => exact c.mute_forward
  | advanceSubscriber i => exact .of_entries_eq rfl rfl
  | completeSubscriber i outcome => exact .of_entries_eq rfl rfl
  | shutdown => exact c.mute_callShutdown
  | goOn graceOver => exact c.mute_continueShutdown graceOver

/-- The topics of what a step may publish. -/
def Step.topics : Step → List Topic
  | .ask _ => [.watchStarted]
  | .react _ _ _ => Topic.ofLoop
  | .advance _ _ | .advanceSubscriber _ => []
  | .complete _ _ _ => [.callbackPanicked]
  | .drop _ _ _ _ => [.notificationDropped]
  | .forward => [.subscriberOverflow]
  | .completeSubscriber _ _ => [.subscriberPanicked]
  | .shutdown => [.shutdownRequested]
  | .goOn _ => [.allStoppedWithin, .graceExceeded]

/-- **What each step publishes.** -/
theorem publishes_perform (c : Cache) (step : Step) :
    Publishes step.topics (c.perform step).2 := by
  cases step with
  | ask kind => exact c.publishes_getOrCreate kind
  | react kind now signal => exact c.publishes_react kind now signal
  | complete kind id outcome => exact c.publishes_completeWorker kind id outcome
  | drop kind source key reason =>
    exact Effect.publishes_publish.2 ⟨List.mem_singleton_self _, Effect.publishes_nil⟩
  | forward => exact c.publishes_forward
  | completeSubscriber i outcome => exact c.subscribers.publishes_complete i outcome
  | shutdown => exact c.publishes_callShutdown
  | goOn graceOver => exact c.publishes_continueShutdown graceOver
  | _ => exact Effect.publishes_nil

/-- No step announces a source. -/
theorem Step.sourceStarted_not_mem_topics (step : Step) : Topic.sourceStarted ∉ step.topics := by
  cases step <;> simp [Step.topics, Topic.ofLoop]

/-! ### Registrations -/

/-- **A registration adds one callback to the entry of its kind**, with the next number. -/
theorem callbackIds_register {c : Cache} {kind : Kind} (h : kind ∈ c.entries) (name : String) :
    (∀ other, (c.register kind name).1.callbackIds other =
      if kind = other then c.callbackIds kind ++ [c.nextCallback] else c.callbackIds other) ∧
    (c.register kind name).1.nextCallback = c.nextCallback + 1 := by
  obtain ⟨e, he⟩ := Option.isSome_iff_exists.1 (Std.ExtTreeMap.isSome_getElem?_iff_mem.2 h)
  have hids := e.callbacks.ids_register c.nextCallback name e.store.replay
  have hregister : c.register kind name =
      ({ c with nextCallback := c.nextCallback + 1,
                entries := c.entries.insert kind (e.register c.nextCallback name).1 } : Cache).emit
        (e.register c.nextCallback name).2 := by
    simp [register, onEntry, he, emit]
  have hentries : (c.register kind name).1.entries =
      c.entries.insert kind (e.register c.nextCallback name).1 := by
    rw [hregister]
    rfl
  refine ⟨fun other ↦ ?_, by rw [hregister]; rfl⟩
  rw [callbackIds_insert hentries]
  split
  · next heq =>
    subst heq
    rw [callbackIds, he]
    exact hids
  · rfl

end Cache

end Informer
