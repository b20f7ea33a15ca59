import Informer.Proofs.ShutdownRun

/-!
# What the steps of a cache put on the bus

All steps but those of the forwarder and of the subscribers do one thing to the bus: they put their
events there, in their order, and each step does so in one go. They leave the forwarder and the
subscribers where they are (`Cache.Tells`). `Settled` is what they keep of how far the forwarder and
the shutdown are with each other: the shutdown lets the forwarder end in the step that reports its
result, and returns after the forwarder has ended.
-/

namespace Informer

/-! ### Steps that put events on the bus -/

namespace Cache

/-- How far the forwarder and the shutdown are with each other. -/
structure Settled (c : Cache) : Prop where
  /-- The forwarder may end as soon as the shutdown has its result. -/
  released : c.released = c.shutdown.result?.isSome
  /-- It stops reading the bus only then. -/
  reading : c.forwarder ≠ .forwarding → c.released = true
  /-- The first call that shuts down returns after the forwarder has ended. -/
  finished : ∀ result, c.shutdown = .finished result → c.forwarder = .ended

theorem settled_new (config : Config) (subscribers : Subscribers) :
    (new config subscribers).Settled :=
  ⟨rfl, fun h ↦ absurd rfl h, nofun⟩

/-- A step that puts its events on the bus, in their order, and leaves the forwarder and the
subscribers where they are. -/
structure Tells (c : Cache) (result : Cache × List Effect) : Prop where
  bus : result.1.bus = (Effect.events result.2).foldl .publish c.bus
  subscribers : result.1.subscribers = c.subscribers
  forwarder : result.1.forwarder = c.forwarder
  settled : c.Settled → result.1.Settled

variable {c c' : Cache}

/-- A step that neither publishes anything nor concerns the shutdown. -/
theorem tells_of_eq (hbus : c'.bus = c.bus) (hsubscribers : c'.subscribers = c.subscribers)
    (hforwarder : c'.forwarder = c.forwarder) (hreleased : c'.released = c.released)
    (hshutdown : c'.shutdown = c.shutdown) : c.Tells (c', []) where
  bus := hbus
  subscribers := hsubscribers
  forwarder := hforwarder
  settled h :=
    { released := by rw [hreleased, hshutdown, h.released]
      reading := by rw [hforwarder, hreleased]; exact h.reading
      finished := by rw [hforwarder, hshutdown]; exact h.finished }

theorem tells_refl (c : Cache) : c.Tells (c, []) := tells_of_eq rfl rfl rfl rfl rfl

theorem Tells.andThen {c'' : Cache} {first later : List Effect} (h : c.Tells (c', first))
    (k : c'.Tells (c'', later)) : c.Tells (c'', first ++ later) where
  bus := by
    rw [Effect.events_append, List.foldl_append, ← h.bus]
    exact k.bus
  subscribers := k.subscribers.trans h.subscribers
  forwarder := k.forwarder.trans h.forwarder
  settled hc := k.settled (h.settled hc)

theorem tells_emit (c : Cache) (effects : List Effect) : c.Tells (c.emit effects) where
  bus := rfl
  subscribers := rfl
  forwarder := rfl
  settled h := ⟨h.released, h.reading, h.finished⟩

/-- A step that changes other parts of the cache before it publishes something. -/
theorem Tells.emit (h : c.Tells (c', [])) (effects : List Effect) : c.Tells (c'.emit effects) :=
  h.andThen (c'.tells_emit effects)

theorem tells_entries (c : Cache) (entries : Std.ExtTreeMap Kind Entry) :
    c.Tells ({ c with entries }, []) :=
  tells_of_eq rfl rfl rfl rfl rfl

theorem tells_onEntry (c : Cache) (kind : Kind) (step : Entry → Entry × List Effect) :
    c.Tells (c.onEntry kind step) := by
  rw [onEntry]
  split
  · exact c.tells_refl
  · exact (c.tells_entries _).emit _

theorem tells_register (c : Cache) (kind : Kind) (name : String) :
    c.Tells (c.register kind name) :=
  have hnumber : c.Tells ({ c with nextCallback := c.nextCallback + 1 }, []) :=
    tells_of_eq rfl rfl rfl rfl rfl
  hnumber.andThen (tells_onEntry _ kind _)

theorem tells_advanceWorker (c : Cache) (kind : Kind) (id : Nat) :
    c.Tells ((c.advanceWorker kind id).1, []) := by
  rw [advanceWorker]
  split
  · exact c.tells_refl
  · exact c.tells_entries _

theorem tells_lookup (c : Cache) (kind : Kind) (place : Lookup) :
    c.Tells (c.lookup kind place).1 := by
  unfold lookup
  split
  · exact c.tells_refl
  · exact c.tells_refl
  · split
    · exact c.tells_refl
    · split
      · exact c.tells_refl
      · exact (c.tells_entries _).emit _
  · exact c.tells_refl

theorem tells_abort (c : Cache) (task : Task) : c.Tells (c.abort task) := by
  cases task with
  | reflector kind => exact c.tells_onEntry kind _
  | worker kind id => exact c.tells_onEntry kind _
  | _ => exact c.tells_refl

theorem tells_abortAll (c : Cache) (tasks : List Task) : c.Tells (c.abortAll tasks) := by
  induction tasks generalizing c with
  | nil => exact c.tells_refl
  | cons task rest ih => exact (c.tells_abort task).andThen (ih (c.abort task).1)

/-- The shutdown goes on without a result. -/
theorem tells_stage {shutdown : Shutdown} (hold : c.shutdown.result? = none)
    (hnew : shutdown.result? = none) : c.Tells ({ c with shutdown }, []) where
  bus := rfl
  subscribers := rfl
  forwarder := rfl
  settled h :=
    { released := by rw [h.released, hold, hnew]
      reading := h.reading
      finished := fun result hresult ↦ by
        change shutdown = .finished result at hresult
        rw [hresult] at hnew
        cases hnew }

/-- The result is reported in the step that lets the forwarder end. -/
theorem tells_settle (c : Cache) (result : Except ShutdownError Unit) (report : RuntimeEvent) :
    c.Tells (c.settle result report) where
  bus := rfl
  subscribers := rfl
  forwarder := rfl
  settled _ := ⟨rfl, fun _ ↦ rfl, nofun⟩

theorem tells_callShutdown (c : Cache) : c.Tells c.callShutdown.1 := by
  rw [callShutdown]
  split
  · next h => exact (tells_stage (by rw [h]; rfl) rfl).emit _
  · exact c.tells_refl

theorem tells_continueShutdown (c : Cache) (graceOver : Bool) :
    c.Tells (c.continueShutdown graceOver) := by
  rcases h : c.shutdown with - | - | ⟨_ | ⟨kind, left⟩, tasks⟩ | tasks | result | result
  · simp only [continueShutdown, h]
    exact c.tells_refl
  · simp only [continueShutdown, h]
    exact tells_stage (by rw [h]; rfl) rfl
  · simp only [continueShutdown, h]
    exact tells_stage (by rw [h]; rfl) rfl
  · simp only [continueShutdown, h]
    exact tells_stage (by rw [h]; rfl) rfl
  · simp only [continueShutdown, h]
    split
    · exact c.tells_settle _ _
    · split
      · exact (c.tells_abortAll _).andThen (tells_settle _ _ _)
      · exact c.tells_refl
  · simp only [continueShutdown, h]
    split
    · next hended =>
      exact
        { bus := rfl
          subscribers := rfl
          forwarder := rfl
          settled := fun hc ↦ ⟨hc.released.trans (by rw [h]; rfl), hc.reading, fun _ _ ↦ hended⟩ }
    · exact c.tells_refl
  · simp only [continueShutdown, h]
    exact c.tells_refl

end Cache

namespace Traffic

variable {w w' : Traffic}

/-- A step whose events are put on the bus and recorded. -/
def Tells (w w' : Traffic) : Prop :=
  ∃ effects, w.cache.Tells (w'.cache, effects) ∧ w'.events = w.events ++ Effect.events effects

theorem tells_of_cache_eq (hcache : w'.cache = w.cache) (hevents : w'.events = w.events) :
    w.Tells w' :=
  ⟨[], hcache ▸ w.cache.tells_refl, by rw [hevents, Effect.events_nil, List.append_nil]⟩

theorem tells_take {result : Cache × List Effect} (h : w.cache.Tells result) :
    w.Tells (w.take result) :=
  ⟨result.2, h, rfl⟩

theorem tells_proceed (w : Traffic) (i : Nat) (q : Inquiry) : w.Tells (w.proceed i q) := by
  obtain h | ⟨d, -, -, h⟩ | ⟨-, -, -, -, h⟩ | ⟨-, -, h⟩ := w.proceed_cases i q
  · rw [h]
    exact tells_of_cache_eq rfl rfl
  · rw [h]
    exact ⟨_, (w.cache.tells_entries _).emit _, rfl⟩
  · rw [h]
    exact tells_of_cache_eq rfl rfl
  · rw [h]
    exact ⟨_, w.cache.tells_lookup q.kind q.place, rfl⟩

theorem tells_react (w : Traffic) (kind : Kind) (now : Nat) (signal : Signal) :
    w.Tells (w.react kind now signal) := by
  obtain ⟨-, h⟩ | ⟨d, -, -, h⟩ := w.react_cases kind now signal
  · rw [h]
    exact tells_take (w.cache.tells_onEntry kind _)
  · rw [h]
    exact ⟨_, w.cache.tells_emit _, rfl⟩

theorem tells_goOn (w : Traffic) (graceOver : Bool) : w.Tells (w.goOn graceOver) := by
  unfold goOn
  split
  · exact tells_of_cache_eq rfl rfl
  · exact tells_take (w.cache.tells_continueShutdown graceOver)

/-- Whether the forwarder runs. -/
def Action.isForward : Action → Bool
  | .forward => true
  | _ => false

/-- Whether an action is one of the forwarder or of a subscriber. -/
def Action.isAudience : Action → Bool
  | .forward | .advanceSubscriber _ | .completeSubscriber _ _ => true
  | _ => false

/-- **All other actions only put events on the bus.** -/
theorem tells_act {a : Action} (ha : a.isAudience = false) : w.Tells (w.act a) := by
  cases a with
  | inquire kind => exact tells_of_cache_eq rfl rfl
  | proceed i =>
    rw [act]
    split
    · exact w.tells_proceed i _
    · exact tells_of_cache_eq rfl rfl
  | register kind name => exact tells_take (w.cache.tells_register kind name)
  | react kind now signal => exact w.tells_react kind now signal
  | advance kind id =>
    exact ⟨[], w.cache.tells_advanceWorker kind id, (List.append_nil _).symm⟩
  | complete kind id outcome => exact tells_take (w.cache.tells_onEntry kind _)
  | announce kind source => exact tells_take (w.cache.tells_emit _)
  | drop kind source key reason => exact tells_take (w.cache.tells_emit _)
  | shutdown => exact ⟨_, w.cache.tells_callShutdown, rfl⟩
  | goOn graceOver => exact w.tells_goOn graceOver
  | _ => cases ha

end Traffic

end Informer
