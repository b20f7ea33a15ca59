import Informer.Cache
import Informer.Proofs.FanoutRun
import Informer.Proofs.Publications

/-!
# Routine steps of a cache

What most steps have in common: those of the loops and the workers, registrations, and those of the
forwarder and the subscribers. Such a step changes entries in place and brings in none, it leaves
the settings and the shutdown alone, a loop that has ended stays so, and a callback that is handling
something after it was handling it before, unless the step itself gave it to the callback
(`Cache.Moves`, or `Cache.Keeps` for a step of the shutdown itself). It publishes none of the events
that mark the stages of a watch or of a shutdown (`Effect.Routine`). After the stop signal no step
gives anything to a callback (`handedBy_of_stopped`).

What a step of the shutdown does is `stages_continueShutdown`.

Of the entry of a kind this is `Entry.Moves`, and of its callbacks `Fanout.Moves`. Runs of the whole
cache use `Cache.Moves` only.
-/

namespace Informer

/-! ### Events that are no milestones -/

/-- The topics of the events that mark the stages of a watch and of a shutdown. -/
def Topic.milestones : List Topic :=
  [.watchStarted, .shutdownRequested, .allStoppedWithin, .graceExceeded]

namespace Effect

/-- Whether no event that some effects publish is a milestone. -/
def Routine (effects : List Effect) : Prop := ∀ e ∈ events effects, e.topic ∉ Topic.milestones

@[simp] theorem routine_nil : Routine [] := fun _ he ↦ absurd he List.not_mem_nil

@[simp] theorem routine_append {as bs : List Effect} :
    Routine (as ++ bs) ↔ Routine as ∧ Routine bs := by
  simp only [Routine, events_append, List.mem_append, or_imp, forall_and]

@[simp] theorem routine_publish {e : RuntimeEvent} {effects : List Effect} :
    Routine (.publish e :: effects) ↔ e.topic ∉ Topic.milestones ∧ Routine effects := by
  simp [Routine, events, event?]

/-- What has other topics is routine. -/
theorem Publishes.routine {topics : List Topic} {effects : List Effect}
    (h : Publishes topics effects) (hother : ∀ topic ∈ topics, topic ∉ Topic.milestones) :
    Routine effects :=
  fun e he ↦ hother e.topic (h e he)

/-- Routine effects add no event with the topic of a milestone. -/
theorem Routine.filter_eq_nil {effects : List Effect} (h : Routine effects) {topics : List Topic}
    (ht : topics ⊆ Topic.milestones) :
    (events effects).filter (fun e ↦ topics.contains e.topic) = [] := by
  refine List.filter_eq_nil_iff.2 fun e he hmem ↦ h e he (ht ?_)
  simpa using hmem

end Effect

open Effect (Routine)

/-! ### Callbacks -/

namespace Fanout

/-- A step of the callbacks of a kind that may give them what `given` says. -/
structure Moves (f f' : Fanout) (given : List (Nat × Notification)) : Prop where
  kind : f'.kind = f.kind
  ended : ∀ id, f.worker? id = some .ended → f'.worker? id = some .ended
  handling : ∀ id n, f'.handling? id = some n → f.handling? id = some n ∨ (id, n) ∈ given

theorem Moves.refl (f : Fanout) : Moves f f [] := ⟨rfl, fun _ h ↦ h, fun _ _ h ↦ .inl h⟩

theorem Moves.trans {f g h : Fanout} (hfg : Moves f g []) (hgh : Moves g h []) : Moves f h [] where
  kind := hgh.kind.trans hfg.kind
  ended id h := hgh.ended id (hfg.ended id h)
  handling id n hn := by
    rcases hgh.handling id n hn with hn | hn
    · exact hfg.handling id n hn
    · cases hn

/-- What happens in a session is such a step. -/
theorem moves_act (s : Session Fanout) (a : Action) :
    Moves s.state (act s a).state (given s a) where
  kind := kind_act s a
  ended _ h := ended_act h a
  handling id n hn := by
    -- what is being handled now is in the one list, hence in the other
    have h : n ∈ (s.state.handling? id).toList ++ ((given s a).filter (·.1 = id)).map (·.2) := by
      rw [handling?_act, hn]
      exact List.mem_append_right _ List.mem_cons_self
    rcases List.mem_append.1 h with h | h
    · exact .inl (Option.mem_toList.1 h)
    · obtain ⟨⟨other, m⟩, hmem, rfl⟩ := List.mem_map.1 h
      obtain ⟨hgiven, rfl⟩ := by simpa using List.mem_filter.1 hmem
      exact .inr hgiven

theorem moves_dispatchAll (f : Fanout) (ns : List Notification) :
    Moves f (f.dispatchAll ns).1 [] := by
  induction ns generalizing f with
  | nil => exact .refl f
  | cons n ns ih => exact (moves_act { state := f } (.dispatch n)).trans (ih (f.dispatch n).1)

theorem moves_register (f : Fanout) (id : Nat) (name : String) (replay : List Notification) :
    Moves f (f.register id name replay).1 [] :=
  moves_act { state := f, nextCallback := id } (.register name replay)

theorem moves_complete (f : Fanout) (id : Nat) (outcome : Outcome) :
    Moves f (f.complete id outcome).1 [] :=
  moves_act { state := f } (.complete id outcome)

theorem moves_abort (f : Fanout) (id : Nat) : Moves f (f.abort id) [] where
  kind := rfl
  ended other h := by
    rw [abort, worker?, channel?_modify_eq_map finish_id]
    obtain ⟨c, hc, hended⟩ := Option.map_eq_some_iff.1 h
    rw [hc, Option.map_some, Option.map_some]
    split
    · rfl
    · rw [hended]
  handling other n hn := by
    rw [abort, handling?_modify finish_id] at hn
    split at hn
    · cases hc : f.channel? id <;> simp [hc, Channel.finish, Worker.item?] at hn
    · exact .inl hn

/-- What a worker took when it ran. -/
def WorkerStep.taken? : WorkerStep → Option Notification
  | took n => some n
  | _ => none

/-- A worker that runs is given what it took. -/
theorem moves_advance (f : Fanout) (stopped : Bool) (id : Nat) :
    Moves f (f.advance stopped id).1 ((f.advance stopped id).2.taken?.map (id, ·)).toList := by
  have hmoves := moves_act { state := f, stopped := stopped } (.advance id)
  simp only [act, given] at hmoves
  rcases h : f.advance stopped id with ⟨f', n | - | -⟩ <;> rw [h] at hmoves <;> exact hmoves

/-- After the stop signal a worker that runs and is not busy ends. -/
theorem worker?_advance {f : Fanout} {id : Nat} {worker : Worker Notification}
    (h : f.worker? id = some worker) (hfree : worker.item? = none) :
    (f.advance true id).1.worker? id = some .ended := by
  obtain ⟨c, hc, rfl⟩ := Option.map_eq_some_iff.1 h
  cases hw : c.worker with
  | idle => simp [advance, hc, hw, worker?, channel?_modify_self finish_id, Channel.finish]
  | busy n => simp [hw, Worker.item?] at hfree
  | ended => simp [advance, hc, hw, worker?]

/-- After the stop signal a worker takes nothing. -/
theorem taken?_advance (f : Fanout) (id : Nat) : (f.advance true id).2.taken? = none := by
  obtain ⟨-, -, -, -, -, -, hs, -⟩ | ⟨-, ha, -⟩ | ⟨step, ha, hstep⟩ := advance_cases f true id
  · cases hs
  · rw [ha]
    rfl
  · rw [ha]
    cases step with
    | took n => exact absurd rfl (hstep n)
    | _ => rfl

end Fanout

/-! ### Entries -/

namespace Entry

/-- A step of an entry that may give its callbacks what `given` says. -/
structure Moves (e e' : Entry) (given : List (Nat × Notification)) : Prop where
  kind : e'.kind = e.kind
  callbacks : e.callbacks.Moves e'.callbacks given
  ended : e.reflector = .ended → e'.reflector = .ended

theorem Moves.refl (e : Entry) : Moves e e [] := ⟨rfl, .refl _, id⟩

/-- A step that gives nothing to a callback and publishes no milestone. -/
def Quiet (e : Entry) (result : Entry × List Effect) : Prop :=
  Moves e result.1 [] ∧ Routine result.2

theorem moves_report (e : Entry) (store : Store) (ns : List Notification) :
    Moves e (e.report store ns).1 [] :=
  ⟨rfl, e.callbacks.moves_dispatchAll ns, id⟩

theorem quiet_register (e : Entry) (id : Nat) (name : String) : e.Quiet (e.register id name) :=
  ⟨⟨rfl, e.callbacks.moves_register id name _, fun h ↦ h⟩,
    (e.callbacks.publishes_register id name _).routine (by decide)⟩

theorem quiet_complete (e : Entry) (id : Nat) (outcome : Outcome) :
    e.Quiet (e.withCallbacks (e.callbacks.complete id outcome)) :=
  ⟨⟨rfl, e.callbacks.moves_complete id outcome, fun h ↦ h⟩,
    (e.callbacks.publishes_complete id outcome).routine (by decide)⟩

theorem quiet_abort (e : Entry) (id : Nat) :
    e.Quiet (e.withCallbacks (e.callbacks.abort id, [])) :=
  ⟨⟨rfl, e.callbacks.moves_abort id, fun h ↦ h⟩, Effect.routine_nil⟩

theorem moves_endReflector (e : Entry) : Moves e e.endReflector.1 [] :=
  ⟨rfl, .refl _, fun _ ↦ rfl⟩

theorem quiet_endReflector (e : Entry) : e.Quiet e.endReflector :=
  ⟨e.moves_endReflector, e.publishes_endReflector.routine (List.forall_mem_nil _)⟩

/-- A loop that has not ended may go on anywhere. -/
theorem moves_reflector {e : Entry} (hrun : e.reflector ≠ .ended) (reflector : Reflector) :
    Moves e { e with reflector } [] :=
  ⟨rfl, .refl _, fun h ↦ absurd h hrun⟩

theorem moves_takeMutation (e : Entry) (m : Mutation) : Moves e (e.takeMutation m).1 [] := by
  rw [takeMutation]
  split
  · exact e.moves_report _ _
  · exact .refl e

/-- What a step of the loop does to the entry, whatever it takes in. -/
theorem moves_react (e : Entry) (pace : Pace) (now : Nat) (signal : Signal) :
    Moves e (e.react pace now signal).1 [] := by
  by_cases hrun : e.reflector = .ended
  · have hsame : e.react pace now signal = (e, []) := by simp only [react, hrun]
    rw [hsame]
    exact .refl e
  have hmove : ∀ reflector, Moves e { e with reflector } [] := moves_reflector hrun
  -- a step that also passes something on to the callbacks
  have hreport : ∀ (store : Store) (ns : List Notification) (synced : Bool) (reflector : Reflector),
      Moves e { (e.report store ns).1 with synced, reflector } [] := fun store ns _ _ ↦
    ⟨rfl, (e.moves_report store ns).callbacks, fun h ↦ absurd h hrun⟩
  unfold react
  split
  · exact hmove _
  · exact e.moves_endReflector
  · exact hmove _
  · exact hmove _
  · exact hreport _ _ _ _
  · exact hmove _
  · exact hmove _
  · exact hmove _
  · exact e.moves_takeMutation _
  · exact hmove _
  · exact hmove _
  · split
    · exact hreport _ _ _ _
    · exact hmove _
  · exact hmove _

/-- **A step of the loop is quiet**, whatever it takes in. -/
theorem quiet_react (e : Entry) (pace : Pace) (now : Nat) (signal : Signal) :
    e.Quiet (e.react pace now signal) :=
  ⟨e.moves_react pace now signal, (e.publishes_react pace now signal).routine (by decide)⟩

end Entry

/-! ### What functions of a cache leave alone -/

namespace Cache

variable (c : Cache)

/-- A worker that runs changes the callbacks of its entry. -/
theorem advanceWorker_eq (kind : Kind) (id : Nat) : (c.advanceWorker kind id).1 =
    (c.onEntry kind fun e ↦
      ({ e with callbacks := (e.callbacks.advance c.stopped id).1 }, [])).1 := by
  rw [advanceWorker, onEntry]
  split <;> rfl

/-- Looking at the bus, the forwarder changes the bus and the subscribers. -/
theorem readBus?_frame {result : Cache × List Effect} (h : c.readBus? = some result) :
    ∃ bus subscribers, result.1 = { c with bus, subscribers } := by
  rw [readBus?] at h
  split at h <;> cases h <;> exact ⟨_, _, rfl⟩

/-- Looking whether it may end, it changes the subscribers and where it stands itself. -/
theorem endReading?_frame {result : Cache × List Effect} (h : c.endReading? = some result) :
    ∃ bus subscribers forwarder, result.1 = { c with bus, subscribers, forwarder } := by
  rw [endReading?] at h
  split at h <;> cases h
  exact ⟨_, _, _, rfl⟩

/-- The forwarder changes the bus, the subscribers and where it stands itself. -/
theorem forward_frame : ∃ bus subscribers forwarder,
    c.forward.1 = { c with bus, subscribers, forwarder } := by
  rw [forward]
  split
  · exact ⟨_, _, _, rfl⟩
  · split <;> exact ⟨_, _, _, rfl⟩
  · split
    · next found hfound =>
      rcases Option.or_eq_some_iff.1 hfound with hfound | ⟨-, hfound⟩
      · obtain ⟨_, _, hresult⟩ := c.readBus?_frame hfound
        exact ⟨_, _, _, hresult⟩
      · exact c.endReading?_frame hfound
    · exact ⟨_, _, _, rfl⟩

/-- The call that gives the stop signal changes the bus and the shutdown. -/
theorem callShutdown_frame : ∃ bus shutdown, c.callShutdown.1.1 = { c with bus, shutdown } := by
  rw [callShutdown]
  split <;> exact ⟨_, _, rfl⟩

/-- Going on, it may end tasks, too. -/
theorem continueShutdown_frame (graceOver : Bool) : ∃ tasks bus shutdown released,
    (c.continueShutdown graceOver).1 =
      { (c.abortAll tasks).1 with bus, shutdown, released } := by
  rw [continueShutdown]
  split
  · exact ⟨[], _, _, _, rfl⟩
  · exact ⟨[], _, _, _, rfl⟩
  · exact ⟨[], _, _, _, rfl⟩
  · dsimp only
    split
    · exact ⟨[], _, _, _, rfl⟩
    · split
      · exact ⟨_, _, _, _, rfl⟩
      · exact ⟨[], _, _, _, rfl⟩
  · split <;> exact ⟨[], _, _, _, rfl⟩
  · exact ⟨[], _, _, _, rfl⟩

end Cache

/-! ### Caches -/

theorem Kind.getElem?_insert {β : Type} (held : Std.ExtTreeMap Kind β) (k : Kind) (v : β)
    (kind : Kind) : (held.insert k v)[kind]? = if k = kind then some v else held[kind]? := by
  rw [Std.ExtTreeMap.getElem?_insert]
  by_cases h : k = kind <;> simp [h]

theorem Kind.mem_insert {β : Type} {held : Std.ExtTreeMap Kind β} {k : Kind} {v : β} {kind : Kind} :
    kind ∈ held.insert k v ↔ k = kind ∨ kind ∈ held := by
  rw [Std.ExtTreeMap.mem_insert, Std.LawfulEqCmp.compare_eq_iff_eq]

namespace Cache

variable {c c' : Cache}

/-- What a callback on the entry of a kind is handling. -/
def handling? (c : Cache) (kind : Kind) (id : Nat) : Option Notification :=
  (c.entries[kind]?).bind (·.callbacks.handling? id)

/-- The worker of a callback on the entry of a kind. -/
def worker? (c : Cache) (kind : Kind) (id : Nat) : Option (Worker Notification) :=
  (c.entries[kind]?).bind (·.callbacks.worker? id)

/-- Every entry is the entry of the kind that it is found under. -/
def Proper (c : Cache) : Prop :=
  ∀ (kind : Kind) (e : Entry), c.entries[kind]? = some e →
    e.kind = kind ∧ e.callbacks.kind = kind

/-- What a step leaves as it was that changes entries in place and may give callbacks what `given`
says. -/
structure Keeps (c c' : Cache) (given : List (Kind × Nat × Notification)) : Prop where
  config : c'.config = c.config
  mem : ∀ kind, kind ∈ c'.entries ↔ kind ∈ c.entries
  proper : c.Proper → c'.Proper
  ended : ∀ kind, c.hasEnded (.reflector kind) = true → c'.hasEnded (.reflector kind) = true
  retired : ∀ kind id, c.worker? kind id = some .ended → c'.worker? kind id = some .ended
  handling : ∀ kind id n, c'.handling? kind id = some n →
    c.handling? kind id = some n ∨ (kind, id, n) ∈ given

/-- A step that leaves the shutdown where it is, too. -/
structure Moves (c c' : Cache) (given : List (Kind × Nat × Notification)) : Prop
    extends Keeps c c' given where
  shutdown : c'.shutdown = c.shutdown

theorem Moves.stopped {given : List (Kind × Nat × Notification)} (h : Moves c c' given) :
    c'.stopped = c.stopped := by
  rw [Cache.stopped, Cache.stopped, h.shutdown]

/-- A step that leaves the entries alone. -/
theorem Keeps.of_entries_eq (hentries : c'.entries = c.entries) (hconfig : c'.config = c.config) :
    Keeps c c' [] where
  config := hconfig
  mem kind := by rw [hentries]
  proper h kind e he := h kind e (hentries ▸ he)
  ended kind h := by rwa [hasEnded, hentries]
  retired kind id h := by rwa [worker?, hentries]
  handling kind id n hn := .inl (by rwa [handling?, hentries] at hn)

theorem Moves.of_entries_eq (hentries : c'.entries = c.entries) (hconfig : c'.config = c.config)
    (hshutdown : c'.shutdown = c.shutdown) : Moves c c' [] :=
  ⟨.of_entries_eq hentries hconfig, hshutdown⟩

theorem Moves.refl (c : Cache) : Moves c c [] := .of_entries_eq rfl rfl rfl

theorem Keeps.trans {c'' : Cache} (h : Keeps c c' []) (k : Keeps c' c'' []) : Keeps c c'' [] where
  config := k.config.trans h.config
  mem kind := (k.mem kind).trans (h.mem kind)
  proper hp := k.proper (h.proper hp)
  ended kind he := k.ended kind (h.ended kind he)
  retired kind id he := k.retired kind id (h.retired kind id he)
  handling kind id n hn := by
    rcases k.handling kind id n hn with hn | hn
    · exact h.handling kind id n hn
    · cases hn

theorem Moves.trans {c'' : Cache} (h : Moves c c' []) (k : Moves c' c'' []) : Moves c c'' [] :=
  ⟨h.toKeeps.trans k.toKeeps, k.shutdown.trans h.shutdown⟩

/-- The kinds that are watched stay the same. -/
theorem Keeps.kinds {given : List (Kind × Nat × Notification)} (h : Keeps c c' given) :
    c'.kinds = c.kinds := by
  have hmap : c'.entries.map (fun _ _ ↦ ()) = c.entries.map (fun _ _ ↦ ()) := by
    refine Std.ExtTreeMap.ext_mem_unit fun kind ↦ ?_
    rw [Std.ExtTreeMap.mem_map, Std.ExtTreeMap.mem_map]
    exact h.mem kind
  rw [Cache.kinds, Cache.kinds, ← Std.ExtTreeMap.keys_map (f := fun _ _ ↦ ()), hmap,
    Std.ExtTreeMap.keys_map]

/-- Putting an entry in the place of the one that it comes from. -/
theorem Moves.of_insert {kind : Kind} {e e' : Entry} {given : List (Nat × Notification)}
    (he : c.entries[kind]? = some e) (hmoves : e.Moves e' given)
    (hentries : c'.entries = c.entries.insert kind e') (hconfig : c'.config = c.config)
    (hshutdown : c'.shutdown = c.shutdown) :
    Moves c c' (given.map fun x ↦ (kind, x.1, x.2)) where
  config := hconfig
  shutdown := hshutdown
  mem other := by
    have hmem : kind ∈ c.entries := Std.ExtTreeMap.mem_iff_isSome_getElem?.2 (by rw [he]; rfl)
    rw [hentries, Kind.mem_insert]
    exact ⟨fun h ↦ h.elim (· ▸ hmem) id, .inr⟩
  proper hp other e₁ he₁ := by
    rw [hentries, Kind.getElem?_insert] at he₁
    split at he₁
    · next heq =>
      cases he₁
      subst heq
      obtain ⟨hkind, hcallbacks⟩ := hp kind e he
      exact ⟨hmoves.kind.trans hkind, hmoves.callbacks.kind.trans hcallbacks⟩
    · exact hp other e₁ he₁
  ended other h := by
    rw [hasEnded, hentries, Kind.getElem?_insert]
    by_cases heq : kind = other
    · subst heq
      rw [hasEnded, he] at h
      rw [if_pos rfl]
      exact decide_eq_true (hmoves.ended (of_decide_eq_true h))
    · rwa [if_neg heq]
  retired other id h := by
    rw [worker?, hentries, Kind.getElem?_insert]
    by_cases heq : kind = other
    · subst heq
      rw [worker?, he] at h
      rw [if_pos rfl]
      exact hmoves.callbacks.ended id h
    · rwa [if_neg heq]
  handling other id n hn := by
    rw [handling?, hentries, Kind.getElem?_insert] at hn
    split at hn
    · next heq =>
      subst heq
      rcases hmoves.callbacks.handling id n hn with hn | hn
      · exact .inl (by rw [handling?, he]; exact hn)
      · exact .inr (List.mem_map.2 ⟨_, hn, rfl⟩)
    · exact .inl hn

/-- A quiet step of an entry is one of the cache. -/
theorem moves_onEntry (c : Cache) (kind : Kind) {step : Entry → Entry × List Effect}
    (h : ∀ e : Entry, e.Quiet (step e)) :
    Moves c (c.onEntry kind step).1 [] ∧ Effect.Routine (c.onEntry kind step).2 := by
  rw [onEntry]
  rcases he : c.entries[kind]? with - | e
  · exact ⟨.refl c, Effect.routine_nil⟩
  · exact ⟨.of_insert he (h e).1 rfl rfl rfl, (h e).2⟩

theorem moves_register (c : Cache) (kind : Kind) (name : String) :
    Moves c (c.register kind name).1 [] ∧ Effect.Routine (c.register kind name).2 := by
  obtain ⟨hmoves, hroutine⟩ := moves_onEntry { c with nextCallback := c.nextCallback + 1 } kind
    fun e ↦ e.quiet_register c.nextCallback name
  have hnumber : Moves c { c with nextCallback := c.nextCallback + 1 } [] :=
    .of_entries_eq rfl rfl rfl
  exact ⟨hnumber.trans hmoves, hroutine⟩

theorem moves_react (c : Cache) (kind : Kind) (now : Nat) (signal : Signal) :
    Moves c (c.react kind now signal).1 [] ∧ Effect.Routine (c.react kind now signal).2 :=
  c.moves_onEntry kind fun e ↦ e.quiet_react c.pace now signal

theorem moves_completeWorker (c : Cache) (kind : Kind) (id : Nat) (outcome : Outcome) :
    Moves c (c.completeWorker kind id outcome).1 [] ∧
      Effect.Routine (c.completeWorker kind id outcome).2 :=
  c.moves_onEntry kind fun e ↦ e.quiet_complete id outcome

theorem moves_abort (c : Cache) (task : Task) :
    Moves c (c.abort task).1 [] ∧ Effect.Routine (c.abort task).2 := by
  cases task with
  | reflector kind => exact c.moves_onEntry kind Entry.quiet_endReflector
  | worker kind id => exact c.moves_onEntry kind fun e ↦ e.quiet_abort id
  | _ => exact ⟨.refl c, Effect.routine_nil⟩

theorem moves_abortAll (c : Cache) (tasks : List Task) :
    Moves c (c.abortAll tasks).1 [] ∧ Effect.Routine (c.abortAll tasks).2 := by
  induction tasks generalizing c with
  | nil => exact ⟨.refl c, Effect.routine_nil⟩
  | cons task rest ih =>
    obtain ⟨hfirst, hroutine⟩ := c.moves_abort task
    obtain ⟨hrest, hroutine'⟩ := ih (c.abort task).1
    exact ⟨hfirst.trans hrest, Effect.routine_append.2 ⟨hroutine, hroutine'⟩⟩

/-- What the worker of a callback that runs is given. -/
def handedBy (c : Cache) (kind : Kind) (id : Nat) : List (Kind × Nat × Notification) :=
  ((c.advanceWorker kind id).2.taken?.map fun n ↦ (kind, id, n)).toList

theorem moves_advanceWorker (c : Cache) (kind : Kind) (id : Nat) :
    Moves c (c.advanceWorker kind id).1 (c.handedBy kind id) := by
  rcases he : c.entries[kind]? with - | e
  · have hstep : c.advanceWorker kind id = (c, .ended) := by simp only [advanceWorker, he]
    rw [handedBy, hstep]
    exact .refl c
  · have hentry : e.Moves { e with callbacks := (e.callbacks.advance c.stopped id).1 } _ :=
      ⟨rfl, e.callbacks.moves_advance c.stopped id, fun h ↦ h⟩
    have hmoves : Moves c (c.advanceWorker kind id).1 _ :=
      .of_insert he hentry (by simp only [advanceWorker, he]) (by simp only [advanceWorker, he])
        (by simp only [advanceWorker, he])
    have hgiven : c.handedBy kind id =
        (((e.callbacks.advance c.stopped id).2.taken?.map (id, ·)).toList).map
          fun x ↦ (kind, x.1, x.2) := by
      simp only [handedBy, advanceWorker, he]
      cases (e.callbacks.advance c.stopped id).2.taken? <;> rfl
    rwa [hgiven]

/-- After the stop signal the worker of a callback is given nothing. -/
theorem handedBy_of_stopped {c : Cache} (hs : c.stopped = true) (kind : Kind) (id : Nat) :
    c.handedBy kind id = [] := by
  rw [handedBy, advanceWorker]
  rcases c.entries[kind]? with - | e
  · rfl
  · rw [hs, Fanout.taken?_advance]
    rfl

/-! ### The forwarder and the subscribers -/

theorem moves_completeSubscriber (c : Cache) (i : Nat) (outcome : Outcome) :
    Moves c (c.completeSubscriber i outcome).1 [] ∧
      Effect.Routine (c.completeSubscriber i outcome).2 :=
  ⟨.of_entries_eq rfl rfl rfl, (c.subscribers.publishes_complete i outcome).routine (by decide)⟩

/-! ### The shutdown -/

/-- Where the shutdown stands after a step of the first call, and the milestones that the step
publishes. -/
inductive Stage (c : Cache) (graceOver : Bool) : Shutdown → List RuntimeEvent → Prop where
  | waits (h : ∀ tasks, c.shutdown = .joining tasks → graceOver = false) :
    Stage c graceOver c.shutdown []
  | kinds (h : c.shutdown = .requested) : Stage c graceOver (.collecting c.kinds []) []
  | collects {kind : Kind} {left : List Kind} {tasks : List (Kind × List Task)}
    (h : c.shutdown = .collecting (kind :: left) tasks) :
    Stage c graceOver (.collecting left
      (tasks ++ (c.entries[kind]?.map fun e ↦ (kind, entryTasks e)).toList)) []
  | collected {tasks : List (Kind × List Task)} (h : c.shutdown = .collecting [] tasks) :
    Stage c graceOver (.joining tasks) []
  | stopped {tasks : List (Kind × List Task)} (h : c.shutdown = .joining tasks)
    (hall : ∀ x ∈ tasks, ∀ task ∈ x.2, c.hasEnded task = true) :
    Stage c graceOver (.settling (.ok ())) [.allStoppedWithin]
  | exceeded {tasks : List (Kind × List Task)} (h : c.shutdown = .joining tasks)
    (hsome : ∃ x ∈ tasks, ∃ task ∈ x.2, c.hasEnded task = false) (hover : graceOver = true) :
    Stage c graceOver (.settling (.error (.graceExceeded c.config.grace
      ((c.stuckKinds tasks).map Kind.display).mergeSort))) [.graceExceeded]
  | finished {result : Except ShutdownError Unit} (h : c.shutdown = .settling result) :
    Stage c graceOver (.finished result) []

/-- The first call neither gives the stop signal nor takes it back. -/
theorem Stage.stopped_eq {c c' : Cache} {graceOver : Bool} {shutdown : Shutdown}
    {milestones : List RuntimeEvent} (h : Stage c graceOver shutdown milestones)
    (hshutdown : c'.shutdown = shutdown) : c'.stopped = c.stopped := by
  rw [Cache.stopped, hshutdown]
  cases h with
  | waits => rfl
  | _ h => simp [Cache.stopped, h]

/-- A step that is routine but for where the shutdown stands and the milestones it publishes. -/
def Stages (c : Cache) (graceOver : Bool) (result : Cache × List Effect) : Prop :=
  ∃ shutdown routine milestones, Keeps c result.1 [] ∧ result.1.shutdown = shutdown ∧
    Stage c graceOver shutdown milestones ∧ Effect.Routine routine ∧
    Effect.events result.2 = Effect.events routine ++ milestones

/-- A step that publishes nothing. -/
theorem stages_of_stage {c : Cache} {graceOver : Bool} {shutdown : Shutdown}
    (h : Stage c graceOver shutdown []) : c.Stages graceOver ({ c with shutdown }, []) :=
  ⟨shutdown, [], [], .of_entries_eq rfl rfl, rfl, h, Effect.routine_nil, rfl⟩

theorem keeps_settle (c : Cache) (result : Except ShutdownError Unit) (report : RuntimeEvent) :
    Keeps c (c.settle result report).1 [] :=
  .of_entries_eq rfl rfl

/-- The first call waits for the tasks. -/
theorem stages_of_joining {c : Cache} {tasks : List (Kind × List Task)}
    (h : c.shutdown = .joining tasks) (graceOver : Bool) :
    c.Stages graceOver (c.continueShutdown graceOver) := by
  have hempty : ((tasks.flatMap (·.2)).filter fun task ↦ !c.hasEnded task).isEmpty = true ↔
      ∀ x ∈ tasks, ∀ task ∈ x.2, c.hasEnded task = true := by
    simp only [List.isEmpty_iff, List.filter_eq_nil_iff, List.mem_flatMap]
    constructor
    · intro hnone x hx task htask
      simpa using hnone task ⟨x, hx, htask⟩
    · rintro hall task ⟨x, hx, htask⟩
      simp [hall x hx task htask]
  simp only [continueShutdown, h]
  by_cases hall : ∀ x ∈ tasks, ∀ task ∈ x.2, c.hasEnded task = true
  · rw [if_pos (hempty.2 hall)]
    exact ⟨_, [], _, keeps_settle _ _ _, rfl, .stopped h hall, Effect.routine_nil, rfl⟩
  · rw [if_neg (mt hempty.1 hall)]
    cases graceOver with
    | true =>
      obtain ⟨hmoves, hroutine⟩ := c.moves_abortAll
        ((tasks.flatMap (·.2)).filter fun task ↦ !c.hasEnded task)
      refine ⟨_, _, [.graceExceeded], hmoves.toKeeps.trans (keeps_settle _ _ _), rfl, ?_, hroutine,
        Effect.events_append _ _⟩
      rw [if_pos rfl, hmoves.config]
      exact .exceeded h (by simpa using hall) rfl
    | false => exact stages_of_stage (.waits fun _ _ ↦ rfl)

/-- **What a step of the first call that shuts down does.** -/
theorem stages_continueShutdown (c : Cache) (graceOver : Bool) :
    c.Stages graceOver (c.continueShutdown graceOver) := by
  have hwaits (h : ∀ tasks, c.shutdown ≠ .joining tasks) : c.Stages graceOver (c, []) :=
    stages_of_stage (.waits fun tasks hj ↦ absurd hj (h tasks))
  rcases h : c.shutdown with - | - | ⟨_ | ⟨kind, left⟩, tasks⟩ | tasks | result | result
  · simp only [continueShutdown, h]
    exact hwaits (by simp [h])
  · simp only [continueShutdown, h]
    exact stages_of_stage (.kinds h)
  · simp only [continueShutdown, h]
    exact stages_of_stage (.collected h)
  · simp only [continueShutdown, h]
    exact stages_of_stage (.collects h)
  · exact stages_of_joining h graceOver
  · simp only [continueShutdown, h]
    split
    · exact stages_of_stage (.finished h)
    · exact hwaits (by simp [h])
  · simp only [continueShutdown, h]
    exact hwaits (by simp [h])

theorem stopped_eq_false {c : Cache} : c.stopped = false ↔ c.shutdown = .notBegun := by
  cases h : c.shutdown <;> simp [stopped, h]

theorem stopped_of_ne {c : Cache} (h : c.shutdown ≠ .notBegun) : c.stopped = true :=
  eq_true_of_ne_false (mt stopped_eq_false.1 h)

/-- The call that gives the stop signal. -/
theorem callShutdown_of_notBegun {c : Cache} (h : c.shutdown = .notBegun) :
    Keeps c c.callShutdown.1.1 [] ∧ c.callShutdown.1.1.shutdown = .requested ∧
      Effect.events c.callShutdown.1.2 = [.shutdownRequested] ∧ c.callShutdown.2 = none := by
  have hwakes : ∀ tasks : List Task, Effect.events (tasks.map .wake ++ [.wake .guards]) = [] := by
    intro tasks
    rw [Effect.events_append, Effect.events_wakes]
    rfl
  simp only [callShutdown, h, and_true]
  exact ⟨.of_entries_eq rfl rfl, rfl, congrArg (_ :: ·) (hwakes _)⟩

/-- Any other call that shuts down. -/
theorem callShutdown_of_stopped {c : Cache} (h : c.stopped = true) :
    c.callShutdown = ((c, []), some (.ok ())) := by
  rw [callShutdown]
  split
  · next hs => simp [stopped, hs] at h
  · rfl

end Cache

end Informer
