import Informer.Proofs.Traffic

/-!
# What the shutdown collects

The first call that shuts down asks the entries for their tasks, one entry after another, while
everything else goes on. `Collected` ties what it has got so far to the entries: it misses no kind,
no loop and no callback that is handling something. This holds because no entry is created after the
stop signal, and one that was created before is in the map by the time at which the shutdown reads
the kinds. A callback that is registered after its entry was asked is missed, but it never handles
anything.

`Housed` is what this needs of the entries at any time.
-/

namespace Informer

/-- What the shutdown has collected, with the kinds that it has still to ask. -/
def Shutdown.collected? : Shutdown → Option (List Kind × List (Kind × List Task))
  | collecting left tasks => some (left, tasks)
  | joining tasks => some ([], tasks)
  | _ => none

/-- An entry that is not in the map yet: it is of its kind and has given nothing to a callback. -/
structure Draft.Bare (d : Draft) : Prop where
  kind : d.entry.kind = d.kind
  callbacks : d.entry.callbacks.kind = d.kind
  handling : ∀ id, d.entry.callbacks.handling? id = none

theorem Draft.Bare.of_moves {d d' : Draft} (h : d.Bare) (hm : d.Moves d') : d'.Bare where
  kind := by rw [hm.entry.kind, hm.kind, h.kind]
  callbacks := by rw [hm.entry.callbacks.kind, hm.kind, h.callbacks]
  handling id := by
    rcases hn : d'.entry.callbacks.handling? id with - | n
    · rfl
    · obtain hold | hgiven := hm.entry.callbacks.handling id n hn
      · exact absurd hold (by simp [h.handling id])
      · cases hgiven

namespace Traffic

variable {w w' : Traffic} {a : Action}

/-! ### Entries -/

/-- Every entry is the entry of its kind, and callbacks only handle what was given to them. -/
structure Housed (w : Traffic) : Prop where
  proper : w.cache.Proper
  bare : ∀ d, w.draft? = some d → d.Bare
  handed : ∀ kind id n, w.cache.handling? kind id = some n → (kind, id, n) ∈ w.handed

theorem housed_start (config : Config) (subscribers : Subscribers) :
    (start config subscribers).Housed where
  proper kind e he := by simp [start, Cache.new] at he
  bare := nofun
  handed kind id n hn := by simp [start, Cache.new, Cache.handling?] at hn

theorem Housed.of_moves (h : w.Housed) {given : List (Kind × Nat × Notification)}
    (hm : w.Moves w' given) : w'.Housed where
  proper := hm.cache.proper h.proper
  bare d' hd' := by
    obtain ⟨-, hnone⟩ | ⟨d, d₁, hd, hd₁, hmoves⟩ := hm.draft_cases
    · rw [hnone] at hd'
      cases hd'
    · cases hd₁.symm.trans hd'
      exact (h.bare d hd).of_moves hmoves
  handed kind id n hn := by
    rw [hm.handed]
    rcases hm.cache.handling kind id n hn with hn | hn
    · exact List.mem_append_left _ (h.handed kind id n hn)
    · exact List.mem_append_right _ hn

/-- A step of the cache that leaves the entries as they are. -/
theorem Housed.take (h : w.Housed) {result : Cache × List Effect}
    (hk : w.cache.Keeps result.1 []) : (w.take result).Housed where
  proper := hk.proper h.proper
  bare := h.bare
  handed kind id n hn := by
    rcases hk.handling kind id n hn with hn | hn
    · exact h.handed kind id n hn
    · cases hn

theorem Housed.create (h : w.Housed) (i : Nat) (q : Inquiry) : (w.create i q).Housed :=
  { h with
    bare := fun d hd ↦ by
      cases hd
      exact ⟨rfl, rfl, fun _ ↦ rfl⟩ }

theorem handling?_enter (w : Traffic) (d : Draft) (q : Inquiry) (kind : Kind) (id : Nat) :
    (w.enter d q).cache.handling? kind id =
      if d.kind = kind then d.entry.callbacks.handling? id else w.cache.handling? kind id := by
  show ((w.cache.entries.insert d.kind d.entry)[kind]?).bind _ = _
  rw [Kind.getElem?_insert]
  split <;> rfl

theorem Housed.enter (h : w.Housed) {d : Draft} (hd : w.draft? = some d) (q : Inquiry) :
    (w.enter d q).Housed where
  proper kind e he := by
    have he' : (w.cache.entries.insert d.kind d.entry)[kind]? = some e := he
    rw [Kind.getElem?_insert] at he'
    split at he'
    · next hk =>
      cases he'
      exact ⟨(h.bare d hd).kind.trans hk, (h.bare d hd).callbacks.trans hk⟩
    · exact h.proper kind e he'
  bare := nofun
  handed kind id n hn := by
    rw [handling?_enter, (h.bare d hd).handling id] at hn
    split at hn
    · cases hn
    · exact h.handed kind id n hn

theorem Housed.step (hs : Step w a w') (h : w.Housed) : w'.Housed := by
  cases hs with
  | moves hm => exact h.of_moves hm
  | create => exact h.create _ _
  | enter _ hd => exact h.enter hd _
  | request _ hkeeps => exact h.take hkeeps
  | goOn _ hkeeps => exact h.take hkeeps
  | _ => exact { h with }

/-! ### Tasks -/

/-- Nothing is missed among the tasks that were collected while the kinds of `left` were still to be
asked. -/
structure Gathered (w : Traffic) (left : List Kind) (tasks : List (Kind × List Task)) : Prop where
  /-- No entry is on its way into the map. -/
  free : w.draft? = none
  kinds : tasks.map (·.1) ++ left = w.cache.kinds
  loops : ∀ x ∈ tasks, .reflector x.1 ∈ x.2
  workers : ∀ x ∈ tasks, ∀ id n, w.cache.handling? x.1 id = some n → .worker x.1 id ∈ x.2
  own : ∀ x ∈ tasks, ∀ task ∈ x.2, task = .reflector x.1 ∨ ∃ id, task = .worker x.1 id

/-- Nothing is missed among what the shutdown has collected. -/
def Collected (w : Traffic) : Prop :=
  ∀ left tasks, w.cache.shutdown.collected? = some (left, tasks) → w.Gathered left tasks

theorem stopped_of_collected? {x : List Kind × List (Kind × List Task)}
    (h : w.cache.shutdown.collected? = some x) : w.cache.stopped = true :=
  Cache.stopped_of_ne fun hs ↦ by
    rw [hs] at h
    cases h

theorem Gathered.keeps {left : List Kind} {tasks : List (Kind × List Task)}
    (h : w.Gathered left tasks) (hfree : w'.draft? = none) (hk : w.cache.Keeps w'.cache []) :
    w'.Gathered left tasks where
  free := hfree
  kinds := h.kinds.trans hk.kinds.symm
  loops := h.loops
  workers x hx id n hn := by
    obtain hn | hn := hk.handling x.1 id n hn
    · exact h.workers x hx id n hn
    · cases hn
  own := h.own

theorem Collected.of_moves (h : w.Collected) {given : List (Kind × Nat × Notification)}
    (hm : w.Moves w' given) : w'.Collected := by
  intro left tasks hcollected
  rw [hm.cache.shutdown] at hcollected
  have hg := h left tasks hcollected
  have hkeeps : w.cache.Keeps w'.cache [] :=
    hm.quiet (stopped_of_collected? hcollected) ▸ hm.cache.toKeeps
  obtain ⟨-, hfree⟩ | ⟨d, -, hd, -, -⟩ := hm.draft_cases
  · exact hg.keeps hfree hkeeps
  · rw [hg.free] at hd
    cases hd

theorem mem_entryTasks {e : Entry} {kind : Kind} (hkind : e.kind = kind)
    (hcallbacks : e.callbacks.kind = kind) {task : Task} :
    task ∈ Cache.entryTasks e ↔
      task = .reflector kind ∨ ∃ c ∈ e.callbacks.channels, task = .worker kind c.id := by
  subst hkind
  simp only [Cache.entryTasks, List.mem_cons, List.mem_map, Fanout.task, hcallbacks, eq_comm]

/-- An entry is asked for its tasks. -/
theorem Gathered.collect (h : w.Housed) {kind : Kind} {left : List Kind}
    {tasks : List (Kind × List Task)} (hg : w.Gathered (kind :: left) tasks) :
    w.Gathered left
      (tasks ++ (w.cache.entries[kind]?.map fun e ↦ (kind, Cache.entryTasks e)).toList) := by
  have hmem : kind ∈ w.cache.entries := by
    rw [← Std.ExtTreeMap.mem_keys]
    show kind ∈ w.cache.kinds
    rw [← hg.kinds]
    exact List.mem_append_right _ List.mem_cons_self
  obtain ⟨e, he⟩ := Option.isSome_iff_exists.1 (Std.ExtTreeMap.mem_iff_isSome_getElem?.1 hmem)
  obtain ⟨hkind, hcallbacks⟩ := h.proper kind e he
  have htasks {task : Task} : task ∈ Cache.entryTasks e ↔
      task = .reflector kind ∨ ∃ c ∈ e.callbacks.channels, task = .worker kind c.id :=
    mem_entryTasks hkind hcallbacks
  have hlast : ∀ {P : Kind × List Task → Prop}, (∀ x ∈ tasks, P x) → P (kind, Cache.entryTasks e) →
      ∀ x ∈ tasks ++ [(kind, Cache.entryTasks e)], P x := by
    intro P hold hnew x hx
    rcases List.mem_append.1 hx with hx | hx
    · exact hold x hx
    · exact List.mem_singleton.1 hx ▸ hnew
  rw [he, Option.map_some, Option.toList_some]
  exact
    { free := hg.free
      kinds := by rw [List.map_append, List.append_assoc]; exact hg.kinds
      loops := hlast hg.loops (htasks.2 (.inl rfl))
      workers := hlast hg.workers fun id n hn ↦ by
        rw [Cache.handling?, he, Option.bind_some, Fanout.handling?] at hn
        obtain ⟨c, hc, -⟩ := Option.bind_eq_some_iff.1 hn
        have hid : c.id = id := by simpa using List.find?_some hc
        exact htasks.2 (.inr ⟨c, List.mem_of_find?_eq_some hc, by rw [hid]⟩)
      own := hlast hg.own fun task htask ↦
        (htasks.1 htask).imp_right fun ⟨c, _, hc⟩ ↦ ⟨c.id, hc⟩ }

/-- The first call that shuts down goes on. -/
theorem Collected.goOn (h : w.Collected) (hh : w.Housed) {graceOver : Bool} {shutdown : Shutdown}
    {milestones : List RuntimeEvent} {result : Cache × List Effect}
    (hfree : w.cache.shutdown = .requested → w.draft? = none) (hkeeps : w.cache.Keeps result.1 [])
    (hshutdown : result.1.shutdown = shutdown)
    (hstage : w.cache.Stage graceOver shutdown milestones) : (w.take result).Collected := by
  intro left tasks hcollected
  have hgathered : w.Gathered left tasks := by
    have hc : shutdown.collected? = some (left, tasks) := hshutdown ▸ hcollected
    cases hstage with
    | waits => exact h left tasks hc
    | kinds hs =>
      cases hc
      exact ⟨hfree hs, List.nil_append _, nofun, nofun, nofun⟩
    | collects hs =>
      cases hc
      exact (h _ _ (by rw [hs]; rfl)).collect hh
    | collected hs =>
      cases hc
      exact h _ _ (by rw [hs]; rfl)
    | stopped => cases hc
    | exceeded => cases hc
    | finished => cases hc
  exact hgathered.keeps hgathered.free hkeeps

theorem Collected.step (hs : Step w a w') (hh : w.Housed) (h : w.Collected) : w'.Collected := by
  cases hs with
  | moves hm => exact h.of_moves hm
  | create _ _ _ _ hrun =>
    intro left tasks hc
    have hstopped : w.cache.stopped = true := stopped_of_collected? (w := w) hc
    exact absurd hstopped (by simp [hrun])
  | enter _ hd =>
    intro left tasks hc
    have hfree := (h left tasks hc).free
    exact absurd hfree (by simp [hd])
  | @request result _ _ hrequested =>
    intro left tasks hc
    have hnone : result.1.shutdown.collected? = none := by rw [hrequested]; rfl
    cases hnone.symm.trans hc
  | goOn hfree hkeeps hshutdown hstage => exact h.goOn hh hfree hkeeps hshutdown hstage
  | _ => exact fun left tasks hc ↦ { h left tasks hc with }

/-- **What the shutdown has collected misses nothing**, at any time of any run. -/
theorem collected_actAll (config : Config) (subscribers : Subscribers) (actions : List Action) :
    ((start config subscribers).actAll actions).Housed ∧
      ((start config subscribers).actAll actions).Collected :=
  actAll_of_step (P := fun w ↦ w.Housed ∧ w.Collected)
    (fun _ _ _ hs h ↦ ⟨h.1.step hs, h.2.step hs h.1⟩)
    ⟨housed_start config subscribers, nofun⟩ actions

end Traffic

end Informer
