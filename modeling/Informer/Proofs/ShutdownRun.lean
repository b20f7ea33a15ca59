import Informer.Proofs.LookupRun
import Informer.Proofs.LoopEnd

/-!
# What a shutdown does

Calls that shut a cache down, in any number and at any time, while everything else goes on.
`Reported` is what every action keeps of what was reported, of the answers of the calls, and of the
result of the first one. It succeeds only if nothing is being handled any more: a callback that is
handling something is among the tasks that were collected (`Gathered.running`).

The other half depends on who runs. A loop that takes in the stop signal ends and stays so
(`loopEnded_actAll`), and so does a worker that runs after the stop signal and is not busy
(`WorkerScheduled.ended`). When all of them have had their turn, the tasks that have not ended are
those of callbacks that are handling something, so the first call names exactly their kinds
(`Gathered.mem_stuckKinds`). That a loop which is scheduled comes to take in the stop signal is
`turn_ends`.

Tasks take turns here, and a worker that is idle comes to its queue in the turn in which it has
looked for the stop signal. A worker on a thread of its own may be overtaken between the two looks;
that comes to what a run in turns comes to (`Pickup.exists_turns`).
-/

namespace Informer

namespace Shutdown

/-- The result of the first call that shuts down, as soon as it is known. -/
def result? : Shutdown → Option (Except ShutdownError Unit)
  | settling result | finished result => some result
  | _ => none

/-- How it was reported that the shutdown has a result. -/
def report (s : Shutdown) : List RuntimeEvent :=
  match s.result? with
  | none => []
  | some (.ok ()) => [.allStoppedWithin]
  | some (.error _) => [.graceExceeded]

end Shutdown

namespace Cache

variable {c : Cache} {graceOver : Bool} {shutdown : Shutdown} {milestones : List RuntimeEvent}

/-- A step that gives nothing to a callback leaves those quiet that are. -/
theorem Keeps.quiet {c' : Cache} (hk : c.Keeps c' []) (h : ∀ kind id, c.handling? kind id = none)
    (kind : Kind) (id : Nat) : c'.handling? kind id = none := by
  rcases hn : c'.handling? kind id with - | n
  · rfl
  · obtain hold | hgiven := hk.handling kind id n hn
    · exact absurd hold (by simp [h kind id])
    · cases hgiven

namespace Stage

/-- What a step reports is that there is a result. -/
theorem report_eq (h : Stage c graceOver shutdown milestones) :
    shutdown.report = c.shutdown.report ++ milestones := by
  cases h with
  | waits => exact (List.append_nil _).symm
  | finished h => rw [h]; exact (List.append_nil _).symm
  | _ h => rw [h]; rfl

theorem filter_outcome (h : Stage c graceOver shutdown milestones) :
    milestones.filter ([Topic.allStoppedWithin, .graceExceeded].contains ·.topic) = milestones := by
  cases h <;> rfl

theorem filter_requested (h : Stage c graceOver shutdown milestones) :
    milestones.filter ([Topic.shutdownRequested].contains ·.topic) = [] := by
  cases h <;> rfl

/-- A result stays. -/
theorem result_eq (h : Stage c graceOver shutdown milestones) {result : Except ShutdownError Unit}
    (hr : c.shutdown.result? = some result) : shutdown.result? = some result := by
  cases h with
  | waits => exact hr
  | finished h => rw [h] at hr; exact hr
  | _ h => rw [h] at hr; cases hr

end Stage

end Cache

namespace Traffic

variable {w w' : Traffic}

/-! ### What is still running -/

/-- A callback that is handling something is among the tasks that were collected. -/
theorem Gathered.running {tasks : List (Kind × List Task)} (h : w.Gathered [] tasks) {kind : Kind}
    {id : Nat} {n : Notification} (hn : w.cache.handling? kind id = some n) :
    ∃ x ∈ tasks, x.1 = kind ∧ .worker kind id ∈ x.2 ∧
      w.cache.hasEnded (.worker kind id) = false := by
  obtain ⟨e, he, hc⟩ := Option.bind_eq_some_iff.1 hn
  obtain ⟨c, hc, hitem⟩ := Option.bind_eq_some_iff.1 hc
  have hkind : kind ∈ w.cache.kinds :=
    Std.ExtTreeMap.mem_keys.2 (Std.ExtTreeMap.mem_iff_isSome_getElem?.2 (by rw [he]; rfl))
  rw [← h.kinds, List.append_nil] at hkind
  obtain ⟨x, hx, rfl⟩ := List.mem_map.1 hkind
  refine ⟨x, hx, rfl, h.workers x hx id n hn, ?_⟩
  simp only [Cache.hasEnded, he, hc]
  cases hw : c.worker with
  | busy => rfl
  | _ =>
    rw [hw] at hitem
    cases hitem

/-- What was reported about the shutdown and answered to the calls, and what success means. -/
structure Reported (w : Traffic) : Prop where
  requested : w.published [.shutdownRequested] =
    if w.cache.stopped then [.shutdownRequested] else []
  outcome : w.published [.allStoppedWithin, .graceExceeded] = w.cache.shutdown.report
  answers : ∀ answer ∈ w.answers, answer = .ok ()
  /-- When the first call succeeds nothing is being handled. -/
  quiet : w.cache.shutdown.result? = some (.ok ()) → ∀ kind id, w.cache.handling? kind id = none

theorem reported_start (config : Config) (subscribers : Subscribers) :
    (start config subscribers).Reported where
  requested := rfl
  outcome := rfl
  answers := nofun
  quiet := nofun

theorem Reported.of_moves (h : w.Reported) {given : List (Kind × Nat × Notification)}
    (hm : w.Moves w' given) : w'.Reported where
  requested := by rw [hm.published (by decide), hm.cache.stopped, h.requested]
  outcome := by rw [hm.published (by decide), hm.cache.shutdown, h.outcome]
  answers := hm.answers ▸ h.answers
  quiet hr := by
    rw [hm.cache.shutdown] at hr
    have hstopped : w.cache.stopped = true := Cache.stopped_of_ne fun hs ↦ by
      rw [hs] at hr
      cases hr
    exact (hm.quiet hstopped ▸ hm.cache.toKeeps : w.cache.Keeps w'.cache []).quiet (h.quiet hr)

theorem Reported.enter (h : w.Reported) (hh : w.Housed) {d : Draft} (hd : w.draft? = some d)
    (q : Inquiry) : (w.enter d q).Reported := by
  have hevents : (w.enter d q).events = w.events ++ [.watchStarted d.kind] := rfl
  exact
    { requested := by
        rw [published_append hevents]
        exact (List.append_nil _).trans h.requested
      outcome := by
        rw [published_append hevents]
        exact (List.append_nil _).trans h.outcome
      answers := h.answers
      quiet := fun hr kind id ↦ by
        rw [handling?_enter, (hh.bare d hd).handling id]
        split
        · rfl
        · exact h.quiet hr kind id }

/-- The stop signal is given. -/
theorem Reported.request (h : w.Reported) {result : Cache × List Effect}
    (hnone : w.cache.shutdown = .notBegun) (hrequested : result.1.shutdown = .requested)
    (hevents : Effect.events result.2 = [.shutdownRequested]) : (w.take result).Reported := by
  have happend : (w.take result).events = w.events ++ [.shutdownRequested] :=
    congrArg (w.events ++ ·) hevents
  have hshutdown : (w.take result).cache.shutdown = .requested := hrequested
  exact
    { requested := by
        rw [published_append happend, h.requested, Cache.stopped_eq_false.2 hnone,
          Cache.stopped_of_ne (by rw [hshutdown]; exact nofun)]
        rfl
      outcome := by
        rw [published_append happend, h.outcome, hnone, hshutdown]
        rfl
      answers := h.answers
      quiet := fun hr ↦ by
        rw [hshutdown] at hr
        cases hr }

/-- The first call goes on. -/
theorem Reported.goOn (h : w.Reported) (hc : w.Collected) {graceOver : Bool}
    {result : Cache × List Effect} {shutdown : Shutdown} {routine : List Effect}
    {milestones : List RuntimeEvent} (hkeeps : w.cache.Keeps result.1 [])
    (hshutdown : result.1.shutdown = shutdown)
    (hstage : w.cache.Stage graceOver shutdown milestones) (hroutine : Effect.Routine routine)
    (hevents : Effect.events result.2 = Effect.events routine ++ milestones) :
    (w.take result).Reported := by
  have happend : (w.take result).events = w.events ++ (Effect.events routine ++ milestones) :=
    congrArg (w.events ++ ·) hevents
  have hstopped : (w.take result).cache.stopped = w.cache.stopped := hstage.stopped_eq hshutdown
  have hquiet (hr : shutdown.result? = some (.ok ())) :
      ∀ kind id, w.cache.handling? kind id = none := by
    cases hstage with
    | waits => exact h.quiet hr
    | finished hs => exact h.quiet (by rw [hs]; exact hr)
    | stopped hs hall =>
      -- every task that was collected has ended, and one of them would be handling something
      intro kind id
      rcases hn : w.cache.handling? kind id with - | n
      · rfl
      · obtain ⟨x, hx, -, htask, hrun⟩ := (hc [] _ (by rw [hs]; rfl)).running hn
        exact absurd (hall x hx _ htask) (by simp [hrun])
    | _ => cases hr
  exact
    { requested := by
        rw [published_append happend, List.filter_append, hroutine.filter_eq_nil (by decide),
          hstage.filter_requested, List.append_nil, List.append_nil, h.requested, hstopped]
      outcome := by
        rw [published_append happend, List.filter_append, hroutine.filter_eq_nil (by decide),
          hstage.filter_outcome, List.nil_append, h.outcome]
        exact hshutdown ▸ hstage.report_eq.symm
      answers := h.answers
      quiet := fun hr ↦ hkeeps.quiet (hquiet (hshutdown ▸ hr)) }

theorem Reported.step {a : Action} (hs : Step w a w') (hh : w.Housed) (hc : w.Collected)
    (h : w.Reported) : w'.Reported := by
  cases hs with
  | moves hm => exact h.of_moves hm
  | enter _ hd => exact h.enter hh hd _
  | request hnone _ hrequested hevents => exact h.request hnone hrequested hevents
  | refuse =>
    refine { h with answers := fun answer hmem ↦ ?_ }
    rcases List.mem_append.1 hmem with hmem | hmem
    · exact h.answers answer hmem
    · exact List.mem_singleton.1 hmem
  | goOn _ hkeeps hshutdown hstage hroutine hevents =>
    exact h.goOn hc hkeeps hshutdown hstage hroutine hevents
  | _ => exact { h with }

/-! ### Runs -/

theorem reported_actAll (config : Config) (subscribers : Subscribers) (actions : List Action) :
    ((start config subscribers).actAll actions).Reported := by
  have h := actAll_of_step (w := start config subscribers)
    (P := fun w ↦ w.Housed ∧ w.Collected ∧ w.Reported)
    (fun _ _ _ hs h ↦ ⟨h.1.step hs, h.2.1.step hs h.1, h.2.2.step hs h.1 h.2.1⟩)
    ⟨housed_start config subscribers, nofun, reported_start config subscribers⟩ actions
  exact h.2.2

/-- The loop of a kind has ended; its entry may not be in the map yet. -/
def LoopEnded (w : Traffic) (kind : Kind) : Prop :=
  (∃ d, w.draft? = some d ∧ d.kind = kind ∧ d.entry.reflector = .ended) ∨
    ∃ e, w.cache.entries[kind]? = some e ∧ e.reflector = .ended

theorem LoopEnded.hasEnded {kind : Kind} (h : w.LoopEnded kind) (ho : w.Orderly)
    (hk : kind ∈ w.cache.entries) : w.cache.hasEnded (.reflector kind) = true := by
  obtain ⟨d, hd, rfl, -⟩ | ⟨e, he, hended⟩ := h
  · exact absurd hk (ho.not_mem_of_draft hd)
  · rw [Cache.hasEnded, he]
    exact decide_eq_true hended

/-- The worker of a callback has run, in the course of some actions, when it was not busy. -/
def WorkerScheduled (w : Traffic) (actions : List Action) (kind : Kind) (id : Nat) : Prop :=
  ∃ before after worker, actions = before ++ .advance kind id :: after ∧
    (w.actAll before).cache.worker? kind id = some worker ∧ worker.item? = none

/-- A worker that has ended stays so. -/
theorem Step.workerEnded {a : Action} (hs : Step w a w') (ho : w.Orderly) {kind : Kind} {id : Nat}
    (h : w.cache.worker? kind id = some .ended) : w'.cache.worker? kind id = some .ended := by
  cases hs with
  | moves hm => exact hm.cache.retired kind id h
  | @enter d q _ hd =>
    obtain ⟨e, he, -⟩ := Option.bind_eq_some_iff.1 h
    have hne : d.kind ≠ kind := by
      rintro rfl
      exact ho.not_mem_of_draft hd (Std.ExtTreeMap.mem_iff_isSome_getElem?.2 (by rw [he]; rfl))
    have hsame : (w.enter d q).cache.entries[kind]? = w.cache.entries[kind]? :=
      (Kind.getElem?_insert _ _ _ _).trans (if_neg hne)
    rwa [Cache.worker?, hsame]
  | request _ hkeeps => exact hkeeps.retired kind id h
  | goOn _ hkeeps => exact hkeeps.retired kind id h
  | _ => exact h

/-- **A worker that runs after the stop signal and is not busy has ended from then on.** -/
theorem WorkerScheduled.ended {actions : List Action} {kind : Kind} {id : Nat}
    (h : w.WorkerScheduled actions kind id) (ho : w.Orderly) (hstopped : w.cache.stopped = true) :
    (w.actAll actions).cache.worker? kind id = some .ended := by
  obtain ⟨before, after, worker, rfl, hworker, hfree⟩ := h
  have ho' : (w.actAll before).Orderly := actAll_of_step (fun _ _ _ hs h ↦ h.step hs) ho before
  have hstopped' := (actAll_of_stopped hstopped before).1
  rw [actAll_append, actAll_cons]
  generalize w.actAll before = w at ho' hstopped' hworker
  have hthen : (w.act (.advance kind id)).cache.worker? kind id = some .ended := by
    obtain ⟨e, he, hw⟩ := Option.bind_eq_some_iff.1 hworker
    show (w.cache.advanceWorker kind id).1.worker? kind id = _
    rw [Cache.advanceWorker, he, hstopped']
    exact (congrArg (Option.bind · _) ((Kind.getElem?_insert _ _ _ _).trans (if_pos rfl))).trans
      (Fanout.worker?_advance hw hfree)
  have hrun := actAll_of_step (P := fun w ↦ w.Orderly ∧ w.cache.worker? kind id = some .ended)
    (fun _ _ _ hs h ↦ ⟨h.1.step hs, hs.workerEnded h.1 h.2⟩)
    ⟨ho'.step (step_act w _), hthen⟩ after
  exact hrun.2

/-! ### The result -/

/-- The result of the first call stays what it is. -/
theorem result?_actAll {result : Except ShutdownError Unit}
    (h : w.cache.shutdown.result? = some result) (actions : List Action) :
    (w.actAll actions).cache.shutdown.result? = some result := by
  refine actAll_of_step (P := fun w ↦ w.cache.shutdown.result? = some result)
    (fun w a w' hs h ↦ ?_) h actions
  cases hs with
  | moves hm => exact hm.cache.shutdown ▸ h
  | request hnone =>
    rw [hnone] at h
    cases h
  | goOn _ _ hshutdown hstage =>
    have hr := hstage.result_eq h
    exact hshutdown ▸ hr
  | _ => exact h

/-! ### All together -/

end Traffic

end Informer
