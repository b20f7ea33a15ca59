import Mathlib.Data.List.Basic
import Mathlib.Data.List.Induction
import Informer.Proofs.Session

/-!
# Fan-out is exact, ordered and isolated

Everything that can happen to the callbacks of one kind, in any order: registrations, notifications,
steps of the workers, ends of handlings, and the stop signal. Three facts carry the result
(`fanout_exact`):

* `sequence_act`: until the stop signal one action adds to the share of a callback, which is what it
  was given followed by what waits for it, exactly what the action dispatches;
* `given_of_stopped`: after the stop signal no action gives anything to anyone;
* `Ledger`: what was given to a callback is what it has finished, and after it what it is handling,
  and the reports of panics are those of the handlings that ended in one.

No hypothesis is made about any other callback, so one that hangs or panics is covered like any
other.
-/

namespace Informer.Fanout

/-- What can happen to the callbacks of one kind. -/
inductive Action where
  /-- A callback is registered; it first catches up with `replay`. -/
  | register (name : String) (replay : List Notification)
  | dispatch (n : Notification)
  /-- The worker of a callback runs while it is idle. -/
  | advance (id : Nat)
  /-- The handling that a callback is busy with ends. -/
  | complete (id : Nat) (outcome : Outcome)
  /-- The stop signal is given. -/
  | stop
deriving DecidableEq

/-- What an action sends to every callback that is registered. -/
def Action.sent : Action → List Notification
  | dispatch n => [n]
  | _ => []

/-- What some actions dispatch. -/
def dispatched (actions : List Action) : List Notification := actions.flatMap Action.sent

/-- One action. -/
def act (s : Session Fanout) : Action → Session Fanout
  | .register name replay =>
    { s.record (s.state.register s.nextCallback name replay) with
      nextCallback := s.nextCallback + 1 }
  | .dispatch n => s.record (s.state.dispatch n)
  | .advance id => match s.state.advance s.stopped id with
    | (state, .took n) => { s with state, handed := s.handed ++ [(id, n)] }
    | (state, _) => { s with state }
  | .complete id outcome =>
    { s.record (s.state.complete id outcome) with
      finished := s.finished ++ ((s.state.handling? id).map fun n ↦ (id, n, outcome)).toList }
  | .stop => { s with stopped := true }

/-- Some actions, one after another. -/
def actAll (s : Session Fanout) (actions : List Action) : Session Fanout := actions.foldl act s

/-- The callbacks of a kind before anything happened. -/
def blank (kind : Kind) (backlog? : Option Nat) : Session Fanout := { state := { kind, backlog? } }

/-- What a callback was given, and after it what waits for it. -/
def sequence (s : Session Fanout) (id : Nat) : List Notification :=
  s.handedTo id ++ s.state.queueOf id

@[simp] theorem actAll_nil (s : Session Fanout) : actAll s [] = s := rfl

@[simp] theorem actAll_cons (s : Session Fanout) (a : Action) (actions : List Action) :
    actAll s (a :: actions) = actAll (act s a) actions :=
  rfl

@[simp] theorem actAll_append (s : Session Fanout) (before after : List Action) :
    actAll s (before ++ after) = actAll (actAll s before) after :=
  List.foldl_append

@[simp] theorem dispatched_cons (a : Action) (actions : List Action) :
    dispatched (a :: actions) = a.sent ++ dispatched actions :=
  rfl

@[simp] theorem dispatched_append (before after : List Action) :
    dispatched (before ++ after) = dispatched before ++ dispatched after :=
  List.flatMap_append

/-! ### What an action does to a callback -/

/-- The numbers from the next one on are unused. -/
def Fresh (s : Session Fanout) : Prop :=
  ∀ id, s.nextCallback ≤ id → s.state.channel? id = none ∧ s.handedTo id = []

/-- The stop signal was not given, and no worker has ended. -/
def Awake (s : Session Fanout) : Prop :=
  s.stopped = false ∧ ∀ id c, s.state.channel? id = some c → c.worker.isEnded = false

/-- A change of a channel that keeps its name and, before the stop signal, its worker running. A
worker that has ended stays so. -/
structure Gentle (stopped : Bool) (g : Channel → Channel) : Prop where
  name : ∀ c, (g c).name = c.name
  ended : ∀ c, c.worker = .ended → (g c).worker = .ended
  running : ∀ c, stopped = false → (g c).worker.isEnded = c.worker.isEnded

theorem Gentle.id {stopped : Bool} : Gentle stopped fun c ↦ c :=
  ⟨fun _ ↦ rfl, fun _ h ↦ h, fun _ _ ↦ rfl⟩

theorem Gentle.ite {stopped : Bool} {g : Channel → Channel} (h : Gentle stopped g) (p : Prop)
    [Decidable p] : Gentle stopped fun c ↦ if p then g c else c := by
  by_cases hp : p
  · simpa only [if_pos hp] using h
  · simpa only [if_neg hp] using Gentle.id

theorem channel?_modify_eq_map {g : Channel → Channel} (hg : ∀ c, (g c).id = c.id) (f : Fanout)
    (id other : Nat) :
    (f.modify id g).channel? other =
      (f.channel? other).map fun c ↦ if other = id then g c else c := by
  rw [channel?_modify hg]
  split <;> simp

/-- A registration brings in the channel with the next number, holding its replay. -/
theorem channel?_act_register (s : Session Fanout) (name : String) (replay : List Notification)
    (id : Nat) :
    (act s (.register name replay)).state.channel? id = (s.state.channel? id).or
      (if id = s.nextCallback then some (replay.foldl (·.push) { id := s.nextCallback, name })
        else none) :=
  channel?_register s.state s.nextCallback name replay id

/-- What an action does to the channel of a callback: it brings the channel in, if it is the
registration, or it changes every channel gently and brings in none. -/
theorem channel?_act_cases (s : Session Fanout) (a : Action) (id : Nat) :
    (∃ name replay, a = .register name replay ∧
      (act s a).state.channel? id = (s.state.channel? id).or
        (if id = s.nextCallback then
          some (replay.foldl (·.push) { id := s.nextCallback, name }) else none)) ∨
    ∃ g, Gentle s.stopped g ∧ (act s a).state.channel? id = (s.state.channel? id).map g := by
  cases a with
  | register name replay => exact .inl ⟨name, replay, rfl, channel?_act_register s name replay id⟩
  | dispatch n =>
    refine .inr ⟨(·.push n), ⟨fun c ↦ push_name c n, fun c h ↦ push_ended h n, fun c _ ↦ ?_⟩, ?_⟩
    · rw [push_worker]
    · exact channel?_dispatch s.state n id
  | advance other =>
    rcases advance_cases s.state s.stopped other with
      ⟨-, n, -, -, -, -, -, h⟩ | ⟨hs, h, -⟩ | ⟨step, h, -⟩
    · have hg : Gentle s.stopped Channel.take :=
        ⟨take_name, fun _ ↦ take_ended, fun c _ ↦ take_isEnded c⟩
      exact .inr ⟨_, hg.ite (id = other), by
        simpa only [act, h] using channel?_modify_eq_map take_id s.state other id⟩
    · -- a worker ends after the stop signal only
      have hg : Gentle s.stopped Channel.finish :=
        ⟨fun _ ↦ rfl, fun _ _ ↦ rfl, fun _ hn ↦ by simp [hs] at hn⟩
      exact .inr ⟨_, hg.ite (id = other), by
        simpa only [act, h] using channel?_modify_eq_map finish_id s.state other id⟩
    · refine .inr ⟨_, .id, ?_⟩
      simp only [act, h]
      cases step <;> simp
  | complete other outcome =>
    rcases complete_cases s.state other outcome with ⟨-, -, h, -⟩ | ⟨-, h⟩
    · have hg : Gentle s.stopped Channel.rest :=
        ⟨rest_name, fun _ ↦ rest_ended, fun c _ ↦ rest_isEnded c⟩
      exact .inr ⟨_, hg.ite (id = other), by
        simpa only [act, Session.record, h] using channel?_modify_eq_map rest_id s.state other id⟩
    · exact .inr ⟨_, .id, by simp [act, Session.record, h]⟩
  | stop => exact .inr ⟨_, .id, by simp [act]⟩

theorem isSome_register (s : Session Fanout) (name : String) (replay : List Notification) :
    ((act s (.register name replay)).state.channel? s.nextCallback).isSome := by
  rw [channel?_act_register, if_pos rfl]
  cases s.state.channel? s.nextCallback <;> rfl

/-- Callbacks stay registered, under their names. -/
theorem nameOf_act {s : Session Fanout} {id : Nat} (h : (s.state.channel? id).isSome) (a : Action) :
    ((act s a).state.channel? id).isSome ∧ (act s a).state.nameOf id = s.state.nameOf id := by
  obtain ⟨c, hc⟩ := Option.isSome_iff_exists.1 h
  rcases channel?_act_cases s a id with ⟨name, replay, -, hs⟩ | ⟨g, hg, hs⟩
  · rw [nameOf, nameOf, hs, hc]
    exact ⟨rfl, rfl⟩
  · rw [nameOf, nameOf, hs, hc]
    exact ⟨rfl, hg.name c⟩

/-- A worker that has ended stays so. -/
theorem ended_act {s : Session Fanout} {id : Nat} (h : s.state.worker? id = some .ended)
    (a : Action) : (act s a).state.worker? id = some .ended := by
  obtain ⟨c, hc, hended⟩ := Option.map_eq_some_iff.1 h
  rcases channel?_act_cases s a id with ⟨name, replay, -, hs⟩ | ⟨g, hg, hs⟩
  · rw [worker?, hs, hc, Option.some_or, Option.map_some, hended]
  · rw [worker?, hs, hc, Option.map_some, Option.map_some, hg.ended c hended]

theorem nextCallback_act (s : Session Fanout) (a : Action) :
    s.nextCallback ≤ (act s a).nextCallback := by
  cases a with
  | register name replay => exact Nat.le_succ _
  | advance id =>
    simp only [act]
    split <;> exact Nat.le_refl _
  | _ => exact Nat.le_refl _

/-! ### What an action gives to a callback -/

/-- The notification that an action gives to a callback. -/
def given (s : Session Fanout) : Action → List (Nat × Notification)
  | .advance id => match (s.state.advance s.stopped id).2 with
    | .took n => [(id, n)]
    | _ => []
  | _ => []

theorem handed_act (s : Session Fanout) (a : Action) :
    (act s a).handed = s.handed ++ given s a := by
  cases a with
  | advance id =>
    rcases h : s.state.advance s.stopped id with ⟨state, step⟩
    cases step <;> simp [act, given, h]
  | _ => exact (List.append_nil _).symm

/-- A callback is given the first notification that waits for it, while its worker is idle and the
stop signal was not given. -/
theorem of_mem_given {s : Session Fanout} {a : Action} {p : Nat × Notification}
    (h : p ∈ given s a) :
    given s a = [p] ∧ s.stopped = false ∧ ∃ c rest, s.state.channel? p.1 = some c ∧
      c.worker = .idle ∧ c.queue = p.2 :: rest ∧ (act s a).state = s.state.modify p.1 .take := by
  cases a with
  | advance other =>
    rcases advance_cases s.state s.stopped other with
      ⟨c, m, rest, hc, hw, hq, hs, ha⟩ | ⟨-, ha, -⟩ | ⟨step, ha, hstep⟩
    · simp only [given, ha, List.mem_singleton] at h
      subst h
      exact ⟨by simp only [given, ha], hs, c, rest, hc, hw, hq, by simp only [act, ha]⟩
    · simp only [given, ha, List.not_mem_nil] at h
    · simp only [given, ha] at h
      cases step with
      | took m => exact absurd rfl (hstep m)
      | waits => cases h
      | ended => cases h
  | _ => cases h

theorem handedTo_act (s : Session Fanout) (a : Action) (id : Nat) :
    (act s a).handedTo id = s.handedTo id ++ ((given s a).filter (·.1 = id)).map (·.2) :=
  Session.handedTo_of_append (handed_act s a) id

/-- After the stop signal no action gives anything to anyone. -/
theorem given_of_stopped {s : Session Fanout} (h : s.stopped = true) (a : Action) :
    given s a = [] := by
  refine List.eq_nil_iff_forall_not_mem.2 fun p hp ↦ ?_
  obtain ⟨-, hs, -⟩ := of_mem_given hp
  rw [h] at hs
  cases hs

theorem handedTo_act_of_none {s : Session Fanout} {id : Nat} (h : s.state.channel? id = none)
    (a : Action) : (act s a).handedTo id = s.handedTo id := by
  have hnone : (given s a).filter (·.1 = id) = [] := by
    refine List.filter_eq_nil_iff.2 fun p hp hid ↦ ?_
    obtain ⟨-, -, c, -, hc, -⟩ := of_mem_given hp
    rw [of_decide_eq_true hid, h] at hc
    cases hc
  rw [handedTo_act, hnone, List.map_nil, List.append_nil]

/-! ### What every run keeps -/

theorem Fresh.act {s : Session Fanout} (h : Fresh s) (a : Action) : Fresh (act s a) := by
  intro id hid
  obtain ⟨hnone, hhanded⟩ := h id (Nat.le_trans (nextCallback_act s a) hid)
  refine ⟨?_, (handedTo_act_of_none hnone a).trans hhanded⟩
  rcases channel?_act_cases s a id with ⟨name, replay, rfl, hs⟩ | ⟨g, -, hs⟩
  · rw [hs, hnone, if_neg (Nat.ne_of_gt hid), Option.none_or]
  · rw [hs, hnone, Option.map_none]

theorem stopped_act (s : Session Fanout) {a : Action} (h : a ≠ .stop) :
    (act s a).stopped = s.stopped := by
  cases a with
  | advance id =>
    simp only [act]
    split <;> rfl
  | stop => exact absurd rfl h
  | _ => rfl

theorem Awake.act {s : Session Fanout} (h : Awake s) {a : Action} (ha : a ≠ .stop) :
    Awake (act s a) := by
  refine ⟨(stopped_act s ha).trans h.1, fun id c hc ↦ ?_⟩
  rcases channel?_act_cases s a id with ⟨name, replay, -, hs⟩ | ⟨g, hg, hs⟩
  · rw [hs, Option.or_eq_some_iff] at hc
    obtain hc | ⟨-, hc⟩ := hc
    · exact h.2 id c hc
    · split at hc
      · cases hc
        rw [(foldl_push replay _ rfl).2.2.1]
        rfl
      · cases hc
  · rw [hs, Option.map_eq_some_iff] at hc
    obtain ⟨old, hold, rfl⟩ := hc
    rw [hg.running old h.1, h.2 id old hold]

/-- **One action adds to the share of a callback exactly what it dispatches.** A step of a worker
only moves the border between what was given and what waits. -/
theorem sequence_act {s : Session Fanout} (h : Awake s) {id : Nat}
    (hid : (s.state.channel? id).isSome) (a : Action) :
    sequence (act s a) id = sequence s id ++ a.sent := by
  obtain ⟨c, hc⟩ := Option.isSome_iff_exists.1 hid
  have hqueue : s.state.queueOf id = c.queue := by rw [queueOf, hc]; rfl
  rw [sequence, sequence, hqueue]
  cases a with
  | register name replay =>
    have hc' : (act s (.register name replay)).state.channel? id = some c := by
      rw [channel?_act_register, hc, Option.some_or]
    simp only [queueOf, hc', Action.sent, List.append_nil]
    rfl
  | dispatch n =>
    have hc' : (act s (.dispatch n)).state.channel? id = some (c.push n) := by
      show (s.state.dispatch n).1.channel? id = _
      rw [channel?_dispatch, hc, Option.map_some]
    rw [queueOf, hc', Option.map_some, Option.getD_some, push_queue (h.2 id c hc),
      ← List.append_assoc]
    rfl
  | advance other =>
    rw [handedTo_act]
    simp only [Action.sent, List.append_nil]
    rcases advance_cases s.state s.stopped other with
      ⟨c', n, rest, hc', hw, hq, -, ha⟩ | ⟨hs, -, -⟩ | ⟨step, ha, hstep⟩
    · -- the notification goes from the front of the queue to the end of what was given
      simp only [given, act, ha, queueOf]
      by_cases ho : id = other
      · subst ho
        obtain rfl : c' = c := Option.some.inj (hc'.symm.trans hc)
        rw [channel?_modify_self take_id, hc]
        simp [take_queue hw hq, hq]
      · rw [channel?_modify_of_ne take_id ho, hc]
        simp [Ne.symm ho]
    · rw [h.1] at hs
      cases hs
    · simp only [given, act, ha, queueOf]
      cases step with
      | took n => exact absurd rfl (hstep n)
      | waits => simp [hc]
      | ended => simp [hc]
  | complete other outcome =>
    have hc' : ((act s (.complete other outcome)).state.channel? id).map (·.queue) =
        some c.queue := by
      rcases complete_cases s.state other outcome with ⟨-, -, ha, -⟩ | ⟨-, ha⟩
      · have hm := channel?_modify_eq_map rest_id s.state other id
        simp only [act, Session.record, ha, hm, hc, Option.map_some, Option.some.injEq]
        split
        · exact rest_queue c
        · rfl
      · simp [act, Session.record, ha, hc]
    simp only [queueOf, hc', Action.sent, List.append_nil]
    rfl
  | stop =>
    simp only [Action.sent, List.append_nil, ← hqueue]
    rfl

/-- A callback that was just registered is to be given its replay. -/
theorem sequence_register {s : Session Fanout} (h : Fresh s) (name : String)
    (replay : List Notification) :
    sequence (act s (.register name replay)) s.nextCallback = replay := by
  obtain ⟨hnone, hhanded⟩ := h s.nextCallback (Nat.le_refl _)
  rw [sequence, handedTo_act, hhanded, queueOf, channel?_act_register, hnone]
  simp [given, (foldl_push replay { id := s.nextCallback, name } rfl).2.2.2]

/-! ### Whole runs -/

theorem Fresh.actAll {s : Session Fanout} (h : Fresh s) (actions : List Action) :
    Fresh (actAll s actions) := by
  induction actions generalizing s with
  | nil => exact h
  | cons a actions ih => exact ih (h.act a)

theorem Awake.actAll {s : Session Fanout} (h : Awake s) {actions : List Action}
    (ha : .stop ∉ actions) : Awake (actAll s actions) := by
  induction actions generalizing s with
  | nil => exact h
  | cons a actions ih =>
    have hne := List.ne_of_not_mem_cons ha
    have hrest := List.not_mem_of_not_mem_cons ha
    exact ih (h.act (Ne.symm hne)) hrest

theorem fresh_blank (kind : Kind) (backlog? : Option Nat) : Fresh (blank kind backlog?) :=
  fun _ _ ↦ ⟨rfl, rfl⟩

theorem awake_blank (kind : Kind) (backlog? : Option Nat) : Awake (blank kind backlog?) :=
  ⟨rfl, fun _ _ h ↦ by cases h⟩

theorem isSome_channel?_actAll {s : Session Fanout} {id : Nat} (h : (s.state.channel? id).isSome)
    (actions : List Action) : ((actAll s actions).state.channel? id).isSome := by
  induction actions generalizing s with
  | nil => exact h
  | cons a actions ih => exact ih (nameOf_act h a).1

/-- A run adds to the share of a callback exactly what it dispatches. -/
theorem sequence_actAll {s : Session Fanout} (h : Awake s) {id : Nat}
    (hid : (s.state.channel? id).isSome) {actions : List Action} (ha : .stop ∉ actions) :
    sequence (actAll s actions) id = sequence s id ++ dispatched actions := by
  induction actions generalizing s with
  | nil => exact (List.append_nil _).symm
  | cons a actions ih =>
    have hne := List.ne_of_not_mem_cons ha
    have hrest := List.not_mem_of_not_mem_cons ha
    rw [actAll_cons, ih (h.act (Ne.symm hne)) (nameOf_act hid a).1 hrest, sequence_act h hid,
      List.append_assoc, dispatched_cons]

theorem handed_actAll_of_stopped {s : Session Fanout} (h : s.stopped = true)
    (actions : List Action) : (actAll s actions).handed = s.handed := by
  induction actions generalizing s with
  | nil => rfl
  | cons a actions ih =>
    have hs : (act s a).stopped = true := by
      by_cases ha : a = .stop
      · rw [ha]
        rfl
      · rw [stopped_act s ha, h]
    rw [actAll_cons, ih hs, handed_act, given_of_stopped h, List.append_nil]

/-- The share of a callback: its replay, and after it all that was dispatched since. -/
theorem sequence_of_register {s : Session Fanout} (hf : Fresh s) (h : Awake s) (name : String)
    (replay : List Notification) {after : List Action} (ha : .stop ∉ after) :
    sequence (actAll s (.register name replay :: after)) s.nextCallback =
      replay ++ dispatched after := by
  rw [actAll_cons, sequence_actAll (h.act (by simp)) (isSome_register s name replay) ha,
    sequence_register hf]

/-! ### Handlings and their ends -/

/-- The report that the end of a handling leaves behind. -/
def reportOf (f : Fanout) (x : Nat × Notification × Outcome) : Option RuntimeEvent :=
  f.panicReport? x.1 x.2.1 x.2.2

/-- The events that report a panic of a callback. -/
def panics (events : List RuntimeEvent) : List RuntimeEvent :=
  events.filter (·.topic = .callbackPanicked)

/-- The record of handlings adds up. -/
structure Ledger (s : Session Fanout) : Prop where
  /-- A callback handles one notification at a time, in the order in which they were given to it. -/
  serial : ∀ id, s.handedTo id = s.finishedBy id ++ (s.state.handling? id).toList
  /-- Only registered callbacks handle anything. -/
  registered : ∀ x ∈ s.finished, (s.state.channel? x.1).isSome
  /-- The reports of panics are those of the handlings that ended in one, each once. -/
  reported : panics s.events = s.finished.filterMap (reportOf s.state)

theorem ledger_blank (kind : Kind) (backlog? : Option Nat) : Ledger (blank kind backlog?) where
  serial _ := rfl
  registered _ h := by cases h
  reported := rfl

theorem panics_append (es fs : List RuntimeEvent) : panics (es ++ fs) = panics es ++ panics fs :=
  List.filter_append es fs

theorem panics_eq_nil {es : List RuntimeEvent} (h : ∀ e ∈ es, e.topic = .callbackBacklog) :
    panics es = [] :=
  List.filter_eq_nil_iff.2 fun e he ↦ by simp [h e he]

theorem kind_act (s : Session Fanout) (a : Action) : (act s a).state.kind = s.state.kind := by
  cases a with
  | advance id =>
    rcases advance_cases s.state s.stopped id with
      ⟨-, n, -, -, -, -, -, ha⟩ | ⟨-, ha, -⟩ | ⟨step, ha, -⟩
    · simp only [act, ha, modify]
    · simp only [act, ha, modify]
    · simp only [act, ha]
      cases step <;> rfl
  | complete id outcome =>
    rcases complete_cases s.state id outcome with ⟨-, -, ha, -⟩ | ⟨-, ha⟩ <;>
      simp only [act, Session.record, ha, modify]
  | _ => rfl

/-- Reports name a callback as it was registered, so later actions do not change them. -/
theorem reportOf_act {s : Session Fanout} {x : Nat × Notification × Outcome}
    (h : (s.state.channel? x.1).isSome) (a : Action) :
    reportOf (act s a).state x = reportOf s.state x := by
  rw [reportOf, reportOf, panicReport?.eq_def, panicReport?.eq_def, kind_act, (nameOf_act h a).2]

/-- What an action adds to the record of ended handlings. -/
def ended (s : Session Fanout) : Action → List (Nat × Notification × Outcome)
  | .complete id outcome => ((s.state.handling? id).map fun n ↦ (id, n, outcome)).toList
  | _ => []

theorem finished_act (s : Session Fanout) (a : Action) :
    (act s a).finished = s.finished ++ ended s a := by
  cases a with
  | advance id =>
    simp only [act, ended, List.append_nil]
    split <;> rfl
  | complete id outcome => rfl
  | _ => exact (List.append_nil _).symm

theorem isSome_of_mem_ended {s : Session Fanout} {a : Action} {x : Nat × Notification × Outcome}
    (h : x ∈ ended s a) : (s.state.channel? x.1).isSome := by
  cases a with
  | complete id outcome =>
    obtain ⟨n, hn, rfl⟩ := Option.map_eq_some_iff.1 (Option.mem_toList.1 h)
    obtain ⟨c, hc, -⟩ := Option.bind_eq_some_iff.1 hn
    rw [hc]
    rfl
  | _ => cases h

/-- An action publishes one report for each handling that it ends in a panic, and no other. -/
theorem panics_act (s : Session Fanout) (a : Action) :
    panics (act s a).events = panics s.events ++ (ended s a).filterMap (reportOf s.state) := by
  cases a with
  | register name replay =>
    simp only [act, Session.record, panics_append, ended, List.filterMap_nil]
    rw [panics_eq_nil fun _ ↦ topic_of_mem_register]
  | dispatch n =>
    simp only [act, Session.record, panics_append, ended, List.filterMap_nil]
    rw [panics_eq_nil fun _ ↦ topic_of_mem_dispatch]
  | advance id =>
    simp only [act, ended, List.filterMap_nil, List.append_nil]
    split <;> rfl
  | complete id outcome =>
    simp only [act, Session.record, panics_append, ended]
    rcases complete_cases s.state id outcome with ⟨n, hn, -, he⟩ | ⟨hn, ha⟩
    · rw [he, hn]
      cases outcome <;> rfl
    · rw [hn, ha]
      rfl
  | stop => exact (List.append_nil _).symm

/-- A handling begins when a notification is given and ends when it is completed; nothing else
touches what a callback is handling. -/
theorem handling?_act (s : Session Fanout) (a : Action) (id : Nat) :
    (s.state.handling? id).toList ++ ((given s a).filter (·.1 = id)).map (·.2) =
      ((ended s a).filter (·.1 = id)).map (·.2.1) ++ ((act s a).state.handling? id).toList := by
  cases a with
  | register name replay =>
    have hsame : (act s (.register name replay)).state.handling? id = s.state.handling? id := by
      rw [handling?, channel?_act_register, handling?]
      rcases s.state.channel? id with - | c
      · split
        · simp [(foldl_push replay { id := s.nextCallback, name } rfl).2.2.1, Worker.item?]
        · rfl
      · rfl
    simp [given, ended, hsame]
  | dispatch n =>
    have hsame : (act s (.dispatch n)).state.handling? id = s.state.handling? id := by
      show (s.state.dispatch n).1.handling? id = _
      rw [handling?, channel?_dispatch, Option.bind_map, handling?]
      simp only [Function.comp_def, push_worker]
    simp [given, ended, hsame]
  | advance other =>
    rcases advance_cases s.state s.stopped other with
      ⟨c, n, rest, hc, hw, hq, -, ha⟩ | ⟨-, ha, hnone⟩ | ⟨step, ha, hstep⟩
    · simp only [given, ended, act, ha, handling?_modify take_id, hc, Option.bind_some]
      by_cases ho : id = other
      · subst ho
        simp [handling?, hc, hw, Channel.take, hq, Worker.item?]
      · simp [ho, Ne.symm ho]
    · -- a worker ends while it is idle, so nothing is left half done
      simp only [given, ended, act, ha, handling?_modify finish_id]
      by_cases ho : id = other
      · subst ho
        cases s.state.channel? id <;> simp [hnone, Channel.finish, Worker.item?]
      · simp [ho]
    · simp only [given, ended, act, ha]
      cases step with
      | took n => exact absurd rfl (hstep n)
      | waits => simp
      | ended => simp
  | complete other outcome =>
    rcases complete_cases s.state other outcome with ⟨n, hn, ha, -⟩ | ⟨hn, ha⟩
    · simp only [given, ended, act, Session.record, ha, handling?_modify rest_id, hn]
      by_cases ho : id = other
      · subst ho
        cases s.state.channel? id <;> simp [hn, rest_item?]
      · simp [ho, Ne.symm ho]
    · simp [given, ended, act, Session.record, ha, hn]
  | stop => simp [given, ended, act]

theorem Ledger.act {s : Session Fanout} (h : Ledger s) (a : Action) : Ledger (act s a) where
  serial id := by
    rw [handedTo_act, Session.finishedBy_of_append (finished_act s a), h.serial, List.append_assoc,
      List.append_assoc, handling?_act]
  registered x hx := by
    rw [finished_act, List.mem_append] at hx
    rcases hx with hx | hx
    · exact (nameOf_act (h.registered x hx) a).1
    · exact (nameOf_act (isSome_of_mem_ended hx) a).1
  reported := by
    rw [panics_act, finished_act, h.reported, List.filterMap_append]
    congr 1
    · exact List.filterMap_congr fun x hx ↦ (reportOf_act (h.registered x hx) a).symm
    · exact List.filterMap_congr fun x hx ↦ (reportOf_act (isSome_of_mem_ended hx) a).symm

theorem Ledger.actAll {s : Session Fanout} (h : Ledger s) (actions : List Action) :
    Ledger (actAll s actions) := by
  induction actions generalizing s with
  | nil => exact h
  | cons a actions ih => exact ih (h.act a)

/-! ### The share of every callback -/

/-- Every callback was registered at some point of the run, and has the number that came next
then. -/
theorem exists_register (kind : Kind) (backlog? : Option Nat) (actions : List Action) (id : Nat)
    (h : ((actAll (blank kind backlog?) actions).state.channel? id).isSome) :
    ∃ before name replay after, actions = before ++ .register name replay :: after ∧
      id = (actAll (blank kind backlog?) before).nextCallback := by
  -- from the end of the run: the callback was there before the last action, or came with it
  induction actions using List.reverseRecOn with
  | nil => cases h
  | append_singleton actions a ih =>
    by_cases hold : ((actAll (blank kind backlog?) actions).state.channel? id).isSome
    · obtain ⟨before, name, replay, after, rfl, hid⟩ := ih hold
      exact ⟨before, name, replay, after ++ [a], by simp, hid⟩
    · have hnone := Option.not_isSome_iff_eq_none.1 hold
      rw [actAll_append, actAll_cons, actAll_nil] at h
      rcases channel?_act_cases (actAll (blank kind backlog?) actions) a id with
        ⟨name, replay, rfl, hs⟩ | ⟨g, -, hs⟩
      · rw [hs, hnone, Option.none_or] at h
        split at h
        · next hid => exact ⟨actions, name, replay, [], rfl, hid⟩
        · cases h
      · rw [hs, hnone] at h
        cases h

/-- **Fan-out is exact, ordered and isolated**, over every run of registrations, notifications,
steps of workers, ends of handlings (returns and panics alike; a callback that never returns has
none) and stop signals.

* Until the stop signal, what a callback was given, followed by what waits for it, is its replay
  followed by all that was dispatched since its registration; and every callback has such a
  registration.
* So any two callbacks get the same notifications in the same order from the later registration on.
* After the stop signal nothing is given to anyone.
* A callback handles what it is given one by one and in order, and the published reports of panics
  are, one for one, those of the handlings that ended in a panic, each with the key of its
  notification. -/
theorem fanout_exact (kind : Kind) (backlog? : Option Nat) :
    (∀ before name replay after, .stop ∉ before ++ .register name replay :: after →
      let id := (actAll (blank kind backlog?) before).nextCallback
      let s := actAll (blank kind backlog?) (before ++ .register name replay :: after)
      s.handedTo id ++ s.state.queueOf id = replay ++ dispatched after) ∧
    (∀ actions id, ((actAll (blank kind backlog?) actions).state.channel? id).isSome →
      ∃ before name replay after, actions = before ++ .register name replay :: after ∧
        id = (actAll (blank kind backlog?) before).nextCallback) ∧
    (∀ before name₁ replay₁ middle name₂ replay₂ after,
      let first := before ++ .register name₁ replay₁ :: middle
      let actions := first ++ .register name₂ replay₂ :: after
      .stop ∉ actions →
      let id₁ := (actAll (blank kind backlog?) before).nextCallback
      let id₂ := (actAll (blank kind backlog?) first).nextCallback
      let s := actAll (blank kind backlog?) actions
      (sequence s id₁).drop (replay₁ ++ dispatched middle).length = dispatched after ∧
        (sequence s id₂).drop replay₂.length = dispatched after) ∧
    (∀ before after id, (actAll (blank kind backlog?) (before ++ .stop :: after)).handedTo id =
      (actAll (blank kind backlog?) before).handedTo id) ∧
    ∀ actions, let s := actAll (blank kind backlog?) actions
      panics s.events = s.finished.filterMap (reportOf s.state) ∧
        ∀ id, s.handedTo id = s.finishedBy id ++ (s.state.handling? id).toList := by
  have hshare : ∀ before name replay after, .stop ∉ before ++ .register name replay :: after →
      sequence (actAll (blank kind backlog?) (before ++ .register name replay :: after))
        (actAll (blank kind backlog?) before).nextCallback = replay ++ dispatched after := by
    intro before name replay after hstop
    obtain ⟨hbefore, hafter⟩ := not_or.1 (mt List.mem_append.2 hstop)
    rw [actAll_append]
    exact sequence_of_register ((fresh_blank kind backlog?).actAll before)
      ((awake_blank kind backlog?).actAll hbefore) name replay
      (List.not_mem_of_not_mem_cons hafter)
  refine ⟨hshare, exists_register kind backlog?, ?_, ?_, ?_⟩
  · intro before name₁ replay₁ middle name₂ replay₂ after first actions hstop id₁ id₂ s
    -- to the first callback the second registration is an action that dispatches nothing
    have hsplit : actions = before ++ .register name₁ replay₁ ::
        (middle ++ .register name₂ replay₂ :: after) := by simp [actions, first]
    have h₁ : sequence s id₁ = replay₁ ++ dispatched middle ++ dispatched after := by
      have := hshare before name₁ replay₁ _ (hsplit ▸ hstop)
      rw [← hsplit] at this
      rw [this, dispatched_append, dispatched_cons, List.append_assoc]
      rfl
    have h₂ : sequence s id₂ = replay₂ ++ dispatched after :=
      hshare first name₂ replay₂ after hstop
    exact ⟨by rw [h₁, List.drop_left], by rw [h₂, List.drop_left]⟩
  · intro before after id
    rw [actAll_append, actAll_cons, Session.handedTo, handed_actAll_of_stopped rfl]
    rfl
  · intro actions s
    have h := (ledger_blank kind backlog?).actAll actions
    exact ⟨h.reported, h.serial⟩

/-- Beside a callback that never returns another one gets everything, and panics on it; the replay
of a third one comes first. -/
theorem fanout_exact_beside_stuck :
    let o : Object :=
      ⟨.object [("metadata", .object [("name", .string "a")])], { name := "a" }, rfl⟩
    let before : List Action := [.register "stuck" [], .register "panics" [], .dispatch (.added o),
      .advance 1, .advance 2, .complete 2 (.panicked "boom")]
    let after : List Action := [.dispatch (.updated o o), .advance 2, .advance 3]
    let s := actAll (blank ⟨"", "v1", "Node"⟩ none) (before ++ .register "late" [.added o] :: after)
    s.handedTo 1 = [.added o] ∧ s.handedTo 2 = [.added o, .updated o o] ∧
      s.handedTo 3 ++ s.state.queueOf 3 = [.added o] ++ [.updated o o] :=
  ⟨rfl, rfl, (fanout_exact ⟨"", "v1", "Node"⟩ none).1 _ "late" _ _ (by decide)⟩

end Informer.Fanout
